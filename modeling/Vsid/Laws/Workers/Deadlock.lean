import Vsid.Laws.Workers.Counting

/-!
# The end of a threaded run

`finished` waits until the queues are empty, takes the mutex, and waits for the packets of one flow
after the other. A worker that has taken a packet from its queue and not looked it up needs the
mutex to go on. `not_deadlocked`: if there is no such worker, for a flow that has packets to wait
for, when `finished` takes the mutex, the sweep does not hang. `finished_deadlocks` has such a
worker, and `deadlocked_forever` says that the state is final.

The reason is `Bounded`, an invariant of all runs: a flow in the table counts no packets but those
that are queued under its hash or in somebody's hands.
-/

set_option autoImplicit false

namespace Vsid

variable {R : Type}

/-- The worker has a packet of the hash in its hands and has not looked it up. -/
def WorkerPc.waits (S : Setup R) (h : UInt32) : WorkerPc → Nat
  | lookup job => if S.flowHash job.packet.tuple = h then 1 else 0
  | replacing job _ _ => if S.flowHash job.packet.tuple = h then 1 else 0
  | _ => 0

/-- The number of queues that `finished` has seen empty. -/
def ProducerPc.drained (n : Nat) : ProducerPc → Nat
  | draining k => k
  | sweeping => n
  | spinning .. => n
  | sweepNotify .. => n
  | _ => 0

namespace State

/-- What queue `q` and its worker have for flow `j` of hash `h`. -/
def share (S : Setup R) (s : State R) (h : UInt32) (j : FlowId) (q : Nat) : Nat :=
  (s.queues q).countP (fun job => S.flowHash job.packet.tuple == h) + (s.worker q).waits S h +
    (s.worker q).uncounted j

/-- What there is for flow `j` of hash `h`. -/
def claims (S : Setup R) (s : State R) (h : UInt32) (j : FlowId) : Nat :=
  ∑ q ∈ Finset.range S.config.workerThreadsPerQueue, s.share S h j q + s.producer.holds j

/-- No flow in the table counts more packets than there are. -/
def Bounded (S : Setup R) (s : State R) : Prop :=
  ∀ (h : UInt32) (j : FlowId) (c : Int), s.mgr.flows h = some j → s.mgr.counterAt j = some c →
    c ≤ s.claims S h j

section Bounded

variable {S : Setup R} {s s' : State R}

theorem bounded_init (S : Setup R) : Bounded S (State.init : State R) := by
  intro h j c hj
  cases hj

/-- Only one queue and its worker have changed. -/
theorem sum_share_of_ne {t : State R} {i : Nat} (hi : i < S.config.workerThreadsPerQueue)
    {h : UInt32} {j : FlowId} (hother : ∀ q, q ≠ i → t.share S h j q = s.share S h j q) :
    ∑ q ∈ Finset.range S.config.workerThreadsPerQueue, t.share S h j q + s.share S h j i =
      ∑ q ∈ Finset.range S.config.workerThreadsPerQueue, s.share S h j q + t.share S h j i :=
  Keyed.sum_range_of_ne hi hother

/-- The producer makes a move: what it adds to a counter it has in its hands. -/
theorem Bounded.producerMoves (hb : Bounded S s)
    (hshare : ∀ h j q, s'.share S h j q = s.share S h j q)
    (hmoves : ∀ h j c', s'.mgr.flows h = some j → s'.mgr.counterAt j = some c' →
      c' ≤ 0 ∨ ∃ c, s.mgr.flows h = some j ∧ s.mgr.counterAt j = some c ∧
        c' + s.producer.holds j ≤ c + s'.producer.holds j) : Bounded S s' := by
  intro h j c' hj hc'
  rcases hmoves h j c' hj hc' with hle | ⟨c, hold, hc, hle⟩
  · omega
  · have hbound := hb h j c hold hc
    have hsum : ∑ q ∈ Finset.range S.config.workerThreadsPerQueue, s'.share S h j q =
        ∑ q ∈ Finset.range S.config.workerThreadsPerQueue, s.share S h j q :=
      Finset.sum_congr rfl fun q _ => hshare h j q
    unfold claims at hbound ⊢
    rw [hsum]
    omega

/-- A worker makes a move: what it counts off it had in its hands. -/
theorem Bounded.workerMoves (hb : Bounded S s) {i : Nat} (hi : i < S.config.workerThreadsPerQueue)
    (hproducer : s'.producer = s.producer)
    (hother : ∀ h j q, q ≠ i → s'.share S h j q = s.share S h j q)
    (hmoves : ∀ h j c', s'.mgr.flows h = some j → s'.mgr.counterAt j = some c' →
      c' ≤ 0 ∨ ∃ c, s.mgr.flows h = some j ∧ s.mgr.counterAt j = some c ∧
        c' + s.share S h j i ≤ c + s'.share S h j i) : Bounded S s' := by
  intro h j c' hj hc'
  rcases hmoves h j c' hj hc' with hle | ⟨c, hold, hc, hle⟩
  · omega
  · have hbound := hb h j c hold hc
    have hsum := sum_share_of_ne hi (hother h j)
    unfold claims at hbound ⊢
    rw [hproducer]
    omega

/-- A thread makes a move that has to do with no counter and no entry. -/
theorem Bounded.keeps (hb : Bounded S s) (hflows : ∀ h j, s'.mgr.flows h = some j →
      s.mgr.flows h = some j) (hcounter : ∀ j, s'.mgr.counterAt j = s.mgr.counterAt j)
    (hshare : ∀ h j q, s'.share S h j q = s.share S h j q)
    (hholds : ∀ j, s'.producer.holds j = s.producer.holds j) : Bounded S s' := by
  refine hb.producerMoves hshare fun h j c' hj hc' => Or.inr ⟨c', hflows h j hj, ?_, ?_⟩
  · rw [← hcounter, hc']
  · rw [hholds]

theorem share_congr (hqueues : s'.queues = s.queues) (hworker : s'.worker = s.worker)
    (h : UInt32) (j : FlowId) (q : Nat) : s'.share S h j q = s.share S h j q := by
  unfold share
  rw [hqueues, hworker]

theorem share_setWorker {i : Nat} {pc : WorkerPc} (hqueues : s'.queues = s.queues)
    (hworker : s'.worker = Function.update s.worker i pc)
    (hwaits : ∀ h, pc.waits S h = (s.worker i).waits S h)
    (huncounted : ∀ j, pc.uncounted j = (s.worker i).uncounted j) (h : UInt32) (j : FlowId)
    (q : Nat) : s'.share S h j q = s.share S h j q := by
  unfold share
  rw [hqueues, hworker]
  by_cases hq : q = i
  · rw [hq, Function.update_self, hwaits, huncounted]
  · rw [Function.update_of_ne hq]

theorem erase_flows_some {m : FlowManager R} {h k : UInt32} {j : FlowId}
    (hj : (m.erase h).flows k = some j) : m.flows k = some j := by
  rw [FlowManager.erase_flows] at hj
  by_cases hk : k = h
  · rw [hk, Function.update_self] at hj
    cases hj
  · rw [Function.update_of_ne hk] at hj
    exact hj

/-- An entry after an insertion is the new flow, which counts nothing, or was there before. -/
theorem insertFlow_entry [Double R] {m : FlowManager R} (self : Option Nat) {p : IPv4Packet}
    (hm : m.Indexed S) {h : UInt32} {j : FlowId} {c' : Int}
    (hj : (m.insertFlow S self p).1.flows h = some j)
    (hc' : (m.insertFlow S self p).1.counterAt j = some c') :
    c' ≤ 0 ∨ h ≠ S.flowHash p.tuple ∧ m.flows h = some j ∧ m.counterAt j = some c' := by
  rw [FlowManager.insertFlow_flows] at hj
  rw [FlowManager.insertFlow_counterAt] at hc'
  by_cases hh : h = S.flowHash p.tuple
  · rw [hh, Function.update_self] at hj
    cases hj
    rw [if_pos rfl] at hc'
    cases hc'
    exact Or.inl (Int.le_refl 0)
  · rw [Function.update_of_ne hh] at hj
    have hlt := FlowManager.lt_length_of_hashAt (hm.valid h j hj)
    rw [if_neg (Nat.ne_of_lt hlt)] at hc'
    exact Or.inr ⟨hh, hj, hc'⟩

variable [Double R]

omit [Double R] in
theorem share_of_ne {i : Nat} {pc : WorkerPc} (hqueues : s'.queues = s.queues)
    (hworker : s'.worker = Function.update s.worker i pc) (h : UInt32) (j : FlowId) (q : Nat)
    (hq : q ≠ i) : s'.share S h j q = s.share S h j q := by
  unfold share
  rw [hqueues, hworker, Function.update_of_ne hq]

omit [Double R] in
/-- A worker comes back from `getFlow` with a flow that is new or was in the table. -/
theorem Bounded.workerFinds (hb : Bounded S s) {i : Nat}
    (hi : i < S.config.workerThreadsPerQueue) {job : Job} {k : FlowId}
    (hold : ∀ h, (s.worker i).waits S h = if S.flowHash job.packet.tuple = h then 1 else 0)
    (hold' : ∀ j, (s.worker i).uncounted j = 0) (hqueues : s'.queues = s.queues)
    (hproducer : s'.producer = s.producer)
    (hworker : s'.worker = Function.update s.worker i (.found job.packet k))
    (hentry : ∀ h j c', s'.mgr.flows h = some j → s'.mgr.counterAt j = some c' →
      c' ≤ 0 ∨ ((S.flowHash job.packet.tuple = h → k = j) ∧ s.mgr.flows h = some j ∧
        s.mgr.counterAt j = some c')) : Bounded S s' := by
  refine hb.workerMoves hi hproducer (share_of_ne hqueues hworker) fun h j c' hj hc' => ?_
  rcases hentry h j c' hj hc' with hle | ⟨hkj, hflows, hc⟩
  · exact Or.inl hle
  · refine Or.inr ⟨c', hflows, hc, ?_⟩
    have hnew : s'.worker i = .found job.packet k := by rw [hworker, Function.update_self]
    have hwaits : (s'.worker i).waits S h = 0 := by rw [hnew]; rfl
    have huncounted : (s'.worker i).uncounted j = if k = j then 1 else 0 := by rw [hnew]; rfl
    simp only [share, hqueues, hold, hold', hwaits, huncounted]
    by_cases hhash : S.flowHash job.packet.tuple = h
    · rw [if_pos hhash, if_pos (hkj hhash)]
    · rw [if_neg hhash]
      omega

omit [Double R] in
/-- A packet that the producer has counted is one of its hash in the queue. -/
theorem Bounded.pushes (hb : Bounded S s) (hs : Sound S s) {p : IPv4Packet} {i : FlowId} {q : Nat}
    (hp : s.producer = .pushing p i) (hq : s.mgr.queueAt i = some (q : Int)) :
    Bounded S { s with
      queues := Function.update s.queues q (s.queues q ++ [⟨p, i⟩])
      producer := .idle
      pushed := s.pushed ++ [Job.mk p i] } := by
  intro h j c hj hc
  have hbound := hb h j c hj hc
  have hpc := hs.producer
  rw [hp] at hpc
  obtain ⟨q', hq', -, hqn⟩ := queueAt_of_hashAt hs hpc
  obtain rfl : q = q' := FlowManager.queueAt_unique hq hq'
  have hsum := sum_share_of_ne hqn (s := s) (t := { s with
      queues := Function.update s.queues q (s.queues q ++ [⟨p, i⟩])
      producer := .idle
      pushed := s.pushed ++ [Job.mk p i] }) (h := h) (j := j) fun k hk => by
    simp only [share, Function.update_of_ne hk]
  have hkey : i = j → S.flowHash p.tuple = h := by
    intro hij
    have hvalid := hs.indexed.valid h j hj
    rw [← hij] at hvalid
    exact Option.some.inj (hpc.symm.trans hvalid)
  simp only [claims, hp, ProducerPc.holds] at hbound ⊢
  simp only [share, Function.update_self, List.countP_append, List.countP_singleton,
    beq_iff_eq] at hsum hbound ⊢
  by_cases hij : i = j
  · rw [if_pos hij] at hbound
    rw [if_pos (hkey hij)] at hsum
    omega
  · rw [if_neg hij] at hbound
    omega

/-- **A step leaves every counter bounded.** -/
theorem bounded_moves (hb : Bounded S s) (hs : Sound S s) {a : Action} (h : Moves S s a s') :
    Bounded S s' := by
  cases h with
  | refused p hp hdown => exact hb
  | shutdown => exact hb
  | created p hp hfree hnone =>
    refine hb.producerMoves (share_congr rfl rfl) fun h j c' hj hc' => ?_
    rcases insertFlow_entry none hs.indexed hj hc' with hle | ⟨-, hold, hc⟩
    · exact Or.inl hle
    · exact Or.inr ⟨c', hold, hc, by rw [hp]; exact Int.le_refl _⟩
  | replaceNotifies p i f stage stage' m hp hf hnot =>
    exact hb.keeps (fun h j hj => by rw [← hnot.flows]; exact hj) hnot.counterAt
      (share_congr rfl rfl) fun _ => by rw [hp]; rfl
  | replaced p i hp =>
    refine hb.producerMoves (share_congr rfl rfl) fun h j c' hj hc' => ?_
    rcases insertFlow_entry none (hs.indexed.erase _) hj hc' with hle | ⟨-, hold, hc⟩
    · exact Or.inl hle
    · rw [FlowManager.erase_counterAt] at hc
      exact Or.inr ⟨c', erase_flows_some hold, hc, by rw [hp]; exact Int.le_refl _⟩
  | counted p i hp =>
    refine hb.producerMoves (share_congr rfl rfl) fun h j c' hj hc' => Or.inr ?_
    obtain ⟨c, hc, rfl⟩ := FlowManager.exists_counterAt (g := Flow.incPktsInQueue) (d := 1)
      (fun _ => rfl) hc'
    refine ⟨c, hj, hc, ?_⟩
    simp only [hp, ProducerPc.holds]
    split <;> omega
  | pushed p i q hp hq hroom =>
    exact hb.pushes hs hp hq
  | full p i q hp hq hroom =>
    exact hb.keeps (fun _ _ h => h) (fun _ => rfl) (share_congr rfl rfl) fun _ => by rw [hp]; rfl
  | undone i hp =>
    refine hb.producerMoves (share_congr rfl rfl) fun h j c' hj hc' => Or.inr ?_
    obtain ⟨c, hc, rfl⟩ := FlowManager.exists_counterAt (g := Flow.decPktsInQueue) (d := -1)
      (fun _ => rfl) hc'
    refine ⟨c, hj, hc, ?_⟩
    simp only [hp, ProducerPc.holds]
    split <;> omega
  | sweepNotifies k i f stage stage' m hp hf hnot =>
    exact hb.keeps (fun h j hj => by rw [← hnot.flows]; exact hj) hnot.counterAt
      (share_congr rfl rfl) fun _ => by rw [hp]; rfl
  | swept k i hp =>
    exact hb.keeps (fun _ _ h => erase_flows_some h) (FlowManager.erase_counterAt s.mgr k)
      (share_congr rfl rfl) fun _ => by rw [hp]; rfl
  | popped i job rest hi hw hup hq =>
    refine hb.keeps (fun _ _ h => h) (fun _ => rfl) (fun h j q => ?_) fun _ => rfl
    simp only [share, setWorker]
    by_cases hqi : q = i
    · subst hqi
      rw [Function.update_self, Function.update_self, hw, hq, List.countP_cons]
      simp only [WorkerPc.waits, WorkerPc.uncounted, beq_iff_eq, Nat.add_zero]
    · rw [Function.update_of_ne hqi, Function.update_of_ne hqi]
  | workerCreated i job hi hw hfree hnone =>
    refine hb.workerFinds hi (fun _ => by rw [hw]; rfl) (fun _ => by rw [hw]; rfl) rfl rfl rfl
      fun h j c' hj hc' => ?_
    rcases insertFlow_entry (some i) hs.indexed hj hc' with hle | ⟨hne, hold, hc⟩
    · exact Or.inl hle
    · exact Or.inr ⟨fun heq => absurd heq.symm hne, hold, hc⟩
  | workerReused i job k f hi hw hfree hk hf hrep =>
    refine hb.workerFinds hi (fun _ => by rw [hw]; rfl) (fun _ => by rw [hw]; rfl) rfl rfl rfl
      fun h j c' hj hc' => Or.inr ⟨fun heq => ?_, hj, hc'⟩
    have hj' : s.mgr.flows h = some j := hj
    rw [heq, hj'] at hk
    exact (Option.some.inj hk).symm
  | workerReplaced i job k hi hw =>
    refine hb.workerFinds hi (fun _ => by rw [hw]; rfl) (fun _ => by rw [hw]; rfl) rfl rfl rfl
      fun h j c' hj hc' => ?_
    rcases insertFlow_entry (some i) (hs.indexed.erase _) hj hc' with hle | ⟨hne, hold, hc⟩
    · exact Or.inl hle
    · rw [FlowManager.erase_counterAt] at hc
      exact Or.inr ⟨fun heq => absurd heq.symm hne, erase_flows_some hold, hc⟩
  | workerReplaceNotifies i job k f stage stage' m hi hw hf hnot =>
    exact hb.keeps (fun h j hj => by rw [← hnot.flows]; exact hj) hnot.counterAt
      (share_setWorker rfl rfl (fun _ => by rw [hw]; rfl) fun _ => by rw [hw]; rfl) fun _ => rfl
  | decremented i p k f hi hw hf =>
    refine hb.workerMoves hi rfl (share_of_ne rfl rfl) fun h j c' hj hc' => Or.inr ?_
    obtain ⟨c, hc, rfl⟩ := FlowManager.exists_counterAt (g := Flow.decPktsInQueue) (d := -1)
      (fun _ => rfl) hc'
    refine ⟨c, hj, hc, ?_⟩
    simp only [share, setWorker, Function.update_self, hw, WorkerPc.waits, WorkerPc.uncounted]
    split <;> omega
  | applies i p k c hi hw =>
    exact hb.keeps (fun _ _ h => h)
      (FlowManager.modifyFlow_counterAt_same fun f => f.addPacket_pktsInQueue S p)
      (share_setWorker rfl rfl (fun _ => by rw [hw]; rfl) fun _ => by rw [hw]; rfl) fun _ => rfl
  | notifies i k f stage stage' m hi hw hf hnot =>
    exact hb.keeps (fun h j hj => by rw [← hnot.flows]; exact hj) hnot.counterAt
      (share_setWorker rfl rfl (fun _ => by rw [hw]; rfl) fun _ => by rw [hw]; rfl) fun _ => rfl
  | marks i k f hi hw hfree hf hbusy =>
    exact hb.keeps (fun _ _ h => h)
      (FlowManager.modifyFlow_counterAt_same (g := Flow.setFinishedAndNotified) fun _ => rfl)
      (share_setWorker rfl rfl (fun _ => by rw [hw]; rfl) fun _ => by rw [hw]; rfl) fun _ => rfl
  | deletes i k f hi hw hfree hf hidle =>
    exact hb.keeps (fun _ _ h => erase_flows_some h) (FlowManager.erase_counterAt s.mgr _)
      (share_setWorker rfl rfl (fun _ => by rw [hw]; rfl) fun _ => by rw [hw]; rfl) fun _ => rfl
  | exits i hi hw hdown =>
    exact hb.keeps (fun _ _ h => h) (fun _ => rfl)
      (share_setWorker rfl rfl (fun _ => by rw [hw]; rfl) fun _ => by rw [hw]; rfl) fun _ => rfl
  | workerReplaces i job k f hi hw hfree hk hf hrep =>
    exact hb.keeps (fun _ _ h => h) (fun _ => rfl)
      (share_setWorker rfl rfl (fun _ => by rw [hw]; rfl) fun _ => by rw [hw]; rfl) fun _ => rfl
  | announces i k c f hi hw hf hnew =>
    exact hb.keeps (fun _ _ h => h) (fun _ => rfl)
      (share_setWorker rfl rfl (fun _ => by rw [hw]; rfl) fun _ => by rw [hw]; rfl) fun _ => rfl
  | announcesNothing i k c f hi hw hf hold =>
    exact hb.keeps (fun _ _ h => h) (fun _ => rfl)
      (share_setWorker rfl rfl (fun _ => by rw [hw]; rfl) fun _ => by rw [hw]; rfl) fun _ => rfl
  | seesFinished i k f hi hw hf hstate =>
    exact hb.keeps (fun _ _ h => h) (fun _ => rfl)
      (share_setWorker rfl rfl (fun _ => by rw [hw]; rfl) fun _ => by rw [hw]; rfl) fun _ => rfl
  | seesUnfinished i k f hi hw hf hstate =>
    exact hb.keeps (fun _ _ h => h) (fun _ => rfl)
      (share_setWorker rfl rfl (fun _ => by rw [hw]; rfl) fun _ => by rw [hw]; rfl) fun _ => rfl
  | seesNotified i k f hi hw hf hstate =>
    exact hb.keeps (fun _ _ h => h) (fun _ => rfl)
      (share_setWorker rfl rfl (fun _ => by rw [hw]; rfl) fun _ => by rw [hw]; rfl) fun _ => rfl
  | keeps i k f hi hw hf hstate =>
    exact hb.keeps (fun _ _ h => h) (fun _ => rfl)
      (share_setWorker rfl rfl (fun _ => by rw [hw]; rfl) fun _ => by rw [hw]; rfl) fun _ => rfl
  | notified i k hi hw =>
    exact hb.keeps (fun _ _ h => h) (fun _ => rfl)
      (share_setWorker rfl rfl (fun _ => by rw [hw]; rfl) fun _ => by rw [hw]; rfl) fun _ => rfl
  | called p hp hup =>
    exact hb.keeps (fun _ _ h => h) (fun _ => rfl) (share_congr rfl rfl) fun _ => by rw [hp]; rfl
  | finishing hp =>
    exact hb.keeps (fun _ _ h => h) (fun _ => rfl) (share_congr rfl rfl) fun _ => by rw [hp]; rfl
  | reused p i f hp hfree hi hf hrep =>
    exact hb.keeps (fun _ _ h => h) (fun _ => rfl) (share_congr rfl rfl) fun _ => by rw [hp]; rfl
  | replaces p i f hp hfree hi hf hrep =>
    exact hb.keeps (fun _ _ h => h) (fun _ => rfl) (share_congr rfl rfl) fun _ => by rw [hp]; rfl
  | drained k hp hk hempty =>
    exact hb.keeps (fun _ _ h => h) (fun _ => rfl) (share_congr rfl rfl) fun _ => by rw [hp]; rfl
  | locked k hp hk hfree =>
    exact hb.keeps (fun _ _ h => h) (fun _ => rfl) (share_congr rfl rfl) fun _ => by rw [hp]; rfl
  | picked k i hp hk =>
    exact hb.keeps (fun _ _ h => h) (fun _ => rfl) (share_congr rfl rfl) fun _ => by rw [hp]; rfl
  | waited k i f hp hf hidle =>
    exact hb.keeps (fun _ _ h => h) (fun _ => rfl) (share_congr rfl rfl) fun _ => by rw [hp]; rfl
  | returned hp hempty =>
    exact hb.keeps (fun _ _ h => h) (fun _ => rfl) (share_congr rfl rfl) fun _ => by rw [hp]; rfl

end Bounded

/-! ## The sweep -/

/-- The worker is about to look up a packet of a flow that has packets to wait for. -/
def hangs (S : Setup R) (s : State R) (w : Nat) : Bool :=
  match s.worker w with
  | .lookup job =>
    match s.mgr.flows (S.flowHash job.packet.tuple) with
    | none => false
    | some j => s.mgr.heap[j]?.any Flow.havePktsInQueue
  | _ => false

/-- `finished` does not take the mutex from under such a worker. -/
def patient (S : Setup R) (s : State R) : Action → Bool
  | .producer =>
    match s.producer with
    | .draining k => decide (k < S.config.workerThreadsPerQueue) ||
        (List.range S.config.workerThreadsPerQueue).all fun w => !s.hangs S w
    | _ => true
  | _ => true

/-- Worker `w` is on its way to `decPktsInQueue` for flow `j`. -/
def couldDecrement (S : Setup R) (s : State R) (w : Nat) (j : FlowId) : Prop :=
  match s.worker w with
  | .found _ i => i = j
  | .lookup job => s.mgr.flows (S.flowHash job.packet.tuple) = some j
  | _ => False

/-- Worker `w` waits for the mutex in `getFlow`. -/
def blocked (s : State R) (w : Nat) : Prop :=
  s.mutex.isSome = true ∧ ∃ job, s.worker w = .lookup job

/-- `finished` holds the mutex and waits for a flow, and whoever could count a packet of it off
waits for the mutex. -/
def Deadlocked (S : Setup R) (s : State R) : Prop :=
  s.mutex = some .producer ∧ ∃ h j f, s.producer = .spinning h j ∧ s.mgr.heap[j]? = some f ∧
    f.havePktsInQueue = true ∧
    ∀ w, w < S.config.workerThreadsPerQueue → s.couldDecrement S w j → s.blocked w

section Sweep

variable {S : Setup R} {s s' : State R}

theorem havePkts_iff {m : FlowManager R} {j : FlowId} :
    m.heap[j]?.any Flow.havePktsInQueue = true ↔ ∃ c, m.counterAt j = some c ∧ 0 < c := by
  unfold FlowManager.counterAt
  cases m.heap[j]? with
  | none => simp only [Option.any_none, Bool.false_eq_true, Option.map_none, reduceCtorEq,
      false_and, exists_const]
  | some f => simp only [Option.any_some, Flow.havePktsInQueue, decide_eq_true_eq, Option.map_some,
      Option.some.injEq, exists_eq_left']

theorem hangs_iff {w : Nat} :
    s.hangs S w = true ↔ ∃ job j c, s.worker w = .lookup job ∧
      s.mgr.flows (S.flowHash job.packet.tuple) = some j ∧ s.mgr.counterAt j = some c ∧ 0 < c := by
  unfold hangs
  constructor
  · intro h
    split at h
    next job hw =>
      split at h
      next => cases h
      next j hj =>
        obtain ⟨c, hc, hpos⟩ := havePkts_iff.mp h
        exact ⟨job, j, c, hw, hj, hc, hpos⟩
    next => cases h
  · rintro ⟨job, j, c, hw, hj, hc, hpos⟩
    simp only [hw, hj]
    exact havePkts_iff.mpr ⟨c, hc, hpos⟩

/-- The queues that `finished` has seen empty are empty, and in its sweep it waits for no packet
that a worker cannot look up. -/
structure Sweep (S : Setup R) (s : State R) : Prop where
  empty : ∀ q, q < s.producer.drained S.config.workerThreadsPerQueue → s.queues q = []
  clear : s.producer.sweeps = true → ∀ w, w < S.config.workerThreadsPerQueue →
    s.hangs S w = false

theorem sweep_init (S : Setup R) : Sweep S (State.init : State R) where
  empty q h := by cases h
  clear h := by cases h

/-- The producer is not in `finished`. -/
theorem sweep_away (hdrained : s.producer.drained S.config.workerThreadsPerQueue = 0)
    (hsweeps : s.producer.sweeps = false) : Sweep S s where
  empty q hq := by
    rw [hdrained] at hq
    exact absurd hq (Nat.not_lt_zero q)
  clear h := by
    rw [hsweeps] at h
    cases h

/-- A move that brings no worker to a look-up, no entry to the table and no packet to a flow. -/
theorem Sweep.keeps (h : Sweep S s)
    (hdrained : s'.producer.drained S.config.workerThreadsPerQueue =
      s.producer.drained S.config.workerThreadsPerQueue)
    (hsweeps : s'.producer.sweeps = s.producer.sweeps)
    (hqueues : ∀ q, s.queues q = [] → s'.queues q = [])
    (hlookup : s.producer.sweeps = true → ∀ w job, s'.worker w = .lookup job →
      s.worker w = .lookup job)
    (hflows : s.producer.sweeps = true → ∀ k j, s'.mgr.flows k = some j → s.mgr.flows k = some j)
    (hcounter : ∀ j c', s'.mgr.counterAt j = some c' → ∃ c, s.mgr.counterAt j = some c ∧ c' ≤ c) :
    Sweep S s' where
  empty q hq := by
    rw [hdrained] at hq
    exact hqueues q (h.empty q hq)
  clear hs' w hw := by
    rw [hsweeps] at hs'
    have hclear := h.clear hs' w hw
    rw [← Bool.not_eq_true] at hclear ⊢
    intro hhangs
    obtain ⟨job, j, c', hjob, hj, hc', hpos⟩ := hangs_iff.mp hhangs
    obtain ⟨c, hc, hle⟩ := hcounter j c' hc'
    exact hclear (hangs_iff.mpr ⟨job, j, c, hlookup hs' w job hjob, hflows hs' _ j hj, hc,
      Int.lt_of_lt_of_le hpos hle⟩)

theorem counter_of_eq (h : ∀ j, s'.mgr.counterAt j = s.mgr.counterAt j) :
    ∀ j c', s'.mgr.counterAt j = some c' → ∃ c, s.mgr.counterAt j = some c ∧ c' ≤ c :=
  fun j c' hc' => ⟨c', by rw [← h, hc'], Int.le_refl c'⟩

theorem lookup_of_update {i : Nat} {pc : WorkerPc}
    (hworker : s'.worker = Function.update s.worker i pc)
    (hpc : ∀ job, pc ≠ .lookup job) (w : Nat) (job : Job) (hw : s'.worker w = .lookup job) :
    s.worker w = .lookup job := by
  rw [hworker] at hw
  by_cases hwi : w = i
  · rw [hwi, Function.update_self] at hw
    exact absurd hw (hpc job)
  · rw [Function.update_of_ne hwi] at hw
    exact hw

/-- A worker makes a move that is no look-up. -/
theorem Sweep.workerKeeps (h : Sweep S s) {i : Nat} {pc : WorkerPc}
    (hproducer : s'.producer = s.producer) (hqueues : s'.queues = s.queues)
    (hworker : s'.worker = Function.update s.worker i pc) (hpc : ∀ job, pc ≠ .lookup job)
    (hflows : s.producer.sweeps = true → ∀ k j, s'.mgr.flows k = some j → s.mgr.flows k = some j)
    (hcounter : ∀ j c', s'.mgr.counterAt j = some c' → ∃ c, s.mgr.counterAt j = some c ∧ c' ≤ c) :
    Sweep S s' :=
  h.keeps (by rw [hproducer]) (by rw [hproducer]) (fun q hq => by rw [hqueues, hq])
    (fun _ => lookup_of_update hworker hpc) hflows hcounter

/-- During the sweep nobody else has the mutex. -/
theorem Sound.mutex_of_sweeps (hs : Sound S s) (h : s.producer.sweeps = true) :
    s.mutex = some .producer := by
  apply hs.producerLocks.mp
  cases hp : s.producer with
  | sweeping => rfl
  | spinning k i => rfl
  | sweepNotify k i stage => rfl
  | _ =>
    rw [hp] at h
    cases h

variable [Double R]

/-- **A patient step leaves no one behind.** -/
theorem sweep_moves (h : Sweep S s) (hs : Sound S s) {a : Action} (hok : s.patient S a = true)
    (hm : Moves S s a s') : Sweep S s' := by
  have hsame : s.producer.sweeps = true → ∀ k j, s.mgr.flows k = some j → s.mgr.flows k = some j :=
    fun _ _ _ h => h
  -- what needs the mutex does not happen during the sweep
  have hnone : ∀ {P : Prop}, s.mutex = none → s.producer.sweeps = true → P := by
    intro P hfree hsweeps
    rw [hs.mutex_of_sweeps hsweeps] at hfree
    cases hfree
  cases hm with
  | refused p hp hdown => exact h
  | called p hp hup => exact sweep_away rfl rfl
  | finishing hp => exact sweep_away rfl rfl
  | shutdown =>
    exact h.keeps rfl rfl (fun _ h => h) (fun _ _ _ h => h) hsame (counter_of_eq fun _ => rfl)
  | created p hp hfree hno => exact sweep_away rfl rfl
  | reused p i f hp hfree hi hf hrep => exact sweep_away rfl rfl
  | replaces p i f hp hfree hi hf hrep => exact sweep_away rfl rfl
  | replaceNotifies p i f stage stage' m hp hf hnot => exact sweep_away rfl rfl
  | replaced p i hp => exact sweep_away rfl rfl
  | counted p i hp => exact sweep_away rfl rfl
  | pushed p i q hp hq hroom => exact sweep_away rfl rfl
  | full p i q hp hq hroom => exact sweep_away rfl rfl
  | undone i hp => exact sweep_away rfl rfl
  | drained k hp hk hempty =>
    refine ⟨fun q hq => ?_, fun hsweeps => (by cases hsweeps)⟩
    rcases Nat.lt_succ_iff_lt_or_eq.mp hq with hlt | rfl
    · exact h.empty q (by rw [hp]; exact hlt)
    · exact hempty
  | locked k hp hk hfree =>
    refine ⟨fun q hq => h.empty q (by rw [hp]; exact Nat.lt_of_lt_of_le hq hk), fun _ w hw => ?_⟩
    unfold patient at hok
    simp only [hp, Nat.not_lt_of_le hk, decide_false, Bool.false_or] at hok
    have hclear := List.all_eq_true.mp hok w (List.mem_range.mpr hw)
    exact Bool.not_eq_true' _ ▸ hclear
  | picked k i hp hk =>
    exact h.keeps (by rw [hp]; rfl) (by rw [hp]; rfl) (fun _ h => h) (fun _ _ _ h => h) hsame
      (counter_of_eq fun _ => rfl)
  | waited k i f hp hf hidle =>
    exact h.keeps (by rw [hp]; rfl) (by rw [hp]; rfl) (fun _ h => h) (fun _ _ _ h => h) hsame
      (counter_of_eq fun _ => rfl)
  | sweepNotifies k i f stage stage' m hp hf hnot =>
    exact h.keeps (by rw [hp]; rfl) (by rw [hp]; rfl) (fun _ h => h) (fun _ _ _ h => h)
      (fun _ k j hj => by rw [← hnot.flows]; exact hj) (counter_of_eq hnot.counterAt)
  | swept k i hp =>
    exact h.keeps (by rw [hp]; rfl) (by rw [hp]; rfl) (fun _ h => h) (fun _ _ _ h => h)
      (fun _ _ _ h => erase_flows_some h) (counter_of_eq (FlowManager.erase_counterAt s.mgr k))
  | returned hp hempty => exact sweep_away rfl rfl
  | popped i job rest hi hw hup hq =>
    refine h.keeps rfl rfl (fun q hq' => ?_) (fun hsweeps => ?_) hsame (counter_of_eq fun _ => rfl)
    · by_cases hqi : q = i
      · rw [hqi, hq] at hq'
        cases hq'
      · simp only [setWorker]
        rw [Function.update_of_ne hqi, hq']
    · -- the queues are empty by now
      have hempty := h.empty i (by
        have hdrained : s.producer.drained S.config.workerThreadsPerQueue =
            S.config.workerThreadsPerQueue := by
          cases hp : s.producer with
          | sweeping => rfl
          | spinning k j => rfl
          | sweepNotify k j stage => rfl
          | _ =>
            rw [hp] at hsweeps
            cases hsweeps
        rw [hdrained]
        exact hi)
      rw [hq] at hempty
      cases hempty
  | workerCreated i job hi hw hfree hno =>
    refine ⟨h.empty, fun hsweeps => hnone hfree hsweeps⟩
  | workerReused i job j f hi hw hfree hj hf hrep =>
    exact h.workerKeeps rfl rfl rfl (fun _ h => by cases h) hsame (counter_of_eq fun _ => rfl)
  | workerReplaces i job j f hi hw hfree hj hf hrep =>
    exact h.workerKeeps rfl rfl rfl (fun _ h => by cases h) hsame (counter_of_eq fun _ => rfl)
  | workerReplaceNotifies i job j f stage stage' m hi hw hf hnot =>
    exact h.workerKeeps rfl rfl rfl (fun _ h => by cases h)
      (fun _ k j hj => by rw [← hnot.flows]; exact hj) (counter_of_eq hnot.counterAt)
  | workerReplaced i job j hi hw =>
    refine ⟨h.empty, fun hsweeps => ?_⟩
    have hheld := (hs.workerLocks i).mp (by rw [hw]; rfl)
    rw [hs.mutex_of_sweeps hsweeps] at hheld
    cases hheld
  | decremented i p j f hi hw hf =>
    refine h.workerKeeps rfl rfl rfl (fun _ h => by cases h) hsame fun k c' hc' => ?_
    replace hc' : (s.mgr.modifyFlow j Flow.decPktsInQueue).counterAt k = some c' := hc'
    rw [FlowManager.modifyFlow_counterAt (g := Flow.decPktsInQueue) (d := -1) fun _ => rfl] at hc'
    by_cases hjk : j = k
    · rw [if_pos hjk] at hc'
      obtain ⟨c, hc, rfl⟩ := Option.map_eq_some_iff.mp hc'
      exact ⟨c, hc, by omega⟩
    · rw [if_neg hjk] at hc'
      exact ⟨c', hc', Int.le_refl c'⟩
  | applies i p j c hi hw =>
    exact h.workerKeeps rfl rfl rfl (fun _ h => by cases h) hsame (counter_of_eq
      (FlowManager.modifyFlow_counterAt_same fun f => f.addPacket_pktsInQueue S p))
  | notifies i j f stage stage' m hi hw hf hnot =>
    exact h.workerKeeps rfl rfl rfl (fun _ h => by cases h)
      (fun _ k j hj => by rw [← hnot.flows]; exact hj) (counter_of_eq hnot.counterAt)
  | marks i j f hi hw hfree hf hbusy =>
    exact h.workerKeeps rfl rfl rfl (fun _ h => by cases h) hsame (counter_of_eq
      (FlowManager.modifyFlow_counterAt_same (g := Flow.setFinishedAndNotified) fun _ => rfl))
  | deletes i j f hi hw hfree hf hidle =>
    exact h.workerKeeps rfl rfl rfl (fun _ h => by cases h) (fun _ _ _ h => erase_flows_some h)
      (counter_of_eq (FlowManager.erase_counterAt s.mgr _))
  | exits i hi hw hdown =>
    exact h.workerKeeps rfl rfl rfl (fun _ h => by cases h) hsame (counter_of_eq fun _ => rfl)
  | announces i j c f hi hw hf hnew =>
    exact h.workerKeeps rfl rfl rfl (fun _ h => by cases h) hsame (counter_of_eq fun _ => rfl)
  | announcesNothing i j c f hi hw hf hold =>
    exact h.workerKeeps rfl rfl rfl (fun _ h => by cases h) hsame (counter_of_eq fun _ => rfl)
  | seesFinished i j f hi hw hf hstate =>
    exact h.workerKeeps rfl rfl rfl (fun _ h => by cases h) hsame (counter_of_eq fun _ => rfl)
  | seesUnfinished i j f hi hw hf hstate =>
    exact h.workerKeeps rfl rfl rfl (fun _ h => by cases h) hsame (counter_of_eq fun _ => rfl)
  | seesNotified i j f hi hw hf hstate =>
    exact h.workerKeeps rfl rfl rfl (fun _ h => by cases h) hsame (counter_of_eq fun _ => rfl)
  | keeps i j f hi hw hf hstate =>
    exact h.workerKeeps rfl rfl rfl (fun _ h => by cases h) hsame (counter_of_eq fun _ => rfl)
  | notified i j hi hw =>
    exact h.workerKeeps rfl rfl rfl (fun _ h => by cases h) hsame (counter_of_eq fun _ => rfl)

end Sweep

section Runs

variable [Double R] {S : Setup R} {s s' : State R}

/-- What patient runs lead to. -/
abbrev Patient (S : Setup R) (s : State R) : Prop :=
  Run (step S) (fun s a => s.patient S a = true) State.init s

theorem sweep_of_run (hn : 0 < S.config.workerThreadsPerQueue) (h : Patient S s) :
    Sound S s ∧ Bounded S s ∧ Sweep S s :=
  h.invariant (I := fun s => Sound S s ∧ Bounded S s ∧ Sweep S s)
    ⟨sound_init S, bounded_init S, sweep_init S⟩ fun _ _ _ ⟨hs, hb, hsweep⟩ hok hstep =>
      have hmoves := moves_of_step hs hstep
      ⟨sound_moves hn hs hmoves, bounded_moves hb hs hmoves, sweep_moves hsweep hs hok hmoves⟩

/-- **`finished` does not hang**, if it does not take the mutex while a worker has yet to look up a
packet of a flow that has packets to wait for. -/
theorem not_deadlocked (hn : 0 < S.config.workerThreadsPerQueue) (h : Patient S s) :
    ¬ Deadlocked S s := by
  rintro ⟨hmutex, k, j, f, hp, hf, hpkts, hblocked⟩
  obtain ⟨hs, hb, hsweep⟩ := sweep_of_run hn h
  have hpc := hs.producer
  rw [hp] at hpc
  have hflows : s.mgr.flows k = some j := hpc
  have hbound := hb k j _ hflows (FlowManager.counterAt_of_heap hf)
  have hpos : 0 < f.pktsInQueue := by
    simp only [Flow.havePktsInQueue, decide_eq_true_eq] at hpkts
    exact hpkts
  have hnothing : s.claims S k j = 0 := by
    have hholds : s.producer.holds j = 0 := by
      rw [hp]
      rfl
    unfold claims
    rw [hholds, Nat.add_zero, Finset.sum_eq_zero_iff]
    intro w hw
    have hwn : w < S.config.workerThreadsPerQueue := Finset.mem_range.mp hw
    have hempty := hsweep.empty w (by rw [hp]; exact hwn)
    have hclear := hsweep.clear (by rw [hp]; rfl) w hwn
    unfold share
    rw [hempty, List.countP_nil]
    cases hpcw : s.worker w with
    | lookup job =>
      -- such a worker would wait for the mutex, and `finished` for it
      have hne : S.flowHash job.packet.tuple ≠ k := by
        intro heq
        rw [← Bool.not_eq_true] at hclear
        refine hclear (hangs_iff.mpr ⟨job, j, f.pktsInQueue, hpcw, ?_,
          FlowManager.counterAt_of_heap hf, hpos⟩)
        rw [heq, hflows]
      simp only [WorkerPc.waits, WorkerPc.uncounted, if_neg hne, Nat.add_zero]
    | replacing job i stage =>
      have hheld := (hs.workerLocks w).mp (by rw [hpcw]; rfl)
      rw [hmutex] at hheld
      cases hheld
    | found p i =>
      -- such a worker is not blocked
      have hne : i ≠ j := by
        intro heq
        have hcould : s.couldDecrement S w j := by
          unfold couldDecrement
          rw [hpcw]
          exact heq
        obtain ⟨-, job, hjob⟩ := hblocked w hwn hcould
        rw [hpcw] at hjob
        cases hjob
      simp only [WorkerPc.waits, WorkerPc.uncounted, if_neg hne, Nat.add_zero]
    | _ => rfl
  rw [hnothing] at hbound
  exact absurd hpos (Int.not_lt.mpr hbound)

omit [Double R] in
/-- A worker's move that takes no packet off the flow does not end the deadlock. -/
theorem Deadlocked.keeps (h : Deadlocked S s) {i : Nat} {pc : WorkerPc}
    (hmutex : s'.mutex = s.mutex) (hproducer : s'.producer = s.producer)
    (hworker : s'.worker = Function.update s.worker i pc) (hpc : ∀ p j, pc ≠ .found p j)
    (hcounter : ∀ j c, (∀ p, s.worker i ≠ .found p j) → s.mgr.counterAt j = some c →
      s'.mgr.counterAt j = some c) (hi : i < S.config.workerThreadsPerQueue) :
    Deadlocked S s' := by
  obtain ⟨hheld, k, j, f, hp, hf, hpkts, hblocked⟩ := h
  have hnotFound : ∀ w, w < S.config.workerThreadsPerQueue → ∀ p, s.worker w ≠ .found p j := by
    intro w hw p hfound
    have hcould : s.couldDecrement S w j := by
      unfold couldDecrement
      rw [hfound]
    obtain ⟨-, job, hjob⟩ := hblocked w hw hcould
    rw [hfound] at hjob
    cases hjob
  have hsame := hcounter j _ (hnotFound i hi) (FlowManager.counterAt_of_heap hf)
  obtain ⟨f', hf', hpkts'⟩ := Option.map_eq_some_iff.mp hsame
  refine ⟨by rw [hmutex, hheld], k, j, f', by rw [hproducer, hp], hf', ?_, fun w hw hcould => ?_⟩
  · unfold Flow.havePktsInQueue at hpkts ⊢
    rw [hpkts']
    exact hpkts
  · refine ⟨by rw [hmutex, hheld]; rfl, ?_⟩
    unfold couldDecrement at hcould
    cases hw' : s'.worker w with
    | lookup job => exact ⟨job, rfl⟩
    | found p l =>
      simp only [hw'] at hcould
      subst hcould
      rw [hworker] at hw'
      by_cases hwi : w = i
      · rw [hwi, Function.update_self] at hw'
        exact absurd hw' (hpc p l)
      · rw [Function.update_of_ne hwi] at hw'
        exact absurd hw' (hnotFound w hw p)
    | _ => simp only [hw'] at hcould

/-- **A deadlock is final**: no step of any thread ends it. -/
theorem deadlocked_forever (h : Deadlocked S s) (hs : Sound S s) {a : Action}
    (hm : Moves S s a s') : Deadlocked S s' := by
  have hheld := h.1
  obtain ⟨k, j, f, hp, hf, hpkts, -⟩ := h.2
  have hfree : ∀ {P : Prop}, s.mutex = none → P := by
    intro P hfree
    rw [hheld] at hfree
    cases hfree
  have hpc : ∀ {P : Prop} {pc : ProducerPc}, s.producer = pc → pc ≠ .spinning k j → P :=
    fun hp' hne => absurd (hp'.symm.trans hp) hne
  have hsame : ∀ {i : Nat} (j : FlowId) (c : Int), (∀ p, s.worker i ≠ .found p j) →
      s.mgr.counterAt j = some c → s.mgr.counterAt j = some c := fun _ _ _ h => h
  cases hm with
  | shutdown => exact h
  | refused p hp' => exact hpc hp' ProducerPc.noConfusion
  | called p hp' => exact hpc hp' ProducerPc.noConfusion
  | finishing hp' => exact hpc hp' ProducerPc.noConfusion
  | created p hp' => exact hpc hp' ProducerPc.noConfusion
  | reused p i f hp' => exact hpc hp' ProducerPc.noConfusion
  | replaces p i f hp' => exact hpc hp' ProducerPc.noConfusion
  | replaceNotifies p i f stage stage' m hp' => exact hpc hp' ProducerPc.noConfusion
  | replaced p i hp' => exact hpc hp' ProducerPc.noConfusion
  | counted p i hp' => exact hpc hp' ProducerPc.noConfusion
  | pushed p i q hp' => exact hpc hp' ProducerPc.noConfusion
  | full p i q hp' => exact hpc hp' ProducerPc.noConfusion
  | undone i hp' => exact hpc hp' ProducerPc.noConfusion
  | drained k hp' => exact hpc hp' ProducerPc.noConfusion
  | locked k hp' => exact hpc hp' ProducerPc.noConfusion
  | picked k i hp' => exact hpc hp' ProducerPc.noConfusion
  | sweepNotifies k i f stage stage' m hp' => exact hpc hp' ProducerPc.noConfusion
  | swept k i hp' => exact hpc hp' ProducerPc.noConfusion
  | returned hp' => exact hpc hp' ProducerPc.noConfusion
  | waited k' i g hp' hg hidle =>
    rw [hp] at hp'
    cases hp'
    rw [hf] at hg
    cases hg
    rw [hpkts] at hidle
    cases hidle
  | exits i hi hw hdown => exact h.keeps rfl rfl rfl (fun _ _ h => by cases h) hsame hi
  | popped i job rest hi hw hup hq => exact h.keeps rfl rfl rfl (fun _ _ h => by cases h) hsame hi
  | workerCreated i job hi hw hnone => exact hfree hnone
  | workerReused i job j f hi hw hnone => exact hfree hnone
  | workerReplaces i job j f hi hw hnone => exact hfree hnone
  | workerReplaceNotifies i job l g stage stage' m hi hw hg hnot =>
    exact h.keeps rfl rfl rfl (fun _ _ h => by cases h)
      (fun _ _ _ hc => (hnot.counterAt _).trans hc) hi
  | workerReplaced i job j hi hw =>
    have hheld' := (hs.workerLocks i).mp (by rw [hw]; rfl)
    rw [hheld] at hheld'
    cases hheld'
  | decremented i p l g hi hw hg =>
    refine h.keeps rfl rfl rfl (fun _ _ h => by cases h) (fun j c hnot hc => ?_) hi
    have hne : l ≠ j := by
      intro heq
      exact hnot p (by rw [hw, heq])
    refine (FlowManager.modifyFlow_counterAt (g := Flow.decPktsInQueue) (d := -1) (fun _ => rfl)
      j).trans ?_
    rw [if_neg hne, hc]
  | applies i p l c hi hw =>
    exact h.keeps rfl rfl rfl (fun _ _ h => by cases h)
      (fun j _ _ hc => (FlowManager.modifyFlow_counterAt_same
        (fun f => f.addPacket_pktsInQueue S p) j).trans hc) hi
  | announces i l c g hi hw hg hnew => exact h.keeps rfl rfl rfl (fun _ _ h => by cases h) hsame hi
  | announcesNothing i l c g hi hw hg hold =>
    exact h.keeps rfl rfl rfl (fun _ _ h => by cases h) hsame hi
  | seesFinished i l g hi hw hg hstate =>
    exact h.keeps rfl rfl rfl (fun _ _ h => by cases h) hsame hi
  | seesUnfinished i l g hi hw hg hstate =>
    exact h.keeps rfl rfl rfl (fun _ _ h => by cases h) hsame hi
  | seesNotified i l g hi hw hg hstate =>
    exact h.keeps rfl rfl rfl (fun _ _ h => by cases h) hsame hi
  | keeps i l g hi hw hg hstate => exact h.keeps rfl rfl rfl (fun _ _ h => by cases h) hsame hi
  | notifies i l g stage stage' m hi hw hg hnot =>
    exact h.keeps rfl rfl rfl (fun _ _ h => by cases h)
      (fun _ _ _ hc => (hnot.counterAt _).trans hc) hi
  | notified i l hi hw => exact h.keeps rfl rfl rfl (fun _ _ h => by cases h) hsame hi
  | marks i l g hi hw hnone => exact hfree hnone
  | deletes i l g hi hw hnone => exact hfree hnone

/-- A patient run of `finished`: the worker has looked the packet up when the mutex is taken, and
`finished` waits for it. -/
def waitsForWorker : List Action :=
  adds query ++ times 2 (.worker 0) ++ (.finished :: times 2 .producer) ++
    [.pick ((withWorkers 1).flowHash query.tuple)]

theorem waitsForWorker_not_deadlocked :
    ∃ s : State ℚ, s.producer = .spinning ((withWorkers 1).flowHash query.tuple) 0 ∧
      s.mgr.heap[0]?.any Flow.havePktsInQueue = true ∧ ¬ Deadlocked (withWorkers 1) s := by
  obtain ⟨s, hrun, hseen⟩ := exists_of_exec (step (withWorkers 1))
    (fun s a => s.patient (withWorkers 1) a = true) State.init waitsForWorker
    (fun s : State ℚ => decide (s.producer =
        .spinning ((withWorkers 1).flowHash query.tuple) 0) &&
      s.mgr.heap[0]?.any Flow.havePktsInQueue) (by decide +kernel)
  obtain ⟨hp, hpkts⟩ := Bool.and_eq_true_iff.mp hseen
  exact ⟨s, of_decide_eq_true hp, hpkts, not_deadlocked (S := withWorkers 1) (by decide) hrun⟩

/-- The worker has taken the only packet from its queue when `finished` finds the queue empty. -/
def waitsForever : List Action :=
  adds query ++ times 1 (.worker 0) ++ (.finished :: times 2 .producer) ++
    [.pick ((withWorkers 1).flowHash query.tuple)]

theorem finished_deadlocks :
    ∃ s : State ℚ, Reachable (withWorkers 1) s ∧ Deadlocked (withWorkers 1) s ∧
      s.blocked 0 ∧ s.couldDecrement (withWorkers 1) 0 0 := by
  obtain ⟨s, hrun, hseen⟩ := exists_reachable (withWorkers 1) waitsForever
    (fun s => decide (s.mutex = some .producer) && decide (s.producer =
        .spinning ((withWorkers 1).flowHash query.tuple) 0) &&
      decide (s.worker 0 = .lookup ⟨query, 0⟩) &&
      decide (s.mgr.flows ((withWorkers 1).flowHash query.tuple) = some 0) &&
      s.mgr.heap[0]?.any Flow.havePktsInQueue) (by decide +kernel)
  simp only [Bool.and_eq_true, decide_eq_true_eq, Option.any_eq_true] at hseen
  obtain ⟨⟨⟨⟨hmutex, hp⟩, hw⟩, hflows⟩, f, hf, hpkts⟩ := hseen
  have hblocked : s.blocked 0 := ⟨by rw [hmutex]; rfl, _, hw⟩
  refine ⟨s, hrun, ⟨hmutex, _, 0, f, hp, hf, hpkts, fun w hwn _ => ?_⟩, hblocked, ?_⟩
  · rw [Nat.lt_one_iff.mp hwn]
    exact hblocked
  · unfold couldDecrement
    rw [hw]
    exact hflows

end Runs

end State

end Vsid
