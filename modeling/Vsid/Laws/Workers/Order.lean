import Vsid.Laws.Workers.Counting

/-!
# The order of packets

In an orderly run the packets of a hash reach their flows in the order in which they were pushed.
`InOrder` says so of every state: what was pushed under a hash is what was applied under it,
followed by what is on its way in the queue of the flow in the table. Two results come out of it:
`reported_after_last_packet`, about the moment at which `getFlow` or `finished` calls the observers,
and `applied_in_order`, about the worker that applies a packet and its place among the others.
-/

set_option autoImplicit false

namespace Vsid

variable {R : Type}

/-- The job a worker has taken from its queue and not applied. -/
def WorkerPc.hand : WorkerPc → Option Job
  | lookup job => some job
  | replacing job _ _ => some job
  | found p i => some ⟨p, i⟩
  | applying p i _ => some ⟨p, i⟩
  | _ => none

theorem WorkerPc.flow_of_hand {pc : WorkerPc} {j : FlowId} (h : pc.hand.map Job.flow = some j) :
    pc.flow = some j := by
  cases pc <;> first | exact h | cases h

/-- The jobs of a hash. -/
def ofHash (S : Setup R) (h : UInt32) (jobs : List Job) : List Job :=
  jobs.filter fun job => S.flowHash job.packet.tuple == h

theorem ofHash_append (S : Setup R) (h : UInt32) (jobs jobs' : List Job) :
    ofHash S h (jobs ++ jobs') = ofHash S h jobs ++ ofHash S h jobs' := List.filter_append ..

theorem ofHash_singleton_of_ne {S : Setup R} {h : UInt32} {p : IPv4Packet}
    (hne : h ≠ S.flowHash p.tuple) (i : FlowId) : ofHash S h [⟨p, i⟩] = [] :=
  List.filter_cons_of_neg fun heq => hne (beq_iff_eq.mp heq).symm

theorem mem_ofHash {S : Setup R} {h : UInt32} {jobs : List Job} {job : Job} :
    job ∈ ofHash S h jobs ↔ job ∈ jobs ∧ S.flowHash job.packet.tuple = h := by
  rw [ofHash, List.mem_filter, beq_iff_eq]

namespace State

/-- The jobs between a queue and the flows, the next one first. -/
def onTheWay (s : State R) (q : Nat) : List Job := (s.worker q).hand.toList ++ s.queues q

/-- The jobs that were applied, in their order. -/
def appliedJobs (s : State R) : List Job := s.applied.map Prod.snd

/-- Nothing is on its way to the flow that the table holds under a hash. -/
def Unused (s : State R) (h : UInt32) : Prop :=
  ∀ j, s.mgr.flows h = some j → ∀ q, ∀ job ∈ s.onTheWay q, job.flow ≠ j

/-- What was pushed under a hash was applied in the same order, but for what is on its way. -/
structure InOrder (S : Setup R) (s : State R) : Prop where
  pushedFor : ∀ job ∈ s.pushed, s.mgr.hashAt job.flow = some (S.flowHash job.packet.tuple)
  confined : ∀ e ∈ s.applied, s.mgr.queueAt e.2.flow = some (e.1 : Int)
  live : ∀ (h : UInt32) (j : FlowId) (q : Nat), s.mgr.flows h = some j →
    s.mgr.queueAt j = some (q : Int) →
    ofHash S h s.pushed = ofHash S h s.appliedJobs ++ ofHash S h (s.onTheWay q)
  gone : ∀ h : UInt32, s.mgr.flows h = none → ofHash S h s.pushed = ofHash S h s.appliedJobs
  added : List.Sublist (s.pushed.map Job.packet ++ s.producer.packet?.toList) s.given

theorem inOrder_init (S : Setup R) : InOrder S (State.init : State R) where
  pushedFor job h := by cases h
  confined e h := by cases h
  live h j q hj := by cases hj
  gone h _ := rfl
  added := List.Sublist.slnil

section Invariant

variable {S : Setup R} {s s' : State R}

/-- What is on the way is for a flow in the table, in its queue. -/
theorem Healthy.home_of_onTheWay (hs : Healthy S s) {q : Nat} {job : Job}
    (hjob : job ∈ s.onTheWay q) :
    s.mgr.Home q job.flow ∧ s.mgr.hashAt job.flow = some (S.flowHash job.packet.tuple) := by
  rcases List.mem_append.mp hjob with hhand | hqueue
  · have hsound := hs.workers q
    have hworking := hs.working q
    rw [Option.mem_toList] at hhand
    cases hw : s.worker q with
    | lookup job' =>
      rw [hw] at hhand hsound hworking
      cases hhand
      exact ⟨hworking _ rfl, hsound⟩
    | replacing job' i stage =>
      have hlocks := hs.unlocked q
      rw [hw] at hlocks
      cases hlocks
    | found p i =>
      rw [hw] at hhand hsound hworking
      cases hhand
      exact ⟨hworking _ rfl, hsound⟩
    | applying p i c =>
      rw [hw] at hhand hsound hworking
      cases hhand
      exact ⟨hworking _ rfl, hsound⟩
    | _ =>
      rw [hw] at hhand
      cases hhand
  · exact ⟨hs.queued q job hqueue, hs.jobs q job hqueue⟩

/-- A job on the way is for the flow that the table has under its hash. -/
theorem Healthy.flows_of_onTheWay (hs : Healthy S s) {q : Nat} {job : Job} {h : UInt32}
    (hjob : job ∈ ofHash S h (s.onTheWay q)) : s.mgr.flows h = some job.flow := by
  obtain ⟨hmem, hhash⟩ := mem_ofHash.mp hjob
  obtain ⟨hhome, hkey⟩ := hs.home_of_onTheWay hmem
  rw [← hhash]
  exact hhome.1.flows hkey

theorem Healthy.onTheWay_eq_nil (hs : Healthy S s) {h : UInt32} (hfree : s.Unused h) (q : Nat) :
    ofHash S h (s.onTheWay q) = [] := by
  rw [List.eq_nil_iff_forall_not_mem]
  intro job hjob
  exact hfree job.flow (hs.flows_of_onTheWay hjob) q job (mem_ofHash.mp hjob).1 rfl

/-- When nothing is on the way, all that was pushed under the hash has been applied. -/
theorem InOrder.settled (ho : InOrder S s) (hs : Healthy S s) {h : UInt32}
    (hfree : s.Unused h) :
    ofHash S h s.pushed = ofHash S h s.appliedJobs := by
  cases hj : s.mgr.flows h with
  | none => exact ho.gone h hj
  | some j =>
    obtain ⟨q, hq, -, -⟩ := queueAt_of_hashAt hs.toSound (hs.indexed.valid h j hj)
    rw [ho.live h j q hj hq, hs.onTheWay_eq_nil hfree, List.append_nil]

/-- A move that leaves the queues and what is applied alone, and the table but for entries whose
flow nobody has. -/
theorem InOrder.moves (ho : InOrder S s) (hs : Healthy S s) (hext : s.mgr.Extends s'.mgr)
    (hflows : ∀ h, s'.mgr.flows h = s.mgr.flows h ∨ s.Unused h)
    (hway : ∀ q, s'.onTheWay q = s.onTheWay q) (hpushed : s'.pushed = s.pushed)
    (happlied : s'.applied = s.applied)
    (hadded : List.Sublist (s'.pushed.map Job.packet ++ s'.producer.packet?.toList) s'.given) :
    InOrder S s' where
  pushedFor job hjob := by
    rw [hpushed] at hjob
    exact hext.hashAt _ _ (ho.pushedFor job hjob)
  confined e he := by
    rw [happlied] at he
    exact hext.queueAt _ _ (ho.confined e he)
  live h j q hj hq := by
    unfold appliedJobs
    rw [hpushed, happlied, hway]
    rcases hflows h with hsame | hfree
    · rw [hsame] at hj
      obtain ⟨q', hq', -, -⟩ := queueAt_of_hashAt hs.toSound (hs.indexed.valid h j hj)
      have hqueue : q = q' := FlowManager.queueAt_unique hq (hext.queueAt _ _ hq')
      rw [hqueue]
      exact ho.live h j q' hj hq'
    · rw [hs.onTheWay_eq_nil hfree, List.append_nil]
      exact ho.settled hs hfree
  gone h hnone := by
    unfold appliedJobs
    rw [hpushed, happlied]
    rcases hflows h with hsame | hfree
    · rw [hsame] at hnone
      exact ho.gone h hnone
    · exact ho.settled hs hfree
  added := hadded

/-- The producer makes a move, but pushes nothing and comes not back from `getFlow`. -/
theorem InOrder.producerMoves (ho : InOrder S s) (hs : Healthy S s) (hext : s.mgr.Extends s'.mgr)
    (hflows : ∀ h, s'.mgr.flows h = s.mgr.flows h ∨ s.Unused h)
    (hqueues : s'.queues = s.queues) (hworker : s'.worker = s.worker)
    (hpushed : s'.pushed = s.pushed) (happlied : s'.applied = s.applied)
    (hgiven : s'.given = s.given)
    (hpc : s'.producer.packet? = s.producer.packet? ∨ s'.producer.packet? = none) :
    InOrder S s' := by
  refine ho.moves hs hext hflows (fun q => ?_) hpushed happlied ?_
  · unfold onTheWay
    rw [hworker, hqueues]
  · rw [hpushed, hgiven]
    rcases hpc with hsame | hnone
    · rw [hsame]
      exact ho.added
    · rw [hnone, Option.toList_none, List.append_nil]
      exact (List.sublist_append_left _ _).trans ho.added

/-- The producer comes back from `getFlow`. -/
theorem InOrder.producerTakes (ho : InOrder S s) (hs : Healthy S s) (hext : s.mgr.Extends s'.mgr)
    (hflows : ∀ h, s'.mgr.flows h = s.mgr.flows h ∨ s.Unused h)
    (hqueues : s'.queues = s.queues) (hworker : s'.worker = s.worker)
    (hpushed : s'.pushed = s.pushed) (happlied : s'.applied = s.applied) {p : IPv4Packet}
    (hgiven : s'.given = s.given ++ [p]) (hpc : s'.producer.packet? = some p)
    (hold : s.producer.packet? = none) : InOrder S s' := by
  refine ho.moves hs hext hflows (fun q => ?_) hpushed happlied ?_
  · unfold onTheWay
    rw [hworker, hqueues]
  · have hadded := ho.added
    rw [hold, Option.toList_none, List.append_nil] at hadded
    rw [hpushed, hgiven, hpc]
    exact hadded.append (List.Sublist.refl _)

/-- A worker makes a move that keeps what it has in its hands. -/
theorem InOrder.workerMoves (ho : InOrder S s) (hs : Healthy S s) {i : Nat} {pc : WorkerPc}
    (hext : s.mgr.Extends s'.mgr)
    (hflows : ∀ h, s'.mgr.flows h = s.mgr.flows h ∨ s.Unused h)
    (hqueues : s'.queues = s.queues) (hworker : s'.worker = Function.update s.worker i pc)
    (hhand : pc.hand = (s.worker i).hand) (hpushed : s'.pushed = s.pushed)
    (happlied : s'.applied = s.applied) (hproducer : s'.producer = s.producer)
    (hgiven : s'.given = s.given) : InOrder S s' := by
  refine ho.moves hs hext hflows (fun q => ?_) hpushed happlied ?_
  · unfold onTheWay
    rw [hworker, hqueues]
    by_cases hq : q = i
    · rw [hq, Function.update_self, hhand]
    · rw [Function.update_of_ne hq]
  · rw [hpushed, hgiven, hproducer]
    exact ho.added

/-- A flow that is in no queue and that no worker works on has nothing on its way. -/
theorem onTheWay_ne {j : FlowId} (hqueues : ∀ q, ∀ job ∈ s.queues q, job.flow ≠ j)
    (hworkers : ∀ q, (s.worker q).hand.map Job.flow ≠ some j) :
    ∀ q, ∀ job ∈ s.onTheWay q, job.flow ≠ j := by
  intro q job hjob heq
  rcases List.mem_append.mp hjob with hhand | hqueue
  · apply hworkers q
    rw [Option.mem_toList.mp hhand, Option.map_some, heq]
  · exact hqueues q job hqueue heq

theorem unused_of_closing (hs : Healthy S s) {h : UInt32} {j : FlowId}
    (hj : s.mgr.flows h = some j) (hclosing : s.producer.closing = some j) : s.Unused h := by
  intro i hi
  rw [hj] at hi
  cases hi
  exact onTheWay_ne (hs.jobs_of_closing hj hclosing) fun k hk =>
    (hs.closing j hclosing).2 k (WorkerPc.flow_of_hand hk)

/-- Only the flow's own worker could have a packet of it, and that one is deleting it. -/
theorem unused_of_deleting (hs : Healthy S s) {i : Nat} {j : FlowId} {f : Flow R}
    (hw : s.worker i = .deleting j) (hf : s.mgr.heap[j]? = some f)
    (hidle : f.havePktsInQueue = false) : s.Unused f.hash := by
  have hhome : s.mgr.Home i j := hs.working i j (by rw [hw]; rfl)
  intro k hk
  have hflows : s.mgr.flows f.hash = some j := hhome.1.flows (FlowManager.hashAt_of_heap hf)
  rw [hflows] at hk
  cases hk
  refine onTheWay_ne (hs.pending_eq_zero_of_idle hhome hf hidle).2.1 fun q hq => ?_
  have hqi : q = i := (hs.working q j (WorkerPc.flow_of_hand hq)).unique hhome
  rw [hqi, hw] at hq
  cases hq

theorem unused_of_none {h : UInt32} (hnone : s.mgr.flows h = none) : s.Unused h := by
  intro j hj
  rw [hnone] at hj
  cases hj

/-- A packet is pushed behind what is on the way to its flow. -/
theorem InOrder.pushes (ho : InOrder S s) (hs : Healthy S s) {p : IPv4Packet} {i : FlowId} {q : Nat}
    (hp : s.producer = .pushing p i) (hq : s.mgr.queueAt i = some (q : Int)) :
    InOrder S { s with
      queues := Function.update s.queues q (s.queues q ++ [⟨p, i⟩])
      producer := .idle
      pushed := s.pushed ++ [Job.mk p i] } := by
  have hpc := hs.producer
  rw [hp] at hpc
  have hhash : s.mgr.hashAt i = some (S.flowHash p.tuple) := hpc
  have hlive : s.mgr.Live i := hs.producing i (by rw [hp]; rfl)
  have hflows : s.mgr.flows (S.flowHash p.tuple) = some i := hlive.flows hhash
  refine ⟨fun job hjob => ?_, ho.confined, fun h j k hj hk => ?_, fun h hnone => ?_, ?_⟩
  · rcases List.mem_append.mp hjob with hold | hnew
    · exact ho.pushedFor job hold
    · cases List.mem_singleton.mp hnew
      exact hhash
  · have hold := ho.live h j k hj hk
    simp only [onTheWay, ofHash_append, appliedJobs] at hold ⊢
    rw [hold]
    by_cases hqk : k = q
    · subst hqk
      rw [Function.update_self, ofHash_append, List.append_assoc, List.append_assoc]
    · have hne : h ≠ S.flowHash p.tuple := by
        rintro rfl
        obtain rfl : i = j := Option.some.inj (hflows.symm.trans hj)
        exact hqk (FlowManager.queueAt_unique hk hq)
      rw [Function.update_of_ne hqk, ofHash_singleton_of_ne hne, List.append_nil]
  · have hne : h ≠ S.flowHash p.tuple := by
      rintro rfl
      exact Option.some_ne_none i (hflows.symm.trans hnone)
    simp only [ofHash_append, appliedJobs, ofHash_singleton_of_ne hne, List.append_nil]
    exact ho.gone h hnone
  · have hadded := ho.added
    rw [hp] at hadded
    simp only [List.map_append, List.map_cons, List.map_nil]
    exact (List.append_nil _).symm ▸ hadded

variable [Double R]

/-- A worker adds the first packet that is on the way to its flow. -/
theorem InOrder.applies (ho : InOrder S s) (hs : Healthy S s) {i : Nat} {p : IPv4Packet}
    {j : FlowId} {c : Bool} (hw : s.worker i = .applying p j c) :
    InOrder S ({ s with
      mgr := s.mgr.modifyFlow j fun f => f.addPacket S p
      applied := s.applied ++ [(i, Job.mk p j)] }.setWorker i (.applied j c)) := by
  have hpc := hs.workers i
  rw [hw] at hpc
  have hhash : s.mgr.hashAt j = some (S.flowHash p.tuple) := hpc
  have hhome : s.mgr.Home i j := hs.working i j (by rw [hw]; rfl)
  have hflows : s.mgr.flows (S.flowHash p.tuple) = some j := hhome.1.flows hhash
  have hgrows : s.mgr.Extends (s.mgr.modifyFlow j fun f => f.addPacket S p) :=
    FlowManager.extends_modifyFlow s.mgr j (fun f => f.addPacket_hash S p)
      fun f => f.addPacket_threadQueueId S p
  refine ⟨fun job hjob => hgrows.hashAt _ _ (ho.pushedFor job hjob), fun e he => ?_,
    fun h k q hk hq => ?_, fun h hnone => ?_, ho.added⟩
  · rcases List.mem_append.mp he with hold | hnew
    · exact hgrows.queueAt _ _ (ho.confined e hold)
    · cases List.mem_singleton.mp hnew
      exact hgrows.queueAt _ _ hhome.2
  · have hk' : s.mgr.flows h = some k := hk
    obtain ⟨q', hq', -, -⟩ := queueAt_of_hashAt hs.toSound (hs.indexed.valid h k hk')
    have hqueue : q = q' := FlowManager.queueAt_unique hq (hgrows.queueAt _ _ hq')
    have hold := ho.live h k q' hk' hq'
    rw [← hqueue] at hold hq'
    simp only [appliedJobs, setWorker, onTheWay, List.map_append, List.map_cons, List.map_nil,
      ofHash_append] at hold ⊢
    rw [hold]
    by_cases hqi : q = i
    · subst hqi
      rw [hw, Function.update_self, List.append_assoc]
      rfl
    · have hne : h ≠ S.flowHash p.tuple := by
        rintro rfl
        obtain rfl : j = k := Option.some.inj (hflows.symm.trans hk')
        exact hqi (FlowManager.queueAt_unique hq' hhome.2)
      rw [Function.update_of_ne hqi, ofHash_singleton_of_ne hne, List.append_nil]
  · have hne : h ≠ S.flowHash p.tuple := by
      rintro rfl
      exact Option.some_ne_none j (hflows.symm.trans hnone)
    simp only [appliedJobs, setWorker, List.map_append, List.map_cons, List.map_nil,
      ofHash_append, ofHash_singleton_of_ne hne, List.append_nil]
    exact ho.gone h hnone

/-- **An orderly step keeps the packets in order.** -/
theorem inOrder_moves (ho : InOrder S s) (hs : Healthy S s) {a : Action}
    (h : Moves S s a s') : InOrder S s' := by
  have hext := FlowManager.Extends.refl s.mgr
  have hsame : ∀ h, s.mgr.flows h = s.mgr.flows h ∨ s.Unused h := fun _ => Or.inl rfl
  have hmodify : ∀ (i : FlowId) {g : Flow R → Flow R}, (∀ f, (g f).hash = f.hash) →
      (∀ f, (g f).threadQueueId = f.threadQueueId) → s.mgr.Extends (s.mgr.modifyFlow i g) :=
    fun i g hhash hqueue => FlowManager.extends_modifyFlow s.mgr i hhash hqueue
  cases h with
  | refused p hp hdown => exact ho
  | called p hp hup =>
    exact ho.producerMoves hs hext hsame rfl rfl rfl rfl rfl (Or.inr rfl)
  | finishing hp => exact ho.producerMoves hs hext hsame rfl rfl rfl rfl rfl (Or.inr rfl)
  | shutdown =>
    exact ho.producerMoves hs (FlowManager.extends_of_heap rfl) hsame rfl rfl rfl rfl rfl
      (Or.inl rfl)
  | created p hp hfree hnone =>
    refine ho.producerTakes hs (FlowManager.extends_insertFlow S none s.mgr p) (fun h => ?_) rfl
      rfl rfl rfl (given_append rfl) rfl (by rw [hp]; rfl)
    by_cases hh : h = S.flowHash p.tuple
    · exact Or.inr (hh ▸ unused_of_none hnone)
    · refine Or.inl ?_
      rw [FlowManager.insertFlow_flows, Function.update_of_ne hh]
  | reused p i f hp hfree hi hf hrep =>
    exact ho.producerTakes hs hext hsame rfl rfl rfl rfl (given_append rfl) rfl (by rw [hp]; rfl)
  | replaces p i f hp hfree hi hf hrep =>
    exact ho.producerMoves hs hext hsame rfl rfl rfl rfl rfl (Or.inr rfl)
  | replaceNotifies p i f stage stage' m hp hf hnot =>
    exact ho.producerMoves hs hnot.extends (fun h => Or.inl (by rw [hnot.flows])) rfl rfl rfl rfl
      rfl (Or.inr rfl)
  | replaced p i hp =>
    have hpc := hs.producer
    rw [hp] at hpc
    refine ho.producerTakes hs
      ((FlowManager.extends_erase _ _).trans (FlowManager.extends_insertFlow S none _ p))
      (fun h => ?_) rfl rfl rfl rfl (given_append rfl) rfl (by rw [hp]; rfl)
    by_cases hh : h = S.flowHash p.tuple
    · exact Or.inr (hh ▸ unused_of_closing hs hpc (by rw [hp]; rfl))
    · refine Or.inl ?_
      rw [FlowManager.insertFlow_flows, Function.update_of_ne hh, FlowManager.erase_flows,
        Function.update_of_ne hh]
  | counted p i hp =>
    exact ho.producerMoves hs (hmodify i (g := Flow.incPktsInQueue) (fun _ => rfl) fun _ => rfl)
      hsame rfl rfl rfl rfl rfl (Or.inl (by rw [hp]; rfl))
  | pushed p i q hp hq hroom =>
    exact ho.pushes hs hp hq
  | full p i q hp hq hroom =>
    exact ho.producerMoves hs hext hsame rfl rfl rfl rfl rfl (Or.inr rfl)
  | undone i hp =>
    exact ho.producerMoves hs (hmodify i (g := Flow.decPktsInQueue) (fun _ => rfl) fun _ => rfl)
      hsame rfl rfl rfl rfl rfl (Or.inr rfl)
  | drained k hp hk hempty =>
    exact ho.producerMoves hs hext hsame rfl rfl rfl rfl rfl (Or.inr rfl)
  | locked k hp hk hfree =>
    exact ho.producerMoves hs hext hsame rfl rfl rfl rfl rfl (Or.inr rfl)
  | picked k i hp hk => exact ho.producerMoves hs hext hsame rfl rfl rfl rfl rfl (Or.inr rfl)
  | waited k i f hp hf hidle =>
    exact ho.producerMoves hs hext hsame rfl rfl rfl rfl rfl (Or.inr rfl)
  | sweepNotifies k i f stage stage' m hp hf hnot =>
    exact ho.producerMoves hs hnot.extends (fun h => Or.inl (by rw [hnot.flows])) rfl rfl rfl rfl
      rfl (Or.inr rfl)
  | swept k i hp =>
    have hpc := hs.producer
    rw [hp] at hpc
    refine ho.producerMoves hs (FlowManager.extends_erase s.mgr k) (fun h => ?_) rfl rfl rfl rfl
      rfl (Or.inr rfl)
    by_cases hh : h = k
    · exact Or.inr (hh ▸ unused_of_closing hs hpc (by rw [hp]; rfl))
    · refine Or.inl ?_
      rw [FlowManager.erase_flows, Function.update_of_ne hh]
  | returned hp hempty =>
    exact ho.producerMoves hs hext hsame rfl rfl rfl rfl (given_finished rfl) (Or.inr rfl)
  | exits i hi hw hdown =>
    exact ho.workerMoves hs hext hsame rfl rfl (by rw [hw]; rfl) rfl rfl rfl rfl
  | popped i job rest hi hw hup hq =>
    refine ho.moves hs hext hsame (fun q => ?_) rfl rfl ho.added
    simp only [onTheWay, setWorker]
    by_cases hqi : q = i
    · subst hqi
      rw [Function.update_self, Function.update_self, hw, hq]
      rfl
    · rw [Function.update_of_ne hqi, Function.update_of_ne hqi]
  | workerCreated i job hi hw hfree hnone =>
    rw [(hs.lookup_eq hw).1] at hnone
    cases hnone
  | workerReused i job j f hi hw hfree hj hf hrep =>
    rw [(hs.lookup_eq hw).1] at hj
    cases hj
    exact ho.workerMoves hs hext hsame rfl rfl (by rw [hw]; rfl) rfl rfl rfl rfl
  | workerReplaces i job j f hi hw hfree hj hf hrep =>
    rw [(hs.lookup_eq hw).1] at hj
    cases hj
    rw [(hs.lookup_eq hw).2 f hf] at hrep
    cases hrep
  | workerReplaceNotifies i job j f stage stage' m hi hw hf hnot =>
    have hlocks := hs.unlocked i
    rw [hw] at hlocks
    cases hlocks
  | workerReplaced i job j hi hw =>
    have hlocks := hs.unlocked i
    rw [hw] at hlocks
    cases hlocks
  | decremented i p j f hi hw hf =>
    exact ho.workerMoves hs (hmodify j (g := Flow.decPktsInQueue) (fun _ => rfl) fun _ => rfl)
      hsame rfl rfl (by rw [hw]; rfl) rfl rfl rfl rfl
  | applies i p j c hi hw =>
    exact ho.applies hs hw
  | announces i j c f hi hw hf hnew =>
    exact ho.workerMoves hs (FlowManager.extends_of_heap rfl) hsame rfl rfl (by rw [hw]; rfl) rfl
      rfl rfl rfl
  | announcesNothing i j c f hi hw hf hold =>
    exact ho.workerMoves hs hext hsame rfl rfl (by rw [hw]; rfl) rfl rfl rfl rfl
  | seesFinished i j f hi hw hf hstate =>
    exact ho.workerMoves hs hext hsame rfl rfl (by rw [hw]; rfl) rfl rfl rfl rfl
  | seesUnfinished i j f hi hw hf hstate =>
    exact ho.workerMoves hs hext hsame rfl rfl (by rw [hw]; rfl) rfl rfl rfl rfl
  | seesNotified i j f hi hw hf hstate =>
    exact ho.workerMoves hs hext hsame rfl rfl (by rw [hw]; rfl) rfl rfl rfl rfl
  | keeps i j f hi hw hf hstate =>
    exact ho.workerMoves hs hext hsame rfl rfl (by rw [hw]; rfl) rfl rfl rfl rfl
  | notifies i j f stage stage' m hi hw hf hnot =>
    exact ho.workerMoves hs hnot.extends (fun h => Or.inl (by exact congrFun hnot.flows h)) rfl
      rfl (by rw [hw]; rfl) rfl rfl rfl rfl
  | notified i j hi hw =>
    exact ho.workerMoves hs hext hsame rfl rfl (by rw [hw]; rfl) rfl rfl rfl rfl
  | marks i j f hi hw hfree hf hbusy =>
    exact ho.workerMoves hs
      (hmodify j (g := Flow.setFinishedAndNotified) (fun _ => rfl) fun _ => rfl) hsame rfl rfl
      (by rw [hw]; rfl) rfl rfl rfl rfl
  | deletes i j f hi hw hfree hf hidle =>
    refine ho.workerMoves hs (FlowManager.extends_erase s.mgr _) (fun h => ?_) rfl rfl
      (by rw [hw]; rfl) rfl rfl rfl rfl
    by_cases hh : h = f.hash
    · exact Or.inr (hh ▸ unused_of_deleting hs hw hf hidle)
    · refine Or.inl ?_
      simp only [setWorker, FlowManager.erase_flows, Function.update_of_ne hh]

end Invariant

/-- **In an orderly run the packets stay in order.** -/
theorem inOrder_of_run [Double R] {S : Setup R} (hn : 0 < S.config.workerThreadsPerQueue)
    {s : State R} (h : Orderly S s) : InOrder S s :=
  (h.invariant (I := fun s => Healthy S s ∧ InOrder S s) ⟨healthy_init S, inOrder_init S⟩
    fun _ _ _ hs hok hstep =>
      have hmoves := moves_of_step hs.1.toSound hstep
      ⟨healthy_moves hn hs.1 hok hmoves, inOrder_moves hs.2 hs.1 hmoves⟩).2

/-! ## The report of a flow -/

/-- A thread in `getFlow` or `finished` is about to call the observers about the end of flow `j`. -/
inductive Reports (s : State R) (j : FlowId) : Prop where
  | replacing (p : IPv4Packet) : s.producer = .replacing p j .observe → Reports s j
  | sweeping (h : UInt32) : s.producer = .sweepNotify h j .observe → Reports s j
  | workerReplacing (i : Nat) (job : Job) : s.worker i = .replacing job j .observe → Reports s j

/-- The jobs of a flow. -/
def ofFlow (j : FlowId) (jobs : List Job) : List Job := jobs.filter fun job => job.flow == j

theorem ofFlow_ofHash {S : Setup R} {h : UInt32} {j : FlowId} {jobs : List Job}
    (hjobs : ∀ job ∈ jobs, job.flow = j → S.flowHash job.packet.tuple = h) :
    ofFlow j (ofHash S h jobs) = ofFlow j jobs := by
  unfold ofFlow ofHash
  rw [List.filter_filter]
  apply List.filter_congr
  intro job hjob
  cases hflow : job.flow == j with
  | false => rfl
  | true => rw [hjobs job hjob (beq_iff_eq.mp hflow), beq_self_eq_true, Bool.and_self]

section Runs

variable [Double R] {S : Setup R} {s : State R}

omit [Double R] in
/-- What was applied under a hash was pushed under it before. -/
theorem InOrder.applied_prefix (ho : InOrder S s) (hs : Sound S s) (h : UInt32) :
    ofHash S h s.appliedJobs <+: ofHash S h s.pushed := by
  cases hj : s.mgr.flows h with
  | none => rw [ho.gone h hj]
  | some j =>
    obtain ⟨q, hq, -, -⟩ := queueAt_of_hashAt hs (hs.indexed.valid h j hj)
    rw [ho.live h j q hj hq]
    exact List.prefix_append _ _

omit [Double R] in
theorem InOrder.mem_pushed (ho : InOrder S s) (hs : Sound S s) {job : Job}
    (hjob : job ∈ s.appliedJobs) : job ∈ s.pushed :=
  (mem_ofHash.mp ((ho.applied_prefix hs (S.flowHash job.packet.tuple)).subset
    (mem_ofHash.mpr ⟨hjob, rfl⟩))).1

/-- **No packet is missing from a report.** In an orderly run, when `getFlow` or `finished` calls
the observers about the end of a flow, every packet that was pushed for the flow has been added to
it: none is queued and no worker has one or is at work on the flow. -/
theorem reported_after_last_packet (hn : 0 < S.config.workerThreadsPerQueue) (h : Orderly S s)
    {j : FlowId} (hj : s.Reports j) :
    ofFlow j s.pushed = ofFlow j s.appliedJobs ∧ (∀ q, ∀ job ∈ s.queues q, job.flow ≠ j) ∧
      ∀ i, (s.worker i).flow ≠ some j := by
  have hs := healthy_of_run hn h
  have ho := inOrder_of_run hn h
  have hpc := hs.producer
  have hclosing : s.producer.closing = some j ∧ ∃ k, s.mgr.flows k = some j := by
    cases hj with
    | replacing p hp =>
      rw [hp] at hpc ⊢
      exact ⟨rfl, _, hpc⟩
    | sweeping k hp =>
      rw [hp] at hpc ⊢
      exact ⟨rfl, k, hpc⟩
    | workerReplacing i job hw =>
      have hlocks := hs.unlocked i
      rw [hw] at hlocks
      cases hlocks
  obtain ⟨hclosing, k, hflows⟩ := hclosing
  refine ⟨?_, hs.jobs_of_closing hflows hclosing, (hs.closing j hclosing).2⟩
  have hkey : ∀ job ∈ s.pushed, job.flow = j → S.flowHash job.packet.tuple = k := by
    intro job hjob heq
    have hhash := ho.pushedFor job hjob
    rw [heq, hs.indexed.valid k j hflows] at hhash
    exact (Option.some.inj hhash).symm
  rw [← ofFlow_ofHash hkey, ho.settled hs (unused_of_closing hs hflows hclosing),
    ofFlow_ofHash fun job hjob => hkey job (ho.mem_pushed hs.toSound hjob)]

/-- A query on the same ports, after more than the UDP timeout. -/
def lateQuery : IPv4Packet := { query with timestamp := ⟨1000, 0⟩ }

/-- The producer looks `p` up, decides to replace the flow and to tell the observers. -/
def replacesBy (p : IPv4Packet) : List Action := .addPacket p :: times 2 .producer

/-- Two datagrams, and much later a third. -/
def lateReplacement : List Action :=
  adds query ++ adds query ++ times 14 (.worker 0) ++ replacesBy lateQuery

theorem lateReplacement_reported :
    ∃ s : State ℚ, s.Reports 0 ∧ ofFlow 0 s.pushed = ofFlow 0 s.appliedJobs ∧
      (ofFlow 0 s.pushed).length = 2 := by
  obtain ⟨s, hrun, hseen⟩ := exists_orderly (withWorkers 1) lateReplacement
    (fun s => decide (s.producer = .replacing lateQuery 0 .observe) &&
      decide ((ofFlow 0 s.pushed).length = 2)) (by decide +kernel)
  simp only [Bool.and_eq_true, decide_eq_true_eq] at hseen
  have hreports : s.Reports 0 := .replacing lateQuery hseen.1
  exact ⟨s, hreports,
    (reported_after_last_packet (S := withWorkers 1) (by decide) hrun hreports).1, hseen.2⟩

/-- As before, with a third datagram that the worker has counted off and not added. -/
def hastyReplacement : List Action :=
  adds query ++ adds query ++ adds query ++ times 17 (.worker 0) ++ replacesBy lateQuery

theorem reported_before_last_packet :
    ∃ s : State ℚ,
      Run (step (withWorkers 1)) (fun s a => s.sparesLooked a = true) State.init s ∧ s.Reports 0 ∧
      s.worker 0 = .applying query 0 false ∧ (ofFlow 0 s.pushed).length = 3 ∧
      (ofFlow 0 s.appliedJobs).length = 2 := by
  obtain ⟨s, hrun, hseen⟩ := exists_of_exec (step (withWorkers 1))
    (fun s a => s.sparesLooked a = true) State.init hastyReplacement
    (fun s => decide (s.producer = .replacing lateQuery 0 .observe) &&
      decide (s.worker 0 = .applying query 0 false) &&
      decide ((ofFlow 0 s.pushed).length = 3) && decide ((ofFlow 0 s.appliedJobs).length = 2))
    (by decide +kernel)
  simp only [Bool.and_eq_true, decide_eq_true_eq] at hseen
  obtain ⟨⟨⟨hproducer, hworker⟩, hpushed⟩, happlied⟩ := hseen
  exact ⟨s, hrun, .replacing lateQuery hproducer, hworker, hpushed, happlied⟩

/-! ## The order of a connection -/

/-- **A flow belongs to one worker, and a connection's packets are added in order.** In an orderly
run every flow has a queue that exists, a packet is added by the worker of its flow's queue, no two
workers are adding to one flow, and what was added of a connection is the beginning of what was
pushed of it, which stands in the order of the calls of `addPacket`. -/
theorem applied_in_order (hn : 0 < S.config.workerThreadsPerQueue) (h : Orderly S s) :
    (∀ (i : FlowId) (f : Flow R), s.mgr.heap[i]? = some f →
      0 ≤ f.threadQueueId ∧ f.threadQueueId < S.config.workerThreadsPerQueue) ∧
    (∀ e ∈ s.applied, ∃ f, s.mgr.heap[e.2.flow]? = some f ∧ f.threadQueueId = (e.1 : Int)) ∧
    (∀ i i' p p' j c c', s.worker i = .applying p j c → s.worker i' = .applying p' j c' →
      i = i') ∧
    (∀ t, ((s.appliedJobs.map Job.packet).filter fun p => p.tuple.sameFlow t) <+:
      (s.pushed.map Job.packet).filter fun p => p.tuple.sameFlow t) ∧
    List.Sublist (s.pushed.map Job.packet) s.given := by
  have hs := healthy_of_run hn h
  have ho := inOrder_of_run hn h
  refine ⟨hs.queueIds, fun e he => ?_, fun i i' p p' j c c' hi hi' => ?_, fun t => ?_,
    (List.sublist_append_left _ _).trans ho.added⟩
  · exact Option.map_eq_some_iff.mp (ho.confined e he)
  · have hhome : s.mgr.Home i j := hs.working i j (by rw [hi]; rfl)
    have hhome' : s.mgr.Home i' j := hs.working i' j (by rw [hi']; rfl)
    exact hhome.unique hhome'
  · have hprefix := (ho.applied_prefix hs.toSound (S.flowHash t)).filter
      fun job => job.packet.tuple.sameFlow t
    have hown : ∀ jobs : List Job, (jobs.map Job.packet).filter (fun p => p.tuple.sameFlow t) =
        ((ofHash S (S.flowHash t) jobs).filter fun job => job.packet.tuple.sameFlow t).map
          Job.packet := by
      intro jobs
      rw [List.filter_map, ofHash, List.filter_filter]
      congr 1
      apply List.filter_congr
      intro job _
      simp only [Function.comp_apply]
      cases hsame : job.packet.tuple.sameFlow t with
      | false => rfl
      | true => rw [S.flowHash_sameFlow hsame, beq_self_eq_true, Bool.and_self]
    rw [hown, hown]
    exact hprefix.map _

/-- The second query of the connection. -/
def nextQuery : IPv4Packet := { query with data := [2] }

/-- A query from a neighbour, on the same ports. -/
def neighbour : IPv4Packet := { query with srcIp := 0x0700000a }

/-- Two connections in two queues. The second worker is the first to add a packet, and has another
one left in its queue. -/
def twoConnections : List Action :=
  adds query ++ adds neighbour ++ adds nextQuery ++ adds neighbour ++ times 4 (.worker 1) ++
    times 11 (.worker 0)

theorem twoConnections_in_order :
    ∃ s : State ℚ,
      s.pushed.map Job.packet = [query, neighbour, nextQuery, neighbour] ∧
      s.applied = [(1, ⟨neighbour, 1⟩), (0, ⟨query, 0⟩), (0, ⟨nextQuery, 0⟩)] ∧
      (∀ e ∈ s.applied, ∃ f, s.mgr.heap[e.2.flow]? = some f ∧ f.threadQueueId = (e.1 : Int)) ∧
      ∀ t, ((s.appliedJobs.map Job.packet).filter fun p => p.tuple.sameFlow t) <+:
        (s.pushed.map Job.packet).filter fun p => p.tuple.sameFlow t := by
  obtain ⟨s, hrun, hseen⟩ := exists_orderly (withWorkers 2) twoConnections
    (fun s => decide (s.pushed.map Job.packet = [query, neighbour, nextQuery, neighbour]) &&
      decide (s.applied = [(1, ⟨neighbour, 1⟩), (0, ⟨query, 0⟩), (0, ⟨nextQuery, 0⟩)]))
    (by decide +kernel)
  simp only [Bool.and_eq_true, decide_eq_true_eq] at hseen
  obtain ⟨-, howner, -, hprefix, -⟩ := applied_in_order (S := withWorkers 2) (by decide) hrun
  exact ⟨s, hseen.1, hseen.2, howner, hprefix⟩

/-- A segment that follows `nextSyn`. -/
def nextAck : IPv4Packet := { nextSyn with transport := .tcp thAck }

/-- Worker 0 erases the entry of the flow that `nextSyn` was pushed for, and `nextAck` opens another
one in the other queue. -/
def twoQueues : List Action :=
  adds lastFin ++ times 6 (.worker 0) ++ (.addPacket nextSyn :: times 6 .producer) ++
    times 3 (.worker 0) ++ adds nextAck ++ times 4 (.worker 0) ++ times 4 (.worker 1)

theorem twoQueues_out_of_order :
    ∃ s : State ℚ,
      Run (step (withWorkers 2)) (fun s a => s.sparesLooked a = true) State.init s ∧
      s.pushed.map Job.packet = [lastFin, nextSyn, nextAck] ∧
      s.appliedJobs.map Job.packet = [lastFin, nextAck, nextSyn] ∧
      (1, ⟨nextSyn, 2⟩) ∈ s.applied ∧ s.mgr.queueAt 2 = some 0 := by
  obtain ⟨s, hrun, hseen⟩ := exists_of_exec (step (withWorkers 2))
    (fun s a => s.sparesLooked a = true) State.init twoQueues
    (fun s => decide (s.pushed.map Job.packet = [lastFin, nextSyn, nextAck]) &&
      decide (s.appliedJobs.map Job.packet = [lastFin, nextAck, nextSyn]) &&
      decide ((1, ⟨nextSyn, 2⟩) ∈ s.applied) && decide (s.mgr.queueAt 2 = some 0))
    (by decide +kernel)
  simp only [Bool.and_eq_true, decide_eq_true_eq] at hseen
  obtain ⟨⟨⟨hpushed, happlied⟩, hmem⟩, hqueue⟩ := hseen
  exact ⟨s, hrun, hpushed, happlied, hmem, hqueue⟩

end Runs

end State

end Vsid
