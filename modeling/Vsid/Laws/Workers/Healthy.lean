import Vsid.Laws.Workers.Moves

/-!
# Runs in which flows are left alone while they are in use

The look-up of a packet, the counter of its flow and the work on the flow are steps of their own,
and the program does nothing to keep other steps out from between them. There are two gaps, and a
guard for each of them:

* `sparesLooked`: no worker deletes a flow that the producer has looked up and not counted yet;
* `sparesBusy`: the producer takes no flow away, in `getFlow` or in `finished`, on which a worker is
  still at work although it has counted its packet off.

A step that meets both is `orderly`. Neither guard is enough: the schedules in the modules that
build on this one each fall into one gap and keep out of the other.

In a run of orderly steps the manager is `Healthy`: what is queued or in a worker's hands is for the
flow in the table, in the queue of that flow, and the counter of a flow is the number of its packets
that are on the way.
-/

set_option autoImplicit false

namespace Vsid

variable {R : Type}

/-! ## What a thread has in its hands -/

/-- The flow a producer works on. -/
def ProducerPc.flow : ProducerPc → Option FlowId
  | found _ i => some i
  | pushing _ i => some i
  | undo i => some i
  | _ => none

/-- The flow the producer has looked up and not counted yet. -/
def ProducerPc.looked : ProducerPc → Option FlowId
  | found _ i => some i
  | _ => none

/-- The flow the producer is taking out of the table. -/
def ProducerPc.closing : ProducerPc → Option FlowId
  | replacing _ i _ => some i
  | sweepNotify _ i _ => some i
  | _ => none

/-- The producer has counted a packet of flow `j` that is in no queue. -/
def ProducerPc.holds (j : FlowId) : ProducerPc → Nat
  | pushing _ i => if i = j then 1 else 0
  | undo i => if i = j then 1 else 0
  | _ => 0

/-- The producer is in the sweep of `finished`. -/
def ProducerPc.sweeps : ProducerPc → Bool
  | sweeping => true
  | spinning .. => true
  | sweepNotify .. => true
  | _ => false

/-- The flow a worker works on. -/
def WorkerPc.flow : WorkerPc → Option FlowId
  | polling => none
  | exited => none
  | lookup job => some job.flow
  | replacing job _ _ => some job.flow
  | found _ i => some i
  | applying _ i _ => some i
  | applied i _ => some i
  | checkFinished i => some i
  | checkNotified i => some i
  | notifying i _ => some i
  | deleting i => some i

/-- The flow a worker works on after it has counted its packet off. -/
def WorkerPc.busy : WorkerPc → Option FlowId
  | applying _ i _ => some i
  | applied i _ => some i
  | checkFinished i => some i
  | checkNotified i => some i
  | notifying i _ => some i
  | deleting i => some i
  | _ => none

/-- The worker has a packet of flow `j` that it has not counted off. -/
def WorkerPc.holds (j : FlowId) : WorkerPc → Nat
  | lookup job => if job.flow = j then 1 else 0
  | replacing job _ _ => if job.flow = j then 1 else 0
  | found _ i => if i = j then 1 else 0
  | _ => 0

theorem WorkerPc.holds_of_flow {pc : WorkerPc} {j : FlowId} (h : pc.flow ≠ some j) :
    pc.holds j = 0 := by
  cases pc <;> simp_all [flow, holds]

theorem ProducerPc.holds_of_flow {pc : ProducerPc} {j : FlowId} (h : pc.flow ≠ some j) :
    pc.holds j = 0 := by
  cases pc <;> simp_all [flow, holds]

theorem WorkerPc.busy_or_holds {pc : WorkerPc} {j : FlowId} (h : pc.flow = some j) :
    pc.busy = some j ∨ pc.holds j = 1 := by
  cases pc <;> simp_all [flow, holds, busy]

/-! ## Flows in the table -/

namespace FlowManager

/-- The pending count of a flow. -/
def counterAt (m : FlowManager R) (i : FlowId) : Option Int := m.heap[i]?.map Flow.pktsInQueue

/-- The flow is in the table. -/
def Live (m : FlowManager R) (i : FlowId) : Prop := ∃ h, m.hashAt i = some h ∧ m.flows h = some i

/-- The flow is in the table and belongs to queue `q`. -/
def Home (m : FlowManager R) (q : Nat) (i : FlowId) : Prop :=
  m.Live i ∧ m.queueAt i = some (q : Int)

theorem Home.unique {m : FlowManager R} {q q' : Nat} {i : FlowId} (h : m.Home q i)
    (h' : m.Home q' i) : q = q' := queueAt_unique h.2 h'.2

/-- The managers agree on the table and on what a flow is known by. -/
structure SameTable (m m' : FlowManager R) : Prop where
  flows : m'.flows = m.flows
  hashAt : ∀ i, m'.hashAt i = m.hashAt i
  queueAt : ∀ i, m'.queueAt i = m.queueAt i

theorem SameTable.refl (m : FlowManager R) : SameTable m m := ⟨rfl, fun _ => rfl, fun _ => rfl⟩

theorem SameTable.live {m m' : FlowManager R} (h : SameTable m m') (i : FlowId) :
    m'.Live i ↔ m.Live i := by
  unfold Live
  rw [h.hashAt, h.flows]

theorem SameTable.home {m m' : FlowManager R} (h : SameTable m m') (q : Nat) (i : FlowId) :
    m'.Home q i ↔ m.Home q i := by
  unfold Home
  rw [h.live, h.queueAt]

theorem sameTable_modifyFlow (m : FlowManager R) (i : FlowId) {g : Flow R → Flow R}
    (hhash : ∀ f, (g f).hash = f.hash) (hqueue : ∀ f, (g f).threadQueueId = f.threadQueueId) :
    SameTable m (m.modifyFlow i g) where
  flows := rfl
  hashAt := modifyFlow_hashAt fun f _ => hhash f
  queueAt := modifyFlow_queueAt hqueue

theorem sameTable_of_heap {m m' : FlowManager R} (hheap : m'.heap = m.heap)
    (hflows : m'.flows = m.flows) : SameTable m m' where
  flows := hflows
  hashAt i := by rw [FlowManager.hashAt, hheap]; rfl
  queueAt i := by rw [FlowManager.queueAt, hheap]; rfl

theorem modifyFlow_counterAt {m : FlowManager R} {i : FlowId} {g : Flow R → Flow R} {d : Int}
    (h : ∀ f, (g f).pktsInQueue = f.pktsInQueue + d) (j : FlowId) :
    (m.modifyFlow i g).counterAt j =
      if i = j then (m.counterAt j).map (· + d) else m.counterAt j := by
  unfold counterAt
  rw [modifyFlow_heap]
  by_cases hij : i = j
  · rw [if_pos hij, if_pos hij, Option.map_map, Option.map_map]
    cases m.heap[j]? with
    | none => rfl
    | some f => exact congrArg some (h f)
  · rw [if_neg hij, if_neg hij]

/-- A counter after the change of one, and what it was before. -/
theorem exists_counterAt {m : FlowManager R} {i j : FlowId} {g : Flow R → Flow R} {d c' : Int}
    (h : ∀ f, (g f).pktsInQueue = f.pktsInQueue + d)
    (hc' : (m.modifyFlow i g).counterAt j = some c') :
    ∃ c, m.counterAt j = some c ∧ c' = c + if i = j then d else 0 := by
  rw [modifyFlow_counterAt h] at hc'
  by_cases hij : i = j
  · rw [if_pos hij] at hc' ⊢
    obtain ⟨c, hc, heq⟩ := Option.map_eq_some_iff.mp hc'
    exact ⟨c, hc, heq.symm⟩
  · rw [if_neg hij] at hc' ⊢
    exact ⟨c', hc', (Int.add_zero c').symm⟩

theorem modifyFlow_counterAt_same {m : FlowManager R} {i : FlowId} {g : Flow R → Flow R}
    (h : ∀ f, (g f).pktsInQueue = f.pktsInQueue) (j : FlowId) :
    (m.modifyFlow i g).counterAt j = m.counterAt j := by
  rw [modifyFlow_counterAt (d := 0) fun f => by rw [h f, Int.add_zero]]
  split
  · cases m.counterAt j with
    | none => rfl
    | some c => exact congrArg some (Int.add_zero c)
  · rfl

theorem counterAt_of_heap {m : FlowManager R} {i : FlowId} {f : Flow R}
    (h : m.heap[i]? = some f) : m.counterAt i = some f.pktsInQueue := by
  rw [counterAt, h, Option.map_some]

theorem Notifies.sameTable {m m' : FlowManager R} {i : FlowId} {f : Flow R}
    {stage stage' : NotifyStage} (h : Notifies m i f stage m' stage') : SameTable m m' := by
  cases h with
  | mark => exact sameTable_modifyFlow m i (fun _ => rfl) fun _ => rfl
  | observe => exact sameTable_of_heap rfl rfl
  | _ => exact SameTable.refl m

theorem Notifies.counterAt {m m' : FlowManager R} {i : FlowId} {f : Flow R}
    {stage stage' : NotifyStage} (h : Notifies m i f stage m' stage') (j : FlowId) :
    m'.counterAt j = m.counterAt j := by
  cases h with
  | mark => exact modifyFlow_counterAt_same (g := Flow.setFinishedAndNotified) (fun _ => rfl) j
  | _ => rfl

theorem live_of_flows {S : Setup R} {m : FlowManager R} (hm : m.Indexed S) {h : UInt32}
    {i : FlowId} (hi : m.flows h = some i) : m.Live i := ⟨h, hm.valid h i hi, hi⟩

theorem Live.flows {m : FlowManager R} {i : FlowId} {h : UInt32} (hlive : m.Live i)
    (hi : m.hashAt i = some h) : m.flows h = some i := by
  obtain ⟨k, hk, hflows⟩ := hlive
  rw [hi] at hk
  cases hk
  exact hflows

/-- Erasing takes one flow out of the table. -/
theorem erase_live {S : Setup R} {m : FlowManager R} (hm : m.Indexed S) {h : UInt32} {i : FlowId}
    (hi : m.flows h = some i) (j : FlowId) : (m.erase h).Live j ↔ m.Live j ∧ j ≠ i := by
  unfold Live
  simp only [erase_hashAt, erase_flows]
  constructor
  · rintro ⟨k, hk, hflows⟩
    by_cases hkh : k = h
    · rw [hkh, Function.update_self] at hflows
      cases hflows
    · rw [Function.update_of_ne hkh] at hflows
      refine ⟨⟨k, hk, hflows⟩, fun hji => ?_⟩
      rw [hji, hm.valid h i hi] at hk
      exact hkh (Option.some.inj hk).symm
  · rintro ⟨⟨k, hk, hflows⟩, hji⟩
    have hkh : k ≠ h := by
      intro heq
      rw [heq, hi] at hflows
      exact hji (Option.some.inj hflows).symm
    exact ⟨k, hk, by rw [Function.update_of_ne hkh]; exact hflows⟩

@[simp] theorem erase_queueAt (m : FlowManager R) (h : UInt32) (i : FlowId) :
    (m.erase h).queueAt i = m.queueAt i := by
  unfold queueAt
  rw [erase_heap]

theorem erase_home {S : Setup R} {m : FlowManager R} (hm : m.Indexed S) {h : UInt32} {i : FlowId}
    (hi : m.flows h = some i) (q : Nat) (j : FlowId) :
    (m.erase h).Home q j ↔ m.Home q j ∧ j ≠ i := by
  unfold Home
  rw [erase_live hm hi, erase_queueAt, and_right_comm]

@[simp] theorem erase_counterAt (m : FlowManager R) (h : UInt32) (i : FlowId) :
    (m.erase h).counterAt i = m.counterAt i := by
  unfold counterAt
  rw [erase_heap]

variable [Double R]

/-- Inserting puts the new flow into the table. -/
theorem insertFlow_live {S : Setup R} {m : FlowManager R} (self : Option Nat) {p : IPv4Packet}
    (hnone : m.flows (S.flowHash p.tuple) = none) (j : FlowId) :
    (m.insertFlow S self p).1.Live j ↔ m.Live j ∨ j = m.heap.length := by
  unfold Live
  simp only [insertFlow_hashAt, insertFlow_flows]
  constructor
  · rintro ⟨k, hk, hflows⟩
    by_cases hkh : k = S.flowHash p.tuple
    · rw [hkh, Function.update_self] at hflows
      exact Or.inr (Option.some.inj hflows).symm
    · rw [Function.update_of_ne hkh] at hflows
      split at hk
      next => exact absurd (Option.some.inj hk).symm hkh
      next => exact Or.inl ⟨k, hk, hflows⟩
  · rintro (⟨k, hk, hflows⟩ | rfl)
    · have hkh : k ≠ S.flowHash p.tuple := by
        intro heq
        rw [heq, hnone] at hflows
        cases hflows
      refine ⟨k, ?_, by rw [Function.update_of_ne hkh]; exact hflows⟩
      rw [if_neg (Nat.ne_of_lt (lt_length_of_hashAt hk)), hk]
    · exact ⟨S.flowHash p.tuple, if_pos rfl, by rw [Function.update_self]⟩

theorem insertFlow_queueAt {S : Setup R} {m : FlowManager R} (self : Option Nat) (p : IPv4Packet)
    {j : FlowId} (hj : j ≠ m.heap.length) :
    (m.insertFlow S self p).1.queueAt j = m.queueAt j := by
  unfold queueAt
  rw [insertFlow_heap]
  rcases Nat.lt_or_gt_of_ne hj with hlt | hgt
  · rw [List.getElem?_append_left hlt]
  · rw [List.getElem?_eq_none (by rw [List.length_append, List.length_singleton]; omega),
      List.getElem?_eq_none (by omega)]

theorem insertFlow_counterAt {S : Setup R} {m : FlowManager R} (self : Option Nat)
    (p : IPv4Packet) (j : FlowId) :
    (m.insertFlow S self p).1.counterAt j =
      if j = m.heap.length then some 0 else m.counterAt j := by
  unfold counterAt
  rw [insertFlow_heap]
  by_cases hj : j = m.heap.length
  · rw [if_pos hj, hj, List.getElem?_concat_length]
    rfl
  · rw [if_neg hj]
    rcases Nat.lt_or_gt_of_ne hj with hlt | hgt
    · rw [List.getElem?_append_left hlt]
    · rw [List.getElem?_eq_none (by rw [List.length_append, List.length_singleton]; omega),
        List.getElem?_eq_none (by omega)]

end FlowManager

/-! ## Orderly steps -/

namespace State

variable [Double R]

/-- The flow that the producer's next step begins to take out of the table. -/
def takes (S : Setup R) (s : State R) : Option FlowId :=
  match s.producer with
  | .lookup p =>
    match s.mgr.flows (S.flowHash p.tuple) with
    | none => none
    | some i => if s.mgr.heap[i]?.any fun f => FlowManager.replaces S f p then some i else none
  | .spinning _ i => if s.mgr.heap[i]?.any fun f => !f.havePktsInQueue then some i else none
  | _ => none

omit [Double R] in
/-- The flow that the worker's next step deletes. -/
def deletesNext (s : State R) (i : Nat) : Option FlowId :=
  match s.worker i with
  | .deleting j => if s.mgr.heap[j]?.any fun f => !f.havePktsInQueue then some j else none
  | _ => none

/-- The producer takes no flow out of the table that a worker has counted its packet off and is
still at work on. -/
def sparesBusy (S : Setup R) (s : State R) : Action → Bool
  | .producer =>
    match s.takes S with
    | none => true
    | some j => (List.range S.config.workerThreadsPerQueue).all fun i => (s.worker i).busy != some j
  | _ => true

omit [Double R] in
/-- No worker deletes a flow that the producer has looked up and not counted yet. -/
def sparesLooked (s : State R) : Action → Bool
  | .worker i =>
    match s.deletesNext i with
    | none => true
    | some j => s.producer.looked != some j
  | _ => true

/-- The step does not fall into a gap of another thread. -/
def orderly (S : Setup R) (s : State R) (a : Action) : Bool := s.sparesBusy S a && s.sparesLooked a

/-- The packets of flow `j` that are on the way in queue `q`. -/
def pending (s : State R) (q : Nat) (j : FlowId) : Nat :=
  (s.queues q).countP (fun job => job.flow == j) + (s.worker q).holds j + s.producer.holds j

/-- The invariant of orderly runs. -/
structure Healthy (S : Setup R) (s : State R) : Prop extends Sound S s where
  idle : ∀ i, S.config.workerThreadsPerQueue ≤ i → s.worker i = .polling
  queued : ∀ q, ∀ job ∈ s.queues q, s.mgr.Home q job.flow
  working : ∀ i j, (s.worker i).flow = some j → s.mgr.Home i j
  producing : ∀ j, s.producer.flow = some j → s.mgr.Live j
  unlocked : ∀ i, (s.worker i).locks = false
  counted : ∀ q j, s.mgr.Home q j → s.mgr.counterAt j = some (s.pending q j : Int)
  closing : ∀ j, s.producer.closing = some j →
    s.mgr.counterAt j = some 0 ∧ ∀ i, (s.worker i).flow ≠ some j

omit [Double R] in
theorem healthy_init (S : Setup R) : Healthy S (State.init : State R) where
  toSound := sound_init S
  idle i hi := rfl
  queued q job h := by cases h
  working i j h := by cases h
  producing j h := by cases h
  unlocked i := rfl
  counted q j h := by
    obtain ⟨⟨k, hk, -⟩, -⟩ := h
    cases hk
  closing j h := by cases h

section Preservation

variable {S : Setup R} {s s' : State R}

omit [Double R] in
/-- The producer makes a move that leaves table, counters, queues and workers as they are. -/
theorem Healthy.producerMoves (hs : Healthy S s) (hsound : Sound S s')
    (htable : s.mgr.SameTable s'.mgr) (hcounter : ∀ j, s'.mgr.counterAt j = s.mgr.counterAt j)
    (hqueues : s'.queues = s.queues) (hworker : s'.worker = s.worker)
    (hflow : ∀ j, s'.producer.flow = some j → s.mgr.Live j)
    (hholds : ∀ j, s'.producer.holds j = s.producer.holds j)
    (hclosing : ∀ j, s'.producer.closing = some j →
      s.mgr.counterAt j = some 0 ∧ ∀ i, (s.worker i).flow ≠ some j) : Healthy S s' where
  toSound := hsound
  idle i hi := by rw [hworker]; exact hs.idle i hi
  queued q job hjob := by
    rw [hqueues] at hjob
    exact (htable.home q _).mpr (hs.queued q job hjob)
  working i j hj := by
    rw [hworker] at hj
    exact (htable.home i j).mpr (hs.working i j hj)
  producing j hj := (htable.live j).mpr (hflow j hj)
  unlocked i := by rw [hworker]; exact hs.unlocked i
  counted q j hj := by
    rw [hcounter, hs.counted q j ((htable.home q j).mp hj), pending, pending, hqueues, hworker,
      hholds]
  closing j hj := by
    rw [hcounter, hworker]
    exact hclosing j hj

omit [Double R] in
theorem Healthy.idle_update (hs : Healthy S s) {i : Nat} (hi : i < S.config.workerThreadsPerQueue)
    (pc : WorkerPc) (k : Nat) (hk : S.config.workerThreadsPerQueue ≤ k) :
    Function.update s.worker i pc k = .polling := by
  rw [Function.update_of_ne (by omega)]
  exact hs.idle k hk

omit [Double R] in
theorem Healthy.working_update (hs : Healthy S s) {i : Nat} {pc : WorkerPc}
    (hpc : ∀ j, pc.flow = some j → s.mgr.Home i j) (k : Nat) (j : FlowId)
    (hj : (Function.update s.worker i pc k).flow = some j) : s.mgr.Home k j := by
  by_cases hk : k = i
  · rw [hk, Function.update_self] at hj
    rw [hk]
    exact hpc j hj
  · rw [Function.update_of_ne hk] at hj
    exact hs.working k j hj

omit [Double R] in
theorem Healthy.unlocked_update (hs : Healthy S s) (i : Nat) {pc : WorkerPc}
    (hlocks : pc.locks = false) (k : Nat) : (Function.update s.worker i pc k).locks = false := by
  by_cases hk : k = i
  · rw [hk, Function.update_self]
    exact hlocks
  · rw [Function.update_of_ne hk]
    exact hs.unlocked k

omit [Double R] in
/-- A worker makes a move that leaves table, counters, queues and the other threads as they are. -/
theorem Healthy.workerMoves (hs : Healthy S s) (hsound : Sound S s') {i : Nat}
    (hi : i < S.config.workerThreadsPerQueue) {pc : WorkerPc}
    (htable : s.mgr.SameTable s'.mgr) (hcounter : ∀ j, s'.mgr.counterAt j = s.mgr.counterAt j)
    (hqueues : s'.queues = s.queues) (hproducer : s'.producer = s.producer)
    (hworker : s'.worker = Function.update s.worker i pc)
    (hflow : ∀ j, pc.flow = some j → (s.worker i).flow = some j)
    (hholds : ∀ j, pc.holds j = (s.worker i).holds j) (hlocks : pc.locks = false) :
    Healthy S s' where
  toSound := hsound
  idle k hk := by
    rw [hworker]
    exact hs.idle_update hi pc k hk
  queued q job hjob := by
    rw [hqueues] at hjob
    exact (htable.home q _).mpr (hs.queued q job hjob)
  working k j hj := by
    rw [hworker] at hj
    exact (htable.home k j).mpr
      (hs.working_update (fun j hj => hs.working i j (hflow j hj)) k j hj)
  producing j hj := by
    rw [hproducer] at hj
    exact (htable.live j).mpr (hs.producing j hj)
  unlocked k := by
    rw [hworker]
    exact hs.unlocked_update i hlocks k
  counted q j hj := by
    have hsame : (s'.worker q).holds j = (s.worker q).holds j := by
      rw [hworker]
      by_cases hq : q = i
      · rw [hq, Function.update_self, hholds]
      · rw [Function.update_of_ne hq]
    rw [hcounter, hs.counted q j ((htable.home q j).mp hj), pending, pending, hqueues, hproducer,
      hsame]
  closing j hj := by
    rw [hproducer] at hj
    obtain ⟨hzero, hfree⟩ := hs.closing j hj
    refine ⟨by rw [hcounter, hzero], fun k => ?_⟩
    rw [hworker]
    by_cases hk : k = i
    · rw [hk, Function.update_self]
      exact fun hj' => hfree i (hflow j hj')
    · rw [Function.update_of_ne hk]
      exact hfree k

omit [Double R] in
/-- A flow without pending packets is in no queue and in no thread's hands uncounted. -/
theorem Healthy.pending_eq_zero (hs : Healthy S s) {q : Nat} {j : FlowId} (hj : s.mgr.Home q j)
    {c : Int} (hc : s.mgr.counterAt j = some c) (hidle : c ≤ 0) :
    c = 0 ∧ (∀ k, ∀ job ∈ s.queues k, job.flow ≠ j) ∧ (∀ k, (s.worker k).holds j = 0) ∧
      s.producer.holds j = 0 := by
  have hcount := hs.counted q j hj
  rw [hc] at hcount
  have heq : c = (s.pending q j : Int) := Option.some.inj hcount
  have hzero : s.pending q j = 0 := by omega
  unfold pending at hzero
  have hother : ∀ k, s.mgr.Home k j → k = q := fun k hk => hk.unique hj
  refine ⟨by omega, fun k job hjob hflow => ?_, fun k => ?_, by omega⟩
  · have hk := hother k (hflow ▸ hs.queued k job hjob)
    subst hk
    have hnone : (s.queues k).countP (fun job => job.flow == j) = 0 := by omega
    rw [List.countP_eq_zero] at hnone
    exact hnone job hjob (beq_iff_eq.mpr hflow)
  · by_cases hk : (s.worker k).flow = some j
    · rw [hother k (hs.working k j hk)]
      omega
    · exact WorkerPc.holds_of_flow hk

omit [Double R] in
theorem Healthy.pending_eq_zero_of_idle (hs : Healthy S s) {q : Nat} {j : FlowId} {f : Flow R}
    (hj : s.mgr.Home q j) (hf : s.mgr.heap[j]? = some f) (hidle : f.havePktsInQueue = false) :
    f.pktsInQueue = 0 ∧ (∀ k, ∀ job ∈ s.queues k, job.flow ≠ j) ∧
      (∀ k, (s.worker k).holds j = 0) ∧ s.producer.holds j = 0 := by
  have hle : f.pktsInQueue ≤ 0 := by
    simp only [Flow.havePktsInQueue, decide_eq_false_iff_not, not_lt] at hidle
    exact hidle
  exact hs.pending_eq_zero hj (FlowManager.counterAt_of_heap hf) hle

omit [Double R] in
/-- Every live flow has its home. -/
theorem Sound.exists_home (hs : Sound S s) {j : FlowId} (hj : s.mgr.Live j) :
    ∃ q, s.mgr.Home q j := by
  have hlive := hj
  obtain ⟨h, hh, -⟩ := hj
  obtain ⟨q, hq, -, -⟩ := queueAt_of_hashAt hs hh
  exact ⟨q, hlive, hq⟩

omit [Double R] in
/-- When a flow without pending packets and without a busy worker is taken away, nobody has it. -/
theorem Healthy.free (hs : Healthy S s) {j : FlowId} (hj : s.mgr.Live j) {f : Flow R}
    (hf : s.mgr.heap[j]? = some f) (hidle : f.havePktsInQueue = false)
    (hbusy : ∀ i, i < S.config.workerThreadsPerQueue → (s.worker i).busy ≠ some j) :
    s.mgr.counterAt j = some 0 ∧ (∀ k, ∀ job ∈ s.queues k, job.flow ≠ j) ∧
      (∀ i, (s.worker i).flow ≠ some j) ∧ s.producer.holds j = 0 := by
  obtain ⟨q, hq⟩ := hs.toSound.exists_home hj
  obtain ⟨hzero, hqueues, hholds, hproducer⟩ := hs.pending_eq_zero_of_idle hq hf hidle
  refine ⟨by rw [FlowManager.counterAt_of_heap hf, hzero], hqueues, fun i hi => ?_, hproducer⟩
  by_cases hin : i < S.config.workerThreadsPerQueue
  · rcases WorkerPc.busy_or_holds hi with hb | hh
    · exact hbusy i hin hb
    · rw [hholds i] at hh
      cases hh
  · rw [hs.idle i (Nat.le_of_not_lt hin)] at hi
    cases hi

omit [Double R] in
/-- No queue has a packet of a flow whose counter is zero, -/
theorem Healthy.jobs_of_idle (hs : Healthy S s) {h : UInt32} {j : FlowId}
    (hj : s.mgr.flows h = some j) (hzero : s.mgr.counterAt j = some 0) :
    ∀ k, ∀ job ∈ s.queues k, job.flow ≠ j := by
  obtain ⟨q, hq⟩ := hs.toSound.exists_home (FlowManager.live_of_flows hs.indexed hj)
  exact (hs.pending_eq_zero hq hzero (Int.le_refl 0)).2.1

omit [Double R] in
/-- as is that of a flow which the producer takes out of the table. -/
theorem Healthy.jobs_of_closing (hs : Healthy S s) {h : UInt32} {j : FlowId}
    (hj : s.mgr.flows h = some j) (hclosing : s.producer.closing = some j) :
    ∀ k, ∀ job ∈ s.queues k, job.flow ≠ j := hs.jobs_of_idle hj (hs.closing j hclosing).1

omit [Double R] in
/-- What is in the table or under way leaves with a flow that nobody has. -/
theorem Healthy.erases (hs : Healthy S s) (hsound : Sound S s') {h : UInt32} {j : FlowId}
    (hj : s.mgr.flows h = some j) (hmgr : s'.mgr = s.mgr.erase h) (hqueues : s'.queues = s.queues)
    (hjobs : ∀ k, ∀ job ∈ s.queues k, job.flow ≠ j)
    (hidle : ∀ i, S.config.workerThreadsPerQueue ≤ i → s'.worker i = .polling)
    (hworkers : ∀ i k, (s'.worker i).flow = some k → (s.worker i).flow = some k ∧ k ≠ j)
    (hunlocked : ∀ i, (s'.worker i).locks = false)
    (hholds : ∀ i k, (s'.worker i).holds k = (s.worker i).holds k)
    (hproducer : ∀ k, s'.producer.flow = some k → s.mgr.Live k ∧ k ≠ j)
    (hpholds : ∀ k, s'.producer.holds k = s.producer.holds k)
    (hclosing : ∀ k, s'.producer.closing = some k → s.producer.closing = some k) :
    Healthy S s' := by
  have hhome : ∀ q k, s'.mgr.Home q k ↔ s.mgr.Home q k ∧ k ≠ j := by
    intro q k
    rw [hmgr]
    exact FlowManager.erase_home hs.indexed hj q k
  refine ⟨hsound, hidle, fun q job hjob => ?_, fun i k hk => ?_, fun k hk => ?_, hunlocked,
    fun q k hk => ?_, fun k hk => ?_⟩
  · rw [hqueues] at hjob
    exact (hhome q _).mpr ⟨hs.queued q job hjob, hjobs q job hjob⟩
  · obtain ⟨hold, hne⟩ := hworkers i k hk
    exact (hhome i k).mpr ⟨hs.working i k hold, hne⟩
  · rw [hmgr, FlowManager.erase_live hs.indexed hj]
    exact hproducer k hk
  · rw [hmgr, FlowManager.erase_counterAt, hs.counted q k ((hhome q k).mp hk).1, pending, pending,
      hqueues, hholds, hpholds]
  · obtain ⟨hzero, hfree⟩ := hs.closing k (hclosing k hk)
    rw [hmgr, FlowManager.erase_counterAt]
    exact ⟨hzero, fun i hi => hfree i (hworkers i k hi).1⟩

/-- A flow is inserted into a table that what is under way still finds its flows in. -/
theorem Healthy.inserts (hs : Healthy S s) (hsound : Sound S s') {m : FlowManager R}
    {p : IPv4Packet} (hnone : m.flows (S.flowHash p.tuple) = none)
    (hqueued : ∀ q, ∀ job ∈ s.queues q, m.Home q job.flow)
    (hworking : ∀ i j, (s.worker i).flow = some j → m.Home i j)
    (hcounted : ∀ q j, m.Home q j → m.counterAt j = some (s.pending q j : Int))
    (hmgr : s'.mgr = (m.insertFlow S none p).1) (hqueues : s'.queues = s.queues)
    (hworker : s'.worker = s.worker) (hproducer : s'.producer = .found p m.heap.length)
    (hholds : ∀ j, s.producer.holds j = 0) : Healthy S s' := by
  have hlt : ∀ q j, m.Home q j → j ≠ m.heap.length := by
    rintro q j ⟨⟨k, hk, -⟩, -⟩
    exact Nat.ne_of_lt (FlowManager.lt_length_of_hashAt hk)
  have hhome : ∀ q j, m.Home q j → s'.mgr.Home q j := by
    intro q j hj
    refine ⟨?_, ?_⟩
    · rw [hmgr, FlowManager.insertFlow_live none hnone]
      exact Or.inl hj.1
    · rw [hmgr, FlowManager.insertFlow_queueAt none p (hlt q j hj)]
      exact hj.2
  refine ⟨hsound, fun i hi => ?_, fun q job hjob => ?_, fun i j hj => ?_, fun j hj => ?_,
    fun i => ?_, fun q j hj => ?_, fun j hj => ?_⟩
  · rw [hworker]
    exact hs.idle i hi
  · rw [hqueues] at hjob
    exact hhome q _ (hqueued q job hjob)
  · rw [hworker] at hj
    exact hhome i j (hworking i j hj)
  · rw [hproducer] at hj
    cases hj
    rw [hmgr, FlowManager.insertFlow_live none hnone]
    exact Or.inr rfl
  · rw [hworker]
    exact hs.unlocked i
  · rw [hmgr, FlowManager.insertFlow_counterAt]
    have hfound : s'.producer.holds j = 0 := by rw [hproducer]; rfl
    by_cases hnew : j = m.heap.length
    · -- nobody has heard of the new flow
      have hqueue : (s.queues q).countP (fun job => job.flow == j) = 0 := by
        rw [List.countP_eq_zero]
        intro job hjob heq
        exact hlt q _ (hqueued q job hjob) (by rw [beq_iff_eq.mp heq, hnew])
      have hhand : (s.worker q).holds j = 0 := by
        apply WorkerPc.holds_of_flow
        intro hflow
        exact hlt q j (hworking q j hflow) hnew
      rw [if_pos hnew, pending, hqueues, hworker, hqueue, hhand, hfound]
      rfl
    · have hold : m.Home q j := by
        refine ⟨?_, ?_⟩
        · have hlive := hj.1
          rw [hmgr, FlowManager.insertFlow_live none hnone] at hlive
          exact hlive.resolve_right hnew
        · have hqueue := hj.2
          rw [hmgr, FlowManager.insertFlow_queueAt none p hnew] at hqueue
          exact hqueue
      rw [if_neg hnew, hcounted q j hold, pending, pending, hqueues, hworker, hfound, hholds]
  · rw [hproducer] at hj
    cases hj

/-- The producer inserts a flow in place of the one it has taken out of the table. -/
theorem Healthy.replaces (hs : Healthy S s) {p : IPv4Packet} {i : FlowId}
    (hp : s.producer = .replacing p i .done)
    (hflows : s.mgr.flows (S.flowHash p.tuple) = some i) {mutex : Option Thread}
    {history : List Call}
    (hsound : Sound S { s with
      mgr := ((s.mgr.erase (S.flowHash p.tuple)).insertFlow S none p).1
      producer := .found p s.mgr.heap.length
      mutex := mutex
      history := history }) :
    Healthy S { s with
      mgr := ((s.mgr.erase (S.flowHash p.tuple)).insertFlow S none p).1
      producer := .found p s.mgr.heap.length
      mutex := mutex
      history := history } := by
  have hclosing : s.producer.closing = some i := by
    rw [hp]
    rfl
  have hjobs := hs.jobs_of_closing hflows hclosing
  have hfree := (hs.closing i hclosing).2
  have hhome : ∀ q j, (s.mgr.erase (S.flowHash p.tuple)).Home q j ↔ s.mgr.Home q j ∧ j ≠ i :=
    fun q j => FlowManager.erase_home hs.indexed hflows q j
  refine hs.inserts (m := s.mgr.erase (S.flowHash p.tuple)) (p := p) hsound ?_
    (fun q job hjob => (hhome q _).mpr ⟨hs.queued q job hjob, hjobs q job hjob⟩)
    (fun k j hj => (hhome k j).mpr ⟨hs.working k j hj, fun heq => hfree k (heq ▸ hj)⟩)
    (fun q j hj => ?_) rfl rfl rfl ?_ fun _ => by rw [hp]; rfl
  · rw [FlowManager.erase_flows, Function.update_self]
  · rw [FlowManager.erase_counterAt, hs.counted q j ((hhome q j).mp hj).1]
  · rw [FlowManager.erase_heap]

omit [Double R] in
/-- The producer changes the counter of a flow, as what it holds changes. -/
theorem Healthy.producerCounts (hs : Healthy S s) {i : FlowId} {g : Flow R → Flow R} {d : Int}
    {pc : ProducerPc} (hsound : Sound S { s with mgr := s.mgr.modifyFlow i g, producer := pc })
    (hhash : ∀ f, (g f).hash = f.hash) (hqueue : ∀ f, (g f).threadQueueId = f.threadQueueId)
    (hcount : ∀ f, (g f).pktsInQueue = f.pktsInQueue + d)
    (hholds : ∀ j, (pc.holds j : Int) = s.producer.holds j + if i = j then d else 0)
    (hflow : ∀ j, pc.flow = some j → s.mgr.Live j) (hclosing : pc.closing = none) :
    Healthy S { s with mgr := s.mgr.modifyFlow i g, producer := pc } := by
  have hmod := FlowManager.sameTable_modifyFlow s.mgr i hhash hqueue
  refine ⟨hsound, hs.idle, fun q job hjob => (hmod.home q _).mpr (hs.queued q job hjob),
    fun k j hj => (hmod.home k j).mpr (hs.working k j hj),
    fun j hj => (hmod.live j).mpr (hflow j hj), hs.unlocked, fun q j hj => ?_, fun j hj => ?_⟩
  · have hsame := hholds j
    rw [FlowManager.modifyFlow_counterAt hcount, hs.counted q j ((hmod.home q j).mp hj), pending,
      pending]
    by_cases hij : i = j
    · rw [if_pos hij] at hsame ⊢
      rw [Option.map_some, Option.some.injEq]
      simp only
      omega
    · rw [if_neg hij] at hsame ⊢
      rw [Option.some.injEq]
      simp only
      omega
  · rw [hclosing] at hj
    cases hj

omit [Double R] in
/-- A counted packet goes from the producer's hands to its queue. -/
theorem Healthy.pushes (hs : Healthy S s) {p : IPv4Packet} {i : FlowId} {q : Nat}
    (hp : s.producer = .pushing p i) (hq : s.mgr.queueAt i = some (q : Int)) {pushed : List Job}
    (hsound : Sound S { s with
      queues := Function.update s.queues q (s.queues q ++ [⟨p, i⟩])
      producer := .idle
      pushed := pushed }) :
    Healthy S { s with
      queues := Function.update s.queues q (s.queues q ++ [⟨p, i⟩])
      producer := .idle
      pushed := pushed } := by
  have hlive : s.mgr.Live i := hs.producing i (by rw [hp]; rfl)
  refine ⟨hsound, hs.idle, fun k job hjob => ?_, hs.working, fun _ h => (by cases h), hs.unlocked,
    fun k j hj => ?_, fun _ h => (by cases h)⟩
  · by_cases hk : k = q
    · subst hk
      simp only [Function.update_self, List.mem_append, List.mem_singleton] at hjob
      rcases hjob with hold | rfl
      · exact hs.queued k job hold
      · exact ⟨hlive, hq⟩
    · simp only [Function.update_of_ne hk] at hjob
      exact hs.queued k job hjob
  · rw [hs.counted k j hj, pending, pending, hp]
    by_cases hk : k = q
    · subst hk
      simp only [Function.update_self, List.countP_append, List.countP_cons, List.countP_nil,
        beq_iff_eq, ProducerPc.holds]
      congr 2
      omega
    · have hij : i ≠ j := by
        rintro rfl
        exact hk (FlowManager.queueAt_unique hj.2 hq)
      simp only [Function.update_of_ne hk, ProducerPc.holds, hij, if_false]

omit [Double R] in
/-- A packet goes from its queue to the hands of its worker. -/
theorem Healthy.pops (hs : Healthy S s) {i : Nat} (hi : i < S.config.workerThreadsPerQueue)
    {job : Job} {rest : List Job} (hw : s.worker i = .polling) (hq : s.queues i = job :: rest)
    (hsound : Sound S
      ({ s with queues := Function.update s.queues i rest }.setWorker i (.lookup job))) :
    Healthy S ({ s with queues := Function.update s.queues i rest }.setWorker i (.lookup job)) := by
  have hmem : job ∈ s.queues i := by
    rw [hq]
    exact List.mem_cons_self
  have hhome := hs.queued i job hmem
  have hpc : ∀ j, (WorkerPc.lookup job).flow = some j → s.mgr.Home i j := by
    intro j hj
    cases hj
    exact hhome
  refine ⟨hsound, hs.idle_update hi _, fun k job' hjob => ?_, hs.working_update hpc, hs.producing,
    hs.unlocked_update i rfl, fun k j hj => ?_, fun j hj => ?_⟩
  · by_cases hk : k = i
    · subst hk
      simp only [setWorker, Function.update_self] at hjob
      apply hs.queued
      rw [hq]
      exact List.mem_cons_of_mem _ hjob
    · simp only [setWorker, Function.update_of_ne hk] at hjob
      exact hs.queued k job' hjob
  · refine (hs.counted k j hj).trans ?_
    simp only [pending, setWorker]
    by_cases hk : k = i
    · subst hk
      have hpolling : (s.worker k).holds j = 0 := by rw [hw]; rfl
      rw [Function.update_self, Function.update_self, hpolling, hq]
      simp only [List.countP_cons, beq_iff_eq, WorkerPc.holds]
      congr 2
    · rw [Function.update_of_ne hk, Function.update_of_ne hk]
  · obtain ⟨hzero, hfree⟩ := hs.closing j hj
    refine ⟨hzero, fun k => ?_⟩
    by_cases hk : k = i
    · subst hk
      simp only [setWorker, Function.update_self]
      intro heq
      cases heq
      obtain ⟨-, hjobs, -, -⟩ := hs.pending_eq_zero hhome hzero (Int.le_refl 0)
      exact hjobs k job hmem rfl
    · simp only [setWorker, Function.update_of_ne hk]
      exact hfree k

omit [Double R] in
/-- A worker counts its packet off. -/
theorem Healthy.countsOff (hs : Healthy S s) {i : Nat} (hi : i < S.config.workerThreadsPerQueue)
    {p : IPv4Packet} {j : FlowId} (hw : s.worker i = .found p j) (c : Bool)
    (hsound : Sound S ({ s with mgr := s.mgr.modifyFlow j Flow.decPktsInQueue }.setWorker i
      (.applying p j c))) :
    Healthy S ({ s with mgr := s.mgr.modifyFlow j Flow.decPktsInQueue }.setWorker i
      (.applying p j c)) := by
  have hmod := FlowManager.sameTable_modifyFlow s.mgr j (g := Flow.decPktsInQueue) (fun _ => rfl)
    fun _ => rfl
  have hcounter := FlowManager.modifyFlow_counterAt (m := s.mgr) (i := j)
    (g := Flow.decPktsInQueue) (d := -1) fun _ => rfl
  have hhome : s.mgr.Home i j := hs.working i j (by rw [hw]; rfl)
  have hpc : ∀ k, (WorkerPc.applying p j c).flow = some k → s.mgr.Home i k := by
    intro k hk
    cases hk
    exact hhome
  refine ⟨hsound, hs.idle_update hi _,
    fun q job hjob => (hmod.home q _).mpr (hs.queued q job hjob),
    fun k l hl => (hmod.home k l).mpr (hs.working_update hpc k l hl),
    fun l hl => (hmod.live l).mpr (hs.producing l hl), hs.unlocked_update i rfl, fun q l hl => ?_,
    fun l hl => ?_⟩
  · have hold := (hmod.home q l).mp hl
    simp only [setWorker]
    rw [hcounter, hs.counted q l hold, pending, pending]
    by_cases hq : q = i
    · subst hq
      simp only [Function.update_self, hw, WorkerPc.holds]
      by_cases hjl : j = l
      · simp only [hjl, if_true, Option.map_some, Option.some.injEq]
        omega
      · simp only [hjl, if_false]
    · have hjl : j ≠ l := by
        rintro rfl
        exact hq (hold.unique hhome)
      simp only [Function.update_of_ne hq, hjl, if_false]
  · obtain ⟨hzero, hfree⟩ := hs.closing l hl
    have hjl : j ≠ l := by
      intro heq
      exact hfree i (by rw [hw, ← heq]; rfl)
    refine ⟨?_, fun k => ?_⟩
    · simp only [setWorker]
      rw [hcounter, if_neg hjl, hzero]
    · by_cases hk : k = i
      · subst hk
        simp only [setWorker, Function.update_self]
        exact fun heq => hjl (Option.some.inj heq)
      · simp only [setWorker, Function.update_of_ne hk]
        exact hfree k

omit [Double R] in
/-- A worker takes its flow out of the table, which the producer has not just looked up. -/
theorem Healthy.deletes (hs : Healthy S s) {i : Nat} (hi : i < S.config.workerThreadsPerQueue)
    {j : FlowId} {f : Flow R} (hw : s.worker i = .deleting j) (hf : s.mgr.heap[j]? = some f)
    (hidle : f.havePktsInQueue = false) (hlooked : s.producer.looked ≠ some j)
    (hsound : Sound S ({ s with mgr := s.mgr.erase f.hash }.setWorker i .polling)) :
    Healthy S ({ s with mgr := s.mgr.erase f.hash }.setWorker i .polling) := by
  have hhome : s.mgr.Home i j := hs.working i j (by rw [hw]; rfl)
  have hflows : s.mgr.flows f.hash = some j := hhome.1.flows (FlowManager.hashAt_of_heap hf)
  obtain ⟨-, hjobs, -, hpholds⟩ := hs.pending_eq_zero_of_idle hhome hf hidle
  refine hs.erases hsound hflows rfl rfl hjobs (hs.idle_update hi _) (fun k l hl => ?_)
    (hs.unlocked_update i rfl) (fun k l => ?_)
    (fun l hl => ⟨hs.producing l hl, fun heq => ?_⟩) (fun _ => rfl) fun _ h => h
  · by_cases hk : k = i
    · subst hk
      simp only [setWorker, Function.update_self] at hl
      cases hl
    · simp only [setWorker, Function.update_of_ne hk] at hl
      refine ⟨hl, fun heq => ?_⟩
      have hother := hs.working k l hl
      rw [heq] at hother
      exact hk (hother.unique hhome)
  · by_cases hk : k = i
    · subst hk
      simp only [setWorker, Function.update_self, hw]
      rfl
    · simp only [setWorker, Function.update_of_ne hk]
  · -- the producer would have looked the flow up, or counted a packet of it
    subst heq
    cases hp : s.producer with
    | found p k =>
      rw [hp] at hl hlooked
      exact hlooked hl
    | pushing p k | undo k =>
      rw [hp] at hl hpholds
      cases hl
      simp only [ProducerPc.holds, if_true, Nat.one_ne_zero] at hpholds
    | _ =>
      rw [hp] at hl
      cases hl

/-! ### What an orderly step keeps out of -/

omit [Double R] in
theorem not_busy_of_takes {j : FlowId} (hok : s.orderly S .producer = true)
    (htakes : s.takes S = some j) :
    ∀ i, i < S.config.workerThreadsPerQueue → (s.worker i).busy ≠ some j := by
  intro i hi
  have hspares := (Bool.and_eq_true_iff.mp hok).1
  simp only [sparesBusy, htakes] at hspares
  exact bne_iff_ne.mp (List.all_eq_true.mp hspares i (List.mem_range.mpr hi))

omit [Double R] in
theorem not_busy_of_replaces {p : IPv4Packet} {j : FlowId} {f : Flow R}
    (hok : s.orderly S .producer = true) (hp : s.producer = .lookup p)
    (hj : s.mgr.flows (S.flowHash p.tuple) = some j) (hf : s.mgr.heap[j]? = some f)
    (hrep : FlowManager.replaces S f p = true) :
    ∀ i, i < S.config.workerThreadsPerQueue → (s.worker i).busy ≠ some j := by
  apply not_busy_of_takes hok
  simp only [takes, hp, hj, hf, Option.any_some, hrep, if_true]

omit [Double R] in
theorem not_busy_of_waited {h : UInt32} {j : FlowId} {f : Flow R}
    (hok : s.orderly S .producer = true) (hp : s.producer = .spinning h j)
    (hf : s.mgr.heap[j]? = some f) (hidle : f.havePktsInQueue = false) :
    ∀ i, i < S.config.workerThreadsPerQueue → (s.worker i).busy ≠ some j := by
  apply not_busy_of_takes hok
  simp only [takes, hp, hf, Option.any_some, hidle, Bool.not_false, if_true]

omit [Double R] in
theorem not_looked_of_deletes {i : Nat} {j : FlowId} {f : Flow R}
    (hok : s.orderly S (.worker i) = true) (hw : s.worker i = .deleting j)
    (hf : s.mgr.heap[j]? = some f) (hidle : f.havePktsInQueue = false) :
    s.producer.looked ≠ some j := by
  have hdel : s.deletesNext i = some j := by
    simp only [deletesNext, hw, hf, Option.any_some, hidle, Bool.not_false, if_true]
  have hspares := (Bool.and_eq_true_iff.mp hok).2
  simp only [sparesLooked, hdel] at hspares
  exact bne_iff_ne.mp hspares

omit [Double R] in
/-- The flow that a worker looks up is the one its packet was pushed for, and it is not replaced. -/
theorem Healthy.lookup_eq (hs : Healthy S s) {i : Nat} {job : Job}
    (hw : s.worker i = .lookup job) :
    s.mgr.flows (S.flowHash job.packet.tuple) = some job.flow ∧
      ∀ f, s.mgr.heap[job.flow]? = some f → FlowManager.replaces S f job.packet = false := by
  have hsound := hs.workers i
  rw [hw] at hsound
  have hhome : s.mgr.Home i job.flow := hs.working i job.flow (by rw [hw]; rfl)
  refine ⟨hhome.1.flows hsound, fun f hf => ?_⟩
  apply FlowManager.replaces_of_havePktsInQueue
  have hcount := hs.counted i job.flow hhome
  have hhand : (s.worker i).holds job.flow = 1 := by
    rw [hw]
    exact if_pos rfl
  rw [FlowManager.counterAt_of_heap hf, pending, hhand] at hcount
  have hpkts := Option.some.inj hcount
  simp only [Flow.havePktsInQueue, decide_eq_true_eq]
  omega

/-! ### The steps -/

/-- **An orderly step keeps the manager healthy.** -/
theorem healthy_moves (hn : 0 < S.config.workerThreadsPerQueue) (hs : Healthy S s) {a : Action}
    (hok : s.orderly S a = true) (h : Moves S s a s') : Healthy S s' := by
  have hsound : Sound S s' := sound_moves hn hs.toSound h
  have hsame := FlowManager.SameTable.refl s.mgr
  cases h with
  | refused p hp hdown => exact hs
  | called p hp hup =>
    exact hs.producerMoves hsound hsame (fun _ => rfl) rfl rfl (fun _ h => by cases h)
      (fun _ => by rw [hp]; rfl) fun _ h => by cases h
  | finishing hp =>
    exact hs.producerMoves hsound hsame (fun _ => rfl) rfl rfl (fun _ h => by cases h)
      (fun _ => by rw [hp]; rfl) fun _ h => by cases h
  | shutdown =>
    exact hs.producerMoves hsound (FlowManager.sameTable_of_heap rfl rfl) (fun _ => rfl) rfl rfl
      hs.producing (fun _ => rfl) hs.closing
  | created p hp hfree hnone =>
    exact hs.inserts hsound hnone hs.queued hs.working hs.counted rfl rfl rfl rfl
      fun _ => by rw [hp]; rfl
  | reused p i f hp hfree hi hf hrep =>
    refine hs.producerMoves hsound hsame (fun _ => rfl) rfl rfl (fun j hj => ?_)
      (fun _ => by rw [hp]; rfl) fun _ h => by cases h
    cases hj
    exact FlowManager.live_of_flows hs.indexed hi
  | replaces p i f hp hfree hi hf hrep =>
    have hbusy := not_busy_of_replaces hok hp hi hf hrep
    have hidle : f.havePktsInQueue = false := by
      cases hpkts : f.havePktsInQueue with
      | false => rfl
      | true =>
        rw [FlowManager.replaces_of_havePktsInQueue S p hpkts] at hrep
        cases hrep
    obtain ⟨hzero, -, hworkers, -⟩ :=
      hs.free (FlowManager.live_of_flows hs.indexed hi) hf hidle hbusy
    refine hs.producerMoves hsound hsame (fun _ => rfl) rfl rfl (fun _ h => by cases h)
      (fun _ => by rw [hp]; rfl) fun j hj => ?_
    cases hj
    exact ⟨hzero, hworkers⟩
  | replaceNotifies p i f stage stage' m hp hf hnot =>
    refine hs.producerMoves hsound hnot.sameTable hnot.counterAt rfl rfl (fun _ h => by cases h)
      (fun _ => by rw [hp]; rfl) fun j hj => ?_
    exact hs.closing j (by rw [hp]; exact hj)
  | replaced p i hp =>
    have hpc := hs.producer
    rw [hp] at hpc
    exact hs.replaces hp hpc hsound
  | counted p i hp =>
    refine hs.producerCounts (d := 1) hsound (fun _ => rfl) (fun _ => rfl) (fun _ => rfl)
      (fun j => ?_) (fun j hj => ?_) rfl
    · have hold : s.producer.holds j = 0 := by rw [hp]; rfl
      rw [hold]
      by_cases hij : i = j
      · simp only [ProducerPc.holds, hij, if_true, Nat.cast_one, Nat.cast_zero, Int.zero_add]
      · simp only [ProducerPc.holds, hij, if_false, Nat.cast_zero, Int.zero_add]
    · cases hj
      exact hs.producing i (by rw [hp]; rfl)
  | pushed p i q hp hq hroom =>
    exact hs.pushes hp hq hsound
  | full p i q hp hq hroom =>
    refine hs.producerMoves hsound hsame (fun _ => rfl) rfl rfl (fun j hj => ?_)
      (fun _ => by rw [hp]; rfl) fun _ h => by cases h
    exact hs.producing j (by rw [hp]; exact hj)
  | undone i hp =>
    refine hs.producerCounts (d := -1) hsound (fun _ => rfl) (fun _ => rfl) (fun _ => rfl)
      (fun j => ?_) (fun _ h => by cases h) rfl
    rw [hp]
    by_cases hij : i = j
    · simp only [ProducerPc.holds, hij, if_true, Nat.cast_one, Nat.cast_zero, Int.add_right_neg]
    · simp only [ProducerPc.holds, hij, if_false, Nat.cast_zero, Int.zero_add]
  | drained k hp hk hempty =>
    exact hs.producerMoves hsound hsame (fun _ => rfl) rfl rfl (fun _ h => by cases h)
      (fun _ => by rw [hp]; rfl) fun _ h => by cases h
  | locked k hp hk hfree =>
    exact hs.producerMoves hsound hsame (fun _ => rfl) rfl rfl (fun _ h => by cases h)
      (fun _ => by rw [hp]; rfl) fun _ h => by cases h
  | picked k i hp hk =>
    exact hs.producerMoves hsound hsame (fun _ => rfl) rfl rfl (fun _ h => by cases h)
      (fun _ => by rw [hp]; rfl) fun _ h => by cases h
  | waited k i f hp hf hidle =>
    have hpc := hs.producer
    rw [hp] at hpc
    have hbusy := not_busy_of_waited hok hp hf hidle
    obtain ⟨hzero, -, hworkers, -⟩ :=
      hs.free (FlowManager.live_of_flows hs.indexed hpc) hf hidle hbusy
    refine hs.producerMoves hsound hsame (fun _ => rfl) rfl rfl (fun _ h => by cases h)
      (fun _ => by rw [hp]; rfl) fun j hj => ?_
    cases hj
    exact ⟨hzero, hworkers⟩
  | sweepNotifies k i f stage stage' m hp hf hnot =>
    refine hs.producerMoves hsound hnot.sameTable hnot.counterAt rfl rfl (fun _ h => by cases h)
      (fun _ => by rw [hp]; rfl) fun j hj => ?_
    exact hs.closing j (by rw [hp]; exact hj)
  | swept k i hp =>
    have hpc := hs.producer
    rw [hp] at hpc
    have hclosing : s.producer.closing = some i := by
      rw [hp]
      rfl
    exact hs.erases hsound hpc rfl rfl (hs.jobs_of_closing hpc hclosing) hs.idle
      (fun w j hj => ⟨hj, fun heq => (hs.closing i hclosing).2 w (heq ▸ hj)⟩) hs.unlocked
      (fun _ _ => rfl) (fun _ h => by cases h) (fun _ => by rw [hp]; rfl) fun _ h => by cases h
  | returned hp hempty =>
    exact hs.producerMoves hsound hsame (fun _ => rfl) rfl rfl (fun _ h => by cases h)
      (fun _ => by rw [hp]; rfl) fun _ h => by cases h
  | exits i hi hw hdown =>
    exact hs.workerMoves hsound hi hsame (fun _ => rfl) rfl rfl rfl (fun _ h => by cases h)
      (fun _ => by rw [hw]; rfl) rfl
  | popped i job rest hi hw hup hq =>
    exact hs.pops hi hw hq hsound
  | workerCreated i job hi hw hfree hnone =>
    rw [(hs.lookup_eq hw).1] at hnone
    cases hnone
  | workerReused i job j f hi hw hfree hj hf hrep =>
    rw [(hs.lookup_eq hw).1] at hj
    cases hj
    exact hs.workerMoves hsound hi hsame (fun _ => rfl) rfl rfl rfl
      (fun _ h => by rw [hw]; exact h) (fun _ => by rw [hw]; rfl) rfl
  | workerReplaces i job j f hi hw hfree hj hf hrep =>
    rw [(hs.lookup_eq hw).1] at hj
    cases hj
    rw [(hs.lookup_eq hw).2 f hf] at hrep
    cases hrep
  | workerReplaceNotifies i job j f stage stage' m hi hw hf hnot =>
    have hlocks := hs.unlocked i
    rw [hw] at hlocks
    cases hlocks
  | workerReplaced i job j hi hw =>
    have hlocks := hs.unlocked i
    rw [hw] at hlocks
    cases hlocks
  | decremented i p j f hi hw hf =>
    exact hs.countsOff hi hw _ hsound
  | applies i p j c hi hw =>
    exact hs.workerMoves hsound hi
      (FlowManager.sameTable_modifyFlow s.mgr j (fun f => f.addPacket_hash S p)
        fun f => f.addPacket_threadQueueId S p)
      (FlowManager.modifyFlow_counterAt_same fun f => f.addPacket_pktsInQueue S p) rfl rfl rfl
      (fun _ h => by rw [hw]; exact h) (fun _ => by rw [hw]; rfl) rfl
  | announces i j c f hi hw hf hnew =>
    exact hs.workerMoves hsound hi (FlowManager.sameTable_of_heap rfl rfl) (fun _ => rfl) rfl rfl
      rfl (fun _ h => by rw [hw]; exact h) (fun _ => by rw [hw]; rfl) rfl
  | announcesNothing i j c f hi hw hf hold =>
    exact hs.workerMoves hsound hi hsame (fun _ => rfl) rfl rfl rfl
      (fun _ h => by rw [hw]; exact h) (fun _ => by rw [hw]; rfl) rfl
  | seesFinished i j f hi hw hf hstate =>
    exact hs.workerMoves hsound hi hsame (fun _ => rfl) rfl rfl rfl
      (fun _ h => by rw [hw]; exact h) (fun _ => by rw [hw]; rfl) rfl
  | seesUnfinished i j f hi hw hf hstate =>
    exact hs.workerMoves hsound hi hsame (fun _ => rfl) rfl rfl rfl
      (fun _ h => by rw [hw]; exact h) (fun _ => by rw [hw]; rfl) rfl
  | seesNotified i j f hi hw hf hstate =>
    exact hs.workerMoves hsound hi hsame (fun _ => rfl) rfl rfl rfl
      (fun _ h => by rw [hw]; exact h) (fun _ => by rw [hw]; rfl) rfl
  | keeps i j f hi hw hf hstate =>
    exact hs.workerMoves hsound hi hsame (fun _ => rfl) rfl rfl rfl (fun _ h => by cases h)
      (fun _ => by rw [hw]; rfl) rfl
  | notifies i j f stage stage' m hi hw hf hnot =>
    exact hs.workerMoves hsound hi hnot.sameTable hnot.counterAt rfl rfl rfl
      (fun _ h => by rw [hw]; exact h) (fun _ => by rw [hw]; rfl) rfl
  | notified i j hi hw =>
    exact hs.workerMoves hsound hi hsame (fun _ => rfl) rfl rfl rfl
      (fun _ h => by rw [hw]; exact h) (fun _ => by rw [hw]; rfl) rfl
  | marks i j f hi hw hfree hf hbusy =>
    exact hs.workerMoves hsound hi
      (FlowManager.sameTable_modifyFlow s.mgr j (g := Flow.setFinishedAndNotified) (fun _ => rfl)
        fun _ => rfl)
      (FlowManager.modifyFlow_counterAt_same (g := Flow.setFinishedAndNotified) fun _ => rfl) rfl
      rfl rfl (fun _ h => by cases h) (fun _ => by rw [hw]; rfl) rfl
  | deletes i j f hi hw hfree hf hidle =>
    exact hs.deletes hi hw hf hidle (not_looked_of_deletes hok hw hf hidle) hsound

end Preservation

/-- What orderly runs lead to. -/
abbrev Orderly (S : Setup R) (s : State R) : Prop :=
  Run (step S) (fun s a => s.orderly S a = true) State.init s

/-- **Every state of an orderly run is healthy.** -/
theorem healthy_of_run {S : Setup R} (hn : 0 < S.config.workerThreadsPerQueue) {s : State R}
    (h : Orderly S s) : Healthy S s :=
  h.invariant (healthy_init S) fun _ _ _ hs hok hstep =>
    healthy_moves hn hs hok (moves_of_step hs.toSound hstep)

/-! ## Schedules -/

/-- Executing a schedule of orderly steps. -/
theorem exists_orderly (S : Setup R) (actions : List Action) (seen : State R → Bool)
    (h : (exec (step S) (fun s a => s.orderly S a = true) State.init actions).any seen = true) :
    ∃ s, Orderly S s ∧ seen s = true := exists_of_exec _ _ _ actions seen h

/-- Executing a schedule. -/
theorem exists_reachable (S : Setup R) (actions : List Action) (seen : State R → Bool)
    (h : (exec (step S) (fun _ _ => True) State.init actions).any seen = true) :
    ∃ s, Reachable S s ∧ seen s = true := exists_of_exec _ _ _ actions seen h

/-- The program as it starts, with `n` worker threads. -/
def withWorkers (n : Nat) : Setup ℚ :=
  { (Setup.initial : Setup ℚ) with
    config := { CommonConfig.initial with workerThreadsPerQueue := n } }

/-- An action, `n` times in a row. -/
def times (n : Nat) (a : Action) : List Action := List.replicate n a

/-- The producer goes through `addPacket` with a packet that replaces no flow. -/
def adds (p : IPv4Packet) : List Action := .addPacket p :: times 3 .producer

end State

end Vsid
