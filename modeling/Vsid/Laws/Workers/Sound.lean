import Vsid.Common.Workers
import Vsid.Laws.Connection

/-!
# What holds in every interleaving

`Sound` is the invariant of all runs of the workers, good or bad: the table is well formed, every
flow has a queue that exists, what a thread has in its hands was created under the hash it goes by,
and the mutex is held by the thread that is inside a section.

`Moves` lists what a step can be from a sound state. Every later invariant is derived from this list
and not from `step`.
-/

set_option autoImplicit false

namespace Vsid

variable {R : Type}

/-! ## The manager grows -/

namespace FlowManager

/-- The queue of a flow, if there is such a flow. -/
def queueAt (m : FlowManager R) (i : FlowId) : Option Int := m.heap[i]?.map Flow.threadQueueId

/-- A flow has one queue. -/
theorem queueAt_unique {m : FlowManager R} {i : FlowId} {q q' : Nat}
    (h : m.queueAt i = some (q : Int)) (h' : m.queueAt i = some (q' : Int)) : q = q' :=
  Int.ofNat.inj (Option.some.inj (h.symm.trans h'))

/-- The flows of `m` are flows of `m'`, with their hashes and queues. -/
structure Extends (m m' : FlowManager R) : Prop where
  hashAt : ∀ i h, m.hashAt i = some h → m'.hashAt i = some h
  queueAt : ∀ i q, m.queueAt i = some q → m'.queueAt i = some q

theorem Extends.refl (m : FlowManager R) : Extends m m := ⟨fun _ _ h => h, fun _ _ h => h⟩

theorem Extends.trans {m m' m'' : FlowManager R} (h : Extends m m') (h' : Extends m' m'') :
    Extends m m'' :=
  ⟨fun i k hk => h'.hashAt i k (h.hashAt i k hk), fun i q hq => h'.queueAt i q (h.queueAt i q hq)⟩

theorem modifyFlow_queueAt {m : FlowManager R} {i : FlowId} {g : Flow R → Flow R}
    (h : ∀ f, (g f).threadQueueId = f.threadQueueId) (j : FlowId) :
    (m.modifyFlow i g).queueAt j = m.queueAt j := by
  unfold queueAt
  rw [modifyFlow_heap]
  by_cases hij : i = j
  · rw [if_pos hij, Option.map_map]
    cases m.heap[j]? with
    | none => rfl
    | some f => exact congrArg some (h f)
  · rw [if_neg hij]

theorem extends_modifyFlow (m : FlowManager R) (i : FlowId) {g : Flow R → Flow R}
    (hhash : ∀ f, (g f).hash = f.hash) (hqueue : ∀ f, (g f).threadQueueId = f.threadQueueId) :
    Extends m (m.modifyFlow i g) where
  hashAt j k hk := by rw [modifyFlow_hashAt fun f _ => hhash f, hk]
  queueAt j q hq := by rw [modifyFlow_queueAt hqueue, hq]

theorem extends_of_heap {m m' : FlowManager R} (h : m'.heap = m.heap) : Extends m m' where
  hashAt i k hk := by
    unfold FlowManager.hashAt at hk ⊢
    rw [h, hk]
  queueAt i q hq := by
    unfold FlowManager.queueAt at hq ⊢
    rw [h, hq]

theorem extends_erase (m : FlowManager R) (h : UInt32) : Extends m (m.erase h) :=
  extends_of_heap (erase_heap m h)

theorem extends_insertFlow [Double R] (S : Setup R) (self : Option Nat) (m : FlowManager R)
    (p : IPv4Packet) : Extends m (m.insertFlow S self p).1 where
  hashAt i k hk := by
    rw [insertFlow_hashAt, if_neg (Nat.ne_of_lt (lt_length_of_hashAt hk)), hk]
  queueAt i q hq := by
    obtain ⟨f, hf, -⟩ := Option.map_eq_some_iff.mp hq
    have hi : i < m.heap.length := (List.getElem?_eq_some_iff.mp hf).1
    unfold FlowManager.queueAt at hq ⊢
    rw [insertFlow_heap, List.getElem?_append_left hi, hq]

/-! ## The stages of a notification -/

/-- What a stage does to the manager. -/
inductive Notifies (m : FlowManager R) (i : FlowId) (f : Flow R) :
    NotifyStage → FlowManager R → NotifyStage → Prop where
  | skip : f.flowState = .finishedNotified → Notifies m i f .test m .done
  | tooFew : f.flowState ≠ .finishedNotified → tooFewPackets f = true → Notifies m i f .test m .mark
  | tell : f.flowState ≠ .finishedNotified → tooFewPackets f = false →
      Notifies m i f .test m .observe
  | observe : Notifies m i f .observe (m.tell i (.finished f)) .mark
  | mark : Notifies m i f .mark (m.modifyFlow i Flow.setFinishedAndNotified) .done

theorem notifies_notifyStep {m : FlowManager R} {i : FlowId} {f : Flow R}
    (hf : m.heap[i]? = some f) {stage : NotifyStage} (hstage : stage ≠ .done) :
    Notifies m i f stage (m.notifyStep i stage).1 (m.notifyStep i stage).2 := by
  unfold notifyStep
  rw [hf]
  cases stage with
  | test =>
    simp only
    by_cases hstate : f.flowState = .finishedNotified
    · rw [if_pos hstate]
      exact .skip hstate
    · rw [if_neg hstate]
      by_cases hfew : tooFewPackets f = true
      · rw [if_pos hfew]
        exact .tooFew hstate hfew
      · rw [if_neg hfew]
        exact .tell hstate (Bool.not_eq_true _ ▸ hfew)
  | observe => exact .observe
  | mark => exact .mark
  | done => exact absurd rfl hstage

section Notifies

variable {S : Setup R} {m m' : FlowManager R} {i : FlowId} {f : Flow R}
  {stage stage' : NotifyStage}

theorem Notifies.flows (h : Notifies m i f stage m' stage') : m'.flows = m.flows := by
  cases h <;> rfl

theorem Notifies.extends (h : Notifies m i f stage m' stage') : Extends m m' := by
  cases h with
  | mark => exact extends_modifyFlow m i (fun _ => rfl) fun _ => rfl
  | observe => exact extends_of_heap rfl
  | _ => exact Extends.refl m

theorem Notifies.indexed (h : Notifies m i f stage m' stage') (hf : m.heap[i]? = some f)
    (hm : Indexed S m) : Indexed S m' := by
  cases h with
  | mark => exact hm.modifyFlow i (fun _ => rfl) fun _ => rfl
  | observe => exact hm.tell (List.getElem?_eq_some_iff.mp hf).1 _
  | _ => exact hm

theorem Notifies.every {P : Flow R → Prop} (h : Notifies m i f stage m' stage') (hm : Every P m)
    (hP : ∀ f, P f → P f.setFinishedAndNotified) : Every P m' := by
  cases h with
  | mark => exact hm.modifyFlow i fun f _ => hP f
  | _ => exact hm

end Notifies

end FlowManager

/-! ## The invariant -/

/-- The producer is inside a section. -/
def ProducerPc.locks : ProducerPc → Bool
  | replacing .. => true
  | sweeping => true
  | spinning .. => true
  | sweepNotify .. => true
  | _ => false

/-- The worker is inside a section of more than one step. -/
def WorkerPc.locks : WorkerPc → Bool
  | replacing .. => true
  | _ => false

/-- What the producer has in its hands is what it takes it for. -/
def ProducerPc.Sound (S : Setup R) (m : FlowManager R) : ProducerPc → Prop
  | replacing p i _ => m.flows (S.flowHash p.tuple) = some i
  | found p i => m.hashAt i = some (S.flowHash p.tuple)
  | pushing p i => m.hashAt i = some (S.flowHash p.tuple)
  | undo i => ∃ h, m.hashAt i = some h
  | spinning h i => m.flows h = some i
  | sweepNotify h i _ => m.flows h = some i
  | _ => True

/-- What a worker has in its hands is what it takes it for. -/
def WorkerPc.Sound (S : Setup R) (m : FlowManager R) : WorkerPc → Prop
  | polling => True
  | exited => True
  | lookup job => m.hashAt job.flow = some (S.flowHash job.packet.tuple)
  | replacing job i _ => m.hashAt job.flow = some (S.flowHash job.packet.tuple) ∧
      m.flows (S.flowHash job.packet.tuple) = some i
  | found p i => m.hashAt i = some (S.flowHash p.tuple)
  | applying p i _ => m.hashAt i = some (S.flowHash p.tuple)
  | applied i _ => ∃ h, m.hashAt i = some h
  | checkFinished i => ∃ h, m.hashAt i = some h
  | checkNotified i => ∃ h, m.hashAt i = some h
  | notifying i _ => ∃ h, m.hashAt i = some h
  | deleting i => ∃ h, m.hashAt i = some h

theorem ProducerPc.Sound.mono {S : Setup R} {m m' : FlowManager R} {pc : ProducerPc}
    (h : pc.Sound S m) (hext : m.Extends m') (hflows : pc.locks = true → m'.flows = m.flows) :
    pc.Sound S m' := by
  cases pc with
  | replacing p i stage => exact (congrFun (hflows rfl) _).trans h
  | found p i => exact hext.hashAt _ _ h
  | pushing p i => exact hext.hashAt _ _ h
  | undo i =>
    obtain ⟨k, hk⟩ := h
    exact ⟨k, hext.hashAt _ _ hk⟩
  | spinning k i => exact (congrFun (hflows rfl) _).trans h
  | sweepNotify k i stage => exact (congrFun (hflows rfl) _).trans h
  | _ => trivial

theorem WorkerPc.Sound.mono {S : Setup R} {m m' : FlowManager R} {pc : WorkerPc}
    (h : pc.Sound S m) (hext : m.Extends m') (hflows : pc.locks = true → m'.flows = m.flows) :
    pc.Sound S m' := by
  have hsome : ∀ i, (∃ k, m.hashAt i = some k) → ∃ k, m'.hashAt i = some k := by
    rintro i ⟨k, hk⟩
    exact ⟨k, hext.hashAt _ _ hk⟩
  cases pc with
  | polling => trivial
  | exited => trivial
  | lookup job => exact hext.hashAt _ _ h
  | replacing job i stage =>
    exact ⟨hext.hashAt _ _ h.1, (congrFun (hflows rfl) _).trans h.2⟩
  | found p i => exact hext.hashAt _ _ h
  | applying p i c => exact hext.hashAt _ _ h
  | applied i c => exact hsome i h
  | checkFinished i => exact hsome i h
  | checkNotified i => exact hsome i h
  | notifying i stage => exact hsome i h
  | deleting i => exact hsome i h

/-- Every flow has one of the queues. -/
def QueueIds (S : Setup R) (m : FlowManager R) : Prop :=
  m.Every fun f => 0 ≤ f.threadQueueId ∧ f.threadQueueId < S.config.workerThreadsPerQueue

namespace State

/-- The invariant of every interleaving. -/
structure Sound (S : Setup R) (s : State R) : Prop where
  indexed : s.mgr.Indexed S
  queueIds : QueueIds S s.mgr
  jobs : ∀ q, ∀ job ∈ s.queues q, s.mgr.hashAt job.flow = some (S.flowHash job.packet.tuple)
  producer : s.producer.Sound S s.mgr
  workers : ∀ i, (s.worker i).Sound S s.mgr
  producerLocks : s.producer.locks = true ↔ s.mutex = some .producer
  workerLocks : ∀ i, (s.worker i).locks = true ↔ s.mutex = some (.worker i)

theorem sound_init (S : Setup R) : Sound S (State.init : State R) where
  indexed := FlowManager.Indexed.init S
  queueIds i f h := by cases h
  jobs q job h := by cases h
  producer := trivial
  workers i := trivial
  producerLocks := ⟨fun h => (by cases h), fun h => (by cases h)⟩
  workerLocks i := ⟨fun h => (by cases h), fun h => (by cases h)⟩

end State

end Vsid
