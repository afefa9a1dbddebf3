import Vsid.Laws.Workers.Sound

/-!
# The moves

`Moves S s a s'` has one constructor for each thing that an action can do in a sound state, with all
that was tested on the way. `moves_of_step` is the inversion of `State.step`, and `sound_step` the
first use of it: soundness is preserved, and so every reachable state is sound.
-/

set_option autoImplicit false

namespace Vsid

variable {R : Type} [Double R]

namespace State

/-- What an action does. -/
inductive Moves (S : Setup R) (s : State R) : Action → State R → Prop where
  -- the caller
  | refused (p : IPv4Packet) : s.producer = .idle → s.mgr.shutdown = true →
      Moves S s (.addPacket p) s
  | called (p : IPv4Packet) : s.producer = .idle → s.mgr.shutdown = false →
      Moves S s (.addPacket p) { s with producer := .lookup p }
  | finishing : s.producer = .idle → Moves S s .finished { s with producer := .draining 0 }
  | shutdown : Moves S s .shutdown { s with mgr := { s.mgr with shutdown := true } }
  -- addPacket
  | created (p : IPv4Packet) : s.producer = .lookup p → s.mutex = none →
      s.mgr.flows (S.flowHash p.tuple) = none →
      Moves S s .producer { s with
        mgr := (s.mgr.insertFlow S none p).1
        producer := .found p s.mgr.heap.length
        history := s.history ++ [.packet p] }
  | reused (p : IPv4Packet) (i : FlowId) (f : Flow R) : s.producer = .lookup p →
      s.mutex = none → s.mgr.flows (S.flowHash p.tuple) = some i → s.mgr.heap[i]? = some f →
      FlowManager.replaces S f p = false →
      Moves S s .producer
        { s with producer := .found p i, history := s.history ++ [.packet p] }
  | replaces (p : IPv4Packet) (i : FlowId) (f : Flow R) : s.producer = .lookup p →
      s.mutex = none → s.mgr.flows (S.flowHash p.tuple) = some i → s.mgr.heap[i]? = some f →
      FlowManager.replaces S f p = true →
      Moves S s .producer { s with producer := .replacing p i .test, mutex := some .producer }
  | replaceNotifies (p : IPv4Packet) (i : FlowId) (f : Flow R) (stage stage' : NotifyStage)
      (m : FlowManager R) : s.producer = .replacing p i stage → s.mgr.heap[i]? = some f →
      s.mgr.Notifies i f stage m stage' →
      Moves S s .producer { s with mgr := m, producer := .replacing p i stage' }
  | replaced (p : IPv4Packet) (i : FlowId) : s.producer = .replacing p i .done →
      Moves S s .producer { s with
        mgr := ((s.mgr.erase (S.flowHash p.tuple)).insertFlow S none p).1
        producer := .found p s.mgr.heap.length
        mutex := none
        history := s.history ++ [.packet p] }
  | counted (p : IPv4Packet) (i : FlowId) : s.producer = .found p i →
      Moves S s .producer
        { s with mgr := s.mgr.modifyFlow i Flow.incPktsInQueue, producer := .pushing p i }
  | pushed (p : IPv4Packet) (i : FlowId) (q : Nat) : s.producer = .pushing p i →
      s.mgr.queueAt i = some (q : Int) → (s.queues q).length < S.config.workerThreadQueueSize →
      Moves S s .producer { s with
        queues := Function.update s.queues q (s.queues q ++ [⟨p, i⟩])
        producer := .idle
        pushed := s.pushed ++ [Job.mk p i] }
  | full (p : IPv4Packet) (i : FlowId) (q : Nat) : s.producer = .pushing p i →
      s.mgr.queueAt i = some (q : Int) → S.config.workerThreadQueueSize ≤ (s.queues q).length →
      Moves S s .producer { s with producer := .undo i }
  | undone (i : FlowId) : s.producer = .undo i →
      Moves S s .producer
        { s with mgr := s.mgr.modifyFlow i Flow.decPktsInQueue, producer := .idle }
  -- finished
  | drained (k : Nat) : s.producer = .draining k → k < S.config.workerThreadsPerQueue →
      s.queues k = [] → Moves S s .producer { s with producer := .draining (k + 1) }
  | locked (k : Nat) : s.producer = .draining k → S.config.workerThreadsPerQueue ≤ k →
      s.mutex = none → Moves S s .producer { s with producer := .sweeping, mutex := some .producer }
  | picked (h : UInt32) (i : FlowId) : s.producer = .sweeping → s.mgr.flows h = some i →
      Moves S s (.pick h) { s with producer := .spinning h i }
  | waited (h : UInt32) (i : FlowId) (f : Flow R) : s.producer = .spinning h i →
      s.mgr.heap[i]? = some f → f.havePktsInQueue = false →
      Moves S s .producer { s with producer := .sweepNotify h i .test }
  | sweepNotifies (h : UInt32) (i : FlowId) (f : Flow R) (stage stage' : NotifyStage)
      (m : FlowManager R) : s.producer = .sweepNotify h i stage → s.mgr.heap[i]? = some f →
      s.mgr.Notifies i f stage m stage' →
      Moves S s .producer { s with mgr := m, producer := .sweepNotify h i stage' }
  | swept (h : UInt32) (i : FlowId) : s.producer = .sweepNotify h i .done →
      Moves S s .producer { s with mgr := s.mgr.erase h, producer := .sweeping }
  | returned : s.producer = .sweeping → (∀ h, s.mgr.flows h = none) →
      Moves S s .producer
        { s with producer := .idle, mutex := none, history := s.history ++ [.finished] }
  -- processPackets
  | exits (i : Nat) : i < S.config.workerThreadsPerQueue → s.worker i = .polling →
      s.mgr.shutdown = true → Moves S s (.worker i) (s.setWorker i .exited)
  | popped (i : Nat) (job : Job) (rest : List Job) : i < S.config.workerThreadsPerQueue →
      s.worker i = .polling → s.mgr.shutdown = false → s.queues i = job :: rest →
      Moves S s (.worker i)
        ({ s with queues := Function.update s.queues i rest }.setWorker i (.lookup job))
  -- processPacket
  | workerCreated (i : Nat) (job : Job) : i < S.config.workerThreadsPerQueue →
      s.worker i = .lookup job → s.mutex = none →
      s.mgr.flows (S.flowHash job.packet.tuple) = none →
      Moves S s (.worker i)
        ({ s with mgr := (s.mgr.insertFlow S (some i) job.packet).1 }.setWorker i
          (.found job.packet s.mgr.heap.length))
  | workerReused (i : Nat) (job : Job) (j : FlowId) (f : Flow R) :
      i < S.config.workerThreadsPerQueue → s.worker i = .lookup job → s.mutex = none →
      s.mgr.flows (S.flowHash job.packet.tuple) = some j → s.mgr.heap[j]? = some f →
      FlowManager.replaces S f job.packet = false →
      Moves S s (.worker i) (s.setWorker i (.found job.packet j))
  | workerReplaces (i : Nat) (job : Job) (j : FlowId) (f : Flow R) :
      i < S.config.workerThreadsPerQueue → s.worker i = .lookup job → s.mutex = none →
      s.mgr.flows (S.flowHash job.packet.tuple) = some j → s.mgr.heap[j]? = some f →
      FlowManager.replaces S f job.packet = true →
      Moves S s (.worker i)
        ({ s with mutex := some (.worker i) }.setWorker i (.replacing job j .test))
  | workerReplaceNotifies (i : Nat) (job : Job) (j : FlowId) (f : Flow R)
      (stage stage' : NotifyStage) (m : FlowManager R) : i < S.config.workerThreadsPerQueue →
      s.worker i = .replacing job j stage → s.mgr.heap[j]? = some f →
      s.mgr.Notifies j f stage m stage' →
      Moves S s (.worker i) ({ s with mgr := m }.setWorker i (.replacing job j stage'))
  | workerReplaced (i : Nat) (job : Job) (j : FlowId) : i < S.config.workerThreadsPerQueue →
      s.worker i = .replacing job j .done →
      Moves S s (.worker i)
        ({ s with
            mgr := ((s.mgr.erase (S.flowHash job.packet.tuple)).insertFlow S (some i)
              job.packet).1
            mutex := none }.setWorker i (.found job.packet s.mgr.heap.length))
  | decremented (i : Nat) (p : IPv4Packet) (j : FlowId) (f : Flow R) :
      i < S.config.workerThreadsPerQueue → s.worker i = .found p j → s.mgr.heap[j]? = some f →
      Moves S s (.worker i)
        ({ s with mgr := s.mgr.modifyFlow j Flow.decPktsInQueue }.setWorker i
          (.applying p j f.flowClassified))
  | applies (i : Nat) (p : IPv4Packet) (j : FlowId) (c : Bool) :
      i < S.config.workerThreadsPerQueue → s.worker i = .applying p j c →
      Moves S s (.worker i)
        ({ s with
            mgr := s.mgr.modifyFlow j fun f => f.addPacket S p
            applied := s.applied ++ [(i, Job.mk p j)] }.setWorker i (.applied j c))
  | announces (i : Nat) (j : FlowId) (c : Bool) (f : Flow R) :
      i < S.config.workerThreadsPerQueue → s.worker i = .applied j c → s.mgr.heap[j]? = some f →
      (f.flowClassified != c && f.flowClassified) = true →
      Moves S s (.worker i)
        ({ s with mgr := s.mgr.tell j (.classified f) }.setWorker i (.checkFinished j))
  | announcesNothing (i : Nat) (j : FlowId) (c : Bool) (f : Flow R) :
      i < S.config.workerThreadsPerQueue → s.worker i = .applied j c → s.mgr.heap[j]? = some f →
      (f.flowClassified != c && f.flowClassified) = false →
      Moves S s (.worker i) (s.setWorker i (.checkFinished j))
  | seesFinished (i : Nat) (j : FlowId) (f : Flow R) : i < S.config.workerThreadsPerQueue →
      s.worker i = .checkFinished j → s.mgr.heap[j]? = some f → f.flowState = .finished →
      Moves S s (.worker i) (s.setWorker i (.notifying j .test))
  | seesUnfinished (i : Nat) (j : FlowId) (f : Flow R) : i < S.config.workerThreadsPerQueue →
      s.worker i = .checkFinished j → s.mgr.heap[j]? = some f → f.flowState ≠ .finished →
      Moves S s (.worker i) (s.setWorker i (.checkNotified j))
  | seesNotified (i : Nat) (j : FlowId) (f : Flow R) : i < S.config.workerThreadsPerQueue →
      s.worker i = .checkNotified j → s.mgr.heap[j]? = some f →
      f.flowState = .finishedNotified → Moves S s (.worker i) (s.setWorker i (.deleting j))
  | keeps (i : Nat) (j : FlowId) (f : Flow R) : i < S.config.workerThreadsPerQueue →
      s.worker i = .checkNotified j → s.mgr.heap[j]? = some f →
      f.flowState ≠ .finishedNotified → Moves S s (.worker i) (s.setWorker i .polling)
  | notifies (i : Nat) (j : FlowId) (f : Flow R) (stage stage' : NotifyStage)
      (m : FlowManager R) : i < S.config.workerThreadsPerQueue →
      s.worker i = .notifying j stage → s.mgr.heap[j]? = some f →
      s.mgr.Notifies j f stage m stage' →
      Moves S s (.worker i) ({ s with mgr := m }.setWorker i (.notifying j stage'))
  | notified (i : Nat) (j : FlowId) : i < S.config.workerThreadsPerQueue →
      s.worker i = .notifying j .done → Moves S s (.worker i) (s.setWorker i (.deleting j))
  | marks (i : Nat) (j : FlowId) (f : Flow R) : i < S.config.workerThreadsPerQueue →
      s.worker i = .deleting j → s.mutex = none → s.mgr.heap[j]? = some f →
      f.havePktsInQueue = true →
      Moves S s (.worker i)
        ({ s with mgr := s.mgr.modifyFlow j Flow.setFinishedAndNotified }.setWorker i .polling)
  | deletes (i : Nat) (j : FlowId) (f : Flow R) : i < S.config.workerThreadsPerQueue →
      s.worker i = .deleting j → s.mutex = none → s.mgr.heap[j]? = some f →
      f.havePktsInQueue = false →
      Moves S s (.worker i) ({ s with mgr := s.mgr.erase f.hash }.setWorker i .polling)

section Inversion

variable {S : Setup R} {s s' : State R}

theorem look_cases (hs : Sound S s) (self : Option Nat) (p : IPv4Packet) :
    (s.mgr.flows (S.flowHash p.tuple) = none ∧
      s.mgr.look S self p = .found (s.mgr.insertFlow S self p).1 s.mgr.heap.length) ∨
    ∃ i f, s.mgr.flows (S.flowHash p.tuple) = some i ∧ s.mgr.heap[i]? = some f ∧
      ((FlowManager.replaces S f p = false ∧ s.mgr.look S self p = .found s.mgr i) ∨
        (FlowManager.replaces S f p = true ∧ s.mgr.look S self p = .replace i)) := by
  unfold FlowManager.look
  cases hi : s.mgr.flows (S.flowHash p.tuple) with
  | none =>
    refine Or.inl ⟨rfl, ?_⟩
    simp only [FlowManager.insertFlow_snd]
  | some i =>
    obtain ⟨f, hf, -⟩ := FlowManager.exists_of_hashAt (hs.indexed.valid _ i hi)
    refine Or.inr ⟨i, f, rfl, hf, ?_⟩
    simp only [hf]
    cases hrep : FlowManager.replaces S f p with
    | false => exact Or.inl ⟨rfl, rfl⟩
    | true => exact Or.inr ⟨rfl, rfl⟩

omit [Double R] in
theorem queueAt_of_hashAt (hs : Sound S s) {i : FlowId} {h : UInt32}
    (hi : s.mgr.hashAt i = some h) :
    ∃ q : Nat, s.mgr.queueAt i = some (q : Int) ∧ s.mgr.queueOf i = q ∧
      q < S.config.workerThreadsPerQueue := by
  obtain ⟨f, hf, -⟩ := FlowManager.exists_of_hashAt hi
  obtain ⟨hnonneg, hlt⟩ := hs.queueIds i f hf
  refine ⟨f.threadQueueId.toNat, ?_, ?_, by omega⟩
  · rw [FlowManager.queueAt, hf, Option.map_some, Int.toNat_of_nonneg hnonneg]
  · rw [FlowManager.queueOf, hf]

omit [Double R] in
/-- In a sound state every flow has a queue already. -/
theorem assignQueue_eq (hids : QueueIds S s.mgr) (i : FlowId) :
    (s.mgr.modifyFlow i Flow.incPktsInQueue).assignQueue S i =
      s.mgr.modifyFlow i Flow.incPktsInQueue := by
  unfold FlowManager.assignQueue
  rw [FlowManager.modifyFlow_heap, if_pos rfl]
  cases hf : s.mgr.heap[i]? with
  | none => rfl
  | some f =>
    have hnonneg := (hids i f hf).1
    have hne : f.incPktsInQueue.threadQueueId ≠ -1 := by
      intro heq
      have : f.threadQueueId = -1 := heq
      omega
    simp only [Option.map_some, if_neg hne]

omit [Double R] in
theorem tableEmpty_iff (hm : s.mgr.Indexed S) :
    s.mgr.tableEmpty = true ↔ ∀ h, s.mgr.flows h = none := by
  unfold FlowManager.tableEmpty
  rw [List.all_eq_true]
  refine ⟨fun hall h => ?_, fun hnone i _ => ?_⟩
  · cases hi : s.mgr.flows h with
    | none => rfl
    | some i =>
      have hhash := hm.valid h i hi
      obtain ⟨f, hf, hkey⟩ := FlowManager.exists_of_hashAt hhash
      have hentry := hall i (List.mem_range.mpr (FlowManager.lt_length_of_hashAt hhash))
      simp only [hf, hkey, hi, bne_self_eq_false, Bool.false_eq_true] at hentry
  · cases s.mgr.heap[i]? with
    | none => rfl
    | some f =>
      simp only [hnone, bne_iff_ne, ne_eq, reduceCtorEq, not_false_eq_true]

/-- What a producer step can be. -/
theorem moves_of_producerStep (hs : Sound S s) (h : s.producerStep S = some s') :
    Moves S s .producer s' := by
  have hpc := hs.producer
  unfold producerStep at h
  cases hp : s.producer with
  | idle => simp only [hp, reduceCtorEq] at h
  | lookup p =>
    simp only [hp] at h
    split at h
    next => cases h
    next hmutex =>
      have hfree : s.mutex = none := Option.not_isSome_iff_eq_none.mp hmutex
      rcases look_cases hs none p with ⟨hnone, hlook⟩ | ⟨i, f, hi, hf, ⟨hrep, hlook⟩ | ⟨hrep, hlook⟩⟩
      · simp only [hlook] at h
        cases h
        exact .created p hp hfree hnone
      · simp only [hlook] at h
        cases h
        exact .reused p i f hp hfree hi hf hrep
      · simp only [hlook] at h
        cases h
        exact .replaces p i f hp hfree hi hf hrep
  | replacing p i stage =>
    rw [hp] at hpc
    by_cases hdone : stage = .done
    · subst hdone
      simp only [hp] at h
      cases h
      rw [show ((s.mgr.erase (S.flowHash p.tuple)).insertFlow S none p).2 = s.mgr.heap.length by
        rw [FlowManager.insertFlow_snd, FlowManager.erase_heap]]
      exact .replaced p i hp
    · obtain ⟨f, hf, -⟩ := FlowManager.exists_of_hashAt (hs.indexed.valid _ i hpc)
      have hmove : Moves S s .producer _ := .replaceNotifies p i f stage _ _ hp hf
        (FlowManager.notifies_notifyStep hf hdone)
      cases stage <;> simp only [hp] at h <;> first | exact absurd rfl hdone | (cases h; exact hmove)
  | found p i =>
    simp only [hp] at h
    cases h
    rw [assignQueue_eq hs.queueIds]
    exact .counted p i hp
  | pushing p i =>
    rw [hp] at hpc
    obtain ⟨q, hq, hqueue, -⟩ := queueAt_of_hashAt hs hpc
    simp only [hp, hqueue] at h
    split at h
    next hroom =>
      cases h
      exact .pushed p i q hp hq hroom
    next hroom =>
      cases h
      exact .full p i q hp hq (Nat.le_of_not_lt hroom)
  | undo i =>
    simp only [hp] at h
    cases h
    exact .undone i hp
  | draining k =>
    simp only [hp] at h
    split at h
    next hk =>
      split at h
      next hempty =>
        cases h
        exact .drained k hp hk hempty
      next => cases h
    next hk =>
      split at h
      next => cases h
      next hmutex =>
        cases h
        exact .locked k hp (Nat.le_of_not_lt hk) (Option.not_isSome_iff_eq_none.mp hmutex)
  | sweeping =>
    simp only [hp] at h
    split at h
    next hempty =>
      cases h
      exact .returned hp ((tableEmpty_iff hs.indexed).mp hempty)
    next => cases h
  | spinning k i =>
    simp only [hp] at h
    split at h
    next => cases h
    next f hf =>
      split at h
      next => cases h
      next hbusy =>
        cases h
        exact .waited k i f hp hf (Bool.not_eq_true _ ▸ hbusy)
  | sweepNotify k i stage =>
    rw [hp] at hpc
    by_cases hdone : stage = .done
    · subst hdone
      simp only [hp] at h
      cases h
      exact .swept k i hp
    · obtain ⟨f, hf, -⟩ := FlowManager.exists_of_hashAt (hs.indexed.valid _ i hpc)
      have hmove : Moves S s .producer _ := .sweepNotifies k i f stage _ _ hp hf
        (FlowManager.notifies_notifyStep hf hdone)
      cases stage <;> simp only [hp] at h <;> first | exact absurd rfl hdone | (cases h; exact hmove)

/-- What a worker step can be. -/
theorem moves_of_workerStep (hs : Sound S s) {i : Nat} (hi : i < S.config.workerThreadsPerQueue)
    (h : s.workerStep S i = some s') : Moves S s (.worker i) s' := by
  have hpc := hs.workers i
  have hheap : ∀ j, (∃ k, s.mgr.hashAt j = some k) → ∃ f, s.mgr.heap[j]? = some f := by
    rintro j ⟨k, hk⟩
    obtain ⟨f, hf, -⟩ := FlowManager.exists_of_hashAt hk
    exact ⟨f, hf⟩
  unfold workerStep at h
  cases hw : s.worker i with
  | exited => simp only [hw, reduceCtorEq] at h
  | polling =>
    simp only [hw] at h
    split at h
    next hdown =>
      cases h
      exact .exits i hi hw hdown
    next hup =>
      split at h
      next => cases h
      next job rest hq =>
        cases h
        exact .popped i job rest hi hw (Bool.not_eq_true _ ▸ hup) hq
  | lookup job =>
    simp only [hw] at h
    split at h
    next => cases h
    next hmutex =>
      have hfree : s.mutex = none := Option.not_isSome_iff_eq_none.mp hmutex
      rcases look_cases hs (some i) job.packet with
        ⟨hnone, hlook⟩ | ⟨j, f, hj, hf, ⟨hrep, hlook⟩ | ⟨hrep, hlook⟩⟩
      · simp only [hlook] at h
        cases h
        exact .workerCreated i job hi hw hfree hnone
      · simp only [hlook] at h
        cases h
        exact .workerReused i job j f hi hw hfree hj hf hrep
      · simp only [hlook] at h
        cases h
        exact .workerReplaces i job j f hi hw hfree hj hf hrep
  | replacing job j stage =>
    rw [hw] at hpc
    by_cases hdone : stage = .done
    · subst hdone
      simp only [hw] at h
      cases h
      rw [show ((s.mgr.erase (S.flowHash job.packet.tuple)).insertFlow S (some i) job.packet).2 =
        s.mgr.heap.length by rw [FlowManager.insertFlow_snd, FlowManager.erase_heap]]
      exact .workerReplaced i job j hi hw
    · obtain ⟨f, hf, -⟩ := FlowManager.exists_of_hashAt (hs.indexed.valid _ j hpc.2)
      have hmove : Moves S s (.worker i) _ := .workerReplaceNotifies i job j f stage _ _ hi hw hf
        (FlowManager.notifies_notifyStep hf hdone)
      cases stage <;> simp only [hw] at h <;> first | exact absurd rfl hdone | (cases h; exact hmove)
  | found p j =>
    rw [hw] at hpc
    obtain ⟨f, hf⟩ := hheap j ⟨_, hpc⟩
    simp only [hw, hf] at h
    cases h
    exact .decremented i p j f hi hw hf
  | applying p j c =>
    simp only [hw] at h
    cases h
    exact .applies i p j c hi hw
  | applied j c =>
    rw [hw] at hpc
    obtain ⟨f, hf⟩ := hheap j hpc
    simp only [hw, hf] at h
    split at h
    next hnew =>
      cases h
      rw [FlowManager.notifyFlowClassified_eq hf]
      exact .announces i j c f hi hw hf hnew
    next hold =>
      cases h
      exact .announcesNothing i j c f hi hw hf (Bool.not_eq_true _ ▸ hold)
  | checkFinished j =>
    rw [hw] at hpc
    obtain ⟨f, hf⟩ := hheap j hpc
    simp only [hw, hf] at h
    split at h
    next hfin =>
      cases h
      exact .seesFinished i j f hi hw hf hfin
    next hfin =>
      cases h
      exact .seesUnfinished i j f hi hw hf hfin
  | checkNotified j =>
    rw [hw] at hpc
    obtain ⟨f, hf⟩ := hheap j hpc
    simp only [hw, hf] at h
    split at h
    next hnot =>
      cases h
      exact .seesNotified i j f hi hw hf hnot
    next hnot =>
      cases h
      exact .keeps i j f hi hw hf hnot
  | notifying j stage =>
    rw [hw] at hpc
    by_cases hdone : stage = .done
    · subst hdone
      simp only [hw] at h
      cases h
      exact .notified i j hi hw
    · obtain ⟨f, hf⟩ := hheap j hpc
      have hmove : Moves S s (.worker i) _ := .notifies i j f stage _ _ hi hw hf
        (FlowManager.notifies_notifyStep hf hdone)
      cases stage <;> simp only [hw] at h <;> first | exact absurd rfl hdone | (cases h; exact hmove)
  | deleting j =>
    rw [hw] at hpc
    obtain ⟨f, hf⟩ := hheap j hpc
    simp only [hw] at h
    split at h
    next => cases h
    next hmutex =>
      have hfree : s.mutex = none := Option.not_isSome_iff_eq_none.mp hmutex
      cases h
      unfold FlowManager.deleteFlow
      simp only [hf]
      split
      next hbusy => exact .marks i j f hi hw hfree hf hbusy
      next hbusy => exact .deletes i j f hi hw hfree hf (Bool.not_eq_true _ ▸ hbusy)

/-- **The inversion of `step`.** -/
theorem moves_of_step (hs : Sound S s) {a : Action} (h : step S s a = some s') :
    Moves S s a s' := by
  unfold step at h
  cases a with
  | addPacket p =>
    cases hp : s.producer with
    | idle =>
      simp only [hp] at h
      split at h
      next hdown =>
        cases h
        exact .refused p hp hdown
      next hup =>
        cases h
        exact .called p hp (Bool.not_eq_true _ ▸ hup)
    | _ => simp only [hp, reduceCtorEq] at h
  | finished =>
    cases hp : s.producer with
    | idle =>
      simp only [hp] at h
      cases h
      exact .finishing hp
    | _ => simp only [hp, reduceCtorEq] at h
  | pick k =>
    cases hp : s.producer with
    | sweeping =>
      cases hk : s.mgr.flows k with
      | none => simp only [hp, hk, reduceCtorEq] at h
      | some i =>
        simp only [hp, hk] at h
        cases h
        exact .picked k i hp hk
    | _ => simp only [hp, reduceCtorEq] at h
  | producer => exact moves_of_producerStep hs h
  | worker i =>
    simp only at h
    split at h
    next hi => exact moves_of_workerStep hs hi h
    next => cases h
  | shutdown =>
    cases h
    exact .shutdown

end Inversion

/-! ## Soundness is preserved -/

section Preservation

variable {S : Setup R} {s s' : State R}

omit [Double R] in
/-- The producer makes a move: what has to be shown is about the manager, the queues, its own
program counter and the mutex. -/
theorem Sound.producerMoves (hs : Sound S s) (hindexed : s'.mgr.Indexed S)
    (hids : QueueIds S s'.mgr) (hext : s.mgr.Extends s'.mgr)
    (hstable : s'.mgr.flows = s.mgr.flows ∨ s.mutex = none ∨ s.mutex = some .producer)
    (hjobs : ∀ q, ∀ job ∈ s'.queues q, job ∈ s.queues q ∨
      s.mgr.hashAt job.flow = some (S.flowHash job.packet.tuple))
    (hworker : s'.worker = s.worker) (hpc : s'.producer.Sound S s'.mgr)
    (hown : s'.producer.locks = true ↔ s'.mutex = some .producer)
    (hothers : ∀ i, s'.mutex = some (.worker i) ↔ s.mutex = some (.worker i)) : Sound S s' where
  indexed := hindexed
  queueIds := hids
  jobs q job hjob := by
    rcases hjobs q job hjob with hold | hnew
    · exact hext.hashAt _ _ (hs.jobs q job hold)
    · exact hext.hashAt _ _ hnew
  producer := hpc
  workers i := by
    rw [hworker]
    refine (hs.workers i).mono hext fun hlocks => ?_
    have hheld := (hs.workerLocks i).mp hlocks
    rcases hstable with hsame | hfree | hheld'
    · exact hsame
    · rw [hheld] at hfree
      cases hfree
    · rw [hheld] at hheld'
      cases hheld'
  producerLocks := hown
  workerLocks i := by rw [hworker, hs.workerLocks i, hothers i]

omit [Double R] in
/-- … that is nothing to the flows, the queues and the workers. -/
theorem Sound.producerGoes (hs : Sound S s) (hmgr : s'.mgr = s.mgr) (hqueues : s'.queues = s.queues)
    (hworker : s'.worker = s.worker) (hpc : s'.producer.Sound S s.mgr)
    (hown : s'.producer.locks = true ↔ s'.mutex = some .producer)
    (hothers : ∀ i, s'.mutex = some (.worker i) ↔ s.mutex = some (.worker i)) : Sound S s' := by
  refine hs.producerMoves ?_ ?_ ?_ (Or.inl (congrArg _ hmgr)) (fun q job h => Or.inl ?_) hworker ?_
    hown hothers
  · rw [hmgr]
    exact hs.indexed
  · rw [hmgr]
    exact hs.queueIds
  · rw [hmgr]
    exact FlowManager.Extends.refl s.mgr
  · rwa [hqueues] at h
  · rw [hmgr]
    exact hpc

omit [Double R] in
/-- A worker makes a move. -/
theorem Sound.workerMoves (hs : Sound S s) {i : Nat} {pc : WorkerPc}
    (hindexed : s'.mgr.Indexed S) (hids : QueueIds S s'.mgr) (hext : s.mgr.Extends s'.mgr)
    (hstable : s'.mgr.flows = s.mgr.flows ∨ s.mutex = none ∨ s.mutex = some (.worker i))
    (hjobs : ∀ q, ∀ job ∈ s'.queues q, job ∈ s.queues q)
    (hproducer : s'.producer = s.producer) (hworker : s'.worker = Function.update s.worker i pc)
    (hpc : pc.Sound S s'.mgr) (hown : pc.locks = true ↔ s'.mutex = some (.worker i))
    (hothers : ∀ t, t ≠ .worker i → (s'.mutex = some t ↔ s.mutex = some t)) : Sound S s' where
  indexed := hindexed
  queueIds := hids
  jobs q job hjob := hext.hashAt _ _ (hs.jobs q job (hjobs q job hjob))
  producer := by
    rw [hproducer]
    refine hs.producer.mono hext fun hlocks => ?_
    have hheld := hs.producerLocks.mp hlocks
    rcases hstable with hsame | hfree | hheld'
    · exact hsame
    · rw [hheld] at hfree
      cases hfree
    · rw [hheld] at hheld'
      cases hheld'
  workers k := by
    rw [hworker]
    by_cases hk : k = i
    · rw [hk, Function.update_self]
      exact hpc
    · rw [Function.update_of_ne hk]
      refine (hs.workers k).mono hext fun hlocks => ?_
      have hheld := (hs.workerLocks k).mp hlocks
      rcases hstable with hsame | hfree | hheld'
      · exact hsame
      · rw [hheld] at hfree
        cases hfree
      · rw [hheld] at hheld'
        exact absurd (Thread.worker.inj (Option.some.inj hheld')) hk
  producerLocks := by
    rw [hproducer, hs.producerLocks, hothers _ Thread.noConfusion]
  workerLocks k := by
    rw [hworker]
    by_cases hk : k = i
    · rw [hk, Function.update_self]
      exact hown
    · rw [Function.update_of_ne hk, hs.workerLocks k]
      exact (hothers _ fun heq => hk (Thread.worker.inj heq)).symm

omit [Double R] in
theorem Sound.producer_free (hs : Sound S s) (h : s.producer.locks = false) :
    false = true ↔ s.mutex = some .producer := by
  rw [← hs.producerLocks, h]

omit [Double R] in
theorem Sound.producer_held (hs : Sound S s) (h : s.producer.locks = true) :
    true = true ↔ s.mutex = some .producer := by
  rw [← hs.producerLocks, h]

omit [Double R] in
theorem Sound.worker_free (hs : Sound S s) {i : Nat} (h : (s.worker i).locks = false) :
    false = true ↔ s.mutex = some (.worker i) := by
  rw [← hs.workerLocks i, h]

omit [Double R] in
theorem queueIds_modifyFlow {m : FlowManager R} (h : QueueIds S m) (i : FlowId)
    {g : Flow R → Flow R} (hg : ∀ f, (g f).threadQueueId = f.threadQueueId) :
    QueueIds S (m.modifyFlow i g) :=
  FlowManager.Every.modifyFlow h i fun f _ hf => by rw [hg f]; exact hf

theorem queueIds_insertFlow {m : FlowManager R} (h : QueueIds S m) {self : Option Nat}
    (hn : 0 < S.config.workerThreadsPerQueue)
    (hself : ∀ w, self = some w → w < S.config.workerThreadsPerQueue) (p : IPv4Packet) :
    QueueIds S (m.insertFlow S self p).1 := by
  refine FlowManager.Every.insertFlow h self p ?_
  have hqueue : (m.newFlow S self p).threadQueueId = m.newQueueId S self := rfl
  rw [hqueue]
  unfold FlowManager.newQueueId
  rw [if_pos hn]
  cases self with
  | some w =>
    have hw := hself w rfl
    simp only
    omega
  | none =>
    simp only [FlowManager.nextQueue]
    split <;> omega

omit [Double R] in
/-- The notifications of a thread that holds the mutex, or works outside of it. -/
theorem sound_notifies_producer (hs : Sound S s) {i : FlowId} {f : Flow R}
    {stage stage' : NotifyStage} {m : FlowManager R} (hf : s.mgr.heap[i]? = some f)
    (hn : s.mgr.Notifies i f stage m stage') (pc : ProducerPc) (hpc : pc.Sound S s.mgr)
    (hlocks : pc.locks = s.producer.locks) : Sound S { s with mgr := m, producer := pc } := by
  refine hs.producerMoves (hn.indexed hf hs.indexed) (hn.every hs.queueIds fun _ h => h)
    hn.extends (Or.inl hn.flows) (fun q job h => Or.inl h) rfl
    (hpc.mono hn.extends fun _ => hn.flows) ?_ fun _ => Iff.rfl
  simp only [hlocks]
  exact hs.producerLocks

omit [Double R] in
theorem sound_notifies_worker (hs : Sound S s) {i : Nat} {j : FlowId} {f : Flow R}
    {stage stage' : NotifyStage} {m : FlowManager R} (hf : s.mgr.heap[j]? = some f)
    (hn : s.mgr.Notifies j f stage m stage') (pc : WorkerPc) (hpc : pc.Sound S s.mgr)
    (hlocks : pc.locks = (s.worker i).locks) : Sound S ({ s with mgr := m }.setWorker i pc) := by
  refine hs.workerMoves (hn.indexed hf hs.indexed) (hn.every hs.queueIds fun _ h => h)
    hn.extends (Or.inl hn.flows) (fun q job h => h) rfl rfl
    (hpc.mono hn.extends fun _ => hn.flows) ?_ fun _ _ => Iff.rfl
  rw [hlocks]
  exact hs.workerLocks i

omit [Double R] in
/-- A worker goes on without touching the manager. -/
theorem sound_setWorker (hs : Sound S s) {i : Nat} (pc : WorkerPc) (hpc : pc.Sound S s.mgr)
    (hlocks : pc.locks = (s.worker i).locks) : Sound S (s.setWorker i pc) := by
  refine hs.workerMoves hs.indexed hs.queueIds (FlowManager.Extends.refl _) (Or.inl rfl)
    (fun q job h => h) rfl rfl hpc ?_ fun _ _ => Iff.rfl
  rw [hlocks]
  exact hs.workerLocks i

omit [Double R] in
/-- A worker changes one flow. -/
theorem sound_modifyFlow_worker (hs : Sound S s) {i : Nat} {j : FlowId} {g : Flow R → Flow R}
    (hhash : ∀ f, (g f).hash = f.hash)
    (htuple : ∀ f, (g f).firstPacketTuple = f.firstPacketTuple)
    (hqueue : ∀ f, (g f).threadQueueId = f.threadQueueId) (pc : WorkerPc)
    (hpc : pc.Sound S s.mgr) (hlocks : pc.locks = (s.worker i).locks)
    (applied : List (Nat × Job)) :
    Sound S ({ s with mgr := s.mgr.modifyFlow j g, applied := applied }.setWorker i pc) := by
  have hext := FlowManager.extends_modifyFlow s.mgr j hhash hqueue
  refine hs.workerMoves (hs.indexed.modifyFlow j hhash htuple)
    (queueIds_modifyFlow hs.queueIds j hqueue) hext (Or.inl rfl) (fun q job h => h) rfl rfl
    (hpc.mono hext fun _ => rfl) ?_ fun _ _ => Iff.rfl
  rw [hlocks]
  exact hs.workerLocks i

/-- **Soundness is preserved by every step.** -/
theorem sound_moves (hn : 0 < S.config.workerThreadsPerQueue) (hs : Sound S s) {a : Action}
    (h : Moves S s a s') : Sound S s' := by
  have hrefl := FlowManager.Extends.refl s.mgr
  cases h with
  | refused p hp hdown => exact hs
  | called p hp hup =>
    exact hs.producerGoes rfl rfl rfl trivial (hs.producer_free (by rw [hp]; rfl)) fun _ => Iff.rfl
  | finishing hp =>
    exact hs.producerGoes rfl rfl rfl trivial (hs.producer_free (by rw [hp]; rfl)) fun _ => Iff.rfl
  | shutdown =>
    have hindexed : FlowManager.Indexed S { s.mgr with shutdown := true } :=
      ⟨hs.indexed.keyed, hs.indexed.valid, hs.indexed.newest, hs.indexed.told⟩
    have hext : s.mgr.Extends { s.mgr with shutdown := true } := FlowManager.extends_of_heap rfl
    exact hs.producerMoves hindexed hs.queueIds hext (Or.inl rfl) (fun q job h => Or.inl h) rfl
      (hs.producer.mono hext fun _ => rfl) hs.producerLocks fun _ => Iff.rfl
  | created p hp hfree hnone =>
    refine hs.producerMoves (hs.indexed.insertFlow none p)
      (queueIds_insertFlow hs.queueIds hn (fun _ h => by cases h) p)
      (FlowManager.extends_insertFlow S none s.mgr p) (Or.inr (Or.inl hfree))
      (fun q job h => Or.inl h) rfl ?_ (hs.producer_free (by rw [hp]; rfl)) fun _ => Iff.rfl
    exact (FlowManager.insertFlow_hashAt S none s.mgr p _).trans (if_pos rfl)
  | reused p i f hp hfree hi hf hrep =>
    exact hs.producerGoes rfl rfl rfl (hs.indexed.valid _ i hi)
      (hs.producer_free (by rw [hp]; rfl)) fun _ => Iff.rfl
  | replaces p i f hp hfree hi hf hrep =>
    refine hs.producerGoes rfl rfl rfl hi ⟨fun _ => rfl, fun _ => rfl⟩ fun k => ?_
    simp only [hfree, reduceCtorEq, Option.some.injEq]
  | replaceNotifies p i f stage stage' m hp hf hnot =>
    have hpc := hs.producer
    rw [hp] at hpc
    exact sound_notifies_producer hs hf hnot (.replacing p i stage') hpc (by rw [hp]; rfl)
  | replaced p i hp =>
    have hheld : s.mutex = some .producer := hs.producerLocks.mp (by rw [hp]; rfl)
    refine hs.producerMoves ((hs.indexed.erase _).insertFlow none p)
      (queueIds_insertFlow (FlowManager.Every.erase hs.queueIds _) hn (fun _ h => by cases h) p)
      ((FlowManager.extends_erase _ _).trans (FlowManager.extends_insertFlow S none _ p))
      (Or.inr (Or.inr hheld)) (fun q job h => Or.inl h) rfl ?_
      ⟨fun h => (by cases h), fun h => (by cases h)⟩ fun k => ?_
    · refine (FlowManager.insertFlow_hashAt S none _ p _).trans (if_pos ?_)
      rw [FlowManager.erase_heap]
    · simp only [hheld, reduceCtorEq, Option.some.injEq]
  | counted p i hp =>
    have hpc := hs.producer
    rw [hp] at hpc
    have hext := FlowManager.extends_modifyFlow s.mgr i (g := Flow.incPktsInQueue) (fun _ => rfl)
      fun _ => rfl
    exact hs.producerMoves (hs.indexed.modifyFlow i (fun _ => rfl) fun _ => rfl)
      (queueIds_modifyFlow hs.queueIds i fun _ => rfl) hext (Or.inl rfl)
      (fun q job h => Or.inl h) rfl (hext.hashAt _ _ hpc) (hs.producer_free (by rw [hp]; rfl))
      fun _ => Iff.rfl
  | pushed p i q hp hq hroom =>
    have hpc := hs.producer
    rw [hp] at hpc
    refine hs.producerMoves hs.indexed hs.queueIds hrefl (Or.inl rfl) (fun k job hjob => ?_) rfl
      trivial (hs.producer_free (by rw [hp]; rfl)) fun _ => Iff.rfl
    by_cases hk : k = q
    · subst hk
      simp only [Function.update_self, List.mem_append, List.mem_singleton] at hjob
      rcases hjob with hold | rfl
      · exact Or.inl hold
      · exact Or.inr hpc
    · simp only [Function.update_of_ne hk] at hjob
      exact Or.inl hjob
  | full p i q hp hq hroom =>
    have hpc := hs.producer
    rw [hp] at hpc
    exact hs.producerGoes rfl rfl rfl ⟨_, hpc⟩ (hs.producer_free (by rw [hp]; rfl)) fun _ => Iff.rfl
  | undone i hp =>
    exact hs.producerMoves (hs.indexed.modifyFlow i (fun _ => rfl) fun _ => rfl)
      (queueIds_modifyFlow hs.queueIds i fun _ => rfl)
      (FlowManager.extends_modifyFlow s.mgr i (fun _ => rfl) fun _ => rfl) (Or.inl rfl)
      (fun q job h => Or.inl h) rfl trivial (hs.producer_free (by rw [hp]; rfl)) fun _ => Iff.rfl
  | drained k hp hk hempty =>
    exact hs.producerGoes rfl rfl rfl trivial (hs.producer_free (by rw [hp]; rfl)) fun _ => Iff.rfl
  | locked k hp hk hfree =>
    refine hs.producerGoes rfl rfl rfl trivial ⟨fun _ => rfl, fun _ => rfl⟩ fun i => ?_
    simp only [hfree, reduceCtorEq, Option.some.injEq]
  | picked k i hp hk =>
    exact hs.producerGoes rfl rfl rfl hk (hs.producer_held (by rw [hp]; rfl)) fun _ => Iff.rfl
  | waited k i f hp hf hidle =>
    have hpc := hs.producer
    rw [hp] at hpc
    exact hs.producerGoes rfl rfl rfl hpc (hs.producer_held (by rw [hp]; rfl)) fun _ => Iff.rfl
  | sweepNotifies k i f stage stage' m hp hf hnot =>
    have hpc := hs.producer
    rw [hp] at hpc
    exact sound_notifies_producer hs hf hnot (.sweepNotify k i stage') hpc (by rw [hp]; rfl)
  | swept k i hp =>
    have hlocks : s.producer.locks = true := by rw [hp]; rfl
    exact hs.producerMoves (hs.indexed.erase k) (FlowManager.Every.erase hs.queueIds k)
      (FlowManager.extends_erase s.mgr k) (Or.inr (Or.inr (hs.producerLocks.mp hlocks)))
      (fun q job h => Or.inl h) rfl trivial (hs.producer_held hlocks) fun _ => Iff.rfl
  | returned hp hempty =>
    have hheld : s.mutex = some .producer := hs.producerLocks.mp (by rw [hp]; rfl)
    refine hs.producerGoes rfl rfl rfl trivial
      ⟨fun h => (by cases h), fun h => (by cases h)⟩ fun i => ?_
    simp only [hheld, reduceCtorEq, Option.some.injEq]
  | exits i hi hw hdown => exact sound_setWorker hs _ trivial (by rw [hw]; rfl)
  | popped i job rest hi hw hup hq =>
    have hmem : job ∈ s.queues i := by
      rw [hq]
      exact List.mem_cons_self
    refine hs.workerMoves hs.indexed hs.queueIds hrefl (Or.inl rfl) (fun k job' hjob => ?_) rfl rfl
      (hs.jobs i job hmem) (hs.worker_free (by rw [hw]; rfl)) fun _ _ => Iff.rfl
    by_cases hk : k = i
    · subst hk
      simp only [setWorker, Function.update_self] at hjob
      rw [hq]
      exact List.mem_cons_of_mem _ hjob
    · simp only [setWorker, Function.update_of_ne hk] at hjob
      exact hjob
  | workerCreated i job hi hw hfree hnone =>
    refine hs.workerMoves (hs.indexed.insertFlow (some i) job.packet)
      (queueIds_insertFlow hs.queueIds hn (fun w h => by cases h; exact hi) job.packet)
      (FlowManager.extends_insertFlow S (some i) s.mgr job.packet) (Or.inr (Or.inl hfree))
      (fun q job h => h) rfl rfl ?_ (hs.worker_free (by rw [hw]; rfl)) fun _ _ => Iff.rfl
    exact (FlowManager.insertFlow_hashAt S (some i) s.mgr job.packet _).trans (if_pos rfl)
  | workerReused i job j f hi hw hfree hj hf hrep =>
    exact sound_setWorker hs _ (hs.indexed.valid _ j hj) (by rw [hw]; rfl)
  | workerReplaces i job j f hi hw hfree hj hf hrep =>
    have hpc := hs.workers i
    rw [hw] at hpc
    refine hs.workerMoves hs.indexed hs.queueIds hrefl (Or.inl rfl) (fun q job h => h) rfl rfl
      ⟨hpc, hj⟩ ⟨fun _ => rfl, fun _ => rfl⟩ fun t ht => ?_
    simp only [setWorker, hfree, reduceCtorEq, Option.some.injEq, iff_false]
    exact Ne.symm ht
  | workerReplaceNotifies i job j f stage stage' m hi hw hf hnot =>
    have hpc := hs.workers i
    rw [hw] at hpc
    exact sound_notifies_worker hs hf hnot (.replacing job j stage') hpc (by rw [hw]; rfl)
  | workerReplaced i job j hi hw =>
    have hheld : s.mutex = some (.worker i) := (hs.workerLocks i).mp (by rw [hw]; rfl)
    refine hs.workerMoves ((hs.indexed.erase _).insertFlow (some i) job.packet)
      (queueIds_insertFlow (FlowManager.Every.erase hs.queueIds _) hn
        (fun w h => by cases h; exact hi) job.packet)
      ((FlowManager.extends_erase _ _).trans (FlowManager.extends_insertFlow S (some i) _ _))
      (Or.inr (Or.inr hheld)) (fun q job h => h) rfl rfl ?_
      ⟨fun h => (by cases h), fun h => (by cases h)⟩ fun t ht => ?_
    · refine (FlowManager.insertFlow_hashAt S (some i) _ job.packet _).trans (if_pos ?_)
      rw [FlowManager.erase_heap]
    · simp only [setWorker, hheld, reduceCtorEq, Option.some.injEq, false_iff]
      exact Ne.symm ht
  | decremented i p j f hi hw hf =>
    have hpc := hs.workers i
    rw [hw] at hpc
    exact sound_modifyFlow_worker hs (g := Flow.decPktsInQueue) (fun _ => rfl) (fun _ => rfl)
      (fun _ => rfl) (.applying p j f.flowClassified) hpc (by rw [hw]; rfl) s.applied
  | applies i p j c hi hw =>
    have hpc := hs.workers i
    rw [hw] at hpc
    exact sound_modifyFlow_worker hs (fun f => f.addPacket_hash S p)
      (fun f => f.addPacket_firstPacketTuple S p) (fun f => f.addPacket_threadQueueId S p)
      (.applied j c) ⟨_, hpc⟩ (by rw [hw]; rfl) _
  | announces i j c f hi hw hf hnew =>
    have hpc := hs.workers i
    rw [hw] at hpc
    have hext : s.mgr.Extends (s.mgr.tell j (.classified f)) := FlowManager.extends_of_heap rfl
    have hpc' : WorkerPc.Sound S (s.mgr.tell j (.classified f)) (.checkFinished j) :=
      WorkerPc.Sound.mono (S := S) hpc hext fun _ => rfl
    refine hs.workerMoves (hs.indexed.tell (List.getElem?_eq_some_iff.mp hf).1 _) hs.queueIds hext
      (Or.inl rfl) (fun q job h => h) rfl rfl hpc' (hs.worker_free (by rw [hw]; rfl))
      fun _ _ => Iff.rfl
  | announcesNothing i j c f hi hw hf hold =>
    have hpc := hs.workers i
    rw [hw] at hpc
    exact sound_setWorker hs (.checkFinished j) hpc (by rw [hw]; rfl)
  | seesFinished i j f hi hw hf hstate =>
    have hpc := hs.workers i
    rw [hw] at hpc
    exact sound_setWorker hs (.notifying j .test) hpc (by rw [hw]; rfl)
  | seesUnfinished i j f hi hw hf hstate =>
    have hpc := hs.workers i
    rw [hw] at hpc
    exact sound_setWorker hs (.checkNotified j) hpc (by rw [hw]; rfl)
  | seesNotified i j f hi hw hf hstate =>
    have hpc := hs.workers i
    rw [hw] at hpc
    exact sound_setWorker hs (.deleting j) hpc (by rw [hw]; rfl)
  | keeps i j f hi hw hf hstate =>
    exact sound_setWorker hs _ trivial (by rw [hw]; rfl)
  | notifies i j f stage stage' m hi hw hf hnot =>
    have hpc := hs.workers i
    rw [hw] at hpc
    exact sound_notifies_worker hs hf hnot (.notifying j stage') hpc (by rw [hw]; rfl)
  | notified i j hi hw =>
    have hpc := hs.workers i
    rw [hw] at hpc
    exact sound_setWorker hs (.deleting j) hpc (by rw [hw]; rfl)
  | marks i j f hi hw hfree hf hbusy =>
    exact sound_modifyFlow_worker hs (g := Flow.setFinishedAndNotified) (fun _ => rfl)
      (fun _ => rfl) (fun _ => rfl) .polling trivial (by rw [hw]; rfl) s.applied
  | deletes i j f hi hw hfree hf hidle =>
    exact hs.workerMoves (hs.indexed.erase _) (FlowManager.Every.erase hs.queueIds _)
      (FlowManager.extends_erase s.mgr _) (Or.inr (Or.inl hfree)) (fun q job h => h) rfl rfl trivial
      (hs.worker_free (by rw [hw]; rfl)) fun _ _ => Iff.rfl

end Preservation

/-- Every reachable state is sound. -/
theorem sound_of_run {S : Setup R} (hn : 0 < S.config.workerThreadsPerQueue)
    {ok : State R → Action → Prop} {s : State R} (h : Run (step S) ok State.init s) : Sound S s :=
  h.invariant (sound_init S) fun _ _ _ hs _ hstep => sound_moves hn hs (moves_of_step hs hstep)

end State

end Vsid
