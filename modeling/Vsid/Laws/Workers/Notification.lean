import Vsid.Laws.Workers.Order

/-!
# How often the observers hear of the end of a flow

`notifyFlowFinished` tests the state, calls the observers and marks the flow, in three steps. In an
orderly run no two threads go through them for one flow, and so `reported_at_most_once`.
`reported_twice` has the producer and a worker see the same unmarked flow.
-/

set_option autoImplicit false

namespace Vsid

variable {R : Type}

/-- The flow that the producer is notifying about, and how far it has come. -/
def ProducerPc.stageOn : ProducerPc → Option (FlowId × NotifyStage)
  | replacing _ i stage => some (i, stage)
  | sweepNotify _ i stage => some (i, stage)
  | _ => none

/-- The flow that a worker is notifying about, and how far it has come. -/
def WorkerPc.stageOn : WorkerPc → Option (FlowId × NotifyStage)
  | replacing _ i stage => some (i, stage)
  | notifying i stage => some (i, stage)
  | _ => none

namespace FlowManager

/-- How often the observers have heard of the end of a flow. -/
def reports (m : FlowManager R) (i : FlowId) : Nat := (m.told i).countP Note.isFinished

/-- The flow is marked as finished and notified. -/
def Notified (m : FlowManager R) (i : FlowId) : Prop :=
  ∃ f, m.heap[i]? = some f ∧ f.flowState = .finishedNotified

theorem tell_reports (m : FlowManager R) (i j : FlowId) (note : Note R) :
    (m.tell i note).reports j =
      m.reports j + if i = j ∧ note.isFinished = true then 1 else 0 := by
  unfold reports
  rw [tell_told]
  by_cases h : i = j
  · rw [if_pos h, List.countP_append, List.countP_singleton]
    simp only [h, true_and]
  · simp only [h, false_and, if_false, Nat.add_zero]

theorem erase_reports (m : FlowManager R) (h : UInt32) (j : FlowId) :
    (m.erase h).reports j = m.reports j := by
  unfold erase
  split
  · rfl
  · simp only
    split
    · rfl
    · rw [tell_reports]
      simp only [Note.isFinished, Bool.false_eq_true, and_false, if_false, Nat.add_zero]
      rfl

theorem insertFlow_reports [Double R] (S : Setup R) (self : Option Nat) (m : FlowManager R)
    (p : IPv4Packet) (j : FlowId) : (m.insertFlow S self p).1.reports j = m.reports j := by
  unfold reports told
  rw [insertFlow_events]

theorem Notified.modifyFlow {m : FlowManager R} {j : FlowId} (h : m.Notified j) (i : FlowId)
    {g : Flow R → Flow R}
    (hg : ∀ f, f.flowState = .finishedNotified → (g f).flowState = .finishedNotified) :
    (m.modifyFlow i g).Notified j := by
  obtain ⟨f, hf, hstate⟩ := h
  unfold Notified
  rw [modifyFlow_heap, hf]
  split
  · exact ⟨g f, rfl, hg f hstate⟩
  · exact ⟨f, rfl, hstate⟩

theorem Notified.of_heap {m m' : FlowManager R} {j : FlowId} (h : m.Notified j)
    (hheap : m'.heap = m.heap) : m'.Notified j := by
  unfold Notified
  rw [hheap]
  exact h

theorem Notified.insertFlow [Double R] {S : Setup R} {m : FlowManager R} {j : FlowId}
    (h : m.Notified j) (self : Option Nat) (p : IPv4Packet) :
    (m.insertFlow S self p).1.Notified j := by
  obtain ⟨f, hf, hstate⟩ := h
  refine ⟨f, ?_, hstate⟩
  rw [insertFlow_heap, List.getElem?_append_left (List.getElem?_eq_some_iff.mp hf).1, hf]

end FlowManager

namespace State

/-- What a thread is notifying about. -/
def stageOf (s : State R) : Thread → Option (FlowId × NotifyStage)
  | .producer => s.producer.stageOn
  | .worker i => (s.worker i).stageOn

@[simp] theorem stageOf_producer (s : State R) : s.stageOf .producer = s.producer.stageOn := rfl

@[simp] theorem stageOf_worker (s : State R) (i : Nat) :
    s.stageOf (.worker i) = (s.worker i).stageOn := rfl

/-- Nobody is reported twice, and the mark comes in time to prevent it. -/
structure ReportedOnce (s : State R) : Prop where
  once : ∀ i, s.mgr.reports i ≤ 1
  marked : ∀ i, s.mgr.reports i = 1 →
    s.mgr.Notified i ∨ ∃ t, s.stageOf t = some (i, .mark)
  unheard : ∀ t i, s.stageOf t = some (i, .observe) → s.mgr.reports i = 0

theorem reportedOnce_init : ReportedOnce (State.init : State R) where
  once i := Nat.zero_le 1
  marked i h := by cases h
  unheard t i h := by cases t <;> cases h

section Preservation

variable {S : Setup R} {s s' : State R}

theorem Healthy.worker_of_stage (hs : Healthy S s) {w : Nat} {i : FlowId} {stage : NotifyStage}
    (hw : s.stageOf (.worker w) = some (i, stage)) : (s.worker w).flow = some i := by
  have hlocks := hs.unlocked w
  unfold stageOf at hw
  cases hpc : s.worker w with
  | replacing job j stage' =>
    rw [hpc] at hlocks
    cases hlocks
  | notifying j stage' =>
    simp only [hpc, WorkerPc.stageOn, Option.some.injEq, Prod.mk.injEq] at hw
    rw [hw.1]
    rfl
  | _ => simp only [hpc, WorkerPc.stageOn, reduceCtorEq] at hw

theorem closing_of_stage {i : FlowId} {stage : NotifyStage}
    (hp : s.stageOf .producer = some (i, stage)) : s.producer.closing = some i := by
  unfold stageOf at hp
  cases hpc : s.producer with
  | replacing p j stage' =>
    simp only [hpc, ProducerPc.stageOn, Option.some.injEq, Prod.mk.injEq] at hp
    rw [hp.1]
    rfl
  | sweepNotify k j stage' =>
    simp only [hpc, ProducerPc.stageOn, Option.some.injEq, Prod.mk.injEq] at hp
    rw [hp.1]
    rfl
  | _ => simp only [hpc, ProducerPc.stageOn, reduceCtorEq] at hp

/-- **One thread at a time** notifies about a flow. -/
theorem Healthy.stage_unique (hs : Healthy S s) {t t' : Thread} {i : FlowId}
    {stage stage' : NotifyStage} (ht : s.stageOf t = some (i, stage))
    (ht' : s.stageOf t' = some (i, stage')) : t = t' := by
  have hproducer : ∀ w st st', s.stageOf .producer = some (i, st) →
      s.stageOf (.worker w) = some (i, st') → False := by
    intro w st st' hp hw
    exact (hs.closing i (closing_of_stage hp)).2 w (hs.worker_of_stage hw)
  cases t with
  | producer =>
    cases t' with
    | producer => rfl
    | worker w => exact (hproducer w _ _ ht ht').elim
  | worker w =>
    cases t' with
    | producer => exact (hproducer w _ _ ht' ht).elim
    | worker w' =>
      have hhome := hs.working w i (hs.worker_of_stage ht)
      have hhome' := hs.working w' i (hs.worker_of_stage ht')
      exact congrArg Thread.worker (hhome.unique hhome')

/-- A move that is no stage of a notification. -/
theorem ReportedOnce.moves (hr : ReportedOnce s)
    (hreports : ∀ i, s'.mgr.reports i = s.mgr.reports i)
    (hnotified : ∀ i, s.mgr.Notified i → s'.mgr.Notified i)
    (hmark : ∀ t i, s.stageOf t = some (i, .mark) → s'.stageOf t = some (i, .mark))
    (hobserve : ∀ t i, s'.stageOf t = some (i, .observe) → s.stageOf t = some (i, .observe)) :
    ReportedOnce s' where
  once i := by
    rw [hreports]
    exact hr.once i
  marked i hi := by
    rw [hreports] at hi
    rcases hr.marked i hi with hold | ⟨t, ht⟩
    · exact Or.inl (hnotified i hold)
    · exact Or.inr ⟨t, hmark t i ht⟩
  unheard t i ht := by
    rw [hreports]
    exact hr.unheard t i (hobserve t i ht)

/-- A stage of a notification. -/
theorem ReportedOnce.notifies (hr : ReportedOnce s) (hs : Healthy S s) {t : Thread} {i : FlowId}
    {f : Flow R} {stage stage' : NotifyStage} {m : FlowManager R} (hf : s.mgr.heap[i]? = some f)
    (ht : s.stageOf t = some (i, stage)) (hn : s.mgr.Notifies i f stage m stage')
    (hm : s'.mgr = m) (ht' : s'.stageOf t = some (i, stage'))
    (hother : ∀ u, u ≠ t → s'.stageOf u = s.stageOf u) : ReportedOnce s' := by
  -- another thread is at another flow
  have helse : ∀ u k st, u ≠ t → s.stageOf u = some (k, st) → i ≠ k := by
    intro u k st hut hu hik
    rw [← hik] at hu
    exact hut (hs.stage_unique hu ht)
  have hkeep : ∀ u k, s.stageOf u = some (k, .mark) → stage ≠ .mark →
      s'.stageOf u = some (k, .mark) := by
    intro u k hu hstage
    by_cases hut : u = t
    · rw [hut, ht] at hu
      cases hu
      exact absurd rfl hstage
    · rw [hother u hut, hu]
  have hquiet : ∀ u k, s'.stageOf u = some (k, .observe) → stage' ≠ .observe →
      u ≠ t ∧ s.stageOf u = some (k, .observe) := by
    intro u k hu hstage
    by_cases hut : u = t
    · rw [hut, ht'] at hu
      cases hu
      exact absurd rfl hstage
    · rw [hother u hut] at hu
      exact ⟨hut, hu⟩
  cases hn with
  | skip hstate =>
    exact hr.moves (fun k => by rw [hm]) (fun k hk => by rw [hm]; exact hk)
      (fun u k hu => hkeep u k hu NotifyStage.noConfusion)
      fun u k hu => (hquiet u k hu NotifyStage.noConfusion).2
  | tooFew hstate hfew =>
    exact hr.moves (fun k => by rw [hm]) (fun k hk => by rw [hm]; exact hk)
      (fun u k hu => hkeep u k hu NotifyStage.noConfusion)
      fun u k hu => (hquiet u k hu NotifyStage.noConfusion).2
  | tell hstate hfew =>
    refine ⟨fun k => by rw [hm]; exact hr.once k, fun k hk => ?_, fun u k hu => ?_⟩
    · rw [hm] at hk ⊢
      rcases hr.marked k hk with hold | ⟨u, hu⟩
      · exact Or.inl hold
      · exact Or.inr ⟨u, hkeep u k hu NotifyStage.noConfusion⟩
    · rw [hm]
      by_cases hut : u = t
      · -- the flow is not marked, and nobody else is about to mark it
        rw [hut, ht'] at hu
        cases hu
        have hnone : s.mgr.reports i ≠ 1 := by
          intro hone
          rcases hr.marked i hone with ⟨g, hg, hgstate⟩ | ⟨u', hu'⟩
          · rw [hf] at hg
            cases hg
            exact hstate hgstate
          · rw [hs.stage_unique hu' ht, ht] at hu'
            cases hu'
        have := hr.once i
        omega
      · rw [hother u hut] at hu
        exact hr.unheard u k hu
  | observe =>
    have hzero := hr.unheard t i ht
    have hreports : ∀ k, s'.mgr.reports k = s.mgr.reports k + if i = k then 1 else 0 := by
      intro k
      rw [hm, FlowManager.tell_reports]
      simp only [Note.isFinished, and_true]
    refine ⟨fun k => ?_, fun k hk => ?_, fun u k hu => ?_⟩
    · rw [hreports]
      by_cases hik : i = k
      · rw [if_pos hik, ← hik, hzero]
      · rw [if_neg hik]
        exact hr.once k
    · by_cases hik : i = k
      · exact Or.inr ⟨t, hik ▸ ht'⟩
      · rw [hreports, if_neg hik] at hk
        rcases hr.marked k hk with hold | ⟨u, hu⟩
        · exact Or.inl (hm ▸ hold.of_heap rfl)
        · exact Or.inr ⟨u, hkeep u k hu NotifyStage.noConfusion⟩
    · obtain ⟨hut, hold⟩ := hquiet u k hu NotifyStage.noConfusion
      rw [hreports, if_neg (helse u k _ hut hold)]
      exact hr.unheard u k hold
  | mark =>
    have hnotified : ∀ k, s.mgr.Notified k → s'.mgr.Notified k := by
      intro k hk
      rw [hm]
      exact hk.modifyFlow i fun _ _ => rfl
    refine ⟨fun k => by rw [hm]; exact hr.once k, fun k hk => ?_, fun u k hu => ?_⟩
    · rw [hm] at hk
      rcases hr.marked k hk with hold | ⟨u, hu⟩
      · exact Or.inl (hnotified k hold)
      · by_cases hut : u = t
        · rw [hut, ht] at hu
          cases hu
          refine Or.inl ⟨f.setFinishedAndNotified, ?_, rfl⟩
          rw [hm, FlowManager.modifyFlow_heap, if_pos rfl, hf, Option.map_some]
        · exact Or.inr ⟨u, by rw [hother u hut, hu]⟩
    · rw [hm]
      exact hr.unheard u k (hquiet u k hu NotifyStage.noConfusion).2

/-- The producer makes a move that is no stage of a notification. -/
theorem ReportedOnce.producerMoves (hr : ReportedOnce s)
    (hreports : ∀ i, s'.mgr.reports i = s.mgr.reports i)
    (hnotified : ∀ i, s.mgr.Notified i → s'.mgr.Notified i) (hworker : s'.worker = s.worker)
    (hmark : ∀ i, s.producer.stageOn ≠ some (i, .mark))
    (hobserve : ∀ i, s'.producer.stageOn ≠ some (i, .observe)) : ReportedOnce s' := by
  refine hr.moves hreports hnotified (fun t i ht => ?_) fun t i ht => ?_
  · cases t with
    | producer => exact absurd ht (hmark i)
    | worker w =>
      rw [stageOf_worker, hworker]
      exact ht
  · cases t with
    | producer => exact absurd ht (hobserve i)
    | worker w =>
      rw [stageOf_worker, hworker] at ht
      exact ht

/-- A worker makes a move that is no stage of a notification. -/
theorem ReportedOnce.workerMoves (hr : ReportedOnce s)
    (hreports : ∀ i, s'.mgr.reports i = s.mgr.reports i)
    (hnotified : ∀ i, s.mgr.Notified i → s'.mgr.Notified i) {w : Nat} {pc : WorkerPc}
    (hproducer : s'.producer = s.producer) (hworker : s'.worker = Function.update s.worker w pc)
    (hmark : ∀ i, (s.worker w).stageOn ≠ some (i, .mark))
    (hobserve : ∀ i, pc.stageOn ≠ some (i, .observe)) : ReportedOnce s' := by
  refine hr.moves hreports hnotified (fun t i ht => ?_) fun t i ht => ?_
  · cases t with
    | producer =>
      rw [stageOf_producer, hproducer]
      exact ht
    | worker v =>
      rw [stageOf_worker, hworker]
      by_cases hv : v = w
      · rw [hv] at ht
        exact absurd ht (hmark i)
      · rw [Function.update_of_ne hv]
        exact ht
  · cases t with
    | producer =>
      rw [stageOf_producer, hproducer] at ht
      exact ht
    | worker v =>
      rw [stageOf_worker, hworker] at ht
      by_cases hv : v = w
      · rw [hv, Function.update_self] at ht
        exact absurd ht (hobserve i)
      · rw [Function.update_of_ne hv] at ht
        exact ht

/-- The producer notifies. -/
theorem ReportedOnce.producerNotifies (hr : ReportedOnce s) (hs : Healthy S s) {i : FlowId}
    {f : Flow R} {stage stage' : NotifyStage} {m : FlowManager R} (hf : s.mgr.heap[i]? = some f)
    (hp : s.producer.stageOn = some (i, stage)) (hn : s.mgr.Notifies i f stage m stage')
    (hm : s'.mgr = m) (hp' : s'.producer.stageOn = some (i, stage'))
    (hworker : s'.worker = s.worker) : ReportedOnce s' := by
  refine hr.notifies hs (t := .producer) hf hp hn hm hp' fun u hu => ?_
  cases u with
  | producer => exact absurd rfl hu
  | worker w => rw [stageOf_worker, stageOf_worker, hworker]

variable [Double R]

/-- **An orderly step reports no flow again.** -/
theorem reportedOnce_moves (hr : ReportedOnce s) (hs : Healthy S s) {a : Action}
    (h : Moves S s a s') : ReportedOnce s' := by
  have hsame : ∀ i, s.mgr.Notified i → s.mgr.Notified i := fun _ h => h
  have hmodify : ∀ (j : FlowId) {g : Flow R → Flow R},
      (∀ f, f.flowState = .finishedNotified → (g f).flowState = .finishedNotified) →
      ∀ i, s.mgr.Notified i → (s.mgr.modifyFlow j g).Notified i :=
    fun j g hg i hi => hi.modifyFlow j hg
  have herase : ∀ h i, s.mgr.Notified i → (s.mgr.erase h).Notified i :=
    fun h i hi => hi.of_heap (FlowManager.erase_heap s.mgr h)
  cases h with
  | refused p hp hdown => exact hr
  | called p hp hup =>
    exact hr.producerMoves (fun _ => rfl) hsame rfl (by rw [hp]; exact fun _ h => by cases h)
      fun _ h => by cases h
  | finishing hp =>
    exact hr.producerMoves (fun _ => rfl) hsame rfl (by rw [hp]; exact fun _ h => by cases h)
      fun _ h => by cases h
  | shutdown => exact hr.moves (fun _ => rfl) hsame (fun _ _ h => h) fun _ _ h => h
  | created p hp hfree hnone =>
    exact hr.producerMoves (FlowManager.insertFlow_reports S none s.mgr p)
      (fun _ h => h.insertFlow none p) rfl (by rw [hp]; exact fun _ h => by cases h)
      fun _ h => by cases h
  | reused p i f hp hfree hi hf hrep =>
    exact hr.producerMoves (fun _ => rfl) hsame rfl (by rw [hp]; exact fun _ h => by cases h)
      fun _ h => by cases h
  | replaces p i f hp hfree hi hf hrep =>
    exact hr.producerMoves (fun _ => rfl) hsame rfl (by rw [hp]; exact fun _ h => by cases h)
      fun _ h => by cases h
  | replaceNotifies p i f stage stage' m hp hf hnot =>
    exact hr.producerNotifies hs hf (by rw [hp]; rfl) hnot rfl rfl rfl
  | replaced p i hp =>
    refine hr.producerMoves (fun j => ?_) (fun j h => (herase _ j h).insertFlow none p) rfl
      (by rw [hp]; exact fun _ h => by cases h) fun _ h => by cases h
    rw [FlowManager.insertFlow_reports, FlowManager.erase_reports]
  | counted p i hp =>
    exact hr.producerMoves (fun _ => rfl) (hmodify i fun _ h => h) rfl
      (by rw [hp]; exact fun _ h => by cases h) fun _ h => by cases h
  | pushed p i q hp hq hroom =>
    exact hr.producerMoves (fun _ => rfl) hsame rfl (by rw [hp]; exact fun _ h => by cases h)
      fun _ h => by cases h
  | full p i q hp hq hroom =>
    exact hr.producerMoves (fun _ => rfl) hsame rfl (by rw [hp]; exact fun _ h => by cases h)
      fun _ h => by cases h
  | undone i hp =>
    exact hr.producerMoves (fun _ => rfl) (hmodify i fun _ h => h) rfl
      (by rw [hp]; exact fun _ h => by cases h) fun _ h => by cases h
  | drained k hp hk hempty =>
    exact hr.producerMoves (fun _ => rfl) hsame rfl (by rw [hp]; exact fun _ h => by cases h)
      fun _ h => by cases h
  | locked k hp hk hfree =>
    exact hr.producerMoves (fun _ => rfl) hsame rfl (by rw [hp]; exact fun _ h => by cases h)
      fun _ h => by cases h
  | picked k i hp hk =>
    exact hr.producerMoves (fun _ => rfl) hsame rfl (by rw [hp]; exact fun _ h => by cases h)
      fun _ h => by cases h
  | waited k i f hp hf hidle =>
    exact hr.producerMoves (fun _ => rfl) hsame rfl (by rw [hp]; exact fun _ h => by cases h)
      fun _ h => by cases h
  | sweepNotifies k i f stage stage' m hp hf hnot =>
    exact hr.producerNotifies hs hf (by rw [hp]; rfl) hnot rfl rfl rfl
  | swept k i hp =>
    exact hr.producerMoves (FlowManager.erase_reports s.mgr k) (herase k) rfl
      (by rw [hp]; exact fun _ h => by cases h) fun _ h => by cases h
  | returned hp hempty =>
    exact hr.producerMoves (fun _ => rfl) hsame rfl (by rw [hp]; exact fun _ h => by cases h)
      fun _ h => by cases h
  | workerCreated i job hi hw hfree hnone =>
    rw [(hs.lookup_eq hw).1] at hnone
    cases hnone
  | workerReplaces i job j f hi hw hfree hj hf hrep =>
    rw [(hs.lookup_eq hw).1] at hj
    cases hj
    rw [(hs.lookup_eq hw).2 f hf] at hrep
    cases hrep
  | workerReplaceNotifies i job j f stage stage' m hi hw hf hnot =>
    have hlocks := hs.unlocked i
    rw [hw] at hlocks
    cases hlocks
  | workerReplaced i job j hi hw =>
    have hlocks := hs.unlocked i
    rw [hw] at hlocks
    cases hlocks
  | decremented i p j f hi hw hf =>
    exact hr.workerMoves (fun _ => rfl) (hmodify j fun _ h => h) rfl rfl
      (by rw [hw]; exact fun _ h => by cases h) fun _ h => by cases h
  | applies i p j c hi hw =>
    exact hr.workerMoves (fun _ => rfl)
      (hmodify j fun f h => (f.addPacket_finishedNotified_iff S p).mpr h) rfl rfl
      (by rw [hw]; exact fun _ h => by cases h) fun _ h => by cases h
  | announces i j c f hi hw hf hnew =>
    refine hr.workerMoves (fun k => ?_) (fun k h => h.of_heap rfl) rfl rfl
      (by rw [hw]; exact fun _ h => by cases h) fun _ h => by cases h
    refine (FlowManager.tell_reports s.mgr j k (.classified f)).trans ?_
    simp only [Note.isFinished, Bool.false_eq_true, and_false, if_false, Nat.add_zero]
  | notifies i j f stage stage' m hi hw hf hnot =>
    refine hr.notifies hs (t := .worker i) hf (by simp only [stageOf, hw, WorkerPc.stageOn]) hnot
      rfl (by simp only [stageOf, setWorker, Function.update_self, WorkerPc.stageOn])
      fun u hu => ?_
    cases u with
    | producer => rfl
    | worker w =>
      have hne : w ≠ i := fun heq => hu (congrArg Thread.worker heq)
      simp only [stageOf, setWorker, Function.update_of_ne hne]
  | marks i j f hi hw hfree hf hbusy =>
    exact hr.workerMoves (fun _ => rfl) (hmodify j (g := Flow.setFinishedAndNotified) fun _ _ => rfl)
      rfl rfl (by rw [hw]; exact fun _ h => by cases h) fun _ h => by cases h
  | deletes i j f hi hw hfree hf hidle =>
    exact hr.workerMoves (FlowManager.erase_reports s.mgr _) (herase _) rfl rfl
      (by rw [hw]; exact fun _ h => by cases h) fun _ h => by cases h
  | exits i hi hw hdown =>
    exact hr.workerMoves (fun _ => rfl) hsame rfl rfl (by rw [hw]; exact fun _ h => by cases h)
      fun _ h => by cases h
  | popped i job rest hi hw hup hq =>
    exact hr.workerMoves (fun _ => rfl) hsame rfl rfl (by rw [hw]; exact fun _ h => by cases h)
      fun _ h => by cases h
  | workerReused i job j f hi hw hfree hj hf hrep =>
    exact hr.workerMoves (fun _ => rfl) hsame rfl rfl (by rw [hw]; exact fun _ h => by cases h)
      fun _ h => by cases h
  | announcesNothing i j c f hi hw hf hold =>
    exact hr.workerMoves (fun _ => rfl) hsame rfl rfl (by rw [hw]; exact fun _ h => by cases h)
      fun _ h => by cases h
  | seesFinished i j f hi hw hf hstate =>
    exact hr.workerMoves (fun _ => rfl) hsame rfl rfl (by rw [hw]; exact fun _ h => by cases h)
      fun _ h => by cases h
  | seesUnfinished i j f hi hw hf hstate =>
    exact hr.workerMoves (fun _ => rfl) hsame rfl rfl (by rw [hw]; exact fun _ h => by cases h)
      fun _ h => by cases h
  | seesNotified i j f hi hw hf hstate =>
    exact hr.workerMoves (fun _ => rfl) hsame rfl rfl (by rw [hw]; exact fun _ h => by cases h)
      fun _ h => by cases h
  | keeps i j f hi hw hf hstate =>
    exact hr.workerMoves (fun _ => rfl) hsame rfl rfl (by rw [hw]; exact fun _ h => by cases h)
      fun _ h => by cases h
  | notified i j hi hw =>
    exact hr.workerMoves (fun _ => rfl) hsame rfl rfl (by rw [hw]; exact fun _ h => by cases h)
      fun _ h => by cases h

end Preservation

/-- **The observers hear of the end of a flow at most once** in an orderly run. -/
theorem reported_at_most_once [Double R] {S : Setup R} (hn : 0 < S.config.workerThreadsPerQueue)
    {s : State R} (h : Orderly S s) (i : FlowId) : (s.mgr.told i).countP Note.isFinished ≤ 1 :=
  (h.invariant (I := fun s => Healthy S s ∧ ReportedOnce s) ⟨healthy_init S, reportedOnce_init⟩
    fun _ _ _ hs hok hstep =>
      have hmoves := moves_of_step hs.1.toSound hstep
      ⟨healthy_moves hn hs.1 hok hmoves, reportedOnce_moves hs.2 hs.1 hmoves⟩).2.once i

/-- A connection with one data segment, in the queue. -/
def shortConnection : List Action :=
  adds { lastFin with transport := .tcp thSyn } ++
    adds { lastFin with transport := .tcp thAck, data := [1] } ++ adds lastFin

/-- The worker processes it and tells the observers. -/
def reportedByWorker : List Action := shortConnection ++ times 22 (.worker 0)

theorem shortConnection_reported_once :
    ∃ s : State ℚ, Orderly (withWorkers 1) s ∧ s.mgr.reports 0 = 1 ∧
      (s.mgr.told 0).countP Note.isFinished ≤ 1 := by
  obtain ⟨s, hrun, hseen⟩ := exists_orderly (withWorkers 1) reportedByWorker
    (fun s => decide (s.mgr.reports 0 = 1)) (by decide +kernel)
  exact ⟨s, hrun, of_decide_eq_true hseen,
    reported_at_most_once (S := withWorkers 1) (by decide) hrun 0⟩

/-- The worker has tested the state and not called the observers. The producer replaces the flow,
and both go on. -/
def reportedByBoth : List Action :=
  shortConnection ++ times 21 (.worker 0) ++ (.addPacket nextSyn :: times 3 .producer) ++
    times 1 (.worker 0)

theorem reported_twice :
    ∃ s : State ℚ,
      Run (step (withWorkers 1)) (fun s a => s.sparesLooked a = true) State.init s ∧
      (s.mgr.told 0).countP Note.isFinished = 2 := by
  obtain ⟨s, hrun, hseen⟩ := exists_of_exec (step (withWorkers 1))
    (fun s a => s.sparesLooked a = true) State.init reportedByBoth
    (fun s => decide ((s.mgr.told 0).countP Note.isFinished = 2)) (by decide +kernel)
  exact ⟨s, hrun, of_decide_eq_true hseen⟩

end State

end Vsid
