import Vsid.Common.Workers
import Vsid.Laws.Soundness
import Vsid.Laws.Timeout

/-!
# Every flow has a life

The manager does nothing to a flow but make the calls of `FlowCall`, in either mode and in every
interleaving. So what holds over every life of a flow holds of every flow that a manager has
created.
-/

set_option autoImplicit false

namespace Vsid

variable {R : Type} [Double R] {S : Setup R} {P : Flow R → Prop}

/-- The property holds of new flows, and every call keeps it. -/
structure FlowInvariant (S : Setup R) (P : Flow R → Prop) : Prop where
  new : ∀ p stale, P (Flow.new S p stale)
  addPacket : ∀ f p, P f → P (f.addPacket S p)
  mark : ∀ f, P f → P f.setFinishedAndNotified
  inc : ∀ f, P f → P f.incPktsInQueue
  dec : ∀ f, P f → P f.decPktsInQueue
  queue : ∀ (f : Flow R) (q : Int), P f → P { f with threadQueueId := q }

namespace FlowInvariant

open FlowManager

theorem newFlow (h : FlowInvariant S P) (self : Option Nat) (p : IPv4Packet)
    (m : FlowManager R) : P (m.newFlow S self p) :=
  h.queue _ _ (h.new p _)

/-! ## Non-threaded mode -/

theorem sequential (h : FlowInvariant S P) {packets : List IPv4Packet} {m : FlowManager R}
    (hrun : Sequential S packets m) : Every P m := by
  induction hrun with
  | init => exact fun i f hf => by cases hf
  | @addPacket packets m p hm ih =>
    cases hdown : m.shutdown with
    | true =>
      rw [addPacket_of_shutdown hdown]
      exact ih
    | false =>
      exact ih.addPacket (hm.quiet hdown) p h.mark (fun f => h.addPacket f p) (h.newFlow none p)
  | finished _ hfinished ih => exact Every.finished ih h.mark hfinished
  | shutdown _ ih => exact ih

/-! ## With worker threads -/

variable {m : FlowManager R}

theorem look (h : FlowInvariant S P) (hm : Every P m) (self : Option Nat) (p : IPv4Packet)
    {m' : FlowManager R} {i : FlowId} (hlook : m.look S self p = .found m' i) : Every P m' := by
  unfold FlowManager.look at hlook
  split at hlook
  next =>
    cases hlook
    exact hm.insertFlow self p (h.newFlow self p m)
  next =>
    split at hlook
    next =>
      cases hlook
      exact hm
    next =>
      split at hlook
      next => cases hlook
      next =>
        cases hlook
        exact hm

theorem notifyStep (h : FlowInvariant S P) (hm : Every P m) (i : FlowId) (stage : NotifyStage) :
    Every P (m.notifyStep i stage).1 := by
  unfold FlowManager.notifyStep
  split
  · exact hm
  · split
    · exact hm
    · split <;> exact hm
  · exact hm
  · exact hm.modifyFlow i fun f _ => h.mark f
  · exact hm

theorem replace (h : FlowInvariant S P) (hm : Every P m) (k : UInt32) (self : Option Nat)
    (p : IPv4Packet) : Every P ((m.erase k).insertFlow S self p).1 :=
  (hm.erase k).insertFlow self p (h.newFlow self p _)

theorem assignQueue (h : FlowInvariant S P) (hm : Every P m) (i : FlowId) :
    Every P (m.assignQueue S i) := by
  unfold FlowManager.assignQueue
  split
  · exact hm
  · split
    · exact hm.modifyFlow i fun f _ => h.queue f _
    · exact hm

theorem deleteFlow (h : FlowInvariant S P) (hm : Every P m) (i : FlowId) :
    Every P (m.deleteFlow i) := by
  unfold FlowManager.deleteFlow
  split
  · exact hm
  · split
    · exact hm.modifyFlow i fun f _ => h.mark f
    · exact hm.erase _

theorem producerStep (h : FlowInvariant S P) {s s' : State R} (hs : Every P s.mgr)
    (hstep : s.producerStep S = some s') : Every P s'.mgr := by
  unfold State.producerStep at hstep
  split at hstep
  case h_1 => cases hstep
  case h_2 p _ =>
    split at hstep
    next => cases hstep
    next =>
      split at hstep
      next hlook =>
        cases hstep
        exact h.look hs none p hlook
      next =>
        cases hstep
        exact hs
  case h_3 p _ _ =>
    cases hstep
    exact h.replace hs _ none p
  case h_4 p i stage _ _ =>
    cases hstep
    exact h.notifyStep hs i stage
  case h_5 p i _ =>
    cases hstep
    exact h.assignQueue (hs.modifyFlow i fun f _ => h.inc f) i
  case h_6 =>
    simp only at hstep
    split at hstep <;> cases hstep <;> exact hs
  case h_7 i _ =>
    cases hstep
    exact hs.modifyFlow i fun f _ => h.dec f
  case h_8 =>
    split at hstep
    next =>
      split at hstep <;> cases hstep
      exact hs
    next =>
      split at hstep <;> cases hstep
      exact hs
  case h_9 =>
    split at hstep <;> cases hstep
    exact hs
  case h_10 =>
    split at hstep
    next => cases hstep
    next =>
      split at hstep <;> cases hstep
      exact hs
  case h_11 =>
    cases hstep
    exact hs.erase _
  case h_12 h' i stage _ _ =>
    cases hstep
    exact h.notifyStep hs i stage

theorem workerStep (h : FlowInvariant S P) {s s' : State R} (hs : Every P s.mgr) {w : Nat}
    (hstep : s.workerStep S w = some s') : Every P s'.mgr := by
  unfold State.workerStep at hstep
  split at hstep
  case h_1 => cases hstep
  case h_2 =>
    split at hstep
    next =>
      cases hstep
      exact hs
    next =>
      split at hstep <;> cases hstep
      exact hs
  case h_3 job _ =>
    split at hstep
    next => cases hstep
    next =>
      split at hstep
      next hlook =>
        cases hstep
        exact h.look hs _ _ hlook
      next =>
        cases hstep
        exact hs
  case h_4 job _ _ =>
    cases hstep
    exact h.replace hs (S.flowHash job.packet.tuple) (some w) job.packet
  case h_5 job i stage _ _ =>
    cases hstep
    exact h.notifyStep hs i stage
  case h_6 p i _ =>
    split at hstep <;> cases hstep
    exact hs.modifyFlow i fun f _ => h.dec f
  case h_7 p i _ _ =>
    cases hstep
    exact hs.modifyFlow i fun f _ => h.addPacket f p
  case h_8 i _ _ =>
    split at hstep
    next => cases hstep
    next =>
      split at hstep
      next =>
        cases hstep
        unfold notifyFlowClassified
        dsimp only [State.setWorker]
        split <;> exact hs
      next =>
        cases hstep
        exact hs
  case h_9 =>
    split at hstep
    next => cases hstep
    next => split at hstep <;> cases hstep <;> exact hs
  case h_10 =>
    split at hstep
    next => cases hstep
    next => split at hstep <;> cases hstep <;> exact hs
  case h_11 =>
    cases hstep
    exact hs
  case h_12 i stage _ _ =>
    cases hstep
    exact h.notifyStep hs i stage
  case h_13 i _ =>
    split at hstep <;> cases hstep
    exact h.deleteFlow hs i

theorem reachable (h : FlowInvariant S P) {s : State R} (hrun : State.Reachable S s) :
    Every P s.mgr := by
  refine hrun.invariant (I := fun s => Every P s.mgr) (fun i f hf => by cases hf) ?_
  intro s a s' hs _ hstep
  unfold State.step at hstep
  split at hstep
  case h_1 =>
    split at hstep
    next => split at hstep <;> cases hstep <;> exact hs
    next => cases hstep
  case h_2 =>
    split at hstep <;> cases hstep
    exact hs
  case h_3 =>
    split at hstep <;> cases hstep
    exact hs
  case h_4 => exact h.producerStep hs hstep
  case h_5 w =>
    split at hstep
    next => exact h.workerStep hs hstep
    next => cases hstep
  case h_6 =>
    cases hstep
    exact hs

end FlowInvariant

/-- The flow came about through calls of the manager on a new flow. -/
def HasLife (S : Setup R) (f : Flow R) : Prop :=
  ∃ p stale e, Lives S (fun _ _ => True) (Flow.new S p stale) e ∧ e.flow = f

theorem flowInvariant_hasLife (S : Setup R) : FlowInvariant S (HasLife S) where
  new p stale := ⟨p, stale, FlowHistory.start (Flow.new S p stale), .refl, rfl⟩
  addPacket f p := by
    rintro ⟨q, stale, e, hrun, rfl⟩
    exact ⟨q, stale, _, .tail (.addPacket p) hrun trivial rfl, rfl⟩
  mark f := by
    rintro ⟨q, stale, e, hrun, rfl⟩
    exact ⟨q, stale, _, .tail .setFinishedAndNotified hrun trivial rfl, rfl⟩
  inc f := by
    rintro ⟨q, stale, e, hrun, rfl⟩
    exact ⟨q, stale, _, .tail .incPktsInQueue hrun trivial rfl, rfl⟩
  dec f := by
    rintro ⟨q, stale, e, hrun, rfl⟩
    exact ⟨q, stale, _, .tail .decPktsInQueue hrun trivial rfl, rfl⟩
  queue f queue := by
    rintro ⟨q, stale, e, hrun, rfl⟩
    exact ⟨q, stale, _, .tail (.threadQueueId queue) hrun trivial rfl, rfl⟩

/-- Every flow of a manager in non-threaded mode has a life. -/
theorem hasLife_sequential {packets : List IPv4Packet} {m : FlowManager R}
    (h : FlowManager.Sequential S packets m) : m.Every (HasLife S) :=
  (flowInvariant_hasLife S).sequential h

/-- Every flow of a manager with worker threads has a life. -/
theorem hasLife_reachable {s : State R} (h : State.Reachable S s) : s.mgr.Every (HasLife S) :=
  (flowInvariant_hasLife S).reachable h

end Vsid
