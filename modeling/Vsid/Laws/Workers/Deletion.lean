import Vsid.Laws.Workers.Healthy

/-!
# Deleting a flow

`deleteFlow` erases by hash. `deletes_own_entry`: in an orderly run the entry that a worker erases
is the one of the flow it was called for. `stale_deletion_erases_newer_flow`: without that, a flow
that the producer has replaced in the meantime takes the entry of its successor with it.
-/

set_option autoImplicit false

namespace Vsid

variable {R : Type}

namespace FlowManager

/-- What `deleteFlow` does to the table. -/
theorem deleteFlow_flows (m : FlowManager R) (j : FlowId) :
    (m.deleteFlow j).flows = m.flows ∨
      ∃ f, m.heap[j]? = some f ∧ (m.deleteFlow j).flows = Function.update m.flows f.hash none := by
  unfold deleteFlow
  cases hf : m.heap[j]? with
  | none => exact Or.inl rfl
  | some f =>
    simp only
    split
    · exact Or.inl rfl
    · exact Or.inr ⟨f, rfl, erase_flows m f.hash⟩

end FlowManager

namespace State

variable [Double R] {S : Setup R} {s s' : State R}

/-- What a worker in front of `deleteFlow` does next. -/
theorem worker_deletes {i : Nat} {j : FlowId} (hw : s.worker i = .deleting j)
    (hstep : step S s (.worker i) = some s') : s'.mgr = s.mgr.deleteFlow j := by
  unfold step at hstep
  simp only at hstep
  split at hstep
  next =>
    unfold workerStep at hstep
    simp only [hw] at hstep
    split at hstep
    next => cases hstep
    next =>
      cases hstep
      rfl
  next => cases hstep

/-- **A worker erases no entry but that of the flow it deletes.** -/
theorem deletes_own_entry (hn : 0 < S.config.workerThreadsPerQueue)
    (h : Orderly S s) {i : Nat} {j : FlowId}
    (hw : s.worker i = .deleting j) (hstep : step S s (.worker i) = some s') :
    s'.mgr.flows = s.mgr.flows ∨
      ∃ k, s.mgr.flows k = some j ∧ s'.mgr.flows = Function.update s.mgr.flows k none := by
  have hs := healthy_of_run hn h
  have hhome : s.mgr.Home i j := hs.working i j (by rw [hw]; rfl)
  rw [worker_deletes hw hstep]
  rcases s.mgr.deleteFlow_flows j with hsame | ⟨f, hf, herased⟩
  · exact Or.inl hsame
  · exact Or.inr ⟨f.hash, hhome.1.flows (FlowManager.hashAt_of_heap hf), herased⟩

/-! ## A schedule in which the producer is quicker -/

/-- The last segment of a connection. -/
def lastFin : IPv4Packet :=
  ⟨0x0100000a, 40000, 0x0200000a, 80, .tcp thFin, [], ⟨0, 0⟩⟩

/-- The first segment of the next connection on the same ports, ten seconds later. -/
def nextSyn : IPv4Packet :=
  ⟨0x0100000a, 40000, 0x0200000a, 80, .tcp thSyn, [], ⟨10, 0⟩⟩

/-- A worker brings a flow to its end and is about to delete it. -/
def finDeleted : List Action := adds lastFin ++ times 9 (.worker 0)

theorem finDeleted_deletes_own_entry :
    ∃ s s' : State ℚ, s.worker 0 = .deleting 0 ∧
      step (withWorkers 1) s (.worker 0) = some s' ∧
      (s'.mgr.flows = s.mgr.flows ∨
        ∃ k, s.mgr.flows k = some 0 ∧ s'.mgr.flows = Function.update s.mgr.flows k none) := by
  obtain ⟨s, hrun, hseen⟩ := exists_orderly (withWorkers 1) finDeleted
    (fun s => decide (s.worker 0 = .deleting 0) && (step (withWorkers 1) s (.worker 0)).isSome)
    (by decide +kernel)
  obtain ⟨hw, hsome⟩ := Bool.and_eq_true_iff.mp hseen
  obtain ⟨s', hs'⟩ := Option.isSome_iff_exists.mp hsome
  exact ⟨s, s', of_decide_eq_true hw, hs',
    deletes_own_entry (S := withWorkers 1) (by decide) hrun (of_decide_eq_true hw) hs'⟩

/-- The worker is held up between its test of the state and the notification, and the producer
replaces the flow. -/
def staleDeletion : List Action :=
  adds lastFin ++ times 6 (.worker 0) ++ (.addPacket nextSyn :: times 4 .producer) ++
    times 2 (.worker 0)

theorem stale_deletion_erases_newer_flow :
    ∃ s s' : State ℚ,
      Run (step (withWorkers 1)) (fun s a => s.sparesLooked a = true) State.init s ∧
      s.worker 0 = .deleting 0 ∧
      step (withWorkers 1) s (.worker 0) = some s' ∧
      s.mgr.flows ((withWorkers 1).flowHash nextSyn.tuple) = some 1 ∧
      s'.mgr.flows ((withWorkers 1).flowHash nextSyn.tuple) = none := by
  obtain ⟨s, hrun, hseen⟩ := exists_of_exec (step (withWorkers 1))
    (fun s a => s.sparesLooked a = true) State.init staleDeletion
    (fun s => decide (s.worker 0 = .deleting 0) &&
      decide (s.mgr.flows ((withWorkers 1).flowHash nextSyn.tuple) = some 1) &&
      (step (withWorkers 1) s (.worker 0)).any fun s' : State ℚ =>
        (s'.mgr.flows ((withWorkers 1).flowHash nextSyn.tuple)).isNone) (by decide +kernel)
  simp only [Bool.and_eq_true, decide_eq_true_eq, Option.any_eq_true, Option.isNone_iff_eq_none]
    at hseen
  obtain ⟨⟨hw, hnew⟩, s', hstep, hgone⟩ := hseen
  exact ⟨s, s', hrun, hw, hstep, hnew, hgone⟩

end State

end Vsid
