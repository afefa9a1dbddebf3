import Mathlib.Logic.Basic

/-!
# Guarded runs

A system is given by a function that takes a state and an action and, when the action is possible,
returns the next state. `Run step ok s t` says that `t` is reached from `s` by steps each of which
meets `ok`. Unguarded reachability is the guard that is always met.
-/

set_option autoImplicit false

namespace Vsid

variable {σ α : Type*}

/-- `t` is reached from `s` by steps that meet the guard. -/
inductive Run (step : σ → α → Option σ) (ok : σ → α → Prop) (s : σ) : σ → Prop where
  | refl : Run step ok s s
  | tail {t u : σ} (a : α) : Run step ok s t → ok t a → step t a = some u → Run step ok s u

/-- Any run, without a guard. -/
abbrev Reaches (step : σ → α → Option σ) : σ → σ → Prop := Run step fun _ _ => True

namespace Run

variable {step : σ → α → Option σ} {ok ok' : σ → α → Prop} {s t : σ}

/-- The invariant rule. -/
theorem invariant {I : σ → Prop} (h : Run step ok s t) (hinit : I s)
    (hstep : ∀ t a u, I t → ok t a → step t a = some u → I u) : I t := by
  induction h with
  | refl => exact hinit
  | tail a _ hok hstep' ih => exact hstep _ a _ ih hok hstep'

/-- A weaker guard admits more runs. -/
theorem mono (h : Run step ok s t) (hok : ∀ t a, ok t a → ok' t a) : Run step ok' s t := by
  induction h with
  | refl => exact .refl
  | tail a _ ha hstep ih => exact .tail a ih (hok _ a ha) hstep

/-- A guarded run is a run. -/
theorem reaches (h : Run step ok s t) : Reaches step s t := h.mono fun _ _ _ => trivial

theorem trans {u : σ} (h : Run step ok s t) (h' : Run step ok t u) : Run step ok s u := by
  induction h' with
  | refl => exact h
  | tail a _ ha hstep ih => exact .tail a ih ha hstep

end Run

/-- Executing a schedule, as long as every step is possible and meets the guard. -/
def exec (step : σ → α → Option σ) (ok : σ → α → Prop) [∀ s a, Decidable (ok s a)] (s : σ) :
    List α → Option σ
  | [] => some s
  | a :: actions =>
    if ok s a then
      match step s a with
      | none => none
      | some t => exec step ok t actions
    else none

/-- An executed schedule is a run. -/
theorem run_of_exec {step : σ → α → Option σ} {ok : σ → α → Prop} [∀ s a, Decidable (ok s a)]
    {s t : σ} {actions : List α} (h : exec step ok s actions = some t) : Run step ok s t := by
  induction actions generalizing s with
  | nil =>
    cases h
    exact .refl
  | cons a actions ih =>
    unfold exec at h
    split at h
    next hok =>
      split at h
      next => cases h
      next u hu => exact (Run.tail a .refl hok hu).trans (ih h)
    next => cases h

/-- A schedule that can be executed, and what is seen of the state it leads to. -/
theorem exists_of_exec (step : σ → α → Option σ) (ok : σ → α → Prop)
    [∀ s a, Decidable (ok s a)] (s : σ) (actions : List α) (seen : σ → Bool)
    (h : (exec step ok s actions).any seen = true) : ∃ t, Run step ok s t ∧ seen t = true := by
  obtain ⟨t, ht, hseen⟩ := (Option.any_eq_true seen _).mp h
  exact ⟨t, run_of_exec ht, hseen⟩

/-- Two systems in lockstep: if `f` makes the steps of one the steps of the other then it makes its
schedules the schedules of the other. -/
theorem foldlM_lockstep {τ : Type*} {step : σ → α → Option σ} {step' : τ → α → Option τ} {f : σ → τ}
    (h : ∀ s a, step' (f s) a = (step s a).map f) (actions : List α) (s : σ) :
    actions.foldlM step' (f s) = (actions.foldlM step s).map f := by
  induction actions generalizing s with
  | nil => rfl
  | cons a actions ih =>
    rw [List.foldlM_cons, List.foldlM_cons, h]
    cases step s a with
    | none => rfl
    | some t => exact ih t

end Vsid
