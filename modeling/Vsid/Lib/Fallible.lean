import Mathlib.Data.List.Basic

/-!
# Programs that may fail

Rules for programs in `Except`: what a sequence that returned has gone through, and folds. A fold
whose steps do not fail is the pure fold (`foldlM_eq_ok`), and one that returned has kept whatever
each step keeps (`foldlM_invariant`).
-/

set_option autoImplicit false

universe u v

namespace Vsid

namespace Fallible

variable {ε : Type v}

@[simp] theorem ok_bind {α β : Type u} (a : α) (f : α → Except ε β) :
    (Except.ok a >>= f) = f a := rfl

@[simp] theorem pure_eq_ok {α : Type u} (a : α) : (pure a : Except ε α) = .ok a := rfl

/-- A sequence returns when both of its parts do. -/
theorem bind_eq_ok {α β : Type u} {x : Except ε α} {f : α → Except ε β} {b : β} :
    (x >>= f) = .ok b ↔ ∃ a, x = .ok a ∧ f a = .ok b := by
  cases x with
  | error e =>
    refine iff_of_false (fun h => ?_) fun ⟨_, h, _⟩ => ?_
    · cases h
    · cases h
  | ok a =>
    refine ⟨fun h => ⟨a, rfl, h⟩, fun ⟨_, ha, h⟩ => ?_⟩
    cases ha
    exact h

/-- What was evaluated of a value that is returned. -/
theorem exists_eq_ok {α β : Type u} {x : Except ε α} {f : α → β} {y : β}
    (h : x.toOption.map f = some y) : ∃ a, x = .ok a ∧ f a = y := by
  cases x with
  | error e => cases h
  | ok a => exact ⟨a, rfl, Option.some_inj.mp h⟩

variable {α : Type*} {σ : Type u} {f : σ → α → Except ε σ} {l : List α} {s t : σ}

theorem foldlM_cons_eq_ok {a : α} (h : (a :: l).foldlM f s = .ok t) :
    ∃ s', f s a = .ok s' ∧ l.foldlM f s' = .ok t := by
  rw [List.foldlM_cons] at h
  exact bind_eq_ok.mp h

/-- **A fold of steps that do not fail.** -/
theorem foldlM_eq_ok {g : σ → α → σ} {I : σ → Prop}
    (hstep : ∀ s, I s → ∀ a ∈ l, f s a = .ok (g s a) ∧ I (g s a)) (h : I s) :
    l.foldlM f s = .ok (l.foldl g s) ∧ I (l.foldl g s) := by
  induction l generalizing s with
  | nil => exact ⟨rfl, h⟩
  | cons a l ih =>
    obtain ⟨hok, hI⟩ := hstep s h a List.mem_cons_self
    have ih := ih (fun s hs a' ha' => hstep s hs a' (List.mem_cons_of_mem a ha')) hI
    rw [List.foldlM_cons, hok, List.foldl_cons]
    exact ih

/-- **What every step keeps, the fold keeps.** -/
theorem foldlM_invariant {I : σ → Prop}
    (hstep : ∀ s, I s → ∀ a ∈ l, ∀ s', f s a = .ok s' → I s') (h : I s)
    (hfold : l.foldlM f s = .ok t) : I t := by
  induction l generalizing s with
  | nil =>
    cases hfold
    exact h
  | cons a l ih =>
    obtain ⟨s', hs', hrest⟩ := foldlM_cons_eq_ok hfold
    exact ih (fun s hs a' ha' => hstep s hs a' (List.mem_cons_of_mem a ha'))
      (hstep s h a List.mem_cons_self s' hs') hrest

end Fallible

end Vsid
