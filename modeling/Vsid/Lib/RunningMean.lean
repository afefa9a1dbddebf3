import Mathlib.Algebra.BigOperators.Group.List.Basic
import Mathlib.Algebra.Order.Field.Basic
import Mathlib.Data.Nat.Cast.Order.Ring

/-!
# The running mean

A mean is kept together with the number of values that it is of. One more value is added with the
weight of one, so after any number of them the mean is what it would be over all at once
(`foldl_runningMean`).
-/

set_option autoImplicit false

namespace Vsid

variable {K : Type*} [Field K] [CharZero K]

/-- The mean of `n` values and one more. -/
def runningMean (n : ℕ) (x y : K) : K := (x * n + y) / ((n + 1 : ℕ) : K)

/-- One value after the other. -/
def runningMeans (n : ℕ) (x : K) : List K → K
  | [] => x
  | y :: ys => runningMeans (n + 1) (runningMean n x y) ys

/-- **The running mean is the mean.** -/
theorem runningMeans_eq {n : ℕ} {x : K} {ys : List K} (h : ys ≠ []) :
    runningMeans n x ys = (n * x + ys.sum) / ((n + ys.length : ℕ) : K) := by
  induction ys generalizing n x with
  | nil => exact absurd rfl h
  | cons y ys ih =>
    rw [runningMeans]
    have hpos : ((n + 1 : ℕ) : K) ≠ 0 := Nat.cast_ne_zero.mpr (Nat.succ_ne_zero n)
    have hback : ((n + 1 : ℕ) : K) * runningMean n x y = n * x + y := by
      unfold runningMean
      rw [mul_div_cancel₀ _ hpos, mul_comm]
    by_cases hys : ys = []
    · rw [hys, runningMeans, List.sum_singleton, List.length_singleton, eq_div_iff hpos, mul_comm]
      exact hback
    · rw [ih hys, hback, List.sum_cons, List.length_cons, ← add_assoc, Nat.add_right_comm n 1,
        ← Nat.add_assoc]

/-- A mean that also counts `n` zeroes is another one, unless there are none or nothing to
average. -/
theorem div_add_eq_div_iff {n k : ℕ} {s : K} :
    s / ((n + k : ℕ) : K) = s / (k : K) ↔ n = 0 ∨ s = 0 := by
  by_cases hs : s = 0
  · rw [hs, zero_div, zero_div]
    exact iff_of_true rfl (Or.inr rfl)
  · rw [div_eq_mul_inv, div_eq_mul_inv, mul_right_inj' hs, inv_inj, Nat.cast_inj, Nat.add_eq_right,
      or_iff_left hs]

end Vsid
