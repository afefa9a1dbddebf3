import Mathlib.Analysis.Convex.StdSimplex
import Mathlib.Analysis.Convex.Jensen
import Mathlib.Analysis.SpecialFunctions.Log.Base
import Mathlib.Analysis.SpecialFunctions.Log.NegMulLog
import Mathlib.Data.List.GetD
import Mathlib.Tactic.IntervalCases
import Vsid.Lib.Counts

/-!
# Finite distributions

Weights that are not negative and add up to one, as points of the standard simplex. Smoothing adds
the same amount to every weight and scales the result back. A tally is a list of counts; over its
total it is a distribution. The entropy of a distribution is at most the logarithm of the number of
its weights.
-/

set_option autoImplicit false

namespace Vsid

open Finset

section Field

variable {K : Type*} [Field K] [LinearOrder K] [IsStrictOrderedRing K] {n : ℕ} {x y : ℕ → K}

/-- The first `n` values are weights of a distribution. -/
def IsDistribution (n : ℕ) (x : ℕ → K) : Prop := (fun i : Fin n => x i) ∈ stdSimplex K (Fin n)

omit [IsStrictOrderedRing K] in
theorem isDistribution_iff :
    IsDistribution n x ↔ (∀ i < n, 0 ≤ x i) ∧ ∑ i ∈ range n, x i = 1 := by
  unfold IsDistribution stdSimplex
  rw [Set.mem_ofPred_eq, Fin.sum_univ_eq_sum_range x n, Fin.forall_iff]

omit [IsStrictOrderedRing K] in
theorem isDistribution_congr (h : ∀ i < n, x i = y i) :
    IsDistribution n x ↔ IsDistribution n y := by
  rw [isDistribution_iff, isDistribution_iff,
    Finset.sum_congr rfl fun i hi => h i (mem_range.mp hi)]
  exact and_congr_left' (forall₂_congr fun i hi => by rw [h i hi])

/-- A weighted mean of two distributions is a distribution. -/
theorem IsDistribution.mix (hx : IsDistribution n x) (hy : IsDistribution n y) {a b : K}
    (ha : 0 ≤ a) (hb : 0 ≤ b) (hab : a + b = 1) :
    IsDistribution n fun i => a * x i + b * y i :=
  convex_stdSimplex K (Fin n) hx hy ha hb hab

/-- Two weights, the second of which is what the first leaves. -/
theorem isDistribution_two_iff (h : x 1 = 1 - x 0) :
    IsDistribution 2 x ↔ 0 ≤ x 0 ∧ x 0 ≤ 1 := by
  rw [isDistribution_iff, sum_range_succ, sum_range_one, h, add_sub_cancel]
  constructor
  · intro hx
    have hfirst := hx.1 0 (by decide)
    have hsecond := hx.1 1 (by decide)
    rw [h] at hsecond
    exact ⟨hfirst, sub_nonneg.mp hsecond⟩
  · intro hx
    refine ⟨fun i hi => ?_, rfl⟩
    interval_cases i
    · exact hx.1
    · rw [h]
      exact sub_nonneg.mpr hx.2

/-! ## Smoothing -/

/-- The value with the amount of one more, uniform observation mixed in. -/
def smooth (n : ℕ) (v : K) : K := v * (1 / ((n : K) + 1)) + 1 / ((n : K) + 1)

theorem smooth_pos_iff {v : K} : 0 < smooth n v ↔ -1 < v := by
  have hpos : (0 : K) < 1 / ((n : K) + 1) := by positivity
  have hsplit : smooth n v = (v + 1) * (1 / ((n : K) + 1)) := by
    unfold smooth
    ring
  rw [hsplit, mul_pos_iff_of_pos_right hpos, ← neg_lt_iff_pos_add]

theorem sum_smooth_iff : ∑ i ∈ range n, smooth n (x i) = 1 ↔ ∑ i ∈ range n, x i = 1 := by
  have hpos : (0 : K) < (n : K) + 1 := by positivity
  have hsum : ∑ i ∈ range n, smooth n (x i) = (∑ i ∈ range n, x i + n) / ((n : K) + 1) := by
    unfold smooth
    rw [sum_add_distrib, ← sum_mul, sum_const, card_range, nsmul_eq_mul]
    ring
  rw [hsum, div_eq_one_iff_eq hpos.ne', add_comm, add_right_inj]

/-! ## Tallies -/

/-- A list of `n` counts whose total is `t`. -/
structure Tally (n t : ℕ) (l : List K) : Prop where
  length : l.length = n
  nonneg : ∀ v ∈ l, 0 ≤ v
  sum : l.sum = (t : K)

omit [IsStrictOrderedRing K] in
theorem tally_replicate (n : ℕ) : Tally n 0 (List.replicate n (0 : K)) where
  length := List.length_replicate
  nonneg v hv := (List.eq_of_mem_replicate hv).ge
  sum := by rw [List.sum_replicate, smul_zero, Nat.cast_zero]

/-- One more of one kind. -/
theorem Tally.modify {t : ℕ} {l : List K} (h : Tally n t l) {i : ℕ} (hi : i < n) :
    Tally n (t + 1) (l.modify i (· + 1)) where
  length := (List.length_modify _ _ _).trans h.length
  nonneg v hv := by
    obtain ⟨j, hj, rfl⟩ := List.mem_iff_getElem.mp hv
    rw [List.getElem_modify]
    have hold := h.nonneg _ (List.getElem_mem (by rwa [List.length_modify] at hj))
    split
    · exact add_nonneg hold zero_le_one
    · exact hold
  sum := by
    have hlt : i < l.length := h.length.symm ▸ hi
    rw [List.modify_eq_take_cons_drop hlt, List.sum_append, List.sum_cons, Nat.cast_succ, ← h.sum]
    conv_rhs => rw [← List.take_append_drop i l, List.drop_eq_getElem_cons hlt, List.sum_append,
      List.sum_cons]
    ring

/-- Some more, of any kinds. -/
theorem Tally.increment {t : ℕ} {l : List K} (h : Tally n t l) {positions : List ℕ}
    (hpositions : ∀ i ∈ positions, i < n) :
    Tally n (t + positions.length) (Vsid.increment l positions) := by
  induction positions generalizing t l with
  | nil => exact h
  | cons i positions ih =>
    obtain ⟨hi, hpositions⟩ := List.forall_mem_cons.mp hpositions
    rw [increment_cons, List.length_cons, Nat.add_comm positions.length, ← Nat.add_assoc]
    exact ih (h.modify hi) hpositions

omit [IsStrictOrderedRing K] in
theorem Tally.sum_range {t : ℕ} {l : List K} (h : Tally n t l) :
    ∑ i ∈ range n, l.getD i 0 = (t : K) := by
  rw [← h.sum, ← h.length, ← Fin.sum_univ_eq_sum_range (fun i => l.getD i 0),
    ← Fin.sum_univ_getElem l]
  exact sum_congr rfl fun i _ => List.getD_eq_getElem l 0 i.isLt

end Field

/-! ## Entropy -/

/-- No distribution has more entropy than the uniform one. -/
theorem sum_negMulLog_le {n : ℕ} (hn : 0 < n) {x : ℕ → ℝ} (hx : IsDistribution n x) :
    ∑ i ∈ range n, Real.negMulLog (x i) ≤ Real.log n := by
  obtain ⟨hnonneg, hsum⟩ := isDistribution_iff.mp hx
  have hpos : (0 : ℝ) < n := Nat.cast_pos.mpr hn
  have hjensen := Real.concaveOn_negMulLog.le_map_sum (t := range n) (w := fun _ => (n : ℝ)⁻¹)
    (p := x) (fun _ _ => inv_nonneg.mpr hpos.le)
    (by rw [sum_const, card_range, nsmul_eq_mul, mul_inv_cancel₀ hpos.ne'])
    (fun i hi => hnonneg i (mem_range.mp hi))
  simp only [smul_eq_mul] at hjensen
  rw [← mul_sum, ← mul_sum, hsum, mul_one, Real.negMulLog, Real.log_inv, neg_mul_neg] at hjensen
  exact le_of_mul_le_mul_left hjensen (inv_pos.mpr hpos)

theorem sum_negMulLog_nonneg {n : ℕ} {x : ℕ → ℝ} (hx : IsDistribution n x) :
    0 ≤ ∑ i ∈ range n, Real.negMulLog (x i) :=
  sum_nonneg fun i hi =>
    have hi := mem_range.mp hi
    Real.negMulLog_nonneg ((isDistribution_iff.mp hx).1 i hi)
      (mem_Icc_of_mem_stdSimplex hx ⟨i, hi⟩).2

end Vsid
