import Vsid.Lib.Distribution

/-!
# The divergence of two finite distributions

`divergence b n p q` is the Kullback–Leibler divergence to the base `b`. It is not negative, and it
is zero only for equal distributions. After smoothing no weight is zero, no quotient of two weights
is larger than two, and so the divergence stays below one bit.
-/

set_option autoImplicit false

namespace Vsid

open Finset

variable {b : ℝ} {n : ℕ} {p q : ℕ → ℝ}

/-- The divergence of the first `n` weights of `p` from those of `q`, to the base `b`. -/
noncomputable def divergence (b : ℝ) (n : ℕ) (p q : ℕ → ℝ) : ℝ :=
  ∑ i ∈ range n, p i * Real.logb b (p i / q i)

/-- What a weight adds to the divergence, in nats, with the amount by which the weights differ. -/
noncomputable def excess (x y : ℝ) : ℝ :=
  x * Real.log (x / y) + y - x

theorem excess_self {x : ℝ} (hx : 0 < x) : excess x x = 0 := by
  rw [excess, div_self hx.ne', Real.log_one, mul_zero, zero_add, sub_self]

theorem excess_pos {x y : ℝ} (hx : 0 ≤ x) (hy : 0 < y) (hne : x ≠ y) : 0 < excess x y := by
  unfold excess
  rcases hx.eq_or_lt with rfl | hpos
  · rw [zero_mul, zero_add, sub_zero]
    exact hy
  · have hone : y / x ≠ 1 := fun h => hne ((div_eq_one_iff_eq hpos.ne').mp h).symm
    have hlog : Real.log (y / x) < y / x - 1 := Real.log_lt_sub_one_of_pos (div_pos hy hpos) hone
    have hmul : x * Real.log (y / x) < y - x := by
      have h := mul_lt_mul_of_pos_left hlog hpos
      rwa [mul_sub, mul_one, mul_div_cancel₀ y hpos.ne'] at h
    rw [← inv_div y x, Real.log_inv]
    linarith

theorem excess_nonneg {x y : ℝ} (hx : 0 ≤ x) (hy : 0 < y) : 0 ≤ excess x y := by
  by_cases h : x = y
  · rw [h, excess_self hy]
  · exact (excess_pos hx hy h).le

theorem excess_eq_zero_iff {x y : ℝ} (hx : 0 ≤ x) (hy : 0 < y) : excess x y = 0 ↔ x = y := by
  refine ⟨fun h => ?_, fun h => by rw [h, excess_self hy]⟩
  by_contra hne
  exact (excess_pos hx hy hne).ne' h

/-- The divergence as a sum of terms of which none is negative. -/
theorem divergence_eq (hsum : ∑ i ∈ range n, p i = ∑ i ∈ range n, q i) :
    divergence b n p q = (∑ i ∈ range n, excess (p i) (q i)) / Real.log b := by
  have hterms : ∑ i ∈ range n, excess (p i) (q i) =
      ∑ i ∈ range n, p i * Real.log (p i / q i) := by
    have hsplit : ∀ i ∈ range n, excess (p i) (q i) =
        p i * Real.log (p i / q i) + (q i - p i) := by
      intro i _
      unfold excess
      ring
    rw [sum_congr rfl hsplit, sum_add_distrib, sum_sub_distrib, hsum, sub_self, add_zero]
  rw [hterms, sum_div]
  refine sum_congr rfl fun i _ => ?_
  rw [Real.logb, mul_div_assoc]

/-- **Gibbs' inequality.** -/
theorem divergence_nonneg (hb : 1 < b) (hp : ∀ i < n, 0 ≤ p i) (hq : ∀ i < n, 0 < q i)
    (hsum : ∑ i ∈ range n, p i = ∑ i ∈ range n, q i) : 0 ≤ divergence b n p q := by
  rw [divergence_eq hsum]
  refine div_nonneg (sum_nonneg fun i hi => ?_) (Real.log_pos hb).le
  have hi := mem_range.mp hi
  exact excess_nonneg (hp i hi) (hq i hi)

/-- Only equal distributions have no divergence. -/
theorem divergence_eq_zero_iff (hb : 1 < b) (hp : ∀ i < n, 0 ≤ p i) (hq : ∀ i < n, 0 < q i)
    (hsum : ∑ i ∈ range n, p i = ∑ i ∈ range n, q i) :
    divergence b n p q = 0 ↔ ∀ i < n, p i = q i := by
  have hterm : ∀ i ∈ range n, 0 ≤ excess (p i) (q i) := fun i hi =>
    excess_nonneg (hp i (mem_range.mp hi)) (hq i (mem_range.mp hi))
  rw [divergence_eq hsum, div_eq_zero_iff, or_iff_left (Real.log_pos hb).ne',
    sum_eq_zero_iff_of_nonneg hterm]
  refine ⟨fun h i hi => ?_, fun h i hi => ?_⟩
  · exact (excess_eq_zero_iff (hp i hi) (hq i hi)).mp (h i (mem_range.mpr hi))
  · have hi := mem_range.mp hi
    exact (excess_eq_zero_iff (hp i hi) (hq i hi)).mpr (h i hi)

/-! ## Smoothed distributions -/

theorem smooth_eq (n : ℕ) (v : ℝ) : smooth n v = (v + 1) / ((n : ℝ) + 1) := by
  unfold smooth
  ring

theorem smooth_inj {v w : ℝ} : smooth n v = smooth n w ↔ v = w := by
  have hpos : (0 : ℝ) < (n : ℝ) + 1 := by positivity
  rw [smooth_eq, smooth_eq, div_left_inj' hpos.ne', add_left_inj]

/-- A quotient of smoothed weights. -/
theorem smooth_div_smooth (v w : ℝ) : smooth n v / smooth n w = (v + 1) / (w + 1) := by
  have hpos : (0 : ℝ) < (n : ℝ) + 1 := by positivity
  rw [smooth_eq, smooth_eq, div_div_div_cancel_right₀ hpos.ne']

theorem IsDistribution.le_one (h : IsDistribution n p) {i : ℕ} (hi : i < n) : p i ≤ 1 :=
  (mem_Icc_of_mem_stdSimplex h ⟨i, hi⟩).2

/-- Among several weights there is one that is not all. -/
theorem IsDistribution.exists_lt_one (h : IsDistribution n p) (hn : 2 ≤ n) :
    ∃ i < n, p i < 1 := by
  by_contra! hall
  have hone : ∀ i ∈ range n, p i = 1 := fun i hi =>
    le_antisymm (h.le_one (mem_range.mp hi)) (hall i (mem_range.mp hi))
  have hsum := (isDistribution_iff.mp h).2
  rw [sum_congr rfl hone, sum_const, card_range, nsmul_eq_mul, mul_one, Nat.cast_eq_one] at hsum
  omega

section Smoothed

variable (hp : IsDistribution n p) (hq : IsDistribution n q)
include hp hq

theorem sum_smooth_eq :
    ∑ i ∈ range n, smooth n (p i) = ∑ i ∈ range n, smooth n (q i) := by
  rw [sum_smooth_iff.mpr (isDistribution_iff.mp hp).2,
    sum_smooth_iff.mpr (isDistribution_iff.mp hq).2]

theorem divergence_smooth_nonneg (hb : 1 < b) :
    0 ≤ divergence b n (fun i => smooth n (p i)) (fun i => smooth n (q i)) := by
  refine divergence_nonneg hb (fun i hi => ?_) (fun i hi => ?_) (sum_smooth_eq hp hq)
  · exact (smooth_pos_iff.mpr (neg_one_lt_zero.trans_le ((isDistribution_iff.mp hp).1 i hi))).le
  · exact smooth_pos_iff.mpr (neg_one_lt_zero.trans_le ((isDistribution_iff.mp hq).1 i hi))

/-- Smoothing keeps different distributions apart. -/
theorem divergence_smooth_eq_zero_iff (hb : 1 < b) :
    divergence b n (fun i => smooth n (p i)) (fun i => smooth n (q i)) = 0 ↔
      ∀ i < n, p i = q i := by
  rw [divergence_eq_zero_iff hb]
  · exact forall₂_congr fun i _ => smooth_inj
  · intro i hi
    exact (smooth_pos_iff.mpr (neg_one_lt_zero.trans_le ((isDistribution_iff.mp hp).1 i hi))).le
  · intro i hi
    exact smooth_pos_iff.mpr (neg_one_lt_zero.trans_le ((isDistribution_iff.mp hq).1 i hi))
  · exact sum_smooth_eq hp hq

/-- **The divergence of smoothed distributions is less than one bit.** -/
theorem divergence_smooth_lt_one (hb : 2 ≤ b) (hn : 2 ≤ n) :
    divergence b n (fun i => smooth n (p i)) (fun i => smooth n (q i)) < 1 := by
  have hone : 1 < b := one_lt_two.trans_le hb
  have hp₀ := (isDistribution_iff.mp hp).1
  have hq₀ := (isDistribution_iff.mp hq).1
  have hpos : ∀ i < n, 0 < smooth n (p i) := fun i hi =>
    smooth_pos_iff.mpr (neg_one_lt_zero.trans_le (hp₀ i hi))
  -- no quotient is larger than two, and that of a weight below one is smaller
  have hquotient : ∀ i < n, 0 < (p i + 1) / (q i + 1) ∧ (p i + 1) / (q i + 1) ≤ p i + 1 := by
    intro i hi
    have hp₁ := hp₀ i hi
    have hq₁ := hq₀ i hi
    refine ⟨by positivity, ?_⟩
    rw [div_le_iff₀ (by positivity)]
    exact le_mul_of_one_le_right (by positivity) (by linarith)
  have hlog : ∀ i < n, Real.logb b ((p i + 1) / (q i + 1)) ≤ 1 := by
    intro i hi
    obtain ⟨hquot, hle⟩ := hquotient i hi
    rw [Real.logb_le_iff_le_rpow hone hquot, Real.rpow_one]
    linarith [hp.le_one hi]
  have hlog' : ∀ i < n, p i < 1 → Real.logb b ((p i + 1) / (q i + 1)) < 1 := by
    intro i hi hlt
    obtain ⟨hquot, hle⟩ := hquotient i hi
    rw [Real.logb_lt_iff_lt_rpow hone hquot, Real.rpow_one]
    linarith
  obtain ⟨j, hj, hlt⟩ := hp.exists_lt_one hn
  calc divergence b n (fun i => smooth n (p i)) (fun i => smooth n (q i))
      = ∑ i ∈ range n, smooth n (p i) * Real.logb b ((p i + 1) / (q i + 1)) :=
        sum_congr rfl fun i _ => by rw [smooth_div_smooth]
    _ < ∑ i ∈ range n, smooth n (p i) := by
        refine sum_lt_sum (fun i hi => ?_) ⟨j, mem_range.mpr hj, ?_⟩
        · have hi := mem_range.mp hi
          exact mul_le_of_le_one_right (hpos i hi).le (hlog i hi)
        · exact mul_lt_of_lt_one_right (hpos j hj) (hlog' j hj hlt)
    _ = 1 := sum_smooth_iff.mpr (isDistribution_iff.mp hp).2

end Smoothed

end Vsid
