import Mathlib.Logic.Function.Basic

/-!
# Mixing words

A hash that folds a list of words into a state keeps apart two lists that differ in one word, when
each step loses nothing of the state and nothing of the word (`Mixes.foldl_ne`). The steps that such
hashes are made of lose nothing: a rotation, an exclusive or with a shift of the word itself, a
product with a unit, and whatever is composed of these.
-/

set_option autoImplicit false

namespace Vsid

/-- A step that loses nothing of the state and nothing of the word. -/
structure Mixes {σ κ : Type*} (step : σ → κ → σ) : Prop where
  state : ∀ k, Function.Injective fun s => step s k
  word : ∀ s, Function.Injective (step s)

namespace Mixes

variable {σ κ : Type*} {step : σ → κ → σ}

/-- A fold of such steps loses nothing of the state it starts from. -/
theorem foldl_injective (h : Mixes step) (words : List κ) :
    Function.Injective fun s => words.foldl step s := by
  induction words with
  | nil => exact fun _ _ heq => heq
  | cons k words ih =>
    intro s t heq
    exact h.state k (ih heq)

/-- **Lists that differ in one word are kept apart.** -/
theorem foldl_ne (h : Mixes step) {k l : κ} (hne : k ≠ l) (before after : List κ) (s : σ) :
    (before ++ k :: after).foldl step s ≠ (before ++ l :: after).foldl step s := by
  intro heq
  rw [List.foldl_append, List.foldl_append, List.foldl_cons, List.foldl_cons] at heq
  exact hne (h.word _ (h.foldl_injective after heq))

end Mixes

/-! ## Steps on words of `w` bits -/

variable {w : Nat}

/-- The bit `i` of a word is the bit `i + r` of the word rotated by `r`. -/
theorem getLsbD_rotateLeft_add {r i : Nat} (hr : r < w) (hi : i < w) (x : BitVec w) :
    (x.rotateLeft r).getLsbD ((i + r) % w) = x.getLsbD i := by
  rw [BitVec.getLsbD_rotateLeft_of_le hr]
  by_cases h : i + r < w
  · have hlow : ¬ i + r < r := by omega
    rw [Nat.mod_eq_of_lt h, decide_eq_false hlow, cond_false, decide_eq_true h, Bool.true_and,
      Nat.add_sub_cancel]
  · have hmod : (i + r) % w = i + r - w := by
      rw [Nat.mod_eq_sub_mod (Nat.not_lt.mp h), Nat.mod_eq_of_lt (by omega)]
    have hwrapped : i + r - w < r := by omega
    have hback : w - r + (i + r - w) = i := by omega
    rw [hmod, decide_eq_true hwrapped, cond_true, hback]

theorem rotateLeft_injective {r : Nat} (hr : r < w) :
    Function.Injective fun x : BitVec w => x.rotateLeft r := by
  intro x y hxy
  apply BitVec.eq_of_getLsbD_eq
  intro i hi
  rw [← getLsbD_rotateLeft_add hr hi x, ← getLsbD_rotateLeft_add hr hi y]
  exact congrArg (fun z => z.getLsbD ((i + r) % w)) hxy

/-- The highest bits are left as they are, and each lower bit is found from a higher one. -/
theorem xorShift_injective {r : Nat} (hr : 0 < r) :
    Function.Injective fun x : BitVec w => x ^^^ (x >>> r) := by
  intro x y hxy
  have hbit : ∀ i, (x.getLsbD i ^^ x.getLsbD (r + i)) = (y.getLsbD i ^^ y.getLsbD (r + i)) := by
    intro i
    have hi := congrArg (fun z => z.getLsbD i) hxy
    simpa only [BitVec.getLsbD_xor, BitVec.getLsbD_ushiftRight] using hi
  -- downwards from the top: `n` is the number of the bits above
  have hall : ∀ n i, w ≤ i + n → x.getLsbD i = y.getLsbD i := by
    intro n
    induction n with
    | zero =>
      intro i hi
      rw [BitVec.getLsbD_of_ge x i hi, BitVec.getLsbD_of_ge y i hi]
    | succ n ih =>
      intro i hi
      have hhigher := ih (r + i) (by omega)
      have hhere := hbit i
      rw [hhigher] at hhere
      exact Bool.xor_left_inj.mp hhere
  exact BitVec.eq_of_getLsbD_eq fun i _ => hall w i (Nat.le_add_left w i)

theorem xor_injective (mask : BitVec w) : Function.Injective fun x : BitVec w => x ^^^ mask :=
  fun _ _ h => (BitVec.xor_left_inj mask).mp h

/-- Multiplying by a unit. -/
theorem mul_unit_injective {c d : BitVec w} (hunit : c * d = 1#w) :
    Function.Injective fun x : BitVec w => x * c := by
  intro x y hxy
  have h := congrArg (· * d) hxy
  simpa only [BitVec.mul_assoc, hunit, BitVec.mul_one] using h

end Vsid
