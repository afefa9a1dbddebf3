import Mathlib.Data.List.Count
import Mathlib.Data.List.GetD
import Mathlib.Data.List.Induction
import Mathlib.Data.Nat.Cast.Defs

/-!
# Counts

Counters in a list, of which some are moved by one. What a counter shows afterwards is how often it
was among them (`getD_increment`). The last part is about the neighbours in a list, and how often it
changes.
-/

set_option autoImplicit false

namespace Vsid

variable {K : Type*} [AddMonoidWithOne K]

/-- The counters at the positions grow by one, as often as they are listed. -/
def increment (counters : List K) (positions : List ℕ) : List K :=
  positions.foldl (fun counters i => counters.modify i (· + 1)) counters

@[simp] theorem increment_nil (counters : List K) : increment counters [] = counters := rfl

theorem increment_cons (counters : List K) (i : ℕ) (positions : List ℕ) :
    increment counters (i :: positions) = increment (counters.modify i (· + 1)) positions := rfl

theorem increment_append (counters : List K) (positions more : List ℕ) :
    increment counters (positions ++ more) = increment (increment counters positions) more :=
  List.foldl_append

/-- A list of blocks is worked off block by block. -/
theorem foldl_increment {ι : Type*} (blocks : List ι) (positions : ι → List ℕ) (counters : List K) :
    blocks.foldl (fun counters b => increment counters (positions b)) counters =
      increment counters (blocks.flatMap positions) := by
  induction blocks generalizing counters with
  | nil => rfl
  | cons b blocks ih => rw [List.foldl_cons, ih, List.flatMap_cons, increment_append]

theorem getD_modify {counters : List K} {i : ℕ} (hi : i < counters.length) (j : ℕ) :
    (counters.modify j (· + 1)).getD i 0 = counters.getD i 0 + if j = i then 1 else 0 := by
  rw [List.getD_eq_getElem _ _ (by rwa [List.length_modify]), List.getElem_modify,
    List.getD_eq_getElem _ _ hi]
  split
  · rfl
  · exact (add_zero _).symm

/-- **A counter shows how often it was listed.** -/
theorem getD_increment {counters : List K} {i : ℕ} (hi : i < counters.length)
    (positions : List ℕ) :
    (increment counters positions).getD i 0 = counters.getD i 0 + (positions.count i : K) := by
  induction positions generalizing counters with
  | nil => rw [increment_nil, List.count_nil, Nat.cast_zero, add_zero]
  | cons j positions ih =>
    rw [increment_cons, ih (by rwa [List.length_modify]), getD_modify hi, List.count_cons,
      Nat.add_comm, Nat.cast_add, add_assoc]
    congr 2
    by_cases hj : j = i
    · rw [if_pos hj, if_pos (beq_iff_eq.mpr hj), Nat.cast_one]
    · rw [if_neg hj, if_neg (fun h => hj (beq_iff_eq.mp h)), Nat.cast_zero]

/-- What each block lists once or not at all is listed as often as there are blocks that do. -/
theorem count_flatMap_eq_countP {ι : Type*} {blocks : List ι} {positions : ι → List ℕ} {i : ℕ}
    {p : ι → Bool} (h : ∀ b, (positions b).count i = if p b then 1 else 0) :
    (blocks.flatMap positions).count i = blocks.countP p := by
  induction blocks with
  | nil => rfl
  | cons b blocks ih =>
    rw [List.flatMap_cons, List.count_append, h, ih, List.countP_cons, Nat.add_comm]

/-! ## Neighbours -/

/-- The consecutive pairs of a list. -/
def neighbours {α : Type*} (l : List α) : List (α × α) := l.zip l.tail

theorem neighbours_concat {α : Type*} (l : List α) (a : α) :
    neighbours (l ++ [a]) = neighbours l ++ (l.getLast?.map fun b => (b, a)).toList := by
  unfold neighbours
  induction l with
  | nil => rfl
  | cons b l ih =>
    cases l with
    | nil => rfl
    | cons c l =>
      rw [List.getLast?_cons_cons]
      exact congrArg ((b, c) :: ·) ih

/-- How often a list changes, its first item included. -/
def changes {α : Type*} [DecidableEq α] : List α → ℕ
  | [] => 0
  | a :: l => 1 + (neighbours (a :: l)).countP fun pair => pair.1 != pair.2

theorem changes_concat {α : Type*} [DecidableEq α] (l : List α) (a : α) :
    changes (l ++ [a]) = changes l + if l.getLast? = some a then 0 else 1 := by
  cases l with
  | nil => rfl
  | cons b l =>
    rw [List.cons_append, changes, changes, ← List.cons_append, neighbours_concat,
      List.countP_append, Nat.add_assoc, List.getLast?_cons, Option.map_some, Option.toList_some,
      List.countP_singleton]
    by_cases h : l.getLast?.getD b = a
    · rw [if_neg (fun hne => bne_iff_ne.mp hne h), if_pos (congrArg some h)]
    · rw [if_pos (bne_iff_ne.mpr h), if_neg (fun heq => h (Option.some.inj heq))]

theorem changes_le_length {α : Type*} [DecidableEq α] (l : List α) : changes l ≤ l.length := by
  induction l using List.reverseRecOn with
  | nil => exact Nat.le_refl 0
  | append_singleton l a ih =>
    rw [changes_concat, List.length_append, List.length_singleton]
    split <;> omega

end Vsid
