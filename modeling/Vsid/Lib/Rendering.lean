import Mathlib.Data.List.Basic

/-!
# Texts that can be read back

Numbers in decimal, and fields with separators between them. A text that is put together from fields
which do not contain their separator can be taken apart again, so two of them are equal only when
all fields are.
-/

set_option autoImplicit false

namespace Vsid

namespace Rendering

/-- `%d` of a number that is not negative. -/
def decimal (n : Nat) : String := toString n

theorem decimal_inj {m n : Nat} : decimal m = decimal n ↔ m = n := by
  refine ⟨fun h => ?_, congrArg decimal⟩
  have hdigits := congrArg String.toList h
  rw [decimal, decimal, Nat.toString_eq_ofList_toDigits, Nat.toString_eq_ofList_toDigits,
    String.toList_ofList, String.toList_ofList] at hdigits
  rw [← Nat.ofDigitChars_ten_toDigits (n := m), hdigits, Nat.ofDigitChars_ten_toDigits]

/-- A decimal number has digits only. -/
theorem not_mem_decimal {c : Char} (hc : c.isDigit = false) (n : Nat) :
    c ∉ (decimal n).toList := by
  intro hmem
  rw [decimal, Nat.toString_eq_ofList_toDigits, String.toList_ofList] at hmem
  exact Bool.false_ne_true
    (hc.symm.trans (Nat.isDigit_of_mem_toDigits (by decide) (by decide) hmem))

/-- Two fields with a separator between them. -/
def join (separator : Char) (field rest : String) : String :=
  field ++ (String.singleton separator ++ rest)

theorem toList_join (separator : Char) (field rest : String) :
    (join separator field rest).toList = field.toList ++ separator :: rest.toList := by
  rw [join, String.toList_append, String.toList_append, String.toList_singleton]
  rfl

theorem append_separator_inj {α : Type} {a : α} {xs ys xs' ys' : List α} (h : a ∉ xs)
    (h' : a ∉ xs') : xs ++ a :: ys = xs' ++ a :: ys' ↔ xs = xs' ∧ ys = ys' := by
  induction xs generalizing xs' with
  | nil =>
    cases xs' with
    | nil => simp only [List.nil_append, List.cons.injEq, true_and]
    | cons x' xs' =>
      refine iff_of_false (fun heq => ?_) fun heq => by cases heq.1
      exact h' (List.mem_cons.mpr (Or.inl (List.cons.inj heq).1))
  | cons x xs ih =>
    cases xs' with
    | nil =>
      refine iff_of_false (fun heq => ?_) fun heq => by cases heq.1
      exact h (List.mem_cons.mpr (Or.inl (List.cons.inj heq).1.symm))
    | cons x' xs' =>
      rw [List.mem_cons, not_or] at h h'
      simp only [List.cons_append, List.cons.injEq, ih h.2 h'.2, and_assoc]

/-- The first separator is where the text is taken apart. -/
theorem join_inj {separator : Char} {field rest field' rest' : String}
    (h : separator ∉ field.toList) (h' : separator ∉ field'.toList) :
    join separator field rest = join separator field' rest' ↔ field = field' ∧ rest = rest' := by
  rw [← String.toList_inj, toList_join, toList_join, append_separator_inj h h', String.toList_inj,
    String.toList_inj]

theorem not_mem_join {c separator : Char} {field rest : String} (hne : c ≠ separator)
    (hfield : c ∉ field.toList) (hrest : c ∉ rest.toList) :
    c ∉ (join separator field rest).toList := by
  rw [toList_join, List.mem_append, List.mem_cons]
  rintro (hmem | hmem | hmem)
  · exact hfield hmem
  · exact hne hmem
  · exact hrest hmem

end Rendering

end Vsid
