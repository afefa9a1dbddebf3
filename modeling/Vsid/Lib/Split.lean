import Mathlib.Data.List.Basic

/-!
# Cutting a text at a separator

`split` cuts a list at every occurrence of a separator, from the left and without overlap, as
`str.split` of Python does. The pieces with the separator between them are the list again
(`intercalate_split`). A text that is put together from pieces is cut into these pieces, if the
separator is nowhere but between them (`split_append`).
-/

set_option autoImplicit false

namespace Vsid

variable {α : Type*}

theorem intercalate_modifyHead {separator : List α} {pieces : List (List α)} (h : pieces ≠ [])
    (x : α) : separator.intercalate (pieces.modifyHead (x :: ·)) =
      x :: separator.intercalate pieces := by
  cases pieces with
  | nil => exact absurd rfl h
  | cons piece rest =>
    rw [List.modifyHead_cons]
    cases rest with
    | nil => rw [List.intercalate_singleton, List.intercalate_singleton]
    | cons piece' rest =>
      rw [List.intercalate_cons_cons, List.intercalate_cons_cons]
      rfl

variable [DecidableEq α]

/-- `split`, when the next `skip` items belong to a separator. -/
def splitFrom (separator : List α) : Nat → List α → List (List α)
  | _, [] => [[]]
  | skip + 1, _ :: xs => splitFrom separator skip xs
  | 0, x :: xs =>
    if separator.isPrefixOf (x :: xs) then [] :: splitFrom separator (separator.length - 1) xs
    else (splitFrom separator 0 xs).modifyHead (x :: ·)

/-- `text.split(separator)`. -/
def split (separator text : List α) : List (List α) := splitFrom separator 0 text

theorem splitFrom_ne_nil (separator : List α) (skip : Nat) (text : List α) :
    splitFrom separator skip text ≠ [] := by
  induction text generalizing skip with
  | nil => exact List.cons_ne_nil _ _
  | cons x xs ih =>
    cases skip with
    | succ skip => exact ih skip
    | zero =>
      unfold splitFrom
      split
      · exact List.cons_ne_nil _ _
      · intro h
        exact ih 0 (List.modifyHead_eq_nil_iff.mp h)

theorem intercalate_splitFrom {separator : List α} (hne : separator ≠ []) (skip : Nat)
    (text : List α) :
    separator.intercalate (splitFrom separator skip text) = text.drop skip := by
  induction text generalizing skip with
  | nil => rw [List.drop_nil, splitFrom, List.intercalate_singleton]
  | cons x xs ih =>
    cases skip with
    | succ skip => exact ih skip
    | zero =>
      unfold splitFrom
      split
      next hprefix =>
        obtain ⟨rest, hrest⟩ := List.isPrefixOf_iff_prefix.mp hprefix
        rw [List.intercalate_cons_of_ne_nil (splitFrom_ne_nil _ _ _), ih, List.nil_append,
          List.drop_zero]
        cases separator with
        | nil => exact absurd rfl hne
        | cons y separator =>
          obtain ⟨rfl, rfl⟩ := List.cons.inj hrest
          rw [List.length_cons, Nat.add_sub_cancel, List.append_eq, List.drop_left]
          rfl
      next =>
        rw [intercalate_modifyHead (splitFrom_ne_nil _ _ _), ih]
        rfl

/-- **The pieces with the separator between them are the text.** -/
theorem intercalate_split {separator : List α} (hne : separator ≠ []) (text : List α) :
    separator.intercalate (split separator text) = text :=
  intercalate_splitFrom hne 0 text

/-! ## A text made of pieces -/

omit [DecidableEq α] in
theorem not_prefix_of_not_mem {c : α} {piece : List α} (h : c ∉ piece) (rest : List α) {i : ℕ}
    (hi : i < piece.length) : ¬ [c] <+: (piece ++ rest).drop i := by
  intro hprefix
  rw [List.drop_append_of_le_length (Nat.le_of_lt hi), List.drop_eq_getElem_cons hi,
    List.cons_append] at hprefix
  have hhead := (List.cons_prefix_cons.mp hprefix).1
  exact h (hhead ▸ List.getElem_mem hi)

/-- The separator is found where it is first. -/
theorem split_append {separator : List α} (hne : separator ≠ []) (piece rest : List α)
    (h : ∀ i < piece.length, ¬ separator <+: (piece ++ separator ++ rest).drop i) :
    split separator (piece ++ separator ++ rest) = piece :: split separator rest := by
  induction piece with
  | nil =>
    obtain ⟨y, ys, rfl⟩ := List.exists_cons_of_ne_nil hne
    have hprefix : (y :: ys).isPrefixOf (y :: (ys ++ rest)) = true :=
      List.isPrefixOf_iff_prefix.mpr (List.prefix_append (y :: ys) rest)
    have hskip : ∀ xs : List α,
        splitFrom (y :: ys) xs.length (xs ++ rest) = split (y :: ys) rest := by
      intro xs
      induction xs with
      | nil => rfl
      | cons x xs ih => exact ih
    show splitFrom (y :: ys) 0 (y :: (ys ++ rest)) = _
    unfold splitFrom
    rw [if_pos hprefix]
    exact congrArg ([] :: ·) (hskip ys)
  | cons x piece ih =>
    have hhead : separator.isPrefixOf (x :: (piece ++ separator ++ rest)) ≠ true := fun hprefix =>
      h 0 (Nat.zero_lt_succ _) (List.isPrefixOf_iff_prefix.mp hprefix)
    have hrest := ih fun i hi => h (i + 1) (Nat.succ_lt_succ hi)
    show splitFrom separator 0 (x :: (piece ++ separator ++ rest)) = _
    unfold splitFrom
    rw [if_neg hhead]
    exact congrArg (List.modifyHead (x :: ·)) hrest

/-- Before the rest of a text there is a piece in which no separator begins. -/
theorem split_clean_append {separator : List α} (piece rest : List α)
    (h : ∀ i < piece.length, ¬ separator <+: (piece ++ rest).drop i) :
    split separator (piece ++ rest) = (split separator rest).modifyHead (piece ++ ·) := by
  induction piece with
  | nil =>
    obtain ⟨head, tail, hsplit⟩ := List.exists_cons_of_ne_nil (splitFrom_ne_nil separator 0 rest)
    rw [List.nil_append, split, hsplit]
    rfl
  | cons x piece ih =>
    have hhead : separator.isPrefixOf (x :: (piece ++ rest)) ≠ true := fun hprefix =>
      h 0 (Nat.zero_lt_succ _) (List.isPrefixOf_iff_prefix.mp hprefix)
    have hrest := ih fun i hi => h (i + 1) (Nat.succ_lt_succ hi)
    show splitFrom separator 0 (x :: (piece ++ rest)) = _
    unfold splitFrom
    rw [if_neg hhead]
    change (split separator (piece ++ rest)).modifyHead (x :: ·) = _
    rw [hrest, List.modifyHead_modifyHead]
    rfl

omit [DecidableEq α] in
/-- A separator does not begin in a piece without it that ends in something else. -/
theorem not_prefix_of_closed {separator front : List α} {c : α} (hc : c ∉ separator)
    (hclean : ¬ separator <:+: front ++ [c]) (rest : List α) {i : ℕ}
    (hi : i < (front ++ [c]).length) : ¬ separator <+: (front ++ [c] ++ rest).drop i := by
  rintro ⟨tail, htail⟩
  rw [List.drop_append_of_le_length (Nat.le_of_lt hi)] at htail
  rcases List.append_eq_append_iff.mp htail with ⟨after, hdrop, -⟩ | ⟨after, hseparator, -⟩
  · refine hclean (List.IsInfix.trans ?_ (List.drop_suffix i _).isInfix)
    rw [hdrop]
    exact (List.prefix_append separator after).isInfix
  · refine hc ?_
    have hle : i ≤ front.length := by
      rw [List.length_append, List.length_singleton] at hi
      exact Nat.lt_succ_iff.mp hi
    rw [hseparator, List.drop_append_of_le_length hle]
    exact List.mem_append_left _ (List.mem_append_right _ (List.mem_singleton_self c))

/-- **A text in which every piece has the separator in front.** -/
theorem split_flatMap {separator : List α} (hne : separator ≠ []) {pieces : List (List α)}
    (h : ∀ piece ∈ pieces, ∀ rest : List α, ∀ i < piece.length,
      ¬ separator <+: (piece ++ rest).drop i) :
    split separator (pieces.flatMap (separator ++ ·)) = [] :: pieces := by
  induction pieces with
  | nil => rfl
  | cons piece pieces ih =>
    obtain ⟨hpiece, hpieces⟩ := List.forall_mem_cons.mp h
    have hfirst := split_append hne [] (piece ++ pieces.flatMap (separator ++ ·)) fun i hi =>
      absurd hi (Nat.not_lt_zero i)
    rw [List.nil_append] at hfirst
    rw [List.flatMap_cons, List.append_assoc, hfirst, split_clean_append piece _ (hpiece _),
      ih hpieces, List.modifyHead_cons, List.append_nil]

/-- A text without the separator is one piece. -/
theorem split_of_clean {separator : List α} {text : List α}
    (h : ∀ i < text.length, ¬ separator <+: text.drop i) : split separator text = [text] := by
  induction text with
  | nil => rfl
  | cons x text ih =>
    have hhead : separator.isPrefixOf (x :: text) ≠ true := fun hprefix =>
      h 0 (Nat.zero_lt_succ _) (List.isPrefixOf_iff_prefix.mp hprefix)
    have hrest := ih fun i hi => h (i + 1) (Nat.succ_lt_succ hi)
    show splitFrom separator 0 (x :: text) = _
    unfold splitFrom
    rw [if_neg hhead]
    exact congrArg (List.modifyHead (x :: ·)) hrest

/-- A separator of one character. -/
theorem split_cons {c : α} {piece : List α} (h : c ∉ piece) (rest : List α) :
    split [c] (piece ++ c :: rest) = piece :: split [c] rest := by
  have hcut := split_append (List.cons_ne_nil c []) piece rest fun i hi => by
    rw [List.append_assoc]
    exact not_prefix_of_not_mem h _ hi
  rwa [List.append_assoc] at hcut

theorem split_of_not_mem {c : α} {text : List α} (h : c ∉ text) : split [c] text = [text] := by
  refine split_of_clean fun i hi hprefix => ?_
  refine not_prefix_of_not_mem h [] hi ?_
  rwa [List.append_nil]

end Vsid
