import Mathlib.Data.List.Forall2
import Vsid.Lib.Rendering
import Vsid.Lib.Yaml

/-!
# Changing a document in place

What a script does that loads a document into the dictionaries and lists of its language, changes
them in place and saves them: a member that is not there is an exception, `none`, and so is a step
into anything that has no members. Nothing here knows what a document is about.
-/

set_option autoImplicit false

namespace Vsid

namespace Yaml

/-- `node[key]` of a member that has to be there. -/
def member (node : Yaml) (key : String) : Option Yaml := (node.field key).join

/-- Assigning to a key of a dictionary: a new one comes last. -/
def assignEntry (key : String) (value : Yaml) : List (String × Yaml) → List (String × Yaml)
  | [] => [(key, value)]
  | entry :: entries =>
    if entry.1 = key then (key, value) :: entries else entry :: assignEntry key value entries

/-- `node[key] = value`. -/
def assign (node : Yaml) (key : String) (value : Yaml) : Option Yaml :=
  match node with
  | map entries => some (map (assignEntry key value entries))
  | _ => none

/-- Changing a member in place. -/
def update (key : String) (f : Yaml → Option Yaml) (node : Yaml) : Option Yaml := do
  let value ← node.member key
  let value' ← f value
  node.assign key value'

/-- The items of a `for` loop. The characters of a text and the keys of a dictionary cannot be used
as nodes, unless there are none. -/
def elements : Yaml → Option (List Yaml)
  | sequence xs => some xs
  | map [] => some []
  | scalar text => if text.isEmpty then some [] else none
  | _ => none

/-- A `for` loop that changes each item in place. -/
def updateItems (f : Yaml → Option Yaml) (node : Yaml) : Option Yaml :=
  match node with
  | sequence xs => (xs.mapM f).map sequence
  | node => node.elements.map fun _ => node

/-- `node.append(item)`. -/
def append (item : Yaml) : Yaml → Option Yaml
  | sequence xs => some (sequence (xs ++ [item]))
  | _ => none

/-- `for val in range(0, len(node)): node[val] = value`. -/
def fill (value : Yaml) : Yaml → Option Yaml
  | sequence xs => some (sequence (xs.map fun _ => value))
  | map entries => some (map ((List.range entries.length).foldl
      (fun entries val => assignEntry (Rendering.decimal val) value entries) entries))
  | scalar text => if text.isEmpty then some (scalar text) else none
  | null => none

/-- `node == text`. -/
def isText (text : String) : Yaml → Bool
  | scalar text' => text' == text
  | _ => false

/-! ## What is there afterwards -/

theorem lookup_assignEntry (key : String) (value : Yaml) (entries : List (String × Yaml))
    (key' : String) : (assignEntry key value entries).lookup key' =
      if key' = key then some value else entries.lookup key' := by
  induction entries with
  | nil =>
    rw [assignEntry, List.lookup_cons, List.lookup_nil]
    by_cases h : key' = key
    · rw [if_pos h, beq_iff_eq.mpr h]
    · rw [if_neg h, beq_eq_false_iff_ne.mpr h]
  | cons entry entries ih =>
    unfold assignEntry
    by_cases hentry : entry.1 = key
    · rw [if_pos hentry, List.lookup_cons, List.lookup_cons, hentry]
      by_cases h : key' = key
      · rw [if_pos h, beq_iff_eq.mpr h]
      · rw [if_neg h, beq_eq_false_iff_ne.mpr h]
    · rw [if_neg hentry, List.lookup_cons, ih, List.lookup_cons]
      by_cases h : key' = entry.1
      · have hne : key' ≠ key := fun heq => hentry (h.symm.trans heq)
        simp only [beq_iff_eq.mpr h, if_neg hne]
      · rw [beq_eq_false_iff_ne.mpr h]

/-- A node that has members takes assignments. -/
theorem exists_assign {node value : Yaml} {key : String} (h : node.member key = some value)
    (key' : String) (value' : Yaml) : ∃ node', node.assign key' value' = some node' := by
  cases node with
  | map entries => exact ⟨_, rfl⟩
  | null => cases h
  | scalar text => cases h
  | sequence xs => cases h

section Assign

variable {node node' value : Yaml} {key key' : String}

theorem field_assign (h : node.assign key value = some node') (key' : String) :
    node'.field key' = if key' = key then some (some value) else node.field key' := by
  cases node with
  | map entries =>
    cases h
    unfold field
    dsimp only
    rw [lookup_assignEntry]
    split <;> rfl
  | null => cases h
  | scalar text => cases h
  | sequence xs => cases h

theorem field_assign_self (h : node.assign key value = some node') :
    node'.field key = some (some value) := by
  rw [field_assign h, if_pos rfl]

theorem field_assign_ne (h : node.assign key value = some node') (hne : key' ≠ key) :
    node'.field key' = node.field key' := by
  rw [field_assign h, if_neg hne]

theorem member_assign_self (h : node.assign key value = some node') :
    node'.member key = some value := by
  rw [member, field_assign_self h]
  rfl

theorem member_assign_ne (h : node.assign key value = some node') (hne : key' ≠ key) :
    node'.member key' = node.member key' := by
  rw [member, member, field_assign_ne h hne]

theorem fieldAs_assign_self {α : Type} {c : Codec α} {x : α}
    (h : node.assign key value = some node') (hvalue : value.as c = some x) :
    node'.fieldAs c key = some (some x) := by
  unfold fieldAs
  rw [field_assign_self h]
  exact congrArg (Option.map some) hvalue

theorem fieldAs_assign_ne {α : Type} {c : Codec α} (h : node.assign key value = some node')
    (hne : key' ≠ key) : node'.fieldAs c key' = node.fieldAs c key' := by
  unfold fieldAs
  rw [field_assign_ne h hne]

end Assign

/-- A member is changed if its new value is known. -/
theorem update_eq_some {f : Yaml → Option Yaml} {node value value' : Yaml} {key : String}
    (hmember : node.member key = some value) (hf : f value = some value') :
    ∃ node', node.update key f = some node' ∧ node.assign key value' = some node' := by
  obtain ⟨node', hnode'⟩ := exists_assign hmember key value'
  refine ⟨node', ?_, hnode'⟩
  unfold update
  rw [hmember]
  exact (congrArg (Option.bind · (node.assign key)) hf).trans hnode'

end Yaml

/-- A loop over items that each stand for a value stands for the same loop over the values. -/
theorem forall₂_mapM {α β γ : Type*} {P : α → β → Prop} {Q : α → γ → Prop} {f : α → Option α}
    {g : β → γ} {xs : List α} {ys : List β} (h : List.Forall₂ P xs ys)
    (hstep : ∀ x y, P x y → ∃ x', f x = some x' ∧ Q x' (g y)) :
    ∃ xs', xs.mapM f = some xs' ∧ List.Forall₂ Q xs' (ys.map g) := by
  induction h with
  | nil => exact ⟨[], rfl, .nil⟩
  | cons hhead _ ih =>
    obtain ⟨x', hx', hnew⟩ := hstep _ _ hhead
    obtain ⟨xs', hxs', hrest⟩ := ih
    exact ⟨x' :: xs', by rw [List.mapM_cons, hx', hxs']; rfl, .cons hnew hrest⟩

/-! ## Moving an item -/

/-- `xs.insert(position, xs.pop(i))`, with the position brought into range first. -/
def moveTo {α : Type*} (xs : List α) (i : Nat) (position : Int) : List α :=
  match xs[i]? with
  | none => xs
  | some x =>
    let position := if position > xs.length then xs.length else position.toNat
    let rest := xs.take i ++ xs.drop (i + 1)
    rest.take position ++ x :: rest.drop position

/-- What is moved stays in the list, and so does the rest. -/
theorem moveTo_perm {α : Type*} (xs : List α) (i : Nat) (position : Int) :
    (moveTo xs i position).Perm xs := by
  unfold moveTo
  cases hx : xs[i]? with
  | none => exact List.Perm.refl _
  | some x =>
    dsimp only
    generalize (if position > xs.length then xs.length else position.toNat) = p
    obtain ⟨hi, rfl⟩ := List.getElem?_eq_some_iff.mp hx
    refine List.perm_middle.trans ?_
    rw [List.take_append_drop]
    refine List.perm_middle.symm.trans (List.Perm.of_eq ?_)
    rw [← List.drop_eq_getElem_cons hi, List.take_append_drop]

theorem forall₂_moveTo {α β : Type*} {P : α → β → Prop} {xs : List α} {ys : List β}
    (h : List.Forall₂ P xs ys) (i : Nat) (position : Int) :
    List.Forall₂ P (moveTo xs i position) (moveTo ys i position) := by
  have hlength := h.length_eq
  unfold moveTo
  by_cases hi : i < xs.length
  · have hi' : i < ys.length := hlength ▸ hi
    rw [List.getElem?_eq_getElem hi, List.getElem?_eq_getElem hi']
    have hrest := List.rel_append (List.forall₂_take i h) (List.forall₂_drop (i + 1) h)
    dsimp only
    rw [hlength]
    exact List.rel_append (List.forall₂_take _ hrest)
      (.cons (h.get hi hi') (List.forall₂_drop _ hrest))
  · rw [List.getElem?_eq_none (Nat.not_lt.mp hi),
      List.getElem?_eq_none (hlength ▸ Nat.not_lt.mp hi)]
    exact h

end Vsid
