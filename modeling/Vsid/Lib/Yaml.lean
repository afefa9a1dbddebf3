import Mathlib.Logic.Basic

/-!
# YAML documents as trees

What a program that reads its data from a YAML document sees of it: a tree of nodes, with the
conversions of scalars handed in. An operation that throws an exception returns `none`; a member
that a node does not have is undefined, which is no exception.

`Codec` is one pair of conversions, between a type and the text of a scalar. It promises nothing;
`Codec.Keeps` says that one value survives being written and read.
-/

set_option autoImplicit false

namespace Vsid

/-- A node. Keys that are not scalars are never asked for, and are left out. -/
inductive Yaml where
  | null
  | scalar (text : String)
  | sequence (items : List Yaml)
  | map (entries : List (String × Yaml))

/-- The conversions of a type to the text of a scalar and back. -/
structure Codec (α : Type) where
  encode : α → String
  decode : String → Option α

/-- The value is read as it was written. -/
def Codec.Keeps {α : Type} (c : Codec α) (x : α) : Prop := c.decode (c.encode x) = some x

instance {α : Type} [DecidableEq α] (c : Codec α) (x : α) : Decidable (c.Keeps x) :=
  inferInstanceAs (Decidable (_ = _))

namespace Yaml

variable {α : Type}

/-- `node[key]`: `some none` is an undefined member; a scalar cannot be asked. -/
def field : Yaml → String → Option (Option Yaml)
  | scalar _, _ => none
  | map entries, key => some (entries.lookup key)
  | _, _ => some none

/-- The elements of a walk from `begin()` to `end()`. The elements of a map are pairs, which cannot
be used as nodes. -/
def items : Yaml → Option (List Yaml)
  | sequence xs => some xs
  | map (_ :: _) => none
  | _ => some []

/-- The elements of a walk over a member; over an undefined one there are none. -/
def itemsOf : Option Yaml → Option (List Yaml)
  | none => some []
  | some node => node.items

/-- `size()`. -/
def size : Yaml → Nat
  | sequence xs => xs.length
  | map entries => entries.length
  | _ => 0

/-- `as<T>()`. -/
def as (c : Codec α) : Yaml → Option α
  | scalar text => c.decode text
  | _ => none

/-- `node[key].as<T>()` of a member that may be undefined. -/
def fieldAs (c : Codec α) (node : Yaml) (key : String) : Option (Option α) :=
  match node.field key with
  | none => none
  | some none => some none
  | some (some value) => (value.as c).map some

/-- A node that a value was assigned to. -/
def of (c : Codec α) (x : α) : Yaml := scalar (c.encode x)

/-- A node that items were pushed to: without any it is still null. -/
def pushed : List Yaml → Yaml
  | [] => null
  | xs => sequence xs

@[simp] theorem items_pushed (xs : List Yaml) : (pushed xs).items = some xs := by
  cases xs <;> rfl

@[simp] theorem size_pushed (xs : List Yaml) : (pushed xs).size = xs.length := by
  cases xs <;> rfl

theorem length_of_items {node : Yaml} {xs : List Yaml} (h : node.items = some xs) :
    xs.length = node.size := by
  unfold items at h
  split at h
  next =>
    cases h
    rfl
  next => cases h
  next hseq hmap =>
    cases h
    cases node with
    | null => rfl
    | scalar text => rfl
    | sequence xs => exact absurd rfl (hseq xs)
    | map entries =>
      cases entries with
      | nil => rfl
      | cons entry entries => exact absurd rfl (hmap entry entries)

theorem as_of {c : Codec α} {x : α} (h : c.Keeps x) : (of c x).as c = some x := h

/-- What was pushed item by item is read item by item. -/
theorem mapM_as_of {c : Codec α} {xs : List α} (h : ∀ x ∈ xs, c.Keeps x) :
    (xs.map (of c)).mapM (as c) = some xs := by
  induction xs with
  | nil => rfl
  | cons x xs ih =>
    rw [List.map_cons, List.mapM_cons, as_of (h x List.mem_cons_self),
      ih fun y hy => h y (List.mem_cons_of_mem x hy)]
    rfl

theorem fieldAs_of {c : Codec α} {x : α} (h : c.Keeps x) {entries : List (String × Yaml)}
    {key : String} (hkey : entries.lookup key = some (of c x)) :
    (map entries).fieldAs c key = some (some x) := by
  unfold fieldAs field
  simp only [hkey]
  rw [as_of h]
  rfl

end Yaml

end Vsid
