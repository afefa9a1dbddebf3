import Mathlib.Data.UInt
import Vsid.Lib.Fallible

/-!
# Steps that are not checked

Indexing without a test of the bounds, additions in eight bits and loops without a bound, as programs
that name the fault instead of going on: `Except Fault`. A program that returns a value has done none
of these. A loop with an invariant and a rank that falls ends (`loop_ok`, `doWhile_ok`).
-/

set_option autoImplicit false

namespace Vsid

/-- What goes wrong without a check. -/
inductive Fault where
  | outOfBounds (index : Nat)
  | overflow
  | endless
deriving DecidableEq, Repr

namespace Checked

variable {α σ : Type*}

/-- `xs[i]`. -/
def read (xs : List α) (i : Nat) : Except Fault α :=
  match xs[i]? with
  | some x => .ok x
  | none => .error (.outOfBounds i)

/-- `xs[i] = f(xs[i])`. -/
def modify (xs : List α) (i : Nat) (f : α → α) : Except Fault (List α) :=
  if i < xs.length then .ok (xs.modify i f) else .error (.outOfBounds i)

/-- `a + b` in eight bits. -/
def addByte (a b : UInt8) : Except Fault UInt8 :=
  if a.toNat + b.toNat < 256 then .ok (a + b) else .error .overflow

/-- `while (again) body`, with a bound on the number of tests. -/
def loop (again : σ → Bool) (body : σ → Except Fault σ) : Nat → σ → Except Fault σ
  | 0, _ => .error .endless
  | fuel + 1, s =>
    if again s then
      match body s with
      | .ok s' => loop again body fuel s'
      | .error e => .error e
    else .ok s

/-- `do body while (again)`, with a bound on the number of rounds. -/
def doWhile (body : σ → Except Fault σ) (again : σ → Bool) : Nat → σ → Except Fault σ
  | 0, _ => .error .endless
  | fuel + 1, s =>
    match body s with
    | .ok s' => if again s' then doWhile body again fuel s' else .ok s'
    | .error e => .error e

theorem read_eq_ok {xs : List α} {i : Nat} (hi : i < xs.length) : read xs i = .ok xs[i] := by
  unfold read
  rw [List.getElem?_eq_getElem hi]

theorem modify_eq_ok {xs : List α} {i : Nat} (hi : i < xs.length) (f : α → α) :
    modify xs i f = .ok (xs.modify i f) := if_pos hi

theorem addByte_eq_ok {a b : UInt8} (h : a.toNat + b.toNat < 256) :
    addByte a b = .ok (a + b) ∧ (a + b).toNat = a.toNat + b.toNat := by
  refine ⟨if_pos h, ?_⟩
  rw [UInt8.toNat_add]
  exact Nat.mod_eq_of_lt h

variable {again : σ → Bool} {body : σ → Except Fault σ}

/-- **A loop whose rank falls ends**, and its invariant holds then. -/
theorem loop_ok (I : σ → Prop) (rank : σ → Nat)
    (hbody : ∀ s, I s → again s = true → ∃ s', body s = .ok s' ∧ I s' ∧ rank s' < rank s)
    {fuel : Nat} {s : σ} (h : I s) (hfuel : rank s < fuel) :
    ∃ s', loop again body fuel s = .ok s' ∧ I s' ∧ again s' = false := by
  induction fuel generalizing s with
  | zero => exact absurd hfuel (Nat.not_lt_zero _)
  | succ fuel ih =>
    unfold loop
    cases hagain : again s with
    | false => exact ⟨s, rfl, h, hagain⟩
    | true =>
      obtain ⟨s', hok, hI, hrank⟩ := hbody s h hagain
      rw [if_pos rfl, hok]
      exact ih hI (by omega)

/-- … and so does one that tests at the end. -/
theorem doWhile_ok (I Q : σ → Prop) (rank : σ → Nat)
    (hbody : ∀ s, I s → ∃ s', body s = .ok s' ∧
      (again s' = true → I s' ∧ rank s' < rank s) ∧ (again s' = false → Q s'))
    {fuel : Nat} {s : σ} (h : I s) (hfuel : rank s < fuel) :
    ∃ s', doWhile body again fuel s = .ok s' ∧ Q s' := by
  induction fuel generalizing s with
  | zero => exact absurd hfuel (Nat.not_lt_zero _)
  | succ fuel ih =>
    obtain ⟨s', hok, hmore, hend⟩ := hbody s h
    unfold doWhile
    rw [hok]
    simp only
    cases hagain : again s' with
    | false => exact ⟨s', if_neg Bool.false_ne_true, hend hagain⟩
    | true =>
      obtain ⟨hI, hrank⟩ := hmore hagain
      rw [if_pos rfl]
      exact ih hI (by omega)

end Checked

end Vsid
