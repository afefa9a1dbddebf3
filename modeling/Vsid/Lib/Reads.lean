import Mathlib.Logic.Basic

/-!
# Programs that read memory

A `Reads` program asks for the contents of addresses, one after the other, and ends with a result.
Run on a memory it has a result and a trace, the addresses that it asked for. `Within` says that the
trace stays in a set of addresses; a program that stays there cannot tell two memories apart that
agree on the set (`run_congr`).
-/

namespace Vsid

/-- A program that reads bytes `B` at addresses `A` and returns an `α`. -/
inductive Reads (A B α : Type) where
  | done (result : α)
  | read (address : A) (next : B → Reads A B α)

namespace Reads

variable {A B α β : Type}

/-- One byte. -/
def byte (address : A) : Reads A B B := .read address .done

/-- Going on with the result of a program. -/
def bind (prog : Reads A B α) (next : α → Reads A B β) : Reads A B β :=
  match prog with
  | .done result => next result
  | .read address rest => .read address fun b => (rest b).bind next

instance : Monad (Reads A B) where
  pure := .done
  bind := Reads.bind

/-- The result of a program. -/
def run (mem : A → B) : Reads A B α → α
  | .done result => result
  | .read address next => (next (mem address)).run mem

/-- The addresses that a program reads. -/
def trace (mem : A → B) : Reads A B α → List A
  | .done _ => []
  | .read address next => address :: (next (mem address)).trace mem

/-- Every read is in the set. -/
def Within (inside : A → Prop) (mem : A → B) (prog : Reads A B α) : Prop :=
  ∀ address ∈ prog.trace mem, inside address

/-- A program for each item, one after the other. -/
def each {I : Type} (prog : I → Reads A B α) : List I → Reads A B (List α)
  | [] => pure []
  | i :: rest => do
    let result ← prog i
    let results ← each prog rest
    pure (result :: results)

section Laws

variable (mem : A → B)

@[simp] theorem run_pure (result : α) : run mem (pure result) = result := rfl

@[simp] theorem trace_pure (result : α) : trace mem (pure result : Reads A B α) = [] := rfl

@[simp] theorem run_byte (address : A) : run mem (byte address) = mem address := rfl

@[simp] theorem trace_byte (address : A) : trace mem (byte address) = [address] := rfl

@[simp] theorem run_bind (prog : Reads A B α) (next : α → Reads A B β) :
    run mem (prog >>= next) = run mem (next (run mem prog)) := by
  induction prog with
  | done result => rfl
  | read address rest ih => exact ih (mem address)

@[simp] theorem trace_bind (prog : Reads A B α) (next : α → Reads A B β) :
    trace mem (prog >>= next) = trace mem prog ++ trace mem (next (run mem prog)) := by
  induction prog with
  | done result => rfl
  | read address rest ih => exact congrArg (address :: ·) (ih (mem address))

@[simp] theorem run_each {I : Type} (prog : I → Reads A B α) (items : List I) :
    run mem (each prog items) = items.map fun i => run mem (prog i) := by
  induction items with
  | nil => rfl
  | cons i rest ih =>
    unfold each
    simp only [run_bind, run_pure, ih, List.map_cons]

end Laws

section Within

variable {inside : A → Prop} {mem : A → B}

@[simp] theorem within_pure (result : α) : Within inside mem (pure result : Reads A B α) := by
  intro address h
  cases h

@[simp] theorem within_byte (address : A) : Within inside mem (byte address) ↔ inside address := by
  unfold Within
  rw [trace_byte, List.forall_mem_singleton]

@[simp] theorem within_bind (prog : Reads A B α) (next : α → Reads A B β) :
    Within inside mem (prog >>= next) ↔
      Within inside mem prog ∧ Within inside mem (next (run mem prog)) := by
  unfold Within
  rw [trace_bind, List.forall_mem_append]

@[simp] theorem within_each {I : Type} (prog : I → Reads A B α) (items : List I) :
    Within inside mem (each prog items) ↔ ∀ i ∈ items, Within inside mem (prog i) := by
  induction items with
  | nil => simp [each]
  | cons i rest ih =>
    unfold each
    simp only [within_bind, ih, within_pure, and_true, List.forall_mem_cons]

/-- **What a program does depends on what it reads.** -/
theorem run_congr {mem' : A → B} {prog : Reads A B α} (h : Within inside mem prog)
    (hsame : ∀ address, inside address → mem address = mem' address) :
    run mem prog = run mem' prog ∧ trace mem prog = trace mem' prog := by
  induction prog with
  | done result => exact ⟨rfl, rfl⟩
  | read address next ih =>
    have haddress := hsame address (h address List.mem_cons_self)
    obtain ⟨hrun, htrace⟩ := ih (mem address) fun a ha => h a (List.mem_cons_of_mem address ha)
    constructor
    · show run mem (next (mem address)) = run mem' (next (mem' address))
      rw [hrun, haddress]
    · show address :: trace mem (next (mem address)) = address :: trace mem' (next (mem' address))
      rw [htrace, haddress]

end Within

end Reads

end Vsid
