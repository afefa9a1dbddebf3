import Mathlib.Data.List.Induction
import Mathlib.Data.List.Perm.Basic
import Mathlib.Order.Defs.Unbundled

/-!
# The first minimum of a list

A loop that holds the best candidate so far and gives it up only for a strictly better one ends with
the first of those that cost least. `FirstMin` says so without a loop; the costs are in any strict
order, which has to compare those of the list only (`AllComparable`). What the first minimum costs
does not depend on the order of the list (`FirstMin.cost_eq`).
-/

set_option autoImplicit false

namespace Vsid

variable {α β : Type*} [LT α] {cost : β → α}

/-- `b` is in the list, nothing costs less, and all that stands before it costs more. -/
def FirstMin (cost : β → α) (xs : List β) (b : β) : Prop :=
  ∃ before after, xs = before ++ b :: after ∧ (∀ x ∈ before, cost b < cost x) ∧
    ∀ x ∈ after, ¬ cost x < cost b

/-- Any two of the costs in the list are comparable. -/
def AllComparable (cost : β → α) (xs : List β) : Prop :=
  ∀ x ∈ xs, ∀ y ∈ xs, cost x < cost y ∨ cost x = cost y ∨ cost y < cost x

theorem AllComparable.mono {xs ys : List β} (h : AllComparable cost ys) (hsub : ∀ x ∈ xs, x ∈ ys) :
    AllComparable cost xs := fun x hx y hy => h x (hsub x hx) y (hsub y hy)

/-- The candidate is taken if it costs strictly less. -/
def keepBetter [DecidableLT α] (cost : β → α) (best x : β) : β :=
  if cost x < cost best then x else best

namespace FirstMin

theorem singleton (b : β) : FirstMin cost [b] b :=
  ⟨[], [], rfl, fun _ hx => absurd hx List.not_mem_nil, fun _ hx => absurd hx List.not_mem_nil⟩

theorem mem {xs : List β} {b : β} (h : FirstMin cost xs b) : b ∈ xs := by
  obtain ⟨before, after, rfl, -, -⟩ := h
  exact List.mem_append_right before List.mem_cons_self

variable [IsStrictOrder α (· < ·)]

theorem not_lt {xs : List β} {b x : β} (h : FirstMin cost xs b) (hx : x ∈ xs) :
    ¬ cost x < cost b := by
  obtain ⟨before, after, rfl, hbefore, hafter⟩ := h
  rcases List.mem_append.mp hx with hx | hx
  · exact fun hlt => asymm_of (· < ·) hlt (hbefore x hx)
  · rcases List.mem_cons.mp hx with rfl | hx
    · exact irrefl_of (· < ·) (cost x)
    · exact hafter x hx

/-- One more candidate. -/
theorem append [DecidableLT α] {xs : List β} {b : β} (h : FirstMin cost xs b)
    (hall : AllComparable cost xs) (x : β) :
    FirstMin cost (xs ++ [x]) (keepBetter cost b x) := by
  unfold keepBetter
  by_cases hlt : cost x < cost b
  · rw [if_pos hlt]
    refine ⟨xs, [], rfl, fun y hy => ?_, fun _ hy => absurd hy List.not_mem_nil⟩
    rcases hall y hy b h.mem with hyb | hyb | hby
    · exact absurd hyb (h.not_lt hy)
    · rw [hyb]
      exact hlt
    · exact trans_of (· < ·) hlt hby
  · rw [if_neg hlt]
    obtain ⟨before, after, rfl, hbefore, hafter⟩ := h
    refine ⟨before, after ++ [x], by rw [List.append_assoc, List.cons_append], hbefore, ?_⟩
    intro y hy
    rcases List.mem_append.mp hy with hy | hy
    · exact hafter y hy
    · rw [List.mem_singleton.mp hy]
      exact hlt

/-- **The loop ends with the first minimum.** -/
theorem foldl [DecidableLT α] {best : β} {xs : List β} (hall : AllComparable cost (best :: xs)) :
    FirstMin cost (best :: xs) (xs.foldl (keepBetter cost) best) := by
  induction xs using List.reverseRecOn with
  | nil => exact singleton best
  | append_singleton xs x ih =>
    have hfront : AllComparable cost (best :: xs) := by
      apply hall.mono
      intro y hy
      rw [← List.cons_append]
      exact List.mem_append_left [x] hy
    rw [List.foldl_append, ← List.cons_append]
    exact (ih hfront).append hfront x

/-- Lists with the same costs have minima of one cost. -/
theorem cost_eq {xs ys : List β} {b c : β} (hb : FirstMin cost xs b) (hc : FirstMin cost ys c)
    (hall : AllComparable cost xs) (hperm : (xs.map cost).Perm (ys.map cost)) :
    cost b = cost c := by
  have hnot : ∀ {xs ys : List β} {b c : β}, FirstMin cost xs b → FirstMin cost ys c →
      (xs.map cost).Perm (ys.map cost) → ¬ cost b < cost c := by
    intro xs ys b c hb hc hperm
    obtain ⟨y, hy, hcost⟩ := List.mem_map.mp (hperm.mem_iff.mp (List.mem_map_of_mem hb.mem))
    rw [← hcost]
    exact hc.not_lt hy
  obtain ⟨x, hx, hcost⟩ := List.mem_map.mp (hperm.mem_iff.mpr (List.mem_map_of_mem hc.mem))
  have hcompared := hall b hb.mem x hx
  rw [hcost] at hcompared
  rcases hcompared with hlt | heq | hlt
  · exact absurd hlt (hnot hb hc hperm)
  · exact heq
  · exact absurd hlt (hnot hc hb hperm.symm)

end FirstMin

end Vsid
