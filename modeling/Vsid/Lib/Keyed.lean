import Mathlib.Algebra.BigOperators.Group.Finset.Basic
import Mathlib.Data.List.Range

/-!
# Keyed lists

Facts about lists whose items carry a key, and about state machines that treat the keys apart from
each other. Nothing here knows what the items are.
-/

namespace Vsid.Keyed

/-- Splitting the last hit off a filtered range. -/
theorem filter_range_last {n i : Nat} {p : Nat → Bool} (hi : i < n) (hp : p i = true)
    (hlast : ∀ j, j < n → p j = true → j ≤ i) :
    (List.range n).filter p = (List.range n).filter (fun j => p j && j != i) ++ [i] := by
  induction n with
  | zero => exact absurd hi (Nat.not_lt_zero i)
  | succ n ih =>
    rw [List.range_succ, List.filter_append, List.filter_append]
    by_cases h : i = n
    · subst h
      have hbefore : (List.range i).filter p = (List.range i).filter fun j => p j && j != i := by
        apply List.filter_congr
        intro j hj
        have hne : j ≠ i := Nat.ne_of_lt (List.mem_range.mp hj)
        rw [bne_iff_ne.mpr hne, Bool.and_true]
      rw [hbefore]
      simp only [List.filter_cons, hp, if_true, bne_self_eq_false, Bool.and_false,
        Bool.false_eq_true, if_false, List.filter_nil, List.append_nil]
    · have hlt : i < n := by omega
      have hn : p n = false := by
        cases hpn : p n with
        | false => rfl
        | true => exact absurd (hlast n (Nat.lt_succ_self n) hpn) (by omega)
      rw [ih hlt fun j hj hpj => hlast j (Nat.lt_succ_of_lt hj) hpj]
      simp only [List.filter_cons, hn, Bool.false_and, Bool.false_eq_true, if_false,
        List.filter_nil, List.append_nil]

/-- A change that keeps the key keeps the list of keys. -/
theorem map_modify {α β : Type*} {key : α → β} {f : α → α} (h : ∀ x, key (f x) = key x)
    (xs : List α) (i : Nat) : (xs.modify i f).map key = xs.map key := by
  induction xs generalizing i with
  | nil => rw [List.modify_nil]
  | cons x xs ih =>
    cases i with
    | zero => rw [List.modify_zero_cons, List.map_cons, List.map_cons, h]
    | succ i => rw [List.modify_succ_cons, List.map_cons, List.map_cons, ih]

/-- What holds of every item, and of a changed item, holds of every item after the change. -/
theorem forall_mem_modify {α : Type*} {P : α → Prop} {f : α → α} (hf : ∀ x, P x → P (f x))
    {xs : List α} (h : ∀ x ∈ xs, P x) (i : Nat) : ∀ x ∈ xs.modify i f, P x := by
  induction xs generalizing i with
  | nil =>
    rw [List.modify_nil]
    exact h
  | cons x xs ih =>
    have hrest := fun y hy => h y (List.mem_cons_of_mem x hy)
    cases i with
    | zero =>
      rw [List.modify_zero_cons]
      exact List.forall_mem_cons.mpr ⟨hf x (h x List.mem_cons_self), hrest⟩
    | succ i =>
      rw [List.modify_succ_cons]
      exact List.forall_mem_cons.mpr ⟨h x List.mem_cons_self, ih hrest i⟩

/-- A walk that succeeds gives one result an item. -/
theorem length_of_mapM {α β : Type*} {f : α → Option β} {xs : List α} {ys : List β}
    (h : xs.mapM f = some ys) : ys.length = xs.length := by
  induction xs generalizing ys with
  | nil =>
    cases h
    rfl
  | cons x xs ih =>
    rw [List.mapM_cons] at h
    obtain ⟨y, -, h⟩ := Option.bind_eq_some_iff.mp h
    obtain ⟨zs, hzs, h⟩ := Option.bind_eq_some_iff.mp h
    cases h
    rw [List.length_cons, List.length_cons, ih hzs]

/-- A walk succeeds exactly if every step does. -/
theorem mapM_eq_some {α β : Type*} {f : α → Option β} {xs : List α} {ys : List β} :
    xs.mapM f = some ys ↔ xs.map f = ys.map some := by
  induction xs generalizing ys with
  | nil =>
    rw [List.map_nil, List.nil_eq, List.map_eq_nil_iff, List.mapM_nil]
    exact Option.some_inj.trans eq_comm
  | cons x xs ih =>
    rw [List.mapM_cons, List.map_cons]
    constructor
    · intro h
      obtain ⟨y, hy, h⟩ := Option.bind_eq_some_iff.mp h
      obtain ⟨zs, hzs, h⟩ := Option.bind_eq_some_iff.mp h
      cases h
      rw [hy, ih.mp hzs, List.map_cons]
    · intro h
      obtain ⟨y, zs, rfl, hy, hzs⟩ := List.map_eq_cons_iff.mp h.symm
      rw [← hy, ih.mpr hzs.symm]
      rfl

/-- Appending what is missing. -/
theorem foldl_insert {α : Type*} [DecidableEq α] {xs : List α} (h : xs.Nodup) (acc : List α) :
    xs.foldl (fun acc x => if x ∈ acc then acc else acc ++ [x]) acc =
      acc ++ xs.filter (· ∉ acc) := by
  induction xs generalizing acc with
  | nil => exact (List.append_nil acc).symm
  | cons x xs ih =>
    obtain ⟨hx, hxs⟩ := List.nodup_cons.mp h
    rw [List.foldl_cons, ih hxs]
    by_cases hmem : x ∈ acc
    · rw [if_pos hmem, List.filter_cons_of_neg (by simpa using hmem)]
    · have hrest : (xs.filter fun y => y ∉ acc ++ [x]) = xs.filter fun y => y ∉ acc := by
        apply List.filter_congr
        intro y hy
        have hne : y ≠ x := fun heq => hx (heq ▸ hy)
        simp only [List.mem_append, List.mem_singleton, hne, or_false]
      rw [if_neg hmem, hrest, List.filter_cons_of_pos (by simpa using hmem), List.append_assoc,
        List.singleton_append]

/-- Changing the values of an association list. -/
theorem lookup_map {α β : Type*} [BEq α] (table : List (α × β)) (f : β → β) (key : α) :
    (table.map fun entry => (entry.1, f entry.2)).lookup key = (table.lookup key).map f := by
  induction table with
  | nil => rfl
  | cons entry table ih =>
    rw [List.map_cons, List.lookup_cons, List.lookup_cons]
    split
    · rfl
    · exact ih

/-- Repeating items, each at most once, leaves those that are not dropped. -/
theorem flatMap_replicate {α : Type*} {xs : List α} {count : α → Nat}
    (h : ∀ x ∈ xs, count x ≤ 1) :
    (xs.flatMap fun x => List.replicate (count x) x) = xs.filter fun x => count x != 0 := by
  induction xs with
  | nil => rfl
  | cons x xs ih =>
    have hrest := ih fun y hy => h y (List.mem_cons_of_mem x hy)
    rw [List.flatMap_cons, hrest]
    rcases Nat.le_one_iff_eq_zero_or_eq_one.mp (h x List.mem_cons_self) with hx | hx
    · rw [hx, List.filter_cons_of_neg (by simp [hx])]
      rfl
    · rw [hx, List.filter_cons_of_pos (by simp [hx])]
      rfl

/-- Repeating items leaves each of those that are not dropped once in front, as long as only the
last one is repeated. -/
theorem prefix_flatMap_replicate {α : Type*} {xs : List α} {count : α → Nat}
    (h : ∀ x ∈ xs.dropLast, count x ≤ 1) :
    xs.filter (fun x => count x != 0) <+: xs.flatMap fun x => List.replicate (count x) x := by
  induction xs with
  | nil => exact List.prefix_rfl
  | cons x xs ih =>
    rw [List.flatMap_cons]
    cases xs with
    | nil =>
      rw [List.flatMap_nil, List.append_nil]
      cases hx : count x with
      | zero =>
        rw [List.filter_cons_of_neg (by simp [hx])]
        exact List.nil_prefix
      | succ n =>
        rw [List.filter_cons_of_pos (by simp [hx]), List.filter_nil, List.replicate_succ]
        exact List.prefix_append [x] _
    | cons y ys =>
      rw [List.dropLast_cons_cons] at h
      have hrest := ih fun z hz => h z (List.mem_cons_of_mem x hz)
      rcases Nat.le_one_iff_eq_zero_or_eq_one.mp (h x List.mem_cons_self) with hx | hx
      · rw [hx, List.filter_cons_of_neg (by simp [hx])]
        exact hrest
      · rw [hx, List.filter_cons_of_pos (by simp [hx])]
        exact (List.prefix_append_right_inj [x]).mpr hrest

/-- Going through the positions of a list. -/
theorem map_getElem?_range {α : Type*} (xs : List α) :
    (List.range xs.length).map (fun i => xs[i]?) = xs.map some := by
  apply List.ext_getElem?
  intro i
  rw [List.getElem?_map, List.getElem?_map]
  by_cases hi : i < xs.length
  · rw [List.getElem?_range hi, Option.map_some, List.getElem?_eq_getElem hi, Option.map_some]
  · rw [List.getElem?_eq_none (by rwa [List.length_range, ← Nat.not_lt]),
      List.getElem?_eq_none (Nat.not_lt.mp hi)]
    rfl

/-- A function that gives the items of a list gives the items of its rest. -/
theorem map_range_drop {α : Type*} {xs : List α} {f : Nat → α}
    (h : ∀ i, (hi : i < xs.length) → f i = xs[i]) (k : Nat) :
    (List.range (xs.length - k)).map (fun i => f (k + i)) = xs.drop k := by
  apply List.ext_getElem
  · rw [List.length_map, List.length_range, List.length_drop]
  · intro i hi hi'
    rw [List.length_map, List.length_range] at hi
    rw [List.getElem_map, List.getElem_range, List.getElem_drop]
    exact h (k + i) (by omega)

/-- Choosing items is choosing their positions. -/
theorem map_filter_range {α : Type*} (xs : List α) (p : α → Bool) :
    ((List.range xs.length).filter fun i => (xs[i]?).any p).map (fun i => xs[i]?) =
      (xs.filter p).map some := by
  calc ((List.range xs.length).filter fun i => (xs[i]?).any p).map (fun i => xs[i]?)
      = ((List.range xs.length).map fun i => xs[i]?).filter (fun x => x.any p) :=
        by rw [List.filter_map]; rfl
    _ = (xs.map some).filter (fun x => x.any p) := by rw [map_getElem?_range]
    _ = (xs.filter p).map some := by rw [List.filter_map]; rfl

/-- A sum over a range of which only one term has changed. -/
theorem sum_range_of_ne {M : Type*} [AddCommMonoid M] {n q : Nat} (hq : q < n) {f g : Nat → M}
    (hsame : ∀ r, r ≠ q → g r = f r) :
    ∑ r ∈ Finset.range n, g r + f q = ∑ r ∈ Finset.range n, f r + g q := by
  have hmem : q ∈ Finset.range n := Finset.mem_range.mpr hq
  have hrest : ∑ r ∈ (Finset.range n).erase q, g r = ∑ r ∈ (Finset.range n).erase q, f r :=
    Finset.sum_congr rfl fun r hr => hsame r (Finset.ne_of_mem_erase hr)
  calc ∑ r ∈ Finset.range n, g r + f q
      = g q + ∑ r ∈ (Finset.range n).erase q, g r + f q := by rw [Finset.add_sum_erase _ g hmem]
    _ = f q + ∑ r ∈ (Finset.range n).erase q, f r + g q := by
        rw [hrest, add_right_comm, add_comm (g q), add_right_comm]
    _ = ∑ r ∈ Finset.range n, f r + g q := by rw [Finset.add_sum_erase _ f hmem]

/-- A list sorted into the piles of its keys. -/
theorem perm_flatMap_filter {α β : Type*} [BEq β] [LawfulBEq β] (key : α → β) {keys : List β}
    (hnodup : keys.Nodup) {xs : List α} (hkeys : ∀ x ∈ xs, key x ∈ keys) :
    (keys.flatMap fun k => xs.filter fun x => key x == k).Perm xs := by
  induction keys generalizing xs with
  | nil =>
    rw [List.eq_nil_iff_forall_not_mem.mpr fun x hx => List.not_mem_nil (hkeys x hx)]
    exact List.Perm.nil
  | cons k keys ih =>
    obtain ⟨hnew, hnodup⟩ := List.nodup_cons.mp hnodup
    have hothers : ∀ k' ∈ keys, (xs.filter fun x => key x == k') =
        (xs.filter fun x => !(key x == k)).filter fun x => key x == k' := by
      intro k' hk'
      rw [List.filter_filter]
      apply List.filter_congr
      intro x _
      by_cases hx : key x = k'
      · have hne : key x ≠ k := fun heq => hnew (heq ▸ hx ▸ hk')
        rw [beq_iff_eq.mpr hx, beq_eq_false_iff_ne.mpr hne]
        rfl
      · rw [beq_eq_false_iff_ne.mpr hx, Bool.false_and]
    have hrest : ∀ x ∈ xs.filter fun x => !(key x == k), key x ∈ keys := by
      intro x hx
      obtain ⟨hmem, hne⟩ := List.mem_filter.mp hx
      rw [Bool.not_eq_true', beq_eq_false_iff_ne] at hne
      exact (List.mem_cons.mp (hkeys x hmem)).resolve_left hne
    rw [List.flatMap_cons, List.flatMap_congr hothers]
    exact ((ih hnodup hrest).append_left _).trans (List.filter_append_perm _ xs)

/-- Two lists with the same keys, item by item. -/
theorem forall₂_of_map_eq {α β γ : Type*} {key : α → γ} {key' : β → γ} {Q : α → β → Prop}
    {xs : List α} {ys : List β} (hkeys : xs.map key = ys.map key')
    (hQ : ∀ x ∈ xs, ∀ y ∈ ys, key x = key' y → Q x y) : List.Forall₂ Q xs ys := by
  induction xs generalizing ys with
  | nil =>
    rw [List.map_nil, List.nil_eq, List.map_eq_nil_iff] at hkeys
    rw [hkeys]
    exact List.Forall₂.nil
  | cons x xs ih =>
    obtain ⟨y, zs, rfl, hkey, hrest⟩ := List.map_eq_cons_iff.mp hkeys.symm
    refine List.Forall₂.cons (hQ x List.mem_cons_self y List.mem_cons_self hkey.symm) ?_
    exact ih hrest.symm fun x' hx' y' hy' =>
      hQ x' (List.mem_cons_of_mem _ hx') y' (List.mem_cons_of_mem _ hy')

/-- A changed item beside the item that it was. -/
theorem forall₂_modify {α : Type*} {Q : α → α → Prop} {f : α → α} (hrefl : ∀ x, Q x x)
    {xs : List α} {i : Nat} (hchange : ∀ x, xs[i]? = some x → Q x (f x)) :
    List.Forall₂ Q xs (xs.modify i f) := by
  induction xs generalizing i with
  | nil =>
    rw [List.modify_nil]
    exact List.Forall₂.nil
  | cons x xs ih =>
    cases i with
    | zero =>
      rw [List.modify_zero_cons]
      exact List.Forall₂.cons (hchange x rfl) (List.forall₂_same.mpr fun y _ => hrefl y)
    | succ i =>
      rw [List.modify_succ_cons]
      exact List.Forall₂.cons (hrefl x) (ih fun y hy => hchange y hy)

/-- What is beside an item of the second list. -/
theorem exists_of_forall₂_right {α β : Type*} {Q : α → β → Prop} {xs : List α} {ys : List β}
    (h : List.Forall₂ Q xs ys) {y : β} (hy : y ∈ ys) : ∃ x ∈ xs, Q x y := by
  induction h with
  | nil => cases hy
  | cons hQ hrest ih =>
    rcases List.mem_cons.mp hy with rfl | hy
    · exact ⟨_, List.mem_cons_self, hQ⟩
    · obtain ⟨x, hx, hQx⟩ := ih hy
      exact ⟨x, List.mem_cons_of_mem _ hx, hQx⟩

end Vsid.Keyed
