import Vsid.Laws.Flow
import Vsid.Spec.Connection

/-!
# What an operation of the manager does

Each operation of the manager changes one flow, one table entry or the list of events. The lemmas
here say which, in terms of what the rest of the development looks at: the table (`flows`), the
record of a flow (`record`) and the hash it was created under (`hashAt`).

`Indexed` is the invariant that ties the table to the heap. Every operation keeps it, in whatever
order the operations are called.
-/

namespace Vsid

namespace FlowManager

variable {R : Type}

/-! ## Modifying, telling, erasing -/

@[simp] theorem modifyFlow_flows (m : FlowManager R) (i : FlowId) (g : Flow R → Flow R) :
    (m.modifyFlow i g).flows = m.flows := rfl

@[simp] theorem modifyFlow_length (m : FlowManager R) (i : FlowId) (g : Flow R → Flow R) :
    (m.modifyFlow i g).heap.length = m.heap.length := List.length_modify g m.heap i

theorem modifyFlow_heap (m : FlowManager R) (i j : FlowId) (g : Flow R → Flow R) :
    (m.modifyFlow i g).heap[j]? = if i = j then m.heap[j]?.map g else m.heap[j]? := by
  unfold modifyFlow
  by_cases h : i = j
  · rw [if_pos h, ← h]
    exact List.getElem?_modify_eq g i m.heap
  · rw [if_neg h]
    exact List.getElem?_modify_ne g m.heap h

theorem modifyFlow_record (m : FlowManager R) (i j : FlowId) (g : Flow R → Flow R) :
    (m.modifyFlow i g).record j =
      if i = j then (m.record j).map (·.modify g) else m.record j := by
  unfold record
  rw [modifyFlow_heap]
  by_cases h : i = j
  · rw [if_pos h, if_pos h, Option.map_map, Option.map_map]
    rfl
  · rw [if_neg h, if_neg h]
    rfl

theorem modifyFlow_hashAt {m : FlowManager R} {i : FlowId} {g : Flow R → Flow R}
    (h : ∀ f, m.heap[i]? = some f → (g f).hash = f.hash) (j : FlowId) :
    (m.modifyFlow i g).hashAt j = m.hashAt j := by
  unfold hashAt
  rw [modifyFlow_heap]
  by_cases hij : i = j
  · rw [if_pos hij, Option.map_map]
    cases hf : m.heap[j]? with
    | none => rfl
    | some f => exact congrArg some (h f (hij ▸ hf))
  · rw [if_neg hij]

@[simp] theorem tell_flows (m : FlowManager R) (i : FlowId) (note : Note R) :
    (m.tell i note).flows = m.flows := rfl

@[simp] theorem tell_heap (m : FlowManager R) (i : FlowId) (note : Note R) :
    (m.tell i note).heap = m.heap := rfl

@[simp] theorem tell_hashAt (m : FlowManager R) (i : FlowId) (note : Note R) (j : FlowId) :
    (m.tell i note).hashAt j = m.hashAt j := rfl

theorem tell_told (m : FlowManager R) (i j : FlowId) (note : Note R) :
    (m.tell i note).told j = if i = j then m.told j ++ [note] else m.told j := by
  unfold told tell
  rw [List.filter_append, List.map_append]
  by_cases h : i = j
  · simp only [h, if_true, List.filter_cons, beq_self_eq_true, List.filter_nil, List.map_cons,
      List.map_nil]
  · simp only [h, if_false, List.filter_cons, beq_eq_false_iff_ne.mpr h, Bool.false_eq_true,
      List.filter_nil, List.map_nil, List.append_nil]

theorem tell_record (m : FlowManager R) (i j : FlowId) (note : Note R) :
    (m.tell i note).record j =
      if i = j then (m.record j).map (·.tell note) else m.record j := by
  unfold record
  rw [tell_heap, tell_told]
  by_cases h : i = j
  · rw [if_pos h, if_pos h, Option.map_map]
    rfl
  · rw [if_neg h, if_neg h]

theorem erase_of_none {m : FlowManager R} {h : UInt32} (hnone : m.flows h = none) :
    m.erase h = m := by
  unfold erase
  rw [hnone]

theorem erase_of_some {m : FlowManager R} {h : UInt32} {i : FlowId} {f : Flow R}
    (hsome : m.flows h = some i) (hf : m.heap[i]? = some f) :
    m.erase h = { m.tell i (.removed f) with flows := Function.update m.flows h none } := by
  unfold erase
  rw [hsome]
  simp only [hf]
  rfl

@[simp] theorem erase_heap (m : FlowManager R) (h : UInt32) : (m.erase h).heap = m.heap := by
  unfold erase
  split
  · rfl
  · simp only
    split <;> rfl

@[simp] theorem erase_hashAt (m : FlowManager R) (h : UInt32) (j : FlowId) :
    (m.erase h).hashAt j = m.hashAt j := by
  unfold hashAt
  rw [erase_heap]

@[simp] theorem erase_flows (m : FlowManager R) (h : UInt32) :
    (m.erase h).flows = Function.update m.flows h none := by
  unfold erase
  split
  next hf => rw [← hf, Function.update_eq_self]
  next =>
    simp only
    split <;> rfl

theorem erase_record {m : FlowManager R} {h : UInt32} {i : FlowId} (hsome : m.flows h = some i)
    (j : FlowId) :
    (m.erase h).record j = if i = j then (m.record j).map FlowRecord.remove else m.record j := by
  cases hf : m.heap[i]? with
  | none =>
    have hsame : (m.erase h).record j = m.record j := by
      unfold erase
      rw [hsome]
      simp only [hf]
      rfl
    by_cases hij : i = j
    · rw [hsame, if_pos hij, record, ← hij, hf]
      rfl
    · rw [hsame, if_neg hij]
  | some f =>
    rw [erase_of_some hsome hf]
    refine (tell_record m i j (.removed f)).trans ?_
    by_cases hij : i = j
    · rw [if_pos hij, if_pos hij, record, ← hij, hf]
      rfl
    · rw [if_neg hij, if_neg hij]

/-! ## Notifying -/

/-- A flow is announced once. It is marked, and the observers are told unless it had too few
packets. -/
theorem notifyFlowFinished_cases (m : FlowManager R) (i : FlowId) :
    (m.notifyFlowFinished i = m ∧
        ∀ f, m.heap[i]? = some f → f.flowState = .finishedNotified) ∨
      ∃ f, m.heap[i]? = some f ∧ f.flowState ≠ .finishedNotified ∧
        ((tooFewPackets f = true ∧
            m.notifyFlowFinished i = m.modifyFlow i Flow.setFinishedAndNotified) ∨
          (tooFewPackets f = false ∧ m.notifyFlowFinished i =
            (m.tell i (.finished f)).modifyFlow i Flow.setFinishedAndNotified)) := by
  unfold notifyFlowFinished
  cases hf : m.heap[i]? with
  | none => exact Or.inl ⟨rfl, fun f h => by cases h⟩
  | some f =>
    by_cases hnotified : f.flowState = .finishedNotified
    · refine Or.inl ⟨?_, fun g hg => ?_⟩
      · simp only [hnotified, if_true]
      · cases hg
        exact hnotified
    · refine Or.inr ⟨f, rfl, hnotified, ?_⟩
      simp only [hnotified, if_false]
      cases hfew : tooFewPackets f with
      | true => exact Or.inl ⟨rfl, if_pos rfl⟩
      | false => exact Or.inr ⟨rfl, if_neg Bool.false_ne_true⟩

@[simp] theorem notifyFlowFinished_flows (m : FlowManager R) (i : FlowId) :
    (m.notifyFlowFinished i).flows = m.flows := by
  rcases m.notifyFlowFinished_cases i with ⟨h, -⟩ | ⟨f, -, -, ⟨-, h⟩ | ⟨-, h⟩⟩ <;> rw [h] <;> rfl

theorem notifyFlowFinished_record (m : FlowManager R) (i j : FlowId) :
    (m.notifyFlowFinished i).record j =
      if i = j then (m.record j).map FlowRecord.notifyFinished else m.record j := by
  by_cases hij : i = j
  · subst hij
    rw [if_pos rfl]
    rcases m.notifyFlowFinished_cases i with ⟨h, hall⟩ | ⟨f, hf, hstate, hcases⟩
    · rw [h, record]
      cases hf : m.heap[i]? with
      | none => rfl
      | some f =>
        rw [Option.map_some, Option.map_some, FlowRecord.notifyFinished, if_pos (hall f hf)]
    · have hrec : m.record i = some { flow := f, told := m.told i } := by
        rw [record, hf, Option.map_some]
      rcases hcases with ⟨hfew, h⟩ | ⟨hfew, h⟩ <;>
        simp only [h, modifyFlow_record, tell_record, hrec, if_true, Option.map_some,
          FlowRecord.notifyFinished, hstate, hfew, Bool.false_eq_true, if_false]
  · rw [if_neg hij]
    rcases m.notifyFlowFinished_cases i with ⟨h, -⟩ | ⟨f, -, -, ⟨-, h⟩ | ⟨-, h⟩⟩ <;> rw [h]
    · rw [modifyFlow_record, if_neg hij]
    · rw [modifyFlow_record, if_neg hij, tell_record, if_neg hij]

@[simp] theorem notifyFlowFinished_length (m : FlowManager R) (i : FlowId) :
    (m.notifyFlowFinished i).heap.length = m.heap.length := by
  rcases m.notifyFlowFinished_cases i with ⟨h, -⟩ | ⟨f, -, -, ⟨-, h⟩ | ⟨-, h⟩⟩ <;> rw [h] <;>
    exact List.length_modify _ _ _

@[simp] theorem notifyFlowFinished_hashAt (m : FlowManager R) (i j : FlowId) :
    (m.notifyFlowFinished i).hashAt j = m.hashAt j := by
  rcases m.notifyFlowFinished_cases i with ⟨h, -⟩ | ⟨f, -, -, ⟨-, h⟩ | ⟨-, h⟩⟩ <;> rw [h] <;>
    exact modifyFlow_hashAt (g := Flow.setFinishedAndNotified) (fun _ _ => rfl) j

/-! ## Sweeping -/

/-- What the sweep does about a key: nothing, or the flow is finished and leaves the table. -/
theorem sweepEntry_cases {m m' : FlowManager R} {h : UInt32} (hentry : m.sweepEntry h = some m') :
    (m.flows h = none ∧ m' = m) ∨
      ∃ i, m.flows h = some i ∧ m' = (m.notifyFlowFinished i).erase h := by
  unfold sweepEntry at hentry
  split at hentry
  next hnone =>
    cases hentry
    exact Or.inl ⟨hnone, rfl⟩
  next i hi =>
    split at hentry
    next => cases hentry
    next =>
      split at hentry
      next => cases hentry
      next =>
        cases hentry
        exact Or.inr ⟨i, hi, rfl⟩

theorem finished_cons {m m' : FlowManager R} {h : UInt32} {order : List UInt32} :
    m.finished (h :: order) = some m' ↔
      ∃ m₁, m.sweepEntry h = some m₁ ∧ m₁.finished order = some m' := by
  unfold finished
  rw [List.foldlM_cons]
  exact Option.bind_eq_some_iff

/-- What holds before the sweep and is kept by each of its entries holds after it. -/
theorem finished_invariant {I : FlowManager R → Prop} {m m' : FlowManager R} {order : List UInt32}
    (hinit : I m) (hstep : ∀ m h m', I m → m.sweepEntry h = some m' → I m')
    (hfinished : m.finished order = some m') : I m' := by
  induction order generalizing m with
  | nil =>
    cases hfinished
    exact hinit
  | cons h order ih =>
    obtain ⟨m₁, hentry, hrest⟩ := finished_cons.mp hfinished
    exact ih (hstep m h m₁ hinit hentry) hrest

/-! ## Creating -/

variable [Double R]

/-- The queue that a new flow is given. -/
def newQueueId (S : Setup R) (self : Option Nat) (m : FlowManager R) : Int :=
  if 0 < S.config.workerThreadsPerQueue then
    match self with
    | some w => w
    | none => m.nextQueue S
  else -1

/-- The flow that `insertFlow` creates. -/
def newFlow (S : Setup R) (self : Option Nat) (m : FlowManager R) (p : IPv4Packet) : Flow R :=
  { Flow.new S p (S.staleBytes m.heap.length) with threadQueueId := m.newQueueId S self }

@[simp] theorem insertFlow_snd (S : Setup R) (self : Option Nat) (m : FlowManager R)
    (p : IPv4Packet) : (m.insertFlow S self p).2 = m.heap.length := by
  unfold insertFlow
  simp only
  split
  · split <;> rfl
  · rfl

@[simp] theorem insertFlow_heap (S : Setup R) (self : Option Nat) (m : FlowManager R)
    (p : IPv4Packet) : (m.insertFlow S self p).1.heap = m.heap ++ [m.newFlow S self p] := by
  unfold insertFlow newFlow newQueueId
  simp only
  split
  · cases self <;> rfl
  · rfl

@[simp] theorem insertFlow_flows (S : Setup R) (self : Option Nat) (m : FlowManager R)
    (p : IPv4Packet) :
    (m.insertFlow S self p).1.flows =
      Function.update m.flows (S.flowHash p.tuple) (some m.heap.length) := by
  unfold insertFlow
  simp only
  split
  · split <;> rfl
  · rfl

@[simp] theorem insertFlow_events (S : Setup R) (self : Option Nat) (m : FlowManager R)
    (p : IPv4Packet) : (m.insertFlow S self p).1.events = m.events := by
  unfold insertFlow
  simp only
  split
  · split <;> rfl
  · rfl

theorem insertFlow_record {S : Setup R} {self : Option Nat} {m : FlowManager R} {p : IPv4Packet}
    (hevents : ∀ e ∈ m.events, e.id < m.heap.length) (j : FlowId) :
    (m.insertFlow S self p).1.record j =
      if j = m.heap.length then some (FlowRecord.fresh (m.newFlow S self p)) else m.record j := by
  have htold : (m.insertFlow S self p).1.told j = m.told j := by
    unfold told
    rw [insertFlow_events]
  unfold record
  rw [insertFlow_heap, htold]
  by_cases h : j = m.heap.length
  · have hnothing : m.told m.heap.length = [] := by
      unfold told
      rw [List.map_eq_nil_iff, List.filter_eq_nil_iff]
      intro e he heq
      exact absurd (beq_iff_eq.mp heq) (Nat.ne_of_lt (hevents e he))
    rw [if_pos h, h, List.getElem?_concat_length, hnothing]
    rfl
  · rw [if_neg h]
    rcases Nat.lt_or_gt_of_ne h with hlt | hgt
    · rw [List.getElem?_append_left hlt]
    · rw [List.getElem?_eq_none (by rw [List.length_append, List.length_singleton]; omega),
        List.getElem?_eq_none (by omega)]

theorem insertFlow_hashAt (S : Setup R) (self : Option Nat) (m : FlowManager R) (p : IPv4Packet)
    (j : FlowId) :
    (m.insertFlow S self p).1.hashAt j =
      if j = m.heap.length then some (S.flowHash p.tuple) else m.hashAt j := by
  unfold hashAt
  rw [insertFlow_heap]
  by_cases h : j = m.heap.length
  · rw [if_pos h, h, List.getElem?_concat_length]
    rfl
  · rw [if_neg h]
    rcases Nat.lt_or_gt_of_ne h with hlt | hgt
    · rw [List.getElem?_append_left hlt]
    · rw [List.getElem?_eq_none (by rw [List.length_append, List.length_singleton]; omega),
        List.getElem?_eq_none (by omega)]

/-! ## The table and the heap -/

omit [Double R] in
theorem hashAt_of_heap {m : FlowManager R} {i : FlowId} {f : Flow R} (h : m.heap[i]? = some f) :
    m.hashAt i = some f.hash := by
  rw [hashAt, h, Option.map_some]

omit [Double R] in
theorem exists_of_hashAt {m : FlowManager R} {i : FlowId} {h : UInt32} (hi : m.hashAt i = some h) :
    ∃ f : Flow R, m.heap[i]? = some f ∧ f.hash = h := Option.map_eq_some_iff.mp hi

omit [Double R] in
theorem lt_length_of_hashAt {m : FlowManager R} {i : FlowId} {h : UInt32}
    (hi : m.hashAt i = some h) : i < m.heap.length := by
  obtain ⟨f, hf, -⟩ := exists_of_hashAt hi
  exact (List.getElem?_eq_some_iff.mp hf).1

/-- The table holds, under each hash, the newest flow that was created under it. -/
structure Indexed (S : Setup R) (m : FlowManager R) : Prop where
  keyed : ∀ (i : FlowId) (f : Flow R), m.heap[i]? = some f → f.hash = S.flowHash f.firstPacketTuple
  valid : ∀ h i, m.flows h = some i → m.hashAt i = some h
  newest : ∀ h i, m.flows h = some i → ∀ j, m.hashAt j = some h → j ≤ i
  told : ∀ e ∈ m.events, e.id < m.heap.length

/-- A look-up that finds an entry keeps its flow or replaces it. -/
theorem getFlow_found {S : Setup R} {m : FlowManager R} (self : Option Nat) {p : IPv4Packet}
    {i : FlowId} {f : Flow R} (hi : m.flows (S.flowHash p.tuple) = some i)
    (hf : m.heap[i]? = some f) :
    m.getFlow S self p = if replaces S f p then
      ((m.notifyFlowFinished i).erase (S.flowHash p.tuple)).insertFlow S self p else (m, i) := by
  unfold getFlow
  simp only [hi, hf]

namespace Indexed

variable {S : Setup R} {m : FlowManager R}

omit [Double R] in
theorem init (S : Setup R) : Indexed S (FlowManager.init : FlowManager R) where
  keyed i f h := by cases h
  valid h i hi := by cases hi
  newest h i hi := by cases hi
  told e he := by cases he

omit [Double R] in
theorem modifyFlow (hm : Indexed S m) (i : FlowId) {g : Flow R → Flow R}
    (hhash : ∀ f, (g f).hash = f.hash)
    (htuple : ∀ f, (g f).firstPacketTuple = f.firstPacketTuple) :
    Indexed S (m.modifyFlow i g) where
  keyed j f hf := by
    rw [modifyFlow_heap] at hf
    split at hf
    · obtain ⟨f₀, hf₀, rfl⟩ := Option.map_eq_some_iff.mp hf
      rw [hhash, htuple]
      exact hm.keyed j f₀ hf₀
    · exact hm.keyed j f hf
  valid h j hj := by
    rw [modifyFlow_hashAt fun f _ => hhash f]
    exact hm.valid h j hj
  newest h j hj k hk := by
    rw [modifyFlow_hashAt fun f _ => hhash f] at hk
    exact hm.newest h j hj k hk
  told e he := by
    rw [modifyFlow_length]
    exact hm.told e he

omit [Double R] in
theorem tell (hm : Indexed S m) {i : FlowId} (hi : i < m.heap.length) (note : Note R) :
    Indexed S (m.tell i note) where
  keyed := hm.keyed
  valid := hm.valid
  newest := hm.newest
  told e he := by
    rcases List.mem_append.mp he with hold | hnew
    · exact hm.told e hold
    · cases List.mem_singleton.mp hnew
      exact hi

omit [Double R] in
theorem erase (hm : Indexed S m) (h : UInt32) : Indexed S (m.erase h) where
  keyed i f hf := by
    rw [erase_heap] at hf
    exact hm.keyed i f hf
  valid k i hi := by
    rw [erase_flows] at hi
    by_cases hk : k = h
    · rw [hk, Function.update_self] at hi
      cases hi
    · rw [Function.update_of_ne hk] at hi
      rw [erase_hashAt]
      exact hm.valid k i hi
  newest k i hi j hj := by
    rw [erase_flows] at hi
    by_cases hk : k = h
    · rw [hk, Function.update_self] at hi
      cases hi
    · rw [Function.update_of_ne hk] at hi
      rw [erase_hashAt] at hj
      exact hm.newest k i hi j hj
  told e he := by
    rw [erase_heap]
    cases hf : m.flows h with
    | none =>
      rw [erase_of_none hf] at he
      exact hm.told e he
    | some i =>
      obtain ⟨f, hi, -⟩ := exists_of_hashAt (hm.valid h i hf)
      rw [erase_of_some hf hi] at he
      exact (hm.tell (List.getElem?_eq_some_iff.mp hi).1 (.removed f)).told e he

omit [Double R] in
theorem notifyFlowFinished (hm : Indexed S m) (i : FlowId) :
    Indexed S (m.notifyFlowFinished i) := by
  rcases m.notifyFlowFinished_cases i with ⟨h, -⟩ | ⟨f, hf, -, ⟨-, h⟩ | ⟨-, h⟩⟩ <;> rw [h]
  · exact hm
  · exact hm.modifyFlow i (fun _ => rfl) fun _ => rfl
  · have hi : i < m.heap.length := (List.getElem?_eq_some_iff.mp hf).1
    exact (hm.tell hi _).modifyFlow i (fun _ => rfl) fun _ => rfl

omit [Double R] in
theorem sweepEntry (hm : Indexed S m) {h : UInt32} {m' : FlowManager R}
    (hentry : m.sweepEntry h = some m') : Indexed S m' := by
  rcases sweepEntry_cases hentry with ⟨-, rfl⟩ | ⟨i, -, rfl⟩
  · exact hm
  · exact (hm.notifyFlowFinished i).erase h

theorem insertFlow (hm : Indexed S m) (self : Option Nat) (p : IPv4Packet) :
    Indexed S (m.insertFlow S self p).1 where
  keyed i f hf := by
    rw [insertFlow_heap] at hf
    by_cases hi : i < m.heap.length
    · rw [List.getElem?_append_left hi] at hf
      exact hm.keyed i f hf
    · rw [List.getElem?_append_right (Nat.le_of_not_lt hi)] at hf
      cases List.mem_singleton.mp (List.mem_of_getElem? hf)
      rfl
  valid h i hi := by
    rw [insertFlow_flows] at hi
    rw [insertFlow_hashAt]
    by_cases hh : h = S.flowHash p.tuple
    · rw [hh, Function.update_self] at hi
      cases hi
      rw [if_pos rfl, hh]
    · rw [Function.update_of_ne hh] at hi
      have hvalid := hm.valid h i hi
      rw [if_neg (Nat.ne_of_lt (lt_length_of_hashAt hvalid)), hvalid]
  newest h i hi j hj := by
    rw [insertFlow_flows] at hi
    rw [insertFlow_hashAt] at hj
    by_cases hh : h = S.flowHash p.tuple
    · rw [hh, Function.update_self] at hi
      cases hi
      split at hj
      next heq => exact Nat.le_of_eq heq
      next => exact Nat.le_of_lt (lt_length_of_hashAt hj)
    · rw [Function.update_of_ne hh] at hi
      split at hj
      next => exact absurd (Option.some.inj hj).symm hh
      next => exact hm.newest h i hi j hj
  told e he := by
    rw [insertFlow_events] at he
    rw [insertFlow_heap, List.length_append, List.length_singleton]
    exact Nat.lt_succ_of_lt (hm.told e he)

/-- What a look-up comes to: the entry is missing, out of date, or good. -/
theorem getFlow_cases (hm : Indexed S m) (self : Option Nat) (p : IPv4Packet) :
    (m.flows (S.flowHash p.tuple) = none ∧ m.getFlow S self p = m.insertFlow S self p) ∨
      (∃ i f, m.flows (S.flowHash p.tuple) = some i ∧ m.heap[i]? = some f ∧
        replaces S f p = true ∧ m.getFlow S self p =
          ((m.notifyFlowFinished i).erase (S.flowHash p.tuple)).insertFlow S self p) ∨
      ∃ i f, m.flows (S.flowHash p.tuple) = some i ∧ m.heap[i]? = some f ∧
        replaces S f p = false ∧ m.getFlow S self p = (m, i) := by
  cases hi : m.flows (S.flowHash p.tuple) with
  | none =>
    refine Or.inl ⟨rfl, ?_⟩
    unfold FlowManager.getFlow
    simp only [hi]
  | some i =>
    obtain ⟨f, hf, -⟩ := exists_of_hashAt (hm.valid _ i hi)
    have hget := getFlow_found self hi hf
    refine Or.inr ?_
    cases hrep : replaces S f p with
    | true =>
      rw [hrep, if_pos rfl] at hget
      exact Or.inl ⟨i, f, rfl, hf, hrep, hget⟩
    | false =>
      rw [hrep, if_neg Bool.false_ne_true] at hget
      exact Or.inr ⟨i, f, rfl, hf, hrep, hget⟩

theorem getFlow (hm : Indexed S m) (self : Option Nat) (p : IPv4Packet) :
    Indexed S (m.getFlow S self p).1 := by
  rcases hm.getFlow_cases self p with ⟨-, hget⟩ | ⟨i, f, -, -, -, hget⟩ | ⟨i, f, -, -, -, hget⟩ <;>
    rw [hget]
  · exact hm.insertFlow self p
  · exact ((hm.notifyFlowFinished i).erase _).insertFlow self p
  · exact hm

end Indexed

/-! ## Properties of every flow -/

/-- Every flow that was ever created has the property. -/
def Every (P : Flow R → Prop) (m : FlowManager R) : Prop :=
  ∀ (i : FlowId) (f : Flow R), m.heap[i]? = some f → P f

namespace Every

variable {P : Flow R → Prop} {S : Setup R} {m : FlowManager R}

omit [Double R] in
theorem modifyFlow (hm : Every P m) (i : FlowId) {g : Flow R → Flow R}
    (hg : ∀ f, m.heap[i]? = some f → P f → P (g f)) : Every P (m.modifyFlow i g) := by
  intro j f hf
  rw [modifyFlow_heap] at hf
  split at hf
  next hij =>
    obtain ⟨f₀, hf₀, rfl⟩ := Option.map_eq_some_iff.mp hf
    exact hg f₀ (hij ▸ hf₀) (hm j f₀ hf₀)
  next => exact hm j f hf

omit [Double R] in
theorem erase (hm : Every P m) (h : UInt32) : Every P (m.erase h) := by
  intro j f hf
  rw [erase_heap] at hf
  exact hm j f hf

omit [Double R] in
theorem notifyFlowFinished (hm : Every P m) (i : FlowId)
    (hP : ∀ f, P f → P f.setFinishedAndNotified) : Every P (m.notifyFlowFinished i) := by
  rcases m.notifyFlowFinished_cases i with ⟨h, -⟩ | ⟨f, -, -, ⟨-, h⟩ | ⟨-, h⟩⟩ <;> rw [h]
  · exact hm
  · exact hm.modifyFlow i fun f _ => hP f
  · exact Every.modifyFlow (m := m.tell i _) hm i fun f _ => hP f

theorem insertFlow (hm : Every P m) (self : Option Nat) (p : IPv4Packet)
    (hP : P (m.newFlow S self p)) : Every P (m.insertFlow S self p).1 := by
  intro j f hf
  rw [insertFlow_heap] at hf
  by_cases hj : j < m.heap.length
  · rw [List.getElem?_append_left hj] at hf
    exact hm j f hf
  · rw [List.getElem?_append_right (Nat.le_of_not_lt hj)] at hf
    rw [List.mem_singleton.mp (List.mem_of_getElem? hf)]
    exact hP

theorem getFlow (hm : Every P m) (self : Option Nat) (p : IPv4Packet)
    (hP : ∀ f, P f → P f.setFinishedAndNotified)
    (hnew : ∀ m' : FlowManager R, P (m'.newFlow S self p)) :
    Every P (m.getFlow S self p).1 := by
  unfold FlowManager.getFlow
  split
  · exact hm.insertFlow self p (hnew m)
  · split
    · exact hm
    · split
      · exact ((hm.notifyFlowFinished _ hP).erase _).insertFlow self p (hnew _)
      · exact hm

theorem applyPacket (hm : Every P m) (i : FlowId) (p : IPv4Packet)
    (hP : ∀ f, m.heap[i]? = some f → P f → P (f.addPacket S p)) :
    Every P (m.applyPacket S i p) := by
  unfold FlowManager.applyPacket
  split
  · exact hm
  · simp only
    split
    · unfold notifyFlowClassified
      split
      · exact hm.modifyFlow i hP
      · exact hm.modifyFlow i hP
    · exact hm.modifyFlow i hP

end Every

end FlowManager

end Vsid
