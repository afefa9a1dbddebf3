import Vsid.Laws.FlowManager
import Vsid.Lib.Keyed
import Mathlib.Data.List.Dedup

/-!
# The manager is the product of its connections

`connection_addPacket`: in non-threaded mode a packet acts on the connection of its hash, as
`Connection.process` says, and on no other. `connection_finished`: the final sweep closes every
connection.

The section on single operations does not depend on the mode; the threaded development uses it too.
-/

set_option autoImplicit false

namespace Vsid

/-- A connection without an open flow has nothing to finish. -/
theorem Connection.finish_of_none {R : Type} {c : Connection R} (h : c.live = none) :
    c.finish = c := by
  obtain ⟨past, live⟩ := c
  cases h
  simp only [finish, modify, retire, Option.map_none, Option.toList_none, List.append_nil]

namespace FlowManager

variable {R : Type}

/-! ## Single operations -/

theorem connection_live_of_none {m : FlowManager R} {h : UInt32} (hnone : m.flows h = none) :
    (m.connection h).live = none := by
  unfold connection
  rw [hnone, Option.bind_none]

theorem pastIds_congr {m m' : FlowManager R} {h : UInt32}
    (hlength : m'.heap.length = m.heap.length) (hhash : ∀ j, m'.hashAt j = m.hashAt j)
    (hflows : m'.flows h = m.flows h) : m'.pastIds h = m.pastIds h := by
  unfold pastIds
  rw [hlength]
  apply List.filter_congr
  intro j _
  rw [hhash, hflows]

theorem hashAt_of_mem_pastIds {m : FlowManager R} {h : UInt32} {j : FlowId}
    (hj : j ∈ m.pastIds h) : m.hashAt j = some h ∧ m.flows h ≠ some j := by
  unfold pastIds at hj
  exact of_decide_eq_true (List.mem_filter.mp hj).2

/-- `m'` differs from `m` in the record of one flow. -/
structure Touches (i : FlowId) (g : FlowRecord R → FlowRecord R) (m m' : FlowManager R) : Prop where
  flows : m'.flows = m.flows
  length : m'.heap.length = m.heap.length
  hashAt : ∀ j, m'.hashAt j = m.hashAt j
  record : ∀ j, m'.record j = if i = j then (m.record j).map g else m.record j

theorem touches_modifyFlow (m : FlowManager R) (i : FlowId) {g : Flow R → Flow R}
    (hhash : ∀ f, (g f).hash = f.hash) : Touches i (·.modify g) m (m.modifyFlow i g) where
  flows := rfl
  length := modifyFlow_length m i g
  hashAt := modifyFlow_hashAt fun f _ => hhash f
  record j := modifyFlow_record m i j g

theorem touches_tell (m : FlowManager R) (i : FlowId) (note : Note R) :
    Touches i (·.tell note) m (m.tell i note) where
  flows := rfl
  length := rfl
  hashAt _ := rfl
  record j := tell_record m i j note

theorem touches_notifyFlowFinished (m : FlowManager R) (i : FlowId) :
    Touches i FlowRecord.notifyFinished m (m.notifyFlowFinished i) where
  flows := notifyFlowFinished_flows m i
  length := notifyFlowFinished_length m i
  hashAt := notifyFlowFinished_hashAt m i
  record := notifyFlowFinished_record m i

/-- Changing the open flow of a connection. -/
theorem Touches.connection {i : FlowId} {g : FlowRecord R → FlowRecord R} {m m' : FlowManager R}
    (t : Touches i g m m') {h : UInt32} (hi : m.flows h = some i) :
    m'.connection h = (m.connection h).modify g := by
  have hids : m'.pastIds h = m.pastIds h := pastIds_congr t.length t.hashAt (by rw [t.flows])
  have hpast : (m.pastIds h).filterMap m'.record = (m.pastIds h).filterMap m.record := by
    apply List.filterMap_congr
    intro j hj
    have hne : i ≠ j := by
      intro heq
      exact (hashAt_of_mem_pastIds hj).2 (heq ▸ hi)
    rw [t.record, if_neg hne]
  unfold FlowManager.connection Connection.modify
  rw [hids, hpast, t.flows, hi, Option.bind_some, Option.bind_some, t.record, if_pos rfl]

/-- A flow of another connection is none of this one's business. -/
theorem Touches.connection_of_ne {i : FlowId} {g : FlowRecord R → FlowRecord R}
    {m m' : FlowManager R} (t : Touches i g m m') {h : UInt32} (hi : m.hashAt i ≠ some h)
    (hvalid : ∀ j, m.flows h = some j → m.hashAt j = some h) :
    m'.connection h = m.connection h := by
  have hids : m'.pastIds h = m.pastIds h := pastIds_congr t.length t.hashAt (by rw [t.flows])
  have hrecord : ∀ j, m.hashAt j = some h → m'.record j = m.record j := by
    intro j hj
    have hne : i ≠ j := by
      intro heq
      exact hi (heq ▸ hj)
    rw [t.record, if_neg hne]
  have hpast : (m.pastIds h).filterMap m'.record = (m.pastIds h).filterMap m.record :=
    List.filterMap_congr fun j hj => hrecord j (hashAt_of_mem_pastIds hj).1
  unfold FlowManager.connection
  rw [hids, hpast, t.flows]
  cases hj : m.flows h with
  | none => rfl
  | some j => rw [Option.bind_some, Option.bind_some, hrecord j (hvalid j hj)]

section Table

variable {S : Setup R} {m : FlowManager R}

/-- Erasing the table entry ends the connection's open flow. -/
theorem connection_erase (hm : Indexed S m) (h : UInt32) :
    (m.erase h).connection h = (m.connection h).retire := by
  cases hi : m.flows h with
  | none =>
    rw [erase_of_none hi]
    simp only [connection, hi, Option.bind_none, Connection.retire, Option.map_none,
      Option.toList_none, List.append_nil]
  | some i =>
    have hhash : m.hashAt i = some h := hm.valid h i hi
    obtain ⟨f, hf, -⟩ := exists_of_hashAt hhash
    have hids : (m.erase h).pastIds h = m.pastIds h ++ [i] := by
      unfold pastIds
      rw [erase_heap, erase_flows, Function.update_self]
      rw [Keyed.filter_range_last (i := i) (lt_length_of_hashAt hhash)]
      · congr 1
        apply List.filter_congr
        intro j _
        by_cases hij : i = j
        · simp only [hij, hi, ne_eq, not_true_eq_false, and_false, decide_false,
            bne_self_eq_false, Bool.and_false]
        · have hji : (j != i) = true := bne_iff_ne.mpr (Ne.symm hij)
          simp only [erase_hashAt, hi, ne_eq, Option.some.injEq, hij, not_false_eq_true, and_true,
            hji, Bool.and_true, reduceCtorEq]
      · simp only [erase_hashAt, hhash, ne_eq, reduceCtorEq, not_false_eq_true, and_true,
          decide_true]
      · intro j _ hj
        rw [erase_hashAt] at hj
        exact hm.newest h i hi j (of_decide_eq_true hj).1
    have hpast : (m.pastIds h).filterMap (m.erase h).record =
        (m.pastIds h).filterMap m.record := by
      apply List.filterMap_congr
      intro j hj
      have hne : i ≠ j := by
        intro heq
        exact (hashAt_of_mem_pastIds hj).2 (heq ▸ hi)
      rw [erase_record hi, if_neg hne]
    have hrec : m.record i = some { flow := f, told := m.told i } := by
      rw [record, hf, Option.map_some]
    unfold connection Connection.retire
    rw [hids, List.filterMap_append, hpast, erase_flows, Function.update_self, hi,
      Option.bind_none, Option.bind_some, hrec]
    simp only [List.filterMap_cons, erase_record hi, if_true, hrec, Option.map_some,
      List.filterMap_nil, Option.toList_some]

theorem connection_erase_of_ne (hm : Indexed S m) {h k : UInt32} (hne : k ≠ h) :
    (m.erase h).connection k = m.connection k := by
  have hflows : (m.erase h).flows k = m.flows k := by
    rw [erase_flows, Function.update_of_ne hne]
  have hrecord : ∀ j, m.hashAt j = some k → (m.erase h).record j = m.record j := by
    intro j hj
    cases hi : m.flows h with
    | none => rw [erase_of_none hi]
    | some i =>
      have hij : i ≠ j := by
        intro heq
        have hkey := hm.valid h i hi
        rw [heq, hj] at hkey
        exact hne (Option.some.inj hkey)
      rw [erase_record hi, if_neg hij]
  have hids : (m.erase h).pastIds k = m.pastIds k :=
    pastIds_congr (by rw [erase_heap]) (erase_hashAt m h) hflows
  have hpast : (m.pastIds k).filterMap (m.erase h).record = (m.pastIds k).filterMap m.record :=
    List.filterMap_congr fun j hj => hrecord j (hashAt_of_mem_pastIds hj).1
  unfold connection
  rw [hids, hpast, hflows]
  cases hj : m.flows k with
  | none => rfl
  | some j => rw [Option.bind_some, Option.bind_some, hrecord j (hm.valid k j hj)]

variable [Double R]

/-- The flow that `insertFlow` creates is the connection's open one. -/
theorem connection_insertFlow (hm : Indexed S m) (self : Option Nat) (p : IPv4Packet)
    (hnone : m.flows (S.flowHash p.tuple) = none) :
    (m.insertFlow S self p).1.connection (S.flowHash p.tuple) =
      (m.connection (S.flowHash p.tuple)).start (m.newFlow S self p) := by
  have hids : (m.insertFlow S self p).1.pastIds (S.flowHash p.tuple) =
      m.pastIds (S.flowHash p.tuple) := by
    unfold pastIds
    rw [insertFlow_heap, List.length_append, List.length_singleton, List.range_succ,
      List.filter_append, insertFlow_flows, Function.update_self]
    have hnew : [m.heap.length].filter (fun i =>
        (m.insertFlow S self p).1.hashAt i = some (S.flowHash p.tuple) ∧
          some m.heap.length ≠ some i) = [] := by
      simp only [List.filter_cons, ne_eq, not_true_eq_false, and_false, decide_false,
        Bool.false_eq_true, if_false, List.filter_nil]
    rw [hnew, List.append_nil]
    apply List.filter_congr
    intro j hj
    have hlt : j < m.heap.length := List.mem_range.mp hj
    rw [insertFlow_hashAt, if_neg (Nat.ne_of_lt hlt), hnone]
    simp only [ne_eq, Option.some.injEq, (Nat.ne_of_lt hlt).symm, reduceCtorEq, not_false_eq_true,
      and_true]
  have hpast : (m.pastIds (S.flowHash p.tuple)).filterMap (m.insertFlow S self p).1.record =
      (m.pastIds (S.flowHash p.tuple)).filterMap m.record := by
    apply List.filterMap_congr
    intro j hj
    have hlt := lt_length_of_hashAt (hashAt_of_mem_pastIds hj).1
    rw [insertFlow_record hm.told, if_neg (Nat.ne_of_lt hlt)]
  unfold connection Connection.start
  rw [hids, hpast, insertFlow_flows, Function.update_self, Option.bind_some,
    insertFlow_record hm.told, if_pos rfl]

theorem connection_insertFlow_of_ne (hm : Indexed S m) (self : Option Nat) (p : IPv4Packet)
    {k : UInt32} (hne : k ≠ S.flowHash p.tuple) :
    (m.insertFlow S self p).1.connection k = m.connection k := by
  have hflows : (m.insertFlow S self p).1.flows k = m.flows k := by
    rw [insertFlow_flows, Function.update_of_ne hne]
  have hrecord : ∀ j, m.hashAt j = some k → (m.insertFlow S self p).1.record j = m.record j := by
    intro j hj
    rw [insertFlow_record hm.told, if_neg (Nat.ne_of_lt (lt_length_of_hashAt hj))]
  have hids : (m.insertFlow S self p).1.pastIds k = m.pastIds k := by
    unfold pastIds
    rw [insertFlow_heap, List.length_append, List.length_singleton, List.range_succ,
      List.filter_append, hflows]
    have hnew : [m.heap.length].filter (fun i =>
        (m.insertFlow S self p).1.hashAt i = some k ∧ m.flows k ≠ some i) = [] := by
      simp only [List.filter_cons, insertFlow_hashAt, if_true, Option.some.injEq, hne.symm,
        false_and, decide_false, Bool.false_eq_true, if_false, List.filter_nil]
    rw [hnew, List.append_nil]
    apply List.filter_congr
    intro j hj
    rw [insertFlow_hashAt, if_neg (Nat.ne_of_lt (List.mem_range.mp hj))]
  have hpast : (m.pastIds k).filterMap (m.insertFlow S self p).1.record =
      (m.pastIds k).filterMap m.record :=
    List.filterMap_congr fun j hj => hrecord j (hashAt_of_mem_pastIds hj).1
  unfold connection
  rw [hids, hpast, hflows]
  cases hj : m.flows k with
  | none => rfl
  | some j => rw [Option.bind_some, Option.bind_some, hrecord j (hm.valid k j hj)]

/-! ## Looking up -/

theorem newFlow_congr {m m' : FlowManager R} (self : Option Nat) (p : IPv4Packet)
    (hlength : m'.heap.length = m.heap.length) (hqueue : m'.currentQueue = m.currentQueue) :
    m'.newFlow S self p = m.newFlow S self p := by
  unfold newFlow newQueueId nextQueue
  rw [hlength, hqueue]

omit [Double R] in
@[simp] theorem notifyFlowFinished_currentQueue (m : FlowManager R) (i : FlowId) :
    (m.notifyFlowFinished i).currentQueue = m.currentQueue := by
  rcases m.notifyFlowFinished_cases i with ⟨h, -⟩ | ⟨f, -, -, ⟨-, h⟩ | ⟨-, h⟩⟩ <;> rw [h] <;> rfl

omit [Double R] in
@[simp] theorem erase_currentQueue (m : FlowManager R) (h : UInt32) :
    (m.erase h).currentQueue = m.currentQueue := by
  unfold erase
  split
  · rfl
  · simp only
    split <;> rfl

omit [Double R] in
/-- The sweep of one entry, and the replacement of a flow: the notification and the removal. -/
theorem connection_notify_erase (hm : Indexed S m) {h : UInt32} {i : FlowId}
    (hi : m.flows h = some i) :
    ((m.notifyFlowFinished i).erase h).connection h = (m.connection h).finish := by
  rw [connection_erase (hm.notifyFlowFinished i),
    (touches_notifyFlowFinished m i).connection hi]
  rfl

omit [Double R] in
theorem connection_notify_erase_of_ne (hm : Indexed S m) {h k : UInt32} {i : FlowId}
    (hi : m.flows h = some i) (hne : k ≠ h) :
    ((m.notifyFlowFinished i).erase h).connection k = m.connection k := by
  rw [connection_erase_of_ne (hm.notifyFlowFinished i) hne]
  apply (touches_notifyFlowFinished m i).connection_of_ne
  · rw [hm.valid h i hi]
    exact fun heq => hne (Option.some.inj heq).symm
  · exact hm.valid k

theorem getFlow_flows (hm : Indexed S m) (self : Option Nat) (p : IPv4Packet) :
    (m.getFlow S self p).1.flows (S.flowHash p.tuple) = some (m.getFlow S self p).2 := by
  rcases hm.getFlow_cases self p with ⟨-, hget⟩ | ⟨i, f, -, -, -, hget⟩ | ⟨i, f, hi, -, -, hget⟩ <;>
    rw [hget]
  · rw [insertFlow_flows, Function.update_self, insertFlow_snd]
  · rw [insertFlow_flows, Function.update_self, insertFlow_snd]
  · exact hi

/-- `getFlow` acts on the connection of the packet's hash. -/
theorem connection_getFlow (hm : Indexed S m) (self : Option Nat) (p : IPv4Packet) :
    (m.getFlow S self p).1.connection (S.flowHash p.tuple) =
      (m.connection (S.flowHash p.tuple)).lookup S (m.newFlow S self p) p := by
  have hlive : ∀ {i : FlowId} {f : Flow R}, m.flows (S.flowHash p.tuple) = some i →
      m.heap[i]? = some f → (m.connection (S.flowHash p.tuple)).live =
        some { flow := f, told := m.told i } := by
    intro i f hi hf
    rw [connection, hi, Option.bind_some, record, hf, Option.map_some]
  rcases hm.getFlow_cases self p with ⟨hi, hget⟩ | ⟨i, f, hi, hf, hrep, hget⟩ |
    ⟨i, f, hi, hf, hrep, hget⟩ <;> rw [hget]
  · have hnone : (m.connection (S.flowHash p.tuple)).live = none := by
      rw [connection, hi, Option.bind_none]
    simp only [connection_insertFlow hm self p hi, Connection.lookup, hnone]
  · have hgone : ((m.notifyFlowFinished i).erase (S.flowHash p.tuple)).flows
        (S.flowHash p.tuple) = none := by
      rw [erase_flows, Function.update_self]
    simp only [Connection.lookup, hlive hi hf, hrep, if_true]
    rw [connection_insertFlow ((hm.notifyFlowFinished i).erase _) self p hgone,
      connection_notify_erase hm hi]
    congr 1
    apply newFlow_congr
    · rw [erase_heap, notifyFlowFinished_length]
    · rw [erase_currentQueue, notifyFlowFinished_currentQueue]
  · simp only [Connection.lookup, hlive hi hf, hrep, Bool.false_eq_true, if_false]

theorem connection_getFlow_of_ne (hm : Indexed S m) (self : Option Nat) (p : IPv4Packet)
    {k : UInt32} (hne : k ≠ S.flowHash p.tuple) :
    (m.getFlow S self p).1.connection k = m.connection k := by
  rcases hm.getFlow_cases self p with ⟨-, hget⟩ | ⟨i, f, hi, -, -, hget⟩ | ⟨i, f, -, -, -, hget⟩ <;>
    rw [hget]
  · exact connection_insertFlow_of_ne hm self p hne
  · rw [connection_insertFlow_of_ne ((hm.notifyFlowFinished i).erase _) self p hne,
      connection_notify_erase_of_ne hm hi hne]

/-! ## Adding the packet -/

omit [Double R] in
theorem notifyFlowClassified_eq {m : FlowManager R} {i : FlowId} {f : Flow R}
    (hf : m.heap[i]? = some f) : m.notifyFlowClassified i = m.tell i (.classified f) := by
  unfold notifyFlowClassified
  rw [hf]

theorem touches_applyPacket (S : Setup R) (m : FlowManager R) (i : FlowId) (p : IPv4Packet) :
    Touches i (·.apply S p) m (m.applyPacket S i p) := by
  unfold applyPacket
  cases hf : m.heap[i]? with
  | none =>
    refine ⟨rfl, rfl, fun _ => rfl, fun j => ?_⟩
    by_cases h : i = j
    · rw [if_pos h, record, ← h, hf]
      rfl
    · rw [if_neg h]
  | some f =>
    have hmod : Touches i (·.modify fun f => f.addPacket S p) m
        (m.modifyFlow i fun f => f.addPacket S p) :=
      touches_modifyFlow m i fun f => f.addPacket_hash S p
    have hnew : (m.modifyFlow i fun f => f.addPacket S p).heap[i]? = some (f.addPacket S p) := by
      rw [modifyFlow_heap, if_pos rfl, hf, Option.map_some]
    have hrec : m.record i = some { flow := f, told := m.told i } := by
      rw [record, hf, Option.map_some]
    simp only
    split
    next hclass =>
      rw [notifyFlowClassified_eq hnew]
      have htell := touches_tell (m.modifyFlow i fun f => f.addPacket S p) i
        (.classified (f.addPacket S p))
      refine ⟨hmod.flows, hmod.length, hmod.hashAt, fun j => ?_⟩
      rw [htell.record, hmod.record]
      by_cases h : i = j
      · subst h
        rw [if_pos rfl, if_pos rfl, if_pos rfl, hrec]
        simp only [Option.map_some, FlowRecord.apply, hclass, if_true]
        rfl
      · rw [if_neg h, if_neg h, if_neg h]
    next hclass =>
      refine ⟨hmod.flows, hmod.length, hmod.hashAt, fun j => ?_⟩
      rw [hmod.record]
      by_cases h : i = j
      · subst h
        rw [if_pos rfl, if_pos rfl, hrec]
        simp only [Option.map_some, FlowRecord.apply, hclass]
        rfl
      · rw [if_neg h, if_neg h]

theorem Indexed.applyPacket (hm : Indexed S m) (i : FlowId) (p : IPv4Packet) :
    Indexed S (m.applyPacket S i p) := by
  have hmod := hm.modifyFlow i (fun f => f.addPacket_hash S p)
    fun f => f.addPacket_firstPacketTuple S p
  unfold FlowManager.applyPacket
  cases hf : m.heap[i]? with
  | none => exact hm
  | some f =>
    have hnew : (m.modifyFlow i fun f => f.addPacket S p).heap[i]? = some (f.addPacket S p) := by
      rw [modifyFlow_heap, if_pos rfl, hf, Option.map_some]
    simp only
    split
    · rw [notifyFlowClassified_eq hnew]
      exact hmod.tell (List.getElem?_eq_some_iff.mp hnew).1 _
    · exact hmod

omit [Double R] in
/-- A flow with packets on the way is never replaced. -/
theorem replaces_of_havePktsInQueue (S : Setup R) {f : Flow R} (p : IPv4Packet)
    (h : f.havePktsInQueue = true) : replaces S f p = false := by
  unfold replaces
  simp only [h, Bool.not_true, Bool.false_and, Bool.and_false]
  cases p.transport with
  | udp => rfl
  | tcp flags =>
    simp only [Bool.toNat_false, Nat.not_lt_zero, decide_false, Bool.or_false]

omit [Double R] in
theorem inc_dec (m : FlowManager R) (i : FlowId) :
    (m.modifyFlow i Flow.incPktsInQueue).modifyFlow i Flow.decPktsInQueue = m := by
  have hid : (Flow.decPktsInQueue ∘ Flow.incPktsInQueue : Flow R → Flow R) = id := by
    funext f
    simp only [Function.comp_apply, Flow.decPktsInQueue, Flow.incPktsInQueue,
      Int.add_sub_cancel, id_eq]
  unfold modifyFlow
  rw [List.modify_modify_eq, hid, List.modify_id]

end Table

/-! ## Non-threaded mode -/

/-- What holds between two packets when nothing runs beside the caller. -/
structure Quiet (S : Setup R) (m : FlowManager R) : Prop extends Indexed S m where
  running : m.shutdown = false
  idle : Every (fun f => f.pktsInQueue = 0) m

section Quiet

variable {S : Setup R} {m : FlowManager R}

theorem quiet_init (S : Setup R) : Quiet S (init : FlowManager R) where
  toIndexed := Indexed.init S
  running := rfl
  idle i f h := by cases h

variable [Double R]

theorem newFlow_of_sequential (hseq : S.config.workerThreadsPerQueue = 0) (p : IPv4Packet) :
    m.newFlow S none p = Flow.new S p (S.staleBytes m.heap.length) := by
  unfold newFlow newQueueId
  rw [hseq, if_neg (Nat.lt_irrefl 0)]
  rfl

omit [Double R] in
@[simp] theorem notifyFlowFinished_shutdown (m : FlowManager R) (i : FlowId) :
    (m.notifyFlowFinished i).shutdown = m.shutdown := by
  rcases m.notifyFlowFinished_cases i with ⟨h, -⟩ | ⟨f, -, -, ⟨-, h⟩ | ⟨-, h⟩⟩ <;> rw [h] <;> rfl

omit [Double R] in
@[simp] theorem erase_shutdown (m : FlowManager R) (h : UInt32) :
    (m.erase h).shutdown = m.shutdown := by
  unfold erase
  split
  · rfl
  · simp only
    split <;> rfl

theorem getFlow_shutdown (S : Setup R) (self : Option Nat) (m : FlowManager R) (p : IPv4Packet) :
    (m.getFlow S self p).1.shutdown = m.shutdown := by
  have hinsert : ∀ m : FlowManager R, (m.insertFlow S self p).1.shutdown = m.shutdown := by
    intro m
    unfold insertFlow
    simp only
    split
    · split <;> rfl
    · rfl
  unfold getFlow
  split
  · exact hinsert m
  · split
    · rfl
    · split
      · rw [hinsert, erase_shutdown, notifyFlowFinished_shutdown]
      · rfl

theorem Quiet.getFlow (hm : Quiet S m) (self : Option Nat) (p : IPv4Packet) :
    Quiet S (m.getFlow S self p).1 where
  toIndexed := hm.toIndexed.getFlow self p
  running := by rw [getFlow_shutdown, hm.running]
  idle := hm.idle.getFlow self p (fun _ h => h) fun _ => rfl

theorem Quiet.applyPacket (hm : Quiet S m) (i : FlowId) (p : IPv4Packet) :
    Quiet S (m.applyPacket S i p) where
  toIndexed := hm.toIndexed.applyPacket i p
  running := by
    unfold FlowManager.applyPacket
    split
    · exact hm.running
    · simp only
      split
      · unfold notifyFlowClassified
        split <;> exact hm.running
      · exact hm.running
  idle := hm.idle.applyPacket i p fun f _ hf => by rw [f.addPacket_pktsInQueue, hf]

omit [Double R] in
theorem Quiet.notifyFlowFinished (hm : Quiet S m) (i : FlowId) :
    Quiet S (m.notifyFlowFinished i) where
  toIndexed := hm.toIndexed.notifyFlowFinished i
  running := by rw [notifyFlowFinished_shutdown, hm.running]
  idle := hm.idle.notifyFlowFinished i fun _ h => h

omit [Double R] in
theorem Quiet.erase (hm : Quiet S m) (h : UInt32) : Quiet S (m.erase h) where
  toIndexed := hm.toIndexed.erase h
  running := by rw [erase_shutdown, hm.running]
  idle := hm.idle.erase h

/-- The counter is up while `processPacket` looks the packet up again, so the second look-up finds
the flow of the first. -/
theorem getFlow_again (hm : Quiet S m) (p : IPv4Packet) :
    ((m.getFlow S none p).1.modifyFlow (m.getFlow S none p).2 Flow.incPktsInQueue).getFlow S none
        p =
      ((m.getFlow S none p).1.modifyFlow (m.getFlow S none p).2 Flow.incPktsInQueue,
        (m.getFlow S none p).2) := by
  have hq := hm.getFlow none p
  have hflows := getFlow_flows hm.toIndexed none p
  obtain ⟨f, hf, -⟩ := exists_of_hashAt (hq.valid _ _ hflows)
  have hidle : f.pktsInQueue = 0 := hq.idle _ f hf
  have hbusy : f.incPktsInQueue.havePktsInQueue = true := by
    simp only [Flow.havePktsInQueue, Flow.incPktsInQueue, hidle, Int.zero_add, Int.one_pos,
      decide_true]
  have hinc : ((m.getFlow S none p).1.modifyFlow (m.getFlow S none p).2
      Flow.incPktsInQueue).heap[(m.getFlow S none p).2]? = some f.incPktsInQueue := by
    rw [modifyFlow_heap, if_pos rfl, hf, Option.map_some]
  rw [getFlow_found none (by rw [modifyFlow_flows]; exact hflows) hinc,
    replaces_of_havePktsInQueue S p hbusy, if_neg Bool.false_ne_true]

/-- So the packet is added to the flow that is found first. -/
theorem addPacket_eq (hm : Quiet S m) (p : IPv4Packet) :
    m.addPacket S p =
      ((m.getFlow S none p).1.applyPacket S (m.getFlow S none p).2 p).closeFlow
        (m.getFlow S none p).2 := by
  unfold addPacket processPacket
  rw [if_neg (by rw [hm.running]; exact Bool.false_ne_true)]
  simp only [getFlow_again hm, inc_dec]

omit [Double R] in
/-- With no packet on the way, a closed state closes the connection's flow. -/
theorem closeFlow_eq (hm : Quiet S m) {i : FlowId} {f : Flow R} (hf : m.heap[i]? = some f) :
    m.closeFlow i = if f.isFinished then (m.notifyFlowFinished i).erase f.hash else m := by
  have hdelete : ∀ (m' : FlowManager R) (g : Flow R), Quiet S m' → m'.heap[i]? = some g →
      m'.deleteFlow i = m'.erase g.hash := by
    intro m' g hm' hg
    have hidle : g.havePktsInQueue = false := by
      simp only [Flow.havePktsInQueue, hm'.idle i g hg, Int.lt_irrefl, decide_false]
    unfold deleteFlow
    rw [hg]
    simp only [hidle, Bool.false_eq_true, if_false]
  unfold closeFlow
  rw [hf]
  by_cases hfin : f.flowState = .finished
  · have hhash := notifyFlowFinished_hashAt m i i
    rw [hashAt_of_heap hf] at hhash
    obtain ⟨g, hg, hgf⟩ := exists_of_hashAt hhash
    have hclosed : f.isFinished = true := by
      simp only [Flow.isFinished, hfin, beq_self_eq_true, Bool.true_or]
    simp only [hfin, if_true, hclosed, hdelete _ g (hm.notifyFlowFinished i) hg, hgf]
  · by_cases hnotified : f.flowState = .finishedNotified
    · have hclosed : f.isFinished = true := by
        simp only [Flow.isFinished, hnotified, beq_self_eq_true, Bool.or_true]
      have hsame : m.notifyFlowFinished i = m := by
        unfold FlowManager.notifyFlowFinished
        simp only [hf, hnotified, if_true]
      simp only [hnotified, reduceCtorEq, if_false, if_true, hclosed, hdelete m f hm hf, hsame]
    · have hopen : f.isFinished = false := by
        simp only [Flow.isFinished, beq_eq_false_iff_ne.mpr hfin, beq_eq_false_iff_ne.mpr hnotified,
          Bool.or_false]
      simp only [hfin, hnotified, hopen, Bool.false_eq_true, if_false]

omit [Double R] in
theorem Quiet.closeFlow (hm : Quiet S m) {i : FlowId} (hi : i < m.heap.length) :
    Quiet S (m.closeFlow i) := by
  rw [closeFlow_eq hm (List.getElem?_eq_getElem hi)]
  split
  · exact (hm.notifyFlowFinished i).erase _
  · exact hm

omit [Double R] in
theorem connection_closeFlow (hm : Quiet S m) {h : UInt32} {i : FlowId}
    (hi : m.flows h = some i) : (m.closeFlow i).connection h = (m.connection h).settle := by
  obtain ⟨f, hf, hhash⟩ := exists_of_hashAt (hm.valid h i hi)
  have hlive : (m.connection h).live = some { flow := f, told := m.told i } := by
    rw [connection, hi, Option.bind_some, record, hf, Option.map_some]
  rw [closeFlow_eq hm hf]
  simp only [Connection.settle, hlive]
  split
  · rw [hhash, connection_notify_erase hm.toIndexed hi]
  · rfl

omit [Double R] in
theorem connection_closeFlow_of_ne (hm : Quiet S m) {h k : UInt32} {i : FlowId}
    (hi : m.flows h = some i) (hne : k ≠ h) :
    (m.closeFlow i).connection k = m.connection k := by
  obtain ⟨f, hf, hhash⟩ := exists_of_hashAt (hm.valid h i hi)
  rw [closeFlow_eq hm hf]
  split
  · rw [hhash, connection_notify_erase_of_ne hm.toIndexed hi hne]
  · rfl

theorem Quiet.addPacket (hm : Quiet S m) (p : IPv4Packet) : Quiet S (m.addPacket S p) := by
  rw [addPacket_eq hm]
  have happly := (hm.getFlow none p).applyPacket (m.getFlow S none p).2 p
  apply happly.closeFlow
  have hlive := (hm.getFlow none p).valid _ _ (getFlow_flows hm.toIndexed none p)
  rw [(touches_applyPacket S _ _ p).length]
  exact lt_length_of_hashAt hlive

/-- **A packet acts on its connection.** -/
theorem connection_addPacket (hm : Quiet S m) (hseq : S.config.workerThreadsPerQueue = 0)
    (p : IPv4Packet) :
    (m.addPacket S p).connection (S.flowHash p.tuple) =
      (m.connection (S.flowHash p.tuple)).process S
        (Flow.new S p (S.staleBytes m.heap.length)) p := by
  have hq := hm.getFlow none p
  have hflows := getFlow_flows hm.toIndexed none p
  have happly := touches_applyPacket S (m.getFlow S none p).1 (m.getFlow S none p).2 p
  rw [addPacket_eq hm, connection_closeFlow (hq.applyPacket _ p) (happly.flows ▸ hflows),
    happly.connection hflows, connection_getFlow hm.toIndexed, newFlow_of_sequential hseq]
  rfl

/-- … and on no other. -/
theorem connection_addPacket_of_ne (hm : Quiet S m) (p : IPv4Packet) {k : UInt32}
    (hne : k ≠ S.flowHash p.tuple) : (m.addPacket S p).connection k = m.connection k := by
  have hq := hm.getFlow none p
  have hflows := getFlow_flows hm.toIndexed none p
  have happly := touches_applyPacket S (m.getFlow S none p).1 (m.getFlow S none p).2 p
  rw [addPacket_eq hm,
    connection_closeFlow_of_ne (hq.applyPacket _ p) (happly.flows ▸ hflows) hne,
    happly.connection_of_ne _ (hq.valid k), connection_getFlow_of_ne hm.toIndexed none p hne]
  rw [hq.valid _ _ hflows]
  exact fun heq => hne (Option.some.inj heq).symm

theorem quiet_addPackets (S : Setup R) (packets : List IPv4Packet) :
    Quiet S (addPackets S packets) := by
  unfold addPackets
  have hrun : ∀ m : FlowManager R, Quiet S m →
      Quiet S (packets.foldl (fun m p => m.addPacket S p) m) := by
    induction packets with
    | nil => exact fun m hm => hm
    | cons p packets ih => exact fun m hm => ih _ (hm.addPacket p)
  exact hrun init (quiet_init S)

theorem addPackets_append (S : Setup R) (packets : List IPv4Packet) (p : IPv4Packet) :
    addPackets S (packets ++ [p]) = (addPackets S packets).addPacket S p := by
  unfold addPackets
  rw [List.foldl_append, List.foldl_cons, List.foldl_nil]

/-! ## Properties of every flow of a run -/

omit [Double R] in
theorem Every.closeFlow {P : Flow R → Prop} (h : Every P m) (i : FlowId)
    (hmark : ∀ f, P f → P f.setFinishedAndNotified) : Every P (m.closeFlow i) := by
  have hdelete : ∀ m' : FlowManager R, Every P m' → Every P (m'.deleteFlow i) := by
    intro m' h'
    unfold deleteFlow
    split
    · exact h'
    · split
      · exact h'.modifyFlow i fun f _ => hmark f
      · exact h'.erase _
  unfold FlowManager.closeFlow
  split
  · exact h
  · split
    · exact hdelete _ (h.notifyFlowFinished i hmark)
    · split
      · exact hdelete _ h
      · exact h

theorem Every.addPacket {P : Flow R → Prop} (h : Every P m) (hm : Quiet S m) (p : IPv4Packet)
    (hmark : ∀ f, P f → P f.setFinishedAndNotified)
    (hpacket : ∀ f, P f → P (f.addPacket S p))
    (hnew : ∀ m' : FlowManager R, P (m'.newFlow S none p)) : Every P (m.addPacket S p) := by
  rw [addPacket_eq hm]
  exact ((h.getFlow none p hmark hnew).applyPacket _ p fun f _ => hpacket f).closeFlow _ hmark

omit [Double R] in
theorem Every.finished {P : Flow R → Prop} {m' : FlowManager R} {order : List UInt32}
    (h : Every P m) (hmark : ∀ f, P f → P f.setFinishedAndNotified)
    (hfinished : m.finished order = some m') : Every P m' := by
  refine finished_invariant h (fun m k m' h hentry => ?_) hfinished
  rcases sweepEntry_cases hentry with ⟨-, rfl⟩ | ⟨i, -, rfl⟩
  · exact h
  · exact (h.notifyFlowFinished i hmark).erase k

/-- A flow is opened by one of the packets. -/
theorem tuple_addPackets (S : Setup R) (packets : List IPv4Packet) :
    Every (fun f => ∃ p ∈ packets, f.firstPacketTuple = p.tuple) (addPackets S packets) := by
  induction packets using List.reverseRecOn with
  | nil => exact fun i f h => by cases h
  | append_singleton packets p ih =>
    rw [addPackets_append]
    have hwider : Every (fun f => ∃ q ∈ packets ++ [p], f.firstPacketTuple = q.tuple)
        (addPackets S packets) := by
      intro i f hf
      obtain ⟨q, hq, heq⟩ := ih i f hf
      exact ⟨q, List.mem_append_left _ hq, heq⟩
    apply hwider.addPacket (quiet_addPackets S packets)
    · exact fun f h => h
    · intro f h
      rw [f.addPacket_firstPacketTuple]
      exact h
    · exact fun m' => ⟨p, List.mem_append_right _ List.mem_cons_self, rfl⟩

/-- An order in which the table can be walked after a run. -/
def tableOrder (S : Setup R) (packets : List IPv4Packet) : List UInt32 :=
  (packets.map fun p => S.flowHash p.tuple).dedup.filter
    fun h => ((addPackets S packets).flows h).isSome

theorem walksTable_tableOrder (S : Setup R) (packets : List IPv4Packet) :
    (addPackets S packets).WalksTable (tableOrder S packets) := by
  refine ⟨(List.nodup_dedup _).filter _, fun h => ?_⟩
  unfold tableOrder
  rw [List.mem_filter, List.mem_dedup]
  refine ⟨fun hh => hh.2, fun hsome => ⟨?_, hsome⟩⟩
  obtain ⟨i, hi⟩ := Option.isSome_iff_exists.mp hsome
  have hq := quiet_addPackets S packets
  obtain ⟨f, hf, hhash⟩ := exists_of_hashAt (hq.valid h i hi)
  obtain ⟨p, hp, htuple⟩ := tuple_addPackets S packets i f hf
  refine List.mem_map.mpr ⟨p, hp, ?_⟩
  rw [← htuple, ← hq.keyed i f hf, hhash]

/-! ## The final sweep -/

omit [Double R] in
theorem sweepEntry_eq (hm : Quiet S m) (h : UInt32) :
    ∃ m', sweepEntry m h = some m' ∧ Quiet S m' ∧
      m'.connection h = (m.connection h).finish ∧
      ∀ k, k ≠ h → m'.connection k = m.connection k ∧ m'.flows k = m.flows k := by
  unfold sweepEntry
  cases hi : m.flows h with
  | none =>
    exact ⟨m, rfl, hm, (Connection.finish_of_none (connection_live_of_none hi)).symm,
      fun k _ => ⟨rfl, rfl⟩⟩
  | some i =>
    obtain ⟨f, hf, -⟩ := exists_of_hashAt (hm.valid h i hi)
    have hidle : f.havePktsInQueue = false := by
      simp only [Flow.havePktsInQueue, hm.idle i f hf, Int.lt_irrefl, decide_false]
    simp only [hf, hidle, Bool.false_eq_true, if_false]
    refine ⟨_, rfl, (hm.notifyFlowFinished i).erase h, connection_notify_erase hm.toIndexed hi, ?_⟩
    intro k hne
    refine ⟨connection_notify_erase_of_ne hm.toIndexed hi hne, ?_⟩
    rw [erase_flows, Function.update_of_ne hne, notifyFlowFinished_flows]

omit [Double R] in
/-- The sweep ends, and it has closed the connections it was given. -/
theorem finished_eq (hm : Quiet S m) {order : List UInt32} (hnodup : order.Nodup) :
    ∃ m', m.finished order = some m' ∧ Quiet S m' ∧
      (∀ h ∈ order, m'.connection h = (m.connection h).finish) ∧
      ∀ h, h ∉ order → m'.connection h = m.connection h ∧ m'.flows h = m.flows h := by
  induction order generalizing m with
  | nil => exact ⟨m, rfl, hm, fun h hh => absurd hh (List.not_mem_nil), fun h _ => ⟨rfl, rfl⟩⟩
  | cons h order ih =>
    obtain ⟨hnew, hnodup⟩ := List.nodup_cons.mp hnodup
    obtain ⟨m₁, hentry, hm₁, hhere, helse⟩ := sweepEntry_eq hm h
    obtain ⟨m₂, hrest, hm₂, hin, hout⟩ := ih hm₁ hnodup
    refine ⟨m₂, ?_, hm₂, ?_, ?_⟩
    · exact finished_cons.mpr ⟨m₁, hentry, hrest⟩
    · intro k hk
      rcases List.mem_cons.mp hk with rfl | hk
      · rw [(hout k hnew).1, hhere]
      · have hne : k ≠ h := fun heq => hnew (heq ▸ hk)
        rw [hin k hk, (helse k hne).1]
    · intro k hk
      have hne : k ≠ h := fun heq => hk (heq ▸ List.mem_cons_self)
      have hk' : k ∉ order := fun hmem => hk (List.mem_cons_of_mem h hmem)
      rw [(hout k hk').1, (hout k hk').2]
      exact helse k hne

omit [Double R] in
/-- **The final sweep closes every connection** and empties the table. -/
theorem connection_finished (hm : Quiet S m) {order : List UInt32} (hwalk : m.WalksTable order) :
    ∃ m', m.finished order = some m' ∧ Quiet S m' ∧ (∀ h, m'.flows h = none) ∧
      ∀ h, m'.connection h = (m.connection h).finish := by
  obtain ⟨m', hm', hquiet, hin, hout⟩ := finished_eq hm hwalk.1
  have hconnection : ∀ h, m'.connection h = (m.connection h).finish := by
    intro h
    by_cases hh : h ∈ order
    · exact hin h hh
    · have hnone : m.flows h = none := by
        cases hi : m.flows h with
        | none => rfl
        | some i => exact absurd ((hwalk.2 h).mpr (by rw [hi]; rfl)) hh
      rw [(hout h hh).1, Connection.finish_of_none (connection_live_of_none hnone)]
  refine ⟨m', hm', hquiet, fun h => ?_, hconnection⟩
  have hlive : (m'.connection h).live = none := by
    rw [hconnection]
    rfl
  cases hi : m'.flows h with
  | none => rfl
  | some i =>
    obtain ⟨f, hf, -⟩ := exists_of_hashAt (hquiet.valid h i hi)
    rw [connection, hi, Option.bind_some, record, hf] at hlive
    cases hlive

end Quiet

end FlowManager

end Vsid
