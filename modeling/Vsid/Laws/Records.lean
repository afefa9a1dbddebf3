import Vsid.Laws.Lifecycle

/-!
# The records of single flows

`Vsid.Laws.Connection` says what a packet does to a connection. Here is what it does, in
non-threaded mode, to the record of one flow: a flow that has left the table is never touched again
(`record_of_gone`), and `StartsOver` is what it means that a packet ends a flow and opens the next
one. The latter comes about exactly when one of the timeout tests of `getFlow` fires.
-/

set_option autoImplicit false

namespace Vsid

namespace FlowManager

variable {R : Type} {S : Setup R} {m : FlowManager R}

/-- The flow is not in the table. -/
def Gone (m : FlowManager R) (i : FlowId) : Prop := ∀ h, m.flows h ≠ some i

/-- The notification and the removal leave the other records as they are. -/
theorem notify_erase_record_of_ne {h : UInt32} {i k : FlowId} (hk : m.flows h = some k)
    (hne : k ≠ i) : ((m.notifyFlowFinished k).erase h).record i = m.record i := by
  have hflows : (m.notifyFlowFinished k).flows h = some k := by
    rw [notifyFlowFinished_flows, hk]
  rw [erase_record hflows, if_neg hne, notifyFlowFinished_record, if_neg hne]

theorem notify_erase_record {h : UInt32} {i : FlowId} (hi : m.flows h = some i) :
    ((m.notifyFlowFinished i).erase h).record i =
      (m.record i).map fun r => r.notifyFinished.remove := by
  have hflows : (m.notifyFlowFinished i).flows h = some i := by
    rw [notifyFlowFinished_flows, hi]
  rw [erase_record hflows, if_pos rfl, notifyFlowFinished_record, if_pos rfl, Option.map_map]
  rfl

theorem gone_notify_erase {h : UInt32} {i k : FlowId} (hgone : m.Gone i) :
    ((m.notifyFlowFinished k).erase h).Gone i := by
  intro h'
  rw [erase_flows, notifyFlowFinished_flows]
  by_cases hh : h' = h
  · rw [hh, Function.update_self]
    exact (Option.some_ne_none i).symm
  · rw [Function.update_of_ne hh]
    exact hgone h'

/-- A flow is open under one hash only. -/
theorem Indexed.ne_of_keys (hm : Indexed S m) {h k : UInt32} {i j : FlowId}
    (hi : m.flows k = some i) (hj : m.flows h = some j) (hne : h ≠ k) : i ≠ j := by
  intro heq
  have hhash := hm.valid h j hj
  rw [← heq, hm.valid k i hi] at hhash
  exact hne (Option.some.inj hhash).symm

theorem gone_of_erased (hm : Indexed S m) {h : UInt32} {i : FlowId} (hi : m.flows h = some i) :
    ((m.notifyFlowFinished i).erase h).Gone i := by
  intro h'
  rw [erase_flows, notifyFlowFinished_flows]
  by_cases hh : h' = h
  · rw [hh, Function.update_self]
    exact (Option.some_ne_none i).symm
  · rw [Function.update_of_ne hh]
    intro heq
    exact hm.ne_of_keys hi heq hh rfl

variable [Double R]

/-- What `processPacket` does after the look-up concerns one flow. -/
theorem settled_record_of_ne (hm : Quiet S m) {h : UInt32} {i k : FlowId}
    (hk : m.flows h = some k) (hne : k ≠ i) (p : IPv4Packet) :
    ((m.applyPacket S k p).closeFlow k).record i = m.record i := by
  have happly := touches_applyPacket S m k p
  have hquiet := hm.applyPacket k p
  have hflows : (m.applyPacket S k p).flows h = some k := by rw [happly.flows, hk]
  obtain ⟨f, hf, hhash⟩ := exists_of_hashAt (hquiet.valid h k hflows)
  have hsame : (m.applyPacket S k p).record i = m.record i := by
    rw [happly.record, if_neg hne]
  rw [closeFlow_eq hquiet hf]
  split
  · rw [hhash, notify_erase_record_of_ne hflows hne, hsame]
  · exact hsame

theorem gone_settled (hm : Quiet S m) {h : UInt32} {i k : FlowId} (hk : m.flows h = some k)
    (hgone : m.Gone i) (p : IPv4Packet) : ((m.applyPacket S k p).closeFlow k).Gone i := by
  have happly := touches_applyPacket S m k p
  have hquiet := hm.applyPacket k p
  have hflows : (m.applyPacket S k p).flows h = some k := by rw [happly.flows, hk]
  obtain ⟨f, hf, -⟩ := exists_of_hashAt (hquiet.valid h k hflows)
  have hgone' : (m.applyPacket S k p).Gone i := by
    intro h'
    rw [happly.flows]
    exact hgone h'
  rw [closeFlow_eq hquiet hf]
  split
  · exact gone_notify_erase hgone'
  · exact hgone'

theorem insertFlow_record_of_lt (hm : Indexed S m) (self : Option Nat) (p : IPv4Packet)
    {i : FlowId} (hi : i < m.heap.length) : (m.insertFlow S self p).1.record i = m.record i := by
  rw [insertFlow_record hm.told, if_neg (Nat.ne_of_lt hi)]

theorem gone_insertFlow {i : FlowId} (hi : i < m.heap.length) (hgone : m.Gone i)
    (self : Option Nat) (p : IPv4Packet) : (m.insertFlow S self p).1.Gone i := by
  intro h
  rw [insertFlow_flows]
  by_cases hh : h = S.flowHash p.tuple
  · rw [hh, Function.update_self]
    exact fun heq => Nat.ne_of_gt hi (Option.some.inj heq)
  · rw [Function.update_of_ne hh]
    exact hgone h

/-- **A flow that has left the table is left alone.** -/
theorem record_of_gone (hm : Quiet S m) {i : FlowId} (hi : i < m.heap.length)
    (hgone : m.Gone i) (p : IPv4Packet) :
    (m.addPacket S p).record i = m.record i ∧ (m.addPacket S p).Gone i := by
  have hlookup : (m.getFlow S none p).1.record i = m.record i ∧ (m.getFlow S none p).1.Gone i ∧
      (m.getFlow S none p).2 ≠ i := by
    have hother : ∀ {k : FlowId}, m.flows (S.flowHash p.tuple) = some k → k ≠ i :=
      fun hk heq => hgone _ (heq ▸ hk)
    rcases hm.getFlow_cases none p with ⟨-, hget⟩ | ⟨k, f, hk, -, -, hget⟩ |
      ⟨k, f, hk, -, -, hget⟩ <;> rw [hget]
    · refine ⟨insertFlow_record_of_lt hm.toIndexed none p hi, gone_insertFlow hi hgone none p, ?_⟩
      rw [insertFlow_snd]
      exact Nat.ne_of_gt hi
    · have hindexed := (hm.toIndexed.notifyFlowFinished k).erase (S.flowHash p.tuple)
      have hlt : i < ((m.notifyFlowFinished k).erase (S.flowHash p.tuple)).heap.length := by
        rw [erase_heap, notifyFlowFinished_length]
        exact hi
      refine ⟨?_, gone_insertFlow hlt (gone_notify_erase hgone) none p, ?_⟩
      · rw [insertFlow_record_of_lt hindexed none p hlt, notify_erase_record_of_ne hk (hother hk)]
      · rw [insertFlow_snd]
        exact Nat.ne_of_gt hlt
    · exact ⟨rfl, hgone, hother hk⟩
  obtain ⟨hrecord, hgone', hne⟩ := hlookup
  have hquiet := hm.getFlow none p
  have hflows := getFlow_flows hm.toIndexed none p
  rw [addPacket_eq hm]
  exact ⟨by rw [settled_record_of_ne hquiet hflows hne, hrecord],
    gone_settled hquiet hflows hgone' p⟩

/-! ## Starting over -/

omit [Double R] in
@[simp] theorem closeFlow_length (hm : Quiet S m) {i : FlowId} (hi : i < m.heap.length) :
    (m.closeFlow i).heap.length = m.heap.length := by
  rw [closeFlow_eq hm (List.getElem?_eq_getElem hi)]
  split
  · rw [erase_heap, notifyFlowFinished_length]
  · rfl

/-- Only the look-up creates flows. -/
theorem addPacket_length (hm : Quiet S m) (p : IPv4Packet) :
    (m.addPacket S p).heap.length = (m.getFlow S none p).1.heap.length := by
  have happly := touches_applyPacket S (m.getFlow S none p).1 (m.getFlow S none p).2 p
  have hquiet := hm.getFlow none p
  have hlt := lt_length_of_hashAt (hquiet.valid _ _ (getFlow_flows hm.toIndexed none p))
  rw [addPacket_eq hm, closeFlow_length (hquiet.applyPacket _ p) (by rw [happly.length]; exact hlt),
    happly.length]

/-- The flow after its packet, before and after the notification. -/
theorem settled_flow (hm : Quiet S m) {k : FlowId} {f : Flow R} (hf : m.heap[k]? = some f)
    (p : IPv4Packet) :
    ∃ g, ((m.applyPacket S k p).closeFlow k).heap[k]? = some g ∧
      (g = f.addPacket S p ∨ g = (f.addPacket S p).setFinishedAndNotified) := by
  have happly := touches_applyPacket S m k p
  have hquiet := hm.applyPacket k p
  have hrecord : (m.applyPacket S k p).record k =
      some (({ flow := f, told := m.told k } : FlowRecord R).apply S p) := by
    rw [happly.record, if_pos rfl, record, hf, Option.map_some, Option.map_some]
  have hflow : (({ flow := f, told := m.told k } : FlowRecord R).apply S p).flow =
      f.addPacket S p := by
    unfold FlowRecord.apply
    simp only
    split <;> rfl
  have hheap : (m.applyPacket S k p).heap[k]? = some (f.addPacket S p) := by
    obtain ⟨g, hg, hrec⟩ := Option.map_eq_some_iff.mp hrecord
    rw [hg, ← hflow, ← hrec]
  rw [closeFlow_eq hquiet hheap]
  split
  · rw [erase_heap]
    rcases (m.applyPacket S k p).notifyFlowFinished_cases k with
      ⟨h, -⟩ | ⟨g, -, -, ⟨-, h⟩ | ⟨-, h⟩⟩ <;> rw [h]
    · exact ⟨_, hheap, Or.inl rfl⟩
    · refine ⟨_, ?_, Or.inr rfl⟩
      rw [modifyFlow_heap, if_pos rfl, hheap, Option.map_some]
    · refine ⟨_, ?_, Or.inr rfl⟩
      rw [modifyFlow_heap, if_pos rfl, tell_heap, hheap, Option.map_some]
  · exact ⟨_, hheap, Or.inl rfl⟩

/-- What is said at the end of a flow. -/
def farewell (f : Flow R) : List (Note R) :=
  (if tooFewPackets f then [] else [.finished f]) ++ [.removed f.setFinishedAndNotified]

/-- The packet ends flow `i`, which is reported unless it is too small and leaves the table, and is
itself the first packet of a new flow. -/
structure StartsOver (S : Setup R) (m : FlowManager R) (p : IPv4Packet) (i : FlowId) (f : Flow R) :
    Prop where
  reported : (m.addPacket S p).told i = m.told i ++ farewell f
  removed : (m.addPacket S p).Gone i
  applied : ∃ g, (m.addPacket S p).heap[m.heap.length]? = some g ∧
    (g = (Flow.new S p (S.staleBytes m.heap.length)).addPacket S p ∨
      g = ((Flow.new S p (S.staleBytes m.heap.length)).addPacket S p).setFinishedAndNotified)

/-- **A packet starts a flow over exactly when a timeout test fires.** -/
theorem startsOver_iff (hm : Quiet S m) (hseq : S.config.workerThreadsPerQueue = 0)
    {p : IPv4Packet} {i : FlowId} {f : Flow R} (hi : m.flows (S.flowHash p.tuple) = some i)
    (hf : m.heap[i]? = some f) (hopen : f.flowState ≠ .finishedNotified) :
    StartsOver S m p i f ↔ replaces S f p = true := by
  have hquiet := hm.getFlow none p
  have hflows := getFlow_flows hm.toIndexed none p
  constructor
  · intro h
    cases hrep : replaces S f p with
    | true => rfl
    | false =>
      have hget := getFlow_found none hi hf
      rw [hrep, if_neg Bool.false_ne_true] at hget
      obtain ⟨g, hg, -⟩ := h.applied
      have hlt := (List.getElem?_eq_some_iff.mp hg).1
      rw [addPacket_length hm, hget] at hlt
      exact absurd hlt (Nat.lt_irrefl _)
  · intro hrep
    have hget := getFlow_found none hi hf
    rw [hrep, if_pos rfl] at hget
    have hindexed := (hm.toIndexed.notifyFlowFinished i).erase (S.flowHash p.tuple)
    have hlength : ((m.notifyFlowFinished i).erase (S.flowHash p.tuple)).heap.length =
        m.heap.length := by rw [erase_heap, notifyFlowFinished_length]
    have hlt : i < ((m.notifyFlowFinished i).erase (S.flowHash p.tuple)).heap.length := by
      rw [hlength]
      exact (List.getElem?_eq_some_iff.mp hf).1
    have hk : (m.getFlow S none p).2 = m.heap.length := by rw [hget, insertFlow_snd, hlength]
    have hne : (m.getFlow S none p).2 ≠ i := by
      rw [hk, ← hlength]
      exact Nat.ne_of_gt hlt
    have hrecord : (m.getFlow S none p).1.record i =
        some { flow := f.setFinishedAndNotified, told := m.told i ++ farewell f } := by
      rw [hget, insertFlow_record_of_lt hindexed none p hlt, notify_erase_record hi, record, hf]
      simp only [Option.map_some, FlowRecord.notifyFinished, if_neg hopen, farewell]
      split
      · rfl
      · simp only [FlowRecord.remove, FlowRecord.tell, FlowRecord.modify, List.append_assoc]
    have hgone : (m.getFlow S none p).1.Gone i := by
      rw [hget]
      exact gone_insertFlow hlt (gone_of_erased hm.toIndexed hi) none p
    have hnew : (m.getFlow S none p).1.heap[m.heap.length]? =
        some (Flow.new S p (S.staleBytes m.heap.length)) := by
      rw [hget, insertFlow_heap, ← hlength, List.getElem?_concat_length,
        newFlow_of_sequential hseq]
    refine ⟨?_, ?_, ?_⟩
    · have hafter : (m.addPacket S p).record i =
          some { flow := f.setFinishedAndNotified, told := m.told i ++ farewell f } := by
        rw [addPacket_eq hm, settled_record_of_ne hquiet hflows hne, hrecord]
      obtain ⟨g, -, hg⟩ := Option.map_eq_some_iff.mp hafter
      exact (FlowRecord.mk.inj hg).2
    · rw [addPacket_eq hm]
      exact gone_settled hquiet hflows hgone p
    · rw [addPacket_eq hm, hk]
      exact settled_flow hquiet hnew p

end FlowManager

end Vsid
