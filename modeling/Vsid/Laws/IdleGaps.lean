import Vsid.Laws.Ledger

/-!
# Idle gaps

Between two datagrams of one connection, packets of other connections leave the flow of the first
one where it is (`kept_between`). So the look-up of the second one finds that flow, with the time of
the first, and what decides is the gap between the two (`udp_cut_iff`).
-/

set_option autoImplicit false

namespace Vsid

namespace FlowManager

variable {R : Type} [Double R] {S : Setup R} {m : FlowManager R}

/-! ## Other traffic -/

/-- A packet does not change the table entries of other hashes. -/
theorem addPacket_flows_of_ne (hm : Quiet S m) (p : IPv4Packet) {k : UInt32}
    (hne : k ≠ S.flowHash p.tuple) : (m.addPacket S p).flows k = m.flows k := by
  have hlookup : (m.getFlow S none p).1.flows k = m.flows k := by
    rcases hm.getFlow_cases none p with ⟨-, hget⟩ | ⟨i, f, -, -, -, hget⟩ |
      ⟨i, f, -, -, -, hget⟩ <;> rw [hget]
    · rw [insertFlow_flows, Function.update_of_ne hne]
    · rw [insertFlow_flows, Function.update_of_ne hne, erase_flows, Function.update_of_ne hne,
        notifyFlowFinished_flows]
  have hq := (hm.getFlow none p).applyPacket (m.getFlow S none p).2 p
  have happly := touches_applyPacket S (m.getFlow S none p).1 (m.getFlow S none p).2 p
  have hvalid := hq.valid _ _ (happly.flows ▸ getFlow_flows hm.toIndexed none p)
  obtain ⟨f, hf, hhash⟩ := exists_of_hashAt hvalid
  rw [addPacket_eq hm, closeFlow_eq hq hf]
  split
  · rw [erase_flows, hhash, Function.update_of_ne hne, notifyFlowFinished_flows, happly.flows,
      hlookup]
  · rw [happly.flows, hlookup]

/-- Packets of other hashes leave a connection and its table entry alone. -/
theorem kept_between (hm : Quiet S m) {others : List IPv4Packet} {k : UInt32}
    (hne : ∀ r ∈ others, k ≠ S.flowHash r.tuple) :
    (others.foldl (fun m r => m.addPacket S r) m).flows k = m.flows k ∧
      (others.foldl (fun m r => m.addPacket S r) m).connection k = m.connection k := by
  induction others generalizing m with
  | nil => exact ⟨rfl, rfl⟩
  | cons r others ih =>
    have hhere := hne r List.mem_cons_self
    obtain ⟨hflows, hconnection⟩ := ih (hm.addPacket r)
      fun r' hr' => hne r' (List.mem_cons_of_mem r hr')
    rw [List.foldl_cons, hflows, hconnection]
    exact ⟨addPacket_flows_of_ne hm r hhere, connection_addPacket_of_ne hm r hhere⟩

omit [Double R] in
theorem record_of_connection {k : UInt32} {i : FlowId} (hi : m.flows k = some i) :
    (m.connection k).live = m.record i := by
  rw [connection, hi, Option.bind_some]

theorem Sequential.foldl {packets : List IPv4Packet} (h : Sequential S packets m)
    (others : List IPv4Packet) :
    Sequential S (packets ++ others) (others.foldl (fun m r => m.addPacket S r) m) := by
  induction others generalizing packets m with
  | nil => rwa [List.append_nil]
  | cons r others ih =>
    rw [List.foldl_cons, List.append_cons]
    exact ih (h.addPacket r)

theorem Quiet.foldl (hm : Quiet S m) (others : List IPv4Packet) :
    Quiet S (others.foldl (fun m r => m.addPacket S r) m) := by
  induction others generalizing m with
  | nil => exact hm
  | cons r others ih => exact ih (hm.addPacket r)

/-! ## The stages of a flow, over all runs -/

omit [Double R] in
theorem valid_sweepEntry (hm : Indexed S m) (hvalid : ∀ k, (m.connection k).Valid)
    {h : UInt32} {m' : FlowManager R} (hentry : m.sweepEntry h = some m') (k : UInt32) :
    (m'.connection k).Valid := by
  rcases sweepEntry_cases hentry with ⟨-, rfl⟩ | ⟨i, hi, rfl⟩
  · exact hvalid k
  · by_cases hk : k = h
    · rw [hk, connection_notify_erase hm hi]
      exact (hvalid h).finish
    · rw [connection_notify_erase_of_ne hm hi hk]
      exact hvalid k

omit [Double R] in
theorem valid_finished (hm : Indexed S m) (hvalid : ∀ k, (m.connection k).Valid)
    {order : List UInt32} {m' : FlowManager R} (hfinished : m.finished order = some m')
    (k : UInt32) : (m'.connection k).Valid := by
  have hboth : Indexed S m' ∧ ∀ k, (m'.connection k).Valid := by
    refine finished_invariant (I := fun m => Indexed S m ∧ ∀ k, (m.connection k).Valid)
      ⟨hm, hvalid⟩ (fun m h m' hold hentry => ?_) hfinished
    exact ⟨hold.1.sweepEntry hentry, valid_sweepEntry hold.1 hold.2 hentry⟩
  exact hboth.2 k

/-- Between two calls, the flows of every connection are in their stages. -/
theorem Sequential.valid (hseq : S.config.workerThreadsPerQueue = 0)
    {packets : List IPv4Packet} (h : Sequential S packets m) (k : UInt32) :
    (m.connection k).Valid := by
  induction h generalizing k with
  | init => exact Connection.valid_empty
  | @addPacket packets m p hm ih =>
    cases hdown : m.shutdown with
    | true =>
      rw [addPacket_of_shutdown hdown]
      exact ih k
    | false =>
      have hquiet := hm.quiet hdown
      by_cases hk : k = S.flowHash p.tuple
      · rw [hk, connection_addPacket hquiet hseq]
        exact (ih _).process S p _
      · rw [connection_addPacket_of_ne hquiet p hk]
        exact ih k
  | finished hm hfinished ih => exact valid_finished hm.sound.1 ih hfinished k
  | shutdown _ ih => exact ih k

/-! ## The second datagram -/

/-- The packet is the first of a new flow: flow `i`, whose end was not processed yet, is marked as
finished and leaves the table, and only then the new flow is created and takes the packet. -/
structure CutsOff (S : Setup R) (m : FlowManager R) (p : IPv4Packet) (i : FlowId) (f : Flow R) :
    Prop where
  active : m.heap[i]? = some f ∧ f.flowState ≠ .finishedNotified ∧ Announced f (m.told i)
  lookup : m.getFlow S none p =
    ((m.notifyFlowFinished i).erase (S.flowHash p.tuple)).insertFlow S none p
  marked : (m.addPacket S p).heap[i]? = some f.setFinishedAndNotified
  created : m.appliedTo S p = some m.heap.length
  startsOver : StartsOver S m p i f

/-- The flow of the datagram before is found, and the gap decides. -/
theorem cutsOff_iff (hseq : S.config.workerThreadsPerQueue = 0) {packets : List IPv4Packet}
    (h : Sequential S packets m) (hup : m.shutdown = false) {p : IPv4Packet}
    (hudp : p.transport = .udp) {i : FlowId} {f : Flow R}
    (hi : m.flows (S.flowHash p.tuple) = some i) (hf : m.heap[i]? = some f) :
    (m.appliedTo S p = some i ↔
      p.timestamp.sec - f.lastPacketTimestamp.sec ≤ (S.config.udpFlowTimeout.toNat : Int)) ∧
    (m.appliedTo S p ≠ some i → CutsOff S m p i f) := by
  have hm := h.quiet hup
  have hidle := (h.found hseq hi hf).2
  have hlt := (List.getElem?_eq_some_iff.mp hf).1
  have hget := getFlow_found none hi hf
  have hnew : (((m.notifyFlowFinished i).erase (S.flowHash p.tuple)).insertFlow S none p).2 =
      m.heap.length := by
    rw [insertFlow_snd, erase_heap, notifyFlowFinished_length]
  rw [← Int.not_lt, ← replaces_udp_iff hudp hidle, appliedTo_eq hm]
  cases hrep : replaces S f p with
  | false =>
    rw [hrep, if_neg Bool.false_ne_true] at hget
    rw [hget]
    exact ⟨⟨fun _ => Bool.false_ne_true, fun _ => rfl⟩, fun hne => absurd rfl hne⟩
  | true =>
    rw [hrep, if_pos rfl] at hget
    refine ⟨⟨fun heq => ?_, fun hne => absurd rfl hne⟩, fun _ => ?_⟩
    · rw [hget, hnew] at heq
      exact absurd (Option.some.inj heq).symm (Nat.ne_of_lt hlt)
    · have hopen : FlowRecord.Open { flow := f, told := m.told i } := by
        refine (h.valid hseq (S.flowHash p.tuple)).open_ _ ?_
        rw [record_of_connection hi, record, hf, Option.map_some]
      have hstart : StartsOver S m p i f := (h.startsOver_iff hseq hi hf).mpr ⟨hup, hrep⟩
      refine ⟨⟨hf, hopen.unnotified, hopen.announced⟩, hget, ?_, ?_, hstart⟩
      · have hrecord : (m.addPacket S p).record i =
            (m.record i).map fun r => r.notifyFinished.remove := by
          have hflows := getFlow_flows hm.toIndexed none p
          have hne : (m.getFlow S none p).2 ≠ i := by
            rw [hget, hnew]
            exact Nat.ne_of_gt hlt
          rw [addPacket_eq hm, settled_record_of_ne (hm.getFlow none p) hflows hne, hget,
            insertFlow_record_of_lt ((hm.toIndexed.notifyFlowFinished i).erase _) none p
              (by rw [erase_heap, notifyFlowFinished_length]; exact hlt), notify_erase_record hi]
        rw [record, record, hf, Option.map_some, Option.map_some] at hrecord
        obtain ⟨g, hg, heq⟩ := Option.map_eq_some_iff.mp hrecord
        have hflow := congrArg FlowRecord.flow heq
        unfold FlowRecord.notifyFinished at hflow
        rw [if_neg hopen.unnotified] at hflow
        rw [hg, show g = _ from hflow]
        split <;> rfl
      · rw [appliedTo_eq hm, hget, hnew]

/-- **UDP flows are cut exactly at idle gaps.** Between two datagrams of one connection there are
only packets of other connections, with other hashes. The second one is added to the flow of the
first unless the gap is longer than the timeout; then that flow is finished, once, before the flow
of the second one is created. -/
theorem udp_cut_iff (hseq : S.config.workerThreadsPerQueue = 0) {packets : List IPv4Packet}
    (h : Sequential S packets m) (hup : m.shutdown = false) {p q : IPv4Packet}
    (hp : p.transport = .udp) (hq : q.transport = .udp)
    (hsame : p.tuple.sameFlow q.tuple = true) {others : List IPv4Packet}
    (hothers : ∀ r ∈ others, r.tuple.sameFlow p.tuple = false)
    (hfree : CollisionFree S others p.tuple) {m' : FlowManager R}
    (hm' : m' = others.foldl (fun m r => m.addPacket S r) (m.addPacket S p)) :
    (m'.appliedTo S q = m.appliedTo S p ↔
      q.timestamp.sec - p.timestamp.sec ≤ (S.config.udpFlowTimeout.toNat : Int)) ∧
    (m'.appliedTo S q ≠ m.appliedTo S p →
      ∃ i f, m.appliedTo S p = some i ∧ f.lastPacketTimestamp = p.timestamp ∧
        CutsOff S m' q i f) := by
  have hm := h.quiet hup
  have hm₁ := hm.addPacket p
  obtain ⟨hflows, f, hf, htime⟩ := udp_addPacket hseq h hup hp
  have hne : ∀ r ∈ others, S.flowHash p.tuple ≠ S.flowHash r.tuple := by
    intro r hr heq
    exact absurd ((hothers r hr).symm.trans (hfree r hr heq.symm)) Bool.false_ne_true
  obtain ⟨hflows', hconnection⟩ := kept_between hm₁ hne
  have hup' := (hm₁.foldl others).running
  rw [← hm'] at hflows' hconnection hup'
  rw [hflows] at hflows'
  have hf' : m'.heap[(m.getFlow S none p).2]? = some f := by
    have hlive := congrArg Connection.live hconnection
    rw [record_of_connection hflows', record_of_connection hflows, record, record, hf,
      Option.map_some] at hlive
    obtain ⟨g, hg, heq⟩ := Option.map_eq_some_iff.mp hlive
    rw [hg]
    exact congrArg some (FlowRecord.mk.inj heq).1
  have hrun : Sequential S (packets ++ [p] ++ others) m' := by
    rw [hm']
    exact (h.addPacket p).foldl others
  rw [S.flowHash_sameFlow hsame] at hflows'
  obtain ⟨hiff, hcut⟩ := cutsOff_iff hseq hrun hup' hq hflows' hf'
  rw [appliedTo_eq hm, ← htime]
  exact ⟨hiff, fun hdiffers => ⟨_, f, rfl, rfl, hcut hdiffers⟩⟩

/-- A datagram of another host, and an hour later one of the connection of `Flow.oneByte`. -/
def otherHost : IPv4Packet := ⟨0x0300000a, 1053, 0x0200000a, 53, .udp, [1], ⟨1, 0⟩⟩

@[inherit_doc otherHost]
def anHourLater : IPv4Packet := ⟨0x0200000a, 53, 0x0100000a, 1053, .udp, [1], ⟨3600, 0⟩⟩

theorem anHourLater_cut : ∃ i f,
    (init : FlowManager ℚ).appliedTo Setup.initial Flow.oneByte = some i ∧
      f.lastPacketTimestamp = Flow.oneByte.timestamp ∧
      CutsOff Setup.initial (((init : FlowManager ℚ).addPacket Setup.initial
        Flow.oneByte).addPacket Setup.initial otherHost) anHourLater i f := by
  have hothers : ∀ r ∈ [otherHost], r.tuple.sameFlow Flow.oneByte.tuple = false := by
    decide +kernel
  obtain ⟨hiff, hcut⟩ := udp_cut_iff (S := (Setup.initial : Setup ℚ)) rfl .init rfl
    (p := Flow.oneByte) (q := anHourLater) rfl rfl (by decide +kernel) hothers
    (by decide +kernel) rfl
  exact hcut fun heq => absurd (hiff.mp heq) (by decide +kernel)

end FlowManager

end Vsid
