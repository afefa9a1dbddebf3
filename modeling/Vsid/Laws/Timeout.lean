import Vsid.Laws.Collisions
import Vsid.Laws.Records

/-!
# Idle flows

What `getFlow` does about a flow that has not seen a packet for longer than its protocol's timeout.
In non-threaded mode no flow of the table is finished between two packets (`Sequential.unfinished`),
so the timeout test decides alone. A UDP packet after the timeout starts its flow over; a TCP packet
does so only if the timeout is set to zero, since the test compares it with a truth value.
-/

set_option autoImplicit false

namespace Vsid

variable {R : Type}

/-- A connection whose open flow, if it has one, is not finished. -/
def Connection.Unfinished (c : Connection R) : Prop :=
  ∀ r, c.live = some r → r.flow.isFinished = false

theorem Connection.unfinished_of_none {c : Connection R} (h : c.live = none) : c.Unfinished := by
  intro r hr
  rw [h] at hr
  cases hr

theorem Connection.unfinished_settle (c : Connection R) : c.settle.Unfinished := by
  unfold Connection.settle
  split
  next hnone => exact unfinished_of_none hnone
  next r hr =>
    split
    next => exact unfinished_of_none rfl
    next hopen =>
      intro r' hr'
      rw [hr] at hr'
      cases hr'
      exact Bool.not_eq_true _ ▸ hopen

namespace FlowManager

variable {S : Setup R} {m : FlowManager R}

theorem unfinished_sweepEntry (hm : Indexed S m) (hopen : ∀ k, (m.connection k).Unfinished)
    {h : UInt32} {m' : FlowManager R} (hentry : m.sweepEntry h = some m') (k : UInt32) :
    (m'.connection k).Unfinished := by
  rcases sweepEntry_cases hentry with ⟨-, rfl⟩ | ⟨i, hi, rfl⟩
  · exact hopen k
  · by_cases hk : k = h
    · rw [hk, connection_notify_erase hm hi]
      exact Connection.unfinished_of_none rfl
    · rw [connection_notify_erase_of_ne hm hi hk]
      exact hopen k

theorem unfinished_finished (hm : Indexed S m) (hopen : ∀ k, (m.connection k).Unfinished)
    {order : List UInt32} {m' : FlowManager R} (hfinished : m.finished order = some m')
    (k : UInt32) : (m'.connection k).Unfinished := by
  have hboth : Indexed S m' ∧ ∀ k, (m'.connection k).Unfinished := by
    refine finished_invariant (I := fun m => Indexed S m ∧ ∀ k, (m.connection k).Unfinished)
      ⟨hm, hopen⟩ (fun m h m' hold hentry => ?_) hfinished
    exact ⟨hold.1.sweepEntry hentry, unfinished_sweepEntry hold.1 hold.2 hentry⟩
  exact hboth.2 k

variable [Double R]

theorem Sequential.quiet {packets : List IPv4Packet} (h : Sequential S packets m)
    (hrun : m.shutdown = false) : Quiet S m :=
  ⟨h.sound.1, hrun, h.sound.2.1⟩

theorem addPacket_of_shutdown (hdown : m.shutdown = true) (p : IPv4Packet) :
    m.addPacket S p = m := by
  unfold FlowManager.addPacket
  rw [if_pos hdown]

/-- Between two calls, no flow of the table is finished. -/
theorem Sequential.unfinished (hseq : S.config.workerThreadsPerQueue = 0)
    {packets : List IPv4Packet} (h : Sequential S packets m) (k : UInt32) :
    (m.connection k).Unfinished := by
  induction h generalizing k with
  | init => exact Connection.unfinished_of_none rfl
  | @addPacket packets m p hm ih =>
    cases hdown : m.shutdown with
    | true =>
      rw [addPacket_of_shutdown hdown]
      exact ih k
    | false =>
      have hquiet := hm.quiet hdown
      by_cases hk : k = S.flowHash p.tuple
      · rw [hk, connection_addPacket hquiet hseq]
        exact Connection.unfinished_settle _
      · rw [connection_addPacket_of_ne hquiet p hk]
        exact ih k
  | finished hm hfinished ih => exact unfinished_finished hm.sound.1 ih hfinished k
  | shutdown _ ih => exact ih k

/-- The flow found for a packet is neither finished nor waiting for packets. -/
theorem Sequential.found (hseq : S.config.workerThreadsPerQueue = 0) {packets : List IPv4Packet}
    (h : Sequential S packets m) {k : UInt32} {i : FlowId} {f : Flow R} (hi : m.flows k = some i)
    (hf : m.heap[i]? = some f) : f.isFinished = false ∧ f.havePktsInQueue = false := by
  constructor
  · refine h.unfinished hseq k { flow := f, told := m.told i } ?_
    rw [connection, hi, Option.bind_some, record, hf, Option.map_some]
  · simp only [Flow.havePktsInQueue, h.sound.2.1 i f hf, Int.lt_irrefl, decide_false]

omit [Double R] in
/-- A UDP flow is replaced after the timeout. -/
theorem replaces_udp {f : Flow R} {p : IPv4Packet} (hudp : p.transport = .udp)
    (hidle : f.havePktsInQueue = false)
    (hlate : (S.config.udpFlowTimeout.toNat : Int) <
      p.timestamp.sec - f.lastPacketTimestamp.sec) : replaces S f p = true := by
  unfold replaces
  simp only [hudp, hidle, decide_eq_true hlate, Bool.not_false, Bool.and_self]

omit [Double R] in
/-- A TCP flow that is late meets the value 1, not its idle time, with the timeout. -/
theorem replaces_tcp {f : Flow R} {p : IPv4Packet} {flags : UInt8}
    (htcp : p.transport = .tcp flags) (hidle : f.havePktsInQueue = false)
    (hopen : f.isFinished = false)
    (hlate : (S.config.tcpFlowTimeout.toNat : Int) <
      p.timestamp.sec - f.lastPacketTimestamp.sec) :
    replaces S f p = true ↔ S.config.tcpFlowTimeout = 0 := by
  have hsome : (p.timestamp.sec - f.lastPacketTimestamp.sec != 0) = true := by
    rw [bne_iff_ne]
    omega
  unfold replaces
  simp only [htcp, hidle, hopen, hsome, Bool.not_false, Bool.and_self, Bool.false_and,
    Bool.or_false, Bool.toNat_true, decide_eq_true_eq, Nat.lt_one_iff]
  rw [← UInt32.toNat_inj, UInt32.toNat_zero]

/-- Nothing starts over once the manager is shut down. -/
theorem not_startsOver_of_shutdown (hdown : m.shutdown = true) {p : IPv4Packet} {i : FlowId}
    {f : Flow R} : ¬ StartsOver S m p i f := by
  intro h
  obtain ⟨g, hg, -⟩ := h.applied
  rw [addPacket_of_shutdown hdown] at hg
  exact absurd (List.getElem?_eq_some_iff.mp hg).1 (Nat.lt_irrefl _)

theorem Sequential.startsOver_iff (hseq : S.config.workerThreadsPerQueue = 0)
    {packets : List IPv4Packet} (h : Sequential S packets m) {p : IPv4Packet} {i : FlowId}
    {f : Flow R} (hi : m.flows (S.flowHash p.tuple) = some i) (hf : m.heap[i]? = some f) :
    StartsOver S m p i f ↔ m.shutdown = false ∧ replaces S f p = true := by
  cases hdown : m.shutdown with
  | true =>
    constructor
    · exact fun hstart => absurd hstart (not_startsOver_of_shutdown hdown)
    · exact fun hrun => absurd hrun.1 (by decide)
  | false =>
    have hopen : f.flowState ≠ .finishedNotified := by
      intro heq
      have hfinished := (h.found hseq hi hf).1
      simp only [Flow.isFinished, heq, beq_self_eq_true, Bool.or_true, Bool.true_eq_false]
        at hfinished
    rw [FlowManager.startsOver_iff (h.quiet hdown) hseq hi hf hopen]
    exact ⟨fun hrep => ⟨rfl, hrep⟩, fun hrep => hrep.2⟩

/-- **UDP flows end when they are idle for too long.** -/
theorem udp_startsOver (hseq : S.config.workerThreadsPerQueue = 0) {packets : List IPv4Packet}
    (h : Sequential S packets m) {p : IPv4Packet} {i : FlowId} {f : Flow R}
    (hi : m.flows (S.flowHash p.tuple) = some i) (hf : m.heap[i]? = some f)
    (hudp : p.transport = .udp)
    (hlate : (S.config.udpFlowTimeout.toNat : Int) <
      p.timestamp.sec - f.lastPacketTimestamp.sec) :
    StartsOver S m p i f ↔ m.shutdown = false := by
  rw [h.startsOver_iff hseq hi hf, replaces_udp hudp (h.found hseq hi hf).2 hlate]
  exact ⟨fun hrun => hrun.1, fun hrun => ⟨hrun, rfl⟩⟩

/-- **TCP flows that are idle for too long end only if the timeout is zero.** -/
theorem tcp_startsOver_iff (hseq : S.config.workerThreadsPerQueue = 0)
    {packets : List IPv4Packet} (h : Sequential S packets m) {p : IPv4Packet} {i : FlowId}
    {f : Flow R} (hi : m.flows (S.flowHash p.tuple) = some i) (hf : m.heap[i]? = some f)
    {flags : UInt8} (htcp : p.transport = .tcp flags)
    (hlate : (S.config.tcpFlowTimeout.toNat : Int) <
      p.timestamp.sec - f.lastPacketTimestamp.sec) :
    StartsOver S m p i f ↔ m.shutdown = false ∧ S.config.tcpFlowTimeout = 0 := by
  obtain ⟨hopen, hidle⟩ := h.found hseq hi hf
  rw [h.startsOver_iff hseq hi hf, replaces_tcp htcp hidle hopen hlate]

/-- A capture is a sequence of calls. -/
theorem sequential_addPackets (S : Setup R) (packets : List IPv4Packet) :
    Sequential S packets (addPackets S packets) := by
  induction packets using List.reverseRecOn with
  | nil => exact .init
  | append_singleton packets p ih =>
    rw [addPackets_append]
    exact ih.addPacket p

/-- A TCP connection that is opened and used. -/
def openConnection : List IPv4Packet :=
  [⟨0x0100000a, 40000, 0x0200000a, 22, .tcp thSyn, [], ⟨0, 0⟩⟩,
    ⟨0x0100000a, 40000, 0x0200000a, 22, .tcp thAck, [1], ⟨0, 500⟩⟩]

/-- Its ports are used again two days later. -/
def twoDaysLater : IPv4Packet :=
  ⟨0x0100000a, 40000, 0x0200000a, 22, .tcp thSyn, [], ⟨172801, 0⟩⟩

/-- The flow of `openConnection`, under a setup, and how late `twoDaysLater` is for it. -/
def isLate (S : Setup ℚ) : Bool :=
  (addPackets S openConnection).flows (S.flowHash twoDaysLater.tuple) == some 0 &&
    ((addPackets S openConnection).heap[0]?).any fun f =>
      f.firstPacketTuple.sameFlow twoDaysLater.tuple &&
        decide ((S.config.tcpFlowTimeout.toNat : Int) <
          twoDaysLater.timestamp.sec - f.lastPacketTimestamp.sec)

theorem exists_of_isLate {S : Setup ℚ} (h : isLate S = true) :
    ∃ f, (addPackets S openConnection).flows (S.flowHash twoDaysLater.tuple) = some 0 ∧
      (addPackets S openConnection).heap[0]? = some f ∧
      f.firstPacketTuple.sameFlow twoDaysLater.tuple = true ∧
      (S.config.tcpFlowTimeout.toNat : Int) <
        twoDaysLater.timestamp.sec - f.lastPacketTimestamp.sec := by
  obtain ⟨hflows, hany⟩ := Bool.and_eq_true_iff.mp h
  obtain ⟨f, hf, hlate⟩ := (Option.any_eq_true _ _).mp hany
  obtain ⟨hsame, hlate⟩ := Bool.and_eq_true_iff.mp hlate
  exact ⟨f, beq_iff_eq.mp hflows, hf, hsame, of_decide_eq_true hlate⟩

/-- A program whose TCP timeout is set to zero. -/
def withoutTimeout : Setup ℚ :=
  { (Setup.initial : Setup ℚ) with
    config := { (CommonConfig.initial : CommonConfig ℚ) with tcpFlowTimeout := 0 } }

theorem twoDaysLater_startsOver_iff :
    ∃ f, (addPackets withoutTimeout openConnection).heap[0]? = some f ∧
      (StartsOver withoutTimeout (addPackets withoutTimeout openConnection) twoDaysLater 0 f ↔
        (addPackets withoutTimeout openConnection).shutdown = false ∧
          withoutTimeout.config.tcpFlowTimeout = 0) := by
  obtain ⟨f, hi, hf, -, hlate⟩ := exists_of_isLate (S := withoutTimeout) (by decide +kernel)
  exact ⟨f, hf, tcp_startsOver_iff rfl (sequential_addPackets withoutTimeout openConnection) hi hf
    rfl hlate⟩

/-- With the timeout of one day that the program starts with, the old flow takes the packet. -/
theorem twoDaysLater_not_startsOver :
    ∃ f, Sequential Setup.initial openConnection
        (addPackets (Setup.initial : Setup ℚ) openConnection) ∧
      (addPackets (Setup.initial : Setup ℚ) openConnection).flows
        ((Setup.initial : Setup ℚ).flowHash twoDaysLater.tuple) = some 0 ∧
      (addPackets (Setup.initial : Setup ℚ) openConnection).heap[0]? = some f ∧
      f.firstPacketTuple.sameFlow twoDaysLater.tuple = true ∧
      ((Setup.initial : Setup ℚ).config.tcpFlowTimeout.toNat : Int) <
        twoDaysLater.timestamp.sec - f.lastPacketTimestamp.sec ∧
      ¬ StartsOver Setup.initial (addPackets (Setup.initial : Setup ℚ) openConnection)
        twoDaysLater 0 f := by
  obtain ⟨f, hi, hf, hsame, hlate⟩ :=
    exists_of_isLate (S := (Setup.initial : Setup ℚ)) (by decide +kernel)
  have hrun := sequential_addPackets (Setup.initial : Setup ℚ) openConnection
  obtain ⟨hopen, hidle⟩ := hrun.found rfl hi hf
  refine ⟨f, hrun, hi, hf, hsame, hlate, ?_⟩
  rw [hrun.startsOver_iff rfl hi hf, replaces_tcp rfl hidle hopen hlate]
  exact fun hzero => absurd hzero.2 (by decide)

end FlowManager

end Vsid
