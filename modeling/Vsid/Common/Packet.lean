import Mathlib.Logic.Basic

/-!
# Packets, five-tuples and directions

The IPv4 packet as the flow code sees it: the five-tuple of the headers, the TCP flags, the
transport payload and the capture time. `IPv4Tuple` is the tuple a `Flow` remembers from its first
packet; `sameFlow` and `packetDirection` compare a remembered tuple with a later one.

The two packet classes of the source, `TcpIPv4` and `UdpIPv4`, are the two constructors of
`Transport`: a handler builds a `TcpIPv4` exactly when the protocol byte of the IP header is
`IPPROTO_TCP`, so a packet whose class and protocol byte disagree cannot be built here either.
-/

namespace Vsid

/-- `struct timeval`. The flow code reads only `tv_sec`. -/
structure Timeval where
  sec : Int
  usec : Int
deriving DecidableEq, Repr

/-- `IPPROTO_TCP`. -/
def ipprotoTcp : UInt8 := 6

/-- `IPPROTO_UDP`. -/
def ipprotoUdp : UInt8 := 17

/-- `IPv4Tuple`: addresses and ports of the two ends, and the transport protocol. -/
structure IPv4Tuple where
  srcIp : UInt32
  srcPort : UInt16
  dstIp : UInt32
  dstPort : UInt16
  transport : UInt8
deriving DecidableEq, Repr

/-- `Flow::Direction`. -/
inductive Direction where
  | origToDest
  | destToOrig
  | unknown
deriving DecidableEq, Repr

namespace IPv4Tuple

/-- The tuple of the answering direction. -/
def reverse (t : IPv4Tuple) : IPv4Tuple :=
  { srcIp := t.dstIp, srcPort := t.dstPort, dstIp := t.srcIp, dstPort := t.srcPort,
    transport := t.transport }

/-- Both ends agree in the direction of the left tuple. -/
def sameEnds (t u : IPv4Tuple) : Bool :=
  t.srcIp == u.srcIp && t.dstIp == u.dstIp && t.srcPort == u.srcPort && t.dstPort == u.dstPort

/-- Both ends agree with the right tuple read backwards. -/
def crossedEnds (t u : IPv4Tuple) : Bool :=
  t.srcIp == u.dstIp && t.dstIp == u.srcIp && t.srcPort == u.dstPort && t.dstPort == u.srcPort

/-- `Flow::sameFlow` and `IPv4Packet::sameFlow`: one body in the source, twice. -/
def sameFlow (t u : IPv4Tuple) : Bool :=
  if t.transport != u.transport then false
  else if t.sameEnds u then true
  else if t.crossedEnds u then true
  else false

/-- `Flow::packetDirection`. `unknown` means that the tuple is not part of the flow. -/
def packetDirection (t u : IPv4Tuple) : Direction :=
  if t.transport != u.transport then .unknown
  else if t.sameEnds u then .origToDest
  else if t.crossedEnds u then .destToOrig
  else .unknown

@[simp] theorem reverse_reverse (t : IPv4Tuple) : t.reverse.reverse = t := rfl

theorem sameEnds_iff {t u : IPv4Tuple} (h : t.transport = u.transport) :
    t.sameEnds u = true ↔ u = t := by
  obtain ⟨a, b, c, d, e⟩ := t
  obtain ⟨a', b', c', d', e'⟩ := u
  simp only at h
  subst h
  simp only [sameEnds, Bool.and_eq_true, beq_iff_eq, mk.injEq]
  constructor
  · rintro ⟨⟨⟨rfl, rfl⟩, rfl⟩, rfl⟩
    simp
  · rintro ⟨rfl, rfl, rfl, rfl, -⟩
    simp

theorem crossedEnds_iff {t u : IPv4Tuple} (h : t.transport = u.transport) :
    t.crossedEnds u = true ↔ u = t.reverse := by
  obtain ⟨a, b, c, d, e⟩ := t
  obtain ⟨a', b', c', d', e'⟩ := u
  simp only at h
  subst h
  simp only [crossedEnds, reverse, Bool.and_eq_true, beq_iff_eq, mk.injEq]
  constructor
  · rintro ⟨⟨⟨rfl, rfl⟩, rfl⟩, rfl⟩
    simp
  · rintro ⟨rfl, rfl, rfl, rfl, -⟩
    simp

/-- Two tuples are of one flow exactly when they are equal or each other's reverse. -/
theorem sameFlow_iff (t u : IPv4Tuple) : t.sameFlow u = true ↔ u = t ∨ u = t.reverse := by
  by_cases ht : t.transport = u.transport
  · rw [← sameEnds_iff ht, ← crossedEnds_iff ht]
    simp only [sameFlow, ht, bne_self_eq_false, Bool.false_eq_true, if_false]
    cases t.sameEnds u <;> cases t.crossedEnds u <;> simp
  · constructor
    · intro h
      simp only [sameFlow, bne_iff_ne, ne_eq, ht, not_false_eq_true, if_true,
        Bool.false_eq_true] at h
    · rintro (rfl | rfl)
      · exact absurd rfl ht
      · exact absurd rfl ht

/-- The direction is known exactly for the packets of the flow. -/
theorem packetDirection_ne_unknown (t u : IPv4Tuple) :
    t.packetDirection u ≠ .unknown ↔ t.sameFlow u = true := by
  unfold packetDirection sameFlow
  cases t.transport != u.transport <;> cases t.sameEnds u <;> cases t.crossedEnds u <;> simp

theorem sameFlow_refl (t : IPv4Tuple) : t.sameFlow t = true :=
  (sameFlow_iff t t).mpr (.inl rfl)

theorem sameFlow_symm {t u : IPv4Tuple} (h : t.sameFlow u = true) : u.sameFlow t = true := by
  rcases (sameFlow_iff t u).mp h with rfl | rfl
  · exact sameFlow_refl _
  · exact (sameFlow_iff _ _).mpr (.inr rfl)

theorem sameFlow_trans {t u v : IPv4Tuple} (h : t.sameFlow u = true) (k : u.sameFlow v = true) :
    t.sameFlow v = true := by
  rw [sameFlow_iff] at h k ⊢
  rcases h with rfl | rfl <;> rcases k with rfl | rfl <;> simp

end IPv4Tuple

/-- `TH_FIN`. -/
def thFin : UInt8 := 0x01

/-- `TH_SYN`. -/
def thSyn : UInt8 := 0x02

/-- `TH_RST`. -/
def thRst : UInt8 := 0x04

/-- `TH_ACK`. -/
def thAck : UInt8 := 0x10

/-- `flags & mask` as a condition. -/
def hasFlag (flags mask : UInt8) : Bool := flags &&& mask != 0

/-- The two packet classes: `TcpIPv4` with its flag byte, and `UdpIPv4`. -/
inductive Transport where
  | tcp (flags : UInt8)
  | udp
deriving DecidableEq, Repr

/-- A packet as the flow manager receives it. `data` is the payload from `data_start` to the end
of the captured bytes. -/
structure IPv4Packet where
  srcIp : UInt32
  srcPort : UInt16
  dstIp : UInt32
  dstPort : UInt16
  transport : Transport
  data : List UInt8
  timestamp : Timeval
deriving DecidableEq, Repr

namespace IPv4Packet

/-- `IPv4Packet::protocol`. -/
def protocol (p : IPv4Packet) : UInt8 :=
  match p.transport with
  | .tcp _ => ipprotoTcp
  | .udp => ipprotoUdp

/-- The five accessors that the hasher and the flow templates read. -/
def tuple (p : IPv4Packet) : IPv4Tuple :=
  { srcIp := p.srcIp, srcPort := p.srcPort, dstIp := p.dstIp, dstPort := p.dstPort,
    transport := p.protocol }

/-- `IPv4Packet::dataSize`. -/
def dataSize (p : IPv4Packet) : Nat := p.data.length

end IPv4Packet

/-- The body of `IPv4Packet::sameFlow`, on what the accessors of the two packets return. -/
def IPv4Tuple.samePacketFlow (lhs rhs : IPv4Tuple) : Bool :=
  if lhs.transport != rhs.transport then false
  else if lhs.srcIp == rhs.srcIp && lhs.dstIp == rhs.dstIp && lhs.srcPort == rhs.srcPort &&
      lhs.dstPort == rhs.dstPort then true
  else if lhs.srcIp == rhs.dstIp && lhs.dstIp == rhs.srcIp && lhs.srcPort == rhs.dstPort &&
      lhs.dstPort == rhs.srcPort then true
  else false

/-- `IPv4Packet::sameFlow`. -/
def IPv4Packet.sameFlow (p rhs : IPv4Packet) : Bool := p.tuple.samePacketFlow rhs.tuple

end Vsid
