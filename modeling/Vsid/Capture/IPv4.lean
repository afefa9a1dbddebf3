import Mathlib.Algebra.Group.Int.Defs
import Vsid.Common.Packet
import Vsid.Lib.Reads

/-!
# Packet objects, as the handlers build them

An `IPv4Packet` of the source is a set of pointers into a buffer and the size that the handler was
told. `BuiltPacket` has the pointers as offsets from the start of the buffer, and `view` reads, on a
little-endian machine, what its accessors give: the `IPv4Packet` of the other modules.

The three handlers have the same body from the IP header on. It is `decode`, a program that fetches
bytes; nothing in it looks at the end of the buffer.
-/

set_option autoImplicit false

namespace Vsid

/-- `IPPROTO_ICMP`. -/
def ipprotoIcmp : UInt8 := 1

/-- `IPPROTO_SCTP`. -/
def ipprotoSctp : UInt8 := 132

/-- `sizeof(struct iphdr)`. -/
def sizeofIphdr : Nat := 20

/-- `sizeof(struct tcphdr)`. -/
def sizeofTcphdr : Nat := 20

/-- `sizeof(struct udphdr)`. -/
def sizeofUdphdr : Nat := 8

/-- `TcpIPv4` and `UdpIPv4`. -/
inductive PacketClass where
  | tcp
  | udp
deriving DecidableEq, Repr

/-- The size of the header that the class looks at. -/
def PacketClass.headerSize : PacketClass → Nat
  | tcp => sizeofTcphdr
  | udp => sizeofUdphdr

/-- An `IPv4Packet` object. The pointers are offsets from `_pkt`. -/
structure BuiltPacket where
  kind : PacketClass
  pktSize : Int
  ipHdrStart : Nat
  transportHdrStart : Nat
  dataStart : Nat
  timestamp : Timeval
deriving DecidableEq, Repr

namespace BuiltPacket

/-- `IPv4Packet::dataSize`, whose difference of pointers becomes a `size_t`. -/
def dataSize (p : BuiltPacket) : Nat := ((p.pktSize - p.dataStart) % 2 ^ 64).toNat

/-- A `uint32_t`, as it is in memory. -/
def load32 (mem : Nat → UInt8) (i : Nat) : UInt32 :=
  (mem i).toUInt32 ||| (mem (i + 1)).toUInt32 <<< 8 ||| (mem (i + 2)).toUInt32 <<< 16 |||
    (mem (i + 3)).toUInt32 <<< 24

/-- `ntohs` of a `uint16_t`. -/
def load16 (mem : Nat → UInt8) (i : Nat) : UInt16 :=
  (mem i).toUInt16 <<< 8 ||| (mem (i + 1)).toUInt16

/-- What the accessors of the object read. -/
def view (mem : Nat → UInt8) (p : BuiltPacket) : IPv4Packet :=
  { srcIp := load32 mem (p.ipHdrStart + 12)
    srcPort := load16 mem p.transportHdrStart
    dstIp := load32 mem (p.ipHdrStart + 16)
    dstPort := load16 mem (p.transportHdrStart + 2)
    transport :=
      match p.kind with
      | .tcp => .tcp (mem (p.transportHdrStart + 13))
      | .udp => .udp
    data := (List.range p.dataSize).map fun i => mem (p.dataStart + i)
    timestamp := p.timestamp }

end BuiltPacket

/-- What a handler makes of the bytes behind the link layer. -/
inductive Decoded where
  | icmp
  | packet (p : BuiltPacket)
  | sctp
  | unknownProtocol
  | ipv6
  | invalidVersion
deriving DecidableEq, Repr

/-- The packet object, if one was built. -/
def Decoded.built : Decoded → Option BuiltPacket
  | packet p => some p
  | _ => none

/-- `vhl->ip_v`. -/
def ipV (vhl : UInt8) : UInt8 := vhl >>> 4

/-- `vhl->ip_hl * 4`. -/
def ipHdrSize (vhl : UInt8) : Nat := (vhl &&& 0x0F).toNat * 4

/-- `tcph->doff * 4`, from the byte that `doff` is in. -/
def tcpHdrSize (doff : UInt8) : Nat := (doff >>> 4).toNat * 4

/-- The body that the handlers share, with the IP header at `ipHdrStart`. The bytes of the addresses
are read for `inet_ntop`. -/
def decode {A : Type} (fetch : Nat → Reads A UInt8 UInt8) (pktSize : Int) (ipHdrStart : Nat)
    (timestamp : Timeval) : Reads A UInt8 Decoded := do
  let vhl ← fetch ipHdrStart
  if ipV vhl = 4 then
    let transportHdrStart := ipHdrStart + ipHdrSize vhl
    let _ ← Reads.each fetch (List.range' (ipHdrStart + 12) 8)
    let protocol ← fetch (ipHdrStart + 9)
    if protocol = ipprotoIcmp then pure .icmp
    else if protocol = ipprotoTcp then
      let doff ← fetch (transportHdrStart + 12)
      pure
        (.packet
          { kind := .tcp
            pktSize := pktSize
            ipHdrStart := ipHdrStart
            transportHdrStart := transportHdrStart
            dataStart := transportHdrStart + tcpHdrSize doff
            timestamp := timestamp })
    else if protocol = ipprotoUdp then
      pure
        (.packet
          { kind := .udp
            pktSize := pktSize
            ipHdrStart := ipHdrStart
            transportHdrStart := transportHdrStart
            dataStart := transportHdrStart + sizeofUdphdr
            timestamp := timestamp })
    else if protocol = ipprotoSctp then pure .sctp
    else pure .unknownProtocol
  else if ipV vhl = 6 then pure .ipv6
  else pure .invalidVersion

end Vsid
