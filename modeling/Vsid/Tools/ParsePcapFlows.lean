import Vsid.Lib.Yaml
import Vsid.Protocol.DatabaseFile
import Vsid.Tools.AnalyseResults

/-!
# Labelling the flows of a capture

`parse_pcap_flows.py` makes the list of flows that the training program reads: every TCP or UDP
connection of a capture once, with one protocol for all of them. Its capture library gives the
addresses of a packet, which the script shows in dotted form, its transport and its payload.
-/

set_option autoImplicit false

namespace Vsid

namespace ParsePcapFlows

/-- An IPv4 packet, as the capture library of the script gives it. -/
structure IpPacket where
  src : UInt32
  dst : UInt32
  p : Nat
  payload : List UInt8

/-- `struct.unpack("!H", …)[0]`, which throws unless there are two bytes. -/
def unpackH : List UInt8 → Option UInt16
  | [hi, lo] => some (hi.toUInt16 <<< 8 ||| lo.toUInt16)
  | _ => none

/-- `IPv4Tuple.__init__`. -/
def tuple (packet : IpPacket) : Option ScriptTuple := do
  let srcPort ← unpackH (packet.payload.take 2)
  let dstPort ← unpackH ((packet.payload.drop 2).take 2)
  some
    { srcIp := dotted packet.src
      srcPort := srcPort.toNat
      dstIp := dotted packet.dst
      dstPort := dstPort.toNat
      protocol := packet.p }

/-- `IPv4Tuple.as_dict`, with the protocol that all flows are labelled with. -/
def asDict {R : Type} (Y : Conversions R) (l7protocol : String) (t : ScriptTuple) : Yaml :=
  .map
    [("src_ip", .of Y.string t.srcIp), ("src_port", .of Y.uint16 (UInt16.ofNat t.srcPort)),
      ("dst_ip", .of Y.string t.dstIp), ("dst_port", .of Y.uint16 (UInt16.ofNat t.dstPort)),
      ("transport", .of Y.string (if t.protocol = 6 then "TCP" else "UDP")),
      ("protocol", .of Y.string l7protocol)]

/-- The body of the loop over the packets, with the tuples that were found so far. -/
def addTuple (found : List ScriptTuple) (t : ScriptTuple) : List ScriptTuple :=
  if found.any fun u => u.dictRepr == t.dictRepr then found else found ++ [t]

/-- The document that the script prints. `none` when a packet is too short to have ports. -/
def outputYaml {R : Type} (Y : Conversions R) (filename protocol : String)
    (packets : List IpPacket) : Option Yaml := do
  let tuples ← (packets.filter fun packet => packet.p == 17 || packet.p == 6).mapM tuple
  some (.sequence
    [.map
      [("file", .of Y.string filename),
        ("flows", .sequence ((tuples.foldl addTuple []).map (asDict Y protocol)))]])

end ParsePcapFlows

end Vsid
