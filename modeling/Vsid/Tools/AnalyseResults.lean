import Mathlib.Data.String.Basic
import Vsid.Common.Packet
import Vsid.Lib.Rendering

/-!
# The connections of the analysis scripts

The scripts under `tools/` read the classification results and the list of expected flows, and look
up one in the other by a text. `IPv4Tuple` in `analyse_results.py` and in `parse_pcap_flows.py`
makes that text by the same method; the addresses are texts there, in dotted form, and are compared
as such. The results give the transport as a number, the list of flows by its name.
-/

set_option autoImplicit false

namespace Vsid

/-- The argument `protocol` of the constructor. -/
inductive ScriptProtocol where
  | number (n : Nat)
  | text (name : String)
deriving DecidableEq, Repr

/-- `IPv4Tuple` of the scripts. -/
structure ScriptTuple where
  srcIp : String
  srcPort : Nat
  dstIp : String
  dstPort : Nat
  protocol : Nat
deriving DecidableEq, Repr

namespace ScriptTuple

/-- `IPv4Tuple.__init__`. -/
def init (srcIp : String) (srcPort : Nat) (dstIp : String) (dstPort : Nat)
    (protocol : ScriptProtocol) : ScriptTuple :=
  { srcIp := srcIp
    srcPort := srcPort
    dstIp := dstIp
    dstPort := dstPort
    protocol :=
      match protocol with
      | .number n => n
      | .text name => if name = "TCP" then 6 else 17 }

/-- `"%s:%d %s:%d %d" % (ip, port, ip', port', protocol)`. -/
def format (ip : String) (port : Nat) (ip' : String) (port' : Nat) (protocol : Nat) : String :=
  Rendering.join ':' ip <| Rendering.join ' ' (Rendering.decimal port) <|
    Rendering.join ':' ip' <| Rendering.join ' ' (Rendering.decimal port') <|
      Rendering.decimal protocol

/-- `IPv4Tuple.dict_repr`. -/
def dictRepr (t : ScriptTuple) : String :=
  if t.srcIp < t.dstIp then format t.srcIp t.srcPort t.dstIp t.dstPort t.protocol
  else if t.dstIp < t.srcIp then format t.dstIp t.dstPort t.srcIp t.srcPort t.protocol
  else if t.srcPort ≤ t.dstPort then format t.srcIp t.srcPort t.dstIp t.dstPort t.protocol
  else format t.dstIp t.dstPort t.srcIp t.srcPort t.protocol

end ScriptTuple

/-- `inet_ntop` of an address in network byte order, on a little-endian machine. -/
def dotted (ip : UInt32) : String :=
  Rendering.join '.' (Rendering.decimal (ip.toNat % 256)) <|
    Rendering.join '.' (Rendering.decimal (ip.toNat / 256 % 256)) <|
      Rendering.join '.' (Rendering.decimal (ip.toNat / 65536 % 256)) <|
        Rendering.decimal (ip.toNat / 16777216)

/-- The name of a transport in the list of flows. -/
def transportName (transport : UInt8) : String := if transport = ipprotoTcp then "TCP" else "UDP"

namespace IPv4Tuple

/-- The tuple as the results name it. -/
def ofResults (t : IPv4Tuple) : ScriptTuple :=
  .init (dotted t.srcIp) t.srcPort.toNat (dotted t.dstIp) t.dstPort.toNat
    (.number t.transport.toNat)

/-- The tuple as the list of flows names it. -/
def ofFlows (t : IPv4Tuple) : ScriptTuple :=
  .init (dotted t.srcIp) t.srcPort.toNat (dotted t.dstIp) t.dstPort.toNat
    (.text (transportName t.transport))

end IPv4Tuple

/-- The address 10.0.0.1. -/
example : dotted 0x0100000a = "10.0.0.1" := by decide

end Vsid
