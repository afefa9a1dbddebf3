import Vsid.Capture.IPv4
import Vsid.Capture.Verdict

/-!
# The netfilter packet handler

`PacketHandler::handlePacket`, which is called with every packet that netfilter delivers. The packet
is not copied: the packet object points into the buffer of the message. What the library hands out
about a message is `NfqData`; a payload that it cannot get has the length -1, and then the pointer
to it is not set.
-/

set_option autoImplicit false

namespace Vsid

/-- What libnetfilter_queue says about a message. `pktData` is the memory from the payload on, or
from wherever the pointer points to. -/
structure NfqData where
  packetId : Option UInt32
  timestamp : Option Timeval
  pktLen : Int32
  pktData : Nat → UInt8

/-- The packet id, as it is used for the verdict. -/
def NfqData.id (pkt : NfqData) : UInt32 := pkt.packetId.getD 0

/-- `PacketHandler`, with the packet objects that it has built. -/
structure PacketHandler (R : Type) where
  numPackets : UInt64
  shutdown : Bool
  verdicts : VerdictSetter
  flowManager : FlowManager R
  packets : List PacketObject

namespace PacketHandler

variable {R : Type} [Double R]

/-- `PacketHandler::PacketHandler`. -/
def init : PacketHandler R :=
  { numPackets := 0, shutdown := false, verdicts := VerdictSetter.init,
    flowManager := FlowManager.init, packets := [] }

/-- `PacketHandler::shutdown`. -/
def shutDown (h : PacketHandler R) : PacketHandler R :=
  { h with shutdown := true, flowManager := { h.flowManager with shutdown := true } }

/-- The reads of `PacketHandler::handlePacket`. `now` is the time of day. -/
def decodePacket (now : Timeval) (pkt : NfqData) : Reads Nat UInt8 Decoded :=
  decode Reads.byte pkt.pktLen.toInt 0 (pkt.timestamp.getD now)

/-- The packet that `addPacket` is called with. -/
def handed (now : Timeval) (pkt : NfqData) : Option IPv4Packet :=
  ((decodePacket now pkt).run pkt.pktData).built.map (·.view pkt.pktData)

/-- `PacketHandler::setVerdictLocal`, less the buffer. -/
def setVerdictLocal (h : PacketHandler R) (id verdict : UInt32) : PacketHandler R :=
  { h with verdicts := h.verdicts.setVerdict id verdict }

/-- A packet object is handed to the flow manager. -/
def handOver (C : NetfilterConfig) (S : Setup R) (measure : Calculation R) (h : PacketHandler R)
    (id : UInt32) (p : IPv4Packet) : PacketHandler R :=
  -- without `verdictAfterClassification` the verdict does not wait
  let verdicts :=
    if !C.verdictAfterClassification then h.verdicts.setVerdict id nfAccept else h.verdicts
  let (m, held) := h.flowManager.addPacketHeld C S measure p ⟨PacketObject.new id, verdicts⟩
  { h with
    flowManager := m, verdicts := held.handler, packets := h.packets ++ [held.packet] }

/-- `PacketHandler::handlePacket`. Its result, which the caller only logs, is left out. -/
def handlePacket (C : NetfilterConfig) (S : Setup R) (measure : Calculation R) (now : Timeval)
    (h : PacketHandler R) (pkt : NfqData) : PacketHandler R :=
  let h := { h with numPackets := h.numPackets + 1 }
  match (decodePacket now pkt).run pkt.pktData with
  | .icmp => h.setVerdictLocal pkt.id nfAccept
  | .packet p => h.handOver C S measure pkt.id (p.view pkt.pktData)
  | .sctp => h.setVerdictLocal pkt.id nfAccept
  | .unknownProtocol => h.setVerdictLocal pkt.id nfAccept
  | .ipv6 => h.setVerdictLocal pkt.id nfAccept
  | .invalidVersion => h.setVerdictLocal pkt.id nfAccept

end PacketHandler

/-- What happens to a handler. Which meters throw is another matter with every packet. -/
inductive HandlerEvent (R : Type) where
  | packet (now : Timeval) (measure : Calculation R) (pkt : NfqData)
  | shutdown

namespace HandlerEvent

variable {R : Type}

/-- The ids that netfilter waits for. -/
def ids : HandlerEvent R → List UInt32
  | packet _ _ pkt => [pkt.id]
  | shutdown => []

/-- The ids of the packets that a packet object is built for. -/
def builtIds : HandlerEvent R → List UInt32
  | packet now _ pkt => (PacketHandler.handed now pkt).toList.map fun _ => pkt.id
  | shutdown => []

end HandlerEvent

/-- An event reaches the handler. -/
def PacketHandler.react {R : Type} [Double R] (C : NetfilterConfig) (S : Setup R)
    (h : PacketHandler R) : HandlerEvent R → PacketHandler R
  | .packet now measure pkt => h.handlePacket C S measure now pkt
  | .shutdown => h.shutDown

end Vsid
