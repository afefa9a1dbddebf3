import Vsid.Common.FlowManager

/-!
# Verdicts and packet objects

Netfilter holds a packet back until its verdict is set. A packet object of the netfilter program
knows its `PacketHandler` as `_verdictSetter` and forgets it once it has asked for a verdict; the
destructor asks for the packet to be dropped if nobody has asked before.

`Held` is a packet object together with the handler that it answers to. `Flow::addPacket` and the
functions of the manager that pass a packet on are given a second time here, with what they do to
the packet object: every `setVerdict` and every `delete` of the source is in its place. The meters
may throw, which the loop over them catches.
-/

set_option autoImplicit false

namespace Vsid

/-! ## The handler's side -/

/-- `NF_DROP`. -/
def nfDrop : UInt32 := 0

/-- `NF_ACCEPT`. -/
def nfAccept : UInt32 := 1

/-- `NF_MAX_VERDICT`. -/
def nfMaxVerdict : UInt32 := 5

/-- The member of `VsidNetfilter::Config` that verdicts depend on. -/
structure NetfilterConfig where
  verdictAfterClassification : Bool
deriving DecidableEq, Repr

/-- A call of `nfq_set_verdict`, and whether the queue was still there. -/
structure VerdictCall where
  id : UInt32
  verdict : UInt32
  queueOpen : Bool
deriving DecidableEq, Repr

/-- The part of a `PacketHandler` that sets verdicts. `calls` are its calls of `nfq_set_verdict`. -/
structure VerdictSetter where
  verdictStats : List UInt64
  queueOpen : Bool
  calls : List VerdictCall
deriving DecidableEq, Repr

namespace VerdictSetter

/-- A new queue. -/
def init : VerdictSetter :=
  { verdictStats := List.replicate nfMaxVerdict.toNat 0, queueOpen := true, calls := [] }

/-- `PacketHandler::setVerdict`. -/
def setVerdict (v : VerdictSetter) (id verdict : UInt32) : VerdictSetter :=
  if nfMaxVerdict < verdict ∨ verdict < nfDrop then v
  else
    { v with
      verdictStats := v.verdictStats.modify verdict.toNat (· + 1)
      calls := v.calls ++ [⟨id, verdict, v.queueOpen⟩] }

/-- `PacketHandler::setAccept`. -/
def setAccept (C : NetfilterConfig) (v : VerdictSetter) (id : UInt32) : VerdictSetter :=
  if C.verdictAfterClassification then v.setVerdict id nfAccept else v

/-- `PacketHandler::setDrop`. -/
def setDrop (C : NetfilterConfig) (v : VerdictSetter) (id : UInt32) : VerdictSetter :=
  if C.verdictAfterClassification then v.setVerdict id nfDrop else v

end VerdictSetter

/-! ## The packet's side -/

/-- The members of an `IPv4Packet` that its verdict depends on. `verdictSetter` tells whether the
pointer is set, and `destroyed` how often the destructor has run. `calls` is a ghost: the calls of
`nfq_set_verdict` that the object has brought about. -/
structure PacketObject where
  pktId : UInt32
  verdictSetter : Bool
  destroyed : Nat
  calls : List VerdictCall
deriving DecidableEq, Repr

/-- The constructor with an id and a callback. -/
def PacketObject.new (id : UInt32) : PacketObject :=
  { pktId := id, verdictSetter := true, destroyed := 0, calls := [] }

/-- A packet object and the handler that `_verdictSetter` points to. -/
structure Held where
  packet : PacketObject
  handler : VerdictSetter
deriving DecidableEq, Repr

namespace Held

variable (C : NetfilterConfig)

/-- The call of the verdict setter has led to `handler`, and the setter is forgotten. -/
def ask (h : Held) (handler : VerdictSetter) : Held :=
  { packet :=
      { h.packet with
        verdictSetter := false
        calls := h.packet.calls ++ handler.calls.drop h.handler.calls.length }
    handler := handler }

/-- `IPv4Packet::acceptPkt`. -/
def acceptPkt (h : Held) : Held :=
  if h.packet.verdictSetter then h.ask (h.handler.setAccept C h.packet.pktId) else h

/-- `IPv4Packet::dropPkt`. -/
def dropPkt (h : Held) : Held :=
  if h.packet.verdictSetter then h.ask (h.handler.setDrop C h.packet.pktId) else h

/-- `IPv4Packet::setVerdict`. -/
def setVerdict (h : Held) : Held := h.acceptPkt C

/-- `IPv4Packet::~IPv4Packet`. -/
def destroy (h : Held) : Held :=
  let h := h.dropPkt C
  { h with packet := { h.packet with destroyed := h.packet.destroyed + 1 } }

end Held

/-! ## What the flow does to it -/

/-- A call of `calculateMeasurement`. A meter that throws a `std::exception` is left in some
state. -/
abbrev Calculation (R : Type) :=
  AttributeMeter R → FlowReading → IPv4Packet → Except (AttributeMeter R) (AttributeMeter R)

/-- No meter throws. -/
def Calculation.quiet {R : Type} [Double R] : Calculation R :=
  fun m reading p => .ok (m.calculateMeasurement reading p)

namespace Flow

variable {R : Type} [Double R] (C : NetfilterConfig)

/-- `Flow::addPacket` up to the data-packet test: the flow, the packet, and whether the function has
returned. -/
def advanceHeld (f : Flow R) (p : IPv4Packet) (h : Held) : Flow R × Held × Bool :=
  match f.flowState, p.transport with
  | .new, .udp => ((f.arrive.enter .establishing).takeFirstPacket p, h, false)
  | .new, .tcp flags =>
    if hasFlag flags thFin || hasFlag flags thRst then
      (f.arrive.enter .finished, h.setVerdict C, true)
    else if !hasFlag flags thSyn then (f.arrive.enter .finished, h, false)
    else (f.arrive.enter .establishing, h, false)
  | .establishing, .udp =>
    if f.packetDirection p = .destToOrig then (f.arrive.enter .established, h, false)
    else (f.arrive, h, false)
  | .establishing, .tcp flags =>
    if hasFlag flags thFin || hasFlag flags thRst then
      (f.arrive.enter .finished, h.setVerdict C, true)
    else if hasFlag flags thSyn then (f.arrive.enter .establishing, h, false)
    else (f.arrive.enter .established, h, false)
  | .established, .udp => (f.arrive, h, false)
  | .established, .tcp flags =>
    if hasFlag flags thFin then (f.arrive.enter .finished, h.setVerdict C, true)
    else if hasFlag flags thRst then (f.arrive.enter .finished, h.setVerdict C, true)
    else if f.firstOrigToDestData.isEmpty && f.packetDirection p == .origToDest then
      (f.arrive.takeFirstPacket p, h, false)
    else (f.arrive, h, false)
  | .finishing, .udp => (f.arrive, h, false)
  | .finishing, .tcp flags =>
    if hasFlag flags thFin || hasFlag flags thRst then
      (f.arrive.enter .finished, h.setVerdict C, true)
    else (f.arrive, h, false)
  | .finished, _ => (f.arrive, h.setVerdict C, true)
  | .finishedNotified, _ => (f.arrive, h.setVerdict C, true)

/-- The loop over the meters, with its `catch`. -/
def calculateHeld (measure : Calculation R) (f : Flow R) (p : IPv4Packet) : Flow R :=
  { f with
    attributeMeters := f.attributeMeters.map fun m =>
      match measure m f.reading p with
      | .ok m' => m'
      | .error left => left }

/-- The part of `Flow::addPacket` that a data packet reaches. -/
def addDataPacketHeld (S : Setup R) (measure : Calculation R) (f : Flow R) (p : IPv4Packet)
    (h : Held) : Flow R × Held :=
  let f := f.countPacket p
  if f.flowClassified then (f.touch p, h.setVerdict C)
  else if S.database.cutoffLimit < f.pktCount then (f.touch p, h.setVerdict C)
  else (((f.calculateHeld measure p).touch p).classify S, h.setVerdict C)

/-- `Flow::addPacket`, up to its end of scope. -/
def addPacketBody (S : Setup R) (measure : Calculation R) (f : Flow R) (p : IPv4Packet) (h : Held) :
    Flow R × Held :=
  match f.advanceHeld C p h with
  | (f, h, true) => (f, h)
  | (f, h, false) =>
    if isBareSegment p then (f, h.setVerdict C) else f.addDataPacketHeld C S measure p h

/-- `Flow::addPacket`. The `unique_ptr` deletes the packet on every way out. -/
def addPacketHeld (S : Setup R) (measure : Calculation R) (f : Flow R) (p : IPv4Packet) (h : Held) :
    Flow R × Held :=
  let (f, h) := f.addPacketBody C S measure p h
  (f, h.destroy C)

end Flow

/-! ## What the manager does to it -/

namespace FlowManager

variable {R : Type} [Double R] (C : NetfilterConfig)

/-- The middle of `processPacket`. -/
def applyPacketHeld (S : Setup R) (measure : Calculation R) (m : FlowManager R) (i : FlowId)
    (f : Flow R) (p : IPv4Packet) (h : Held) : FlowManager R × Held :=
  let (f', h) := f.addPacketHeld C S measure p h
  let m := m.modifyFlow i fun _ => f'
  (if f'.flowClassified != f.flowClassified && f'.flowClassified then m.notifyFlowClassified i
    else m, h)

/-- `FlowManager::processPacket`. -/
def processPacketHeld (S : Setup R) (measure : Calculation R) (m : FlowManager R) (p : IPv4Packet)
    (h : Held) : FlowManager R × Held :=
  let (m, i) := m.getFlow S none p
  match m.heap[i]? with
  -- "Unable to find flow"
  | none => (m, (h.setVerdict C).destroy C)
  | some f =>
    let (m, h) :=
      (m.modifyFlow i Flow.decPktsInQueue).applyPacketHeld C S measure i f.decPktsInQueue p h
    (m.closeFlow i, h)

/-- `FlowManager::addPacket` in non-threaded mode. -/
def addPacketHeld (S : Setup R) (measure : Calculation R) (m : FlowManager R) (p : IPv4Packet)
    (h : Held) : FlowManager R × Held :=
  if m.shutdown then (m, (h.setVerdict C).destroy C)
  else
    let (m, i) := m.getFlow S none p
    match m.heap[i]? with
    | none => (m, (h.setVerdict C).destroy C)
    | some _ => (m.modifyFlow i Flow.incPktsInQueue).processPacketHeld C S measure p h

end FlowManager

end Vsid
