import Vsid.Common.Hasher
import Vsid.Protocol.Database

/-!
# A flow

`Flow` is the record that the flow manager keeps for one connection: the tuple and time of the first
packet, the packet counters, the state machine, the meters and the classification. `Flow.addPacket`
is the whole of the per-packet work: the state machine (`advance`), the test for bare TCP segments,
the counters, the meters (`calculate`) and the Kullback–Leibler matching (`matchModels`,
`useBestMatch`).

Every path through `Flow::addPacket` ends in `packet->setVerdict()` and the destruction of the
packet; the flow that is left behind is what is modelled here. Counters are `uint32_t`.

`Setup` gathers what the program reads and never writes while it classifies: the configuration, the
database, the meter factory and the mixing function of the hash. It also says what the allocator
does: `staleBytes n` are the bytes that the uninitialised members of the `n`-th flow's meters hold.
-/

namespace Vsid

/-- `CommonConfig`. -/
structure CommonConfig (R : Type) where
  learningMode : Bool
  udpFlowTimeout : UInt32
  tcpFlowTimeout : UInt32
  tcpFlowCloseWaitTimeout : UInt32
  divergenceThreshold : R
  useBestMatch : Bool
  workerThreadsPerQueue : Nat
  workerThreadQueueSize : Nat
  usePortHints : Bool

/-- `CommonConfig::CommonConfig`: the configuration before a file is read. -/
def CommonConfig.initial {R : Type} [NatCast R] : CommonConfig R :=
  { learningMode := false
    udpFlowTimeout := 120
    tcpFlowTimeout := 86400
    tcpFlowCloseWaitTimeout := 2
    divergenceThreshold := ((2 : Nat) : R)
    useBestMatch := true
    workerThreadsPerQueue := 0
    workerThreadQueueSize := 2048
    usePortHints := true }

/-- What a run of the program is set up with. -/
structure Setup (R : Type) where
  config : CommonConfig R
  database : ProtocolModelDb R
  factory : AttributeMeterFactory
  murmur : HashInput → UInt32
  staleBytes : Nat → FirstBytes

/-- The program before anything is read: no model, no meter and the configuration it starts with. -/
def Setup.initial {R : Type} [NatCast R] : Setup R :=
  { config := CommonConfig.initial
    database := ProtocolModelDb.initial
    factory := { enabledAttributes := fun _ => false }
    murmur := murmurHash3X86 Murmur3.seed
    staleBytes := fun _ _ => 0 }

/-- The flow hash of a tuple: `Ipv4FlowHasher::operator()`. -/
def Setup.flowHash {R : Type} (S : Setup R) (t : IPv4Tuple) : UInt32 :=
  S.murmur (Ipv4FlowHasher.input t)

/-- `Flow::State`. -/
inductive FlowState where
  | new
  | establishing
  | established
  | finishing
  | finished
  | finishedNotified
deriving DecidableEq, Repr

/-- `PACKET_MAX_BUFFER_SIZE`. -/
def packetMaxBufferSize : Nat := 2048

/-- `Flow`. `firstOrigToDestData` is the part of the buffer that
`_firstOrigToDestDataSize` covers. -/
structure Flow (R : Type) where
  firstPacketTuple : IPv4Tuple
  startTimestamp : Timeval
  firstOrigToDestData : List UInt8
  isFirstPacket : Bool
  currentPacketDirection : Direction
  lastPacketTimestamp : Timeval
  lastPacketDirection : Direction
  hash : UInt32
  pktCount : UInt32
  overallPktCount : UInt32
  flowState : FlowState
  attributeMeters : List (AttributeMeter R)
  flowClassified : Bool
  classifiedProtocol : String
  classifiedDivergence : R
  bestMatchDivergence : R
  bestMatchProtocol : String
  threadQueueId : Int
  pktsInQueue : Int

namespace Flow

variable {R : Type} [Double R]

/-- `Flow::Flow`, in a block of memory whose uninitialised bytes are `stale`. -/
def new (S : Setup R) (p : IPv4Packet) (stale : FirstBytes) : Flow R :=
  { firstPacketTuple := p.tuple
    startTimestamp := p.timestamp
    firstOrigToDestData := []
    isFirstPacket := false
    currentPacketDirection := .unknown
    lastPacketTimestamp := p.timestamp
    lastPacketDirection := .unknown
    hash := S.flowHash p.tuple
    pktCount := 0
    overallPktCount := 0
    flowState := .new
    attributeMeters := S.factory.getAllMeters stale
    flowClassified := false
    classifiedProtocol := ""
    classifiedDivergence := 0
    bestMatchDivergence := ((100 : Nat) : R)
    bestMatchProtocol := ""
    threadQueueId := -1
    pktsInQueue := 0 }

/-- `Flow::havePktsInQueue`. -/
def havePktsInQueue (f : Flow R) : Bool := decide (0 < f.pktsInQueue)

/-- `Flow::incPktsInQueue`. -/
def incPktsInQueue (f : Flow R) : Flow R := { f with pktsInQueue := f.pktsInQueue + 1 }

/-- `Flow::decPktsInQueue`. -/
def decPktsInQueue (f : Flow R) : Flow R := { f with pktsInQueue := f.pktsInQueue - 1 }

/-- `Flow::setFinishedAndNotified`. -/
def setFinishedAndNotified (f : Flow R) : Flow R := { f with flowState := .finishedNotified }

/-- The flow has reached one of its two closed states. -/
def isFinished (f : Flow R) : Bool :=
  f.flowState == .finished || f.flowState == .finishedNotified

/-! ## The state machine -/

/-- Remembering the first data packet from originator to destination. -/
def takeFirstPacket (f : Flow R) (p : IPv4Packet) : Flow R :=
  { f with firstOrigToDestData := p.data.take packetMaxBufferSize, isFirstPacket := true }

/-- Entering a state. -/
def enter (f : Flow R) (s : FlowState) : Flow R := { f with flowState := s }

/-- What every packet does on arrival. -/
def arrive (f : Flow R) : Flow R :=
  { f with overallPktCount := f.overallPktCount + 1, isFirstPacket := false }

/-- The direction of a packet in the flow. -/
def packetDirection (f : Flow R) (p : IPv4Packet) : Direction :=
  f.firstPacketTuple.packetDirection p.tuple

/-- `Flow::addPacket` up to the data-packet test. The flag tells whether it has returned already. -/
def advance (f : Flow R) (p : IPv4Packet) : Flow R × Bool :=
  match f.flowState, p.transport with
  | .new, .udp => ((f.arrive.enter .establishing).takeFirstPacket p, false)
  | .new, .tcp flags =>
    if hasFlag flags thFin || hasFlag flags thRst then (f.arrive.enter .finished, true)
    -- only connections whose SYN was seen are followed, but this packet is still looked at
    else if !hasFlag flags thSyn then (f.arrive.enter .finished, false)
    else (f.arrive.enter .establishing, false)
  | .establishing, .udp =>
    if f.packetDirection p = .destToOrig then (f.arrive.enter .established, false)
    else (f.arrive, false)
  | .establishing, .tcp flags =>
    if hasFlag flags thFin || hasFlag flags thRst then (f.arrive.enter .finished, true)
    else if hasFlag flags thSyn then (f.arrive.enter .establishing, false)
    else (f.arrive.enter .established, false)
  | .established, .udp => (f.arrive, false)
  | .established, .tcp flags =>
    if hasFlag flags thFin then (f.arrive.enter .finished, true)
    else if hasFlag flags thRst then (f.arrive.enter .finished, true)
    else if f.firstOrigToDestData.isEmpty && f.packetDirection p == .origToDest then
      (f.arrive.takeFirstPacket p, false)
    else (f.arrive, false)
  | .finishing, .udp => (f.arrive, false)
  | .finishing, .tcp flags =>
    if hasFlag flags thFin || hasFlag flags thRst then (f.arrive.enter .finished, true)
    else (f.arrive, false)
  | .finished, _ => (f.arrive, true)
  | .finishedNotified, _ => (f.arrive, true)

/-- A TCP SYN or ACK without data, which is not analysed. -/
def isBareSegment (p : IPv4Packet) : Bool :=
  match p.transport with
  | .tcp flags => (hasFlag flags thSyn || hasFlag flags thAck) && p.dataSize == 0
  | .udp => false

/-- The counters that only data packets move. -/
def countPacket (f : Flow R) (p : IPv4Packet) : Flow R :=
  { f with
    pktCount := f.pktCount + 1
    lastPacketDirection := f.currentPacketDirection
    currentPacketDirection := f.packetDirection p }

/-- `_lastPacketTimestamp = packet->timestamp()`. -/
def touch (f : Flow R) (p : IPv4Packet) : Flow R :=
  { f with lastPacketTimestamp := p.timestamp }

/-! ## Measuring -/

/-- What the meters see of the flow. -/
def reading (f : Flow R) : FlowReading :=
  { pktCount := f.pktCount, isFirstPacket := f.isFirstPacket,
    lastPacketDirection := f.lastPacketDirection,
    currentPacketDirection := f.currentPacketDirection }

/-- The loop over the meters. -/
def calculate (f : Flow R) (p : IPv4Packet) : Flow R :=
  { f with
    attributeMeters := f.attributeMeters.map fun m => m.calculateMeasurement f.reading p }

/-! ## Matching -/

/-- The divergence of one meter from its stored expectation, made positive. Both vectors are
smoothed so that no entry is zero; an entry whose expectation is not positive is left out. -/
def meterDivergence (am pmAm : AttributeMeter R) : R :=
  let sum := (List.range pmAm.size).foldl
    (fun sum i =>
      let amFp := am.atPos i * am.klFixMultiplier + am.klFixIncrement
      let pmAmFp := pmAm.atPos i * pmAm.klFixMultiplier + pmAm.klFixIncrement
      if 0 < pmAmFp then sum + amFp * Double.log2 (amFp / pmAmFp) else sum)
    (0 : R)
  if sum < 0 then sum * (-1) else sum

/-- `_attributeMetersMap[name]`. -/
def attributeMetersMap (f : Flow R) (k : MeterKind) : Option (AttributeMeter R) :=
  f.attributeMeters.find? fun m => m.kind == k

/-- The divergence of the flow from a model: the sum over the model's enabled meters. The source
dereferences the map entry without a test; an enabled meter of a database that was read has one. -/
def klDivergence (f : Flow R) (pm : ProtocolModel R) : R :=
  pm.attributeMeters.foldl
    (fun d pmAm =>
      if pmAm.enabled then
        match f.attributeMetersMap pmAm.kind with
        | some am => d + meterDivergence am pmAm
        | none => d
      else d)
    (0 : R)

/-- The port whose search order is used. -/
def hintPort (S : Setup R) (f : Flow R) : UInt16 :=
  if S.config.usePortHints then f.firstPacketTuple.dstPort else 0

/-- Recording a classification. -/
def classifyAs (f : Flow R) (name : String) (divergence : R) : Flow R :=
  { f with
    flowClassified := true, classifiedProtocol := name, classifiedDivergence := divergence }

/-- The update of the running best match. -/
def updateBestMatch (f : Flow R) (pm : ProtocolModel R) (d : R) : Flow R :=
  if 0 < d ∧ d < f.bestMatchDivergence then
    { f with bestMatchDivergence := d, bestMatchProtocol := pm.name }
  else f

/-- The loop over the models, on the positions that are left. -/
def matchModels (S : Setup R) (f : Flow R) : List Nat → Flow R
  | [] => f
  | i :: rest =>
    match S.database.atPos i (f.hintPort S) with
    | none => f.matchModels S rest
    | some pm =>
      if !pm.enabled then f.matchModels S rest
      else
        let d := f.klDivergence pm
        if 0 < d ∧ S.database.definingLimit ≤ f.pktCount ∧ d < S.config.divergenceThreshold then
          f.classifyAs pm.name d
        else (f.updateBestMatch pm d).matchModels S rest

/-- The use of the best match at the defining limit. -/
def useBestMatch (S : Setup R) (f : Flow R) : Flow R :=
  if S.config.useBestMatch ∧ !f.flowClassified ∧ f.pktCount = S.database.definingLimit ∧
      f.bestMatchDivergence < S.config.divergenceThreshold then
    f.classifyAs f.bestMatchProtocol f.bestMatchDivergence
  else f

/-- The matching part of `Flow::addPacket`. -/
def classify (S : Setup R) (f : Flow R) : Flow R :=
  if !S.config.learningMode && !f.flowClassified then
    (f.matchModels S (List.range S.database.size)).useBestMatch S
  else f

/-- The part of `Flow::addPacket` that a data packet reaches. -/
def addDataPacket (S : Setup R) (f : Flow R) (p : IPv4Packet) : Flow R :=
  let f := f.countPacket p
  if f.flowClassified then f.touch p
  else if S.database.cutoffLimit < f.pktCount then f.touch p
  else ((f.calculate p).touch p).classify S

/-- `Flow::addPacket`. -/
def addPacket (S : Setup R) (f : Flow R) (p : IPv4Packet) : Flow R :=
  match f.advance p with
  | (f, true) => f
  | (f, false) => if isBareSegment p then f else f.addDataPacket S p

end Flow

end Vsid
