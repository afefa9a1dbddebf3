import Vsid.Common.Packet
import Vsid.Protocol.Double

/-!
# Attribute meters

An attribute meter is a fingerprint (a vector of `double`s) that is updated packet by packet, either
for one observed flow or, when it was read from the database, as the stored expectation of a
protocol. The fifteen meter classes share the base class `AttributeMeter`; they differ in the size
of the fingerprint, in `calculateMeasurement` and in whether `at` divides by a running total.

`MeterKind` lists the classes in the order of their names, which is the order in which
`AttributeMeterFactory::getAllMeters` walks its `std::map`. The members that the subclasses add
(`_overall_byte_size`, `_overall_bit_size` and `_overall_reaction_num`; `_done`; `_lastPacket` and
`_lastPacketSize`) are fields here, used by the kinds that declare them.

`_lastPacket` is not initialised by the constructor of `ActionReactionFirst3ByteHashMeter`: a new
meter holds whatever bytes the allocator handed out. `create` takes them as an argument.

The running totals (`uint64_t` for bytes and bits, `size_t` for reactions) are natural numbers: they
are taken as unbounded, since the observations of one flow do not come near 2^64. The counters of 32
bits wrap as they do in the source.
-/

namespace Vsid

/-- The meter classes that `init_attribute_meters` registers, by name. -/
inductive MeterKind where
  | actionReactionFirst3ByteHash
  | byteFrequencyFirst8Packets
  | byteFrequencyFirstDestToOrigPacket
  | byteFrequencyFirstOrigToDestPacket
  | byteFrequency
  | directionBytesCountFirst10Packet
  | directionBytesCount
  | directionChangesFirst8Packets
  | directionChanges
  | entropyFirstOrigToDestPacket
  | first16ByteFrequency
  | first4ByteFrequency
  | firstBitPositions
  | payloadSizeFirstPacket
  | rtmpRegexMatch
deriving DecidableEq, Repr

namespace MeterKind

/-- `name()`. -/
def name : MeterKind → String
  | actionReactionFirst3ByteHash => "ActionReactionFirst3ByteHashMeter"
  | byteFrequencyFirst8Packets => "ByteFrequencyFirst8PacketsMeter"
  | byteFrequencyFirstDestToOrigPacket => "ByteFrequencyFirstDestToOrigPacket"
  | byteFrequencyFirstOrigToDestPacket => "ByteFrequencyFirstOrigToDestPacket"
  | byteFrequency => "ByteFrequencyMeter"
  | directionBytesCountFirst10Packet => "DirectionBytesCountFirst10PacketMeter"
  | directionBytesCount => "DirectionBytesCountMeter"
  | directionChangesFirst8Packets => "DirectionChangesFirst8PacketsMeter"
  | directionChanges => "DirectionChangesMeter"
  | entropyFirstOrigToDestPacket => "EntropyFirstOrigToDestPacket"
  | first16ByteFrequency => "First16ByteFrequencyMeter"
  | first4ByteFrequency => "First4ByteFrequencyMeter"
  | firstBitPositions => "FirstBitPositionsMeter"
  | payloadSizeFirstPacket => "PayloadSizeFirstPacketMeter"
  | rtmpRegexMatch => "RtmpRegexMatchMeter"

/-- The registered classes in the order of their names. -/
def all : List MeterKind :=
  [actionReactionFirst3ByteHash, byteFrequencyFirst8Packets, byteFrequencyFirstDestToOrigPacket,
    byteFrequencyFirstOrigToDestPacket, byteFrequency, directionBytesCountFirst10Packet,
    directionBytesCount, directionChangesFirst8Packets, directionChanges,
    entropyFirstOrigToDestPacket, first16ByteFrequency, first4ByteFrequency, firstBitPositions,
    payloadSizeFirstPacket, rtmpRegexMatch]

/-- The argument each constructor passes to `AttributeMeter(size_t fingerprint_size)`. -/
def fingerprintSize : MeterKind → Nat
  | actionReactionFirst3ByteHash => 115
  | byteFrequencyFirst8Packets => 256
  | byteFrequencyFirstDestToOrigPacket => 256
  | byteFrequencyFirstOrigToDestPacket => 256
  | byteFrequency => 256
  | directionBytesCountFirst10Packet => 2
  | directionBytesCount => 2
  | directionChangesFirst8Packets => 2
  | directionChanges => 2
  | entropyFirstOrigToDestPacket => 2
  | first16ByteFrequency => 256
  | first4ByteFrequency => 256
  | firstBitPositions => 64
  | payloadSizeFirstPacket => 2
  | rtmpRegexMatch => 2

/-- The classes that override `at` to divide the counts by their running total. -/
def dividesByTotal : MeterKind → Bool
  | actionReactionFirst3ByteHash => true
  | byteFrequencyFirst8Packets => true
  | byteFrequencyFirstDestToOrigPacket => true
  | byteFrequencyFirstOrigToDestPacket => true
  | byteFrequency => true
  | first16ByteFrequency => true
  | first4ByteFrequency => true
  | firstBitPositions => true
  | _ => false

/-- The order of `all` is the order of `std::map<std::string, _>`. -/
example : MeterKind.all.Pairwise (fun a b => a.name < b.name) := by decide +kernel

end MeterKind

/-- `u_char _lastPacket[NUM_AR_BYTES]`. -/
abbrev FirstBytes := Fin 3 → UInt8

/-- `AttributeMeter` with the members of its subclasses. -/
structure AttributeMeter (R : Type) where
  kind : MeterKind
  flowCount : UInt32
  fingerprint : List R
  enabled : Bool
  fromDb : Bool
  overall : Nat
  done : Bool
  lastPacket : FirstBytes
  lastPacketSize : Nat

/-- What `calculateMeasurement` reads of the flow it is handed. -/
structure FlowReading where
  pktCount : UInt32
  isFirstPacket : Bool
  lastPacketDirection : Direction
  currentPacketDirection : Direction
deriving DecidableEq, Repr

namespace AttributeMeter

variable {R : Type} [Double R]

/-- `AttributeMeter::size`. -/
def size (m : AttributeMeter R) : Nat := m.fingerprint.length

/-- `_klFixMultiplicator`. -/
def klFixMultiplier (m : AttributeMeter R) : R := 1 / ((m.kind.fingerprintSize : R) + 1)

/-- `_klFixIncrement`. -/
def klFixIncrement (m : AttributeMeter R) : R := 1 / ((m.kind.fingerprintSize : R) + 1)

/-- The fingerprint each constructor leaves: zeroes, except that two classes start with the whole
weight on the second entry. -/
def initialFingerprint (k : MeterKind) : List R :=
  match k with
  | .payloadSizeFirstPacket => [0, 1]
  | .rtmpRegexMatch => [0, 1]
  | k => List.replicate k.fingerprintSize 0

/-- The meter a factory function creates in a block that holds the bytes `stale`. The base class
leaves `_flowCount` unset; only a meter read from the database has it read. -/
def create (k : MeterKind) (stale : FirstBytes) : AttributeMeter R :=
  { kind := k, flowCount := 0, fingerprint := initialFingerprint k, enabled := false,
    fromDb := false, overall := 0, done := false, lastPacket := stale, lastPacketSize := 0 }

/-- `at`: out of range is `-1`; the classes that count divide by their total when the meter was
not read from the database. -/
def atPos (m : AttributeMeter R) (pos : Nat) : R :=
  match m.fingerprint[pos]? with
  | none => -1
  | some x =>
    if m.kind.dividesByTotal && !m.fromDb then
      if m.overall == 0 then 0 else x / (m.overall : R)
    else x

/-- The loop `_fingerprint[*data]++`. -/
def countBytes (fingerprint : List R) (data : List UInt8) : List R :=
  data.foldl (fun fp b => fp.modify b.toNat (· + 1)) fingerprint

/-- A counting meter that covers `data`: the counts grow and so does the total. -/
def cover (m : AttributeMeter R) (data : List UInt8) : AttributeMeter R :=
  { m with fingerprint := countBytes m.fingerprint data, overall := m.overall + data.length }

/-- `ByteFrequencyMeter::calculateMeasurement`. -/
def byteFrequency (m : AttributeMeter R) (p : IPv4Packet) : AttributeMeter R :=
  if p.dataSize = 0 then m else m.cover p.data

/-- `First4ByteFrequencyMeter::calculateMeasurement`. -/
def first4ByteFrequency (m : AttributeMeter R) (p : IPv4Packet) : AttributeMeter R :=
  if p.dataSize = 0 then m else m.cover (p.data.take 4)

/-- `First16ByteFrequencyMeter::calculateMeasurement`. -/
def first16ByteFrequency (m : AttributeMeter R) (p : IPv4Packet) : AttributeMeter R :=
  if p.dataSize = 0 then m else m.cover (p.data.take 16)

/-- `ByteFrequencyFirst8PacketsMeter::calculateMeasurement`. The total is assigned, not added to. -/
def byteFrequencyFirst8Packets (m : AttributeMeter R) (f : FlowReading) (p : IPv4Packet) :
    AttributeMeter R :=
  if 8 < f.pktCount then m
  else if p.dataSize = 0 then m
  else { m with fingerprint := countBytes m.fingerprint p.data, overall := p.dataSize }

/-- `ByteFrequencyFirstDestToOrigPacket::calculateMeasurement`. No direction is read. -/
def byteFrequencyFirstDestToOrigPacket (m : AttributeMeter R) (p : IPv4Packet) :
    AttributeMeter R :=
  if m.done || p.dataSize == 0 then m else { m.cover p.data with done := true }

/-- `ByteFrequencyFirstOrigToDestPacket::calculateMeasurement`. -/
def byteFrequencyFirstOrigToDestPacket (m : AttributeMeter R) (f : FlowReading) (p : IPv4Packet) :
    AttributeMeter R :=
  if !f.isFirstPacket then m else if p.dataSize = 0 then m else m.cover p.data

/-- The body the two byte-count meters share: each share is turned back into a byte count, the
packet is added to its direction, and the shares are taken again. -/
def countDirectionBytes (m : AttributeMeter R) (f : FlowReading) (p : IPv4Packet) :
    AttributeMeter R :=
  let oToD := Double.trunc (m.fingerprint.getD 0 0 * (m.overall : R))
  let dToO := Double.trunc (m.fingerprint.getD 1 0 * (m.overall : R))
  let total := m.overall + p.dataSize
  match f.currentPacketDirection with
  | .origToDest =>
    { m with
      overall := total
      fingerprint := [((oToD + p.dataSize : Nat) : R) / (total : R), (dToO : R) / (total : R)] }
  | .destToOrig =>
    { m with
      overall := total
      fingerprint := [(oToD : R) / (total : R), ((dToO + p.dataSize : Nat) : R) / (total : R)] }
  | .unknown => m

/-- `DirectionBytesCountMeter::calculateMeasurement`. -/
def directionBytesCount (m : AttributeMeter R) (f : FlowReading) (p : IPv4Packet) :
    AttributeMeter R :=
  if p.dataSize = 0 then m else m.countDirectionBytes f p

/-- `DirectionBytesCountFirst10PacketMeter::calculateMeasurement`. -/
def directionBytesCountFirst10Packet (m : AttributeMeter R) (f : FlowReading) (p : IPv4Packet) :
    AttributeMeter R :=
  if p.dataSize = 0 ∨ 10 < f.pktCount then m else m.countDirectionBytes f p

/-- The body the two direction-change meters share. `pktCount() - 1` is a `uint32_t`. -/
def countDirectionChanges (m : AttributeMeter R) (f : FlowReading) : AttributeMeter R :=
  let count := Double.trunc (m.fingerprint.getD 0 0 * ((f.pktCount - 1).toNat : R))
  let count := if f.lastPacketDirection ≠ f.currentPacketDirection then count + 1 else count
  let share : R := (count : R) / (f.pktCount.toNat : R)
  { m with fingerprint := [share, 1 - share] }

/-- `DirectionChangesMeter::calculateMeasurement`. -/
def directionChanges (m : AttributeMeter R) (f : FlowReading) : AttributeMeter R :=
  m.countDirectionChanges f

/-- `DirectionChangesFirst8PacketsMeter::calculateMeasurement`. -/
def directionChangesFirst8Packets (m : AttributeMeter R) (f : FlowReading) : AttributeMeter R :=
  if 8 < f.pktCount then m else m.countDirectionChanges f

/-- `EntropyFirstOrigToDestPacket::calculateMeasurement`. -/
def entropyFirstOrigToDestPacket (m : AttributeMeter R) (f : FlowReading) (p : IPv4Packet) :
    AttributeMeter R :=
  if !f.isFirstPacket then m
  else if p.dataSize = 0 then m
  else
    let sum : R := (List.range 256).foldl
      (fun acc i =>
        let probability : R := ((p.data.count (UInt8.ofNat i) : Nat) : R) / (p.dataSize : R)
        if 0 < probability then acc - probability * Double.log2 probability else acc)
      (m.fingerprint.getD 0 0)
    let share := sum / ((8 : Nat) : R)
    { m with fingerprint := [share, 1 - share] }

/-- The `do … while` over the decimal digits of a byte. A byte has at most three of them, which is
the fuel. -/
def crossSum : Nat → UInt8 → UInt8 → UInt8
  | 0, _, sum => sum
  | fuel + 1, byte, sum =>
    let sum := sum + byte % 10
    if 0 < byte / 10 then crossSum fuel (byte / 10) sum else sum

/-- The sum of the digits of the three bytes, in a `uint8_t`. -/
def crossSums (bytes : FirstBytes) : UInt8 :=
  crossSum 3 (bytes 2) (crossSum 3 (bytes 1) (crossSum 3 (bytes 0) 0))

/-- The first three bytes of a payload, filled up with zeroes. -/
def currentData (p : IPv4Packet) : FirstBytes := fun i => p.data.getD i 0

/-- The condition under which `_lastPacket` is read. -/
def isReaction (f : FlowReading) : Bool :=
  !f.isFirstPacket && f.lastPacketDirection != f.currentPacketDirection

/-- `ActionReactionFirst3ByteHashMeter::calculateMeasurement`. -/
def actionReactionFirst3ByteHash (m : AttributeMeter R) (f : FlowReading) (p : IPv4Packet) :
    AttributeMeter R :=
  if p.dataSize = 0 then m
  else
    let current := currentData p
    let m := if isReaction f then
        let mixed := crossSums m.lastPacket + crossSums current
        { m with
          fingerprint := m.fingerprint.modify mixed.toNat (· + 1), overall := m.overall + 1 }
      else m
    { m with lastPacket := current, lastPacketSize := min p.dataSize 3 }

/-- `PayloadSizeFirstPacketMeter::calculateMeasurement`. -/
def payloadSizeFirstPacket (m : AttributeMeter R) (f : FlowReading) (p : IPv4Packet) :
    AttributeMeter R :=
  if !f.isFirstPacket then m
  else
    let maxSize : Nat :=
      match p.transport with
      | .tcp _ => 1460
      | .udp => 1476
    let share : R := (p.dataSize : R) / (maxSize : R)
    { m with fingerprint := [share, 1 - share] }

/-- The inner loop of `FirstBitPositionsMeter`: byte `i` of the payload, from the highest bit. -/
def countBits (fingerprint : List R) (i : Nat) (byte : UInt8) : List R :=
  (List.range 8).foldl
    (fun fp j =>
      if byte.toNat.testBit (7 - j) then fp.modify (i * 16 + j) (· + 1)
      else fp.modify (i * 16 + 8 + j) (· + 1))
    fingerprint

/-- `FirstBitPositionsMeter::calculateMeasurement`. The total grows by 32 whatever the size. -/
def firstBitPositions (m : AttributeMeter R) (p : IPv4Packet) : AttributeMeter R :=
  if p.dataSize = 0 then m
  else
    { m with
      fingerprint := (p.data.take 4).zipIdx.foldl (fun fp b => countBits fp b.2 b.1) m.fingerprint
      overall := m.overall + 32 }

end AttributeMeter

/-! ## The regular expression of the RTMP meter -/

/-- The pieces of an ECMAScript expression that the RTMP meter uses. -/
inductive RegexPiece where
  | char (c : UInt8)
  | anyStar
  | anyPlus
  | optional (word : List UInt8)
deriving DecidableEq, Repr

namespace RegexPiece

/-- `.` matches every character but the line terminators. -/
def dot (c : UInt8) : Bool := c != 10 && c != 13

/-- `.*` in front of the rest of an expression. -/
def matchStar (rest : List UInt8 → Bool) : List UInt8 → Bool
  | [] => rest []
  | c :: cs => rest (c :: cs) || (dot c && matchStar rest cs)

/-- `std::regex_match`: the whole input has to match. -/
def regexMatch : List RegexPiece → List UInt8 → Bool
  | [], data => data.isEmpty
  | char c :: ps, data =>
    match data with
    | [] => false
    | d :: ds => c == d && regexMatch ps ds
  | anyStar :: ps, data => matchStar (regexMatch ps) data
  | anyPlus :: ps, data =>
    match data with
    | [] => false
    | d :: ds => dot d && matchStar (regexMatch ps) ds
  | optional word :: ps, data =>
    regexMatch ps data || (word.isPrefixOf data && regexMatch ps (data.drop word.length))

/-- `\x03.+\x14.+\x02.+\x07.*(connect){0,1}.+(app){0,1}.+`. -/
def rtmp : List RegexPiece :=
  [char 0x03, anyPlus, char 0x14, anyPlus, char 0x02, anyPlus, char 0x07, anyStar,
    optional [0x63, 0x6f, 0x6e, 0x6e, 0x65, 0x63, 0x74], anyPlus, optional [0x61, 0x70, 0x70],
    anyPlus]

end RegexPiece

namespace AttributeMeter

variable {R : Type} [Double R]

/-- `RtmpRegexMatchMeter::calculateMeasurement`. -/
def rtmpRegexMatch (m : AttributeMeter R) (p : IPv4Packet) : AttributeMeter R :=
  if p.dataSize = 0 then m
  else if m.fingerprint.getD 0 0 != 0 then m
  else if RegexPiece.regexMatch RegexPiece.rtmp p.data then { m with fingerprint := [1, 0] }
  else m

/-- The virtual `calculateMeasurement`. A `std::exception` thrown by a meter is caught and logged
by the caller, so a meter that throws is one that returns the state it had reached. -/
def calculateMeasurement (m : AttributeMeter R) (f : FlowReading) (p : IPv4Packet) :
    AttributeMeter R :=
  match m.kind with
  | .actionReactionFirst3ByteHash => m.actionReactionFirst3ByteHash f p
  | .byteFrequencyFirst8Packets => m.byteFrequencyFirst8Packets f p
  | .byteFrequencyFirstDestToOrigPacket => m.byteFrequencyFirstDestToOrigPacket p
  | .byteFrequencyFirstOrigToDestPacket => m.byteFrequencyFirstOrigToDestPacket f p
  | .byteFrequency => m.byteFrequency p
  | .directionBytesCountFirst10Packet => m.directionBytesCountFirst10Packet f p
  | .directionBytesCount => m.directionBytesCount f p
  | .directionChangesFirst8Packets => m.directionChangesFirst8Packets f
  | .directionChanges => m.directionChanges f
  | .entropyFirstOrigToDestPacket => m.entropyFirstOrigToDestPacket f p
  | .first16ByteFrequency => m.first16ByteFrequency p
  | .first4ByteFrequency => m.first4ByteFrequency p
  | .firstBitPositions => m.firstBitPositions p
  | .payloadSizeFirstPacket => m.payloadSizeFirstPacket f p
  | .rtmpRegexMatch => m.rtmpRegexMatch p

end AttributeMeter

/-- `AttributeMeterFactory` once `init_attribute_meters` has run: every class is registered, and
reading the database has enabled some of them. -/
structure AttributeMeterFactory where
  enabledAttributes : MeterKind → Bool

/-- `AttributeMeterFactory::getAllMeters`. -/
def AttributeMeterFactory.getAllMeters {R : Type} [Double R] (factory : AttributeMeterFactory)
    (stale : FirstBytes) : List (AttributeMeter R) :=
  (MeterKind.all.filter factory.enabledAttributes).map fun k => AttributeMeter.create k stale

end Vsid
