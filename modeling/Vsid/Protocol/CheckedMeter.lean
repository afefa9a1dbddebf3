import Vsid.Lib.Checked
import Vsid.Protocol.Meter

/-!
# Attribute meters with their accesses

`operator[]` of a `std::vector` does not test its index, an `uint8_t` wraps without notice, and the
loops over digits and masks have no bound. `calculateChecked` is `calculateMeasurement` once more, in
the steps of the source, with all three made visible: it fails where an index is not below the size
of its vector, where one of the sums of digits does not fit, and where a loop is not through after
`fuel` rounds.
-/

set_option autoImplicit false

namespace Vsid

namespace AttributeMeter

variable {R : Type} [Double R]

/-- `_fingerprint[0] = share; _fingerprint[1] = 1.0 - _fingerprint[0];`. -/
def setShare (m : AttributeMeter R) (share : R) : Except Fault (AttributeMeter R) := do
  let fingerprint ← Checked.modify m.fingerprint 0 fun _ => share
  let first ← Checked.read fingerprint 0
  let fingerprint ← Checked.modify fingerprint 1 fun _ => 1 - first
  pure { m with fingerprint := fingerprint }

/-- The loop `_fingerprint[*data]++`. -/
def countBytesChecked (fingerprint : List R) (data : List UInt8) : Except Fault (List R) :=
  data.foldlM (fun fp b => Checked.modify fp b.toNat (· + 1)) fingerprint

/-- The counts of `data` and the total. -/
def coverChecked (m : AttributeMeter R) (data : List UInt8) : Except Fault (AttributeMeter R) := do
  let fingerprint ← countBytesChecked m.fingerprint data
  pure { m with fingerprint := fingerprint, overall := m.overall + data.length }

/-- The body of the byte-count meters. -/
def countDirectionBytesChecked (m : AttributeMeter R) (f : FlowReading) (p : IPv4Packet) :
    Except Fault (AttributeMeter R) := do
  let first ← Checked.read m.fingerprint 0
  let second ← Checked.read m.fingerprint 1
  let oToD := Double.trunc (first * (m.overall : R))
  let dToO := Double.trunc (second * (m.overall : R))
  let total := m.overall + p.dataSize
  match f.currentPacketDirection with
  | .origToDest =>
    let fingerprint ← Checked.modify m.fingerprint 0
      fun _ => ((oToD + p.dataSize : Nat) : R) / (total : R)
    let fingerprint ← Checked.modify fingerprint 1 fun _ => (dToO : R) / (total : R)
    pure { m with overall := total, fingerprint := fingerprint }
  | .destToOrig =>
    let fingerprint ← Checked.modify m.fingerprint 0 fun _ => (oToD : R) / (total : R)
    let fingerprint ← Checked.modify fingerprint 1
      fun _ => ((dToO + p.dataSize : Nat) : R) / (total : R)
    pure { m with overall := total, fingerprint := fingerprint }
  | .unknown => pure m

/-- The body of the direction-change meters. -/
def countDirectionChangesChecked (m : AttributeMeter R) (f : FlowReading) :
    Except Fault (AttributeMeter R) := do
  let first ← Checked.read m.fingerprint 0
  let count := Double.trunc (first * ((f.pktCount - 1).toNat : R))
  let count := if f.lastPacketDirection ≠ f.currentPacketDirection then count + 1 else count
  m.setShare ((count : R) / (f.pktCount.toNat : R))

/-- `EntropyFirstOrigToDestPacket::calculateMeasurement`: the bytes are counted in a vector of their
own. -/
def entropyChecked (m : AttributeMeter R) (p : IPv4Packet) : Except Fault (AttributeMeter R) := do
  let count ← p.data.foldlM (fun count b => Checked.modify count b.toNat (· + 1))
    (List.replicate 256 (0 : Nat))
  let fingerprint ← (List.range 256).foldlM
    (fun fp i => do
      let n ← Checked.read count i
      let probability : R := (n : R) / (p.dataSize : R)
      if 0 < probability then
        Checked.modify fp 0 fun x => x - probability * Double.log2 probability
      else pure fp)
    m.fingerprint
  let sum ← Checked.read fingerprint 0
  setShare { m with fingerprint := fingerprint } (sum / ((8 : Nat) : R))

/-- The body of the loop over the decimal digits of a byte. -/
def digitRound (s : UInt8 × UInt8) : Except Fault (UInt8 × UInt8) := do
  let sum ← Checked.addByte s.2 (s.1 % 10)
  pure (s.1 / 10, sum)

/-- `do … while (byte > 0)`. -/
def digitLoop (fuel : Nat) (byte sum : UInt8) : Except Fault UInt8 := do
  let s ← Checked.doWhile digitRound (fun s => decide (0 < s.1)) fuel (byte, sum)
  pure s.2

/-- The loop over the bytes: the two sums grow in turn. -/
def digitLoops (fuel : Nat) (last current : FirstBytes) : Except Fault (UInt8 × UInt8) :=
  (List.finRange 3).foldlM
    (fun sums i => do
      let one ← digitLoop fuel (last i) sums.1
      let two ← digitLoop fuel (current i) sums.2
      pure (one, two))
    (0, 0)

/-- `ActionReactionFirst3ByteHashMeter::calculateMeasurement`. -/
def actionReactionChecked (fuel : Nat) (m : AttributeMeter R) (f : FlowReading) (p : IPv4Packet) :
    Except Fault (AttributeMeter R) :=
  let current := currentData p
  if isReaction f then do
    let (one, two) ← digitLoops fuel m.lastPacket current
    let mixed ← Checked.addByte one two
    let fingerprint ← Checked.modify m.fingerprint mixed.toNat (· + 1)
    pure
      { m with
        fingerprint := fingerprint, overall := m.overall + 1
        lastPacket := current, lastPacketSize := min p.dataSize 3 }
  else pure { m with lastPacket := current, lastPacketSize := min p.dataSize 3 }

/-- The variables of the loop over the bits of a byte. -/
structure BitLoop (R : Type) where
  mask : UInt32
  oneOffset : Nat
  zeroOffset : Nat
  fingerprint : List R

/-- The bit under the mask is counted among the ones or among the zeroes. -/
def countBit (posOffset : Nat) (byte : UInt8) (s : BitLoop R) : Except Fault (List R) :=
  if byte.toUInt32 &&& s.mask != 0 then
    Checked.modify s.fingerprint (posOffset + s.oneOffset) (· + 1)
  else Checked.modify s.fingerprint (posOffset + s.zeroOffset) (· + 1)

/-- The body of the loop, and what `for` does after it. -/
def bitRound (posOffset : Nat) (byte : UInt8) (s : BitLoop R) : Except Fault (BitLoop R) := do
  let fingerprint ← countBit posOffset byte s
  pure
    { mask := s.mask >>> 1
      oneOffset := s.oneOffset + 1
      zeroOffset := s.zeroOffset + 1
      fingerprint := fingerprint }

/-- `for (mask = 0x80; mask != 0; mask >>= 1)`. -/
def bitLoop (fuel : Nat) (fingerprint : List R) (posOffset : Nat) (byte : UInt8) :
    Except Fault (List R) := do
  let s ← Checked.loop (fun s => s.mask != 0) (bitRound posOffset byte) fuel
    { mask := 0x80, oneOffset := 0, zeroOffset := 8, fingerprint := fingerprint }
  pure s.fingerprint

/-- `FirstBitPositionsMeter::calculateMeasurement`. -/
def firstBitPositionsChecked (fuel : Nat) (m : AttributeMeter R) (p : IPv4Packet) :
    Except Fault (AttributeMeter R) := do
  let fingerprint ← (p.data.take 4).zipIdx.foldlM (fun fp b => bitLoop fuel fp (b.2 * 16) b.1)
    m.fingerprint
  pure { m with fingerprint := fingerprint, overall := m.overall + 32 }

/-- `RtmpRegexMatchMeter::calculateMeasurement`. -/
def rtmpRegexMatchChecked (m : AttributeMeter R) (p : IPv4Packet) :
    Except Fault (AttributeMeter R) :=
  if p.dataSize = 0 then pure m
  else do
    let first ← Checked.read m.fingerprint 0
    if first != 0 then pure m
    else if RegexPiece.regexMatch RegexPiece.rtmp p.data then do
      let fingerprint ← Checked.modify m.fingerprint 0 fun _ => 1
      let fingerprint ← Checked.modify fingerprint 1 fun _ => 0
      pure { m with fingerprint := fingerprint }
    else pure m

/-- The virtual `calculateMeasurement`. -/
def calculateChecked (fuel : Nat) (m : AttributeMeter R) (f : FlowReading) (p : IPv4Packet) :
    Except Fault (AttributeMeter R) :=
  match m.kind with
  | .actionReactionFirst3ByteHash =>
    if p.dataSize = 0 then pure m else m.actionReactionChecked fuel f p
  | .byteFrequencyFirst8Packets =>
    if 8 < f.pktCount then pure m
    else if p.dataSize = 0 then pure m
    else do
      let fingerprint ← countBytesChecked m.fingerprint p.data
      pure { m with fingerprint := fingerprint, overall := p.dataSize }
  | .byteFrequencyFirstDestToOrigPacket =>
    if m.done || p.dataSize == 0 then pure m
    else do
      let m ← m.coverChecked p.data
      pure { m with done := true }
  | .byteFrequencyFirstOrigToDestPacket =>
    if !f.isFirstPacket then pure m
    else if p.dataSize = 0 then pure m
    else m.coverChecked p.data
  | .byteFrequency => if p.dataSize = 0 then pure m else m.coverChecked p.data
  | .directionBytesCountFirst10Packet =>
    if p.dataSize = 0 ∨ 10 < f.pktCount then pure m else m.countDirectionBytesChecked f p
  | .directionBytesCount =>
    if p.dataSize = 0 then pure m else m.countDirectionBytesChecked f p
  | .directionChangesFirst8Packets =>
    if 8 < f.pktCount then pure m else m.countDirectionChangesChecked f
  | .directionChanges => m.countDirectionChangesChecked f
  | .entropyFirstOrigToDestPacket =>
    if !f.isFirstPacket then pure m
    else if p.dataSize = 0 then pure m
    else m.entropyChecked p
  | .first16ByteFrequency =>
    if p.dataSize = 0 then pure m else m.coverChecked (p.data.take 16)
  | .first4ByteFrequency =>
    if p.dataSize = 0 then pure m else m.coverChecked (p.data.take 4)
  | .firstBitPositions =>
    if p.dataSize = 0 then pure m else m.firstBitPositionsChecked fuel p
  | .payloadSizeFirstPacket =>
    if !f.isFirstPacket then pure m
    else
      let maxSize : Nat :=
        match p.transport with
        | .tcp _ => 1460
        | .udp => 1476
      m.setShare ((p.dataSize : R) / (maxSize : R))
  | .rtmpRegexMatch => m.rtmpRegexMatchChecked p

end AttributeMeter

end Vsid
