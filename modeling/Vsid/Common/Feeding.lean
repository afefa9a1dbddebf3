import Vsid.Capture.Verdict

/-!
# The calls that the meters of a flow receive

`Flow.feed` is `Flow::addPacket` with a log of the calls of `calculateMeasurement` that it makes.
Any of them may throw, in which case the exception is caught inside the loop and the next meter is
called. Every packet brings its own `Calculation`, so a meter may throw on one packet and not on the
next.
-/

set_option autoImplicit false

namespace Vsid

/-- A call of `calculateMeasurement`: of the meter at a position, for a packet. -/
structure MeterCall where
  meter : Nat
  packet : IPv4Packet
deriving DecidableEq, Repr

/-- A packet, and what the meters do with it. -/
abbrev Feed (R : Type) := IPv4Packet × Calculation R

namespace Flow

variable {R : Type} [Double R]

/-- The loop over the meters from a position on: what they hold afterwards, and the calls. -/
def feedMeters (measure : Calculation R) (reading : FlowReading) (p : IPv4Packet) :
    Nat → List (AttributeMeter R) → List (AttributeMeter R) × List MeterCall
  | _, [] => ([], [])
  | i, m :: meters =>
    let m' :=
      match measure m reading p with
      | .ok m' => m'
      -- the exception is logged, and the loop goes on
      | .error left => left
    let (meters', calls) := feedMeters measure reading p (i + 1) meters
    (m' :: meters', ⟨i, p⟩ :: calls)

/-- The part of `Flow::addPacket` that a data packet reaches. -/
def feedDataPacket (S : Setup R) (f : Flow R) (q : Feed R) : Flow R × List MeterCall :=
  let f := f.countPacket q.1
  if f.flowClassified then (f.touch q.1, [])
  else if S.database.cutoffLimit < f.pktCount then (f.touch q.1, [])
  else
    let (meters, calls) := feedMeters q.2 f.reading q.1 0 f.attributeMeters
    ((({ f with attributeMeters := meters } : Flow R).touch q.1).classify S, calls)

/-- `Flow::addPacket`, with the calls that it makes. -/
def feed (S : Setup R) (f : Flow R) (q : Feed R) : Flow R × List MeterCall :=
  match f.advance q.1 with
  | (f, true) => (f, [])
  | (f, false) => if isBareSegment q.1 then (f, []) else f.feedDataPacket S q

/-- A sequence of packets, with all calls. -/
def feedAll (S : Setup R) : Flow R → List (Feed R) → Flow R × List MeterCall
  | f, [] => (f, [])
  | f, q :: run =>
    let (f, calls) := f.feed S q
    let (f, more) := f.feedAll S run
    (f, calls ++ more)

end Flow

end Vsid
