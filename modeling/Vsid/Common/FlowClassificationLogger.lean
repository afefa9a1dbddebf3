import Vsid.Common.FlowManager

/-!
# The classification logger

`FlowClassificationLogger` registers itself as both kinds of observer and writes one line of YAML
for a classification and one for a flow that finishes without one. A line holds what
`operator<<(std::ostream&, const Flow&)` prints of the flow, and the match.
-/

namespace Vsid

/-- A line of the result file. `classified` tells `Result: Classified` from
`Result: NotClassified`; `protocol` and `divergence` are the classification of the first and the
best match of the second. -/
structure ResultLine (R : Type) where
  classified : Bool
  protocol : String
  divergence : R
  pktCount : UInt32
  overallPktCount : UInt32
  state : FlowState
  hash : UInt32
  tuple : IPv4Tuple

namespace FlowClassificationLogger

variable {R : Type}

/-- `FlowClassificationLogger::flowFinished`. -/
def flowFinished (f : Flow R) : Option (ResultLine R) :=
  if f.flowClassified then none
  else some
    { classified := false, protocol := f.bestMatchProtocol, divergence := f.bestMatchDivergence,
      pktCount := f.pktCount, overallPktCount := f.overallPktCount, state := f.flowState,
      hash := f.hash, tuple := f.firstPacketTuple }

/-- `FlowClassificationLogger::flowClassified`. -/
def flowClassified (f : Flow R) : Option (ResultLine R) :=
  some
    { classified := true, protocol := f.classifiedProtocol, divergence := f.classifiedDivergence,
      pktCount := f.pktCount, overallPktCount := f.overallPktCount, state := f.flowState,
      hash := f.hash, tuple := f.firstPacketTuple }

/-- The line that a note causes, if it causes one. -/
def line : Note R → Option (ResultLine R)
  | .finished f => flowFinished f
  | .classified f => flowClassified f
  | .removed _ => none

/-- The lines of a list of notes. -/
def lines (notes : List (Note R)) : List (ResultLine R) := notes.filterMap line

end FlowClassificationLogger

end Vsid
