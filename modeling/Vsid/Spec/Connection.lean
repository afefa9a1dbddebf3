import Vsid.Common.FlowManager

/-!
# One connection

What the flow manager is for, seen from a single table entry: a `Connection` is the list of the
flows that were opened and closed under one hash, in order, and the one that is open now. Its
operations know of no table, no other connection and no allocator; the flow that a packet may open
is an argument.

`Vsid.Laws.Connection` proves that the manager is the product of its connections.
-/

namespace Vsid

variable {R : Type}

/-- A flow and what was said about it. -/
structure FlowRecord (R : Type) where
  flow : Flow R
  told : List (Note R)

namespace FlowRecord

/-- A flow that was just created. -/
def fresh (f : Flow R) : FlowRecord R := { flow := f, told := [] }

/-- Changing the flow. -/
def modify (r : FlowRecord R) (g : Flow R → Flow R) : FlowRecord R := { r with flow := g r.flow }

/-- Saying something about the flow. -/
def tell (r : FlowRecord R) (note : Note R) : FlowRecord R := { r with told := r.told ++ [note] }

/-- The observers hear of the end of the flow, unless they have or it is too small. -/
def notifyFinished (r : FlowRecord R) : FlowRecord R :=
  if r.flow.flowState = .finishedNotified then r
  else if FlowManager.tooFewPackets r.flow then r.modify Flow.setFinishedAndNotified
  else (r.tell (.finished r.flow)).modify Flow.setFinishedAndNotified

/-- The flow leaves the table. -/
def remove (r : FlowRecord R) : FlowRecord R := r.tell (.removed r.flow)

/-- A packet is added, and a classification it brought about is announced. -/
def apply [Double R] (S : Setup R) (r : FlowRecord R) (p : IPv4Packet) : FlowRecord R :=
  let f := r.flow.addPacket S p
  if f.flowClassified != r.flow.flowClassified && f.flowClassified then
    (r.modify fun _ => f).tell (.classified f)
  else r.modify fun _ => f

end FlowRecord

/-- The flows of one hash: those that are over, oldest first, and the one in the table. -/
structure Connection (R : Type) where
  past : List (FlowRecord R)
  live : Option (FlowRecord R)

namespace Connection

/-- Nothing has been seen. -/
def empty : Connection R := { past := [], live := none }

/-- Every flow, oldest first. -/
def records (c : Connection R) : List (FlowRecord R) := c.past ++ c.live.toList

/-- Changing the open flow. -/
def modify (c : Connection R) (g : FlowRecord R → FlowRecord R) : Connection R :=
  { c with live := c.live.map g }

/-- The open flow leaves the table. -/
def retire (c : Connection R) : Connection R :=
  { past := c.past ++ (c.live.map FlowRecord.remove).toList, live := none }

/-- The observers hear of the end of the open flow, and it leaves the table. -/
def finish (c : Connection R) : Connection R := (c.modify FlowRecord.notifyFinished).retire

/-- Opening a flow. -/
def start (c : Connection R) (fresh : Flow R) : Connection R :=
  { c with live := some (FlowRecord.fresh fresh) }

/-- The flow that takes the packet is made the open one. -/
def lookup (S : Setup R) (c : Connection R) (fresh : Flow R) (p : IPv4Packet) : Connection R :=
  match c.live with
  | none => c.start fresh
  | some r => if FlowManager.replaces S r.flow p then c.finish.start fresh else c

/-- A flow that has reached a closed state is closed. -/
def settle (c : Connection R) : Connection R :=
  match c.live with
  | none => c
  | some r => if r.flow.isFinished then c.finish else c

/-- A packet of the connection. -/
def process [Double R] (S : Setup R) (c : Connection R) (fresh : Flow R) (p : IPv4Packet) :
    Connection R :=
  ((c.lookup S fresh p).modify fun r => r.apply S p).settle

end Connection

/-! ## The connections of a manager -/

namespace FlowManager

/-- What was said about a flow. -/
def told (m : FlowManager R) (i : FlowId) : List (Note R) :=
  (m.events.filter fun e => e.id == i).map Event.note

/-- A flow of the heap with what was said about it. -/
def record (m : FlowManager R) (i : FlowId) : Option (FlowRecord R) :=
  m.heap[i]?.map fun f => { flow := f, told := m.told i }

/-- The hash under which a flow was created. -/
def hashAt (m : FlowManager R) (i : FlowId) : Option UInt32 := m.heap[i]?.map Flow.hash

/-- The flows of a hash that are not in the table. -/
def pastIds (m : FlowManager R) (h : UInt32) : List FlowId :=
  (List.range m.heap.length).filter fun i => m.hashAt i = some h ∧ m.flows h ≠ some i

/-- What the manager holds and held under a hash. -/
def connection (m : FlowManager R) (h : UInt32) : Connection R :=
  { past := (m.pastIds h).filterMap m.record, live := (m.flows h).bind m.record }

end FlowManager

end Vsid
