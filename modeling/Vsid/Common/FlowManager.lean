import Mathlib.Logic.Function.Basic
import Vsid.Common.Flow

/-!
# The flow manager

`FlowManager` owns the table from flow hashes to flows. A `Flow` is shared: the table holds a
`shared_ptr`, a worker that looked it up holds another, and observers are handed one. So flows live
in a heap here, in the order of their creation, and everything else names them by `FlowId`.

This module has the operations, and their composition in non-threaded mode
(`workerThreadsPerQueue = 0`), where `addPacket` goes straight on to `processPacket`. The threaded
composition of the same operations is `Vsid.Common.Workers`.

`events` is what happens to flows, in order: the calls of the two kinds of observers, with the flow
as the observer sees it, and the removals from the table.

`std::unordered_map` is a finite partial function without an order; the order in which `finished`
walks it is handed in as the list of keys.
-/

namespace Vsid

/-- The identity of a `Flow` object: its place in the order of creation. -/
abbrev FlowId := Nat

/-- What happens to a flow from outside: a call of the observers or its removal from the table, with
the flow as it is then. -/
inductive Note (R : Type) where
  | finished (flow : Flow R)
  | classified (flow : Flow R)
  | removed (flow : Flow R)

/-- A call of the flow-finished observers. -/
def Note.isFinished {R : Type} : Note R → Bool
  | finished _ => true
  | _ => false

/-- A call of the flow-classified observers. -/
def Note.isClassified {R : Type} : Note R → Bool
  | classified _ => true
  | _ => false

/-- A note about a flow. -/
structure Event (R : Type) where
  id : FlowId
  note : Note R

/-- `FlowManager`, with the heap of the flows it has created. -/
structure FlowManager (R : Type) where
  heap : List (Flow R)
  flows : UInt32 → Option FlowId
  currentQueue : Nat
  shutdown : Bool
  events : List (Event R)

namespace FlowManager

variable {R : Type} [Double R]

/-- `FlowManager::FlowManager`. -/
def init : FlowManager R :=
  { heap := [], flows := fun _ => none, currentQueue := 0, shutdown := false, events := [] }

/-- Applying a member function to a flow. -/
def modifyFlow (m : FlowManager R) (i : FlowId) (g : Flow R → Flow R) : FlowManager R :=
  { m with heap := m.heap.modify i g }

/-- Recording an event. -/
def tell (m : FlowManager R) (i : FlowId) (note : Note R) : FlowManager R :=
  { m with events := m.events ++ [⟨i, note⟩] }

/-- `_flows.erase(hash)`. -/
def erase (m : FlowManager R) (h : UInt32) : FlowManager R :=
  match m.flows h with
  | none => m
  | some i =>
    let m' := { m with flows := Function.update m.flows h none }
    match m.heap[i]? with
    | none => m'
    | some f => m'.tell i (.removed f)

/-! ## Creating a flow -/

/-- `if(_currentQueue >= _workerThreads.size()) _currentQueue = 0`. -/
def nextQueue (S : Setup R) (m : FlowManager R) : Nat :=
  if S.config.workerThreadsPerQueue ≤ m.currentQueue then 0 else m.currentQueue

/-- The block of `getFlow` that constructs a flow, inserts it and, with worker threads, gives it a
queue: the queue of the calling worker, or the next one in turn on any other thread. The hash is
absent from the table at every call. -/
def insertFlow (S : Setup R) (self : Option Nat) (m : FlowManager R) (p : IPv4Packet) :
    FlowManager R × FlowId :=
  let i := m.heap.length
  let f := Flow.new S p (S.staleBytes i)
  let m := { m with flows := Function.update m.flows f.hash (some i) }
  if 0 < S.config.workerThreadsPerQueue then
    match self with
    | some w => ({ m with heap := m.heap ++ [{ f with threadQueueId := w }] }, i)
    | none =>
      ({ m with
          heap := m.heap ++ [{ f with threadQueueId := m.nextQueue S }]
          currentQueue := m.nextQueue S + 1 }, i)
  else ({ m with heap := m.heap ++ [f] }, i)

/-! ## Looking a packet up -/

/-- The tests of `getFlow` that replace the flow it found. -/
def replaces (S : Setup R) (f : Flow R) (p : IPv4Packet) : Bool :=
  let idle := p.timestamp.sec - f.lastPacketTimestamp.sec
  match p.transport with
  | .udp => !f.havePktsInQueue && decide ((S.config.udpFlowTimeout.toNat : Int) < idle)
  | .tcp _ =>
    -- in the source the parenthesis closes before the comparison: a `bool` meets the limit
    decide (S.config.tcpFlowTimeout.toNat < (!f.havePktsInQueue && idle != 0).toNat) ||
      (f.isFinished && !f.havePktsInQueue &&
        decide ((S.config.tcpFlowCloseWaitTimeout.toNat : Int) < idle))

/-- Too few packets for the observers to hear of the flow. -/
def tooFewPackets (f : Flow R) : Bool :=
  if f.firstPacketTuple.transport == ipprotoTcp then f.pktCount == 0 || f.overallPktCount < 3
  else f.pktCount == 0 || f.overallPktCount < 2

/-- `FlowManager::notifyFlowFinished`. -/
def notifyFlowFinished (m : FlowManager R) (i : FlowId) : FlowManager R :=
  match m.heap[i]? with
  | none => m
  | some f =>
    if f.flowState = .finishedNotified then m
    else if tooFewPackets f then m.modifyFlow i Flow.setFinishedAndNotified
    else (m.tell i (.finished f)).modifyFlow i Flow.setFinishedAndNotified

/-- `FlowManager::notifyFlowClassified`. -/
def notifyFlowClassified (m : FlowManager R) (i : FlowId) : FlowManager R :=
  match m.heap[i]? with
  | none => m
  | some f => m.tell i (.classified f)

/-- `FlowManager::getFlow`, called by worker `self` or by another thread. -/
def getFlow (S : Setup R) (self : Option Nat) (m : FlowManager R) (p : IPv4Packet) :
    FlowManager R × FlowId :=
  match m.flows (S.flowHash p.tuple) with
  | none => m.insertFlow S self p
  | some i =>
    match m.heap[i]? with
    | none => (m, i)
    | some f =>
      if replaces S f p then
        ((m.notifyFlowFinished i).erase (S.flowHash p.tuple)).insertFlow S self p
      else (m, i)

/-! ## Processing a packet -/

/-- `FlowManager::deleteFlow`. -/
def deleteFlow (m : FlowManager R) (i : FlowId) : FlowManager R :=
  match m.heap[i]? with
  | none => m
  | some f =>
    if f.havePktsInQueue then m.modifyFlow i Flow.setFinishedAndNotified else m.erase f.hash

/-- The end of `processPacket`: what is done about the state that the packet left. -/
def closeFlow (m : FlowManager R) (i : FlowId) : FlowManager R :=
  match m.heap[i]? with
  | none => m
  | some f =>
    if f.flowState = .finished then (m.notifyFlowFinished i).deleteFlow i
    else if f.flowState = .finishedNotified then m.deleteFlow i
    else m

/-- The middle of `processPacket`: the packet is added to the flow, and a classification that it
brought about is announced. -/
def applyPacket (S : Setup R) (m : FlowManager R) (i : FlowId) (p : IPv4Packet) :
    FlowManager R :=
  match m.heap[i]? with
  | none => m
  | some f =>
    let classified := (f.addPacket S p).flowClassified
    let m := m.modifyFlow i fun f => f.addPacket S p
    if classified != f.flowClassified && classified then m.notifyFlowClassified i else m

/-- `FlowManager::processPacket`, called by worker `self` or by another thread. -/
def processPacket (S : Setup R) (self : Option Nat) (m : FlowManager R) (p : IPv4Packet) :
    FlowManager R :=
  let (m, i) := m.getFlow S self p
  ((m.modifyFlow i Flow.decPktsInQueue).applyPacket S i p).closeFlow i

/-- `FlowManager::addPacket` in non-threaded mode. -/
def addPacket (S : Setup R) (m : FlowManager R) (p : IPv4Packet) : FlowManager R :=
  if m.shutdown then m
  else
    let (m, i) := m.getFlow S none p
    (m.modifyFlow i Flow.incPktsInQueue).processPacket S none p

/-! ## Finishing -/

/-- One entry of the sweep of `finished`. `none` when the loop that waits for the flow's packets
cannot end, as nothing else runs. -/
def sweepEntry (m : FlowManager R) (h : UInt32) : Option (FlowManager R) :=
  match m.flows h with
  | none => some m
  | some i =>
    match m.heap[i]? with
    | none => none
    | some f => if f.havePktsInQueue then none else some ((m.notifyFlowFinished i).erase h)

/-- `FlowManager::finished` in non-threaded mode, walking the table in the order `order`. -/
def finished (m : FlowManager R) (order : List UInt32) : Option (FlowManager R) :=
  order.foldlM sweepEntry m

/-- `order` lists the keys of the table, each once. -/
def WalksTable (m : FlowManager R) (order : List UInt32) : Prop :=
  order.Nodup ∧ ∀ h, h ∈ order ↔ (m.flows h).isSome

/-- The packets of a capture, one after the other. -/
def addPackets (S : Setup R) (packets : List IPv4Packet) : FlowManager R :=
  packets.foldl (fun m p => m.addPacket S p) init

end FlowManager

end Vsid
