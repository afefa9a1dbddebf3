import Vsid.Common.FlowManager
import Vsid.Lib.Run

/-!
# Worker threads

With `workerThreadsPerQueue = n ≥ 1` the manager runs `n` workers, one for each queue. One producer
thread calls `addPacket` and `finished`; a worker pops packets from its queue and calls
`processPacket`. This module is their interleaving. A step of it is one atomic action of one thread:
a section under `_flowsMutex`, one update of a counter, one push or pop, one `Flow::addPacket`, one
test of a state, one call of the observers. The section of `getFlow` that replaces a flow and the
sweep of `finished` call the observers under the mutex; they are several steps, during which the
thread holds it.

The program counter of a thread says what it does next and what it has in its local variables. A
schedule is a list of actions: which thread goes on, what the producer is asked to do, which entry
the sweep visits next, and the shutdown. All accesses are sequentially consistent.

Three fields of the state and one of a job are ghosts: `history` is what the producer was asked to
do and has gone through `getFlow` with, `pushed` what it put on a queue, `applied` what reached a
flow and by which worker, and `Job.flow` the flow that was found when the packet was pushed. The
program keeps none of them and no step depends on them.
-/

namespace Vsid

/-- The threads. -/
inductive Thread where
  | producer
  | worker (i : Nat)
deriving DecidableEq, Repr

/-- A queued packet, and the flow the producer pushed it for. -/
structure Job where
  packet : IPv4Packet
  flow : FlowId
deriving DecidableEq, Repr

/-- Where a thread is inside `notifyFlowFinished`. -/
inductive NotifyStage where
  | test
  | observe
  | mark
  | done
deriving DecidableEq, Repr

/-- Where the producer is. -/
inductive ProducerPc where
  | idle
  /-- At the start of `getFlow`. -/
  | lookup (p : IPv4Packet)
  /-- In `getFlow`, replacing the flow it found. -/
  | replacing (p : IPv4Packet) (i : FlowId) (stage : NotifyStage)
  /-- Between `getFlow` and `incPktsInQueue`. -/
  | found (p : IPv4Packet) (i : FlowId)
  /-- Between `incPktsInQueue` and `push`. -/
  | pushing (p : IPv4Packet) (i : FlowId)
  /-- The queue was full. -/
  | undo (i : FlowId)
  /-- In `finished`, waiting for queue `k`. -/
  | draining (k : Nat)
  /-- In `finished`, between two entries of the table. -/
  | sweeping
  /-- In `finished`, waiting for the packets of a flow. -/
  | spinning (h : UInt32) (i : FlowId)
  /-- In `finished`, notifying about a flow. -/
  | sweepNotify (h : UInt32) (i : FlowId) (stage : NotifyStage)
deriving DecidableEq, Repr

/-- Where a worker is. -/
inductive WorkerPc where
  | polling
  | exited
  /-- At the start of `getFlow`. -/
  | lookup (job : Job)
  /-- In `getFlow`, replacing the flow it found. -/
  | replacing (job : Job) (i : FlowId) (stage : NotifyStage)
  /-- Between `getFlow` and `decPktsInQueue`. -/
  | found (p : IPv4Packet) (i : FlowId)
  /-- Between `decPktsInQueue` and `Flow::addPacket`. -/
  | applying (p : IPv4Packet) (i : FlowId) (classified : Bool)
  | applied (i : FlowId) (classified : Bool)
  | checkFinished (i : FlowId)
  | checkNotified (i : FlowId)
  | notifying (i : FlowId) (stage : NotifyStage)
  | deleting (i : FlowId)
deriving DecidableEq, Repr

/-- What the producer is asked to do. -/
inductive Call where
  | packet (p : IPv4Packet)
  | finished

/-- What the manager's threads share, where each of them is, and the ghosts. -/
structure State (R : Type) where
  mgr : FlowManager R
  queues : Nat → List Job
  producer : ProducerPc
  worker : Nat → WorkerPc
  mutex : Option Thread
  history : List Call
  pushed : List Job
  applied : List (Nat × Job)

/-- What can happen next. -/
inductive Action where
  | addPacket (p : IPv4Packet)
  | finished
  | pick (h : UInt32)
  | producer
  | worker (i : Nat)
  | shutdown

/-! ## The operations, cut into steps -/

/-- What the look-up in `getFlow` came to: a flow, or one that has to be replaced. -/
inductive Looked (R : Type) where
  | found (m : FlowManager R) (i : FlowId)
  | replace (i : FlowId)

namespace FlowManager

variable {R : Type} [Double R]

/-- `getFlow` up to the replacement. -/
def look (S : Setup R) (self : Option Nat) (m : FlowManager R) (p : IPv4Packet) : Looked R :=
  match m.flows (S.flowHash p.tuple) with
  | none =>
    let (m, i) := m.insertFlow S self p
    .found m i
  | some i =>
    match m.heap[i]? with
    | none => .found m i
    | some f => if replaces S f p then .replace i else .found m i

/-- One stage of `notifyFlowFinished`. -/
def notifyStep (m : FlowManager R) (i : FlowId) (stage : NotifyStage) :
    FlowManager R × NotifyStage :=
  match stage, m.heap[i]? with
  | _, none => (m, .done)
  | .test, some f =>
    if f.flowState = .finishedNotified then (m, .done)
    else if tooFewPackets f then (m, .mark)
    else (m, .observe)
  | .observe, some f => (m.tell i (.finished f), .mark)
  | .mark, some _ => (m.modifyFlow i Flow.setFinishedAndNotified, .done)
  | .done, some _ => (m, .done)

/-- `addPacket` gives a queue to a flow that has none. -/
def assignQueue (S : Setup R) (m : FlowManager R) (i : FlowId) : FlowManager R :=
  match m.heap[i]? with
  | none => m
  | some f =>
    if f.threadQueueId = -1 then
      { m.modifyFlow i fun f => { f with threadQueueId := m.nextQueue S } with
        currentQueue := m.nextQueue S + 1 }
    else m

/-- The queue of a flow. -/
def queueOf (m : FlowManager R) (i : FlowId) : Nat :=
  match m.heap[i]? with
  | none => 0
  | some f => f.threadQueueId.toNat

/-- No entry of the table is left. Every entry points to a flow of its key. -/
def tableEmpty (m : FlowManager R) : Bool :=
  (List.range m.heap.length).all fun i =>
    match m.heap[i]? with
    | none => true
    | some f => m.flows f.hash != some i

end FlowManager

/-! ## The steps -/

namespace State

variable {R : Type} [Double R]

/-- Nothing has happened, and `n` workers wait. -/
def init : State R :=
  { mgr := FlowManager.init, queues := fun _ => [], producer := .idle, worker := fun _ => .polling,
    mutex := none, history := [], pushed := [], applied := [] }

/-- Worker `i` goes on at `pc`. -/
def setWorker (s : State R) (i : Nat) (pc : WorkerPc) : State R :=
  { s with worker := Function.update s.worker i pc }

/-- A step of the producer. -/
def producerStep (S : Setup R) (s : State R) : Option (State R) :=
  match s.producer with
  | .idle => none
  | .lookup p =>
    if s.mutex.isSome then none
    else match s.mgr.look S none p with
      | .found m i =>
        some { s with mgr := m, producer := .found p i, history := s.history ++ [.packet p] }
      | .replace i => some { s with producer := .replacing p i .test, mutex := some .producer }
  | .replacing p _ .done =>
    let (m, j) := (s.mgr.erase (S.flowHash p.tuple)).insertFlow S none p
    some { s with
      mgr := m, producer := .found p j, mutex := none, history := s.history ++ [.packet p] }
  | .replacing p i stage =>
    let (m, stage) := s.mgr.notifyStep i stage
    some { s with mgr := m, producer := .replacing p i stage }
  | .found p i =>
    some { s with
      mgr := (s.mgr.modifyFlow i Flow.incPktsInQueue).assignQueue S i, producer := .pushing p i }
  | .pushing p i =>
    let q := s.mgr.queueOf i
    if (s.queues q).length < S.config.workerThreadQueueSize then
      some { s with
        queues := Function.update s.queues q (s.queues q ++ [⟨p, i⟩])
        producer := .idle
        pushed := s.pushed ++ [Job.mk p i] }
    else some { s with producer := .undo i }
  | .undo i => some { s with mgr := s.mgr.modifyFlow i Flow.decPktsInQueue, producer := .idle }
  | .draining k =>
    if k < S.config.workerThreadsPerQueue then
      match s.queues k with
      | [] => some { s with producer := .draining (k + 1) }
      | _ :: _ => none
    else if s.mutex.isSome then none
    else some { s with producer := .sweeping, mutex := some .producer }
  | .sweeping =>
    if s.mgr.tableEmpty then
      some { s with producer := .idle, mutex := none, history := s.history ++ [.finished] }
    else none
  | .spinning h i =>
    match s.mgr.heap[i]? with
    | none => none
    | some f =>
      if f.havePktsInQueue then none else some { s with producer := .sweepNotify h i .test }
  | .sweepNotify h _ .done => some { s with mgr := s.mgr.erase h, producer := .sweeping }
  | .sweepNotify h i stage =>
    let (m, stage) := s.mgr.notifyStep i stage
    some { s with mgr := m, producer := .sweepNotify h i stage }

/-- A step of worker `i`: `processPackets` and `processPacket`. -/
def workerStep (S : Setup R) (s : State R) (i : Nat) : Option (State R) :=
  match s.worker i with
  | .exited => none
  | .polling =>
    if s.mgr.shutdown then some (s.setWorker i .exited)
    else match s.queues i with
      | [] => none
      | job :: rest =>
        some ({ s with queues := Function.update s.queues i rest }.setWorker i (.lookup job))
  | .lookup job =>
    if s.mutex.isSome then none
    else match s.mgr.look S (some i) job.packet with
      | .found m j => some ({ s with mgr := m }.setWorker i (.found job.packet j))
      | .replace j =>
        some ({ s with mutex := some (.worker i) }.setWorker i (.replacing job j .test))
  | .replacing job _ .done =>
    let (m, j) := (s.mgr.erase (S.flowHash job.packet.tuple)).insertFlow S (some i) job.packet
    some ({ s with mgr := m, mutex := none }.setWorker i (.found job.packet j))
  | .replacing job j stage =>
    let (m, stage) := s.mgr.notifyStep j stage
    some ({ s with mgr := m }.setWorker i (.replacing job j stage))
  | .found p j =>
    match s.mgr.heap[j]? with
    | none => none
    | some f =>
      some ({ s with mgr := s.mgr.modifyFlow j Flow.decPktsInQueue }.setWorker i
        (.applying p j f.flowClassified))
  | .applying p j classified =>
    some ({ s with
        mgr := s.mgr.modifyFlow j fun f => f.addPacket S p
        applied := s.applied ++ [(i, Job.mk p j)] }.setWorker i (.applied j classified))
  | .applied j classified =>
    match s.mgr.heap[j]? with
    | none => none
    | some f =>
      if f.flowClassified != classified && f.flowClassified then
        some ({ s with mgr := s.mgr.notifyFlowClassified j }.setWorker i (.checkFinished j))
      else some (s.setWorker i (.checkFinished j))
  | .checkFinished j =>
    match s.mgr.heap[j]? with
    | none => none
    | some f =>
      if f.flowState = .finished then some (s.setWorker i (.notifying j .test))
      else some (s.setWorker i (.checkNotified j))
  | .checkNotified j =>
    match s.mgr.heap[j]? with
    | none => none
    | some f =>
      if f.flowState = .finishedNotified then some (s.setWorker i (.deleting j))
      else some (s.setWorker i .polling)
  | .notifying j .done => some (s.setWorker i (.deleting j))
  | .notifying j stage =>
    let (m, stage) := s.mgr.notifyStep j stage
    some ({ s with mgr := m }.setWorker i (.notifying j stage))
  | .deleting j =>
    if s.mutex.isSome then none
    else some ({ s with mgr := s.mgr.deleteFlow j }.setWorker i .polling)

/-- A step of the manager with its threads. -/
def step (S : Setup R) (s : State R) : Action → Option (State R)
  | .addPacket p =>
    match s.producer with
    | .idle => if s.mgr.shutdown then some s else some { s with producer := .lookup p }
    | _ => none
  | .finished =>
    match s.producer with
    | .idle => some { s with producer := .draining 0 }
    | _ => none
  | .pick h =>
    match s.producer, s.mgr.flows h with
    | .sweeping, some i => some { s with producer := .spinning h i }
    | _, _ => none
  | .producer => s.producerStep S
  | .worker i => if i < S.config.workerThreadsPerQueue then s.workerStep S i else none
  | .shutdown => some { s with mgr := { s.mgr with shutdown := true } }

/-- The states that some interleaving leads to. -/
def Reachable (S : Setup R) (s : State R) : Prop := Reaches (step S) init s

end State

end Vsid
