import Vsid.Capture.Verdict
import Vsid.Common.Workers

/-!
# The handler with worker threads, from its start to its end

The netfilter program with `workerThreadsPerQueue = n ≥ 1`: one thread delivers packets, `n` workers
process them, a signal may call `PacketHandler::shutdown` at any time, and in the end the handler is
destroyed. `~PacketHandler` destroys the netfilter queue; then the members go, and `~FlowManager`
sets the flag and joins the workers. The thread that delivers has returned by then.

The flows and the threads are those of `State`. Added are the packet objects, in the hands of
whoever holds the pointer: the producer, a queue or a worker. The loop of a worker is finer here:
the test of the flag and the `pop` are two steps, between which the flag may be set.

`passed` and `deleted` are ghosts: the ids of the packets that `FlowManager::addPacket` was called
with, and the objects whose destructor has run.
-/

set_option autoImplicit false

namespace Vsid

/-- How far the handler has gone. -/
inductive Phase where
  | running
  /-- `nfq_destroy_queue` is through. -/
  | queueDestroyed
  /-- `~FlowManager` has set the flag. -/
  | joining
  | destroyed
deriving DecidableEq, Repr

/-- A `PacketHandler` and its threads. -/
structure ThreadedHandler (R : Type) where
  phase : Phase
  verdicts : VerdictSetter
  threads : State R
  /-- Worker `i` has seen the flag unset and goes on to `pop`. -/
  tested : Nat → Bool
  adding : Option PacketObject
  queued : Nat → List PacketObject
  working : Nat → Option PacketObject
  passed : List UInt32
  deleted : List PacketObject

/-- What can happen next. -/
inductive HandlerAction where
  | handlePacket (id : UInt32) (p : IPv4Packet)
  | producer
  | worker (i : Nat)
  | shutdown
  | destroyQueue
  | joinWorkers
  | finish

namespace ThreadedHandler

variable {R : Type} [Double R] (C : NetfilterConfig) (S : Setup R)

/-- The queue is there, and the workers wait. -/
def init : ThreadedHandler R :=
  { phase := .running, verdicts := VerdictSetter.init, threads := State.init,
    tested := fun _ => false, adding := none, queued := fun _ => [], working := fun _ => none,
    passed := [], deleted := [] }

/-- `_shutdown = true`. -/
def setShutdown (s : State R) : State R := { s with mgr := { s.mgr with shutdown := true } }

/-- A packet object gets its verdict and is deleted by `release`. -/
def release (s : ThreadedHandler R) (o : PacketObject) (release : Held → Held) :
    ThreadedHandler R :=
  let held := release ⟨o, s.verdicts⟩
  { s with verdicts := held.handler, deleted := s.deleted ++ [held.packet] }

/-- The same for an object that may be missing. -/
def releaseAll (s : ThreadedHandler R) (o : Option PacketObject) (release : Held → Held) :
    ThreadedHandler R :=
  o.elim s fun o => s.release o release

/-- `PacketHandler::handlePacket` of a TCP or UDP packet, up to the first test in `addPacket`. -/
def handlePacket (s : ThreadedHandler R) (id : UInt32) (p : IPv4Packet) :
    Option (ThreadedHandler R) :=
  match s.phase, s.threads.step S (.addPacket p) with
  | .running, some threads =>
    let verdicts :=
      if !C.verdictAfterClassification then s.verdicts.setVerdict id nfAccept else s.verdicts
    let s' := { s with verdicts := verdicts, passed := s.passed ++ [id] }
    if s.threads.mgr.shutdown then
      some (s'.release (PacketObject.new id) fun held => (held.setVerdict C).destroy C)
    else some { s' with threads := threads, adding := some (PacketObject.new id) }
  | _, _ => none

/-- The producer goes on in `FlowManager::addPacket`. -/
def producerStep (s : ThreadedHandler R) : Option (ThreadedHandler R) :=
  match s.threads.step S .producer with
  | none => none
  | some threads =>
    match s.threads.producer, threads.producer with
    | .pushing _ i, .idle =>
      let q := s.threads.mgr.queueOf i
      some { s with
        threads := threads
        adding := none
        queued := Function.update s.queued q (s.queued q ++ s.adding.toList) }
    | .undo _, _ =>
      some ({ s with threads := threads, adding := none }.releaseAll s.adding fun held =>
        (held.dropPkt C).destroy C)
    | _, _ => some { s with threads := threads }

/-- The loop of `processPackets`. -/
def poll (s : ThreadedHandler R) (i : Nat) : ThreadedHandler R :=
  if s.tested i then
    match s.threads.queues i with
    | [] => { s with tested := Function.update s.tested i false }
    | job :: rest =>
      { s with
        tested := Function.update s.tested i false
        threads := { s.threads with
          queues := Function.update s.threads.queues i rest }.setWorker i (.lookup job)
        queued := Function.update s.queued i (s.queued i).tail
        working := Function.update s.working i (s.queued i).head? }
  else if s.threads.mgr.shutdown then { s with threads := s.threads.setWorker i .exited }
  else { s with tested := Function.update s.tested i true }

/-- Worker `i` goes on. -/
def workerStep (s : ThreadedHandler R) (i : Nat) : Option (ThreadedHandler R) :=
  match s.threads.worker i with
  | .polling => if i < S.config.workerThreadsPerQueue then some (s.poll i) else none
  | .applying p j _ =>
    match s.threads.step S (.worker i), s.threads.mgr.heap[j]? with
    | some threads, some f =>
      some ({ s with
          threads := threads
          working := Function.update s.working i none }.releaseAll (s.working i) fun held =>
        (f.addPacketHeld C S Calculation.quiet p held).2)
    | _, _ => none
  | _ => (s.threads.step S (.worker i)).map fun threads => { s with threads := threads }

/-- Every worker has left its loop. -/
def Joined (s : ThreadedHandler R) : Prop :=
  ∀ i, i < S.config.workerThreadsPerQueue → s.threads.worker i = .exited

instance (s : ThreadedHandler R) : Decidable (s.Joined S) := Nat.decidableBallLT _ _

/-- A step of the handler. -/
def step (s : ThreadedHandler R) : HandlerAction → Option (ThreadedHandler R)
  | .handlePacket id p => s.handlePacket C S id p
  | .producer => s.producerStep C S
  | .worker i => s.workerStep C S i
  | .shutdown =>
    if s.phase = .running then some { s with threads := setShutdown s.threads } else none
  | .destroyQueue =>
    if s.phase = .running ∧ s.threads.producer = .idle then
      some { s with phase := .queueDestroyed, verdicts := { s.verdicts with queueOpen := false } }
    else none
  | .joinWorkers =>
    if s.phase = .queueDestroyed then
      some { s with phase := .joining, threads := setShutdown s.threads }
    else none
  | .finish =>
    if s.phase = .joining ∧ s.Joined S then some { s with phase := .destroyed } else none

end ThreadedHandler

end Vsid
