import Vsid.Common.FlowClassificationLogger
import Vsid.Laws.Bookkeeping
import Vsid.Laws.Classification
import Vsid.Laws.Workers.Known

/-!
# What the threads have left to do

With worker threads the manager runs behind: a packet that was looked up has still to be taken from
its queue, to be added to its flow and to be followed by what `processPacket` does about the state
it left. `WorkerPc.completes` is what a worker has left of that, as a function on the connection of
its flow, and `State.rest` all that the threads have left for one flow.

The lemmas on a connection say that what a step of a thread does to it and what is left after the
step come to what was left before. They do so up to `Connection.SameLines` where a flow is over: a
packet that it still absorbs, and one that non-threaded mode opens a flow of its own for, can leave
no line behind.
-/

set_option autoImplicit false

namespace Vsid

variable {R : Type}

/-! ## The lines of a connection -/

/-- The lines about a flow. -/
def FlowRecord.lines (r : FlowRecord R) : List (ResultLine R) :=
  FlowClassificationLogger.lines r.told

/-- The lines about the flows of a connection. -/
def Connection.lines (c : Connection R) : List (ResultLine R) := c.records.flatMap FlowRecord.lines

/-- That a flow leaves the table is not logged. -/
theorem FlowRecord.lines_remove (r : FlowRecord R) : r.remove.lines = r.lines := by
  show (r.told ++ [Note.removed r.flow]).filterMap FlowClassificationLogger.line = _
  rw [List.filterMap_append]
  exact List.append_nil _

namespace Connection

/-- The open flow is the same, and the flows that are over have left the same lines. -/
structure SameLines (c d : Connection R) : Prop where
  past : c.past.flatMap FlowRecord.lines = d.past.flatMap FlowRecord.lines
  live : c.live = d.live

namespace SameLines

variable {c d e : Connection R}

theorem refl (c : Connection R) : c.SameLines c := ⟨rfl, rfl⟩

theorem trans (h : c.SameLines d) (h' : d.SameLines e) : c.SameLines e :=
  ⟨h.past.trans h'.past, h.live.trans h'.live⟩

theorem symm (h : c.SameLines d) : d.SameLines c := ⟨h.past.symm, h.live.symm⟩

theorem lines (h : c.SameLines d) : c.lines = d.lines := by
  unfold Connection.lines records
  rw [List.flatMap_append, List.flatMap_append, h.past, h.live]

theorem modify (h : c.SameLines d) (g : FlowRecord R → FlowRecord R) :
    (c.modify g).SameLines (d.modify g) := ⟨h.past, congrArg (Option.map g) h.live⟩

theorem start (h : c.SameLines d) (fresh : Flow R) : (c.start fresh).SameLines (d.start fresh) :=
  ⟨h.past, rfl⟩

theorem retire (h : c.SameLines d) : c.retire.SameLines d.retire := by
  refine ⟨?_, rfl⟩
  unfold Connection.retire
  rw [List.flatMap_append, List.flatMap_append, h.past, h.live]

theorem finish (h : c.SameLines d) : c.finish.SameLines d.finish :=
  (h.modify FlowRecord.notifyFinished).retire

theorem settle (h : c.SameLines d) : c.settle.SameLines d.settle := by
  unfold Connection.settle
  rw [h.live]
  cases d.live with
  | none => exact h
  | some r =>
    simp only
    split
    · exact h.finish
    · exact h

theorem absorb [Double R] (h : c.SameLines d) (S : Setup R) (p : IPv4Packet) :
    (c.absorb S p).SameLines (d.absorb S p) := (h.modify _).settle

end SameLines

/-! ### Packets that leave no line -/

variable {S : Setup R} {c : Connection R} {r : FlowRecord R}

/-- A mark on the flow is not logged. -/
theorem retire_modify (c : Connection R) (g : Flow R → Flow R) :
    (c.modify fun r => r.modify g).retire.SameLines c.retire := by
  obtain ⟨past, live⟩ := c
  refine ⟨?_, rfl⟩
  cases live with
  | none => rfl
  | some r =>
    unfold retire modify
    simp only [Option.map_some, Option.toList_some, List.flatMap_append, List.flatMap_singleton,
      FlowRecord.lines_remove]
    rfl

variable [Double R]

/-- A flow that the observers know to be over takes a packet in silence, and leaves the table. -/
theorem absorb_of_notified (hr : c.live = some r) (h : r.flow.flowState = .finishedNotified)
    (p : IPv4Packet) : (c.absorb S p).SameLines c.retire := by
  have hadded : r.flow.addPacket S p = r.flow.arrive := by
    unfold Flow.addPacket Flow.advance
    rw [h]
  have happly : r.apply S p = r.modify Flow.arrive := by
    unfold FlowRecord.apply
    rw [hadded]
    have hclassified : r.flow.arrive.flowClassified = r.flow.flowClassified := rfl
    simp only [hclassified, bne_self_eq_false, Bool.false_and, Bool.false_eq_true, if_false]
    rfl
  have hnotified : (r.modify Flow.arrive).flow.flowState = .finishedNotified := h
  have hclosed : (r.modify Flow.arrive).flow.isFinished = true := by
    rw [Flow.isFinished, hnotified]
    rfl
  have hsilent : (r.modify Flow.arrive).notifyFinished = r.modify Flow.arrive := by
    unfold FlowRecord.notifyFinished
    rw [if_pos hnotified]
  have habsorb : c.absorb S p = (c.modify fun r => r.modify Flow.arrive).retire := by
    unfold absorb settle
    simp only [modify, hr, Option.map_some, happly, hclosed, if_true, finish, hsilent]
  rw [habsorb]
  exact retire_modify c Flow.arrive

/-- A flow that its first packet closes without a classification leaves no line. -/
theorem process_of_stray (hnone : c.live = none) {fresh : Flow R} {p : IPv4Packet}
    (hfirst : fresh.overallPktCount = 0) (hclosed : (fresh.addPacket S p).isFinished = true)
    (hplain : (fresh.addPacket S p).flowClassified = false) :
    (c.process S fresh p).SameLines c := by
  have happly : (FlowRecord.fresh fresh).apply S p =
      FlowRecord.fresh (fresh.addPacket S p) := by
    have hfresh : (FlowRecord.fresh fresh).flow = fresh := rfl
    unfold FlowRecord.apply
    simp only [hfresh, hplain, Bool.and_false, Bool.false_eq_true, if_false]
    rfl
  have hfew :
      FlowManager.tooFewPackets (FlowRecord.fresh (fresh.addPacket S p)).flow = true := by
    have hone : (fresh.addPacket S p).overallPktCount = 1 := by
      rw [Flow.addPacket_overallPktCount, hfirst]
      rfl
    have hthree : ((1 : UInt32) < 3) = True := by decide
    have htwo : ((1 : UInt32) < 2) = True := by decide
    show FlowManager.tooFewPackets (fresh.addPacket S p) = true
    unfold FlowManager.tooFewPackets
    rw [hone]
    simp only [hthree, htwo, decide_true, Bool.or_true, ite_self]
  have hsilent : (FlowRecord.fresh (fresh.addPacket S p)).notifyFinished.lines = [] := by
    unfold FlowRecord.notifyFinished
    rw [if_pos hfew]
    split <;> rfl
  have hprocess : c.process S fresh p =
      ((c.start (fresh.addPacket S p)).modify FlowRecord.notifyFinished).retire := by
    have hopen : (FlowRecord.fresh (fresh.addPacket S p)).flow.isFinished = true := hclosed
    unfold process lookup settle
    rw [hnone]
    simp only [start, modify, Option.map_some, happly, hopen, if_true, finish]
  rw [hprocess]
  refine ⟨?_, hnone.symm⟩
  simp only [start, modify, retire, Option.map_some, Option.toList_some, List.flatMap_append,
    List.flatMap_singleton, FlowRecord.lines_remove, hsilent, List.append_nil]

end Connection

/-! ## What is left to do -/

/-- What a notification and the removal of the flow after it still do to the connection. -/
def NotifyStage.close : NotifyStage → Connection R → Connection R
  | test, c => c.finish
  | observe, c => ((c.modify fun r => r.tell (.finished r.flow)).modify fun r =>
      r.modify Flow.setFinishedAndNotified).retire
  | mark, c => (c.modify fun r => r.modify Flow.setFinishedAndNotified).retire
  | done, c => c.retire

namespace Connection

/-- A classification that was not there before is announced. -/
def announce (c : Connection R) (classified : Bool) : Connection R :=
  c.modify fun r =>
    if r.flow.flowClassified != classified && r.flow.flowClassified then
      r.tell (.classified r.flow)
    else r

/-- A flow that the observers know to be over leaves the table. -/
def settleNotified (c : Connection R) : Connection R :=
  match c.live with
  | none => c
  | some r => if r.flow.flowState = .finishedNotified then c.retire else c

/-! ### A step of a thread, and what is left after it -/

variable {c : Connection R} {r : FlowRecord R}

theorem close_skip (hr : c.live = some r) (h : r.flow.flowState = .finishedNotified) :
    NotifyStage.done.close c = NotifyStage.test.close c := by
  have hsame : r.notifyFinished = r := by
    unfold FlowRecord.notifyFinished
    rw [if_pos h]
  obtain ⟨past, live⟩ := c
  cases hr
  simp only [NotifyStage.close, finish, modify, Option.map_some, hsame]

theorem close_tooFew (hr : c.live = some r) (h : r.flow.flowState ≠ .finishedNotified)
    (hfew : FlowManager.tooFewPackets r.flow = true) :
    NotifyStage.mark.close c = NotifyStage.test.close c := by
  have hnotify : r.notifyFinished = r.modify Flow.setFinishedAndNotified := by
    unfold FlowRecord.notifyFinished
    rw [if_neg h, if_pos hfew]
  simp only [NotifyStage.close, finish, modify, hr, Option.map_some, hnotify]

theorem close_tell (hr : c.live = some r) (h : r.flow.flowState ≠ .finishedNotified)
    (hfew : FlowManager.tooFewPackets r.flow = false) :
    NotifyStage.observe.close c = NotifyStage.test.close c := by
  have hnotify : r.notifyFinished =
      (r.tell (.finished r.flow)).modify Flow.setFinishedAndNotified := by
    unfold FlowRecord.notifyFinished
    rw [if_neg h, hfew]
    rfl
  simp only [NotifyStage.close, finish, modify, hr, Option.map_some, hnotify]

theorem settle_of_finished (hr : c.live = some r) (h : r.flow.flowState = .finished) :
    NotifyStage.test.close c = c.settle := by
  have hclosed : r.flow.isFinished = true := by
    rw [Flow.isFinished, h]
    rfl
  unfold settle
  rw [hr]
  simp only [hclosed, if_true]
  rfl

theorem settle_of_unfinished (hr : c.live = some r) (h : r.flow.flowState ≠ .finished) :
    c.settleNotified = c.settle := by
  have hskip := close_skip hr
  unfold settleNotified settle
  rw [hr]
  by_cases hnotified : r.flow.flowState = .finishedNotified
  · have hclosed : r.flow.isFinished = true := by
      rw [Flow.isFinished, hnotified]
      rfl
    simp only [hnotified, hclosed, if_true]
    exact hskip hnotified
  · have hopen : r.flow.isFinished = false := by
      simp only [Flow.isFinished, beq_eq_false_iff_ne.mpr h, beq_eq_false_iff_ne.mpr hnotified,
        Bool.or_false]
    simp only [hnotified, hopen, Bool.false_eq_true, if_false]

theorem settleNotified_of_notified (hr : c.live = some r)
    (h : r.flow.flowState = .finishedNotified) : c.settleNotified = c.retire := by
  unfold settleNotified
  rw [hr]
  simp only [h, if_true]

theorem settleNotified_of_ne (hr : c.live = some r) (h : r.flow.flowState ≠ .finishedNotified) :
    c.settleNotified = c := by
  unfold settleNotified
  rw [hr]
  simp only [h, if_false]

theorem announce_of_new (hr : c.live = some r) {classified : Bool}
    (h : (r.flow.flowClassified != classified && r.flow.flowClassified) = true) :
    c.announce classified = c.modify fun r => r.tell (.classified r.flow) := by
  unfold announce modify
  simp only [hr, Option.map_some, h, if_true]

theorem announce_of_old (hr : c.live = some r) {classified : Bool}
    (h : (r.flow.flowClassified != classified && r.flow.flowClassified) = false) :
    c.announce classified = c := by
  obtain ⟨past, live⟩ := c
  cases hr
  unfold announce modify
  simp only [Option.map_some, h, Bool.false_eq_true, if_false]

theorem retire_live (c : Connection R) : c.retire.live = none := rfl

/-- A packet that is absorbed is added, announced and settled. -/
theorem absorb_eq [Double R] {S : Setup R} (hr : c.live = some r) (p : IPv4Packet) :
    c.absorb S p = ((c.modify fun r => r.modify fun f => f.addPacket S p).announce
      r.flow.flowClassified).settle := by
  unfold absorb
  congr 1
  unfold announce modify
  rw [hr]
  simp only [Option.map_some]
  congr 2

end Connection

/-- What a worker still does to the connection of the flow it is at work on. -/
def WorkerPc.completes [Double R] (S : Setup R) : WorkerPc → Connection R → Connection R
  | polling, c => c
  | exited, c => c
  | lookup job, c => c.absorb S job.packet
  | replacing job _ _, c => c.absorb S job.packet
  | found p _, c => c.absorb S p
  | applying p _ classified, c =>
    ((c.modify fun r => r.modify fun f => f.addPacket S p).announce classified).settle
  | applied _ classified, c => (c.announce classified).settle
  | checkFinished _, c => c.settle
  | checkNotified _, c => c.settleNotified
  | notifying _ stage, c => stage.close c
  | deleting _, c => c.retire

/-- What a worker still does to the connection of flow `j`. -/
def WorkerPc.completesFor [Double R] (S : Setup R) (j : FlowId) (pc : WorkerPc)
    (c : Connection R) : Connection R :=
  if pc.flow = some j then pc.completes S c else c

/-- Packets that go to the open flow as it is, one after the other. -/
def Connection.absorbs [Double R] (S : Setup R) (c : Connection R) (packets : List IPv4Packet) :
    Connection R :=
  packets.foldl (fun c p => c.absorb S p) c

/-- The packet that the producer has looked up and not pushed. -/
def ProducerPc.hand : ProducerPc → Option Job
  | found p i => some ⟨p, i⟩
  | pushing p i => some ⟨p, i⟩
  | _ => none

/-- The stage of the notification, when the producer takes flow `j` out of the table. -/
def ProducerPc.closingStage (j : FlowId) : ProducerPc → Option NotifyStage
  | replacing _ i stage => if i = j then some stage else none
  | sweepNotify _ i stage => if i = j then some stage else none
  | _ => none

section Left

variable [Double R] {S : Setup R} {c : Connection R}

theorem Connection.absorbs_cons (p : IPv4Packet) (packets : List IPv4Packet) :
    c.absorbs S (p :: packets) = (c.absorb S p).absorbs S packets := rfl

theorem Connection.absorbs_append (packets packets' : List IPv4Packet) :
    c.absorbs S (packets ++ packets') = (c.absorbs S packets).absorbs S packets' :=
  List.foldl_append

/-- Once the flow is out of the table, what was queued for it comes too late. -/
theorem Connection.absorbs_of_none (hnone : c.live = none) (packets : List IPv4Packet) :
    c.absorbs S packets = c := by
  induction packets with
  | nil => rfl
  | cons p packets ih => rw [absorbs_cons, absorb_of_none hnone, ih]

theorem WorkerPc.completesFor_of_flow {pc : WorkerPc} {j : FlowId} (h : pc.flow = some j) :
    pc.completesFor S j = pc.completes S := by
  funext c
  rw [completesFor, if_pos h]

theorem WorkerPc.completesFor_of_ne {pc : WorkerPc} {j : FlowId} (h : pc.flow ≠ some j)
    (c : Connection R) : pc.completesFor S j c = c := by
  rw [completesFor, if_neg h]

omit [Double R] in
theorem ProducerPc.closingStage_isSome {pc : ProducerPc} {j : FlowId} :
    (pc.closingStage j).isSome = true ↔ pc.closing = some j := by
  cases pc with
  | replacing p i stage =>
    by_cases hij : i = j <;> simp [closingStage, closing, hij]
  | sweepNotify h i stage =>
    by_cases hij : i = j <;> simp [closingStage, closing, hij]
  | _ => simp [closingStage, closing]

omit [Double R] in
theorem ProducerPc.closingStage_of_ne {pc : ProducerPc} {j : FlowId} (h : pc.closing ≠ some j) :
    pc.closingStage j = none := by
  rw [← Option.not_isSome_iff_eq_none, closingStage_isSome]
  exact h

end Left

namespace State

/-- The packets of flow `j` that no worker has taken, in their order. -/
def waiting (s : State R) (j : FlowId) : List IPv4Packet :=
  ((s.queues (s.mgr.queueOf j) ++ s.producer.hand.toList).filter fun job => job.flow == j).map
    Job.packet

/-- What the threads still do to the connection of flow `j`. -/
def rest [Double R] (S : Setup R) (s : State R) (j : FlowId) (c : Connection R) : Connection R :=
  ((s.worker (s.mgr.queueOf j)).completesFor S j c).absorbs S (s.waiting j)

end State

end Vsid
