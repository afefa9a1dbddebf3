import Vsid.Laws.Isolation
import Vsid.Laws.Reports
import Vsid.Laws.Timeout

/-!
# One manager for many captures

The training program reads its captures one after the other into one `FlowManager`, with a call of
`finished` after each. That call leaves the table empty, but not the manager new: the flows of the
captures before stay in the heap, and the allocator does not start over.

`after base m` is the manager `m` with the heap and the events of `base` before its own. Every
operation on it is the operation on `m` (`addPacket_after`), where `m` runs on what the allocator
hands out from the end of `base` on. So a capture that is read after others is read as by a new
manager (`fresh_after_finished`): the flows that are reported for it do not depend on the captures
before it but through the allocator.
-/

set_option autoImplicit false

namespace Vsid

variable {R : Type}

/-- The program from the `n`-th allocation on. -/
def Setup.skip (S : Setup R) (n : Nat) : Setup R :=
  S.withStaleBytes fun i => S.staleBytes (n + i)

/-- The identity of a flow, behind `n` others. -/
def Event.skip (n : Nat) (e : Event R) : Event R :=
  { e with id := n + e.id }

namespace FlowManager

/-- The manager `m`, with what `base` has created and told before it. -/
def after (base m : FlowManager R) : FlowManager R :=
  { m with
    heap := base.heap ++ m.heap
    flows := fun h => (m.flows h).map (base.heap.length + ·)
    events := base.events ++ m.events.map (Event.skip base.heap.length) }

variable {base m m' : FlowManager R}

theorem after_init (hflows : ∀ h, base.flows h = none) (hqueue : base.currentQueue = 0)
    (hrun : base.shutdown = false) : base.after init = base := by
  obtain ⟨heap, flows, currentQueue, shutdown, events⟩ := base
  obtain rfl : flows = fun _ => none := funext hflows
  cases hqueue
  cases hrun
  simp only [after, init, List.append_nil, List.map_nil, Option.map_none]

theorem after_flows (base m : FlowManager R) (h : UInt32) :
    (base.after m).flows h = (m.flows h).map (base.heap.length + ·) := rfl

theorem after_heap (base m : FlowManager R) (i : FlowId) :
    (base.after m).heap[base.heap.length + i]? = m.heap[i]? := by
  unfold after
  rw [List.getElem?_append_right (Nat.le_add_right _ _), Nat.add_sub_cancel_left]

theorem walksTable_after {order : List UInt32} :
    (base.after m).WalksTable order ↔ m.WalksTable order := by
  unfold WalksTable
  simp only [after_flows, Option.isSome_map]

theorem reported_after (base m : FlowManager R) :
    (base.after m).reported = base.reported ++ m.reported := by
  unfold reported after
  rw [List.filterMap_append, List.filterMap_map]
  rfl

/-! ## The operations -/

theorem modifyFlow_after (base m : FlowManager R) (i : FlowId) (g : Flow R → Flow R) :
    (base.after m).modifyFlow (base.heap.length + i) g = base.after (m.modifyFlow i g) := by
  have hheap : (base.heap ++ m.heap).modify (base.heap.length + i) g =
      base.heap ++ m.heap.modify i g := by
    refine List.ext_getElem? fun j => ?_
    rcases Nat.lt_or_ge j base.heap.length with hj | hj
    · have hne : base.heap.length + i ≠ j := fun h => by omega
      rw [List.getElem?_modify_ne _ _ hne, List.getElem?_append_left hj,
        List.getElem?_append_left hj]
    · obtain ⟨k, rfl⟩ := Nat.exists_eq_add_of_le hj
      rw [List.getElem?_modify, List.getElem?_append_right hj, List.getElem?_append_right hj,
        Nat.add_sub_cancel_left, List.getElem?_modify]
      simp only [Nat.add_left_cancel_iff]
  unfold modifyFlow after
  rw [hheap]

theorem tell_after (base m : FlowManager R) (i : FlowId) (note : Note R) :
    (base.after m).tell (base.heap.length + i) note = base.after (m.tell i note) := by
  unfold tell after
  rw [List.map_append, List.append_assoc]
  rfl

theorem update_after (base m : FlowManager R) (h : UInt32) (o : Option FlowId) :
    Function.update (base.after m).flows h (o.map (base.heap.length + ·)) =
      fun k => (Function.update m.flows h o k).map (base.heap.length + ·) := by
  funext k
  by_cases hk : k = h
  · rw [hk, Function.update_self, Function.update_self]
  · rw [Function.update_of_ne hk, Function.update_of_ne hk, after_flows]

theorem erase_after (base m : FlowManager R) (h : UInt32) :
    (base.after m).erase h = base.after (m.erase h) := by
  cases hi : m.flows h with
  | none =>
    rw [erase_of_none hi, erase_of_none (by rw [after_flows, hi]; rfl)]
  | some i =>
    have hi' : (base.after m).flows h = some (base.heap.length + i) := by rw [after_flows, hi]; rfl
    have hupdate := update_after base m h none
    rw [Option.map_none] at hupdate
    unfold erase
    rw [hi, hi']
    simp only [after_heap]
    cases m.heap[i]? with
    | none =>
      simp only [hupdate]
      rfl
    | some f =>
      simp only [hupdate]
      exact tell_after base { m with flows := Function.update m.flows h none } i (.removed f)

theorem notifyFlowFinished_after (base m : FlowManager R) (i : FlowId) :
    (base.after m).notifyFlowFinished (base.heap.length + i) =
      base.after (m.notifyFlowFinished i) := by
  unfold notifyFlowFinished
  rw [after_heap]
  cases m.heap[i]? with
  | none => rfl
  | some f =>
    simp only [tell_after, modifyFlow_after]
    split
    · rfl
    · split <;> rfl

theorem notifyFlowClassified_after (base m : FlowManager R) (i : FlowId) :
    (base.after m).notifyFlowClassified (base.heap.length + i) =
      base.after (m.notifyFlowClassified i) := by
  unfold notifyFlowClassified
  rw [after_heap]
  cases m.heap[i]? with
  | none => rfl
  | some f => exact tell_after base m i (.classified f)

theorem deleteFlow_after (base m : FlowManager R) (i : FlowId) :
    (base.after m).deleteFlow (base.heap.length + i) = base.after (m.deleteFlow i) := by
  unfold deleteFlow
  rw [after_heap]
  cases m.heap[i]? with
  | none => rfl
  | some f =>
    simp only [modifyFlow_after, erase_after]
    split <;> rfl

theorem closeFlow_after (base m : FlowManager R) (i : FlowId) :
    (base.after m).closeFlow (base.heap.length + i) = base.after (m.closeFlow i) := by
  unfold closeFlow
  rw [after_heap]
  cases m.heap[i]? with
  | none => rfl
  | some f =>
    simp only [notifyFlowFinished_after, deleteFlow_after]
    split
    · rfl
    · split <;> rfl

theorem sweepEntry_after (base m : FlowManager R) (h : UInt32) :
    (base.after m).sweepEntry h = (m.sweepEntry h).map base.after := by
  unfold sweepEntry
  rw [after_flows]
  cases m.flows h with
  | none => rfl
  | some i =>
    simp only [Option.map_some, after_heap]
    cases m.heap[i]? with
    | none => rfl
    | some f =>
      simp only [notifyFlowFinished_after, erase_after]
      split <;> rfl

/-- The sweep goes through the entries of `m`. -/
theorem finished_after (base m : FlowManager R) (order : List UInt32) :
    (base.after m).finished order = (m.finished order).map base.after := by
  unfold finished
  induction order generalizing m with
  | nil => rfl
  | cons h order ih =>
    rw [List.foldlM_cons, List.foldlM_cons, sweepEntry_after]
    cases m.sweepEntry h with
    | none => rfl
    | some m₁ => exact ih m₁

/-! ## What was told stays told -/

theorem events_tell (m : FlowManager R) (i : FlowId) (note : Note R) :
    m.events <+: (m.tell i note).events :=
  List.prefix_append _ _

theorem events_erase (m : FlowManager R) (h : UInt32) : m.events <+: (m.erase h).events := by
  unfold erase
  split
  · exact List.prefix_rfl
  · dsimp only
    split
    · exact List.prefix_rfl
    · exact List.prefix_append _ _

theorem events_notifyFlowFinished (m : FlowManager R) (i : FlowId) :
    m.events <+: (m.notifyFlowFinished i).events := by
  rcases m.notifyFlowFinished_cases i with ⟨h, -⟩ | ⟨f, -, -, ⟨-, h⟩ | ⟨-, h⟩⟩ <;> rw [h]
  · exact List.prefix_rfl
  · exact events_tell m i (.finished f)

theorem events_deleteFlow (m : FlowManager R) (i : FlowId) :
    m.events <+: (m.deleteFlow i).events := by
  unfold deleteFlow
  split
  · exact List.prefix_rfl
  · split
    · exact List.prefix_rfl
    · exact events_erase m _

theorem events_closeFlow (m : FlowManager R) (i : FlowId) :
    m.events <+: (m.closeFlow i).events := by
  unfold closeFlow
  split
  · exact List.prefix_rfl
  · split
    · exact (events_notifyFlowFinished m i).trans (events_deleteFlow _ i)
    · split
      · exact events_deleteFlow m i
      · exact List.prefix_rfl

theorem events_sweepEntry {h : UInt32} (hentry : m.sweepEntry h = some m') :
    m.events <+: m'.events := by
  rcases sweepEntry_cases hentry with ⟨-, rfl⟩ | ⟨i, -, rfl⟩
  · exact List.prefix_rfl
  · exact (events_notifyFlowFinished m i).trans (events_erase _ h)

theorem events_finished {order : List UInt32} (hfinished : m.finished order = some m') :
    m.events <+: m'.events := by
  refine finished_invariant (I := fun m' => m.events <+: m'.events) List.prefix_rfl ?_ hfinished
  exact fun _ _ _ hold hentry => hold.trans (events_sweepEntry hentry)

variable [Double R]

theorem events_getFlow (S : Setup R) (self : Option Nat) (m : FlowManager R) (p : IPv4Packet) :
    m.events <+: (m.getFlow S self p).1.events := by
  unfold getFlow
  split
  · rw [insertFlow_events]
  · split
    · exact List.prefix_rfl
    · split
      · rw [insertFlow_events]
        exact (events_notifyFlowFinished m _).trans (events_erase _ _)
      · exact List.prefix_rfl

theorem events_applyPacket (S : Setup R) (m : FlowManager R) (i : FlowId) (p : IPv4Packet) :
    m.events <+: (m.applyPacket S i p).events := by
  unfold applyPacket
  split
  · exact List.prefix_rfl
  · dsimp only
    split
    · unfold notifyFlowClassified
      split
      · exact List.prefix_rfl
      · exact events_tell (m.modifyFlow i _) i _
    · exact List.prefix_rfl

theorem events_processPacket (S : Setup R) (self : Option Nat) (m : FlowManager R)
    (p : IPv4Packet) : m.events <+: (m.processPacket S self p).events := by
  refine (events_getFlow S self m p).trans ?_
  exact (events_applyPacket S ((m.getFlow S self p).1.modifyFlow _ _) _ p).trans
    (events_closeFlow _ _)

theorem events_addPacket (S : Setup R) (m : FlowManager R) (p : IPv4Packet) :
    m.events <+: (m.addPacket S p).events := by
  unfold addPacket
  split
  · exact List.prefix_rfl
  · refine (events_getFlow S none m p).trans ?_
    exact events_processPacket S none ((m.getFlow S none p).1.modifyFlow _ _) p

/-! ## Packets behind others -/

theorem insertFlow_after (S : Setup R) (self : Option Nat) (base m : FlowManager R)
    (p : IPv4Packet) :
    (base.after m).insertFlow S self p =
      (base.after (m.insertFlow (S.skip base.heap.length) self p).1,
        base.heap.length + (m.insertFlow (S.skip base.heap.length) self p).2) := by
  have hlength : (base.after m).heap.length = base.heap.length + m.heap.length :=
    List.length_append
  have hnew : Flow.new S p (S.staleBytes (base.heap.length + m.heap.length)) =
      Flow.new (S.skip base.heap.length) p ((S.skip base.heap.length).staleBytes m.heap.length) :=
    rfl
  have hupdate := fun h => update_after base m h (some m.heap.length)
  simp only [Option.map_some] at hupdate
  unfold insertFlow
  simp only [hlength, hnew, hupdate]
  have hworkers : (S.skip base.heap.length).config = S.config := rfl
  rw [hworkers]
  by_cases hthreads : 0 < S.config.workerThreadsPerQueue
  · simp only [if_pos hthreads]
    cases self with
    | none =>
      simp only [after, List.append_assoc]
      rfl
    | some w => simp only [after, List.append_assoc]
  · simp only [if_neg hthreads, after, List.append_assoc]

theorem getFlow_after (S : Setup R) (self : Option Nat) (base m : FlowManager R)
    (p : IPv4Packet) :
    (base.after m).getFlow S self p =
      (base.after (m.getFlow (S.skip base.heap.length) self p).1,
        base.heap.length + (m.getFlow (S.skip base.heap.length) self p).2) := by
  have hreplaces : replaces (S.skip base.heap.length) = replaces S := rfl
  have hhash : (S.skip base.heap.length).flowHash p.tuple = S.flowHash p.tuple := rfl
  unfold getFlow
  rw [after_flows, hhash]
  cases m.flows (S.flowHash p.tuple) with
  | none => exact insertFlow_after S self base m p
  | some i =>
    simp only [Option.map_some, after_heap, hreplaces]
    cases m.heap[i]? with
    | none => rfl
    | some f =>
      simp only [notifyFlowFinished_after, erase_after, insertFlow_after]
      split <;> rfl

theorem applyPacket_after (S : Setup R) (base m : FlowManager R) (i : FlowId) (p : IPv4Packet) :
    (base.after m).applyPacket S (base.heap.length + i) p =
      base.after (m.applyPacket (S.skip base.heap.length) i p) := by
  have hadd : ∀ f : Flow R, f.addPacket (S.skip base.heap.length) p = f.addPacket S p :=
    fun f => f.addPacket_withStaleBytes S _ p
  unfold applyPacket
  rw [after_heap]
  cases m.heap[i]? with
  | none => rfl
  | some f =>
    simp only [hadd, modifyFlow_after, notifyFlowClassified_after]
    split <;> rfl

theorem processPacket_after (S : Setup R) (self : Option Nat) (base m : FlowManager R)
    (p : IPv4Packet) :
    (base.after m).processPacket S self p =
      base.after (m.processPacket (S.skip base.heap.length) self p) := by
  unfold processPacket
  rw [getFlow_after]
  simp only [modifyFlow_after, applyPacket_after, closeFlow_after]

/-- **A packet behind others** is a packet of the manager without them. -/
theorem addPacket_after (S : Setup R) (base m : FlowManager R) (p : IPv4Packet) :
    (base.after m).addPacket S p = base.after (m.addPacket (S.skip base.heap.length) p) := by
  unfold addPacket
  have hdown : (base.after m).shutdown = m.shutdown := rfl
  rw [hdown, getFlow_after]
  simp only [modifyFlow_after, processPacket_after]
  split <;> rfl

theorem foldl_addPacket_after (S : Setup R) (base : FlowManager R) (packets : List IPv4Packet)
    (m : FlowManager R) :
    packets.foldl (fun m p => m.addPacket S p) (base.after m) =
      base.after (packets.foldl (fun m p => m.addPacket (S.skip base.heap.length) p) m) := by
  induction packets generalizing m with
  | nil => rfl
  | cons p packets ih =>
    rw [List.foldl_cons, List.foldl_cons, addPacket_after]
    exact ih _

/-! ## After a sweep -/

section Sequential

variable {S : Setup R}

theorem currentQueue_getFlow (hseq : S.config.workerThreadsPerQueue = 0) (self : Option Nat)
    (m : FlowManager R) (p : IPv4Packet) :
    (m.getFlow S self p).1.currentQueue = m.currentQueue := by
  have hinsert : ∀ m : FlowManager R, (m.insertFlow S self p).1.currentQueue = m.currentQueue := by
    intro m
    unfold insertFlow
    rw [hseq, if_neg (Nat.lt_irrefl 0)]
  unfold getFlow
  split
  · exact hinsert m
  · split
    · rfl
    · split
      · rw [hinsert, erase_currentQueue, notifyFlowFinished_currentQueue]
      · rfl

omit [Double R] in
theorem currentQueue_closeFlow (m : FlowManager R) (i : FlowId) :
    (m.closeFlow i).currentQueue = m.currentQueue := by
  have hdelete : ∀ m : FlowManager R, (m.deleteFlow i).currentQueue = m.currentQueue := by
    intro m
    unfold deleteFlow
    split
    · rfl
    · split
      · rfl
      · exact erase_currentQueue m _
  unfold closeFlow
  split
  · rfl
  · split
    · rw [hdelete, notifyFlowFinished_currentQueue]
    · split
      · exact hdelete m
      · rfl

theorem currentQueue_addPacket (hseq : S.config.workerThreadsPerQueue = 0) (m : FlowManager R)
    (p : IPv4Packet) : (m.addPacket S p).currentQueue = m.currentQueue := by
  have happly : ∀ (m : FlowManager R) (i : FlowId),
      (m.applyPacket S i p).currentQueue = m.currentQueue := by
    intro m i
    unfold applyPacket
    split
    · rfl
    · dsimp only
      split
      · unfold notifyFlowClassified
        split <;> rfl
      · rfl
  unfold addPacket
  split
  · rfl
  · unfold processPacket
    dsimp only
    rw [currentQueue_closeFlow, happly]
    refine (currentQueue_getFlow hseq none _ p).trans ?_
    exact currentQueue_getFlow hseq none m p

/-- Without workers no queue is ever chosen. -/
theorem Sequential.currentQueue (hseq : S.config.workerThreadsPerQueue = 0)
    {packets : List IPv4Packet} (h : Sequential S packets m) : m.currentQueue = 0 := by
  induction h with
  | init => rfl
  | addPacket p _ ih => rw [currentQueue_addPacket hseq, ih]
  | @finished packets m m' order _ hfinished ih =>
    refine finished_invariant (I := fun m => m.currentQueue = 0) ih (fun m h m' hold hentry => ?_)
      hfinished
    rcases sweepEntry_cases hentry with ⟨-, rfl⟩ | ⟨i, -, rfl⟩
    · exact hold
    · rw [erase_currentQueue, notifyFlowFinished_currentQueue, hold]
  | shutdown _ ih => exact ih

/-- The sweep leaves a manager that is new but for what it has created and told. -/
theorem Sequential.finished_rests (hseq : S.config.workerThreadsPerQueue = 0)
    {packets : List IPv4Packet} (h : Sequential S packets m) (hrun : m.shutdown = false)
    {order : List UInt32} (hwalk : m.WalksTable order) :
    ∃ m', m.finished order = some m' ∧ Sequential S packets m' ∧ m'.shutdown = false ∧
      m'.after FlowManager.init = m' := by
  obtain ⟨m', hm', hquiet, hflows, -⟩ := connection_finished (h.quiet hrun) hwalk
  have hm : Sequential S packets m' := .finished h hm'
  exact ⟨m', hm', hm, hquiet.running, after_init hflows (hm.currentQueue hseq) hquiet.running⟩

/-- **A manager that has finished starts over.** In non-threaded mode, after any calls: the sweep
over the table ends, and the packets that are added after it do what they do to a new manager, which
gets its memory from where the old flows end. Behind them, a second sweep reports what the new
manager would report. -/
theorem finished_starts_over (hseq : S.config.workerThreadsPerQueue = 0)
    {packets : List IPv4Packet} (h : Sequential S packets m) (hrun : m.shutdown = false)
    {order : List UInt32} (hwalk : m.WalksTable order) :
    ∃ m', m.finished order = some m' ∧ ∀ more : List IPv4Packet,
      more.foldl (fun m p => m.addPacket S p) m' =
          m'.after (addPackets (S.skip m'.heap.length) more) ∧
        ∀ order' : List UInt32,
          ((more.foldl (fun m p => m.addPacket S p) m').finished order').map reported =
            ((addPackets (S.skip m'.heap.length) more).finished order').map
              fun m'' => m'.reported ++ m''.reported := by
  obtain ⟨m', hm', -, -, hrests⟩ := h.finished_rests hseq hrun hwalk
  refine ⟨m', hm', fun more => ?_⟩
  have hmore : more.foldl (fun m p => m.addPacket S p) m' =
      m'.after (addPackets (S.skip m'.heap.length) more) := by
    have hbehind := foldl_addPacket_after S m' more init
    rwa [hrests] at hbehind
  refine ⟨hmore, fun order' => ?_⟩
  rw [hmore, finished_after, Option.map_map]
  exact congrArg (Option.map · _) (funext fun m'' => reported_after m' m'')

end Sequential

theorem openConnection_starts_over :
    ∃ m' : FlowManager ℚ, (addPackets Setup.initial openConnection).finished
        (tableOrder (Setup.initial : Setup ℚ) openConnection) = some m' ∧
      ∀ more : List IPv4Packet, more.foldl (fun m p => m.addPacket Setup.initial p) m' =
          m'.after (addPackets ((Setup.initial : Setup ℚ).skip m'.heap.length) more) ∧
        ∀ order' : List UInt32,
          ((more.foldl (fun m p => m.addPacket Setup.initial p) m').finished order').map reported =
            ((addPackets ((Setup.initial : Setup ℚ).skip m'.heap.length) more).finished order').map
              fun m'' => m'.reported ++ m''.reported :=
  finished_starts_over rfl (sequential_addPackets _ openConnection) rfl
    (walksTable_tableOrder _ openConnection)

end FlowManager

end Vsid
