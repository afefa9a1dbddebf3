import Vsid.Laws.Workers.Follows
import Vsid.Laws.Workers.Order

/-!
# Worker threads and non-threaded mode

`refines_sequential`: after a run with worker threads that the connections can follow, the result
file is, up to the order of its lines, that of non-threaded mode on the same packets.

`getFlow` never replaces a flow that has packets pending. A connection that is closed and opened
again while its packets are queued is therefore one flow with worker threads and two without, and
this is what `agrees` leaves out; `queuedReopening_differs` is such a run. The packets that follow
the end of a connection without opening another one are absorbed by its flow, and the run goes on:
`reopened_refines` has one of these.

The result file is sorted into the lines of the connections (`lines_perm`), so that two managers
whose connections are the same up to their bookkeeping have written the same lines.
-/

set_option autoImplicit false

namespace Vsid

variable {R : Type}

/-! ## The result file -/

/-- The lines of the result file. -/
def FlowManager.resultLines (m : FlowManager R) : List (ResultLine R) :=
  FlowClassificationLogger.lines (m.events.map Event.note)

/-- The logger does not print the bookkeeping. -/
theorem FlowRecord.lines_bare (r : FlowRecord R) : r.bare.lines = r.lines := by
  have hline : ∀ note : Note R, FlowClassificationLogger.line (note.map Flow.bare) =
      FlowClassificationLogger.line note := by
    intro note
    cases note with
    | finished f => rfl
    | classified f => rfl
    | removed f => rfl
  show (r.told.map (Note.map Flow.bare)).filterMap FlowClassificationLogger.line = _
  rw [List.filterMap_map]
  exact List.filterMap_congr fun note _ => hline note

theorem Connection.lines_bare (c : Connection R) : c.bare.lines = c.lines := by
  have hrecords : c.bare.records = c.records.map FlowRecord.bare := by
    obtain ⟨past, live⟩ := c
    show past.map FlowRecord.bare ++ (live.map FlowRecord.bare).toList = _
    rw [Connection.records, List.map_append, Option.toList_map]
  unfold lines
  rw [hrecords, List.flatMap_map]
  exact List.flatMap_congr fun r _ => r.lines_bare

namespace FlowManager

variable {S : Setup R} {m : FlowManager R}

/-- The lines about some flows, which the manager knows. -/
theorem lines_filterMap_record {ids : List FlowId} (h : ∀ i ∈ ids, i < m.heap.length) :
    (ids.filterMap m.record).flatMap FlowRecord.lines =
      ids.flatMap fun i => FlowClassificationLogger.lines (m.told i) := by
  induction ids with
  | nil => rfl
  | cons i ids ih =>
    have hi : i < m.heap.length := h i List.mem_cons_self
    have hrecord : m.record i = some { flow := m.heap[i], told := m.told i } := by
      unfold record
      rw [List.getElem?_eq_getElem hi, Option.map_some]
    rw [List.filterMap_cons_some hrecord, List.flatMap_cons, List.flatMap_cons,
      ih fun j hj => h j (List.mem_cons_of_mem i hj)]
    rfl

/-- The file is sorted into the lines of the flows, -/
theorem lines_told_perm (hm : m.Indexed S) :
    ((List.range m.heap.length).flatMap fun i => FlowClassificationLogger.lines (m.told i)).Perm
      m.resultLines := by
  have hevents := Keyed.perm_flatMap_filter Event.id List.nodup_range
    fun e he => List.mem_range.mpr (hm.told e he)
  have hlines := (hevents.map Event.note).filterMap FlowClassificationLogger.line
  rw [List.map_flatMap, List.filterMap_flatMap] at hlines
  exact hlines

/-- and these into the lines of the connections, when the table is empty. -/
theorem lines_perm (hm : m.Indexed S) (hempty : ∀ h, m.flows h = none) {hashes : List UInt32}
    (hnodup : hashes.Nodup) (hall : ∀ f ∈ m.heap, f.hash ∈ hashes) :
    (hashes.flatMap fun h => (m.connection h).lines).Perm m.resultLines := by
  have hconnection : ∀ h ∈ hashes, (m.connection h).lines =
      ((List.range m.heap.length).filter fun i => m.hashAt i == some h).flatMap
        fun i => FlowClassificationLogger.lines (m.told i) := by
    intro h _
    have hpast : m.pastIds h = (List.range m.heap.length).filter fun i => m.hashAt i == some h := by
      apply List.filter_congr
      intro i _
      rw [hempty h, Bool.eq_iff_iff, decide_eq_true_iff, beq_iff_eq]
      simp only [ne_eq, reduceCtorEq, not_false_eq_true, and_true]
    have hold : ∀ i ∈ m.pastIds h, i < m.heap.length := by
      intro i hi
      exact List.mem_range.mp (List.mem_of_mem_filter hi)
    rw [← hpast, ← lines_filterMap_record hold]
    unfold Connection.lines Connection.records
    rw [connection_live_of_none (hempty h), Option.toList_none, List.append_nil]
    rfl
  have hkeys : ∀ i ∈ List.range m.heap.length, m.hashAt i ∈ hashes.map some := by
    intro i hi
    have hlt := List.mem_range.mp hi
    rw [hashAt_of_heap (List.getElem?_eq_getElem hlt)]
    exact List.mem_map_of_mem (hall _ (List.getElem_mem hlt))
  have hids := Keyed.perm_flatMap_filter m.hashAt
    (hnodup.map (Option.some_injective _)) hkeys
  have hsorted := hids.flatMap_right fun i => FlowClassificationLogger.lines (m.told i)
  rw [List.flatMap_map, List.flatMap_assoc] at hsorted
  rw [List.flatMap_congr hconnection]
  exact hsorted.trans (lines_told_perm hm)

/-- **The connections decide the result file**, up to the order of its lines. -/
theorem resultLines_perm {S' : Setup R} {m' : FlowManager R} (hm : m.Indexed S)
    (hm' : m'.Indexed S') (hempty : ∀ h, m.flows h = none) (hempty' : ∀ h, m'.flows h = none)
    (hlines : ∀ h, (m.connection h).lines = (m'.connection h).lines) :
    m.resultLines.Perm m'.resultLines := by
  have hnodup : ((m.heap ++ m'.heap).map Flow.hash).dedup.Nodup := List.nodup_dedup _
  have hhash : ∀ f ∈ m.heap ++ m'.heap, f.hash ∈ ((m.heap ++ m'.heap).map Flow.hash).dedup :=
    fun f hf => List.mem_dedup.mpr (List.mem_map_of_mem hf)
  have hfile := lines_perm hm hempty hnodup fun f hf => hhash f (List.mem_append_left _ hf)
  have hfile' := lines_perm hm' hempty' hnodup fun f hf => hhash f (List.mem_append_right _ hf)
  simp only [hlines] at hfile
  exact hfile.symm.trans hfile'

/-- The order in which the sweep walks the table shows in the order of the lines only. -/
theorem resultLines_finished_perm {m₁ m₂ : FlowManager R} {order order' : List UInt32}
    (hm : m.Quiet S) (hwalk : m.WalksTable order) (hwalk' : m.WalksTable order')
    (h₁ : m.finished order = some m₁) (h₂ : m.finished order' = some m₂) :
    m₁.resultLines.Perm m₂.resultLines := by
  obtain ⟨m₁', hm₁, hquiet₁, hempty₁, hclosed₁⟩ := connection_finished hm hwalk
  obtain ⟨m₂', hm₂, hquiet₂, hempty₂, hclosed₂⟩ := connection_finished hm hwalk'
  obtain rfl : m₁' = m₁ := Option.some.inj (hm₁.symm.trans h₁)
  obtain rfl : m₂' = m₂ := Option.some.inj (hm₂.symm.trans h₂)
  refine resultLines_perm hquiet₁.toIndexed hquiet₂.toIndexed hempty₁ hempty₂ fun h => ?_
  rw [hclosed₁, hclosed₂]

end FlowManager

/-! ## The runs -/

namespace State

variable [Double R]

/-- The steps after which the connections can still be followed. -/
def keepsPace (S : Setup R) (s : State R) (a : Action) : Bool :=
  s.orderly S a && s.undisturbed S a && s.agrees S a

/-- What such steps lead to, when the flows that are opened find the memory of non-threaded mode. -/
abbrev InStep (S : Setup R) (s : State R) : Prop :=
  Run (step S) (fun s a => s.keepsPace S a = true ∧ s.sameMemory S a) State.init s

/-- The connections are followed up to the end of `finished`, and then they are closed. -/
structure Refines (S : Setup R) (s : State R) : Prop where
  running : s.returned = false → Follows S s
  returned : s.returned = true → (∀ h, s.mgr.flows h = none) ∧
    ∀ h, (s.mgr.connection h).bare.SameLines (s.reference S h).finish

section Run

variable {S : Setup R} {s s' : State R}

theorem follows_init (S : Setup R) : Follows S (State.init : State R) where
  replacing p i stage h := by cases h
  pushes i h := by cases h
  caughtUp h := .refl _

theorem refines_init (S : Setup R) : Refines S (State.init : State R) where
  running _ := follows_init S
  returned h := by cases h

omit [Double R] in
theorem running_of_undisturbed {a : Action} (hok : s.undisturbed S a = true) :
    s.returned = false := by
  unfold undisturbed at hok
  cases a with
  | shutdown => cases hok
  | producer =>
    rw [Bool.and_eq_true, Bool.not_eq_true'] at hok
    exact hok.1
  | _ => exact (Bool.not_eq_true' _).mp hok

/-- `finished` returns from its sweep, when the table is empty. -/
theorem returns {a : Action} (h : Moves S s a s') (hrunning : s.returned = false)
    (hreturned : s'.returned = true) :
    s.producer = .sweeping ∧ (∀ h, s.mgr.flows h = none) ∧ s'.mgr = s.mgr ∧
      s'.given = s.given := by
  have htakes : ∀ p, (s.history ++ [Call.packet p]).any Call.isFinished = s.returned := by
    intro p
    rw [List.any_append]
    exact Bool.or_false _
  cases h with
  | returned hp hempty =>
    exact ⟨hp, hempty, rfl, given_finished rfl⟩
  | created p | reused p | replaced p =>
    rw [State.returned, htakes, hrunning] at hreturned
    cases hreturned
  | _ => exact absurd (hrunning.symm.trans hreturned) Bool.false_ne_true

/-- A step that keeps pace keeps to the refinement. -/
theorem refines_moves (hr : Refines S s) (hs : Healthy S s) (hs' : Healthy S s') {a : Action}
    (hok : s.keepsPace S a = true) (hmemory : s.sameMemory S a) (h : Moves S s a s') :
    Refines S s' := by
  simp only [keepsPace, Bool.and_eq_true] at hok
  obtain ⟨⟨-, hundisturbed⟩, hagrees⟩ := hok
  have hrunning := running_of_undisturbed hundisturbed
  have hf := hr.running hrunning
  refine ⟨fun hstill => ?_, fun hreturned => ?_⟩
  · refine (follows_moves hf hs hs' hundisturbed hagrees hmemory h).resolve_left
      fun hreturned => ?_
    rw [hstill] at hreturned
    cases hreturned
  · obtain ⟨hp, hempty, hmgr, hgiven⟩ := returns h hrunning hreturned
    rw [hmgr]
    refine ⟨hempty, fun k => ?_⟩
    have hcaught := (caughtUp_of_none (hempty k)).mp (hf.caughtUp k)
    rw [hp] at hcaught
    rw [reference_congr hgiven]
    exact hcaught

/-- **A run that keeps pace refines non-threaded mode.** -/
theorem refines_of_run (hn : 0 < S.config.workerThreadsPerQueue) (h : InStep S s) :
    Healthy S s ∧ Refines S s := by
  refine h.invariant (I := fun s => Healthy S s ∧ Refines S s)
    ⟨healthy_init S, refines_init S⟩ fun s a s' hs hok hstep => ?_
  have hmoves := moves_of_step hs.1.toSound hstep
  have horderly : s.orderly S a = true := by
    have hpace := hok.1
    simp only [keepsPace, Bool.and_eq_true] at hpace
    exact hpace.1.1
  have hs' := healthy_moves hn hs.1 horderly hmoves
  exact ⟨hs', refines_moves hs.2 hs.1 hs' hok.1 hok.2 hmoves⟩

/-- **Worker threads refine non-threaded mode.** When `finished` has returned in a run that keeps
pace, the lines of the result file are those of non-threaded mode on the same packets, in some
order. -/
theorem refines_sequential (hn : 0 < S.config.workerThreadsPerQueue) (h : InStep S s)
    (hreturned : s.returned = true) {order : List UInt32}
    (hwalk : (FlowManager.addPackets S.sequential s.given).WalksTable order) :
    ∃ m, (FlowManager.addPackets S.sequential s.given).finished order = some m ∧
      s.mgr.resultLines.Perm m.resultLines := by
  obtain ⟨hs, hr⟩ := refines_of_run hn h
  obtain ⟨hempty, hclosed⟩ := hr.returned hreturned
  have hquiet : (s.inSequence S).Quiet S.sequential := quiet_inSequence
  obtain ⟨m, hm, hquiet', hempty', hconnection⟩ := FlowManager.connection_finished hquiet hwalk
  refine ⟨m, hm, FlowManager.resultLines_perm hs.indexed hquiet'.toIndexed hempty hempty'
    fun k => ?_⟩
  have hlines := (hclosed k).lines
  unfold reference at hlines
  rw [Connection.lines_bare, ← Connection.bare_finish, Connection.lines_bare] at hlines
  rw [hconnection, hlines]

end Run

/-! ## Schedules -/

/-- The sweep closes the connection of a packet. -/
def closes (S : Setup ℚ) (p : IPv4Packet) : List Action :=
  .pick (S.flowHash p.tuple) :: times 5 .producer

/-- A segment of a short connection. -/
def segment (flags : UInt8) (data : List UInt8) : IPv4Packet :=
  { lastFin with transport := .tcp flags, data := data }

/-- Two connections in two queues. One is opened again after its packets were added, while the other
still has all of its own in the queue, to the acknowledgement that follows its end. -/
def reopened : List Action :=
  adds query ++ adds (segment thSyn []) ++ adds query ++ adds (segment thAck [1]) ++
    adds (segment (thFin ||| thAck) []) ++ adds (segment thAck []) ++ times 14 (.worker 0) ++
    times 3 (.worker 1) ++ (.addPacket lateQuery :: times 7 .producer) ++ times 30 (.worker 1) ++
    adds lateQuery ++ times 14 (.worker 0) ++ (.finished :: times 3 .producer) ++
    closes (withWorkers 2) query ++ [.producer]

theorem reopened_refines :
    ∃ (s : State ℚ) (m : FlowManager ℚ),
      s.given = [query, segment thSyn [], query, segment thAck [1], segment (thFin ||| thAck) [],
        segment thAck [], lateQuery, lateQuery] ∧
      s.mgr.heap[1]?.map Flow.overallPktCount = some 4 ∧
      (FlowManager.addPackets (withWorkers 2).sequential s.given).finished
        (FlowManager.tableOrder (withWorkers 2).sequential s.given) = some m ∧
      s.mgr.resultLines.length = 3 ∧ s.mgr.resultLines.Perm m.resultLines := by
  obtain ⟨s, hrun, hseen⟩ := exists_of_exec (step (withWorkers 2))
    (fun s a => s.keepsPace (withWorkers 2) a = true) State.init reopened
    (fun s => s.returned && decide (s.mgr.resultLines.length = 3) &&
      decide (s.mgr.heap[1]?.map Flow.overallPktCount = some 4) &&
      decide (s.given = [query, segment thSyn [], query, segment thAck [1],
        segment (thFin ||| thAck) [], segment thAck [], lateQuery, lateQuery]))
    (by decide +kernel)
  simp only [Bool.and_eq_true, decide_eq_true_eq] at hseen
  obtain ⟨⟨⟨hreturned, hlines⟩, hcount⟩, hgiven⟩ := hseen
  have hinStep : InStep (withWorkers 2) s := hrun.mono fun _ _ hok => ⟨hok, fun _ => rfl⟩
  obtain ⟨m, hm, hperm⟩ := refines_sequential (S := withWorkers 2) (by decide) hinStep hreturned
    (FlowManager.walksTable_tableOrder _ s.given)
  exact ⟨s, m, hgiven, hcount, hm, hlines, hperm⟩

/-- A connection is opened again while its packets are in the queue. -/
def queuedReopening : List Action :=
  adds query ++ adds query ++ adds lateQuery ++ adds lateQuery ++ times 28 (.worker 0) ++
    (.finished :: times 2 .producer) ++ closes (withWorkers 1) query ++ [.producer]

/-- One flow of four packets with a worker thread, and two flows without one. -/
theorem queuedReopening_differs :
    ∃ s : State ℚ,
      Run (step (withWorkers 1)) (fun s a =>
        (s.orderly (withWorkers 1) a && s.undisturbed (withWorkers 1) a) = true) State.init s ∧
      s.returned = true ∧ s.given = [query, query, lateQuery, lateQuery] ∧
      s.mgr.resultLines.map ResultLine.pktCount = [4] ∧
      ∀ order m,
        (FlowManager.addPackets (withWorkers 1).sequential s.given).WalksTable order →
        (FlowManager.addPackets (withWorkers 1).sequential s.given).finished order = some m →
        m.resultLines.length = 2 := by
  obtain ⟨s, hrun, hseen⟩ := exists_of_exec (step (withWorkers 1))
    (fun s a => (s.orderly (withWorkers 1) a && s.undisturbed (withWorkers 1) a) = true)
    State.init queuedReopening
    (fun s => s.returned && decide (s.mgr.resultLines.map ResultLine.pktCount = [4]) &&
      decide (s.given = [query, query, lateQuery, lateQuery]))
    (by decide +kernel)
  simp only [Bool.and_eq_true, decide_eq_true_eq] at hseen
  obtain ⟨⟨hreturned, hlines⟩, hgiven⟩ := hseen
  refine ⟨s, hrun, hreturned, hgiven, hlines, fun order m hwalk hm => ?_⟩
  rw [hgiven] at hwalk hm
  have hlength : ((FlowManager.addPackets (withWorkers 1).sequential
      [query, query, lateQuery, lateQuery]).finished (FlowManager.tableOrder
        (withWorkers 1).sequential [query, query, lateQuery, lateQuery])).map
          (fun m => m.resultLines.length) = some 2 := by
    decide +kernel
  obtain ⟨m', hm', htwo⟩ := Option.map_eq_some_iff.mp hlength
  have hperm := FlowManager.resultLines_finished_perm
    (FlowManager.quiet_addPackets (withWorkers 1).sequential
      [query, query, lateQuery, lateQuery])
    hwalk (FlowManager.walksTable_tableOrder _ _) hm hm'
  exact hperm.length_eq.trans htwo

end State

end Vsid
