import Vsid.Common.FlowClassificationLogger
import Vsid.Laws.Connection

/-!
# The life of a flow

In non-threaded mode a flow is told about in a fixed pattern: a classification if it was
classified, the end unless it is too small, the removal, and nothing after that. `Announced`,
`FlowRecord.Open` and `FlowRecord.Closed` state the pattern for the stages of a flow;
`Connection.process` and `Connection.finish` keep it, and so does every run of the manager.
-/

set_option autoImplicit false

namespace Vsid

variable {R : Type}

/-! ## The pattern -/

/-- The classification of the flow, and nothing else, has been announced. -/
inductive Announced (f : Flow R) : List (Note R) → Prop where
  | silent : f.flowClassified = false → Announced f []
  | classified (g : Flow R) : f.flowClassified = true → g.flowClassified = true →
      Announced f [.classified g]

/-- A flow whose end was not announced yet. -/
structure FlowRecord.Active (r : FlowRecord R) : Prop where
  announced : Announced r.flow r.told
  unnotified : r.flow.flowState ≠ .finishedNotified

/-- A flow in the table, between two packets. -/
structure FlowRecord.Open (r : FlowRecord R) : Prop extends r.Active where
  unfinished : r.flow.isFinished = false

/-- A flow that has left the table: everything was said when it was `g`, and then it was marked. -/
def FlowRecord.Closed (r : FlowRecord R) : Prop :=
  ∃ (g : Flow R) (before : List (Note R)), Announced g before ∧ r.flow = g.setFinishedAndNotified ∧
    r.told = before ++ (if FlowManager.tooFewPackets g then [] else [.finished g]) ++
      [.removed r.flow]

theorem FlowRecord.Active.closed {r : FlowRecord R} (h : r.Active) :
    r.notifyFinished.remove.Closed := by
  refine ⟨r.flow, r.told, h.announced, ?_⟩
  unfold FlowRecord.notifyFinished
  rw [if_neg h.unnotified]
  by_cases hfew : FlowManager.tooFewPackets r.flow = true
  · rw [if_pos hfew, if_pos hfew, List.append_nil]
    exact ⟨rfl, rfl⟩
  · rw [if_neg hfew, if_neg hfew]
    exact ⟨rfl, rfl⟩

/-- A packet, on the flow and on what is told about it. -/
theorem FlowRecord.Open.apply [Double R] {r : FlowRecord R} (h : r.Open) (S : Setup R)
    (p : IPv4Packet) : (r.apply S p).Active := by
  have hstate : (r.flow.addPacket S p).flowState ≠ .finishedNotified := by
    intro heq
    exact h.unnotified ((r.flow.addPacket_finishedNotified_iff S p).mp heq)
  obtain ⟨f, told⟩ := r
  have hannounced : Announced f told := h.announced
  unfold FlowRecord.apply
  cases hannounced with
  | silent hf =>
    cases hnew : (f.addPacket S p).flowClassified with
    | false =>
      simp only [hf, hnew, bne_self_eq_false, Bool.false_and, Bool.false_eq_true, if_false]
      exact ⟨.silent hnew, hstate⟩
    | true =>
      have hbecame : (true != false) = true := rfl
      simp only [hf, hnew, hbecame, Bool.and_self, if_true]
      exact ⟨.classified _ hnew hnew, hstate⟩
  | classified g hf hg =>
    have hnew := f.addPacket_flowClassified S p hf
    simp only [hf, hnew, bne_self_eq_false, Bool.false_and, Bool.false_eq_true, if_false]
    exact ⟨.classified g hnew hg, hstate⟩

/-- The flows of a connection are in their stages. -/
structure Connection.Valid (c : Connection R) : Prop where
  closed : ∀ r ∈ c.past, r.Closed
  open_ : ∀ r, c.live = some r → r.Open

theorem Connection.valid_empty : (Connection.empty : Connection R).Valid where
  closed r hr := absurd hr List.not_mem_nil
  open_ r hr := by cases hr

theorem Connection.closed_finish {c : Connection R} (hpast : ∀ r ∈ c.past, r.Closed)
    (hlive : ∀ r, c.live = some r → r.Active) : ∀ r ∈ c.finish.past, r.Closed := by
  intro r hr
  rcases List.mem_append.mp hr with hold | hnew
  · exact hpast r hold
  · simp only [Connection.modify, Option.map_map, Option.mem_toList,
      Option.map_eq_some_iff, Function.comp_apply] at hnew
    obtain ⟨r₀, hr₀, rfl⟩ := hnew
    exact (hlive r₀ hr₀).closed

theorem Connection.Valid.finish {c : Connection R} (h : c.Valid) : c.finish.Valid where
  closed := Connection.closed_finish h.closed fun r hr => (h.open_ r hr).toActive
  open_ r hr := by cases hr

variable [Double R]

theorem FlowRecord.open_new (S : Setup R) (p : IPv4Packet) (stale : FirstBytes) :
    (FlowRecord.fresh (Flow.new S p stale)).Open where
  announced := .silent rfl
  unnotified := by
    intro h
    cases h
  unfinished := rfl

theorem Connection.Valid.process {c : Connection R} (h : c.Valid) (S : Setup R) (p : IPv4Packet)
    (stale : FirstBytes) : (c.process S (Flow.new S p stale) p).Valid := by
  have hlookup : (c.lookup S (Flow.new S p stale) p).Valid := by
    have hstart : ∀ c' : Connection R, c'.Valid → (c'.start (Flow.new S p stale)).Valid := by
      intro c' hc'
      refine ⟨hc'.closed, fun r hr => ?_⟩
      cases hr
      exact FlowRecord.open_new S p stale
    unfold Connection.lookup
    split
    · exact hstart c h
    · split
      · exact hstart _ h.finish
      · exact h
  unfold Connection.process
  generalize c.lookup S (Flow.new S p stale) p = c' at hlookup
  have hactive : ∀ r, (c'.modify fun r => r.apply S p).live = some r → r.Active := by
    intro r hr
    obtain ⟨r₀, hr₀, rfl⟩ := Option.map_eq_some_iff.mp hr
    exact (hlookup.open_ r₀ hr₀).apply S p
  unfold Connection.settle
  split
  next hnone =>
    refine ⟨hlookup.closed, fun r hr => ?_⟩
    rw [hnone] at hr
    cases hr
  next r hr =>
    split
    next => exact ⟨Connection.closed_finish hlookup.closed hactive, fun r hr => by cases hr⟩
    next hopen =>
      refine ⟨hlookup.closed, fun r' hr' => ?_⟩
      rw [hr] at hr'
      cases hr'
      exact ⟨hactive r hr, Bool.not_eq_true _ ▸ hopen⟩

/-! ## What the pattern says -/

/-- Enough packets for the observers to hear of the end of a flow. -/
def Flow.reportable (f : Flow R) : Prop :=
  0 < f.pktCount ∧
    if f.firstPacketTuple.transport = ipprotoTcp then 3 ≤ f.overallPktCount
    else 2 ≤ f.overallPktCount

omit [Double R] in
theorem Flow.tooFewPackets_of_reportable {f : Flow R} (h : f.reportable) :
    FlowManager.tooFewPackets f = false := by
  obtain ⟨hpkt, hoverall⟩ := h
  have hzero : (f.pktCount == 0) = false := by
    rw [beq_eq_false_iff_ne]
    intro heq
    rw [heq] at hpkt
    exact absurd hpkt (by decide)
  unfold FlowManager.tooFewPackets
  by_cases htcp : f.firstPacketTuple.transport = ipprotoTcp
  · rw [if_pos htcp] at hoverall
    rw [if_pos (beq_iff_eq.mpr htcp), hzero, Bool.false_or, decide_eq_false_iff_not]
    exact UInt32.not_lt.mpr hoverall
  · rw [if_neg htcp] at hoverall
    rw [if_neg (fun heq => htcp (beq_iff_eq.mp heq)), hzero, Bool.false_or,
      decide_eq_false_iff_not]
    exact UInt32.not_lt.mpr hoverall

namespace FlowRecord.Closed

variable {r : FlowRecord R}

omit [Double R] in
theorem finished_count (h : r.Closed) : r.told.countP Note.isFinished ≤ 1 := by
  obtain ⟨g, before, hbefore, -, htold⟩ := h
  rw [htold]
  cases hbefore <;> split <;> simp [List.countP_cons, Note.isFinished]

omit [Double R] in
theorem classified_count (h : r.Closed) :
    r.told.countP Note.isClassified = if r.flow.flowClassified then 1 else 0 := by
  obtain ⟨g, before, hbefore, hflow, htold⟩ := h
  have hclass : r.flow.flowClassified = g.flowClassified := by
    rw [hflow]
    rfl
  rw [htold, hclass]
  cases hbefore with
  | silent hg => rw [hg]; split <;> simp [Note.isClassified]
  | classified k hg hk => rw [hg]; split <;> simp [List.countP_cons, Note.isClassified]

omit [Double R] in
/-- The removal is the last thing that is said. -/
theorem removed_last (h : r.Closed) :
    ∃ before, r.told = before ++ [.removed r.flow] ∧
      ∀ note ∈ before, note.isFinished = true ∨ note.isClassified = true := by
  obtain ⟨g, before, hbefore, -, htold⟩ := h
  refine ⟨_, htold, fun note hnote => ?_⟩
  rcases List.mem_append.mp hnote with hb | hf
  · cases hbefore with
    | silent => cases hb
    | classified k hg hk =>
      cases List.mem_singleton.mp hb
      exact Or.inr rfl
  · split at hf
    · cases hf
    · cases List.mem_singleton.mp hf
      exact Or.inl rfl

omit [Double R] in
theorem lines_length (h : r.Closed) :
    (FlowClassificationLogger.lines r.told).length ≤ 1 := by
  obtain ⟨g, before, hbefore, -, htold⟩ := h
  rw [htold]
  cases hbefore with
  | silent hg =>
    split <;>
      simp [FlowClassificationLogger.lines, FlowClassificationLogger.line, List.filterMap_cons,
        FlowClassificationLogger.flowFinished, hg]
  | classified k hg hk =>
    split <;>
      simp [FlowClassificationLogger.lines, FlowClassificationLogger.line, List.filterMap_cons,
        FlowClassificationLogger.flowFinished, FlowClassificationLogger.flowClassified, hg]

omit [Double R] in
theorem lines_of_reportable (h : r.Closed) (henough : r.flow.reportable) :
    ∃ line, FlowClassificationLogger.lines r.told = [line] ∧
      line.classified = r.flow.flowClassified := by
  obtain ⟨g, before, hbefore, hflow, htold⟩ := h
  have hfew : FlowManager.tooFewPackets g = false := by
    rw [hflow] at henough
    exact Flow.tooFewPackets_of_reportable (f := g) henough
  have hclass : r.flow.flowClassified = g.flowClassified := by
    rw [hflow]
    rfl
  rw [htold, hclass, hfew]
  cases hbefore with
  | silent hg =>
    simp [FlowClassificationLogger.lines, FlowClassificationLogger.line, List.filterMap_cons,
      FlowClassificationLogger.flowFinished, hg]
  | classified k hg hk =>
    simp [FlowClassificationLogger.lines, FlowClassificationLogger.line, List.filterMap_cons,
      FlowClassificationLogger.flowFinished, FlowClassificationLogger.flowClassified, hg]

end FlowRecord.Closed

/-! ## Over a run -/

namespace FlowManager

variable {S : Setup R}

/-- Every connection of every run is in its stages. -/
theorem valid_addPackets (hseq : S.config.workerThreadsPerQueue = 0) (packets : List IPv4Packet)
    (h : UInt32) : ((addPackets S packets).connection h).Valid := by
  have hrun : ∀ m : FlowManager R, Quiet S m → (∀ k, (m.connection k).Valid) →
      ∀ k, ((packets.foldl (fun m p => m.addPacket S p) m).connection k).Valid := by
    induction packets with
    | nil => exact fun m _ hvalid => hvalid
    | cons p packets ih =>
      intro m hm hvalid
      apply ih _ (hm.addPacket p)
      intro k
      by_cases hk : k = S.flowHash p.tuple
      · rw [hk, connection_addPacket hm hseq]
        exact (hvalid _).process S p _
      · rw [connection_addPacket_of_ne hm p hk]
        exact hvalid k
  exact hrun init (quiet_init S) (fun _ => Connection.valid_empty) h

omit [Double R] in
/-- Without a table entry, every flow of a hash is a past one. -/
theorem mem_past_of_record {m : FlowManager R} {i : FlowId} {h : UInt32} {r : FlowRecord R}
    (hi : m.hashAt i = some h) (hr : m.record i = some r) (hnone : m.flows h = none) :
    r ∈ (m.connection h).past := by
  apply List.mem_filterMap.mpr
  refine ⟨i, List.mem_filter.mpr ⟨List.mem_range.mpr (lt_length_of_hashAt hi), ?_⟩, hr⟩
  rw [hnone]
  exact decide_eq_true ⟨hi, (Option.some_ne_none i).symm⟩

/-- `finished` ends, empties the table, and leaves every flow closed. -/
theorem finished_closes (hseq : S.config.workerThreadsPerQueue = 0) (packets : List IPv4Packet)
    {order : List UInt32} (hwalk : (addPackets S packets).WalksTable order) :
    ∃ m, (addPackets S packets).finished order = some m ∧ (∀ h, m.flows h = none) ∧
      ∀ (i : FlowId) (r : FlowRecord R), m.record i = some r → r.Closed := by
  obtain ⟨m, hm, -, hempty, hconnection⟩ := connection_finished (quiet_addPackets S packets) hwalk
  refine ⟨m, hm, hempty, fun i r hr => ?_⟩
  obtain ⟨f, hf, -⟩ := Option.map_eq_some_iff.mp hr
  have hpast := mem_past_of_record (hashAt_of_heap hf) hr (hempty _)
  rw [hconnection] at hpast
  exact (valid_addPackets hseq packets _).finish.closed r hpast

/-- **Every flow is reported once.** After any capture and `finished()`, the table is empty, and of
each flow that was ever created: there is at most one result line; there is exactly one, of the
right kind, when it had enough packets at its removal; its finish was announced at most once and
nothing was said after its removal; its classification was announced once if it was classified. -/
theorem finished_reports_once (hseq : S.config.workerThreadsPerQueue = 0)
    (packets : List IPv4Packet) {order : List UInt32}
    (hwalk : (addPackets S packets).WalksTable order) :
    ∃ m, (addPackets S packets).finished order = some m ∧ (∀ h, m.flows h = none) ∧
      ∀ (i : FlowId) (f : Flow R), m.heap[i]? = some f →
        (FlowClassificationLogger.lines (m.told i)).length ≤ 1 ∧
        (f.reportable → ∃ line, FlowClassificationLogger.lines (m.told i) = [line] ∧
          line.classified = f.flowClassified) ∧
        (m.told i).countP Note.isFinished ≤ 1 ∧
        (∃ before, m.told i = before ++ [.removed f] ∧
          ∀ note ∈ before, note.isFinished = true ∨ note.isClassified = true) ∧
        (m.told i).countP Note.isClassified = if f.flowClassified then 1 else 0 := by
  obtain ⟨m, hm, hempty, hclosed⟩ := finished_closes hseq packets hwalk
  refine ⟨m, hm, hempty, fun i f hf => ?_⟩
  have hr : m.record i = some { flow := f, told := m.told i } := by
    rw [record, hf, Option.map_some]
  have h := hclosed i _ hr
  exact ⟨h.lines_length, h.lines_of_reportable, h.finished_count, h.removed_last,
    h.classified_count⟩

/-- A name server that is asked twice, with ten minutes in between. -/
def twoQueries : List IPv4Packet :=
  [⟨0x0100000a, 1053, 0x0200000a, 53, .udp, [1], ⟨0, 0⟩⟩,
    ⟨0x0200000a, 53, 0x0100000a, 1053, .udp, [2], ⟨1, 0⟩⟩,
    ⟨0x0100000a, 1053, 0x0200000a, 53, .udp, [3], ⟨600, 0⟩⟩]

theorem twoQueries_reports_once :
    ∃ m : FlowManager ℚ,
      (addPackets Setup.initial twoQueries).finished
        (tableOrder (Setup.initial (R := ℚ)) twoQueries) = some m ∧
      (∀ h, m.flows h = none) ∧ m.heap.length = 2 ∧
      ∀ (i : FlowId) (f : Flow ℚ), m.heap[i]? = some f →
        (FlowClassificationLogger.lines (m.told i)).length ≤ 1 := by
  obtain ⟨m, hm, hempty, hflows⟩ :=
    finished_reports_once (S := Setup.initial (R := ℚ)) rfl twoQueries
    (walksTable_tableOrder (Setup.initial (R := ℚ)) twoQueries)
  refine ⟨m, hm, hempty, ?_, fun i f hf => (hflows i f hf).1⟩
  have hlength : ((addPackets (Setup.initial (R := ℚ)) twoQueries).finished
      (tableOrder (Setup.initial (R := ℚ)) twoQueries)).map
        (fun m : FlowManager ℚ => m.heap.length) = some 2 := by
    decide +kernel
  rw [hm] at hlength
  exact Option.some.inj hlength

end FlowManager

end Vsid
