import Vsid.Laws.Classification
import Vsid.Laws.Lifecycle
import Vsid.Laws.TrainingRuns

/-!
# What the results say of the flows

`finished_reports_once` counts the lines of a flow; here is what is in them. A classification is
announced before the flow has seen its last packet, and the announcement stays right: whatever the
flow goes through afterwards, it keeps what it was classified as. So the results of a run say of
every flow what can be read off the flow at the end (`findings_of_run`).

`RecordInvariant` is the rule for properties of a flow and of what was said about it.
-/

set_option autoImplicit false

namespace Vsid

variable {R : Type}

/-! ## What there is to say -/

/-- What a line says of a flow, apart from how far it had come. -/
structure Finding (R : Type) where
  classified : Bool
  protocol : String
  divergence : R
  tuple : IPv4Tuple
  hash : UInt32

/-- What the line says. -/
def ResultLine.finding (line : ResultLine R) : Finding R :=
  { classified := line.classified, protocol := line.protocol, divergence := line.divergence
    tuple := line.tuple, hash := line.hash }

/-- What there is to say of a flow that is over. -/
def Flow.finding (f : Flow R) : Option (Finding R) :=
  if f.flowClassified then
    some
      { classified := true, protocol := f.classifiedProtocol, divergence := f.classifiedDivergence
        tuple := f.firstPacketTuple, hash := f.hash }
  else if FlowManager.tooFewPackets f then none
  else
    some
      { classified := false, protocol := f.bestMatchProtocol, divergence := f.bestMatchDivergence
        tuple := f.firstPacketTuple, hash := f.hash }

/-! ## Properties of records -/

/-- A property that nothing which happens to a flow breaks. -/
structure RecordInvariant [Double R] (S : Setup R) (P : FlowRecord R → Prop) : Prop where
  fresh : ∀ p stale, P (.fresh (Flow.new S p stale))
  apply : ∀ r p, P r → P (r.apply S p)
  notifyFinished : ∀ r, P r → P r.notifyFinished
  remove : ∀ r, P r → P r.remove

namespace RecordInvariant

variable [Double R] {S : Setup R} {P : FlowRecord R → Prop} {c : Connection R}

/-- Every flow of the connection has the property. -/
def Holds (P : FlowRecord R → Prop) (c : Connection R) : Prop := ∀ r ∈ c.records, P r

omit [Double R] in
theorem holds_iff : Holds P c ↔ (∀ r ∈ c.past, P r) ∧ ∀ r, c.live = some r → P r := by
  unfold Holds Connection.records
  refine List.forall_mem_append.trans (and_congr_right fun _ => ?_)
  simp only [Option.mem_toList]

theorem finish (h : RecordInvariant S P) (hc : Holds P c) : Holds P c.finish := by
  obtain ⟨hpast, hlive⟩ := holds_iff.mp hc
  refine holds_iff.mpr ⟨fun r hr => ?_, fun r hr => by cases hr⟩
  rcases List.mem_append.mp hr with hold | hnew
  · exact hpast r hold
  · rw [Option.mem_toList] at hnew
    obtain ⟨r₁, hr₁, rfl⟩ := Option.map_eq_some_iff.mp hnew
    obtain ⟨r₀, hr₀, rfl⟩ := Option.map_eq_some_iff.mp hr₁
    exact h.remove _ (h.notifyFinished _ (hlive r₀ hr₀))

theorem start (h : RecordInvariant S P) (hc : Holds P c) (p : IPv4Packet) (stale : FirstBytes) :
    Holds P (c.start (Flow.new S p stale)) := by
  refine holds_iff.mpr ⟨(holds_iff.mp hc).1, fun r hr => ?_⟩
  cases hr
  exact h.fresh p stale

theorem process (h : RecordInvariant S P) (hc : Holds P c) (p : IPv4Packet) (stale : FirstBytes) :
    Holds P (c.process S (Flow.new S p stale) p) := by
  have hlookup : Holds P (c.lookup S (Flow.new S p stale) p) := by
    unfold Connection.lookup
    split
    · exact h.start hc p stale
    · split
      · exact h.start (h.finish hc) p stale
      · exact hc
  have hmodify : Holds P ((c.lookup S (Flow.new S p stale) p).modify fun r => r.apply S p) := by
    obtain ⟨hpast, hlive⟩ := holds_iff.mp hlookup
    refine holds_iff.mpr ⟨hpast, fun r hr => ?_⟩
    obtain ⟨r₀, hr₀, rfl⟩ := Option.map_eq_some_iff.mp hr
    exact h.apply r₀ p (hlive r₀ hr₀)
  unfold Connection.process Connection.settle
  split
  · exact hmodify
  · split
    · exact h.finish hmodify
    · exact hmodify

theorem addPackets (h : RecordInvariant S P) (hseq : S.config.workerThreadsPerQueue = 0)
    (packets : List IPv4Packet) (k : UInt32) :
    Holds P ((FlowManager.addPackets S packets).connection k) := by
  have hrun : ∀ m : FlowManager R, FlowManager.Quiet S m → (∀ k, Holds P (m.connection k)) →
      ∀ k, Holds P ((packets.foldl (fun m p => m.addPacket S p) m).connection k) := by
    induction packets with
    | nil => exact fun m _ hm => hm
    | cons p packets ih =>
      intro m hm hall
      apply ih _ (hm.addPacket p)
      intro k
      by_cases hk : k = S.flowHash p.tuple
      · rw [hk, FlowManager.connection_addPacket hm hseq]
        exact h.process (hall _) p _
      · rw [FlowManager.connection_addPacket_of_ne hm p hk]
        exact hall k
  have hempty : ∀ k, Holds P ((FlowManager.init : FlowManager R).connection k) := fun k r hr => by
    cases hr
  exact hrun _ (FlowManager.quiet_init S) hempty k

/-- **It holds of every flow of every run.** -/
theorem finished (h : RecordInvariant S P) (hseq : S.config.workerThreadsPerQueue = 0)
    (packets : List IPv4Packet) {order : List UInt32}
    (hwalk : (FlowManager.addPackets S packets).WalksTable order) {m : FlowManager R}
    (hfinished : (FlowManager.addPackets S packets).finished order = some m) {i : FlowId}
    {r : FlowRecord R} (hr : m.record i = some r) : P r := by
  obtain ⟨m', hm', -, hempty, hconnection⟩ :=
    FlowManager.connection_finished (FlowManager.quiet_addPackets S packets) hwalk
  obtain rfl : m' = m := Option.some_inj.mp (hm'.symm.trans hfinished)
  obtain ⟨f, hf, -⟩ := Option.map_eq_some_iff.mp hr
  have hpast := FlowManager.mem_past_of_record (FlowManager.hashAt_of_heap hf) hr (hempty f.hash)
  have hall : Holds P (m'.connection f.hash) := by
    rw [hconnection]
    exact h.finish (h.addPackets hseq packets f.hash)
  exact (holds_iff.mp hall).1 r hpast

end RecordInvariant

/-! ## What was announced stays right -/

namespace Flow

/-- What a classified flow is, is what another one was classified as. -/
structure Confirms (f g : Flow R) : Prop where
  flowClassified : f.flowClassified = true
  classifiedProtocol : f.classifiedProtocol = g.classifiedProtocol
  classifiedDivergence : f.classifiedDivergence = g.classifiedDivergence
  firstPacketTuple : f.firstPacketTuple = g.firstPacketTuple
  hash : f.hash = g.hash

/-- No packet changes what a classified flow is. -/
theorem Confirms.addPacket [Double R] {f g : Flow R} (h : f.Confirms g) (S : Setup R)
    (p : IPv4Packet) : (f.addPacket S p).Confirms g := by
  have hresult : SameResult f (f.addPacket S p) := by
    cases hexamined : f.examined S p with
    | none => exact addPacket_sameResult hexamined
    | some k =>
      obtain ⟨hsame, hopen⟩ := examined_sameResult hexamined
      rw [hsame.flowClassified, h.flowClassified] at hopen
      cases hopen
  have hidentity := addPacket_sameIdentity S f p
  exact
    { flowClassified := hresult.flowClassified.trans h.flowClassified
      classifiedProtocol := hresult.classifiedProtocol.trans h.classifiedProtocol
      classifiedDivergence := hresult.classifiedDivergence.trans h.classifiedDivergence
      firstPacketTuple := hidentity.firstPacketTuple.trans h.firstPacketTuple
      hash := hidentity.hash.trans h.hash }

/-- Nor does the mark. -/
theorem Confirms.marked {f g : Flow R} (h : f.Confirms g) : f.setFinishedAndNotified.Confirms g :=
  ⟨h.1, h.2, h.3, h.4, h.5⟩

end Flow

/-- The flow is what it was announced as. -/
def FlowRecord.Confirmed (r : FlowRecord R) : Prop :=
  ∀ g, Note.classified g ∈ r.told → r.flow.Confirms g

theorem recordInvariant_confirmed [Double R] (S : Setup R) :
    RecordInvariant S FlowRecord.Confirmed where
  fresh p stale g hg := absurd hg List.not_mem_nil
  apply r p h := by
    unfold FlowRecord.apply
    simp only
    split
    next hbecame =>
      intro g hg
      rcases List.mem_append.mp hg with hold | hnew
      · have hclassified := (h g hold).flowClassified
        rw [hclassified, r.flow.addPacket_flowClassified S p hclassified] at hbecame
        cases hbecame
      · cases List.mem_singleton.mp hnew
        obtain ⟨-, hclassified⟩ := Bool.and_eq_true_iff.mp hbecame
        exact ⟨hclassified, rfl, rfl, rfl, rfl⟩
    next => exact fun g hg => (h g hg).addPacket S p
  notifyFinished r h := by
    unfold FlowRecord.notifyFinished
    split
    · exact h
    · split
      · exact fun g hg => (h g hg).marked
      · intro g hg
        rcases List.mem_append.mp hg with hold | hnew
        · exact (h g hold).marked
        · cases List.mem_singleton.mp hnew
  remove r h := by
    intro g hg
    rcases List.mem_append.mp hg with hold | hnew
    · exact h g hold
    · cases List.mem_singleton.mp hnew

/-! ## The results of a run -/

open FlowClassificationLogger

/-- **The line of a flow says what the flow is.** -/
theorem FlowRecord.finding_of_closed {r : FlowRecord R} (h : r.Closed) (hconfirmed : r.Confirmed) :
    (lines r.told).map (·.finding) = r.flow.finding.toList := by
  obtain ⟨g, before, hbefore, hflow, htold⟩ := h
  have hfinding : r.flow.finding = g.finding := by
    rw [hflow]
    rfl
  rw [hfinding, htold]
  unfold lines
  rw [List.filterMap_append, List.filterMap_append]
  cases hbefore with
  | silent hg =>
    have hnot : ¬ g.flowClassified = true := Bool.eq_false_iff.mp hg
    unfold Flow.finding
    rw [if_neg hnot]
    split
    · rfl
    · have hline : FlowClassificationLogger.line (.finished g) = some
          { classified := false, protocol := g.bestMatchProtocol,
            divergence := g.bestMatchDivergence, pktCount := g.pktCount,
            overallPktCount := g.overallPktCount, state := g.flowState, hash := g.hash,
            tuple := g.firstPacketTuple } := if_neg hnot
      rw [List.filterMap_cons_some hline]
      rfl
  | classified k hg hk =>
    have hsame : r.flow.Confirms k := hconfirmed k (by
      rw [htold]
      exact List.mem_append_left _ (List.mem_append_left _ (List.mem_singleton_self _)))
    have hsilent : (if FlowManager.tooFewPackets g = true then [] else
        [Note.finished g]).filterMap FlowClassificationLogger.line = [] := by
      split
      · rfl
      · exact List.filterMap_cons_none (if_pos hg)
    rw [hsilent, ← hfinding]
    unfold Flow.finding
    rw [if_pos hsame.flowClassified, hsame.classifiedProtocol, hsame.classifiedDivergence,
      hsame.firstPacketTuple, hsame.hash]
    rfl

namespace FlowManager

variable [Double R] {S : Setup R}

omit [Double R] in
/-- The events, sorted by the flows that they are about. -/
theorem perm_told {m : FlowManager R} (h : ∀ e ∈ m.events, e.id < m.heap.length) :
    ((List.range m.heap.length).flatMap m.told).Perm (m.events.map (·.note)) := by
  have hsorted := Keyed.perm_flatMap_filter (fun e : Event R => e.id) List.nodup_range
    fun e he => List.mem_range.mpr (h e he)
  have hnotes := hsorted.map Event.note
  rw [List.map_flatMap] at hnotes
  exact hnotes

/-- **The results of a run say of every flow what it is.** Of the flows that were classified, and of
the others with enough packets, there is a line each, with the connection and what the flow was
classified as, or what was nearest to it; and there are no other lines. -/
theorem findings_of_run (hseq : S.config.workerThreadsPerQueue = 0) (packets : List IPv4Packet)
    {order : List UInt32} (hwalk : (addPackets S packets).WalksTable order) :
    ∃ m, (addPackets S packets).finished order = some m ∧
      ((lines (m.events.map (·.note))).map (·.finding)).Perm
        (m.heap.filterMap (·.finding)) := by
  obtain ⟨m, hm, -, hclosed⟩ := finished_closes hseq packets hwalk
  obtain ⟨m', hm', hquiet, -⟩ := connection_finished (quiet_addPackets S packets) hwalk
  obtain rfl : m' = m := Option.some_inj.mp (hm'.symm.trans hm)
  refine ⟨m', hm, ?_⟩
  have hline : ∀ i ∈ List.range m'.heap.length,
      (lines (m'.told i)).map (·.finding) = ((m'.heap[i]?).bind Flow.finding).toList := by
    intro i hi
    obtain ⟨f, hf⟩ : ∃ f, m'.heap[i]? = some f :=
      ⟨_, List.getElem?_eq_getElem (List.mem_range.mp hi)⟩
    have hr : m'.record i = some { flow := f, told := m'.told i } := by
      rw [record, hf, Option.map_some]
    rw [hf, Option.bind_some]
    exact FlowRecord.finding_of_closed (hclosed i _ hr)
      ((recordInvariant_confirmed S).finished hseq packets hwalk hm hr)
  have hsorted := ((perm_told hquiet.told).filterMap line).map ResultLine.finding
  refine hsorted.symm.trans (List.Perm.of_eq ?_)
  rw [List.filterMap_flatMap, List.map_flatMap]
  calc (List.range m'.heap.length).flatMap (fun i => (lines (m'.told i)).map (·.finding))
      = (List.range m'.heap.length).flatMap fun i => ((m'.heap[i]?).bind Flow.finding).toList :=
        List.flatMap_congr hline
    _ = ((List.range m'.heap.length).map fun i => m'.heap[i]?).flatMap
          fun f => (f.bind Flow.finding).toList := by rw [List.flatMap_map]
    _ = (m'.heap.map some).flatMap fun f => (f.bind Flow.finding).toList := by
        rw [Keyed.map_getElem?_range]
    _ = m'.heap.filterMap (·.finding) := by
        rw [List.flatMap_map, List.filterMap_eq_flatMap_toList]
        rfl

/-- A program that knows a protocol by the size of its first packet and decides at the third one. -/
def decidesAtThree : Setup ℚ :=
  { Flow.bySize (1 / 2) with
    database := { Flow.sizeDatabase (1 / 2) with definingLimit := 3 } }

/-- The second of two queries goes on, and another connection is opened. -/
def threeFlows : List IPv4Packet :=
  twoQueries ++
    [⟨0x0200000a, 53, 0x0100000a, 1053, .udp, [4], ⟨601, 0⟩⟩,
      ⟨0x0100000a, 1053, 0x0200000a, 53, .udp, [5], ⟨602, 0⟩⟩,
      ⟨0x0100000a, 1054, 0x0200000a, 53, .udp, [1], ⟨602, 0⟩⟩]

/-- Of the three flows the second one is classified, the first one has a best match, and the third
one has too few packets for a line. -/
theorem threeFlows_findings :
    ∃ m, (addPackets decidesAtThree threeFlows).finished
        (addPackets decidesAtThree threeFlows).tableKeys = some m ∧
      ((lines (m.events.map (·.note))).map (·.finding)).Perm (m.heap.filterMap (·.finding)) ∧
      m.heap.map (fun f => f.finding.map fun x => (x.classified, x.protocol)) =
        [some (false, "DNS"), some (true, "DNS"), none] := by
  obtain ⟨m, hm, hlines⟩ := findings_of_run (S := decidesAtThree) rfl threeFlows
    (walksTable_tableKeys (quiet_addPackets _ threeFlows).toIndexed)
  refine ⟨m, hm, hlines, ?_⟩
  have hheap : ((addPackets decidesAtThree threeFlows).finished
      (addPackets decidesAtThree threeFlows).tableKeys).map (fun m =>
        m.heap.map fun f => f.finding.map fun x => (x.classified, x.protocol)) =
      some [some (false, "DNS"), some (true, "DNS"), none] := by
    decide +kernel
  rw [hm, Option.map_some, Option.some_inj] at hheap
  exact hheap

end FlowManager

end Vsid
