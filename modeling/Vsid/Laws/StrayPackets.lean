import Vsid.Laws.Classification
import Vsid.Laws.Timeout
import Vsid.Lib.Run

/-!
# Packets of connections whose start was not seen

A TCP packet without SYN that opens a flow finishes it at once, but is looked at before that. In
non-threaded mode the flow is never reported as finished, since it has one packet only; it is
reported as classified exactly when its one packet is enough for the matching
(`stray_silent_iff`).
-/

set_option autoImplicit false

namespace Vsid

variable {R : Type}

/-- A call of the manager in non-threaded mode. -/
inductive ManagerCall where
  | addPacket (p : IPv4Packet)
  | finished (order : List UInt32)
  | shutdown

/-- The call is neither a classification nor the end. -/
def Note.isSilent (note : Note R) : Bool := !note.isClassified && !note.isFinished

namespace Flow

variable [Double R]

/-- The first packet of a connection whose start was not seen is enough for the matching. -/
def StrayMatch (S : Setup R) (f : Flow R) (p : IPv4Packet) : Prop :=
  ∃ g, f.examined S p = some g ∧
    (S.database.definingLimit ≤ 1 ∧ (∃ pm ∈ g.looksAt S, g.Fits S pm) ∨
      S.config.useBestMatch = true ∧ S.database.definingLimit = 1 ∧
        ((100 : Nat) : R) < S.config.divergenceThreshold)

/-- The first packet of a flow classifies it only if it is enough for the matching. -/
theorem addPacket_new_classified_iff [IsTrans R (· < ·)] {S : Setup R}
    (hmode : S.config.learningMode = false) (p : IPv4Packet) (stale : FirstBytes) :
    ((Flow.new S p stale).addPacket S p).flowClassified = true ↔
      (Flow.new S p stale).StrayMatch S p := by
  cases hexamined : (Flow.new S p stale).examined S p with
  | none =>
    rw [(addPacket_sameResult hexamined).flowClassified]
    constructor
    · exact fun h => absurd h Bool.false_ne_true
    · rintro ⟨g, hg, -⟩
      rw [hexamined] at hg
      cases hg
  | some g =>
    obtain ⟨hsame, hopen⟩ := examined_sameResult hexamined
    have hcount : g.pktCount = 1 := examined_pktCount hexamined
    have hbest : g.bestMatchDivergence = ((100 : Nat) : R) := hsame.bestMatchDivergence
    have hserves : g.BestMatchServes S ↔ S.config.useBestMatch = true ∧
        S.database.definingLimit = 1 ∧ ((100 : Nat) : R) < S.config.divergenceThreshold := by
      unfold BestMatchServes
      rw [hcount, hbest, eq_comm (a := (1 : UInt32))]
    rw [addPacket_of_examined hexamined, classify_flowClassified_iff hmode hopen, hserves, hcount]
    constructor
    · exact fun h => ⟨g, hexamined, h⟩
    · rintro ⟨g', hg', h⟩
      rw [hexamined] at hg'
      cases hg'
      exact h

/-- A TCP packet without SYN finishes the flow it opens. -/
theorem addPacket_new_flowState {S : Setup R} {p : IPv4Packet} {flags : UInt8}
    (htcp : p.transport = .tcp flags) (hsyn : hasFlag flags thSyn = false) (stale : FirstBytes) :
    ((Flow.new S p stale).addPacket S p).flowState = .finished := by
  have hnew : (Flow.new S p stale).flowState = .new := rfl
  rw [addPacket_flowState]
  unfold advance
  simp only [hnew, htcp, hsyn]
  split <;> rfl

end Flow

namespace FlowManager

variable [Double R] {S : Setup R} {m : FlowManager R}

/-- What a call does. -/
def call (S : Setup R) (m : FlowManager R) : ManagerCall → Option (FlowManager R)
  | .addPacket p => some (m.addPacket S p)
  | .finished order => m.finished order
  | .shutdown => some { m with shutdown := true }

theorem sequential_of_reaches (h : Reaches (call S) init m) :
    ∃ packets, Sequential S packets m := by
  refine h.invariant (I := fun m => ∃ packets, Sequential S packets m) ⟨[], .init⟩ ?_
  rintro m c m' ⟨packets, hm⟩ - hcall
  cases c with
  | addPacket p =>
    cases hcall
    exact ⟨packets ++ [p], hm.addPacket p⟩
  | finished order => exact ⟨packets, hm.finished hcall⟩
  | shutdown =>
    cases hcall
    exact ⟨packets, hm.shutdown⟩

/-! ## A flow that has left the table -/

omit [Double R] in
theorem record_sweepEntry_of_gone {m' : FlowManager R} {h : UInt32} {i : FlowId}
    (hgone : m.Gone i) (hentry : m.sweepEntry h = some m') :
    m'.record i = m.record i ∧ m'.Gone i ∧ m'.heap.length = m.heap.length := by
  rcases sweepEntry_cases hentry with ⟨-, rfl⟩ | ⟨k, hk, rfl⟩
  · exact ⟨rfl, hgone, rfl⟩
  · have hne : k ≠ i := fun heq => hgone _ (heq ▸ hk)
    refine ⟨notify_erase_record_of_ne hk hne, gone_notify_erase hgone, ?_⟩
    rw [erase_heap, notifyFlowFinished_length]

omit [Double R] in
theorem record_finished_of_gone {m' : FlowManager R} {order : List UInt32} {i : FlowId}
    (hgone : m.Gone i) (hfinished : m.finished order = some m') :
    m'.record i = m.record i ∧ m'.Gone i ∧ m'.heap.length = m.heap.length := by
  induction order generalizing m with
  | nil =>
    cases hfinished
    exact ⟨rfl, hgone, rfl⟩
  | cons h order ih =>
    obtain ⟨m₁, hentry, hrest⟩ := finished_cons.mp hfinished
    obtain ⟨hrecord, hgone₁, hlength⟩ := record_sweepEntry_of_gone hgone hentry
    obtain ⟨hrecord', hgone', hlength'⟩ := ih hgone₁ hrest
    exact ⟨hrecord'.trans hrecord, hgone', hlength'.trans hlength⟩

/-- **No call touches a flow that has left the table.** -/
theorem record_of_reaches {packets : List IPv4Packet} (hm : Sequential S packets m) {i : FlowId}
    (hi : i < m.heap.length) (hgone : m.Gone i) {m' : FlowManager R}
    (h : Reaches (call S) m m') : m'.record i = m.record i := by
  have hall : (∃ packets, Sequential S packets m') ∧ i < m'.heap.length ∧ m'.Gone i ∧
      m'.record i = m.record i := by
    refine h.invariant (I := fun m' => (∃ packets, Sequential S packets m') ∧
      i < m'.heap.length ∧ m'.Gone i ∧ m'.record i = m.record i)
      ⟨⟨packets, hm⟩, hi, hgone, rfl⟩ ?_
    rintro m₁ c m₂ ⟨⟨packets₁, hm₁⟩, hi₁, hgone₁, hrecord₁⟩ - hcall
    cases c with
    | addPacket p =>
      cases hcall
      refine ⟨⟨_, hm₁.addPacket p⟩, ?_⟩
      cases hdown : m₁.shutdown with
      | true =>
        rw [addPacket_of_shutdown hdown]
        exact ⟨hi₁, hgone₁, hrecord₁⟩
      | false =>
        obtain ⟨hrecord, hgone₂⟩ := record_of_gone (hm₁.quiet hdown) hi₁ hgone₁ p
        obtain ⟨f, hf⟩ : ∃ f, (m₁.addPacket S p).heap[i]? = some f := by
          have hsome : (m₁.record i).isSome = true := by
            rw [record, List.getElem?_eq_getElem hi₁]
            rfl
          rw [← hrecord, record, Option.isSome_map] at hsome
          exact Option.isSome_iff_exists.mp hsome
        exact ⟨(List.getElem?_eq_some_iff.mp hf).1, hgone₂, hrecord.trans hrecord₁⟩
    | finished order =>
      obtain ⟨hrecord, hgone₂, hlength⟩ := record_finished_of_gone hgone₁ hcall
      exact ⟨⟨_, hm₁.finished hcall⟩, hlength ▸ hi₁, hgone₂, hrecord.trans hrecord₁⟩
    | shutdown =>
      cases hcall
      exact ⟨⟨_, hm₁.shutdown⟩, hi₁, hgone₁, hrecord₁⟩
  exact hall.2.2.2

/-! ## A flow that is opened by its only packet -/

/-- A packet that opens a flow is its first one. -/
theorem getFlow_of_opens (hm : Quiet S m) (hseq : S.config.workerThreadsPerQueue = 0)
    {p : IPv4Packet} (hnew : (m.addPacket S p).heap.length = m.heap.length + 1) :
    (m.getFlow S none p).2 = m.heap.length ∧
      (m.getFlow S none p).1.record m.heap.length =
        some (FlowRecord.fresh (Flow.new S p (S.staleBytes m.heap.length))) := by
  rw [addPacket_length hm] at hnew
  have hinsert : ∀ m' : FlowManager R, Indexed S m' → m'.heap.length = m.heap.length →
      (m'.insertFlow S none p).2 = m.heap.length ∧
        (m'.insertFlow S none p).1.record m.heap.length =
          some (FlowRecord.fresh (Flow.new S p (S.staleBytes m.heap.length))) := by
    intro m' hm' hlength
    rw [insertFlow_snd, insertFlow_record hm'.told, if_pos hlength.symm,
      newFlow_of_sequential hseq, hlength]
    exact ⟨rfl, rfl⟩
  rcases hm.getFlow_cases none p with ⟨-, hget⟩ | ⟨i, f, -, -, -, hget⟩ | ⟨i, f, -, -, -, hget⟩ <;>
    rw [hget] at hnew ⊢
  · exact hinsert m hm.toIndexed rfl
  · apply hinsert _ ((hm.toIndexed.notifyFlowFinished i).erase _)
    rw [erase_heap, notifyFlowFinished_length]
  · exact absurd hnew (Nat.ne_of_lt (Nat.lt_succ_self _))

/-- A flow whose first packet finishes it is closed by that packet. -/
theorem record_of_opens (hm : Quiet S m) (hseq : S.config.workerThreadsPerQueue = 0)
    {p : IPv4Packet} (hnew : (m.addPacket S p).heap.length = m.heap.length + 1) {f : Flow R}
    (hf : f = Flow.new S p (S.staleBytes m.heap.length))
    (hfinished : (f.addPacket S p).isFinished = true) :
    (m.addPacket S p).record m.heap.length =
        some ((FlowRecord.fresh f).apply S p).notifyFinished.remove ∧
      (m.addPacket S p).Gone m.heap.length := by
  obtain ⟨hid, hrecord⟩ := getFlow_of_opens hm hseq hnew
  have hquiet := hm.getFlow none p
  have hflows := getFlow_flows hm.toIndexed none p
  have happly := touches_applyPacket S (m.getFlow S none p).1 (m.getFlow S none p).2 p
  have hquiet' := hquiet.applyPacket (m.getFlow S none p).2 p
  rw [addPacket_eq hm]
  rw [hid] at happly hquiet' hflows ⊢
  have happlied : ((m.getFlow S none p).1.applyPacket S m.heap.length p).record m.heap.length =
      some ((FlowRecord.fresh f).apply S p) := by
    rw [happly.record, if_pos rfl, hrecord, hf, Option.map_some]
  have hflows' : ((m.getFlow S none p).1.applyPacket S m.heap.length p).flows
      (S.flowHash p.tuple) = some m.heap.length := by
    rw [happly.flows, hflows]
  obtain ⟨g, hg, hhash⟩ := exists_of_hashAt (hquiet'.valid _ _ hflows')
  have hgf : g = f.addPacket S p := by
    rw [record, hg, Option.map_some] at happlied
    have hflow := congrArg FlowRecord.flow (Option.some.inj happlied)
    simp only at hflow
    rw [hflow]
    unfold FlowRecord.apply
    simp only
    split <;> rfl
  rw [closeFlow_eq hquiet' hg, hgf, hfinished, if_pos rfl, ← hgf, hhash]
  refine ⟨?_, gone_of_erased hquiet'.toIndexed hflows'⟩
  rw [notify_erase_record hflows', happlied, Option.map_some]

/-- What is said about a flow that its first packet finishes. -/
theorem told_of_finished {f : Flow R} {p : IPv4Packet}
    (hfew : tooFewPackets (f.addPacket S p) = true)
    (hopen : f.flowClassified = false) (hfinished : (f.addPacket S p).flowState = .finished) :
    ((FlowRecord.fresh f).apply S p).notifyFinished.remove.told =
      (if (f.addPacket S p).flowClassified then [.classified (f.addPacket S p)] else []) ++
        [.removed (f.addPacket S p).setFinishedAndNotified] := by
  have hstate : (f.addPacket S p).flowState ≠ .finishedNotified := by
    rw [hfinished]
    exact fun heq => by cases heq
  unfold FlowRecord.apply FlowRecord.fresh
  simp only [hopen]
  cases hclass : (f.addPacket S p).flowClassified with
  | true =>
    have hbecame : (true != false) = true := rfl
    simp only [hbecame, Bool.and_self, if_true, FlowRecord.notifyFinished, FlowRecord.modify,
      FlowRecord.tell, FlowRecord.remove, hstate, if_false, hfew, List.nil_append]
  | false =>
    simp only [bne_self_eq_false, Bool.and_self, Bool.false_eq_true, if_false,
      FlowRecord.notifyFinished, FlowRecord.modify, FlowRecord.remove, FlowRecord.tell, hstate,
      hfew, if_true, List.nil_append]

/-- **A connection whose start was not seen is reported exactly when its first packet is enough for
the matching**, in every run of the manager. -/
theorem stray_silent_iff [IsTrans R (· < ·)] (hseq : S.config.workerThreadsPerQueue = 0)
    (hmode : S.config.learningMode = false) (hm : Reaches (call S) init m) {p : IPv4Packet}
    {flags : UInt8} (htcp : p.transport = .tcp flags) (hsyn : hasFlag flags thSyn = false)
    (hnew : (m.addPacket S p).heap.length = m.heap.length + 1) {m' : FlowManager R}
    (hlater : Reaches (call S) (m.addPacket S p) m') :
    (∀ note ∈ m'.told m.heap.length, note.isSilent = true) ↔
      ¬ (Flow.new S p (S.staleBytes m.heap.length)).StrayMatch S p := by
  obtain ⟨packets, hrun⟩ := sequential_of_reaches hm
  have hdown : m.shutdown = false := by
    cases hdown : m.shutdown with
    | false => rfl
    | true =>
      rw [addPacket_of_shutdown hdown] at hnew
      exact absurd hnew (Nat.ne_of_lt (Nat.lt_succ_self _))
  have hstate := Flow.addPacket_new_flowState htcp hsyn (S := S) (S.staleBytes m.heap.length)
  have hfinished :
      ((Flow.new S p (S.staleBytes m.heap.length)).addPacket S p).isFinished = true := by
    simp only [Flow.isFinished, hstate, beq_self_eq_true, Bool.true_or]
  obtain ⟨hrecord, hgone⟩ := record_of_opens (hrun.quiet hdown) hseq hnew rfl hfinished
  have hlater' := record_of_reaches (hrun.addPacket p)
    (by rw [hnew]; exact Nat.lt_succ_self _) hgone hlater
  have hfew : tooFewPackets ((Flow.new S p (S.staleBytes m.heap.length)).addPacket S p) = true := by
    have htransport : ((Flow.new S p
        (S.staleBytes m.heap.length)).addPacket S p).firstPacketTuple.transport = ipprotoTcp := by
      rw [Flow.addPacket_firstPacketTuple]
      simp only [Flow.new, IPv4Packet.tuple, IPv4Packet.protocol, htcp]
    unfold tooFewPackets
    rw [htransport, Flow.addPacket_overallPktCount, beq_self_eq_true, if_pos rfl]
    simp only [Flow.new, UInt32.zero_add, Bool.or_eq_true, decide_eq_true_eq]
    exact Or.inr (by decide)
  have htold : m'.told m.heap.length =
      ((FlowRecord.fresh (Flow.new S p (S.staleBytes m.heap.length))).apply S
        p).notifyFinished.remove.told := by
    obtain ⟨g, -, hg⟩ := Option.map_eq_some_iff.mp (hlater'.trans hrecord)
    exact congrArg FlowRecord.told hg
  rw [htold, told_of_finished hfew rfl hstate,
    ← Flow.addPacket_new_classified_iff hmode p (S.staleBytes m.heap.length)]
  cases ((Flow.new S p (S.staleBytes m.heap.length)).addPacket S p).flowClassified with
  | true =>
    constructor
    · intro h
      exact absurd (h _ (List.mem_append_left _ List.mem_cons_self)) Bool.false_ne_true
    · exact fun h => absurd rfl h
  | false =>
    constructor
    · exact fun _ => Bool.false_ne_true
    · intro _ note hnote
      cases List.mem_singleton.mp hnote
      rfl

/-- A data packet of a connection that was opened before the capture began. -/
def strayData : IPv4Packet := ⟨0x0100000a, 40000, 0x0200000a, 22, .tcp thAck, [1], ⟨0, 0⟩⟩

/-- What the program is given before and after it: datagrams of another connection, and the next
data packet of the same one. -/
def aroundStrayData : List IPv4Packet :=
  [Flow.oneByte, strayData, Flow.oneByte, { strayData with data := [2], timestamp := ⟨1, 0⟩ }]

theorem strayData_silent_iff :
    (∀ note ∈ (addPackets (Flow.bySize (1 / 2)) aroundStrayData).told 1, note.isSilent = true) ↔
      ¬ (Flow.new (Flow.bySize (1 / 2)) strayData
        ((Flow.bySize (1 / 2)).staleBytes 1)).StrayMatch (Flow.bySize (1 / 2)) strayData := by
  have hbefore : Reaches (call (Flow.bySize (1 / 2))) init
      (addPackets (Flow.bySize (1 / 2)) [Flow.oneByte]) :=
    .tail (.addPacket Flow.oneByte) .refl trivial rfl
  have hlater : Reaches (call (Flow.bySize (1 / 2)))
      (addPackets (Flow.bySize (1 / 2)) [Flow.oneByte, strayData])
      (addPackets (Flow.bySize (1 / 2)) aroundStrayData) :=
    .tail (.addPacket _) (.tail (.addPacket Flow.oneByte) .refl trivial rfl) trivial rfl
  have hsecond : (addPackets (Flow.bySize (1 / 2)) [Flow.oneByte]).heap.length = 1 := by
    decide +kernel
  have hsilent := stray_silent_iff (S := Flow.bySize (1 / 2)) rfl rfl hbefore (p := strayData) rfl
    (by decide) (by decide +kernel) hlater
  rw [hsecond] at hsilent
  exact hsilent

/-- With a defining limit of one it is classified, and that is announced. -/
theorem strayData_not_silent :
    (Flow.bySize (1 / 2)).config.workerThreadsPerQueue = 0 ∧
    (Flow.bySize (1 / 2)).config.learningMode = false ∧
    strayData.transport = .tcp thAck ∧ hasFlag thAck thSyn = false ∧
    ((init : FlowManager ℚ).addPacket (Flow.bySize (1 / 2)) strayData).heap.length = 1 ∧
    (((init : FlowManager ℚ).addPacket (Flow.bySize (1 / 2)) strayData).told 0).any
      Note.isClassified = true := by
  decide +kernel

end FlowManager

end Vsid
