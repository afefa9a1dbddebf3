import Vsid.Laws.Distributions
import Vsid.Laws.IdleGaps

/-!
# What the observers hear of

The flow-finished observers are handed the flows of `reported`, in order. The final sweep adds to
them, table entry by table entry, the open flows that have enough packets (`reported_finished`), so
that another order of the table is another order of the same flows (`reported_perm`). What they are
handed was made by packets (`madeOf_of_reported`).
-/

set_option autoImplicit false

namespace Vsid

variable {R : Type}

/-- The flow that the observers hear of when this one is finished. -/
def FlowRecord.report (r : FlowRecord R) : Option (Flow R) :=
  if r.flow.flowState = .finishedNotified ∨ FlowManager.tooFewPackets r.flow = true then none
  else some r.flow

/-- The flow that a call of the flow-finished observers hands over. -/
def Note.finishedFlow : Note R → Option (Flow R)
  | finished f => some f
  | _ => none

theorem Note.finishedFlow_eq_some_iff {note : Note R} {f : Flow R} :
    note.finishedFlow = some f ↔ note = .finished f := by
  cases note with
  | finished g =>
    exact ⟨fun h => congrArg _ (Option.some.inj h), fun h => congrArg some (Note.finished.inj h)⟩
  | _ => exact ⟨fun h => absurd h.symm (Option.some_ne_none f), fun h => by cases h⟩

namespace FlowManager

/-- The flows that the flow-finished observers were handed, in order. -/
def reported (m : FlowManager R) : List (Flow R) := m.events.filterMap fun e => e.note.finishedFlow

variable {m m' : FlowManager R}

/-! ## The sweep -/

theorem reported_tell (m : FlowManager R) (i : FlowId) (note : Note R) :
    (m.tell i note).reported = m.reported ++ note.finishedFlow.toList := by
  unfold reported tell
  rw [List.filterMap_append, List.filterMap_cons, List.filterMap_nil]
  cases note.finishedFlow <;> rfl

theorem reported_erase (m : FlowManager R) (h : UInt32) : (m.erase h).reported = m.reported := by
  unfold erase
  split
  · rfl
  · simp only
    split
    · rfl
    · exact (reported_tell _ _ _).trans (List.append_nil _)

theorem reported_notifyFlowFinished (m : FlowManager R) (i : FlowId) :
    (m.notifyFlowFinished i).reported =
      m.reported ++ ((m.record i).bind FlowRecord.report).toList := by
  rcases m.notifyFlowFinished_cases i with ⟨h, hall⟩ | ⟨f, hf, hstate, ⟨hfew, h⟩ | ⟨hfew, h⟩⟩ <;>
    rw [h, record]
  · cases hf : m.heap[i]? with
    | none => exact (List.append_nil _).symm
    | some f =>
      rw [Option.map_some, Option.bind_some, FlowRecord.report, if_pos (Or.inl (hall f hf))]
      exact (List.append_nil _).symm
  · rw [hf, Option.map_some, Option.bind_some, FlowRecord.report, if_pos (Or.inr hfew)]
    exact (List.append_nil _).symm
  · have hreported : ¬ (f.flowState = .finishedNotified ∨ tooFewPackets f = true) := by
      rw [hfew]
      exact not_or.mpr ⟨hstate, Bool.false_ne_true⟩
    rw [hf, Option.map_some, Option.bind_some, FlowRecord.report, if_neg hreported]
    exact reported_tell m i (.finished f)

theorem reported_sweepEntry {h : UInt32} (hentry : m.sweepEntry h = some m') :
    m'.reported = m.reported ++ ((m.connection h).live.bind FlowRecord.report).toList := by
  rcases sweepEntry_cases hentry with ⟨hnone, rfl⟩ | ⟨i, hi, rfl⟩
  · rw [connection_live_of_none hnone]
    exact (List.append_nil _).symm
  · rw [reported_erase, reported_notifyFlowFinished, record_of_connection hi]

theorem connection_sweepEntry_of_ne {S : Setup R} (hm : Indexed S m) {h k : UInt32} (hne : k ≠ h)
    (hentry : m.sweepEntry h = some m') : m'.connection k = m.connection k := by
  rcases sweepEntry_cases hentry with ⟨-, rfl⟩ | ⟨i, hi, rfl⟩
  · rfl
  · exact connection_notify_erase_of_ne hm hi hne

/-- **The sweep reports the open flows, in the order of the table.** -/
theorem reported_finished {S : Setup R} (hm : Indexed S m) {order : List UInt32}
    (hnodup : order.Nodup) (hfinished : m.finished order = some m') :
    m'.reported = m.reported ++
      order.filterMap fun h => (m.connection h).live.bind FlowRecord.report := by
  induction order generalizing m with
  | nil =>
    cases hfinished
    exact (List.append_nil _).symm
  | cons h order ih =>
    obtain ⟨hnew, hnodup⟩ := List.nodup_cons.mp hnodup
    obtain ⟨m₁, hentry, hrest⟩ := finished_cons.mp hfinished
    have hsame : (order.filterMap fun h => (m₁.connection h).live.bind FlowRecord.report) =
        order.filterMap fun h => (m.connection h).live.bind FlowRecord.report := by
      refine List.filterMap_congr fun k hk => ?_
      rw [connection_sweepEntry_of_ne hm (fun heq : k = h => hnew (heq ▸ hk)) hentry]
    rw [ih (hm.sweepEntry hentry) hnodup hrest, reported_sweepEntry hentry, hsame, List.append_assoc,
      List.filterMap_cons]
    cases (m.connection h).live.bind FlowRecord.report <;> rfl

theorem WalksTable.perm {order order' : List UInt32} (h : m.WalksTable order)
    (h' : m.WalksTable order') : order.Perm order' :=
  (List.perm_ext_iff_of_nodup h.1 h'.1).mpr fun k => (h.2 k).trans (h'.2 k).symm

/-- Another order of the table is another order of the same flows. -/
theorem reported_perm {S : Setup R} (hm : Indexed S m) {order order' : List UInt32}
    (hwalk : m.WalksTable order) (hwalk' : m.WalksTable order') {m₁ m₂ : FlowManager R}
    (h₁ : m.finished order = some m₁) (h₂ : m.finished order' = some m₂) :
    m₁.reported.Perm m₂.reported := by
  rw [reported_finished hm hwalk.1 h₁, reported_finished hm hwalk'.1 h₂]
  exact ((hwalk.perm hwalk').filterMap _).append_left _

end FlowManager

/-! ## What made the flows -/

variable [Double R] {S : Setup R}

namespace Flow

/-- The packets made the flow of a new one; if it was marked since, they made its meters. -/
def MadeOf (S : Setup R) (p : IPv4Packet) (stale : FirstBytes) (packets : List IPv4Packet)
    (f : Flow R) : Prop :=
  f.attributeMeters = (ofPackets S p stale packets).attributeMeters ∧
    (f.flowState ≠ .finishedNotified → f = ofPackets S p stale packets)

variable {p : IPv4Packet} {stale : FirstBytes} {packets : List IPv4Packet} {f g : Flow R}

theorem MadeOf.kept (h : f.MadeOf S p stale packets) (hkept : FlowManager.Kept f g) :
    g.MadeOf S p stale packets := by
  rcases hkept with rfl | rfl
  · exact h
  · exact ⟨h.1, fun hmarked => absurd rfl hmarked⟩

theorem MadeOf.addPacket (h : f.MadeOf S p stale packets) (q : IPv4Packet) :
    ∃ packets', (f.addPacket S q).MadeOf S p stale packets' := by
  by_cases hf : f.flowState = .finishedNotified
  · refine ⟨packets, ?_⟩
    rw [addPacket_of_isFinished S f q (by rw [isFinished, hf]; rfl)]
    exact ⟨h.1, fun hmarked => absurd hf hmarked⟩
  · have hsame : f.addPacket S q = ofPackets S p stale (packets ++ [q]) := by
      rw [h.2 hf, ofPackets, ofPackets, List.foldl_append]
      rfl
    exact ⟨packets ++ [q], congrArg attributeMeters hsame, fun _ => hsame⟩

/-- Packets made the flow, or its meters. -/
def Made (S : Setup R) (f : Flow R) : Prop := ∃ p stale packets, f.MadeOf S p stale packets

theorem Made.kept (h : f.Made S) (hkept : FlowManager.Kept f g) : g.Made S := by
  obtain ⟨p, stale, packets, h⟩ := h
  exact ⟨p, stale, packets, h.kept hkept⟩

theorem Made.addPacket (h : f.Made S) (q : IPv4Packet) : (f.addPacket S q).Made S := by
  obtain ⟨p, stale, packets, h⟩ := h
  obtain ⟨packets', h'⟩ := h.addPacket q
  exact ⟨p, stale, packets', h'⟩

end Flow

namespace FlowManager

variable {m : FlowManager R}

/-- Every flow that is ever created was made by packets. -/
theorem Sequential.made (hseq : S.config.workerThreadsPerQueue = 0) {packets : List IPv4Packet}
    (h : Sequential S packets m) : Every (Flow.Made S) m := by
  induction h with
  | init => exact fun i f hf => by cases hf
  | @addPacket packets m p hm ih =>
    cases hdown : m.shutdown with
    | true =>
      rw [addPacket_of_shutdown hdown]
      exact ih
    | false =>
      intro i g hg
      rcases heap_addPacket (hm.quiet hdown) hseq p hg with
        ⟨-, f, hf, hkept⟩ | ⟨-, f, hkept, ⟨f₀, hf₀, hkept₀⟩ | ⟨-, rfl⟩⟩
      · exact (ih i f hf).kept hkept
      · exact (((ih i f₀ hf₀).kept hkept₀).addPacket p).kept hkept
      · have hnew : (Flow.new S p (S.staleBytes m.heap.length)).Made S :=
          ⟨p, S.staleBytes m.heap.length, [], rfl, fun _ => rfl⟩
        exact (hnew.addPacket p).kept hkept
  | finished hm hfinished ih =>
    intro i g hg
    obtain ⟨f, hf, hkept⟩ := (heap_finished hfinished).2 i g hg
    exact (ih i f hf).kept hkept
  | shutdown _ ih => exact ih

/-- A flow that was reported has enough packets, and was marked. -/
theorem Sequential.marked (hseq : S.config.workerThreadsPerQueue = 0) {packets : List IPv4Packet}
    (h : Sequential S packets m) {f : Flow R} (hf : f ∈ m.reported) :
    tooFewPackets f = false ∧
      ∃ i : FlowId, m.heap[i]? = some f.setFinishedAndNotified := by
  obtain ⟨e, he, hnote⟩ := List.mem_filterMap.mp hf
  rw [Note.finishedFlow_eq_some_iff] at hnote
  obtain ⟨g, hg⟩ : ∃ g, m.heap[e.id]? = some g :=
    ⟨_, List.getElem?_eq_getElem (h.sound.1.told e he)⟩
  have hrecord : m.record e.id = some { flow := g, told := m.told e.id } := by
    rw [record, hg, Option.map_some]
  have htold : Note.finished f ∈ m.told e.id :=
    List.mem_map.mpr ⟨e, List.mem_filter.mpr ⟨he, beq_self_eq_true _⟩, hnote⟩
  have hsilent : ∀ {k : Flow R} {notes : List (Note R)}, Announced k notes →
      Note.finished f ∉ notes := by
    intro k notes hannounced hmem
    cases hannounced with
    | silent => exact absurd hmem List.not_mem_nil
    | classified =>
      have heq := List.mem_singleton.mp hmem
      cases heq
  have hvalid := h.valid hseq g.hash
  by_cases hlive : m.flows g.hash = some e.id
  · have hopen := hvalid.open_ _ ((record_of_connection hlive).trans hrecord)
    exact absurd htold (hsilent hopen.announced)
  · have hpast : { flow := g, told := m.told e.id } ∈ (m.connection g.hash).past := by
      refine List.mem_filterMap.mpr ⟨e.id, List.mem_filter.mpr
        ⟨List.mem_range.mpr (List.getElem?_eq_some_iff.mp hg).1, ?_⟩, hrecord⟩
      exact decide_eq_true ⟨hashAt_of_heap hg, hlive⟩
    obtain ⟨k, before, hannounced, hflow, hnotes⟩ := hvalid.closed _ hpast
    simp only at hflow hnotes
    rw [hnotes] at htold
    have hk : tooFewPackets k = false ∧ f = k := by
      rcases List.mem_append.mp htold with htold | htold
      · rcases List.mem_append.mp htold with htold | htold
        · exact absurd htold (hsilent hannounced)
        · split at htold
          · exact absurd htold List.not_mem_nil
          · next hfew =>
            exact ⟨Bool.eq_false_iff.mpr hfew, Note.finished.inj (List.mem_singleton.mp htold)⟩
      · have heq := List.mem_singleton.mp htold
        cases heq
    exact ⟨hk.2 ▸ hk.1, e.id, by rw [hg, hflow, hk.2]⟩

/-- **What the observers are handed was made by packets.** -/
theorem Sequential.reported (hseq : S.config.workerThreadsPerQueue = 0)
    {packets : List IPv4Packet} (h : Sequential S packets m) {f : Flow R} (hf : f ∈ m.reported) :
    ∃ p stale packets',
      f.attributeMeters = (Flow.ofPackets S p stale packets').attributeMeters := by
  obtain ⟨-, i, hi⟩ := h.marked hseq hf
  obtain ⟨p, stale, packets', hmade⟩ := h.made hseq i _ hi
  exact ⟨p, stale, packets', hmade.1⟩

end FlowManager

end Vsid
