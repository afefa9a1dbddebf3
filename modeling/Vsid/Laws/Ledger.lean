import Vsid.Laws.Matching
import Vsid.Laws.Timeout

/-!
# Which flow takes a packet

`addPacket` looks a packet up twice, and it is the flow of the second look-up that the packet is
added to (`appliedTo`). In non-threaded mode that is the flow of the first one. `Logged` is a run
together with a log of which packet went to which flow; every run has one (`logged_of_sequential`),
and the counters of a flow are those of its entries in the log (`counted_of_logged`).
-/

set_option autoImplicit false

namespace Vsid

namespace Flow

variable {R : Type} [Double R]

/-! ## The states of a flow -/

/-- No packet puts a flow into the state `FINISHING`. -/
theorem addPacket_ne_finishing (S : Setup R) (f : Flow R) (p : IPv4Packet)
    (h : f.flowState ≠ .finishing) : (f.addPacket S p).flowState ≠ .finishing := by
  rw [addPacket_flowState]
  unfold advance
  cases hs : f.flowState with
  | finishing => exact absurd hs h
  | _ =>
    cases ht : p.transport <;> simp only <;> (repeat' split) <;>
      simp only [enter, takeFirstPacket, arrive, hs, ne_eq, reduceCtorEq, not_false_eq_true]

/-- A datagram is taken by every flow that is not finished, and leaves its time and an open flow. -/
theorem addPacket_udp (S : Setup R) {f : Flow R} {p : IPv4Packet} (hudp : p.transport = .udp)
    (hopen : f.isFinished = false) :
    (f.addPacket S p).lastPacketTimestamp = p.timestamp ∧
      (f.addPacket S p).isFinished = false := by
  have hadvance := advance_udp hudp hopen
  have hdata : isBareSegment p = false := by
    unfold isBareSegment
    rw [hudp]
  constructor
  · have heffect := addPacket_effect S f p
    generalize f.examined S p = seen, f.addPacket S p = f' at heffect ⊢
    cases heffect with
    | advanced h => simp only [hadvance.1, hdata, Bool.false_eq_true, or_self] at h
    | counted => rfl
    | examined =>
      obtain ⟨_, _, _, _, _, h⟩ :=
        classify_frame S ((((f.advance p).1.countPacket p).calculate p).touch p)
      rw [h]
      rfl
  · exact addPacket_udp_open hudp hopen

end Flow

namespace FlowManager

variable {R : Type} [Double R] {S : Setup R} {m : FlowManager R}

/-! ## The flow that takes a packet -/

/-- The flow that `addPacket` adds a packet to: the one that `processPacket` finds while the packet
is counted for the one found before. -/
def appliedTo (S : Setup R) (m : FlowManager R) (p : IPv4Packet) : Option FlowId :=
  if m.shutdown then none
  else
    let (m, i) := m.getFlow S none p
    some ((m.modifyFlow i Flow.incPktsInQueue).getFlow S none p).2

theorem appliedTo_eq (hm : Quiet S m) (p : IPv4Packet) :
    m.appliedTo S p = some (m.getFlow S none p).2 := by
  unfold appliedTo
  rw [if_neg (by rw [hm.running]; exact Bool.false_ne_true)]
  simp only [getFlow_again hm]

/-- The flow was left as it is, or marked as finished and notified. -/
def Kept (f g : Flow R) : Prop := g = f ∨ g = f.setFinishedAndNotified

omit [Double R] in
theorem Kept.trans {f g k : Flow R} (h : Kept f g) (h' : Kept g k) : Kept f k := by
  rcases h' with rfl | rfl
  · exact h
  · rcases h with rfl | rfl
    · exact Or.inr rfl
    · exact Or.inr rfl

omit [Double R] in
theorem heap_notify_erase {h : UInt32} {i j : FlowId} {g : Flow R}
    (hg : ((m.notifyFlowFinished i).erase h).heap[j]? = some g) :
    ∃ f, m.heap[j]? = some f ∧ Kept f g := by
  rw [erase_heap] at hg
  have hmark : ∀ m' : FlowManager R, m'.heap = m.heap →
      (m'.modifyFlow i Flow.setFinishedAndNotified).heap[j]? = some g →
        ∃ f, m.heap[j]? = some f ∧ Kept f g := by
    intro m' hm' hg
    rw [modifyFlow_heap, hm'] at hg
    split at hg
    · obtain ⟨f, hf, rfl⟩ := Option.map_eq_some_iff.mp hg
      exact ⟨f, hf, Or.inr rfl⟩
    · exact ⟨g, hg, Or.inl rfl⟩
  rcases m.notifyFlowFinished_cases i with ⟨h, -⟩ | ⟨f, -, -, ⟨-, h⟩ | ⟨-, h⟩⟩ <;> rw [h] at hg
  · exact ⟨g, hg, Or.inl rfl⟩
  · exact hmark m rfl hg
  · exact hmark (m.tell i (.finished f)) rfl hg

/-- What the look-up leaves in the heap: the flows that were there, and perhaps a new one. -/
theorem heap_getFlow (hm : Indexed S m) (hseq : S.config.workerThreadsPerQueue = 0)
    (p : IPv4Packet) {j : FlowId} {g : Flow R}
    (hg : (m.getFlow S none p).1.heap[j]? = some g) :
    (∃ f, m.heap[j]? = some f ∧ Kept f g) ∨
      j = m.heap.length ∧ (m.getFlow S none p).2 = j ∧
        g = Flow.new S p (S.staleBytes m.heap.length) := by
  have hinsert : ∀ m' : FlowManager R, m'.heap.length = m.heap.length →
      (m'.insertFlow S none p).1.heap[j]? = some g →
      m'.heap[j]? = some g ∨ j = m.heap.length ∧ (m'.insertFlow S none p).2 = j ∧
        g = Flow.new S p (S.staleBytes m.heap.length) := by
    intro m' hlength hg
    rw [insertFlow_heap, newFlow_of_sequential hseq, hlength] at hg
    by_cases hj : j < m'.heap.length
    · rw [List.getElem?_append_left hj] at hg
      exact Or.inl hg
    · have hlast := (List.getElem?_eq_some_iff.mp hg).1
      rw [List.length_append, List.length_singleton] at hlast
      obtain rfl : j = m'.heap.length :=
        Nat.le_antisymm (Nat.le_of_lt_succ hlast) (Nat.not_lt.mp hj)
      rw [List.getElem?_concat_length] at hg
      exact Or.inr ⟨hlength, insertFlow_snd _ _ _ _, (Option.some.inj hg).symm⟩
  rcases hm.getFlow_cases none p with ⟨-, hget⟩ | ⟨i, f, -, -, -, hget⟩ | ⟨i, f, -, -, -, hget⟩ <;>
    rw [hget] at hg ⊢
  · exact (hinsert m rfl hg).imp_left fun hg => ⟨g, hg, Or.inl rfl⟩
  · have hlength : ((m.notifyFlowFinished i).erase (S.flowHash p.tuple)).heap.length =
        m.heap.length := by rw [erase_heap, notifyFlowFinished_length]
    exact (hinsert _ hlength hg).imp_left heap_notify_erase
  · exact Or.inl ⟨g, hg, Or.inl rfl⟩

theorem heap_applyPacket (i j : FlowId) (p : IPv4Packet) :
    (m.applyPacket S i p).heap[j]? =
      if i = j then m.heap[j]?.map (·.addPacket S p) else m.heap[j]? := by
  have hrecord := (touches_applyPacket S m i p).record j
  have hflow : ∀ r : FlowRecord R, (r.apply S p).flow = r.flow.addPacket S p := by
    intro r
    unfold FlowRecord.apply
    simp only
    split <;> rfl
  have hheap := congrArg (Option.map FlowRecord.flow) hrecord
  have hget : ∀ m' : FlowManager R, (m'.record j).map FlowRecord.flow = m'.heap[j]? := by
    intro m'
    rw [record, Option.map_map]
    exact Option.map_id'
  rw [hget] at hheap
  rw [hheap]
  split
  · rw [Option.map_map, ← hget m, Option.map_map]
    exact congrFun (congrArg Option.map (funext hflow)) _
  · exact hget m

/-- **What a packet leaves in the heap.** One flow takes it, the one that was looked up; the others
are left alone, or marked. -/
theorem heap_addPacket (hm : Quiet S m) (hseq : S.config.workerThreadsPerQueue = 0)
    (p : IPv4Packet) {j : FlowId} {g : Flow R} (hg : (m.addPacket S p).heap[j]? = some g) :
    (m.appliedTo S p ≠ some j ∧ ∃ f, m.heap[j]? = some f ∧ Kept f g) ∨
      m.appliedTo S p = some j ∧ ∃ f, Kept (f.addPacket S p) g ∧
        ((∃ f₀, m.heap[j]? = some f₀ ∧ Kept f₀ f) ∨
          j = m.heap.length ∧ f = Flow.new S p (S.staleBytes m.heap.length)) := by
  have hq := hm.getFlow none p
  have hflows := getFlow_flows hm.toIndexed none p
  have hkept : ∃ f, ((m.getFlow S none p).1.applyPacket S (m.getFlow S none p).2 p).heap[j]? =
      some f ∧ Kept f g := by
    rw [addPacket_eq hm] at hg
    have happly := hq.applyPacket (m.getFlow S none p).2 p
    obtain ⟨f, hf, -⟩ := exists_of_hashAt (happly.valid _ _
      ((touches_applyPacket S _ _ p).flows ▸ hflows))
    rw [closeFlow_eq happly hf] at hg
    split at hg
    · exact heap_notify_erase hg
    · exact ⟨g, hg, Or.inl rfl⟩
  obtain ⟨f, hf, hfg⟩ := hkept
  rw [heap_applyPacket] at hf
  rw [appliedTo_eq hm]
  split at hf
  next heq =>
    obtain ⟨f', hf', rfl⟩ := Option.map_eq_some_iff.mp hf
    refine Or.inr ⟨congrArg some heq, f', hfg, ?_⟩
    exact (heap_getFlow hm.toIndexed hseq p hf').imp_right fun h => ⟨h.1, h.2.2⟩
  next hne =>
    refine Or.inl ⟨fun heq => hne (Option.some.inj heq), ?_⟩
    rcases heap_getFlow hm.toIndexed hseq p hf with ⟨f₀, hf₀, h⟩ | ⟨-, hnew, -⟩
    · exact ⟨f₀, hf₀, h.trans hfg⟩
    · exact absurd hnew hne

/-- Flows are created, and never destroyed. -/
theorem length_getFlow (self : Option Nat) (p : IPv4Packet) :
    m.heap.length ≤ (m.getFlow S self p).1.heap.length := by
  unfold getFlow
  split
  · rw [insertFlow_heap, List.length_append]
    exact Nat.le_add_right _ _
  · split
    · exact Nat.le_refl _
    · split
      · rw [insertFlow_heap, List.length_append, erase_heap, notifyFlowFinished_length]
        exact Nat.le_add_right _ _
      · exact Nat.le_refl _

omit [Double R] in
/-- What `finished` leaves in the heap. -/
theorem heap_finished {order : List UInt32} {m' : FlowManager R} (h : m.finished order = some m') :
    m'.heap.length = m.heap.length ∧
      ∀ (j : FlowId) (g : Flow R), m'.heap[j]? = some g → ∃ f, m.heap[j]? = some f ∧ Kept f g := by
  induction order generalizing m with
  | nil =>
    cases h
    exact ⟨rfl, fun j g hg => ⟨g, hg, Or.inl rfl⟩⟩
  | cons k order ih =>
    obtain ⟨m₁, hentry, hrest⟩ := finished_cons.mp h
    obtain ⟨hlength, hheap⟩ := ih hrest
    rcases sweepEntry_cases hentry with ⟨-, rfl⟩ | ⟨i, -, rfl⟩
    · exact ⟨hlength, hheap⟩
    · rw [erase_heap, notifyFlowFinished_length] at hlength
      refine ⟨hlength, fun j g hg => ?_⟩
      obtain ⟨g₁, hg₁, hkept⟩ := hheap j g hg
      obtain ⟨f, hf, hkept'⟩ := heap_notify_erase hg₁
      exact ⟨f, hf, hkept'.trans hkept⟩

/-! ## Datagrams -/

/-- The look-up finds a flow that is not finished. -/
theorem getFlow_open (hseq : S.config.workerThreadsPerQueue = 0) {packets : List IPv4Packet}
    (h : Sequential S packets m) (p : IPv4Packet) :
    ∃ f, (m.getFlow S none p).1.heap[(m.getFlow S none p).2]? = some f ∧
      f.isFinished = false := by
  have hinsert : ∀ m' : FlowManager R, ∃ f,
      (m'.insertFlow S none p).1.heap[(m'.insertFlow S none p).2]? = some f ∧
        f.isFinished = false := by
    intro m'
    refine ⟨Flow.new S p (S.staleBytes m'.heap.length), ?_, rfl⟩
    rw [insertFlow_heap, insertFlow_snd, List.getElem?_concat_length, newFlow_of_sequential hseq]
  rcases h.sound.1.getFlow_cases none p with ⟨-, hget⟩ | ⟨i, f, -, -, -, hget⟩ |
    ⟨i, f, hi, hf, -, hget⟩ <;> rw [hget]
  · exact hinsert m
  · exact hinsert _
  · exact ⟨f, hf, (h.found hseq hi hf).1⟩

/-- A datagram leaves its flow in the table, with the time of the datagram. -/
theorem udp_addPacket (hseq : S.config.workerThreadsPerQueue = 0) {packets : List IPv4Packet}
    (h : Sequential S packets m) (hup : m.shutdown = false) {p : IPv4Packet}
    (hudp : p.transport = .udp) :
    (m.addPacket S p).flows (S.flowHash p.tuple) = some (m.getFlow S none p).2 ∧
      ∃ f, (m.addPacket S p).heap[(m.getFlow S none p).2]? = some f ∧
        f.lastPacketTimestamp = p.timestamp := by
  have hm := h.quiet hup
  obtain ⟨f, hf, hopen⟩ := getFlow_open hseq h p
  obtain ⟨htime, hopen'⟩ := f.addPacket_udp S hudp hopen
  have hflow : ((m.getFlow S none p).1.applyPacket S (m.getFlow S none p).2 p).heap[
      (m.getFlow S none p).2]? = some (f.addPacket S p) := by
    rw [heap_applyPacket, if_pos rfl, hf, Option.map_some]
  rw [addPacket_eq hm, closeFlow_eq ((hm.getFlow none p).applyPacket _ p) hflow, hopen',
    if_neg Bool.false_ne_true]
  refine ⟨?_, f.addPacket S p, hflow, htime⟩
  rw [(touches_applyPacket S _ _ p).flows]
  exact getFlow_flows hm.toIndexed none p

omit [Double R] in
/-- A datagram finds a flow too old exactly when the gap is longer than the timeout. -/
theorem replaces_udp_iff {f : Flow R} {p : IPv4Packet} (hudp : p.transport = .udp)
    (hidle : f.havePktsInQueue = false) :
    replaces S f p = true ↔
      (S.config.udpFlowTimeout.toNat : Int) < p.timestamp.sec - f.lastPacketTimestamp.sec := by
  unfold replaces
  simp only [hudp, hidle, Bool.not_false, Bool.true_and, decide_eq_true_eq]

/-! ## Runs with a log -/

/-- Calls of `addPacket` and `finished`, with each packet and the flow it was added to. -/
inductive Logged (S : Setup R) : List (IPv4Packet × FlowId) → FlowManager R → Prop where
  | init : Logged S [] FlowManager.init
  | addPacket {log : List (IPv4Packet × FlowId)} {m : FlowManager R} {p : IPv4Packet} {i : FlowId} :
      Logged S log m → m.appliedTo S p = some i → Logged S (log ++ [(p, i)]) (m.addPacket S p)
  | finished {log : List (IPv4Packet × FlowId)} {m m' : FlowManager R} {order : List UInt32} :
      Logged S log m → m.finished order = some m' → Logged S log m'

omit [Double R] in
theorem sweepEntry_shutdown {h : UInt32} {m' : FlowManager R} (hentry : m.sweepEntry h = some m') :
    m'.shutdown = m.shutdown := by
  rcases sweepEntry_cases hentry with ⟨-, rfl⟩ | ⟨i, -, rfl⟩
  · rfl
  · rw [erase_shutdown, notifyFlowFinished_shutdown]

omit [Double R] in
theorem finished_shutdown {order : List UInt32} {m' : FlowManager R}
    (h : m.finished order = some m') : m'.shutdown = m.shutdown :=
  finished_invariant (I := fun m' => m'.shutdown = m.shutdown) rfl
    (fun _ _ _ hold hentry => (sweepEntry_shutdown hentry).trans hold) h

/-- A run without `shutdown` has a log. -/
theorem logged_of_sequential {packets : List IPv4Packet} (h : Sequential S packets m)
    (hup : m.shutdown = false) : ∃ log, Logged S log m ∧ log.map Prod.fst = packets := by
  induction h with
  | init => exact ⟨[], .init, rfl⟩
  | @addPacket packets m p hm ih =>
    cases hdown : m.shutdown with
    | true =>
      rw [addPacket_of_shutdown hdown, hdown] at hup
      exact absurd hup.symm Bool.false_ne_true
    | false =>
      obtain ⟨log, hlog, hpackets⟩ := ih hdown
      exact ⟨_, hlog.addPacket (appliedTo_eq (hm.quiet hdown) p),
        by rw [List.map_append, hpackets, List.map_singleton]⟩
  | finished _ hfinished ih =>
    rw [finished_shutdown hfinished] at hup
    obtain ⟨log, hlog, hpackets⟩ := ih hup
    exact ⟨log, hlog.finished hfinished, hpackets⟩
  | shutdown _ _ => exact absurd hup.symm Bool.false_ne_true

theorem Logged.sequential {log : List (IPv4Packet × FlowId)} (h : Logged S log m) :
    Sequential S (log.map Prod.fst) m ∧ m.shutdown = false := by
  induction h with
  | init => exact ⟨.init, rfl⟩
  | @addPacket log m p i _ happlied ih =>
    refine ⟨by rw [List.map_append]; exact ih.1.addPacket p, ?_⟩
    exact ((ih.1.quiet ih.2).addPacket p).running
  | finished _ hfinished ih =>
    exact ⟨ih.1.finished hfinished, (finished_shutdown hfinished).trans ih.2⟩

/-! ## The log and the counters -/

/-- How many packets the flow has taken. -/
def taken (log : List (IPv4Packet × FlowId)) (i : FlowId) : Nat := (log.map Prod.snd).count i

theorem taken_append (log : List (IPv4Packet × FlowId)) (p : IPv4Packet) (i j : FlowId) :
    taken (log ++ [(p, i)]) j = taken log j + if i = j then 1 else 0 := by
  unfold taken
  rw [List.map_append, List.count_append, List.map_singleton, List.count_singleton]
  simp only [beq_iff_eq]

/-- The counters of the flow, which are 32 bits wide, and the state that it is in. -/
structure Counted (log : List (IPv4Packet × FlowId)) (i : FlowId) (f : Flow R) : Prop where
  overall : f.overallPktCount = UInt32.ofNat (taken log i)
  pos : 0 < taken log i
  data : ∃ d ≤ taken log i, f.pktCount = UInt32.ofNat d
  started : f.flowState ≠ .new
  running : f.flowState ≠ .finishing

omit [Double R] in
theorem Counted.kept {log : List (IPv4Packet × FlowId)} {i : FlowId} {f g : Flow R}
    (h : Counted log i f) (hkept : Kept f g) : Counted log i g := by
  rcases hkept with rfl | rfl
  · exact h
  · exact ⟨h.overall, h.pos, h.data, FlowState.noConfusion, FlowState.noConfusion⟩

/-- A packet is added. -/
theorem counted_addPacket {log : List (IPv4Packet × FlowId)} {j : FlowId} {f : Flow R}
    (hoverall : f.overallPktCount = UInt32.ofNat (taken log j))
    (hdata : ∃ d ≤ taken log j, f.pktCount = UInt32.ofNat d) (hrunning : f.flowState ≠ .finishing)
    (p : IPv4Packet) : Counted (log ++ [(p, j)]) j (f.addPacket S p) := by
  obtain ⟨d, hd, hpkt⟩ := hdata
  have hcount := f.addPacket_overallPktCount S p
  have hcases := f.addPacket_pktCount S p
  have htaken : taken (log ++ [(p, j)]) j = taken log j + 1 := by
    rw [taken_append, if_pos rfl]
  refine ⟨?_, by rw [htaken]; exact Nat.succ_pos _, ?_, f.addPacket_ne_new S p,
    f.addPacket_ne_finishing S p hrunning⟩
  · rw [hcount, hoverall, htaken, UInt32.ofNat_add]
    rfl
  · rw [htaken]
    rcases hcases with heq | heq
    · exact ⟨d, Nat.le_succ_of_le hd, heq.trans hpkt⟩
    · refine ⟨d + 1, Nat.succ_le_succ hd, ?_⟩
      rw [heq, hpkt, UInt32.ofNat_add]
      rfl

/-- **The counters of a flow are those of the log.** -/
theorem counted_of_logged (hseq : S.config.workerThreadsPerQueue = 0)
    {log : List (IPv4Packet × FlowId)} (h : Logged S log m) :
    (∀ e ∈ log, e.2 < m.heap.length) ∧
      ∀ (i : FlowId) (f : Flow R), m.heap[i]? = some f → Counted log i f := by
  induction h with
  | init => exact ⟨fun e he => absurd he List.not_mem_nil, fun i f hf => by cases hf⟩
  | @addPacket log m p i hlog happlied ih =>
    obtain ⟨hids, hcounted⟩ := ih
    obtain ⟨hrun, hup⟩ := hlog.sequential
    have hm := hrun.quiet hup
    constructor
    · rw [addPacket_length hm]
      intro e he
      rcases List.mem_append.mp he with he | he
      · exact Nat.lt_of_lt_of_le (hids e he) (length_getFlow none p)
      · rw [List.mem_singleton.mp he]
        rw [appliedTo_eq hm] at happlied
        cases happlied
        exact lt_length_of_hashAt
          ((hm.getFlow none p).valid _ _ (getFlow_flows hm.toIndexed none p))
    · intro j g hg
      rcases heap_addPacket hm hseq p hg with ⟨hne, f, hf, hkept⟩ | ⟨heq, f, hkept, hfound⟩
      · have hij : i ≠ j := fun h => hne (happlied.trans (congrArg some h))
        have hsame : taken (log ++ [(p, i)]) j = taken log j := by
          rw [taken_append, if_neg hij, Nat.add_zero]
        have hold := (hcounted j f hf).kept hkept
        exact ⟨hsame ▸ hold.overall, hsame ▸ hold.pos, hsame ▸ hold.data, hold.started,
          hold.running⟩
      · rw [happlied] at heq
        cases heq
        refine Counted.kept ?_ hkept
        rcases hfound with ⟨f₀, hf₀, hkept₀⟩ | ⟨hnew, rfl⟩
        · have hold := (hcounted _ f₀ hf₀).kept hkept₀
          exact counted_addPacket hold.overall hold.data hold.running p
        · -- nothing was logged for a flow that did not exist
          have hnone : taken log i = 0 := by
            refine List.count_eq_zero.mpr fun hmem => ?_
            obtain ⟨e, he, rfl⟩ := List.mem_map.mp hmem
            exact absurd hnew (Nat.ne_of_lt (hids e he))
          refine counted_addPacket ?_ ⟨0, Nat.zero_le _, rfl⟩ FlowState.noConfusion p
          rw [hnone]
          rfl
  | @finished log m m' order hlog hfinished ih =>
    obtain ⟨hids, hcounted⟩ := ih
    obtain ⟨hlength, hheap⟩ := heap_finished hfinished
    refine ⟨fun e he => hlength.symm ▸ hids e he, fun j g hg => ?_⟩
    obtain ⟨f, hf, hkept⟩ := hheap j g hg
    exact (hcounted j f hf).kept hkept

/-- The packets of a flow are those of the log, and they are all. -/
theorem sum_taken {log : List (IPv4Packet × FlowId)} {n : Nat} (h : ∀ e ∈ log, e.2 < n) :
    ((List.range n).map (taken log)).sum = log.length := by
  have hsum := Multiset.sum_count_eq_card (s := Finset.range n)
    (m := ((log.map Prod.snd : List FlowId) : Multiset FlowId)) (fun a ha => by
      obtain ⟨e, he, rfl⟩ := List.mem_map.mp (Multiset.mem_coe.mp ha)
      exact Finset.mem_range.mpr (h e he))
  simp only [Multiset.coe_card, List.length_map, Multiset.coe_count] at hsum
  exact hsum

omit [Double R] in
/-- Numbers that agree modulo `n` have sums that do. -/
theorem sum_heap_mod {log : List (IPv4Packet × FlowId)}
    (h : ∀ (i : FlowId) (f : Flow R), m.heap[i]? = some f →
      f.overallPktCount = UInt32.ofNat (taken log i)) :
    (m.heap.map fun f => f.overallPktCount.toNat).sum % 2 ^ 32 =
      ((List.range m.heap.length).map (taken log)).sum % 2 ^ 32 := by
  have hheap : (m.heap.map fun f => f.overallPktCount.toNat) =
      (List.range m.heap.length).map fun i => taken log i % 2 ^ 32 := by
    apply List.ext_getElem
    · rw [List.length_map, List.length_map, List.length_range]
    · intro i hi hi'
      rw [List.getElem_map, List.getElem_map, List.getElem_range,
        h i _ (List.getElem?_eq_getElem _), UInt32.toNat_ofNat']
  rw [hheap, List.sum_nat_mod ((List.range m.heap.length).map (taken log)), List.map_map]
  rfl

/-- **The table between two calls, and where the packets are.** Every entry of the table is a flow
with that hash, without packets on the way and neither new nor closed. There is a log that gives
each packet to one flow; a flow's counters are, in 32 bits, the numbers of the packets and of the
data packets that it took, and all packets are counted. -/
theorem table_of_run (hseq : S.config.workerThreadsPerQueue = 0) {packets : List IPv4Packet}
    (h : Sequential S packets m) (hup : m.shutdown = false) :
    (∀ (k : UInt32) (i : FlowId), m.flows k = some i → ∃ f, m.heap[i]? = some f ∧ f.hash = k ∧
      S.flowHash f.firstPacketTuple = k ∧ f.havePktsInQueue = false ∧ f.pktsInQueue = 0 ∧
      (f.flowState = .establishing ∨ f.flowState = .established)) ∧
    ∃ log, Logged S log m ∧ log.map Prod.fst = packets ∧
      (∀ (i : FlowId) (f : Flow R), m.heap[i]? = some f → 0 < taken log i ∧
        f.overallPktCount = UInt32.ofNat (taken log i) ∧
        (∃ d ≤ taken log i, f.pktCount = UInt32.ofNat d) ∧
        (taken log i < 2 ^ 32 → 1 ≤ f.overallPktCount ∧ f.pktCount ≤ f.overallPktCount)) ∧
      ((List.range m.heap.length).map (taken log)).sum = packets.length ∧
      (m.heap.map fun f => f.overallPktCount.toNat).sum % 2 ^ 32 = packets.length % 2 ^ 32 := by
  obtain ⟨log, hlog, hpackets⟩ := logged_of_sequential h hup
  obtain ⟨hids, hcounted⟩ := counted_of_logged hseq hlog
  have hsum := sum_taken hids
  rw [← List.length_map (f := Prod.fst), hpackets] at hsum
  constructor
  · intro k i hi
    obtain ⟨f, hf, hhash⟩ := exists_of_hashAt (h.sound.1.valid k i hi)
    obtain ⟨hopen, hidle⟩ := h.found hseq hi hf
    have hcount := hcounted i f hf
    refine ⟨f, hf, hhash, (h.sound.1.keyed i f hf).symm.trans hhash, hidle, h.sound.2.1 i f hf, ?_⟩
    have hstarted := hcount.started
    have hrunning := hcount.running
    unfold Flow.isFinished at hopen
    cases hs : f.flowState <;> simp_all
  · refine ⟨log, hlog, hpackets, fun i f hf => ?_, hsum, ?_⟩
    · obtain ⟨hoverall, hpos, ⟨d, hd, hdata⟩, -, -⟩ := hcounted i f hf
      refine ⟨hpos, hoverall, ⟨d, hd, hdata⟩, fun hlt => ?_⟩
      rw [hoverall, hdata, UInt32.le_iff_toNat_le, UInt32.le_iff_toNat_le, UInt32.toNat_ofNat',
        UInt32.toNat_ofNat', Nat.mod_eq_of_lt hlt, Nat.mod_eq_of_lt (Nat.lt_of_le_of_lt hd hlt)]
      exact ⟨hpos, hd⟩
    · rw [sum_heap_mod fun i f hf => (hcounted i f hf).overall, hsum]

/-- Two datagrams of one connection, in the flow that the first one opens. -/
theorem twoDatagrams_counted :
    ((addPackets (Setup.initial : Setup ℚ) [Flow.oneByte, Flow.oneByte]).heap.map
      fun f => f.overallPktCount.toNat).sum % 2 ^ 32 = 2 % 2 ^ 32 := by
  obtain ⟨-, log, -, -, -, -, hsum⟩ := table_of_run (S := (Setup.initial : Setup ℚ)) rfl
    (sequential_addPackets _ [Flow.oneByte, Flow.oneByte]) rfl
  exact hsum

/-- A datagram that is repeated stays with its flow. -/
theorem flows_repeated {S : Setup R} (hseq : S.config.workerThreadsPerQueue = 0) {p : IPv4Packet}
    (hudp : p.transport = .udp) {n : Nat} (hn : 0 < n) :
    (addPackets S (List.replicate n p)).flows (S.flowHash p.tuple) = some 0 ∧
      (addPackets S (List.replicate n p)).heap.length = 1 ∧
      ∃ f, (addPackets S (List.replicate n p)).heap[0]? = some f ∧
        f.lastPacketTimestamp = p.timestamp := by
  have hrun := fun k => sequential_addPackets S (List.replicate k p)
  have hquiet := fun k => quiet_addPackets S (List.replicate k p)
  have hstep : ∀ k, ((addPackets S (List.replicate k p)).getFlow S none p).2 = 0 →
      ((addPackets S (List.replicate k p)).getFlow S none p).1.heap.length = 1 →
      (addPackets S (List.replicate (k + 1) p)).flows (S.flowHash p.tuple) = some 0 ∧
        (addPackets S (List.replicate (k + 1) p)).heap.length = 1 ∧
        ∃ f, (addPackets S (List.replicate (k + 1) p)).heap[0]? = some f ∧
          f.lastPacketTimestamp = p.timestamp := by
    intro k hid hlength
    obtain ⟨hflows, hflow⟩ := udp_addPacket hseq (hrun k) (hquiet k).running hudp
    rw [List.replicate_succ', addPackets_append, addPacket_length (hquiet k), hlength]
    rw [hid] at hflows hflow
    exact ⟨hflows, rfl, hflow⟩
  induction n with
  | zero => exact absurd hn (Nat.lt_irrefl 0)
  | succ n ih =>
    by_cases hn' : 0 < n
    · obtain ⟨hflows, hlength, f, hf, htime⟩ := ih hn'
      have hidle := ((hrun n).found hseq hflows hf).2
      have hstays : replaces S f p = false := by
        rw [← Bool.not_eq_true, replaces_udp_iff hudp hidle, htime]
        omega
      have hget := getFlow_found none hflows hf
      rw [hstays, if_neg Bool.false_ne_true] at hget
      apply hstep n
      · rw [hget]
      · rw [hget]
        exact hlength
    · obtain rfl : n = 0 := Nat.eq_zero_of_not_pos hn'
      apply hstep 0
      · exact insertFlow_snd S none init p
      · exact congrArg List.length (insertFlow_heap S none init p)

/-- After as many datagrams as 32 bits can count, the flow in the table has counted none. -/
theorem counter_wraps :
    ∃ m f, Sequential (Setup.initial : Setup ℚ) (List.replicate (2 ^ 32) Flow.oneByte) m ∧
      m.shutdown = false ∧ m.flows ((Setup.initial : Setup ℚ).flowHash Flow.oneByte.tuple) =
        some 0 ∧ m.heap = [f] ∧ f.overallPktCount = 0 ∧
      (m.heap.map fun f => f.overallPktCount.toNat).sum ≠
        (List.replicate (2 ^ 32) Flow.oneByte).length := by
  obtain ⟨hflows, hlength, f, hf, -⟩ := flows_repeated (S := (Setup.initial : Setup ℚ)) rfl
    (p := Flow.oneByte) rfl (n := 2 ^ 32) (Nat.two_pow_pos 32)
  have hrun := sequential_addPackets (Setup.initial : Setup ℚ)
    (List.replicate (2 ^ 32) Flow.oneByte)
  have hup := (quiet_addPackets (Setup.initial : Setup ℚ)
    (List.replicate (2 ^ 32) Flow.oneByte)).running
  generalize addPackets (Setup.initial : Setup ℚ) (List.replicate (2 ^ 32) Flow.oneByte) = m at *
  obtain ⟨log, hlog, hpackets⟩ := logged_of_sequential hrun hup
  obtain ⟨hids, hcounted⟩ := counted_of_logged rfl hlog
  have hheap : m.heap = [f] := by
    obtain ⟨g, hg⟩ := List.length_eq_one_iff.mp hlength
    rw [hg] at hf ⊢
    exact congrArg (fun g => [g]) (Option.some.inj hf)
  have htaken : taken log 0 = 2 ^ 32 := by
    have hsum := sum_taken hids
    rw [hlength, ← List.length_map (f := Prod.fst), hpackets, List.length_replicate] at hsum
    exact hsum
  have hzero : f.overallPktCount = 0 := by
    rw [(hcounted 0 f hf).overall, htaken]
    rfl
  refine ⟨m, f, hrun, hup, hflows, hheap, hzero, ?_⟩
  rw [hheap, List.length_replicate, List.map_singleton, List.sum_singleton, hzero]
  decide

end FlowManager

end Vsid
