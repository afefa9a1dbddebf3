import Vsid.Laws.Ledger

/-!
# Packets and the connection that they are counted for

A flow counts the packets that it took. Without collisions among the packets that were given, every
packet was taken by a flow of its own connection (`attributed_of_logged`), so that the counters of
the flows of a connection add up to the number of its packets (`sum_of_connection`).
-/

set_option autoImplicit false

namespace Vsid

namespace FlowManager

variable {R : Type} [Double R] {S : Setup R} {m : FlowManager R}

/-- No two connections among the packets have one hash. -/
def NoCollisions (S : Setup R) (packets : List IPv4Packet) : Prop :=
  ∀ p ∈ packets, CollisionFree S packets p.tuple

omit [Double R] in
theorem NoCollisions.init {packets : List IPv4Packet} {p : IPv4Packet}
    (h : NoCollisions S (packets ++ [p])) : NoCollisions S packets := fun q hq r hr =>
  h q (List.mem_append_left [p] hq) r (List.mem_append_left [p] hr)

/-- The packet and the flow are of one connection. -/
def Attributed (m : FlowManager R) (e : IPv4Packet × FlowId) : Prop :=
  ∃ f, m.heap[e.2]? = some f ∧ f.firstPacketTuple.sameFlow e.1.tuple = true

omit [Double R] in
theorem Kept.firstPacketTuple {f g : Flow R} (h : Kept f g) :
    g.firstPacketTuple = f.firstPacketTuple := by
  rcases h with rfl | rfl <;> rfl

omit [Double R] in
/-- Flows stay, and what they were opened by stays. -/
theorem Attributed.mono {m' : FlowManager R} {e : IPv4Packet × FlowId} (h : m.Attributed e)
    (hlength : m.heap.length ≤ m'.heap.length)
    (hheap : ∀ (f g : Flow R), m.heap[e.2]? = some f → m'.heap[e.2]? = some g →
      g.firstPacketTuple = f.firstPacketTuple) : m'.Attributed e := by
  obtain ⟨f, hf, hsame⟩ := h
  have hlt : e.2 < m'.heap.length := (List.getElem?_eq_some_iff.mp hf).1.trans_le hlength
  have hg : m'.heap[e.2]? = some m'.heap[e.2] := List.getElem?_eq_getElem hlt
  exact ⟨_, hg, by rw [hheap f _ hf hg]; exact hsame⟩

/-- A packet leaves every flow that was there with the tuple it was opened by. -/
theorem tuple_addPacket (hm : Quiet S m) (hseq : S.config.workerThreadsPerQueue = 0)
    (p : IPv4Packet) {j : FlowId} {f g : Flow R} (hf : m.heap[j]? = some f)
    (hg : (m.addPacket S p).heap[j]? = some g) : g.firstPacketTuple = f.firstPacketTuple := by
  rcases heap_addPacket hm hseq p hg with ⟨-, f', hf', hkept⟩ | ⟨-, f', hkept, hfound⟩
  · rw [hf] at hf'
    cases hf'
    exact hkept.firstPacketTuple
  · rw [hkept.firstPacketTuple, f'.addPacket_firstPacketTuple]
    rcases hfound with ⟨f₀, hf₀, hkept₀⟩ | ⟨hnew, -⟩
    · rw [hf] at hf₀
      cases hf₀
      exact hkept₀.firstPacketTuple
    · exact absurd hnew (Nat.ne_of_lt (List.getElem?_eq_some_iff.mp hf).1)

/-- The flow that takes a packet is one of the packet's connection. -/
theorem attributed_addPacket (hm : Quiet S m) (hseq : S.config.workerThreadsPerQueue = 0)
    {p : IPv4Packet} {i : FlowId} (happlied : m.appliedTo S p = some i)
    (hserves : (m.getFlow S none p).1.Serves i p) : (m.addPacket S p).Attributed (p, i) := by
  obtain ⟨f₁, hf₁, hsame, -⟩ := hserves
  have hlt : i < (m.addPacket S p).heap.length := by
    rw [addPacket_length hm]
    exact (List.getElem?_eq_some_iff.mp hf₁).1
  refine ⟨_, List.getElem?_eq_getElem hlt, ?_⟩
  rcases heap_addPacket hm hseq p (List.getElem?_eq_getElem hlt) with ⟨hne, -⟩ |
    ⟨-, f, hkept, hfound⟩
  · exact absurd happlied hne
  · rw [hkept.firstPacketTuple, f.addPacket_firstPacketTuple]
    rcases hfound with ⟨f₀, hf₀, hkept₀⟩ | ⟨-, rfl⟩
    · -- the flow was there, and the look-up kept its tuple
      rcases heap_getFlow hm.toIndexed hseq p hf₁ with ⟨f₂, hf₂, hkept₂⟩ | ⟨hnew, -⟩
      · rw [hf₀] at hf₂
        cases hf₂
        rw [hkept₀.firstPacketTuple, ← hkept₂.firstPacketTuple]
        exact hsame
      · exact absurd hnew (Nat.ne_of_lt (List.getElem?_eq_some_iff.mp hf₀).1)
    · exact IPv4Tuple.sameFlow_refl _

/-- **Every packet was taken by a flow of its own connection.** -/
theorem attributed_of_logged (hseq : S.config.workerThreadsPerQueue = 0)
    {log : List (IPv4Packet × FlowId)} (h : Logged S log m)
    (hfree : NoCollisions S (log.map Prod.fst)) : ∀ e ∈ log, m.Attributed e := by
  induction h with
  | init => exact fun e he => absurd he List.not_mem_nil
  | @addPacket log m p i hlog happlied ih =>
    rw [List.map_append, List.map_singleton] at hfree
    obtain ⟨hrun, hup⟩ := hlog.sequential
    have hm := hrun.quiet hup
    intro e he
    rcases List.mem_append.mp he with he | he
    · refine (ih hfree.init e he).mono ?_ fun f g => tuple_addPacket hm hseq p
      rw [addPacket_length hm]
      exact length_getFlow none p
    · rw [List.mem_singleton.mp he]
      have hserves := getFlow_sameFlow hm.toIndexed hrun.sound.2.2 none (p := p)
        fun q hq => hfree p (List.mem_append_right _ List.mem_cons_self) q
          (List.mem_append_left [p] hq)
      refine attributed_addPacket hm hseq happlied ?_
      rw [appliedTo_eq hm] at happlied
      cases happlied
      exact hserves
  | finished hlog hfinished ih =>
    obtain ⟨hlength, hheap⟩ := heap_finished hfinished
    intro e he
    refine (ih hfree e he).mono hlength.ge fun f g hf hg => ?_
    obtain ⟨f', hf', hkept⟩ := hheap e.2 g hg
    rw [hf] at hf'
    cases hf'
    exact hkept.firstPacketTuple

omit [Double R] in
/-- The flows of a connection take the packets of the connection. -/
theorem taken_filter {log : List (IPv4Packet × FlowId)} (h : ∀ e ∈ log, m.Attributed e)
    (t : IPv4Tuple) (i : FlowId) :
    taken (log.filter fun e => e.1.tuple.sameFlow t) i =
      if (m.heap[i]?).any fun f => f.firstPacketTuple.sameFlow t then taken log i else 0 := by
  induction log with
  | nil => exact (ite_self 0).symm
  | cons e log ih =>
    obtain ⟨he, hrest⟩ := List.forall_mem_cons.mp h
    have hcons : ∀ l, taken (e :: l) i = taken l i + if e.2 = i then 1 else 0 := by
      intro l
      unfold taken
      rw [List.map_cons, List.count_cons]
      simp only [beq_iff_eq]
    obtain ⟨f, hf, hsame⟩ := he
    have hof : f.firstPacketTuple.sameFlow t = e.1.tuple.sameFlow t := by
      rw [Bool.eq_iff_iff]
      exact ⟨fun hft => IPv4Tuple.sameFlow_trans (IPv4Tuple.sameFlow_symm hsame) hft,
        fun het => IPv4Tuple.sameFlow_trans hsame het⟩
    by_cases hi : e.2 = i
    · subst hi
      rw [hf, Option.any_some, hof] at ih ⊢
      cases ht : e.1.tuple.sameFlow t with
      | true =>
        rw [List.filter_cons_of_pos (by exact ht), hcons, hcons, if_pos rfl, if_pos rfl, ih hrest,
          ht, if_pos rfl]
      | false =>
        rw [List.filter_cons_of_neg (by rw [ht]; exact Bool.false_ne_true), ih hrest, ht,
          if_neg Bool.false_ne_true, if_neg Bool.false_ne_true]
    · rw [hcons, if_neg hi, Nat.add_zero, ← ih hrest]
      cases ht : e.1.tuple.sameFlow t with
      | true => rw [List.filter_cons_of_pos (by exact ht), hcons, if_neg hi, Nat.add_zero]
      | false => rw [List.filter_cons_of_neg (by rw [ht]; exact Bool.false_ne_true)]

omit [Double R] in
/-- The sum over some of the flows, by their places in the heap. -/
theorem sum_filter_heap (P : Flow R → Bool) {count : Flow R → Nat} {n : FlowId → Nat}
    (h : ∀ (i : FlowId) (f : Flow R), m.heap[i]? = some f → count f = n i) :
    ((m.heap.filter P).map count).sum =
      ((List.range m.heap.length).map fun i => if (m.heap[i]?).any P then n i else 0).sum := by
  have hplaces : (m.heap.filter P).map count =
      ((List.range m.heap.length).filter fun i => (m.heap[i]?).any P).map n := by
    have hmap := congrArg (List.map fun x : Option (Flow R) => (x.map count).getD 0)
      (Keyed.map_filter_range m.heap P)
    rw [List.map_map, List.map_map] at hmap
    refine Eq.trans (Eq.symm hmap) (List.map_congr_left fun i hi => ?_)
    obtain ⟨f, hf, -⟩ := (Option.any_eq_true _ _).mp (List.mem_filter.mp hi).2
    show ((m.heap[i]?).map count).getD 0 = n i
    rw [hf, Option.map_some, Option.getD_some, h i f hf]
  rw [hplaces, List.sum_map_ite]
  simp only [Bool.decide_eq_true, List.map_const', List.sum_replicate, nsmul_zero, Nat.add_zero]

/-- **The counters of the flows of a connection add up to its packets**, in 32 bits each. -/
theorem sum_of_connection (hseq : S.config.workerThreadsPerQueue = 0) {packets : List IPv4Packet}
    (h : Sequential S packets m) (hup : m.shutdown = false) (hfree : NoCollisions S packets)
    (t : IPv4Tuple) :
    ((m.heap.filter fun f => f.firstPacketTuple.sameFlow t).map
        fun f => f.overallPktCount.toNat).sum % 2 ^ 32 =
      (packets.filter fun p => p.tuple.sameFlow t).length % 2 ^ 32 := by
  obtain ⟨log, hlog, rfl⟩ := logged_of_sequential h hup
  have hattributed := attributed_of_logged hseq hlog hfree
  obtain ⟨hids, hcounted⟩ := counted_of_logged hseq hlog
  have hown : ∀ e ∈ log.filter fun e => e.1.tuple.sameFlow t, e.2 < m.heap.length :=
    fun e he => hids e (List.mem_filter.mp he).1
  have hlength : (log.filter fun e => e.1.tuple.sameFlow t).length =
      ((log.map Prod.fst).filter fun p => p.tuple.sameFlow t).length := by
    rw [List.filter_map, List.length_map]
    rfl
  have hwrapped : ∀ (i : FlowId) (f : Flow R), m.heap[i]? = some f →
      f.overallPktCount.toNat = taken log i % 2 ^ 32 := by
    intro i f hf
    rw [(hcounted i f hf).overall, UInt32.toNat_ofNat']
  rw [sum_filter_heap (fun f => f.firstPacketTuple.sameFlow t) hwrapped, ← hlength,
    ← sum_taken hown, List.sum_nat_mod, List.sum_nat_mod (List.map (taken _) _),
    List.map_map, List.map_map]
  congr 2
  apply List.map_congr_left
  intro i _
  simp only [Function.comp_apply, taken_filter hattributed]
  split
  · exact Nat.mod_mod _ _
  · rfl

end FlowManager

end Vsid
