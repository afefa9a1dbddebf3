import Vsid.Laws.Connection

/-!
# Hash collisions

The table is keyed by a hash of 32 bits, and nothing compares tuples after a look-up. What `getFlow`
returns is a flow of the packet's own connection as long as no packet of another connection was
given under the same hash: `getFlow_sameFlow`. The lemma is about any table that satisfies
`Indexed`, in either mode.

`Sequential` are the tables that `addPacket` and `finished` lead to in non-threaded mode, looked at
wherever `getFlow` is called.
-/

set_option autoImplicit false

namespace Vsid

variable {R : Type}

theorem Setup.flowHash_sameFlow (S : Setup R) {t u : IPv4Tuple} (h : t.sameFlow u = true) :
    S.flowHash t = S.flowHash u := by
  unfold Setup.flowHash
  rw [Ipv4FlowHasher.input_sameFlow h]

namespace FlowManager

/-- No packet of another connection has the hash of `t`. -/
def CollisionFree (S : Setup R) (packets : List IPv4Packet) (t : IPv4Tuple) : Prop :=
  ∀ p ∈ packets, S.flowHash p.tuple = S.flowHash t → p.tuple.sameFlow t = true

instance (S : Setup R) (packets : List IPv4Packet) (t : IPv4Tuple) :
    Decidable (CollisionFree S packets t) :=
  inferInstanceAs
    (Decidable (∀ p ∈ packets, S.flowHash p.tuple = S.flowHash t → p.tuple.sameFlow t = true))

/-- Every flow was opened by one of the packets. -/
def OpenedBy (packets : List IPv4Packet) (m : FlowManager R) : Prop :=
  m.Every fun f => ∃ p ∈ packets, f.firstPacketTuple = p.tuple

theorem OpenedBy.mono {packets packets' : List IPv4Packet} {m : FlowManager R}
    (h : OpenedBy packets m) (hsub : ∀ p ∈ packets, p ∈ packets') : OpenedBy packets' m := by
  intro i f hf
  obtain ⟨p, hp, htuple⟩ := h i f hf
  exact ⟨p, hsub p hp, htuple⟩

/-- The flow is one of the packet's connection. -/
def Serves (m : FlowManager R) (i : FlowId) (p : IPv4Packet) : Prop :=
  ∃ f, m.heap[i]? = some f ∧ f.firstPacketTuple.sameFlow p.tuple = true ∧
    f.packetDirection p ≠ .unknown

/-- Without a collision, a flow that was created under the packet's hash is one of its
connection. -/
theorem serves_of_hashAt {S : Setup R} {m : FlowManager R} {packets : List IPv4Packet}
    (hm : Indexed S m) (hopened : OpenedBy packets m) {p : IPv4Packet}
    (hfree : CollisionFree S packets p.tuple) {i : FlowId}
    (hi : m.hashAt i = some (S.flowHash p.tuple)) : m.Serves i p := by
  obtain ⟨f, hf, hhash⟩ := exists_of_hashAt hi
  obtain ⟨q, hq, htuple⟩ := hopened i f hf
  have hsame : f.firstPacketTuple.sameFlow p.tuple = true := by
    rw [htuple]
    apply hfree q hq
    rw [← htuple, ← hm.keyed i f hf, hhash]
  exact ⟨f, hf, hsame, (IPv4Tuple.packetDirection_ne_unknown _ _).mpr hsame⟩

variable [Double R]

theorem OpenedBy.insertFlow {S : Setup R} {m : FlowManager R} {packets : List IPv4Packet}
    (h : OpenedBy packets m) (self : Option Nat) {p : IPv4Packet} (hp : p ∈ packets) :
    OpenedBy packets (m.insertFlow S self p).1 :=
  Every.insertFlow h self p ⟨p, hp, rfl⟩

theorem OpenedBy.getFlow {S : Setup R} {m : FlowManager R} {packets : List IPv4Packet}
    (h : OpenedBy packets m) (self : Option Nat) {p : IPv4Packet} (hp : p ∈ packets) :
    OpenedBy packets (m.getFlow S self p).1 :=
  Every.getFlow h self p (fun _ hf => hf) fun _ => ⟨p, hp, rfl⟩

/-- **A look-up finds a flow of the packet's own connection**, if no other has its hash. -/
theorem getFlow_sameFlow {S : Setup R} {m : FlowManager R} {packets : List IPv4Packet}
    (hm : Indexed S m) (hopened : OpenedBy packets m) (self : Option Nat) {p : IPv4Packet}
    (hfree : CollisionFree S packets p.tuple) :
    (m.getFlow S self p).1.Serves (m.getFlow S self p).2 p := by
  have hm' := hm.getFlow self p
  have hopened' : OpenedBy (p :: packets) (m.getFlow S self p).1 :=
    (hopened.mono fun _ => List.mem_cons_of_mem p).getFlow self List.mem_cons_self
  have hfree' : CollisionFree S (p :: packets) p.tuple := by
    intro q hq hhash
    rcases List.mem_cons.mp hq with rfl | hq
    · exact IPv4Tuple.sameFlow_refl _
    · exact hfree q hq hhash
  exact serves_of_hashAt hm' hopened' hfree' (hm'.valid _ _ (getFlow_flows hm self p))

/-! ## Non-threaded mode -/

/-- The tables that calls of `addPacket` and `finished` lead to, with the packets given so far. -/
inductive Sequential (S : Setup R) : List IPv4Packet → FlowManager R → Prop where
  | init : Sequential S [] FlowManager.init
  | addPacket {packets : List IPv4Packet} {m : FlowManager R} (p : IPv4Packet) :
      Sequential S packets m → Sequential S (packets ++ [p]) (m.addPacket S p)
  | finished {packets : List IPv4Packet} {m m' : FlowManager R} {order : List UInt32} :
      Sequential S packets m → m.finished order = some m' → Sequential S packets m'
  | shutdown {packets : List IPv4Packet} {m : FlowManager R} :
      Sequential S packets m → Sequential S packets { m with shutdown := true }

omit [Double R] in
theorem Indexed.finished {S : Setup R} {m m' : FlowManager R} {order : List UInt32}
    (hm : Indexed S m) (h : m.finished order = some m') : Indexed S m' :=
  finished_invariant hm (fun _ _ _ hm hentry => hm.sweepEntry hentry) h

/-- Between two calls the table is well formed, no packet is on its way, and every flow was opened
by a packet that was given. -/
theorem Sequential.sound {S : Setup R} {packets : List IPv4Packet} {m : FlowManager R}
    (h : Sequential S packets m) :
    Indexed S m ∧ (∀ (i : FlowId) (f : Flow R), m.heap[i]? = some f → f.pktsInQueue = 0) ∧
      OpenedBy packets m := by
  induction h with
  | init => exact ⟨Indexed.init S, fun i f hf => (by cases hf), fun i f hf => (by cases hf)⟩
  | @addPacket packets m p _ ih =>
    obtain ⟨hindexed, hidle, hopened⟩ := ih
    have hwider : OpenedBy (packets ++ [p]) m := hopened.mono fun _ => List.mem_append_left [p]
    cases hdown : m.shutdown with
    | true =>
      unfold FlowManager.addPacket
      rw [if_pos hdown]
      exact ⟨hindexed, hidle, hwider⟩
    | false =>
      have hq : Quiet S m := ⟨hindexed, hdown, hidle⟩
      have hq' := hq.addPacket p
      refine ⟨hq'.toIndexed, hq'.idle, hwider.addPacket hq p (fun _ hf => hf) (fun f hf => ?_)
        fun _ => ⟨p, List.mem_append_right packets List.mem_cons_self, rfl⟩⟩
      rw [f.addPacket_firstPacketTuple]
      exact hf
  | finished _ hfinished ih =>
    obtain ⟨hindexed, hidle, hopened⟩ := ih
    have hidle' := Every.finished (P := fun f => f.pktsInQueue = 0) hidle (fun _ hf => hf) hfinished
    exact ⟨hindexed.finished hfinished, hidle', Every.finished hopened (fun _ hf => hf) hfinished⟩
  | shutdown _ ih =>
    obtain ⟨hindexed, hidle, hopened⟩ := ih
    exact ⟨⟨hindexed.keyed, hindexed.valid, hindexed.newest, hindexed.told⟩, hidle, hopened⟩

end FlowManager

end Vsid
