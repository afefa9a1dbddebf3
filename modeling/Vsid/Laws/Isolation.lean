import Vsid.Common.FlowClassificationLogger
import Vsid.Laws.Collisions
import Vsid.Laws.ConnectionCore

/-!
# Isolation of connections

What happens to one connection does not depend on the packets of the others: `isolated` compares a
run with the run on the connection's own packets. Two things have to hold. No other connection may
share the hash, and no meter of the connection's flows may read `_lastPacket` before it was
written: those bytes are whatever the allocator handed out, and that does depend on the others.

`core_addPackets` is the simulation: the core of a connection after a run is the fold of
`Connection.step` over its own packets.
-/

set_option autoImplicit false

namespace Vsid

variable {R : Type}

/-- The same program on a machine whose allocator hands out other bytes. -/
def Setup.withStaleBytes (S : Setup R) (stale : Nat → FirstBytes) : Setup R :=
  { S with staleBytes := stale }

section Allocator

variable [Double R]

theorem Flow.addPacket_withStaleBytes (S : Setup R) (stale : Nat → FirstBytes) (f : Flow R)
    (p : IPv4Packet) : f.addPacket (S.withStaleBytes stale) p = f.addPacket S p := by
  have hsame : S.SameMatching (S.withStaleBytes stale) := ⟨rfl, rfl, rfl, rfl, rfl⟩
  exact f.addPacket_congr hsame p

/-- `Connection.step` knows nothing of the allocator. -/
theorem Connection.step_withStaleBytes (S : Setup R) (stale : Nat → FirstBytes)
    (c : Connection R) (p : IPv4Packet) : c.step (S.withStaleBytes stale) p = c.step S p := by
  have hlookup : ∀ fresh, c.lookup (S.withStaleBytes stale) fresh p = c.lookup S fresh p :=
    fun _ => rfl
  have hfresh : Connection.freshCore (S.withStaleBytes stale) p = Connection.freshCore S p := rfl
  unfold step process FlowRecord.apply
  simp only [hlookup, hfresh, Flow.addPacket_withStaleBytes]

end Allocator

namespace FlowManager

variable [Double R]

/-- The packet is about to make a meter of its flow read stale bytes. -/
def readsStaleBytes (S : Setup R) (m : FlowManager R) (p : IPv4Packet) : Bool :=
  let (m, i) := m.getFlow S none p
  m.heap[i]?.any fun f => f.readsStaleBytes S p

/-- The flows of a connection, in the order of their creation, with what was said about them. -/
def flowsOf (m : FlowManager R) (t : IPv4Tuple) : List (FlowRecord R) :=
  ((List.range m.heap.length).filterMap m.record).filter
    fun r => r.flow.firstPacketTuple.sameFlow t

section Run

variable {S : Setup R} {m : FlowManager R}

theorem readsStaleBytes_eq (hm : Quiet S m) (p : IPv4Packet) :
    m.readsStaleBytes S p =
      (m.connection (S.flowHash p.tuple)).readsStaleBytes S (m.newFlow S none p) p := by
  have hleft : m.readsStaleBytes S p = (m.getFlow S none p).1.heap[(m.getFlow S none p).2]?.any
      fun f => f.readsStaleBytes S p := rfl
  rw [hleft, Connection.readsStaleBytes, ← connection_getFlow hm.toIndexed, connection,
    getFlow_flows hm.toIndexed, Option.bind_some, record, Option.any_map]

omit [Double R] in
theorem connection_idle (hm : Quiet S m) (h : UInt32) : (m.connection h).Idle := by
  intro r hr
  unfold connection record at hr
  obtain ⟨i, hi, hrec⟩ := Option.bind_eq_some_iff.mp hr
  obtain ⟨f, hf, rfl⟩ := Option.map_eq_some_iff.mp hrec
  exact hm.idle i f hf

/-- One packet, on the core of its connection. -/
theorem core_addPacket (hm : Quiet S m) (hseq : S.config.workerThreadsPerQueue = 0)
    {p : IPv4Packet} (hclean : m.readsStaleBytes S p = false) :
    ((m.addPacket S p).connection (S.flowHash p.tuple)).core =
      (m.connection (S.flowHash p.tuple)).core.step S p := by
  rw [readsStaleBytes_eq hm, newFlow_of_sequential hseq] at hclean
  rw [connection_addPacket hm hseq]
  exact Connection.core_process (connection_idle hm _) (Flow.core_new S p _ _) hclean

/-- No packet of the hash makes a meter read stale bytes. -/
def CleanRun (S : Setup R) (packets : List IPv4Packet) (h : UInt32) : Prop :=
  ∀ before p after, packets = before ++ p :: after → S.flowHash p.tuple = h →
    (addPackets S before).readsStaleBytes S p = false

theorem cleanRun_iff_take {packets : List IPv4Packet} {h : UInt32} :
    CleanRun S packets h ↔ ∀ (i : Nat) (hi : i < packets.length),
      S.flowHash packets[i].tuple = h →
      (addPackets S (packets.take i)).readsStaleBytes S packets[i] = false := by
  refine ⟨fun hclean i hi hhash => ?_, fun hclean before p after heq hhash => ?_⟩
  · refine hclean _ _ (packets.drop (i + 1)) ?_ hhash
    rw [List.getElem_cons_drop, List.take_append_drop]
  · subst heq
    have hi : before.length < (before ++ p :: after).length := by
      rw [List.length_append, List.length_cons]
      omega
    have hget : (before ++ p :: after)[before.length] = p := List.getElem_of_append rfl rfl
    have htake : (before ++ p :: after).take before.length = before := List.take_left
    have hreads := hclean before.length hi (by rw [hget]; exact hhash)
    rw [hget, htake] at hreads
    exact hreads

instance (packets : List IPv4Packet) (h : UInt32) : Decidable (CleanRun S packets h) :=
  decidable_of_iff _ cleanRun_iff_take.symm

theorem CleanRun.init {packets : List IPv4Packet} {p : IPv4Packet} {h : UInt32}
    (hclean : CleanRun S (packets ++ [p]) h) : CleanRun S packets h := by
  intro before q after heq
  exact hclean before q (after ++ [p]) (by rw [heq, List.append_assoc, List.cons_append])

/-- **The simulation.** The core of a connection after a run is a function of its own packets. -/
theorem core_addPackets (hseq : S.config.workerThreadsPerQueue = 0) {packets : List IPv4Packet}
    {h : UInt32} (hclean : CleanRun S packets h) :
    ((addPackets S packets).connection h).core =
      (packets.filter fun p => S.flowHash p.tuple == h).foldl (Connection.step S)
        Connection.empty := by
  induction packets using List.reverseRecOn with
  | nil => rfl
  | append_singleton packets p ih =>
    have hq := quiet_addPackets S packets
    rw [addPackets_append, List.filter_append, List.foldl_append, ← ih hclean.init]
    by_cases hp : S.flowHash p.tuple = h
    · subst hp
      have hstep := hclean packets p [] rfl rfl
      rw [core_addPacket hq hseq hstep]
      simp only [List.filter_cons, beq_self_eq_true, if_true, List.filter_nil, List.foldl_cons,
        List.foldl_nil]
    · rw [connection_addPacket_of_ne hq p (Ne.symm hp)]
      simp only [List.filter_cons, beq_eq_false_iff_ne.mpr hp, Bool.false_eq_true, if_false,
        List.filter_nil, List.foldl_nil]

/-- Whether a packet reads stale bytes shows in the core of its connection. -/
theorem readsStaleBytes_core (hm : Quiet S m) (hseq : S.config.workerThreadsPerQueue = 0)
    (p : IPv4Packet) :
    m.readsStaleBytes S p = (m.connection (S.flowHash p.tuple)).core.readsStaleBytes S
      (Connection.freshCore S p) p := by
  have hfresh : (Flow.new S p (S.staleBytes m.heap.length)).core = Connection.freshCore S p :=
    Flow.core_new S p _ _
  rw [readsStaleBytes_eq hm, newFlow_of_sequential hseq, ← hfresh,
    Connection.core_readsStaleBytes S (connection_idle hm _)]

/-- A clean run is clean on the packets of the hash alone. -/
theorem cleanRun_iff (hseq : S.config.workerThreadsPerQueue = 0) (packets : List IPv4Packet)
    (h : UInt32) :
    CleanRun S packets h ↔ ∀ before p after,
      (packets.filter fun p => S.flowHash p.tuple == h) = before ++ p :: after →
      (before.foldl (Connection.step S) Connection.empty).readsStaleBytes S
        (Connection.freshCore S p) p = false := by
  refine ⟨fun hclean before p after heq => ?_, fun hclean => ?_⟩
  · -- the packet at hand stands somewhere in the whole run
    obtain ⟨front, rest, rfl, rfl, hrest⟩ := List.filter_eq_append_iff.mp heq
    obtain ⟨skipped, tail, rfl, hskipped, hp, -⟩ := List.filter_eq_cons_iff.mp hrest
    have hhash : S.flowHash p.tuple = h := beq_iff_eq.mp hp
    have hwhole : front ++ (skipped ++ p :: tail) = (front ++ skipped) ++ p :: tail := by
      rw [List.append_assoc]
    have hfilter : ((front ++ skipped).filter fun p => S.flowHash p.tuple == h) =
        front.filter fun p => S.flowHash p.tuple == h := by
      have hnothing : skipped.filter (fun p => S.flowHash p.tuple == h) = [] :=
        List.filter_eq_nil_iff.mpr hskipped
      rw [List.filter_append, hnothing, List.append_nil]
    have hprefix : CleanRun S (front ++ skipped) h := by
      intro before q after hq
      exact hclean before q (after ++ p :: tail) (by rw [hwhole, hq, List.append_assoc]; rfl)
    have hreads := hclean (front ++ skipped) p tail hwhole hhash
    rw [readsStaleBytes_core (quiet_addPackets S _) hseq, hhash, core_addPackets hseq hprefix,
      hfilter] at hreads
    exact hreads
  · induction packets using List.reverseRecOn with
    | nil =>
      intro before p after heq
      cases before <;> cases heq
    | append_singleton packets q ih =>
      have hinit : CleanRun S packets h := by
        apply ih
        intro before p after heq
        apply hclean before p (after ++ [q].filter fun p => S.flowHash p.tuple == h)
        rw [List.filter_append, heq, List.append_assoc, List.cons_append]
      intro before p after heq hhash
      rcases List.eq_nil_or_concat after with rfl | ⟨after, last, rfl⟩
      · obtain ⟨rfl, hlast⟩ := List.append_inj' heq rfl
        cases hlast
        rw [readsStaleBytes_core (quiet_addPackets S _) hseq, hhash, core_addPackets hseq hinit]
        apply hclean _ _ []
        rw [List.filter_append]
        simp only [List.filter_cons, hhash, beq_self_eq_true, if_true, List.filter_nil]
      · rw [List.concat_eq_append, ← List.cons_append, ← List.append_assoc] at heq
        exact hinit before p after (List.append_inj' heq rfl).1 hhash

/-! ## The flows of one connection -/

omit [Double R] in
/-- With the table empty and no collision, the flows of a connection are those of its hash. -/
theorem flowsOf_eq {m : FlowManager R} {t : IPv4Tuple}
    (hiff : ∀ (i : FlowId) (f : Flow R), m.heap[i]? = some f →
      (f.hash = S.flowHash t ↔ f.firstPacketTuple.sameFlow t = true))
    (hnone : m.flows (S.flowHash t) = none) :
    m.flowsOf t = (m.connection (S.flowHash t)).past := by
  unfold flowsOf connection pastIds
  rw [List.filter_filterMap, List.filterMap_filter]
  apply List.filterMap_congr
  intro i _
  cases hf : m.heap[i]? with
  | none =>
    have hrec : m.record i = none := by rw [record, hf, Option.map_none]
    rw [hrec]
    split <;> rfl
  | some f =>
    have hrec : m.record i = some { flow := f, told := m.told i } := by
      rw [record, hf, Option.map_some]
    have hi := hiff i f hf
    rw [hrec, hashAt_of_heap hf, hnone]
    by_cases hsame : f.firstPacketTuple.sameFlow t = true
    · have hhash : f.hash = S.flowHash t := hi.mpr hsame
      simp only [hhash, hsame, Option.filter_some, if_true, ne_eq, reduceCtorEq,
        not_false_eq_true, and_self, decide_true]
    · have hhash : f.hash ≠ S.flowHash t := fun heq => hsame (hi.mp heq)
      simp only [Option.filter_some, hsame, Bool.false_eq_true, if_false, Option.some.injEq, hhash,
        false_and, decide_false]

/-- After `finished`, the flows of a connection are the closed flows of its core. -/
theorem flowsOf_finished (hseq : S.config.workerThreadsPerQueue = 0) {packets : List IPv4Packet}
    {t : IPv4Tuple} (hfree : CollisionFree S packets t)
    (hclean : CleanRun S packets (S.flowHash t)) {order : List UInt32}
    (hwalk : (addPackets S packets).WalksTable order) :
    ∃ m, (addPackets S packets).finished order = some m ∧
      (m.flowsOf t).map FlowRecord.core =
        ((packets.filter fun p => S.flowHash p.tuple == S.flowHash t).foldl (Connection.step S)
          Connection.empty).finish.past := by
  obtain ⟨m, hm, hq, hempty, hconnection⟩ :=
    connection_finished (quiet_addPackets S packets) hwalk
  have htuples := (tuple_addPackets S packets).finished (fun f h => h) hm
  have hiff : ∀ (i : FlowId) (f : Flow R), m.heap[i]? = some f →
      (f.hash = S.flowHash t ↔ f.firstPacketTuple.sameFlow t = true) := by
    intro i f hf
    obtain ⟨p, hp, htuple⟩ := htuples i f hf
    rw [hq.keyed i f hf]
    refine ⟨fun heq => ?_, fun hsame => S.flowHash_sameFlow hsame⟩
    rw [htuple] at heq ⊢
    exact hfree p hp heq
  refine ⟨m, hm, ?_⟩
  rw [flowsOf_eq hiff (hempty _), hconnection, ← core_addPackets hseq hclean,
    ← Connection.core_finish]
  rfl

/-- **Isolation.** In non-threaded mode, the flows of a connection and all that is said about them
are the same whatever other packets are interleaved, on any allocator and in any order of the final
sweep, provided that no other connection has its hash and no meter of its flows reads `_lastPacket`
before it was stored. -/
theorem isolated (hseq : S.config.workerThreadsPerQueue = 0) {packets : List IPv4Packet}
    {t : IPv4Tuple} (hfree : CollisionFree S packets t)
    (hclean : CleanRun S packets (S.flowHash t)) (stale : Nat → FirstBytes)
    {order order' : List UInt32} (hwalk : (addPackets S packets).WalksTable order)
    (hwalk' : (addPackets (S.withStaleBytes stale)
      (packets.filter fun p => p.tuple.sameFlow t)).WalksTable order') :
    ∃ m m', (addPackets S packets).finished order = some m ∧
      (addPackets (S.withStaleBytes stale) (packets.filter fun p => p.tuple.sameFlow t)).finished
        order' = some m' ∧
      (m.flowsOf t).map FlowRecord.core = (m'.flowsOf t).map FlowRecord.core := by
  have hown : (packets.filter fun p => S.flowHash p.tuple == S.flowHash t) =
      packets.filter fun p => p.tuple.sameFlow t := by
    apply List.filter_congr
    intro p hp
    rw [Bool.eq_iff_iff, beq_iff_eq]
    exact ⟨hfree p hp, S.flowHash_sameFlow⟩
  have hagain : ((packets.filter fun p => p.tuple.sameFlow t).filter fun p =>
      S.flowHash p.tuple == S.flowHash t) = packets.filter fun p => p.tuple.sameFlow t := by
    rw [← hown, List.filter_filter]
    simp only [Bool.and_self]
  have hsteps : Connection.step (S.withStaleBytes stale) = Connection.step S := by
    funext c p
    exact Connection.step_withStaleBytes S stale c p
  have hclean' : CleanRun (S.withStaleBytes stale) (packets.filter fun p => p.tuple.sameFlow t)
      (S.flowHash t) := by
    rw [cleanRun_iff hseq] at hclean
    refine (cleanRun_iff (S := S.withStaleBytes stale) hseq _ _).mpr fun before p after heq => ?_
    rw [hsteps]
    exact hclean before p after (by rw [hown, ← hagain]; exact heq)
  have hfree' : CollisionFree (S.withStaleBytes stale)
      (packets.filter fun p => p.tuple.sameFlow t) t := by
    intro p hp _
    exact (List.mem_filter.mp hp).2
  obtain ⟨m, hm, hflows⟩ := flowsOf_finished hseq hfree hclean hwalk
  obtain ⟨m', hm', hflows'⟩ := flowsOf_finished (S := S.withStaleBytes stale) hseq hfree' hclean'
    hwalk'
  refine ⟨m, m', hm, hm', ?_⟩
  rw [hflows, hflows', hsteps, hown]
  exact congrArg (fun ps => (ps.foldl (Connection.step S) Connection.empty).finish.past) hagain.symm

end Run

/-! ## The allocator decides -/

/-- A database with one protocol in it, known by its first bytes. -/
def bannerDatabase : ProtocolModelDb ℚ :=
  { definingLimit := 1
    cutoffLimit := 100
    protocolModelOrder :=
      [{ name := "SSH"
         flowCount := 1
         enabled := true
         portHints := []
         attributeMeters :=
          [{ (AttributeMeter.create .actionReactionFirst3ByteHash fun _ => 0 : AttributeMeter ℚ) with
              enabled := true
              fromDb := true
              fingerprint := (List.replicate 115 0).set 34 1 }] }]
    portHintOrder := [] }

/-- A machine whose allocator hands out a zeroed block first and used ones after that. -/
def usedBlocks : Setup ℚ :=
  { (Setup.initial : Setup ℚ) with
    database := bannerDatabase
    factory := { enabledAttributes := fun k => k == .actionReactionFirst3ByteHash }
    staleBytes := fun i _ => if i = 0 then 0 else 1 }

/-- A connection to an SSH server. -/
def sshTuple : IPv4Tuple := ⟨0x0100000a, 40000, 0x0200000a, 22, ipprotoTcp⟩

/-- The client speaks first, after an unrelated datagram. -/
def clientFirst : List IPv4Packet :=
  [⟨0x0300000a, 1053, 0x0400000a, 53, .udp, [1], ⟨0, 0⟩⟩,
    ⟨0x0100000a, 40000, 0x0200000a, 22, .tcp thSyn, [], ⟨0, 0⟩⟩,
    ⟨0x0100000a, 40000, 0x0200000a, 22, .tcp thAck, [], ⟨0, 0⟩⟩,
    ⟨0x0100000a, 40000, 0x0200000a, 22, .tcp thAck, [0x53, 0x53, 0x48], ⟨1, 0⟩⟩,
    ⟨0x0200000a, 22, 0x0100000a, 40000, .tcp thAck, [0x53, 0x53, 0x48], ⟨1, 0⟩⟩]

theorem clientFirst_isolated :
    ∃ m m' : FlowManager ℚ,
      (addPackets usedBlocks clientFirst).finished (tableOrder usedBlocks clientFirst) = some m ∧
      (addPackets (usedBlocks.withStaleBytes fun _ _ => 7)
        (clientFirst.filter fun p => p.tuple.sameFlow sshTuple)).finished
          (tableOrder (usedBlocks.withStaleBytes fun _ _ => 7)
            (clientFirst.filter fun p => p.tuple.sameFlow sshTuple)) = some m' ∧
      (m.flowsOf sshTuple).map FlowRecord.core = (m'.flowsOf sshTuple).map FlowRecord.core :=
  isolated (S := usedBlocks) rfl (by decide +kernel) (by decide +kernel) (fun _ _ => 7)
    (walksTable_tableOrder _ _) (walksTable_tableOrder _ _)

/-- The server speaks first, after an unrelated datagram. -/
def serverFirst : List IPv4Packet :=
  [⟨0x0300000a, 1053, 0x0400000a, 53, .udp, [1], ⟨0, 0⟩⟩,
    ⟨0x0100000a, 40000, 0x0200000a, 22, .tcp thSyn, [], ⟨0, 0⟩⟩,
    ⟨0x0200000a, 22, 0x0100000a, 40000, .tcp thAck, [0x53, 0x53, 0x48], ⟨0, 0⟩⟩,
    ⟨0x0100000a, 40000, 0x0200000a, 22, .tcp thAck, [], ⟨0, 0⟩⟩]

/-- The result lines of a connection: classified or not. -/
def resultsOf (m : FlowManager ℚ) (t : IPv4Tuple) : List Bool :=
  (m.flowsOf t).flatMap fun r => (FlowClassificationLogger.lines r.told).map (·.classified)

/-- The unrelated datagram takes the first block, and so the connection is not classified; on its
own it is. -/
theorem serverFirst_not_isolated :
    usedBlocks.config.workerThreadsPerQueue = 0 ∧ usedBlocks.config.learningMode = false ∧
    CollisionFree usedBlocks serverFirst sshTuple ∧
    (addPackets usedBlocks serverFirst).WalksTable (tableOrder usedBlocks serverFirst) ∧
    (addPackets usedBlocks (serverFirst.filter fun p => p.tuple.sameFlow sshTuple)).WalksTable
      (tableOrder usedBlocks (serverFirst.filter fun p => p.tuple.sameFlow sshTuple)) ∧
    ((addPackets usedBlocks serverFirst).finished (tableOrder usedBlocks serverFirst)).map
      (resultsOf · sshTuple) = some [false] ∧
    ((addPackets usedBlocks (serverFirst.filter fun p => p.tuple.sameFlow sshTuple)).finished
      (tableOrder usedBlocks (serverFirst.filter fun p => p.tuple.sameFlow sshTuple))).map
        (resultsOf · sshTuple) = some [true] :=
  ⟨rfl, rfl, by decide +kernel, walksTable_tableOrder _ _, walksTable_tableOrder _ _,
    by decide +kernel, by decide +kernel⟩

end FlowManager

end Vsid
