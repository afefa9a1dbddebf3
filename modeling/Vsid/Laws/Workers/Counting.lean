import Mathlib.Algebra.BigOperators.Group.Finset.Basic
import Vsid.Laws.Workers.Deletion
import Vsid.Laws.Workers.Known

/-!
# The counter of a flow

`pktsInQueue_eq`: in an orderly run without hash collisions, the counter of a flow in the table is
the number of packets of its tuple that no worker has looked up yet, plus one while a worker stands
between its look-up and `decPktsInQueue`. `counter_below_zero` is what a deletion between the
producer's look-up and `incPktsInQueue` does.
-/

set_option autoImplicit false

namespace Vsid

variable {R : Type}

/-- The worker has a packet of the connection in its hands and has not looked it up. -/
def WorkerPc.awaits (t : IPv4Tuple) : WorkerPc → Nat
  | lookup job => if job.packet.tuple.sameFlow t then 1 else 0
  | replacing job _ _ => if job.packet.tuple.sameFlow t then 1 else 0
  | _ => 0

/-- The worker has looked a packet up and not counted it off. -/
def WorkerPc.uncounted (j : FlowId) : WorkerPc → Nat
  | found _ i => if i = j then 1 else 0
  | _ => 0

namespace State

/-- The packets of a connection that were queued and that no worker has looked up. -/
def notLookedUp (S : Setup R) (s : State R) (t : IPv4Tuple) : Nat :=
  ∑ q ∈ Finset.range S.config.workerThreadsPerQueue,
    ((s.queues q).countP (fun job => job.packet.tuple.sameFlow t) + (s.worker q).awaits t)

/-- The producer is not between `getFlow` and `push`. -/
def producerAway (s : State R) : Prop := s.producer.flow = none

variable {S : Setup R} {s : State R}

/-- A packet on the way is of the connection of a flow in the table exactly when it was pushed for
that flow. -/
theorem Healthy.sameFlow_iff (hs : Healthy S s) {k : UInt32} {j : FlowId}
    {f : Flow R} (hj : s.mgr.flows k = some j) (hf : s.mgr.heap[j]? = some f)
    (hfree : FlowManager.CollisionFree S s.given f.firstPacketTuple) {job : Job}
    (hlive : s.mgr.Live job.flow)
    (hhash : s.mgr.hashAt job.flow = some (S.flowHash job.packet.tuple))
    (hgiven : job.packet ∈ s.given) :
    job.packet.tuple.sameFlow f.firstPacketTuple = true ↔ job.flow = j := by
  have hkey : S.flowHash f.firstPacketTuple = k := by
    rw [← hs.indexed.keyed j f hf]
    have hvalid := hs.indexed.valid k j hj
    rw [FlowManager.hashAt_of_heap hf] at hvalid
    exact Option.some.inj hvalid
  constructor
  · intro hsame
    have hflows := hlive.flows hhash
    rw [S.flowHash_sameFlow hsame, hkey, hj] at hflows
    exact (Option.some.inj hflows).symm
  · intro heq
    rw [heq, hs.indexed.valid k j hj] at hhash
    apply hfree _ hgiven
    rw [hkey, Option.some.inj hhash]

/-- What a queue and its worker have of the connection of a flow is what they have of the flow. -/
theorem Healthy.awaiting_eq (hs : Healthy S s) (hk : Known s) {k : UInt32} {j : FlowId}
    {f : Flow R} (hj : s.mgr.flows k = some j) (hf : s.mgr.heap[j]? = some f)
    (hfree : FlowManager.CollisionFree S s.given f.firstPacketTuple) (q : Nat) :
    (s.queues q).countP (fun job => job.packet.tuple.sameFlow f.firstPacketTuple) +
        (s.worker q).awaits f.firstPacketTuple + (s.worker q).uncounted j =
      (s.queues q).countP (fun job => job.flow == j) + (s.worker q).holds j := by
  have hqueue : (s.queues q).countP (fun job => job.packet.tuple.sameFlow f.firstPacketTuple) =
      (s.queues q).countP (fun job => job.flow == j) := by
    apply List.countP_congr
    intro job hjob
    rw [beq_iff_eq]
    exact hs.sameFlow_iff hj hf hfree (hs.queued q job hjob).1 (hs.jobs q job hjob)
      (hk.queued q job hjob)
  have hhand : (s.worker q).awaits f.firstPacketTuple + (s.worker q).uncounted j =
      (s.worker q).holds j := by
    have hsound := hs.workers q
    cases hw : s.worker q with
    | lookup job =>
      rw [hw] at hsound
      have hiff : job.packet.tuple.sameFlow f.firstPacketTuple = true ↔ job.flow = j :=
        hs.sameFlow_iff hj hf hfree (hs.working q job.flow (by rw [hw]; rfl)).1 hsound
          (hk.working q _ (by rw [hw]; rfl))
      simp only [WorkerPc.awaits, WorkerPc.uncounted, WorkerPc.holds, hiff, Nat.add_zero]
    | replacing job i stage =>
      have hlocks := hs.unlocked q
      rw [hw] at hlocks
      cases hlocks
    | found p i => simp only [WorkerPc.awaits, WorkerPc.uncounted, WorkerPc.holds, Nat.zero_add]
    | _ => rfl
  omega

/-- The counter of a flow in the table. -/
theorem Healthy.pktsInQueue_eq (hs : Healthy S s) (hk : Known s) (haway : s.producerAway)
    {k : UInt32} {j : FlowId} {f : Flow R} (hj : s.mgr.flows k = some j)
    (hf : s.mgr.heap[j]? = some f)
    (hfree : FlowManager.CollisionFree S s.given f.firstPacketTuple) :
    f.pktsInQueue = s.notLookedUp S f.firstPacketTuple +
      ∑ q ∈ Finset.range S.config.workerThreadsPerQueue, (s.worker q).uncounted j := by
  have hlive := FlowManager.live_of_flows hs.indexed hj
  obtain ⟨q, hq, -, hqn⟩ := queueAt_of_hashAt hs.toSound (hs.indexed.valid k j hj)
  have hhome : s.mgr.Home q j := ⟨hlive, hq⟩
  have hother : ∀ q', s.mgr.Home q' j → q' = q := fun q' hq' => hq'.unique hhome
  have hpending := hs.counted q j hhome
  have hholds : s.producer.holds j = 0 := by
    apply ProducerPc.holds_of_flow
    rw [haway]
    exact (Option.some_ne_none j).symm
  rw [FlowManager.counterAt_of_heap hf, pending, hholds, Nat.add_zero] at hpending
  have hsum : s.notLookedUp S f.firstPacketTuple +
      ∑ q ∈ Finset.range S.config.workerThreadsPerQueue, (s.worker q).uncounted j =
      (s.queues q).countP (fun job => job.flow == j) + (s.worker q).holds j := by
    unfold notLookedUp
    rw [← Finset.sum_add_distrib]
    rw [Finset.sum_congr rfl fun q _ => hs.awaiting_eq hk hj hf hfree q]
    -- a flow has its packets in its own queue and in its own worker's hands
    apply Finset.sum_eq_single_of_mem q (Finset.mem_range.mpr hqn)
    intro q' _ hne
    have hqueue : (s.queues q').countP (fun job => job.flow == j) = 0 := by
      rw [List.countP_eq_zero]
      intro job hjob heq
      exact hne (hother q' (beq_iff_eq.mp heq ▸ hs.queued q' job hjob))
    have hhand : (s.worker q').holds j = 0 :=
      WorkerPc.holds_of_flow fun hflow => hne (hother q' (hs.working q' j hflow))
    rw [hqueue, hhand, Nat.zero_add]
  rw [Option.some.inj hpending, ← hsum]
  push_cast
  rfl

/-- No worker stands between its look-up of flow `j` and `decPktsInQueue`. -/
def noneUncounted (S : Setup R) (s : State R) (j : FlowId) : Prop :=
  ∀ i, i < S.config.workerThreadsPerQueue → ∀ p, s.worker i ≠ .found p j

theorem sum_uncounted_eq_zero_iff (S : Setup R) (s : State R) (j : FlowId) :
    ∑ q ∈ Finset.range S.config.workerThreadsPerQueue, (s.worker q).uncounted j = 0 ↔
      s.noneUncounted S j := by
  rw [Finset.sum_eq_zero_iff]
  constructor
  · intro hzero i hi p hw
    have hone := hzero i (Finset.mem_range.mpr hi)
    rw [hw, WorkerPc.uncounted, if_pos rfl] at hone
    cases hone
  · intro hnone i hi
    cases hw : s.worker i with
    | found p l =>
      have hne : l ≠ j := by
        intro heq
        exact hnone i (Finset.mem_range.mp hi) p (by rw [hw, heq])
      rw [WorkerPc.uncounted, if_neg hne]
    | _ => rfl

/-- **The counter of a flow is right**: in an orderly run without collisions, whenever the producer
is not between `getFlow` and `push`, it is the number of packets of the flow's connection that were
queued and not looked up, exactly when no worker is on its way from the look-up to
`decPktsInQueue`. It is never negative, and when it is zero there is no such packet. -/
theorem pktsInQueue_counts [Double R] (hn : 0 < S.config.workerThreadsPerQueue) (h : Orderly S s)
    (haway : s.producerAway) {k : UInt32} {j : FlowId} {f : Flow R}
    (hj : s.mgr.flows k = some j) (hf : s.mgr.heap[j]? = some f)
    (hfree : FlowManager.CollisionFree S s.given f.firstPacketTuple) :
    (f.pktsInQueue = s.notLookedUp S f.firstPacketTuple ↔ s.noneUncounted S j) ∧
      0 ≤ f.pktsInQueue ∧
      (f.havePktsInQueue = false → s.notLookedUp S f.firstPacketTuple = 0) := by
  have heq := (healthy_of_run hn h).pktsInQueue_eq (known_of_run hn h) haway hj hf hfree
  refine ⟨?_, by omega, fun hidle => ?_⟩
  · rw [← sum_uncounted_eq_zero_iff, heq]
    omega
  · have hle : f.pktsInQueue ≤ 0 := by
      simp only [Flow.havePktsInQueue, decide_eq_false_iff_not, not_lt] at hidle
      exact hidle
    omega

/-- Two datagrams of one connection are queued. -/
def twoQueued : List Action := adds query ++ adds query

theorem twoQueued_counts :
    ∃ (s : State ℚ) (f : Flow ℚ), Orderly (withWorkers 2) s ∧ s.mgr.heap[0]? = some f ∧
      f.pktsInQueue = 2 ∧
      (f.pktsInQueue = s.notLookedUp (withWorkers 2) f.firstPacketTuple ↔
        s.noneUncounted (withWorkers 2) 0) := by
  obtain ⟨s, hrun, hseen⟩ := exists_orderly (withWorkers 2) twoQueued
    (fun s => decide (s.producer = .idle) &&
      decide (s.mgr.flows ((withWorkers 2).flowHash query.tuple) = some 0) &&
      s.mgr.heap[0]?.any fun f : Flow ℚ => decide (f.pktsInQueue = 2) &&
        decide (FlowManager.CollisionFree (withWorkers 2) s.given f.firstPacketTuple))
    (by decide +kernel)
  simp only [Bool.and_eq_true, decide_eq_true_eq, Option.any_eq_true] at hseen
  obtain ⟨⟨hidle, hflows⟩, f, hf, htwo, hfree⟩ := hseen
  have haway : s.producerAway := by
    unfold producerAway
    rw [hidle]
    rfl
  exact ⟨s, f, hrun, hf, htwo,
    (pktsInQueue_counts (S := withWorkers 2) (by decide) hrun haway hflows hf hfree).1⟩

/-- A worker deletes the flow that the producer has looked up for its next packet. The packet is
counted on the deleted flow and counted off its successor. -/
def countedElsewhere : List Action :=
  adds lastFin ++ times 9 (.worker 0) ++ (.addPacket lastFin :: times 1 .producer) ++
    times 1 (.worker 0) ++ times 2 .producer ++ times 3 (.worker 0)

theorem counter_below_zero :
    ∃ (s : State ℚ) (f : Flow ℚ),
      Run (step (withWorkers 1)) (fun s a => s.sparesBusy (withWorkers 1) a = true) State.init s ∧
      s.producerAway ∧
      s.mgr.flows ((withWorkers 1).flowHash lastFin.tuple) = some 1 ∧
      s.mgr.heap[1]? = some f ∧ f.pktsInQueue = -1 ∧
      s.notLookedUp (withWorkers 1) f.firstPacketTuple = 0 ∧
      s.noneUncounted (withWorkers 1) 1 := by
  obtain ⟨s, hrun, hseen⟩ := exists_of_exec (step (withWorkers 1))
    (fun s a => s.sparesBusy (withWorkers 1) a = true) State.init countedElsewhere
    (fun s => decide (s.producer = .idle) && decide (s.worker 0 = .applying lastFin 1 false) &&
      decide (s.mgr.flows ((withWorkers 1).flowHash lastFin.tuple) = some 1) &&
      s.mgr.heap[1]?.any fun f : Flow ℚ => decide (f.pktsInQueue = -1) &&
        decide (s.notLookedUp (withWorkers 1) f.firstPacketTuple = 0)) (by decide +kernel)
  simp only [Bool.and_eq_true, decide_eq_true_eq, Option.any_eq_true] at hseen
  obtain ⟨⟨⟨hidle, hworker⟩, hflows⟩, f, hf, hnegative, hnothing⟩ := hseen
  have haway : s.producerAway := by
    unfold producerAway
    rw [hidle]
    rfl
  refine ⟨s, f, hrun, haway, hflows, hf, hnegative, hnothing, fun i hi p hw => ?_⟩
  have hzero : i = 0 := Nat.lt_one_iff.mp hi
  rw [hzero, hworker] at hw
  cases hw

end State

end Vsid
