import Vsid.Laws.Collisions
import Vsid.Laws.Workers.Healthy

/-!
# Packets that were given

`Known` holds in every interleaving: what is queued, in a thread's hands or the opener of a flow is
a packet that the producer was given. With it `looked_sameFlow` says in both modes when the flow
that a packet is looked up under, and that it is added to, is one of its own connection;
`collision_mixes_connections` is a collision.
-/

set_option autoImplicit false

namespace Vsid

variable {R : Type}

/-- The packet of a call. -/
def Call.packet? : Call → Option IPv4Packet
  | packet p => some p
  | finished => none

/-- The packet the producer is adding, after its look-up. -/
def ProducerPc.packet? : ProducerPc → Option IPv4Packet
  | found p _ => some p
  | pushing p _ => some p
  | _ => none

/-- The packet a worker is processing, up to its addition to the flow. -/
def WorkerPc.packet? : WorkerPc → Option IPv4Packet
  | lookup job => some job.packet
  | replacing job _ _ => some job.packet
  | found p _ => some p
  | applying p _ _ => some p
  | _ => none

namespace State

/-- The packets that were given to `addPacket`, in their order. -/
def given (s : State R) : List IPv4Packet := s.history.filterMap Call.packet?

theorem given_append {s s' : State R} {p : IPv4Packet}
    (h : s'.history = s.history ++ [.packet p]) : s'.given = s.given ++ [p] := by
  unfold given
  rw [h, List.filterMap_append]
  rfl

theorem given_finished {s s' : State R} (h : s'.history = s.history ++ [.finished]) :
    s'.given = s.given := by
  unfold given
  rw [h, List.filterMap_append]
  exact List.append_nil _

/-- Everything on the way is a packet that was given. -/
structure Known (s : State R) : Prop where
  opened : s.mgr.OpenedBy s.given
  queued : ∀ q, ∀ job ∈ s.queues q, job.packet ∈ s.given
  producing : ∀ p, s.producer.packet? = some p → p ∈ s.given
  working : ∀ i p, (s.worker i).packet? = some p → p ∈ s.given

theorem known_init : Known (State.init : State R) where
  opened i f h := by cases h
  queued q job h := by cases h
  producing p h := by cases h
  working i p h := by cases h

variable {S : Setup R} {s s' : State R}

/-- The producer comes back from `getFlow` with a packet. -/
theorem Known.producerTakes (hs : Known s) {p : IPv4Packet}
    (hhistory : s'.history = s.history ++ [.packet p])
    (hopened : s'.mgr.OpenedBy (s.given ++ [p])) (hqueues : s'.queues = s.queues)
    (hworker : s'.worker = s.worker) (hpc : s'.producer.packet? = some p) : Known s' := by
  have hgiven : s'.given = s.given ++ [p] := given_append hhistory
  have hold : ∀ q ∈ s.given, q ∈ s'.given := by
    intro q hq
    rw [hgiven]
    exact List.mem_append_left _ hq
  refine ⟨hgiven ▸ hopened, fun q job hjob => ?_, fun q hq => ?_, fun i q hq => ?_⟩
  · rw [hqueues] at hjob
    exact hold _ (hs.queued q job hjob)
  · rw [hpc] at hq
    cases hq
    rw [hgiven]
    exact List.mem_append_right _ List.mem_cons_self
  · rw [hworker] at hq
    exact hold q (hs.working i q hq)

/-- The producer makes another move. -/
theorem Known.producerMoves (hs : Known s) (hgiven : s'.given = s.given)
    (hopened : s'.mgr.OpenedBy s.given)
    (hqueues : ∀ q, ∀ job ∈ s'.queues q, job ∈ s.queues q ∨ job.packet ∈ s.given)
    (hworker : s'.worker = s.worker)
    (hpc : ∀ p, s'.producer.packet? = some p → s.producer.packet? = some p) : Known s' := by
  refine ⟨hgiven ▸ hopened, fun q job hjob => ?_, fun p hp => ?_, fun i p hp => ?_⟩
  · rw [hgiven]
    rcases hqueues q job hjob with hold | hnew
    · exact hs.queued q job hold
    · exact hnew
  · rw [hgiven]
    exact hs.producing p (hpc p hp)
  · rw [hworker] at hp
    rw [hgiven]
    exact hs.working i p hp

/-- A worker makes a move. -/
theorem Known.workerMoves (hs : Known s) {i : Nat} {pc : WorkerPc}
    (hhistory : s'.history = s.history) (hopened : s'.mgr.OpenedBy s.given)
    (hqueues : ∀ q, ∀ job ∈ s'.queues q, job ∈ s.queues q) (hproducer : s'.producer = s.producer)
    (hworker : s'.worker = Function.update s.worker i pc)
    (hpc : ∀ p, pc.packet? = some p → p ∈ s.given) : Known s' := by
  have hgiven : s'.given = s.given := by
    unfold given
    rw [hhistory]
  refine ⟨hgiven ▸ hopened, fun q job hjob => ?_, fun p hp => ?_, fun k p hp => ?_⟩
  · rw [hgiven]
    exact hs.queued q job (hqueues q job hjob)
  · rw [hgiven]
    rw [hproducer] at hp
    exact hs.producing p hp
  · rw [hgiven]
    rw [hworker] at hp
    by_cases hk : k = i
    · rw [hk, Function.update_self] at hp
      exact hpc p hp
    · rw [Function.update_of_ne hk] at hp
      exact hs.working k p hp

theorem openedBy_modifyFlow {packets : List IPv4Packet} {m : FlowManager R}
    (h : m.OpenedBy packets) (i : FlowId) {g : Flow R → Flow R}
    (htuple : ∀ f, (g f).firstPacketTuple = f.firstPacketTuple) :
    (m.modifyFlow i g).OpenedBy packets :=
  FlowManager.Every.modifyFlow h i fun f _ hf => by rw [htuple f]; exact hf

theorem openedBy_notifies {packets : List IPv4Packet} {m m' : FlowManager R}
    (h : m.OpenedBy packets) {i : FlowId} {f : Flow R} {stage stage' : NotifyStage}
    (hn : m.Notifies i f stage m' stage') : m'.OpenedBy packets := hn.every h fun _ hf => hf

variable [Double R]

theorem known_moves (hs : Known s) {a : Action} (h : Moves S s a s') : Known s' := by
  have hsame : ∀ q, ∀ job ∈ s.queues q, job ∈ s.queues q ∨ job.packet ∈ s.given :=
    fun q job hjob => Or.inl hjob
  have hmem : ∀ p : IPv4Packet, p ∈ s.given ++ [p] :=
    fun p => List.mem_append_right _ List.mem_cons_self
  have hwider : ∀ p : IPv4Packet, s.mgr.OpenedBy (s.given ++ [p]) :=
    fun p => hs.opened.mono fun _ => List.mem_append_left _
  cases h with
  | refused p hp hdown => exact hs
  | called p hp hup =>
    exact hs.producerMoves rfl hs.opened hsame rfl fun _ h => by cases h
  | finishing hp => exact hs.producerMoves rfl hs.opened hsame rfl fun _ h => by cases h
  | shutdown => exact hs.producerMoves rfl hs.opened hsame rfl fun _ h => h
  | created p hp hfree hnone =>
    exact hs.producerTakes rfl ((hwider p).insertFlow none (hmem p)) rfl rfl rfl
  | reused p i f hp hfree hi hf hrep => exact hs.producerTakes rfl (hwider p) rfl rfl rfl
  | replaces p i f hp hfree hi hf hrep =>
    exact hs.producerMoves rfl hs.opened hsame rfl fun _ h => by cases h
  | replaceNotifies p i f stage stage' m hp hf hnot =>
    exact hs.producerMoves rfl (openedBy_notifies hs.opened hnot) hsame rfl fun _ h => by cases h
  | replaced p i hp =>
    have herased : (s.mgr.erase (S.flowHash p.tuple)).OpenedBy (s.given ++ [p]) :=
      FlowManager.Every.erase (hwider p) _
    exact hs.producerTakes rfl (herased.insertFlow none (hmem p)) rfl rfl rfl
  | counted p i hp =>
    exact hs.producerMoves rfl (openedBy_modifyFlow hs.opened i fun _ => rfl) hsame rfl
      fun _ h => by rw [hp]; exact h
  | pushed p i q hp hq hroom =>
    have hgiven : p ∈ s.given := hs.producing p (by rw [hp]; rfl)
    refine hs.producerMoves rfl hs.opened (fun k job hjob => ?_) rfl fun _ h => by cases h
    by_cases hk : k = q
    · subst hk
      simp only [Function.update_self, List.mem_append, List.mem_singleton] at hjob
      rcases hjob with hold | rfl
      · exact Or.inl hold
      · exact Or.inr hgiven
    · simp only [Function.update_of_ne hk] at hjob
      exact Or.inl hjob
  | full p i q hp hq hroom =>
    exact hs.producerMoves rfl hs.opened hsame rfl fun _ h => by cases h
  | undone i hp =>
    exact hs.producerMoves rfl (openedBy_modifyFlow hs.opened i fun _ => rfl) hsame rfl
      fun _ h => by cases h
  | drained k hp hk hempty =>
    exact hs.producerMoves rfl hs.opened hsame rfl fun _ h => by cases h
  | locked k hp hk hfree =>
    exact hs.producerMoves rfl hs.opened hsame rfl fun _ h => by cases h
  | picked k i hp hk => exact hs.producerMoves rfl hs.opened hsame rfl fun _ h => by cases h
  | waited k i f hp hf hidle =>
    exact hs.producerMoves rfl hs.opened hsame rfl fun _ h => by cases h
  | sweepNotifies k i f stage stage' m hp hf hnot =>
    exact hs.producerMoves rfl (openedBy_notifies hs.opened hnot) hsame rfl fun _ h => by cases h
  | swept k i hp =>
    exact hs.producerMoves rfl (FlowManager.Every.erase hs.opened k) hsame rfl
      fun _ h => by cases h
  | returned hp hempty =>
    exact hs.producerMoves (given_finished rfl) hs.opened hsame rfl fun _ h => by cases h
  | exits i hi hw hdown =>
    exact hs.workerMoves rfl hs.opened (fun _ _ h => h) rfl rfl fun _ h => by cases h
  | popped i job rest hi hw hup hq =>
    have hjob : job ∈ s.queues i := by
      rw [hq]
      exact List.mem_cons_self
    refine hs.workerMoves rfl hs.opened (fun k job' hjob' => ?_) rfl rfl fun p hp => ?_
    · by_cases hk : k = i
      · subst hk
        simp only [setWorker, Function.update_self] at hjob'
        rw [hq]
        exact List.mem_cons_of_mem _ hjob'
      · simp only [setWorker, Function.update_of_ne hk] at hjob'
        exact hjob'
    · cases hp
      exact hs.queued i job hjob
  | workerCreated i job hi hw hfree hnone =>
    have hjob : job.packet ∈ s.given := hs.working i _ (by rw [hw]; rfl)
    exact hs.workerMoves rfl (hs.opened.insertFlow (some i) hjob) (fun _ _ h => h) rfl rfl
      fun _ h => by cases h; exact hjob
  | workerReused i job j f hi hw hfree hj hf hrep =>
    exact hs.workerMoves rfl hs.opened (fun _ _ h => h) rfl rfl
      fun _ h => hs.working i _ (by rw [hw]; exact h)
  | workerReplaces i job j f hi hw hfree hj hf hrep =>
    exact hs.workerMoves rfl hs.opened (fun _ _ h => h) rfl rfl
      fun _ h => hs.working i _ (by rw [hw]; exact h)
  | workerReplaceNotifies i job j f stage stage' m hi hw hf hnot =>
    exact hs.workerMoves rfl (openedBy_notifies hs.opened hnot) (fun _ _ h => h) rfl rfl
      fun _ h => hs.working i _ (by rw [hw]; exact h)
  | workerReplaced i job j hi hw =>
    have hjob : job.packet ∈ s.given := hs.working i _ (by rw [hw]; rfl)
    have herased : (s.mgr.erase (S.flowHash job.packet.tuple)).OpenedBy s.given :=
      FlowManager.Every.erase hs.opened _
    exact hs.workerMoves rfl (herased.insertFlow (some i) hjob) (fun _ _ h => h) rfl rfl
      fun _ h => by cases h; exact hjob
  | decremented i p j f hi hw hf =>
    exact hs.workerMoves rfl (openedBy_modifyFlow hs.opened j fun _ => rfl) (fun _ _ h => h) rfl
      rfl fun _ h => hs.working i _ (by rw [hw]; exact h)
  | applies i p j c hi hw =>
    exact hs.workerMoves rfl
      (openedBy_modifyFlow hs.opened j fun f => f.addPacket_firstPacketTuple S p)
      (fun _ _ h => h) rfl rfl fun _ h => by cases h
  | announces i j c f hi hw hf hnew =>
    exact hs.workerMoves rfl hs.opened (fun _ _ h => h) rfl rfl fun _ h => by cases h
  | notifies i j f stage stage' m hi hw hf hnot =>
    exact hs.workerMoves rfl (openedBy_notifies hs.opened hnot) (fun _ _ h => h) rfl rfl
      fun _ h => by cases h
  | marks i j f hi hw hfree hf hbusy =>
    exact hs.workerMoves rfl (openedBy_modifyFlow hs.opened j fun _ => rfl) (fun _ _ h => h) rfl
      rfl fun _ h => by cases h
  | deletes i j f hi hw hfree hf hidle =>
    exact hs.workerMoves rfl (FlowManager.Every.erase hs.opened _) (fun _ _ h => h) rfl rfl
      fun _ h => by cases h
  | _ => exact hs.workerMoves rfl hs.opened (fun _ _ h => h) rfl rfl fun _ h => by cases h

/-- In every run, everything on the way was given. -/
theorem known_of_run (hn : 0 < S.config.workerThreadsPerQueue) {ok : State R → Action → Prop}
    (h : Run (step S) ok State.init s) : Known s :=
  (h.invariant (I := fun s => Sound S s ∧ Known s) ⟨sound_init S, known_init⟩
    fun _ _ _ hs _ hstep =>
      ⟨sound_moves hn hs.1 (moves_of_step hs.1 hstep),
        known_moves hs.2 (moves_of_step hs.1 hstep)⟩).2

/-! ## What a look-up returns -/

/-- In some run of the program, in either mode, with the packets `given` so far and the manager now
at `m`: `getFlow` returns, or has returned, flow `i` for packet `p`, or `p` is about to be added to
flow `i`. -/
inductive LookedUp (S : Setup R) : List IPv4Packet → FlowManager R → IPv4Packet → FlowId → Prop where
  /-- `addPacket` in non-threaded mode, or any other call between two of them. -/
  | addPacket {given : List IPv4Packet} {m : FlowManager R} (self : Option Nat) (p : IPv4Packet) :
      FlowManager.Sequential S given m →
      LookedUp S given (m.getFlow S self p).1 p (m.getFlow S self p).2
  /-- `processPacket` in non-threaded mode, which looks the packet up again. -/
  | processPacket {given : List IPv4Packet} {m m' : FlowManager R} (p : IPv4Packet) :
      FlowManager.Sequential S given m →
      m' = (m.getFlow S none p).1.modifyFlow (m.getFlow S none p).2 Flow.incPktsInQueue →
      LookedUp S (given ++ [p]) (m'.getFlow S none p).1 p (m'.getFlow S none p).2
  /-- Any call in any state with worker threads. -/
  | call {s : State R} (self : Option Nat) (p : IPv4Packet) :
      0 < S.config.workerThreadsPerQueue → Reachable S s →
      LookedUp S s.given (s.mgr.getFlow S self p).1 p (s.mgr.getFlow S self p).2
  | producer {s : State R} {p : IPv4Packet} {i : FlowId} :
      0 < S.config.workerThreadsPerQueue → Reachable S s → s.producer = .found p i →
      LookedUp S s.given s.mgr p i
  | worker {s : State R} {w : Nat} {p : IPv4Packet} {i : FlowId} :
      0 < S.config.workerThreadsPerQueue → Reachable S s → s.worker w = .found p i →
      LookedUp S s.given s.mgr p i
  | applying {s : State R} {w : Nat} {p : IPv4Packet} {i : FlowId} {c : Bool} :
      0 < S.config.workerThreadsPerQueue → Reachable S s → s.worker w = .applying p i c →
      LookedUp S s.given s.mgr p i

/-- **The flow of a packet is one of its connection**, as long as no packet of another connection
was given under the packet's hash. -/
theorem lookedUp_sameFlow {given : List IPv4Packet} {m : FlowManager R} {p : IPv4Packet}
    {i : FlowId} (h : LookedUp S given m p i)
    (hfree : FlowManager.CollisionFree S given p.tuple) :
    ∃ f, m.heap[i]? = some f ∧ f.firstPacketTuple.sameFlow p.tuple = true ∧
      f.packetDirection p ≠ .unknown := by
  cases h with
  | addPacket self _ hm =>
    obtain ⟨hindexed, -, hopened⟩ := hm.sound
    exact FlowManager.getFlow_sameFlow hindexed hopened self hfree
  | @processPacket before _ m' _ hm hm' =>
    obtain ⟨hindexed, -, hopened⟩ := hm.sound
    subst hm'
    have hp : p ∈ before ++ [p] := List.mem_append_right _ List.mem_cons_self
    refine FlowManager.getFlow_sameFlow
      ((hindexed.getFlow none p).modifyFlow _ (g := Flow.incPktsInQueue) (fun _ => rfl)
        fun _ => rfl) ?_ none hfree
    exact openedBy_modifyFlow
      ((hopened.mono fun _ => List.mem_append_left _).getFlow none hp) _ fun _ => rfl
  | call self _ hn hs =>
    exact FlowManager.getFlow_sameFlow (sound_of_run hn hs).indexed (known_of_run hn hs).opened
      self hfree
  | producer hn hs hp =>
    have hsound := sound_of_run hn hs
    have hpc := hsound.producer
    rw [hp] at hpc
    exact FlowManager.serves_of_hashAt hsound.indexed (known_of_run hn hs).opened hfree hpc
  | @worker s w _ _ hn hs hw =>
    have hsound := sound_of_run hn hs
    have hpc := hsound.workers w
    rw [hw] at hpc
    exact FlowManager.serves_of_hashAt hsound.indexed (known_of_run hn hs).opened hfree hpc
  | @applying s w _ _ c hn hs hw =>
    have hsound := sound_of_run hn hs
    have hpc := hsound.workers w
    rw [hw] at hpc
    exact FlowManager.serves_of_hashAt hsound.indexed (known_of_run hn hs).opened hfree hpc

/-- A query to a name server. -/
def query : IPv4Packet := ⟨0x0600000a, 57594, 0x08080808, 53, .udp, [1], ⟨0, 0⟩⟩

/-- A query from another host, which has the same flow hash. -/
def otherQuery : IPv4Packet := ⟨0x0700000a, 56726, 0x08080808, 53, .udp, [2], ⟨0, 0⟩⟩

/-- The manager after the first query. -/
def afterQuery : FlowManager ℚ := FlowManager.init.addPacket Setup.initial query

theorem query_sameFlow :
    ∃ f, (afterQuery.getFlow Setup.initial none query).1.heap[
        (afterQuery.getFlow Setup.initial none query).2]? = some f ∧
      f.firstPacketTuple.sameFlow query.tuple = true ∧ f.packetDirection query ≠ .unknown :=
  lookedUp_sameFlow (S := Setup.initial)
    (LookedUp.addPacket none query (FlowManager.Sequential.init.addPacket query))
    (by decide +kernel)

/-- The second query is added to the flow of the first. -/
theorem collision_mixes_connections :
    FlowManager.Sequential Setup.initial [query] afterQuery ∧
    ∃ f, (afterQuery.getFlow Setup.initial none otherQuery).1.heap[
        (afterQuery.getFlow Setup.initial none otherQuery).2]? = some f ∧
      f.firstPacketTuple.sameFlow otherQuery.tuple = false ∧
      f.packetDirection otherQuery = .unknown := by
  refine ⟨FlowManager.Sequential.init.addPacket query, ?_⟩
  have hseen : (afterQuery.getFlow Setup.initial none otherQuery).1.heap[
      (afterQuery.getFlow Setup.initial none otherQuery).2]?.any (fun f =>
        !f.firstPacketTuple.sameFlow otherQuery.tuple &&
          decide (f.packetDirection otherQuery = .unknown)) = true := by
    decide +kernel
  obtain ⟨f, hf, hother⟩ := (Option.any_eq_true _ _).mp hseen
  obtain ⟨hsame, hdirection⟩ := Bool.and_eq_true_iff.mp hother
  exact ⟨f, hf, Bool.not_eq_true' _ ▸ hsame, of_decide_eq_true hdirection⟩

end State

end Vsid
