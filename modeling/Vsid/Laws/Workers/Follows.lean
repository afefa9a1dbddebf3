import Vsid.Laws.Records
import Vsid.Laws.Workers.Behind
import Vsid.Laws.Workers.Healthy

/-!
# Every connection catches up with non-threaded mode

`CaughtUp` says of a connection that, once the threads have done what they have left to do for it,
it has the open flow and the lines of non-threaded mode on the packets given so far. `Follows` says
so of all of them, and `follows_moves` that it stays so in an orderly run without a shutdown and a
full queue, as long as every step `agrees` with non-threaded mode.

Non-threaded mode has always closed a flow whose end has come when the next packet is looked up;
here the packets that are still on their way keep it open. What follows the end of a TCP flow is
then absorbed by it, where non-threaded mode opens a flow that the packet itself closes. Neither
leaves a line. Only a packet that opens a flow that lasts, or one that it classifies, makes a
difference, and is what `agrees` leaves out.
-/

set_option autoImplicit false

namespace Vsid

variable {R : Type}

/-! ## Connections of a manager -/

namespace FlowManager

variable {S : Setup R} {m m' : FlowManager R} {h : UInt32} {i : FlowId} {f : Flow R}

theorem touches_refl (m : FlowManager R) (i : FlowId) : Touches i id m m where
  flows := rfl
  length := rfl
  hashAt _ := rfl
  record j := by
    rw [Option.map_id_fun, id_eq]
    split <;> rfl

theorem connection_live (hi : m.flows h = some i) (hf : m.heap[i]? = some f) :
    (m.connection h).live = some { flow := f, told := m.told i } := by
  rw [connection, hi, Option.bind_some, record, hf, Option.map_some]

/-- The open flow without its bookkeeping. -/
theorem bare_live (hi : m.flows h = some i) (hf : m.heap[i]? = some f) :
    (m.connection h).bare.live =
      some { flow := f.bare, told := (m.told i).map (Note.map Flow.bare) } := by
  rw [Connection.bare_live, connection_live hi hf]
  rfl

theorem bare_live_of_none (hnone : m.flows h = none) : (m.connection h).bare.live = none := by
  rw [Connection.bare_live, connection_live_of_none hnone]
  rfl

theorem Touches.bare_connection {g : FlowRecord R → FlowRecord R} (t : Touches i g m m')
    (g' : FlowRecord R → FlowRecord R) (hi : m.flows h = some i)
    (hg : ∀ r, (m.connection h).live = some r → (g r).bare = g' r.bare) :
    (m'.connection h).bare = (m.connection h).bare.modify g' := by
  rw [t.connection hi]
  exact Forgets.map_modify _ hg

/-- Bookkeeping leaves the connections as they are. -/
theorem bare_bookkeeping (hm : m.Indexed S) (hlive : m.Live i) {g : Flow R → Flow R}
    (hhash : ∀ f, (g f).hash = f.hash) (hg : ∀ f, (g f).bare = f.bare) (h : UInt32) :
    ((m.modifyFlow i g).connection h).bare = (m.connection h).bare := by
  have htouches := touches_modifyFlow m i hhash
  by_cases hi : m.flows h = some i
  · have hbare : ∀ r : FlowRecord R, (r.modify g).bare = id r.bare := by
      intro r
      show ({ flow := (g r.flow).bare, told := _ } : FlowRecord R) = _
      rw [hg]
      rfl
    rw [htouches.bare_connection id hi fun r _ => hbare r]
    unfold Connection.modify
    rw [Option.map_id_fun, id_eq]
  · rw [htouches.connection_of_ne (fun hkey => hi (hlive.flows hkey)) (hm.valid h)]

theorem Notifies.touches {stage stage' : NotifyStage} (hnot : m.Notifies i f stage m' stage') :
    ∃ g, Touches i g m m' := by
  cases hnot with
  | observe => exact ⟨_, touches_tell m i _⟩
  | mark => exact ⟨_, touches_modifyFlow m i (g := Flow.setFinishedAndNotified) fun _ => rfl⟩
  | _ => exact ⟨id, touches_refl m i⟩

/-- A stage of a notification leaves the rest of it to do. -/
theorem Notifies.close {stage stage' : NotifyStage} (hnot : m.Notifies i f stage m' stage')
    (hi : m.flows h = some i) (hf : m.heap[i]? = some f) :
    stage'.close (m'.connection h).bare = stage.close (m.connection h).bare := by
  have hlive := bare_live hi hf
  cases hnot with
  | skip hstate => exact Connection.close_skip hlive hstate
  | tooFew hstate hfew => exact Connection.close_tooFew hlive hstate hfew
  | tell hstate hfew => exact Connection.close_tell hlive hstate hfew
  | observe =>
    have htell : ∀ r : FlowRecord R, (m.connection h).live = some r →
        (r.tell (.finished f)).bare = r.bare.tell (.finished r.bare.flow) := by
      intro r hr
      rw [connection_live hi hf] at hr
      cases hr
      exact Forgets.map_tell _ _
    rw [(touches_tell m i (.finished f)).bare_connection
      (fun r => r.tell (.finished r.flow)) hi htell]
    rfl
  | mark =>
    rw [(touches_modifyFlow m i (g := Flow.setFinishedAndNotified) fun _ => rfl).bare_connection
      (fun r => r.modify Flow.setFinishedAndNotified) hi
      fun r _ => Flow.forgets_bare.map_mark r]
    rfl

end FlowManager

/-- The producer was asked to finish. -/
def Call.isFinished : Call → Bool
  | finished => true
  | packet _ => false

/-- `getFlow` finds a flow for the packet and keeps it. -/
def FlowManager.keepsFlow (S : Setup R) (m : FlowManager R) (p : IPv4Packet) : Bool :=
  match m.flows (S.flowHash p.tuple) with
  | none => false
  | some i => m.heap[i]?.any fun f => !FlowManager.replaces S f p

/-- No flow is there for the packet, and the one that it opens is closed by it at once, without a
classification. -/
def FlowManager.isStray [Double R] (S : Setup R) (m : FlowManager R) (p : IPv4Packet) : Bool :=
  (m.flows (S.flowHash p.tuple)).isNone &&
    ((Flow.new S p (S.staleBytes m.heap.length)).addPacket S p).isFinished &&
    !((Flow.new S p (S.staleBytes m.heap.length)).addPacket S p).flowClassified

namespace FlowManager

variable {S : Setup R} {m : FlowManager R}

/-- Which flow is kept is seen from the connection. -/
theorem keepsFlow_eq (hm : m.Quiet S) (p : IPv4Packet) :
    m.keepsFlow S p = (m.connection (S.flowHash p.tuple)).bare.live.any fun r =>
      !replaces S r.flow p := by
  unfold keepsFlow
  cases hi : m.flows (S.flowHash p.tuple) with
  | none =>
    rw [bare_live_of_none hi]
    rfl
  | some i =>
    obtain ⟨f, hf, -⟩ := exists_of_hashAt (hm.valid _ i hi)
    have hsame : replaces S f.bare p = replaces S f p :=
      Flow.forgets_bare.replaces S f p (hm.idle i f hf)
    rw [bare_live hi hf]
    simp only [hf, Option.any_some, hsame]

end FlowManager

namespace State

variable [Double R]

/-! ## The reference -/

/-- Non-threaded mode on the packets given so far. -/
def inSequence (S : Setup R) (s : State R) : FlowManager R :=
  FlowManager.addPackets S.sequential s.given

/-- What it has of a connection. -/
def reference (S : Setup R) (s : State R) (h : UInt32) : Connection R :=
  ((s.inSequence S).connection h).bare

/-- A connection comes to the one of non-threaded mode once the threads are done with it. While the
producer takes its flow out of the table, it is compared with the connection without the flow, and
during the sweep of `finished` a connection without a flow is one that the sweep is through with. -/
def CaughtUp (S : Setup R) (s : State R) (h : UInt32) : Prop :=
  match s.mgr.flows h with
  | none => (s.mgr.connection h).bare.SameLines
      (if s.producer.sweeps then (s.reference S h).finish else s.reference S h)
  | some j =>
    match s.producer.closingStage j with
    | some stage => (stage.close (s.mgr.connection h).bare).SameLines (s.reference S h).finish
    | none => (s.rest S j (s.mgr.connection h).bare).SameLines (s.reference S h)

/-- Every connection catches up. -/
structure Follows (S : Setup R) (s : State R) : Prop where
  replacing : ∀ p i stage, s.producer = .replacing p i stage →
    ∃ r, (s.reference S (S.flowHash p.tuple)).live = some r ∧
      FlowManager.replaces S r.flow p = true
  pushes : ∀ i, s.producer ≠ .undo i
  caughtUp : ∀ h, s.CaughtUp S h

/-- `finished` has returned. -/
def returned (s : State R) : Bool := s.history.any Call.isFinished

/-- No shutdown, no full queue, and nothing after `finished`. -/
def undisturbed (S : Setup R) (s : State R) : Action → Bool
  | .shutdown => false
  | .producer =>
    !s.returned &&
      match s.producer with
      | .pushing _ i =>
        decide ((s.queues (s.mgr.queueOf i)).length < S.config.workerThreadQueueSize)
      | _ => true
  | _ => !s.returned

/-- If the producer keeps the flow that it finds for a packet, non-threaded mode would keep it too,
or has closed it and opens none that lasts. -/
def agrees (S : Setup R) (s : State R) : Action → Bool
  | .producer =>
    match s.producer with
    | .lookup p =>
      !s.mgr.keepsFlow S p || (s.inSequence S).keepsFlow S.sequential p ||
        (s.inSequence S).isStray S.sequential p
    | _ => true
  | _ => true

/-- The producer's next step opens a flow. -/
def opensNext (S : Setup R) (s : State R) : Action → Bool
  | .producer =>
    match s.producer with
    | .lookup p => (s.mgr.flows (S.flowHash p.tuple)).isNone
    | .replacing _ _ .done => true
    | _ => false
  | _ => false

/-- A flow that is opened finds the memory that the one of non-threaded mode finds. It does as long
as both have opened the same number of flows. -/
def sameMemory (S : Setup R) (s : State R) (a : Action) : Prop :=
  s.opensNext S a = true →
    S.staleBytes s.mgr.heap.length = S.staleBytes (s.inSequence S).heap.length

section CaughtUp

variable {S : Setup R} {s s' : State R} {h : UInt32} {j : FlowId}

theorem caughtUp_of_none (hnone : s.mgr.flows h = none) :
    s.CaughtUp S h ↔ (s.mgr.connection h).bare.SameLines
      (if s.producer.sweeps then (s.reference S h).finish else s.reference S h) := by
  unfold CaughtUp
  rw [hnone]

theorem caughtUp_of_closing {stage : NotifyStage} (hj : s.mgr.flows h = some j)
    (hstage : s.producer.closingStage j = some stage) :
    s.CaughtUp S h ↔
      (stage.close (s.mgr.connection h).bare).SameLines (s.reference S h).finish := by
  unfold CaughtUp
  simp only [hj, hstage]

theorem caughtUp_of_open (hj : s.mgr.flows h = some j)
    (hstage : s.producer.closingStage j = none) :
    s.CaughtUp S h ↔
      (s.rest S j (s.mgr.connection h).bare).SameLines (s.reference S h) := by
  unfold CaughtUp
  simp only [hj, hstage]

/-- A step that is about other connections. -/
theorem CaughtUp.frame (hc : s.CaughtUp S h) (hflows : s'.mgr.flows h = s.mgr.flows h)
    (hconnection : (s'.mgr.connection h).bare = (s.mgr.connection h).bare)
    (hreference : s'.reference S h = s.reference S h)
    (hsweeps : s.mgr.flows h = none → s'.producer.sweeps = s.producer.sweeps)
    (hclosing : ∀ j, s.mgr.flows h = some j →
      s'.producer.closingStage j = s.producer.closingStage j)
    (hrest : ∀ j, s.mgr.flows h = some j → s'.rest S j = s.rest S j) : s'.CaughtUp S h := by
  cases hj : s.mgr.flows h with
  | none =>
    rw [caughtUp_of_none (hflows.trans hj), hconnection, hreference, hsweeps hj]
    exact (caughtUp_of_none hj).mp hc
  | some j =>
    cases hstage : s.producer.closingStage j with
    | some stage =>
      rw [caughtUp_of_closing (hflows.trans hj) ((hclosing j hj).trans hstage), hconnection,
        hreference]
      exact (caughtUp_of_closing hj hstage).mp hc
    | none =>
      rw [caughtUp_of_open (hflows.trans hj) ((hclosing j hj).trans hstage), hconnection,
        hreference, hrest j hj]
      exact (caughtUp_of_open hj hstage).mp hc

omit [Double R] in
theorem queueOf_congr {m m' : FlowManager R} (hqueue : m'.queueAt j = m.queueAt j) :
    m'.queueOf j = m.queueOf j := by
  have hvalue : ∀ m : FlowManager R, m.queueOf j = ((m.queueAt j).map Int.toNat).getD 0 := by
    intro m
    unfold FlowManager.queueOf FlowManager.queueAt
    cases m.heap[j]? <;> rfl
  rw [hvalue, hvalue, hqueue]

omit [Double R] in
theorem queueOf_eq {q : Nat} (hqueue : s.mgr.queueAt j = some (q : Int)) :
    s.mgr.queueOf j = q := by
  obtain ⟨f, hf, hid⟩ := Option.map_eq_some_iff.mp hqueue
  rw [FlowManager.queueOf, hf]
  simp only [hid, Int.toNat_natCast]

theorem rest_congr (hqueue : s'.mgr.queueAt j = s.mgr.queueAt j)
    (hworker : s'.worker = s.worker) (hwaiting : s'.waiting j = s.waiting j) :
    s'.rest S j = s.rest S j := by
  funext c
  unfold rest
  rw [queueOf_congr hqueue, hworker, hwaiting]

/-- The reference moves on with the packets given only. -/
theorem inSequence_congr (hgiven : s'.given = s.given) : s'.inSequence S = s.inSequence S := by
  unfold inSequence
  rw [hgiven]

theorem reference_congr (hgiven : s'.given = s.given) (h : UInt32) :
    s'.reference S h = s.reference S h := by
  unfold reference
  rw [inSequence_congr hgiven]

theorem quiet_inSequence : (s.inSequence S).Quiet S.sequential :=
  FlowManager.quiet_addPackets S.sequential s.given

theorem inSequence_keepsFlow (p : IPv4Packet) :
    (s.inSequence S).keepsFlow S.sequential p =
      (s.reference S (S.flowHash p.tuple)).live.any fun r => !FlowManager.replaces S r.flow p :=
  FlowManager.keepsFlow_eq quiet_inSequence p

/-- The reference takes the next packet. -/
theorem reference_append {p : IPv4Packet} (hgiven : s'.given = s.given ++ [p]) :
    s'.reference S (S.flowHash p.tuple) = (s.reference S (S.flowHash p.tuple)).process S
      (Flow.new S p (S.staleBytes (s.inSequence S).heap.length)) p := by
  have hquiet : (s.inSequence S).Quiet S.sequential := quiet_inSequence
  have hidle : ((s.inSequence S).connection (S.flowHash p.tuple)).Idle := by
    intro r hr
    obtain ⟨i, -, hrecord⟩ := Option.bind_eq_some_iff.mp hr
    obtain ⟨f, hf, rfl⟩ := Option.map_eq_some_iff.mp hrecord
    exact hquiet.idle i f hf
  have hconnection : (s'.inSequence S).connection (S.flowHash p.tuple) =
      ((s.inSequence S).connection (S.flowHash p.tuple)).process S.sequential
        (Flow.new S p (S.staleBytes (s.inSequence S).heap.length)) p := by
    unfold inSequence
    rw [hgiven, FlowManager.addPackets_append]
    exact FlowManager.connection_addPacket hquiet rfl p
  unfold reference
  rw [hconnection, Connection.process_sequential, Connection.bare_process S hidle]
  rfl

theorem reference_append_of_ne {p : IPv4Packet} (hgiven : s'.given = s.given ++ [p]) {k : UInt32}
    (hne : k ≠ S.flowHash p.tuple) : s'.reference S k = s.reference S k := by
  have hquiet : (s.inSequence S).Quiet S.sequential := quiet_inSequence
  unfold reference inSequence
  rw [hgiven, FlowManager.addPackets_append]
  exact congrArg Connection.bare (FlowManager.connection_addPacket_of_ne hquiet p hne)

/-- What non-threaded mode makes of a packet that it opens a flow for and closes it. -/
theorem reference_append_of_stray {p : IPv4Packet} (hgiven : s'.given = s.given ++ [p])
    (hstray : (s.inSequence S).isStray S.sequential p = true) :
    (s.reference S (S.flowHash p.tuple)).live = none ∧
      (s'.reference S (S.flowHash p.tuple)).SameLines (s.reference S (S.flowHash p.tuple)) := by
  have hsame : S.SameMatching S.sequential := ⟨rfl, rfl, rfl, rfl, rfl⟩
  unfold FlowManager.isStray at hstray
  simp only [Flow.addPacket_congr hsame, Bool.and_eq_true, Option.isNone_iff_eq_none,
    Bool.not_eq_true'] at hstray
  obtain ⟨⟨hnone, hclosed⟩, hplain⟩ := hstray
  have hlive : (s.reference S (S.flowHash p.tuple)).live = none :=
    FlowManager.bare_live_of_none hnone
  rw [reference_append hgiven]
  exact ⟨hlive, Connection.process_of_stray hlive rfl hclosed hplain⟩

end CaughtUp

/-! ## The workers -/

section Workers

variable {S : Setup R} {s s' : State R}

omit [Double R] in
theorem given_congr (hhistory : s'.history = s.history) : s'.given = s.given := by
  unfold given
  rw [hhistory]

omit [Double R] in
theorem waiting_congr {j : FlowId} (hqueue : s'.mgr.queueAt j = s.mgr.queueAt j)
    (hqueues : s'.queues = s.queues) (hhand : s'.producer.hand = s.producer.hand) :
    s'.waiting j = s.waiting j := by
  unfold waiting
  rw [queueOf_congr hqueue, hqueues, hhand]

theorem completesFor_polling (j : FlowId) (c : Connection R) :
    WorkerPc.polling.completesFor S j c = c :=
  WorkerPc.completesFor_of_ne (fun h => by cases h) c

/-- A worker goes on with its flow, which is nothing to the other connections. -/
theorem Follows.workerFrame (hf : Follows S s) (hs : Healthy S s) {i : Nat} {j : FlowId}
    {pc : WorkerPc} {g : FlowRecord R → FlowRecord R} (hw : (s.worker i).flow = some j)
    (hpc : pc.flow = some j ∨ pc = .polling) (hmgr : FlowManager.Touches j g s.mgr s'.mgr)
    (hqueueAt : ∀ k, s'.mgr.queueAt k = s.mgr.queueAt k)
    (hworker : s'.worker = Function.update s.worker i pc) (hqueues : s'.queues = s.queues)
    (hproducer : s'.producer = s.producer) (hhistory : s'.history = s.history)
    (hown : ∀ h, s.mgr.flows h = some j → s'.CaughtUp S h) : Follows S s' := by
  have hgiven : s'.given = s.given := given_congr hhistory
  have hhome : s.mgr.Home i j := hs.working i j hw
  have hwaiting : ∀ k, s'.waiting k = s.waiting k := fun k =>
    waiting_congr (hqueueAt k) hqueues (by rw [hproducer])
  refine ⟨?_, by rw [hproducer]; exact hf.pushes, fun h => ?_⟩
  · rw [hproducer]
    intro p k stage hp
    rw [reference_congr hgiven]
    exact hf.replacing p k stage hp
  · by_cases hj : s.mgr.flows h = some j
    · exact hown h hj
    · have hvalid : s.mgr.hashAt j ≠ some h := by
        intro hhash
        exact hj (hhome.1.flows hhash)
      refine (hf.caughtUp h).frame (by rw [hmgr.flows]) ?_ (reference_congr hgiven h)
        (fun _ => by rw [hproducer]) (fun k _ => by rw [hproducer]) fun k hk => ?_
      · rw [hmgr.connection_of_ne hvalid (hs.indexed.valid h)]
      · have hne : j ≠ k := by
          intro heq
          exact hj (heq ▸ hk)
        funext c
        unfold rest
        rw [queueOf_congr (hqueueAt k), hwaiting, hworker]
        by_cases hq : s.mgr.queueOf k = i
        · have hold : (s.worker i).flow ≠ some k := by
            rw [hw]
            exact fun heq => hne (Option.some.inj heq)
          have hnew : pc.flow ≠ some k := by
            rcases hpc with hpc | rfl
            · rw [hpc]
              exact fun heq => hne (Option.some.inj heq)
            · exact fun h => by cases h
          rw [hq, Function.update_self, WorkerPc.completesFor_of_ne hold,
            WorkerPc.completesFor_of_ne hnew]
        · rw [Function.update_of_ne hq]

/-- What the worker has done and what it has left come to what it had left. -/
theorem Follows.workerMoves (hf : Follows S s) (hs : Healthy S s) {i : Nat} {j : FlowId}
    {pc : WorkerPc} {g : FlowRecord R → FlowRecord R} (hw : (s.worker i).flow = some j)
    (hpc : pc.flow = some j ∨ pc = .polling) (hmgr : FlowManager.Touches j g s.mgr s'.mgr)
    (hqueueAt : ∀ k, s'.mgr.queueAt k = s.mgr.queueAt k)
    (hworker : s'.worker = Function.update s.worker i pc) (hqueues : s'.queues = s.queues)
    (hproducer : s'.producer = s.producer) (hhistory : s'.history = s.history)
    (hcompletes : ∀ h, s.mgr.flows h = some j →
      pc.completes S (s'.mgr.connection h).bare =
        (s.worker i).completes S (s.mgr.connection h).bare) : Follows S s' := by
  refine hf.workerFrame hs hw hpc hmgr hqueueAt hworker hqueues hproducer hhistory fun h hj => ?_
  have hgiven : s'.given = s.given := given_congr hhistory
  have hstage : s.producer.closingStage j = none :=
    ProducerPc.closingStage_of_ne fun hclosing => (hs.closing j hclosing).2 i hw
  have hqueue : s.mgr.queueOf j = i := queueOf_eq (hs.working i j hw).2
  have hqueue' : s'.mgr.queueOf j = i := (queueOf_congr (hqueueAt j)).trans hqueue
  have hwaiting : s'.waiting j = s.waiting j :=
    waiting_congr (hqueueAt j) hqueues (by rw [hproducer])
  have hrest : s'.rest S j (s'.mgr.connection h).bare =
      s.rest S j (s.mgr.connection h).bare := by
    unfold rest
    rw [hqueue, hqueue', hworker, Function.update_self, hwaiting,
      WorkerPc.completesFor_of_flow hw, ← hcompletes h hj]
    rcases hpc with hpc | rfl
    · rw [WorkerPc.completesFor_of_flow hpc]
    · rw [completesFor_polling]
      rfl
  rw [caughtUp_of_open (by rw [hmgr.flows, hj]) (by rw [hproducer, hstage]),
    reference_congr hgiven, hrest]
  exact (caughtUp_of_open hj hstage).mp (hf.caughtUp h)

/-- … and does nothing to the flows meanwhile. -/
theorem Follows.workerGoes (hf : Follows S s) (hs : Healthy S s) {i : Nat} {j : FlowId}
    {pc : WorkerPc} (hw : (s.worker i).flow = some j) (hpc : pc.flow = some j ∨ pc = .polling)
    (hcompletes : ∀ h, s.mgr.flows h = some j →
      pc.completes S (s.mgr.connection h).bare =
        (s.worker i).completes S (s.mgr.connection h).bare) :
    Follows S { s with worker := Function.update s.worker i pc } :=
  hf.workerMoves hs hw hpc (FlowManager.touches_refl s.mgr j) (fun _ => rfl) rfl rfl rfl rfl
    hcompletes

/-- A worker takes a packet from its queue. -/
theorem Follows.pops (hf : Follows S s) (hs : Healthy S s) {i : Nat} {job : Job}
    {jobs : List Job} (hw : s.worker i = .polling) (hq : s.queues i = job :: jobs) :
    Follows S ({ s with queues := Function.update s.queues i jobs }.setWorker i (.lookup job)) := by
  refine ⟨hf.replacing, hf.pushes, fun h => ?_⟩
  refine (hf.caughtUp h).frame rfl rfl rfl (fun _ => rfl) (fun _ _ => rfl) fun j hj => ?_
  have hhome : s.mgr.Home i job.flow := hs.queued i job (by rw [hq]; exact List.mem_cons_self)
  funext c
  show ((Function.update s.worker i (.lookup job) (s.mgr.queueOf j)).completesFor S j c).absorbs S
      (((Function.update s.queues i jobs (s.mgr.queueOf j) ++ s.producer.hand.toList).filter
        fun job => job.flow == j).map Job.packet) = s.rest S j c
  unfold rest waiting
  by_cases hqueue : s.mgr.queueOf j = i
  · rw [hqueue, Function.update_self, Function.update_self, hw, hq, completesFor_polling,
      List.cons_append]
    by_cases hflow : job.flow = j
    · have htaken : (WorkerPc.lookup job).flow = some j := congrArg some hflow
      simp only [List.filter_cons, beq_iff_eq.mpr hflow, if_true, List.map_cons]
      rw [WorkerPc.completesFor_of_flow htaken, Connection.absorbs_cons]
      rfl
    · have hother : (WorkerPc.lookup job).flow ≠ some j := fun h => hflow (Option.some.inj h)
      simp only [List.filter_cons, beq_eq_false_iff_ne.mpr hflow, Bool.false_eq_true, if_false]
      rw [WorkerPc.completesFor_of_ne hother]
  · rw [Function.update_of_ne hqueue, Function.update_of_ne hqueue]

/-- A worker leaves its loop. -/
theorem Follows.exits (hf : Follows S s) {i : Nat} (hw : s.worker i = .polling) :
    Follows S (s.setWorker i .exited) := by
  refine ⟨hf.replacing, hf.pushes, fun h => ?_⟩
  refine (hf.caughtUp h).frame rfl rfl rfl (fun _ => rfl) (fun _ _ => rfl) fun j _ => ?_
  funext c
  show ((Function.update s.worker i .exited (s.mgr.queueOf j)).completesFor S j c).absorbs S
    (s.waiting j) = s.rest S j c
  unfold rest
  by_cases hqueue : s.mgr.queueOf j = i
  · rw [hqueue, Function.update_self, hw, completesFor_polling,
      WorkerPc.completesFor_of_ne fun h => by cases h]
  · rw [Function.update_of_ne hqueue]

/-- What is left of the connection of a flow that a worker is about to delete: what waits for the
flow comes too late. -/
theorem Follows.deleting (hf : Follows S s) (hs : Healthy S s) {i : Nat} {j : FlowId}
    {h : UInt32} (hw : s.worker i = .deleting j) (hj : s.mgr.flows h = some j) :
    s.producer.closingStage j = none ∧
      (s.mgr.connection h).bare.retire.SameLines (s.reference S h) := by
  have hflow : (s.worker i).flow = some j := by
    rw [hw]
    rfl
  have hstage : s.producer.closingStage j = none :=
    ProducerPc.closingStage_of_ne fun hclosing => (hs.closing j hclosing).2 i hflow
  have hcaught := (caughtUp_of_open hj hstage).mp (hf.caughtUp h)
  unfold rest at hcaught
  rw [queueOf_eq (hs.working i j hflow).2, WorkerPc.completesFor_of_flow hflow, hw] at hcaught
  have hretired : ((s.mgr.connection h).bare.retire.absorbs S (s.waiting j)).SameLines
      (s.reference S h) := hcaught
  rw [Connection.absorbs_of_none (Connection.retire_live _)] at hretired
  exact ⟨hstage, hretired⟩

/-- A worker deletes a flow. -/
theorem Follows.deletes (hf : Follows S s) (hs : Healthy S s) {i : Nat} {j : FlowId} {f : Flow R}
    (hw : s.worker i = .deleting j) (hflow : s.mgr.heap[j]? = some f) :
    Follows S ({ s with mgr := s.mgr.erase f.hash }.setWorker i .polling) := by
  have hflows : s.mgr.flows f.hash = some j :=
    (hs.working i j (by rw [hw]; rfl)).1.flows (FlowManager.hashAt_of_heap hflow)
  refine ⟨hf.replacing, hf.pushes, fun h => ?_⟩
  by_cases hh : h = f.hash
  · subst hh
    obtain ⟨-, hretired⟩ := hf.deleting hs hw hflows
    have hlive : (s.reference S f.hash).live = none := by
      rw [← hretired.live]
      rfl
    have hnone : (s.mgr.erase f.hash).flows f.hash = none := by
      rw [FlowManager.erase_flows, Function.update_self]
    refine (caughtUp_of_none hnone).mpr ?_
    show ((s.mgr.erase f.hash).connection f.hash).bare.SameLines
      (if s.producer.sweeps then (s.reference S f.hash).finish else s.reference S f.hash)
    rw [FlowManager.connection_erase hs.indexed, Connection.finish_of_none hlive, ite_self,
      Connection.bare, Forgets.map_retire]
    exact hretired
  · have hsame : (s.mgr.erase f.hash).flows h = s.mgr.flows h := by
      rw [FlowManager.erase_flows, Function.update_of_ne hh]
    refine (hf.caughtUp h).frame hsame ?_ rfl (fun _ => rfl) (fun _ _ => rfl) fun k hk => ?_
    · show ((s.mgr.erase f.hash).connection h).bare = _
      rw [FlowManager.connection_erase_of_ne hs.indexed hh]
    · have hne : j ≠ k := hs.indexed.ne_of_keys hflows hk hh
      have hqueue : (s.mgr.erase f.hash).queueOf k = s.mgr.queueOf k :=
        queueOf_congr (FlowManager.erase_queueAt s.mgr f.hash k)
      funext c
      show ((Function.update s.worker i .polling ((s.mgr.erase f.hash).queueOf k)).completesFor
          S k c).absorbs S
            (((s.queues ((s.mgr.erase f.hash).queueOf k) ++ s.producer.hand.toList).filter
              fun job => job.flow == k).map Job.packet) = s.rest S k c
      rw [hqueue]
      unfold rest waiting
      by_cases hq : s.mgr.queueOf k = i
      · rw [hq, Function.update_self, completesFor_polling, hw, WorkerPc.completesFor_of_ne]
        exact fun h => hne (Option.some.inj h)
      · rw [Function.update_of_ne hq]

omit [Double R] in
/-- Something waits for a flow that has packets pending and is about to be deleted. -/
theorem waiting_of_busy (hs : Healthy S s) (hpushes : ∀ k, s.producer ≠ .undo k) {i : Nat}
    {j : FlowId} {f : Flow R} (hw : s.worker i = .deleting j) (hflow : s.mgr.heap[j]? = some f)
    (hbusy : f.havePktsInQueue = true) : s.waiting j ≠ [] := by
  intro hwaiting
  have hhome : s.mgr.Home i j := hs.working i j (by rw [hw]; rfl)
  unfold waiting at hwaiting
  rw [queueOf_eq hhome.2, List.map_eq_nil_iff, List.filter_eq_nil_iff] at hwaiting
  have hqueue : (s.queues i).countP (fun job => job.flow == j) = 0 :=
    List.countP_eq_zero.mpr fun job hjob => hwaiting job (List.mem_append_left _ hjob)
  have hholds : s.producer.holds j = 0 := by
    cases hp : s.producer with
    | pushing p k =>
      have hne : k ≠ j := by
        intro heq
        refine hwaiting ⟨p, k⟩ (List.mem_append_right _ ?_) (beq_iff_eq.mpr heq)
        rw [hp]
        exact List.mem_singleton.mpr rfl
      exact if_neg hne
    | undo k => exact absurd hp (hpushes k)
    | _ => rfl
  have hcount := hs.counted i j hhome
  rw [FlowManager.counterAt_of_heap hflow, pending, hqueue, hholds, hw] at hcount
  have hzero : f.pktsInQueue = 0 := Option.some.inj hcount
  simp only [Flow.havePktsInQueue, hzero, Int.lt_irrefl, decide_false] at hbusy
  cases hbusy

/-- A worker leaves a flow in the table that has packets pending, and the next of them takes it
out. -/
theorem Follows.marks (hf : Follows S s) (hs : Healthy S s) {i : Nat} {j : FlowId} {f : Flow R}
    (hw : s.worker i = .deleting j) (hflow : s.mgr.heap[j]? = some f)
    (hbusy : f.havePktsInQueue = true)
    (hmgr : s'.mgr = s.mgr.modifyFlow j Flow.setFinishedAndNotified)
    (hworker : s'.worker = Function.update s.worker i .polling) (hqueues : s'.queues = s.queues)
    (hproducer : s'.producer = s.producer) (hhistory : s'.history = s.history) :
    Follows S s' := by
  have hown : (s.worker i).flow = some j := by
    rw [hw]
    rfl
  have htouches : FlowManager.Touches j (fun r => r.modify Flow.setFinishedAndNotified) s.mgr
      s'.mgr := by
    rw [hmgr]
    exact FlowManager.touches_modifyFlow s.mgr j fun _ => rfl
  have hqueueAt : ∀ k, s'.mgr.queueAt k = s.mgr.queueAt k := by
    rw [hmgr]
    exact FlowManager.modifyFlow_queueAt (g := Flow.setFinishedAndNotified) fun _ => rfl
  refine hf.workerFrame hs hown (Or.inr rfl) htouches hqueueAt hworker hqueues hproducer hhistory
    fun h hj => ?_
  obtain ⟨hstage, hretired⟩ := hf.deleting hs hw hj
  have hmarked : (s'.mgr.connection h).bare =
      (s.mgr.connection h).bare.modify fun r => r.modify Flow.setFinishedAndNotified :=
    htouches.bare_connection _ hj fun r _ => Flow.forgets_bare.map_mark r
  have hlive : ((s.mgr.connection h).bare.modify fun r =>
      r.modify Flow.setFinishedAndNotified).live = some (FlowRecord.modify
        { flow := f.bare, told := (s.mgr.told j).map (Note.map Flow.bare) }
        Flow.setFinishedAndNotified) := by
    rw [Connection.modify, FlowManager.bare_live hj hflow]
    rfl
  have hqueue : s'.mgr.queueOf j = i :=
    (queueOf_congr (hqueueAt j)).trans (queueOf_eq (hs.working i j hown).2)
  rw [caughtUp_of_open (by rw [htouches.flows, hj]) (by rw [hproducer, hstage]),
    reference_congr (given_congr hhistory)]
  unfold rest
  rw [hqueue, hworker, Function.update_self, completesFor_polling, hmarked,
    waiting_congr (hqueueAt j) hqueues (by rw [hproducer])]
  cases hnext : s.waiting j with
  | nil => exact absurd hnext (waiting_of_busy hs hf.pushes hw hflow hbusy)
  | cons p packets =>
    have hlast := Connection.absorb_of_notified (S := S) hlive rfl p
    have hgone := hlast.live.trans (Connection.retire_live _)
    rw [Connection.absorbs_cons, Connection.absorbs_of_none hgone]
    exact (hlast.trans (Connection.retire_modify _ _)).trans hretired

end Workers

/-! ## The producer -/

section Producer

variable {S : Setup R} {s s' : State R}

/-- The producer makes a move that is nothing to the connections and takes no packet. -/
theorem Follows.producerMoves (hf : Follows S s) (hflows : s'.mgr.flows = s.mgr.flows)
    (hconnection : ∀ h, (s'.mgr.connection h).bare = (s.mgr.connection h).bare)
    (hqueueAt : ∀ j, s'.mgr.queueAt j = s.mgr.queueAt j) (hworker : s'.worker = s.worker)
    (hhistory : s'.history = s.history) (hwaiting : ∀ j, s'.waiting j = s.waiting j)
    (hsweeps : s'.producer.sweeps = s.producer.sweeps)
    (hclosing : ∀ j, s.producer.closingStage j = none ∧ s'.producer.closingStage j = none)
    (hreplacing : ∀ p i stage, s'.producer ≠ .replacing p i stage)
    (hpushes : ∀ i, s'.producer ≠ .undo i) : Follows S s' := by
  have hgiven : s'.given = s.given := given_congr hhistory
  refine ⟨fun p i stage hp => absurd hp (hreplacing p i stage), hpushes, fun h => ?_⟩
  refine (hf.caughtUp h).frame (by rw [hflows]) (hconnection h) (reference_congr hgiven h)
    (fun _ => hsweeps) (fun j _ => (hclosing j).2.trans (hclosing j).1.symm) fun j _ => ?_
  exact rest_congr (hqueueAt j) hworker (hwaiting j)

/-- … and leaves everything but itself as it is. -/
theorem Follows.producerGoes (hf : Follows S s) {pc : ProducerPc}
    (hhand : pc.hand = s.producer.hand) (hsweeps : pc.sweeps = s.producer.sweeps)
    (hclosing : ∀ j, s.producer.closingStage j = none ∧ pc.closingStage j = none)
    (hreplacing : ∀ p i stage, pc ≠ .replacing p i stage) (hpushes : ∀ i, pc ≠ .undo i) :
    Follows S { s with producer := pc } :=
  hf.producerMoves rfl (fun _ => rfl) (fun _ => rfl) rfl rfl
    (fun _ => waiting_congr rfl rfl hhand) hsweeps hclosing hreplacing hpushes

/-- `finished` takes the mutex. -/
theorem Follows.locks (hf : Follows S s) {k : Nat} (hp : s.producer = .draining k)
    (mutex : Option Thread) :
    Follows S { s with producer := .sweeping, mutex := mutex } := by
  refine ⟨fun p i stage hp => (by cases hp), fun i hp => (by cases hp), fun h => ?_⟩
  have hcaught := hf.caughtUp h
  cases hj : s.mgr.flows h with
  | none =>
    have hsame : (s.mgr.connection h).bare.SameLines (s.reference S h) := by
      have hold := (caughtUp_of_none hj).mp hcaught
      rw [hp] at hold
      exact hold
    have hlive : (s.reference S h).live = none := by
      rw [← hsame.live]
      exact FlowManager.bare_live_of_none hj
    refine (caughtUp_of_none (s := { s with producer := .sweeping, mutex := mutex }) hj).mpr ?_
    show (s.mgr.connection h).bare.SameLines (s.reference S h).finish
    rw [Connection.finish_of_none hlive]
    exact hsame
  | some j =>
    refine hcaught.frame rfl rfl rfl (fun hnone => ?_) (fun i _ => by rw [hp]; rfl) fun i _ => ?_
    · rw [hj] at hnone
      cases hnone
    · exact rest_congr rfl rfl (waiting_congr rfl rfl (by rw [hp]; rfl))

/-- Nothing is left to do for a flow that the producer may take out of the table. -/
theorem Follows.settled (hf : Follows S s) (hs : Healthy S s) {h : UInt32} {j : FlowId}
    (hj : s.mgr.flows h = some j) (hfree : ∀ i, (s.worker i).flow ≠ some j)
    (hcounter : s.mgr.counterAt j = some 0) (hhand : s.producer.hand = none)
    (hclosing : s.producer.closing ≠ some j) :
    (s.mgr.connection h).bare.SameLines (s.reference S h) := by
  have hjobs := hs.jobs_of_idle hj hcounter
  have hwaiting : s.waiting j = [] := by
    unfold waiting
    rw [hhand, Option.toList_none, List.append_nil, List.map_eq_nil_iff, List.filter_eq_nil_iff]
    intro job hjob hflow
    exact hjobs _ job hjob (beq_iff_eq.mp hflow)
  have hcaught := (caughtUp_of_open hj (ProducerPc.closingStage_of_ne hclosing)).mp (hf.caughtUp h)
  unfold rest at hcaught
  rw [WorkerPc.completesFor_of_ne (hfree _), hwaiting] at hcaught
  exact hcaught

/-- The producer begins to take a flow out of the table. -/
theorem Follows.closes (hf : Follows S s) (hs : Healthy S s) {pc : ProducerPc}
    {mutex : Option Thread} (hs' : Healthy S { s with producer := pc, mutex := mutex })
    {i : FlowId} (hhand : s.producer.hand = none)
    (hold : s.producer.closing = none) (hnew : pc.closing = some i)
    (hstage : pc.closingStage i = some .test) (hsweeps : pc.sweeps = s.producer.sweeps)
    (hnewHand : pc.hand = none)
    (hreplacing : ∀ p j stage, pc = .replacing p j stage →
      ∃ r, (s.reference S (S.flowHash p.tuple)).live = some r ∧
        FlowManager.replaces S r.flow p = true) :
    Follows S { s with producer := pc, mutex := mutex } := by
  obtain ⟨hcounter, hfree⟩ := hs'.closing i hnew
  refine ⟨hreplacing, fun k hk => ?_, fun k => ?_⟩
  · have hundo : pc.closing = none := by
      rw [show pc = .undo k from hk]
      rfl
    rw [hnew] at hundo
    cases hundo
  · by_cases hk : s.mgr.flows k = some i
    · have hsame := hf.settled hs hk hfree hcounter hhand
        (by rw [hold]; exact (Option.some_ne_none i).symm)
      refine (caughtUp_of_closing (s := { s with producer := pc, mutex := mutex }) hk hstage).mpr ?_
      exact hsame.finish
    · refine (hf.caughtUp k).frame rfl rfl rfl (fun _ => hsweeps) (fun j hj => ?_) fun j hj => ?_
      · have hne : i ≠ j := by
          intro heq
          exact hk (heq ▸ hj)
        rw [ProducerPc.closingStage_of_ne, ProducerPc.closingStage_of_ne]
        · rw [hold]
          exact (Option.some_ne_none j).symm
        · exact fun heq => hne (Option.some.inj (hnew.symm.trans heq))
      · exact rest_congr rfl rfl (waiting_congr rfl rfl (hnewHand.trans hhand.symm))

/-- A stage of a notification by the producer. -/
theorem Follows.notifies (hf : Follows S s) (hs : Healthy S s) {pc : ProducerPc}
    {m : FlowManager R} {h : UInt32} {i : FlowId} {f : Flow R} {stage stage' : NotifyStage}
    (hi : s.mgr.flows h = some i) (hflow : s.mgr.heap[i]? = some f)
    (hnot : s.mgr.Notifies i f stage m stage')
    (hstage : s.producer.closingStage i = some stage) (hstage' : pc.closingStage i = some stage')
    (hothers : ∀ j, j ≠ i → s.producer.closingStage j = none ∧ pc.closingStage j = none)
    (hsweeps : pc.sweeps = s.producer.sweeps) (hhand : pc.hand = s.producer.hand)
    (hreplacing : ∀ p j stage, pc = .replacing p j stage →
      ∃ r, (s.reference S (S.flowHash p.tuple)).live = some r ∧
        FlowManager.replaces S r.flow p = true)
    (hpushes : ∀ j, pc ≠ .undo j) : Follows S { s with mgr := m, producer := pc } := by
  obtain ⟨g, htouches⟩ := hnot.touches
  have hsame := hnot.sameTable
  refine ⟨hreplacing, hpushes, fun k => ?_⟩
  by_cases hk : s.mgr.flows k = some i
  · refine (caughtUp_of_closing (s := { s with mgr := m, producer := pc })
      (by rw [← hk]; exact congrFun hsame.flows k) hstage').mpr ?_
    show (stage'.close (m.connection k).bare).SameLines (s.reference S k).finish
    rw [hnot.close hk hflow]
    exact (caughtUp_of_closing hk hstage).mp (hf.caughtUp k)
  · have hhash : s.mgr.hashAt i ≠ some k := by
      intro hhash
      have hkey := hs.indexed.valid h i hi
      rw [hhash] at hkey
      cases hkey
      exact hk hi
    refine (hf.caughtUp k).frame (congrFun hsame.flows k) ?_ rfl (fun _ => hsweeps)
      (fun j hj => ?_) fun j _ => ?_
    · show (m.connection k).bare = _
      rw [htouches.connection_of_ne hhash (hs.indexed.valid k)]
    · have hne : j ≠ i := by
        intro heq
        exact hk (heq ▸ hj)
      exact (hothers j hne).2.trans (hothers j hne).1.symm
    · exact rest_congr (hsame.queueAt j) rfl (waiting_congr (hsame.queueAt j) rfl hhand)

/-- The producer keeps the flow that it has found, for a packet that non-threaded mode keeps it for
or makes nothing of. -/
theorem Follows.reuses (hf : Follows S s) (hm : s.mgr.Indexed S) {p : IPv4Packet} {i : FlowId}
    (hp : s.producer = .lookup p) (hi : s.mgr.flows (S.flowHash p.tuple) = some i)
    (hagrees : (s.inSequence S).keepsFlow S.sequential p = true ∨
      (s.inSequence S).isStray S.sequential p = true) :
    Follows S { s with producer := .found p i, history := s.history ++ [.packet p] } := by
  have hgiven : given { s with producer := .found p i, history := s.history ++ [.packet p] } =
      s.given ++ [p] := given_append rfl
  have hwaiting : ∀ j, waiting { s with
      producer := .found p i, history := s.history ++ [.packet p] } j =
      s.waiting j ++ if i = j then [p] else [] := by
    intro j
    show (List.filter (fun job : Job => job.flow == j)
      (s.queues (s.mgr.queueOf j) ++ [⟨p, i⟩])).map Job.packet = _
    unfold waiting
    rw [hp, List.filter_append, List.map_append]
    show _ = (List.filter (fun job : Job => job.flow == j)
      (s.queues (s.mgr.queueOf j) ++ [])).map Job.packet ++ _
    rw [List.append_nil]
    by_cases hij : i = j
    · simp only [hij, List.filter_cons, beq_self_eq_true, if_true, List.filter_nil,
        List.map_cons, List.map_nil]
    · simp only [hij, List.filter_cons, beq_eq_false_iff_ne.mpr hij, Bool.false_eq_true,
        if_false, List.filter_nil, List.map_nil]
  have hstage : ∀ j, s.producer.closingStage j = none := by
    rw [hp]
    exact fun _ => rfl
  refine ⟨fun q j stage hq => (by cases hq), fun j hj => (by cases hj), fun h => ?_⟩
  by_cases hh : h = S.flowHash p.tuple
  · subst hh
    have hcaught := (caughtUp_of_open hi (hstage i)).mp (hf.caughtUp _)
    refine (caughtUp_of_open (s := { s with
      producer := .found p i, history := s.history ++ [.packet p] }) hi rfl).mpr ?_
    have hrest : rest S { s with producer := .found p i, history := s.history ++ [.packet p] } i
        (s.mgr.connection (S.flowHash p.tuple)).bare =
        (s.rest S i (s.mgr.connection (S.flowHash p.tuple)).bare).absorb S p := by
      unfold rest
      rw [hwaiting, if_pos rfl, Connection.absorbs_append]
      rfl
    show (rest S { s with producer := .found p i, history := s.history ++ [.packet p] } i
      (s.mgr.connection (S.flowHash p.tuple)).bare).SameLines _
    rw [hrest]
    rcases hagrees with hkeeps | hstray
    · rw [inSequence_keepsFlow, Option.any_eq_true] at hkeeps
      obtain ⟨r, hlive, hkept⟩ := hkeeps
      rw [reference_append hgiven,
        ← Connection.absorb_of_keeps hlive (by rw [Bool.not_eq_true'] at hkept; exact hkept)]
      exact hcaught.absorb S p
    · obtain ⟨hlive, hsilent⟩ := reference_append_of_stray hgiven hstray
      rw [Connection.absorb_of_none (hcaught.live.trans hlive)]
      exact hcaught.trans hsilent.symm
  · refine (hf.caughtUp h).frame rfl rfl (reference_append_of_ne hgiven hh)
      (fun _ => by rw [hp]; rfl) (fun j _ => by rw [hstage]; rfl) fun j hj => ?_
    have hne : i ≠ j := hm.ne_of_keys hi hj hh
    refine rest_congr rfl rfl ?_
    rw [hwaiting, if_neg hne, List.append_nil]

/-- The producer opens a flow, in a table that has none for the packet any more. -/
theorem Follows.opens (hf : Follows S s) (hs : Healthy S s) (mutex : Option Thread)
    {m : FlowManager R} {p : IPv4Packet} (hm : m.Indexed S) (hheap : m.heap = s.mgr.heap)
    (hnone : m.flows (S.flowHash p.tuple) = none)
    (hothers : ∀ h, h ≠ S.flowHash p.tuple →
      m.connection h = s.mgr.connection h ∧ m.flows h = s.mgr.flows h)
    (hlookup : ∀ fresh, ((m.connection (S.flowHash p.tuple)).bare.start fresh).SameLines
      ((s.reference S (S.flowHash p.tuple)).lookup S fresh p))
    (hmemory : S.staleBytes s.mgr.heap.length = S.staleBytes (s.inSequence S).heap.length)
    (hclosing : ∀ h j, h ≠ S.flowHash p.tuple → s.mgr.flows h = some j →
      s.producer.closingStage j = none)
    (hhand : s.producer.hand = none) (hsweeps : s.producer.sweeps = false) :
    Follows S { s with
      mgr := (m.insertFlow S none p).1
      producer := .found p s.mgr.heap.length
      mutex := mutex
      history := s.history ++ [.packet p] } := by
  have hgiven : given { s with
      mgr := (m.insertFlow S none p).1
      producer := .found p s.mgr.heap.length
      mutex := mutex
      history := s.history ++ [.packet p] } = s.given ++ [p] := given_append rfl
  have hlive : ∀ i, m.flows i ≠ some s.mgr.heap.length := by
    intro h hnew
    have hlt := FlowManager.lt_length_of_hashAt (hm.valid h _ hnew)
    rw [hheap] at hlt
    exact absurd hlt (Nat.lt_irrefl _)
  have hold : ∀ q j, s.mgr.Home q j → j ≠ s.mgr.heap.length := by
    rintro q j ⟨⟨h, hhash, -⟩, -⟩ rfl
    exact absurd (FlowManager.lt_length_of_hashAt hhash) (Nat.lt_irrefl _)
  refine ⟨fun q j stage hq => (by cases hq), fun j hj => (by cases hj), fun h => ?_⟩
  by_cases hh : h = S.flowHash p.tuple
  · subst hh
    have hnew : (m.insertFlow S none p).1.flows (S.flowHash p.tuple) =
        some s.mgr.heap.length := by
      rw [FlowManager.insertFlow_flows, Function.update_self, hheap]
    refine (caughtUp_of_open (s := { s with
      mgr := (m.insertFlow S none p).1
      producer := .found p s.mgr.heap.length
      mutex := mutex
      history := s.history ++ [.packet p] }) hnew rfl).mpr ?_
    rw [reference_append hgiven, ← Connection.absorb_lookup]
    have hconnection : ((m.insertFlow S none p).1.connection (S.flowHash p.tuple)).bare.SameLines
        ((s.reference S (S.flowHash p.tuple)).lookup S
          (Flow.new S p (S.staleBytes (s.inSequence S).heap.length)) p) := by
      rw [FlowManager.connection_insertFlow hm none p hnone, ← hmemory, ← hheap]
      exact hlookup _
    show (((s.worker _).completesFor S s.mgr.heap.length
      ((m.insertFlow S none p).1.connection (S.flowHash p.tuple)).bare).absorbs S
        ((List.filter (fun job : Job => job.flow == s.mgr.heap.length)
          (s.queues _ ++ [⟨p, s.mgr.heap.length⟩])).map Job.packet)).SameLines _
    have hqueue : ∀ q, List.filter (fun job : Job => job.flow == s.mgr.heap.length)
        (s.queues q) = [] := by
      intro q
      rw [List.filter_eq_nil_iff]
      intro job hjob hflow
      exact hold q job.flow (hs.queued q job hjob) (beq_iff_eq.mp hflow)
    have hworker : ∀ q, (s.worker q).flow ≠ some s.mgr.heap.length :=
      fun q hflow => hold q _ (hs.working q _ hflow) rfl
    rw [WorkerPc.completesFor_of_ne (hworker _), List.filter_append, hqueue]
    simp only [List.filter_cons, beq_self_eq_true, if_true, List.filter_nil, List.nil_append,
      List.map_cons, List.map_nil, Connection.absorbs_cons]
    exact hconnection.absorb S p
  · obtain ⟨hconnection, hflows⟩ := hothers h hh
    have hsame : (m.insertFlow S none p).1.flows h = s.mgr.flows h := by
      rw [FlowManager.insertFlow_flows, Function.update_of_ne hh, hflows]
    refine (hf.caughtUp h).frame hsame ?_ (reference_append_of_ne hgiven hh)
      (fun _ => hsweeps.symm) (fun j hj => (hclosing h j hh hj).symm) fun j hj => ?_
    · show ((m.insertFlow S none p).1.connection h).bare = _
      rw [FlowManager.connection_insertFlow_of_ne hm none p hh, hconnection]
    · have hne : s.mgr.heap.length ≠ j := by
        intro heq
        rw [← hflows] at hj
        exact hlive h (heq ▸ hj)
      have hqueue : (m.insertFlow S none p).1.queueAt j = s.mgr.queueAt j := by
        rw [FlowManager.insertFlow_queueAt none p (by rw [hheap]; exact hne.symm)]
        unfold FlowManager.queueAt
        rw [hheap]
      refine rest_congr hqueue rfl ?_
      unfold waiting
      rw [queueOf_congr hqueue, hhand]
      show (List.filter (fun job : Job => job.flow == j) (s.queues (s.mgr.queueOf j) ++
        [⟨p, s.mgr.heap.length⟩])).map Job.packet = _
      simp only [List.filter_append, List.filter_cons, beq_eq_false_iff_ne.mpr hne,
        Bool.false_eq_true, if_false, List.filter_nil, List.append_nil, Option.toList_none]

/-- The producer puts a packet on its queue. -/
theorem Follows.pushes_packet (hf : Follows S s) {p : IPv4Packet} {i : FlowId} {q : Nat}
    (hp : s.producer = .pushing p i) (hq : s.mgr.queueAt i = some (q : Int)) :
    Follows S { s with
      queues := Function.update s.queues q (s.queues q ++ [⟨p, i⟩])
      producer := .idle
      pushed := s.pushed ++ [Job.mk p i] } := by
  refine hf.producerMoves rfl (fun _ => rfl) (fun _ => rfl) rfl rfl (fun j => ?_)
    (by rw [hp]; rfl) (fun j => ⟨by rw [hp]; rfl, rfl⟩) (fun _ _ _ h => by cases h)
    fun _ h => by cases h
  unfold waiting
  rw [hp]
  show (List.filter (fun job : Job => job.flow == j) (Function.update s.queues q
    (s.queues q ++ [⟨p, i⟩]) (s.mgr.queueOf j) ++ [])).map Job.packet =
    (List.filter (fun job : Job => job.flow == j)
      (s.queues (s.mgr.queueOf j) ++ [⟨p, i⟩])).map Job.packet
  rw [List.append_nil]
  by_cases hqueue : s.mgr.queueOf j = q
  · rw [hqueue, Function.update_self]
  · have hne : i ≠ j := by
      intro heq
      exact hqueue (queueOf_eq (heq ▸ hq))
    rw [Function.update_of_ne hqueue]
    simp only [List.filter_append, List.filter_cons, beq_eq_false_iff_ne.mpr hne,
      Bool.false_eq_true, if_false, List.filter_nil, List.append_nil]

/-- The sweep is through with an entry. -/
theorem Follows.sweeps (hf : Follows S s) (hs : Healthy S s) {k : UInt32} {i : FlowId}
    (hp : s.producer = .sweepNotify k i .done) (hi : s.mgr.flows k = some i) :
    Follows S { s with mgr := s.mgr.erase k, producer := .sweeping } := by
  refine ⟨fun q j stage hq => (by cases hq), fun j hj => (by cases hj), fun h => ?_⟩
  by_cases hh : h = k
  · subst hh
    have hstage : s.producer.closingStage i = some .done := by
      rw [hp]
      exact if_pos rfl
    have hcaught := (caughtUp_of_closing hi hstage).mp (hf.caughtUp h)
    have hnone : (s.mgr.erase h).flows h = none := by
      rw [FlowManager.erase_flows, Function.update_self]
    refine (caughtUp_of_none (s := { s with mgr := s.mgr.erase h, producer := .sweeping })
      hnone).mpr ?_
    show ((s.mgr.erase h).connection h).bare.SameLines (s.reference S h).finish
    rw [FlowManager.connection_erase hs.indexed, Connection.bare, Forgets.map_retire]
    exact hcaught
  · have hsame : (s.mgr.erase k).flows h = s.mgr.flows h := by
      rw [FlowManager.erase_flows, Function.update_of_ne hh]
    refine (hf.caughtUp h).frame hsame ?_ rfl (fun _ => by rw [hp]; rfl) (fun j hj => ?_)
      fun j _ => rest_congr (FlowManager.erase_queueAt s.mgr k j) rfl
        (waiting_congr (FlowManager.erase_queueAt s.mgr k j) rfl (by rw [hp]; rfl))
    · show ((s.mgr.erase k).connection h).bare = _
      rw [FlowManager.connection_erase_of_ne hs.indexed hh]
    · have hne : i ≠ j := hs.indexed.ne_of_keys hi hj hh
      rw [hp]
      exact (if_neg hne).symm

end Producer

/-! ## The steps -/

section Steps

variable {S : Setup R} {s s' : State R}

/-- **Every connection goes on catching up**, until `finished` returns. -/
theorem follows_moves (hf : Follows S s) (hs : Healthy S s) (hs' : Healthy S s') {a : Action}
    (hok : s.undisturbed S a = true) (hagrees : s.agrees S a = true) (hmemory : s.sameMemory S a)
    (h : Moves S s a s') :
    s'.returned = true ∨ Follows S s' := by
  cases h with
  | refused p hp hdown => exact Or.inr hf
  | called p hp hup =>
    exact Or.inr (hf.producerGoes (by rw [hp]; rfl) (by rw [hp]; rfl)
      (fun j => ⟨by rw [hp]; rfl, rfl⟩) (fun _ _ _ h => by cases h) fun _ h => by cases h)
  | finishing hp =>
    exact Or.inr (hf.producerGoes (by rw [hp]; rfl) (by rw [hp]; rfl)
      (fun j => ⟨by rw [hp]; rfl, rfl⟩) (fun _ _ _ h => by cases h) fun _ h => by cases h)
  | shutdown => cases hok
  | created p hp hfree hnone =>
    have hsame : (s.mgr.connection (S.flowHash p.tuple)).bare.SameLines
        (s.reference S (S.flowHash p.tuple)) := by
      have hcaught := (caughtUp_of_none hnone).mp (hf.caughtUp (S.flowHash p.tuple))
      rw [hp] at hcaught
      exact hcaught
    have hlive : (s.reference S (S.flowHash p.tuple)).live = none := by
      rw [← hsame.live]
      exact FlowManager.bare_live_of_none hnone
    refine Or.inr (hf.opens hs s.mutex hs.indexed rfl hnone (fun _ _ => ⟨rfl, rfl⟩)
      (fun fresh => ?_) (hmemory ?_) (fun _ _ _ _ => by rw [hp]; rfl) (by rw [hp]; rfl)
      (by rw [hp]; rfl))
    · unfold Connection.lookup
      rw [hlive]
      exact hsame.start fresh
    · simp only [opensNext, hp, hnone, Option.isNone_none]
  | reused p i f hp hfree hi hflow hrep =>
    have hkeeps : s.mgr.keepsFlow S p = true := by
      unfold FlowManager.keepsFlow
      rw [hi]
      simp only [hflow, Option.any_some, hrep, Bool.not_false]
    refine Or.inr (hf.reuses hs.indexed hp hi ?_)
    unfold agrees at hagrees
    rw [hp] at hagrees
    simp only [hkeeps, Bool.not_true, Bool.false_or, Bool.or_eq_true] at hagrees
    exact hagrees
  | replaces p i f hp hfree hi hflow hrep =>
    obtain ⟨hcounter, hworkers⟩ := hs'.closing i rfl
    have hsame := hf.settled hs hi hworkers hcounter (by rw [hp]; rfl)
      (by rw [hp]; exact (Option.some_ne_none i).symm)
    refine Or.inr (hf.closes hs hs' (by rw [hp]; rfl) (by rw [hp]; rfl) rfl (if_pos rfl)
      (by rw [hp]; rfl) rfl fun q j stage hq => ?_)
    cases hq
    refine ⟨_, hsame.live.symm.trans (FlowManager.bare_live hi hflow), ?_⟩
    have hidle : f.pktsInQueue = 0 :=
      Option.some.inj ((FlowManager.counterAt_of_heap hflow).symm.trans hcounter)
    exact (Flow.forgets_bare.replaces S f p hidle).trans hrep
  | replaceNotifies p i f stage stage' m hp hflow hnot =>
    have hpc := hs.producer
    rw [hp] at hpc
    have hothers : ∀ j stage, j ≠ i →
        (ProducerPc.replacing p i stage).closingStage j = none := fun j stage hne => if_neg hne.symm
    refine Or.inr (hf.notifies hs hpc hflow hnot (by rw [hp]; exact if_pos rfl) (if_pos rfl)
      (fun j hne => ⟨by rw [hp]; exact hothers j stage hne, hothers j stage' hne⟩) (by rw [hp]; rfl)
      (by rw [hp]; rfl) (fun q j stage hq => ?_) fun _ h => by cases h)
    cases hq
    exact hf.replacing p i _ hp
  | replaced p i hp =>
    have hpc := hs.producer
    rw [hp] at hpc
    have hi : s.mgr.flows (S.flowHash p.tuple) = some i := hpc
    obtain ⟨r, hlive, hrep⟩ := hf.replacing p i _ hp
    have hstage : s.producer.closingStage i = some .done := by
      rw [hp]
      exact if_pos rfl
    have hcaught := (caughtUp_of_closing hi hstage).mp (hf.caughtUp _)
    refine Or.inr (hf.opens hs none (hs.indexed.erase (S.flowHash p.tuple))
      (FlowManager.erase_heap _ _) (by rw [FlowManager.erase_flows, Function.update_self])
      (fun h hh => ⟨FlowManager.connection_erase_of_ne hs.indexed hh,
        by rw [FlowManager.erase_flows, Function.update_of_ne hh]⟩) (fun fresh => ?_) (hmemory ?_)
      (fun h j hh hj => ?_) (by rw [hp]; rfl) (by rw [hp]; rfl))
    · have hretired : ((s.mgr.erase (S.flowHash p.tuple)).connection
          (S.flowHash p.tuple)).bare.SameLines (s.reference S (S.flowHash p.tuple)).finish := by
        rw [FlowManager.connection_erase hs.indexed, Connection.bare, Forgets.map_retire]
        exact hcaught
      unfold Connection.lookup
      rw [hlive]
      simp only [hrep, if_true]
      exact hretired.start fresh
    · simp only [opensNext, hp]
    · have hne : i ≠ j := hs.indexed.ne_of_keys hi hj hh
      rw [hp]
      exact if_neg hne
  | counted p i hp =>
    have hlive : s.mgr.Live i := hs.producing i (by rw [hp]; rfl)
    exact Or.inr (hf.producerMoves rfl
      (FlowManager.bare_bookkeeping hs.indexed hlive (g := Flow.incPktsInQueue) (fun _ => rfl)
        fun _ => rfl)
      (FlowManager.modifyFlow_queueAt (g := Flow.incPktsInQueue) fun _ => rfl) rfl rfl
      (fun j => waiting_congr
        (FlowManager.modifyFlow_queueAt (g := Flow.incPktsInQueue) (fun _ => rfl) j) rfl
        (by rw [hp]; rfl))
      (by rw [hp]; rfl) (fun j => ⟨by rw [hp]; rfl, rfl⟩) (fun _ _ _ h => by cases h)
      fun _ h => by cases h)
  | pushed p i q hp hq hroom => exact Or.inr (hf.pushes_packet hp hq)
  | full p i q hp hq hroom =>
    unfold undisturbed at hok
    rw [hp] at hok
    simp only [queueOf_eq hq, Bool.and_eq_true, decide_eq_true_eq] at hok
    exact absurd hok.2 (Nat.not_lt.mpr hroom)
  | undone i hp => exact absurd hp (hf.pushes i)
  | drained k hp hk hempty =>
    exact Or.inr (hf.producerGoes (by rw [hp]; rfl) (by rw [hp]; rfl)
      (fun j => ⟨by rw [hp]; rfl, rfl⟩) (fun _ _ _ h => by cases h) fun _ h => by cases h)
  | locked k hp hk hfree => exact Or.inr (hf.locks hp _)
  | picked k i hp hi =>
    exact Or.inr (hf.producerGoes (by rw [hp]; rfl) (by rw [hp]; rfl)
      (fun j => ⟨by rw [hp]; rfl, rfl⟩) (fun _ _ _ h => by cases h) fun _ h => by cases h)
  | waited k i f hp hflow hidle =>
    exact Or.inr (hf.closes hs hs' (by rw [hp]; rfl) (by rw [hp]; rfl) rfl (if_pos rfl)
      (by rw [hp]; rfl) rfl fun q j stage hq => by cases hq)
  | sweepNotifies k i f stage stage' m hp hflow hnot =>
    have hpc := hs.producer
    rw [hp] at hpc
    have hothers : ∀ j stage, j ≠ i →
        (ProducerPc.sweepNotify k i stage).closingStage j = none :=
      fun j stage hne => if_neg hne.symm
    exact Or.inr (hf.notifies hs hpc hflow hnot (by rw [hp]; exact if_pos rfl) (if_pos rfl)
      (fun j hne => ⟨by rw [hp]; exact hothers j stage hne, hothers j stage' hne⟩) (by rw [hp]; rfl)
      (by rw [hp]; rfl) (fun q j stage hq => by cases hq) fun _ h => by cases h)
  | swept k i hp =>
    have hpc := hs.producer
    rw [hp] at hpc
    exact Or.inr (hf.sweeps hs hp hpc)
  | returned hp hnone =>
    left
    show (s.history ++ [Call.finished]).any Call.isFinished = true
    rw [List.any_append]
    exact Bool.or_true _
  | exits i hi hw hdown => exact Or.inr (hf.exits hw)
  | popped i job jobs hi hw hup hq => exact Or.inr (hf.pops hs hw hq)
  | workerCreated i job hi hw hfree hnone =>
    rw [(hs.lookup_eq hw).1] at hnone
    cases hnone
  | workerReused i job j f hi hw hfree hj hflow hrep =>
    have hsame : job.flow = j := Option.some.inj ((hs.lookup_eq hw).1.symm.trans hj)
    subst hsame
    exact Or.inr (hf.workerGoes hs (by rw [hw]; rfl) (Or.inl rfl) fun h _ => by rw [hw]; rfl)
  | workerReplaces i job j f hi hw hfree hj hflow hrep =>
    have hsame : job.flow = j := Option.some.inj ((hs.lookup_eq hw).1.symm.trans hj)
    rw [(hs.lookup_eq hw).2 f (hsame ▸ hflow)] at hrep
    cases hrep
  | workerReplaceNotifies i job j f stage stage' m hi hw hflow hnot =>
    have hunlocked := hs.unlocked i
    rw [hw] at hunlocked
    cases hunlocked
  | workerReplaced i job j hi hw =>
    have hunlocked := hs.unlocked i
    rw [hw] at hunlocked
    cases hunlocked
  | decremented i p j f hi hw hflow =>
    have htouches := FlowManager.touches_modifyFlow s.mgr j (g := Flow.decPktsInQueue) fun _ => rfl
    refine Or.inr (hf.workerMoves hs (by rw [hw]; rfl) (Or.inl rfl) htouches
      (FlowManager.modifyFlow_queueAt fun _ => rfl) rfl rfl rfl rfl fun h hj => ?_)
    have hsame : ((s.mgr.modifyFlow j Flow.decPktsInQueue).connection h).bare =
        (s.mgr.connection h).bare :=
      FlowManager.bare_bookkeeping hs.indexed (FlowManager.live_of_flows hs.indexed hj)
        (g := Flow.decPktsInQueue) (fun _ => rfl) (fun _ => rfl) h
    rw [hw]
    show _ = (s.mgr.connection h).bare.absorb S p
    rw [Connection.absorb_eq (FlowManager.bare_live hj hflow)]
    show ((((s.mgr.modifyFlow j Flow.decPktsInQueue).connection h).bare.modify _).announce
      _).settle = _
    rw [hsame]
    rfl
  | applies i p j c hi hw =>
    have htouches := FlowManager.touches_modifyFlow s.mgr j (g := fun f => f.addPacket S p)
      fun f => f.addPacket_hash S p
    refine Or.inr (hf.workerMoves hs (by rw [hw]; rfl) (Or.inl rfl) htouches
      (FlowManager.modifyFlow_queueAt fun f => f.addPacket_threadQueueId S p) rfl rfl rfl rfl
      fun h hj => ?_)
    have hadds : ∀ r : FlowRecord R, (r.modify fun f => f.addPacket S p).bare =
        r.bare.modify fun f => f.addPacket S p := by
      intro r
      show ({ flow := (r.flow.addPacket S p).bare, told := _ } : FlowRecord R) = _
      rw [← Flow.bare_addPacket]
      rfl
    have hadded : ((s.mgr.modifyFlow j fun f => f.addPacket S p).connection h).bare =
        (s.mgr.connection h).bare.modify fun r => r.modify fun f => f.addPacket S p :=
      htouches.bare_connection _ hj fun r _ => hadds r
    rw [hw]
    show (((s.mgr.modifyFlow j fun f => f.addPacket S p).connection h).bare.announce
      c).settle = _
    rw [hadded]
    rfl
  | announces i j c f hi hw hflow hnew =>
    have htouches := FlowManager.touches_tell s.mgr j (.classified f)
    refine Or.inr (hf.workerMoves hs (by rw [hw]; rfl) (Or.inl rfl) htouches (fun _ => rfl) rfl rfl
      rfl rfl fun h hj => ?_)
    have htell : ∀ r : FlowRecord R, (s.mgr.connection h).live = some r →
        (r.tell (.classified f)).bare = r.bare.tell (.classified r.bare.flow) := by
      intro r hr
      rw [FlowManager.connection_live hj hflow] at hr
      cases hr
      exact Forgets.map_tell _ _
    rw [hw]
    show ((s.mgr.tell j (.classified f)).connection h).bare.settle =
      ((s.mgr.connection h).bare.announce c).settle
    rw [htouches.bare_connection (fun r => r.tell (.classified r.flow)) hj htell,
      Connection.announce_of_new (FlowManager.bare_live hj hflow) hnew]
  | announcesNothing i j c f hi hw hflow hold =>
    refine Or.inr (hf.workerGoes hs (by rw [hw]; rfl) (Or.inl rfl) fun h hj => ?_)
    rw [hw]
    show (s.mgr.connection h).bare.settle = ((s.mgr.connection h).bare.announce c).settle
    rw [Connection.announce_of_old (FlowManager.bare_live hj hflow) hold]
  | seesFinished i j f hi hw hflow hstate =>
    refine Or.inr (hf.workerGoes hs (by rw [hw]; rfl) (Or.inl rfl) fun h hj => ?_)
    rw [hw]
    exact Connection.settle_of_finished (FlowManager.bare_live hj hflow) hstate
  | seesUnfinished i j f hi hw hflow hstate =>
    refine Or.inr (hf.workerGoes hs (by rw [hw]; rfl) (Or.inl rfl) fun h hj => ?_)
    rw [hw]
    exact Connection.settle_of_unfinished (FlowManager.bare_live hj hflow) hstate
  | seesNotified i j f hi hw hflow hstate =>
    refine Or.inr (hf.workerGoes hs (by rw [hw]; rfl) (Or.inl rfl) fun h hj => ?_)
    rw [hw]
    exact (Connection.settleNotified_of_notified (FlowManager.bare_live hj hflow) hstate).symm
  | keeps i j f hi hw hflow hstate =>
    refine Or.inr (hf.workerGoes hs (by rw [hw]; rfl) (Or.inr rfl) fun h hj => ?_)
    rw [hw]
    exact (Connection.settleNotified_of_ne (FlowManager.bare_live hj hflow) hstate).symm
  | notifies i j f stage stage' m hi hw hflow hnot =>
    obtain ⟨g, htouches⟩ := hnot.touches
    refine Or.inr (hf.workerMoves hs (by rw [hw]; rfl) (Or.inl rfl) htouches
      hnot.sameTable.queueAt rfl rfl rfl rfl fun h hj => ?_)
    rw [hw]
    exact hnot.close hj hflow
  | notified i j hi hw =>
    exact Or.inr (hf.workerGoes hs (by rw [hw]; rfl) (Or.inl rfl) fun h hj => by rw [hw]; rfl)
  | marks i j f hi hw hfree hflow hbusy =>
    exact Or.inr (hf.marks hs hw hflow hbusy rfl rfl rfl rfl rfl)
  | deletes i j f hi hw hfree hflow hidle => exact Or.inr (hf.deletes hs hw hflow)

end Steps

end State

end Vsid
