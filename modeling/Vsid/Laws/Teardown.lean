import Mathlib.Algebra.Order.BigOperators.Group.Finset
import Mathlib.Algebra.Order.Group.Multiset
import Vsid.Capture.Teardown
import Vsid.Lib.Keyed
import Vsid.Laws.Verdicts
import Vsid.Laws.Workers.Known

/-!
# The packets that a shutdown leaves behind

A packet object is with the producer, in a queue, with a worker or deleted, and it gets its verdict
when it is deleted. So no packet is lost if there is none on its way when `~PacketHandler` destroys
the queue (`settled_of_run`), and only then (`not_settled_of_run`). `~PacketHandler` does not wait
for that, and a worker leaves its loop on the flag with packets still queued:
`shutdown_loses_packet`.

`Hands` lists what a step does with the packet objects, and `Passes` is what it comes to: which
packets are taken on and which objects are deleted. The invariants are derived from these two.
-/

set_option autoImplicit false

namespace Vsid

/-- The producer is in `addPacket` with a packet. -/
def ProducerPc.adds : ProducerPc → Bool
  | lookup .. => true
  | replacing .. => true
  | found .. => true
  | pushing .. => true
  | undo .. => true
  | _ => false

/-- The worker has a packet whose verdict is not set. -/
def WorkerPc.carries : WorkerPc → Bool
  | lookup .. => true
  | replacing .. => true
  | found .. => true
  | applying .. => true
  | _ => false

namespace State

variable {R : Type} [Double R] {S : Setup R} {s s' : State R}

/-- A move of the producer is a push, the end of a failed push, or one after which the producer has
a packet if it had one before. -/
theorem Moves.producer_cases (hs : Sound S s) (h : Moves S s .producer s') :
    s'.worker = s.worker ∧
      ((∃ p i q, s.producer = .pushing p i ∧ s.mgr.queueOf i = q ∧
          q < S.config.workerThreadsPerQueue ∧ s'.producer = .idle ∧
          s'.queues = Function.update s.queues q (s.queues q ++ [⟨p, i⟩])) ∨
        (∃ i, s.producer = .undo i ∧ s'.producer = .idle ∧ s'.queues = s.queues) ∨
        ((∀ p i, s.producer = .pushing p i → s'.producer ≠ .idle) ∧ (∀ i, s.producer ≠ .undo i) ∧
          s.producer ≠ .idle ∧ s'.producer.adds = s.producer.adds ∧ s'.queues = s.queues)) := by
  have hpc := hs.producer
  cases h with
  | pushed p i q hp hq hroom =>
    rw [hp] at hpc
    obtain ⟨q', hq', hqueue, hlt⟩ := queueAt_of_hashAt hs hpc
    have hsame : q = q' := FlowManager.queueAt_unique hq hq'
    subst hsame
    exact ⟨rfl, .inl ⟨p, i, q, hp, hqueue, hlt, rfl, rfl⟩⟩
  | undone i hp => exact ⟨rfl, .inr (.inl ⟨i, hp, rfl, rfl⟩)⟩
  | created p hp => exact ⟨rfl, .inr (.inr (by simp [hp, ProducerPc.adds]))⟩
  | reused p i f hp => exact ⟨rfl, .inr (.inr (by simp [hp, ProducerPc.adds]))⟩
  | replaces p i f hp => exact ⟨rfl, .inr (.inr (by simp [hp, ProducerPc.adds]))⟩
  | replaceNotifies p i f stage stage' m hp =>
    exact ⟨rfl, .inr (.inr (by simp [hp, ProducerPc.adds]))⟩
  | replaced p i hp => exact ⟨rfl, .inr (.inr (by simp [hp, ProducerPc.adds]))⟩
  | counted p i hp => exact ⟨rfl, .inr (.inr (by simp [hp, ProducerPc.adds]))⟩
  | full p i q hp => exact ⟨rfl, .inr (.inr (by simp [hp, ProducerPc.adds]))⟩
  | drained k hp => exact ⟨rfl, .inr (.inr (by simp [hp, ProducerPc.adds]))⟩
  | locked k hp => exact ⟨rfl, .inr (.inr (by simp [hp, ProducerPc.adds]))⟩
  | waited k i f hp => exact ⟨rfl, .inr (.inr (by simp [hp, ProducerPc.adds]))⟩
  | sweepNotifies k i f stage stage' m hp =>
    exact ⟨rfl, .inr (.inr (by simp [hp, ProducerPc.adds]))⟩
  | swept k i hp => exact ⟨rfl, .inr (.inr (by simp [hp, ProducerPc.adds]))⟩
  | returned hp => exact ⟨rfl, .inr (.inr (by simp [hp, ProducerPc.adds]))⟩

/-- A move of a worker that is neither a `pop` nor `Flow::addPacket` leaves it with the packet it
has. -/
theorem Moves.worker_cases {i : Nat} (h : Moves S s (.worker i) s') (hw : s.worker i ≠ .polling) :
    i < S.config.workerThreadsPerQueue ∧ s'.queues = s.queues ∧ s'.producer = s.producer ∧
      ∃ pc, s'.worker = Function.update s.worker i pc ∧
        pc.carries = match s.worker i with
          | .applying .. => false
          | pc => pc.carries := by
  cases h with
  | exits i hi hp => exact absurd hp hw
  | popped i job rest hi hp => exact absurd hp hw
  | workerCreated i job hi hp => exact ⟨hi, rfl, rfl, _, rfl, by rw [hp]; rfl⟩
  | workerReused i job j f hi hp => exact ⟨hi, rfl, rfl, _, rfl, by rw [hp]; rfl⟩
  | workerReplaces i job j f hi hp => exact ⟨hi, rfl, rfl, _, rfl, by rw [hp]; rfl⟩
  | workerReplaceNotifies i job j f stage stage' m hi hp =>
    exact ⟨hi, rfl, rfl, _, rfl, by rw [hp]; rfl⟩
  | workerReplaced i job j hi hp => exact ⟨hi, rfl, rfl, _, rfl, by rw [hp]; rfl⟩
  | decremented i p j f hi hp => exact ⟨hi, rfl, rfl, _, rfl, by rw [hp]; rfl⟩
  | applies i p j c hi hp => exact ⟨hi, rfl, rfl, _, rfl, by rw [hp]; rfl⟩
  | announces i j c f hi hp => exact ⟨hi, rfl, rfl, _, rfl, by rw [hp]; rfl⟩
  | announcesNothing i j c f hi hp => exact ⟨hi, rfl, rfl, _, rfl, by rw [hp]; rfl⟩
  | seesFinished i j f hi hp => exact ⟨hi, rfl, rfl, _, rfl, by rw [hp]; rfl⟩
  | seesUnfinished i j f hi hp => exact ⟨hi, rfl, rfl, _, rfl, by rw [hp]; rfl⟩
  | seesNotified i j f hi hp => exact ⟨hi, rfl, rfl, _, rfl, by rw [hp]; rfl⟩
  | keeps i j f hi hp => exact ⟨hi, rfl, rfl, _, rfl, by rw [hp]; rfl⟩
  | notifies i j f stage stage' m hi hp => exact ⟨hi, rfl, rfl, _, rfl, by rw [hp]; rfl⟩
  | notified i j hi hp => exact ⟨hi, rfl, rfl, _, rfl, by rw [hp]; rfl⟩
  | marks i j f hi hp => exact ⟨hi, rfl, rfl, _, rfl, by rw [hp]; rfl⟩
  | deletes i j f hi hp => exact ⟨hi, rfl, rfl, _, rfl, by rw [hp]; rfl⟩

omit [Double R] in
/-- The flag is not part of what is sound. -/
theorem Sound.setShutdown (hs : Sound S s) (down : Bool) :
    Sound S { s with mgr := { s.mgr with shutdown := down } } where
  indexed := ⟨hs.indexed.keyed, hs.indexed.valid, hs.indexed.newest, hs.indexed.told⟩
  queueIds := hs.queueIds
  jobs := hs.jobs
  producer := hs.producer.mono (FlowManager.extends_of_heap rfl) fun _ => rfl
  workers i := (hs.workers i).mono (FlowManager.extends_of_heap rfl) fun _ => rfl
  producerLocks := hs.producerLocks
  workerLocks := hs.workerLocks

/-- A `pop` is sound also after the flag was set. -/
theorem sound_pop (hn : 0 < S.config.workerThreadsPerQueue) (hs : Sound S s) {i : Nat} {job : Job}
    {rest : List Job} (hi : i < S.config.workerThreadsPerQueue) (hw : s.worker i = .polling)
    (hq : s.queues i = job :: rest) :
    Sound S ({ s with queues := Function.update s.queues i rest }.setWorker i (.lookup job)) :=
  (sound_moves hn (hs.setShutdown false) (.popped i job rest hi hw rfl hq)).setShutdown
    s.mgr.shutdown

end State

/-! ## The queue handle -/

theorem VerdictSetter.setVerdict_queueOpen (v : VerdictSetter) (id verdict : UInt32) :
    (v.setVerdict id verdict).queueOpen = v.queueOpen := by
  unfold setVerdict
  split <;> rfl

namespace Held

variable (C : NetfilterConfig) (h : Held)

theorem acceptPkt_queueOpen : (h.acceptPkt C).handler.queueOpen = h.handler.queueOpen := by
  unfold acceptPkt ask VerdictSetter.setAccept
  split
  · split
    · exact h.handler.setVerdict_queueOpen h.packet.pktId nfAccept
    · rfl
  · rfl

theorem dropPkt_queueOpen : (h.dropPkt C).handler.queueOpen = h.handler.queueOpen := by
  unfold dropPkt ask VerdictSetter.setDrop
  split
  · split
    · exact h.handler.setVerdict_queueOpen h.packet.pktId nfDrop
    · rfl
  · rfl

end Held

namespace ThreadedHandler

variable {R : Type} [Double R] (C : NetfilterConfig) (S : Setup R)

/-! ## What a step does with the packet objects -/

/-- No packet is queued, and no worker has one whose verdict is not set. -/
structure Drained (s : ThreadedHandler R) : Prop where
  queues : ∀ q, q < S.config.workerThreadsPerQueue → s.threads.queues q = []
  workers : ∀ i, i < S.config.workerThreadsPerQueue → (s.threads.worker i).carries = false

/-- What an action does with the packet objects. -/
inductive Hands (s : ThreadedHandler R) : HandlerAction → ThreadedHandler R → Prop where
  -- the producer
  | takes (id : UInt32) (p : IPv4Packet) (threads : State R) : s.phase = .running →
      s.threads.producer = .idle → threads.producer.adds = true →
      threads.queues = s.threads.queues → threads.worker = s.threads.worker →
      Hands s (.handlePacket id p) { s with
        threads := threads, adding := some (PacketObject.new id), passed := s.passed ++ [id] }
  | turnsAway (id : UInt32) (p : IPv4Packet) : s.phase = .running →
      Hands s (.handlePacket id p)
        ({ s with passed := s.passed ++ [id] }.release (PacketObject.new id) fun held =>
          (held.setVerdict C).destroy C)
  | pushes (q : Nat) (job : Job) (threads : State R) : q < S.config.workerThreadsPerQueue →
      s.threads.producer.adds = true → threads.producer = .idle →
      threads.queues = Function.update s.threads.queues q (s.threads.queues q ++ [job]) →
      threads.worker = s.threads.worker →
      Hands s .producer { s with
        threads := threads
        adding := none
        queued := Function.update s.queued q (s.queued q ++ s.adding.toList) }
  | drops (threads : State R) : s.threads.producer.adds = true → threads.producer = .idle →
      threads.queues = s.threads.queues → threads.worker = s.threads.worker →
      Hands s .producer
        ({ s with threads := threads, adding := none }.releaseAll s.adding fun held =>
          (held.dropPkt C).destroy C)
  | produces (threads : State R) : s.threads.producer ≠ .idle →
      threads.producer.adds = s.threads.producer.adds → threads.queues = s.threads.queues →
      threads.worker = s.threads.worker → Hands s .producer { s with threads := threads }
  -- the workers
  | pops (i : Nat) (job : Job) (rest : List Job) : i < S.config.workerThreadsPerQueue →
      s.threads.worker i = .polling → s.threads.queues i = job :: rest →
      Hands s (.worker i) { s with
        tested := Function.update s.tested i false
        threads := { s.threads with
          queues := Function.update s.threads.queues i rest }.setWorker i (.lookup job)
        queued := Function.update s.queued i (s.queued i).tail
        working := Function.update s.working i (s.queued i).head? }
  | applies (i : Nat) (pc : WorkerPc) (threads : State R) : i < S.config.workerThreadsPerQueue →
      (s.threads.worker i).carries = true → pc.carries = false →
      threads.worker = Function.update s.threads.worker i pc →
      threads.queues = s.threads.queues → threads.producer = s.threads.producer →
      Hands s (.worker i)
        ({ s with
            threads := threads
            working := Function.update s.working i none }.releaseAll (s.working i) fun held =>
          (held.setVerdict C).destroy C)
  | works (i : Nat) (pc : WorkerPc) (threads : State R) (tested : Nat → Bool) :
      pc.carries = (s.threads.worker i).carries →
      threads.worker = Function.update s.threads.worker i pc →
      threads.queues = s.threads.queues → threads.producer = s.threads.producer →
      Hands s (.worker i) { s with threads := threads, tested := tested }
  -- the end
  | flags : Hands s .shutdown { s with threads := setShutdown s.threads }
  | closes : s.phase = .running → s.threads.producer = .idle →
      Hands s .destroyQueue { s with
        phase := .queueDestroyed, verdicts := { s.verdicts with queueOpen := false } }
  | joins : s.phase = .queueDestroyed →
      Hands s .joinWorkers { s with phase := .joining, threads := setShutdown s.threads }
  | finishes : s.phase = .joining → Hands s .finish { s with phase := .destroyed }

section Inversion

variable {C : NetfilterConfig} {S : Setup R} {s s' : ThreadedHandler R}

omit [Double R] in
@[simp] theorem releaseAll_threads (s : ThreadedHandler R) (o : Option PacketObject)
    (release : Held → Held) : (s.releaseAll o release).threads = s.threads := by
  cases o <;> rfl

theorem hands_handlePacket (hC : C.verdictAfterClassification = true)
    (hn : 0 < S.config.workerThreadsPerQueue) (hs : State.Sound S s.threads) {id : UInt32}
    {p : IPv4Packet} (h : s.handlePacket C S id p = some s') :
    State.Sound S s'.threads ∧ Hands C S s (.handlePacket id p) s' := by
  unfold handlePacket at h
  split at h
  next threads hphase hstep =>
    have hmoves := State.moves_of_step hs hstep
    have hsound := State.sound_moves hn hs hmoves
    simp only [hC, Bool.not_true, Bool.false_eq_true, if_false] at h
    cases hmoves with
    | refused p hidle hdown =>
      rw [if_pos hdown] at h
      cases h
      exact ⟨hs, .turnsAway id p hphase⟩
    | called p hidle hup =>
      rw [if_neg (by rw [hup]; exact Bool.false_ne_true)] at h
      cases h
      exact ⟨hsound, .takes id p _ hphase hidle rfl rfl rfl⟩
  next => cases h

theorem hands_producerStep (hn : 0 < S.config.workerThreadsPerQueue)
    (hs : State.Sound S s.threads) (h : s.producerStep C S = some s') :
    State.Sound S s'.threads ∧ Hands C S s .producer s' := by
  unfold producerStep at h
  cases hstep : s.threads.step S .producer with
  | none => simp only [hstep, reduceCtorEq] at h
  | some threads =>
    have hmoves := State.moves_of_step hs hstep
    have hsound := State.sound_moves hn hs hmoves
    simp only [hstep] at h
    obtain ⟨hworker, ⟨p, i, q, hp, hq, hqn, hidle, hqueues⟩ | ⟨i, hp, hidle, hqueues⟩ |
      ⟨hpush, hundo, hbusy, hadds, hqueues⟩⟩ := hmoves.producer_cases hs
    · simp only [hp, hidle] at h
      cases h
      rw [hq]
      exact ⟨hsound, .pushes q ⟨p, i⟩ threads hqn (by rw [hp]; rfl) hidle hqueues hworker⟩
    · simp only [hp] at h
      cases h
      rw [releaseAll_threads]
      exact ⟨hsound, .drops threads (by rw [hp]; rfl) hidle hqueues hworker⟩
    · have hs' : s' = { s with threads := threads } := by
        split at h
        next p i hp hidle => exact absurd hidle (hpush p i hp)
        next i hp => exact absurd hp (hundo i)
        next => exact (Option.some.inj h).symm
      subst hs'
      exact ⟨hsound, .produces threads hbusy hadds hqueues hworker⟩

theorem hands_poll (hn : 0 < S.config.workerThreadsPerQueue) (hs : State.Sound S s.threads)
    {i : Nat} (hi : i < S.config.workerThreadsPerQueue) (hw : s.threads.worker i = .polling) :
    State.Sound S (s.poll i).threads ∧ Hands C S s (.worker i) (s.poll i) := by
  have hstays : ∀ tested : Nat → Bool, Hands C S s (.worker i) { s with tested := tested } :=
    fun tested => .works i (s.threads.worker i) s.threads tested rfl
      (Function.update_eq_self i s.threads.worker).symm rfl rfl
  unfold poll
  split
  · cases hq : s.threads.queues i with
    | nil => exact ⟨hs, hstays _⟩
    | cons job rest => exact ⟨State.sound_pop hn hs hi hw hq, .pops i job rest hi hw hq⟩
  · split
    next hdown =>
      refine ⟨State.sound_moves hn hs (.exits i hi hw hdown), ?_⟩
      exact .works i .exited _ s.tested (by rw [hw]; rfl) rfl rfl rfl
    next => exact ⟨hs, hstays _⟩

theorem hands_workerStep (hn : 0 < S.config.workerThreadsPerQueue)
    (hs : State.Sound S s.threads) {i : Nat} (h : s.workerStep C S i = some s') :
    State.Sound S s'.threads ∧ Hands C S s (.worker i) s' := by
  have hworks : s.threads.worker i ≠ .polling → (∀ p j c, s.threads.worker i ≠ .applying p j c) →
      (s.threads.step S (.worker i)).map (fun threads => { s with threads := threads }) = some s' →
      State.Sound S s'.threads ∧ Hands C S s (.worker i) s' := by
    intro hpoll happly h
    obtain ⟨threads, hstep, rfl⟩ := Option.map_eq_some_iff.mp h
    have hmoves := State.moves_of_step hs hstep
    obtain ⟨hi, hqueues, hproducer, pc, hworker, hcarries⟩ := hmoves.worker_cases hpoll
    refine ⟨State.sound_moves hn hs hmoves,
      .works i pc threads s.tested ?_ hworker hqueues hproducer⟩
    rw [hcarries]
    split
    next p j c hw => exact absurd hw (happly p j c)
    next => rfl
  unfold workerStep at h
  cases hw : s.threads.worker i with
  | polling =>
    simp only [hw] at h
    split at h
    next hi =>
      cases h
      exact hands_poll hn hs hi hw
    next => cases h
  | applying p j c =>
    simp only [hw] at h
    cases hstep : s.threads.step S (.worker i) with
    | none => simp only [hstep, reduceCtorEq] at h
    | some threads =>
      cases hf : s.threads.mgr.heap[j]? with
      | none => simp only [hstep, hf, reduceCtorEq] at h
      | some f =>
        have hmoves := State.moves_of_step hs hstep
        obtain ⟨hi, hqueues, hproducer, pc, hworker, hcarries⟩ :=
          hmoves.worker_cases (by rw [hw]; exact WorkerPc.noConfusion)
        rw [hw] at hcarries
        simp only [hstep, hf, Flow.addPacketHeld_snd] at h
        cases h
        rw [releaseAll_threads]
        exact ⟨State.sound_moves hn hs hmoves,
          .applies i pc threads hi (by rw [hw]; rfl) hcarries hworker hqueues hproducer⟩
  | exited =>
    simp only [hw] at h
    exact hworks (by rw [hw]; exact WorkerPc.noConfusion)
      (fun _ _ _ => by rw [hw]; exact WorkerPc.noConfusion) h
  | _ =>
    simp only [hw] at h
    exact hworks (by rw [hw]; exact WorkerPc.noConfusion)
      (fun _ _ _ => by rw [hw]; exact WorkerPc.noConfusion) h

/-- **The inversion of `step`**, with the verdicts set after the classification. -/
theorem hands_of_step (hC : C.verdictAfterClassification = true)
    (hn : 0 < S.config.workerThreadsPerQueue) (hs : State.Sound S s.threads) {a : HandlerAction}
    (h : step C S s a = some s') : State.Sound S s'.threads ∧ Hands C S s a s' := by
  unfold step at h
  cases a with
  | handlePacket id p => exact hands_handlePacket hC hn hs h
  | producer => exact hands_producerStep hn hs h
  | worker i => exact hands_workerStep hn hs h
  | shutdown =>
    simp only at h
    split at h
    next =>
      cases h
      exact ⟨hs.setShutdown true, .flags⟩
    next => cases h
  | destroyQueue =>
    simp only at h
    split at h
    next hready =>
      cases h
      exact ⟨hs, .closes hready.1 hready.2⟩
    next => cases h
  | joinWorkers =>
    simp only at h
    split at h
    next hphase =>
      cases h
      exact ⟨hs.setShutdown true, .joins hphase⟩
    next => cases h
  | finish =>
    simp only at h
    split at h
    next hready =>
      cases h
      exact ⟨hs, .finishes hready.1⟩
    next => cases h

end Inversion

/-! ## Every packet has an object -/

/-- The objects are where the packets are. -/
structure Synced (s : ThreadedHandler R) : Prop where
  adding : s.adding.isSome = s.threads.producer.adds
  queued : ∀ q, (s.queued q).length = (s.threads.queues q).length
  working : ∀ i, (s.working i).isSome = (s.threads.worker i).carries

section Synced

variable {C : NetfilterConfig} {S : Setup R} {s s' : ThreadedHandler R}

section Release

variable (s : ThreadedHandler R) (o : Option PacketObject) (release : Held → Held)

omit [Double R] in
@[simp] theorem releaseAll_phase : (s.releaseAll o release).phase = s.phase := by
  cases o <;> rfl

omit [Double R] in
@[simp] theorem releaseAll_adding : (s.releaseAll o release).adding = s.adding := by
  cases o <;> rfl

omit [Double R] in
@[simp] theorem releaseAll_queued : (s.releaseAll o release).queued = s.queued := by
  cases o <;> rfl

omit [Double R] in
@[simp] theorem releaseAll_working : (s.releaseAll o release).working = s.working := by
  cases o <;> rfl

omit [Double R] in
@[simp] theorem releaseAll_passed : (s.releaseAll o release).passed = s.passed := by
  cases o <;> rfl

end Release

omit [Double R] in
theorem synced_init : (init : ThreadedHandler R).Synced := ⟨rfl, fun _ => rfl, fun _ => rfl⟩

omit [Double R] in
theorem Synced.adding_none (h : s.Synced) (hadds : s.threads.producer.adds = false) :
    s.adding = none := by
  rw [← Option.not_isSome_iff_eq_none, h.adding, hadds]
  exact Bool.false_ne_true

omit [Double R] in
theorem Synced.working_none (h : s.Synced) {i : Nat}
    (hcarries : (s.threads.worker i).carries = false) : s.working i = none := by
  rw [← Option.not_isSome_iff_eq_none, h.working i, hcarries]
  exact Bool.false_ne_true

omit [Double R] in
theorem synced_hands (h : s.Synced) {a : HandlerAction} (hands : Hands C S s a s') :
    s'.Synced := by
  cases hands with
  | takes id p threads hphase hidle hadds hqueues hworker =>
    exact ⟨hadds.symm, by rw [hqueues]; exact h.queued, by rw [hworker]; exact h.working⟩
  | turnsAway id p hphase => exact ⟨h.adding, h.queued, h.working⟩
  | pushes q job threads hq hadds hidle hqueues hworker =>
    have hsome : s.adding.isSome = true := h.adding.trans hadds
    refine ⟨by rw [hidle]; rfl, fun r => ?_, by rw [hworker]; exact h.working⟩
    simp only [hqueues]
    by_cases hrq : r = q
    · obtain ⟨o, ho⟩ := Option.isSome_iff_exists.mp hsome
      rw [hrq, Function.update_self, Function.update_self, List.length_append, List.length_append,
        h.queued q, ho]
      rfl
    · rw [Function.update_of_ne hrq, Function.update_of_ne hrq]
      exact h.queued r
  | drops threads hadds hidle hqueues hworker =>
    refine ⟨?_, ?_, ?_⟩
    · rw [releaseAll_adding, releaseAll_threads, hidle]
      rfl
    · rw [releaseAll_queued, releaseAll_threads, hqueues]
      exact h.queued
    · rw [releaseAll_working, releaseAll_threads, hworker]
      exact h.working
  | produces threads hbusy hadds hqueues hworker =>
    exact ⟨h.adding.trans hadds.symm, by rw [hqueues]; exact h.queued,
      by rw [hworker]; exact h.working⟩
  | pops i job rest hi hw hq =>
    have hlength := h.queued i
    rw [hq, List.length_cons] at hlength
    refine ⟨h.adding, fun r => ?_, fun r => ?_⟩
    · show (Function.update s.queued i (s.queued i).tail r).length =
        (Function.update s.threads.queues i rest r).length
      by_cases hr : r = i
      · rw [hr, Function.update_self, Function.update_self, List.length_tail, hlength]
        rfl
      · rw [Function.update_of_ne hr, Function.update_of_ne hr]
        exact h.queued r
    · show (Function.update s.working i (s.queued i).head? r).isSome =
        (Function.update s.threads.worker i (.lookup job) r).carries
      by_cases hr : r = i
      · rw [hr, Function.update_self, Function.update_self]
        cases hobjects : s.queued i with
        | nil =>
          rw [hobjects] at hlength
          cases hlength
        | cons o objects => rfl
      · rw [Function.update_of_ne hr, Function.update_of_ne hr]
        exact h.working r
  | applies i pc threads hi hcarries hpc hworker hqueues hproducer =>
    refine ⟨?_, ?_, fun r => ?_⟩
    · rw [releaseAll_adding, releaseAll_threads, hproducer]
      exact h.adding
    · rw [releaseAll_queued, releaseAll_threads, hqueues]
      exact h.queued
    · rw [releaseAll_working, releaseAll_threads]
      show (Function.update s.working i none r).isSome = (threads.worker r).carries
      rw [hworker]
      by_cases hr : r = i
      · rw [hr, Function.update_self, Function.update_self, hpc]
        rfl
      · rw [Function.update_of_ne hr, Function.update_of_ne hr]
        exact h.working r
  | works i pc threads tested hpc hworker hqueues hproducer =>
    refine ⟨by rw [hproducer]; exact h.adding, by rw [hqueues]; exact h.queued, fun r => ?_⟩
    rw [hworker]
    by_cases hr : r = i
    · rw [hr, Function.update_self, hpc]
      exact h.working i
    · rw [Function.update_of_ne hr]
      exact h.working r
  | flags => exact ⟨h.adding, h.queued, h.working⟩
  | closes hphase hidle => exact ⟨h.adding, h.queued, h.working⟩
  | joins hphase => exact ⟨h.adding, h.queued, h.working⟩
  | finishes hphase => exact ⟨h.adding, h.queued, h.working⟩

end Synced

/-! ## What a step passes on and deletes -/

/-- The packet objects of queue `q` and its worker. -/
def hands (s : ThreadedHandler R) (q : Nat) : Multiset PacketObject :=
  (s.queued q : Multiset PacketObject) + ((s.working q).toList : Multiset PacketObject)

/-- The packet objects that are not deleted. -/
def onTheWay (s : ThreadedHandler R) : Multiset PacketObject :=
  (s.adding.toList : Multiset PacketObject) +
    ∑ q ∈ Finset.range S.config.workerThreadsPerQueue, s.hands q

/-- What a step has added to the packets passed on, and which objects it has deleted. -/
structure Passes (s s' : ThreadedHandler R) (taken : List UInt32) (gone : List PacketObject) :
    Prop where
  onTheWay : s.onTheWay S + ((taken.map PacketObject.new : List PacketObject) : Multiset _) =
    s'.onTheWay S + ((gone.map fun o => PacketObject.new o.pktId : List PacketObject) : Multiset _)
  passed : s'.passed = s.passed ++ taken
  deleted : s'.deleted = s.deleted ++ gone
  calls : s'.verdicts.calls = s.verdicts.calls ++ gone.flatMap PacketObject.calls
  gone : ∀ o ∈ gone, o.destroyed = 1 ∧
    ∃ verdict, o.calls = [⟨o.pktId, verdict, s.verdicts.queueOpen⟩]

/-- What is done with a new packet object sets its verdict and deletes it. -/
def Releases (release : Held → Held) : Prop :=
  ∀ id v, ∃ verdict,
    (release ⟨PacketObject.new id, v⟩).handler.calls = v.calls ++ [⟨id, verdict, v.queueOpen⟩] ∧
    (release ⟨PacketObject.new id, v⟩).packet.pktId = id ∧
    (release ⟨PacketObject.new id, v⟩).packet.destroyed = 1 ∧
    (release ⟨PacketObject.new id, v⟩).packet.calls = [⟨id, verdict, v.queueOpen⟩]

section Passes

variable {C : NetfilterConfig} {S : Setup R} {s s' : ThreadedHandler R}

theorem releases_setVerdict (hC : C.verdictAfterClassification = true) :
    Releases fun held => (held.setVerdict C).destroy C := by
  intro id v
  refine ⟨nfAccept, ?_⟩
  simp [Held.destroy, Held.setVerdict, Held.acceptPkt, Held.dropPkt, Held.ask,
    PacketObject.new, VerdictSetter.setAccept, VerdictSetter.setVerdict, hC, nfMaxVerdict, nfAccept,
    nfDrop]

theorem releases_dropPkt (hC : C.verdictAfterClassification = true) :
    Releases fun held => (held.dropPkt C).destroy C := by
  intro id v
  refine ⟨nfDrop, ?_⟩
  simp [Held.destroy, Held.dropPkt, Held.ask, PacketObject.new, VerdictSetter.setDrop,
    VerdictSetter.setVerdict, hC, nfMaxVerdict, nfDrop]

omit [Double R] in
/-- Only the producer, queue `q` and its worker have handed something over. -/
theorem onTheWay_update {q : Nat} {released : Multiset PacketObject}
    (hq : q < S.config.workerThreadsPerQueue) (hsame : ∀ r, r ≠ q → s'.hands r = s.hands r)
    (hhands : (s.adding.toList : Multiset PacketObject) + s.hands q =
      (s'.adding.toList : Multiset PacketObject) + s'.hands q + released) :
    s.onTheWay S = s'.onTheWay S + released := by
  have hsum := Keyed.sum_range_of_ne hq hsame
  unfold onTheWay
  apply add_right_cancel (b := s'.hands q)
  calc (s.adding.toList : Multiset PacketObject) +
        ∑ r ∈ Finset.range S.config.workerThreadsPerQueue, s.hands r + s'.hands q
      = (s.adding.toList : Multiset PacketObject) + s.hands q +
          ∑ r ∈ Finset.range S.config.workerThreadsPerQueue, s'.hands r := by
        rw [add_assoc, ← hsum]
        abel
    _ = (s'.adding.toList : Multiset PacketObject) +
          ∑ r ∈ Finset.range S.config.workerThreadsPerQueue, s'.hands r + released +
          s'.hands q := by
        rw [hhands]
        abel

omit [Double R] in
@[simp] theorem releaseAll_onTheWay (o : Option PacketObject) (release : Held → Held) :
    (s.releaseAll o release).onTheWay S = s.onTheWay S := by
  cases o <;> rfl

omit [Double R] in
theorem passes_nothing (hway : s.onTheWay S = s'.onTheWay S) (hpassed : s'.passed = s.passed)
    (hdeleted : s'.deleted = s.deleted) (hcalls : s'.verdicts.calls = s.verdicts.calls) :
    Passes S s s' [] [] where
  onTheWay := by
    rw [hway]
    rfl
  passed := by rw [hpassed, List.append_nil]
  deleted := by rw [hdeleted, List.append_nil]
  calls := by rw [hcalls, List.flatMap_nil, List.append_nil]
  gone o ho := absurd ho List.not_mem_nil

omit [Double R] in
/-- A packet that was in hand is released. -/
theorem passes_releaseAll {t : ThreadedHandler R} {o : Option PacketObject} {taken : List UInt32}
    {release : Held → Held} (hrelease : Releases release)
    (hway : s.onTheWay S + ((taken.map PacketObject.new : List PacketObject) : Multiset _) =
      t.onTheWay S + (o.toList : Multiset PacketObject))
    (hnew : ∀ x ∈ o.toList, x = PacketObject.new x.pktId) (hpassed : t.passed = s.passed ++ taken)
    (hdeleted : t.deleted = s.deleted) (hverdicts : t.verdicts = s.verdicts) :
    ∃ gone, Passes S s (t.releaseAll o release) taken gone := by
  cases o with
  | none =>
    exact ⟨[], hway, hpassed, by rw [List.append_nil]; exact hdeleted,
      by rw [List.flatMap_nil, List.append_nil]; exact congrArg VerdictSetter.calls hverdicts,
      fun o ho => absurd ho List.not_mem_nil⟩
  | some o =>
    have ho : o = PacketObject.new o.pktId := hnew o (List.mem_singleton.mpr rfl)
    obtain ⟨verdict, hcalls, hid, hdestroyed, hown⟩ := hrelease o.pktId t.verdicts
    rw [← ho] at hcalls hid hdestroyed hown
    refine ⟨[(release ⟨o, t.verdicts⟩).packet], ?_, hpassed, ?_, ?_, ?_⟩
    · rw [releaseAll_onTheWay, hway, List.map_singleton, hid, ← ho]
      rfl
    · rw [← hdeleted]
      rfl
    · show (release ⟨o, t.verdicts⟩).handler.calls = _
      rw [hcalls, List.flatMap_singleton, hown, hverdicts]
    · intro x hx
      rw [List.mem_singleton.mp hx]
      exact ⟨hdestroyed, verdict, by rw [hown, hid, hverdicts]⟩

omit [Double R] in
theorem hands_passes (hnew : ∀ o ∈ s.onTheWay S, o = PacketObject.new o.pktId)
    (hsync : s.Synced) (hC : C.verdictAfterClassification = true) {a : HandlerAction}
    (hands : Hands C S s a s') : ∃ taken gone, Passes S s s' taken gone := by
  cases hands with
  | takes id p threads hphase hidle hadds hqueues hworker =>
    have hnone : s.adding = none := hsync.adding_none (by rw [hidle]; rfl)
    refine ⟨[id], [], ?_, rfl, (List.append_nil _).symm, (List.append_nil _).symm,
      fun o ho => absurd ho List.not_mem_nil⟩
    unfold onTheWay
    rw [hnone]
    show 0 + ∑ q ∈ Finset.range S.config.workerThreadsPerQueue, s.hands q +
        {PacketObject.new id} =
      {PacketObject.new id} + ∑ q ∈ Finset.range S.config.workerThreadsPerQueue, s.hands q + 0
    abel
  | turnsAway id p hphase =>
    refine ⟨[id], ?_⟩
    exact passes_releaseAll (o := some (PacketObject.new id)) (releases_setVerdict hC) rfl
      (fun x hx => by rw [List.mem_singleton.mp hx]; rfl) rfl rfl rfl
  | pushes q job threads hq hadds hidle hqueues hworker =>
    have hway : s.onTheWay S = onTheWay S { s with
        threads := threads
        adding := none
        queued := Function.update s.queued q (s.queued q ++ s.adding.toList) } + 0 := by
      refine onTheWay_update hq (fun r hr => ?_) ?_
      · simp only [ThreadedHandler.hands, Function.update_of_ne hr]
      · simp only [ThreadedHandler.hands, Function.update_self, Option.toList_none,
          Multiset.coe_nil, ← Multiset.coe_add]
        abel
    exact ⟨[], [], passes_nothing (hway.trans (add_zero _)) rfl rfl rfl⟩
  | drops threads hadds hidle hqueues hworker =>
    have hway : s.onTheWay S = onTheWay S { s with threads := threads, adding := none } +
        (s.adding.toList : Multiset PacketObject) := by
      unfold onTheWay
      simp only [Option.toList_none, Multiset.coe_nil, zero_add]
      exact add_comm _ _
    refine ⟨[], passes_releaseAll (releases_dropPkt hC) ((add_zero _).trans hway) (fun x hx => ?_)
      (List.append_nil _).symm rfl rfl⟩
    exact hnew x (hway ▸ Multiset.mem_add.mpr (Or.inr hx))
  | produces threads hbusy hadds hqueues hworker =>
    exact ⟨[], [], passes_nothing rfl rfl rfl rfl⟩
  | pops i job rest hi hw hq =>
    have hnone : s.working i = none := hsync.working_none (by rw [hw]; rfl)
    have hway : s.onTheWay S = onTheWay S { s with
        tested := Function.update s.tested i false
        threads := { s.threads with
          queues := Function.update s.threads.queues i rest }.setWorker i (.lookup job)
        queued := Function.update s.queued i (s.queued i).tail
        working := Function.update s.working i (s.queued i).head? } + 0 := by
      refine onTheWay_update hi (fun r hr => ?_) ?_
      · simp only [ThreadedHandler.hands, Function.update_of_ne hr]
      · simp only [ThreadedHandler.hands, Function.update_self, hnone, Option.toList_none,
          Multiset.coe_nil, add_zero]
        cases s.queued i with
        | nil => rfl
        | cons o objects =>
          simp only [List.tail_cons, List.head?_cons, Option.toList_some, Multiset.coe_singleton]
          rw [← Multiset.cons_coe, ← Multiset.singleton_add]
          abel
    exact ⟨[], [], passes_nothing (hway.trans (add_zero _)) rfl rfl rfl⟩
  | applies i pc threads hi hcarries hpc hworker hqueues hproducer =>
    have hway : s.onTheWay S = onTheWay S { s with
        threads := threads
        working := Function.update s.working i none } +
          ((s.working i).toList : Multiset PacketObject) := by
      refine onTheWay_update hi (fun r hr => ?_) ?_
      · simp only [ThreadedHandler.hands, Function.update_of_ne hr]
      · simp only [ThreadedHandler.hands, Function.update_self, Option.toList_none,
          Multiset.coe_nil]
        abel
    refine ⟨[], passes_releaseAll (releases_setVerdict hC) ((add_zero _).trans hway)
      (fun x hx => ?_) (List.append_nil _).symm rfl rfl⟩
    exact hnew x (hway ▸ Multiset.mem_add.mpr (Or.inr hx))
  | works i pc threads tested hpc hworker hqueues hproducer =>
    exact ⟨[], [], passes_nothing rfl rfl rfl rfl⟩
  | flags => exact ⟨[], [], passes_nothing rfl rfl rfl rfl⟩
  | closes hphase hidle => exact ⟨[], [], passes_nothing rfl rfl rfl rfl⟩
  | joins hphase => exact ⟨[], [], passes_nothing rfl rfl rfl rfl⟩
  | finishes hphase => exact ⟨[], [], passes_nothing rfl rfl rfl rfl⟩

omit [Double R] in
/-- The queue is there as long as the handler runs. -/
theorem hands_queueOpen (h : s.verdicts.queueOpen = decide (s.phase = .running))
    {a : HandlerAction} (hands : Hands C S s a s') :
    s'.verdicts.queueOpen = decide (s'.phase = .running) := by
  have hset : ∀ held : Held,
      ((held.setVerdict C).destroy C).handler.queueOpen = held.handler.queueOpen := fun held =>
    (Held.dropPkt_queueOpen C (held.setVerdict C)).trans (Held.acceptPkt_queueOpen C held)
  have hdrop : ∀ held : Held,
      ((held.dropPkt C).destroy C).handler.queueOpen = held.handler.queueOpen := fun held =>
    (Held.dropPkt_queueOpen C (held.dropPkt C)).trans (Held.dropPkt_queueOpen C held)
  cases hands with
  | turnsAway id p hphase => exact (hset _).trans h
  | drops threads hadds =>
    rw [releaseAll_phase]
    cases s.adding with
    | none => exact h
    | some o => exact (hdrop _).trans h
  | applies i pc threads hi hcarries =>
    rw [releaseAll_phase]
    cases s.working i with
    | none => exact h
    | some o => exact (hset _).trans h
  | closes hphase hidle => rfl
  | joins hphase =>
    rw [hphase] at h
    exact h
  | finishes hphase =>
    rw [hphase] at h
    exact h
  | _ => exact h

end Passes

/-! ## No packet gets lost -/

/-- A packet that was passed on is on its way, untouched, or deleted. -/
structure Accounted (s : ThreadedHandler R) : Prop where
  synced : s.Synced
  passed : (s.onTheWay S + s.deleted).map PacketObject.pktId = s.passed
  untouched : ∀ o ∈ s.onTheWay S, o = PacketObject.new o.pktId
  calls : s.verdicts.calls = s.deleted.flatMap PacketObject.calls
  queueOpen : s.verdicts.queueOpen = decide (s.phase = .running)

/-- One verdict was set for the packet while the queue was there, and it was deleted once. -/
structure Settled (o : PacketObject) : Prop where
  destroyed : o.destroyed = 1
  calls : ∃ verdict, o.calls = [⟨o.pktId, verdict, true⟩]

/-- Every packet that was passed on is settled, and no other verdict was set. -/
structure AllSettled (s : ThreadedHandler R) : Prop where
  deleted : (s.deleted.map PacketObject.pktId).Perm s.passed
  settled : ∀ o ∈ s.deleted, Settled o
  calls : s.verdicts.calls = s.deleted.flatMap PacketObject.calls

/-- Nothing is on its way once the queue is destroyed, and no packet was settled too late. -/
structure InTime (s : ThreadedHandler R) : Prop where
  stopped : s.phase ≠ .running → s.threads.producer = .idle ∧ s.Drained S
  settled : ∀ o ∈ s.deleted, Settled o

/-- The queue is destroyed and some packet is on its way, or was too late. -/
structure Late (s : ThreadedHandler R) : Prop where
  phase : s.phase ≠ .running
  late : s.onTheWay S ≠ 0 ∨ ∃ o ∈ s.deleted, ¬ Settled o

section Accounted

variable {C : NetfilterConfig} {S : Setup R} {s s' : ThreadedHandler R}

omit [Double R] in
theorem accounted_init : (init : ThreadedHandler R).Accounted S := by
  have hnothing : (init : ThreadedHandler R).onTheWay S = 0 := by
    have hsum : ∑ q ∈ Finset.range S.config.workerThreadsPerQueue,
        (init : ThreadedHandler R).hands q = 0 := Finset.sum_eq_zero fun q _ => rfl
    unfold onTheWay
    rw [hsum]
    rfl
  refine ⟨synced_init, ?_, ?_, rfl, rfl⟩
  · rw [hnothing]
    rfl
  · rw [hnothing]
    exact fun o ho => absurd ho (Multiset.notMem_zero o)

omit [Double R] in
/-- **No step loses a packet.** -/
theorem accounted_hands (h : s.Accounted S) (hC : C.verdictAfterClassification = true)
    {a : HandlerAction} (hands : Hands C S s a s') : s'.Accounted S := by
  obtain ⟨taken, gone, hpasses⟩ := hands_passes h.untouched h.synced hC hands
  refine ⟨synced_hands h.synced hands, ?_, fun o ho => ?_, ?_, hands_queueOpen h.queueOpen hands⟩
  · have hids := congrArg (Multiset.map PacketObject.pktId) hpasses.onTheWay
    have hnew : PacketObject.pktId ∘ PacketObject.new = id := rfl
    have hgone : (PacketObject.pktId ∘ fun o => PacketObject.new o.pktId) = PacketObject.pktId :=
      rfl
    simp only [Multiset.map_add, Multiset.map_coe, List.map_map, hnew, hgone, List.map_id] at hids
    rw [hpasses.passed, hpasses.deleted, ← Multiset.coe_add, ← Multiset.coe_add, ← h.passed]
    simp only [Multiset.map_add, Multiset.map_coe]
    rw [add_right_comm, hids]
    abel
  · have hmem : o ∈ s.onTheWay S +
        ((taken.map PacketObject.new : List PacketObject) : Multiset _) := by
      rw [hpasses.onTheWay]
      exact Multiset.mem_add.mpr (Or.inl ho)
    rcases Multiset.mem_add.mp hmem with ho | ho
    · exact h.untouched o ho
    · obtain ⟨id, -, rfl⟩ := List.mem_map.mp ho
      rfl
  · rw [hpasses.calls, hpasses.deleted, h.calls, List.flatMap_append]

omit [Double R] in
/-- A packet that is deleted before the queue is destroyed is settled. -/
theorem settled_hands (h : s.Accounted S) (hC : C.verdictAfterClassification = true)
    (hphase : s.phase = .running) (hsettled : ∀ o ∈ s.deleted, Settled o) {a : HandlerAction}
    (hands : Hands C S s a s') : ∀ o ∈ s'.deleted, Settled o := by
  obtain ⟨taken, gone, hpasses⟩ := hands_passes h.untouched h.synced hC hands
  intro o ho
  rw [hpasses.deleted] at ho
  rcases List.mem_append.mp ho with ho | ho
  · exact hsettled o ho
  · obtain ⟨hdestroyed, verdict, hcalls⟩ := hpasses.gone o ho
    rw [h.queueOpen, hphase] at hcalls
    exact ⟨hdestroyed, verdict, hcalls⟩

omit [Double R] in
/-- With nothing on its way, the workers have nothing more to do. -/
theorem stopped_hands (hidle : s.threads.producer = .idle) (hdrained : s.Drained S)
    (hphase : s.phase ≠ .running) {a : HandlerAction} (hands : Hands C S s a s') :
    s'.threads.producer = .idle ∧ s'.Drained S ∧ s'.deleted = s.deleted := by
  have hbusy : ∀ {P : Prop}, s.threads.producer.adds = true → P := by
    intro P hadds
    rw [hidle] at hadds
    cases hadds
  cases hands with
  | takes id p threads hrunning => exact absurd hrunning hphase
  | turnsAway id p hrunning => exact absurd hrunning hphase
  | pushes q job threads hq hadds => exact hbusy hadds
  | drops threads hadds => exact hbusy hadds
  | produces threads hnot => exact absurd hidle hnot
  | pops i job rest hi hw hq =>
    have hempty := hdrained.queues i hi
    rw [hq] at hempty
    cases hempty
  | applies i pc threads hi hcarries =>
    rw [hdrained.workers i hi] at hcarries
    cases hcarries
  | works i pc threads tested hpc hworker hqueues hproducer =>
    refine ⟨hproducer.trans hidle, ⟨fun q hq => ?_, fun r hr => ?_⟩, rfl⟩
    · show threads.queues q = []
      rw [hqueues]
      exact hdrained.queues q hq
    · show (threads.worker r).carries = false
      rw [hworker]
      by_cases hri : r = i
      · rw [hri, Function.update_self, hpc]
        exact hdrained.workers i (hri ▸ hr)
      · rw [Function.update_of_ne hri]
        exact hdrained.workers r hr
  | flags => exact ⟨hidle, ⟨hdrained.queues, hdrained.workers⟩, rfl⟩
  | closes hrunning => exact absurd hrunning hphase
  | joins _ => exact ⟨hidle, ⟨hdrained.queues, hdrained.workers⟩, rfl⟩
  | finishes _ => exact ⟨hidle, ⟨hdrained.queues, hdrained.workers⟩, rfl⟩

omit [Double R] in
/-- The queue is destroyed by one action only, and is gone for good. -/
theorem phase_hands {a : HandlerAction} (hands : Hands C S s a s') :
    (s'.phase = .running ↔ s.phase = .running ∧ a ≠ .destroyQueue) := by
  cases hands with
  | closes hphase hidle => simp
  | joins hphase => simp [hphase]
  | finishes hphase => simp [hphase]
  | turnsAway id p hphase => simp [release]
  | drops threads hadds => simp
  | applies i pc threads hi hcarries => simp
  | _ => simp

omit [Double R] in
theorem inTime_hands (h : s.InTime S) (hacc : s.Accounted S)
    (hC : C.verdictAfterClassification = true) {a : HandlerAction} (hands : Hands C S s a s')
    (hok : a = .destroyQueue → s.Drained S) : s'.InTime S := by
  by_cases hphase : s.phase = .running
  · refine ⟨fun hphase' => ?_, settled_hands hacc hC hphase h.settled hands⟩
    have ha : a = .destroyQueue := by
      by_contra ha
      exact hphase' ((phase_hands hands).mpr ⟨hphase, ha⟩)
    subst ha
    cases hands with
    | closes _ hidle => exact ⟨hidle, ⟨(hok rfl).queues, (hok rfl).workers⟩⟩
  · obtain ⟨hidle, hdrained⟩ := h.stopped hphase
    obtain ⟨hidle', hdrained', hdeleted⟩ := stopped_hands hidle hdrained hphase hands
    exact ⟨fun _ => ⟨hidle', hdrained'⟩, by rw [hdeleted]; exact h.settled⟩

omit [Double R] in
theorem late_hands (h : s.Late S) (hacc : s.Accounted S)
    (hC : C.verdictAfterClassification = true) {a : HandlerAction} (hands : Hands C S s a s') :
    s'.Late S := by
  obtain ⟨taken, gone, hpasses⟩ := hands_passes hacc.untouched hacc.synced hC hands
  refine ⟨fun hphase' => h.phase ((phase_hands hands).mp hphase').1, ?_⟩
  rcases h.late with hway | ⟨o, ho, hlate⟩
  · cases gone with
    | nil =>
      left
      intro hnothing
      have hzero := hpasses.onTheWay
      rw [hnothing] at hzero
      exact hway (add_eq_zero.mp hzero).1
    | cons o gone =>
      -- whatever is deleted now has its verdict set after the end of the queue
      right
      obtain ⟨-, verdict, hcalls⟩ := hpasses.gone o List.mem_cons_self
      refine ⟨o, ?_, fun hsettled => ?_⟩
      · rw [hpasses.deleted]
        exact List.mem_append_right _ List.mem_cons_self
      · obtain ⟨verdict', hcalls'⟩ := hsettled.calls
        rw [hcalls, hacc.queueOpen, decide_eq_false h.phase] at hcalls'
        cases hcalls'
  · right
    refine ⟨o, ?_, hlate⟩
    rw [hpasses.deleted]
    exact List.mem_append_left _ ho

omit [Double R] in
/-- What is on its way, in terms of the threads. -/
theorem onTheWay_eq_zero_iff (hsync : s.Synced) :
    s.onTheWay S = 0 ↔ s.threads.producer.adds = false ∧ s.Drained S := by
  have hadding : (s.adding.toList : Multiset PacketObject) = 0 ↔
      s.threads.producer.adds = false := by
    rw [← hsync.adding, Multiset.coe_eq_zero]
    cases s.adding <;> simp
  have hhands : ∀ q, s.hands q = 0 ↔
      s.threads.queues q = [] ∧ (s.threads.worker q).carries = false := by
    intro q
    unfold ThreadedHandler.hands
    rw [add_eq_zero, Multiset.coe_eq_zero, Multiset.coe_eq_zero, ← hsync.working q,
      ← List.length_eq_zero_iff, hsync.queued q, List.length_eq_zero_iff]
    cases s.working q <;> simp
  unfold onTheWay
  rw [add_eq_zero, hadding, Finset.sum_eq_zero_iff]
  simp only [Finset.mem_range, hhands]
  exact and_congr_right fun _ => ⟨fun h => ⟨fun q hq => (h q hq).1, fun i hi => (h i hi).2⟩,
    fun h q hq => ⟨h.queues q hq, h.workers q hq⟩⟩

end Accounted

/-! ## Runs -/

/-- The queue is destroyed when no packet is on its way. -/
def drainedFirst (s : ThreadedHandler R) : HandlerAction → Prop
  | .destroyQueue => s.Drained S
  | _ => True

instance (s : ThreadedHandler R) : Decidable (s.Drained S) :=
  decidable_of_iff ((∀ q, q < S.config.workerThreadsPerQueue → s.threads.queues q = []) ∧
      ∀ i, i < S.config.workerThreadsPerQueue → (s.threads.worker i).carries = false)
    ⟨fun h => ⟨h.1, h.2⟩, fun h => ⟨h.1, h.2⟩⟩

instance (s : ThreadedHandler R) (a : HandlerAction) : Decidable (s.drainedFirst S a) :=
  match a with
  | .destroyQueue => inferInstanceAs (Decidable (s.Drained S))
  | .handlePacket .. => isTrue trivial
  | .producer => isTrue trivial
  | .worker _ => isTrue trivial
  | .shutdown => isTrue trivial
  | .joinWorkers => isTrue trivial
  | .finish => isTrue trivial

variable {C : NetfilterConfig} {S : Setup R} {s : ThreadedHandler R}

/-- What every run keeps. -/
theorem accounted_of_run (hC : C.verdictAfterClassification = true)
    (hn : 0 < S.config.workerThreadsPerQueue) {ok : ThreadedHandler R → HandlerAction → Prop}
    (h : Run (step C S) ok init s) : State.Sound S s.threads ∧ s.Accounted S :=
  h.invariant (I := fun s => State.Sound S s.threads ∧ s.Accounted S)
    ⟨State.sound_init S, accounted_init⟩ fun _ _ _ ⟨hs, hacc⟩ _ hstep => by
      obtain ⟨hs', hands⟩ := hands_of_step hC hn hs hstep
      exact ⟨hs', accounted_hands hacc hC hands⟩

/-- **A handler that is destroyed when no packet is on its way leaves none behind.** -/
theorem settled_of_run (hC : C.verdictAfterClassification = true)
    (hn : 0 < S.config.workerThreadsPerQueue)
    (h : Run (step C S) (fun s a => s.drainedFirst S a) init s)
    (hdestroyed : s.phase = .destroyed) : s.AllSettled := by
  obtain ⟨-, hacc, hintime⟩ := h.invariant
    (I := fun s => State.Sound S s.threads ∧ s.Accounted S ∧ s.InTime S)
    ⟨State.sound_init S, accounted_init, fun hphase => absurd rfl hphase,
      fun o ho => absurd ho List.not_mem_nil⟩
    fun t a u ⟨hs, hacc, hintime⟩ hok hstep => by
      obtain ⟨hs', hands⟩ := hands_of_step hC hn hs hstep
      refine ⟨hs', accounted_hands hacc hC hands, inTime_hands hintime hacc hC hands fun ha => ?_⟩
      subst ha
      exact hok
  obtain ⟨hidle, hdrained⟩ := hintime.stopped (by rw [hdestroyed]; exact Phase.noConfusion)
  refine ⟨?_, hintime.settled, hacc.calls⟩
  have hnothing : s.onTheWay S = 0 :=
    (onTheWay_eq_zero_iff hacc.synced).mpr ⟨by rw [hidle]; rfl, hdrained⟩
  have hpassed := hacc.passed
  rw [hnothing, zero_add] at hpassed
  exact Multiset.coe_eq_coe.mp hpassed

/-- **And no other does**: a packet that is on its way when the queue is destroyed is lost or late,
whatever happens then. -/
theorem not_settled_of_run (hC : C.verdictAfterClassification = true)
    (hn : 0 < S.config.workerThreadsPerQueue) {u t : ThreadedHandler R}
    (hu : Reaches (step C S) init u) (hdestroy : step C S u .destroyQueue = some t)
    (hundrained : ¬ u.Drained S) (h : Reaches (step C S) t s) : ¬ s.AllSettled := by
  obtain ⟨hsound, hacc⟩ := accounted_of_run hC hn hu
  obtain ⟨hsound', hands⟩ := hands_of_step hC hn hsound hdestroy
  have hlate : t.Late S := by
    refine ⟨fun hphase => ((phase_hands hands).mp hphase).2 rfl, Or.inl ?_⟩
    cases hands with
    | closes hphase hidle =>
      exact fun hnothing => hundrained ((onTheWay_eq_zero_iff hacc.synced).mp hnothing).2
  obtain ⟨-, hacc', -, hway | ⟨o, ho, hlate'⟩⟩ := h.invariant
    (I := fun s => State.Sound S s.threads ∧ s.Accounted S ∧ s.Late S)
    ⟨hsound', accounted_hands hacc hC hands, hlate⟩ fun t a u ⟨hs, hacc, hlate⟩ _ hstep => by
      obtain ⟨hs', hands⟩ := hands_of_step hC hn hs hstep
      exact ⟨hs', accounted_hands hacc hC hands, late_hands hlate hacc hC hands⟩
  · intro hsettled
    have hpassed := congrArg Multiset.card hacc'.passed
    have hdeleted := hsettled.deleted.length_eq
    simp only [Multiset.map_add, Multiset.card_add, Multiset.card_map, Multiset.coe_card,
      List.length_map] at hpassed hdeleted
    exact hway (Multiset.card_eq_zero.mp (by omega))
  · exact fun hsettled => hlate' (hsettled.settled o ho)

/-- A query is queued. -/
def queuesQuery : List HandlerAction := .handlePacket 7 State.query :: List.replicate 3 .producer

/-- The handler is shut down, its worker leaves the loop, and the handler is destroyed. -/
def goesDown : List HandlerAction :=
  [.shutdown, .worker 0, .destroyQueue, .joinWorkers, .finish]

/-- The worker is done with the query before the shutdown. -/
def servesQuery : List HandlerAction := queuesQuery ++ List.replicate 8 (.worker 0) ++ goesDown

theorem servesQuery_settled : ∃ s : ThreadedHandler ℚ, s.phase = .destroyed ∧ s.passed = [7] ∧
    s.AllSettled := by
  obtain ⟨s, hrun, hseen⟩ := exists_of_exec (step ⟨true⟩ (State.withWorkers 1))
    (fun s a => s.drainedFirst (State.withWorkers 1) a) init servesQuery
    (fun s : ThreadedHandler ℚ => decide (s.phase = .destroyed) && decide (s.passed = [7]))
    (by decide +kernel)
  simp only [Bool.and_eq_true, decide_eq_true_eq] at hseen
  exact ⟨s, hseen.1, hseen.2, settled_of_run (C := ⟨true⟩) (S := State.withWorkers 1) rfl
    (by decide) hrun hseen.1⟩

/-- **The worker does not drain its queue.** The query is queued when the flag is set. -/
theorem shutdown_loses_packet : ∃ s : ThreadedHandler ℚ,
    Reaches (step ⟨true⟩ (State.withWorkers 1)) init s ∧ s.phase = .destroyed ∧
      s.passed = [7] ∧ s.deleted = [] ∧ s.verdicts.calls = [] ∧ ¬ s.AllSettled := by
  obtain ⟨s, hrun, hseen⟩ := exists_of_exec (step ⟨true⟩ (State.withWorkers 1)) (fun _ _ => True)
    init (queuesQuery ++ goesDown)
    (fun s : ThreadedHandler ℚ => decide (s.phase = .destroyed) && decide (s.passed = [7]) &&
      decide (s.deleted = []) && decide (s.verdicts.calls = [])) (by decide +kernel)
  simp only [Bool.and_eq_true, decide_eq_true_eq] at hseen
  obtain ⟨⟨⟨hphase, hpassed⟩, hdeleted⟩, hcalls⟩ := hseen
  refine ⟨s, hrun, hphase, hpassed, hdeleted, hcalls, fun hsettled => ?_⟩
  have hlength := hsettled.deleted.length_eq
  rw [hdeleted, hpassed] at hlength
  cases hlength

end ThreadedHandler

end Vsid
