import Vsid.Common.Workers
import Vsid.Laws.Forgetting

/-!
# Runs that differ in the meters only

The flow manager and its threads never look at the meters of a flow: only `Flow.addPacket` does.
`hide` applies a function to the meters of every flow there is, in the heap and in what was told of
it. If a packet does the same to a flow before and after hiding (`Setup.Hides`) then so does every
operation of the manager, every step of every thread (`State.step_hide`) and every run, threaded or
not.
-/

set_option autoImplicit false

namespace Vsid

variable {R : Type}

/-- The flow with other meters. -/
def Flow.hide (h : List (AttributeMeter R) → List (AttributeMeter R)) (f : Flow R) : Flow R :=
  { f with attributeMeters := h f.attributeMeters }

/-- The event with the flow as it is seen. -/
def Event.hide (h : List (AttributeMeter R) → List (AttributeMeter R)) (e : Event R) : Event R :=
  { e with note := e.note.map (Flow.hide h) }

/-- The manager with all its flows as they are seen. -/
def FlowManager.hide (h : List (AttributeMeter R) → List (AttributeMeter R)) (m : FlowManager R) :
    FlowManager R :=
  { m with heap := m.heap.map (Flow.hide h), events := m.events.map (Event.hide h) }

/-- The threads, with all flows as they are seen. -/
def State.hide (h : List (AttributeMeter R) → List (AttributeMeter R)) (s : State R) : State R :=
  { s with mgr := s.mgr.hide h }

/-- What `h` makes of the meters lives under `T` as the meters do under `S`. -/
structure Setup.Hides [Double R] (S T : Setup R)
    (h : List (AttributeMeter R) → List (AttributeMeter R)) : Prop where
  config : T.config = S.config
  flowHash : ∀ t, T.flowHash t = S.flowHash t
  new : ∀ p i, Flow.new T p (T.staleBytes i) = (Flow.new S p (S.staleBytes i)).hide h
  addPacket : ∀ (f : Flow R) p, (f.hide h).addPacket T p = (f.addPacket S p).hide h

variable {h : List (AttributeMeter R) → List (AttributeMeter R)}

/-! ## Hiding more -/

theorem Event.hide_comp (h' : List (AttributeMeter R) → List (AttributeMeter R)) :
    Event.hide h' ∘ Event.hide h = Event.hide (h' ∘ h) := by
  funext e
  obtain ⟨i, note⟩ := e
  cases note with
  | _ => rfl

theorem FlowManager.hide_comp (h' : List (AttributeMeter R) → List (AttributeMeter R)) :
    FlowManager.hide h' ∘ FlowManager.hide h = FlowManager.hide (h' ∘ h) := by
  have hflow : Flow.hide h' ∘ Flow.hide h = Flow.hide (h' ∘ h) := rfl
  funext m
  rw [Function.comp_apply]
  unfold hide
  simp only [List.map_map, hflow, Event.hide_comp]

theorem State.hide_comp (h' : List (AttributeMeter R) → List (AttributeMeter R)) :
    State.hide h' ∘ State.hide h = State.hide (h' ∘ h) := by
  funext s
  have hmgr := congrFun (FlowManager.hide_comp (h := h) h') s.mgr
  rw [Function.comp_apply] at hmgr ⊢
  unfold hide
  rw [hmgr]

namespace FlowManager

/-! ## The parts of an operation -/

theorem heap_hide (m : FlowManager R) (i : FlowId) :
    (m.hide h).heap[i]? = (m.heap[i]?).map (Flow.hide h) := List.getElem?_map

theorem modifyFlow_hide (m : FlowManager R) (i : FlowId) {g g' : Flow R → Flow R}
    (hg : ∀ f : Flow R, g' (f.hide h) = (g f).hide h) :
    (m.hide h).modifyFlow i g' = (m.modifyFlow i g).hide h := by
  have hheap : (m.heap.map (Flow.hide h)).modify i g' = (m.heap.modify i g).map (Flow.hide h) := by
    refine List.ext_getElem? fun j => ?_
    rw [List.getElem?_modify, List.getElem?_map, List.getElem?_map, List.getElem?_modify]
    cases m.heap[j]? with
    | none => rfl
    | some f =>
      by_cases hij : i = j
      · simp only [if_pos hij, Option.map_eq_map, Option.map_some, hg]
      · simp only [if_neg hij, Option.map_eq_map, Option.map_some]
  unfold modifyFlow hide
  rw [hheap]

theorem setFinishedAndNotified_hide (m : FlowManager R) (i : FlowId) :
    (m.hide h).modifyFlow i Flow.setFinishedAndNotified =
      (m.modifyFlow i Flow.setFinishedAndNotified).hide h :=
  m.modifyFlow_hide i fun _ => rfl

theorem incPktsInQueue_hide (m : FlowManager R) (i : FlowId) :
    (m.hide h).modifyFlow i Flow.incPktsInQueue = (m.modifyFlow i Flow.incPktsInQueue).hide h :=
  m.modifyFlow_hide i fun _ => rfl

theorem decPktsInQueue_hide (m : FlowManager R) (i : FlowId) :
    (m.hide h).modifyFlow i Flow.decPktsInQueue = (m.modifyFlow i Flow.decPktsInQueue).hide h :=
  m.modifyFlow_hide i fun _ => rfl

theorem tell_hide (m : FlowManager R) (i : FlowId) (note : Note R) :
    (m.hide h).tell i (note.map (Flow.hide h)) = (m.tell i note).hide h := by
  unfold tell hide
  rw [List.map_append]
  rfl

theorem erase_hide (m : FlowManager R) (hash : UInt32) :
    (m.hide h).erase hash = (m.erase hash).hide h := by
  have hflows : (m.hide h).flows = m.flows := rfl
  unfold erase
  rw [hflows]
  cases m.flows hash with
  | none => rfl
  | some i =>
    simp only
    rw [heap_hide]
    cases m.heap[i]? with
    | none => rfl
    | some f => exact tell_hide { m with flows := Function.update m.flows hash none } i (.removed f)

theorem notifyFlowFinished_hide (m : FlowManager R) (i : FlowId) :
    (m.hide h).notifyFlowFinished i = (m.notifyFlowFinished i).hide h := by
  unfold notifyFlowFinished
  rw [heap_hide]
  cases m.heap[i]? with
  | none => rfl
  | some f =>
    have hstate : (f.hide h).flowState = f.flowState := rfl
    have hfew : tooFewPackets (f.hide h) = tooFewPackets f := rfl
    have htell : (m.hide h).tell i (.finished (f.hide h)) = (m.tell i (.finished f)).hide h :=
      m.tell_hide i (.finished f)
    simp only [Option.map_some, hstate, hfew, htell, setFinishedAndNotified_hide]
    split
    · rfl
    · split
      · rfl
      · rfl

theorem notifyFlowClassified_hide (m : FlowManager R) (i : FlowId) :
    (m.hide h).notifyFlowClassified i = (m.notifyFlowClassified i).hide h := by
  unfold notifyFlowClassified
  rw [heap_hide]
  cases m.heap[i]? with
  | none => rfl
  | some f => exact m.tell_hide i (.classified f)

theorem deleteFlow_hide (m : FlowManager R) (i : FlowId) :
    (m.hide h).deleteFlow i = (m.deleteFlow i).hide h := by
  unfold deleteFlow
  rw [heap_hide]
  cases m.heap[i]? with
  | none => rfl
  | some f =>
    have hpending : (f.hide h).havePktsInQueue = f.havePktsInQueue := rfl
    have hhash : (f.hide h).hash = f.hash := rfl
    simp only [Option.map_some, hpending, hhash, setFinishedAndNotified_hide, erase_hide]
    split
    · rfl
    · rfl

theorem closeFlow_hide (m : FlowManager R) (i : FlowId) :
    (m.hide h).closeFlow i = (m.closeFlow i).hide h := by
  unfold closeFlow
  rw [heap_hide]
  cases m.heap[i]? with
  | none => rfl
  | some f =>
    have hstate : (f.hide h).flowState = f.flowState := rfl
    simp only [Option.map_some, hstate, notifyFlowFinished_hide, deleteFlow_hide]
    split
    · rfl
    · split
      · rfl
      · rfl

theorem sweepEntry_hide (m : FlowManager R) (hash : UInt32) :
    (m.hide h).sweepEntry hash = (m.sweepEntry hash).map (hide h) := by
  have hflows : (m.hide h).flows = m.flows := rfl
  unfold sweepEntry
  rw [hflows]
  cases m.flows hash with
  | none => rfl
  | some i =>
    simp only
    rw [heap_hide]
    cases m.heap[i]? with
    | none => rfl
    | some f =>
      have hpending : (f.hide h).havePktsInQueue = f.havePktsInQueue := rfl
      simp only [Option.map_some, hpending, notifyFlowFinished_hide, erase_hide]
      split
      · rfl
      · rfl

theorem finished_hide (m : FlowManager R) (order : List UInt32) :
    (m.hide h).finished order = (m.finished order).map (hide h) :=
  foldlM_lockstep sweepEntry_hide order m

/-! ## Packets -/

variable [Double R] {S T : Setup R}

theorem nextQueue_hide (hsame : S.Hides T h) : nextQueue (R := R) T = nextQueue S := by
  funext m
  unfold nextQueue
  rw [hsame.config]

theorem insertFlow_hide (hsame : S.Hides T h) (self : Option Nat) (m : FlowManager R)
    (p : IPv4Packet) :
    (m.hide h).insertFlow T self p =
      ((m.insertFlow S self p).1.hide h, (m.insertFlow S self p).2) := by
  have hlength : (m.hide h).heap.length = m.heap.length := List.length_map _
  unfold insertFlow
  simp only [hlength, hsame.new, hsame.config, nextQueue_hide hsame]
  by_cases hthreads : 0 < S.config.workerThreadsPerQueue
  · simp only [if_pos hthreads]
    cases self with
    | none =>
      simp only [hide, List.map_append]
      rfl
    | some w =>
      simp only [hide, List.map_append]
      rfl
  · simp only [if_neg hthreads, hide, List.map_append]
    rfl

theorem replaces_hide (hsame : S.Hides T h) (f : Flow R) (p : IPv4Packet) :
    replaces T (f.hide h) p = replaces S f p := by
  unfold replaces
  rw [hsame.config]
  rfl

theorem getFlow_hide (hsame : S.Hides T h) (self : Option Nat) (m : FlowManager R)
    (p : IPv4Packet) :
    (m.hide h).getFlow T self p = ((m.getFlow S self p).1.hide h, (m.getFlow S self p).2) := by
  have hflows : (m.hide h).flows = m.flows := rfl
  unfold getFlow
  rw [hflows, hsame.flowHash]
  cases m.flows (S.flowHash p.tuple) with
  | none => exact insertFlow_hide hsame self m p
  | some i =>
    simp only
    rw [heap_hide]
    cases m.heap[i]? with
    | none => rfl
    | some f =>
      simp only [Option.map_some, replaces_hide hsame, notifyFlowFinished_hide, erase_hide,
        insertFlow_hide hsame]
      split
      · rfl
      · rfl

theorem modifyFlow_addPacket_hide (hsame : S.Hides T h) (m : FlowManager R) (i : FlowId)
    (p : IPv4Packet) :
    (m.hide h).modifyFlow i (fun f => f.addPacket T p) =
      (m.modifyFlow i fun f => f.addPacket S p).hide h :=
  m.modifyFlow_hide i fun f => hsame.addPacket f p

theorem applyPacket_hide (hsame : S.Hides T h) (m : FlowManager R) (i : FlowId) (p : IPv4Packet) :
    (m.hide h).applyPacket T i p = (m.applyPacket S i p).hide h := by
  unfold applyPacket
  rw [heap_hide]
  cases m.heap[i]? with
  | none => rfl
  | some f =>
    have hbefore : (f.hide h).flowClassified = f.flowClassified := rfl
    have hafter : ((f.hide h).addPacket T p).flowClassified = (f.addPacket S p).flowClassified := by
      rw [hsame.addPacket]
      rfl
    simp only [Option.map_some, hbefore, hafter, modifyFlow_addPacket_hide hsame,
      notifyFlowClassified_hide]
    split
    · rfl
    · rfl

theorem processPacket_hide (hsame : S.Hides T h) (self : Option Nat) (m : FlowManager R)
    (p : IPv4Packet) :
    (m.hide h).processPacket T self p = (m.processPacket S self p).hide h := by
  unfold processPacket
  rw [getFlow_hide hsame]
  simp only [decPktsInQueue_hide, applyPacket_hide hsame, closeFlow_hide]

theorem addPacket_hide (hsame : S.Hides T h) (m : FlowManager R) (p : IPv4Packet) :
    (m.hide h).addPacket T p = (m.addPacket S p).hide h := by
  have hdown : (m.hide h).shutdown = m.shutdown := rfl
  unfold addPacket
  rw [hdown, getFlow_hide hsame]
  simp only [incPktsInQueue_hide, processPacket_hide hsame]
  split
  · rfl
  · rfl

/-- **A capture, and the sweep after it**, without worker threads. -/
theorem run_hide (hsame : S.Hides T h) (packets : List IPv4Packet) (order : List UInt32) :
    (addPackets T packets).finished order =
      ((addPackets S packets).finished order).map (hide h) := by
  have hpackets : ∀ m : FlowManager R, packets.foldl (fun m p => m.addPacket T p) (m.hide h) =
      (packets.foldl (fun m p => m.addPacket S p) m).hide h := by
    induction packets with
    | nil => exact fun _ => rfl
    | cons p packets ih =>
      intro m
      rw [List.foldl_cons, List.foldl_cons, addPacket_hide hsame]
      exact ih _
  have hstart : addPackets T packets = (addPackets S packets).hide h := hpackets FlowManager.init
  rw [hstart, finished_hide]

/-! ## The sections of the threads -/

omit [Double R] in
theorem notifyStep_hide (m : FlowManager R) (i : FlowId) (stage : NotifyStage) :
    (m.hide h).notifyStep i stage = ((m.notifyStep i stage).1.hide h, (m.notifyStep i stage).2) := by
  unfold notifyStep
  rw [heap_hide]
  cases m.heap[i]? with
  | none => rfl
  | some f =>
    have hstate : (f.hide h).flowState = f.flowState := rfl
    have hfew : tooFewPackets (f.hide h) = tooFewPackets f := rfl
    have htell : (m.hide h).tell i (.finished (f.hide h)) = (m.tell i (.finished f)).hide h :=
      m.tell_hide i (.finished f)
    cases stage with
    | test =>
      simp only [Option.map_some, hstate, hfew]
      split
      · rfl
      · split
        · rfl
        · rfl
    | observe => simp only [Option.map_some, htell]
    | mark => simp only [Option.map_some, setFinishedAndNotified_hide]
    | done => rfl

theorem assignQueue_hide (hsame : S.Hides T h) (m : FlowManager R) (i : FlowId) :
    (m.hide h).assignQueue T i = (m.assignQueue S i).hide h := by
  unfold assignQueue
  rw [heap_hide]
  cases m.heap[i]? with
  | none => rfl
  | some f =>
    have hqueue : (f.hide h).threadQueueId = f.threadQueueId := rfl
    have hnext : (m.hide h).nextQueue T = m.nextQueue S := by
      rw [nextQueue_hide hsame]
      rfl
    have hmodify : (m.hide h).modifyFlow i (fun f => { f with threadQueueId := m.nextQueue S }) =
        (m.modifyFlow i fun f => { f with threadQueueId := m.nextQueue S }).hide h :=
      m.modifyFlow_hide i fun _ => rfl
    simp only [Option.map_some, hqueue, hnext, hmodify]
    split
    · rfl
    · rfl

omit [Double R] in
theorem queueOf_hide (m : FlowManager R) (i : FlowId) : (m.hide h).queueOf i = m.queueOf i := by
  unfold queueOf
  rw [heap_hide]
  cases m.heap[i]? with
  | none => rfl
  | some f => rfl

omit [Double R] in
theorem tableEmpty_hide (m : FlowManager R) : (m.hide h).tableEmpty = m.tableEmpty := by
  have hlength : (m.hide h).heap.length = m.heap.length := List.length_map _
  unfold tableEmpty
  rw [hlength]
  congr 1
  funext i
  rw [heap_hide]
  cases m.heap[i]? with
  | none => rfl
  | some f => rfl

end FlowManager

/-- What the look-up came to, with all flows as they are seen. -/
def Looked.hide (h : List (AttributeMeter R) → List (AttributeMeter R)) : Looked R → Looked R
  | found m i => .found (m.hide h) i
  | replace i => .replace i

namespace FlowManager

variable [Double R] {S T : Setup R}

theorem look_hide (hsame : S.Hides T h) (self : Option Nat) (m : FlowManager R) (p : IPv4Packet) :
    (m.hide h).look T self p = (m.look S self p).hide h := by
  have hflows : (m.hide h).flows = m.flows := rfl
  unfold look
  rw [hflows, hsame.flowHash]
  cases m.flows (S.flowHash p.tuple) with
  | none =>
    simp only [insertFlow_hide hsame]
    rfl
  | some i =>
    simp only
    rw [heap_hide]
    cases m.heap[i]? with
    | none => rfl
    | some f =>
      simp only [Option.map_some, replaces_hide hsame]
      split
      · rfl
      · rfl

end FlowManager

/-! ## The steps -/

namespace State

open FlowManager

variable [Double R] {S T : Setup R}

theorem producerStep_hide (hsame : S.Hides T h) (s : State R) :
    (s.hide h).producerStep T = (s.producerStep S).map (hide h) := by
  have hpc : (s.hide h).producer = s.producer := rfl
  have hmutex : (s.hide h).mutex = s.mutex := rfl
  have hqueues : (s.hide h).queues = s.queues := rfl
  have hmgr : (s.hide h).mgr = s.mgr.hide h := rfl
  unfold producerStep
  rw [hpc]
  cases s.producer with
  | idle => rfl
  | lookup p =>
    simp only [hmutex, hmgr, look_hide hsame]
    split
    · rfl
    · cases s.mgr.look S none p with
      | found m i => rfl
      | replace i => rfl
  | replacing p i stage =>
    cases stage with
    | done =>
      simp only [hmgr, hsame.flowHash, erase_hide, insertFlow_hide hsame]
      rfl
    | _ =>
      simp only [hmgr, notifyStep_hide]
      rfl
  | found p i =>
    simp only [hmgr, incPktsInQueue_hide, assignQueue_hide hsame]
    rfl
  | pushing p i =>
    simp only [hmgr, hqueues, queueOf_hide, hsame.config]
    split
    · rfl
    · rfl
  | undo i =>
    simp only [hmgr, decPktsInQueue_hide]
    rfl
  | draining k =>
    simp only [hqueues, hmutex, hsame.config]
    split
    · cases s.queues k with
      | nil => rfl
      | cons job jobs => rfl
    · split
      · rfl
      · rfl
  | sweeping =>
    simp only [hmgr, tableEmpty_hide]
    split
    · rfl
    · rfl
  | spinning hash i =>
    simp only [hmgr]
    rw [heap_hide]
    cases s.mgr.heap[i]? with
    | none => rfl
    | some f =>
      have hpending : (f.hide h).havePktsInQueue = f.havePktsInQueue := rfl
      simp only [Option.map_some, hpending]
      split
      · rfl
      · rfl
  | sweepNotify hash i stage =>
    cases stage with
    | done =>
      simp only [hmgr, erase_hide]
      rfl
    | _ =>
      simp only [hmgr, notifyStep_hide]
      rfl

theorem workerStep_hide (hsame : S.Hides T h) (s : State R) (i : Nat) :
    (s.hide h).workerStep T i = (s.workerStep S i).map (hide h) := by
  have hpc : (s.hide h).worker = s.worker := rfl
  have hmutex : (s.hide h).mutex = s.mutex := rfl
  have hqueues : (s.hide h).queues = s.queues := rfl
  have hmgr : (s.hide h).mgr = s.mgr.hide h := rfl
  have hdown : (s.mgr.hide h).shutdown = s.mgr.shutdown := rfl
  unfold workerStep
  rw [hpc]
  cases s.worker i with
  | exited => rfl
  | polling =>
    simp only [hmgr, hdown, hqueues]
    split
    · rfl
    · cases s.queues i with
      | nil => rfl
      | cons job jobs => rfl
  | lookup job =>
    simp only [hmutex, hmgr, look_hide hsame]
    split
    · rfl
    · cases s.mgr.look S (some i) job.packet with
      | found m j => rfl
      | replace j => rfl
  | replacing job j stage =>
    cases stage with
    | done =>
      simp only [hmgr, hsame.flowHash, erase_hide, insertFlow_hide hsame]
      rfl
    | _ =>
      simp only [hmgr, notifyStep_hide]
      rfl
  | found p j =>
    simp only [hmgr, decPktsInQueue_hide]
    rw [heap_hide]
    cases s.mgr.heap[j]? with
    | none => rfl
    | some f => rfl
  | applying p j classified =>
    simp only [hmgr, modifyFlow_addPacket_hide hsame]
    rfl
  | applied j classified =>
    simp only [hmgr, notifyFlowClassified_hide]
    rw [heap_hide]
    cases s.mgr.heap[j]? with
    | none => rfl
    | some f =>
      have hclassified : (f.hide h).flowClassified = f.flowClassified := rfl
      simp only [Option.map_some, hclassified]
      split
      · rfl
      · rfl
  | checkFinished j =>
    simp only [hmgr]
    rw [heap_hide]
    cases s.mgr.heap[j]? with
    | none => rfl
    | some f =>
      have hstate : (f.hide h).flowState = f.flowState := rfl
      simp only [Option.map_some, hstate]
      split
      · rfl
      · rfl
  | checkNotified j =>
    simp only [hmgr]
    rw [heap_hide]
    cases s.mgr.heap[j]? with
    | none => rfl
    | some f =>
      have hstate : (f.hide h).flowState = f.flowState := rfl
      simp only [Option.map_some, hstate]
      split
      · rfl
      · rfl
  | notifying j stage =>
    cases stage with
    | done => rfl
    | _ =>
      simp only [hmgr, notifyStep_hide]
      rfl
  | deleting j =>
    simp only [hmutex, hmgr, deleteFlow_hide]
    split
    · rfl
    · rfl

/-- **Any step of any thread.** -/
theorem step_hide (hsame : S.Hides T h) (s : State R) (a : Action) :
    step T (s.hide h) a = (step S s a).map (hide h) := by
  have hpc : (s.hide h).producer = s.producer := rfl
  have hdown : (s.hide h).mgr.shutdown = s.mgr.shutdown := rfl
  have hflows : (s.hide h).mgr.flows = s.mgr.flows := rfl
  cases a with
  | addPacket p =>
    unfold step
    rw [hpc, hdown]
    cases s.producer with
    | idle =>
      simp only
      split
      · rfl
      · rfl
    | _ => rfl
  | finished =>
    unfold step
    rw [hpc]
    cases s.producer with
    | _ => rfl
  | pick hash =>
    unfold step
    rw [hpc, hflows]
    cases s.producer with
    | sweeping =>
      simp only
      cases s.mgr.flows hash with
      | none => rfl
      | some i => rfl
    | _ => rfl
  | producer => exact producerStep_hide hsame s
  | worker i =>
    simp only [step, hsame.config, workerStep_hide hsame]
    split
    · rfl
    · rfl
  | shutdown => rfl

/-- **A schedule**: which threads go on, which packets come and which entries are swept. -/
theorem schedule_hide (hsame : S.Hides T h) (actions : List Action) :
    actions.foldlM (step T) init = (actions.foldlM (step S) init).map (hide h) :=
  foldlM_lockstep (step_hide hsame) actions init

end State

end Vsid
