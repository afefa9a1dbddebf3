import Vsid.Laws.FreshStart
import Vsid.Laws.Training
import Vsid.Programs.Training

/-!
# Training with many captures

What the loop over the training files does to the database. In learning mode the flow manager does
not read what training changes, and after each capture it starts over. So every capture is reported
on as by a manager of its own, and the database learns from the reports one after the other
(`processFiles_learns`).
-/

set_option autoImplicit false

namespace Vsid

variable {R : Type} [Double R] {S : Setup R}

/-! ## What learning mode reads of the database -/

theorem Flow.addPacket_withDatabase {db : ProtocolModelDb R}
    (hlearning : S.config.learningMode = true) (hcutoff : db.cutoffLimit = S.database.cutoffLimit)
    (f : Flow R) (p : IPv4Packet) : f.addPacket (S.withDatabase db) p = f.addPacket S p := by
  have hclassify : ∀ f : Flow R, f.classify (S.withDatabase db) = f.classify S := by
    intro f
    rw [Flow.classify_of_learning hlearning]
    exact Flow.classify_of_learning hlearning
  have hlimit : (S.withDatabase db).database.cutoffLimit = S.database.cutoffLimit := hcutoff
  unfold addPacket addDataPacket
  simp only [hclassify, hlimit]

namespace FlowManager

variable {m : FlowManager R}

theorem addPacket_withDatabase {db : ProtocolModelDb R}
    (hlearning : S.config.learningMode = true) (hcutoff : db.cutoffLimit = S.database.cutoffLimit)
    (m : FlowManager R) (p : IPv4Packet) :
    m.addPacket (S.withDatabase db) p = m.addPacket S p := by
  have hget : getFlow (S.withDatabase db) = getFlow S := rfl
  unfold addPacket processPacket applyPacket
  simp only [hget, Flow.addPacket_withDatabase hlearning hcutoff]

theorem events_foldl (S : Setup R) (packets : List IPv4Packet) (m : FlowManager R) :
    m.events <+: (packets.foldl (fun m p => m.addPacket S p) m).events := by
  induction packets generalizing m with
  | nil => exact List.prefix_rfl
  | cons p packets ih => exact (events_addPacket S m p).trans (ih _)

omit [Double R] in
/-- An order in which the table of any manager can be walked. -/
def tableKeys (m : FlowManager R) : List UInt32 :=
  (m.heap.map Flow.hash).dedup.filter fun h => (m.flows h).isSome

omit [Double R] in
theorem walksTable_tableKeys (hm : Indexed S m) : m.WalksTable m.tableKeys := by
  refine ⟨(List.nodup_dedup _).filter _, fun h => ?_⟩
  unfold tableKeys
  rw [List.mem_filter, List.mem_dedup]
  refine ⟨fun hh => hh.2, fun hsome => ⟨?_, hsome⟩⟩
  obtain ⟨i, hi⟩ := Option.isSome_iff_exists.mp hsome
  obtain ⟨f, hf, hhash⟩ := exists_of_hashAt (hm.valid h i hi)
  exact List.mem_map.mpr ⟨f, List.mem_of_getElem? hf, hhash⟩

/-! ## How many flows are reported -/

theorem length_addPacket_le (hseq : S.config.workerThreadsPerQueue = 0) {packets : List IPv4Packet}
    (h : Sequential S packets m) (p : IPv4Packet) :
    (m.addPacket S p).heap.length ≤ m.heap.length + 1 := by
  cases hdown : m.shutdown with
  | true =>
    rw [addPacket_of_shutdown hdown]
    exact Nat.le_succ _
  | false =>
    by_contra hmore
    obtain ⟨g, hg⟩ : ∃ g, (m.addPacket S p).heap[m.heap.length + 1]? = some g :=
      ⟨_, List.getElem?_eq_getElem (Nat.lt_of_not_le hmore)⟩
    have hold : ∀ f : Flow R, m.heap[m.heap.length + 1]? ≠ some f := by
      intro f hf
      exact Nat.not_lt_of_le (Nat.le_succ _) (List.getElem?_eq_some_iff.mp hf).1
    rcases heap_addPacket (h.quiet hdown) hseq p hg with
      ⟨-, f, hf, -⟩ | ⟨-, f, -, ⟨f₀, hf₀, -⟩ | ⟨hnew, -⟩⟩
    · exact hold f hf
    · exact hold f₀ hf₀
    · exact Nat.succ_ne_self _ hnew

/-- A packet opens one flow at most. -/
theorem Sequential.length_le (hseq : S.config.workerThreadsPerQueue = 0)
    {packets : List IPv4Packet} (h : Sequential S packets m) : m.heap.length ≤ packets.length := by
  induction h with
  | init => exact Nat.zero_le _
  | addPacket p hm ih =>
    rw [List.length_append, List.length_singleton]
    exact (length_addPacket_le hseq hm p).trans (Nat.succ_le_succ ih)
  | finished _ hfinished ih =>
    rw [(heap_finished hfinished).1]
    exact ih
  | shutdown _ ih => exact ih

omit [Double R] in
theorem finishedFlow_of_announced {f : Flow R} {notes : List (Note R)} (h : Announced f notes) :
    notes.filterMap Note.finishedFlow = [] := by
  cases h <;> rfl

/-- The observers hear of a flow once at most. -/
theorem Sequential.told_le (hseq : S.config.workerThreadsPerQueue = 0)
    {packets : List IPv4Packet} (h : Sequential S packets m) {i : FlowId} (hi : i < m.heap.length) :
    ((m.told i).filterMap Note.finishedFlow).length ≤ 1 := by
  have hf : m.heap[i]? = some m.heap[i] := List.getElem?_eq_getElem hi
  generalize m.heap[i] = f at hf
  have hrecord : m.record i = some { flow := f, told := m.told i } := by
    rw [record, hf, Option.map_some]
  have hvalid := h.valid hseq f.hash
  by_cases hlive : m.flows f.hash = some i
  · have hopen := hvalid.open_ _ ((record_of_connection hlive).trans hrecord)
    rw [finishedFlow_of_announced hopen.announced]
    exact Nat.zero_le _
  · have hpast : { flow := f, told := m.told i } ∈ (m.connection f.hash).past := by
      refine List.mem_filterMap.mpr ⟨i, List.mem_filter.mpr ⟨List.mem_range.mpr hi, ?_⟩, hrecord⟩
      exact decide_eq_true ⟨hashAt_of_heap hf, hlive⟩
    obtain ⟨g, before, hannounced, -, htold⟩ := hvalid.closed _ hpast
    simp only at htold
    rw [htold, List.filterMap_append, List.filterMap_append, finishedFlow_of_announced hannounced]
    split
    · exact Nat.zero_le 1
    · exact Nat.le_refl 1

/-- **No more flows are reported than packets were added.** -/
theorem Sequential.reported_le (hseq : S.config.workerThreadsPerQueue = 0)
    {packets : List IPv4Packet} (h : Sequential S packets m) :
    m.reported.length ≤ packets.length := by
  have hids : ∀ e ∈ m.events, e.id ∈ List.range m.heap.length := fun e he =>
    List.mem_range.mpr (h.sound.1.told e he)
  have hperm := Keyed.perm_flatMap_filter Event.id List.nodup_range hids
  have hsplit : m.reported.Perm ((List.range m.heap.length).flatMap fun i =>
      (m.told i).filterMap Note.finishedFlow) := by
    refine ((hperm.filterMap fun e => e.note.finishedFlow).symm).trans (List.Perm.of_eq ?_)
    rw [List.filterMap_flatMap]
    refine List.flatMap_congr fun i _ => ?_
    unfold told
    rw [List.filterMap_map]
    rfl
  have hsum : ∀ is : List FlowId, (∀ i ∈ is, i < m.heap.length) →
      (is.flatMap fun i => (m.told i).filterMap Note.finishedFlow).length ≤ is.length := by
    intro is his
    induction is with
    | nil => exact Nat.le_refl _
    | cons i is ih =>
      obtain ⟨hi, his⟩ := List.forall_mem_cons.mp his
      rw [List.flatMap_cons, List.length_append, List.length_cons, Nat.add_comm is.length 1]
      exact Nat.add_le_add (h.told_le hseq hi) (ih his)
  have hrange := hsum (List.range m.heap.length) fun i hi => List.mem_range.mp hi
  rw [List.length_range] at hrange
  rw [hsplit.length_eq]
  exact hrange.trans (h.length_le hseq)

end FlowManager

namespace Training

/-- The manager that some packets and a sweep leave, if it is new but for the memory that is left:
the first `n` allocations were made before. -/
def Alone (S : Setup R) (n : Nat) (packets : List IPv4Packet) (m : FlowManager R) : Prop :=
  ∃ order, (FlowManager.addPackets (S.skip n) packets).WalksTable order ∧
    (FlowManager.addPackets (S.skip n) packets).finished order = some m

/-- The capture that the program gets for a training file. -/
def Machine.captureOf (machine : Machine R) (fs : FileSystem) (file : ListedFile) :
    Option Capture :=
  (fs file.filename).bind machine.capture

/-- The training files that could be read, with the flows that are reported for each alone. -/
inductive Heard (S : Setup R) (machine : Machine R) (fs : FileSystem) :
    Nat → List ListedFile → List (ListedFile × List (Flow R)) → Prop where
  | nil {n : Nat} : Heard S machine fs n [] []
  | skipped {n : Nat} {file : ListedFile} {files : List ListedFile}
      {reports : List (ListedFile × List (Flow R))} : machine.captureOf fs file = none →
      Heard S machine fs n files reports → Heard S machine fs n (file :: files) reports
  | read {n : Nat} {file : ListedFile} {files : List ListedFile}
      {reports : List (ListedFile × List (Flow R))} {capture : Capture} {m : FlowManager R} :
      machine.captureOf fs file = some capture → Alone S n capture.handed m →
      Heard S machine fs (n + m.heap.length) files reports →
      Heard S machine fs n (file :: files) ((file, m.reported) :: reports)

/-- The observer learns from the flows that are reported for a file. -/
def learnFrom (S : Setup R) (u : ProtocolModelUpdater R) (report : ListedFile × List (Flow R)) :
    ProtocolModelUpdater R :=
  report.2.foldl (ProtocolModelUpdater.flowFinished S)
    { u with currentFile := report.1.toTrainingFile }

namespace Run

variable {run : Run R} {m m' : FlowManager R}

/-! ## One capture -/

theorem foldl_observe (u : ProtocolModelUpdater R) (events : List (Event R)) :
    events.foldl (observe S) u =
      (events.filterMap fun e => e.note.finishedFlow).foldl
        (ProtocolModelUpdater.flowFinished S) u := by
  induction events generalizing u with
  | nil => rfl
  | cons e events ih =>
    rw [List.foldl_cons, ih, List.filterMap_cons]
    unfold observe
    cases e.note <;> rfl

theorem hear_self (S : Setup R) (run : Run R) : run.hear S run.manager = run := by
  unfold hear
  rw [List.drop_length]
  rfl

theorem hear_hear (h : run.manager.events <+: m.events) (h' : m.events <+: m'.events) :
    (run.hear S m).hear S m' = run.hear S m' := by
  obtain ⟨new, hnew⟩ := h
  obtain ⟨newer, hnewer⟩ := h'
  unfold hear
  dsimp only
  rw [← hnewer, ← hnew, List.drop_left, List.drop_left, List.append_assoc, List.drop_left,
    List.foldl_append]

/-- Training changes no limit. -/
theorem flowFinished_cutoffLimit (S : Setup R) (u : ProtocolModelUpdater R) (flow : Flow R) :
    (u.flowFinished S flow).database.cutoffLimit = u.database.cutoffLimit := by
  rw [ProtocolModelUpdater.flowFinished_database]

theorem hear_cutoffLimit (S : Setup R) (run : Run R) (m : FlowManager R) :
    (run.hear S m).updater.database.cutoffLimit = run.updater.database.cutoffLimit := by
  unfold hear
  rw [foldl_observe]
  generalize (m.events.drop run.manager.events.length).filterMap _ = flows
  generalize run.updater = u
  induction flows generalizing u with
  | nil => rfl
  | cons flow flows ih =>
    rw [List.foldl_cons, ih, flowFinished_cutoffLimit]

/-- The observer may as well listen at the end. -/
theorem foldl_addPacket (hlearning : S.config.learningMode = true)
    (hcutoff : run.updater.database.cutoffLimit = S.database.cutoffLimit)
    (packets : List IPv4Packet) :
    packets.foldl (addPacket S) run =
      run.hear S (packets.foldl (fun m p => m.addPacket S p) run.manager) := by
  induction packets using List.reverseRecOn with
  | nil => exact (hear_self S run).symm
  | append_singleton packets p ih =>
    have hlimit := (hear_cutoffLimit S run (packets.foldl (fun m p => m.addPacket S p)
      run.manager)).trans hcutoff
    rw [List.foldl_append, List.foldl_append, ih, List.foldl_cons, List.foldl_cons, List.foldl_nil,
      List.foldl_nil, addPacket, FlowManager.addPacket_withDatabase hlearning hlimit]
    exact hear_hear (FlowManager.events_foldl S packets _) (FlowManager.events_addPacket S _ p)

theorem finished_hear (h : run.manager.events <+: m.events) (walk : FlowManager R → List UInt32) :
    (run.hear S m).finished S walk = (m.finished (walk m)).map (run.hear S) := by
  unfold finished
  have hmanager : (run.hear S m).manager = m := rfl
  rw [hmanager]
  cases hfinished : m.finished (walk m) with
  | none => rfl
  | some m' => exact congrArg some (hear_hear h (FlowManager.events_finished hfinished))

/-- A run between two training files. -/
structure Ready (S : Setup R) (run : Run R) : Prop where
  sequential : ∃ packets, FlowManager.Sequential S packets run.manager
  running : run.manager.shutdown = false
  rests : run.manager.after FlowManager.init = run.manager
  cutoffLimit : run.updater.database.cutoffLimit = S.database.cutoffLimit

theorem ready_start (database : ProtocolModelFile R)
    (hcutoff : database.cutoffLimit = S.database.cutoffLimit) : Ready S (start database) where
  sequential := ⟨[], .init⟩
  running := rfl
  rests := FlowManager.after_init (fun _ => rfl) rfl rfl
  cutoffLimit := hcutoff

/-- The order in which a table is walked is one of that table. -/
def Walks (S : Setup R) (walk : FlowManager R → List UInt32) : Prop :=
  ∀ m, FlowManager.Indexed S m → m.WalksTable (walk m)

/-- What is heard of a manager behind others. -/
theorem hear_after (S : Setup R) (run : Run R) (m : FlowManager R) :
    run.hear S (run.manager.after m) =
      { manager := run.manager.after m
        updater := m.reported.foldl (ProtocolModelUpdater.flowFinished S) run.updater } := by
  have hnew : (run.manager.after m).events.drop run.manager.events.length =
      m.events.map (Event.skip run.manager.heap.length) := by
    unfold FlowManager.after
    exact List.drop_left
  unfold hear
  rw [hnew, foldl_observe, List.filterMap_map]
  rfl

/-- **A capture is reported on as if it were the only one.** -/
theorem processFile_read (hlearning : S.config.learningMode = true)
    (hseq : S.config.workerThreadsPerQueue = 0) {machine : Machine R} {fs : FileSystem}
    (hwalk : Walks S machine.walk) (hready : run.Ready S) {file : ListedFile} {capture : Capture}
    (hcapture : machine.captureOf fs file = some capture) :
    ∃ m, Alone S run.manager.heap.length capture.handed m ∧
      run.processFile S machine fs file = some
        { manager := run.manager.after m
          updater := learnFrom S run.updater (file, m.reported) } ∧
      (run.manager.after m).shutdown = false ∧
      (run.manager.after m).after FlowManager.init = run.manager.after m ∧
      ∃ packets, FlowManager.Sequential S packets (run.manager.after m) := by
  obtain ⟨contents, hcontents, hopen⟩ := Option.bind_eq_some_iff.mp hcapture
  obtain ⟨before, hrun⟩ := hready.sequential
  have hbehind : capture.handed.foldl (fun m p => m.addPacket S p) run.manager =
      run.manager.after
        (FlowManager.addPackets (S.skip run.manager.heap.length) capture.handed) := by
    have hinit := FlowManager.foldl_addPacket_after S run.manager capture.handed FlowManager.init
    rwa [hready.rests] at hinit
  have hquiet := (hrun.quiet hready.running).foldl capture.handed
  have hall := hrun.foldl capture.handed
  rw [hbehind] at hquiet hall
  have horder := hwalk _ hquiet.toIndexed
  obtain ⟨m', hfinished, hsequential, hrunning, hrests⟩ :=
    hall.finished_rests hseq hquiet.running horder
  have hfresh := hfinished
  rw [FlowManager.finished_after] at hfresh
  obtain ⟨m, hm, rfl⟩ := Option.map_eq_some_iff.mp hfresh
  refine ⟨m, ⟨_, FlowManager.walksTable_after.mp horder, hm⟩, ?_, hrunning, hrests, _, hsequential⟩
  have hmanager : (run.setCurrentFile file.toTrainingFile).manager = run.manager := rfl
  have hcutoff : (run.setCurrentFile file.toTrainingFile).updater.database.cutoffLimit =
      S.database.cutoffLimit := hready.cutoffLimit
  unfold processFile
  rw [hcontents]
  simp only [hopen]
  rw [foldl_addPacket hlearning hcutoff, hmanager, hbehind, finished_hear, hfinished,
    Option.map_some]
  · exact congrArg some (hear_after S (run.setCurrentFile file.toTrainingFile) m)
  · exact List.prefix_append _ _

/-! ## All captures -/

/-- Two observers that know the same, whatever file they are at. -/
structure SameKnowledge (u u' : ProtocolModelUpdater R) : Prop where
  database : u.database = u'.database
  updated : u.updated = u'.updated

theorem learnFrom_congr {u u' : ProtocolModelUpdater R} (h : SameKnowledge u u')
    (report : ListedFile × List (Flow R)) : learnFrom S u report = learnFrom S u' report := by
  unfold learnFrom
  rw [h.database, h.updated]

theorem foldl_learnFrom_congr {u u' : ProtocolModelUpdater R} (h : SameKnowledge u u')
    (reports : List (ListedFile × List (Flow R))) :
    SameKnowledge (reports.foldl (learnFrom S) u) (reports.foldl (learnFrom S) u') := by
  cases reports with
  | nil => exact h
  | cons report reports =>
    rw [List.foldl_cons, List.foldl_cons, learnFrom_congr h]
    exact ⟨rfl, rfl⟩

theorem learnFrom_cutoffLimit (S : Setup R) (u : ProtocolModelUpdater R)
    (report : ListedFile × List (Flow R)) :
    (learnFrom S u report).database.cutoffLimit = u.database.cutoffLimit := by
  have hall : ∀ (flows : List (Flow R)) (u : ProtocolModelUpdater R),
      (flows.foldl (ProtocolModelUpdater.flowFinished S) u).database.cutoffLimit =
        u.database.cutoffLimit := by
    intro flows u
    rw [ProtocolModelUpdater.flowsFinished_database]
  exact hall report.2 _

/-- A file that cannot be read changes nothing. -/
theorem processFile_skipped {machine : Machine R} {fs : FileSystem} {file : ListedFile}
    (hcapture : machine.captureOf fs file = none) (run : Run R) :
    ∃ run', run.processFile S machine fs file = some run' ∧ run'.manager = run.manager ∧
      SameKnowledge run'.updater run.updater := by
  unfold processFile
  cases hcontents : fs file.filename with
  | none => exact ⟨run, rfl, rfl, rfl, rfl⟩
  | some contents =>
    have hopen : machine.capture contents = none := by
      rw [Machine.captureOf, hcontents] at hcapture
      exact hcapture
    simp only [hopen]
    exact ⟨_, rfl, rfl, rfl, rfl⟩

omit [Double R] in
/-- The tables of the managers are walked in the order in which their flows were created. -/
theorem walks_tableKeys (S : Setup R) : Walks S FlowManager.tableKeys := fun _ hm =>
  FlowManager.walksTable_tableKeys hm

/-- **The loop learns from each capture alone.** -/
theorem processFiles_learns (hlearning : S.config.learningMode = true)
    (hseq : S.config.workerThreadsPerQueue = 0) {machine : Machine R} (fs : FileSystem)
    (hwalk : Walks S machine.walk) (files : List ListedFile) (hready : run.Ready S) :
    ∃ final reports, run.processFiles S machine fs files = some final ∧
      Heard S machine fs run.manager.heap.length files reports ∧
      SameKnowledge final.updater (reports.foldl (learnFrom S) run.updater) := by
  unfold processFiles
  induction files generalizing run with
  | nil => exact ⟨run, [], rfl, .nil, rfl, rfl⟩
  | cons file files ih =>
    rw [List.foldlM_cons]
    cases hcapture : machine.captureOf fs file with
    | none =>
      obtain ⟨run', hrun', hmanager, hsame⟩ := processFile_skipped (S := S) hcapture run
      have hready' : run'.Ready S :=
        { sequential := hmanager ▸ hready.sequential
          running := hmanager ▸ hready.running
          rests := by rw [hmanager, hready.rests]
          cutoffLimit := by rw [hsame.database, hready.cutoffLimit] }
      obtain ⟨final, reports, hfinal, hheard, hknows⟩ := ih hready'
      rw [hmanager] at hheard
      refine ⟨final, reports, ?_, .skipped hcapture hheard, ?_⟩
      · rw [hrun']
        exact hfinal
      · have hcongr := foldl_learnFrom_congr (S := S) hsame reports
        exact ⟨hknows.database.trans hcongr.database, hknows.updated.trans hcongr.updated⟩
    | some capture =>
      obtain ⟨m, halone, hrun', hrunning, hrests, hsequential⟩ :=
        processFile_read hlearning hseq hwalk hready hcapture
      rw [hrun']
      have hready' : Ready S
          { manager := run.manager.after m
            updater := learnFrom S run.updater (file, m.reported) } :=
        { sequential := hsequential
          running := hrunning
          rests := hrests
          cutoffLimit := (learnFrom_cutoffLimit S _ _).trans hready.cutoffLimit }
      obtain ⟨final, reports, hfinal, hheard, hknows⟩ := ih hready'
      refine ⟨final, (file, m.reported) :: reports, hfinal, .read hcapture halone ?_, hknows⟩
      have hlength : (run.manager.after m).heap.length =
          run.manager.heap.length + m.heap.length := List.length_append
      rwa [hlength] at hheard

end Run

end Training

end Vsid
