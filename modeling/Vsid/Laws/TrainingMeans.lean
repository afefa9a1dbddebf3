import Vsid.Laws.TrainingRuns

/-!
# The means of a training run

In real arithmetic, what the database has learned at the end of a run is one mean over the labelled
flows of all captures (`processFiles_averaged`). The order of the captures makes no difference to it
(`processFiles_perm`) but through what the allocator hands out.
-/

set_option autoImplicit false

namespace Vsid

variable {R : Type} [Double R] {S : Setup R}

/-! ## The mean -/

/-- Training in two parts is training at once. -/
theorem AttributeMeter.averaged_averaged {am : AttributeMeter ℝ}
    {others more : List (AttributeMeter ℝ)} (hdb : am.fromDb = true)
    (hkinds : ∀ other ∈ others, other.kind = am.kind) (hmore : ∀ other ∈ more, other.kind = am.kind)
    (hcount : am.flowCount.toNat + others.length + more.length < 2 ^ 32) :
    (am.averaged others).averaged more = am.averaged (others ++ more) := by
  have hfirst : am.flowCount.toNat + others.length < 2 ^ 32 :=
    Nat.lt_of_le_of_lt (Nat.le_add_right _ _) hcount
  have hboth : am.flowCount.toNat + (others ++ more).length < 2 ^ 32 := by
    rwa [List.length_append, ← Nat.add_assoc]
  have hall : ∀ other ∈ others ++ more, other.kind = am.kind := by
    intro other hother
    rcases List.mem_append.mp hother with h | h
    · exact hkinds other h
    · exact hmore other h
  rw [← foldl_merge hdb hall hboth, List.foldl_append]
  have hmerged := foldl_merge_eq hdb hkinds hfirst
  have hfromDb : (others.foldl merge am).fromDb = true := by rw [hmerged, hdb]
  have hkind : (others.foldl merge am).kind = am.kind := by rw [hmerged]
  have hflows : (others.foldl merge am).flowCount.toNat = am.flowCount.toNat + others.length := by
    rw [hmerged]
    exact Nat.mod_eq_of_lt hfirst
  rw [← foldl_merge hdb hkinds hfirst, foldl_merge hfromDb (fun other h => ?_) (by rwa [hflows])]
  rw [hkind]
  exact hmore other h

theorem AttributeMeter.averaged_flowCount_le (am : AttributeMeter ℝ)
    (others : List (AttributeMeter ℝ)) :
    (am.averaged others).flowCount.toNat ≤ am.flowCount.toNat + others.length := by
  unfold averaged
  split
  · exact Nat.le_add_right _ _
  · exact Nat.mod_le _ _

theorem AttributeMeter.averaged_kind (am : AttributeMeter ℝ) (others : List (AttributeMeter ℝ)) :
    (am.averaged others).kind = am.kind ∧ (am.averaged others).fromDb = am.fromDb := by
  unfold averaged
  split <;> exact ⟨rfl, rfl⟩

namespace ProtocolModelFile

/-- The database with the means over what each model learns from. -/
noncomputable def averagedOver (file : ProtocolModelFile ℝ) (learned : Nat → List (Flow ℝ)) :
    ProtocolModelFile ℝ :=
  { file with
    protocolModelOrder := file.protocolModelOrder.mapIdx fun i pm =>
      { pm with
        flowCount := UInt32.ofNat (pm.flowCount.toNat + (learned i).length)
        attributeMeters := pm.attributeMeters.map fun am =>
          am.averaged (carried (learned i) am.kind) } }

/-- The database can learn from so many flows. -/
structure Trainable (file : ProtocolModelFile ℝ) (flows : Nat) : Prop where
  distinct : ∀ pm ∈ file.protocolModelOrder, (pm.attributeMeters.map AttributeMeter.kind).Nodup
  stored : ∀ pm ∈ file.protocolModelOrder, ∀ am ∈ pm.attributeMeters, am.fromDb = true
  counts : ∀ pm ∈ file.protocolModelOrder, ∀ am ∈ pm.attributeMeters,
    am.flowCount.toNat + flows < 2 ^ 32

variable {file : ProtocolModelFile ℝ} {learned more : Nat → List (Flow ℝ)} {k l : Nat}

theorem mem_averagedOver {pm : ProtocolModel ℝ}
    (h : pm ∈ (file.averagedOver learned).protocolModelOrder) :
    ∃ (i : Nat) (pm₀ : ProtocolModel ℝ), file.protocolModelOrder[i]? = some pm₀ ∧
      pm.attributeMeters = pm₀.attributeMeters.map fun am =>
        am.averaged (carried (learned i) am.kind) := by
  obtain ⟨i, hi, rfl⟩ := List.mem_mapIdx.mp h
  exact ⟨i, _, List.getElem?_eq_getElem hi, rfl⟩

theorem Trainable.averagedOver (h : file.Trainable (k + l))
    (hlearned : ∀ i, (learned i).length ≤ k) :
    (file.averagedOver learned).Trainable l where
  distinct pm hpm := by
    obtain ⟨i, pm₀, hpm₀, hmeters⟩ := mem_averagedOver hpm
    have hkinds : pm.attributeMeters.map AttributeMeter.kind =
        pm₀.attributeMeters.map AttributeMeter.kind := by
      rw [hmeters, List.map_map]
      exact List.map_congr_left fun am _ => (am.averaged_kind _).1
    rw [hkinds]
    exact h.distinct pm₀ (List.mem_of_getElem? hpm₀)
  stored pm hpm am ham := by
    obtain ⟨i, pm₀, hpm₀, hmeters⟩ := mem_averagedOver hpm
    obtain ⟨am₀, ham₀, rfl⟩ := List.mem_map.mp (hmeters ▸ ham)
    exact (am₀.averaged_kind _).2.trans (h.stored pm₀ (List.mem_of_getElem? hpm₀) am₀ ham₀)
  counts pm hpm am ham := by
    obtain ⟨i, pm₀, hpm₀, hmeters⟩ := mem_averagedOver hpm
    obtain ⟨am₀, ham₀, rfl⟩ := List.mem_map.mp (hmeters ▸ ham)
    have hcount := h.counts pm₀ (List.mem_of_getElem? hpm₀) am₀ ham₀
    have hle := am₀.averaged_flowCount_le (carried (learned i) am₀.kind)
    have hcarried : (carried (learned i) am₀.kind).length ≤ (learned i).length :=
      List.length_filterMap_le _ _
    have hk := hlearned i
    omega

theorem averagedOver_averagedOver (h : file.Trainable (k + l))
    (hlearned : ∀ i, (learned i).length ≤ k) (hmore : ∀ i, (more i).length ≤ l) :
    (file.averagedOver learned).averagedOver more =
      file.averagedOver fun i => learned i ++ more i := by
  unfold ProtocolModelFile.averagedOver
  refine congrArg (fun models => { file with protocolModelOrder := models }) ?_
  rw [List.mapIdx_mapIdx]
  refine List.mapIdx_eq_mapIdx_iff.mpr fun i hi => ?_
  have hpm : file.protocolModelOrder[i] ∈ file.protocolModelOrder := List.getElem_mem hi
  generalize file.protocolModelOrder[i] = pm at hpm
  have hflowCount : UInt32.ofNat ((UInt32.ofNat (pm.flowCount.toNat + (learned i).length)).toNat +
      (more i).length) = UInt32.ofNat (pm.flowCount.toNat + (learned i ++ more i).length) := by
    rw [UInt32.ofNat_add, UInt32.ofNat_toNat, ← UInt32.ofNat_add, List.length_append,
      Nat.add_assoc]
  have hmeters : (pm.attributeMeters.map fun am =>
      am.averaged (carried (learned i) am.kind)).map (fun am =>
        am.averaged (carried (more i) am.kind)) =
      pm.attributeMeters.map fun am => am.averaged (carried (learned i ++ more i) am.kind) := by
    rw [List.map_map]
    refine List.map_congr_left fun am ham => ?_
    rw [Function.comp_apply, (am.averaged_kind _).1]
    have hjoin : carried (learned i ++ more i) am.kind =
        carried (learned i) am.kind ++ carried (more i) am.kind := List.filterMap_append
    rw [hjoin]
    refine AttributeMeter.averaged_averaged (h.stored pm hpm am ham) kind_of_mem_carried
      kind_of_mem_carried ?_
    have hcount := h.counts pm hpm am ham
    have hfirst : (carried (learned i) am.kind).length ≤ (learned i).length :=
      List.length_filterMap_le _ _
    have hsecond : (carried (more i) am.kind).length ≤ (more i).length :=
      List.length_filterMap_le _ _
    have hk := hlearned i
    have hl := hmore i
    omega
  simp only [Function.comp_apply, hflowCount, hmeters]

end ProtocolModelFile

namespace Training

open ProtocolModelFile

/-- The flows of all reports that a model learns from. -/
def learnedFrom {R : Type} (S : Setup R) (database : ProtocolModelFile R)
    (reports : List (ListedFile × List (Flow R))) (i : Nat) : List (Flow R) :=
  reports.flatMap fun report =>
    ProtocolModelUpdater.learnedBy S
      { currentFile := report.1.toTrainingFile, database := database, updated := false } i report.2

/-- How many flows were reported. -/
def reportedCount {R : Type} (reports : List (ListedFile × List (Flow R))) : Nat :=
  (reports.map fun report => report.2.length).sum

/-- How many packets the captures have. -/
def packetCount {R : Type} (machine : Machine R) (fs : FileSystem) (files : List ListedFile) :
    Nat :=
  (files.map fun file => ((machine.captureOf fs file).elim [] Capture.handed).length).sum

section Counts

variable {machine : Machine R} {fs : FileSystem} {n : Nat} {files : List ListedFile}
  {reports : List (ListedFile × List (Flow R))}

theorem Alone.sequential {packets : List IPv4Packet} {m : FlowManager R}
    (h : Alone S n packets m) : FlowManager.Sequential (S.skip n) packets m := by
  obtain ⟨order, -, hfinished⟩ := h
  exact .finished (FlowManager.sequential_addPackets _ packets) hfinished

/-- Each flow that is reported took a packet of its capture. -/
theorem Heard.reportedCount_le (hseq : S.config.workerThreadsPerQueue = 0)
    (h : Heard S machine fs n files reports) :
    reportedCount reports ≤ packetCount machine fs files := by
  unfold reportedCount packetCount
  induction h with
  | nil => exact Nat.le_refl _
  | skipped hcapture _ ih =>
    rw [List.map_cons, List.sum_cons, hcapture]
    exact ih.trans (Nat.le_add_left _ _)
  | read hcapture halone _ ih =>
    rw [List.map_cons, List.map_cons, List.sum_cons, List.sum_cons, hcapture]
    refine Nat.add_le_add ?_ ih
    exact FlowManager.Sequential.reported_le (S := S.skip _) hseq halone.sequential

theorem Heard.metered (hseq : S.config.workerThreadsPerQueue = 0)
    (h : Heard S machine fs n files reports) :
    ∀ report ∈ reports, ∀ flow ∈ report.2, flow.Metered S := by
  induction h with
  | nil => exact fun report hreport => absurd hreport List.not_mem_nil
  | skipped _ _ ih => exact ih
  | read _ halone _ ih =>
    refine List.forall_mem_cons.mpr ⟨fun flow hflow => ?_, ih⟩
    exact FlowManager.Sequential.metered (S := S.skip _) hseq halone.sequential flow hflow

omit [Double R] in
theorem learnedBy_length_le (S : Setup R) (u : ProtocolModelUpdater R) (i : Nat)
    (flows : List (Flow R)) : (u.learnedBy S i flows).length ≤ flows.length :=
  List.length_filter_le _ _

omit [Double R] in
theorem learnedFrom_length_le (S : Setup R) (database : ProtocolModelFile R)
    (reports : List (ListedFile × List (Flow R))) (i : Nat) :
    (learnedFrom S database reports i).length ≤ reportedCount reports := by
  unfold learnedFrom reportedCount
  induction reports with
  | nil => exact Nat.le_refl _
  | cons report reports ih =>
    rw [List.flatMap_cons, List.length_append, List.map_cons, List.sum_cons]
    exact Nat.add_le_add (learnedBy_length_le S _ i report.2) ih

omit [Double R] in
/-- Which model a flow belongs to is a matter of the names. -/
theorem learnedFrom_congr {database database' : ProtocolModelFile R}
    (hnames : database'.protocolModelOrder.map ProtocolModel.name =
      database.protocolModelOrder.map ProtocolModel.name) :
    learnedFrom S database' reports = learnedFrom S database reports := by
  unfold learnedFrom ProtocolModelUpdater.learnedBy
  funext i
  refine List.flatMap_congr fun report _ => List.filter_congr fun flow _ => ?_
  rw [@ProtocolModelUpdater.target_congr R S ⟨report.1.toTrainingFile, database, false⟩
    ⟨report.1.toTrainingFile, database', false⟩ rfl hnames flow]

end Counts

section Mean

variable {S : Setup ℝ} {u : ProtocolModelUpdater ℝ}

/-- One report. -/
theorem learnFrom_averaged {report : ListedFile × List (Flow ℝ)}
    (htrainable : u.database.Trainable report.2.length)
    (hmetered : ∀ flow ∈ report.2, flow.Metered S) :
    (learnFrom S u report).database =
      u.database.averagedOver (learnedFrom S u.database [report]) := by
  have hone : ∀ i, learnedFrom S u.database [report] i =
      ProtocolModelUpdater.learnedBy S { u with currentFile := report.1.toTrainingFile } i
        report.2 := by
    intro i
    unfold learnedFrom
    rw [List.flatMap_cons, List.flatMap_nil, List.append_nil]
    rfl
  unfold learnFrom
  rw [funext hone]
  refine ProtocolModelUpdater.flowsFinished_averaged
    (u := { u with currentFile := report.1.toTrainingFile }) htrainable.distinct htrainable.stored
    hmetered fun i pm hpm am ham => ?_
  refine Nat.lt_of_le_of_lt (Nat.add_le_add_left (learnedBy_length_le S _ i report.2) _) ?_
  exact htrainable.counts pm (List.mem_of_getElem? hpm) am ham

/-- **Many reports make one mean.** -/
theorem foldl_learnFrom_averaged {reports : List (ListedFile × List (Flow ℝ))}
    (htrainable : u.database.Trainable (reportedCount reports))
    (hmetered : ∀ report ∈ reports, ∀ flow ∈ report.2, flow.Metered S) :
    (reports.foldl (learnFrom S) u).database =
      u.database.averagedOver (learnedFrom S u.database reports) := by
  induction reports generalizing u with
  | nil =>
    exact @learnFrom_averaged S u (⟨⟨[]⟩, ""⟩, []) htrainable fun flow hflow =>
      absurd hflow List.not_mem_nil
  | cons report reports ih =>
    obtain ⟨hreport, hmetered⟩ := List.forall_mem_cons.mp hmetered
    have hfirst : u.database.Trainable report.2.length :=
      { htrainable with
        counts := fun pm hpm am ham => Nat.lt_of_le_of_lt
          (Nat.add_le_add_left (Nat.le_add_right _ _) _) (htrainable.counts pm hpm am ham) }
    have hmean := learnFrom_averaged hfirst hreport
    have hlength : ∀ i, (learnedFrom S u.database [report] i).length ≤ report.2.length :=
      fun i => learnedFrom_length_le S u.database [report] i
    have hboth : u.database.Trainable (report.2.length + reportedCount reports) := htrainable
    have hnames : (learnFrom S u report).database.protocolModelOrder.map ProtocolModel.name =
        u.database.protocolModelOrder.map ProtocolModel.name := by
      rw [hmean]
      unfold averagedOver
      refine List.ext_getElem? fun j => ?_
      rw [List.getElem?_map, List.getElem?_map, List.getElem?_mapIdx, Option.map_map]
      rfl
    have hjoin : (fun i => learnedFrom S u.database [report] i ++
        learnedFrom S u.database reports i) = learnedFrom S u.database (report :: reports) := by
      funext i
      unfold learnedFrom
      rw [List.flatMap_cons, List.flatMap_cons, List.flatMap_nil, List.append_nil]
    rw [List.foldl_cons, ih (hmean ▸ hboth.averagedOver hlength) hmetered,
      learnedFrom_congr hnames, hmean,
      averagedOver_averagedOver hboth hlength (learnedFrom_length_le S u.database reports), hjoin]

/-- What the observer knows when it has heard of every capture. -/
theorem Heard.averaged (hseq : S.config.workerThreadsPerQueue = 0) {machine : Machine ℝ}
    {fs : FileSystem} {n : Nat} {files : List ListedFile}
    {reports : List (ListedFile × List (Flow ℝ))}
    (h : Heard S machine fs n files reports) {database : ProtocolModelFile ℝ}
    (htrainable : database.Trainable (packetCount machine fs files)) :
    (reports.foldl (learnFrom S) (Run.start database).updater).database =
      database.averagedOver (learnedFrom S database reports) := by
  have hcounted : database.Trainable (reportedCount reports) :=
    { htrainable with
      counts := fun pm hpm am ham => Nat.lt_of_le_of_lt
        (Nat.add_le_add_left (h.reportedCount_le hseq) _) (htrainable.counts pm hpm am ham) }
  exact foldl_learnFrom_averaged (u := (Run.start database).updater) hcounted (h.metered hseq)

/-- **A training run computes one mean for each share of each model.** The program reads any list of
captures with the manager in non-threaded mode; tables are walked in any order of theirs. It does
not hang. Every capture that can be read is reported on as by a manager that is new but for its
memory, whatever the captures before it, and the database is the one with the means over the flows
of all these reports that are labelled in their files. -/
theorem processFiles_averaged (hlearning : S.config.learningMode = true)
    (hseq : S.config.workerThreadsPerQueue = 0) {machine : Machine ℝ} (fs : FileSystem)
    (hwalk : Run.Walks S machine.walk) {database : ProtocolModelFile ℝ}
    (hdatabase : S.database = database.toProtocolModelDb) (files : List ListedFile)
    (htrainable : database.Trainable (packetCount machine fs files)) :
    ∃ final reports, (Run.start database).processFiles S machine fs files = some final ∧
      Heard S machine fs 0 files reports ∧
      final.updater.database = database.averagedOver (learnedFrom S database reports) := by
  obtain ⟨final, reports, hfinal, hheard, hknows⟩ := Run.processFiles_learns hlearning hseq fs
    hwalk files (Run.ready_start database (by rw [hdatabase]))
  exact ⟨final, reports, hfinal, hheard, hknows.database.trans (hheard.averaged hseq htrainable)⟩

end Mean

/-! ## The order of the captures -/

section Order

variable {S : Setup R} {machine : Machine R} {fs : FileSystem}

/-- The allocator hands out the same bytes every time. -/
def Steady (S : Setup R) : Prop := ∀ n, S.staleBytes n = S.staleBytes 0

omit [Double R] in
theorem Steady.skip (h : Steady S) (n : Nat) : S.skip n = S := by
  unfold Setup.skip Setup.withStaleBytes
  have hbytes : (fun i => S.staleBytes (n + i)) = S.staleBytes :=
    funext fun i => (h (n + i)).trans (h i).symm
  rw [hbytes]

theorem Alone.steady (hsteady : Steady S) {n k : Nat} {packets : List IPv4Packet}
    {m : FlowManager R} (h : Alone S n packets m) : Alone S k packets m := by
  unfold Alone at h ⊢
  rw [hsteady.skip] at h ⊢
  exact h

/-- What is reported for a capture is so but for the order. -/
theorem Alone.reported_perm (hsteady : Steady S) {n k : Nat} {packets : List IPv4Packet}
    {m m' : FlowManager R} (h : Alone S n packets m) (h' : Alone S k packets m') :
    m.reported.Perm m'.reported := by
  obtain ⟨order, hwalk, hfinished⟩ := h.steady (k := 0) hsteady
  obtain ⟨order', hwalk', hfinished'⟩ := h'.steady (k := 0) hsteady
  exact FlowManager.reported_perm (FlowManager.sequential_addPackets _ packets).sound.1 hwalk
    hwalk' hfinished hfinished'

theorem Heard.steady (hsteady : Steady S) {n k : Nat} {files : List ListedFile}
    {reports : List (ListedFile × List (Flow R))} (h : Heard S machine fs n files reports) :
    Heard S machine fs k files reports := by
  induction h generalizing k with
  | nil => exact .nil
  | skipped hcapture _ ih => exact .skipped hcapture ih
  | read hcapture halone _ ih => exact .read hcapture (halone.steady hsteady) ih

/-- A machine that opens the same captures. -/
theorem Heard.of_captures {machine' : Machine R}
    (hcaptures : machine'.captureOf fs = machine.captureOf fs) {n : Nat} {files : List ListedFile}
    {reports : List (ListedFile × List (Flow R))} (h : Heard S machine' fs n files reports) :
    Heard S machine fs n files reports := by
  induction h with
  | nil => exact .nil
  | skipped hnone _ ih =>
    rw [hcaptures] at hnone
    exact .skipped hnone ih
  | read hsome halone _ ih =>
    rw [hcaptures] at hsome
    exact .read hsome halone ih

/-- Other files in front. -/
theorem Heard.perm (hsteady : Steady S) {files files' : List ListedFile}
    (hperm : files.Perm files') {reports : List (ListedFile × List (Flow R))}
    (h : Heard S machine fs 0 files reports) :
    ∃ reports', Heard S machine fs 0 files' reports' ∧ reports.Perm reports' := by
  induction hperm generalizing reports with
  | nil => exact ⟨reports, h, List.Perm.refl _⟩
  | cons file _ ih =>
    cases h with
    | skipped hcapture hrest =>
      obtain ⟨reports', hrest', hreports⟩ := ih hrest
      exact ⟨reports', .skipped hcapture hrest', hreports⟩
    | read hcapture halone hrest =>
      obtain ⟨reports', hrest', hreports⟩ := ih (hrest.steady hsteady)
      exact ⟨_, .read hcapture halone (hrest'.steady hsteady), hreports.cons _⟩
  | swap file file' files =>
    have hswap : ∀ {reports : List (ListedFile × List (Flow R))},
        Heard S machine fs 0 (file' :: file :: files) reports →
          ∃ reports', Heard S machine fs 0 (file :: file' :: files) reports' ∧
            reports.Perm reports' := by
      intro reports h
      cases h with
      | skipped hcapture' h =>
        cases h with
        | skipped hcapture h =>
          exact ⟨_, .skipped hcapture (.skipped hcapture' h), List.Perm.refl _⟩
        | read hcapture halone h =>
          exact ⟨_, .read hcapture halone (.skipped hcapture' h), List.Perm.refl _⟩
      | read hcapture' halone' h =>
        cases h with
        | skipped hcapture h =>
          exact ⟨_, .skipped hcapture (.read hcapture' halone' h), List.Perm.refl _⟩
        | read hcapture halone h =>
          exact ⟨_, .read hcapture (halone.steady hsteady)
            (.read hcapture' (halone'.steady hsteady) (h.steady hsteady)), List.Perm.swap _ _ _⟩
    exact hswap h
  | trans _ _ ih ih' =>
    obtain ⟨reports', h', hfirst⟩ := ih h
    obtain ⟨reports'', h'', hsecond⟩ := ih' h'
    exact ⟨reports'', h'', hfirst.trans hsecond⟩

/-- Two runs hear the same of each file, but for the order. -/
theorem Heard.unique (hsteady : Steady S) {n k : Nat} {files : List ListedFile}
    {reports reports' : List (ListedFile × List (Flow R))}
    (h : Heard S machine fs n files reports) (h' : Heard S machine fs k files reports') :
    List.Forall₂ (fun r r' => r.1 = r'.1 ∧ r.2.Perm r'.2) reports reports' := by
  induction h generalizing k reports' with
  | nil =>
    cases h'
    exact .nil
  | skipped hcapture _ ih =>
    cases h' with
    | skipped _ h' => exact ih h'
    | read hcapture' _ _ =>
      rw [hcapture] at hcapture'
      cases hcapture'
  | read hcapture halone _ ih =>
    cases h' with
    | skipped hcapture' _ =>
      rw [hcapture] at hcapture'
      cases hcapture'
    | read hcapture' halone' h' =>
      rw [hcapture] at hcapture'
      cases hcapture'
      exact .cons ⟨rfl, halone.reported_perm hsteady halone'⟩ (ih h')

omit [Double R] in
theorem learnedFrom_perm (database : ProtocolModelFile R)
    {reports reports' : List (ListedFile × List (Flow R))}
    (h : List.Forall₂ (fun r r' => r.1 = r'.1 ∧ r.2.Perm r'.2) reports reports') (i : Nat) :
    (learnedFrom S database reports i).Perm (learnedFrom S database reports' i) := by
  unfold learnedFrom
  induction h with
  | nil => exact List.Perm.refl _
  | cons hhead _ ih =>
    rw [List.flatMap_cons, List.flatMap_cons, hhead.1]
    exact (ProtocolModelUpdater.learnedBy_perm hhead.2 i).append ih

end Order

section Mean

variable {S : Setup ℝ} {machine : Machine ℝ} {fs : FileSystem}

theorem averagedOver_perm {file : ProtocolModelFile ℝ} {learned learned' : Nat → List (Flow ℝ)}
    (h : ∀ i, (learned i).Perm (learned' i)) :
    file.averagedOver learned = file.averagedOver learned' := by
  unfold averagedOver
  refine congrArg (fun models => { file with protocolModelOrder := models })
    (congrArg (List.mapIdx · file.protocolModelOrder) (funext₂ fun i pm => ?_))
  have hcarried : ∀ am : AttributeMeter ℝ, am.averaged (carried (learned i) am.kind) =
      am.averaged (carried (learned' i) am.kind) :=
    fun am => am.averaged_perm ((h i).filterMap _)
  simp only [(h i).length_eq, hcarried]

/-- **The order of the captures makes no difference** to the database, if the allocator hands out
the same bytes every time: two runs over the same files, in whatever orders, on machines that walk
their tables differently, end with the same database. -/
theorem processFiles_perm (hlearning : S.config.learningMode = true)
    (hseq : S.config.workerThreadsPerQueue = 0) (hsteady : Steady S) {machine' : Machine ℝ}
    (hwalk : Run.Walks S machine.walk) (hwalk' : Run.Walks S machine'.walk)
    (hcapture : machine'.capture = machine.capture) {database : ProtocolModelFile ℝ}
    (hdatabase : S.database = database.toProtocolModelDb) {files files' : List ListedFile}
    (hperm : files.Perm files') (htrainable : database.Trainable (packetCount machine fs files)) :
    ∃ final final', (Run.start database).processFiles S machine fs files = some final ∧
      (Run.start database).processFiles S machine' fs files' = some final' ∧
      final'.updater.database = final.updater.database := by
  have hcaptures : machine'.captureOf fs = machine.captureOf fs := by
    unfold Machine.captureOf
    rw [hcapture]
  have hcount : packetCount machine' fs files' = packetCount machine fs files := by
    unfold packetCount
    rw [hcaptures]
    exact (hperm.symm.map _).sum_eq
  have hstart : (Run.start database).Ready S := Run.ready_start database (by rw [hdatabase])
  obtain ⟨final, reports, hfinal, hheard, hknows⟩ :=
    Run.processFiles_learns hlearning hseq fs hwalk files hstart
  obtain ⟨final', reports', hfinal', hheard', hknows'⟩ :=
    Run.processFiles_learns hlearning hseq fs hwalk' files' hstart
  have hmean := hheard.averaged hseq htrainable
  have hmean' := hheard'.averaged hseq (hcount ▸ htrainable)
  refine ⟨final, final', hfinal, hfinal', ?_⟩
  obtain ⟨reports₁, hheard₁, hreports⟩ := hheard.perm hsteady hperm
  have hsame : List.Forall₂ (fun r r' => r.1 = r'.1 ∧ r.2.Perm r'.2) reports₁ reports' :=
    hheard₁.unique hsteady (hheard'.of_captures hcaptures)
  rw [hknows.database, hknows'.database]
  refine (hmean'.trans ?_).trans hmean.symm
  refine averagedOver_perm fun i => ?_
  refine (learnedFrom_perm database hsame i).symm.trans ?_
  exact hreports.symm.flatMap_right _

end Mean

/-! ## Two captures of one datagram -/

/-- A datagram of one byte in an Ethernet frame, from port 1053 of 10.0.0.1 to port 53 of
10.0.0.2. -/
def datagramFrame : List UInt8 :=
  List.replicate 14 0 ++ [0x45, 0, 0, 29, 0, 0, 0, 0, 64, 17, 0, 0, 10, 0, 0, 1, 10, 0, 0, 2] ++
    [0x04, 0x1d, 0, 53, 0, 9, 0, 0, 1]

/-- Two of them. -/
def datagramCapture : Capture :=
  { datalink := some .en10mb
    packets := List.replicate 2
      (⟨⟨0, 0⟩, 43, 43, UInt32.le_refl _⟩, fun
        | .packet i => datagramFrame.getD i 0
        | .heap _ => 0) }

example : datagramCapture.handed.map IPv4Packet.tuple =
    List.replicate 2 ⟨0x0100000a, 1053, 0x0200000a, 53, ipprotoUdp⟩ := by
  decide +kernel

/-- A machine that opens it whatever it is asked for. -/
def datagramMachine (R : Type) : Machine R :=
  { load := fun _ => none
    emit := fun _ => ""
    capture := fun _ => some datagramCapture
    walk := FlowManager.tableKeys
    staleBytes := fun _ _ => 0
    now := 0
    os := { renames := true, opens := fun _ => none } }

/-- The database of `knowsByBytes`. -/
noncomputable def datagramDatabase : ProtocolModelFile ℝ :=
  { knowsByBytes.database with version := protocolModelVersion, modifiedTimes := [] }

noncomputable def datagramSetup : Setup ℝ :=
  setup (datagramMachine ℝ) Config.new datagramDatabase.toProtocolModelDb knowsByBytes.factory

/-- Two training files that label the connection. -/
def datagramFiles : List ListedFile :=
  ["first.pcap", "second.pcap"].map fun name =>
    { filename := name
      flows := [{ tuple := ⟨0x0100000a, 1053, 0x0200000a, 53, ipprotoUdp⟩, protocol := "DNS" }] }

theorem packetCount_datagramFiles :
    packetCount (datagramMachine ℝ) (fun _ => some "") datagramFiles = 4 := by
  decide +kernel

theorem trainable_datagramDatabase :
    datagramDatabase.Trainable
      (packetCount (datagramMachine ℝ) (fun _ => some "") datagramFiles) where
  distinct pm hpm := by
    cases List.mem_singleton.mp hpm
    exact List.nodup_singleton _
  stored pm hpm am ham := (stored_knowsByBytes pm hpm am ham).1
  counts pm hpm am ham := by
    cases List.mem_singleton.mp hpm
    cases List.mem_singleton.mp ham
    rw [packetCount_datagramFiles]
    decide

theorem datagramFiles_averaged :
    ∃ final reports, (Run.start datagramDatabase).processFiles datagramSetup (datagramMachine ℝ)
        (fun _ => some "") datagramFiles = some final ∧
      Heard datagramSetup (datagramMachine ℝ) (fun _ => some "") 0 datagramFiles reports ∧
      final.updater.database =
        datagramDatabase.averagedOver (learnedFrom datagramSetup datagramDatabase reports) :=
  processFiles_averaged rfl rfl _ (Run.walks_tableKeys datagramSetup) rfl datagramFiles
    trainable_datagramDatabase

theorem datagramFiles_perm :
    ∃ final final', (Run.start datagramDatabase).processFiles datagramSetup (datagramMachine ℝ)
        (fun _ => some "") datagramFiles = some final ∧
      (Run.start datagramDatabase).processFiles datagramSetup (datagramMachine ℝ)
        (fun _ => some "") datagramFiles.reverse = some final' ∧
      final'.updater.database = final.updater.database :=
  processFiles_perm rfl rfl (fun _ => rfl) (Run.walks_tableKeys datagramSetup)
    (Run.walks_tableKeys datagramSetup) rfl rfl (List.reverse_perm _).symm
    trainable_datagramDatabase

end Training

end Vsid
