import Vsid.Laws.TrainingMeans

/-!
# The training program as a whole

`main` ends without a new database file unless it has read its configuration, its database and a
list of captures (`Begins`), and one of the flows that are reported for the captures has taught a
model something (`teaches`). Then the database with the means is saved, once (`main_effect`).
-/

set_option autoImplicit false

namespace Vsid

variable {R : Type} [Double R] {S : Setup R}

/-! ## Whether anything was learned -/

omit [Double R] in
/-- What training leaves as it is: the name, and the classes of the meters. -/
def ProtocolModel.shape (pm : ProtocolModel R) : String × List MeterKind :=
  (pm.name, pm.attributeMeters.map AttributeMeter.kind)

theorem ProtocolModel.learn_shape (pm : ProtocolModel R) (meters : List (AttributeMeter R)) :
    (pm.learn meters).shape = pm.shape := by
  have hlearn := pm.learnAll_eq [meters]
  rw [List.foldl_cons, List.foldl_nil] at hlearn
  rw [hlearn]
  unfold shape merges
  refine congrArg (Prod.mk pm.name) (map_kind_mapIdx fun j am => ?_)
  split
  · exact foldl_merge_kind am _
  · rfl

namespace ProtocolModelUpdater

/-- The flow belongs to a model that has a meter of one of its classes. -/
def taught (S : Setup R) (u : ProtocolModelUpdater R) (flow : Flow R) : Bool :=
  ((u.target S flow).bind fun i => u.database.protocolModelOrder[i]?).any fun pm =>
    flow.attributeMeters.any fun am => (pm.find am.kind).isSome

theorem flowFinished_updated (u : ProtocolModelUpdater R) (flow : Flow R) :
    (u.flowFinished S flow).updated = (u.updated || u.taught S flow) := by
  unfold flowFinished taught target
  cases u.currentFile.flows.find? fun it => it.flowHash S == flow.hash with
  | none => exact (Bool.or_false _).symm
  | some it => rfl

theorem flowFinished_shape (u : ProtocolModelUpdater R) (flow : Flow R) :
    (u.flowFinished S flow).database.protocolModelOrder.map ProtocolModel.shape =
      u.database.protocolModelOrder.map ProtocolModel.shape := by
  rw [flowFinished_database]
  refine List.ext_getElem? fun j => ?_
  rw [List.getElem?_map, List.getElem?_map, List.getElem?_mapIdx, Option.map_map]
  refine congrFun (congrArg Option.map (funext fun pm => ?_)) _
  rw [Function.comp_apply]
  split
  · exact pm.learn_shape flow.attributeMeters
  · rfl

omit [Double R] in
theorem taught_congr {u u' : ProtocolModelUpdater R} (hfile : u'.currentFile = u.currentFile)
    (hshape : u'.database.protocolModelOrder.map ProtocolModel.shape =
      u.database.protocolModelOrder.map ProtocolModel.shape) (flow : Flow R) :
    u'.taught S flow = u.taught S flow := by
  have hnames : u'.database.protocolModelOrder.map ProtocolModel.name =
      u.database.protocolModelOrder.map ProtocolModel.name := by
    have hfst := congrArg (List.map Prod.fst) hshape
    rwa [List.map_map, List.map_map] at hfst
  unfold taught
  rw [target_congr hfile hnames]
  cases u.target S flow with
  | none => rfl
  | some i =>
    have hmodel := congrArg (fun shapes => shapes[i]?) hshape
    simp only [List.getElem?_map] at hmodel
    rw [Option.bind_some, Option.bind_some]
    cases hpm : u.database.protocolModelOrder[i]? with
    | none =>
      rw [hpm, Option.map_none, Option.map_eq_none_iff] at hmodel
      rw [hmodel]
    | some pm =>
      rw [hpm, Option.map_some, Option.map_eq_some_iff] at hmodel
      obtain ⟨pm', hpm', hsame⟩ := hmodel
      have hfind : ∀ k, pm'.find k = pm.find k :=
        ProtocolModel.find_congr (congrArg Prod.snd hsame)
      rw [hpm', Option.any_some, Option.any_some]
      simp only [hfind]

theorem foldl_flowFinished_updated (u : ProtocolModelUpdater R) (flows : List (Flow R)) :
    (flows.foldl (flowFinished S) u).updated = (u.updated || flows.any (u.taught S)) ∧
      (flows.foldl (flowFinished S) u).database.protocolModelOrder.map ProtocolModel.shape =
        u.database.protocolModelOrder.map ProtocolModel.shape := by
  induction flows generalizing u with
  | nil => exact ⟨(Bool.or_false _).symm, rfl⟩
  | cons flow flows ih =>
    obtain ⟨hupdated, hshape⟩ := ih (u.flowFinished S flow)
    have hsame := flowFinished_shape (S := S) u flow
    have htaught : (u.flowFinished S flow).taught S = u.taught S :=
      funext fun flow' => taught_congr (flowFinished_currentFile u flow) hsame flow'
    rw [List.foldl_cons, hupdated, flowFinished_updated, htaught, List.any_cons, Bool.or_assoc]
    exact ⟨rfl, hshape.trans hsame⟩

end ProtocolModelUpdater

namespace Training

/-- Some flow of the reports belongs to a model that has a meter of one of its classes. -/
def teaches (S : Setup R) (database : ProtocolModelFile R)
    (reports : List (ListedFile × List (Flow R))) : Bool :=
  reports.any fun report => report.2.any <| ProtocolModelUpdater.taught S
    { currentFile := report.1.toTrainingFile, database := database, updated := false }

theorem foldl_learnFrom_updated (u : ProtocolModelUpdater R)
    (reports : List (ListedFile × List (Flow R))) :
    (reports.foldl (learnFrom S) u).updated = (u.updated || teaches S u.database reports) := by
  unfold teaches
  induction reports generalizing u with
  | nil => exact (Bool.or_false _).symm
  | cons report reports ih =>
    obtain ⟨hupdated, hshape⟩ := ProtocolModelUpdater.foldl_flowFinished_updated (S := S)
      { u with currentFile := report.1.toTrainingFile } report.2
    have hlater : ∀ file : ListedFile,
        ProtocolModelUpdater.taught S
          { currentFile := file.toTrainingFile
            database := (learnFrom S u report).database
            updated := false } =
        ProtocolModelUpdater.taught S
          { currentFile := file.toTrainingFile, database := u.database, updated := false } :=
      fun file => funext fun flow => @ProtocolModelUpdater.taught_congr R S
        ⟨file.toTrainingFile, u.database, false⟩
        ⟨file.toTrainingFile, (learnFrom S u report).database, false⟩ rfl hshape flow
    have hfirst : (learnFrom S u report).updated = (u.updated || report.2.any
        (ProtocolModelUpdater.taught S
          { currentFile := report.1.toTrainingFile, database := u.database, updated := false })) :=
      hupdated
    rw [List.foldl_cons, ih, hfirst, List.any_cons, Bool.or_assoc]
    simp only [hlater]

/-! ## From the options to the captures -/

/-- The program has read its configuration, its database, and a list of captures. -/
structure Begins (Y : Conversions R) (machine : Machine R) (stale : FirstBytes) (options : Options)
    (fs : FileSystem) (config : Config) (database : ProtocolModelFile R)
    (factory : AttributeMeterFactory) (files : List ListedFile) : Prop where
  configured : options.config ≠ "" ∧ ∃ root, (fs options.config).bind machine.load = some root ∧
    (Config.init Y root).map (·.override options) = some config
  named : config.protocolDatabase ≠ ""
  loaded : ((fs config.protocolDatabase).bind machine.load).bind
    (ProtocolModelFile.read Y stale machine.now { enabledAttributes := fun _ => false }) =
      some (database, factory)
  read : ((fs options.training).bind machine.load).bind
    (TrainingInput.read Y database.toProtocolModelDb) = some files
  listed : files ≠ []

variable {Y : Conversions R} {machine : Machine R} {stale : FirstBytes} {options : Options}
  {fs : FileSystem}

theorem Begins.main_eq {config : Config} {database : ProtocolModelFile R}
    {factory : AttributeMeterFactory} {files : List ListedFile}
    (h : Begins Y machine stale options fs config database factory files) :
    main Y machine stale options fs =
      trainAll Y machine fs (setup machine config database.toProtocolModelDb factory) config
        database files := by
  obtain ⟨⟨hoption, root, hroot, hconfig⟩, hnamed, hdatabase, hfiles, hlisted⟩ := h
  obtain ⟨config₀, hinit, rfl⟩ := Option.map_eq_some_iff.mp hconfig
  obtain ⟨list, hlist, hread⟩ := Option.bind_eq_some_iff.mp hfiles
  unfold main mainWith
  rw [if_neg hoption, hroot]
  simp only [hinit]
  rw [if_neg hnamed, hdatabase]
  simp only [hlist, hread]
  rw [if_neg]
  rwa [List.isEmpty_iff]

/-- Without all that, nothing is touched. -/
theorem main_of_not_begins (h : ∀ config database factory files,
      ¬ Begins Y machine stale options fs config database factory files) :
    main Y machine stale options fs = (fs, .exit) ∨
      main Y machine stale options fs = (fs, .terminate) := by
  unfold main
  split
  next => exact Or.inl rfl
  next hoption =>
    cases hroot : (fs options.config).bind machine.load with
    | none => exact Or.inl rfl
    | some root =>
      dsimp only
      cases hinit : Config.init Y root with
      | none => exact Or.inr rfl
      | some config =>
        dsimp only
        unfold mainWith
        split
        next => exact Or.inl rfl
        next hnamed =>
          split
          next => exact Or.inl rfl
          next database factory hdatabase =>
            cases hlist : (fs options.training).bind machine.load with
            | none => exact Or.inl rfl
            | some list =>
              dsimp only
              cases hread : TrainingInput.read Y database.toProtocolModelDb list with
              | none => exact Or.inr rfl
              | some files =>
                dsimp only
                split
                next => exact Or.inl rfl
                next hempty =>
                  refine absurd ?_ (h (config.override options) database factory files)
                  exact
                    { configured := ⟨hoption, root, hroot, by rw [hinit]; rfl⟩
                      named := hnamed
                      loaded := hdatabase
                      read := by rw [hlist]; exact hread
                      listed := fun hnil => hempty (List.isEmpty_iff.mpr hnil) }

/-- The database under the names of its files. -/
def Config.store (config : Config) (database : ProtocolModelFile R) : ProtocolModelStore R :=
  { database with
    filename := config.protocolDatabase
    backupfile :=
      ProtocolModelStore.defaultBackup config.protocolDatabase config.protocolDatabaseBackup }

/-- The database that has learned from the reports, one after the other. -/
def learned (S : Setup R) (database : ProtocolModelFile R)
    (reports : List (ListedFile × List (Flow R))) : ProtocolModelFile R :=
  (reports.foldl (learnFrom S) (Run.start database).updater).database

theorem trainAll_eq (hlearning : S.config.learningMode = true)
    (hseq : S.config.workerThreadsPerQueue = 0) (hwalk : Run.Walks S machine.walk)
    (config : Config) {database : ProtocolModelFile R}
    (hdatabase : S.database = database.toProtocolModelDb) (files : List ListedFile) :
    ∃ reports, Heard S machine fs 0 files reports ∧
      trainAll Y machine fs S config database files =
        (if teaches S database reports then
          ((config.store (learned S database reports)).write Y machine.emit machine.now machine.os
            fs).1
        else fs, .returns) := by
  obtain ⟨final, reports, hfinal, hheard, hknows⟩ := Run.processFiles_learns hlearning hseq fs
    hwalk files (Run.ready_start database (by rw [hdatabase]))
  refine ⟨reports, hheard, ?_⟩
  have hupdated : final.updater.updated = teaches S database reports := by
    rw [hknows.updated, foldl_learnFrom_updated]
    exact Bool.false_or _
  have hlearned : final.updater.database = learned S database reports := hknows.database
  unfold trainAll
  rw [hfinal]
  dsimp only
  rw [hupdated, hlearned]
  split <;> rfl

/-- **What the training program does.** On every machine that walks the tables of the managers in
some order of theirs, with any options and files: the program does not hang. If it cannot read its
configuration, its database or a list of captures, it ends so and nothing is touched. Otherwise
every capture that can be read is reported on as by a manager of its own, and the files are as the
program found them, unless a reported flow has taught a model something. Then the database that has
learned from all the reports is saved once. -/
theorem main_effect (hwalk : ∀ S : Setup R, Run.Walks S machine.walk) :
    ((∀ config database factory files,
        ¬ Begins Y machine stale options fs config database factory files) ∧
      (main Y machine stale options fs = (fs, .exit) ∨
        main Y machine stale options fs = (fs, .terminate))) ∨
    ∃ config database factory files reports,
      Begins Y machine stale options fs config database factory files ∧
      Heard (setup machine config database.toProtocolModelDb factory) machine fs 0 files reports ∧
      main Y machine stale options fs =
        (if teaches (setup machine config database.toProtocolModelDb factory) database reports then
          ((config.store (learned (setup machine config database.toProtocolModelDb factory) database
            reports)).write Y machine.emit machine.now machine.os fs).1
        else fs, .returns) := by
  by_cases hbegins : ∃ config database factory files,
      Begins Y machine stale options fs config database factory files
  · obtain ⟨config, database, factory, files, h⟩ := hbegins
    obtain ⟨reports, hheard, heq⟩ := trainAll_eq (Y := Y)
      (S := setup machine config database.toProtocolModelDb factory) rfl rfl (hwalk _) config rfl
      files
    exact Or.inr ⟨config, database, factory, files, reports, h, hheard, h.main_eq.trans heq⟩
  · have hnot : ∀ config database factory files,
        ¬ Begins Y machine stale options fs config database factory files := by
      intro config database factory files h
      exact hbegins ⟨config, database, factory, files, h⟩
    exact Or.inl ⟨hnot, main_of_not_begins hnot⟩

/-- The scalars of a training run, as they are written in YAML. -/
def trainingScalars : Conversions ℚ :=
  { ProtocolModelFile.knownScalars with
    uint16 := ProtocolModelFile.knownCodec [(22, "22"), (53, "53"), (1053, "1053")]
    double := ProtocolModelFile.knownCodec [(0, "0"), (1 / 2, "0.5"), (1, "1")] }

/-- The documents of the run: one flow was from the second side to the first, and the flow of the
capture goes the other way. -/
def trainingDocuments : String → Option Yaml
  | "config" => some (.map [])
  | "database" => some (ProtocolModelFile.sshRoot (.sequence
      [.map
        [("AttributeName", .scalar "DirectionBytesCountMeter"), ("Enabled", .scalar "true"),
          ("FlowCount", .scalar "1"), ("FingerPrint", .sequence [.scalar "0", .scalar "1"])]]))
  | "list" => some (.sequence
      [.map
        [("file", .scalar "first.pcap"),
          ("flows", .sequence
            [.map
              [("src_ip", .scalar "10.0.0.1"), ("src_port", .scalar "1053"),
                ("dst_ip", .scalar "10.0.0.2"), ("dst_port", .scalar "53"),
                ("transport", .scalar "UDP"), ("protocol", .scalar "SSH")]])]])
  | _ => none

/-- The options of the run. -/
def trainingOptions : Options := { training := "training.yaml" }

/-- The files of the run. -/
def trainingFiles : FileSystem
  | "config.yaml" => some "config"
  | "protocol_model_db.yaml" => some "database"
  | "training.yaml" => some "list"
  | "first.pcap" => some ""
  | _ => none

/-- What is shown of a meter: the number of its flows, and its shares. -/
def shownMeter (am : Yaml) : String :=
  let shares := (Yaml.itemsOf (am.field "FingerPrint").join).getD []
  " ".intercalate ((am.fieldAs trainingScalars.string "FlowCount").join.toList ++
    shares.filterMap (Yaml.as trainingScalars.string))

/-- What is shown of a saved database: its meters. -/
def shownDatabase (root : Yaml) : String :=
  let models := (Yaml.itemsOf (root.field "ProtocolModels").join).getD []
  String.join (models.flatMap fun pm =>
    ((Yaml.itemsOf (pm.field "AttributeMeters").join).getD []).map shownMeter)

/-- The run, in exact arithmetic. -/
def trainingMachine : Machine ℚ :=
  { datagramMachine ℚ with
    load := trainingDocuments
    emit := shownDatabase
    os := { renames := true, opens := fun _ => some 100 } }

/-- The flow teaches the model, and the mean of the two flows is saved; the old file is kept under
its other name. -/
theorem trainingMachine_effect :
    ∃ config database factory files reports final,
      Begins trainingScalars trainingMachine (fun _ => 0) trainingOptions trainingFiles config
        database factory files ∧
      Heard (setup trainingMachine config database.toProtocolModelDb factory) trainingMachine
        trainingFiles 0 files reports ∧
      teaches (setup trainingMachine config database.toProtocolModelDb factory) database reports =
        true ∧
      main trainingScalars trainingMachine (fun _ => 0) trainingOptions trainingFiles =
        (final, .returns) ∧
      final = ((config.store (learned (setup trainingMachine config database.toProtocolModelDb
        factory) database reports)).write trainingScalars trainingMachine.emit trainingMachine.now
          trainingMachine.os trainingFiles).1 ∧
      final "protocol_model_db.yaml" = some "2 0.5 0.5" ∧
      final "protocol_model_db.yaml.prev" = some "database" := by
  have hending : (main trainingScalars trainingMachine (fun _ => 0) trainingOptions
      trainingFiles).2 = .returns := by decide +kernel
  have hsaved : (main trainingScalars trainingMachine (fun _ => 0) trainingOptions
      trainingFiles).1 "protocol_model_db.yaml" = some "2 0.5 0.5" := by decide +kernel
  have hkept : (main trainingScalars trainingMachine (fun _ => 0) trainingOptions
      trainingFiles).1 "protocol_model_db.yaml.prev" = some "database" := by decide +kernel
  rcases @main_effect ℚ _ trainingScalars trainingMachine (fun _ => 0) trainingOptions
      trainingFiles (fun S => Run.walks_tableKeys S) with
    ⟨-, hexit | hterminate⟩ | ⟨config, database, factory, files, reports, hbegins, hheard, heq⟩
  · rw [hexit] at hending
    cases hending
  · rw [hterminate] at hending
    cases hending
  · have hteaches : teaches (setup trainingMachine config database.toProtocolModelDb factory)
        database reports = true := by
      by_contra hnot
      rw [heq, if_neg hnot] at hsaved
      exact absurd hsaved (by decide)
    rw [if_pos hteaches] at heq
    rw [heq] at hsaved hkept
    exact ⟨config, database, factory, files, reports, _, hbegins, hheard, hteaches, heq, rfl,
      hsaved, hkept⟩

end Training

end Vsid
