import Mathlib.Data.List.ReduceOption
import Vsid.Laws.DatabaseFile
import Vsid.Tools.DatabaseScripts

/-!
# Editing a database

`Shows` says that a document shows a database: each meter, model and limit is where the program and
the scripts look for it. What the program writes shows its database (`shows_write`), what shows a
database is loaded as it (`Shows.read`), and a script that changes the document of a database leaves
one that shows the changed database (`Shows.run`). So a database that was saved, edited by any calls
of the scripts and loaded is the database on which the calls were made (`edits_loaded`). Only
`add_meter_to_database.py` can leave models that the program drops (`addAttributeMeter_loaded`).
-/

set_option autoImplicit false

namespace Vsid

variable {R : Type} [Double R]

/-- What the YAML libraries make of texts, of the Booleans and of the whole numbers that a script
saves. -/
structure Conversions.Plain (Y : Conversions R) : Prop where
  encode : ∀ text, Y.string.encode text = text
  decode : ∀ text, Y.string.decode text = some text
  bool : ∀ b, (DatabaseScripts.ofBool b).as Y.bool = some b
  uint32 : ∀ n : Nat, n < 2 ^ 32 → (DatabaseScripts.ofInt n).as Y.uint32 = some (UInt32.ofNat n)
  zero : (DatabaseScripts.ofInt 0).as Y.double = some 0

/-! ## Documents that show a database -/

/-- The node shows a meter. -/
structure ShowsMeter (Y : Conversions R) (node : Yaml) (am : AttributeMeter R) : Prop where
  name : node.member "AttributeName" = some (.scalar am.kind.name)
  flowCount : node.fieldAs Y.uint32 "FlowCount" = some (some am.flowCount)
  enabled : node.fieldAs Y.bool "Enabled" = some (some am.enabled)
  fingerprint : ∃ items, node.member "FingerPrint" = some (.sequence items) ∧
    items.mapM (Yaml.as Y.double) = some am.fingerprint
  size : am.fingerprint.length = am.kind.fingerprintSize

/-- The node shows a model but for its meters. -/
structure ShowsHeader (Y : Conversions R) (node : Yaml) (pm : ProtocolModel R) : Prop where
  name : node.member "ProtocolName" = some (.scalar pm.name)
  flowCount : node.fieldAs Y.uint32 "FlowCount" = some (some pm.flowCount)
  enabled : node.fieldAs Y.bool "Enabled" = some (some pm.enabled)
  portHints : ∃ value items, node.field "PortHints" = some value ∧
    Yaml.itemsOf value = some items ∧ items.mapM (Yaml.as Y.uint16) = some pm.portHints

/-- The node shows a model. -/
structure ShowsModel (Y : Conversions R) (node : Yaml) (pm : ProtocolModel R) : Prop
    extends ShowsHeader Y node pm where
  meters : ∃ items, node.member "AttributeMeters" = some (.sequence items) ∧
    List.Forall₂ (ShowsMeter Y) items pm.attributeMeters

/-- The document shows the limits of a database. -/
structure ShowsLimits (Y : Conversions R) (root : Yaml) (file : ProtocolModelFile R) : Prop where
  definingLimit : root.fieldAs Y.uint32 "DefiningLimit" = some (some file.definingLimit)
  cutoffLimit : root.fieldAs Y.uint32 "CutoffLimit" = some (some file.cutoffLimit)
  version : ∃ version, root.fieldAs Y.string "Version" = some version

/-- The document shows a database. -/
structure Shows (Y : Conversions R) (root : Yaml) (file : ProtocolModelFile R) : Prop
    extends ShowsLimits Y root file where
  models : ∃ items, root.member "ProtocolModels" = some (.sequence items) ∧
    List.Forall₂ (ShowsModel Y) items file.protocolModelOrder

variable {Y : Conversions R}

theorem field_of_member {node value : Yaml} {key : String} (h : node.member key = some value) :
    node.field key = some (some value) := Option.join_eq_some_iff.mp h

/-! ## What is written shows the database -/

omit [Double R] in
theorem fingerprintSize_pos (k : MeterKind) : 0 < k.fingerprintSize := by
  cases k <;> decide

theorem showsMeter_write (hplain : Y.Plain) {am : AttributeMeter R} (hkeeps : Y.KeepsMeter am)
    (hsize : am.fingerprint.length = am.kind.fingerprintSize) :
    ShowsMeter Y (ProtocolModelFile.writeAttributeMeter Y am) am where
  name := congrArg (fun text => some (Yaml.scalar text)) (hplain.encode am.kind.name)
  flowCount := Yaml.fieldAs_of hkeeps.flowCount rfl
  enabled := Yaml.fieldAs_of hkeeps.enabled rfl
  fingerprint := by
    refine ⟨am.fingerprint.map (.of Y.double), ?_, Yaml.mapM_as_of hkeeps.fingerprint⟩
    have hne : am.fingerprint ≠ [] := by
      intro hnil
      rw [hnil] at hsize
      exact absurd hsize (Nat.ne_of_lt (fingerprintSize_pos am.kind))
    have hmember : (ProtocolModelFile.writeAttributeMeter Y am).member "FingerPrint" =
        some (.pushed (am.fingerprint.map (.of Y.double))) := rfl
    rw [hmember]
    cases hfp : am.fingerprint with
    | nil => exact absurd hfp hne
    | cons x xs => rfl
  size := hsize

theorem showsModel_write (hplain : Y.Plain) {pm : ProtocolModel R} (hkeeps : Y.KeepsModel pm)
    (hsizes : ∀ am ∈ pm.attributeMeters, am.fingerprint.length = am.kind.fingerprintSize)
    (hmeters : pm.attributeMeters ≠ []) :
    ShowsModel Y (ProtocolModelFile.writeProtocolModel Y pm) pm where
  name := congrArg (fun text => some (Yaml.scalar text)) (hplain.encode pm.name)
  flowCount := Yaml.fieldAs_of hkeeps.flowCount rfl
  enabled := Yaml.fieldAs_of hkeeps.enabled rfl
  portHints := ⟨_, _, rfl, Yaml.items_pushed _, Yaml.mapM_as_of hkeeps.portHints⟩
  meters := by
    refine ⟨pm.attributeMeters.map (ProtocolModelFile.writeAttributeMeter Y), ?_, ?_⟩
    · have hmember : (ProtocolModelFile.writeProtocolModel Y pm).member "AttributeMeters" =
          (ProtocolModelFile.pushedMember "AttributeMeters" (pm.attributeMeters.map
            (ProtocolModelFile.writeAttributeMeter Y))).lookup "AttributeMeters" := rfl
      rw [hmember]
      cases hams : pm.attributeMeters with
      | nil => exact absurd hams hmeters
      | cons am ams => rfl
    · rw [List.forall₂_map_left_iff]
      exact List.forall₂_same.mpr fun am ham =>
        showsMeter_write hplain (hkeeps.attributeMeters am ham) (hsizes am ham)

/-- **What the program writes shows its database**, if there are models and each has a meter. -/
theorem shows_write (hplain : Y.Plain) {file : ProtocolModelFile R} (hkeeps : Y.KeepsFile file)
    (hwell : WellFormed file) (hmodels : file.protocolModelOrder ≠ [])
    (hmeters : ∀ pm ∈ file.protocolModelOrder, pm.attributeMeters ≠ []) (now : Int) :
    Shows Y (ProtocolModelFile.write Y now file) file where
  definingLimit := Yaml.fieldAs_of hkeeps.definingLimit rfl
  cutoffLimit := Yaml.fieldAs_of hkeeps.cutoffLimit rfl
  version := ⟨_, Yaml.fieldAs_of hkeeps.version rfl⟩
  models := by
    refine ⟨file.protocolModelOrder.map (ProtocolModelFile.writeProtocolModel Y), ?_, ?_⟩
    · have hmember : (ProtocolModelFile.write Y now file).member "ProtocolModels" =
          (ProtocolModelFile.pushedMember "ProtocolModels" (file.protocolModelOrder.map
            (ProtocolModelFile.writeProtocolModel Y))).lookup "ProtocolModels" := rfl
      rw [hmember]
      cases hpms : file.protocolModelOrder with
      | nil => exact absurd hpms hmodels
      | cons pm pms => rfl
    · rw [List.forall₂_map_left_iff]
      exact List.forall₂_same.mpr fun pm hpm =>
        showsModel_write hplain (hkeeps.models pm hpm) (hwell.sizes pm hpm) (hmeters pm hpm)

/-! ## What shows a database is loaded as it -/

open ProtocolModelFile

theorem ShowsMeter.read (hplain : Y.Plain) {node : Yaml} {am : AttributeMeter R}
    (h : ShowsMeter Y node am) (stale : FirstBytes) (factory : AttributeMeterFactory) :
    ∃ am' factory', readAttributeMeter Y stale factory node = some (some am', factory') ∧
      am'.entry = am.entry := by
  obtain ⟨items, hmember, hitems⟩ := h.fingerprint
  have hname : node.fieldAs Y.string "AttributeName" = some (some am.kind.name) := by
    unfold Yaml.fieldAs
    rw [field_of_member h.name]
    exact congrArg (Option.map some) (hplain.decode am.kind.name)
  have hprint : readFingerPrint Y am.kind (some (.sequence items)) =
      some (some am.fingerprint) := by
    have hlength : items.length = am.kind.fingerprintSize :=
      (Keyed.length_of_mapM hitems).symm.trans h.size
    unfold readFingerPrint Yaml.size Yaml.items
    simp only [hlength, if_true, hitems, Option.bind_eq_bind, Option.bind_some]
  unfold readAttributeMeter readMeterOf
  simp only [hname, h.enabled, h.flowCount, field_of_member hmember, hprint, Option.bind_eq_bind,
    Option.bind_some, MeterKind.ofName_name, Option.map_some]
  refine ⟨_, _, rfl, ?_⟩
  unfold AttributeMeter.entry AttributeMeter.create
  simp only [Option.getD_some, Option.isSome_some, Bool.and_true]

/-- The meters that are shown are read, and then what follows them. -/
theorem readAttributeMeters_shown (hplain : Y.Plain) {items : List Yaml}
    {ams : List (AttributeMeter R)} (h : List.Forall₂ (ShowsMeter Y) items ams)
    (stale : FirstBytes) (rest : List Yaml) (factory : AttributeMeterFactory) :
    ∃ ams' factory', ams'.map AttributeMeter.entry = ams.map AttributeMeter.entry ∧
      readAttributeMeters Y stale factory (items ++ rest) =
        (readAttributeMeters Y stale factory' rest).map fun r => (r.1.map (ams' ++ ·), r.2) := by
  induction h generalizing factory with
  | nil =>
    refine ⟨[], factory, rfl, ?_⟩
    have hid : (fun r : Option (List (AttributeMeter R)) × AttributeMeterFactory =>
        (r.1.map ([] ++ ·), r.2)) = id := funext fun r => by
      rw [show (([] : List (AttributeMeter R)) ++ ·) = id from rfl, Option.map_id]
      rfl
    rw [hid, Option.map_id]
    rfl
  | cons hhead _ ih =>
    obtain ⟨am', factory₁, hread, hentry⟩ := hhead.read hplain stale factory
    obtain ⟨ams', factory', hentries, hreads⟩ := ih factory₁
    refine ⟨am' :: ams', factory', by rw [List.map_cons, List.map_cons, hentry, hentries], ?_⟩
    rw [List.cons_append]
    conv_lhs => unfold readAttributeMeters
    simp only [hread, hreads, Option.bind_eq_bind, Option.bind_some]
    cases readAttributeMeters Y stale factory' rest with
    | none => rfl
    | some r =>
      obtain ⟨meters, factory''⟩ := r
      cases meters <;> rfl

/-- What a node is read as, whatever classes are enabled: a model, or nothing. -/
def ReadsAs (Y : Conversions R) (stale : FirstBytes) (node : Yaml)
    (model : Option (ProtocolModel R)) : Prop :=
  ∀ factory, ∃ model' factory', readProtocolModel Y stale factory node = some (model', factory') ∧
    model'.map ProtocolModel.entry = model.map ProtocolModel.entry

/-- A model is read as far as its meters are. -/
theorem ShowsHeader.read (hplain : Y.Plain) {node : Yaml} {pm : ProtocolModel R}
    (h : ShowsHeader Y node pm) {items : List Yaml}
    (hmember : node.member "AttributeMeters" = some (.sequence items)) (stale : FirstBytes)
    (factory : AttributeMeterFactory) :
    readProtocolModel Y stale factory node =
      (readAttributeMeters Y stale factory items).map fun r =>
        (r.1.map fun ams => { pm with attributeMeters := ams }, r.2) := by
  obtain ⟨value, hints, hvalue, hhints, hports⟩ := h.portHints
  have hname : node.fieldAs Y.string "ProtocolName" = some (some pm.name) := by
    unfold Yaml.fieldAs
    rw [field_of_member h.name]
    exact congrArg (Option.map some) (hplain.decode pm.name)
  unfold readProtocolModel
  simp only [hname, h.flowCount, h.enabled, hvalue, field_of_member hmember, hhints, hports,
    readModelMeters, Yaml.items, Option.bind_eq_bind, Option.bind_some, Option.getD_some]
  cases readAttributeMeters Y stale factory items <;> rfl

theorem ShowsModel.readsAs (hplain : Y.Plain) {node : Yaml} {pm : ProtocolModel R}
    (h : ShowsModel Y node pm) (stale : FirstBytes) : ReadsAs Y stale node (some pm) := by
  intro factory
  obtain ⟨items, hmember, hitems⟩ := h.meters
  obtain ⟨ams', factory', hentries, hread⟩ :=
    readAttributeMeters_shown hplain hitems stale [] factory
  rw [List.append_nil] at hread
  refine ⟨some { pm with attributeMeters := ams' }, factory', ?_, ?_⟩
  · rw [h.read hplain hmember, hread]
    have hnil : readAttributeMeters Y stale factory' [] = some (some [], factory') := rfl
    rw [hnil]
    simp only [Option.map_some, List.append_nil]
  · rw [Option.map_some, Option.map_some]
    unfold ProtocolModel.entry
    rw [hentries]

/-- The loop over nodes that are each read as a model or as nothing. -/
theorem readModels_of_readsAs {stale : FirstBytes} {nodes : List Yaml}
    {models : List (Option (ProtocolModel R))} (h : List.Forall₂ (ReadsAs Y stale) nodes models)
    (db : ProtocolModelDb R) (factory : AttributeMeterFactory)
    (hnames : (db.protocolModelOrder.map ProtocolModel.name ++
      models.reduceOption.map ProtocolModel.name).Nodup) :
    ∃ db' factory', readModels Y stale db factory nodes = some (db', factory') ∧
      db'.definingLimit = db.definingLimit ∧ db'.cutoffLimit = db.cutoffLimit ∧
      db'.protocolModelOrder.map ProtocolModel.entry =
        db.protocolModelOrder.map ProtocolModel.entry ++
          models.reduceOption.map ProtocolModel.entry := by
  induction h generalizing db factory with
  | nil => exact ⟨db, factory, rfl, rfl, rfl, (List.append_nil _).symm⟩
  | @cons node model nodes models hhead _ ih =>
    obtain ⟨model', factory₁, hread, hentry⟩ := hhead factory
    have hstep : ∀ db' : ProtocolModelDb R, model'.elim db db.addModel = db' →
        readModels Y stale db factory (node :: nodes) =
          readModels Y stale db' factory₁ nodes := by
      rintro db' rfl
      conv_lhs => unfold readModels
      simp only [hread, Option.bind_eq_bind, Option.bind_some]
    cases model with
    | none =>
      obtain rfl := Option.map_eq_none_iff.mp hentry
      rw [List.reduceOption_cons_of_none] at hnames ⊢
      obtain ⟨db', factory', hreads, hrest⟩ := ih db factory₁ hnames
      exact ⟨db', factory', (hstep db rfl).trans hreads, hrest⟩
    | some pm =>
      obtain ⟨pm', rfl, hsame⟩ := Option.map_eq_some_iff.mp hentry
      rw [List.reduceOption_cons_of_some] at hnames ⊢
      have hname : pm'.name = pm.name := congrArg ModelEntry.name hsame
      have hnew : pm'.name ∉ db.protocolModelOrder.map ProtocolModel.name := by
        rw [hname]
        exact fun hmem => (List.disjoint_of_nodup_append hnames) hmem List.mem_cons_self
      have horder := addModel_of_new hnew
      have hnames' : ((db.addModel pm').protocolModelOrder.map ProtocolModel.name ++
          models.reduceOption.map ProtocolModel.name).Nodup := by
        rw [horder, List.map_append, List.map_singleton, hname, List.append_assoc,
          List.singleton_append]
        exact hnames
      obtain ⟨db', factory', hreads, hdefining, hcutoff, hentries⟩ :=
        ih (db.addModel pm') factory₁ hnames'
      obtain ⟨hdefining', hcutoff'⟩ := addModel_limits db pm'
      refine ⟨db', factory', (hstep _ rfl).trans hreads, hdefining.trans hdefining',
        hcutoff.trans hcutoff', ?_⟩
      rw [hentries, horder, List.map_append, List.map_singleton, hsame, List.map_cons,
        List.append_assoc, List.singleton_append]

/-- A database is loaded with the models that its nodes are read as. -/
theorem ShowsLimits.read {root : Yaml} {file : ProtocolModelFile R} (h : ShowsLimits Y root file)
    {items : List Yaml} (hmember : root.member "ProtocolModels" = some (.sequence items))
    {stale : FirstBytes} {models : List (Option (ProtocolModel R))}
    (hitems : List.Forall₂ (ReadsAs Y stale) items models)
    (hnames : (models.reduceOption.map ProtocolModel.name).Nodup) (now : Int)
    (factory : AttributeMeterFactory) :
    ∃ file' factory', ProtocolModelFile.read Y stale now factory root = some (file', factory') ∧
      file'.definingLimit = file.definingLimit ∧
      file'.cutoffLimit = adjustCutoff file.definingLimit file.cutoffLimit ∧
      file'.protocolModelOrder.map ProtocolModel.entry =
        models.reduceOption.map ProtocolModel.entry := by
  obtain ⟨version, hversion⟩ := h.version
  obtain ⟨times, htimes⟩ : ∃ times, root.field "ModifiedTime" = some times := by
    cases root with
    | map entries => exact ⟨_, rfl⟩
    | null => cases hmember
    | scalar text => cases hmember
    | sequence xs => cases hmember
  obtain ⟨db', factory', hreads, hdefining, hcutoff, hentries⟩ := readModels_of_readsAs hitems
    { definingLimit := file.definingLimit
      cutoffLimit := adjustCutoff file.definingLimit file.cutoffLimit
      protocolModelOrder := []
      portHintOrder := [] } factory hnames
  unfold ProtocolModelFile.read
  simp only [h.definingLimit, h.cutoffLimit, hversion, htimes, field_of_member hmember,
    Yaml.itemsOf, Yaml.items, hreads, Option.bind_eq_bind, Option.bind_some]
  exact ⟨_, _, rfl, hdefining, hcutoff, hentries⟩

/-- **A document is loaded as the database that it shows.** -/
theorem Shows.read (hplain : Y.Plain) {root : Yaml} {file : ProtocolModelFile R}
    (h : Shows Y root file) (hnames : (file.protocolModelOrder.map ProtocolModel.name).Nodup)
    (stale : FirstBytes) (now : Int) (factory : AttributeMeterFactory) :
    ∃ file' factory', ProtocolModelFile.read Y stale now factory root = some (file', factory') ∧
      file'.definingLimit = file.definingLimit ∧
      file'.cutoffLimit = adjustCutoff file.definingLimit file.cutoffLimit ∧
      file'.protocolModelOrder.map ProtocolModel.entry =
        file.protocolModelOrder.map ProtocolModel.entry := by
  obtain ⟨items, hmember, hitems⟩ := h.models
  have hall : (file.protocolModelOrder.map some).reduceOption = file.protocolModelOrder := by
    rw [List.reduceOption, List.filterMap_map]
    exact List.filterMap_some
  have hreads : List.Forall₂ (ReadsAs Y stale) items (file.protocolModelOrder.map some) := by
    rw [List.forall₂_map_right_iff]
    exact hitems.imp fun node pm hshows => hshows.readsAs hplain stale
  have hread := h.toShowsLimits.read hmember hreads (by rwa [hall]) now factory
  rwa [hall] at hread

/-! ## What the scripts leave shows the changed database -/

open DatabaseScripts

section Steps

variable {node node' root : Yaml} {am : AttributeMeter R} {pm : ProtocolModel R}
  {file : ProtocolModelFile R}

theorem ShowsMeter.assignEnabled (hplain : Y.Plain) (h : ShowsMeter Y node am) (enabled : Bool) :
    ∃ node', node.assign "Enabled" (ofBool enabled) = some node' ∧
      ShowsMeter Y node' { am with enabled := enabled } := by
  obtain ⟨node', hassign⟩ := Yaml.exists_assign h.name "Enabled" (ofBool enabled)
  obtain ⟨items, hmember, hitems⟩ := h.fingerprint
  exact ⟨node', hassign,
    { name := (Yaml.member_assign_ne hassign (by decide)).trans h.name
      flowCount := (Yaml.fieldAs_assign_ne hassign (by decide)).trans h.flowCount
      enabled := Yaml.fieldAs_assign_self hassign (hplain.bool enabled)
      fingerprint := ⟨items, (Yaml.member_assign_ne hassign (by decide)).trans hmember, hitems⟩
      size := h.size }⟩

theorem ShowsMeter.reset (hplain : Y.Plain) (h : ShowsMeter Y node am) :
    ∃ node', node.update "FingerPrint" (Yaml.fill (ofInt 0)) = some node' ∧
      ShowsMeter Y node' am.reset := by
  obtain ⟨items, hmember, hitems⟩ := h.fingerprint
  have hfill : Yaml.fill (ofInt 0) (.sequence items) =
      some (.sequence (items.map fun _ => ofInt 0)) := rfl
  obtain ⟨node', hupdate, hassign⟩ := Yaml.update_eq_some hmember hfill
  have hzeros : (items.map fun _ => ofInt 0).mapM (Yaml.as Y.double) =
      some (am.fingerprint.map fun _ => 0) := by
    have hconst := congrArg (List.map fun _ => some (0 : R)) (Keyed.mapM_eq_some.mp hitems)
    rw [List.map_map, List.map_map] at hconst
    rw [Keyed.mapM_eq_some, List.map_map, List.map_map]
    exact (List.map_congr_left fun _ _ => hplain.zero).trans hconst
  exact ⟨node', hupdate,
    { name := (Yaml.member_assign_ne hassign (by decide)).trans h.name
      flowCount := (Yaml.fieldAs_assign_ne hassign (by decide)).trans h.flowCount
      enabled := (Yaml.fieldAs_assign_ne hassign (by decide)).trans h.enabled
      fingerprint := ⟨_, Yaml.member_assign_self hassign, hzeros⟩
      size := (List.length_map _).trans h.size }⟩

theorem showsMeter_newMeter (hplain : Y.Plain) (k : MeterKind) (stale : FirstBytes) :
    ShowsMeter Y (newMeter k.name k.fingerprintSize)
      (AttributeMeter.added k stale : AttributeMeter R) where
  name := rfl
  flowCount := congrArg (Option.map some) (hplain.uint32 0 (by decide))
  enabled := congrArg (Option.map some) (hplain.bool true)
  fingerprint := by
    refine ⟨_, rfl, Keyed.mapM_eq_some.mpr ?_⟩
    have hzero : ∀ n, (List.replicate n (ofInt 0)).map (Yaml.as Y.double) =
        (List.replicate n (0 : R)).map some := by
      intro n
      rw [List.map_replicate, List.map_replicate, hplain.zero]
    exact hzero k.fingerprintSize
  size := List.length_replicate

omit [Double R] in
/-- A model whose meters are assigned. -/
theorem ShowsModel.assignMeters (h : ShowsModel Y node pm) {items : List Yaml}
    {ams : List (AttributeMeter R)} (hitems : List.Forall₂ (ShowsMeter Y) items ams)
    (hassign : node.assign "AttributeMeters" (.sequence items) = some node') :
    ShowsModel Y node' { pm with attributeMeters := ams } where
  name := (Yaml.member_assign_ne hassign (by decide)).trans h.name
  flowCount := (Yaml.fieldAs_assign_ne hassign (by decide)).trans h.flowCount
  enabled := (Yaml.fieldAs_assign_ne hassign (by decide)).trans h.enabled
  portHints := by
    rw [Yaml.field_assign_ne hassign (by decide)]
    exact h.portHints
  meters := ⟨items, Yaml.member_assign_self hassign, hitems⟩

omit [Double R] in
/-- A loop over the meters of a model. -/
theorem ShowsModel.updateMeters (h : ShowsModel Y node pm) {f : Yaml → Option Yaml}
    {g : AttributeMeter R → AttributeMeter R}
    (hstep : ∀ node am, ShowsMeter Y node am →
      ∃ node', f node = some node' ∧ ShowsMeter Y node' (g am)) :
    ∃ node', node.update "AttributeMeters" (Yaml.updateItems f) = some node' ∧
      ShowsModel Y node' { pm with attributeMeters := pm.attributeMeters.map g } := by
  obtain ⟨items, hmember, hitems⟩ := h.meters
  obtain ⟨items', hmap, hitems'⟩ := forall₂_mapM hitems hstep
  have hloop : Yaml.updateItems f (.sequence items) = some (.sequence items') :=
    congrArg (Option.map Yaml.sequence) hmap
  obtain ⟨node', hupdate, hassign⟩ := Yaml.update_eq_some hmember hloop
  exact ⟨node', hupdate, h.assignMeters hitems' hassign⟩

theorem ShowsModel.assignEnabled (hplain : Y.Plain) (h : ShowsModel Y node pm) (enabled : Bool) :
    ∃ node', node.assign "Enabled" (ofBool enabled) = some node' ∧
      ShowsModel Y node' { pm with enabled := enabled } := by
  obtain ⟨node', hassign⟩ := Yaml.exists_assign h.name "Enabled" (ofBool enabled)
  obtain ⟨items, hmember, hitems⟩ := h.meters
  exact ⟨node', hassign,
    { name := (Yaml.member_assign_ne hassign (by decide)).trans h.name
      flowCount := (Yaml.fieldAs_assign_ne hassign (by decide)).trans h.flowCount
      enabled := Yaml.fieldAs_assign_self hassign (hplain.bool enabled)
      portHints := by
        rw [Yaml.field_assign_ne hassign (by decide)]
        exact h.portHints
      meters := ⟨items, (Yaml.member_assign_ne hassign (by decide)).trans hmember, hitems⟩ }⟩

omit [Double R] in
theorem ShowsModel.skips_eq (h : ShowsModel Y node pm) (protocols : Option (List String)) :
    skips protocols node = some (!Edit.allows protocols pm) := by
  cases protocols with
  | none => rfl
  | some names =>
    unfold skips
    rw [h.name]
    refine congrArg (fun b => some (!b)) ?_
    rw [Edit.allows, Option.all_some, List.contains_eq_any_beq]
    rfl

omit [Double R] in
/-- A database whose models are assigned. -/
theorem Shows.assignModels (h : Shows Y root file) {items : List Yaml}
    {models : List (ProtocolModel R)} (hitems : List.Forall₂ (ShowsModel Y) items models)
    {root' : Yaml} (hassign : root.assign "ProtocolModels" (.sequence items) = some root') :
    Shows Y root' { file with protocolModelOrder := models } where
  definingLimit := (Yaml.fieldAs_assign_ne hassign (by decide)).trans h.definingLimit
  cutoffLimit := (Yaml.fieldAs_assign_ne hassign (by decide)).trans h.cutoffLimit
  version := by
    rw [Yaml.fieldAs_assign_ne hassign (by decide)]
    exact h.version
  models := ⟨items, Yaml.member_assign_self hassign, hitems⟩

omit [Double R] in
/-- A loop over the models of a database. -/
theorem Shows.updateModels (h : Shows Y root file) {f : Yaml → Option Yaml}
    {g : ProtocolModel R → ProtocolModel R}
    (hstep : ∀ node pm, ShowsModel Y node pm →
      ∃ node', f node = some node' ∧ ShowsModel Y node' (g pm)) :
    ∃ root', root.update "ProtocolModels" (Yaml.updateItems f) = some root' ∧
      Shows Y root' { file with protocolModelOrder := file.protocolModelOrder.map g } := by
  obtain ⟨items, hmember, hitems⟩ := h.models
  obtain ⟨items', hmap, hitems'⟩ := forall₂_mapM hitems hstep
  have hloop : Yaml.updateItems f (.sequence items) = some (.sequence items') :=
    congrArg (Option.map Yaml.sequence) hmap
  obtain ⟨root', hupdate, hassign⟩ := Yaml.update_eq_some hmember hloop
  exact ⟨root', hupdate, h.assignModels hitems' hassign⟩

/-! ### One script at a time -/

theorem Shows.toggleAttributeMeter (hplain : Y.Plain) (h : Shows Y root file) (stale : FirstBytes)
    (name : String) (enabled : Bool) (protocols : Option (List String)) :
    ∃ root', DatabaseScripts.toggleAttributeMeter name enabled protocols root = some root' ∧
      Shows Y root'
        { file with
          protocolModelOrder := (Edit.toggleAttributeMeter name enabled protocols).applyModels
            stale file.protocolModelOrder } := by
  refine h.updateModels fun node pm hshows => ?_
  rw [hshows.skips_eq]
  by_cases hallowed : Edit.allows protocols pm = true
  · simp only [hallowed, Bool.not_true, Option.bind_eq_bind, Option.bind_some, Bool.false_eq_true,
      if_false, if_true]
    refine hshows.updateMeters fun meter am hmeter => ?_
    rw [hmeter.name]
    by_cases hnamed : (am.kind.name == name || name == "all") = true
    · have htext : ((Yaml.scalar am.kind.name).isText name || name == "all") = true := hnamed
      simp only [htext, hnamed, Option.bind_some, if_true]
      exact hmeter.assignEnabled hplain enabled
    · have htext : ¬ ((Yaml.scalar am.kind.name).isText name || name == "all") = true := hnamed
      simp only [htext, hnamed, Option.bind_some]
      exact ⟨meter, rfl, hmeter⟩
  · simp only [hallowed, Bool.not_false, Option.bind_eq_bind, Option.bind_some, if_true,
      Bool.false_eq_true, if_false]
    exact ⟨node, rfl, hshows⟩

theorem Shows.toggleProtocolModel (hplain : Y.Plain) (h : Shows Y root file) (stale : FirstBytes)
    (name : String) (enabled : Bool) :
    ∃ root', DatabaseScripts.toggleProtocolModel name enabled root = some root' ∧
      Shows Y root'
        { file with
          protocolModelOrder := (Edit.toggleProtocolModel name enabled).applyModels stale
            file.protocolModelOrder } := by
  refine h.updateModels fun node pm hshows => ?_
  rw [hshows.name]
  by_cases hnamed : (pm.name == name || name == "all") = true
  · have htext : ((Yaml.scalar pm.name).isText name || name == "all") = true := hnamed
    simp only [htext, hnamed, Option.bind_eq_bind, Option.bind_some, if_true]
    exact hshows.assignEnabled hplain enabled
  · have htext : ¬ ((Yaml.scalar pm.name).isText name || name == "all") = true := hnamed
    simp only [htext, hnamed, Option.bind_eq_bind, Option.bind_some]
    exact ⟨node, rfl, hshows⟩

theorem Shows.setDefiningLimit (hplain : Y.Plain) (h : Shows Y root file) {limit : Int}
    (hpos : 0 ≤ limit) (hlimit : limit < 2 ^ 32) :
    ∃ root', DatabaseScripts.setDefiningLimit limit root = some root' ∧
      Shows Y root' { file with definingLimit := UInt32.ofNat limit.toNat } := by
  obtain ⟨items, hmember, hitems⟩ := h.models
  obtain ⟨root', hassign⟩ := Yaml.exists_assign hmember "DefiningLimit" (ofInt limit)
  have hvalue : (ofInt limit).as Y.uint32 = some (UInt32.ofNat limit.toNat) := by
    have hnat := hplain.uint32 limit.toNat (by omega)
    rwa [Int.toNat_of_nonneg hpos] at hnat
  exact ⟨root', hassign,
    { definingLimit := Yaml.fieldAs_assign_self hassign hvalue
      cutoffLimit := (Yaml.fieldAs_assign_ne hassign (by decide)).trans h.cutoffLimit
      version := by
        rw [Yaml.fieldAs_assign_ne hassign (by decide)]
        exact h.version
      models := ⟨items, (Yaml.member_assign_ne hassign (by decide)).trans hmember, hitems⟩ }⟩

theorem Shows.resetProtocol (hplain : Y.Plain) (h : Shows Y root file) (stale : FirstBytes)
    (name : String) (attributes : Option (List String)) :
    ∃ root', DatabaseScripts.resetProtocol name attributes root = some root' ∧
      Shows Y root'
        { file with
          protocolModelOrder := (Edit.resetProtocol name attributes).applyModels stale
            file.protocolModelOrder } := by
  refine h.updateModels fun node pm hshows => ?_
  rw [hshows.name]
  by_cases hnamed : (pm.name == name) = true
  · have htext : (Yaml.scalar pm.name).isText name = true := hnamed
    simp only [htext, hnamed, Option.bind_eq_bind, Option.bind_some, if_true]
    refine hshows.updateMeters fun meter am hmeter => ?_
    have hnames : (attributes.any fun names =>
        !(names.any fun text => (Yaml.scalar am.kind.name).isText text)) =
          attributes.any fun names => !names.contains am.kind.name := by
      refine congrArg (Option.any · attributes) (funext fun names => congrArg Bool.not ?_)
      rw [List.contains_eq_any_beq]
      rfl
    rw [hmeter.name]
    simp only [Option.bind_some, hnames]
    split
    · exact ⟨meter, rfl, hmeter⟩
    · exact hmeter.reset hplain
  · have htext : ¬ (Yaml.scalar pm.name).isText name = true := hnamed
    simp only [htext, hnamed, Option.bind_eq_bind, Option.bind_some]
    exact ⟨node, rfl, hshows⟩

omit [Double R] in
/-- The names of the meters that are shown. -/
theorem mapM_meterNames {items : List Yaml} {ams : List (AttributeMeter R)}
    (h : List.Forall₂ (ShowsMeter Y) items ams) :
    (items.mapM fun meter => meter.member "AttributeName") =
      some (ams.map fun am => .scalar am.kind.name) := by
  induction h with
  | nil => rfl
  | cons hhead _ ih =>
    rw [List.mapM_cons, hhead.name, ih]
    rfl

omit [Double R] in
/-- What `add_attribute_meter` does to one node. -/
theorem ShowsModel.addMeterTo_eq (h : ShowsModel Y node pm) (name : String) (size : Int) :
    addMeterTo name size node =
      if pm.attributeMeters.any fun am => am.kind.name == name then some node
      else node.update "AttributeMeters" (Yaml.append (newMeter name size)) := by
  obtain ⟨items, hmember, hitems⟩ := h.meters
  have hfound : ((pm.attributeMeters.map fun am => Yaml.scalar am.kind.name).any
      fun meterName => meterName.isText name) =
        pm.attributeMeters.any fun am => am.kind.name == name := List.any_map
  unfold addMeterTo
  simp only [hmember, Yaml.elements, mapM_meterNames hitems, Option.bind_eq_bind, Option.bind_some,
    hfound]

/-- A meter of a class, of its size, is added. -/
theorem ShowsModel.addMeterTo_proper (hplain : Y.Plain) (h : ShowsModel Y node pm)
    (stale : FirstBytes) (k : MeterKind) :
    ∃ node', addMeterTo k.name k.fingerprintSize node = some node' ∧
      ShowsModel Y node' (pm.addAttributeMeter stale k) := by
  have hkinds : (pm.attributeMeters.any fun am => am.kind.name == k.name) =
      pm.attributeMeters.any fun am => am.kind == k := by
    refine congrArg (List.any pm.attributeMeters) (funext fun am => ?_)
    rw [Bool.eq_iff_iff, beq_iff_eq, beq_iff_eq]
    refine ⟨fun hname => ?_, congrArg MeterKind.name⟩
    have hsome := congrArg MeterKind.ofName hname
    rw [MeterKind.ofName_name, MeterKind.ofName_name] at hsome
    exact Option.some_inj.mp hsome
  rw [h.addMeterTo_eq, hkinds]
  unfold ProtocolModel.addAttributeMeter
  by_cases hfound : (pm.attributeMeters.any fun am => am.kind == k) = true
  · rw [if_pos hfound, if_pos hfound]
    exact ⟨node, rfl, h⟩
  · rw [if_neg hfound, if_neg hfound]
    obtain ⟨items, hmember, hitems⟩ := h.meters
    have happend : Yaml.append (newMeter k.name k.fingerprintSize) (.sequence items) =
        some (.sequence (items ++ [newMeter k.name k.fingerprintSize])) := rfl
    obtain ⟨node', hupdate, hassign⟩ := Yaml.update_eq_some hmember happend
    exact ⟨node', hupdate, h.assignMeters (List.rel_append hitems
      (.cons (showsMeter_newMeter hplain k stale) .nil)) hassign⟩

omit [Double R] in
theorem MeterKind.name_of_ofName {name : String} {k : MeterKind}
    (h : MeterKind.ofName name = some k) : k.name = name := by
  unfold MeterKind.ofName at h
  exact beq_iff_eq.mp (List.find?_some (p := fun k : MeterKind => k.name == name) h)

theorem Shows.addAttributeMeter (hplain : Y.Plain) (h : Shows Y root file) (stale : FirstBytes)
    {name : String} {k : MeterKind} (hname : MeterKind.ofName name = some k)
    (protocols : Option (List String)) :
    ∃ root', DatabaseScripts.addAttributeMeter name k.fingerprintSize protocols root = some root' ∧
      Shows Y root'
        { file with
          protocolModelOrder := (Edit.addAttributeMeter name k.fingerprintSize
            protocols).applyModels stale file.protocolModelOrder } := by
  have htext : name = k.name := (MeterKind.name_of_ofName hname).symm
  refine h.updateModels fun node pm hshows => ?_
  rw [hshows.skips_eq, hname, htext]
  by_cases hallowed : Edit.allows protocols pm = true
  · simp only [hallowed, Bool.not_true, Option.bind_eq_bind, Option.bind_some, Bool.false_eq_true,
      if_false, if_true, Option.elim_some]
    exact hshows.addMeterTo_proper hplain stale k
  · simp only [hallowed, Bool.not_false, Option.bind_eq_bind, Option.bind_some, if_true,
      Bool.false_eq_true, if_false]
    exact ⟨node, rfl, hshows⟩

omit [Double R] in
theorem findProtocol_shown {items : List Yaml} {models : List (ProtocolModel R)}
    (h : List.Forall₂ (ShowsModel Y) items models) (protocol : String) :
    findProtocol protocol items = some (models.findIdx? fun pm => pm.name == protocol) := by
  induction h with
  | nil => rfl
  | @cons node pm items models hhead _ ih =>
    rw [List.findIdx?_cons]
    unfold findProtocol
    rw [hhead.name]
    by_cases hnamed : (pm.name == protocol) = true
    · have htext : (Yaml.scalar pm.name).isText protocol = true := hnamed
      simp only [htext, hnamed, Option.bind_eq_bind, Option.bind_some, if_true]
    · have htext : ¬ (Yaml.scalar pm.name).isText protocol = true := hnamed
      simp only [htext, hnamed, ih, Option.bind_eq_bind, Option.bind_some, Bool.false_eq_true,
        if_false]

omit [Double R] in
theorem Shows.moveProtocol (h : Shows Y root file) (protocol : String) (position : Int)
    {moved : List (ProtocolModel R)}
    (hmoved : moved = (file.protocolModelOrder.findIdx? fun pm => pm.name == protocol).elim
      file.protocolModelOrder fun i => moveTo file.protocolModelOrder i position) :
    ∃ root', DatabaseScripts.moveProtocol protocol position root = some root' ∧
      Shows Y root' { file with protocolModelOrder := moved } := by
  obtain ⟨items, hmember, hitems⟩ := h.models
  unfold DatabaseScripts.moveProtocol
  simp only [hmember, Yaml.elements, findProtocol_shown hitems, Option.bind_eq_bind,
    Option.bind_some]
  rw [hmoved]
  cases file.protocolModelOrder.findIdx? fun pm => pm.name == protocol with
  | none => exact ⟨root, rfl, h⟩
  | some i =>
    obtain ⟨root', hassign⟩ := Yaml.exists_assign hmember "ProtocolModels"
      (.sequence (moveTo items i position))
    exact ⟨root', hassign, h.assignModels (forall₂_moveTo hitems i position) hassign⟩

/-- **A call of a script does what it means.** -/
theorem Shows.run (hplain : Y.Plain) (h : Shows Y root file) (stale : FirstBytes) {e : Edit}
    (hproper : e.IsProper) :
    ∃ root', e.run root = some root' ∧ Shows Y root' (e.apply stale file) := by
  unfold Edit.run Edit.apply
  by_cases hrefused : e.isRefused = true
  · rw [if_pos hrefused, if_pos hrefused]
    exact ⟨root, rfl, h⟩
  · rw [if_neg hrefused, if_neg hrefused]
    cases e with
    | moveProtocol protocol position => exact h.moveProtocol protocol position rfl
    | toggleAttributeMeter name enabled protocols =>
      exact h.toggleAttributeMeter hplain stale name enabled protocols
    | toggleProtocolModel name enabled => exact h.toggleProtocolModel hplain stale name enabled
    | setDefiningLimit limit =>
      have hpos : 0 ≤ limit := by
        have hmin : ¬ limit < 2 := fun hlt => hrefused (decide_eq_true hlt)
        omega
      exact h.setDefiningLimit hplain hpos hproper
    | resetProtocol name attributes => exact h.resetProtocol hplain stale name attributes
    | addAttributeMeter name size protocols =>
      obtain ⟨k, hname, rfl⟩ := hproper
      exact h.addAttributeMeter hplain stale hname protocols

/-- **Any calls one after the other.** -/
theorem Shows.runAll (hplain : Y.Plain) (stale : FirstBytes) {edits : List Edit}
    (hproper : ∀ e ∈ edits, e.IsProper) (h : Shows Y root file) :
    ∃ root', edits.foldlM (fun root e => e.run root) root = some root' ∧
      Shows Y root' (edits.foldl (fun file e => e.apply stale file) file) := by
  induction edits generalizing root file with
  | nil => exact ⟨root, rfl, h⟩
  | cons e edits ih =>
    obtain ⟨hfirst, hrest⟩ := List.forall_mem_cons.mp hproper
    obtain ⟨root₁, hrun, hshows⟩ := h.run hplain stale hfirst
    obtain ⟨root', hruns, hshows'⟩ := ih hrest hshows
    refine ⟨root', ?_, hshows'⟩
    rw [List.foldlM_cons, hrun]
    exact hruns

end Steps

/-! ## From one load to the next -/

/-- No script changes which names there are. -/
theorem Edit.apply_names (stale : FirstBytes) (e : Edit) (file : ProtocolModelFile R) :
    ((e.apply stale file).protocolModelOrder.map ProtocolModel.name).Perm
      (file.protocolModelOrder.map ProtocolModel.name) := by
  have hmap : ∀ g : ProtocolModel R → ProtocolModel R, (∀ pm, (g pm).name = pm.name) →
      ((file.protocolModelOrder.map g).map ProtocolModel.name).Perm
        (file.protocolModelOrder.map ProtocolModel.name) := by
    intro g hg
    rw [List.map_map]
    exact List.Perm.of_eq (List.map_congr_left fun pm _ => hg pm)
  unfold Edit.apply
  split
  · exact List.Perm.refl _
  · cases e with
    | moveProtocol protocol position =>
      unfold Edit.applyModels
      dsimp only
      cases file.protocolModelOrder.findIdx? fun pm => pm.name == protocol with
      | none => exact List.Perm.refl _
      | some i => exact (moveTo_perm _ i position).map _
    | toggleAttributeMeter name enabled protocols =>
      exact hmap _ fun pm => by split <;> rfl
    | toggleProtocolModel name enabled => exact hmap _ fun pm => by split <;> rfl
    | setDefiningLimit limit => exact List.Perm.refl _
    | resetProtocol name attributes => exact hmap _ fun pm => by split <;> rfl
    | addAttributeMeter name size protocols =>
      refine hmap _ fun pm => ?_
      split
      · cases MeterKind.ofName name with
        | none => rfl
        | some k =>
          rw [Option.elim_some, ProtocolModel.addAttributeMeter]
          split <;> rfl
      · rfl

theorem Edit.foldl_apply_names (stale : FirstBytes) (edits : List Edit)
    (file : ProtocolModelFile R) :
    ((edits.foldl (fun file e => e.apply stale file) file).protocolModelOrder.map
      ProtocolModel.name).Perm (file.protocolModelOrder.map ProtocolModel.name) := by
  induction edits generalizing file with
  | nil => exact List.Perm.refl _
  | cons e edits ih => exact (ih _).trans (e.apply_names stale file)

/-- **A database that the scripts have edited is loaded as the edits say.** The program saved it; any
calls of the scripts were made on the file, of which those that set a limit or add a meter were
given what the program can load. None of them fails, and the program loads the limits and the
models, in their order, that the calls make of the database. -/
theorem edits_loaded (hplain : Y.Plain) {file : ProtocolModelFile R} (hkeeps : Y.KeepsFile file)
    (hwell : WellFormed file) (hmodels : file.protocolModelOrder ≠ [])
    (hmeters : ∀ pm ∈ file.protocolModelOrder, pm.attributeMeters ≠ []) {edits : List Edit}
    (hproper : ∀ e ∈ edits, e.IsProper) (stale : FirstBytes) (now now' : Int)
    (factory : AttributeMeterFactory) :
    ∃ root file' factory',
      edits.foldlM (fun root e => e.run root) (ProtocolModelFile.write Y now file) = some root ∧
      ProtocolModelFile.read Y stale now' factory root = some (file', factory') ∧
      file'.definingLimit =
        (edits.foldl (fun file e => e.apply stale file) file).definingLimit ∧
      file'.cutoffLimit =
        adjustCutoff (edits.foldl (fun file e => e.apply stale file) file).definingLimit
          (edits.foldl (fun file e => e.apply stale file) file).cutoffLimit ∧
      file'.protocolModelOrder.map ProtocolModel.entry =
        (edits.foldl (fun file e => e.apply stale file) file).protocolModelOrder.map
          ProtocolModel.entry := by
  have hshows := shows_write hplain hkeeps hwell hmodels hmeters now
  obtain ⟨root, hruns, hshows'⟩ := hshows.runAll hplain stale hproper
  have hnames := (Edit.foldl_apply_names stale edits file).nodup_iff.mpr hwell.names
  obtain ⟨file', factory', hread, hloaded⟩ := hshows'.read hplain hnames stale now' factory
  exact ⟨root, file', factory', hruns, hread, hloaded⟩

/-! ## A meter of any name and size -/

/-- The model gets the new meter: it is not skipped, and has none of that name. -/
def takesMeter (name : String) (protocols : Option (List String)) (pm : ProtocolModel R) : Bool :=
  Edit.allows protocols pm && !(pm.attributeMeters.any fun am => am.kind.name == name)

/-- What is loaded of a model after `add_attribute_meter`: nothing, if it got a meter of a class that
the program does not have, or not of the size that the class has. -/
def afterAdd (stale : FirstBytes) (name : String) (size : Int) (protocols : Option (List String))
    (pm : ProtocolModel R) : Option (ProtocolModel R) :=
  if takesMeter name protocols pm then
    (MeterKind.ofName name).bind fun k =>
      if size.toNat = k.fingerprintSize then some (pm.addAttributeMeter stale k) else none
  else some pm

/-- A meter that the program cannot load. -/
theorem readAttributeMeter_newMeter (hplain : Y.Plain) {name : String} {size : Int}
    (himproper : ∀ k, MeterKind.ofName name = some k → size.toNat ≠ k.fingerprintSize)
    (stale : FirstBytes) (factory : AttributeMeterFactory) :
    ∃ factory', readAttributeMeter Y stale factory (newMeter name size) =
      some (none, factory') := by
  have hname : (newMeter name size).fieldAs Y.string "AttributeName" = some (some name) :=
    congrArg (Option.map some) (hplain.decode name)
  have henabled : (newMeter name size).fieldAs Y.bool "Enabled" = some (some true) :=
    congrArg (Option.map some) (hplain.bool true)
  have hcount : (newMeter name size).fieldAs Y.uint32 "FlowCount" = some (some 0) :=
    congrArg (Option.map some) (hplain.uint32 0 (by decide))
  have hfield : (newMeter name size).field "FingerPrint" =
      some (some (.sequence (List.replicate size.toNat (ofInt 0)))) := rfl
  unfold readAttributeMeter readMeterOf
  simp only [hname, henabled, hcount, hfield, Option.bind_eq_bind, Option.bind_some]
  cases hclass : MeterKind.ofName name with
  | none => exact ⟨factory, rfl⟩
  | some k =>
    have hsize : ¬ (Yaml.sequence (List.replicate size.toNat (ofInt 0))).size =
        k.fingerprintSize := by
      rw [Yaml.size, List.length_replicate]
      exact himproper k hclass
    simp only [readFingerPrint, if_neg hsize, Option.bind_some]
    exact ⟨_, rfl⟩

/-- A model that was given such a meter is lost. -/
theorem ShowsModel.addMeterTo_improper (hplain : Y.Plain) {node : Yaml} {pm : ProtocolModel R}
    (h : ShowsModel Y node pm) (stale : FirstBytes) {name : String} {size : Int}
    (himproper : ∀ k, MeterKind.ofName name = some k → size.toNat ≠ k.fingerprintSize) :
    ∃ node', node.update "AttributeMeters" (Yaml.append (newMeter name size)) = some node' ∧
      ReadsAs Y stale node' (none : Option (ProtocolModel R)) := by
  obtain ⟨items, hmember, hitems⟩ := h.meters
  have happend : Yaml.append (newMeter name size) (.sequence items) =
      some (.sequence (items ++ [newMeter name size])) := rfl
  obtain ⟨node', hupdate, hassign⟩ := Yaml.update_eq_some hmember happend
  refine ⟨node', hupdate, fun factory => ?_⟩
  have hheader : ShowsHeader Y node' { pm with attributeMeters := ([] : List (AttributeMeter R)) } :=
    { name := (Yaml.member_assign_ne hassign (by decide)).trans h.name
      flowCount := (Yaml.fieldAs_assign_ne hassign (by decide)).trans h.flowCount
      enabled := (Yaml.fieldAs_assign_ne hassign (by decide)).trans h.enabled
      portHints := by
        rw [Yaml.field_assign_ne hassign (by decide)]
        exact h.portHints }
  obtain ⟨ams', factory₁, -, hread⟩ :=
    readAttributeMeters_shown hplain hitems stale [newMeter name size] factory
  obtain ⟨factory', hnew⟩ := readAttributeMeter_newMeter hplain himproper stale factory₁
  refine ⟨none, factory', ?_, rfl⟩
  rw [hheader.read hplain (Yaml.member_assign_self hassign), hread]
  have hlast : readAttributeMeters Y stale factory₁ [newMeter name size] =
      some (none, factory') := by
    unfold readAttributeMeters
    simp only [hnew, Option.bind_eq_bind, Option.bind_some]
  rw [hlast]
  rfl

/-- The body of the loop of `add_attribute_meter`. -/
theorem ShowsModel.addStep (hplain : Y.Plain) {node : Yaml} {pm : ProtocolModel R}
    (h : ShowsModel Y node pm) (stale : FirstBytes) (name : String) (size : Int)
    (protocols : Option (List String)) :
    ∃ node', ((skips protocols node).bind fun skipped =>
        if skipped = true then some node else addMeterTo name size node) = some node' ∧
      ReadsAs Y stale node' (afterAdd stale name size protocols pm) := by
  rw [h.skips_eq, Option.bind_some]
  unfold afterAdd takesMeter
  by_cases hallowed : Edit.allows protocols pm = true
  · simp only [hallowed, Bool.not_true, Bool.true_and, Bool.false_eq_true, if_false]
    by_cases hfound : (pm.attributeMeters.any fun am => am.kind.name == name) = true
    · rw [h.addMeterTo_eq, if_pos hfound, if_neg (by rw [hfound]; decide)]
      exact ⟨node, rfl, h.readsAs hplain stale⟩
    · rw [if_pos (by rw [eq_false_of_ne_true hfound]; rfl)]
      by_cases hproper : ∃ k, MeterKind.ofName name = some k ∧ size.toNat = k.fingerprintSize
      · obtain ⟨k, hclass, hsize⟩ := hproper
        have hpos := fingerprintSize_pos k
        obtain rfl := MeterKind.name_of_ofName hclass
        obtain rfl : size = (k.fingerprintSize : Int) := by omega
        obtain ⟨node', hadd, hshows⟩ := h.addMeterTo_proper hplain stale k
        refine ⟨node', hadd, ?_⟩
        rw [hclass, Option.bind_some, if_pos hsize]
        exact hshows.readsAs hplain stale
      · have himproper : ∀ k, MeterKind.ofName name = some k → size.toNat ≠ k.fingerprintSize :=
          fun k hclass hsize => hproper ⟨k, hclass, hsize⟩
        have hlost : ((MeterKind.ofName name).bind fun k =>
            if size.toNat = k.fingerprintSize then some (pm.addAttributeMeter stale k) else none) =
              none := by
          refine Option.bind_eq_none_iff.mpr fun k hclass => ?_
          exact if_neg (himproper k hclass)
        rw [h.addMeterTo_eq, if_neg hfound, hlost]
        exact h.addMeterTo_improper hplain stale himproper
  · simp only [hallowed, Bool.not_false, Bool.false_and, Bool.false_eq_true, if_false, if_true]
    exact ⟨node, rfl, h.readsAs hplain stale⟩

theorem afterAdd_name {stale : FirstBytes} {name : String} {size : Int}
    {protocols : Option (List String)} {pm pm' : ProtocolModel R}
    (h : afterAdd stale name size protocols pm = some pm') : pm'.name = pm.name := by
  unfold afterAdd at h
  split at h
  next =>
    obtain ⟨k, -, h⟩ := Option.bind_eq_some_iff.mp h
    split at h
    next =>
      cases h
      unfold ProtocolModel.addAttributeMeter
      split <;> rfl
    next => cases h
  next =>
    cases h
    rfl

/-- No name occurs twice among what is loaded. -/
theorem nodup_afterAdd {models : List (ProtocolModel R)}
    (h : (models.map ProtocolModel.name).Nodup) (stale : FirstBytes) (name : String) (size : Int)
    (protocols : Option (List String)) :
    ((models.filterMap (afterAdd stale name size protocols)).map ProtocolModel.name).Nodup := by
  refine h.sublist ?_
  induction models with
  | nil => exact List.Sublist.refl _
  | cons pm models ih =>
    have hrest := ih (List.nodup_cons.mp h).2
    rw [List.filterMap_cons]
    cases hafter : afterAdd stale name size protocols pm with
    | none => exact hrest.cons _
    | some pm' =>
      rw [List.map_cons, List.map_cons, afterAdd_name hafter]
      exact hrest.cons_cons _

/-- **The program loads a model that was given a meter exactly if it has that class, of that size.**
The program saved the database, and `add_attribute_meter` was called with any name, any size and any
protocols. It does not fail, and the program then loads every model to which no meter was added as
it was, every model that got a meter of a class, of its size, with that meter, and no other. -/
theorem addAttributeMeter_loaded (hplain : Y.Plain) {file : ProtocolModelFile R}
    (hkeeps : Y.KeepsFile file) (hwell : WellFormed file) (hmodels : file.protocolModelOrder ≠ [])
    (hmeters : ∀ pm ∈ file.protocolModelOrder, pm.attributeMeters ≠ []) (name : String) (size : Int)
    (protocols : Option (List String)) (stale : FirstBytes) (now now' : Int)
    (factory : AttributeMeterFactory) :
    ∃ root file' factory',
      addAttributeMeter name size protocols (ProtocolModelFile.write Y now file) = some root ∧
      ProtocolModelFile.read Y stale now' factory root = some (file', factory') ∧
      file'.definingLimit = file.definingLimit ∧ file'.cutoffLimit = file.cutoffLimit ∧
      file'.protocolModelOrder.map ProtocolModel.entry =
        (file.protocolModelOrder.filterMap (afterAdd stale name size protocols)).map
          ProtocolModel.entry := by
  have hshows := shows_write hplain hkeeps hwell hmodels hmeters now
  obtain ⟨items, hmember, hitems⟩ := hshows.models
  obtain ⟨items', hmap, hreads⟩ :=
    forall₂_mapM hitems fun node pm h => h.addStep hplain stale name size protocols
  have hloop : Yaml.updateItems (fun proto => (skips protocols proto).bind fun skipped =>
      if skipped = true then some proto else addMeterTo name size proto) (.sequence items) =
        some (.sequence items') := congrArg (Option.map Yaml.sequence) hmap
  obtain ⟨root, hupdate, hassign⟩ := Yaml.update_eq_some hmember hloop
  have hlimits : ShowsLimits Y root file :=
    { definingLimit := (Yaml.fieldAs_assign_ne hassign (by decide)).trans hshows.definingLimit
      cutoffLimit := (Yaml.fieldAs_assign_ne hassign (by decide)).trans hshows.cutoffLimit
      version := by
        rw [Yaml.fieldAs_assign_ne hassign (by decide)]
        exact hshows.version }
  have hkept : (file.protocolModelOrder.map (afterAdd stale name size protocols)).reduceOption =
      file.protocolModelOrder.filterMap (afterAdd stale name size protocols) := by
    rw [List.reduceOption, List.filterMap_map]
    rfl
  obtain ⟨file', factory', hread, hdefining, hcutoff, hentries⟩ :=
    hlimits.read (Yaml.member_assign_self hassign) hreads
      (hkept ▸ nodup_afterAdd hwell.names stale name size protocols) now' factory
  exact ⟨root, file', factory', hupdate, hread, hdefining, hcutoff.trans hwell.limits,
    hkept ▸ hentries⟩

/-! ## A database with two models -/

/-- The conversion of a bounded whole number to its digits. -/
def decimalCodec {α : Type} (bound : Nat) (toNat : α → Nat) (ofNat : Nat → α) : Codec α :=
  { encode := fun n => Rendering.decimal (toNat n)
    decode := fun text =>
      if text.toList.all Char.isDigit && decide (Nat.ofDigitChars 10 text.toList 0 < bound) then
        some (ofNat (Nat.ofDigitChars 10 text.toList 0))
      else none }

theorem decode_decimal {α : Type} {bound : Nat} (toNat : α → Nat) (ofNat : Nat → α) {n : Nat}
    (hn : n < bound) :
    (decimalCodec bound toNat ofNat).decode (Rendering.decimal n) = some (ofNat n) := by
  have hdigits : (Rendering.decimal n).toList.all Char.isDigit = true :=
    List.all_eq_true.mpr fun c hc => by
      by_contra hnot
      exact Rendering.not_mem_decimal (eq_false_of_ne_true hnot) n hc
  have hread : Nat.ofDigitChars 10 (Rendering.decimal n).toList 0 = n := by
    rw [Rendering.decimal, Nat.toString_eq_ofList_toDigits, String.toList_ofList,
      Nat.ofDigitChars_ten_toDigits]
  unfold decimalCodec
  simp only [hdigits, hread, hn, decide_true, Bool.and_true, if_true]

/-- Scalars as they are written in YAML; which numbers of the program are known is left open. -/
def plainScalars {R : Type} (double : Codec R) : Conversions R :=
  { string := { encode := id, decode := some }
    uint32 := decimalCodec (2 ^ 32) UInt32.toNat UInt32.ofNat
    uint16 := decimalCodec (2 ^ 16) UInt16.toNat UInt16.ofNat
    bool := ProtocolModelFile.knownCodec [(true, "true"), (false, "false")]
    double := double
    isoTime := ProtocolModelFile.knownCodec [(0, "19700101T000000")] }

theorem plain_plainScalars {double : Codec R} (hzero : double.decode "0" = some 0) :
    (plainScalars double).Plain where
  encode text := rfl
  decode text := rfl
  bool b := by cases b <;> rfl
  uint32 n hn := decode_decimal UInt32.toNat UInt32.ofNat hn
  zero := hzero

/-- Two shares. -/
def halves : Codec ℚ := ProtocolModelFile.knownCodec [(0, "0"), (1 / 2, "0.5")]

/-- A trained meter with two shares. -/
def halvesMeter (k : MeterKind) (flowCount : UInt32) : AttributeMeter ℚ :=
  { (AttributeMeter.create k fun _ => 0 : AttributeMeter ℚ) with
    fromDb := true
    enabled := true
    flowCount := flowCount
    fingerprint := [1 / 2, 1 / 2] }

/-- A model that has counted the changes of the direction, and one that has counted bytes. -/
def changesDatabase : ProtocolModelFile ℚ :=
  { definingLimit := 10
    cutoffLimit := 100
    protocolModelOrder :=
      [{ name := "SSH", flowCount := 3, enabled := true, portHints := [22]
         attributeMeters := [halvesMeter .directionChanges 3] },
       { name := "DNS", flowCount := 2, enabled := true, portHints := [53]
         attributeMeters := [halvesMeter .directionBytesCount 2] }]
    portHintOrder := [(22, [0, 1]), (53, [1, 0])]
    version := protocolModelVersion
    modifiedTimes := [] }

theorem keeps_changesDatabase : (plainScalars halves).KeepsFile changesDatabase := by
  decide +kernel

theorem wellFormed_changesDatabase : WellFormed changesDatabase where
  limits := by decide
  names := by decide
  sizes := by
    intro pm hpm am ham
    simp only [changesDatabase, List.mem_cons, List.not_mem_nil, or_false] at hpm
    rcases hpm with rfl | rfl
    all_goals
      rw [List.mem_singleton.mp ham]
      rfl

theorem meters_changesDatabase :
    ∀ pm ∈ changesDatabase.protocolModelOrder, pm.attributeMeters ≠ [] := by
  intro pm hpm
  simp only [changesDatabase, List.mem_cons, List.not_mem_nil, or_false] at hpm
  rcases hpm with rfl | rfl <;> exact List.cons_ne_nil _ _

/-- The defining limit is set, the first model is reset and switched off, and comes last; every
model gets a meter that the second one has. -/
def changesEdits : List Edit :=
  [.setDefiningLimit 100, .resetProtocol "SSH" none, .toggleProtocolModel "SSH" false,
    .addAttributeMeter "DirectionBytesCountMeter" 2 none, .moveProtocol "SSH" 256,
    .toggleAttributeMeter "DirectionChangesMeter" false (some ["SSH"])]

theorem proper_changesEdits : ∀ e ∈ changesEdits, e.IsProper := by
  have hclass : MeterKind.ofName "DirectionBytesCountMeter" = some .directionBytesCount := by
    decide
  simp only [changesEdits, List.forall_mem_cons, Edit.IsProper, hclass]
  exact ⟨by decide, trivial, trivial, ⟨_, rfl, rfl⟩, trivial, trivial, fun _ h => by cases h⟩

/-- The second model, as it was. -/
def dnsEntry : ModelEntry ℚ :=
  { name := "DNS", flowCount := 2, enabled := true, portHints := [53]
    attributeMeters := [(halvesMeter .directionBytesCount 2).entry] }

/-- The first model, reset, switched off and with another meter. -/
def sshEntry : ModelEntry ℚ :=
  { name := "SSH", flowCount := 3, enabled := false, portHints := [22]
    attributeMeters :=
      [{ kind := .directionChanges, flowCount := 3, enabled := false, fingerprint := [0, 0] },
       { kind := .directionBytesCount, flowCount := 0, enabled := true, fingerprint := [0, 0] }] }

/-- The cutoff limit is raised above the new defining limit. -/
theorem changesEdits_loaded :
    ∃ root file' factory',
      changesEdits.foldlM (fun root e => e.run root)
        (ProtocolModelFile.write (plainScalars halves) 0 changesDatabase) = some root ∧
      ProtocolModelFile.read (plainScalars halves) (fun _ => 0) 0 ProtocolModelFile.freshFactory
        root = some (file', factory') ∧
      file'.definingLimit = 100 ∧ file'.cutoffLimit = 101 ∧
      file'.protocolModelOrder.map ProtocolModel.entry = [dnsEntry, sshEntry] := by
  obtain ⟨root, file', factory', hruns, hread, hdefining, hcutoff, hentries⟩ :=
    edits_loaded (plain_plainScalars rfl) keeps_changesDatabase wellFormed_changesDatabase
      (List.cons_ne_nil _ _) meters_changesDatabase proper_changesEdits (fun _ => 0) 0 0
      ProtocolModelFile.freshFactory
  exact ⟨root, file', factory', hruns, hread, hdefining, hcutoff.trans (by decide),
    hentries.trans rfl⟩

/-- The size that the script takes if it is given none is not the one of the class: the model that
has no such meter yet is lost. -/
theorem defaultSize_loaded :
    ∃ root file' factory',
      addAttributeMeter "DirectionBytesCountMeter" 256 none
        (ProtocolModelFile.write (plainScalars halves) 0 changesDatabase) = some root ∧
      ProtocolModelFile.read (plainScalars halves) (fun _ => 0) 0 ProtocolModelFile.freshFactory
        root = some (file', factory') ∧
      file'.definingLimit = 10 ∧ file'.cutoffLimit = 100 ∧
      file'.protocolModelOrder.map ProtocolModel.entry = [dnsEntry] := by
  obtain ⟨root, file', factory', hadd, hread, hdefining, hcutoff, hentries⟩ :=
    addAttributeMeter_loaded (plain_plainScalars rfl) keeps_changesDatabase
      wellFormed_changesDatabase (List.cons_ne_nil _ _) meters_changesDatabase
      "DirectionBytesCountMeter" 256 none (fun _ => 0) 0 0 ProtocolModelFile.freshFactory
  exact ⟨root, file', factory', hadd, hread, hdefining, hcutoff, hentries.trans rfl⟩

end Vsid
