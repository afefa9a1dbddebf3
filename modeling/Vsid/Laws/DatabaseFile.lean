import Mathlib.Data.List.Nodup
import Vsid.Lib.Keyed
import Vsid.Protocol.DatabaseFile

/-!
# Reading, training and writing the database

`WellFormed` is what reading establishes and training keeps: the limits are adjusted, no name occurs
twice, and the fingerprints have the sizes of their classes. Of a well-formed database `write` makes
a document that is read back as the same database, less the models without a meter
(`read_write`).
-/

set_option autoImplicit false

namespace Vsid

variable {R : Type}

/-! ## What a file says -/

/-- A meter as the file has it. -/
structure MeterEntry (R : Type) where
  kind : MeterKind
  flowCount : UInt32
  enabled : Bool
  fingerprint : List R
deriving DecidableEq

/-- A model as the file has it. -/
structure ModelEntry (R : Type) where
  name : String
  flowCount : UInt32
  enabled : Bool
  portHints : List UInt16
  attributeMeters : List (MeterEntry R)
deriving DecidableEq

/-- What the file says about a meter. -/
def AttributeMeter.entry (am : AttributeMeter R) : MeterEntry R :=
  { kind := am.kind, flowCount := am.flowCount, enabled := am.enabled,
    fingerprint := am.fingerprint }

/-- What the file says about a model. -/
def ProtocolModel.entry (pm : ProtocolModel R) : ModelEntry R :=
  { name := pm.name, flowCount := pm.flowCount, enabled := pm.enabled, portHints := pm.portHints,
    attributeMeters := pm.attributeMeters.map AttributeMeter.entry }

/-- The scalars of a meter survive the file. -/
structure Conversions.KeepsMeter (Y : Conversions R) (am : AttributeMeter R) : Prop where
  name : Y.string.Keeps am.kind.name
  flowCount : Y.uint32.Keeps am.flowCount
  enabled : Y.bool.Keeps am.enabled
  fingerprint : ∀ x ∈ am.fingerprint, Y.double.Keeps x

/-- The scalars of a model survive the file. -/
structure Conversions.KeepsModel (Y : Conversions R) (pm : ProtocolModel R) : Prop where
  name : Y.string.Keeps pm.name
  flowCount : Y.uint32.Keeps pm.flowCount
  enabled : Y.bool.Keeps pm.enabled
  portHints : ∀ port ∈ pm.portHints, Y.uint16.Keeps port
  attributeMeters : ∀ am ∈ pm.attributeMeters, Y.KeepsMeter am

/-- The scalars of a database survive the file. -/
structure Conversions.KeepsFile (Y : Conversions R) (file : ProtocolModelFile R) : Prop where
  definingLimit : Y.uint32.Keeps file.definingLimit
  cutoffLimit : Y.uint32.Keeps file.cutoffLimit
  version : Y.string.Keeps protocolModelVersion
  models : ∀ pm ∈ file.protocolModelOrder, Y.KeepsModel pm

section

variable [DecidableEq R] (Y : Conversions R)

instance (am : AttributeMeter R) : Decidable (Y.KeepsMeter am) :=
  decidable_of_iff (Y.string.Keeps am.kind.name ∧ Y.uint32.Keeps am.flowCount ∧
      Y.bool.Keeps am.enabled ∧ ∀ x ∈ am.fingerprint, Y.double.Keeps x)
    ⟨fun h => ⟨h.1, h.2.1, h.2.2.1, h.2.2.2⟩, fun h => ⟨h.1, h.2, h.3, h.4⟩⟩

instance (pm : ProtocolModel R) : Decidable (Y.KeepsModel pm) :=
  -- there are few hints, and many ports
  let _ := List.decidableBAll (fun port => Y.uint16.Keeps port) pm.portHints
  decidable_of_iff (Y.string.Keeps pm.name ∧ Y.uint32.Keeps pm.flowCount ∧
      Y.bool.Keeps pm.enabled ∧ (∀ port ∈ pm.portHints, Y.uint16.Keeps port) ∧
      ∀ am ∈ pm.attributeMeters, Y.KeepsMeter am)
    ⟨fun h => ⟨h.1, h.2.1, h.2.2.1, h.2.2.2.1, h.2.2.2.2⟩,
      fun h => ⟨h.1, h.2, h.3, h.4, h.5⟩⟩

instance (file : ProtocolModelFile R) : Decidable (Y.KeepsFile file) :=
  decidable_of_iff (Y.uint32.Keeps file.definingLimit ∧ Y.uint32.Keeps file.cutoffLimit ∧
      Y.string.Keeps protocolModelVersion ∧ ∀ pm ∈ file.protocolModelOrder, Y.KeepsModel pm)
    ⟨fun h => ⟨h.1, h.2.1, h.2.2.1, h.2.2.2⟩, fun h => ⟨h.1, h.2, h.3, h.4⟩⟩

end

namespace MeterKind

/-- The classes are registered under their names. -/
theorem ofName_name (k : MeterKind) : ofName k.name = some k := by
  cases k <;> rfl

end MeterKind

/-- A database that can be written. -/
structure WellFormed (file : ProtocolModelFile R) : Prop where
  limits : ProtocolModelFile.adjustCutoff file.definingLimit file.cutoffLimit = file.cutoffLimit
  names : (file.protocolModelOrder.map ProtocolModel.name).Nodup
  sizes : ∀ pm ∈ file.protocolModelOrder, ∀ am ∈ pm.attributeMeters,
    am.fingerprint.length = am.kind.fingerprintSize

namespace ProtocolModelFile

variable [Double R] {Y : Conversions R}

/-! ## What is written is read -/

theorem readAttributeMeter_write {am : AttributeMeter R} (hkeeps : Y.KeepsMeter am)
    (hsize : am.fingerprint.length = am.kind.fingerprintSize) (stale : FirstBytes)
    (factory : AttributeMeterFactory) :
    ∃ am' factory', readAttributeMeter Y stale factory (writeAttributeMeter Y am) =
      some (some am', factory') ∧ am'.entry = am.entry := by
  have hname : (writeAttributeMeter Y am).fieldAs Y.string "AttributeName" =
      some (some am.kind.name) := Yaml.fieldAs_of hkeeps.name rfl
  have henabled : (writeAttributeMeter Y am).fieldAs Y.bool "Enabled" =
      some (some am.enabled) := Yaml.fieldAs_of hkeeps.enabled rfl
  have hcount : (writeAttributeMeter Y am).fieldAs Y.uint32 "FlowCount" =
      some (some am.flowCount) := Yaml.fieldAs_of hkeeps.flowCount rfl
  have hfield : (writeAttributeMeter Y am).field "FingerPrint" =
      some (some (.pushed (am.fingerprint.map (.of Y.double)))) := rfl
  have hprint : readFingerPrint Y am.kind
      (some (.pushed (am.fingerprint.map (.of Y.double)))) = some (some am.fingerprint) := by
    unfold readFingerPrint
    simp only [Yaml.size_pushed, List.length_map, hsize, if_true, Yaml.items_pushed,
      Option.bind_eq_bind, Option.bind_some, Yaml.mapM_as_of hkeeps.fingerprint]
  unfold readAttributeMeter readMeterOf
  simp only [hname, henabled, hcount, hfield, hprint, Option.bind_eq_bind, Option.bind_some,
    MeterKind.ofName_name, Option.map_some]
  refine ⟨_, _, rfl, ?_⟩
  unfold AttributeMeter.entry AttributeMeter.create
  simp only [Option.getD_some, Option.isSome_some, Bool.and_true]

theorem readAttributeMeters_write {ams : List (AttributeMeter R)}
    (hkeeps : ∀ am ∈ ams, Y.KeepsMeter am)
    (hsize : ∀ am ∈ ams, am.fingerprint.length = am.kind.fingerprintSize) (stale : FirstBytes)
    (factory : AttributeMeterFactory) :
    ∃ ams' factory', readAttributeMeters Y stale factory (ams.map (writeAttributeMeter Y)) =
      some (some ams', factory') ∧
      ams'.map AttributeMeter.entry = ams.map AttributeMeter.entry := by
  induction ams generalizing factory with
  | nil => exact ⟨[], factory, rfl, rfl⟩
  | cons am ams ih =>
    obtain ⟨am', factory₁, hread, hentry⟩ := readAttributeMeter_write
      (hkeeps am List.mem_cons_self) (hsize am List.mem_cons_self) stale factory
    obtain ⟨ams', factory₂, hreads, hentries⟩ :=
      ih (fun am' h => hkeeps am' (List.mem_cons_of_mem am h))
        (fun am' h => hsize am' (List.mem_cons_of_mem am h)) factory₁
    refine ⟨am' :: ams', factory₂, ?_, ?_⟩
    · rw [List.map_cons]
      unfold readAttributeMeters
      simp only [hread, hreads, Option.bind_eq_bind, Option.bind_some, Option.map_some]
    · rw [List.map_cons, List.map_cons, hentry, hentries]

/-- A model is read back if it has a meter; else it is not valid. -/
theorem readProtocolModel_write {pm : ProtocolModel R} (hkeeps : Y.KeepsModel pm)
    (hsize : ∀ am ∈ pm.attributeMeters, am.fingerprint.length = am.kind.fingerprintSize)
    (stale : FirstBytes) (factory : AttributeMeterFactory) :
    (pm.attributeMeters = [] ∧
        readProtocolModel Y stale factory (writeProtocolModel Y pm) = some (none, factory)) ∨
      pm.attributeMeters ≠ [] ∧
        ∃ pm' factory', readProtocolModel Y stale factory (writeProtocolModel Y pm) =
          some (some pm', factory') ∧ pm'.entry = pm.entry := by
  have hname : (writeProtocolModel Y pm).fieldAs Y.string "ProtocolName" = some (some pm.name) :=
    Yaml.fieldAs_of hkeeps.name rfl
  have hcount : (writeProtocolModel Y pm).fieldAs Y.uint32 "FlowCount" =
      some (some pm.flowCount) := Yaml.fieldAs_of hkeeps.flowCount rfl
  have henabled : (writeProtocolModel Y pm).fieldAs Y.bool "Enabled" = some (some pm.enabled) :=
    Yaml.fieldAs_of hkeeps.enabled rfl
  have hports : (writeProtocolModel Y pm).field "PortHints" =
      some (some (.pushed (pm.portHints.map (.of Y.uint16)))) := rfl
  have hhints : (pm.portHints.map (Yaml.of Y.uint16)).mapM (Yaml.as Y.uint16) =
      some pm.portHints := Yaml.mapM_as_of hkeeps.portHints
  have hmeters : (writeProtocolModel Y pm).field "AttributeMeters" =
      some ((pushedMember "AttributeMeters"
        (pm.attributeMeters.map (writeAttributeMeter Y))).lookup "AttributeMeters") := rfl
  unfold readProtocolModel
  simp only [hname, hcount, henabled, hports, hhints, hmeters, Yaml.itemsOf, Yaml.items_pushed,
    Option.bind_eq_bind, Option.bind_some]
  cases hams : pm.attributeMeters with
  | nil => exact Or.inl ⟨rfl, rfl⟩
  | cons am ams =>
    rw [← hams]
    obtain ⟨ams', factory', hread, hentries⟩ :=
      readAttributeMeters_write hkeeps.attributeMeters hsize stale factory
    have hmember : (pushedMember "AttributeMeters"
        (pm.attributeMeters.map (writeAttributeMeter Y))).lookup "AttributeMeters" =
        some (.sequence (pm.attributeMeters.map (writeAttributeMeter Y))) := by
      rw [hams]
      rfl
    refine Or.inr ⟨by rw [hams]; exact List.cons_ne_nil _ _, ?_⟩
    simp only [hmember, readModelMeters, Yaml.items, hread, Option.bind_eq_bind, Option.bind_some,
      Option.map_some]
    refine ⟨_, _, rfl, ?_⟩
    unfold ProtocolModel.entry
    simp only [Option.getD_some, hentries]

/-- The model has a meter. -/
def hasMeter (pm : ProtocolModel R) : Bool := !pm.attributeMeters.isEmpty

omit [Double R] in
/-- A model whose name is new is added at the end. -/
theorem addModel_of_new {db : ProtocolModelDb R} {pm : ProtocolModel R}
    (hnew : pm.name ∉ db.protocolModelOrder.map ProtocolModel.name) :
    (db.addModel pm).protocolModelOrder = db.protocolModelOrder ++ [pm] := by
  have hnone : (db.protocolModelOrder.any fun pm' => pm'.name == pm.name) = false := by
    rw [List.any_eq_false]
    intro pm' hpm' heq
    exact hnew (List.mem_map.mpr ⟨pm', hpm', beq_iff_eq.mp heq⟩)
  unfold ProtocolModelDb.addModel
  rw [hnone, if_neg Bool.false_ne_true]

omit [Double R] in
theorem addModel_limits (db : ProtocolModelDb R) (pm : ProtocolModel R) :
    (db.addModel pm).definingLimit = db.definingLimit ∧
      (db.addModel pm).cutoffLimit = db.cutoffLimit := by
  unfold ProtocolModelDb.addModel
  split <;> exact ⟨rfl, rfl⟩

theorem readModels_write {models : List (ProtocolModel R)}
    (hkeeps : ∀ pm ∈ models, Y.KeepsModel pm)
    (hsize : ∀ pm ∈ models, ∀ am ∈ pm.attributeMeters,
      am.fingerprint.length = am.kind.fingerprintSize)
    (stale : FirstBytes) (db : ProtocolModelDb R) (factory : AttributeMeterFactory)
    (hnames : (db.protocolModelOrder.map ProtocolModel.name ++
      models.map ProtocolModel.name).Nodup) :
    ∃ db' factory', readModels Y stale db factory (models.map (writeProtocolModel Y)) =
      some (db', factory') ∧ db'.definingLimit = db.definingLimit ∧
      db'.cutoffLimit = db.cutoffLimit ∧
      db'.protocolModelOrder.map ProtocolModel.entry =
        db.protocolModelOrder.map ProtocolModel.entry ++
          (models.filter hasMeter).map ProtocolModel.entry := by
  induction models generalizing db factory with
  | nil => exact ⟨db, factory, rfl, rfl, rfl, (List.append_nil _).symm⟩
  | cons pm models ih =>
    have hkeeps' := fun pm' h => hkeeps pm' (List.mem_cons_of_mem pm h)
    have hsize' := fun pm' h => hsize pm' (List.mem_cons_of_mem pm h)
    rw [List.map_cons] at hnames
    rcases readProtocolModel_write (hkeeps pm List.mem_cons_self) (hsize pm List.mem_cons_self)
      stale factory with ⟨hempty, hread⟩ | ⟨hsome, pm', factory₁, hread, hentry⟩
    · have hnames' := hnames.sublist ((List.sublist_cons_self _ _).append_left _)
      obtain ⟨db', factory', hreads, hdefining, hcutoff, hentries⟩ :=
        ih hkeeps' hsize' db factory hnames'
      refine ⟨db', factory', ?_, hdefining, hcutoff, ?_⟩
      · rw [List.map_cons]
        unfold readModels
        simp only [hread, Option.bind_eq_bind, Option.bind_some, Option.elim_none, hreads]
      · have hout : hasMeter pm = false := by
          unfold hasMeter
          rw [hempty, List.isEmpty_nil, Bool.not_true]
        rw [hentries, List.filter_cons_of_neg (by rw [hout]; exact Bool.false_ne_true)]
    · have hname : pm'.name = pm.name := congrArg ModelEntry.name hentry
      have hnew : pm'.name ∉ db.protocolModelOrder.map ProtocolModel.name := by
        rw [hname]
        exact fun hmem => (List.disjoint_of_nodup_append hnames) hmem List.mem_cons_self
      have horder := addModel_of_new hnew
      have hnames' : ((db.addModel pm').protocolModelOrder.map ProtocolModel.name ++
          models.map ProtocolModel.name).Nodup := by
        rw [horder, List.map_append, List.map_singleton, hname, List.append_assoc,
          List.singleton_append]
        exact hnames
      obtain ⟨db', factory', hreads, hdefining, hcutoff, hentries⟩ :=
        ih hkeeps' hsize' (db.addModel pm') factory₁ hnames'
      obtain ⟨hdefining', hcutoff'⟩ := addModel_limits db pm'
      refine ⟨db', factory', ?_, hdefining.trans hdefining', hcutoff.trans hcutoff', ?_⟩
      · rw [List.map_cons]
        unfold readModels
        simp only [hread, Option.bind_eq_bind, Option.bind_some, Option.elim_some, hreads]
      · have hin : hasMeter pm = true := by
          unfold hasMeter
          rw [List.isEmpty_eq_false_iff.mpr hsome, Bool.not_false]
        rw [hentries, horder, List.filter_cons_of_pos hin, List.map_append, List.map_cons,
          List.map_cons, List.map_nil, hentry, List.append_assoc, List.singleton_append]

/-- **What a written database is read back as.** -/
theorem read_write {file : ProtocolModelFile R} (hkeeps : Y.KeepsFile file)
    (hwell : WellFormed file) (stale : FirstBytes) (now now' : Int)
    (factory : AttributeMeterFactory) :
    ∃ file' factory', read Y stale now' factory (write Y now file) = some (file', factory') ∧
      file'.definingLimit = file.definingLimit ∧ file'.cutoffLimit = file.cutoffLimit ∧
      file'.protocolModelOrder.map ProtocolModel.entry =
        (file.protocolModelOrder.filter hasMeter).map ProtocolModel.entry := by
  have hdefining : (write Y now file).fieldAs Y.uint32 "DefiningLimit" =
      some (some file.definingLimit) := Yaml.fieldAs_of hkeeps.definingLimit rfl
  have hcutoff : (write Y now file).fieldAs Y.uint32 "CutoffLimit" =
      some (some file.cutoffLimit) := Yaml.fieldAs_of hkeeps.cutoffLimit rfl
  have hversion : (write Y now file).fieldAs Y.string "Version" =
      some (some protocolModelVersion) := Yaml.fieldAs_of hkeeps.version rfl
  have htimes : (write Y now file).field "ModifiedTime" =
      some (some (.sequence ((now :: file.modifiedTimes).map (.of Y.isoTime)))) := rfl
  have hitems : (write Y now file).field "ProtocolModels" =
      some ((pushedMember "ProtocolModels"
        (file.protocolModelOrder.map (writeProtocolModel Y))).lookup "ProtocolModels") := rfl
  have hmodels : Yaml.itemsOf ((pushedMember "ProtocolModels"
      (file.protocolModelOrder.map (writeProtocolModel Y))).lookup "ProtocolModels") =
      some (file.protocolModelOrder.map (writeProtocolModel Y)) := by
    cases file.protocolModelOrder <;> rfl
  obtain ⟨db, factory', hreads, hdefining', hcutoff', hentries⟩ :=
    readModels_write hkeeps.models hwell.sizes stale
      { definingLimit := file.definingLimit
        cutoffLimit := adjustCutoff file.definingLimit file.cutoffLimit
        protocolModelOrder := []
        portHintOrder := [] } factory hwell.names
  unfold read
  simp only [hdefining, hcutoff, hversion, htimes, hitems, hmodels, hreads, Option.bind_eq_bind,
    Option.bind_some]
  exact ⟨_, _, rfl, hdefining', hcutoff'.trans hwell.limits, hentries⟩

/-! ## What is read is well formed -/

omit [Double R] in
theorem length_of_readFingerPrint {kind : MeterKind} {node : Option Yaml} {fingerprint : List R}
    (h : readFingerPrint Y kind node = some (some fingerprint)) :
    fingerprint.length = kind.fingerprintSize := by
  unfold readFingerPrint at h
  split at h
  next => cases h
  next node' =>
    split at h
    next hsize =>
      obtain ⟨items, hitems, h⟩ := Option.bind_eq_some_iff.mp h
      obtain ⟨values, hvalues, h⟩ := Option.bind_eq_some_iff.mp h
      cases h
      rw [Keyed.length_of_mapM hvalues, Yaml.length_of_items hitems, hsize]
    next => cases h

/-- Every class that is enabled stays so. -/
def Extends (factory factory' : AttributeMeterFactory) : Prop :=
  ∀ k, factory.enabledAttributes k = true → factory'.enabledAttributes k = true

/-- The meter has the size of its class, which is enabled if the meter is. -/
def Suits (factory : AttributeMeterFactory) (am : AttributeMeter R) : Prop :=
  am.fingerprint.length = am.kind.fingerprintSize ∧
    (am.enabled = true → factory.enabledAttributes am.kind = true)

omit [Double R] in
theorem Suits.mono {factory factory' : AttributeMeterFactory} {am : AttributeMeter R}
    (h : Suits factory am) (hmore : Extends factory factory') : Suits factory' am :=
  ⟨h.1, fun hon => hmore _ (h.2 hon)⟩

variable {stale : FirstBytes} {factory factory' : AttributeMeterFactory}

theorem suits_of_readAttributeMeter {node : Yaml} {am : Option (AttributeMeter R)}
    (h : readAttributeMeter Y stale factory node = some (am, factory')) :
    Extends factory factory' ∧ ∀ am', am = some am' → Suits factory' am' := by
  unfold readAttributeMeter at h
  obtain ⟨name, -, h⟩ := Option.bind_eq_some_iff.mp h
  split at h
  next =>
    cases h
    exact ⟨fun _ hk => hk, fun am' ham => by cases ham⟩
  next kind _ =>
    unfold readMeterOf at h
    obtain ⟨enabled, -, h⟩ := Option.bind_eq_some_iff.mp h
    obtain ⟨flowCount, -, h⟩ := Option.bind_eq_some_iff.mp h
    obtain ⟨node', -, h⟩ := Option.bind_eq_some_iff.mp h
    obtain ⟨fingerprint, hprint, h⟩ := Option.bind_eq_some_iff.mp h
    cases h
    constructor
    · intro k hk
      split
      · exact Bool.or_eq_true_iff.mpr (Or.inr hk)
      · exact hk
    · intro am' ham
      obtain ⟨values, rfl, rfl⟩ := Option.map_eq_some_iff.mp ham
      refine ⟨length_of_readFingerPrint hprint, fun hon => ?_⟩
      have henabled : enabled.getD false = true := (Bool.and_eq_true_iff.mp hon).1
      rw [if_pos henabled]
      exact Bool.or_eq_true_iff.mpr (Or.inl (beq_self_eq_true kind))

theorem suits_of_readAttributeMeters {nodes : List Yaml} {ams : Option (List (AttributeMeter R))}
    (h : readAttributeMeters Y stale factory nodes = some (ams, factory')) :
    Extends factory factory' ∧ ∀ ams', ams = some ams' → ∀ am ∈ ams', Suits factory' am := by
  induction nodes generalizing factory ams with
  | nil =>
    cases h
    refine ⟨fun _ hk => hk, fun ams' hams am ham => ?_⟩
    cases hams
    exact absurd ham List.not_mem_nil
  | cons node nodes ih =>
    unfold readAttributeMeters at h
    obtain ⟨⟨am, factory₁⟩, hread, h⟩ := Option.bind_eq_some_iff.mp h
    obtain ⟨hmore, hsuits⟩ := suits_of_readAttributeMeter hread
    simp only at h
    split at h
    next =>
      cases h
      exact ⟨hmore, fun ams' hams => by cases hams⟩
    next am' =>
      obtain ⟨⟨ams₁, factory₂⟩, hreads, h⟩ := Option.bind_eq_some_iff.mp h
      cases h
      obtain ⟨hmore', hsuits'⟩ := ih hreads
      refine ⟨fun k hk => hmore' k (hmore k hk), fun ams' hams am ham => ?_⟩
      obtain ⟨ams₂, rfl, rfl⟩ := Option.map_eq_some_iff.mp hams
      rcases List.mem_cons.mp ham with rfl | ham
      · exact (hsuits am rfl).mono hmore'
      · exact hsuits' ams₂ rfl am ham

theorem suits_of_readProtocolModel {node : Yaml} {pm : Option (ProtocolModel R)}
    (h : readProtocolModel Y stale factory node = some (pm, factory')) :
    Extends factory factory' ∧ ∀ pm', pm = some pm' → ∀ am ∈ pm'.attributeMeters,
      Suits factory' am := by
  unfold readProtocolModel at h
  obtain ⟨name, -, h⟩ := Option.bind_eq_some_iff.mp h
  split at h
  next =>
    cases h
    exact ⟨fun _ hk => hk, fun pm' hpm => by cases hpm⟩
  next =>
    obtain ⟨flowCount, -, h⟩ := Option.bind_eq_some_iff.mp h
    obtain ⟨enabled, -, h⟩ := Option.bind_eq_some_iff.mp h
    obtain ⟨portNode, -, h⟩ := Option.bind_eq_some_iff.mp h
    obtain ⟨hintItems, -, h⟩ := Option.bind_eq_some_iff.mp h
    obtain ⟨portHints, -, h⟩ := Option.bind_eq_some_iff.mp h
    obtain ⟨meterNode, -, h⟩ := Option.bind_eq_some_iff.mp h
    obtain ⟨⟨ams, factory₁⟩, hmeters, h⟩ := Option.bind_eq_some_iff.mp h
    cases h
    unfold readModelMeters at hmeters
    split at hmeters
    next =>
      cases hmeters
      exact ⟨fun _ hk => hk, fun pm' hpm => by cases hpm⟩
    next =>
      obtain ⟨items, -, hmeters⟩ := Option.bind_eq_some_iff.mp hmeters
      obtain ⟨hmore, hsuits⟩ := suits_of_readAttributeMeters hmeters
      refine ⟨hmore, fun pm' hpm => ?_⟩
      obtain ⟨ams', rfl, rfl⟩ := Option.map_eq_some_iff.mp hpm
      exact hsuits ams' rfl

/-- What holds of the models between two turns of the loop that reads them. -/
structure Loaded (factory : AttributeMeterFactory) (db : ProtocolModelDb R) : Prop where
  names : (db.protocolModelOrder.map ProtocolModel.name).Nodup
  meters : ∀ pm ∈ db.protocolModelOrder, ∀ am ∈ pm.attributeMeters, Suits factory am

omit [Double R] in
theorem Loaded.addModel {db : ProtocolModelDb R} (h : Loaded factory db)
    {pm : ProtocolModel R} (hpm : ∀ am ∈ pm.attributeMeters, Suits factory am) :
    Loaded factory (db.addModel pm) := by
  by_cases hnew : pm.name ∈ db.protocolModelOrder.map ProtocolModel.name
  · have hsame : db.addModel pm = db := by
      have htaken : (db.protocolModelOrder.any fun pm' => pm'.name == pm.name) = true := by
        obtain ⟨pm', hpm', hname⟩ := List.mem_map.mp hnew
        exact List.any_eq_true.mpr ⟨pm', hpm', beq_iff_eq.mpr hname⟩
      unfold ProtocolModelDb.addModel
      rw [if_pos htaken]
    rw [hsame]
    exact h
  · constructor
    · rw [addModel_of_new hnew, List.map_append, List.map_singleton]
      exact h.names.append (List.nodup_singleton _)
        (List.disjoint_singleton.mpr hnew)
    · intro pm' hpm'
      rw [addModel_of_new hnew] at hpm'
      rcases List.mem_append.mp hpm' with hold | hlast
      · exact h.meters pm' hold
      · cases List.mem_singleton.mp hlast
        exact hpm

theorem Loaded.readModels {db db' : ProtocolModelDb R} (h : Loaded factory db)
    {nodes : List Yaml} (hread : readModels Y stale db factory nodes = some (db', factory')) :
    Loaded factory' db' ∧ db'.definingLimit = db.definingLimit ∧
      db'.cutoffLimit = db.cutoffLimit := by
  induction nodes generalizing db factory with
  | nil =>
    cases hread
    exact ⟨h, rfl, rfl⟩
  | cons node nodes ih =>
    unfold ProtocolModelFile.readModels at hread
    obtain ⟨⟨pm, factory₁⟩, hmodel, hrest⟩ := Option.bind_eq_some_iff.mp hread
    obtain ⟨hmore, hsuits⟩ := suits_of_readProtocolModel hmodel
    have h' : Loaded factory₁ db :=
      ⟨h.names, fun pm' hpm' am ham => (h.meters pm' hpm' am ham).mono hmore⟩
    cases pm with
    | none => exact ih h' hrest
    | some pm =>
      obtain ⟨hloaded, hdefining, hcutoff⟩ := ih (h'.addModel (hsuits pm rfl)) hrest
      obtain ⟨hdefining', hcutoff'⟩ := addModel_limits db pm
      exact ⟨hloaded, hdefining.trans hdefining', hcutoff.trans hcutoff'⟩

/-- Once adjusted, a cutoff limit stays as it is. -/
theorem adjustCutoff_adjustCutoff (definingLimit cutoffLimit : UInt32) :
    adjustCutoff definingLimit (adjustCutoff definingLimit cutoffLimit) =
      adjustCutoff definingLimit cutoffLimit := by
  unfold adjustCutoff
  grind

/-- A read that succeeds has come past every member, and to the end of the models. -/
theorem read_eq_some {now : Int} {root : Yaml} {file : ProtocolModelFile R}
    (h : read Y stale now factory root = some (file, factory')) :
    ∃ definingLimit cutoffLimit version modifiedTime items db,
      root.fieldAs Y.uint32 "DefiningLimit" = some (some definingLimit) ∧
      root.fieldAs Y.uint32 "CutoffLimit" = some (some cutoffLimit) ∧
      root.fieldAs Y.string "Version" = some version ∧
      root.field "ModifiedTime" = some modifiedTime ∧
      (root.field "ProtocolModels").bind Yaml.itemsOf = some items ∧
      readModels Y stale
          { definingLimit := definingLimit
            cutoffLimit := adjustCutoff definingLimit cutoffLimit
            protocolModelOrder := []
            portHintOrder := [] } factory items = some (db, factory') ∧
      file =
        { db.fillPortHintOrder with
          version := version.getD firstVersion
          modifiedTimes := readModifiedTimes Y now modifiedTime } := by
  unfold read at h
  obtain ⟨defining, hdefining, h⟩ := Option.bind_eq_some_iff.mp h
  obtain ⟨definingLimit, hdefining', h⟩ := Option.bind_eq_some_iff.mp h
  obtain ⟨cutoff, hcutoff, h⟩ := Option.bind_eq_some_iff.mp h
  obtain ⟨cutoffLimit, hcutoff', h⟩ := Option.bind_eq_some_iff.mp h
  obtain ⟨version, hversion, h⟩ := Option.bind_eq_some_iff.mp h
  obtain ⟨modifiedTime, htimes, h⟩ := Option.bind_eq_some_iff.mp h
  obtain ⟨models, hfield, h⟩ := Option.bind_eq_some_iff.mp h
  obtain ⟨items, hitems, h⟩ := Option.bind_eq_some_iff.mp h
  obtain ⟨⟨db, factory₁⟩, hmodels, h⟩ := Option.bind_eq_some_iff.mp h
  cases h
  rw [hdefining'] at hdefining
  rw [hcutoff'] at hcutoff
  exact ⟨definingLimit, cutoffLimit, version, modifiedTime, items, db, hdefining, hcutoff, hversion,
    htimes, Option.bind_eq_some_iff.mpr ⟨models, hfield, hitems⟩, hmodels, rfl⟩

/-- **What is read is well formed**, and the classes of its enabled meters are enabled. -/
theorem wellFormed_of_read {now : Int} {root : Yaml} {file : ProtocolModelFile R}
    (h : read Y stale now factory root = some (file, factory')) :
    WellFormed file ∧ ∀ pm ∈ file.protocolModelOrder, ∀ am ∈ pm.attributeMeters,
      Suits factory' am := by
  obtain ⟨definingLimit, cutoffLimit, version, modifiedTime, items, db, -, -, -, -, -, hmodels,
    rfl⟩ := read_eq_some h
  have hempty : Loaded factory
      { definingLimit := definingLimit
        cutoffLimit := adjustCutoff definingLimit cutoffLimit
        protocolModelOrder := ([] : List (ProtocolModel R))
        portHintOrder := [] } :=
    ⟨List.nodup_nil, fun pm hpm => absurd hpm List.not_mem_nil⟩
  obtain ⟨hloaded, hdefining, hcutoff⟩ := hempty.readModels hmodels
  refine ⟨⟨?_, hloaded.names, fun pm hpm am ham => (hloaded.meters pm hpm am ham).1⟩,
    hloaded.meters⟩
  change adjustCutoff db.definingLimit db.cutoffLimit = db.cutoffLimit
  rw [hdefining, hcutoff]
  exact adjustCutoff_adjustCutoff definingLimit cutoffLimit

/-! ## Where the meters come from -/

/-- The meter was made from a node. -/
def IsRead (Y : Conversions R) (stale : FirstBytes) (am : AttributeMeter R) : Prop :=
  ∃ factory node factory', readAttributeMeter Y stale factory node = some (some am, factory')

theorem isRead_of_readAttributeMeters {nodes : List Yaml} {ams : List (AttributeMeter R)}
    (h : readAttributeMeters Y stale factory nodes = some (some ams, factory')) :
    ∀ am ∈ ams, IsRead Y stale am := by
  induction nodes generalizing factory factory' ams with
  | nil =>
    cases h
    exact fun am ham => absurd ham List.not_mem_nil
  | cons node nodes ih =>
    unfold readAttributeMeters at h
    obtain ⟨⟨am, factory₁⟩, hread, h⟩ := Option.bind_eq_some_iff.mp h
    simp only at h
    split at h
    next => cases h
    next am =>
      obtain ⟨⟨ams₁, factory₂⟩, hreads, h⟩ := Option.bind_eq_some_iff.mp h
      obtain ⟨hams, -⟩ := Prod.mk.inj (Option.some.inj h)
      obtain ⟨ams₂, rfl, rfl⟩ := Option.map_eq_some_iff.mp hams
      exact List.forall_mem_cons.mpr ⟨⟨_, _, _, hread⟩, ih hreads⟩

theorem isRead_of_readProtocolModel {node : Yaml} {pm : ProtocolModel R}
    (h : readProtocolModel Y stale factory node = some (some pm, factory')) :
    ∀ am ∈ pm.attributeMeters, IsRead Y stale am := by
  unfold readProtocolModel at h
  obtain ⟨name, -, h⟩ := Option.bind_eq_some_iff.mp h
  split at h
  next => cases h
  next =>
    obtain ⟨flowCount, -, h⟩ := Option.bind_eq_some_iff.mp h
    obtain ⟨enabled, -, h⟩ := Option.bind_eq_some_iff.mp h
    obtain ⟨portNode, -, h⟩ := Option.bind_eq_some_iff.mp h
    obtain ⟨hintItems, -, h⟩ := Option.bind_eq_some_iff.mp h
    obtain ⟨portHints, -, h⟩ := Option.bind_eq_some_iff.mp h
    obtain ⟨meterNode, -, h⟩ := Option.bind_eq_some_iff.mp h
    obtain ⟨⟨ams, factory₁⟩, hmeters, h⟩ := Option.bind_eq_some_iff.mp h
    obtain ⟨hpm, -⟩ := Prod.mk.inj (Option.some.inj h)
    obtain ⟨ams', rfl, rfl⟩ := Option.map_eq_some_iff.mp hpm
    unfold readModelMeters at hmeters
    split at hmeters
    next => cases hmeters
    next =>
      obtain ⟨items, -, hmeters⟩ := Option.bind_eq_some_iff.mp hmeters
      exact isRead_of_readAttributeMeters hmeters

theorem isRead_of_readModels {db db' : ProtocolModelDb R} {nodes : List Yaml}
    (h : readModels Y stale db factory nodes = some (db', factory'))
    (hdb : ∀ pm ∈ db.protocolModelOrder, ∀ am ∈ pm.attributeMeters, IsRead Y stale am) :
    ∀ pm ∈ db'.protocolModelOrder, ∀ am ∈ pm.attributeMeters, IsRead Y stale am := by
  induction nodes generalizing db factory with
  | nil =>
    cases h
    exact hdb
  | cons node nodes ih =>
    unfold readModels at h
    obtain ⟨⟨pm, factory₁⟩, hmodel, hrest⟩ := Option.bind_eq_some_iff.mp h
    cases pm with
    | none => exact ih hrest hdb
    | some pm =>
      refine ih hrest fun pm' hpm' => ?_
      unfold Option.elim ProtocolModelDb.addModel at hpm'
      simp only at hpm'
      split at hpm'
      next => exact hdb pm' hpm'
      next =>
        rcases List.mem_append.mp hpm' with hold | hlast
        · exact hdb pm' hold
        · cases List.mem_singleton.mp hlast
          exact isRead_of_readProtocolModel hmodel

/-- Every meter that was read says so. -/
theorem fromDb_of_read {now : Int} {root : Yaml} {file : ProtocolModelFile R}
    (h : read Y stale now factory root = some (file, factory')) :
    ∀ pm ∈ file.protocolModelOrder, ∀ am ∈ pm.attributeMeters, am.fromDb = true := by
  obtain ⟨definingLimit, cutoffLimit, version, modifiedTime, items, db, -, -, -, -, -, hmodels,
    rfl⟩ := read_eq_some h
  intro pm hpm am ham
  obtain ⟨factory₂, node, factory₃, hread⟩ := isRead_of_readModels hmodels
    (fun pm hpm => absurd hpm List.not_mem_nil) pm hpm am ham
  unfold readAttributeMeter at hread
  obtain ⟨name, -, hread⟩ := Option.bind_eq_some_iff.mp hread
  split at hread
  next => cases hread
  next kind _ =>
    unfold readMeterOf at hread
    obtain ⟨enabled, -, hread⟩ := Option.bind_eq_some_iff.mp hread
    obtain ⟨flowCount, -, hread⟩ := Option.bind_eq_some_iff.mp hread
    obtain ⟨node', -, hread⟩ := Option.bind_eq_some_iff.mp hread
    obtain ⟨fingerprint, -, hread⟩ := Option.bind_eq_some_iff.mp hread
    obtain ⟨ham, -⟩ := Prod.mk.inj (Option.some.inj hread)
    obtain ⟨values, -, rfl⟩ := Option.map_eq_some_iff.mp ham
    rfl

/-! ## Training keeps a database well formed -/

theorem merge_kind (m other : AttributeMeter R) : (m.merge other).kind = m.kind := by
  unfold AttributeMeter.merge
  split
  · rfl
  · split <;> rfl

theorem merge_length (m other : AttributeMeter R) :
    (m.merge other).fingerprint.length = m.fingerprint.length := by
  unfold AttributeMeter.merge
  split
  · rfl
  · split
    · rfl
    · exact List.length_mapIdx

omit [Double R] in
/-- Every meter of the model has the size of its class. -/
def Sized (pm : ProtocolModel R) : Prop :=
  ∀ am ∈ pm.attributeMeters, am.fingerprint.length = am.kind.fingerprintSize

theorem sized_mergeMeter {pm : ProtocolModel R} (h : Sized pm) (other : AttributeMeter R) :
    Sized (pm.mergeMeter other) := by
  unfold ProtocolModel.mergeMeter
  split
  · exact h
  · refine Keyed.forall_mem_modify (fun am ham => ?_) h _
    rw [merge_length, merge_kind, ham]

theorem sized_learn {pm : ProtocolModel R} (h : Sized pm) (meters : List (AttributeMeter R)) :
    Sized (pm.learn meters) := by
  have hfold : ∀ pm' : ProtocolModel R, Sized pm' →
      Sized (meters.foldl ProtocolModel.mergeMeter pm') := by
    induction meters with
    | nil => exact fun pm' h' => h'
    | cons m meters ih => exact fun pm' h' => ih _ (sized_mergeMeter h' m)
  exact hfold { pm with flowCount := pm.flowCount + 1 } h

theorem learn_name (pm : ProtocolModel R) (meters : List (AttributeMeter R)) :
    (pm.learn meters).name = pm.name := by
  have hmerge : ∀ (pm' : ProtocolModel R) m, (pm'.mergeMeter m).name = pm'.name := by
    intro pm' m
    unfold ProtocolModel.mergeMeter
    split <;> rfl
  have hfold : ∀ pm' : ProtocolModel R,
      (meters.foldl ProtocolModel.mergeMeter pm').name = pm'.name := by
    induction meters with
    | nil => exact fun pm' => rfl
    | cons m meters ih => exact fun pm' => (ih _).trans (hmerge pm' m)
  exact hfold { pm with flowCount := pm.flowCount + 1 }

theorem wellFormed_train {file : ProtocolModelFile R} (h : WellFormed file)
    (flow : String × List (AttributeMeter R)) : WellFormed (file.train flow) := by
  unfold train
  split
  · exact h
  · refine ⟨h.limits, ?_, ?_⟩
    · rw [Keyed.map_modify fun pm => learn_name pm flow.2]
      exact h.names
    · exact Keyed.forall_mem_modify (P := Sized) (fun pm hpm => sized_learn hpm flow.2) h.sizes _

/-! ## The round trip -/

omit [Double R] in
theorem filter_hasMeter_entries {models : List (ProtocolModel R)} :
    (models.filter hasMeter).map ProtocolModel.entry = models.map ProtocolModel.entry ↔
      ∀ pm ∈ models, pm.attributeMeters ≠ [] := by
  constructor
  · intro h pm hpm
    have hlength : (models.filter hasMeter).length = models.length := by
      have := congrArg List.length h
      rwa [List.length_map, List.length_map] at this
    have hall := List.length_filter_eq_length_iff.mp hlength pm hpm
    unfold hasMeter at hall
    rw [Bool.not_eq_true', List.isEmpty_eq_false_iff] at hall
    exact hall
  · intro h
    rw [List.filter_eq_self.mpr]
    intro pm hpm
    unfold hasMeter
    rw [List.isEmpty_eq_false_iff.mpr (h pm hpm), Bool.not_false]

/-- **A database survives the file exactly when each of its models has a meter.** It was read and
then trained with any number of flows; its scalars survive. -/
theorem roundTrip_iff {stale₀ : FirstBytes} {factory₀ : AttributeMeterFactory} {now₀ : Int}
    {root : Yaml} {file₀ : ProtocolModelFile R}
    (hread : read Y stale₀ now₀ factory₀ root = some (file₀, factory'))
    (flows : List (String × List (AttributeMeter R)))
    (hkeeps : Y.KeepsFile (flows.foldl train file₀)) (stale : FirstBytes) (now now' : Int)
    (factory : AttributeMeterFactory) :
    (∃ file' factory'', read Y stale now' factory (write Y now (flows.foldl train file₀)) =
        some (file', factory'') ∧
      file'.definingLimit = (flows.foldl train file₀).definingLimit ∧
      file'.cutoffLimit = (flows.foldl train file₀).cutoffLimit ∧
      file'.protocolModelOrder.map ProtocolModel.entry =
        (flows.foldl train file₀).protocolModelOrder.map ProtocolModel.entry) ↔
      ∀ pm ∈ (flows.foldl train file₀).protocolModelOrder, pm.attributeMeters ≠ [] := by
  have hwell : WellFormed (flows.foldl train file₀) := by
    have hfold : ∀ file : ProtocolModelFile R, WellFormed file →
        WellFormed (flows.foldl train file) := by
      clear hkeeps
      induction flows with
      | nil => exact fun file h => h
      | cons flow flows ih => exact fun file h => ih _ (wellFormed_train h flow)
    exact hfold file₀ (wellFormed_of_read hread).1
  obtain ⟨file', factory'', hagain, hdefining, hcutoff, hentries⟩ :=
    read_write hkeeps hwell stale now now' factory
  rw [← filter_hasMeter_entries]
  constructor
  · rintro ⟨file'', factory₃, hagain', -, -, hsame⟩
    rw [hagain] at hagain'
    cases hagain'
    rw [← hentries, hsame]
  · intro hsame
    exact ⟨file', factory'', hagain, hdefining, hcutoff, hentries.trans hsame⟩

/-! ## Two files -/

/-- A codec that knows some values only. -/
def knownCodec {α : Type} [BEq α] (texts : List (α × String)) : Codec α :=
  { encode := fun x => (texts.lookup x).getD ""
    decode := fun text => (texts.find? fun entry => entry.2 == text).map Prod.fst }

/-- The scalars of the files below, as they are written in YAML. -/
def knownScalars : Conversions ℚ :=
  { string := { encode := id, decode := some }
    uint32 := knownCodec [(0, "0"), (1, "1"), (2, "2"), (10, "10"), (100, "100")]
    uint16 := knownCodec [(0, "0"), (22, "22")]
    bool := knownCodec [(true, "true"), (false, "false")]
    double := knownCodec [(0, "0"), (1, "1")]
    isoTime := knownCodec [(0, "19700101T000000")] }

/-- A file with one model, whose meters are given. -/
def sshRoot (meters : Yaml) : Yaml :=
  .map
    [("DefiningLimit", .scalar "10"), ("CutoffLimit", .scalar "100"),
      ("ProtocolModels", .sequence
        [.map
          [("ProtocolName", .scalar "SSH"), ("FlowCount", .scalar "1"),
            ("Enabled", .scalar "true"), ("PortHints", .sequence [.scalar "22"]),
            ("AttributeMeters", meters)]])]

/-- The size of the first packet. -/
def sizeMeter : Yaml :=
  .map
    [("AttributeName", .scalar "PayloadSizeFirstPacketMeter"), ("Enabled", .scalar "true"),
      ("FlowCount", .scalar "1"), ("FingerPrint", .sequence [.scalar "0", .scalar "1"])]

/-- No class is enabled before the database is read. -/
def freshFactory : AttributeMeterFactory := { enabledAttributes := fun _ => false }

/-- A finished SSH flow, as training sees it. -/
def sshFlow : String × List (AttributeMeter ℚ) :=
  ("SSH", [AttributeMeter.create .payloadSizeFirstPacket fun _ => 0])

theorem exists_read (root : Yaml) (seen : ProtocolModelFile ℚ → Bool)
    (h : (read knownScalars (fun _ => 0) 0 freshFactory root).any (fun r => seen r.1) = true) :
    ∃ file factory', read knownScalars (fun _ => 0) 0 freshFactory root = some (file, factory') ∧
      seen file = true := by
  obtain ⟨⟨file, factory'⟩, hread, hseen⟩ := (Option.any_eq_true _ _).mp h
  exact ⟨file, factory', hread, hseen⟩

/-- A file with a meter in its model survives. -/
theorem sshRoot_roundTrip :
    ∃ file₀ factory' file' factory'',
      read knownScalars (fun _ => 0) 0 freshFactory (sshRoot (.sequence [sizeMeter])) =
        some (file₀, factory') ∧
      read knownScalars (fun _ => 0) 0 freshFactory (write knownScalars 0 (file₀.train sshFlow)) =
        some (file', factory'') ∧
      file'.protocolModelOrder.map ProtocolModel.entry =
        (file₀.train sshFlow).protocolModelOrder.map ProtocolModel.entry := by
  obtain ⟨file₀, factory', hread, hseen⟩ :=
    exists_read (sshRoot (.sequence [sizeMeter]))
      (fun file => decide (knownScalars.KeepsFile (file.train sshFlow)) &&
        (file.train sshFlow).protocolModelOrder.all fun pm => !pm.attributeMeters.isEmpty)
      (by decide +kernel)
  obtain ⟨hkeeps, hmeters⟩ := Bool.and_eq_true_iff.mp hseen
  have hsome : ∀ pm ∈ (file₀.train sshFlow).protocolModelOrder, pm.attributeMeters ≠ [] := by
    intro pm hpm
    have hmeter := List.all_eq_true.mp hmeters pm hpm
    rwa [Bool.not_eq_true', List.isEmpty_eq_false_iff] at hmeter
  obtain ⟨file', factory'', hagain, -, -, hsame⟩ :=
    (roundTrip_iff hread [sshFlow] (of_decide_eq_true hkeeps) (fun _ => 0) 0 0 freshFactory).mpr
      hsome
  exact ⟨file₀, factory', file', factory'', hread, hagain, hsame⟩

/-- A model whose list of meters is empty is accepted, and is not in the file that is written. -/
theorem sshRoot_loses :
    ∃ file₀ factory' file' factory'',
      read knownScalars (fun _ => 0) 0 freshFactory (sshRoot .null) = some (file₀, factory') ∧
      knownScalars.KeepsFile file₀ ∧ file₀.size = 1 ∧
      read knownScalars (fun _ => 0) 0 freshFactory (write knownScalars 0 file₀) =
        some (file', factory'') ∧ file'.size = 0 := by
  obtain ⟨file₀, factory', hread, hseen⟩ :=
    exists_read (sshRoot .null)
      (fun file => decide (knownScalars.KeepsFile file) && (file.size == 1 &&
        (read knownScalars (fun _ => 0) 0 freshFactory (write knownScalars 0 file)).any
          fun r => r.1.size == 0))
      (by decide +kernel)
  obtain ⟨hkeeps, hseen⟩ := Bool.and_eq_true_iff.mp hseen
  obtain ⟨hone, hagain⟩ := Bool.and_eq_true_iff.mp hseen
  obtain ⟨⟨file', factory''⟩, hagain, hnone⟩ := (Option.any_eq_true _ _).mp hagain
  exact ⟨file₀, factory', file', factory'', hread, of_decide_eq_true hkeeps, beq_iff_eq.mp hone,
    hagain, beq_iff_eq.mp hnone⟩

end ProtocolModelFile

end Vsid
