import Vsid.Laws.SwitchedOff

/-!
# Training what is switched off

A model that is off can still be trained. Until it is switched on, this has no effect on what is
classified: the database may be trained with any flows of such models, saved and loaded
(`retrained_decides`), although saving it loses the models without a meter.
-/

set_option autoImplicit false

namespace Vsid

variable {R : Type}

/-! ## What is saved -/

namespace ModelEntry

/-- The entry without its meters that are off. -/
def active (entry : ModelEntry R) : ActiveModel R :=
  { name := entry.name, portHints := entry.portHints,
    meters := (entry.attributeMeters.filter (·.enabled)).map fun am => (am.kind, am.fingerprint) }

/-- The entry has a meter that is on, and is on itself. -/
def matters (entry : ModelEntry R) : Bool :=
  entry.enabled && entry.attributeMeters.any (·.enabled)

end ModelEntry

theorem ProtocolModel.active_entry (pm : ProtocolModel R) : pm.entry.active = pm.active := by
  unfold entry ModelEntry.active active
  simp only [List.filter_map, List.map_map]
  rfl

theorem ProtocolModel.matters_entry (pm : ProtocolModel R) : pm.entry.matters = pm.matters := by
  unfold entry ModelEntry.matters matters
  simp only [List.any_map]
  rfl

/-- What is compared can be told from what is saved. -/
theorem map_active_eq (models : List (ProtocolModel R)) :
    (models.filter (·.matters)).map ProtocolModel.active =
      ((models.map ProtocolModel.entry).filter (·.matters)).map ModelEntry.active := by
  rw [List.filter_map, List.map_map]
  have hmatters : (fun entry : ModelEntry R => entry.matters) ∘ ProtocolModel.entry =
      fun pm => pm.matters := funext ProtocolModel.matters_entry
  have hactive : ModelEntry.active ∘ ProtocolModel.entry = ProtocolModel.active (R := R) :=
    funext ProtocolModel.active_entry
  rw [hmatters, hactive]

/-- **Saving loses nothing that is compared.** -/
theorem active_of_saved {db db' : ProtocolModelDb R}
    (h : db'.protocolModelOrder.map ProtocolModel.entry =
      (db.protocolModelOrder.filter ProtocolModelFile.hasMeter).map ProtocolModel.entry) :
    db'.active = db.active := by
  have hmeter : ∀ pm : ProtocolModel R,
      (pm.matters && ProtocolModelFile.hasMeter pm) = pm.matters := by
    intro pm
    unfold ProtocolModel.matters ProtocolModelFile.hasMeter
    cases pm.attributeMeters with
    | nil => rw [List.any_nil, Bool.and_false, Bool.false_and]
    | cons am ams => rw [List.isEmpty_cons, Bool.not_false, Bool.and_true]
  unfold ProtocolModelDb.active
  rw [map_active_eq, h, ← map_active_eq, List.filter_filter]
  simp only [hmeter]

/-- The hints are saved. -/
theorem portHints_of_saved {db db' : ProtocolModelDb R} {P : List UInt16 → Prop}
    (h : db'.protocolModelOrder.map ProtocolModel.entry =
      (db.protocolModelOrder.filter ProtocolModelFile.hasMeter).map ProtocolModel.entry)
    (hP : ∀ pm ∈ db.protocolModelOrder, P pm.portHints) :
    ∀ pm ∈ db'.protocolModelOrder, P pm.portHints := by
  intro pm hpm
  have hentry := List.mem_map_of_mem (f := ProtocolModel.entry) hpm
  rw [h] at hentry
  obtain ⟨pm', hpm', hsame⟩ := List.mem_map.mp hentry
  have hhints : pm'.portHints = pm.portHints := congrArg ModelEntry.portHints hsame
  rw [← hhints]
  exact hP pm' (List.mem_of_mem_filter hpm')

/-! ## What is trained -/

variable [Double R]

/-- A model that matters is the same, and another one still does not matter. -/
structure ProtocolModel.Untouched (pm pm' : ProtocolModel R) : Prop where
  name : pm'.name = pm.name
  portHints : pm'.portHints = pm.portHints
  matters : pm'.matters = pm.matters
  same : pm.matters = true → pm' = pm

namespace ProtocolModel

omit [Double R] in
theorem Untouched.refl (pm : ProtocolModel R) : pm.Untouched pm := ⟨rfl, rfl, rfl, fun _ => rfl⟩

/-- What a model learns switches nothing on or off. -/
theorem learn_enabled (pm : ProtocolModel R) (meters : List (AttributeMeter R)) :
    (pm.learn meters).portHints = pm.portHints ∧ (pm.learn meters).enabled = pm.enabled ∧
      (pm.learn meters).attributeMeters.map (·.enabled) = pm.attributeMeters.map (·.enabled) := by
  have hmerge : ∀ am other : AttributeMeter R, (am.merge other).enabled = am.enabled := by
    intro am other
    unfold AttributeMeter.merge
    split
    · rfl
    · split
      · rfl
      · rfl
  have hfold : ∀ pm : ProtocolModel R,
      (meters.foldl mergeMeter pm).portHints = pm.portHints ∧
        (meters.foldl mergeMeter pm).enabled = pm.enabled ∧
        (meters.foldl mergeMeter pm).attributeMeters.map (·.enabled) =
          pm.attributeMeters.map (·.enabled) := by
    induction meters with
    | nil => exact fun pm => ⟨rfl, rfl, rfl⟩
    | cons other meters ih =>
      intro pm
      obtain ⟨hhints, henabled, hmeters⟩ := ih (pm.mergeMeter other)
      rw [List.foldl_cons, hhints, henabled, hmeters]
      unfold mergeMeter
      split
      · exact ⟨rfl, rfl, rfl⟩
      · exact ⟨rfl, rfl, Keyed.map_modify (fun am => hmerge am other) _ _⟩
  exact hfold { pm with flowCount := pm.flowCount + 1 }

theorem Untouched.learn {pm : ProtocolModel R} (hoff : pm.matters = false)
    (meters : List (AttributeMeter R)) : pm.Untouched (pm.learn meters) := by
  obtain ⟨hhints, henabled, hmeters⟩ := learn_enabled pm meters
  have hmatters : (pm.learn meters).matters = pm.matters := by
    have hany := congrArg (List.any · id) hmeters
    simp only [List.any_map] at hany
    unfold ProtocolModel.matters
    rw [henabled]
    exact congrArg (pm.enabled && ·) hany
  refine ⟨ProtocolModelFile.learn_name pm meters, hhints, hmatters, fun hon => ?_⟩
  rw [hoff] at hon
  cases hon

end ProtocolModel

namespace ProtocolModelFile

open ProtocolModel

/-- A flow of a model that does not matter. -/
theorem untouched_train {file : ProtocolModelFile R} {flow : String × List (AttributeMeter R)}
    (hoff : ∀ pm ∈ file.protocolModelOrder, pm.name = flow.1 → pm.matters = false) :
    List.Forall₂ Untouched file.protocolModelOrder (file.train flow).protocolModelOrder := by
  unfold train
  cases hfind : file.protocolModelOrder.findIdx? fun pm => pm.name == flow.1 with
  | none => exact List.forall₂_same.mpr fun pm _ => Untouched.refl pm
  | some i =>
    refine Keyed.forall₂_modify Untouched.refl fun pm hpm => ?_
    obtain ⟨hlt, hname, -⟩ := List.findIdx?_eq_some_iff_getElem.mp hfind
    rw [List.getElem?_eq_getElem hlt] at hpm
    cases hpm
    exact Untouched.learn (hoff _ (List.getElem_mem hlt) (beq_iff_eq.mp hname)) flow.2

omit [Double R] in
theorem active_of_untouched {models models' : List (ProtocolModel R)}
    (h : List.Forall₂ Untouched models models') :
    (models'.filter (·.matters)).map ProtocolModel.active =
      (models.filter (·.matters)).map ProtocolModel.active := by
  induction h with
  | nil => rfl
  | @cons pm pm' models models' hpm hrest ih =>
    rw [List.filter_cons, List.filter_cons, hpm.matters]
    cases hmatters : pm.matters with
    | true => rw [if_pos rfl, if_pos rfl, List.map_cons, List.map_cons, ih, hpm.same hmatters]
    | false => rw [if_neg Bool.false_ne_true, if_neg Bool.false_ne_true, ih]

/-- **Any flows of models that do not matter.** -/
theorem active_trainAll {file : ProtocolModelFile R}
    {flows : List (String × List (AttributeMeter R))} {P : List UInt16 → Prop}
    (hoff : ∀ flow ∈ flows, ∀ pm ∈ file.protocolModelOrder, pm.name = flow.1 →
      pm.matters = false)
    (hP : ∀ pm ∈ file.protocolModelOrder, P pm.portHints) :
    (flows.foldl train file).active = file.active ∧
      (flows.foldl train file).definingLimit = file.definingLimit ∧
      (flows.foldl train file).cutoffLimit = file.cutoffLimit ∧
      ∀ pm ∈ (flows.foldl train file).protocolModelOrder, P pm.portHints := by
  induction flows generalizing file with
  | nil => exact ⟨rfl, rfl, rfl, hP⟩
  | cons flow flows ih =>
    obtain ⟨hflow, hrest⟩ := List.forall_mem_cons.mp hoff
    have hone := untouched_train hflow
    have hoff' : ∀ other ∈ flows, ∀ pm ∈ (file.train flow).protocolModelOrder,
        pm.name = other.1 → pm.matters = false := by
      intro other hother pm' hpm' hname
      obtain ⟨pm, hpm, hsame⟩ := Keyed.exists_of_forall₂_right hone hpm'
      rw [hsame.matters]
      exact hrest other hother pm hpm (hsame.name.symm.trans hname)
    have hP' : ∀ pm ∈ (file.train flow).protocolModelOrder, P pm.portHints := by
      intro pm' hpm'
      obtain ⟨pm, hpm, hsame⟩ := Keyed.exists_of_forall₂_right hone hpm'
      rw [hsame.portHints]
      exact hP pm hpm
    have hlimits : (file.train flow).definingLimit = file.definingLimit ∧
        (file.train flow).cutoffLimit = file.cutoffLimit := by
      unfold train
      split
      · exact ⟨rfl, rfl⟩
      · exact ⟨rfl, rfl⟩
    obtain ⟨hactive, hdefining, hcutoff, hhints⟩ := ih hoff' hP'
    rw [List.foldl_cons]
    exact ⟨hactive.trans (active_of_untouched hone), hdefining.trans hlimits.1,
      hcutoff.trans hlimits.2, hhints⟩

end ProtocolModelFile

namespace Setup

open ProtocolModelFile

variable {S : Setup R} {Y : Conversions R}

/-- **A database is trained with what is off, saved and loaded** without an effect on what is
classified. -/
theorem retrained_decides (hzero : ¬ (0 : R) < 0) {stale : FirstBytes} {now : Int} {root : Yaml}
    {factory factory' : AttributeMeterFactory} {file : ProtocolModelFile R}
    (hread : read Y stale now factory root = some (file, factory'))
    (hdatabase : S.database = file.toProtocolModelDb) (hfactory : Extends factory' S.factory)
    (hhints : S.config.usePortHints = true → ∀ pm ∈ file.protocolModelOrder, pm.portHints.Nodup)
    {flows : List (String × List (AttributeMeter R))}
    (hoff : ∀ flow ∈ flows, ∀ pm ∈ file.protocolModelOrder, pm.name = flow.1 →
      pm.matters = false)
    (hkeeps : Y.KeepsFile (flows.foldl train file)) (stale' : FirstBytes) (now' now'' : Int)
    (factory₁ : AttributeMeterFactory) :
    ∃ file' factory₁',
      read Y stale' now'' factory₁ (write Y now' (flows.foldl train file)) =
        some (file', factory₁') ∧
      S.SameRuns { S with database := file'.toProtocolModelDb, factory := factory₁' } := by
  have hwell : ∀ file : ProtocolModelFile R, WellFormed file →
      WellFormed (flows.foldl train file) := by
    clear hkeeps hoff
    induction flows with
    | nil => exact fun file h => h
    | cons flow flows ih => exact fun file h => ih _ (wellFormed_train h flow)
  obtain ⟨file', factory₁', hagain, hdefining, hcutoff, hentries⟩ :=
    read_write hkeeps (hwell file (wellFormed_of_read hread).1) stale' now' now'' factory₁
  have hP : ∀ pm ∈ file.protocolModelOrder,
      S.config.usePortHints = true → pm.portHints.Nodup := fun pm hpm huse => hhints huse pm hpm
  obtain ⟨hactive, hdefining', hcutoff', hhints'⟩ := active_trainAll
    (P := fun hints => S.config.usePortHints = true → hints.Nodup) hoff hP
  have hloaded := portHints_of_saved
    (P := fun hints => S.config.usePortHints = true → hints.Nodup) hentries hhints'
  refine ⟨file', factory₁', hagain, ?_⟩
  have hsame : S.SameActive { S with database := file'.toProtocolModelDb, factory := factory₁' } :=
    { config := rfl, murmur := rfl, staleBytes := rfl
      definingLimit := by rw [hdatabase, ← hdefining', ← hdefining]
      cutoffLimit := by rw [hdatabase, ← hcutoff', ← hcutoff]
      active := by rw [hdatabase, ← hactive]; exact active_of_saved hentries }
  have h : S.HasRead Y :=
    { read := ⟨stale, now, factory, root, file, factory', hread, hdatabase, hfactory⟩
      hints := by rw [hdatabase]; exact hhints }
  have h' : Setup.HasRead { S with database := file'.toProtocolModelDb, factory := factory₁' } Y :=
    { read := ⟨stale', now'', factory₁, _, file', factory₁', hagain, rfl, fun _ hon => hon⟩
      hints := fun huse pm hpm => hloaded pm hpm huse }
  have hides := ((SameActive.refl S).looksAlike h h).hides hzero
  have hides' := (hsame.looksAlike h h').hides hzero
  exact sameRuns_of_hides hides hides'

/-- A finished HTTP flow, as training sees it. -/
def httpFlow : String × List (AttributeMeter ℚ) :=
  ("HTTP", [AttributeMeter.create .payloadSizeFirstPacket fun _ => 0])

/-- HTTP is trained while it is off. -/
theorem offRoot_retrained :
    ∃ file factory file' factory',
      read knownScalars (fun _ => 0) 0 freshFactory offRoot = some (file, factory) ∧
      read knownScalars (fun _ => 0) 0 freshFactory (write knownScalars 0 (file.train httpFlow)) =
        some (file', factory') ∧
      (ofFile file factory).SameRuns (ofFile file' factory') := by
  obtain ⟨file, factory, hread, hseen⟩ :=
    exists_read offRoot
      (fun file =>
        decide (knownScalars.KeepsFile (file.train httpFlow)) &&
        ((file.protocolModelOrder.all fun pm => decide pm.portHints.Nodup) &&
          file.protocolModelOrder.all fun pm => decide (pm.name = "HTTP" → pm.matters = false)))
      (by decide +kernel)
  obtain ⟨hkeeps, hmodels⟩ := Bool.and_eq_true_iff.mp hseen
  obtain ⟨hhints, hoff⟩ := Bool.and_eq_true_iff.mp hmodels
  have honce : ∀ pm ∈ file.protocolModelOrder, pm.portHints.Nodup := fun pm hpm =>
    of_decide_eq_true (List.all_eq_true.mp hhints pm hpm)
  have hhttp : ∀ flow ∈ [httpFlow], ∀ pm ∈ file.protocolModelOrder, pm.name = flow.1 →
      pm.matters = false := by
    intro flow hflow pm hpm hname
    cases List.mem_singleton.mp hflow
    exact of_decide_eq_true (List.all_eq_true.mp hoff pm hpm) hname
  obtain ⟨file', factory', hagain, hruns⟩ :=
    retrained_decides (S := ofFile file factory) (lt_irrefl 0) hread rfl (fun _ hon => hon)
      (fun _ => honce) hhttp (of_decide_eq_true hkeeps) (fun _ => 0) 0 0 freshFactory
  exact ⟨file, factory, file', factory', hread, hagain, hruns⟩

end Setup

end Vsid
