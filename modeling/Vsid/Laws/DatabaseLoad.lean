import Vsid.Laws.DatabaseFile
import Vsid.Protocol.DatabaseLoad

/-!
# What a failed `read` leaves behind

The members of a `ProtocolModelDb` are assigned while the document is walked, so a walk that ends
with an exception has assigned those it came past. `Untouched` lists the ways in which that shows
nothing: the walk ends before the first assignment, or every assignment has made no difference.
`failed_read_iff` says that there are no others.

A new object that is read successfully holds what `ProtocolModelFile.read` makes of the document
(`read_new`).
-/

set_option autoImplicit false

namespace Vsid

namespace ProtocolModelDbObject

variable {R : Type} [Double R] {Y : Conversions R} {stale : FirstBytes} {now : Int}
  {factory : AttributeMeterFactory} {db : ProtocolModelDbObject R}

/-! ## Where a call ends -/

/-- A node of which one member was converted can be asked for any. -/
theorem field_of_fieldAs {α : Type} {c : Codec α} {node : Yaml} {key : String} {x : α}
    (h : (node.fieldAs c key).join = some x) (key' : String) : node.field key' ≠ none := by
  cases node with
  | scalar text => cases h
  | null => exact fun h => by cases h
  | sequence items => exact fun h => by cases h
  | map entries => exact fun h => by cases h

/-- Everything before the models can be read, and is this. -/
structure Header (Y : Conversions R) (root : Yaml) (definingLimit cutoffLimit : UInt32)
    (version : Option String) (modifiedTime : Option Yaml) : Prop where
  definingLimit : (root.fieldAs Y.uint32 "DefiningLimit").join = some definingLimit
  cutoffLimit : (root.fieldAs Y.uint32 "CutoffLimit").join = some cutoffLimit
  version : root.fieldAs Y.string "Version" = some version
  modifiedTime : root.field "ModifiedTime" = some modifiedTime

/-- The object when the walk comes to the models. -/
def assigned (Y : Conversions R) (now : Int) (db : ProtocolModelDbObject R)
    (definingLimit cutoffLimit : UInt32) (version : Option String) (modifiedTime : Option Yaml) :
    ProtocolModelDbObject R :=
  { db with
    definingLimit := definingLimit
    cutoffLimit := ProtocolModelFile.adjustCutoff definingLimit cutoffLimit
    version := version.getD firstVersion
    modifiedTimes := db.modifiedTimes ++ ProtocolModelFile.readModifiedTimes Y now modifiedTime }

/-- Where a call of `read` ends, and with which object and result. -/
inductive ReadEffect (Y : Conversions R) (stale : FirstBytes) (now : Int)
    (factory : AttributeMeterFactory) (db : ProtocolModelDbObject R) :
    Option Yaml → ProtocolModelDbObject R × Bool → Prop where
  | initialised {document : Option Yaml} : db.initialised = true →
    ReadEffect Y stale now factory db document (db, false)
  | noDocument : ReadEffect Y stale now factory db none (db, false)
  | definingLimit {root : Yaml} : (root.fieldAs Y.uint32 "DefiningLimit").join = none →
    ReadEffect Y stale now factory db (some root) (db, false)
  | cutoffLimit {root : Yaml} {definingLimit : UInt32} :
    (root.fieldAs Y.uint32 "DefiningLimit").join = some definingLimit →
    (root.fieldAs Y.uint32 "CutoffLimit").join = none →
    ReadEffect Y stale now factory db (some root)
      ({ db with definingLimit := definingLimit }, false)
  | version {root : Yaml} {definingLimit cutoffLimit : UInt32} :
    (root.fieldAs Y.uint32 "DefiningLimit").join = some definingLimit →
    (root.fieldAs Y.uint32 "CutoffLimit").join = some cutoffLimit →
    root.fieldAs Y.string "Version" = none →
    ReadEffect Y stale now factory db (some root)
      ({ db with
          definingLimit := definingLimit
          cutoffLimit := ProtocolModelFile.adjustCutoff definingLimit cutoffLimit }, false)
  | noModels {root : Yaml} {definingLimit cutoffLimit : UInt32} {version : Option String}
    {modifiedTime : Option Yaml} :
    Header Y root definingLimit cutoffLimit version modifiedTime →
    (root.field "ProtocolModels").bind Yaml.itemsOf = none →
    ReadEffect Y stale now factory db (some root)
      (db.assigned Y now definingLimit cutoffLimit version modifiedTime, false)
  | brokenModel {root : Yaml} {definingLimit cutoffLimit : UInt32} {version : Option String}
    {modifiedTime : Option Yaml} {items : List Yaml} {db' : ProtocolModelDbObject R} :
    Header Y root definingLimit cutoffLimit version modifiedTime →
    (root.field "ProtocolModels").bind Yaml.itemsOf = some items →
    (db.assigned Y now definingLimit cutoffLimit version modifiedTime).readModels Y stale factory
      items = (db', false) → ReadEffect Y stale now factory db (some root) (db', false)
  | models {root : Yaml} {definingLimit cutoffLimit : UInt32} {version : Option String}
    {modifiedTime : Option Yaml} {items : List Yaml} {db' : ProtocolModelDbObject R} :
    Header Y root definingLimit cutoffLimit version modifiedTime →
    (root.field "ProtocolModels").bind Yaml.itemsOf = some items →
    (db.assigned Y now definingLimit cutoffLimit version modifiedTime).readModels Y stale factory
      items = (db', true) →
    ReadEffect Y stale now factory db (some root)
      ({ db' with
          toProtocolModelDb := db'.toProtocolModelDb.fillPortHintOrder
          initialised := true }, true)

/-- Every call ends in one of these ways. -/
theorem read_effect (document : Option Yaml) :
    ReadEffect Y stale now factory db document (db.read Y stale now factory document) := by
  unfold read
  split
  next hinit => exact .initialised hinit
  next =>
    split
    next => exact .noDocument
    next root =>
      split
      next hdefining => exact .definingLimit hdefining
      next definingLimit hdefining =>
        dsimp only
        split
        next hcutoff => exact .cutoffLimit hdefining hcutoff
        next cutoffLimit hcutoff =>
          split
          next hversion => exact .version hdefining hcutoff hversion
          next version hversion =>
            split
            next htimes => exact absurd htimes (field_of_fieldAs hdefining _)
            next modifiedTime htimes =>
              have hheader : Header Y root definingLimit cutoffLimit version modifiedTime :=
                ⟨hdefining, hcutoff, hversion, htimes⟩
              split
              next hitems => exact .noModels hheader hitems
              next items hitems =>
                split
                next db' hmodels => exact .brokenModel hheader hitems hmodels
                next db' hmodels => exact .models hheader hitems hmodels

/-! ## A new object -/

theorem readModels_of_some {db' : ProtocolModelDb R} {factory' : AttributeMeterFactory}
    {nodes : List Yaml}
    (h : ProtocolModelFile.readModels Y stale db.toProtocolModelDb factory nodes =
      some (db', factory')) :
    db.readModels Y stale factory nodes = ({ db with toProtocolModelDb := db' }, true) := by
  induction nodes generalizing db factory with
  | nil =>
    cases h
    rfl
  | cons node nodes ih =>
    unfold ProtocolModelFile.readModels at h
    obtain ⟨⟨model, factory₁⟩, hmodel, hrest⟩ := Option.bind_eq_some_iff.mp h
    unfold readModels
    simp only [hmodel]
    exact @ih _ (db.enter model) hrest

theorem readModels_of_true {db₁ : ProtocolModelDbObject R} {nodes : List Yaml}
    (h : db.readModels Y stale factory nodes = (db₁, true)) :
    ∃ db' factory', ProtocolModelFile.readModels Y stale db.toProtocolModelDb factory nodes =
      some (db', factory') ∧ db₁ = { db with toProtocolModelDb := db' } := by
  induction nodes generalizing db factory with
  | nil =>
    cases h
    exact ⟨_, _, rfl, rfl⟩
  | cons node nodes ih =>
    unfold readModels at h
    unfold ProtocolModelFile.readModels
    cases hmodel : ProtocolModelFile.readProtocolModel Y stale factory node with
    | none =>
      rw [hmodel] at h
      cases h
    | some result =>
      rw [hmodel] at h
      obtain ⟨db', factory', hrest, rfl⟩ := @ih _ (db.enter result.1) h
      exact ⟨db', factory', hrest, rfl⟩

/-- **A new object is read when its document is**, and then holds the same. -/
theorem read_new_iff {root : Yaml} {db' : ProtocolModelDbObject R} :
    new.read Y stale now factory (some root) = (db', true) ↔
      ∃ file factory', ProtocolModelFile.read Y stale now factory root = some (file, factory') ∧
        db' = { file with initialised := true } := by
  have hnew : ¬ (new : ProtocolModelDbObject R).initialised = true := Bool.false_ne_true
  constructor
  · intro h
    have heffect : ReadEffect Y stale now factory new (some root) (db', true) :=
      h ▸ read_effect (some root)
    cases heffect with
    | models hheader hitems hmodels =>
      obtain ⟨db', factory', hmodels', rfl⟩ := readModels_of_true hmodels
      obtain ⟨node, hnode, hitems⟩ := Option.bind_eq_some_iff.mp hitems
      unfold ProtocolModelFile.read
      simp only [Option.join_eq_some_iff.mp hheader.definingLimit,
        Option.join_eq_some_iff.mp hheader.cutoffLimit, hheader.version, hheader.modifiedTime,
        hnode, hitems, Option.bind_eq_bind, Option.bind_some]
      exact ⟨_, factory', Option.bind_eq_some_iff.mpr ⟨_, hmodels', rfl⟩, rfl⟩
  · rintro ⟨file, factory', h, rfl⟩
    obtain ⟨definingLimit, cutoffLimit, version, modifiedTime, items, db, hdefining, hcutoff,
      hversion, htimes, hitems, hmodels, rfl⟩ := ProtocolModelFile.read_eq_some h
    unfold read
    rw [if_neg hnew]
    simp only [hdefining, hcutoff, hversion, htimes, hitems, Option.join_some]
    rw [readModels_of_some hmodels]
    rfl

/-! ## The loop over the models -/

/-- No model is added before the walk over the models throws. -/
def AddsNone (Y : Conversions R) (stale : FirstBytes) (db : ProtocolModelDbObject R) :
    AttributeMeterFactory → List Yaml → Prop
  | _, [] => True
  | factory, node :: nodes =>
    match ProtocolModelFile.readProtocolModel Y stale factory node with
    | none => True
    | some (none, factory) => AddsNone Y stale db factory nodes
    | some (some model, factory) =>
      (∃ pm ∈ db.protocolModelOrder, pm.name = model.name) ∧ AddsNone Y stale db factory nodes

omit [Double R] in
theorem enter_of_named {pm model : ProtocolModel R} (hpm : pm ∈ db.protocolModelOrder)
    (hname : pm.name = model.name) : db.enter (some model) = db := by
  have htaken : (db.protocolModelOrder.any fun pm => pm.name == model.name) = true :=
    List.any_eq_true.mpr ⟨pm, hpm, beq_iff_eq.mpr hname⟩
  unfold enter ProtocolModelDb.addModel
  rw [Option.elim_some, if_pos htaken]

omit [Double R] in
theorem length_enter (db : ProtocolModelDbObject R) (model : Option (ProtocolModel R)) :
    db.protocolModelOrder.length ≤ (db.enter model).protocolModelOrder.length := by
  cases model with
  | none => exact Nat.le_refl _
  | some model =>
    unfold enter ProtocolModelDb.addModel
    rw [Option.elim_some]
    split
    · exact Nat.le_refl _
    · simp only [List.length_append, Nat.le_add_right]

theorem length_readModels (db : ProtocolModelDbObject R) (factory : AttributeMeterFactory)
    (nodes : List Yaml) : db.protocolModelOrder.length ≤
      (db.readModels Y stale factory nodes).1.protocolModelOrder.length := by
  induction nodes generalizing db factory with
  | nil => exact Nat.le_refl _
  | cons node nodes ih =>
    unfold readModels
    split
    · exact Nat.le_refl _
    · exact (length_enter db _).trans (ih _ _)

/-- The loop leaves the object as it is exactly when it adds no model. -/
theorem readModels_unchanged_iff {nodes : List Yaml} :
    (db.readModels Y stale factory nodes).1 = db ↔ AddsNone Y stale db factory nodes := by
  induction nodes generalizing factory with
  | nil => exact ⟨fun _ => trivial, fun _ => rfl⟩
  | cons node nodes ih =>
    unfold readModels AddsNone
    cases ProtocolModelFile.readProtocolModel Y stale factory node with
    | none => exact ⟨fun _ => trivial, fun _ => rfl⟩
    | some result =>
      obtain ⟨model, factory'⟩ := result
      cases model with
      | none => exact ih
      | some model =>
        by_cases hnamed : ∃ pm ∈ db.protocolModelOrder, pm.name = model.name
        · obtain ⟨pm, hpm, hname⟩ := hnamed
          simp only [enter_of_named hpm hname]
          exact ⟨fun h => ⟨⟨pm, hpm, hname⟩, ih.mp h⟩, fun h => ih.mpr h.2⟩
        · refine ⟨fun h => ?_, fun h => absurd h.1 hnamed⟩
          -- the list of models has grown, and never shrinks
          have hloop : (readModels Y stale (db.enter (some model)) factory' nodes).1 = db := h
          have hgrown : (db.enter (some model)).protocolModelOrder.length ≤
              db.protocolModelOrder.length :=
            (length_readModels _ factory' nodes).trans_eq
              (congrArg (fun db => db.protocolModelOrder.length) hloop)
          have hnew : (db.protocolModelOrder.any fun pm => pm.name == model.name) = false := by
            rw [List.any_eq_false]
            exact fun pm hpm heq => hnamed ⟨pm, hpm, beq_iff_eq.mp heq⟩
          unfold enter ProtocolModelDb.addModel at hgrown
          rw [Option.elim_some, hnew, if_neg Bool.false_ne_true] at hgrown
          simp only [List.length_append, List.length_singleton] at hgrown
          exact absurd hgrown (Nat.not_succ_le_self _)

/-- The loop assigns the models and the port orders only. -/
theorem readModels_scalars (db : ProtocolModelDbObject R) (factory : AttributeMeterFactory)
    (nodes : List Yaml) :
    ∃ models hints, (db.readModels Y stale factory nodes).1 =
      { db with protocolModelOrder := models, portHintOrder := hints } := by
  induction nodes generalizing db factory with
  | nil => exact ⟨db.protocolModelOrder, db.portHintOrder, rfl⟩
  | cons node nodes ih =>
    unfold readModels
    split
    · exact ⟨db.protocolModelOrder, db.portHintOrder, rfl⟩
    next model factory' _ =>
      obtain ⟨models, hints, heq⟩ := ih (db.enter model) factory'
      refine ⟨models, hints, ?_⟩
      rw [heq]
      unfold enter
      cases model with
      | none => rfl
      | some model =>
        simp only [Option.elim_some, (ProtocolModelFile.addModel_limits db.toProtocolModelDb
          model).1, (ProtocolModelFile.addModel_limits db.toProtocolModelDb model).2]

/-! ## A failed call -/

/-- The ways in which a walk that fails leaves the object as it was: where it ends, and that what it
has assigned on the way was there before. -/
inductive Untouched (Y : Conversions R) (stale : FirstBytes) (now : Int)
    (factory : AttributeMeterFactory) (db : ProtocolModelDbObject R) : Option Yaml → Prop where
  | initialised {document : Option Yaml} : db.initialised = true →
    Untouched Y stale now factory db document
  | noDocument : Untouched Y stale now factory db none
  | definingLimit {root : Yaml} : (root.fieldAs Y.uint32 "DefiningLimit").join = none →
    Untouched Y stale now factory db (some root)
  | cutoffLimit {root : Yaml} :
    (root.fieldAs Y.uint32 "DefiningLimit").join = some db.definingLimit →
    (root.fieldAs Y.uint32 "CutoffLimit").join = none →
    Untouched Y stale now factory db (some root)
  | version {root : Yaml} {cutoffLimit : UInt32} :
    (root.fieldAs Y.uint32 "DefiningLimit").join = some db.definingLimit →
    (root.fieldAs Y.uint32 "CutoffLimit").join = some cutoffLimit →
    ProtocolModelFile.adjustCutoff db.definingLimit cutoffLimit = db.cutoffLimit →
    root.fieldAs Y.string "Version" = none → Untouched Y stale now factory db (some root)
  | models {root : Yaml} {cutoffLimit : UInt32} {version : Option String}
    {modifiedTime : Option Yaml} :
    (root.fieldAs Y.uint32 "DefiningLimit").join = some db.definingLimit →
    (root.fieldAs Y.uint32 "CutoffLimit").join = some cutoffLimit →
    ProtocolModelFile.adjustCutoff db.definingLimit cutoffLimit = db.cutoffLimit →
    root.fieldAs Y.string "Version" = some version → version.getD firstVersion = db.version →
    root.field "ModifiedTime" = some modifiedTime →
    ProtocolModelFile.readModifiedTimes Y now modifiedTime = [] →
    (∀ items, (root.field "ProtocolModels").bind Yaml.itemsOf = some items →
      AddsNone Y stale db factory items) → Untouched Y stale now factory db (some root)

omit [Double R] in
/-- The assignments before the models make no difference when the models and the port orders are
all that differs in the end. -/
theorem assigned_eq {definingLimit cutoffLimit : UInt32} {version : Option String}
    {modifiedTime : Option Yaml} {models : List (ProtocolModel R)}
    {hints : List (UInt16 × List Nat)}
    (h : { db.assigned Y now definingLimit cutoffLimit version modifiedTime with
      protocolModelOrder := models, portHintOrder := hints } = db) :
    db.assigned Y now definingLimit cutoffLimit version modifiedTime = db := by
  have hlimit := congrArg (fun db : ProtocolModelDbObject R => db.definingLimit) h
  have hcut := congrArg (fun db : ProtocolModelDbObject R => db.cutoffLimit) h
  have hversion := congrArg (fun db : ProtocolModelDbObject R => db.version) h
  have htimes := congrArg (fun db : ProtocolModelDbObject R => db.modifiedTimes) h
  simp only [assigned] at hlimit hcut hversion htimes
  unfold assigned
  rw [hcut, hversion, htimes, hlimit]

/-- A walk that comes to the models with the object it began with, and adds none. -/
theorem Header.untouched {root : Yaml} {definingLimit cutoffLimit : UInt32}
    {version : Option String} {modifiedTime : Option Yaml}
    (h : Header Y root definingLimit cutoffLimit version modifiedTime)
    (hsame : db.assigned Y now definingLimit cutoffLimit version modifiedTime = db)
    (hadds : ∀ items, (root.field "ProtocolModels").bind Yaml.itemsOf = some items →
      AddsNone Y stale db factory items) : Untouched Y stale now factory db (some root) := by
  have hlimit : definingLimit = db.definingLimit :=
    congrArg (fun db : ProtocolModelDbObject R => db.definingLimit) hsame
  have hcut := congrArg (fun db : ProtocolModelDbObject R => db.cutoffLimit) hsame
  have hversion := congrArg (fun db : ProtocolModelDbObject R => db.version) hsame
  have htimes := congrArg (fun db : ProtocolModelDbObject R => db.modifiedTimes) hsame
  subst hlimit
  exact .models h.definingLimit h.cutoffLimit hcut h.version hversion h.modifiedTime
    (List.self_eq_append_right.mp htimes.symm) hadds

/-- A walk that ends in one of these ways leaves the object as it was. -/
theorem Untouched.unchanged {document : Option Yaml}
    (h : Untouched Y stale now factory db document)
    (hfail : (db.read Y stale now factory document).2 = false) :
    (db.read Y stale now factory document).1 = db := by
  by_cases hinit : db.initialised = true
  · unfold read
    rw [if_pos hinit]
  unfold read at hfail ⊢
  rw [if_neg hinit] at hfail ⊢
  cases h with
  | initialised h => exact absurd h hinit
  | noDocument => rfl
  | definingLimit hdefining => simp only [hdefining]
  | cutoffLimit hdefining hcutoff => simp only [hdefining, hcutoff]
  | version hdefining hcutoff hadjust hversion =>
    simp only [hdefining, hcutoff, hversion, hadjust]
  | models hdefining hcutoff hadjust hversion hsame htimes hnone hadds =>
    simp only [hdefining, hcutoff, hversion, htimes, hadjust, hsame, hnone, List.append_nil]
      at hfail ⊢
    split at hfail
    next => rfl
    next items hitems =>
      have hloop := readModels_unchanged_iff.mpr (hadds items hitems)
      split at hfail
      next db' hmodels =>
        rw [hmodels] at hloop
        exact hloop
      next => cases hfail

/-- A failed call that leaves the object as it was ends in one of these ways. -/
theorem ReadEffect.untouched {document : Option Yaml}
    (h : ReadEffect Y stale now factory db document (db, false)) :
    Untouched Y stale now factory db document := by
  generalize hresult : (db, false) = result at h
  cases h with
  | initialised hinit => exact .initialised hinit
  | noDocument => exact .noDocument
  | definingLimit hdefining => exact .definingLimit hdefining
  | cutoffLimit hdefining hcutoff =>
    have hlimit := congrArg (fun result => result.1.definingLimit) hresult
    exact .cutoffLimit (hdefining.trans (congrArg some hlimit.symm)) hcutoff
  | version hdefining hcutoff hversion =>
    have hlimit := congrArg (fun result => result.1.definingLimit) hresult
    have hcut := congrArg (fun result => result.1.cutoffLimit) hresult
    simp only at hlimit hcut
    rw [← hlimit] at hdefining hcut
    exact .version hdefining hcutoff hcut.symm hversion
  | noModels hheader hitems =>
    refine hheader.untouched (congrArg Prod.fst hresult).symm fun items hsome => ?_
    rw [hitems] at hsome
    cases hsome
  | @brokenModel _ _ _ _ _ items db' hheader hitems hmodels =>
    have hdb : db' = db := (congrArg Prod.fst hresult).symm
    have hend := (congrArg Prod.fst hmodels).trans hdb
    obtain ⟨models, hints, heq⟩ :=
      readModels_scalars (db.assigned Y now _ _ _ _) factory items
    have hsame := assigned_eq (heq.symm.trans hend)
    refine hheader.untouched hsame fun items' hitems' => ?_
    cases hitems.symm.trans hitems'
    rw [hsame] at hmodels
    exact readModels_unchanged_iff.mp ((congrArg Prod.fst hmodels).trans hdb)
  | models => cases congrArg Prod.snd hresult

/-- **When a failed `read` has changed nothing.** -/
theorem unchanged_iff {document : Option Yaml}
    (hfail : (db.read Y stale now factory document).2 = false) :
    (db.read Y stale now factory document).1 = db ↔
      Untouched Y stale now factory db document := by
  refine ⟨fun h => ReadEffect.untouched ?_, fun h => h.unchanged hfail⟩
  have hresult : db.read Y stale now factory document = (db, false) := Prod.ext h hfail
  exact hresult ▸ read_effect document

/-- **A failed `read` leaves nothing behind exactly when nothing it assigned was new.** For every
object and every document whose `read` fails: the object is as it was, and, if it was a new one,
every later successful `read` gives what it gives for a new object. -/
theorem failed_read_iff {document : Option Yaml}
    (hfail : (db.read Y stale now factory document).2 = false) :
    ((db.read Y stale now factory document).1 = db ∧
      (db = new → ∀ stale' now' factory' document',
        (((db.read Y stale now factory document).1).read Y stale' now' factory' document').2 = true →
          ((db.read Y stale now factory document).1).read Y stale' now' factory' document' =
            new.read Y stale' now' factory' document')) ↔
      Untouched Y stale now factory db document := by
  rw [← unchanged_iff hfail]
  refine ⟨fun h => h.1, fun h => ⟨h, fun hnew stale' now' factory' document' _ => ?_⟩⟩
  rw [h, hnew]

open ProtocolModelFile in
/-- A file whose second model has no number where one is expected. -/
def brokenRoot : Yaml :=
  .map
    [("DefiningLimit", .scalar "2"), ("CutoffLimit", .scalar "100"),
      ("ProtocolModels", .sequence
        [.map
          [("ProtocolName", .scalar "SSH"), ("PortHints", .sequence [.scalar "22"]),
            ("AttributeMeters", .sequence [sizeMeter])],
          .map [("ProtocolName", .scalar "HTTP"), ("FlowCount", .scalar "many")]])]

open ProtocolModelFile in
/-- A file that names its limits only. -/
def limitsRoot : Yaml :=
  .map [("DefiningLimit", .scalar "10"), ("CutoffLimit", .scalar "100")]

/-- A file whose first limit is the one that the object has, and whose second limit is no number. -/
def cutoffRoot : Yaml :=
  .map [("DefiningLimit", .scalar "10"), ("CutoffLimit", .scalar "none"), ("Version", .scalar "2")]

open ProtocolModelFile in
/-- It fails after one assignment, which changes nothing. -/
theorem cutoffRoot_leaves_nothing :
    ((new : ProtocolModelDbObject ℚ).read knownScalars (fun _ => 0) 0 freshFactory
        (some cutoffRoot)).1 = new ∧
      ∀ stale' now' factory' document',
        ((((new : ProtocolModelDbObject ℚ).read knownScalars (fun _ => 0) 0 freshFactory
          (some cutoffRoot)).1).read knownScalars stale' now' factory' document').2 = true →
        (((new : ProtocolModelDbObject ℚ).read knownScalars (fun _ => 0) 0 freshFactory
          (some cutoffRoot)).1).read knownScalars stale' now' factory' document' =
            new.read knownScalars stale' now' factory' document' := by
  have huntouched : Untouched knownScalars (fun _ => 0) 0 freshFactory
      (new : ProtocolModelDbObject ℚ) (some cutoffRoot) := .cutoffLimit rfl rfl
  obtain ⟨hsame, hlater⟩ := (failed_read_iff rfl).mpr huntouched
  exact ⟨hsame, hlater rfl⟩

open ProtocolModelFile in
/-- The limit and the first model of the broken file stay, and turn up in what is read next. -/
theorem brokenRoot_stays :
    ((new : ProtocolModelDbObject ℚ).read knownScalars (fun _ => 0) 0 freshFactory
        (some brokenRoot)).2 = false ∧
      ((new : ProtocolModelDbObject ℚ).read knownScalars (fun _ => 0) 0 freshFactory
        (some brokenRoot)).1.definingLimit = 2 ∧
      ((new : ProtocolModelDbObject ℚ).read knownScalars (fun _ => 0) 0 freshFactory
        (some brokenRoot)).1.protocolModelOrder.map ProtocolModel.name = ["SSH"] ∧
      (((new : ProtocolModelDbObject ℚ).read knownScalars (fun _ => 0) 0 freshFactory
        (some brokenRoot)).1.read knownScalars (fun _ => 0) 0 freshFactory (some limitsRoot)).2 =
          true ∧
      (((new : ProtocolModelDbObject ℚ).read knownScalars (fun _ => 0) 0 freshFactory
        (some brokenRoot)).1.read knownScalars (fun _ => 0) 0 freshFactory
          (some limitsRoot)).1.protocolModelOrder.map ProtocolModel.name = ["SSH"] ∧
      ((new : ProtocolModelDbObject ℚ).read knownScalars (fun _ => 0) 0 freshFactory
        (some limitsRoot)).1.protocolModelOrder.map ProtocolModel.name = [] := by
  decide +kernel

end ProtocolModelDbObject

end Vsid
