import Vsid.Lib.Yaml
import Vsid.Protocol.Database

/-!
# The database file

`read` builds a `ProtocolModelDb` from the document of its file, `train` is what a training run does
to it and `write` makes the document of the new file. The document is a `Yaml` tree; the conversions
of its scalars are those of the YAML library and of `boost::posix_time`, and are handed in as
`Conversions`. An exception that leaves the `try` of `read` is `none`, and so is the `nullptr` of a
rejected model, one level further in.

Reading also enables the meters that a model uses in the `AttributeMeterFactory`, which is passed
along. `write` stands for a call that could move the old file and open the new one.
-/

set_option autoImplicit false

namespace Vsid

/-- The conversions between scalars and values. A `ptime` is the number of its ticks. -/
structure Conversions (R : Type) where
  string : Codec String
  uint32 : Codec UInt32
  uint16 : Codec UInt16
  bool : Codec Bool
  double : Codec R
  isoTime : Codec Int

/-- `PROTOCOL_MODEL_VERSION`. -/
def protocolModelVersion : String := "0.2"

/-- The version of a file that names none. -/
def firstVersion : String := "0.1"

/-- `ProtocolModelDb` with the members that only the file knows. -/
structure ProtocolModelFile (R : Type) extends ProtocolModelDb R where
  version : String
  modifiedTimes : List Int

/-- `AttributeMeterFactory::_factories`: the class that is registered under a name. -/
def MeterKind.ofName (name : String) : Option MeterKind :=
  MeterKind.all.find? fun k => k.name == name

/-- `AttributeMeterFactory::enableAttribute`. -/
def AttributeMeterFactory.enableAttribute (factory : AttributeMeterFactory) (k : MeterKind) :
    AttributeMeterFactory :=
  { enabledAttributes := fun k' => k' == k || factory.enabledAttributes k' }

namespace ProtocolModelDb

variable {R : Type}

/-- `_portHintOrder[port].push_back(model)`. -/
def pushHint (table : List (UInt16 × List Nat)) (port : UInt16) (i : Nat) :
    List (UInt16 × List Nat) :=
  match table with
  | [] => [(port, [i])]
  | (port', order) :: rest =>
    if port' = port then (port', order ++ [i]) :: rest else (port', order) :: pushHint rest port i

/-- A model that was read is added, and so are its hints, unless its name is taken. -/
def addModel (db : ProtocolModelDb R) (model : ProtocolModel R) : ProtocolModelDb R :=
  if db.protocolModelOrder.any fun pm => pm.name == model.name then db
  else
    { db with
      protocolModelOrder := db.protocolModelOrder ++ [model]
      portHintOrder := model.portHints.foldl
        (fun table port => pushHint table port db.protocolModelOrder.length) db.portHintOrder }

/-- The name of a listed model. -/
def isNamed (db : ProtocolModelDb R) (name : String) (i : Nat) : Bool :=
  (db.protocolModelOrder[i]?).any fun pm => pm.name == name

/-- The body of the loop that finishes the port order tables: model `i` is appended to every order
that does not name it. -/
def fillWith (db : ProtocolModelDb R) (table : List (UInt16 × List Nat))
    (model : ProtocolModel R × Nat) : List (UInt16 × List Nat) :=
  table.map fun entry =>
    if entry.2.any (db.isNamed model.1.name) then entry else (entry.1, entry.2 ++ [model.2])

/-- Finishing the port order tables. -/
def fillPortHintOrder (db : ProtocolModelDb R) : ProtocolModelDb R :=
  { db with portHintOrder := db.protocolModelOrder.zipIdx.foldl db.fillWith db.portHintOrder }

end ProtocolModelDb

namespace ProtocolModelFile

variable {R : Type} [Double R]

/-! ## Reading -/

/-- The fingerprint of a meter, if there is one and it has the size that the class has. -/
def readFingerPrint (Y : Conversions R) (kind : MeterKind) :
    Option Yaml → Option (Option (List R))
  | none => some none
  | some node =>
    if node.size = kind.fingerprintSize then do
      let items ← node.items
      let fingerprint ← items.mapM (Yaml.as Y.double)
      some (some fingerprint)
    else some none

/-- `ProtocolModelDb::_readAttributeMeter`, once the class is known. -/
def readMeterOf (Y : Conversions R) (stale : FirstBytes) (factory : AttributeMeterFactory)
    (kind : MeterKind) (node : Yaml) :
    Option (Option (AttributeMeter R) × AttributeMeterFactory) := do
  let enabled ← node.fieldAs Y.bool "Enabled"
  -- the class is enabled for good, whatever becomes of this meter
  let factory := if enabled.getD false then factory.enableAttribute kind else factory
  let flowCount ← node.fieldAs Y.uint32 "FlowCount"
  let fingerPrint ← node.field "FingerPrint"
  let fingerprint ← readFingerPrint Y kind fingerPrint
  let meter : Option (AttributeMeter R) := fingerprint.map fun fingerprint =>
    { (AttributeMeter.create kind stale : AttributeMeter R) with
      fromDb := true
      enabled := enabled.getD false && flowCount.isSome
      flowCount := flowCount.getD 0
      fingerprint := fingerprint }
  some (meter, factory)

/-- `ProtocolModelDb::_readAttributeMeter`. -/
def readAttributeMeter (Y : Conversions R) (stale : FirstBytes) (factory : AttributeMeterFactory)
    (node : Yaml) : Option (Option (AttributeMeter R) × AttributeMeterFactory) := do
  let name ← node.fieldAs Y.string "AttributeName"
  match name.bind MeterKind.ofName with
  | none => some (none, factory)
  | some kind => readMeterOf Y stale factory kind node

/-- The loop over the meters of a model, which ends at the first meter that is not valid. -/
def readAttributeMeters (Y : Conversions R) (stale : FirstBytes) :
    AttributeMeterFactory → List Yaml →
      Option (Option (List (AttributeMeter R)) × AttributeMeterFactory)
  | factory, [] => some (some [], factory)
  | factory, node :: nodes => do
    let (meter, factory) ← readAttributeMeter Y stale factory node
    match meter with
    | none => some (none, factory)
    | some meter =>
      let (meters, factory) ← readAttributeMeters Y stale factory nodes
      some (meters.map (meter :: ·), factory)

/-- The meters of a model. A member that is there but has no items gives a model without meters. -/
def readModelMeters (Y : Conversions R) (stale : FirstBytes) (factory : AttributeMeterFactory) :
    Option Yaml → Option (Option (List (AttributeMeter R)) × AttributeMeterFactory)
  | none => some (none, factory)
  | some node => do
    let items ← node.items
    readAttributeMeters Y stale factory items

/-- `ProtocolModelDb::_readProtocolModel`. -/
def readProtocolModel (Y : Conversions R) (stale : FirstBytes) (factory : AttributeMeterFactory)
    (node : Yaml) : Option (Option (ProtocolModel R) × AttributeMeterFactory) := do
  match ← node.fieldAs Y.string "ProtocolName" with
  | none => some (none, factory)
  | some name =>
    let flowCount ← node.fieldAs Y.uint32 "FlowCount"
    let enabled ← node.fieldAs Y.bool "Enabled"
    let hintItems ← Yaml.itemsOf (← node.field "PortHints")
    let portHints ← hintItems.mapM (Yaml.as Y.uint16)
    let attributeMeters ← node.field "AttributeMeters"
    let (meters, factory) ← readModelMeters Y stale factory attributeMeters
    let model : Option (ProtocolModel R) := meters.map fun meters =>
      { name := name
        flowCount := flowCount.getD 0
        enabled := enabled.getD false
        portHints := portHints
        attributeMeters := meters }
    some (model, factory)

/-- The loop over the models. -/
def readModels (Y : Conversions R) (stale : FirstBytes) :
    ProtocolModelDb R → AttributeMeterFactory → List Yaml →
      Option (ProtocolModelDb R × AttributeMeterFactory)
  | db, factory, [] => some (db, factory)
  | db, factory, node :: nodes => do
    let (model, factory) ← readProtocolModel Y stale factory node
    readModels Y stale (model.elim db db.addModel) factory nodes

/-- The adjustment of the cutoff limit. -/
def adjustCutoff (definingLimit cutoffLimit : UInt32) : UInt32 :=
  if 0 < cutoffLimit ∧ cutoffLimit ≤ definingLimit then definingLimit + 1 else cutoffLimit

/-- The times of earlier changes; those that cannot be read are skipped. -/
def readModifiedTimes (Y : Conversions R) (now : Int) : Option Yaml → List Int
  | none => [now]
  | some node => (node.items.getD []).filterMap (Yaml.as Y.isoTime)

/-- `ProtocolModelDb::read` of a new database. -/
def read (Y : Conversions R) (stale : FirstBytes) (now : Int) (factory : AttributeMeterFactory)
    (root : Yaml) : Option (ProtocolModelFile R × AttributeMeterFactory) := do
  let definingLimit ← (← root.fieldAs Y.uint32 "DefiningLimit")
  let cutoffLimit ← (← root.fieldAs Y.uint32 "CutoffLimit")
  let version ← root.fieldAs Y.string "Version"
  let modifiedTime ← root.field "ModifiedTime"
  let items ← Yaml.itemsOf (← root.field "ProtocolModels")
  let limits : ProtocolModelDb R :=
    { definingLimit := definingLimit
      cutoffLimit := adjustCutoff definingLimit cutoffLimit
      protocolModelOrder := []
      portHintOrder := [] }
  let (db, factory) ← readModels Y stale limits factory items
  some
    ({ db.fillPortHintOrder with
        version := version.getD firstVersion
        modifiedTimes := readModifiedTimes Y now modifiedTime },
      factory)

/-! ## Writing -/

/-- `ProtocolModelDb::_writeAttributeMeter`. -/
def writeAttributeMeter (Y : Conversions R) (am : AttributeMeter R) : Yaml :=
  .map
    [("AttributeName", .of Y.string am.kind.name), ("FlowCount", .of Y.uint32 am.flowCount),
      ("Enabled", .of Y.bool am.enabled),
      ("FingerPrint", .pushed (am.fingerprint.map (.of Y.double)))]

/-- The member that `push_back` makes: there is none without an item. -/
def pushedMember (key : String) (items : List Yaml) : List (String × Yaml) :=
  if items.isEmpty then [] else [(key, .sequence items)]

/-- `ProtocolModelDb::_writeProtocolModel`. -/
def writeProtocolModel (Y : Conversions R) (pm : ProtocolModel R) : Yaml :=
  .map
    ([("ProtocolName", .of Y.string pm.name), ("FlowCount", .of Y.uint32 pm.flowCount),
        ("Enabled", .of Y.bool pm.enabled),
        ("PortHints", .pushed (pm.portHints.map (.of Y.uint16)))] ++
      pushedMember "AttributeMeters" (pm.attributeMeters.map (writeAttributeMeter Y)))

/-- The document that `ProtocolModelDb::write` emits at time `now`. -/
def write (Y : Conversions R) (now : Int) (file : ProtocolModelFile R) : Yaml :=
  .map
    ([("DefiningLimit", .of Y.uint32 file.definingLimit),
        ("CutoffLimit", .of Y.uint32 file.cutoffLimit),
        ("Version", .of Y.string protocolModelVersion)] ++
      pushedMember "ModifiedTime" ((now :: file.modifiedTimes).map (.of Y.isoTime)) ++
      pushedMember "ProtocolModels" (file.protocolModelOrder.map (writeProtocolModel Y)))

end ProtocolModelFile

/-! ## Training -/

section Training

variable {R : Type} [Double R]

/-- `AttributeMeter::merge`. The flow count is a `uint32_t` before it is converted. -/
def AttributeMeter.merge (m other : AttributeMeter R) : AttributeMeter R :=
  if other.kind ≠ m.kind then m
  else if !m.fromDb then m
  else
    { m with
      fingerprint := m.fingerprint.mapIdx fun i x =>
        (x * (m.flowCount.toNat : R) + other.atPos i) / ((m.flowCount + 1).toNat : R)
      flowCount := m.flowCount + 1 }

/-- One turn of the loop over the meters of a finished flow: `find` the meter of that name, and
merge into it. -/
def ProtocolModel.mergeMeter (pm : ProtocolModel R) (other : AttributeMeter R) : ProtocolModel R :=
  match pm.attributeMeters.findIdx? fun am => am.kind == other.kind with
  | none => pm
  | some j => { pm with attributeMeters := pm.attributeMeters.modify j (·.merge other) }

/-- `ProtocolModelUpdater::flowFinished`, on the model of the finished flow. -/
def ProtocolModel.learn (pm : ProtocolModel R) (meters : List (AttributeMeter R)) :
    ProtocolModel R :=
  meters.foldl ProtocolModel.mergeMeter { pm with flowCount := pm.flowCount + 1 }

/-- `ProtocolModelUpdater::flowFinished`: a flow of a protocol has finished with some meters. -/
def ProtocolModelFile.train (file : ProtocolModelFile R)
    (flow : String × List (AttributeMeter R)) : ProtocolModelFile R :=
  match file.protocolModelOrder.findIdx? fun pm => pm.name == flow.1 with
  | none => file
  | some i =>
    { file with protocolModelOrder := file.protocolModelOrder.modify i (·.learn flow.2) }

end Training

end Vsid
