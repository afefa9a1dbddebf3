import Vsid.Lib.YamlEdit
import Vsid.Protocol.Training

/-!
# The scripts that edit a database

Each script under `tools/` that changes a database loads its document, changes it in place and saves
it. An exception, which leaves the file as it was, is `none`. What the script writes is given by the
text that the YAML library of the script has for it; how it reads a name is a matter of that library
too, and names are taken to be texts for it.

`Edit` is a call from the command line, with the file itself as destination. Next to what a call
does to the document stands what it means for the database, `Edit.apply`.
-/

set_option autoImplicit false

namespace Vsid

namespace DatabaseScripts

/-- A Boolean, as it is saved. -/
def ofBool (b : Bool) : Yaml := .scalar (if b then "true" else "false")

/-- A whole number, as it is saved. -/
def ofInt (n : Int) : Yaml := .scalar (toString n)

/-- `protocols is not None and proto["ProtocolName"] not in protocols`. -/
def skips (protocols : Option (List String)) (proto : Yaml) : Option Bool :=
  match protocols with
  | none => some false
  | some names => do
    let name ← proto.member "ProtocolName"
    some (!(names.any fun text => name.isText text))

/-- `toggle_attribute_meter`. -/
def toggleAttributeMeter (name : String) (enabled : Bool) (protocols : Option (List String))
    (database : Yaml) : Option Yaml :=
  database.update "ProtocolModels" <| Yaml.updateItems fun proto => do
    if ← skips protocols proto then some proto
    else
      proto.update "AttributeMeters" <| Yaml.updateItems fun meter => do
        let meterName ← meter.member "AttributeName"
        if meterName.isText name || name == "all" then meter.assign "Enabled" (ofBool enabled)
        else some meter

/-- `toggle_protocol_model`. -/
def toggleProtocolModel (name : String) (enabled : Bool) (database : Yaml) : Option Yaml :=
  database.update "ProtocolModels" <| Yaml.updateItems fun proto => do
    let protocol ← proto.member "ProtocolName"
    if protocol.isText name || name == "all" then proto.assign "Enabled" (ofBool enabled)
    else some proto

/-- `set_defining_limit`. -/
def setDefiningLimit (limit : Int) (database : Yaml) : Option Yaml :=
  database.assign "DefiningLimit" (ofInt limit)

/-- `reset_protocol`. -/
def resetProtocol (name : String) (attributes : Option (List String)) (database : Yaml) :
    Option Yaml :=
  database.update "ProtocolModels" <| Yaml.updateItems fun proto => do
    let protocol ← proto.member "ProtocolName"
    if protocol.isText name then
      proto.update "AttributeMeters" <| Yaml.updateItems fun meter => do
        let meterName ← meter.member "AttributeName"
        if attributes.any fun names => !(names.any fun text => meterName.isText text) then
          some meter
        else meter.update "FingerPrint" (Yaml.fill (ofInt 0))
    else some proto

/-- The dictionary `am` of `add_attribute_meter`. -/
def newMeter (name : String) (size : Int) : Yaml :=
  .map
    [("AttributeName", .scalar name), ("Enabled", ofBool true), ("FlowCount", ofInt 0),
      ("FingerPrint", .sequence (List.replicate size.toNat (ofInt 0)))]

/-- What `add_attribute_meter` does with a protocol that is not skipped. -/
def addMeterTo (name : String) (size : Int) (proto : Yaml) : Option Yaml := do
  let meters ← (← proto.member "AttributeMeters").elements
  let meterNames ← meters.mapM fun meter => meter.member "AttributeName"
  if meterNames.any fun meterName => meterName.isText name then some proto
  else proto.update "AttributeMeters" (Yaml.append (newMeter name size))

/-- `add_attribute_meter`. -/
def addAttributeMeter (name : String) (size : Int) (protocols : Option (List String))
    (database : Yaml) : Option Yaml :=
  database.update "ProtocolModels" <| Yaml.updateItems fun proto => do
    if ← skips protocols proto then some proto else addMeterTo name size proto

/-- The loop of `move_protocol`. -/
def findProtocol (protocol : String) : List Yaml → Option (Option Nat)
  | [] => some none
  | proto :: protos => do
    let name ← proto.member "ProtocolName"
    if name.isText protocol then some (some 0)
    else
      let index ← findProtocol protocol protos
      some (index.map (· + 1))

/-- `move_protocol`. Nothing is saved if there is no such protocol. -/
def moveProtocol (protocol : String) (position : Int) (database : Yaml) : Option Yaml := do
  let models ← database.member "ProtocolModels"
  let items ← models.elements
  match ← findProtocol protocol items with
  | none => some database
  | some index => database.assign "ProtocolModels" (.sequence (moveTo items index position))

end DatabaseScripts

/-- A call of one of the scripts. -/
inductive Edit where
  | moveProtocol (protocol : String) (position : Int)
  | toggleAttributeMeter (name : String) (enabled : Bool) (protocols : Option (List String))
  | toggleProtocolModel (name : String) (enabled : Bool)
  | setDefiningLimit (limit : Int)
  | resetProtocol (name : String) (attributes : Option (List String))
  | addAttributeMeter (name : String) (size : Int) (protocols : Option (List String))

namespace Edit

/-- `main` of a script gives up without a name, and without a limit of 2 at least. -/
def isRefused : Edit → Bool
  | moveProtocol name _ | toggleAttributeMeter name _ _ | toggleProtocolModel name _
  | resetProtocol name _ | addAttributeMeter name _ _ => name == ""
  | setDefiningLimit limit => decide (limit < 2)

/-- What the script does with the document. -/
def edited : Edit → Yaml → Option Yaml
  | moveProtocol protocol position => DatabaseScripts.moveProtocol protocol position
  | toggleAttributeMeter name enabled protocols =>
    DatabaseScripts.toggleAttributeMeter name enabled protocols
  | toggleProtocolModel name enabled => DatabaseScripts.toggleProtocolModel name enabled
  | setDefiningLimit limit => DatabaseScripts.setDefiningLimit limit
  | resetProtocol name attributes => DatabaseScripts.resetProtocol name attributes
  | addAttributeMeter name size protocols => DatabaseScripts.addAttributeMeter name size protocols

/-- The document in the file after the call. -/
def run (e : Edit) (database : Yaml) : Option Yaml :=
  if e.isRefused then some database else e.edited database

/-! ## What it means -/

variable {R : Type} [Double R]

/-- The protocol is one of those that are named, if any are. -/
def allows (protocols : Option (List String)) (pm : ProtocolModel R) : Bool :=
  protocols.all fun names => names.contains pm.name

/-- The models after the call. -/
def applyModels (stale : FirstBytes) :
    Edit → List (ProtocolModel R) → List (ProtocolModel R)
  | moveProtocol protocol position, models =>
    (models.findIdx? fun pm => pm.name == protocol).elim models fun i => moveTo models i position
  | toggleAttributeMeter name enabled protocols, models => models.map fun pm =>
    if allows protocols pm then
      { pm with
        attributeMeters := pm.attributeMeters.map fun am =>
          if am.kind.name == name || name == "all" then { am with enabled := enabled } else am }
    else pm
  | toggleProtocolModel name enabled, models => models.map fun pm =>
    if pm.name == name || name == "all" then { pm with enabled := enabled } else pm
  | setDefiningLimit _, models => models
  | resetProtocol name attributes, models => models.map fun pm =>
    if pm.name == name then
      { pm with
        attributeMeters := pm.attributeMeters.map fun am =>
          if attributes.any fun names => !names.contains am.kind.name then am else am.reset }
    else pm
  | addAttributeMeter name _ protocols, models => models.map fun pm =>
    if allows protocols pm then (MeterKind.ofName name).elim pm (pm.addAttributeMeter stale) else pm

/-- The database after the call. -/
def apply (stale : FirstBytes) (e : Edit) (file : ProtocolModelFile R) : ProtocolModelFile R :=
  if e.isRefused then file
  else
    { file with
      definingLimit :=
        match e with
        | setDefiningLimit limit => UInt32.ofNat limit.toNat
        | _ => file.definingLimit
      protocolModelOrder := e.applyModels stale file.protocolModelOrder }

/-- What the program can load: a limit that it can hold, and a meter of a class that it has, of the
size that the class has. The scripts check neither. -/
def IsProper : Edit → Prop
  | setDefiningLimit limit => limit < 2 ^ 32
  | addAttributeMeter name size _ =>
    ∃ k, MeterKind.ofName name = some k ∧ size = k.fingerprintSize
  | _ => True

end Edit

end Vsid
