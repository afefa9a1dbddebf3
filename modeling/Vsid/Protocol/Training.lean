import Vsid.Common.FlowManager
import Vsid.Protocol.DatabaseFile

/-!
# Training

`ProtocolModelUpdater` observes the flows that finish while a capture is read, looks each up in the
training file and merges its meters into the model that is named there. The two scripts
`reset_protocol_model.py` and `add_meter_to_database.py` change a database between two training
runs. They work on the document of the file; what they do to it is said here of what `read` makes
of it.
-/

set_option autoImplicit false

namespace Vsid

/-- `TrainingFlow`: a connection of a capture, and the protocol that it is known to use. -/
structure TrainingFlow where
  tuple : IPv4Tuple
  protocol : String

/-- `TrainingFlow::flowHash`. -/
def TrainingFlow.flowHash {R : Type} (S : Setup R) (flow : TrainingFlow) : UInt32 :=
  S.flowHash flow.tuple

/-- `TrainingFile`. -/
structure TrainingFile where
  flows : List TrainingFlow

/-- `ProtocolModel::find`, as a position. -/
def ProtocolModel.find {R : Type} (pm : ProtocolModel R) (k : MeterKind) : Option Nat :=
  pm.attributeMeters.findIdx? fun am => am.kind == k

/-- `ProtocolModelDb::find`, as a position. -/
def ProtocolModelDb.find {R : Type} (db : ProtocolModelDb R) (name : String) : Option Nat :=
  db.protocolModelOrder.findIdx? fun pm => pm.name == name

/-- `ProtocolModelUpdater`, with the database that it updates. -/
structure ProtocolModelUpdater (R : Type) where
  currentFile : TrainingFile
  database : ProtocolModelFile R
  updated : Bool

namespace ProtocolModelUpdater

variable {R : Type} [Double R]

/-- `ProtocolModelUpdater::flowFinished`: the first entry of the flow's hash decides. -/
def flowFinished (S : Setup R) (u : ProtocolModelUpdater R) (flow : Flow R) :
    ProtocolModelUpdater R :=
  match u.currentFile.flows.find? fun it => it.flowHash S == flow.hash with
  | none => u
  | some it =>
    { u with
      database := u.database.train (it.protocol, flow.attributeMeters)
      updated := u.updated || (((u.database.find it.protocol).bind
        fun i => u.database.protocolModelOrder[i]?).any fun pm =>
          flow.attributeMeters.any fun am => (pm.find am.kind).isSome) }

end ProtocolModelUpdater

/-! ## The scripts -/

section Scripts

variable {R : Type} [Double R]

/-- The values of a fingerprint are set to 0, and nothing else of the meter. -/
def AttributeMeter.reset (am : AttributeMeter R) : AttributeMeter R :=
  { am with fingerprint := am.fingerprint.map fun _ => 0 }

/-- `reset_protocol`: the named protocol, and its named attributes or all. -/
def ProtocolModelFile.resetProtocol (name : String) (attributes : Option (List String))
    (file : ProtocolModelFile R) : ProtocolModelFile R :=
  { file with
    protocolModelOrder := file.protocolModelOrder.map fun pm =>
      if pm.name == name then
        { pm with
          attributeMeters := pm.attributeMeters.map fun am =>
            if attributes.any fun names => !names.contains am.kind.name then am else am.reset }
      else pm }

/-- The meter that `add_attribute_meter` adds, as it is read. -/
def AttributeMeter.added (k : MeterKind) (stale : FirstBytes) : AttributeMeter R :=
  { (create k stale : AttributeMeter R) with
    fromDb := true
    enabled := true
    flowCount := 0
    fingerprint := List.replicate k.fingerprintSize 0 }

/-- `add_attribute_meter` on one model, with the size of the class. -/
def ProtocolModel.addAttributeMeter (stale : FirstBytes) (pm : ProtocolModel R) (k : MeterKind) :
    ProtocolModel R :=
  if pm.attributeMeters.any fun am => am.kind == k then pm
  else { pm with attributeMeters := pm.attributeMeters ++ [AttributeMeter.added k stale] }

end Scripts

end Vsid
