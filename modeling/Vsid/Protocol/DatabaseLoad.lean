import Vsid.Protocol.DatabaseFile

/-!
# A call of `read`, with what it leaves behind

`ProtocolModelFile.read` is what a successful `read` makes of a document. Here is the call itself:
the members are assigned one after the other while the document is walked, and an exception ends the
walk with the object as it is by then. `Vsid.Laws.DatabaseLoad` compares the two.

The classes that the walk enables in the `AttributeMeterFactory` stay enabled in any case. They are
no part of the object, and what is read does not depend on them.
-/

set_option autoImplicit false

namespace Vsid

/-- `ProtocolModelDb`, whether or not it has been read. -/
structure ProtocolModelDbObject (R : Type) extends ProtocolModelFile R where
  initialised : Bool

namespace ProtocolModelDbObject

variable {R : Type} [Double R]

/-- `ProtocolModelDb::ProtocolModelDb`. -/
def new : ProtocolModelDbObject R :=
  { definingLimit := 10
    cutoffLimit := 100
    protocolModelOrder := []
    portHintOrder := []
    version := ""
    modifiedTimes := []
    initialised := false }

/-- A model that was read is entered. -/
def enter (db : ProtocolModelDbObject R) (model : Option (ProtocolModel R)) :
    ProtocolModelDbObject R :=
  { db with
    toProtocolModelDb := model.elim db.toProtocolModelDb db.toProtocolModelDb.addModel }

/-- The loop over the models. The flag tells whether it came to its end. -/
def readModels (Y : Conversions R) (stale : FirstBytes) :
    ProtocolModelDbObject R → AttributeMeterFactory → List Yaml → ProtocolModelDbObject R × Bool
  | db, _, [] => (db, true)
  | db, factory, node :: nodes =>
    match ProtocolModelFile.readProtocolModel Y stale factory node with
    | none => (db, false)
    | some (model, factory) => readModels Y stale (db.enter model) factory nodes

/-- `ProtocolModelDb::read`, with what it returns. No file, or one that is not YAML, is `none`. -/
def read (Y : Conversions R) (stale : FirstBytes) (now : Int) (factory : AttributeMeterFactory)
    (db : ProtocolModelDbObject R) (document : Option Yaml) : ProtocolModelDbObject R × Bool :=
  if db.initialised then (db, false)
  else
    match document with
    | none => (db, false)
    | some root =>
      match (root.fieldAs Y.uint32 "DefiningLimit").join with
      | none => (db, false)
      | some definingLimit =>
        let db := { db with definingLimit := definingLimit }
        match (root.fieldAs Y.uint32 "CutoffLimit").join with
        | none => (db, false)
        | some cutoffLimit =>
          let db :=
            { db with cutoffLimit := ProtocolModelFile.adjustCutoff definingLimit cutoffLimit }
          match root.fieldAs Y.string "Version" with
          | none => (db, false)
          | some version =>
            let db := { db with version := version.getD firstVersion }
            match root.field "ModifiedTime" with
            | none => (db, false)
            | some modifiedTime =>
              let db :=
                { db with
                  modifiedTimes :=
                    db.modifiedTimes ++ ProtocolModelFile.readModifiedTimes Y now modifiedTime }
              match (root.field "ProtocolModels").bind Yaml.itemsOf with
              | none => (db, false)
              | some items =>
                match db.readModels Y stale factory items with
                | (db, false) => (db, false)
                | (db, true) =>
                  ({ db with
                      toProtocolModelDb := db.toProtocolModelDb.fillPortHintOrder
                      initialised := true }, true)

end ProtocolModelDbObject

end Vsid
