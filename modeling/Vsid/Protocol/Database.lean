import Vsid.Protocol.Meter

/-!
# The protocol model database, as the matching loop reads it

A `ProtocolModelDb` holds the models in database order and, for each hinted port, a search order.
The source keeps `shared_ptr`s to the models in both; `portHintOrder` holds positions in
`protocolModelOrder`, which is the same sharing. In classification mode nothing writes to the
database.
-/

namespace Vsid

/-- `ProtocolModel`. -/
structure ProtocolModel (R : Type) where
  name : String
  flowCount : UInt32
  enabled : Bool
  portHints : List UInt16
  attributeMeters : List (AttributeMeter R)

/-- `ProtocolModelDb` after `read`. -/
structure ProtocolModelDb (R : Type) where
  definingLimit : UInt32
  cutoffLimit : UInt32
  protocolModelOrder : List (ProtocolModel R)
  portHintOrder : List (UInt16 × List Nat)

namespace ProtocolModelDb

variable {R : Type}

/-- `ProtocolModelDb::ProtocolModelDb`. -/
def initial : ProtocolModelDb R :=
  { definingLimit := 10, cutoffLimit := 100, protocolModelOrder := [], portHintOrder := [] }

/-- `ProtocolModelDb::size`. -/
def size (db : ProtocolModelDb R) : Nat := db.protocolModelOrder.length

/-- `ProtocolModelDb::at`. Port 0 asks for the database order, and so does a port nobody hints. -/
def atPos (db : ProtocolModelDb R) (pos : Nat) (port : UInt16) : Option (ProtocolModel R) :=
  if port = 0 then db.protocolModelOrder[pos]?
  else
    match db.portHintOrder.lookup port with
    | some order => order[pos]?.bind fun i => db.protocolModelOrder[i]?
    | none => db.protocolModelOrder[pos]?

end ProtocolModelDb

end Vsid
