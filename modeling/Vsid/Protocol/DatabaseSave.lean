import Vsid.Protocol.DatabaseFile

/-!
# A call of `write`, with what it leaves behind

`ProtocolModelFile.write` is the document that `ProtocolModelDb::write` emits. Here is the call
itself: the old file is moved away, the new one is opened and the text is written to it, and each of
these can fail. What the YAML library makes of a document is handed in as `emit`.
-/

set_option autoImplicit false

namespace Vsid

/-- The contents of the files that are there, by name. -/
abbrev FileSystem := String → Option String

/-- How the operating system answers the calls of one `write`. A file that cannot be opened is
`none`; otherwise that many characters reach it before it is closed, whatever was asked for. -/
structure FileAnswers where
  renames : Bool
  opens : String → Option Nat

namespace FileSystem

/-- `std::rename`, if it returns zero. -/
def rename (fs : FileSystem) (os : FileAnswers) (source target : String) : Option FileSystem :=
  if os.renames && (fs source).isSome then
    some fun name => if name = target then fs source else if name = source then none else fs name
  else none

/-- What is left of a text of which so many characters were written. -/
def cut (text : String) (written : Nat) : String := String.ofList (text.toList.take written)

/-- An `ofstream` that is opened, written to and closed, if `is_open` holds. Neither the write nor
the close is tested. -/
def put (fs : FileSystem) (os : FileAnswers) (name text : String) : Option FileSystem :=
  (os.opens name).map fun written other =>
    if other = name then some (cut text written) else fs other

end FileSystem

/-- `ProtocolModelDb` with the names of its files. -/
structure ProtocolModelStore (R : Type) extends ProtocolModelFile R where
  filename : String
  backupfile : String

namespace ProtocolModelStore

variable {R : Type}

/-- The constructor's `_backupfile`. -/
def defaultBackup (filename backupfile : String) : String :=
  if backupfile = "" then filename ++ ".prev" else backupfile

/-- `errFile`. -/
def errFile (db : ProtocolModelStore R) : String := db.filename ++ ".new"

/-- `_modifiedTimes.insert(_modifiedTimes.begin(), now)`. -/
def stamp (db : ProtocolModelStore R) (now : Int) : ProtocolModelStore R :=
  { db with modifiedTimes := now :: db.modifiedTimes }

variable [Double R]

/-- The text of the new file. -/
def text (Y : Conversions R) (emit : Yaml → String) (now : Int) (db : ProtocolModelStore R) :
    String :=
  emit (ProtocolModelFile.write Y now db.toProtocolModelFile)

/-- `ProtocolModelDb::write`: the files and the database that it leaves, and what it returns. -/
def write (Y : Conversions R) (emit : Yaml → String) (now : Int) (os : FileAnswers)
    (fs : FileSystem) (db : ProtocolModelStore R) : FileSystem × ProtocolModelStore R × Bool :=
  let out := db.text Y emit now
  let db := db.stamp now
  match fs.rename os db.filename db.backupfile with
  | some fs =>
    match fs.put os db.filename out with
    | some fs => (fs, db, true)
    | none => (fs, db, false)
  | none =>
    match fs.put os db.errFile out with
    | some fs => (fs, db, false)
    | none => (fs, db, false)

end ProtocolModelStore

end Vsid
