import Vsid.Capture.PcapReader
import Vsid.Protocol.DatabaseSave
import Vsid.Protocol.TrainingInput

/-!
# The training program

`main` of the training program, from the options to the new database file: it reads the
configuration, the database and the list of training files, feeds the captures one after the other
to one flow manager, and writes the database if anything was learned. `ProtocolModelUpdater` hears
of a finished flow in the middle of a call of the manager, and changes the database that the manager
reads; here it hears of the flows of a call when the call returns, which is the same, since all that
the manager reads of the database in learning mode is the cutoff limit.

What the program finds around it is its `Machine`: the YAML library, the capture library, the order
in which a hash table is walked, the allocator, the clock and the operating system.
-/

set_option autoImplicit false

namespace Vsid

/-- The program, on a database that has changed. -/
def Setup.withDatabase {R : Type} (S : Setup R) (database : ProtocolModelDb R) : Setup R :=
  { S with database := database }

namespace Training

/-- A capture that `PcapReader::read` could open, with the packets that its filter lets through and
the memory that each is handed in. -/
structure Capture where
  datalink : Datalink
  packets : List (PcapPkthdr × (CaptureAddress → UInt8))

/-- The packets that `pcap_loop` has `addPacket` called with. -/
def Capture.handed (capture : Capture) : List IPv4Packet :=
  capture.packets.filterMap fun (pkthdr, mem) => PcapReader.handed capture.datalink pkthdr mem

/-- What the program finds around it. -/
structure Machine (R : Type) where
  /-- `YAML::LoadFile`, on the text of the file. -/
  load : String → Option Yaml
  emit : Yaml → String
  /-- Opening a capture with the filter, on the contents of the file. -/
  capture : String → Option Capture
  walk : FlowManager R → List UInt32
  staleBytes : Nat → FirstBytes
  now : Int
  os : FileAnswers

variable {R : Type} [Double R]

/-! ## The captures -/

/-- The flow manager and its observer. -/
structure Run (R : Type) where
  manager : FlowManager R
  updater : ProtocolModelUpdater R

namespace Run

/-- The observer hears of an event. -/
def observe (S : Setup R) (u : ProtocolModelUpdater R) (e : Event R) : ProtocolModelUpdater R :=
  match e.note with
  | .finished flow => u.flowFinished S flow
  | _ => u

/-- A call of the manager has returned. -/
def hear (S : Setup R) (run : Run R) (m : FlowManager R) : Run R :=
  { manager := m
    updater := (m.events.drop run.manager.events.length).foldl (observe S) run.updater }

/-- `FlowManager::addPacket`, on the database as it is. -/
def addPacket (S : Setup R) (run : Run R) (p : IPv4Packet) : Run R :=
  run.hear S
    (run.manager.addPacket (S.withDatabase run.updater.database.toProtocolModelDb) p)

/-- `FlowManager::finished`. -/
def finished (S : Setup R) (walk : FlowManager R → List UInt32) (run : Run R) : Option (Run R) :=
  (run.manager.finished (walk run.manager)).map (run.hear S)

/-- `ProtocolModelUpdater::setCurrentFile`. -/
def setCurrentFile (run : Run R) (file : TrainingFile) : Run R :=
  { run with updater := { run.updater with currentFile := file } }

/-- The body of the loop over the training files. `exists` is false for a file that is not there;
`read` returns false before the first packet, if it does. -/
def processFile (S : Setup R) (machine : Machine R) (fs : FileSystem) (run : Run R)
    (file : ListedFile) : Option (Run R) :=
  match fs file.filename with
  | none => some run
  | some contents =>
    let run := run.setCurrentFile file.toTrainingFile
    match machine.capture contents with
    | none => some run
    | some capture => (capture.handed.foldl (addPacket S) run).finished S machine.walk

/-- The loop over the training files. `none` when `finished` hangs. -/
def processFiles (S : Setup R) (machine : Machine R) (fs : FileSystem) (run : Run R)
    (files : List ListedFile) : Option (Run R) :=
  files.foldlM (processFile S machine fs) run

/-- `FlowManager` and `ProtocolModelUpdater` before the first file. No flow finishes before
`setCurrentFile` is called. -/
def start (database : ProtocolModelFile R) : Run R :=
  { manager := FlowManager.init
    updater := { currentFile := { flows := [] }, database := database, updated := false } }

end Run

/-! ## The configuration -/

/-- `Config`, with the timeout that it sets in `CommonConfig`. -/
structure Config where
  protocolDatabase : String
  protocolDatabaseBackup : String
  udpFlowTimeout : UInt32

/-- `Config::Config`. -/
def Config.new : Config :=
  { protocolDatabase := "protocol_model_db.yaml"
    protocolDatabaseBackup := ""
    udpFlowTimeout := (CommonConfig.initial : CommonConfig Nat).udpFlowTimeout }

/-- `Config::init`, once the file is loaded. -/
def Config.init (Y : Conversions R) (root : Yaml) : Option Config := do
  let database ← root.fieldAs Y.string "ProtocolDatabase"
  let backup ← root.fieldAs Y.string "ProtocolDatabaseBackup"
  let timeout ← root.fieldAs Y.uint32 "UdpFlowTimeout"
  some
    { protocolDatabase := database.getD Config.new.protocolDatabase
      protocolDatabaseBackup := backup.getD Config.new.protocolDatabaseBackup
      udpFlowTimeout := timeout.getD Config.new.udpFlowTimeout }

/-- The options of the command line. -/
structure Options where
  config : String := "config.yaml"
  protocolDb : String := ""
  training : String := ""

/-- `protocolDatabase(protocol_db)`, if the option was given. -/
def Config.override (config : Config) (options : Options) : Config :=
  if options.protocolDb = "" then config
  else { config with protocolDatabase := options.protocolDb }

/-- What the captures are read with. -/
def setup (machine : Machine R) (config : Config) (database : ProtocolModelDb R)
    (factory : AttributeMeterFactory) : Setup R :=
  { config :=
      { (CommonConfig.initial : CommonConfig R) with
        learningMode := true
        udpFlowTimeout := config.udpFlowTimeout }
    database := database
    factory := factory
    murmur := murmurHash3X86 Murmur3.seed
    staleBytes := machine.staleBytes }

/-! ## The program -/

/-- How the program ends. -/
inductive Ending where
  | exit
  /-- An exception that nobody catches. -/
  | terminate
  | hangs
  | returns
deriving DecidableEq, Repr

/-- The end of `main`: the captures, and the new database file. -/
def trainAll (Y : Conversions R) (machine : Machine R) (fs : FileSystem) (S : Setup R)
    (config : Config) (database : ProtocolModelFile R) (files : List ListedFile) :
    FileSystem × Ending :=
  match (Run.start database).processFiles S machine fs files with
  | none => (fs, .hangs)
  | some run =>
    if run.updater.updated then
      let store : ProtocolModelStore R :=
        { run.updater.database with
          filename := config.protocolDatabase
          backupfile := ProtocolModelStore.defaultBackup config.protocolDatabase
            config.protocolDatabaseBackup }
      ((store.write Y machine.emit machine.now machine.os fs).1, .returns)
    else (fs, .returns)

/-- `main`, from the configuration on. -/
def mainWith (Y : Conversions R) (machine : Machine R) (stale : FirstBytes) (options : Options)
    (fs : FileSystem) (config : Config) : FileSystem × Ending :=
  if config.protocolDatabase = "" then (fs, .exit)
  else
    match ((fs config.protocolDatabase).bind machine.load).bind
        (ProtocolModelFile.read Y stale machine.now { enabledAttributes := fun _ => false }) with
    | none => (fs, .exit)
    | some (database, factory) =>
      match (fs options.training).bind machine.load with
      | none => (fs, .exit)
      | some list =>
        match TrainingInput.read Y database.toProtocolModelDb list with
        | none => (fs, .terminate)
        | some files =>
          if files.isEmpty then (fs, .exit)
          else
            trainAll Y machine fs (setup machine config database.toProtocolModelDb factory) config
              database files

/-- `main`. -/
def main (Y : Conversions R) (machine : Machine R) (stale : FirstBytes) (options : Options)
    (fs : FileSystem) : FileSystem × Ending :=
  if options.config = "" then (fs, .exit)
  else
    match (fs options.config).bind machine.load with
    | none => (fs, .exit)
    | some root =>
      match Config.init Y root with
      | none => (fs, .terminate)
      | some config => mainWith Y machine stale options fs (config.override options)

end Training

end Vsid
