import Vsid.Common.FlowClassificationLogger
import Vsid.Programs.Training
import Vsid.Tools.AnalyseResults

/-!
# The classifier of captures

`main` of the classifier, from the options to the document that it adds to the file of results. It
reads the configuration and the database, feeds one capture to a flow manager, and finishes it. The
`TRACE` log goes to the file of results, by itself and without decoration: the head of the document
first, and a line for each call of an observer that `FlowClassificationLogger` answers.

A configuration that asks for worker threads is left to `Vsid.Common.Workers`.
-/

set_option autoImplicit false

namespace Vsid

/-! ## What is traced -/

/-- `static_cast` of a `Flow::State`. -/
def FlowState.toNumber : FlowState → Nat
  | new => 0
  | establishing => 1
  | established => 2
  | finishing => 3
  | finished => 4
  | finishedNotified => 5

/-- An address with a port. -/
def endpointText (ip : UInt32) (port : UInt16) : String :=
  Rendering.join ':' (dotted ip) (Rendering.decimal port.toNat)

namespace ResultLine

variable {R : Type}

/-- `operator<<(std::ostream&, const Flow&)`. Only a classified flow is announced as one. -/
def flowText (line : ResultLine R) : String :=
  "\x7bpkt_count: " ++ Rendering.decimal line.pktCount.toNat ++
    ", overall_pkt_count: " ++ Rendering.decimal line.overallPktCount.toNat ++
    ", state: " ++ Rendering.decimal line.state.toNumber ++
    ", hash: " ++ Rendering.decimal line.hash.toNat ++
    ", transport: " ++ Rendering.decimal line.tuple.transport.toNat ++
    ", src: '" ++ endpointText line.tuple.srcIp line.tuple.srcPort ++
    "', dst: '" ++ endpointText line.tuple.dstIp line.tuple.dstPort ++
    "', classified: " ++ (if line.classified then "true" else "false") ++ "\x7d"

/-- A line of the document; `double` is the `operator<<` of a number. -/
def text (double : R → String) (line : ResultLine R) : String :=
  (if line.classified then
    "  - \x7b Result: Classified, Protocol: " ++ line.protocol ++
      ", Divergence: " ++ double line.divergence
  else
    "  - \x7b Result: NotClassified, BestMatch: " ++ line.protocol ++
      ", BestMatchDivergence: " ++ double line.divergence) ++
    ", Flow: " ++ line.flowText ++ "\x7d"

end ResultLine

/-- A document of the file of results. -/
structure Report (R : Type) where
  fileName : String
  lastModifiedTime : Int
  cutoffLimit : UInt32
  definingLimit : UInt32
  divergenceThreshold : R
  input : String
  lines : List (ResultLine R)

namespace PcapClassifier

/-- What the program finds around it. -/
structure Machine (R : Type) where
  /-- `YAML::LoadFile`, on the text of the file. -/
  load : String → Option Yaml
  /-- Opening a capture with the filter, on the contents of the file. -/
  capture : String → Option Training.Capture
  walk : FlowManager R → List UInt32
  staleBytes : Nat → FirstBytes
  now : Int
  /-- `operator<<` of a `double`. -/
  double : R → String
  /-- `boost::posix_time::to_iso_string`. -/
  isoString : Int → String

end PcapClassifier

namespace Report

open PcapClassifier

variable {R : Type}

/-- The document without the `---` that it starts with. -/
def body (machine : Machine R) (report : Report R) : String :=
  "\nProtocolDatabase: \x7bFileName: " ++ report.fileName ++
    ", LastModifiedTime: " ++ machine.isoString report.lastModifiedTime ++
    ", CutoffLimit: " ++ Rendering.decimal report.cutoffLimit.toNat ++
    ", DefiningLimit: " ++ Rendering.decimal report.definingLimit.toNat ++
    "\x7d\nKLDivergenceThreshold: " ++ machine.double report.divergenceThreshold ++
    "\nInput: \"" ++ report.input ++ "\"\nResults: " ++
    String.join (report.lines.map fun line => "\n" ++ line.text machine.double) ++ "\n"

/-- What the program adds to the file. -/
def text (machine : Machine R) (report : Report R) : String := "---" ++ report.body machine

end Report

namespace PcapClassifier

variable {R : Type} [Double R]

/-- The packets that `pcap_loop` has `addPacket` called with. -/
def handed (capture : Training.Capture) : List IPv4Packet :=
  capture.packets.filterMap fun (pkthdr, mem) => PcapReader.handed capture.datalink pkthdr mem

/-! ## The configuration -/

/-- The conversions of the classifier's configuration. -/
structure ConfigConversions (R : Type) extends Conversions R where
  int : Codec Int
  size : Codec Nat

/-- `Config`, with what it sets in `CommonConfig`. -/
structure Config (R : Type) where
  protocolDatabase : String
  common : CommonConfig R

/-- `Config::init`, once the file is loaded. There are no threads for a negative number either. -/
def Config.init (Y : ConfigConversions R) (root : Yaml) : Option (Config R) := do
  let database ← root.fieldAs Y.string "ProtocolDatabase"
  let timeout ← root.fieldAs Y.uint32 "UdpFlowTimeout"
  let threshold ← root.fieldAs Y.double "KLDivergenceThreshold"
  let bestMatch ← root.fieldAs Y.bool "UseBestMatchDivergence"
  let portHints ← root.fieldAs Y.bool "UsePortHints"
  let threads ← root.fieldAs Y.int "NumWorkerThreadsPerQueue"
  let queueSize ← root.fieldAs Y.size "WorkerThreadQueueSize"
  let before : CommonConfig R := CommonConfig.initial
  some
    { protocolDatabase := database.getD "protocol_model_db.yaml"
      common :=
        { before with
          learningMode := false
          udpFlowTimeout := timeout.getD before.udpFlowTimeout
          divergenceThreshold := threshold.getD before.divergenceThreshold
          useBestMatch := bestMatch.getD before.useBestMatch
          usePortHints := portHints.getD before.usePortHints
          workerThreadsPerQueue := (threads.getD 0).toNat
          workerThreadQueueSize := queueSize.getD before.workerThreadQueueSize } }

/-- The options of the command line. -/
structure Options where
  config : String := "config.yaml"
  protocolDb : String := ""
  pcapFile : String := ""

/-- `protocolDatabase(protocol_db)`, if the option was given. -/
def Config.override (config : Config R) (options : Options) : Config R :=
  if options.protocolDb = "" then config
  else { config with protocolDatabase := options.protocolDb }

/-! ## The program -/

/-- How the program ends, or what goes on with it. -/
inductive Outcome where
  | exit
  /-- An exception that nobody catches. -/
  | terminate
  | threads
  | hangs
  | returns
deriving DecidableEq, Repr

/-- What the capture is classified with. -/
def setup (machine : Machine R) (config : Config R) (database : ProtocolModelDb R)
    (factory : AttributeMeterFactory) : Setup R :=
  { config := config.common
    database := database
    factory := factory
    murmur := murmurHash3X86 Murmur3.seed
    staleBytes := machine.staleBytes }

/-- `PcapReader::read`, and `finished` if it was successful, on the contents of the capture. -/
def readCapture (machine : Machine R) (S : Setup R) (contents : String) :
    FlowManager R × Outcome :=
  match machine.capture contents with
  | none => (FlowManager.init, .returns)
  | some capture =>
    let manager := FlowManager.addPackets S (handed capture)
    match manager.finished (machine.walk manager) with
    | none => (manager, .hangs)
    | some manager => (manager, .returns)

/-- What is traced in a run of the manager. -/
def report (S : Setup R) (config : Config R) (modifiedTime : Int) (input : String)
    (manager : FlowManager R) : Report R :=
  { fileName := config.protocolDatabase
    lastModifiedTime := modifiedTime
    cutoffLimit := S.database.cutoffLimit
    definingLimit := S.database.definingLimit
    divergenceThreshold := S.config.divergenceThreshold
    input := input
    lines := FlowClassificationLogger.lines (manager.events.map (·.note)) }

/-- The end of `main`: the capture. -/
def classifyCapture (machine : Machine R) (options : Options) (contents : String)
    (config : Config R) (database : ProtocolModelFile R) (factory : AttributeMeterFactory) :
    Option (Report R) × Outcome :=
  let S := setup machine config database.toProtocolModelDb factory
  if 0 < S.config.workerThreadsPerQueue then (none, .threads)
  else
    let (manager, outcome) := readCapture machine S contents
    let modifiedTime := database.modifiedTimes.headD machine.now
    (some (report S config modifiedTime options.pcapFile manager), outcome)

/-- `main`, from the configuration on. -/
def mainWith (Y : ConfigConversions R) (machine : Machine R) (stale : FirstBytes)
    (options : Options) (fs : FileSystem) (contents : String) (config : Config R) :
    Option (Report R) × Outcome :=
  if config.protocolDatabase = "" then (none, .exit)
  else
    match ((fs config.protocolDatabase).bind machine.load).bind
        (ProtocolModelFile.read Y.toConversions stale machine.now
          { enabledAttributes := fun _ => false }) with
    | none => (none, .exit)
    | some (database, factory) => classifyCapture machine options contents config database factory

/-- `main`. -/
def main (Y : ConfigConversions R) (machine : Machine R) (stale : FirstBytes) (options : Options)
    (fs : FileSystem) : Option (Report R) × Outcome :=
  match fs options.pcapFile with
  | none => (none, .exit)
  | some contents =>
    if options.config = "" then (none, .exit)
    else
      match (fs options.config).bind machine.load with
      | none => (none, .exit)
      | some root =>
        match Config.init Y root with
        | none => (none, .terminate)
        | some config => mainWith Y machine stale options fs contents (config.override options)

/-! ## Runs of the program -/

/-- A call of the program. -/
structure Call (R : Type) where
  machine : Machine R
  stale : FirstBytes
  options : Options

/-- What a call reports. -/
def Call.report (Y : ConfigConversions R) (fs : FileSystem) (call : Call R) : Option (Report R) :=
  (main Y call.machine call.stale call.options fs).1

/-- The file of results after some calls: each adds its document to it. -/
def runAll (Y : ConfigConversions R) (fs : FileSystem) (log : List Char) (calls : List (Call R)) :
    List Char :=
  calls.foldl
    (fun log call =>
      log ++ ((call.report Y fs).map fun report => (report.text call.machine).toList).getD [])
    log

end PcapClassifier

end Vsid
