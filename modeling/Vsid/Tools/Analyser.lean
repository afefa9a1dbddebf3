import Mathlib.Data.List.AList
import Mathlib.Algebra.Field.Rat
import Mathlib.Algebra.Order.Ring.Rat
import Vsid.Lib.Split
import Vsid.Tools.AnalyseResults

/-!
# The analysis of the results

`analyse_results.py` reads the results of one or more runs of the classifier, the names in the
database and the list of expected flows, and counts for every protocol what the classifier got right
and wrong. Opening files and `yaml.load` are parameters. A document is a run when it has the fields
that the classifier writes at its head. Divisions are those of rational numbers.
-/

set_option autoImplicit false

namespace Vsid

/-- How the script ends before its last line: `sys.exit(1)`, or an exception. -/
inductive ScriptError where
  | exit
  | attributeError
  | indexError
  | keyError
  | nameError
  | typeError
  | valueError
  | yamlError
  | zeroDivisionError
deriving DecidableEq, Repr

/-- The name of a protocol. `none` is `None`. -/
abbrev ProtocolName := Option String

/-! ## `ProtocolResult` -/

/-- `ProtocolResult`. -/
structure ProtocolResult where
  name : ProtocolName
  truePositive : Nat
  falsePositive : Nat
  trueNegative : Nat
  falseNegative : Nat
  notClassified : Nat
  underDefiningLimit : Nat
  expected : Int
  falsePositiveProtocols : ProtocolName → Option Nat
  falseNegativeProtocols : ProtocolName → Option Nat
  minPktCount : Nat
  maxPktCount : Nat
  minDivergence : ℚ
  maxDivergence : ℚ

/-- The three figures of an analysis, as percentages. -/
structure Analysis where
  recallRate : ℚ
  precision : ℚ
  fmeasure : ℚ
deriving DecidableEq, Repr

namespace ProtocolResult

/-- `ProtocolResult.__init__`. -/
def init (name : ProtocolName) : ProtocolResult :=
  { name := name, truePositive := 0, falsePositive := 0, trueNegative := 0, falseNegative := 0,
    notClassified := 0, underDefiningLimit := 0, expected := 0,
    falsePositiveProtocols := fun _ => none, falseNegativeProtocols := fun _ => none,
    minPktCount := 0, maxPktCount := 0, minDivergence := 0, maxDivergence := 0 }

def increaseTruePositive (p : ProtocolResult) : ProtocolResult :=
  { p with truePositive := p.truePositive + 1 }

def increaseFalsePositive (p : ProtocolResult) : ProtocolResult :=
  { p with falsePositive := p.falsePositive + 1 }

def increaseTrueNegative (p : ProtocolResult) : ProtocolResult :=
  { p with trueNegative := p.trueNegative + 1 }

def increaseFalseNegative (p : ProtocolResult) : ProtocolResult :=
  { p with falseNegative := p.falseNegative + 1 }

def increaseNotClassified (p : ProtocolResult) : ProtocolResult :=
  { p with notClassified := p.notClassified + 1 }

def increaseExpected (p : ProtocolResult) : ProtocolResult := { p with expected := p.expected + 1 }

def decreaseExpected (p : ProtocolResult) : ProtocolResult := { p with expected := p.expected - 1 }

def increaseUnderDefiningLimit (p : ProtocolResult) : ProtocolResult :=
  { p with underDefiningLimit := p.underDefiningLimit + 1 }

/-- One more for a protocol in a dictionary of counts. -/
def countProtocol (counts : ProtocolName → Option Nat) (protocol : ProtocolName) :
    ProtocolName → Option Nat :=
  fun name => if name = protocol then some ((counts name).getD 0 + 1) else counts name

def addFalsePositiveProtocol (p : ProtocolResult) (protocol : ProtocolName) : ProtocolResult :=
  { p with falsePositiveProtocols := countProtocol p.falsePositiveProtocols protocol }

def addFalseNegativeProtocol (p : ProtocolResult) (protocol : ProtocolName) : ProtocolResult :=
  { p with falseNegativeProtocols := countProtocol p.falseNegativeProtocols protocol }

/-- `add_divergence`. A limit that is zero counts as not set. -/
def addDivergence (p : ProtocolResult) (divergence : ℚ) : ProtocolResult :=
  { p with
    minDivergence :=
      if p.minDivergence = 0 ∨ divergence < p.minDivergence then divergence else p.minDivergence
    maxDivergence :=
      if p.maxDivergence = 0 ∨ p.maxDivergence < divergence then divergence else p.maxDivergence }

/-- `add_pkt_count`. -/
def addPktCount (p : ProtocolResult) (count : Nat) (classified : Bool) : ProtocolResult :=
  { p with
    minPktCount :=
      if classified ∧ (p.minPktCount = 0 ∨ count < p.minPktCount) then count else p.minPktCount
    maxPktCount :=
      if classified ∧ (p.maxPktCount = 0 ∨ p.maxPktCount < count) then count else p.maxPktCount }

/-- `/`. -/
def divide (a b : ℚ) : Except ScriptError ℚ :=
  if b = 0 then .error .zeroDivisionError else .ok (a / b)

/-- The share of `hits`; without any hits and misses it is zero. -/
def share (hits misses : Int) : Except ScriptError ℚ :=
  if hits = 0 ∧ misses = 0 then .ok 0 else divide hits ((hits + misses : Int) : ℚ)

/-- The harmonic mean of the two shares. -/
def harmonic (precision recallRate : ℚ) : Except ScriptError ℚ :=
  if precision = 0 ∧ recallRate = 0 then .ok 0
  else divide (2 * precision * recallRate) (precision + recallRate)

/-- The lines that the two analyses share, with the number of false negatives. -/
def analyse (p : ProtocolResult) (falseNegative : Int) : Except ScriptError Analysis := do
  let recallRate ← share p.truePositive falseNegative
  let precision ← share p.truePositive p.falsePositive
  let fmeasure ← harmonic precision recallRate
  pure { recallRate := recallRate * 100, precision := precision * 100, fmeasure := fmeasure * 100 }

/-- `calculate_analysis`. -/
def calculateAnalysis (p : ProtocolResult) : Except ScriptError Analysis :=
  p.analyse p.falseNegative

/-- `calculate_analysis_inc_not_classified`. -/
def calculateAnalysisIncNotClassified (p : ProtocolResult) : Except ScriptError Analysis :=
  let nc : Int := p.notClassified - p.underDefiningLimit
  p.analyse (p.falseNegative + nc)

/-- A part in percent. Of nothing it is zero. -/
def percentOf (part whole : Int) : Except ScriptError ℚ :=
  if whole ≠ 0 then do
    let share ← divide part whole
    pure (share * 100)
  else pure 0

/-- `calculate_not_classified`: the rate of the unclassified flows and of those under the limit. -/
def calculateNotClassified (p : ProtocolResult) : Except ScriptError (ℚ × ℚ) := do
  let exp : Int := p.expected - p.underDefiningLimit
  let nc : Int := p.notClassified - p.underDefiningLimit
  let adjusted ← percentOf nc exp
  let ul ← percentOf p.underDefiningLimit p.expected
  pure (adjusted, ul)

end ProtocolResult

/-- What `analyse_results` prints of a protocol: `xxa_…`, `nc_…`, `unclassified` and `under_limit`. -/
structure Rates where
  all : Analysis
  incNotClassified : Analysis
  unclassified : ℚ
  underLimit : ℚ
deriving DecidableEq, Repr

/-- The body of the loop of `analyse_results`. -/
def ProtocolResult.rates (p : ProtocolResult) : Except ScriptError Rates := do
  let all ← p.calculateAnalysis
  let incNotClassified ← p.calculateAnalysisIncNotClassified
  let (nc, ul) ← p.calculateNotClassified
  pure { all := all, incNotClassified := incNotClassified, unclassified := nc, underLimit := ul }

/-! ## What is read -/

/-- The field `Flow` of a result. -/
structure ResultFlow where
  src : String
  dst : String
  transport : ScriptProtocol
  classified : Bool
  pktCount : Nat
deriving DecidableEq, Repr

/-- One of the `Results`. The two fields of a classification may be missing. -/
structure ClassifierResult where
  flow : ResultFlow
  protocol : Option ProtocolName
  divergence : Option ℚ
deriving DecidableEq, Repr

/-- A document of the results file. -/
structure ResultSet where
  fileName : String
  definingLimit : Nat
  cutoffLimit : Nat
  klDivergenceThreshold : ℚ
  results : Option (List ClassifierResult)
deriving DecidableEq, Repr

/-- One of the `flows`. -/
structure ListedFlow where
  srcIp : String
  srcPort : Nat
  dstIp : String
  dstPort : Nat
  transport : ScriptProtocol
  protocol : ProtocolName
deriving DecidableEq, Repr

/-- The members `l7protocol` and `seen` of an `IPv4Tuple` that comes from the list of flows. -/
structure ExpectedFlow where
  l7protocol : ProtocolName
  seen : Bool
deriving DecidableEq, Repr

/-- `yaml.load` of a text with results. -/
abbrev ResultLoader := List Char → Except ScriptError (Option ResultSet)

/-- What the script finds when it opens a file and loads it. The error of `database` and `flows` is
the one that the script ends with. -/
structure ScriptFiles where
  text : String → Except ScriptError (List Char)
  load : ResultLoader
  database : String → Except ScriptError (Option (List ProtocolName))
  flows : String → Except ScriptError (List ListedFlow)

/-- `int(text)`, without the numbers that are negative: no port is. -/
def portOfText (text : List Char) : Option Nat :=
  let blank := fun c : Char => c.isWhitespace || c == '\x0b' || c == '\x0c'
  let body := ((text.dropWhile blank).reverse.dropWhile blank).reverse
  let digits := if body.head? = some '+' then body.tail else body
  if digits ≠ [] ∧ digits.all Char.isDigit then some (Nat.ofDigitChars 10 digits 0) else none

/-- `int(pieces[1])`. -/
def portOfPieces (pieces : List (List Char)) : Except ScriptError Nat :=
  match pieces[1]? with
  | none => .error .indexError
  | some text =>
    match portOfText text with
    | none => .error .valueError
    | some port => .ok port

/-- The text by which a result is looked up in the list of flows. -/
def ResultFlow.dictRepr (flow : ResultFlow) : Except ScriptError String := do
  let src := flow.src.toList.splitOn ':'
  let dst := flow.dst.toList.splitOn ':'
  let srcPort ← portOfPieces src
  let dstPort ← portOfPieces dst
  pure (ScriptTuple.init (String.ofList (src.headD [])) srcPort (String.ofList (dst.headD []))
    dstPort flow.transport).dictRepr

/-- The text of a listed flow. -/
def ListedFlow.dictRepr (flow : ListedFlow) : String :=
  (ScriptTuple.init flow.srcIp flow.srcPort flow.dstIp flow.dstPort flow.transport).dictRepr

/-! ## `Analyser` -/

/-- `self.protocol_results`. -/
abbrev ProtocolTable := ProtocolName → Option ProtocolResult

namespace ProtocolTable

/-- `if name not in t: t[name] = ProtocolResult(name)`. -/
def add (t : ProtocolTable) (name : ProtocolName) : ProtocolTable :=
  fun k => if k = name then some ((t k).getD (.init name)) else t k

/-- `t[name].f()`, of a name that is there. -/
def modify (t : ProtocolTable) (name : ProtocolName) (f : ProtocolResult → ProtocolResult) :
    ProtocolTable :=
  fun k => if k = name then (t k).map f else t k

/-- `t[name].f()`. -/
def update (t : ProtocolTable) (name : ProtocolName) (f : ProtocolResult → ProtocolResult) :
    Except ScriptError ProtocolTable :=
  if (t name).isSome then .ok (t.modify name f) else .error .keyError

/-- The loops over all protocols but some. -/
def modifyUnless (t : ProtocolTable) (skip : ProtocolName → Bool)
    (f : ProtocolResult → ProtocolResult) : ProtocolTable :=
  fun k => if skip k then t k else (t k).map f

end ProtocolTable

/-- `self.flows`. -/
abbrev FlowTable := AList fun _ : String => ExpectedFlow

/-- `Analyser`. -/
structure Analyser where
  protocolResults : ProtocolTable
  results : Option ResultSet
  flows : Option FlowTable
  defaultProtocol : ProtocolName
  protocolDatabase : Option String
  definingLimit : Nat
  cutoffLimit : Nat
  divergenceThreshold : ℚ

namespace Analyser

/-- `Analyser.__init__`. -/
def init (defaultProtocol : ProtocolName) (protocolDatabase : Option String) : Analyser :=
  { protocolResults := fun _ => none, results := none, flows := none
    defaultProtocol := defaultProtocol, protocolDatabase := protocolDatabase
    definingLimit := 0, cutoffLimit := 0, divergenceThreshold := 0 }

/-- The database: without an option the one that the results name. -/
def databaseFile (a : Analyser) : Except ScriptError String :=
  match a.protocolDatabase, a.results with
  | some file, _ => .ok file
  | none, some run => .ok run.fileName
  | none, none => .error .typeError

/-- `read_database`. A database without a document is reported with a variable that is not set. -/
def readDatabase (files : ScriptFiles) (a : Analyser) : Except ScriptError Analyser := do
  let file ← a.databaseFile
  match ← files.database file with
  | none => .error .nameError
  | some names =>
    pure
      { a with
        protocolDatabase := some file
        protocolResults := names.foldl ProtocolTable.add a.protocolResults }

/-- The body of the loop over the pieces of a file with more than one set of results. The limits are
those of the last set but not of a first one. -/
def readRun (load : ResultLoader) (a : Analyser) (run : List Char) :
    Except ScriptError Analyser :=
  if run.isEmpty then .ok a
  else do
    match ← load run with
    | none => pure a
    | some oneRun =>
      match a.results with
      | none => pure { a with results := some oneRun }
      | some results =>
        let a :=
          { a with
            definingLimit := oneRun.definingLimit, cutoffLimit := oneRun.cutoffLimit
            divergenceThreshold := oneRun.klDivergenceThreshold }
        match oneRun.results with
        | none => pure a
        | some more =>
          match results.results with
          | none => .error .typeError
          | some before =>
            pure { a with results := some { results with results := some (before ++ more) } }

/-- What separates the runs. -/
def runSeparator : List Char := ['-', '-', '-']

/-- The body of `read_results`, once the file is read. -/
def readText (load : ResultLoader) (a : Analyser) (text : List Char) :
    Except ScriptError Analyser :=
  let runs := split runSeparator text
  if 2 < runs.length then runs.foldlM (readRun load) a
  else do
    let results ← load text
    pure { a with results := results }

/-- `read_results`: every exception ends in `sys.exit(1)`. -/
def readResults (files : ScriptFiles) (a : Analyser) (file : Option String) :
    Except ScriptError Analyser :=
  match file with
  | none => .error .exit
  | some name =>
    match files.text name with
    | .error _ => .error .exit
    | .ok text =>
      match readText files.load a text with
      | .error _ => .error .exit
      | .ok a => .ok a

/-- The body of the loop of `read_flows`. -/
def addFlow (s : FlowTable × ProtocolTable) (flow : ListedFlow) : FlowTable × ProtocolTable :=
  (s.1.insert flow.dictRepr { l7protocol := flow.protocol, seen := false },
    (s.2.add flow.protocol).modify flow.protocol .increaseExpected)

/-- `read_flows`. -/
def readFlows (files : ScriptFiles) (a : Analyser) (file : Option String) :
    Except ScriptError Analyser :=
  match file with
  | none => .ok a
  | some name => do
    let listed ← files.flows name
    let (flows, table) := listed.foldl addFlow (a.flows.getD ∅, a.protocolResults)
    pure { a with flows := some flows, protocolResults := table }

/-- The protocol that a flow is expected to have. A flow of the list is marked as seen, any other one
is counted for the default protocol. -/
def expect (a : Analyser) (key : String) : Except ScriptError (ProtocolName × Analyser) :=
  match a.flows.bind (·.lookup key) with
  | some flow =>
    .ok (flow.l7protocol,
      { a with flows := a.flows.map (·.insert key { flow with seen := true }) })
  | none =>
    if a.defaultProtocol = none then .ok (none, a)
    else do
      let table ← a.protocolResults.update a.defaultProtocol .increaseExpected
      pure (a.defaultProtocol, { a with protocolResults := table })

/-- The protocols that a result is about are put into the table. -/
def addNamed (t : ProtocolTable) (result : ClassifierResult) (expected : ProtocolName) :
    ProtocolTable :=
  match result.protocol with
  | some protocol => (t.add expected).add protocol
  | none => t.add expected

/-- A classified flow: a hit for the expected protocol, or a miss for it and a false alarm for the
other one. -/
def countClassified (t : ProtocolTable) (result : ClassifierResult) (expected : ProtocolName) :
    Except ScriptError ProtocolTable :=
  match result.protocol with
  | none => .error .keyError
  | some protocol =>
    if protocol = expected then
      match result.divergence with
      | none => .error .keyError
      | some divergence =>
        let t := t.modify expected .increaseTruePositive
        let t := t.modifyUnless (fun k => k = expected) .increaseTrueNegative
        let t := t.modify expected (·.addDivergence divergence)
        .ok (t.modify expected (·.addPktCount result.flow.pktCount true))
    else
      let t := t.modify expected .increaseFalseNegative
      let t := t.modify expected (·.addFalseNegativeProtocol protocol)
      let t := t.modify expected (·.addPktCount result.flow.pktCount false)
      let t := t.modify protocol .increaseFalsePositive
      let t := t.modify protocol (·.addFalsePositiveProtocol expected)
      .ok (t.modifyUnless (fun k => k = expected ∨ k = protocol) .increaseTrueNegative)

/-- A flow that was not classified. -/
def countUnclassified (definingLimit : Nat) (t : ProtocolTable) (result : ClassifierResult)
    (expected : ProtocolName) : ProtocolTable :=
  let t := t.modify expected .increaseNotClassified
  let t := t.modify expected (·.addPktCount result.flow.pktCount false)
  let t :=
    if result.flow.pktCount < definingLimit then t.modify expected .increaseUnderDefiningLimit
    else t
  t.modifyUnless (fun k => k = expected) .increaseTrueNegative

/-- The body of the loop of `gather_results`. -/
def gatherResult (a : Analyser) (result : ClassifierResult) : Except ScriptError Analyser := do
  let key ← result.flow.dictRepr
  let (expected, a) ← a.expect key
  let t := addNamed a.protocolResults result expected
  if result.flow.classified then
    let t ← countClassified t result expected
    pure { a with protocolResults := t }
  else pure { a with protocolResults := countUnclassified a.definingLimit t result expected }

/-- The checks before the loop, and the results it is about. The branch that would add the default
protocol reads a variable that does not exist. -/
def resultsToGather (a : Analyser) : Except ScriptError (List ClassifierResult) :=
  match a.results with
  | none => .error .exit
  | some run =>
    if a.flows.isNone ∧ a.defaultProtocol = none then .error .exit
    else if a.defaultProtocol ≠ none ∧ a.protocolResults a.defaultProtocol = none then
      .error .nameError
    else
      match run.results with
      | none => .error .typeError
      | some results => .ok results

/-- The loop over the flows that no result was about. -/
def forgetUnseen (a : Analyser) : Except ScriptError Analyser :=
  match a.flows with
  | none => .error .attributeError
  | some flows => do
    let table ← flows.entries.foldlM
      (fun (t : ProtocolTable) flow =>
        if flow.2.seen then pure t else t.update flow.2.l7protocol .decreaseExpected)
      a.protocolResults
    pure { a with protocolResults := table }

/-- `gather_results`. -/
def gatherResults (a : Analyser) : Except ScriptError Analyser := do
  let results ← a.resultsToGather
  let a ← results.foldlM gatherResult a
  a.forgetUnseen

end Analyser

/-- The options that `main` passes on. -/
structure ScriptOptions where
  filename : Option String
  flowsfile : Option String
  protocol : Option String
  database : Option String
deriving DecidableEq, Repr

/-- The calls of `main` before `gather_results`. -/
def readInputs (files : ScriptFiles) (options : ScriptOptions) : Except ScriptError Analyser :=
  let absent := fun option : Option String => option = none ∨ option = some ""
  if absent options.filename then .error .exit
  else if absent options.flowsfile ∧ absent options.protocol then .error .exit
  else do
    let a ← (Analyser.init options.protocol options.database).readResults files options.filename
    let a ← a.readDatabase files
    a.readFlows files options.flowsfile

/-- `main`, without what it prints. -/
def analyseResults (files : ScriptFiles) (options : ScriptOptions) :
    Except ScriptError Analyser := do
  let a ← readInputs files options
  a.gatherResults

end Vsid
