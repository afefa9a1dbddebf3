import Vsid.Laws.Confusion
import Vsid.Laws.DatabaseScripts
import Vsid.Laws.ResultSets
import Vsid.Laws.TrainingMeans

/-!
# Classifying and evaluating

The classifier is run over some captures, one call after the other, and `analyse_results.py` over the
file that the calls have written. `runs_evaluated` follows the lines from the observer to the four
counters of every protocol: the file is cut into the documents of the calls, the documents into
their lines, and every line is counted once, under the label of its connection.

The YAML library of the script is a parameter. What is relied on is that it reads the documents that
were written (`Report.ReadBy`), which it does not do for just any name of a protocol or a file.
-/

set_option autoImplicit false

namespace Vsid

open PcapClassifier

variable {R : Type} [Double R]

/-! ## The file of results -/

/-- What is in a document. Without a line there is nothing after `Results:`. -/
def Report.resultSet (number : R → ℚ) (report : Report R) : ResultSet :=
  { fileName := report.fileName
    definingLimit := report.definingLimit.toNat
    cutoffLimit := report.cutoffLimit.toNat
    klDivergenceThreshold := number report.divergenceThreshold
    results := if report.lines.isEmpty then none else some (report.lines.map (·.result number)) }

/-- The script's YAML library reads the document, with the marker that starts it or without, and
there is no other marker in it. -/
structure Report.ReadBy (load : ResultLoader) (number : R → ℚ) (machine : Machine R)
    (report : Report R) : Prop where
  unmarked : load (report.body machine).toList = .ok (some (report.resultSet number))
  marked : load (report.text machine).toList = .ok (some (report.resultSet number))
  clean : ¬ Analyser.runSeparator <:+: (report.body machine).toList

omit [Double R] in
theorem Report.toList_text (machine : Machine R) (report : Report R) :
    (report.text machine).toList = Analyser.runSeparator ++ (report.body machine).toList := by
  unfold Report.text
  rw [String.toList_append]
  rfl

omit [Double R] in
/-- A document ends in a line break. -/
theorem Report.exists_body (machine : Machine R) (report : Report R) :
    ∃ front, (report.body machine).toList = front ++ ['\n'] := by
  unfold Report.body
  rw [String.toList_append]
  exact ⟨_, rfl⟩

omit [Double R] in
theorem Report.mergedResults_map (number : R → ℚ) (reports : List (Report R)) :
    mergedResults (reports.map (·.resultSet number)) =
      (reports.flatMap (·.lines)).map (·.result number) := by
  unfold mergedResults
  rw [List.flatMap_map, List.map_flatMap]
  refine List.flatMap_congr fun report _ => ?_
  unfold Report.resultSet
  cases report.lines with
  | nil => rfl
  | cons line lines => rfl

namespace PcapClassifier

/-- The document that a call adds to the file. -/
def Call.document (Y : ConfigConversions R) (fs : FileSystem) (call : Call R) :
    Option (List Char) :=
  (call.report Y fs).map fun report => (report.body call.machine).toList

theorem Call.document_of_none {Y : ConfigConversions R} {fs : FileSystem} {call : Call R}
    (h : call.report Y fs = none) : call.document Y fs = none := by
  unfold Call.document
  rw [h]
  rfl

theorem Call.document_of_some {Y : ConfigConversions R} {fs : FileSystem} {call : Call R}
    {report : Report R} (h : call.report Y fs = some report) :
    call.document Y fs = some (report.body call.machine).toList := by
  unfold Call.document
  rw [h]
  rfl

theorem runAll_eq (Y : ConfigConversions R) (fs : FileSystem) (log : List Char)
    (calls : List (Call R)) :
    runAll Y fs log calls =
      log ++ (calls.filterMap (·.document Y fs)).flatMap (Analyser.runSeparator ++ ·) := by
  induction calls generalizing log with
  | nil => exact (List.append_nil log).symm
  | cons call calls ih =>
    refine (ih _).trans ?_
    simp only
    cases hreport : call.report Y fs with
    | none =>
      rw [List.filterMap_cons_none (Call.document_of_none hreport), Option.map_none,
        Option.getD_none, List.append_nil]
    | some report =>
      rw [List.filterMap_cons_some (Call.document_of_some hreport), List.flatMap_cons,
        Option.map_some, Option.getD_some, Report.toList_text, List.append_assoc]

/-- The documents in the file, and what is read of them. -/
theorem documents_read {Y : ConfigConversions R} {fs : FileSystem} {load : ResultLoader}
    {number : R → ℚ} (calls : List (Call R))
    (h : ∀ call ∈ calls, ∀ report, call.report Y fs = some report →
      report.ReadBy load number call.machine) :
    List.Forall₂ (fun document run => document ≠ [] ∧ load document = .ok (some run) ∧
        load (Analyser.runSeparator ++ document) = .ok (some run))
      (calls.filterMap (·.document Y fs))
      ((calls.filterMap (·.report Y fs)).map (·.resultSet number)) ∧
    split Analyser.runSeparator (runAll Y fs [] calls) =
      [] :: calls.filterMap (·.document Y fs) := by
  constructor
  · induction calls with
    | nil => exact .nil
    | cons call calls ih =>
      obtain ⟨hcall, hcalls⟩ := List.forall_mem_cons.mp h
      cases hreport : call.report Y fs with
      | none =>
        rw [List.filterMap_cons_none (Call.document_of_none hreport),
          List.filterMap_cons_none hreport]
        exact ih hcalls
      | some report =>
        obtain ⟨hunmarked, hmarked, -⟩ := hcall report hreport
        obtain ⟨front, hfront⟩ := report.exists_body call.machine
        rw [List.filterMap_cons_some (Call.document_of_some hreport),
          List.filterMap_cons_some hreport, List.map_cons]
        refine .cons ⟨?_, hunmarked, ?_⟩ (ih hcalls)
        · rw [hfront]
          exact List.append_ne_nil_of_right_ne_nil _ (List.cons_ne_nil _ _)
        · rw [← Report.toList_text]
          exact hmarked
  · rw [runAll_eq, List.nil_append]
    refine split_flatMap (by decide) fun piece hpiece rest i hi => ?_
    obtain ⟨call, hcall, hdocument⟩ := List.mem_filterMap.mp hpiece
    obtain ⟨report, hreport, rfl⟩ := Option.map_eq_some_iff.mp hdocument
    obtain ⟨front, hfront⟩ := report.exists_body call.machine
    have hclean := (h call hcall report hreport).clean
    rw [hfront] at hclean hi ⊢
    exact not_prefix_of_closed (by decide) hclean rest hi

end PcapClassifier

/-! ## Reading it -/

namespace Analyser

variable {load : ResultLoader} {a : Analyser} {documents : List (List Char)}
  {runs : List ResultSet} {run first : ResultSet} {before : List ClassifierResult}

/-- The results of more documents are added to those of the first. -/
theorem foldlM_readRun_documents
    (h : List.Forall₂ (fun document run => document ≠ [] ∧ load document = .ok (some run) ∧
      load (runSeparator ++ document) = .ok (some run)) documents runs)
    (ha : a.results = some run) (hbefore : run.results = some before) :
    ∃ b run', documents.foldlM (readRun load) a = .ok b ∧ b.results = some run' ∧
      b.protocolDatabase = a.protocolDatabase ∧ run'.fileName = run.fileName ∧
      run'.results = some (before ++ mergedResults runs) := by
  induction h generalizing a run before with
  | nil =>
    refine ⟨a, run, rfl, ha, rfl, rfl, ?_⟩
    rw [hbefore, mergedResults, List.flatMap_nil, List.append_nil]
  | @cons document one documents runs hdocument _ ih =>
    obtain ⟨hne, hload, -⟩ := hdocument
    have hstep : ∃ b run₁, a.readRun load document = .ok b ∧ b.results = some run₁ ∧
        b.protocolDatabase = a.protocolDatabase ∧ run₁.fileName = run.fileName ∧
        run₁.results = some (before ++ one.results.getD []) := by
      unfold readRun
      rw [if_neg (by rwa [List.isEmpty_iff]), hload, Fallible.ok_bind, ha]
      simp only
      cases one.results with
      | none =>
        exact ⟨_, run, rfl, rfl, rfl, rfl, by rw [hbefore, Option.getD_none, List.append_nil]⟩
      | some more =>
        rw [hbefore]
        exact ⟨_, _, rfl, rfl, rfl, rfl, rfl⟩
    obtain ⟨b₁, run₁, hstep, hb₁, hdatabase₁, hname₁, hresults₁⟩ := hstep
    obtain ⟨b, run', hfold, hb, hdatabase, hname, hresults⟩ := ih hb₁ hresults₁
    refine ⟨b, run', ?_, hb, hdatabase.trans hdatabase₁, hname.trans hname₁, ?_⟩
    · rw [List.foldlM_cons, hstep]
      exact hfold
    · rw [hresults, mergedResults_cons, List.append_assoc]

/-- **The results of all documents are read.** A single one is loaded with its marker. -/
theorem readText_documents {text : List Char}
    (h : List.Forall₂ (fun document run => document ≠ [] ∧ load document = .ok (some run) ∧
      load (runSeparator ++ document) = .ok (some run)) documents (first :: runs))
    (hsplit : split runSeparator text = [] :: documents) (ha : a.results = none)
    (hbefore : first.results = some before) :
    ∃ b run, readText load a text = .ok b ∧ b.results = some run ∧
      b.protocolDatabase = a.protocolDatabase ∧ run.fileName = first.fileName ∧
      run.results = some (mergedResults (first :: runs)) := by
  have hmerged : mergedResults (first :: runs) = before ++ mergedResults runs := by
    rw [mergedResults_cons, hbefore, Option.getD_some]
  have htext : runSeparator.intercalate (split runSeparator text) = text :=
    intercalate_split (by decide) text
  cases h with
  | @cons document _ documents _ hdocument hrest =>
    obtain ⟨hne, hload, hmarked⟩ := hdocument
    unfold readText
    simp only
    rw [hsplit] at htext ⊢
    cases hrest with
    | nil =>
      have hfew : ¬ 2 < ([] :: [document]).length := Nat.lt_irrefl 2
      rw [if_neg hfew]
      rw [List.intercalate_cons_cons, List.intercalate_singleton, List.nil_append] at htext
      rw [← htext, hmarked, Fallible.ok_bind]
      refine ⟨_, first, rfl, rfl, rfl, rfl, ?_⟩
      rw [hbefore, hmerged, mergedResults, List.flatMap_nil, List.append_nil]
    | @cons document' run' documents runs hdocument' hrest =>
      have hmany : 2 < ([] :: document :: document' :: documents).length := by
        rw [List.length_cons, List.length_cons, List.length_cons]
        omega
      have hempty : a.readRun load [] = .ok a := rfl
      rw [if_pos hmany, List.foldlM_cons, hempty, Fallible.ok_bind, List.foldlM_cons,
        readRun_first hne hload ha]
      obtain ⟨b, run, hfold, hb⟩ := foldlM_readRun_documents
        (a := { a with results := some first }) (.cons hdocument' hrest) rfl hbefore
      rw [← hmerged] at hb
      exact ⟨b, run, hfold, hb⟩

/-! ## Counting it -/

/-- No counter of a protocol is moved before the results are looked at. -/
theorem confusion_of_inputs {t : ProtocolTable} {name : ProtocolName} {n : Nat}
    (h : (t name).getD (.init name) = withExpected (.init name) n) :
    t.confusion name = .zero := by
  unfold ProtocolTable.confusion
  rw [h]
  rfl

theorem protocolOf_foldl_see (flows : FlowTable) (keys : List String) (key : String) :
    (keys.foldl FlowTable.see flows).protocolOf key = flows.protocolOf key := by
  induction keys generalizing flows with
  | nil => rfl
  | cons k keys ih => rw [List.foldl_cons, ih, FlowTable.protocolOf_see]

/-- What is listed has a protocol that was entered into the table. -/
theorem mem_of_protocolOf {listed : List ListedFlow} (keys : List String) (key : String)
    {protocol : ProtocolName}
    (h : (keys.foldl FlowTable.see (.ofListed listed)).protocolOf key = some protocol) :
    protocol ∈ listed.map (·.protocol) := by
  rw [protocolOf_foldl_see, FlowTable.protocolOf_ofListed] at h
  obtain ⟨flow, hflow, rfl⟩ := Option.map_eq_some_iff.mp h
  exact List.mem_map_of_mem (List.mem_reverse.mp (List.mem_of_find?_eq_some hflow))

omit [Double R] in
/-- **`gather_results`**, on the lines of the classifier and a list of flows. -/
theorem gatherResults_lines {run : ResultSet} {listed : List ListedFlow} (number : R → ℚ)
    (lines : List (ResultLine R)) (hresults : a.results = some run)
    (hlines : run.results = some (lines.map (·.result number)))
    (hflows : a.flows = some (.ofListed listed)) (hdefault : a.DefaultKnown)
    (hlisted : ∀ protocol ∈ listed.map (·.protocol), (a.protocolResults protocol).isSome = true)
    (hzero : ∀ name, a.protocolResults.confusion name = .zero) :
    ∃ b, a.gatherResults = .ok b ∧
      ∀ name, b.protocolResults.confusion name = .ofLines a.label lines name := by
  have hgather : a.resultsToGather = .ok (lines.map (·.result number)) := by
    have hstarts : ¬ (a.defaultProtocol ≠ none ∧ a.protocolResults a.defaultProtocol = none) := by
      rintro ⟨hsome, hunknown⟩
      rcases hdefault with hnone | hknown
      · exact hsome hnone
      · rw [hunknown] at hknown
        cases hknown
    unfold resultsToGather
    rw [hresults, hflows]
    simp only
    rw [if_neg fun h => Bool.false_ne_true h.1, if_neg hstarts, hlines]
  obtain ⟨keys, t, hloop, hkeeps, hcounts⟩ := foldlM_result hdefault number lines
  have hknown : ∀ flow ∈ (keys.foldl FlowTable.see (.ofListed listed)).entries,
      (t flow.2.l7protocol).isSome = true := by
    intro flow hflow
    refine hkeeps _ (hlisted _ (mem_of_protocolOf keys flow.1 ?_))
    unfold FlowTable.protocolOf
    rw [AList.mem_lookup_iff.mpr hflow]
    rfl
  obtain ⟨t', hforget, hcounts'⟩ := foldlM_forget_of_known hknown
  refine ⟨{ a.steps t keys with protocolResults := t' }, ?_, fun name => ?_⟩
  · unfold gatherResults
    rw [hgather, Fallible.ok_bind, hloop, Fallible.ok_bind]
    unfold forgetUnseen steps
    rw [hflows, Option.map_some]
    simp only
    rw [hforget]
    rfl
  · change t'.confusion name = _
    rw [hcounts', hcounts, hzero, Confusion.zero_add]

end Analyser

/-- The script is called on a file with this text, with a list of connections and a database. -/
structure CalledOn (files : ScriptFiles) (options : ScriptOptions) (text : List Char)
    (fileName : String) (names : List ProtocolName)
    (listed : List (IPv4Tuple × ProtocolName)) : Prop where
  results : ∃ file, options.filename = some file ∧ file ≠ "" ∧ files.text file = .ok text
  flows : ∃ file, options.flowsfile = some file ∧ file ≠ "" ∧
    files.flows file = .ok (listed.map .ofTuple)
  database : files.database (options.database.getD fileName) = .ok (some names)
  transported : ∀ entry ∈ listed, entry.1.IsTransported
  default : options.protocol = none ∨ options.protocol ∈ names ++ listed.map (·.2)

namespace PcapClassifier

open Analyser

/-- **Every line of every call is counted once, under the label of its connection.** The classifier
is called any number of times, on any captures, with any configurations and databases, and the
script on the file that the calls have written. If the first call that wrote a document wrote a line
then the script comes to its end, and the four counters of every protocol are the numbers of lines,
over all calls, that are right or wrong about it by the list of flows. -/
theorem runs_evaluated {Y : ConfigConversions R} {fs : FileSystem} {calls : List (Call R)}
    {files : ScriptFiles} {options : ScriptOptions} {number : R → ℚ} {names : List ProtocolName}
    {listed : List (IPv4Tuple × ProtocolName)} {first : Report R} {reports : List (Report R)}
    (hreports : calls.filterMap (·.report Y fs) = first :: reports) (hlines : first.lines ≠ [])
    (hread : ∀ call ∈ calls, ∀ report, call.report Y fs = some report →
      report.ReadBy files.load number call.machine)
    (hcalled : CalledOn files options (runAll Y fs [] calls) first.fileName names listed) :
    ∃ a, analyseResults files options = .ok a ∧ ∀ name, a.protocolResults.confusion name =
      .ofLines (labelOf listed options.protocol) ((first :: reports).flatMap (·.lines)) name := by
  obtain ⟨⟨file, hfile, hfile', htext⟩, ⟨flows, hflows, hflows', hlisted⟩, hdatabase, htransported,
    hdefault⟩ := hcalled
  -- the file is read
  obtain ⟨hdocuments, hsplit⟩ := documents_read calls hread
  rw [hreports, List.map_cons] at hdocuments
  have hfirst : (first.resultSet number).results = some (first.lines.map (·.result number)) := by
    refine if_neg ?_
    rwa [List.isEmpty_iff]
  obtain ⟨b₁, run, hb₁, hrun, hoption, hname, hmerged⟩ := readText_documents
    (a := Analyser.init options.protocol options.database) hdocuments hsplit rfl hfirst
  rw [← List.map_cons, Report.mergedResults_map] at hmerged
  have hresults : (Analyser.init options.protocol options.database).readResults files
      options.filename = .ok b₁ := by
    unfold readResults
    rw [hfile]
    simp only
    rw [htext]
    simp only
    rw [hb₁]
  -- then the database and the list of flows
  have hdatabase₁ : b₁.readDatabase files = .ok
      { b₁ with
        protocolDatabase := some (options.database.getD first.fileName)
        protocolResults := names.foldl ProtocolTable.add b₁.protocolResults } := by
    have hchosen : b₁.databaseFile = .ok (options.database.getD first.fileName) := by
      have hgiven : b₁.protocolDatabase = options.database := hoption
      unfold databaseFile
      rw [hgiven, hrun]
      cases options.database with
      | some database => rfl
      | none => exact congrArg Except.ok hname
    unfold readDatabase
    rw [hchosen, Fallible.ok_bind, hdatabase]
    rfl
  obtain ⟨b, hb, hkept, hchosen⟩ : ∃ b, readInputs files options = .ok b ∧ b.results = some run ∧
      b.protocolDatabase = some (options.database.getD first.fileName) := by
    unfold readInputs
    rw [hfile, hflows] at *
    simp only
    rw [if_neg (by simpa using hfile'), if_neg (by simp [hflows']), hresults, Fallible.ok_bind,
      hdatabase₁, Fallible.ok_bind]
    unfold readFlows
    simp only
    rw [hlisted]
    exact ⟨_, rfl, hrun, rfl⟩
  obtain ⟨hlist, hprotocol, htable⟩ := readInputs_eq_ok hb
  have hmade : files.listed options.flowsfile = listed.map .ofTuple := by
    rw [hflows, ScriptFiles.listed, hlisted]
  rw [hmade, hflows] at hlist
  -- what is in the table, and what is not counted yet
  have hknown : ∀ name, name ∈ names ++ listed.map (·.2) →
      (b.protocolResults name).isSome = true := by
    intro name hname
    have hnames : files.names b.protocolDatabase = names := by
      rw [hchosen, ScriptFiles.names, hdatabase]
    rw [(htable name).1]
    unfold ScriptInputs.isKnown inputs
    simp only
    rw [hnames, hmade, List.map_map, Bool.or_eq_true, List.contains_iff_mem,
      List.contains_iff_mem]
    exact List.mem_append.mp hname
  have hstart : b.DefaultKnown := by
    unfold DefaultKnown
    rw [hprotocol]
    exact hdefault.imp_right (hknown options.protocol)
  obtain ⟨a, ha, hcounts⟩ := gatherResults_lines number ((first :: reports).flatMap (·.lines)) hkept
    hmerged hlist hstart
    (fun protocol hmem => hknown protocol (List.mem_append_right _ (by rwa [List.map_map] at hmem)))
    fun name => confusion_of_inputs (htable name).2
  have hlabel : b.label = labelOf listed options.protocol := by
    funext tuple
    unfold label flowTable
    rw [hlist, hprotocol]
    exact labelOf_eq htransported options.protocol tuple
  refine ⟨a, ?_, fun name => ?_⟩
  · unfold analyseResults
    rw [hb, Fallible.ok_bind]
    exact ha
  · rw [hcounts, hlabel]

/-- The datagrams of `datagramCapture`, from two ports. -/
def queryCapture : Training.Capture :=
  { datalink := some .en10mb
    packets := ([0x1d, 0x1e] : List UInt8).flatMap fun port =>
      Training.datagramCapture.packets.map fun packet =>
        (packet.1, Function.update packet.2 (.packet 35) port) }

/-- A database that knows flows by the size of their first packet. -/
def queryDatabase : Yaml :=
  .map
    [("DefiningLimit", .scalar "2"), ("CutoffLimit", .scalar "100"),
      ("ProtocolModels", .sequence
        [.map
          [("ProtocolName", .scalar "DNS"), ("FlowCount", .scalar "1"),
            ("Enabled", .scalar "true"), ("PortHints", .sequence []),
            ("AttributeMeters", .sequence
              [.map
                [("AttributeName", .scalar "PayloadSizeFirstPacketMeter"),
                  ("Enabled", .scalar "true"), ("FlowCount", .scalar "1"),
                  ("FingerPrint", .sequence [.scalar "0.5", .scalar "0.5"])]])]])]

/-- A machine on which every capture is `queryCapture`. -/
def queryMachine : Machine ℚ :=
  { load := fun text =>
      if text = "config" then some (.map [])
      else if text = "database" then some queryDatabase
      else none
    capture := fun _ => some queryCapture
    walk := FlowManager.tableKeys
    staleBytes := fun _ _ => 0
    now := 0
    double := fun x => if x = 2 then "2" else "0.333559"
    isoString := fun _ => "19700101T000000" }

def queryScalars : ConfigConversions ℚ :=
  { plainScalars halves with
    int := { encode := toString, decode := String.toInt? }
    size := { encode := toString, decode := String.toNat? } }

def queryFiles : FileSystem := fun name =>
  if name = "config.yaml" then some "config"
  else if name = "protocol_model_db.yaml" then some "database"
  else if name = "first.pcap" then some ""
  else none

/-- A call of the program. -/
def queryCall : Call ℚ :=
  { machine := queryMachine, stale := fun _ => 0, options := { pcapFile := "first.pcap" } }

/-- What the YAML library of the script makes of what the call writes. -/
def loadQuery (text : List Char) : Except ScriptError (Option ResultSet) :=
  match queryCall.report queryScalars queryFiles with
  | none => .error .yamlError
  | some report =>
    if text = (report.body queryMachine).toList ∨ text = (report.text queryMachine).toList then
      .ok (some (report.resultSet id))
    else .error .yamlError

/-- The connections of `queryCapture`, the first one named from the other side. -/
def queryListed : List (IPv4Tuple × ProtocolName) :=
  [(⟨0x0200000a, 53, 0x0100000a, 1053, ipprotoUdp⟩, some "DNS"),
    (⟨0x0100000a, 1054, 0x0200000a, 53, ipprotoUdp⟩, some "RTP")]

/-- The script, after two calls. -/
def queryScript : ScriptFiles :=
  { text := fun _ => .ok (runAll queryScalars queryFiles [] [queryCall, queryCall])
    load := loadQuery
    database := fun _ => .ok (some [some "DNS"])
    flows := fun _ => .ok (queryListed.map .ofTuple) }

def queryOptions : ScriptOptions :=
  { filename := some "results", flowsfile := some "flows", protocol := none, database := none }

/-- What the call writes: both flows are classified as the one protocol. -/
def queryText : String :=
  "\nProtocolDatabase: \x7bFileName: protocol_model_db.yaml, LastModifiedTime: " ++
    "19700101T000000, CutoffLimit: 100, DefiningLimit: 2\x7d\nKLDivergenceThreshold: 2\n" ++
    "Input: \"first.pcap\"\nResults: \n" ++
    "  - \x7b Result: Classified, Protocol: DNS, Divergence: 0.333559, Flow: " ++
    "\x7bpkt_count: 2, overall_pkt_count: 2, state: 1, hash: 973620156, transport: 17, " ++
    "src: '10.0.0.1:1053', dst: '10.0.0.2:53', classified: true\x7d\x7d\n" ++
    "  - \x7b Result: Classified, Protocol: DNS, Divergence: 0.333559, Flow: " ++
    "\x7bpkt_count: 2, overall_pkt_count: 2, state: 1, hash: 726723899, transport: 17, " ++
    "src: '10.0.0.1:1054', dst: '10.0.0.2:53', classified: true\x7d\x7d\n"

theorem dashes_ofList (l : List Char) :
    (String.ofList l).toList.filter (· == '-') = l.filter (· == '-') := by
  rw [String.toList_ofList]

/-- A literal is `String.ofList` of its characters, and is taken apart as such. -/
theorem dashes_queryText : queryText.toList.filter (· == '-') = ['-', '-'] := by
  unfold queryText
  simp only [String.toList_append, List.filter_append]
  rw [dashes_ofList, dashes_ofList, dashes_ofList, dashes_ofList, dashes_ofList, dashes_ofList,
    dashes_ofList, dashes_ofList]
  decide

theorem body_queryCall :
    (queryCall.report queryScalars queryFiles).map (·.body queryMachine) = some queryText := by
  decide +kernel

/-- Over two calls one of the two connections is twice right, and the other one twice wrong. -/
theorem queryCalls_evaluated :
    ∃ a, analyseResults queryScript queryOptions = .ok a ∧
      a.protocolResults.confusion (some "DNS") =
        { Confusion.zero with truePositive := 2, falsePositive := 2 } ∧
      a.protocolResults.confusion (some "RTP") = { Confusion.zero with falseNegative := 2 } := by
  obtain ⟨report, hreport⟩ : ∃ report, queryCall.report queryScalars queryFiles = some report :=
    Option.isSome_iff_exists.mp (by decide +kernel)
  have hreports : [queryCall, queryCall].filterMap (·.report queryScalars queryFiles) =
      report :: [report] := by
    rw [List.filterMap_cons_some hreport, List.filterMap_cons_some hreport, List.filterMap_nil]
  have hlines : report.lines ≠ [] := by
    have hlength : (queryCall.report queryScalars queryFiles).map (·.lines.length) = some 2 := by
      decide +kernel
    rw [hreport, Option.map_some, Option.some_inj] at hlength
    exact List.ne_nil_of_length_eq_add_one hlength
  have hclean : ¬ Analyser.runSeparator <:+: (report.body queryMachine).toList := by
    have hbody := body_queryCall
    rw [hreport, Option.map_some, Option.some_inj] at hbody
    rw [hbody]
    intro hwithin
    have hdashes := (hwithin.sublist.filter (· == '-')).length_le
    rw [dashes_queryText] at hdashes
    exact absurd hdashes (by decide)
  have hload : ∀ text, text = (report.body queryMachine).toList ∨
      text = (report.text queryMachine).toList →
      loadQuery text = .ok (some (report.resultSet id)) := by
    intro text htext
    unfold loadQuery
    rw [hreport]
    exact if_pos htext
  have hread : report.ReadBy loadQuery id queryMachine :=
    { unmarked := hload _ (Or.inl rfl), marked := hload _ (Or.inr rfl), clean := hclean }
  have hcalled : CalledOn queryScript queryOptions
      (runAll queryScalars queryFiles [] [queryCall, queryCall]) report.fileName [some "DNS"]
      queryListed :=
    { results := ⟨"results", rfl, by decide, rfl⟩
      flows := ⟨"flows", rfl, by decide, rfl⟩
      database := rfl
      transported := fun entry hentry => by
        rcases List.mem_pair.mp hentry with rfl | rfl <;> exact Or.inr rfl
      default := Or.inl rfl }
  have hall : ∀ call ∈ [queryCall, queryCall], ∀ r, call.report queryScalars queryFiles = some r →
      r.ReadBy queryScript.load id call.machine := by
    intro call hcall r hr
    have hscript : queryScript.load = loadQuery := rfl
    rw [hscript]
    rcases List.mem_pair.mp hcall with rfl | rfl
    · cases Option.some_inj.mp (hreport.symm.trans hr)
      exact hread
    · cases Option.some_inj.mp (hreport.symm.trans hr)
      exact hread
  obtain ⟨a, ha, hcounts⟩ := runs_evaluated hreports hlines hall hcalled
  have hvalue : (queryCall.report queryScalars queryFiles).map (fun report =>
      [some "DNS", some "RTP"].map
        (Confusion.ofLines (labelOf queryListed none) ([report, report].flatMap (·.lines)))) =
      some [{ Confusion.zero with truePositive := 2, falsePositive := 2 },
        { Confusion.zero with falseNegative := 2 }] := by
    decide +kernel
  rw [hreport, Option.map_some, Option.some_inj] at hvalue
  obtain ⟨hdns, hvalue⟩ := List.cons_eq_cons.mp hvalue
  obtain ⟨hrtp, -⟩ := List.cons_eq_cons.mp hvalue
  exact ⟨a, ha, (hcounts _).trans hdns, (hcounts _).trans hrtp⟩

end PcapClassifier

end Vsid
