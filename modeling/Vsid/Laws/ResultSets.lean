import Mathlib.Data.Fintype.EquivFin
import Mathlib.Data.List.TakeWhile
import Vsid.Laws.ConfusionMatrix

/-!
# Several sets of results in one file

`read_results` cuts the file at `---`. Of more than two pieces each is loaded by itself, the results
are put one after the other, and the limits are those of the last run but not of a first one. With
fewer pieces the file is loaded as a whole, and no limit is set. `merges_iff` says for which files
the results of all runs are read and the limit that they state is the one that is counted with.
-/

set_option autoImplicit false

namespace Vsid

/-! ## Files made of runs -/

/-- A piece of the file without anything in it. -/
def Blank (piece : List Char) : Prop := ∀ c ∈ piece, c = ' ' ∨ c = '\n'

/-- Each piece is blank or loads to a run; these are the runs. -/
inductive MadeOf (load : ResultLoader) : List (List Char) → List ResultSet → Prop where
  | nil : MadeOf load [] []
  | blank {piece : List Char} {pieces : List (List Char)} {runs : List ResultSet}
      (hblank : Blank piece) (hload : load piece = .ok none) (rest : MadeOf load pieces runs) :
      MadeOf load (piece :: pieces) runs
  | run {piece : List Char} {pieces : List (List Char)} {run : ResultSet} {runs : List ResultSet}
      (hne : piece ≠ []) (hload : load piece = .ok (some run)) (rest : MadeOf load pieces runs) :
      MadeOf load (piece :: pieces) (run :: runs)

/-- What `yaml.load` makes of a file that is cut in two: the separator may open the only document,
and there may be no other document before it. -/
structure LoadsDocuments (load : ResultLoader) (text : List Char) : Prop where
  marked : ∀ before after, split Analyser.runSeparator text = [before, after] → Blank before →
    load text = load after
  single : ∀ before after run, split Analyser.runSeparator text = [before, after] →
    load before = .ok (some run) → ∃ e, load text = .error e

/-- The results of all runs. -/
def mergedResults (runs : List ResultSet) : List ClassifierResult :=
  runs.flatMap fun run => run.results.getD []

theorem mergedResults_cons (run : ResultSet) (runs : List ResultSet) :
    mergedResults (run :: runs) = run.results.getD [] ++ mergedResults runs := List.flatMap_cons

namespace Analyser

variable {load : ResultLoader} {a b : Analyser} {pieces : List (List Char)}
  {piece text : List Char} {runs : List ResultSet} {run first : ResultSet} {limit : Nat}

/-- What is counted with. -/
def readList (a : Analyser) : Option (List ClassifierResult) := a.results.bind (·.results)

theorem readRun_blank (h : load piece = .ok none) : a.readRun load piece = .ok a := by
  unfold readRun
  split
  · rfl
  · rw [h]
    rfl

theorem readRun_first (hne : piece ≠ []) (h : load piece = .ok (some run)) (ha : a.results = none) :
    a.readRun load piece = .ok { a with results := some run } := by
  unfold readRun
  rw [if_neg (by rwa [List.isEmpty_iff]), h, Fallible.ok_bind, ha]
  rfl

/-- A later run: its limits are taken, and its results are added to those of the first. -/
theorem readRun_next {before : List ClassifierResult} (hne : piece ≠ [])
    (h : load piece = .ok (some run)) (ha : a.results = some first)
    (hbefore : first.results = some before) :
    ∃ b, a.readRun load piece = .ok b ∧ b.definingLimit = run.definingLimit ∧
      ∃ first', b.results = some first' ∧ first'.results = some (before ++ run.results.getD []) := by
  unfold readRun
  rw [if_neg (by rwa [List.isEmpty_iff]), h, Fallible.ok_bind, ha]
  simp only
  cases run.results with
  | none => exact ⟨_, rfl, rfl, first, rfl, by rw [hbefore, Option.getD_none, List.append_nil]⟩
  | some more =>
    rw [hbefore]
    exact ⟨_, rfl, rfl, _, rfl, rfl⟩

/-- To a first run without results none can be added. -/
theorem readRun_next_of_none (h : a.readRun load piece = .ok b) (ha : a.results = some first)
    (hfirst : first.results = none) : b.results = some first := by
  unfold readRun at h
  split at h
  · cases h
    exact ha
  · obtain ⟨document, -, h⟩ := Fallible.bind_eq_ok.mp h
    split at h
    · cases h
      exact ha
    next oneRun =>
      rw [ha] at h
      simp only [hfirst] at h
      split at h
      · cases h
        rfl
      · cases h

theorem foldlM_readRun_of_none (h : pieces.foldlM (readRun load) a = .ok b)
    (ha : a.results = some first) (hfirst : first.results = none) : b.readList = none := by
  have hresults : b.results = some first := Fallible.foldlM_invariant
    (I := fun a : Analyser => a.results = some first)
    (fun _ ha _ _ _ hstep => readRun_next_of_none hstep ha hfirst) ha h
  unfold readList
  rw [hresults]
  exact hfirst

/-- The runs after the first. -/
theorem foldlM_readRun {before : List ClassifierResult} (hmade : MadeOf load pieces runs)
    (hlimit : ∀ run ∈ runs, run.definingLimit = limit) (ha : a.results = some first)
    (hbefore : first.results = some before) :
    ∃ b, pieces.foldlM (readRun load) a = .ok b ∧
      b.readList = some (before ++ mergedResults runs) ∧
      b.definingLimit = if runs = [] then a.definingLimit else limit := by
  induction hmade generalizing a first before with
  | nil =>
    refine ⟨a, rfl, ?_, (if_pos rfl).symm⟩
    rw [readList, ha, Option.bind_some, hbefore, mergedResults, List.flatMap_nil, List.append_nil]
  | blank _ hload _ ih =>
    obtain ⟨b, hfold, hb⟩ := ih hlimit ha hbefore
    refine ⟨b, ?_, hb⟩
    rw [List.foldlM_cons, readRun_blank hload]
    exact hfold
  | @run piece pieces run runs hne hload _ ih =>
    obtain ⟨a₁, hstep, hlimit₁, first₁, ha₁, hbefore₁⟩ := readRun_next hne hload ha hbefore
    obtain ⟨b, hfold, hlist, hlimit'⟩ :=
      ih (fun run hrun => hlimit run (List.mem_cons_of_mem _ hrun)) ha₁ hbefore₁
    refine ⟨b, ?_, ?_, ?_⟩
    · rw [List.foldlM_cons, hstep]
      exact hfold
    · rw [hlist, mergedResults_cons, List.append_assoc]
    · rw [hlimit', hlimit₁, hlimit run List.mem_cons_self, ite_self,
        if_neg (List.cons_ne_nil _ _)]

/-- The first run, after what is blank. -/
theorem foldlM_readRun_first (hmade : MadeOf load pieces (first :: runs)) (ha : a.results = none) :
    ∃ pieces', MadeOf load pieces' runs ∧ pieces.foldlM (readRun load) a =
      pieces'.foldlM (readRun load) { a with results := some first } := by
  generalize hruns : first :: runs = all at hmade
  induction hmade with
  | nil => cases hruns
  | blank _ hload _ ih =>
    obtain ⟨pieces', hmade', hfold⟩ := ih hruns
    refine ⟨pieces', hmade', ?_⟩
    rw [List.foldlM_cons, readRun_blank hload]
    exact hfold
  | @run piece pieces run rest hne hload hrest ih =>
    obtain ⟨rfl, rfl⟩ := List.cons.inj hruns
    refine ⟨pieces, hrest, ?_⟩
    rw [List.foldlM_cons, readRun_first hne hload ha]
    rfl

/-- The file is cut in two, and there is a run before the separator. -/
def CutAfterRun (load : ResultLoader) (text : List Char) : Prop :=
  ∃ before after run, split runSeparator text = [before, after] ∧ load before = .ok (some run)

/-- A file with few pieces is loaded as a whole, which is its only run. -/
theorem load_of_made (hmade : MadeOf load (split runSeparator text) (first :: runs))
    (hdocuments : LoadsDocuments load text) (hcut : ¬ CutAfterRun load text)
    (hfew : (split runSeparator text).length ≤ 2) : load text = .ok (some first) ∧ runs = [] := by
  have htext : runSeparator.intercalate (split runSeparator text) = text :=
    intercalate_split (by decide) text
  generalize hpieces : split runSeparator text = pieces at hmade hfew htext
  generalize hall : first :: runs = all at hmade
  cases hmade with
  | nil => cases hall
  | @run piece pieces run rest hne hload hrest =>
    obtain ⟨rfl, rfl⟩ := List.cons.inj hall
    cases hrest with
    | nil =>
      rw [List.intercalate_singleton] at htext
      exact ⟨htext ▸ hload, rfl⟩
    | @blank after pieces _ _ _ hrest | @run after pieces _ _ _ _ hrest =>
      refine absurd ⟨piece, after, first, ?_, hload⟩ hcut
      rw [hpieces]
      rw [List.length_cons, List.length_cons] at hfew
      rw [List.eq_nil_of_length_eq_zero (by omega : pieces.length = 0)]
  | @blank before pieces _ hblank _ hrest =>
    cases hrest with
    | nil => cases hall
    | @blank after pieces _ _ _ hrest =>
      rw [List.length_cons, List.length_cons] at hfew
      rw [List.eq_nil_of_length_eq_zero (by omega : pieces.length = 0)] at hrest
      cases hrest
      cases hall
    | @run after pieces run rest _ hload hrest =>
      obtain ⟨rfl, rfl⟩ := List.cons.inj hall
      rw [List.length_cons, List.length_cons] at hfew
      obtain rfl := List.eq_nil_of_length_eq_zero (by omega : pieces.length = 0)
      cases hrest
      exact ⟨(hdocuments.marked before after hpieces hblank).trans hload, rfl⟩

/-- **What is read of a file made of runs.** -/
theorem readText_of_made (hmade : MadeOf load (split runSeparator text) (first :: runs))
    (hdocuments : LoadsDocuments load text) (hcut : ¬ CutAfterRun load text)
    (hlimit : ∀ run ∈ runs, run.definingLimit = limit) (ha : a.results = none) :
    (∀ results, first.results = some results → ∃ b, readText load a text = .ok b ∧
        b.readList = some (mergedResults (first :: runs)) ∧
        b.definingLimit = if runs = [] then a.definingLimit else limit) ∧
      (first.results = none → ∀ b, readText load a text = .ok b → b.readList = none) := by
  unfold readText
  simp only
  split
  · obtain ⟨pieces', hmade', hfold⟩ := foldlM_readRun_first hmade ha
    rw [hfold]
    refine ⟨fun results hresults => ?_, fun hfirst b hb => foldlM_readRun_of_none hb rfl hfirst⟩
    obtain ⟨b, hb, hlist, hlimit'⟩ := foldlM_readRun hmade' hlimit
      (a := { a with results := some first }) rfl hresults
    refine ⟨b, hb, ?_, hlimit'⟩
    rw [hlist, mergedResults_cons, hresults, Option.getD_some]
  next hfew =>
    obtain ⟨hload, rfl⟩ := load_of_made hmade hdocuments hcut (Nat.not_lt.mp hfew)
    rw [hload, Fallible.ok_bind]
    refine ⟨fun results hresults => ⟨_, rfl, ?_, (if_pos rfl).symm⟩, fun hfirst b hb => ?_⟩
    · rw [readList, Option.bind_some, hresults, mergedResults_cons, hresults]
      exact congrArg some (List.append_nil results).symm
    · cases hb
      exact hfirst

end Analyser

/-! ## The limit that is counted with -/

namespace ClassifierResult

/-- The loop of `gather_results` does not stop at the result: it says which flow it is about and,
where that was classified, as what. -/
def isLegible (result : ClassifierResult) : Bool :=
  result.flow.dictRepr.toOption.isSome && (!result.flow.classified || result.protocol.isSome)

end ClassifierResult

namespace Analyser

variable {a b c : Analyser} {result : ClassifierResult} {results : List ClassifierResult}
  {name : ProtocolName} {limit : Nat}

theorem isLegible_of_gathered (h : a.gatherResult result = .ok b) : result.isLegible = true := by
  unfold gatherResult at h
  obtain ⟨key, hkey, h⟩ := Fallible.bind_eq_ok.mp h
  obtain ⟨⟨expected, a₁⟩, -, h⟩ := Fallible.bind_eq_ok.mp h
  unfold ClassifierResult.isLegible
  rw [hkey]
  simp only at h
  split at h
  next hclassified =>
    obtain ⟨t, ht, -⟩ := Fallible.bind_eq_ok.mp h
    unfold countClassified at ht
    split at ht
    · cases ht
    next protocol hprotocol =>
      rw [hprotocol]
      exact Bool.or_true _
  next hclassified =>
    rw [Bool.not_eq_true] at hclassified
    rw [hclassified]
    rfl

theorem forall_isLegible (h : results.foldlM gatherResult a = .ok b) :
    ∀ result ∈ results, result.isLegible = true := by
  induction results generalizing a with
  | nil => exact fun _ hresult => absurd hresult List.not_mem_nil
  | cons result results ih =>
    obtain ⟨a₁, hstep, hrest⟩ := Fallible.foldlM_cons_eq_ok h
    exact List.forall_mem_cons.mpr ⟨isLegible_of_gathered hstep, ih hrest⟩

/-- Compared with no flows, and with a default that none of the results names, the loop goes through
what is legible. -/
theorem gatherResult_of_isLegible (h : result.isLegible = true) (hflows : a.flowTable = ∅)
    (hdefault : (a.protocolResults a.defaultProtocol).isSome = true)
    (hprotocol : result.protocol ≠ some a.defaultProtocol) :
    ∃ b, a.gatherResult result = .ok b := by
  obtain ⟨hkey, hnamed⟩ := Bool.and_eq_true_iff.mp h
  have hexpect : ∀ key, ∃ a₁, a.expect key = .ok (a.defaultProtocol, a₁) := by
    intro key
    unfold expect
    rw [bind_lookup, hflows, AList.lookup_empty]
    simp only
    split
    next hnone => exact ⟨a, by rw [hnone]⟩
    next =>
      rw [ProtocolTable.update, if_pos hdefault]
      exact ⟨_, rfl⟩
  unfold gatherResult
  cases hrepr : result.flow.dictRepr with
  | error e =>
    rw [hrepr] at hkey
    cases hkey
  | ok key =>
    obtain ⟨a₁, ha₁⟩ := hexpect key
    rw [Fallible.ok_bind, ha₁, Fallible.ok_bind]
    simp only
    cases hclassified : result.flow.classified with
    | false => exact ⟨_, rfl⟩
    | true =>
      rw [hclassified] at hnamed
      obtain ⟨protocol, hsome⟩ := Option.isSome_iff_exists.mp hnamed
      have hne : protocol ≠ a.defaultProtocol := fun heq => hprotocol (by rw [hsome, heq])
      unfold countClassified
      rw [hsome]
      simp only [hne, if_true, if_false]
      exact ⟨_, rfl⟩

theorem foldlM_of_isLegible (h : ∀ result ∈ results, result.isLegible = true)
    (hflows : a.flowTable = ∅) (hdefault : (a.protocolResults a.defaultProtocol).isSome = true)
    (hprotocol : ∀ result ∈ results, result.protocol ≠ some a.defaultProtocol) :
    ∃ b, results.foldlM gatherResult a = .ok b := by
  induction results generalizing a with
  | nil => exact ⟨a, rfl⟩
  | cons result results ih =>
    obtain ⟨a₁, ha₁⟩ := gatherResult_of_isLegible (h result List.mem_cons_self) hflows hdefault
      (hprotocol result List.mem_cons_self)
    obtain ⟨key, t, -, rfl, ht⟩ := gatherResult_eq_ok ha₁
    have hflows₁ : (a.step t key).flowTable = ∅ := by
      rw [flowTable_step, hflows]
      rfl
    have hdefault₁ :
        ((a.step t key).protocolResults (a.step t key).defaultProtocol).isSome = true :=
      (ht a.defaultProtocol).1.mpr (Or.inl hdefault)
    obtain ⟨b, hb⟩ := ih (fun r hr => h r (List.mem_cons_of_mem _ hr)) hflows₁ hdefault₁
      fun r hr => hprotocol r (List.mem_cons_of_mem _ hr)
    refine ⟨b, ?_⟩
    rw [List.foldlM_cons, ha₁]
    exact hb

/-- Whatever the results are compared with, at every point of the loop those are counted as under the
limit that are not classified and have fewer packets. -/
def CountsBelow (limit : Nat) (a : Analyser) : Prop :=
  ∀ files flowsfile b, (do let a ← a.readDatabase files; a.readFlows files flowsfile) = .ok b →
    ∀ all, b.resultsToGather = .ok all → ∀ results c, results <+: all →
      results.foldlM gatherResult b = .ok c → ∀ name p, c.protocolResults name = some p →
        p.underDefiningLimit = results.countP (·.isBelow b.flowTable b.defaultProtocol name limit)

theorem readList_of_resultsToGather (h : a.resultsToGather = .ok results) :
    a.readList = some results := by
  unfold resultsToGather at h
  split at h
  · cases h
  next run hrun =>
    rw [readList, hrun, Option.bind_some]
    split at h
    · cases h
    · split at h
      · cases h
      · split at h
        · cases h
        next hresults =>
          cases h
          exact hresults

/-- Compared with a default that is in the database, the loop starts. -/
theorem resultsToGather_of_readList (h : a.readList = some results)
    (hdefault : a.defaultProtocol ≠ none)
    (hknown : (a.protocolResults a.defaultProtocol).isSome = true) :
    a.resultsToGather = .ok results := by
  obtain ⟨run, hrun, hresults⟩ := Option.bind_eq_some_iff.mp h
  unfold resultsToGather
  rw [hrun]
  simp only
  rw [if_neg fun h => hdefault h.2, if_neg fun h => ?_, hresults]
  rw [h.2] at hknown
  cases hknown

/-- What the code counts with is the limit that it has read. -/
theorem underDefiningLimit_eq (htable : a.protocolResults = fun _ => none) (hflows : a.flows = none)
    {files : ScriptFiles} {flowsfile : Option String}
    (hb : (do let a ← a.readDatabase files; a.readFlows files flowsfile) = .ok b)
    (hc : results.foldlM gatherResult b = .ok c) {p : ProtocolResult}
    (hp : c.protocolResults name = some p) :
    p.underDefiningLimit =
      results.countP (·.isBelow b.flowTable b.defaultProtocol name a.definingLimit) := by
  obtain ⟨⟨-, hlimit, -, -⟩, hstart⟩ := prepare_eq_ok htable hflows hb
  obtain ⟨keys, t, -, rfl, ht⟩ := foldlM_gatherResult hc
  have hunder := ((ht name).2 p hp).underDefiningLimit
  rw [(hstart name).2, hlimit] at hunder
  exact hunder.trans (Nat.zero_add _)

theorem countsBelow_of_limit (htable : a.protocolResults = fun _ => none) (hflows : a.flows = none)
    (hlimit : a.definingLimit = limit) : a.CountsBelow limit := by
  intro files flowsfile b hb all _ results c _ hc name p hp
  rw [← hlimit]
  exact underDefiningLimit_eq htable hflows hb hc hp

/-- Without a limit nothing is counted. -/
theorem countP_isBelow_zero (flows : FlowTable) (default : ProtocolName) :
    results.countP (·.isBelow flows default name 0) = 0 := by
  refine List.countP_eq_zero.mpr fun result _ hbelow => ?_
  exact Nat.not_lt_zero _ (of_decide_eq_true (Bool.and_eq_true_iff.mp hbelow).2)

/-- Nor is there anything to count, where none of the results that the loop comes to is below. -/
theorem countsBelow_of_zero (htable : a.protocolResults = fun _ => none) (hflows : a.flows = none)
    (hzero : a.definingLimit = 0) (hlist : a.readList = some results)
    (hnone : ∀ result ∈ results.takeWhile (·.isLegible),
      result.flow.classified = true ∨ limit ≤ result.flow.pktCount) : a.CountsBelow limit := by
  intro files flowsfile b hb all hall results' c hprefix hc name p hp
  obtain ⟨⟨hresults, -, -, -⟩, -⟩ := prepare_eq_ok htable hflows hb
  have hsame : all = results := by
    have hall' : a.readList = some all := by
      rw [readList, ← hresults]
      exact readList_of_resultsToGather hall
    exact Option.some_inj.mp (hall'.symm.trans hlist)
  subst hsame
  have hreached : results' <+: all.takeWhile (·.isLegible) := by
    obtain ⟨rest, rfl⟩ := hprefix
    rw [List.takeWhile_append_of_pos (forall_isLegible hc)]
    exact List.prefix_append results' _
  rw [underDefiningLimit_eq htable hflows hb hc hp, hzero, countP_isBelow_zero]
  refine (List.countP_eq_zero.mpr fun result hresult hbelow => ?_).symm
  obtain ⟨hunclassified, hless⟩ := Bool.and_eq_true_iff.mp hbelow
  have hnot : result.flow.classified = false :=
    (Bool.not_eq_true' _).mp (Bool.and_eq_true_iff.mp hunclassified).2
  rcases hnone result (hreached.subset hresult) with hclassified | hle
  · exact Bool.false_ne_true (hnot.symm.trans hclassified)
  · exact Nat.not_lt.mpr hle (of_decide_eq_true hless)

end Analyser

/-! ## What is merged -/

/-- Whatever the results of the file are compared with, those of all runs are read, and they are
counted with the limit that the runs state. -/
def MergesRuns (load : ResultLoader) (text : List Char) (runs : List ResultSet) (limit : Nat) :
    Prop :=
  ∀ files file default database, files.load = load → files.text file = .ok text →
    ∃ a, (Analyser.init default database).readResults files (some file) = .ok a ∧
      a.readList = some (mergedResults runs) ∧ a.CountsBelow limit

/-- The file has no second document where it is loaded as a whole, the first run has a list, and
below the limit there is no result where the limit is not read. -/
structure Mergeable (load : ResultLoader) (text : List Char) (runs : List ResultSet)
    (limit : Nat) : Prop where
  notCut : ¬ Analyser.CutAfterRun load text
  hasList : ∀ first ∈ runs.head?, first.results ≠ none
  noneBelow : 2 ≤ runs.length ∨ ∀ result ∈ (mergedResults runs).takeWhile (·.isLegible),
    result.flow.classified = true ∨ limit ≤ result.flow.pktCount

/-- The files of a run that is compared with an empty list of flows. -/
def ScriptFiles.ofText (text : List Char) (load : ResultLoader) (names : List ProtocolName) :
    ScriptFiles :=
  { text := fun _ => .ok text, load := load, database := fun _ => .ok (some names)
    flows := fun _ => .ok [] }

namespace Analyser

variable {load : ResultLoader} {text : List Char}
  {files : ScriptFiles} {file : String} {a b : Analyser} {runs : List ResultSet} {first : ResultSet}
  {results : List ClassifierResult} {name : ProtocolName} {limit : Nat}

/-- Reading the results is reading their text. -/
theorem readResults_eq_ok_iff (hload : files.load = load) (htext : files.text file = .ok text) :
    a.readResults files (some file) = .ok b ↔ readText load a text = .ok b := by
  subst hload
  unfold readResults
  simp only [htext]
  cases readText files.load a text with
  | error e => exact iff_of_false nofun nofun
  | ok a' => exact Iff.rfl

/-- A file that is cut after a run cannot be read. -/
theorem readText_of_cutAfterRun (hdocuments : LoadsDocuments load text)
    (hcut : CutAfterRun load text) : ∀ b, readText load a text ≠ .ok b := by
  obtain ⟨before, after, run, hsplit, hload⟩ := hcut
  obtain ⟨e, he⟩ := hdocuments.single before after run hsplit hload
  intro b hb
  unfold readText at hb
  rw [hsplit, he] at hb
  cases hb

/-- The state before the loop, where the database has one name and the list of flows is empty. -/
theorem prepare_ofText (text : List Char) (load : ResultLoader) (name : ProtocolName)
    (hlist : a.readList = some results) (hflows : a.flows = none) :
    ∃ b, (do let a ← a.readDatabase (.ofText text load [name])
             a.readFlows (.ofText text load [name]) (some "flows.yaml")) = .ok b ∧
      b.flowTable = ∅ ∧ b.defaultProtocol = a.defaultProtocol ∧ b.readList = some results ∧
      (b.protocolResults name).isSome = true := by
  obtain ⟨run, hrun, -⟩ := Option.bind_eq_some_iff.mp hlist
  have hfile : ∃ file, a.databaseFile = .ok file := by
    unfold databaseFile
    rw [hrun]
    cases a.protocolDatabase with
    | none => exact ⟨run.fileName, rfl⟩
    | some file => exact ⟨file, rfl⟩
  obtain ⟨file, hfile⟩ := hfile
  unfold readDatabase
  rw [hfile]
  refine ⟨_, rfl, by rw [hflows]; rfl, rfl, hlist, ?_⟩
  change (ProtocolTable.add a.protocolResults name name).isSome = true
  rw [ProtocolTable.add, if_pos rfl]
  rfl

/-- Where no limit is read, and the default is in the database but not in the results, a result that
is below the limit is missed. -/
theorem noneBelow_of_countsBelow (htable : a.protocolResults = fun _ => none)
    (hflows : a.flows = none) (hzero : a.definingLimit = 0) (hlist : a.readList = some results)
    (hdefault : a.defaultProtocol ≠ none)
    (hfresh : ∀ result ∈ results, result.protocol ≠ some a.defaultProtocol)
    (hcounts : a.CountsBelow limit) : ∀ result ∈ results.takeWhile (·.isLegible),
      result.flow.classified = true ∨ limit ≤ result.flow.pktCount := by
  obtain ⟨b, hb, hempty, hbdefault, hblist, hbknown⟩ :=
    prepare_ofText [] (fun _ => .ok none) a.defaultProtocol hlist hflows
  rw [← hbdefault] at hbknown hdefault hfresh
  obtain ⟨c, hc⟩ := foldlM_of_isLegible (fun _ hresult => List.mem_takeWhile_imp hresult) hempty
    hbknown fun result hresult => hfresh result ((List.takeWhile_prefix _).subset hresult)
  obtain ⟨p, hp⟩ : ∃ p, c.protocolResults b.defaultProtocol = some p := by
    obtain ⟨keys, t, -, rfl, ht⟩ := foldlM_gatherResult hc
    exact Option.isSome_iff_exists.mp ((ht b.defaultProtocol).1.mpr (Or.inl hbknown))
  have hcounted := hcounts _ _ b hb results
    (resultsToGather_of_readList hblist hdefault hbknown) _ c (List.takeWhile_prefix _) hc _ p hp
  rw [underDefiningLimit_eq htable hflows hb hc hp, hzero, countP_isBelow_zero, hempty] at hcounted
  intro result hresult
  by_contra hbelow
  obtain ⟨hclassified, hless⟩ := not_or.mp hbelow
  refine List.countP_eq_zero.mp hcounted.symm result hresult ?_
  have hexpected : result.expectedProtocol ∅ b.defaultProtocol = b.defaultProtocol := by
    unfold ClassifierResult.expectedProtocol ClassifierResult.listedProtocol
    cases result.flow.dictRepr with
    | error e => rfl
    | ok key => rfl
  unfold ClassifierResult.isBelow ClassifierResult.isUnclassified
  rw [hexpected, beq_self_eq_true, Bool.eq_false_of_not_eq_true hclassified,
    decide_eq_true (Nat.not_le.mp hless)]
  rfl

theorem mergeable_of_mergesRuns (hmade : MadeOf load (split runSeparator text) runs)
    (hdocuments : LoadsDocuments load text) (hne : runs ≠ [])
    (hlimit : ∀ run ∈ runs, run.definingLimit = limit) (hmerges : MergesRuns load text runs limit) :
    Mergeable load text runs limit := by
  obtain ⟨first, rest, rfl⟩ := List.exists_cons_of_ne_nil hne
  -- a default that no result was classified as
  obtain ⟨fresh, hfresh⟩ := Infinite.exists_notMem_finset
    ((mergedResults (first :: rest)).filterMap fun result => result.protocol.join).toFinset
  obtain ⟨a, ha, hlist, hcounts⟩ := hmerges (.ofText text load [some fresh]) "" (some fresh) none
    rfl rfl
  have hkeeps := keepsTables_readResults ha
  rw [readResults_eq_ok_iff rfl rfl] at ha
  have hcut : ¬ CutAfterRun load text := fun hcut => readText_of_cutAfterRun hdocuments hcut a ha
  obtain ⟨hsome, hnone⟩ := readText_of_made hmade hdocuments hcut
    (fun run hrun => hlimit run (List.mem_cons_of_mem first hrun)) (a := init (some fresh) none) rfl
  have hfirst : first.results ≠ none := fun hfirst => by
    rw [hnone hfirst a ha] at hlist
    cases hlist
  refine ⟨hcut, fun first' hfirst' => Option.some_inj.mp hfirst' ▸ hfirst, ?_⟩
  cases rest with
  | cons second rest => exact Or.inl (by rw [List.length_cons, List.length_cons]; omega)
  | nil =>
    obtain ⟨results, hresults⟩ := Option.ne_none_iff_exists'.mp hfirst
    obtain ⟨b, hb, -, hzero⟩ := hsome results hresults
    cases ha.symm.trans hb
    have hdefault : a.defaultProtocol = some fresh := hkeeps.defaultProtocol
    refine Or.inr (noneBelow_of_countsBelow hkeeps.protocolResults hkeeps.flows hzero hlist
      ?_ ?_ hcounts)
    · rw [hdefault]
      exact Option.some_ne_none fresh
    · rw [hdefault]
      intro result hresult hprotocol
      refine hfresh (List.mem_toFinset.mpr (List.mem_filterMap.mpr ⟨result, hresult, ?_⟩))
      rw [hprotocol]
      rfl

theorem mergesRuns_of_mergeable (hmade : MadeOf load (split runSeparator text) runs)
    (hdocuments : LoadsDocuments load text) (hne : runs ≠ [])
    (hlimit : ∀ run ∈ runs, run.definingLimit = limit) (h : Mergeable load text runs limit) :
    MergesRuns load text runs limit := by
  obtain ⟨first, rest, rfl⟩ := List.exists_cons_of_ne_nil hne
  obtain ⟨hcut, hlists, hbelow⟩ := h
  intro files file default database hload htext
  obtain ⟨results, hresults⟩ := Option.ne_none_iff_exists'.mp (hlists first rfl)
  obtain ⟨b, hb, hlist, hlimit'⟩ := (readText_of_made hmade hdocuments hcut
    (fun run hrun => hlimit run (List.mem_cons_of_mem first hrun))
    (a := init default database) rfl).1 results hresults
  have hread := (readResults_eq_ok_iff hload htext).mpr hb
  have hkeeps := keepsTables_readResults hread
  refine ⟨b, hread, hlist, ?_⟩
  cases rest with
  | nil =>
    refine countsBelow_of_zero hkeeps.protocolResults hkeeps.flows hlimit' hlist
      (hbelow.resolve_left ?_)
    exact Nat.not_le.mpr Nat.one_lt_two
  | cons second rest =>
    exact countsBelow_of_limit hkeeps.protocolResults hkeeps.flows
      (hlimit'.trans (if_neg (List.cons_ne_nil second rest)))

/-- **The results of all runs are read, and counted with the limit of the runs, exactly if the file
is not cut in two after a run, the first run has a list of results, and there are two runs or no
result below the limit.** -/
theorem merges_iff (hmade : MadeOf load (split runSeparator text) runs)
    (hdocuments : LoadsDocuments load text) (hne : runs ≠ [])
    (hlimit : ∀ run ∈ runs, run.definingLimit = limit) :
    MergesRuns load text runs limit ↔ Mergeable load text runs limit :=
  ⟨mergeable_of_mergesRuns hmade hdocuments hne hlimit,
    mergesRuns_of_mergeable hmade hdocuments hne hlimit⟩

end Analyser

/-! ## Examples -/

namespace ShortFlow

def head : List String :=
  ["ProtocolDatabase:", "  FileName: db.yaml", "  CutoffLimit: 100", "  DefiningLimit: 25",
    "KLDivergenceThreshold: 0", "Results:"]

def resultLines : List String :=
  ["- Flow:", "    src: 10.0.0.1:1053", "    dst: 10.0.0.2:53", "    transport: 17",
    "    classified: false", "    pkt_count: 5"]

/-- A flow with fewer packets than the limit. -/
def result : ClassifierResult :=
  { flow := ⟨"10.0.0.1:1053", "10.0.0.2:53", .number 17, false, 5⟩
    protocol := none, divergence := none }

def run (results : Option (List ClassifierResult)) : ResultSet :=
  { fileName := "db.yaml", definingLimit := 25, cutoffLimit := 100, klDivergenceThreshold := 0
    results := results }

/-- A run with the result, with or without its separator, or one without any result. -/
def load (text : List Char) : Except ScriptError (Option ResultSet) :=
  if text = [] then .ok none
  else if text = textOf ("" :: head ++ resultLines) ∨
      text = textOf ("---" :: head ++ resultLines) then
    .ok (some (run (some [result])))
  else if text = textOf ("" :: head) then .ok (some (run none))
  else .error .yamlError

def oneRun : List Char := textOf ("---" :: head ++ resultLines)

def twoRuns : List Char := textOf ("---" :: head ++ resultLines ++ "---" :: head)

theorem split_oneRun : split Analyser.runSeparator oneRun =
    [[], textOf ("" :: head ++ resultLines)] := by decide +kernel

theorem split_twoRuns : split Analyser.runSeparator twoRuns =
    [[], textOf ("" :: head ++ resultLines), textOf ("" :: head)] := by decide +kernel

theorem load_nil : load [] = .ok none := if_pos rfl

theorem load_result :
    load (textOf ("" :: head ++ resultLines)) = .ok (some (run (some [result]))) := by
  decide +kernel

/-- The flow is counted, as there is another run. -/
theorem twoRuns_merged : MergesRuns load twoRuns [run (some [result]), run none] 25 := by
  have hmade : MadeOf load (split Analyser.runSeparator twoRuns)
      [run (some [result]), run none] := by
    rw [split_twoRuns]
    refine .blank nofun load_nil (.run (by decide) load_result (.run (by decide) ?_ .nil))
    decide +kernel
  have hthree : ∀ before after, split Analyser.runSeparator twoRuns ≠ [before, after] := by
    intro before after h
    rw [split_twoRuns] at h
    cases h
  refine (Analyser.merges_iff hmade ⟨fun before after h => absurd h (hthree before after),
    fun before after _ h => absurd h (hthree before after)⟩ (List.cons_ne_nil _ _) ?_).mpr
      ⟨?_, ?_, Or.inl (le_refl 2)⟩
  · intro r hr
    rcases List.mem_pair.mp hr with rfl | rfl
    · rfl
    · rfl
  · rintro ⟨before, after, r, h, -⟩
    exact hthree before after h
  · intro first hfirst
    rw [← Option.some_inj.mp hfirst]
    exact Option.some_ne_none _

/-- Of a single run the limit is not read, and the flow is not counted. -/
theorem oneRun_missed : MadeOf load (split Analyser.runSeparator oneRun) [run (some [result])] ∧
    LoadsDocuments load oneRun ∧ ¬ MergesRuns load oneRun [run (some [result])] 25 := by
  have hmade : MadeOf load (split Analyser.runSeparator oneRun) [run (some [result])] := by
    rw [split_oneRun]
    exact .blank nofun load_nil (.run (by decide) load_result .nil)
  have hdocuments : LoadsDocuments load oneRun := by
    constructor
    · intro before after h _
      rw [split_oneRun] at h
      cases h
      decide +kernel
    · intro before after r h hload
      rw [split_oneRun] at h
      cases h
      rw [load_nil] at hload
      cases hload
  refine ⟨hmade, hdocuments, fun hmerges => ?_⟩
  obtain ⟨-, -, hbelow⟩ := Analyser.mergeable_of_mergesRuns hmade hdocuments (List.cons_ne_nil _ _)
    (fun r hr => by rw [List.mem_singleton.mp hr]; rfl) hmerges
  rcases hbelow with hlength | hnone
  · exact absurd hlength (by decide)
  · have hreached : result ∈ (mergedResults [run (some [result])]).takeWhile (·.isLegible) := by
      decide +kernel
    rcases hnone result hreached with hclassified | hle
    · cases hclassified
    · exact absurd hle (by decide)

end ShortFlow

end Vsid
