import Vsid.Laws.Gathering

/-!
# The counts of the analysis

A run of `analyse_results.py` that comes to its end, from the files to the table. `gathered` says
what every counter of every protocol is, as a count over what was read. A protocol that is put into
the table by a result misses the results before it, so its five counters add up to the number of all
results exactly when it is known from the start or named by the first of them (`conserved_iff`).
-/

set_option autoImplicit false

namespace Vsid

/-! ## What is read -/

/-- The names in the database. -/
def ScriptFiles.names (files : ScriptFiles) : Option String → List ProtocolName
  | none => []
  | some file =>
    match files.database file with
    | .ok (some names) => names
    | _ => []

/-- The list of expected flows. -/
def ScriptFiles.listed (files : ScriptFiles) : Option String → List ListedFlow
  | none => []
  | some file =>
    match files.flows file with
    | .ok listed => listed
    | .error _ => []

namespace FlowTable

/-- `flows[key] = ip_tuple`. -/
def list (flows : FlowTable) (flow : ListedFlow) : FlowTable :=
  flows.insert flow.dictRepr { l7protocol := flow.protocol, seen := false }

/-- The dictionary of a list of flows: the last one of a five-tuple is kept. -/
def ofListed (listed : List ListedFlow) : FlowTable := listed.foldl list ∅

/-- No flow was seen. -/
def Unseen (flows : FlowTable) : Prop :=
  ∀ key flow, flows.lookup key = some flow → flow.seen = false

theorem Unseen.list {flows : FlowTable} (h : flows.Unseen) (flow : ListedFlow) :
    (flows.list flow).Unseen := by
  intro key flow' hflow'
  unfold FlowTable.list at hflow'
  by_cases hkey : key = flow.dictRepr
  · rw [hkey, AList.lookup_insert, Option.some_inj] at hflow'
    rw [← hflow']
  · rw [AList.lookup_insert_ne hkey] at hflow'
    exact h key flow' hflow'

theorem unseen_ofListed (listed : List ListedFlow) : (ofListed listed).Unseen := by
  have hstart : (∅ : FlowTable).Unseen := fun key flow h => by
    rw [AList.lookup_empty] at h
    cases h
  unfold ofListed
  exact List.foldlRecOn listed list hstart fun flows h flow _ => h.list flow

theorem lookup_see (flows : FlowTable) (key key' : String) :
    (flows.see key).lookup key' =
      (flows.lookup key').map fun flow => { flow with seen := flow.seen || key' == key } := by
  have hsame : ∀ flow : Option ExpectedFlow,
      flow.map (fun flow => { flow with seen := flow.seen || false }) = flow := by
    intro flow
    cases flow with
    | none => rfl
    | some flow => rw [Option.map_some, Bool.or_false]
  unfold see
  split
  next flow hflow =>
    by_cases hkey : key' = key
    · rw [hkey, AList.lookup_insert, hflow, beq_self_eq_true, Option.map_some, Bool.or_true]
    · rw [AList.lookup_insert_ne hkey, beq_eq_false_iff_ne.mpr hkey, hsame]
  next hnone =>
    by_cases hkey : key' = key
    · rw [hkey, hnone]
      rfl
    · rw [beq_eq_false_iff_ne.mpr hkey, hsame]

theorem keys_see (flows : FlowTable) (key : String) : (flows.see key).keys.Perm flows.keys := by
  unfold see
  split
  next flow hflow =>
    have hmem : key ∈ flows.keys := AList.lookup_isSome.mp (by rw [hflow]; rfl)
    rw [AList.keys_insert]
    exact (List.perm_cons_erase hmem).symm
  next => exact List.Perm.refl _

theorem lookup_foldl_see (flows : FlowTable) (keys : List String) (key : String) :
    (keys.foldl see flows).lookup key =
      (flows.lookup key).map fun flow => { flow with seen := flow.seen || keys.contains key } := by
  induction keys generalizing flows with
  | nil =>
    rw [List.foldl_nil, List.contains_nil]
    cases flows.lookup key with
    | none => rfl
    | some flow => rw [Option.map_some, Bool.or_false]
  | cons k keys ih =>
    rw [List.foldl_cons, ih, lookup_see, Option.map_map, List.contains_cons]
    congr 1
    funext flow
    simp only [Function.comp_apply, Bool.or_assoc]

theorem keys_foldl_see (flows : FlowTable) (keys : List String) :
    (keys.foldl see flows).keys.Perm flows.keys := by
  induction keys generalizing flows with
  | nil => exact List.Perm.refl _
  | cons k keys ih => exact (ih (flows.see k)).trans (keys_see flows k)

/-- The entries of a table are counted by their keys. -/
theorem countP_entries (flows : FlowTable) (p : ExpectedFlow → Bool) :
    flows.entries.countP (fun flow => p flow.2) =
      flows.keys.countP fun key => (flows.lookup key).any p := by
  unfold AList.keys List.keys
  rw [List.countP_map]
  refine List.countP_congr fun flow hflow => ?_
  have hlookup : flows.lookup flow.1 = some flow.2 := AList.mem_lookup_iff.mpr hflow
  rw [Function.comp_apply, hlookup, Option.any_some]

/-- The flows of a protocol that were not seen. -/
theorem countP_unseen {listed : List ListedFlow} (keys : List String) (name : ProtocolName) :
    (keys.foldl see (ofListed listed)).entries.countP
        (fun flow => flow.2.l7protocol == name && !flow.2.seen) =
      (ofListed listed).keys.countP fun key =>
        (ofListed listed).protocolOf key == some name && !keys.contains key := by
  rw [countP_entries _ fun flow => flow.l7protocol == name && !flow.seen,
    (keys_foldl_see _ keys).countP_eq]
  refine List.countP_congr fun key _ => ?_
  rw [lookup_foldl_see]
  unfold protocolOf
  cases hflow : (ofListed listed).lookup key with
  | none => rfl
  | some flow =>
    rw [Option.map_some, Option.any_some, unseen_ofListed listed key flow hflow, Bool.false_or]
    rfl

end FlowTable

/-- What an analysis is about. -/
structure ScriptInputs where
  results : List ClassifierResult
  names : List ProtocolName
  listed : List ListedFlow
  default : ProtocolName
  definingLimit : Nat
deriving DecidableEq

namespace ScriptInputs

variable (i : ScriptInputs)

def flows : FlowTable := .ofListed i.listed

/-- The protocol is in the database or in the list of flows. -/
def isKnown (name : ProtocolName) : Bool :=
  i.names.contains name || (i.listed.map (·.protocol)).contains name

/-- The result puts the protocol into the table. -/
def mentions (result : ClassifierResult) (name : ProtocolName) : Bool :=
  result.mentions i.flows i.default name

/-- The results that are about flows of the protocol and are not classified. -/
def unclassified (name : ProtocolName) : Nat :=
  i.results.countP (·.isUnclassified i.flows i.default name)

/-- Those of them that have fewer packets than the limit. -/
def below (name : ProtocolName) : Nat :=
  i.results.countP (·.isBelow i.flows i.default name i.definingLimit)

/-- The five-tuples in the list that are of the protocol and that no result is about. -/
def unseen (name : ProtocolName) : Nat :=
  i.flows.keys.countP fun key => i.flows.protocolOf key == some name &&
    !(i.results.any fun result => result.flow.dictRepr.toOption == some key)

/-- The flows that are expected of the protocol: those in the list, and the results about none of
them where it is the default, without the ones that were not seen. -/
def expected (name : ProtocolName) : Int :=
  i.listed.countP (·.protocol == name) + i.results.countP (·.isExtraOf i.flows i.default name) -
    i.unseen name

end ScriptInputs

namespace Analyser

/-- The results that are read. -/
def resultList (a : Analyser) : List ClassifierResult := (a.results.bind (·.results)).getD []

/-- `gather_results` leaves the results, the name of the database and the limit as they were. -/
def inputs (files : ScriptFiles) (options : ScriptOptions) (a : Analyser) : ScriptInputs :=
  { results := a.resultList, names := files.names a.protocolDatabase
    listed := files.listed options.flowsfile, default := options.protocol
    definingLimit := a.definingLimit }

variable {a a' b : Analyser} {files : ScriptFiles} {options : ScriptOptions} {name : ProtocolName}

theorem foldl_add (names : List ProtocolName) (t : ProtocolTable) (name : ProtocolName) :
    names.foldl ProtocolTable.add t name =
      if name ∈ names then some ((t name).getD (.init name)) else t name := by
  induction names generalizing t with
  | nil => exact (if_neg List.not_mem_nil).symm
  | cons k names ih =>
    rw [List.foldl_cons, ih, ProtocolTable.add]
    by_cases hname : name = k
    · subst hname
      rw [if_pos rfl, if_pos List.mem_cons_self, Option.getD_some, ite_self]
    · rw [if_neg hname]
      by_cases hmem : name ∈ names
      · rw [if_pos hmem, if_pos (List.mem_cons_of_mem k hmem)]
      · rw [if_neg hmem, if_neg (List.not_mem_cons_of_ne_of_not_mem hname hmem)]

theorem modify_add (t : ProtocolTable) (k name : ProtocolName)
    (f : ProtocolResult → ProtocolResult) : (t.add k).modify k f name =
      if name = k then some (f ((t name).getD (.init name))) else t name := by
  unfold ProtocolTable.modify ProtocolTable.add
  by_cases hname : name = k
  · subst hname
    rw [if_pos rfl, if_pos rfl, if_pos rfl]
    rfl
  · rw [if_neg hname, if_neg hname, if_neg hname]

/-- The protocol with more flows expected of it. -/
def withExpected (p : ProtocolResult) (n : Nat) : ProtocolResult :=
  { p with expected := p.expected + n }

theorem foldl_addFlow (listed : List ListedFlow) (flows : FlowTable) (t : ProtocolTable) :
    (listed.foldl addFlow (flows, t)).1 = listed.foldl FlowTable.list flows ∧
      ∀ name, (listed.foldl addFlow (flows, t)).2 name =
        if name ∈ listed.map (·.protocol) then
          some (withExpected ((t name).getD (.init name)) (listed.countP (·.protocol == name)))
        else t name := by
  induction listed generalizing flows t with
  | nil => exact ⟨rfl, fun name => (if_neg List.not_mem_nil).symm⟩
  | cons flow listed ih =>
    obtain ⟨hflows, htable⟩ := ih (addFlow (flows, t) flow).1 (addFlow (flows, t) flow).2
    refine ⟨hflows, fun name => (htable name).trans ?_⟩
    have hadd : (addFlow (flows, t) flow).2 name = if name = flow.protocol then
        some ((t name).getD (.init name)).increaseExpected else t name := modify_add ..
    rw [hadd, List.map_cons, List.countP_cons]
    by_cases hname : name = flow.protocol
    · subst hname
      have hhead : (flow.protocol == flow.protocol) = true := beq_self_eq_true _
      have hmore : ∀ (p : ProtocolResult) (n : Nat),
          withExpected p.increaseExpected n = withExpected p (n + 1) := by
        intro p n
        unfold withExpected ProtocolResult.increaseExpected
        rw [Nat.cast_succ, Int.add_assoc, Int.add_comm 1]
      rw [if_pos rfl, if_pos List.mem_cons_self, Option.getD_some, hhead, if_pos rfl, ← hmore]
      split
      · rfl
      next hmem =>
        have hzero : listed.countP (·.protocol == flow.protocol) = 0 := by
          refine List.countP_eq_zero.mpr fun other hother heq => hmem ?_
          exact List.mem_map.mpr ⟨other, hother, beq_iff_eq.mp heq⟩
        rw [hzero, withExpected, Nat.cast_zero, Int.add_zero]
    · have hother : (flow.protocol == name) = false := beq_eq_false_iff_ne.mpr (Ne.symm hname)
      rw [if_neg hname, hother, if_neg Bool.false_ne_true, Nat.add_zero]
      by_cases hmem : name ∈ listed.map (·.protocol)
      · rw [if_pos hmem, if_pos (List.mem_cons_of_mem _ hmem)]
      · rw [if_neg hmem, if_neg (List.not_mem_cons_of_ne_of_not_mem hname hmem)]

/-- Reading the results changes neither the table nor the flows. -/
structure KeepsTables (a b : Analyser) : Prop where
  protocolResults : b.protocolResults = a.protocolResults
  flows : b.flows = a.flows
  defaultProtocol : b.defaultProtocol = a.defaultProtocol

theorem KeepsTables.refl (a : Analyser) : KeepsTables a a := ⟨rfl, rfl, rfl⟩

theorem KeepsTables.readRun {load : ResultLoader} {run : List Char} (h : KeepsTables a b)
    (hread : b.readRun load run = .ok a') : KeepsTables a a' := by
  unfold Analyser.readRun at hread
  split at hread
  · cases hread
    exact h
  · obtain ⟨document, -, hread⟩ := Fallible.bind_eq_ok.mp hread
    split at hread
    · cases hread
      exact h
    · split at hread
      · cases hread
        exact ⟨h.protocolResults, h.flows, h.defaultProtocol⟩
      · simp only at hread
        split at hread
        · cases hread
          exact ⟨h.protocolResults, h.flows, h.defaultProtocol⟩
        · split at hread
          · cases hread
          · cases hread
            exact ⟨h.protocolResults, h.flows, h.defaultProtocol⟩

theorem keepsTables_readResults {file : Option String}
    (h : a.readResults files file = .ok b) : KeepsTables a b := by
  unfold readResults at h
  split at h
  · cases h
  · split at h
    · cases h
    · split at h
      · cases h
      next hread =>
        cases h
        unfold readText at hread
        simp only at hread
        split at hread
        · exact Fallible.foldlM_invariant (fun _ hs _ _ _ hstep => hs.readRun hstep) (.refl a) hread
        · obtain ⟨results, -, hread⟩ := Fallible.bind_eq_ok.mp hread
          cases hread
          exact ⟨rfl, rfl, rfl⟩

theorem readDatabase_eq_ok (h : a.readDatabase files = .ok b) :
    ∃ file, b = { a with
      protocolDatabase := some file
      protocolResults := (files.names (some file)).foldl ProtocolTable.add a.protocolResults } := by
  unfold readDatabase at h
  obtain ⟨file, -, h⟩ := Fallible.bind_eq_ok.mp h
  obtain ⟨document, hdocument, h⟩ := Fallible.bind_eq_ok.mp h
  split at h
  · cases h
  · cases h
    refine ⟨file, ?_⟩
    rw [ScriptFiles.names, hdocument]

theorem readFlows_eq_ok {file : Option String} (h : a.readFlows files file = .ok b)
    (hflows : a.flows = none) :
    ∃ t, b = { a with
        flows := file.map fun _ => .ofListed (files.listed file), protocolResults := t } ∧
      ∀ name, t name = if name ∈ (files.listed file).map (·.protocol) then
          some (withExpected ((a.protocolResults name).getD (.init name))
            ((files.listed file).countP (·.protocol == name)))
        else a.protocolResults name := by
  unfold readFlows at h
  split at h
  · cases h
    refine ⟨a.protocolResults, ?_, fun name => (if_neg List.not_mem_nil).symm⟩
    rw [Option.map_none, ← hflows]
  next file =>
    obtain ⟨listed, hlisted, h⟩ := Fallible.bind_eq_ok.mp h
    obtain ⟨hfirst, hsecond⟩ := foldl_addFlow listed (a.flows.getD ∅) a.protocolResults
    cases h
    have hread : files.listed (some file) = listed := by
      rw [ScriptFiles.listed, hlisted]
    rw [hread]
    refine ⟨_, ?_, hsecond⟩
    rw [hfirst, hflows]
    rfl

/-- The table after the database and the list of flows are read. -/
theorem prepare_eq_ok {flowsfile : Option String} (htable : a.protocolResults = fun _ => none)
    (hflows : a.flows = none)
    (h : (do let a ← a.readDatabase files; a.readFlows files flowsfile) = .ok b) :
    (b.results = a.results ∧ b.definingLimit = a.definingLimit ∧
        b.defaultProtocol = a.defaultProtocol ∧
        b.flows = flowsfile.map fun _ => .ofListed (files.listed flowsfile)) ∧
      ∀ name, (b.protocolResults name).isSome = ((files.names b.protocolDatabase).contains name ||
          ((files.listed flowsfile).map (·.protocol)).contains name) ∧
        (b.protocolResults name).getD (.init name) = withExpected (.init name)
          ((files.listed flowsfile).countP (·.protocol == name)) := by
  obtain ⟨a₂, h₂, h₃⟩ := Fallible.bind_eq_ok.mp h
  obtain ⟨file, rfl⟩ := readDatabase_eq_ok h₂
  obtain ⟨t, rfl, ht⟩ := readFlows_eq_ok h₃ hflows
  simp only [foldl_add, htable, Option.getD_none] at ht
  refine ⟨⟨rfl, rfl, rfl, rfl⟩, fun name => ?_⟩
  simp only [ht]
  by_cases hlisted : name ∈ (files.listed flowsfile).map (·.protocol)
  · rw [if_pos hlisted, List.contains_iff_mem.mpr hlisted, Bool.or_true]
    refine ⟨rfl, ?_⟩
    split
    · rfl
    · rfl
  · have hzero : (files.listed flowsfile).countP (·.protocol == name) = 0 := by
      refine List.countP_eq_zero.mpr fun flow hflow heq => hlisted ?_
      exact List.mem_map.mpr ⟨flow, hflow, beq_iff_eq.mp heq⟩
    have hnot : ((files.listed flowsfile).map (·.protocol)).contains name = false :=
      Bool.eq_false_iff.mpr fun hmem => hlisted (List.contains_iff_mem.mp hmem)
    rw [if_neg hlisted, hzero, hnot, Bool.or_false]
    by_cases hname : name ∈ files.names (some file)
    · rw [if_pos hname, List.contains_iff_mem.mpr hname]
      exact ⟨rfl, rfl⟩
    · rw [if_neg hname]
      exact ⟨(Bool.eq_false_iff.mpr fun hmem => hname (List.contains_iff_mem.mp hmem)).symm, rfl⟩

/-- The state before `gather_results`. -/
theorem readInputs_eq_ok (h : readInputs files options = .ok b) :
    b.flows = options.flowsfile.map (fun _ => .ofListed (files.listed options.flowsfile)) ∧
      b.defaultProtocol = options.protocol ∧
      ∀ name, (b.protocolResults name).isSome = (b.inputs files options).isKnown name ∧
        (b.protocolResults name).getD (.init name) = withExpected (.init name)
          ((files.listed options.flowsfile).countP (·.protocol == name)) := by
  unfold readInputs at h
  simp only at h
  split at h
  · cases h
  · split at h
    · cases h
    · obtain ⟨a₁, h₁, h⟩ := Fallible.bind_eq_ok.mp h
      have hkeeps := keepsTables_readResults h₁
      obtain ⟨⟨-, -, hdefault, hflows⟩, htable⟩ :=
        prepare_eq_ok hkeeps.protocolResults hkeeps.flows h
      exact ⟨hflows, hdefault.trans hkeeps.defaultProtocol, htable⟩

/-- `flow` was not seen, and is of the protocol. -/
def isUnseenOf (name : ProtocolName) (flow : Σ _ : String, ExpectedFlow) : Bool :=
  flow.2.l7protocol == name && !flow.2.seen

/-- The protocol with fewer flows expected of it. -/
def withoutExpected (n : Nat) (p : ProtocolResult) : ProtocolResult :=
  { p with expected := p.expected - n }

theorem foldlM_forget {entries : List (Σ _ : String, ExpectedFlow)} {t t' : ProtocolTable}
    (h : entries.foldlM (fun (t : ProtocolTable) flow =>
      if flow.2.seen then pure t else t.update flow.2.l7protocol .decreaseExpected) t = .ok t')
    (name : ProtocolName) :
    t' name = (t name).map (withoutExpected (entries.countP (isUnseenOf name))) := by
  have hzero : ∀ t : ProtocolTable, (t name).map (withoutExpected 0) = t name := by
    intro t
    unfold withoutExpected
    cases t name with
    | none => rfl
    | some p => rw [Option.map_some, Nat.cast_zero, Int.sub_zero]
  induction entries generalizing t with
  | nil =>
    obtain rfl : t = t' := Except.ok.inj h
    rw [List.countP_nil, hzero]
  | cons flow entries ih =>
    obtain ⟨t₁, hstep, hrest⟩ := Fallible.foldlM_cons_eq_ok h
    rw [ih hrest, List.countP_cons]
    cases hseen : flow.2.seen with
    | true =>
      rw [hseen, if_pos rfl] at hstep
      obtain rfl : t = t₁ := Except.ok.inj hstep
      have hnot : isUnseenOf name flow = false := by
        unfold isUnseenOf
        rw [hseen, Bool.not_true, Bool.and_false]
      rw [hnot, if_neg Bool.false_ne_true, Nat.add_zero]
    | false =>
      rw [hseen, if_neg Bool.false_ne_true, ProtocolTable.update] at hstep
      split at hstep
      · obtain rfl := Except.ok.inj hstep
        unfold isUnseenOf
        rw [hseen, Bool.not_false, Bool.and_true]
        by_cases hname : name = flow.2.l7protocol
        · rw [← hname, beq_self_eq_true, if_pos rfl, ProtocolTable.modify_self, Option.map_map]
          congr 1
          funext p
          unfold withoutExpected ProtocolResult.decreaseExpected
          simp only [Function.comp_apply, Nat.cast_succ]
          congr 1
          omega
        · rw [beq_eq_false_iff_ne.mpr (Ne.symm hname), if_neg Bool.false_ne_true, Nat.add_zero,
            ProtocolTable.modify_of_ne hname]
      · cases hstep

/-- The loop over the flows that were not seen. -/
theorem forgetUnseen_eq_ok (h : a.forgetUnseen = .ok a') :
    ∃ flows t, a.flows = some flows ∧ a' = { a with protocolResults := t } ∧
      ∀ name, t name =
        (a.protocolResults name).map (withoutExpected (flows.entries.countP (isUnseenOf name))) := by
  unfold forgetUnseen at h
  split at h
  · cases h
  next flows hflows =>
    obtain ⟨t, hfold, h⟩ := Fallible.bind_eq_ok.mp h
    cases h
    exact ⟨flows, t, hflows, rfl, foldlM_forget hfold⟩

theorem resultList_eq {results : List ClassifierResult}
    (h : a.resultsToGather = .ok results) : a.resultList = results := by
  unfold resultsToGather at h
  unfold resultList
  split at h
  · cases h
  next run hrun =>
    split at h
    · cases h
    · split at h
      · cases h
      · split at h
        · cases h
        next hresults =>
          cases h
          rw [hrun, Option.bind_some, hresults]
          rfl

end Analyser

/-- What the analysis makes of the protocol `name`. -/
structure Gathered (i : ScriptInputs) (name : ProtocolName) (p : ProtocolResult) : Prop where
  total : p.total =
    (i.results.dropWhile fun result => !(i.isKnown name || i.mentions result name)).length
  notClassified : p.notClassified = i.unclassified name
  underDefiningLimit : p.underDefiningLimit = i.below name
  expected : p.expected = i.expected name

namespace Analyser

variable {a a' b : Analyser} {files : ScriptFiles} {options : ScriptOptions} {name : ProtocolName}

theorem contains_of_map {results : List ClassifierResult} {keys : List String}
    (h : results.map (·.flow.dictRepr) = keys.map Except.ok) (key : String) :
    keys.contains key = results.any (·.flow.dictRepr.toOption == some key) := by
  have hany := congrArg (List.any · fun k => k.toOption == some key) h
  simp only [List.any_map] at hany
  refine Eq.trans ?_ hany.symm
  rw [List.contains_eq_any_beq]
  congr 1
  funext k
  exact Bool.beq_comm

/-- **What every counter of every protocol is**, when the script comes to its end. -/
theorem gathered (h : analyseResults files options = .ok a) (name : ProtocolName) :
    ((a.protocolResults name).isSome = true ↔ (a.inputs files options).isKnown name = true ∨
      ∃ result ∈ a.resultList, (a.inputs files options).mentions result name = true) ∧
    ∀ p, a.protocolResults name = some p → Gathered (a.inputs files options) name p := by
  obtain ⟨b, hread, hgather⟩ := Fallible.bind_eq_ok.mp h
  obtain ⟨hflows, hdefault, htable⟩ := readInputs_eq_ok hread
  obtain ⟨results, hresults, hgather⟩ := Fallible.bind_eq_ok.mp hgather
  obtain ⟨c, hloop, hforget⟩ := Fallible.bind_eq_ok.mp hgather
  obtain ⟨keys, t, hkeys, rfl, ht⟩ := foldlM_gatherResult hloop
  obtain ⟨flows, t', hseen, rfl, ht'⟩ := forgetUnseen_eq_ok hforget
  obtain ⟨listed, hlisted, rfl⟩ := Option.map_eq_some_iff.mp hseen
  obtain ⟨file, -, hfile⟩ := Option.map_eq_some_iff.mp (hflows.symm.trans hlisted)
  have hflowTable : b.flowTable = (b.inputs files options).flows := by
    unfold flowTable
    rw [hlisted, Option.getD_some, ← hfile]
    rfl
  have hlist : (b.inputs files options).results = results := resultList_eq hresults
  -- reading and gathering leave the inputs alone
  change ((t' name).isSome = true ↔ (b.inputs files options).isKnown name = true ∨
      ∃ result ∈ (b.inputs files options).results,
        (b.inputs files options).mentions result name = true) ∧
    ∀ p, t' name = some p → Gathered (b.inputs files options) name p
  obtain ⟨hknown, htallied⟩ := ht name
  obtain ⟨hsome, hstart⟩ := htable name
  rw [hsome, hflowTable, hdefault] at hknown htallied
  rw [hstart] at htallied
  refine ⟨?_, fun p hp => ?_⟩
  · rw [ht', Option.isSome_map, hlist]
    exact hknown
  · rw [ht'] at hp
    obtain ⟨p₁, hp₁, rfl⟩ := Option.map_eq_some_iff.mp hp
    obtain ⟨htotal, hnotClassified, hbelow, hexpected⟩ := htallied p₁ hp₁
    rw [← hlist] at htotal hnotClassified hbelow hexpected
    refine ⟨htotal.trans (Nat.zero_add _), hnotClassified.trans (Nat.zero_add _),
      hbelow.trans (Nat.zero_add _), ?_⟩
    have hkey : ∀ key, keys.contains key =
        (b.inputs files options).results.any (·.flow.dictRepr.toOption == some key) := by
      intro key
      rw [hlist, contains_of_map hkeys]
    have hunseen : (keys.foldl FlowTable.see listed).entries.countP (isUnseenOf name) =
        (b.inputs files options).unseen name := by
      rw [← hfile]
      refine (FlowTable.countP_unseen keys name).trans ?_
      simp only [hkey]
      rfl
    change p₁.expected - _ = _
    rw [hexpected, hunseen]
    change 0 + _ + _ - _ = _
    rw [Int.zero_add]
    rfl

end Analyser

/-! ## Conservation -/

/-- Every protocol that a result names is in the database or the list of flows, or the first result
names it. -/
def ScriptInputs.NamedEarly (i : ScriptInputs) : Prop :=
  ∀ result ∈ i.results.tail, ∀ name, i.mentions result name = true →
    i.isKnown name = true ∨ ∃ first ∈ i.results.head?, i.mentions first name = true

theorem length_dropWhile_iff {α : Type} {p : α → Bool} {l : List α} :
    (l.dropWhile p).length = l.length ↔ ∀ x ∈ l.head?, p x = false := by
  cases l with
  | nil => exact iff_of_true rfl nofun
  | cons x l =>
    simp only [List.head?_cons, Option.mem_some_iff, forall_eq']
    cases hp : p x with
    | false => exact iff_of_true (by rw [List.dropWhile_cons_of_neg (by rw [hp]; decide)]) rfl
    | true =>
      rw [List.dropWhile_cons_of_pos hp]
      have hle := (List.dropWhile_suffix p : l.dropWhile p <:+ l).length_le
      exact iff_of_false (by rw [List.length_cons]; omega) (by decide)

namespace Analyser

variable {a : Analyser} {files : ScriptFiles} {options : ScriptOptions}

/-- **The five counters of every protocol add up to the number of results exactly if every protocol
is known from the start or named by the first result.** A protocol that a later result puts into the
table has no true negatives for the results before it. -/
theorem conserved_iff (h : analyseResults files options = .ok a) :
    (∀ name p, a.protocolResults name = some p →
      p.truePositive + p.falsePositive + p.trueNegative + p.falseNegative + p.notClassified =
        a.resultList.length) ↔ (a.inputs files options).NamedEarly := by
  have hconserved : ∀ name p, a.protocolResults name = some p →
      (p.total = a.resultList.length ↔ ∀ first ∈ a.resultList.head?,
        ((a.inputs files options).isKnown name ||
          (a.inputs files options).mentions first name) = true) := by
    intro name p hp
    rw [((gathered h name).2 p hp).total]
    refine length_dropWhile_iff.trans (forall₂_congr fun first _ => ?_)
    rw [Bool.not_eq_false']
  constructor
  · intro hall result hresult name hmentions
    have hmem : result ∈ a.resultList := List.mem_of_mem_tail hresult
    have hknown := (gathered h name).1.mpr (Or.inr ⟨result, hmem, hmentions⟩)
    obtain ⟨p, hp⟩ := Option.isSome_iff_exists.mp hknown
    obtain ⟨first, rest, hlist⟩ := List.exists_cons_of_ne_nil (List.ne_nil_of_mem hmem)
    have hfirst : first ∈ a.resultList.head? := by
      rw [hlist]
      rfl
    have hbefore := (hconserved name p hp).mp (hall name p hp) first hfirst
    exact (Bool.or_eq_true_iff.mp hbefore).imp_right fun hnamed => ⟨first, hfirst, hnamed⟩
  · intro hearly name p hp
    refine (hconserved name p hp).mpr fun first hfirst => Bool.or_eq_true_iff.mpr ?_
    rcases (gathered h name).1.mp (by rw [hp]; rfl) with hknown | ⟨result, hresult, hmentions⟩
    · exact Or.inl hknown
    · have hlist := List.eq_cons_of_mem_head? hfirst
      rw [hlist] at hresult
      rcases List.mem_cons.mp hresult with rfl | hlater
      · exact Or.inr hmentions
      · refine (hearly result hlater name hmentions).imp_right ?_
        rintro ⟨first', hfirst', hnamed⟩
        rwa [Option.mem_unique hfirst' hfirst] at hnamed

end Analyser

/-- The text of some lines. -/
def textOf (lines : List String) : List Char := lines.flatMap fun line => line.toList ++ ['\n']

/-- Files with one document in the results. -/
def ScriptFiles.ofDocument (lines : List String) (run : ResultSet) (names : List ProtocolName)
    (listed : List ListedFlow) : ScriptFiles :=
  { text := fun _ => .ok (textOf lines)
    load := fun text => if text = textOf lines then .ok (some run) else .error .yamlError
    database := fun _ => .ok (some names)
    flows := fun _ => .ok listed }

namespace TwoResults

def lines : List String :=
  ["ProtocolDatabase:", "  FileName: db.yaml", "  CutoffLimit: 100", "  DefiningLimit: 25",
    "KLDivergenceThreshold: 0", "Results:",
    "- Protocol: DNS", "  Divergence: 1", "  Flow:", "    src: 10.0.0.1:1053",
    "    dst: 10.0.0.2:53", "    transport: 17", "    classified: true", "    pkt_count: 25",
    "- Protocol: RTP", "  Divergence: 1", "  Flow:", "    src: 10.0.0.1:1054",
    "    dst: 10.0.0.3:53", "    transport: 17", "    classified: true", "    pkt_count: 25"]

def results : List ClassifierResult :=
  [{ flow := ⟨"10.0.0.1:1053", "10.0.0.2:53", .number 17, true, 25⟩
     protocol := some (some "DNS"), divergence := some 1 },
   { flow := ⟨"10.0.0.1:1054", "10.0.0.3:53", .number 17, true, 25⟩
     protocol := some (some "RTP"), divergence := some 1 }]

/-- Both flows are expected to be DNS. -/
def listed : List ListedFlow :=
  [⟨"10.0.0.1", 1053, "10.0.0.2", 53, .text "UDP", some "DNS"⟩,
    ⟨"10.0.0.1", 1054, "10.0.0.3", 53, .text "UDP", some "DNS"⟩]

/-- The files, with some names in the database. -/
def files (names : List ProtocolName) : ScriptFiles :=
  .ofDocument lines
    { fileName := "db.yaml", definingLimit := 25, cutoffLimit := 100, klDivergenceThreshold := 0
      results := some results } names listed

def options : ScriptOptions :=
  { filename := some "results.yaml", flowsfile := some "flows.yaml", protocol := none
    database := none }

/-- What the script reads where the database has the other name. -/
theorem exists_bothKnown : ∃ a, analyseResults (files [some "RTP"]) options = .ok a ∧
    a.inputs (files [some "RTP"]) options =
      { results := results, names := [some "RTP"], listed := listed, default := none,
        definingLimit := 0 } := by
  have heval : (analyseResults (files [some "RTP"]) options).toOption.map
      (Analyser.inputs (files [some "RTP"]) options) =
        some { results := results, names := [some "RTP"], listed := listed, default := none,
               definingLimit := 0 } := by decide +kernel
  exact Fallible.exists_eq_ok heval

/-- Where the database has both names no result is missed. -/
theorem bothKnown_conserved : ∃ a, analyseResults (files [some "RTP"]) options = .ok a ∧
    ∀ name p, a.protocolResults name = some p →
      p.truePositive + p.falsePositive + p.trueNegative + p.falseNegative + p.notClassified =
        a.resultList.length := by
  obtain ⟨a, ha, hinputs⟩ := exists_bothKnown
  refine ⟨a, ha, (Analyser.conserved_iff ha).mpr ?_⟩
  rw [hinputs]
  intro result hresult name hmentions
  have hknown : ∀ result ∈ results.tail,
      result.expectedProtocol (.ofListed listed) none = some "DNS" ∧
        result.protocol = some (some "RTP") := by decide +kernel
  obtain ⟨hexpected, hprotocol⟩ := hknown result hresult
  refine Or.inl ?_
  rcases Bool.or_eq_true_iff.mp hmentions with hname | hname
  · rw [(beq_iff_eq.mp hname).trans hexpected]
    decide
  · rw [← Option.some_inj.mp (hprotocol.symm.trans (beq_iff_eq.mp hname))]
    decide

/-- A protocol that only the second result names misses the first one. -/
theorem rtp_misses : ∃ a, analyseResults (files []) options = .ok a ∧
    ¬ ∀ name p, a.protocolResults name = some p →
      p.truePositive + p.falsePositive + p.trueNegative + p.falseNegative + p.notClassified =
        a.resultList.length := by
  have heval : (analyseResults (files []) options).toOption.map
      (fun a => ((a.protocolResults (some "RTP")).map (·.total), a.resultList.length)) =
        some (some 1, 2) := by decide +kernel
  obtain ⟨a, ha, hcounts⟩ := Fallible.exists_eq_ok heval
  obtain ⟨htotal, hlength⟩ := Prod.mk.inj hcounts
  obtain ⟨p, hp, hone⟩ := Option.map_eq_some_iff.mp htotal
  refine ⟨a, ha, fun h => ?_⟩
  have htwo : p.total = a.resultList.length := h _ p hp
  rw [hone, hlength] at htwo
  cases htwo

end TwoResults

end Vsid
