import Vsid.Lib.Fallible
import Vsid.Tools.Analyser

/-!
# What a result is counted as

One round of the loop of `gather_results`, seen from one protocol: `gatherResult_eq_ok` says which
protocols are in the table afterwards and what has become of the counters of each of them.
`foldlM_gatherResult` is the whole loop.
-/

set_option autoImplicit false

namespace Vsid

namespace ProtocolResult

/-- All results that were counted. -/
def total (p : ProtocolResult) : Nat :=
  p.truePositive + p.falsePositive + p.trueNegative + p.falseNegative + p.notClassified

end ProtocolResult

namespace ProtocolTable

variable {t : ProtocolTable} {name k : ProtocolName} {skip : ProtocolName → Bool}
  {f : ProtocolResult → ProtocolResult}

@[simp] theorem modify_self : t.modify name f name = (t name).map f := if_pos rfl

theorem modify_of_ne (h : name ≠ k) : t.modify k f name = t name := if_neg h

theorem modifyUnless_of_skip (h : skip name = true) : t.modifyUnless skip f name = t name := if_pos h

theorem modifyUnless_of_not (h : skip name = false) :
    t.modifyUnless skip f name = (t name).map f := by
  unfold modifyUnless
  rw [h]
  rfl

end ProtocolTable

/-- What one result does to the counters of the protocol `name`, where `added` flows more are
expected of it. -/
structure Counted (result : ClassifierResult) (expected : ProtocolName) (limit : Nat)
    (name : ProtocolName) (added : Int) (p p' : ProtocolResult) : Prop where
  total : p'.total = p.total + 1
  notClassified : p'.notClassified =
    p.notClassified + if name = expected ∧ result.flow.classified = false then 1 else 0
  underDefiningLimit : p'.underDefiningLimit = p.underDefiningLimit +
    if name = expected ∧ result.flow.classified = false ∧ result.flow.pktCount < limit then 1 else 0
  expected : p'.expected = p.expected + added

namespace Counted

variable {result : ClassifierResult} {expected name : ProtocolName} {limit : Nat}
  {p p' : ProtocolResult}

/-- A classified flow moves one of four counters. -/
theorem of_classified (h : result.flow.classified = true) (htotal : p'.total = p.total + 1)
    (hnotClassified : p'.notClassified = p.notClassified)
    (hunder : p'.underDefiningLimit = p.underDefiningLimit) (hexpected : p'.expected = p.expected) :
    Counted result expected limit name 0 p p' := by
  have hnot : ¬ result.flow.classified = false := fun hf => Bool.false_ne_true (hf.symm.trans h)
  refine ⟨htotal, ?_, ?_, hexpected.trans (Int.add_zero _).symm⟩
  · rw [if_neg fun h => hnot h.2]
    exact hnotClassified
  · rw [if_neg fun h => hnot h.2.1]
    exact hunder

/-- One more true negative. -/
theorem trueNegative (h : result.flow.classified = true ∨ name ≠ expected) (p : ProtocolResult) :
    Counted result expected limit name 0 p p.increaseTrueNegative := by
  have hnot : ¬ (name = expected ∧ result.flow.classified = false) := by
    rintro ⟨hname, hclassified⟩
    rcases h with h | h
    · exact Bool.false_ne_true (hclassified.symm.trans h)
    · exact h hname
  refine ⟨?_, ?_, ?_, (Int.add_zero _).symm⟩
  · unfold ProtocolResult.total ProtocolResult.increaseTrueNegative
    simp only
    omega
  · rw [if_neg hnot]
    rfl
  · rw [if_neg fun h => hnot ⟨h.1, h.2.1⟩]
    rfl

/-- … after more flows were expected. -/
theorem of_expected {n : Int}
    (h : Counted result expected limit name 0 { p with expected := p.expected + n } p') :
    Counted result expected limit name n p p' :=
  ⟨h.total, h.notClassified, h.underDefiningLimit, h.expected.trans (Int.add_zero _)⟩

end Counted

namespace Analyser

open ProtocolTable

variable {t t' : ProtocolTable} {result : ClassifierResult} {expected name : ProtocolName}
  {limit : Nat}

theorem countUnclassified_apply (hclassified : result.flow.classified = false) :
    ∃ f, countUnclassified limit t result expected name = (t name).map f ∧
      ∀ p, Counted result expected limit name 0 p (f p) := by
  unfold countUnclassified
  by_cases hname : name = expected
  · subst hname
    rw [modifyUnless_of_skip (decide_eq_true rfl)]
    by_cases hlimit : result.flow.pktCount < limit
    · refine ⟨fun p => (p.increaseNotClassified.addPktCount result.flow.pktCount
        false).increaseUnderDefiningLimit, ?_, fun p => ⟨rfl, ?_, ?_, (Int.add_zero _).symm⟩⟩
      · simp only [hlimit, if_true, modify_self, Option.map_map]
        rfl
      · rw [if_pos ⟨rfl, hclassified⟩]
        rfl
      · rw [if_pos ⟨rfl, hclassified, hlimit⟩]
        rfl
    · refine ⟨fun p => p.increaseNotClassified.addPktCount result.flow.pktCount false, ?_,
        fun p => ⟨rfl, ?_, ?_, (Int.add_zero _).symm⟩⟩
      · simp only [hlimit, if_false, modify_self, Option.map_map]
        rfl
      · rw [if_pos ⟨rfl, hclassified⟩]
        rfl
      · rw [if_neg fun h => hlimit h.2.2]
        rfl
  · refine ⟨.increaseTrueNegative, ?_, fun p => .trueNegative (Or.inr hname) p⟩
    rw [modifyUnless_of_not (decide_eq_false hname)]
    split
    · rw [modify_of_ne hname, modify_of_ne hname, modify_of_ne hname]
    · rw [modify_of_ne hname, modify_of_ne hname]

theorem countClassified_apply (hclassified : result.flow.classified = true)
    (h : countClassified t result expected = .ok t') :
    ∃ f, t' name = (t name).map f ∧ ∀ p, Counted result expected limit name 0 p (f p) := by
  unfold countClassified at h
  split at h
  next => cases h
  next protocol _ =>
    split at h
    next heq =>
      subst heq
      split at h
      next => cases h
      next divergence _ =>
        cases h
        by_cases hname : name = protocol
        · subst hname
          refine ⟨fun p => (p.increaseTruePositive.addDivergence divergence).addPktCount
            result.flow.pktCount true, ?_, fun p => .of_classified hclassified ?_ rfl rfl rfl⟩
          · rw [modify_self, modify_self, modifyUnless_of_skip (decide_eq_true rfl), modify_self,
              Option.map_map, Option.map_map]
            rfl
          · change p.truePositive + 1 + p.falsePositive + p.trueNegative + p.falseNegative +
              p.notClassified = p.total + 1
            unfold ProtocolResult.total
            omega
        · refine ⟨.increaseTrueNegative, ?_, .trueNegative (Or.inl hclassified)⟩
          rw [modify_of_ne hname, modify_of_ne hname, modifyUnless_of_not (decide_eq_false hname),
            modify_of_ne hname]
    next hne =>
      cases h
      by_cases hname : name = expected
      · subst hname
        refine ⟨fun p => (p.increaseFalseNegative.addFalseNegativeProtocol protocol).addPktCount
          result.flow.pktCount false, ?_, fun p => .of_classified hclassified ?_ rfl rfl rfl⟩
        · have hother : name ≠ protocol := fun h => hne h.symm
          rw [modifyUnless_of_skip (decide_eq_true (Or.inl rfl)), modify_of_ne hother,
            modify_of_ne hother, modify_self, modify_self, modify_self, Option.map_map,
            Option.map_map]
          rfl
        · change p.truePositive + p.falsePositive + p.trueNegative + (p.falseNegative + 1) +
            p.notClassified = p.total + 1
          unfold ProtocolResult.total
          omega
      · by_cases hother : name = protocol
        · subst hother
          refine ⟨fun p => p.increaseFalsePositive.addFalsePositiveProtocol expected, ?_,
            fun p => .of_classified hclassified ?_ rfl rfl rfl⟩
          · rw [modifyUnless_of_skip (decide_eq_true (Or.inr rfl)), modify_self, modify_self,
              modify_of_ne hname, modify_of_ne hname, modify_of_ne hname, Option.map_map]
            rfl
          · change p.truePositive + (p.falsePositive + 1) + p.trueNegative + p.falseNegative +
              p.notClassified = p.total + 1
            unfold ProtocolResult.total
            omega
        · refine ⟨.increaseTrueNegative, ?_, .trueNegative (Or.inl hclassified)⟩
          rw [modifyUnless_of_not (decide_eq_false (not_or.mpr ⟨hname, hother⟩)),
            modify_of_ne hother, modify_of_ne hother, modify_of_ne hname, modify_of_ne hname,
            modify_of_ne hname]

end Analyser

/-! ## The expected protocol -/

namespace FlowTable

/-- `flows[key].l7protocol`. -/
def protocolOf (flows : FlowTable) (key : String) : Option ProtocolName :=
  (flows.lookup key).map (·.l7protocol)

/-- `flows[key].setSeen()`, if there is one. -/
def see (flows : FlowTable) (key : String) : FlowTable :=
  match flows.lookup key with
  | some flow => flows.insert key { flow with seen := true }
  | none => flows

theorem protocolOf_see (flows : FlowTable) (key key' : String) :
    (flows.see key).protocolOf key' = flows.protocolOf key' := by
  unfold see
  split
  next flow hflow =>
    unfold protocolOf
    by_cases h : key' = key
    · rw [h, AList.lookup_insert, hflow]
      rfl
    · rw [AList.lookup_insert_ne h]
  next => rfl

end FlowTable

namespace ClassifierResult

/-- The protocol of the flow in the list that the result is about. -/
def listedProtocol (flows : FlowTable) (result : ClassifierResult) : Option ProtocolName :=
  result.flow.dictRepr.toOption.bind flows.protocolOf

/-- The protocol that the result is compared with. -/
def expectedProtocol (flows : FlowTable) (default : ProtocolName) (result : ClassifierResult) :
    ProtocolName := (result.listedProtocol flows).getD default

/-- The result is counted for the default protocol. -/
def isExtra (flows : FlowTable) (default : ProtocolName) (result : ClassifierResult) : Bool :=
  (result.listedProtocol flows).isNone && default.isSome

/-- The protocols that the result puts into the table. -/
def mentions (flows : FlowTable) (default : ProtocolName) (result : ClassifierResult)
    (name : ProtocolName) : Bool :=
  name == result.expectedProtocol flows default || result.protocol == some name

end ClassifierResult

namespace Analyser

open ProtocolTable

variable {a a' : Analyser} {result : ClassifierResult} {key : String} {name : ProtocolName}

/-- The list of flows; without a list there are none in it. -/
def flowTable (a : Analyser) : FlowTable := a.flows.getD ∅

/-- The analyser with another table, and with a flow marked as seen. -/
def step (a : Analyser) (table : ProtocolTable) (key : String) : Analyser :=
  { a with protocolResults := table, flows := a.flows.map (·.see key) }

/-- How many flows more are expected of a protocol. -/
def added (a : Analyser) (listed : Option ProtocolName) (name : ProtocolName) : Int :=
  if (listed.isNone && a.defaultProtocol.isSome) = true ∧ name = a.defaultProtocol then 1 else 0

theorem bind_lookup (a : Analyser) (key : String) :
    a.flows.bind (·.lookup key) = a.flowTable.lookup key := by
  unfold flowTable
  cases a.flows with
  | none => rfl
  | some flows => rfl

/-- Nothing more is expected. -/
theorem map_added_zero {n : Int} (h : n = 0) (p : Option ProtocolResult) :
    p.map (fun p => { p with expected := p.expected + n }) = p := by
  subst h
  cases p with
  | none => rfl
  | some p => rw [Option.map_some, Int.add_zero]

theorem step_of_listed {flow : ExpectedFlow} (h : a.flowTable.lookup key = some flow) :
    { a with flows := a.flows.map (·.insert key { flow with seen := true }) } =
      a.step a.protocolResults key := by
  unfold step
  unfold flowTable at h
  cases hflows : a.flows with
  | none =>
    rw [hflows, Option.getD_none, AList.lookup_empty] at h
    cases h
  | some flows =>
    rw [hflows, Option.getD_some] at h
    rw [Option.map_some, Option.map_some, FlowTable.see, h]

theorem step_of_extra {t : ProtocolTable} (h : a.flowTable.lookup key = none) :
    { a with protocolResults := t } = a.step t key := by
  unfold step
  unfold flowTable at h
  cases hflows : a.flows with
  | none => rfl
  | some flows =>
    rw [hflows, Option.getD_some] at h
    rw [Option.map_some, FlowTable.see, h]

theorem expect_eq_ok {expected : ProtocolName} (h : a.expect key = .ok (expected, a')) :
    expected = (a.flowTable.protocolOf key).getD a.defaultProtocol ∧
      ∃ t, a' = a.step t key ∧
        ∀ name, t name = (a.protocolResults name).map
            (fun p => { p with
              expected := p.expected + a.added (a.flowTable.protocolOf key) name }) ∧
          (a.protocolResults name = none → a.added (a.flowTable.protocolOf key) name = 0) := by
  unfold expect at h
  rw [bind_lookup] at h
  unfold FlowTable.protocolOf
  split at h
  next flow hflow =>
    cases h
    rw [hflow]
    exact ⟨rfl, a.protocolResults, step_of_listed hflow,
      fun name => ⟨(map_added_zero rfl _).symm, fun _ => rfl⟩⟩
  next hflow =>
    rw [hflow]
    split at h
    next hdefault =>
      cases h
      have hzero : ∀ name, a.added none name = 0 := fun name => by
        unfold added
        rw [hdefault]
        rfl
      exact ⟨hdefault.symm, a.protocolResults, step_of_extra hflow,
        fun name => ⟨(map_added_zero (hzero name) _).symm, fun _ => hzero name⟩⟩
    next hdefault =>
      unfold update at h
      split at h
      next hknown =>
        cases h
        refine ⟨rfl, _, step_of_extra hflow, fun name => ?_⟩
        have hsome : a.defaultProtocol.isSome = true := Option.isSome_iff_ne_none.mpr hdefault
        unfold added
        rw [Option.map_none, Option.isNone_none, hsome]
        by_cases hname : name = a.defaultProtocol
        · rw [hname, modify_self, if_pos ⟨rfl, rfl⟩]
          refine ⟨rfl, fun hnone => ?_⟩
          rw [hnone] at hknown
          cases hknown
        · have hzero : ¬ ((true && true) = true ∧ name = a.defaultProtocol) := fun h => hname h.2
          rw [modify_of_ne hname, if_neg hzero]
          exact ⟨(map_added_zero rfl _).symm, fun _ => rfl⟩
      next => cases h

theorem addNamed_apply (t : ProtocolTable) (expected : ProtocolName) (result : ClassifierResult)
    (name : ProtocolName) :
    ((addNamed t result expected name).isSome = true ↔ (t name).isSome = true ∨
        (name == expected || result.protocol == some name) = true) ∧
      (addNamed t result expected name).getD (.init name) = (t name).getD (.init name) := by
  have hadd : ∀ (t : ProtocolTable) (k : ProtocolName),
      ((t.add k name).isSome = true ↔ (t name).isSome = true ∨ name = k) ∧
        (t.add k name).getD (.init name) = (t name).getD (.init name) := by
    intro t k
    unfold add
    by_cases hname : name = k
    · subst hname
      rw [if_pos rfl]
      exact ⟨iff_of_true rfl (Or.inr rfl), rfl⟩
    · rw [if_neg hname]
      exact ⟨(or_iff_left hname).symm, rfl⟩
  obtain ⟨hknown, hvalue⟩ := hadd t expected
  unfold addNamed
  rw [Bool.or_eq_true, beq_iff_eq, beq_iff_eq]
  cases result.protocol with
  | none => exact ⟨hknown.trans (or_congr_right (or_iff_left nofun).symm), hvalue⟩
  | some protocol =>
    obtain ⟨hknown', hvalue'⟩ := hadd (t.add expected) protocol
    rw [Option.some_inj, ← or_assoc, ← hknown, eq_comm (a := protocol)]
    exact ⟨hknown', hvalue'.trans hvalue⟩

/-- **One round of the loop**, seen from the protocol `name`. -/
theorem gatherResult_eq_ok (h : a.gatherResult result = .ok a') :
    ∃ key t, result.flow.dictRepr = .ok key ∧ a' = a.step t key ∧
      ∀ name,
        ((t name).isSome = true ↔ (a.protocolResults name).isSome = true ∨
          result.mentions a.flowTable a.defaultProtocol name = true) ∧
        ∀ p', t name = some p' →
          Counted result (result.expectedProtocol a.flowTable a.defaultProtocol) a.definingLimit name
            (a.added (result.listedProtocol a.flowTable) name)
            ((a.protocolResults name).getD (.init name)) p' := by
  unfold gatherResult at h
  obtain ⟨key, hkey, h⟩ := Fallible.bind_eq_ok.mp h
  obtain ⟨⟨expected, a₁⟩, hexpect, h⟩ := Fallible.bind_eq_ok.mp h
  obtain ⟨rfl, t₁, rfl, ht₁⟩ := expect_eq_ok hexpect
  have hlisted : result.listedProtocol a.flowTable = a.flowTable.protocolOf key := by
    unfold ClassifierResult.listedProtocol
    rw [hkey]
    rfl
  -- the counters are moved in the table that has the protocols of the result in it
  have hcount : ∃ t, a' = a.step t key ∧ ∀ name, ∃ f,
      t name =
        (addNamed t₁ result ((a.flowTable.protocolOf key).getD a.defaultProtocol) name).map f ∧
        ∀ p, Counted result ((a.flowTable.protocolOf key).getD a.defaultProtocol) a.definingLimit
          name 0 p (f p) := by
    simp only at h
    split at h
    next hclassified =>
      obtain ⟨t, ht, h⟩ := Fallible.bind_eq_ok.mp h
      cases h
      exact ⟨t, rfl, fun name => countClassified_apply hclassified ht⟩
    next hclassified =>
      cases h
      exact ⟨_, rfl, fun name => countUnclassified_apply (Bool.not_eq_true _ ▸ hclassified)⟩
  obtain ⟨t, rfl, ht⟩ := hcount
  refine ⟨key, t, hkey, rfl, fun name => ?_⟩
  obtain ⟨f, htable, hcounted⟩ := ht name
  obtain ⟨hknown, hvalue⟩ := addNamed_apply t₁
    ((a.flowTable.protocolOf key).getD a.defaultProtocol) result name
  have hmentions : result.mentions a.flowTable a.defaultProtocol name =
      (name == (a.flowTable.protocolOf key).getD a.defaultProtocol ||
        result.protocol == some name) := by
    unfold ClassifierResult.mentions ClassifierResult.expectedProtocol
    rw [hlisted]
  obtain ⟨htable₁, hzero⟩ := ht₁ name
  rw [htable, Option.isSome_map, hknown, htable₁, Option.isSome_map, hmentions]
  refine ⟨Iff.rfl, fun p' hp' => ?_⟩
  obtain ⟨p, hp, rfl⟩ := Option.map_eq_some_iff.mp hp'
  rw [hp, Option.getD_some, htable₁] at hvalue
  rw [ClassifierResult.expectedProtocol, hlisted]
  refine .of_expected ?_
  convert hcounted p using 1
  rw [hvalue]
  cases hbefore : a.protocolResults name with
  | none =>
    rw [hzero hbefore]
    rfl
  | some p => rfl

end Analyser

/-! ## All results -/

namespace ClassifierResult

variable (flows : FlowTable) (default : ProtocolName) (name : ProtocolName)

/-- The flow is one of the protocol `name`, and was not classified. -/
def isUnclassified (result : ClassifierResult) : Bool :=
  name == result.expectedProtocol flows default && !result.flow.classified

/-- … because it has fewer packets than the limit. -/
def isBelow (limit : Nat) (result : ClassifierResult) : Bool :=
  result.isUnclassified flows default name && decide (result.flow.pktCount < limit)

/-- The flow is one of `name` because that is the default. -/
def isExtraOf (result : ClassifierResult) : Bool := result.isExtra flows default && name == default

section See

variable (key : String) (result : ClassifierResult)

/-! None of this depends on which flows were seen. -/

@[simp] theorem listedProtocol_see :
    result.listedProtocol (flows.see key) = result.listedProtocol flows := by
  unfold listedProtocol
  rw [show (flows.see key).protocolOf = flows.protocolOf from
    funext fun key' => flows.protocolOf_see key key']

@[simp] theorem expectedProtocol_see :
    result.expectedProtocol (flows.see key) default = result.expectedProtocol flows default := by
  rw [expectedProtocol, listedProtocol_see]
  rfl

@[simp] theorem mentions_see :
    result.mentions (flows.see key) default name = result.mentions flows default name := by
  rw [mentions, expectedProtocol_see]
  rfl

@[simp] theorem isUnclassified_see : result.isUnclassified (flows.see key) default name =
    result.isUnclassified flows default name := by
  rw [isUnclassified, expectedProtocol_see]
  rfl

@[simp] theorem isBelow_see (limit : Nat) : result.isBelow (flows.see key) default name limit =
    result.isBelow flows default name limit := by
  rw [isBelow, isUnclassified_see]
  rfl

@[simp] theorem isExtraOf_see :
    result.isExtraOf (flows.see key) default name = result.isExtraOf flows default name := by
  rw [isExtraOf, isExtra, listedProtocol_see]
  rfl

end See

variable {flows : FlowTable} {default name : ProtocolName} {result : ClassifierResult}

/-- What is counted for a protocol mentions it. -/
theorem counts_of_not_mentions (h : result.mentions flows default name = false) (limit : Nat) :
    result.isUnclassified flows default name = false ∧
      result.isBelow flows default name limit = false ∧
      result.isExtraOf flows default name = false := by
  have hexpected : (name == result.expectedProtocol flows default) = false :=
    (Bool.or_eq_false_iff.mp h).1
  have hunclassified : result.isUnclassified flows default name = false := by
    unfold isUnclassified
    rw [hexpected, Bool.false_and]
  refine ⟨hunclassified, ?_, ?_⟩
  · unfold isBelow
    rw [hunclassified, Bool.false_and]
  · unfold isExtraOf isExtra
    unfold expectedProtocol at hexpected
    cases hlisted : result.listedProtocol flows with
    | some protocol => rfl
    | none =>
      rw [hlisted, Option.getD_none] at hexpected
      rw [hexpected, Bool.and_false]

end ClassifierResult

/-- What some results do to the counters of the protocol `name`. It counts from the first result on
that puts it into the table, unless it is known before. -/
structure Tallied (flows : FlowTable) (default : ProtocolName) (limit : Nat)
    (results : List ClassifierResult) (name : ProtocolName) (known : Bool) (p p' : ProtocolResult) :
    Prop where
  total : p'.total = p.total +
    (results.dropWhile fun result => !(known || result.mentions flows default name)).length
  notClassified : p'.notClassified =
    p.notClassified + results.countP (·.isUnclassified flows default name)
  underDefiningLimit : p'.underDefiningLimit =
    p.underDefiningLimit + results.countP (·.isBelow flows default name limit)
  expected : p'.expected = p.expected + (results.countP (·.isExtraOf flows default name) : Nat)

namespace Tallied

variable {flows : FlowTable} {default name : ProtocolName} {limit : Nat}
  {results : List ClassifierResult} {result : ClassifierResult} {known : Bool}
  {p p' p'' : ProtocolResult}

/-- A result that does not name an unknown protocol leaves it alone. -/
theorem cons_of_not (hnot : result.mentions flows default name = false)
    (h : Tallied flows default limit results name false p p') :
    Tallied flows default limit (result :: results) name false p p' := by
  obtain ⟨hunclassified, hbelow, hextra⟩ := ClassifierResult.counts_of_not_mentions hnot limit
  refine ⟨?_, ?_, ?_, ?_⟩
  · rw [List.dropWhile_cons_of_pos (by rw [hnot]; rfl)]
    exact h.total
  · rw [List.countP_cons_of_neg (Bool.eq_false_iff.mp hunclassified)]
    exact h.notClassified
  · rw [List.countP_cons_of_neg (Bool.eq_false_iff.mp hbelow)]
    exact h.underDefiningLimit
  · rw [List.countP_cons_of_neg (Bool.eq_false_iff.mp hextra)]
    exact h.expected

/-- Any other one moves its counters. -/
theorem cons (hknown : (known || result.mentions flows default name) = true)
    (hstep : Counted result (result.expectedProtocol flows default) limit name
      (if result.isExtraOf flows default name then 1 else 0) p p')
    (h : Tallied flows default limit results name true p' p'') :
    Tallied flows default limit (result :: results) name known p p'' := by
  have hall : results.dropWhile (fun result => !(true || result.mentions flows default name)) =
      results := by
    cases results with
    | nil => rfl
    | cons result results => exact List.dropWhile_cons_of_neg Bool.false_ne_true
  refine ⟨?_, ?_, ?_, ?_⟩
  · have htotal := h.total
    rw [hall, hstep.total] at htotal
    rw [List.dropWhile_cons_of_neg (by rw [hknown]; exact Bool.false_ne_true), htotal,
      List.length_cons]
    omega
  · rw [h.notClassified, hstep.notClassified, List.countP_cons]
    simp only [ClassifierResult.isUnclassified, Bool.and_eq_true, beq_iff_eq, Bool.not_eq_true']
    omega
  · rw [h.underDefiningLimit, hstep.underDefiningLimit, List.countP_cons]
    simp only [ClassifierResult.isBelow, ClassifierResult.isUnclassified, Bool.and_eq_true,
      beq_iff_eq, Bool.not_eq_true', decide_eq_true_eq, and_assoc]
    omega
  · rw [h.expected, hstep.expected, List.countP_cons]
    cases result.isExtraOf flows default name with
    | false =>
      simp only [Bool.false_eq_true, if_false]
      omega
    | true =>
      simp only [if_true]
      omega

theorem of_see {key : String} (h : Tallied (flows.see key) default limit results name known p p') :
    Tallied flows default limit results name known p p' := by
  obtain ⟨htotal, hnotClassified, hbelow, hexpected⟩ := h
  simp only [ClassifierResult.mentions_see] at htotal
  simp only [ClassifierResult.isUnclassified_see] at hnotClassified
  simp only [ClassifierResult.isBelow_see] at hbelow
  simp only [ClassifierResult.isExtraOf_see] at hexpected
  exact ⟨htotal, hnotClassified, hbelow, hexpected⟩

end Tallied

namespace Analyser

variable {a a' : Analyser} {name : ProtocolName}

/-- The analyser with another table, and with some flows marked as seen. -/
def steps (a : Analyser) (table : ProtocolTable) (keys : List String) : Analyser :=
  { a with
    protocolResults := table
    flows := a.flows.map fun flows => keys.foldl FlowTable.see flows }

theorem flowTable_step (a : Analyser) (t : ProtocolTable) (key : String) :
    (a.step t key).flowTable = a.flowTable.see key := by
  unfold flowTable step
  cases a.flows with
  | none => rfl
  | some flows => rfl

theorem steps_step (a : Analyser) (t t' : ProtocolTable) (key : String) (keys : List String) :
    (a.step t key).steps t' keys = a.steps t' (key :: keys) := by
  unfold steps step
  cases a.flows with
  | none => rfl
  | some flows => rfl

theorem added_eq (a : Analyser) (result : ClassifierResult) (name : ProtocolName) :
    a.added (result.listedProtocol a.flowTable) name =
      if result.isExtraOf a.flowTable a.defaultProtocol name then 1 else 0 := by
  unfold added ClassifierResult.isExtraOf ClassifierResult.isExtra
  simp only [Bool.and_eq_true, beq_iff_eq]

/-- **The whole loop**, seen from the protocol `name`. -/
theorem foldlM_gatherResult {results : List ClassifierResult}
    (h : results.foldlM gatherResult a = .ok a') :
    ∃ keys t, results.map (·.flow.dictRepr) = keys.map Except.ok ∧ a' = a.steps t keys ∧
      ∀ name,
        ((t name).isSome = true ↔ (a.protocolResults name).isSome = true ∨
          ∃ result ∈ results, result.mentions a.flowTable a.defaultProtocol name = true) ∧
        ∀ p', t name = some p' →
          Tallied a.flowTable a.defaultProtocol a.definingLimit results name
            (a.protocolResults name).isSome ((a.protocolResults name).getD (.init name)) p' := by
  induction results generalizing a with
  | nil =>
    obtain rfl : a = a' := Except.ok.inj h
    refine ⟨[], a.protocolResults, rfl, ?_, fun name => ⟨?_, fun p' hp' => ?_⟩⟩
    · unfold steps
      cases hflows : a.flows with
      | none => rw [Option.map_none, ← hflows]
      | some flows => rw [Option.map_some, List.foldl_nil, ← hflows]
    · exact (or_iff_left fun ⟨_, hmem, _⟩ => List.not_mem_nil hmem).symm
    · rw [hp', Option.getD_some]
      exact ⟨rfl, rfl, rfl, (Int.add_zero _).symm⟩
  | cons result results ih =>
    obtain ⟨a₁, hstep, hrest⟩ := Fallible.foldlM_cons_eq_ok h
    obtain ⟨key, t₁, hkey, rfl, ht₁⟩ := gatherResult_eq_ok hstep
    obtain ⟨keys, t, hkeys, rfl, ht⟩ := ih hrest
    refine ⟨key :: keys, t, ?_, steps_step a t₁ t key keys, fun name => ?_⟩
    · rw [List.map_cons, List.map_cons, hkey, hkeys]
    · obtain ⟨hknown₁, hcounted⟩ := ht₁ name
      obtain ⟨hknown, htallied⟩ := ht name
      rw [flowTable_step] at hknown htallied
      simp only [ClassifierResult.mentions_see] at hknown
      refine ⟨?_, fun p' hp' => ?_⟩
      · rw [List.exists_mem_cons_iff, ← or_assoc, ← hknown₁]
        exact hknown
      · have hrest := (htallied p' hp').of_see
        change Tallied a.flowTable a.defaultProtocol a.definingLimit results name (t₁ name).isSome
          ((t₁ name).getD (.init name)) p' at hrest
        cases hname : t₁ name with
        | none =>
          rw [hname] at hknown₁ hrest
          obtain ⟨hbefore, hnot⟩ := not_or.mp (hknown₁.not.mp Bool.false_ne_true)
          rw [Bool.not_eq_true, Option.isSome_eq_false_iff, Option.isNone_iff_eq_none] at hbefore
          rw [hbefore]
          exact hrest.cons_of_not (Bool.eq_false_iff.mpr hnot)
        | some p₁ =>
          rw [hname] at hknown₁ hrest
          have hcounted := hcounted p₁ hname
          rw [added_eq] at hcounted
          exact .cons (Bool.or_eq_true_iff.mpr (hknown₁.mp rfl)) hcounted hrest

end Analyser

end Vsid
