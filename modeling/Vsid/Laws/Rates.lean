import Mathlib.Tactic.FieldSimp
import Mathlib.Tactic.Linarith
import Mathlib.Tactic.Positivity
import Vsid.Laws.ConfusionMatrix

/-!
# The rates of the analysis

Recall, precision and F-measure are shares of counters, and are percentages always. The rate of the
unclassified flows and of those under the limit divide counts of results by the number of expected
flows, of which there is one a five-tuple however many results are about it. So these two are
percentages exactly when a protocol has no more results than flows, in the sense of `Accounted`
(`percentages_iff`).
-/

set_option autoImplicit false

namespace Vsid

/-- Between 0 and 100. -/
def IsPercentage (x : ℚ) : Prop := 0 ≤ x ∧ x ≤ 100

namespace Rates

/-- All figures of a protocol. -/
def values (r : Rates) : List ℚ :=
  [r.all.recallRate, r.all.precision, r.all.fmeasure, r.incNotClassified.recallRate,
    r.incNotClassified.precision, r.incNotClassified.fmeasure, r.unclassified, r.underLimit]

end Rates

namespace ProtocolResult

variable {p : ProtocolResult}

theorem share_eq_ok {hits misses : Int} (hhits : 0 ≤ hits) (hmisses : 0 ≤ misses) :
    ∃ x, share hits misses = .ok x ∧ 0 ≤ x ∧ x ≤ 1 := by
  unfold share
  split
  · exact ⟨0, rfl, le_refl 0, zero_le_one⟩
  next hzero =>
    have hpos : 0 < hits + misses := by omega
    have hpos' : (0 : ℚ) < ((hits + misses : Int) : ℚ) := Int.cast_pos.mpr hpos
    refine ⟨_, if_neg hpos'.ne', div_nonneg (Int.cast_nonneg hhits) hpos'.le, ?_⟩
    rw [div_le_one hpos', Int.cast_le]
    omega

theorem harmonic_eq_ok {precision recallRate : ℚ} (hprecision : 0 ≤ precision ∧ precision ≤ 1)
    (hrecall : 0 ≤ recallRate ∧ recallRate ≤ 1) :
    ∃ x, harmonic precision recallRate = .ok x ∧ 0 ≤ x ∧ x ≤ 1 := by
  obtain ⟨hp₀, hp₁⟩ := hprecision
  obtain ⟨hr₀, hr₁⟩ := hrecall
  unfold harmonic
  split
  · exact ⟨0, rfl, le_refl 0, zero_le_one⟩
  next hzero =>
    have hpos : 0 < precision + recallRate := by
      refine lt_of_le_of_ne (add_nonneg hp₀ hr₀) fun hsum => hzero ?_
      constructor <;> linarith
    refine ⟨_, if_neg hpos.ne', div_nonneg (by positivity) hpos.le, ?_⟩
    rw [div_le_one hpos]
    -- each of the two shares bounds the product
    have h₁ : precision * recallRate ≤ precision := mul_le_of_le_one_right hp₀ hr₁
    have h₂ : precision * recallRate ≤ recallRate := mul_le_of_le_one_left hr₀ hp₁
    linarith

theorem isPercentage_mul {x : ℚ} (h : 0 ≤ x ∧ x ≤ 1) : IsPercentage (x * 100) :=
  ⟨by linarith [h.1], by linarith [h.2]⟩

theorem analyse_eq_ok {falseNegative : Int} (h : 0 ≤ falseNegative) :
    ∃ r, p.analyse falseNegative = .ok r ∧ IsPercentage r.recallRate ∧ IsPercentage r.precision ∧
      IsPercentage r.fmeasure := by
  obtain ⟨recallRate, hrecall, hrecall'⟩ := share_eq_ok (Int.natCast_nonneg p.truePositive) h
  obtain ⟨precision, hprecision, hprecision'⟩ :=
    share_eq_ok (Int.natCast_nonneg p.truePositive) (Int.natCast_nonneg p.falsePositive)
  obtain ⟨fmeasure, hfmeasure, hfmeasure'⟩ := harmonic_eq_ok hprecision' hrecall'
  refine ⟨⟨recallRate * 100, precision * 100, fmeasure * 100⟩, ?_,
    isPercentage_mul hrecall', isPercentage_mul hprecision', isPercentage_mul hfmeasure'⟩
  unfold analyse
  rw [hrecall, Fallible.ok_bind, hprecision, Fallible.ok_bind, hfmeasure]
  rfl

/-- A part in percent is a percentage when it is a part. -/
theorem percentOf_eq_ok {part : Int} (hpart : 0 ≤ part) (whole : Int) :
    ∃ x, percentOf part whole = .ok x ∧
      (IsPercentage x ↔ whole = 0 ∨ part = 0 ∨ part ≤ whole) := by
  unfold percentOf
  by_cases hzero : whole = 0
  · rw [if_neg (not_not.mpr hzero)]
    exact ⟨0, rfl, iff_of_true ⟨le_refl 0, by norm_num⟩ (Or.inl hzero)⟩
  · have hne : (whole : ℚ) ≠ 0 := Int.cast_ne_zero.mpr hzero
    rw [if_pos hzero]
    refine ⟨(part : ℚ) / (whole : ℚ) * 100, ?_, ?_⟩
    · rw [divide, if_neg hne]
      rfl
    · rw [or_iff_right hzero]
      have hpart' : (0 : ℚ) ≤ (part : ℚ) := Int.cast_nonneg hpart
      constructor
      · rintro ⟨hnonneg, hle⟩
        by_contra hnot
        obtain ⟨hne₀, hlt⟩ := not_or.mp hnot
        have hpos : (0 : ℚ) < (part : ℚ) := Int.cast_pos.mpr (by omega)
        rcases lt_or_gt_of_ne hzero with hneg | hwhole
        · have hlt' := div_neg_of_pos_of_neg hpos (Int.cast_lt_zero.mpr hneg)
          linarith
        · have hwhole' : (0 : ℚ) < (whole : ℚ) := Int.cast_pos.mpr hwhole
          have hone : 1 < (part : ℚ) / (whole : ℚ) := by
            rw [one_lt_div hwhole', Int.cast_lt]
            omega
          linarith
      · rintro (rfl | hle)
        · rw [Int.cast_zero, zero_div, zero_mul]
          exact ⟨le_refl 0, by norm_num⟩
        · have hwhole : (0 : ℚ) < (whole : ℚ) := Int.cast_pos.mpr (by omega)
          refine isPercentage_mul ⟨div_nonneg hpart' hwhole.le, ?_⟩
          rw [div_le_one hwhole, Int.cast_le]
          exact hle

/-- **No rate divides by zero, and all of them are percentages exactly if the last two are.** -/
theorem rates_eq_ok (h : p.underDefiningLimit ≤ p.notClassified) :
    ∃ r, p.rates = .ok r ∧ ((∀ x ∈ r.values, IsPercentage x) ↔
      (p.expected = p.underDefiningLimit ∨ p.notClassified = p.underDefiningLimit ∨
        (p.notClassified : Int) ≤ p.expected) ∧
      (p.expected = 0 ∨ p.underDefiningLimit = 0 ∨ (p.underDefiningLimit : Int) ≤ p.expected)) := by
  have hnc : (0 : Int) ≤ p.notClassified - p.underDefiningLimit := by omega
  obtain ⟨all, hall, hrecall, hprecision, hfmeasure⟩ :=
    analyse_eq_ok (p := p) (Int.natCast_nonneg p.falseNegative)
  obtain ⟨inc, hinc, hrecall', hprecision', hfmeasure'⟩ :=
    analyse_eq_ok (p := p) (add_nonneg (Int.natCast_nonneg p.falseNegative) hnc)
  obtain ⟨unclassified, hunclassified, hunclassified'⟩ :=
    percentOf_eq_ok hnc (p.expected - p.underDefiningLimit)
  obtain ⟨underLimit, hunderLimit, hunderLimit'⟩ :=
    percentOf_eq_ok (Int.natCast_nonneg p.underDefiningLimit) p.expected
  refine ⟨⟨all, inc, unclassified, underLimit⟩, ?_, ?_⟩
  · unfold rates calculateAnalysis calculateAnalysisIncNotClassified calculateNotClassified
    simp only [hall, hinc, hunclassified, hunderLimit, Fallible.ok_bind, Fallible.pure_eq_ok]
  · have hlast : (∀ x ∈ (Rates.mk all inc unclassified underLimit).values, IsPercentage x) ↔
        IsPercentage unclassified ∧ IsPercentage underLimit := by
      unfold Rates.values
      simp only [List.forall_mem_cons, List.not_mem_nil, IsEmpty.forall_iff, implies_true, and_true,
        hrecall, hprecision, hfmeasure, hrecall', hprecision', hfmeasure', true_and]
    rw [hlast, hunclassified', hunderLimit']
    refine and_congr ?_ ?_
    · omega
    · omega

end ProtocolResult

/-! ## Expected flows -/

namespace FlowTable

/-- A flow of the list is one more of its protocol at most. -/
theorem countP_list_le (flows : FlowTable) (flow : ListedFlow) (name : ProtocolName) :
    (flows.list flow).entries.countP (fun entry => entry.2.l7protocol == name) ≤
      flows.entries.countP (fun entry => entry.2.l7protocol == name) +
        if flow.protocol == name then 1 else 0 := by
  unfold list
  rw [AList.entries_insert, List.countP_cons]
  exact Nat.add_le_add_right (List.kerase_sublist _ _).countP_le _

theorem countP_ofListed_le (listed : List ListedFlow) (name : ProtocolName) :
    (ofListed listed).entries.countP (fun entry => entry.2.l7protocol == name) ≤
      listed.countP (·.protocol == name) := by
  have hfold : ∀ flows : FlowTable,
      (listed.foldl list flows).entries.countP (fun entry => entry.2.l7protocol == name) ≤
        flows.entries.countP (fun entry => entry.2.l7protocol == name) +
          listed.countP (·.protocol == name) := by
    induction listed with
    | nil => exact fun flows => le_refl _
    | cons flow listed ih =>
      intro flows
      have hrest := ih (flows.list flow)
      have hfirst := countP_list_le flows flow name
      rw [List.foldl_cons, List.countP_cons]
      omega
  exact (hfold ∅).trans_eq (Nat.zero_add _)

end FlowTable

namespace ScriptInputs

variable (i : ScriptInputs) (name : ProtocolName)

/-- A flow that was not seen is in the list. -/
theorem unseen_le : i.unseen name ≤ i.listed.countP (·.protocol == name) := by
  refine le_trans ?_ (FlowTable.countP_ofListed_le i.listed name)
  rw [FlowTable.countP_entries _ fun flow => flow.l7protocol == name]
  refine List.countP_mono_left fun key _ hkey => ?_
  obtain ⟨hprotocol, -⟩ := Bool.and_eq_true_iff.mp hkey
  unfold flows FlowTable.protocolOf at hprotocol
  cases hflow : (FlowTable.ofListed i.listed).lookup key with
  | none =>
    rw [hflow] at hprotocol
    cases hprotocol
  | some flow =>
    rw [hflow] at hprotocol
    exact hprotocol

theorem expected_nonneg : 0 ≤ i.expected name := by
  have hunseen := i.unseen_le name
  unfold expected
  omega

theorem below_le : i.below name ≤ i.unclassified name :=
  List.countP_mono_left fun _ _ h => (Bool.and_eq_true_iff.mp h).1

/-- The results do not outnumber the expected flows: neither those under the limit nor, unless all
of either are under the limit, the unclassified ones. -/
def Accounted : Prop :=
  (i.expected name = i.below name ∨ i.unclassified name = i.below name ∨
    (i.unclassified name : Int) ≤ i.expected name) ∧
  (i.expected name = 0 ∨ (i.below name : Int) ≤ i.expected name)

/-- Where every result is classified there is nothing to account for. -/
theorem accounted_of_unclassified_eq_zero {i : ScriptInputs} {name : ProtocolName}
    (h : i.unclassified name = 0) : i.Accounted name := by
  have hbelow : i.below name = 0 := Nat.eq_zero_of_le_zero ((i.below_le name).trans_eq h)
  refine ⟨Or.inr (Or.inl (h.trans hbelow.symm)), Or.inr ?_⟩
  rw [hbelow]
  exact i.expected_nonneg name

theorem unclassified_eq_zero {i : ScriptInputs} {name : ProtocolName}
    (h : ∀ result ∈ i.results, result.isUnclassified i.flows i.default name = false) :
    i.unclassified name = 0 :=
  List.countP_eq_zero.mpr fun result hresult => Bool.eq_false_iff.mp (h result hresult)

end ScriptInputs

namespace Analyser

variable {a : Analyser} {files : ScriptFiles} {options : ScriptOptions}

/-- **No rate divides by zero, and all rates are percentages exactly if no protocol has more results
than flows.** -/
theorem percentages_iff (h : analyseResults files options = .ok a) :
    (∀ name p, a.protocolResults name = some p → ∃ r, p.rates = .ok r) ∧
      ((∀ name p r, a.protocolResults name = some p → p.rates = .ok r →
        ∀ x ∈ r.values, 0 ≤ x ∧ x ≤ 100) ↔ ∀ name, (a.inputs files options).Accounted name) := by
  have hrates : ∀ name p, a.protocolResults name = some p →
      ∃ r, p.rates = .ok r ∧ ((∀ x ∈ r.values, IsPercentage x) ↔
        (a.inputs files options).Accounted name) := by
    intro name p hp
    obtain ⟨-, hnotClassified, hunder, hexpected⟩ := (gathered h name).2 p hp
    have hle := (a.inputs files options).below_le name
    obtain ⟨r, hr, hiff⟩ := p.rates_eq_ok (by omega)
    refine ⟨r, hr, hiff.trans ?_⟩
    rw [hnotClassified, hunder, hexpected]
    have hnonneg := (a.inputs files options).expected_nonneg name
    unfold ScriptInputs.Accounted
    refine and_congr_right' ?_
    omega
  refine ⟨fun name p hp => (hrates name p hp).imp fun r hr => hr.1, fun hall name => ?_,
    fun haccounted name p r hp hr => ?_⟩
  · cases hname : a.protocolResults name with
    | none =>
      have hnot := (gathered h name).1.not.mp (by rw [hname]; exact Bool.false_ne_true)
      refine ScriptInputs.accounted_of_unclassified_eq_zero <|
        ScriptInputs.unclassified_eq_zero fun result hresult => ?_
      refine (ClassifierResult.counts_of_not_mentions ?_ 0).1
      exact Bool.eq_false_iff.mpr fun hmentions => hnot (Or.inr ⟨result, hresult, hmentions⟩)
    | some p =>
      obtain ⟨r, hr, hiff⟩ := hrates name p hname
      exact hiff.mp (hall name p r hname hr)
  · obtain ⟨r', hr', hiff⟩ := hrates name p hp
    cases hr.symm.trans hr'
    exact hiff.mpr (haccounted name)

end Analyser

/-! ## Examples -/

namespace TwoRuns

def header : List String :=
  ["", "ProtocolDatabase:", "  FileName: db.yaml", "  CutoffLimit: 100", "  DefiningLimit: 25",
    "KLDivergenceThreshold: 0", "Results:"]

def firstLines : List String :=
  header ++
    ["- Protocol: DNS", "  Divergence: 1", "  Flow:", "    src: 10.0.0.1:1053",
      "    dst: 10.0.0.2:53", "    transport: 17", "    classified: true", "    pkt_count: 25"]

def laterLines : List String :=
  header ++
    ["- Flow:", "    src: 10.0.0.1:1054", "    dst: 10.0.0.3:53", "    transport: 17",
      "    classified: false", "    pkt_count: 30",
      "- Flow:", "    src: 10.0.0.1:1055", "    dst: 10.0.0.3:53", "    transport: 17",
      "    classified: false", "    pkt_count: 10"]

/-- A flow of the second run. -/
def unknown (src : String) (pktCount : Nat) : ClassifierResult :=
  { flow := ⟨src, "10.0.0.3:53", .number 17, false, pktCount⟩, protocol := none
    divergence := none }

def firstRun : ResultSet :=
  { fileName := "db.yaml", definingLimit := 25, cutoffLimit := 100, klDivergenceThreshold := 0
    results := some
      [{ flow := ⟨"10.0.0.1:1053", "10.0.0.2:53", .number 17, true, 25⟩
         protocol := some (some "DNS"), divergence := some 1 }] }

def laterRun : ResultSet :=
  { firstRun with
    results := some [unknown "10.0.0.1:1054" 30, unknown "10.0.0.1:1055" 10] }

/-- Three flows that are expected to be DNS: one of the first run is classified, and of the two of
the second run that are not one has too few packets. -/
def files : ScriptFiles :=
  { text := fun _ => .ok
      (Analyser.runSeparator ++ textOf firstLines ++ Analyser.runSeparator ++ textOf laterLines)
    load := fun text =>
      if text = textOf firstLines then .ok (some firstRun)
      else if text = textOf laterLines then .ok (some laterRun)
      else .error .yamlError
    database := fun _ => .ok (some [some "DNS"])
    flows := fun _ => .ok
      [⟨"10.0.0.1", 1053, "10.0.0.2", 53, .text "UDP", some "DNS"⟩,
        ⟨"10.0.0.1", 1054, "10.0.0.3", 53, .text "UDP", some "DNS"⟩,
        ⟨"10.0.0.1", 1055, "10.0.0.3", 53, .text "UDP", some "DNS"⟩] }

/-- What the script reads. -/
def inputs : ScriptInputs :=
  { results := firstRun.results.getD [] ++ laterRun.results.getD [], names := [some "DNS"]
    listed :=
      [⟨"10.0.0.1", 1053, "10.0.0.2", 53, .text "UDP", some "DNS"⟩,
        ⟨"10.0.0.1", 1054, "10.0.0.3", 53, .text "UDP", some "DNS"⟩,
        ⟨"10.0.0.1", 1055, "10.0.0.3", 53, .text "UDP", some "DNS"⟩]
    default := none, definingLimit := 25 }

/-- One of three is under the limit, and one of the two others is not classified. -/
theorem laterRun_percentages : ∃ a, analyseResults files TwoResults.options = .ok a ∧
    (∃ p r, a.protocolResults (some "DNS") = some p ∧ p.rates = .ok r ∧ r.unclassified = 50 ∧
      r.underLimit = 100 / 3) ∧
    ∀ name p r, a.protocolResults name = some p → p.rates = .ok r →
      ∀ x ∈ r.values, 0 ≤ x ∧ x ≤ 100 := by
  have heval : (analyseResults files TwoResults.options).toOption.map
      (fun a => (a.inputs files TwoResults.options,
        (a.protocolResults (some "DNS")).bind fun p =>
          p.rates.toOption.map fun r => (r.unclassified, r.underLimit))) =
        some (inputs, some (50, 100 / 3)) := by decide +kernel
  obtain ⟨a, ha, hresult⟩ := Fallible.exists_eq_ok heval
  obtain ⟨hinputs, hrates⟩ := Prod.mk.inj hresult
  obtain ⟨p, hp, hrates⟩ := Option.bind_eq_some_iff.mp hrates
  obtain ⟨r, hr, hrates⟩ := Fallible.exists_eq_ok hrates
  obtain ⟨hunclassified, hunderLimit⟩ := Prod.mk.inj hrates
  refine ⟨a, ha, ⟨p, r, hp, hr, hunclassified, hunderLimit⟩,
    (Analyser.percentages_iff ha).2.mpr fun name => ?_⟩
  rw [hinputs]
  by_cases hname : name = some "DNS"
  · rw [hname]
    unfold ScriptInputs.Accounted
    decide +kernel
  · -- no result is about another protocol
    have hexpected : ∀ result ∈ inputs.results,
        result.expectedProtocol inputs.flows inputs.default = some "DNS" := by decide +kernel
    refine ScriptInputs.accounted_of_unclassified_eq_zero <|
      ScriptInputs.unclassified_eq_zero fun result hresult => ?_
    unfold ClassifierResult.isUnclassified
    rw [hexpected result hresult, beq_eq_false_iff_ne.mpr hname, Bool.false_and]

end TwoRuns

namespace RepeatedFlow

def lines : List String :=
  ["ProtocolDatabase:", "  FileName: db.yaml", "  CutoffLimit: 100", "  DefiningLimit: 25",
    "KLDivergenceThreshold: 0", "Results:",
    "- Flow:", "    src: 10.0.0.1:1053", "    dst: 10.0.0.2:53", "    transport: 17",
    "    classified: false", "    pkt_count: 30",
    "- Flow:", "    src: 10.0.0.1:1053", "    dst: 10.0.0.2:53", "    transport: 17",
    "    classified: false", "    pkt_count: 30"]

/-- A flow that was not classified. -/
def result : ClassifierResult :=
  { flow := ⟨"10.0.0.1:1053", "10.0.0.2:53", .number 17, false, 30⟩
    protocol := none, divergence := none }

/-- The flow came twice, and is in the list once. -/
def files : ScriptFiles :=
  .ofDocument lines
    { fileName := "db.yaml", definingLimit := 25, cutoffLimit := 100, klDivergenceThreshold := 0
      results := some [result, result] }
    [some "DNS"] [⟨"10.0.0.1", 1053, "10.0.0.2", 53, .text "UDP", some "DNS"⟩]

/-- Of one flow, 200 percent are unclassified. -/
theorem result_twice : ∃ a, analyseResults files TwoResults.options = .ok a ∧
    ¬ ∀ name p r, a.protocolResults name = some p → p.rates = .ok r →
      ∀ x ∈ r.values, 0 ≤ x ∧ x ≤ 100 := by
  have heval : (analyseResults files TwoResults.options).toOption.map
      (fun a => (a.protocolResults (some "DNS")).bind fun p =>
        p.rates.toOption.map (·.unclassified)) =
        some (some 200) := by decide +kernel
  obtain ⟨a, ha, hrate⟩ := Fallible.exists_eq_ok heval
  obtain ⟨p, hp, hrate⟩ := Option.bind_eq_some_iff.mp hrate
  obtain ⟨r, hr, hunclassified⟩ := Fallible.exists_eq_ok hrate
  refine ⟨a, ha, fun h => ?_⟩
  have hle := (h _ p r hp hr r.unclassified (by simp [Rates.values])).2
  rw [hunclassified] at hle
  exact absurd hle (by norm_num)

end RepeatedFlow

end Vsid
