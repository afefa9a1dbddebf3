import Mathlib.Data.List.Induction
import Vsid.Laws.ConfusionMatrix
import Vsid.Laws.SameConnection
import Vsid.Programs.Classifier

/-!
# What a line of the results is counted as

The line that the classifier writes for a flow is read by `analyse_results.py` as a result about the
connection of the flow (`dictRepr_result`), and the loop of `gather_results` counts it once: for the
protocol that the connection is listed under, and for the one that it was classified as where that
is another. `foldlM_result` is the loop over the lines of the classifier, which it goes through to
the end.
-/

set_option autoImplicit false

namespace Vsid

/-! ## Reading an endpoint -/

theorem dropWhile_of_forall {α : Type} {p : α → Bool} {l : List α} (h : ∀ x ∈ l, p x = false) :
    l.dropWhile p = l := by
  cases l with
  | nil => rfl
  | cons x l => exact List.dropWhile_cons_of_neg (Bool.eq_false_iff.mp (h x List.mem_cons_self))

/-- A port that the classifier has printed. -/
theorem portOfText_decimal (n : Nat) : portOfText (Rendering.decimal n).toList = some n := by
  have htext : (Rendering.decimal n).toList = Nat.toDigits 10 n := by
    rw [Rendering.decimal, Nat.toString_eq_ofList_toDigits, String.toList_ofList]
  have hall : ∀ c ∈ Nat.toDigits 10 n, c.isDigit = true := fun c hc =>
    Nat.isDigit_of_mem_toDigits (by decide) (by decide) hc
  have hne : Nat.toDigits 10 n ≠ [] := Nat.toDigits_ne_nil
  have hblank : ∀ c ∈ Nat.toDigits 10 n,
      (c.isWhitespace || c == '\x0b' || c == '\x0c') = false := by
    intro c hc
    by_contra hblank
    rw [Bool.not_eq_false, Bool.or_eq_true, Bool.or_eq_true, beq_iff_eq, beq_iff_eq] at hblank
    have hdigit := hall c hc
    rcases hblank with (hspace | rfl) | rfl
    · unfold Char.isWhitespace at hspace
      simp only [Bool.or_eq_true, decide_eq_true_eq] at hspace
      rcases hspace with ((rfl | rfl) | rfl) | rfl <;> exact absurd hdigit (by decide)
    · exact absurd hdigit (by decide)
    · exact absurd hdigit (by decide)
  have hplus : (Nat.toDigits 10 n).head? ≠ some '+' := fun h =>
    absurd (hall '+' (List.mem_of_head? h)) (by decide)
  unfold portOfText
  rw [htext]
  simp only
  rw [dropWhile_of_forall hblank,
    dropWhile_of_forall fun c hc => hblank c (List.mem_reverse.mp hc), List.reverse_reverse,
    if_neg hplus, if_pos ⟨hne, List.all_eq_true.mpr hall⟩, Nat.ofDigitChars_ten_toDigits]

theorem splitOn_endpointText (ip : UInt32) (port : UInt16) :
    (endpointText ip port).toList.splitOn ':' =
      [(dotted ip).toList, (Rendering.decimal port.toNat).toList] := by
  have hip : ':' ∉ (dotted ip).toList := not_mem_dotted (by decide) (by decide) ip
  have hport : ':' ∉ (Rendering.decimal port.toNat).toList :=
    Rendering.not_mem_decimal (by decide) _
  unfold endpointText
  rw [Rendering.toList_join, List.splitOn_append_cons_self_of_not_mem hip,
    List.splitOn_eq_singleton hport]

namespace ResultLine

variable {R : Type}

/-- What the script loads for a line; `number` is what it makes of a number of the classifier. -/
def result (number : R → ℚ) (line : ResultLine R) : ClassifierResult :=
  { flow :=
      { src := endpointText line.tuple.srcIp line.tuple.srcPort
        dst := endpointText line.tuple.dstIp line.tuple.dstPort
        transport := .number line.tuple.transport.toNat
        classified := line.classified
        pktCount := line.pktCount.toNat }
    protocol := if line.classified then some (some line.protocol) else none
    divergence := if line.classified then some (number line.divergence) else none }

/-- A line is about the connection of its flow. -/
theorem dictRepr_result (number : R → ℚ) (line : ResultLine R) :
    (line.result number).flow.dictRepr = .ok line.tuple.ofResults.dictRepr := by
  unfold result ResultFlow.dictRepr
  simp only [splitOn_endpointText]
  unfold portOfPieces
  simp only [List.getElem?_cons_succ, List.getElem?_cons_zero, portOfText_decimal,
    Fallible.ok_bind, Fallible.pure_eq_ok, List.headD_cons, String.ofList_toList]
  rfl

end ResultLine

/-! ## The counts -/

/-- What the analysis says of a protocol. -/
structure Confusion where
  truePositive : Nat
  falsePositive : Nat
  falseNegative : Nat
  notClassified : Nat
deriving DecidableEq, Repr

namespace Confusion

/-- Nothing was counted. -/
def zero : Confusion :=
  { truePositive := 0, falsePositive := 0, falseNegative := 0, notClassified := 0 }

def add (c d : Confusion) : Confusion :=
  { truePositive := c.truePositive + d.truePositive
    falsePositive := c.falsePositive + d.falsePositive
    falseNegative := c.falseNegative + d.falseNegative
    notClassified := c.notClassified + d.notClassified }

theorem add_zero (c : Confusion) : c.add zero = c := rfl

theorem zero_add (c : Confusion) : zero.add c = c := by
  unfold zero add
  simp only [Nat.zero_add]

theorem add_assoc (c d e : Confusion) : (c.add d).add e = c.add (d.add e) := by
  unfold add
  simp only [Nat.add_assoc]

/-- What a line is counted as for the protocol `name`, where its connection is expected to be
`expected`. -/
def ofLine {R : Type} (expected name : ProtocolName) (line : ResultLine R) : Confusion :=
  if line.classified then
    if expected = name then
      if some line.protocol = name then { zero with truePositive := 1 }
      else { zero with falseNegative := 1 }
    else if some line.protocol = name then { zero with falsePositive := 1 }
    else zero
  else if expected = name then { zero with notClassified := 1 }
  else zero

/-- The lines that are counted for the protocol `name`, where `label` says what is expected of a
connection. -/
def ofLines {R : Type} (label : IPv4Tuple → ProtocolName) (lines : List (ResultLine R))
    (name : ProtocolName) : Confusion :=
  { truePositive := lines.countP fun line =>
      line.classified && label line.tuple == name && some line.protocol == name
    falsePositive := lines.countP fun line =>
      line.classified && label line.tuple != name && some line.protocol == name
    falseNegative := lines.countP fun line =>
      line.classified && label line.tuple == name && some line.protocol != name
    notClassified := lines.countP fun line => !line.classified && label line.tuple == name }

theorem ofLines_cons {R : Type} (label : IPv4Tuple → ProtocolName) (line : ResultLine R)
    (lines : List (ResultLine R)) (name : ProtocolName) :
    ofLines label (line :: lines) name =
      (ofLine (label line.tuple) name line).add (ofLines label lines name) := by
  unfold ofLines ofLine add zero
  simp only [List.countP_cons]
  cases line.classified <;> by_cases hexpected : label line.tuple = name <;>
    by_cases hprotocol : some line.protocol = name <;>
    simp [hexpected, hprotocol, Nat.add_comm]

end Confusion

namespace ProtocolResult

/-- The four counters. -/
def confusion (p : ProtocolResult) : Confusion :=
  { truePositive := p.truePositive, falsePositive := p.falsePositive
    falseNegative := p.falseNegative, notClassified := p.notClassified }

variable (p : ProtocolResult)

theorem confusion_truePositive :
    p.increaseTruePositive.confusion = p.confusion.add { Confusion.zero with truePositive := 1 } :=
  rfl

theorem confusion_falsePositive :
    p.increaseFalsePositive.confusion =
      p.confusion.add { Confusion.zero with falsePositive := 1 } :=
  rfl

theorem confusion_falseNegative :
    p.increaseFalseNegative.confusion =
      p.confusion.add { Confusion.zero with falseNegative := 1 } :=
  rfl

theorem confusion_notClassified :
    p.increaseNotClassified.confusion =
      p.confusion.add { Confusion.zero with notClassified := 1 } :=
  rfl

theorem confusion_trueNegative : p.increaseTrueNegative.confusion = p.confusion := rfl

theorem confusion_decreaseExpected : p.decreaseExpected.confusion = p.confusion := rfl

theorem confusion_underDefiningLimit :
    p.increaseUnderDefiningLimit.confusion = p.confusion := rfl

theorem confusion_addFalsePositiveProtocol (protocol : ProtocolName) :
    (p.addFalsePositiveProtocol protocol).confusion = p.confusion := rfl

theorem confusion_addFalseNegativeProtocol (protocol : ProtocolName) :
    (p.addFalseNegativeProtocol protocol).confusion = p.confusion := rfl

theorem confusion_addDivergence (divergence : ℚ) :
    (p.addDivergence divergence).confusion = p.confusion := rfl

theorem confusion_addPktCount (count : Nat) (classified : Bool) :
    (p.addPktCount count classified).confusion = p.confusion := rfl

end ProtocolResult

namespace ProtocolTable

/-- The four counters of a protocol, which are zero where it is not in the table. -/
def confusion (t : ProtocolTable) (name : ProtocolName) : Confusion :=
  ((t name).getD (.init name)).confusion

variable {t : ProtocolTable} {k name : ProtocolName} {f : ProtocolResult → ProtocolResult}

/-- The other counters may change. -/
theorem confusion_map {o : Option ProtocolResult} (h : ∀ p, (f p).confusion = p.confusion) :
    ((o.map f).getD (.init name)).confusion = (o.getD (.init name)).confusion := by
  cases o with
  | none => rfl
  | some p => exact h p

theorem confusion_modify_same (h : ∀ p, (f p).confusion = p.confusion) :
    (t.modify k f).confusion name = t.confusion name := by
  unfold confusion
  by_cases hname : name = k
  · rw [hname, modify_self, confusion_map h]
  · rw [modify_of_ne hname]

theorem confusion_modifyUnless_same {skip : ProtocolName → Bool}
    (h : ∀ p, (f p).confusion = p.confusion) :
    (t.modifyUnless skip f).confusion name = t.confusion name := by
  unfold confusion
  cases hskip : skip name with
  | true => rw [modifyUnless_of_skip hskip]
  | false => rw [modifyUnless_of_not hskip, confusion_map h]

/-- One of the four counters of a protocol in the table changes. -/
theorem confusion_modify {c : Confusion} (h : ∀ p, (f p).confusion = p.confusion.add c)
    (hknown : (t k).isSome = true) :
    (t.modify k f).confusion name =
      if k = name then (t.confusion name).add c else t.confusion name := by
  unfold confusion
  by_cases hname : k = name
  · subst hname
    obtain ⟨p, hp⟩ := Option.isSome_iff_exists.mp hknown
    rw [if_pos rfl, modify_self, hp]
    exact h p
  · rw [if_neg hname, modify_of_ne (Ne.symm hname)]

theorem isSome_modify : (t.modify k f name).isSome = (t name).isSome := by
  by_cases hname : name = k
  · rw [hname, modify_self, Option.isSome_map]
  · rw [modify_of_ne hname]

theorem isSome_modifyUnless {skip : ProtocolName → Bool} :
    (t.modifyUnless skip f name).isSome = (t name).isSome := by
  unfold modifyUnless
  split
  · rfl
  · exact Option.isSome_map

end ProtocolTable

namespace Analyser

open ProtocolTable ProtocolResult

variable {R : Type} {t t' : ProtocolTable} {expected name : ProtocolName} {limit : Nat}
  {number : R → ℚ} {line : ResultLine R}

theorem confusion_countUnclassified (hline : line.classified = false)
    (hknown : (t expected).isSome = true) :
    (countUnclassified limit t (line.result number) expected).confusion name =
      (t.confusion name).add (.ofLine expected name line) := by
  have hone : (t.confusion name).add (.ofLine expected name line) =
      if expected = name then (t.confusion name).add { Confusion.zero with notClassified := 1 }
      else t.confusion name := by
    unfold Confusion.ofLine
    rw [hline, if_neg Bool.false_ne_true]
    split
    · rfl
    · rfl
  rw [hone]
  unfold countUnclassified
  simp only
  rw [confusion_modifyUnless_same confusion_trueNegative]
  split
  · rw [confusion_modify_same confusion_underDefiningLimit,
      confusion_modify_same fun p => confusion_addPktCount p _ _,
      confusion_modify confusion_notClassified hknown]
  · rw [confusion_modify_same fun p => confusion_addPktCount p _ _,
      confusion_modify confusion_notClassified hknown]

/-- A classified line is counted, whatever it says. -/
theorem confusion_countClassified (number : R → ℚ) (hline : line.classified = true)
    (hknown : (t expected).isSome = true) (hfound : (t (some line.protocol)).isSome = true) :
    ∃ t', countClassified t (line.result number) expected = .ok t' ∧
      (∀ name, (t' name).isSome = (t name).isSome) ∧
      ∀ name, t'.confusion name = (t.confusion name).add (.ofLine expected name line) := by
  have hprotocol : (line.result number).protocol = some (some line.protocol) := if_pos hline
  have hdivergence : (line.result number).divergence = some (number line.divergence) :=
    if_pos hline
  unfold countClassified
  rw [hprotocol, hdivergence]
  simp only
  by_cases hsame : some line.protocol = expected
  · rw [if_pos hsame]
    refine ⟨_, rfl, fun name => ?_, fun name => ?_⟩
    · rw [isSome_modify, isSome_modify, isSome_modifyUnless, isSome_modify]
    · rw [confusion_modify_same fun p => confusion_addPktCount p _ _,
        confusion_modify_same fun p => confusion_addDivergence p _,
        confusion_modifyUnless_same confusion_trueNegative,
        confusion_modify confusion_truePositive hknown]
      unfold Confusion.ofLine
      rw [if_pos hline, hsame]
      split
      · rfl
      · rfl
  · rw [if_neg hsame]
    refine ⟨_, rfl, fun name => ?_, fun name => ?_⟩
    · rw [isSome_modifyUnless, isSome_modify, isSome_modify, isSome_modify, isSome_modify,
        isSome_modify]
    · have hfound' : ((((t.modify expected .increaseFalseNegative).modify expected
          (·.addFalseNegativeProtocol (some line.protocol))).modify expected
          (·.addPktCount (line.result number).flow.pktCount false))
          (some line.protocol)).isSome = true := by
        rw [isSome_modify, isSome_modify, isSome_modify]
        exact hfound
      rw [confusion_modifyUnless_same confusion_trueNegative,
        confusion_modify_same fun p => confusion_addFalsePositiveProtocol p _,
        confusion_modify confusion_falsePositive hfound',
        confusion_modify_same fun p => confusion_addPktCount p _ _,
        confusion_modify_same fun p => confusion_addFalseNegativeProtocol p _,
        confusion_modify confusion_falseNegative hknown]
      unfold Confusion.ofLine
      rw [if_pos hline]
      by_cases hexpected : expected = name
      · have hnot : some line.protocol ≠ name := fun h => hsame (h.trans hexpected.symm)
        rw [if_pos hexpected, if_pos hexpected, if_neg hnot, if_neg hnot]
      · rw [if_neg hexpected, if_neg hexpected]
        split
        · rfl
        · rfl

/-! ## The loops -/

variable {a : Analyser}

/-- The protocol that is expected of a connection. -/
def label (a : Analyser) (tuple : IPv4Tuple) : ProtocolName :=
  (a.flowTable.protocolOf tuple.ofResults.dictRepr).getD a.defaultProtocol

/-- What is counted as an error is counted for a protocol in the table. -/
def DefaultKnown (a : Analyser) : Prop :=
  a.defaultProtocol = none ∨ (a.protocolResults a.defaultProtocol).isSome = true

theorem expect_of_known (h : a.DefaultKnown) (key : String) :
    ∃ expected a', a.expect key = .ok (expected, a') := by
  unfold expect
  split
  next flow _ => exact ⟨_, _, rfl⟩
  next =>
    rcases h with hnone | hknown
    · rw [if_pos hnone]
      exact ⟨_, _, rfl⟩
    · split
      · exact ⟨_, _, rfl⟩
      · rw [update, if_pos hknown]
        exact ⟨_, _, rfl⟩

/-- **One round of the loop**, on a line of the classifier. -/
theorem gatherResult_result (h : a.DefaultKnown) (number : R → ℚ) (line : ResultLine R) :
    ∃ t, a.gatherResult (line.result number) = .ok (a.step t line.tuple.ofResults.dictRepr) ∧
      (∀ name, (a.protocolResults name).isSome = true → (t name).isSome = true) ∧
      ∀ name, t.confusion name =
        (a.protocolResults.confusion name).add (.ofLine (a.label line.tuple) name line) := by
  obtain ⟨expected, a₁, hexpect⟩ := expect_of_known h line.tuple.ofResults.dictRepr
  obtain ⟨hexpected, t₁, rfl, ht₁⟩ := expect_eq_ok hexpect
  have hlabel : expected = a.label line.tuple := hexpected
  -- the protocols of the line are entered first, which moves no counter
  have hnamed := addNamed_apply t₁ expected (line.result number)
  have hbefore : ∀ name, (addNamed t₁ (line.result number) expected).confusion name =
      a.protocolResults.confusion name := by
    intro name
    unfold ProtocolTable.confusion
    rw [(hnamed name).2, (ht₁ name).1]
    exact confusion_map fun _ => rfl
  have hkeeps : ∀ name, (a.protocolResults name).isSome = true →
      (addNamed t₁ (line.result number) expected name).isSome = true := by
    intro name hname
    refine (hnamed name).1.mpr (Or.inl ?_)
    rw [(ht₁ name).1, Option.isSome_map]
    exact hname
  have hknown : (addNamed t₁ (line.result number) expected expected).isSome = true :=
    (hnamed expected).1.mpr (Or.inr (by rw [beq_self_eq_true, Bool.true_or]))
  unfold gatherResult
  rw [ResultLine.dictRepr_result, Fallible.ok_bind, hexpect, Fallible.ok_bind]
  simp only
  cases hline : line.classified with
  | true =>
    have hfound : (addNamed t₁ (line.result number) expected (some line.protocol)).isSome =
        true := by
      have hprotocol : (line.result number).protocol = some (some line.protocol) := if_pos hline
      refine (hnamed _).1.mpr (Or.inr ?_)
      rw [hprotocol, beq_self_eq_true, Bool.or_true]
    obtain ⟨t, ht, hsame, hcounts⟩ := confusion_countClassified number hline hknown hfound
    refine ⟨t, ?_, fun name hname => (hsame name).trans (hkeeps name hname), fun name => ?_⟩
    · have hflag : (line.result number).flow.classified = true := hline
      rw [if_pos hflag]
      have ht' : countClassified (addNamed (a.step t₁ line.tuple.ofResults.dictRepr).protocolResults
          (line.result number) expected) (line.result number) expected = .ok t := ht
      rw [ht', Fallible.ok_bind]
      rfl
    · rw [hcounts, hbefore, hlabel]
  | false =>
    have hflag : ¬ (line.result number).flow.classified = true := by
      change ¬ line.classified = true
      rw [hline]
      exact Bool.false_ne_true
    rw [if_neg hflag]
    refine ⟨_, rfl, fun name hname => ?_, fun name => ?_⟩
    · unfold countUnclassified
      rw [isSome_modifyUnless]
      split
      · rw [isSome_modify, isSome_modify, isSome_modify]
        exact hkeeps name hname
      · rw [isSome_modify, isSome_modify]
        exact hkeeps name hname
    · refine (confusion_countUnclassified hline hknown).trans ?_
      rw [hbefore, hlabel]

theorem label_step (a : Analyser) (t : ProtocolTable) (key : String) :
    (a.step t key).label = a.label := by
  funext tuple
  unfold label
  rw [flowTable_step, FlowTable.protocolOf_see]
  rfl

/-- **The whole loop**, on the lines of the classifier. -/
theorem foldlM_result (h : a.DefaultKnown) (number : R → ℚ) (lines : List (ResultLine R)) :
    ∃ keys t, (lines.map (·.result number)).foldlM gatherResult a = .ok (a.steps t keys) ∧
      (∀ name, (a.protocolResults name).isSome = true → (t name).isSome = true) ∧
      ∀ name, t.confusion name =
        (a.protocolResults.confusion name).add (.ofLines a.label lines name) := by
  induction lines generalizing a with
  | nil =>
    refine ⟨[], a.protocolResults, ?_, fun name hname => hname, fun name => rfl⟩
    change Except.ok a = .ok (a.steps a.protocolResults [])
    unfold steps
    cases hflows : a.flows with
    | none => rw [Option.map_none, ← hflows]
    | some flows => rw [Option.map_some, List.foldl_nil, ← hflows]
  | cons line lines ih =>
    obtain ⟨t₁, hstep, hkeeps₁, hcounts₁⟩ := gatherResult_result h number line
    have h₁ : (a.step t₁ line.tuple.ofResults.dictRepr).DefaultKnown :=
      h.imp_right fun hknown => hkeeps₁ a.defaultProtocol hknown
    obtain ⟨keys, t, hloop, hkeeps, hcounts⟩ := ih h₁
    refine ⟨line.tuple.ofResults.dictRepr :: keys, t, ?_,
      fun name hname => hkeeps name (hkeeps₁ name hname), fun name => ?_⟩
    · rw [List.map_cons, List.foldlM_cons, hstep, Fallible.ok_bind, hloop, steps_step]
    · rw [hcounts, label_step, Confusion.ofLines_cons, ← Confusion.add_assoc, ← hcounts₁]
      rfl

/-- The loop over the flows that were not seen moves none of the four counters. -/
theorem foldlM_forget_of_known {entries : List (Σ _ : String, ExpectedFlow)}
    (h : ∀ flow ∈ entries, (t flow.2.l7protocol).isSome = true) :
    ∃ t', entries.foldlM (fun (t : ProtocolTable) flow =>
        if flow.2.seen then pure t else t.update flow.2.l7protocol .decreaseExpected) t = .ok t' ∧
      ∀ name, t'.confusion name = t.confusion name := by
  induction entries generalizing t with
  | nil => exact ⟨t, rfl, fun _ => rfl⟩
  | cons flow entries ih =>
    obtain ⟨hflow, hrest⟩ := List.forall_mem_cons.mp h
    rw [List.foldlM_cons]
    cases flow.2.seen with
    | true => exact ih hrest
    | false =>
      obtain ⟨t', hloop, hcounts⟩ := ih (t := t.modify flow.2.l7protocol .decreaseExpected)
        fun other hother => by rw [isSome_modify]; exact hrest other hother
      refine ⟨t', ?_, fun name => ?_⟩
      · rw [if_neg Bool.false_ne_true, update, if_pos hflow]
        exact hloop
      · rw [hcounts, confusion_modify_same confusion_decreaseExpected]

end Analyser

/-! ## The list of flows -/

namespace FlowTable

theorem protocolOf_list (flows : FlowTable) (flow : ListedFlow) (key : String) :
    (flows.list flow).protocolOf key =
      if flow.dictRepr = key then some flow.protocol else flows.protocolOf key := by
  unfold protocolOf list
  by_cases hkey : flow.dictRepr = key
  · rw [if_pos hkey, ← hkey, AList.lookup_insert]
    rfl
  · rw [if_neg hkey, AList.lookup_insert_ne (Ne.symm hkey)]

/-- The last entry of a connection says what is expected of it. -/
theorem protocolOf_ofListed (listed : List ListedFlow) (key : String) :
    (ofListed listed).protocolOf key =
      (listed.reverse.find? fun flow => flow.dictRepr == key).map (·.protocol) := by
  induction listed using List.reverseRecOn with
  | nil =>
    unfold protocolOf ofListed
    rw [List.foldl_nil, AList.lookup_empty]
    rfl
  | append_singleton listed flow ih =>
    have hlast : ofListed (listed ++ [flow]) = (ofListed listed).list flow := by
      unfold ofListed
      rw [List.foldl_append]
      rfl
    rw [hlast, protocolOf_list, ih, List.reverse_append, List.reverse_singleton,
      List.singleton_append, List.find?_cons]
    by_cases hkey : flow.dictRepr = key
    · rw [if_pos hkey, beq_iff_eq.mpr hkey]
      rfl
    · rw [if_neg hkey, beq_eq_false_iff_ne.mpr hkey]

end FlowTable

/-- A flow that is listed by its connection. -/
def ListedFlow.ofTuple (entry : IPv4Tuple × ProtocolName) : ListedFlow :=
  { srcIp := dotted entry.1.srcIp
    srcPort := entry.1.srcPort.toNat
    dstIp := dotted entry.1.dstIp
    dstPort := entry.1.dstPort.toNat
    transport := .text (transportName entry.1.transport)
    protocol := entry.2 }

/-- What the list of flows says of a connection: the last entry that is about it, in either
direction, and the default where there is none. -/
def labelOf (listed : List (IPv4Tuple × ProtocolName)) (default : ProtocolName)
    (tuple : IPv4Tuple) : ProtocolName :=
  ((listed.reverse.find? fun entry => entry.1.sameFlow tuple).map (·.2)).getD default

theorem ListedFlow.dictRepr_ofTuple {entry : IPv4Tuple × ProtocolName}
    (h : entry.1.IsTransported) (tuple : IPv4Tuple) :
    ((ListedFlow.ofTuple entry).dictRepr == tuple.ofResults.dictRepr) =
      entry.1.sameFlow tuple := by
  have hentry : (ListedFlow.ofTuple entry).dictRepr = entry.1.ofResults.dictRepr :=
    congrArg ScriptTuple.dictRepr (ScriptTuple.ofFlows_eq h)
  rw [hentry, Bool.eq_iff_iff, beq_iff_eq]
  exact ScriptTuple.dictRepr_eq_iff entry.1 tuple

/-- The script labels a connection by the list of flows. -/
theorem labelOf_eq {listed : List (IPv4Tuple × ProtocolName)}
    (h : ∀ entry ∈ listed, entry.1.IsTransported) (default : ProtocolName) (tuple : IPv4Tuple) :
    ((FlowTable.ofListed (listed.map .ofTuple)).protocolOf tuple.ofResults.dictRepr).getD default =
      labelOf listed default tuple := by
  unfold labelOf
  rw [FlowTable.protocolOf_ofListed, ← List.map_reverse, List.find?_map, Option.map_map]
  have hsame : listed.reverse.find? ((fun flow => flow.dictRepr == tuple.ofResults.dictRepr) ∘
      ListedFlow.ofTuple) = listed.reverse.find? fun entry => entry.1.sameFlow tuple := by
    rw [← List.head?_filter, ← List.head?_filter]
    refine congrArg List.head? (List.filter_congr fun entry hentry => ?_)
    exact ListedFlow.dictRepr_ofTuple (h entry (List.mem_reverse.mp hentry)) tuple
  rw [hsame]
  rfl

end Vsid
