import Vsid.Laws.Soundness
import Vsid.Lib.FirstMin
import Vsid.Lib.Keyed

/-!
# The matching over a whole life

`Vsid.Laws.Classification` is about one examined packet. Here is what the matching comes to over the
examined packets of a flow, in words that know no loop: the best match is the first minimum of its
starting value and the positive divergences so far, and `Decides` says which packet gives a flow its
result, and which result (`matched_of_run`).

Two databases with the same models in different orders come to different results at most in the
choice between models (`classified_reordered`).

`double` is not totally ordered. What the best match can hold is, since NaN is not positive:
`OrdersBest`.
-/

set_option autoImplicit false

namespace Vsid

variable {R : Type} [Double R] {S : Setup R}

/-! ## The order of the divergences -/

/-- What the best match can hold: its starting value, or what is positive. -/
def CanBeBest (d : R) : Prop := 0 < d ∨ d = ((100 : Nat) : R)

/-- The order of `double`, in which any two values that the best match can hold are comparable. -/
class OrdersBest (R : Type) [Double R] : Prop extends IsStrictOrder R (· < ·) where
  comparable : ∀ x y : R, CanBeBest x → CanBeBest y → x < y ∨ x = y ∨ y < x

instance [IsStrictTotalOrder R (· < ·)] : OrdersBest R where
  comparable x y _ _ := trichotomous_of (· < ·) x y

theorem allComparable_of_canBeBest [OrdersBest R] {xs : List (R × String)}
    (h : ∀ x ∈ xs, CanBeBest x.1) : AllComparable Prod.fst xs :=
  fun x hx y hy => OrdersBest.comparable x.1 y.1 (h x hx) (h y hy)

namespace Flow

/-! ## One examined packet -/

/-- What the models that are looked at offer the best match, in search order. -/
def offers (S : Setup R) (f : Flow R) : List (R × String) :=
  ((f.looksAt S).filter fun pm => decide (0 < f.klDivergence pm)).map
    fun pm => (f.klDivergence pm, pm.name)

theorem canBeBest_of_mem_offers {f : Flow R} {x : R × String} (hx : x ∈ f.offers S) :
    CanBeBest x.1 := by
  obtain ⟨pm, hpm, rfl⟩ := List.mem_map.mp hx
  exact Or.inl (of_decide_eq_true (List.mem_filter.mp hpm).2)

/-- The best match takes what is offered if it is better. -/
theorem foldl_better_eq (f : Flow R) (best : R × String) (models : List (ProtocolModel R)) :
    models.foldl f.better best =
      ((models.filter fun pm => decide (0 < f.klDivergence pm)).map
        fun pm => (f.klDivergence pm, pm.name)).foldl (keepBetter Prod.fst) best := by
  induction models generalizing best with
  | nil => rfl
  | cons pm models ih =>
    rw [List.foldl_cons, ih, List.filter_cons]
    by_cases hpos : 0 < f.klDivergence pm
    · simp only [decide_eq_true hpos, if_true, List.map_cons, List.foldl_cons]
      unfold better keepBetter
      simp only [hpos, true_and]
    · have hsame : f.better best pm = best := if_neg fun h => hpos h.1
      simp only [decide_eq_false hpos, Bool.false_eq_true, if_false, hsame]

/-- What the matching does with a flow: the first model that fits is taken, or else the best match
serves, or else only the best match has changed. -/
theorem classify_first {f : Flow R} (hmode : S.config.learningMode = false)
    (hopen : f.flowClassified = false) {best : R × String}
    (hbest : best = (f.offers S).foldl (keepBetter Prod.fst)
      (f.bestMatchDivergence, f.bestMatchProtocol)) :
    (∃ front pm back, f.looksAt S = front ++ pm :: back ∧ f.accepts S pm = true ∧
        (∀ pm' ∈ front, f.accepts S pm' = false) ∧
        ∃ best', f.classify S = (f.setBestMatch best').classifyAs pm.name (f.klDivergence pm)) ∨
      (∀ pm ∈ f.looksAt S, f.accepts S pm = false) ∧
        f.classify S =
          if (f.setBestMatch best).BestMatchServes S then
            (f.setBestMatch best).classifyAs best.2 best.1
          else f.setBestMatch best := by
  rw [classify_eq hmode hopen]
  cases hfind : (f.looksAt S).find? (f.accepts S) with
  | some pm =>
    obtain ⟨haccept, front, back, hsplit, hfront⟩ := List.find?_eq_some_iff_append.mp hfind
    have hskip : ∀ pm' ∈ front, f.accepts S pm' = false := by
      intro pm' hpm'
      rw [← Bool.not_eq_true']
      exact hfront pm' hpm'
    unfold search
    simp only [hfind]
    exact Or.inl ⟨front, pm, back, hsplit, haccept, hskip, _, useBestMatch_of_classified rfl⟩
  | none =>
    have hnone : ∀ pm ∈ f.looksAt S, f.accepts S pm = false := fun pm hpm =>
      Bool.not_eq_true _ ▸ List.find?_eq_none.mp hfind pm hpm
    refine Or.inr ⟨hnone, ?_⟩
    rw [search_of_none hnone, foldl_better_eq, ← offers, ← hbest]
    exact useBestMatch_eq (f := f.setBestMatch best) hopen

end Flow

/-! ## The specification -/

/-- The starting value of the best match, and what the examined packets have offered it. -/
def candidates (S : Setup R) (examined : List (Flow R)) : List (R × String) :=
  (((100 : Nat) : R), "") :: examined.flatMap (Flow.offers S)

theorem canBeBest_of_mem_candidates {examined : List (Flow R)} {x : R × String}
    (hx : x ∈ candidates S examined) : CanBeBest x.1 := by
  rcases List.mem_cons.mp hx with rfl | hx
  · exact Or.inr rfl
  · obtain ⟨g, -, hoffer⟩ := List.mem_flatMap.mp hx
    exact Flow.canBeBest_of_mem_offers hoffer

/-- The loop over what was offered ends with the first minimum of the candidates. -/
theorem firstMin_candidates [OrdersBest R] (examined : List (Flow R)) :
    FirstMin Prod.fst (candidates S examined)
      ((examined.flatMap (Flow.offers S)).foldl (keepBetter Prod.fst) (((100 : Nat) : R), "")) :=
  FirstMin.foldl (allComparable_of_canBeBest fun _ => canBeBest_of_mem_candidates)

/-- After the packets of `before`, the examined packet `g` gives the flow its result: the first
model in search order that fits, once the limit is reached, or at the limit the best match. -/
inductive Decides (S : Setup R) (before : List (Flow R)) (g : Flow R) : String → R → Prop where
  | fits {front back : List (ProtocolModel R)} {pm : ProtocolModel R} :
    S.database.definingLimit ≤ g.pktCount → g.looksAt S = front ++ pm :: back → g.Fits S pm →
      (∀ pm' ∈ front, ¬ g.Fits S pm') → Decides S before g pm.name (g.klDivergence pm)
  | best {name : String} {d : R} :
    S.config.useBestMatch = true → g.pktCount = S.database.definingLimit →
      (∀ pm ∈ g.looksAt S, ¬ g.Fits S pm) →
      FirstMin Prod.fst (candidates S (before ++ [g])) (d, name) →
      d < S.config.divergenceThreshold → Decides S before g name d

/-- None of the packets gives the flow a result. -/
def Undecided (S : Setup R) (examined : List (Flow R)) : Prop :=
  ∀ before g after, examined = before ++ g :: after → ∀ name d, ¬ Decides S before g name d

theorem undecided_nil : Undecided S [] := by
  intro before g after h
  exact absurd h.symm (List.append_ne_nil_of_right_ne_nil _ (List.cons_ne_nil _ _))

theorem Undecided.append {examined : List (Flow R)} (h : Undecided S examined) {g : Flow R}
    (hg : ∀ name d, ¬ Decides S examined g name d) : Undecided S (examined ++ [g]) := by
  intro before g' after heq
  rcases List.eq_nil_or_concat after with rfl | ⟨after', last, rfl⟩
  · obtain ⟨rfl, hlast⟩ := List.append_inj' heq rfl
    cases hlast
    exact hg
  · rw [List.concat_eq_append, ← List.cons_append, ← List.append_assoc] at heq
    exact h before g' after' (List.append_inj' heq rfl).1

/-! ## The run -/

/-- What is known of a flow and the packets that were examined on the way to it. -/
structure Matched (S : Setup R) (e : FlowHistory R) : Prop where
  best : e.flow.flowClassified = false →
    (e.flow.bestMatchDivergence, e.flow.bestMatchProtocol) =
      (e.examined.flatMap (Flow.offers S)).foldl (keepBetter Prod.fst) (((100 : Nat) : R), "")
  undecided : e.flow.flowClassified = false → Undecided S e.examined
  decided : e.flow.flowClassified = true → ∃ before g, e.examined = before ++ [g] ∧
    Undecided S before ∧ Decides S before g e.flow.classifiedProtocol e.flow.classifiedDivergence

theorem matched_start (p : IPv4Packet) (stale : FirstBytes) :
    Matched S (FlowHistory.start (Flow.new S p stale)) where
  best _ := rfl
  undecided _ := undecided_nil
  decided h := absurd h Bool.false_ne_true

theorem Matched.same {e : FlowHistory R} (h : Matched S e) {f : Flow R}
    (hsame : e.flow.SameResult f) : Matched S { e with flow := f } where
  best hopen := by
    rw [hsame.bestMatchDivergence, hsame.bestMatchProtocol]
    exact h.best (hsame.flowClassified ▸ hopen)
  undecided hopen := h.undecided (hsame.flowClassified ▸ hopen)
  decided hclass := by
    rw [hsame.classifiedProtocol, hsame.classifiedDivergence]
    exact h.decided (hsame.flowClassified ▸ hclass)

/-- One examined packet. -/
theorem Matched.classify [OrdersBest R] {e : FlowHistory R} (h : Matched S e)
    {p : IPv4Packet} {g : Flow R} (hexamined : e.flow.examined S p = some g)
    (hmode : S.config.learningMode = false) :
    Matched S { flow := g.classify S, examined := e.examined ++ [g] } := by
  obtain ⟨hsame, hopen⟩ := Flow.examined_sameResult hexamined
  have hopen' : e.flow.flowClassified = false := hsame.flowClassified ▸ hopen
  have hundecided := h.undecided hopen'
  -- the best match has seen this packet's offers too
  have hbest : (g.offers S).foldl (keepBetter Prod.fst) (g.bestMatchDivergence,
      g.bestMatchProtocol) = ((e.examined ++ [g]).flatMap (Flow.offers S)).foldl
        (keepBetter Prod.fst) (((100 : Nat) : R), "") := by
    rw [hsame.bestMatchDivergence, hsame.bestMatchProtocol, h.best hopen', List.flatMap_append,
      List.foldl_append, List.flatMap_singleton]
  have hmin := firstMin_candidates (S := S) (e.examined ++ [g])
  rw [← hbest] at hmin
  generalize hdef : (g.offers S).foldl (keepBetter Prod.fst) (g.bestMatchDivergence,
    g.bestMatchProtocol) = best at hbest hmin
  rcases Flow.classify_first hmode hopen hdef.symm with
    ⟨front, pm, back, hsplit, haccept, hfront, best', heq⟩ | ⟨hnone, heq⟩
  · obtain ⟨hlimit, hfits⟩ := Flow.accepts_iff.mp haccept
    have hdecides : Decides S e.examined g pm.name (g.klDivergence pm) := by
      refine .fits hlimit hsplit hfits fun pm' hpm' hfits' => ?_
      have := hfront pm' hpm'
      rw [Flow.accepts_iff.mpr ⟨hlimit, hfits'⟩] at this
      exact Bool.false_ne_true this.symm
    rw [heq]
    exact ⟨fun h => absurd h.symm Bool.false_ne_true, fun h => absurd h.symm Bool.false_ne_true,
      fun _ => ⟨e.examined, g, rfl, hundecided, hdecides⟩⟩
  · have hfits : S.database.definingLimit ≤ g.pktCount → ∀ pm ∈ g.looksAt S, ¬ g.Fits S pm := by
      intro hlimit pm hpm hfit
      have := hnone pm hpm
      rw [Flow.accepts_iff.mpr ⟨hlimit, hfit⟩] at this
      exact Bool.false_ne_true this.symm
    rw [heq]
    by_cases hserves : (g.setBestMatch best).BestMatchServes S
    · rw [if_pos hserves]
      obtain ⟨huse, hcount, hbelow⟩ := hserves
      have hdecides : Decides S e.examined g best.2 best.1 :=
        .best huse hcount (hfits (UInt32.le_of_eq hcount.symm)) hmin hbelow
      exact ⟨fun h => absurd h.symm Bool.false_ne_true, fun h => absurd h.symm Bool.false_ne_true,
        fun _ => ⟨e.examined, g, rfl, hundecided, hdecides⟩⟩
    · rw [if_neg hserves]
      have hnot : ∀ name d, ¬ Decides S e.examined g name d := by
        intro name d hdecides
        cases hdecides with
        | fits hlimit hsplit hfit _ =>
          exact hfits hlimit _ (hsplit ▸ List.mem_append_right _ List.mem_cons_self) hfit
        | best huse hcount _ hmin' hbelow =>
          have hcost : d = best.1 := FirstMin.cost_eq hmin' hmin
            (allComparable_of_canBeBest fun _ => canBeBest_of_mem_candidates) (List.Perm.refl _)
          rw [hcost] at hbelow
          exact hserves ⟨huse, hcount, hbelow⟩
      refine ⟨fun _ => hbest, fun _ => hundecided.append hnot, fun hclass => ?_⟩
      exact absurd (hopen.symm.trans hclass) Bool.false_ne_true

/-- **One call.** -/
theorem Matched.call [OrdersBest R] {e e' : FlowHistory R} (h : Matched S e)
    (hmode : S.config.learningMode = false) {c : FlowCall} (hcall : e.call S c = some e') :
    Matched S e' := by
  cases c with
  | addPacket p =>
    cases hcall
    cases hexamined : e.flow.examined S p with
    | none =>
      rw [Option.toList_none, List.append_nil]
      exact h.same (Flow.addPacket_sameResult hexamined)
    | some g =>
      rw [Flow.addPacket_of_examined hexamined]
      exact h.classify hexamined hmode
  | setFinishedAndNotified =>
    cases hcall
    exact h.same ⟨rfl, rfl, rfl, rfl, rfl⟩
  | incPktsInQueue =>
    cases hcall
    exact h.same ⟨rfl, rfl, rfl, rfl, rfl⟩
  | decPktsInQueue =>
    cases hcall
    exact h.same ⟨rfl, rfl, rfl, rfl, rfl⟩
  | threadQueueId q =>
    cases hcall
    exact h.same ⟨rfl, rfl, rfl, rfl, rfl⟩

/-! ## The search order -/

/-- For this flow, `at` yields each model of the database once. -/
def Flow.YieldsEachOnce (S : Setup R) (f : Flow R) : Prop :=
  ((List.range S.database.size).filterMap fun i => S.database.atPos i (f.hintPort S)).Perm
    S.database.protocolModelOrder

omit [Double R] in
theorem Flow.looksAt_perm {f : Flow R} (h : f.YieldsEachOnce S) :
    (f.looksAt S).Perm (S.database.protocolModelOrder.filter (·.enabled)) :=
  h.filter _

theorem Flow.examined_tuple {f g : Flow R} {p : IPv4Packet} (h : f.examined S p = some g) :
    g.firstPacketTuple = f.firstPacketTuple := by
  obtain ⟨-, rfl⟩ := eq_of_examined h
  exact (advance_sameIdentity f p).firstPacketTuple

/-- The flow and what was examined have the tuple of the first packet. -/
def FlowHistory.OfTuple (t : IPv4Tuple) (e : FlowHistory R) : Prop :=
  e.flow.firstPacketTuple = t ∧ ∀ g ∈ e.examined, g.firstPacketTuple = t

theorem FlowHistory.OfTuple.call {t : IPv4Tuple} {e e' : FlowHistory R} (h : e.OfTuple t)
    {c : FlowCall} (hcall : e.call S c = some e') : e'.OfTuple t := by
  cases c with
  | addPacket p =>
    cases hcall
    refine ⟨(Flow.addPacket_sameIdentity S e.flow p).firstPacketTuple.trans h.1, fun g hg => ?_⟩
    rcases List.mem_append.mp hg with hg | hg
    · exact h.2 g hg
    · exact (Flow.examined_tuple (Option.mem_toList.mp hg)).trans h.1
  | setFinishedAndNotified =>
    cases hcall
    exact h
  | incPktsInQueue =>
    cases hcall
    exact h
  | decPktsInQueue =>
    cases hcall
    exact h
  | threadQueueId q =>
    cases hcall
    exact h

/-- **Matching is what its specification says.** In every life of a flow in classification mode, for
which `at` yields each model once: as long as the flow is unclassified, its best match is the first
minimum of 100 and the positive divergences that the enabled models have had, packet by packet and
in search order, and no examined packet has decided; once it is classified, its result is the one
that the last examined packet decides on, and no earlier packet decides. The number of a packet,
which `Decides` compares with the defining limit, is `_pktCount` and wraps at 2^32. -/
theorem matched_of_run [OrdersBest R] (hmode : S.config.learningMode = false)
    {p : IPv4Packet} {stale : FirstBytes} (hyields : (Flow.new S p stale).YieldsEachOnce S)
    {e : FlowHistory R} (h : Lives S (fun _ _ => True) (Flow.new S p stale) e) :
    (∀ g ∈ e.examined, (g.looksAt S).Perm (S.database.protocolModelOrder.filter (·.enabled))) ∧
    (e.flow.flowClassified = false →
      FirstMin Prod.fst (candidates S e.examined)
        (e.flow.bestMatchDivergence, e.flow.bestMatchProtocol) ∧ Undecided S e.examined) ∧
    (e.flow.flowClassified = true → ∃ before g, e.examined = before ++ [g] ∧
      Undecided S before ∧
      Decides S before g e.flow.classifiedProtocol e.flow.classifiedDivergence) := by
  have hmatched : Matched S e :=
    h.invariant (I := Matched S) (matched_start p stale) fun _ _ _ hold _ hcall =>
      hold.call hmode hcall
  have htuple : e.OfTuple p.tuple :=
    h.invariant (I := FlowHistory.OfTuple p.tuple)
      ⟨rfl, fun g hg => absurd hg List.not_mem_nil⟩ fun _ _ _ hold _ hcall => hold.call hcall
  refine ⟨fun g hg => ?_, fun hopen => ⟨?_, hmatched.undecided hopen⟩, hmatched.decided⟩
  · have hyields' : g.YieldsEachOnce S := by
      unfold Flow.YieldsEachOnce Flow.hintPort at hyields ⊢
      rw [htuple.2 g hg]
      exact hyields
    exact Flow.looksAt_perm hyields'
  · rw [hmatched.best hopen]
    exact firstMin_candidates e.examined

/-- A program that knows two protocols by the size of their first packet, decides at the second
packet and has a threshold of a half. -/
def decidesAtTwo : Setup ℚ :=
  { Flow.bySize 0 with
    config := { (CommonConfig.initial : CommonConfig ℚ) with divergenceThreshold := 1 / 2 }
    database :=
      { Flow.sizeDatabase 0 with
        definingLimit := 2
        protocolModelOrder :=
          (Flow.sizeDatabase 0).protocolModelOrder ++
            (Flow.sizeDatabase (1 / 2)).protocolModelOrder.map fun pm =>
              { pm with name := "SSH" } } }

/-- The life of a flow of datagrams with one byte each. -/
def oneByteCalls (n : Nat) : List FlowCall := List.replicate n (.addPacket Flow.oneByte)

/-- After the first packet the second model is the best match, and after the second packet the flow
is classified as it: the first model is too far away. -/
theorem decidesAtTwo_matched :
    (∃ e : FlowHistory ℚ, e.examined.length = 1 ∧
      FirstMin Prod.fst (candidates decidesAtTwo e.examined) (e.flow.bestMatchDivergence, "SSH") ∧
      Undecided decidesAtTwo e.examined) ∧
    ∃ (e : FlowHistory ℚ) (before : List (Flow ℚ)) (g : Flow ℚ),
      e.examined = before ++ [g] ∧ before.length = 1 ∧ Undecided decidesAtTwo before ∧
      Decides decidesAtTwo before g "SSH" e.flow.classifiedDivergence := by
  have hyields : (Flow.new decidesAtTwo Flow.oneByte fun _ => 0).YieldsEachOnce decidesAtTwo :=
    List.Perm.of_eq rfl
  have hlife := fun n => exists_of_exec (FlowHistory.call decidesAtTwo) (fun _ _ => True)
    (FlowHistory.start (Flow.new decidesAtTwo Flow.oneByte fun _ => 0)) (oneByteCalls n)
  obtain ⟨e, he, hseen⟩ := hlife 1 (fun e => decide (e.examined.length = 1) &&
    !e.flow.flowClassified && decide (e.flow.bestMatchProtocol = "SSH")) (by decide +kernel)
  obtain ⟨e', he', hseen'⟩ := hlife 2 (fun e => decide (e.examined.length = 2) &&
    e.flow.flowClassified && decide (e.flow.classifiedProtocol = "SSH")) (by decide +kernel)
  simp only [Bool.and_eq_true, Bool.not_eq_true', decide_eq_true_eq] at hseen hseen'
  obtain ⟨⟨hone, hopen⟩, hbest⟩ := hseen
  obtain ⟨⟨htwo, hclass⟩, hname⟩ := hseen'
  obtain ⟨hmin, hundecided⟩ := (matched_of_run rfl hyields he).2.1 hopen
  obtain ⟨before, g, hsplit, hbefore, hdecides⟩ := (matched_of_run rfl hyields he').2.2 hclass
  rw [hbest] at hmin
  rw [hname] at hdecides
  rw [hsplit, List.length_append, List.length_singleton] at htwo
  exact ⟨⟨e, hone, hmin, hundecided⟩, e', before, g, hsplit, by omega, hbefore, hdecides⟩

/-! ## Two orders of the models -/

/-- Two programs that differ in the order of their models. -/
structure Reordered (S S' : Setup R) : Prop where
  config : S'.config = S.config
  factory : S'.factory = S.factory
  murmur : S'.murmur = S.murmur
  definingLimit : S'.database.definingLimit = S.database.definingLimit
  cutoffLimit : S'.database.cutoffLimit = S.database.cutoffLimit
  models : S'.database.protocolModelOrder.Perm S.database.protocolModelOrder

omit [Double R] in
theorem atPos_zero (db : ProtocolModelDb R) :
    (List.range db.size).filterMap (fun i => db.atPos i 0) = db.protocolModelOrder := by
  have hwalk := congrArg (List.filterMap id) (Keyed.map_getElem?_range db.protocolModelOrder)
  rw [List.filterMap_map, List.filterMap_map] at hwalk
  exact hwalk.trans List.filterMap_some

namespace Flow

/-- What the matching writes, besides the flag. -/
structure Result (R : Type) where
  classifiedProtocol : String
  classifiedDivergence : R
  bestMatchDivergence : R
  bestMatchProtocol : String

/-- The flow with another result. -/
def withResult (f : Flow R) (r : Result R) : Flow R :=
  { f with
    classifiedProtocol := r.classifiedProtocol
    classifiedDivergence := r.classifiedDivergence
    bestMatchDivergence := r.bestMatchDivergence
    bestMatchProtocol := r.bestMatchProtocol }

omit [Double R] in
@[simp] theorem withResult_flowClassified (f : Flow R) (r : Result R) :
    (f.withResult r).flowClassified = f.flowClassified := rfl

omit [Double R] in
@[simp] theorem withResult_pktCount (f : Flow R) (r : Result R) :
    (f.withResult r).pktCount = f.pktCount := rfl

omit [Double R] in
theorem advance_withResult (f : Flow R) (r : Result R) (p : IPv4Packet) :
    (f.withResult r).advance p = ((f.advance p).1.withResult r, (f.advance p).2) :=
  advance_comm (·.withResult r) (fun _ => rfl) (fun _ => rfl) (fun _ => rfl) (fun _ => rfl)
    (fun _ _ => rfl) (fun _ => rfl) f

variable {S' : Setup R}

/-- Neither the result nor the order of the models decides whether a packet is examined. -/
theorem examined_withResult (hdb : S'.database.cutoffLimit = S.database.cutoffLimit) (f : Flow R)
    (r : Result R) (p : IPv4Packet) :
    (f.withResult r).examined S' p = (f.examined S p).map (·.withResult r) := by
  unfold examined
  rw [advance_withResult, hdb]
  generalize f.advance p = stage
  obtain ⟨f', returned⟩ := stage
  cases returned with
  | true => rfl
  | false =>
    have hcount : (f'.withResult r).countPacket p = (f'.countPacket p).withResult r := rfl
    simp only [hcount, withResult_flowClassified, withResult_pktCount]
    (repeat' split) <;> rfl

/-- A packet that is not examined does not see the result. -/
theorem addPacket_withResult (hdb : S'.database.cutoffLimit = S.database.cutoffLimit) {f : Flow R}
    {r : Result R} {p : IPv4Packet} (h : f.examined S p = none) :
    (f.withResult r).addPacket S' p = (f.addPacket S p).withResult r := by
  unfold examined at h
  unfold addPacket addDataPacket
  rw [advance_withResult, hdb]
  generalize f.advance p = stage at h ⊢
  obtain ⟨f', returned⟩ := stage
  cases returned with
  | true => rfl
  | false =>
    have hcount : (f'.withResult r).countPacket p = (f'.countPacket p).withResult r := rfl
    simp only [hcount, withResult_flowClassified, withResult_pktCount] at h ⊢
    split at h
    next hbare =>
      rw [if_pos hbare, if_pos hbare]
    next hdata =>
      rw [if_neg hdata, if_neg hdata]
      split at h
      next hclass =>
        rw [if_pos hclass, if_pos hclass]
        rfl
      next hopen =>
        rw [if_neg hopen, if_neg hopen]
        split at h
        next hlimit =>
          rw [if_pos hlimit, if_pos hlimit]
          rfl
        next => cases h

/-- The matching writes the result and the flag. -/
theorem classify_withResult (f : Flow R) :
    ∃ r, f.classify S =
      { f.withResult r with flowClassified := (f.classify S).flowClassified } := by
  obtain ⟨_, protocol, divergence, bestDivergence, bestProtocol, h⟩ := classify_frame S f
  rw [h]
  exact ⟨⟨protocol, divergence, bestDivergence, bestProtocol⟩, rfl⟩

/-- Before the defining limit the matching leaves a flow that goes on as it would without it. -/
theorem examined_after [IsTrans R (· < ·)] (hmode : S.config.learningMode = false) {f g : Flow R}
    {p : IPv4Packet} (hg : f.examined S p = some g) (hlimit : g.pktCount < S.database.definingLimit)
    (q : IPv4Packet) :
    (f.addPacket S p).flowClassified = false ∧
      ∃ r, (f.addPacket S p).examined S q = (g.examined S q).map (·.withResult r) := by
  have hopen := (examined_sameResult hg).2
  have hstill : (g.classify S).flowClassified = false := by
    refine Bool.eq_false_iff.mpr fun hclass => ?_
    rw [classify_flowClassified_iff hmode hopen] at hclass
    rcases hclass with ⟨hreached, -⟩ | ⟨-, hreached, -⟩
    · exact absurd hlimit (UInt32.not_lt.mpr hreached)
    · exact absurd hlimit (UInt32.not_lt.mpr (UInt32.le_of_eq hreached.symm))
  obtain ⟨r, hr⟩ := classify_withResult (S := S) g
  have hkept : g.classify S = g.withResult r := by
    rw [hr, hstill, ← hopen]
    rfl
  rw [addPacket_of_examined hg, hkept]
  exact ⟨hopen, r, examined_withResult rfl g r q⟩

/-- The flow under another order of the models: at most the result differs, and as long as there is
none, the best match is equally good. -/
def SameButResult (f g : Flow R) : Prop :=
  ∃ r, g = f.withResult r ∧ (f.flowClassified = false →
    r.bestMatchDivergence = f.bestMatchDivergence ∧ CanBeBest f.bestMatchDivergence)

theorem SameButResult.new (p : IPv4Packet) (stale : FirstBytes) :
    SameButResult (Flow.new S p stale) (Flow.new S p stale) :=
  ⟨⟨"", 0, ((100 : Nat) : R), ""⟩, rfl, fun _ => ⟨rfl, Or.inr rfl⟩⟩

omit [Double R] in
/-- Without port hints, the same models are looked at. -/
theorem looksAt_reordered (h : Reordered S S') (hhints : S.config.usePortHints = false)
    (f : Flow R) : (f.looksAt S').Perm (f.looksAt S) := by
  have hport : f.hintPort S = 0 := by
    unfold hintPort
    rw [hhints, if_neg Bool.false_ne_true]
  have hport' : f.hintPort S' = 0 := by
    unfold hintPort
    rw [h.config, hhints, if_neg Bool.false_ne_true]
  unfold looksAt modelsAt
  rw [hport, hport', atPos_zero, atPos_zero]
  exact h.models.filter _

/-- What the models offer is the same, in another order. -/
theorem offers_reordered (h : Reordered S S') (hhints : S.config.usePortHints = false) (f : Flow R)
    (r : Result R) : ((f.withResult r).offers S').Perm (f.offers S) :=
  ((looksAt_reordered h hhints f).filter fun pm => decide (0 < f.klDivergence pm)).map
    fun pm => (f.klDivergence pm, pm.name)

/-- The best match of a flow that stays unclassified. -/
theorem classify_best {f : Flow R} (hmode : S.config.learningMode = false)
    (hopen : f.flowClassified = false) (hstill : (f.classify S).flowClassified = false) :
    (f.classify S).bestMatchDivergence = ((f.offers S).foldl (keepBetter Prod.fst)
      (f.bestMatchDivergence, f.bestMatchProtocol)).1 := by
  rcases classify_first hmode hopen rfl with ⟨-, pm, -, -, -, -, best, heq⟩ | ⟨-, heq⟩
  · rw [heq] at hstill
    exact absurd hstill.symm Bool.false_ne_true
  · rw [heq] at hstill ⊢
    split at hstill
    next => exact absurd hstill.symm Bool.false_ne_true
    next hserves =>
      rw [if_neg hserves]
      rfl

/-- **One examined packet under two orders.** -/
theorem classify_reordered [OrdersBest R] (h : Reordered S S')
    (hhints : S.config.usePortHints = false) {f : Flow R} (hopen : f.flowClassified = false)
    {r : Result R} (hbest : r.bestMatchDivergence = f.bestMatchDivergence)
    (hheld : CanBeBest f.bestMatchDivergence) :
    SameButResult (f.classify S) ((f.withResult r).classify S') := by
  have hopen' : (f.withResult r).flowClassified = false := hopen
  obtain ⟨s, hs⟩ := classify_withResult (S := S) f
  obtain ⟨s', hs'⟩ := classify_withResult (S := S') (f.withResult r)
  have hmodels := looksAt_reordered h hhints f
  -- the flags agree, since neither test looks at the order
  have hflag : ((f.withResult r).classify S').flowClassified = (f.classify S).flowClassified := by
    cases hmode : S.config.learningMode with
    | true =>
      rw [classify_of_learning hmode, classify_of_learning (h.config ▸ hmode)]
      rfl
    | false =>
      have hmode' : S'.config.learningMode = false := h.config ▸ hmode
      rw [Bool.eq_iff_iff, classify_flowClassified_iff hmode hopen,
        classify_flowClassified_iff hmode' hopen']
      refine or_congr (and_congr ?_ ⟨?_, ?_⟩) ?_
      · rw [h.definingLimit, withResult_pktCount]
      · rintro ⟨pm, hpm, hpos, hbelow⟩
        exact ⟨pm, hmodels.mem_iff.mp hpm, hpos, h.config ▸ hbelow⟩
      · rintro ⟨pm, hpm, hpos, hbelow⟩
        exact ⟨pm, hmodels.mem_iff.mpr hpm, hpos, h.config.symm ▸ hbelow⟩
      · unfold BestMatchServes
        rw [h.config, h.definingLimit, withResult_pktCount]
        exact and_congr_right fun _ => and_congr_right fun _ => by
          rw [show (f.withResult r).bestMatchDivergence = f.bestMatchDivergence from hbest]
  refine ⟨s', ?_, fun hstill => ?_⟩
  · rw [hs', hflag, hs]
    rfl
  · have hstill' : ((f.withResult r).classify S').flowClassified = false := hflag.trans hstill
    have hbest' : s'.bestMatchDivergence =
        ((f.withResult r).classify S').bestMatchDivergence :=
      (congrArg Flow.bestMatchDivergence hs').symm
    rw [hbest']
    cases hmode : S.config.learningMode with
    | true =>
      rw [classify_of_learning hmode, classify_of_learning (h.config ▸ hmode)]
      exact ⟨hbest, hheld⟩
    | false =>
      -- both hold a first minimum of the same offers
      have hoffers : ∀ x ∈ (f.bestMatchDivergence, f.bestMatchProtocol) :: f.offers S,
          CanBeBest x.1 :=
        List.forall_mem_cons.mpr ⟨hheld, fun _ => canBeBest_of_mem_offers⟩
      have hheld' : CanBeBest (f.withResult r).bestMatchDivergence := by
        rw [show (f.withResult r).bestMatchDivergence = f.bestMatchDivergence from hbest]
        exact hheld
      have hoffers' : ∀ x ∈ ((f.withResult r).bestMatchDivergence,
          (f.withResult r).bestMatchProtocol) :: (f.withResult r).offers S', CanBeBest x.1 :=
        List.forall_mem_cons.mpr ⟨hheld', fun _ => canBeBest_of_mem_offers⟩
      have hmin := FirstMin.foldl (allComparable_of_canBeBest hoffers)
      rw [classify_best hmode hopen hstill, classify_best (h.config ▸ hmode) hopen' hstill']
      refine ⟨FirstMin.cost_eq (FirstMin.foldl (allComparable_of_canBeBest hoffers')) hmin
        (allComparable_of_canBeBest hoffers') ?_, hoffers _ hmin.mem⟩
      rw [List.map_cons, List.map_cons, show ((f.withResult r).bestMatchDivergence,
        (f.withResult r).bestMatchProtocol).1 = f.bestMatchDivergence from hbest]
      exact ((offers_reordered h hhints f r).map Prod.fst).cons _

/-- **One packet under two orders.** -/
theorem addPacket_reordered [OrdersBest R] (h : Reordered S S')
    (hhints : S.config.usePortHints = false) {f g : Flow R} (hsame : SameButResult f g)
    (p : IPv4Packet) : SameButResult (f.addPacket S p) (g.addPacket S' p) := by
  obtain ⟨r, rfl, hbest⟩ := hsame
  cases hexamined : f.examined S p with
  | none =>
    refine ⟨r, addPacket_withResult h.cutoffLimit hexamined, fun hopen => ?_⟩
    have hkept := addPacket_sameResult hexamined
    rw [hkept.bestMatchDivergence]
    exact hbest (hkept.flowClassified ▸ hopen)
  | some k =>
    obtain ⟨hkept, hopen⟩ := examined_sameResult hexamined
    have hexamined' : (f.withResult r).examined S' p = some (k.withResult r) := by
      rw [examined_withResult h.cutoffLimit, hexamined, Option.map_some]
    rw [addPacket_of_examined hexamined, addPacket_of_examined hexamined']
    obtain ⟨hsame, hheld⟩ := hbest (hkept.flowClassified ▸ hopen)
    rw [← hkept.bestMatchDivergence] at hsame hheld
    exact classify_reordered h hhints hopen hsame hheld

/-- A flow that is given packets. -/
def addPackets (S : Setup R) (f : Flow R) (packets : List IPv4Packet) : Flow R :=
  packets.foldl (fun f p => f.addPacket S p) f

theorem addPackets_reordered [OrdersBest R] (h : Reordered S S')
    (hhints : S.config.usePortHints = false) {f g : Flow R} (hsame : SameButResult f g)
    (packets : List IPv4Packet) :
    SameButResult (f.addPackets S packets) (g.addPackets S' packets) := by
  induction packets generalizing f g with
  | nil => exact hsame
  | cons p packets ih => exact ih (addPacket_reordered h hhints hsame p)

omit [Double R] in
theorem new_reordered [Double R] (h : Reordered S S') (p : IPv4Packet) (stale : FirstBytes) :
    Flow.new S' p stale = Flow.new S p stale := by
  unfold Flow.new Setup.flowHash
  rw [h.factory, h.murmur]

end Flow

/-- **Detection does not depend on the order of the models.** Under two databases with the same
models in different orders, and without port hints, a flow is classified after the same packet of
every sequence or under neither; as long as it is not, its best match is as good under the one as
under the other. -/
theorem classified_reordered [OrdersBest R] {S' : Setup R} (h : Reordered S S')
    (hhints : S.config.usePortHints = false) (p : IPv4Packet) (stale : FirstBytes)
    (packets : List IPv4Packet) (n : Nat) :
    ((Flow.new S p stale).addPackets S (packets.take n)).flowClassified =
        ((Flow.new S' p stale).addPackets S' (packets.take n)).flowClassified ∧
      (((Flow.new S p stale).addPackets S (packets.take n)).flowClassified = false →
        ((Flow.new S p stale).addPackets S (packets.take n)).bestMatchDivergence =
          ((Flow.new S' p stale).addPackets S' (packets.take n)).bestMatchDivergence) := by
  obtain ⟨r, heq, hbest⟩ := Flow.addPackets_reordered h hhints
    (Flow.SameButResult.new p stale) (packets.take n)
  rw [Flow.new_reordered h, heq]
  exact ⟨rfl, fun hopen => (hbest hopen).1.symm⟩

/-- A program without port hints that knows some protocols, all by the size of their first packet.
-/
def knowsBySize (names : List String) : Setup ℚ :=
  { Flow.bySize (1 / 2) with
    config := { (CommonConfig.initial : CommonConfig ℚ) with usePortHints := false }
    database :=
      { Flow.sizeDatabase (1 / 2) with
        protocolModelOrder := names.flatMap fun name =>
          (Flow.sizeDatabase (1 / 2)).protocolModelOrder.map fun pm => { pm with name := name } } }

theorem reordered_knowsBySize {names names' : List String} (h : names'.Perm names) :
    Reordered (knowsBySize names) (knowsBySize names') where
  config := rfl
  factory := rfl
  murmur := rfl
  definingLimit := rfl
  cutoffLimit := rfl
  models := h.flatMap_right _

/-- The two orders agree that the flow is known, and not on what it is. -/
theorem knowsBySize_classified :
    ((Flow.new (knowsBySize ["DNS", "SSH"]) Flow.oneByte fun _ => 0).addPackets
        (knowsBySize ["DNS", "SSH"]) [Flow.oneByte]).flowClassified =
      ((Flow.new (knowsBySize ["SSH", "DNS"]) Flow.oneByte fun _ => 0).addPackets
        (knowsBySize ["SSH", "DNS"]) [Flow.oneByte]).flowClassified ∧
    ((Flow.new (knowsBySize ["DNS", "SSH"]) Flow.oneByte fun _ => 0).addPackets
        (knowsBySize ["DNS", "SSH"]) [Flow.oneByte]).classifiedProtocol = "DNS" ∧
    ((Flow.new (knowsBySize ["SSH", "DNS"]) Flow.oneByte fun _ => 0).addPackets
        (knowsBySize ["SSH", "DNS"]) [Flow.oneByte]).classifiedProtocol = "SSH" := by
  have hperm : ["SSH", "DNS"].Perm ["DNS", "SSH"] := List.Perm.swap _ _ _
  exact ⟨(classified_reordered (reordered_knowsBySize hperm) rfl Flow.oneByte (fun _ => 0)
    [Flow.oneByte] 1).1, by decide +kernel, by decide +kernel⟩

end Vsid
