import Mathlib.Order.Defs.Unbundled
import Vsid.Laws.Classification
import Vsid.Lib.Run

/-!
# What a classification rests on

A flow is created and then changed by the calls that the manager makes of it. `FlowHistory` is a
flow together with what the matching has been shown of it so far, and `FlowHistory.call` is one
call. `Supported` says that the running best match and the result of a flow come from models that
were compared with it: it holds over every run in which the value that the best match starts with
never becomes the result (`classified_of_run`).
-/

set_option autoImplicit false

namespace Vsid

/-- What the manager does to a flow. -/
inductive FlowCall where
  | addPacket (p : IPv4Packet)
  | setFinishedAndNotified
  | incPktsInQueue
  | decPktsInQueue
  | threadQueueId (q : Int)

/-- A flow, and the flows that were matched on the way to it. -/
structure FlowHistory (R : Type) where
  flow : Flow R
  examined : List (Flow R)

variable {R : Type} [Double R]

namespace FlowHistory

/-- A flow that was just created. -/
def start (f : Flow R) : FlowHistory R := { flow := f, examined := [] }

/-- One call. -/
def call (S : Setup R) (e : FlowHistory R) : FlowCall → Option (FlowHistory R)
  | .addPacket p =>
    some { flow := e.flow.addPacket S p, examined := e.examined ++ (e.flow.examined S p).toList }
  | .setFinishedAndNotified => some { e with flow := e.flow.setFinishedAndNotified }
  | .incPktsInQueue => some { e with flow := e.flow.incPktsInQueue }
  | .decPktsInQueue => some { e with flow := e.flow.decPktsInQueue }
  | .threadQueueId q => some { e with flow := { e.flow with threadQueueId := q } }

end FlowHistory

namespace Flow

/-- The flow is matched at the defining limit, no model fits, none was ever better than the value
that the best match starts with, and that value is below the threshold. -/
def SeedServes (S : Setup R) (f : Flow R) (p : IPv4Packet) : Prop :=
  S.config.learningMode = false ∧ ∃ g, f.examined S p = some g ∧
    (∀ pm ∈ g.looksAt S, ¬ g.Fits S pm) ∧ f.bestMatchDivergence = ((100 : Nat) : R) ∧
    g.BestMatchServes S

/-- The call does not turn the starting value of the best match into a result. -/
def Seedless (S : Setup R) (e : FlowHistory R) : FlowCall → Prop
  | .addPacket p => ¬ e.flow.SeedServes S p
  | _ => True

omit [Double R] in
theorem mem_looksAt {S : Setup R} {f : Flow R} {pm : ProtocolModel R} (h : pm ∈ f.looksAt S) :
    pm ∈ S.database.protocolModelOrder ∧ pm.enabled = true := by
  obtain ⟨hmem, hon⟩ := List.mem_filter.mp h
  obtain ⟨i, -, hat⟩ := List.mem_filterMap.mp hmem
  refine ⟨?_, hon⟩
  unfold ProtocolModelDb.atPos at hat
  split at hat
  · exact List.mem_of_getElem? hat
  · split at hat
    · obtain ⟨j, -, hj⟩ := Option.bind_eq_some_iff.mp hat
      exact List.mem_of_getElem? hj
    · exact List.mem_of_getElem? hat

end Flow

/-! ## Support -/

/-- The name and the divergence are those of a model that was compared with a flow of the list. -/
def Compared (S : Setup R) (examined : List (Flow R)) (name : String) (d : R) : Prop :=
  ∃ g ∈ examined, ∃ pm ∈ g.looksAt S, pm.name = name ∧ g.klDivergence pm = d ∧ 0 < d

/-- The result was given to a flow of the list, at or above the defining limit. -/
def Given (S : Setup R) (examined : List (Flow R)) (name : String) (d : R) : Prop :=
  ∃ g ∈ examined, S.database.definingLimit ≤ g.pktCount ∧ g.flowClassified = false ∧
    (g.classify S).flowClassified = true ∧ (g.classify S).classifiedProtocol = name ∧
    (g.classify S).classifiedDivergence = d

/-- Where the best match and the result of a flow come from. -/
structure Supported (S : Setup R) (e : FlowHistory R) : Prop where
  best : e.flow.bestMatchDivergence = ((100 : Nat) : R) ∨
    Compared S e.examined e.flow.bestMatchProtocol e.flow.bestMatchDivergence
  compared : e.flow.flowClassified = true →
    Compared S e.examined e.flow.classifiedProtocol e.flow.classifiedDivergence
  below : e.flow.flowClassified = true →
    e.flow.classifiedDivergence < S.config.divergenceThreshold
  given : e.flow.flowClassified = true →
    Given S e.examined e.flow.classifiedProtocol e.flow.classifiedDivergence

section Support

variable {S : Setup R}

theorem Compared.append {examined : List (Flow R)} {name : String} {d : R}
    (h : Compared S examined name d) (more : List (Flow R)) :
    Compared S (examined ++ more) name d := by
  obtain ⟨g, hg, hrest⟩ := h
  exact ⟨g, List.mem_append_left more hg, hrest⟩

theorem Given.append {examined : List (Flow R)} {name : String} {d : R}
    (h : Given S examined name d) (more : List (Flow R)) : Given S (examined ++ more) name d := by
  obtain ⟨g, hg, hrest⟩ := h
  exact ⟨g, List.mem_append_left more hg, hrest⟩

theorem supported_start (p : IPv4Packet) (stale : FirstBytes) :
    Supported S (FlowHistory.start (Flow.new S p stale)) where
  best := Or.inl rfl
  compared h := absurd h Bool.false_ne_true
  below h := absurd h Bool.false_ne_true
  given h := absurd h Bool.false_ne_true

/-- A call that leaves the result and the best match alone leaves their support. -/
theorem Supported.same {e : FlowHistory R} (h : Supported S e) {f : Flow R}
    (hsame : e.flow.SameResult f) (more : List (Flow R)) :
    Supported S { flow := f, examined := e.examined ++ more } where
  best := by
    rw [hsame.bestMatchDivergence, hsame.bestMatchProtocol]
    exact h.best.imp_right fun hbest => hbest.append more
  compared hclass := by
    rw [hsame.classifiedProtocol, hsame.classifiedDivergence]
    exact (h.compared (hsame.flowClassified ▸ hclass)).append more
  below hclass := by
    rw [hsame.classifiedDivergence]
    exact h.below (hsame.flowClassified ▸ hclass)
  given hclass := by
    rw [hsame.classifiedProtocol, hsame.classifiedDivergence]
    exact (h.given (hsame.flowClassified ▸ hclass)).append more

/-- A flow that was matched keeps its support, unless the starting value of the best match
serves. -/
theorem Supported.classify [IsTrans R (· < ·)] {e : FlowHistory R} (h : Supported S e)
    {p : IPv4Packet} {g : Flow R} (hexamined : e.flow.examined S p = some g)
    (hmode : S.config.learningMode = false) (hseed : ¬ e.flow.SeedServes S p) :
    Supported S { flow := g.classify S, examined := e.examined ++ [g] } := by
  obtain ⟨hsame, hopen⟩ := Flow.examined_sameResult hexamined
  obtain ⟨best, hafter, hcases⟩ := Flow.classify_cases (S := S) hmode hopen
  have hmem : g ∈ e.examined ++ [g] := List.mem_append_right _ List.mem_cons_self
  have hbest : best.1 = ((100 : Nat) : R) ∨ Compared S (e.examined ++ [g]) best.2 best.1 := by
    rcases hafter with rfl | ⟨pm, hpm, rfl, hpos⟩
    · rw [hsame.bestMatchDivergence, hsame.bestMatchProtocol]
      exact h.best.imp_right fun hold => hold.append [g]
    · exact Or.inr ⟨g, hmem, pm, hpm, rfl, rfl, hpos⟩
  have hgiven : ∀ {name : String} {d : R}, S.database.definingLimit ≤ g.pktCount →
      (∃ best', g.classify S = (g.setBestMatch best').classifyAs name d) →
      Given S (e.examined ++ [g]) name d := by
    rintro name d hlimit ⟨best', heq⟩
    exact ⟨g, hmem, hlimit, hopen, by rw [heq]; rfl, by rw [heq]; rfl, by rw [heq]; rfl⟩
  rcases hcases with ⟨pm, hpm, haccept, heq⟩ | ⟨hnone, ⟨hserves, heq⟩ | heq⟩
  · obtain ⟨hlimit, hpos, hbelow⟩ := Flow.accepts_iff.mp haccept
    have hresult := hgiven hlimit ⟨best, heq⟩
    rw [heq]
    exact ⟨hbest, fun _ => ⟨g, hmem, pm, hpm, rfl, rfl, hpos⟩, fun _ => hbelow, fun _ => hresult⟩
  · have hlimit : S.database.definingLimit ≤ g.pktCount := UInt32.le_of_eq hserves.2.1.symm
    have hresult := hgiven hlimit ⟨best, heq⟩
    have hcompared : Compared S (e.examined ++ [g]) best.2 best.1 := by
      rcases hafter with rfl | ⟨pm, hpm, rfl, hpos⟩
      · rw [hsame.bestMatchDivergence, hsame.bestMatchProtocol]
        refine (h.best.resolve_left fun hstart => hseed ?_).append [g]
        have hfits : ∀ pm ∈ g.looksAt S, ¬ g.Fits S pm := by
          intro pm hpm hfit
          have haccept := Flow.accepts_iff.mpr ⟨hlimit, hfit⟩
          rw [hnone pm hpm] at haccept
          exact Bool.false_ne_true haccept
        exact ⟨hmode, g, hexamined, hfits, hstart, hserves⟩
      · exact ⟨g, hmem, pm, hpm, rfl, rfl, hpos⟩
    rw [heq]
    exact ⟨hbest, fun _ => hcompared, fun _ => hserves.2.2, fun _ => hresult⟩
  · rw [heq]
    have hstill : (g.setBestMatch best).flowClassified ≠ true := by
      rw [Flow.setBestMatch_flowClassified, hopen]
      exact Bool.false_ne_true
    exact ⟨hbest, fun hclass => absurd hclass hstill, fun hclass => absurd hclass hstill,
      fun hclass => absurd hclass hstill⟩

/-- In learning mode the matching does nothing. -/
theorem Flow.classify_of_learning {f : Flow R} (hmode : S.config.learningMode = true) :
    f.classify S = f := by
  unfold Flow.classify
  rw [hmode, Bool.not_true, Bool.false_and, if_neg Bool.false_ne_true]

/-- **One call.** -/
theorem Supported.call [IsTrans R (· < ·)] {e e' : FlowHistory R} (h : Supported S e)
    {c : FlowCall} (hseed : Flow.Seedless S e c) (hcall : e.call S c = some e') :
    Supported S e' := by
  cases c with
  | addPacket p =>
    cases hcall
    cases hexamined : e.flow.examined S p with
    | none => exact h.same (Flow.addPacket_sameResult hexamined) []
    | some g =>
      rw [Flow.addPacket_of_examined hexamined]
      cases hmode : S.config.learningMode with
      | true =>
        rw [Flow.classify_of_learning hmode]
        exact h.same (Flow.examined_sameResult hexamined).1 [g]
      | false => exact h.classify hexamined hmode hseed
  | setFinishedAndNotified =>
    cases hcall
    exact ⟨h.best, h.compared, h.below, h.given⟩
  | incPktsInQueue =>
    cases hcall
    exact ⟨h.best, h.compared, h.below, h.given⟩
  | decPktsInQueue =>
    cases hcall
    exact ⟨h.best, h.compared, h.below, h.given⟩
  | threadQueueId q =>
    cases hcall
    exact ⟨h.best, h.compared, h.below, h.given⟩

/-- The calls that a manager makes of a new flow, in any order, as long as they meet the guard. -/
abbrev Lives (S : Setup R) (ok : FlowHistory R → FlowCall → Prop) (f : Flow R) :
    FlowHistory R → Prop :=
  Run (FlowHistory.call S) ok (FlowHistory.start f)

/-- **What a result rests on.** In every life of a flow in which the starting value of the best
match is never used, a classified flow carries the name of an enabled model of the database; its
divergence is positive, below the threshold and was computed for that model on a packet that was
examined; and it was classified at a packet at or above the defining limit. -/
theorem classified_of_run [IsTrans R (· < ·)] {p : IPv4Packet} {stale : FirstBytes}
    {e : FlowHistory R} (h : Lives S (Flow.Seedless S) (Flow.new S p stale) e)
    (hclass : e.flow.flowClassified = true) :
    (∃ g ∈ e.examined, ∃ pm ∈ S.database.protocolModelOrder, pm.enabled = true ∧
      pm.name = e.flow.classifiedProtocol ∧ g.klDivergence pm = e.flow.classifiedDivergence) ∧
    0 < e.flow.classifiedDivergence ∧
    e.flow.classifiedDivergence < S.config.divergenceThreshold ∧
    ∃ g ∈ e.examined, S.database.definingLimit ≤ g.pktCount ∧ g.flowClassified = false ∧
      (g.classify S).flowClassified = true ∧
      (g.classify S).classifiedProtocol = e.flow.classifiedProtocol ∧
      (g.classify S).classifiedDivergence = e.flow.classifiedDivergence := by
  have hsupported : Supported S e :=
    h.invariant (I := Supported S) (supported_start p stale)
      fun _ _ _ hold hok hcall => hold.call hok hcall
  obtain ⟨g, hg, pm, hpm, hname, hdivergence, hpos⟩ := hsupported.compared hclass
  obtain ⟨hmem, hon⟩ := Flow.mem_looksAt hpm
  exact ⟨⟨g, hg, pm, hmem, hon, hname, hdivergence⟩, hpos, hsupported.below hclass,
    hsupported.given hclass⟩

end Support

/-- The life of a flow that takes one datagram. -/
theorem oneByte_lives :
    Lives (Flow.bySize (1 / 2)) (Flow.Seedless (Flow.bySize (1 / 2)))
      (Flow.new (Flow.bySize (1 / 2)) Flow.oneByte fun _ => 0)
      { flow := (Flow.oneByteFlow (1 / 2)).addPacket (Flow.bySize (1 / 2)) Flow.oneByte
        examined :=
          ((Flow.oneByteFlow (1 / 2)).examined (Flow.bySize (1 / 2)) Flow.oneByte).toList } := by
  refine Run.tail (.addPacket Flow.oneByte) .refl ?_ rfl
  rintro ⟨-, g, hg, -, -, -, -, hbelow⟩
  rw [(Flow.examined_sameResult hg).1.bestMatchDivergence] at hbelow
  exact absurd hbelow (by decide +kernel)

theorem oneByte_classified :
    0 < ((Flow.oneByteFlow (1 / 2)).addPacket (Flow.bySize (1 / 2))
        Flow.oneByte).classifiedDivergence ∧
      ((Flow.oneByteFlow (1 / 2)).addPacket (Flow.bySize (1 / 2))
        Flow.oneByte).classifiedDivergence < 2 := by
  obtain ⟨-, hpos, hbelow, -⟩ := classified_of_run oneByte_lives (by decide +kernel)
  exact ⟨hpos, hbelow⟩

/-- The program that recognises one protocol by an exact size, with a threshold of 200. -/
def patient : Setup ℚ :=
  { Flow.bySize (1 / 1476) with
    config := { (CommonConfig.initial : CommonConfig ℚ) with divergenceThreshold := 200 } }

/-- A flow without a match is classified as the best match that there never was. -/
theorem oneByte_classified_as_nothing :
    ((Flow.new patient Flow.oneByte fun _ => 0).addPacket patient
      Flow.oneByte).flowClassified = true ∧
    ((Flow.new patient Flow.oneByte fun _ => 0).addPacket patient
      Flow.oneByte).classifiedDivergence = 100 ∧
    ∀ pm ∈ patient.database.protocolModelOrder,
      pm.name ≠ ((Flow.new patient Flow.oneByte fun _ => 0).addPacket patient
        Flow.oneByte).classifiedProtocol := by
  decide +kernel

end Vsid
