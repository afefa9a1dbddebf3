import Mathlib.Data.List.TakeWhile
import Mathlib.Order.Defs.Unbundled
import Vsid.Laws.Flow

/-!
# What the matching decides

`Flow.classify` walks the enabled models in search order, takes the first one whose divergence is
positive and below the threshold once the defining limit is reached, and otherwise keeps a running
best match that may be used at the limit. `matchModels_eq` states the walk as a search, and
`classify_flowClassified_iff` says when it classifies.

A model that fits exactly has divergence zero, and so it is never taken: `examined_classifies_iff`.
-/

set_option autoImplicit false

namespace Vsid

namespace Flow

variable {R : Type}

/-! ## The walk -/

/-- The enabled models that the loop comes to, in the order of its positions. -/
def modelsAt (S : Setup R) (f : Flow R) (positions : List Nat) : List (ProtocolModel R) :=
  (positions.filterMap fun i => S.database.atPos i (f.hintPort S)).filter (·.enabled)

/-- The enabled models that are compared with the flow. -/
def looksAt (S : Setup R) (f : Flow R) : List (ProtocolModel R) :=
  f.modelsAt S (List.range S.database.size)

theorem modelsAt_cons (S : Setup R) (f : Flow R) (i : Nat) (positions : List Nat) :
    f.modelsAt S (i :: positions) =
      match S.database.atPos i (f.hintPort S) with
      | none => f.modelsAt S positions
      | some pm => if pm.enabled then pm :: f.modelsAt S positions else f.modelsAt S positions := by
  unfold modelsAt
  rw [List.filterMap_cons]
  cases S.database.atPos i (f.hintPort S) with
  | none => rfl
  | some pm => simp only [List.filter_cons]

/-- The running best match. -/
def setBestMatch (f : Flow R) (best : R × String) : Flow R :=
  { f with bestMatchDivergence := best.1, bestMatchProtocol := best.2 }

@[simp] theorem setBestMatch_modelsAt (S : Setup R) (f : Flow R) (best : R × String)
    (positions : List Nat) : (f.setBestMatch best).modelsAt S positions = f.modelsAt S positions :=
  rfl

@[simp] theorem setBestMatch_flowClassified (f : Flow R) (best : R × String) :
    (f.setBestMatch best).flowClassified = f.flowClassified := rfl

@[simp] theorem setBestMatch_pktCount (f : Flow R) (best : R × String) :
    (f.setBestMatch best).pktCount = f.pktCount := rfl

@[simp] theorem setBestMatch_bestMatchDivergence (f : Flow R) (best : R × String) :
    (f.setBestMatch best).bestMatchDivergence = best.1 := rfl

variable [Double R]

@[simp] theorem setBestMatch_klDivergence (f : Flow R) (best : R × String)
    (pm : ProtocolModel R) : (f.setBestMatch best).klDivergence pm = f.klDivergence pm := rfl

/-- The divergence from the model is positive and below the threshold. -/
def Fits (S : Setup R) (f : Flow R) (pm : ProtocolModel R) : Prop :=
  0 < f.klDivergence pm ∧ f.klDivergence pm < S.config.divergenceThreshold

instance (S : Setup R) (f : Flow R) (pm : ProtocolModel R) : Decidable (f.Fits S pm) :=
  inferInstanceAs (Decidable (_ ∧ _))

/-- The acceptance test of the loop. -/
def accepts (S : Setup R) (f : Flow R) (pm : ProtocolModel R) : Bool :=
  decide (S.database.definingLimit ≤ f.pktCount) && decide (f.Fits S pm)

theorem accepts_iff {S : Setup R} {f : Flow R} {pm : ProtocolModel R} :
    f.accepts S pm = true ↔ S.database.definingLimit ≤ f.pktCount ∧ f.Fits S pm := by
  unfold accepts
  rw [Bool.and_eq_true, decide_eq_true_eq, decide_eq_true_eq]

/-- A model, as an improvement of the best match. -/
def better (f : Flow R) (best : R × String) (pm : ProtocolModel R) : R × String :=
  if 0 < f.klDivergence pm ∧ f.klDivergence pm < best.1 then (f.klDivergence pm, pm.name) else best

theorem updateBestMatch_eq (f : Flow R) (best : R × String) (pm : ProtocolModel R) :
    (f.setBestMatch best).updateBestMatch pm (f.klDivergence pm) =
      f.setBestMatch (f.better best pm) := by
  unfold updateBestMatch better
  rw [setBestMatch_bestMatchDivergence]
  by_cases h : 0 < f.klDivergence pm ∧ f.klDivergence pm < best.1
  · rw [if_pos h, if_pos h]
    rfl
  · rw [if_neg h, if_neg h]

/-- The outcome of the walk: the first accepted model is taken, and the best match has seen those
before it. -/
def search (S : Setup R) (f : Flow R) (best : R × String) (models : List (ProtocolModel R)) :
    Flow R :=
  let seen := models.takeWhile fun pm => !f.accepts S pm
  let g := f.setBestMatch (seen.foldl f.better best)
  match models.find? (f.accepts S) with
  | some pm => g.classifyAs pm.name (f.klDivergence pm)
  | none => g

theorem search_cons (S : Setup R) (f : Flow R) (best : R × String) (pm : ProtocolModel R)
    (models : List (ProtocolModel R)) :
    f.search S best (pm :: models) =
      if f.accepts S pm then (f.setBestMatch best).classifyAs pm.name (f.klDivergence pm)
      else f.search S (f.better best pm) models := by
  unfold search
  cases h : f.accepts S pm with
  | true =>
    simp only [List.takeWhile_cons, List.find?_cons, h, Bool.not_true, Bool.false_eq_true,
      if_false, if_true, List.foldl_nil]
  | false =>
    simp only [List.takeWhile_cons, List.find?_cons, h, Bool.not_false, Bool.false_eq_true,
      if_false, if_true, List.foldl_cons]

/-- The loop over the models is a search through those it comes to. -/
theorem matchModels_setBestMatch (S : Setup R) (f : Flow R) (best : R × String)
    (positions : List Nat) :
    (f.setBestMatch best).matchModels S positions =
      f.search S best (f.modelsAt S positions) := by
  induction positions generalizing best with
  | nil => rfl
  | cons i positions ih =>
    have hport : (f.setBestMatch best).hintPort S = f.hintPort S := rfl
    unfold matchModels
    rw [hport, modelsAt_cons]
    cases S.database.atPos i (f.hintPort S) with
    | none => exact ih best
    | some pm =>
      cases hon : pm.enabled with
      | false =>
        simp only [hon, Bool.not_false, if_true, Bool.false_eq_true, if_false]
        exact ih best
      | true =>
        have htest : (0 < (f.setBestMatch best).klDivergence pm ∧
            S.database.definingLimit ≤ (f.setBestMatch best).pktCount ∧
            (f.setBestMatch best).klDivergence pm < S.config.divergenceThreshold) ↔
            f.accepts S pm = true := by
          rw [accepts_iff, setBestMatch_klDivergence, setBestMatch_pktCount]
          exact and_left_comm
        simp only [hon, Bool.not_true, Bool.false_eq_true, if_false, if_true, htest]
        rw [search_cons]
        split
        · rfl
        · rw [setBestMatch_klDivergence, updateBestMatch_eq]
          exact ih _

theorem matchModels_eq (S : Setup R) (f : Flow R) (positions : List Nat) :
    f.matchModels S positions =
      f.search S (f.bestMatchDivergence, f.bestMatchProtocol) (f.modelsAt S positions) :=
  matchModels_setBestMatch S f (f.bestMatchDivergence, f.bestMatchProtocol) positions

/-! ## The best match -/

/-- The best match is the old one, or a model that was seen, with a smaller divergence. -/
theorem foldl_better [IsTrans R (· < ·)] (f : Flow R) (best : R × String)
    (models : List (ProtocolModel R)) :
    models.foldl f.better best = best ∨
      ∃ pm ∈ models, models.foldl f.better best = (f.klDivergence pm, pm.name) ∧
        0 < f.klDivergence pm ∧ f.klDivergence pm < best.1 := by
  induction models generalizing best with
  | nil => exact Or.inl rfl
  | cons pm models ih =>
    rw [List.foldl_cons]
    by_cases h : 0 < f.klDivergence pm ∧ f.klDivergence pm < best.1
    · have hbetter : f.better best pm = (f.klDivergence pm, pm.name) := if_pos h
      rw [hbetter]
      rcases ih (f.klDivergence pm, pm.name) with hsame | ⟨pm', hmem, heq, hpos, hlt⟩
      · exact Or.inr ⟨pm, List.mem_cons_self, hsame, h.1, h.2⟩
      · exact Or.inr ⟨pm', List.mem_cons_of_mem pm hmem, heq, hpos, trans_of (· < ·) hlt h.2⟩
    · have hsame : f.better best pm = best := if_neg h
      rw [hsame]
      rcases ih best with hsame | ⟨pm', hmem, heq, hpos, hlt⟩
      · exact Or.inl hsame
      · exact Or.inr ⟨pm', List.mem_cons_of_mem pm hmem, heq, hpos, hlt⟩

/-! ## When a flow is classified -/

/-- Classifying is the search and then, at the defining limit, the best match. -/
theorem classify_eq {S : Setup R} {f : Flow R} (hmode : S.config.learningMode = false)
    (hopen : f.flowClassified = false) :
    f.classify S =
      (f.search S (f.bestMatchDivergence, f.bestMatchProtocol) (f.looksAt S)).useBestMatch S := by
  unfold classify
  rw [hmode, hopen, Bool.not_false, Bool.and_self, if_pos rfl, matchModels_eq]
  rfl

/-- When no model is accepted, only the best match has changed. -/
theorem search_of_none {S : Setup R} {f : Flow R} {models : List (ProtocolModel R)}
    (hnone : ∀ pm ∈ models, f.accepts S pm = false) (best : R × String) :
    f.search S best models = f.setBestMatch (models.foldl f.better best) := by
  have hfind : models.find? (f.accepts S) = none := by
    rw [List.find?_eq_none]
    intro pm hpm
    rw [hnone pm hpm]
    exact Bool.false_ne_true
  have hseen : (models.takeWhile fun pm => !f.accepts S pm) = models := by
    rw [List.takeWhile_eq_self_iff]
    intro pm hpm
    rw [hnone pm hpm, Bool.not_false]
  unfold search
  simp only [hfind, hseen]

/-- The first accepted model is taken. -/
theorem search_of_some {S : Setup R} {f : Flow R} {models : List (ProtocolModel R)}
    (hsome : ∃ pm ∈ models, f.accepts S pm = true) (best : R × String) :
    ∃ pm ∈ models, f.accepts S pm = true ∧ ∃ best',
      f.search S best models =
        (f.setBestMatch best').classifyAs pm.name (f.klDivergence pm) ∧
      best' = (models.takeWhile fun pm => !f.accepts S pm).foldl f.better best := by
  obtain ⟨pm, hfind⟩ := Option.isSome_iff_exists.mp (List.find?_isSome.mpr hsome)
  refine ⟨pm, List.mem_of_find?_eq_some hfind, List.find?_some hfind, _, ?_, rfl⟩
  unfold search
  simp only [hfind]

theorem useBestMatch_of_classified {S : Setup R} {f : Flow R} (h : f.flowClassified = true) :
    f.useBestMatch S = f := by
  unfold useBestMatch
  rw [if_neg]
  rw [h]
  exact fun hbest => Bool.false_ne_true hbest.2.1

/-- The best match may be used. -/
def BestMatchServes (S : Setup R) (f : Flow R) : Prop :=
  S.config.useBestMatch = true ∧ f.pktCount = S.database.definingLimit ∧
    f.bestMatchDivergence < S.config.divergenceThreshold

instance (S : Setup R) (f : Flow R) : Decidable (f.BestMatchServes S) :=
  inferInstanceAs (Decidable (_ ∧ _ ∧ _))

theorem useBestMatch_eq {S : Setup R} {f : Flow R} (hopen : f.flowClassified = false) :
    f.useBestMatch S =
      if f.BestMatchServes S then f.classifyAs f.bestMatchProtocol f.bestMatchDivergence
      else f := by
  have hiff : (S.config.useBestMatch = true ∧ (!f.flowClassified) = true ∧
      f.pktCount = S.database.definingLimit ∧
      f.bestMatchDivergence < S.config.divergenceThreshold) ↔ f.BestMatchServes S := by
    rw [hopen]
    exact ⟨fun h => ⟨h.1, h.2.2⟩, fun h => ⟨h.1, rfl, h.2⟩⟩
  unfold useBestMatch
  simp only [hiff]

/-- Without an accepted model, the best match serves after the walk exactly when it did before. -/
theorem bestMatchServes_search [IsTrans R (· < ·)] {S : Setup R} {f : Flow R}
    {models : List (ProtocolModel R)} (hnone : ∀ pm ∈ models, f.accepts S pm = false) :
    (f.setBestMatch (models.foldl f.better
      (f.bestMatchDivergence, f.bestMatchProtocol))).BestMatchServes S ↔ f.BestMatchServes S := by
  rcases f.foldl_better (f.bestMatchDivergence, f.bestMatchProtocol) models with
    hsame | ⟨pm, hpm, heq, hpos, hlt⟩
  · rw [hsame]
    exact Iff.rfl
  · rw [heq]
    have hout : ∀ hcount : f.pktCount = S.database.definingLimit,
        ¬ f.klDivergence pm < S.config.divergenceThreshold := by
      intro hcount hbelow
      have haccept : f.accepts S pm = true :=
        accepts_iff.mpr ⟨UInt32.le_of_eq hcount.symm, hpos, hbelow⟩
      rw [hnone pm hpm] at haccept
      exact Bool.false_ne_true haccept
    constructor
    · exact fun h => absurd h.2.2 (hout h.2.1)
    · exact fun h => absurd (trans_of (· < ·) hlt h.2.2) (hout h.2.1)

/-- The best match after a walk: the one before it, or a model that was looked at and is better. -/
def BestAfter (S : Setup R) (f : Flow R) (best : R × String) : Prop :=
  best = (f.bestMatchDivergence, f.bestMatchProtocol) ∨
    ∃ pm ∈ f.looksAt S, best = (f.klDivergence pm, pm.name) ∧ 0 < f.klDivergence pm

theorem bestAfter_foldl [IsTrans R (· < ·)] {S : Setup R} {f : Flow R}
    {models : List (ProtocolModel R)} (hsub : ∀ pm ∈ models, pm ∈ f.looksAt S) :
    f.BestAfter S (models.foldl f.better (f.bestMatchDivergence, f.bestMatchProtocol)) := by
  rcases f.foldl_better (f.bestMatchDivergence, f.bestMatchProtocol) models with
    hsame | ⟨pm, hpm, heq, hpos, -⟩
  · exact Or.inl hsame
  · exact Or.inr ⟨pm, hsub pm hpm, heq, hpos⟩

/-- What the matching does to a flow: a model is accepted, or the best match is used, or the flow
stays unclassified. -/
theorem classify_cases [IsTrans R (· < ·)] {S : Setup R} {f : Flow R}
    (hmode : S.config.learningMode = false) (hopen : f.flowClassified = false) :
    ∃ best, f.BestAfter S best ∧
      ((∃ pm ∈ f.looksAt S, f.accepts S pm = true ∧
          f.classify S = (f.setBestMatch best).classifyAs pm.name (f.klDivergence pm)) ∨
        ((∀ pm ∈ f.looksAt S, f.accepts S pm = false) ∧
          ((f.setBestMatch best).BestMatchServes S ∧
              f.classify S = (f.setBestMatch best).classifyAs best.2 best.1 ∨
            f.classify S = f.setBestMatch best))) := by
  rw [classify_eq hmode hopen]
  by_cases hsome : ∃ pm ∈ f.looksAt S, f.accepts S pm = true
  · obtain ⟨pm, hpm, haccept, best, hsearch, hbest⟩ :=
      search_of_some hsome (f.bestMatchDivergence, f.bestMatchProtocol)
    refine ⟨best, ?_, Or.inl ⟨pm, hpm, haccept, ?_⟩⟩
    · rw [hbest]
      exact bestAfter_foldl fun pm' hpm' => (List.takeWhile_subset _) hpm'
    · rw [hsearch]
      exact useBestMatch_of_classified rfl
  · have hnone : ∀ pm ∈ f.looksAt S, f.accepts S pm = false := fun pm hpm =>
      Bool.eq_false_iff.mpr fun haccept => hsome ⟨pm, hpm, haccept⟩
    refine ⟨_, bestAfter_foldl fun pm hpm => hpm, Or.inr ⟨hnone, ?_⟩⟩
    rw [search_of_none hnone, useBestMatch_eq (f := f.setBestMatch _) hopen]
    split
    next hserves => exact Or.inl ⟨hserves, rfl⟩
    next => exact Or.inr rfl

/-- **When the matching classifies a flow.** -/
theorem classify_flowClassified_iff [IsTrans R (· < ·)] {S : Setup R} {f : Flow R}
    (hmode : S.config.learningMode = false) (hopen : f.flowClassified = false) :
    (f.classify S).flowClassified = true ↔
      (S.database.definingLimit ≤ f.pktCount ∧ ∃ pm ∈ f.looksAt S, f.Fits S pm) ∨
        f.BestMatchServes S := by
  rw [classify_eq hmode hopen]
  by_cases hsome : ∃ pm ∈ f.looksAt S, f.accepts S pm = true
  · obtain ⟨pm, hpm, haccept, best, hsearch, -⟩ :=
      search_of_some hsome (f.bestMatchDivergence, f.bestMatchProtocol)
    have hclass : (f.search S (f.bestMatchDivergence, f.bestMatchProtocol)
        (f.looksAt S)).flowClassified = true := by
      rw [hsearch]
      rfl
    rw [useBestMatch_of_classified hclass]
    obtain ⟨hlimit, hfits⟩ := accepts_iff.mp haccept
    exact ⟨fun _ => Or.inl ⟨hlimit, pm, hpm, hfits⟩, fun _ => hclass⟩
  · have hnone : ∀ pm ∈ f.looksAt S, f.accepts S pm = false := fun pm hpm =>
      Bool.eq_false_iff.mpr fun haccept => hsome ⟨pm, hpm, haccept⟩
    have hfits : ¬ (S.database.definingLimit ≤ f.pktCount ∧ ∃ pm ∈ f.looksAt S, f.Fits S pm) :=
      fun ⟨hlimit, pm, hpm, hfit⟩ => hsome ⟨pm, hpm, accepts_iff.mpr ⟨hlimit, hfit⟩⟩
    rw [search_of_none hnone, useBestMatch_eq (f := f.setBestMatch _) hopen]
    simp only [bestMatchServes_search hnone, hfits, false_or]
    split
    next hserves => exact ⟨fun _ => hserves, fun _ => rfl⟩
    next hserves =>
      rw [setBestMatch_flowClassified, hopen]
      exact ⟨fun heq => absurd heq Bool.false_ne_true, fun h => absurd h hserves⟩

/-! ## The packets that are examined -/

/-- The flow as the matching sees it, if the packet gets that far: it is a data packet, and the flow
is neither classified nor over the cutoff. -/
def examined (S : Setup R) (f : Flow R) (p : IPv4Packet) : Option (Flow R) :=
  match f.advance p with
  | (_, true) => none
  | (f, false) =>
    if isBareSegment p then none
    else
      let f := f.countPacket p
      if f.flowClassified then none
      else if S.database.cutoffLimit < f.pktCount then none
      else some ((f.calculate p).touch p)

/-- How far a packet gets, with the flow as the matching sees it and as the packet leaves it. -/
inductive PacketEffect (S : Setup R) (f : Flow R) (p : IPv4Packet) :
    Option (Flow R) → Flow R → Prop where
  | advanced : (f.advance p).2 = true ∨ isBareSegment p = true →
    PacketEffect S f p none (f.advance p).1
  | counted : (f.advance p).2 = false → isBareSegment p = false →
    (f.advance p).1.flowClassified = true ∨
      S.database.cutoffLimit < (f.advance p).1.pktCount + 1 →
    PacketEffect S f p none (((f.advance p).1.countPacket p).touch p)
  | examined : (f.advance p).2 = false → isBareSegment p = false →
    (f.advance p).1.flowClassified = false →
    ¬ S.database.cutoffLimit < (f.advance p).1.pktCount + 1 →
    PacketEffect S f p (some ((((f.advance p).1.countPacket p).calculate p).touch p))
      (((((f.advance p).1.countPacket p).calculate p).touch p).classify S)

/-- Every packet gets as far as one of these, and is examined when it gets to the matching. -/
theorem addPacket_effect (S : Setup R) (f : Flow R) (p : IPv4Packet) :
    PacketEffect S f p (f.examined S p) (f.addPacket S p) := by
  have hadvanced := PacketEffect.advanced (S := S) (f := f) (p := p)
  have hcounted := PacketEffect.counted (S := S) (f := f) (p := p)
  have hexamined := PacketEffect.examined (S := S) (f := f) (p := p)
  unfold Flow.examined addPacket addDataPacket
  generalize f.advance p = stage at hadvanced hcounted hexamined ⊢
  obtain ⟨f', returned⟩ := stage
  cases returned with
  | true => exact hadvanced (Or.inl rfl)
  | false =>
    cases hbare : isBareSegment p with
    | true => exact hadvanced (Or.inr hbare)
    | false =>
      simp only [Bool.false_eq_true, if_false]
      split
      next hclassified => exact hcounted rfl hbare (Or.inl hclassified)
      next hopen =>
        split
        next hcutoff => exact hcounted rfl hbare (Or.inr hcutoff)
        next hcutoff => exact hexamined rfl hbare (Bool.eq_false_iff.mpr hopen) hcutoff

/-- A packet that is examined is what the matching is about. -/
theorem addPacket_of_examined {S : Setup R} {f g : Flow R} {p : IPv4Packet}
    (h : f.examined S p = some g) : f.addPacket S p = g.classify S := by
  have heffect := addPacket_effect S f p
  rw [h] at heffect
  generalize f.addPacket S p = f' at heffect ⊢
  cases heffect with
  | examined => rfl

theorem eq_of_examined {S : Setup R} {f g : Flow R} {p : IPv4Packet}
    (h : f.examined S p = some g) :
    (f.advance p).1.flowClassified = false ∧
      g = (((f.advance p).1.countPacket p).calculate p).touch p := by
  have heffect := addPacket_effect S f p
  rw [h] at heffect
  generalize f.addPacket S p = f' at heffect
  cases heffect with
  | examined _ _ hopen => exact ⟨hopen, rfl⟩

/-- A packet that is not examined is counted at most. -/
theorem addPacket_of_not_examined {S : Setup R} {f : Flow R} {p : IPv4Packet}
    (h : f.examined S p = none) :
    f.addPacket S p = (f.advance p).1 ∨
      f.addPacket S p = ((f.advance p).1.countPacket p).touch p := by
  have heffect := addPacket_effect S f p
  rw [h] at heffect
  generalize f.addPacket S p = f' at heffect ⊢
  cases heffect with
  | advanced => exact Or.inl rfl
  | counted => exact Or.inr rfl

/-- The result and the best match are what they were. -/
structure SameResult (f g : Flow R) : Prop where
  flowClassified : g.flowClassified = f.flowClassified
  classifiedProtocol : g.classifiedProtocol = f.classifiedProtocol
  classifiedDivergence : g.classifiedDivergence = f.classifiedDivergence
  bestMatchDivergence : g.bestMatchDivergence = f.bestMatchDivergence
  bestMatchProtocol : g.bestMatchProtocol = f.bestMatchProtocol

omit [Double R] in
theorem SameResult.trans {f g k : Flow R} (h : SameResult f g) (h' : SameResult g k) :
    SameResult f k :=
  ⟨h'.1.trans h.1, h'.2.trans h.2, h'.3.trans h.3, h'.4.trans h.4, h'.5.trans h.5⟩

omit [Double R] in
theorem advance_sameResult (f : Flow R) (p : IPv4Packet) : SameResult f (f.advance p).1 := by
  obtain ⟨_, _, _, h⟩ := advance_frame f p
  rw [h]
  exact ⟨rfl, rfl, rfl, rfl, rfl⟩

/-- What the matching sees was not classified, and has the best match of the flow. -/
theorem examined_sameResult {S : Setup R} {f g : Flow R} {p : IPv4Packet}
    (h : f.examined S p = some g) : SameResult f g ∧ g.flowClassified = false := by
  obtain ⟨hopen, rfl⟩ := eq_of_examined h
  exact ⟨(advance_sameResult f p).trans ⟨rfl, rfl, rfl, rfl, rfl⟩, hopen⟩

/-- A packet that is not examined leaves the result and the best match alone. -/
theorem addPacket_sameResult {S : Setup R} {f : Flow R} {p : IPv4Packet}
    (h : f.examined S p = none) : SameResult f (f.addPacket S p) := by
  have hadvance := advance_sameResult f p
  rcases addPacket_of_not_examined h with heq | heq <;> rw [heq]
  · exact hadvance
  · exact hadvance.trans ⟨rfl, rfl, rfl, rfl, rfl⟩

/-! ## The counters -/

/-- Every packet counts. -/
theorem addPacket_overallPktCount (S : Setup R) (f : Flow R) (p : IPv4Packet) :
    (f.addPacket S p).overallPktCount = f.overallPktCount + 1 := by
  have hadvance : (f.advance p).1.overallPktCount = f.overallPktCount + 1 := by
    obtain ⟨_, _, _, h⟩ := advance_frame f p
    rw [h]
  cases hexamined : f.examined S p with
  | none => rcases addPacket_of_not_examined hexamined with heq | heq <;> rw [heq] <;> exact hadvance
  | some g =>
    obtain ⟨-, rfl⟩ := eq_of_examined hexamined
    obtain ⟨_, _, _, _, _, h⟩ :=
      classify_frame S ((((f.advance p).1.countPacket p).calculate p).touch p)
    rw [addPacket_of_examined hexamined, h]
    exact hadvance

omit [Double R] in
theorem advance_pktCount (f : Flow R) (p : IPv4Packet) : (f.advance p).1.pktCount = f.pktCount := by
  obtain ⟨_, _, _, h⟩ := advance_frame f p
  rw [h]

/-- An examined packet is one data packet more. -/
theorem examined_pktCount {S : Setup R} {f g : Flow R} {p : IPv4Packet}
    (h : f.examined S p = some g) : g.pktCount = f.pktCount + 1 := by
  obtain ⟨-, rfl⟩ := eq_of_examined h
  exact congrArg (· + 1) (advance_pktCount f p)

/-- Other packets need not be data packets. -/
theorem addPacket_pktCount (S : Setup R) (f : Flow R) (p : IPv4Packet) :
    (f.addPacket S p).pktCount = f.pktCount ∨ (f.addPacket S p).pktCount = f.pktCount + 1 := by
  have hadvance := advance_pktCount f p
  cases hexamined : f.examined S p with
  | none =>
    rcases addPacket_of_not_examined hexamined with heq | heq <;> rw [heq]
    · exact Or.inl hadvance
    · exact Or.inr (congrArg (· + 1) hadvance)
  | some g =>
    have hcount := examined_pktCount hexamined
    obtain ⟨_, _, _, _, _, h⟩ := classify_frame S g
    rw [addPacket_of_examined hexamined, h]
    exact Or.inr hcount

/-! ## Completeness -/

/-- An enabled model of the database with an enabled meter is below the threshold. -/
def HasMatch (S : Setup R) (f : Flow R) : Prop :=
  ∃ pm ∈ S.database.protocolModelOrder, pm.enabled = true ∧
    (∃ am ∈ pm.attributeMeters, am.enabled = true) ∧
    f.klDivergence pm < S.config.divergenceThreshold

/-- **When a match is found.** An examined packet at or above the defining limit classifies a flow
that has a match exactly when, of the models that are looked at, one has a divergence that is also
positive, or the best match so far is used. -/
theorem examined_classifies_iff [IsTrans R (· < ·)] {S : Setup R} {f g : Flow R} {p : IPv4Packet}
    (hmode : S.config.learningMode = false) (hexamined : f.examined S p = some g)
    (hlimit : S.database.definingLimit ≤ g.pktCount) :
    (g.HasMatch S → (f.addPacket S p).flowClassified = true) ↔
      (g.HasMatch S → (∃ pm ∈ g.looksAt S, 0 < g.klDivergence pm ∧
        g.klDivergence pm < S.config.divergenceThreshold) ∨ g.BestMatchServes S) := by
  rw [addPacket_of_examined hexamined,
    classify_flowClassified_iff hmode (examined_sameResult hexamined).2]
  constructor
  · intro h hmatch
    exact (h hmatch).imp (fun hfits => hfits.2) fun hserves => hserves
  · intro h hmatch
    exact (h hmatch).imp (fun hfits => ⟨hlimit, hfits⟩) fun hserves => hserves

/-- A database with one protocol in it, known by the size of its first packet. -/
def sizeDatabase (share : ℚ) : ProtocolModelDb ℚ :=
  { definingLimit := 1
    cutoffLimit := 100
    protocolModelOrder :=
      [{ name := "DNS"
         flowCount := 1
         enabled := true
         portHints := []
         attributeMeters :=
          [{ (AttributeMeter.create .payloadSizeFirstPacket fun _ => 0 : AttributeMeter ℚ) with
              enabled := true
              fromDb := true
              fingerprint := [share, 1 - share] }] }]
    portHintOrder := [] }

/-- A program with such a database. -/
def bySize (share : ℚ) : Setup ℚ :=
  { (Setup.initial : Setup ℚ) with
    database := sizeDatabase share
    factory := { enabledAttributes := fun k => k == .payloadSizeFirstPacket } }

/-- A datagram with one byte in it, which is the first of a flow. -/
def oneByte : IPv4Packet := ⟨0x0100000a, 1053, 0x0200000a, 53, .udp, [1], ⟨0, 0⟩⟩

/-- The flow that it opens. -/
def oneByteFlow (share : ℚ) : Flow ℚ := Flow.new (bySize share) oneByte fun _ => 0

theorem exists_examined {S : Setup ℚ} {f : Flow ℚ} {p : IPv4Packet} (seen : Flow ℚ → Bool)
    (h : (f.examined S p).any seen = true) : ∃ g, f.examined S p = some g ∧ seen g = true :=
  (Option.any_eq_true seen _).mp h

theorem oneByte_classifies_iff :
    ∃ g, (oneByteFlow (1 / 2)).examined (bySize (1 / 2)) oneByte = some g ∧
      ((g.HasMatch (bySize (1 / 2)) →
          ((oneByteFlow (1 / 2)).addPacket (bySize (1 / 2)) oneByte).flowClassified = true) ↔
        (g.HasMatch (bySize (1 / 2)) →
          (∃ pm ∈ g.looksAt (bySize (1 / 2)), 0 < g.klDivergence pm ∧
            g.klDivergence pm < (bySize (1 / 2)).config.divergenceThreshold) ∨
          g.BestMatchServes (bySize (1 / 2)))) := by
  obtain ⟨g, hg, hlimit⟩ :=
    exists_examined (f := oneByteFlow (1 / 2)) (p := oneByte) (S := bySize (1 / 2))
      (fun g => decide (1 ≤ g.pktCount)) (by decide +kernel)
  exact ⟨g, hg, examined_classifies_iff rfl hg (of_decide_eq_true hlimit)⟩

/-- A protocol that expects exactly this size is not recognised. Every quotient whose logarithm is
taken is 1 here. -/
theorem oneByte_not_classified :
    (bySize (1 / 1476)).config.learningMode = false ∧
    ∃ g, (oneByteFlow (1 / 1476)).examined (bySize (1 / 1476)) oneByte = some g ∧
      (bySize (1 / 1476)).database.definingLimit ≤ g.pktCount ∧ g.HasMatch (bySize (1 / 1476)) ∧
      ((oneByteFlow (1 / 1476)).addPacket (bySize (1 / 1476)) oneByte).flowClassified = false := by
  obtain ⟨g, hg, hseen⟩ :=
    exists_examined (f := oneByteFlow (1 / 1476)) (p := oneByte) (S := bySize (1 / 1476))
      (fun g => decide (1 ≤ g.pktCount) &&
        (sizeDatabase (1 / 1476)).protocolModelOrder.any fun pm =>
          pm.enabled && pm.attributeMeters.any (fun am => am.enabled) &&
            decide (g.klDivergence pm < 2)) (by decide +kernel)
  obtain ⟨hlimit, hmatch⟩ := Bool.and_eq_true_iff.mp hseen
  obtain ⟨pm, hpm, hmatch⟩ := List.any_eq_true.mp hmatch
  obtain ⟨hmatch, hbelow⟩ := Bool.and_eq_true_iff.mp hmatch
  obtain ⟨hon, hmeter⟩ := Bool.and_eq_true_iff.mp hmatch
  obtain ⟨am, ham, hamOn⟩ := List.any_eq_true.mp hmeter
  refine ⟨rfl, g, hg, of_decide_eq_true hlimit, ⟨pm, hpm, hon, ⟨am, ham, hamOn⟩, ?_⟩, ?_⟩
  · exact of_decide_eq_true hbelow
  · decide +kernel

end Flow

end Vsid
