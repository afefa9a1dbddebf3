import Mathlib.Data.List.Find
import Mathlib.Data.List.Forall2
import Vsid.Laws.Hiding
import Vsid.Laws.Matching
import Vsid.Laws.PortOrder
import Vsid.Laws.Soundness

/-!
# What is switched off

A model or a meter that is switched off stays in the database and in the search orders, and its
class may be measured in every flow. None of it shows, and neither does a model without a meter that
is on: two databases that have the same models on, in the same order and each with the same meters
on, make the same runs (`active_decides`). The flows have the same states, counters, classifications
and best matches, the observers are told the same, and only the meters inside the flows differ, by
those that nobody compares.
-/

set_option autoImplicit false

namespace Vsid

variable {R : Type}

/-! ## What the matching reads of a database -/

/-- A model as the matching reads it: the meters that are on, with the expected fingerprints. -/
structure ActiveModel (R : Type) where
  name : String
  portHints : List UInt16
  meters : List (MeterKind × List R)
deriving DecidableEq

/-- The model without its meters that are off. -/
def ProtocolModel.active (pm : ProtocolModel R) : ActiveModel R :=
  { name := pm.name, portHints := pm.portHints,
    meters := (pm.attributeMeters.filter (·.enabled)).map fun am => (am.kind, am.fingerprint) }

/-- The model is on, and so is one of its meters. -/
def ProtocolModel.matters (pm : ProtocolModel R) : Bool :=
  pm.enabled && pm.attributeMeters.any (·.enabled)

/-- The models that are compared with flows, in the order of the database. -/
def ProtocolModelDb.active (db : ProtocolModelDb R) : List (ActiveModel R) :=
  (db.protocolModelOrder.filter (·.matters)).map ProtocolModel.active

/-- A model that is on has a meter of the class that is on. -/
def compares (models : List (ActiveModel R)) (k : MeterKind) : Bool :=
  models.any fun pm => pm.meters.any fun entry => entry.1 == k

/-- The meters of some classes only. -/
def keepMeters (used : MeterKind → Bool) (meters : List (AttributeMeter R)) :
    List (AttributeMeter R) :=
  meters.filter fun m => used m.kind

/-- A measurement does not make a meter one of another class. -/
theorem AttributeMeter.calculateMeasurement_kind [Double R] (m : AttributeMeter R) (f : FlowReading)
    (p : IPv4Packet) : (m.calculateMeasurement f p).kind = m.kind := by
  unfold calculateMeasurement
  cases hkind : m.kind with
  | _ =>
    simp only [actionReactionFirst3ByteHash, byteFrequencyFirst8Packets,
      byteFrequencyFirstDestToOrigPacket, byteFrequencyFirstOrigToDestPacket, byteFrequency,
      directionBytesCountFirst10Packet, directionBytesCount, directionChangesFirst8Packets,
      directionChanges, entropyFirstOrigToDestPacket, first16ByteFrequency, first4ByteFrequency,
      firstBitPositions, payloadSizeFirstPacket, rtmpRegexMatch, cover, countDirectionBytes,
      countDirectionChanges]
    (repeat' split) <;> exact hkind

namespace Flow

variable [Double R] {S T : Setup R} {used : MeterKind → Bool}

/-! ## The divergence from a model -/

/-- A meter of the database with this class and this fingerprint. -/
def expectation (entry : MeterKind × List R) : AttributeMeter R :=
  { (AttributeMeter.create entry.1 fun _ => 0 : AttributeMeter R) with
    fingerprint := entry.2, fromDb := true }

theorem meterDivergence_expectation (am : AttributeMeter R) {pmAm : AttributeMeter R}
    (hdb : pmAm.fromDb = true) :
    meterDivergence am (expectation (pmAm.kind, pmAm.fingerprint)) = meterDivergence am pmAm := by
  have hat : ∀ i, (expectation (pmAm.kind, pmAm.fingerprint)).atPos i = pmAm.atPos i := by
    intro i
    have hshares : (expectation (pmAm.kind, pmAm.fingerprint)).fromDb = true := rfl
    unfold AttributeMeter.atPos
    rw [hdb, hshares]
    simp only [Bool.not_true, Bool.and_false, Bool.false_eq_true, if_false]
    rfl
  unfold meterDivergence
  simp only [hat]
  rfl

/-- The divergence from what the meters that are on expect. -/
def activeDivergence (f : Flow R) (meters : List (MeterKind × List R)) : R :=
  meters.foldl
    (fun d entry =>
      match f.attributeMetersMap entry.1 with
      | some am => d + meterDivergence am (expectation entry)
      | none => d)
    (0 : R)

theorem klDivergence_active (f : Flow R) {pm : ProtocolModel R}
    (hdb : ∀ am ∈ pm.attributeMeters, am.fromDb = true) :
    f.klDivergence pm = f.activeDivergence pm.active.meters := by
  unfold klDivergence activeDivergence ProtocolModel.active
  simp only [List.foldl_map, List.foldl_filter]
  refine List.foldl_ext _ _ _ fun d am ham => ?_
  cases f.attributeMetersMap am.kind with
  | none => rfl
  | some m => simp only [meterDivergence_expectation m (hdb am ham)]

/-- Only the meters that are compared matter. -/
theorem activeDivergence_hide (f : Flow R) {meters : List (MeterKind × List R)}
    (hused : ∀ entry ∈ meters, used entry.1 = true) :
    (f.hide (keepMeters used)).activeDivergence meters = f.activeDivergence meters := by
  refine List.foldl_ext _ _ _ fun d entry hentry => ?_
  have hfind : (f.hide (keepMeters used)).attributeMetersMap entry.1 =
      f.attributeMetersMap entry.1 := by
    unfold attributeMetersMap hide keepMeters
    rw [List.find?_filter]
    refine List.find?_congr fun am _ => ?_
    by_cases hkind : am.kind = entry.1
    · simp [hkind, hused entry hentry]
    · simp [hkind]
  rw [hfind]

/-- No flow differs from a model without a meter that is on. -/
theorem klDivergence_of_not_matters (f : Flow R) {pm : ProtocolModel R} (hon : pm.enabled = true)
    (hpm : pm.matters = false) : f.klDivergence pm = 0 := by
  unfold ProtocolModel.matters at hpm
  rw [hon, Bool.true_and, List.any_eq_false] at hpm
  unfold klDivergence
  rw [← List.foldl_filter, List.filter_eq_nil_iff.mpr hpm]
  rfl

/-- A model without a meter that is on can be left out. -/
theorem search_matters (hzero : ¬ (0 : R) < 0) (S : Setup R) (f : Flow R)
    {models : List (ProtocolModel R)} (hon : ∀ pm ∈ models, pm.enabled = true)
    (best : R × String) :
    f.search S best (models.filter (·.matters)) = f.search S best models := by
  induction models generalizing best with
  | nil => rfl
  | cons pm models ih =>
    obtain ⟨hpm, hrest⟩ := List.forall_mem_cons.mp hon
    rw [List.filter_cons, search_cons]
    cases hmatters : pm.matters with
    | true => rw [if_pos rfl, search_cons, ih hrest]
    | false =>
      have hdivergence := f.klDivergence_of_not_matters hpm hmatters
      have haccepts : f.accepts S pm = false := by
        rw [Bool.eq_false_iff]
        intro haccepts
        have hfits := (accepts_iff.mp haccepts).2.1
        rw [hdivergence] at hfits
        exact hzero hfits
      have hbetter : f.better best pm = best := by
        unfold better
        rw [hdivergence]
        exact if_neg fun h => hzero h.1
      rw [haccepts, hbetter, if_neg Bool.false_ne_true, if_neg Bool.false_ne_true]
      exact ih hrest best

/-- The second model is to the flow with fewer meters what the first one is to the flow. -/
structure Alike (used : MeterKind → Bool) (pm pm' : ProtocolModel R) : Prop where
  name : pm'.name = pm.name
  divergence : ∀ f : Flow R, (f.hide (keepMeters used)).klDivergence pm' = f.klDivergence pm

/-! ## A packet -/

/-- Under `T` there are the meters of some classes only, and the models that are looked at are
alike. -/
structure LooksAlike (S T : Setup R) (used : MeterKind → Bool) : Prop where
  config : T.config = S.config
  murmur : T.murmur = S.murmur
  staleBytes : T.staleBytes = S.staleBytes
  definingLimit : T.database.definingLimit = S.database.definingLimit
  cutoffLimit : T.database.cutoffLimit = S.database.cutoffLimit
  factory : ∀ k, T.factory.enabledAttributes k = (S.factory.enabledAttributes k && used k)
  looksAt : ∀ f : Flow R, List.Forall₂ (Alike used) ((f.looksAt S).filter (·.matters))
    ((f.looksAt T).filter (·.matters))

namespace LooksAlike

variable (hsame : LooksAlike S T used)

include hsame

theorem accepts {pm pm' : ProtocolModel R} (hpm : Alike used pm pm') (f : Flow R) :
    (f.hide (keepMeters used)).accepts T pm' = f.accepts S pm := by
  have hcount : (f.hide (keepMeters used)).pktCount = f.pktCount := rfl
  rw [Bool.eq_iff_iff, accepts_iff, accepts_iff, hsame.definingLimit, hcount]
  unfold Fits
  rw [hpm.divergence, hsame.config]

omit hsame in
theorem better {pm pm' : ProtocolModel R} (hpm : Alike used pm pm') (f : Flow R)
    (best : R × String) :
    (f.hide (keepMeters used)).better best pm' = f.better best pm := by
  unfold Flow.better
  rw [hpm.divergence, hpm.name]

theorem search {models models' : List (ProtocolModel R)}
    (hmodels : List.Forall₂ (Alike used) models models') (f : Flow R) (best : R × String) :
    (f.hide (keepMeters used)).search T best models' =
      (f.search S best models).hide (keepMeters used) := by
  induction hmodels generalizing best with
  | nil => rfl
  | cons hpm hrest ih =>
    rw [search_cons, search_cons, hsame.accepts hpm, better hpm, ih, hpm.divergence, hpm.name]
    split
    · rfl
    · rfl

theorem useBestMatch (f : Flow R) :
    (f.hide (keepMeters used)).useBestMatch T = (f.useBestMatch S).hide (keepMeters used) := by
  have hbest : (f.hide (keepMeters used)).bestMatchDivergence = f.bestMatchDivergence := rfl
  have hcount : (f.hide (keepMeters used)).pktCount = f.pktCount := rfl
  have hopen : (f.hide (keepMeters used)).flowClassified = f.flowClassified := rfl
  unfold Flow.useBestMatch
  rw [hsame.config, hsame.definingLimit, hbest, hcount, hopen]
  split
  · rfl
  · rfl

theorem classify (hzero : ¬ (0 : R) < 0) (f : Flow R) :
    (f.hide (keepMeters used)).classify T = (f.classify S).hide (keepMeters used) := by
  have hopen : (f.hide (keepMeters used)).flowClassified = f.flowClassified := rfl
  have hmatch : (f.hide (keepMeters used)).matchModels T (List.range T.database.size) =
      (f.matchModels S (List.range S.database.size)).hide (keepMeters used) := by
    have hon : ∀ pm ∈ f.looksAt S, pm.enabled = true := fun pm hpm => (mem_looksAt hpm).2
    have hon' : ∀ pm ∈ f.looksAt T, pm.enabled = true := fun pm hpm => (mem_looksAt hpm).2
    rw [matchModels_eq, matchModels_eq]
    refine (search_matters hzero T _ hon' _).symm.trans ?_
    rw [hsame.search (hsame.looksAt f)]
    exact congrArg (hide (keepMeters used)) (search_matters hzero S f hon _)
  unfold Flow.classify
  rw [hsame.config, hopen, hmatch, hsame.useBestMatch]
  split
  · rfl
  · rfl

omit hsame in
theorem calculate (f : Flow R) (p : IPv4Packet) :
    (f.hide (keepMeters used)).calculate p = (f.calculate p).hide (keepMeters used) := by
  have hmeters : (f.attributeMeters.filter fun m => used m.kind).map
        (fun m => m.calculateMeasurement f.reading p) =
      (f.attributeMeters.map fun m => m.calculateMeasurement f.reading p).filter
        fun m => used m.kind := by
    rw [List.filter_map]
    congr 1
    refine List.filter_congr fun m _ => ?_
    rw [Function.comp_apply, AttributeMeter.calculateMeasurement_kind]
  unfold Flow.calculate hide keepMeters
  simp only
  rw [← hmeters]
  rfl

theorem addPacket (hzero : ¬ (0 : R) < 0) (f : Flow R) (p : IPv4Packet) :
    (f.hide (keepMeters used)).addPacket T p = (f.addPacket S p).hide (keepMeters used) := by
  have hadvance := advance_comm (Flow.hide (keepMeters used)) (p := p) (fun _ => rfl)
    (fun _ => rfl) (fun _ => rfl) (fun _ => rfl) (fun _ _ => rfl) (fun _ => rfl) f
  unfold Flow.addPacket
  rw [hadvance]
  cases hadv : f.advance p with
  | mk g returned =>
    cases returned with
    | true => rfl
    | false =>
      simp only
      split
      · rfl
      · have hcount : (g.hide (keepMeters used)).countPacket p =
            (g.countPacket p).hide (keepMeters used) := rfl
        have hclassified : ((g.countPacket p).hide (keepMeters used)).flowClassified =
            (g.countPacket p).flowClassified := rfl
        have hpackets : ((g.countPacket p).hide (keepMeters used)).pktCount =
            (g.countPacket p).pktCount := rfl
        have htouch : ∀ f : Flow R, (f.hide (keepMeters used)).touch p =
            (f.touch p).hide (keepMeters used) := fun _ => rfl
        simp only [addDataPacket, hcount, hclassified, hpackets, hsame.cutoffLimit, calculate,
          htouch, hsame.classify hzero]
        split
        · rfl
        · split
          · rfl
          · rfl

theorem hides (hzero : ¬ (0 : R) < 0) : S.Hides T (keepMeters used) where
  config := hsame.config
  flowHash t := by
    unfold Setup.flowHash
    rw [hsame.murmur]
  new p i := by
    have hmeters : T.factory.getAllMeters (T.staleBytes i) =
        keepMeters used (S.factory.getAllMeters (S.staleBytes i) : List (AttributeMeter R)) := by
      unfold AttributeMeterFactory.getAllMeters keepMeters
      rw [hsame.staleBytes, List.filter_map, List.filter_filter]
      congr 1
      refine List.filter_congr fun k _ => ?_
      rw [hsame.factory, Bool.and_comm]
      rfl
    unfold Flow.new hide Setup.flowHash
    rw [hmeters, hsame.murmur]
  addPacket := hsame.addPacket hzero

end LooksAlike

end Flow

/-! ## A database that was read -/

namespace ProtocolModelDb

/-- The models that are on, those that hint the port first. -/
def activeOrder (models : List (ActiveModel R)) (port : UInt16) : List (ActiveModel R) :=
  if port = 0 then models
  else models.filter (·.portHints.contains port) ++ models.filter (!·.portHints.contains port)

/-- What is off is not in the way of what is on. -/
theorem active_searchOrder (db : ProtocolModelDb R) (port : UInt16) :
    ((searchOrder db.protocolModelOrder port).filter (·.matters)).map ProtocolModel.active =
      activeOrder db.active port := by
  have hfilter : ∀ hints : Bool → Bool,
      ((db.protocolModelOrder.filter fun pm => hints (pm.hintsPort port)).filter
          (·.matters)).map ProtocolModel.active =
        db.active.filter fun pm => hints (pm.portHints.contains port) := by
    intro hints
    unfold active
    rw [List.filter_map, List.filter_filter, List.filter_filter]
    congr 1
    refine List.filter_congr fun pm _ => ?_
    exact Bool.and_comm _ _
  unfold searchOrder activeOrder
  split
  · rfl
  · rw [List.filter_append, List.map_append]
    exact congrArg₂ (· ++ ·) (hfilter id) (hfilter not)

/-- If no model lists a port twice then a port asks for its search order. -/
theorem filterMap_atPos_of_read [Double R] {Y : Conversions R} {stale : FirstBytes} {now : Int}
    {factory factory' : AttributeMeterFactory} {root : Yaml} {file : ProtocolModelFile R}
    (hread : ProtocolModelFile.read Y stale now factory root = some (file, factory'))
    {port : UInt16} (hhints : port = 0 ∨ ∀ pm ∈ file.protocolModelOrder, pm.portHints.Nodup) :
    (List.range file.size).filterMap (fun pos => file.atPos pos port) =
      searchOrder file.protocolModelOrder port := by
  by_cases hport : port = 0
  · rw [hport, atPos_zero]
    exact (if_pos rfl).symm
  · have honce : ∀ pm ∈ file.protocolModelOrder, pm.portHints.count port ≤ 1 := fun pm hpm =>
      List.nodup_iff_count_le_one.mp (hhints.resolve_left hport pm hpm) port
    have hperm : (searchOrder file.protocolModelOrder port).Perm file.protocolModelOrder := by
      unfold searchOrder
      rw [if_neg hport]
      exact List.filter_append_perm _ _
    have hmap := map_ordered file.protocolModelOrder hport
    have hlength : (ordered file.protocolModelOrder port).length = file.size := by
      have hsame := congrArg List.length hmap
      rw [List.length_map, List.length_map, hperm.length_eq] at hsame
      exact hsame
    obtain ⟨rest, hpositions⟩ := ordered_prefix hport fun pm hpm =>
      honce pm (hperm.mem_iff.mp (List.mem_of_mem_dropLast hpm))
    have hat : ∀ pos ∈ List.range file.size, file.atPos pos port =
        ((ordered file.protocolModelOrder port)[pos]?).bind
          fun i => file.protocolModelOrder[i]? := by
      intro pos hpos
      rw [ProtocolModelFile.atPos_of_read hread hport, ← hpositions, List.getElem?_append_left]
      rw [hlength]
      exact List.mem_range.mp hpos
    have horder : (List.range file.size).map (fun pos => file.atPos pos port) =
        (searchOrder file.protocolModelOrder port).map some :=
      calc (List.range file.size).map (fun pos => file.atPos pos port)
          = ((List.range file.size).map fun pos => (ordered file.protocolModelOrder port)[pos]?).map
              (·.bind fun i => file.protocolModelOrder[i]?) := by
            rw [List.map_map]
            exact List.map_congr_left hat
        _ = ((ordered file.protocolModelOrder port).map some).map
              (·.bind fun i => file.protocolModelOrder[i]?) := by
            rw [← hlength, Keyed.map_getElem?_range]
        _ = (searchOrder file.protocolModelOrder port).map some := by
            rw [List.map_map, ← hmap]
            rfl
    have hwalk := congrArg (List.filterMap id) horder
    rw [List.filterMap_map, List.filterMap_map] at hwalk
    exact hwalk.trans List.filterMap_some

end ProtocolModelDb

/-- The program has read its database, and no class of its meters has been switched off since. No
model of it lists a port twice, if the port hints are used. -/
structure Setup.HasRead [Double R] (S : Setup R) (Y : Conversions R) : Prop where
  read : ∃ stale now factory root file factory',
    ProtocolModelFile.read Y stale now factory root = some (file, factory') ∧
      S.database = file.toProtocolModelDb ∧ ProtocolModelFile.Extends factory' S.factory
  hints : S.config.usePortHints = true →
    ∀ pm ∈ S.database.protocolModelOrder, pm.portHints.Nodup

/-- Two setups with the same models and meters on. -/
structure Setup.SameActive (S S' : Setup R) : Prop where
  config : S'.config = S.config
  murmur : S'.murmur = S.murmur
  staleBytes : S'.staleBytes = S.staleBytes
  definingLimit : S'.database.definingLimit = S.database.definingLimit
  cutoffLimit : S'.database.cutoffLimit = S.database.cutoffLimit
  active : S'.database.active = S.database.active

namespace Setup

variable [Double R] {S S' : Setup R} {Y Y' : Conversions R}

/-- What a setup compares, in the order of the port. -/
theorem HasRead.looksAt (h : S.HasRead Y) (f : Flow R) :
    ((f.looksAt S).filter (·.matters)).map ProtocolModel.active =
      ProtocolModelDb.activeOrder S.database.active (f.hintPort S) := by
  obtain ⟨stale, now, factory, root, file, factory', hread, hdatabase, -⟩ := h.read
  have hhints := h.hints
  rw [hdatabase] at hhints
  have hport : f.hintPort S = 0 ∨ ∀ pm ∈ file.protocolModelOrder, pm.portHints.Nodup := by
    unfold Flow.hintPort
    split
    next huse => exact Or.inr (hhints huse)
    next => exact Or.inl rfl
  have hwalk := ProtocolModelDb.filterMap_atPos_of_read hread hport
  have hmatters : ∀ pm : ProtocolModel R, (pm.matters && pm.enabled) = pm.matters := by
    intro pm
    unfold ProtocolModel.matters
    cases pm.enabled with
    | true => rw [Bool.and_true]
    | false => rw [Bool.and_false, Bool.false_and]
  unfold Flow.looksAt Flow.modelsAt
  rw [hdatabase, hwalk, List.filter_filter, ← ProtocolModelDb.active_searchOrder]
  simp only [hmatters]

/-- Every meter that is on in a model that is on has a class that is compared and measured. -/
theorem HasRead.measured (h : S.HasRead Y) {k : MeterKind}
    (hk : compares S.database.active k = true) : S.factory.enabledAttributes k = true := by
  obtain ⟨stale, now, factory, root, file, factory', hread, hdatabase, hfactory⟩ := h.read
  unfold compares ProtocolModelDb.active ProtocolModel.active at hk
  rw [hdatabase] at hk
  obtain ⟨model, hmodel, hmeter⟩ := List.any_eq_true.mp hk
  obtain ⟨pm, hpm, rfl⟩ := List.mem_map.mp hmodel
  obtain ⟨entry, hentry, hkind⟩ := List.any_eq_true.mp hmeter
  obtain ⟨am, ham, rfl⟩ := List.mem_map.mp hentry
  obtain ⟨hmem, hon⟩ := List.mem_filter.mp ham
  have hsuits := (ProtocolModelFile.wellFormed_of_read hread).2 pm (List.mem_of_mem_filter hpm) am
    hmem
  have hsame : am.kind = k := beq_iff_eq.mp hkind
  rw [← hsame]
  exact hfactory _ (hsuits.2 hon)

/-- Two models that are looked at and are the same without what is off. -/
theorem HasRead.alike (h : S.HasRead Y) (h' : S'.HasRead Y')
    {pm pm' : ProtocolModel R} (hpm : pm ∈ S.database.protocolModelOrder)
    (hmatters : pm.matters = true) (hpm' : pm' ∈ S'.database.protocolModelOrder)
    (hactive : pm'.active = pm.active) :
    Flow.Alike (compares S.database.active) pm pm' where
  name := congrArg ActiveModel.name hactive
  divergence f := by
    obtain ⟨stale, now, factory, root, file, factory', hread, hdatabase, -⟩ := h.read
    obtain ⟨stale', now', factory₁, root', file', factory₁', hread', hdatabase', -⟩ := h'.read
    have hdb := ProtocolModelFile.fromDb_of_read hread pm (hdatabase ▸ hpm)
    have hdb' := ProtocolModelFile.fromDb_of_read hread' pm' (hdatabase' ▸ hpm')
    rw [Flow.klDivergence_active _ hdb', Flow.klDivergence_active _ hdb, hactive]
    refine Flow.activeDivergence_hide f fun entry hentry => ?_
    have hmem : pm.active ∈ S.database.active :=
      List.mem_map_of_mem (List.mem_filter.mpr ⟨hpm, hmatters⟩)
    exact List.any_eq_true.mpr ⟨pm.active, hmem,
      List.any_eq_true.mpr ⟨entry, hentry, beq_self_eq_true _⟩⟩

/-- The same machine, with the meters that the database is compared with and no others. -/
def comparing (S : Setup R) : Setup R :=
  { S with
    factory :=
      { enabledAttributes := fun k =>
          S.factory.enabledAttributes k && compares S.database.active k } }

omit [Double R] in
theorem SameActive.refl (S : Setup R) : S.SameActive S := ⟨rfl, rfl, rfl, rfl, rfl, rfl⟩

/-- **One setup looks like the other**, without the meters that neither compares. -/
theorem SameActive.looksAlike (hsame : S.SameActive S') (h : S.HasRead Y) (h' : S'.HasRead Y') :
    Flow.LooksAlike S' S.comparing (compares S.database.active) where
  config := hsame.config.symm
  murmur := hsame.murmur.symm
  staleBytes := hsame.staleBytes.symm
  definingLimit := hsame.definingLimit.symm
  cutoffLimit := hsame.cutoffLimit.symm
  factory k := by
    unfold comparing
    simp only
    cases hk : compares S.database.active k with
    | false => rw [Bool.and_false, Bool.and_false]
    | true => rw [h.measured hk, h'.measured (by rwa [hsame.active])]
  looksAt f := by
    have hport : f.hintPort S' = f.hintPort S := by
      unfold Flow.hintPort
      rw [hsame.config]
    have hlooks : ((f.looksAt S').filter (·.matters)).map ProtocolModel.active =
        ((f.looksAt S).filter (·.matters)).map ProtocolModel.active := by
      rw [h'.looksAt, h.looksAt, hsame.active, hport]
    refine Keyed.forall₂_of_map_eq hlooks fun pm' hpm' pm hpm hactive => ?_
    obtain ⟨hlooked', hmatters'⟩ := List.mem_filter.mp hpm'
    have hmem' := (Flow.mem_looksAt hlooked').1
    have hmem := (Flow.mem_looksAt (List.mem_of_mem_filter hpm)).1
    have halike := h'.alike h hmem' hmatters' hmem hactive.symm
    rwa [hsame.active] at halike

/-- Under any packets, with the sweep in any order, and with worker threads in any schedule, both
reach states that differ in the meters inside the flows only. -/
def SameRuns (S S' : Setup R) : Prop :=
  (∀ packets order,
    ((FlowManager.addPackets S' packets).finished order).map (FlowManager.hide fun _ => []) =
      ((FlowManager.addPackets S packets).finished order).map (FlowManager.hide fun _ => [])) ∧
  ∀ actions : List Action,
    (actions.foldlM (State.step S') State.init).map (State.hide fun _ => []) =
      (actions.foldlM (State.step S) State.init).map (State.hide fun _ => [])

theorem sameRuns_of_hides {T : Setup R}
    {k : List (AttributeMeter R) → List (AttributeMeter R)} (hides : S.Hides T k)
    (hides' : S'.Hides T k) : S.SameRuns S' := by
  refine ⟨fun packets order => ?_, fun actions => ?_⟩
  · have hrun := (FlowManager.run_hide hides' packets order).symm.trans
      (FlowManager.run_hide hides packets order)
    have hmeters := congrArg (Option.map (FlowManager.hide fun _ => [])) hrun
    rwa [Option.map_map, Option.map_map, FlowManager.hide_comp] at hmeters
  · have hrun := (State.schedule_hide hides' actions).symm.trans (State.schedule_hide hides actions)
    have hmeters := congrArg (Option.map (State.hide fun _ => [])) hrun
    rwa [Option.map_map, Option.map_map, State.hide_comp] at hmeters

/-- **What is switched off decides nothing.** Two setups that read their databases, from whatever
documents, and have the same models on, with the same hints, in the same order and with the same
meters on, do the same. -/
theorem active_decides (hzero : ¬ (0 : R) < 0) (hsame : S.SameActive S') (h : S.HasRead Y)
    (h' : S'.HasRead Y') : S.SameRuns S' := by
  have hides := ((SameActive.refl S).looksAlike h h).hides hzero
  have hides' := (hsame.looksAlike h h').hides hzero
  exact sameRuns_of_hides hides hides'

/-! ## A model and a meter that are off -/

open ProtocolModelFile

/-- The program after reading a database. -/
def ofFile (file : ProtocolModelFile ℚ) (factory : AttributeMeterFactory) : Setup ℚ :=
  { Setup.initial with database := file.toProtocolModelDb, factory := factory }

/-- SSH with a meter that is off, behind HTTP, which is off. -/
def offRoot : Yaml :=
  .map
    [("DefiningLimit", .scalar "10"), ("CutoffLimit", .scalar "100"),
      ("ProtocolModels", .sequence
        [.map
          [("ProtocolName", .scalar "HTTP"), ("FlowCount", .scalar "1"),
            ("Enabled", .scalar "false"), ("AttributeMeters", .sequence [sizeMeter])],
          .map
            [("ProtocolName", .scalar "SSH"), ("FlowCount", .scalar "1"),
              ("Enabled", .scalar "true"), ("PortHints", .sequence [.scalar "22"]),
              ("AttributeMeters", .sequence
                [sizeMeter,
                  .map
                    [("AttributeName", .scalar "RtmpRegexMatchMeter"),
                      ("Enabled", .scalar "false"), ("FlowCount", .scalar "1"),
                      ("FingerPrint", .sequence [.scalar "0", .scalar "1"])]])]])]

/-- What is seen of the database with SSH alone. -/
def isSshDatabase (size : Nat) (file : ProtocolModelFile ℚ) : Bool :=
  decide (file.definingLimit = 10 ∧ file.cutoffLimit = 100 ∧ file.active =
      [{ name := "SSH", portHints := [22], meters := [(.payloadSizeFirstPacket, [0, 1])] }]) &&
    (file.size == size && file.protocolModelOrder.all fun pm => decide pm.portHints.Nodup)

/-- HTTP and the meter that is off could as well be missing. -/
theorem offRoot_decides :
    ∃ file factory file' factory',
      read knownScalars (fun _ => 0) 0 freshFactory (sshRoot (.sequence [sizeMeter])) =
        some (file, factory) ∧
      read knownScalars (fun _ => 0) 0 freshFactory offRoot = some (file', factory') ∧
      file.size = 1 ∧ file'.size = 2 ∧ (ofFile file factory).SameRuns (ofFile file' factory') := by
  obtain ⟨file, factory, hread, hseen⟩ :=
    exists_read (sshRoot (.sequence [sizeMeter])) (isSshDatabase 1) (by decide +kernel)
  obtain ⟨file', factory', hread', hseen'⟩ :=
    exists_read offRoot (isSshDatabase 2) (by decide +kernel)
  obtain ⟨hdatabase, hmore⟩ := Bool.and_eq_true_iff.mp hseen
  obtain ⟨hdatabase', hmore'⟩ := Bool.and_eq_true_iff.mp hseen'
  obtain ⟨hdefining, hcutoff, hactive⟩ := of_decide_eq_true hdatabase
  obtain ⟨hdefining', hcutoff', hactive'⟩ := of_decide_eq_true hdatabase'
  obtain ⟨hsize, hhints⟩ := Bool.and_eq_true_iff.mp hmore
  obtain ⟨hsize', hhints'⟩ := Bool.and_eq_true_iff.mp hmore'
  have hsame : (ofFile file factory).SameActive (ofFile file' factory') :=
    { config := rfl, murmur := rfl, staleBytes := rfl
      definingLimit := hdefining'.trans hdefining.symm
      cutoffLimit := hcutoff'.trans hcutoff.symm
      active := hactive'.trans hactive.symm }
  have h : (ofFile file factory).HasRead knownScalars :=
    { read := ⟨_, _, _, _, file, factory, hread, rfl, fun _ hon => hon⟩
      hints := fun _ pm hpm => of_decide_eq_true (List.all_eq_true.mp hhints pm hpm) }
  have h' : (ofFile file' factory').HasRead knownScalars :=
    { read := ⟨_, _, _, _, file', factory', hread', rfl, fun _ hon => hon⟩
      hints := fun _ pm hpm => of_decide_eq_true (List.all_eq_true.mp hhints' pm hpm) }
  exact ⟨file, factory, file', factory', hread, hread', beq_iff_eq.mp hsize,
    beq_iff_eq.mp hsize', active_decides (lt_irrefl 0) hsame h h'⟩

end Setup

end Vsid
