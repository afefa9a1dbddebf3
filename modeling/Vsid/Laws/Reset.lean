import Vsid.Laws.TrainedDistributions

/-!
# Resetting a protocol

`reset_protocol` clears the fingerprints of a model and leaves the counts of its meters. What is
merged afterwards is then averaged over more flows than it came from, so it is what a new meter
would make of it only where nothing was counted before (`reset_forgets_iff`).
-/

set_option autoImplicit false

namespace Vsid

namespace AttributeMeter

/-! ## One meter -/

variable {am : AttributeMeter ℝ} {others : List (AttributeMeter ℝ)}

/-- What a meter holds that was cleared and has merged some flows: the count from before weighs in.
-/
theorem reset_merged (hdb : am.fromDb = true) (hkinds : ∀ other ∈ others, other.kind = am.kind)
    (hcount : am.flowCount.toNat + others.length < 2 ^ 32) (hne : others ≠ []) :
    (others.foldl merge am.reset).fingerprint = am.fingerprint.mapIdx fun j _ =>
      (others.map fun other => other.atPos j).sum /
        ((am.flowCount.toNat + others.length : ℕ) : ℝ) := by
  have hmean : others.foldl merge am.reset = am.reset.averaged others :=
    foldl_merge hdb hkinds hcount
  rw [hmean, averaged, if_neg (by rwa [List.isEmpty_iff])]
  unfold reset
  refine List.ext_getElem? fun j => ?_
  simp only [List.getElem?_mapIdx, List.getElem?_map, Option.map_map, Function.comp_def, mul_zero,
    zero_add]

/-- What a meter holds that was added, and has merged some flows: their mean. -/
theorem added_merged {k : MeterKind} {stale : FirstBytes}
    (hkinds : ∀ other ∈ others, other.kind = k) (hcount : others.length < 2 ^ 32)
    (hne : others ≠ []) :
    (others.foldl merge (added k stale)).fingerprint =
      (List.replicate k.fingerprintSize (0 : ℝ)).mapIdx fun j _ =>
        (others.map fun other => other.atPos j).sum / (others.length : ℝ) := by
  have hzero : (added k stale : AttributeMeter ℝ).flowCount.toNat = 0 := rfl
  have hmean : others.foldl merge (added k stale) = (added k stale).averaged others :=
    foldl_merge rfl hkinds (by rwa [hzero, Nat.zero_add])
  rw [hmean, averaged, if_neg (by rwa [List.isEmpty_iff])]
  simp only [hzero, Nat.cast_zero, zero_mul, zero_add]
  rfl

/-- **A cleared meter forgets exactly when it had counted nothing, or sees nothing.** -/
theorem reset_merged_eq_iff {stale : FirstBytes} (hdb : am.fromDb = true)
    (hlength : am.fingerprint.length = am.kind.fingerprintSize)
    (hkinds : ∀ other ∈ others, other.kind = am.kind)
    (hcount : am.flowCount.toNat + others.length < 2 ^ 32) (hne : others ≠ []) :
    (others.foldl merge am.reset).fingerprint =
        (others.foldl merge (added am.kind stale)).fingerprint ↔
      am.flowCount = 0 ∨ ∀ x < am.kind.fingerprintSize,
        (others.map fun other => other.atPos x).sum = 0 := by
  rw [reset_merged hdb hkinds hcount hne,
    added_merged hkinds (Nat.lt_of_le_of_lt (Nat.le_add_left _ _) hcount) hne, ← UInt32.toNat_inj,
    UInt32.toNat_zero]
  constructor
  · intro h
    refine or_iff_not_imp_left.mpr fun hzero x hx => ?_
    have hat := congrArg (fun fp : List ℝ => fp[x]?) h
    simp only [List.getElem?_mapIdx, List.getElem?_replicate, if_pos hx, Option.map_some,
      List.getElem?_eq_getElem (hlength.symm ▸ hx), Option.some.injEq] at hat
    exact (div_add_eq_div_iff.mp hat).resolve_left hzero
  · intro h
    refine List.ext_getElem (by simp only [List.length_mapIdx, List.length_replicate, hlength]) ?_
    intro x hx hx'
    rw [List.length_mapIdx, hlength] at hx
    rw [List.getElem_mapIdx, List.getElem_mapIdx]
    exact div_add_eq_div_iff.mpr (h.imp_right fun hsums => hsums x hx)

end AttributeMeter

/-! ## One model -/

namespace ProtocolModel

variable {R : Type} [Double R]

/-- The model with all its meters cleared. -/
def reset (pm : ProtocolModel R) : ProtocolModel R :=
  { pm with attributeMeters := pm.attributeMeters.map AttributeMeter.reset }

/-- The model with all its meters added anew. -/
def renewed (stale : FirstBytes) (pm : ProtocolModel R) : ProtocolModel R :=
  { pm with attributeMeters := pm.attributeMeters.map fun am => AttributeMeter.added am.kind stale }

/-- It is what the script makes of a model without meters. -/
theorem renewed_eq_foldl (stale : FirstBytes) {pm : ProtocolModel R}
    (hdistinct : (pm.attributeMeters.map AttributeMeter.kind).Nodup) :
    (pm.attributeMeters.map AttributeMeter.kind).foldl (addAttributeMeter stale)
      { pm with attributeMeters := [] } = pm.renewed stale := by
  have hadd : ∀ (kinds : List MeterKind) (ams : List (AttributeMeter R)),
      (ams.map AttributeMeter.kind ++ kinds).Nodup →
        kinds.foldl (addAttributeMeter stale) { pm with attributeMeters := ams } =
          { pm with
            attributeMeters := ams ++ kinds.map fun k => AttributeMeter.added k stale } := by
    intro kinds
    induction kinds with
    | nil =>
      intro ams _
      rw [List.map_nil, List.append_nil]
      rfl
    | cons k kinds ih =>
      intro ams hnodup
      have hnew : (ams.any fun am => am.kind == k) = false := by
        refine List.any_eq_false.mpr fun am ham hkind => ?_
        refine (List.nodup_append.mp hnodup).2.2 _ (List.mem_map_of_mem ham) k
          List.mem_cons_self (beq_iff_eq.mp hkind)
      have hstep : addAttributeMeter stale { pm with attributeMeters := ams } k =
          { pm with attributeMeters := ams ++ [AttributeMeter.added k stale] } := by
        unfold addAttributeMeter
        rw [hnew, if_neg Bool.false_ne_true]
      rw [List.foldl_cons, hstep, ih]
      · rw [List.append_assoc, List.map_cons]
        rfl
      · rw [List.map_append, List.append_assoc]
        exact hnodup
  rw [hadd _ [] hdistinct, List.map_map]
  rfl

/-- What the meters of a model hold. -/
def fingerprints (pm : ProtocolModel R) : List (List R) :=
  pm.attributeMeters.map AttributeMeter.fingerprint

end ProtocolModel

/-! ## The database -/

namespace ProtocolModelUpdater

section Trained

variable {R : Type} [Double R] {S : Setup R} {u : ProtocolModelUpdater R}

/-- The training goes on with a database in which a protocol was reset. -/
def reset (u : ProtocolModelUpdater R) (name : String) : ProtocolModelUpdater R :=
  { u with database := u.database.resetProtocol name none }

/-- The training goes on with a database in which the meters of a model were added anew. -/
def renewed (u : ProtocolModelUpdater R) (i : Nat) (stale : FirstBytes) : ProtocolModelUpdater R :=
  { u with
    database :=
      { u.database with
        protocolModelOrder :=
          u.database.protocolModelOrder.modify i (ProtocolModel.renewed stale) } }

/-- What the meters of model `i` hold. -/
def fingerprints (u : ProtocolModelUpdater R) (i : Nat) : Option (List (List R)) :=
  u.database.protocolModelOrder[i]?.map ProtocolModel.fingerprints

theorem reset_target (u : ProtocolModelUpdater R) (name : String) (flow : Flow R) :
    (u.reset name).target S flow = u.target S flow := by
  have hfile : (u.reset name).currentFile = u.currentFile := rfl
  refine target_congr hfile ?_ flow
  refine (List.map_map ..).trans (List.map_congr_left fun pm _ => ?_)
  simp only [Function.comp_apply]
  split <;> rfl

theorem renewed_target (u : ProtocolModelUpdater R) (i : Nat) (stale : FirstBytes)
    (flow : Flow R) : (u.renewed i stale).target S flow = u.target S flow := by
  have hfile : (u.renewed i stale).currentFile = u.currentFile := rfl
  refine target_congr hfile (List.ext_getElem? fun j => ?_) flow
  unfold renewed
  rw [List.getElem?_map, List.getElem?_map, List.getElem?_modify]
  split
  · cases u.database.protocolModelOrder[j]? <;> rfl
  · exact congrArg _ Option.map_id'

theorem reset_getElem? {i : Nat} {pm : ProtocolModel R}
    (hpm : u.database.protocolModelOrder[i]? = some pm) :
    (u.reset pm.name).database.protocolModelOrder[i]? = some pm.reset := by
  unfold reset ProtocolModelFile.resetProtocol
  rw [List.getElem?_map, hpm, Option.map_some, if_pos (beq_self_eq_true _)]
  rfl

theorem renewed_getElem? {i : Nat} {pm : ProtocolModel R}
    (hpm : u.database.protocolModelOrder[i]? = some pm) (stale : FirstBytes) :
    (u.renewed i stale).database.protocolModelOrder[i]? = some (pm.renewed stale) := by
  unfold renewed
  rw [List.getElem?_modify, hpm]
  simp only [if_true]
  rfl

/-- **What the meters of a model hold after flows that are all its own.** The training began with
another state of each meter. -/
theorem fingerprints_trained {i : Nat} {pm : ProtocolModel R}
    {g : AttributeMeter R → AttributeMeter R} (hg : ∀ am, (g am).kind = am.kind)
    (hpm : u.database.protocolModelOrder[i]? =
      some { pm with attributeMeters := pm.attributeMeters.map g })
    {flows : List (Flow R)} (hmetered : ∀ flow ∈ flows, flow.Metered S)
    (htarget : ∀ flow ∈ flows, u.target S flow = some i) :
    (flows.foldl (flowFinished S) u).fingerprints i =
      some (pm.attributeMeters.mapIdx fun j am =>
        (if pm.find am.kind = some j then (carried flows am.kind).foldl AttributeMeter.merge (g am)
        else g am).fingerprint) := by
  have hlearned : u.learnedBy S i flows = flows := by
    refine List.filter_eq_self.mpr fun flow hflow => ?_
    rw [htarget flow hflow, beq_self_eq_true]
  have hfind : ∀ k, ({ pm with
      attributeMeters := pm.attributeMeters.map g } : ProtocolModel R).find k = pm.find k := by
    refine ProtocolModel.find_congr ((List.map_map ..).trans (List.map_congr_left fun am _ => ?_))
    exact hg am
  unfold fingerprints
  rw [flowsFinished_database]
  simp only [List.getElem?_mapIdx, hpm, Option.map_some, hlearned, ProtocolModel.learnAll_eq]
  unfold ProtocolModel.fingerprints ProtocolModel.merges
  refine congrArg some (List.ext_getElem? fun j => ?_)
  simp only [List.getElem?_map, List.getElem?_mapIdx, Option.map_map, Function.comp_def, hfind, hg,
    filter_attributeMeters hmetered]

end Trained

variable {S : Setup ℝ} {u : ProtocolModelUpdater ℝ}

/-- A cleared meter and an added one hold the same before anything is merged. -/
theorem fingerprint_reset {am : AttributeMeter ℝ} {stale : FirstBytes}
    (hlength : am.fingerprint.length = am.kind.fingerprintSize) :
    am.reset.fingerprint = (AttributeMeter.added am.kind stale : AttributeMeter ℝ).fingerprint := by
  unfold AttributeMeter.reset AttributeMeter.added
  rw [← hlength]
  exact List.map_const' ..

/-- Without an overflow, the meters hold the same when each meter that learns had counted nothing,
or is shown nothing but zeroes. -/
theorem fingerprints_reset_iff (hstored : Stored S.factory u.database.toProtocolModelDb) {i : Nat}
    {pm : ProtocolModel ℝ} (hpm : u.database.protocolModelOrder[i]? = some pm)
    {flows : List (Flow ℝ)} (hne : flows ≠ []) (hmetered : ∀ flow ∈ flows, flow.Metered S)
    (htarget : ∀ flow ∈ flows, u.target S flow = some i) (stale : FirstBytes)
    (hcount : ∀ j am, pm.Learns S j am → am.flowCount.toNat + flows.length < 2 ^ 32) :
    (flows.foldl (flowFinished S) (u.reset pm.name)).fingerprints i =
        (flows.foldl (flowFinished S) (u.renewed i stale)).fingerprints i ↔
    ∀ j am, pm.Learns S j am → am.flowCount = 0 ∨ ∀ x < am.kind.fingerprintSize,
      ((carried flows am.kind).map fun other => other.atPos x).sum = 0 := by
  have hreset := fingerprints_trained (g := AttributeMeter.reset) (fun _ => rfl)
    (reset_getElem? hpm) hmetered fun flow hflow =>
      (reset_target u _ flow).trans (htarget flow hflow)
  have hrenewed := fingerprints_trained (u := u.renewed i stale)
    (g := fun am => AttributeMeter.added am.kind stale) (fun _ => rfl) (renewed_getElem? hpm stale)
    hmetered fun flow hflow => (renewed_target u i stale flow).trans (htarget flow hflow)
  have hmeter : ∀ j am, pm.Learns S j am →
      (((carried flows am.kind).foldl AttributeMeter.merge am.reset).fingerprint =
        ((carried flows am.kind).foldl AttributeMeter.merge
          (AttributeMeter.added am.kind stale)).fingerprint ↔
      am.flowCount = 0 ∨ ∀ x < am.kind.fingerprintSize,
        ((carried flows am.kind).map fun other => other.atPos x).sum = 0) := by
    intro j am hlearns
    obtain ⟨hdb, hlength, -⟩ :=
      hstored pm (List.mem_of_getElem? hpm) am (List.mem_of_getElem? hlearns.1)
    have hcarried := length_carried hmetered am.kind
    rw [if_pos hlearns.2.2] at hcarried
    refine AttributeMeter.reset_merged_eq_iff hdb hlength kind_of_mem_carried ?_ ?_
    · rw [hcarried]
      exact hcount j am hlearns
    · rw [← List.length_pos_iff, hcarried]
      exact List.length_pos_iff.mpr hne
  rw [hreset, hrenewed, Option.some.injEq, List.mapIdx_eq_mapIdx_iff]
  constructor
  · intro hsame j am hlearns
    refine (hmeter j am hlearns).mp ?_
    obtain ⟨hj, rfl⟩ := List.getElem?_eq_some_iff.mp hlearns.1
    have hhere := hsame j hj
    rwa [if_pos hlearns.2.1, if_pos hlearns.2.1] at hhere
  · intro h j hj
    have ham := List.getElem?_eq_getElem hj
    generalize pm.attributeMeters[j] = am at ham
    have hlength := (hstored pm (List.mem_of_getElem? hpm) am (List.mem_of_getElem? ham)).2.1
    by_cases hfind : pm.find am.kind = some j
    · rw [if_pos hfind, if_pos hfind]
      by_cases hk : S.factory.enabledAttributes am.kind = true
      · exact (hmeter j am ⟨ham, hfind, hk⟩).mpr (h j am ⟨ham, hfind, hk⟩)
      · -- the flows carry nothing of a class that is not enabled
        have hcarried := length_carried hmetered am.kind
        rw [if_neg hk, List.length_eq_zero_iff] at hcarried
        rw [hcarried]
        exact fingerprint_reset hlength
    · rw [if_neg hfind, if_neg hfind]
      exact fingerprint_reset hlength

/-- **A reset forgets exactly where there was nothing to forget.** The flows are flows of one
protocol that was read. No counter overflows, and after them the meters hold the same whether the
protocol was reset or its meters were added anew, exactly when each meter that learns can count the
flows, and counted none before or is shown nothing but zeroes. -/
theorem reset_forgets_iff (hstored : Stored S.factory u.database.toProtocolModelDb) {i : Nat}
    {pm : ProtocolModel ℝ} (hpm : u.database.protocolModelOrder[i]? = some pm)
    {flows : List (Flow ℝ)} (hne : flows ≠ []) (hmetered : ∀ flow ∈ flows, flow.Metered S)
    (htarget : ∀ flow ∈ flows, u.target S flow = some i) (stale : FirstBytes) :
    (∀ j am, pm.Learns S j am → am.flowCount.toNat + flows.length < 2 ^ 32) ∧
      (flows.foldl (flowFinished S) (u.reset pm.name)).fingerprints i =
        (flows.foldl (flowFinished S) (u.renewed i stale)).fingerprints i ↔
    ∀ j am, pm.Learns S j am → am.flowCount.toNat + flows.length < 2 ^ 32 ∧
      (am.flowCount = 0 ∨ ∀ x < am.kind.fingerprintSize,
        ((carried flows am.kind).map fun other => other.atPos x).sum = 0) := by
  constructor
  · rintro ⟨hcount, hsame⟩ j am hlearns
    exact ⟨hcount j am hlearns,
      (fingerprints_reset_iff hstored hpm hne hmetered htarget stale hcount).mp hsame j am hlearns⟩
  · intro h
    have hcount := fun j am hlearns => (h j am hlearns).1
    exact ⟨hcount, (fingerprints_reset_iff hstored hpm hne hmetered htarget stale hcount).mpr
      fun j am hlearns => (h j am hlearns).2⟩

/-- Training a model whose one meter was just added. -/
noncomputable def newTraining : ProtocolModelUpdater ℝ :=
  { dnsTraining with
    database :=
      { dnsTraining.database with
        protocolModelOrder :=
          [{ name := "DNS", flowCount := 0, enabled := true, portHints := []
             attributeMeters := [AttributeMeter.added .byteFrequency fun _ => 0] }] } }

theorem newTraining_forgets :
    ([twoBytes.flow].foldl (flowFinished trainsByBytes) (newTraining.reset "DNS")).fingerprints 0 =
      ([twoBytes.flow].foldl (flowFinished trainsByBytes)
        (newTraining.renewed 0 fun _ => 0)).fingerprints 0 := by
  have hstored : Stored trainsByBytes.factory newTraining.database.toProtocolModelDb := by
    intro pm hpm am ham
    cases List.mem_singleton.mp hpm
    cases List.mem_singleton.mp ham
    exact ⟨rfl, List.length_replicate, fun _ => rfl⟩
  refine ((reset_forgets_iff hstored (i := 0) rfl (List.cons_ne_nil _ _)
    (List.forall_mem_singleton.mpr twoBytes.metered) (List.forall_mem_singleton.mpr rfl)
    fun _ => 0).mpr fun j am hlearns => ?_).2
  cases List.mem_singleton.mp (List.mem_of_getElem? hlearns.1)
  exact ⟨by decide, Or.inl rfl⟩

/-- A model that has learned one flow does not forget it: what is learned next weighs a half. -/
theorem dnsTraining_not_forgotten :
    dnsTraining.target trainsByBytes twoBytes.flow = some 0 ∧
      FlowManager.tooFewPackets twoBytes.flow = false ∧
      ([twoBytes.flow].foldl (flowFinished trainsByBytes)
          (dnsTraining.reset "DNS")).fingerprints 0 ≠
        ([twoBytes.flow].foldl (flowFinished trainsByBytes)
          (dnsTraining.renewed 0 fun _ => 0)).fingerprints 0 := by
  refine ⟨rfl, rfl, fun hsame => ?_⟩
  have hlearns : ProtocolModel.Learns trainsByBytes
      { name := "DNS", flowCount := 1, enabled := true, portHints := []
        attributeMeters := [uniformBytes] } 0 uniformBytes := ⟨rfl, rfl, rfl⟩
  have hone := (fingerprints_reset_iff stored_knowsByBytes (u := dnsTraining) (i := 0) rfl
    (List.cons_ne_nil _ _) (List.forall_mem_singleton.mpr twoBytes.metered)
    (List.forall_mem_singleton.mpr rfl) (fun _ => 0) fun j am hlearns => by
      cases List.mem_singleton.mp (List.mem_of_getElem? hlearns.1)
      decide).mp hsame 0 uniformBytes hlearns
  have hzeroes := hone.resolve_left (by decide)
  have hcarried : carried [twoBytes.flow] uniformBytes.kind =
      [AttributeMeter.measured uniformBytes.kind twoBytes.stale twoBytes.seen] := by
    have hk : trainsByBytes.factory.enabledAttributes uniformBytes.kind = true := rfl
    unfold carried
    rw [List.filterMap_cons, twoBytes.attributeMetersMap_eq, if_pos hk]
    rfl
  have hfills : Fills uniformBytes.kind twoBytes.seen := twoBytes_fills.2
  have hweighed : (AttributeMeter.measured uniformBytes.kind twoBytes.stale twoBytes.seen :
    AttributeMeter ℝ).IsWeighed :=
      (isWeighed_iff_fills twoBytes_fills.1 (Flow.countP_first_le _ _)).mpr hfills
  have hkind : (AttributeMeter.measured uniformBytes.kind twoBytes.stale twoBytes.seen :
    AttributeMeter ℝ).kind = uniformBytes.kind := AttributeMeter.measures_measured.kind
  -- the values of the flow add up to one, so they are not all zero
  have hsum := (isDistribution_iff.mp hweighed).2
  rw [hkind, Finset.sum_eq_zero] at hsum
  · exact zero_ne_one hsum
  · intro x hx
    have hzero := hzeroes x (Finset.mem_range.mp hx)
    rwa [hcarried, List.map_singleton, List.sum_singleton] at hzero

end ProtocolModelUpdater

end Vsid
