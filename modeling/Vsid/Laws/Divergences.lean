import Vsid.Laws.Frequencies
import Vsid.Laws.TrainedDistributions
import Vsid.Laws.Matching
import Vsid.Lib.Divergence

/-!
# What a divergence can be

Where both sides of the comparison are distributions, the sum that the matching loop takes for a
meter is the Kullback–Leibler divergence of the smoothed distributions: no entry is left out and the
sign is never turned. Smoothing keeps it below one bit a meter. So the divergence of a flow from a
model is less than the number of the model's enabled meters, and it is zero only for a model that
the flow agrees with in every share (`klDivergence_bounds`).

The threshold and the starting value of the best match are measured against these bounds
(`differing_classified`, `unmatched_iff`).
-/

set_option autoImplicit false

namespace Vsid

open AttributeMeter Finset

/-- The meters of a model that the matching looks at. -/
def ProtocolModel.enabledMeters {R : Type} (pm : ProtocolModel R) : List (AttributeMeter R) :=
  pm.attributeMeters.filter (·.enabled)

/-- No class has fewer than two shares. -/
theorem MeterKind.two_le_fingerprintSize (k : MeterKind) : 2 ≤ k.fingerprintSize := by
  cases k <;> decide

namespace Flow

/-! ## One meter -/

/-- The sum over the entries, when none is left out. -/
theorem foldl_add_eq_sum {n : Nat} {stored : Nat → ℝ} (hpos : ∀ i < n, 0 < stored i)
    (term : Nat → ℝ) (start : ℝ) :
    (List.range n).foldl (fun sum i => if 0 < stored i then sum + term i else sum) start =
      start + ∑ i ∈ range n, term i := by
  induction n with
  | zero => rw [sum_range_zero, add_zero, List.range_zero, List.foldl_nil]
  | succ n ih =>
    rw [List.range_succ, List.foldl_append, ih fun i hi => hpos i (Nat.lt_succ_of_lt hi),
      List.foldl_cons, List.foldl_nil, if_pos (hpos n (Nat.lt_succ_self n)), sum_range_succ,
      add_assoc]

/-- **The loop takes the divergence of the smoothed shares.** -/
theorem meterDivergence_eq {am pmAm : AttributeMeter ℝ} (hkind : am.kind = pmAm.kind)
    (hsize : pmAm.size = pmAm.kind.fingerprintSize) (ham : am.IsWeighed)
    (hpmAm : pmAm.IsWeighed) :
    meterDivergence am pmAm = divergence 2 pmAm.kind.fingerprintSize
      (fun i => smooth pmAm.kind.fingerprintSize (am.atPos i))
      (fun i => smooth pmAm.kind.fingerprintSize (pmAm.atPos i)) := by
  have hpos : ∀ i < pmAm.kind.fingerprintSize,
      0 < smooth pmAm.kind.fingerprintSize (pmAm.atPos i) := fun i hi =>
    smooth_pos_iff.mpr (neg_one_lt_zero.trans_le ((isDistribution_iff.mp hpmAm).1 i hi))
  have hweighed : IsDistribution pmAm.kind.fingerprintSize am.atPos := hkind ▸ ham
  have hsum := foldl_add_eq_sum hpos (fun i =>
    smooth pmAm.kind.fingerprintSize (am.atPos i) * Real.logb 2
      (smooth pmAm.kind.fingerprintSize (am.atPos i) /
        smooth pmAm.kind.fingerprintSize (pmAm.atPos i))) 0
  rw [zero_add] at hsum
  have hloop : (List.range pmAm.size).foldl
      (fun sum i =>
        let amFp := am.atPos i * am.klFixMultiplier + am.klFixIncrement
        let pmAmFp := pmAm.atPos i * pmAm.klFixMultiplier + pmAm.klFixIncrement
        if 0 < pmAmFp then sum + amFp * Double.log2 (amFp / pmAmFp) else sum) (0 : ℝ) =
      divergence 2 pmAm.kind.fingerprintSize
        (fun i => smooth pmAm.kind.fingerprintSize (am.atPos i))
        (fun i => smooth pmAm.kind.fingerprintSize (pmAm.atPos i)) := by
    rw [hsize]
    unfold klFixMultiplier klFixIncrement
    rw [hkind]
    exact hsum
  unfold meterDivergence
  simp only [hloop]
  exact if_neg (not_lt.mpr (divergence_smooth_nonneg hweighed hpmAm one_lt_two))

/-! ## One model -/

theorem kind_of_attributeMetersMap {R : Type} {f : Flow R} {k : MeterKind} {am : AttributeMeter R}
    (h : f.attributeMetersMap k = some am) : am.kind = k := by
  unfold attributeMetersMap at h
  exact beq_iff_eq.mp (List.find?_some (p := fun m : AttributeMeter R => m.kind == k) h)

/-- What the enabled meters of the model are compared with are distributions, and so are they. -/
def Comparable (f : Flow ℝ) (pm : ProtocolModel ℝ) : Prop :=
  ∀ pmAm ∈ pm.enabledMeters, pmAm.size = pmAm.kind.fingerprintSize ∧ pmAm.IsWeighed ∧
    ∃ am, f.attributeMetersMap pmAm.kind = some am ∧ am.IsWeighed

/-- The flow has the shares that the model expects. -/
def Agrees (f : Flow ℝ) (pm : ProtocolModel ℝ) : Prop :=
  ∀ pmAm ∈ pm.enabledMeters, ∃ am, f.attributeMetersMap pmAm.kind = some am ∧
    ∀ i < pmAm.kind.fingerprintSize, am.atPos i = pmAm.atPos i

/-- What a meter of a model adds to the divergence. -/
noncomputable def divergenceTerm (f : Flow ℝ) (pmAm : AttributeMeter ℝ) : ℝ :=
  ((f.attributeMetersMap pmAm.kind).map (meterDivergence · pmAm)).getD 0

theorem klDivergence_eq (f : Flow ℝ) (pm : ProtocolModel ℝ) :
    f.klDivergence pm = (pm.enabledMeters.map f.divergenceTerm).sum := by
  unfold klDivergence ProtocolModel.enabledMeters
  refine Eq.trans ?_ (zero_add _)
  generalize (0 : ℝ) = d
  induction pm.attributeMeters generalizing d with
  | nil => exact (add_zero d).symm
  | cons pmAm meters ih =>
    rw [List.foldl_cons, ih, List.filter_cons]
    by_cases hon : pmAm.enabled = true
    · rw [if_pos hon, if_pos hon, List.map_cons, List.sum_cons, ← add_assoc]
      unfold divergenceTerm
      cases f.attributeMetersMap pmAm.kind with
      | none => rw [Option.map_none, Option.getD_none, add_zero]
      | some am => rfl
    · rw [if_neg hon, if_neg hon]

section Comparable

variable {f : Flow ℝ} {pm : ProtocolModel ℝ}

/-- One term of a comparison of distributions. -/
theorem Comparable.term (h : f.Comparable pm) {pmAm : AttributeMeter ℝ}
    (hpmAm : pmAm ∈ pm.enabledMeters) :
    0 ≤ f.divergenceTerm pmAm ∧ f.divergenceTerm pmAm < 1 ∧
      (f.divergenceTerm pmAm = 0 ↔ ∃ am, f.attributeMetersMap pmAm.kind = some am ∧
        ∀ i < pmAm.kind.fingerprintSize, am.atPos i = pmAm.atPos i) := by
  obtain ⟨hsize, hweighed, am, ham, hamWeighed⟩ := h pmAm hpmAm
  have hkind := kind_of_attributeMetersMap ham
  have hp : IsDistribution pmAm.kind.fingerprintSize am.atPos := hkind ▸ hamWeighed
  have hterm : f.divergenceTerm pmAm = meterDivergence am pmAm := by
    unfold divergenceTerm
    rw [ham]
    rfl
  rw [hterm, meterDivergence_eq hkind hsize hamWeighed hweighed]
  refine ⟨divergence_smooth_nonneg hp hweighed one_lt_two,
    divergence_smooth_lt_one hp hweighed le_rfl pmAm.kind.two_le_fingerprintSize, ?_⟩
  rw [divergence_smooth_eq_zero_iff hp hweighed one_lt_two]
  refine ⟨fun h => ⟨am, ham, h⟩, fun ⟨am', ham', h⟩ => ?_⟩
  rw [ham] at ham'
  cases ham'
  exact h

theorem Comparable.nonneg (h : f.Comparable pm) : 0 ≤ f.klDivergence pm := by
  rw [klDivergence_eq]
  refine List.sum_nonneg fun d hd => ?_
  obtain ⟨pmAm, hpmAm, rfl⟩ := List.mem_map.mp hd
  exact (h.term hpmAm).1

/-- Each enabled meter adds less than one. -/
theorem Comparable.lt (h : f.Comparable pm) :
    f.klDivergence pm < max 1 (pm.enabledMeters.length : ℝ) := by
  rw [klDivergence_eq]
  unfold Comparable at h
  have hterms : ∀ pmAm ∈ pm.enabledMeters, f.divergenceTerm pmAm < 1 := fun pmAm hpmAm =>
    (Comparable.term h hpmAm).2.1
  generalize pm.enabledMeters = meters at hterms
  cases meters with
  | nil => exact lt_max_of_lt_left zero_lt_one
  | cons pmAm meters =>
    refine lt_max_of_lt_right ?_
    have hlt : ((pmAm :: meters).map f.divergenceTerm).sum <
        ((pmAm :: meters).map fun _ => (1 : ℝ)).sum :=
      List.sum_lt_sum_of_ne_nil (List.cons_ne_nil _ _) _ _ hterms
    rwa [List.map_const', List.sum_replicate, nsmul_eq_mul, mul_one] at hlt

theorem Comparable.eq_zero_iff (h : f.Comparable pm) : f.klDivergence pm = 0 ↔ f.Agrees pm := by
  rw [klDivergence_eq]
  unfold Agrees
  constructor
  · intro hzero pmAm hpmAm
    rw [← (h.term hpmAm).2.2]
    refine List.all_zero_of_le_zero_le_of_sum_eq_zero ?_ hzero (List.mem_map_of_mem hpmAm)
    intro d hd
    obtain ⟨pmAm', hpmAm', rfl⟩ := List.mem_map.mp hd
    exact (h.term hpmAm').1
  · intro hagrees
    refine List.sum_eq_zero fun d hd => ?_
    obtain ⟨pmAm, hpmAm, rfl⟩ := List.mem_map.mp hd
    exact (h.term hpmAm).2.2.mpr (hagrees pmAm hpmAm)

end Comparable

/-! ## What the packets have to give -/

variable {S : Setup ℝ}

/-- A flow that has shown every enabled class something is compared with a trained model as a
distribution with distributions. -/
theorem comparable_of_fills (hstored : Stored S.factory S.database) {p : IPv4Packet}
    {stale : FirstBytes} {packets : List IPv4Packet} {q : IPv4Packet} {g : Flow ℝ}
    (hg : (ofPackets S p stale packets).examined S q = some g) {pm : ProtocolModel ℝ}
    (hpm : pm ∈ S.database.protocolModelOrder)
    (hdist : ∀ pmAm ∈ pm.enabledMeters,
      IsDistribution pmAm.kind.fingerprintSize fun i => pmAm.fingerprint.getD i 0)
    (hfills : ∀ pmAm ∈ pm.enabledMeters,
      Divides pmAm.kind ((Flow.new S p stale).observations S (packets ++ [q])) ∧
        Fills pmAm.kind ((Flow.new S p stale).observations S (packets ++ [q]))) :
    g.Comparable pm := by
  intro pmAm hpmAm
  obtain ⟨hmem, hon⟩ := List.mem_filter.mp hpmAm
  obtain ⟨hdb, hlength, henabled⟩ := hstored pm hpm pmAm hmem
  obtain ⟨hdivides, hfill⟩ := hfills pmAm hpmAm
  refine ⟨hlength, ?_, _, attributeMetersMap_of_measured (attributeMeters_examined hg)
    (henabled hon), (isWeighed_iff_fills hdivides (countP_first_le _ _)).mpr hfill⟩
  exact (isDistribution_congr fun i hi => atPos_of_fromDb hdb (hlength.symm ▸ hi)).mpr
    (hdist pmAm hpmAm)

/-- **The bounds of a divergence.** For every flow that a packet opens, every sequence of packets and
every packet after them that is examined: if the packets give every class that the model looks at a
distribution, and the model's own fingerprints are distributions, the divergence from the model is
not negative, it is less than the number of the model's enabled meters (or than one), and it is zero
exactly if the flow has all the shares that the model expects. -/
theorem klDivergence_bounds (hstored : Stored S.factory S.database) {p : IPv4Packet}
    {stale : FirstBytes} {packets : List IPv4Packet} {q : IPv4Packet} {g : Flow ℝ}
    (hg : (ofPackets S p stale packets).examined S q = some g) {pm : ProtocolModel ℝ}
    (hpm : pm ∈ S.database.protocolModelOrder)
    (hdist : ∀ pmAm ∈ pm.enabledMeters,
      IsDistribution pmAm.kind.fingerprintSize fun i => pmAm.fingerprint.getD i 0)
    (hfills : ∀ pmAm ∈ pm.enabledMeters,
      Divides pmAm.kind ((Flow.new S p stale).observations S (packets ++ [q])) ∧
        Fills pmAm.kind ((Flow.new S p stale).observations S (packets ++ [q]))) :
    0 ≤ g.klDivergence pm ∧ g.klDivergence pm < max 1 (pm.enabledMeters.length : ℝ) ∧
      (g.klDivergence pm = 0 ↔ g.Agrees pm) := by
  have hcomparable := comparable_of_fills hstored hg hpm hdist hfills
  exact ⟨hcomparable.nonneg, hcomparable.lt, hcomparable.eq_zero_iff⟩

/-- The model that `knowsByBytes` knows. -/
noncomputable def dnsByBytes : ProtocolModel ℝ :=
  { name := "DNS", flowCount := 1, enabled := true, portHints := [],
    attributeMeters := [uniformBytes] }

theorem isDistribution_uniformBytes : IsDistribution uniformBytes.kind.fingerprintSize fun i =>
    uniformBytes.fingerprint.getD i 0 :=
  (ProtocolModelUpdater.distributed_dnsTraining _ List.mem_cons_self uniformBytes
    List.mem_cons_self).2.resolve_left (by decide)

/-- The meter of the flows whose bytes are all `1`. -/
noncomputable def onlyOnes : AttributeMeter ℝ :=
  { uniformBytes with fingerprint := (List.range 256).map fun i => if i = 1 then 1 else 0 }

noncomputable def ntpByBytes : ProtocolModel ℝ :=
  { dnsByBytes with name := "NTP", attributeMeters := [onlyOnes] }

/-- A program that knows both models and decides at some packet. -/
noncomputable def knowsTwo (limit : UInt32) : Setup ℝ :=
  { knowsByBytes with
    database :=
      { knowsByBytes.database with
        definingLimit := limit, protocolModelOrder := [ntpByBytes, dnsByBytes] } }

theorem getD_onlyOnes {i : Nat} (hi : i < 256) :
    onlyOnes.fingerprint.getD i 0 = if i = 1 then (1 : ℝ) else 0 := by
  rw [List.getD_eq_getElem?_getD, onlyOnes, List.getElem?_map, List.getElem?_range hi]
  rfl

theorem isDistribution_onlyOnes :
    IsDistribution 256 fun i => onlyOnes.fingerprint.getD i 0 := by
  refine isDistribution_iff.mpr ⟨fun i hi => ?_, ?_⟩
  · rw [getD_onlyOnes hi]
    split
    · exact zero_le_one
    · exact le_rfl
  · rw [Finset.sum_congr rfl fun i hi => getD_onlyOnes (Finset.mem_range.mp hi),
      Finset.sum_ite_eq', if_pos (Finset.mem_range.mpr (by decide))]

/-- What the two models compare are distributions of bytes. -/
theorem meters_knowsTwo {pm : ProtocolModel ℝ} (hpm : pm ∈ [ntpByBytes, dnsByBytes])
    {am : AttributeMeter ℝ} (ham : am ∈ pm.attributeMeters) :
    am.fromDb = true ∧ am.kind = .byteFrequency ∧ am.fingerprint.length = 256 ∧
      IsDistribution am.kind.fingerprintSize fun i => am.fingerprint.getD i 0 := by
  simp only [List.mem_cons, List.not_mem_nil, or_false] at hpm
  rcases hpm with rfl | rfl
  · rw [List.mem_singleton.mp ham]
    exact ⟨rfl, rfl, (List.length_map _).trans List.length_range, isDistribution_onlyOnes⟩
  · rw [List.mem_singleton.mp ham]
    exact ⟨rfl, rfl, List.length_replicate, isDistribution_uniformBytes⟩

theorem stored_knowsTwo (limit : UInt32) :
    Stored (knowsTwo limit).factory (knowsTwo limit).database := by
  intro pm hpm am ham
  obtain ⟨hdb, hkind, hlength, -⟩ := meters_knowsTwo hpm ham
  exact ⟨hdb, by rw [hlength, hkind]; rfl, fun _ => by rw [hkind]; rfl⟩

/-- What the meters see of the first datagram. -/
def firstOne : Observation := { reading := ⟨1, true, .unknown, .origToDest⟩, packet := oneByte }

/-- What they see of two datagrams of the byte `1`. -/
def twoOnes : List Observation :=
  [firstOne, { reading := ⟨2, false, .origToDest, .origToDest⟩, packet := oneByte }]

theorem firstOne_fills (rest : List Observation) :
    Divides .byteFrequency (firstOne :: rest) ∧ Fills .byteFrequency (firstOne :: rest) := by
  refine ⟨fun h => ?_, ⟨_, List.mem_cons_self, rfl⟩, fun h => by cases h⟩
  rcases h with h | h <;> cases h

/-- The first datagram is not decided on, and the second one is examined. -/
theorem exists_twoOnes (limit : UInt32) (hlimit : 1 < limit) :
    ((Flow.new (knowsTwo limit) oneByte fun _ => 0).addPacket (knowsTwo limit)
        oneByte).flowClassified = false ∧
      ∃ g, (ofPackets (knowsTwo limit) oneByte (fun _ => 0) [oneByte]).examined (knowsTwo limit)
          oneByte = some g ∧ g.pktCount = 2 ∧
        g.looksAt (knowsTwo limit) = [ntpByBytes, dnsByBytes] ∧
        (Flow.new (knowsTwo limit) oneByte fun _ => 0).observations (knowsTwo limit)
          [oneByte, oneByte] = twoOnes := by
  have hone : (Flow.new (knowsTwo limit) oneByte fun _ => 0).examined (knowsTwo limit) oneByte =
      some _ := rfl
  obtain ⟨hopen, r, hnext⟩ := examined_after (S := knowsTwo limit) rfl hone hlimit oneByte
  have hexamined : (ofPackets (knowsTwo limit) oneByte (fun _ => 0) [oneByte]).examined
      (knowsTwo limit) oneByte = some _ := hnext
  refine ⟨hopen, _, hexamined, rfl, rfl, ?_⟩
  show (Flow.new (knowsTwo limit) oneByte fun _ => 0).observations (knowsTwo limit)
    ([oneByte] ++ [oneByte]) = twoOnes
  rw [observations_append]
  unfold ofPackets at hexamined
  unfold observe
  rw [hexamined]
  rfl

/-- A flow of nothing but the byte `1` fits the one model exactly, and not the other. -/
theorem agrees_ones {g : Flow ℝ} {obs : List Observation} {n : Nat}
    (hones : obs.flatMap (Observation.covered .byteFrequency) = List.replicate (n + 1) 1)
    (h : g.attributeMetersMap .byteFrequency = some (measured .byteFrequency (fun _ => 0) obs)) :
    g.Agrees ntpByBytes ∧ ¬ g.Agrees dnsByBytes := by
  have hshare : ∀ i < 256, (measured .byteFrequency (fun _ => 0) obs :
      AttributeMeter ℝ).atPos i = if i = 1 then 1 else 0 := by
    intro i hi
    have hcovered : (measured .byteFrequency (fun _ => 0) obs : AttributeMeter ℝ).IsFrequencyOf
        (obs.flatMap (Observation.covered .byteFrequency)) := frequency_covered (Or.inl rfl)
    have hat := hcovered.share (UInt8.ofNat i)
    rw [UInt8.toNat_ofNat', Nat.mod_eq_of_lt hi] at hat
    rw [hat, hones, List.count_replicate, List.length_replicate]
    by_cases hone : i = 1
    · rw [if_pos hone, hone, if_pos (by decide)]
      exact div_self (Nat.cast_ne_zero.mpr n.succ_ne_zero)
    · have hne : ((1 : UInt8) == UInt8.ofNat i) = false := by
        refine beq_eq_false_iff_ne.mpr fun h => hone ?_
        have hnat := congrArg UInt8.toNat h
        rw [UInt8.toNat_ofNat', Nat.mod_eq_of_lt hi] at hnat
        exact hnat.symm
      rw [if_neg hone, hne, if_neg Bool.false_ne_true, Nat.cast_zero, zero_div]
  constructor
  · intro pmAm hpmAm
    obtain rfl : pmAm = onlyOnes := List.mem_singleton.mp (List.mem_filter.mp hpmAm).1
    refine ⟨_, h, fun i hi => ?_⟩
    have hlength : i < onlyOnes.fingerprint.length :=
      ((List.length_map _).trans List.length_range).symm ▸ hi
    rw [hshare i hi, atPos_of_fromDb rfl hlength, getD_onlyOnes hi]
  · intro hagrees
    obtain ⟨am, ham, hshares⟩ :=
      hagrees uniformBytes (List.mem_filter.mpr ⟨List.mem_cons_self, rfl⟩)
    cases h.symm.trans ham
    have hzero := (hshare 0 (by decide)).symm.trans (hshares 0 (by decide))
    have hexpected : uniformBytes.atPos 0 = 1 / 256 := rfl
    rw [hexpected, if_neg (by decide)] at hzero
    norm_num at hzero

/-- What the flow shows is a distribution, as it is for both models. -/
theorem fills_knowsTwo {pm : ProtocolModel ℝ} (hpm : pm ∈ [ntpByBytes, dnsByBytes])
    (rest : List Observation) : ∀ pmAm ∈ pm.enabledMeters,
      IsDistribution pmAm.kind.fingerprintSize (fun i => pmAm.fingerprint.getD i 0) ∧
        Divides pmAm.kind (firstOne :: rest) ∧ Fills pmAm.kind (firstOne :: rest) := by
  intro pmAm hpmAm
  obtain ⟨-, hkind, -, hdist⟩ := meters_knowsTwo hpm (List.mem_filter.mp hpmAm).1
  exact ⟨hdist, hkind ▸ firstOne_fills rest⟩

/-- Two datagrams of the byte `1` have no divergence from the first model and some from the second,
of less than one bit. -/
theorem twoOnes_bounds :
    ∃ g, (ofPackets (knowsTwo 2) oneByte (fun _ => 0) [oneByte]).examined (knowsTwo 2) oneByte =
        some g ∧
      g.klDivergence ntpByBytes = 0 ∧ 0 < g.klDivergence dnsByBytes ∧
      g.klDivergence dnsByBytes < 1 := by
  obtain ⟨-, g, hg, -, -, hseen⟩ := exists_twoOnes 2 (by decide)
  have hbounds : ∀ pm ∈ [ntpByBytes, dnsByBytes], 0 ≤ g.klDivergence pm ∧
      g.klDivergence pm < max 1 (pm.enabledMeters.length : ℝ) ∧
      (g.klDivergence pm = 0 ↔ g.Agrees pm) := by
    intro pm hpm
    have hfills := fills_knowsTwo hpm twoOnes.tail
    exact klDivergence_bounds (stored_knowsTwo 2) hg hpm (fun pmAm hpmAm => (hfills pmAm hpmAm).1)
      fun pmAm hpmAm => hseen ▸ (hfills pmAm hpmAm).2
  have hfound := attributeMetersMap_of_measured (attributeMeters_examined hg)
    (k := .byteFrequency) rfl
  obtain ⟨hfits, hdiffers⟩ := agrees_ones (n := 1) rfl (hseen ▸ hfound)
  obtain ⟨-, -, hones⟩ := hbounds ntpByBytes List.mem_cons_self
  obtain ⟨hnonneg, hlt, hdns⟩ := hbounds dnsByBytes (List.mem_cons_of_mem _ List.mem_cons_self)
  refine ⟨g, hg, hones.mpr hfits, lt_of_le_of_ne hnonneg fun h => hdiffers (hdns.mp h.symm), ?_⟩
  refine hlt.trans_eq ?_
  show max 1 ((1 : Nat) : ℝ) = 1
  norm_num

/-! ## Thresholds above the bounds -/

theorem Comparable.pos_iff {f : Flow ℝ} {pm : ProtocolModel ℝ} (h : f.Comparable pm) :
    0 < f.klDivergence pm ↔ ¬ f.Agrees pm := by
  rw [← h.eq_zero_iff, ← ne_eq, ← h.nonneg.lt_iff_ne']

/-- Under a threshold that no divergence reaches, a model fits if anything differs. -/
theorem Comparable.fits_iff {f : Flow ℝ} {pm : ProtocolModel ℝ} (h : f.Comparable pm)
    (hthreshold : max 1 (pm.enabledMeters.length : ℝ) ≤ S.config.divergenceThreshold) :
    f.Fits S pm ↔ ¬ f.Agrees pm := by
  unfold Fits
  rw [h.pos_iff]
  exact and_iff_left (h.lt.trans_le hthreshold)

/-- **A high threshold takes the first model that differs.** If no enabled model has more enabled
meters than the threshold, then at a packet from the defining limit on, every flow that is compared
as a distribution gets the name of the first enabled model, in search order, that it does not agree
with in every share, whatever the models after it. -/
theorem differing_classified (hmode : S.config.learningMode = false) {f g : Flow ℝ}
    {p : IPv4Packet} (hg : f.examined S p = some g)
    (hlimit : S.database.definingLimit ≤ g.pktCount)
    (hcomparable : ∀ pm ∈ g.looksAt S, g.Comparable pm)
    (hthreshold : ∀ pm ∈ g.looksAt S,
      max 1 (pm.enabledMeters.length : ℝ) ≤ S.config.divergenceThreshold)
    (hdiffers : ∃ pm ∈ g.looksAt S, ¬ g.Agrees pm) :
    (f.addPacket S p).flowClassified = true ∧
      ∃ front pm back, g.looksAt S = front ++ pm :: back ∧ (∀ pm' ∈ front, g.Agrees pm') ∧
        ¬ g.Agrees pm ∧ (f.addPacket S p).classifiedProtocol = pm.name ∧
        (f.addPacket S p).classifiedDivergence = g.klDivergence pm := by
  have hfits : ∀ pm ∈ g.looksAt S, (g.accepts S pm = true ↔ ¬ g.Agrees pm) := fun pm hpm => by
    rw [accepts_iff, (hcomparable pm hpm).fits_iff (hthreshold pm hpm)]
    exact and_iff_right hlimit
  rw [addPacket_of_examined hg]
  rcases classify_first hmode (examined_sameResult hg).2 rfl with
    ⟨front, pm, back, hsplit, haccept, hfront, best, heq⟩ | ⟨hnone, -⟩
  · rw [heq]
    have hpm : pm ∈ g.looksAt S := hsplit ▸ List.mem_append_right _ List.mem_cons_self
    refine ⟨rfl, front, pm, back, hsplit, fun pm' hpm' => ?_, (hfits pm hpm).mp haccept, rfl, rfl⟩
    have hmem : pm' ∈ g.looksAt S := hsplit ▸ List.mem_append_left _ hpm'
    by_contra hdiffer
    rw [← hfits pm' hmem, hfront pm' hpm'] at hdiffer
    exact Bool.false_ne_true hdiffer
  · obtain ⟨pm, hpm, hdiffer⟩ := hdiffers
    rw [← hfits pm hpm, hnone pm hpm] at hdiffer
    exact absurd hdiffer Bool.false_ne_true

/-- The flow is compared with both models as a distribution. -/
theorem comparable_knowsTwo {limit : UInt32} {packets : List IPv4Packet} {g : Flow ℝ}
    (hg : (ofPackets (knowsTwo limit) oneByte (fun _ => 0) packets).examined (knowsTwo limit)
      oneByte = some g) {rest : List Observation}
    (hseen : (Flow.new (knowsTwo limit) oneByte fun _ => 0).observations (knowsTwo limit)
      (packets ++ [oneByte]) = firstOne :: rest) :
    ∀ pm ∈ g.looksAt (knowsTwo limit), g.Comparable pm ∧ pm.enabledMeters.length ≤ 1 := by
  intro pm hpm
  have hmem : pm ∈ [ntpByBytes, dnsByBytes] := (mem_looksAt hpm).1
  have hfills := fills_knowsTwo hmem rest
  refine ⟨comparable_of_fills (stored_knowsTwo limit) hg hmem
    (fun pmAm hpmAm => (hfills pmAm hpmAm).1) fun pmAm hpmAm => hseen ▸ (hfills pmAm hpmAm).2,
    (List.length_filter_le _ _).trans ?_⟩
  simp only [List.mem_cons, List.not_mem_nil, or_false] at hmem
  rcases hmem with rfl | rfl <;> exact le_refl 1

/-- At the second packet the flow fits the first model exactly, and is classified as the other. -/
theorem twoOnes_differing :
    ∃ g, (ofPackets (knowsTwo 2) oneByte (fun _ => 0) [oneByte]).examined (knowsTwo 2) oneByte =
        some g ∧ g.Agrees ntpByBytes ∧
      ((ofPackets (knowsTwo 2) oneByte (fun _ => 0) [oneByte]).addPacket (knowsTwo 2)
        oneByte).classifiedProtocol = "DNS" := by
  obtain ⟨-, g, hg, hcount, hlooks, hseen⟩ := exists_twoOnes 2 (by decide)
  have hfound := attributeMetersMap_of_measured (attributeMeters_examined hg)
    (k := .byteFrequency) rfl
  obtain ⟨hfits, hdiffers⟩ := agrees_ones (n := 1) rfl (hseen ▸ hfound)
  have hcomparable := comparable_knowsTwo hg hseen
  have hthreshold : ∀ pm ∈ g.looksAt (knowsTwo 2),
      max 1 (pm.enabledMeters.length : ℝ) ≤ (knowsTwo 2).config.divergenceThreshold := by
    intro pm hpm
    refine max_le ?_ (le_trans (Nat.cast_le.mpr (hcomparable pm hpm).2) ?_)
    all_goals
      show _ ≤ ((2 : Nat) : ℝ)
      norm_num
  have hdns : dnsByBytes ∈ g.looksAt (knowsTwo 2) :=
    hlooks ▸ List.mem_cons_of_mem _ List.mem_cons_self
  obtain ⟨-, front, pm, back, hsplit, -, hnot, hname, -⟩ := differing_classified rfl hg
    (hcount ▸ UInt32.le_refl 2) (fun pm hpm => (hcomparable pm hpm).1) hthreshold
    ⟨dnsByBytes, hdns, hdiffers⟩
  refine ⟨g, hg, hfits, hname.trans ?_⟩
  have hpm : pm ∈ [ntpByBytes, dnsByBytes] :=
    hlooks ▸ hsplit ▸ List.mem_append_right _ List.mem_cons_self
  simp only [List.mem_cons, List.not_mem_nil, or_false] at hpm
  rcases hpm with rfl | rfl
  · exact absurd hfits hnot
  · rfl

end Flow

/-! ## The starting value of the best match -/

/-- **The best match is the closest model that ever differed.** In every life of a flow in
classification mode in which everything is compared as a distribution, with models of at most a
hundred enabled meters: as long as the flow is unclassified, either it has agreed with every model at
every packet, and the best match is the starting value; or the best match is a model that differed
at one of the packets, and no model that differed at any packet was closer then. -/
theorem bestMatch_of_life {S : Setup ℝ} (hmode : S.config.learningMode = false) {p : IPv4Packet}
    {stale : FirstBytes} {e : FlowHistory ℝ}
    (h : Lives S (fun _ _ => True) (Flow.new S p stale) e) (hopen : e.flow.flowClassified = false)
    (hcomparable : ∀ g ∈ e.examined, ∀ pm ∈ g.looksAt S,
      g.Comparable pm ∧ pm.enabledMeters.length ≤ 100) :
    ((∀ g ∈ e.examined, ∀ pm ∈ g.looksAt S, g.Agrees pm) ∧
        e.flow.bestMatchProtocol = "" ∧ e.flow.bestMatchDivergence = 100) ∨
      ∃ g ∈ e.examined, ∃ pm ∈ g.looksAt S, ¬ g.Agrees pm ∧
        e.flow.bestMatchProtocol = pm.name ∧ e.flow.bestMatchDivergence = g.klDivergence pm ∧
        ∀ g' ∈ e.examined, ∀ pm' ∈ g'.looksAt S, ¬ g'.Agrees pm' →
          g.klDivergence pm ≤ g'.klDivergence pm' := by
  have hmatched : Matched S e :=
    h.invariant (I := Matched S) (matched_start p stale) fun _ _ _ hold _ hcall =>
      hold.call hmode hcall
  have hoffer : ∀ g ∈ e.examined, ∀ pm ∈ g.looksAt S, ¬ g.Agrees pm →
      (g.klDivergence pm, pm.name) ∈ e.examined.flatMap (Flow.offers S) := by
    intro g hg pm hpm hdiffers
    refine List.mem_flatMap.mpr ⟨g, hg, List.mem_map.mpr ⟨pm, List.mem_filter.mpr ⟨hpm, ?_⟩, rfl⟩⟩
    exact decide_eq_true ((hcomparable g hg pm hpm).1.pos_iff.mpr hdiffers)
  have hmin := firstMin_candidates (S := S) e.examined
  rw [← hmatched.best hopen] at hmin
  have hleast : ∀ g' ∈ e.examined, ∀ pm' ∈ g'.looksAt S, ¬ g'.Agrees pm' →
      e.flow.bestMatchDivergence ≤ g'.klDivergence pm' := fun g' hg' pm' hpm' hdiffers =>
    not_lt.mp (hmin.not_lt (List.mem_cons_of_mem _ (hoffer g' hg' pm' hpm' hdiffers)))
  rcases List.mem_cons.mp hmin.mem with hstart | hoffered
  · obtain ⟨hdivergence, hname⟩ := Prod.mk.inj hstart
    refine Or.inl ⟨fun g hg pm hpm => ?_, hname, hdivergence⟩
    by_contra hdiffers
    have hle := hleast g hg pm hpm hdiffers
    obtain ⟨hcmp, hcount⟩ := hcomparable g hg pm hpm
    have hbound : max 1 (pm.enabledMeters.length : ℝ) ≤ ((100 : Nat) : ℝ) :=
      max_le (by norm_num) (Nat.cast_le.mpr hcount)
    rw [hdivergence] at hle
    exact absurd (hcmp.lt.trans_le hbound) (not_lt.mpr hle)
  · obtain ⟨g, hg, hmem⟩ := List.mem_flatMap.mp hoffered
    obtain ⟨pm, hpm, heq⟩ := List.mem_map.mp hmem
    obtain ⟨hlooks, hpos⟩ := List.mem_filter.mp hpm
    obtain ⟨hdivergence, hname⟩ := Prod.mk.inj heq
    refine Or.inr ⟨g, hg, pm, hlooks, ?_, hname.symm, hdivergence.symm, ?_⟩
    · exact (hcomparable g hg pm hlooks).1.pos_iff.mp (of_decide_eq_true hpos)
    · rw [hdivergence]
      exact hleast

/-- After two datagrams the second model is the best match: the first one, which fits exactly, never
is. -/
theorem twoOnes_bestMatch :
    ((Flow.new (Flow.knowsTwo 10) Flow.oneByte fun _ => 0).addPackets (Flow.knowsTwo 10)
      [Flow.oneByte, Flow.oneByte]).bestMatchProtocol = "DNS" := by
  obtain ⟨-, g, hg, hcount, hlooks, hseen⟩ := Flow.exists_twoOnes 10 (by decide)
  obtain ⟨k, hk, hone⟩ : ∃ k, (Flow.ofPackets (Flow.knowsTwo 10) Flow.oneByte (fun _ => 0)
      []).examined (Flow.knowsTwo 10) Flow.oneByte = some k ∧
        (Flow.new (Flow.knowsTwo 10) Flow.oneByte fun _ => 0).observations (Flow.knowsTwo 10)
          ([] ++ [Flow.oneByte]) = [Flow.firstOne] := ⟨_, rfl, rfl⟩
  obtain ⟨e, hlife, hexamined, hflow⟩ : ∃ e, Lives (Flow.knowsTwo 10) (fun _ _ => True)
      (Flow.new (Flow.knowsTwo 10) Flow.oneByte fun _ => 0) e ∧ e.examined = [k, g] ∧
        e.flow = (Flow.new (Flow.knowsTwo 10) Flow.oneByte fun _ => 0).addPackets
          (Flow.knowsTwo 10) [Flow.oneByte, Flow.oneByte] := by
    refine ⟨_, Run.tail (.addPacket Flow.oneByte) (Run.tail (.addPacket Flow.oneByte) .refl trivial
      rfl) trivial rfl, ?_, rfl⟩
    unfold Flow.ofPackets at hk hg
    exact congrArg₂ (fun first second => [] ++ Option.toList first ++ Option.toList second) hk hg
  have hopen := (Flow.examined_after (S := Flow.knowsTwo 10) rfl hg
    (hcount ▸ (by decide : (2 : UInt32) < 10)) Flow.oneByte).1
  -- at both packets the flow fits the first model and not the other
  have hboth : ∀ g' ∈ e.examined, (∀ pm ∈ g'.looksAt (Flow.knowsTwo 10), g'.Comparable pm ∧
      pm.enabledMeters.length ≤ 1) ∧ g'.Agrees Flow.ntpByBytes ∧ ¬ g'.Agrees Flow.dnsByBytes := by
    intro g' hg'
    simp only [hexamined, List.mem_cons, List.not_mem_nil, or_false] at hg'
    rcases hg' with rfl | rfl
    · refine ⟨Flow.comparable_knowsTwo hk hone, ?_⟩
      exact Flow.agrees_ones (n := 0) rfl (hone ▸ Flow.attributeMetersMap_of_measured
        (Flow.attributeMeters_examined hk) rfl)
    · refine ⟨Flow.comparable_knowsTwo hg hseen, ?_⟩
      exact Flow.agrees_ones (n := 1) rfl (hseen ▸ Flow.attributeMetersMap_of_measured
        (Flow.attributeMeters_examined hg) rfl)
  rw [← hflow]
  rcases bestMatch_of_life rfl hlife (hflow ▸ hopen) fun g' hg' pm hpm =>
      ⟨((hboth g' hg').1 pm hpm).1, ((hboth g' hg').1 pm hpm).2.trans (by decide)⟩ with
    ⟨hagrees, -⟩ | ⟨g', hg', pm, hpm, hnot, hname, -⟩
  · have hmem : g ∈ e.examined := hexamined ▸ List.mem_cons_of_mem _ List.mem_cons_self
    have hdns : Flow.dnsByBytes ∈ g.looksAt (Flow.knowsTwo 10) :=
      hlooks ▸ List.mem_cons_of_mem _ List.mem_cons_self
    exact absurd (hagrees g hmem _ hdns) (hboth g hmem).2.2
  · have hmem : pm ∈ [Flow.ntpByBytes, Flow.dnsByBytes] := (Flow.mem_looksAt hpm).1
    simp only [List.mem_cons, List.not_mem_nil, or_false] at hmem
    rcases hmem with rfl | rfl
    · exact absurd (hboth g' hg').2.1 hnot
    · exact hname

end Vsid
