import Mathlib.Data.Nat.Digits.Defs
import Vsid.Laws.Measuring
import Vsid.Lib.Distribution

/-!
# What the meters observe

A meter is shown the packets of its flow that are examined, each with what it reads of the flow.
What it holds after that is said here for every class, in real arithmetic: the counting classes hold
a tally and a total, the others one share and what it leaves. `Observes` says when the values are
weights that add up to one, as the comparison with a model wants them (`smoothed_iff`).
-/

set_option autoImplicit false

namespace Vsid

/-- Real arithmetic, without rounding. -/
noncomputable instance : Double ℝ := Double.exact (Real.logb 2)

/-- A packet that the meters are shown, and what they read of its flow. -/
structure Observation where
  reading : FlowReading
  packet : IPv4Packet

namespace Observation

/-- The packet has a payload. -/
def hasData (o : Observation) : Bool := o.packet.dataSize != 0

/-- A payload among the first eight packets. -/
def isEarly (o : Observation) : Bool := decide (o.reading.pktCount ≤ 8) && o.hasData

/-- A payload in a known direction. -/
def isDirected (o : Observation) : Bool :=
  o.hasData && decide (o.reading.currentPacketDirection ≠ .unknown)

/-- The packets that the two classes of byte counts look at. -/
def isCounted (k : MeterKind) (o : Observation) : Bool :=
  match k with
  | .directionBytesCountFirst10Packet => o.hasData && decide (o.reading.pktCount ≤ 10)
  | _ => o.hasData

/-- The packets that the two classes of direction changes look at. -/
def isNumbered (k : MeterKind) (o : Observation) : Bool :=
  match k with
  | .directionChangesFirst8Packets => decide (o.reading.pktCount ≤ 8)
  | _ => true

/-- The first payload from originator to destination. -/
def isFirst (o : Observation) : Bool := o.reading.isFirstPacket && o.hasData

/-- A payload that answers a packet of the other direction. -/
def isReaction (o : Observation) : Bool := AttributeMeter.isReaction o.reading && o.hasData

/-- The payload that the packet would have if it filled a frame. -/
def maxSize (o : Observation) : Nat :=
  match o.packet.transport with
  | .tcp _ => 1460
  | .udp => 1476

/-- The size of the payload, as a share of a frame. -/
noncomputable def share (o : Observation) : ℝ := (o.packet.dataSize : ℝ) / (o.maxSize : ℝ)

/-- The bytes that the classes count which look at each packet alone. -/
def covered (k : MeterKind) (o : Observation) : List UInt8 :=
  match k with
  | .first4ByteFrequency => o.packet.data.take 4
  | .first16ByteFrequency => o.packet.data.take 16
  | .byteFrequencyFirstOrigToDestPacket =>
    if o.reading.isFirstPacket then o.packet.data else []
  | _ => o.packet.data

end Observation

namespace AttributeMeter

/-- A new meter that was shown some packets. -/
def measured {R : Type} [Double R] (k : MeterKind) (stale : FirstBytes) (obs : List Observation) :
    AttributeMeter R :=
  obs.foldl (fun m o => m.calculateMeasurement o.reading o.packet) (create k stale)

section General

variable {R : Type} [Double R] {k : MeterKind} {stale : FirstBytes} {obs : List Observation}

theorem measured_append (o : Observation) :
    (measured k stale (obs ++ [o]) : AttributeMeter R) =
      (measured k stale obs).calculateMeasurement o.reading o.packet :=
  List.foldl_concat ..

theorem measures_measured : Measures k (measured k stale obs : AttributeMeter R) := by
  induction obs using List.reverseRecOn with
  | nil => exact measures_create k stale
  | append_singleton obs o ih =>
    rw [measured_append]
    exact ih.calculateMeasurement o.reading o.packet

/-- What a class does not look at can be left out. -/
theorem measured_filter_of_skip {test : Observation → Bool}
    (hskip : ∀ (m : AttributeMeter R) (o : Observation), m.kind = k → test o = false →
      m.calculateMeasurement o.reading o.packet = m) :
    (measured k stale obs : AttributeMeter R) = measured k stale (obs.filter test) := by
  induction obs using List.reverseRecOn with
  | nil => rfl
  | append_singleton obs o ih =>
    rw [measured_append, List.filter_append, List.filter_singleton]
    cases htest : test o with
    | true => rw [cond_true, measured_append, ← ih]
    | false => rw [cond_false, List.append_nil, ← ih, hskip _ o measures_measured.kind htest]

end General

variable {k : MeterKind} {stale : FirstBytes} {obs : List Observation} {m : AttributeMeter ℝ}

/-! ## Reading a meter -/

theorem atPos_of_lt {i : Nat} (hi : i < m.fingerprint.length) :
    m.atPos i =
      if m.kind.dividesByTotal && !m.fromDb then m.fingerprint.getD i 0 / (m.overall : ℝ)
      else m.fingerprint.getD i 0 := by
  unfold atPos
  rw [List.getElem?_eq_getElem hi]
  simp only [List.getD_eq_getElem _ _ hi]
  split
  · split
    next h => rw [beq_iff_eq.mp h, Nat.cast_zero, div_zero]
    next => rfl
  · rfl

/-- A meter that was read shows what it holds. -/
theorem atPos_of_fromDb (hdb : m.fromDb = true) {i : Nat} (hi : i < m.fingerprint.length) :
    m.atPos i = m.fingerprint.getD i 0 := by
  rw [atPos_of_lt hi, hdb, Bool.not_true, Bool.and_false, if_neg Bool.false_ne_true]

/-- The values of a meter are weights that smoothing makes positive, and add up to one. -/
def Weighs (m : AttributeMeter ℝ) : Prop :=
  (∀ i < m.kind.fingerprintSize, -1 < m.atPos i) ∧
    ∑ i ∈ Finset.range m.kind.fingerprintSize, m.atPos i = 1

/-- The values are weights. -/
def IsWeighed (m : AttributeMeter ℝ) : Prop := IsDistribution m.kind.fingerprintSize m.atPos

theorem isWeighed_iff (h : ∀ i < m.kind.fingerprintSize, 0 ≤ m.atPos i) :
    m.IsWeighed ↔ m.Weighs := by
  unfold IsWeighed Weighs
  rw [isDistribution_iff]
  exact and_congr_left' ⟨fun _ i hi => lt_of_lt_of_le neg_one_lt_zero (h i hi), fun _ => h⟩

theorem IsWeighed.weighs (h : m.IsWeighed) : m.Weighs :=
  (isWeighed_iff (isDistribution_iff.mp h).1).mp h

/-! ## Classes that count -/

/-- The values are never negative, and they weigh exactly under the condition. -/
def WeighsWhen (m : AttributeMeter ℝ) (P : Prop) : Prop :=
  (∀ i < m.kind.fingerprintSize, 0 ≤ m.atPos i) ∧ (m.Weighs ↔ P)

/-- A meter that holds a tally of `t` and divides it by its total. -/
theorem weighsWhen_of_tally (hm : Measures k m) (hk : k.dividesByTotal = true) {t : Nat}
    (htally : Tally k.fingerprintSize t m.fingerprint) :
    m.WeighsWhen (m.overall ≠ 0 ∧ t = m.overall) := by
  have hat : ∀ i < m.kind.fingerprintSize,
      m.atPos i = m.fingerprint.getD i 0 / (m.overall : ℝ) := by
    intro i hi
    rw [atPos_of_lt (by rwa [htally.length, ← hm.kind]), hm.kind, hk, hm.fromDb]
    rfl
  have hnonneg : ∀ i < m.kind.fingerprintSize, 0 ≤ m.atPos i := by
    intro i hi
    rw [hat i hi, List.getD_eq_getElem _ _ (by rwa [htally.length, ← hm.kind])]
    exact div_nonneg (htally.nonneg _ (List.getElem_mem _)) (Nat.cast_nonneg _)
  have hsum : ∑ i ∈ Finset.range m.kind.fingerprintSize, m.atPos i = t / (m.overall : ℝ) := by
    rw [Finset.sum_congr rfl fun i hi => hat i (Finset.mem_range.mp hi), ← Finset.sum_div,
      hm.kind, htally.sum_range]
  refine ⟨hnonneg, ?_⟩
  unfold Weighs
  rw [hsum]
  constructor
  · rintro ⟨-, hone⟩
    have hne : (m.overall : ℝ) ≠ 0 := by
      intro hzero
      rw [hzero, div_zero] at hone
      exact zero_ne_one hone
    exact ⟨Nat.cast_ne_zero.mp hne, Nat.cast_injective ((div_eq_one_iff_eq hne).mp hone)⟩
  · rintro ⟨hne, heq⟩
    refine ⟨fun i hi => lt_of_lt_of_le neg_one_lt_zero (hnonneg i hi), ?_⟩
    rw [heq, div_self (Nat.cast_ne_zero.mpr hne)]

theorem WeighsWhen.congr {P Q : Prop} (h : m.WeighsWhen P) (hPQ : P ↔ Q) : m.WeighsWhen Q :=
  ⟨h.1, h.2.trans hPQ⟩

/-- Values that add up to one weigh. -/
theorem WeighsWhen.of_sum {P : Prop} (h : m.WeighsWhen P) (hm : Measures k m) {n : Nat}
    (hsize : k.fingerprintSize = n) (hsum : ∑ i ∈ Finset.range n, m.atPos i = 1) : P := by
  refine h.2.mp ⟨fun i hi => lt_of_lt_of_le neg_one_lt_zero (h.1 i hi), ?_⟩
  rw [hm.kind, hsize, hsum]

theorem countBytes_eq (fp : List ℝ) (data : List UInt8) :
    countBytes fp data = increment fp (data.map UInt8.toNat) := by
  unfold countBytes increment
  rw [List.foldl_map]

theorem tally_countBytes {t : Nat} {fp : List ℝ} (h : Tally 256 t fp) (data : List UInt8) :
    Tally 256 (t + data.length) (countBytes fp data) := by
  rw [countBytes_eq, ← List.length_map UInt8.toNat]
  refine h.increment fun i hi => ?_
  obtain ⟨b, -, rfl⟩ := List.mem_map.mp hi
  exact b.toNat_lt

/-- A class that covers some bytes of each packet and remembers nothing else. -/
theorem measured_of_cover (hsize : k.fingerprintSize = 256)
    (hinit : initialFingerprint k = List.replicate 256 (0 : ℝ))
    (hcover : ∀ (m : AttributeMeter ℝ) (o : Observation), m.kind = k →
      m.calculateMeasurement o.reading o.packet = m.cover (o.covered k)) :
    Tally k.fingerprintSize (obs.flatMap (Observation.covered k)).length
        (measured k stale obs : AttributeMeter ℝ).fingerprint ∧
      (measured k stale obs : AttributeMeter ℝ).overall =
        (obs.flatMap (Observation.covered k)).length := by
  rw [hsize]
  induction obs using List.reverseRecOn with
  | nil =>
    refine ⟨?_, rfl⟩
    rw [show (measured k stale [] : AttributeMeter ℝ).fingerprint = _ from hinit]
    exact tally_replicate 256
  | append_singleton obs o ih =>
    rw [measured_append, hcover _ o measures_measured.kind, List.flatMap_append,
      List.flatMap_singleton, List.length_append]
    exact ⟨tally_countBytes ih.1 _, congrArg (· + (o.covered k).length) ih.2⟩

theorem cover_nil (m : AttributeMeter ℝ) : m.cover [] = m := rfl

theorem dataSize_eq_zero_iff {p : IPv4Packet} : p.dataSize = 0 ↔ p.data = [] :=
  List.length_eq_zero_iff

/-- The four classes of that kind. -/
theorem calculate_cover {m : AttributeMeter ℝ} {o : Observation}
    (hk : m.kind = .byteFrequency ∨ m.kind = .first4ByteFrequency ∨
      m.kind = .first16ByteFrequency ∨ m.kind = .byteFrequencyFirstOrigToDestPacket) :
    m.calculateMeasurement o.reading o.packet = m.cover (o.covered m.kind) := by
  unfold calculateMeasurement Observation.covered
  by_cases hdata : o.packet.dataSize = 0
  · have hnil := dataSize_eq_zero_iff.mp hdata
    rcases hk with hk | hk | hk | hk <;> rw [hk] <;>
      simp only [byteFrequency, first4ByteFrequency, first16ByteFrequency,
        byteFrequencyFirstOrigToDestPacket, hdata, hnil, List.take_nil, ite_self, cover_nil]
  · rcases hk with hk | hk | hk | hk <;> rw [hk] <;>
      simp only [byteFrequency, first4ByteFrequency, first16ByteFrequency,
        byteFrequencyFirstOrigToDestPacket, hdata, if_false]
    cases o.reading.isFirstPacket <;>
      simp only [Bool.not_true, Bool.not_false, Bool.false_eq_true, if_true, if_false, cover_nil]

/-- … which weigh what they hold once there was a byte. -/
theorem weighsWhen_covered
    (hk : k = .byteFrequency ∨ k = .first4ByteFrequency ∨ k = .first16ByteFrequency ∨
      k = .byteFrequencyFirstOrigToDestPacket) :
    (measured k stale obs : AttributeMeter ℝ).WeighsWhen (∃ o ∈ obs, o.covered k ≠ []) := by
  have hcover := fun (m : AttributeMeter ℝ) (o : Observation) (h : m.kind = k) => by
    have hstep := calculate_cover (m := m) (o := o) (h ▸ hk)
    rwa [h] at hstep
  obtain ⟨htally, htotal⟩ : Tally k.fingerprintSize (obs.flatMap (Observation.covered k)).length
      (measured k stale obs : AttributeMeter ℝ).fingerprint ∧
      (measured k stale obs : AttributeMeter ℝ).overall =
        (obs.flatMap (Observation.covered k)).length := by
    rcases hk with rfl | rfl | rfl | rfl <;> exact measured_of_cover rfl rfl hcover
  have hcounts : k.dividesByTotal = true := by rcases hk with rfl | rfl | rfl | rfl <;> rfl
  refine (weighsWhen_of_tally measures_measured hcounts htally).congr ?_
  rw [htotal, and_iff_left rfl, Ne, List.length_eq_zero_iff, List.flatMap_eq_nil_iff]
  simp only [not_forall, exists_prop]

/-- The first payload that satisfies a test. -/
def firstPayload (test : Observation → Bool) (obs : List Observation) : List UInt8 :=
  ((obs.find? test).map (·.packet.data)).getD []

/-- The meter of the first payload counts it once, whoever sends it. -/
theorem measured_first :
    (measured .byteFrequencyFirstDestToOrigPacket stale obs : AttributeMeter ℝ).fingerprint =
        countBytes (List.replicate 256 0) (firstPayload Observation.hasData obs) ∧
      (measured .byteFrequencyFirstDestToOrigPacket stale obs : AttributeMeter ℝ).overall =
        (firstPayload Observation.hasData obs).length ∧
      (measured .byteFrequencyFirstDestToOrigPacket stale obs : AttributeMeter ℝ).done =
        (obs.find? Observation.hasData).isSome := by
  unfold firstPayload
  induction obs using List.reverseRecOn with
  | nil => exact ⟨rfl, rfl, rfl⟩
  | append_singleton obs o ih =>
    obtain ⟨hfp, htotal, hdone⟩ := ih
    have hkind : Measures .byteFrequencyFirstDestToOrigPacket
      (measured .byteFrequencyFirstDestToOrigPacket stale obs : AttributeMeter ℝ) :=
        measures_measured
    rw [measured_append, List.find?_append]
    unfold calculateMeasurement
    rw [hkind.kind]
    simp only [byteFrequencyFirstDestToOrigPacket, hdone]
    cases hfirst : obs.find? Observation.hasData with
    | some o' =>
      rw [hfirst] at hfp htotal
      exact ⟨hfp, htotal, hdone.trans (congrArg _ hfirst)⟩
    | none =>
      rw [hfirst, Option.map_none, Option.getD_none] at hfp htotal
      rw [Option.none_or, Option.isSome_none, Bool.false_or, List.find?_singleton,
        Observation.hasData]
      by_cases hdata : o.packet.dataSize = 0
      · rw [hdata]
        exact ⟨hfp, htotal, hdone.trans (congrArg _ hfirst)⟩
      · rw [beq_eq_false_iff_ne.mpr hdata, bne_iff_ne.mpr hdata]
        refine ⟨congrArg (countBytes · o.packet.data) hfp, ?_, rfl⟩
        exact (congrArg (· + o.packet.data.length) htotal).trans (Nat.zero_add _)

/-- What the meter of the first payload holds. -/
structure HoldsFirst (obs : List Observation) (m : AttributeMeter ℝ) : Prop where
  tally : Tally 256 m.overall m.fingerprint
  done : m.done = true ↔ m.overall ≠ 0
  seen : m.done = true ↔ ∃ o ∈ obs, o.hasData = true

theorem holdsFirst_measured :
    HoldsFirst obs (measured .byteFrequencyFirstDestToOrigPacket stale obs) := by
  obtain ⟨hfp, htotal, hdone⟩ := @measured_first stale obs
  have htally := tally_countBytes (tally_replicate 256 : Tally 256 0 (List.replicate 256 (0 : ℝ)))
    (firstPayload Observation.hasData obs)
  rw [Nat.zero_add, ← hfp, ← htotal] at htally
  refine ⟨htally, ?_, ?_⟩
  · rw [hdone, htotal]
    unfold firstPayload
    cases hfirst : obs.find? Observation.hasData with
    | none => exact ⟨fun h => absurd h Bool.false_ne_true, fun h => absurd rfl h⟩
    | some o =>
      have hdata : o.hasData = true := List.find?_some hfirst
      exact ⟨fun _ => bne_iff_ne.mp hdata, fun _ => rfl⟩
  · rw [hdone, List.find?_isSome]

theorem weighsWhen_first :
    (measured .byteFrequencyFirstDestToOrigPacket stale obs : AttributeMeter ℝ).WeighsWhen
      (∃ o ∈ obs, o.hasData = true) := by
  obtain ⟨htally, hdone, hseen⟩ : HoldsFirst obs
    (measured .byteFrequencyFirstDestToOrigPacket stale obs) := holdsFirst_measured
  refine (weighsWhen_of_tally (k := .byteFrequencyFirstDestToOrigPacket) measures_measured rfl
    htally).congr ?_
  exact (and_iff_left rfl).trans (hdone.symm.trans hseen)

/-- What the meter of the first eight packets holds: the bytes of all payloads, and the size of the
last one. -/
theorem measured_early :
    Tally 256 ((obs.filter Observation.isEarly).map (·.packet.dataSize)).sum
        (measured .byteFrequencyFirst8Packets stale obs : AttributeMeter ℝ).fingerprint ∧
      (measured .byteFrequencyFirst8Packets stale obs : AttributeMeter ℝ).overall =
        ((obs.filter Observation.isEarly).map (·.packet.dataSize)).getLastD 0 := by
  induction obs using List.reverseRecOn with
  | nil => exact ⟨tally_replicate 256, rfl⟩
  | append_singleton obs o ih =>
    obtain ⟨htally, htotal⟩ := ih
    have hkind : Measures .byteFrequencyFirst8Packets
      (measured .byteFrequencyFirst8Packets stale obs : AttributeMeter ℝ) := measures_measured
    rw [measured_append]
    unfold calculateMeasurement
    rw [hkind.kind, List.filter_append]
    unfold byteFrequencyFirst8Packets
    by_cases hlate : 8 < o.reading.pktCount
    · have hearly : [o].filter Observation.isEarly = [] := by
        rw [List.filter_singleton, Observation.isEarly, decide_eq_false (UInt32.not_le.mpr hlate)]
        rfl
      simp only [hlate, if_true, hearly, List.append_nil]
      exact ⟨htally, htotal⟩
    · by_cases hdata : o.packet.dataSize = 0
      · have hearly : [o].filter Observation.isEarly = [] := by
          rw [List.filter_singleton, Observation.isEarly, Observation.hasData, hdata,
            bne_self_eq_false, Bool.and_false]
          rfl
        simp only [hlate, hdata, if_false, if_true, hearly, List.append_nil]
        exact ⟨htally, htotal⟩
      · have hearly : [o].filter Observation.isEarly = [o] := by
          rw [List.filter_singleton, Observation.isEarly, Observation.hasData,
            decide_eq_true (UInt32.not_lt.mp hlate), bne_iff_ne.mpr hdata]
          rfl
        simp only [hlate, hdata, if_false, hearly, List.map_append, List.map_singleton,
          List.sum_append, List.sum_singleton, List.getLastD_concat]
        exact ⟨tally_countBytes htally _, trivial⟩

theorem weighsWhen_early :
    (measured .byteFrequencyFirst8Packets stale obs : AttributeMeter ℝ).WeighsWhen
      ((obs.filter Observation.isEarly).length = 1) := by
  obtain ⟨htally, htotal⟩ := @measured_early stale obs
  refine (weighsWhen_of_tally (k := .byteFrequencyFirst8Packets) measures_measured rfl
    htally).congr ?_
  have hpos : ∀ n ∈ (obs.filter Observation.isEarly).map (·.packet.dataSize), 0 < n := by
    intro n hn
    obtain ⟨o, ho, rfl⟩ := List.mem_map.mp hn
    have hdata := (Bool.and_eq_true_iff.mp (List.mem_filter.mp ho).2).2
    exact Nat.pos_of_ne_zero (bne_iff_ne.mp hdata)
  rw [htotal, ← List.length_map fun o : Observation => o.packet.dataSize]
  generalize (obs.filter Observation.isEarly).map (·.packet.dataSize) = sizes at hpos
  cases sizes using List.reverseRecOn with
  | nil => exact ⟨fun h => absurd rfl h.1, fun h => absurd h Nat.zero_ne_one⟩
  | append_singleton sizes n =>
    have hn := hpos n (List.mem_append_right _ List.mem_cons_self)
    rw [List.getLastD_concat, List.sum_append, List.sum_singleton, List.length_append,
      List.length_singleton, Nat.add_eq_right, Nat.add_eq_right, List.length_eq_zero_iff]
    constructor
    · rintro ⟨-, hzero⟩
      -- the sizes before the last one are positive, so there are none
      refine List.eq_nil_iff_forall_not_mem.mpr fun x hx => ?_
      have hx' := hpos x (List.mem_append_left _ hx)
      exact absurd (List.sum_eq_zero_iff.mp hzero x hx) hx'.ne'
    · rintro rfl
      exact ⟨hn.ne', rfl⟩

/-- The position of a bit, among the ones or among the zeroes. -/
def bitAt (v : Bool) (i j : Nat) : Nat := if v then i * 16 + j else i * 16 + 8 + j

theorem bitAt_lt {v : Bool} {i j : Nat} (hi : i < 4) (hj : j < 8) : bitAt v i j < 64 := by
  unfold bitAt
  split <;> omega

/-- The positions that a byte moves. -/
def bytePositions (i : Nat) (byte : UInt8) : List Nat :=
  (List.range 8).map fun j => bitAt (byte.toNat.testBit (7 - j)) i j

theorem countBits_eq (fp : List ℝ) (i : Nat) (byte : UInt8) :
    countBits fp i byte = increment fp (bytePositions i byte) := by
  unfold countBits increment bytePositions
  rw [List.foldl_map]
  refine List.foldl_ext _ _ _ fun fp' j _ => ?_
  unfold bitAt
  split <;> rfl

/-- The positions that the first bytes of a payload move. -/
def bitPositions (data : List UInt8) : List Nat :=
  (data.take 4).zipIdx.flatMap fun b => bytePositions b.2 b.1

theorem firstBits_eq (fp : List ℝ) (data : List UInt8) :
    (data.take 4).zipIdx.foldl (fun fp b => countBits fp b.2 b.1) fp =
      increment fp (bitPositions data) := by
  simp only [countBits_eq, foldl_increment]
  rfl

/-- Every bit of a byte is counted once, as a one or as a zero. -/
theorem tally_firstBits {t : Nat} {fp : List ℝ} (h : Tally 64 t fp) (data : List UInt8) :
    Tally 64 (t + 8 * (data.take 4).length)
      ((data.take 4).zipIdx.foldl (fun fp b => countBits fp b.2 b.1) fp) := by
  have hlength : (bitPositions data).length = 8 * (data.take 4).length := by
    unfold bitPositions bytePositions
    simp only [List.length_flatMap, List.length_map, List.length_range, List.map_const',
      List.sum_replicate, List.length_zipIdx, smul_eq_mul]
    exact Nat.mul_comm _ _
  rw [firstBits_eq, ← hlength]
  refine h.increment fun i hi => ?_
  obtain ⟨b, hb, hi⟩ := List.mem_flatMap.mp hi
  obtain ⟨j, hj, rfl⟩ := List.mem_map.mp hi
  have hlt := List.snd_lt_of_mem_zipIdx hb
  rw [List.length_take] at hlt
  exact bitAt_lt (by omega) (List.mem_range.mp hj)

/-- What the meter of the first bits holds: the bits of up to four bytes of each payload, against 32
for each. -/
theorem measured_bits :
    Tally 64 ((obs.filter Observation.hasData).map fun o => 8 * (o.packet.data.take 4).length).sum
        (measured .firstBitPositions stale obs : AttributeMeter ℝ).fingerprint ∧
      (measured .firstBitPositions stale obs : AttributeMeter ℝ).overall =
        ((obs.filter Observation.hasData).map fun _ => 32).sum := by
  induction obs using List.reverseRecOn with
  | nil => exact ⟨tally_replicate 64, rfl⟩
  | append_singleton obs o ih =>
    obtain ⟨htally, htotal⟩ := ih
    have hkind : Measures .firstBitPositions
      (measured .firstBitPositions stale obs : AttributeMeter ℝ) := measures_measured
    rw [measured_append]
    unfold calculateMeasurement
    rw [hkind.kind, List.filter_append, List.filter_singleton]
    unfold firstBitPositions Observation.hasData
    by_cases hdata : o.packet.dataSize = 0
    · simp only [hdata, if_true, bne_self_eq_false, cond_false, List.append_nil]
      exact ⟨htally, htotal⟩
    · simp only [hdata, if_false, bne_iff_ne.mpr hdata, cond_true, List.map_append,
        List.map_singleton, List.sum_append, List.sum_singleton]
      exact ⟨tally_firstBits htally _, congrArg (· + 32) htotal⟩

/-- Four bytes of every packet have as many bits as four bytes of full packets. -/
theorem sum_bits_eq_iff {l : List Observation} :
    (l.map fun o => 8 * (o.packet.data.take 4).length).sum = (l.map fun _ => 32).sum ↔
      ∀ o ∈ l, 4 ≤ o.packet.dataSize := by
  have hle : ∀ o : Observation, 8 * (o.packet.data.take 4).length ≤ 32 := fun o => by
    rw [List.length_take]
    omega
  induction l with
  | nil => exact ⟨fun _ o ho => absurd ho List.not_mem_nil, fun _ => rfl⟩
  | cons o l ih =>
    have hlower : (l.map fun o => 8 * (o.packet.data.take 4).length).sum ≤
      (l.map fun _ => 32).sum := List.sum_le_sum fun o _ => hle o
    have hhere := hle o
    have hfour : 8 * (o.packet.data.take 4).length = 32 ↔ 4 ≤ o.packet.dataSize := by
      rw [List.length_take, show o.packet.dataSize = o.packet.data.length from rfl]
      omega
    rw [List.forall_mem_cons, ← hfour]
    refine Iff.trans ?_ (and_congr_right' ih)
    simp only [List.map_cons, List.sum_cons]
    omega

theorem weighsWhen_bits :
    (measured .firstBitPositions stale obs : AttributeMeter ℝ).WeighsWhen
      ((∃ o ∈ obs, o.hasData = true) ∧ ∀ o ∈ obs, o.hasData = true → 4 ≤ o.packet.dataSize) := by
  obtain ⟨htally, htotal⟩ := @measured_bits stale obs
  refine (weighsWhen_of_tally (k := .firstBitPositions) measures_measured rfl htally).congr ?_
  rw [htotal]
  have hsome : ((obs.filter Observation.hasData).map fun _ => 32).sum ≠ 0 ↔
      ∃ o ∈ obs, o.hasData = true := by
    rw [List.map_const', List.sum_replicate, smul_eq_mul, Nat.mul_ne_zero_iff, Ne,
      List.length_eq_zero_iff, List.filter_eq_nil_iff]
    simp only [not_forall, not_not, exists_prop, ne_eq, OfNat.ofNat_ne_zero, not_false_eq_true,
      and_true]
  rw [hsome, sum_bits_eq_iff]
  refine and_congr_right fun _ => ?_
  simp only [List.mem_filter, and_imp]

/-! ### Reactions -/

theorem crossSum_eq (fuel : Nat) (byte sum : UInt8) :
    crossSum fuel byte sum = sum + crossSum fuel byte 0 := by
  induction fuel generalizing byte sum with
  | zero => exact (UInt8.add_zero sum).symm
  | succ fuel ih =>
    unfold crossSum
    simp only
    split
    · rw [ih, ih _ (0 + byte % 10), UInt8.zero_add, UInt8.add_assoc]
    · rw [UInt8.zero_add]

theorem crossSum_le (byte : UInt8) : (crossSum 3 byte 0).toNat ≤ 19 := by
  have hall : ∀ n : Fin 256, (crossSum 3 (UInt8.ofNat n) 0).toNat ≤ 19 := by decide +kernel
  have hbyte := hall ⟨byte.toNat, byte.toNat_lt⟩
  rwa [UInt8.ofNat_toNat] at hbyte

theorem crossSum_digits (byte : UInt8) :
    (crossSum 3 byte 0).toNat = (Nat.digits 10 byte.toNat).sum := by
  have hall : ∀ n : Fin 256,
      (crossSum 3 (UInt8.ofNat n) 0).toNat = (Nat.digits 10 n).sum := by decide +kernel
  have hbyte := hall ⟨byte.toNat, byte.toNat_lt⟩
  rwa [UInt8.ofNat_toNat] at hbyte

/-- The sum of two times three bytes is a position of the fingerprint. -/
theorem crossSums_lt (a b : FirstBytes) : (crossSums a + crossSums b).toNat < 115 := by
  have hthree : ∀ c : FirstBytes, (crossSums c).toNat ≤ 57 := by
    intro c
    unfold crossSums
    rw [crossSum_eq 3 (c 2), crossSum_eq 3 (c 1), UInt8.toNat_add, UInt8.toNat_add]
    have h₀ := crossSum_le (c 0)
    have h₁ := crossSum_le (c 1)
    have h₂ := crossSum_le (c 2)
    omega
  have ha := hthree a
  have hb := hthree b
  rw [UInt8.toNat_add]
  omega

theorem measured_reactions :
    Tally 115 (obs.countP Observation.isReaction)
        (measured .actionReactionFirst3ByteHash stale obs : AttributeMeter ℝ).fingerprint ∧
      (measured .actionReactionFirst3ByteHash stale obs : AttributeMeter ℝ).overall =
        obs.countP Observation.isReaction := by
  induction obs using List.reverseRecOn with
  | nil => exact ⟨tally_replicate 115, rfl⟩
  | append_singleton obs o ih =>
    obtain ⟨htally, htotal⟩ := ih
    have hkind : Measures .actionReactionFirst3ByteHash
      (measured .actionReactionFirst3ByteHash stale obs : AttributeMeter ℝ) := measures_measured
    rw [measured_append]
    unfold calculateMeasurement
    rw [hkind.kind, List.countP_append, List.countP_singleton]
    unfold actionReactionFirst3ByteHash Observation.isReaction Observation.hasData
    by_cases hdata : o.packet.dataSize = 0
    · simp only [hdata, if_true, bne_self_eq_false, Bool.and_false, Bool.false_eq_true, if_false,
        Nat.add_zero]
      exact ⟨htally, htotal⟩
    · simp only [hdata, if_false, bne_iff_ne.mpr hdata, Bool.and_true]
      cases AttributeMeter.isReaction o.reading with
      | false => exact ⟨htally, htotal⟩
      | true => exact ⟨htally.modify (crossSums_lt _ _), congrArg (· + 1) htotal⟩

theorem weighsWhen_reactions :
    (measured .actionReactionFirst3ByteHash stale obs : AttributeMeter ℝ).WeighsWhen
      (∃ o ∈ obs, o.isReaction = true) := by
  obtain ⟨htally, htotal⟩ := @measured_reactions stale obs
  refine (weighsWhen_of_tally (k := .actionReactionFirst3ByteHash) measures_measured rfl
    htally).congr ?_
  rw [htotal, and_iff_left rfl, Ne, List.countP_eq_zero]
  simp only [not_forall, not_not, exists_prop]

/-! ## Classes with two values -/

theorem atPos_pair (hm : Measures k m) (hk : k.dividesByTotal = false) {a b : ℝ}
    (hfp : m.fingerprint = [a, b]) : m.atPos 0 = a ∧ m.atPos 1 = b := by
  have hsize : m.fingerprint.length = 2 := by
    rw [hfp]
    rfl
  constructor <;>
  · rw [atPos_of_lt (by rw [hsize]; decide), hm.kind, hk, hfp]
    rfl

theorem weighs_pair_iff (hm : Measures k m) (hk : k.dividesByTotal = false) {a b : ℝ}
    (hfp : m.fingerprint = [a, b]) : m.Weighs ↔ (-1 < a ∧ -1 < b) ∧ a + b = 1 := by
  have hsize : m.kind.fingerprintSize = 2 := by
    rw [hm.kind, ← hm.length, hfp]
    rfl
  obtain ⟨h₀, h₁⟩ := atPos_pair hm hk hfp
  unfold Weighs
  rw [hsize, Finset.sum_range_succ, Finset.sum_range_one, h₀, h₁]
  refine and_congr_left' ⟨fun h => ⟨h₀ ▸ h 0 (by decide), h₁ ▸ h 1 (by decide)⟩, ?_⟩
  intro h i hi
  interval_cases i
  · exact h₀.symm ▸ h.1
  · exact h₁.symm ▸ h.2

theorem weighsWhen_pair (hm : Measures k m) (hk : k.dividesByTotal = false) {a b : ℝ}
    (hfp : m.fingerprint = [a, b]) (ha : 0 ≤ a) (hb : 0 ≤ b) : m.WeighsWhen (a + b = 1) := by
  have hsize : m.kind.fingerprintSize = 2 := by
    rw [hm.kind, ← hm.length, hfp]
    rfl
  obtain ⟨h₀, h₁⟩ := atPos_pair hm hk hfp
  refine ⟨fun i hi => ?_, (weighs_pair_iff hm hk hfp).trans ?_⟩
  · rw [hsize] at hi
    interval_cases i
    · exact h₀.symm ▸ ha
    · exact h₁.symm ▸ hb
  · exact and_iff_right ⟨lt_of_lt_of_le neg_one_lt_zero ha, lt_of_lt_of_le neg_one_lt_zero hb⟩

/-! ### Bytes by direction -/

/-- A share is turned back into the count that it was taken from. -/
theorem trunc_share {a t : Nat} (h : a ≤ t) : Double.trunc ((a : ℝ) / (t : ℝ) * (t : ℝ)) = a := by
  have heq : (a : ℝ) / (t : ℝ) * (t : ℝ) = a := by
    rcases Nat.eq_zero_or_pos t with rfl | ht
    · rw [Nat.eq_zero_of_le_zero h, Nat.cast_zero, mul_zero]
    · rw [div_mul_cancel₀ _ (Nat.cast_ne_zero.mpr ht.ne')]
  rw [heq]
  exact Nat.floor_natCast a

/-- The two shares of a total. -/
def Shares (a b : Nat) (m : AttributeMeter ℝ) : Prop :=
  m.overall = a + b ∧ m.fingerprint = [(a : ℝ) / ((a + b : Nat) : ℝ), (b : ℝ) / ((a + b : Nat) : ℝ)]

theorem shares_countDirectionBytes {a b : Nat} (h : Shares a b m) (o : Observation) :
    (o.reading.currentPacketDirection = .unknown →
      m.countDirectionBytes o.reading o.packet = m) ∧
    (o.reading.currentPacketDirection ≠ .unknown →
      Shares (a + if o.reading.currentPacketDirection = .origToDest then o.packet.dataSize else 0)
        (b + if o.reading.currentPacketDirection = .destToOrig then o.packet.dataSize else 0)
        (m.countDirectionBytes o.reading o.packet)) := by
  obtain ⟨htotal, hfp⟩ := h
  have ha : Double.trunc (m.fingerprint.getD 0 0 * (m.overall : ℝ)) = a := by
    rw [hfp, htotal]
    exact trunc_share (Nat.le_add_right a b)
  have hb : Double.trunc (m.fingerprint.getD 1 0 * (m.overall : ℝ)) = b := by
    rw [hfp, htotal]
    exact trunc_share (Nat.le_add_left b a)
  rw [htotal] at ha hb
  unfold countDirectionBytes
  simp only [htotal, ha, hb]
  cases o.reading.currentPacketDirection with
  | unknown => exact ⟨fun _ => rfl, fun hne => absurd rfl hne⟩
  | origToDest =>
    refine ⟨fun heq => Direction.noConfusion heq, fun _ => ?_⟩
    rw [if_pos rfl, if_neg Direction.noConfusion, Nat.add_zero]
    refine ⟨Nat.add_right_comm a b _, ?_⟩
    simp only [Nat.add_right_comm a b o.packet.dataSize]
  | destToOrig =>
    refine ⟨fun heq => Direction.noConfusion heq, fun _ => ?_⟩
    rw [if_pos rfl, if_neg Direction.noConfusion, Nat.add_zero]
    refine ⟨Nat.add_assoc a b _, ?_⟩
    simp only [Nat.add_assoc a b o.packet.dataSize]

/-- Both classes count the bytes of the packets that they look at. -/
theorem calculate_direction {o : Observation}
    (hk : m.kind = .directionBytesCount ∨ m.kind = .directionBytesCountFirst10Packet) :
    m.calculateMeasurement o.reading o.packet =
      if o.isCounted m.kind then m.countDirectionBytes o.reading o.packet else m := by
  unfold calculateMeasurement Observation.isCounted Observation.hasData
  by_cases hdata : o.packet.dataSize = 0
  · rcases hk with hk | hk <;> rw [hk] <;>
      simp only [directionBytesCount, directionBytesCountFirst10Packet, hdata, true_or, if_true,
        bne_self_eq_false, Bool.false_and, Bool.false_eq_true, if_false]
  · rcases hk with hk | hk <;> rw [hk] <;>
      simp only [directionBytesCount, directionBytesCountFirst10Packet, hdata, false_or, if_false,
        bne_iff_ne.mpr hdata, Bool.true_and, decide_eq_true_eq, if_true]
    by_cases hlate : 10 < o.reading.pktCount
    · rw [if_pos hlate, if_neg (UInt32.not_le.mpr hlate)]
    · rw [if_neg hlate, if_pos (UInt32.not_lt.mp hlate)]

theorem weighsWhen_direction
    (hk : k = .directionBytesCount ∨ k = .directionBytesCountFirst10Packet) :
    (measured k stale obs : AttributeMeter ℝ).WeighsWhen
      (∃ o ∈ obs, (o.isCounted k && o.isDirected) = true) := by
  have hinv : ∃ a b, Shares a b (measured k stale obs) ∧
      (a + b ≠ 0 ↔ ∃ o ∈ obs, (o.isCounted k && o.isDirected) = true) := by
    induction obs using List.reverseRecOn with
    | nil =>
      refine ⟨0, 0, ⟨rfl, ?_⟩, ⟨fun h => absurd rfl h,
        fun ⟨o, ho, _⟩ => absurd ho List.not_mem_nil⟩⟩
      rcases hk with rfl | rfl <;>
      · rw [Nat.cast_zero, zero_div]
        rfl
    | append_singleton obs o ih =>
      obtain ⟨a, b, hshares, hseen⟩ := ih
      have hmeasures : Measures k (measured k stale obs : AttributeMeter ℝ) := measures_measured
      have hstep := calculate_direction (o := o) (hmeasures.kind.symm ▸ hk)
      rw [hmeasures.kind] at hstep
      have hmore : (∃ o' ∈ obs ++ [o], (o'.isCounted k && o'.isDirected) = true) ↔
          a + b ≠ 0 ∨ (o.isCounted k && o.isDirected) = true := by
        rw [hseen]
        simp only [List.mem_append, List.mem_singleton, or_and_right, exists_or, exists_eq_left]
      rw [measured_append, hstep, hmore]
      obtain ⟨hunknown, hknown⟩ := shares_countDirectionBytes hshares o
      by_cases hcount : o.isCounted k = true
      · rw [if_pos hcount, hcount, Bool.true_and]
        have hdata : o.hasData = true := by
          rcases hk with rfl | rfl
          · exact hcount
          · exact (Bool.and_eq_true_iff.mp hcount).1
        unfold Observation.isDirected
        rw [hdata, Bool.true_and, decide_eq_true_eq]
        by_cases hdir : o.reading.currentPacketDirection = .unknown
        · rw [hunknown hdir]
          exact ⟨a, b, hshares, (or_iff_left fun hne => hne hdir).symm⟩
        · have hpos := bne_iff_ne.mp hdata
          refine ⟨_, _, hknown hdir, ⟨fun _ => Or.inr hdir, fun _ => ?_⟩⟩
          cases hcurrent : o.reading.currentPacketDirection with
          | unknown => exact absurd hcurrent hdir
          | origToDest =>
            rw [if_pos rfl, if_neg Direction.noConfusion]
            omega
          | destToOrig =>
            rw [if_pos rfl, if_neg Direction.noConfusion]
            omega
      · rw [if_neg hcount, Bool.eq_false_iff.mpr hcount, Bool.false_and]
        exact ⟨a, b, hshares, (or_iff_left Bool.false_ne_true).symm⟩
  obtain ⟨a, b, ⟨-, hfp⟩, hseen⟩ := hinv
  refine (weighsWhen_pair measures_measured (by rcases hk with rfl | rfl <;> rfl) hfp
    (by positivity) (by positivity)).congr ?_
  rw [← hseen, ← add_div, ← Nat.cast_add]
  by_cases ht : a + b = 0
  · rw [ht, Nat.cast_zero, div_zero]
    exact ⟨fun h => absurd h zero_ne_one, fun h => absurd rfl h⟩
  · rw [div_self (Nat.cast_ne_zero.mpr ht)]
    exact ⟨fun _ => ht, fun _ => rfl⟩

/-! ### One share, and what it leaves -/

/-- The meter holds a share. -/
def HoldsShare (s : ℝ) (m : AttributeMeter ℝ) : Prop := m.fingerprint = [s, 1 - s]

theorem weighs_of_share (hm : Measures k m) (hk : k.dividesByTotal = false) {s : ℝ}
    (h : HoldsShare s m) (hs : 0 ≤ s) : (m.Weighs ↔ s < 2) ∧ (m.IsWeighed ↔ s ≤ 1) := by
  have hsize : m.kind.fingerprintSize = 2 := by
    rw [hm.kind, ← hm.length, h]
    rfl
  obtain ⟨h₀, h₁⟩ := atPos_pair hm hk h
  constructor
  · rw [weighs_pair_iff hm hk h, add_sub_cancel, and_iff_left rfl,
      and_iff_right (lt_of_lt_of_le neg_one_lt_zero hs)]
    constructor <;> intro h <;> linarith
  · unfold IsWeighed
    rw [hsize, isDistribution_two_iff (by rw [h₀, h₁]), h₀]
    exact and_iff_right hs

/-- A meter with zeroes does not weigh. -/
theorem not_weighs_of_zeroes (hm : Measures k m) (hk : k.dividesByTotal = false)
    (hfp : m.fingerprint = [0, 0]) : ¬ m.Weighs := by
  rw [weighs_pair_iff hm hk hfp, add_zero]
  exact fun h => zero_ne_one h.2

/-- A new share of direction changes is at most one, if the packets are numbered from one. -/
theorem holdsShare_countDirectionChanges {f : FlowReading}
    (hfirst : m.fingerprint.getD 0 0 ≤ 1) (hnumber : f.pktCount ≠ 0) :
    ∃ s, 0 ≤ s ∧ s ≤ 1 ∧ HoldsShare s (m.countDirectionChanges f) := by
  have hpred : (f.pktCount - 1).toNat + 1 = f.pktCount.toNat := by
    have hpos : 1 ≤ f.pktCount.toNat := by
      rw [Nat.one_le_iff_ne_zero, Ne, ← UInt32.toNat_zero, UInt32.toNat_inj]
      exact hnumber
    have hone : (1 : UInt32) ≤ f.pktCount := UInt32.le_iff_toNat_le.mpr hpos
    rw [UInt32.toNat_sub_of_le _ _ hone]
    exact Nat.sub_add_cancel hpos
  have hcount : Double.trunc (m.fingerprint.getD 0 0 * ((f.pktCount - 1).toNat : ℝ)) ≤
      (f.pktCount - 1).toNat := by
    refine Nat.floor_le_of_le ?_
    exact mul_le_of_le_one_left (Nat.cast_nonneg _) hfirst
  have hshare : ∀ c : Nat, c ≤ f.pktCount.toNat →
      (0 : ℝ) ≤ (c : ℝ) / (f.pktCount.toNat : ℝ) ∧ (c : ℝ) / (f.pktCount.toNat : ℝ) ≤ 1 :=
    fun c hc => ⟨by positivity, div_le_one_of_le₀ (Nat.cast_le.mpr hc) (Nat.cast_nonneg _)⟩
  unfold countDirectionChanges
  simp only
  generalize Double.trunc (m.fingerprint.getD 0 0 * ((f.pktCount - 1).toNat : ℝ)) = c at hcount
  obtain ⟨hnonneg, hle⟩ :=
    hshare (if f.lastPacketDirection ≠ f.currentPacketDirection then c + 1 else c)
      (by split <;> omega)
  exact ⟨_, hnonneg, hle, rfl⟩

theorem calculate_changes {o : Observation}
    (hk : m.kind = .directionChanges ∨ m.kind = .directionChangesFirst8Packets) :
    m.calculateMeasurement o.reading o.packet =
      if o.isNumbered m.kind then m.countDirectionChanges o.reading else m := by
  unfold calculateMeasurement Observation.isNumbered
  rcases hk with hk | hk <;> rw [hk] <;>
    simp only [directionChanges, directionChangesFirst8Packets, decide_eq_true_eq, if_true]
  by_cases hlate : 8 < o.reading.pktCount
  · rw [if_pos hlate, if_neg (UInt32.not_le.mpr hlate)]
  · rw [if_neg hlate, if_pos (UInt32.not_lt.mp hlate)]

theorem weighsWhen_changes
    (hk : k = .directionChanges ∨ k = .directionChangesFirst8Packets)
    (hnumbered : ∀ o ∈ obs, o.isNumbered k = true → o.reading.pktCount ≠ 0) :
    (measured k stale obs : AttributeMeter ℝ).WeighsWhen (∃ o ∈ obs, o.isNumbered k = true) := by
  have hcounts : k.dividesByTotal = false := by rcases hk with rfl | rfl <;> rfl
  have hinv : ((measured k stale obs : AttributeMeter ℝ).fingerprint = [0, 0] ∧
      ¬ ∃ o ∈ obs, o.isNumbered k = true) ∨
    (∃ s, 0 ≤ s ∧ s ≤ 1 ∧ HoldsShare s (measured k stale obs)) ∧
      ∃ o ∈ obs, o.isNumbered k = true := by
    induction obs using List.reverseRecOn with
    | nil =>
      refine Or.inl ⟨?_, fun ⟨o, ho, _⟩ => absurd ho List.not_mem_nil⟩
      rcases hk with rfl | rfl <;> rfl
    | append_singleton obs o ih =>
      have ih := ih fun o' ho' => hnumbered o' (List.mem_append_left _ ho')
      have hmeasures : Measures k (measured k stale obs : AttributeMeter ℝ) := measures_measured
      have hstep := calculate_changes (o := o) (hmeasures.kind.symm ▸ hk)
      rw [hmeasures.kind] at hstep
      rw [measured_append, hstep]
      by_cases hlook : o.isNumbered k = true
      · have hfirst : (measured k stale obs : AttributeMeter ℝ).fingerprint.getD 0 0 ≤ 1 := by
          rcases ih with ⟨hfp, -⟩ | ⟨⟨s, -, hs, hfp⟩, -⟩
          · rw [hfp]
            exact zero_le_one
          · rw [hfp]
            exact hs
        rw [if_pos hlook]
        exact Or.inr ⟨holdsShare_countDirectionChanges hfirst
          (hnumbered o (List.mem_append_right _ List.mem_cons_self) hlook),
          o, List.mem_append_right _ List.mem_cons_self, hlook⟩
      · have hmore : (∃ o' ∈ obs ++ [o], o'.isNumbered k = true) ↔
            ∃ o' ∈ obs, o'.isNumbered k = true := by
          simp only [List.mem_append, List.mem_singleton, or_and_right, exists_or, exists_eq_left,
            or_iff_left hlook]
        rw [if_neg hlook, hmore]
        exact ih
  rcases hinv with ⟨hfp, hnone⟩ | ⟨⟨s, hnonneg, hle, hfp⟩, hsome⟩
  · refine (weighsWhen_pair measures_measured hcounts hfp le_rfl le_rfl).congr ?_
    rw [add_zero]
    exact ⟨fun h => absurd h zero_ne_one, fun h => absurd h hnone⟩
  · refine (weighsWhen_pair measures_measured hcounts hfp hnonneg (sub_nonneg.mpr hle)).congr ?_
    rw [add_sub_cancel]
    exact ⟨fun _ => hsome, fun _ => rfl⟩

/-! ### Entropy -/

theorem sum_count_bytes (data : List UInt8) {n : Nat} (hn : n = 256) :
    ∑ i ∈ Finset.range n, data.count (UInt8.ofNat i) = data.length := by
  have hone : ∀ b : UInt8,
      ∑ i ∈ Finset.range n, (if b = UInt8.ofNat i then 1 else 0) = 1 := by
    intro b
    rw [Finset.sum_eq_single b.toNat]
    · rw [UInt8.ofNat_toNat, if_pos rfl]
    · intro i hi hne
      refine if_neg fun heq => hne ?_
      have hlt : i < 256 := hn ▸ Finset.mem_range.mp hi
      rw [heq, UInt8.toNat_ofNat', Nat.mod_eq_of_lt hlt]
    · have hlt : b.toNat < 256 := b.toNat_lt
      exact fun hb => absurd (Finset.mem_range.mpr (hn ▸ hlt)) hb
  induction data with
  | nil => exact Finset.sum_const_zero
  | cons b data ih =>
    simp only [List.count_cons, beq_iff_eq, Finset.sum_add_distrib, ih, hone, List.length_cons]

/-- The bytes of a payload, by value. -/
theorem isDistribution_bytes {data : List UInt8} (h : data.length ≠ 0) :
    IsDistribution 256 fun i => ((data.count (UInt8.ofNat i) : Nat) : ℝ) / (data.length : ℝ) := by
  refine isDistribution_iff.mpr ⟨fun i _ => by positivity, ?_⟩
  rw [← Finset.sum_div, ← Nat.cast_sum, sum_count_bytes data rfl,
    div_self (Nat.cast_ne_zero.mpr h)]

/-- The loop over the byte values adds up the entropy, in bits. -/
theorem foldl_entropy (x : Nat → ℝ) (hx : ∀ i, 0 ≤ x i) (a : ℝ) (n : Nat) :
    (List.range n).foldl
        (fun acc i => if 0 < x i then acc - x i * Double.log2 (x i) else acc) a =
      a + (∑ i ∈ Finset.range n, Real.negMulLog (x i)) / Real.log 2 := by
  induction n with
  | zero =>
    rw [Finset.sum_range_zero, zero_div, add_zero]
    rfl
  | succ n ih =>
    rw [List.range_succ, List.foldl_append, ih, List.foldl_cons, List.foldl_nil,
      Finset.sum_range_succ, add_div, ← add_assoc]
    rcases (hx n).eq_or_lt with hzero | hpos
    · rw [← hzero, if_neg (lt_irrefl _), Real.negMulLog_zero, zero_div, add_zero]
    · rw [if_pos hpos, show (Double.log2 (x n) : ℝ) = Real.logb 2 (x n) from rfl, Real.logb,
        Real.negMulLog]
      ring

/-- The entropy of a payload is between nothing and eight bits. -/
theorem entropy_measurement {o : Observation} (hfirst : o.isFirst = true) :
    ∃ h : ℝ, 0 ≤ h ∧ h ≤ 8 ∧ ∀ m : AttributeMeter ℝ,
      HoldsShare ((m.fingerprint.getD 0 0 + h) / 8)
        (m.entropyFirstOrigToDestPacket o.reading o.packet) := by
  obtain ⟨hpacket, hdata⟩ := Bool.and_eq_true_iff.mp hfirst
  have hsize : o.packet.dataSize ≠ 0 := bne_iff_ne.mp hdata
  have hbytes := isDistribution_bytes hsize
  have hlog : 0 < Real.log 2 := Real.log_pos one_lt_two
  refine ⟨_, div_nonneg (sum_negMulLog_nonneg hbytes) hlog.le, ?_, fun m => ?_⟩
  · rw [div_le_iff₀ hlog]
    refine (sum_negMulLog_le (by decide) hbytes).trans (le_of_eq ?_)
    rw [show ((256 : Nat) : ℝ) = 2 ^ 8 by norm_num, Real.log_pow]
    norm_num
  · have hloop := foldl_entropy
      (fun i => ((o.packet.data.count (UInt8.ofNat i) : Nat) : ℝ) / (o.packet.data.length : ℝ))
      (fun i => by positivity) (m.fingerprint.getD 0 0) 256
    unfold entropyFirstOrigToDestPacket HoldsShare
    rw [hpacket, if_neg (by decide), if_neg hsize]
    simp only
    rw [← hloop]
    rfl

theorem entropy_skipped {o : Observation} (hfirst : o.isFirst = false) :
    m.entropyFirstOrigToDestPacket o.reading o.packet = m := by
  unfold entropyFirstOrigToDestPacket
  unfold Observation.isFirst Observation.hasData at hfirst
  cases hpacket : o.reading.isFirstPacket with
  | false => rfl
  | true =>
    rw [hpacket, Bool.true_and, bne_eq_false_iff_eq] at hfirst
    rw [Bool.not_true, if_neg Bool.false_ne_true, if_pos hfirst]

theorem measured_entropy :
    ((measured .entropyFirstOrigToDestPacket stale obs : AttributeMeter ℝ).fingerprint = [0, 0] ∧
      obs.countP Observation.isFirst = 0) ∨
    ∃ s, 0 ≤ s ∧ s ≤ 8 / 7 ∧
      HoldsShare s (measured .entropyFirstOrigToDestPacket stale obs) ∧
      0 < obs.countP Observation.isFirst ∧ (obs.countP Observation.isFirst = 1 → s ≤ 1) := by
  induction obs using List.reverseRecOn with
  | nil => exact Or.inl ⟨rfl, rfl⟩
  | append_singleton obs o ih =>
    have hmeasures : Measures .entropyFirstOrigToDestPacket
      (measured .entropyFirstOrigToDestPacket stale obs : AttributeMeter ℝ) := measures_measured
    rw [measured_append, List.countP_append, List.countP_singleton]
    unfold calculateMeasurement
    rw [hmeasures.kind]
    simp only
    cases hfirst : o.isFirst with
    | false =>
      rw [entropy_skipped hfirst, if_neg Bool.false_ne_true, Nat.add_zero]
      exact ih
    | true =>
      obtain ⟨h, hnonneg, hle, hholds⟩ := entropy_measurement hfirst
      have hholds := hholds (measured .entropyFirstOrigToDestPacket stale obs)
      rw [if_pos rfl]
      right
      rcases ih with ⟨hfp, hcount⟩ | ⟨s, hs, hs', hfp, hcount, -⟩
      · rw [show (measured .entropyFirstOrigToDestPacket stale obs :
          AttributeMeter ℝ).fingerprint.getD 0 0 = 0 by rw [hfp]; rfl] at hholds
        refine ⟨_, ?_, ?_, hholds, Nat.succ_pos _, fun _ => ?_⟩ <;> linarith
      · rw [show (measured .entropyFirstOrigToDestPacket stale obs :
          AttributeMeter ℝ).fingerprint.getD 0 0 = s by rw [hfp]; rfl] at hholds
        refine ⟨_, ?_, ?_, hholds, Nat.succ_pos _, fun hone => ?_⟩
        · linarith
        · linarith
        · exact absurd (Nat.succ.inj hone) hcount.ne'

theorem weighs_entropy :
    ((measured .entropyFirstOrigToDestPacket stale obs : AttributeMeter ℝ).Weighs ↔
      ∃ o ∈ obs, o.isFirst = true) ∧
    (obs.countP Observation.isFirst = 1 →
      (measured .entropyFirstOrigToDestPacket stale obs : AttributeMeter ℝ).IsWeighed) := by
  rw [← List.countP_pos_iff]
  rcases @measured_entropy stale obs with ⟨hfp, hcount⟩ | ⟨s, hs, hs', hfp, hcount, hone⟩
  · have hnot := not_weighs_of_zeroes measures_measured rfl hfp
    rw [hcount]
    exact ⟨⟨fun h => absurd h hnot, fun h => absurd h (Nat.lt_irrefl 0)⟩,
      fun h => absurd h Nat.zero_ne_one⟩
  · obtain ⟨hweighs, hweighed⟩ := weighs_of_share measures_measured rfl hfp hs
    exact ⟨⟨fun _ => hcount, fun _ => hweighs.mpr (by linarith)⟩, fun h => hweighed.mpr (hone h)⟩

/-! ### Sizes and patterns -/

theorem measured_payloadSize :
    HoldsShare (((obs.filter (·.reading.isFirstPacket)).getLast?.map Observation.share).getD 0)
      (measured .payloadSizeFirstPacket stale obs) := by
  induction obs using List.reverseRecOn with
  | nil =>
    unfold HoldsShare
    rw [List.filter_nil, List.getLast?_nil, Option.map_none, Option.getD_none, sub_zero]
    rfl
  | append_singleton obs o ih =>
    have hmeasures : Measures .payloadSizeFirstPacket
      (measured .payloadSizeFirstPacket stale obs : AttributeMeter ℝ) := measures_measured
    rw [measured_append, List.filter_append, List.filter_singleton]
    unfold calculateMeasurement
    rw [hmeasures.kind]
    simp only [payloadSizeFirstPacket]
    cases hfirst : o.reading.isFirstPacket with
    | false =>
      rw [cond_false, List.append_nil]
      exact ih
    | true =>
      rw [cond_true, List.getLast?_concat, Option.map_some, Option.getD_some]
      rfl

theorem weighs_payloadSize :
    ((measured .payloadSizeFirstPacket stale obs : AttributeMeter ℝ).Weighs ↔
      ∀ o ∈ (obs.filter (·.reading.isFirstPacket)).getLast?, o.packet.dataSize < 2 * o.maxSize) ∧
    ((measured .payloadSizeFirstPacket stale obs : AttributeMeter ℝ).IsWeighed ↔
      ∀ o ∈ (obs.filter (·.reading.isFirstPacket)).getLast?, o.packet.dataSize ≤ o.maxSize) := by
  have hmax : ∀ o : Observation, (0 : ℝ) < (o.maxSize : ℝ) := by
    intro o
    unfold Observation.maxSize
    split <;> norm_num
  have hholds := @measured_payloadSize stale obs
  cases hlast : (obs.filter (·.reading.isFirstPacket)).getLast? with
  | none =>
    rw [hlast, Option.map_none, Option.getD_none] at hholds
    obtain ⟨hweighs, hweighed⟩ := weighs_of_share measures_measured rfl hholds le_rfl
    exact ⟨⟨fun _ o ho => absurd ho (Option.not_mem_none o), fun _ => hweighs.mpr two_pos⟩,
      ⟨fun _ o ho => absurd ho (Option.not_mem_none o), fun _ => hweighed.mpr zero_le_one⟩⟩
  | some o =>
    rw [hlast, Option.map_some, Option.getD_some] at hholds
    obtain ⟨hweighs, hweighed⟩ := weighs_of_share measures_measured rfl hholds
      (div_nonneg (Nat.cast_nonneg _) (hmax o).le)
    simp only [Option.mem_def, Option.some.injEq, forall_eq']
    constructor
    · rw [hweighs, Observation.share, div_lt_iff₀ (hmax o), ← Nat.cast_ofNat, ← Nat.cast_mul,
        Nat.cast_lt]
    · rw [hweighed, Observation.share, div_le_one (hmax o), Nat.cast_le]

theorem isWeighed_rtmp :
    (measured .rtmpRegexMatch stale obs : AttributeMeter ℝ).IsWeighed := by
  have hholds : HoldsShare 0 (measured .rtmpRegexMatch stale obs) ∨
      HoldsShare 1 (measured .rtmpRegexMatch stale obs) := by
    induction obs using List.reverseRecOn with
    | nil =>
      left
      unfold HoldsShare
      rw [sub_zero]
      rfl
    | append_singleton obs o ih =>
      have hmeasures : Measures .rtmpRegexMatch
        (measured .rtmpRegexMatch stale obs : AttributeMeter ℝ) := measures_measured
      rw [measured_append]
      unfold calculateMeasurement rtmpRegexMatch
      rw [hmeasures.kind]
      simp only
      (repeat' split)
      · exact ih
      · exact ih
      · right
        unfold HoldsShare
        rw [sub_self]
      · exact ih
  rcases hholds with h | h
  · exact (weighs_of_share measures_measured rfl h le_rfl).2.mpr zero_le_one
  · exact (weighs_of_share measures_measured rfl h zero_le_one).2.mpr le_rfl

end AttributeMeter

end Vsid
