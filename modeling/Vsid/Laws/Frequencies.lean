import Vsid.Laws.Steps
import Vsid.Lib.Counts

/-!
# The frequencies of bytes

Two of the classes that count bytes look at some of the packets only: the first eight, and the first
one of the answering side. What they hold is compared here with the frequencies of the bytes of
these packets, along every run. The meter of the first eight packets divides by the size of the last
one (`early_frequencies_iff`), and the meter of the answer takes the first payload of either side
(`reply_frequencies_iff`).
-/

set_option autoImplicit false

namespace Vsid

namespace AttributeMeter

variable {k : MeterKind} {stale : FirstBytes} {obs : List Observation} {m : AttributeMeter ℝ}

/-! ## Frequencies -/

/-- The meter shows how often each byte is among some bytes, as a share of them. Of no bytes every
share is zero, as it is in a division by zero. -/
structure IsFrequencyOf (bytes : List UInt8) (m : AttributeMeter ℝ) : Prop where
  share : ∀ b : UInt8, m.atPos b.toNat = (bytes.count b : ℝ) / (bytes.length : ℝ)
  sum : bytes ≠ [] → ∑ i ∈ Finset.range 256, m.atPos i = 1

theorem sum_of_share {bytes : List UInt8} {c : ℝ}
    (h : ∀ b : UInt8, m.atPos b.toNat = (bytes.count b : ℝ) / c) :
    ∑ i ∈ Finset.range 256, m.atPos i = (bytes.length : ℝ) / c := by
  have hat : ∀ i ∈ Finset.range 256, m.atPos i = (bytes.count (UInt8.ofNat i) : ℝ) / c := by
    intro i hi
    have hlt : i < 256 := Finset.mem_range.mp hi
    rw [← h, UInt8.toNat_ofNat', Nat.mod_eq_of_lt hlt]
  rw [Finset.sum_congr rfl hat, ← Finset.sum_div, ← Nat.cast_sum, sum_count_bytes bytes rfl]

theorem isFrequencyOf_of_share {bytes : List UInt8}
    (h : ∀ b : UInt8, m.atPos b.toNat = (bytes.count b : ℝ) / (bytes.length : ℝ)) :
    m.IsFrequencyOf bytes := by
  refine ⟨h, fun hne => ?_⟩
  have hlength : (bytes.length : ℝ) ≠ 0 :=
    Nat.cast_ne_zero.mpr fun hzero => hne (List.length_eq_zero_iff.mp hzero)
  rw [sum_of_share h, div_self hlength]

theorem IsFrequencyOf.sum_nil (h : m.IsFrequencyOf []) :
    ∑ i ∈ Finset.range 256, m.atPos i = 0 := by
  rw [sum_of_share h.share, List.length_nil, Nat.cast_zero, zero_div]

/-- No bytes and some bytes differ in their frequencies. -/
theorem IsFrequencyOf.eq_nil {bytes : List UInt8} (h : m.IsFrequencyOf bytes)
    (hnil : m.IsFrequencyOf []) : bytes = [] := by
  by_contra hne
  exact zero_ne_one (hnil.sum_nil.symm.trans (h.sum hne))

/-! ## Counting -/

theorem injective_toNat : Function.Injective UInt8.toNat := fun _ _ h => UInt8.toNat_inj.mp h

/-- A byte is counted as often as it is there. -/
theorem getD_countBytes {fp : List ℝ} (h : fp.length = 256) (data : List UInt8) (b : UInt8) :
    (countBytes fp data).getD b.toNat 0 = fp.getD b.toNat 0 + (data.count b : ℝ) := by
  have hlt : b.toNat < fp.length := h ▸ b.toNat_lt
  rw [countBytes_eq, getD_increment hlt, List.count_map_of_injective data _ injective_toNat]

/-- A class whose packets move counters holds how often each was moved. -/
theorem getD_of_increments {positions : Observation → List Nat}
    (hinit : initialFingerprint k = List.replicate k.fingerprintSize (0 : ℝ))
    (hstep : ∀ (m : AttributeMeter ℝ) (o : Observation), m.kind = k →
      (m.calculateMeasurement o.reading o.packet).fingerprint =
        increment m.fingerprint (positions o))
    {i : Nat} (hi : i < k.fingerprintSize) :
    (measured k stale obs : AttributeMeter ℝ).fingerprint.getD i 0 =
      ((obs.flatMap positions).count i : ℝ) := by
  induction obs using List.reverseRecOn with
  | nil =>
    rw [List.flatMap_nil, List.count_nil, Nat.cast_zero,
      show (measured k stale [] : AttributeMeter ℝ).fingerprint = _ from hinit]
    exact List.getD_replicate _ hi
  | append_singleton obs o ih =>
    have hm : Measures k (measured k stale obs : AttributeMeter ℝ) := measures_measured
    rw [measured_append, hstep _ o hm.kind, getD_increment (hm.length.symm ▸ hi), ih,
      List.flatMap_append, List.flatMap_singleton, List.count_append, Nat.cast_add]

/-- … and so it is with bytes. -/
theorem getD_of_bytes {bytes : Observation → List UInt8} (hsize : k.fingerprintSize = 256)
    (hinit : initialFingerprint k = List.replicate k.fingerprintSize (0 : ℝ))
    (hstep : ∀ (m : AttributeMeter ℝ) (o : Observation), m.kind = k →
      (m.calculateMeasurement o.reading o.packet).fingerprint = countBytes m.fingerprint (bytes o))
    (b : UInt8) :
    (measured k stale obs : AttributeMeter ℝ).fingerprint.getD b.toNat 0 =
      ((obs.flatMap bytes).count b : ℝ) := by
  have hcount := @getD_of_increments k stale obs _ hinit
    (fun m o hm => (hstep m o hm).trans (countBytes_eq _ _)) b.toNat (hsize.symm ▸ b.toNat_lt)
  rw [hcount, ← List.map_flatMap, List.count_map_of_injective _ _ injective_toNat]

/-- What a class that counts shows of a byte. -/
theorem atPos_of_counts (hm : Measures k m) (hk : k.dividesByTotal = true)
    (hsize : k.fingerprintSize = 256) {bytes : List UInt8}
    (hcounts : ∀ b : UInt8, m.fingerprint.getD b.toNat 0 = (bytes.count b : ℝ)) (b : UInt8) :
    m.atPos b.toNat = (bytes.count b : ℝ) / (m.overall : ℝ) := by
  have hlt : b.toNat < m.fingerprint.length := by
    rw [hm.length, hsize]
    exact b.toNat_lt
  rw [atPos_of_lt hlt, hm.kind, hk, hm.fromDb, hcounts b]
  rfl

/-- The classes that look at each packet alone show the frequencies of what they cover. -/
theorem frequency_covered
    (hk : k = .byteFrequency ∨ k = .first4ByteFrequency ∨ k = .first16ByteFrequency ∨
      k = .byteFrequencyFirstOrigToDestPacket) :
    (measured k stale obs : AttributeMeter ℝ).IsFrequencyOf
      (obs.flatMap (Observation.covered k)) := by
  have hcover := fun (m : AttributeMeter ℝ) (o : Observation) (h : m.kind = k) => by
    have hstep := calculate_cover (m := m) (o := o) (h ▸ hk)
    rwa [h] at hstep
  have hsize : k.fingerprintSize = 256 := by rcases hk with rfl | rfl | rfl | rfl <;> rfl
  have hinit : initialFingerprint k = List.replicate 256 (0 : ℝ) := by
    rcases hk with rfl | rfl | rfl | rfl <;> rfl
  have hdivides : k.dividesByTotal = true := by rcases hk with rfl | rfl | rfl | rfl <;> rfl
  have hcounts := @getD_of_bytes k stale obs _ hsize (hsize.symm ▸ hinit) fun m o hm =>
    congrArg fingerprint (hcover m o hm)
  obtain ⟨-, htotal⟩ := @measured_of_cover k stale obs hsize hinit hcover
  refine isFrequencyOf_of_share fun b => ?_
  rw [atPos_of_counts measures_measured hdivides hsize hcounts b, htotal]

/-- The payloads of the data packets that are not empty. -/
def payloads (l : List (Observation × Nat)) : List (List UInt8) :=
  ((l.map Prod.fst).filter Observation.hasData).map (·.packet.data)

/-- An empty payload adds nothing to what is covered. -/
theorem flatMap_payloads {part : List UInt8 → List UInt8} (hnil : part [] = [])
    (l : List (Observation × Nat)) :
    (payloads l).flatMap part = (l.map Prod.fst).flatMap fun o => part o.packet.data := by
  unfold payloads
  rw [List.flatMap_map]
  generalize l.map Prod.fst = obs
  induction obs with
  | nil => rfl
  | cons o obs ih =>
    rw [List.filter_cons, List.flatMap_cons, ← ih]
    cases hdata : o.hasData with
    | true => rw [if_pos rfl, List.flatMap_cons]
    | false =>
      have hsize : o.packet.dataSize = 0 := bne_eq_false_iff_eq.mp hdata
      rw [if_neg Bool.false_ne_true, dataSize_eq_zero_iff.mp hsize, hnil, List.nil_append]

/-! ## The first eight packets -/

/-- The bytes of the data packets that are numbered one to eight. -/
def earlyBytes (l : List (Observation × Nat)) : List UInt8 :=
  (l.filter fun x => decide (x.2 ≤ 8)).flatMap fun x => x.1.packet.data

/-- One payload at most is early, and it is among the first eight packets. -/
def OneEarly (l : List (Observation × Nat)) : Prop :=
  (l.filter fun x => x.1.isEarly).length ≤ 1 ∧ ∀ x ∈ l, x.1.isEarly = true → x.2 ≤ 8

theorem calculate_early {o : Observation} (hk : m.kind = .byteFrequencyFirst8Packets) :
    (m.calculateMeasurement o.reading o.packet).fingerprint =
      countBytes m.fingerprint (if o.isEarly then o.packet.data else []) := by
  unfold calculateMeasurement Observation.isEarly Observation.hasData
  rw [hk]
  simp only [byteFrequencyFirst8Packets]
  by_cases hlate : 8 < o.reading.pktCount
  · rw [if_pos hlate, decide_eq_false (UInt32.not_le.mpr hlate)]
    rfl
  · rw [if_neg hlate, decide_eq_true (UInt32.not_lt.mp hlate), Bool.true_and]
    by_cases hdata : o.packet.dataSize = 0
    · rw [if_pos hdata, if_neg fun h => bne_iff_ne.mp h hdata]
      rfl
    · rw [if_neg hdata, if_pos (bne_iff_ne.mpr hdata)]

/-- The bytes that the meter counts. -/
theorem counts_early (b : UInt8) :
    (measured .byteFrequencyFirst8Packets stale obs : AttributeMeter ℝ).fingerprint.getD b.toNat 0 =
      ((((obs.filter Observation.isEarly).flatMap (·.packet.data)).count b : ℕ) : ℝ) := by
  rw [getD_of_bytes rfl rfl fun m o => calculate_early]
  congr 2
  induction obs with
  | nil => rfl
  | cons o obs ih =>
    rw [List.flatMap_cons, List.filter_cons, ih]
    cases o.isEarly <;> rfl

/-- The size of the last early payload, which the meter divides by. -/
theorem overall_early :
    (measured .byteFrequencyFirst8Packets stale obs : AttributeMeter ℝ).overall =
      ((obs.filter Observation.isEarly).map (·.packet.dataSize)).getLastD 0 :=
  (@measured_early stale obs).2

/-- Of the packets that are numbered one to eight, the early ones are those with a payload. -/
theorem isEarly_of_number {x : Observation × Nat}
    (hcount : x.1.reading.pktCount = UInt32.ofNat x.2) (hle : x.2 ≤ 8) :
    x.1.isEarly = x.1.hasData := by
  have hsmall : x.1.reading.pktCount ≤ 8 := by
    rw [hcount, UInt32.le_iff_toNat_le, UInt32.toNat_ofNat', Nat.mod_eq_of_lt (by omega)]
    exact hle
  rw [Observation.isEarly, decide_eq_true hsmall, Bool.true_and]

theorem data_ne_nil_iff {o : Observation} : o.packet.data ≠ [] ↔ o.hasData = true := by
  rw [Observation.hasData, bne_iff_ne, Ne, Ne, dataSize_eq_zero_iff]

/-- They are what the meter counts, if it counts no other packet. -/
theorem earlyBytes_eq {l : List (Observation × Nat)}
    (hnumber : ∀ x ∈ l, x.1.reading.pktCount = UInt32.ofNat x.2)
    (hearly : ∀ x ∈ l, x.1.isEarly = true → x.2 ≤ 8) :
    earlyBytes l = ((l.map Prod.fst).filter Observation.isEarly).flatMap (·.packet.data) := by
  unfold earlyBytes
  induction l with
  | nil => rfl
  | cons x l ih =>
    obtain ⟨hcount, hnumber⟩ := List.forall_mem_cons.mp hnumber
    obtain ⟨hfirst, hearly⟩ := List.forall_mem_cons.mp hearly
    rw [List.filter_cons, List.map_cons, List.filter_cons]
    cases hx : x.1.isEarly with
    | true =>
      rw [decide_eq_true (hfirst hx), if_pos rfl, if_pos rfl, List.flatMap_cons, List.flatMap_cons,
        ih hnumber hearly]
    | false =>
      rw [if_neg Bool.false_ne_true, ← ih hnumber hearly]
      split
      next hle =>
        -- the number is small and the packet is not early, so there is no payload
        have hempty : x.1.packet.data = [] := by
          by_contra hne
          rw [isEarly_of_number hcount (of_decide_eq_true hle), data_ne_nil_iff.mp hne] at hx
          exact Bool.false_ne_true hx.symm
        rw [List.flatMap_cons, hempty, List.nil_append]
      next => rfl

theorem counts_early_ne_zero (h : obs.filter Observation.isEarly ≠ []) :
    (measured .byteFrequencyFirst8Packets stale obs : AttributeMeter ℝ).overall ≠ 0 ∧
      (obs.filter Observation.isEarly).flatMap (·.packet.data) ≠ [] := by
  obtain ⟨early, o, heq⟩ := (List.eq_nil_or_concat' _).resolve_left h
  have hmem : o ∈ obs.filter Observation.isEarly := by
    rw [heq]
    exact List.mem_append_right _ List.mem_cons_self
  obtain ⟨-, hearly⟩ := List.mem_filter.mp hmem
  have hdata : o.hasData = true := (Bool.and_eq_true_iff.mp hearly).2
  rw [overall_early, heq, List.map_append, List.map_singleton, List.getLastD_concat,
    List.flatMap_append, List.flatMap_singleton]
  refine ⟨bne_iff_ne.mp hdata, fun hnil => ?_⟩
  exact data_ne_nil_iff.mpr hdata (List.append_eq_nil_iff.mp hnil).2

/-- **The meter of the first eight packets shows frequencies exactly of one payload.** -/
theorem frequency_early_iff {l : List (Observation × Nat)}
    (hnumber : ∀ x ∈ l, x.1.reading.pktCount = UInt32.ofNat x.2) :
    (measured .byteFrequencyFirst8Packets stale (l.map Prod.fst) :
        AttributeMeter ℝ).IsFrequencyOf (earlyBytes l) ↔ OneEarly l := by
  have hat := atPos_of_counts (k := .byteFrequencyFirst8Packets) measures_measured rfl rfl
    (@counts_early stale (l.map Prod.fst))
  have hlength : ((l.map Prod.fst).filter Observation.isEarly).length =
      (l.filter fun x => x.1.isEarly).length := by
    rw [List.filter_map, List.length_map]
    rfl
  constructor
  · intro h
    by_cases hnone : (l.map Prod.fst).filter Observation.isEarly = []
    · refine ⟨by rw [← hlength, hnone]; exact Nat.zero_le 1, fun x hx hearly => ?_⟩
      have hmem := List.mem_filter.mpr ⟨List.mem_map_of_mem (f := Prod.fst) hx, hearly⟩
      rw [hnone] at hmem
      exact absurd hmem List.not_mem_nil
    · -- something is counted, so it shows, and its shares add up to one
      obtain ⟨htotal, hcounted⟩ := @counts_early_ne_zero stale _ hnone
      have hbytes : earlyBytes l ≠ [] := by
        intro hnil
        rw [hnil] at h
        have hsum := sum_of_share hat
        rw [h.sum_nil] at hsum
        exact div_ne_zero (Nat.cast_ne_zero.mpr (mt List.length_eq_zero_iff.mp hcounted))
          (Nat.cast_ne_zero.mpr htotal) hsum.symm
      have hone := weighsWhen_early.of_sum measures_measured rfl (h.sum hbytes)
      rw [hlength] at hone
      refine ⟨hone.le, fun x hx hearly => ?_⟩
      -- the one payload is of the first eight packets
      obtain ⟨b, hb⟩ := List.exists_mem_of_ne_nil _ hbytes
      obtain ⟨y, hy, hdata⟩ := List.mem_flatMap.mp hb
      obtain ⟨hy, hle⟩ := List.mem_filter.mp hy
      have hle : y.2 ≤ 8 := of_decide_eq_true hle
      have hyearly : y.1.isEarly = true := by
        rw [isEarly_of_number (hnumber y hy) hle]
        exact data_ne_nil_iff.mp (List.ne_nil_of_mem hdata)
      obtain ⟨z, hz⟩ := List.length_eq_one_iff.mp hone
      have hxz : x = z := List.mem_singleton.mp (hz ▸ List.mem_filter.mpr ⟨hx, hearly⟩)
      have hyz : y = z := List.mem_singleton.mp (hz ▸ List.mem_filter.mpr ⟨hy, hyearly⟩)
      rw [hxz, ← hyz]
      exact hle
  · rintro ⟨hone, hearly⟩
    refine isFrequencyOf_of_share fun b => ?_
    rw [hat b, earlyBytes_eq hnumber hearly, overall_early]
    rw [← hlength] at hone
    congr 2
    generalize (l.map Prod.fst).filter Observation.isEarly = early at hone
    cases early with
    | nil => rfl
    | cons o early =>
      cases List.length_eq_zero_iff.mp (Nat.le_zero.mp (Nat.succ_le_succ_iff.mp hone))
      rw [List.flatMap_singleton]
      rfl

theorem OneEarly.of_isPrefix {l l' : List (Observation × Nat)} (h : OneEarly l') (hl : l <+: l') :
    OneEarly l :=
  ⟨((hl.filter _).length_le).trans h.1, fun x hx => h.2 x (hl.subset hx)⟩

/-! ## The answer -/

/-- A payload from destination to originator. -/
def isAnswer (o : Observation) : Bool :=
  o.hasData && o.reading.currentPacketDirection == .destToOrig

theorem hasData_of_isAnswer {o : Observation} (h : isAnswer o = true) : o.hasData = true :=
  (Bool.and_eq_true_iff.mp h).1

theorem not_isAnswer_of_empty {o : Observation} (h : (!o.hasData) = true) :
    (!isAnswer o) = true := by
  rw [Bool.not_eq_true'] at h ⊢
  rw [isAnswer, h, Bool.false_and]

/-- The meter of the answer shows the frequencies of the first payload of either side. -/
theorem frequency_reply :
    (measured .byteFrequencyFirstDestToOrigPacket stale obs : AttributeMeter ℝ).IsFrequencyOf
      (firstPayload Observation.hasData obs) := by
  obtain ⟨hfp, htotal, -⟩ := @measured_first stale obs
  have hcounts : ∀ b : UInt8, (measured .byteFrequencyFirstDestToOrigPacket stale obs :
      AttributeMeter ℝ).fingerprint.getD b.toNat 0 =
        (((firstPayload Observation.hasData obs).count b : ℕ) : ℝ) := by
    intro b
    rw [hfp, getD_countBytes List.length_replicate, List.getD_replicate _ b.toNat_lt, zero_add]
  refine isFrequencyOf_of_share fun b => ?_
  rw [atPos_of_counts measures_measured rfl rfl hcounts b, htotal]

/-- The first payload is that of an answer. -/
def AnswersFirst (obs : List Observation) : Prop :=
  ∀ o ∈ obs.find? Observation.hasData, o.reading.currentPacketDirection = .destToOrig

/-- The first payload of all is then the first one of the answering side. -/
theorem AnswersFirst.firstPayload_eq (h : AnswersFirst obs) :
    firstPayload isAnswer obs = firstPayload Observation.hasData obs := by
  unfold firstPayload
  congr 2
  unfold AnswersFirst at h
  cases hfirst : obs.find? Observation.hasData with
  | none =>
    refine List.find?_eq_none.mpr fun o ho hanswer => ?_
    exact List.find?_eq_none.mp hfirst o ho (hasData_of_isAnswer hanswer)
  | some o =>
    obtain ⟨hdata, before, after, rfl, hbefore⟩ := List.find?_eq_some_iff_append.mp hfirst
    refine List.find?_eq_some_iff_append.mpr ⟨?_, before, after, rfl, fun o' ho' => ?_⟩
    · rw [isAnswer, hdata, h o hfirst]
      rfl
    · exact not_isAnswer_of_empty (hbefore o' ho')

theorem AnswersFirst.of_isPrefix {obs' : List Observation} (h : AnswersFirst obs')
    (hobs : obs <+: obs') : AnswersFirst obs := by
  obtain ⟨more, rfl⟩ := hobs
  intro o ho
  refine h o ?_
  rw [List.find?_append, ho]
  rfl

end AttributeMeter

namespace Flow

open AttributeMeter

/-- What a class that looks at each packet alone covers, on a run. -/
theorem holdsAlong_covered {S : Setup ℝ} {k : MeterKind} {part : List UInt8 → List UInt8}
    (hk : k = .byteFrequency ∨ k = .first4ByteFrequency ∨ k = .first16ByteFrequency)
    (hcovered : ∀ o, Observation.covered k o = part o.packet.data) (hnil : part [] = [])
    (henabled : S.factory.enabledAttributes k = true) (p : IPv4Packet) (stale : FirstBytes)
    (packets : List IPv4Packet) :
    HoldsAlong S k p stale packets fun l am => am.IsFrequencyOf ((payloads l).flatMap part) := by
  refine (holdsAlong_iff henabled).mpr fun l _ => ?_
  have hfrequency : (measured k stale (l.map Prod.fst) : AttributeMeter ℝ).IsFrequencyOf
      ((l.map Prod.fst).flatMap (Observation.covered k)) := by
    refine frequency_covered ?_
    rcases hk with rfl | rfl | rfl <;> decide
  rw [flatMap_payloads hnil]
  rwa [List.flatMap_congr fun o _ => hcovered o] at hfrequency

/-- **The meters of byte frequencies show the frequencies of what they cover.** It holds for every
flow, every sequence of packets and after every prefix of it. -/
theorem covered_frequencies (S : Setup ℝ) (p : IPv4Packet) (stale : FirstBytes)
    (packets : List IPv4Packet) :
    (S.factory.enabledAttributes .byteFrequency = true →
      HoldsAlong S .byteFrequency p stale packets
        fun l am => am.IsFrequencyOf (payloads l).flatten) ∧
    (S.factory.enabledAttributes .first4ByteFrequency = true →
      HoldsAlong S .first4ByteFrequency p stale packets
        fun l am => am.IsFrequencyOf ((payloads l).flatMap (·.take 4))) ∧
    (S.factory.enabledAttributes .first16ByteFrequency = true →
      HoldsAlong S .first16ByteFrequency p stale packets
        fun l am => am.IsFrequencyOf ((payloads l).flatMap (·.take 16))) := by
  refine ⟨fun hk => ?_, fun hk => ?_, fun hk => ?_⟩
  · simp only [← List.flatMap_id]
    exact holdsAlong_covered (by decide) (fun _ => rfl) rfl hk p stale packets
  · exact holdsAlong_covered (by decide) (fun _ => rfl) rfl hk p stale packets
  · exact holdsAlong_covered (by decide) (fun _ => rfl) rfl hk p stale packets

/-- A program that records all classes. -/
noncomputable def recordsAll : Setup ℝ := recordingWith fun _ => true

/-- The fifth byte of a datagram is one of five, and none of the first four. -/
theorem fiveBytes_frequencies :
    (∃ am, (ofPackets recordsAll oneByte (fun _ => 0) [{ oneByte with data := [1, 2, 3, 4, 5] }]
        ).attributeMetersMap .byteFrequency = some am ∧ am.atPos 5 = 1 / 5) ∧
      ∃ am, (ofPackets recordsAll oneByte (fun _ => 0) [{ oneByte with data := [1, 2, 3, 4, 5] }]
        ).attributeMetersMap .first4ByteFrequency = some am ∧ am.atPos 5 = 0 := by
  obtain ⟨hall, hfour, -⟩ := covered_frequencies recordsAll oneByte (fun _ => 0)
    [{ oneByte with data := [1, 2, 3, 4, 5] }]
  obtain ⟨am, hfound, hfrequency⟩ := hall rfl _ List.prefix_rfl
  obtain ⟨am', hfound', hfrequency'⟩ := hfour rfl _ List.prefix_rfl
  refine ⟨⟨am, hfound, (hfrequency.share 5).trans ?_⟩, am', hfound',
    (hfrequency'.share 5).trans ?_⟩
  · change ((1 : ℕ) : ℝ) / ((5 : ℕ) : ℝ) = 1 / 5
    norm_num
  · change ((0 : ℕ) : ℝ) / ((4 : ℕ) : ℝ) = 0
    norm_num

/-- **The meter shows the frequencies of the bytes of the first eight data packets exactly if one of
them has a payload at most.** It holds for every flow, every sequence of packets and after every
prefix of it. -/
theorem early_frequencies_iff {S : Setup ℝ}
    (hk : S.factory.enabledAttributes .byteFrequencyFirst8Packets = true) (p : IPv4Packet)
    (stale : FirstBytes) (packets : List IPv4Packet) :
    HoldsAlong S .byteFrequencyFirst8Packets p stale packets
        (fun l am => am.IsFrequencyOf (earlyBytes l)) ↔
      OneEarly ((Flow.new S p stale).numbered S packets) := by
  rw [holdsAlong_iff hk]
  have hnumber := @pktCount_of_numbered_new ℝ _ S p stale packets
  constructor
  · intro h
    exact (frequency_early_iff hnumber).mp (h _ List.prefix_rfl)
  · intro h l hl
    exact (frequency_early_iff fun x hx => hnumber x (hl.subset hx)).mpr (h.of_isPrefix hl)

/-- A program that records the bytes of the first eight packets. -/
noncomputable def recordsEarly : Setup ℝ := recordingWith fun k => k == .byteFrequencyFirst8Packets

/-- A byte between datagrams without data. -/
def onePayload : List IPv4Packet := [emptyDatagram, oneByte, answerTo oneByte [], emptyDatagram]

theorem onePayload_early :
    HoldsAlong recordsEarly .byteFrequencyFirst8Packets emptyDatagram (fun _ => 0) onePayload
      fun l am => am.IsFrequencyOf (earlyBytes l) := by
  refine (early_frequencies_iff rfl emptyDatagram (fun _ => 0) onePayload).mpr
    ⟨Nat.le_refl 1, fun x hx _ => ?_⟩
  have hnumbers : ((Flow.new recordsEarly emptyDatagram fun _ => 0).numbered recordsEarly
      onePayload).map Prod.snd = [1, 2, 3, 4] := rfl
  have hnumber : x.2 ∈ [1, 2, 3, 4] := hnumbers ▸ List.mem_map_of_mem hx
  simp only [List.mem_cons, List.not_mem_nil, or_false] at hnumber
  omega

/-- Two datagrams with one byte: its share is two. -/
theorem twoBytes_not_early :
    (∃ am, (ofPackets recordsEarly oneByte (fun _ => 0) [oneByte, oneByte]).attributeMetersMap
        .byteFrequencyFirst8Packets = some am ∧ am.atPos 1 = 2) ∧
      ¬ HoldsAlong recordsEarly .byteFrequencyFirst8Packets oneByte (fun _ => 0) [oneByte, oneByte]
        fun l am => am.IsFrequencyOf (earlyBytes l) := by
  have hat : (measured .byteFrequencyFirst8Packets (fun _ => 0) ((Flow.new recordsEarly oneByte
      fun _ => 0).observations recordsEarly [oneByte, oneByte]) : AttributeMeter ℝ).atPos 1 =
        2 := by
    refine (atPos_of_counts measures_measured rfl rfl counts_early 1).trans ?_
    rw [overall_early]
    -- two ones are counted, and the last payload has one byte
    change ((2 : ℕ) : ℝ) / ((1 : ℕ) : ℝ) = 2
    norm_num
  refine ⟨⟨_, attributeMetersMap_ofPackets rfl oneByte _ _, hat⟩, fun h => ?_⟩
  have hshare := ((holdsAlong_iff rfl).mp h _ List.prefix_rfl).share 1
  have hbytes : earlyBytes ((Flow.new recordsEarly oneByte fun _ => 0).numbered recordsEarly
    [oneByte, oneByte]) = [1, 1] := rfl
  rw [numbered_map_fst, show (1 : UInt8).toNat = 1 from rfl, hat, hbytes] at hshare
  norm_num at hshare

/-- **The meter shows the frequencies of the bytes of the first answer exactly if the first payload
is one.** It holds for every flow, every sequence of packets and after every prefix of it. -/
theorem reply_frequencies_iff {S : Setup ℝ}
    (hk : S.factory.enabledAttributes .byteFrequencyFirstDestToOrigPacket = true) (p : IPv4Packet)
    (stale : FirstBytes) (packets : List IPv4Packet) :
    HoldsAlong S .byteFrequencyFirstDestToOrigPacket p stale packets
        (fun l am => am.IsFrequencyOf (firstPayload isAnswer (l.map Prod.fst))) ↔
      AnswersFirst ((Flow.new S p stale).observations S packets) := by
  rw [holdsAlong_iff hk, ← numbered_map_fst]
  generalize (Flow.new S p stale).numbered S packets = l
  constructor
  · intro h o ho
    -- the packets up to the first payload
    obtain ⟨hdata, before, after, hsplit, hbefore⟩ := List.find?_eq_some_iff_append.mp ho
    by_contra hother
    have hstart : (l.take (before.length + 1)).map Prod.fst = before ++ [o] := by
      rw [List.map_take, hsplit, List.take_append, List.take_of_length_le (Nat.le_succ _),
        Nat.add_sub_cancel_left]
      rfl
    have hshown := h _ (List.take_prefix (before.length + 1) l)
    rw [hstart] at hshown
    have hnone : (before ++ [o]).find? isAnswer = none := by
      refine List.find?_eq_none.mpr fun o' ho' => ?_
      rw [Bool.not_eq_true, ← Bool.not_eq_true']
      rcases List.mem_append.mp ho' with hold | hlast
      · exact not_isAnswer_of_empty (hbefore o' hold)
      · rw [List.mem_singleton.mp hlast, isAnswer, beq_eq_false_iff_ne.mpr hother, Bool.and_false]
        rfl
    have hfirst : (before ++ [o]).find? Observation.hasData = some o :=
      List.find?_eq_some_iff_append.mpr ⟨hdata, before, [], rfl, hbefore⟩
    have hreply := @frequency_reply stale (before ++ [o])
    unfold firstPayload at hshown hreply
    rw [hnone] at hshown
    rw [hfirst] at hreply
    exact data_ne_nil_iff.mpr hdata (hreply.eq_nil hshown)
  · intro h l' hl'
    rw [(h.of_isPrefix (hl'.map Prod.fst)).firstPayload_eq]
    exact frequency_reply

/-- A program that records the bytes of the first answer. -/
noncomputable def recordsReply : Setup ℝ :=
  recordingWith fun k => k == .byteFrequencyFirstDestToOrigPacket

/-- An answer to a datagram without data. -/
theorem emptyDatagram_reply :
    HoldsAlong recordsReply .byteFrequencyFirstDestToOrigPacket emptyDatagram (fun _ => 0)
      [emptyDatagram, answerTo emptyDatagram [2]]
      fun l am => am.IsFrequencyOf (firstPayload isAnswer (l.map Prod.fst)) := by
  refine (reply_frequencies_iff rfl emptyDatagram (fun _ => 0) _).mpr fun o ho => ?_
  cases ho
  decide

/-- The datagram that opens a flow is no answer, and its bytes are shown. -/
theorem oneByte_not_reply :
    (∃ am, (ofPackets recordsReply oneByte (fun _ => 0) [oneByte]).attributeMetersMap
        .byteFrequencyFirstDestToOrigPacket = some am ∧ am.atPos 1 = 1) ∧
      ¬ HoldsAlong recordsReply .byteFrequencyFirstDestToOrigPacket oneByte (fun _ => 0) [oneByte]
        fun l am => am.IsFrequencyOf (firstPayload isAnswer (l.map Prod.fst)) := by
  have hat := (@frequency_reply (fun _ => 0) ((Flow.new recordsReply oneByte
    fun _ => 0).observations recordsReply [oneByte])).share 1
  change _ = ((1 : ℕ) : ℝ) / ((1 : ℕ) : ℝ) at hat
  rw [div_self (Nat.cast_ne_zero.mpr Nat.one_ne_zero)] at hat
  refine ⟨⟨_, attributeMetersMap_ofPackets rfl oneByte _ _, hat⟩, fun h => ?_⟩
  have hshare := ((holdsAlong_iff rfl).mp h _ List.prefix_rfl).share 1
  have hnone : firstPayload isAnswer ((Flow.new recordsReply oneByte fun _ => 0).observations
    recordsReply [oneByte]) = [] := rfl
  rw [numbered_map_fst, hat, hnone, List.length_nil, Nat.cast_zero, div_zero] at hshare
  exact one_ne_zero hshare

end Flow

end Vsid
