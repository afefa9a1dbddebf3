import Vsid.Laws.Frequencies

/-!
# The first bits

The meter of the first bits counts, for each bit of the first four bytes, how many payloads have it
set and how many have it clear. The positions are those of a block of sixteen for each byte: eight
for the ones and eight for the zeroes, from the highest bit. The total grows by 32 with every
payload, so the counts are shares of the bits that were looked at exactly if no payload is shorter
than four bytes (`bits_distribution_iff`).
-/

set_option autoImplicit false

namespace Vsid

namespace Observation

/-- The byte at a place of the payload is there, and has the bit as it is asked for, counted from
the highest one. -/
def showsBit (v : Bool) (i j : Nat) (o : Observation) : Bool :=
  o.packet.data[i]?.any fun byte => byte.toNat.testBit (7 - j) == v

/-- The bits of the payload that are looked at. -/
def examinedBits (o : Observation) : Nat := 8 * min o.packet.dataSize 4

end Observation

namespace AttributeMeter

variable {k : MeterKind} {stale : FirstBytes} {obs : List Observation} {m : AttributeMeter ℝ}

/-- The meter shows for each bit the share of the ones and of the zeroes in all bits that were
looked at. -/
structure IsBitShareOf (obs : List Observation) (m : AttributeMeter ℝ) : Prop where
  ones : ∀ i < 4, ∀ j < 8, m.atPos (16 * i + j) =
    (obs.countP (Observation.showsBit true i j) : ℝ) / ((obs.map Observation.examinedBits).sum : ℕ)
  zeroes : ∀ i < 4, ∀ j < 8, m.atPos (16 * i + 8 + j) =
    (obs.countP (Observation.showsBit false i j) : ℝ) / ((obs.map Observation.examinedBits).sum : ℕ)
  sum : (∃ o ∈ obs, o.hasData = true) → ∑ i ∈ Finset.range 64, m.atPos i = 1

/-- Every payload has four bytes. -/
def FourBytes (obs : List Observation) : Prop :=
  ∀ o ∈ obs, o.hasData = true → 4 ≤ o.packet.dataSize

/-! ## The positions -/

theorem bitAt_inj {v v' : Bool} {i i' j j' : Nat} (hj : j < 8) (hj' : j' < 8) :
    bitAt v i j = bitAt v' i' j' ↔ v = v' ∧ i = i' ∧ j = j' := by
  unfold bitAt
  cases v <;> cases v' <;>
    simp only [Bool.false_eq_true, Bool.true_eq_false, if_true, if_false, true_and, false_and,
      iff_false] <;>
    omega

/-- A byte moves one of the two counters of each of its bits. -/
theorem count_bytePositions {v : Bool} {i j n : Nat} (hj : j < 8) (byte : UInt8) :
    (bytePositions n byte).count (bitAt v i j) =
      if n = i ∧ byte.toNat.testBit (7 - j) = v then 1 else 0 := by
  have hnodup : (bytePositions n byte).Nodup := by
    refine List.nodup_range.map_on fun a ha b hb h => ?_
    exact ((bitAt_inj (List.mem_range.mp ha) (List.mem_range.mp hb)).mp h).2.2
  have hmem : bitAt v i j ∈ bytePositions n byte ↔ n = i ∧ byte.toNat.testBit (7 - j) = v := by
    unfold bytePositions
    rw [List.mem_map]
    constructor
    · rintro ⟨j', hj', h⟩
      obtain ⟨hv, hi, rfl⟩ := (bitAt_inj (List.mem_range.mp hj') hj).mp h
      exact ⟨hi, hv⟩
    · rintro ⟨rfl, rfl⟩
      exact ⟨j, List.mem_range.mpr hj, rfl⟩
  rw [hnodup.count]
  exact if_congr hmem rfl rfl

/-- The positions that some bytes move, the first of which is at a place. -/
theorem count_flatMap_bytePositions {v : Bool} {i j : Nat} (hj : j < 8) (bytes : List UInt8)
    (n : Nat) :
    ((bytes.zipIdx n).flatMap fun b => bytePositions b.2 b.1).count (bitAt v i j) =
      if n ≤ i ∧ (bytes[i - n]?.any fun byte => byte.toNat.testBit (7 - j) == v) = true then 1
      else 0 := by
  induction bytes generalizing n with
  | nil =>
    rw [List.zipIdx_nil, List.flatMap_nil, List.count_nil, List.getElem?_nil, Option.any_none,
      if_neg fun h => Bool.false_ne_true h.2]
  | cons byte bytes ih =>
    rw [List.zipIdx_cons, List.flatMap_cons, List.count_append, count_bytePositions hj, ih]
    rcases Nat.lt_trichotomy n i with hlt | rfl | hgt
    · have hnext : i - n = (i - (n + 1)) + 1 := by omega
      rw [if_neg fun h => hlt.ne h.1, Nat.zero_add, hnext, List.getElem?_cons_succ]
      refine if_congr (and_congr_left' ?_) rfl rfl
      omega
    · rw [if_neg (fun h : n + 1 ≤ n ∧ _ => absurd h.1 (Nat.not_succ_le_self n)), Nat.add_zero,
        Nat.sub_self, List.getElem?_cons_zero, Option.any_some]
      refine if_congr ?_ rfl rfl
      rw [beq_iff_eq]
      exact ⟨fun h => ⟨le_rfl, h.2⟩, fun h => ⟨rfl, h.2⟩⟩
    · rw [if_neg fun h => hgt.ne' h.1, if_neg fun h => by omega, if_neg fun h => by omega]

theorem count_bitPositions {v : Bool} {i j : Nat} (hi : i < 4) (hj : j < 8) (o : Observation) :
    (bitPositions o.packet.data).count (bitAt v i j) = if o.showsBit v i j then 1 else 0 := by
  rw [bitPositions, count_flatMap_bytePositions hj, Nat.sub_zero, List.getElem?_take_of_lt hi]
  exact if_congr (and_iff_right (Nat.zero_le i)) rfl rfl

/-! ## The counts -/

theorem calculate_bits {o : Observation} (hk : m.kind = .firstBitPositions) :
    (m.calculateMeasurement o.reading o.packet).fingerprint =
      increment m.fingerprint (bitPositions o.packet.data) := by
  unfold calculateMeasurement
  rw [hk]
  simp only [firstBitPositions, firstBits_eq]
  by_cases hdata : o.packet.dataSize = 0
  · rw [if_pos hdata, dataSize_eq_zero_iff.mp hdata]
    rfl
  · rw [if_neg hdata]

theorem counts_bits {v : Bool} {i j : Nat} (hi : i < 4) (hj : j < 8) :
    (measured .firstBitPositions stale obs : AttributeMeter ℝ).fingerprint.getD (bitAt v i j) 0 =
      (obs.countP (Observation.showsBit v i j) : ℝ) := by
  rw [getD_of_increments rfl (fun m o => calculate_bits) (bitAt_lt hi hj),
    count_flatMap_eq_countP (count_bitPositions hi hj)]

/-- What the meter shows of a bit. -/
theorem atPos_bits {v : Bool} {i j : Nat} (hi : i < 4) (hj : j < 8) :
    (measured .firstBitPositions stale obs : AttributeMeter ℝ).atPos (bitAt v i j) =
      (obs.countP (Observation.showsBit v i j) : ℝ) /
        ((measured .firstBitPositions stale obs : AttributeMeter ℝ).overall : ℝ) := by
  have hkind : Measures .firstBitPositions
    (measured .firstBitPositions stale obs : AttributeMeter ℝ) := measures_measured
  have hlt : bitAt v i j < (measured .firstBitPositions stale obs :
      AttributeMeter ℝ).fingerprint.length := by
    rw [hkind.length]
    exact bitAt_lt hi hj
  rw [atPos_of_lt hlt, hkind.kind, hkind.fromDb, counts_bits hi hj]
  rfl

/-- The total is that of the bits that were looked at, if no payload is short. -/
theorem overall_bits (h : FourBytes obs) :
    (measured .firstBitPositions stale obs : AttributeMeter ℝ).overall =
      (obs.map Observation.examinedBits).sum := by
  rw [(@measured_bits stale obs).2]
  induction obs with
  | nil => rfl
  | cons o obs ih =>
    obtain ⟨hhere, hmore⟩ := List.forall_mem_cons.mp h
    rw [List.filter_cons, List.map_cons, List.sum_cons, ← ih hmore]
    unfold Observation.examinedBits
    cases hdata : o.hasData with
    | true =>
      rw [if_pos rfl, List.map_cons, List.sum_cons, Nat.min_eq_right (hhere hdata)]
    | false =>
      have hsize : o.packet.dataSize = 0 := bne_eq_false_iff_eq.mp hdata
      rw [if_neg Bool.false_ne_true, hsize, Nat.zero_min, Nat.mul_zero, Nat.zero_add]

/-- **The meter of the first bits shows shares of the bits exactly if no payload is short.** -/
theorem isBitShareOf_iff :
    (measured .firstBitPositions stale obs : AttributeMeter ℝ).IsBitShareOf obs ↔
      FourBytes obs := by
  constructor
  · intro h o ho hdata
    exact (weighsWhen_bits.of_sum measures_measured rfl (h.sum ⟨o, ho, hdata⟩)).2 o ho hdata
  · intro h
    refine ⟨fun i hi j hj => ?_, fun i hi j hj => ?_, fun hsome => ?_⟩
    · have hat := @atPos_bits stale obs true i j hi hj
      rw [overall_bits h] at hat
      rwa [Nat.mul_comm]
    · have hat := @atPos_bits stale obs false i j hi hj
      rw [overall_bits h] at hat
      rwa [Nat.mul_comm]
    · obtain ⟨-, hsum⟩ := (@weighsWhen_bits stale obs).2.mpr ⟨hsome, h⟩
      rwa [measures_measured.kind] at hsum

end AttributeMeter

namespace Flow

open AttributeMeter

/-- **The 64 values are the shares of the ones and zeroes among the bits that were looked at exactly
if every payload has four bytes.** It holds for every flow, every sequence of packets and after
every prefix of it. -/
theorem bits_distribution_iff {S : Setup ℝ}
    (hk : S.factory.enabledAttributes .firstBitPositions = true) (p : IPv4Packet)
    (stale : FirstBytes) (packets : List IPv4Packet) :
    HoldsAlong S .firstBitPositions p stale packets
        (fun l am => am.IsBitShareOf (l.map Prod.fst)) ↔
      FourBytes ((Flow.new S p stale).observations S packets) := by
  rw [holdsAlong_iff hk, ← numbered_map_fst]
  constructor
  · intro h
    exact isBitShareOf_iff.mp (h _ List.prefix_rfl)
  · intro h l hl
    exact isBitShareOf_iff.mpr fun o ho => h o ((hl.map Prod.fst).subset ho)

/-- A program that records the first bits. -/
noncomputable def recordsBits : Setup ℝ := recordingWith fun k => k == .firstBitPositions

/-- A datagram of four bytes. -/
def fourBytes : IPv4Packet := { oneByte with data := [1, 2, 3, 4] }

/-- It, and two answers that are as long at least. -/
def longPayloads : List IPv4Packet :=
  [fourBytes, answerTo fourBytes [5, 6, 7, 8], answerTo fourBytes [9, 10, 11, 12, 13]]

theorem longPayloads_shares :
    HoldsAlong recordsBits .firstBitPositions fourBytes (fun _ => 0) longPayloads
      fun l am => am.IsBitShareOf (l.map Prod.fst) := by
  refine (bits_distribution_iff rfl fourBytes (fun _ => 0) longPayloads).mpr fun o ho _ => ?_
  have hsizes : ((Flow.new recordsBits fourBytes fun _ => 0).observations recordsBits
      longPayloads).map (fun o => o.packet.dataSize) = [4, 4, 5] := rfl
  have hsize : o.packet.dataSize ∈ [4, 4, 5] := hsizes ▸ List.mem_map_of_mem ho
  simp only [List.mem_cons, List.not_mem_nil, or_false] at hsize
  omega

/-- The eight bits of a datagram of one byte are shares of 32. -/
theorem oneByte_not_shares :
    (∃ am, (ofPackets recordsBits oneByte (fun _ => 0) [oneByte]).attributeMetersMap
        .firstBitPositions = some am ∧ am.atPos 7 = 1 / 32) ∧
      ¬ HoldsAlong recordsBits .firstBitPositions oneByte (fun _ => 0) [oneByte]
        fun l am => am.IsBitShareOf (l.map Prod.fst) := by
  have hat := @atPos_bits (fun _ => 0) ((Flow.new recordsBits oneByte
    fun _ => 0).observations recordsBits [oneByte]) true 0 7 (by decide) (by decide)
  change _ = ((1 : ℕ) : ℝ) / ((32 : ℕ) : ℝ) at hat
  rw [Nat.cast_one, Nat.cast_ofNat] at hat
  refine ⟨⟨_, attributeMetersMap_ofPackets rfl oneByte _ _, hat⟩, fun h => ?_⟩
  have hone := ((holdsAlong_iff rfl).mp h _ List.prefix_rfl).ones 0 (by decide) 7 (by decide)
  rw [numbered_map_fst] at hone
  have height := hat.symm.trans hone
  change (1 : ℝ) / 32 = ((1 : ℕ) : ℝ) / ((8 : ℕ) : ℝ) at height
  norm_num at height

end Flow

end Vsid
