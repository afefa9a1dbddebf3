import Vsid.Laws.Distributions
import Vsid.Laws.Frequencies
import Vsid.Protocol.CheckedMeter

/-!
# What the meters write

The fingerprint of a meter has the size of its class, and no packet changes that. So every access is
below the size: a byte is below 256, the digits of two times three bytes add up to 114 at most, and
four bytes have 64 counters. `calculateChecked_eq_ok` says that the checked meters never fail and do
what the others do, `writes_inside` that this is so along every run.
-/

set_option autoImplicit false

namespace Vsid

namespace AttributeMeter

variable {R : Type} [Double R] {m : AttributeMeter R} {fuel : Nat}

/-! ## Digits -/

theorem sum_digits (n : Nat) :
    (Nat.digits 10 n).sum = n % 10 + (Nat.digits 10 (n / 10)).sum := by
  rcases Nat.eq_zero_or_pos n with rfl | hpos
  · rfl
  · rw [Nat.digits_def' (by decide) hpos, List.sum_cons]

/-- One round of the loop over the digits. -/
theorem digitRound_eq_ok {total : Nat} (htotal : total < 256) {byte sum : UInt8}
    (h : sum.toNat + (Nat.digits 10 byte.toNat).sum = total) :
    digitRound (byte, sum) = .ok (byte / 10, sum + byte % 10) ∧
      (sum + byte % 10).toNat + (Nat.digits 10 (byte / 10).toNat).sum = total := by
  have hrest : (byte % 10).toNat = byte.toNat % 10 := UInt8.toNat_mod ..
  have hquotient : (byte / 10).toNat = byte.toNat / 10 := UInt8.toNat_div ..
  rw [sum_digits] at h
  obtain ⟨hok, hsum⟩ := Checked.addByte_eq_ok (a := sum) (b := byte % 10) (by omega)
  refine ⟨congrArg (· >>= _) hok, ?_⟩
  rw [hsum, hrest, hquotient, Nat.add_assoc]
  exact h

/-- The loop over the digits of a byte ends, and its sum does not wrap. -/
theorem digitLoop_eq_ok (hfuel : 256 ≤ fuel) (byte : UInt8) {sum : UInt8} (hsum : sum.toNat ≤ 236) :
    digitLoop fuel byte sum = .ok (crossSum 3 byte sum) ∧
      (crossSum 3 byte sum).toNat ≤ sum.toNat + 19 := by
  have hdigits := crossSum_digits byte
  have hle := crossSum_le byte
  have hcross : (crossSum 3 byte sum).toNat = sum.toNat + (Nat.digits 10 byte.toNat).sum := by
    rw [crossSum_eq, UInt8.toNat_add, hdigits, Nat.mod_eq_of_lt (by omega)]
  refine ⟨?_, by omega⟩
  -- the digits that are left and the sum come to the same in every round
  have hround : ∀ s : UInt8 × UInt8,
      s.2.toNat + (Nat.digits 10 s.1.toNat).sum = (crossSum 3 byte sum).toNat →
      ∃ s', digitRound s = .ok s' ∧
        (decide (0 < s'.1) = true →
          s'.2.toNat + (Nat.digits 10 s'.1.toNat).sum = (crossSum 3 byte sum).toNat ∧
            s'.1.toNat < s.1.toNat) ∧
        (decide (0 < s'.1) = false → s'.2.toNat = (crossSum 3 byte sum).toNat) := by
    intro s hs
    obtain ⟨hok, hsum'⟩ := digitRound_eq_ok (crossSum 3 byte sum).toNat_lt hs
    have hquotient : (s.1 / 10).toNat = s.1.toNat / 10 := UInt8.toNat_div ..
    refine ⟨_, hok, fun hagain => ⟨hsum', ?_⟩, fun hstop => ?_⟩
    · have hpos : 0 < (s.1 / 10).toNat := UInt8.lt_iff_toNat_lt.mp (of_decide_eq_true hagain)
      rw [hquotient] at hpos ⊢
      omega
    · have hzero : (s.1 / 10).toNat = 0 := by
        have hnot := UInt8.lt_iff_toNat_lt.not.mp (of_decide_eq_false hstop)
        exact Nat.eq_zero_of_not_pos hnot
      rw [hzero] at hsum'
      exact hsum'
  obtain ⟨⟨byte', sum'⟩, hloop, hend⟩ := Checked.doWhile_ok _ _ (fun s => s.1.toNat) hround
    (s := (byte, sum)) hcross.symm (lt_of_lt_of_le byte.toNat_lt hfuel)
  cases UInt8.toNat_inj.mp hend
  exact congrArg (· >>= fun s : UInt8 × UInt8 => pure s.2) hloop

/-- The sums of the digits of three bytes. -/
theorem digitLoops_eq_ok (hfuel : 256 ≤ fuel) (last current : FirstBytes) :
    digitLoops fuel last current = .ok (crossSums last, crossSums current) ∧
      (crossSums last).toNat ≤ 57 ∧ (crossSums current).toNat ≤ 57 := by
  have hloops : ∀ bytes : FirstBytes,
      digitLoop fuel (bytes 0) 0 = .ok (crossSum 3 (bytes 0) 0) ∧
      digitLoop fuel (bytes 1) (crossSum 3 (bytes 0) 0) =
        .ok (crossSum 3 (bytes 1) (crossSum 3 (bytes 0) 0)) ∧
      digitLoop fuel (bytes 2) (crossSum 3 (bytes 1) (crossSum 3 (bytes 0) 0)) =
        .ok (crossSums bytes) ∧
      (crossSums bytes).toNat ≤ 57 := by
    intro bytes
    have hzero : (0 : UInt8).toNat ≤ 236 := by decide
    obtain ⟨h₀, hle₀⟩ := digitLoop_eq_ok hfuel (bytes 0) hzero
    rw [UInt8.toNat_zero] at hle₀
    obtain ⟨h₁, hle₁⟩ := digitLoop_eq_ok hfuel (bytes 1) (hle₀.trans (by decide))
    obtain ⟨h₂, hle₂⟩ := digitLoop_eq_ok hfuel (bytes 2)
      (hle₁.trans (Nat.add_le_add_right hle₀ 19 |>.trans (by decide)))
    exact ⟨h₀, h₁, h₂, by unfold crossSums; omega⟩
  obtain ⟨h₀, h₁, h₂, hle⟩ := hloops last
  obtain ⟨h₀', h₁', h₂', hle'⟩ := hloops current
  refine ⟨?_, hle, hle'⟩
  unfold digitLoops
  rw [show List.finRange 3 = [0, 1, 2] from rfl]
  simp only [List.foldlM_cons, List.foldlM_nil, h₀, h₁, h₂, h₀', h₁', h₂', Fallible.ok_bind,
    Fallible.pure_eq_ok]

/-! ## Bits -/

/-- The mask tests one bit after the other, from the highest. -/
theorem mask_bit (byte : UInt8) {mask : UInt32} {j : Nat} (hj : j < 8)
    (hmask : mask.toNat = 128 >>> j) :
    (byte.toUInt32 &&& mask != 0) = byte.toNat.testBit (7 - j) := by
  have hall : ∀ n : Fin 256, ∀ j : Fin 8,
      (n.val &&& (128 >>> j.val) != 0) = n.val.testBit (7 - j.val) := by decide +kernel
  have hbit := hall ⟨byte.toNat, byte.toNat_lt⟩ ⟨j, hj⟩
  rw [← hbit, Bool.eq_iff_iff, bne_iff_ne, bne_iff_ne, Ne, Ne, ← UInt32.toNat_inj,
    UInt32.toNat_and, hmask, UInt8.toNat_toUInt32]
  rfl

/-- Where the loop over the bits of a byte is after `j` rounds. -/
structure AtBit (fp : List R) (i : Nat) (byte : UInt8) (j : Nat) (s : BitLoop R) : Prop where
  small : j ≤ 8
  mask : s.mask.toNat = 128 >>> j
  oneOffset : s.oneOffset = j
  zeroOffset : s.zeroOffset = 8 + j
  fingerprint : s.fingerprint = (List.range j).foldl
    (fun fp j =>
      if byte.toNat.testBit (7 - j) then fp.modify (i * 16 + j) (· + 1)
      else fp.modify (i * 16 + 8 + j) (· + 1)) fp
  length : s.fingerprint.length = 64

theorem AtBit.mask_ne_zero_iff {fp : List R} {i j : Nat} {byte : UInt8} {s : BitLoop R}
    (h : AtBit fp i byte j s) : (s.mask != 0) = true ↔ j < 8 := by
  have hall : ∀ j : Fin 9, 128 >>> j.val ≠ 0 ↔ j.val < 8 := by decide
  have hj := hall ⟨j, Nat.lt_succ_of_le h.small⟩
  rw [bne_iff_ne, Ne, ← UInt32.toNat_inj, h.mask]
  exact hj

/-- One round. -/
theorem AtBit.round {fp : List R} {i j : Nat} {byte : UInt8} {s : BitLoop R} (hi : i < 4)
    (h : AtBit fp i byte j s) (hj : j < 8) :
    ∃ s', bitRound (i * 16) byte s = .ok s' ∧ AtBit fp i byte (j + 1) s' := by
  obtain ⟨-, hmask, hone, hzero, hfp, hlength⟩ := h
  have hnext : (s.mask >>> 1).toNat = 128 >>> (j + 1) := by
    rw [UInt32.toNat_shiftRight, hmask]
    rfl
  have hcount : countBit (i * 16) byte s =
      .ok (if byte.toNat.testBit (7 - j) then s.fingerprint.modify (i * 16 + j) (· + 1)
        else s.fingerprint.modify (i * 16 + 8 + j) (· + 1)) := by
    unfold countBit
    rw [mask_bit byte hj hmask, hone, hzero, ← Nat.add_assoc]
    cases byte.toNat.testBit (7 - j) with
    | true => exact Checked.modify_eq_ok (by omega) _
    | false => exact Checked.modify_eq_ok (by omega) _
  refine ⟨_, congrArg (· >>= _) hcount, hj, hnext, congrArg (· + 1) hone, congrArg (· + 1) hzero,
    ?_, ?_⟩
  · rw [List.range_succ, List.foldl_append, ← hfp]
    rfl
  · simp only
    split
    · rw [List.length_modify]
      exact hlength
    · rw [List.length_modify]
      exact hlength

/-- The loop over the bits of a byte ends, and stays in the block of the byte. -/
theorem bitLoop_eq_ok (hfuel : 256 ≤ fuel) {fp : List R} (hlength : fp.length = 64) {i : Nat}
    (hi : i < 4) (byte : UInt8) :
    bitLoop fuel fp (i * 16) byte = .ok (countBits fp i byte) ∧
      (countBits fp i byte).length = 64 := by
  have hround : ∀ s : BitLoop R, (∃ j, AtBit fp i byte j s) → (s.mask != 0) = true →
      ∃ s', bitRound (i * 16) byte s = .ok s' ∧ (∃ j, AtBit fp i byte j s') ∧
        s'.mask.toNat < s.mask.toNat := by
    rintro s ⟨j, hat⟩ hagain
    have hj := hat.mask_ne_zero_iff.mp hagain
    obtain ⟨s', hok, hnext⟩ := hat.round hi hj
    refine ⟨s', hok, ⟨j + 1, hnext⟩, ?_⟩
    rw [hnext.mask, hat.mask, Nat.shiftRight_succ]
    have hpos : 128 >>> j ≠ 0 := by interval_cases j <;> decide
    exact Nat.div_lt_self (Nat.pos_of_ne_zero hpos) (by decide)
  have hstart : AtBit fp i byte 0
      { mask := 0x80, oneOffset := 0, zeroOffset := 8, fingerprint := fp } :=
    ⟨Nat.zero_le 8, rfl, rfl, rfl, rfl, hlength⟩
  obtain ⟨s, hloop, ⟨j, hat⟩, hend⟩ := Checked.loop_ok _ _ hround ⟨0, hstart⟩
    (lt_of_lt_of_le (show 128 < 256 by decide) hfuel)
  have hj : j = 8 := by
    have hnot := (hat.mask_ne_zero_iff.not).mp (by rw [hend]; exact Bool.false_ne_true)
    exact Nat.le_antisymm hat.small (Nat.not_lt.mp hnot)
  subst hj
  have hfp : s.fingerprint = countBits fp i byte := hat.fingerprint
  rw [← hfp]
  exact ⟨congrArg (· >>= fun s : BitLoop R => pure s.fingerprint) hloop, hat.length⟩

/-! ## One class after the other -/

theorem setShare_eq_ok (h : m.fingerprint.length = 2) (share : R) :
    m.setShare share = .ok { m with fingerprint := [share, 1 - share] } := by
  obtain ⟨a, b, hfp⟩ := List.length_eq_two.mp h
  unfold setShare
  rw [hfp]
  rfl

/-- A byte is an index of 256 counters. -/
theorem foldlM_bytes {α : Type} {counters : List α} (h : counters.length = 256) (f : α → α)
    (data : List UInt8) :
    data.foldlM (fun counters b => Checked.modify counters b.toNat f) counters =
        .ok (data.foldl (fun counters b => counters.modify b.toNat f) counters) ∧
      (data.foldl (fun counters b => counters.modify b.toNat f) counters).length = 256 := by
  refine Fallible.foldlM_eq_ok (I := fun counters : List α => counters.length = 256)
    (fun counters hcounters b _ => ⟨Checked.modify_eq_ok ?_ f, ?_⟩) h
  · rw [hcounters]
    exact b.toNat_lt
  · rw [List.length_modify]
    exact hcounters

theorem countBytesChecked_eq_ok {fp : List R} (h : fp.length = 256) (data : List UInt8) :
    countBytesChecked fp data = .ok (countBytes fp data) :=
  (foldlM_bytes h (· + 1) data).1

theorem coverChecked_eq_ok (h : m.fingerprint.length = 256) (data : List UInt8) :
    m.coverChecked data = .ok (m.cover data) := by
  unfold coverChecked
  rw [countBytesChecked_eq_ok h]
  rfl

theorem countDirectionBytesChecked_eq_ok (h : m.fingerprint.length = 2) (f : FlowReading)
    (p : IPv4Packet) : m.countDirectionBytesChecked f p = .ok (m.countDirectionBytes f p) := by
  obtain ⟨a, b, hfp⟩ := List.length_eq_two.mp h
  unfold countDirectionBytesChecked countDirectionBytes
  rw [hfp]
  cases f.currentPacketDirection <;> rfl

theorem countDirectionChangesChecked_eq_ok (h : m.fingerprint.length = 2) (f : FlowReading) :
    m.countDirectionChangesChecked f = .ok (m.countDirectionChanges f) := by
  have hshare := fun share : R => setShare_eq_ok h share
  obtain ⟨a, b, hfp⟩ := List.length_eq_two.mp h
  unfold countDirectionChangesChecked countDirectionChanges
  rw [hfp]
  exact hshare _

/-- The counts of the bytes of a payload, in a vector of their own. -/
theorem countVector_eq_ok (data : List UInt8) :
    ∃ count, data.foldlM (fun count b => Checked.modify count b.toNat (· + 1))
        (List.replicate 256 0) = .ok count ∧
      ∀ i < 256, Checked.read count i = .ok (data.count (UInt8.ofNat i)) := by
  obtain ⟨hok, hlength⟩ := foldlM_bytes (List.length_replicate (n := 256) (a := 0)) (· + 1) data
  refine ⟨_, hok, fun i hi => ?_⟩
  have hbyte : (UInt8.ofNat i).toNat = i := by
    rw [UInt8.toNat_ofNat', Nat.mod_eq_of_lt hi]
  have hcount : (increment (List.replicate 256 0) (data.map UInt8.toNat)).getD i 0 =
      data.count (UInt8.ofNat i) := by
    rw [getD_increment (by rwa [List.length_replicate]), List.getD_replicate _ hi, Nat.cast_id,
      Nat.zero_add, ← List.count_map_of_injective data _ injective_toNat, hbyte]
  rw [increment, List.foldl_map] at hcount
  rw [Checked.read_eq_ok (hlength.symm ▸ hi), ← List.getD_eq_getElem _ 0, hcount]

/-- What a byte that occurs `n` times among `size` bytes adds to the entropy. -/
def addEntropy (n size : Nat) (sum : R) : R :=
  let probability : R := (n : R) / (size : R)
  if 0 < probability then sum - probability * Double.log2 probability else sum

theorem entropyChecked_eq_ok (h : m.fingerprint.length = 2) {f : FlowReading}
    (hfirst : f.isFirstPacket = true) {p : IPv4Packet} (hdata : p.dataSize ≠ 0) :
    m.entropyChecked p = .ok (m.entropyFirstOrigToDestPacket f p) := by
  obtain ⟨a, b, hfp⟩ := List.length_eq_two.mp h
  obtain ⟨count, hcount, hread⟩ := countVector_eq_ok p.data
  have hstep : ∀ fp : List R, (∃ x, fp = [x, b]) → ∀ i ∈ List.range 256,
      (do
        let n ← Checked.read count i
        let probability : R := (n : R) / (p.dataSize : R)
        if 0 < probability then
          Checked.modify fp 0 fun x => x - probability * Double.log2 probability
        else pure fp) =
        .ok (fp.modify 0 (addEntropy (p.data.count (UInt8.ofNat i)) p.dataSize)) ∧
      ∃ x, fp.modify 0 (addEntropy (p.data.count (UInt8.ofNat i)) p.dataSize) = [x, b] := by
    rintro _ ⟨x, rfl⟩ i hi
    rw [hread i (List.mem_range.mp hi), Fallible.ok_bind]
    unfold addEntropy
    simp only
    split
    · exact ⟨rfl, _, rfl⟩
    · exact ⟨rfl, _, rfl⟩
  obtain ⟨hloop, -⟩ := Fallible.foldlM_eq_ok hstep ⟨a, rfl⟩
  have hsum : (List.range 256).foldl
      (fun fp i => fp.modify 0 (addEntropy (p.data.count (UInt8.ofNat i)) p.dataSize)) [a, b] =
      [(List.range 256).foldl
        (fun x i => addEntropy (p.data.count (UInt8.ofNat i)) p.dataSize x) a, b] :=
    List.foldl_hom (fun x : R => [x, b]) fun _ _ => rfl
  unfold entropyChecked entropyFirstOrigToDestPacket
  rw [hcount, Fallible.ok_bind, hfp, hloop, Fallible.ok_bind, hsum, hfirst, if_neg hdata]
  exact setShare_eq_ok (m := { m with fingerprint := [_, b] }) rfl _

theorem actionReactionChecked_eq_ok (hfuel : 256 ≤ fuel) (h : m.fingerprint.length = 115)
    (f : FlowReading) {p : IPv4Packet} (hdata : p.dataSize ≠ 0) :
    m.actionReactionChecked fuel f p = .ok (m.actionReactionFirst3ByteHash f p) := by
  obtain ⟨hloops, hone, htwo⟩ := digitLoops_eq_ok hfuel m.lastPacket (currentData p)
  obtain ⟨hmixed, -⟩ := Checked.addByte_eq_ok (a := crossSums m.lastPacket)
    (b := crossSums (currentData p)) (by omega)
  have hlt : (crossSums m.lastPacket + crossSums (currentData p)).toNat < m.fingerprint.length :=
    h ▸ crossSums_lt m.lastPacket (currentData p)
  have hwrite := Checked.modify_eq_ok hlt (· + 1)
  unfold actionReactionChecked actionReactionFirst3ByteHash
  rw [if_neg hdata]
  cases AttributeMeter.isReaction f with
  | false => rfl
  | true =>
    simp only [if_true, hloops, hmixed, hwrite, Fallible.ok_bind, Fallible.pure_eq_ok]

theorem firstBitPositionsChecked_eq_ok (hfuel : 256 ≤ fuel) (h : m.fingerprint.length = 64)
    {p : IPv4Packet} (hdata : p.dataSize ≠ 0) :
    m.firstBitPositionsChecked fuel p = .ok (m.firstBitPositions p) := by
  obtain ⟨hloop, -⟩ := Fallible.foldlM_eq_ok (l := (p.data.take 4).zipIdx)
    (f := fun fp b => bitLoop fuel fp (b.2 * 16) b.1) (g := fun fp b => countBits fp b.2 b.1)
    (I := fun fp : List R => fp.length = 64) (fun fp hfp b hb => by
      have hlt := List.snd_lt_of_mem_zipIdx hb
      rw [List.length_take] at hlt
      exact bitLoop_eq_ok hfuel hfp (by omega) b.1) h
  unfold firstBitPositionsChecked firstBitPositions
  rw [if_neg hdata, hloop]
  rfl

theorem rtmpRegexMatchChecked_eq_ok (h : m.fingerprint.length = 2) (p : IPv4Packet) :
    m.rtmpRegexMatchChecked p = .ok (m.rtmpRegexMatch p) := by
  obtain ⟨a, b, hfp⟩ := List.length_eq_two.mp h
  unfold rtmpRegexMatchChecked rtmpRegexMatch
  rw [hfp]
  split
  · rfl
  · change (if a != 0 then _ else _) = Except.ok (if a != 0 then m else _)
    split
    · rfl
    · split <;> rfl

/-- **No access is out of bounds, no sum wraps and no loop goes on.** -/
theorem calculateChecked_eq_ok (hfuel : 256 ≤ fuel) {k : MeterKind} (hm : Measures k m)
    (f : FlowReading) (p : IPv4Packet) :
    m.calculateChecked fuel f p = .ok (m.calculateMeasurement f p) := by
  obtain ⟨hkind, -, hlength⟩ := hm
  unfold calculateChecked calculateMeasurement
  rw [hkind]
  cases k with
  | actionReactionFirst3ByteHash =>
    by_cases hdata : p.dataSize = 0
    · simp only [actionReactionFirst3ByteHash, hdata, if_true, Fallible.pure_eq_ok]
    · simp only [hdata, if_false, actionReactionChecked_eq_ok hfuel hlength f hdata]
  | byteFrequencyFirst8Packets =>
    simp only [countBytesChecked_eq_ok hlength, byteFrequencyFirst8Packets]
    split
    · rfl
    · split
      · rfl
      · rw [hkind]
        rfl
  | byteFrequencyFirstDestToOrigPacket =>
    simp only [coverChecked_eq_ok hlength, byteFrequencyFirstDestToOrigPacket]
    split <;> rfl
  | byteFrequencyFirstOrigToDestPacket =>
    simp only [coverChecked_eq_ok hlength, byteFrequencyFirstOrigToDestPacket]
    split
    · rfl
    · split <;> rfl
  | byteFrequency =>
    simp only [coverChecked_eq_ok hlength, byteFrequency]
    split <;> rfl
  | directionBytesCountFirst10Packet =>
    simp only [countDirectionBytesChecked_eq_ok hlength, directionBytesCountFirst10Packet]
    split <;> rfl
  | directionBytesCount =>
    simp only [countDirectionBytesChecked_eq_ok hlength, directionBytesCount]
    split <;> rfl
  | directionChangesFirst8Packets =>
    simp only [countDirectionChangesChecked_eq_ok hlength, directionChangesFirst8Packets]
    split <;> rfl
  | directionChanges => exact countDirectionChangesChecked_eq_ok hlength f
  | entropyFirstOrigToDestPacket =>
    cases hfirst : f.isFirstPacket with
    | false =>
      simp only [entropyFirstOrigToDestPacket, hfirst, Bool.not_false, if_true, Fallible.pure_eq_ok]
    | true =>
      by_cases hdata : p.dataSize = 0
      · simp only [entropyFirstOrigToDestPacket, hdata, if_true, Fallible.pure_eq_ok, ite_self]
      · simp only [Bool.not_true, Bool.false_eq_true, hdata, if_false,
          entropyChecked_eq_ok hlength hfirst hdata]
  | first16ByteFrequency =>
    simp only [coverChecked_eq_ok hlength, first16ByteFrequency]
    split <;> rfl
  | first4ByteFrequency =>
    simp only [coverChecked_eq_ok hlength, first4ByteFrequency]
    split <;> rfl
  | firstBitPositions =>
    by_cases hdata : p.dataSize = 0
    · simp only [firstBitPositions, hdata, if_true, Fallible.pure_eq_ok]
    · simp only [hdata, if_false, firstBitPositionsChecked_eq_ok hfuel hlength hdata]
  | payloadSizeFirstPacket =>
    simp only [setShare_eq_ok hlength, payloadSizeFirstPacket]
    split <;> rfl
  | rtmpRegexMatch => exact rtmpRegexMatchChecked_eq_ok hlength p

/-- … along a run. -/
theorem foldlM_calculateChecked (hfuel : 256 ≤ fuel) {k : MeterKind} (hm : Measures k m)
    (obs : List Observation) :
    obs.foldlM (fun m o => m.calculateChecked fuel o.reading o.packet) m =
        .ok (obs.foldl (fun m o => m.calculateMeasurement o.reading o.packet) m) ∧
      Measures k (obs.foldl (fun m o => m.calculateMeasurement o.reading o.packet) m) :=
  Fallible.foldlM_eq_ok (I := Measures k)
    (fun _ hm o _ => ⟨calculateChecked_eq_ok hfuel hm o.reading o.packet,
      hm.calculateMeasurement o.reading o.packet⟩) hm

/-- The meter with other bytes in `_lastPacket`. -/
def withLastPacket (m : AttributeMeter R) (buffer : FirstBytes) : AttributeMeter R :=
  { m with lastPacket := buffer }

/-- **No meter writes outside its fingerprint.** Whatever packets a meter has measured and whatever
`_lastPacket` holds, the next one is measured without an access beyond the size of the class, a sum
of digits that wraps or a loop of more than 256 rounds. -/
theorem writes_inside (hfuel : 256 ≤ fuel) (k : MeterKind) (stale : FirstBytes)
    (obs : List Observation) :
    obs.foldlM (fun m o => m.calculateChecked fuel o.reading o.packet)
        (create k stale : AttributeMeter R) = .ok (measured k stale obs) ∧
      (measured k stale obs : AttributeMeter R).fingerprint.length = k.fingerprintSize ∧
      ∀ (buffer : FirstBytes) (f : FlowReading) (p : IPv4Packet),
        ((measured k stale obs : AttributeMeter R).withLastPacket buffer).calculateChecked fuel f p =
          .ok (((measured k stale obs).withLastPacket buffer).calculateMeasurement f p) := by
  obtain ⟨hrun, hm⟩ := foldlM_calculateChecked (R := R) hfuel (measures_create k stale) obs
  refine ⟨hrun, hm.length, fun buffer f p => ?_⟩
  have hbuffer : Measures k ((measured k stale obs : AttributeMeter R).withLastPacket buffer) :=
    ⟨hm.kind, hm.fromDb, hm.length⟩
  exact calculateChecked_eq_ok hfuel hbuffer f p

/-- Three bytes with the most digits to add up. -/
def mostDigits (last current : Direction) : Observation :=
  { reading :=
      { pktCount := 2, isFirstPacket := false, lastPacketDirection := last,
        currentPacketDirection := current }
    packet := { Flow.oneByte with data := [199, 199, 199] } }

/-- They reach the last counter of the digit sums, and no further. -/
theorem mostDigits_inside :
    ∃ m : AttributeMeter ℚ,
      [mostDigits .origToDest .destToOrig, mostDigits .destToOrig .origToDest].foldlM
        (fun m o => m.calculateChecked 256 o.reading o.packet)
        (create .actionReactionFirst3ByteHash fun _ => 199) = .ok m ∧
      m.fingerprint.length = 115 ∧ m.fingerprint.getD 114 0 = 2 := by
  obtain ⟨hrun, hlength, -⟩ := writes_inside (R := ℚ) (Nat.le_refl 256) .actionReactionFirst3ByteHash
    (fun _ => 199) [mostDigits .origToDest .destToOrig, mostDigits .destToOrig .origToDest]
  exact ⟨_, hrun, hlength, by decide +kernel⟩

end AttributeMeter

/-- So it is for the meters of a flow. -/
theorem Flow.calculateChecked_ofPackets {R : Type} [Double R] {S : Setup R} {fuel : Nat}
    (hfuel : 256 ≤ fuel) {k : MeterKind} (hk : S.factory.enabledAttributes k = true)
    (q : IPv4Packet) (stale : FirstBytes) (packets : List IPv4Packet) (f : FlowReading)
    (p : IPv4Packet) :
    ∃ am, (ofPackets S q stale packets).attributeMetersMap k = some am ∧
      am.calculateChecked fuel f p = .ok (am.calculateMeasurement f p) :=
  ⟨_, attributeMetersMap_ofPackets hk q stale packets,
    AttributeMeter.calculateChecked_eq_ok hfuel AttributeMeter.measures_measured f p⟩

end Vsid
