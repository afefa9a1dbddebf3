import Vsid.Laws.Attribution
import Vsid.Laws.SameConnection
import Vsid.Lib.Mixing

/-!
# What the flow hash keeps apart

The flow hash is MurmurHash3 of four words: the two addresses, the two ports in one word, and the
transport. Two inputs that differ in one word only have different hashes, since no step of the hash
loses anything of the state or of the word. The order in which the ends are written is no loss
either: the words determine the connection (`Ipv4FlowHasher.input_eq_iff`).

Connections between the same two hosts over one transport differ in the word of the ports only. So
they never share a hash (`flowHash_eq_iff`), and for traffic between two hosts the table, which
compares nothing but hashes, serves every packet with a flow of its own connection
(`FlowManager.attributed_between`).
-/

set_option autoImplicit false

namespace Vsid

/-! ## The steps of MurmurHash3 -/

namespace Murmur3

/-- A rotation by a proper number of bits. -/
theorem toBitVec_rotl32 (x : UInt32) {r : UInt32} (hpos : 0 < r.toNat) (hr : r.toNat < 32) :
    (rotl32 x r).toBitVec = x.toBitVec.rotateLeft r.toNat := by
  have hsub : (32 - r).toNat = 32 - r.toNat := by
    rw [UInt32.toNat_sub_of_le _ _ (UInt32.le_iff_toNat_le.mpr hr.le)]
    rfl
  have hleft : r.toNat % 32 = r.toNat := Nat.mod_eq_of_lt hr
  have hright : (32 - r.toNat) % 32 = 32 - r.toNat := Nat.mod_eq_of_lt (by omega)
  rw [rotl32, UInt32.toBitVec_or, BitVec.rotateLeft_def, hleft]
  congr 1
  · rw [UInt32.toBitVec_shiftLeft, BitVec.shiftLeft_eq', BitVec.toNat_umod]
    exact congrArg (x.toBitVec <<< ·) hleft
  · rw [UInt32.toBitVec_shiftRight, BitVec.ushiftRight_eq', BitVec.toNat_umod]
    have hnat : (32 - r).toBitVec.toNat % (32 : BitVec 32).toNat = 32 - r.toNat := by
      rw [UInt32.toNat_toBitVec, hsub]
      exact hright
    rw [hnat]

theorem rotl32_injective {r : UInt32} (hpos : 0 < r.toNat) (hr : r.toNat < 32) :
    Function.Injective fun x => rotl32 x r := by
  intro x y hxy
  have hbits := congrArg UInt32.toBitVec hxy
  simp only [toBitVec_rotl32 _ hpos hr] at hbits
  exact UInt32.toBitVec_inj.mp (rotateLeft_injective hr hbits)

theorem mul_unit_injective {c d : UInt32} (hunit : c * d = 1) :
    Function.Injective fun x : UInt32 => x * c := by
  intro x y hxy
  apply UInt32.toBitVec_inj.mp
  apply Vsid.mul_unit_injective (c := c.toBitVec) (d := d.toBitVec)
  · rw [← UInt32.toBitVec_mul, hunit]
    rfl
  · exact congrArg UInt32.toBitVec hxy

theorem xor_injective (mask : UInt32) : Function.Injective fun x : UInt32 => x ^^^ mask := by
  intro x y hxy
  exact UInt32.toBitVec_inj.mp (Vsid.xor_injective mask.toBitVec (congrArg UInt32.toBitVec hxy))

/-- `h ^= h >> r`. -/
theorem xorShift_injective {r : UInt32} (hpos : 0 < r.toNat) (hr : r.toNat < 32) :
    Function.Injective fun x : UInt32 => x ^^^ (x >>> r) := by
  have hshift : ∀ x : UInt32, (x ^^^ (x >>> r)).toBitVec =
      x.toBitVec ^^^ (x.toBitVec >>> r.toNat) := by
    intro x
    have hnat : r.toBitVec.toNat % (32 : BitVec 32).toNat = r.toNat := Nat.mod_eq_of_lt hr
    rw [UInt32.toBitVec_xor, UInt32.toBitVec_shiftRight, BitVec.ushiftRight_eq',
      BitVec.toNat_umod, hnat]
  intro x y hxy
  have hbits := congrArg UInt32.toBitVec hxy
  simp only [hshift] at hbits
  exact UInt32.toBitVec_inj.mp (Vsid.xorShift_injective hpos hbits)

/-- The mixing of a block into the state. -/
theorem block_mixes : Mixes block where
  state k s t hst := by
    have hsum : rotl32 (s ^^^ _) 13 * 5 = rotl32 (t ^^^ _) 13 * 5 := UInt32.add_left_inj _ |>.mp hst
    have hrot := mul_unit_injective (c := 5) (d := 0xcccccccd) (by decide) hsum
    exact xor_injective _ (rotl32_injective (r := 13) (by decide) (by decide) hrot)
  word s k l hkl := by
    have hsum : rotl32 (s ^^^ _) 13 * 5 = rotl32 (s ^^^ _) 13 * 5 := UInt32.add_left_inj _ |>.mp hkl
    have hrot := mul_unit_injective (c := 5) (d := 0xcccccccd) (by decide) hsum
    have hword := rotl32_injective (r := 13) (by decide) (by decide) hrot
    rw [UInt32.xor_comm s, UInt32.xor_comm s] at hword
    have hsecond := mul_unit_injective (c := 0x1b873593) (d := 0x56ed309b) (by decide)
      (xor_injective s hword)
    have hfirst := rotl32_injective (r := 15) (by decide) (by decide) hsecond
    exact mul_unit_injective (c := 0xcc9e2d51) (d := 0xdee13bb1) (by decide) hfirst

theorem fmix32_injective : Function.Injective fmix32 := by
  intro x y hxy
  have hlast := xorShift_injective (r := 16) (by decide) (by decide) hxy
  have hsecond := mul_unit_injective (c := 0xc2b2ae35) (d := 0x7ed1b41d) (by decide) hlast
  have hmiddle := xorShift_injective (r := 13) (by decide) (by decide) hsecond
  have hfirst := mul_unit_injective (c := 0x85ebca6b) (d := 0xa5cb9243) (by decide) hmiddle
  exact xorShift_injective (r := 16) (by decide) (by decide) hfirst

end Murmur3

/-- The words in the order in which they are hashed. -/
def HashInput.words (k : HashInput) : List UInt32 := [k.w0, k.w1, k.w2, k.w3]

/-- Two inputs that differ in one word. -/
def HashInput.DifferInOne (k l : HashInput) : Prop :=
  ∃ (before after : List UInt32) (x y : UInt32), x ≠ y ∧ k.words = before ++ x :: after ∧
    l.words = before ++ y :: after

theorem murmurHash3X86_ne (seed : UInt32) {k l : HashInput} (h : k.DifferInOne l) :
    murmurHash3X86 seed k ≠ murmurHash3X86 seed l := by
  obtain ⟨before, after, x, y, hne, hk, hl⟩ := h
  intro heq
  have hstate : k.words.foldl Murmur3.block seed = l.words.foldl Murmur3.block seed :=
    Murmur3.xor_injective 16 (Murmur3.fmix32_injective heq)
  rw [hk, hl] at hstate
  exact Murmur3.block_mixes.foldl_ne hne before after seed hstate

/-! ## The words of a connection -/

namespace Ipv4FlowHasher

/-- The tuple with the end first that is hashed first. -/
def ordered (t : IPv4Tuple) : IPv4Tuple :=
  if t.srcIp < t.dstIp then t
  else if t.dstIp < t.srcIp then t.reverse
  else if t.srcPort ≤ t.dstPort then t
  else t.reverse

theorem input_eq_forward (t : IPv4Tuple) : input t = forward (ordered t) := by
  unfold input ordered
  split
  · rfl
  · split
    · rfl
    · split <;> rfl

end Ipv4FlowHasher

/-! ## Connections between the same two hosts -/

/-- The two tuples are between the same two hosts, in either direction. -/
def IPv4Tuple.sameHosts (t u : IPv4Tuple) : Bool :=
  (t.srcIp == u.srcIp && t.dstIp == u.dstIp) || (t.srcIp == u.dstIp && t.dstIp == u.srcIp)

/-- The two tuples are between the same two hosts and ports, over whatever transport. -/
def IPv4Tuple.samePorts (t u : IPv4Tuple) : Bool :=
  t.sameFlow { u with transport := t.transport }

namespace Ipv4FlowHasher

@[simp] theorem ordered_transport (t : IPv4Tuple) : (ordered t).transport = t.transport := by
  unfold ordered
  split
  · rfl
  · split
    · rfl
    · split <;> rfl

/-- The lower address comes first. -/
theorem ordered_hosts (t : IPv4Tuple) :
    (ordered t).srcIp.toNat = min t.srcIp.toNat t.dstIp.toNat ∧
      (ordered t).dstIp.toNat = max t.srcIp.toNat t.dstIp.toNat := by
  unfold ordered
  split
  next h =>
    have hle : t.srcIp.toNat ≤ t.dstIp.toNat := (UInt32.lt_iff_toNat_lt.mp h).le
    exact ⟨(Nat.min_eq_left hle).symm, (Nat.max_eq_right hle).symm⟩
  next h =>
    have hle : t.dstIp.toNat ≤ t.srcIp.toNat := UInt32.le_iff_toNat_le.mp (UInt32.not_lt.mp h)
    split
    next => exact ⟨(Nat.min_eq_right hle).symm, (Nat.max_eq_left hle).symm⟩
    next h' =>
      have heq : t.srcIp.toNat = t.dstIp.toNat :=
        Nat.le_antisymm (UInt32.le_iff_toNat_le.mp (UInt32.not_lt.mp h')) hle
      split <;> simp only [IPv4Tuple.reverse, heq, Nat.min_self, Nat.max_self, and_self]

theorem ordered_hosts_eq {t u : IPv4Tuple} (h : t.sameHosts u = true) :
    (ordered t).srcIp = (ordered u).srcIp ∧ (ordered t).dstIp = (ordered u).dstIp := by
  obtain ⟨hmin, hmax⟩ := ordered_hosts t
  obtain ⟨hmin', hmax'⟩ := ordered_hosts u
  have hends : (t.srcIp = u.srcIp ∧ t.dstIp = u.dstIp) ∨
      (t.srcIp = u.dstIp ∧ t.dstIp = u.srcIp) := by
    simpa only [IPv4Tuple.sameHosts, Bool.or_eq_true, Bool.and_eq_true, beq_iff_eq] using h
  rw [← UInt32.toNat_inj, ← UInt32.toNat_inj, hmin, hmax, hmin', hmax']
  rcases hends with ⟨hsrc, hdst⟩ | ⟨hsrc, hdst⟩
  · rw [hsrc, hdst]
    exact ⟨rfl, rfl⟩
  · rw [hsrc, hdst]
    exact ⟨Nat.min_comm _ _, Nat.max_comm _ _⟩

/-- Over one transport, other ports are the only difference. -/
theorem differInOne_of_transport {t u : IPv4Tuple} (hhosts : t.sameHosts u = true)
    (htransport : t.transport = u.transport) (hne : input t ≠ input u) :
    (input t).DifferInOne (input u) := by
  obtain ⟨hsrc, hdst⟩ := ordered_hosts_eq hhosts
  rw [input_eq_forward, input_eq_forward] at hne ⊢
  refine ⟨[(ordered u).srcIp, (ordered u).dstIp], [(ordered u).transport.toUInt32], _, _, ?_,
    by rw [← hsrc, ← hdst, ordered_transport u, ← htransport, ← ordered_transport t]; rfl, rfl⟩
  intro hports
  have hwords : ports (ordered t).srcPort (ordered t).dstPort =
      ports (ordered u).srcPort (ordered u).dstPort := hports
  refine hne ?_
  simp only [forward, hsrc, hdst, hwords, ordered_transport, htransport]

/-- Between the same ports, the transport is the only difference. -/
theorem differInOne_of_ports {t u : IPv4Tuple} (hports : t.samePorts u = true)
    (hne : input t ≠ input u) : (input t).DifferInOne (input u) := by
  have hwords := input_sameFlow hports
  have hother : input { u with transport := t.transport } =
      { input u with w3 := t.transport.toUInt32 } := by
    unfold input
    dsimp only
    split
    · rfl
    · split
      · rfl
      · split <;> rfl
  rw [hwords, hother] at hne ⊢
  refine ⟨[(input u).w0, (input u).w1, (input u).w2], [], t.transport.toUInt32, (input u).w3, ?_,
    rfl, rfl⟩
  intro hw
  exact hne (by rw [hw])

end Ipv4FlowHasher

variable {R : Type} {S : Setup R} {seed : UInt32}

/-- Tuples that are hashed from inputs with one word different have different hashes. -/
theorem Setup.flowHash_ne (hmurmur : S.murmur = murmurHash3X86 seed) {t u : IPv4Tuple}
    (h : (Ipv4FlowHasher.input t).DifferInOne (Ipv4FlowHasher.input u)) :
    S.flowHash t ≠ S.flowHash u := by
  unfold Setup.flowHash
  rw [hmurmur]
  exact murmurHash3X86_ne seed h

/-- Between two hosts, what has one hash is of one connection. -/
theorem Setup.sameFlow_of_flowHash (hmurmur : S.murmur = murmurHash3X86 seed) {t u : IPv4Tuple}
    (hhosts : t.sameHosts u = true) (h : t.transport = u.transport ∨ t.samePorts u = true)
    (hhash : S.flowHash t = S.flowHash u) : t.sameFlow u = true := by
  rw [← Ipv4FlowHasher.input_eq_iff]
  by_contra hne
  have hdiffer : (Ipv4FlowHasher.input t).DifferInOne (Ipv4FlowHasher.input u) := by
    rcases h with htransport | hports
    · exact Ipv4FlowHasher.differInOne_of_transport hhosts htransport hne
    · exact Ipv4FlowHasher.differInOne_of_ports hports hne
  exact Setup.flowHash_ne hmurmur hdiffer hhash

/-- **What the flow hash keeps apart**, whatever its seed: inputs that differ in one word, and with
them the connections between two hosts, over one transport or between one pair of ports. -/
theorem Setup.flowHash_eq_iff (hmurmur : S.murmur = murmurHash3X86 seed) :
    (∀ t u : IPv4Tuple, (Ipv4FlowHasher.input t).DifferInOne (Ipv4FlowHasher.input u) →
      S.flowHash t ≠ S.flowHash u) ∧
    ∀ t u : IPv4Tuple, t.sameHosts u = true → t.transport = u.transport ∨ t.samePorts u = true →
      (S.flowHash t = S.flowHash u ↔ t.sameFlow u = true) :=
  ⟨fun _ _ h => Setup.flowHash_ne hmurmur h, fun _ _ hhosts h =>
    ⟨Setup.sameFlow_of_flowHash hmurmur hhosts h, S.flowHash_sameFlow⟩⟩

/-- A query and the query after it, from the next port, and a query to the next server. -/
theorem twoQueries_flowHash_eq_iff :
    (Setup.initial : Setup ℚ).flowHash ⟨0x0100000a, 1053, 0x0200000a, 53, ipprotoUdp⟩ ≠
        (Setup.initial : Setup ℚ).flowHash ⟨0x0100000a, 1053, 0x0300000a, 53, ipprotoUdp⟩ ∧
      ((Setup.initial : Setup ℚ).flowHash ⟨0x0100000a, 1053, 0x0200000a, 53, ipprotoUdp⟩ =
          (Setup.initial : Setup ℚ).flowHash ⟨0x0200000a, 53, 0x0100000a, 1054, ipprotoUdp⟩ ↔
        (⟨0x0100000a, 1053, 0x0200000a, 53, ipprotoUdp⟩ : IPv4Tuple).sameFlow
          ⟨0x0200000a, 53, 0x0100000a, 1054, ipprotoUdp⟩ = true) := by
  obtain ⟨hwords, hhosts⟩ := Setup.flowHash_eq_iff (S := (Setup.initial : Setup ℚ)) rfl
  exact ⟨hwords _ _ ⟨[0x0100000a], _, 0x0200000a, 0x0300000a, by decide, rfl, rfl⟩,
    hhosts _ _ (by decide) (Or.inl rfl)⟩

/-! ## The traffic between two hosts -/

namespace FlowManager

/-- All packets are between the same two hosts, over one transport. -/
def BetweenTwoHosts (packets : List IPv4Packet) : Prop :=
  ∀ p ∈ packets, ∀ q ∈ packets, q.tuple.sameHosts p.tuple = true ∧ q.protocol = p.protocol

instance (packets : List IPv4Packet) : Decidable (BetweenTwoHosts packets) :=
  inferInstanceAs (Decidable
    (∀ p ∈ packets, ∀ q ∈ packets, q.tuple.sameHosts p.tuple = true ∧ q.protocol = p.protocol))

theorem BetweenTwoHosts.noCollisions (hmurmur : S.murmur = murmurHash3X86 seed)
    {packets : List IPv4Packet} (h : BetweenTwoHosts packets) : NoCollisions S packets := by
  intro p hp q hq hhash
  obtain ⟨hhosts, htransport⟩ := h p hp q hq
  exact Setup.sameFlow_of_flowHash hmurmur hhosts (Or.inl htransport) hhash

/-- **Between two hosts the table keeps the connections apart.** In non-threaded mode, if all
packets are between the same two hosts over one transport, the look-up for the next of them finds a
flow of its own connection, at every point of the run, and the counters of the flows of a
connection add up to the number of its packets, in 32 bits each. -/
theorem attributed_between [Double R] (hmurmur : S.murmur = murmurHash3X86 seed)
    (hseq : S.config.workerThreadsPerQueue = 0) {packets : List IPv4Packet} {m : FlowManager R}
    (h : Sequential S packets m) (hup : m.shutdown = false) (hhosts : BetweenTwoHosts packets) :
    (∀ p, BetweenTwoHosts (packets ++ [p]) → ∀ self,
      (m.getFlow S self p).1.Serves (m.getFlow S self p).2 p) ∧
      ∀ t : IPv4Tuple,
        ((m.heap.filter fun f => f.firstPacketTuple.sameFlow t).map
            fun f => f.overallPktCount.toNat).sum % 2 ^ 32 =
          (packets.filter fun p => p.tuple.sameFlow t).length % 2 ^ 32 := by
  have hfree := hhosts.noCollisions hmurmur
  obtain ⟨hindexed, -, hopened⟩ := h.sound
  refine ⟨fun p hnext self => ?_, sum_of_connection hseq h hup hfree⟩
  have hapart := hnext.noCollisions hmurmur p (List.mem_append_right _ List.mem_cons_self)
  exact getFlow_sameFlow hindexed hopened self fun q hq => hapart q (List.mem_append_left _ hq)

/-- Two queries from two ports, and the answer to the first. -/
def queriesBetween : List IPv4Packet :=
  [⟨0x0100000a, 1053, 0x0200000a, 53, .udp, [1], ⟨0, 0⟩⟩,
    ⟨0x0100000a, 1054, 0x0200000a, 53, .udp, [1], ⟨0, 0⟩⟩,
    ⟨0x0200000a, 53, 0x0100000a, 1053, .udp, [1], ⟨0, 0⟩⟩]

/-- The answer to the second. -/
def secondAnswer : IPv4Packet := ⟨0x0200000a, 53, 0x0100000a, 1054, .udp, [1], ⟨0, 0⟩⟩

theorem queriesBetween_attributed :
    ((addPackets (Setup.initial : Setup ℚ) queriesBetween).getFlow Setup.initial none
        secondAnswer).1.Serves
      ((addPackets (Setup.initial : Setup ℚ) queriesBetween).getFlow Setup.initial none
        secondAnswer).2 secondAnswer ∧
      (((addPackets (Setup.initial : Setup ℚ) queriesBetween).heap.filter fun f =>
        f.firstPacketTuple.sameFlow ⟨0x0100000a, 1053, 0x0200000a, 53, ipprotoUdp⟩).map
          fun f => f.overallPktCount.toNat).sum % 2 ^ 32 = 2 % 2 ^ 32 := by
  obtain ⟨hlookup, hcounts⟩ := attributed_between (S := (Setup.initial : Setup ℚ)) rfl rfl
    (sequential_addPackets _ queriesBetween) rfl (by decide)
  exact ⟨hlookup secondAnswer (by decide) none, hcounts _⟩

end FlowManager

end Vsid
