import Vsid.Common.Packet

/-!
# The flow hash

`Ipv4FlowHasher` orders the two ends of a tuple, so that both directions of a connection give the
same four words, and hands the words to MurmurHash3. The model takes the mixing function as a
parameter wherever it can (`murmur : HashInput → UInt32`): what the flow table relies on is only
that it is a function. `murmurHash3X86` is the function the program links, for the places where a
concrete value is asked for.
-/

namespace Vsid

/-- The array `input[4]` that is hashed. -/
structure HashInput where
  w0 : UInt32
  w1 : UInt32
  w2 : UInt32
  w3 : UInt32
deriving DecidableEq, Repr

namespace Ipv4FlowHasher

/-- `srcPort << 16 | (dstPort & 0x0000FFFF)`. -/
def ports (hi lo : UInt16) : UInt32 := (hi.toUInt32 <<< 16) ||| (lo.toUInt32 &&& 0x0000FFFF)

/-- The words with the source end first. -/
def forward (t : IPv4Tuple) : HashInput :=
  ⟨t.srcIp, t.dstIp, ports t.srcPort t.dstPort, t.transport.toUInt32⟩

/-- The words with the destination end first. -/
def backward (t : IPv4Tuple) : HashInput :=
  ⟨t.dstIp, t.srcIp, ports t.dstPort t.srcPort, t.transport.toUInt32⟩

/-- `Ipv4FlowHasher::operator()` up to the call of the mixing function. -/
def input (t : IPv4Tuple) : HashInput :=
  if t.srcIp < t.dstIp then forward t
  else if t.dstIp < t.srcIp then backward t
  else if t.srcPort ≤ t.dstPort then forward t
  else backward t

/-- A tuple and its reverse are hashed from the same words. -/
theorem input_reverse (t : IPv4Tuple) : input t.reverse = input t := by
  obtain ⟨a, b, c, d, e⟩ := t
  simp only [input, IPv4Tuple.reverse, forward, backward]
  by_cases h : a < c
  · have h' : ¬ c < a := UInt32.lt_asymm h
    simp only [h, h', if_true, if_false]
  · by_cases h' : c < a
    · simp only [h, h', if_true, if_false]
    · have hac : a = c := UInt32.le_antisymm (UInt32.not_lt.mp h') (UInt32.not_lt.mp h)
      subst hac
      simp only [h, if_false]
      -- equal addresses: the ports decide, and equal ports make the two forms one
      by_cases hbd : b ≤ d <;> by_cases hdb : d ≤ b
      · have hb : b = d := UInt16.le_antisymm hbd hdb
        subst hb
        rfl
      · simp only [hbd, hdb, if_true, if_false]
      · simp only [hbd, hdb, if_true, if_false]
      · rcases UInt16.le_total b d with hle | hle
        · exact absurd hle hbd
        · exact absurd hle hdb

/-- Tuples of one flow are hashed from the same words. -/
theorem input_sameFlow {t u : IPv4Tuple} (h : t.sameFlow u = true) : input t = input u := by
  rcases (IPv4Tuple.sameFlow_iff t u).mp h with rfl | rfl
  · rfl
  · exact (input_reverse t).symm

end Ipv4FlowHasher

namespace Murmur3

/-- `rotl32`. -/
def rotl32 (x : UInt32) (r : UInt32) : UInt32 := (x <<< r) ||| (x >>> (32 - r))

/-- One pass of the body loop over a block. -/
def block (h1 k1 : UInt32) : UInt32 :=
  let k1 := rotl32 (k1 * 0xcc9e2d51) 15 * 0x1b873593
  rotl32 (h1 ^^^ k1) 13 * 5 + 0xe6546b64

/-- `fmix32`. -/
def fmix32 (h : UInt32) : UInt32 :=
  let h := (h ^^^ (h >>> 16)) * 0x85ebca6b
  let h := (h ^^^ (h >>> 13)) * 0xc2b2ae35
  h ^^^ (h >>> 16)

/-- `gvMurmurSeed`. -/
def seed : UInt32 := 4098

end Murmur3

/-- `MurmurHash3_x86_32` on the sixteen bytes of `input`: four blocks and no tail. -/
def murmurHash3X86 (seed : UInt32) (k : HashInput) : UInt32 :=
  Murmur3.fmix32 ([k.w0, k.w1, k.w2, k.w3].foldl Murmur3.block seed ^^^ 16)

end Vsid
