import Mathlib.Tactic.NormNum
import Vsid.Common.Flow
import Vsid.Tools.AnalyseResults

/-!
# The same connection, five times over

The hash, the two comparisons of the flow, the comparison of two packets and the scripts each decide
by themselves whether two five-tuples are of one connection. Each of them puts the two ends of a
tuple in order, and writes them down in a way that can be read back; so all of them agree
(`sameConnection_iff`).
-/

set_option autoImplicit false

namespace Vsid

/-! ## The words of the hash -/

namespace Ipv4FlowHasher

/-- The two ports side by side. -/
theorem ports_toNat (hi lo : UInt16) : (ports hi lo).toNat = 65536 * hi.toNat + lo.toNat := by
  have hhi := hi.toNat_lt
  have hlo := lo.toNat_lt
  have hshift : (hi.toUInt32 <<< 16).toNat = 2 ^ 16 * hi.toNat := by
    rw [UInt32.toNat_shiftLeft, UInt16.toNat_toUInt32, Nat.shiftLeft_eq]
    change hi.toNat * 2 ^ 16 % 2 ^ 32 = _
    omega
  have hmask : (lo.toUInt32 &&& 0x0000FFFF).toNat = lo.toNat := by
    rw [UInt32.toNat_and, UInt16.toNat_toUInt32]
    change lo.toNat &&& (2 ^ 16 - 1) = _
    rw [Nat.and_two_pow_sub_one_eq_mod]
    exact Nat.mod_eq_of_lt hlo
  rw [ports, UInt32.toNat_or, hshift, hmask, ← Nat.two_pow_add_eq_or_of_lt hlo]

theorem ports_inj {hi lo hi' lo' : UInt16} (h : ports hi lo = ports hi' lo') :
    hi = hi' ∧ lo = lo' := by
  have hnat := congrArg UInt32.toNat h
  have hlo := lo.toNat_lt
  have hlo' := lo'.toNat_lt
  rw [ports_toNat, ports_toNat] at hnat
  exact ⟨UInt16.toNat_inj.mp (by omega), UInt16.toNat_inj.mp (by omega)⟩

/-- The words say which tuple they were made of. -/
theorem forward_inj {t u : IPv4Tuple} (h : forward t = forward u) : t = u := by
  obtain ⟨a, b, c, d, e⟩ := t
  obtain ⟨a', b', c', d', e'⟩ := u
  simp only [forward, HashInput.mk.injEq] at h
  obtain ⟨rfl, rfl, hports, htransport⟩ := h
  obtain ⟨rfl, rfl⟩ := ports_inj hports
  have he := congrArg UInt32.toNat htransport
  rw [UInt8.toNat_toUInt32, UInt8.toNat_toUInt32] at he
  rw [UInt8.toNat_inj.mp he]

theorem input_cases (t : IPv4Tuple) : input t = forward t ∨ input t = forward t.reverse := by
  unfold input
  split
  · exact Or.inl rfl
  · split
    · exact Or.inr rfl
    · split
      · exact Or.inl rfl
      · exact Or.inr rfl

/-- The words are the same for the two directions of a connection, and for no others. -/
theorem input_eq_iff (t u : IPv4Tuple) : input t = input u ↔ t.sameFlow u = true := by
  refine ⟨fun h => ?_, input_sameFlow⟩
  rw [IPv4Tuple.sameFlow_iff]
  rcases input_cases t with ht | ht <;> rcases input_cases u with hu | hu <;>
    rw [ht, hu] at h <;> have heq := forward_inj h
  · exact Or.inl heq.symm
  · exact Or.inr (by rw [heq, IPv4Tuple.reverse_reverse])
  · exact Or.inr heq.symm
  · refine Or.inl ?_
    rw [← IPv4Tuple.reverse_reverse t, heq, IPv4Tuple.reverse_reverse]

end Ipv4FlowHasher

/-! ## The texts of the scripts -/

open Rendering

theorem not_mem_dotted {c : Char} (hc : c.isDigit = false) (hdot : c ≠ '.') (ip : UInt32) :
    c ∉ (dotted ip).toList :=
  not_mem_join hdot (not_mem_decimal hc _) <| not_mem_join hdot (not_mem_decimal hc _) <|
    not_mem_join hdot (not_mem_decimal hc _) (not_mem_decimal hc _)

/-- An address can be read back from its text. -/
theorem dotted_inj {ip ip' : UInt32} : dotted ip = dotted ip' ↔ ip = ip' := by
  have hdot : ∀ n, '.' ∉ (decimal n).toList := not_mem_decimal (by decide)
  refine ⟨fun h => ?_, congrArg dotted⟩
  rw [dotted, dotted, join_inj (hdot _) (hdot _), join_inj (hdot _) (hdot _),
    join_inj (hdot _) (hdot _), decimal_inj, decimal_inj, decimal_inj, decimal_inj] at h
  exact UInt32.toNat_inj.mp (by omega)

namespace ScriptTuple

/-- Two texts of addresses, ports and protocols are equal only when all of these are. -/
theorem format_inj {a b a' b' : UInt32} {m n k m' n' k' : Nat} :
    format (dotted a) m (dotted b) n k = format (dotted a') m' (dotted b') n' k' ↔
      a = a' ∧ m = m' ∧ b = b' ∧ n = n' ∧ k = k' := by
  have hcolon : ∀ ip, ':' ∉ (dotted ip).toList := not_mem_dotted (by decide) (by decide)
  have hspace : ∀ n, ' ' ∉ (decimal n).toList := not_mem_decimal (by decide)
  rw [format, format, join_inj (hcolon _) (hcolon _), join_inj (hspace _) (hspace _),
    join_inj (hcolon _) (hcolon _), join_inj (hspace _) (hspace _), dotted_inj, dotted_inj,
    decimal_inj, decimal_inj, decimal_inj]

/-- The other direction. -/
def reverse (t : ScriptTuple) : ScriptTuple :=
  { srcIp := t.dstIp, srcPort := t.dstPort, dstIp := t.srcIp, dstPort := t.srcPort,
    protocol := t.protocol }

/-- The text with the source end first. -/
def forward (t : ScriptTuple) : String :=
  format t.srcIp t.srcPort t.dstIp t.dstPort t.protocol

theorem dictRepr_cases (t : ScriptTuple) :
    t.dictRepr = t.forward ∨ t.dictRepr = t.reverse.forward := by
  unfold dictRepr
  split
  · exact Or.inl rfl
  · split
    · exact Or.inr rfl
    · split
      · exact Or.inl rfl
      · exact Or.inr rfl

/-- A tuple and its reverse have one text. -/
theorem dictRepr_reverse (t : ScriptTuple) : t.reverse.dictRepr = t.dictRepr := by
  obtain ⟨a, m, b, n, k⟩ := t
  change (if b < a then format b n a m k else if a < b then format a m b n k
      else if n ≤ m then format b n a m k else format a m b n k) =
    if a < b then format a m b n k else if b < a then format b n a m k
      else if m ≤ n then format a m b n k else format b n a m k
  rcases lt_trichotomy a b with h | rfl | h
  · rw [if_neg (lt_asymm h), if_pos h, if_pos h]
  · simp only [lt_irrefl, if_false]
    rcases Nat.lt_trichotomy m n with h | rfl | h
    · rw [if_neg (Nat.not_le.mpr h), if_pos h.le]
    · rfl
    · rw [if_neg (Nat.not_le.mpr h), if_pos h.le]
  · rw [if_pos h, if_neg (lt_asymm h), if_pos h]

/-- The protocol is that of the tuple, whichever file it was read from. -/
theorem ofFlows_eq {t : IPv4Tuple} (ht : t.transport = ipprotoTcp ∨ t.transport = ipprotoUdp) :
    t.ofFlows = t.ofResults := by
  unfold IPv4Tuple.ofFlows IPv4Tuple.ofResults transportName
  rcases ht with ht | ht <;> rw [ht] <;> rfl

theorem forward_inj {t u : IPv4Tuple} (h : t.ofResults.forward = u.ofResults.forward) : t = u := by
  obtain ⟨a, b, c, d, e⟩ := t
  obtain ⟨a', b', c', d', e'⟩ := u
  obtain ⟨ha, hb, hc, hd, he⟩ := format_inj.mp h
  cases ha
  cases UInt16.toNat_inj.mp hb
  cases hc
  cases UInt16.toNat_inj.mp hd
  cases UInt8.toNat_inj.mp he
  rfl

/-- The texts are the same for the two directions of a connection, and for no others. -/
theorem dictRepr_eq_iff (t u : IPv4Tuple) :
    t.ofResults.dictRepr = u.ofResults.dictRepr ↔ t.sameFlow u = true := by
  rw [IPv4Tuple.sameFlow_iff]
  constructor
  · intro h
    have hreverse : ∀ t : IPv4Tuple, t.ofResults.reverse = t.reverse.ofResults := fun _ => rfl
    rcases t.ofResults.dictRepr_cases with ht | ht <;>
      rcases u.ofResults.dictRepr_cases with hu | hu <;> rw [ht, hu] at h
    · exact Or.inl (forward_inj h).symm
    · rw [hreverse] at h
      exact Or.inr (by rw [forward_inj h, IPv4Tuple.reverse_reverse])
    · rw [hreverse] at h
      exact Or.inr (forward_inj h).symm
    · rw [hreverse, hreverse] at h
      refine Or.inl ?_
      rw [← IPv4Tuple.reverse_reverse t, forward_inj h, IPv4Tuple.reverse_reverse]
  · rintro (rfl | rfl)
    · rfl
    · exact (dictRepr_reverse t.ofResults).symm

end ScriptTuple

/-! ## All of them -/

/-- The comparison of two packets is that of a flow with a packet. -/
theorem IPv4Tuple.samePacketFlow_eq (t u : IPv4Tuple) : t.samePacketFlow u = t.sameFlow u := rfl

/-- A tuple of one of the two transports. -/
def IPv4Tuple.IsTransported (t : IPv4Tuple) : Prop :=
  t.transport = ipprotoTcp ∨ t.transport = ipprotoUdp

/-- **Five notions of one connection are one.** For all five-tuples: the words that are hashed are
equal exactly when a flow of the one takes a packet of the other, when its direction is known, when
the packets are of one flow, and, for TCP and UDP, when the scripts look both up under one text,
whichever of their files each was read from. A tuple and its reverse have one hash. -/
theorem sameConnection_iff (t u : IPv4Tuple) :
    (Ipv4FlowHasher.input t = Ipv4FlowHasher.input u ↔ t.sameFlow u = true) ∧
    (t.sameFlow u = true ↔ t.packetDirection u ≠ .unknown) ∧
    (t.sameFlow u = true ↔ t.samePacketFlow u = true) ∧
    (t.IsTransported → u.IsTransported →
      ∀ x ∈ [t.ofResults, t.ofFlows], ∀ y ∈ [u.ofResults, u.ofFlows],
        (t.sameFlow u = true ↔ x.dictRepr = y.dictRepr)) ∧
    ∀ {R : Type} (S : Setup R), S.flowHash t.reverse = S.flowHash t := by
  refine ⟨Ipv4FlowHasher.input_eq_iff t u, (IPv4Tuple.packetDirection_ne_unknown t u).symm,
    by rw [IPv4Tuple.samePacketFlow_eq], fun ht hu x hx y hy => ?_, fun S => ?_⟩
  · rw [ScriptTuple.ofFlows_eq ht, List.mem_pair, or_self] at hx
    rw [ScriptTuple.ofFlows_eq hu, List.mem_pair, or_self] at hy
    rw [hx, hy, ScriptTuple.dictRepr_eq_iff]
  · unfold Setup.flowHash
    rw [Ipv4FlowHasher.input_reverse]

end Vsid
