import Vsid.Laws.Core
import Vsid.Laws.Steps
import Vsid.Lib.Counts

/-!
# Reactions

A reaction is a payload that follows one of the other direction. The meter of reactions does not
look at the payload that it has stored to tell one: it asks the flow whether the packet is its first
one and whether the data packet before it, which may be empty, went in the same direction. `InStep`
says when the two agree; then the meter counts exactly the reactions, and reads no bytes that it has
not stored (`reactions_iff`).
-/

set_option autoImplicit false

namespace Vsid

/-- The two known directions. -/
def Direction.opposes (a b : Direction) : Bool :=
  (a == .origToDest && b == .destToOrig) || (a == .destToOrig && b == .origToDest)

namespace Observation

/-- The digits of the first three bytes, which are filled up with zeroes. -/
def digitSum (o : Observation) : Nat :=
  ∑ i : Fin 3, (Nat.digits 10 (o.packet.data.getD i 0).toNat).sum

/-- A payload of the other direction. -/
def turnsFrom (o' o : Observation) : Bool :=
  o'.reading.currentPacketDirection.opposes o.reading.currentPacketDirection

end Observation

namespace AttributeMeter

variable {k : MeterKind} {stale : FirstBytes} {obs : List Observation} {m : AttributeMeter ℝ}

/-- The last payload. -/
def lastPayload (obs : List Observation) : Option Observation :=
  (obs.filter Observation.hasData).getLast?

/-- The consecutive payloads of opposite directions. -/
def reactions (obs : List Observation) : List (Observation × Observation) :=
  (neighbours (obs.filter Observation.hasData)).filter fun pair => pair.1.turnsFrom pair.2

/-- The meter has counted the reactions, by the digits of the two payloads. -/
structure CountsReactions (obs : List Observation) (m : AttributeMeter ℝ) : Prop where
  total : m.overall = (reactions obs).length
  share : ∀ h < 115, m.atPos h =
    ((reactions obs).countP fun pair => pair.1.digitSum + pair.2.digitSum == h : ℕ) /
      ((reactions obs).length : ℝ)

/-- What the flow tells the meter of a payload fits the payload before it. -/
structure FitsAfter (obs : List Observation) (o : Observation) : Prop where
  opening : lastPayload obs = none →
    o.reading.isFirstPacket = true ∨
      o.reading.lastPacketDirection = o.reading.currentPacketDirection
  turn : ∀ o' ∈ lastPayload obs, o'.turnsFrom o = true →
    o.reading.isFirstPacket = false ∧
      o.reading.lastPacketDirection ≠ o.reading.currentPacketDirection
  stay : ∀ o' ∈ lastPayload obs, o'.turnsFrom o = false →
    o.reading.isFirstPacket = true ∨
      o.reading.lastPacketDirection = o.reading.currentPacketDirection

/-- It does so for every payload. -/
def InStep (obs : List Observation) : Prop :=
  ∀ before o, before ++ [o] <+: obs → o.hasData = true → FitsAfter before o

/-! ## Digits -/

/-- The meter mixes two payloads by their digits, without overflow. -/
theorem crossSums_digits (o o' : Observation) :
    (crossSums (currentData o.packet) + crossSums (currentData o'.packet)).toNat =
      o.digitSum + o'.digitSum := by
  have hsum : ∀ o : Observation,
      (crossSums (currentData o.packet)).toNat = o.digitSum ∧ o.digitSum ≤ 57 := by
    intro o
    have h₀ := crossSum_le (currentData o.packet 0)
    have h₁ := crossSum_le (currentData o.packet 1)
    have h₂ := crossSum_le (currentData o.packet 2)
    have hdigits : o.digitSum = (crossSum 3 (currentData o.packet 0) 0).toNat +
        (crossSum 3 (currentData o.packet 1) 0).toNat +
        (crossSum 3 (currentData o.packet 2) 0).toNat := by
      rw [crossSum_digits, crossSum_digits, crossSum_digits, Observation.digitSum,
        Fin.sum_univ_three]
      rfl
    unfold crossSums
    rw [crossSum_eq 3 (currentData o.packet 2), crossSum_eq 3 (currentData o.packet 1),
      UInt8.toNat_add, UInt8.toNat_add, hdigits]
    omega
  obtain ⟨h, hle⟩ := hsum o
  obtain ⟨h', hle'⟩ := hsum o'
  rw [UInt8.toNat_add, h, h']
  omega

/-! ## One more payload -/

theorem lastPayload_concat (o : Observation) :
    lastPayload (obs ++ [o]) = if o.hasData then some o else lastPayload obs := by
  unfold lastPayload
  rw [List.filter_append, List.filter_singleton]
  cases o.hasData with
  | true => exact List.getLast?_concat
  | false => rw [cond_false, List.append_nil, if_neg Bool.false_ne_true]

/-- A payload is one more reaction, or none. -/
theorem reactions_concat (o : Observation) :
    reactions (obs ++ [o]) = reactions obs ++
      if o.hasData then
        (((lastPayload obs).filter fun o' => o'.turnsFrom o).map fun o' => (o', o)).toList
      else [] := by
  unfold reactions lastPayload
  rw [List.filter_append, List.filter_singleton]
  cases o.hasData with
  | false => rw [cond_false, List.append_nil, if_neg Bool.false_ne_true, List.append_nil]
  | true =>
    rw [cond_true, neighbours_concat, List.filter_append, if_pos rfl]
    cases (obs.filter Observation.hasData).getLast? with
    | none => rfl
    | some o' =>
      rw [Option.map_some, Option.toList_some, List.filter_singleton, Option.filter_some]
      cases o'.turnsFrom o <;> rfl

/-- What the flow tells fits exactly if the meter takes for a reaction what is one. -/
theorem fitsAfter_iff {o : Observation} :
    FitsAfter obs o ↔ (AttributeMeter.isReaction o.reading =
      (lastPayload obs).any fun o' => o'.turnsFrom o) := by
  have hquiet : AttributeMeter.isReaction o.reading = false ↔ o.reading.isFirstPacket = true ∨
      o.reading.lastPacketDirection = o.reading.currentPacketDirection := by
    rw [AttributeMeter.isReaction, Bool.and_eq_false_iff, Bool.not_eq_false', bne_eq_false_iff_eq]
  have hreacts : AttributeMeter.isReaction o.reading = true ↔ o.reading.isFirstPacket = false ∧
      o.reading.lastPacketDirection ≠ o.reading.currentPacketDirection := by
    rw [AttributeMeter.isReaction, Bool.and_eq_true, Bool.not_eq_true', bne_iff_ne]
  cases hlast : lastPayload obs with
  | none =>
    rw [Option.any_none, hquiet]
    exact ⟨fun h => h.opening hlast, fun h => ⟨fun _ => h,
      fun o' ho' => absurd (hlast ▸ ho') (Option.not_mem_none o'),
      fun o' ho' => absurd (hlast ▸ ho') (Option.not_mem_none o')⟩⟩
  | some o' =>
    rw [Option.any_some]
    have hmem : ∀ {o''}, o'' ∈ lastPayload obs → o'' = o' := fun h =>
      (Option.some.inj (hlast.symm.trans h)).symm
    have hnone : lastPayload obs ≠ none := fun h => Option.some_ne_none o' (hlast.symm.trans h)
    cases hturn : o'.turnsFrom o with
    | true =>
      rw [hreacts]
      refine ⟨fun h => h.turn o' hlast hturn, fun h => ⟨fun hn => absurd hn hnone,
        fun _ _ _ => h, fun o'' ho'' hstay => ?_⟩⟩
      rw [hmem ho'', hturn] at hstay
      exact absurd hstay.symm Bool.false_ne_true
    | false =>
      rw [hquiet]
      refine ⟨fun h => h.stay o' hlast hturn, fun h => ⟨fun hn => absurd hn hnone,
        fun o'' ho'' hstay => ?_, fun _ _ _ => h⟩⟩
      rw [hmem ho'', hturn] at hstay
      exact absurd hstay Bool.false_ne_true

/-! ## The meter -/

/-- What the meter has stored, if anything. -/
theorem stored_reactions :
    (∀ o ∈ lastPayload obs, (measured .actionReactionFirst3ByteHash stale obs :
      AttributeMeter ℝ).lastPacket = currentData o.packet) ∧
    ((measured .actionReactionFirst3ByteHash stale obs : AttributeMeter ℝ).lastPacketSize = 0 →
      lastPayload obs = none) := by
  induction obs using List.reverseRecOn with
  | nil => exact ⟨fun o ho => absurd ho (Option.not_mem_none o), fun _ => rfl⟩
  | append_singleton obs o ih =>
    have hkind : Measures .actionReactionFirst3ByteHash
      (measured .actionReactionFirst3ByteHash stale obs : AttributeMeter ℝ) := measures_measured
    rw [measured_append, lastPayload_concat]
    unfold calculateMeasurement
    rw [hkind.kind]
    unfold Observation.hasData
    simp only [actionReactionFirst3ByteHash]
    by_cases hdata : o.packet.dataSize = 0
    · rw [if_pos hdata, if_neg (fun h => bne_iff_ne.mp h hdata)]
      exact ih
    · rw [if_neg hdata, if_pos (bne_iff_ne.mpr hdata)]
      refine ⟨fun o' ho' => ?_, fun hsize => ?_⟩
      · cases ho'
        rfl
      · have hzero : min o.packet.dataSize 3 = 0 := hsize
        omega

theorem InStep.of_isPrefix {obs' : List Observation} (h : InStep obs') (hobs : obs <+: obs') :
    InStep obs :=
  fun before o hbefore => h before o (hbefore.trans hobs)

/-- **A meter that is told what fits counts the reactions.** -/
theorem counts_of_inStep (h : InStep obs) :
    (∀ n < 115, (measured .actionReactionFirst3ByteHash stale obs :
        AttributeMeter ℝ).fingerprint.getD n 0 =
      ((reactions obs).countP fun pair => pair.1.digitSum + pair.2.digitSum == n : ℕ)) ∧
    (measured .actionReactionFirst3ByteHash stale obs : AttributeMeter ℝ).overall =
      (reactions obs).length := by
  induction obs using List.reverseRecOn with
  | nil =>
    refine ⟨fun n hn => ?_, rfl⟩
    rw [show reactions [] = [] from rfl, List.countP_nil, Nat.cast_zero]
    exact List.getD_replicate _ hn
  | append_singleton obs o ih =>
    obtain ⟨hcounts, htotal⟩ := ih (h.of_isPrefix (List.prefix_append _ _))
    obtain ⟨hstored, -⟩ := @stored_reactions stale obs
    have hkind : Measures .actionReactionFirst3ByteHash
      (measured .actionReactionFirst3ByteHash stale obs : AttributeMeter ℝ) := measures_measured
    have hfit := fun hdata => fitsAfter_iff.mp (h obs o List.prefix_rfl hdata)
    rw [measured_append, reactions_concat]
    unfold calculateMeasurement
    rw [hkind.kind]
    unfold Observation.hasData at hfit ⊢
    simp only [actionReactionFirst3ByteHash]
    by_cases hdata : o.packet.dataSize = 0
    · rw [if_pos hdata, if_neg (fun h => bne_iff_ne.mp h hdata), List.append_nil]
      exact ⟨hcounts, htotal⟩
    · rw [if_neg hdata, if_pos (bne_iff_ne.mpr hdata), hfit (bne_iff_ne.mpr hdata)]
      cases hlast : lastPayload obs with
      | none =>
        rw [Option.any_none, if_neg Bool.false_ne_true, Option.filter_none, Option.map_none,
          Option.toList_none, List.append_nil]
        exact ⟨hcounts, htotal⟩
      | some o' =>
        rw [Option.any_some, Option.filter_some]
        cases hturn : o'.turnsFrom o with
        | false =>
          rw [if_neg Bool.false_ne_true, if_neg Bool.false_ne_true, Option.map_none,
            Option.toList_none, List.append_nil]
          exact ⟨hcounts, htotal⟩
        | true =>
          rw [if_pos rfl, if_pos rfl, Option.map_some, Option.toList_some, List.length_append,
            hstored o' hlast, crossSums_digits]
          refine ⟨fun n hn => ?_, congrArg (· + 1) htotal⟩
          have hlt : n < (measured .actionReactionFirst3ByteHash stale obs :
              AttributeMeter ℝ).fingerprint.length := hkind.length.symm ▸ hn
          rw [List.countP_append, List.countP_singleton, Nat.cast_add, ← hcounts n hn]
          refine (getD_modify hlt _).trans (congrArg _ ?_)
          by_cases heq : o'.digitSum + o.digitSum = n
          · rw [if_pos heq, if_pos (beq_iff_eq.mpr heq), Nat.cast_one]
          · rw [if_neg heq, if_neg (fun h => heq (beq_iff_eq.mp h)), Nat.cast_zero]

/-- **The meter counts the reactions after every packet exactly if it is told what fits.** -/
theorem countsReactions_iff :
    (∀ l, l <+: obs → (measured .actionReactionFirst3ByteHash stale l :
      AttributeMeter ℝ).CountsReactions l) ↔ InStep obs := by
  constructor
  · intro h before o hbefore hdata
    -- the totals before and after the packet tell what it was taken for
    have htotal := (h before ((List.prefix_append _ _).trans hbefore)).total
    have htotal' := (h (before ++ [o]) hbefore).total
    rw [(@measured_reactions stale before).2] at htotal
    rw [(@measured_reactions stale (before ++ [o])).2, List.countP_append, htotal,
      List.countP_singleton, reactions_concat, List.length_append, if_pos hdata,
      Nat.add_left_cancel_iff, Observation.isReaction, hdata, Bool.and_true] at htotal'
    have hone : (((lastPayload before).filter fun o' => o'.turnsFrom o).map
        fun o' => (o', o)).toList.length =
          if (lastPayload before).any fun o' => o'.turnsFrom o then 1 else 0 := by
      cases lastPayload before with
      | none => rfl
      | some o' =>
        rw [Option.any_some, Option.filter_some]
        cases o'.turnsFrom o <;> rfl
    rw [hone] at htotal'
    refine fitsAfter_iff.mpr ?_
    generalize (lastPayload before).any (fun o' => o'.turnsFrom o) = turns at htotal' ⊢
    cases hreact : AttributeMeter.isReaction o.reading <;> cases turns <;>
      first
      | rfl
      | rw [hreact] at htotal'
        cases htotal'
  · intro h l hl
    obtain ⟨hcounts, htotal⟩ := @counts_of_inStep stale _ (h.of_isPrefix hl)
    have hkind : Measures .actionReactionFirst3ByteHash
      (measured .actionReactionFirst3ByteHash stale l : AttributeMeter ℝ) := measures_measured
    refine ⟨htotal, fun n hn => ?_⟩
    rw [atPos_of_lt (hkind.length.symm ▸ hn), hkind.kind, hkind.fromDb, hcounts n hn, htotal]
    rfl

end AttributeMeter

namespace Flow

open AttributeMeter

/-- A meter that reads bytes which it has not stored is shown a reaction. -/
theorem exists_of_readsStaleBytes {S : Setup ℝ} {f : Flow ℝ} {q : IPv4Packet}
    (h : f.readsStaleBytes S q = true) :
    ∃ o, f.observe S q = some o ∧
      ∃ am ∈ f.attributeMeters, am.readsStaleBytes o.reading o.packet = true := by
  have hmeters := advance_attributeMeters f q
  unfold readsStaleBytes at h
  unfold observe examined
  cases hadvance : f.advance q with
  | mk g returned =>
    rw [hadvance] at h hmeters
    cases returned with
    | true => exact absurd h Bool.false_ne_true
    | false =>
      simp only [Bool.and_eq_true, Bool.not_eq_true', decide_eq_false_iff_not] at h
      obtain ⟨⟨⟨hbare, hopen⟩, hcutoff⟩, hany⟩ := h
      obtain ⟨am, ham, hreads⟩ := List.any_eq_true.mp hany
      refine ⟨⟨(g.countPacket q).reading, q⟩, ?_, am, hmeters ▸ ham, hreads⟩
      simp only [hbare, Bool.false_eq_true, if_false, hcutoff]
      rw [if_neg (show (g.countPacket q).flowClassified ≠ true from Bool.eq_false_iff.mp hopen)]
      rfl

/-- **The meter counts exactly the reactions, and reads nothing that it has not stored, exactly if
the flow tells it what fits.** It holds for every flow, every sequence of packets and after every
prefix of it. -/
theorem reactions_iff {S : Setup ℝ}
    (hk : S.factory.enabledAttributes .actionReactionFirst3ByteHash = true) (p : IPv4Packet)
    (stale : FirstBytes) (packets : List IPv4Packet) :
    (HoldsAlong S .actionReactionFirst3ByteHash p stale packets
        (fun l am => am.CountsReactions (l.map Prod.fst)) ∧
      ∀ seen q, seen ++ [q] <+: packets →
        (ofPackets S p stale seen).readsStaleBytes S q = false) ↔
      InStep ((Flow.new S p stale).observations S packets) := by
  rw [holdsAlong_iff hk, ← numbered_map_fst]
  constructor
  · rintro ⟨h, -⟩
    refine (@countsReactions_iff stale _).mp fun l hl => ?_
    obtain ⟨l', hl', rfl⟩ := List.prefix_map_iff.mp hl
    exact h l' hl'
  · intro h
    refine ⟨fun l hl => countsReactions_iff.mpr h _ (hl.map Prod.fst), ?_⟩
    rintro seen q ⟨more, rfl⟩
    rw [numbered_map_fst] at h
    by_contra hreads
    obtain ⟨o, ho, am, ham, hstale⟩ := exists_of_readsStaleBytes (Bool.not_eq_false _ ▸ hreads)
    rw [attributeMeters_ofPackets] at ham
    obtain ⟨k, -, rfl⟩ := List.mem_map.mp ham
    simp only [AttributeMeter.readsStaleBytes, Bool.and_eq_true, beq_iff_eq, bne_iff_ne,
      measures_measured.kind] at hstale
    obtain ⟨⟨⟨rfl, hsize⟩, hdata⟩, hreact⟩ := hstale
    have hstart : (Flow.new S p stale).observations S seen ++ [o] <+:
        (Flow.new S p stale).observations S (seen ++ [q] ++ more) := by
      refine List.IsPrefix.trans ?_ (observations_isPrefix _ (seen ++ [q]) more)
      rw [observations_append]
      refine (List.prefix_append_right_inj _).mpr ?_
      change [o] <+: ((ofPackets S p stale seen).observe S q).toList
      rw [ho]
      exact List.prefix_rfl
    have hfit := fitsAfter_iff.mp (h _ _ hstart (bne_iff_ne.mpr hdata))
    rw [stored_reactions.2 hsize, hreact] at hfit
    exact Bool.false_ne_true hfit.symm

/-- A program that records reactions. -/
noncomputable def recordsReactions : Setup ℝ :=
  recordingWith fun k => k == .actionReactionFirst3ByteHash

/-- A request and its answer, by datagrams of one byte. -/
theorem request_counted :
    (HoldsAlong recordsReactions .actionReactionFirst3ByteHash oneByte (fun _ => 0)
        [oneByte, answerTo oneByte [2]] (fun l am => am.CountsReactions (l.map Prod.fst)) ∧
      ∀ seen q, seen ++ [q] <+: [oneByte, answerTo oneByte [2]] →
        (ofPackets recordsReactions oneByte (fun _ => 0) seen).readsStaleBytes recordsReactions q =
          false) := by
  refine (reactions_iff rfl oneByte (fun _ => 0) _).mpr fun before o hbefore hdata => ?_
  obtain ⟨more, hmore⟩ := hbefore
  rcases before with _ | ⟨o₁, _ | ⟨o₂, before⟩⟩
  · cases hmore
    exact fitsAfter_iff.mpr rfl
  · cases hmore
    exact fitsAfter_iff.mpr rfl
  · have hlength := congrArg List.length hmore
    rw [show ((Flow.new recordsReactions oneByte fun _ => 0).observations recordsReactions
      [oneByte, answerTo oneByte [2]]).length = 2 from rfl] at hlength
    simp only [List.length_append, List.length_cons] at hlength
    omega

/-- The first bytes of the server. -/
def banner : IPv4Packet := { answerTo syn [83, 83, 72] with transport := .tcp thAck }

/-- The banner is taken for a reaction to bytes that were never written. -/
theorem banner_not_counted :
    (ofPackets recordsReactions syn (fun _ => 0) handshake).readsStaleBytes recordsReactions banner =
        true ∧
      (∃ am, (ofPackets recordsReactions syn (fun _ => 0) (handshake ++ [banner])).attributeMetersMap
        .actionReactionFirst3ByteHash = some am ∧ am.atPos 31 = 1) ∧
      ¬ HoldsAlong recordsReactions .actionReactionFirst3ByteHash syn (fun _ => 0)
        (handshake ++ [banner]) fun l am => am.CountsReactions (l.map Prod.fst) := by
  have hat : (measured .actionReactionFirst3ByteHash (fun _ => 0) ((Flow.new recordsReactions syn
      fun _ => 0).observations recordsReactions (handshake ++ [banner])) :
        AttributeMeter ℝ).atPos 31 = 1 := by
    have hcount : (measured .actionReactionFirst3ByteHash (fun _ => 0) ((Flow.new recordsReactions
        syn fun _ => 0).observations recordsReactions (handshake ++ [banner])) :
          AttributeMeter ℝ).fingerprint = (List.replicate 115 (0 : ℝ)).modify 31 (· + 1) := rfl
    have hlength : 31 < (List.replicate 115 (0 : ℝ)).length := by
      rw [List.length_replicate]
      decide
    rw [atPos_of_lt (by rw [hcount, List.length_modify]; exact hlength), hcount,
      getD_modify hlength, if_pos rfl, List.getD_replicate _ (by decide), zero_add]
    change (1 : ℝ) / ((1 : ℕ) : ℝ) = 1
    rw [Nat.cast_one, div_one]
  refine ⟨rfl, ⟨_, attributeMetersMap_ofPackets rfl syn _ _, hat⟩, fun h => ?_⟩
  have hshare := ((holdsAlong_iff rfl).mp h _ List.prefix_rfl).share 31 (by decide)
  have hnone : reactions ((Flow.new recordsReactions syn fun _ => 0).observations recordsReactions
    (handshake ++ [banner])) = [] := rfl
  rw [numbered_map_fst, hat, hnone, List.length_nil, Nat.cast_zero, div_zero] at hshare
  exact one_ne_zero hshare

end Flow

end Vsid
