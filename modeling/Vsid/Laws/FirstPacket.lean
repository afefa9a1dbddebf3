import Vsid.Laws.Frequencies
import Vsid.Laws.TrainedDistributions

/-!
# The first packet

Three classes measure the first payload of the originator, and the flow tells them which one it is.
It decides that before it knows that the packet is a data packet: the first datagram of a flow, and
in a TCP flow the first packet of the originator after the handshake, with or without a payload. A
payload that comes with the last packet of the handshake is not told, and an empty datagram is.

As long as the flow is right about every data packet (`Regular`), it tells exactly the first payload
of the originator, stores its first bytes, and the three classes measure it and nothing else. The
first packet about which it is wrong breaks this, if the meters are shown it
(`selectsFirst_of_regular`).
-/

set_option autoImplicit false

namespace Vsid

namespace Flow

variable {R : Type} [Double R] {S : Setup R}

/-- The flow takes the packet for its first one. -/
def takes (f : Flow R) (q : IPv4Packet) : Bool :=
  match f.flowState, q.transport with
  | .new, .udp => true
  | .established, .tcp flags =>
    !hasFlag flags thFin && !hasFlag flags thRst && f.firstOrigToDestData.isEmpty &&
      f.packetDirection q == .origToDest
  | _, _ => false

/-- A payload of the originator. -/
def isOffer (f : Flow R) (q : IPv4Packet) : Bool :=
  f.packetDirection q == .origToDest && q.dataSize != 0

/-- As long as nothing is stored, the flow takes what is a payload of the originator. -/
def Regular (f : Flow R) (q : IPv4Packet) : Prop :=
  f.firstOrigToDestData = [] → f.takes q = f.isOffer q

/-- The number of the first data packet that is a payload of the originator. -/
def firstOffer (S : Setup R) (f : Flow R) (packets : List IPv4Packet) : Option Nat :=
  ((f.dataSteps S packets).findIdx? fun s => s.1.isOffer s.2).map (· + 1)

/-- That packet, if the meters were shown it. -/
def firstMeasured (S : Setup R) (f : Flow R) (packets : List IPv4Packet) : Option Observation :=
  ((f.numbered S packets).find? fun x => f.firstOffer S packets == some x.2).map Prod.fst

/-! ## What the flow takes -/

omit [Double R] in
theorem advance_takes (f : Flow R) (q : IPv4Packet) :
    (f.advance q).1.isFirstPacket = f.takes q ∧
      (f.advance q).1.firstOrigToDestData =
        if f.takes q then q.data.take packetMaxBufferSize else f.firstOrigToDestData := by
  unfold advance takes
  cases f.flowState with
  | established =>
    cases q.transport with
    | udp => exact ⟨rfl, rfl⟩
    | tcp flags =>
      cases hfin : hasFlag flags thFin with
      | true =>
        simp only [hfin, if_true, Bool.not_true, Bool.false_and, Bool.false_eq_true, if_false]
        exact ⟨rfl, rfl⟩
      | false =>
        cases hrst : hasFlag flags thRst with
        | true =>
          simp only [hfin, hrst, if_true, Bool.not_true, Bool.not_false, Bool.true_and,
            Bool.false_and, Bool.false_eq_true, if_false]
          exact ⟨rfl, rfl⟩
        | false =>
          simp only [hfin, hrst, Bool.not_false, Bool.true_and, Bool.false_eq_true, if_false]
          cases f.firstOrigToDestData.isEmpty && f.packetDirection q == .origToDest <;>
            exact ⟨rfl, rfl⟩
  | _ =>
    cases q.transport <;> simp only [Bool.false_eq_true, if_false, if_true] <;> (repeat' split) <;>
      exact ⟨rfl, rfl⟩

omit [Double R] in
/-- What is taken and is no data packet is empty. -/
theorem data_of_takes {f : Flow R} {q : IPv4Packet} (htakes : f.takes q = true)
    (hdata : f.isDataPacket q = false) : q.data = [] ∧ f.firstOrigToDestData = [] := by
  have hskipped : ¬ ((f.advance q).2 = false ∧ isBareSegment q = false) := fun h =>
    Bool.false_ne_true (hdata.symm.trans (isDataPacket_iff.mpr h))
  unfold takes at htakes
  split at htakes
  next hstate hudp =>
    -- a datagram is a data packet
    have hopen : f.isFinished = false := by
      unfold isFinished
      rw [hstate]
      rfl
    exact absurd (isDataPacket_udp hudp hopen) (Bool.eq_false_iff.mp hdata)
  next flags hstate htcp =>
    simp only [Bool.and_eq_true, Bool.not_eq_true', beq_iff_eq, List.isEmpty_iff] at htakes
    obtain ⟨⟨⟨hfin, hrst⟩, hnone⟩, hdirection⟩ := htakes
    refine ⟨?_, hnone⟩
    by_contra hne
    refine hskipped ⟨?_, ?_⟩
    · unfold advance
      simp only [hstate, htcp, hfin, hrst, Bool.false_eq_true, if_false]
      split <;> rfl
    · unfold isBareSegment
      rw [htcp]
      simp only [Bool.and_eq_false_iff, beq_eq_false_iff_ne]
      exact Or.inr (mt AttributeMeter.dataSize_eq_zero_iff.mp hne)
  next => exact absurd htakes Bool.false_ne_true

/-- What is stored, after a packet. -/
theorem addPacket_stored (f : Flow R) (q : IPv4Packet) :
    (f.addPacket S q).firstOrigToDestData =
      if f.isDataPacket q && f.takes q then q.data.take packetMaxBufferSize
      else f.firstOrigToDestData := by
  rw [addPacket_firstOrigToDestData, (advance_takes f q).2]
  cases htakes : f.takes q with
  | false => rw [Bool.and_false]
  | true =>
    cases hdata : f.isDataPacket q with
    | true => rfl
    | false =>
      obtain ⟨hnil, hnone⟩ := data_of_takes htakes hdata
      rw [if_pos rfl, hnil, Bool.false_and, if_neg Bool.false_ne_true, hnone, List.take_nil]

omit [Double R] in
theorem Opened.takes_eq {f : Flow R} (h : f.Opened) (q : IPv4Packet) : f.takes q = false := by
  rw [← (advance_takes f q).1]
  exact (h.advance q).2

omit [Double R] in
theorem isOffer_iff {f : Flow R} {q : IPv4Packet} :
    f.isOffer q = true ↔ f.packetDirection q = .origToDest ∧ q.data ≠ [] := by
  rw [isOffer, Bool.and_eq_true, beq_iff_eq, bne_iff_ne, Ne, AttributeMeter.dataSize_eq_zero_iff]

/-! ## The first offer -/

theorem firstOffer_append (f : Flow R) (packets more : List IPv4Packet) :
    f.firstOffer S (packets ++ more) = (f.firstOffer S packets).or
      (((f.addPackets S packets).firstOffer S more).map
        (· + (f.dataSteps S packets).length)) := by
  unfold firstOffer
  rw [dataSteps_append, List.findIdx?_append]
  cases (f.dataSteps S packets).findIdx? fun s => s.1.isOffer s.2 with
  | some i => rfl
  | none =>
    rw [Option.none_or, Option.map_none, Option.none_or, Option.map_map, Option.map_map]
    congr 1
    funext i
    simp only [Function.comp_apply]
    omega

theorem firstOffer_singleton (f : Flow R) (q : IPv4Packet) :
    f.firstOffer S [q] = if f.isDataPacket q && f.isOffer q then some 1 else none := by
  unfold firstOffer
  rw [dataSteps_cons]
  cases f.isDataPacket q with
  | false => rfl
  | true =>
    rw [if_pos rfl, Bool.true_and]
    change (([(f, q)] : List (Flow R × IPv4Packet)).findIdx? fun s => s.1.isOffer s.2).map _ = _
    rw [List.findIdx?_singleton]
    cases f.isOffer q <;> rfl

/-- The first offer is among the data packets. -/
theorem firstOffer_le {f : Flow R} {packets : List IPv4Packet} {n : Nat}
    (h : f.firstOffer S packets = some n) : n ≤ (f.dataSteps S packets).length := by
  obtain ⟨i, hi, rfl⟩ := Option.map_eq_some_iff.mp h
  obtain ⟨hlt, -⟩ := List.findIdx?_eq_some_iff_getElem.mp hi
  exact hlt

/-! ## A run in which the flow is right -/

/-- What the flow has taken so far. -/
structure Selected (S : Setup R) (f : Flow R) (packets : List IPv4Packet) : Prop where
  empty : f.firstOffer S packets = none → (f.addPackets S packets).firstOrigToDestData = []
  opened : f.firstOffer S packets ≠ none → (f.addPackets S packets).Opened
  flag : ∀ x ∈ f.numbered S packets,
    x.1.reading.isFirstPacket = true ↔ f.firstOffer S packets = some x.2
  stored : ∀ x ∈ f.numbered S packets, x.1.reading.isFirstPacket = true →
    (f.addPackets S packets).firstOrigToDestData = x.1.packet.data.take packetMaxBufferSize

theorem selected_nil {f : Flow R} (h : f.firstOrigToDestData = []) : f.Selected S [] where
  empty _ := h
  opened hsome := absurd rfl hsome
  flag _ hx := absurd hx List.not_mem_nil
  stored _ hx := absurd hx List.not_mem_nil

/-- The flow takes the first offer, if it is right about the packet. -/
theorem Selected.firstOffer_concat {f : Flow R} {packets : List IPv4Packet}
    (h : f.Selected S packets) {q : IPv4Packet}
    (hregular : (f.addPackets S packets).isDataPacket q = true →
      (f.addPackets S packets).Regular q) :
    f.firstOffer S (packets ++ [q]) =
        (if (f.addPackets S packets).isDataPacket q && (f.addPackets S packets).takes q then
          some ((f.dataSteps S packets).length + 1)
        else f.firstOffer S packets) ∧
      ((f.addPackets S packets).takes q = true →
        (f.addPackets S packets).isDataPacket q = true → f.firstOffer S packets = none) := by
  rw [firstOffer_append, firstOffer_singleton]
  cases hdata : (f.addPackets S packets).isDataPacket q with
  | false =>
    rw [Bool.false_and, Bool.false_and, if_neg Bool.false_ne_true, if_neg Bool.false_ne_true,
      Option.map_none, Option.or_none]
    exact ⟨rfl, fun _ hd => absurd hd Bool.false_ne_true⟩
  | true =>
    rw [Bool.true_and, Bool.true_and]
    cases hfirst : f.firstOffer S packets with
    | some n =>
      have hopened := h.opened (hfirst ▸ Option.some_ne_none n)
      rw [hopened.takes_eq, if_neg Bool.false_ne_true, Option.some_or]
      exact ⟨rfl, fun ht => absurd ht Bool.false_ne_true⟩
    | none =>
      rw [hregular hdata (h.empty hfirst), Option.none_or]
      refine ⟨?_, fun _ _ => rfl⟩
      split
      · rw [Option.map_some, Nat.add_comm]
      · rfl

/-- **One packet.** -/
theorem Selected.concat {f : Flow R} {packets : List IPv4Packet} (h : f.Selected S packets)
    {q : IPv4Packet}
    (hregular : (f.addPackets S packets).isDataPacket q = true →
      (f.addPackets S packets).Regular q) :
    f.Selected S (packets ++ [q]) := by
  obtain ⟨hoffer, hnone⟩ := h.firstOffer_concat hregular
  have hstored := addPacket_stored (S := S) (f.addPackets S packets) q
  have hmore : f.addPackets S (packets ++ [q]) = (f.addPackets S packets).addPacket S q :=
    addPackets_append f packets [q]
  -- what is shown now, besides what was
  have hshown : ∀ x ∈ f.numbered S (packets ++ [q]), x ∈ f.numbered S packets ∨
      x.2 = (f.dataSteps S packets).length + 1 ∧ x.1.packet = q ∧
        (f.addPackets S packets).isDataPacket q = true ∧
        x.1.reading.isFirstPacket = (f.addPackets S packets).takes q := by
    intro x hx
    rw [numbered_concat] at hx
    refine (List.mem_append.mp hx).imp_right fun hx => ?_
    obtain ⟨o, ho, rfl⟩ := List.mem_map.mp hx
    obtain ⟨hdata, -, -, rfl⟩ := observe_eq_some (Option.mem_toList.mp ho)
    exact ⟨rfl, rfl, hdata, (advance_takes _ q).1⟩
  have hle : ∀ x ∈ f.numbered S packets, x.2 ≤ (f.dataSteps S packets).length :=
    fun x hx => (pktCount_of_numbered hx).2.2.2
  cases htaken : (f.addPackets S packets).isDataPacket q && (f.addPackets S packets).takes q with
  | false =>
    rw [htaken, if_neg Bool.false_ne_true] at hoffer hstored
    have htakes : (f.addPackets S packets).isDataPacket q = true →
        (f.addPackets S packets).takes q = false := by
      intro hdata
      rwa [hdata, Bool.true_and] at htaken
    refine ⟨fun hnone' => ?_, fun hsome => ?_, fun x hx => ?_, fun x hx hflag => ?_⟩
    · rw [hmore, hstored]
      exact h.empty (hoffer.symm.trans hnone')
    · rw [hmore, opened_addPacket_iff]
      exact ((h.opened (hoffer ▸ hsome)).advance q).1
    · rw [hoffer]
      rcases hshown x hx with hold | ⟨hnumber, -, hdata, hflag⟩
      · exact h.flag x hold
      · rw [hflag, htakes hdata, hnumber]
        refine ⟨fun hf => absurd hf Bool.false_ne_true, fun hfirst => ?_⟩
        exact absurd (firstOffer_le hfirst) (Nat.not_succ_le_self _)
    · rw [hmore, hstored]
      rcases hshown x hx with hold | ⟨-, -, hdata, hflag'⟩
      · exact h.stored x hold hflag
      · rw [hflag', htakes hdata] at hflag
        exact absurd hflag Bool.false_ne_true
  | true =>
    rw [htaken, if_pos rfl] at hoffer hstored
    obtain ⟨hdata, htakes⟩ := Bool.and_eq_true_iff.mp htaken
    have hfirst := hnone htakes hdata
    have hpayload : (f.addPackets S packets).isOffer q = true :=
      (hregular hdata (h.empty hfirst)).symm.trans htakes
    refine ⟨fun hnone' => ?_, fun _ => ?_, fun x hx => ?_, fun x hx hflag => ?_⟩
    · exact absurd (hoffer.symm.trans hnone') (Option.some_ne_none _)
    · rw [hmore, opened_addPacket_iff]
      exact opened_of_first (isOffer_iff.mp hpayload).2 ((advance_takes _ q).1.trans htakes)
    · rw [hoffer, Option.some_inj]
      rcases hshown x hx with hold | ⟨hnumber, -, -, hflag⟩
      · -- nothing was taken before
        rw [h.flag x hold, hfirst]
        refine ⟨fun hf => absurd hf.symm (Option.some_ne_none _), fun hnumber => ?_⟩
        exact absurd (hnumber ▸ hle x hold) (Nat.not_succ_le_self _)
      · rw [hflag, htakes, hnumber]
        exact ⟨fun _ => rfl, fun _ => rfl⟩
    · rw [hmore, hstored]
      rcases hshown x hx with hold | ⟨-, hpacket, -, -⟩
      · exact absurd ((h.flag x hold).mp hflag) (hfirst ▸ (Option.some_ne_none _).symm)
      · rw [hpacket]

/-- **A run.** -/
theorem selected_of_regular {f : Flow R} (hempty : f.firstOrigToDestData = [])
    {packets : List IPv4Packet}
    (hregular : ∀ s ∈ f.dataSteps S packets, s.1.Regular s.2) : f.Selected S packets := by
  induction packets using List.reverseRecOn with
  | nil => exact selected_nil hempty
  | append_singleton packets q ih =>
    rw [dataSteps_append] at hregular
    have hold := ih fun s hs => hregular s (List.mem_append_left _ hs)
    refine hold.concat fun hdata => ?_
    refine hregular (f.addPackets S packets, q) (List.mem_append_right _ ?_)
    rw [dataSteps_cons, hdata]
    exact List.mem_cons_self

/-! ## A packet about which the flow is wrong -/

/-- A data packet is one of the packets. -/
theorem exists_of_dataSteps {f : Flow R} {packets : List IPv4Packet}
    {before after : List (Flow R × IPv4Packet)} {s : Flow R × IPv4Packet}
    (h : f.dataSteps S packets = before ++ s :: after) :
    ∃ seen more, packets = seen ++ [s.2] ++ more ∧ f.dataSteps S seen = before ∧
      s.1 = f.addPackets S seen ∧ s.1.isDataPacket s.2 = true := by
  induction packets generalizing f before with
  | nil => exact absurd h.symm (List.append_ne_nil_of_right_ne_nil _ (List.cons_ne_nil _ _))
  | cons q packets ih =>
    rw [dataSteps_cons] at h
    cases hdata : f.isDataPacket q with
    | false =>
      rw [hdata, if_neg Bool.false_ne_true, List.nil_append] at h
      obtain ⟨seen, more, rfl, hbefore, hs, hs'⟩ := ih h
      refine ⟨q :: seen, more, rfl, ?_, hs, hs'⟩
      rw [dataSteps_cons, hdata, if_neg Bool.false_ne_true, List.nil_append, hbefore]
    | true =>
      rw [hdata, if_pos rfl, List.singleton_append] at h
      cases before with
      | nil =>
        obtain ⟨rfl, -⟩ := List.cons_eq_cons.mp h
        exact ⟨[], packets, rfl, rfl, rfl, hdata⟩
      | cons t before =>
        obtain ⟨rfl, hrest⟩ := List.cons_eq_cons.mp h
        obtain ⟨seen, more, rfl, hbefore, hs, hs'⟩ := ih hrest
        refine ⟨q :: seen, more, rfl, ?_, hs, hs'⟩
        rw [dataSteps_cons, hdata, if_pos rfl, List.singleton_append, hbefore]

/-- **The first packet about which the flow is wrong is told the wrong way.** -/
theorem wrong_of_irregular {f : Flow R} (hempty : f.firstOrigToDestData = [])
    {packets : List IPv4Packet} {before after : List (Flow R × IPv4Packet)}
    {s : Flow R × IPv4Packet} (hsplit : f.dataSteps S packets = before ++ s :: after)
    (hbefore : ∀ t ∈ before, t.1.Regular t.2) (hs : ¬ s.1.Regular s.2) {o : Observation}
    (ho : s.1.observe S s.2 = some o) :
    ∃ x ∈ f.numbered S packets,
      ¬ (x.1.reading.isFirstPacket = true ↔ f.firstOffer S packets = some x.2) := by
  obtain ⟨seen, more, rfl, rfl, hflow, hdata⟩ := exists_of_dataSteps hsplit
  have hselected := selected_of_regular hempty hbefore
  obtain ⟨hstored, hwrong⟩ := Classical.not_imp.mp hs
  rw [hflow] at hstored hwrong hdata ho
  have hnone : f.firstOffer S seen = none := by
    by_contra hsome
    exact (hselected.opened hsome).2 hstored
  have hmem : (o, (f.dataSteps S seen).length + 1) ∈ f.numbered S (seen ++ [s.2] ++ more) := by
    refine (numbered_isPrefix f (seen ++ [s.2]) more).subset ?_
    rw [numbered_concat, ho]
    exact List.mem_append_right _ List.mem_cons_self
  obtain ⟨-, -, -, rfl⟩ := observe_eq_some ho
  refine ⟨_, hmem, ?_⟩
  simp only [(advance_takes _ s.2).1]
  rw [firstOffer_append, firstOffer_append, hnone, Option.none_or, firstOffer_singleton, hdata,
    Bool.true_and]
  cases hoffer : (f.addPackets S seen).isOffer s.2 with
  | true =>
    have htakes : (f.addPackets S seen).takes s.2 = false :=
      Bool.eq_false_iff.mpr fun ht => hwrong (ht.trans hoffer.symm)
    rw [htakes, if_pos rfl, Option.map_some, Option.some_or, Nat.add_comm]
    exact fun h => Bool.false_ne_true (h.mpr rfl)
  | false =>
    have htakes : (f.addPackets S seen).takes s.2 = true := by
      rw [← Bool.not_eq_false]
      exact fun ht => hwrong (ht.trans hoffer.symm)
    rw [htakes, if_neg Bool.false_ne_true, Option.map_none, Option.none_or]
    intro h
    obtain ⟨n, hn, heq⟩ := Option.map_eq_some_iff.mp (h.mp rfl)
    obtain ⟨i, -, rfl⟩ := Option.map_eq_some_iff.mp hn
    rw [dataSteps_append, List.length_append, dataSteps_cons, hdata, if_pos rfl] at heq
    simp only [List.singleton_append, List.length_cons] at heq
    omega

end Flow

/-! ## What is measured -/

/-- The classes that measure the first packet. -/
def MeterKind.measuresFirst : MeterKind → Bool
  | .byteFrequencyFirstOrigToDestPacket => true
  | .entropyFirstOrigToDestPacket => true
  | .payloadSizeFirstPacket => true
  | _ => false

namespace AttributeMeter

variable {k : MeterKind} {stale : FirstBytes} {obs : List Observation}

/-- They measure what the flow tells them. -/
theorem measured_filter (hk : k.measuresFirst = true) :
    (measured k stale obs : AttributeMeter ℝ) =
      measured k stale (obs.filter fun o => o.reading.isFirstPacket) := by
  refine measured_filter_of_skip fun m o hkind hflag => ?_
  unfold calculateMeasurement
  rw [hkind]
  cases k <;>
    first
    | exact absurd hk Bool.false_ne_true
    | simp only [byteFrequencyFirstOrigToDestPacket, entropyFirstOrigToDestPacket,
        payloadSizeFirstPacket, hflag, Bool.not_false, if_true]

end AttributeMeter

namespace Flow

open AttributeMeter

/-- The flow tells the meters the first payload of the originator, if they are shown it: its first
bytes are stored, and the three classes have measured it and nothing else. -/
structure SelectsFirst (S : Setup ℝ) (p : IPv4Packet) (stale : FirstBytes)
    (packets : List IPv4Packet) : Prop where
  flag : ∀ x ∈ (Flow.new S p stale).numbered S packets,
    x.1.reading.isFirstPacket = true ↔ (Flow.new S p stale).firstOffer S packets = some x.2
  stored : ∀ o ∈ (Flow.new S p stale).firstMeasured S packets,
    (ofPackets S p stale packets).firstOrigToDestData = o.packet.data.take packetMaxBufferSize
  meters : ∀ k, k.measuresFirst = true → S.factory.enabledAttributes k = true →
    (ofPackets S p stale packets).attributeMetersMap k =
      some (measured k stale ((Flow.new S p stale).firstMeasured S packets).toList)
  frequencies : S.factory.enabledAttributes .byteFrequencyFirstOrigToDestPacket = true →
    ∃ am, (ofPackets S p stale packets).attributeMetersMap .byteFrequencyFirstOrigToDestPacket =
      some am ∧ am.IsFrequencyOf
        ((((Flow.new S p stale).firstMeasured S packets).map (·.packet.data)).getD [])

/-- One packet at most has the number. -/
theorem filter_number {l : List (Observation × Nat)} (hl : l.Pairwise fun x y => x.2 < y.2)
    (n : Option Nat) :
    l.filter (fun x => n == some x.2) = (l.find? fun x => n == some x.2).toList := by
  induction l with
  | nil => rfl
  | cons x l ih =>
    obtain ⟨hhead, htail⟩ := List.pairwise_cons.mp hl
    rw [List.filter_cons, List.find?_cons]
    cases hx : n == some x.2 with
    | false => exact ih htail
    | true =>
      rw [if_pos rfl, Option.toList_some, List.filter_eq_nil_iff.mpr]
      intro y hy hn
      have heq := (beq_iff_eq.mp hx).symm.trans (beq_iff_eq.mp hn)
      exact absurd (Option.some.inj heq) (hhead y hy).ne

/-- What the flow tells is the first payload. -/
theorem Selected.filter_first {S : Setup ℝ} {f : Flow ℝ} {packets : List IPv4Packet}
    (h : f.Selected S packets) :
    (f.observations S packets).filter (fun o => o.reading.isFirstPacket) =
      (f.firstMeasured S packets).toList := by
  have hfilter : (f.numbered S packets).filter (fun x => x.1.reading.isFirstPacket) =
      (f.numbered S packets).filter fun x => f.firstOffer S packets == some x.2 := by
    refine List.filter_congr fun x hx => ?_
    rw [Bool.eq_iff_iff, h.flag x hx, beq_iff_eq]
  rw [← numbered_map_fst, List.filter_map]
  change ((f.numbered S packets).filter fun x => x.1.reading.isFirstPacket).map Prod.fst = _
  rw [hfilter, filter_number (numbered_sorted f packets), firstMeasured]
  cases (f.numbered S packets).find? fun x => f.firstOffer S packets == some x.2 <;> rfl

theorem Selected.selectsFirst {S : Setup ℝ} {p : IPv4Packet} {stale : FirstBytes}
    {packets : List IPv4Packet} (h : (Flow.new S p stale).Selected S packets) :
    SelectsFirst S p stale packets := by
  have hmeters : ∀ k, k.measuresFirst = true → S.factory.enabledAttributes k = true →
      (ofPackets S p stale packets).attributeMetersMap k =
        some (measured k stale ((Flow.new S p stale).firstMeasured S packets).toList) := by
    intro k hk hon
    rw [attributeMetersMap_ofPackets hon, measured_filter hk, h.filter_first]
  have hfirst : ∀ o ∈ (Flow.new S p stale).firstMeasured S packets,
      ∃ x ∈ (Flow.new S p stale).numbered S packets,
        x.1 = o ∧ x.1.reading.isFirstPacket = true := by
    intro o ho
    obtain ⟨x, hx, rfl⟩ := Option.map_eq_some_iff.mp ho
    have hmem := List.mem_of_find?_eq_some hx
    have hnumber := List.find?_some hx
    exact ⟨x, hmem, rfl, (h.flag x hmem).mpr (beq_iff_eq.mp hnumber)⟩
  refine ⟨h.flag, fun o ho => ?_, hmeters, fun hon => ⟨_, hmeters _ rfl hon, ?_⟩⟩
  · obtain ⟨x, hx, rfl, hflag⟩ := hfirst o ho
    exact h.stored x hx hflag
  · have hcovered := @frequency_covered .byteFrequencyFirstOrigToDestPacket stale
      ((Flow.new S p stale).firstMeasured S packets).toList (by decide)
    cases ho : (Flow.new S p stale).firstMeasured S packets with
    | none =>
      rw [ho] at hcovered
      exact hcovered
    | some o =>
      obtain ⟨x, -, rfl, hflag⟩ := hfirst o ho
      rw [ho, Option.toList_some, List.flatMap_singleton, Observation.covered, if_pos hflag]
        at hcovered
      exact hcovered

/-- **The flow tells the meters the first payload of the originator as long as it is right about
every data packet.** It holds for every flow and every sequence of packets. The first packet about
which it is wrong breaks it, if the meters are shown it. -/
theorem selectsFirst_of_regular (S : Setup ℝ) (p : IPv4Packet) (stale : FirstBytes)
    (packets : List IPv4Packet) :
    ((∀ s ∈ (Flow.new S p stale).dataSteps S packets, s.1.Regular s.2) →
        SelectsFirst S p stale packets) ∧
      ∀ before s after, (Flow.new S p stale).dataSteps S packets = before ++ s :: after →
        (∀ t ∈ before, t.1.Regular t.2) → ¬ s.1.Regular s.2 →
        (s.1.examined S s.2).isSome = true → ¬ SelectsFirst S p stale packets := by
  refine ⟨fun hregular => (selected_of_regular rfl hregular).selectsFirst, ?_⟩
  intro before s after hsplit hbefore hs hshown h
  obtain ⟨g, hg⟩ := Option.isSome_iff_exists.mp hshown
  have ho : s.1.observe S s.2 = some { reading := g.reading, packet := s.2 } := by
    rw [observe, hg, Option.map_some]
  obtain ⟨x, hx, hwrong⟩ := wrong_of_irregular rfl hsplit hbefore hs ho
  exact hwrong (h.flag x hx)

/-- A program that records the first packet. -/
noncomputable def recordsFirst : Setup ℝ := recordingWith MeterKind.measuresFirst

/-- A request after the handshake, and one more. -/
theorem request_selected :
    SelectsFirst recordsFirst syn (fun _ => 0)
      (handshake ++ [{ syn with transport := .tcp thAck, data := [1] },
        { syn with transport := .tcp thAck, data := [2] }]) := by
  refine (selectsFirst_of_regular recordsFirst syn (fun _ => 0) _).1 fun s hs => ?_
  rcases List.mem_cons.mp (hs : s ∈ [_, _]) with rfl | hs
  · exact fun _ => rfl
  · cases List.mem_singleton.mp hs
    intro hstored
    exact absurd hstored (List.cons_ne_nil 1 [])

/-- A payload that comes with the last packet of the handshake is not told, and a datagram without
one is. -/
theorem piggyback_not_selected :
    ¬ SelectsFirst recordsFirst syn (fun _ => 0)
        (handshake.take 2 ++ [{ syn with transport := .tcp thAck, data := [1] }]) ∧
      ¬ SelectsFirst recordsFirst emptyDatagram (fun _ => 0) [emptyDatagram] := by
  constructor
  · intro h
    exact Bool.false_ne_true ((h.flag _ List.mem_cons_self).mpr rfl)
  · intro h
    exact Option.some_ne_none 1 ((h.flag _ List.mem_cons_self).mp rfl).symm

end Flow

end Vsid
