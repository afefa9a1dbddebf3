import Vsid.Laws.Distributions
import Vsid.Laws.Matching

/-!
# The steps of a flow

A run of packets through a flow is a list of steps: each packet with the flow that it meets. Some of
them are data packets, which the counter numbers from one, in 32 bits, and some of these are shown
to the meters. `dataSteps_length` ties the counter to the list.
-/

set_option autoImplicit false

namespace Vsid

namespace Flow

variable {R : Type} [Double R] {S : Setup R}

omit [Double R] in
/-- The packet gets to the counters: the state machine has not returned, and it is not a bare
segment. -/
def isDataPacket (f : Flow R) (p : IPv4Packet) : Bool := !(f.advance p).2 && !isBareSegment p

/-- The packets, each with the flow that it meets. -/
def steps (S : Setup R) : Flow R → List IPv4Packet → List (Flow R × IPv4Packet)
  | _, [] => []
  | f, p :: packets => (f, p) :: (f.addPacket S p).steps S packets

/-- The steps that are data packets. -/
def dataSteps (S : Setup R) (f : Flow R) (packets : List IPv4Packet) : List (Flow R × IPv4Packet) :=
  (f.steps S packets).filter fun s => s.1.isDataPacket s.2

/-- What the meters are shown, with the numbers of the data packets. -/
def numbered (S : Setup R) (f : Flow R) (packets : List IPv4Packet) : List (Observation × Nat) :=
  ((f.dataSteps S packets).zipIdx 1).filterMap fun s => (s.1.1.observe S s.1.2).map fun o => (o, s.2)

/-! ## One step -/

omit [Double R] in
theorem isDataPacket_iff {f : Flow R} {p : IPv4Packet} :
    f.isDataPacket p = true ↔ (f.advance p).2 = false ∧ isBareSegment p = false := by
  rw [isDataPacket, Bool.and_eq_true, Bool.not_eq_true', Bool.not_eq_true']

omit [Double R] in
theorem isDataPacket_eq_false {f : Flow R} {p : IPv4Packet}
    (h : (f.advance p).2 = true ∨ isBareSegment p = true) : f.isDataPacket p = false := by
  unfold isDataPacket
  rcases h with h | h
  · rw [h, Bool.not_true, Bool.false_and]
  · rw [h, Bool.not_true, Bool.and_false]

omit [Double R] in
theorem advance_pktDirections (f : Flow R) (p : IPv4Packet) :
    (f.advance p).1.currentPacketDirection = f.currentPacketDirection ∧
      (f.advance p).1.packetDirection p = f.packetDirection p := by
  obtain ⟨_, _, _, h⟩ := advance_frame f p
  rw [h]
  exact ⟨rfl, rfl⟩

/-- A packet counts exactly when it is a data packet. -/
theorem pktCount_addPacket (f : Flow R) (p : IPv4Packet) :
    (f.addPacket S p).pktCount = if f.isDataPacket p then f.pktCount + 1 else f.pktCount := by
  have heffect := addPacket_effect S f p
  have hadvance := advance_pktCount f p
  generalize f.examined S p = seen at heffect
  generalize f.addPacket S p = g at heffect ⊢
  cases heffect with
  | advanced hstop =>
    rw [isDataPacket_eq_false hstop]
    exact hadvance
  | counted hreturned hbare =>
    rw [isDataPacket_iff.mpr ⟨hreturned, hbare⟩]
    exact congrArg (· + 1) hadvance
  | examined hreturned hbare =>
    obtain ⟨_, _, _, _, _, h⟩ :=
      classify_frame S ((((f.advance p).1.countPacket p).calculate p).touch p)
    rw [h, isDataPacket_iff.mpr ⟨hreturned, hbare⟩]
    exact congrArg (· + 1) hadvance

/-- … and then its direction is the current one. -/
theorem currentPacketDirection_addPacket (f : Flow R) (p : IPv4Packet) :
    (f.addPacket S p).currentPacketDirection =
      if f.isDataPacket p then f.packetDirection p else f.currentPacketDirection := by
  have heffect := addPacket_effect S f p
  obtain ⟨hlast, hdirection⟩ := advance_pktDirections f p
  generalize f.examined S p = seen at heffect
  generalize f.addPacket S p = g at heffect ⊢
  cases heffect with
  | advanced hstop =>
    rw [isDataPacket_eq_false hstop]
    exact hlast
  | counted hreturned hbare =>
    rw [isDataPacket_iff.mpr ⟨hreturned, hbare⟩]
    exact hdirection
  | examined hreturned hbare =>
    obtain ⟨_, _, _, _, _, h⟩ :=
      classify_frame S ((((f.advance p).1.countPacket p).calculate p).touch p)
    rw [h, isDataPacket_iff.mpr ⟨hreturned, hbare⟩]
    exact hdirection

/-- A packet is examined exactly when it is a data packet, and the flow is neither classified nor
over the cutoff with it. -/
theorem examined_isSome_iff {f : Flow R} {p : IPv4Packet} :
    (f.examined S p).isSome = true ↔
      f.isDataPacket p = true ∧ f.flowClassified = false ∧
        f.pktCount + 1 ≤ S.database.cutoffLimit := by
  have hclassified := advance_flowClassified f p
  have hcount := advance_pktCount f p
  have heffect := addPacket_effect S f p
  rw [isDataPacket_iff, ← hclassified, ← hcount]
  generalize f.examined S p = seen at heffect ⊢
  generalize f.addPacket S p = g at heffect
  cases heffect with
  | advanced hstop =>
    refine ⟨fun h => absurd h Bool.false_ne_true, ?_⟩
    rintro ⟨⟨hreturned, hbare⟩, -⟩
    rcases hstop with h | h
    · exact absurd (hreturned.symm.trans h) Bool.false_ne_true
    · exact absurd (hbare.symm.trans h) Bool.false_ne_true
  | counted hreturned hbare hstop =>
    refine ⟨fun h => absurd h Bool.false_ne_true, ?_⟩
    rintro ⟨-, hopen, hcutoff⟩
    rcases hstop with h | h
    · exact absurd (hopen.symm.trans h) Bool.false_ne_true
    · exact absurd hcutoff (UInt32.not_le.mpr h)
  | examined hreturned hbare hopen hcutoff =>
    exact ⟨fun _ => ⟨⟨hreturned, hbare⟩, hopen, UInt32.not_lt.mp hcutoff⟩, fun _ => rfl⟩

/-- What the meters read of a flow. -/
theorem observe_eq_some {f : Flow R} {p : IPv4Packet} {o : Observation}
    (h : f.observe S p = some o) :
    f.isDataPacket p = true ∧ f.flowClassified = false ∧
      f.pktCount + 1 ≤ S.database.cutoffLimit ∧
      o = { packet := p
            reading :=
              { pktCount := f.pktCount + 1
                isFirstPacket := (f.advance p).1.isFirstPacket
                lastPacketDirection := f.currentPacketDirection
                currentPacketDirection := f.packetDirection p } } := by
  obtain ⟨g, hg, rfl⟩ := Option.map_eq_some_iff.mp h
  have hsome : (f.examined S p).isSome = true := by rw [hg, Option.isSome_some]
  obtain ⟨hdata, hopen, hcutoff⟩ := examined_isSome_iff.mp hsome
  obtain ⟨hlast, hdirection⟩ := advance_pktDirections f p
  obtain ⟨-, rfl⟩ := eq_of_examined hg
  refine ⟨hdata, hopen, hcutoff, ?_⟩
  rw [← hlast, ← hdirection, ← advance_pktCount f p]
  rfl

/-! ## A run -/

@[simp] theorem addPackets_nil (f : Flow R) : f.addPackets S [] = f := rfl

@[simp] theorem addPackets_cons (f : Flow R) (p : IPv4Packet) (packets : List IPv4Packet) :
    f.addPackets S (p :: packets) = (f.addPacket S p).addPackets S packets := rfl

theorem addPackets_append (f : Flow R) (packets more : List IPv4Packet) :
    f.addPackets S (packets ++ more) = (f.addPackets S packets).addPackets S more :=
  List.foldl_append

theorem steps_append (f : Flow R) (packets more : List IPv4Packet) :
    f.steps S (packets ++ more) = f.steps S packets ++ (f.addPackets S packets).steps S more := by
  induction packets generalizing f with
  | nil => rfl
  | cons p packets ih =>
    rw [List.cons_append, steps, steps, ih]
    rfl

theorem dataSteps_append (f : Flow R) (packets more : List IPv4Packet) :
    f.dataSteps S (packets ++ more) =
      f.dataSteps S packets ++ (f.addPackets S packets).dataSteps S more := by
  rw [dataSteps, steps_append, List.filter_append]
  rfl

theorem dataSteps_cons (f : Flow R) (p : IPv4Packet) (packets : List IPv4Packet) :
    f.dataSteps S (p :: packets) =
      (if f.isDataPacket p then [(f, p)] else []) ++ (f.addPacket S p).dataSteps S packets := by
  rw [dataSteps, steps, List.filter_cons]
  split <;> rfl

/-- **The counter counts the data packets.** -/
theorem dataSteps_length (f : Flow R) (packets : List IPv4Packet) :
    (f.addPackets S packets).pktCount =
      f.pktCount + UInt32.ofNat (f.dataSteps S packets).length := by
  induction packets generalizing f with
  | nil => exact (UInt32.add_zero _).symm
  | cons p packets ih =>
    rw [addPackets_cons, ih, pktCount_addPacket, dataSteps_cons, List.length_append]
    split
    · rw [List.length_singleton, UInt32.ofNat_add, UInt32.add_assoc]
      rfl
    · rw [List.length_nil, Nat.zero_add]

/-- Only data packets are observed. -/
theorem observations_eq (f : Flow R) (packets : List IPv4Packet) :
    f.observations S packets = (f.dataSteps S packets).filterMap fun s => s.1.observe S s.2 := by
  induction packets generalizing f with
  | nil => rfl
  | cons p packets ih =>
    rw [observations, ih, dataSteps_cons, List.filterMap_append]
    congr 1
    have hsingle : [(f, p)].filterMap (fun s => s.1.observe S s.2) = (f.observe S p).toList := by
      rw [List.filterMap_cons, List.filterMap_nil]
      cases f.observe S p <;> rfl
    split
    next => exact hsingle.symm
    next hnot =>
      cases hobserve : f.observe S p with
      | some o => exact absurd (observe_eq_some hobserve).1 hnot
      | none => rfl

/-- The numbers are beside what the meters are shown. -/
theorem numbered_map_fst (f : Flow R) (packets : List IPv4Packet) :
    (f.numbered S packets).map Prod.fst = f.observations S packets := by
  rw [numbered, List.map_filterMap, observations_eq]
  generalize f.dataSteps S packets = s
  generalize 1 = n
  induction s generalizing n with
  | nil => rfl
  | cons s steps ih =>
    rw [List.zipIdx_cons, List.filterMap_cons, List.filterMap_cons, ih]
    cases s.1.observe S s.2 <;> rfl

theorem numbered_concat (f : Flow R) (packets : List IPv4Packet) (q : IPv4Packet) :
    f.numbered S (packets ++ [q]) = f.numbered S packets ++
      ((f.addPackets S packets).observe S q).toList.map
        fun o => (o, (f.dataSteps S packets).length + 1) := by
  rw [numbered, numbered, dataSteps_append, List.zipIdx_append, List.filterMap_append,
    Nat.add_comm 1, dataSteps_cons]
  congr 1
  cases hobserve : (f.addPackets S packets).observe S q with
  | some o =>
    rw [(observe_eq_some hobserve).1, if_pos rfl, List.singleton_append, List.zipIdx_cons,
      List.filterMap_cons_some (b := (o, (f.dataSteps S packets).length + 1))]
    · rfl
    · rw [hobserve]
      rfl
  | none =>
    split
    · rw [List.singleton_append, List.zipIdx_cons, List.filterMap_cons_none]
      · rfl
      · rw [hobserve]
        rfl
    · rfl

theorem numbered_isPrefix (f : Flow R) (packets more : List IPv4Packet) :
    f.numbered S packets <+: f.numbered S (packets ++ more) := by
  rw [numbered, numbered, dataSteps_append, List.zipIdx_append, List.filterMap_append]
  exact List.prefix_append _ _

theorem observations_isPrefix (f : Flow R) (packets more : List IPv4Packet) :
    f.observations S packets <+: f.observations S (packets ++ more) := by
  rw [observations_eq, observations_eq, dataSteps_append, List.filterMap_append]
  exact List.prefix_append _ _

/-- The counter shows the number, in 32 bits. -/
theorem pktCount_of_numbered {f : Flow R} {packets : List IPv4Packet} {o : Observation} {n : Nat}
    (h : (o, n) ∈ f.numbered S packets) :
    o.reading.pktCount = f.pktCount + UInt32.ofNat n ∧
      o.reading.pktCount ≤ S.database.cutoffLimit ∧ 1 ≤ n ∧
      n ≤ (f.dataSteps S packets).length := by
  induction packets using List.reverseRecOn with
  | nil => exact absurd h List.not_mem_nil
  | append_singleton packets q ih =>
    have hmore : (f.dataSteps S packets).length ≤ (f.dataSteps S (packets ++ [q])).length := by
      rw [dataSteps_append, List.length_append]
      exact Nat.le_add_right _ _
    rw [numbered_concat] at h
    rcases List.mem_append.mp h with hold | hlast
    · obtain ⟨hcount, hcutoff, hpos, hle⟩ := ih hold
      exact ⟨hcount, hcutoff, hpos, hle.trans hmore⟩
    · obtain ⟨o', ho', heq⟩ := List.mem_map.mp hlast
      cases heq
      obtain ⟨hdata, -, hcutoff, rfl⟩ := observe_eq_some (Option.mem_toList.mp ho')
      refine ⟨?_, hcutoff, Nat.succ_pos _, ?_⟩
      · simp only
        rw [dataSteps_length, UInt32.ofNat_add, UInt32.add_assoc]
        rfl
      · rw [dataSteps_append, List.length_append, dataSteps_cons, hdata, if_pos rfl,
          List.length_append, List.length_singleton]
        exact Nat.add_le_add_left (Nat.le_add_right _ _) _

/-- The numbers grow. -/
theorem numbered_sorted (f : Flow R) (packets : List IPv4Packet) :
    (f.numbered S packets).Pairwise fun x y => x.2 < y.2 := by
  induction packets using List.reverseRecOn with
  | nil => exact List.Pairwise.nil
  | append_singleton packets q ih =>
    rw [numbered_concat]
    refine List.pairwise_append.mpr ⟨ih, ?_, fun x hx y hy => ?_⟩
    · cases (f.addPackets S packets).observe S q with
      | none => exact List.Pairwise.nil
      | some o => exact List.pairwise_singleton _ _
    · obtain ⟨o, -, rfl⟩ := List.mem_map.mp hy
      exact Nat.lt_succ_of_le (pktCount_of_numbered hx).2.2.2

/-- The counter of a new flow shows the number itself, in 32 bits. -/
theorem pktCount_of_numbered_new {p : IPv4Packet} {stale : FirstBytes}
    {packets : List IPv4Packet} :
    ∀ x ∈ (Flow.new S p stale).numbered S packets,
      x.1.reading.pktCount = UInt32.ofNat x.2 := by
  intro x hx
  rw [(pktCount_of_numbered hx).1]
  exact UInt32.zero_add _

/-- What was observed up to some point was observed by some point of the run. -/
theorem exists_prefix_of_numbered {f : Flow R} {packets : List IPv4Packet}
    {l : List (Observation × Nat)} (h : l <+: f.numbered S packets) :
    ∃ seen, seen <+: packets ∧ f.numbered S seen = l := by
  induction packets using List.reverseRecOn with
  | nil => exact ⟨[], List.prefix_rfl, (List.prefix_nil.mp h).symm⟩
  | append_singleton packets q ih =>
    have hmore : packets <+: packets ++ [q] := List.prefix_append _ _
    rw [numbered_concat] at h
    cases hobserve : (f.addPackets S packets).observe S q with
    | none =>
      rw [hobserve, Option.toList_none, List.map_nil, List.append_nil] at h
      obtain ⟨seen, hseen, heq⟩ := ih h
      exact ⟨seen, hseen.trans hmore, heq⟩
    | some o =>
      rw [hobserve, Option.toList_some, List.map_singleton, List.prefix_concat_iff] at h
      rcases h with heq | hold
      · refine ⟨packets ++ [q], List.prefix_rfl, ?_⟩
        rw [numbered_concat, hobserve, heq]
        rfl
      · obtain ⟨seen, hseen, heq⟩ := ih hold
        exact ⟨seen, hseen.trans hmore, heq⟩

/-- After every prefix of the packets the flow has a meter of the class, of which `P` holds with
what it was shown. -/
def HoldsAlong (S : Setup R) (k : MeterKind) (p : IPv4Packet) (stale : FirstBytes)
    (packets : List IPv4Packet) (P : List (Observation × Nat) → AttributeMeter R → Prop) : Prop :=
  ∀ seen, seen <+: packets → ∃ am, (ofPackets S p stale seen).attributeMetersMap k = some am ∧
    P ((Flow.new S p stale).numbered S seen) am

/-- That is a matter of what was observed. -/
theorem holdsAlong_iff {k : MeterKind} (hk : S.factory.enabledAttributes k = true)
    {p : IPv4Packet} {stale : FirstBytes} {packets : List IPv4Packet}
    {P : List (Observation × Nat) → AttributeMeter R → Prop} :
    HoldsAlong S k p stale packets P ↔
      ∀ l, l <+: (Flow.new S p stale).numbered S packets →
        P l (AttributeMeter.measured k stale (l.map Prod.fst)) := by
  constructor
  · intro h l hl
    obtain ⟨seen, hseen, rfl⟩ := exists_prefix_of_numbered hl
    obtain ⟨am, ham, hP⟩ := h seen hseen
    rw [attributeMetersMap_ofPackets hk, Option.some_inj] at ham
    rwa [numbered_map_fst, ham]
  · intro h seen hseen
    obtain ⟨more, rfl⟩ := hseen
    refine ⟨_, attributeMetersMap_ofPackets hk p stale seen, ?_⟩
    rw [← numbered_map_fst]
    exact h _ (numbered_isPrefix _ seen more)

/-- A run in which nothing is examined leaves the result alone. -/
theorem flowClassified_of_unobserved {f : Flow R} {packets : List IPv4Packet}
    (h : f.observations S packets = []) :
    (f.addPackets S packets).flowClassified = f.flowClassified := by
  induction packets generalizing f with
  | nil => rfl
  | cons p packets ih =>
    rw [observations, List.append_eq_nil_iff, Option.toList_eq_nil_iff, observe,
      Option.map_eq_none_iff] at h
    rw [addPackets_cons, ih h.2]
    exact (addPacket_sameResult h.1).flowClassified

/-- A program that records flows with the meters of some classes. -/
def recordingWith (kinds : MeterKind → Bool) : Setup R :=
  { (Setup.initial : Setup R) with
    config := { (CommonConfig.initial : CommonConfig R) with learningMode := true }
    factory := { enabledAttributes := kinds } }

/-- A payload of the other side. -/
def answerTo (p : IPv4Packet) (data : List UInt8) : IPv4Packet :=
  { p with srcIp := p.dstIp, srcPort := p.dstPort, dstIp := p.srcIp, dstPort := p.srcPort
           data := data }

/-- The opening of a connection. -/
def syn : IPv4Packet := ⟨0x0100000a, 40000, 0x0200000a, 22, .tcp thSyn, [], ⟨0, 0⟩⟩

/-- The three packets that open it. -/
def handshake : List IPv4Packet :=
  [syn, { answerTo syn [] with transport := .tcp (thSyn ||| thAck) },
    { syn with transport := .tcp thAck }]

/-! ## Datagrams -/

omit [Double R] in
/-- A datagram is a data packet of every flow that is not finished. -/
theorem isDataPacket_udp {f : Flow R} {p : IPv4Packet} (hudp : p.transport = .udp)
    (hopen : f.isFinished = false) : f.isDataPacket p = true := by
  refine isDataPacket_iff.mpr ⟨(advance_udp hudp hopen).1, ?_⟩
  unfold isBareSegment
  rw [hudp]

/-- A flow that takes datagrams only is never finished, and counts all of them. -/
theorem addPackets_udp {f : Flow R} (hopen : f.isFinished = false) {packets : List IPv4Packet}
    (hudp : ∀ p ∈ packets, p.transport = .udp) :
    (f.addPackets S packets).isFinished = false ∧
      (f.dataSteps S packets).length = packets.length := by
  induction packets generalizing f with
  | nil => exact ⟨hopen, rfl⟩
  | cons p packets ih =>
    obtain ⟨hhead, htail⟩ := List.forall_mem_cons.mp hudp
    obtain ⟨hopen', hlength⟩ := ih (addPacket_udp_open hhead hopen) htail
    rw [addPackets_cons, dataSteps_cons, isDataPacket_udp hhead hopen, if_pos rfl,
      List.singleton_append, List.length_cons, List.length_cons, hlength]
    exact ⟨hopen', rfl⟩

end Flow

end Vsid
