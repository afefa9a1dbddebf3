import Vsid.Laws.Steps

/-!
# The state machine of a flow as a function of its packets

What the state machine makes of a sequence of packets can be read off the sequence. `advance_state`
says where one packet takes a flow, and `advance_returned` when it is looked at no further; the laws
about runs are inductions over them. `trace_of_packets` is all of it together.
-/

set_option autoImplicit false

namespace Vsid

namespace IPv4Packet

/-- A TCP segment with FIN or RST. -/
def closes (p : IPv4Packet) : Bool :=
  match p.transport with
  | .tcp flags => hasFlag flags thFin || hasFlag flags thRst
  | .udp => false

/-- A TCP segment without SYN. -/
def lacksSyn (p : IPv4Packet) : Bool :=
  match p.transport with
  | .tcp flags => !hasFlag flags thSyn
  | .udp => false

/-- The packet ends its flow. The first packet does so without a SYN. -/
def finishes (first : Bool) (p : IPv4Packet) : Bool := p.closes || first && p.lacksSyn

/-- The packets up to the one that ends the flow, and with it. -/
def upToFinish : Bool → List IPv4Packet → List IPv4Packet
  | _, [] => []
  | first, p :: packets => if p.finishes first then [p] else p :: upToFinish false packets

/-- A packet that the counter counts: neither FIN nor RST, and no empty segment with SYN or ACK. -/
def counts (p : IPv4Packet) : Bool := !p.closes && !Flow.isBareSegment p

end IPv4Packet

/-- The order of the states. -/
def FlowState.rank : FlowState → Nat
  | .new => 0
  | .establishing => 1
  | .established => 2
  | .finishing => 3
  | .finished => 4
  | .finishedNotified => 5

namespace Flow

variable {R : Type} {S : Setup R}

/-! ## One packet -/

/-- Where a packet takes a flow that is not finished. -/
def nextState (f : Flow R) (p : IPv4Packet) : FlowState :=
  if p.finishes (f.flowState == .new) then .finished
  else
    match f.flowState with
    | .new => .establishing
    | .establishing =>
      match p.transport with
      | .udp => if f.packetDirection p = .destToOrig then .established else .establishing
      | .tcp flags => if hasFlag flags thSyn then .establishing else .established
    | state => state

theorem advance_state {f : Flow R} (hopen : f.isFinished = false) (p : IPv4Packet) :
    (f.advance p).1.flowState = f.nextState p := by
  unfold advance nextState IPv4Packet.finishes IPv4Packet.closes IPv4Packet.lacksSyn isFinished at *
  cases hs : f.flowState <;> cases ht : p.transport <;>
    simp only [hs, arrive, enter, takeFirstPacket] at hopen ⊢ <;> (repeat' split) <;> simp_all

/-- The state machine returns for a finished flow, and for a packet that closes it. -/
theorem advance_returned (f : Flow R) (p : IPv4Packet) :
    (f.advance p).2 = (f.isFinished || p.closes) := by
  unfold advance IPv4Packet.closes isFinished
  cases hs : f.flowState <;> cases ht : p.transport <;> simp only <;> (repeat' split) <;> simp_all

theorem isDataPacket_eq (f : Flow R) (p : IPv4Packet) :
    f.isDataPacket p = (!f.isFinished && p.counts) := by
  rw [isDataPacket, advance_returned, IPv4Packet.counts, Bool.not_or, Bool.and_assoc]

variable [Double R]

theorem addPacket_state {f : Flow R} (hopen : f.isFinished = false) (p : IPv4Packet) :
    (f.addPacket S p).flowState = f.nextState p := by
  rw [addPacket_flowState, advance_state hopen]

/-- A packet leaves its flow finished exactly when the flow was, or the packet ends it. -/
theorem addPacket_isFinished (f : Flow R) (p : IPv4Packet) :
    (f.addPacket S p).isFinished = (f.isFinished || p.finishes (f.flowState == .new)) := by
  cases hopen : f.isFinished with
  | true =>
    rw [addPacket_of_isFinished S f p hopen, Bool.true_or]
    exact hopen
  | false =>
    rw [Bool.false_or]
    have hstate := addPacket_state (S := S) hopen p
    unfold isFinished at hopen ⊢
    rw [hstate]
    unfold nextState
    cases hs : f.flowState <;> simp only [hs] at hopen ⊢ <;> (repeat' split) <;> simp_all

/-- **The state never goes back.** -/
theorem rank_addPacket (f : Flow R) (p : IPv4Packet) :
    f.flowState.rank ≤ (f.addPacket S p).flowState.rank := by
  cases hopen : f.isFinished with
  | true =>
    rw [addPacket_of_isFinished S f p hopen]
    exact Nat.le_refl _
  | false =>
    rw [addPacket_state hopen]
    unfold nextState
    unfold isFinished at hopen
    cases hs : f.flowState <;> simp only [hs] at hopen ⊢ <;> (repeat' split) <;>
      first
      | decide
      | exact absurd hopen (by decide)

/-! ## A run -/

theorem rank_addPackets (f : Flow R) (packets : List IPv4Packet) :
    f.flowState.rank ≤ (f.addPackets S packets).flowState.rank := by
  induction packets generalizing f with
  | nil => exact Nat.le_refl _
  | cons p packets ih => exact (rank_addPacket f p).trans (ih _)

theorem overallPktCount_addPackets (f : Flow R) (packets : List IPv4Packet) :
    (f.addPackets S packets).overallPktCount =
      f.overallPktCount + UInt32.ofNat packets.length := by
  induction packets generalizing f with
  | nil => exact (UInt32.add_zero _).symm
  | cons p packets ih =>
    rw [addPackets_cons, ih, addPacket_overallPktCount, List.length_cons, Nat.add_comm,
      UInt32.ofNat_add, UInt32.add_assoc]
    rfl

/-- A finished flow stays as it is, and counts no data packet. -/
theorem addPackets_of_isFinished {f : Flow R} (h : f.isFinished = true)
    (packets : List IPv4Packet) :
    (f.addPackets S packets).flowState = f.flowState ∧ f.dataSteps S packets = [] := by
  induction packets generalizing f with
  | nil => exact ⟨rfl, rfl⟩
  | cons p packets ih =>
    have hstep := addPacket_of_isFinished S f p h
    obtain ⟨hstate, hsteps⟩ := ih (f := f.addPacket S p) (by rw [hstep]; exact h)
    rw [addPackets_cons, hstate, dataSteps_cons, hsteps, isDataPacket_eq, h, Bool.not_true,
      Bool.false_and, if_neg Bool.false_ne_true, hstep]
    exact ⟨rfl, rfl⟩

/-- The data packets, counted in the sequence. -/
theorem dataSteps_of_open {f : Flow R} (hopen : f.isFinished = false)
    (packets : List IPv4Packet) :
    (f.dataSteps S packets).length =
      (IPv4Packet.upToFinish (f.flowState == .new) packets).countP IPv4Packet.counts := by
  induction packets generalizing f with
  | nil => rfl
  | cons p packets ih =>
    have hfinished := addPacket_isFinished (S := S) f p
    rw [hopen, Bool.false_or] at hfinished
    have hhead : (if f.isDataPacket p then [(f, p)] else []).length =
        if p.counts then 1 else 0 := by
      rw [isDataPacket_eq, hopen, Bool.not_false, Bool.true_and]
      split <;> rfl
    rw [dataSteps_cons, List.length_append, hhead, IPv4Packet.upToFinish]
    cases hends : p.finishes (f.flowState == .new) with
    | true =>
      rw [(addPackets_of_isFinished (hfinished.trans hends) packets).2, if_pos rfl,
        List.countP_singleton, List.length_nil, Nat.add_zero]
    | false =>
      have hold : ((f.addPacket S p).flowState == .new) = false :=
        beq_eq_false_iff_ne.mpr (addPacket_ne_new S f p)
      rw [ih (hfinished.trans hends), hold, if_neg Bool.false_ne_true, List.countP_cons,
        Nat.add_comm]

/-! ## Datagrams -/

theorem addPacket_datagram {f : Flow R} {p : IPv4Packet} (hudp : p.transport = .udp)
    (hstate : f.flowState = .establishing ∨ f.flowState = .established) :
    (f.addPacket S p).flowState =
      if f.flowState = .established ∨ f.packetDirection p = .destToOrig then .established
      else .establishing := by
  have hfinishes : ∀ first, p.finishes first = false := by
    intro first
    rw [IPv4Packet.finishes, IPv4Packet.closes, IPv4Packet.lacksSyn, hudp, Bool.and_false,
      Bool.or_false]
  have hopen : f.isFinished = false := by
    rcases hstate with hs | hs <;> rw [isFinished, hs] <;> rfl
  rw [addPacket_state hopen, nextState, hfinishes, if_neg Bool.false_ne_true, hudp]
  rcases hstate with hs | hs <;> rw [hs]
  · simp only [reduceCtorEq, false_or]
  · rw [if_pos (Or.inl rfl)]

/-- Datagrams establish a flow as soon as one comes from its destination. -/
theorem state_of_datagrams {f : Flow R} {packets : List IPv4Packet}
    (hudp : ∀ q ∈ packets, q.transport = .udp)
    (hstate : f.flowState = .establishing ∨ f.flowState = .established) :
    (f.addPackets S packets).flowState =
      if f.flowState = .established ∨ ∃ q ∈ packets, f.packetDirection q = .destToOrig then
        .established
      else .establishing := by
  induction packets generalizing f with
  | nil =>
    simp only [List.not_mem_nil, false_and, exists_false, or_false]
    rcases hstate with hs | hs <;> rw [addPackets_nil, hs] <;> rfl
  | cons p packets ih =>
    obtain ⟨hhead, htail⟩ := List.forall_mem_cons.mp hudp
    have hstep := addPacket_datagram (S := S) hhead hstate
    have hdirection : ∀ q, (f.addPacket S p).packetDirection q = f.packetDirection q := by
      intro q
      unfold packetDirection
      rw [addPacket_firstPacketTuple]
    have hstate' : (f.addPacket S p).flowState = .establishing ∨
        (f.addPacket S p).flowState = .established := by
      rw [hstep]
      split
      · exact Or.inr rfl
      · exact Or.inl rfl
    have hestablished : (f.addPacket S p).flowState = .established ↔
        f.flowState = .established ∨ f.packetDirection p = .destToOrig := by
      rw [hstep]
      split
      next h => exact iff_of_true rfl h
      next h => exact iff_of_false (by decide) h
    rw [addPackets_cons, ih htail hstate']
    simp only [hdirection, hestablished, List.exists_mem_cons_iff, or_assoc]

/-! ## Segments -/

theorem addPacket_segment {f : Flow R} {p : IPv4Packet} (htcp : p.transport ≠ .udp)
    (hstate : f.flowState = .establishing ∨ f.flowState = .established) :
    (f.addPacket S p).flowState =
      if p.closes then .finished
      else if f.flowState = .established ∨ p.lacksSyn = true then .established
      else .establishing := by
  have hopen : f.isFinished = false ∧ (f.flowState == .new) = false := by
    rcases hstate with hs | hs <;> rw [isFinished, hs] <;> exact ⟨rfl, rfl⟩
  rw [addPacket_state hopen.1, nextState, IPv4Packet.finishes, hopen.2, Bool.false_and,
    Bool.or_false]
  split
  · rfl
  · rcases hstate with hs | hs <;> rw [hs]
    · unfold IPv4Packet.lacksSyn
      cases ht : p.transport with
      | udp => exact absurd ht htcp
      | tcp flags => cases hsyn : hasFlag flags thSyn <;> simp [hsyn]
    · rw [if_pos (Or.inl rfl)]

/-- Segments finish a flow with FIN or RST, and establish it with the first one without SYN. -/
theorem state_of_segments {f : Flow R} {packets : List IPv4Packet}
    (htcp : ∀ q ∈ packets, q.transport ≠ .udp)
    (hstate : f.flowState = .establishing ∨ f.flowState = .established) :
    (f.addPackets S packets).flowState =
      if ∃ q ∈ packets, q.closes = true then .finished
      else if f.flowState = .established ∨ ∃ q ∈ packets, q.lacksSyn = true then .established
      else .establishing := by
  induction packets generalizing f with
  | nil =>
    simp only [List.not_mem_nil, false_and, exists_false, or_false, if_false]
    rcases hstate with hs | hs <;> rw [addPackets_nil, hs] <;> rfl
  | cons p packets ih =>
    obtain ⟨hhead, htail⟩ := List.forall_mem_cons.mp htcp
    have hstep := addPacket_segment (S := S) hhead hstate
    rw [addPackets_cons]
    cases hcloses : p.closes with
    | true =>
      rw [hcloses, if_pos rfl] at hstep
      rw [(addPackets_of_isFinished (by rw [isFinished, hstep]; rfl) packets).1, hstep,
        if_pos ⟨p, List.mem_cons_self, hcloses⟩]
    | false =>
      rw [hcloses, if_neg Bool.false_ne_true] at hstep
      have hstate' : (f.addPacket S p).flowState = .establishing ∨
          (f.addPacket S p).flowState = .established := by
        rw [hstep]
        split
        · exact Or.inr rfl
        · exact Or.inl rfl
      have hestablished : (f.addPacket S p).flowState = .established ↔
          f.flowState = .established ∨ p.lacksSyn = true := by
        rw [hstep]
        split
        next h => exact iff_of_true rfl h
        next h => exact iff_of_false (by decide) h
      rw [ih htail hstate']
      simp only [hestablished, List.exists_mem_cons_iff, hcloses, Bool.false_eq_true, false_or,
        or_assoc]

/-! ## From the first packet on -/

/-- The first packet of a flow. -/
theorem first_state (p : IPv4Packet) (stale : FirstBytes) (p₁ : IPv4Packet) :
    ((Flow.new S p stale).addPacket S p₁).flowState =
      if p₁.closes = true ∨ p₁.lacksSyn = true then .finished else .establishing := by
  rw [addPacket_state (f := Flow.new S p stale) rfl, nextState, IPv4Packet.finishes]
  simp only [show (Flow.new S p stale).flowState = .new from rfl, beq_self_eq_true, Bool.true_and,
    Bool.or_eq_true]

/-- The state of a flow of datagrams. -/
theorem datagrams_state {p : IPv4Packet} {stale : FirstBytes} {p₁ : IPv4Packet}
    {rest : List IPv4Packet} (hudp : ∀ q ∈ p₁ :: rest, q.transport = .udp) :
    (ofPackets S p stale (p₁ :: rest)).flowState =
      if ∃ q ∈ rest, p.tuple.packetDirection q.tuple = .destToOrig then .established
      else .establishing := by
  obtain ⟨hhead, htail⟩ := List.forall_mem_cons.mp hudp
  have hfirst := first_state (S := S) p stale p₁
  rw [IPv4Packet.closes, IPv4Packet.lacksSyn, hhead, if_neg (by decide)] at hfirst
  have hrun := state_of_datagrams (S := S) htail (Or.inl hfirst)
  rw [hfirst] at hrun
  unfold packetDirection at hrun
  simp only [addPacket_firstPacketTuple, reduceCtorEq, false_or] at hrun
  exact hrun

/-- The state of a flow of segments. -/
theorem segments_state {p : IPv4Packet} {stale : FirstBytes} {p₁ : IPv4Packet}
    {rest : List IPv4Packet} (htcp : ∀ q ∈ p₁ :: rest, q.transport ≠ .udp) :
    (ofPackets S p stale (p₁ :: rest)).flowState =
      if p₁.lacksSyn = true ∨ ∃ q ∈ p₁ :: rest, q.closes = true then .finished
      else if ∃ q ∈ rest, q.lacksSyn = true then .established
      else .establishing := by
  have hfirst := first_state (S := S) p stale p₁
  have hiff : (p₁.lacksSyn = true ∨ ∃ q ∈ p₁ :: rest, q.closes = true) ↔
      (p₁.closes = true ∨ p₁.lacksSyn = true) ∨ ∃ q ∈ rest, q.closes = true := by
    rw [List.exists_mem_cons_iff, or_left_comm, or_assoc]
  simp only [hiff]
  by_cases hends : p₁.closes = true ∨ p₁.lacksSyn = true
  · rw [if_pos hends] at hfirst
    rw [if_pos (Or.inl hends), ← hfirst]
    exact (addPackets_of_isFinished (by rw [isFinished, hfirst]; rfl) rest).1
  · rw [if_neg hends] at hfirst
    have hrun := state_of_segments (S := S) (List.forall_mem_cons.mp htcp).2 (Or.inl hfirst)
    rw [hfirst] at hrun
    simp only [reduceCtorEq, false_or] at hrun
    simp only [hends, false_or]
    exact hrun

theorem length_upToFinish_le (first : Bool) (packets : List IPv4Packet) :
    (IPv4Packet.upToFinish first packets).length ≤ packets.length := by
  induction packets generalizing first with
  | nil => exact Nat.le_refl _
  | cons p packets ih =>
    rw [IPv4Packet.upToFinish]
    split
    · exact Nat.succ_le_succ (Nat.zero_le _)
    · exact Nat.succ_le_succ (ih false)

/-- **The state of a flow is a function of its packets**, and so are its counters. -/
theorem trace_of_packets (S : Setup R) (p : IPv4Packet) (stale : FirstBytes) (p₁ : IPv4Packet)
    (rest : List IPv4Packet) (hlength : (p₁ :: rest).length < 2 ^ 32) :
    (ofPackets S p stale (p₁ :: rest)).overallPktCount.toNat = (p₁ :: rest).length ∧
    ((∀ q ∈ p₁ :: rest, q.transport = .udp) →
      (ofPackets S p stale (p₁ :: rest)).flowState =
        if ∃ q ∈ rest, p.tuple.packetDirection q.tuple = .destToOrig then .established
        else .establishing) ∧
    ((∀ q ∈ p₁ :: rest, q.transport ≠ .udp) →
      (ofPackets S p stale (p₁ :: rest)).flowState =
        if p₁.lacksSyn = true ∨ ∃ q ∈ p₁ :: rest, q.closes = true then .finished
        else if ∃ q ∈ rest, q.lacksSyn = true then .established
        else .establishing) ∧
    (ofPackets S p stale (p₁ :: rest)).pktCount.toNat =
      (IPv4Packet.upToFinish true (p₁ :: rest)).countP IPv4Packet.counts ∧
    ∀ k l : Nat, k ≤ l →
      (ofPackets S p stale ((p₁ :: rest).take k)).flowState.rank ≤
        (ofPackets S p stale ((p₁ :: rest).take l)).flowState.rank := by
  have hsmall : ∀ n ≤ (p₁ :: rest).length, (0 + UInt32.ofNat n).toNat = n := by
    intro n hn
    rw [UInt32.zero_add, UInt32.toNat_ofNat']
    exact Nat.mod_eq_of_lt (hn.trans_lt hlength)
  refine ⟨?_, datagrams_state, segments_state, ?_, fun k l hkl => ?_⟩
  · have hcount := overallPktCount_addPackets (S := S) (Flow.new S p stale) (p₁ :: rest)
    exact (congrArg UInt32.toNat hcount).trans (hsmall _ (Nat.le_refl _))
  · have hcount := dataSteps_length (S := S) (Flow.new S p stale) (p₁ :: rest)
    have hdata := dataSteps_of_open (S := S) (f := Flow.new S p stale) rfl (p₁ :: rest)
    rw [hdata] at hcount
    refine (congrArg UInt32.toNat hcount).trans (hsmall _ ?_)
    exact List.countP_le_length.trans (length_upToFinish_le _ _)
  · -- the longer prefix is the shorter one with more packets
    have hsplit := List.take_append_drop k ((p₁ :: rest).take l)
    rw [List.take_take, Nat.min_eq_left hkl] at hsplit
    have hrank := rank_addPackets (S := S) (ofPackets S p stale ((p₁ :: rest).take k))
      (((p₁ :: rest).take l).drop k)
    rw [← hsplit]
    exact hrank.trans (le_of_eq (congrArg (fun f => f.flowState.rank)
      (addPackets_append (Flow.new S p stale) _ _).symm))

/-- An answer to the datagram. -/
def oneByteAnswer : IPv4Packet := ⟨0x0200000a, 53, 0x0100000a, 1053, .udp, [2], ⟨0, 0⟩⟩

theorem twoDatagrams_established :
    (ofPackets (Setup.initial : Setup ℚ) oneByte (fun _ => 0)
        [oneByte, oneByteAnswer]).flowState = .established ∧
      (ofPackets (Setup.initial : Setup ℚ) oneByte (fun _ => 0)
        [oneByte, oneByteAnswer]).pktCount.toNat = 2 := by
  obtain ⟨-, hudp, -, hcount, -⟩ := trace_of_packets (Setup.initial : Setup ℚ) oneByte (fun _ => 0)
    oneByte [oneByteAnswer] (by decide)
  refine ⟨?_, hcount.trans (by decide)⟩
  rw [hudp (by decide), if_pos ⟨oneByteAnswer, List.mem_cons_self, by decide⟩]

end Flow

end Vsid
