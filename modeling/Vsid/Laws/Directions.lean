import Vsid.Laws.Steps
import Vsid.Lib.Counts

/-!
# Directions

Four classes count changes of direction, or bytes by direction, and keep nothing but two shares. With
every packet they turn the shares back into counts, by a total of their own or by the number of the
packet. In exact arithmetic the counts come out as they went in, so the shares are those of all
packets together (`directions_exact`). The number of the packet has 32 bits: `longFlow_divides` is
what happens to the two classes that divide by it, and to the limit of the first ten, when it starts
again.
-/

set_option autoImplicit false

namespace Vsid

/-- The directions of some packets of the flow. -/
def IPv4Tuple.directions (t : IPv4Tuple) (packets : List IPv4Packet) : List Direction :=
  packets.map fun q => t.packetDirection q.tuple

/-- The payload bytes that go in a direction. -/
def IPv4Tuple.bytesIn (t : IPv4Tuple) (d : Direction) (packets : List IPv4Packet) : Nat :=
  ((packets.filter fun q => t.packetDirection q.tuple == d).map (·.dataSize)).sum

namespace AttributeMeter

variable {k : MeterKind} {stale : FirstBytes} {obs : List Observation} {m : AttributeMeter ℝ}
  {t : IPv4Tuple} {packets : List IPv4Packet}

/-- The meter holds the share of the packets that change the direction, and the number of these
packets can be told from it. -/
structure HoldsChanges (t : IPv4Tuple) (packets : List IPv4Packet) (m : AttributeMeter ℝ) :
    Prop where
  share : packets ≠ [] →
    HoldsShare ((changes (t.directions packets) : ℝ) / (packets.length : ℝ)) m
  recovers : Double.trunc (m.fingerprint.getD 0 0 * (packets.length : ℝ)) =
    changes (t.directions packets)

/-- The meter holds the shares of the two directions in all bytes, and the bytes can be told from
them. -/
structure HoldsBytes (t : IPv4Tuple) (packets : List IPv4Packet) (m : AttributeMeter ℝ) :
    Prop where
  shares : Shares (t.bytesIn .origToDest packets) (t.bytesIn .destToOrig packets) m
  recovers : Double.trunc (m.fingerprint.getD 0 0 * (m.overall : ℝ)) =
      t.bytesIn .origToDest packets ∧
    Double.trunc (m.fingerprint.getD 1 0 * (m.overall : ℝ)) = t.bytesIn .destToOrig packets

/-- What the meters read of the flow says where its packets go. -/
def Directed (t : IPv4Tuple) (obs : List Observation) : Prop :=
  ∀ o ∈ obs, o.reading.currentPacketDirection = t.packetDirection o.packet.tuple ∧
    t.packetDirection o.packet.tuple ≠ .unknown

/-- … and numbers them from one. -/
inductive Recorded (t : IPv4Tuple) : List Observation → Prop where
  | nil : Recorded t []
  | concat {obs : List Observation} {o : Observation} (before : Recorded t obs)
      (number : o.reading.pktCount.toNat = obs.length + 1)
      (last : o.reading.lastPacketDirection =
        (t.directions (obs.map (·.packet))).getLastD .unknown)
      (current : o.reading.currentPacketDirection = t.packetDirection o.packet.tuple)
      (known : t.packetDirection o.packet.tuple ≠ .unknown) : Recorded t (obs ++ [o])

/-! ## Bytes -/

theorem HoldsBytes.of_shares
    (h : Shares (t.bytesIn .origToDest packets) (t.bytesIn .destToOrig packets) m) :
    HoldsBytes t packets m := by
  obtain ⟨htotal, hfp⟩ := h
  refine ⟨⟨htotal, hfp⟩, ?_, ?_⟩
  · rw [hfp, htotal]
    exact trunc_share (Nat.le_add_right _ _)
  · rw [hfp, htotal]
    exact trunc_share (Nat.le_add_left _ _)

theorem bytesIn_concat (d : Direction) (q : IPv4Packet) :
    t.bytesIn d (packets ++ [q]) =
      t.bytesIn d packets + if t.packetDirection q.tuple = d then q.dataSize else 0 := by
  unfold IPv4Tuple.bytesIn
  rw [List.filter_append, List.filter_singleton, List.map_append, List.sum_append]
  congr 1
  by_cases h : t.packetDirection q.tuple = d
  · rw [if_pos h, beq_iff_eq.mpr h]
    exact List.sum_singleton
  · rw [if_neg h, beq_eq_false_iff_ne.mpr h]
    rfl

/-- One more packet is added to the bytes of its direction. -/
theorem HoldsBytes.concat (h : HoldsBytes t packets m) {o : Observation}
    (hcurrent : o.reading.currentPacketDirection = t.packetDirection o.packet.tuple)
    (hknown : t.packetDirection o.packet.tuple ≠ .unknown) :
    HoldsBytes t (packets ++ [o.packet]) (m.countDirectionBytes o.reading o.packet) := by
  have hshares := (shares_countDirectionBytes h.shares o).2 (hcurrent ▸ hknown)
  refine .of_shares ?_
  rwa [bytesIn_concat, bytesIn_concat, ← hcurrent]

/-- A packet without data adds none. -/
theorem HoldsBytes.concat_of_empty (h : HoldsBytes t packets m) {q : IPv4Packet}
    (hempty : q.dataSize = 0) : HoldsBytes t (packets ++ [q]) m := by
  refine .of_shares ?_
  rw [bytesIn_concat, bytesIn_concat, hempty, ite_self, ite_self]
  exact h.shares

/-- **A class of byte counts that looks at all packets holds their shares.** -/
theorem holdsBytes_of_directed
    (hk : k = .directionBytesCount ∨ k = .directionBytesCountFirst10Packet)
    (hall : ∀ o ∈ obs, o.isCounted k = o.hasData) (hdirected : Directed t obs) :
    HoldsBytes t (obs.map (·.packet)) (measured k stale obs) := by
  induction obs using List.reverseRecOn with
  | nil =>
    refine .of_shares ⟨rfl, ?_⟩
    change (measured k stale [] : AttributeMeter ℝ).fingerprint =
      [((0 : ℕ) : ℝ) / ((0 : ℕ) : ℝ), ((0 : ℕ) : ℝ) / ((0 : ℕ) : ℝ)]
    rw [Nat.cast_zero, zero_div]
    rcases hk with rfl | rfl <;> rfl
  | append_singleton obs o ih =>
    obtain ⟨hcurrent, hknown⟩ := hdirected o (List.mem_append_right _ List.mem_cons_self)
    have ih := ih (fun o' ho' => hall o' (List.mem_append_left _ ho'))
      fun o' ho' => hdirected o' (List.mem_append_left _ ho')
    have hkind : Measures k (measured k stale obs : AttributeMeter ℝ) := measures_measured
    have hstep := calculate_direction (o := o) (hkind.kind.symm ▸ hk)
    rw [hkind.kind, hall o (List.mem_append_right _ List.mem_cons_self)] at hstep
    rw [measured_append, hstep, List.map_append, List.map_singleton]
    cases hdata : o.hasData with
    | true => exact ih.concat hcurrent hknown
    | false => exact ih.concat_of_empty (bne_eq_false_iff_eq.mp hdata)

/-! ## Changes -/

/-- One more packet is a change or none. -/
theorem HoldsChanges.concat (h : HoldsChanges t packets m) {o : Observation}
    (hnumber : o.reading.pktCount.toNat = packets.length + 1)
    (hlast : o.reading.lastPacketDirection = (t.directions packets).getLastD .unknown)
    (hcurrent : o.reading.currentPacketDirection = t.packetDirection o.packet.tuple)
    (hknown : t.packetDirection o.packet.tuple ≠ .unknown) :
    HoldsChanges t (packets ++ [o.packet]) (m.countDirectionChanges o.reading) := by
  have hpred : (o.reading.pktCount - 1).toNat = packets.length := by
    have hone : (1 : UInt32) ≤ o.reading.pktCount := by
      rw [UInt32.le_iff_toNat_le, hnumber]
      exact Nat.succ_le_succ (Nat.zero_le _)
    rw [UInt32.toNat_sub_of_le _ _ hone, hnumber]
    rfl
  have hchange : (if o.reading.lastPacketDirection ≠ o.reading.currentPacketDirection then
      changes (t.directions packets) + 1 else changes (t.directions packets)) =
        changes (t.directions (packets ++ [o.packet])) := by
    unfold IPv4Tuple.directions at hlast ⊢
    rw [List.map_append, List.map_singleton, changes_concat, hlast, hcurrent,
      List.getLastD_eq_getLast?]
    cases (packets.map fun q => t.packetDirection q.tuple).getLast? with
    | none =>
      -- before the first packet the direction is unknown, so the first one is a change
      rw [Option.getD_none, if_pos hknown.symm]
      rfl
    | some d =>
      rw [Option.getD_some]
      by_cases hd : d = t.packetDirection o.packet.tuple
      · rw [if_neg (not_not.mpr hd), if_pos (congrArg some hd), Nat.add_zero]
      · rw [if_pos hd, if_neg fun heq => hd (Option.some.inj heq)]
  have hshare : HoldsShare ((changes (t.directions (packets ++ [o.packet])) : ℝ) /
      ((packets ++ [o.packet]).length : ℝ)) (m.countDirectionChanges o.reading) := by
    unfold countDirectionChanges HoldsShare
    simp only [hpred, h.recovers, hchange, hnumber]
    rw [List.length_append, List.length_singleton]
  refine ⟨fun _ => hshare, ?_⟩
  rw [hshare]
  refine trunc_share ((changes_le_length _).trans (le_of_eq ?_))
  rw [IPv4Tuple.directions, List.length_map]

theorem holdsChanges_nil :
    HoldsChanges t [] (measured k stale []) := by
  refine ⟨fun hne => absurd rfl hne, ?_⟩
  rw [List.length_nil, Nat.cast_zero, mul_zero]
  exact Nat.floor_zero

/-- **A class of direction changes that looks at all packets holds their share.** -/
theorem holdsChanges_of_recorded
    (hk : k = .directionChanges ∨ k = .directionChangesFirst8Packets)
    (hall : ∀ o ∈ obs, o.isNumbered k = true) (hrecorded : Recorded t obs) :
    HoldsChanges t (obs.map (·.packet)) (measured k stale obs) := by
  induction hrecorded with
  | nil => exact holdsChanges_nil
  | @concat obs o before number last current known ih =>
    have ih := ih fun o' ho' => hall o' (List.mem_append_left _ ho')
    have hkind : Measures k (measured k stale obs : AttributeMeter ℝ) := measures_measured
    have hstep := calculate_changes (o := o) (hkind.kind.symm ▸ hk)
    rw [hkind.kind, hall o (List.mem_append_right _ List.mem_cons_self), if_pos rfl] at hstep
    rw [measured_append, hstep, List.map_append, List.map_singleton]
    exact ih.concat (by rw [number, List.length_map]) last current known

/-! ## The first packets -/

theorem Recorded.directed (h : Recorded t obs) : Directed t obs := by
  induction h with
  | nil => exact fun o ho => absurd ho List.not_mem_nil
  | concat before number last current known ih =>
    intro o' ho'
    rcases List.mem_append.mp ho' with hold | hlast
    · exact ih o' hold
    · rw [List.mem_singleton.mp hlast]
      exact ⟨current, known⟩

/-- The packets whose number is small are the first ones. -/
theorem Recorded.filter_eq_take (h : Recorded t obs) (limit : UInt32) :
    (obs.filter fun o => decide (o.reading.pktCount ≤ limit)) = obs.take limit.toNat ∧
      Recorded t (obs.take limit.toNat) := by
  induction h with
  | nil =>
    rw [List.take_nil]
    exact ⟨rfl, .nil⟩
  | @concat obs o before number last current known ih =>
    rw [List.filter_append, ih.1, List.filter_singleton]
    by_cases hsmall : o.reading.pktCount ≤ limit
    · have hle : obs.length + 1 ≤ limit.toNat := number ▸ UInt32.le_iff_toNat_le.mp hsmall
      rw [decide_eq_true hsmall, cond_true, List.take_of_length_le (by omega),
        List.take_of_length_le (by rw [List.length_append]; exact hle)]
      exact ⟨rfl, before.concat number last current known⟩
    · have hle : limit.toNat ≤ obs.length := by
        rw [UInt32.le_iff_toNat_le, number] at hsmall
        omega
      rw [decide_eq_false hsmall, cond_false, List.append_nil, List.take_append_of_le_length hle]
      exact ⟨rfl, ih.2⟩

theorem holdsChanges_first8 (h : Recorded t obs) :
    HoldsChanges t ((obs.map (·.packet)).take 8)
      (measured .directionChangesFirst8Packets stale obs) := by
  obtain ⟨hfilter, htake⟩ := h.filter_eq_take 8
  have hskip : (measured .directionChangesFirst8Packets stale obs : AttributeMeter ℝ) =
      measured .directionChangesFirst8Packets stale (obs.filter (Observation.isNumbered _)) :=
    measured_filter_of_skip fun m o hkind hlate => by
      rw [calculate_changes (Or.inr hkind), hkind, hlate, if_neg Bool.false_ne_true]
  rw [hskip, ← List.map_take]
  rw [show obs.filter (Observation.isNumbered .directionChangesFirst8Packets) = obs.take 8
    from hfilter]
  refine holdsChanges_of_recorded (Or.inr rfl) (fun o ho => ?_) htake
  rw [show obs.take 8 = obs.filter _ from hfilter.symm] at ho
  exact (List.mem_filter.mp ho).2

theorem holdsBytes_first10 (h : Recorded t obs) :
    HoldsBytes t ((obs.map (·.packet)).take 10)
      (measured .directionBytesCountFirst10Packet stale obs) := by
  obtain ⟨hfilter, htake⟩ := h.filter_eq_take 10
  have hskip : (measured .directionBytesCountFirst10Packet stale obs : AttributeMeter ℝ) =
      measured .directionBytesCountFirst10Packet stale
        (obs.filter fun o => decide (o.reading.pktCount ≤ 10)) :=
    measured_filter_of_skip fun m o hkind hlate => by
      rw [calculate_direction (Or.inr hkind), hkind, Observation.isCounted, hlate, Bool.and_false,
        if_neg Bool.false_ne_true]
  rw [hskip, hfilter, ← List.map_take]
  refine holdsBytes_of_directed (Or.inr rfl) (fun o ho => ?_) htake.directed
  rw [show obs.take 10 = obs.filter _ from hfilter.symm] at ho
  rw [Observation.isCounted, (List.mem_filter.mp ho).2, Bool.and_true]

end AttributeMeter

/-! ## What a flow records -/

namespace Flow

open AttributeMeter

section Records

variable {R : Type} [Double R] {S : Setup R}

theorem addPackets_concat (f : Flow R) (packets : List IPv4Packet) (q : IPv4Packet) :
    f.addPackets S (packets ++ [q]) = (f.addPackets S packets).addPacket S q :=
  addPackets_append f packets [q]

theorem addPackets_packetDirection (f : Flow R) (packets : List IPv4Packet) (q : IPv4Packet) :
    (f.addPackets S packets).packetDirection q = f.packetDirection q := by
  unfold packetDirection
  congr 1
  induction packets using List.reverseRecOn with
  | nil => rfl
  | append_singleton packets q ih => rw [addPackets_concat, addPacket_firstPacketTuple, ih]

theorem dataSteps_concat (f : Flow R) (packets : List IPv4Packet) (q : IPv4Packet) :
    f.dataSteps S (packets ++ [q]) = f.dataSteps S packets ++
      if (f.addPackets S packets).isDataPacket q then [(f.addPackets S packets, q)] else [] := by
  rw [dataSteps_append, dataSteps_cons]
  exact congrArg _ (List.append_nil _)

/-- The current direction is that of the last data packet. -/
theorem currentPacketDirection_addPackets (f : Flow R) (packets : List IPv4Packet) :
    (f.addPackets S packets).currentPacketDirection =
      ((f.dataSteps S packets).map fun s => f.packetDirection s.2).getLastD
        f.currentPacketDirection := by
  induction packets using List.reverseRecOn with
  | nil => rfl
  | append_singleton packets q ih =>
    rw [addPackets_concat, currentPacketDirection_addPacket, dataSteps_concat, ih,
      addPackets_packetDirection]
    split
    · rw [List.map_append, List.map_singleton, List.getLastD_concat]
    · rw [List.append_nil]

/-- Until a flow is classified and its data packets exceed the cutoff, all of them are measured. -/
theorem observations_of_open {f : Flow R} (hcount : f.pktCount = 0) {packets : List IPv4Packet}
    (hopen : (f.addPackets S packets).flowClassified = false)
    (hcutoff : (f.dataSteps S packets).length ≤ S.database.cutoffLimit.toNat) :
    (f.observations S packets).map (·.packet) = (f.dataSteps S packets).map Prod.snd := by
  induction packets using List.reverseRecOn with
  | nil => rfl
  | append_singleton packets q ih =>
    have hbefore : (f.addPackets S packets).flowClassified = false := by
      by_contra hclassified
      rw [addPackets_concat, addPacket_flowClassified S _ q (Bool.not_eq_false _ ▸ hclassified)]
        at hopen
      exact Bool.false_ne_true hopen.symm
    have hlength := hcutoff
    rw [dataSteps_concat, List.length_append] at hlength
    have ih := ih hbefore (Nat.le_of_add_right_le hlength)
    rw [dataSteps_concat, List.map_append, observations_append, List.map_append, ih]
    congr 1
    change ((f.addPackets S packets).observe S q).toList.map _ = _
    cases hobserve : (f.addPackets S packets).observe S q with
    | some o =>
      obtain ⟨hdata, -, -, rfl⟩ := observe_eq_some hobserve
      rw [hdata]
      rfl
    | none =>
      cases hdata : (f.addPackets S packets).isDataPacket q with
      | false => rfl
      | true =>
        -- its number is not above the cutoff, so it is examined
        have hexamined : ((f.addPackets S packets).examined S q).isSome = true := by
          refine examined_isSome_iff.mpr ⟨hdata, hbefore, ?_⟩
          rw [hdata, if_pos rfl, List.length_singleton] at hlength
          have hsmall := S.database.cutoffLimit.toNat_lt
          rw [dataSteps_length, hcount, UInt32.zero_add, UInt32.le_iff_toNat_le, UInt32.toNat_add,
            UInt32.toNat_ofNat', UInt32.toNat_one, Nat.mod_add_mod, Nat.mod_eq_of_lt (by omega)]
          exact hlength
        rw [observe, Option.map_eq_none_iff] at hobserve
        rw [hobserve] at hexamined
        exact absurd hexamined Bool.false_ne_true

variable {p : IPv4Packet} {stale : FirstBytes} {packets : List IPv4Packet} {q : IPv4Packet}
  {o : Observation}

/-- What the meters are shown next, as long as the counter has not started again. -/
theorem recorded_concat (hobserve : ((Flow.new S p stale).addPackets S packets).observe S q = some o)
    (hshort : ((Flow.new S p stale).dataSteps S packets).length + 1 < 2 ^ 32) :
    o.packet = q ∧
      o.reading.pktCount.toNat = ((Flow.new S p stale).observations S packets).length + 1 ∧
      o.reading.lastPacketDirection = (p.tuple.directions
        (((Flow.new S p stale).observations S packets).map (·.packet))).getLastD .unknown ∧
      o.reading.currentPacketDirection = p.tuple.packetDirection q.tuple := by
  obtain ⟨-, hopen, hcutoff, rfl⟩ := observe_eq_some hobserve
  have hcount : (((Flow.new S p stale).addPackets S packets).pktCount + 1).toNat =
      ((Flow.new S p stale).dataSteps S packets).length + 1 := by
    rw [dataSteps_length, show (Flow.new S p stale).pktCount = 0 from rfl, UInt32.zero_add,
      UInt32.toNat_add, UInt32.toNat_ofNat', UInt32.toNat_one, Nat.mod_add_mod,
      Nat.mod_eq_of_lt hshort]
  rw [UInt32.le_iff_toNat_le, hcount] at hcutoff
  have hall := observations_of_open rfl hopen (Nat.le_of_succ_le hcutoff)
  have hlength := congrArg List.length hall
  rw [List.length_map, List.length_map] at hlength
  refine ⟨rfl, ?_, ?_, ?_⟩
  · rw [hlength]
    exact hcount
  · rw [hall, IPv4Tuple.directions, List.map_map]
    exact currentPacketDirection_addPackets _ _
  · exact addPackets_packetDirection _ _ _

/-- **What the meters of a flow are shown is recorded in order.** -/
theorem recorded_observations
    (hknown : ∀ q ∈ packets, p.tuple.packetDirection q.tuple ≠ .unknown)
    (hshort : ∀ x ∈ (Flow.new S p stale).numbered S packets, x.2 < 2 ^ 32) :
    Recorded p.tuple ((Flow.new S p stale).observations S packets) := by
  induction packets using List.reverseRecOn with
  | nil => exact .nil
  | append_singleton packets q ih =>
    have hnumbered := numbered_concat (S := S) (Flow.new S p stale) packets q
    have ih := ih (fun q' hq' => hknown q' (List.mem_append_left _ hq'))
      fun x hx => hshort x (hnumbered ▸ List.mem_append_left _ hx)
    rw [observations_append]
    change Recorded _ (_ ++ (((Flow.new S p stale).addPackets S packets).observe S q).toList)
    cases hobserve : ((Flow.new S p stale).addPackets S packets).observe S q with
    | none =>
      rw [Option.toList_none, List.append_nil]
      exact ih
    | some o =>
      rw [hobserve] at hnumbered
      have hnumber : (o, ((Flow.new S p stale).dataSteps S packets).length + 1) ∈
          (Flow.new S p stale).numbered S (packets ++ [q]) :=
        hnumbered ▸ List.mem_append_right _ List.mem_cons_self
      obtain ⟨rfl, hcount, hlast, hcurrent⟩ := recorded_concat hobserve (hshort _ hnumber)
      exact ih.concat hcount hlast hcurrent
        (hknown _ (List.mem_append_right _ List.mem_cons_self))

/-- The directions are those of the packets, however many there are. -/
theorem directed_observations
    (hknown : ∀ q ∈ packets, p.tuple.packetDirection q.tuple ≠ .unknown) :
    Directed p.tuple ((Flow.new S p stale).observations S packets) := by
  induction packets using List.reverseRecOn with
  | nil => exact fun o ho => absurd ho List.not_mem_nil
  | append_singleton packets q ih =>
    intro o ho
    rw [observations_append] at ho
    rcases List.mem_append.mp ho with hold | hlast
    · exact ih (fun q' hq' => hknown q' (List.mem_append_left _ hq')) o hold
    · obtain ⟨-, -, -, rfl⟩ := observe_eq_some (Option.mem_toList.mp hlast)
      refine ⟨addPackets_packetDirection (S := S) _ packets q, ?_⟩
      exact hknown q (List.mem_append_right _ List.mem_cons_self)

end Records

/-- What the meters are shown. -/
def shown (l : List (Observation × Nat)) : List IPv4Packet := l.map (·.1.packet)

/-- The classes of changes, and of the bytes of the first ten, hold along a run what all packets
that they are shown amount to, and the number of the next packet is the one after them. -/
structure CountsAlong (S : Setup ℝ) (p : IPv4Packet) (stale : FirstBytes)
    (packets : List IPv4Packet) : Prop where
  changes : S.factory.enabledAttributes .directionChanges = true →
    HoldsAlong S .directionChanges p stale packets fun l am => HoldsChanges p.tuple (shown l) am
  changesFirst8 : S.factory.enabledAttributes .directionChangesFirst8Packets = true →
    HoldsAlong S .directionChangesFirst8Packets p stale packets
      fun l am => HoldsChanges p.tuple ((shown l).take 8) am
  bytesFirst10 : S.factory.enabledAttributes .directionBytesCountFirst10Packet = true →
    HoldsAlong S .directionBytesCountFirst10Packet p stale packets
      fun l am => HoldsBytes p.tuple ((shown l).take 10) am
  divisor : ∀ seen q o, seen ++ [q] <+: packets →
    (ofPackets S p stale seen).observe S q = some o →
      (o.reading.pktCount - 1).toNat = (shown ((Flow.new S p stale).numbered S seen)).length

/-- The class of bytes does so whatever the numbers are. -/
def BytesAlong (S : Setup ℝ) (p : IPv4Packet) (stale : FirstBytes) (packets : List IPv4Packet) :
    Prop :=
  S.factory.enabledAttributes .directionBytesCount = true →
    HoldsAlong S .directionBytesCount p stale packets
      fun l am => HoldsBytes p.tuple (shown l) am

/-- **The direction meters hold what all packets amount to.** For every flow, every sequence of
packets of known direction and after every prefix of it: the class of bytes always, and the classes
that look at the number of the packet as long as no packet is measured whose number does not fit
into 32 bits. -/
theorem directions_exact (S : Setup ℝ) (p : IPv4Packet) (stale : FirstBytes)
    (packets : List IPv4Packet)
    (hknown : ∀ q ∈ packets, p.tuple.packetDirection q.tuple ≠ .unknown) :
    BytesAlong S p stale packets ∧
      ((∀ x ∈ (Flow.new S p stale).numbered S packets, x.2 < 2 ^ 32) →
        CountsAlong S p stale packets) := by
  have hshown : ∀ l : List (Observation × Nat), (l.map Prod.fst).map (·.packet) = shown l :=
    fun l => List.map_map
  constructor
  · intro hk
    refine (holdsAlong_iff hk).mpr fun l hl => ?_
    rw [← hshown]
    refine holdsBytes_of_directed (Or.inl rfl) (fun _ _ => rfl) fun o ho => ?_
    have hmem : o ∈ (Flow.new S p stale).observations S packets := by
      rw [← numbered_map_fst]
      exact (hl.map Prod.fst).subset ho
    exact directed_observations hknown o hmem
  · intro hshort
    have hrecorded : ∀ l, l <+: (Flow.new S p stale).numbered S packets →
        Recorded p.tuple (l.map Prod.fst) := by
      intro l hl
      obtain ⟨seen, hseen, rfl⟩ := exists_prefix_of_numbered hl
      rw [numbered_map_fst]
      exact recorded_observations (fun q hq => hknown q (hseen.subset hq))
        fun x hx => hshort x (hl.subset hx)
    refine ⟨fun hk => (holdsAlong_iff hk).mpr fun l hl => ?_,
      fun hk => (holdsAlong_iff hk).mpr fun l hl => ?_,
      fun hk => (holdsAlong_iff hk).mpr fun l hl => ?_, ?_⟩
    · rw [← hshown]
      exact holdsChanges_of_recorded (Or.inl rfl) (fun _ _ => rfl) (hrecorded l hl)
    · rw [← hshown]
      exact holdsChanges_first8 (hrecorded l hl)
    · rw [← hshown]
      exact holdsBytes_first10 (hrecorded l hl)
    · rintro seen q o ⟨more, rfl⟩ hobserve
      have hnumber : (o, ((Flow.new S p stale).dataSteps S seen).length + 1) ∈
          (Flow.new S p stale).numbered S (seen ++ [q] ++ more) := by
        refine (numbered_isPrefix _ (seen ++ [q]) more).subset ?_
        rw [numbered_concat, show (Flow.new S p stale).addPackets S seen = ofPackets S p stale seen
          from rfl, hobserve]
        exact List.mem_append_right _ List.mem_cons_self
      obtain ⟨-, hcount, -⟩ := recorded_concat hobserve (hshort _ hnumber)
      have hone : (1 : UInt32) ≤ o.reading.pktCount := by
        rw [UInt32.le_iff_toNat_le, hcount]
        exact Nat.succ_le_succ (Nat.zero_le _)
      rw [← hshown, numbered_map_fst, List.length_map, UInt32.toNat_sub_of_le _ _ hone, hcount]
      rfl

/-- A program that records directions. -/
noncomputable def recordsDirections : Setup ℝ :=
  recordingWith fun k => k == .directionChanges || k == .directionBytesCount

/-- A request and its answer: a change with every packet, and two thirds of the bytes come back. -/
theorem request_directions :
    (∃ am, (ofPackets recordsDirections oneByte (fun _ => 0) [oneByte, answerTo oneByte [2, 3]]
        ).attributeMetersMap .directionChanges = some am ∧ am.fingerprint = [1, 0]) ∧
      ∃ am, (ofPackets recordsDirections oneByte (fun _ => 0) [oneByte, answerTo oneByte [2, 3]]
        ).attributeMetersMap .directionBytesCount = some am ∧ am.fingerprint = [1 / 3, 2 / 3] := by
  obtain ⟨hbytes, hcounts⟩ := directions_exact recordsDirections oneByte (fun _ => 0)
    [oneByte, answerTo oneByte [2, 3]] (by decide)
  obtain ⟨am, hfound, hholds⟩ := hbytes rfl _ List.prefix_rfl
  have hshort : ∀ x ∈ (Flow.new recordsDirections oneByte fun _ => 0).numbered recordsDirections
      [oneByte, answerTo oneByte [2, 3]], x.2 < 2 ^ 32 := by
    intro x hx
    have hle : x.2 ≤ 2 := (pktCount_of_numbered hx).2.2.2
    omega
  obtain ⟨am', hfound', hholds'⟩ := (hcounts hshort).changes rfl _ List.prefix_rfl
  refine ⟨⟨am', hfound', (hholds'.share (List.cons_ne_nil _ _)).trans ?_⟩, am, hfound,
    hholds.shares.2.trans ?_⟩
  · change [((2 : ℕ) : ℝ) / ((2 : ℕ) : ℝ), 1 - ((2 : ℕ) : ℝ) / ((2 : ℕ) : ℝ)] = [1, 0]
    norm_num
  · change [((1 : ℕ) : ℝ) / ((1 + 2 : ℕ) : ℝ), ((2 : ℕ) : ℝ) / ((1 + 2 : ℕ) : ℝ)] = [1 / 3, 2 / 3]
    norm_num

/-! ## After `2 ^ 32` packets -/

/-- While the program learns, no packet classifies a flow. -/
theorem addPackets_learning {S : Setup ℝ} (hmode : S.config.learningMode = true) (f : Flow ℝ)
    (packets : List IPv4Packet) : (f.addPackets S packets).flowClassified = f.flowClassified := by
  induction packets using List.reverseRecOn with
  | nil => rfl
  | append_singleton packets q ih =>
    rw [addPackets_concat, ← ih]
    cases hexamined : (f.addPackets S packets).examined S q with
    | none => exact (addPacket_sameResult hexamined).flowClassified
    | some g =>
      rw [addPacket_of_examined hexamined]
      unfold classify
      rw [hmode, Bool.not_true, Bool.false_and, if_neg Bool.false_ne_true]
      exact (examined_sameResult hexamined).1.flowClassified

/-- The datagram after `2 ^ 32 - 1` others has the number zero. -/
theorem observe_longFlow {n : Nat} (hn : n + 1 = 2 ^ 32) :
    ∃ o, (ofPackets recordsDirections oneByte (fun _ => 0) (List.replicate n oneByte)).observe
      recordsDirections oneByte = some o ∧ o.reading.pktCount = 0 := by
  have hudp : ∀ q ∈ List.replicate n oneByte, q.transport = .udp := by
    intro q hq
    rw [List.eq_of_mem_replicate hq]
    rfl
  obtain ⟨hopen, hdata⟩ := addPackets_udp (S := recordsDirections)
    (f := Flow.new recordsDirections oneByte fun _ => 0) rfl hudp
  rw [List.length_replicate] at hdata
  have hcount : (ofPackets recordsDirections oneByte (fun _ => 0)
      (List.replicate n oneByte)).pktCount + 1 = 0 := by
    have hnumber := dataSteps_length (S := recordsDirections)
      (Flow.new recordsDirections oneByte fun _ => 0) (List.replicate n oneByte)
    rw [hdata, show (Flow.new recordsDirections oneByte fun _ => 0).pktCount = 0 from rfl,
      UInt32.zero_add] at hnumber
    change ((Flow.new recordsDirections oneByte fun _ => 0).addPackets recordsDirections
      (List.replicate n oneByte)).pktCount + 1 = 0
    rw [hnumber, ← UInt32.toNat_inj, UInt32.toNat_add, UInt32.toNat_ofNat', UInt32.toNat_one,
      Nat.mod_add_mod, hn]
    rfl
  have hexamined : ((ofPackets recordsDirections oneByte (fun _ => 0)
      (List.replicate n oneByte)).examined recordsDirections oneByte).isSome = true := by
    refine examined_isSome_iff.mpr ⟨isDataPacket_udp rfl hopen, addPackets_learning rfl _ _, ?_⟩
    rw [hcount]
    decide
  obtain ⟨g, hg⟩ := Option.isSome_iff_exists.mp hexamined
  refine ⟨_, congrArg (Option.map _) hg, ?_⟩
  obtain ⟨-, rfl⟩ := eq_of_examined hg
  exact (congrArg (· + 1) (advance_pktCount _ _)).trans hcount

/-- A packet with the number zero makes the share zero, in which a change would show. -/
theorem not_holdsChanges_of_zero {m : AttributeMeter ℝ} {t : IPv4Tuple}
    {packets : List IPv4Packet} {reading : FlowReading} (hzero : reading.pktCount = 0)
    (hne : packets ≠ []) : ¬ HoldsChanges t packets (m.countDirectionChanges reading) := by
  intro h
  have hfirst := congrArg (·.getD 0 0) (h.share hne)
  have hnone : ((m.countDirectionChanges reading).fingerprint.getD 0 0 : ℝ) = 0 := by
    unfold countDirectionChanges
    simp only [hzero, UInt32.toNat_zero, Nat.cast_zero, div_zero]
    rfl
  refine (div_pos ?_ ?_).ne' (hfirst.symm.trans hnone)
  · rw [Nat.cast_pos]
    obtain ⟨q, rest, rfl⟩ := List.exists_cons_of_ne_nil hne
    exact Nat.lt_of_lt_of_le Nat.one_pos (Nat.le_add_right 1 _)
  · rw [Nat.cast_pos]
    exact List.length_pos_of_ne_nil hne

/-- The last datagram is measured, and the share divided by zero. -/
theorem longFlow_divides :
    (∃ o, (ofPackets recordsDirections oneByte (fun _ => 0)
        (List.replicate (2 ^ 32 - 1) oneByte)).observe recordsDirections oneByte = some o ∧
      o.reading.pktCount = 0) ∧
    ¬ HoldsAlong recordsDirections .directionChanges oneByte (fun _ => 0)
      (List.replicate (2 ^ 32) oneByte) fun l am => HoldsChanges oneByte.tuple (shown l) am := by
  have hlength : 2 ^ 32 - 1 + 1 = 2 ^ 32 := by norm_num
  obtain ⟨o, hobserve, hzero⟩ := observe_longFlow hlength
  refine ⟨⟨o, hobserve, hzero⟩, fun h => ?_⟩
  rw [← hlength, List.replicate_succ'] at h
  generalize List.replicate (2 ^ 32 - 1) oneByte = packets at hobserve h
  obtain ⟨am, hfound, hholds⟩ := h _ List.prefix_rfl
  have hobservations : (Flow.new recordsDirections oneByte fun _ => 0).observations
      recordsDirections (packets ++ [oneByte]) =
        (Flow.new recordsDirections oneByte fun _ => 0).observations recordsDirections packets ++
          [o] := by
    rw [observations_append]
    exact congrArg (fun seen => _ ++ seen.toList) hobserve
  have hkind : Measures .directionChanges (measured .directionChanges (fun _ => 0)
      ((Flow.new recordsDirections oneByte fun _ => 0).observations recordsDirections packets) :
        AttributeMeter ℝ) := measures_measured
  have hlooks : o.isNumbered .directionChanges = true := rfl
  rw [attributeMetersMap_ofPackets rfl, Option.some_inj, hobservations, measured_append,
    calculate_changes (Or.inl hkind.kind), hkind.kind, hlooks, if_pos rfl] at hfound
  rw [← hfound] at hholds
  refine not_holdsChanges_of_zero hzero ?_ hholds
  have hshown : shown ((Flow.new recordsDirections oneByte fun _ => 0).numbered recordsDirections
      (packets ++ [oneByte])) = (((Flow.new recordsDirections oneByte fun _ => 0).observations
        recordsDirections packets ++ [o]).map (·.packet)) := by
    rw [← hobservations, ← numbered_map_fst, List.map_map]
    rfl
  rw [hshown, List.map_append]
  exact List.append_ne_nil_of_right_ne_nil _ (List.cons_ne_nil _ _)

end Flow

end Vsid
