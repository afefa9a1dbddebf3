import Vsid.Laws.Observations

/-!
# What is compared with a model

The comparison of a meter with its expectation treats both as probability distributions, after
smoothing. `Observes` says, class by class, which packets have to be among those that a flow's meter
was shown for its values to be one; `distributions_iff` says that it says so. The stored expectation
is one whenever it was one in the database.
-/

set_option autoImplicit false

namespace Vsid

open AttributeMeter

/-! ## What a class has to see -/

/-- Where the class divides by the number of the packet, that number is not zero. The counter has 32
bits. -/
def Divides (k : MeterKind) (obs : List Observation) : Prop :=
  k = .directionChanges ∨ k = .directionChangesFirst8Packets →
    ∀ o ∈ obs, o.isNumbered k = true → o.reading.pktCount ≠ 0

/-- The packets give the class something to weigh. -/
def Observes (k : MeterKind) (obs : List Observation) : Prop :=
  match k with
  | .byteFrequency => ∃ o ∈ obs, o.hasData = true
  | .first4ByteFrequency => ∃ o ∈ obs, o.hasData = true
  | .first16ByteFrequency => ∃ o ∈ obs, o.hasData = true
  | .byteFrequencyFirstDestToOrigPacket => ∃ o ∈ obs, o.hasData = true
  | .byteFrequencyFirstOrigToDestPacket => ∃ o ∈ obs, o.isFirst = true
  | .entropyFirstOrigToDestPacket => ∃ o ∈ obs, o.isFirst = true
  -- the total is the size of the last payload, so there is one only
  | .byteFrequencyFirst8Packets => (obs.filter Observation.isEarly).length = 1
  | .directionBytesCount => ∃ o ∈ obs, (o.isCounted k && o.isDirected) = true
  | .directionBytesCountFirst10Packet => ∃ o ∈ obs, (o.isCounted k && o.isDirected) = true
  | .directionChanges => ∃ o ∈ obs, o.isNumbered k = true
  | .directionChangesFirst8Packets => ∃ o ∈ obs, o.isNumbered k = true
  -- four bytes are counted in the total, however many there are
  | .firstBitPositions =>
    (∃ o ∈ obs, o.hasData = true) ∧ ∀ o ∈ obs, o.hasData = true → 4 ≤ o.packet.dataSize
  | .actionReactionFirst3ByteHash => ∃ o ∈ obs, o.isReaction = true
  | .payloadSizeFirstPacket =>
    ∀ o ∈ (obs.filter (·.reading.isFirstPacket)).getLast?, o.packet.dataSize < 2 * o.maxSize
  | .rtmpRegexMatch => True

theorem Observation.covered_ne_nil_iff {k : MeterKind} {o : Observation}
    (hk : k = .byteFrequency ∨ k = .first4ByteFrequency ∨ k = .first16ByteFrequency) :
    o.covered k ≠ [] ↔ o.hasData = true := by
  have hdata : o.packet.data ≠ [] ↔ o.hasData = true := by
    rw [Observation.hasData, bne_iff_ne, Ne, Ne, AttributeMeter.dataSize_eq_zero_iff]
  rw [← hdata]
  rcases hk with rfl | rfl | rfl <;>
    simp only [Observation.covered, ne_eq, List.take_eq_nil_iff, OfNat.ofNat_ne_zero, false_or]

theorem Observation.covered_first_ne_nil_iff {o : Observation} :
    o.covered .byteFrequencyFirstOrigToDestPacket ≠ [] ↔ o.isFirst = true := by
  unfold Observation.covered Observation.isFirst Observation.hasData
  cases o.reading.isFirstPacket with
  | false => exact ⟨fun h => absurd rfl h, fun h => absurd h Bool.false_ne_true⟩
  | true => rw [if_pos rfl, Bool.true_and, bne_iff_ne, Ne, Ne, AttributeMeter.dataSize_eq_zero_iff]

/-- **A meter weighs what it has seen exactly when it has seen enough.** -/
theorem observes_iff {k : MeterKind} {stale : FirstBytes} {obs : List Observation} :
    Divides k obs ∧ (measured k stale obs : AttributeMeter ℝ).Weighs ↔
      Divides k obs ∧ Observes k obs := by
  refine and_congr_right fun hdivides => ?_
  cases k with
  | byteFrequency | first4ByteFrequency | first16ByteFrequency =>
    refine (weighsWhen_covered (by decide)).2.trans
      (exists_congr fun o => and_congr_right fun _ => ?_)
    exact Observation.covered_ne_nil_iff (by decide)
  | byteFrequencyFirstOrigToDestPacket =>
    refine (weighsWhen_covered (by decide)).2.trans
      (exists_congr fun o => and_congr_right fun _ => ?_)
    exact Observation.covered_first_ne_nil_iff
  | byteFrequencyFirstDestToOrigPacket => exact weighsWhen_first.2
  | entropyFirstOrigToDestPacket => exact weighs_entropy.1
  | byteFrequencyFirst8Packets => exact weighsWhen_early.2
  | directionBytesCount => exact (weighsWhen_direction (Or.inl rfl)).2
  | directionBytesCountFirst10Packet => exact (weighsWhen_direction (Or.inr rfl)).2
  | directionChanges =>
    exact (weighsWhen_changes (Or.inl rfl) (hdivides (Or.inl rfl))).2
  | directionChangesFirst8Packets =>
    exact (weighsWhen_changes (Or.inr rfl) (hdivides (Or.inr rfl))).2
  | firstBitPositions => exact weighsWhen_bits.2
  | actionReactionFirst3ByteHash => exact weighsWhen_reactions.2
  | payloadSizeFirstPacket => exact weighs_payloadSize.1
  | rtmpRegexMatch => exact iff_true_intro isWeighed_rtmp.weighs

/-! ## What the meters of a flow were shown -/

namespace Flow

variable {R : Type} [Double R] {S : Setup R}

/-- The flow that a packet opens, after some packets. -/
def ofPackets (S : Setup R) (p : IPv4Packet) (stale : FirstBytes) (packets : List IPv4Packet) :
    Flow R :=
  packets.foldl (fun f p => f.addPacket S p) (Flow.new S p stale)

/-- What the meters see of one packet. -/
def observe (S : Setup R) (f : Flow R) (p : IPv4Packet) : Option Observation :=
  (f.examined S p).map fun g => { reading := g.reading, packet := p }

/-- What the meters see of some packets. -/
def observations (S : Setup R) : Flow R → List IPv4Packet → List Observation
  | _, [] => []
  | f, p :: packets => (f.observe S p).toList ++ (f.addPacket S p).observations S packets

theorem observations_append (f : Flow R) (packets : List IPv4Packet) (q : IPv4Packet) :
    f.observations S (packets ++ [q]) = f.observations S packets ++
      ((packets.foldl (fun f p => f.addPacket S p) f).observe S q).toList := by
  induction packets generalizing f with
  | nil => exact List.append_nil _
  | cons p packets ih =>
    rw [List.cons_append, observations, observations, ih, List.append_assoc, List.foldl_cons]

/-- **The meters hold what they were shown.** -/
theorem attributeMeters_ofPackets (p : IPv4Packet) (stale : FirstBytes)
    (packets : List IPv4Packet) :
    (ofPackets S p stale packets).attributeMeters =
      (MeterKind.all.filter S.factory.enabledAttributes).map fun k =>
        measured k stale ((Flow.new S p stale).observations S packets) := by
  induction packets using List.reverseRecOn with
  | nil => rfl
  | append_singleton packets q ih =>
    rw [observations_append]
    unfold ofPackets at ih ⊢
    rw [List.foldl_append, List.foldl_cons, List.foldl_nil]
    unfold observe
    cases hexamined :
      (packets.foldl (fun f p => f.addPacket S p) (Flow.new S p stale)).examined S q with
    | none =>
      rw [addPacket_attributeMeters hexamined, Option.map_none, Option.toList_none, List.append_nil]
      exact ih
    | some g =>
      rw [addPacket_of_examined hexamined, classify_attributeMeters,
        examined_attributeMeters hexamined, ih, List.map_map, Option.map_some, Option.toList_some]
      exact List.map_congr_left fun k _ =>
        (measured_append { reading := g.reading, packet := q }).symm

theorem attributeMeters_examined {p : IPv4Packet} {stale : FirstBytes}
    {packets : List IPv4Packet} {q : IPv4Packet} {g : Flow R}
    (h : (ofPackets S p stale packets).examined S q = some g) :
    g.attributeMeters = (MeterKind.all.filter S.factory.enabledAttributes).map fun k =>
      measured k stale ((Flow.new S p stale).observations S (packets ++ [q])) := by
  have hall := attributeMeters_ofPackets (S := S) p stale (packets ++ [q])
  unfold ofPackets at hall h
  rwa [List.foldl_append, List.foldl_cons, List.foldl_nil, addPacket_of_examined h,
    classify_attributeMeters] at hall

/-- The meter of an enabled class. -/
theorem attributeMetersMap_of_measured {g : Flow R} {stale : FirstBytes} {obs : List Observation}
    (h : g.attributeMeters = (MeterKind.all.filter S.factory.enabledAttributes).map fun k =>
      measured k stale obs) {k : MeterKind} (hk : S.factory.enabledAttributes k = true) :
    g.attributeMetersMap k = some (measured k stale obs) := by
  have hmem : k ∈ MeterKind.all.filter S.factory.enabledAttributes :=
    List.mem_filter.mpr ⟨by cases k <;> decide, hk⟩
  unfold attributeMetersMap
  rw [h]
  generalize MeterKind.all.filter S.factory.enabledAttributes = kinds at hmem
  induction kinds with
  | nil => exact absurd hmem List.not_mem_nil
  | cons k' kinds ih =>
    have hkind : (measured k' stale obs : AttributeMeter R).kind = k' := measures_measured.kind
    rw [List.map_cons, List.find?_cons, hkind]
    by_cases heq : k' = k
    · rw [heq, beq_self_eq_true]
    · rw [beq_eq_false_iff_ne.mpr heq]
      exact ih ((List.mem_cons.mp hmem).resolve_left fun h => heq h.symm)

/-- … after some packets. -/
theorem attributeMetersMap_ofPackets {k : MeterKind} (hk : S.factory.enabledAttributes k = true)
    (p : IPv4Packet) (stale : FirstBytes) (packets : List IPv4Packet) :
    (ofPackets S p stale packets).attributeMetersMap k =
      some (measured k stale ((Flow.new S p stale).observations S packets)) :=
  attributeMetersMap_of_measured (attributeMeters_ofPackets p stale packets) hk

end Flow

/-! ## The comparison -/

/-- The values that the comparison takes the logarithm of are positive, and add up to one. -/
def AttributeMeter.Smoothed (m : AttributeMeter ℝ) (n : Nat) : Prop :=
  (∀ i < n, 0 < m.atPos i * m.klFixMultiplier + m.klFixIncrement) ∧
    ∑ i ∈ Finset.range n, (m.atPos i * m.klFixMultiplier + m.klFixIncrement) = 1

theorem AttributeMeter.smoothed_iff (m : AttributeMeter ℝ) :
    m.Smoothed m.kind.fingerprintSize ↔ m.Weighs :=
  and_congr (forall₂_congr fun _ _ => smooth_pos_iff) sum_smooth_iff

/-- A database as reading it leaves it: the meters say that they were read, have the size of their
class, and the class of an enabled one is enabled. -/
def Stored {R : Type} (factory : AttributeMeterFactory) (db : ProtocolModelDb R) : Prop :=
  ∀ pm ∈ db.protocolModelOrder, ∀ am ∈ pm.attributeMeters,
    am.fromDb = true ∧ am.fingerprint.length = am.kind.fingerprintSize ∧
      (am.enabled = true → factory.enabledAttributes am.kind = true)

theorem stored_of_read {R : Type} [Double R] {Y : Conversions R} {stale : FirstBytes} {now : Int}
    {factory factory' : AttributeMeterFactory} {root : Yaml} {file : ProtocolModelFile R}
    (hread : ProtocolModelFile.read Y stale now factory root = some (file, factory')) :
    Stored factory' file.toProtocolModelDb := by
  intro pm hpm am ham
  obtain ⟨hlength, henabled⟩ := (ProtocolModelFile.wellFormed_of_read hread).2 pm hpm am ham
  exact ⟨ProtocolModelFile.fromDb_of_read hread pm hpm am ham, hlength, henabled⟩

/-- A stored distribution is smoothed to one. -/
theorem smoothed_of_stored {am : AttributeMeter ℝ} (hdb : am.fromDb = true)
    (hlength : am.fingerprint.length = am.kind.fingerprintSize)
    (h : IsDistribution am.kind.fingerprintSize fun i => am.fingerprint.getD i 0) :
    am.Smoothed am.kind.fingerprintSize := by
  have hat : ∀ i < am.kind.fingerprintSize, am.atPos i = am.fingerprint.getD i 0 := fun i hi =>
    atPos_of_fromDb hdb (hlength.symm ▸ hi)
  exact (AttributeMeter.smoothed_iff am).mpr (IsWeighed.weighs ((isDistribution_congr hat).mpr h))

/-- **Both sides of the comparison are distributions exactly when the flow's meter has seen
enough.** For every flow that a packet opens in a program whose database was read, every sequence of
packets and every packet after them that is examined: for every enabled meter of every model there
is a meter of the flow, and the following holds under one condition on the packets. Nothing was
divided by zero, the smoothed values of the flow's meter are positive and add up to one, and so do
those of the model's meter if its fingerprint is a distribution. -/
theorem distributions_iff {S : Setup ℝ} (hstored : Stored S.factory S.database) {p : IPv4Packet}
    {stale : FirstBytes} {packets : List IPv4Packet} {q : IPv4Packet} {g : Flow ℝ}
    (hg : (Flow.ofPackets S p stale packets).examined S q = some g) {pm : ProtocolModel ℝ}
    (hpm : pm ∈ S.database.protocolModelOrder) {pmAm : AttributeMeter ℝ}
    (hpmAm : pmAm ∈ pm.attributeMeters) (hon : pmAm.enabled = true) :
    ∃ am, g.attributeMetersMap pmAm.kind = some am ∧
      ((Divides pmAm.kind ((Flow.new S p stale).observations S (packets ++ [q])) ∧
          am.Smoothed pmAm.size ∧
          (IsDistribution pmAm.size (fun i => pmAm.fingerprint.getD i 0) →
            pmAm.Smoothed pmAm.size)) ↔
        Divides pmAm.kind ((Flow.new S p stale).observations S (packets ++ [q])) ∧
          Observes pmAm.kind ((Flow.new S p stale).observations S (packets ++ [q]))) := by
  obtain ⟨hdb, hlength, henabled⟩ := hstored pm hpm pmAm hpmAm
  refine ⟨_, Flow.attributeMetersMap_of_measured (Flow.attributeMeters_examined hg) (henabled hon),
    ?_⟩
  rw [← @observes_iff _ stale, ← AttributeMeter.smoothed_iff, measures_measured.kind,
    show pmAm.size = pmAm.kind.fingerprintSize from hlength]
  refine and_congr_right fun _ => and_iff_left fun h => ?_
  exact smoothed_of_stored hdb hlength h

/-- The expectation that all bytes are alike. -/
noncomputable def uniformBytes : AttributeMeter ℝ :=
  { (create .byteFrequency fun _ => 0 : AttributeMeter ℝ) with
    fromDb := true
    enabled := true
    flowCount := 1
    fingerprint := List.replicate 256 (1 / 256) }

/-- A program that knows one protocol, by the bytes of its payloads, and decides at once. -/
noncomputable def knowsByBytes : Setup ℝ :=
  { (Setup.initial : Setup ℝ) with
    database :=
      { (ProtocolModelDb.initial : ProtocolModelDb ℝ) with
        definingLimit := 1
        protocolModelOrder :=
          [{ name := "DNS", flowCount := 1, enabled := true, portHints := []
             attributeMeters := [uniformBytes] }] }
    factory := { enabledAttributes := fun k => k == .byteFrequency } }

theorem stored_knowsByBytes : Stored knowsByBytes.factory knowsByBytes.database := by
  intro pm hpm am ham
  cases List.mem_singleton.mp hpm
  cases List.mem_singleton.mp ham
  exact ⟨rfl, List.length_replicate, fun _ => rfl⟩

/-- A datagram of one byte is compared as a distribution. -/
theorem oneByte_smoothed :
    ∃ g am, (Flow.ofPackets knowsByBytes Flow.oneByte (fun _ => 0) []).examined knowsByBytes
        Flow.oneByte = some g ∧
      g.attributeMetersMap .byteFrequency = some am ∧ am.Smoothed uniformBytes.size := by
  have hexamined : (Flow.ofPackets knowsByBytes Flow.oneByte (fun _ => 0) []).examined knowsByBytes
      Flow.oneByte = some _ := rfl
  obtain ⟨am, hfound, hiff⟩ :=
    distributions_iff stored_knowsByBytes hexamined List.mem_cons_self List.mem_cons_self rfl
  refine ⟨_, am, hexamined, hfound, (hiff.mpr ⟨fun h => ?_, ?_⟩).2.1⟩
  · rcases h with h | h <;> cases h
  · exact ⟨_, List.mem_cons_self, rfl⟩

/-- A datagram without data. -/
def emptyDatagram : IPv4Packet := { Flow.oneByte with data := [] }

/-- A flow without data is compared with a distribution, and is none. -/
theorem emptyDatagram_not_smoothed :
    ∃ g am, (Flow.ofPackets knowsByBytes emptyDatagram (fun _ => 0) []).examined knowsByBytes
        emptyDatagram = some g ∧
      knowsByBytes.database.definingLimit ≤ g.pktCount ∧ g.flowClassified = false ∧
      g.attributeMetersMap uniformBytes.kind = some am ∧
      ∑ i ∈ Finset.range uniformBytes.size,
        (am.atPos i * am.klFixMultiplier + am.klFixIncrement) ≠ 1 := by
  have hexamined : (Flow.ofPackets knowsByBytes emptyDatagram (fun _ => 0) []).examined
      knowsByBytes emptyDatagram = some _ := rfl
  have hfound := Flow.attributeMetersMap_of_measured (Flow.attributeMeters_examined hexamined)
    (k := .byteFrequency) rfl
  refine ⟨_, _, hexamined, UInt32.le_refl 1, rfl, hfound, fun hsum => ?_⟩
  generalize hobs : (Flow.new knowsByBytes emptyDatagram fun _ => 0).observations knowsByBytes
    ([] ++ [emptyDatagram]) = obs at hsum
  have hcovered : (measured .byteFrequency (fun _ => 0) obs : AttributeMeter ℝ).WeighsWhen
    (∃ o ∈ obs, o.covered .byteFrequency ≠ []) := weighsWhen_covered (by decide)
  obtain ⟨hnonneg, hiff⟩ := hcovered
  have hkind : (measured .byteFrequency (fun _ => 0) obs : AttributeMeter ℝ).kind =
    .byteFrequency := measures_measured.kind
  rw [hkind] at hnonneg
  have hsize : uniformBytes.size = MeterKind.byteFrequency.fingerprintSize :=
    List.length_replicate
  have hsmoothed : (measured .byteFrequency (fun _ => 0) obs : AttributeMeter ℝ).Smoothed
      uniformBytes.size := by
    refine ⟨fun i hi => smooth_pos_iff.mpr ?_, hsum⟩
    exact lt_of_lt_of_le neg_one_lt_zero (hnonneg i (hsize ▸ hi))
  have hweighs := (AttributeMeter.smoothed_iff _).mp (by rwa [hkind, ← hsize])
  rw [hiff, ← hobs] at hweighs
  obtain ⟨o, ho, hdata⟩ := hweighs
  cases List.mem_singleton.mp ho
  exact hdata rfl

end Vsid
