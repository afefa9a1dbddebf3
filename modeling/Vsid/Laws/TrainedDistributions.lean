import Vsid.Laws.Training
import Vsid.Lib.Run

/-!
# Training and distributions

Merging mixes what the flow's meter holds into the fingerprint of the model's, so a distribution
stays one when the flow's meter is one (`Trained.merge`), and that depends on the packets of the
flow (`isWeighed_iff_fills`). A run of the training in which every flow has the packets that its
model asks for keeps all fingerprints distributions (`distributed_of_run`).
-/

set_option autoImplicit false

namespace Vsid

open AttributeMeter

/-! ## The first payload -/

namespace Flow

variable {R : Type} [Double R] {S : Setup R}

/-- A first payload was taken, and another one will not be. -/
def Opened (f : Flow R) : Prop := f.flowState ≠ .new ∧ f.firstOrigToDestData ≠ []

omit [Double R] in
theorem Opened.advance {f : Flow R} (h : f.Opened) (p : IPv4Packet) :
    (f.advance p).1.Opened ∧ (f.advance p).1.isFirstPacket = false := by
  obtain ⟨hstate, hdata⟩ := h
  have hempty : f.firstOrigToDestData.isEmpty = false := by
    rwa [Bool.eq_false_iff, Ne, List.isEmpty_iff]
  unfold Opened Flow.advance
  cases hs : f.flowState with
  | new => exact absurd hs hstate
  | _ =>
    cases p.transport <;> simp only [hempty, Bool.false_and, Bool.false_eq_true, if_false] <;>
      (repeat' split) <;>
      simp only [arrive, enter, hs, ne_eq, reduceCtorEq, not_false_eq_true, hdata, and_self]

omit [Double R] in
/-- A payload that is marked as the first one is taken. -/
theorem opened_of_first {f : Flow R} {p : IPv4Packet} (hnil : p.data ≠ [])
    (hfirst : (f.advance p).1.isFirstPacket = true) : (f.advance p).1.Opened := by
  have htake : p.data.take packetMaxBufferSize ≠ [] := by
    rw [Ne, List.take_eq_nil_iff, not_or]
    exact ⟨by decide, hnil⟩
  unfold Opened
  unfold Flow.advance at hfirst ⊢
  cases hs : f.flowState <;> cases ht : p.transport <;> simp only [hs, ht] at hfirst ⊢ <;>
    (repeat' split) <;> simp_all [arrive, enter, takeFirstPacket]

theorem addPacket_firstOrigToDestData (f : Flow R) (p : IPv4Packet) :
    (f.addPacket S p).firstOrigToDestData = (f.advance p).1.firstOrigToDestData := by
  cases hexamined : f.examined S p with
  | none =>
    rcases addPacket_of_not_examined hexamined with h | h <;> rw [h]
    rfl
  | some g =>
    obtain ⟨-, rfl⟩ := eq_of_examined hexamined
    obtain ⟨_, _, _, _, _, h⟩ :=
      classify_frame S ((((f.advance p).1.countPacket p).calculate p).touch p)
    rw [addPacket_of_examined hexamined, h]
    rfl

theorem opened_addPacket_iff {f : Flow R} {p : IPv4Packet} :
    (f.addPacket S p).Opened ↔ (f.advance p).1.Opened := by
  unfold Opened
  rw [addPacket_flowState, addPacket_firstOrigToDestData]

theorem isFirst_observe {f : Flow R} {p : IPv4Packet} {o : Observation}
    (h : f.observe S p = some o) (hfirst : o.isFirst = true) :
    p.data ≠ [] ∧ (f.advance p).1.isFirstPacket = true := by
  obtain ⟨g, hg, rfl⟩ := Option.map_eq_some_iff.mp h
  obtain ⟨hpacket, hdata⟩ := Bool.and_eq_true_iff.mp hfirst
  refine ⟨fun hnil => bne_iff_ne.mp hdata (AttributeMeter.dataSize_eq_zero_iff.mpr hnil), ?_⟩
  obtain ⟨-, rfl⟩ := eq_of_examined hg
  exact hpacket

theorem countP_first_of_opened {f : Flow R} (h : f.Opened) (packets : List IPv4Packet) :
    (f.observations S packets).countP Observation.isFirst = 0 := by
  induction packets generalizing f with
  | nil => rfl
  | cons p packets ih =>
    obtain ⟨hopened, hfirst⟩ := h.advance p
    rw [observations, List.countP_append, ih (opened_addPacket_iff.mpr hopened), Nat.add_zero]
    refine List.countP_eq_zero.mpr fun o ho hisFirst => ?_
    have hseen := (isFirst_observe (Option.mem_toList.mp ho) hisFirst).2
    exact Bool.false_ne_true (hfirst.symm.trans hseen)

/-- A flow has one first payload at most. -/
theorem countP_first_le (f : Flow R) (packets : List IPv4Packet) :
    (f.observations S packets).countP Observation.isFirst ≤ 1 := by
  induction packets generalizing f with
  | nil => exact Nat.zero_le 1
  | cons p packets ih =>
    rw [observations, List.countP_append]
    cases hobserve : f.observe S p with
    | none =>
      rw [Option.toList_none, List.countP_nil, Nat.zero_add]
      exact ih _
    | some o =>
      rw [Option.toList_some, List.countP_singleton]
      cases hfirst : o.isFirst with
      | false =>
        rw [if_neg Bool.false_ne_true, Nat.zero_add]
        exact ih _
      | true =>
        obtain ⟨hdata, hpacket⟩ := isFirst_observe hobserve hfirst
        rw [countP_first_of_opened (opened_addPacket_iff.mpr (opened_of_first hdata hpacket)),
          if_pos rfl]

end Flow

/-! ## What a class has to see -/

/-- The packets give the class a distribution: something to weigh, and no first payload that is
larger than a frame. -/
def Fills (k : MeterKind) (obs : List Observation) : Prop :=
  Observes k obs ∧ (k = .payloadSizeFirstPacket →
    ∀ o ∈ (obs.filter (·.reading.isFirstPacket)).getLast?, o.packet.dataSize ≤ o.maxSize)

/-- The other classes never hold anything negative. -/
theorem nonneg_measured {k : MeterKind} {stale : FirstBytes} {obs : List Observation}
    (hdivides : Divides k obs) (hk : k ≠ .payloadSizeFirstPacket)
    (hk' : k ≠ .entropyFirstOrigToDestPacket) :
    ∀ i < (measured k stale obs : AttributeMeter ℝ).kind.fingerprintSize,
      0 ≤ (measured k stale obs : AttributeMeter ℝ).atPos i := by
  cases k with
  | payloadSizeFirstPacket => exact absurd rfl hk
  | entropyFirstOrigToDestPacket => exact absurd rfl hk'
  | byteFrequency | first4ByteFrequency | first16ByteFrequency
  | byteFrequencyFirstOrigToDestPacket =>
    exact (weighsWhen_covered (by decide)).1
  | byteFrequencyFirstDestToOrigPacket => exact weighsWhen_first.1
  | byteFrequencyFirst8Packets => exact weighsWhen_early.1
  | directionBytesCount => exact (weighsWhen_direction (Or.inl rfl)).1
  | directionBytesCountFirst10Packet => exact (weighsWhen_direction (Or.inr rfl)).1
  | directionChanges => exact (weighsWhen_changes (Or.inl rfl) (hdivides (Or.inl rfl))).1
  | directionChangesFirst8Packets =>
    exact (weighsWhen_changes (Or.inr rfl) (hdivides (Or.inr rfl))).1
  | firstBitPositions => exact weighsWhen_bits.1
  | actionReactionFirst3ByteHash => exact weighsWhen_reactions.1
  | rtmpRegexMatch => exact (isDistribution_iff.mp isWeighed_rtmp).1

/-- **A flow's meter is a distribution exactly when the packets give its class one.** -/
theorem isWeighed_iff_fills {k : MeterKind} {stale : FirstBytes} {obs : List Observation}
    (hdivides : Divides k obs) (hone : obs.countP Observation.isFirst ≤ 1) :
    (measured k stale obs : AttributeMeter ℝ).IsWeighed ↔ Fills k obs := by
  have hobserves : (measured k stale obs : AttributeMeter ℝ).Weighs ↔ Observes k obs := by
    have hiff := @observes_iff k stale obs
    rwa [and_congr_right_iff, imp_iff_right hdivides] at hiff
  unfold Fills
  rw [← hobserves]
  by_cases hsize : k = .payloadSizeFirstPacket
  · subst hsize
    rw [weighs_payloadSize.2, weighs_payloadSize.1, imp_iff_right rfl]
    refine ⟨fun h => ⟨fun o ho => ?_, h⟩, fun h => h.2⟩
    have hle := h o ho
    have hmax : 0 < o.maxSize := by
      unfold Observation.maxSize
      split <;> decide
    omega
  · rw [and_iff_left fun h => absurd h hsize]
    by_cases hentropy : k = .entropyFirstOrigToDestPacket
    · subst hentropy
      refine ⟨IsWeighed.weighs, fun h => weighs_entropy.2 ?_⟩
      have hsome := List.countP_pos_iff.mpr (weighs_entropy.1.mp h)
      exact Nat.le_antisymm hone hsome
    · exact isWeighed_iff (nonneg_measured hdivides hsize hentropy)

/-! ## Merging -/

/-- The meter has not been trained, or its fingerprint is a distribution. -/
def AttributeMeter.Trained (am : AttributeMeter ℝ) : Prop :=
  am.flowCount = 0 ∨ IsDistribution am.kind.fingerprintSize fun i => am.fingerprint.getD i 0

theorem toNat_succ {n : UInt32} (h : n + 1 ≠ 0) : (n + 1).toNat = n.toNat + 1 := by
  have hlt := n.toNat_lt
  have hne : n.toNat + 1 ≠ 2 ^ 32 := by
    intro heq
    refine h (UInt32.toNat_inj.mp ?_)
    rw [UInt32.toNat_add, UInt32.toNat_one, heq, Nat.mod_self]
    rfl
  rw [UInt32.toNat_add, UInt32.toNat_one, Nat.mod_eq_of_lt (by omega)]

/-- What is merged is a weighted mean. The weights are the shares of the flows. -/
theorem AttributeMeter.getD_merge {am other : AttributeMeter ℝ} (hkind : other.kind = am.kind)
    (hdb : am.fromDb = true) (hcount : am.flowCount + 1 ≠ 0) {i : Nat}
    (hi : i < am.fingerprint.length) :
    (am.merge other).fingerprint.getD i 0 =
      (am.flowCount.toNat / ((am.flowCount.toNat + 1 : ℕ) : ℝ)) * am.fingerprint.getD i 0 +
        (1 / ((am.flowCount.toNat + 1 : ℕ) : ℝ)) * other.atPos i := by
  rw [merge_of_kind hkind hdb, toNat_succ hcount,
    List.getD_eq_getElem _ _ (by rwa [List.length_mapIdx]), List.getElem_mapIdx,
    List.getD_eq_getElem _ _ hi]
  ring

/-- **Merging a distribution leaves a distribution.** -/
theorem AttributeMeter.Trained.merge {am other : AttributeMeter ℝ} (h : am.Trained)
    (hlength : am.fingerprint.length = am.kind.fingerprintSize) (hcount : am.flowCount + 1 ≠ 0)
    (hother : other.kind = am.kind → other.IsWeighed) : (am.merge other).Trained := by
  by_cases hmerges : other.kind = am.kind ∧ am.fromDb = true
  · obtain ⟨hkind, hdb⟩ := hmerges
    have hweighed := hother hkind
    unfold IsWeighed at hweighed
    rw [hkind] at hweighed
    right
    rw [ProtocolModelFile.merge_kind,
      isDistribution_congr fun i hi => getD_merge hkind hdb hcount (hlength ▸ hi)]
    rcases h with hzero | hdist
    · refine (isDistribution_congr fun i _ => ?_).mpr hweighed
      rw [hzero, UInt32.toNat_zero, Nat.cast_zero, zero_div, zero_mul, zero_add, Nat.zero_add,
        Nat.cast_one, div_one, one_mul]
    · refine hdist.mix hweighed (by positivity) (by positivity) ?_
      rw [← add_div, ← Nat.cast_succ, div_self (Nat.cast_ne_zero.mpr (Nat.succ_ne_zero _))]
  · have hsame : am.merge other = am := by
      unfold AttributeMeter.merge
      split
      · rfl
      next hkind =>
        rw [if_pos]
        rw [Bool.not_eq_true', Bool.eq_false_iff]
        exact fun hdb => hmerges ⟨not_not.mp hkind, hdb⟩
    rwa [hsame]

/-- A flow that shows nothing takes its share of the weight away. -/
theorem AttributeMeter.not_trained_merge {am other : AttributeMeter ℝ}
    (hdist : IsDistribution am.kind.fingerprintSize fun i => am.fingerprint.getD i 0)
    (hlength : am.fingerprint.length = am.kind.fingerprintSize) (hkind : other.kind = am.kind)
    (hdb : am.fromDb = true) (hcount : am.flowCount + 1 ≠ 0)
    (hnothing : ∀ i < am.kind.fingerprintSize, other.atPos i = 0) : ¬ (am.merge other).Trained := by
  rintro (hzero | htrained)
  · rw [merge_of_kind hkind hdb] at hzero
    exact hcount hzero
  · rw [ProtocolModelFile.merge_kind,
      isDistribution_congr fun i hi => getD_merge hkind hdb hcount (hlength ▸ hi)] at htrained
    have hsum := (isDistribution_iff.mp htrained).2
    have hterm : ∀ i ∈ Finset.range am.kind.fingerprintSize,
        (am.flowCount.toNat / ((am.flowCount.toNat + 1 : ℕ) : ℝ)) * am.fingerprint.getD i 0 +
            (1 / ((am.flowCount.toNat + 1 : ℕ) : ℝ)) * other.atPos i =
          (am.flowCount.toNat / ((am.flowCount.toNat + 1 : ℕ) : ℝ)) * am.fingerprint.getD i 0 := by
      intro i hi
      rw [hnothing i (Finset.mem_range.mp hi), mul_zero, add_zero]
    rw [Finset.sum_congr rfl hterm, ← Finset.mul_sum, (isDistribution_iff.mp hdist).2, mul_one,
      div_eq_one_iff_eq (Nat.cast_ne_zero.mpr (Nat.succ_ne_zero _)), Nat.cast_inj] at hsum
    exact absurd hsum (Nat.ne_of_lt (Nat.lt_succ_self _))

/-! ## Training runs -/

/-- A flow that has finished, and the packets that it is of. -/
structure FinishedFlow (S : Setup ℝ) where
  flow : Flow ℝ
  opening : IPv4Packet
  stale : FirstBytes
  packets : List IPv4Packet
  made : flow.attributeMeters = (Flow.ofPackets S opening stale packets).attributeMeters

namespace FinishedFlow

variable {S : Setup ℝ}

/-- What its meters were shown. -/
noncomputable def seen (a : FinishedFlow S) : List Observation :=
  (Flow.new S a.opening a.stale).observations S a.packets

/-- Every flow that the observers are handed is one. -/
theorem exists_of_reported (hseq : S.config.workerThreadsPerQueue = 0)
    {packets : List IPv4Packet} {m : FlowManager ℝ} (h : FlowManager.Sequential S packets m)
    {f : Flow ℝ} (hf : f ∈ m.reported) : ∃ a : FinishedFlow S, a.flow = f := by
  obtain ⟨p, stale, packets', hmade⟩ := h.reported hseq hf
  exact ⟨⟨f, p, stale, packets', hmade⟩, rfl⟩

theorem metered (a : FinishedFlow S) : a.flow.Metered S := by
  have hmade := Flow.metered_ofPackets (S := S) a.opening a.stale a.packets
  unfold Flow.Metered at hmade ⊢
  rwa [a.made]

/-- The meter of a class, if the class is enabled. -/
theorem attributeMetersMap_eq (a : FinishedFlow S) (k : MeterKind) :
    a.flow.attributeMetersMap k =
      if S.factory.enabledAttributes k then some (measured k a.stale a.seen) else none := by
  by_cases hk : S.factory.enabledAttributes k = true
  · rw [if_pos hk]
    exact Flow.attributeMetersMap_of_measured
      (a.made.trans (Flow.attributeMeters_ofPackets a.opening a.stale a.packets)) hk
  · rw [if_neg hk, ← Option.isNone_iff_eq_none, ← Option.not_isSome]
    rw [(a.metered.filter k).2, Bool.not_eq_true']
    exact Bool.eq_false_iff.mpr hk

end FinishedFlow

namespace ProtocolModelUpdater

variable {S : Setup ℝ} {u u' : ProtocolModelUpdater ℝ}

/-- A flow has finished. -/
noncomputable def train (S : Setup ℝ) (u : ProtocolModelUpdater ℝ) (a : FinishedFlow S) :
    Option (ProtocolModelUpdater ℝ) :=
  some (u.flowFinished S a.flow)

/-- The packets of the flow give every class a distribution for which the model that learns from it
has a meter, and the meter can count the flow. -/
def Teaches (S : Setup ℝ) (u : ProtocolModelUpdater ℝ) (a : FinishedFlow S) : Prop :=
  ∀ i pm, u.target S a.flow = some i → u.database.protocolModelOrder[i]? = some pm →
    ∀ j am, pm.Learns S j am →
      Divides am.kind a.seen ∧ Fills am.kind a.seen ∧ am.flowCount + 1 ≠ 0

/-- Every meter of the database has its size, and its fingerprint is a distribution if it was
trained. -/
def Distributed (db : ProtocolModelDb ℝ) : Prop :=
  ∀ pm ∈ db.protocolModelOrder, ∀ am ∈ pm.attributeMeters,
    am.fingerprint.length = am.kind.fingerprintSize ∧ am.Trained

/-- What a model makes of one finished flow. -/
theorem learn_attributeMeters (pm : ProtocolModel ℝ) (a : FinishedFlow S) :
    (pm.learn a.flow.attributeMeters).attributeMeters = pm.attributeMeters.mapIdx fun j am =>
      if pm.find am.kind = some j ∧ S.factory.enabledAttributes am.kind = true then
        am.merge (measured am.kind a.stale a.seen)
      else am := by
  have hlearn := ProtocolModel.learnAll_eq pm [a.flow.attributeMeters]
  rw [List.foldl_cons, List.foldl_nil, List.flatten_singleton] at hlearn
  rw [hlearn]
  refine congrArg (List.mapIdx · pm.attributeMeters) (funext₂ fun j am => ?_)
  rw [(a.metered.filter am.kind).1, a.attributeMetersMap_eq]
  by_cases hfind : pm.find am.kind = some j
  · by_cases hk : S.factory.enabledAttributes am.kind = true
    · rw [if_pos hfind, if_pos hk, if_pos ⟨hfind, hk⟩]
      rfl
    · rw [if_pos hfind, if_neg hk, if_neg fun h => hk h.2]
      rfl
  · rw [if_neg hfind, if_neg fun h => hfind h.1]

/-- One flow. -/
theorem Distributed.train (h : Distributed u.database.toProtocolModelDb) {a : FinishedFlow S}
    (hteaches : Teaches S u a) :
    Distributed (u.flowFinished S a.flow).database.toProtocolModelDb := by
  rw [flowFinished_database]
  intro pm' hpm' am' ham'
  obtain ⟨i, hi, rfl⟩ := List.mem_mapIdx.mp hpm'
  generalize hpm : u.database.protocolModelOrder[i] = pm at ham'
  have hmem : pm ∈ u.database.protocolModelOrder := hpm ▸ List.getElem_mem hi
  by_cases htarget : u.target S a.flow = some i
  · rw [if_pos (beq_iff_eq.mpr htarget), learn_attributeMeters] at ham'
    obtain ⟨j, hj, rfl⟩ := List.mem_mapIdx.mp ham'
    obtain ⟨hlength, htrained⟩ := h pm hmem _ (List.getElem_mem hj)
    generalize ham : pm.attributeMeters[j] = am at hlength htrained ⊢
    by_cases hmerges : pm.find am.kind = some j ∧ S.factory.enabledAttributes am.kind = true
    · obtain ⟨hdivides, hfills, hcount⟩ := hteaches i pm htarget
        (hpm ▸ List.getElem?_eq_getElem hi) j am
        ⟨ham ▸ List.getElem?_eq_getElem hj, hmerges⟩
      rw [if_pos hmerges]
      constructor
      · rw [ProtocolModelFile.merge_kind, ProtocolModelFile.merge_length, hlength]
      · exact htrained.merge hlength hcount fun _ =>
          (isWeighed_iff_fills hdivides (Flow.countP_first_le _ _)).mpr hfills
    · rw [if_neg hmerges]
      exact ⟨hlength, htrained⟩
  · rw [if_neg fun heq => htarget (beq_iff_eq.mp heq)] at ham'
    exact h pm hmem am' ham'

/-- **Training with flows that give every meter something to see keeps the fingerprints
distributions.** Every flow that the manager reports is such a finished flow, and whatever else it
is. -/
theorem distributed_of_run (hinit : Distributed u.database.toProtocolModelDb)
    (hrun : Run (train S) (Teaches S) u u') :
    Distributed u'.database.toProtocolModelDb ∧
      (S.config.workerThreadsPerQueue = 0 →
        ∀ (packets : List IPv4Packet) (m : FlowManager ℝ), FlowManager.Sequential S packets m →
          ∀ f ∈ m.reported, ∃ a : FinishedFlow S, a.flow = f) := by
  refine ⟨?_, fun hseq packets m h f hf => FinishedFlow.exists_of_reported hseq h hf⟩
  refine hrun.invariant (I := fun u => Distributed u.database.toProtocolModelDb) hinit ?_
  intro t a t' ht hteaches hstep
  cases hstep
  exact ht.train hteaches

/-- The program in which `knowsByBytes` is trained. -/
noncomputable def trainsByBytes : Setup ℝ :=
  { knowsByBytes with
    config := { (CommonConfig.initial : CommonConfig ℝ) with learningMode := true } }

theorem distributed_dnsTraining : Distributed dnsTraining.database.toProtocolModelDb := by
  intro pm hpm am ham
  cases List.mem_singleton.mp hpm
  cases List.mem_singleton.mp ham
  refine ⟨List.length_replicate, Or.inr (isDistribution_iff.mpr ?_)⟩
  have hvalue : ∀ i < 256, uniformBytes.fingerprint.getD i 0 = 1 / 256 := fun i hi =>
    List.getD_replicate _ hi
  constructor
  · intro i hi
    rw [hvalue i hi]
    positivity
  · rw [show uniformBytes.kind.fingerprintSize = 256 from rfl,
      Finset.sum_congr rfl fun i hi => hvalue i (Finset.mem_range.mp hi), Finset.sum_const,
      Finset.card_range]
    norm_num

/-- Two datagrams of one byte. -/
noncomputable def twoBytes : FinishedFlow trainsByBytes :=
  { flow := Flow.ofPackets trainsByBytes Flow.oneByte (fun _ => 0) [Flow.oneByte, Flow.oneByte]
    opening := Flow.oneByte
    stale := fun _ => 0
    packets := [Flow.oneByte, Flow.oneByte]
    made := rfl }

theorem twoBytes_fills :
    Divides uniformBytes.kind twoBytes.seen ∧ Fills uniformBytes.kind twoBytes.seen := by
  refine ⟨fun h => ?_, ⟨_, List.mem_cons_self, rfl⟩, fun h => by cases h⟩
  rcases h with h | h <;> cases h

/-- A datagram of two bytes, after one without data. -/
noncomputable def lateBytes : FinishedFlow trainsByBytes :=
  { flow := Flow.ofPackets trainsByBytes emptyDatagram (fun _ => 0)
      [emptyDatagram, { Flow.oneByte with data := [2, 3] }]
    opening := emptyDatagram
    stale := fun _ => 0
    packets := [emptyDatagram, { Flow.oneByte with data := [2, 3] }]
    made := rfl }

theorem lateBytes_fills :
    Divides uniformBytes.kind lateBytes.seen ∧ Fills uniformBytes.kind lateBytes.seen := by
  refine ⟨fun h => ?_, ⟨_, List.mem_cons_of_mem _ List.mem_cons_self, rfl⟩, fun h => by cases h⟩
  rcases h with h | h <;> cases h

/-- The two flows finish one after the other. -/
theorem twoBytes_distributed :
    Distributed
      ((dnsTraining.flowFinished trainsByBytes twoBytes.flow).flowFinished trainsByBytes
        lateBytes.flow).database.toProtocolModelDb := by
  have hfirst : Teaches trainsByBytes dnsTraining twoBytes := by
    intro i pm _ hpm j am hlearns
    cases List.mem_singleton.mp (List.mem_of_getElem? hpm)
    cases List.mem_singleton.mp (List.mem_of_getElem? hlearns.1)
    exact ⟨twoBytes_fills.1, twoBytes_fills.2, by decide⟩
  have hmodels : (dnsTraining.flowFinished trainsByBytes
      twoBytes.flow).database.protocolModelOrder.map (·.attributeMeters) =
        [[uniformBytes.merge (measured .byteFrequency (fun _ => 0) twoBytes.seen)]] := rfl
  have hsecond : Teaches trainsByBytes (dnsTraining.flowFinished trainsByBytes twoBytes.flow)
      lateBytes := by
    intro i pm _ hpm j am hlearns
    have hmeters := List.mem_map_of_mem (f := (·.attributeMeters)) (List.mem_of_getElem? hpm)
    rw [hmodels, List.mem_singleton] at hmeters
    have ham := List.mem_of_getElem? hlearns.1
    rw [hmeters, List.mem_singleton] at ham
    have hcount : (uniformBytes.merge (measured .byteFrequency (fun _ => 0)
        twoBytes.seen)).flowCount + 1 ≠ 0 := by
      show (uniformBytes.flowCount + 1 + 1 : UInt32) ≠ 0
      decide
    rw [ham, ProtocolModelFile.merge_kind]
    exact ⟨lateBytes_fills.1, lateBytes_fills.2, hcount⟩
  exact (distributed_of_run distributed_dnsTraining
    (.tail lateBytes (.tail twoBytes .refl hfirst rfl) hsecond rfl)).1

/-- Two datagrams without data are reported as a flow. -/
noncomputable def twoEmpty : Flow ℝ :=
  Flow.ofPackets trainsByBytes emptyDatagram (fun _ => 0) [emptyDatagram, emptyDatagram]

/-- After a capture of them the fingerprint adds up to a half. -/
theorem twoEmpty_not_distributed :
    ∃ m : FlowManager ℝ,
      (FlowManager.addPackets trainsByBytes [emptyDatagram, emptyDatagram]).finished
        (FlowManager.tableOrder trainsByBytes [emptyDatagram, emptyDatagram]) = some m ∧
      m.reported = [twoEmpty] ∧ Distributed dnsTraining.database.toProtocolModelDb ∧
      ¬ Distributed
        (m.reported.foldl (flowFinished trainsByBytes) dnsTraining).database.toProtocolModelDb := by
  have hreported : ((FlowManager.addPackets trainsByBytes [emptyDatagram, emptyDatagram]).finished
      (FlowManager.tableOrder trainsByBytes [emptyDatagram, emptyDatagram])).map
        FlowManager.reported = some [twoEmpty] := rfl
  obtain ⟨m, hm, hreported⟩ := Option.map_eq_some_iff.mp hreported
  refine ⟨m, hm, hreported, distributed_dnsTraining, fun h => ?_⟩
  rw [hreported] at h
  have hmodels : ([twoEmpty].foldl (flowFinished trainsByBytes)
      dnsTraining).database.protocolModelOrder.map (·.attributeMeters) =
        [[uniformBytes.merge (create .byteFrequency fun _ => 0)]] := rfl
  obtain ⟨pm, hpm, hmeters⟩ := List.mem_map.mp (hmodels ▸ List.mem_cons_self)
  obtain ⟨-, htrained⟩ := h pm hpm _ (hmeters ▸ List.mem_cons_self)
  have huniform : uniformBytes.fingerprint.length = uniformBytes.kind.fingerprintSize ∧
    uniformBytes.Trained := distributed_dnsTraining _ List.mem_cons_self _ List.mem_cons_self
  have hdist := huniform.2.resolve_left (by decide)
  have hnothing : ∀ i < uniformBytes.kind.fingerprintSize,
      (create .byteFrequency fun _ => 0 : AttributeMeter ℝ).atPos i = 0 := by
    intro i hi
    have hzeroes : (create .byteFrequency fun _ => 0 : AttributeMeter ℝ).fingerprint =
      List.replicate uniformBytes.kind.fingerprintSize 0 := rfl
    unfold atPos
    rw [hzeroes, List.getElem?_replicate, if_pos hi]
    rfl
  have hkind : (create .byteFrequency fun _ => 0 : AttributeMeter ℝ).kind = uniformBytes.kind := rfl
  exact not_trained_merge hdist huniform.1 hkind rfl (by decide) hnothing htrained

end ProtocolModelUpdater

end Vsid
