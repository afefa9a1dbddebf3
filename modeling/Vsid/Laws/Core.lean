import Vsid.Laws.Flow

/-!
# The core of a flow

Two runs of the program may differ in what fresh memory holds and in the bookkeeping the manager
keeps inside a flow, and still be the same run to everyone who looks. `Flow.core` forgets these:
the queue id, the pending count, and the bytes of `_lastPacket` in a meter that has stored none.

The constructor of `ActionReactionFirst3ByteHashMeter` leaves `_lastPacket` uninitialised, and
`calculateMeasurement` reads it whenever the packet is not the flow's first one and changes the
direction. `readsStaleBytes` says that a packet brings this about before anything was stored. When
it does not, the core after a packet is a function of the core before it (`core_addPacket`).
-/

namespace Vsid

namespace AttributeMeter

variable {R : Type}

/-- The meter with the never written bytes of `_lastPacket` blanked. -/
def scrub (m : AttributeMeter R) : AttributeMeter R :=
  if m.lastPacketSize = 0 then { m with lastPacket := fun _ => 0 } else m

/-- The meter is about to read `_lastPacket` before it stored a packet there. -/
def readsStaleBytes (m : AttributeMeter R) (f : FlowReading) (p : IPv4Packet) : Bool :=
  m.kind == .actionReactionFirst3ByteHash && m.lastPacketSize == 0 && p.dataSize != 0 &&
    isReaction f

@[simp] theorem scrub_kind (m : AttributeMeter R) : m.scrub.kind = m.kind := by
  unfold scrub; split <;> rfl

@[simp] theorem scrub_fingerprint (m : AttributeMeter R) :
    m.scrub.fingerprint = m.fingerprint := by
  unfold scrub; split <;> rfl

@[simp] theorem scrub_fromDb (m : AttributeMeter R) : m.scrub.fromDb = m.fromDb := by
  unfold scrub; split <;> rfl

@[simp] theorem scrub_overall (m : AttributeMeter R) : m.scrub.overall = m.overall := by
  unfold scrub; split <;> rfl

@[simp] theorem scrub_lastPacketSize (m : AttributeMeter R) :
    m.scrub.lastPacketSize = m.lastPacketSize := by
  unfold scrub; split <;> rfl

theorem scrub_of_stored {m : AttributeMeter R} (h : m.lastPacketSize ≠ 0) : m.scrub = m := by
  unfold scrub
  rw [if_neg h]

@[simp] theorem scrub_scrub (m : AttributeMeter R) : m.scrub.scrub = m.scrub := by
  by_cases h : m.lastPacketSize = 0
  · unfold scrub
    rw [if_pos h]
    exact if_pos h
  · rw [scrub_of_stored h, scrub_of_stored h]

@[simp] theorem scrub_readsStaleBytes (m : AttributeMeter R) (f : FlowReading) (p : IPv4Packet) :
    m.scrub.readsStaleBytes f p = m.readsStaleBytes f p := by
  simp only [readsStaleBytes, scrub_kind, scrub_lastPacketSize]

variable [Double R]

@[simp] theorem scrub_atPos (m : AttributeMeter R) (i : Nat) : m.scrub.atPos i = m.atPos i := by
  simp only [atPos, scrub_fingerprint, scrub_kind, scrub_fromDb, scrub_overall]

@[simp] theorem scrub_klFixMultiplier (m : AttributeMeter R) :
    m.scrub.klFixMultiplier = m.klFixMultiplier := by
  simp only [klFixMultiplier, scrub_kind]

@[simp] theorem scrub_klFixIncrement (m : AttributeMeter R) :
    m.scrub.klFixIncrement = m.klFixIncrement := by
  simp only [klFixIncrement, scrub_kind]

/-- The kind of a meter is fixed, and no class but the action-reaction meter touches
`_lastPacket`. -/
theorem calculateMeasurement_lastPacket {m : AttributeMeter R} {f : FlowReading} {p : IPv4Packet}
    (h : m.kind ≠ .actionReactionFirst3ByteHash) (bytes : FirstBytes) :
    ({ m with lastPacket := bytes } : AttributeMeter R).calculateMeasurement f p =
      { m.calculateMeasurement f p with lastPacket := bytes } ∧
    (m.calculateMeasurement f p).lastPacketSize = m.lastPacketSize := by
  obtain ⟨kind, flowCount, fp, enabled, fromDb, overall, done, lastPacket, size⟩ := m
  cases kind with
  | actionReactionFirst3ByteHash => exact absurd rfl h
  | _ =>
    simp only [calculateMeasurement, byteFrequencyFirst8Packets,
      byteFrequencyFirstDestToOrigPacket, byteFrequencyFirstOrigToDestPacket, byteFrequency,
      directionBytesCountFirst10Packet, directionBytesCount, directionChangesFirst8Packets,
      directionChanges, entropyFirstOrigToDestPacket, first16ByteFrequency, first4ByteFrequency,
      firstBitPositions, payloadSizeFirstPacket, rtmpRegexMatch, cover, countDirectionBytes,
      countDirectionChanges]
    (repeat' split) <;> simp_all

/-- A meter that reads no stale bytes does not depend on them. -/
theorem scrub_calculateMeasurement {m : AttributeMeter R} {f : FlowReading} {p : IPv4Packet}
    (h : m.readsStaleBytes f p = false) :
    (m.scrub.calculateMeasurement f p).scrub = (m.calculateMeasurement f p).scrub := by
  by_cases hsize : m.lastPacketSize = 0
  · have hscrub : m.scrub = { m with lastPacket := fun _ => 0 } := if_pos hsize
    by_cases hkind : m.kind = .actionReactionFirst3ByteHash
    · simp only [calculateMeasurement, hkind, scrub_kind, actionReactionFirst3ByteHash]
      by_cases hdata : p.dataSize = 0
      · rw [if_pos hdata, if_pos hdata, scrub_scrub]
      · have hreact : isReaction f = false := by
          simpa only [readsStaleBytes, hkind, hsize, beq_self_eq_true, Bool.true_and, bne_iff_ne,
            ne_eq, hdata, not_false_eq_true, decide_true, Bool.and_eq_false_iff,
            Bool.true_eq_false, false_or, bne, beq_eq_false_iff_ne, Bool.not_false,
            beq_false_of_ne hdata] using h
        -- the packet is stored over the bytes that were there
        simp only [if_neg hdata, hreact, Bool.false_eq_true, if_false, hscrub]
    · obtain ⟨hbytes, hkept⟩ :=
        calculateMeasurement_lastPacket (f := f) (p := p) hkind fun _ => 0
      rw [hscrub, hbytes]
      unfold scrub
      rw [hkept, if_pos hsize, if_pos hsize]
  · rw [scrub_of_stored hsize]

end AttributeMeter

namespace Flow

variable {R : Type}

/-- The flow without the manager's bookkeeping and without stale bytes. -/
def core (f : Flow R) : Flow R :=
  { f with
    threadQueueId := -1
    pktsInQueue := 0
    attributeMeters := f.attributeMeters.map AttributeMeter.scrub }

@[simp] theorem core_core (f : Flow R) : f.core.core = f.core := by
  simp only [core, List.map_map, Flow.mk.injEq, true_and, and_true]
  congr 1
  funext m
  exact AttributeMeter.scrub_scrub m

@[simp] theorem core_firstPacketTuple (f : Flow R) :
    f.core.firstPacketTuple = f.firstPacketTuple := rfl

@[simp] theorem core_hash (f : Flow R) : f.core.hash = f.hash := rfl

@[simp] theorem core_flowState (f : Flow R) : f.core.flowState = f.flowState := rfl

@[simp] theorem core_flowClassified (f : Flow R) :
    f.core.flowClassified = f.flowClassified := rfl

@[simp] theorem core_pktCount (f : Flow R) : f.core.pktCount = f.pktCount := rfl

@[simp] theorem core_isFinished (f : Flow R) : f.core.isFinished = f.isFinished := rfl

@[simp] theorem core_reading (f : Flow R) : f.core.reading = f.reading := rfl

@[simp] theorem core_pktsInQueue (f : Flow R) : f.core.pktsInQueue = 0 := rfl

/-! ## Every stage on the core -/

theorem core_advance (f : Flow R) (p : IPv4Packet) :
    f.core.advance p = ((f.advance p).1.core, (f.advance p).2) :=
  advance_comm core core_flowState (fun _ => rfl) (fun _ => rfl) (fun _ => rfl) (fun _ _ => rfl)
    (fun _ => rfl) f

theorem core_attributeMetersMap (f : Flow R) (k : MeterKind) :
    f.core.attributeMetersMap k = (f.attributeMetersMap k).map AttributeMeter.scrub := by
  simp only [attributeMetersMap, core, List.find?_map, Function.comp_def,
    AttributeMeter.scrub_kind]

variable [Double R]

theorem core_new (S : Setup R) (p : IPv4Packet) (stale stale' : FirstBytes) :
    (Flow.new S p stale).core = (Flow.new S p stale').core := by
  simp only [core, new, AttributeMeterFactory.getAllMeters, List.map_map, Flow.mk.injEq, true_and,
    and_true]
  congr 1

theorem meterDivergence_scrub (am pmAm : AttributeMeter R) :
    meterDivergence am.scrub pmAm = meterDivergence am pmAm := by
  simp only [meterDivergence, AttributeMeter.scrub_atPos, AttributeMeter.scrub_klFixMultiplier,
    AttributeMeter.scrub_klFixIncrement]

@[simp] theorem core_klDivergence (f : Flow R) (pm : ProtocolModel R) :
    f.core.klDivergence pm = f.klDivergence pm := by
  unfold klDivergence
  congr 1
  funext d pmAm
  rw [core_attributeMetersMap]
  cases f.attributeMetersMap pmAm.kind with
  | none => rfl
  | some am => simp only [Option.map_some, meterDivergence_scrub]

theorem unseen_core : Unseen (core (R := R)) where
  tuple := core_firstPacketTuple
  pktCount := core_pktCount
  flowClassified := core_flowClassified
  divergence := core_klDivergence
  bestDivergence _ := rfl
  bestProtocol _ := rfl
  classifyAs _ _ _ := rfl
  best _ _ _ := rfl

/-! ## A packet on the core -/

/-- The packet reaches a meter that reads the bytes the allocator left in it. -/
def readsStaleBytes (S : Setup R) (f : Flow R) (p : IPv4Packet) : Bool :=
  match f.advance p with
  | (_, true) => false
  | (f, false) =>
    !isBareSegment p && !f.flowClassified &&
      !decide (S.database.cutoffLimit < (f.countPacket p).pktCount) &&
      f.attributeMeters.any fun m => m.readsStaleBytes (f.countPacket p).reading p

omit [Double R] in
theorem core_readsStaleBytes (S : Setup R) (f : Flow R) (p : IPv4Packet) :
    f.core.readsStaleBytes S p = f.readsStaleBytes S p := by
  unfold readsStaleBytes
  rw [core_advance]
  have hmeters : ∀ g : Flow R, (g.core.attributeMeters.any fun m =>
      m.readsStaleBytes (g.core.countPacket p).reading p) =
      g.attributeMeters.any fun m => m.readsStaleBytes (g.countPacket p).reading p := by
    intro g
    simp only [core, List.any_map, Function.comp_def, AttributeMeter.scrub_readsStaleBytes]
    rfl
  cases hadv : f.advance p with
  | mk g returned =>
    cases returned with
    | true => rfl
    | false =>
      simp only [hmeters]
      rfl

theorem core_calculate (f : Flow R) (p : IPv4Packet)
    (h : ∀ m ∈ f.attributeMeters, m.readsStaleBytes f.reading p = false) :
    (f.core.calculate p).core = (f.calculate p).core := by
  simp only [core, calculate, List.map_map, Flow.mk.injEq, true_and, and_true]
  exact List.map_congr_left fun m hm => AttributeMeter.scrub_calculateMeasurement (h m hm)

/-- **A packet acts on the core.** What the flow held besides its core does not show afterwards,
unless a meter read stale bytes. -/
theorem core_addPacket (S : Setup R) (f : Flow R) (p : IPv4Packet)
    (h : f.readsStaleBytes S p = false) :
    (f.core.addPacket S p).core = (f.addPacket S p).core := by
  unfold readsStaleBytes at h
  unfold addPacket
  rw [core_advance]
  cases hadv : f.advance p with
  | mk g returned =>
    cases returned with
    | true => exact core_core g
    | false =>
      rw [hadv] at h
      simp only
      by_cases hbare : isBareSegment p = true
      · rw [if_pos hbare, if_pos hbare, core_core]
      · rw [if_neg hbare, if_neg hbare]
        have hcount : g.core.countPacket p = (g.countPacket p).core := rfl
        unfold addDataPacket
        simp only [hcount, core_flowClassified, core_pktCount]
        by_cases hclass : (g.countPacket p).flowClassified = true
        · rw [if_pos hclass, if_pos hclass]
          exact core_core ((g.countPacket p).touch p)
        · rw [if_neg hclass, if_neg hclass]
          by_cases hcut : S.database.cutoffLimit < (g.countPacket p).pktCount
          · rw [if_pos hcut, if_pos hcut]
            exact core_core ((g.countPacket p).touch p)
          · rw [if_neg hcut, if_neg hcut]
            have hclass' : g.flowClassified = false := Bool.not_eq_true _ ▸ hclass
            have hmeters : ∀ m ∈ (g.countPacket p).attributeMeters,
                m.readsStaleBytes (g.countPacket p).reading p = false := by
              intro m hm
              simp only [Bool.not_eq_true _ ▸ hbare, hclass', hcut, decide_false, Bool.not_false,
                Bool.true_and, List.any_eq_false, Bool.not_eq_true] at h
              exact h m hm
            have hcalc := core_calculate (g.countPacket p) p hmeters
            rw [← unseen_core.classify, ← unseen_core.classify]
            exact congrArg (fun k => (k.touch p).classify S) hcalc

/-- Two flows with one core stay so under a packet that reads no stale bytes. -/
theorem core_addPacket_congr {S : Setup R} {f g : Flow R} {p : IPv4Packet} (hcore : f.core = g.core)
    (h : f.readsStaleBytes S p = false) :
    (f.addPacket S p).core = (g.addPacket S p).core := by
  have h' : g.readsStaleBytes S p = false := by
    rw [← core_readsStaleBytes, ← hcore, core_readsStaleBytes, h]
  rw [← core_addPacket S f p h, ← core_addPacket S g p h', hcore]

end Flow

end Vsid
