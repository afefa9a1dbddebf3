import Vsid.Common.Flow

/-!
# What a packet does to a flow

The facts about `Flow.addPacket` that the rest of the development uses in place of its definition.

* The frame: a packet changes neither the identity of a flow (tuple, hash, start) nor what the
  manager keeps in it (queue and pending count).
* The closed states: a finished flow stays finished and a notified one notified.
* Classification: a classified flow stays classified.
-/

namespace Vsid

namespace Flow

variable {R : Type}

/-! ## The stages change only their own fields -/

/-- `g` is `f` up to the fields that packets and classification change. -/
structure SameIdentity (f g : Flow R) : Prop where
  firstPacketTuple : g.firstPacketTuple = f.firstPacketTuple
  startTimestamp : g.startTimestamp = f.startTimestamp
  hash : g.hash = f.hash
  threadQueueId : g.threadQueueId = f.threadQueueId
  pktsInQueue : g.pktsInQueue = f.pktsInQueue

theorem SameIdentity.refl (f : Flow R) : SameIdentity f f := ⟨rfl, rfl, rfl, rfl, rfl⟩

theorem SameIdentity.trans {f g k : Flow R} (h : SameIdentity f g) (h' : SameIdentity g k) :
    SameIdentity f k :=
  ⟨h'.1.trans h.1, h'.2.trans h.2, h'.3.trans h.3, h'.4.trans h.4, h'.5.trans h.5⟩

/-- The state machine moves the state and the overall count, and what is kept of the first
packet. -/
theorem advance_frame (f : Flow R) (p : IPv4Packet) : ∃ state data first,
    (f.advance p).1 =
      { f with
        overallPktCount := f.overallPktCount + 1
        flowState := state
        firstOrigToDestData := data
        isFirstPacket := first } := by
  unfold advance
  split <;> (repeat' split) <;> exact ⟨_, _, _, rfl⟩

theorem advance_sameIdentity (f : Flow R) (p : IPv4Packet) :
    SameIdentity f (f.advance p).1 := by
  obtain ⟨_, _, _, h⟩ := advance_frame f p
  rw [h]
  exact ⟨rfl, rfl, rfl, rfl, rfl⟩

variable [Double R]

theorem matchModels_frame (S : Setup R) (f : Flow R) (positions : List Nat) :
    ∃ classified protocol divergence bestDivergence bestProtocol,
      f.matchModels S positions =
        { f with
          flowClassified := classified
          classifiedProtocol := protocol
          classifiedDivergence := divergence
          bestMatchDivergence := bestDivergence
          bestMatchProtocol := bestProtocol } := by
  induction positions generalizing f with
  | nil => exact ⟨_, _, _, _, _, rfl⟩
  | cons i rest ih =>
    unfold matchModels
    split
    · exact ih f
    · split
      · exact ih f
      · simp only
        split
        · exact ⟨_, _, _, _, _, rfl⟩
        · unfold updateBestMatch
          split <;> exact ih _

/-- The matching writes its result, and the best match. -/
theorem classify_frame (S : Setup R) (f : Flow R) :
    ∃ classified protocol divergence bestDivergence bestProtocol,
      f.classify S =
        { f with
          flowClassified := classified
          classifiedProtocol := protocol
          classifiedDivergence := divergence
          bestMatchDivergence := bestDivergence
          bestMatchProtocol := bestProtocol } := by
  unfold classify
  split
  · obtain ⟨_, _, _, _, _, h⟩ := matchModels_frame S f (List.range S.database.size)
    rw [h]
    unfold useBestMatch
    split <;> exact ⟨_, _, _, _, _, rfl⟩
  · exact ⟨_, _, _, _, _, rfl⟩

theorem addDataPacket_sameIdentity (S : Setup R) (f : Flow R) (p : IPv4Packet) :
    SameIdentity f (f.addDataPacket S p) := by
  have hcount : SameIdentity f (f.countPacket p) := ⟨rfl, rfl, rfl, rfl, rfl⟩
  unfold addDataPacket
  simp only
  split
  · exact hcount.trans ⟨rfl, rfl, rfl, rfl, rfl⟩
  · split
    · exact hcount.trans ⟨rfl, rfl, rfl, rfl, rfl⟩
    · obtain ⟨_, _, _, _, _, h⟩ := classify_frame S (((f.countPacket p).calculate p).touch p)
      rw [h]
      exact hcount.trans ⟨rfl, rfl, rfl, rfl, rfl⟩

/-- **The frame of `Flow::addPacket`.** -/
theorem addPacket_sameIdentity (S : Setup R) (f : Flow R) (p : IPv4Packet) :
    SameIdentity f (f.addPacket S p) := by
  have hadv := advance_sameIdentity f p
  unfold addPacket
  split
  next g h => rw [h] at hadv; exact hadv
  next g h =>
    rw [h] at hadv
    split
    · exact hadv
    · exact hadv.trans (addDataPacket_sameIdentity S g p)

@[simp] theorem addPacket_hash (S : Setup R) (f : Flow R) (p : IPv4Packet) :
    (f.addPacket S p).hash = f.hash := (addPacket_sameIdentity S f p).hash

@[simp] theorem addPacket_firstPacketTuple (S : Setup R) (f : Flow R) (p : IPv4Packet) :
    (f.addPacket S p).firstPacketTuple = f.firstPacketTuple :=
  (addPacket_sameIdentity S f p).firstPacketTuple

@[simp] theorem addPacket_threadQueueId (S : Setup R) (f : Flow R) (p : IPv4Packet) :
    (f.addPacket S p).threadQueueId = f.threadQueueId :=
  (addPacket_sameIdentity S f p).threadQueueId

@[simp] theorem addPacket_pktsInQueue (S : Setup R) (f : Flow R) (p : IPv4Packet) :
    (f.addPacket S p).pktsInQueue = f.pktsInQueue := (addPacket_sameIdentity S f p).pktsInQueue

/-! ## The state machine -/

/-- After the state machine, nothing moves the state any more. -/
theorem addDataPacket_flowState (S : Setup R) (f : Flow R) (p : IPv4Packet) :
    (f.addDataPacket S p).flowState = f.flowState := by
  unfold addDataPacket
  simp only
  split
  · rfl
  · split
    · rfl
    · obtain ⟨_, _, _, _, _, h⟩ := classify_frame S (((f.countPacket p).calculate p).touch p)
      rw [h]
      rfl

theorem addPacket_flowState (S : Setup R) (f : Flow R) (p : IPv4Packet) :
    (f.addPacket S p).flowState = (f.advance p).1.flowState := by
  unfold addPacket
  split
  next g h => rw [h]
  next g h =>
    rw [h]
    split
    · rfl
    · exact addDataPacket_flowState S g p

/-- A finished flow takes no packet any more: only the overall count moves. -/
theorem addPacket_of_isFinished (S : Setup R) (f : Flow R) (p : IPv4Packet)
    (h : f.isFinished = true) :
    f.addPacket S p = f.arrive := by
  have hstate : f.flowState = .finished ∨ f.flowState = .finishedNotified := by
    simpa only [isFinished, Bool.or_eq_true, beq_iff_eq] using h
  unfold addPacket advance
  rcases hstate with hs | hs <;> cases ht : p.transport <;> simp only [hs]

/-- Only the manager marks a flow as notified. -/
theorem addPacket_finishedNotified_iff (S : Setup R) (f : Flow R) (p : IPv4Packet) :
    (f.addPacket S p).flowState = .finishedNotified ↔ f.flowState = .finishedNotified := by
  rw [addPacket_flowState]
  unfold advance
  cases hs : f.flowState <;> cases ht : p.transport <;> simp only <;> (repeat' split) <;>
    simp only [enter, takeFirstPacket, arrive, hs, reduceCtorEq]

/-- A flow never goes back to `NEW`. -/
theorem addPacket_ne_new (S : Setup R) (f : Flow R) (p : IPv4Packet) :
    (f.addPacket S p).flowState ≠ .new := by
  rw [addPacket_flowState]
  unfold advance
  cases hs : f.flowState <;> cases ht : p.transport <;> simp only <;> (repeat' split) <;>
    simp only [enter, takeFirstPacket, arrive, hs, ne_eq, reduceCtorEq, not_false_eq_true]

omit [Double R] in
/-- A datagram is taken by every flow that is not finished, and does not finish it. -/
theorem advance_udp {f : Flow R} {p : IPv4Packet} (hudp : p.transport = .udp)
    (hopen : f.isFinished = false) :
    (f.advance p).2 = false ∧ (f.advance p).1.isFinished = false := by
  unfold advance isFinished at *
  cases hs : f.flowState <;> simp only [hs, hudp] at hopen ⊢ <;> (repeat' split) <;>
    simp_all [enter, takeFirstPacket, arrive]

theorem addPacket_udp_open {S : Setup R} {f : Flow R} {p : IPv4Packet} (hudp : p.transport = .udp)
    (hopen : f.isFinished = false) : (f.addPacket S p).isFinished = false := by
  unfold isFinished
  rw [addPacket_flowState]
  exact (advance_udp hudp hopen).2

/-! ## Classification is final -/

omit [Double R] in
theorem advance_flowClassified (f : Flow R) (p : IPv4Packet) :
    (f.advance p).1.flowClassified = f.flowClassified := by
  obtain ⟨_, _, _, h⟩ := advance_frame f p
  rw [h]

/-- A classified flow stays classified. -/
theorem addPacket_flowClassified (S : Setup R) (f : Flow R) (p : IPv4Packet)
    (h : f.flowClassified = true) : (f.addPacket S p).flowClassified = true := by
  have hadv := advance_flowClassified f p
  rw [h] at hadv
  unfold addPacket
  split
  next g hg => rw [hg] at hadv; exact hadv
  next g hg =>
    rw [hg] at hadv
    split
    · exact hadv
    · have hcount : (g.countPacket p).flowClassified = true := hadv
      unfold addDataPacket
      simp only [hcount, if_true]
      exact hadv

/-! ## Fields that are carried along -/

omit [Double R] in
/-- What the state machine neither reads nor writes does not change what it does. -/
theorem advance_comm (g : Flow R → Flow R) {p : IPv4Packet}
    (hstate : ∀ f, (g f).flowState = f.flowState)
    (hdata : ∀ f, (g f).firstOrigToDestData = f.firstOrigToDestData)
    (hdirection : ∀ f, (g f).packetDirection p = f.packetDirection p)
    (harrive : ∀ f, (g f).arrive = g f.arrive) (henter : ∀ f s, (g f).enter s = g (f.enter s))
    (htake : ∀ f, (g f).takeFirstPacket p = g (f.takeFirstPacket p)) (f : Flow R) :
    (g f).advance p = (g (f.advance p).1, (f.advance p).2) := by
  unfold advance
  rw [hstate, hdata, hdirection]
  cases f.flowState <;> cases p.transport <;> simp only [harrive, henter, htake] <;>
    (repeat' split) <;> rfl

/-- `g` changes nothing that the matching reads, and leaves what it writes. -/
structure Unseen (g : Flow R → Flow R) : Prop where
  tuple : ∀ f, (g f).firstPacketTuple = f.firstPacketTuple
  pktCount : ∀ f, (g f).pktCount = f.pktCount
  flowClassified : ∀ f, (g f).flowClassified = f.flowClassified
  divergence : ∀ f pm, (g f).klDivergence pm = f.klDivergence pm
  bestDivergence : ∀ f, (g f).bestMatchDivergence = f.bestMatchDivergence
  bestProtocol : ∀ f, (g f).bestMatchProtocol = f.bestMatchProtocol
  classifyAs : ∀ f name d, (g f).classifyAs name d = g (f.classifyAs name d)
  best : ∀ f d name, { g f with bestMatchDivergence := d, bestMatchProtocol := name } =
    g { f with bestMatchDivergence := d, bestMatchProtocol := name }

theorem Unseen.matchModels {g : Flow R → Flow R} (h : Unseen g) (S : Setup R) (f : Flow R)
    (positions : List Nat) :
    (g f).matchModels S positions = g (f.matchModels S positions) := by
  induction positions generalizing f with
  | nil => rfl
  | cons i rest ih =>
    have hport : (g f).hintPort S = f.hintPort S := by
      unfold hintPort
      rw [h.tuple]
    have hbest : ∀ pm d, (g f).updateBestMatch pm d = g (f.updateBestMatch pm d) := by
      intro pm d
      unfold updateBestMatch
      rw [h.bestDivergence]
      split
      · exact h.best f d pm.name
      · rfl
    unfold Flow.matchModels
    rw [hport]
    cases S.database.atPos i (f.hintPort S) with
    | none => exact ih f
    | some pm =>
      simp only [h.divergence, h.pktCount]
      split
      · exact ih f
      · split
        · exact h.classifyAs f pm.name _
        · rw [hbest, ih]

theorem Unseen.classify {g : Flow R → Flow R} (h : Unseen g) (S : Setup R) (f : Flow R) :
    (g f).classify S = g (f.classify S) := by
  have hbest : ∀ f : Flow R, (g f).useBestMatch S = g (f.useBestMatch S) := by
    intro f
    unfold useBestMatch
    rw [h.flowClassified, h.pktCount, h.bestDivergence, h.bestProtocol]
    split
    · exact h.classifyAs f _ _
    · rfl
  unfold Flow.classify
  rw [h.flowClassified, h.matchModels, hbest]
  split <;> rfl

end Flow

/-! ## The setup -/

/-- What a packet does to a flow is the same under both setups: they have the same database, and the
same configuration of the matching. -/
structure Setup.SameMatching {R : Type} (S S' : Setup R) : Prop where
  database : S'.database = S.database
  learningMode : S'.config.learningMode = S.config.learningMode
  divergenceThreshold : S'.config.divergenceThreshold = S.config.divergenceThreshold
  useBestMatch : S'.config.useBestMatch = S.config.useBestMatch
  usePortHints : S'.config.usePortHints = S.config.usePortHints

namespace Flow

variable {R : Type} [Double R] {S S' : Setup R}

theorem matchModels_congr (hsame : S.SameMatching S') (f : Flow R) (positions : List Nat) :
    f.matchModels S' positions = f.matchModels S positions := by
  have hport : ∀ f : Flow R, f.hintPort S' = f.hintPort S := by
    intro f
    unfold hintPort
    rw [hsame.usePortHints]
  induction positions generalizing f with
  | nil => rfl
  | cons i rest ih =>
    unfold matchModels
    rw [hport, hsame.database, hsame.divergenceThreshold]
    simp only [ih]

theorem addPacket_congr (hsame : S.SameMatching S') (f : Flow R) (p : IPv4Packet) :
    f.addPacket S' p = f.addPacket S p := by
  have hbest : ∀ f : Flow R, f.useBestMatch S' = f.useBestMatch S := by
    intro f
    unfold useBestMatch
    rw [hsame.useBestMatch, hsame.database, hsame.divergenceThreshold]
  unfold addPacket addDataPacket classify
  simp only [matchModels_congr hsame, hbest, hsame.database, hsame.learningMode]

end Flow

end Vsid
