import Vsid.Laws.DatabaseFile
import Vsid.Laws.Lives

/-!
# What the meters of a flow are

A flow is created with one meter of every class that is enabled, in the order of their names, and
packets change what the meters hold but neither the classes nor the sizes (`Metered`). Reading a
database enables the class of every meter that the matching will compare, so each of them has its
counterpart in every flow that is constructed afterwards (`meter_of_read`).
-/

set_option autoImplicit false

namespace Vsid

variable {R : Type}

namespace AttributeMeter

variable [Double R]

theorem length_countBytes (fp : List R) (data : List UInt8) :
    (countBytes fp data).length = fp.length := by
  unfold countBytes
  induction data generalizing fp with
  | nil => rfl
  | cons b data ih => rw [List.foldl_cons, ih, List.length_modify]

theorem length_countBits (fp : List R) (i : Nat) (byte : UInt8) :
    (countBits fp i byte).length = fp.length := by
  unfold countBits
  induction List.range 8 generalizing fp with
  | nil => rfl
  | cons j positions ih =>
    rw [List.foldl_cons, ih]
    split <;> exact List.length_modify _ _ _

/-- The meter is one of its class: it has the size that the constructor gave it, and was not read.
-/
structure Measures (k : MeterKind) (m : AttributeMeter R) : Prop where
  kind : m.kind = k
  fromDb : m.fromDb = false
  length : m.fingerprint.length = k.fingerprintSize

theorem measures_create (k : MeterKind) (stale : FirstBytes) :
    Measures k (create k stale : AttributeMeter R) where
  kind := rfl
  fromDb := rfl
  length := by
    cases k <;> first | exact List.length_replicate | rfl

/-- A measurement changes what the meter holds, and not what it is. -/
theorem Measures.calculateMeasurement {k : MeterKind} {m : AttributeMeter R} (h : Measures k m)
    (f : FlowReading) (p : IPv4Packet) : Measures k (m.calculateMeasurement f p) := by
  have hbits : ∀ (data : List (UInt8 × Nat)) (fp : List R),
      (data.foldl (fun fp b => countBits fp b.2 b.1) fp).length = fp.length := by
    intro data
    induction data with
    | nil => exact fun fp => rfl
    | cons b data ih => exact fun fp => (ih _).trans (length_countBits fp b.2 b.1)
  obtain ⟨hkind, hdb, hlength⟩ := h
  unfold AttributeMeter.calculateMeasurement
  rw [hkind]
  cases k with
  | _ =>
    simp only [actionReactionFirst3ByteHash, byteFrequencyFirst8Packets,
      byteFrequencyFirstDestToOrigPacket, byteFrequencyFirstOrigToDestPacket, byteFrequency,
      directionBytesCountFirst10Packet, directionBytesCount, directionChangesFirst8Packets,
      directionChanges, entropyFirstOrigToDestPacket, first16ByteFrequency, first4ByteFrequency,
      firstBitPositions, payloadSizeFirstPacket, rtmpRegexMatch, cover, countDirectionBytes,
      countDirectionChanges]
    (repeat' split) <;>
      first
      | exact ⟨hkind, hdb, hlength⟩
      | exact ⟨hkind, hdb, rfl⟩
      | exact ⟨hkind, hdb, (length_countBytes _ _).trans hlength⟩
      | exact ⟨hkind, hdb, (hbits _ _).trans hlength⟩
      | exact ⟨hkind, hdb, (List.length_modify _ _ _).trans hlength⟩

end AttributeMeter

namespace Flow

variable [Double R] {S : Setup R}

/-! ## The meters of a flow -/

/-- The meters of the classes that are enabled, in the order of their names. -/
def Metered (S : Setup R) (f : Flow R) : Prop :=
  List.Forall₂ AttributeMeter.Measures (MeterKind.all.filter S.factory.enabledAttributes)
    f.attributeMeters

theorem metered_new (p : IPv4Packet) (stale : FirstBytes) : (Flow.new S p stale).Metered S :=
  List.forall₂_map_right_iff.mpr
    (List.forall₂_same.mpr fun k _ => AttributeMeter.measures_create k stale)

omit [Double R] in
/-- The state machine does not touch the meters. -/
theorem advance_attributeMeters (f : Flow R) (p : IPv4Packet) :
    (f.advance p).1.attributeMeters = f.attributeMeters := by
  obtain ⟨_, _, _, h⟩ := advance_frame f p
  rw [h]

theorem classify_attributeMeters (S : Setup R) (f : Flow R) :
    (f.classify S).attributeMeters = f.attributeMeters := by
  obtain ⟨_, _, _, _, _, h⟩ := classify_frame S f
  rw [h]

/-- An examined packet was measured by every meter. -/
theorem examined_attributeMeters {f g : Flow R} {p : IPv4Packet} (h : f.examined S p = some g) :
    g.attributeMeters = f.attributeMeters.map fun m => m.calculateMeasurement g.reading p := by
  obtain ⟨-, rfl⟩ := eq_of_examined h
  exact congrArg (List.map _) (advance_attributeMeters f p)

/-- A packet that is not examined is not measured. -/
theorem addPacket_attributeMeters {f : Flow R} {p : IPv4Packet} (h : f.examined S p = none) :
    (f.addPacket S p).attributeMeters = f.attributeMeters := by
  rcases addPacket_of_not_examined h with heq | heq <;> rw [heq] <;>
    exact advance_attributeMeters f p

theorem Metered.examined {f g : Flow R} (h : f.Metered S) {p : IPv4Packet}
    (hexamined : f.examined S p = some g) : g.Metered S := by
  unfold Metered
  rw [examined_attributeMeters hexamined, List.forall₂_map_right_iff]
  exact h.imp fun k m hm => hm.calculateMeasurement g.reading p

theorem Metered.addPacket {f : Flow R} (h : f.Metered S) (p : IPv4Packet) :
    (f.addPacket S p).Metered S := by
  unfold Metered
  cases hexamined : f.examined S p with
  | none =>
    rw [addPacket_attributeMeters hexamined]
    exact h
  | some g =>
    rw [addPacket_of_examined hexamined, classify_attributeMeters]
    exact h.examined hexamined

/-- Every flow of every manager is metered. -/
theorem flowInvariant_metered (S : Setup R) : FlowInvariant S (Metered S) where
  new := metered_new
  addPacket _ p h := h.addPacket p
  mark _ h := h
  inc _ h := h
  dec _ h := h
  queue _ _ h := h

omit [Double R] in
/-- The meter of an enabled class is found. -/
theorem Metered.attributeMetersMap {f : Flow R} (h : f.Metered S) {k : MeterKind}
    (hk : S.factory.enabledAttributes k = true) :
    ∃ am, f.attributeMetersMap k = some am ∧ AttributeMeter.Measures k am := by
  have hmem : k ∈ MeterKind.all.filter S.factory.enabledAttributes :=
    List.mem_filter.mpr ⟨by cases k <;> decide, hk⟩
  have hfind : ∀ {kinds : List MeterKind} {ams : List (AttributeMeter R)},
      List.Forall₂ AttributeMeter.Measures kinds ams → k ∈ kinds →
        ∃ am, ams.find? (fun am => am.kind == k) = some am ∧ AttributeMeter.Measures k am := by
    intro kinds ams hall
    induction hall with
    | nil => exact fun hk => absurd hk List.not_mem_nil
    | @cons k' am kinds ams hhead _ ih =>
      intro hk
      rw [List.find?_cons, hhead.kind]
      by_cases heq : k' = k
      · rw [heq] at hhead ⊢
        simp only [beq_self_eq_true]
        exact ⟨am, rfl, hhead⟩
      · rw [beq_eq_false_iff_ne.mpr heq]
        exact ih ((List.mem_cons.mp hk).resolve_left fun h => heq h.symm)
  exact hfind h hmem

end Flow

/-! ## The meters that are compared -/

section Read

variable [Double R] {S : Setup R}

open ProtocolModelFile

/-- The flow and what was examined have their meters. -/
def FlowHistory.Metered (S : Setup R) (e : FlowHistory R) : Prop :=
  ∀ f ∈ e.flow :: e.examined, f.Metered S

theorem FlowHistory.Metered.call {e e' : FlowHistory R} (h : e.Metered S) {c : FlowCall}
    (hcall : e.call S c = some e') : e'.Metered S := by
  obtain ⟨hflow, hexamined⟩ := List.forall_mem_cons.mp h
  cases c with
  | addPacket p =>
    cases hcall
    refine List.forall_mem_cons.mpr ⟨hflow.addPacket p, fun g hg => ?_⟩
    rcases List.mem_append.mp hg with hg | hg
    · exact hexamined g hg
    · exact hflow.examined (Option.mem_toList.mp hg)
  | setFinishedAndNotified =>
    cases hcall
    exact List.forall_mem_cons.mpr ⟨hflow, hexamined⟩
  | incPktsInQueue =>
    cases hcall
    exact List.forall_mem_cons.mpr ⟨hflow, hexamined⟩
  | decPktsInQueue =>
    cases hcall
    exact List.forall_mem_cons.mpr ⟨hflow, hexamined⟩
  | threadQueueId q =>
    cases hcall
    exact List.forall_mem_cons.mpr ⟨hflow, hexamined⟩

/-- **No meter is missing and none has the wrong size.** After any successful read, in whatever
state it found the table of enabled classes and whatever was enabled later, every life of a flow
that is constructed then: the flow, and the flow as the matching saw it at each examined packet,
have for every enabled meter of every model a meter of the same name and size, all of whose
positions that the model's meter has can be read. -/
theorem meter_of_read {Y : Conversions R} {stale : FirstBytes} {now : Int}
    {factory factory' : AttributeMeterFactory} {root : Yaml} {file : ProtocolModelFile R}
    (hread : read Y stale now factory root = some (file, factory'))
    (hdatabase : S.database = file.toProtocolModelDb) (hfactory : Extends factory' S.factory)
    {p : IPv4Packet} {bytes : FirstBytes} {e : FlowHistory R}
    (h : Lives S (fun _ _ => True) (Flow.new S p bytes) e) :
    ∀ f ∈ e.flow :: e.examined, ∀ pm ∈ S.database.protocolModelOrder,
      ∀ pmAm ∈ pm.attributeMeters, pmAm.enabled = true →
        ∃ am, f.attributeMetersMap pmAm.kind = some am ∧ am.kind.name = pmAm.kind.name ∧
          am.size = pmAm.size ∧
          ∀ i < pmAm.size, am.fingerprint[i]?.isSome = true ∧
            pmAm.fingerprint[i]?.isSome = true := by
  have hmetered : e.Metered S :=
    h.invariant (I := FlowHistory.Metered S)
      (List.forall_mem_singleton.mpr (Flow.metered_new p bytes)) fun _ _ _ hold _ hcall =>
        hold.call hcall
  intro f hf pm hpm pmAm hpmAm hon
  rw [hdatabase] at hpm
  obtain ⟨hlength, henabled⟩ := (wellFormed_of_read hread).2 pm hpm pmAm hpmAm
  obtain ⟨am, hfound, hmeasures⟩ :=
    (hmetered f hf).attributeMetersMap (hfactory _ (henabled hon))
  have hsize : am.size = pmAm.size := hmeasures.length.trans hlength.symm
  refine ⟨am, hfound, by rw [hmeasures.kind], hsize, fun i hi => ⟨?_, ?_⟩⟩
  · rw [← hsize] at hi
    rw [List.getElem?_eq_getElem hi, Option.isSome_some]
  · rw [List.getElem?_eq_getElem hi, Option.isSome_some]

/-- A program that has read a database. -/
def afterReading (file : ProtocolModelFile ℚ) (factory : AttributeMeterFactory) : Setup ℚ :=
  { (Setup.initial : Setup ℚ) with database := file.toProtocolModelDb, factory := factory }

/-- The meter of the SSH model, and a flow that is constructed after the model was read and examined
at its first packet. -/
theorem sshRoot_meter :
    ∃ file factory g,
      read knownScalars (fun _ => 0) 0 freshFactory (sshRoot (.sequence [sizeMeter])) =
        some (file, factory) ∧
      (Flow.new (afterReading file factory) Flow.oneByte fun _ => 0).examined
        (afterReading file factory) Flow.oneByte = some g ∧
      (∃ pm ∈ file.protocolModelOrder, ∃ pmAm ∈ pm.attributeMeters, pmAm.enabled = true) ∧
      ∀ f ∈ [(Flow.new (afterReading file factory) Flow.oneByte fun _ => 0).addPacket
          (afterReading file factory) Flow.oneByte, g],
        ∀ pm ∈ file.protocolModelOrder, ∀ pmAm ∈ pm.attributeMeters, pmAm.enabled = true →
          ∃ am, f.attributeMetersMap pmAm.kind = some am ∧ am.kind.name = pmAm.kind.name ∧
            am.size = pmAm.size ∧
            ∀ i < pmAm.size, am.fingerprint[i]?.isSome = true ∧
              pmAm.fingerprint[i]?.isSome = true := by
  obtain ⟨⟨file, factory⟩, hread, hseen⟩ := (Option.any_eq_true (fun r =>
      (r.1.protocolModelOrder.any fun pm => pm.attributeMeters.any (·.enabled)) &&
        ((Flow.new (afterReading r.1 r.2) Flow.oneByte fun _ => 0).examined
          (afterReading r.1 r.2) Flow.oneByte).isSome)
    (read knownScalars (fun _ => 0) 0 freshFactory (sshRoot (.sequence [sizeMeter])))).mp
    (by decide +kernel)
  obtain ⟨hany, hexamined⟩ := Bool.and_eq_true_iff.mp hseen
  obtain ⟨g, hg⟩ := Option.isSome_iff_exists.mp hexamined
  obtain ⟨pm, hpm, hmeter⟩ := List.any_eq_true.mp hany
  obtain ⟨pmAm, hpmAm, hon⟩ := List.any_eq_true.mp hmeter
  have hlife : Lives (afterReading file factory) (fun _ _ => True)
      (Flow.new (afterReading file factory) Flow.oneByte fun _ => 0) _ :=
    Run.tail (.addPacket Flow.oneByte) .refl trivial rfl
  refine ⟨file, factory, g, hread, hg, ⟨pm, hpm, pmAm, hpmAm, hon⟩, fun f hf => ?_⟩
  refine meter_of_read (S := afterReading file factory) hread rfl (fun _ hk => hk) hlife f ?_
  show f ∈ _ :: ([] ++ Option.toList ((Flow.new (afterReading file factory) Flow.oneByte
    fun _ => 0).examined (afterReading file factory) Flow.oneByte))
  rw [hg]
  exact hf

end Read

end Vsid
