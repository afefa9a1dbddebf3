import Vsid.Laws.Steps

/-!
# The two limits of a database

The matching decides from the defining limit on, and no packet is looked at beyond the cutoff limit.
Reading a database puts the cutoff above the defining limit, with two exceptions: a cutoff of zero
stays as it is, and the successor of the largest defining limit is zero. With these two no packet is
ever looked at: `limit_reached_iff`.
-/

set_option autoImplicit false

namespace Vsid

namespace ProtocolModelFile

variable {R : Type} [Double R] {Y : Conversions R} {stale : FirstBytes} {now : Int}
  {factory factory' : AttributeMeterFactory} {root : Yaml} {file : ProtocolModelFile R}

/-- What is kept of the two limits. -/
theorem limits_of_read (h : read Y stale now factory root = some (file, factory'))
    {cutoffLimit : UInt32}
    (hcutoff : root.fieldAs Y.uint32 "CutoffLimit" = some (some cutoffLimit)) :
    file.cutoffLimit = adjustCutoff file.definingLimit cutoffLimit := by
  obtain ⟨definingLimit, cutoffLimit', version, modifiedTime, items, db, -, hcutoff', -, -, -,
    hmodels, rfl⟩ := read_eq_some h
  cases hcutoff.symm.trans hcutoff'
  have hempty : Loaded factory
      { definingLimit := definingLimit
        cutoffLimit := adjustCutoff definingLimit cutoffLimit
        protocolModelOrder := ([] : List (ProtocolModel R))
        portHintOrder := [] } :=
    ⟨List.nodup_nil, fun pm hpm => absurd hpm List.not_mem_nil⟩
  obtain ⟨-, hdefining, hcutoff''⟩ := hempty.readModels hmodels
  change db.cutoffLimit = adjustCutoff db.definingLimit cutoffLimit
  rw [hdefining, hcutoff'']

/-- The adjusted cutoff is not below the defining limit, with two exceptions. -/
theorem le_adjustCutoff_iff {definingLimit cutoffLimit : UInt32} (hpos : definingLimit ≠ 0) :
    definingLimit ≤ adjustCutoff definingLimit cutoffLimit ↔
      cutoffLimit ≠ 0 ∧ definingLimit ≠ 4294967295 := by
  unfold adjustCutoff
  grind

/-- … which leave a cutoff of zero. -/
theorem adjustCutoff_eq_zero {definingLimit cutoffLimit : UInt32} (hpos : definingLimit ≠ 0)
    (h : ¬ definingLimit ≤ adjustCutoff definingLimit cutoffLimit) :
    adjustCutoff definingLimit cutoffLimit = 0 := by
  rw [le_adjustCutoff_iff hpos] at h
  unfold adjustCutoff
  grind

end ProtocolModelFile

namespace Flow

variable {R : Type} [Double R] {S : Setup R}

/-- Every meter measures the packet, and what they hold then is compared with the models. -/
def MeasuresAndMatches (S : Setup R) (f : Flow R) (p : IPv4Packet) : Prop :=
  ∃ g, f.examined S p = some g ∧
    g.attributeMeters = f.attributeMeters.map (fun m => m.calculateMeasurement g.reading p) ∧
    f.addPacket S p = (g.matchModels S (List.range S.database.size)).useBestMatch S

/-- After some packets the flow is not classified, and this one is the data packet whose number is
the defining limit. -/
def ReachesLimit (S : Setup R) (p : IPv4Packet) (stale : FirstBytes) (packets : List IPv4Packet)
    (q : IPv4Packet) : Prop :=
  (ofPackets S p stale packets).isDataPacket q = true ∧
    ((Flow.new S p stale).dataSteps S packets).length + 1 = S.database.definingLimit.toNat ∧
    (ofPackets S p stale packets).flowClassified = false

/-- In classification mode, what is examined is measured and matched. -/
theorem measuresAndMatches_iff (hmode : S.config.learningMode = false) {f : Flow R}
    {p : IPv4Packet} : f.MeasuresAndMatches S p ↔ (f.examined S p).isSome = true := by
  constructor
  · rintro ⟨g, hg, -⟩
    rw [hg, Option.isSome_some]
  · intro hsome
    obtain ⟨g, hg⟩ := Option.isSome_iff_exists.mp hsome
    refine ⟨g, hg, examined_attributeMeters hg, ?_⟩
    rw [addPacket_of_examined hg]
    unfold classify
    rw [hmode, (examined_sameResult hg).2, Bool.not_false, Bool.and_self, if_pos rfl]

/-- The packet that reaches the limit is examined unless the cutoff is lower. -/
theorem ReachesLimit.examined_iff {p : IPv4Packet} {stale : FirstBytes}
    {packets : List IPv4Packet} {q : IPv4Packet} (h : ReachesLimit S p stale packets q) :
    ((ofPackets S p stale packets).examined S q).isSome = true ↔
      S.database.definingLimit ≤ S.database.cutoffLimit := by
  obtain ⟨hdata, hnumber, hopen⟩ := h
  have hcount : (ofPackets S p stale packets).pktCount + 1 = S.database.definingLimit := by
    have hlength : (ofPackets S p stale packets).pktCount = _ :=
      dataSteps_length (Flow.new S p stale) packets
    rw [hlength, show (Flow.new S p stale).pktCount = 0 from rfl, UInt32.zero_add,
      ← UInt32.ofNat_toNat (x := S.database.definingLimit), ← hnumber, UInt32.ofNat_add]
    rfl
  rw [examined_isSome_iff, hcount]
  exact ⟨fun h => h.2.2, fun h => ⟨hdata, hopen, h⟩⟩

/-- With a cutoff of zero, datagrams reach every limit. -/
theorem reachesLimit_replicate (hcutoff : S.database.cutoffLimit = 0)
    (hlimit : S.database.definingLimit ≠ 0) {p : IPv4Packet} (hudp : p.transport = .udp)
    (stale : FirstBytes) :
    ReachesLimit S p stale (List.replicate (S.database.definingLimit.toNat - 1) p) p := by
  have hpos : 0 < S.database.definingLimit.toNat :=
    Nat.pos_of_ne_zero fun h => hlimit (UInt32.toNat_inj.mp h)
  have hlt := S.database.definingLimit.toNat_lt
  have hall : ∀ q ∈ List.replicate (S.database.definingLimit.toNat - 1) p, q.transport = .udp :=
    fun q hq => by rwa [List.eq_of_mem_replicate hq]
  obtain ⟨hopen, hlength⟩ := addPackets_udp (S := S) (f := Flow.new S p stale) rfl hall
  rw [List.length_replicate] at hlength
  refine ⟨isDataPacket_udp hudp hopen, by rw [hlength, Nat.sub_add_cancel hpos], ?_⟩
  -- a packet that is shown to the meters has a number that is zero in 32 bits
  have hnone : (Flow.new S p stale).observations S
      (List.replicate (S.database.definingLimit.toNat - 1) p) = [] := by
    rw [← numbered_map_fst, List.map_eq_nil_iff, List.eq_nil_iff_forall_not_mem]
    rintro ⟨o, n⟩ ho
    obtain ⟨hcount, hle, hone, hn⟩ := pktCount_of_numbered ho
    rw [hcutoff, hcount, UInt32.le_iff_toNat_le, show (Flow.new S p stale).pktCount = 0 from rfl,
      UInt32.zero_add, UInt32.toNat_ofNat', Nat.mod_eq_of_lt (by omega)] at hle
    exact absurd hle (by simpa using Nat.pos_iff_ne_zero.mp hone)
  exact flowClassified_of_unobserved hnone

/-- **The defining limit can be reached, with two exceptions.** For every database that was read and
every flow in classification mode, the data packet whose number is the defining limit is measured
and matched if the flow is not classified by then; this holds exactly when there is no such packet,
or the file's cutoff limit is not zero and its defining limit is not the largest number. -/
theorem limit_reached_iff {Y : Conversions R} {bytes : FirstBytes} {now : Int}
    {factory factory' : AttributeMeterFactory} {root : Yaml} {file : ProtocolModelFile R}
    (hread : ProtocolModelFile.read Y bytes now factory root = some (file, factory'))
    {cutoffLimit : UInt32} (hcutoff : root.fieldAs Y.uint32 "CutoffLimit" = some (some cutoffLimit))
    (hdatabase : S.database = file.toProtocolModelDb) (hmode : S.config.learningMode = false) :
    (∀ (p : IPv4Packet) (stale : FirstBytes) (packets : List IPv4Packet) (q : IPv4Packet),
        ReachesLimit S p stale packets q →
          (ofPackets S p stale packets).MeasuresAndMatches S q) ↔
      file.definingLimit = 0 ∨ cutoffLimit ≠ 0 ∧ file.definingLimit ≠ 4294967295 := by
  have hlimits := ProtocolModelFile.limits_of_read hread hcutoff
  have hdefining : S.database.definingLimit = file.definingLimit := by rw [hdatabase]
  have hcut : S.database.cutoffLimit = file.cutoffLimit := by rw [hdatabase]
  by_cases hzero : file.definingLimit = 0
  · refine ⟨fun _ => Or.inl hzero, fun _ p stale packets q h => ?_⟩
    have hnumber := h.2.1
    rw [hdefining, hzero] at hnumber
    exact absurd hnumber (Nat.succ_ne_zero _)
  · rw [or_iff_right hzero, ← ProtocolModelFile.le_adjustCutoff_iff hzero, ← hlimits]
    constructor
    · intro h
      by_contra hnot
      rw [hlimits] at hnot
      have hnone := ProtocolModelFile.adjustCutoff_eq_zero hzero hnot
      have hreaches := reachesLimit_replicate (S := S) (by rw [hcut, hlimits, hnone])
        (by rwa [hdefining]) (p := oneByte) rfl fun _ => 0
      have hexamined := hreaches.examined_iff.mp
        ((measuresAndMatches_iff hmode).mp (h _ _ _ _ hreaches))
      rw [hdefining, hcut, hlimits] at hexamined
      exact hnot hexamined
    · intro hle p stale packets q h
      rw [measuresAndMatches_iff hmode, h.examined_iff, hdefining, hcut]
      exact hle

/-- A file that has nothing but the two limits. -/
def limitsRoot (definingLimit cutoffLimit : String) : Yaml :=
  .map [("DefiningLimit", .scalar definingLimit), ("CutoffLimit", .scalar cutoffLimit)]

/-- The scalars of such files. -/
def knownLimits : Conversions ℚ :=
  { ProtocolModelFile.knownScalars with
    uint32 := ProtocolModelFile.knownCodec
      [(0, "0"), (1, "1"), (10, "10"), (4294967295, "4294967295")] }

/-- Reading such a file. -/
def readLimits (definingLimit cutoffLimit : String) :
    Option (ProtocolModelFile ℚ × AttributeMeterFactory) :=
  ProtocolModelFile.read knownLimits (fun _ => 0) 0 ProtocolModelFile.freshFactory
    (limitsRoot definingLimit cutoffLimit)

/-- The program once it has read a database. -/
def withDatabase (file : ProtocolModelFile ℚ) : Setup ℚ :=
  { (Setup.initial : Setup ℚ) with database := file.toProtocolModelDb }

theorem exists_readLimits {definingLimit cutoffLimit : String} {d c : UInt32}
    (h : (readLimits definingLimit cutoffLimit).any
      (fun r => r.1.definingLimit == d && r.1.cutoffLimit == c) = true) :
    ∃ file factory', readLimits definingLimit cutoffLimit = some (file, factory') ∧
      file.definingLimit = d ∧ file.cutoffLimit = c := by
  obtain ⟨⟨file, factory'⟩, hread, hseen⟩ := (Option.any_eq_true _ _).mp h
  obtain ⟨hd, hc⟩ := Bool.and_eq_true_iff.mp hseen
  exact ⟨file, factory', hread, beq_iff_eq.mp hd, beq_iff_eq.mp hc⟩

/-- Two limits that are equal are moved apart. -/
theorem equalLimits_reached :
    ∃ file factory', readLimits "10" "10" = some (file, factory') ∧
      ∀ (p : IPv4Packet) (stale : FirstBytes) (packets : List IPv4Packet) (q : IPv4Packet),
        ReachesLimit (withDatabase file) p stale packets q →
          (ofPackets (withDatabase file) p stale packets).MeasuresAndMatches
            (withDatabase file) q := by
  obtain ⟨file, factory', hread, hlimit, -⟩ :=
    exists_readLimits (d := 10) (c := 11)
      (show (readLimits "10" "10").any _ = true by decide +kernel)
  have hcutoff : (limitsRoot "10" "10").fieldAs knownLimits.uint32 "CutoffLimit" =
    some (some 10) := rfl
  refine ⟨file, factory', hread, ?_⟩
  refine (limit_reached_iff (S := withDatabase file) hread hcutoff rfl rfl).mpr ?_
  rw [hlimit]
  decide

/-- In classification mode, a datagram reaches the defining limit of a database with these limits
and is not looked at. -/
def SkipsLimit (definingLimit cutoffLimit : String) : Prop :=
  ∃ file factory', readLimits definingLimit cutoffLimit = some (file, factory') ∧
    (withDatabase file).config.learningMode = false ∧
    ∃ packets, ReachesLimit (withDatabase file) oneByte (fun _ => 0) packets oneByte ∧
      ¬ (ofPackets (withDatabase file) oneByte (fun _ => 0) packets).MeasuresAndMatches
        (withDatabase file) oneByte

/-- So it is if the cutoff is zero in the end. -/
theorem skipsLimit_of_cutoff {definingLimit cutoffLimit : String} {d : UInt32} (hd : d ≠ 0)
    (h : (readLimits definingLimit cutoffLimit).any
      (fun r => r.1.definingLimit == d && r.1.cutoffLimit == 0) = true) :
    SkipsLimit definingLimit cutoffLimit := by
  obtain ⟨file, factory', hread, hdefining, hcutoff⟩ := exists_readLimits h
  rw [← hdefining] at hd
  have hreaches := reachesLimit_replicate (S := withDatabase file) hcutoff hd (p := oneByte) rfl
    fun _ => 0
  refine ⟨file, factory', hread, rfl, _, hreaches, fun hmatched => hd ?_⟩
  have hle : file.definingLimit ≤ file.cutoffLimit :=
    hreaches.examined_iff.mp ((measuresAndMatches_iff rfl).mp hmatched)
  rw [hcutoff] at hle
  exact UInt32.le_zero_iff.mp hle

/-- The two exceptions: a cutoff limit of zero, and the largest defining limit. -/
theorem limits_not_reached : SkipsLimit "1" "0" ∧ SkipsLimit "4294967295" "1" := by
  constructor
  · exact skipsLimit_of_cutoff (d := 1) (by decide) (by decide +kernel)
  · exact skipsLimit_of_cutoff (d := 4294967295) (by decide) (by decide +kernel)

end Flow

end Vsid
