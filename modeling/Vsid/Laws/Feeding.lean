import Vsid.Common.Feeding
import Vsid.Laws.Steps
import Vsid.Laws.Verdicts

/-!
# Which packets the meters of a flow are fed

A packet is fed to every meter of a flow or to none, and only what it is fed to changes. Which
packets these are depends on their numbers among the data packets, and on the one that classifies
the flow: `measuredSteps_eq` says it of every run, whatever the meters do, and
`measuredSteps_of_short` for a run whose data packets can be counted in 32 bits. `fedExactly`
collects the laws.
-/

set_option autoImplicit false

namespace Vsid

namespace Flow

variable {R : Type} [Double R] {S : Setup R}

/-! ## One packet -/

/-- What a meter holds after a call, thrown or not. -/
def caught (measure : Calculation R) (reading : FlowReading) (p : IPv4Packet)
    (m : AttributeMeter R) : AttributeMeter R :=
  match measure m reading p with
  | .ok m' => m'
  | .error left => left

omit [Double R] in
/-- The loop calls every meter once, in order. -/
theorem feedMeters_eq (measure : Calculation R) (reading : FlowReading) (p : IPv4Packet) (i : Nat)
    (meters : List (AttributeMeter R)) :
    feedMeters measure reading p i meters =
      (meters.map (caught measure reading p),
        (List.range' i meters.length).map fun j => ⟨j, p⟩) := by
  induction meters generalizing i with
  | nil => rfl
  | cons m meters ih =>
    rw [feedMeters, ih, List.length_cons, List.range'_succ]
    rfl

/-- The flow is the one that the packet leaves when its verdict is followed as well. -/
theorem feed_fst (C : NetfilterConfig) (f : Flow R) (q : Feed R) (h : Held) :
    (f.feed S q).1 = (f.addPacketHeld C S q.2 q.1 h).1 := by
  unfold feed addPacketHeld addPacketBody
  rw [advanceHeld_eq]
  obtain ⟨g, returned⟩ := f.advance q.1
  cases returned with
  | true => rfl
  | false =>
    simp only [Bool.false_eq_true, if_false]
    split
    · rfl
    · unfold feedDataPacket addDataPacketHeld
      simp only [feedMeters_eq]
      split
      · rfl
      · split <;> rfl

/-- A packet that is not examined is fed to no meter. -/
theorem feed_of_not_examined {f : Flow R} {q : Feed R} (h : f.examined S q.1 = none) :
    f.feed S q = (f.addPacket S q.1, []) := by
  unfold feed addPacket
  unfold examined at h
  generalize f.advance q.1 = stage at h ⊢
  obtain ⟨g, returned⟩ := stage
  cases returned with
  | true => rfl
  | false =>
    simp only at h ⊢
    split at h
    next hbare => rw [if_pos hbare, if_pos hbare]
    next hbare =>
      rw [if_neg hbare, if_neg hbare]
      unfold feedDataPacket addDataPacket
      simp only at h ⊢
      split at h
      next hclassified => rw [if_pos hclassified, if_pos hclassified]
      next hopen =>
        split at h
        next hcutoff => rw [if_neg hopen, if_neg hopen, if_pos hcutoff, if_pos hcutoff]
        next => cases h

/-- A packet that is examined is fed to every meter, and then the flow is matched. -/
theorem feed_of_examined {f g : Flow R} {q : Feed R} (h : f.examined S q.1 = some g) :
    f.feed S q =
      (({ g with attributeMeters := f.attributeMeters.map (caught q.2 g.reading q.1) } :
          Flow R).classify S,
        (List.range' 0 f.attributeMeters.length).map fun j => ⟨j, q.1⟩) := by
  have hmeters := advance_attributeMeters f q.1
  unfold feed
  unfold examined at h
  generalize f.advance q.1 = stage at h hmeters
  obtain ⟨f', returned⟩ := stage
  cases returned with
  | true => cases h
  | false =>
    simp only at h hmeters ⊢
    split at h
    next => cases h
    next hbare =>
      split at h
      next => cases h
      next hopen =>
        split at h
        next => cases h
        next hcutoff =>
          cases h
          rw [if_neg hbare]
          unfold feedDataPacket
          simp only [feedMeters_eq]
          rw [if_neg hopen, if_neg hcutoff, show (f'.countPacket q.1).attributeMeters =
            f.attributeMeters from hmeters]
          rfl

/-- What nobody feeds stays as it is: the meters, the best match and the result. -/
structure Frozen (f g : Flow R) : Prop extends SameResult f g where
  attributeMeters : g.attributeMeters = f.attributeMeters

omit [Double R] in
theorem Frozen.refl (f : Flow R) : Frozen f f := ⟨⟨rfl, rfl, rfl, rfl, rfl⟩, rfl⟩

omit [Double R] in
theorem Frozen.trans {f g k : Flow R} (h : Frozen f g) (h' : Frozen g k) : Frozen f k :=
  ⟨h.toSameResult.trans h'.toSameResult, h'.attributeMeters.trans h.attributeMeters⟩

theorem frozen_feed {f : Flow R} {q : Feed R} (h : f.examined S q.1 = none) :
    Frozen f (f.feed S q).1 := by
  rw [feed_of_not_examined h]
  exact ⟨addPacket_sameResult h, addPacket_attributeMeters h⟩

/-- The number of meters stays the same. -/
theorem feed_meters_length (f : Flow R) (q : Feed R) :
    (f.feed S q).1.attributeMeters.length = f.attributeMeters.length := by
  cases hexamined : f.examined S q.1 with
  | none => rw [(frozen_feed hexamined).attributeMeters]
  | some g => rw [feed_of_examined hexamined, classify_attributeMeters, List.length_map]

/-- A packet counts exactly when it is a data packet. -/
theorem feed_pktCount (f : Flow R) (q : Feed R) :
    (f.feed S q).1.pktCount = if f.isDataPacket q.1 then f.pktCount + 1 else f.pktCount := by
  cases hexamined : f.examined S q.1 with
  | none => rw [feed_of_not_examined hexamined, pktCount_addPacket]
  | some g =>
    have hsome : (f.examined S q.1).isSome = true := by rw [hexamined, Option.isSome_some]
    obtain ⟨_, _, _, _, _, h⟩ := classify_frame S
      ({ g with attributeMeters := f.attributeMeters.map (caught q.2 g.reading q.1) } : Flow R)
    rw [feed_of_examined hexamined, (examined_isSome_iff.mp hsome).1, if_pos rfl,
      ← examined_pktCount hexamined]
    have hcount := congrArg Flow.pktCount h
    exact hcount

/-- A classified flow stays classified. -/
theorem feed_flowClassified {f : Flow R} (q : Feed R) (h : f.flowClassified = true) :
    (f.feed S q).1.flowClassified = true := by
  have hnone : f.examined S q.1 = none := by
    rw [← Option.not_isSome_iff_eq_none, examined_isSome_iff, h]
    exact fun hexamined => absurd hexamined.2.1 (by decide)
  rw [(frozen_feed hnone).flowClassified, h]

/-! ## The steps of a run -/

/-- A packet with the flow that it meets and the flow that it leaves. -/
structure FedStep (R : Type) where
  before : Flow R
  packet : IPv4Packet
  after : Flow R

/-- The step classifies the flow. -/
def FedStep.classifies (s : FedStep R) : Bool :=
  !s.before.flowClassified && s.after.flowClassified

/-- The packets of a run. -/
def fedSteps (S : Setup R) : Flow R → List (Feed R) → List (FedStep R)
  | _, [] => []
  | f, q :: run => ⟨f, q.1, (f.feed S q).1⟩ :: (f.feed S q).1.fedSteps S run

/-- The data packets of a run. -/
def dataFed (S : Setup R) (f : Flow R) (run : List (Feed R)) : List (FedStep R) :=
  (f.fedSteps S run).filter fun s => s.before.isDataPacket s.packet

/-- The packets that the meters are fed. -/
def measuredSteps (S : Setup R) (f : Flow R) (run : List (Feed R)) : List (FedStep R) :=
  (f.fedSteps S run).filter fun s => (s.before.examined S s.packet).isSome

/-- The number of the data packet that classifies the flow. -/
def classifyingNumber (S : Setup R) (f : Flow R) (run : List (Feed R)) : Option Nat :=
  ((f.dataFed S run).findIdx? FedStep.classifies).map (· + 1)

/-- The number of the last data packet that comes in time: the classifying one, if there is one. -/
def lastNumber (S : Setup R) (f : Flow R) (run : List (Feed R)) : Nat :=
  (f.classifyingNumber S run).getD (f.dataFed S run).length

theorem feedAll_cons (f : Flow R) (q : Feed R) (run : List (Feed R)) :
    f.feedAll S (q :: run) =
      (((f.feed S q).1.feedAll S run).1, (f.feed S q).2 ++ ((f.feed S q).1.feedAll S run).2) := rfl

theorem feedAll_append_fst (f : Flow R) (run more : List (Feed R)) :
    (f.feedAll S (run ++ more)).1 = ((f.feedAll S run).1.feedAll S more).1 := by
  induction run generalizing f with
  | nil => rfl
  | cons q run ih => exact ih _

theorem fedSteps_append (f : Flow R) (run more : List (Feed R)) :
    f.fedSteps S (run ++ more) =
      f.fedSteps S run ++ (f.feedAll S run).1.fedSteps S more := by
  induction run generalizing f with
  | nil => rfl
  | cons q run ih => exact congrArg (List.cons _) (ih _)

theorem dataFed_append (f : Flow R) (run more : List (Feed R)) :
    f.dataFed S (run ++ more) = f.dataFed S run ++ (f.feedAll S run).1.dataFed S more := by
  rw [dataFed, fedSteps_append, List.filter_append]
  rfl

theorem measuredSteps_append (f : Flow R) (run more : List (Feed R)) :
    f.measuredSteps S (run ++ more) =
      f.measuredSteps S run ++ (f.feedAll S run).1.measuredSteps S more := by
  rw [measuredSteps, fedSteps_append, List.filter_append]
  rfl

/-- **Each meter receives the measured packets**, once each and in order. -/
theorem calls_eq (f : Flow R) (run : List (Feed R)) (i : Nat) :
    ((f.feedAll S run).2.filter (fun c => c.meter == i)).map MeterCall.packet =
      if i < f.attributeMeters.length then (f.measuredSteps S run).map FedStep.packet else [] := by
  induction run generalizing f with
  | nil =>
    split <;> rfl
  | cons q run ih =>
    have hcall : ((f.feed S q).2.filter (fun c => c.meter == i)).map MeterCall.packet =
        if i < f.attributeMeters.length ∧ (f.examined S q.1).isSome = true then [q.1] else [] := by
      cases hexamined : f.examined S q.1 with
      | none =>
        rw [feed_of_not_examined hexamined, if_neg fun h => absurd h.2 Bool.false_ne_true]
        rfl
      | some g =>
        rw [feed_of_examined hexamined, Option.isSome_some, List.filter_map, List.map_map,
          ← List.range_eq_range',
          show ((fun c : MeterCall => c.meter == i) ∘ fun j => ⟨j, q.1⟩) = fun j => j == i from rfl,
          List.filter_beq, List.count_range]
        by_cases hi : i < f.attributeMeters.length
        · rw [if_pos hi, if_pos ⟨hi, rfl⟩]
          rfl
        · rw [if_neg hi, if_neg fun h => hi h.1]
          rfl
    have hsteps : (f.measuredSteps S (q :: run)).map FedStep.packet =
        (if (f.examined S q.1).isSome = true then [q.1] else []) ++
          ((f.feed S q).1.measuredSteps S run).map FedStep.packet := by
      rw [measuredSteps, fedSteps, List.filter_cons]
      split <;> rfl
    rw [feedAll_cons, List.filter_append, List.map_append, hcall, ih, feed_meters_length, hsteps]
    by_cases hi : i < f.attributeMeters.length
    · simp only [hi, true_and, if_true]
    · simp only [hi, false_and, if_false, List.append_nil]

/-! ## Numbers -/

theorem dataFed_cons (f : Flow R) (q : Feed R) (run : List (Feed R)) :
    f.dataFed S (q :: run) =
      (if f.isDataPacket q.1 then [⟨f, q.1, (f.feed S q).1⟩] else []) ++
        (f.feed S q).1.dataFed S run := by
  rw [dataFed, fedSteps, List.filter_cons]
  split <;> rfl

/-- Other packets do not classify a flow. -/
theorem flowClassified_of_not_data {f : Flow R} {q : Feed R} (h : f.isDataPacket q.1 = false) :
    (f.feed S q).1.flowClassified = f.flowClassified := by
  have hnone : f.examined S q.1 = none := by
    rw [← Option.not_isSome_iff_eq_none, examined_isSome_iff, h]
    exact fun hexamined => absurd hexamined.1 Bool.false_ne_true
  exact (frozen_feed hnone).flowClassified

/-- A data packet shows its number in the counter, and finds the flow unclassified exactly when no
earlier one has classified it. -/
theorem dataFed_numbers {f : Flow R} {run : List (Feed R)} {s : FedStep R} {j : Nat}
    (h : (s, j) ∈ (f.dataFed S run).zipIdx) :
    s.before.pktCount + 1 = f.pktCount + UInt32.ofNat (j + 1) ∧
      (s.before.flowClassified = false ↔ f.flowClassified = false ∧
        ∀ k ∈ (f.dataFed S run).findIdx? FedStep.classifies, j ≤ k) := by
  induction run generalizing f j with
  | nil => exact absurd h List.not_mem_nil
  | cons q run ih =>
    have hcount := feed_pktCount (S := S) f q
    rw [dataFed_cons] at h ⊢
    cases hdata : f.isDataPacket q.1 with
    | false =>
      rw [hdata, if_neg Bool.false_ne_true, List.nil_append] at h
      rw [hdata, if_neg Bool.false_ne_true] at hcount
      obtain ⟨hnumber, hopen⟩ := ih h
      rw [if_neg Bool.false_ne_true, List.nil_append, ← hcount,
        ← flowClassified_of_not_data hdata (S := S)]
      exact ⟨hnumber, hopen⟩
    | true =>
      rw [hdata, if_pos rfl, List.singleton_append, List.zipIdx_cons, List.mem_cons] at h
      rw [hdata, if_pos rfl] at hcount
      rw [if_pos rfl, List.singleton_append, List.findIdx?_cons]
      rcases h with heq | hlater
      · cases heq
        exact ⟨rfl, fun hopen => ⟨hopen, fun k _ => Nat.zero_le k⟩, fun hopen => hopen.1⟩
      · rw [Nat.zero_add, List.mem_zipIdx_iff_le_and_getElem?_sub] at hlater
        obtain ⟨hone, hget⟩ := hlater
        obtain ⟨j', rfl⟩ := Nat.exists_eq_add_of_le' hone
        rw [Nat.add_sub_cancel] at hget
        obtain ⟨hnumber, hopen⟩ := ih (List.mem_zipIdx_iff_getElem?.mpr hget)
        refine ⟨?_, ?_⟩
        · rw [hnumber, hcount, UInt32.ofNat_add (j' + 1) 1, UInt32.add_assoc,
            UInt32.add_comm (UInt32.ofNat (j' + 1))]
          rfl
        · rw [hopen, FedStep.classifies]
          cases hclassified : f.flowClassified with
          | true =>
            rw [feed_flowClassified q hclassified]
            simp only [Bool.true_eq_false, false_and]
          | false =>
            cases (f.feed S q).1.flowClassified with
            | true =>
              simp only [Bool.true_eq_false, false_and, Bool.not_false, Bool.and_self, if_true,
                Option.mem_some_iff, forall_eq', true_and, false_iff]
              omega
            | false =>
              simp only [Bool.not_false, Bool.and_false, Bool.false_eq_true, if_false, true_and,
                Option.mem_map, forall_exists_index, and_imp, forall_apply_eq_imp_iff₂,
                Nat.add_le_add_iff_right]

/-- The counter counts the data packets. -/
theorem feedAll_pktCount (f : Flow R) (run : List (Feed R)) :
    (f.feedAll S run).1.pktCount = f.pktCount + UInt32.ofNat (f.dataFed S run).length := by
  induction run generalizing f with
  | nil => exact (UInt32.add_zero _).symm
  | cons q run ih =>
    have hstep := feed_pktCount (S := S) f q
    rw [feedAll_cons, ih, hstep, dataFed_cons, List.length_append]
    split
    · rw [List.length_singleton, UInt32.ofNat_add, UInt32.add_assoc]
      rfl
    · rw [List.length_nil, Nat.zero_add]

/-- A filter that keeps the numbers up to a bound takes as many elements. -/
theorem filter_zipIdx_le {α : Type} (l : List α) (k m : Nat) :
    ((l.zipIdx k).filter fun s => s.2 < k + m).map Prod.fst = l.take m := by
  induction l generalizing k m with
  | nil => rw [List.take_nil]; rfl
  | cons a l ih =>
    cases m with
    | zero =>
      rw [List.take_zero, List.map_eq_nil_iff, List.filter_eq_nil_iff]
      intro s hs
      have hle := List.le_snd_of_mem_zipIdx hs
      simpa using hle
    | succ m =>
      have hrest := ih (k + 1) m
      rw [List.take_succ_cons, List.zipIdx_cons, List.filter_cons,
        if_pos (by simp), List.map_cons, ← hrest, Nat.add_right_comm k 1 m, Nat.add_assoc k m 1]

/-- A data packet comes in time exactly when its number does not exceed the last one. -/
theorem le_lastNumber_iff {f : Flow R} {run : List (Feed R)} {j : Nat}
    (hj : j < (f.dataFed S run).length) :
    j + 1 ≤ f.lastNumber S run ↔
      ∀ k ∈ (f.dataFed S run).findIdx? FedStep.classifies, j ≤ k := by
  unfold lastNumber classifyingNumber
  cases (f.dataFed S run).findIdx? FedStep.classifies with
  | none => exact iff_of_true hj fun k hk => absurd hk (Option.not_mem_none k)
  | some k =>
    simp only [Option.map_some, Option.getD_some, Option.mem_some_iff, forall_eq',
      Nat.add_le_add_iff_right]

/-- **What is measured**: the data packets up to the one that classifies the flow whose number does
not exceed the cutoff limit in 32 bits. -/
theorem measuredSteps_eq {f : Flow R} (hcount : f.pktCount = 0) (hopen : f.flowClassified = false)
    (run : List (Feed R)) :
    f.measuredSteps S run =
      (((f.dataFed S run).zipIdx 1).filter fun s =>
        s.2 % 2 ^ 32 ≤ S.database.cutoffLimit.toNat ∧ s.2 ≤ f.lastNumber S run).map Prod.fst := by
  have hdata : f.measuredSteps S run =
      (f.dataFed S run).filter fun s => (s.before.examined S s.packet).isSome := by
    rw [dataFed, List.filter_filter]
    refine List.filter_congr fun s _ => ?_
    cases hsome : (s.before.examined S s.packet).isSome with
    | false => rfl
    | true => rw [(examined_isSome_iff.mp hsome).1]; rfl
  rw [hdata]
  conv_lhs => rw [← List.zipIdx_map_fst 1 (f.dataFed S run), List.filter_map]
  refine congrArg _ (List.filter_congr ?_)
  rintro ⟨s, n⟩ hs
  obtain ⟨hone, hget⟩ := List.mem_zipIdx_iff_le_and_getElem?_sub.mp hs
  obtain ⟨j, rfl⟩ := Nat.exists_eq_add_of_le' hone
  rw [Nat.add_sub_cancel] at hget
  have hmem : (s, j) ∈ (f.dataFed S run).zipIdx := List.mem_zipIdx_iff_getElem?.mpr hget
  obtain ⟨hnumber, hunclassified⟩ := dataFed_numbers hmem
  have hisData := (List.mem_filter.mp (List.mem_of_getElem? hget)).2
  rw [hcount, UInt32.zero_add] at hnumber
  rw [hopen] at hunclassified
  rw [Bool.eq_iff_iff, Function.comp_apply, decide_eq_true_iff, examined_isSome_iff, hnumber,
    hunclassified, le_lastNumber_iff (List.getElem?_eq_some_iff.mp hget).1,
    UInt32.le_iff_toNat_le, UInt32.toNat_ofNat']
  simp only [hisData, true_and]
  exact and_comm

/-- As long as 32 bits are enough, these are the first ones. -/
theorem measuredSteps_of_short {f : Flow R} (hcount : f.pktCount = 0)
    (hopen : f.flowClassified = false) {run : List (Feed R)}
    (hshort : (f.dataFed S run).length < 2 ^ 32) :
    f.measuredSteps S run =
      (f.dataFed S run).take (min S.database.cutoffLimit.toNat (f.lastNumber S run)) := by
  rw [measuredSteps_eq hcount hopen, ← filter_zipIdx_le _ 1]
  refine congrArg _ (List.filter_congr ?_)
  rintro ⟨s, n⟩ hs
  have hn := List.snd_lt_of_mem_zipIdx hs
  simp only at hn ⊢
  rw [Nat.mod_eq_of_lt (by omega), decide_eq_decide, Nat.add_comm, Nat.lt_succ_iff, Nat.le_min]

/-! ## Nothing changes afterwards -/

/-- When nothing is measured, nothing changes. -/
theorem frozen_of_unmeasured {f : Flow R} {run : List (Feed R)}
    (h : f.measuredSteps S run = []) : Frozen f (f.feedAll S run).1 := by
  induction run generalizing f with
  | nil => exact .refl f
  | cons q run ih =>
    rw [measuredSteps, fedSteps, List.filter_cons] at h
    split at h
    next => cases h
    next hnot =>
      have hnone := Option.not_isSome_iff_eq_none.mp hnot
      rw [feedAll_cons]
      exact (frozen_feed hnone).trans (ih h)

/-- What comes later does not change which packet came last in time. -/
theorem le_lastNumber_prefix (f : Flow R) (run more : List (Feed R)) :
    min (f.lastNumber S (run ++ more)) (f.dataFed S run).length ≤ f.lastNumber S run := by
  unfold lastNumber classifyingNumber
  rw [dataFed_append, List.findIdx?_append]
  cases (f.dataFed S run).findIdx? FedStep.classifies with
  | none => exact Nat.min_le_right _ _
  | some k => exact Nat.min_le_left _ _

/-- **After the last packet that is measured, nothing changes.** -/
theorem frozen_after {f : Flow R} (hcount : f.pktCount = 0) (hopen : f.flowClassified = false)
    {run more : List (Feed R)} (hshort : (f.dataFed S (run ++ more)).length < 2 ^ 32)
    (hlast : min S.database.cutoffLimit.toNat (f.lastNumber S (run ++ more)) ≤
      (f.dataFed S run).length) :
    Frozen (f.feedAll S run).1 (f.feedAll S (run ++ more)).1 := by
  have hshort' : (f.dataFed S run).length < 2 ^ 32 := by
    rw [dataFed_append, List.length_append] at hshort
    omega
  have hall := congrArg List.length (measuredSteps_of_short hcount hopen hshort)
  have hrun := congrArg List.length (measuredSteps_of_short hcount hopen hshort')
  have hprefix := le_lastNumber_prefix (S := S) f run more
  rw [measuredSteps_append, List.length_append, List.length_take] at hall
  rw [List.length_take] at hrun
  have hnone : (f.feedAll S run).1.measuredSteps S more = [] := by
    rw [← List.length_eq_zero_iff]
    omega
  rw [feedAll_append_fst]
  exact frozen_of_unmeasured hnone

/-! ## Finished flows -/

/-- A finished flow counts its packets, and nothing else changes in it. -/
theorem feedAll_of_isFinished {f : Flow R} (h : f.isFinished = true) (run : List (Feed R)) :
    ∃ count first, (f.feedAll S run).1 =
        { f with overallPktCount := count, isFirstPacket := first } ∧
      (f.feedAll S run).2 = [] := by
  induction run generalizing f with
  | nil => exact ⟨_, _, rfl, rfl⟩
  | cons q run ih =>
    have hnone : f.examined S q.1 = none := by
      rw [← Option.not_isSome_iff_eq_none, examined_isSome_iff, isDataPacket_iff]
      unfold isFinished at h
      unfold advance
      cases hs : f.flowState <;> simp_all
    have hstep : f.feed S q = (f.arrive, []) := by
      rw [feed_of_not_examined hnone, addPacket_of_isFinished S f q.1 h]
    obtain ⟨count, first, hrest, hcalls⟩ := ih (f := f.arrive) h
    rw [feedAll_cons, hstep, hrest, hcalls]
    exact ⟨count, first, rfl, rfl⟩

/-! ## All of it -/

/-- **The meters are fed the right packets, and what they have led to stays.** For every flow, every
sequence of packets and whatever the meters do with each of them: a meter receives the data packets
up to the one that classifies the flow whose number does not exceed the cutoff limit in 32 bits,
once each and in order. As long as there are fewer than `2 ^ 32` data packets these are the first
ones, and after them no meter, best match or result changes. Beyond that nothing changes while
nothing is measured. A finished flow changes in its overall count and its first-packet flag only,
unless it is marked as notified. -/
theorem fed_exactly (S : Setup R) (p : IPv4Packet) (stale : FirstBytes) (run : List (Feed R)) :
    (∀ i < (Flow.new S p stale).attributeMeters.length,
      ((((Flow.new S p stale).feedAll S run).2.filter (fun c => c.meter == i)).map
          MeterCall.packet =
        ((((Flow.new S p stale).dataFed S run).zipIdx 1).filter fun s =>
          s.2 % 2 ^ 32 ≤ S.database.cutoffLimit.toNat ∧
            s.2 ≤ (Flow.new S p stale).lastNumber S run).map fun s => s.1.packet) ∧
      (((Flow.new S p stale).dataFed S run).length < 2 ^ 32 →
        (((Flow.new S p stale).feedAll S run).2.filter (fun c => c.meter == i)).map
            MeterCall.packet =
          (((Flow.new S p stale).dataFed S run).take (min S.database.cutoffLimit.toNat
            ((Flow.new S p stale).lastNumber S run))).map FedStep.packet)) ∧
    (∀ more, ((Flow.new S p stale).dataFed S (run ++ more)).length < 2 ^ 32 →
      min S.database.cutoffLimit.toNat ((Flow.new S p stale).lastNumber S (run ++ more)) ≤
        ((Flow.new S p stale).dataFed S run).length →
      Frozen ((Flow.new S p stale).feedAll S run).1
        ((Flow.new S p stale).feedAll S (run ++ more)).1) ∧
    (∀ more, ((Flow.new S p stale).feedAll S run).1.measuredSteps S more = [] →
      Frozen ((Flow.new S p stale).feedAll S run).1
        ((Flow.new S p stale).feedAll S (run ++ more)).1) ∧
    (((Flow.new S p stale).feedAll S run).1.isFinished = true →
      (∀ more, ∃ count first, ((Flow.new S p stale).feedAll S (run ++ more)).1 =
        { ((Flow.new S p stale).feedAll S run).1 with
          overallPktCount := count, isFirstPacket := first }) ∧
      ((Flow.new S p stale).feedAll S run).1.setFinishedAndNotified =
        { ((Flow.new S p stale).feedAll S run).1 with flowState := .finishedNotified }) := by
  refine ⟨fun i hi => ⟨?_, fun hshort => ?_⟩, fun more => frozen_after rfl rfl,
    fun more hnone => ?_, fun hfinished => ⟨fun more => ?_, rfl⟩⟩
  · rw [calls_eq, if_pos hi, measuredSteps_eq rfl rfl, List.map_map]
    rfl
  · rw [calls_eq, if_pos hi, measuredSteps_of_short rfl rfl hshort]
  · rw [feedAll_append_fst]
    exact frozen_of_unmeasured hnone
  · obtain ⟨count, first, hmore, -⟩ := feedAll_of_isFinished (S := S) hfinished more
    rw [feedAll_append_fst]
    exact ⟨count, first, hmore⟩

/-! ## After `2 ^ 32` packets -/

theorem feed_udp_open {f : Flow R} {q : Feed R} (hudp : q.1.transport = .udp)
    (hopen : f.isFinished = false) : (f.feed S q).1.isFinished = false := by
  have hadvance := (advance_udp hudp hopen).2
  cases hexamined : f.examined S q.1 with
  | none =>
    rw [feed_of_not_examined hexamined]
    exact addPacket_udp_open hudp hopen
  | some g =>
    obtain ⟨-, rfl⟩ := eq_of_examined hexamined
    rw [feed_of_examined hexamined]
    unfold isFinished
    obtain ⟨_, _, _, _, _, h⟩ := classify_frame S
      ({ ((((f.advance q.1).1.countPacket q.1).calculate q.1).touch q.1) with
        attributeMeters := f.attributeMeters.map (caught q.2 _ q.1) } : Flow R)
    rw [h]
    exact hadvance

/-- While the program learns, no packet classifies a flow. -/
theorem feed_learning (hmode : S.config.learningMode = true) (f : Flow R) (q : Feed R) :
    (f.feed S q).1.flowClassified = f.flowClassified := by
  cases hexamined : f.examined S q.1 with
  | none => exact (frozen_feed hexamined).flowClassified
  | some g =>
    rw [feed_of_examined hexamined]
    unfold classify
    rw [hmode, Bool.not_true, Bool.false_and, if_neg Bool.false_ne_true]
    exact (examined_sameResult hexamined).1.flowClassified

theorem classifyingNumber_learning (hmode : S.config.learningMode = true) (f : Flow R)
    (run : List (Feed R)) : f.classifyingNumber S run = none := by
  have hsteps : ∀ s ∈ f.fedSteps S run, s.classifies = false := by
    induction run generalizing f with
    | nil => exact fun s hs => absurd hs List.not_mem_nil
    | cons q run ih =>
      intro s hs
      rcases List.mem_cons.mp hs with rfl | hs
      · rw [FedStep.classifies, feed_learning hmode, Bool.not_and_self]
      · exact ih _ s hs
  unfold classifyingNumber
  rw [Option.map_eq_none_iff, List.findIdx?_eq_none_iff]
  exact fun s hs => hsteps s (List.mem_filter.mp hs).1

theorem feedAll_learning (hmode : S.config.learningMode = true) (f : Flow R)
    (run : List (Feed R)) : (f.feedAll S run).1.flowClassified = f.flowClassified := by
  induction run generalizing f with
  | nil => rfl
  | cons q run ih => exact (ih _).trans (feed_learning hmode f q)

/-- A run of datagrams has as many data packets as it is long. -/
theorem dataFed_udp {f : Flow R} (hopen : f.isFinished = false) {run : List (Feed R)}
    (hudp : ∀ q ∈ run, q.1.transport = .udp) :
    (f.feedAll S run).1.isFinished = false ∧ (f.dataFed S run).length = run.length := by
  induction run generalizing f with
  | nil => exact ⟨hopen, rfl⟩
  | cons q run ih =>
    obtain ⟨hhead, htail⟩ := List.forall_mem_cons.mp hudp
    obtain ⟨hopen', hlength⟩ := ih (feed_udp_open hhead hopen) htail
    rw [feedAll_cons, dataFed_cons, isDataPacket_udp hhead hopen, if_pos rfl,
      List.singleton_append, List.length_cons, List.length_cons, hlength]
    exact ⟨hopen', rfl⟩

/-- A program that records byte frequencies. -/
def recording : Setup ℚ :=
  { (Setup.initial : Setup ℚ) with
    config := { (CommonConfig.initial : CommonConfig ℚ) with learningMode := true }
    factory := { enabledAttributes := fun k => k == .byteFrequency } }

/-- A long download. -/
def download (n : Nat) : List (Feed ℚ) := List.replicate n (oneByte, Calculation.quiet)

/-- The packet after `2 ^ 32 - 1` datagrams is measured once more. -/
theorem measuredSteps_download {n : Nat} (hn : n + 1 = 2 ^ 32) :
    ((Flow.new recording oneByte fun _ => 0).measuredSteps recording (download (n + 1))).length =
      101 := by
  have hudp : ∀ q ∈ download n, q.1.transport = .udp := by
    intro q hq
    rw [List.eq_of_mem_replicate hq]
    rfl
  have hlength : (download n).length = n := List.length_replicate
  obtain ⟨hopen, hdata⟩ := dataFed_udp (S := recording) (f := Flow.new recording oneByte fun _ => 0)
    rfl hudp
  rw [hlength] at hdata
  -- the first 100 of them are measured
  have hshort : ((Flow.new recording oneByte fun _ => 0).dataFed recording
    (download n)).length < 2 ^ 32 := by omega
  have hfirst := congrArg List.length (measuredSteps_of_short rfl rfl hshort)
  rw [List.length_take, lastNumber, classifyingNumber_learning rfl, Option.getD_none, hdata,
    show recording.database.cutoffLimit.toNat = 100 from rfl] at hfirst
  -- and then the one whose number is zero in 32 bits
  have hcount : ((Flow.new recording oneByte fun _ => 0).feedAll recording
      (download n)).1.pktCount + 1 = 0 := by
    have hnumber := feedAll_pktCount (S := recording) (Flow.new recording oneByte fun _ => 0)
      (download n)
    rw [hnumber, hdata, show (Flow.new recording oneByte fun _ => 0).pktCount = 0 from rfl,
      UInt32.zero_add, ← UInt32.toNat_inj, UInt32.toNat_add, UInt32.toNat_ofNat',
      UInt32.toNat_one, Nat.mod_add_mod, hn]
    rfl
  have hunclassified : ((Flow.new recording oneByte fun _ => 0).feedAll recording
      (download n)).1.flowClassified = false :=
    feedAll_learning rfl _ _
  have hlast : (((Flow.new recording oneByte fun _ => 0).feedAll recording
      (download n)).1.examined recording oneByte).isSome = true := by
    rw [examined_isSome_iff, hcount]
    exact ⟨isDataPacket_udp rfl hopen, hunclassified, by decide⟩
  have hsplit : download (n + 1) = download n ++ [(oneByte, Calculation.quiet)] :=
    List.replicate_succ'
  rw [hsplit, measuredSteps_append, List.length_append, hfirst, measuredSteps, fedSteps, fedSteps,
    List.filter_singleton, hlast]
  have hmin : min (min 100 n) n = 100 := by omega
  rw [hmin]
  rfl

/-- The meter receives 101 packets, and not the first 100 data packets. -/
theorem download_not_exactly :
    (((Flow.new recording oneByte fun _ => 0).feedAll recording (download (2 ^ 32))).2.filter
        (fun c => c.meter == 0)).map MeterCall.packet ≠
      (((Flow.new recording oneByte fun _ => 0).dataFed recording (download (2 ^ 32))).take
        (min recording.database.cutoffLimit.toNat
          ((Flow.new recording oneByte fun _ => 0).lastNumber recording
            (download (2 ^ 32))))).map FedStep.packet := by
  intro h
  have hlength := congrArg List.length h
  have hdownload := measuredSteps_download (n := 2 ^ 32 - 1) (by norm_num)
  rw [Nat.sub_add_cancel (by norm_num)] at hdownload
  rw [calls_eq, if_pos (by decide), List.length_map, List.length_map, List.length_take,
    hdownload] at hlength
  have hcutoff : recording.database.cutoffLimit.toNat = 100 := rfl
  omega

end Flow

end Vsid
