import Vsid.Laws.Reports
import Vsid.Lib.RunningMean
import Vsid.Protocol.Training

/-!
# What training does to a database

A finished flow changes one model, and in it the first meter of each class that the flow carries. So
after any number of flows each model has learned from the flows whose training entry names it
(`flowsFinished_database`), and each of these meters has merged what the flows carry of its class
(`learnAll_attributeMeters`). In real arithmetic that is a running mean, and the order of the flows
makes no difference (`trained_average`).
-/

set_option autoImplicit false

namespace Vsid

/-! ## One model -/

namespace ProtocolModel

variable {R : Type} [Double R]

omit [Double R] in
/-- What is found depends on the classes. -/
theorem find_congr {pm pm' : ProtocolModel R}
    (h : pm'.attributeMeters.map AttributeMeter.kind = pm.attributeMeters.map AttributeMeter.kind)
    (k : MeterKind) : pm'.find k = pm.find k := by
  have hmap : ∀ pm : ProtocolModel R,
      pm.find k = (pm.attributeMeters.map AttributeMeter.kind).findIdx? (· == k) := by
    intro pm
    rw [List.findIdx?_map]
    rfl
  rw [hmap, hmap, h]

/-- The meter that is found merges, if it is of the class. -/
theorem mergeMeter_eq (pm : ProtocolModel R) (other : AttributeMeter R) :
    pm.mergeMeter other =
      { pm with
        attributeMeters := pm.attributeMeters.mapIdx fun j am =>
          if pm.find am.kind = some j ∧ am.kind = other.kind then am.merge other else am } := by
  unfold mergeMeter
  cases hfind : pm.attributeMeters.findIdx? fun am => am.kind == other.kind with
  | none =>
    have hsame : (pm.attributeMeters.mapIdx fun j am =>
        if pm.find am.kind = some j ∧ am.kind = other.kind then am.merge other else am) =
          pm.attributeMeters := by
      refine List.ext_getElem? fun j => ?_
      rw [List.getElem?_mapIdx]
      cases hj : pm.attributeMeters[j]? with
      | none => rfl
      | some am =>
        refine congrArg some (if_neg fun h => ?_)
        rw [h.2, find, hfind] at h
        exact Option.some_ne_none j h.1.symm
    simp only [hsame]
  | some i =>
    have hsame : pm.attributeMeters.modify i (·.merge other) =
        pm.attributeMeters.mapIdx fun j am =>
          if pm.find am.kind = some j ∧ am.kind = other.kind then am.merge other else am := by
      refine List.ext_getElem? fun j => ?_
      rw [List.getElem?_modify, List.getElem?_mapIdx]
      cases hj : pm.attributeMeters[j]? with
      | none => rfl
      | some am =>
        by_cases hij : i = j
        · obtain ⟨hlt, hkind, -⟩ := List.findIdx?_eq_some_iff_getElem.mp hfind
          have ham : am.kind = other.kind := by
            obtain ⟨hlt', rfl⟩ := List.getElem?_eq_some_iff.mp hj
            simp only [hij] at hkind
            exact beq_iff_eq.mp hkind
          have hfound : pm.find am.kind = some j := by
            rw [ham, find, hfind, hij]
          simp only [Option.map_eq_map, Option.map_some, if_pos hij, if_pos (And.intro hfound ham)]
        · have hnot : ¬ (pm.find am.kind = some j ∧ am.kind = other.kind) := by
            intro h
            rw [h.2, find, hfind] at h
            exact hij (Option.some.inj h.1)
          simp only [Option.map_eq_map, Option.map_some, if_neg hij, if_neg hnot]
    simp only [hsame]

omit [Double R] in
theorem map_kind_mapIdx {ams : List (AttributeMeter R)}
    {g : Nat → AttributeMeter R → AttributeMeter R} (h : ∀ j am, (g j am).kind = am.kind) :
    (ams.mapIdx g).map AttributeMeter.kind = ams.map AttributeMeter.kind := by
  refine List.ext_getElem? fun j => ?_
  rw [List.getElem?_map, List.getElem?_map, List.getElem?_mapIdx, Option.map_map]
  exact congrFun (congrArg Option.map (funext fun am => h j am)) _

theorem foldl_merge_kind (am : AttributeMeter R) (others : List (AttributeMeter R)) :
    (others.foldl AttributeMeter.merge am).kind = am.kind := by
  induction others generalizing am with
  | nil => rfl
  | cons other others ih => exact (ih _).trans (ProtocolModelFile.merge_kind am other)

/-- Meter `j` of the model is the one that flows merge into: the first of its class, which is
enabled. -/
def Learns (S : Setup R) (pm : ProtocolModel R) (j : Nat) (am : AttributeMeter R) : Prop :=
  pm.attributeMeters[j]? = some am ∧ pm.find am.kind = some j ∧
    S.factory.enabledAttributes am.kind = true

/-- The first meter of each class merges all that is of the class. -/
def merges (pm : ProtocolModel R) (others : List (AttributeMeter R)) : ProtocolModel R :=
  { pm with
    attributeMeters := pm.attributeMeters.mapIdx fun j am =>
      if pm.find am.kind = some j then
        (others.filter fun other => other.kind == am.kind).foldl AttributeMeter.merge am
      else am }

theorem find_merges (pm : ProtocolModel R) (others : List (AttributeMeter R)) (k : MeterKind) :
    (pm.merges others).find k = pm.find k := by
  refine find_congr (map_kind_mapIdx fun j am => ?_) k
  split
  · exact foldl_merge_kind am _
  · rfl

theorem merges_append (pm : ProtocolModel R) (others more : List (AttributeMeter R)) :
    (pm.merges others).merges more = pm.merges (others ++ more) := by
  have hboth := find_merges pm others
  unfold merges at hboth ⊢
  simp only [hboth, List.mapIdx_mapIdx, Function.comp_def, List.filter_append, List.foldl_append]
  congr 1
  refine congrArg (List.mapIdx · pm.attributeMeters) (funext₂ fun j am => ?_)
  by_cases hfind : pm.find am.kind = some j
  · simp only [if_pos hfind, foldl_merge_kind]
  · simp only [if_neg hfind]

theorem foldl_mergeMeter (pm : ProtocolModel R) (others : List (AttributeMeter R)) :
    others.foldl mergeMeter pm = pm.merges others := by
  induction others using List.reverseRecOn with
  | nil =>
    have hsame : pm.attributeMeters.mapIdx (fun _ am => am) = pm.attributeMeters :=
      List.ext_getElem? fun j => by rw [List.getElem?_mapIdx, Option.map_id']
    unfold merges
    simp only [List.filter_nil, List.foldl_nil, ite_self, hsame]
  | append_singleton others other ih =>
    have hone : ∀ pm : ProtocolModel R, pm.mergeMeter other = pm.merges [other] := by
      intro pm
      rw [mergeMeter_eq]
      unfold merges
      congr 1
      refine congrArg (List.mapIdx · pm.attributeMeters) (funext₂ fun j am => ?_)
      rw [List.filter_singleton]
      by_cases hkind : am.kind = other.kind
      · rw [hkind, beq_self_eq_true, cond_true, List.foldl_cons, List.foldl_nil]
        simp only [and_true]
      · have hne : (other.kind == am.kind) = false := beq_eq_false_iff_ne.mpr fun h => hkind h.symm
        rw [hne, cond_false, List.foldl_nil, ite_self, if_neg fun h => hkind h.2]
    rw [List.foldl_append, List.foldl_cons, List.foldl_nil, ih, hone, merges_append]

/-- **What a model learns from some flows.** -/
theorem learnAll_eq (pm : ProtocolModel R) (flows : List (List (AttributeMeter R))) :
    flows.foldl learn pm =
      { pm.merges flows.flatten with
        flowCount := pm.flowCount + UInt32.ofNat flows.length } := by
  induction flows using List.reverseRecOn with
  | nil =>
    have hnone : pm.merges [] = pm := (foldl_mergeMeter pm []).symm
    rw [List.foldl_nil, List.flatten_nil, hnone]
    exact congrArg (fun n => { pm with flowCount := n }) (UInt32.add_zero _).symm
  | append_singleton flows flow ih =>
    rw [List.foldl_append, List.foldl_cons, List.foldl_nil, ih, List.flatten_append,
      List.flatten_singleton, ← merges_append, List.length_append, List.length_singleton,
      UInt32.ofNat_add, ← UInt32.add_assoc]
    unfold learn
    rw [foldl_mergeMeter]
    rfl

end ProtocolModel

/-! ## The database -/

namespace ProtocolModelUpdater

variable {R : Type} [Double R] {S : Setup R}

/-- The model that a finished flow changes: the one that the first entry of its hash names. -/
def target (S : Setup R) (u : ProtocolModelUpdater R) (flow : Flow R) : Option Nat :=
  (u.currentFile.flows.find? fun it => it.flowHash S == flow.hash).bind
    fun it => u.database.find it.protocol

/-- The flows that a model learns from. -/
def learnedBy (S : Setup R) (u : ProtocolModelUpdater R) (i : Nat) (flows : List (Flow R)) :
    List (Flow R) :=
  flows.filter fun flow => u.target S flow == some i

theorem train_eq (file : ProtocolModelFile R) (flow : String × List (AttributeMeter R)) :
    file.train flow =
      { file with
        protocolModelOrder := file.protocolModelOrder.mapIdx fun i pm =>
          if file.find flow.1 == some i then pm.learn flow.2 else pm } := by
  unfold ProtocolModelFile.train
  cases hfind : file.protocolModelOrder.findIdx? fun pm => pm.name == flow.1 with
  | none =>
    have hsame : (file.protocolModelOrder.mapIdx fun i pm =>
        if file.find flow.1 == some i then pm.learn flow.2 else pm) =
          file.protocolModelOrder := by
      refine List.ext_getElem? fun j => ?_
      rw [List.getElem?_mapIdx, ProtocolModelDb.find, hfind]
      exact Option.map_id'
    rw [hsame]
  | some i =>
    have hsome : file.protocolModelOrder.modify i (·.learn flow.2) =
        file.protocolModelOrder.mapIdx fun j pm =>
          if file.find flow.1 == some j then pm.learn flow.2 else pm := by
      refine List.ext_getElem? fun j => ?_
      rw [List.getElem?_modify, List.getElem?_mapIdx, ProtocolModelDb.find, hfind]
      simp only [Option.map_eq_map, beq_iff_eq, Option.some.injEq]
    exact congrArg (fun models => { file with protocolModelOrder := models }) hsome

theorem flowFinished_database (u : ProtocolModelUpdater R) (flow : Flow R) :
    (u.flowFinished S flow).database =
      { u.database with
        protocolModelOrder := u.database.protocolModelOrder.mapIdx fun i pm =>
          if u.target S flow == some i then pm.learn flow.attributeMeters else pm } := by
  unfold flowFinished target
  cases u.currentFile.flows.find? fun it => it.flowHash S == flow.hash with
  | none =>
    have hsame : (u.database.protocolModelOrder.mapIdx fun i pm =>
        if (none : Option Nat) == some i then pm.learn flow.attributeMeters else pm) =
          u.database.protocolModelOrder :=
      List.ext_getElem? fun j => by
        rw [List.getElem?_mapIdx]
        exact Option.map_id'
    rw [Option.bind_none, hsame]
  | some it => exact train_eq u.database (it.protocol, flow.attributeMeters)

theorem flowFinished_currentFile (u : ProtocolModelUpdater R) (flow : Flow R) :
    (u.flowFinished S flow).currentFile = u.currentFile := by
  unfold flowFinished
  split <;> rfl

omit [Double R] in
/-- The models are found by their names. -/
theorem target_congr {u u' : ProtocolModelUpdater R} (hfile : u'.currentFile = u.currentFile)
    (hnames : u'.database.protocolModelOrder.map ProtocolModel.name =
      u.database.protocolModelOrder.map ProtocolModel.name) (flow : Flow R) :
    u'.target S flow = u.target S flow := by
  have hmap : ∀ (db : ProtocolModelDb R) (name : String), db.find name =
      (db.protocolModelOrder.map ProtocolModel.name).findIdx? (· == name) := by
    intro db name
    rw [List.findIdx?_map]
    rfl
  unfold target
  rw [hfile]
  refine congrArg (Option.bind _) (funext fun it => ?_)
  rw [hmap, hmap, hnames]

/-- Training does not change which model a flow belongs to. -/
theorem target_flowFinished (u : ProtocolModelUpdater R) (flow flow' : Flow R) :
    (u.flowFinished S flow).target S flow' = u.target S flow' := by
  refine target_congr (flowFinished_currentFile u flow) ?_ flow'
  rw [flowFinished_database]
  refine List.ext_getElem? fun j => ?_
  rw [List.getElem?_map, List.getElem?_map, List.getElem?_mapIdx, Option.map_map]
  refine congrFun (congrArg Option.map (funext fun pm => ?_)) _
  simp only [Function.comp_apply]
  split
  · exact ProtocolModelFile.learn_name pm flow.attributeMeters
  · rfl

/-- **What a database learns from some flows.** -/
theorem flowsFinished_database (u : ProtocolModelUpdater R) (flows : List (Flow R)) :
    (flows.foldl (flowFinished S) u).database =
      { u.database with
        protocolModelOrder := u.database.protocolModelOrder.mapIdx fun i pm =>
          ((u.learnedBy S i flows).map Flow.attributeMeters).foldl ProtocolModel.learn pm } := by
  induction flows generalizing u with
  | nil =>
    have hsame : (u.database.protocolModelOrder.mapIdx fun i pm =>
        ((u.learnedBy S i []).map Flow.attributeMeters).foldl ProtocolModel.learn pm) =
          u.database.protocolModelOrder :=
      List.ext_getElem? fun j => by
        rw [List.getElem?_mapIdx]
        exact Option.map_id'
    rw [hsame]
    rfl
  | cons flow flows ih =>
    rw [List.foldl_cons, ih, flowFinished_database, List.mapIdx_mapIdx]
    refine congrArg (fun models => { u.database with protocolModelOrder := models })
      (congrArg (List.mapIdx · u.database.protocolModelOrder) (funext₂ fun i pm => ?_))
    unfold learnedBy
    simp only [Function.comp_apply, target_flowFinished, List.filter_cons]
    split <;> rfl

end ProtocolModelUpdater

/-! ## The mean -/

namespace AttributeMeter

theorem merge_of_kind {R : Type} [Double R] {am other : AttributeMeter R}
    (hkind : other.kind = am.kind) (hdb : am.fromDb = true) :
    am.merge other =
      { am with
        fingerprint := am.fingerprint.mapIdx fun i x =>
          (x * (am.flowCount.toNat : R) + other.atPos i) / ((am.flowCount + 1).toNat : R)
        flowCount := am.flowCount + 1 } := by
  unfold merge
  rw [if_neg (not_not.mpr hkind), hdb, Bool.not_true, if_neg Bool.false_ne_true]

/-- One flow after the other. -/
theorem foldl_merge_eq {am : AttributeMeter ℝ} {others : List (AttributeMeter ℝ)}
    (hdb : am.fromDb = true) (hkinds : ∀ other ∈ others, other.kind = am.kind)
    (hcount : am.flowCount.toNat + others.length < 2 ^ 32) :
    others.foldl merge am =
      { am with
        flowCount := UInt32.ofNat (am.flowCount.toNat + others.length)
        fingerprint := am.fingerprint.mapIdx fun j x =>
          runningMeans am.flowCount.toNat x (others.map fun other => other.atPos j) } := by
  induction others generalizing am with
  | nil =>
    have hsame : (am.fingerprint.mapIdx fun _ x => x) = am.fingerprint :=
      List.ext_getElem? fun j => by rw [List.getElem?_mapIdx, Option.map_id']
    simp only [List.foldl_nil, List.length_nil, Nat.add_zero, UInt32.ofNat_toNat, List.map_nil,
      runningMeans, hsame]
  | cons other others ih =>
    obtain ⟨hkind, hkinds⟩ := List.forall_mem_cons.mp hkinds
    rw [List.length_cons] at hcount
    have hnext : (am.flowCount + 1).toNat = am.flowCount.toNat + 1 := by
      rw [UInt32.toNat_add, UInt32.toNat_one, Nat.mod_eq_of_lt (by omega)]
    have hmerge : am.merge other =
        { am with
          flowCount := am.flowCount + 1
          fingerprint := am.fingerprint.mapIdx fun j x =>
            runningMean am.flowCount.toNat x (other.atPos j) } := by
      rw [merge_of_kind hkind hdb, hnext]
      rfl
    rw [List.foldl_cons, hmerge]
    refine (ih ?_ ?_ ?_).trans ?_
    · exact hdb
    · exact hkinds
    · simp only [hnext]
      omega
    simp only [hnext, List.mapIdx_mapIdx, List.length_cons, List.map_cons, runningMeans,
      Function.comp_def, Nat.add_right_comm _ 1, Nat.add_assoc]

/-- The mean of what a meter stands for and of what some flows show of it. -/
noncomputable def averaged (am : AttributeMeter ℝ) (others : List (AttributeMeter ℝ)) :
    AttributeMeter ℝ :=
  if others.isEmpty then am
  else
    { am with
      flowCount := UInt32.ofNat (am.flowCount.toNat + others.length)
      fingerprint := am.fingerprint.mapIdx fun j x =>
        (am.flowCount.toNat * x + (others.map fun other => other.atPos j).sum) /
          ((am.flowCount.toNat + others.length : ℕ) : ℝ) }

theorem foldl_merge {am : AttributeMeter ℝ} {others : List (AttributeMeter ℝ)}
    (hdb : am.fromDb = true) (hkinds : ∀ other ∈ others, other.kind = am.kind)
    (hcount : am.flowCount.toNat + others.length < 2 ^ 32) :
    others.foldl merge am = am.averaged others := by
  unfold averaged
  by_cases hnil : others = []
  · rw [hnil, List.isEmpty_nil, if_pos rfl]
    rfl
  · rw [if_neg (by rwa [List.isEmpty_iff]), foldl_merge_eq hdb hkinds hcount]
    congr 1
    refine congrArg (List.mapIdx · am.fingerprint) (funext₂ fun j x => ?_)
    have hvalues : (others.map fun other => other.atPos j) ≠ [] := mt List.map_eq_nil_iff.mp hnil
    have hmean := runningMeans_eq (n := am.flowCount.toNat) (x := x) hvalues
    rwa [List.length_map] at hmean

/-- The order of the flows makes no difference. -/
theorem averaged_perm (am : AttributeMeter ℝ) {others others' : List (AttributeMeter ℝ)}
    (h : others.Perm others') : am.averaged others = am.averaged others' := by
  have hempty : others.isEmpty = others'.isEmpty := by
    rw [Bool.eq_iff_iff, List.isEmpty_iff, List.isEmpty_iff]
    exact ⟨fun hnil => List.nil_perm.mp (hnil ▸ h), fun hnil => List.perm_nil.mp (hnil ▸ h)⟩
  unfold averaged
  simp only [hempty, h.length_eq, (h.map _).sum_eq]

end AttributeMeter

/-! ## What the flows of a model carry -/

/-- Of a class that is enabled a flow has one meter, and of another class none. -/
theorem Flow.Metered.filter {R : Type} {S : Setup R} {f : Flow R} (h : f.Metered S)
    (k : MeterKind) :
    (f.attributeMeters.filter fun am => am.kind == k) = (f.attributeMetersMap k).toList ∧
      (f.attributeMetersMap k).isSome = S.factory.enabledAttributes k := by
  have hone : ∀ {kinds : List MeterKind} {ams : List (AttributeMeter R)},
      List.Forall₂ AttributeMeter.Measures kinds ams → kinds.Nodup →
        (ams.filter fun am => am.kind == k) = (ams.find? fun am => am.kind == k).toList ∧
          (ams.find? fun am => am.kind == k).isSome = decide (k ∈ kinds) := by
    intro kinds ams hall
    induction hall with
    | nil => exact fun _ => ⟨rfl, rfl⟩
    | @cons k' am kinds ams hhead _ ih =>
      intro hnodup
      obtain ⟨hnew, hnodup⟩ := List.nodup_cons.mp hnodup
      obtain ⟨hfilter, hsome⟩ := ih hnodup
      rw [List.filter_cons, List.find?_cons, hhead.kind]
      by_cases heq : k' = k
      · rw [heq] at hnew ⊢
        rw [decide_eq_false hnew, Option.isSome_eq_false_iff, Option.isNone_iff_eq_none] at hsome
        simp only [beq_self_eq_true, if_true, hfilter, hsome, Option.toList_none,
          Option.toList_some, Option.isSome_some, List.mem_cons_self, decide_true, and_self]
      · rw [beq_eq_false_iff_ne.mpr heq]
        simp only [Bool.false_eq_true, if_false, hfilter, hsome, List.mem_cons, Ne.symm heq,
          false_or, and_self]
  have hnodup : (MeterKind.all.filter S.factory.enabledAttributes).Nodup :=
    List.Nodup.filter _ (by decide)
  obtain ⟨hfilter, hsome⟩ := hone h hnodup
  refine ⟨hfilter, hsome.trans ?_⟩
  rw [Bool.eq_iff_iff, decide_eq_true_iff, List.mem_filter]
  exact ⟨fun h => h.2, fun h => ⟨by cases k <;> decide, h⟩⟩

theorem Flow.metered_ofPackets {R : Type} [Double R] {S : Setup R} (p : IPv4Packet)
    (stale : FirstBytes) (packets : List IPv4Packet) :
    (Flow.ofPackets S p stale packets).Metered S := by
  unfold Flow.ofPackets
  generalize hnew : Flow.new S p stale = f
  have hf : f.Metered S := hnew ▸ Flow.metered_new p stale
  clear hnew
  induction packets generalizing f with
  | nil => exact hf
  | cons q packets ih => exact ih _ (hf.addPacket q)

theorem Flow.hash_ofPackets {R : Type} [Double R] {S : Setup R} (p : IPv4Packet)
    (stale : FirstBytes) (packets : List IPv4Packet) :
    (Flow.ofPackets S p stale packets).hash = S.flowHash p.tuple := by
  unfold Flow.ofPackets
  generalize hnew : Flow.new S p stale = f
  have hf : f.hash = S.flowHash p.tuple := hnew ▸ rfl
  clear hnew
  induction packets generalizing f with
  | nil => exact hf
  | cons q packets ih => exact ih _ ((f.addPacket_hash S q).trans hf)

/-- Every flow that the observers are handed has the meters of its classes. -/
theorem FlowManager.Sequential.metered {R : Type} [Double R] {S : Setup R} {m : FlowManager R}
    (hseq : S.config.workerThreadsPerQueue = 0) {packets : List IPv4Packet}
    (h : FlowManager.Sequential S packets m) : ∀ f ∈ m.reported, f.Metered S := by
  intro f hf
  -- it was only marked since
  obtain ⟨-, i, hi⟩ := h.marked hseq hf
  have hmarked : f.setFinishedAndNotified.Metered S :=
    (Flow.flowInvariant_metered S).sequential h i _ hi
  exact hmarked

/-- The meters of a class that some flows carry. -/
def carried {R : Type} [Double R] (flows : List (Flow R)) (k : MeterKind) :
    List (AttributeMeter R) :=
  flows.filterMap fun flow => flow.attributeMetersMap k

section Carried

variable {R : Type} [Double R] {S : Setup R} {flows : List (Flow R)}

/-- Each flow carries one meter of every enabled class. -/
theorem length_carried (hmetered : ∀ flow ∈ flows, flow.Metered S) (k : MeterKind) :
    (carried flows k).length = if S.factory.enabledAttributes k then flows.length else 0 := by
  unfold carried
  induction flows with
  | nil => exact (ite_self 0).symm
  | cons flow flows ih =>
    obtain ⟨hflow, hmetered⟩ := List.forall_mem_cons.mp hmetered
    have hsome := (hflow.filter k).2
    rw [List.filterMap_cons]
    cases hmap : flow.attributeMetersMap k with
    | none =>
      rw [hmap, Option.isSome_none] at hsome
      simp only [ih hmetered, ← hsome, Bool.false_eq_true, if_false]
    | some am =>
      rw [hmap, Option.isSome_some] at hsome
      simp only [List.length_cons, ih hmetered, ← hsome, if_true]

/-- What a model merges into its meter of a class. -/
theorem filter_attributeMeters (hmetered : ∀ flow ∈ flows, flow.Metered S) (k : MeterKind) :
    (flows.map Flow.attributeMeters).flatten.filter (fun am => am.kind == k) =
      carried flows k := by
  unfold carried
  induction flows with
  | nil => rfl
  | cons flow flows ih =>
    obtain ⟨hflow, hmetered⟩ := List.forall_mem_cons.mp hmetered
    rw [List.map_cons, List.flatten_cons, List.filter_append, (hflow.filter k).1, ih hmetered,
      List.filterMap_cons]
    cases flow.attributeMetersMap k <;> rfl

theorem kind_of_mem_carried {k : MeterKind} : ∀ am ∈ carried flows k, am.kind = k := by
  intro am ham
  obtain ⟨flow, -, hfind⟩ := List.mem_filterMap.mp ham
  unfold Flow.attributeMetersMap at hfind
  have hkind := List.find?_some hfind
  exact beq_iff_eq.mp hkind

end Carried

namespace ProtocolModelUpdater

/-- The meters of a class that the flows of a model carry. -/
def observed {R : Type} [Double R] (S : Setup R) (u : ProtocolModelUpdater R) (i : Nat)
    (flows : List (Flow R)) (k : MeterKind) : List (AttributeMeter R) :=
  carried (u.learnedBy S i flows) k

/-- The database with the means: every model counts its flows, and its meters average what the flows
carry of their classes. -/
noncomputable def averaged (S : Setup ℝ) (u : ProtocolModelUpdater ℝ) (flows : List (Flow ℝ)) :
    ProtocolModelFile ℝ :=
  { u.database with
    protocolModelOrder := u.database.protocolModelOrder.mapIdx fun i pm =>
      { pm with
        flowCount := UInt32.ofNat (pm.flowCount.toNat + (u.learnedBy S i flows).length)
        attributeMeters := pm.attributeMeters.map fun am =>
          am.averaged (u.observed S i flows am.kind) } }

theorem learnedBy_perm {R : Type} {S : Setup R} {u : ProtocolModelUpdater R}
    {flows flows' : List (Flow R)} (h : flows.Perm flows') (i : Nat) :
    (u.learnedBy S i flows).Perm (u.learnedBy S i flows') :=
  h.filter _

theorem metered_learnedBy {R : Type} {S : Setup R} {u : ProtocolModelUpdater R}
    {flows : List (Flow R)} (hmetered : ∀ flow ∈ flows, flow.Metered S) (i : Nat) :
    ∀ flow ∈ u.learnedBy S i flows, flow.Metered S := fun flow hflow =>
  hmetered flow (List.mem_filter.mp hflow).1

theorem find_of_nodup {R : Type} {pm : ProtocolModel R}
    (hdistinct : (pm.attributeMeters.map AttributeMeter.kind).Nodup) {j : Nat}
    (hj : j < pm.attributeMeters.length) : pm.find pm.attributeMeters[j].kind = some j := by
  refine List.findIdx?_eq_some_iff_getElem.mpr ⟨hj, beq_self_eq_true _, fun j' hj' heq => ?_⟩
  have hlt : j' < pm.attributeMeters.length := Nat.lt_trans hj' hj
  refine absurd (List.pairwise_iff_getElem.mp hdistinct j' j
    (by rwa [List.length_map]) (by rwa [List.length_map]) hj') (not_not.mpr ?_)
  rw [List.getElem_map, List.getElem_map]
  exact beq_iff_eq.mp heq

variable {S : Setup ℝ} {u : ProtocolModelUpdater ℝ} {flows : List (Flow ℝ)}

/-- **The trained database is the one with the means.** -/
theorem flowsFinished_averaged
    (hdistinct : ∀ pm ∈ u.database.protocolModelOrder,
      (pm.attributeMeters.map AttributeMeter.kind).Nodup)
    (hdb : ∀ pm ∈ u.database.protocolModelOrder, ∀ am ∈ pm.attributeMeters, am.fromDb = true)
    (hmetered : ∀ flow ∈ flows, flow.Metered S)
    (hcount : ∀ i pm, u.database.protocolModelOrder[i]? = some pm → ∀ am ∈ pm.attributeMeters,
      am.flowCount.toNat + (u.learnedBy S i flows).length < 2 ^ 32) :
    (flows.foldl (flowFinished S) u).database = u.averaged S flows := by
  rw [flowsFinished_database, averaged]
  refine congrArg (fun models => { u.database with protocolModelOrder := models })
    (List.mapIdx_eq_mapIdx_iff.mpr fun i hi => ?_)
  generalize hpm : u.database.protocolModelOrder[i] = pm
  have hmem : pm ∈ u.database.protocolModelOrder := hpm ▸ List.getElem_mem hi
  have hmeters :
      (pm.merges ((u.learnedBy S i flows).map Flow.attributeMeters).flatten).attributeMeters =
        pm.attributeMeters.map fun am => am.averaged (u.observed S i flows am.kind) := by
    unfold ProtocolModel.merges
    refine List.ext_getElem (by rw [List.length_mapIdx, List.length_map]) fun j hj hj' => ?_
    rw [List.length_map] at hj'
    have ham : pm.attributeMeters[j] ∈ pm.attributeMeters := List.getElem_mem hj'
    rw [List.getElem_mapIdx, List.getElem_map, if_pos (find_of_nodup (hdistinct pm hmem) hj'),
      filter_attributeMeters (metered_learnedBy hmetered i)]
    refine AttributeMeter.foldl_merge (hdb pm hmem _ ham) kind_of_mem_carried ?_
    refine Nat.lt_of_le_of_lt (Nat.add_le_add_left ?_ _)
      (hcount i pm (hpm ▸ List.getElem?_eq_getElem hi) _ ham)
    exact List.length_filterMap_le _ _
  rw [ProtocolModel.learnAll_eq, List.length_map]
  have hflowCount : pm.flowCount + UInt32.ofNat (u.learnedBy S i flows).length =
      UInt32.ofNat (pm.flowCount.toNat + (u.learnedBy S i flows).length) := by
    rw [UInt32.ofNat_add, UInt32.ofNat_toNat]
  rw [hflowCount]
  exact congrArg (fun ams => { pm with
    flowCount := UInt32.ofNat (pm.flowCount.toNat + (u.learnedBy S i flows).length)
    attributeMeters := ams }) hmeters

theorem averaged_perm {flows' : List (Flow ℝ)} (h : flows.Perm flows') :
    u.averaged S flows' = u.averaged S flows := by
  unfold averaged
  refine congrArg (fun models => { u.database with protocolModelOrder := models })
    (congrArg (List.mapIdx · u.database.protocolModelOrder) (funext₂ fun i pm => ?_))
  have hlearned := learnedBy_perm (S := S) (u := u) h i
  have hobserved : ∀ am : AttributeMeter ℝ,
      am.averaged (u.observed S i flows' am.kind) = am.averaged (u.observed S i flows am.kind) :=
    fun am => am.averaged_perm (hlearned.filterMap _).symm
  simp only [hlearned.length_eq, hobserved]

/-- **Training computes the running mean, in whatever order the flows finish.** The models have
distinct meters that were read, the flows have the meters of their classes, and no counter
overflows. Then the database is the one with the means, in which a meter of an enabled class
averages one value of each flow of its model; every other order of the flows gives the same
database, and so does every other order in which `finished` walks its table. -/
theorem trained_average
    (hdistinct : ∀ pm ∈ u.database.protocolModelOrder,
      (pm.attributeMeters.map AttributeMeter.kind).Nodup)
    (hdb : ∀ pm ∈ u.database.protocolModelOrder, ∀ am ∈ pm.attributeMeters, am.fromDb = true)
    (hmetered : ∀ flow ∈ flows, flow.Metered S)
    (hcount : ∀ i pm, u.database.protocolModelOrder[i]? = some pm → ∀ am ∈ pm.attributeMeters,
      am.flowCount.toNat + (u.learnedBy S i flows).length < 2 ^ 32) :
    (flows.foldl (flowFinished S) u).database = u.averaged S flows ∧
    (∀ i k, (u.observed S i flows k).length =
      if S.factory.enabledAttributes k then (u.learnedBy S i flows).length else 0) ∧
    (∀ flows', flows.Perm flows' →
      (flows'.foldl (flowFinished S) u).database = (flows.foldl (flowFinished S) u).database) ∧
    ∀ (packets : List IPv4Packet) (m m₁ m₂ : FlowManager ℝ) (order order' : List UInt32),
      FlowManager.Sequential S packets m → m.WalksTable order → m.WalksTable order' →
      m.finished order = some m₁ → m.finished order' = some m₂ → flows = m₁.reported →
        (m₂.reported.foldl (flowFinished S) u).database =
          (m₁.reported.foldl (flowFinished S) u).database := by
  have hperm : ∀ flows', flows.Perm flows' →
      (flows'.foldl (flowFinished S) u).database = (flows.foldl (flowFinished S) u).database := by
    intro flows' h
    rw [flowsFinished_averaged hdistinct hdb hmetered hcount, ← averaged_perm h]
    refine flowsFinished_averaged hdistinct hdb (fun flow hflow => ?_) fun i pm hpm am ham => ?_
    · exact hmetered flow (h.mem_iff.mpr hflow)
    · rw [← (learnedBy_perm h i).length_eq]
      exact hcount i pm hpm am ham
  refine ⟨flowsFinished_averaged hdistinct hdb hmetered hcount,
    fun i k => length_carried (metered_learnedBy hmetered i) k, hperm, ?_⟩
  intro packets m m₁ m₂ order order' hrun hwalk hwalk' h₁ h₂ hflows
  rw [← hflows]
  exact hperm _ (hflows ▸ FlowManager.reported_perm hrun.sound.1 hwalk hwalk' h₁ h₂)

/-- Training the one model of `knowsByBytes` with a capture of one connection. -/
noncomputable def dnsTraining : ProtocolModelUpdater ℝ :=
  { currentFile := { flows := [{ tuple := Flow.oneByte.tuple, protocol := "DNS" }] }
    database := { knowsByBytes.database with version := protocolModelVersion, modifiedTimes := [] }
    updated := false }

/-- Three datagrams of the connection. -/
noncomputable def threeBytes : Flow ℝ :=
  Flow.ofPackets knowsByBytes Flow.oneByte (fun _ => 0) [Flow.oneByte, Flow.oneByte, Flow.oneByte]

/-- They finish, and so does another flow of the connection. -/
noncomputable def twoFlows : List (Flow ℝ) :=
  [threeBytes, Flow.ofPackets knowsByBytes Flow.oneByte (fun _ => 0)
    [Flow.oneByte, { Flow.oneByte with data := [2] }]]

/-- The meter averages both, whichever finishes first. -/
theorem twoFlows_averaged :
    (twoFlows.foldl (flowFinished knowsByBytes) dnsTraining).database =
        dnsTraining.averaged knowsByBytes twoFlows ∧
      (dnsTraining.observed knowsByBytes 0 twoFlows .byteFrequency).length = 2 ∧
      (twoFlows.reverse.foldl (flowFinished knowsByBytes) dnsTraining).database =
        (twoFlows.foldl (flowFinished knowsByBytes) dnsTraining).database := by
  have hlearned : dnsTraining.learnedBy knowsByBytes 0 twoFlows = twoFlows := by
    refine List.filter_eq_self.mpr fun flow hflow => ?_
    have hhash : flow.hash = knowsByBytes.flowHash Flow.oneByte.tuple := by
      simp only [twoFlows, List.mem_cons, List.not_mem_nil, or_false] at hflow
      rcases hflow with rfl | rfl <;> exact Flow.hash_ofPackets _ _ _
    rw [target, hhash]
    rfl
  have hdistinct : ∀ pm ∈ dnsTraining.database.protocolModelOrder,
      (pm.attributeMeters.map AttributeMeter.kind).Nodup := by
    intro pm hpm
    cases List.mem_singleton.mp hpm
    exact List.nodup_singleton _
  have hmetered : ∀ flow ∈ twoFlows, flow.Metered knowsByBytes := by
    intro flow hflow
    simp only [twoFlows, List.mem_cons, List.not_mem_nil, or_false] at hflow
    rcases hflow with rfl | rfl <;> exact Flow.metered_ofPackets _ _ _
  have hcount : ∀ i pm, dnsTraining.database.protocolModelOrder[i]? = some pm →
      ∀ am ∈ pm.attributeMeters,
        am.flowCount.toNat + (dnsTraining.learnedBy knowsByBytes i twoFlows).length < 2 ^ 32 := by
    intro i pm hpm am ham
    cases List.mem_singleton.mp (List.mem_of_getElem? hpm)
    cases List.mem_singleton.mp ham
    refine Nat.lt_of_le_of_lt (Nat.add_le_add_left (List.length_filter_le _ _) _) ?_
    decide
  obtain ⟨haveraged, hobserved, horder, -⟩ := trained_average hdistinct
    (fun pm hpm am ham => (stored_knowsByBytes pm hpm am ham).1) hmetered hcount
  refine ⟨haveraged, ?_, horder _ twoFlows.reverse_perm.symm⟩
  have hon : knowsByBytes.factory.enabledAttributes .byteFrequency = true := rfl
  rw [hobserved, if_pos hon, hlearned]
  rfl

end ProtocolModelUpdater

end Vsid
