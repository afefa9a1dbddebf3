import Mathlib.Data.List.Nodup
import Mathlib.Data.List.Basic
import Vsid.Laws.Classification
import Vsid.Laws.DatabaseFile

/-!
# The search order of a port

`read` appends a model to the order of each of its port hints and, at the end, appends to every
order the models that it does not name. The positions that a port asks for are then those of the
models that hint it, as often as they do, and after them the others (`lookup_fillPortHintOrder`).
The loop of the matching goes through as many positions as there are models: it comes to each of
them once, as long as no position before the last is taken twice (`searchOrder_of_read`).

Port 0 asks for the order of the database.
-/

set_option autoImplicit false

namespace Vsid

variable {R : Type}

/-- The model hints the port. -/
def ProtocolModel.hintsPort (port : UInt16) (pm : ProtocolModel R) : Bool :=
  pm.portHints.contains port

namespace ProtocolModelDb

/-- The order in which the models are searched: first those that hint the port, then the others.
Port 0 stands for the order of the database. -/
def searchOrder (models : List (ProtocolModel R)) (port : UInt16) : List (ProtocolModel R) :=
  if port = 0 then models
  else models.filter (·.hintsPort port) ++ models.filter fun pm => !pm.hintsPort port

/-- How often a position hints the port. -/
def hintCount (models : List (ProtocolModel R)) (port : UInt16) (i : Nat) : Nat :=
  (models[i]?).elim 0 fun pm => pm.portHints.count port

/-- The positions that hint the port, as often as they do. -/
def hinted (models : List (ProtocolModel R)) (port : UInt16) : List Nat :=
  (List.range models.length).flatMap fun i => List.replicate (hintCount models port i) i

/-! ## Reading the hints -/

theorem lookup_pushHint (table : List (UInt16 × List Nat)) (port port' : UInt16) (i : Nat) :
    (pushHint table port i).lookup port' =
      if port' = port then some ((table.lookup port).getD [] ++ [i]) else table.lookup port' := by
  induction table with
  | nil =>
    by_cases h : port' = port
    · rw [if_pos h, h, pushHint, List.lookup_cons_self]
      rfl
    · rw [if_neg h, pushHint, List.lookup_cons, beq_eq_false_iff_ne.mpr h]
  | cons entry table ih =>
    obtain ⟨q, order⟩ := entry
    unfold pushHint
    by_cases hq : q = port
    · rw [if_pos hq, List.lookup_cons, List.lookup_cons, List.lookup_cons]
      by_cases h : port' = port
      · rw [if_pos h, h, hq, beq_self_eq_true]
        rfl
      · rw [if_neg h, hq, beq_eq_false_iff_ne.mpr h]
    · rw [if_neg hq, List.lookup_cons, List.lookup_cons, List.lookup_cons, ih]
      by_cases h : port' = port
      · rw [if_pos h, if_pos h, h, beq_eq_false_iff_ne.mpr (Ne.symm hq)]
      · rw [if_neg h, if_neg h]

/-- A model's hints, one after the other. -/
theorem lookup_pushHints (hints : List UInt16) (table : List (UInt16 × List Nat)) (port : UInt16)
    (i : Nat) :
    (hints.foldl (fun table port => pushHint table port i) table).lookup port =
      if hints.count port = 0 then table.lookup port
      else some ((table.lookup port).getD [] ++ List.replicate (hints.count port) i) := by
  induction hints generalizing table with
  | nil => rfl
  | cons q hints ih =>
    rw [List.foldl_cons, ih, lookup_pushHint, List.count_cons]
    by_cases h : q = port
    · rw [h, if_pos rfl, beq_self_eq_true, if_pos rfl, if_neg (Nat.succ_ne_zero _),
        Option.getD_some, List.replicate_succ, List.append_assoc, List.singleton_append]
      split
      next hzero => rw [hzero, List.replicate_zero]
      next => rfl
    · rw [if_neg (Ne.symm h), beq_eq_false_iff_ne.mpr h, if_neg Bool.false_ne_true, Nat.add_zero]

theorem hinted_append (models : List (ProtocolModel R)) (pm : ProtocolModel R) (port : UInt16) :
    hinted (models ++ [pm]) port =
      hinted models port ++ List.replicate (pm.portHints.count port) models.length := by
  unfold hinted
  rw [List.length_append, List.length_singleton, List.range_succ, List.flatMap_append,
    List.flatMap_singleton]
  congr 1
  · apply List.flatMap_congr
    intro i hi
    unfold hintCount
    rw [List.getElem?_append_left (List.mem_range.mp hi)]
  · unfold hintCount
    rw [List.getElem?_concat_length]
    rfl

/-- The table has the hinted positions of every port that is hinted. -/
def Hinted (db : ProtocolModelDb R) : Prop :=
  ∀ port, db.portHintOrder.lookup port =
    if hinted db.protocolModelOrder port = [] then none
    else some (hinted db.protocolModelOrder port)

theorem Hinted.addModel {db : ProtocolModelDb R} (h : Hinted db) (pm : ProtocolModel R) :
    Hinted (db.addModel pm) := by
  unfold ProtocolModelDb.addModel
  split
  next => exact h
  next =>
    intro port
    simp only
    rw [lookup_pushHints, hinted_append, h port]
    by_cases hcount : pm.portHints.count port = 0
    · rw [if_pos hcount, hcount, List.replicate_zero, List.append_nil]
    · have hsome : hinted db.protocolModelOrder port ++
          List.replicate (pm.portHints.count port) db.protocolModelOrder.length ≠ [] := by
        intro heq
        have hnil := List.append_eq_nil_iff.mp heq
        exact hcount ((List.replicate_eq_nil_iff _).mp hnil.2)
      rw [if_neg hcount, if_neg hsome]
      split
      next hnil => rw [hnil, Option.getD_none]
      next => rw [Option.getD_some]

/-! ## Finishing the orders -/

/-- With different names, a name belongs to one position. -/
theorem isNamed_iff {db : ProtocolModelDb R}
    (hnames : (db.protocolModelOrder.map ProtocolModel.name).Nodup) {pm : ProtocolModel R}
    {i : Nat} (hi : db.protocolModelOrder[i]? = some pm) (j : Nat) :
    db.isNamed pm.name j = true ↔ j = i := by
  unfold isNamed
  rw [Option.any_eq_true]
  constructor
  · rintro ⟨pm', hj, hname⟩
    have hlt : j < (db.protocolModelOrder.map ProtocolModel.name).length := by
      rw [List.length_map]
      exact (List.getElem?_eq_some_iff.mp hj).1
    apply (List.getElem?_inj hlt hnames).mp
    rw [List.getElem?_map, List.getElem?_map, hi, hj, Option.map_some, Option.map_some,
      beq_iff_eq.mp hname]
  · rintro rfl
    exact ⟨pm, hi, beq_self_eq_true _⟩

/-- The finished order of a port: what was hinted, and then what is missing. -/
theorem lookup_fillPortHintOrder {db : ProtocolModelDb R}
    (hnames : (db.protocolModelOrder.map ProtocolModel.name).Nodup) (port : UInt16) :
    db.fillPortHintOrder.portHintOrder.lookup port = (db.portHintOrder.lookup port).map fun order =>
      order ++ (List.range db.protocolModelOrder.length).filter (· ∉ order) := by
  have hfold : ∀ (models : List (ProtocolModel R × Nat)) (table : List (UInt16 × List Nat)),
      (∀ entry ∈ models, db.protocolModelOrder[entry.2]? = some entry.1) →
      (models.foldl db.fillWith table).lookup port = (table.lookup port).map fun order =>
        (models.map Prod.snd).foldl (fun acc i => if i ∈ acc then acc else acc ++ [i]) order := by
    intro models
    induction models with
    | nil =>
      intro table _
      rw [List.foldl_nil, List.map_nil]
      exact (congrFun Option.map_id _).symm
    | cons entry models ih =>
      intro table hall
      have hentry := hall entry List.mem_cons_self
      let insert := fun order : List Nat =>
        if entry.2 ∈ order then order else order ++ [entry.2]
      have hstep : db.fillWith table entry = table.map fun item => (item.1, insert item.2) := by
        apply List.map_congr_left
        intro item _
        have hany : item.2.any (db.isNamed entry.1.name) = true ↔ entry.2 ∈ item.2 := by
          rw [List.any_eq_true]
          constructor
          · rintro ⟨j, hj, hnamed⟩
            exact (isNamed_iff hnames hentry j).mp hnamed ▸ hj
          · exact fun hmem => ⟨entry.2, hmem, (isNamed_iff hnames hentry _).mpr rfl⟩
        by_cases hmem : entry.2 ∈ item.2
        · simp only [insert]
          rw [if_pos hmem, if_pos (hany.mpr hmem)]
        · simp only [insert]
          rw [if_neg hmem, if_neg fun h => hmem (hany.mp h)]
      rw [List.foldl_cons, ih _ fun e he => hall e (List.mem_cons_of_mem entry he), hstep,
        Keyed.lookup_map, Option.map_map]
      rfl
  unfold fillPortHintOrder
  simp only
  rw [hfold]
  · congr 1
    funext order
    rw [List.zipIdx_map_snd, ← List.range_eq_range']
    exact Keyed.foldl_insert List.nodup_range order
  · rintro ⟨pm, i⟩ hentry
    exact List.mk_mem_zipIdx_iff_getElem?.mp hentry

/-! ## The order that is walked -/

/-- The positions that a port asks for, once the orders are finished. -/
def positions (models : List (ProtocolModel R)) (port : UInt16) : List Nat :=
  hinted models port ++ (List.range models.length).filter (· ∉ hinted models port)

theorem mem_hinted (models : List (ProtocolModel R)) (port : UInt16) (i : Nat) :
    i ∈ hinted models port ↔ i < models.length ∧ hintCount models port i ≠ 0 := by
  unfold hinted
  rw [List.mem_flatMap]
  constructor
  · rintro ⟨j, hj, hmem⟩
    obtain ⟨hne, rfl⟩ := List.mem_replicate.mp hmem
    exact ⟨List.mem_range.mp hj, hne⟩
  · rintro ⟨hlt, hne⟩
    exact ⟨i, List.mem_range.mpr hlt, List.mem_replicate.mpr ⟨hne, rfl⟩⟩

/-- The positions of the search order: those that hint the port, and the others. -/
def ordered (models : List (ProtocolModel R)) (port : UInt16) : List Nat :=
  (List.range models.length).filter (fun i => hintCount models port i != 0) ++
    (List.range models.length).filter fun i => hintCount models port i == 0

theorem any_hintsPort {models : List (ProtocolModel R)} (port : UInt16) {i : Nat}
    (hi : i < models.length) :
    (models[i]?).any (·.hintsPort port) = (hintCount models port i != 0) := by
  unfold hintCount ProtocolModel.hintsPort
  rw [List.getElem?_eq_getElem hi, Option.any_some, Option.elim_some]
  by_cases hmem : port ∈ models[i].portHints
  · rw [List.contains_iff_mem.mpr hmem, eq_comm, bne_iff_ne]
    exact (List.count_pos_iff.mpr hmem).ne'
  · rw [List.count_eq_zero.mpr hmem]
    simpa using hmem

theorem map_ordered (models : List (ProtocolModel R)) {port : UInt16} (hport : port ≠ 0) :
    (ordered models port).map (fun i => models[i]?) = (searchOrder models port).map some := by
  have hfirst : ((List.range models.length).filter fun i => hintCount models port i != 0) =
      (List.range models.length).filter fun i => (models[i]?).any (·.hintsPort port) := by
    apply List.filter_congr
    intro i hi
    rw [any_hintsPort port (List.mem_range.mp hi)]
  have hothers : ((List.range models.length).filter fun i => hintCount models port i == 0) =
      (List.range models.length).filter fun i => (models[i]?).any (!·.hintsPort port) := by
    apply List.filter_congr
    intro i hi
    have hany := any_hintsPort port (List.mem_range.mp hi)
    rw [List.getElem?_eq_getElem (List.mem_range.mp hi), Option.any_some] at hany ⊢
    rw [hany, bne, Bool.not_not]
  unfold ordered searchOrder
  rw [if_neg hport, List.map_append, List.map_append, hfirst, hothers, Keyed.map_filter_range,
    Keyed.map_filter_range]

/-- As long as only the last model in search order lists the port twice, the positions begin with
the search order. -/
theorem ordered_prefix {models : List (ProtocolModel R)} {port : UInt16} (hport : port ≠ 0)
    (h : ∀ pm ∈ (searchOrder models port).dropLast, pm.portHints.count port ≤ 1) :
    ordered models port <+: positions models port := by
  have hcount : ∀ i ∈ (ordered models port).dropLast, hintCount models port i ≤ 1 := by
    intro i hi
    have hmem : models[i]? ∈ ((searchOrder models port).dropLast).map some := by
      rw [List.map_dropLast, ← map_ordered models hport, ← List.map_dropLast]
      exact List.mem_map.mpr ⟨i, hi, rfl⟩
    obtain ⟨pm, hpm, heq⟩ := List.mem_map.mp hmem
    unfold hintCount
    rw [← heq, Option.elim_some]
    exact h pm hpm
  have hothers : (List.range models.length).filter (· ∉ hinted models port) =
      (List.range models.length).filter fun i => hintCount models port i == 0 := by
    apply List.filter_congr
    intro i hi
    have hiff := mem_hinted models port i
    have hlt := List.mem_range.mp hi
    by_cases hzero : hintCount models port i = 0
    · simp [hiff, hzero]
    · simp [hiff, hzero, hlt]
  unfold ordered positions at *
  rw [hothers]
  cases hrest : (List.range models.length).filter fun i => hintCount models port i == 0 with
  | nil =>
    have hall : ((List.range models.length).filter fun i => hintCount models port i != 0) =
        List.range models.length := by
      rw [List.filter_eq_self]
      intro i hi
      have hne := List.filter_eq_nil_iff.mp hrest i hi
      simpa using hne
    rw [hrest, hall, List.append_nil] at hcount
    rw [List.append_nil, List.append_nil]
    exact Keyed.prefix_flatMap_replicate hcount
  | cons j others =>
    have hne : (List.range models.length).filter (fun i => hintCount models port i == 0) ≠ [] := by
      rw [hrest]
      exact List.cons_ne_nil j others
    have hall : ∀ i ∈ List.range models.length, hintCount models port i ≤ 1 := by
      intro i hi
      by_cases hzero : hintCount models port i = 0
      · omega
      · apply hcount
        rw [List.dropLast_append_of_ne_nil hne]
        exact List.mem_append_left _ (List.mem_filter.mpr ⟨hi, by simpa using hzero⟩)
    have hhinted : hinted models port =
        (List.range models.length).filter fun i => hintCount models port i != 0 :=
      Keyed.flatMap_replicate hall
    exact hhinted ▸ List.prefix_rfl

end ProtocolModelDb

namespace ProtocolModelFile

open ProtocolModelDb

variable [Double R] {Y : Conversions R} {stale : FirstBytes}
  {factory factory' : AttributeMeterFactory}

theorem hinted_readModels {db db' : ProtocolModelDb R} (h : Hinted db) {nodes : List Yaml}
    (hread : readModels Y stale db factory nodes = some (db', factory')) : Hinted db' := by
  induction nodes generalizing db factory with
  | nil =>
    cases hread
    exact h
  | cons node nodes ih =>
    unfold readModels at hread
    obtain ⟨⟨pm, factory₁⟩, -, hrest⟩ := Option.bind_eq_some_iff.mp hread
    cases pm with
    | none => exact ih h hrest
    | some pm => exact ih (h.addModel pm) hrest

/-- What `read` leaves behind are finished orders. -/
theorem exists_filled {now : Int} {root : Yaml} {file : ProtocolModelFile R}
    (hread : read Y stale now factory root = some (file, factory')) :
    ∃ db : ProtocolModelDb R, Hinted db ∧ file.toProtocolModelDb = db.fillPortHintOrder := by
  obtain ⟨definingLimit, cutoffLimit, version, modifiedTime, items, db, -, -, -, -, -, hmodels,
    rfl⟩ := read_eq_some hread
  refine ⟨db, hinted_readModels ?_ hmodels, rfl⟩
  exact fun port => rfl

/-- A port asks for its positions, one after the other. -/
theorem atPos_of_read {now : Int} {root : Yaml} {file : ProtocolModelFile R}
    (hread : read Y stale now factory root = some (file, factory')) {port : UInt16}
    (hport : port ≠ 0) (pos : Nat) :
    file.atPos pos port = (positions file.protocolModelOrder port)[pos]?.bind fun i =>
      file.protocolModelOrder[i]? := by
  obtain ⟨db, hhinted, hfile⟩ := exists_filled hread
  have hnames := (wellFormed_of_read hread).1.names
  rw [hfile] at hnames ⊢
  have hmodels : db.fillPortHintOrder.protocolModelOrder = db.protocolModelOrder := rfl
  rw [hmodels] at hnames ⊢
  unfold ProtocolModelDb.atPos positions
  rw [if_neg hport, lookup_fillPortHintOrder hnames, hhinted port, hmodels]
  by_cases hnil : hinted db.protocolModelOrder port = []
  · rw [if_pos hnil, hnil, Option.map_none, List.nil_append, List.filter_eq_self.mpr (by simp)]
    by_cases hpos : pos < db.protocolModelOrder.length
    · rw [List.getElem?_range hpos, Option.bind_some]
    · rw [List.getElem?_eq_none (Nat.not_lt.mp hpos),
        List.getElem?_eq_none (by rwa [List.length_range, ← Nat.not_lt]), Option.bind_none]
  · rw [if_neg hnil, Option.map_some]

/-- **Every model is examined, those that hint the port first.** Port 0 asks for the order of the
database. For another port no model but the last of the order lists it twice. -/
theorem searchOrder_of_read {now : Int} {root : Yaml} {file : ProtocolModelFile R}
    (hread : read Y stale now factory root = some (file, factory')) {port : UInt16}
    (h : port = 0 ∨ ∀ pm ∈ (searchOrder file.protocolModelOrder port).dropLast,
      pm.portHints.count port ≤ 1) :
    (List.range file.size).map (fun pos => file.atPos pos port) =
        (searchOrder file.protocolModelOrder port).map some ∧
      (searchOrder file.protocolModelOrder port).Perm file.protocolModelOrder ∧
      ∀ (S : Setup R) (f : Flow R), S.database = file.toProtocolModelDb → f.hintPort S = port →
        f.looksAt S = (searchOrder file.protocolModelOrder port).filter (·.enabled) := by
  have hperm : (searchOrder file.protocolModelOrder port).Perm file.protocolModelOrder := by
    unfold searchOrder
    split
    · exact List.Perm.refl _
    · exact List.filter_append_perm _ _
  have horder : (List.range file.size).map (fun pos => file.atPos pos port) =
      (searchOrder file.protocolModelOrder port).map some := by
    by_cases hport : port = 0
    · unfold ProtocolModelDb.atPos searchOrder
      simp only [if_pos hport]
      exact Keyed.map_getElem?_range file.protocolModelOrder
    · have hmap := map_ordered file.protocolModelOrder hport
      have hlength : (ordered file.protocolModelOrder port).length = file.size := by
        have hsame := congrArg List.length hmap
        rw [List.length_map, List.length_map, hperm.length_eq] at hsame
        exact hsame
      obtain ⟨rest, hpositions⟩ := ordered_prefix hport (h.resolve_left hport)
      have hat : ∀ pos ∈ List.range file.size, file.atPos pos port =
          (ordered file.protocolModelOrder port)[pos]?.bind
            fun i => file.protocolModelOrder[i]? := by
        intro pos hpos
        rw [atPos_of_read hread hport, ← hpositions, List.getElem?_append_left]
        rw [hlength]
        exact List.mem_range.mp hpos
      calc (List.range file.size).map (fun pos => file.atPos pos port)
          = ((List.range file.size).map fun pos => (ordered file.protocolModelOrder port)[pos]?).map
              (·.bind fun i => file.protocolModelOrder[i]?) := by
            rw [List.map_map]
            exact List.map_congr_left hat
        _ = ((ordered file.protocolModelOrder port).map some).map
              (·.bind fun i => file.protocolModelOrder[i]?) := by
            rw [← hlength, Keyed.map_getElem?_range]
        _ = (searchOrder file.protocolModelOrder port).map some := by
            rw [List.map_map, ← hmap]
            rfl
  refine ⟨horder, hperm, ?_⟩
  rintro S f hdatabase rfl
  have hwalk : ((List.range file.size).map fun pos => file.atPos pos (f.hintPort S)).filterMap id =
      searchOrder file.protocolModelOrder (f.hintPort S) := by
    rw [horder, List.filterMap_map]
    exact List.filterMap_some
  rw [List.filterMap_map] at hwalk
  unfold Flow.looksAt Flow.modelsAt
  rw [hdatabase]
  exact congrArg (List.filter (·.enabled)) hwalk

/-! ## Two models, one of which hints ports -/

/-- HTTP comes first in the file, and SSH has the hints. -/
def twoRoot (hints : List String) : Yaml :=
  .map
    [("DefiningLimit", .scalar "10"), ("CutoffLimit", .scalar "100"),
      ("ProtocolModels", .sequence
        [.map [("ProtocolName", .scalar "HTTP"), ("AttributeMeters", .sequence [sizeMeter])],
          .map
            [("ProtocolName", .scalar "SSH"), ("PortHints", .sequence (hints.map .scalar)),
              ("AttributeMeters", .sequence [sizeMeter])]])]

/-- The names of the models that a port asks for. -/
def namesAt (file : ProtocolModelFile R) (port : UInt16) : List (Option String) :=
  (List.range file.size).map fun pos => (file.atPos pos port).map ProtocolModel.name

/-- Port 22 asks for SSH first. -/
theorem twoRoot_searchOrder :
    ∃ file factory',
      read knownScalars (fun _ => 0) 0 freshFactory (twoRoot ["22"]) = some (file, factory') ∧
      (List.range file.size).map (fun pos => file.atPos pos 22) =
        (searchOrder file.protocolModelOrder 22).map some ∧
      (searchOrder file.protocolModelOrder 22).map ProtocolModel.name = ["SSH", "HTTP"] := by
  obtain ⟨file, factory', hread, hseen⟩ :=
    exists_read (twoRoot ["22"])
      (fun file =>
        ((searchOrder file.protocolModelOrder 22).dropLast.all fun pm =>
          decide (pm.portHints.count 22 ≤ 1)) &&
        (searchOrder file.protocolModelOrder 22).map ProtocolModel.name == ["SSH", "HTTP"])
      (by decide +kernel)
  obtain ⟨hcount, hnames⟩ := Bool.and_eq_true_iff.mp hseen
  have hall : ∀ pm ∈ (searchOrder file.protocolModelOrder 22).dropLast,
      pm.portHints.count 22 ≤ 1 :=
    fun pm hpm => of_decide_eq_true (List.all_eq_true.mp hcount pm hpm)
  exact ⟨file, factory', hread, (searchOrder_of_read hread (Or.inr hall)).1, beq_iff_eq.mp hnames⟩

/-- A port that is listed twice hides a model; port 0, even when it is hinted, asks for the order of
the database. -/
theorem twoRoot_not_searchOrder :
    ∃ file factory',
      read knownScalars (fun _ => 0) 0 freshFactory (twoRoot ["22", "22", "0"]) =
        some (file, factory') ∧
      file.protocolModelOrder.map (fun pm => (pm.name, pm.hintsPort 22, pm.hintsPort 0)) =
        [("HTTP", false, false), ("SSH", true, true)] ∧
      file.namesAt 22 = [some "SSH", some "SSH"] ∧
      file.namesAt 0 = [some "HTTP", some "SSH"] := by
  obtain ⟨file, factory', hread, hseen⟩ :=
    exists_read (twoRoot ["22", "22", "0"])
      (fun file => decide
        (file.protocolModelOrder.map (fun pm => (pm.name, pm.hintsPort 22, pm.hintsPort 0)) =
          [("HTTP", false, false), ("SSH", true, true)] ∧
        file.namesAt 22 = [some "SSH", some "SSH"] ∧
        file.namesAt 0 = [some "HTTP", some "SSH"]))
      (by decide +kernel)
  obtain ⟨hhints, htwice, hzero⟩ := of_decide_eq_true hseen
  exact ⟨file, factory', hread, hhints, htwice, hzero⟩

end ProtocolModelFile

end Vsid
