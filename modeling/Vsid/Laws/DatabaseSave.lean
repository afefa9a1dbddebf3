import Vsid.Laws.DatabaseFile
import Vsid.Protocol.DatabaseSave

/-!
# What a save leaves behind

A call of `write` ends in one of four ways (`WriteEffect`). It keeps its word in the first of them
only, and there only if the whole text is written: `write_honest_iff`. Whatever happens, the old
text is still in one of the two files (`write_keeps_old`).
-/

set_option autoImplicit false

namespace Vsid

namespace FileSystem

variable {fs fs' : FileSystem} {os : FileAnswers} {name source target text : String}

theorem rename_eq_some (h : fs.rename os source target = some fs') :
    os.renames = true ∧ (fs source).isSome = true ∧ fs' target = fs source ∧
      (source ≠ target → fs' source = none) := by
  unfold rename at h
  split at h
  next hboth =>
    obtain ⟨hrenames, hsource⟩ := Bool.and_eq_true_iff.mp hboth
    cases h
    refine ⟨hrenames, hsource, if_pos rfl, fun hne => ?_⟩
    exact (if_neg hne).trans (if_pos rfl)
  next => cases h

theorem rename_eq_none (h : fs.rename os source target = none) :
    ¬ (os.renames = true ∧ (fs source).isSome = true) := by
  rintro ⟨hrenames, hsource⟩
  rw [rename, hrenames, hsource] at h
  cases h

/-- Only the file that is opened changes. -/
theorem put_eq_some (h : fs.put os name text = some fs') :
    ∃ written, os.opens name = some written ∧ fs' name = some (cut text written) ∧
      ∀ other, other ≠ name → fs' other = fs other := by
  obtain ⟨written, hwritten, rfl⟩ := Option.map_eq_some_iff.mp h
  exact ⟨written, hwritten, if_pos rfl, fun other hne => if_neg hne⟩

theorem put_eq_none : fs.put os name text = none ↔ os.opens name = none := Option.map_eq_none_iff

/-- Nothing is missing exactly when there was room for the whole text. -/
theorem cut_eq_self_iff {written : Nat} : cut text written = text ↔ text.length ≤ written := by
  unfold cut
  rw [← String.toList_inj, String.toList_ofList, List.take_eq_self_iff, String.length_toList]

end FileSystem

namespace ProtocolModelStore

variable {R : Type} {Y : Conversions R} {emit : Yaml → String} {now : Int}
  {os : FileAnswers} {fs fs' : FileSystem} {db db' : ProtocolModelStore R} {result : Bool}

theorem errFile_ne (db : ProtocolModelStore R) : db.filename ≠ db.errFile := by
  intro h
  have hlength := congrArg String.length h
  rw [errFile, String.length_append] at hlength
  have hnew : ".new".length = 4 := rfl
  omega

/-- Where a call of `write` ends, and with which files and result. -/
inductive WriteEffect (os : FileAnswers) (fs : FileSystem) (db : ProtocolModelStore R)
    (text : String) : FileSystem → Bool → Prop where
  | written {moved fs' : FileSystem} {n : Nat} :
    fs.rename os db.filename db.backupfile = some moved → os.opens db.filename = some n →
    fs' db.filename = some (FileSystem.cut text n) →
    (∀ name, name ≠ db.filename → fs' name = moved name) →
    WriteEffect os fs db text fs' true
  | notOpened {moved : FileSystem} :
    fs.rename os db.filename db.backupfile = some moved → os.opens db.filename = none →
    WriteEffect os fs db text moved false
  | notMoved {fs' : FileSystem} :
    fs.rename os db.filename db.backupfile = none →
    (∀ name, name ≠ db.errFile → fs' name = fs name) →
    WriteEffect os fs db text fs' false

/-- Every call ends in one of these ways. The time is entered in any case. -/
theorem write_effect (h : db.write Y emit now os fs = (fs', db', result)) :
    WriteEffect os fs db (db.text Y emit now) fs' result ∧ db' = db.stamp now := by
  unfold write at h
  simp only at h
  cases hrename : fs.rename os (db.stamp now).filename (db.stamp now).backupfile with
  | some moved =>
    rw [hrename] at h
    simp only at h
    cases hput : moved.put os (db.stamp now).filename (db.text Y emit now) with
    | some fs₂ =>
      rw [hput] at h
      cases h
      obtain ⟨n, hopens, hfile, hother⟩ := FileSystem.put_eq_some hput
      exact ⟨.written hrename hopens hfile hother, rfl⟩
    | none =>
      rw [hput] at h
      cases h
      exact ⟨.notOpened hrename (FileSystem.put_eq_none.mp hput), rfl⟩
  | none =>
    rw [hrename] at h
    simp only at h
    cases hput : fs.put os (db.stamp now).errFile (db.text Y emit now) with
    | some fs₂ =>
      rw [hput] at h
      cases h
      obtain ⟨-, -, -, hother⟩ := FileSystem.put_eq_some hput
      exact ⟨.notMoved hrename hother, rfl⟩
    | none =>
      rw [hput] at h
      cases h
      exact ⟨.notMoved hrename fun _ _ => rfl, rfl⟩

/-- What the result of a save promises: the new text is in the file, or the old file and the times
of the earlier changes are as they were. -/
structure Honest (text : String) (fs : FileSystem) (db : ProtocolModelStore R) (fs' : FileSystem)
    (db' : ProtocolModelStore R) (result : Bool) : Prop where
  saved : result = true → fs' db.filename = some text
  kept : result = false → fs' db.filename = fs db.filename ∧ db'.modifiedTimes = db.modifiedTimes

/-- Every operation succeeds: the old file is there and can be moved, the new one can be opened, and
the whole text is written to it. -/
def Completes (os : FileAnswers) (fs : FileSystem) (db : ProtocolModelStore R) (text : String) :
    Prop :=
  os.renames = true ∧ (fs db.filename).isSome = true ∧
    ∃ written, os.opens db.filename = some written ∧ text.length ≤ written

theorem stamp_modifiedTimes_ne (db : ProtocolModelStore R) (now : Int) :
    (db.stamp now).modifiedTimes ≠ db.modifiedTimes := by
  intro h
  have hlength := congrArg List.length h
  rw [stamp, List.length_cons] at hlength
  omega

/-- **A save keeps its word exactly when nothing fails.** For every database, all files, every time
and every way in which moving, opening and writing can end. -/
theorem write_honest_iff (h : db.write Y emit now os fs = (fs', db', result)) :
    Honest (db.text Y emit now) fs db fs' db' result ↔ Completes os fs db (db.text Y emit now) := by
  obtain ⟨heffect, rfl⟩ := write_effect h
  have hkept : ∀ {fs' : FileSystem}, ¬ Honest (db.text Y emit now) fs db fs' (db.stamp now) false :=
    fun hhonest => stamp_modifiedTimes_ne db now (hhonest.kept rfl).2
  cases heffect with
  | @written moved fs' n hrename hopens hfile hother =>
    obtain ⟨hrenames, hthere, -⟩ := FileSystem.rename_eq_some hrename
    constructor
    · intro hhonest
      have hsaved := hhonest.saved rfl
      rw [hfile, Option.some.injEq] at hsaved
      exact ⟨hrenames, hthere, n, hopens, FileSystem.cut_eq_self_iff.mp hsaved⟩
    · rintro ⟨-, -, written, hopens', hlength⟩
      cases hopens.symm.trans hopens'
      refine ⟨fun _ => ?_, fun hfalse => by cases hfalse⟩
      rw [hfile, FileSystem.cut_eq_self_iff.mpr hlength]
  | notOpened hrename hopens =>
    refine ⟨fun hhonest => absurd hhonest hkept, ?_⟩
    rintro ⟨-, -, written, hopens', -⟩
    cases hopens.symm.trans hopens'
  | notMoved hrename hother =>
    refine ⟨fun hhonest => absurd hhonest hkept, ?_⟩
    rintro ⟨hrenames, hthere, -⟩
    exact absurd ⟨hrenames, hthere⟩ (FileSystem.rename_eq_none hrename)

/-- **The old text is never gone.** It is in the file or in the backup, however a save ends. -/
theorem write_keeps_old (h : db.write Y emit now os fs = (fs', db', result))
    (hnames : db.backupfile ≠ db.filename) (hnew : db.backupfile ≠ db.errFile) :
    fs' db.filename = fs db.filename ∧ fs' db.backupfile = fs db.backupfile ∨
      fs' db.backupfile = fs db.filename := by
  obtain ⟨heffect, rfl⟩ := write_effect h
  cases heffect with
  | written hrename hopens hfile hother =>
    obtain ⟨-, -, hbackup, -⟩ := FileSystem.rename_eq_some hrename
    exact Or.inr ((hother _ hnames).trans hbackup)
  | notOpened hrename hopens =>
    obtain ⟨-, -, hbackup, -⟩ := FileSystem.rename_eq_some hrename
    exact Or.inr hbackup
  | notMoved hrename hother => exact Or.inl ⟨hother _ db.errFile_ne, hother _ hnew⟩

theorem defaultBackup_ne (filename : String) :
    defaultBackup filename "" ≠ filename ∧ defaultBackup filename "" ≠ filename ++ ".new" := by
  unfold defaultBackup
  rw [if_pos rfl]
  constructor
  · intro h
    have hlength := congrArg String.length h
    rw [String.length_append] at hlength
    have hprev : ".prev".length = 5 := rfl
    omega
  · intro h
    have hlength := congrArg String.length h
    rw [String.length_append, String.length_append] at hlength
    have hprev : ".prev".length = 5 := rfl
    have hnew : ".new".length = 4 := rfl
    omega

/-- A new database under the name that the program is started with. -/
def fresh : ProtocolModelStore ℚ :=
  { (ProtocolModelDb.initial : ProtocolModelDb ℚ) with
    version := protocolModelVersion
    modifiedTimes := []
    filename := "vsid.yaml"
    backupfile := defaultBackup "vsid.yaml" "" }

/-- What is emitted for it when it is saved at the beginning of 1970. -/
def freshText : String :=
  "\x7bDefiningLimit: 10, CutoffLimit: 100, Version: 0.2, ModifiedTime: [19700101T000000]\x7d"

/-- The files when it is saved. -/
def oldFiles : FileSystem := fun name => if name = "vsid.yaml" then some "\x7b\x7d" else none

theorem fresh_honest :
    ∃ fs' db' result,
      fresh.write ProtocolModelFile.knownScalars (fun _ => freshText) 0 ⟨true, fun _ => some 1000⟩
        oldFiles = (fs', db', result) ∧
      Honest freshText oldFiles fresh fs' db' result := by
  have hwrite : fresh.write ProtocolModelFile.knownScalars (fun _ => freshText) 0
    ⟨true, fun _ => some 1000⟩ oldFiles = (_, _, _) := rfl
  have hlength : freshText.length ≤ 1000 := by decide
  exact ⟨_, _, _, hwrite, (write_honest_iff hwrite).mpr ⟨rfl, rfl, 1000, rfl, hlength⟩⟩

/-- The disk is full: the save is reported as done, and the file is empty. -/
theorem fresh_not_honest :
    ∃ fs' db', fresh.write ProtocolModelFile.knownScalars (fun _ => freshText) 0
        ⟨true, fun _ => some 0⟩ oldFiles = (fs', db', true) ∧
      fs' fresh.filename = some "" ∧ ¬ Honest freshText oldFiles fresh fs' db' true := by
  refine ⟨_, _, rfl, rfl, fun h => ?_⟩
  have hsaved := h.saved rfl
  exact absurd hsaved (by decide)

end ProtocolModelStore

end Vsid
