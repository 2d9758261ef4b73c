import HomeTier.Lib.Rolling
import HomeTier.Lib.Trace
import HomeTier.Log.Record

/-! # The file backend

`FileBackend` of `src-tauri/src/log/backend.rs` appends records to `hometier.log`.
When a record does not fit, the file is renamed to `hometier.log.{n}` first,
where `n` counts the attempts of this process from 0. Renaming replaces the file
that has the name, and an earlier process may have left one.

So no record is lost in the runs in which a file that is rolled finds its name
free (`kept_iff_free`).
-/

namespace HomeTier

open Lib

/-- The contents of a directory's files, by name. -/
abbrev LogDir := Str → Option Str

/-- `hometier.log`, and `hometier.log.{n}` -/
def logName : Option Nat → Str
  | none => "hometier.log".toList
  | some n => "hometier.log.".toList ++ decimal n

/-- `std::fs::rename`, which fails if there is no such file. -/
def LogDir.rename (dir : LogDir) (src dst : Str) : LogDir :=
  match dir src with
  | none => dir
  | some content => Function.update (Function.update dir src none) dst (some content)

/-- `OpenOptions::create(true).append(true)`, then `write_all`. -/
def LogDir.append (dir : LogDir) (name : Str) (text : Str) : LogDir :=
  Function.update dir name (some ((dir name).getD [] ++ text))

structure FileBackend where
  maxSizeBytes : Nat
  currentSize : Nat
  seq : Nat
deriving DecidableEq, Repr

/-- The length of the line of a record. -/
def lineSize (record : LogRecord) : Nat := (utf8 (record.toText ++ ['\n'])).length

def currentLogSize (dir : LogDir) : Nat :=
  ((dir (logName none)).map fun content => (utf8 content).length).getD 0

namespace FileBackend

def new (dir : LogDir) (maxSizeMb : Nat) : FileBackend where
  maxSizeBytes := maxSizeMb * 1024 * 1024
  currentSize := currentLogSize dir
  seq := 0

/-- The record does not fit the current file. -/
def Rolls (b : FileBackend) (record : LogRecord) : Prop :=
  b.currentSize + lineSize record > b.maxSizeBytes

instance (b : FileBackend) (record : LogRecord) : Decidable (b.Rolls record) :=
  inferInstanceAs (Decidable (_ > _))

def write (dir : LogDir) (b : FileBackend) (record : LogRecord) : LogDir × FileBackend :=
  let (dir, b) :=
    if b.Rolls record then
      -- the number is used up also when there is no file to rename
      (dir.rename (logName none) (logName (some b.seq)),
        { b with currentSize := 0, seq := b.seq + 1 })
    else (dir, b)
  (dir.append (logName none) (record.toText ++ ['\n']),
    { b with currentSize := b.currentSize + lineSize record })

end FileBackend

/-! ## The records in the files -/

/-- The records in each file, none where there is no file. -/
def LogDir.records (dir : LogDir) : Parts LogRecord := fun k => ((dir (logName k)).map readRecords).getD []

/-- The log files consist of lines of records, and none is empty. -/
def LogDir.WellFormed (dir : LogDir) : Prop :=
  ∀ k content, dir (logName k) = some content → ∃ records ≠ [], content = fileText records

theorem logName_some (n : Nat) : logName (some n) = "hometier.log.".toList ++ decimal n := rfl

theorem logName_some_injective {m n : Nat} (h : logName (some m) = logName (some n)) : m = n := by
  rw [logName_some, logName_some, List.append_cancel_left_eq] at h
  exact decimal_injective h

theorem logName_none_ne (n : Nat) : logName none ≠ logName (some n) := by
  intro h
  have hlength := congrArg List.length h
  have hcurrent : (logName none).length = 12 := rfl
  have hrolled : (logName (some n)).length = 13 + (decimal n).length := by
    rw [logName_some, List.length_append]
    rfl
  omega

theorem logName_injective : Function.Injective logName := by
  intro j k h
  cases j with
  | none =>
    cases k with
    | none => rfl
    | some n => exact absurd h (logName_none_ne n)
  | some m =>
    cases k with
    | none => exact absurd h.symm (logName_none_ne m)
    | some n => rw [logName_some_injective h]

namespace LogDir

variable {dir : LogDir}

theorem records_of_none {k : Option Nat} (h : dir (logName k) = none) : dir.records k = [] := by
  rw [records, h]
  rfl

theorem records_of_some {k : Option Nat} {records : List LogRecord}
    (h : dir (logName k) = some (fileText records)) : dir.records k = records := by
  rw [LogDir.records, h, Option.map_some, readRecords_fileText]
  rfl

theorem records_congr {dir' : LogDir} {k : Option Nat} (h : dir' (logName k) = dir (logName k)) :
    dir'.records k = dir.records k := by
  rw [records, records, h]

theorem records_eq_nil_iff (h : dir.WellFormed) (k : Option Nat) :
    dir.records k = [] ↔ dir (logName k) = none := by
  constructor
  · intro hnil
    cases hdir : dir (logName k) with
    | none => rfl
    | some content =>
      rcases h k content hdir with ⟨records, hne, rfl⟩
      exact absurd ((records_of_some hdir).symm.trans hnil) hne
  · exact records_of_none

theorem rename_of_ne {src dst name : Str} (hsrc : name ≠ src) (hdst : name ≠ dst) :
    dir.rename src dst name = dir name := by
  cases h : dir src with
  | none => simp only [rename, h]
  | some content =>
    simp only [rename, h, Function.update_of_ne hdst, Function.update_of_ne hsrc]

theorem rename_dst {src dst content : Str} (h : dir src = some content) :
    dir.rename src dst dst = some content := by
  simp only [rename, h, Function.update_self]

theorem rename_src {src dst : Str} (h : src ≠ dst) : dir.rename src dst src = none := by
  cases hsrc : dir src with
  | none => simp only [rename, hsrc]
  | some content => simp only [rename, hsrc, Function.update_of_ne h, Function.update_self]

theorem append_self (name text : Str) :
    dir.append name text name = some ((dir name).getD [] ++ text) := Function.update_self _ _ _

theorem append_of_ne {name name' : Str} (h : name' ≠ name) (text : Str) :
    dir.append name text name' = dir name' := Function.update_of_ne h _ _

/-- Renaming rolls the records. -/
theorem records_rename (h : dir.WellFormed) (n : Nat) :
    (dir.rename (logName none) (logName (some n))).records = dir.records.roll n := by
  cases hcurrent : dir (logName none) with
  | none =>
    have hrename : dir.rename (logName none) (logName (some n)) = dir := by
      simp only [rename, hcurrent]
    rw [hrename, Parts.roll, if_pos (records_of_none hcurrent)]
  | some content =>
    have hne : dir.records none ≠ [] := by
      intro hnil
      rw [(records_eq_nil_iff h none).1 hnil] at hcurrent
      cases hcurrent
    rcases h none content hcurrent with ⟨records, -, rfl⟩
    funext k
    cases k with
    | none => rw [Parts.roll_none, records_of_none (rename_src (logName_none_ne n))]
    | some k =>
      by_cases hk : k = n
      · subst hk
        rw [Parts.roll_self hne, records_of_some (rename_dst hcurrent), records_of_some hcurrent]
      · rw [Parts.roll_of_ne _ hk]
        apply records_congr
        exact rename_of_ne (logName_none_ne k).symm (logName_injective.ne (by simpa using hk))

theorem wellFormed_rename (h : dir.WellFormed) (n : Nat) :
    (dir.rename (logName none) (logName (some n))).WellFormed := by
  intro k content hcontent
  cases hcurrent : dir (logName none) with
  | none =>
    simp only [rename, hcurrent] at hcontent
    exact h k content hcontent
  | some current =>
    by_cases hdst : logName k = logName (some n)
    · -- the file that has been renamed
      rw [hdst, rename_dst hcurrent] at hcontent
      cases hcontent
      exact h none _ hcurrent
    · by_cases hsrc : logName k = logName none
      · rw [hsrc, rename_src (logName_none_ne n)] at hcontent
        cases hcontent
      · rw [rename_of_ne hsrc hdst] at hcontent
        exact h k content hcontent

theorem fileText_concat (records : List LogRecord) (r : LogRecord) :
    fileText (records ++ [r]) = fileText records ++ (r.toText ++ ['\n']) := by
  simp [fileText, unlines]

/-- The current file after a line has been appended. -/
theorem append_line (h : dir.WellFormed) (r : LogRecord) :
    dir.append (logName none) (r.toText ++ ['\n']) (logName none) =
      some (fileText (dir.records none ++ [r])) := by
  rw [append_self, fileText_concat]
  cases hcurrent : dir (logName none) with
  | none =>
    rw [records_of_none hcurrent]
    rfl
  | some content =>
    rcases h none content hcurrent with ⟨records, -, rfl⟩
    rw [records_of_some hcurrent]
    rfl

/-- A line more is a record more. -/
theorem records_append (h : dir.WellFormed) (r : LogRecord) :
    (dir.append (logName none) (r.toText ++ ['\n'])).records = dir.records.append r := by
  funext k
  cases k with
  | none => rw [records_of_some (append_line h r), Parts.append_none]
  | some n =>
    rw [Parts.append_some]
    exact records_congr (append_of_ne (logName_none_ne n).symm _)

theorem wellFormed_append (h : dir.WellFormed) (r : LogRecord) :
    (dir.append (logName none) (r.toText ++ ['\n'])).WellFormed := by
  intro k content hcontent
  by_cases hk : logName k = logName none
  · rw [hk, append_line h r] at hcontent
    cases hcontent
    exact ⟨_, by simp, rfl⟩
  · rw [append_of_ne hk] at hcontent
    exact h k content hcontent

end LogDir

/-! ## Runs -/

/-- The directory, the backend of the present process, and what was written. -/
structure LogFiles where
  dir : LogDir
  backend : FileBackend
  written : List LogRecord

namespace LogFiles

inductive Event where
  | write (record : LogRecord)
  /-- `FileBackend::new` on the same directory. -/
  | restart (maxSizeMb : Nat)

/-- The first process, in an empty directory. -/
def start (maxSizeMb : Nat) : LogFiles where
  dir := fun _ => none
  backend := .new (fun _ => none) maxSizeMb
  written := []

def write (s : LogFiles) (record : LogRecord) : LogFiles where
  dir := (s.backend.write s.dir record).1
  backend := (s.backend.write s.dir record).2
  written := s.written ++ [record]

def restart (s : LogFiles) (maxSizeMb : Nat) : LogFiles :=
  { s with backend := .new s.dir maxSizeMb }

def step (s : LogFiles) : Event → Option LogFiles
  | .write record => some (s.write record)
  | .restart maxSizeMb => some (s.restart maxSizeMb)

theorem restart_dir (s : LogFiles) (maxSizeMb : Nat) : (s.restart maxSizeMb).dir = s.dir := rfl

/-- Every record written is in one of the files, once. -/
def Kept (s : LogFiles) : Prop := s.dir.records.Holds s.written

/-- A write that rolls the current file finds the name free. -/
def Free (s : LogFiles) : Event → Prop
  | .write record => s.backend.Rolls record →
      s.dir (logName none) = none ∨ s.dir (logName (some s.backend.seq)) = none
  | .restart _ => True

/-- The directory to which the line is appended. -/
def rolled (s : LogFiles) (record : LogRecord) : LogDir :=
  if s.backend.Rolls record then s.dir.rename (logName none) (logName (some s.backend.seq))
  else s.dir

theorem write_dir (s : LogFiles) (record : LogRecord) :
    (s.write record).dir =
      (s.rolled record).append (logName none) (record.toText ++ ['\n']) := by
  show (s.backend.write s.dir record).1 = _
  by_cases hrolls : s.backend.Rolls record
  · simp only [FileBackend.write, rolled, if_pos hrolls]
  · simp only [FileBackend.write, rolled, if_neg hrolls]

theorem wellFormed_rolled {s : LogFiles} (h : s.dir.WellFormed) (record : LogRecord) :
    (s.rolled record).WellFormed := by
  unfold rolled
  split
  · exact LogDir.wellFormed_rename h _
  · exact h

theorem wellFormed_write {s : LogFiles} (h : s.dir.WellFormed) (record : LogRecord) :
    (s.write record).dir.WellFormed := by
  rw [write_dir]
  exact LogDir.wellFormed_append (wellFormed_rolled h record) record

theorem wellFormed_step {s s' : LogFiles} {e : Event} (h : s.dir.WellFormed)
    (hstep : s.step e = some s') : s'.dir.WellFormed := by
  cases e with
  | write record =>
    cases hstep
    exact wellFormed_write h record
  | restart maxSizeMb =>
    cases hstep
    exact h

/-- A step keeps all records exactly when the file it rolls finds its name free. -/
theorem kept_step_iff {s s' : LogFiles} {e : Event} (h : s.dir.WellFormed) (hkept : s.Kept)
    (hstep : s.step e = some s') : s'.Kept ↔ s.Free e := by
  cases e with
  | restart maxSizeMb =>
    cases hstep
    exact ⟨fun _ => trivial, fun _ => hkept⟩
  | write record =>
    cases hstep
    show (s.write record).dir.records.Holds (s.written ++ [record]) ↔ _
    rw [write_dir, LogDir.records_append (wellFormed_rolled h record), Parts.holds_append_iff]
    unfold rolled
    split
    · next hrolls =>
      rw [LogDir.records_rename h, Parts.holds_roll_iff hkept, LogDir.records_eq_nil_iff h,
        LogDir.records_eq_nil_iff h]
      exact ⟨fun hfree _ => hfree, fun hfree => hfree hrolls⟩
    · next hrolls => exact ⟨fun _ hr => absurd hr hrolls, fun _ => hkept⟩

theorem wellFormed_start (maxSizeMb : Nat) : (start maxSizeMb).dir.WellFormed := by
  intro k content h
  cases h

theorem kept_start (maxSizeMb : Nat) : (start maxSizeMb).Kept := Parts.holds_nil

/-- Every record stays in the files of a run in which the files that are rolled
find their names free, and of no other run. -/
theorem kept_iff_free (maxSizeMb : Nat) (events : List Event) :
    Always step Kept (start maxSizeMb) events ↔ Along step Free (start maxSizeMb) events :=
  always_iff_along (J := fun s => s.dir.WellFormed)
    (fun _ _ _ h hstep => wellFormed_step h hstep)
    (fun _ _ _ h hkept hstep => kept_step_iff h hkept hstep)
    (wellFormed_start maxSizeMb) (kept_start maxSizeMb) events

/-- What a write leaves in the current file. -/
theorem records_current {s : LogFiles} (h : s.dir.WellFormed) (record : LogRecord) :
    (s.write record).dir.records none =
      (if s.backend.Rolls record then [] else s.dir.records none) ++ [record] := by
  rw [write_dir, LogDir.records_append (wellFormed_rolled h record), Parts.append_none, rolled]
  split
  · rw [LogDir.records_rename h, Parts.roll_none]
  · rfl

/-! ## Two processes -/

/-- A write that rolls takes the next number for the current file. -/
theorem records_write {s : LogFiles} (h : s.dir.WellFormed) {record : LogRecord}
    (hrolls : s.backend.Rolls record) :
    (s.write record).dir.records = (s.dir.records.roll s.backend.seq).append record := by
  rw [write_dir, LogDir.records_append (wellFormed_rolled h record), rolled, if_pos hrolls,
    LogDir.records_rename h]

theorem write_backend {s : LogFiles} {record : LogRecord} (hrolls : s.backend.Rolls record) :
    (s.write record).backend =
      ⟨s.backend.maxSizeBytes, 0 + lineSize record, s.backend.seq + 1⟩ := by
  show (s.backend.write s.dir record).2 = _
  simp only [FileBackend.write, if_pos hrolls]

/-- Without room every record is rolled. -/
theorem rolls_of_zero (currentSize seq : Nat) (record : LogRecord) :
    FileBackend.Rolls ⟨0, currentSize, seq⟩ record := by
  have hline : 0 < lineSize record := by
    have hnewline : (utf8 ['\n']).length = 1 := by decide
    have hsplit : lineSize record = (utf8 record.toText).length + 1 := by
      rw [lineSize, ← hnewline, utf8, utf8, utf8, List.flatMap_append, List.length_append]
    omega
  show currentSize + lineSize record > 0
  omega

/-- What follows a write when there is no room. -/
theorem step_write_of_zero {s s' : LogFiles} {record : LogRecord} (h : s.dir.WellFormed)
    (hmax : s.backend.maxSizeBytes = 0) (hstep : s.step (.write record) = some s') :
    s'.dir.records = (s.dir.records.roll s.backend.seq).append record ∧
      s'.backend.maxSizeBytes = 0 ∧ s'.backend.seq = s.backend.seq + 1 := by
  rcases s with ⟨dir, ⟨maxSizeBytes, currentSize, seq⟩, written⟩
  obtain rfl : maxSizeBytes = 0 := hmax
  have hrolls := rolls_of_zero currentSize seq record
  cases hstep
  refine ⟨records_write h hrolls, ?_, ?_⟩
  · exact congrArg FileBackend.maxSizeBytes (write_backend (s := ⟨dir, _, written⟩) hrolls)
  · exact congrArg FileBackend.seq (write_backend (s := ⟨dir, _, written⟩) hrolls)

/-- Two records are written, and after a restart two more. -/
def twoProcesses : List Event :=
  let record (message : String) :=
    LogRecord.new [] .info "home_tier_lib".toList message.toList none none
  [.write (record "first"), .write (record "second"), .restart 0, .write (record "third"),
    .write (record "fourth")]

/-- The second process rolls over the file of the first. -/
theorem twoProcesses_not_kept : ¬ Always step Kept (start 0) twoProcesses := by
  intro h
  have hstep : ∀ (s : LogFiles) (e : Event), ∃ s', s.step e = some s' := by
    intro s e
    cases e <;> exact ⟨_, rfl⟩
  rcases hstep (start 0) _ with ⟨s₁, hs₁⟩
  rcases hstep s₁ _ with ⟨s₂, hs₂⟩
  rcases hstep s₂ (.restart 0) with ⟨s₃, hs₃⟩
  rcases hstep s₃ _ with ⟨s₄, hs₄⟩
  rcases hstep s₄ _ with ⟨s₅, hs₅⟩
  rw [twoProcesses, always_cons hs₁, always_cons hs₂, always_cons hs₃, always_cons hs₄,
    always_cons hs₅] at h
  have hwf₁ := wellFormed_step (wellFormed_start 0) hs₁
  have hwf₂ := wellFormed_step hwf₁ hs₂
  have hwf₃ := wellFormed_step hwf₂ hs₃
  have hwf₄ := wellFormed_step hwf₃ hs₄
  rcases step_write_of_zero (wellFormed_start 0) rfl hs₁ with ⟨hrec₁, hmax₁, hseq₁⟩
  rcases step_write_of_zero hwf₁ hmax₁ hs₂ with ⟨hrec₂, -, -⟩
  obtain rfl : s₂.restart 0 = s₃ := Option.some.inj hs₃
  rcases step_write_of_zero hwf₃ rfl hs₄ with ⟨hrec₄, hmax₄, hseq₄⟩
  have hfree := (kept_step_iff hwf₄ h.2.2.2.2.1 hs₅).1 (always_head h.2.2.2.2.2)
  have hrolls : ∀ r, s₄.backend.Rolls r := by
    intro r
    have := rolls_of_zero s₄.backend.currentSize s₄.backend.seq r
    rwa [← hmax₄] at this
  -- the number 1 has been used by the first process
  have hone : s₄.dir.records (some 1) ≠ [] := by
    have hzero : 1 ≠ (s₂.restart 0).backend.seq := one_ne_zero
    have hcurrent : s₁.dir.records none ≠ [] := by
      rw [hrec₁, Parts.append_none]
      simp
    have hseq : s₁.backend.seq = 1 := hseq₁
    have hfirst : s₂.dir.records (some 1) = s₁.dir.records none := by
      rw [hrec₂, Parts.append_some, hseq]
      exact Parts.roll_self hcurrent 1
    have hkeep : s₄.dir.records (some 1) = s₂.dir.records (some 1) := by
      rw [hrec₄, Parts.append_some, Parts.roll_of_ne _ hzero, restart_dir]
    rw [hkeep, hfirst]
    exact hcurrent
  have hnone : s₄.dir.records none ≠ [] := by
    rw [hrec₄, Parts.append_none]
    simp
  rcases hfree (hrolls _) with hfree | hfree
  · exact hnone (LogDir.records_of_none hfree)
  · rw [hseq₄] at hfree
    exact hone (LogDir.records_of_none hfree)

end LogFiles

end HomeTier
