import HomeTier.Log.Recent

/-! # Clearing the log files

`FileBackend::delete_all` of `src-tauri/src/log/backend.rs` removes `hometier.log`,
then `hometier.log.0` and so on up to the first number that is missing. It leaves
the number of the next roll as it is, and a number is also used up by a roll that
finds no file: the numbers can have gaps, and what is behind a gap stays.

So the log is cleared in the runs in which no `delete_all` finds a gap
(`cleared_iff_gapless`). Here the calls of the file system do not fail.
-/

namespace HomeTier

open Lib

namespace LogDir

/-- `std::fs::remove_file` -/
def remove (dir : LogDir) (name : Str) : LogDir := Function.update dir name none

/-- `hometier.log.{i}` and the names that follow, up to the first that is missing. -/
def rolledNames (dir : LogDir) : Nat → Nat → List Str
  | 0, _ => []
  | fuel + 1, i =>
    match dir (logName (some i)) with
    | some _ => logName (some i) :: dir.rolledNames fuel (i + 1)
    | none => []

/-- `FileBackend::delete_all` -/
def deleteAll (dir : LogDir) (fuel : Nat) : LogDir :=
  (logName none :: dir.rolledNames fuel 0).foldl remove dir

/-- The numbers of the rolled files have no gap. -/
def Gapless (dir : LogDir) : Prop :=
  ∀ k, dir (logName (some k)) ≠ none → ∀ j < k, dir (logName (some j)) ≠ none

/-- No log file is there. -/
def NoFile (dir : LogDir) : Prop := ∀ k, dir (logName k) = none

variable {dir : LogDir}

theorem foldl_remove (names : List Str) (dir : LogDir) (name : Str) :
    names.foldl remove dir name = if name ∈ names then none else dir name := by
  induction names generalizing dir with
  | nil => rfl
  | cons first names ih =>
    rw [List.foldl_cons, ih]
    by_cases hmem : name ∈ names
    · rw [if_pos hmem, if_pos (List.mem_cons_of_mem _ hmem)]
    · rw [if_neg hmem]
      by_cases hname : name = first
      · rw [hname, remove, Function.update_self, if_pos List.mem_cons_self]
      · rw [remove, Function.update_of_ne hname, if_neg (by simp [hname, hmem])]

/-- The names that the loop finds, from the number `i` on. -/
theorem mem_rolledNames_iff {fuel i k : Nat} (hfuel : dir (logName (some (i + fuel))) = none)
    (hik : i ≤ k) : logName (some k) ∈ dir.rolledNames fuel i ↔
      ∀ j, i ≤ j → j ≤ k → dir (logName (some j)) ≠ none := by
  induction fuel generalizing i with
  | zero =>
    constructor
    · intro h
      cases h
    · intro h
      exact absurd hfuel (h i (Nat.le_refl i) hik)
  | succ fuel ih =>
    rw [rolledNames]
    cases hi : dir (logName (some i)) with
    | none =>
      constructor
      · intro h
        cases h
      · intro h
        exact absurd hi (h i (Nat.le_refl i) hik)
    | some content =>
      -- the loop goes on as long as the next file is there
      by_cases heq : k = i
      · subst heq
        refine ⟨fun _ j hkj hjk => ?_, fun _ => List.mem_cons_self⟩
        rw [Nat.le_antisymm hjk hkj, hi]
        exact Option.some_ne_none content
      · have hnext : i + 1 ≤ k := by omega
        have hend : dir (logName (some (i + 1 + fuel))) = none := by
          rw [Nat.add_right_comm]
          exact hfuel
        have hne : logName (some k) ≠ logName (some i) := by
          intro h
          exact heq (logName_some_injective h)
        rw [List.mem_cons, or_iff_right hne, ih hend hnext]
        constructor
        · intro h j hij hjk
          by_cases hj : j = i
          · rw [hj, hi]
            exact Option.some_ne_none content
          · exact h j (by omega) hjk
        · intro h j hij hjk
          exact h j (by omega) hjk

theorem deleteAll_current (fuel : Nat) : dir.deleteAll fuel (logName none) = none := by
  rw [deleteAll, foldl_remove, if_pos List.mem_cons_self]

/-- A rolled file stays where a number below its own is missing. -/
theorem deleteAll_rolled {fuel : Nat} (hfuel : dir (logName (some fuel)) = none) (k : Nat) :
    dir.deleteAll fuel (logName (some k)) = none ↔
      (dir (logName (some k)) ≠ none → ∀ j < k, dir (logName (some j)) ≠ none) := by
  have hmem : logName (some k) ∈ logName none :: dir.rolledNames fuel 0 ↔
      ∀ j, 0 ≤ j → j ≤ k → dir (logName (some j)) ≠ none := by
    rw [List.mem_cons, or_iff_right (logName_none_ne k).symm]
    exact mem_rolledNames_iff (by rwa [Nat.zero_add]) (Nat.zero_le k)
  rw [deleteAll, foldl_remove]
  constructor
  · intro h hthere j hj
    split at h
    · next hin => exact hmem.1 hin j (Nat.zero_le j) (Nat.le_of_lt hj)
    · exact absurd h hthere
  · intro h
    by_cases hthere : dir (logName (some k)) = none
    · rw [hthere, ite_self]
    · rw [if_pos (hmem.2 ?_)]
      intro j _ hjk
      by_cases hj : j = k
      · rw [hj]
        exact hthere
      · exact h hthere j (by omega)

theorem noFile_deleteAll_iff {fuel : Nat} (hfuel : dir (logName (some fuel)) = none) :
    (dir.deleteAll fuel).NoFile ↔ dir.Gapless := by
  constructor
  · intro h k
    exact (deleteAll_rolled hfuel k).1 (h (some k))
  · intro h k
    cases k with
    | none => exact deleteAll_current fuel
    | some k => exact (deleteAll_rolled hfuel k).2 (h k)

/-- A file that is there after `delete_all` was there before. -/
theorem wellFormed_deleteAll (h : dir.WellFormed) (fuel : Nat) :
    (dir.deleteAll fuel).WellFormed := by
  intro k content hcontent
  rw [deleteAll, foldl_remove] at hcontent
  split at hcontent
  · cases hcontent
  · exact h k content hcontent

/-- What `load_recent` returns comes from the log files. -/
theorem exists_part_of_mem_loadRecent {fuel n : Nat} {r : LogRecord}
    (h : r ∈ dir.loadRecent fuel n) : ∃ k, r ∈ dir.records k := by
  have hsorted : r ∈ sortBySeq (((dir (logName none)).toList ++
      dir.rolledContents fuel 0).flatMap readRecords) := List.mem_of_mem_drop h
  have hread := (List.perm_insertionSort _ _).mem_iff.1 hsorted
  rw [List.flatMap_append, List.mem_append] at hread
  rcases hread with hcurrent | hrolled
  · refine ⟨none, ?_⟩
    rw [records]
    cases hdir : dir (logName none) with
    | none =>
      rw [hdir] at hcurrent
      cases hcurrent
    | some content =>
      rw [hdir] at hcurrent
      simpa using hcurrent
  · rcases Logging.exists_part_of_mem hrolled with ⟨k, hk⟩
    exact ⟨some k, hk⟩

end LogDir

/-! ## Runs -/

/-- The log files, and what was written since the last `delete_all`. -/
structure Clearing where
  files : LogFiles
  since : List LogRecord
  /-- The last `delete_all` has returned, and nothing was written after it. -/
  cleared : Bool

namespace Clearing

inductive Event where
  | write (record : LogRecord)
  | restart (maxSizeMb : Nat)
  /-- `delete_all`, whose loop takes `fuel` steps at most. -/
  | deleteAll (fuel : Nat)

def start (maxSizeMb : Nat) : Clearing where
  files := .start maxSizeMb
  since := []
  cleared := false

def step (s : Clearing) : Event → Option Clearing
  | .write record =>
    some { files := s.files.write record, since := s.since ++ [record], cleared := false }
  | .restart maxSizeMb => some { s with files := s.files.restart maxSizeMb }
  | .deleteAll fuel =>
    if s.files.dir (logName (some fuel)) = none then
      some {
        files := { s.files with dir := s.files.dir.deleteAll fuel }
        since := []
        cleared := true }
    else none

/-- After `delete_all` there is no log file, and `load_recent` returns what was written
after it. -/
def Clean (s : Clearing) : Prop :=
  (s.cleared = true → s.files.dir.NoFile) ∧
    ∀ fuel n, ∀ r ∈ s.files.dir.loadRecent fuel n, r ∈ s.since

/-- `delete_all` finds no gap. -/
def FindsNoGap (s : Clearing) : Event → Prop
  | .deleteAll _ => s.files.dir.Gapless
  | _ => True

/-- The files have nothing that was written before. -/
structure Fresh (s : Clearing) : Prop where
  cleared : s.cleared = true → s.files.dir.NoFile
  records : ∀ k, ∀ r ∈ s.files.dir.records k, r ∈ s.since

/-- The files are those of the backend, and finitely many. -/
structure Ordinary (s : Clearing) : Prop where
  wellFormed : s.files.dir.WellFormed
  finite : ∃ N, ∀ k, N ≤ k → s.files.dir (logName (some k)) = none

theorem ordinary_start (maxSizeMb : Nat) : (start maxSizeMb).Ordinary :=
  ⟨LogFiles.wellFormed_start maxSizeMb, 0, fun _ _ => rfl⟩

theorem ordinary_step {s s' : Clearing} {e : Event} (h : s.Ordinary)
    (hstep : s.step e = some s') : s'.Ordinary := by
  rcases h.finite with ⟨N, hN⟩
  cases e with
  | write record =>
    cases hstep
    refine ⟨LogFiles.wellFormed_write h.wellFormed record, max N (s.files.backend.seq + 1), ?_⟩
    intro k hk
    show (s.files.write record).dir (logName (some k)) = none
    rw [LogFiles.write_dir, LogDir.append_of_ne (logName_none_ne k).symm, LogFiles.rolled]
    split
    · rw [LogDir.rename_of_ne (logName_none_ne k).symm]
      · exact hN k (by omega)
      · intro heq
        have := logName_some_injective heq
        omega
    · exact hN k (by omega)
  | restart maxSizeMb =>
    cases hstep
    exact ⟨h.wellFormed, h.finite⟩
  | deleteAll fuel =>
    rw [step] at hstep
    split at hstep
    · cases hstep
      refine ⟨LogDir.wellFormed_deleteAll h.wellFormed fuel, N, fun k hk => ?_⟩
      show s.files.dir.deleteAll fuel (logName (some k)) = none
      rw [LogDir.deleteAll, LogDir.foldl_remove, hN k hk, ite_self]
    · cases hstep

theorem fresh_start (maxSizeMb : Nat) : (start maxSizeMb).Fresh := by
  refine ⟨fun h => absurd h Bool.false_ne_true, ?_⟩
  intro k r hr
  cases hr

theorem clean_of_fresh {s : Clearing} (h : s.Fresh) : s.Clean := by
  refine ⟨h.cleared, ?_⟩
  intro fuel n r hr
  rcases LogDir.exists_part_of_mem_loadRecent hr with ⟨k, hk⟩
  exact h.records k r hk

theorem fresh_write {s : Clearing} (hwf : s.files.dir.WellFormed) (h : s.Fresh)
    (record : LogRecord) :
    Fresh { files := s.files.write record, since := s.since ++ [record], cleared := false } := by
  refine ⟨fun h => absurd h Bool.false_ne_true, ?_⟩
  intro k r hr
  change r ∈ (s.files.write record).dir.records k at hr
  show r ∈ s.since ++ [record]
  rw [LogFiles.write_dir, LogDir.records_append (LogFiles.wellFormed_rolled hwf record)] at hr
  have hold : ∀ k, r ∈ (s.files.rolled record).records k → r ∈ s.since := by
    intro k hk
    rw [LogFiles.rolled] at hk
    split at hk
    · rw [LogDir.records_rename hwf] at hk
      rcases Parts.exists_of_mem_roll hk with ⟨j, hj⟩
      exact h.records j r hj
    · exact h.records k r hk
  cases k with
  | none =>
    rw [Parts.append_none] at hr
    rcases List.mem_append.1 hr with hr | hr
    · exact List.mem_append_left _ (hold none hr)
    · exact List.mem_append_right _ hr
  | some k =>
    rw [Parts.append_some] at hr
    exact List.mem_append_left _ (hold (some k) hr)

/-- The log is cleared in the runs in which no `delete_all` finds a gap among the
numbers, and in no other run. -/
theorem cleared_iff_gapless (maxSizeMb : Nat) (events : List Event) :
    Always step Clean (start maxSizeMb) events ↔
      Along step FindsNoGap (start maxSizeMb) events := by
  apply always_iff_along_of (I := Fresh) (J := Ordinary)
  · exact fun _ => clean_of_fresh
  · exact fun _ _ _ => ordinary_step
  · intro s e s' hordinary hfresh hstep hgap
    cases e with
    | write record =>
      cases hstep
      exact fresh_write hordinary.wellFormed hfresh record
    | restart maxSizeMb =>
      cases hstep
      exact ⟨hfresh.cleared, hfresh.records⟩
    | deleteAll fuel =>
      rw [step] at hstep
      split at hstep
      · next hfuel =>
        cases hstep
        have hnone := (LogDir.noFile_deleteAll_iff hfuel).2 hgap
        refine ⟨fun _ => hnone, ?_⟩
        intro k r hr
        change r ∈ (s.files.dir.deleteAll fuel).records k at hr
        rw [LogDir.records_of_none (hnone k)] at hr
        cases hr
      · cases hstep
  · intro s e s' _ _ hstep hclean
    cases e with
    | write record => trivial
    | restart maxSizeMb => trivial
    | deleteAll fuel =>
      rw [step] at hstep
      split at hstep
      · next hfuel =>
        cases hstep
        exact (LogDir.noFile_deleteAll_iff hfuel).1 (hclean.1 rfl)
      · cases hstep
  · exact ordinary_start maxSizeMb
  · exact fresh_start maxSizeMb

/-- Without room the first record finds no file to roll and uses the number 0 up: the
second one leaves `hometier.log.1` behind a gap. -/
theorem gap_of_zero (a b : LogRecord) :
    let dir := (((LogFiles.start 0).write a).write b).dir
    dir (logName (some 0)) = none ∧ dir (logName (some 1)) ≠ none := by
  have hwf := LogFiles.wellFormed_write (LogFiles.wellFormed_start 0) a
  have hwf' := LogFiles.wellFormed_write hwf b
  rcases LogFiles.step_write_of_zero (LogFiles.wellFormed_start 0) rfl
    (rfl : (LogFiles.start 0).step (.write a) = some ((LogFiles.start 0).write a)) with
    ⟨hfirst, hmax, hseq⟩
  rcases LogFiles.step_write_of_zero hwf hmax
    (rfl : ((LogFiles.start 0).write a).step (.write b) =
      some (((LogFiles.start 0).write a).write b)) with ⟨hsecond, -, -⟩
  have hempty : ∀ k, (LogFiles.start 0).dir.records k = [] := fun _ => rfl
  have hcurrent : ((LogFiles.start 0).write a).dir.records none ≠ [] := by
    rw [hfirst, Parts.append_none]
    simp
  have hone : (LogFiles.start 0).backend.seq + 1 = 1 := rfl
  rw [hone] at hseq
  constructor
  · rw [← LogDir.records_eq_nil_iff hwf', hsecond, Parts.append_some, hseq,
      Parts.roll_of_ne _ Nat.zero_ne_one, hfirst, Parts.append_some, Parts.roll,
      if_pos (hempty none), hempty]
  · rw [Ne, ← LogDir.records_eq_nil_iff hwf', hsecond, Parts.append_some, hseq,
      Parts.roll_self hcurrent]
    exact hcurrent

theorem rolled_file_remains : ¬ ∀ (maxSizeMb : Nat) (events : List Event),
    Always step Clean (start maxSizeMb) events := by
  intro hall
  obtain ⟨a, b⟩ : LogRecord × LogRecord :=
    (LogRecord.new [] .info "home_tier_lib".toList "first".toList none none,
      LogRecord.new [] .info "home_tier_lib".toList "second".toList none none)
  rcases gap_of_zero a b with ⟨hzero, hone⟩
  have hwrite : ∀ (s : Clearing) (record : LogRecord), s.step (.write record) =
      some { files := s.files.write record, since := s.since ++ [record], cleared := false } :=
    fun _ _ => rfl
  have h := hall 0 [.write a, .write b, .deleteAll 0]
  rw [always_cons (hwrite _ a), always_cons (hwrite _ b), always_cons (if_pos hzero)] at h
  have hnone : ((((LogFiles.start 0).write a).write b).dir.deleteAll 0).NoFile :=
    (always_head h.2.2.2).1 rfl
  exact (LogDir.noFile_deleteAll_iff hzero).1 hnone 1 hone 0 Nat.zero_lt_one hzero

end Clearing

end HomeTier
