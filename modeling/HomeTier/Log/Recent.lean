import HomeTier.Log.File
import HomeTier.Log.Memory

/-! # Reading the recent log

`Dispatch` of `src-tauri/src/log/backend.rs` gives each record to the memory
backend, which numbers its own clone, and to the file backend, which writes the
record as it is: every record in a file has the number 0. `load_recent` reads
`hometier.log`, then `hometier.log.0` and so on up to the first number that is
missing, and sorts by number, which leaves that order.

So it returns the last records in order as long as the rolled files are not
read, and are not needed (`recovers_iff`).
-/

namespace HomeTier

open Lib

/-- `hometier.log.{i}` and the numbers that follow, up to the first that is missing. -/
def LogDir.rolledContents (dir : LogDir) : Nat → Nat → List Str
  | 0, _ => []
  | fuel + 1, i =>
    match dir (logName (some i)) with
    | some content => content :: dir.rolledContents fuel (i + 1)
    | none => []

/-- `FileBackend::load_recent` -/
def LogDir.loadRecent (dir : LogDir) (fuel n : Nat) : List LogRecord :=
  let contents := (dir (logName none)).toList ++ dir.rolledContents fuel 0
  (sortBySeq (contents.flatMap readRecords)).rtake n

/-- The log of a desktop: the files, and the memory of the present process. -/
structure Logging where
  files : LogFiles
  memory : MemoryBackend

namespace Logging

inductive Event where
  /-- `dispatch_log`, at the time `now`. -/
  | log (now : Str) (level : LogLevel) (target message : Str) (spaceId traceId : Option Str)
  | restart (maxEntries maxSizeMb : Nat)
  /-- `restore_history`, whose loop over the files takes `fuel` steps at most. -/
  | restoreHistory (fuel n : Nat)

def start (maxEntries maxSizeMb : Nat) : Logging where
  files := .start maxSizeMb
  memory := .new maxEntries

/-- `Dispatch::write` -/
def write (s : Logging) (record : LogRecord) : Logging where
  files := s.files.write record
  memory := s.memory.write record

def step (s : Logging) : Event → Option Logging
  | .log now level target message spaceId traceId =>
    some (s.write (.new now level target message spaceId traceId))
  | .restart maxEntries maxSizeMb =>
    some { files := s.files.restart maxSizeMb, memory := .new maxEntries }
  | .restoreHistory fuel n =>
    if s.files.dir (logName (some fuel)) = none then
      some { s with memory := s.memory.restore (s.files.dir.loadRecent fuel n) }
    else none

/-- `load_recent(n)` comes to an end and gives the last `n` records written. -/
def Recovers (s : Logging) (n : Nat) : Prop :=
  ∃ fuel, s.files.dir (logName (some fuel)) = none ∧
    s.files.dir.loadRecent fuel n = s.files.written.rtake n

/-- Nothing has been rolled, or the rolled files are neither read nor needed. -/
def InCurrent (s : Logging) (n : Nat) : Prop :=
  n = 0 ∨ (∀ k, s.files.dir (logName (some k)) = none) ∨
    (s.files.dir (logName (some 0)) = none ∧ n ≤ (s.files.dir.records none).length)

/-! ## What the files have -/

/-- What holds throughout a run. -/
structure Inv (s : Logging) : Prop where
  wellFormed : s.files.dir.WellFormed
  unnumbered : ∀ r ∈ s.files.written, r.seq = 0
  suffix : s.files.dir.records none <:+ s.files.written
  current : s.files.written ≠ [] → s.files.dir.records none ≠ []

theorem inv_start (maxEntries maxSizeMb : Nat) : (start maxEntries maxSizeMb).Inv :=
  ⟨LogFiles.wellFormed_start maxSizeMb, by simp [start, LogFiles.start],
    List.suffix_refl _, fun h => absurd rfl h⟩

theorem inv_write {s : Logging} (h : s.Inv) {record : LogRecord} (hseq : record.seq = 0) :
    (s.write record).Inv := by
  have hcurrent := LogFiles.records_current h.wellFormed record
  refine ⟨LogFiles.wellFormed_write h.wellFormed record, ?_, ?_, ?_⟩
  · intro r hr
    rcases List.mem_append.1 hr with hr | hr
    · exact h.unnumbered r hr
    · obtain rfl := List.mem_singleton.1 hr
      exact hseq
  · show (s.files.write record).dir.records none <:+ s.files.written ++ [record]
    rw [hcurrent]
    split
    · exact List.suffix_append _ _
    · rcases h.suffix with ⟨earlier, hearlier⟩
      exact ⟨earlier, by rw [← List.append_assoc, hearlier]⟩
  · intro _
    show (s.files.write record).dir.records none ≠ []
    rw [hcurrent]
    simp

theorem inv_step {s s' : Logging} {e : Event} (h : s.Inv) (hstep : s.step e = some s') :
    s'.Inv := by
  cases e with
  | log now level target message spaceId traceId =>
    cases hstep
    exact inv_write h rfl
  | restart maxEntries maxSizeMb =>
    cases hstep
    exact ⟨h.wellFormed, h.unnumbered, h.suffix, h.current⟩
  | restoreHistory fuel n =>
    rw [step] at hstep
    split at hstep
    · cases hstep
      exact ⟨h.wellFormed, h.unnumbered, h.suffix, h.current⟩
    · cases hstep

/-- The contents that are read are those of rolled files. -/
theorem mem_rolledContents {dir : LogDir} {fuel i : Nat} {content : Str}
    (h : content ∈ dir.rolledContents fuel i) : ∃ k, dir (logName (some k)) = some content := by
  induction fuel generalizing i with
  | zero => cases h
  | succ fuel ih =>
    rw [LogDir.rolledContents] at h
    split at h
    · next content' hcontent =>
      rcases List.mem_cons.1 h with rfl | h
      · exact ⟨i, hcontent⟩
      · exact ih h
    · cases h

/-- The records of the rolled files that are read. -/
def rolledRecords (dir : LogDir) (fuel : Nat) : List LogRecord :=
  (dir.rolledContents fuel 0).flatMap readRecords

theorem exists_part_of_mem {dir : LogDir} {fuel : Nat} {r : LogRecord}
    (h : r ∈ rolledRecords dir fuel) : ∃ k, r ∈ dir.records (some k) := by
  rcases List.mem_flatMap.1 h with ⟨content, hcontent, hr⟩
  rcases mem_rolledContents hcontent with ⟨k, hk⟩
  refine ⟨k, ?_⟩
  rw [LogDir.records, hk]
  exact hr

/-- Sorting leaves the order in which the files are read. -/
theorem loadRecent_eq {s : Logging} (h : s.Inv) (hkept : s.files.Kept) (fuel n : Nat) :
    s.files.dir.loadRecent fuel n =
      (s.files.dir.records none ++ rolledRecords s.files.dir fuel).rtake n := by
  have hcontents : ((s.files.dir (logName none)).toList ++
      s.files.dir.rolledContents fuel 0).flatMap readRecords =
        s.files.dir.records none ++ rolledRecords s.files.dir fuel := by
    rw [List.flatMap_append, rolledRecords, LogDir.records]
    cases s.files.dir (logName none) <;> simp
  have hzero : ∀ r ∈ s.files.dir.records none ++ rolledRecords s.files.dir fuel, r.seq = 0 := by
    intro r hr
    apply h.unnumbered
    rcases List.mem_append.1 hr with hr | hr
    · exact hkept.mem hr
    · rcases exists_part_of_mem hr with ⟨k, hk⟩
      exact hkept.mem hk
  have hsorted : sortBySeq (s.files.dir.records none ++ rolledRecords s.files.dir fuel) =
      s.files.dir.records none ++ rolledRecords s.files.dir fuel := by
    apply List.Pairwise.insertionSort_eq
    apply List.pairwise_of_forall_mem_list
    intro a ha b hb
    rw [hzero a ha, hzero b hb]
  rw [LogDir.loadRecent, hcontents, hsorted]

theorem exists_fuel {s : Logging} (h : s.Inv) (hkept : s.files.Kept) :
    ∃ fuel, s.files.dir (logName (some fuel)) = none := by
  rcases hkept with ⟨N, hempty, -⟩
  exact ⟨N, (LogDir.records_eq_nil_iff h.wellFormed _).1 (hempty N le_rfl)⟩

/-- Where `hometier.log.0` is missing no rolled file is read. -/
theorem rolledRecords_of_missing {dir : LogDir} (h : dir (logName (some 0)) = none)
    (fuel : Nat) : rolledRecords dir fuel = [] := by
  cases fuel with
  | zero => rfl
  | succ fuel =>
    rw [rolledRecords, LogDir.rolledContents, h]
    rfl

/-- Where `hometier.log.0` is there, some record of a rolled file is read. -/
theorem rolledRecords_ne_nil {dir : LogDir} (hwf : dir.WellFormed) {fuel : Nat}
    (hfuel : dir (logName (some fuel)) = none) (h : dir (logName (some 0)) ≠ none) :
    rolledRecords dir fuel ≠ [] := by
  cases fuel with
  | zero => exact absurd hfuel h
  | succ fuel =>
    cases hzero : dir (logName (some 0)) with
    | none => exact absurd hzero h
    | some content =>
      rcases hwf _ _ hzero with ⟨records, hne, rfl⟩
      rw [rolledRecords, LogDir.rolledContents, hzero]
      show (fileText records :: _).flatMap readRecords ≠ []
      rw [List.flatMap_cons, readRecords_fileText]
      exact List.append_ne_nil_of_left_ne_nil hne _

theorem recovers_of_inCurrent {s : Logging} (h : s.Inv) (hkept : s.files.Kept) {n : Nat}
    (hn : s.InCurrent n) : s.Recovers n := by
  rcases exists_fuel h hkept with ⟨fuel, hfuel⟩
  refine ⟨fuel, hfuel, ?_⟩
  rw [loadRecent_eq h hkept]
  rcases hn with rfl | hnone | ⟨hmissing, hlength⟩
  · rw [List.rtake_zero, List.rtake_zero]
  · -- everything is in the current file
    have hall : s.files.dir.records none = s.files.written := by
      apply h.suffix.eq_of_length
      apply hkept.length_eq
      intro k
      exact LogDir.records_of_none (hnone k)
    rw [rolledRecords_of_missing (hnone 0), List.append_nil, hall]
  · rcases h.suffix with ⟨earlier, hearlier⟩
    have hzero : n - (s.files.dir.records none).length = 0 := by omega
    rw [rolledRecords_of_missing hmissing, List.append_nil, ← hearlier, rtake_append, hzero,
      List.rtake_zero, List.nil_append]

theorem inCurrent_of_recovers {s : Logging} (h : s.Inv) (hkept : s.files.Kept)
    (hnodup : s.files.written.Nodup) {n : Nat} (hrec : s.Recovers n) : s.InCurrent n := by
  rcases hrec with ⟨fuel, hfuel, hload⟩
  rw [loadRecent_eq h hkept] at hload
  by_cases hn : n = 0
  · exact Or.inl hn
  refine Or.inr ?_
  by_cases hmissing : s.files.dir (logName (some 0)) = none
  · -- only the current file is read
    rw [rolledRecords_of_missing hmissing, List.append_nil] at hload
    by_cases hnone : ∀ k, s.files.dir (logName (some k)) = none
    · exact Or.inl hnone
    refine Or.inr ⟨hmissing, ?_⟩
    rcases not_forall.1 hnone with ⟨k, hk⟩
    have hpart : s.files.dir.records (some k) ≠ [] :=
      mt (LogDir.records_eq_nil_iff h.wellFormed _).1 hk
    have hcard := Multiset.card_le_card (hkept.add_le k)
    have hlength := congrArg List.length hload
    rw [length_rtake, length_rtake] at hlength
    have hpos := List.length_pos_of_ne_nil hpart
    simp only [Multiset.card_add, Multiset.coe_card] at hcard
    omega
  · -- the last record that is read is one of a rolled file
    exfalso
    have hne := rolledRecords_ne_nil h.wellFormed hfuel hmissing
    have hlast := congrArg List.getLast? hload
    rw [getLast?_rtake hn, getLast?_rtake hn, List.getLast?_append_of_ne_nil _ hne,
      List.getLast?_eq_some_getLast hne] at hlast
    rcases exists_part_of_mem (List.getLast_mem hne) with ⟨k, hpart⟩
    have hwritten : s.files.written ≠ [] := by
      intro hnil
      rw [hnil] at hlast
      cases hlast
    -- and the last record that was written is in the current file
    rcases h.suffix with ⟨earlier, hearlier⟩
    rw [← hearlier, List.getLast?_append_of_ne_nil _ (h.current hwritten)] at hlast
    exact hkept.disjoint hnodup (List.mem_of_getLast? hlast.symm) hpart

/-- `load_recent` gives the last records written, in every reachable state whose
records are all on disk, as long as they are in the current file; and where the
records are different, only then. -/
theorem recovers_iff (maxEntries maxSizeMb : Nat) (events : List Event) (s : Logging)
    (hrun : run step (start maxEntries maxSizeMb) events = some s) (hkept : s.files.Kept)
    (n : Nat) :
    (s.InCurrent n → s.Recovers n) ∧ (s.files.written.Nodup → (s.Recovers n ↔ s.InCurrent n)) := by
  have hinv : s.Inv := run_preserves (fun _ _ _ h hstep => inv_step h hstep)
    (inv_start maxEntries maxSizeMb) hrun
  constructor
  · exact recovers_of_inCurrent hinv hkept
  · intro hnodup
    exact ⟨inCurrent_of_recovers hinv hkept hnodup, recovers_of_inCurrent hinv hkept⟩

/-! ## Two processes -/

/-- The first record of a directory. -/
theorem first_write (a : LogRecord) :
    ((LogFiles.start 0).write a).dir.records = Parts.append (fun _ => []) a ∧
      ((LogFiles.start 0).write a).Kept := by
  have hrecords : ((LogFiles.start 0).write a).dir.records = Parts.append (fun _ => []) a := by
    rw [LogFiles.records_write (LogFiles.wellFormed_start 0) (LogFiles.rolls_of_zero _ _ a)]
    rfl
  refine ⟨hrecords, ?_⟩
  show ((LogFiles.start 0).write a).dir.records.Holds ([] ++ [a])
  rw [hrecords, Parts.holds_append_iff]
  exact Parts.holds_nil

/-- A record of the next process rolls it. -/
theorem second_write (a b : LogRecord) :
    ((((LogFiles.start 0).write a).restart 0).write b).dir.records =
        ((Parts.append (fun _ => []) a).roll 0).append b ∧
      ((((LogFiles.start 0).write a).restart 0).write b).Kept := by
  rcases first_write a with ⟨hfirst, hkept⟩
  have hwf := LogFiles.wellFormed_write (LogFiles.wellFormed_start 0) a
  have hrecords : ((((LogFiles.start 0).write a).restart 0).write b).dir.records =
      ((Parts.append (fun _ => []) a).roll 0).append b := by
    rw [LogFiles.records_write (s := ((LogFiles.start 0).write a).restart 0) hwf
      (LogFiles.rolls_of_zero _ _ b), LogFiles.restart_dir, hfirst]
    rfl
  refine ⟨hrecords, ?_⟩
  show Parts.Holds _ (((LogFiles.start 0).write a).written ++ [b])
  rw [hrecords, Parts.holds_append_iff, Parts.holds_roll_iff (hfirst ▸ hkept)]
  exact Or.inr (Parts.append_some _ _ _)

/-- A record, and another one after a restart. -/
def restarted : List Event :=
  [.log [] .info "home_tier_lib".toList "first".toList none none, .restart 50000 0,
    .log [] .info "home_tier_lib".toList "second".toList none none]

/-- The last record that is read is the first that was written. -/
theorem restarted_out_of_order : ∃ s, run step (start 50000 0) restarted = some s ∧
    s.files.Kept ∧ ¬ s.Recovers 1 := by
  have hstate : ∃ s a b, run step (start 50000 0) restarted = some s ∧
      s.files = (((LogFiles.start 0).write a).restart 0).write b ∧
      a.message ≠ b.message := ⟨_, _, _, rfl, rfl, by decide⟩
  rcases hstate with ⟨s, a, b, hrun, hfiles, hdiffer⟩
  rcases second_write a b with ⟨hrecords, hkept⟩
  rw [← hfiles] at hrecords hkept
  have hinv : s.Inv := run_preserves (fun _ _ _ h hstep => inv_step h hstep) (inv_start _ _) hrun
  have hnodup : s.files.written.Nodup := by
    have hwritten : s.files.written = [a, b] := by
      rw [hfiles]
      rfl
    rw [hwritten, List.nodup_cons, List.mem_singleton]
    exact ⟨fun h => hdiffer (congrArg LogRecord.message h), List.nodup_singleton b⟩
  -- the first record is in `hometier.log.0`
  have hrolled : s.files.dir (logName (some 0)) ≠ none := by
    rw [Ne, ← LogDir.records_eq_nil_iff hinv.wellFormed, hrecords, Parts.append_some,
      Parts.roll_self (by simp)]
    simp
  refine ⟨s, hrun, hkept, ?_⟩
  intro hrec
  rcases inCurrent_of_recovers hinv hkept hnodup hrec with hzero | hnone | ⟨hmissing, -⟩
  · exact absurd hzero one_ne_zero
  · exact hrolled (hnone 0)
  · exact hrolled hmissing

/-- Nothing has been rolled, and nothing is lost. -/
structure Whole (s : LogFiles) : Prop where
  wellFormed : s.dir.WellFormed
  kept : s.Kept
  current : ∀ k, s.dir (logName (some k)) = none

theorem whole_start (maxSizeMb : Nat) : Whole (.start maxSizeMb) :=
  ⟨LogFiles.wellFormed_start maxSizeMb, LogFiles.kept_start maxSizeMb, fun _ => rfl⟩

theorem whole_write {s : LogFiles} (h : Whole s) {record : LogRecord}
    (hfits : ¬ s.backend.Rolls record) : Whole (s.write record) where
  wellFormed := LogFiles.wellFormed_write h.wellFormed record
  kept := by
    have hstep : s.step (.write record) = some (s.write record) := rfl
    exact (LogFiles.kept_step_iff h.wellFormed h.kept hstep).2 fun hrolls => absurd hrolls hfits
  current k := by
    rw [LogFiles.write_dir, LogFiles.rolled, if_neg hfits,
      LogDir.append_of_ne (logName_none_ne k).symm]
    exact h.current k

theorem whole_restart {s : LogFiles} (h : Whole s) (maxSizeMb : Nat) : Whole (s.restart maxSizeMb) :=
  ⟨h.wellFormed, h.kept, h.current⟩

/-- Two records and a third one after a restart, in files of 10 MB. -/
def roomy : List Event :=
  [.log [] .info "home_tier_lib".toList "first".toList none none,
    .log [] .error "home_tier_lib".toList "second".toList none none, .restart 50000 10,
    .log [] .info "home_tier_lib".toList "third".toList none none]

/-- What two processes write is read while it fits one file. -/
theorem recovers_roomy : ∃ s, run step (start 50000 10) roomy = some s ∧
    s.Recovers 2 := by
  have hstate : ∃ s a b c, run step (start 50000 10) roomy = some s ∧
      s.files = ((((LogFiles.start 10).write a).write b).restart 10).write c ∧
      ¬ (LogFiles.start 10).backend.Rolls a ∧ ¬ ((LogFiles.start 10).write a).backend.Rolls b ∧
      ¬ ((((LogFiles.start 10).write a).write b).restart 10).backend.Rolls c :=
    ⟨_, _, _, _, rfl, rfl, by decide +kernel, by decide +kernel, by decide +kernel⟩
  rcases hstate with ⟨s, a, b, c, hrun, hfiles, ha, hb, hc⟩
  have hwhole := whole_write (whole_restart (whole_write (whole_write (whole_start 10) ha) hb) 10) hc
  rw [← hfiles] at hwhole
  exact ⟨s, hrun, (recovers_iff 50000 10 _ s hrun hwhole.kept 2).1 (.inr (.inl hwhole.current))⟩

end Logging

end HomeTier
