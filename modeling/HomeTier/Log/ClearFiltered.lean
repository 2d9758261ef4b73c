import HomeTier.Log.Clear

/-! # Clearing what a filter matches

`clear_logs_filtered` of `src-tauri/src/commands/log.rs` clears three stores. A daemon
that answers a ping clears all it has; the store of the GUI is cleared by a `LogFilter`
made of the arguments; and the files are deleted when nothing is in that filter. An
argument that does not parse is no argument then, and a list with commas is one text.

So only matches are removed where the daemon and the files have nothing else, and where
no record of the GUI is taken or left for an argument that was misread
(`clears_matches_iff`).
-/

namespace HomeTier

open Lib

/-- `parse_category` -/
def parseCategory (lower : Str → Str) (category : Str) : Option LogCategory :=
  LogCategory.ofName (lower category)

/-- The filter is empty for `clear_filtered`, which looks at five of its fields. -/
def LogFilter.IsEmpty (f : LogFilter) : Prop :=
  f.level = none ∧ f.spaceId = none ∧ f.module = none ∧ f.category = none ∧ f.keyword = none

instance (f : LogFilter) : Decidable f.IsEmpty := inferInstanceAs (Decidable (_ ∧ _))

/-- `MemoryBackend::clear_filtered` -/
def MemoryBackend.clearFiltered (lower : Str → Str) (m : MemoryBackend) (f : LogFilter) :
    MemoryBackend :=
  if f.IsEmpty then { m with store := [] }
  else { m with store := m.store.filter (!f.matches lower ·) }

/-- The arguments of `clear_logs_filtered`. -/
structure ClearArgs where
  level : Option Str
  spaceId : Option Str
  module : Option Str
  category : Option Str
  keyword : Option Str

structure LogStores where
  gui : MemoryBackend
  daemon : MemoryBackend
  dir : LogDir

section Clearing

-- `to_lowercase`
variable (lower : Str → Str)

def ClearArgs.filter (args : ClearArgs) : LogFilter where
  level := args.level.bind (parseLevel lower)
  spaceId := args.spaceId
  module := args.module
  category := args.category.bind (parseCategory lower)
  keyword := args.keyword

/-- `clear_logs_filtered`; `reached` says that the daemon answers the ping and the request,
and the loop over the files takes `fuel` steps at most. -/
def clearLogsFiltered (reached : Bool) (fuel : Nat) (args : ClearArgs) (s : LogStores) :
    LogStores where
  daemon := if reached then { s.daemon with store := [] } else s.daemon
  gui := s.gui.clearFiltered lower (args.filter lower)
  dir := if (args.filter lower).IsEmpty then s.dir.deleteAll fuel else s.dir

/-! ## What the arguments ask for -/

def levelMeant (args : ClearArgs) (r : LogRecord) : Bool :=
  args.level.all fun level => parseLevel lower level = some r.level

/-- One of the categories of the list. -/
def categoryMeant (args : ClearArgs) (r : LogRecord) : Bool :=
  args.category.all fun list =>
    (list.splitOn ',').any fun category => parseCategory lower category = some r.category

/-- One of the modules of the list. -/
def moduleMeant (args : ClearArgs) (r : LogRecord) : Bool :=
  args.module.all fun list => (list.splitOn ',').any (containsText r.module ·)

/-- The arguments that are used as they are: the space and the keyword. -/
def plainMeant (args : ClearArgs) (r : LogRecord) : Bool :=
  args.spaceId.all (r.spaceId = some ·) &&
    args.keyword.all fun kw => containsText (lower r.message) (lower kw) ||
      containsText (lower r.target) (lower kw)

/-- The record satisfies all given arguments. -/
def meant (args : ClearArgs) (r : LogRecord) : Bool :=
  plainMeant lower args r && levelMeant lower args r && categoryMeant lower args r &&
    moduleMeant args r

/-- No record that fails an argument is removed, and no other one stays in the GUI. -/
structure OnlyMatches (args : ClearArgs) (s s' : LogStores) : Prop where
  gui : s'.gui.store = s.gui.store.filter (!meant lower args ·)
  daemon : s'.daemon.store.filter (!meant lower args ·) =
    s.daemon.store.filter (!meant lower args ·)
  files : ∀ k, (s'.dir.records k).filter (!meant lower args ·) =
    (s.dir.records k).filter (!meant lower args ·)

/-- `clear_filtered` leaves what the filter rejects. -/
def LeavesRejected (m : MemoryBackend) (f : LogFilter) : Prop :=
  (m.clearFiltered lower f).store = m.store.filter (!f.matches lower ·)

/-! ## What is taken -/

/-- The level as far as it is known. -/
def levelTaken (args : ClearArgs) (r : LogRecord) : Bool :=
  (args.level.bind (parseLevel lower)).all (r.level = ·)

/-- The category as far as it is known. -/
def categoryTaken (args : ClearArgs) (r : LogRecord) : Bool :=
  (args.category.bind (parseCategory lower)).all (r.category = ·)

/-- The module has the whole text. -/
def moduleTaken (args : ClearArgs) (r : LogRecord) : Bool :=
  args.module.all (containsText r.module ·)

/-- The record is not taken for a level or category that is not known, and not left for
one of several modules. -/
structure Understood (args : ClearArgs) (r : LogRecord) : Prop where
  known : levelTaken lower args r → categoryTaken lower args r → moduleTaken args r →
    levelMeant lower args r ∧ categoryMeant lower args r
  single : levelMeant lower args r → categoryMeant lower args r → moduleMeant args r →
    moduleTaken args r

/-- The files that `delete_all` reaches. -/
def Deleted (dir : LogDir) : Option Nat → Prop
  | none => True
  | some k => ∀ j ≤ k, dir (logName (some j)) ≠ none

/-- The daemon is not reached or has matches only, the records of the GUI of the given
space and keyword are understood, and where no argument is, the files that are deleted
have matches only. -/
structure Clearable (reached : Bool) (args : ClearArgs) (s : LogStores) : Prop where
  daemon : reached = true → ∀ r ∈ s.daemon.store, meant lower args r
  gui : ∀ r ∈ s.gui.store, plainMeant lower args r → Understood lower args r
  files : (args.filter lower).IsEmpty → ∀ k, Deleted s.dir k →
    ∀ r ∈ s.dir.records k, meant lower args r

/-! ## Proofs -/

variable {lower} {args : ClearArgs}

theorem matches_filter (r : LogRecord) : (args.filter lower).matches lower r =
    (plainMeant lower args r && levelTaken lower args r && categoryTaken lower args r &&
      moduleTaken args r) := by
  simp only [LogFilter.matches, ClearArgs.filter, plainMeant, levelTaken, categoryTaken,
    moduleTaken, Option.all_none, Bool.and_true]
  ac_rfl

theorem level_of_meant {r : LogRecord} (h : levelMeant lower args r) :
    levelTaken lower args r := by
  unfold levelMeant at h
  unfold levelTaken
  cases hlevel : args.level with
  | none => rfl
  | some level =>
    rw [hlevel, Option.all_some, decide_eq_true_eq] at h
    rw [Option.bind_some, h, Option.all_some, decide_eq_true rfl]

/-- A category that is known has no comma. -/
theorem comma_notMem_name (c : LogCategory) : ',' ∉ c.name := by
  cases c <;> decide

/-- A list of several categories is none of them. -/
theorem parseCategory_of_comma (hcomma : ∀ s, ',' ∈ s → ',' ∈ lower s) {list : Str}
    (hmem : ',' ∈ list) : parseCategory lower list = none := by
  cases hparse : parseCategory lower list with
  | none => rfl
  | some c =>
    have hfound := List.find?_some hparse
    have hname : c.name = lower list := by simpa using hfound
    exact absurd (hname ▸ hcomma list hmem) (comma_notMem_name c)

theorem category_of_meant (hcomma : ∀ s, ',' ∈ s → ',' ∈ lower s) {r : LogRecord}
    (h : categoryMeant lower args r) : categoryTaken lower args r := by
  unfold categoryMeant at h
  unfold categoryTaken
  cases hcategory : args.category with
  | none => rfl
  | some list =>
    rw [hcategory, Option.all_some] at h
    rw [Option.bind_some]
    cases hparse : parseCategory lower list with
    | none => rfl
    | some c =>
      have hno : ',' ∉ list := by
        intro hmem
        rw [parseCategory_of_comma hcomma hmem] at hparse
        cases hparse
      rw [List.splitOn_eq_singleton hno] at h
      simpa [hparse, eq_comm] using h

theorem module_of_taken {r : LogRecord} (h : moduleTaken args r) : moduleMeant args r := by
  unfold moduleTaken at h
  unfold moduleMeant
  cases hmodule : args.module with
  | none => rfl
  | some list =>
    rw [hmodule, Option.all_some, containsText_iff] at h
    rw [Option.all_some, List.any_eq_true]
    rcases List.exists_mem_of_ne_nil _ (List.splitOn_ne_nil ',' list) with ⟨first, hfirst⟩
    exact ⟨first, hfirst, containsText_iff.2 ((infix_of_mem_splitOn hfirst).trans h)⟩

/-- The filter takes a record for what it satisfies exactly where it is understood. -/
theorem matches_eq_meant_iff (hcomma : ∀ s, ',' ∈ s → ',' ∈ lower s) (r : LogRecord) :
    (args.filter lower).matches lower r = meant lower args r ↔
      (plainMeant lower args r → Understood lower args r) := by
  have hlevel := @level_of_meant lower args r
  have hcategory := @category_of_meant lower args hcomma r
  have hmodule := @module_of_taken args r
  rw [matches_filter, meant]
  cases plainMeant lower args r with
  | false => simp
  | true =>
    simp only [Bool.true_and, forall_const]
    constructor
    · intro heq
      have hiff := Bool.eq_iff_iff.1 heq
      simp only [Bool.and_eq_true, and_assoc] at hiff
      refine ⟨?_, ?_⟩
      · intro hl hc hm
        have hall := hiff.1 ⟨hl, hc, hm⟩
        exact ⟨hall.1, hall.2.1⟩
      · intro hl hc hm
        exact (hiff.2 ⟨hl, hc, hm⟩).2.2
    · rintro ⟨hknown, hsingle⟩
      rw [Bool.eq_iff_iff]
      simp only [Bool.and_eq_true, and_assoc]
      constructor
      · rintro ⟨hl, hc, hm⟩
        rcases hknown hl hc hm with ⟨hl', hc'⟩
        exact ⟨hl', hc', hmodule hm⟩
      · rintro ⟨hl, hc, hm⟩
        exact ⟨hlevel hl, hcategory hc, hsingle hl hc hm⟩

/-- What a filter leaves tells what it matches. -/
theorem filter_not_eq_iff {p q : LogRecord → Bool} {store : List LogRecord} :
    store.filter (!p ·) = store.filter (!q ·) ↔ ∀ r ∈ store, p r = q r := by
  constructor
  · intro h r hr
    have hmem : r ∈ store.filter (!p ·) ↔ r ∈ store.filter (!q ·) := by rw [h]
    rw [List.mem_filter, List.mem_filter, and_congr_right_iff] at hmem
    have hiff := hmem hr
    cases hp : p r <;> cases hq : q r <;> simp_all
  · intro h
    apply List.filter_congr
    intro r hr
    rw [h r hr]

theorem filter_eq_nil_iff' {p : LogRecord → Bool} {store : List LogRecord} :
    [] = store.filter (!p ·) ↔ ∀ r ∈ store, p r = true := by
  rw [eq_comm, List.filter_eq_nil_iff]
  simp

/-- An empty filter takes everything where it looks at nothing else. -/
theorem leavesRejected_iff (m : MemoryBackend) (f : LogFilter) :
    LeavesRejected lower m f ↔ (f.IsEmpty → ∀ r ∈ m.store, f.matches lower r = true) := by
  rw [LeavesRejected, MemoryBackend.clearFiltered]
  by_cases hempty : f.IsEmpty
  · rw [if_pos hempty, filter_eq_nil_iff', forall_prop_of_true hempty]
  · rw [if_neg hempty]
    exact ⟨fun _ h => absurd h hempty, fun _ => rfl⟩

theorem matches_of_isEmpty (h : (args.filter lower).IsEmpty) (r : LogRecord) :
    (args.filter lower).matches lower r = true := by
  rcases h with ⟨hlevel, hspace, hmodule, hcategory, hkeyword⟩
  simp only [LogFilter.matches, hlevel, hspace, hmodule, hcategory, hkeyword, Option.all_none,
    Bool.and_true]
  rfl

theorem clearFiltered_filter (m : MemoryBackend) :
    (m.clearFiltered lower (args.filter lower)).store =
      m.store.filter (!(args.filter lower).matches lower ·) :=
  (leavesRejected_iff m (args.filter lower)).2 fun h r _ => matches_of_isEmpty h r

theorem records_deleteAll {dir : LogDir} {fuel : Nat} (hfuel : dir (logName (some fuel)) = none)
    (k : Option Nat) :
    (Deleted dir k → (dir.deleteAll fuel).records k = []) ∧
      (¬ Deleted dir k → (dir.deleteAll fuel).records k = dir.records k) := by
  cases k with
  | none =>
    refine ⟨fun _ => LogDir.records_of_none (LogDir.deleteAll_current fuel), ?_⟩
    intro h
    exact absurd trivial h
  | some k =>
    constructor
    · intro h
      apply LogDir.records_of_none
      rw [LogDir.deleteAll_rolled hfuel]
      intro _ j hj
      exact h j (Nat.le_of_lt hj)
    · intro h
      apply LogDir.records_congr
      by_cases hthere : dir (logName (some k)) = none
      · rw [hthere, LogDir.deleteAll_rolled hfuel]
        exact fun hne => absurd hthere hne
      · by_contra hne
        apply h
        have hgone : dir.deleteAll fuel (logName (some k)) = none := by
          rw [LogDir.deleteAll, LogDir.foldl_remove] at hne ⊢
          split at hne
          · next hmem => rw [if_pos hmem]
          · exact absurd rfl hne
        intro j hj
        rcases Nat.lt_or_eq_of_le hj with hlt | rfl
        · exact (LogDir.deleteAll_rolled hfuel k).1 hgone hthere j hlt
        · exact hthere

/-- Only matches are removed exactly when the daemon and the deleted files have nothing
else, and the records of the GUI are understood; and a filter leaves what it rejects
exactly when it is not empty or matches everything. -/
theorem clears_matches_iff (hcomma : ∀ s, ',' ∈ s → ',' ∈ lower s) {s : LogStores} {fuel : Nat}
    (hfuel : s.dir (logName (some fuel)) = none) (reached : Bool) (args : ClearArgs)
    (f : LogFilter) :
    (OnlyMatches lower args s (clearLogsFiltered lower reached fuel args s) ∧
        LeavesRejected lower s.gui f) ↔
      (Clearable lower reached args s ∧
        (f.IsEmpty → ∀ r ∈ s.gui.store, f.matches lower r = true)) := by
  rw [leavesRejected_iff]
  apply and_congr_left
  intro _
  -- store by store: the window's own, the daemon's, the files
  have hgui : (clearLogsFiltered lower reached fuel args s).gui.store =
      s.gui.store.filter (!meant lower args ·) ↔
        ∀ r ∈ s.gui.store, plainMeant lower args r → Understood lower args r := by
    show (s.gui.clearFiltered lower (args.filter lower)).store = _ ↔ _
    rw [clearFiltered_filter, filter_not_eq_iff]
    exact forall₂_congr fun r _ => matches_eq_meant_iff hcomma r
  have hdaemon : (clearLogsFiltered lower reached fuel args s).daemon.store.filter
      (!meant lower args ·) = s.daemon.store.filter (!meant lower args ·) ↔
        (reached = true → ∀ r ∈ s.daemon.store, meant lower args r) := by
    cases reached with
    | false => exact ⟨fun _ h => absurd h Bool.false_ne_true, fun _ => rfl⟩
    | true =>
      show [] = _ ↔ _
      rw [filter_eq_nil_iff', forall_prop_of_true rfl]
  have hfiles : (∀ k, ((clearLogsFiltered lower reached fuel args s).dir.records k).filter
      (!meant lower args ·) = (s.dir.records k).filter (!meant lower args ·)) ↔
        ((args.filter lower).IsEmpty → ∀ k, Deleted s.dir k →
          ∀ r ∈ s.dir.records k, meant lower args r) := by
    -- the files are deleted for an empty filter only
    by_cases hempty : (args.filter lower).IsEmpty
    · rw [forall_prop_of_true hempty]
      have hdir : (clearLogsFiltered lower reached fuel args s).dir = s.dir.deleteAll fuel :=
        if_pos hempty
      rw [hdir]
      apply forall_congr'
      intro k
      rcases records_deleteAll hfuel k with ⟨hgone, hkept⟩
      by_cases hdeleted : Deleted s.dir k
      · rw [hgone hdeleted, List.filter_nil, filter_eq_nil_iff', forall_prop_of_true hdeleted]
      · rw [hkept hdeleted]
        exact ⟨fun _ h => absurd h hdeleted, fun _ => rfl⟩
    · have hdir : (clearLogsFiltered lower reached fuel args s).dir = s.dir := if_neg hempty
      rw [hdir]
      exact ⟨fun _ h => absurd h hempty, fun _ _ => rfl⟩
  constructor
  · rintro ⟨hg, hd, hf⟩
    exact ⟨hdaemon.1 hd, hgui.1 hg, hfiles.1 hf⟩
  · rintro ⟨hd, hg, hf⟩
    exact ⟨hgui.2 hg, hdaemon.2 hd, hfiles.2 hf⟩

end Clearing

/-- A record of the daemon, and nothing else. -/
def daemonRecord : LogRecord :=
  LogRecord.new [] .info "home_tier_lib::daemon".toList "started".toList none none

def oneDaemonRecord : LogStores where
  gui := .new 50000
  daemon := { store := [daemonRecord], maxEntries := 50000, seq := 2 }
  dir := fun _ => none

/-- The arguments for all errors. -/
def errorsOnly : ClearArgs where
  level := some "error".toList
  spaceId := none
  module := none
  category := none
  keyword := none

theorem map_toLower_comma (s : Str) (h : ',' ∈ s) : ',' ∈ s.map Char.toLower :=
  List.mem_map.2 ⟨',', h, by decide⟩

def startedRecord : LogRecord :=
  LogRecord.new [] .info "home_tier_lib::app".toList "started".toList none none

def failedRecord : LogRecord :=
  { LogRecord.new [] .error "home_tier_lib::proxy".toList "refused".toList none none with seq := 1 }

/-- An error among the records of the GUI, a record of the daemon, and both in the log file. -/
def someErrors : LogStores where
  gui := { store := [startedRecord, failedRecord], maxEntries := 50000, seq := 2 }
  daemon := { store := [daemonRecord], maxEntries := 50000, seq := 2 }
  dir name := if name = logName none then some (unlines [startedRecord.toText, failedRecord.toText])
    else none

/-- The error of the GUI is cleared; a daemon that is not reached keeps its records. -/
theorem errors_cleared :
    ((OnlyMatches (·.map Char.toLower) errorsOnly someErrors
          (clearLogsFiltered (·.map Char.toLower) false 0 errorsOnly someErrors) ∧
        LeavesRejected (·.map Char.toLower) someErrors.gui {}) ↔
      (Clearable (·.map Char.toLower) false errorsOnly someErrors ∧
        ((LogFilter.IsEmpty {}) → ∀ r ∈ someErrors.gui.store,
          LogFilter.matches (·.map Char.toLower) {} r = true))) ∧
    (clearLogsFiltered (·.map Char.toLower) false 0 errorsOnly someErrors).gui.store =
      [startedRecord] :=
  ⟨clears_matches_iff map_toLower_comma (s := someErrors) rfl false errorsOnly {}, rfl⟩

/-- Clearing the errors of the GUI clears all records of the daemon. -/
theorem daemon_record_removed : ¬ ∀ (reached : Bool) (args : ClearArgs) (s : LogStores)
    (fuel : Nat), s.dir (logName (some fuel)) = none →
      OnlyMatches (·.map Char.toLower) args s
        (clearLogsFiltered (·.map Char.toLower) reached fuel args s) := by
  intro hall
  have h := (hall true errorsOnly oneDaemonRecord 0 rfl).daemon
  have hkept : meant (·.map Char.toLower) errorsOnly daemonRecord = false := by decide
  have hafter : (clearLogsFiltered (·.map Char.toLower) true 0 errorsOnly
      oneDaemonRecord).daemon.store = [] := rfl
  have hbefore : oneDaemonRecord.daemon.store = [daemonRecord] := rfl
  rw [hafter, hbefore, List.filter_nil, List.filter_cons_of_pos (by simp [hkept])] at h
  cases h

end HomeTier
