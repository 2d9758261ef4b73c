import Mathlib.Data.List.Sort
import HomeTier.Lib.Feed
import HomeTier.Lib.Trace
import HomeTier.Log.Record

/-! # The memory backend and its readers

`MemoryBackend` of `src-tauri/src/log/backend.rs` keeps the last records. A
write takes a number with `fetch_add` and appends the record under the lock of
the store in a second step; `restore` appends records that have their numbers
and sets the counter afterwards. A reader asks for the records above the largest
number it has seen.

Numbers and places are given out at different times, so the store is in order,
and the reader gets what is new to it, in the runs in which every record comes
to the store above those that are there and above what the reader has seen
(`sound_iff_inOrder`).
-/

namespace HomeTier

open Lib

structure MemoryBackend where
  store : List LogRecord
  maxEntries : Nat
  /-- An `AtomicU64` in the source: the same below 2 ^ 64 writes, after which it would start
  again at 0. -/
  seq : Nat
deriving DecidableEq, Repr

/-- `sort_by_key(|r| r.seq)` -/
def sortBySeq (records : List LogRecord) : List LogRecord :=
  records.insertionSort fun a b => a.seq ≤ b.seq

namespace MemoryBackend

def new (maxEntries : Nat) : MemoryBackend where
  store := []
  maxEntries := maxEntries
  seq := 1

def getAll (m : MemoryBackend) (levelFilter : Option LogLevel) : List LogRecord :=
  match levelFilter with
  | some lv => m.store.filter (·.level = lv)
  | none => m.store

def getBySpace (m : MemoryBackend) (spaceId : Str) (levelFilter : Option LogLevel) :
    List LogRecord :=
  (m.store.filter (·.spaceId = some spaceId)).filter fun e => levelFilter.all (e.level = ·)

def query (lower : Str → Str) (m : MemoryBackend) (filter : LogFilter) : List LogRecord :=
  let result := m.store.filter (filter.matches lower)
  match filter.limit with
  | some limit => result.take limit
  | none => result

/-! ## Writers -/

/-- The first step of `write`: the clone gets the next number. -/
def number (m : MemoryBackend) (record : LogRecord) : MemoryBackend × LogRecord :=
  ({ m with seq := m.seq + 1 }, { record with seq := m.seq })

/-- The second step of `write`, under the lock. -/
def append (m : MemoryBackend) (entry : LogRecord) : MemoryBackend :=
  { m with store := evict m.maxEntries (m.store ++ [entry]) }

def write (m : MemoryBackend) (record : LogRecord) : MemoryBackend :=
  (m.number record).1.append (m.number record).2

/-- The step of `restore` under the lock. -/
def inject (m : MemoryBackend) (records : List LogRecord) : MemoryBackend :=
  { m with store := pushAll m.maxEntries m.store (sortBySeq records) }

/-- The largest number, 0 if there is none. -/
def maxSeq (records : List LogRecord) : Nat :=
  ((sortBySeq records).getLast?.map (·.seq)).getD 0

/-- The last step of `restore`. -/
def resume (m : MemoryBackend) (maxSeq : Nat) : MemoryBackend := { m with seq := maxSeq + 1 }

def restore (m : MemoryBackend) (records : List LogRecord) : MemoryBackend :=
  if records = [] then m else (m.inject records).resume (maxSeq records)

end MemoryBackend

/-! ## Readers -/

/-- What a reader sends that has seen `last`. -/
def LogFilter.since (last : Option Nat) : LogFilter := { sinceSeq := last }

/-- `parse_level` -/
def parseLevel (lower : Str → Str) (level : Str) : Option LogLevel :=
  if lower level = "debug".toList then some .debug
  else if lower level = "info".toList then some .info
  else if lower level = "warning".toList then some .warning
  else if lower level = "error".toList then some .error
  else none

/-- `IpcRequest::GetLogs` -/
def getLogs (lower : Str → Str) (m : MemoryBackend) (level : Option Str) (sinceSeq : Option Nat)
    (spaceId : Option Str) : List LogRecord :=
  let levelFilter := level.bind (parseLevel lower)
  let logs := match spaceId with
    | some sid => m.getBySpace sid levelFilter
    | none => m.getAll levelFilter
  match sinceSeq with
  | some s => logs.filter (s < ·.seq)
  | none => logs

namespace MemoryBackend

variable (lower : Str → Str) (m : MemoryBackend)

theorem matches_since (last : Option Nat) (r : LogRecord) :
    (LogFilter.since last).matches lower r = decide (Above LogRecord.seq last r) := by
  cases last with
  | none => simp [LogFilter.matches, LogFilter.since, Above]
  | some l => simp [LogFilter.matches, LogFilter.since, Above]

theorem query_since (last : Option Nat) :
    m.query lower (.since last) = m.store.filter (Above LogRecord.seq last ·) := by
  show m.store.filter ((LogFilter.since last).matches lower) = _
  exact congrArg (m.store.filter ·) (funext (matches_since lower last))

theorem getAll_eq (levelFilter : Option LogLevel) :
    m.getAll levelFilter = m.store.filter fun e => levelFilter.all (e.level = ·) := by
  cases levelFilter with
  | none => simp [getAll]
  | some lv => simp [getAll]

end MemoryBackend

/-! ## Runs -/

/-- The backend, what its writers still have to do, and one reader. -/
structure Polling where
  backend : MemoryBackend
  /-- Records that have their number and are not in the store yet. -/
  inFlight : List LogRecord
  /-- Numbers that a `restore` still has to count on from. -/
  resuming : List Nat
  /-- The largest number the reader has seen. -/
  last : Option Nat
  /-- How many records came to the store since the reader asked. -/
  fresh : Nat

namespace Polling

inductive Event where
  | number (record : LogRecord)
  | append (i : Nat)
  | inject (records : List LogRecord)
  | resume (i : Nat)
  | poll

def start (maxEntries : Nat) : Polling where
  backend := .new maxEntries
  inFlight := []
  resuming := []
  last := none
  fresh := 0

variable (lower : Str → Str)

/-- Any writer, a `restore` or the reader takes its next step. -/
def step (s : Polling) : Event → Option Polling
  | .number record => some { s with
      backend := (s.backend.number record).1
      inFlight := s.inFlight ++ [(s.backend.number record).2] }
  | .append i => s.inFlight[i]?.map fun entry => { s with
      backend := s.backend.append entry
      inFlight := s.inFlight.eraseIdx i
      fresh := s.fresh + 1 }
  | .inject records =>
    if records = [] then some s
    else some { s with
      backend := s.backend.inject records
      resuming := s.resuming ++ [MemoryBackend.maxSeq records]
      fresh := s.fresh + records.length }
  | .resume i => s.resuming[i]?.map fun maxSeq => { s with
      backend := s.backend.resume maxSeq
      resuming := s.resuming.eraseIdx i }
  | .poll => some { s with
      last := seen LogRecord.seq s.last (s.backend.query lower (.since s.last))
      fresh := 0 }

/-- The numbers in the store increase, and a reader that asks now gets what came
to the store since it asked last and is still there. -/
def Sound (s : Polling) : Prop :=
  s.backend.store.Pairwise (·.seq < ·.seq) ∧
    s.backend.query lower (.since s.last) = s.backend.store.rtake s.fresh

/-- What a step adds to the store. -/
def added (s : Polling) : Event → List LogRecord
  | .append i => s.inFlight[i]?.toList
  | .inject records => sortBySeq records
  | _ => []

/-- What is added, as far as it stays, is in order: among itself, above the
records that stay with it, and above what the reader has seen. -/
def InOrder (s : Polling) (e : Event) : Prop :=
  Ordered LogRecord.seq s.last
    (s.backend.store.rtake (s.backend.maxEntries - (s.added e).length))
    ((s.added e).rtake s.backend.maxEntries)

variable {lower}

theorem sound_iff_inStep {s : Polling} :
    s.Sound lower ↔ InStep LogRecord.seq s.last s.fresh s.backend.store := by
  rw [Sound, MemoryBackend.query_since]
  constructor
  · rintro ⟨hinc, hans⟩
    exact ⟨hinc, hans⟩
  · rintro ⟨hinc, hans⟩
    exact ⟨hinc, hans⟩

theorem inOrder_of_added_nil {s : Polling} {e : Event} (h : s.added e = []) : s.InOrder e := by
  rw [InOrder, h, List.rtake_nil]
  exact ⟨List.Pairwise.nil, by simp, by simp⟩

/-- A step is a poll, or it adds to the store and leaves the reader alone. -/
theorem step_cases {s s' : Polling} {e : Event} (h : s.step lower e = some s') :
    s'.backend.maxEntries = s.backend.maxEntries ∧
    ((s.added e = [] ∧ s'.backend.store = s.backend.store ∧ s'.fresh = 0 ∧
        s'.last = seen LogRecord.seq s.last (s.backend.query lower (.since s.last))) ∨
      (s'.backend.store = pushAll s.backend.maxEntries s.backend.store (s.added e) ∧
        s'.fresh = s.fresh + (s.added e).length ∧ s'.last = s.last)) := by
  cases e with
  | number record =>
    cases h
    exact ⟨rfl, Or.inr ⟨rfl, rfl, rfl⟩⟩
  | append i =>
    rcases Option.map_eq_some_iff.1 h with ⟨entry, hentry, rfl⟩
    have hadded : s.added (.append i) = [entry] := by rw [added, hentry]; rfl
    rw [hadded]
    exact ⟨rfl, Or.inr ⟨rfl, rfl, rfl⟩⟩
  | inject records =>
    rw [step] at h
    split at h
    · next hnil =>
      subst hnil
      cases h
      exact ⟨rfl, Or.inr ⟨rfl, rfl, rfl⟩⟩
    · cases h
      have hlength : (sortBySeq records).length = records.length :=
        List.length_insertionSort _ _
      exact ⟨rfl, Or.inr ⟨rfl, congrArg (s.fresh + ·) hlength.symm, rfl⟩⟩
  | resume i =>
    rcases Option.map_eq_some_iff.1 h with ⟨maxSeq, -, rfl⟩
    exact ⟨rfl, Or.inr ⟨rfl, rfl, rfl⟩⟩
  | poll =>
    cases h
    exact ⟨rfl, Or.inl ⟨rfl, rfl, rfl, rfl⟩⟩

/-- The store is never longer than it may be. -/
def Bounded (s : Polling) : Prop := s.backend.store.length ≤ s.backend.maxEntries

theorem bounded_step {s s' : Polling} {e : Event} (hs : s.Bounded) (h : s.step lower e = some s') :
    s'.Bounded := by
  rcases step_cases h with ⟨hmax, ⟨-, hstore, -, -⟩ | ⟨hstore, -, -⟩⟩
  · rwa [Bounded, hstore, hmax]
  · rw [Bounded, hstore, hmax, pushAll_eq_rtake hs, length_rtake]
    exact Nat.min_le_left _ _

/-- A step keeps the reader in step exactly when it adds in order. -/
theorem sound_step_iff {s s' : Polling} {e : Event} (hs : s.Bounded) (hsound : s.Sound lower)
    (h : s.step lower e = some s') : s'.Sound lower ↔ s.InOrder e := by
  rw [sound_iff_inStep] at hsound ⊢
  rcases step_cases h with ⟨-, ⟨hadded, hstore, hfresh, hlast⟩ | ⟨hstore, hfresh, hlast⟩⟩
  · -- a poll adds nothing
    rw [hstore, hfresh, hlast, MemoryBackend.query_since]
    exact ⟨fun _ => inOrder_of_added_nil hadded, fun _ => hsound.poll⟩
  · rw [hstore, hfresh, hlast, pushAll_eq_rtake hs]
    exact inStep_append_iff hsound _ _

theorem always_sound_iff {s : Polling} (hs : s.Bounded) (hsound : s.Sound lower)
    (events : List Event) :
    Always (step lower) (Sound lower) s events ↔ Along (step lower) InOrder s events := by
  apply always_iff_along (J := Bounded)
  · intro s e s' hs hstep
    exact bounded_step hs hstep
  · intro s e s' hs hsound hstep
    exact sound_step_iff hs hsound hstep
  · exact hs
  · exact hsound

theorem bounded_start (maxEntries : Nat) : (start maxEntries).Bounded := Nat.zero_le _

theorem sound_start (maxEntries : Nat) : (start maxEntries).Sound lower :=
  ⟨List.Pairwise.nil, rfl⟩

/-- The store is in order and no record is lost or read twice, in a run whose
records come to the store in order, and in no other. -/
theorem sound_iff_inOrder (lower : Str → Str) (maxEntries : Nat) (events : List Event) :
    Always (step lower) (Sound lower) (start maxEntries) events ↔
      Along (step lower) InOrder (start maxEntries) events :=
  always_sound_iff (bounded_start maxEntries) (sound_start maxEntries) events

/-- The second of two writers is faster, and the reader asks in between. -/
def overtaken : List Event :=
  let record := LogRecord.new [] .info "easytier".toList "up".toList none none
  [.number record, .number record, .append 1, .poll, .append 0]

/-- The record with the smaller number is never read. -/
theorem overtaken_unsound : ¬ Always (step id) (Sound id) (start 50000) overtaken := by
  intro h
  have hsound := always_run h (rfl : run (step id) (start 50000) overtaken = some _)
  have hlength := congrArg List.length hsound.2
  revert hlength
  decide

end Polling

end HomeTier
