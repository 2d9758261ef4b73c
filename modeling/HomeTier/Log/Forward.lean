import HomeTier.Lib.Feed
import HomeTier.Daemon.Client
import HomeTier.Log.Record

/-! # Forwarding to the daemon

A record of the GUI goes to the memory backend and then to the forwarding backend
(`Dispatch::write` of `src-tauri/src/log/backend.rs`), which drops it until it has a
sender. The start-up (`app/setup.rs`) takes what is in memory, starts a thread that
installs the sender, waits for the daemon, and sends what was taken and then the
queue. The daemon makes a new record from each (`daemon/mod.rs`).

Records have the number of their `log` call, to tell whether one is stored once.
-/

namespace HomeTier

open Lib

namespace LogForward

/-- A record, with the number of its call if it was written by this process. -/
abbrev Entry := Option Nat × LogRecord

def ids (entries : List Entry) : List Nat := entries.filterMap (·.1)

/-- The start-up, and then the forwarding thread. -/
inductive Thread where
  | setup
  | snapshotted
  | pinging (attempts : Nat)
  | ready
  | caching
  | forwarding
  | gaveUp
deriving DecidableEq, Repr

structure St where
  enabled : Bool
  daemonEnabled : Bool
  daemonReady : Bool
  written : List LogRecord
  /-- Calls before the memory backend, and before the forwarding backend. -/
  unstored : List Nat
  unforwarded : List Nat
  memory : List Entry
  memorySeq : Nat
  installed : Bool
  queue : List Nat
  thread : Thread
  cached : List Entry
  stored : List Entry

inductive Event where
  | log (now : Str) (level : LogLevel) (target message : Str) (spaceId traceId : Option Str)
  | store (id : Nat)
  | forward (id : Nat)
  /-- `set_log_enabled` in the GUI, and its request to the daemon. -/
  | setEnabled (enabled : Bool)
  | setDaemonEnabled (enabled : Bool)
  | daemonReady
  | snapshot
  | initForward
  | ping (answered : Bool)
  | sendEnabled (arrives : Bool)
  /-- The daemon's clock for each record. -/
  | sendCached (arrives : Bool) (clock : Nat → Str)
  | sendNext (arrives : Bool) (now : Str)

/-- `MemoryBackend::new(50000)` -/
def maxEntries : Nat := 50000

/-- A GUI that has restored records of earlier processes. -/
def init (enabled daemonEnabled : Bool) (restored : List LogRecord) (memorySeq : Nat) : St where
  enabled := enabled
  daemonEnabled := daemonEnabled
  daemonReady := false
  written := []
  unstored := []
  unforwarded := []
  memory := evict maxEntries (restored.map fun r => (none, r))
  memorySeq := memorySeq
  installed := false
  queue := []
  thread := .setup
  cached := []
  stored := []

/-! ## The daemon -/

/-- `log::log` for an entry of `WriteLog`; the thread has no trace id. -/
def handle (now : Str) (r : LogRecord) : LogRecord :=
  LogRecord.new now r.level r.target r.message r.spaceId none

/-- The entries one after the other, the first of them being number `k`. -/
def handleAll (clock : Nat → Str) : Nat → List Entry → List Entry
  | _, [] => []
  | k, e :: entries => (e.1, handle (clock k) e.2) :: handleAll clock (k + 1) entries

/-- The JSON of `IpcRequest::WriteLog`. -/
def writeLogText (records : List LogRecord) : Str :=
  "\x7b\"type\":\"WriteLog\",\"entries\":[".toList ++
    Json.joinGroup ']' (records.map (·.toText)) ++ "\x7d".toList

/-- The daemon reads the request. -/
def Fits (entries : List Entry) : Prop :=
  (utf8 (writeLogText (entries.map (·.2)))).length ≤ IpcClient.maxLen

instance (entries : List Entry) : Decidable (Fits entries) := inferInstanceAs (Decidable (_ ≤ _))

/-- A `WriteLog` request. -/
def St.deliver (s : St) (arrives : Bool) (clock : Nat → Str) (entries : List Entry) : St :=
  if arrives ∧ s.daemonReady ∧ s.daemonEnabled ∧ Fits entries then
    { s with stored := s.stored ++ handleAll clock 0 entries }
  else s

/-! ## The steps -/

def step (s : St) : Event → Option St
  | .log now level target message spaceId traceId =>
    some (if s.enabled then
      { s with
        written := s.written ++ [LogRecord.new now level target message spaceId traceId]
        unstored := s.unstored ++ [s.written.length] }
    else s)
  | .store id =>
    if id ∈ s.unstored then
      (s.written[id]?).map fun r =>
        { s with
          unstored := s.unstored.erase id
          unforwarded := s.unforwarded ++ [id]
          memory := evict maxEntries (s.memory ++ [(some id, { r with seq := s.memorySeq })])
          memorySeq := s.memorySeq + 1 }
    else none
  | .forward id =>
    if id ∈ s.unforwarded then
      some { s with
        unforwarded := s.unforwarded.erase id
        -- without a sender, and once the receiver is dropped, the record goes nowhere
        queue := if s.installed ∧ s.thread ≠ .gaveUp then s.queue ++ [id] else s.queue }
    else none
  | .setEnabled enabled => some { s with enabled := enabled }
  | .setDaemonEnabled enabled => some { s with daemonEnabled := enabled }
  | .daemonReady => some { s with daemonReady := true }
  | .snapshot =>
    if s.thread = .setup then some { s with thread := .snapshotted, cached := s.memory } else none
  | .initForward =>
    if s.thread = .snapshotted then some { s with thread := .pinging 0, installed := true }
    else none
  | .ping answered =>
    match s.thread with
    | .pinging attempts =>
      if answered ∧ ¬ s.daemonReady then none
      else
        some { s with
          thread := if answered then .ready
            else if 60 ≤ attempts + 1 then .gaveUp
            else .pinging (attempts + 1) }
    | _ => none
  | .sendEnabled arrives =>
    if s.thread = .ready then
      some { s with
        thread := .caching
        daemonEnabled := if arrives ∧ s.daemonReady then s.enabled else s.daemonEnabled }
    else none
  | .sendCached arrives clock =>
    if s.thread = .caching then
      some { s.deliver arrives clock s.cached with thread := .forwarding }
    else none
  | .sendNext arrives now =>
    match s.thread, s.queue with
    | .forwarding, id :: rest =>
      (s.written[id]?).map fun r =>
        { s.deliver arrives (fun _ => now) [(some id, r)] with queue := rest }
    | _, _ => none

/-! ## What is expected -/

/-- Level, target, message, space and timestamp agree. -/
def SameAs (a b : LogRecord) : Prop :=
  a.level = b.level ∧ a.target = b.target ∧ a.message = b.message ∧ a.spaceId = b.spaceId ∧
    a.timestamp = b.timestamp

instance (a b : LogRecord) : Decidable (SameAs a b) := inferInstanceAs (Decidable (_ ∧ _))

/-- The daemon is up, no call is under way, and the queue is drained. -/
def Drained (s : St) : Prop :=
  s.daemonReady = true ∧ s.unstored = [] ∧ s.unforwarded = [] ∧ s.queue = [] ∧
    (s.thread = .forwarding ∨ s.thread = .gaveUp)

instance (s : St) : Decidable (Drained s) := inferInstanceAs (Decidable (_ ∧ _))

/-- Then the daemon has stored each record once, as it was written. -/
def ExactlyOnce (s : St) : Prop :=
  Drained s → ∀ id (r : LogRecord), s.written[id]? = some r →
    (ids s.stored).count id = 1 ∧ ∀ e ∈ s.stored, e.1 = some id → SameAs e.2 r

/-- The daemon handles a record of this process when its clock shows the timestamp. -/
def OnTime (clock : Nat → Str) : Nat → List Entry → Prop
  | _, [] => True
  | k, e :: entries => (e.1 ≠ none → clock k = e.2.timestamp) ∧ OnTime clock (k + 1) entries

instance decidableOnTime (clock : Nat → Str) : ∀ k entries, Decidable (OnTime clock k entries)
  | _, [] => .isTrue trivial
  | k, _ :: entries => @instDecidableAnd _ _ _ (decidableOnTime clock (k + 1) entries)

/-- The request comes to a daemon that logs, is not too long, and is handled at
the times of the records. -/
def Kept (s : St) (arrives : Bool) (clock : Nat → Str) (entries : List Entry) : Prop :=
  arrives = true ∧ s.daemonReady = true ∧ s.daemonEnabled = true ∧ Fits entries ∧
    OnTime clock 0 entries

instance (s : St) (arrives : Bool) (clock : Nat → Str) (entries : List Entry) :
    Decidable (Kept s arrives clock entries) :=
  inferInstanceAs (Decidable (_ ∧ _))

/-- Before the start-up takes the records, none of this process is pushed out of
memory. A record reaches the forwarding backend after the sender is installed exactly
if it was not taken. A ping is answered before the last one fails, and requests with
records of this process are kept. -/
def Sound (s : St) : Event → Prop
  | .store _ => s.thread = .setup → s.memory.length < maxEntries ∨ (s.memory.head?).any (·.1 = none)
  | .forward id => s.thread ≠ .setup → (s.installed = true ↔ id ∉ ids s.cached)
  | .ping answered =>
    match s.thread with
    | .pinging attempts => answered = true ∨ attempts + 1 < 60
    | _ => True
  | .sendCached arrives clock => ids s.cached ≠ [] → Kept s arrives clock s.cached
  | .sendNext arrives now =>
    ∀ id ∈ s.queue.head?, ∀ r ∈ s.written[id]?, Kept s arrives (fun _ => now) [(some id, r)]
  | _ => True

instance (s : St) (event : Event) : Decidable (Sound s event) := by
  unfold Sound
  split
  all_goals try split
  all_goals infer_instance

/-! ## Entries -/

@[simp] theorem ids_append (a b : List Entry) : ids (a ++ b) = ids a ++ ids b :=
  List.filterMap_append

@[simp] theorem ids_singleton (id : Nat) (r : LogRecord) : ids [(some id, r)] = [id] := rfl

@[simp] theorem ids_handleAll (clock : Nat → Str) (k : Nat) (entries : List Entry) :
    ids (handleAll clock k entries) = ids entries := by
  induction entries generalizing k with
  | nil => rfl
  | cons e entries ih =>
    have hhead : ∀ l : List Entry, ids (e :: l) = e.1.toList ++ ids l := by
      intro l
      cases he : e.1 with
      | none => simp [ids, he]
      | some id => simp [ids, he]
    rw [hhead, ← ih (k + 1), handleAll]
    cases he : e.1 with
    | none => simp [ids]
    | some id => simp [ids]

theorem mem_ids {entries : List Entry} {id : Nat} :
    id ∈ ids entries ↔ ∃ e ∈ entries, e.1 = some id := List.mem_filterMap

/-- What is handled on time keeps everything that is compared. -/
theorem sameAs_handleAll {clock : Nat → Str} {k : Nat} {entries : List Entry}
    (h : OnTime clock k entries) {e : Entry} (he : e ∈ handleAll clock k entries) {id : Nat}
    (hid : e.1 = some id) : ∃ e' ∈ entries, e'.1 = some id ∧ SameAs e.2 e'.2 := by
  induction entries generalizing k with
  | nil => cases he
  | cons e' entries ih =>
    rcases List.mem_cons.1 he with rfl | he
    · have htime : clock k = e'.2.timestamp := h.1 (by rw [hid]; exact Option.some_ne_none id)
      exact ⟨e', List.mem_cons_self, hid, rfl, rfl, rfl, rfl, htime⟩
    · rcases ih h.2 he with ⟨e'', hmem, hid', hsame⟩
      exact ⟨e'', List.mem_cons_of_mem e' hmem, hid', hsame⟩

/-- A record of an earlier process makes room. -/
theorem ids_evict {memory : List Entry} {max : Nat} (e : Entry) (hlen : memory.length ≤ max)
    (h : memory.length < max ∨ (memory.head?).any (·.1 = none) = true) :
    ids (evict max (memory ++ [e])) = ids memory ++ ids [e] := by
  rw [evict_eq_rtake]
  by_cases hroom : memory.length < max
  · have hfits : (memory ++ [e]).length ≤ max := by
      rw [List.length_append, List.length_singleton]
      omega
    rw [rtake_of_length_le hfits, ids_append]
  · have hold := h.resolve_left hroom
    cases memory with
    | nil => simp at hold
    | cons x rest =>
      have hx : x.1 = none := by simpa using hold
      have hmax : max = rest.length + 1 := by
        simp only [List.length_cons] at hlen hroom
        omega
      have hdrop : (x :: rest ++ [e]).rtake max = rest ++ [e] := by
        rw [List.rtake, hmax]
        simp
      rw [hdrop, ids_append]
      simp [ids, hx]

theorem SameAs.trans {a b c : LogRecord} (h : SameAs a b) (h' : SameAs b c) : SameAs a c :=
  ⟨h.1.trans h'.1, h.2.1.trans h'.2.1, h.2.2.1.trans h'.2.2.1, h.2.2.2.1.trans h'.2.2.2.1,
    h.2.2.2.2.trans h'.2.2.2.2⟩

/-! ## The invariant -/

/-- The copies of a record that are stored or on their way. -/
def St.copies (s : St) (id : Nat) : Nat :=
  (if s.thread = .forwarding then 0 else (ids s.cached).count id) + s.queue.count id +
    (ids s.stored).count id

/-- A record that was taken has one copy. -/
def St.Taken (s : St) (id : Nat) : Prop :=
  (ids s.cached).count id = 1 ∧ s.copies id = 1 ∧ s.unstored.count id = 0 ∧ id < s.written.length

/-- Any other is under way in its call, or has one copy. -/
def St.Left (s : St) (id : Nat) : Prop :=
  (ids s.cached).count id = 0 ∧
    s.unstored.count id + s.unforwarded.count id + s.copies id =
      if id < s.written.length then 1 else 0

/-- Until the records are taken they are all in memory. -/
structure Waiting (s : St) : Prop where
  installed : s.installed = false
  cached : s.cached = []
  queue : s.queue = []
  stored : ids s.stored = []
  memory : ∀ id, s.unstored.count id + (ids s.memory).count id =
    if id < s.written.length then 1 else 0
  unforwarded : ∀ id, s.unforwarded.count id ≤ (ids s.memory).count id

/-- An entry of this process is a record that was written. -/
def Faithful (s : St) (entries : List Entry) : Prop :=
  ∀ e ∈ entries, ∀ id, e.1 = some id → ∃ r, s.written[id]? = some r ∧ SameAs e.2 r

structure Inv (s : St) : Prop where
  thread : s.thread ≠ .gaveUp
  bound : s.memory.length ≤ maxEntries
  waiting : s.thread = .setup → Waiting s
  counted : s.thread ≠ .setup → ∀ id, s.Taken id ∨ s.Left id
  memory : Faithful s s.memory
  cached : Faithful s s.cached
  stored : Faithful s s.stored

theorem inv_init (enabled daemonEnabled : Bool) (restored : List LogRecord) (memorySeq : Nat) :
    Inv (init enabled daemonEnabled restored memorySeq) := by
  have hold : ∀ e ∈ evict maxEntries (restored.map fun r => ((none, r) : Entry)), e.1 = none := by
    intro e he
    rcases List.mem_map.1 (mem_evict he) with ⟨r, -, rfl⟩
    rfl
  have hids : ids (evict maxEntries (restored.map fun r => ((none, r) : Entry))) = [] := by
    rw [List.eq_nil_iff_forall_not_mem]
    intro id hid
    rcases mem_ids.1 hid with ⟨e, he, heq⟩
    rw [hold e he] at heq
    cases heq
  constructor
  · simp [init]
  · exact length_evict maxEntries _
  · intro _
    refine ⟨rfl, rfl, rfl, rfl, ?_, ?_⟩
    · intro id
      simp [init, hids]
    · intro id
      simp [init]
  · intro hne
    exact absurd rfl hne
  · intro e he id hid
    rw [hold e he] at hid
    cases hid
  · intro e he
    cases he
  · intro e he
    cases he

variable {s : St}

theorem Faithful.append {a b : List Entry} (ha : Faithful s a) (hb : Faithful s b) :
    Faithful s (a ++ b) := by
  intro e he
  rcases List.mem_append.1 he with he | he
  · exact ha e he
  · exact hb e he

/-- Records that were written stay. -/
theorem Faithful.mono {t : St} {entries : List Entry} (h : Faithful s entries)
    (hwritten : s.written <+: t.written) : Faithful t entries := by
  intro e he id hid
  rcases h e he id hid with ⟨r, hr, hsame⟩
  rcases hwritten with ⟨later, hwritten⟩
  refine ⟨r, ?_, hsame⟩
  rw [← hwritten, List.getElem?_append_left (List.getElem?_eq_some_iff.1 hr).1]
  exact hr

/-- The switches and the daemon's start move no record. -/
theorem Inv.flags (h : Inv s) (enabled daemonEnabled daemonReady : Bool) :
    Inv { s with
      enabled := enabled, daemonEnabled := daemonEnabled, daemonReady := daemonReady } := by
  refine ⟨h.thread, h.bound, ?_, h.counted, h.memory, h.cached, h.stored⟩
  intro hsetup
  have hw := h.waiting hsetup
  exact ⟨hw.installed, hw.cached, hw.queue, hw.stored, hw.memory, hw.unforwarded⟩

theorem inv_log (h : Inv s) (r : LogRecord) :
    Inv { s with written := s.written ++ [r], unstored := s.unstored ++ [s.written.length] } := by
  have hwritten : s.written <+: s.written ++ [r] := List.prefix_append _ _
  -- the new record is counted once, as not stored
  have hcount : ∀ id, (s.unstored ++ [s.written.length]).count id =
      s.unstored.count id + if id = s.written.length then 1 else 0 := by
    intro id
    rw [List.count_append, List.count_singleton]
    by_cases hid : id = s.written.length
    · simp [hid]
    · simp [hid, Ne.symm hid]
  have hlen : ∀ id, (if id < (s.written ++ [r]).length then 1 else 0) =
      (if id < s.written.length then 1 else 0) + if id = s.written.length then 1 else 0 := by
    intro id
    rw [List.length_append, List.length_singleton]
    split_ifs
    all_goals omega
  constructor
  · exact h.thread
  · exact h.bound
  · intro hsetup
    have hw := h.waiting hsetup
    refine ⟨hw.installed, hw.cached, hw.queue, hw.stored, ?_, hw.unforwarded⟩
    intro id
    show (s.unstored ++ [s.written.length]).count id + (ids s.memory).count id = _
    rw [hcount, hlen, ← hw.memory id]
    omega
  · intro hsetup id
    rcases h.counted hsetup id with ⟨hcached, hcopies, hunstored, hid⟩ | ⟨hcached, hsum⟩
    · left
      refine ⟨hcached, hcopies, ?_, ?_⟩
      · show (s.unstored ++ [s.written.length]).count id = 0
        rw [hcount, hunstored, if_neg (by omega)]
      · show id < (s.written ++ [r]).length
        rw [List.length_append]
        omega
    · right
      refine ⟨hcached, ?_⟩
      show (s.unstored ++ [s.written.length]).count id + s.unforwarded.count id + s.copies id = _
      rw [hcount, hlen, ← hsum]
      omega
  · exact h.memory.mono hwritten
  · exact h.cached.mono hwritten
  · exact h.stored.mono hwritten

/-- A call that moves on. -/
theorem count_erase_add {id n : Nat} {l : List Nat} (h : n ∈ l) :
    (l.erase n).count id + (if id = n then 1 else 0) = l.count id := by
  by_cases hid : id = n
  · subst hid
    rw [if_pos rfl, List.count_erase_self]
    have hpos := List.count_pos_iff.2 h
    omega
  · rw [if_neg hid, List.count_erase_of_ne hid, Nat.add_zero]

theorem count_concat (id n : Nat) (l : List Nat) :
    (l ++ [n]).count id = l.count id + if id = n then 1 else 0 := by
  rw [List.count_append, List.count_singleton]
  by_cases hid : id = n
  · simp [hid]
  · simp [hid, Ne.symm hid]

theorem inv_store (h : Inv s) {n : Nat} (hn : n ∈ s.unstored) {r : LogRecord}
    (hr : s.written[n]? = some r) (hsound : Sound s (.store n)) :
    Inv { s with
      unstored := s.unstored.erase n
      unforwarded := s.unforwarded ++ [n]
      memory := evict maxEntries (s.memory ++ [(some n, { r with seq := s.memorySeq })])
      memorySeq := s.memorySeq + 1 } := by
  constructor
  · exact h.thread
  · exact length_evict maxEntries _
  · intro hsetup
    have hw := h.waiting hsetup
    have hids : ids (evict maxEntries (s.memory ++ [(some n, { r with seq := s.memorySeq })])) =
        ids s.memory ++ [n] := ids_evict _ h.bound (hsound hsetup)
    refine ⟨hw.installed, hw.cached, hw.queue, hw.stored, ?_, ?_⟩
    · intro id
      show (s.unstored.erase n).count id + (ids (evict maxEntries _)).count id = _
      rw [hids, count_concat, ← hw.memory id, ← @count_erase_add id _ _ hn]
      omega
    · intro id
      show (s.unforwarded ++ [n]).count id ≤ (ids (evict maxEntries _)).count id
      rw [hids, count_concat, count_concat]
      have hle := hw.unforwarded id
      omega
  · intro hsetup id
    -- the record moves from one list to the next: the sum is the same
    have herase := @count_erase_add id _ _ hn
    rcases h.counted hsetup id with ⟨hcached, hcopies, hunstored, hid⟩ | ⟨hcached, hsum⟩
    · left
      refine ⟨hcached, hcopies, ?_, hid⟩
      show (s.unstored.erase n).count id = 0
      omega
    · right
      refine ⟨hcached, ?_⟩
      show (s.unstored.erase n).count id + (s.unforwarded ++ [n]).count id + s.copies id = _
      rw [count_concat, ← hsum]
      omega
  · intro e he id hid
    rcases List.mem_append.1 (mem_evict he) with hmem | hmem
    · exact h.memory e hmem id hid
    · obtain rfl := List.mem_singleton.1 hmem
      injection hid with hid
      subst hid
      exact ⟨r, hr, rfl, rfl, rfl, rfl, rfl⟩
  · exact h.cached
  · exact h.stored

theorem inv_forward (h : Inv s) {n : Nat} (hn : n ∈ s.unforwarded)
    (hsound : Sound s (.forward n)) :
    Inv { s with
      unforwarded := s.unforwarded.erase n
      queue := if s.installed ∧ s.thread ≠ .gaveUp then s.queue ++ [n] else s.queue } := by
  constructor
  · exact h.thread
  · exact h.bound
  · intro hsetup
    have hw := h.waiting hsetup
    refine ⟨hw.installed, hw.cached, ?_, hw.stored, hw.memory, ?_⟩
    · show (if s.installed = true ∧ s.thread ≠ .gaveUp then s.queue ++ [n] else s.queue) = []
      rw [if_neg (by simp [hw.installed]), hw.queue]
    · intro id
      have herase := @count_erase_add id _ _ hn
      have hle := hw.unforwarded id
      show (s.unforwarded.erase n).count id ≤ (ids s.memory).count id
      omega
  · intro hsetup id
    have herase := @count_erase_add id _ _ hn
    have hiff : s.installed = true ↔ n ∉ ids s.cached := hsound hsetup
    by_cases hinstalled : s.installed = true
    · -- into the queue, and not among the records that were taken
      have hcond : s.installed = true ∧ s.thread ≠ .gaveUp := ⟨hinstalled, h.thread⟩
      have hnot : (ids s.cached).count n = 0 := List.count_eq_zero.2 (hiff.1 hinstalled)
      rw [if_pos hcond]
      have hcopies : ∀ t : St, t = { s with
          unforwarded := s.unforwarded.erase n
          queue := s.queue ++ [n] } → t.copies id = s.copies id + if id = n then 1 else 0 := by
        rintro t rfl
        simp only [St.copies, count_concat]
        omega
      rcases h.counted hsetup id with ⟨hcached, hone, hunstored, hid⟩ | ⟨hcached, hsum⟩
      · left
        have hne : id ≠ n := by
          rintro rfl
          omega
        refine ⟨hcached, ?_, hunstored, hid⟩
        rw [hcopies _ rfl, if_neg hne, hone]
      · right
        refine ⟨hcached, ?_⟩
        rw [hcopies _ rfl]
        show s.unstored.count id + (s.unforwarded.erase n).count id + _ = _
        rw [← hsum]
        omega
    · -- dropped: the record was taken
      have hcond : ¬ (s.installed = true ∧ s.thread ≠ .gaveUp) := by
        intro hboth
        exact hinstalled hboth.1
      have htaken : n ∈ ids s.cached := by
        by_contra hnot
        exact hinstalled (hiff.2 hnot)
      have hpos := List.count_pos_iff.2 htaken
      rw [if_neg hcond]
      rcases h.counted hsetup id with htakenId | ⟨hcached, hsum⟩
      · exact Or.inl htakenId
      · right
        have hne : id ≠ n := by
          rintro rfl
          omega
        refine ⟨hcached, ?_⟩
        rw [if_neg hne] at herase
        show s.unstored.count id + (s.unforwarded.erase n).count id + s.copies id = _
        rw [← hsum]
        omega
  · exact h.memory
  · exact h.cached
  · exact h.stored

theorem inv_snapshot (h : Inv s) (hsetup : s.thread = .setup) :
    Inv { s with thread := .snapshotted, cached := s.memory } := by
  have hw := h.waiting hsetup
  constructor
  · simp
  · exact h.bound
  · intro hne
    cases hne
  · intro _ id
    have hmemory := hw.memory id
    have hunforwarded := hw.unforwarded id
    have hcopies : ∀ t : St, t = { s with thread := .snapshotted, cached := s.memory } →
        t.copies id = (ids s.memory).count id := by
      rintro t rfl
      simp [St.copies, hw.queue, hw.stored]
    by_cases hzero : (ids s.memory).count id = 0
    · right
      refine ⟨hzero, ?_⟩
      rw [hcopies _ rfl, hzero]
      rw [hzero] at hmemory hunforwarded
      show s.unstored.count id + s.unforwarded.count id + 0 = if id < s.written.length then 1 else 0
      omega
    · left
      have hid : id < s.written.length := by
        by_contra hnot
        rw [if_neg hnot] at hmemory
        omega
      rw [if_pos hid] at hmemory
      refine ⟨?_, ?_, ?_, hid⟩
      · show (ids s.memory).count id = 1
        omega
      · rw [hcopies _ rfl]
        omega
      · show s.unstored.count id = 0
        omega
  · exact h.memory
  · exact h.memory
  · exact h.stored

/-- A step of the thread that moves no record. -/
theorem inv_thread (h : Inv s) {thread : Thread} (installed daemonEnabled : Bool)
    (hbefore : s.thread ≠ .setup) (hold : s.thread ≠ .forwarding) (hsetup : thread ≠ .setup)
    (hforwarding : thread ≠ .forwarding) (hgaveUp : thread ≠ .gaveUp) :
    Inv { s with thread := thread, installed := installed, daemonEnabled := daemonEnabled } := by
  refine ⟨hgaveUp, h.bound, fun hne => absurd hne hsetup, ?_, h.memory, h.cached, h.stored⟩
  intro _ id
  have hcopies : ∀ t : St, t = { s with
      thread := thread, installed := installed, daemonEnabled := daemonEnabled } →
      t.copies id = s.copies id := by
    rintro t rfl
    simp only [St.copies, if_neg hold, if_neg hforwarding]
  rcases h.counted hbefore id with ⟨hcached, hone, hunstored, hid⟩ | ⟨hcached, hsum⟩
  · left
    exact ⟨hcached, (hcopies _ rfl).trans hone, hunstored, hid⟩
  · right
    refine ⟨hcached, ?_⟩
    rw [hcopies _ rfl]
    exact hsum

theorem deliver_kept {arrives : Bool} {clock : Nat → Str} {entries : List Entry}
    (h : Kept s arrives clock entries) :
    s.deliver arrives clock entries = { s with stored := s.stored ++ handleAll clock 0 entries } :=
  if_pos ⟨h.1, h.2.1, h.2.2.1, h.2.2.2.1⟩

theorem inv_sendCached (h : Inv s) {arrives : Bool} {clock : Nat → Str}
    (hthread : s.thread = .caching) (hsound : Sound s (.sendCached arrives clock)) :
    Inv { s.deliver arrives clock s.cached with thread := .forwarding } := by
  have hsetup : s.thread ≠ .setup := by simp [hthread]
  -- with or without the new entries, each record is where it was or stored
  have hmoved : ∀ stored : List Entry, Faithful s stored →
      (∀ id, (ids stored).count id = (ids s.stored).count id + (ids s.cached).count id) →
        Inv { s with stored := stored, thread := .forwarding } := by
    intro stored hfaithful hcount
    refine ⟨by simp, h.bound, (fun hne => by cases hne), ?_, h.memory, h.cached, hfaithful⟩
    intro _ id
    have hcopies : ∀ t : St, t = { s with stored := stored, thread := .forwarding } →
        t.copies id = s.copies id := by
      rintro t rfl
      simp only [St.copies, hthread, if_true, hcount]
      rw [if_neg (by simp)]
      omega
    rcases h.counted hsetup id with ⟨hcached, hone, hunstored, hid⟩ | ⟨hcached, hsum⟩
    · exact Or.inl ⟨hcached, (hcopies _ rfl).trans hone, hunstored, hid⟩
    · right
      refine ⟨hcached, ?_⟩
      rw [hcopies _ rfl]
      exact hsum
  by_cases hown : ids s.cached = []
  · -- nothing of this process was taken
    unfold St.deliver
    split
    · apply hmoved
      · apply h.stored.append
        intro e he id hid
        have hmem : id ∈ ids (handleAll clock 0 s.cached) := mem_ids.2 ⟨e, he, hid⟩
        rw [ids_handleAll, hown] at hmem
        cases hmem
      · intro id
        rw [ids_append, ids_handleAll, List.count_append]
    · apply hmoved s.stored h.stored
      intro id
      rw [hown, List.count_nil, Nat.add_zero]
  · have hkept := hsound hown
    rw [deliver_kept hkept]
    apply hmoved
    · apply h.stored.append
      intro e he id hid
      rcases sameAs_handleAll hkept.2.2.2.2 he hid with ⟨e', he', hid', hsame⟩
      rcases h.cached e' he' id hid' with ⟨r, hr, hsame'⟩
      exact ⟨r, hr, hsame.trans hsame'⟩
    · intro id
      rw [ids_append, ids_handleAll, List.count_append]

theorem inv_sendNext (h : Inv s) {arrives : Bool} {now : Str} {n : Nat} {rest : List Nat}
    {r : LogRecord} (hthread : s.thread = .forwarding) (hqueue : s.queue = n :: rest)
    (hr : s.written[n]? = some r) (hkept : Kept s arrives (fun _ => now) [(some n, r)]) :
    Inv { s.deliver arrives (fun _ => now) [(some n, r)] with queue := rest } := by
  have hsetup : s.thread ≠ .setup := by simp [hthread]
  rw [deliver_kept hkept]
  refine ⟨h.thread, h.bound, fun hne => absurd hne hsetup, ?_, h.memory, h.cached, ?_⟩
  · intro _ id
    have hcopies : ∀ t : St, t = { s with
        stored := s.stored ++ handleAll (fun _ => now) 0 [(some n, r)]
        queue := rest } → t.copies id = s.copies id := by
      rintro t rfl
      simp only [St.copies, hthread, if_true, hqueue, ids_append, ids_handleAll, ids_singleton,
        List.count_append, List.count_cons, List.count_nil]
      omega
    rcases h.counted hsetup id with ⟨hcached, hone, hunstored, hid⟩ | ⟨hcached, hsum⟩
    · exact Or.inl ⟨hcached, (hcopies _ rfl).trans hone, hunstored, hid⟩
    · right
      refine ⟨hcached, ?_⟩
      rw [hcopies _ rfl]
      exact hsum
  · apply h.stored.append
    intro e he id hid
    rcases sameAs_handleAll hkept.2.2.2.2 he hid with ⟨e', he', hid', hsame⟩
    obtain rfl := List.mem_singleton.1 he'
    injection hid' with hid'
    subst hid'
    exact ⟨r, hr, hsame⟩

/-- One step. -/
theorem inv_step {event : Event} {t : St} (h : Inv s) (hsound : Sound s event)
    (hstep : step s event = some t) : Inv t := by
  cases event with
  | log now level target message spaceId traceId =>
    injection hstep with hstep
    subst hstep
    split
    · exact inv_log h _
    · exact h
  | store n =>
    simp only [step] at hstep
    split at hstep
    · rename_i hn
      rcases Option.map_eq_some_iff.1 hstep with ⟨r, hr, rfl⟩
      exact inv_store h hn hr hsound
    · cases hstep
  | forward n =>
    simp only [step] at hstep
    split at hstep
    · rename_i hn
      injection hstep with hstep
      subst hstep
      exact inv_forward h hn hsound
    · cases hstep
  | setEnabled | setDaemonEnabled | daemonReady =>
    injection hstep with hstep
    subst hstep
    exact h.flags _ _ _
  | snapshot =>
    simp only [step] at hstep
    split at hstep
    · rename_i hsetup
      injection hstep with hstep
      subst hstep
      exact inv_snapshot h hsetup
    · cases hstep
  | initForward =>
    simp only [step] at hstep
    split at hstep
    · rename_i hthread
      injection hstep with hstep
      subst hstep
      exact inv_thread h true s.daemonEnabled (by simp [hthread]) (by simp [hthread]) (by simp)
        (by simp) (by simp)
    · cases hstep
  | ping answered =>
    cases hthread : s.thread with
    | pinging attempts =>
      simp only [step, hthread] at hstep
      simp only [Sound, hthread] at hsound
      split at hstep
      · cases hstep
      · injection hstep with hstep
        subst hstep
        -- the sixtieth ping is answered, so the thread never gives up
        have hnext : (if answered = true then Thread.ready
            else if 60 ≤ attempts + 1 then .gaveUp else .pinging (attempts + 1)) = .ready ∨
            (if answered = true then Thread.ready
            else if 60 ≤ attempts + 1 then .gaveUp else .pinging (attempts + 1)) =
              .pinging (attempts + 1) := by
          by_cases hanswered : answered = true
          · exact Or.inl (if_pos hanswered)
          · right
            rw [if_neg hanswered, if_neg (by have := hsound.resolve_left hanswered; omega)]
        rcases hnext with hnext | hnext
        · rw [hnext]
          exact inv_thread h s.installed s.daemonEnabled (by simp [hthread]) (by simp [hthread])
            (by simp) (by simp) (by simp)
        · rw [hnext]
          exact inv_thread h s.installed s.daemonEnabled (by simp [hthread]) (by simp [hthread])
            (by simp) (by simp) (by simp)
    | _ => simp [step, hthread] at hstep
  | sendEnabled arrives =>
    simp only [step] at hstep
    split at hstep
    · rename_i hthread
      injection hstep with hstep
      subst hstep
      exact inv_thread h s.installed _ (by simp [hthread]) (by simp [hthread]) (by simp)
        (by simp) (by simp)
    · cases hstep
  | sendCached arrives clock =>
    simp only [step] at hstep
    split at hstep
    · rename_i hthread
      injection hstep with hstep
      subst hstep
      exact inv_sendCached h hthread hsound
    · cases hstep
  | sendNext arrives now =>
    simp only [step] at hstep
    split at hstep
    · rename_i n rest hthread hqueue
      rcases Option.map_eq_some_iff.1 hstep with ⟨r, hr, rfl⟩
      exact inv_sendNext h hthread hqueue hr (hsound n (by simp [hqueue]) r hr)
    · cases hstep

theorem Inv.exactlyOnce (h : Inv s) : ExactlyOnce s := by
  rintro ⟨-, hunstored, hunforwarded, hqueue, hthread⟩ id r hr
  have hforwarding : s.thread = .forwarding := hthread.resolve_right h.thread
  have hsetup : s.thread ≠ .setup := by simp [hforwarding]
  have hid : id < s.written.length := (List.getElem?_eq_some_iff.1 hr).1
  have hcopies : s.copies id = (ids s.stored).count id := by
    simp [St.copies, hforwarding, hqueue]
  constructor
  · rcases h.counted hsetup id with ⟨-, hone, -, -⟩ | ⟨-, hsum⟩
    · rw [← hcopies, hone]
    · rw [hunstored, hunforwarded, if_pos hid, hcopies] at hsum
      simpa using hsum
  · intro e he heq
    rcases h.stored e he id heq with ⟨r', hr', hsame⟩
    rw [hr, Option.some.injEq] at hr'
    rw [hr']
    exact hsame

/-- Along sound runs the daemon has each record of the GUI once. -/
theorem forwarded_once (enabled daemonEnabled : Bool) (restored : List LogRecord)
    (memorySeq : Nat) {events : List Event}
    (h : Along step Sound (init enabled daemonEnabled restored memorySeq) events) :
    Always step ExactlyOnce (init enabled daemonEnabled restored memorySeq) events := by
  apply always_of_along (P := Sound) (I := Inv)
  · intro s hs
    exact hs.exactlyOnce
  · intro s event t hs hsound hstep
    exact inv_step hs hsound hstep
  · exact inv_init enabled daemonEnabled restored memorySeq
  · exact h

/-- A record before the start-up takes the records and one after it has installed the
sender. -/
theorem forwarded_once_example :
    Always step ExactlyOnce (init true true [] 1)
      [.log "t0".toList .info "gui".toList "a".toList none none, .store 0, .forward 0, .snapshot,
        .initForward, .ping false, .log "t1".toList .error "gui".toList "b".toList none none,
        .store 1, .daemonReady, .ping true, .sendEnabled true,
        .sendCached true (fun _ => "t0".toList), .forward 1, .sendNext true "t1".toList] :=
  forwarded_once true true [] 1 (by decide +kernel)

/-- A record between the taking and the sender is dropped. -/
theorem record_in_gap :
    ¬ Always step ExactlyOnce (init true true [] 1)
      [.snapshot, .log "t0".toList .info "gui".toList "a".toList none none, .store 0, .forward 0,
        .initForward, .daemonReady, .ping true, .sendEnabled true,
        .sendCached true (fun _ => [])] := by
  apply not_always_of_run (Q := fun s =>
    Drained s → ∀ id ∈ List.range s.written.length, (ids s.stored).count id = 1)
  · intro s hs hdrained id hid
    have hlt := List.mem_range.1 hid
    exact (hs hdrained id _ (List.getElem?_eq_getElem hlt)).1
  · decide

end LogForward

end HomeTier
