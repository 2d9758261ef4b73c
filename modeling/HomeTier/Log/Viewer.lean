import Mathlib.Data.List.Sort
import HomeTier.Lib.Trace
import HomeTier.Log.ClearFiltered

/-! # The log viewer

`LogViewer.tsx` on the store of the GUI. A fetch asks for the records above the largest
number the viewer has seen, with a filter made of the selection, and puts the answer in
front of its list; what is shown of the list is filtered once more. A new selection
empties the list and starts a fetch, but a fetch that is under way keeps it from
starting, and the answer of that one then counts for the new selection.

The rows are right after each completed fetch along the runs in which no answer with
records comes for a selection that was given up, and in which the filter of the request
takes what the selection wants: not more than one module, a keyword that is not in the
module only, and times that compare as texts as they do as times, where no record comes
back into the range and no row has left it (`viewer_consistent`).
-/

namespace HomeTier

open Lib

namespace LogViewer

inductive TimeRange where
  | all
  | hours (h : Nat)
  | custom (after before : Option Nat)

/-- What is selected; an empty keyword or list selects everything. -/
structure Selection where
  spaceId : Option Str
  level : Option LogLevel
  categories : List LogCategory
  modules : List Str
  keyword : Str
  timeRange : TimeRange

/-- A fetch that is under way. -/
structure Fetch where
  filter : LogFilter
  /-- `Date.now()` when it was issued. -/
  now : Nat
  /-- The selection has not been touched since. -/
  current : Bool
  /-- The store when the backend answered. -/
  store : Option (List LogRecord)

structure State where
  backend : MemoryBackend
  selection : Selection
  logs : List LogRecord
  lastSeq : Nat
  fetching : Option Fetch
  /-- The store and the time of the last fetch that completed under the selection. -/
  last : Option (List LogRecord × Nat)

inductive Act where
  /-- A change of the selection, at some time, and the effect that it runs. -/
  | select (selection : Selection) (now : Nat)
  | tick (now : Nat)
  | write (record : LogRecord)
  | answer
  | complete
  | fail

section Viewer

-- `toLowerCase`, `toISOString` and the time that a time stamp means.
variable (lower : Str → Str) (iso : Nat → Str) (instant : Str → Nat)

/-- `computeTimeFilter`: the bounds before and after which a record is out. -/
def timeBounds (now : Nat) : TimeRange → Option Nat × Option Nat
  | .all => (none, none)
  | .hours h => (some (now - h * 3600000), none)
  | .custom after before => (after, before)

def givenText (text : Str) : Option Str := if text = [] then none else some text

def joined (texts : List Str) : Option Str :=
  if texts = [] then none else some (List.intercalate [','] texts)

/-- The filter that `fetchLogs` sends, as `query_logs` reads it. -/
def request (sel : Selection) (lastSeq now : Nat) : LogFilter where
  level := (sel.level.map (·.name)).bind (parseLevel lower)
  spaceId := sel.spaceId.bind givenText
  module := joined sel.modules
  category := (joined (sel.categories.map (·.name))).bind (parseCategory lower)
  keyword := givenText sel.keyword
  sinceSeq := if lastSeq = 0 then none else some lastSeq
  beforeTs := (timeBounds now sel.timeRange).2.map iso
  afterTs := (timeBounds now sel.timeRange).1.map iso
  limit := some 50000

/-- `fetchLogs`: nothing happens while a fetch is under way. -/
def State.fetchLogs (s : State) (now : Nat) : State :=
  match s.fetching with
  | some _ => s
  | none => { s with fetching := some ⟨request lower iso s.selection s.lastSeq now, now, true, none⟩ }

/-- The answer comes to the page. -/
def State.receive (s : State) (data : List LogRecord) : State :=
  if data = [] then s
  else { s with
    lastSeq := data.foldl (fun m r => max m r.seq) s.lastSeq
    logs := data.reverse ++ s.logs }

/-- What the backend answers from a store. -/
def Fetch.data (fetch : Fetch) (backend : MemoryBackend) (store : List LogRecord) : List LogRecord :=
  { backend with store := store }.query lower fetch.filter

def step (s : State) : Act → Option State
  | .select sel now =>
    let s := { s with
      selection := sel
      logs := []
      lastSeq := 0
      fetching := s.fetching.map fun f : Fetch => { f with current := false }
      last := none }
    some (s.fetchLogs lower iso now)
  | .tick now => some (s.fetchLogs lower iso now)
  | .write record =>
    -- the store is below its capacity
    if s.backend.store.length < s.backend.maxEntries then
      some { s with backend := s.backend.write record }
    else none
  | .answer =>
    match s.fetching with
    | some ⟨filter, now, current, none⟩ =>
      some { s with fetching := some ⟨filter, now, current, some s.backend.store⟩ }
    | _ => none
  | .complete =>
    match s.fetching with
    | some ⟨filter, now, current, some store⟩ =>
      let data := (Fetch.mk filter now current (some store)).data lower s.backend store
      some { s.receive data with
        fetching := none
        last := if current then some (store, now) else s.last }
    | _ => none
  | .fail =>
    match s.fetching with
    | some _ => some { s with fetching := none }
    | none => none

/-- The viewer is opened. -/
def start (sel : Selection) : State where
  backend := .new 50000
  selection := sel
  logs := []
  lastSeq := 0
  fetching := none
  last := none

/-! ## What is shown, and what should be -/

/-- The filters of the component. -/
def shows (sel : Selection) (r : LogRecord) : Bool :=
  sel.level.all (r.level = ·) &&
  (sel.categories.isEmpty || sel.categories.contains r.category) &&
  (sel.modules.isEmpty || sel.modules.contains r.module) &&
  (sel.keyword.isEmpty || containsText (lower r.message) (lower sel.keyword) ||
    containsText (lower r.target) (lower sel.keyword) ||
    containsText (lower r.module) (lower sel.keyword))

def State.shown (s : State) : List LogRecord := s.logs.filter (shows lower s.selection)

def ofSpace (sel : Selection) (r : LogRecord) : Bool :=
  (sel.spaceId.bind givenText).all (r.spaceId = some ·)

/-- The record was made in the range. -/
def inRange (sel : Selection) (now : Nat) (r : LogRecord) : Bool :=
  (timeBounds now sel.timeRange).1.all (· ≤ instant r.timestamp) &&
    (timeBounds now sel.timeRange).2.all (instant r.timestamp ≤ ·)

def selected (sel : Selection) (now : Nat) (r : LogRecord) : Bool :=
  shows lower sel r && ofSpace sel r && inRange instant sel now r

/-- The rows are the selected records of the store that was asked last, the newest
first. -/
def Consistent (s : State) : Prop :=
  ∀ store now, s.last = some (store, now) →
    s.shown lower = (store.filter (selected lower instant s.selection now)).reverse

/-! ## Where the request fits the selection -/

/-- The range as the request has it. -/
def rangeTaken (sel : Selection) (now : Nat) (r : LogRecord) : Bool :=
  ((timeBounds now sel.timeRange).1.map iso).all (fun ts => ¬ r.timestamp < ts) &&
    ((timeBounds now sel.timeRange).2.map iso).all (fun ts => ¬ ts < r.timestamp)

/-- The request finds the record's module and keyword. -/
def Findable (sel : Selection) (r : LogRecord) : Prop :=
  sel.modules.length ≤ 1 ∧ (sel.keyword = [] ∨
    containsText (lower r.message) (lower sel.keyword) = true ∨
    containsText (lower r.target) (lower sel.keyword) = true)

/-- The fetch of the selection that completes. -/
structure Fits (s : State) (store : List LogRecord) (now : Nat) : Prop where
  times : ∀ r ∈ store, rangeTaken iso s.selection now r = inRange instant s.selection now r
  findable : ∀ r ∈ store, selected lower instant s.selection now r = true →
    Findable lower s.selection r
  clock : ∀ store' now', s.last = some (store', now') → ∀ r ∈ store',
    inRange instant s.selection now r = true → inRange instant s.selection now' r = true
  stays : ∀ r ∈ s.shown lower, inRange instant s.selection now r = true

/-- No records come for a selection that was given up, and a fetch of the selection fits
it. -/
def Sound (s : State) : Act → Prop
  | .complete => ∀ fetch store, s.fetching = some fetch → fetch.store = some store →
    (fetch.current = false → fetch.data lower s.backend store = []) ∧
      (fetch.current = true → Fits lower iso instant s store fetch.now)
  | _ => True

/-! ## What the request takes -/

/-- The request without the number and the times. -/
def taken (sel : Selection) (r : LogRecord) : Bool :=
  sel.level.all (r.level = ·) && ofSpace sel r &&
    (joined sel.modules).all (containsText r.module ·) &&
    ((joined (sel.categories.map (·.name))).bind (parseCategory lower)).all (r.category = ·) &&
    (givenText sel.keyword).all fun kw => containsText (lower r.message) (lower kw) ||
      containsText (lower r.target) (lower kw)

/-- `to_lowercase` leaves the names of levels and categories alone, and commas. -/
structure Lowers : Prop where
  level : ∀ lv : LogLevel, lower lv.name = lv.name
  category : ∀ c : LogCategory, lower c.name = c.name
  comma : ∀ s, ',' ∈ s → ',' ∈ lower s

variable {lower iso instant}

theorem parseLevel_name (h : Lowers lower) (lv : LogLevel) : parseLevel lower lv.name = some lv := by
  rw [parseLevel, h.level]
  cases lv <;> decide

theorem parseCategory_name (h : Lowers lower) (c : LogCategory) :
    parseCategory lower c.name = some c := by
  rw [parseCategory, h.category, LogCategory.ofName_name]

theorem matches_request (h : Lowers lower) (sel : Selection) (lastSeq now : Nat) {r : LogRecord}
    (hr : 1 ≤ r.seq) : (request lower iso sel lastSeq now).matches lower r =
      (taken lower sel r && rangeTaken iso sel now r && decide (lastSeq < r.seq)) := by
  have hlevel : (sel.level.map (·.name)).bind (parseLevel lower) = sel.level := by
    cases sel.level with
    | none => rfl
    | some lv => exact parseLevel_name h lv
  have hseq : (if lastSeq = 0 then none else some lastSeq : Option Nat).all (fun n => ¬ r.seq ≤ n) =
      decide (lastSeq < r.seq) := by
    by_cases hzero : lastSeq = 0
    · rw [if_pos hzero, Option.all_none, hzero, decide_eq_true (by omega)]
    · simp [hzero]
  simp only [LogFilter.matches, request, hlevel, hseq, taken, rangeTaken, ofSpace]
  ac_rfl

/-- One category is asked for by its name; a list of several is no name. -/
theorem category_taken (h : Lowers lower) {categories : List LogCategory} {c : LogCategory}
    (hc : categories = [] ∨ c ∈ categories) :
    ((joined (categories.map (·.name))).bind (parseCategory lower)).all (c = ·) = true := by
  match categories with
  | [] => rfl
  | [d] =>
    have hd : c = d := by simpa using hc
    have hjoined : joined ([d].map (·.name)) = some d.name := by simp [joined]
    rw [hd, hjoined, Option.bind_some, parseCategory_name h, Option.all_some, decide_eq_true rfl]
  | d :: e :: rest =>
    have hcomma : ',' ∈ List.intercalate [','] ((d :: e :: rest).map (·.name)) := by
      simp [List.intercalate]
    have hjoined : joined ((d :: e :: rest).map (·.name)) =
        some (List.intercalate [','] ((d :: e :: rest).map (·.name))) := if_neg (by simp)
    rw [hjoined, Option.bind_some, parseCategory_of_comma h.comma hcomma]
    rfl

theorem taken_of_selected (h : Lowers lower) {sel : Selection} {now : Nat} {r : LogRecord}
    (hr : selected lower instant sel now r = true) (hfind : Findable lower sel r) :
    taken lower sel r = true := by
  simp only [selected, shows, Bool.and_eq_true, Bool.or_eq_true, List.isEmpty_iff,
    List.contains_iff_mem] at hr
  rcases hr with ⟨⟨⟨⟨⟨hlevel, hcategory⟩, hmodule⟩, -⟩, hspace⟩, -⟩
  rcases hfind with ⟨hone, hkeyword⟩
  simp only [taken, Bool.and_eq_true]
  refine ⟨⟨⟨⟨hlevel, hspace⟩, ?_⟩, category_taken h hcategory⟩, ?_⟩
  · match hmods : sel.modules with
    | [] => rfl
    | [m] =>
      rw [hmods] at hmodule
      have hm : r.module = m := by simpa using hmodule
      have hjoined : joined [m] = some m := by simp [joined]
      rw [hjoined, Option.all_some, hm, containsText_iff]
    | _ :: _ :: _ =>
      rw [hmods] at hone
      simp at hone
  · rw [givenText]
    split
    · rfl
    · next hne =>
      rw [Option.all_some, Bool.or_eq_true]
      exact hkeyword.resolve_left hne

theorem ofSpace_of_taken {sel : Selection} {r : LogRecord} (h : taken lower sel r = true) :
    ofSpace sel r = true := by
  simp only [taken, Bool.and_eq_true] at h
  exact h.1.1.1.2

/-! ## The largest number -/

theorem foldl_max_spec (data : List LogRecord) (m : Nat) :
    (m ≤ data.foldl (fun m r => max m r.seq) m) ∧
      (∀ r ∈ data, r.seq ≤ data.foldl (fun m r => max m r.seq) m) ∧
      (data.foldl (fun m r => max m r.seq) m = m ∨
        ∃ r ∈ data, r.seq = data.foldl (fun m r => max m r.seq) m) := by
  induction data generalizing m with
  | nil => simp
  | cons d data ih =>
    rcases ih (max m d.seq) with ⟨hle, hall, hor⟩
    rw [List.foldl_cons]
    refine ⟨(Nat.le_max_left _ _).trans hle, ?_, ?_⟩
    · intro r hr
      rcases List.mem_cons.1 hr with rfl | hr
      · exact (Nat.le_max_right _ _).trans hle
      · exact hall r hr
    · rcases hor with heq | ⟨r, hr, heq⟩
      · rcases Nat.le_total m d.seq with hmd | hmd
        · right
          exact ⟨d, List.mem_cons_self, by rw [heq, Nat.max_eq_right hmd]⟩
        · left
          rw [heq, Nat.max_eq_left hmd]
      · exact .inr ⟨r, List.mem_cons_of_mem _ hr, heq⟩

/-- Lists with falling numbers are equal if they have the same elements. -/
theorem eq_of_falling {l l' : List LogRecord} (h : l.Pairwise fun a b => b.seq < a.seq)
    (h' : l'.Pairwise fun a b => b.seq < a.seq) (hmem : ∀ r, r ∈ l ↔ r ∈ l') : l = l' := by
  have hnodup : ∀ {l : List LogRecord}, (l.Pairwise fun a b => b.seq < a.seq) → l.Nodup := by
    intro l h
    refine h.imp ?_
    rintro a b hlt rfl
    exact Nat.lt_irrefl _ hlt
  refine List.Perm.eq_of_pairwise ?_ h h' ((List.perm_ext_iff_of_nodup (hnodup h) (hnodup h')).2 hmem)
  intro a b _ _ hab hba
  omega

/-! ## Runs -/

/-- The store of the last fetch that completed. -/
def State.seen (s : State) : List LogRecord := (s.last.map (·.1)).getD []

variable (lower iso instant) in
structure Inv (s : State) : Prop where
  increasing : s.backend.store.Pairwise (·.seq < ·.seq)
  numbered : ∀ r ∈ s.backend.store, 1 ≤ r.seq ∧ r.seq < s.backend.seq
  counter : 1 ≤ s.backend.seq
  capacity : s.backend.maxEntries = 50000 ∧ s.backend.store.length ≤ 50000
  seen : s.seen <+: s.backend.store
  asked : ∀ f, s.fetching = some f → f.filter.limit = some 50000 ∧
    (f.current = true → f.filter = request lower iso s.selection s.lastSeq f.now) ∧
    ∀ store, f.store = some store → store <+: s.backend.store ∧ s.seen <+: store
  falling : s.logs.Pairwise fun a b => b.seq < a.seq
  logs : ∀ r ∈ s.logs, r ∈ s.seen ∧ r.seq ≤ s.lastSeq ∧ ofSpace s.selection r = true
  mark : s.lastSeq = 0 ∨ ∃ r ∈ s.seen, r.seq = s.lastSeq
  rejected : ∀ store now, s.last = some (store, now) → ∀ r ∈ store, r ∉ s.logs →
    (taken lower s.selection r && inRange instant s.selection now r) = false
  consistent : Consistent lower instant s

theorem inv_start (sel : Selection) : Inv lower iso instant (start sel) where
  increasing := .nil
  numbered := fun _ h => nomatch h
  counter := Nat.le_refl 1
  capacity := ⟨rfl, Nat.zero_le _⟩
  seen := List.nil_prefix
  asked := fun _ h => nomatch h
  falling := .nil
  logs := fun _ h => nomatch h
  mark := .inl rfl
  rejected := fun _ _ h => nomatch h
  consistent := fun _ _ h => nomatch h

/-- A fetch that starts asks for what the selection wants. -/
theorem Inv.fetchLogs {s : State} (h : Inv lower iso instant s) (now : Nat) :
    Inv lower iso instant (s.fetchLogs lower iso now) := by
  rw [State.fetchLogs]
  split
  · exact h
  · exact { h with
      asked := by
        rintro f hf
        obtain rfl := Option.some.inj hf
        exact ⟨rfl, fun _ => rfl, fun _ hstore => (nomatch hstore)⟩ }

theorem Inv.select {s : State} (h : Inv lower iso instant s) (sel : Selection) :
    Inv lower iso instant { s with
      selection := sel
      logs := []
      lastSeq := 0
      fetching := s.fetching.map fun f => { f with current := false }
      last := none } where
  increasing := h.increasing
  numbered := h.numbered
  counter := h.counter
  capacity := h.capacity
  seen := List.nil_prefix
  asked := by
    intro f hf
    rcases Option.map_eq_some_iff.1 hf with ⟨g, hg, rfl⟩
    rcases h.asked g hg with ⟨hlimit, -, hstore⟩
    refine ⟨hlimit, fun hcurrent => (nomatch hcurrent), ?_⟩
    intro store hs
    exact ⟨(hstore store hs).1, List.nil_prefix⟩
  falling := .nil
  logs := fun _ hr => nomatch hr
  mark := .inl rfl
  rejected := fun _ _ hlast => nomatch hlast
  consistent := fun _ _ hlast => nomatch hlast

theorem Inv.write {s : State} (h : Inv lower iso instant s)
    (hroom : s.backend.store.length < s.backend.maxEntries) (record : LogRecord) :
    Inv lower iso instant { s with backend := s.backend.write record } := by
  -- there is room, so the record is appended and none is dropped
  have hstore : (s.backend.write record).store =
      s.backend.store ++ [{ record with seq := s.backend.seq }] := by
    show evict s.backend.maxEntries (s.backend.store ++ [_]) = _
    rw [evict_eq_rtake, rtake_of_length_le]
    · rfl
    · rw [List.length_append, List.length_singleton]
      exact hroom
  have hpre : s.backend.store <+: (s.backend.write record).store :=
    ⟨_, hstore.symm⟩
  exact {
    increasing := by
      show (s.backend.write record).store.Pairwise _
      rw [hstore, List.pairwise_append]
      refine ⟨h.increasing, List.pairwise_singleton _ _, ?_⟩
      intro a ha b hb
      obtain rfl := List.mem_singleton.1 hb
      exact (h.numbered a ha).2
    numbered := by
      intro r hr
      have hseq : (s.backend.write record).seq = s.backend.seq + 1 := rfl
      rw [hstore] at hr
      rw [hseq]
      rcases List.mem_append.1 hr with hr | hr
      · have hlt := h.numbered r hr
        omega
      · obtain rfl := List.mem_singleton.1 hr
        exact ⟨h.counter, Nat.lt_succ_self _⟩
    counter := Nat.le_succ_of_le h.counter
    capacity := by
      refine ⟨h.capacity.1, ?_⟩
      have hlength := congrArg List.length hstore
      rw [List.length_append, List.length_singleton] at hlength
      have hmax := h.capacity.1
      show (s.backend.write record).store.length ≤ 50000
      omega
    seen := h.seen.trans hpre
    asked := by
      intro f hf
      rcases h.asked f hf with ⟨hlimit, hfilter, hanswered⟩
      exact ⟨hlimit, hfilter, fun store hs =>
        ⟨(hanswered store hs).1.trans hpre, (hanswered store hs).2⟩⟩
    falling := h.falling
    logs := h.logs
    mark := h.mark
    rejected := h.rejected
    consistent := h.consistent }

theorem Inv.answer {s : State} (h : Inv lower iso instant s) {filter : LogFilter} {now : Nat}
    {current : Bool} (hf : s.fetching = some ⟨filter, now, current, none⟩) :
    Inv lower iso instant
      { s with fetching := some ⟨filter, now, current, some s.backend.store⟩ } := by
  rcases h.asked _ hf with ⟨hlimit, hfilter, -⟩
  exact { h with
    asked := by
      intro f hnew
      obtain rfl := Option.some.inj hnew
      refine ⟨hlimit, hfilter, ?_⟩
      intro store hstore
      obtain rfl := Option.some.inj hstore
      exact ⟨List.prefix_rfl, h.seen⟩ }

/-- A fetch that fails, or whose answer is empty. -/
theorem Inv.drop {s : State} (h : Inv lower iso instant s) :
    Inv lower iso instant { s with fetching := none } :=
  { h with asked := fun _ hf => nomatch hf }

theorem data_eq {s : State} (h : Inv lower iso instant s) {filter : LogFilter} {now : Nat}
    {current : Bool} {store : List LogRecord}
    (hf : s.fetching = some ⟨filter, now, current, some store⟩) :
    (Fetch.mk filter now current (some store)).data lower s.backend store =
      store.filter (filter.matches lower) := by
  rcases h.asked _ hf with ⟨hlimit, -, hanswered⟩
  have hlength := (hanswered store rfl).1.length_le
  have hcapacity := h.capacity.2
  have hcut := List.length_filter_le (filter.matches lower) store
  simp only [Fetch.data, MemoryBackend.query]
  rw [show filter.limit = some 50000 from hlimit]
  exact List.take_of_length_le (by omega)

/-- The answer to a fetch of the selection. -/
theorem Inv.complete (hlower : Lowers lower) {s : State} (h : Inv lower iso instant s)
    {filter : LogFilter} {now : Nat} {store : List LogRecord}
    (hf : s.fetching = some ⟨filter, now, true, some store⟩)
    (hfits : Fits lower iso instant s store now) :
    Inv lower iso instant { s.receive (store.filter (filter.matches lower)) with
      fetching := none
      last := some (store, now) } := by
  rcases h.asked _ hf with ⟨-, hfilter, hanswered⟩
  rcases hanswered store rfl with ⟨hpre, hseen⟩
  have hincreasing : store.Pairwise (·.seq < ·.seq) := h.increasing.sublist hpre.sublist
  have hmem : ∀ r, r ∈ store.filter (filter.matches lower) ↔ r ∈ store ∧
      (taken lower s.selection r && inRange instant s.selection now r) = true ∧
        s.lastSeq < r.seq := by
    intro r
    rw [List.mem_filter]
    apply and_congr_right
    intro hr
    have hpositive := (h.numbered r (hpre.subset hr)).1
    rw [show filter = request lower iso s.selection s.lastSeq now from hfilter rfl,
      matches_request hlower _ _ _ hpositive, hfits.times r hr, Bool.and_eq_true, decide_eq_true_eq]
  -- a record with a number up to the mark was there when the last fetch was answered
  have hold : ∀ r ∈ store, r.seq ≤ s.lastSeq → r ∈ s.seen := by
    intro r hr hle
    have hpositive := (h.numbered r (hpre.subset hr)).1
    rcases h.mark with hzero | ⟨m, hm, hseq⟩
    · omega
    · rcases hseen with ⟨rest, rfl⟩
      rcases List.mem_append.1 hr with hr | hr
      · exact hr
      · have hlt := (List.pairwise_append.1 hincreasing).2.2 m hm r hr
        omega
  generalize hdata : store.filter (filter.matches lower) = data at hmem ⊢
  have hlogs : (s.receive data).logs = data.reverse ++ s.logs := by
    rw [State.receive]
    split
    · next hnil =>
      rw [hnil]
      rfl
    · rfl
  have hmark : (s.receive data).lastSeq = data.foldl (fun m r => max m r.seq) s.lastSeq := by
    rw [State.receive]
    split
    · next hnil =>
      rw [hnil]
      rfl
    · rfl
  have hkept : (s.receive data).backend = s.backend ∧ (s.receive data).selection = s.selection := by
    rw [State.receive]
    split
    · exact ⟨rfl, rfl⟩
    · exact ⟨rfl, rfl⟩
  rcases foldl_max_spec data s.lastSeq with ⟨hle, hall, hsome⟩
  have hfalling : (data.reverse ++ s.logs).Pairwise fun a b => b.seq < a.seq := by
    rw [List.pairwise_append, List.pairwise_reverse]
    refine ⟨?_, h.falling, ?_⟩
    · rw [← hdata]
      exact hincreasing.sublist List.filter_sublist
    · intro a ha b hb
      have hnew := ((hmem a).1 (List.mem_reverse.1 ha)).2.2
      have hmarked := (h.logs b hb).2.1
      omega
  have hrejected : ∀ r ∈ store, r ∉ data.reverse ++ s.logs →
      (taken lower s.selection r && inRange instant s.selection now r) = false := by
    intro r hr hnot
    rw [List.mem_append, List.mem_reverse, not_or] at hnot
    by_contra htaken
    rw [Bool.not_eq_false] at htaken
    by_cases hnew : s.lastSeq < r.seq
    · exact hnot.1 ((hmem r).2 ⟨hr, htaken, hnew⟩)
    · have hin := hold r hr (by omega)
      rcases hlast : s.last with _ | ⟨store', now'⟩
      · rw [State.seen, hlast] at hin
        cases hin
      · have hstore' : r ∈ store' := by
          rw [State.seen, hlast] at hin
          exact hin
        have hfalse := h.rejected store' now' hlast r hstore' hnot.2
        rw [Bool.and_eq_true] at htaken
        rw [htaken.1, hfits.clock store' now' hlast r hstore' htaken.2] at hfalse
        cases hfalse
  have hfrom : ∀ r ∈ data.reverse ++ s.logs, r ∈ store ∧ ofSpace s.selection r = true := by
    intro r hr
    rcases List.mem_append.1 hr with hr | hr
    · have hin := (hmem r).1 (List.mem_reverse.1 hr)
      rw [Bool.and_eq_true] at hin
      exact ⟨hin.1, ofSpace_of_taken hin.2.1.1⟩
    · exact ⟨hseen.subset (h.logs r hr).1, (h.logs r hr).2.2⟩
  have hrows : (data.reverse ++ s.logs).filter (shows lower s.selection) =
      (store.filter (selected lower instant s.selection now)).reverse := by
    apply eq_of_falling (hfalling.sublist List.filter_sublist)
    · rw [List.pairwise_reverse]
      exact hincreasing.sublist List.filter_sublist
    · intro r
      rw [List.mem_filter, List.mem_reverse, List.mem_filter]
      constructor
      · rintro ⟨hr, hshows⟩
        rcases hfrom r hr with ⟨hstore, hspace⟩
        have hrange : inRange instant s.selection now r = true := by
          rcases List.mem_append.1 hr with hr | hr
          · have hin := ((hmem r).1 (List.mem_reverse.1 hr)).2.1
            rw [Bool.and_eq_true] at hin
            exact hin.2
          · exact hfits.stays r (List.mem_filter.2 ⟨hr, hshows⟩)
        exact ⟨hstore, by rw [selected, hshows, hspace, hrange]; rfl⟩
      · rintro ⟨hstore, hselected⟩
        have htaken := taken_of_selected hlower hselected (hfits.findable r hstore hselected)
        have hparts := hselected
        rw [selected, Bool.and_eq_true, Bool.and_eq_true] at hparts
        refine ⟨?_, hparts.1.1⟩
        by_contra hnot
        have hfalse := hrejected r hstore hnot
        rw [htaken, hparts.2] at hfalse
        cases hfalse
  constructor
  · exact hkept.1 ▸ h.increasing
  · exact hkept.1 ▸ h.numbered
  · exact hkept.1 ▸ h.counter
  · exact hkept.1 ▸ h.capacity
  · show store <+: (s.receive data).backend.store
    rw [hkept.1]
    exact hpre
  · exact fun _ hnone => nomatch hnone
  · show (s.receive data).logs.Pairwise _
    rw [hlogs]
    exact hfalling
  · intro r hr
    have hr' : r ∈ data.reverse ++ s.logs := hlogs ▸ hr
    refine ⟨(hfrom r hr').1, ?_, ?_⟩
    · show r.seq ≤ (s.receive data).lastSeq
      rw [hmark]
      rcases List.mem_append.1 hr' with hr' | hr'
      · exact hall r (List.mem_reverse.1 hr')
      · exact (h.logs r hr').2.1.trans hle
    · show ofSpace (s.receive data).selection r = true
      rw [hkept.2]
      exact (hfrom r hr').2
  · show (s.receive data).lastSeq = 0 ∨ ∃ r ∈ store, r.seq = (s.receive data).lastSeq
    rw [hmark]
    rcases hsome with heq | ⟨r, hr, heq⟩
    · rw [heq]
      rcases h.mark with hzero | ⟨r, hr, hseq⟩
      · exact .inl hzero
      · exact .inr ⟨r, hseen.subset hr, hseq⟩
    · exact .inr ⟨r, ((hmem r).1 hr).1, heq⟩
  · intro store' now' hlast r hr hnot
    obtain ⟨rfl, rfl⟩ : store = store' ∧ now = now' := by
      have heq := Option.some.inj hlast
      exact ⟨congrArg Prod.fst heq, congrArg Prod.snd heq⟩
    show (taken lower (s.receive data).selection r &&
      inRange instant (s.receive data).selection now r) = false
    rw [hkept.2]
    exact hrejected r hr fun hin => hnot (show r ∈ (s.receive data).logs from hlogs ▸ hin)
  · intro store' now' hlast
    obtain ⟨rfl, rfl⟩ : store = store' ∧ now = now' := by
      have heq := Option.some.inj hlast
      exact ⟨congrArg Prod.fst heq, congrArg Prod.snd heq⟩
    show (s.receive data).logs.filter (shows lower (s.receive data).selection) = _
    rw [hlogs, hkept.2]
    exact hrows

theorem inv_step (hlower : Lowers lower) (s : State) (a : Act) (s' : State)
    (h : Inv lower iso instant s) (hsound : Sound lower iso instant s a)
    (hs : step lower iso s a = some s') : Inv lower iso instant s' := by
  cases a with
  | select sel now =>
    obtain rfl := Option.some.inj hs
    exact (h.select sel).fetchLogs now
  | tick now =>
    obtain rfl := Option.some.inj hs
    exact h.fetchLogs now
  | write record =>
    simp only [step] at hs
    split at hs
    · next hroom =>
      obtain rfl := Option.some.inj hs
      exact h.write hroom record
    · cases hs
  | answer =>
    simp only [step] at hs
    split at hs
    · next hf =>
      obtain rfl := Option.some.inj hs
      exact h.answer hf
    · cases hs
  | complete =>
    simp only [step] at hs
    split at hs
    · next filter now current store hf =>
      obtain rfl := Option.some.inj hs
      rcases hsound _ store hf rfl with ⟨hstale, hcurrent⟩
      cases current with
      | true =>
        simp only [data_eq h hf, if_true]
        exact h.complete hlower hf (hcurrent rfl)
      | false =>
        -- nothing came, and nothing changes
        simp only [hstale rfl]
        exact h.drop
    · cases hs
  | fail =>
    simp only [step] at hs
    split at hs
    · obtain rfl := Option.some.inj hs
      exact h.drop
    · cases hs

/-- Along a run whose steps are sound, the rows are the selected records after each
completed fetch, the newest first. -/
theorem viewer_consistent (hlower : Lowers lower) (sel : Selection) (as : List Act)
    (hsound : Along (step lower iso) (Sound lower iso instant) (start sel) as) :
    Always (step lower iso) (Consistent lower instant) (start sel) as :=
  always_of_along (fun _ h => h.consistent)
    (fun s a s' h hP hs => inv_step hlower s a s' h hP hs) (inv_start sel) hsound

end Viewer

/-! ## Examples of runs -/

/-- Everything, or the records of a level. -/
def ofLevel (level : Option LogLevel) : Selection where
  spaceId := none
  level := level
  categories := []
  modules := []
  keyword := []
  timeRange := .all

def written (level : LogLevel) : LogRecord where
  seq := 0
  timestamp := "2026-01-01T08:00:00+08:00".toList
  level := level
  target := "home_tier_lib::chat".toList
  module := "chat".toList
  category := .data
  message := "hello".toList
  spaceId := none
  traceId := none

theorem lowers_toLower : Lowers (·.map Char.toLower) where
  level := by
    intro lv
    cases lv <;> decide
  category := by
    intro c
    cases c <;> decide
  comma := map_toLower_comma

/-- With levels alone, every first fetch of a selection fits it. -/
theorem fits_ofLevel {s : State} {level : Option LogLevel} (hsel : s.selection = ofLevel level)
    (hlast : s.last = none) (store : List LogRecord) (now : Nat) :
    Fits (·.map Char.toLower) (fun _ => []) (fun _ => 0) s store now where
  times _ _ := by
    rw [hsel]
    rfl
  findable _ _ _ := by
    rw [hsel]
    exact ⟨Nat.zero_le _, .inl rfl⟩
  clock _ _ h := by
    rw [hlast] at h
    cases h
  stays _ _ := by
    rw [hsel]
    rfl

/-- One record and the fetch that finds it, then an error and the selection of the errors. -/
def narrowed : List Act :=
  [.write (written .info), .tick 0, .answer, .complete, .write (written .error),
   .select (ofLevel (some .error)) 0, .answer, .complete]

theorem sound_narrowed : Along (step (·.map Char.toLower) fun _ => [])
    (Sound (·.map Char.toLower) (fun _ => []) fun _ => 0) (start (ofLevel none)) narrowed := by
  refine (along_cons rfl _).2 ⟨trivial, (along_cons rfl _).2 ⟨trivial, (along_cons rfl _).2
    ⟨trivial, (along_cons rfl _).2 ⟨?_, (along_cons rfl _).2 ⟨trivial, (along_cons rfl _).2
      ⟨trivial, (along_cons rfl _).2 ⟨trivial, (along_cons rfl _).2 ⟨?_, trivial⟩⟩⟩⟩⟩⟩⟩⟩
  · rintro fetch store hf -
    obtain rfl := Option.some.inj hf
    exact ⟨fun hstale => (nomatch hstale), fun _ => fits_ofLevel rfl rfl store _⟩
  · rintro fetch store hf -
    obtain rfl := Option.some.inj hf
    exact ⟨fun hstale => (nomatch hstale), fun _ => fits_ofLevel rfl rfl store _⟩

theorem consistent_narrowed : Always (step (·.map Char.toLower) fun _ => [])
    (Consistent (·.map Char.toLower) fun _ => 0) (start (ofLevel none)) narrowed :=
  viewer_consistent lowers_toLower (ofLevel none) narrowed sound_narrowed

/-- The selection is widened while the errors are being fetched. -/
def widened : List Act :=
  [.write (written .info), .write (written .error), .tick 0, .answer, .select (ofLevel none) 0,
   .complete, .tick 0, .answer, .complete]

/-- The errors that come for the old selection hide what is older than they. -/
theorem widened_not_consistent : ¬ ∀ (lower : Str → Str) (iso : Nat → Str) (instant : Str → Nat)
    (sel : Selection) (as : List Act), Lowers lower →
      Always (step lower iso) (Consistent lower instant) (start sel) as := by
  intro h
  have hall := h (·.map Char.toLower) (fun _ => []) (fun _ => 0) (ofLevel (some .error)) widened
    lowers_toLower
  have hlast : ∃ s store, run (step (·.map Char.toLower) fun _ => []) (start (ofLevel (some .error)))
      widened = some s ∧ s.last = some (store, 0) ∧ s.selection = ofLevel none ∧
        (s.shown (·.map Char.toLower)).length = 1 ∧ store.length = 2 :=
    ⟨_, _, rfl, rfl, rfl, rfl, rfl⟩
  rcases hlast with ⟨s, store, hrun, hlast, hsel, hshown, hstore⟩
  have hrows := congrArg List.length (always_run hall hrun store 0 hlast)
  have hselected : store.filter (selected (·.map Char.toLower) (fun _ => 0) s.selection 0) = store := by
    rw [hsel]
    exact List.filter_eq_self.2 fun _ _ => rfl
  rw [hshown, hselected, List.length_reverse, hstore] at hrows
  cases hrows

end LogViewer

end HomeTier
