import HomeTier.Lib.Entries
import HomeTier.Chat.Store
import HomeTier.Log.Memory

/-! # Queries of the web client

`URLSearchParams` of `src/utils/api/web.ts` writes every parameter as a text. The handlers
of `src-tauri/src/server/routes.rs` take the query as a JSON object of texts and read
the numbers with `as_u64`, which takes no text: `limit` and `since_seq` are as good as
absent, and the handler of the log list does not look at `since_seq` at all.

So a browser gets what the commands of the desktop return for the same arguments exactly
where the two numbers cut nothing off (`queries_honoured_iff`).
-/

namespace HomeTier

open Lib ChatStore

namespace WebQuery

/-- The parameters that the client sets, in order; those without a value are left out. -/
def setParams (fields : List (Str × Option Str)) : List (Str × Str) :=
  fields.filterMap fun f => f.2.map fun value => (f.1, value)

/-- `Query<serde_json::Value>` -/
def queryValue (params : List (Str × Str)) : Json := .obj (params.map fun p => (p.1, .str p.2))

def textParam (key : String) (params : List (Str × Str)) : Option Str :=
  ((queryValue params).get key.toList).bind Json.asStr

def numberParam (key : String) (params : List (Str × Str)) : Option Nat :=
  ((queryValue params).get key.toList).bind Json.asU64

/-- What a page asks for. -/
structure Args where
  level : Option Str
  spaceId : Option Str
  module : Option Str
  category : Option Str
  keyword : Option Str
  sinceSeq : Option Nat
  beforeTs : Option Str
  afterTs : Option Str
  limit : Option Nat
  /-- The client does not put empty texts in a query. -/
  nonEmpty : ∀ text ∈ [level, spaceId, module, category, keyword, beforeTs, afterTs], text ≠ some []

/-! ## The client -/

/-- `if (value) params.set(key, value)` -/
def given (value : Option Str) : Option Str := value.filter (· ≠ [])

/-- `String(n)` -/
def numberText (n : Option Nat) : Option Str := n.map decimal

def getLogsParams (args : Args) : List (Str × Str) :=
  setParams [("level".toList, given args.level), ("since_seq".toList, numberText args.sinceSeq)]

def getSpaceLogsParams (args : Args) : List (Str × Str) :=
  setParams [("level".toList, given args.level)]

def queryLogsParams (args : Args) : List (Str × Str) :=
  setParams
    [("level".toList, given args.level),
     ("space_id".toList, given args.spaceId),
     ("module".toList, given args.module),
     ("category".toList, given args.category),
     ("keyword".toList, given args.keyword),
     ("since_seq".toList, numberText args.sinceSeq),
     ("before_ts".toList, given args.beforeTs),
     ("after_ts".toList, given args.afterTs),
     ("limit".toList, numberText args.limit)]

/-- `if (limit)`, which 0 is not. -/
def historyParams (limit : Option Nat) : List (Str × Str) :=
  setParams [("limit".toList, numberText (limit.filter (· ≠ 0)))]

section Handlers

-- `to_lowercase`
variable (lower : Str → Str)

/-! ## The server -/

/-- `parse_category_opt` -/
def parseCategoryOpt (category : Option Str) : Option LogCategory :=
  category.bind fun category => LogCategory.ofName (lower category)

def getLogsHandler (m : MemoryBackend) (params : List (Str × Str)) : List LogRecord :=
  m.getAll ((textParam "level" params).bind (parseLevel lower))

def getSpaceLogsHandler (m : MemoryBackend) (spaceId : Str) (params : List (Str × Str)) :
    List LogRecord :=
  m.getBySpace spaceId ((textParam "level" params).bind (parseLevel lower))

def queryLogsHandler (m : MemoryBackend) (params : List (Str × Str)) : List LogRecord :=
  m.query lower {
    level := (textParam "level" params).bind (parseLevel lower)
    spaceId := textParam "space_id" params
    module := textParam "module" params
    category := parseCategoryOpt lower (textParam "category" params)
    keyword := textParam "keyword" params
    sinceSeq := numberParam "since_seq" params
    beforeTs := textParam "before_ts" params
    afterTs := textParam "after_ts" params
    limit := numberParam "limit" params }

def getMessageHistoryHandler (s : ChatState) (space : Uuid) (params : List (Str × Str)) :
    List Entry :=
  (s.getMessages space (((numberParam "limit" params).map (· % 2 ^ 32)).getD 50)).map readRow

/-! ## The desktop -/

/-- A command takes no number out of the range of its type. -/
def inRange (bits : Nat) (n : Option Nat) : Bool := n.all (· < 2 ^ bits)

/-- `get_logs`; `reached` says that the daemon answers, from a store with the same records. -/
def getLogsCommand (reached : Bool) (m : MemoryBackend) (args : Args) : Option (List LogRecord) :=
  if inRange 64 args.sinceSeq then
    if reached then some (getLogs lower m args.level args.sinceSeq none)
    else if args.sinceSeq = none then some (m.getAll (args.level.bind (parseLevel lower)))
    else some []
  else none

/-- `get_space_logs` -/
def getSpaceLogsCommand (reached : Bool) (m : MemoryBackend) (spaceId : Str) (args : Args) :
    List LogRecord :=
  if reached then getLogs lower m args.level none (some spaceId)
  else m.getBySpace spaceId (args.level.bind (parseLevel lower))

/-- `query_logs` -/
def queryLogs (m : MemoryBackend) (args : Args) : Option (List LogRecord) :=
  if inRange 64 args.sinceSeq && inRange 64 args.limit then
    some (m.query lower {
      level := args.level.bind (parseLevel lower)
      spaceId := args.spaceId
      module := args.module
      category := parseCategoryOpt lower args.category
      keyword := args.keyword
      sinceSeq := args.sinceSeq
      beforeTs := args.beforeTs
      afterTs := args.afterTs
      limit := args.limit })
  else none

/-- `get_message_history`; the page sends 50 for no limit. -/
def getMessageHistory (s : ChatState) (space : Uuid) (limit : Option Nat) : Option (List Entry) :=
  if inRange 32 limit then some ((s.getMessages space (limit.getD 50)).map readRow) else none

/-- On the same logs and messages, server and desktop return the same. -/
structure Honoured (reached : Bool) (m : MemoryBackend) (s : ChatState) (space : Uuid)
    (spaceId : Str) (args : Args) : Prop where
  logs : getLogsCommand lower reached m args = some (getLogsHandler lower m (getLogsParams args))
  spaceLogs : getSpaceLogsCommand lower reached m spaceId args =
    getSpaceLogsHandler lower m spaceId (getSpaceLogsParams args)
  query : queryLogs lower m args = some (queryLogsHandler lower m (queryLogsParams args))
  history : getMessageHistory s space args.limit =
    some (getMessageHistoryHandler s space (historyParams args.limit))

/-- The filter without its two numbers. -/
def textFilter (args : Args) : LogFilter where
  level := args.level.bind (parseLevel lower)
  spaceId := args.spaceId
  module := args.module
  category := parseCategoryOpt lower args.category
  keyword := args.keyword
  beforeTs := args.beforeTs
  afterTs := args.afterTs

/-- The messages of a space. -/
def messagesOf (s : ChatState) (space : Uuid) : List MessageRow :=
  s.rows.filter (·.spaceId = space)

/-- The records of the level that is asked for. -/
def ofLevel (m : MemoryBackend) (args : Args) : List LogRecord :=
  m.getAll (args.level.bind (parseLevel lower))

/-- The numbers are in range and cut nothing off: no record of the level is as old as
`since_seq` (and without the daemon, there is no record of the level), no more records match
than `limit`, and `limit` and the default take the same of the messages. -/
structure CutsNothing (reached : Bool) (m : MemoryBackend) (s : ChatState) (space : Uuid)
    (args : Args) : Prop where
  since : ∀ n ∈ args.sinceSeq,
    n < 2 ^ 64 ∧ ∀ r ∈ ofLevel lower m args, reached = true ∧ n < r.seq
  limit : ∀ n ∈ args.limit,
    n < 2 ^ 32 ∧ (m.store.filter ((textFilter lower args).matches lower)).length ≤ n
  messages : ∀ n ∈ args.limit, n = 50 ∨ (messagesOf s space).length ≤ min n 50

/-! ## What arrives -/

theorem lookup_setParams {fields : List (Str × Option Str)} (h : (fields.map (·.1)).Nodup)
    {key : Str} {value : Option Str} (hmem : (key, value) ∈ fields) :
    (setParams fields).lookup key = value := by
  induction fields with
  | nil => cases hmem
  | cons f fields ih =>
    rw [List.map_cons, List.nodup_cons] at h
    have hrest : ∀ key, key ∉ fields.map (·.1) → (setParams fields).lookup key = none := by
      intro key hkey
      rw [List.lookup_eq_none_iff]
      intro p hp
      rcases List.mem_filterMap.1 hp with ⟨g, hg, hvalue⟩
      rcases Option.map_eq_some_iff.1 hvalue with ⟨text, -, rfl⟩
      simpa using fun heq : key = g.1 => hkey (heq ▸ List.mem_map_of_mem hg)
    rcases f with ⟨k, v⟩
    rcases List.mem_cons.1 hmem with heq | htail
    · cases heq
      cases value with
      | none => exact hrest key h.1
      | some text => simp [setParams]
    · have hne : key ≠ k := by
        rintro rfl
        exact h.1 (List.mem_map.2 ⟨_, htail, rfl⟩)
      rw [← ih h.2 htail]
      cases v with
      | none => rfl
      | some text =>
        show List.lookup key ((k, text) :: setParams fields) = _
        rw [lookup_cons_eq, if_neg hne]

/-- Every parameter is a text. -/
theorem get_queryValue (params : List (Str × Str)) (key : Str) :
    (queryValue params).get key = (params.lookup key).map .str := by
  show List.lookup key (params.map fun p => (p.1, Json.str p.2)) = _
  induction params with
  | nil => rfl
  | cons p params ih =>
    rw [List.map_cons, lookup_cons_eq, lookup_cons_eq, ih]
    split
    · rfl
    · rfl

theorem textParam_setParams (fields : List (Str × Option Str)) (h : (fields.map (·.1)).Nodup)
    {key : String} {value : Option Str} (hmem : (key.toList, value) ∈ fields) :
    textParam key (setParams fields) = value := by
  rw [textParam, get_queryValue, lookup_setParams h hmem]
  cases value <;> rfl

/-- A number does not arrive. -/
theorem numberParam_eq_none (key : String) (params : List (Str × Str)) :
    numberParam key params = none := by
  rw [numberParam, get_queryValue]
  cases params.lookup key.toList <;> rfl

theorem given_eq {value : Option Str} (h : value ≠ some []) : given value = value := by
  cases value with
  | none => rfl
  | some text =>
    have hne : text ≠ [] := fun hnil => h (congrArg some hnil)
    rw [given, Option.filter_some_pos (by simpa using hne)]

/-! ## What the handlers return -/

variable {lower} {args : Args}

theorem nodup_keys : (["level", "space_id", "module", "category", "keyword", "since_seq", "before_ts",
    "after_ts", "limit"].map String.toList).Nodup := by decide

theorem given_arg {text : Option Str}
    (h : text ∈ [args.level, args.spaceId, args.module, args.category, args.keyword,
      args.beforeTs, args.afterTs]) : given text = text :=
  given_eq (args.nonEmpty text h)

theorem getLogsHandler_eq (m : MemoryBackend) :
    getLogsHandler lower m (getLogsParams args) = ofLevel lower m args := by
  have hkeys : (["level", "since_seq"].map String.toList).Nodup := by decide
  have hlevel : textParam "level" (getLogsParams args) = given args.level :=
    textParam_setParams _ (by exact hkeys) (.head _)
  rw [getLogsHandler, hlevel, given_arg (.head _), ofLevel]

theorem getSpaceLogsHandler_eq (m : MemoryBackend) (spaceId : Str) :
    getSpaceLogsHandler lower m spaceId (getSpaceLogsParams args) =
      m.getBySpace spaceId (args.level.bind (parseLevel lower)) := by
  have hlevel : textParam "level" (getSpaceLogsParams args) = given args.level :=
    textParam_setParams _ (by exact List.nodup_singleton _) (.head _)
  rw [getSpaceLogsHandler, hlevel, given_arg (.head _)]

/-- The texts arrive, the numbers do not. -/
theorem queryLogsHandler_eq (m : MemoryBackend) :
    queryLogsHandler lower m (queryLogsParams args) =
      m.store.filter ((textFilter lower args).matches lower) := by
  have htext : ∀ (key : String) (text : Option Str),
      (key.toList, given text) ∈
        [("level".toList, given args.level), ("space_id".toList, given args.spaceId),
         ("module".toList, given args.module), ("category".toList, given args.category),
         ("keyword".toList, given args.keyword),
         ("since_seq".toList, numberText args.sinceSeq),
         ("before_ts".toList, given args.beforeTs), ("after_ts".toList, given args.afterTs),
         ("limit".toList, numberText args.limit)] →
      text ∈ [args.level, args.spaceId, args.module, args.category, args.keyword,
        args.beforeTs, args.afterTs] →
      textParam key (queryLogsParams args) = text := by
    intro key text hmem harg
    have hgiven : textParam key (queryLogsParams args) = given text :=
      textParam_setParams _ (by exact nodup_keys) hmem
    rw [hgiven, given_arg harg]
  rw [queryLogsHandler, htext "level" args.level (by simp) (by simp),
    htext "space_id" args.spaceId (by simp) (by simp),
    htext "module" args.module (by simp) (by simp),
    htext "category" args.category (by simp) (by simp),
    htext "keyword" args.keyword (by simp) (by simp),
    htext "before_ts" args.beforeTs (by simp) (by simp),
    htext "after_ts" args.afterTs (by simp) (by simp),
    numberParam_eq_none, numberParam_eq_none]
  rfl

theorem getMessageHistoryHandler_eq (s : ChatState) (space : Uuid) (limit : Option Nat) :
    getMessageHistoryHandler s space (historyParams limit) =
      (s.getMessages space 50).map readRow := by
  rw [getMessageHistoryHandler, numberParam_eq_none]
  rfl

/-! ## Where both agree -/

theorem logs_iff (reached : Bool) (m : MemoryBackend) :
    getLogsCommand lower reached m args = some (getLogsHandler lower m (getLogsParams args)) ↔
      ∀ n ∈ args.sinceSeq, n < 2 ^ 64 ∧ ∀ r ∈ ofLevel lower m args, reached = true ∧ n < r.seq := by
  rw [getLogsHandler_eq, getLogsCommand]
  cases hsince : args.sinceSeq with
  | none =>
    have hall : getLogs lower m args.level none none = ofLevel lower m args := rfl
    simp [inRange, hall, ofLevel]
  | some n =>
    simp only [inRange, Option.all_some, decide_eq_true_eq, Option.mem_some_iff, forall_eq',
      reduceCtorEq, if_false]
    by_cases hrange : n < 2 ^ 64
    · rw [if_pos hrange]
      simp only [hrange, true_and]
      cases reached with
      | true =>
        have hcut : getLogs lower m args.level (some n) none =
          (ofLevel lower m args).filter (n < ·.seq) := rfl
        simp [hcut, List.filter_eq_self]
      | false =>
        -- without the daemon, a `since_seq` gives nothing
        simp only [Bool.false_eq_true, if_false, Option.some.injEq, false_and, imp_false]
        rw [eq_comm, List.eq_nil_iff_forall_not_mem]
    · rw [if_neg hrange]
      exact iff_of_false (fun h => nomatch h) (fun h => hrange h.1)

theorem spaceLogs_eq (reached : Bool) (m : MemoryBackend) (spaceId : Str) :
    getSpaceLogsCommand lower reached m spaceId args =
      getSpaceLogsHandler lower m spaceId (getSpaceLogsParams args) := by
  rw [getSpaceLogsHandler_eq, getSpaceLogsCommand]
  cases reached <;> rfl

/-- A second test and a bound leave all that passes the first test exactly if the second
rejects none of it and the bound is not passed. -/
theorem filter_filter_take_eq_iff {α : Type} (l : List α) (p q : α → Bool) (limit : Option Nat) :
    (match limit with
      | some n => (l.filter fun a => q a && p a).take n
      | none => l.filter fun a => q a && p a) = l.filter p ↔
      (∀ a ∈ l.filter p, q a = true) ∧ ∀ n ∈ limit, (l.filter p).length ≤ n := by
  rw [← List.filter_filter]
  generalize l.filter p = kept
  cases limit with
  | none => simp [List.filter_eq_self]
  | some n =>
    simp only [Option.mem_some_iff, forall_eq']
    constructor
    · intro h
      have hlength := congrArg List.length h
      rw [List.length_take] at hlength
      have hle := List.length_filter_le q kept
      have hall : (kept.filter q).length = kept.length := by omega
      exact ⟨List.length_filter_eq_length_iff.1 hall, by omega⟩
    · rintro ⟨hall, hle⟩
      rw [List.filter_eq_self.2 hall, List.take_of_length_le hle]

variable (lower) in
theorem matches_numbers (since limit : Option Nat) (f : LogFilter) :
    LogFilter.matches lower { f with sinceSeq := since, limit := limit } =
      fun r => since.all (· < r.seq) && LogFilter.matches lower { f with sinceSeq := none } r := by
  funext r
  simp only [LogFilter.matches, Option.all_none]
  grind

theorem query_iff (m : MemoryBackend) :
    queryLogs lower m args = some (queryLogsHandler lower m (queryLogsParams args)) ↔
      (inRange 64 args.sinceSeq && inRange 64 args.limit) = true ∧
        (∀ r ∈ m.store.filter ((textFilter lower args).matches lower),
          args.sinceSeq.all (· < r.seq) = true) ∧
        ∀ n ∈ args.limit, (m.store.filter ((textFilter lower args).matches lower)).length ≤ n := by
  rw [queryLogsHandler_eq, queryLogs]
  cases hrange : inRange 64 args.sinceSeq && inRange 64 args.limit with
  | false => simp
  | true =>
    simp only [if_true, Option.some.injEq, true_and]
    have hfilter := matches_numbers lower args.sinceSeq args.limit (textFilter lower args)
    have hcut := filter_filter_take_eq_iff m.store ((textFilter lower args).matches lower)
      (fun r => args.sinceSeq.all (· < r.seq)) args.limit
    rw [MemoryBackend.query]
    simp only [textFilter] at hfilter hcut ⊢
    rw [hfilter]
    exact hcut

theorem history_iff (s : ChatState) (space : Uuid) (limit : Option Nat) :
    getMessageHistory s space limit =
        some (getMessageHistoryHandler s space (historyParams limit)) ↔
      ∀ n ∈ limit, n < 2 ^ 32 ∧ (n = 50 ∨ (messagesOf s space).length ≤ min n 50) := by
  rw [getMessageHistoryHandler_eq, getMessageHistory]
  cases limit with
  | none => simp [inRange]
  | some n =>
    simp only [inRange, Option.all_some, decide_eq_true_eq, Option.getD_some, Option.mem_some_iff,
      forall_eq']
    by_cases hrange : n < 2 ^ 32
    · rw [if_pos hrange]
      simp only [hrange, true_and, Option.some.injEq, ChatState.getMessages]
      have hlength : (messagesOf s space).length =
          ((s.rows.filter (·.spaceId = space)).insertionSort
            fun a b => b.timestamp ≤ a.timestamp).length :=
        (List.length_insertionSort _ _).symm
      rw [hlength]
      generalize (s.rows.filter (·.spaceId = space)).insertionSort
        (fun a b => b.timestamp ≤ a.timestamp) = rows
      constructor
      · intro h
        have htaken := congrArg List.length h
        simp only [List.length_map, List.length_take] at htaken
        omega
      · rintro (rfl | hle)
        · rfl
        · rw [List.take_of_length_le (by omega), List.take_of_length_le (by omega)]
    · rw [if_neg hrange]
      exact iff_of_false (fun h => nomatch h) (fun h => hrange h.1)

/-- A record that the filter takes is of its level. -/
theorem mem_ofLevel_of_matches {m : MemoryBackend} {r : LogRecord}
    (h : r ∈ m.store.filter ((textFilter lower args).matches lower)) : r ∈ ofLevel lower m args := by
  rcases List.mem_filter.1 h with ⟨hmem, hmatches⟩
  rw [ofLevel, MemoryBackend.getAll_eq, List.mem_filter]
  simp only [LogFilter.matches, textFilter, Bool.and_eq_true] at hmatches
  exact ⟨hmem, hmatches.1.1.1.1.1.1.1⟩

/-- The server returns what the desktop returns exactly where the numbers cut nothing off. -/
theorem queries_honoured_iff (lower : Str → Str) (reached : Bool) (m : MemoryBackend)
    (s : ChatState) (space : Uuid) (spaceId : Str) (args : Args) :
    Honoured lower reached m s space spaceId args ↔ CutsNothing lower reached m s space args := by
  constructor
  · rintro ⟨hlogs, -, hquery, hhistory⟩
    have hsince := (logs_iff reached m).1 hlogs
    have hlimit := (query_iff m).1 hquery
    have hmessages := (history_iff s space args.limit).1 hhistory
    exact {
      since := hsince
      limit := fun n hn => ⟨(hmessages n hn).1, hlimit.2.2 n hn⟩
      messages := fun n hn => (hmessages n hn).2 }
  · rintro ⟨hsince, hlimit, hmessages⟩
    have hrange : (inRange 64 args.sinceSeq && inRange 64 args.limit) = true := by
      rw [Bool.and_eq_true, inRange, inRange, Option.all_eq_true, Option.all_eq_true]
      constructor
      · intro n hn
        exact decide_eq_true (hsince n hn).1
      · intro n hn
        exact decide_eq_true ((hlimit n hn).1.trans (by decide))
    refine ⟨(logs_iff reached m).2 hsince, spaceLogs_eq reached m spaceId,
      (query_iff m).2 ⟨hrange, ?_, fun n hn => (hlimit n hn).2⟩,
      (history_iff s space args.limit).2 fun n hn => ⟨(hlimit n hn).1, hmessages n hn⟩⟩
    -- the filter takes records of the level alone
    intro r hr
    rw [Option.all_eq_true]
    intro n hn
    exact decide_eq_true ((hsince n hn).2 r (mem_ofLevel_of_matches hr)).2

/-- A page that asks for one record. -/
def oneRecord : Args where
  level := none
  spaceId := none
  module := none
  category := none
  keyword := none
  sinceSeq := none
  beforeTs := none
  afterTs := none
  limit := some 1
  nonEmpty := by simp

/-- Some record. -/
def helloRecord (seq : Nat) : LogRecord where
  seq := seq
  timestamp := []
  level := .info
  target := "chat".toList
  module := "chat".toList
  category := .data
  message := "hello".toList
  spaceId := none
  traceId := none

/-- Of two records, a browser that asks for one gets both. -/
theorem limit_not_honoured :
    ¬ ∀ (lower : Str → Str) (reached : Bool) (m : MemoryBackend) (s : ChatState) (space : Uuid)
      (spaceId : Str) (args : Args), Honoured lower reached m s space spaceId args := by
  intro h
  have hquery := (h id true ⟨[helloRecord 1, helloRecord 2], 50000, 3⟩ ⟨fun _ => [], [], [], []⟩ 1 []
    oneRecord).query
  have hlength := congrArg (Option.map List.length) hquery
  exact absurd hlength (by decide)

end Handlers

end WebQuery

end HomeTier
