import Mathlib.Data.List.Infix
import HomeTier.Lib.JsonText
import HomeTier.Lib.Lines

/-! # Log records

`LogRecord`, `LogFilter` and the mapping of targets to modules and categories,
from `src-tauri/src/log/backend.rs`. A record is made without a sequence number:
`seq` is 0 until a backend sets it. In a log file a record is a line of JSON,
and lines are read back one by one (`readRecords_fileText`).
-/

namespace HomeTier

open Lib

inductive LogLevel where
  | debug
  | info
  | warning
  | error
deriving DecidableEq, Repr

inductive LogCategory where
  | system
  | network
  | webRTC
  | data
  | proxy
  | daemon
  | space
  | server
deriving DecidableEq, Repr

structure LogRecord where
  seq : Nat
  timestamp : Str
  level : LogLevel
  target : Str
  module : Str
  category : LogCategory
  message : Str
  spaceId : Option Str
  traceId : Option Str
deriving DecidableEq, Repr

/-- `split("::")` -/
def splitColons : Str → List Str
  | ':' :: ':' :: rest => [] :: splitColons rest
  | c :: rest => (splitColons rest).modifyHead (c :: ·)
  | [] => [[]]

/-- `str::contains` -/
def containsText (s sub : Str) : Bool := s.tails.any (sub.isPrefixOf ·)

theorem containsText_iff {s sub : Str} : containsText s sub = true ↔ sub <:+: s := by
  rw [containsText, List.any_eq_true, List.infix_iff_prefix_suffix]
  apply exists_congr
  intro t
  rw [List.mem_tails, List.isPrefixOf_iff_prefix, and_comm]

theorem containsText_of_append (a s b : Str) : containsText (a ++ s ++ b) s = true :=
  containsText_iff.2 ⟨a, b, rfl⟩

/-- The last part of a target that is a name. -/
def extractModule (target : Str) : Str :=
  let parts := splitColons target
  match parts.reverse.find? fun part => part ≠ [] ∧ part ≠ "crate".toList with
  | some part => part
  | none => parts.getLast?.getD "unknown".toList

/-- The first category whose words occur in the module. -/
def categorizeModule (m : Str) : LogCategory :=
  if "easytier".toList.isPrefixOf m || containsText m "network".toList ||
      containsText m "space".toList then .network
  else if containsText m "voice".toList || containsText m "screen".toList ||
      containsText m "webrtc".toList then .webRTC
  else if containsText m "chat".toList || containsText m "file".toList ||
      containsText m "data".toList then .data
  else if containsText m "proxy".toList then .proxy
  else if containsText m "daemon".toList then .daemon
  else if containsText m "space".toList then .space
  else if containsText m "server".toList || containsText m "http".toList ||
      containsText m "ws".toList then .server
  else .system

/-- `LogRecord::new`; `now` is the time in RFC 3339. -/
def LogRecord.new (now : Str) (level : LogLevel) (target message : Str)
    (spaceId traceId : Option Str) : LogRecord where
  seq := 0
  timestamp := now
  level := level
  target := target
  module := extractModule target
  category := categorizeModule (extractModule target)
  message := message
  spaceId := spaceId
  traceId := traceId

structure LogFilter where
  level : Option LogLevel := none
  spaceId : Option Str := none
  module : Option Str := none
  category : Option LogCategory := none
  keyword : Option Str := none
  sinceSeq : Option Nat := none
  beforeTs : Option Str := none
  afterTs : Option Str := none
  limit : Option Nat := none
deriving DecidableEq, Repr

/-- `LogFilter::matches`; `lower` is `to_lowercase`. -/
def LogFilter.matches (lower : Str → Str) (f : LogFilter) (r : LogRecord) : Bool :=
  f.level.all (r.level = ·) &&
  f.spaceId.all (r.spaceId = some ·) &&
  f.module.all (containsText r.module ·) &&
  f.category.all (r.category = ·) &&
  f.keyword.all (fun kw => containsText (lower r.message) (lower kw) ||
    containsText (lower r.target) (lower kw)) &&
  f.sinceSeq.all (fun seq => ¬ r.seq ≤ seq) &&
  f.beforeTs.all (fun ts => ¬ ts < r.timestamp) &&
  f.afterTs.all (fun ts => ¬ r.timestamp < ts)

/-! ## Lines of a log file -/

def LogLevel.name : LogLevel → Str
  | debug => "debug".toList
  | info => "info".toList
  | warning => "warning".toList
  | error => "error".toList

def LogLevel.ofName (s : Str) : Option LogLevel :=
  [debug, info, warning, error].find? (·.name = s)

def LogCategory.name : LogCategory → Str
  | system => "system".toList
  | network => "network".toList
  | webRTC => "webrtc".toList
  | data => "data".toList
  | proxy => "proxy".toList
  | daemon => "daemon".toList
  | space => "space".toList
  | server => "server".toList

def LogCategory.ofName (s : Str) : Option LogCategory :=
  [system, network, webRTC, data, proxy, daemon, space, server].find? (·.name = s)

theorem LogLevel.ofName_name (l : LogLevel) : ofName l.name = some l := by
  cases l <;> decide

theorem LogCategory.ofName_name (c : LogCategory) : ofName c.name = some c := by
  cases c <;> decide

namespace LogRecord

def optionJson : Option Str → Json
  | some s => .str s
  | none => .null

/-- `Option<String>`, where an absent field is `None`. -/
def readOption : Option Json → Option (Option Str)
  | none => some none
  | some .null => some none
  | some v => v.asStr.map some

theorem readOption_optionJson (o : Option Str) : readOption (some (optionJson o)) = some o := by
  cases o with
  | none => rfl
  | some s => rfl

theorem valid_optionJson {d : Nat} (o : Option Str) : (optionJson o).Valid d := by
  cases o with
  | none => exact .null
  | some s => exact .str s

/-- The fields in the order of the record. -/
def fields (r : LogRecord) : List (Str × Json) :=
  [("seq".toList, Json.natJson r.seq),
   ("timestamp".toList, .str r.timestamp),
   ("level".toList, .str r.level.name),
   ("target".toList, .str r.target),
   ("module".toList, .str r.module),
   ("category".toList, .str r.category.name),
   ("message".toList, .str r.message),
   ("space_id".toList, optionJson r.spaceId),
   ("trace_id".toList, optionJson r.traceId)]

/-- `serde_json::to_string` -/
def toText (r : LogRecord) : Str := Json.printStruct r.fields

def ofJson (v : Json) : Option LogRecord := do
  let seq ← (v.get "seq".toList).bind Json.readNatJson
  let timestamp ← (v.get "timestamp".toList).bind Json.asStr
  let level ← (v.get "level".toList).bind Json.asStr |>.bind LogLevel.ofName
  let target ← (v.get "target".toList).bind Json.asStr
  let module ← (v.get "module".toList).bind Json.asStr
  let category ← (v.get "category".toList).bind Json.asStr |>.bind LogCategory.ofName
  let message ← (v.get "message".toList).bind Json.asStr
  let spaceId ← readOption (v.get "space_id".toList)
  let traceId ← readOption (v.get "trace_id".toList)
  return { seq, timestamp, level, target, module, category, message, spaceId, traceId }

/-- `serde_json::from_str` -/
def ofText (s : Str) : Option LogRecord := (Json.parse s).bind ofJson

theorem nodup_fields (r : LogRecord) : (r.fields.map (·.1)).Nodup := by
  show ["seq".toList, "timestamp".toList, "level".toList, "target".toList, "module".toList,
    "category".toList, "message".toList, "space_id".toList, "trace_id".toList].Nodup
  decide

theorem valid_fields {d : Nat} (r : LogRecord) : ∀ e ∈ r.fields, e.2.Valid d := by
  intro e he
  simp only [fields, List.mem_cons, List.not_mem_nil, or_false] at he
  rcases he with rfl | rfl | rfl | rfl | rfl | rfl | rfl | rfl | rfl
  case inl => exact Json.valid_natJson _
  case inr.inr.inr.inr.inr.inr.inr.inl => exact valid_optionJson _
  case inr.inr.inr.inr.inr.inr.inr.inr => exact valid_optionJson _
  all_goals exact .str _

/-- A record is read back from its fields. -/
theorem ofJson_fields (r : LogRecord) : ofJson (.obj (insertEntries r.fields [])) = some r := by
  have hget : ∀ key v, (key, v) ∈ r.fields →
      (Json.obj (insertEntries r.fields [])).get key = some v := by
    intro key v hmem
    exact lookup_insertEntries_nil r.nodup_fields hmem
  have hseq := hget "seq".toList _ (.head _)
  have htime := hget "timestamp".toList _ (.tail _ (.head _))
  have hlevel := hget "level".toList _ (.tail _ (.tail _ (.head _)))
  have htarget := hget "target".toList _ (.tail _ (.tail _ (.tail _ (.head _))))
  have hmodule := hget "module".toList _ (.tail _ (.tail _ (.tail _ (.tail _ (.head _)))))
  have hcategory := hget "category".toList _
    (.tail _ (.tail _ (.tail _ (.tail _ (.tail _ (.head _))))))
  have hmessage := hget "message".toList _
    (.tail _ (.tail _ (.tail _ (.tail _ (.tail _ (.tail _ (.head _)))))))
  have hspace := hget "space_id".toList _
    (.tail _ (.tail _ (.tail _ (.tail _ (.tail _ (.tail _ (.tail _ (.head _))))))))
  have htrace := hget "trace_id".toList _
    (.tail _ (.tail _ (.tail _ (.tail _ (.tail _ (.tail _ (.tail _ (.tail _ (.head _)))))))))
  simp only [ofJson, hseq, htime, hlevel, htarget, hmodule, hcategory, hmessage, hspace, htrace,
    Option.bind_some, Json.asStr, Json.readNatJson_natJson, LogLevel.ofName_name,
    LogCategory.ofName_name, readOption_optionJson, Option.bind_eq_bind, Option.pure_def]

/-- A record is read back from its line. -/
theorem ofText_toText (r : LogRecord) : ofText r.toText = some r := by
  rw [ofText, toText, Json.parse_printStruct r.valid_fields, Option.bind_some, ofJson_fields]

/-- A record is one line. -/
theorem newline_notMem_toText (r : LogRecord) : '\n' ∉ r.toText := by
  intro h
  have hvalid : ∀ e ∈ r.fields, e.2.Valid 0 := r.valid_fields
  have hprintable := Json.printable_printStruct
    (fun e he => Json.printable_print (hvalid e he)) _ h
  unfold Json.Printable at hprintable
  revert hprintable
  decide

theorem toText_getLast? (r : LogRecord) : r.toText.getLast? ≠ some '\r' := by
  rw [toText, Json.printStruct_getLast?]
  decide

end LogRecord

/-- The content of a log file. -/
def fileText (records : List LogRecord) : Str := unlines (records.map (·.toText))

/-- The records of a log file: lines that are no record are left out. -/
def readRecords (content : Str) : List LogRecord := (lines content).filterMap LogRecord.ofText

/-- A file of records is read back. -/
theorem readRecords_fileText (records : List LogRecord) :
    readRecords (fileText records) = records := by
  rw [readRecords, fileText, lines_unlines_of_clean]
  · rw [List.filterMap_map]
    have hid : LogRecord.ofText ∘ LogRecord.toText = some := funext LogRecord.ofText_toText
    rw [hid, List.filterMap_some]
  · intro l hl
    rcases List.mem_map.1 hl with ⟨r, -, rfl⟩
    exact r.newline_notMem_toText
  · intro l hl
    rcases List.mem_map.1 hl with ⟨r, -, rfl⟩
    exact r.toText_getLast?

end HomeTier
