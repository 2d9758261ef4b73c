import Mathlib.Algebra.BigOperators.Group.List.Basic
import HomeTier.Lib.JsonCut
import HomeTier.Log.ClearFiltered
import HomeTier.Log.Forward
import HomeTier.Log.Memory

/-! # Logs in frames

`GetLogs` and `WriteLog` between `IpcClient::send` (`send_sync`) of
`src-tauri/src/daemon/client.rs` and `handle_connection` of `daemon/mod.rs`.
Each end writes the length of its JSON modulo 2³² in front of it; each end
refuses a length above 10 MiB.

* A JSON that is too long is refused, or only its beginning is taken, and that is not read
  (`received_request`, `readResponse_response`).
* So a query has the records, and the records of the start come to the daemon, exactly if
  the JSON of the query, of its answer and of the records is no longer (`carries_iff`).
-/

namespace HomeTier.IpcFrames

open Lib

/-! ## Frames -/

/-- How either end reads a frame; `none`: too long, or the stream ends before. -/
def readFrame (stream : Bytes) : Option Bytes :=
  let len := fromLe32 (stream.take 4)
  if IpcClient.maxLen < len then none
  else if (stream.drop 4).length < len then none
  else some ((stream.drop 4).take len)

theorem fromLe32_le32_mod (n : Nat) : fromLe32 (le32 n) = n % 2 ^ 32 := by
  simp only [le32, fromLe32, UInt8.toNat_ofNat']
  omega

theorem readFrame_eq (content : Bytes) : readFrame (frame content) =
    if IpcClient.maxLen < content.length % 2 ^ 32 then none
    else some (content.take (content.length % 2 ^ 32)) := by
  have htake : (frame content).take 4 = le32 content.length := List.take_left' (le32_length _)
  have hdrop : (frame content).drop 4 = content := List.drop_left' (le32_length _)
  have hmod : content.length % 2 ^ 32 ≤ content.length := Nat.mod_le _ _
  simp only [readFrame, htake, hdrop, fromLe32_le32_mod]
  rw [if_neg (not_lt.2 hmod)]

theorem readFrame_frame {content : Bytes} (h : content.length ≤ IpcClient.maxLen) :
    readFrame (frame content) = some content := by
  have hmax : IpcClient.maxLen < 2 ^ 32 := by decide
  have hmod : content.length % 2 ^ 32 = content.length := Nat.mod_eq_of_lt (by omega)
  rw [readFrame_eq, hmod, if_neg (by omega), List.take_length]

/-- Of a content that is too long at most a beginning is taken. -/
theorem readFrame_cut {content b : Bytes} (h : IpcClient.maxLen < content.length)
    (hb : readFrame (frame content) = some b) : b <+: content ∧ b ≠ content := by
  rw [readFrame_eq] at hb
  split at hb
  · cases hb
  · rename_i hle
    cases hb
    refine ⟨List.take_prefix _ _, fun heq => ?_⟩
    have hlength := congrArg List.length heq
    rw [List.length_take] at hlength
    omega

/-! ## Requests and responses -/

/-- The requests about logs that have records or filters. -/
inductive Request where
  | getLogs (level : Option Str) (sinceSeq : Option Nat) (spaceId : Option Str)
  | writeLog (entries : List LogRecord)
deriving DecidableEq

inductive Response where
  | ok (data : Option Json)
  | error (message : Str)

/-- `to_value` of a record: the fields in the order of their names. -/
def toValue (r : LogRecord) : Json := .obj (insertEntries r.fields [])

def optionNat : Option Nat → Json
  | some n => Json.natJson n
  | none => .null

def getLogsFields (level : Option Str) (sinceSeq : Option Nat) (spaceId : Option Str) :
    List (Str × Json) :=
  [("type".toList, .str "GetLogs".toList), ("level".toList, LogRecord.optionJson level),
    ("since_seq".toList, optionNat sinceSeq), ("space_id".toList, LogRecord.optionJson spaceId)]

/-- `serde_json::to_string` -/
def Request.text : Request → Str
  | .getLogs level sinceSeq spaceId => Json.printStruct (getLogsFields level sinceSeq spaceId)
  | .writeLog entries => LogForward.writeLogText entries

def Response.fields : Response → List (Str × Json)
  | .ok data => [("type".toList, .str "Ok".toList), ("data".toList, data.getD .null)]
  | .error message => [("type".toList, .str "Error".toList), ("message".toList, .str message)]

def Response.text (r : Response) : Str := Json.printStruct r.fields

/-- `Option<u64>`, where an absent field is `None`. -/
def readOptionNat : Option Json → Option (Option Nat)
  | none => some none
  | some .null => some none
  | some v => (Json.readNatJson v).map some

def readRecords (xs : List Json) : Option (List LogRecord) := xs.mapM LogRecord.ofJson

def Request.ofJson (v : Json) : Option Request :=
  match (v.get "type".toList).bind Json.asStr with
  | some t =>
    if t = "GetLogs".toList then do
      let level ← LogRecord.readOption (v.get "level".toList)
      let sinceSeq ← readOptionNat (v.get "since_seq".toList)
      let spaceId ← LogRecord.readOption (v.get "space_id".toList)
      return .getLogs level sinceSeq spaceId
    else if t = "WriteLog".toList then
      ((v.get "entries".toList).bind Json.asArray).bind readRecords |>.map .writeLog
    else none
  | none => none

/-- `Option<Value>`: `null` is `None`. -/
def readOptionValue : Option Json → Option Json
  | some .null => none
  | v => v

def Response.ofJson (v : Json) : Option Response :=
  match (v.get "type".toList).bind Json.asStr with
  | some t =>
    if t = "Ok".toList then some (.ok (readOptionValue (v.get "data".toList)))
    else if t = "Error".toList then ((v.get "message".toList).bind Json.asStr).map .error
    else none
  | none => none

/-! ## The two ends -/

section Ends

variable (lower : Str → Str) (clock : Nat → Str) (parseError : Bytes → Str) (enabled : Bool)

/-- The entries of `WriteLog`, one after the other. -/
def logged (m : MemoryBackend) (entries : List LogRecord) : MemoryBackend :=
  if enabled then entries.zipIdx.foldl (fun m e => m.write (LogForward.handle (clock e.2) e.1)) m
  else m

/-- `handle_request`; `enabled` is the switch of the daemon's log. -/
def handleRequest (m : MemoryBackend) : Request → Response × MemoryBackend
  | .getLogs level sinceSeq spaceId =>
    (.ok (some (.arr ((getLogs lower m level sinceSeq spaceId).map toValue))), m)
  | .writeLog entries => (.ok none, logged clock enabled m entries)

/-- The request in a frame, if there is one. -/
def received (stream : Bytes) : Option Request :=
  (readFrame stream).bind fun buf => (Json.fromSlice buf).bind Request.ofJson

/-- `handle_connection` with one frame; `none`: the connection is closed. -/
def handleConnection (m : MemoryBackend) (stream : Bytes) : Option Response × MemoryBackend :=
  match readFrame stream with
  | none => (none, m)
  | some buf =>
    match (Json.fromSlice buf).bind Request.ofJson with
    | none => (some (.error ("解析请求失败: ".toList ++ parseError buf)), m)
    | some req =>
      let (resp, m) := handleRequest lower clock enabled m req
      (some resp, m)

/-- The response in a frame, if there is one. -/
def readResponse (stream : Bytes) : Option Response :=
  (readFrame stream).bind fun buf => (Json.fromSlice buf).bind Response.ofJson

/-- `send` and `send_sync`: the response, or `none` for an error of their own. -/
def send (m : MemoryBackend) (req : Request) : Option Response :=
  (handleConnection lower clock parseError enabled m (frame (utf8 req.text))).1.bind fun resp =>
    readResponse (frame (utf8 resp.text))

end Ends

/-! ## What is written is read -/

theorem valid_toValue {d : Nat} (r : LogRecord) : (toValue r).Valid (d + 1) :=
  Json.valid_insertEntries r.valid_fields (.obj sorted_nil (by simp))

theorem valid_records {d : Nat} (rs : List LogRecord) : (Json.arr (rs.map toValue)).Valid (d + 2) := by
  refine .arr ?_
  intro v hv
  rcases List.mem_map.1 hv with ⟨r, -, rfl⟩
  exact valid_toValue r

theorem readRecords_map (rs : List LogRecord) : readRecords (rs.map toValue) = some rs := by
  induction rs with
  | nil => rfl
  | cons r rs ih =>
    have hr : LogRecord.ofJson (toValue r) = some r := r.ofJson_fields
    rw [readRecords] at ih ⊢
    rw [List.map_cons, List.mapM_cons, hr, ih]
    rfl

theorem parseValue_toText {d : Nat} (r : LogRecord) (rest : Str) :
    Json.parseValue (d + 1) (r.toText ++ rest) = some (toValue r, rest) :=
  Json.parseValue_printStruct (fun e he => Json.parseValue_print (r.valid_fields e he)) rest

/-- Records are read from their texts, in the order of their fields. -/
theorem parseValue_toTexts {d : Nat} (rs : List LogRecord) (rest : Str) :
    Json.parseValue (d + 2) ('[' :: Json.joinGroup ']' (rs.map (·.toText)) ++ rest) =
      some (.arr (rs.map toValue), rest) := by
  have htext : ∀ r : LogRecord,
      ((LogRecord.ofJson (toValue r)).map LogRecord.toText).getD [] = r.toText := by
    intro r
    have hr : LogRecord.ofJson (toValue r) = some r := r.ofJson_fields
    rw [hr]
    rfl
  have htexts : rs.map (·.toText) = (rs.map toValue).map
      fun v => ((LogRecord.ofJson v).map LogRecord.toText).getD [] := by
    rw [List.map_map]
    exact List.map_congr_left fun r _ => (htext r).symm
  have hitem : ∀ v ∈ rs.map toValue, ∀ c r, c = ',' ∨ c = ']' →
      Json.parseValue (d + 1) (((LogRecord.ofJson v).map LogRecord.toText).getD [] ++ c :: r) =
        some (v, c :: r) := by
    intro v hv c r _
    rcases List.mem_map.1 hv with ⟨x, -, rfl⟩
    rw [htext]
    exact parseValue_toText x (c :: r)
  have hhead : ∀ v ∈ rs.map toValue, ∃ c r,
      ((LogRecord.ofJson v).map LogRecord.toText).getD [] = c :: r ∧ Json.isBlank c = false ∧
        c ≠ ']' := by
    intro v hv
    rcases List.mem_map.1 hv with ⟨x, -, rfl⟩
    rw [htext]
    exact ⟨'\x7b', _, rfl, by decide, by decide⟩
  have hgroup := Json.readGroup_join (Json.parseValue (d + 1)) ']'
    (fun v => ((LogRecord.ofJson v).map LogRecord.toText).getD []) (by decide) (by decide)
    hitem hhead rest
  have hbracket : Json.isBlank '[' = false := by decide
  rw [htexts, List.cons_append, Json.parseValue, Json.skipBlanks_cons hbracket]
  simp only [hgroup, Option.map_some]

theorem readEntry_quote {value : Str → Option (Json × Str)} {key t rest : Str} {v : Json}
    (hvalue : value (t ++ rest) = some (v, rest)) :
    Json.readEntry value (Json.quote key ++ ':' :: t ++ rest) = some ((key, v), rest) := by
  have hquote : Json.isBlank '"' = false := by decide
  have hcolon : Json.isBlank ':' = false := by decide
  have htext : Json.quote key ++ ':' :: t ++ rest =
      '"' :: (key.flatMap Json.escapeChar ++ '"' :: (':' :: (t ++ rest))) := by
    simp [Json.quote]
  rw [htext, Json.readEntry, Json.skipBlanks_cons hquote]
  simp only [Json.readString_escape, Option.bind_eq_bind, Option.bind_some,
    Json.skipBlanks_cons hcolon]
  rw [hvalue]
  rfl

def writeLogFields (rs : List LogRecord) : List (Str × Json) :=
  [("type".toList, .str "WriteLog".toList), ("entries".toList, .arr (rs.map toValue))]

/-- The request with its records in the order of their fields. -/
def writeLogEntry (rs : List LogRecord) (e : Str × Json) : Str :=
  if e.1 = "entries".toList then
    Json.quote e.1 ++ ':' :: '[' :: Json.joinGroup ']' (rs.map (·.toText))
  else Json.printEntry e

theorem writeLogEntry_of_entries (rs : List LogRecord) {e : Str × Json}
    (h : e.1 = "entries".toList) : writeLogEntry rs e =
      Json.quote e.1 ++ ':' :: '[' :: Json.joinGroup ']' (rs.map (·.toText)) := if_pos h

theorem writeLogEntry_of_ne (rs : List LogRecord) {e : Str × Json} (h : e.1 ≠ "entries".toList) :
    writeLogEntry rs e = Json.printEntry e := if_neg h

theorem writeLogText_eq (rs : List LogRecord) : LogForward.writeLogText rs =
    '\x7b' :: Json.joinGroup '\x7d' ((writeLogFields rs).map (writeLogEntry rs)) := by
  have htype : writeLogEntry rs ("type".toList, .str "WriteLog".toList) =
      "\"type\":\"WriteLog\"".toList := by
    rw [writeLogEntry_of_ne rs (by decide), Json.printEntry, Json.print]
    decide
  have hentries : writeLogEntry rs ("entries".toList, .arr (rs.map toValue)) =
      "\"entries\":[".toList ++ Json.joinGroup ']' (rs.map (·.toText)) := by
    have hquote : Json.quote "entries".toList = "\"entries\"".toList := by decide
    have hbody : ∀ body : Str,
        "\"entries\"".toList ++ ':' :: '[' :: body = "\"entries\":[".toList ++ body := fun _ => rfl
    rw [writeLogEntry_of_entries rs rfl, hquote]
    exact hbody _
  have hopen : "\x7b\"type\":\"WriteLog\",\"entries\":[".toList =
      '\x7b' :: ("\"type\":\"WriteLog\"".toList ++ ',' :: "\"entries\":[".toList) := by decide
  have hjoin : ∀ a b open_ : Str, '\x7b' :: (a ++ ',' :: b) = open_ → ∀ body : Str,
      open_ ++ body ++ ['\x7d'] =
        '\x7b' :: Json.joinGroup '\x7d' [a, b ++ body] := by
    rintro a b _ rfl body
    simp [Json.joinGroup, Json.joinItems]
  rw [writeLogFields, List.map_cons, List.map_cons, List.map_nil, htype, hentries]
  exact hjoin _ _ _ hopen.symm _

/-- The text of an object, with nothing around it. -/
structure Written (text : Str) (v : Json) : Prop where
  parse : Json.parse text = some v
  trim : trim text = text
  opens : ∃ rest, text = '\x7b' :: rest

theorem trim_group (ts : List Str) : trim ('\x7b' :: Json.joinGroup '\x7d' ts) =
    '\x7b' :: Json.joinGroup '\x7d' ts := by
  have hends : ∀ c ∈ ['\x7b', '\x7d'], isWhitespace c = false := forall_mem_of_all (by decide)
  apply trim_of_ends
  · rintro c hc
    cases hc
    exact hends _ (by simp)
  · intro c hc
    rw [List.getLast?_cons, Json.joinGroup_getLast?] at hc
    cases hc
    exact hends _ (by simp)

theorem written_printStruct {kvs : List (Str × Json)}
    (h : ∀ e ∈ kvs, e.2.Valid (Json.nestingLimit - 1)) :
    Written (Json.printStruct kvs) (.obj (insertEntries kvs [])) where
  parse := Json.parse_printStruct h
  trim := trim_group _
  opens := ⟨_, rfl⟩

theorem written_writeLogText (rs : List LogRecord) :
    Written (LogForward.writeLogText rs) (.obj (insertEntries (writeLogFields rs) [])) := by
  have hitem : ∀ e ∈ writeLogFields rs, ∀ c r, c = ',' ∨ c = '\x7d' →
      Json.readEntry (Json.parseValue 126) (writeLogEntry rs e ++ c :: r) = some (e, c :: r) := by
    intro e he c r hc
    simp only [writeLogFields, List.mem_cons, List.not_mem_nil, or_false] at he
    rcases he with rfl | rfl
    · rw [writeLogEntry_of_ne rs (by decide)]
      exact Json.readEntry_print (Json.parseValue_print (.str _) _
        (Json.ends_cons (by rcases hc with rfl | rfl <;> decide) r))
    · rw [writeLogEntry_of_entries rs rfl]
      exact readEntry_quote (parseValue_toTexts rs (c :: r))
  have hhead : ∀ e ∈ writeLogFields rs, ∃ c r, writeLogEntry rs e = c :: r ∧
      Json.isBlank c = false ∧ c ≠ '\x7d' := by
    intro e _
    unfold writeLogEntry
    split
    · exact ⟨'"', _, rfl, by decide, by decide⟩
    · exact ⟨'"', _, Json.printEntry_cons e, by decide, by decide⟩
  have hgroup := Json.readGroup_join (Json.readEntry (Json.parseValue 126)) '\x7d'
    (writeLogEntry rs) (by decide) (by decide) hitem hhead []
  have hbracket : Json.isBlank '\x7b' = false := by decide
  rw [List.append_nil] at hgroup
  rw [writeLogText_eq]
  refine ⟨?_, trim_group _, _, rfl⟩
  have hvalue : Json.parseValue Json.nestingLimit
      ('\x7b' :: Json.joinGroup '\x7d' ((writeLogFields rs).map (writeLogEntry rs))) =
        some (.obj (insertEntries (writeLogFields rs) []), []) := by
    rw [Json.nestingLimit, Json.parseValue, Json.skipBlanks_cons hbracket]
    simp only [hgroup, Option.map_some]
  rw [Json.parse, trim_group, hvalue]

/-- What is in a frame is read, unless it is too long. -/
theorem Written.readFrame {text : Str} {v : Json} (h : Written text v) :
    (readFrame (frame (utf8 text))).bind Json.fromSlice =
      if (utf8 text).length ≤ IpcClient.maxLen then some v else none := by
  split
  · rename_i hle
    rw [readFrame_frame hle, Option.bind_some, Json.fromSlice_utf8, h.parse]
  · rename_i hlong
    cases hb : IpcFrames.readFrame (frame (utf8 text)) with
    | none => rfl
    | some b =>
      rcases readFrame_cut (not_le.1 hlong) hb with ⟨hpre, hne⟩
      rcases h.opens with ⟨rest, hrest⟩
      exact Json.fromSlice_cut h.parse h.trim hrest (.inr rfl) hpre hne

/-! ## Requests and responses are read back -/

theorem valid_optionNat {d : Nat} (o : Option Nat) : (optionNat o).Valid d := by
  cases o with
  | none => exact .null
  | some n => exact Json.valid_natJson n

theorem readOptionNat_optionNat (o : Option Nat) : readOptionNat (some (optionNat o)) = some o := by
  cases o with
  | none => rfl
  | some n =>
    have hread := Json.readNatJson_natJson n
    have hsome : readOptionNat (some (Json.natJson n)) = (Json.readNatJson (Json.natJson n)).map some := by
      unfold Json.natJson
      split_ifs <;> rfl
    rw [optionNat, hsome, hread]
    rfl

/-- The value that a request is written as. -/
def Request.fields : Request → List (Str × Json)
  | .getLogs level sinceSeq spaceId => getLogsFields level sinceSeq spaceId
  | .writeLog entries => writeLogFields entries

theorem written_request (req : Request) :
    Written req.text (.obj (insertEntries req.fields [])) := by
  cases req with
  | writeLog entries => exact written_writeLogText entries
  | getLogs level sinceSeq spaceId =>
    refine written_printStruct ?_
    intro e he
    simp only [getLogsFields, List.mem_cons, List.not_mem_nil, or_false] at he
    rcases he with rfl | rfl | rfl | rfl
    · exact .str _
    · exact LogRecord.valid_optionJson _
    · exact valid_optionNat _
    · exact LogRecord.valid_optionJson _

theorem ofJson_getLogs {v : Json}
    (h : (v.get "type".toList).bind Json.asStr = some "GetLogs".toList) :
    Request.ofJson v = (LogRecord.readOption (v.get "level".toList)).bind fun level =>
      (readOptionNat (v.get "since_seq".toList)).bind fun sinceSeq =>
        (LogRecord.readOption (v.get "space_id".toList)).bind fun spaceId =>
          some (.getLogs level sinceSeq spaceId) := by
  rw [Request.ofJson, h]
  exact if_pos rfl

theorem ofJson_writeLog {v : Json}
    (h : (v.get "type".toList).bind Json.asStr = some "WriteLog".toList) :
    Request.ofJson v = (((v.get "entries".toList).bind Json.asArray).bind readRecords).map
      .writeLog := by
  have hne : "WriteLog".toList ≠ "GetLogs".toList := by decide
  rw [Request.ofJson, h]
  exact (if_neg hne).trans (if_pos rfl)

theorem ofJson_request (req : Request) :
    Request.ofJson (.obj (insertEntries req.fields [])) = some req := by
  cases req with
  | getLogs level sinceSeq spaceId =>
    have hnodup : ((getLogsFields level sinceSeq spaceId).map (·.1)).Nodup := by
      show ["type".toList, "level".toList, "since_seq".toList, "space_id".toList].Nodup
      decide
    have hget : ∀ key v, (key, v) ∈ getLogsFields level sinceSeq spaceId →
        (Json.obj (insertEntries (getLogsFields level sinceSeq spaceId) [])).get key = some v :=
      fun key v hmem => lookup_insertEntries_nil hnodup hmem
    have htype := hget "type".toList _ (.head _)
    have hlevel := hget "level".toList _ (.tail _ (.head _))
    have hsince := hget "since_seq".toList _ (.tail _ (.tail _ (.head _)))
    have hspace := hget "space_id".toList _ (.tail _ (.tail _ (.tail _ (.head _))))
    show Request.ofJson (.obj (insertEntries (getLogsFields level sinceSeq spaceId) [])) = _
    rw [ofJson_getLogs (by rw [htype]; rfl), hlevel, hsince, hspace,
      LogRecord.readOption_optionJson, readOptionNat_optionNat, LogRecord.readOption_optionJson]
    rfl
  | writeLog entries =>
    have hnodup : ((writeLogFields entries).map (·.1)).Nodup := by
      show ["type".toList, "entries".toList].Nodup
      decide
    have hget : ∀ key v, (key, v) ∈ writeLogFields entries →
        (Json.obj (insertEntries (writeLogFields entries) [])).get key = some v :=
      fun key v hmem => lookup_insertEntries_nil hnodup hmem
    have htype := hget "type".toList _ (.head _)
    have hentries := hget "entries".toList _ (.tail _ (.head _))
    show Request.ofJson (.obj (insertEntries (writeLogFields entries) [])) = _
    rw [ofJson_writeLog (by rw [htype]; rfl), hentries]
    show (readRecords (entries.map toValue)).map Request.writeLog = _
    rw [readRecords_map]
    rfl

/-- The daemon has the request that was sent exactly when it is no longer than 10 MiB. -/
theorem received_request (req : Request) : received (frame (utf8 req.text)) =
    if (utf8 req.text).length ≤ IpcClient.maxLen then some req else none := by
  have hread := (written_request req).readFrame
  rw [received, ← Option.bind_assoc, hread]
  split
  · exact ofJson_request req
  · rfl

/-- A response with a value, unless it is `null`, that is not nested too deeply. -/
def Response.Plain : Response → Prop
  | .ok (some v) => v.Valid (Json.nestingLimit - 1) ∧ v ≠ .null
  | _ => True

theorem Response.nodup_fields (r : Response) : (r.fields.map (·.1)).Nodup := by
  cases r with
  | ok data =>
    show ["type".toList, "data".toList].Nodup
    decide
  | error message =>
    show ["type".toList, "message".toList].Nodup
    decide

theorem ofJson_response {r : Response} (h : r.Plain) :
    Response.ofJson (.obj (insertEntries r.fields [])) = some r := by
  have hget : ∀ key v, (key, v) ∈ r.fields →
      (Json.obj (insertEntries r.fields [])).get key = some v :=
    fun key v hmem => lookup_insertEntries_nil r.nodup_fields hmem
  cases r with
  | ok data =>
    have htype := hget "type".toList _ (.head _)
    have hdata := hget "data".toList _ (.tail _ (.head _))
    have hvalue : readOptionValue (some (data.getD .null)) = data := by
      cases data with
      | none => rfl
      | some v =>
        cases v with
        | null => exact absurd rfl h.2
        | _ => rfl
    rw [Response.ofJson, htype]
    refine (if_pos rfl).trans ?_
    rw [hdata, hvalue]
  | error message =>
    have htype := hget "type".toList _ (.head _)
    have hmessage := hget "message".toList _ (.tail _ (.head _))
    have hne : "Error".toList ≠ "Ok".toList := by decide
    rw [Response.ofJson, htype]
    refine (if_neg hne).trans ((if_pos rfl).trans ?_)
    rw [hmessage]
    rfl

theorem written_response {r : Response} (h : r.Plain) :
    Written r.text (.obj (insertEntries r.fields [])) := by
  refine written_printStruct ?_
  intro e he
  cases r with
  | ok data =>
    rcases List.mem_cons.1 he with rfl | he
    · exact .str _
    · obtain rfl := List.mem_singleton.1 he
      cases data with
      | none => exact .null
      | some v => exact h.1
  | error message =>
    rcases List.mem_cons.1 he with rfl | he
    · exact .str _
    · obtain rfl := List.mem_singleton.1 he
      exact .str _

/-- So has the client the response. -/
theorem readResponse_response {r : Response} (h : r.Plain) :
    readResponse (frame (utf8 r.text)) =
      if (utf8 r.text).length ≤ IpcClient.maxLen then some r else none := by
  rw [readResponse, ← Option.bind_assoc, (written_response h).readFrame]
  split
  · exact ofJson_response h
  · rfl

section Ends

variable (lower : Str → Str) (clock : Nat → Str) (parseError : Bytes → Str) (enabled : Bool)
  (m : MemoryBackend)

theorem plain_handleRequest (req : Request) : (handleRequest lower clock enabled m req).1.Plain := by
  cases req with
  | getLogs level sinceSeq spaceId => exact ⟨valid_records _, nofun⟩
  | writeLog entries => trivial

/-- A request that is read is handled. -/
theorem handleConnection_of_received {stream : Bytes} {req : Request}
    (h : received stream = some req) :
    handleConnection lower clock parseError enabled m stream =
      (some (handleRequest lower clock enabled m req).1, (handleRequest lower clock enabled m req).2) := by
  rw [received] at h
  unfold handleConnection
  cases hframe : readFrame stream with
  | none =>
    rw [hframe, Option.bind_none] at h
    cases h
  | some buf =>
    rw [hframe, Option.bind_some] at h
    simp only [h]

/-- Any other one is answered with an error, or not at all. -/
theorem handleConnection_of_not_received {stream : Bytes} (h : received stream = none) :
    ∃ answer, handleConnection lower clock parseError enabled m stream = (answer, m) ∧
      ∀ r ∈ answer, ∃ message, r = .error message := by
  rw [received] at h
  unfold handleConnection
  cases hframe : readFrame stream with
  | none => exact ⟨none, rfl, fun r hr => absurd hr (Option.not_mem_none r)⟩
  | some buf =>
    rw [hframe, Option.bind_some] at h
    simp only [h]
    exact ⟨_, rfl, fun r hr => ⟨_, (Option.some.inj hr).symm⟩⟩

/-- The caller has the daemon's answer exactly when neither text is longer than 10 MiB. -/
theorem send_eq_ok_iff (req : Request) (data : Option Json)
    (hdata : (handleRequest lower clock enabled m req).1 = .ok data) :
    send lower clock parseError enabled m req = some (.ok data) ↔
      (utf8 req.text).length ≤ IpcClient.maxLen ∧
        (utf8 (Response.ok data).text).length ≤ IpcClient.maxLen := by
  have hplain := plain_handleRequest lower clock enabled m req
  have hreceived := received_request req
  by_cases hle : (utf8 req.text).length ≤ IpcClient.maxLen
  · rw [if_pos hle] at hreceived
    rw [send, handleConnection_of_received lower clock parseError enabled m hreceived, Option.bind_some,
      readResponse_response hplain, hdata, Option.ite_none_right_eq_some, and_iff_left rfl,
      and_iff_right hle]
  · rw [if_neg hle] at hreceived
    obtain ⟨answer, heq, herror⟩ :=
      handleConnection_of_not_received lower clock parseError enabled m hreceived
    refine iff_of_false ?_ fun h => hle h.1
    rw [send, heq]
    intro h
    obtain ⟨r, hr, hread⟩ := Option.bind_eq_some_iff.1 h
    obtain ⟨message, rfl⟩ := herror r hr
    rw [readResponse_response (r := .error message) trivial, Option.ite_none_right_eq_some] at hread
    cases hread.2

end Ends

/-! ## The stores of a run -/

/-- What changes a store. -/
inductive StoreOp where
  | write (record : LogRecord)
  | restore (records : List LogRecord)
  | clear
  | clearFiltered (filter : LogFilter)

section Stores

variable (lower : Str → Str) (clock : Nat → Str) (parseError : Bytes → Str) (enabled : Bool)

def StoreOp.apply (m : MemoryBackend) : StoreOp → MemoryBackend
  | .write record => m.write record
  | .restore records => m.restore records
  | .clear => { m with store := [] }
  | .clearFiltered filter => m.clearFiltered lower filter

/-- The store after a run. -/
def storeAfter (ops : List StoreOp) : MemoryBackend :=
  ops.foldl (StoreOp.apply lower) (MemoryBackend.new LogForward.maxEntries)

/-- What is asked of the records of a query. -/
def answerOf (daemon : MemoryBackend) (level : Option Str) (sinceSeq : Option Nat)
    (spaceId : Option Str) : Response :=
  .ok (some (.arr ((getLogs lower daemon level sinceSeq spaceId).map toValue)))

/-- A query of the daemon's records has them, and the records that the GUI has at its start
come to the daemon. -/
structure Carries (gui daemon : MemoryBackend) (level : Option Str) (sinceSeq : Option Nat)
    (spaceId : Option Str) : Prop where
  queries : send lower clock parseError enabled daemon (.getLogs level sinceSeq spaceId) =
    some (answerOf lower daemon level sinceSeq spaceId)
  starts : gui.store ≠ [] → handleConnection lower clock parseError enabled daemon
    (frame (utf8 (Request.writeLog gui.store).text)) =
      (some (.ok none), logged clock enabled daemon gui.store)

/-- None of the three is longer than 10 MiB. -/
structure Fits (gui daemon : MemoryBackend) (level : Option Str) (sinceSeq : Option Nat)
    (spaceId : Option Str) : Prop where
  query : (utf8 (Request.getLogs level sinceSeq spaceId).text).length ≤ IpcClient.maxLen
  answer : (utf8 (answerOf lower daemon level sinceSeq spaceId).text).length ≤ IpcClient.maxLen
  start : gui.store ≠ [] →
    (utf8 (Request.writeLog gui.store).text).length ≤ IpcClient.maxLen

theorem handleConnection_writeLog (m : MemoryBackend) (entries : List LogRecord) :
    handleConnection lower clock parseError enabled m (frame (utf8 (Request.writeLog entries).text)) =
        (some (.ok none), logged clock enabled m entries) ↔
      (utf8 (Request.writeLog entries).text).length ≤ IpcClient.maxLen := by
  have hreceived := received_request (.writeLog entries)
  by_cases hle : (utf8 (Request.writeLog entries).text).length ≤ IpcClient.maxLen
  · rw [if_pos hle] at hreceived
    rw [handleConnection_of_received lower clock parseError enabled m hreceived]
    exact iff_of_true rfl hle
  · rw [if_neg hle] at hreceived
    obtain ⟨answer, heq, herror⟩ :=
      handleConnection_of_not_received lower clock parseError enabled m hreceived
    refine iff_of_false ?_ hle
    intro h
    rw [heq] at h
    obtain ⟨message, hmessage⟩ := herror _ (congrArg Prod.fst h)
    cases hmessage

/-- What runs leave in the two stores is carried exactly if it fits. -/
theorem carries_iff (gui daemon : List StoreOp) (level : Option Str) (sinceSeq : Option Nat)
    (spaceId : Option Str) :
    Carries lower clock parseError enabled (storeAfter lower gui) (storeAfter lower daemon) level
        sinceSeq spaceId ↔
      Fits lower (storeAfter lower gui) (storeAfter lower daemon) level sinceSeq spaceId := by
  have hquery := send_eq_ok_iff lower clock parseError enabled (storeAfter lower daemon)
    (.getLogs level sinceSeq spaceId) _ rfl
  constructor
  · intro ⟨hqueries, hstarts⟩
    obtain ⟨hrequest, hanswer⟩ := hquery.1 hqueries
    exact ⟨hrequest, hanswer, fun hne => (handleConnection_writeLog ..).1 (hstarts hne)⟩
  · intro ⟨hrequest, hanswer, hstart⟩
    exact ⟨hquery.2 ⟨hrequest, hanswer⟩, fun hne => (handleConnection_writeLog ..).2 (hstart hne)⟩

end Stores

end HomeTier.IpcFrames
