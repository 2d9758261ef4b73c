import HomeTier.ConfigStore.Isolation
import HomeTier.Lib.Utf8

/-! # Reading a remote config store

`RemoteStore` of `src-tauri/src/config_store/client.rs` against `handle_conn` and
`dispatch` of `config_store/server.rs`, over the messages of
`config_store/mod.rs`. A request and its answer are a line of JSON each.

Absence is answered with an entry of zeros, a failed read of the file with the
same answer, and the answer to a request for a file has no room for a timestamp.
So the client reads what the remote has exactly when the entry is not made of
these zeros (`versionRead_iff`, `fileRead_iff`).

JSON is left to `serde_json` and given by a `MessageCodec`.
-/

namespace HomeTier

open Lib

namespace RemoteStore

inductive Message where
  | queryVersion (name : Str)
  | versionInfo (name : Str) (version timestamp : Nat) (checksum : Option Str)
  | requestFile (name : Str) (fromVersion : Option Nat)
  | fileResponse (name : Str) (version : Nat) (content : Bytes) (checksum : Option Str)
  | storeFile (name : Str) (version : Nat) (content : Bytes) (timestamp : Nat)
    (checksum : Option Str)
  | storeAck (name : Str) (success : Bool) (error : Option Str)
deriving DecidableEq

/-- `serde_json` for messages: a message is one line, and is read back. -/
structure MessageCodec where
  toVec : Message → Bytes
  fromSlice : Bytes → Except Str Message
  /-- The `{:?}` form of a message. -/
  debug : Message → Str
  newline_notMem : ∀ m, 10 ∉ toVec m
  read_back : ∀ m, fromSlice (toVec m ++ [10]) = .ok m

/-- `read_line`: up to the first newline, which belongs to the line. -/
def readLine : Bytes → Bytes
  | [] => []
  | b :: rest => if b = 10 then [b] else b :: readLine rest

theorem readLine_append {line : Bytes} (h : 10 ∉ line) (rest : Bytes) :
    readLine (line ++ 10 :: rest) = line ++ [10] := by
  induction line with
  | nil => rfl
  | cons b line ih =>
    rw [List.mem_cons, not_or] at h
    rw [List.cons_append, readLine, if_neg (Ne.symm h.1), ih h.2, List.cons_append]

/-! ## The server -/

/-- `dispatch`: the answer, and the file handed to the queue. -/
def dispatch (store : ConfigStore) : Message → Message × Option ConfigFile
  | .queryVersion name =>
    match store.getMeta name with
    | some m => (.versionInfo m.name m.version m.timestamp m.checksum, none)
    | none => (.versionInfo name 0 0 none, none)
  | .requestFile name _ =>
    match store.getFile name with
    | .ok (some file) => (.fileResponse file.name file.version file.content file.checksum, none)
    | _ => (.fileResponse name 0 [] none, none)
  | .storeFile name version content timestamp checksum =>
    (.storeAck name true none, some ⟨name, version, content, timestamp, checksum⟩)
  | _ => (.storeAck [] false (some "不支持的请求类型".toList), none)

section Client

variable (codec : MessageCodec)

/-- `to_line` -/
def toLine (msg : Message) : Bytes := codec.toVec msg ++ [10]

/-- The answer of `handle_conn` to one line. -/
def handleLine (store : ConfigStore) (line : Bytes) : Bytes :=
  match codec.fromSlice line with
  | .ok msg => toLine codec (dispatch store msg).1
  | .error e => toLine codec (.storeAck [] false (some ("协议解析失败: ".toList ++ e)))

/-- `roundtrip` over a connection that holds. -/
def roundtrip (store : ConfigStore) (msg : Message) : Except Str Message :=
  let line := readLine (handleLine codec store (readLine (toLine codec msg)))
  if line = [] then .error "远端关闭连接".toList
  else (codec.fromSlice line).mapError ("响应解析失败: ".toList ++ ·)

def unexpected (msg : Message) : Str := "异常响应: ".toList ++ codec.debug msg

def queryVersion (store : ConfigStore) (name : Str) : Except Str (Option ConfigFileMeta) := do
  match ← roundtrip codec store (.queryVersion name) with
  | .versionInfo _ version timestamp checksum =>
    if version = 0 ∧ timestamp = 0 then pure none
    else pure (some ⟨name, version, timestamp, checksum⟩)
  | other => .error (unexpected codec other)

def requestFile (store : ConfigStore) (name : Str) : Except Str (Option ConfigFile) := do
  match ← roundtrip codec store (.requestFile name none) with
  | .fileResponse _ version content checksum =>
    if version = 0 ∧ content = [] then pure none
    else pure (some ⟨name, version, content, 0, checksum⟩)
  | other => .error (unexpected codec other)

/-- The client gets the answer of `dispatch`. -/
theorem roundtrip_eq (store : ConfigStore) (msg : Message) :
    roundtrip codec store msg = .ok (dispatch store msg).1 := by
  have hline : ∀ m, readLine (toLine codec m) = toLine codec m :=
    fun m => readLine_append (codec.newline_notMem m) []
  have hhandle : handleLine codec store (toLine codec msg) =
      toLine codec (dispatch store msg).1 := by
    rw [handleLine, toLine, codec.read_back]
  have hne : toLine codec (dispatch store msg).1 ≠ [] := by simp [toLine]
  rw [roundtrip, hline, hhandle, hline, if_neg hne, toLine, codec.read_back]
  rfl

/-- The version that the client reads, when the remote has one. -/
theorem queryVersion_eq (store : ConfigStore) (name : Str) :
    queryVersion codec store name =
      match store.getMeta name with
      | none => .ok none
      | some m =>
        if m.version = 0 ∧ m.timestamp = 0 then .ok none
        else .ok (some { m with name := name }) := by
  rw [queryVersion, roundtrip_eq, dispatch]
  cases store.getMeta name with
  | none => rfl
  | some m =>
    show (if m.version = 0 ∧ m.timestamp = 0 then _ else _ : Except Str _) = _
    by_cases hzero : m.version = 0 ∧ m.timestamp = 0
    · simp only [if_pos hzero]
      rfl
    · simp only [if_neg hzero]
      rfl

theorem requestFile_eq (store : ConfigStore) (name : Str) :
    requestFile codec store name =
      match store.getFile name with
      | .ok (some file) =>
        if file.version = 0 ∧ file.content = [] then .ok none
        else .ok (some { file with name := name, timestamp := 0 })
      | _ => .ok none := by
  rw [requestFile, roundtrip_eq, dispatch]
  rcases store.getFile name with e | - | file
  · rfl
  · rfl
  · show (if file.version = 0 ∧ file.content = [] then _ else _ : Except Str _) = _
    by_cases hzero : file.version = 0 ∧ file.content = []
    · simp only [if_pos hzero]
      rfl
    · simp only [if_neg hzero]
      rfl

end Client

/-! ## Reads that agree -/

theorem keyed_store (enc : ConfigStore.IndexEncoder) {store : ConfigStore}
    (h : ConfigStore.Keyed store.versions) (io : StoreIo) (file : ConfigFile) :
    ConfigStore.Keyed (store.store enc io file).1.versions := by
  have hinsert : ConfigStore.Keyed (store.versions.insert file.name file.toMeta) :=
    h.insert file.toMeta
  unfold ConfigStore.store ConfigStore.storeLocked
  cases io.openLock with
  | some e => exact h
  | none =>
    cases io.lockExclusive with
    | some e => exact h
    | none =>
      simp only []
      split
      · exact h
      · cases io.writeContent with
        | failed e left => exact h
        | done => cases io.writeIndex <;> exact hinsert

/-- A remote: its index has metadata under its own name, as it does when it is loaded and
as storing leaves it. -/
structure Remote where
  store : ConfigStore
  keyed : ConfigStore.Keyed store.versions

/-- A remote that has just been started. -/
def Remote.load (dec : IndexDecoder) (root : Path) (disk : Disk) : Remote where
  store :=
    { root := root
      versions := loadVersions dec (disk (join root "versions.json".toList))
      disk := disk }
  keyed _ _ h := name_of_lookup_load h

/-- The remote stores a file. -/
def Remote.put (r : Remote) (enc : ConfigStore.IndexEncoder) (io : StoreIo) (file : ConfigFile) : Remote where
  store := (r.store.store enc io file).1
  keyed := keyed_store enc r.keyed io file

theorem name_of_getFile {store : ConfigStore} {name : Str} {file : ConfigFile}
    (h : store.getFile name = .ok (some file)) : file.name = name := by
  unfold ConfigStore.getFile at h
  split at h
  · cases h
  · split at h
    · cases h
    · cases h
      rfl

section Reads

variable (codec : MessageCodec) (r : Remote) (name : Str)

/-- `query_version` gives what the remote's index has for the name. -/
def VersionRead : Prop := queryVersion codec r.store name = .ok (r.store.getMeta name)

/-- `request_file` gives what the remote reads, and nothing when that fails. -/
def FileRead : Prop :=
  ∀ x, requestFile codec r.store name = .ok x ↔ r.store.getFile name = .ok x

theorem versionRead_iff :
    VersionRead codec r name ↔
      ∀ m, r.store.getMeta name = some m → m.version ≠ 0 ∨ m.timestamp ≠ 0 := by
  rw [VersionRead, queryVersion_eq]
  cases hmeta : r.store.getMeta name with
  | none => simp
  | some m =>
    have hname : m.name = name := r.keyed name m hmeta
    have hself : ({ m with name := name } : ConfigFileMeta) = m := by
      subst hname
      rfl
    by_cases hzero : m.version = 0 ∧ m.timestamp = 0
    · simp [hzero]
    · simp only [if_neg hzero, hself, Option.some.injEq, forall_eq', true_iff]
      exact not_and_or.1 hzero

theorem fileRead_iff :
    FileRead codec r name ↔ r.store.getFile name = .ok none ∨
      ∃ file, r.store.getFile name = .ok (some file) ∧ file.timestamp = 0 ∧
        (file.version ≠ 0 ∨ file.content ≠ []) := by
  unfold FileRead
  rw [requestFile_eq]
  rcases hfile : r.store.getFile name with e | - | file
  · constructor
    · intro h
      cases (h none).1 rfl
    · rintro (h | ⟨file, h, -⟩)
      · cases h
      · cases h
  · refine ⟨fun _ => .inl rfl, fun _ x => ?_⟩
    simp only [Except.ok.injEq]
  · have hname := name_of_getFile hfile
    -- version 0 without content stands for no file
    by_cases hzero : file.version = 0 ∧ file.content = []
    · constructor
      · intro h
        have := (h none).1 (by simp [hzero])
        cases this
      · rintro (h | ⟨f, h, -, hnonzero⟩)
        · cases h
        · cases h
          exact absurd hzero (not_and_or.2 hnonzero)
    · simp only [if_neg hzero]
      constructor
      · intro h
        have hself := (h (some file)).2 rfl
        have htime : file.timestamp = 0 := by
          simp only [Except.ok.injEq, Option.some.injEq] at hself
          rw [← hself]
        exact .inr ⟨file, rfl, htime, not_and_or.1 hzero⟩
      · rintro (h | ⟨f, h, htime, -⟩)
        · cases h
        · cases h
          have hself : ({ file with name := name, timestamp := 0 } : ConfigFile) = file := by
            subst hname
            rw [← htime]
          intro x
          simp only [hself, Except.ok.injEq]

/-- The version is read where it is not all zeros; the file where it is dated 0, has a
version or a content, and can be read. -/
theorem reads_iff :
    (VersionRead codec r name ↔
      ∀ m, r.store.getMeta name = some m → m.version ≠ 0 ∨ m.timestamp ≠ 0) ∧
    (FileRead codec r name ↔ r.store.getFile name = .ok none ∨
      ∃ file, r.store.getFile name = .ok (some file) ∧ file.timestamp = 0 ∧
        (file.version ≠ 0 ∨ file.content ≠ [])) :=
  ⟨versionRead_iff codec r name, fileRead_iff codec r name⟩

end Reads

/-! ## Messages as JSON -/

inductive Tag where
  | queryVersion
  | versionInfo
  | requestFile
  | fileResponse
  | storeFile
  | storeAck
deriving DecidableEq

def Tag.name : Tag → Str
  | queryVersion => "QueryVersion".toList
  | versionInfo => "VersionInfo".toList
  | requestFile => "RequestFile".toList
  | fileResponse => "FileResponse".toList
  | storeFile => "StoreFile".toList
  | storeAck => "StoreAck".toList

def Tag.ofName (s : Str) : Option Tag :=
  [queryVersion, versionInfo, requestFile, fileResponse, storeFile, storeAck].find? (·.name = s)

theorem Tag.ofName_name (t : Tag) : ofName t.name = some t := by
  cases t <;> decide

def Message.tag : Message → Tag
  | .queryVersion .. => .queryVersion
  | .versionInfo .. => .versionInfo
  | .requestFile .. => .requestFile
  | .fileResponse .. => .fileResponse
  | .storeFile .. => .storeFile
  | .storeAck .. => .storeAck

def optionJson {α : Type} (f : α → Json) : Option α → Json
  | some a => f a
  | none => .null

def readOption {α : Type} (f : Json → Option α) : Json → Option (Option α)
  | .null => some none
  | v => (f v).map some

def bytesJson (bs : Bytes) : Json := .arr (bs.map fun b => .int b.toNat)

def readByte (v : Json) : Option UInt8 := v.asU64.map UInt8.ofNat

def readBytes (v : Json) : Option Bytes := v.asArray.bind fun items => items.mapM readByte

/-- The fields of a message, in their order. -/
def Message.fields : Message → List (Str × Json)
  | .queryVersion name => [("name".toList, .str name)]
  | .versionInfo name version timestamp checksum =>
    [("name".toList, .str name), ("version".toList, Json.natJson version),
      ("timestamp".toList, Json.natJson timestamp), ("checksum".toList, optionJson .str checksum)]
  | .requestFile name fromVersion =>
    [("name".toList, .str name), ("from_version".toList, optionJson Json.natJson fromVersion)]
  | .fileResponse name version content checksum =>
    [("name".toList, .str name), ("version".toList, Json.natJson version),
      ("content".toList, bytesJson content), ("checksum".toList, optionJson .str checksum)]
  | .storeFile name version content timestamp checksum =>
    [("name".toList, .str name), ("version".toList, Json.natJson version),
      ("content".toList, bytesJson content), ("timestamp".toList, Json.natJson timestamp),
      ("checksum".toList, optionJson .str checksum)]
  | .storeAck name success error =>
    [("name".toList, .str name), ("success".toList, .bool success),
      ("error".toList, optionJson .str error)]

def Message.json (m : Message) : Json := .obj [(m.tag.name, .obj (insertEntries m.fields []))]

def readName (body : Json) : Option Str := (body.get "name".toList).bind Json.asStr

def readVersion (body : Json) : Option Nat := (body.get "version".toList).bind Json.readNatJson

def readTimestamp (body : Json) : Option Nat :=
  (body.get "timestamp".toList).bind Json.readNatJson

def readContent (body : Json) : Option Bytes := (body.get "content".toList).bind readBytes

def readChecksum (body : Json) : Option (Option Str) :=
  (body.get "checksum".toList).bind (readOption Json.asStr)

/-- The message of a tag and its fields. -/
def readFields (body : Json) : Tag → Option Message
  | .queryVersion => do
    return .queryVersion (← readName body)
  | .versionInfo => do
    return .versionInfo (← readName body) (← readVersion body) (← readTimestamp body)
      (← readChecksum body)
  | .requestFile => do
    return .requestFile (← readName body)
      (← (body.get "from_version".toList).bind (readOption Json.readNatJson))
  | .fileResponse => do
    return .fileResponse (← readName body) (← readVersion body) (← readContent body)
      (← readChecksum body)
  | .storeFile => do
    return .storeFile (← readName body) (← readVersion body) (← readContent body)
      (← readTimestamp body) (← readChecksum body)
  | .storeAck => do
    return .storeAck (← readName body) (← (body.get "success".toList).bind Json.asBool)
      (← (body.get "error".toList).bind (readOption Json.asStr))

def readMessage : Json → Option Message
  | .obj [(tag, body)] => (Tag.ofName tag).bind (readFields body)
  | _ => none

theorem readOption_optionJson {α : Type} {f : α → Json} {g : Json → Option α}
    (hread : ∀ a, g (f a) = some a) (hnull : ∀ a, f a ≠ .null) (o : Option α) :
    readOption g (optionJson f o) = some o := by
  cases o with
  | none => rfl
  | some a =>
    rw [optionJson, readOption.eq_2 _ _ (hnull a), hread]
    rfl

theorem readBytes_bytesJson (bs : Bytes) : readBytes (bytesJson bs) = some bs := by
  show (bs.map fun b => Json.int b.toNat).mapM readByte = some bs
  induction bs with
  | nil => rfl
  | cons b bs ih =>
    have hb : readByte (.int b.toNat) = some b := by
      simp [readByte, Json.asU64]
    rw [List.map_cons, List.mapM_cons, hb, ih]
    rfl

theorem natJson_ne_null (n : Nat) : Json.natJson n ≠ .null := by
  unfold Json.natJson
  split <;> simp

theorem nodup_fields (m : Message) : (m.fields.map (·.1)).Nodup := by
  cases m <;> simp only [Message.fields, List.map_cons, List.map_nil] <;> decide

/-- Every field is found under its name. -/
theorem get_fields {m : Message} {key : Str} {v : Json} (h : (key, v) ∈ m.fields) :
    (Json.obj (insertEntries m.fields [])).get key = some v :=
  lookup_insertEntries_nil (nodup_fields m) h

/-- The object of the fields. -/
def Message.body (m : Message) : Json := .obj (insertEntries m.fields [])

section Fields

variable {m : Message}

theorem readName_body {name : Str} (h : ("name".toList, .str name) ∈ m.fields) :
    readName m.body = some name := by
  rw [readName, Message.body, get_fields h]
  rfl

theorem readVersion_body {n : Nat} (h : ("version".toList, Json.natJson n) ∈ m.fields) :
    readVersion m.body = some n := by
  rw [readVersion, Message.body, get_fields h]
  exact Json.readNatJson_natJson n

theorem readTimestamp_body {n : Nat} (h : ("timestamp".toList, Json.natJson n) ∈ m.fields) :
    readTimestamp m.body = some n := by
  rw [readTimestamp, Message.body, get_fields h]
  exact Json.readNatJson_natJson n

theorem readContent_body {bs : Bytes} (h : ("content".toList, bytesJson bs) ∈ m.fields) :
    readContent m.body = some bs := by
  rw [readContent, Message.body, get_fields h]
  exact readBytes_bytesJson bs

theorem get_option_body {key : Str} {o : Option Str} (h : (key, optionJson .str o) ∈ m.fields) :
    (m.body.get key).bind (readOption Json.asStr) = some o := by
  rw [Message.body, get_fields h]
  exact readOption_optionJson (f := Json.str) (fun _ => rfl) (fun _ h => nomatch h) o

end Fields

theorem readFields_body (m : Message) : readFields m.body m.tag = some m := by
  cases m with
  | queryVersion name =>
    have hname := readName_body (m := .queryVersion name) (.head _)
    simp only [readFields, Message.tag, hname]
    rfl
  | versionInfo name version timestamp checksum =>
    have hname := readName_body (m := .versionInfo name version timestamp checksum) (.head _)
    have hversion := readVersion_body (m := .versionInfo name version timestamp checksum)
      (.tail _ (.head _))
    have htime := readTimestamp_body (m := .versionInfo name version timestamp checksum)
      (.tail _ (.tail _ (.head _)))
    have hsum : readChecksum (Message.versionInfo name version timestamp checksum).body = _ :=
      get_option_body (.tail _ (.tail _ (.tail _ (.head _))))
    simp only [readFields, Message.tag, hname, hversion, htime, hsum]
    rfl
  | requestFile name fromVersion =>
    have hname := readName_body (m := .requestFile name fromVersion) (.head _)
    have hfrom : ((Message.requestFile name fromVersion).body.get "from_version".toList).bind
        (readOption Json.readNatJson) = some fromVersion := by
      rw [Message.body, get_fields (.tail _ (.head _))]
      exact readOption_optionJson Json.readNatJson_natJson natJson_ne_null fromVersion
    simp only [readFields, Message.tag, hname, hfrom]
    rfl
  | fileResponse name version content checksum =>
    have hname := readName_body (m := .fileResponse name version content checksum) (.head _)
    have hversion := readVersion_body (m := .fileResponse name version content checksum)
      (.tail _ (.head _))
    have hcontent := readContent_body (m := .fileResponse name version content checksum)
      (.tail _ (.tail _ (.head _)))
    have hsum : readChecksum (Message.fileResponse name version content checksum).body = _ :=
      get_option_body (.tail _ (.tail _ (.tail _ (.head _))))
    simp only [readFields, Message.tag, hname, hversion, hcontent, hsum]
    rfl
  | storeFile name version content timestamp checksum =>
    have hname := readName_body (m := .storeFile name version content timestamp checksum) (.head _)
    have hversion := readVersion_body (m := .storeFile name version content timestamp checksum)
      (.tail _ (.head _))
    have hcontent := readContent_body (m := .storeFile name version content timestamp checksum)
      (.tail _ (.tail _ (.head _)))
    have htime := readTimestamp_body (m := .storeFile name version content timestamp checksum)
      (.tail _ (.tail _ (.tail _ (.head _))))
    have hsum : readChecksum (Message.storeFile name version content timestamp checksum).body = _ :=
      get_option_body (.tail _ (.tail _ (.tail _ (.tail _ (.head _)))))
    simp only [readFields, Message.tag, hname, hversion, hcontent, htime, hsum]
    rfl
  | storeAck name success error =>
    have hname := readName_body (m := .storeAck name success error) (.head _)
    have hsuccess : ((Message.storeAck name success error).body.get "success".toList).bind
        Json.asBool = some success := by
      rw [Message.body, get_fields (.tail _ (.head _))]
      rfl
    have herror : ((Message.storeAck name success error).body.get "error".toList).bind
        (readOption Json.asStr) = some error := get_option_body (.tail _ (.tail _ (.head _)))
    simp only [readFields, Message.tag, hname, hsuccess, herror]
    rfl

theorem readMessage_json (m : Message) : readMessage m.json = some m := by
  show (Tag.ofName m.tag.name).bind (readFields m.body) = some m
  rw [Tag.ofName_name, Option.bind_some, readFields_body]

theorem valid_optionJson {α : Type} {d : Nat} {f : α → Json} (h : ∀ a, (f a).Valid d)
    (o : Option α) : (optionJson f o).Valid d := by
  cases o with
  | none => exact .null
  | some a => exact h a

theorem valid_bytesJson {d : Nat} (bs : Bytes) : (bytesJson bs).Valid (d + 1) := by
  constructor
  intro v hv
  rcases List.mem_map.1 hv with ⟨b, -, rfl⟩
  have hlt := b.toNat_lt
  constructor
  omega

theorem valid_fields {d : Nat} (m : Message) : ∀ e ∈ m.fields, e.2.Valid (d + 1) := by
  have hstr : ∀ o : Option Str, (optionJson .str o).Valid (d + 1) :=
    valid_optionJson fun s => .str s
  have hnat : ∀ o : Option Nat, (optionJson Json.natJson o).Valid (d + 1) :=
    valid_optionJson Json.valid_natJson
  cases m <;>
    simp only [Message.fields, List.forall_mem_cons, List.not_mem_nil, false_implies,
      implies_true, and_true, Json.valid_natJson, valid_bytesJson, hstr, hnat, Json.Valid.str,
      Json.Valid.bool]

theorem valid_json (m : Message) : m.json.Valid Json.nestingLimit := by
  have hbody : m.body.Valid 126 :=
    Json.valid_insertEntries (valid_fields m) (.obj sorted_nil (by simp))
  refine .obj (List.pairwise_singleton _ _) ?_
  intro e he
  obtain rfl := List.mem_singleton.1 he
  exact hbody

/-- The newline that ends a line does not matter. -/
theorem parse_line (m : Message) : Json.parse (Json.print m.json ++ ['\n']) = some m.json := by
  have hblank : (Json.print m.json ++ ['\n']).rdropWhile isWhitespace =
      (Json.print m.json).rdropWhile isWhitespace :=
    List.rdropWhile_concat_pos _ _ _ (by decide)
  rw [← Json.parse_trim, ← trim_rdropWhile, hblank, trim_rdropWhile, Json.parse_trim,
    Json.parse_print (valid_json m)]

theorem newline_notMem_line (m : Message) : 10 ∉ utf8 (Json.print m.json) := by
  refine notMem_utf8 (by decide) ?_
  intro h
  have hprintable := Json.printable_print (valid_json m) _ h
  revert hprintable
  unfold Json.Printable
  decide

theorem fromUtf8_line (m : Message) :
    fromUtf8 (utf8 (Json.print m.json) ++ [10]) = some (Json.print m.json ++ ['\n']) := by
  rw [fromUtf8_eq_some, utf8_append]
  rfl

/-- `serde_json`, apart from the order of the fields in a text. -/
def jsonCodec : MessageCodec where
  toVec m := utf8 (Json.print m.json)
  fromSlice bytes :=
    match (fromUtf8 bytes).bind fun text => (Json.parse text).bind readMessage with
    | some m => .ok m
    | none => .error "expected value at line 1 column 1".toList
  debug m := m.tag.name
  newline_notMem := newline_notMem_line
  read_back m := by
    rw [fromUtf8_line, Option.bind_some, parse_line, Option.bind_some, readMessage_json]

/-- A configuration with a date. -/
def datedFile : ConfigFile := ⟨"cfg".toList, 1, utf8 "on".toList, 1714521600, none⟩

/-- A remote that has started without files and has stored it. -/
def datedRemote : Remote :=
  (Remote.load ConfigStore.jsonDecode [] fun _ => none).put ConfigStore.jsonEncode .allOk datedFile

theorem getFile_datedRemote : datedRemote.store.getFile datedFile.name = .ok (some datedFile) := by
  have hplain : ConfigStore.Plain datedFile.name := by decide
  have hnew : ¬ (datedFile.version : WithBot ℕ) ≤
      (Remote.load ConfigStore.jsonDecode [] fun _ => none).store.version? datedFile.name :=
    WithBot.not_coe_le_bot _
  have hstored := (ConfigStore.store_fresh ConfigStore.jsonEncode _ hplain hnew hplain).2
  rwa [if_pos rfl] at hstored

/-- The client does not get the date. -/
theorem dated_not_read : ¬ FileRead jsonCodec datedRemote datedFile.name := by
  intro h
  rcases (fileRead_iff _ _ _).1 h with hnone | ⟨file, hfile, htime, -⟩
  · rw [getFile_datedRemote] at hnone
    cases hnone
  · rw [getFile_datedRemote] at hfile
    cases hfile
    exact absurd htime (by decide)

end RemoteStore

end HomeTier
