import HomeTier.Lib.Lines
import HomeTier.EasyTier.PatchRules
import HomeTier.Space.PatchConfig

/-! # One patch, two copies of the configuration

A patch goes to the database through `SpaceManager::patch_config` and to the
configuration file through `EasyTierManager::patch_config`, each with its own
merge. Here both sides are put together: the file is read, patched and written
as in `src-tauri/src/easytier/mod.rs`, and what happens to the database, to the
file system and on the way to the daemon is an input.

When the call returns `Ok`, the column and the file are the same configuration
exactly if, field by field, the value of the patch is one that both sides take
alike and the other fields agreed before (`agree_iff_agreeing`).
-/

namespace HomeTier

open Lib ConfigJson

namespace SpacePatch

/-! ## The files of the daemon -/

/-- What is in a JSON file. -/
inductive FileJson where
  | broken
  | holds (v : Json)

/-- `serde_json::from_str::<NetworkConfig>` on a file. -/
def FileJson.read (fresh : Str) : FileJson → Option ConfigData
  | .broken => none
  | .holds v => readConfig fresh v

/-- The two files of an instance, if they exist. -/
structure Files where
  json : Option FileJson
  toml : Option Str

/-- What the daemon meets on its way: the id that `Default` draws, the errors of
the file system, the outcome of `to_easytier_config` with `dump`, and the error
of the RPC. -/
structure DaemonEnv where
  fresh : Str
  jsonReadError : Option Str
  serdeError : Str
  tomlPath : Str
  tomlReadError : Option Str
  dumped : Except Str Str
  createDirError : Option Str
  writeTomlError : Option Str
  writeJsonError : Option Str
  runError : Option Str

def identityHeader : Str := "[network_identity]".toList

def tableStart : Str := ['[']

/-- The lines that are looked through for the identity. -/
def identityLines (toml : Str) : List Str :=
  ((lines toml).dropWhile (!identityHeader.isPrefixOf ·)).takeWhile (!tableStart.isPrefixOf ·)

def setIdentity (cfg : ConfigData) (line : Str) : ConfigData :=
  match splitOnce ['='] line with
  | none => cfg
  | some (key, value) =>
    let value := trimEndMatches '"' (trimStartMatches '"' (trim value))
    if trim key = "network_name".toList then
      modifyField "network_name".toList (fun _ => .str value) cfg
    else if trim key = "network_secret".toList then
      modifyField "network_secret".toList (fun _ => .str value) cfg
    else cfg

/-- `read_network_config` -/
def readNetworkConfig (env : DaemonEnv) (files : Files) : Except Str ConfigData :=
  match files.json with
  | some file =>
    match env.jsonReadError with
    | some e => .error ("读取 JSON 配置失败: ".toList ++ e)
    | none =>
      match file.read env.fresh with
      | some cfg => .ok cfg
      | none => .error ("反序列化 NetworkConfig 失败: ".toList ++ env.serdeError)
  | none =>
    match files.toml with
    | none => .error ("配置文件不存在: ".toList ++ env.tomlPath)
    | some toml =>
      match env.tomlReadError with
      | some e => .error ("读取配置文件失败: ".toList ++ e)
      | none => .ok ((identityLines toml).foldl setIdentity (defaultConfig env.fresh))

/-- `generate_config` without a runtime configuration. -/
def generateConfig (env : DaemonEnv) (files : Files) (cfg : ConfigData) :
    Files × Except Str Unit :=
  match env.dumped, env.createDirError, env.writeTomlError, env.writeJsonError with
  | .error e, _, _, _ => (files, .error e)
  | .ok _, some e, _, _ => (files, .error ("创建配置目录失败: ".toList ++ e))
  | .ok _, none, some e, _ => (files, .error ("写入配置文件失败: ".toList ++ e))
  | .ok toml, none, none, some e =>
    ({ files with toml := some toml }, .error ("写入 JSON 配置失败: ".toList ++ e))
  | .ok toml, none, none, none => (⟨some (.holds (writeConfig cfg)), some toml⟩, .ok ())

def patchFields (patch : Json) : ConfigData → ConfigData
  | .record ds => .record (applyPatch patch ds)
  | d => d

/-- `EasyTierManager::patch_config` -/
def daemonPatch (env : DaemonEnv) (files : Files) (patch : Json) : Files × Except Str Unit :=
  match readNetworkConfig env files with
  | .error e => (files, .error e)
  | .ok cfg =>
    match generateConfig env files (patchFields patch cfg), env.runError with
    | (files, .error e), _ => (files, .error e)
    | (files, .ok ()), some e => (files, .error e)
    | (files, .ok ()), none => (files, .ok ())

/-! ## Both sides -/

/-- How the request and its answer travel. -/
inductive Delivery where
  | delivered
  /-- The request does not reach the daemon. -/
  | unsent (message : Str)
  /-- The request is served, its answer does not come back. -/
  | lost (message : Str)

structure Request where
  patch : Json
  valid : patch.Valid Json.nestingLimit
  dbRead : Bool
  dbWrite : Bool
  delivery : Delivery
  /-- The error of `Uuid::parse_str` on the id of the space. -/
  badId : Option Str
  daemon : DaemonEnv

structure Copies where
  column : Option Str
  files : Files

/-- `PatchConfig` in the daemon, and what the client makes of the answer. -/
def askDaemon (req : Request) (files : Files) : Files × IpcReply :=
  let served : Files × IpcReply :=
    match req.badId with
    | some e => (files, .error ("无效的 space_id: ".toList ++ e))
    | none =>
      match daemonPatch req.daemon files req.patch with
      | (files, .ok ()) => (files, .ok)
      | (files, .error e) => (files, .error ("修改配置失败: ".toList ++ e))
  match req.delivery with
  | .delivered => served
  | .unsent message => (files, .failed message)
  | .lost message => (served.1, .failed message)

def Request.call (req : Request) (reply : IpcReply) : PatchCall :=
  ⟨req.patch, req.valid, req.dbRead, req.dbWrite, reply⟩

/-- A patch from end to end. -/
def patchBoth (J : JsonText) (s : Copies) (req : Request) : Copies × Except Str Unit :=
  let asked := askDaemon req s.files
  let saved := patchConfig J s.column (req.call asked.2)
  (⟨saved.1, asked.1⟩, saved.2)

/-- The column and the file, each read as a `NetworkConfig`, are equal. -/
def Agree (J : JsonText) (s : Copies) : Prop :=
  ∃ cfg, (∃ text, s.column = some text ∧ ∀ fresh, fromConfigJson J fresh text = .ok cfg) ∧
    ∃ file, s.files.json = some file ∧ ∀ fresh, file.read fresh = some cfg

/-! ## What the daemon writes -/

variable {J : JsonText}

/-- The header itself ends the search, so the identity is never taken over. -/
theorem identityLines_eq_nil (toml : Str) : identityLines toml = [] := by
  rw [identityLines]
  cases h : (lines toml).dropWhile (!identityHeader.isPrefixOf ·) with
  | nil => rfl
  | cons l ls =>
    have hstop := List.head_dropWhile_not (!identityHeader.isPrefixOf ·) (by rw [h]; simp)
    simp only [h, List.head_cons, Bool.not_eq_false'] at hstop
    have hbracket : tableStart.isPrefixOf l = true := by
      rw [List.isPrefixOf_iff_prefix] at hstop ⊢
      exact List.IsPrefix.trans (by decide) hstop
    rw [List.takeWhile_cons_of_neg]
    simp [hbracket]

theorem wellTyped_of_readNetworkConfig {env : DaemonEnv} {files : Files} {cfg : ConfigData}
    (h : readNetworkConfig env files = .ok cfg) : ∃ ds, cfg = .record ds ∧ WellTyped ds := by
  rw [readNetworkConfig] at h
  split at h
  · rename_i file _
    split at h
    · cases h
    split at h
    · rename_i cfg' hcfg
      cases h
      cases file with
      | broken => cases hcfg
      | holds v => exact wellTyped_of_readConfig hcfg
    · cases h
  · split at h
    · cases h
    split at h
    · cases h
    · rw [identityLines_eq_nil] at h
      cases h
      exact ⟨_, rfl, wellTyped_default env.fresh⟩

theorem generateConfig_ok {env : DaemonEnv} {files : Files} {cfg : ConfigData}
    (h : (generateConfig env files cfg).2 = .ok ()) :
    (generateConfig env files cfg).1.json = some (.holds (writeConfig cfg)) := by
  rw [generateConfig.eq_def] at h ⊢
  split at h
  · cases h
  · cases h
  · cases h
  · cases h
  · rfl

theorem daemonPatch_ok {env : DaemonEnv} {files : Files} {patch : Json}
    (h : (daemonPatch env files patch).2 = .ok ()) :
    ∃ ds, readNetworkConfig env files = .ok (.record ds) ∧ WellTyped ds ∧
      (daemonPatch env files patch).1.json =
        some (.holds (writeConfig (.record (applyPatch patch ds)))) := by
  rw [daemonPatch] at h ⊢
  cases hread : readNetworkConfig env files with
  | error e =>
    rw [hread] at h
    cases h
  | ok cfg =>
    rcases wellTyped_of_readNetworkConfig hread with ⟨ds, rfl, hds⟩
    refine ⟨ds, rfl, hds, ?_⟩
    rw [hread] at h
    simp only at h ⊢
    have hwritten := @generateConfig_ok env files (patchFields patch (.record ds))
    generalize generateConfig env files (patchFields patch (.record ds)) = generated
      at h hwritten ⊢
    rcases generated with ⟨files', _ | _⟩
    · cases h
    · cases hrun : env.runError with
      | some e =>
        rw [hrun] at h
        cases h
      | none => exact hwritten rfl

/-- After a successful call the file holds the patched configuration. -/
theorem askDaemon_ok {req : Request} {files : Files} (h : (askDaemon req files).2 = .ok) :
    ∃ ds, readNetworkConfig req.daemon files = .ok (.record ds) ∧ WellTyped ds ∧
      (askDaemon req files).1.json =
        some (.holds (writeConfig (.record (applyPatch req.patch ds)))) := by
  have hdaemon := @daemonPatch_ok req.daemon files req.patch
  rw [askDaemon] at h ⊢
  generalize daemonPatch req.daemon files req.patch = patched at h hdaemon ⊢
  cases hdelivery : req.delivery with
  | unsent message =>
    rw [hdelivery] at h
    cases h
  | lost message =>
    rw [hdelivery] at h
    cases h
  | delivered =>
    rw [hdelivery] at h
    cases hid : req.badId with
    | some e =>
      rw [hid] at h
      cases h
    | none =>
      rw [hid] at h
      rcases patched with ⟨files', _ | _⟩
      · cases h
      · exact hdaemon rfl

/-! ## When the copies agree -/

/-- Both sides merge: the stored text is an object, so is the patch, and the
row is read and written. -/
def Merges (J : JsonText) (text : Str) (req : Request) (kvs entries : List (Str × Json)) : Prop :=
  (req.dbRead = true ∧ req.dbWrite = true) ∧ J.parse text = some (.obj kvs) ∧
    req.patch = .obj entries

/-- A field that is patched has a value that agrees with its rule, and another
one is stored as the daemon has it. -/
def FieldAgrees (kvs entries : List (Str × Json)) (f : ConfigField) (d : ConfigData) : Prop :=
  match entries.lookup f.name with
  | some v => (patchRule f.name).Agrees f.type v d
  | none => readField kvs f.toRecordField = some d

/-- The condition on the copies before the patch: field by field where the patch
is merged, and otherwise the column already is what the daemon will write. -/
def Agreeing (J : JsonText) (s : Copies) (req : Request) : Prop :=
  ∃ ds text, readNetworkConfig req.daemon s.files = .ok (.record ds) ∧ s.column = some text ∧
    (∀ kvs entries, Merges J text req kvs entries → ∀ fresh,
      ∀ p ∈ (configFields fresh).zip ds, FieldAgrees kvs entries p.1 p.2) ∧
    ((¬ ∃ kvs entries, Merges J text req kvs entries) → ∀ fresh,
      fromConfigJson J fresh text = .ok (.record (applyPatch req.patch ds)))

theorem forall₂_zipWith_iff {α β γ : Type} {R : α → γ → Prop} {g : α → β → γ} {xs : List α}
    {ys : List β} (h : xs.length = ys.length) :
    List.Forall₂ R xs (List.zipWith g xs ys) ↔ ∀ p ∈ xs.zip ys, R p.1 (g p.1 p.2) := by
  induction xs generalizing ys with
  | nil => simp
  | cons x xs ih =>
    cases ys with
    | nil => cases h
    | cons y ys =>
      rw [List.zipWith_cons_cons, List.zip_cons_cons, List.forall₂_cons, List.forall_mem_cons,
        ih (Nat.succ.inj h)]

/-- One field of the merged object. -/
theorem readField_merged_iff {d : Nat} {kvs entries : List (Str × Json)}
    (hentries : (Json.obj entries).Valid (d + 1)) {fresh : Str} {f : ConfigField}
    (hf : f ∈ configFields fresh) {x : ConfigData}
    (hx : f.type.read (f.type.write x) = some x) :
    readField (insertEntries entries kvs) f.toRecordField =
        some (match entries.lookup f.name with
          | some v => (patchRule f.name).apply v x
          | none => x) ↔
      FieldAgrees kvs entries f x := by
  have hnodup := (Json.sorted_of_valid hentries).nodup
  have hmem : (f.name, f.type) ∈ configTypes := by
    rw [← map_configFields fresh]
    exact List.mem_map_of_mem hf
  rw [FieldAgrees, readField]
  show (match (insertEntries entries kvs).lookup f.name with
    | some v => f.type.read v
    | none => some f.default) = _ ↔ _
  rw [lookup_insertEntries hnodup]
  cases hlookup : entries.lookup f.name with
  | none => exact Iff.rfl
  | some v =>
    have hv : v.Valid d := by
      cases hentries with
      | obj hsorted hall => exact hall _ (mem_of_lookup hlookup)
    exact apply_eq_read_iff (ruleFor_patchRule hmem) hv hx

/-- The merged object is read as what the daemon writes exactly if every field
agrees. -/
theorem readConfig_merged_iff {d : Nat} {kvs entries : List (Str × Json)}
    (hentries : (Json.obj entries).Valid (d + 1)) (fresh : Str) {ds : List ConfigData}
    (hds : WellTyped ds) :
    readConfig fresh (.obj (insertEntries entries kvs)) =
        some (.record (applyPatch (.obj entries) ds)) ↔
      ∀ p ∈ (configFields fresh).zip ds, FieldAgrees kvs entries p.1 p.2 := by
  have hback := (wellTyped_iff fresh).1 hds
  rw [List.forall₂_map_left_iff] at hback
  have hpatch : applyPatch (.obj entries) ds = List.zipWith (fun (f : ConfigField) x =>
      match entries.lookup f.name with
      | some v => (patchRule f.name).apply v x
      | none => x) (configFields fresh) ds := by
    rw [applyPatch, ← map_configFields fresh, List.zipWith_map_left]
    rfl
  have hmapM : readConfig fresh (.obj (insertEntries entries kvs)) =
      some (.record (applyPatch (.obj entries) ds)) ↔
      ((configFields fresh).map ConfigField.toRecordField).mapM
        (readField (insertEntries entries kvs)) = some (applyPatch (.obj entries) ds) := by
    rw [readConfig, readRecord]
    simp
  rw [hmapM, mapM_eq_some_iff, List.forall₂_map_left_iff, hpatch,
    forall₂_zipWith_iff hback.length_eq]
  apply forall₂_congr
  intro p hp
  exact readField_merged_iff hentries (List.of_mem_zip hp).1 (mem_of_forall₂ hback hp)

theorem replyResult_eq_ok {reply : IpcReply} (h : replyResult reply = .ok ()) : reply = .ok := by
  cases reply with
  | ok => rfl
  | _ => cases h

/-- What remains of agreement once the file is written. -/
theorem agree_iff_column {s : Copies} {ds : List ConfigData} (hds : WellTyped ds)
    (hfile : s.files.json = some (.holds (writeConfig (.record ds)))) :
    Agree J s ↔ ∃ text, s.column = some text ∧
      ∀ fresh, fromConfigJson J fresh text = .ok (.record ds) := by
  have hread : ∀ fresh, readConfig fresh (writeConfig (.record ds)) = some (.record ds) :=
    readConfig_writeConfig hds
  constructor
  · rintro ⟨cfg, hcolumn, file, hjson, hcfg⟩
    rw [hfile] at hjson
    cases hjson
    have hsame := hcfg []
    rw [FileJson.read, hread [], Option.some_inj] at hsame
    rw [hsame]
    exact hcolumn
  · intro hcolumn
    exact ⟨.record ds, hcolumn, _, hfile, hread⟩

/-- The column after the call, when it holds a text. -/
theorem column_iff {text : Str} {req : Request} {reply : IpcReply} {ds : List ConfigData}
    (hds : WellTyped ds) :
    (∃ text', savePatch J (some text) (req.call reply) = some text' ∧
        ∀ fresh, fromConfigJson J fresh text' = .ok (.record (applyPatch req.patch ds))) ↔
      (∀ kvs entries, Merges J text req kvs entries → ∀ fresh,
        ∀ p ∈ (configFields fresh).zip ds, FieldAgrees kvs entries p.1 p.2) ∧
      ((¬ ∃ kvs entries, Merges J text req kvs entries) → ∀ fresh,
        fromConfigJson J fresh text = .ok (.record (applyPatch req.patch ds))) := by
  rcases savePatch_cases (J := J) text (req.call reply) with
    ⟨hnot, hsame⟩ | ⟨config, hsaves, hconfig, hsaved⟩
  · -- nothing is saved
    have hmerges : ¬ ∃ kvs entries, Merges J text req kvs entries := by
      rintro ⟨kvs, entries, hsaves, hkvs, -⟩
      rcases hnot with hnot | hnone
      · exact hnot hsaves
      · rw [hnone] at hkvs
        cases hkvs
    rw [hsame]
    constructor
    · rintro ⟨text', htext, hread⟩
      cases htext
      exact ⟨fun kvs entries h => absurd ⟨kvs, entries, h⟩ hmerges, fun _ => hread⟩
    · rintro ⟨-, hread⟩
      exact ⟨text, rfl, hread hmerges⟩
  · have hvalid := J.parse_valid text config hconfig
    have hparse := J.parse_print _ (valid_mergePatch hvalid req.valid)
    have hcolumn : (∃ text', savePatch J (some text) (req.call reply) = some text' ∧
        ∀ fresh, fromConfigJson J fresh text' = .ok (.record (applyPatch req.patch ds))) ↔
        ∀ fresh, readConfig fresh (mergePatch config req.patch) =
          some (.record (applyPatch req.patch ds)) := by
      rw [hsaved]
      constructor
      · rintro ⟨text', htext, hread⟩ fresh
        cases htext
        exact (fromConfigJson_eq_ok_iff hparse).1 (hread fresh)
      · intro hread
        exact ⟨_, rfl, fun fresh => (fromConfigJson_eq_ok_iff hparse).2 (hread fresh)⟩
    rw [hcolumn]
    by_cases hobj : ∃ kvs entries, config = .obj kvs ∧ req.patch = .obj entries
    · rcases hobj with ⟨kvs, entries, rfl, hpatch⟩
      have hentries : (Json.obj entries).Valid (126 + 1) := hpatch ▸ req.valid
      have hmerges : Merges J text req kvs entries := ⟨hsaves, hconfig, hpatch⟩
      rw [hpatch]
      show (∀ fresh, readConfig fresh (.obj (insertEntries entries kvs)) = _) ↔ _
      simp only [readConfig_merged_iff hentries _ hds]
      constructor
      · intro hfields
        refine ⟨?_, fun hnot => absurd ⟨kvs, entries, hmerges⟩ hnot⟩
        rintro kvs' entries' ⟨-, hkvs, hpatch'⟩
        rw [hconfig] at hkvs
        rw [hpatch] at hpatch'
        cases hkvs
        cases hpatch'
        exact hfields
      · rintro ⟨hfields, -⟩
        exact hfields kvs entries hmerges
    · -- the merge changes nothing
      have hsame : mergePatch config req.patch = config := by
        cases config <;> cases hpatch : req.patch <;> try rfl
        exact absurd ⟨_, _, rfl, hpatch⟩ hobj
      have hmerges : ¬ ∃ kvs entries, Merges J text req kvs entries := by
        rintro ⟨kvs, entries, -, hkvs, hpatch⟩
        rw [hconfig] at hkvs
        cases hkvs
        exact hobj ⟨kvs, entries, rfl, hpatch⟩
      rw [hsame]
      simp only [← fromConfigJson_eq_ok_iff hconfig]
      constructor
      · intro hread
        exact ⟨fun kvs entries h => absurd ⟨kvs, entries, h⟩ hmerges, fun _ => hread⟩
      · rintro ⟨-, hread⟩
        exact hread hmerges

/-- The condition on the fields decides for what the daemon has read and what
the column holds. -/
theorem agree_iff_of_read {s : Copies} {req : Request} {ds : List ConfigData} {text : Str}
    (hreply : (askDaemon req s.files).2 = .ok)
    (hbase : readNetworkConfig req.daemon s.files = .ok (.record ds))
    (hcolumn : s.column = some text) :
    Agree J (patchBoth J s req).1 ↔
      (∀ kvs entries, Merges J text req kvs entries → ∀ fresh,
        ∀ p ∈ (configFields fresh).zip ds, FieldAgrees kvs entries p.1 p.2) ∧
      ((¬ ∃ kvs entries, Merges J text req kvs entries) → ∀ fresh,
        fromConfigJson J fresh text = .ok (.record (applyPatch req.patch ds))) := by
  rcases askDaemon_ok hreply with ⟨ds', hbase', hds, hfile⟩
  rw [hbase] at hbase'
  cases hbase'
  rw [agree_iff_column (wellTyped_applyPatch hds req.patch) hfile]
  show (∃ text, savePatch J s.column (req.call (askDaemon req s.files).2) = some text ∧ _) ↔ _
  rw [hcolumn]
  exact column_iff hds

/-- After a successful patch the two copies agree exactly if they did, field by
field, as far as the patch takes them alike. -/
theorem agree_iff_agreeing {J : JsonText} {s : Copies} {req : Request}
    (h : (patchBoth J s req).2 = .ok ()) :
    Agree J (patchBoth J s req).1 ↔ Agreeing J s req := by
  have hreply : (askDaemon req s.files).2 = .ok := replyResult_eq_ok h
  rcases askDaemon_ok hreply with ⟨ds, hbase, hds, hfile⟩
  cases hcolumn : s.column with
  | none =>
    rw [agree_iff_column (wellTyped_applyPatch hds req.patch) hfile]
    show (∃ text, savePatch J s.column (req.call (askDaemon req s.files).2) = some text ∧ _) ↔ _
    rw [hcolumn]
    constructor
    · rintro ⟨text, htext, -⟩
      simp [savePatch] at htext
    · rintro ⟨_, text, -, htext, -⟩
      rw [hcolumn] at htext
      cases htext
  | some text =>
    rw [agree_iff_of_read hreply hbase hcolumn]
    constructor
    · intro hfields
      exact ⟨ds, text, hbase, hcolumn, hfields⟩
    · rintro ⟨ds', text', hbase', hcolumn', hfields⟩
      rw [hbase] at hbase'
      rw [hcolumn] at hcolumn'
      cases hbase'
      cases hcolumn'
      exact hfields

/-- A daemon that meets no error. -/
def quietDaemon : DaemonEnv :=
  ⟨"b".toList, none, [], [], none, .ok "[network_identity]".toList, none, none, none, none⟩

/-- A request with one key that reaches the database and the daemon. -/
def setRequest (key : Str) (v : Json) (h : v.Valid 126) : Request :=
  ⟨.obj [(key, v)], valid_setPatch h, true, true, .delivered, none, quietDaemon⟩

/-- Only the id is stored. -/
def storedEntries : List (Str × Json) := [("instance_id".toList, .str "a".toList)]

theorem valid_storedEntries : (Json.obj storedEntries).Valid Json.nestingLimit :=
  valid_singleton (.str "a".toList)

/-- Column and file hold the same. -/
def sameCopies : Copies :=
  ⟨some (JsonText.compact.print (.obj storedEntries)), ⟨some (.holds (.obj storedEntries)), none⟩⟩

def storedConfig : List ConfigData :=
  .str "a".toList :: ((configFields []).map (·.default)).tail

theorem readConfig_storedEntries (fresh : Str) :
    readConfig fresh (.obj storedEntries) = some (.record storedConfig) := rfl

theorem forall₂_storedConfig (fresh : Str) :
    List.Forall₂ (fun (f : ConfigField) d => readField storedEntries f.toRecordField = some d)
      (configFields fresh) storedConfig := by
  have hread := readConfig_storedEntries fresh
  rw [readConfig, readRecord] at hread
  rcases Option.map_eq_some_iff.1 hread with ⟨ds, hds, heq⟩
  rw [mapM_eq_some_iff, List.forall₂_map_left_iff, ConfigData.record.inj heq] at hds
  exact hds

theorem parse_storedEntries : JsonText.compact.parse (JsonText.compact.print (.obj storedEntries)) =
    some (.obj storedEntries) :=
  JsonText.compact.parse_print _ valid_storedEntries

theorem read_sameCopies :
    readNetworkConfig quietDaemon sameCopies.files = .ok (.record storedConfig) := by
  have hread : FileJson.read quietDaemon.fresh (.holds (.obj storedEntries)) =
      some (.record storedConfig) := readConfig_storedEntries _
  simp only [readNetworkConfig, sameCopies, hread]
  rfl

theorem askDaemon_setRequest (key : Str) (v : Json) (h : v.Valid 126) :
    (askDaemon (setRequest key v h) sameCopies.files).2 = .ok := by
  simp only [askDaemon, setRequest, daemonPatch, read_sameCopies]
  rfl

theorem patchBoth_setRequest (key : Str) (v : Json) (h : v.Valid 126) :
    (patchBoth JsonText.compact sameCopies (setRequest key v h)).2 = .ok () := by
  show replyResult (askDaemon (setRequest key v h) sameCopies.files).2 = _
  rw [askDaemon_setRequest]
  rfl

/-- DHCP is switched off in both copies. -/
theorem agree_iff_agreeing_dhcp :
    let req := setRequest "dhcp".toList (.bool false) (.bool false)
    (patchBoth JsonText.compact sameCopies req).2 = .ok () ∧
      Agree JsonText.compact (patchBoth JsonText.compact sameCopies req).1 := by
  have hok := patchBoth_setRequest "dhcp".toList (.bool false) (.bool false)
  refine ⟨hok, (agree_iff_agreeing hok).2 ⟨storedConfig, _, read_sameCopies, rfl, ?_, ?_⟩⟩
  · rintro kvs entries ⟨-, hkvs, hentries⟩ fresh ⟨f, d⟩ hp
    rw [parse_storedEntries] at hkvs
    cases hkvs
    cases hentries
    show match List.lookup f.name [("dhcp".toList, Json.bool false)] with
      | some v => (patchRule f.name).Agrees f.type v d
      | none => readField storedEntries f.toRecordField = some d
    rw [lookup_cons_eq]
    by_cases hname : f.name = "dhcp".toList
    · rw [if_pos hname, hname]
      exact ⟨false, rfl⟩
    · rw [if_neg hname]
      exact mem_of_forall₂ (forall₂_storedConfig fresh) hp
  · intro hnot
    exact absurd ⟨_, _, ⟨rfl, rfl⟩, parse_storedEntries, rfl⟩ hnot

/-- A field that does not agree keeps the copies apart. -/
theorem not_agree_of_field {key : Str} {v : Json} {hv : v.Valid 126} {p : ConfigField × ConfigData}
    (hp : p ∈ (configFields []).zip storedConfig) (hname : p.1.name = key)
    (hfield : ¬ (patchRule key).Agrees p.1.type v p.2) :
    ¬ Agree JsonText.compact (patchBoth JsonText.compact sameCopies (setRequest key v hv)).1 := by
  intro hagree
  have hfields := ((agree_iff_of_read (askDaemon_setRequest key v hv) read_sameCopies rfl).1
    hagree).1 storedEntries [(key, v)] ⟨⟨rfl, rfl⟩, parse_storedEntries, rfl⟩ [] p hp
  rw [FieldAgrees, lookup_cons_eq, if_pos hname] at hfields
  rw [hname] at hfields
  exact hfield hfields

theorem valid_280 : (Json.int 280).Valid 126 := .int (by decide)

/-- The daemon does not know `instance_name`, and it takes 280 as 24 for a field
of eight bits, where the column cannot be read any more. -/
theorem patched_copies_differ :
    let named := setRequest "instance_name".toList (.str "x".toList) (.str _)
    let long := setRequest "network_length".toList (.int 280) valid_280
    ((patchBoth JsonText.compact sameCopies named).2 = .ok () ∧
      ¬ Agree JsonText.compact (patchBoth JsonText.compact sameCopies named).1) ∧
    (patchBoth JsonText.compact sameCopies long).2 = .ok () ∧
      ¬ Agree JsonText.compact (patchBoth JsonText.compact sameCopies long).1 := by
  refine ⟨⟨patchBoth_setRequest _ _ _, ?_⟩, patchBoth_setRequest _ _ _, ?_⟩
  · apply not_agree_of_field (p := (⟨"instance_name".toList, .option .str, .none⟩, .none))
      (List.mem_of_getElem? (i := 1) rfl) rfl
    intro h
    cases h
  · apply not_agree_of_field
      (p := (⟨"network_length".toList, .scalar (.uint 8), .int 24⟩, .int 24))
      (List.mem_of_getElem? (i := 4) rfl) rfl
    rintro ⟨n, hn, -, hlt⟩
    cases hn
    revert hlt
    decide

end SpacePatch

end HomeTier
