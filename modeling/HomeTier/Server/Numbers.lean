import HomeTier.Lib.Number
import HomeTier.ConfigStore.Store
import HomeTier.Server.SpaceRows
import HomeTier.Space.PatchAgreement

/-! # Numbers that come with a request

Integer fields are taken from JSON in three places: `EasyTierManager::patch_config`
(`src-tauri/src/easytier/mod.rs`), `upload_config_handler` and the two handlers
that write a port forward rule (`src-tauri/src/server/routes.rs`). Each reads 64
bits and casts to the width of its field:

* a number beyond the width is stored modulo `2 ^ 8`, `2 ^ 16` or `2 ^ 32`;
* a number that is not read (negative where it is unsigned, or a float) leaves
  the field of a patch or of an update as it is, and counts as zero elsewhere.

Only a zero port of a new rule is refused. `numbers_exact_iff` says for each
place when the number given is the number stored.
-/

namespace HomeTier

open Lib ConfigJson SpacePatch

namespace ConfigJson

/-- The integer field that a rule of `patch_config` writes. -/
def PatchRule.intField : PatchRule → Option IntField
  | .setUint bits | .setSomeUint bits => some (.uint bits)
  | .setInt _ => some .int32
  | _ => none

/-- The number in the field after the rule. -/
theorem number_apply {rule : PatchRule} {t : FieldType} {f : IntField} (h : RuleFor rule t)
    (hf : rule.intField = some f) (v : Json) (d : ConfigData) :
    (t.write (rule.apply v d)).number = f.stored (t.write d).number v := by
  cases h with
  | setUint | setSomeUint =>
    cases hf
    simp only [FieldType.write, PatchRule.apply, IntField.stored, IntField.uint]
    cases v.asU64 <;> rfl
  | setInt =>
    cases hf
    simp only [FieldType.write, PatchRule.apply, IntField.stored, IntField.int32]
    cases v.asI64 <;> rfl
  | _ => cases hf

/-- A rule that is not `ignored` is one for a field. -/
theorem mem_configTypes_of_patchRule {key : Str} (h : patchRule key ≠ .ignored) :
    ∃ t, (key, t) ∈ configTypes := by
  have hall : ∀ e ∈ patchRules, e.1 ∈ configTypes.map (·.1) :=
    forall_mem_of_all (by decide)
  cases hrule : patchRules.lookup key with
  | none => exact absurd (by rw [patchRule, hrule]; rfl) h
  | some rule =>
    rcases List.mem_map.1 (hall _ (mem_of_lookup hrule)) with ⟨⟨key', t⟩, ht, rfl⟩
    exact ⟨t, ht⟩

/-- What stands under a key in the JSON of a configuration. -/
theorem get_writeConfig {ds : List ConfigData} (h : configTypes.length = ds.length)
    {p : Str × FieldType} {d : ConfigData} (hp : (p, d) ∈ configTypes.zip ds)
    (hkeep : isSkipped (p.1, p.2.write d) = false) :
    (writeConfig (.record ds)).get p.1 = some (p.2.write d) := by
  have hnodup : ((List.zipWith (fun (p : Str × FieldType) d => (p.1, p.2.write d)) configTypes
      ds).map (·.1)).Nodup := by
    rw [map_fst_zipWith (·.1) (fun (p : Str × FieldType) d => p.2.write d) h,
      configTypes, List.map_map]
    exact nodup_configNames []
  refine lookup_insertEntries_nil (e := (p.1, p.2.write d))
    (hnodup.sublist (List.filter_sublist.map _)) ?_
  rw [List.mem_filter, ← List.map_uncurry_zip_eq_zipWith]
  refine ⟨List.mem_map.2 ⟨(p, d), hp, rfl⟩, ?_⟩
  rw [hkeep]
  rfl

theorem mem_zip_zipWith {α β γ : Type} {g : α → β → γ} {xs : List α} {ys : List β} {x : α} {y : β}
    (h : (x, y) ∈ xs.zip ys) : (x, g x y) ∈ xs.zip (List.zipWith g xs ys) := by
  rcases List.mem_iff_getElem?.1 h with ⟨i, hi⟩
  rw [List.getElem?_zip_eq_some] at hi
  apply List.mem_of_getElem? (i := i)
  rw [List.getElem?_zip_eq_some]
  refine ⟨hi.1, ?_⟩
  simp only [List.getElem?_zipWith, hi.1, hi.2]

/-- The number that a configuration has in a field. -/
def configNumber (ds : List ConfigData) (key : Str) : Option ℚ :=
  ((writeConfig (.record ds)).get key).bind Json.number

/-- A patched integer field holds what is made of the number in the patch. -/
theorem configNumber_applyPatch {ds : List ConfigData} (h : configTypes.length = ds.length)
    (patch : Json) {key : Str} {f : IntField} (hf : (patchRule key).intField = some f) :
    configNumber (applyPatch patch ds) key = f.storedAt (configNumber ds key) patch key := by
  have hrule : patchRule key ≠ .ignored := by
    intro hignored
    rw [hignored] at hf
    cases hf
  rcases mem_configTypes_of_patchRule hrule with ⟨t, ht⟩
  rcases List.mem_iff_getElem.1 ht with ⟨i, hi, hti⟩
  have hkeep : ∀ v, isSkipped (key, v) = false := by
    intro v
    by_contra hskip
    rw [Bool.not_eq_false] at hskip
    obtain rfl : key = "proxy_networks_auto".toList := (isSkipped_eq_true hskip).1
    revert hrule
    decide
  have hmem : ((key, t), ds[i]) ∈ configTypes.zip ds := by
    rw [← hti]
    apply List.mem_of_getElem? (i := i)
    rw [List.getElem?_zip_eq_some]
    exact ⟨List.getElem?_eq_getElem hi, List.getElem?_eq_getElem (h ▸ hi)⟩
  have hlen : configTypes.length = (applyPatch patch ds).length := by
    rw [applyPatch, List.length_zipWith, ← h, min_self]
  rw [configNumber, configNumber, get_writeConfig h hmem (hkeep _),
    get_writeConfig hlen (mem_zip_zipWith hmem) (hkeep _), IntField.storedAt]
  dsimp only
  cases patch.get key with
  | none => rfl
  | some v => exact number_apply (ruleFor_patchRule ht) hf v _

end ConfigJson

namespace SpacePatch

/-- The daemon meets no error behind the read. -/
def DaemonEnv.Serves (env : DaemonEnv) : Prop :=
  (∃ toml, env.dumped = .ok toml) ∧ env.createDirError = none ∧ env.writeTomlError = none ∧
    env.writeJsonError = none ∧ env.runError = none

/-- A patch is answered with `Ok` exactly if the configuration is there and
everything that follows succeeds. -/
theorem daemonPatch_ok_iff {env : DaemonEnv} {files : Files} {patch : Json} :
    (daemonPatch env files patch).2 = .ok () ↔
      (∃ ds, readNetworkConfig env files = .ok (.record ds)) ∧ env.Serves := by
  rw [daemonPatch.eq_def]
  cases hread : readNetworkConfig env files with
  | error e =>
    constructor
    · intro h
      cases h
    · rintro ⟨⟨ds, hds⟩, -⟩
      cases hds
  | ok cfg =>
    rcases wellTyped_of_readNetworkConfig hread with ⟨ds, rfl, -⟩
    rcases env with ⟨fresh, jsonError, serdeError, path, tomlError, dumped, dir, toml, json, run⟩
    simp only [DaemonEnv.Serves, generateConfig]
    cases dumped <;> cases dir <;> cases toml <;> cases json <;> cases run <;> simp

end SpacePatch

namespace Numbers

open SpaceRows

/-- `upload_config_handler`: the file for `store_local`, or the text of a 400. -/
def uploadConfigHandler (body : Json) : Except Str ConfigFile :=
  let name := (str? body "name".toList).getD []
  if name = [] then .error "缺少 name".toList
  else .ok {
    name := name
    version := ((body.get "version".toList).bind Json.asU64).getD 0 % 2 ^ 32
    content := utf8 ((str? body "content".toList).getD [])
    timestamp := ((body.get "timestamp".toList).bind Json.asU64).getD 0
    checksum := none }

def versionKey : Str := "version".toList

def sourceKey : Str := "sourcePort".toList

def targetKey : Str := "targetPort".toList

def portKeys : List Str := [sourceKey, targetKey]

/-! ## Requests -/

/-- The requests that write an integer field. -/
inductive Request where
  | patchConfig (env : DaemonEnv) (files : Files) (patch : Json)
  | uploadConfig (body : Json)
  | createPortForward (db : SpaceDb) (io : Answers) (spaceId : Str) (body : Json) (id now : Str)
  | updatePortForward (db : SpaceDb) (io : Answers) (spaceId : Str) (body : Json) (now : Str)

namespace Request

def body : Request → Json
  | .patchConfig _ _ patch => patch
  | .uploadConfig body => body
  | .createPortForward _ _ _ body _ _ => body
  | .updatePortForward _ _ _ body _ => body

/-- The keys of integer fields. -/
def IsInteger : Request → Str → Prop
  | .patchConfig .., key => (patchRule key).intField.isSome = true
  | .uploadConfig _, key => key = versionKey
  | .createPortForward .., key => key ∈ portKeys
  | .updatePortForward .., key => key ∈ portKeys

/-- The number in the file of the daemon. -/
def fileNumber (files : Files) (key : Str) : Option ℚ :=
  match files.json with
  | some (.holds v) => (v.get key).bind Json.number
  | _ => none

def portOf (key : Str) (row : PortForwardRuleRow) : Int :=
  if key = sourceKey then row.sourcePort else row.targetPort

/-- The port in the row of an id. -/
def rowNumber (db : SpaceDb) (id key : Str) : Option ℚ :=
  (db.portForwards.rows.find? fun r => r.id = id).map fun r => (portOf key r : ℚ)

/-- The numbers that are stored under the keys, unless the request is refused. -/
def stored : Request → Option (Str → Option ℚ)
  | .patchConfig env files patch =>
    match daemonPatch env files patch with
    | (files, .ok ()) => some (fileNumber files)
    | (_, .error _) => none
  | .uploadConfig body =>
    match uploadConfigHandler body with
    | .ok file => some fun _ => some (file.version : ℚ)
    | .error _ => none
  | .createPortForward db io spaceId body id now =>
    match createPortForwardRuleHandler db io spaceId body id now with
    | (db, .portForwardRule row) => some (rowNumber db row.id)
    | _ => none
  | .updatePortForward db io spaceId body now =>
    match updatePortForwardRuleHandler db io spaceId body now with
    | (db, .portForwardRule row) => some (rowNumber db row.id)
    | _ => none

/-- Every number given for an integer field is stored, or the request is refused. -/
def Exact (req : Request) : Prop :=
  ∀ stored, req.stored = some stored → ∀ key q, req.IsInteger key →
    (req.body.get key).bind Json.number = some q → stored key = some q

/-! ## Conditions -/

/-- Nothing refuses the new rule. A port is zero after the cast if `2 ^ 32` divides it. -/
def Creates (db : SpaceDb) (io : Answers) (body : Json) (id : Str) : Prop :=
  (∀ key ∈ ["name".toList, "sourceIp".toList, "targetIp".toList], (str? body key).getD [] ≠ []) ∧
    (str? body "protocol".toList).getD [] ∈ ["tcp".toList, "udp".toList] ∧
    (∀ key ∈ portKeys, ∃ v n, body.get key = some v ∧ v.asI64 = some n ∧ ¬ (2 ^ 32 : Int) ∣ n) ∧
    io.write = none ∧ id ∉ db.portForwards.rows.map (·.id)

/-- The row is the one that the body names, and nothing refuses the update. -/
def Updates (db : SpaceDb) (io : Answers) (spaceId : Str) (body : Json)
    (row : PortForwardRuleRow) : Prop :=
  row ∈ db.portForwards.rows ∧ row.spaceId = spaceId ∧ row.id ≠ [] ∧
    str? body "rule_id".toList = some row.id ∧
    (str? body "protocol".toList).getD row.protocol ∈ ["tcp".toList, "udp".toList] ∧
    io.select = none ∧ io.write = none

/-- Where the request is served, every number that is read fits its field, and one
that is not read is what the field holds without it. -/
def Fits : Request → Prop
  | .patchConfig env files patch =>
    ∀ ds, readNetworkConfig env files = .ok (.record ds) → env.Serves →
      ∀ key f, (patchRule key).intField = some f → f.TakesAt (configNumber ds key) patch key
  | .uploadConfig body =>
    (str? body "name".toList).getD [] ≠ [] → (IntField.uint 32).TakesAt (some 0) body versionKey
  | .createPortForward db io _ body id _ =>
    Creates db io body id → ∀ key ∈ portKeys, IntField.int32.TakesAt (some 0) body key
  | .updatePortForward db io spaceId body _ =>
    ∀ row, Updates db io spaceId body row →
      ∀ key ∈ portKeys, IntField.int32.TakesAt (some (portOf key row : ℚ)) body key

theorem exact_of_refused {req : Request} (h : req.stored = none) : req.Exact := by
  intro stored hstored
  rw [h] at hstored
  cases hstored

theorem exact_iff_of_stored {req : Request} {stored : Str → Option ℚ} (h : req.stored = some stored)
    (field : Str → IntField) (kept : Str → Option ℚ)
    (hstored : ∀ key, req.IsInteger key →
      stored key = (field key).storedAt (kept key) req.body key) :
    req.Exact ↔ ∀ key, req.IsInteger key → (field key).TakesAt (kept key) req.body key := by
  have hexact : req.Exact ↔ ∀ key, req.IsInteger key → ∀ q,
      (req.body.get key).bind Json.number = some q → stored key = some q := by
    constructor
    · intro hreq key hkey q hq
      exact hreq stored h key q hkey hq
    · intro hreq stored' hstored' key q hkey hq
      obtain rfl := Option.some.inj (h.symm.trans hstored')
      exact hreq key hkey q hq
  rw [hexact]
  refine forall₂_congr fun key hkey => ?_
  rw [hstored key hkey]
  exact (field key).takesAt_iff

/-! ## The places -/

theorem patch_iff (env : DaemonEnv) (files : Files) (patch : Json) :
    (patchConfig env files patch).Exact ↔ (patchConfig env files patch).Fits := by
  by_cases hok : (daemonPatch env files patch).2 = .ok ()
  · -- taken: the file holds the numbers of the patched configuration
    rcases daemonPatch_ok hok with ⟨ds, hread, hds, hjson⟩
    have hserves := (daemonPatch_ok_iff.1 hok).2
    have hstored : (patchConfig env files patch).stored =
        some (configNumber (applyPatch patch ds)) := by
      rw [stored]
      generalize daemonPatch env files patch = patched at hok hjson
      rcases patched with ⟨files', result⟩
      obtain rfl : result = .ok () := hok
      show some (fileNumber files') = _
      congr 1
      funext key
      rw [fileNumber, show files'.json = _ from hjson]
      rfl
    rw [exact_iff_of_stored hstored (fun key => (patchRule key).intField.getD .int32)
      (configNumber ds)]
    · constructor
      · intro h ds' hread' _ key f hf
        rw [hread] at hread'
        cases hread'
        have hkey := h key (by rw [IsInteger, hf]; rfl)
        rw [hf] at hkey
        exact hkey
      · intro h key hkey
        rcases Option.isSome_iff_exists.1 hkey with ⟨f, hf⟩
        rw [hf]
        exact h ds hread hserves key f hf
    · intro key hkey
      rcases Option.isSome_iff_exists.1 hkey with ⟨f, hf⟩
      rw [hf]
      exact configNumber_applyPatch hds.length_eq patch hf
  · -- refused: nothing is stored
    refine iff_of_true (exact_of_refused ?_) ?_
    · rw [stored]
      revert hok
      rcases daemonPatch env files patch with ⟨files', e | -⟩
      · exact fun _ => rfl
      · exact fun hok => absurd rfl hok
    · intro ds hread hserves
      exact absurd (daemonPatch_ok_iff.2 ⟨⟨ds, hread⟩, hserves⟩) hok

theorem upload_iff (body : Json) : (uploadConfig body).Exact ↔ (uploadConfig body).Fits := by
  by_cases hname : (str? body "name".toList).getD [] = []
  · refine iff_of_true (exact_of_refused ?_) fun hne => absurd hname hne
    rw [stored, uploadConfigHandler, if_pos hname]
  · have hstored : (uploadConfig body).stored = some fun _ =>
        some ((((body.get versionKey).bind Json.asU64).getD 0 % 2 ^ 32 : Nat) : ℚ) := by
      rw [stored, uploadConfigHandler, if_neg hname]
      rfl
    rw [exact_iff_of_stored hstored (fun _ => .uint 32) (fun _ => some 0)]
    · constructor
      · intro h _
        exact h versionKey rfl
      · rintro h key rfl
        exact h hname
    · rintro key rfl
      show _ = IntField.storedAt _ _ body versionKey
      rw [IntField.storedAt]
      cases body.get versionKey with
      | none => rfl
      | some v =>
        simp only [Option.bind_some, IntField.stored, IntField.uint]
        cases v.asU64 with
        | none => rfl
        | some n =>
          show some ((n % 2 ^ 32 : Nat) : ℚ) = some (((n % 2 ^ 32 : Nat) : Int) : ℚ)
          rw [Int.cast_natCast]

/-- The port that a body gives a row is that of the cast. -/
theorem storedAt_int32 (k : Int) (body : Json) (key : Str) :
    some (((i32? body key).getD k : Int) : ℚ) = IntField.int32.storedAt (some (k : ℚ)) body key := by
  rw [IntField.storedAt, i32?]
  cases body.get key with
  | none => rfl
  | some v =>
    simp only [Option.bind_some, IntField.stored, IntField.int32]
    cases v.asI64 <;> rfl

variable {body : Json}

theorem i32?_ne_zero_iff {key : Str} : (i32? body key).getD 0 ≠ 0 ↔
      ∃ v n, body.get key = some v ∧ v.asI64 = some n ∧ ¬ (2 ^ 32 : Int) ∣ n := by
  rw [i32?]
  cases body.get key with
  | none => simp
  | some v =>
    cases hread : v.asI64 with
    | none => simp [hread]
    | some n =>
      simp only [Option.bind_some, hread, Option.map_some, Option.getD_some, ne_eq,
        int32_cast_eq_zero_iff, Option.some.injEq, exists_eq_left', exists_and_left]

variable {row : PortForwardRuleRow} {db : SpaceDb}

/-- The row of an id is found, and its ports are those of the row. -/
theorem rowNumber_of_mem (h : row ∈ db.portForwards.rows) (key : Str) :
    rowNumber db row.id key = some (portOf key row : ℚ) := by
  rw [rowNumber, db.portForwards.find?_key h]
  rfl

variable {io : Answers}

theorem createPortForward_created {id : Str} (h : Creates db io body id) (spaceId now : Str) :
    ∃ db', createPortForwardRuleHandler db io spaceId body id now =
        (db', .portForwardRule (newPortForwardRule spaceId body id now)) ∧
      newPortForwardRule spaceId body id now ∈ db'.portForwards.rows := by
  rcases h with ⟨htexts, hprotocol, hports, hwrite, hnew⟩
  have hport : ∀ key ∈ portKeys, (i32? body key).getD 0 ≠ 0 :=
    fun key hkey => i32?_ne_zero_iff.2 (hports key hkey)
  have htcp : (str? body "protocol".toList).getD [] = "tcp".toList ∨
      (str? body "protocol".toList).getD [] = "udp".toList := by simpa using hprotocol
  have hne : (str? body "protocol".toList).getD [] ≠ [] := by
    rcases htcp with h | h <;> rw [h] <;> decide
  have hcomplete : ¬ ((newPortForwardRule spaceId body id now).name = [] ∨
      (newPortForwardRule spaceId body id now).protocol = [] ∨
      (newPortForwardRule spaceId body id now).sourceIp = [] ∨
      (newPortForwardRule spaceId body id now).sourcePort = 0 ∨
      (newPortForwardRule spaceId body id now).targetIp = [] ∨
      (newPortForwardRule spaceId body id now).targetPort = 0) := by
    rintro (h | h | h | h | h | h)
    · exact htexts _ (by simp) h
    · exact hne h
    · exact htexts _ (by simp) h
    · exact hport sourceKey (by simp [portKeys]) h
    · exact htexts _ (by simp) h
    · exact hport targetKey (by simp [portKeys]) h
  have hid : (newPortForwardRule spaceId body id now).id ∉ db.portForwards.rows.map (·.id) := hnew
  refine ⟨{ db with portForwards := db.portForwards.insert _ hid }, ?_, ?_⟩
  · simp only [createPortForwardRuleHandler, if_neg hcomplete, SpaceDb.insertPortForwardRule, hwrite]
    rw [if_pos (by exact htcp), dif_pos hid]
    rfl
  · exact List.mem_append_right _ (List.mem_singleton_self _)

theorem creates_of_reply {db db' : SpaceDb} {spaceId id now : Str}
    (h : createPortForwardRuleHandler db io spaceId body id now = (db', .portForwardRule row)) :
    Creates db io body id := by
  rw [createPortForwardRuleHandler] at h
  split at h
  · cases h
  rename_i hcomplete
  rw [SpaceDb.insertPortForwardRule] at h
  cases hwrite : io.write with
  | some e =>
    rw [hwrite] at h
    cases h
  | none =>
    simp only [hwrite] at h
    split at h
    · rename_i htcp
      split at h
      · rename_i hid
        simp only [not_or] at hcomplete
        refine ⟨?_, ?_, ?_, hwrite, hid⟩
        · intro key hkey
          simp only [List.mem_cons, List.not_mem_nil, or_false] at hkey
          rcases hkey with rfl | rfl | rfl
          · exact hcomplete.1
          · exact hcomplete.2.2.1
          · exact hcomplete.2.2.2.2.1
        · rw [List.mem_cons, List.mem_singleton]
          exact htcp
        · intro key hkey
          apply i32?_ne_zero_iff.1
          simp only [portKeys, List.mem_cons, List.not_mem_nil, or_false] at hkey
          rcases hkey with rfl | rfl
          · exact hcomplete.2.2.2.1
          · exact hcomplete.2.2.2.2.2
      · cases h
    · cases h

theorem portOf_newPortForwardRule (spaceId id now : Str) (body : Json) {key : Str}
    (hkey : key ∈ portKeys) :
    portOf key (newPortForwardRule spaceId body id now) = (i32? body key).getD 0 := by
  simp only [portKeys, List.mem_cons, List.not_mem_nil, or_false] at hkey
  rcases hkey with rfl | rfl
  · rfl
  · rfl

theorem create_iff (db : SpaceDb) (io : Answers) (spaceId : Str) (body : Json) (id now : Str) :
    (createPortForward db io spaceId body id now).Exact ↔
      (createPortForward db io spaceId body id now).Fits := by
  by_cases hcreates : Creates db io body id
  · rcases createPortForward_created hcreates spaceId now with ⟨db', hreply, hrow⟩
    have hstored : (createPortForward db io spaceId body id now).stored = some (rowNumber db' id) := by
      rw [stored, hreply]
      rfl
    rw [exact_iff_of_stored hstored (fun _ => .int32) (fun _ => some 0)]
    · exact ⟨fun h _ => h, fun h => h hcreates⟩
    · intro key hkey
      have hnumber := rowNumber_of_mem hrow key
      rw [portOf_newPortForwardRule spaceId id now body hkey, storedAt_int32] at hnumber
      exact hnumber
  · refine iff_of_true (exact_of_refused ?_) fun h => absurd h hcreates
    rw [stored]
    split
    · rename_i hreply
      exact absurd (creates_of_reply hreply) hcreates
    · rfl

/-- The row that an update leaves. -/
def updatedRule (body : Json) (now : Str) (row : PortForwardRuleRow) : PortForwardRuleRow :=
  { row with
    name := (str? body "name".toList).getD row.name
    protocol := (str? body "protocol".toList).getD row.protocol
    sourceIp := (str? body "sourceIp".toList).getD row.sourceIp
    sourcePort := (i32? body "sourcePort".toList).getD row.sourcePort
    targetIp := (str? body "targetIp".toList).getD row.targetIp
    targetPort := (i32? body "targetPort".toList).getD row.targetPort
    description := (str? body "description".toList).getD row.description
    updatedAt := now }

theorem portOf_updatedRule (body : Json) (now : Str) (row : PortForwardRuleRow) {key : Str}
    (hkey : key ∈ portKeys) :
    portOf key (updatedRule body now row) = (i32? body key).getD (portOf key row) := by
  simp only [portKeys, List.mem_cons, List.not_mem_nil, or_false] at hkey
  rcases hkey with rfl | rfl
  · rfl
  · rfl

theorem find?_rowsOf {spaceId : Str}
    (h : row ∈ db.portForwards.rows) (hspace : row.spaceId = spaceId) :
    (rowsOf PortForwardRuleRow.spaceId spaceId db.portForwards.rows).find?
      (fun r => r.id = row.id) = some row := by
  let t : Rows PortForwardRuleRow.id :=
    ⟨rowsOf PortForwardRuleRow.spaceId spaceId db.portForwards.rows,
      db.portForwards.nodup.sublist (List.filter_sublist.map _)⟩
  refine t.find?_key (List.mem_filter.2 ⟨h, ?_⟩)
  exact decide_eq_true hspace

theorem updatePortForward_updated {spaceId : Str} (h : Updates db io spaceId body row) (now : Str) :
    ∃ db', updatePortForwardRuleHandler db io spaceId body now =
        (db', .portForwardRule (updatedRule body now row)) ∧
      updatedRule body now row ∈ db'.portForwards.rows := by
  rcases h with ⟨hrow, hspace, hid, hrule, hprotocol, hselect, hwrite⟩
  have htcp : (updatedRule body now row).protocol = "tcp".toList ∨
      (updatedRule body now row).protocol = "udp".toList := by
    rw [List.mem_cons, List.mem_singleton] at hprotocol
    exact hprotocol
  have hreply : updatePortForwardRuleHandler db io spaceId body now =
      replyTo (db.updatePortForwardRule io (updatedRule body now row))
        (.portForwardRule (updatedRule body now row)) := by
    simp only [updatePortForwardRuleHandler, hrule, Option.getD_some, if_neg hid,
      SpaceDb.getPortForwardRules, hselect, find?_rowsOf hrow hspace]
    rfl
  rw [hreply, SpaceDb.updatePortForwardRule, hwrite]
  simp only [if_pos htcp]
  refine ⟨_, rfl, List.mem_map.2 ⟨row, hrow, ?_⟩⟩
  exact if_pos (decide_eq_true rfl)

theorem updates_of_reply {db db' : SpaceDb} {spaceId now : Str} {rule : PortForwardRuleRow}
    (h : updatePortForwardRuleHandler db io spaceId body now = (db', .portForwardRule rule)) :
    ∃ row, Updates db io spaceId body row := by
  rw [updatePortForwardRuleHandler] at h
  split at h
  · cases h
  rename_i hid
  rw [SpaceDb.getPortForwardRules] at h
  cases hselect : io.select with
  | some e =>
    rw [hselect] at h
    cases h
  | none =>
    simp only [hselect] at h
    split at h
    · cases h
    rename_i row hfind
    rcases List.mem_filter.1 (List.mem_of_find?_eq_some hfind) with ⟨hrow, hspace⟩
    have hkey : row.id = (str? body "rule_id".toList).getD [] := by
      simpa using List.find?_some hfind
    rw [SpaceDb.updatePortForwardRule] at h
    cases hwrite : io.write with
    | some e =>
      rw [hwrite] at h
      cases h
    | none =>
      simp only [hwrite] at h
      split at h
      · rename_i htcp
        refine ⟨row, hrow, of_decide_eq_true hspace, hkey ▸ hid, ?_, ?_, hselect, hwrite⟩
        · cases hrule : str? body "rule_id".toList with
          | none =>
            rw [hrule] at hid
            exact absurd rfl hid
          | some id =>
            rw [hrule] at hkey
            rw [hkey]
            rfl
        · rw [List.mem_cons, List.mem_singleton]
          exact htcp
      · cases h

/-- An id names one row of a space. -/
theorem Updates.unique {spaceId : Str}
    {row row' : PortForwardRuleRow} (h : Updates db io spaceId body row)
    (h' : Updates db io spaceId body row') : row = row' :=
  db.portForwards.eq_of_key_eq h.1 h'.1
    (Option.some.inj (h.2.2.2.1.symm.trans h'.2.2.2.1))

theorem update_iff (db : SpaceDb) (io : Answers) (spaceId : Str) (body : Json) (now : Str) :
    (updatePortForward db io spaceId body now).Exact ↔
      (updatePortForward db io spaceId body now).Fits := by
  by_cases hupdates : ∃ row, Updates db io spaceId body row
  · rcases hupdates with ⟨row, hrow⟩
    rcases updatePortForward_updated hrow now with ⟨db', hreply, hmem⟩
    have hstored : (updatePortForward db io spaceId body now).stored =
        some (rowNumber db' row.id) := by
      rw [stored, hreply]
      rfl
    rw [exact_iff_of_stored hstored (fun _ => .int32) fun key => some (portOf key row : ℚ)]
    · constructor
      · intro h row' hrow' key hkey
        rw [← hrow.unique hrow']
        exact h key hkey
      · intro h
        exact h row hrow
    · intro key hkey
      have hnumber := rowNumber_of_mem hmem key
      rw [portOf_updatedRule body now row hkey, storedAt_int32] at hnumber
      exact hnumber
  · refine iff_of_true (exact_of_refused ?_) fun row hrow => absurd ⟨row, hrow⟩ hupdates
    rw [stored]
    split
    · rename_i hreply
      exact absurd (updates_of_reply hreply) hupdates
    · rfl

/-- A request that is served stores the numbers it gives exactly if they fit. -/
theorem numbers_exact_iff (req : Request) : req.Exact ↔ req.Fits := by
  cases req with
  | patchConfig env files patch => exact patch_iff env files patch
  | uploadConfig body => exact upload_iff body
  | createPortForward db io spaceId body id now => exact create_iff db io spaceId body id now
  | updatePortForward db io spaceId body now => exact update_iff db io spaceId body now

/-- Version 4294967297 is stored as 1. -/
theorem upload_version_wraps : ¬ ∀ req : Request, req.Exact := by
  intro h
  have hversion := h (.uploadConfig (.obj [("name".toList, .str "hosts".toList),
    (versionKey, .int 4294967297)])) _ rfl versionKey 4294967297 rfl rfl
  have heq : ((1 : Nat) : ℚ) = 4294967297 := Option.some.inj hversion
  revert heq
  decide

end Request

end Numbers

end HomeTier
