import HomeTier.EasyTier.Agreement
import HomeTier.Space.ConfigText

/-! # Joining a space

The command `join_space` of `src-tauri/src/commands/space.rs` hands the
configuration that it reads to `SpaceManager::join`. In server mode the page
sends the same configuration with `joinSpace` of `src/utils/api/web.ts`, and
`join_space_handler` of `server/routes.rs` takes three fields out of it. What
both store is compared as it is read back, without the ids that were drawn.
-/

namespace HomeTier.SpaceRecords

open Lib ConfigJson

variable {J : JsonText} {C : ConfigText J}

/-! ## The two ways -/

section Ways

variable (networkOf : Str → Option Str)

/-- The command `join_space`; `e` is what `serde_json` says of a text it does
not read. -/
def joinSpace (C : ConfigText J) (e : Str) (m : Manager) (fresh configJson : Str)
    (name : Option Str) (io : RecordIo) : Except Str SpaceRow × Manager :=
  match C.read fresh configJson with
  | none => (.error ("配置 json 解析失败: ".toList ++ e), m)
  | some config => join networkOf m config name io

/-- `body[key].as_str()` -/
def bodyText (body : Json) (key : String) : Option Str := (body.get key.toList).bind Json.asStr

/-- What the request of the page comes to. -/
inductive JoinError where
  /-- `JSON.parse` throws. -/
  | syntaxError
  /-- The body is not JSON for the server. -/
  | notJson
  | status (code : Nat) (text : Str)

/-- `join_space_handler`. Bodies over 2 MB, the limit of axum's `Json`, which are refused before
it is called, are left out. -/
def joinSpaceHandler (m : Manager) (fresh : Str) (body : Json) (io : RecordIo) :
    Except JoinError SpaceRow × Manager :=
  let networkName := (bodyText body "network_name").getD []
  let secret := (bodyText body "network_secret").getD []
  if networkName = [] ∨ secret = [] then
    (.error (.status 400 "缺少 network_name 或 network_secret".toList), m)
  else
    let config := setText "network_name" networkName (defaultConfig fresh)
    let config := setText "network_secret" secret config
    let config :=
      match bodyText body "virtual_ipv4" with
      | some ip => setText "virtual_ipv4" ip config
      | none => config
    let displayName := (bodyText body "name").filter (· ≠ [])
    match join networkOf m config displayName io with
    | (.ok space, m) => (.ok space, m)
    | (.error e, m) => (.error (.status 500 e), m)

/-- `...(name ? { name } : {})` -/
def nameEntry : Option Str → List (Str × Json)
  | some (c :: cs) => [("name".toList, .str (c :: cs))]
  | _ => []

/-- The body that the page sends. -/
def joinBody (P : JsJson J C) (configJson : Str) (name : Option Str) : Option Str :=
  (P.parse configJson).map fun config => P.stringify (P.assign config (nameEntry name))

/-- `joinSpace` of the page, up to the answer of the server. -/
def webJoinSpace (P : JsJson J C) (m : Manager) (fresh configJson : Str) (name : Option Str)
    (io : RecordIo) : Except JoinError SpaceRow × Manager :=
  match joinBody P configJson name with
  | none => (.error .syntaxError, m)
  | some text =>
    match J.parse text with
    | none => (.error .notJson, m)
    | some body => joinSpaceHandler networkOf m fresh body io

end Ways

/-- The column `config_json` of a space. -/
def column (id : Uuid) (m : Manager) : Option Json :=
  (m.db.spaces.find? (·.id = id)).bind (·.configJson)

/-- A configuration without its generated id. -/
def unnamed : ConfigData → ConfigData := modifyField "instance_id".toList fun _ => .str []

/-- The configuration of a space as it is read, without the id. -/
def storedConfig (id : Uuid) (m : Manager) : Option ConfigData :=
  ((column id m).bind (readConfig [])).map unnamed

/-- Both ways store the same configuration, whatever the database answers and
whatever ids are drawn, the id of the space being the same. -/
def JoinsAlike (networkOf : Str → Option Str) (P : JsJson J C) (configJson : Str)
    (name : Option Str) : Prop :=
  ∀ m e fresh fresh' io,
    storedConfig io.id (joinSpace networkOf C e m fresh configJson name io).2 =
      storedConfig io.id (webJoinSpace networkOf P m fresh' configJson name io).2

/-! ## What a configuration consists of -/

theorem eq_of_lookup_zip {names : List Str} {ds es : List ConfigData} (hnodup : names.Nodup)
    (hds : names.length = ds.length) (hes : names.length = es.length)
    (h : ∀ n ∈ names, (names.zip ds).lookup n = (names.zip es).lookup n) : ds = es := by
  induction names generalizing ds es with
  | nil =>
    rw [List.eq_nil_of_length_eq_zero hds.symm, List.eq_nil_of_length_eq_zero hes.symm]
  | cons n names ih =>
    rw [List.nodup_cons] at hnodup
    obtain ⟨d, ds, rfl⟩ := List.exists_cons_of_length_eq_add_one hds.symm
    obtain ⟨e, es, rfl⟩ := List.exists_cons_of_length_eq_add_one hes.symm
    have hhead := h n List.mem_cons_self
    simp only [List.zip_cons_cons, lookup_cons_eq, if_true] at hhead
    have htail : ds = es := by
      refine ih hnodup.2 (by simpa using hds) (by simpa using hes) ?_
      intro k hk
      have hne : k ≠ n := by
        rintro rfl
        exact hnodup.1 hk
      have hrest := h k (List.mem_cons_of_mem n hk)
      simpa only [List.zip_cons_cons, lookup_cons_eq, if_neg hne] using hrest
    rw [Option.some.inj hhead, htail]

theorem config_ext {a b : ConfigData} (ha : IsConfig a) (hb : IsConfig b)
    (h : ∀ n ∈ configNames, getField n a = getField n b) : a = b := by
  rcases ha with ⟨ds, rfl, hds⟩
  rcases hb with ⟨es, rfl, hes⟩
  have hlen : configNames.length = configTypes.length := by
    rw [configNames_eq, List.length_map]
  rw [eq_of_lookup_zip nodup_names (hlen.trans hds.length_eq)
    (hlen.trans hes.length_eq) h]

variable {cfg : ConfigData}

theorem isConfig_joinConfig (h : IsConfig cfg)
    (networkOf : Str → Option Str) (id : Uuid) : IsConfig (joinConfig networkOf id cfg) := by
  have hdhcp := isConfig_setDhcp h
  unfold joinConfig
  simp only
  split
  · exact isConfig_dedupeProxyCidrs (isConfig_setText hdhcp "virtual_ipv4" _ type_virtualIpv4) _
  · exact isConfig_dedupeProxyCidrs hdhcp _

theorem isConfig_unnamed (h : IsConfig cfg) : IsConfig (unnamed cfg) :=
  h.modifyField (t := .scalar .str) (by decide) fun _ _ => rfl

/-- The address that a joined space has. -/
def addressOf (id : Uuid) (cfg : ConfigData) : Str :=
  if textField "virtual_ipv4" cfg = [] then canonicalVirtualIpv4 id
  else textField "virtual_ipv4" cfg

/-- The network of this address. -/
def ownNetwork (networkOf : Str → Option Str) (id : Uuid) (cfg : ConfigData) : Option Str :=
  match getField "network_length".toList cfg with
  | some (.int len) =>
    if addressOf id cfg ≠ [] ∧ 0 < len ∧ len ≤ 32 then
      networkOf (addressOf id cfg ++ '/' :: decimalInt len)
    else none
  | _ => none

section Fields

variable (networkOf : Str → Option Str) (id : Uuid) {cfg : ConfigData} (h : IsConfig cfg)

/-- The configuration before its routes are put in order. -/
def addressed (id : Uuid) (cfg : ConfigData) : ConfigData :=
  let config := modifyField "dhcp".toList (fun _ => .bool false) cfg
  if textField "virtual_ipv4" config = [] then
    setText "virtual_ipv4" (canonicalVirtualIpv4 id) config
  else config

include h in
theorem getField_addressed (n : Str) : getField n (addressed id cfg) =
    if n = "virtual_ipv4".toList then some (.str (addressOf id cfg))
    else if n = "dhcp".toList then some (.bool false)
    else getField n cfg := by
  have hdhcp := isConfig_setDhcp h
  have hdhcpField : getField "dhcp".toList
      (modifyField "dhcp".toList (fun _ => .bool false) cfg) = some (.bool false) := by
    have hmem := mem_configNames type_dhcp
    rcases Option.isSome_iff_exists.1 (h.isSome_getField hmem) with ⟨d, hd⟩
    rw [getField_modifyField, if_pos rfl, hd]
    rfl
  have hother : ∀ n, n ≠ "dhcp".toList → getField n
      (modifyField "dhcp".toList (fun _ => .bool false) cfg) = getField n cfg := by
    intro n hn
    rw [getField_modifyField, if_neg hn]
  have haddress : textField "virtual_ipv4"
      (modifyField "dhcp".toList (fun _ => .bool false) cfg) = textField "virtual_ipv4" cfg := by
    rw [textField, hother _ (by decide), textField]
  rw [addressed, addressOf]
  simp only [haddress]
  split
  · by_cases hn : n = "virtual_ipv4".toList
    · rw [if_pos hn, hn]
      exact getField_setText "virtual_ipv4" _ hdhcp (mem_configNames type_virtualIpv4)
    · rw [if_neg hn, setText, getField_modifyField, if_neg hn]
      by_cases hd : n = "dhcp".toList
      · rw [if_pos hd, hd, hdhcpField]
      · rw [if_neg hd, hother n hd]
  · by_cases hn : n = "virtual_ipv4".toList
    · rw [if_pos hn, hn, hother _ (by decide)]
      exact h.getField_text type_virtualIpv4
    · rw [if_neg hn]
      by_cases hd : n = "dhcp".toList
      · rw [if_pos hd, hd, hdhcpField]
      · rw [if_neg hd, hother n hd]

include h in
theorem ownCidr_addressed : ownCidr networkOf (addressed id cfg) = ownNetwork networkOf id cfg := by
  have haddress : textField "virtual_ipv4" (addressed id cfg) = addressOf id cfg := by
    refine textField_eq ?_
    rw [getField_addressed id h, if_pos rfl]
  have hlength : getField "network_length".toList (addressed id cfg) =
      getField "network_length".toList cfg := by
    rw [getField_addressed id h, if_neg (by decide), if_neg (by decide)]
  simp only [ownCidr, haddress, hlength]
  rfl

include h in
/-- The fields of the configuration that is stored. -/
theorem getField_joinConfig (n : Str) : getField n (joinConfig networkOf id cfg) =
    if n = "proxy_cidrs".toList then
      (getField n cfg).map (withOwn (ownNetwork networkOf id cfg))
    else if n = "virtual_ipv4".toList then some (.str (addressOf id cfg))
    else if n = "dhcp".toList then some (.bool false)
    else getField n cfg := by
  have hjoin : joinConfig networkOf id cfg = dedupeProxyCidrs networkOf (addressed id cfg) := rfl
  rw [hjoin, dedupeProxyCidrs, getField_modifyField, ownCidr_addressed networkOf id h]
  by_cases hn : n = "proxy_cidrs".toList
  · rw [if_pos hn, if_pos hn, getField_addressed id h, hn, if_neg (by decide),
      if_neg (by decide)]
  · rw [if_neg hn, if_neg hn, getField_addressed id h]

end Fields

/-! ## Routes that are kept -/

variable {ds : List ConfigData}

/-- What is kept of the texts, and what was there, has `Q` exactly when all but
the blank ones have; `seen` are the texts kept so far. -/
theorem forall_keepFirst_iff {Q : Str → Prop}
    {acc : List Str × List ConfigData} (hacc : ∀ t, t ∈ acc.1 ↔ ∃ d ∈ acc.2, trim (textOf d) = t) :
    (∀ d ∈ (ds.foldl keepFirst acc).2, Q (trim (textOf d))) ↔
      (∀ d ∈ acc.2, Q (trim (textOf d))) ∧
        ∀ d ∈ ds, trim (textOf d) = [] ∨ Q (trim (textOf d)) := by
  induction ds generalizing acc with
  | nil => simp
  | cons x ds ih =>
    rw [List.foldl_cons, List.forall_mem_cons]
    by_cases hblank : trim (textOf x) = []
    · rw [show keepFirst acc x = acc from if_pos (.inl hblank), ih hacc]
      simp [hblank]
    · by_cases hseen : trim (textOf x) ∈ acc.1
      · rw [show keepFirst acc x = acc from if_pos (.inr (List.contains_iff_mem.2 hseen)), ih hacc]
        -- seen before: the entry that was kept speaks for it
        rcases (hacc _).1 hseen with ⟨d, hd, heq⟩
        constructor
        · rintro ⟨hold, hrest⟩
          exact ⟨hold, .inr (heq ▸ hold d hd), hrest⟩
        · rintro ⟨hold, -, hrest⟩
          exact ⟨hold, hrest⟩
      · have hstep : keepFirst acc x = (trim (textOf x) :: acc.1, acc.2 ++ [x]) := by
          simp [keepFirst, hblank, hseen]
        rw [hstep, ih]
        · simp only [List.mem_append, List.mem_singleton, hblank, false_or]
          constructor
          · rintro ⟨hold, hrest⟩
            exact ⟨fun d hd => hold d (.inl hd), hold x (.inr rfl), hrest⟩
          · rintro ⟨hold, hx, hrest⟩
            refine ⟨?_, hrest⟩
            rintro d (hd | rfl)
            · exact hold d hd
            · exact hx
        · intro t
          rw [List.mem_cons, hacc]
          constructor
          · rintro (rfl | ⟨d, hd, heq⟩)
            · exact ⟨x, by simp, rfl⟩
            · exact ⟨d, by simp [hd], heq⟩
          · rintro ⟨d, hd, heq⟩
            rcases List.mem_append.1 hd with hd | hd
            · exact .inr ⟨d, hd, heq⟩
            · exact .inl (List.mem_singleton.1 hd ▸ heq.symm)

theorem forall_firstTexts_iff {Q : Str → Prop} : (∀ d ∈ firstTexts ds, Q (trim (textOf d))) ↔
      ∀ d ∈ ds, trim (textOf d) = [] ∨ Q (trim (textOf d)) := by
  rw [firstTexts, forall_keepFirst_iff (by simp)]
  simp

/-- The routes come to those of an empty list: there is nothing among them but
blanks and the own network. -/
theorem withOwn_eq_iff {own : Option Str} : withOwn own (.list ds) = withOwn own (.list []) ↔
      ∀ d ∈ ds, trim (textOf d) = [] ∨ own = some (trim (textOf d)) := by
  cases own with
  | none =>
    have hnil : firstTexts ds = [] ↔ ∀ d ∈ firstTexts ds, False :=
      List.eq_nil_iff_forall_not_mem
    have hkept : (∀ d ∈ firstTexts ds, False) ↔ ∀ d ∈ ds, trim (textOf d) = [] ∨ False :=
      forall_firstTexts_iff (Q := fun _ => False)
    constructor
    · intro heq d hd
      have : firstTexts ds = [] := by simpa [withOwn, firstTexts] using heq
      exact (hkept.1 (hnil.1 this) d hd).imp_right False.elim
    · intro hall
      have : firstTexts ds = [] := hnil.2 (hkept.2 fun d hd => (hall d hd).imp_right (by simp))
      rw [withOwn, withOwn, this]
      rfl
  | some own =>
    have hkept : (∀ d ∈ firstTexts ds, own = trim (textOf d)) ↔
        ∀ d ∈ ds, trim (textOf d) = [] ∨ own = trim (textOf d) :=
      forall_firstTexts_iff (Q := fun t => own = t)
    have hfilter : ((firstTexts ds).filter fun d => trim (textOf d) ≠ own) = [] ↔
        ∀ d ∈ firstTexts ds, own = trim (textOf d) := by
      rw [List.filter_eq_nil_iff]
      constructor
      · intro h d hd
        by_contra hne
        exact h d hd (decide_eq_true (Ne.symm hne))
      · intro h d hd hne
        exact of_decide_eq_true hne (h d hd).symm
    simp only [Option.some.injEq]
    rw [← hkept, ← hfilter]
    simp [withOwn, firstTexts]

/-! ## What is stored -/

theorem map_update_of_ne {rows : List SpaceRow} {id : Uuid} (h : ∀ row ∈ rows, row.id ≠ id)
    (f : SpaceRow → SpaceRow) : (rows.map fun row => if row.id = id then f row else row) = rows :=
  (List.map_congr_left fun row hrow => if_neg (h row hrow)).trans (List.map_id _)

/-- The row that was just inserted is given the configuration. -/
theorem column_storeConfig {m : Manager} {db : Db} {io : RecordIo} {row : SpaceRow} {id : Uuid}
    {rows : List SpaceRow} (hid : row.id = id) (hdb : db.spaces = rows ++ [row])
    (hnew : ∀ r ∈ rows, r.id ≠ id) (hupdated : io.configUpdated = .ok ()) :
    column id (storeConfig m db io row cfg).2 = some (writeConfig cfg) := by
  have hnone : rows.find? (·.id = id) = none := by
    rw [List.find?_eq_none]
    intro r hr heq
    exact hnew r hr (of_decide_eq_true heq)
  simp only [storeConfig, updateSpaceConfig, hupdated, column, hdb, hid, List.map_append,
    map_update_of_ne hnew, List.find?_append, hnone]
  simp [hid]

/-- Where a join does not come to storing a configuration, none plays a part. -/
theorem column_join (networkOf : Str → Option Str) (m : Manager) (io : RecordIo) :
    (∃ c, ∀ cfg name, column io.id (join networkOf m cfg name io).2 = c) ∨
      ∀ cfg name, column io.id (join networkOf m cfg name io).2 =
        some (writeConfig (joinConfig networkOf io.id cfg)) := by
  cases huser : io.userId with
  | error e =>
    refine .inl ⟨column io.id m, fun cfg name => ?_⟩
    simp only [join, huser]
  | ok userId =>
    cases hinserted : io.spaceInserted with
    | error e =>
      refine .inl ⟨column io.id m, fun cfg name => ?_⟩
      simp only [join, huser, hinserted, insertSpace]
    | ok _ =>
      by_cases hhas : m.db.hasSpace io.id = true
      · refine .inl ⟨column io.id m, fun cfg name => ?_⟩
        simp only [join, huser, hinserted, insertSpace, newRow, hhas, if_true]
      · have hnew : ∀ row ∈ m.db.spaces, row.id ≠ io.id := by
          intro row hrow heq
          exact hhas (List.any_eq_true.2 ⟨row, hrow, decide_eq_true heq⟩)
        have hnone : m.db.spaces.find? (·.id = io.id) = none := by
          rw [List.find?_eq_none]
          intro row hrow heq
          exact hnew row hrow (of_decide_eq_true heq)
        cases hupdated : io.configUpdated with
        | error e =>
          refine .inl ⟨none, fun cfg name => ?_⟩
          simp [join, huser, hinserted, insertSpace, newRow, hhas, storeConfig, hupdated,
            updateSpaceConfig, column, List.find?_append, hnone]
        | ok _ =>
          refine .inr fun cfg name => ?_
          simp only [join, huser, hinserted, insertSpace, newRow, hhas, Bool.false_eq_true, if_false]
          exact column_storeConfig rfl rfl hnew hupdated

theorem read_column (h : IsConfig cfg) (networkOf : Str → Option Str) (id : Uuid) :
    ((some (writeConfig (joinConfig networkOf id cfg))).bind (readConfig [])).map unnamed =
      some (unnamed (joinConfig networkOf id cfg)) := by
  rw [Option.bind_some, (isConfig_joinConfig h networkOf id).readConfig_writeConfig]
  rfl

/-- What is stored by two joins whose configurations come to the same. -/
theorem stored_congr {networkOf : Str → Option Str} {m : Manager} {io : RecordIo}
    {cfg cfg' : ConfigData} (h : IsConfig cfg) (h' : IsConfig cfg')
    (heq : unnamed (joinConfig networkOf io.id cfg) = unnamed (joinConfig networkOf io.id cfg'))
    (name name' : Option Str) :
    storedConfig io.id (join networkOf m cfg name io).2 =
      storedConfig io.id (join networkOf m cfg' name' io).2 := by
  rcases column_join networkOf m io with ⟨c, hc⟩ | hc
  · rw [storedConfig, storedConfig, hc, hc]
  · rw [storedConfig, storedConfig, hc, hc, read_column h, read_column h', heq]

/-- An empty table that takes everything. -/
def emptyManager : Manager := ⟨⟨[], []⟩, []⟩

theorem stored_empty (networkOf : Str → Option Str) (h : IsConfig cfg)
    (id : Uuid) (user : Str) (name : Option Str) :
    storedConfig id (join networkOf emptyManager cfg name (grantedIo id user)).2 =
      some (unnamed (joinConfig networkOf id cfg)) := by
  have hc : column id (join networkOf emptyManager cfg name (grantedIo id user)).2 =
      some (writeConfig (joinConfig networkOf id cfg)) :=
    column_storeConfig rfl rfl (fun r hr => nomatch hr) rfl
  rw [storedConfig, hc, read_column h]

/-! ## The configuration that the server makes -/

def webConfig (fresh networkName secret : Str) (address : Option Str) : ConfigData :=
  let config := setText "network_secret" secret
    (setText "network_name" networkName (defaultConfig fresh))
  match address with
  | some ip => setText "virtual_ipv4" ip config
  | none => config

theorem isConfig_webConfig (fresh networkName secret : Str) (address : Option Str) :
    IsConfig (webConfig fresh networkName secret address) := by
  have hbase := isConfig_setText (isConfig_setText (isConfig_default fresh) "network_name"
    networkName type_networkName) "network_secret" secret type_networkSecret
  cases address with
  | none => exact hbase
  | some ip => exact isConfig_setText hbase "virtual_ipv4" ip type_virtualIpv4

def lengthField : ConfigField := ⟨"network_length".toList, .scalar (.uint 8), .int 24⟩

theorem mem_lengthField (fresh : Str) : lengthField ∈ configFields fresh :=
  .tail _ (.tail _ (.tail _ (.tail _ (.head _))))

def proxyField : ConfigField := ⟨"proxy_cidrs".toList, .strings, .list []⟩

theorem mem_proxyField (fresh : Str) : proxyField ∈ configFields fresh :=
  .tail _ (.tail _ (.tail _ (.tail _ (.tail _ (.tail _ (.tail _ (.tail _ (.tail _ (.tail _
    (.tail _ (.tail _ (.tail _ (.tail _ (.head _))))))))))))))

theorem textField_default_address (fresh : Str) :
    textField "virtual_ipv4" (defaultConfig fresh) = [] :=
  textField_eq (getField_default (mem_addressField fresh))

section WebFields

variable (fresh networkName secret : Str) (address : Option Str)

theorem getField_webConfig_other {n : Str}
    (hn : n ∉ ["network_name".toList, "network_secret".toList, "virtual_ipv4".toList]) :
    getField n (webConfig fresh networkName secret address) = getField n (defaultConfig fresh) := by
  simp only [List.mem_cons, not_or] at hn
  rcases hn with ⟨hname, hsecret, haddress, -⟩
  cases address with
  | none =>
    rw [webConfig, setText, setText, getField_modifyField, if_neg hsecret, getField_modifyField,
      if_neg hname]
  | some ip =>
    rw [webConfig, setText, setText, setText, getField_modifyField, if_neg haddress,
      getField_modifyField, if_neg hsecret, getField_modifyField, if_neg hname]

theorem getField_webConfig_name :
    getField "network_name".toList (webConfig fresh networkName secret address) =
      some (.str networkName) := by
  have hset := getField_setText "network_name" networkName (isConfig_default fresh)
    (mem_configNames type_networkName)
  cases address with
  | none =>
    rw [webConfig, setText, getField_modifyField, if_neg (by decide)]
    exact hset
  | some ip =>
    rw [webConfig, setText, setText, getField_modifyField, if_neg (by decide),
      getField_modifyField, if_neg (by decide)]
    exact hset

theorem getField_webConfig_secret :
    getField "network_secret".toList (webConfig fresh networkName secret address) =
      some (.str secret) := by
  have hset := getField_setText "network_secret" secret (isConfig_setText (isConfig_default fresh)
    "network_name" networkName type_networkName) (mem_configNames type_networkSecret)
  cases address with
  | none => exact hset
  | some ip =>
    rw [webConfig, setText, getField_modifyField, if_neg (by decide)]
    exact hset

theorem textField_webConfig_address :
    textField "virtual_ipv4" (webConfig fresh networkName secret address) = address.getD [] := by
  cases address with
  | none =>
    rw [webConfig, textField, setText, setText, getField_modifyField, if_neg (by decide),
      getField_modifyField, if_neg (by decide)]
    exact textField_default_address fresh
  | some ip =>
    refine textField_eq (getField_setText "virtual_ipv4" ip ?_ (mem_configNames type_virtualIpv4))
    exact isConfig_setText (isConfig_setText (isConfig_default fresh) "network_name" networkName
      type_networkName) "network_secret" secret type_networkSecret

end WebFields

/-! ## When both ways store the same -/

section Alike

variable (networkOf : Str → Option Str) (P : JsJson J C)

/-- A text of the configuration, as the page finds it. -/
def sentText (configJson : Str) (key : String) : Option Str :=
  (P.parse configJson).bind fun v => ((spread (P.view v)).lookup key.toList).bind Json.asStr

/-- The server reads the body that the page sends; it is one below axum's limit of 2 MB. -/
def Received (configJson : Str) (name : Option Str) : Prop :=
  ∃ text body, joinBody P configJson name = some text ∧ J.parse text = some body

/-- The page finds a name and a secret. -/
def Named (configJson : Str) : Prop :=
  (sentText P configJson "network_name").getD [] ≠ [] ∧
    (sentText P configJson "network_secret").getD [] ≠ []

/-- The page finds the name, the secret and the address of the configuration. -/
structure Passed (configJson : Str) (cfg : ConfigData) : Prop where
  networkName : (sentText P configJson "network_name").getD [] = textField "network_name" cfg
  secret : (sentText P configJson "network_secret").getD [] = textField "network_secret" cfg
  address : (sentText P configJson "virtual_ipv4").getD [] = textField "virtual_ipv4" cfg

/-- The fields that a configuration need not leave to their defaults. -/
def freeFields : List Str :=
  ["instance_id".toList, "dhcp".toList, "virtual_ipv4".toList, "network_name".toList,
    "network_secret".toList, "proxy_cidrs".toList]

/-- The other fields have their defaults, and nothing but the network of the own
address is routed. -/
structure Plain (cfg : ConfigData) : Prop where
  fields : ∀ f ∈ configFields [], f.name ∉ freeFields → getField f.name cfg = some f.default
  routes : ∀ id ds d, getField "proxy_cidrs".toList cfg = some (.list ds) → d ∈ ds →
    trim (textOf d) = [] ∨ ownNetwork networkOf id cfg = some (trim (textOf d))

/-- Neither way takes the input, or both do and the configuration says nothing
that the server does not look for. -/
def Agreeing (configJson : Str) (name : Option Str) : Prop :=
  ∀ fresh, match C.read fresh configJson with
    | none => ¬ (Received P configJson name ∧ Named P configJson)
    | some cfg => Received P configJson name ∧ Named P configJson ∧
        Passed P configJson cfg ∧ Plain networkOf cfg

end Alike

variable {networkOf : Str → Option Str} {P : JsJson J C} {configJson : Str} {name : Option Str}

theorem Agreeing.plain {fresh : Str}
    (h : Agreeing networkOf P configJson name) (hread : C.read fresh configJson = some cfg) :
    Plain networkOf cfg := by
  have hfresh := h fresh
  rw [hread] at hfresh
  exact hfresh.2.2.2

theorem lookup_nameEntry {key : Str} (h : key ≠ "name".toList) :
    (nameEntry name).lookup key = none := by
  unfold nameEntry
  split
  · rw [lookup_cons_eq, if_neg h]
    rfl
  · rfl

theorem nodup_nameEntry : ((nameEntry name).map (·.1)).Nodup := by
  unfold nameEntry
  split <;> simp

/-- What the server finds in the body is what the page finds in the text. -/
theorem bodyText_eq {text : Str} {body : Json} (htext : joinBody P configJson name = some text)
    (hbody : J.parse text = some body) {key : String} (hkey : key.toList ∈ pageTexts)
    (hname : key.toList ≠ "name".toList) : bodyText body key = sentText P configJson key := by
  rcases Option.map_eq_some_iff.1 htext with ⟨v, hv, rfl⟩
  have hsame := P.stringify_texts _ _ hbody key.toList hkey
  rw [P.view_assign] at hsame
  rw [bodyText, sentText, hv, Option.bind_some, ← hsame]
  show ((insertEntries (nameEntry name) (spread (P.view v))).lookup key.toList).bind _ = _
  rw [lookup_insertEntries nodup_nameEntry, lookup_nameEntry hname, Option.none_or]

/-- What the server does with a body. -/
theorem joinSpaceHandler_eq (m : Manager) (fresh : Str) (body : Json) (io : RecordIo) :
    (joinSpaceHandler networkOf m fresh body io).2 =
      if (bodyText body "network_name").getD [] = [] ∨ (bodyText body "network_secret").getD [] = []
      then m
      else (join networkOf m (webConfig fresh ((bodyText body "network_name").getD [])
        ((bodyText body "network_secret").getD []) (bodyText body "virtual_ipv4"))
        ((bodyText body "name").filter (· ≠ [])) io).2 := by
  unfold joinSpaceHandler
  simp only
  split
  · rfl
  · unfold webConfig
    split
    · rename_i h
      exact (congrArg Prod.snd h).symm
    · rename_i h
      exact (congrArg Prod.snd h).symm

variable (networkOf) in
theorem web_refused (m : Manager) (fresh : Str) (io : RecordIo)
    (h : ¬ (Received P configJson name ∧ Named P configJson)) :
    (webJoinSpace networkOf P m fresh configJson name io).2 = m := by
  unfold webJoinSpace
  split
  · rfl
  · rename_i text htext
    split
    · rfl
    · rename_i body hbody
      rw [joinSpaceHandler_eq, if_pos]
      rw [bodyText_eq htext hbody (by decide) (by decide),
        bodyText_eq htext hbody (by decide) (by decide)]
      by_contra hnamed
      rw [not_or] at hnamed
      exact h ⟨⟨text, body, htext, hbody⟩, hnamed⟩

variable (networkOf) in
theorem web_accepted (m : Manager) (fresh : Str) (io : RecordIo) (h : Received P configJson name)
    (hnamed : Named P configJson) :
    ∃ displayName, (webJoinSpace networkOf P m fresh configJson name io).2 =
      (join networkOf m (webConfig fresh ((sentText P configJson "network_name").getD [])
        ((sentText P configJson "network_secret").getD []) (sentText P configJson "virtual_ipv4"))
        displayName io).2 := by
  rcases h with ⟨text, body, htext, hbody⟩
  refine ⟨(bodyText body "name").filter (· ≠ []), ?_⟩
  rw [webJoinSpace, htext]
  simp only [hbody]
  rw [joinSpaceHandler_eq, bodyText_eq htext hbody (by decide) (by decide),
    bodyText_eq htext hbody (by decide) (by decide),
    bodyText_eq htext hbody (by decide) (by decide), if_neg]
  rintro (hnil | hnil)
  · exact hnamed.1 hnil
  · exact hnamed.2 hnil

theorem getField_unnamed (n : Str) (cfg : ConfigData) : getField n (unnamed cfg) =
    if n = "instance_id".toList then (getField n cfg).map fun _ => .str [] else getField n cfg :=
  getField_modifyField n _ _ cfg

/-- Only the id depends on what was drawn. -/
theorem mem_configFields {f : ConfigField} {fresh : Str} (hf : f ∈ configFields [])
    (hname : f.name ≠ "instance_id".toList) : f ∈ configFields fresh := by
  rcases List.mem_cons.1 hf with rfl | hf
  · exact absurd rfl hname
  · exact List.mem_cons_of_mem _ hf

/-- Addresses that agree for every id were given alike. -/
theorem textField_eq_of_addressOf {a b : ConfigData} (h : ∀ id, addressOf id a = addressOf id b) :
    textField "virtual_ipv4" a = textField "virtual_ipv4" b := by
  have hids : canonicalVirtualIpv4 0 ≠ canonicalVirtualIpv4 1 := by decide
  have h0 := h 0
  have h1 := h 1
  unfold addressOf at h0 h1
  by_cases ha : textField "virtual_ipv4" a = []
  · by_cases hb : textField "virtual_ipv4" b = []
    · rw [ha, hb]
    · rw [if_pos ha, if_neg hb] at h0 h1
      exact absurd (h0.trans h1.symm) hids
  · by_cases hb : textField "virtual_ipv4" b = []
    · rw [if_neg ha, if_pos hb] at h0 h1
      exact absurd (h0.symm.trans h1) hids
    · rwa [if_neg ha, if_neg hb] at h0

section Same

variable (P configJson) (fresh : Str)

/-- What the server makes of the configuration that the page finds. -/
def foundConfig : ConfigData :=
  webConfig fresh ((sentText P configJson "network_name").getD [])
    ((sentText P configJson "network_secret").getD []) (sentText P configJson "virtual_ipv4")

theorem isConfig_foundConfig : IsConfig (foundConfig P configJson fresh) :=
  isConfig_webConfig _ _ _ _

theorem getField_foundConfig {f : ConfigField} (hf : f ∈ configFields [])
    (hfree : f.name ∉ freeFields ∨ f.name = "proxy_cidrs".toList) :
    getField f.name (foundConfig P configJson fresh) = some f.default := by
  have hname : f.name ≠ "instance_id".toList := by
    rintro heq
    rw [heq] at hfree
    exact absurd hfree (by decide)
  rw [foundConfig, getField_webConfig_other]
  · exact getField_default (mem_configFields hf hname)
  · intro hmem
    rcases hfree with hfree | hfree
    · have hsub : ∀ n ∈ ["network_name".toList, "network_secret".toList, "virtual_ipv4".toList],
          n ∈ freeFields := forall_mem_of_all (by decide)
      exact hfree (hsub _ hmem)
    · rw [hfree] at hmem
      exact absurd hmem (by decide)

theorem getField_proxies {cfg : ConfigData} (h : IsConfig cfg) :
    ∃ ds, getField "proxy_cidrs".toList cfg = some (.list ds) := by
  rcases h.exists_getField type_proxyCidrs with ⟨d, hd, hread⟩
  cases d with
  | list ds => exact ⟨ds, hd⟩
  | _ => cases hread

theorem ownNetwork_congr {a b : ConfigData} (id : Uuid)
    (haddress : textField "virtual_ipv4" a = textField "virtual_ipv4" b)
    (hlength : getField "network_length".toList a = getField "network_length".toList b) :
    ownNetwork networkOf id a = ownNetwork networkOf id b := by
  rw [ownNetwork, ownNetwork, hlength, addressOf, addressOf, haddress]

end Same

/-- The fields of the two spaces, one by one. -/
theorem unnamed_eq_iff {a b : ConfigData} (ha : IsConfig a) (hb : IsConfig b) :
    unnamed a = unnamed b ↔
      ∀ n ∈ configNames, n ≠ "instance_id".toList → getField n a = getField n b := by
  constructor
  · intro heq n _ hname
    have hfield := congrArg (getField n) heq
    rwa [getField_unnamed, getField_unnamed, if_neg hname, if_neg hname] at hfield
  · intro hall
    refine config_ext (isConfig_unnamed ha) (isConfig_unnamed hb) fun n hn => ?_
    rw [getField_unnamed, getField_unnamed]
    by_cases hname : n = "instance_id".toList
    · rw [if_pos hname, if_pos hname]
      rcases Option.isSome_iff_exists.1 (ha.isSome_getField hn) with ⟨d, hd⟩
      rcases Option.isSome_iff_exists.1 (hb.isSome_getField hn) with ⟨e, he⟩
      rw [hd, he]
      rfl
    · rw [if_neg hname, if_neg hname]
      exact hall n hn hname

/-- A configuration that is plain, and passed as it is, becomes the same space. -/
theorem unnamed_eq_of_plain (fresh : Str) (h : IsConfig cfg)
    (hpassed : Passed P configJson cfg) (hplain : Plain networkOf cfg) (id : Uuid) :
    unnamed (joinConfig networkOf id cfg) =
      unnamed (joinConfig networkOf id (foundConfig P configJson fresh)) := by
  have hfound := isConfig_foundConfig P configJson fresh
  have haddress : textField "virtual_ipv4" cfg =
      textField "virtual_ipv4" (foundConfig P configJson fresh) := by
    rw [foundConfig, textField_webConfig_address, hpassed.address]
  have hdefault : ∀ f ∈ configFields [], f.name ∉ freeFields →
      getField f.name cfg = getField f.name (foundConfig P configJson fresh) := by
    intro f hf hfree
    rw [hplain.fields f hf hfree, getField_foundConfig P configJson fresh hf (.inl hfree)]
  have hlength := hdefault lengthField (mem_lengthField []) (by decide)
  refine (unnamed_eq_iff (isConfig_joinConfig h _ id) (isConfig_joinConfig hfound _ id)).2 ?_
  intro n hn hname
  rw [getField_joinConfig networkOf id h, getField_joinConfig networkOf id hfound]
  -- the fields the join writes, then those the link carries, then the defaults
  by_cases hproxy : n = "proxy_cidrs".toList
  · rw [if_pos hproxy, if_pos hproxy, hproxy, ← ownNetwork_congr id haddress hlength]
    rcases getField_proxies h with ⟨ds, hds⟩
    have hnil : getField "proxy_cidrs".toList (foundConfig P configJson fresh) = some (.list []) :=
      getField_foundConfig P configJson fresh (mem_proxyField []) (.inr rfl)
    rw [hds, hnil, Option.map_some, Option.map_some,
      withOwn_eq_iff.2 fun d hd => hplain.routes id ds d hds hd]
  · rw [if_neg hproxy, if_neg hproxy]
    by_cases hvirtual : n = "virtual_ipv4".toList
    · rw [if_pos hvirtual, if_pos hvirtual, addressOf, addressOf, haddress]
    · rw [if_neg hvirtual, if_neg hvirtual]
      by_cases hdhcp : n = "dhcp".toList
      · rw [if_pos hdhcp, if_pos hdhcp]
      · rw [if_neg hdhcp, if_neg hdhcp]
        by_cases hnet : n = "network_name".toList
        · rw [hnet, foundConfig, getField_webConfig_name, hpassed.networkName]
          exact h.getField_text type_networkName
        · by_cases hsecret : n = "network_secret".toList
          · rw [hsecret, foundConfig, getField_webConfig_secret, hpassed.secret]
            exact h.getField_text type_networkSecret
          · rw [configNames_eq_map []] at hn
            rcases List.mem_map.1 hn with ⟨f, hf, rfl⟩
            refine hdefault f hf ?_
            simp only [freeFields, List.mem_cons, not_or]
            exact ⟨hname, hdhcp, hvirtual, hnet, hsecret, hproxy, by simp⟩

/-- And only such a configuration does. -/
theorem plain_of_unnamed_eq (fresh : Str) (h : IsConfig cfg)
    (heq : ∀ id, unnamed (joinConfig networkOf id cfg) =
      unnamed (joinConfig networkOf id (foundConfig P configJson fresh))) :
    Passed P configJson cfg ∧ Plain networkOf cfg := by
  have hfound := isConfig_foundConfig P configJson fresh
  -- equal but for the id: equal in every other field
  have hfield : ∀ id n, n ∈ configNames → n ≠ "instance_id".toList →
      getField n (joinConfig networkOf id cfg) =
        getField n (joinConfig networkOf id (foundConfig P configJson fresh)) := fun id =>
    (unnamed_eq_iff (isConfig_joinConfig h _ id) (isConfig_joinConfig hfound _ id)).1 (heq id)
  simp only [getField_joinConfig networkOf _ h, getField_joinConfig networkOf _ hfound] at hfield
  -- the address shows in the fields that the join sets from it
  have haddress : textField "virtual_ipv4" cfg =
      textField "virtual_ipv4" (foundConfig P configJson fresh) := by
    refine textField_eq_of_addressOf fun id => ?_
    have hone := hfield id "virtual_ipv4".toList (mem_configNames type_virtualIpv4) (by decide)
    rw [if_neg (by decide), if_pos rfl, if_neg (by decide), if_pos rfl] at hone
    simpa using hone
  have hother : ∀ n ∈ configNames, n ∉ ["instance_id".toList, "proxy_cidrs".toList,
      "virtual_ipv4".toList, "dhcp".toList] →
      getField n cfg = getField n (foundConfig P configJson fresh) := by
    intro n hn hfree
    simp only [List.mem_cons, not_or] at hfree
    have hone := hfield 0 n hn hfree.1
    rwa [if_neg hfree.2.1, if_neg hfree.2.1, if_neg hfree.2.2.1, if_neg hfree.2.2.1,
      if_neg hfree.2.2.2.1, if_neg hfree.2.2.2.1] at hone
  refine ⟨⟨?_, ?_, ?_⟩, ?_, ?_⟩
  · have hone := hother "network_name".toList (mem_configNames type_networkName) (by decide)
    rw [foundConfig, getField_webConfig_name] at hone
    exact (textField_eq hone).symm
  · have hone := hother "network_secret".toList (mem_configNames type_networkSecret) (by decide)
    rw [foundConfig, getField_webConfig_secret] at hone
    exact (textField_eq hone).symm
  · rw [haddress, foundConfig, textField_webConfig_address]
  · intro f hf hfree
    rw [← getField_foundConfig P configJson fresh hf (.inl hfree)]
    refine hother f.name ?_ ?_
    · rw [configNames_eq_map []]
      exact List.mem_map_of_mem hf
    · have hsub : ∀ n ∈ ["instance_id".toList, "proxy_cidrs".toList, "virtual_ipv4".toList,
          "dhcp".toList], n ∈ freeFields := forall_mem_of_all (by decide)
      exact fun hmem => hfree (hsub _ hmem)
  · intro id ds d hds hd
    have hlength := hother "network_length".toList (List.mem_map_of_mem (mem_lengthField [])) (by decide)
    have hone := hfield id "proxy_cidrs".toList (mem_configNames type_proxyCidrs) (by decide)
    have hnil : getField "proxy_cidrs".toList (foundConfig P configJson fresh) = some (.list []) :=
      getField_foundConfig P configJson fresh (mem_proxyField []) (.inr rfl)
    rw [if_pos rfl, if_pos rfl, hds, hnil, ← ownNetwork_congr id haddress hlength] at hone
    exact withOwn_eq_iff.1 (Option.some.inj hone) d hd

theorem agreeing_of_joinsAlike (h : JoinsAlike networkOf P configJson name) :
    Agreeing networkOf P configJson name := by
  intro fresh
  have hempty : ∀ id, storedConfig id emptyManager = none := fun _ => rfl
  split
  · rename_i hread
    rintro ⟨hreceived, hnamed⟩
    -- the server stores a space where the command stores none
    have hboth := h emptyManager [] fresh [] (grantedIo 0 [])
    rw [joinSpace, hread] at hboth
    rcases web_accepted networkOf emptyManager [] (grantedIo 0 []) hreceived hnamed with ⟨display, hweb⟩
    rw [hweb] at hboth
    have hstored := stored_empty networkOf
      (isConfig_webConfig [] ((sentText P configJson "network_name").getD [])
        ((sentText P configJson "network_secret").getD [])
        (sentText P configJson "virtual_ipv4")) 0 [] display
    exact absurd ((hempty 0).symm.trans (hboth.trans hstored)) (by simp)
  · rename_i cfg hread
    have hcfg := C.isConfig _ _ _ hread
    have hdesktop : ∀ id, storedConfig id
        (joinSpace networkOf C [] emptyManager fresh configJson name (grantedIo id [])).2 =
          some (unnamed (joinConfig networkOf id cfg)) := by
      intro id
      rw [joinSpace, hread]
      exact stored_empty networkOf hcfg id [] name
    by_cases hrec : Received P configJson name ∧ Named P configJson
    · refine ⟨hrec.1, hrec.2, plain_of_unnamed_eq [] hcfg fun id => ?_⟩
      have hboth := h emptyManager [] fresh [] (grantedIo id [])
      rcases web_accepted networkOf emptyManager [] (grantedIo id []) hrec.1 hrec.2 with ⟨display, hweb⟩
      rw [hweb] at hboth
      have hstored := stored_empty networkOf
        (isConfig_webConfig [] ((sentText P configJson "network_name").getD [])
          ((sentText P configJson "network_secret").getD [])
          (sentText P configJson "virtual_ipv4")) id [] display
      exact Option.some.inj ((hdesktop id).symm.trans (hboth.trans hstored))
    · have hboth := h emptyManager [] fresh [] (grantedIo 0 [])
      rw [web_refused networkOf emptyManager [] (grantedIo 0 []) hrec] at hboth
      exact absurd ((hempty 0).symm.trans (hboth.symm.trans (hdesktop 0))) (by simp)

theorem joinsAlike_of_agreeing (h : Agreeing networkOf P configJson name) :
    JoinsAlike networkOf P configJson name := by
  intro m e fresh fresh' io
  have hfresh := h fresh
  rw [joinSpace]
  split at hfresh
  · rename_i hread
    rw [web_refused networkOf m fresh' io hfresh]
  · rename_i cfg hread
    rcases hfresh with ⟨hreceived, hnamed, hpassed, hplain⟩
    have hcfg := C.isConfig _ _ _ hread
    rcases web_accepted networkOf m fresh' io hreceived hnamed with ⟨display, hweb⟩
    rw [hweb]
    exact stored_congr hcfg (isConfig_webConfig _ _ _ _)
      (unnamed_eq_of_plain fresh' hcfg hpassed hplain io.id) name display

/-- A configuration becomes the same space in both ways exactly when neither
takes it, or it says nothing but the name, the secret and the address. -/
theorem joins_alike_iff (networkOf : Str → Option Str) (P : JsJson J C) (configJson : Str)
    (name : Option Str) :
    JoinsAlike networkOf P configJson name ↔ Agreeing networkOf P configJson name :=
  ⟨agreeing_of_joinsAlike, joinsAlike_of_agreeing⟩

/-! ### A configuration with a peer -/

def labPeer : Str := "tcp://10.0.0.5:11010".toList

def labEntries : List (Str × Json) :=
  [("network_name".toList, .str "lab".toList), ("network_secret".toList, .str "s3cret".toList),
    ("peer_urls".toList, .arr [.str labPeer])]

@[irreducible] def labText : Str := JsonText.compact.print (.obj labEntries)

theorem valid_lab : (Json.obj labEntries).Valid Json.nestingLimit := by
  have hsorted : (labEntries.map (·.1)).Pairwise (· < ·) := by decide
  refine Json.Valid.obj (d := 126) hsorted ?_
  intro e he
  simp only [labEntries, List.mem_cons, List.not_mem_nil, or_false] at he
  rcases he with rfl | rfl | rfl
  · exact .str _
  · exact .str _
  · refine Json.Valid.arr (d := 125) ?_
    intro x hx
    rw [List.mem_singleton.1 hx]
    exact .str _

theorem isSome_lab : (readConfig [] (.obj labEntries)).isSome = true := by decide

theorem read_lab (h : readConfig [] (.obj labEntries) = some cfg) :
    ConfigText.compact.read [] labText = some cfg := by
  have hparse : JsonText.compact.parse labText = some (.obj labEntries) := by
    rw [labText]
    exact JsonText.compact.parse_print _ valid_lab
  rw [ConfigText.compact.read_eq _ _ _ hparse]
  exact (if_neg Bool.false_ne_true).trans h

def peerField : ConfigField := ⟨"peer_urls".toList, .strings, .list []⟩

theorem mem_peerField : peerField ∈ configFields [] :=
  .tail _ (.tail _ (.tail _ (.tail _ (.tail _ (.tail _ (.tail _ (.tail _ (.tail _ (.tail _
    (.tail _ (.tail _ (.tail _ (.head _)))))))))))))

theorem readField_of_lookup {kvs : List (Str × Json)} {f : RecordField} {v : Json}
    (h : kvs.lookup f.name = some v) : readField kvs f = f.read v := by
  rw [readField, h]

theorem read_single (s : Str) : FieldType.strings.read (.arr [.str s]) = some (.list [.str s]) :=
  rfl

theorem readField_lab : readField labEntries peerField.toRecordField =
    some (.list [.str labPeer]) := by
  have hlookup : labEntries.lookup "peer_urls".toList = some (.arr [.str labPeer]) := by
    rw [labEntries, lookup_cons_eq, if_neg (by decide), lookup_cons_eq, if_neg (by decide),
      lookup_cons_eq, if_pos rfl]
  exact (readField_of_lookup (f := peerField.toRecordField) hlookup).trans (read_single labPeer)

/-- The address of a network as `cidr` prints it. -/
def networkText (s : Str) : Option Str := (readInet s).map ipv4Parsers.network

theorem not_plain_lab (hcfg : readConfig [] (.obj labEntries) = some cfg) :
    ¬ Plain networkText cfg := by
  intro hplain
  have hdefault := hplain.fields peerField mem_peerField (by decide)
  have hgiven := getField_readConfig hcfg mem_peerField
  have hlist : ([] : List ConfigData) = [.str labPeer] :=
    ConfigData.list.inj (Option.some.inj (hdefault.symm.trans (hgiven.trans readField_lab)))
  exact absurd hlist (by simp)

/-- The server drops the peer, and the node finds nobody. -/
theorem peers_dropped : ¬ JoinsAlike networkText JsJson.compact labText none := by
  intro h
  rcases Option.isSome_iff_exists.1 isSome_lab with ⟨cfg, hcfg⟩
  exact not_plain_lab hcfg ((agreeing_of_joinsAlike h).plain (read_lab hcfg))

end HomeTier.SpaceRecords
