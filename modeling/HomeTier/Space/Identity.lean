import HomeTier.Space.ConfigText
import HomeTier.Space.PatchConfig

/-! # The network of an effective configuration

`get_effective_config` of `src-tauri/src/space/manager.rs` takes name and secret
of the network from the stored `config_json` and fills empty ones from the space.
What an absent field is has been decided before by `#[serde(default)]`: the
secret is then empty, but the name is `easytier`, which is not filled any more.
A text that is no `NetworkConfig` is left out with the names it may have.

`identity_iff` says when the effective configuration is that of the right network.
-/

namespace HomeTier

open Lib ConfigJson SpaceRecords

/-! ## Fields of any value that is read -/

namespace ConfigJson

/-- What a value has for a field: `serde` takes an object or an array. -/
def givenField (key : Str) : Json → Option Json
  | .obj kvs => kvs.lookup key
  | .arr vs => vs[configNames.idxOf key]?
  | _ => none

theorem getElem?_readArray {fields : List RecordField} {vs : List Json} {ds : List ConfigData}
    (h : readArray fields vs = some ds) {i : Nat} {f : RecordField} (hf : fields[i]? = some f) :
    ∃ d, ds[i]? = some d ∧
      (match vs[i]? with
        | some v => f.read v
        | none => f.missing.inArray) = some d := by
  induction fields generalizing vs ds i with
  | nil => cases hf
  | cons f' fields ih =>
    cases vs with
    | nil =>
      rw [readArray] at h
      rcases Option.bind_eq_some_iff.1 h with ⟨d', hd', hrest⟩
      rcases Option.bind_eq_some_iff.1 hrest with ⟨ds', hds', hds⟩
      cases hds
      cases i with
      | zero =>
        cases hf
        exact ⟨d', rfl, hd'⟩
      | succ i => exact ih hds' hf
    | cons v vs =>
      rw [readArray] at h
      rcases Option.bind_eq_some_iff.1 h with ⟨d', hd', hrest⟩
      rcases Option.bind_eq_some_iff.1 hrest with ⟨ds', hds', hds⟩
      cases hds
      cases i with
      | zero =>
        cases hf
        exact ⟨d', rfl, hd'⟩
      | succ i => exact ih hds' hf

theorem getField_of_getElem? {ds : List ConfigData} (h : WellTyped ds) {i : Nat} {name : Str}
    {d : ConfigData} (hname : configNames[i]? = some name) (hd : ds[i]? = some d) :
    getField name (.record ds) = some d := by
  have hmem : (name, d) ∈ configNames.zip ds := by
    apply List.mem_of_getElem? (i := i)
    rw [List.getElem?_zip_eq_some]
    exact ⟨hname, hd⟩
  have hnodup : ((configNames.zip ds).map (·.1)).Nodup := by
    rw [List.map_fst_zip]
    · exact nodup_names
    · rw [configNames_eq, List.length_map]
      exact h.length_eq.le
  exact lookup_of_mem hnodup hmem

/-- A field of what was read is what the value has for it, and the default where
it has nothing. -/
theorem getField_of_read {fresh : Str} {v : Json} {cfg : ConfigData}
    (h : readConfig fresh v = some cfg) {f : ConfigField} (hf : f ∈ configFields fresh) :
    getField f.name cfg =
      match givenField f.name v with
      | some x => f.type.read x
      | none => some f.default := by
  cases v with
  | obj kvs =>
    rw [getField_readConfig h hf]
    rfl
  | arr vs =>
    rcases wellTyped_of_readConfig h with ⟨ds, rfl, htyped⟩
    rw [readConfig, readRecord, Option.map_eq_some_iff] at h
    rcases h with ⟨ds', hds, heq⟩
    obtain rfl := ConfigData.record.inj heq
    rcases List.mem_iff_getElem?.1 hf with ⟨i, hi⟩
    have hname : configNames[i]? = some f.name := by
      rw [configNames_eq_map fresh, List.getElem?_map, hi]
      rfl
    have hidx : configNames.idxOf f.name = i := by
      rcases List.getElem?_eq_some_iff.1 hname with ⟨hlt, heq⟩
      rw [← heq]
      exact nodup_names.idxOf_getElem i hlt
    have hfield : ((configFields fresh).map ConfigField.toRecordField)[i]? =
        some f.toRecordField := by
      rw [List.getElem?_map, hi]
      rfl
    rcases getElem?_readArray hds hfield with ⟨d, hd, hread⟩
    rw [getField_of_getElem? htyped hname hd, ← hread, givenField, hidx]
    rfl
  | _ => cases h

end ConfigJson

namespace SpacePatch

/-! ## Names -/

variable (J : JsonText) (fresh : Str) (space : Identity) (column : Option Str)

/-- The value in the column, if its text is JSON. -/
def columnValue : Option Json := column.bind fun text => J.parse (trim text)

/-- The text that the column has for a field, unless it is empty. -/
def givenText (key : Str) : Option Str :=
  (((columnValue J column).bind (givenField key)).bind Json.asStr).filter (· ≠ [])

/-- The network that the column names, and else that of the space. -/
def expectedIdentity : Identity where
  networkName := (givenText J column "network_name".toList).getD space.networkName
  networkSecret := (givenText J column "network_secret".toList).getD space.networkSecret

def identityOf (cfg : ConfigData) : Identity where
  networkName := textField "network_name" cfg
  networkSecret := textField "network_secret" cfg

/-- The effective configuration is there, and it is of the expected network. -/
def RightNetwork : Prop :=
  ∃ cfg, getEffectiveConfig J fresh (some space) (.ok column) = .ok cfg ∧
    identityOf cfg = expectedIdentity J space column

/-- The name of `NetworkConfig::default()`. -/
def libraryName : Str := "easytier".toList

/-- A readable value names its network, unless that of the space is called as the
library default; another value names no other network, and the preview of its text
does not end inside a character. -/
def NamesNetwork : Prop :=
  ∀ text, column = some text →
    (trim text = [] → space.networkName = libraryName) ∧
    ∀ v, J.parse (trim text) = some v →
      ((readConfig fresh v).isSome = true → givenField "network_name".toList v = none →
        space.networkName = libraryName) ∧
      (readConfig fresh v = none →
        isCharBoundary (min (utf8 (trim text)).length 200) (trim text) = true ∧
          expectedIdentity J space column = space)

/-! ## What the configuration is made of -/

variable {J fresh space column}

theorem fillEmpty_str (t s : Str) : fillEmpty t (.str s) = .str (if s = [] then t else s) := by
  cases s <;> rfl

/-- The name and the secret are filled each by itself. -/
theorem identityOf_fillIdentity {cfg : ConfigData} {name secret : Str}
    (hname : getField "network_name".toList cfg = some (.str name))
    (hsecret : getField "network_secret".toList cfg = some (.str secret)) :
    identityOf (fillIdentity space cfg) =
      ⟨if name = [] then space.networkName else name,
        if secret = [] then space.networkSecret else secret⟩ := by
  have hname' : getField "network_name".toList (fillIdentity space cfg) =
      some (.str (if name = [] then space.networkName else name)) := by
    rw [fillIdentity, getField_modifyField, if_neg (by decide), getField_modifyField, if_pos rfl,
      hname, Option.map_some, fillEmpty_str]
  have hsecret' : getField "network_secret".toList (fillIdentity space cfg) =
      some (.str (if secret = [] then space.networkSecret else secret)) := by
    rw [fillIdentity, getField_modifyField, if_pos rfl, getField_modifyField, if_neg (by decide),
      hsecret, Option.map_some, fillEmpty_str]
  rw [identityOf, textField_eq hname', textField_eq hsecret']

theorem getField_default_name (fresh : Str) :
    getField "network_name".toList (defaultConfig fresh) = some (.str libraryName) := rfl

theorem getField_default_secret (fresh : Str) :
    getField "network_secret".toList (defaultConfig fresh) = some (.str []) := rfl

theorem identityOf_fallbackConfig : identityOf (fallbackConfig fresh space) = space := by
  have hname : getField "network_name".toList (fallbackConfig fresh space) =
      some (.str space.networkName) := by
    rw [fallbackConfig, getField_modifyField, if_neg (by decide), getField_modifyField,
      if_neg (by decide), getField_modifyField, if_pos rfl, getField_default_name]
    rfl
  have hsecret : getField "network_secret".toList (fallbackConfig fresh space) =
      some (.str space.networkSecret) := by
    rw [fallbackConfig, getField_modifyField, if_neg (by decide), getField_modifyField, if_pos rfl,
      getField_modifyField, if_neg (by decide), getField_default_secret]
    rfl
  rw [identityOf, textField_eq hname, textField_eq hsecret]

/-- The text that `serde` puts in a field. -/
def readText (key absent : Str) (v : Json) : Str :=
  match givenField key v with
  | some x => x.asStr.getD []
  | none => absent

section Readable

variable {v : Json} {cfg : ConfigData} (h : readConfig fresh v = some cfg) {key absent : Str}
  (hf : ⟨key, .scalar .str, .str absent⟩ ∈ configFields fresh)

include h hf

/-- Whatever a readable value has for a text is one. -/
theorem exists_str_of_read {x : Json} (hx : givenField key v = some x) : ∃ s, x = .str s := by
  have hget := getField_of_read h hf
  simp only [hx] at hget
  have hmem : (key, FieldType.scalar .str) ∈ configTypes := by
    rw [← map_configFields fresh]
    exact List.mem_map_of_mem hf
  have hnodup : (configTypes.map (·.1)).Nodup := by
    rw [← configNames_eq]
    exact nodup_names
  rcases IsConfig.exists_getField (wellTyped_of_readConfig h) (lookup_of_mem hnodup hmem) with
    ⟨d, hd, -⟩
  rw [hd] at hget
  cases x with
  | str s => exact ⟨s, rfl⟩
  | _ => cases hget

theorem getField_readText : getField key cfg = some (.str (readText key absent v)) := by
  have hget := getField_of_read h hf
  rw [readText]
  cases hgiven : givenField key v with
  | none =>
    rw [hgiven] at hget
    exact hget
  | some x =>
    rcases exists_str_of_read h hf hgiven with ⟨s, rfl⟩
    rw [hgiven] at hget
    exact hget

/-- A text that is filled where it is empty is the one given, unless the default
takes the place of an absent one. -/
theorem filled_eq_iff (hvalue : columnValue J column = some v) (t : Str) :
    (if readText key absent v = [] then t else readText key absent v) =
        (givenText J column key).getD t ↔
      (givenField key v = none → absent = [] ∨ t = absent) := by
  rw [givenText, hvalue, Option.bind_some, readText]
  cases hgiven : givenField key v with
  | none =>
    simp only [Option.bind_none, Option.filter_none, Option.getD_none, forall_const]
    by_cases habsent : absent = []
    · simp [habsent]
    · simp [habsent, eq_comm]
  | some x =>
    rcases exists_str_of_read h hf hgiven with ⟨s, rfl⟩
    simp only [Option.bind_some, Json.asStr, Option.getD_some, reduceCtorEq, false_implies, iff_true]
    by_cases hs : s = []
    · simp [hs, Option.filter]
    · simp [hs, Option.filter]

end Readable

theorem mem_nameField (fresh : Str) :
    ⟨"network_name".toList, .scalar .str, .str libraryName⟩ ∈ configFields fresh :=
  List.mem_of_getElem? (i := 8) rfl

theorem mem_secretField (fresh : Str) :
    ⟨"network_secret".toList, .scalar .str, .str []⟩ ∈ configFields fresh :=
  List.mem_of_getElem? (i := 9) rfl

/-- The network of a value that is read. -/
theorem identityOf_fillIdentity_iff {v : Json} {cfg : ConfigData}
    (h : readConfig fresh v = some cfg) (hvalue : columnValue J column = some v) :
    identityOf (fillIdentity space cfg) = expectedIdentity J space column ↔
      (givenField "network_name".toList v = none → space.networkName = libraryName) := by
  have hne : libraryName ≠ [] := by decide
  have hname := filled_eq_iff h (mem_nameField fresh) hvalue space.networkName
  have hsecret := filled_eq_iff h (mem_secretField fresh) hvalue space.networkSecret
  simp only [hne, false_or] at hname
  simp only [true_or, implies_true, iff_true] at hsecret
  rw [identityOf_fillIdentity (getField_readText h (mem_nameField fresh))
    (getField_readText h (mem_secretField fresh)), expectedIdentity, Identity.mk.injEq, ← hname]
  exact and_iff_left hsecret

/-- Without a value the column names nothing. -/
theorem expectedIdentity_of_none (h : columnValue J column = none) :
    expectedIdentity J space column = space := by
  rw [expectedIdentity, givenText, givenText, h]
  rfl

theorem identityOf_default (fresh : Str) :
    identityOf (fillIdentity space (defaultConfig fresh)) = ⟨libraryName, space.networkSecret⟩ := by
  rw [identityOf_fillIdentity (getField_default_name fresh) (getField_default_secret fresh),
    if_neg (by decide), if_pos rfl]

/-- `get_effective_config` gives the network that is asked for exactly if the
column names it. -/
theorem rightNetwork_iff (J : JsonText) (fresh : Str) (space : Identity) (column : Option Str) :
    RightNetwork J fresh space column ↔ NamesNetwork J fresh space column := by
  cases column with
  | none =>
    refine iff_of_true ⟨_, rfl, identityOf_fallbackConfig⟩ ?_
    intro text htext
    cases htext
  | some text =>
    have hvalue : columnValue J (some text) = J.parse (trim text) := rfl
    simp only [RightNetwork, NamesNetwork, getEffectiveConfig, fromConfigJson, Option.some.injEq,
      forall_eq']
    by_cases hblank : trim text = []
    · have hnone : J.parse (trim text) = none := by rw [hblank, J.parse_nil]
      simp only [hblank, if_true, Effective.ok.injEq, exists_eq_left', identityOf_default,
        expectedIdentity_of_none (hvalue.trans hnone), J.parse_nil, reduceCtorEq, false_implies,
        implies_true, and_true, forall_const]
      rcases space with ⟨name, secret⟩
      simp [eq_comm]
    · simp only [hblank, if_false, false_implies, true_and]
      cases hparse : J.parse (trim text) with
      | none =>
        refine iff_of_true ⟨_, rfl, ?_⟩ ?_
        · rw [identityOf_fallbackConfig, expectedIdentity_of_none (hvalue.trans hparse)]
        · intro v hv
          cases hv
      | some v =>
        simp only [Option.some.injEq, forall_eq']
        cases hread : readConfig fresh v with
        | some cfg =>
          simp only [Effective.ok.injEq, exists_eq_left', Option.isSome_some, forall_const,
            reduceCtorEq, false_implies, and_true]
          exact identityOf_fillIdentity_iff hread (hvalue.trans hparse)
        | none =>
          simp only [Option.isSome_none, Bool.false_eq_true, false_implies, true_and, forall_const]
          by_cases hboundary :
              isCharBoundary (min (utf8 (trim text)).length 200) (trim text) = true
          · simp only [hboundary, if_true, Effective.ok.injEq, exists_eq_left',
              identityOf_fallbackConfig, true_and]
            exact eq_comm
          · -- the preview in the message panics
            simp [hboundary]

def unnamedConfig : Json := .obj [("network_secret".toList, .str "s".toList)]

theorem valid_unnamedConfig : unnamedConfig.Valid Json.nestingLimit :=
  valid_singleton (.str "s".toList)

/-- A configuration without a name joins `easytier`, not `home`. -/
theorem unnamed_joins_library_network :
    ¬ ∀ (J : JsonText) (fresh : Str) (space : Identity) (column : Option Str),
      RightNetwork J fresh space column := by
  intro h
  obtain ⟨text, hparse⟩ : ∃ text, JsonText.compact.parse text = some unnamedConfig :=
    ⟨_, JsonText.compact.parse_print _ valid_unnamedConfig⟩
  have hvalue : columnValue JsonText.compact (some text) = some unnamedConfig :=
    JsonText.compact.parse_trim _ _ hparse
  obtain ⟨base, hbase⟩ : ∃ cfg, readConfig [] unnamedConfig = some cfg := ⟨_, rfl⟩
  have hfrom : fromConfigJson JsonText.compact [] text = .ok base :=
    (fromConfigJson_eq_ok_iff hparse).2 hbase
  rcases h JsonText.compact [] ⟨"home".toList, "s".toList⟩ (some text) with ⟨cfg, hcfg, hright⟩
  simp only [getEffectiveConfig, hfrom, Effective.ok.injEq] at hcfg
  rw [← hcfg] at hright
  have hname : "home".toList = libraryName :=
    (identityOf_fillIdentity_iff hbase hvalue).1 hright rfl
  revert hname
  decide

end SpacePatch

end HomeTier
