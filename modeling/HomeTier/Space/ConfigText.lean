import HomeTier.Lib.JsonText
import HomeTier.Space.Addresses

/-! # Configurations between the page and the node

A configuration comes from the page as a text. Two readers see it: the derived
`from_str::<NetworkConfig>` of a command, which skips what it does not know, and
`JSON.parse` of the page, which changes numbers and writes the value again.
`ConfigText` and `JsJson` say what both are relied on for.
-/

namespace HomeTier

open Lib ConfigJson SpaceRecords

/-! ## Fields that were read -/

namespace ConfigJson

/-- What stands beside an element is found under its name. -/
theorem lookup_zip_of_forall₂ {α β : Type} {R : α → β → Prop} {name : α → Str} {xs : List α}
    {ys : List β} (h : List.Forall₂ R xs ys) (hnodup : (xs.map name).Nodup) {x : α}
    (hx : x ∈ xs) : ∃ y, ((xs.map name).zip ys).lookup (name x) = some y ∧ R x y := by
  induction h with
  | nil => simp at hx
  | @cons x' y xs ys hxy hrest ih =>
    rw [List.map_cons, List.nodup_cons] at hnodup
    rw [List.map_cons, List.zip_cons_cons, lookup_cons_eq]
    rcases List.mem_cons.1 hx with rfl | hx
    · exact ⟨y, if_pos rfl, hxy⟩
    · have hne : name x ≠ name x' := by
        intro heq
        exact hnodup.1 (heq ▸ List.mem_map_of_mem hx)
      rw [if_neg hne]
      exact ih hnodup.2 hx

theorem configNames_eq : configNames = configTypes.map (·.1) := by
  rw [configNames, configTypes, List.map_map]
  rfl

theorem configNames_eq_map (fresh : Str) :
    configNames = (configFields fresh).map (·.name) := by
  rw [configNames_eq, ← map_configFields fresh, List.map_map]
  rfl

theorem nodup_names : configNames.Nodup := by
  have h := nodup_configNames []
  rw [List.map_map] at h
  exact h

/-- A field has its type. -/
theorem IsConfig.exists_getField {cfg : ConfigData} (h : IsConfig cfg) {name : Str}
    {t : FieldType} (ht : configTypes.lookup name = some t) :
    ∃ d, getField name cfg = some d ∧ t.read (t.write d) = some d := by
  rcases h with ⟨ds, rfl, hds⟩
  have hnodup := nodup_names
  rw [getField, configNames_eq]
  rw [configNames_eq] at hnodup
  exact lookup_zip_of_forall₂ hds hnodup (mem_of_lookup ht)

/-- A field of what was read from an object is what the object has for it. -/
theorem getField_readConfig {fresh : Str} {kvs : List (Str × Json)} {cfg : ConfigData}
    (h : readConfig fresh (.obj kvs) = some cfg) {f : ConfigField} (hf : f ∈ configFields fresh) :
    getField f.name cfg = readField kvs f.toRecordField := by
  rw [readConfig, readRecord, Option.map_eq_some_iff] at h
  rcases h with ⟨ds, hds, rfl⟩
  have hall := mapM_eq_some_iff.1 hds
  rw [List.forall₂_map_left_iff] at hall
  have hnodup := nodup_names
  rw [configNames_eq_map fresh] at hnodup
  rcases lookup_zip_of_forall₂ hall hnodup hf with ⟨d, hd, hread⟩
  rw [getField, configNames_eq_map fresh]
  exact hd.trans hread.symm

theorem getField_default {fresh : Str} {f : ConfigField} (hf : f ∈ configFields fresh) :
    getField f.name (defaultConfig fresh) = some f.default := by
  have hnodup := nodup_names
  rw [configNames_eq_map fresh] at hnodup
  rw [defaultConfig, getField, configNames_eq_map fresh]
  rcases lookup_zip_of_forall₂ (R := fun f d => d = f.default)
    (List.forall₂_map_right_iff.2 (List.forall₂_same.2 fun _ _ => rfl)) hnodup hf with ⟨d, hd, rfl⟩
  exact hd

theorem textField_eq {name : String} {cfg : ConfigData} {s : Str}
    (h : getField name.toList cfg = some (.str s)) : textField name cfg = s := by
  rw [textField, h]

/-- A field that holds a text. -/
theorem IsConfig.getField_text {cfg : ConfigData} (h : IsConfig cfg) {name : String}
    (ht : configTypes.lookup name.toList = some (.scalar .str)) :
    getField name.toList cfg = some (.str (textField name cfg)) := by
  rcases h.exists_getField ht with ⟨d, hd, hread⟩
  obtain ⟨s, rfl⟩ : ∃ s, d = .str s := by
    cases d with
    | str s => exact ⟨s, rfl⟩
    | _ => cases hread
  rw [hd, textField_eq hd]

end ConfigJson

/-! ## Texts of configurations -/

/-- The derived reader of `NetworkConfig`. It reads a text that holds a value as
it reads the value, except that it refuses a field given twice. What holds no
value for `serde_json` it may still read, as it does not look into what it
skips. -/
structure ConfigText (J : JsonText) where
  /-- `serde_json::from_str::<NetworkConfig>`, with the id that `Default` draws. -/
  read : Str → Str → Option ConfigData
  /-- Whether a field of a record is given twice. -/
  twice : Str → Bool
  read_eq : ∀ fresh text v, J.parse text = some v →
    read fresh text = if twice text then none else readConfig fresh v
  isConfig : ∀ fresh text cfg, read fresh text = some cfg → IsConfig cfg

/-- The fields of a configuration that the page looks into, and those that name
the network. -/
def pageTexts : List Str :=
  ["virtual_ipv4".toList, "ipv4".toList, "network_name".toList, "network_secret".toList]

/-- Two values have the same texts in these fields. -/
def SameTexts (v w : Json) : Prop :=
  ∀ key ∈ pageTexts, (v.get key).bind Json.asStr = (w.get key).bind Json.asStr

instance (v w : Json) : Decidable (SameTexts v w) :=
  inferInstanceAs (Decidable (∀ key ∈ pageTexts, _))

/-- The properties that a spread takes from an array or a text. -/
def indexed (vs : List Json) : List (Str × Json) :=
  insertEntries (vs.zipIdx.map fun p => (decimal p.2, p.1)) []

/-- A text by its units of 16 bits; half of a pair shows as U+FFFD. -/
def units (s : Str) : List Json :=
  s.flatMap fun c =>
    if c.toNat < 0x10000 then [.str [c]] else [.str ['\uFFFD'], .str ['\uFFFD']]

/-- The properties of `{ ...v }`. -/
def spread : Json → List (Str × Json)
  | .obj kvs => kvs
  | .arr vs => indexed vs
  | .str s => indexed (units s)
  | _ => []

/-- `JSON` in the page. A value of the page is seen through `view`: its numbers
are as a double keeps them, and half of a pair in a text is U+FFFD. -/
structure JsJson (J : JsonText) (C : ConfigText J) where
  Value : Type
  /-- `JSON.parse` -/
  parse : Str → Option Value
  /-- As a condition. -/
  truthy : Value → Bool
  view : Value → Json
  /-- `{ ...v, ...es }` -/
  assign : Value → List (Str × Json) → Value
  /-- `JSON.stringify` -/
  stringify : Value → Str
  view_assign : ∀ v es, view (assign v es) = .obj (insertEntries es (spread (view v)))
  parse_blank : ∀ s, trim s = [] → parse s = none
  /-- What `serde_json` reads is JSON. -/
  parse_some : ∀ s w, J.parse s = some w → ∃ v, parse s = some v
  /-- Both find the same texts. -/
  parse_texts : ∀ s v w, parse s = some v → J.parse (trim s) = some w → SameTexts (view v) w
  stringify_texts : ∀ v w, J.parse (stringify v) = some w → SameTexts (view v) w
  /-- An object that `serde_json` reads is read again with more properties. -/
  stringify_some : ∀ s v kvs es, parse s = some v → J.parse s = some (.obj kvs) →
    (∀ e ∈ es, e.2.Valid 126) → ∃ w, J.parse (stringify (assign v es)) = some w
  /-- The derived reader finds the address of an object. -/
  stringify_read : ∀ v kvs fresh cfg, view v = .obj kvs → C.read fresh (stringify v) = some cfg →
    textField "virtual_ipv4" cfg = ((kvs.lookup "virtual_ipv4".toList).bind Json.asStr).getD []

/-! ## Readers of compact texts -/

theorem isConfig_of_readConfig {fresh : Str} {v : Json} {cfg : ConfigData}
    (h : readConfig fresh v = some cfg) : IsConfig cfg := wellTyped_of_readConfig h

def ConfigText.compact : ConfigText .compact where
  read fresh text := (JsonText.compact.parse text).bind (readConfig fresh)
  twice _ := false
  read_eq fresh text v h := by
    rw [h]
    rfl
  isConfig fresh text cfg h := by
    rcases Option.bind_eq_some_iff.1 h with ⟨v, -, hv⟩
    exact isConfig_of_readConfig hv

/-- An object is one still, and the texts are the same. -/
def Alike (v w : Json) : Prop := SameTexts v w ∧ v.asObject.isSome = w.asObject.isSome

instance (v w : Json) : Decidable (Alike v w) := inferInstanceAs (Decidable (_ ∧ _))

theorem alike_refl (v : Json) : Alike v v := ⟨fun _ _ => rfl, rfl⟩

/-- The text of a value, where it is read as one that is alike. -/
def printAlike (v : Json) : Str :=
  match JsonText.compact.parse (JsonText.compact.print v) with
  | some w => if Alike v w then JsonText.compact.print v else []
  | none => []

theorem printAlike_valid {v : Json} (h : v.Valid Json.nestingLimit) :
    printAlike v = JsonText.compact.print v := by
  rw [printAlike, JsonText.compact.parse_print v h]
  exact if_pos (alike_refl v)

theorem alike_of_printAlike {v w : Json} (h : JsonText.compact.parse (printAlike v) = some w) :
    Alike v w := by
  unfold printAlike at h
  split at h
  · rename_i w' hparse
    split at h
    · rename_i hsame
      rw [hparse] at h
      exact Option.some.inj h ▸ hsame
    · rw [JsonText.compact.parse_nil] at h
      cases h
  · rw [JsonText.compact.parse_nil] at h
    cases h

def addressField : ConfigField := ⟨"virtual_ipv4".toList, .scalar .str, .str []⟩

theorem mem_addressField (fresh : Str) : addressField ∈ configFields fresh :=
  .tail _ (.tail _ (.tail _ (.head _)))

/-- The address of an object that was read. -/
theorem address_readConfig {fresh : Str} {kvs : List (Str × Json)} {cfg : ConfigData}
    (h : readConfig fresh (.obj kvs) = some cfg) :
    textField "virtual_ipv4" cfg =
      ((kvs.lookup "virtual_ipv4".toList).bind Json.asStr).getD [] := by
  have hfield : getField "virtual_ipv4".toList cfg = readField kvs addressField.toRecordField :=
    getField_readConfig h (mem_addressField fresh)
  have htype : configTypes.lookup "virtual_ipv4".toList = some (.scalar .str) := by
    decide
  have htext := (isConfig_of_readConfig h).getField_text htype
  rw [hfield, readField] at htext
  cases hlookup : kvs.lookup "virtual_ipv4".toList with
  | none =>
    have hname : kvs.lookup addressField.toRecordField.name = none := hlookup
    rw [hname] at htext
    exact (ConfigData.str.inj (Option.some.inj htext)).symm
  | some v =>
    have hname : kvs.lookup addressField.toRecordField.name = some v := hlookup
    rw [hname] at htext
    cases v with
    | str s => exact (ConfigData.str.inj (Option.some.inj htext)).symm
    | _ => cases htext

theorem valid_insert {s : Str} {kvs : List (Str × Json)}
    (hs : JsonText.compact.parse s = some (.obj kvs)) {es : List (Str × Json)}
    (hes : ∀ e ∈ es, e.2.Valid 126) :
    (Json.obj (insertEntries es kvs)).Valid Json.nestingLimit :=
  Json.valid_insertEntries hes (JsonText.compact.parse_valid s _ hs)

def JsJson.compact : JsJson .compact .compact where
  Value := Json
  parse s := JsonText.compact.parse (trim s)
  truthy
    | .null | .bool false | .int 0 | .str [] => false
    | _ => true
  view := id
  assign v es := .obj (insertEntries es (spread v))
  stringify := printAlike
  view_assign _ _ := rfl
  parse_blank s h := by rw [h, JsonText.compact.parse_nil]
  parse_some s w h := ⟨w, JsonText.compact.parse_trim s w h⟩
  parse_texts s v w h h' := by
    rw [h] at h'
    exact Option.some.inj h' ▸ (alike_refl v).1
  stringify_texts _ _ h := (alike_of_printAlike h).1
  stringify_some s v kvs es h h' hes := by
    rw [JsonText.compact.parse_trim s _ h'] at h
    obtain rfl : Json.obj kvs = v := Option.some.inj h
    have hvalid := valid_insert h' hes
    refine ⟨.obj (insertEntries es kvs), ?_⟩
    rw [spread, printAlike_valid hvalid]
    exact JsonText.compact.parse_print _ hvalid
  stringify_read v kvs fresh cfg hv h := by
    rcases Option.bind_eq_some_iff.1 h with ⟨w, hw, hcfg⟩
    obtain rfl : v = .obj kvs := hv
    rcases alike_of_printAlike hw with ⟨hsame, hobject⟩
    obtain ⟨kvs', rfl⟩ : ∃ kvs', w = .obj kvs' := by
      cases w with
      | obj kvs' => exact ⟨kvs', rfl⟩
      | _ => cases hobject
    rw [address_readConfig hcfg]
    exact congrArg (·.getD []) (hsame "virtual_ipv4".toList List.mem_cons_self).symm

end HomeTier
