import HomeTier.Config.Env

/-! # Application settings

`AppConfig` of `src-tauri/src/config/mod.rs` has its settings in memory, in a
file, and in a template for what is not set. `set` writes the file, from the
template or from the built-in one; `load` reads it.

Settings survive saving and loading exactly if the keys and values are those
that a line of the file can have as they are, and if the built-in template, where
there is no other, has the key (`persists_iff`).
-/

namespace HomeTier

open Lib

structure AppConfig where
  /-- The file at `path`. -/
  file : Option Str
  inner : EnvMap
  template : Option Str
  templateMap : EnvMap

namespace AppConfig

def new (file template : Option Str) : AppConfig where
  file := file
  inner := ∅
  template := template
  templateMap := (template.map parseEnv).getD ∅

def load (c : AppConfig) : AppConfig :=
  match c.file with
  | some content => { c with inner := parseEnv content }
  | none => c

def get (c : AppConfig) (key : Str) : Option Str := (c.inner.get key).or (c.templateMap.get key)

/-- `save`, where the map is iterated over in the order `order`. -/
def save (c : AppConfig) (order : List (Str × Str)) : AppConfig :=
  { c with
    file := some <|
      match c.template with
      | some raw => renderFromTemplate raw c.inner order
      | none => buildTemplate c.inner }

def set (c : AppConfig) (key value : Str) (order : List (Str × Str)) : AppConfig :=
  save { c with inner := AList.insert key value c.inner } order

/-- A call of `set`, and the order in which it saves. -/
structure SetCall where
  key : Str
  value : Str
  order : List (Str × Str)

/-- The key is not blank and has no `=`, `#` or line break. -/
def SetCall.Ok (s : SetCall) : Prop :=
  trim s.key ≠ [] ∧ '=' ∉ s.key ∧ '#' ∉ s.key ∧ '\n' ∉ s.key

def setAll (c : AppConfig) (calls : List SetCall) : AppConfig :=
  calls.foldl (fun c s => c.set s.key s.value s.order) c

/-- Saved and loaded again, what was set or loaded is as it was; saved and loaded
once more, everything is. -/
def Persists (c : AppConfig) : Prop :=
  ∀ order, Enumerates c.inner order →
    (∀ k v, c.inner.get k = some v → (c.save order).load.get k = c.get k) ∧
    ∀ order', Enumerates (c.save order).load.inner order' → ∀ k,
      ((c.save order).load.save order').load.get k = (c.save order).load.get k

/-- Every key and value that `get` knows can stand in a line of the file as it is,
and the built-in template has the key where there is no template. -/
def Plain (c : AppConfig) : Prop :=
  ∀ k v, c.get k = some v →
    (trim k = k ∧ (c.template = none → k ∈ builtKeys.map (·.1))) ∧
    ('\n' ∉ v ∧ trim v = v ∧ isQuoted v = false)

/-! ## Invariants -/

/-- The template map is that of the template, and keys are keys. -/
structure Inv (c : AppConfig) : Prop where
  template : c.templateMap = (c.template.map parseEnv).getD ∅
  keys : ∀ k v, c.inner.get k = some v → IsKey k

theorem inv_load (file template : Option Str) : ((new file template).load).Inv := by
  cases file with
  | none => exact ⟨rfl, fun k v h => by cases h⟩
  | some content => exact ⟨rfl, fun k v h => (isKey_of_get h).1⟩

theorem isKey_of_ok {s : SetCall} (h : s.Ok) : IsKey s.key := by
  rcases h with ⟨hblank, hequals, hhash, hnewline⟩
  refine ⟨hequals, hnewline, ?_⟩
  rintro (hnil | hhead)
  · exact hblank hnil
  · exact hhash (mem_of_mem_trim (List.mem_of_mem_head? hhead))

theorem inv_set {c : AppConfig} (h : c.Inv) {s : SetCall} (hs : s.Ok) :
    (c.set s.key s.value s.order).Inv := by
  refine ⟨h.template, ?_⟩
  intro k v hget
  by_cases hk : k = s.key
  · rw [hk]
    exact isKey_of_ok hs
  · apply h.keys k v
    rw [← hget]
    exact (AList.lookup_insert_ne hk).symm

theorem inv_setAll {c : AppConfig} (h : c.Inv) {calls : List SetCall} (hcalls : ∀ s ∈ calls, s.Ok) :
    (c.setAll calls).Inv := by
  induction calls generalizing c with
  | nil => exact h
  | cons s calls ih =>
    rw [List.forall_mem_cons] at hcalls
    exact ih (inv_set h hcalls.1) hcalls.2

/-! ## Saved and loaded -/

/-- What is read of a file that has been saved. -/
def readBack (template : Option Str) (map : EnvMap) (k : Str) : Option Str :=
  match template with
  | some raw => ((map.get k).map norm).or ((parseEnv raw).get k)
  | none => (builtKeys.lookup k).map fun default => norm ((map.get k).getD default)

theorem inner_reload {c : AppConfig} (hmap : Writable c.inner) {order : List (Str × Str)}
    (horder : Enumerates c.inner order) (k : Str) :
    (c.save order).load.inner.get k = readBack c.template c.inner k := by
  cases htemplate : c.template with
  | none =>
    have hinner : (c.save order).load.inner = parseEnv (buildTemplate c.inner) := by
      simp only [save, load, htemplate]
    rw [hinner, get_build hmap, readBack]
  | some raw =>
    have hinner : (c.save order).load.inner = parseEnv (renderFromTemplate raw c.inner order) := by
      simp only [save, load, htemplate]
    rw [hinner, get_render hmap horder, readBack]

/-- What is read of a file can be written. -/
theorem writable_reload (c : AppConfig) (order : List (Str × Str)) :
    Writable (c.save order).load.inner := fun _ _ h => isKey_of_get h

theorem template_reload (c : AppConfig) (order : List (Str × Str)) :
    (c.save order).load.template = c.template := rfl

theorem get_reload (c : AppConfig) (order : List (Str × Str)) (k : Str) :
    (c.save order).load.get k =
      ((c.save order).load.inner.get k).or (c.templateMap.get k) := rfl

theorem templateMap_get {c : AppConfig} (h : c.Inv) (k : Str) :
    c.templateMap.get k = (c.template.bind fun raw => (parseEnv raw).get k) := by
  rw [h.template]
  cases c.template <;> rfl

/-- What is read back where all that is written can be read as it is: what `get`
gives, and the rest of the built-in template. -/
theorem readBack_of_norm {template : Option Str} {map : EnvMap} {k v : Str}
    (hget : map.get k = some v) (hnorm : norm v = v)
    (hkey : template = none → k ∈ builtKeys.map (·.1)) : readBack template map k = some v := by
  cases template with
  | some raw => rw [readBack, hget, Option.map_some, hnorm, Option.some_or]
  | none =>
    rcases List.mem_map.1 (hkey rfl) with ⟨e, he, rfl⟩
    rw [readBack, lookup_of_mem nodup_builtKeys he, Option.map_some, hget, Option.getD_some, hnorm]

/-- Where the values that are read can be read as they are, reading again gives them. -/
theorem readBack_readBack {template : Option Str} {map map' : EnvMap}
    (hmap : ∀ k, map'.get k = readBack template map k)
    (hnorm : ∀ k v, map'.get k = some v → norm v = v) (k : Str) :
    readBack template map' k = map'.get k := by
  cases hget : map'.get k with
  | some v =>
    apply readBack_of_norm hget (hnorm k v hget)
    rintro rfl
    rw [hmap, readBack, Option.map_eq_some_iff] at hget
    rcases hget with ⟨default, hdefault, -⟩
    exact List.mem_map.2 ⟨_, mem_of_lookup hdefault, rfl⟩
  | none =>
    -- neither the template nor the built-in one has the key
    have hnone := hmap k
    rw [hget] at hnone
    cases template with
    | some raw =>
      rw [readBack, hget]
      have hboth := Option.or_eq_none_iff.1 hnone.symm
      rw [hboth.2]
      rfl
    | none =>
      have hlookup : builtKeys.lookup k = none := Option.map_eq_none_iff.1 hnone.symm
      rw [readBack, hlookup]
      rfl

theorem plain_of_persists {c : AppConfig} (h : c.Inv) (hp : c.Persists) : c.Plain := by
  have hlist : Enumerates c.inner (listing c.inner) := List.Perm.refl _
  rcases hp (listing c.inner) hlist with ⟨hfirst, hsecond⟩
  have hread : ∀ k v, c.inner.get k = some v →
      (c.save (listing c.inner)).load.get k = some v := by
    intro k v hget
    rw [hfirst k v hget, get, hget, Option.some_or]
  -- whatever `get` gives after loading comes from a line
  have hmap : Writable c.inner := by
    intro k v hget
    have hk := hread k v hget
    rw [get_reload, Option.or_eq_some_iff] at hk
    rcases hk with hk | ⟨-, hk⟩
    · exact writable_reload c _ k v hk
    · rw [templateMap_get h, Option.bind_eq_some_iff] at hk
      rcases hk with ⟨raw, -, hraw⟩
      exact isKey_of_get hraw
  intro k v hget
  cases hinner : c.inner.get k with
  | some w =>
    obtain rfl : w = v := by
      rw [get, hinner, Option.some_or] at hget
      exact Option.some.inj hget
    rcases hmap k w hinner with ⟨-, htrim, hnewline⟩
    have hk := hread k w hinner
    rw [get_reload, inner_reload hmap hlist] at hk
    cases htemplate : c.template with
    | some raw =>
      rw [htemplate, readBack, hinner, Option.map_some, Option.some_or, Option.some_or] at hk
      exact ⟨⟨htrim, fun hnone => by cases hnone⟩, hnewline,
        (norm_eq_self_iff w).1 (Option.some.inj hk)⟩
    | none =>
      -- there is the built-in template alone
      rw [templateMap_get h, htemplate, Option.bind_none, Option.or_none, readBack,
        Option.map_eq_some_iff] at hk
      rcases hk with ⟨default, hdefault, hnorm⟩
      rw [hinner, Option.getD_some] at hnorm
      exact ⟨⟨htrim, fun _ => List.mem_map.2 ⟨_, mem_of_lookup hdefault, rfl⟩⟩, hnewline,
        (norm_eq_self_iff w).1 hnorm⟩
  | none =>
    rw [get, hinner, Option.none_or, templateMap_get h, Option.bind_eq_some_iff] at hget
    rcases hget with ⟨raw, htemplate, hraw⟩
    rcases isKey_of_get hraw with ⟨-, htrim, hnewline⟩
    have hloaded : (c.save (listing c.inner)).load.inner.get k = some v := by
      rw [inner_reload hmap hlist, htemplate, readBack, hinner, Option.map_none, Option.none_or,
        hraw]
    -- the second time, the value stands in the file and no longer in the template
    have hagain := hsecond _ (List.Perm.refl _) k
    rw [get_reload, inner_reload (writable_reload _ _) (List.Perm.refl _), template_reload,
      htemplate, readBack, hloaded, Option.map_some, Option.some_or, Option.some_or, get_reload,
      hloaded, Option.some_or] at hagain
    exact ⟨⟨htrim, fun hnone => by rw [htemplate] at hnone; cases hnone⟩, hnewline,
      (norm_eq_self_iff v).1 (Option.some.inj hagain)⟩

theorem persists_of_plain {c : AppConfig} (h : c.Inv) (hplain : c.Plain) : c.Persists := by
  have hget : ∀ k v, c.inner.get k = some v → c.get k = some v := by
    intro k v hk
    rw [get, hk, Option.some_or]
  have hnorm : ∀ k v, c.get k = some v → norm v = v := by
    intro k v hk
    exact (norm_eq_self_iff v).2 (hplain k v hk).2.2
  have hmap : Writable c.inner := by
    intro k v hk
    have hkv := hplain k v (hget k v hk)
    exact ⟨h.keys k v hk, hkv.1.1, hkv.2.1⟩
  intro order horder
  have hinner := inner_reload hmap horder
  constructor
  · intro k v hk
    have hback : readBack c.template c.inner k = some v :=
      readBack_of_norm hk (hnorm k v (hget k v hk)) (hplain k v (hget k v hk)).1.2
    rw [get_reload, hinner, hback, Option.some_or, hget k v hk]
  · intro order' horder' k
    -- what is read back is plain again: a value that was set, or a template's default
    have hnorm' : ∀ k v, (c.save order).load.inner.get k = some v → norm v = v := by
      intro k v hk
      rw [hinner] at hk
      cases htemplate : c.template with
      | some raw =>
        rw [htemplate, readBack, Option.or_eq_some_iff] at hk
        rcases hk with hk | ⟨hnone, hk⟩
        · rcases Option.map_eq_some_iff.1 hk with ⟨w, hw, rfl⟩
          rw [hnorm k w (hget k w hw), hnorm k w (hget k w hw)]
        · apply hnorm k v
          rw [get, Option.map_eq_none_iff.1 hnone, Option.none_or, templateMap_get h, htemplate]
          exact hk
      | none =>
        rw [htemplate, readBack, Option.map_eq_some_iff] at hk
        rcases hk with ⟨default, hdefault, rfl⟩
        cases hw : c.inner.get k with
        | some w =>
          rw [Option.getD_some, hnorm k w (hget k w hw), hnorm k w (hget k w hw)]
        | none =>
          have hplainDefault := norm_of_plainText (plainText_default hdefault).2
          rw [Option.getD_none, hplainDefault, hplainDefault]
    have hsame : ((c.save order).load.save order').load.inner.get k =
        (c.save order).load.inner.get k := by
      rw [inner_reload (writable_reload c order) horder', template_reload]
      exact readBack_readBack hinner hnorm' k
    rw [get_reload, hsame, get_reload]
    rfl

/-- Settings survive saving and loading exactly if they are plain: for every
template and file and every sequence of calls of `set`. -/
theorem persists_iff (file template : Option Str) (calls : List SetCall)
    (hcalls : ∀ s ∈ calls, s.Ok) :
    Persists ((new file template).load.setAll calls) ↔
      Plain ((new file template).load.setAll calls) := by
  have h := inv_setAll (inv_load file template) hcalls
  constructor
  · exact plain_of_persists h
  · exact persists_of_plain h

/-- One call of `set` where there is no template and no file yet. -/
def setOnce (key value : Str) : AppConfig :=
  (new none none).load.setAll [⟨key, value, [(key, value)]⟩]

theorem get_setOnce (key value k : Str) :
    (setOnce key value).get k = if k = key then some value else none := by
  show (Map.get (AList.insert key value (∅ : EnvMap)) k).or none = _
  rw [Option.or_none]
  split
  · next hk => rw [hk, Map.get_insert_self]
  · next hk => exact AList.lookup_insert_ne hk

theorem ok_of_plainText {s : SetCall} (h : plainText s.key = true) : s.Ok := by
  rcases isKey_of_plainText h with ⟨hkey, htrim⟩
  rcases plainText_spec h with ⟨hne, hall⟩
  exact ⟨by rwa [htrim], hkey.equals, fun hmem => (hall _ hmem).2 (by simp), hkey.newline⟩

/-- A setting of the built-in template. -/
theorem persists_logEnabled : (setOnce "LOG_ENABLED".toList "0".toList).Persists := by
  have hkey : plainText "LOG_ENABLED".toList = true := by decide
  have hvalue : plainText "0".toList = true := by decide
  apply (persists_iff none none _ _).2
  · intro k v hget
    have hget' : (setOnce "LOG_ENABLED".toList "0".toList).get k = some v := hget
    rw [get_setOnce] at hget'
    split at hget'
    · next hk =>
      cases hget'
      subst hk
      exact ⟨⟨(isKey_of_plainText hkey).2, fun _ => by decide⟩,
        newline_notMem_of_plainText hvalue, (norm_eq_self_iff _).1 (norm_of_plainText hvalue)⟩
    · cases hget'
  · intro s hs
    obtain rfl := List.mem_singleton.1 hs
    exact ok_of_plainText hkey

/-- A setting that the built-in template does not have is lost. -/
theorem theme_not_persisted : ¬ (setOnce "THEME".toList "dark".toList).Persists := by
  intro h
  have hkey : plainText "THEME".toList = true := by decide
  have hinv : (setOnce "THEME".toList "dark".toList).Inv := by
    apply inv_setAll (inv_load none none)
    intro s hs
    obtain rfl := List.mem_singleton.1 hs
    exact ok_of_plainText hkey
  have hget : (setOnce "THEME".toList "dark".toList).get "THEME".toList = some "dark".toList := by
    rw [get_setOnce, if_pos rfl]
  have hbuilt := (plain_of_persists hinv h _ _ hget).1.2 rfl
  revert hbuilt
  decide

end AppConfig

end HomeTier
