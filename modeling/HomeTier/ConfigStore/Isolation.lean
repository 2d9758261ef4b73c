import HomeTier.ConfigStore.Store
import HomeTier.Lib.JsonText

/-! # What a `store` call touches

Names come from other nodes and become paths by formatting, so a name with
separators or dot segments may denote a file anywhere. `effects` lists what a
call leaves in which files, whatever the operating system answers.

Other names, their files and the files outside the configs directory are left
alone, and the index still parses to the stored metadata, exactly when the paths
that the name resolves to are apart from theirs (`isolated_iff`); which is so
where no name has a separator (`apart_of_plain`).
-/

namespace HomeTier

open Lib

/-- `serde_json::from_str` of the index text, a parameter of the model. -/
abbrev IndexDecoder := Bytes → Option (List ConfigFileMeta)

/-- Metadata collected by name; of two entries of a name the later stays. -/
def collectMetas (metas : List ConfigFileMeta) : Map Str ConfigFileMeta :=
  metas.foldl (fun map m => map.insert m.name m) ∅

/-- `load_versions` on the content of the index. -/
def loadVersions (dec : IndexDecoder) (index : Option Bytes) : Map Str ConfigFileMeta :=
  match index.bind dec with
  | some metas => collectMetas metas
  | none => ∅

theorem lookup_collectMetas (metas : List ConfigFileMeta) (n : Str) :
    (collectMetas metas).lookup n = metas.reverse.find? (·.name = n) := by
  induction metas using List.reverseRecOn with
  | nil => rfl
  | append_singleton metas x ih =>
    have hcollect : collectMetas (metas ++ [x]) = (collectMetas metas).insert x.name x := by
      simp [collectMetas, List.foldl_append]
    rw [hcollect, List.reverse_concat]
    by_cases hx : x.name = n
    · subst hx
      rw [AList.lookup_insert, List.find?_cons_of_pos (by simp)]
    · rw [AList.lookup_insert_ne (Ne.symm hx), List.find?_cons_of_neg (by simpa using hx), ih]

theorem lookup_collectMetas_eq_some {metas : List ConfigFileMeta} {n : Str} {m : ConfigFileMeta}
    (hnodup : (metas.map (·.name)).Nodup) :
    (collectMetas metas).lookup n = some m ↔ m ∈ metas ∧ m.name = n := by
  rw [lookup_collectMetas]
  constructor
  · intro h
    exact ⟨by simpa using List.mem_of_find?_eq_some h, by simpa using List.find?_some h⟩
  · rintro ⟨hm, rfl⟩
    cases hfind : metas.reverse.find? (·.name = m.name) with
    | none =>
      rw [List.find?_eq_none] at hfind
      exact absurd (decide_eq_true rfl) (hfind m (by simpa using hm))
    | some m' =>
      have hm' : m' ∈ metas := by simpa using List.mem_of_find?_eq_some hfind
      have hname : m'.name = m.name := by simpa using List.find?_some hfind
      rw [List.inj_on_of_nodup_map hnodup hm' hm hname]

theorem name_of_lookup_load {dec : IndexDecoder} {index : Option Bytes} {n : Str}
    {m : ConfigFileMeta} (h : (loadVersions dec index).lookup n = some m) : m.name = n := by
  unfold loadVersions at h
  split at h
  · rw [lookup_collectMetas] at h
    simpa using List.find?_some h
  · simp at h

namespace ConfigStore

/-! ## The index on the disk -/

/-- The index parses to the stored metadata. -/
def Indexed (dec : IndexDecoder) (s : ConfigStore) : Prop :=
  ∀ n, (loadVersions dec (s.disk s.indexPath)).lookup n = s.getMeta n

/-- Metadata is stored under its own name. -/
def Keyed (versions : Map Str ConfigFileMeta) : Prop :=
  ∀ n m, versions.lookup n = some m → m.name = n

theorem Indexed.keyed {dec : IndexDecoder} {s : ConfigStore} (h : s.Indexed dec) :
    Keyed s.versions := by
  intro n m hm
  exact name_of_lookup_load ((h n).trans hm)

variable {versions : Map Str ConfigFileMeta}

theorem Keyed.insert (h : Keyed versions)
    (m : ConfigFileMeta) : Keyed (versions.insert m.name m) := by
  intro n m' hm'
  by_cases hn : n = m.name
  · subst hn
    rw [AList.lookup_insert] at hm'
    rw [Option.some.inj hm']
  · rw [AList.lookup_insert_ne hn] at hm'
    exact h n m' hm'

theorem mem_listMeta_iff (h : Keyed versions) {n : Str} {m : ConfigFileMeta} :
    versions.lookup n = some m ↔ m ∈ versions.entries.map (·.2) ∧ m.name = n := by
  constructor
  · intro hm
    exact ⟨List.mem_map_of_mem (AList.mem_lookup_iff.1 hm), h n m hm⟩
  · rintro ⟨hm, rfl⟩
    rcases List.mem_map.1 hm with ⟨⟨k, m'⟩, he, rfl⟩
    obtain rfl : m'.name = k := h k m' (AList.mem_lookup_iff.2 he)
    exact AList.mem_lookup_iff.2 he

theorem nodup_listMeta (h : Keyed versions) :
    ((versions.entries.map (·.2)).map (·.name)).Nodup := by
  have hkeys : (versions.entries.map (·.2)).map (·.name) = versions.keys := by
    rw [List.map_map]
    refine List.map_congr_left ?_
    rintro ⟨k, m⟩ he
    exact h k m (AList.mem_lookup_iff.2 he)
  rw [hkeys]
  exact versions.keys_nodup

/-- What is written as the index loads as the map. -/
theorem lookup_load_written {enc : IndexEncoder} {dec : IndexDecoder}
    (hcodec : ∀ metas, dec (enc metas) = some metas)
    (h : Keyed versions) (n : Str) :
    (loadVersions dec (some (enc (versions.entries.map (·.2))))).lookup n = versions.lookup n := by
  apply Option.ext
  intro m
  have hload : loadVersions dec (some (enc (versions.entries.map (·.2)))) =
      collectMetas (versions.entries.map (·.2)) := by
    rw [loadVersions, Option.bind_some, hcodec]
  rw [hload, lookup_collectMetas_eq_some (nodup_listMeta h), mem_listMeta_iff h]

/-! ## What a call leaves -/

/-- A file after one `std::fs::write`. -/
def leaves (content : Bytes) : WriteResult → Option Bytes
  | .done => some content
  | .failed _ left => left

/-- The call reaches the write of the content. -/
def Writes (s : ConfigStore) (io : StoreIo) (file : ConfigFile) : Prop :=
  io.openLock = none ∧ io.lockExclusive = none ∧
    ¬ (file.version : WithBot ℕ) ≤ s.version? file.name

instance (s : ConfigStore) (io : StoreIo) (file : ConfigFile) : Decidable (s.Writes io file) :=
  inferInstanceAs (Decidable (_ ∧ _ ∧ ¬ _))

/-- The in-memory index after the call. -/
def versionsAfter (s : ConfigStore) (io : StoreIo) (file : ConfigFile) : Map Str ConfigFileMeta :=
  if s.Writes io file ∧ io.writeContent = .done then s.versions.insert file.name file.toMeta
  else s.versions

/-- What the writes behind the lock leave. -/
def contentEffects (enc : IndexEncoder) (s : ConfigStore) (io : StoreIo) (file : ConfigFile) :
    List (Path × Option Bytes) :=
  (s.contentPath file.name, leaves file.content io.writeContent) ::
    if io.writeContent = .done then
      [(s.indexPath,
        leaves (enc ((s.versions.insert file.name file.toMeta).entries.map (·.2))) io.writeIndex)]
    else []

/-- What the call leaves in which files, in the order of its writes. -/
def effects (enc : IndexEncoder) (s : ConfigStore) (io : StoreIo) (file : ConfigFile) :
    List (Path × Option Bytes) :=
  if io.openLock = none then
    (s.lockPath file.name, some ((s.disk (s.lockPath file.name)).getD [])) ::
      if s.Writes io file then s.contentEffects enc io file else []
  else []

theorem storeLocked_fresh (enc : IndexEncoder) (s : ConfigStore) (io : StoreIo)
    {file : ConfigFile} (h : ¬ (file.version : WithBot ℕ) ≤ s.version? file.name) :
    (s.storeLocked enc io file).1 =
      { s with
        versions :=
          if io.writeContent = .done then s.versions.insert file.name file.toMeta else s.versions
        disk := s.disk.apply (s.contentEffects enc io file) } := by
  rw [storeLocked, if_neg (mt (s.conflict_iff file).1 h), contentEffects]
  cases io.writeContent with
  | failed e left => rfl
  | done =>
    cases io.writeIndex with
    | failed e left =>
      simp only [writeFile, persistVersions]
      rfl
    | done =>
      simp only [writeFile, persistVersions]
      rfl

/-- The store with its lock file created. -/
def locked (s : ConfigStore) (name : Str) : ConfigStore :=
  { s with disk := s.disk.touch (s.lockPath name) }

theorem store_locked (enc : IndexEncoder) (s : ConfigStore) {io : StoreIo} {file : ConfigFile}
    (hopen : io.openLock = none) (hlock : io.lockExclusive = none) :
    s.store enc io file = (s.locked file.name).storeLocked enc io file := by
  simp only [store, hopen, hlock, locked]

theorem contentEffects_locked (enc : IndexEncoder) (s : ConfigStore) (io : StoreIo)
    (file : ConfigFile) (name : Str) :
    (s.locked name).contentEffects enc io file = s.contentEffects enc io file := rfl

theorem apply_locked (s : ConfigStore) (name : Str) (effects : List (Path × Option Bytes)) :
    (s.locked name).disk.apply effects =
      s.disk.apply ((s.lockPath name, some ((s.disk (s.lockPath name)).getD [])) :: effects) := by
  simp only [locked, Disk.touch, Disk.apply, List.foldl_cons]

/-- A call is its effects on the disk and on the in-memory index. -/
theorem store_eq (enc : IndexEncoder) (s : ConfigStore) (io : StoreIo) (file : ConfigFile) :
    (s.store enc io file).1 =
      { s with
        versions := s.versionsAfter io file
        disk := s.disk.apply (s.effects enc io file) } := by
  by_cases hwrites : s.Writes io file
  · have hfresh := storeLocked_fresh enc (s.locked file.name) io hwrites.2.2
    rw [contentEffects_locked, apply_locked] at hfresh
    rw [store_locked enc s hwrites.1 hwrites.2.1, hfresh, versionsAfter, effects,
      if_pos hwrites.1, if_pos hwrites]
    simp only [hwrites, true_and, locked]
  · rw [versionsAfter, effects, if_neg hwrites, if_neg (fun h => hwrites h.1)]
    cases hopen : io.openLock with
    | some e =>
      simp only [store, hopen]
      rfl
    | none =>
      cases hlock : io.lockExclusive with
      | some e =>
        simp only [store, hopen, hlock]
        rfl
      | none =>
        have hstale : (file.version : WithBot ℕ) ≤ s.version? file.name := by
          by_contra h
          exact hwrites ⟨hopen, hlock, h⟩
        have hany := ((s.locked file.name).conflict_iff file).2 hstale
        rw [store_locked enc s hopen hlock, storeLocked, if_pos hany]
        rfl

/-! ## The index as JSON -/

def metaFields (m : ConfigFileMeta) : List (Str × Json) :=
  [("name".toList, .str m.name), ("version".toList, Json.natJson m.version),
    ("timestamp".toList, Json.natJson m.timestamp),
    ("checksum".toList, match m.checksum with | some c => .str c | none => .null)]

def metaJson (m : ConfigFileMeta) : Json := .obj (insertEntries (metaFields m) [])

/-- `Option<String>` -/
def readChecksum : Json → Option (Option Str)
  | .null => some none
  | v => v.asStr.map some

def readMeta (v : Json) : Option ConfigFileMeta := do
  let name ← (v.get "name".toList).bind Json.asStr
  let version ← (v.get "version".toList).bind Json.readNatJson
  let timestamp ← (v.get "timestamp".toList).bind Json.readNatJson
  let checksum ← (v.get "checksum".toList).bind readChecksum
  return { name, version, timestamp, checksum }

def jsonEncode : IndexEncoder := fun metas =>
  utf8 (JsonText.compact.print (.arr (metas.map metaJson)))

def jsonDecode : IndexDecoder := fun bytes => do
  let text ← fromUtf8 bytes
  let value ← JsonText.compact.parse text
  let items ← value.asArray
  items.mapM readMeta

theorem nodup_metaFields (m : ConfigFileMeta) : ((metaFields m).map (·.1)).Nodup := by
  show ["name".toList, "version".toList, "timestamp".toList, "checksum".toList].Nodup
  decide

theorem readMeta_metaJson (m : ConfigFileMeta) : readMeta (metaJson m) = some m := by
  have hget : ∀ key v, (key, v) ∈ metaFields m → (metaJson m).get key = some v := by
    intro key v hmem
    exact lookup_insertEntries_nil (nodup_metaFields m) hmem
  have hname := hget "name".toList _ (.head _)
  have hversion := hget "version".toList _ (.tail _ (.head _))
  have htimestamp := hget "timestamp".toList _ (.tail _ (.tail _ (.head _)))
  have hchecksum := hget "checksum".toList _ (.tail _ (.tail _ (.tail _ (.head _))))
  have hread : readChecksum (match m.checksum with | some c => .str c | none => .null) =
      some m.checksum := by
    cases m.checksum with
    | none => rfl
    | some c => rfl
  simp only [readMeta, hname, hversion, htimestamp, hchecksum, Option.bind_some, Json.asStr,
    Json.readNatJson_natJson, hread, Option.bind_eq_bind, Option.pure_def]

theorem mapM_readMeta (metas : List ConfigFileMeta) :
    (metas.map metaJson).mapM readMeta = some metas := by
  induction metas with
  | nil => rfl
  | cons m metas ih =>
    rw [List.map_cons, List.mapM_cons, readMeta_metaJson, ih]
    rfl

theorem valid_metaJson {d : Nat} (m : ConfigFileMeta) : (metaJson m).Valid (d + 1) := by
  apply Json.valid_insertEntries
  · intro e he
    simp only [metaFields, List.mem_cons, List.not_mem_nil, or_false] at he
    rcases he with rfl | rfl | rfl | rfl
    · exact .str _
    · exact Json.valid_natJson _
    · exact Json.valid_natJson _
    · cases m.checksum with
      | none => exact .null
      | some c => exact .str c
  · exact .obj sorted_nil (by simp)

/-- The index is read back. -/
theorem jsonDecode_jsonEncode (metas : List ConfigFileMeta) :
    jsonDecode (jsonEncode metas) = some metas := by
  have hvalid : (Json.arr (metas.map metaJson)).Valid Json.nestingLimit := by
    constructor
    intro v hv
    rcases List.mem_map.1 hv with ⟨m, -, rfl⟩
    exact valid_metaJson m
  simp only [jsonDecode, jsonEncode, fromUtf8_eq_some.2 rfl,
    JsonText.compact.parse_print _ hvalid, Json.asArray, Option.bind_eq_bind, Option.bind_some,
    mapM_readMeta]

/-! ## Isolation -/

/-- A call for `name` that turns `s` into `s'` leaves alone what is not its own. -/
structure Isolated (dec : IndexDecoder) (s s' : ConfigStore) (name : Str) : Prop where
  getMeta : ∀ m ≠ name, s'.getMeta m = s.getMeta m
  getFile : ∀ m ≠ name, s'.getFile m = s.getFile m
  outside : ∀ p, ¬ s.configsDir <+: p → p ≠ s.indexPath → s'.disk p = s.disk p
  indexed : s'.Indexed dec

/-- A file that is no business of `name`: outside the configs directory and
not the index, or the content of another stored name. -/
def Foreign (s : ConfigStore) (name : Str) (p : Path) : Prop :=
  (¬ s.configsDir <+: p ∧ p ≠ s.indexPath) ∨
    ∃ m ≠ name, s.getMeta m ≠ none ∧ s.contentPath m = p

/-- The paths of the call are apart from what is foreign. A lock file outside the
configs directory is there already, a foreign content file has already what the
write leaves in it, and no other stored name has the index for its content file.
What failed writes leave in the index parses to the map. -/
structure Apart (dec : IndexDecoder) (s : ConfigStore) (io : StoreIo) (file : ConfigFile) :
    Prop where
  lock : io.openLock = none → ¬ s.configsDir <+: s.lockPath file.name →
    s.disk (s.lockPath file.name) ≠ none
  content : s.Writes io file → s.Foreign file.name (s.contentPath file.name) →
    s.disk (s.contentPath file.name) = leaves file.content io.writeContent
  index : s.Writes io file → io.writeContent = .done →
    ∀ m ≠ file.name, s.getMeta m ≠ none → s.contentPath m ≠ s.indexPath
  failedContent : ∀ e left, s.Writes io file → io.writeContent = .failed e left →
    s.contentPath file.name = s.indexPath →
    ∀ n, (loadVersions dec left).lookup n = s.getMeta n
  failedIndex : ∀ e left, s.Writes io file → io.writeContent = .done →
    io.writeIndex = .failed e left →
    ∀ n, (loadVersions dec left).lookup n =
      (s.versions.insert file.name file.toMeta).lookup n

/-- What is read of a stored name depends on its content file alone. -/
theorem getFile_eq_iff {s s' : ConfigStore} {m : Str} (hroot : s'.root = s.root)
    (hmeta : s'.getMeta m = s.getMeta m) :
    s'.getFile m = s.getFile m ↔
      (s.getMeta m ≠ none → s'.disk (s.contentPath m) = s.disk (s.contentPath m)) := by
  have hpath : s'.contentPath m = s.contentPath m := by
    rw [contentPath, contentPath, configsDir, configsDir, hroot]
  unfold getFile
  rw [hmeta, hpath]
  cases s.getMeta m with
  | none => simp
  | some md =>
    cases s'.disk (s.contentPath m) <;> cases s.disk (s.contentPath m) <;> simp

section Isolated

variable {enc : IndexEncoder} {dec : IndexDecoder} {s : ConfigStore} {io : StoreIo}
  {file : ConfigFile}

theorem getMeta_store {m : Str} (h : m ≠ file.name) :
    (s.store enc io file).1.getMeta m = s.getMeta m := by
  rw [store_eq]
  show (s.versionsAfter io file).lookup m = _
  unfold versionsAfter
  split
  · exact AList.lookup_insert_ne h
  · rfl

/-- Files and other names are left alone when no foreign file changes. -/
theorem frame_iff :
    ((∀ m ≠ file.name, (s.store enc io file).1.getFile m = s.getFile m) ∧
      ∀ p, ¬ s.configsDir <+: p → p ≠ s.indexPath →
        (s.store enc io file).1.disk p = s.disk p) ↔
      ∀ e, LastOf (·.1) e (s.effects enc io file) → s.Foreign file.name e.1 →
        s.disk e.1 = e.2 := by
  have hdisk : (s.store enc io file).1.disk = s.disk.apply (s.effects enc io file) := by
    rw [store_eq]
  have hget : ∀ m ≠ file.name, (s.store enc io file).1.getFile m = s.getFile m ↔
      (s.getMeta m ≠ none → (s.disk.apply (s.effects enc io file)) (s.contentPath m) =
        s.disk (s.contentPath m)) := by
    intro m hm
    rw [getFile_eq_iff (by rw [store_eq]) (getMeta_store hm), hdisk]
  rw [← Disk.apply_agrees_iff, hdisk]
  constructor
  · rintro ⟨hfiles, houtside⟩ p (⟨hdir, hidx⟩ | ⟨m, hm, hstored, rfl⟩)
    · exact houtside p hdir hidx
    · exact (hget m hm).1 (hfiles m hm) hstored
  · intro h
    constructor
    · intro m hm
      rw [hget m hm]
      intro hstored
      exact h _ (.inr ⟨m, hm, hstored, rfl⟩)
    · intro p hdir hidx
      exact h p (.inl ⟨hdir, hidx⟩)

/-! ### The index -/

theorem lockPath_ne_contentPath (s : ConfigStore) (m n : Str) :
    s.contentPath m ≠ s.lockPath n := by
  rcases exists_join_suffix s.configsDir m (by decide : '/' ∉ ".json".toList) (by decide) with
    ⟨dir, c, hm⟩
  rcases exists_join_suffix s.configsDir n (by decide : '/' ∉ ".lock".toList) (by decide) with
    ⟨dir', c', hn⟩
  rw [contentPath, lockPath, hm, hn]
  intro h
  have hname : c ++ ".json".toList = c' ++ ".lock".toList := by
    simpa using (List.append_inj' h rfl).2
  -- the last characters differ: `n` against `k`
  have hlast := congrArg List.getLast? hname
  simp at hlast

theorem lockPath_ne_indexPath (s : ConfigStore) (n : Str) : s.indexPath ≠ s.lockPath n := by
  rcases exists_join_suffix s.configsDir n (by decide : '/' ∉ ".lock".toList) (by decide) with
    ⟨dir, c, hn⟩
  rw [indexPath_eq, lockPath, hn]
  intro h
  have hname : "versions.json".toList = c ++ ".lock".toList := by
    simpa using (List.append_inj' h rfl).2
  have hlast := congrArg List.getLast? hname
  simp at hlast

/-- What the call leaves in the index. -/
theorem disk_index_store :
    (s.store enc io file).1.disk s.indexPath =
      if s.Writes io file then
        if io.writeContent = .done then
          leaves (enc ((s.versions.insert file.name file.toMeta).entries.map (·.2))) io.writeIndex
        else if s.contentPath file.name = s.indexPath then leaves file.content io.writeContent
        else s.disk s.indexPath
      else s.disk s.indexPath := by
  have hlock := lockPath_ne_indexPath s file.name
  rw [store_eq]
  show s.disk.apply (s.effects enc io file) s.indexPath = _
  by_cases hwrites : s.Writes io file
  · rw [if_pos hwrites, effects, if_pos hwrites.1, if_pos hwrites, Disk.apply_cons_ne _ hlock,
      contentEffects]
    by_cases hdone : io.writeContent = .done
    · rw [if_pos hdone, if_pos hdone]
      exact Disk.apply_lastOf _ ⟨[_], [], rfl, by simp⟩
    · rw [if_neg hdone, if_neg hdone]
      by_cases hpath : s.contentPath file.name = s.indexPath
      · rw [if_pos hpath, ← hpath]
        exact Disk.apply_lastOf _ ⟨[], [], rfl, by simp⟩
      · rw [if_neg hpath, Disk.apply_cons_ne _ (Ne.symm hpath)]
        rfl
  · rw [if_neg hwrites, effects]
    split
    · rw [Disk.apply_cons_ne _ hlock]
      rfl
    · rfl

/-- The index still parses to the map, but for failed writes that leave something else. -/
theorem indexed_iff (hcodec : ∀ metas, dec (enc metas) = some metas) (hindexed : s.Indexed dec) :
    (s.store enc io file).1.Indexed dec ↔
      (∀ e left, s.Writes io file → io.writeContent = .failed e left →
        s.contentPath file.name = s.indexPath →
        ∀ n, (loadVersions dec left).lookup n = s.getMeta n) ∧
      (∀ e left, s.Writes io file → io.writeContent = .done → io.writeIndex = .failed e left →
        ∀ n, (loadVersions dec left).lookup n =
          (s.versions.insert file.name file.toMeta).lookup n) := by
  have hafter : (s.store enc io file).1.Indexed dec ↔
      ∀ n, (loadVersions dec ((s.store enc io file).1.disk s.indexPath)).lookup n =
        (s.versionsAfter io file).lookup n := by
    have hpath : (s.store enc io file).1.indexPath = s.indexPath := by
      rw [store_eq]
      rfl
    have hmeta : ∀ n, (s.store enc io file).1.getMeta n = (s.versionsAfter io file).lookup n := by
      rw [store_eq]
      exact fun _ => rfl
    simp only [Indexed, hpath, hmeta]
  have hbefore : ∀ n, (loadVersions dec (s.disk s.indexPath)).lookup n = s.versions.lookup n :=
    hindexed
  rw [hafter, disk_index_store, versionsAfter]
  by_cases hwrites : s.Writes io file
  · cases hcontent : io.writeContent with
    | failed e left =>
      -- the map stays, and the index with it unless it was the content file
      by_cases hpath : s.contentPath file.name = s.indexPath
      · simp [hwrites, hpath, leaves, getMeta]
      · simp only [hwrites, hpath]
        simpa using hbefore
    | done =>
      cases hindex : io.writeIndex with
      | failed e left => simp [hwrites, leaves]
      | done =>
        have hkeyed : Keyed (s.versions.insert file.name file.toMeta) :=
          hindexed.keyed.insert file.toMeta
        simp only [hwrites, true_and, if_true, leaves]
        simpa using lookup_load_written hcodec hkeyed
  · simp only [hwrites]
    simpa using hbefore

/-! ### The calls that are isolated -/

/-- Names without separators stay apart. -/
theorem apart_of_plain (hfile : Plain file.name)
    (hstored : ∀ m, s.getMeta m ≠ none → Plain m) (hindex : io.writeIndex = .done) :
    Apart dec s io file := by
  have hforeign : ∀ p, s.Foreign file.name p →
      p ≠ s.lockPath file.name ∧ p ≠ s.contentPath file.name ∧ p ≠ s.indexPath := by
    rintro p (⟨houtside, hidx⟩ | ⟨m, hm, hget, rfl⟩)
    · refine ⟨?_, ?_, hidx⟩
      · rintro rfl
        exact houtside ⟨_, (lockPath_eq s hfile).symm⟩
      · rintro rfl
        exact houtside ⟨_, (contentPath_eq s hfile).symm⟩
    · refine ⟨lockPath_ne_contentPath s m file.name, ?_, ?_⟩
      · exact fun h => hm (contentPath_inj s (hstored m hget) hfile h)
      · exact contentPath_ne_indexPath s (hstored m hget)
  constructor
  · intro _ houtside
    exact absurd ⟨_, (lockPath_eq s hfile).symm⟩ houtside
  · intro _ hf
    exact absurd rfl (hforeign _ hf).2.1
  · intro _ _ m _ hget
    exact contentPath_ne_indexPath s (hstored m hget)
  · intro _ _ _ _ hpath
    exact absurd hpath (contentPath_ne_indexPath s hfile)
  · intro e left _ _ hfailed
    rw [hindex] at hfailed
    cases hfailed

/-- A lock file is foreign only outside the configs directory. -/
theorem foreign_lockPath_iff :
    s.Foreign file.name (s.lockPath file.name) ↔
      ¬ s.configsDir <+: s.lockPath file.name := by
  constructor
  · rintro (⟨houtside, -⟩ | ⟨m, -, -, hpath⟩)
    · exact houtside
    · exact absurd hpath (lockPath_ne_contentPath s m file.name)
  · exact fun houtside => .inl ⟨houtside, Ne.symm (lockPath_ne_indexPath s file.name)⟩

theorem lastOf_lock (hopen : io.openLock = none) :
    LastOf (·.1) (s.lockPath file.name, some ((s.disk (s.lockPath file.name)).getD []))
      (s.effects enc io file) := by
  rw [effects, if_pos hopen]
  refine ⟨[], _, rfl, ?_⟩
  intro e he
  split at he
  · unfold contentEffects at he
    rcases List.mem_cons.1 he with rfl | he
    · exact lockPath_ne_contentPath s file.name file.name
    · split at he
      · rw [List.mem_singleton] at he
        rw [he]
        exact lockPath_ne_indexPath s file.name
      · simp at he
  · simp at he

theorem lastOf_content (hwrites : s.Writes io file)
    (h : io.writeContent = .done → s.contentPath file.name ≠ s.indexPath) :
    LastOf (·.1) (s.contentPath file.name, leaves file.content io.writeContent)
      (s.effects enc io file) := by
  rw [effects, if_pos hwrites.1, if_pos hwrites, contentEffects]
  refine ⟨[_], _, rfl, ?_⟩
  intro e he
  split at he
  · rename_i hdone
    rw [List.mem_singleton] at he
    rw [he]
    exact Ne.symm (h hdone)
  · simp at he

/-- Once the content is written the index is: no other name may read it. -/
theorem contentPath_ne_of_isolated (hindexed : s.Indexed dec)
    (h : Isolated dec s (s.store enc io file).1 file.name) (hwrites : s.Writes io file)
    (hdone : io.writeContent = .done) {m : Str} (hm : m ≠ file.name)
    (hstored : s.getMeta m ≠ none) : s.contentPath m ≠ s.indexPath := by
  intro hpath
  have hstay : (s.store enc io file).1.disk s.indexPath = s.disk s.indexPath := by
    rw [← hpath]
    exact (getFile_eq_iff (by rw [store_eq]) (getMeta_store hm)).1 (h.getFile m hm) hstored
  -- the index that stays cannot tell of the new version
  have hload := h.indexed file.name
  have hindexPath : (s.store enc io file).1.indexPath = s.indexPath := by
    rw [store_eq]
    rfl
  have hnew : (s.store enc io file).1.getMeta file.name = some file.toMeta := by
    rw [store_eq]
    show (s.versionsAfter io file).lookup file.name = _
    rw [versionsAfter, if_pos ⟨hwrites, hdone⟩, AList.lookup_insert]
  have hold : s.getMeta file.name = some file.toMeta := by
    rw [← hindexed file.name, ← hstay, ← hindexPath, hload, hnew]
  refine hwrites.2.2 ?_
  rw [version?, hold]
  rfl

/-- No foreign file changes when the paths are apart. -/
theorem files_of_apart (h : Apart dec s io file) :
    ∀ e, LastOf (·.1) e (s.effects enc io file) → s.Foreign file.name e.1 →
      s.disk e.1 = e.2 := by
  intro e he hforeign
  have hmem := he.mem
  unfold effects contentEffects at hmem
  split at hmem
  · rename_i hopen
    rcases List.mem_cons.1 hmem with rfl | hmem
    · -- the lock file
      have hthere := h.lock hopen (foreign_lockPath_iff.1 hforeign)
      cases hdisk : s.disk (s.lockPath file.name) with
      | none => exact absurd hdisk hthere
      | some bytes => rfl
    · split at hmem
      · rename_i hwrites
        rcases List.mem_cons.1 hmem with rfl | hmem
        · exact h.content hwrites hforeign
        · split at hmem
          · -- the index, which is foreign as the content of another name only
            rename_i hdone
            rw [List.mem_singleton] at hmem
            rw [hmem] at hforeign
            rcases hforeign with ⟨-, hne⟩ | ⟨m, hm, hstored, hpath⟩
            · exact absurd rfl hne
            · exact absurd hpath (h.index hwrites hdone m hm hstored)
          · simp at hmem
      · simp at hmem
  · simp at hmem

/-- A call is isolated exactly when its paths are apart from what is foreign
and no failed write breaks the index. -/
theorem isolated_iff (hcodec : ∀ metas, dec (enc metas) = some metas)
    (hindexed : s.Indexed dec) :
    Isolated dec s (s.store enc io file).1 file.name ↔ Apart dec s io file := by
  constructor
  · intro h
    have hfiles := frame_iff.1 ⟨h.getFile, h.outside⟩
    have hfailed := (indexed_iff hcodec hindexed).1 h.indexed
    have hindex := contentPath_ne_of_isolated hindexed h
    refine ⟨?_, ?_, fun hwrites hdone m hm => hindex hwrites hdone hm, hfailed.1, hfailed.2⟩
    · intro hopen houtside hnone
      have hsame := hfiles _ (lastOf_lock hopen) (foreign_lockPath_iff.2 houtside)
      rw [hnone] at hsame
      cases hsame
    · intro hwrites hforeign
      refine hfiles _ (lastOf_content hwrites fun hdone hpath => ?_) hforeign
      rcases hforeign with ⟨-, hne⟩ | ⟨m, hm, hstored, hm'⟩
      · exact hne hpath
      · exact hindex hwrites hdone hm hstored (hm'.trans hpath)
  · intro h
    have hfiles : ∀ e, LastOf (·.1) e (s.effects enc io file) → s.Foreign file.name e.1 →
        s.disk e.1 = e.2 := files_of_apart h
    have hframe := frame_iff.2 hfiles
    exact ⟨fun m hm => getMeta_store hm, hframe.1, hframe.2,
      (indexed_iff hcodec hindexed).2 ⟨h.failedContent, h.failedIndex⟩⟩

end Isolated

/-! ### Two names -/

/-- An empty store under `/data`. -/
def emptyStore : ConfigStore where
  root := ["data".toList]
  versions := ∅
  disk := fun _ => none

theorem indexed_emptyStore : emptyStore.Indexed jsonDecode := fun _ => rfl

/-- First version of a configuration of the given name. -/
def firstVersion (name : String) : ConfigFile where
  name := name.toList
  version := 1
  content := utf8 "on".toList
  timestamp := 1714521600
  checksum := none

theorem isolated_settings : Isolated jsonDecode emptyStore
    (emptyStore.store jsonEncode .allOk (firstVersion "settings")).1 "settings".toList :=
  (isolated_iff jsonDecode_jsonEncode indexed_emptyStore).2
    (apart_of_plain (by decide) (fun _ h => absurd rfl h) rfl)

/-- A name that climbs out of the configs directory creates files at the root. -/
theorem notes_not_isolated : ¬ Isolated jsonDecode emptyStore
    (emptyStore.store jsonEncode .allOk (firstVersion "../../notes")).1 "../../notes".toList := by
  intro h
  have hout := h.outside ["notes.json".toList] (by decide) (by decide)
  rw [store_eq] at hout
  have hleft : emptyStore.disk.apply
      (emptyStore.effects jsonEncode .allOk (firstVersion "../../notes")) ["notes.json".toList] =
        some (utf8 "on".toList) :=
    Disk.apply_lastOf _ (e := (["notes.json".toList], some (utf8 "on".toList)))
      ⟨[(["notes.lock".toList], some [])], _, rfl, by decide⟩
  cases hleft.symm.trans hout

end ConfigStore

end HomeTier
