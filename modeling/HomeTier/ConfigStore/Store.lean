import Mathlib
import HomeTier.Lib.Disk

/-! # The local config store

`src-tauri/src/config_store/store.rs`. A store keeps one file per
configuration name under `{root}/configs/` and an index of the stored
versions, in memory and in `{root}/versions.json`:

* `getMeta` reads the in-memory index;
* `getFile` reads the index and then the content from the disk;
* `store` refuses a version that is not newer than the indexed one, writes the
  content, then the index entry, then `versions.json`.

What the operating system answers to each file operation of `store` is an
input (`StoreIo`): a failed `std::fs::write` may leave anything in the file.
-/

namespace HomeTier

open Lib

/-- Version metadata of a configuration file. -/
structure ConfigFileMeta where
  name : Str
  version : Nat
  timestamp : Nat
  checksum : Option Str
deriving DecidableEq, Repr

/-- A whole configuration file. -/
structure ConfigFile where
  name : Str
  version : Nat
  content : Bytes
  timestamp : Nat
  checksum : Option Str
deriving DecidableEq, Repr

def ConfigFile.toMeta (f : ConfigFile) : ConfigFileMeta where
  name := f.name
  version := f.version
  timestamp := f.timestamp
  checksum := f.checksum

/-- `StoreError`. -/
inductive StoreError where
  | versionConflict
  | io (e : Str)
deriving DecidableEq, Repr

/-- The store: its root directory, the in-memory index and the disk. -/
structure ConfigStore where
  root : Path
  versions : Map Str ConfigFileMeta
  disk : Disk

/-- Answer to one `std::fs::write`: done, or failed with an error text and
whatever the file holds afterwards. -/
inductive WriteResult where
  | done
  | failed (e : Str) (left : Option Bytes)
deriving DecidableEq, Repr

/-- Answers to the file operations of one `store` call; `none` is success. -/
structure StoreIo where
  openLock : Option Str
  lockExclusive : Option Str
  writeContent : WriteResult
  writeIndex : WriteResult

/-- Every file operation succeeds. -/
def StoreIo.allOk : StoreIo where
  openLock := none
  lockExclusive := none
  writeContent := .done
  writeIndex := .done

namespace ConfigStore

def configsDir (s : ConfigStore) : Path := s.root ++ ["configs".toList]

/-- `{configs}/{name}.json` -/
def contentPath (s : ConfigStore) (name : Str) : Path :=
  join s.configsDir (name ++ ".json".toList)

/-- `{configs}/{name}.lock` -/
def lockPath (s : ConfigStore) (name : Str) : Path :=
  join s.configsDir (name ++ ".lock".toList)

/-- `{root}/versions.json` -/
def indexPath (s : ConfigStore) : Path := join s.root "versions.json".toList

def getMeta (s : ConfigStore) (name : Str) : Option ConfigFileMeta :=
  s.versions.lookup name

def listMeta (s : ConfigStore) : List ConfigFileMeta :=
  s.versions.entries.map fun e => e.2

def getFile (s : ConfigStore) (name : Str) : Except StoreError (Option ConfigFile) :=
  match s.getMeta name with
  | none => .ok none
  | some m =>
    match s.disk (s.contentPath name) with
    | none => .error (.io "No such file or directory (os error 2)".toList)
    | some content =>
      .ok (some {
        name := name
        version := m.version
        content := content
        timestamp := m.timestamp
        checksum := m.checksum })

/-- One `std::fs::write` with the answer `r`. -/
def writeFile (s : ConfigStore) (r : WriteResult) (p : Path) (content : Bytes) :
    ConfigStore × Except StoreError Unit :=
  match r with
  | .done => ({ s with disk := s.disk.write p content }, .ok ())
  | .failed e left => ({ s with disk := Function.update s.disk p left }, .error (.io e))

/-- `serde_json::to_vec` of the index, a parameter of the model. -/
abbrev IndexEncoder := List ConfigFileMeta → Bytes

/-- `persist_versions` -/
def persistVersions (enc : IndexEncoder) (s : ConfigStore) (r : WriteResult) :
    ConfigStore × Except StoreError Unit :=
  s.writeFile r s.indexPath (enc s.listMeta)

/-- The part of `store` that runs under the file lock. -/
def storeLocked (enc : IndexEncoder) (s : ConfigStore) (io : StoreIo) (file : ConfigFile) :
    ConfigStore × Except StoreError Unit :=
  if (s.getMeta file.name).any fun m => m.version ≥ file.version then
    (s, .error .versionConflict)
  else
    match s.writeFile io.writeContent (s.contentPath file.name) file.content with
    | (s₁, .error e) => (s₁, .error e)
    | (s₁, .ok ()) =>
      let s₂ := { s₁ with versions := s₁.versions.insert file.name file.toMeta }
      s₂.persistVersions enc io.writeIndex

/-- `store`: take the lock file, check the version, write content and index. -/
def store (enc : IndexEncoder) (s : ConfigStore) (io : StoreIo) (file : ConfigFile) :
    ConfigStore × Except StoreError Unit :=
  match io.openLock with
  | some e => (s, .error (.io e))
  | none =>
    let s := { s with disk := s.disk.touch (s.lockPath file.name) }
    match io.lockExclusive with
    | some e => (s, .error (.io e))
    | none => s.storeLocked enc io file

/-! ## Paths of plain names -/

/-- A configuration name without a path separator. -/
def Plain (name : Str) : Prop := '/' ∉ name

instance (name : Str) : Decidable (Plain name) := inferInstanceAs (Decidable ¬ _)

theorem join_suffix (base : Path) {name ext : Str} (hn : Plain name) (hsep : '/' ∉ ext)
    (hlen : 2 < ext.length) : join base (name ++ ext) = base ++ [name ++ ext] := by
  have hlong : ∀ t : Str, t.length ≤ 2 → name ++ ext ≠ t := by
    intro t ht h
    have := congrArg List.length h
    simp only [List.length_append] at this
    omega
  apply join_plain
  · simpa [Plain] using ⟨hn, hsep⟩
  · exact hlong [] (by simp)
  · exact hlong _ (by decide)
  · exact hlong _ (by decide)

theorem contentPath_eq (s : ConfigStore) {name : Str} (hn : Plain name) :
    s.contentPath name = s.configsDir ++ [name ++ ".json".toList] :=
  join_suffix _ hn (by decide) (by decide)

theorem lockPath_eq (s : ConfigStore) {name : Str} (hn : Plain name) :
    s.lockPath name = s.configsDir ++ [name ++ ".lock".toList] :=
  join_suffix _ hn (by decide) (by decide)

theorem indexPath_eq (s : ConfigStore) : s.indexPath = s.root ++ ["versions.json".toList] :=
  join_plain _ (by decide) (by decide) (by decide) (by decide)

/-- Plain names have different content files. -/
theorem contentPath_inj (s : ConfigStore) {m n : Str} (hm : Plain m) (hn : Plain n)
    (h : s.contentPath m = s.contentPath n) : m = n := by
  rw [contentPath_eq s hm, contentPath_eq s hn] at h
  have h' : m ++ ".json".toList = n ++ ".json".toList := by simpa using h
  exact List.append_cancel_right h'

theorem contentPath_ne_lockPath (s : ConfigStore) {m n : Str} (hm : Plain m) (hn : Plain n) :
    s.contentPath m ≠ s.lockPath n := by
  rw [contentPath_eq s hm, lockPath_eq s hn]
  intro h
  have h' : m ++ ".json".toList = n ++ ".lock".toList := by simpa using h
  -- the last characters differ: `n` against `k`
  have hlast := congrArg List.getLast? h'
  simp at hlast

theorem contentPath_ne_indexPath (s : ConfigStore) {n : Str} (hn : Plain n) :
    s.contentPath n ≠ s.indexPath := by
  rw [contentPath_eq s hn, indexPath_eq]
  intro h
  have := congrArg List.length h
  simp [configsDir] at this

/-! ## What a `store` call does when its file operations succeed -/

/-- The stored version of a name, `⊥` when the name is not indexed. -/
def version? (s : ConfigStore) (name : Str) : WithBot ℕ :=
  match s.getMeta name with
  | none => ⊥
  | some m => m.version

/-- The store refuses `file` exactly when the indexed version is not older. -/
theorem conflict_iff (s : ConfigStore) (file : ConfigFile) :
    ((s.getMeta file.name).any fun m => m.version ≥ file.version) = true ↔
      (file.version : WithBot ℕ) ≤ s.version? file.name := by
  unfold version?
  cases s.getMeta file.name with
  | none => simp
  | some m => simp

variable (enc : IndexEncoder)

@[simp] theorem store_root (s : ConfigStore) (file : ConfigFile) :
    (s.store enc .allOk file).1.root = s.root := by
  simp only [store, StoreIo.allOk, storeLocked, writeFile, persistVersions]
  split <;> rfl

/-- A stale file changes neither index nor contents. -/
theorem store_stale (s : ConfigStore) {file : ConfigFile} (hf : Plain file.name)
    (h : (file.version : WithBot ℕ) ≤ s.version? file.name) {n : Str} (hn : Plain n) :
    (s.store enc .allOk file).1.getMeta n = s.getMeta n ∧
      (s.store enc .allOk file).1.getFile n = s.getFile n := by
  have hc := (s.conflict_iff file).2 h
  have hne := contentPath_ne_lockPath s hn hf
  have hmeta : (s.store enc .allOk file).1.getMeta n = s.getMeta n := by
    simp only [store, StoreIo.allOk, storeLocked]
    rw [if_pos (by simpa [getMeta] using hc)]
    rfl
  refine ⟨hmeta, ?_⟩
  have hdisk : (s.store enc .allOk file).1.disk (s.contentPath n) = s.disk (s.contentPath n) := by
    simp only [store, StoreIo.allOk, storeLocked]
    rw [if_pos (by simpa [getMeta] using hc)]
    exact Disk.touch_ne _ hne
  have hpath : (s.store enc .allOk file).1.contentPath n = s.contentPath n := by
    simp [contentPath, configsDir]
  simp only [getFile, hmeta, hpath, hdisk]

/-- A newer file replaces the entry of its name and of no other. -/
theorem store_fresh (s : ConfigStore) {file : ConfigFile} (hf : Plain file.name)
    (h : ¬ (file.version : WithBot ℕ) ≤ s.version? file.name) {n : Str} (hn : Plain n) :
    (s.store enc .allOk file).1.getMeta n =
        (if n = file.name then some file.toMeta else s.getMeta n) ∧
      (s.store enc .allOk file).1.getFile n =
        (if n = file.name then .ok (some file) else s.getFile n) := by
  have hc : ¬ ((s.getMeta file.name).any fun m => m.version ≥ file.version) = true :=
    fun hc => h ((s.conflict_iff file).1 hc)
  have hstore : (s.store enc .allOk file).1 =
      { s with
        versions := s.versions.insert file.name file.toMeta
        disk := ((s.disk.touch (s.lockPath file.name)).write
          (s.contentPath file.name) file.content).write s.indexPath
            (enc ((s.versions.insert file.name file.toMeta).entries.map fun e => e.2)) } := by
    simp only [store, StoreIo.allOk, storeLocked]
    rw [if_neg (by simpa [getMeta] using hc)]
    rfl
  have hmeta : (s.store enc .allOk file).1.getMeta n =
      if n = file.name then some file.toMeta else s.getMeta n := by
    rw [hstore]
    by_cases hname : n = file.name
    · subst hname
      simp [getMeta]
    · simp [getMeta, hname]
  refine ⟨hmeta, ?_⟩
  have hpath : (s.store enc .allOk file).1.contentPath n = s.contentPath n := by
    simp [contentPath, configsDir]
  have hdisk : (s.store enc .allOk file).1.disk (s.contentPath n) =
      if n = file.name then some file.content else s.disk (s.contentPath n) := by
    rw [hstore]
    have hidx := contentPath_ne_indexPath s hn
    have hlock := contentPath_ne_lockPath s hn hf
    by_cases hname : n = file.name
    · subst hname
      simp [hidx]
    · -- two plain names have two content paths
      have hcp : s.contentPath n ≠ s.contentPath file.name :=
        fun he => hname (contentPath_inj s hn hf he)
      simp [hidx, hcp, hlock, hname]
  simp only [getFile, hmeta, hpath, hdisk]
  by_cases hname : n = file.name
  · subst hname
    simp [ConfigFile.toMeta]
  · simp [hname]

/-- The stored version of a name after a `store` call is the larger of the
two when the call is for that name, and unchanged otherwise. -/
theorem version?_store (s : ConfigStore) {file : ConfigFile} (hf : Plain file.name)
    {n : Str} (hn : Plain n) :
    (s.store enc .allOk file).1.version? n =
      if n = file.name then max (s.version? n) file.version else s.version? n := by
  by_cases h : (file.version : WithBot ℕ) ≤ s.version? file.name
  · have hmeta := (store_stale enc s hf h hn).1
    simp only [version?] at h ⊢
    rw [hmeta]
    by_cases hname : n = file.name
    · subst hname
      simpa using h
    · simp [hname]
  · have hmeta := (store_fresh enc s hf h hn).1
    have hlt : s.version? file.name ≤ file.version := (not_le.1 h).le
    by_cases hname : n = file.name
    · subst hname
      rw [if_pos rfl, max_eq_right hlt]
      simp [version?, hmeta, ConfigFile.toMeta]
    · simp [version?, hmeta, hname]

end ConfigStore

end HomeTier
