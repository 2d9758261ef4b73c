import HomeTier.ConfigStore.Isolation

/-! # A failed store call

`ConfigStore::store` writes the content file, then the in-memory index, then
`versions.json`, and each write to the disk may fail. `Unchanged` is what a
caller of `get_meta` and `get_file` and a reader of `versions.json` can see of
it. A failed call is `Unchanged` exactly when it rolls back (`RollsBack`):

* behind a written content the entry of the map is already replaced, so no
  failure of the index write is rolled back;
* a failed content write may leave a truncated file, which `get_file` returns
  under the metadata of the version before.
-/

namespace HomeTier

open Lib

namespace ConfigStore

/-- What can be seen of the store is as before. -/
structure Unchanged (s s' : ConfigStore) : Prop where
  getMeta : ∀ n, s'.getMeta n = s.getMeta n
  getFile : ∀ n, s'.getFile n = s.getFile n
  index : s'.disk s'.indexPath = s.disk s.indexPath

/-- A file that is read: the index, or the content of an indexed name. -/
def Read (s : ConfigStore) (p : Path) : Prop :=
  p = s.indexPath ∨ ∃ n, s.getMeta n ≠ none ∧ s.contentPath n = p

/-- A failed content write leaves the file as it was, unless nothing reads it,
and the index write behind a written content does not fail. -/
structure RollsBack (s : ConfigStore) (io : StoreIo) (file : ConfigFile) : Prop where
  content : ∀ e left, s.Writes io file → io.writeContent = .failed e left →
    s.Read (s.contentPath file.name) → left = s.disk (s.contentPath file.name)
  index : s.Writes io file → io.writeContent = .done → io.writeIndex = .done

section Atomic

variable {enc : IndexEncoder} {s : ConfigStore} {io : StoreIo} {file : ConfigFile}

/-- The call succeeds when it writes and both writes are done. -/
theorem store_ok_iff :
    (s.store enc io file).2 = .ok () ↔
      s.Writes io file ∧ io.writeContent = .done ∧ io.writeIndex = .done := by
  unfold Writes
  cases hopen : io.openLock with
  | some e => simp [store, hopen]
  | none =>
    cases hlock : io.lockExclusive with
    | some e => simp [store, hopen, hlock]
    | none =>
      have hconflict := (s.locked file.name).conflict_iff file
      rw [show (s.locked file.name).version? file.name = s.version? file.name from rfl]
        at hconflict
      rw [store_locked enc s hopen hlock, storeLocked, ← hconflict]
      split
      · next hstale => simp [hstale]
      · next hfresh =>
        cases io.writeContent with
        | failed e left => simp [writeFile]
        | done => cases io.writeIndex <;> simp [writeFile, persistVersions, hfresh]

theorem store_error_iff :
    (∃ e, (s.store enc io file).2 = .error e) ↔ (s.store enc io file).2 ≠ .ok () := by
  rcases (s.store enc io file).2 with e | ⟨⟩
  · simp
  · simp

/-- A store with the same root and map is seen unchanged when the files that
are read are as before. -/
theorem unchanged_iff {s' : ConfigStore} (hroot : s'.root = s.root)
    (hversions : s'.versions = s.versions) :
    Unchanged s s' ↔ ∀ p, s.Read p → s'.disk p = s.disk p := by
  have hmeta : ∀ n, s'.getMeta n = s.getMeta n := by
    intro n
    rw [getMeta, getMeta, hversions]
  have hindex : s'.indexPath = s.indexPath := by rw [indexPath, indexPath, hroot]
  constructor
  · intro h p hread
    rcases hread with rfl | ⟨n, hn, rfl⟩
    · rw [← h.index, hindex]
    · exact (getFile_eq_iff hroot (hmeta n)).1 (h.getFile n) hn
  · intro h
    constructor
    · exact hmeta
    · intro n
      rw [getFile_eq_iff hroot (hmeta n)]
      intro hn
      exact h _ (.inr ⟨n, hn, rfl⟩)
    · rw [hindex]
      exact h _ (.inl rfl)

/-- The lock file is not read. -/
theorem ne_lockPath_of_read {p : Path} (h : s.Read p) (name : Str) : p ≠ s.lockPath name := by
  rcases h with rfl | ⟨n, -, rfl⟩
  · exact lockPath_ne_indexPath s name
  · exact lockPath_ne_contentPath s n name

/-- A call that does not get to its writes is not seen. -/
theorem unchanged_of_not_writes (h : ¬ s.Writes io file) :
    Unchanged s (s.store enc io file).1 := by
  rw [unchanged_iff (by rw [store_eq]) (by rw [store_eq, versionsAfter, if_neg (fun hw => h hw.1)])]
  intro p hread
  rw [store_eq, effects, if_neg h]
  split
  · exact Disk.apply_cons_ne _ (ne_lockPath_of_read hread _) _
  · rfl

/-- A failed content write is not seen when it leaves the file as it was or
the file is not read. -/
theorem unchanged_iff_of_failed {e : Str} {left : Option Bytes} (hwrites : s.Writes io file)
    (hfailed : io.writeContent = .failed e left) :
    Unchanged s (s.store enc io file).1 ↔
      (s.Read (s.contentPath file.name) → left = s.disk (s.contentPath file.name)) := by
  have hnotDone : ¬ (s.Writes io file ∧ io.writeContent = .done) := by
    rw [hfailed]
    simp
  have hdisk : ∀ p, s.Read p → (s.store enc io file).1.disk p =
      if p = s.contentPath file.name then left else s.disk p := by
    intro p hread
    rw [store_eq, effects, if_pos hwrites.1, if_pos hwrites, contentEffects, hfailed]
    show s.disk.apply (_ :: [(s.contentPath file.name, left)]) p = _
    rw [Disk.apply_cons_ne _ (ne_lockPath_of_read hread _)]
    show Function.update s.disk _ left p = _
    rw [Function.update_apply]
  rw [unchanged_iff (by rw [store_eq]) (by rw [store_eq, versionsAfter, if_neg hnotDone])]
  constructor
  · intro h hread
    rw [← h _ hread, hdisk _ hread, if_pos rfl]
  · intro h p hread
    rw [hdisk p hread]
    split
    · next hp =>
      subst hp
      exact h hread
    · rfl

/-- Behind a written content the entry of the map is the new one. -/
theorem getMeta_written (hwrites : s.Writes io file) (hdone : io.writeContent = .done) :
    (s.store enc io file).1.getMeta file.name = some file.toMeta := by
  rw [store_eq, versionsAfter, if_pos ⟨hwrites, hdone⟩]
  exact AList.lookup_insert _

/-- The entry before a call that writes is another one: its version is older. -/
theorem getMeta_ne_of_writes (hwrites : s.Writes io file) :
    s.getMeta file.name ≠ some file.toMeta := by
  intro h
  have hversion : s.version? file.name = file.version := by
    rw [version?, h]
    rfl
  exact hwrites.2.2 hversion.ge

/-- A call that fails is not seen exactly when it rolls back. -/
theorem store_failure_unseen (enc : IndexEncoder) (s : ConfigStore) (io : StoreIo)
    (file : ConfigFile) :
    (∀ e, (s.store enc io file).2 = .error e → Unchanged s (s.store enc io file).1) ↔
      RollsBack s io file := by
  rw [← exists_imp, store_error_iff, Ne, store_ok_iff]
  by_cases hwrites : s.Writes io file
  · cases hcontent : io.writeContent with
    | failed e left =>
      rw [unchanged_iff_of_failed hwrites hcontent]
      constructor
      · intro h
        refine ⟨?_, fun _ hdone => ?_⟩
        · intro e' left' _ hfailed
          rw [hcontent] at hfailed
          cases hfailed
          exact h (by simp)
        · rw [hcontent] at hdone
          cases hdone
      · intro h _
        exact h.content e left hwrites hcontent
    | done =>
      cases hindex : io.writeIndex with
      | done =>
        -- the call succeeds
        constructor
        · intro _
          refine ⟨?_, fun _ _ => hindex⟩
          intro _ _ _ hfailed
          rw [hcontent] at hfailed
          cases hfailed
        · intro _ hfails
          exact absurd ⟨hwrites, rfl, rfl⟩ hfails
      | failed e left =>
        -- the map has the new entry already
        have hseen : ¬ Unchanged s (s.store enc io file).1 := by
          intro h
          have hmeta := h.getMeta file.name
          rw [getMeta_written hwrites hcontent] at hmeta
          exact getMeta_ne_of_writes hwrites hmeta.symm
        constructor
        · intro h
          exact absurd (h (by simp)) hseen
        · intro h
          have hdone := h.index hwrites hcontent
          rw [hindex] at hdone
          cases hdone
  · constructor
    · intro _
      exact ⟨fun _ _ h => absurd h hwrites, fun h => absurd h hwrites⟩
    · intro _ _
      exact unchanged_of_not_writes hwrites

end Atomic

/-- An empty store whose disk fills up at `versions.json`: the call fails and
the map has the file. -/
def fullDisk : StoreIo where
  openLock := none
  lockExclusive := none
  writeContent := .done
  writeIndex := .failed "No space left on device (os error 28)".toList (some [])

def hosts : ConfigFile where
  name := "hosts".toList
  version := 1
  content := [0x7b, 0x7d]
  timestamp := 0
  checksum := none

theorem failed_store_kept :
    ¬ ∀ (enc : IndexEncoder) (s : ConfigStore) (io : StoreIo) (file : ConfigFile) (e : StoreError),
      (s.store enc io file).2 = .error e → Unchanged s (s.store enc io file).1 := by
  intro h
  have hunchanged :=
    h jsonEncode { root := [], versions := ∅, disk := fun _ => none } fullDisk hosts _ rfl
  have hmeta := hunchanged.getMeta hosts.name
  rw [getMeta_written ⟨rfl, rfl, by decide⟩ rfl] at hmeta
  cases hmeta

end ConfigStore

end HomeTier
