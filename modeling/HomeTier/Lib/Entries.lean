import Mathlib.Data.Char
import Mathlib.Data.List.Lex
import Mathlib.Data.List.Nodup
import Mathlib.Order.Lattice

/-! # Maps as ordered entries

A map whose keys are ordered, as the list of its entries in the order of the
keys: the form a `BTreeMap` is iterated in. Inserting keeps the order, and two
lists in order that give the same at every key are equal.
-/

namespace HomeTier.Lib

section Lookup

variable {κ β : Type} [BEq κ] [LawfulBEq κ]

theorem mem_of_lookup {kvs : List (κ × β)} {k : κ} {v : β}
    (h : kvs.lookup k = some v) : (k, v) ∈ kvs := by
  rcases List.lookup_eq_some_iff.1 h with ⟨front, back, rfl, -⟩
  simp

theorem lookup_eq_none {kvs : List (κ × β)} {k : κ} (h : k ∉ kvs.map (·.1)) :
    kvs.lookup k = none := by
  rw [List.lookup_eq_none_iff]
  intro e he
  have hne : k ≠ e.1 := by
    rintro rfl
    exact h (List.mem_map_of_mem he)
  simpa using hne

end Lookup

variable {κ β : Type} [LinearOrder κ]

/-- `insert` keeps the keys in order and replaces an entry of the same key. -/
def insertEntry (key : κ) (v : β) : List (κ × β) → List (κ × β)
  | [] => [(key, v)]
  | e :: kvs =>
    if key = e.1 then (key, v) :: kvs
    else if key < e.1 then (key, v) :: e :: kvs
    else e :: insertEntry key v kvs

/-- The entries inserted one after the other. -/
def insertEntries (entries kvs : List (κ × β)) : List (κ × β) :=
  entries.foldl (fun kvs e => insertEntry e.1 e.2 kvs) kvs

/-- The keys are distinct and in order. -/
def Sorted (kvs : List (κ × β)) : Prop := (kvs.map (·.1)).Pairwise (· < ·)

variable {kvs entries : List (κ × β)} {e : κ × β}

theorem sorted_cons : Sorted (e :: kvs) ↔ (∀ e' ∈ kvs, e.1 < e'.1) ∧ Sorted kvs := by
  simp [Sorted]

theorem sorted_nil : Sorted ([] : List (κ × β)) := by
  simp [Sorted]

theorem Sorted.nodup (h : Sorted kvs) : (kvs.map (·.1)).Nodup :=
  h.imp fun hlt => hlt.ne

/-! ## Order -/

theorem mem_insertEntry {key : κ} {v : β}
    (h : e ∈ insertEntry key v kvs) : e = (key, v) ∨ e ∈ kvs := by
  induction kvs with
  | nil => simpa [insertEntry] using h
  | cons e' kvs ih =>
    rw [insertEntry] at h
    split at h
    · rcases List.mem_cons.1 h with rfl | h
      · exact Or.inl rfl
      · exact Or.inr (List.mem_cons_of_mem _ h)
    · split at h
      · exact List.mem_cons.1 h
      · rcases List.mem_cons.1 h with rfl | h
        · exact Or.inr List.mem_cons_self
        · rcases ih h with rfl | h
          · exact Or.inl rfl
          · exact Or.inr (List.mem_cons_of_mem _ h)

theorem sorted_insertEntry (h : Sorted kvs) (key : κ) (v : β) : Sorted (insertEntry key v kvs) := by
  induction kvs with
  | nil => simp [insertEntry, Sorted]
  | cons e kvs ih =>
    rw [sorted_cons] at h
    rw [insertEntry]
    split
    · rename_i heq
      rw [sorted_cons]
      refine ⟨?_, h.2⟩
      intro e' he'
      show key < e'.1
      rw [heq]
      exact h.1 e' he'
    · rename_i hne
      split
      · rename_i hlt
        rw [sorted_cons, sorted_cons]
        refine ⟨?_, h⟩
        intro e' he'
        rcases List.mem_cons.1 he' with rfl | he'
        · exact hlt
        · exact lt_trans hlt (h.1 e' he')
      · rename_i hle
        rw [sorted_cons]
        refine ⟨?_, ih h.2⟩
        intro e' he'
        rcases mem_insertEntry he' with rfl | he'
        · exact lt_of_le_of_ne (not_lt.1 hle) fun heq => hne heq.symm
        · exact h.1 e' he'

theorem mem_insertEntries (h : e ∈ insertEntries entries kvs) : e ∈ entries ∨ e ∈ kvs := by
  induction entries generalizing kvs with
  | nil => exact Or.inr h
  | cons e' entries ih =>
    rcases ih h with h | h
    · exact Or.inl (List.mem_cons_of_mem _ h)
    · rcases mem_insertEntry h with rfl | h
      · exact Or.inl List.mem_cons_self
      · exact Or.inr h

theorem sorted_insertEntries (entries : List (κ × β))
    (h : Sorted kvs) : Sorted (insertEntries entries kvs) := by
  induction entries generalizing kvs with
  | nil => exact h
  | cons e entries ih => exact ih (sorted_insertEntry h e.1 e.2)

theorem insertEntry_append {key : κ} {v : β}
    (h : ∀ e ∈ kvs, e.1 < key) : insertEntry key v kvs = kvs ++ [(key, v)] := by
  induction kvs with
  | nil => rfl
  | cons e kvs ih =>
    have hlt : e.1 < key := h e List.mem_cons_self
    rw [insertEntry, if_neg hlt.ne', if_neg (not_lt.2 hlt.le),
      ih fun e' he' => h e' (List.mem_cons_of_mem _ he'), List.cons_append]

/-- Entries in order are taken as they come. -/
theorem insertEntries_append : ∀ kvs : List (κ × β), Sorted (kvs ++ entries) →
      insertEntries entries kvs = kvs ++ entries := by
  induction entries with
  | nil =>
    intro kvs _
    exact (List.append_nil kvs).symm
  | cons e entries ih =>
    intro kvs h
    have hlt : ∀ e' ∈ kvs, e'.1 < e.1 := by
      intro e' he'
      rw [Sorted, List.map_append, List.pairwise_append] at h
      exact h.2.2 e'.1 (List.mem_map_of_mem he') e.1 (by simp)
    have hstep : insertEntries (e :: entries) kvs =
        insertEntries entries (insertEntry e.1 e.2 kvs) := rfl
    rw [hstep, insertEntry_append hlt, ih _ (by simpa using h)]
    simp

/-! ## Lookup -/

variable [BEq κ] [LawfulBEq κ]

theorem lookup_cons_eq (key k : κ) (v : β) (kvs : List (κ × β)) :
    ((key, v) :: kvs).lookup k = if k = key then some v else kvs.lookup k := by
  by_cases h : k = key
  · simp [h]
  · have hne : (k == key) = false := by simpa using h
    simp [List.lookup_cons, hne, h]

theorem lookup_insertEntry (key k : κ) (v : β) (kvs : List (κ × β)) :
    (insertEntry key v kvs).lookup k = if k = key then some v else kvs.lookup k := by
  induction kvs with
  | nil => exact lookup_cons_eq key k v []
  | cons e kvs ih =>
    rcases e with ⟨key', v'⟩
    rw [insertEntry]
    split
    · -- the entry is replaced
      rename_i heq
      obtain rfl : key = key' := heq
      rw [lookup_cons_eq, lookup_cons_eq]
      by_cases h : k = key <;> simp [h]
    · rename_i hne
      split
      · rw [lookup_cons_eq]
      · -- the entry goes further back
        rw [lookup_cons_eq, ih, lookup_cons_eq]
        by_cases h : k = key'
        · have hk : k ≠ key := by
            rw [h]
            exact fun heq => hne heq.symm
          simp [h, h ▸ hk]
        · simp [h]

theorem lookup_of_mem (h : (kvs.map (·.1)).Nodup) (he : e ∈ kvs) : kvs.lookup e.1 = some e.2 := by
  induction kvs with
  | nil => simp at he
  | cons e' kvs ih =>
    rcases e' with ⟨key, v⟩
    rw [List.map_cons, List.nodup_cons] at h
    rw [lookup_cons_eq]
    rcases List.mem_cons.1 he with rfl | hmem
    · simp
    · have hne : e.1 ≠ key := by
        intro heq
        exact h.1 (List.mem_map.2 ⟨e, hmem, heq⟩)
      rw [if_neg hne]
      exact ih h.2 hmem

/-- What is inserted is found before what was there. -/
theorem lookup_insertEntries (h : (entries.map (·.1)).Nodup) (kvs : List (κ × β)) (k : κ) :
    (insertEntries entries kvs).lookup k = (entries.lookup k).or (kvs.lookup k) := by
  induction entries generalizing kvs with
  | nil => rfl
  | cons e entries ih =>
    rcases e with ⟨key, v⟩
    rw [List.map_cons, List.nodup_cons] at h
    have hstep : insertEntries ((key, v) :: entries) kvs =
        insertEntries entries (insertEntry key v kvs) := rfl
    rw [hstep, ih h.2, lookup_insertEntry, lookup_cons_eq]
    by_cases hk : k = key
    · subst hk
      simp [lookup_eq_none h.1]
    · simp [hk]

/-- A map made of entries has each of them. -/
theorem lookup_insertEntries_nil (h : (entries.map (·.1)).Nodup)
    (he : e ∈ entries) : (insertEntries entries []).lookup e.1 = some e.2 := by
  rw [lookup_insertEntries h, lookup_of_mem h he, Option.some_or]

/-- Maps are equal if they give the same at every key. -/
theorem sorted_ext {kvs kvs' : List (κ × β)} (h : Sorted kvs) (h' : Sorted kvs')
    (hlookup : ∀ k, kvs.lookup k = kvs'.lookup k) : kvs = kvs' := by
  have hmem : ∀ e, e ∈ kvs ↔ e ∈ kvs' := by
    intro e
    constructor
    · intro he
      have := lookup_of_mem h.nodup he
      rw [hlookup] at this
      exact mem_of_lookup this
    · intro he
      have := lookup_of_mem h'.nodup he
      rw [← hlookup] at this
      exact mem_of_lookup this
  have hperm : kvs.Perm kvs' :=
    (List.perm_ext_iff_of_nodup (List.Nodup.of_map _ h.nodup)
      (List.Nodup.of_map _ h'.nodup)).2 hmem
  have hkey : ∀ {l : List (κ × β)}, Sorted l → l.Pairwise fun a b => a.1 < b.1 :=
    fun hl => List.pairwise_map.1 hl
  refine hperm.eq_of_pairwise ?_ (hkey h) (hkey h')
  intro a b _ _ hab hba
  exact absurd hab hba.not_gt

theorem insertEntries_eq_self_iff (hentries : (entries.map (·.1)).Nodup) (hkvs : Sorted kvs) :
    insertEntries entries kvs = kvs ↔ ∀ e ∈ entries, kvs.lookup e.1 = some e.2 := by
  constructor
  · intro heq e he
    have hlookup := lookup_insertEntries hentries kvs e.1
    rw [heq, lookup_of_mem hentries he] at hlookup
    exact hlookup
  · intro hall
    apply sorted_ext (sorted_insertEntries entries hkvs) hkvs
    intro k
    rw [lookup_insertEntries hentries]
    cases hk : entries.lookup k with
    | none => rfl
    | some v => exact (hall (k, v) (mem_of_lookup hk)).symm

end HomeTier.Lib
