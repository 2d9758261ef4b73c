import Mathlib.Data.List.Nodup

/-! # Keyed lists

A list of rows with a key. `upsert` removes the rows of the key and appends the
new one: what `INSERT OR REPLACE` does to a table, and what `retain` followed by
`push` does to a vector. Which rows a write replaces depends on the key alone,
so the same sequence of writes leaves different rows under different keys.
-/

namespace HomeTier.Lib

variable {α κ : Type} {key : α → κ} {x y : α} {rows : List α}

/-! ## The last row of a key -/

/-- `x` stands in the list, and no row behind it has its key. -/
def LastOf (key : α → κ) (x : α) (rows : List α) : Prop :=
  ∃ before after, rows = before ++ x :: after ∧ ∀ y ∈ after, key y ≠ key x

theorem LastOf.mem (h : LastOf key x rows) : x ∈ rows := by
  rcases h with ⟨before, after, rfl, -⟩
  simp

theorem lastOf_concat (key : α → κ) (x : α) (rows : List α) : LastOf key x (rows ++ [x]) :=
  ⟨rows, [], rfl, by simp⟩

theorem LastOf.filter (h : LastOf key x rows) {p : α → Bool} (hx : p x = true) :
    LastOf key x (rows.filter p) := by
  rcases h with ⟨before, after, rfl, hafter⟩
  refine ⟨before.filter p, after.filter p, ?_, ?_⟩
  · simp [hx]
  · intro y hy
    exact hafter y (List.mem_of_mem_filter hy)

theorem LastOf.concat (h : LastOf key x rows) {y : α} (hy : key y ≠ key x) :
    LastOf key x (rows ++ [y]) := by
  rcases h with ⟨before, after, rfl, hafter⟩
  refine ⟨before, after ++ [y], by simp, ?_⟩
  intro z hz
  rcases List.mem_append.1 hz with hz | hz
  · exact hafter z hz
  · obtain rfl : z = y := by simpa using hz
    exact hy

/-- Rows may be mapped where the new key still separates what the old one does. -/
theorem LastOf.map {β μ : Type} (h : LastOf key x rows) {f : α → β} {key' : β → μ}
    (hkey : ∀ y ∈ rows, key y ≠ key x → key' (f y) ≠ key' (f x)) :
    LastOf key' (f x) (rows.map f) := by
  rcases h with ⟨before, after, rfl, hafter⟩
  refine ⟨before.map f, after.map f, by simp, ?_⟩
  intro z hz
  rcases List.mem_map.1 hz with ⟨y, hy, rfl⟩
  exact hkey y (by simp [hy]) (hafter y hy)

/-- A key that occurs has a last row. -/
theorem exists_lastOf {k : κ} (h : k ∈ rows.map key) : ∃ x, LastOf key x rows ∧ key x = k := by
  induction rows with
  | nil => simp at h
  | cons y rows ih =>
    by_cases hrest : k ∈ rows.map key
    · rcases ih hrest with ⟨x, ⟨before, after, rfl, hafter⟩, hx⟩
      exact ⟨x, ⟨y :: before, after, rfl, hafter⟩, hx⟩
    · obtain rfl : k = key y := by simpa [hrest] using h
      refine ⟨y, ⟨[], rows, rfl, ?_⟩, rfl⟩
      intro z hz heq
      exact hrest (heq ▸ List.mem_map_of_mem hz)

/-! ## Writes -/

section Writes

variable [DecidableEq κ]

/-- Replace the rows with the key of `x` by `x`. -/
def upsert (key : α → κ) (x : α) (rows : List α) : List α :=
  rows.filter (fun y => key y ≠ key x) ++ [x]

/-- Remove the rows of a key. -/
def deleteKey (key : α → κ) (k : κ) (rows : List α) : List α :=
  rows.filter fun y => key y ≠ k

@[simp] theorem mem_upsert :
    y ∈ upsert key x rows ↔ (y ∈ rows ∧ key y ≠ key x) ∨ y = x := by
  simp [upsert]

@[simp] theorem mem_deleteKey {k : κ} :
    y ∈ deleteKey key k rows ↔ y ∈ rows ∧ key y ≠ k := by
  simp [deleteKey]

/-- What is written last under its key stays. -/
theorem mem_foldl_upsert {writes : List α} (h : LastOf key x writes) (rows : List α) :
    x ∈ writes.foldl (fun rows y => upsert key y rows) rows := by
  rcases h with ⟨before, after, rfl, hafter⟩
  have hstay : ∀ rows : List α, x ∈ rows →
      x ∈ after.foldl (fun rows y => upsert key y rows) rows := by
    induction after with
    | nil => exact fun _ hx => hx
    | cons w ws ih =>
      intro rows hx
      rw [List.foldl_cons]
      apply ih
      · intro y hy
        exact hafter y (List.mem_cons_of_mem w hy)
      · rw [mem_upsert]
        exact .inl ⟨hx, (hafter w List.mem_cons_self).symm⟩
  rw [List.foldl_append, List.foldl_cons]
  apply hstay
  rw [mem_upsert]
  exact .inr rfl

/-- Nothing appears that was not there or written. -/
theorem of_mem_foldl_upsert {writes : List α}
    (h : x ∈ writes.foldl (fun rows y => upsert key y rows) rows) : x ∈ rows ∨ x ∈ writes := by
  induction writes generalizing rows with
  | nil => exact .inl h
  | cons w ws ih =>
    rcases ih h with hmem | hmem
    · rcases mem_upsert.1 hmem with ⟨hx, -⟩ | rfl
      · exact .inl hx
      · exact .inr List.mem_cons_self
    · exact .inr (List.mem_cons_of_mem w hmem)

end Writes

/-! ## Rows of other groups -/

section Groups

variable {γ : Type} [DecidableEq γ] {group : α → γ} {a : γ}

/-- The rows of a group. -/
def rowsOf (group : α → γ) (b : γ) (rows : List α) : List α := rows.filter fun x => group x = b

/-- Change the rows that a condition selects. -/
def updateWhere (p : α → Bool) (f : α → α) (rows : List α) : List α :=
  rows.map fun x => if p x then f x else x

/-- Rows that are removed were of the group when the other groups keep theirs. -/
theorem rowsOf_filter_iff (p : α → Bool) (rows : List α) :
    (∀ b ≠ a, rowsOf group b (rows.filter fun x => !p x) = rowsOf group b rows) ↔
      ∀ x ∈ rows, p x = true → group x = a := by
  constructor
  · intro h x hx hp
    by_contra hne
    have hmem : x ∈ rowsOf group (group x) rows := by simp [rowsOf, hx]
    rw [← h _ hne, rowsOf, List.mem_filter, List.mem_filter] at hmem
    simp [hp] at hmem
  · intro h b hb
    rw [rowsOf, rowsOf, List.filter_filter]
    apply List.filter_congr
    intro x hx
    by_cases hgroup : group x = b
    · have hkept : p x = false := by
        by_contra hp
        exact hb (hgroup.symm.trans (h x hx (by simpa using hp)))
      simp [hgroup, hkept]
    · simp [hgroup]

theorem map_eq_self_iff {f : α → α} : rows.map f = rows ↔ ∀ x ∈ rows, f x = x := by
  simpa using List.map_inj_left (l := rows) (f := f) (g := id)

/-- Rows that change within their group are of one group when the other groups
keep theirs. -/
theorem rowsOf_updateWhere_iff {p : α → Bool} {f : α → α} {rows : List α}
    (hgroup : ∀ x ∈ rows, p x = true → group (f x) = group x) :
    (∀ b ≠ a, rowsOf group b (updateWhere p f rows) = rowsOf group b rows) ↔
      ∀ x ∈ rows, p x = true → group x = a ∨ f x = x := by
  have hmap : ∀ b, rowsOf group b (updateWhere p f rows) =
      (rowsOf group b rows).map fun x => if p x then f x else x := by
    intro b
    rw [rowsOf, updateWhere, List.filter_map, rowsOf]
    congr 1
    apply List.filter_congr
    intro x hx
    show decide (group (if p x then f x else x) = b) = _
    split
    · next hp => rw [hgroup x hx hp]
    · rfl
  constructor
  · intro h x hx hp
    by_cases ha : group x = a
    · exact .inl ha
    · right
      have hfix := h _ ha
      rw [hmap, map_eq_self_iff] at hfix
      have hx' := hfix x (by simp [rowsOf, hx])
      rwa [if_pos hp] at hx'
  · intro h b hb
    rw [hmap, map_eq_self_iff]
    intro x hx
    rcases List.mem_filter.1 hx with ⟨hx, hxb⟩
    split
    · next hp =>
      rcases h x hx hp with ha | hfix
      · exact absurd (((of_decide_eq_true hxb).symm.trans ha)) hb
      · exact hfix
    · rfl

end Groups

/-! ## A table with a primary key -/

structure Rows (key : α → κ) where
  rows : List α
  nodup : (rows.map key).Nodup

namespace Rows

/-- `DELETE` -/
def deleteWhere (t : Rows key) (p : α → Bool) : Rows key where
  rows := t.rows.filter fun x => !p x
  nodup := t.nodup.sublist (List.filter_sublist.map key)

/-- `UPDATE` of columns that are not the key. -/
def updateWhere (t : Rows key) (p : α → Bool) (f : α → α) (hf : ∀ x, key (f x) = key x) :
    Rows key where
  rows := Lib.updateWhere p f t.rows
  nodup := by
    have hkeys : (Lib.updateWhere p f t.rows).map key = t.rows.map key := by
      rw [Lib.updateWhere, List.map_map]
      apply List.map_congr_left
      intro x _
      show key (if p x then f x else x) = key x
      split
      · exact hf x
      · rfl
    rw [hkeys]
    exact t.nodup

/-- `INSERT` of a row with a new key. -/
def insert (t : Rows key) (x : α) (hx : key x ∉ t.rows.map key) : Rows key where
  rows := t.rows ++ [x]
  nodup := by
    rw [List.map_append, List.map_singleton]
    refine List.Nodup.append t.nodup (List.nodup_singleton _) ?_
    rw [List.disjoint_singleton]
    exact hx

/-- A key belongs to one row. -/
theorem eq_of_key_eq (t : Rows key) (hx : x ∈ t.rows) (hy : y ∈ t.rows) (h : key x = key y) :
    x = y :=
  List.inj_on_of_nodup_map t.nodup hx hy h

/-- A row is found under its key. -/
theorem find?_key [DecidableEq κ] (t : Rows key) (hx : x ∈ t.rows) :
    (t.rows.find? fun y => key y = key x) = some x := by
  cases hfind : t.rows.find? fun y => key y = key x with
  | none =>
    have hno := List.find?_eq_none.1 hfind x hx
    simp at hno
  | some y =>
    have hkey : key y = key x := by simpa using List.find?_some hfind
    rw [t.eq_of_key_eq (List.mem_of_find?_eq_some hfind) hx hkey]

end Rows

end HomeTier.Lib
