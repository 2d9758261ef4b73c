import HomeTier.Lib.Utf8

/-! # Text put into a text

`String::insert_str` takes a place as a number of bytes and panics when it is not
between two characters. What has been put in gives its place away: when it does not
occur in the text itself and does not overlap with itself (`eq_of_insert`), or when
it holds a run that is longer than the text (`eq_of_marked`).
-/

namespace HomeTier.Lib

/-- Around a number of bytes; `none` inside of a character or behind the end. -/
def splitBytes : Str → Nat → Option (Str × Str)
  | s, 0 => some ([], s)
  | [], _ + 1 => none
  | c :: s, n + 1 =>
    if c.utf8Size ≤ n + 1 then
      (splitBytes s (n + 1 - c.utf8Size)).map fun x => (c :: x.1, x.2)
    else none

/-- `insert_str`; `none` is a panic. -/
def insertStr (s : Str) (pos : Nat) (text : Str) : Option Str :=
  (splitBytes s pos).map fun x => x.1 ++ text ++ x.2

theorem length_utf8_cons (c : Char) (s : Str) :
    (utf8 (c :: s)).length = c.utf8Size + (utf8 s).length := by
  rw [utf8_cons, List.length_append, String.length_utf8EncodeChar]

theorem splitBytes_append (a b : Str) : splitBytes (a ++ b) (utf8 a).length = some (a, b) := by
  induction a with
  | nil => cases b <;> rfl
  | cons c a ih =>
    have hpos := Char.utf8Size_pos c
    rw [length_utf8_cons, List.cons_append]
    obtain ⟨n, hn⟩ : ∃ n, c.utf8Size + (utf8 a).length = n + 1 :=
      ⟨c.utf8Size - 1 + (utf8 a).length, by omega⟩
    have hrest : n + 1 - c.utf8Size = (utf8 a).length := by omega
    rw [hn, splitBytes, if_pos (by omega), hrest, ih]
    rfl

theorem splitBytes_eq_some {s a b : Str} {n : Nat} (h : splitBytes s n = some (a, b)) :
    s = a ++ b ∧ (utf8 a).length = n := by
  induction s generalizing n a with
  | nil =>
    cases n with
    | zero =>
      obtain ⟨rfl, rfl⟩ := Prod.mk.inj (Option.some.inj h)
      exact ⟨rfl, rfl⟩
    | succ n => cases h
  | cons c s ih =>
    cases n with
    | zero =>
      obtain ⟨rfl, rfl⟩ := Prod.mk.inj (Option.some.inj h)
      exact ⟨rfl, rfl⟩
    | succ n =>
      unfold splitBytes at h
      split at h
      · rename_i hle
        rcases Option.map_eq_some_iff.1 h with ⟨⟨a', b'⟩, hrec, heq⟩
        obtain ⟨rfl, rfl⟩ := Prod.mk.inj heq
        rcases ih hrec with ⟨rfl, hn⟩
        refine ⟨rfl, ?_⟩
        rw [length_utf8_cons]
        dsimp only at hn ⊢
        omega
      · cases h

theorem insertStr_append (a b text : Str) :
    insertStr (a ++ b) (utf8 a).length text = some (a ++ text ++ b) := by
  rw [insertStr, splitBytes_append]
  rfl

theorem insertStr_eq_some {s text out : Str} {n : Nat} (h : insertStr s n text = some out) :
    ∃ a b, s = a ++ b ∧ (utf8 a).length = n ∧ out = a ++ text ++ b := by
  rcases Option.map_eq_some_iff.1 h with ⟨⟨a, b⟩, hsplit, rfl⟩
  rcases splitBytes_eq_some hsplit with ⟨hs, hn⟩
  exact ⟨a, b, hs, hn, rfl⟩

/-! ## The place of an inserted text -/

section Places

variable {α : Type}

theorem getElem?_append_add (a l : List α) (i : Nat) : (a ++ l)[a.length + i]? = l[i]? := by
  rw [List.getElem?_append_right (Nat.le_add_right _ _), Nat.add_sub_cancel_left]

/-- The end of the mark would stand inside of the run. -/
theorem length_le_of_marked {a b a' b' t u : List α} {q f : α} (hne : q ≠ f) {n : Nat}
    (hn : a'.length ≤ n)
    (h : a ++ (t ++ q :: (List.replicate n f ++ u)) ++ b =
      a' ++ (t ++ q :: (List.replicate n f ++ u)) ++ b') : a'.length ≤ a.length := by
  by_contra hlt
  obtain ⟨d, hd⟩ : ∃ d, a'.length = a.length + (d + 1) := ⟨a'.length - a.length - 1, by omega⟩
  have hleft :
      (a ++ (t ++ q :: (List.replicate n f ++ u)) ++ b)[a'.length + t.length]? = some f := by
    have hi : a'.length + t.length = a.length + (t.length + (d + 1)) := by omega
    simp only [List.append_assoc, List.cons_append]
    rw [hi, getElem?_append_add, getElem?_append_add, List.getElem?_cons_succ,
      List.getElem?_append_left (by rw [List.length_replicate]; omega), List.getElem?_replicate,
      if_pos (by omega)]
  have hright :
      (a' ++ (t ++ q :: (List.replicate n f ++ u)) ++ b')[a'.length + t.length]? = some q := by
    simp only [List.append_assoc, List.cons_append]
    rw [getElem?_append_add, ← Nat.add_zero t.length, getElem?_append_add, List.getElem?_cons_zero]
  rw [h, hright] at hleft
  exact hne (Option.some.inj hleft)

/-- A text with a mark before a long run has one place only. -/
theorem eq_of_marked {a b a' b' t u : List α} {q f : α} (hne : q ≠ f) {n : Nat}
    (hn : a.length ≤ n) (hn' : a'.length ≤ n)
    (h : a ++ (t ++ q :: (List.replicate n f ++ u)) ++ b =
      a' ++ (t ++ q :: (List.replicate n f ++ u)) ++ b') : a = a' ∧ b = b' := by
  have hlen : a.length = a'.length :=
    Nat.le_antisymm (length_le_of_marked hne hn h.symm) (length_le_of_marked hne hn' h)
  rw [List.append_assoc a, List.append_assoc a'] at h
  rcases List.append_inj h hlen with ⟨ha, hrest⟩
  exact ⟨ha, List.append_cancel_left hrest⟩

theorem length_le_of_insert {a b a' b' w : List α} {q : α} (hw : q ∉ w) (hno : ¬ q :: w <:+: a')
    (h : a ++ q :: w ++ b = a' ++ q :: w ++ b') : a'.length ≤ a.length := by
  by_contra hlt
  by_cases hin : (a ++ q :: w).length ≤ a'.length
  · -- the whole text stands in what precedes the other place
    have hpre : a ++ q :: w <+: a' :=
      List.prefix_of_prefix_length_le ⟨b, h⟩ ⟨q :: w ++ b', (List.append_assoc _ _ _).symm⟩ hin
    rcases hpre with ⟨r, hr⟩
    exact hno ⟨a, r, hr⟩
  · -- its first character would stand inside of it
    obtain ⟨d, hd⟩ : ∃ d, a'.length = a.length + (d + 1) := ⟨a'.length - a.length - 1, by omega⟩
    have hdw : d < w.length := by
      simp only [List.length_append, List.length_cons] at hin
      omega
    have hright : (a' ++ q :: w ++ b')[a'.length]? = some q := by
      rw [List.append_assoc, ← Nat.add_zero a'.length, getElem?_append_add]
      rfl
    have hleft : (a ++ q :: w ++ b)[a'.length]? = some w[d] := by
      rw [List.append_assoc, hd, getElem?_append_add, List.cons_append, List.getElem?_cons_succ,
        List.getElem?_append_left hdw, List.getElem?_eq_getElem hdw]
    rw [h, hright] at hleft
    exact hw (Option.some.inj hleft ▸ List.getElem_mem hdw)

/-- A text that begins with a character it does not repeat, put where it did not occur,
has one place only. -/
theorem eq_of_insert {a b a' b' w : List α} {q : α} (hw : q ∉ w) (hno : ¬ q :: w <:+: a)
    (hno' : ¬ q :: w <:+: a') (h : a ++ q :: w ++ b = a' ++ q :: w ++ b') : a = a' ∧ b = b' := by
  have hlen : a.length = a'.length :=
    Nat.le_antisymm (length_le_of_insert hw hno h.symm) (length_le_of_insert hw hno' h)
  rw [List.append_assoc a, List.append_assoc a'] at h
  rcases List.append_inj h hlen with ⟨ha, hrest⟩
  exact ⟨ha, List.append_cancel_left hrest⟩

end Places

end HomeTier.Lib
