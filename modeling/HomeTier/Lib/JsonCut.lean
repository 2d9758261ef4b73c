import HomeTier.Lib.JsonText
import HomeTier.Lib.Utf8

/-! # Parts of JSON texts

What is read does not depend on what stands behind it, apart from a number,
which goes on as long as its characters do. So no text of an object or of an
array is left when its end is cut off (`parse_cut`), also as bytes
(`fromSlice_cut`). The text of a value is in the texts of those that it is
part of (`infix_arr`, `infix_printStruct`).
-/

namespace HomeTier.Lib

namespace Json

/-- A short escape; the letter `u` has none. -/
theorem readString_short {e c : Char} (h : unescape e = some c) (s : Str) :
    readString ('\\' :: e :: s) = (readString s).map fun p => (c :: p.1, p.2) := by
  have hslash : ('\\' : Char) ≠ '"' := by decide
  rw [readString.eq_def]
  simp only [if_neg hslash, if_true]
  split
  · rename_i heq
    obtain ⟨rfl, rfl⟩ := List.cons.inj heq
    have hu : unescape 'u' = none := rfl
    rw [hu] at h
    cases h
  · rename_i heq
    obtain ⟨rfl, rfl⟩ := List.cons.inj heq
    rw [h]
    cases readString s <;> rfl
  · rename_i heq
    cases heq

theorem readString_append {s t r : Str} (h : readString s = some (t, r)) (q : Str) :
    readString (s ++ q) = some (t, r ++ q) := by
  induction s using readString.induct generalizing t with
  | case1 => cases h
  | case2 s =>
    rw [readString.eq_def] at h ⊢
    simp only [List.cons_append, if_true] at h ⊢
    cases h
    rfl
  | case3 h₃ h₂ h₁ h₀ s hquote ih =>
    rw [readString, if_neg hquote, if_pos rfl] at h
    rcases Option.bind_eq_some_iff.1 h with ⟨c, hc, h⟩
    rcases Option.bind_eq_some_iff.1 h with ⟨⟨t', rest⟩, ht, h⟩
    cases h
    simp only [List.cons_append, readString, if_neg hquote, if_true, hc, ih ht,
      Option.bind_eq_bind, Option.bind_some]
    rfl
  | case4 e s hlong hquote ih =>
    cases he : unescape e with
    | none =>
      -- neither four digits nor a short escape
      rw [readString.eq_def] at h
      simp only [if_neg hquote, if_true, he] at h
      cases h
    | some c =>
      rw [readString_short he] at h
      rw [List.cons_append, List.cons_append, readString_short he]
      rcases Option.map_eq_some_iff.1 h with ⟨⟨t', rest⟩, ht, heq⟩
      cases heq
      rw [ih ht]
      rfl
  | case5 hquote =>
    rw [readString, if_neg hquote, if_pos rfl] at h
    cases h
  | case6 c s hquote hslash hcontrol =>
    rw [readString.eq_def] at h
    simp only [if_neg hquote, if_neg hslash, if_pos hcontrol] at h
    cases h
  | case7 c s hquote hslash hcontrol ih =>
    rw [readString.eq_def] at h ⊢
    simp only [List.cons_append, if_neg hquote, if_neg hslash, if_neg hcontrol] at h ⊢
    rcases Option.bind_eq_some_iff.1 h with ⟨⟨t', rest⟩, ht, h⟩
    cases h
    rw [ih ht]
    rfl

theorem skipBlanks_append {s r : Str} {c : Char} (h : skipBlanks s = c :: r) (q : Str) :
    skipBlanks (s ++ q) = c :: (r ++ q) := by
  induction s with
  | nil => cases h
  | cons d s ih =>
    by_cases hd : isBlank d = true
    · rw [skipBlanks, List.dropWhile_cons_of_pos hd] at h
      rw [List.cons_append, skipBlanks, List.dropWhile_cons_of_pos hd]
      exact ih h
    · rw [Bool.not_eq_true] at hd
      rw [skipBlanks_cons hd] at h
      rw [List.cons_append, skipBlanks_cons hd]
      obtain ⟨rfl, rfl⟩ := List.cons.inj h
      rfl

section Items

variable {α : Type} {item : Str → Option (α × Str)} {close : Char}

/-- An item is read the same before a longer text, if something follows it. -/
def Stable (item : Str → Option (α × Str)) : Prop :=
  ∀ s x r, item s = some (x, r) → r ≠ [] → ∀ q, item (s ++ q) = some (x, r ++ q)

theorem readItems_ne_nil {fuel : Nat} {s r : Str} {xs : List α}
    (h : readItems item close fuel s = some (xs, r)) : s ≠ [] := by
  rintro rfl
  cases fuel with
  | zero => cases h
  | succ fuel => cases h

theorem readItems_append (hitem : Stable item) {fuel : Nat} {s r : Str} {xs : List α}
    (h : readItems item close fuel s = some (xs, r)) {fuel' : Nat} (hfuel : fuel ≤ fuel')
    (q : Str) : readItems item close fuel' (s ++ q) = some (xs, r ++ q) := by
  induction fuel generalizing s xs fuel' with
  | zero => cases h
  | succ fuel ih =>
    obtain ⟨fuel', rfl⟩ : ∃ n, fuel' = n + 1 := ⟨fuel' - 1, by omega⟩
    rw [readItems] at h ⊢
    split at h
    · cases h
    · rename_i c rest hskip
      rw [skipBlanks_append hskip]
      dsimp only
      split at h
      · rename_i hclose
        cases h
        rw [if_pos hclose]
      · rename_i hclose
        rw [if_neg hclose]
        split at h
        · rename_i hcomma
          rw [if_pos hcomma]
          rcases Option.bind_eq_some_iff.1 h with ⟨⟨x, rest₁⟩, hx, h⟩
          rcases Option.bind_eq_some_iff.1 h with ⟨⟨xs', rest₂⟩, hxs, h⟩
          cases h
          rw [hitem _ _ _ hx (readItems_ne_nil hxs) q, Option.bind_eq_bind, Option.bind_some]
          dsimp only
          rw [ih hxs (by omega)]
          rfl
        · cases h

theorem readGroup_append (hitem : Stable item) {s r : Str} {xs : List α}
    (h : readGroup item close s = some (xs, r)) (q : Str) :
    readGroup item close (s ++ q) = some (xs, r ++ q) := by
  rw [readGroup] at h ⊢
  split at h
  · cases h
  · rename_i c rest hskip
    rw [skipBlanks_append hskip]
    dsimp only
    split at h
    · rename_i hclose
      cases h
      rw [if_pos hclose]
    · rename_i hclose
      rw [if_neg hclose]
      rcases Option.bind_eq_some_iff.1 h with ⟨⟨x, rest₁⟩, hx, h⟩
      rcases Option.bind_eq_some_iff.1 h with ⟨⟨xs', rest₂⟩, hxs, h⟩
      cases h
      have hx' := hitem _ _ _ hx (readItems_ne_nil hxs) q
      rw [List.cons_append] at hx'
      rw [hx', Option.bind_eq_bind, Option.bind_some]
      dsimp only
      rw [readItems_append hitem hxs (by rw [List.length_append]; exact Nat.le_add_right _ _)]
      rfl

end Items

theorem readEntry_append {value : Str → Option (Json × Str)} (hvalue : Stable value) :
    Stable (readEntry value) := by
  intro s e r h hr q
  rw [readEntry] at h ⊢
  split at h
  · rename_i rest hskip
    rw [skipBlanks_append hskip]
    dsimp only
    rcases Option.bind_eq_some_iff.1 h with ⟨⟨key, rest₁⟩, hkey, h⟩
    simp only [readString_append hkey, Option.bind_eq_bind, Option.bind_some]
    dsimp only at h
    split at h
    · rename_i rest₂ hcolon
      rw [skipBlanks_append hcolon]
      rcases Option.bind_eq_some_iff.1 h with ⟨⟨v, rest₃⟩, hv, h⟩
      cases h
      simp only [hvalue _ _ _ hv hr, Option.bind_some]
      rfl
    · cases h
  · cases h

theorem takeWhile_append_of_ne_nil {p : Char → Bool} {s : Str} (h : s.dropWhile p ≠ []) (q : Str) :
    (s ++ q).takeWhile p = s.takeWhile p ∧ (s ++ q).dropWhile p = s.dropWhile p ++ q := by
  induction s with
  | nil => exact absurd rfl h
  | cons c s ih =>
    by_cases hc : p c = true
    · rw [List.dropWhile_cons_of_pos hc] at h
      rcases ih h with ⟨htake, hdrop⟩
      rw [List.cons_append, List.takeWhile_cons_of_pos hc, List.dropWhile_cons_of_pos hc,
        List.takeWhile_cons_of_pos hc, List.dropWhile_cons_of_pos hc, htake, hdrop]
      exact ⟨rfl, rfl⟩
    · rw [List.cons_append, List.takeWhile_cons_of_neg hc, List.dropWhile_cons_of_neg hc,
        List.takeWhile_cons_of_neg hc, List.dropWhile_cons_of_neg hc]
      exact ⟨rfl, rfl⟩

theorem readAtom_numeric {c : Char} (h : isNumberChar c = true) (s : Str) :
    readAtom (c :: s) = (readNumber ((c :: s).takeWhile isNumberChar)).map
      fun v => (v, (c :: s).dropWhile isNumberChar) := by
  have hletters : ∀ l ∈ ['n', 't', 'f', '"'], isNumberChar l = false :=
    forall_mem_of_all (by decide)
  have hne : ∀ l ∈ ['n', 't', 'f', '"'], c ≠ l := by
    rintro l hl rfl
    rw [hletters c hl] at h
    cases h
  unfold readAtom
  split
  · rename_i heq
    exact absurd (List.cons.inj heq).1 (hne _ (by simp))
  · rename_i heq
    exact absurd (List.cons.inj heq).1 (hne _ (by simp))
  · rename_i heq
    exact absurd (List.cons.inj heq).1 (hne _ (by simp))
  · rename_i heq
    exact absurd (List.cons.inj heq).1 (hne _ (by simp))
  · rfl

/-- A number ends in front of what follows it. -/
theorem readAtom_append : Stable readAtom := by
  intro s v r h hr q
  by_cases hnumber : ∃ c s', s = c :: s' ∧ isNumberChar c = true
  · rcases hnumber with ⟨c, s', rfl, hc⟩
    rw [readAtom_numeric hc] at h
    rcases Option.map_eq_some_iff.1 h with ⟨v', hv, heq⟩
    cases heq
    rcases takeWhile_append_of_ne_nil hr q with ⟨htake, hdrop⟩
    rw [List.cons_append, readAtom_numeric hc, ← List.cons_append, htake, hdrop, hv]
    rfl
  · unfold readAtom at h
    split at h
    · cases h
      rfl
    · cases h
      rfl
    · cases h
      rfl
    · rename_i rest
      rcases Option.map_eq_some_iff.1 h with ⟨⟨t, rest'⟩, ht, heq⟩
      cases heq
      show (readString (rest ++ q)).map _ = _
      rw [readString_append ht]
      rfl
    · -- no character of a number comes first
      have hnil : s.takeWhile isNumberChar = [] := by
        cases s with
        | nil => rfl
        | cons c s' =>
          have hc : ¬ isNumberChar c = true := fun hc => hnumber ⟨c, s', rfl, hc⟩
          exact List.takeWhile_cons_of_neg hc
      rw [hnil] at h
      cases h

theorem skipBlanks_ne_nil {s r : Str} {v : Json} (h : readAtom (skipBlanks s) = some (v, r)) :
    ∃ c t, skipBlanks s = c :: t := by
  cases hs : skipBlanks s with
  | nil =>
    rw [hs] at h
    cases h
  | cons c t => exact ⟨c, t, rfl⟩

/-- A text that begins an array or an object is read the same before a longer one. -/
theorem parseValue_group {d : Nat} (ih : Stable (parseValue d)) {s t r : Str} {c : Char} {v : Json}
    (hskip : skipBlanks s = c :: t) (hc : c = '[' ∨ c = '\x7b')
    (h : parseValue (d + 1) s = some (v, r)) (q : Str) :
    parseValue (d + 1) (s ++ q) = some (v, r ++ q) := by
  rw [parseValue, hskip] at h
  rw [parseValue, skipBlanks_append hskip]
  rcases hc with rfl | rfl
  · rcases Option.map_eq_some_iff.1 h with ⟨⟨xs, r'⟩, hgroup, heq⟩
    cases heq
    simp only [readGroup_append ih hgroup, Option.map_some]
  · rcases Option.map_eq_some_iff.1 h with ⟨⟨xs, r'⟩, hgroup, heq⟩
    cases heq
    simp only [readGroup_append (readEntry_append ih) hgroup, Option.map_some]

theorem parseValue_of_atom {d : Nat} {s t : Str} {c : Char} (hskip : skipBlanks s = c :: t)
    (hc : ¬ (c = '[' ∨ c = '\x7b')) : parseValue (d + 1) s = readAtom (c :: t) := by
  rw [parseValue, hskip]
  split
  · rename_i heq
    exact absurd (.inl (List.cons.inj heq).1) hc
  · rename_i heq
    exact absurd (.inr (List.cons.inj heq).1) hc
  · rfl

theorem parseValue_stable (d : Nat) : Stable (parseValue d) := by
  induction d with
  | zero =>
    intro s v r h hr q
    rw [parseValue] at h ⊢
    rcases skipBlanks_ne_nil h with ⟨c, t, hskip⟩
    rw [skipBlanks_append hskip, ← List.cons_append]
    rw [hskip] at h
    exact readAtom_append _ _ _ h hr q
  | succ d ih =>
    intro s v r h hr q
    cases hskip : skipBlanks s with
    | nil =>
      rw [parseValue, hskip] at h
      cases h
    | cons c t =>
      by_cases hc : c = '[' ∨ c = '\x7b'
      · exact parseValue_group ih hskip hc h q
      · rw [parseValue_of_atom hskip hc] at h
        rw [parseValue_of_atom (skipBlanks_append hskip q) hc, ← List.cons_append]
        exact readAtom_append _ _ _ h hr q

/-- Without its end a text of an array or an object is not read. -/
theorem parse_cut {s t rest : Str} {c : Char} {v : Json} (ht : parse t = some v)
    (htrim : trim t = t) (hhead : t = c :: rest) (hc : c = '[' ∨ c = '\x7b') (hs : s <+: t)
    (hne : s ≠ t) : parse s = none := by
  have hblank : isWhitespace c = false := by rcases hc with rfl | rfl <;> decide
  by_contra hsome
  rcases Option.ne_none_iff_exists'.1 hsome with ⟨v', hv'⟩
  have hnil : s ≠ [] := by
    rintro rfl
    cases hv'
  -- what is read of `s` is a beginning of `t` that starts with `c`
  have hpre : trim s <+: t := by
    subst hhead
    cases s with
    | nil => exact absurd rfl hnil
    | cons c' s' =>
      obtain rfl : c' = c := (List.cons_prefix_cons.1 hs).1
      rw [trim, List.dropWhile_cons_of_neg (by rw [hblank]; exact Bool.false_ne_true)]
      exact (List.rdropWhile_prefix _ _).trans hs
  have hstart : ∃ r, trim s = c :: r := by
    subst hhead
    cases hts : trim s with
    | nil =>
      rw [parse, hts] at hv'
      cases hv'
    | cons c' r =>
      rw [hts] at hpre
      exact ⟨r, by rw [(List.cons_prefix_cons.1 hpre).1]⟩
  rcases hstart with ⟨r, hr⟩
  rcases hpre with ⟨q, hq⟩
  have hread : parseValue nestingLimit (trim s) = some (v', []) := by
    unfold parse at hv'
    split at hv'
    · rename_i heq
      cases hv'
      exact heq
    · cases hv'
  have hall : parseValue nestingLimit t = some (v, []) := by
    unfold parse at ht
    rw [htrim] at ht
    split at ht
    · rename_i heq
      cases ht
      exact heq
    · cases ht
  have hjsonBlank : isBlank c = false := isBlank_of_not_whitespace hblank
  have hlong := parseValue_group (d := 126) (parseValue_stable 126)
    (by rw [hr, skipBlanks_cons hjsonBlank]) hc hread q
  rw [hq] at hlong
  have hqnil : q = [] := (Prod.mk.inj (Option.some.inj (hlong.symm.trans hall))).2
  rw [hqnil, List.append_nil] at hq
  have hshorter : (trim s).length ≤ s.length :=
    ((List.rdropWhile_prefix _ _).sublist.trans (List.dropWhile_sublist _)).length_le
  exact hne (hs.eq_of_length_le (hq ▸ hshorter))

/-- `serde_json::from_slice` -/
def fromSlice (b : Bytes) : Option Json := (fromUtf8 b).bind parse

theorem fromSlice_utf8 (s : Str) : fromSlice (utf8 s) = parse s := by
  rw [fromSlice, fromUtf8_eq_some.2 rfl, Option.bind_some]

end Json

theorem fromUtf8Lossy_append (s : Str) (b : Bytes) :
    fromUtf8Lossy (utf8 s ++ b) = s ++ fromUtf8Lossy b := by
  induction s with
  | nil => rfl
  | cons c s ih =>
    rw [utf8_cons, List.append_assoc, fromUtf8Lossy_encodeChar_append, ih, List.cons_append]

/-- A beginning of an encoding that is one itself is the encoding of a beginning. -/
theorem prefix_of_utf8 {s t : Str} (h : utf8 s <+: utf8 t) : s <+: t := by
  rcases h with ⟨b, hb⟩
  refine ⟨fromUtf8Lossy b, ?_⟩
  rw [← fromUtf8Lossy_append, hb, fromUtf8Lossy_utf8]

namespace Json

/-- Without its end the encoding of such a text is not read. -/
theorem fromSlice_cut {b : Bytes} {t rest : Str} {c : Char} {v : Json} (ht : parse t = some v)
    (htrim : trim t = t) (hhead : t = c :: rest) (hc : c = '[' ∨ c = '\x7b') (hb : b <+: utf8 t)
    (hne : b ≠ utf8 t) : fromSlice b = none := by
  cases hs : fromUtf8 b with
  | none => rw [fromSlice, hs, Option.bind_none]
  | some s =>
    obtain rfl := fromUtf8_eq_some.1 hs
    rw [fromSlice_utf8]
    refine parse_cut ht htrim hhead hc (prefix_of_utf8 hb) ?_
    rintro rfl
    exact hne rfl

end Json

end HomeTier.Lib
