import HomeTier.Lib.Text

/-! # HTTP headers

A header map keeps the headers of a message in the order they arrived, with
lower-case names; `get` is the first value of a name. A value is a byte
string, and only visible ASCII values are readable as text (`toStr`).
-/

namespace HomeTier.Lib

/-- Header names in lower case, with their values. -/
abbrev HeaderMap := List (Str × Bytes)

namespace HeaderMap

/-- The first value of a header. -/
def get (h : HeaderMap) (name : Str) : Option Bytes :=
  (h.find? fun e => e.1 = name).map fun e => e.2

theorem get_append (h h' : HeaderMap) (name : Str) :
    get (h ++ h') name = (h.get name).or (h'.get name) := by
  cases hf : h.find? fun e => e.1 = name with
  | none => simp [get, List.find?_append, hf]
  | some e => simp [get, List.find?_append, hf]

end HeaderMap

/-- A byte that `HeaderValue::to_str` accepts: visible ASCII or a tab. -/
def isVisible (b : UInt8) : Bool := (32 ≤ b && b < 127) || b == 9

/-- `HeaderValue::to_str` -/
def toStr (v : Bytes) : Option Str :=
  if v.all isVisible then some (v.map fun b => Char.ofNat b.toNat) else none

/-- The text of a header, `none` when it is absent or not visible ASCII. -/
def HeaderMap.getStr (h : HeaderMap) (name : Str) : Option Str :=
  (h.get name).bind toStr

/-- A header value made of characters. -/
def headerBytes (s : Str) : Bytes := s.map fun c => UInt8.ofNat c.toNat

/-- Every character of `s` may stand in a readable header value. -/
def Visible (s : Str) : Prop := ∀ c ∈ s, (32 ≤ c.toNat ∧ c.toNat < 127) ∨ c.toNat = 9

instance (s : Str) : Decidable (Visible s) := List.decidableBAll _ s

theorem isVisible_ofNat {n : Nat} (h : (32 ≤ n ∧ n < 127) ∨ n = 9) :
    isVisible (UInt8.ofNat n) = true ∧ (UInt8.ofNat n).toNat = n := by
  have hlt : n < 256 := by omega
  have htoNat : (UInt8.ofNat n).toNat = n := by
    rw [UInt8.toNat_ofNat']
    omega
  refine ⟨?_, htoNat⟩
  rcases h with ⟨h₁, h₂⟩ | rfl
  · simp [isVisible, UInt8.le_iff_toNat_le, UInt8.lt_iff_toNat_lt, htoNat, h₁, h₂]
  · decide

/-- A visible text is read back from its header value. -/
theorem toStr_headerBytes {s : Str} (h : Visible s) : toStr (headerBytes s) = some s := by
  have hall : (headerBytes s).all isVisible = true := by
    simp only [headerBytes, List.all_map, List.all_eq_true, Function.comp]
    intro c hc
    exact (isVisible_ofNat (h c hc)).1
  have hmap : (headerBytes s).map (fun b => Char.ofNat b.toNat) = s := by
    rw [headerBytes, List.map_map]
    conv_rhs => rw [← List.map_id s]
    refine List.map_congr_left fun c hc => ?_
    simp only [Function.comp, (isVisible_ofNat (h c hc)).2, Char.ofNat_toNat, id]
  rw [toStr, if_pos hall, hmap]

/-- A value that is read as text is written back as it was. -/
theorem headerBytes_of_toStr {v : Bytes} {s : Str} (h : toStr v = some s) : headerBytes s = v := by
  unfold toStr at h
  split at h
  · rw [← Option.some.inj h, headerBytes, List.map_map]
    conv_rhs => rw [← List.map_id v]
    refine List.map_congr_left fun b _ => ?_
    have hvalid : b.toNat.isValidChar := Or.inl (b.toNat_lt.trans (by decide))
    have hchar : (Char.ofNat b.toNat).toNat = b.toNat := by
      rw [Char.ofNat, dif_pos hvalid]
      rfl
    simp only [Function.comp, id, hchar, UInt8.ofNat_toNat]
  · cases h

/-! ## The `Cookie` header -/

/-- Cookie pairs joined by `; `. -/
def cookieLine : List Str → Str
  | [] => []
  | p :: ps => p ++ ps.flatMap fun q => "; ".toList ++ q

/-- The pieces of a cookie line between its semicolons. -/
theorem splitOn_cookieLine {p : Str} {ps : List Str} (h : ∀ q ∈ p :: ps, ';' ∉ q) :
    (cookieLine (p :: ps)).splitOn ';' = p :: ps.map fun q => ' ' :: q := by
  have hline : ∀ (p : Str) (ps : List Str), p ++ ps.flatMap (fun q => "; ".toList ++ q) =
      [';'].intercalate (p :: ps.map fun q => ' ' :: q) := by
    intro p ps
    induction ps generalizing p with
    | nil => simp [List.intercalate]
    | cons q ps ih =>
      have hq := ih (' ' :: q)
      simp only [List.intercalate, List.map_cons, List.flatMap_cons] at hq ⊢
      simp [← hq]
  rw [cookieLine, hline, List.splitOn_intercalate]
  · intro q hq
    simp only [List.mem_cons, List.mem_map] at hq
    rcases hq with rfl | ⟨q, hq, rfl⟩
    · exact h q (by simp)
    · simpa using h q (by simp [hq])
  · simp

/-- `name=value` -/
def pairText (p : Str × Str) : Str := p.1 ++ '=' :: p.2

/-- One piece of a cookie line, read as a pair. -/
def readPair (part : Str) : Option (Str × Str) :=
  match cutAt '=' part with
  | (name, some value) => some (trim name, trim value)
  | (_, none) => none

/-- The pairs of a cookie line. -/
def cookiePairs (line : Str) : List (Str × Str) := (line.splitOn ';').filterMap readPair

/-- A pair as it is read from a line. -/
structure Tidy (p : Str × Str) : Prop where
  name_noSemicolon : ';' ∉ p.1
  value_noSemicolon : ';' ∉ p.2
  name_noEquals : '=' ∉ p.1
  name_trimmed : trim p.1 = p.1
  value_trimmed : trim p.2 = p.2

theorem readPair_tidy {part : Str} {p : Str × Str} (hpart : ';' ∉ part)
    (h : readPair part = some p) : Tidy p := by
  have hjoin := cutAt_join '=' part
  have hname := notMem_cutAt '=' part
  unfold readPair at h
  rcases hcut : cutAt '=' part with ⟨name, - | value⟩
  · simp [hcut] at h
  · simp only [hcut, Option.some.injEq] at h hjoin hname
    subst h
    have hno : ';' ∉ name ∧ ';' ∉ value := by
      rw [← hjoin] at hpart
      simpa [withDelimiter] using hpart
    constructor
    · exact fun hmem => hno.1 (mem_of_mem_trim hmem)
    · exact fun hmem => hno.2 (mem_of_mem_trim hmem)
    · exact fun hmem => hname (mem_of_mem_trim hmem)
    · exact trim_trim name
    · exact trim_trim value

theorem tidy_of_mem_cookiePairs {line : Str} {p : Str × Str} (h : p ∈ cookiePairs line) :
    Tidy p := by
  rcases List.mem_filterMap.1 h with ⟨part, hpart, hread⟩
  exact readPair_tidy (notMem_of_mem_splitOn hpart) hread

theorem readPair_pairText {p : Str × Str} (h : Tidy p) : readPair (pairText p) = some p := by
  rw [readPair, pairText, cutAt_append h.name_noEquals]
  simp only [h.name_trimmed, h.value_trimmed]

theorem readPair_space {p : Str × Str} (h : Tidy p) : readPair (' ' :: pairText p) = some p := by
  have hno : '=' ∉ ' ' :: p.1 := by simpa using h.name_noEquals
  rw [readPair, pairText, ← List.cons_append, cutAt_append hno]
  simp only [trim_space_cons, h.name_trimmed, h.value_trimmed]

/-- A line of tidy pairs is read back. -/
theorem cookiePairs_cookieLine {ps : List (Str × Str)} (h : ∀ p ∈ ps, Tidy p) :
    cookiePairs (cookieLine (ps.map pairText)) = ps := by
  cases ps with
  | nil => rfl
  | cons p ps =>
    have hno : ∀ q ∈ (p :: ps).map pairText, ';' ∉ q := by
      intro q hq
      rcases List.mem_map.1 hq with ⟨r, hr, rfl⟩
      have hr := h r hr
      simp [pairText, hr.name_noSemicolon, hr.value_noSemicolon]
    rw [cookiePairs, List.map_cons, splitOn_cookieLine hno, List.filterMap_cons,
      readPair_pairText (h p List.mem_cons_self), List.map_map, List.filterMap_map]
    have hrest : ps.filterMap (readPair ∘ (fun q => ' ' :: q) ∘ pairText) = ps.filterMap some := by
      refine List.filterMap_congr ?_
      intro q hq
      exact readPair_space (h q (List.mem_cons_of_mem p hq))
    rw [hrest, List.filterMap_some]

theorem mem_cookieLine {c : Char} {ps : List Str} (h : c ∈ cookieLine ps) :
    c ∈ "; ".toList ∨ ∃ p ∈ ps, c ∈ p := by
  cases ps with
  | nil => exact absurd h List.not_mem_nil
  | cons p ps =>
    simp only [cookieLine, List.mem_append, List.mem_flatMap] at h
    rcases h with h | ⟨q, hq, h | h⟩
    · exact Or.inr ⟨p, List.mem_cons_self, h⟩
    · exact Or.inl h
    · exact Or.inr ⟨q, List.mem_cons_of_mem p hq, h⟩

theorem visible_cookieLine {ps : List Str} (h : ∀ p ∈ ps, Visible p) :
    Visible (cookieLine ps) := by
  have hsep : Visible "; ".toList := by decide
  intro c hc
  rcases mem_cookieLine hc with hc | ⟨p, hp, hc⟩
  · exact hsep c hc
  · exact h p hp c hc

end HomeTier.Lib
