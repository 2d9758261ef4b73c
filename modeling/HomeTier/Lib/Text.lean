import Mathlib.Data.List.AList
import Mathlib.Data.List.DropRight

/-! # Text, byte strings and maps

A string of the program is a list of characters and a byte string a list of
bytes. The program only cuts its strings where it has found a character or a
pattern, so positions never depend on the width of a character's encoding.
A `HashMap` is an association list with distinct keys.
-/

namespace HomeTier.Lib

/-- A string, as its list of characters. -/
abbrev Str := List Char

instance : LawfulBEq Str := inferInstance

/-- A byte string. -/
abbrev Bytes := List UInt8

/-- A finite map with distinct keys. -/
abbrev Map (κ ν : Type) := AList fun _ : κ => ν

/-- The value of a key. -/
def Map.get {κ ν : Type} [DecidableEq κ] (m : Map κ ν) (k : κ) : Option ν := AList.lookup k m

@[simp] theorem Map.get_insert_self {κ ν : Type} [DecidableEq κ] (m : Map κ ν) (k : κ) (v : ν) :
    Map.get (AList.insert k v m) k = some v :=
  AList.lookup_insert m

/-- A property of every element, checked element by element. -/
theorem forall_mem_of_all {α : Type} {P : α → Prop} [DecidablePred P] {l : List α}
    (h : (l.all fun a => decide (P a)) = true) : ∀ a ∈ l, P a := by
  simpa using h

/-- `as_bytes`: the UTF-8 encoding. -/
def utf8 (s : Str) : Bytes := s.flatMap String.utf8EncodeChar

theorem utf8_injective : Function.Injective utf8 := by
  intro s t h
  have hb : (String.ofList s).toByteArray = (String.ofList t).toByteArray := by
    simp only [String.toByteArray_ofList, List.utf8Encode]
    exact congrArg List.toByteArray h
  exact String.ofList_injective (String.toByteArray_inj.1 hb)

/-- `str::from_utf8` -/
def fromUtf8 (b : Bytes) : Option Str := b.toByteArray.utf8Decode?.map Array.toList

/-- Exactly the encodings are read, each as the text it encodes. -/
theorem fromUtf8_eq_some {b : Bytes} {s : Str} : fromUtf8 b = some s ↔ utf8 s = b := by
  have hdecode : ∀ t : Str, fromUtf8 (utf8 t) = some t := by
    intro t
    have henc : (utf8 t).toByteArray = t.utf8Encode := rfl
    rw [fromUtf8, henc, List.utf8Decode?_utf8Encode]
    simp
  constructor
  · intro h
    rcases Option.map_eq_some_iff.1 h with ⟨chars, hchars, -⟩
    have hvalid : b.toByteArray.utf8Decode?.isSome = true := by simp [hchars]
    rcases ByteArray.isSome_utf8Decode?_iff.1 hvalid with ⟨t, ht⟩
    have hb : b = utf8 t := by
      have hdata := congrArg (fun a => a.data.toList) ht
      simpa [utf8, List.utf8Encode] using hdata
    rw [hb, hdecode] at h
    obtain rfl : t = s := Option.some.inj h
    exact hb.symm
  · rintro rfl
    exact hdecode s

/-- Nothing but the character itself has a lower case that is no letter. -/
theorem eq_of_toLower_eq {c d : Char} (h : c.toLower = d) (hd : d.toNat < 97) : c = d := by
  by_cases hupper : c.val ≥ 'A'.val ∧ c.val ≤ 'Z'.val
  · -- a capital becomes a letter
    exfalso
    have hlow : 65 ≤ c.val.toNat := UInt32.le_iff_toNat_le.1 hupper.1
    have hhigh : c.val.toNat ≤ 90 := UInt32.le_iff_toNat_le.1 hupper.2
    have hlower : c.toLower = _ := dif_pos hupper
    have hval : d.toNat = (c.val.toNat + 32) % 2 ^ 32 := by
      rw [← h, hlower]
      rfl
    omega
  · have hsame : c.toLower = c := dif_neg hupper
    exact hsame.symm.trans h

/-! ## Trimming -/

/-- The Unicode `White_Space` property, as `char::is_whitespace`. -/
def isWhitespace (c : Char) : Bool :=
  let n := c.toNat
  (9 ≤ n && n ≤ 13) || n == 0x20 || n == 0x85 || n == 0xA0 || n == 0x1680 ||
    (0x2000 ≤ n && n ≤ 0x200A) || n == 0x2028 || n == 0x2029 || n == 0x202F ||
    n == 0x205F || n == 0x3000

/-- `str::trim` -/
def trim (s : Str) : Str := (s.dropWhile isWhitespace).rdropWhile isWhitespace

@[simp] theorem trim_space_cons (s : Str) : trim (' ' :: s) = trim s := by
  have hspace : isWhitespace ' ' = true := by decide
  simp [trim, hspace]

/-- A text is trimmed if it has no white space at its ends. -/
theorem trim_of_ends {s : Str} (hhead : ∀ c ∈ s.head?, isWhitespace c = false)
    (hlast : ∀ c ∈ s.getLast?, isWhitespace c = false) : trim s = s := by
  have hdrop : s.dropWhile isWhitespace = s := by
    cases s with
    | nil => rfl
    | cons c s => simp [hhead c rfl]
  rw [trim, hdrop, List.rdropWhile_eq_self_iff]
  intro hne
  simp [hlast _ (List.getLast?_eq_some_getLast hne)]

/-- A text without white space is already trimmed. -/
theorem trim_eq_self {s : Str} (h : ∀ c ∈ s, isWhitespace c = false) : trim s = s := by
  apply trim_of_ends
  · intro c hc
    exact h c (List.mem_of_mem_head? hc)
  · intro c hc
    exact h c (List.mem_of_getLast? hc)

theorem mem_of_mem_trim {c : Char} {s : Str} (h : c ∈ trim s) : c ∈ s := by
  have hdrop : c ∈ s.dropWhile isWhitespace := (List.rdropWhile_prefix _ _).subset h
  exact (List.dropWhile_suffix _).subset hdrop

/-- A text whose ends are cut has nothing to cut at its ends. -/
theorem cutEnds_idempotent (p : Char → Bool) (s : Str) :
    (((s.dropWhile p).rdropWhile p).dropWhile p).rdropWhile p = (s.dropWhile p).rdropWhile p := by
  have hhead : ((s.dropWhile p).rdropWhile p).dropWhile p = (s.dropWhile p).rdropWhile p := by
    rw [List.dropWhile_eq_self_iff]
    intro hlen
    -- the first character is the one `dropWhile` stopped at
    have hpre : (s.dropWhile p).rdropWhile p <+: s.dropWhile p := List.rdropWhile_prefix _ _
    have hne : s.dropWhile p ≠ [] := by
      intro hnil
      simp [hnil] at hlen
    have hget : ((s.dropWhile p).rdropWhile p)[0] = (s.dropWhile p).head hne := by
      rw [List.head_eq_getElem, hpre.getElem hlen]
    have hstop := List.head_dropWhile_not p hne
    rw [← hget] at hstop
    simp [hstop]
  rw [hhead]
  exact List.rdropWhile_idempotent _ _

@[simp] theorem trim_trim (s : Str) : trim (trim s) = trim s := cutEnds_idempotent isWhitespace s

theorem dropWhile_append_cons {p : Char → Bool} {c : Char} (hc : p c = false) (a b : Str) :
    (a ++ c :: b).dropWhile p = a.dropWhile p ++ c :: b := by
  induction a with
  | nil => simp [hc]
  | cons x a ih =>
    cases hx : p x with
    | true => simpa [hx] using ih
    | false => simp [hx]

/-- Trimming cuts no word. -/
theorem infix_trim {word s : Str} (hne : word ≠ []) (hword : ∀ c ∈ word, isWhitespace c = false)
    (h : word <:+: s) : word <:+: trim s := by
  obtain ⟨front, back, rfl⟩ := h
  obtain ⟨c, rest, rfl⟩ := List.exists_cons_of_ne_nil hne
  have hdrop : (front ++ c :: rest ++ back).dropWhile isWhitespace =
      front.dropWhile isWhitespace ++ c :: rest ++ back := by
    rw [List.append_assoc, List.cons_append, dropWhile_append_cons (hword c List.mem_cons_self),
      List.append_assoc, List.cons_append]
  obtain ⟨init, last, hlast⟩ := List.eq_nil_or_concat (c :: rest) |>.resolve_left hne
  have hend : isWhitespace last = false := hword last (by simp [hlast])
  rw [trim, hdrop, hlast, List.rdropWhile, List.concat_eq_append]
  simp only [List.reverse_append, List.reverse_cons, List.nil_append, List.append_assoc,
    List.cons_append]
  rw [dropWhile_append_cons hend]
  refine ⟨front.dropWhile isWhitespace, (back.reverse.dropWhile isWhitespace).reverse, ?_⟩
  simp

theorem rdropWhile_append_cons {p : Char → Bool} {c : Char} (hc : p c = false) (a b : Str) :
    (a ++ c :: b).rdropWhile p = a ++ c :: b.rdropWhile p := by
  have hrev : (a ++ c :: b).reverse = b.reverse ++ c :: a.reverse := by simp
  rw [List.rdropWhile, List.rdropWhile, hrev, dropWhile_append_cons hc]
  simp

/-- A text is white space, or has a first character that is none. -/
theorem dropWhile_cases (s : Str) : s.dropWhile isWhitespace = [] ∨
    ∃ c r, isWhitespace c = false ∧ s.dropWhile isWhitespace = c :: r := by
  cases h : s.dropWhile isWhitespace with
  | nil => exact Or.inl rfl
  | cons c r =>
    refine Or.inr ⟨c, r, ?_, rfl⟩
    have hne : s.dropWhile isWhitespace ≠ [] := by simp [h]
    have hhead := List.head_dropWhile_not isWhitespace hne
    simpa [h] using hhead

theorem trim_append_cons {c : Char} (hc : isWhitespace c = false) (a b : Str) :
    trim (a ++ c :: b) = a.dropWhile isWhitespace ++ c :: b.rdropWhile isWhitespace := by
  rw [trim, dropWhile_append_cons hc, rdropWhile_append_cons hc]

theorem trim_dropWhile (s : Str) : trim (s.dropWhile isWhitespace) = trim s := by
  rw [trim, List.dropWhile_idempotent, trim]

theorem trim_rdropWhile (s : Str) : trim (s.rdropWhile isWhitespace) = trim s := by
  rcases dropWhile_cases s with hnil | ⟨c, r, hc, hcons⟩
  · have hall : ∀ a ∈ s, isWhitespace a = true := by simpa using hnil
    have hempty : s.rdropWhile isWhitespace = [] := by
      rw [List.rdropWhile_eq_nil_iff]
      exact hall
    have htrim : trim s = [] := by
      rw [trim, hnil]
      rfl
    rw [hempty, htrim]
    rfl
  · -- the first character that is no blank stays
    have hsplit : s = s.takeWhile isWhitespace ++ c :: r := by
      rw [← hcons, List.takeWhile_append_dropWhile]
    rw [hsplit, rdropWhile_append_cons hc, trim_append_cons hc, trim_append_cons hc,
      List.rdropWhile_idempotent]

theorem trim_head? (s : Str) : (trim s).head? = (s.dropWhile isWhitespace).head? := by
  rcases dropWhile_cases s with hnil | ⟨c, r, hc, hcons⟩
  · rw [trim, hnil]
    rfl
  · rw [trim, hcons]
    have h := rdropWhile_append_cons hc [] r
    rw [List.nil_append, List.nil_append] at h
    rw [h]
    rfl
/-- `trim_end_matches(c)` -/
def trimEndMatches (c : Char) (s : Str) : Str := s.rdropWhile (· = c)

/-- What `trim_end_matches(c)` cuts off consists of `c`. -/
theorem trimEndMatches_append (c : Char) (s : Str) :
    ∃ t, (∀ a ∈ t, a = c) ∧ s = trimEndMatches c s ++ t := by
  refine ⟨s.rtakeWhile (· = c), ?_, ?_⟩
  · intro a ha
    simpa using List.mem_rtakeWhile_imp ha
  · rw [trimEndMatches, List.rdropWhile, List.rtakeWhile, ← List.reverse_append,
      List.takeWhile_append_dropWhile, List.reverse_reverse]

/-- `trim_start_matches(c)` -/
def trimStartMatches (c : Char) (s : Str) : Str := s.dropWhile (· = c)

/-! ## Splitting -/

section Split

variable {α : Type} [DecidableEq α]

/-- The pieces of a list do not contain the separator. -/
theorem notMem_of_mem_splitOn {c : α} {l p : List α} (h : p ∈ l.splitOn c) : c ∉ p := by
  induction l generalizing p with
  | nil =>
    obtain rfl : p = [] := by simpa using h
    simp
  | cons a l ih =>
    rw [List.splitOn_cons_eq_if_modifyHead] at h
    by_cases ha : a = c
    · rcases (by simpa [ha] using h : p = [] ∨ p ∈ l.splitOn c) with rfl | hmem
      · simp
      · exact ih hmem
    · cases hsplit : l.splitOn c with
      | nil => simp [hsplit, ha] at h
      | cons q qs =>
        rw [hsplit] at ih
        rcases (by simpa [ha, hsplit] using h : p = a :: q ∨ p ∈ qs) with rfl | hmem
        · have hq : c ∉ q := ih List.mem_cons_self
          simp [Ne.symm ha, hq]
        · exact ih (List.mem_cons_of_mem q hmem)

/-- The pieces of a list stand in it. -/
theorem infix_of_mem_splitOn {c : α} {l p : List α} (h : p ∈ l.splitOn c) : p <:+: l := by
  rcases List.mem_iff_getElem?.1 h with ⟨i, hi⟩
  have hmem : p ∈ (l.splitOn c).intersperse [c] :=
    List.mem_iff_getElem?.2 ⟨2 * i, by rw [List.getElem?_intersperse_two_mul, hi]⟩
  have hjoin : [c].intercalate (l.splitOn c) = l := List.intercalate_splitOn c
  rw [← hjoin]
  exact List.infix_of_mem_flatten hmem

theorem mem_of_mem_splitOn {c x : α} {l p : List α} (h : p ∈ l.splitOn c) (hx : x ∈ p) :
    x ∈ l :=
  (infix_of_mem_splitOn h).subset hx

end Split

/-- The text before the first `c`, and what follows it when there is one. -/
def cutAt (c : Char) (s : Str) : Str × Option Str :=
  (s.takeWhile (· ≠ c), (s.dropWhile (· ≠ c)).tail?)

/-- A part that follows its delimiter when it is present. -/
def withDelimiter (d : Char) : Option Str → Str
  | none => []
  | some s => d :: s

/-- `split_once(sep)`: around the first occurrence of `sep`. -/
def splitOnce (sep : Str) : Str → Option (Str × Str)
  | [] => if sep = [] then some ([], []) else none
  | c :: s =>
    match (c :: s).dropPrefix? sep with
    | some rest => some ([], rest)
    | none => (splitOnce sep s).map fun r => (c :: r.1, r.2)

theorem takeWhile_ne_eq_self {c : Char} {s : Str} (h : c ∉ s) : s.takeWhile (· ≠ c) = s := by
  rw [List.takeWhile_eq_self_iff]
  intro a ha
  have hne : a ≠ c := by
    rintro rfl
    exact h ha
  simpa using hne

theorem cutAt_of_notMem {c : Char} {s : Str} (h : c ∉ s) : cutAt c s = (s, none) := by
  have hdrop : s.dropWhile (· ≠ c) = [] := by
    rw [List.dropWhile_eq_nil_iff]
    intro a ha
    have hne : a ≠ c := by
      rintro rfl
      exact h ha
    simpa using hne
  rw [cutAt, takeWhile_ne_eq_self h, hdrop]
  rfl

theorem cutAt_append {c : Char} {s : Str} (h : c ∉ s) (t : Str) :
    cutAt c (s ++ c :: t) = (s, some t) := by
  have hall : ∀ a ∈ s, decide (a ≠ c) = true := by
    intro a ha
    have hne : a ≠ c := by
      rintro rfl
      exact h ha
    simpa using hne
  rw [cutAt, List.takeWhile_append_of_pos hall, List.dropWhile_append_of_pos hall]
  simp

theorem cutAt_join (c : Char) (s : Str) :
    (cutAt c s).1 ++ withDelimiter c (cutAt c s).2 = s := by
  by_cases h : c ∈ s
  · rcases List.eq_append_cons_of_mem h with ⟨a, b, rfl, ha⟩
    rw [cutAt_append ha]
    rfl
  · rw [cutAt_of_notMem h]
    exact List.append_nil s

theorem notMem_cutAt (c : Char) (s : Str) : c ∉ (cutAt c s).1 := by
  intro h
  simpa using List.mem_takeWhile_imp h

/-- The text around the last `c`. -/
def cutAtLast (c : Char) (s : Str) : Option (Str × Str) :=
  match cutAt c s.reverse with
  | (after, some before) => some (before.reverse, after.reverse)
  | (_, none) => none

theorem cutAtLast_append {c : Char} {b : Str} (h : c ∉ b) (a : Str) :
    cutAtLast c (a ++ c :: b) = some (a, b) := by
  have hrev : (a ++ c :: b).reverse = b.reverse ++ c :: a.reverse := by simp
  rw [cutAtLast, hrev, cutAt_append (by simpa using h)]
  simp

theorem cutAtLast_join {c : Char} {s a b : Str} (h : cutAtLast c s = some (a, b)) :
    s = a ++ c :: b := by
  have hjoin := cutAt_join c s.reverse
  unfold cutAtLast at h
  split at h
  · rename_i after before hcut
    rw [hcut] at hjoin
    obtain ⟨rfl, rfl⟩ := Prod.mk.inj (Option.some.inj h)
    have hrev := congrArg List.reverse hjoin
    simpa [withDelimiter] using hrev.symm
  · cases h

/-- An element of a joined list is in the text. -/
theorem infix_intercalate {sep word : Str} {words : List Str} (h : word ∈ words) :
    word <:+: sep.intercalate words := by
  induction words with
  | nil => cases h
  | cons first words ih =>
    cases words with
    | nil =>
      obtain rfl := List.mem_singleton.1 h
      simp [List.intercalate]
    | cons second words =>
      have hjoin : sep.intercalate (first :: second :: words) =
          first ++ (sep ++ sep.intercalate (second :: words)) := by
        simp [List.intercalate, List.intersperse]
      rw [hjoin]
      rcases List.mem_cons.1 h with rfl | hmem
      · exact List.infix_append [] word _ 
      · exact ((ih hmem).trans (List.suffix_append sep _).isInfix).trans
          (List.suffix_append first _).isInfix

/-- What `split_once` cuts is the text. -/
theorem splitOnce_eq_some {sep s a b : Str} (h : splitOnce sep s = some (a, b)) :
    s = a ++ sep ++ b := by
  induction s generalizing a with
  | nil =>
    unfold splitOnce at h
    split at h
    · next hsep =>
      obtain ⟨rfl, rfl⟩ : a = [] ∧ b = [] := by simpa [eq_comm] using h
      simp [hsep]
    · simp at h
  | cons c s ih =>
    unfold splitOnce at h
    split at h
    · next rest hdrop =>
      obtain ⟨rfl, rfl⟩ : a = [] ∧ b = rest := by simpa [eq_comm] using h
      rw [List.dropPrefix?_eq_some_iff] at hdrop
      rcases hdrop with ⟨pre, heq, hpre⟩
      obtain rfl : pre = sep := by simpa using hpre
      simpa using heq
    · rcases Option.map_eq_some_iff.1 h with ⟨⟨a', b'⟩, hrec, heq⟩
      obtain ⟨rfl, rfl⟩ : a = c :: a' ∧ b = b' := by simpa [eq_comm] using heq
      rw [ih hrec]
      simp

/-- A separator whose first character does not occur before it is found there. -/
theorem splitOnce_append {c : Char} {sep s : Str} (h : c ∉ s) (t : Str) :
    splitOnce (c :: sep) (s ++ (c :: sep) ++ t) = some (s, t) := by
  induction s with
  | nil =>
    have hd : (c :: (sep ++ t)).dropPrefix? (c :: sep) = some t := by
      rw [List.dropPrefix?_eq_some_iff]
      exact ⟨c :: sep, by simp, by simp⟩
    simp only [List.nil_append, List.cons_append, splitOnce, hd]
  | cons a s ih =>
    rw [List.mem_cons, not_or] at h
    have hd : (a :: (s ++ (c :: sep) ++ t)).dropPrefix? (c :: sep) = none := by
      simp [List.dropPrefix?, Ne.symm h.1]
    simp only [List.cons_append, splitOnce, hd, ih h.2, Option.map_some]

end HomeTier.Lib
