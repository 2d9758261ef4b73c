import HomeTier.Lib.Codec
import HomeTier.Lib.Decimal
import HomeTier.Lib.Json

/-! # JSON texts

A parser and a printer of JSON, as `serde_json` has them: a text is written
without blanks and is read with blanks between its tokens, a key that comes
twice counts as the last, and nesting is limited. Printing a valid value gives
a text that is read back (`parse_print`), and what is read is valid
(`parse_valid`). So `JsonText.compact` is a `JsonText`.

Where it differs from `serde_json`: a float keeps the text it is written in,
so it is read back to the last digit, and an escaped surrogate is refused, also
in a pair.
-/

namespace HomeTier.Lib

namespace Json

/-! ## Strings -/

/-- A character inside a string. -/
def escapeChar (c : Char) : Str :=
  if c = '"' then ['\\', '"']
  else if c = '\\' then ['\\', '\\']
  else if c = '\n' then ['\\', 'n']
  else if c = '\r' then ['\\', 'r']
  else if c = '\t' then ['\\', 't']
  else if c = '\x08' then ['\\', 'b']
  else if c = '\x0c' then ['\\', 'f']
  else if c.toNat < 0x20 then
    ['\\', 'u', '0', '0', hexDigit (c.toNat / 16), hexDigit (c.toNat % 16)]
  else [c]

def quote (s : Str) : Str := '"' :: s.flatMap escapeChar ++ ['"']

/-- The character behind a backslash. -/
def unescape : Char → Option Char
  | '"' => some '"'
  | '\\' => some '\\'
  | '/' => some '/'
  | 'b' => some '\x08'
  | 'f' => some '\x0c'
  | 'n' => some '\n'
  | 'r' => some '\r'
  | 't' => some '\t'
  | _ => none

/-- The character of four hexadecimal digits. -/
def unescapeHex (h₃ h₂ h₁ h₀ : Char) : Option Char := do
  let d₃ ← hexValue h₃
  let d₂ ← hexValue h₂
  let d₁ ← hexValue h₁
  let d₀ ← hexValue h₀
  let n := ((d₃ * 16 + d₂) * 16 + d₁) * 16 + d₀
  if n < 0xD800 ∨ 0xDFFF < n then some (Char.ofNat n) else none

/-- A string up to its closing quote, and what follows it. -/
def readString : Str → Option (Str × Str)
  | [] => none
  | c :: s =>
    if c = '"' then some ([], s)
    else if c = '\\' then
      match s with
      | 'u' :: h₃ :: h₂ :: h₁ :: h₀ :: s => do
        let c ← unescapeHex h₃ h₂ h₁ h₀
        let (t, rest) ← readString s
        return (c :: t, rest)
      | e :: s => do
        let c ← unescape e
        let (t, rest) ← readString s
        return (c :: t, rest)
      | [] => none
    else if c.toNat < 0x20 then none
    else do
      let (t, rest) ← readString s
      return (c :: t, rest)

theorem unescapeHex_hexDigit :
    ∀ n < 32, unescapeHex '0' '0' (hexDigit (n / 16)) (hexDigit (n % 16)) =
      some (Char.ofNat n) := by
  decide

theorem readString_escapeChar (c : Char) (s : Str) :
    readString (escapeChar c ++ s) = (readString s).map fun p => (c :: p.1, p.2) := by
  have hbind : ∀ x : Option (Str × Str),
      (x >>= fun p => pure (c :: p.1, p.2)) = x.map fun p => (c :: p.1, p.2) := by
    intro x
    cases x <;> rfl
  rw [escapeChar]
  -- one case for each short escape, then the control characters and the rest
  split
  · subst c; exact hbind _
  split
  · subst c; exact hbind _
  split
  · subst c; exact hbind _
  split
  · subst c; exact hbind _
  split
  · subst c; exact hbind _
  split
  · subst c; exact hbind _
  split
  · subst c; exact hbind _
  split
  · rename_i hlt
    have hhex := unescapeHex_hexDigit c.toNat hlt
    rw [Char.ofNat_toNat] at hhex
    simp only [List.cons_append, List.nil_append, readString, hhex]
    exact hbind _
  · rename_i hquote hbackslash _ _ _ _ _ hctl
    rw [List.singleton_append, readString.eq_def]
    simp only [if_neg hquote, if_neg hbackslash, if_neg hctl]
    exact hbind _

/-- A string is read back from its escapes. -/
theorem readString_escape (s rest : Str) :
    readString (s.flatMap escapeChar ++ '"' :: rest) = some (s, rest) := by
  induction s with
  | nil =>
    rw [List.flatMap_nil, List.nil_append, readString.eq_def]
    rfl
  | cons c s ih => rw [List.flatMap_cons, List.append_assoc, readString_escapeChar, ih]; rfl

/-! ## Numbers -/

def readDigits : Str → Option Int
  | '-' :: digits => (parseDigits digits).map fun n => -Int.ofNat n
  | digits => (parseDigits digits).map Int.ofNat

/-- An integer; the decimal text of one is the only text read as it. -/
def readInt (t : Str) : Option Int := (readDigits t).filter (decimalInt · = t)

def readNumber (t : Str) : Option Json :=
  match readInt t with
  | none => if isFloatText t then some (float t) else none
  | some n => if -2 ^ 63 ≤ n ∧ n < 2 ^ 64 then some (int n) else some (float (t ++ ".0".toList))

theorem isNumberChar_of_isDigit {c : Char} (h : c.isDigit = true) : isNumberChar c = true := by
  simp [isNumberChar, h]

theorem isDigit_or_of_mem_decimalInt {n : Int} {c : Char} (h : c ∈ decimalInt n) :
    c.isDigit = true ∨ c = '-' := by
  cases n with
  | ofNat n => exact Or.inl (isDigit_of_mem_decimal h)
  | negSucc n =>
    rcases List.mem_cons.1 h with rfl | h
    · exact Or.inr rfl
    · exact Or.inl (isDigit_of_mem_decimal h)

theorem isNumberChar_of_mem_decimalInt {n : Int} {c : Char} (h : c ∈ decimalInt n) :
    isNumberChar c = true := by
  rcases isDigit_or_of_mem_decimalInt h with h | rfl
  · exact isNumberChar_of_isDigit h
  · decide

theorem decimalInt_ne_nil (n : Int) : decimalInt n ≠ [] := by
  cases n with
  | ofNat n => exact decimal_ne_nil n
  | negSucc n => exact List.cons_ne_nil _ _

theorem decimalInt_head (n : Int) :
    ∃ c, (decimalInt n).head? = some c ∧ (c.isDigit = true ∨ c = '-') := by
  cases hd : decimalInt n with
  | nil => exact absurd hd (decimalInt_ne_nil n)
  | cons c cs =>
    refine ⟨c, rfl, ?_⟩
    apply isDigit_or_of_mem_decimalInt (n := n)
    rw [hd]
    exact List.mem_cons_self

theorem readDigits_decimalInt (n : Int) : readDigits (decimalInt n) = some n := by
  cases n with
  | ofNat n =>
    show readDigits (decimal n) = _
    rw [readDigits.eq_def]
    split
    · -- a digit comes first, not a sign
      rename_i digits heq
      have hmem : '-' ∈ decimal n := by
        rw [heq]
        exact List.mem_cons_self
      exact absurd (isDigit_of_mem_decimal hmem) (by decide)
    · rw [parseDigits_decimal]
      rfl
  | negSucc n =>
    show (parseDigits (decimal (n + 1))).map (fun n => -Int.ofNat n) = _
    rw [parseDigits_decimal]
    rfl

/-- An integer is read back from its digits. -/
theorem readInt_decimalInt (n : Int) : readInt (decimalInt n) = some n := by
  rw [readInt, readDigits_decimalInt]
  simp

theorem decimalInt_of_readInt {t : Str} {n : Int} (h : readInt t = some n) :
    decimalInt n = t := by
  have := (Option.mem_filter_iff.1 h).2
  simpa using this

theorem isFloatText_iff {t : Str} :
    isFloatText t = true ↔ (∀ c ∈ t, isNumberChar c = true) ∧
      (∃ c ∈ t, c ∈ ['.', 'e', 'E']) ∧ ∃ c, t.head? = some c ∧ (c.isDigit = true ∨ c = '-') := by
  simp [isFloatText, Option.any_eq_true, and_assoc]

/-- A float is not the text of an integer. -/
theorem readInt_of_isFloatText {t : Str} (h : isFloatText t = true) : readInt t = none := by
  rcases isFloatText_iff.1 h with ⟨-, ⟨c, hc, hmark⟩, -⟩
  rw [Option.eq_none_iff_forall_not_mem]
  intro n hn
  rw [← decimalInt_of_readInt hn] at hc
  rcases isDigit_or_of_mem_decimalInt hc with hdigit | rfl
  · have hnot : ∀ c ∈ ['.', 'e', 'E'], c.isDigit = false := forall_mem_of_all (by decide)
    rw [hnot c hmark] at hdigit
    cases hdigit
  · revert hmark
    decide

theorem readNumber_decimalInt {n : Int} (h : -2 ^ 63 ≤ n ∧ n < 2 ^ 64) :
    readNumber (decimalInt n) = some (int n) := by
  simp only [readNumber, readInt_decimalInt, if_pos h]

theorem readNumber_float {t : Str} (h : isFloatText t = true) :
    readNumber t = some (float t) := by
  simp only [readNumber, readInt_of_isFloatText h, if_pos h]

/-- What is read as a number can be printed. -/
theorem valid_of_readNumber {d : Nat} {t : Str} {v : Json} (h : readNumber t = some v) :
    Valid d v := by
  rw [readNumber] at h
  split at h
  · split at h
    · rename_i hfloat
      cases h
      exact Valid.float hfloat
    · cases h
  · rename_i n hn
    split at h
    · rename_i hrange
      cases h
      exact Valid.int hrange
    · -- an integer that is too large becomes a float
      cases h
      have htext : decimalInt n = t := decimalInt_of_readInt hn
      refine Valid.float (isFloatText_iff.2 ⟨?_, ⟨'.', by simp, by simp⟩, ?_⟩)
      · intro c hc
        rcases List.mem_append.1 hc with hc | hc
        · rw [← htext] at hc
          exact isNumberChar_of_mem_decimalInt hc
        · have hzero : ∀ c ∈ ".0".toList, isNumberChar c = true := forall_mem_of_all (by decide)
          exact hzero c hc
      · rcases decimalInt_head n with ⟨c, hc, hdigit⟩
        refine ⟨c, ?_, hdigit⟩
        rw [htext] at hc
        rw [List.head?_append, hc]
        rfl

/-! ## Lists of items -/

def isBlank (c : Char) : Bool := c ∈ [' ', '\n', '\t', '\r']

def skipBlanks (s : Str) : Str := s.dropWhile isBlank

section Items

variable {α : Type} (item : Str → Option (α × Str)) (close : Char)

/-- Items behind a comma each, up to the closing bracket. -/
def readItems : Nat → Str → Option (List α × Str)
  | 0, _ => none
  | fuel + 1, s =>
    match skipBlanks s with
    | [] => none
    | c :: rest =>
      if c = close then some ([], rest)
      else if c = ',' then do
        let (x, rest) ← item rest
        let (xs, rest) ← readItems fuel rest
        return (x :: xs, rest)
      else none

/-- What stands between brackets, behind the opening one. -/
def readGroup (s : Str) : Option (List α × Str) :=
  match skipBlanks s with
  | [] => none
  | c :: rest =>
    if c = close then some ([], rest)
    else do
      let (x, rest) ← item (c :: rest)
      let (xs, rest) ← readItems item close rest.length rest
      return (x :: xs, rest)

/-- Texts behind a comma each, and the closing bracket. -/
def joinItems : List Str → Str
  | [] => [close]
  | t :: ts => ',' :: t ++ joinItems ts

def joinGroup : List Str → Str
  | [] => [close]
  | t :: ts => t ++ joinItems close ts

theorem joinItems_cons_head (ts : List Str) :
    ∃ c, (c = ',' ∨ c = close) ∧ ∃ r, joinItems close ts = c :: r := by
  cases ts with
  | nil => exact ⟨close, Or.inr rfl, [], rfl⟩
  | cons t ts => exact ⟨',', Or.inl rfl, _, rfl⟩

theorem length_le_joinItems (ts : List Str) : ts.length + 1 ≤ (joinItems close ts).length := by
  induction ts with
  | nil => simp [joinItems]
  | cons t ts ih =>
    simp only [joinItems, List.length_cons, List.length_append]
    omega

variable {item close}

/-- What holds of every item that is read holds of all of them. -/
theorem readItems_forall {P : α → Prop} (hitem : ∀ s x rest, item s = some (x, rest) → P x)
    (fuel : Nat) : ∀ s xs rest, readItems item close fuel s = some (xs, rest) → ∀ x ∈ xs, P x := by
  induction fuel with
  | zero =>
    intro s xs rest h
    cases h
  | succ fuel ih =>
    intro s xs rest h
    rw [readItems] at h
    split at h
    · cases h
    split at h
    · cases h
      simp
    split at h
    · rcases Option.bind_eq_some_iff.1 h with ⟨⟨x, rest₁⟩, hx, h⟩
      rcases Option.bind_eq_some_iff.1 h with ⟨⟨xs', rest₂⟩, hxs, h⟩
      cases h
      rw [List.forall_mem_cons]
      exact ⟨hitem _ _ _ hx, ih _ _ _ hxs⟩
    · cases h

theorem readGroup_forall {P : α → Prop} (hitem : ∀ s x rest, item s = some (x, rest) → P x)
    {s : Str} {xs : List α} {rest : Str} (h : readGroup item close s = some (xs, rest)) :
    ∀ x ∈ xs, P x := by
  rw [readGroup] at h
  split at h
  · cases h
  split at h
  · cases h
    simp
  · rcases Option.bind_eq_some_iff.1 h with ⟨⟨x, rest₁⟩, hx, h⟩
    rcases Option.bind_eq_some_iff.1 h with ⟨⟨xs', rest₂⟩, hxs, h⟩
    cases h
    rw [List.forall_mem_cons]
    exact ⟨hitem _ _ _ hx, readItems_forall hitem _ _ _ _ hxs⟩

theorem skipBlanks_cons {c : Char} (h : isBlank c = false) (s : Str) :
    skipBlanks (c :: s) = c :: s := by
  simp [skipBlanks, h]

variable {text : α → Str}

/-- Items that are read back one by one are read back together. -/
theorem readItems_join (hclose : isBlank close = false) (hcomma : close ≠ ',') {xs : List α}
    (hitem : ∀ x ∈ xs, ∀ c r, c = ',' ∨ c = close →
      item (text x ++ c :: r) = some (x, c :: r)) :
    ∀ fuel rest, xs.length < fuel →
      readItems item close fuel (joinItems close (xs.map text) ++ rest) = some (xs, rest) := by
  induction xs with
  | nil =>
    intro fuel rest hfuel
    cases fuel with
    | zero => omega
    | succ fuel =>
      simp [joinItems, readItems, skipBlanks_cons hclose]
  | cons x xs ih =>
    intro fuel rest hfuel
    cases fuel with
    | zero => omega
    | succ fuel =>
      have hrest := ih (fun y hy => hitem y (List.mem_cons_of_mem _ hy)) fuel rest
        (by simp only [List.length_cons] at hfuel; omega)
      rcases joinItems_cons_head close (xs.map text) with ⟨c, hc, r, hr⟩
      have hx : item (text x ++ (joinItems close (xs.map text) ++ rest)) =
          some (x, joinItems close (xs.map text) ++ rest) := by
        rw [hr]
        exact hitem x List.mem_cons_self c (r ++ rest) hc
      have hblank : isBlank ',' = false := by decide
      simp only [List.map_cons, joinItems, List.cons_append, List.append_assoc, readItems,
        skipBlanks_cons hblank, if_neg hcomma.symm, if_true, hx, Option.bind_eq_bind,
        Option.bind_some, hrest]
      rfl

variable (item close text) in
/-- A group is read back, item by item. -/
theorem readGroup_join (hclose : isBlank close = false) (hcomma : close ≠ ',') {xs : List α}
    (hitem : ∀ x ∈ xs, ∀ c r, c = ',' ∨ c = close →
      item (text x ++ c :: r) = some (x, c :: r))
    (hhead : ∀ x ∈ xs, ∃ c r, text x = c :: r ∧ isBlank c = false ∧ c ≠ close) (rest : Str) :
    readGroup item close (joinGroup close (xs.map text) ++ rest) = some (xs, rest) := by
  cases xs with
  | nil => simp [joinGroup, readGroup, skipBlanks_cons hclose]
  | cons x xs =>
    have hrest := readItems_join hclose hcomma
      (fun y hy => hitem y (List.mem_cons_of_mem _ hy))
      (joinItems close (xs.map text) ++ rest).length rest (by
        have := length_le_joinItems close (xs.map text)
        simp only [List.length_map, List.length_append] at this ⊢
        omega)
    rcases joinItems_cons_head close (xs.map text) with ⟨c, hc, r, hr⟩
    have hx : item (text x ++ (joinItems close (xs.map text) ++ rest)) =
        some (x, joinItems close (xs.map text) ++ rest) := by
      rw [hr]
      exact hitem x List.mem_cons_self c (r ++ rest) hc
    rcases hhead x List.mem_cons_self with ⟨c', r', htext, hblank, hne⟩
    rw [htext] at hx
    simp only [List.map_cons, joinGroup, htext, List.cons_append, List.append_assoc, readGroup,
      skipBlanks_cons hblank, if_neg hne] at hx ⊢
    rw [hx]
    simp only [Option.bind_eq_bind, Option.bind_some, hrest]
    rfl

end Items

/-! ## Values -/

mutual

/-- The text of a value, without blanks. -/
def print : Json → Str
  | null => "null".toList
  | bool true => "true".toList
  | bool false => "false".toList
  | int n => decimalInt n
  | float t => t
  | str s => quote s
  | arr xs => '[' :: joinGroup ']' (printItems xs)
  | obj kvs => '\x7b' :: joinGroup '\x7d' (printEntries kvs)

def printItems : List Json → List Str
  | [] => []
  | x :: xs => print x :: printItems xs

def printEntry : Str × Json → Str
  | (key, v) => quote key ++ ':' :: print v

def printEntries : List (Str × Json) → List Str
  | [] => []
  | e :: kvs => printEntry e :: printEntries kvs

end

/-- Values without parts. -/
def readAtom (s : Str) : Option (Json × Str) :=
  match s with
  | 'n' :: 'u' :: 'l' :: 'l' :: rest => some (null, rest)
  | 't' :: 'r' :: 'u' :: 'e' :: rest => some (bool true, rest)
  | 'f' :: 'a' :: 'l' :: 's' :: 'e' :: rest => some (bool false, rest)
  | '"' :: rest => (readString rest).map fun p => (str p.1, p.2)
  | s => (readNumber (s.takeWhile isNumberChar)).map fun v => (v, s.dropWhile isNumberChar)

/-- A key, a colon and a value. -/
def readEntry (value : Str → Option (Json × Str)) (s : Str) : Option ((Str × Json) × Str) :=
  match skipBlanks s with
  | '"' :: rest => do
    let (key, rest) ← readString rest
    match skipBlanks rest with
    | ':' :: rest => do
      let (v, rest) ← value rest
      return ((key, v), rest)
    | _ => none
  | _ => none

/-- A value nested no deeper than the number says, and what follows it. -/
def parseValue : Nat → Str → Option (Json × Str)
  | 0, s => readAtom (skipBlanks s)
  | d + 1, s =>
    match skipBlanks s with
    | '[' :: rest => (readGroup (parseValue d) ']' rest).map fun p => (arr p.1, p.2)
    | '\x7b' :: rest =>
      (readGroup (readEntry (parseValue d)) '\x7d' rest).map fun p =>
        (obj (insertEntries p.1 []), p.2)
    | s => readAtom s

/-- `serde_json::from_str` on a text without blanks around it. -/
def parse (s : Str) : Option Json :=
  match parseValue nestingLimit (trim s) with
  | some (v, []) => some v
  | _ => none

theorem printItems_eq_map (xs : List Json) : printItems xs = xs.map print := by
  induction xs with
  | nil => rfl
  | cons x xs ih => rw [printItems, ih]; rfl

theorem printEntries_eq_map (kvs : List (Str × Json)) :
    printEntries kvs = kvs.map printEntry := by
  induction kvs with
  | nil => rfl
  | cons e kvs ih => rw [printEntries, ih]; rfl

/-- How a record is written: its fields in their order. -/
def printStruct (kvs : List (Str × Json)) : Str := '\x7b' :: joinGroup '\x7d' (kvs.map printEntry)

theorem print_obj (kvs : List (Str × Json)) : print (obj kvs) = printStruct kvs := by
  rw [print, printEntries_eq_map, printStruct]

/-! ## What is read is valid -/

variable {v : Json} {d : Nat}

theorem valid_of_readAtom {s rest : Str} (h : readAtom s = some (v, rest)) : Valid d v := by
  rw [readAtom.eq_def] at h
  split at h
  · cases h
    exact Valid.null
  · cases h
    exact Valid.bool true
  · cases h
    exact Valid.bool false
  · rcases Option.map_eq_some_iff.1 h with ⟨p, -, hp⟩
    cases hp
    exact Valid.str p.1
  · rcases Option.map_eq_some_iff.1 h with ⟨v', hv', hp⟩
    cases hp
    exact valid_of_readNumber hv'

theorem readEntry_value {value : Str → Option (Json × Str)} {P : Json → Prop}
    (hvalue : ∀ s v rest, value s = some (v, rest) → P v) :
    ∀ s e rest, readEntry value s = some (e, rest) → P e.2 := by
  intro s e rest h
  rw [readEntry] at h
  split at h
  · rcases Option.bind_eq_some_iff.1 h with ⟨⟨key, rest₁⟩, -, h⟩
    simp only at h
    split at h
    · rcases Option.bind_eq_some_iff.1 h with ⟨⟨v, rest₂⟩, hv, h⟩
      cases h
      exact hvalue _ _ _ hv
    · cases h
  · cases h

/-- What is read can be printed, at the depth it was read at. -/
theorem valid_of_parseValue (d : Nat) :
    ∀ s v rest, parseValue d s = some (v, rest) → Valid d v := by
  induction d with
  | zero =>
    intro s v rest h
    exact valid_of_readAtom h
  | succ d ih =>
    intro s v rest h
    rw [parseValue] at h
    split at h
    · rcases Option.map_eq_some_iff.1 h with ⟨⟨xs, rest'⟩, hxs, hp⟩
      cases hp
      exact Valid.arr (readGroup_forall ih hxs)
    · rcases Option.map_eq_some_iff.1 h with ⟨⟨kvs, rest'⟩, hkvs, hp⟩
      cases hp
      have hempty : Valid (d + 1) (obj []) := Valid.obj sorted_nil (by simp)
      exact valid_insertEntries (readGroup_forall (readEntry_value ih) hkvs) hempty
    · exact valid_of_readAtom h

/-! ## Reading back -/

/-- What may follow a number. -/
def Ends (rest : Str) : Prop := ∀ c ∈ rest.head?, isNumberChar c = false

variable {rest t : Str}

theorem takeWhile_append_of_ends (h : ∀ c ∈ t, isNumberChar c = true)
    (hrest : Ends rest) : (t ++ rest).takeWhile isNumberChar = t := by
  rw [List.takeWhile_append_of_pos h]
  cases rest with
  | nil => simp
  | cons c rest => simp [hrest c rfl]

theorem dropWhile_append_of_ends (h : ∀ c ∈ t, isNumberChar c = true)
    (hrest : Ends rest) : (t ++ rest).dropWhile isNumberChar = rest := by
  rw [List.dropWhile_append_of_pos h]
  cases rest with
  | nil => rfl
  | cons c rest => simp [hrest c rfl]

/-- A number comes back; its first character tells it from the other values. -/
theorem readAtom_number (hall : ∀ c ∈ t, isNumberChar c = true)
    (hhead : ∃ c, t.head? = some c ∧ (c.isDigit = true ∨ c = '-')) (hv : readNumber t = some v)
    (hrest : Ends rest) : readAtom (t ++ rest) = some (v, rest) := by
  have hlast : readAtom (t ++ rest) =
      (readNumber ((t ++ rest).takeWhile isNumberChar)).map fun v =>
        (v, (t ++ rest).dropWhile isNumberChar) := by
    rcases hhead with ⟨c, hc, hdigit⟩
    cases t with
    | nil => cases hc
    | cons c' t =>
      cases hc
      have hne : c ∉ ['n', 't', 'f', '"'] := by
        intro hmem
        have hnot : ∀ c ∈ ['n', 't', 'f', '"'], ¬ (c.isDigit = true ∨ c = '-') :=
          forall_mem_of_all (by decide)
        exact hnot c hmem hdigit
      simp only [List.mem_cons, List.not_mem_nil, or_false, not_or] at hne
      rw [List.cons_append, readAtom.eq_def]
      split <;> simp_all
  rw [hlast, takeWhile_append_of_ends hall hrest, dropWhile_append_of_ends hall hrest, hv]
  rfl

/-- How the text of a value starts. -/
def StartsValue (c : Char) : Prop := isWhitespace c = false ∧ c ≠ ']' ∧ c ≠ '\x7d'

variable {c : Char}

theorem isBlank_of_not_whitespace (h : isWhitespace c = false) : isBlank c = false := by
  have hall : ∀ c ∈ [' ', '\n', '\t', '\r'], isWhitespace c = true := forall_mem_of_all (by decide)
  cases hc : isBlank c with
  | false => rfl
  | true =>
    rw [hall c (by simpa [isBlank] using hc)] at h
    cases h

theorem isWhitespace_of_isNumberChar (h : isNumberChar c = true) : isWhitespace c = false := by
  rw [isNumberChar, Bool.or_eq_true] at h
  rcases h with h | h
  · have hrange : 48 ≤ c.toNat ∧ c.toNat ≤ 57 := by
      simpa [Char.isDigit, UInt32.le_iff_toNat_le] using h
    simp only [isWhitespace]
    have h1 : ¬ c.toNat ≤ 13 := by omega
    have h2 : ¬ 0x2000 ≤ c.toNat := by omega
    have h3 : ∀ n, (n < 48 ∨ 57 < n) → (c.toNat == n) = false := by
      intro n hn
      simp only [beq_eq_false_iff_ne]
      omega
    simp [h1, h2, h3]
  · have hall : ∀ c ∈ ['-', '+', '.', 'e', 'E'], isWhitespace c = false :=
      forall_mem_of_all (by decide)
    exact hall c (by simpa using h)

theorem startsValue_of_number (h : isNumberChar c = true) : StartsValue c := by
  refine ⟨isWhitespace_of_isNumberChar h, ?_, ?_⟩
  · rintro rfl
    revert h
    decide
  · rintro rfl
    revert h
    decide

/-- A printed value starts like one, -/
theorem print_head (h : Valid d v) : ∃ c r, print v = c :: r ∧ StartsValue c := by
  have hnumber : ∀ t : Str, (∀ c ∈ t, isNumberChar c = true) →
      (∃ c, t.head? = some c ∧ (c.isDigit = true ∨ c = '-')) →
      ∃ c r, t = c :: r ∧ StartsValue c := by
    intro t hall hhead
    rcases hhead with ⟨c, hc, -⟩
    cases t with
    | nil => cases hc
    | cons c' r => exact ⟨c', r, rfl, startsValue_of_number (hall c' List.mem_cons_self)⟩
  have hstarts : ∀ c ∈ ['n', 't', 'f', '"', '[', '\x7b'], StartsValue c := by
    unfold StartsValue
    exact forall_mem_of_all (by decide)
  cases h with
  | null => exact ⟨'n', _, rfl, hstarts _ (by simp)⟩
  | bool b =>
    cases b
    · exact ⟨'f', _, rfl, hstarts _ (by simp)⟩
    · exact ⟨'t', _, rfl, hstarts _ (by simp)⟩
  | int h => exact hnumber _ (fun c hc => isNumberChar_of_mem_decimalInt hc) (decimalInt_head _)
  | float h => exact hnumber _ (isFloatText_iff.1 h).1 (isFloatText_iff.1 h).2.2
  | str s => exact ⟨'"', _, rfl, hstarts _ (by simp)⟩
  | arr h => exact ⟨'[', _, rfl, hstarts _ (by simp)⟩
  | obj hsorted h => exact ⟨'\x7b', _, rfl, hstarts _ (by simp)⟩

theorem joinItems_getLast? (close : Char) (ts : List Str) :
    (joinItems close ts).getLast? = some close := by
  induction ts with
  | nil => rfl
  | cons t ts ih => simp [joinItems, List.getLast?_append, List.getLast?_cons, ih]

theorem joinGroup_getLast? (close : Char) (ts : List Str) :
    (joinGroup close ts).getLast? = some close := by
  cases ts with
  | nil => rfl
  | cons t ts => simp [joinGroup, List.getLast?_append, joinItems_getLast?]

theorem printStruct_getLast? (kvs : List (Str × Json)) :
    (printStruct kvs).getLast? = some '\x7d' := by
  simp [printStruct, List.getLast?_cons, joinGroup_getLast?]

/-- and ends in no white space. -/
theorem print_getLast? (h : Valid d v) :
    ∀ c, (print v).getLast? = some c → isWhitespace c = false := by
  have hends : ∀ c ∈ ['l', 'e', '"', ']', '\x7d'], isWhitespace c = false :=
    forall_mem_of_all (by decide)
  have hnumber : ∀ t : Str, (∀ c ∈ t, isNumberChar c = true) →
      ∀ c, t.getLast? = some c → isWhitespace c = false := by
    intro t hall c hc
    exact isWhitespace_of_isNumberChar (hall c (List.mem_of_getLast? hc))
  intro c hc
  cases h with
  | null =>
    obtain rfl : 'l' = c := by simpa [print] using hc
    exact hends _ (by simp)
  | bool b =>
    obtain rfl : 'e' = c := by cases b <;> simpa [print] using hc
    exact hends _ (by simp)
  | int h => exact hnumber _ (fun c hc => isNumberChar_of_mem_decimalInt hc) c hc
  | float h => exact hnumber _ (isFloatText_iff.1 h).1 c hc
  | str s =>
    obtain rfl : '"' = c := by simpa [print, quote, List.getLast?_cons] using hc
    exact hends _ (by simp)
  | arr h =>
    obtain rfl : ']' = c := by simpa [print, List.getLast?_cons, joinGroup_getLast?] using hc
    exact hends _ (by simp)
  | obj hsorted h =>
    obtain rfl : '\x7d' = c := by simpa [print, List.getLast?_cons, joinGroup_getLast?] using hc
    exact hends _ (by simp)

theorem trim_print (h : Valid d v) : trim (print v) = print v := by
  rcases print_head h with ⟨c, r, hprint, hstart⟩
  refine trim_of_ends ?_ (print_getLast? h)
  rw [hprint]
  rintro c' hc'
  cases hc'
  exact hstart.1

theorem ends_cons (h : isNumberChar c = false) (r : Str) : Ends (c :: r) := by
  intro c' hc'
  cases hc'
  exact h

theorem printEntry_cons (e : Str × Json) :
    printEntry e = '"' :: (e.1.flatMap escapeChar ++ '"' :: (':' :: print e.2)) := by
  rcases e with ⟨key, v⟩
  simp [printEntry, quote]

theorem readEntry_print {value : Str → Option (Json × Str)} {e : Str × Json}
    (hvalue : value (print e.2 ++ rest) = some (e.2, rest)) :
    readEntry value (printEntry e ++ rest) = some (e, rest) := by
  have hquote : isBlank '"' = false := by decide
  have hcolon : isBlank ':' = false := by decide
  rw [printEntry_cons, readEntry, List.cons_append, skipBlanks_cons hquote, List.append_assoc]
  simp only [List.cons_append, readString_escape, Option.bind_eq_bind, Option.bind_some, skipBlanks_cons hcolon]
  rw [hvalue]
  rfl

theorem parseValue_atom {s : Str} (hstart : StartsValue c)
    (harr : c ≠ '[') (hobj : c ≠ '\x7b') : parseValue d (c :: s) = readAtom (c :: s) := by
  have hblank : isBlank c = false := isBlank_of_not_whitespace hstart.1
  cases d with
  | zero => rw [parseValue, skipBlanks_cons hblank]
  | succ d =>
    rw [parseValue, skipBlanks_cons hblank]
    split
    · rename_i heq
      cases heq
      exact absurd rfl harr
    · rename_i heq
      cases heq
      exact absurd rfl hobj
    · rfl

theorem parseValue_number (hall : ∀ c ∈ t, isNumberChar c = true)
    (hhead : ∃ c, t.head? = some c ∧ (c.isDigit = true ∨ c = '-')) (hv : readNumber t = some v)
    (hrest : Ends rest) : parseValue d (t ++ rest) = some (v, rest) := by
  rw [← readAtom_number hall hhead hv hrest]
  rcases hhead with ⟨c, hc, -⟩
  cases t with
  | nil => cases hc
  | cons c' t =>
    have hnumber : isNumberChar c' = true := hall c' List.mem_cons_self
    apply parseValue_atom (startsValue_of_number hnumber)
    · rintro rfl
      revert hnumber
      decide
    · rintro rfl
      revert hnumber
      decide

/-- Entries that are read back one by one are read back together. -/
theorem parseValue_printStruct {kvs : List (Str × Json)}
    (h : ∀ e ∈ kvs, ∀ rest, Ends rest → parseValue d (print e.2 ++ rest) = some (e.2, rest))
    (rest : Str) :
    parseValue (d + 1) (printStruct kvs ++ rest) = some (obj (insertEntries kvs []), rest) := by
  have hgroup := readGroup_join (readEntry (parseValue d)) '\x7d' printEntry (by decide)
    (by decide)
    (fun e he c r hc => readEntry_print
      (h e he _ (ends_cons (by rcases hc with rfl | rfl <;> decide) r)))
    (fun e _ => ⟨'"', _, printEntry_cons e, by decide, by decide⟩)
    rest
  have hbracket : isBlank '\x7b' = false := by decide
  rw [printStruct, List.cons_append, parseValue, skipBlanks_cons hbracket]
  simp only [hgroup, Option.map_some]

/-- A valid value is read back from its text. -/
theorem parseValue_print (h : Valid d v) :
    ∀ rest, Ends rest → parseValue d (print v ++ rest) = some (v, rest) := by
  have hstarts : ∀ c ∈ ['n', 't', 'f', '"'], StartsValue c := by
    unfold StartsValue
    exact forall_mem_of_all (by decide)
  induction h with
  | null =>
    intro rest _
    exact parseValue_atom (hstarts 'n' (by simp)) (by decide) (by decide)
  | bool b =>
    intro rest _
    cases b
    · exact parseValue_atom (hstarts 'f' (by simp)) (by decide) (by decide)
    · exact parseValue_atom (hstarts 't' (by simp)) (by decide) (by decide)
  | int h =>
    intro rest hrest
    exact parseValue_number (fun c hc => isNumberChar_of_mem_decimalInt hc) (decimalInt_head _)
      (readNumber_decimalInt h) hrest
  | float h =>
    intro rest hrest
    exact parseValue_number (isFloatText_iff.1 h).1 (isFloatText_iff.1 h).2.2
      (readNumber_float h) hrest
  | str s =>
    intro rest _
    have htext : print (str s) ++ rest = '"' :: (s.flatMap escapeChar ++ '"' :: rest) := by
      simp [print, quote]
    rw [htext, parseValue_atom (hstarts '"' (by simp)) (by decide) (by decide)]
    show (readString _).map _ = _
    rw [readString_escape]
    rfl
  | @arr d xs h ih =>
    intro rest _
    -- an item ends at the comma or bracket behind it
    have hgroup := readGroup_join (parseValue d) ']' print (by decide) (by decide)
      (fun x hx c r hc => ih x hx _ (ends_cons (by rcases hc with rfl | rfl <;> decide) r))
      (fun x hx => by
        rcases print_head (h x hx) with ⟨c, r, hprint, hstart⟩
        exact ⟨c, r, hprint, isBlank_of_not_whitespace hstart.1, hstart.2.1⟩)
      rest
    have hbracket : isBlank '[' = false := by decide
    rw [print, printItems_eq_map, List.cons_append, parseValue, skipBlanks_cons hbracket]
    simp only [hgroup]
    rfl
  | @obj d kvs hsorted h ih =>
    intro rest _
    have hentries : insertEntries kvs [] = kvs := insertEntries_append [] hsorted
    rw [print_obj, parseValue_printStruct ih, hentries]

/-- Only valid values are read. -/
theorem parse_valid {s : Str} (h : parse s = some v) : Valid nestingLimit v := by
  rw [parse] at h
  split at h
  · rename_i v' hv
    cases h
    exact valid_of_parseValue _ _ _ _ hv
  · cases h

/-- A valid value is read back from its text. -/
theorem parse_print (h : Valid nestingLimit v) : parse (print v) = some v := by
  have hvalue := parseValue_print h [] (by simp [Ends])
  rw [List.append_nil] at hvalue
  rw [parse, trim_print h, hvalue]

/-- A record is read as the object of its fields. -/
theorem parse_printStruct {kvs : List (Str × Json)}
    (h : ∀ e ∈ kvs, Valid (nestingLimit - 1) e.2) :
    parse (printStruct kvs) = some (obj (insertEntries kvs [])) := by
  have hvalue : parseValue nestingLimit (printStruct kvs ++ []) = _ :=
    parseValue_printStruct (fun e he => parseValue_print (h e he)) []
  have htrim : trim (printStruct kvs) = printStruct kvs := by
    have hends : ∀ c ∈ ['\x7b', '\x7d'], isWhitespace c = false := forall_mem_of_all (by decide)
    apply trim_of_ends
    · rintro c hc
      cases hc
      exact hends _ (by simp)
    · intro c hc
      rw [printStruct_getLast?] at hc
      cases hc
      exact hends _ (by simp)
  rw [List.append_nil] at hvalue
  rw [parse, htrim, hvalue]

theorem parse_trim (s : Str) : parse (trim s) = parse s := by
  rw [parse, parse, trim_trim]

theorem parse_nil : parse [] = none := rfl

theorem print_ne_nil (h : Valid d v) : print v ≠ [] := by
  rcases print_head h with ⟨c, r, hprint, -⟩
  rw [hprint]
  exact List.cons_ne_nil c r

/-! ## One line -/

/-- Control characters are written with escapes. -/
def Printable (c : Char) : Prop := 0x20 ≤ c.toNat

instance : DecidablePred Printable := fun c => inferInstanceAs (Decidable (0x20 ≤ c.toNat))

theorem printable_hexDigit : ∀ n < 32,
    Printable (hexDigit (n / 16)) ∧ Printable (hexDigit (n % 16)) := by
  decide

theorem printable_pair {e : Char} (h : Printable e) : ∀ c ∈ ['\\', e], Printable c := by
  have hbackslash : Printable '\\' := by decide
  intro c hc
  rcases List.mem_cons.1 hc with rfl | hc
  · exact hbackslash
  · obtain rfl := List.mem_singleton.1 hc
    exact h

theorem printable_escapeChar (c : Char) : ∀ c' ∈ escapeChar c, Printable c' := by
  unfold escapeChar
  -- one case for each short escape, then the control characters and the rest
  split
  · exact printable_pair (by decide)
  split
  · exact printable_pair (by decide)
  split
  · exact printable_pair (by decide)
  split
  · exact printable_pair (by decide)
  split
  · exact printable_pair (by decide)
  split
  · exact printable_pair (by decide)
  split
  · exact printable_pair (by decide)
  split
  · next hcontrol =>
    rcases printable_hexDigit c.toNat hcontrol with ⟨h₁, h₀⟩
    have hfront : ∀ c' ∈ ['\\', 'u', '0', '0'], Printable c' := forall_mem_of_all (by decide)
    have happend : ∀ a b : Char, ['\\', 'u', '0', '0', a, b] = ['\\', 'u', '0', '0'] ++ [a, b] :=
      fun _ _ => rfl
    intro c' hc'
    rw [happend, List.mem_append] at hc'
    rcases hc' with hc' | hc'
    · exact hfront c' hc'
    · rcases List.mem_cons.1 hc' with rfl | hc'
      · exact h₁
      · obtain rfl := List.mem_singleton.1 hc'
        exact h₀
  · next hcontrol =>
    intro c' hc'
    obtain rfl := List.mem_singleton.1 hc'
    exact Nat.le_of_not_lt hcontrol

/-- Nothing in a printed string needs an escape. -/
theorem printable_quote (s : Str) : ∀ c ∈ quote s, Printable c := by
  have hquote : Printable '"' := by decide
  intro c hc
  simp only [quote, List.cons_append, List.mem_cons, List.mem_append, List.mem_flatMap,
    List.not_mem_nil, or_false] at hc
  rcases hc with rfl | ⟨c', -, hc⟩ | rfl
  · exact hquote
  · exact printable_escapeChar c' c hc
  · exact hquote

theorem printable_joinItems {close : Char} {ts : List Str} (hclose : Printable close)
    (hts : ∀ t ∈ ts, ∀ c ∈ t, Printable c) : ∀ c ∈ joinItems close ts, Printable c := by
  have hcomma : Printable ',' := by decide
  induction ts with
  | nil =>
    intro c hc
    obtain rfl := List.mem_singleton.1 hc
    exact hclose
  | cons t ts ih =>
    rw [List.forall_mem_cons] at hts
    intro c hc
    simp only [joinItems, List.cons_append, List.mem_cons, List.mem_append] at hc
    rcases hc with rfl | hc | hc
    · exact hcomma
    · exact hts.1 c hc
    · exact ih hts.2 c hc

theorem printable_joinGroup {close : Char} {ts : List Str} (hclose : Printable close)
    (hts : ∀ t ∈ ts, ∀ c ∈ t, Printable c) : ∀ c ∈ joinGroup close ts, Printable c := by
  cases ts with
  | nil => exact printable_joinItems hclose hts
  | cons t ts =>
    rw [List.forall_mem_cons] at hts
    intro c hc
    rcases List.mem_append.1 hc with hc | hc
    · exact hts.1 c hc
    · exact printable_joinItems hclose hts.2 c hc

/-- A record whose fields have no control characters has none. -/
theorem printable_printStruct {kvs : List (Str × Json)}
    (h : ∀ e ∈ kvs, ∀ c ∈ print e.2, Printable c) : ∀ c ∈ printStruct kvs, Printable c := by
  have hmarks : Printable '\x7b' ∧ Printable '\x7d' ∧ Printable ':' := by decide
  rw [printStruct, List.forall_mem_cons]
  refine ⟨hmarks.1, printable_joinGroup hmarks.2.1 ?_⟩
  intro t ht c hc
  rcases List.mem_map.1 ht with ⟨⟨key, v⟩, he, rfl⟩
  rcases List.mem_append.1 hc with hc | hc
  · exact printable_quote key c hc
  · rcases List.mem_cons.1 hc with rfl | hc
    · exact hmarks.2.2
    · exact h _ he c hc

theorem printable_of_isNumberChar (h : isNumberChar c = true) : Printable c := by
  rw [isNumberChar, Bool.or_eq_true] at h
  rcases h with h | h
  · have hrange : 48 ≤ c.toNat ∧ c.toNat ≤ 57 := by
      simpa [Char.isDigit, UInt32.le_iff_toNat_le] using h
    unfold Printable
    omega
  · have hall : ∀ c ∈ ['-', '+', '.', 'e', 'E'], Printable c := forall_mem_of_all (by decide)
    exact hall c (by simpa using h)

/-- The text of a value is one line. -/
theorem printable_print (h : Valid d v) : ∀ c ∈ print v, Printable c := by
  induction h with
  | null => exact forall_mem_of_all (by decide)
  | bool b => cases b <;> exact forall_mem_of_all (by decide)
  | int h =>
    intro c hc
    exact printable_of_isNumberChar (isNumberChar_of_mem_decimalInt hc)
  | float h =>
    intro c hc
    exact printable_of_isNumberChar ((isFloatText_iff.1 h).1 c hc)
  | str s => exact printable_quote s
  | arr h ih =>
    have hmarks : Printable '[' ∧ Printable ']' := by decide
    rw [print, printItems_eq_map, List.forall_mem_cons]
    refine ⟨hmarks.1, printable_joinGroup hmarks.2 ?_⟩
    intro t ht
    rcases List.mem_map.1 ht with ⟨x, hx, rfl⟩
    exact ih x hx
  | obj hsorted h ih =>
    rw [print_obj]
    exact printable_printStruct ih

/-! ## Numbers of any size -/

/-- A number, as text where it does not fit 64 bits. -/
def natJson (n : Nat) : Json := if n < 2 ^ 64 then .int n else .str (decimal n)

def readNatJson : Json → Option Nat
  | .int n => some n.toNat
  | .str s => parseDigits s
  | _ => none

theorem readNatJson_natJson (n : Nat) : readNatJson (natJson n) = some n := by
  unfold natJson
  split
  · rfl
  · exact parseDigits_decimal n

theorem valid_natJson (n : Nat) : (natJson n).Valid d := by
  unfold natJson
  split
  · next h =>
    constructor
    omega
  · exact .str _

end Json

/-- Texts without blanks. -/
def JsonText.compact : JsonText where
  parse := Json.parse
  print := Json.print
  parse_valid _ _ h := Json.parse_valid h
  parse_print _ h := Json.parse_print h
  parse_nil := Json.parse_nil
  parse_trim s _ h := (Json.parse_trim s).trans h
  trim_print _ h := Json.trim_print h
  print_ne_nil _ h := Json.print_ne_nil h

end HomeTier.Lib
