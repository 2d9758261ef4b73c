import HomeTier.Lib.Lines
import HomeTier.Lib.Utf8

/-! # HTTP/1.1 messages on the wire

A message starts with lines that are joined by CR LF, and a blank line ends
them. `position` finds the blank line in what has been read so far; more bytes
do not move it. A body of unknown length follows in chunks (`chunked`): each
with its size in front, in hexadecimal digits.

What a sender writes arrives in order and whole, but the pieces that single
reads return are up to the network (`Arrival`).
-/

namespace HomeTier.Lib

/-! ## The first place of a separator -/

/-- `windows(sep.len()).position(|w| w == sep)`, for a separator that is not empty. -/
@[grind] def position (sep : Bytes) : Bytes → Option Nat
  | [] => none
  | b :: rest => if sep <+: b :: rest then some 0 else (position sep rest).map (· + 1)

theorem position_le {sep : Bytes} {buf : Bytes} {p : Nat} (h : position sep buf = some p) :
    p + sep.length ≤ buf.length := by
  induction buf generalizing p with
  | nil => simp [position] at h
  | cons b rest ih =>
    rw [position] at h
    split at h
    · next hsep =>
      have hlen := hsep.length_le
      simp only [Option.some.injEq] at h
      omega
    · simp only [Option.map_eq_some_iff] at h
      rcases h with ⟨q, hq, rfl⟩
      have hlen := ih hq
      simp only [List.length_cons]
      omega

/-- The separator stands where it is found. -/
theorem append_of_position {sep buf : Bytes} {p : Nat} (h : position sep buf = some p) :
    ∃ t, buf = buf.take p ++ (sep ++ t) := by
  induction buf generalizing p with
  | nil => simp [position] at h
  | cons b rest ih =>
    rw [position] at h
    split at h
    · next hhere =>
      rcases hhere with ⟨t, ht⟩
      obtain rfl : 0 = p := by simpa using h
      exact ⟨t, by simpa using ht.symm⟩
    · simp only [Option.map_eq_some_iff] at h
      rcases h with ⟨q, hq, rfl⟩
      rcases ih hq with ⟨t, ht⟩
      exact ⟨t, by rw [List.take_succ_cons, List.cons_append, ← ht]⟩

/-- A separator is found where it stands, or before. -/
theorem position_append_le {sep : Bytes} (hsep : sep ≠ []) (a t : Bytes) :
    ∃ p ≤ a.length, position sep (a ++ (sep ++ t)) = some p := by
  induction a with
  | nil =>
    cases sep with
    | nil => exact absurd rfl hsep
    | cons b sep =>
      refine ⟨0, Nat.le_refl 0, ?_⟩
      rw [List.nil_append, List.cons_append, position, if_pos ⟨t, rfl⟩]
  | cons b a ih =>
    rcases ih with ⟨p, hp, hfound⟩
    rw [List.cons_append, position]
    split
    · exact ⟨0, Nat.zero_le _, rfl⟩
    · exact ⟨p + 1, Nat.succ_le_succ hp, by rw [hfound, Option.map_some]⟩

/-- What is found stays where it is when more bytes arrive. -/
theorem position_append {sep buf : Bytes} {p : Nat} (h : position sep buf = some p) (t : Bytes) :
    position sep (buf ++ t) = some p := by
  have hlen := position_le h
  induction buf generalizing p with
  | nil => simp [position] at h
  | cons b rest ih =>
    rw [position] at h
    rw [List.cons_append, position]
    split at h
    · next hhere =>
      have hlonger : sep <+: b :: (rest ++ t) := hhere.trans ⟨t, rfl⟩
      rwa [if_pos hlonger]
    · next hhere =>
      simp only [Option.map_eq_some_iff] at h
      rcases h with ⟨q, hq, rfl⟩
      -- the buffer is long enough to show a separator that starts here
      have hmiss : ¬ sep <+: b :: (rest ++ t) := by
        intro hpre
        refine hhere (List.prefix_of_prefix_length_le hpre ⟨t, rfl⟩ ?_)
        omega
      rw [if_neg hmiss, ih hq (position_le hq), Option.map_some]

/-- What is found in a buffer was there as soon as the buffer reached over it. -/
theorem position_of_append {sep buf t : Bytes} {p : Nat} (h : position sep (buf ++ t) = some p)
    (hp : p + sep.length ≤ buf.length) (hsep : sep ≠ []) : position sep buf = some p := by
  induction buf generalizing p with
  | nil =>
    have hlen := List.length_pos_of_ne_nil hsep
    simp only [List.length_nil] at hp
    omega
  | cons b rest ih =>
    rw [List.cons_append, position] at h
    rw [position]
    split at h
    · next hhere =>
      obtain rfl : 0 = p := by simpa using h
      have hpre : sep <+: b :: rest := by
        refine List.prefix_of_prefix_length_le hhere ⟨t, rfl⟩ ?_
        simpa using hp
      rw [if_pos hpre]
    · next hhere =>
      simp only [Option.map_eq_some_iff] at h
      rcases h with ⟨q, hq, rfl⟩
      have hmiss : ¬ sep <+: b :: rest := by
        intro hpre
        exact hhere (hpre.trans ⟨t, rfl⟩)
      have hq := ih hq (by simp only [List.length_cons] at hp; omega)
      rw [if_neg hmiss, hq, Option.map_some]

/-- Bytes that are not the first of the separator are passed over. -/
theorem position_notMem_append {c : UInt8} {sep s : Bytes} (h : c ∉ s) (t : Bytes) :
    position (c :: sep) (s ++ t) = (position (c :: sep) t).map (· + s.length) := by
  induction s with
  | nil => simp
  | cons b s ih =>
    rw [List.mem_cons, not_or] at h
    have hmiss : ¬ c :: sep <+: b :: (s ++ t) := by
      intro hpre
      exact h.1 (List.cons_prefix_cons.1 hpre).1
    rw [List.cons_append, position, if_neg hmiss, ih h.2, Option.map_map]
    rfl

/-! ## Heads -/

def crlfBytes : Bytes := [13, 10]

/-- `\r\n\r\n` -/
def blankBytes : Bytes := [13, 10, 13, 10]

/-- The lines of a head. -/
structure HeadLines where
  lines : List Str
  lines_ne_nil : lines ≠ []
  line_ne_nil : ∀ l ∈ lines, l ≠ []
  return_notMem : ∀ l ∈ lines, '\r' ∉ l
  newline_notMem : ∀ l ∈ lines, '\n' ∉ l

/-- Lines joined by CR LF. -/
def joinLines : List Str → Str
  | [] => []
  | [l] => l
  | l :: l' :: ls => l ++ '\r' :: '\n' :: joinLines (l' :: ls)

/-- What is written before the body. -/
def HeadLines.bytes (head : HeadLines) : Bytes := utf8 (joinLines head.lines) ++ blankBytes

/-- Joined lines are read back. -/
theorem lines_joinLines {ls : List Str} (hne : ∀ l ∈ ls, l ≠ [])
    (hreturn : ∀ l ∈ ls, '\r' ∉ l) (hnewline : ∀ l ∈ ls, '\n' ∉ l) :
    lines (joinLines ls) = ls := by
  induction ls with
  | nil => rfl
  | cons l ls ih =>
    rw [List.forall_mem_cons] at hne hreturn hnewline
    cases ls with
    | nil =>
      exact lines_of_notMem hne.1 hnewline.1
    | cons l' ls =>
      have hno : '\n' ∉ l ++ ['\r'] := by
        simp only [List.mem_append, List.mem_singleton, not_or]
        exact ⟨hnewline.1, by decide⟩
      have hstrip : stripReturn (l ++ ['\r']) = l := by simp [stripReturn]
      have hjoin : joinLines (l :: l' :: ls) = (l ++ ['\r']) ++ '\n' :: joinLines (l' :: ls) := by
        simp [joinLines]
      rw [hjoin, lines_append, List.splitOn_eq_singleton hno, ih hne.2 hreturn.2 hnewline.2,
        List.map_singleton, hstrip, List.singleton_append]

/-- Behind the end of a line, a byte of the next line shows that no blank line is here. -/
theorem position_next {b : UInt8} (h : b ≠ 13) (rest : Bytes) :
    position blankBytes (13 :: 10 :: b :: rest) =
      (position blankBytes (b :: rest)).map (· + 2) := by
  have hreturn : ¬ blankBytes <+: 13 :: 10 :: b :: rest := by
    intro hpre
    simp only [blankBytes, List.cons_prefix_cons] at hpre
    exact h hpre.2.2.1.symm
  have hnewline : ¬ blankBytes <+: 10 :: b :: rest := by
    intro hpre
    exact absurd (List.cons_prefix_cons.1 hpre).1 (by decide)
  rw [position, if_neg hreturn, position, if_neg hnewline, Option.map_map]
  rfl

/-- A text without returns starts with another byte. -/
theorem exists_cons_utf8 {s : Str} (hne : s ≠ []) (h : '\r' ∉ s) :
    ∃ b rest, utf8 s = b :: rest ∧ b ≠ 13 := by
  cases s with
  | nil => exact absurd rfl hne
  | cons c s =>
    rcases utf8EncodeChar_shape c with ⟨b, bs, _, _, hshape, -, -⟩
    refine ⟨b, bs ++ utf8 s, by rw [utf8_cons, hshape]; rfl, ?_⟩
    rintro rfl
    have hc := eq_of_mem_utf8EncodeChar (b := 13) (c := c) (by decide) (by simp [hshape])
    exact h (List.mem_cons.2 (.inl hc.symm))

theorem position_joinLines {ls : List Str} (hls : ls ≠ []) (hne : ∀ l ∈ ls, l ≠ [])
    (hreturn : ∀ l ∈ ls, '\r' ∉ l) (t : Bytes) :
    position blankBytes (utf8 (joinLines ls) ++ (blankBytes ++ t)) =
      some (utf8 (joinLines ls)).length := by
  induction ls with
  | nil => exact absurd rfl hls
  | cons l ls ih =>
    rw [List.forall_mem_cons] at hne hreturn
    have hno : (13 : UInt8) ∉ utf8 l := notMem_utf8 (by decide) hreturn.1
    cases ls with
    | nil =>
      have hhere : blankBytes <+: 13 :: 10 :: 13 :: 10 :: t := ⟨t, rfl⟩
      have hfound : position blankBytes (13 :: 10 :: 13 :: 10 :: t) = some 0 := by
        rw [position, if_pos hhere]
      show position blankBytes (utf8 l ++ (13 :: 10 :: 13 :: 10 :: t)) = _
      rw [blankBytes, position_notMem_append hno, ← blankBytes, hfound, Option.map_some,
        Nat.zero_add]
      rfl
    | cons l' ls =>
      -- the next line starts with another byte, so no blank line begins here
      have hnext : ∃ b rest, utf8 (joinLines (l' :: ls)) = b :: rest ∧ b ≠ 13 := by
        have hl' := exists_cons_utf8 (hne.2 l' List.mem_cons_self)
          (hreturn.2 l' List.mem_cons_self)
        rcases hl' with ⟨b, rest, hutf8, hb⟩
        cases ls with
        | nil => exact ⟨b, rest, hutf8, hb⟩
        | cons l'' ls =>
          rw [joinLines, utf8_append, hutf8]
          exact ⟨b, _, rfl, hb⟩
      have hbytes : utf8 (joinLines (l :: l' :: ls)) =
          utf8 l ++ 13 :: 10 :: utf8 (joinLines (l' :: ls)) := by
        rw [joinLines, utf8_append]
        rfl
      have hrec := ih (by simp) hne.2 hreturn.2
      rcases hnext with ⟨b, rest, hutf8, hb⟩
      rw [hbytes, hutf8]
      rw [hutf8] at hrec
      simp only [List.append_assoc, List.cons_append] at hrec ⊢
      rw [blankBytes, position_notMem_append hno, ← blankBytes, position_next hb, hrec]
      simp only [Option.map_some, List.length_append, List.length_cons, Option.some.injEq]
      omega

/-- The blank line of a head, whatever follows. -/
theorem HeadLines.position_bytes (head : HeadLines) (t : Bytes) :
    position blankBytes (head.bytes ++ t) = some (utf8 (joinLines head.lines)).length := by
  rw [HeadLines.bytes, List.append_assoc]
  exact position_joinLines head.lines_ne_nil head.line_ne_nil head.return_notMem t

/-- Any bytes before their first blank line. -/
structure HeadBytes where
  text : Bytes
  first : position blankBytes (text ++ blankBytes) = some text.length

def HeadBytes.bytes (head : HeadBytes) : Bytes := head.text ++ blankBytes

theorem HeadBytes.length_bytes (head : HeadBytes) :
    head.bytes.length = head.text.length + blankBytes.length :=
  List.length_append

theorem HeadBytes.position_bytes (head : HeadBytes) (t : Bytes) :
    position blankBytes (head.bytes ++ t) = some head.text.length :=
  position_append head.first t

theorem HeadBytes.take_bytes (head : HeadBytes) (t : Bytes) :
    (head.bytes ++ t).take head.text.length = head.text := by
  rw [HeadBytes.bytes, List.append_assoc, List.take_left]

theorem HeadBytes.drop_bytes (head : HeadBytes) (t : Bytes) :
    (head.bytes ++ t).drop (head.text.length + 4) = t :=
  List.drop_left' head.length_bytes

/-- In what has arrived of a message, the blank line is found once the head is there. -/
theorem HeadBytes.position_arrived (head : HeadBytes) {arrived t : Bytes}
    (h : arrived <+: head.bytes ++ t) :
    position blankBytes arrived =
      if head.bytes.length ≤ arrived.length then some head.text.length else none := by
  rcases h with ⟨rest, hrest⟩
  have hwhole := head.position_bytes t
  rw [← hrest] at hwhole
  split
  · rename_i hle
    rw [head.length_bytes] at hle
    exact position_of_append hwhole hle (by decide)
  · rename_i hgt
    cases hfind : position blankBytes arrived with
    | none => rfl
    | some p =>
      -- it would end behind what has arrived
      have hsame := position_append hfind rest
      rw [hwhole] at hsame
      cases hsame
      have hle := position_le hfind
      rw [← head.length_bytes] at hle
      exact absurd hle hgt

def HeadLines.toHeadBytes (head : HeadLines) : HeadBytes where
  text := utf8 (joinLines head.lines)
  first := by
    have h := head.position_bytes []
    rw [List.append_nil] at h
    exact h

/-! ## Lines between CR LF -/

/-- The lines of a text, each up to the next CR LF. -/
def crlfLines : Str → List Str
  | [] => [[]]
  | c :: s =>
    if c = '\r' ∧ s.head? = some '\n' then [] :: (crlfLines s).modifyHead List.tail
    else (crlfLines s).modifyHead (c :: ·)

theorem crlfLines_ne_nil (s : Str) : crlfLines s ≠ [] := by
  induction s with
  | nil => simp [crlfLines]
  | cons c s ih =>
    rw [crlfLines]
    split
    · simp
    · simpa using ih

theorem crlfLines_crlf (s : Str) : crlfLines ('\r' :: '\n' :: s) = [] :: crlfLines s := by
  have hnewline : crlfLines ('\n' :: s) = (crlfLines s).modifyHead ('\n' :: ·) := by
    rw [crlfLines, if_neg (fun h => absurd h.1 (by decide))]
  rw [crlfLines, if_pos ⟨rfl, rfl⟩, hnewline]
  cases crlfLines s <;> rfl

theorem crlfLines_cons {c : Char} {s : Str} (h : ¬ (c = '\r' ∧ s.head? = some '\n')) :
    crlfLines (c :: s) = (crlfLines s).modifyHead (c :: ·) := by
  rw [crlfLines, if_neg h]

/-- Induction along the lines. -/
theorem crlf_induction {P : Str → Prop} (nil : P []) (crlf : ∀ s, P s → P ('\r' :: '\n' :: s))
    (cons : ∀ c s, ¬ (c = '\r' ∧ s.head? = some '\n') → P s → P (c :: s)) (s : Str) : P s := by
  induction h : s.length using Nat.strongRecOn generalizing s with
  | ind n ih =>
    subst h
    cases s with
    | nil => exact nil
    | cons c s =>
      by_cases hcrlf : c = '\r' ∧ s.head? = some '\n'
      · rcases hcrlf with ⟨rfl, hhead⟩
        cases s with
        | nil => cases hhead
        | cons d s =>
          obtain rfl : d = '\n' := Option.some.inj hhead
          refine crlf s (ih s.length ?_ s rfl)
          simp only [List.length_cons]
          omega
      · exact cons c s hcrlf (ih s.length (by simp) s rfl)

theorem joinLines_cons {l : Str} {ls : List Str} (h : ls ≠ []) :
    joinLines (l :: ls) = l ++ '\r' :: '\n' :: joinLines ls := by
  cases ls with
  | nil => exact absurd rfl h
  | cons l' ls => rfl

/-- An empty line at the end is a CR LF at the end. -/
theorem joinLines_concat_nil {l : Str} (ls : List Str) :
    ∃ t, joinLines (l :: ls ++ [[]]) = t ++ ['\r', '\n'] := by
  induction ls generalizing l with
  | nil => exact ⟨l, rfl⟩
  | cons l' ls ih =>
    rcases @ih l' with ⟨t, ht⟩
    refine ⟨l ++ '\r' :: '\n' :: t, ?_⟩
    show l ++ '\r' :: '\n' :: joinLines (l' :: ls ++ [[]]) = _
    rw [ht]
    simp

theorem joinLines_crlfLines (s : Str) : joinLines (crlfLines s) = s := by
  induction s using crlf_induction with
  | nil => rfl
  | crlf s ih =>
    rw [crlfLines_crlf, joinLines_cons (crlfLines_ne_nil s), ih]
    rfl
  | cons c s hcrlf ih =>
    rw [crlfLines_cons hcrlf]
    cases hs : crlfLines s with
    | nil => exact absurd hs (crlfLines_ne_nil s)
    | cons l ls =>
      rw [hs] at ih
      rw [← ih]
      cases ls <;> rfl

/-- A line in front of the others. -/
theorem crlfLines_append {l : Str} (h : crlfLines l = [l]) (s : Str) :
    crlfLines (l ++ '\r' :: '\n' :: s) = l :: crlfLines s := by
  induction l with
  | nil => exact crlfLines_crlf s
  | cons c l ih =>
    by_cases hcrlf : c = '\r' ∧ l.head? = some '\n'
    · rw [crlfLines, if_pos hcrlf] at h
      exact absurd (List.cons.inj h).1 (by simp)
    · have hl : crlfLines l = [l] := by
        rw [crlfLines_cons hcrlf] at h
        cases hs : crlfLines l with
        | nil => exact absurd hs (crlfLines_ne_nil l)
        | cons l' ls =>
          rw [hs] at h
          simpa using h
      have hhead : ¬ (c = '\r' ∧ (l ++ '\r' :: '\n' :: s).head? = some '\n') := by
        cases l with
        | nil => simp
        | cons d l => exact hcrlf
      rw [List.cons_append, crlfLines_cons hhead, ih hl]
      rfl

/-- The lines of a text have no CR LF. -/
theorem crlfLines_of_mem {s l : Str} (h : l ∈ crlfLines s) : crlfLines l = [l] := by
  induction s using crlf_induction generalizing l with
  | nil =>
    obtain rfl : l = [] := by simpa [crlfLines] using h
    rfl
  | crlf s ih =>
    rw [crlfLines_crlf] at h
    rcases List.mem_cons.1 h with rfl | h
    · rfl
    · exact ih h
  | cons c s hcrlf ih =>
    rw [crlfLines_cons hcrlf] at h
    cases hs : crlfLines s with
    | nil => exact absurd hs (crlfLines_ne_nil s)
    | cons l' ls =>
      rw [hs] at ih h
      rcases List.mem_cons.1 h with rfl | h
      · have hline : ¬ (c = '\r' ∧ l'.head? = some '\n') := by
          rintro ⟨rfl, hhead⟩
          refine hcrlf ⟨rfl, ?_⟩
          -- the line starts like the text
          rw [← joinLines_crlfLines s, hs]
          cases l' with
          | nil => cases hhead
          | cons d l' =>
            cases ls with
            | nil => exact hhead
            | cons l'' ls => exact hhead
        rw [crlfLines_cons hline, ih List.mem_cons_self]
        rfl
      · exact ih (List.mem_cons_of_mem _ h)

theorem crlfLines_joinLines {ls : List Str} (hne : ls ≠ []) (h : ∀ l ∈ ls, crlfLines l = [l]) :
    crlfLines (joinLines ls) = ls := by
  induction ls with
  | nil => exact absurd rfl hne
  | cons l ls ih =>
    rw [List.forall_mem_cons] at h
    cases ls with
    | nil => exact h.1
    | cons l' ls => rw [joinLines, crlfLines_append h.1, ih (by simp) h.2]

/-- A text without LF is a line. -/
theorem crlfLines_of_notMem {l : Str} (h : '\n' ∉ l) : crlfLines l = [l] := by
  induction l with
  | nil => simp [crlfLines]
  | cons c l ih =>
    rw [List.mem_cons, not_or] at h
    have hhead : ¬ (c = '\r' ∧ l.head? = some '\n') := by
      rintro ⟨-, hhead⟩
      exact h.2 (List.mem_of_mem_head? hhead)
    rw [crlfLines_cons hhead, ih h.2]
    rfl

/-! ## Heads that are written from texts -/

def isLineBreak (c : Char) : Bool := c = '\r' || c = '\n'

/-- Free of line breaks. -/
def OneLine (s : Str) : Prop := '\r' ∉ s ∧ '\n' ∉ s

instance (s : Str) : Decidable (OneLine s) := inferInstanceAs (Decidable (_ ∧ _))

/-- What a reader sees that ends a line at each CR and each LF, up to empty lines. -/
def wireLines (s : Str) : List Str := (s.splitOnP isLineBreak).filter (· ≠ [])

def lineEnd : Str := ['\r', '\n']

/-- Lines with CR LF behind each, and the blank line. -/
def headText (ls : List Str) : Str := ls.flatMap (· ++ lineEnd) ++ lineEnd

theorem headText_cons (l : Str) (ls : List Str) :
    headText (l :: ls) = l ++ (lineEnd ++ headText ls) := by
  simp [headText]

theorem oneLine_iff {s : Str} : OneLine s ↔ ∀ c ∈ s, isLineBreak c = false := by
  constructor
  · rintro ⟨hreturn, hnewline⟩ c hc
    have hne : c ≠ '\r' ∧ c ≠ '\n' :=
      ⟨fun h => hreturn (h ▸ hc), fun h => hnewline (h ▸ hc)⟩
    simp [isLineBreak, hne]
  · intro h
    constructor
    · intro hmem
      exact absurd (h _ hmem) (by decide)
    · intro hmem
      exact absurd (h _ hmem) (by decide)

theorem oneLine_append {s t : Str} : OneLine (s ++ t) ↔ OneLine s ∧ OneLine t := by
  simp only [oneLine_iff, List.forall_mem_append]

/-- The pieces of a text have none of the separators. -/
theorem of_mem_splitOnP {f : Char → Bool} {s piece : Str} (h : piece ∈ s.splitOnP f) :
    ∀ c ∈ piece, f c = false := by
  induction s generalizing piece with
  | nil =>
    obtain rfl : piece = [] := by simpa using h
    simp
  | cons a s ih =>
    rw [List.splitOnP_cons_eq_if_modifyHead] at h
    split at h
    · rcases List.mem_cons.1 h with rfl | h
      · simp
      · exact ih h
    · next ha =>
      cases hsplit : s.splitOnP f with
      | nil => simp [hsplit] at h
      | cons q qs =>
        rw [hsplit] at ih h
        rcases List.mem_cons.1 h with rfl | h
        · intro c hc
          rcases List.mem_cons.1 hc with rfl | hc
          · simpa using ha
          · exact ih List.mem_cons_self c hc
        · exact ih (List.mem_cons_of_mem q h)

theorem oneLine_of_mem_wireLines {s l : Str} (h : l ∈ wireLines s) : OneLine l :=
  oneLine_iff.2 (of_mem_splitOnP (List.mem_of_mem_filter h))

theorem wireLines_append {l : Str} (hne : l ≠ []) (h : OneLine l) (s : Str) :
    wireLines (l ++ '\r' :: '\n' :: s) = l :: wireLines s := by
  have hnone := oneLine_iff.1 h
  have hsplit : (l ++ '\r' :: '\n' :: s).splitOnP isLineBreak =
      l :: [] :: s.splitOnP isLineBreak := by
    rw [List.splitOnP_append_cons _ _ (by decide), List.splitOnP_eq_singleton hnone]
    show [l] ++ ([] ++ '\n' :: s).splitOnP isLineBreak = _
    rw [List.splitOnP_append_cons _ _ (by decide), List.splitOnP_nil]
    rfl
  rw [wireLines, hsplit, List.filter_cons_of_pos (by simpa using hne),
    List.filter_cons_of_neg (by simp), wireLines]

/-- The lines are read as they are exactly when none of them has a break. -/
theorem wireLines_headText {ls : List Str} (hne : ∀ l ∈ ls, l ≠ []) :
    wireLines (headText ls) = ls ↔ ∀ l ∈ ls, OneLine l := by
  constructor
  · intro h l hl
    rw [← h] at hl
    exact oneLine_of_mem_wireLines hl
  · intro h
    induction ls with
    | nil => rfl
    | cons l ls ih =>
      rw [List.forall_mem_cons] at hne h
      rw [headText_cons]
      show wireLines (l ++ '\r' :: '\n' :: headText ls) = _
      rw [wireLines_append hne.1 h.1, ih hne.2 h.2]

/-! ## Chunked bodies -/

/-- `{:X}` -/
def hexSize (n : Nat) : Str := (Nat.toDigits 16 n).map Char.toUpper

/-- Size, data and line ends. -/
def chunk (data : Bytes) : Bytes :=
  utf8 (hexSize data.length) ++ crlfBytes ++ data ++ crlfBytes

/-- `Transfer-Encoding: chunked`: the chunks, and a last one of size zero. -/
def chunked (chunks : List Bytes) : Bytes := chunks.flatMap chunk ++ utf8 ['0'] ++ blankBytes

/-- `0` to `9` and `A` to `F` -/
def isSizeDigit (b : UInt8) : Bool := (0x30 ≤ b && b ≤ 0x39) || (0x41 ≤ b && b ≤ 0x46)

theorem sizeDigit_digitChar {d : Nat} (hd : d < 16) :
    ∀ b ∈ String.utf8EncodeChar (Nat.digitChar d).toUpper, isSizeDigit b = true := by
  have hall : (List.range 16).all fun d =>
      (String.utf8EncodeChar (Nat.digitChar d).toUpper).all isSizeDigit := by decide
  exact List.all_eq_true.1 (List.all_eq_true.1 hall d (List.mem_range.2 hd))

theorem exists_cons_toDigits (n : Nat) :
    ∃ d rest, d < 16 ∧ Nat.toDigits 16 n = Nat.digitChar d :: rest := by
  induction n using Nat.strongRecOn with
  | ind n ih =>
    by_cases hn : n < 16
    · exact ⟨n, [], hn, Nat.toDigits_of_lt_base hn⟩
    · rcases ih (n / 16) (by omega) with ⟨d, rest, hd, hdigits⟩
      refine ⟨d, rest ++ [Nat.digitChar (n % 16)], hd, ?_⟩
      rw [Nat.toDigits_of_base_le (by decide) (by omega), hdigits, List.cons_append]

/-- A chunked body starts with a digit. -/
theorem exists_cons_chunked (chunks : List Bytes) :
    ∃ b rest, chunked chunks = b :: rest ∧ isSizeDigit b = true := by
  cases chunks with
  | nil => exact ⟨0x30, blankBytes, rfl, rfl⟩
  | cons data chunks =>
    rcases exists_cons_toDigits data.length with ⟨d, digits, hd, hdigits⟩
    rcases utf8EncodeChar_shape (Nat.digitChar d).toUpper with ⟨b, bs, _, _, hshape, -, -⟩
    have hdigit : isSizeDigit b = true := sizeDigit_digitChar hd b (by simp [hshape])
    rw [chunked, List.flatMap_cons, chunk, hexSize, hdigits, List.map_cons, utf8_cons, hshape]
    exact ⟨b, _, rfl, hdigit⟩

/-! ## Arrival -/

/-- How a byte stream comes out of reads into a buffer of `cap` bytes. -/
structure Arrival (cap : Nat) where
  pieces : Bytes → List Bytes
  flatten_pieces : ∀ wire, (pieces wire).flatten = wire
  piece_ne_nil : ∀ wire, ∀ p ∈ pieces wire, p ≠ []
  piece_le : ∀ wire, ∀ p ∈ pieces wire, p.length ≤ cap

theorem flatten_map_singleton (wire : Bytes) : (wire.map fun b => [b]).flatten = wire := by
  induction wire with
  | nil => rfl
  | cons b wire ih => rw [List.map_cons, List.flatten_cons, ih, List.singleton_append]

/-- Every read returns one byte. -/
def bytewise {cap : Nat} (hcap : 0 < cap) : Arrival cap where
  pieces wire := wire.map fun b => [b]
  flatten_pieces := flatten_map_singleton
  piece_ne_nil := by
    intro wire p hp
    rcases List.mem_map.1 hp with ⟨b, -, rfl⟩
    exact List.cons_ne_nil b []
  piece_le := by
    intro wire p hp
    rcases List.mem_map.1 hp with ⟨b, -, rfl⟩
    exact hcap

end HomeTier.Lib
