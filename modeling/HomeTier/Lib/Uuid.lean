import Mathlib.Algebra.Ring.Nat
import HomeTier.Lib.Codec

/-! # Numbers of fixed width in hexadecimal, and UUID texts

A number below `16 ^ k` is written with `k` digits and read back from them. A
UUID is a number of 128 bits; it is written in five groups joined by hyphens,
36 characters in all, and read in any of the forms that the `uuid` crate knows:
plain, hyphenated, with braces, or as a URN.
-/

namespace HomeTier.Lib

/-- The last `k` hexadecimal digits of a number. -/
def hexFixed : Nat → Nat → Str
  | 0, _ => []
  | k + 1, n => hexFixed k (n / 16) ++ [hexDigit (n % 16)]

/-- The value of a text of hexadecimal digits. -/
def readHex (s : Str) : Option Nat :=
  s.foldl (fun acc c => acc.bind fun n => (hexValue c).map (16 * n + ·)) (some 0)

@[simp] theorem length_hexFixed (k n : Nat) : (hexFixed k n).length = k := by
  induction k generalizing n with
  | zero => rfl
  | succ k ih => simp [hexFixed, ih]

theorem mem_hexDigits_of_mem_hexFixed {k n : Nat} {c : Char} (h : c ∈ hexFixed k n) :
    c ∈ hexDigits := by
  induction k generalizing n with
  | zero => simp [hexFixed] at h
  | succ k ih =>
    rw [hexFixed, List.mem_append, List.mem_singleton] at h
    rcases h with h | rfl
    · exact ih h
    · exact hexDigit_mem _

theorem readHex_hexFixed (k : Nat) {n : Nat} (h : n < 16 ^ k) :
    readHex (hexFixed k n) = some n := by
  induction k generalizing n with
  | zero =>
    obtain rfl : n = 0 := by simpa using h
    rfl
  | succ k ih =>
    have hlt : n / 16 < 16 ^ k := by
      rw [pow_succ] at h
      omega
    have hsum : 16 * (n / 16) + n % 16 = n := by omega
    rw [hexFixed, readHex, List.foldl_append]
    show ((readHex (hexFixed k (n / 16))).bind _) = _
    rw [ih hlt, Option.bind_some, hexValue_hexDigit _ (Nat.mod_lt n (by decide)), Option.map_some,
      hsum]

/-! ## UUIDs -/

/-- The form of 32 digits. -/
def uuidSimple (id : BitVec 128) : Str := hexFixed 32 id.toNat

/-- Groups of 8, 4, 4, 4 and 12 digits joined by hyphens. -/
def hyphenate (s : Str) : Str :=
  s.take 8 ++ '-' :: (s.drop 8).take 4 ++ '-' :: (s.drop 12).take 4 ++
    '-' :: (s.drop 16).take 4 ++ '-' :: s.drop 20

/-- `Display` of a UUID: the hyphenated form. -/
def uuidText (id : BitVec 128) : Str := hyphenate (uuidSimple id)

/-- The digits of a hyphenated text, `none` where a hyphen is missing. -/
def unhyphenate (s : Str) : Option Str :=
  if s.length = 36 ∧ s[8]? = some '-' ∧ s[13]? = some '-' ∧ s[18]? = some '-' ∧ s[23]? = some '-'
  then some (s.take 8 ++ (s.drop 9).take 4 ++ (s.drop 14).take 4 ++ (s.drop 19).take 4 ++
    s.drop 24)
  else none

/-- `Uuid::parse_str` -/
def parseUuid (s : Str) : Option (BitVec 128) :=
  let inner :=
    if s.length = 38 ∧ s.head? = some '\x7b' ∧ s.getLast? = some '\x7d' then s.tail.dropLast
    else (s.dropPrefix? "urn:uuid:".toList).getD s
  let digits := if s.length = 32 then some s else unhyphenate inner
  (digits.bind readHex).map (BitVec.ofNat 128)

theorem hyphenate_append {a b c d e : Str} (ha : a.length = 8) (hb : b.length = 4)
    (hc : c.length = 4) (hd : d.length = 4) :
    hyphenate (a ++ (b ++ (c ++ (d ++ e)))) =
      a ++ '-' :: (b ++ '-' :: (c ++ '-' :: (d ++ '-' :: e))) := by
  simp [hyphenate, List.drop_append, ha, hb, hc, hd, List.drop_eq_nil_of_le]

/-- A text of 32 characters in its five groups. -/
theorem exists_groups {s : Str} (h : s.length = 32) :
    ∃ a b c d e : Str, s = a ++ (b ++ (c ++ (d ++ e))) ∧ a.length = 8 ∧ b.length = 4 ∧
      c.length = 4 ∧ d.length = 4 ∧ e.length = 12 := by
  have hgroup : ∀ n k, (s.drop n).take k ++ s.drop (n + k) = s.drop n := by
    intro n k
    rw [← List.drop_drop, List.take_append_drop]
  refine ⟨s.take 8, (s.drop 8).take 4, (s.drop 12).take 4, (s.drop 16).take 4, s.drop 20,
    ?_, ?_, ?_, ?_, ?_, ?_⟩
  · rw [hgroup 16 4, hgroup 12 4, hgroup 8 4, List.take_append_drop]
  all_goals simp [h]

theorem unhyphenate_hyphenate {s : Str} (h : s.length = 32) :
    unhyphenate (hyphenate s) = some s ∧ (hyphenate s).length = 36 := by
  rcases exists_groups h with ⟨a, b, c, d, e, rfl, ha, hb, hc, hd, he⟩
  rw [hyphenate_append ha hb hc hd]
  constructor
  · simp [unhyphenate, ha, hb, hc, hd, he, List.drop_append, List.drop_eq_nil_of_le]
  · simp [ha, hb, hc, hd, he]

@[simp] theorem length_uuidText (id : BitVec 128) : (uuidText id).length = 36 :=
  (unhyphenate_hyphenate (length_hexFixed 32 _)).2

theorem parseUuid_uuidText (id : BitVec 128) : parseUuid (uuidText id) = some id := by
  have hlen : (uuidSimple id).length = 32 := length_hexFixed 32 _
  have hhyph := unhyphenate_hyphenate hlen
  have hvalue : readHex (uuidSimple id) = some id.toNat := readHex_hexFixed 32 id.isLt
  -- a digit stands in front, so the text is no URN
  have hurn : (uuidText id).dropPrefix? "urn:uuid:".toList = none := by
    rcases exists_groups hlen with ⟨a, b, c, d, e, hgroups, ha, hb, hc, hd, he⟩
    obtain ⟨x, a, rfl⟩ := List.exists_cons_of_length_eq_add_one ha
    have hx : x ∈ hexDigits := mem_hexDigits_of_mem_hexFixed (k := 32) (n := id.toNat) (by
      show x ∈ uuidSimple id
      simp [hgroups])
    rw [Option.eq_none_iff_forall_ne_some]
    intro rest hrest
    rw [List.dropPrefix?_eq_some_iff] at hrest
    rcases hrest with ⟨pre, heq, hpre⟩
    obtain rfl : pre = "urn:uuid:".toList := by simpa using hpre
    rw [uuidText, hgroups, hyphenate_append ha hb hc hd] at heq
    obtain ⟨rfl, -⟩ := List.cons.inj heq
    exact absurd hx (by decide)
  have h38 : ¬ ((uuidText id).length = 38 ∧ (uuidText id).head? = some '\x7b' ∧
      (uuidText id).getLast? = some '\x7d') := by
    rintro ⟨h, -⟩
    simp at h
  have h32 : ¬ (uuidText id).length = 32 := by simp
  rw [parseUuid, if_neg h38, if_neg h32, hurn, Option.getD_none, uuidText, hhyph.1,
    Option.bind_some, hvalue, Option.map_some, BitVec.ofNat_toNat, BitVec.setWidth_eq]

theorem mem_of_mem_hyphenate {c : Char} {s : Str} (h : c ∈ hyphenate s) : c ∈ s ∨ c = '-' := by
  have htake : ∀ n k, c ∈ (s.drop n).take k → c ∈ s := by
    intro n k hc
    exact List.mem_of_mem_drop (List.mem_of_mem_take hc)
  simp only [hyphenate, List.mem_append, List.mem_cons] at h
  rcases h with ((((h | rfl | h) | rfl | h) | rfl | h) | rfl | h)
  · exact .inl (List.mem_of_mem_take h)
  · exact .inr rfl
  · exact .inl (htake _ _ h)
  · exact .inr rfl
  · exact .inl (htake _ _ h)
  · exact .inr rfl
  · exact .inl (htake _ _ h)
  · exact .inr rfl
  · exact .inl (List.mem_of_mem_drop h)

/-- A property of the digits and of the hyphen holds throughout a UUID. -/
theorem forall_mem_uuidText {P : Char → Prop} (hdigit : ∀ c ∈ hexDigits, P c) (hhyphen : P '-')
    (id : BitVec 128) : ∀ c ∈ uuidText id, P c := by
  intro c hc
  rcases mem_of_mem_hyphenate hc with hc | rfl
  · exact hdigit c (mem_hexDigits_of_mem_hexFixed hc)
  · exact hhyphen

theorem uuidText_injective : Function.Injective uuidText := by
  intro a b h
  have hparse := parseUuid_uuidText a
  rw [h, parseUuid_uuidText] at hparse
  exact (Option.some.inj hparse).symm

end HomeTier.Lib
