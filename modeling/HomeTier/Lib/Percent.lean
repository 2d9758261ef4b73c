import HomeTier.Lib.Codec
import HomeTier.Lib.Utf8

/-! # Percent encoding

A text is encoded byte by byte; the characters in `keep` stay as they are. The
decoder takes a percent sign that no two digits follow as it is, and refuses
what is not UTF-8 then. It inverts every encoder that encodes the percent sign
(`percentDecode_percentEncode`), and never makes a text longer.
-/

namespace HomeTier.Lib

def upperHexDigits : Str :=
  ['0', '1', '2', '3', '4', '5', '6', '7', '8', '9', 'A', 'B', 'C', 'D', 'E', 'F']

def upperHexDigit (n : Nat) : Char := upperHexDigits.getD n '0'

/-- One byte of an encoded text. -/
def escapeByte (keep : Char → Bool) (b : UInt8) : Str :=
  if b.toNat < 128 ∧ keep (Char.ofNat b.toNat) = true then [Char.ofNat b.toNat]
  else ['%', upperHexDigit (b.toNat / 16), upperHexDigit (b.toNat % 16)]

def percentEncode (keep : Char → Bool) (s : Str) : Str := (utf8 s).flatMap (escapeByte keep)

/-- The value of a digit, as a byte. -/
def hexByte (b : UInt8) : Option Nat := hexValue (Char.ofNat b.toNat)

def unescape : Bytes → Bytes
  | [] => []
  | [b] => [b]
  | [b, c] => [b, c]
  | b :: h :: l :: rest =>
    if b = 37 then
      match hexByte h, hexByte l with
      | some x, some y => UInt8.ofNat (16 * x + y) :: unescape rest
      | _, _ => b :: unescape (h :: l :: rest)
    else b :: unescape (h :: l :: rest)

def percentDecode (s : Str) : Option Str := fromUtf8 (unescape (utf8 s))

/-! ## Round trip -/

/-- An ASCII character is its own byte. -/
theorem utf8_ascii {b : UInt8} (h : b.toNat < 128) : utf8 [Char.ofNat b.toNat] = [b] := by
  have hall : ∀ n < 128, utf8 [Char.ofNat n] = [UInt8.ofNat n] := by decide
  rw [hall b.toNat h, UInt8.ofNat_toNat]

theorem unescape_cons {b : UInt8} (h : b ≠ 37) (rest : Bytes) :
    unescape (b :: rest) = b :: unescape rest := by
  cases rest with
  | nil => rfl
  | cons c rest =>
    cases rest with
    | nil => rfl
    | cons d rest => rw [unescape, if_neg h]

theorem utf8_upperHexDigit : ∀ n < 16,
    ∃ d, utf8 [upperHexDigit n] = [d] ∧ hexByte d = some n := by
  intro n hn
  have hall : ∀ n < 16, ((utf8 [upperHexDigit n]).length = 1 ∧
      (utf8 [upperHexDigit n]).head?.bind hexByte = some n) := by decide
  rcases hall n hn with ⟨hlength, hvalue⟩
  rcases List.length_eq_one_iff.1 hlength with ⟨d, hd⟩
  rw [hd] at hvalue
  exact ⟨d, hd, hvalue⟩

/-- A byte is read back. -/
theorem unescape_escapeByte {keep : Char → Bool} (hkeep : keep '%' = false) (b : UInt8)
    (rest : Bytes) : unescape (utf8 (escapeByte keep b) ++ rest) = b :: unescape rest := by
  unfold escapeByte
  split
  · rename_i hplain
    have hne : b ≠ 37 := by
      rintro rfl
      rw [show Char.ofNat (37 : UInt8).toNat = '%' from rfl, hkeep] at hplain
      exact absurd hplain.2 (by simp)
    rw [utf8_ascii hplain.1]
    exact unescape_cons hne rest
  · have hlt := b.toNat_lt
    rcases utf8_upperHexDigit (b.toNat / 16) (by omega) with ⟨h, hh, hhigh⟩
    rcases utf8_upperHexDigit (b.toNat % 16) (by omega) with ⟨l, hl, hlow⟩
    have hbytes : utf8 ['%', upperHexDigit (b.toNat / 16), upperHexDigit (b.toNat % 16)] =
        [37, h, l] := by
      have hparts := congrArg₂ (· ++ ·) hh hl
      rw [← utf8_append] at hparts
      have hall := congrArg (fun t => utf8 ['%'] ++ t) hparts
      rw [← utf8_append] at hall
      exact hall
    have hbyte : UInt8.ofNat (16 * (b.toNat / 16) + b.toNat % 16) = b := by
      rw [Nat.div_add_mod, UInt8.ofNat_toNat]
    rw [hbytes, List.cons_append, List.cons_append, List.cons_append, List.nil_append, unescape,
      if_pos rfl, hhigh, hlow]
    show UInt8.ofNat _ :: _ = _
    rw [hbyte]

theorem unescape_flatMap {keep : Char → Bool} (hkeep : keep '%' = false) (bs : Bytes) :
    unescape (utf8 (bs.flatMap (escapeByte keep))) = bs := by
  induction bs with
  | nil => rfl
  | cons b bs ih => rw [List.flatMap_cons, utf8_append, unescape_escapeByte hkeep, ih]

theorem percentDecode_percentEncode {keep : Char → Bool} (hkeep : keep '%' = false) (s : Str) :
    percentDecode (percentEncode keep s) = some s := by
  rw [percentDecode, percentEncode, unescape_flatMap hkeep]
  exact fromUtf8_eq_some.2 rfl

/-! ## Characters and length -/

/-- An encoded text has no characters but those kept, digits and percent signs. -/
theorem mem_percentEncode {keep : Char → Bool} {s : Str} {c : Char}
    (h : c ∈ percentEncode keep s) :
    keep c = true ∨ c = '%' ∨ c ∈ upperHexDigits := by
  have hdigit : ∀ n, upperHexDigit n ∈ upperHexDigits := by
    intro n
    rw [upperHexDigit, List.getD_eq_getElem?_getD]
    cases hn : upperHexDigits[n]? with
    | none => decide
    | some d => exact List.mem_of_getElem? hn
  rcases List.mem_flatMap.1 h with ⟨b, -, hc⟩
  unfold escapeByte at hc
  split at hc
  · rename_i hplain
    rw [List.mem_singleton.1 hc]
    exact .inl hplain.2
  · simp only [List.mem_cons, List.not_mem_nil, or_false] at hc
    rcases hc with rfl | rfl | rfl
    · exact .inr (.inl rfl)
    · exact .inr (.inr (hdigit _))
    · exact .inr (.inr (hdigit _))

theorem length_unescape_le (bs : Bytes) : (unescape bs).length ≤ bs.length := by
  induction bs using unescape.induct with
  | case1 => exact le_rfl
  | case2 => exact le_rfl
  | case3 => exact le_rfl
  | case4 h l rest x y hx hy ih =>
    rw [unescape, if_pos rfl, hx, hy]
    simp only [List.length_cons]
    omega
  | case5 h l rest hnone ih =>
    rw [unescape, if_pos rfl]
    split
    · rename_i x y hx hy
      exact absurd hy (hnone x y hx)
    · simp only [List.length_cons] at ih ⊢
      omega
  | case6 b h l rest hne ih =>
    rw [unescape, if_neg hne]
    simp only [List.length_cons] at ih ⊢
    omega

/-- Decoding makes no text longer, in bytes. -/
theorem length_percentDecode_le {s t : Str} (h : percentDecode s = some t) :
    (utf8 t).length ≤ (utf8 s).length := by
  rw [fromUtf8_eq_some.1 h]
  exact length_unescape_le _

end HomeTier.Lib
