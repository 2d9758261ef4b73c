import HomeTier.Lib.Text

/-! # Hexadecimal and base64url text

Lower-case hexadecimal, read back in either case, and base64 with the URL-safe
alphabet and no padding, read back strictly: a length of `4k + 1`, a character
outside the alphabet or non-zero trailing bits are refused. Both decoders
invert their encoders (`hexDecode_hexEncode`, `base64UrlDecode_encode`).
-/

namespace HomeTier.Lib

/-! ## Hexadecimal -/

def hexDigits : Str :=
  ['0', '1', '2', '3', '4', '5', '6', '7', '8', '9', 'a', 'b', 'c', 'd', 'e', 'f']

/-- The lower-case digit of a value below 16. -/
def hexDigit (n : Nat) : Char := hexDigits.getD n '0'

/-- The value of a digit of either case. -/
def hexValue (c : Char) : Option Nat :=
  if '0' ≤ c ∧ c ≤ '9' then some (c.toNat - '0'.toNat)
  else if 'a' ≤ c ∧ c ≤ 'f' then some (c.toNat - 'a'.toNat + 10)
  else if 'A' ≤ c ∧ c ≤ 'F' then some (c.toNat - 'A'.toNat + 10)
  else none

/-- Two digits a byte, high digit first. -/
def hexEncode : Bytes → Str
  | [] => []
  | b :: bs => hexDigit (b.toNat / 16) :: hexDigit (b.toNat % 16) :: hexEncode bs

theorem hexEncode_length (bs : Bytes) : (hexEncode bs).length = 2 * bs.length := by
  induction bs with
  | nil => rfl
  | cons b bs ih =>
    simp only [hexEncode, List.length_cons, ih]
    omega

/-- Inverse of `hexEncode`; `none` for an odd length or a non-digit. -/
def hexDecode : Str → Option Bytes
  | [] => some []
  | [_] => none
  | h :: l :: rest =>
    match hexValue h, hexValue l, hexDecode rest with
    | some h, some l, some bs => some (UInt8.ofNat (16 * h + l) :: bs)
    | _, _, _ => none

theorem hexDigit_mem (n : Nat) : hexDigit n ∈ hexDigits := by
  rw [hexDigit, List.getD_eq_getElem?_getD]
  cases hn : hexDigits[n]? with
  | none => decide
  | some c => exact List.mem_of_getElem? hn

/-- Hexadecimal text is made of digits. -/
theorem mem_hexDigits_of_mem_encode (bs : Bytes) : ∀ c ∈ hexEncode bs, c ∈ hexDigits := by
  induction bs with
  | nil => simp [hexEncode]
  | cons b bs ih =>
    simp only [hexEncode, List.forall_mem_cons]
    exact ⟨hexDigit_mem _, hexDigit_mem _, ih⟩

theorem hexValue_hexDigit : ∀ n < 16, hexValue (hexDigit n) = some n := by
  decide

@[simp] theorem hexDecode_hexEncode (bs : Bytes) : hexDecode (hexEncode bs) = some bs := by
  induction bs with
  | nil => rfl
  | cons b bs ih =>
    have hb : b.toNat < 256 := b.toNat_lt
    have hhi := hexValue_hexDigit (b.toNat / 16) (by omega)
    have hlo := hexValue_hexDigit (b.toNat % 16) (by omega)
    have hsum : 16 * (b.toNat / 16) + b.toNat % 16 = b.toNat := by omega
    simp only [hexEncode, hexDecode, hhi, hlo, ih, hsum, UInt8.ofNat_toNat]

/-! ## Base64url -/

def base64UrlAlphabet : Str :=
  ['A', 'B', 'C', 'D', 'E', 'F', 'G', 'H', 'I', 'J', 'K', 'L', 'M', 'N', 'O', 'P',
   'Q', 'R', 'S', 'T', 'U', 'V', 'W', 'X', 'Y', 'Z', 'a', 'b', 'c', 'd', 'e', 'f',
   'g', 'h', 'i', 'j', 'k', 'l', 'm', 'n', 'o', 'p', 'q', 'r', 's', 't', 'u', 'v',
   'w', 'x', 'y', 'z', '0', '1', '2', '3', '4', '5', '6', '7', '8', '9', '-', '_']

/-- The character of a sextet. -/
def sextetChar (n : Nat) : Char := base64UrlAlphabet.getD n 'A'

/-- The sextet of a character of the alphabet. -/
def charSextet (c : Char) : Option Nat :=
  let i := base64UrlAlphabet.idxOf c
  if i < 64 then some i else none

/-- Three bytes a group of four characters, without padding. -/
def base64UrlEncode : Bytes → Str
  | [] => []
  | [a] => [sextetChar (a.toNat / 4), sextetChar (a.toNat % 4 * 16)]
  | [a, b] =>
    [sextetChar (a.toNat / 4), sextetChar (a.toNat % 4 * 16 + b.toNat / 16),
     sextetChar (b.toNat % 16 * 4)]
  | a :: b :: c :: rest =>
    sextetChar (a.toNat / 4) :: sextetChar (a.toNat % 4 * 16 + b.toNat / 16) ::
      sextetChar (b.toNat % 16 * 4 + c.toNat / 64) :: sextetChar (c.toNat % 64) ::
      base64UrlEncode rest

/-- Strict inverse of `base64UrlEncode`. -/
def base64UrlDecode : Str → Option Bytes
  | [] => some []
  | [_] => none
  | [w, x] =>
    match charSextet w, charSextet x with
    | some w, some x => if x % 16 = 0 then some [UInt8.ofNat (w * 4 + x / 16)] else none
    | _, _ => none
  | [w, x, y] =>
    match charSextet w, charSextet x, charSextet y with
    | some w, some x, some y =>
      if y % 4 = 0 then
        some [UInt8.ofNat (w * 4 + x / 16), UInt8.ofNat (x % 16 * 16 + y / 4)]
      else none
    | _, _, _ => none
  | w :: x :: y :: z :: rest =>
    match charSextet w, charSextet x, charSextet y, charSextet z, base64UrlDecode rest with
    | some w, some x, some y, some z, some bs =>
      some (UInt8.ofNat (w * 4 + x / 16) :: UInt8.ofNat (x % 16 * 16 + y / 4) ::
        UInt8.ofNat (y % 4 * 64 + z) :: bs)
    | _, _, _, _, _ => none

theorem sextetChar_mem (n : Nat) : sextetChar n ∈ base64UrlAlphabet := by
  rw [sextetChar, List.getD_eq_getElem?_getD]
  cases hn : base64UrlAlphabet[n]? with
  | none => decide
  | some c => exact List.mem_of_getElem? hn

/-- Encoded text is made of characters of the alphabet. -/
theorem mem_alphabet_of_mem_encode (bs : Bytes) :
    ∀ c ∈ base64UrlEncode bs, c ∈ base64UrlAlphabet := by
  induction bs using base64UrlEncode.induct with
  | case1 => simp [base64UrlEncode]
  | case2 a => simp [base64UrlEncode, sextetChar_mem]
  | case3 a b => simp [base64UrlEncode, sextetChar_mem]
  | case4 a b c rest ih =>
    simp only [base64UrlEncode, List.forall_mem_cons]
    exact ⟨sextetChar_mem _, sextetChar_mem _, sextetChar_mem _, sextetChar_mem _, ih⟩

theorem charSextet_sextetChar : ∀ n < 64, charSextet (sextetChar n) = some n := by
  decide

/-- A byte is determined by its value. -/
theorem ofNat_eq_of_eq_toNat {n : Nat} {b : UInt8} (h : n = b.toNat) : UInt8.ofNat n = b := by
  rw [h, UInt8.ofNat_toNat]

@[simp] theorem base64UrlDecode_encode (bs : Bytes) :
    base64UrlDecode (base64UrlEncode bs) = some bs := by
  induction bs using base64UrlEncode.induct with
  | case1 => rfl
  | case2 a =>
    have ha : a.toNat < 256 := a.toNat_lt
    have h₁ : a.toNat / 4 * 4 + a.toNat % 4 * 16 / 16 = a.toNat := by omega
    simp only [base64UrlEncode, base64UrlDecode, charSextet_sextetChar (a.toNat / 4) (by omega),
      charSextet_sextetChar (a.toNat % 4 * 16) (by omega), Nat.mul_mod_left, if_pos,
      ofNat_eq_of_eq_toNat h₁]
  | case3 a b =>
    have ha : a.toNat < 256 := a.toNat_lt
    have hb : b.toNat < 256 := b.toNat_lt
    have h₁ : a.toNat / 4 * 4 + (a.toNat % 4 * 16 + b.toNat / 16) / 16 = a.toNat := by omega
    have h₂ : (a.toNat % 4 * 16 + b.toNat / 16) % 16 * 16 + b.toNat % 16 * 4 / 4 = b.toNat := by
      omega
    simp only [base64UrlEncode, base64UrlDecode, charSextet_sextetChar (a.toNat / 4) (by omega),
      charSextet_sextetChar (a.toNat % 4 * 16 + b.toNat / 16) (by omega),
      charSextet_sextetChar (b.toNat % 16 * 4) (by omega), Nat.mul_mod_left, if_pos,
      ofNat_eq_of_eq_toNat h₁, ofNat_eq_of_eq_toNat h₂]
  | case4 a b c rest ih =>
    have ha : a.toNat < 256 := a.toNat_lt
    have hb : b.toNat < 256 := b.toNat_lt
    have hc : c.toNat < 256 := c.toNat_lt
    have h₁ : a.toNat / 4 * 4 + (a.toNat % 4 * 16 + b.toNat / 16) / 16 = a.toNat := by omega
    have h₂ : (a.toNat % 4 * 16 + b.toNat / 16) % 16 * 16 +
        (b.toNat % 16 * 4 + c.toNat / 64) / 4 = b.toNat := by omega
    have h₃ : (b.toNat % 16 * 4 + c.toNat / 64) % 4 * 64 + c.toNat % 64 = c.toNat := by omega
    simp only [base64UrlEncode, base64UrlDecode, charSextet_sextetChar (a.toNat / 4) (by omega),
      charSextet_sextetChar (a.toNat % 4 * 16 + b.toNat / 16) (by omega),
      charSextet_sextetChar (b.toNat % 16 * 4 + c.toNat / 64) (by omega),
      charSextet_sextetChar (c.toNat % 64) (by omega), ih,
      ofNat_eq_of_eq_toNat h₁, ofNat_eq_of_eq_toNat h₂, ofNat_eq_of_eq_toNat h₃]

end HomeTier.Lib
