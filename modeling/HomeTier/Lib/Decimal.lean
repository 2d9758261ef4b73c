import Mathlib.Algebra.Ring.Nat
import HomeTier.Lib.Text

/-! # Decimal numbers

`parse` of the integer types reads an optional sign and at least one digit, and
refuses what does not fit its type. Writing a number and reading it back gives
the number.
-/

namespace HomeTier.Lib

/-- How an unsigned number is written. -/
def decimal (n : Nat) : Str := Nat.toDigits 10 n

/-- How a signed number is written. -/
def decimalInt : Int → Str
  | .ofNat n => decimal n
  | .negSucc n => '-' :: decimal (n + 1)

/-- At least one digit, and nothing else. -/
def parseDigits (s : Str) : Option Nat :=
  if s ≠ [] ∧ s.all Char.isDigit then some (Nat.ofDigitChars 10 s 0) else none

/-- The text behind a plus sign. -/
def dropPlus : Str → Str
  | '+' :: t => t
  | s => s

/-- `parse` of an unsigned type below `bound`. -/
def parseUnsigned (bound : Nat) (s : Str) : Option Nat :=
  match parseDigits (dropPlus s) with
  | some n => if n < bound then some n else none
  | none => none

/-- `parse` of a signed type from `-half` to below `half`. -/
def parseSigned (half : Nat) : Str → Option Int
  | '-' :: s =>
    match parseDigits s with
    | some n => if n ≤ half then some (-n) else none
    | none => none
  | s => (parseUnsigned half s).map Int.ofNat

def parseU16 (s : Str) : Option UInt16 := (parseUnsigned (2 ^ 16) s).map UInt16.ofNat

def parseU32 (s : Str) : Option UInt32 := (parseUnsigned (2 ^ 32) s).map UInt32.ofNat

def parseI32 (s : Str) : Option Int32 := (parseSigned (2 ^ 31) s).map Int32.ofInt

def parseI64 (s : Str) : Option Int := parseSigned (2 ^ 63) s

theorem decimal_ne_nil (n : Nat) : decimal n ≠ [] := Nat.toDigits_ne_nil

theorem isDigit_of_mem_decimal {n : Nat} {c : Char} (h : c ∈ decimal n) : c.isDigit = true :=
  Nat.isDigit_of_mem_toDigits (by decide) (by decide) h

theorem isWhitespace_of_isDigit {c : Char} (h : c.isDigit = true) : isWhitespace c = false := by
  have hrange : 48 ≤ c.toNat ∧ c.toNat ≤ 57 := by
    simpa [Char.isDigit, UInt32.le_iff_toNat_le] using h
  have hlow : ¬ c.toNat ≤ 13 := by omega
  unfold isWhitespace
  simp only [Bool.or_eq_false_iff, Bool.and_eq_false_iff, decide_eq_false_iff_not,
    beq_eq_false_iff_ne]
  omega

theorem isWhitespace_decimal {n : Nat} {c : Char} (h : c ∈ decimal n) : isWhitespace c = false :=
  isWhitespace_of_isDigit (isDigit_of_mem_decimal h)

@[simp] theorem trim_decimal (n : Nat) : trim (decimal n) = decimal n :=
  trim_eq_self fun _ h => isWhitespace_decimal h

theorem parseDigits_decimal (n : Nat) : parseDigits (decimal n) = some n := by
  have hall : (decimal n).all Char.isDigit = true := by
    rw [List.all_eq_true]
    intro c hc
    exact isDigit_of_mem_decimal hc
  rw [parseDigits, if_pos ⟨decimal_ne_nil n, hall⟩, decimal,
    Nat.ofDigitChars_toDigits (by decide) (by decide)]

theorem decimal_injective : Function.Injective decimal := by
  intro m n h
  have hparse := congrArg parseDigits h
  rw [parseDigits_decimal, parseDigits_decimal] at hparse
  exact Option.some.inj hparse

/-- Digits without a leading zero are how their number is written. -/
theorem decimal_ofDigitChars {s : Str} (hne : s ≠ []) (hdigits : ∀ c ∈ s, c.isDigit = true)
    (hzero : s.head? ≠ some '0' ∨ s = ['0']) : decimal (Nat.ofDigitChars 10 s 0) = s := by
  have hdigit : ∀ c : Char, c.isDigit = true →
      c.toNat - 48 < 10 ∧ Nat.digitChar (c.toNat - 48) = c := by
    intro c hc
    have hrange : 48 ≤ c.toNat ∧ c.toNat ≤ 57 := by
      simpa [Char.isDigit, UInt32.le_iff_toNat_le] using hc
    have hlt : c.toNat - 48 < 10 := by omega
    refine ⟨hlt, Char.toNat_inj.1 ?_⟩
    rw [Nat.toNat_digitChar_of_lt_ten hlt]
    omega
  -- the last digit is the remainder, the digits in front of it the quotient
  induction s using List.reverseRecOn with
  | nil => exact absurd rfl hne
  | append_singleton l c ih =>
    rcases hdigit c (hdigits c (by simp)) with ⟨hlt, hchar⟩
    have hvalue : Nat.ofDigitChars 10 (l ++ [c]) 0 =
        10 * Nat.ofDigitChars 10 l 0 + (c.toNat - 48) := by
      rw [Nat.ofDigitChars_append, Nat.ofDigitChars_cons, Nat.ofDigitChars_nil]
      rfl
    have hlast : Nat.toDigits 10 (c.toNat - 48) = [c] := by
      rw [Nat.toDigits_of_lt_base hlt, hchar]
    rw [hvalue]
    by_cases hl : l = []
    · subst hl
      rw [Nat.ofDigitChars_nil, Nat.mul_zero, Nat.zero_add]
      exact hlast
    · have hhead : l.head? ≠ some '0' := by
        rcases hzero with hzero | hzero
        · rwa [List.head?_append_of_ne_nil l hl] at hzero
        · have hlength := congrArg List.length hzero
          simp only [List.length_append, List.length_singleton] at hlength
          exact absurd (List.length_eq_zero_iff.1 (by omega)) hl
      have hfront := ih hl (fun d hd => hdigits d (by simp [hd])) (.inl hhead)
      have hpos : 0 < Nat.ofDigitChars 10 l 0 := by
        by_contra hnot
        rw [Nat.eq_zero_of_not_pos hnot] at hfront
        rw [← hfront] at hhead
        exact hhead rfl
      rw [decimal, ← Nat.toDigits_append_toDigits (by omega) hpos hlt, hlast]
      exact congrArg (· ++ [c]) hfront

/-- Reading depends on the type only through its bound. -/
theorem parseUnsigned_eq_some {bound n : Nat} {s : Str} :
    parseUnsigned bound s = some n ↔ parseDigits (dropPlus s) = some n ∧ n < bound := by
  rw [parseUnsigned]
  cases parseDigits (dropPlus s) with
  | none => simp
  | some k =>
    by_cases hk : k < bound
    · simp only [hk, if_true, Option.some.injEq]
      constructor
      · rintro rfl
        exact ⟨rfl, hk⟩
      · intro h
        exact h.1
    · simp only [hk, if_false, Option.some.injEq, reduceCtorEq, false_iff]
      rintro ⟨rfl, hlt⟩
      exact hk hlt

theorem parseUnsigned_decimal {bound n : Nat} (h : n < bound) :
    parseUnsigned bound (decimal n) = some n := by
  have hhead : dropPlus (decimal n) = decimal n := by
    unfold dropPlus
    split
    · next t heq =>
      have hplus : '+' ∈ decimal n := by simp [heq]
      have hdigit := isDigit_of_mem_decimal hplus
      simp [Char.isDigit] at hdigit
    · rfl
  rw [parseUnsigned_eq_some, hhead]
  exact ⟨parseDigits_decimal n, h⟩

theorem parseU16_decimal (n : UInt16) : parseU16 (decimal n.toNat) = some n := by
  have hlt : n.toNat < 2 ^ 16 := n.toNat_lt
  rw [parseU16, parseUnsigned_decimal hlt, Option.map_some, UInt16.ofNat_toNat]

/-- An unsigned number is read as a signed one when it fits. -/
theorem parseSigned_of_parseUnsigned {half bound n : Nat} {s : Str}
    (h : parseUnsigned bound s = some n) :
    parseSigned half s = if n < half then some (n : Int) else none := by
  rw [parseUnsigned_eq_some] at h
  unfold parseSigned
  split
  · next t =>
    -- a sign is not a digit
    have hdash : '-'.isDigit = false := by decide
    simp [parseDigits, dropPlus, hdash] at h
  · by_cases hlt : n < half
    · rw [if_pos hlt, parseUnsigned_eq_some.2 ⟨h.1, hlt⟩]
      rfl
    · rw [if_neg hlt, Option.map_eq_none_iff, Option.eq_none_iff_forall_ne_some]
      intro k hk
      rw [parseUnsigned_eq_some, h.1] at hk
      obtain ⟨heq, hk⟩ := hk
      obtain rfl : n = k := Option.some.inj heq
      exact hlt hk

/-- A `u32` text as an `i32` that is then cast to `u32`. -/
theorem parseI32_of_parseU32 {s : Str} {m : UInt32} (h : parseU32 s = some m) :
    (parseI32 s).map Int32.toUInt32 = if m.toNat < 2 ^ 31 then some m else none := by
  rcases Option.map_eq_some_iff.1 h with ⟨n, hn, rfl⟩
  have hnat : (UInt32.ofNat n).toNat = n :=
    UInt32.toNat_ofNat_of_lt' (parseUnsigned_eq_some.1 hn).2
  have hcast : (Int32.ofInt (n : Int)).toUInt32 = UInt32.ofNat n := by
    show UInt32.ofBitVec (BitVec.ofInt 32 n) = UInt32.ofNat n
    rw [BitVec.ofInt_natCast]
    rfl
  rw [parseI32, parseSigned_of_parseUnsigned hn, hnat]
  by_cases hhalf : n < 2 ^ 31
  · rw [if_pos hhalf, if_pos hhalf, Option.map_some, Option.map_some, hcast]
  · rw [if_neg hhalf, if_neg hhalf]
    rfl
end HomeTier.Lib
