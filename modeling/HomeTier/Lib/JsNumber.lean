import Mathlib.Data.Int.Log
import Mathlib.Data.Rat.Floor
import Mathlib.Tactic.FieldSimp
import Mathlib.Tactic.Linarith
import HomeTier.Lib.Decimal

/-! # Texts and numbers in JavaScript

`Number` of a text: blanks around it do not count, nothing at all is zero, and besides
decimal literals there are those of base 2, 8 and 16. A number is the nearest one that
a double holds; here it is that rational, and what is infinite or no number is `none`.
-/

namespace HomeTier.Lib

/-! ## Blanks -/

/-- What `String.prototype.trim` takes off. -/
def isJsSpace (c : Char) : Bool := (isWhitespace c && c != '\u0085') || c == '\uFEFF'

def jsTrim (s : Str) : Str := (s.dropWhile isJsSpace).rdropWhile isJsSpace

theorem jsTrim_eq_self {s : Str} (h : ∀ c ∈ s, isJsSpace c = false) : jsTrim s = s := by
  have hdrop : s.dropWhile isJsSpace = s := by
    cases s with
    | nil => rfl
    | cons c s => simp [h c List.mem_cons_self]
  rw [jsTrim, hdrop, List.rdropWhile_eq_self_iff]
  intro hne
  simp [h _ (List.getLast_mem hne)]

@[simp] theorem jsTrim_jsTrim (s : Str) : jsTrim (jsTrim s) = jsTrim s :=
  cutEnds_idempotent isJsSpace s

theorem isJsSpace_of_isDigit {c : Char} (h : c.isDigit = true) : isJsSpace c = false := by
  have hmark : c ≠ '\uFEFF' := by
    rintro rfl
    exact absurd h (by decide)
  simp [isJsSpace, isWhitespace_of_isDigit h, hmark]

/-! ## Doubles -/

/-- The nearest integer, and of two the even one. -/
def roundEven (q : ℚ) : ℤ :=
  let k := ⌊q⌋
  if q - k < 1 / 2 then k
  else if 1 / 2 < q - k then k + 1
  else k + k % 2

@[simp] theorem roundEven_intCast (k : ℤ) : roundEven (k : ℚ) = k := by
  simp [roundEven]

/-- The distance of doubles of this size. -/
def doubleStep (q : ℚ) : ℚ := 2 ^ (max (Int.log 2 |q|) (-1022) - 52)

/-- The nearest double; `none` when it is infinite. -/
def toDouble (q : ℚ) : Option ℚ :=
  let r := roundEven (q / doubleStep q) * doubleStep q
  if |r| < 2 ^ 1024 then some r else none

/-- Integers of up to 53 bits are doubles. -/
theorem toDouble_natCast {n : Nat} (h : n < 2 ^ 53) : toDouble n = some (n : ℚ) := by
  have hlog : Int.log 2 |(n : ℚ)| = Nat.log 2 n := by
    rw [abs_of_nonneg (Nat.cast_nonneg n), Int.log_natCast]
  have hsmall : Nat.log 2 n ≤ 52 := by
    rcases Nat.eq_zero_or_pos n with rfl | hpos
    · simp
    · exact Nat.lt_succ_iff.1 (Nat.log_lt_of_lt_pow hpos.ne' h)
  have hstep : doubleStep n = 2 ^ (-((52 - Nat.log 2 n : Nat) : ℤ)) := by
    rw [doubleStep, hlog]
    congr 1
    omega
  -- the step divides one, so the quotient is an integer
  have hquotient : (n : ℚ) / doubleStep n = ((n * 2 ^ (52 - Nat.log 2 n) : Nat) : ℤ) := by
    rw [hstep, zpow_neg, div_inv_eq_mul, zpow_natCast]
    push_cast
    ring
  have hne : doubleStep n ≠ 0 := by
    rw [hstep]
    exact zpow_ne_zero _ two_ne_zero
  have hround : (roundEven (n / doubleStep n) : ℚ) * doubleStep n = n := by
    rw [hquotient, roundEven_intCast, ← hquotient, div_mul_cancel₀ _ hne]
  have hfinite : |(n : ℚ)| < 2 ^ 1024 := by
    rw [abs_of_nonneg (Nat.cast_nonneg n)]
    exact_mod_cast h.trans (Nat.pow_lt_pow_right (by omega) (by omega))
  rw [toDouble]
  simp only [hround, if_pos hfinite]

/-! ## Literals -/

/-- The sign and what follows it. -/
def signed : Str → ℤ × Str
  | '-' :: t => (-1, t)
  | '+' :: t => (1, t)
  | t => (1, t)

/-- What an exponent stands for. -/
def exponentValue : Option Str → Option ℤ
  | none => some 0
  | some e => (parseDigits (signed e).2).map fun n => (signed e).1 * n

def isExponentMark (c : Char) : Bool := c == 'e' || c == 'E'

/-- Digits with at most one point between them, and perhaps an exponent. -/
def decimalLiteral (s : Str) : Option ℚ :=
  let unsigned := (signed s).2
  let mantissa := unsigned.takeWhile fun c => !isExponentMark c
  let exponent := (unsigned.dropWhile fun c => !isExponentMark c).tail?
  let fraction := (cutAt '.' mantissa).2.getD []
  match parseDigits ((cutAt '.' mantissa).1 ++ fraction), exponentValue exponent with
  | some n, some e => some ((signed s).1 * n * (10 : ℚ) ^ (e - fraction.length))
  | _, _ => none

/-- The value of a digit of either case. -/
def radixDigit (c : Char) : Nat :=
  if c.isDigit then c.toNat - '0'.toNat
  else if 'a' ≤ c ∧ c ≤ 'f' then c.toNat - 'a'.toNat + 10
  else if 'A' ≤ c ∧ c ≤ 'F' then c.toNat - 'A'.toNat + 10
  else 16

/-- Digits of a base. -/
def radixValue (base : Nat) (s : Str) : Option ℚ :=
  if s ≠ [] ∧ s.all fun c => radixDigit c < base then
    some (s.foldl (fun n c => n * base + radixDigit c) 0 : Nat)
  else none

/-- The base that a text announces, and its digits. -/
def radixOf : Str → Option (Nat × Str)
  | '0' :: c :: s =>
    if c = 'x' ∨ c = 'X' then some (16, s)
    else if c = 'o' ∨ c = 'O' then some (8, s)
    else if c = 'b' ∨ c = 'B' then some (2, s)
    else none
  | _ => none

/-- `Number` of a text. -/
def jsNumber (s : Str) : Option ℚ :=
  let t := jsTrim s
  if t = [] then some 0
  else
    match radixOf t with
    | some (base, digits) => (radixValue base digits).bind toDouble
    | none => (decimalLiteral t).bind toDouble

/-- The base that `parseInt` announces, and what follows. -/
def parseIntBase : Str → Nat × Str
  | '0' :: c :: s => if c = 'x' ∨ c = 'X' then (16, s) else (10, '0' :: c :: s)
  | s => (10, s)

/-- `parseInt` of a text, before the nearest double is taken; `none` without a digit. -/
def jsParseInt (s : Str) : Option ℚ :=
  let t := signed (s.dropWhile isJsSpace)
  let (base, rest) := parseIntBase t.2
  (radixValue base (rest.takeWhile fun c => radixDigit c < base)).map fun n => t.1 * n

/-! ## Plain digits -/

section Digits

variable {s : Str}

theorem signed_digits (h : s.all Char.isDigit = true) : signed s = (1, s) := by
  unfold signed
  split
  · simp at h
  · simp at h
  · rfl

theorem radixOf_digits (h : s.all Char.isDigit = true) : radixOf s = none := by
  unfold radixOf
  split
  · rename_i c t
    have hc : c.isDigit = true := by
      rw [List.all_eq_true] at h
      exact h c (by simp)
    have hletter : ∀ d : Char, d.isDigit = false → c ≠ d := by
      rintro d hd rfl
      rw [hd] at hc
      cases hc
    simp [hletter]
  · rfl

theorem decimalLiteral_digits (hne : s ≠ []) (h : s.all Char.isDigit = true) :
    decimalLiteral s = some (Nat.ofDigitChars 10 s 0 : ℚ) := by
  have hletter : ∀ d : Char, d.isDigit = false → ∀ c ∈ s, c ≠ d := by
    rintro d hd c hc rfl
    have hdigit := List.all_eq_true.1 h c hc
    rw [hd] at hdigit
    cases hdigit
  have hmantissa : ∀ c ∈ s, (!isExponentMark c) = true := by
    intro c hc
    simp [isExponentMark, hletter 'e' (by decide) c hc, hletter 'E' (by decide) c hc]
  have htake : (s.takeWhile fun c => !isExponentMark c) = s := List.takeWhile_eq_self_iff.2 hmantissa
  have hdrop : (s.dropWhile fun c => !isExponentMark c) = [] := List.dropWhile_eq_nil_iff.2 hmantissa
  have hdot : '.' ∉ s := fun hmem => hletter '.' (by decide) _ hmem rfl
  have hparse : parseDigits s = some (Nat.ofDigitChars 10 s 0) := if_pos ⟨hne, h⟩
  simp only [decimalLiteral, signed_digits h, htake, hdrop, cutAt_of_notMem hdot, Option.getD_none,
    List.append_nil, hparse, List.tail?_nil, exponentValue]
  simp

/-- A text of digits is read as the number they write. -/
theorem jsNumber_digits (hne : s ≠ []) (h : s.all Char.isDigit = true) :
    jsNumber s = toDouble (Nat.ofDigitChars 10 s 0 : ℚ) := by
  have htrim : jsTrim s = s := jsTrim_eq_self fun c hc =>
    isJsSpace_of_isDigit (List.all_eq_true.1 h c hc)
  simp only [jsNumber, htrim, if_neg hne, radixOf_digits h, decimalLiteral_digits hne h,
    Option.bind_some]

end Digits

theorem jsNumber_decimal {n : Nat} (h : n < 2 ^ 53) : jsNumber (decimal n) = some (n : ℚ) := by
  have hall : (decimal n).all Char.isDigit = true := by
    rw [List.all_eq_true]
    intro c hc
    exact isDigit_of_mem_decimal hc
  rw [jsNumber_digits (decimal_ne_nil n) hall, decimal,
    Nat.ofDigitChars_toDigits (by decide) (by decide), toDouble_natCast h]

end HomeTier.Lib
