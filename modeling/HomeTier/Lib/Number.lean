import Mathlib.Algebra.Order.Field.Rat
import Mathlib.Data.Int.Cast.Lemmas
import Mathlib.Data.Rat.Cast.CharZero
import Mathlib.Tactic.Positivity
import HomeTier.Lib.Json

/-! # Numbers of JSON in integer fields

The number that a JSON value is, and what becomes of it on the usual way into a
field of fixed width: `as_u64` or `as_i64` reads it, a cast cuts it to the
width, and where nothing is read the field keeps what it had.

`IntField.takes_iff` says when the field then holds the number itself.
-/

namespace HomeTier.Lib

/-- The number behind the decimal text of a float. -/
def floatValue (t : Str) : ℚ :=
  let mantissa := t.takeWhile fun c => c ≠ 'e' ∧ c ≠ 'E'
  let exponent := t.drop (mantissa.length + 1)
  let fraction := (mantissa.dropWhile (· ≠ '.')).drop 1
  let digits (s : Str) : Nat := Nat.ofDigitChars 10 (s.filter Char.isDigit) 0
  let sign (s : Str) : Int := if s.head? = some '-' then -1 else 1
  sign mantissa * digits mantissa *
    (10 : ℚ) ^ (sign exponent * digits exponent - fraction.length : Int)

def Json.number : Json → Option ℚ
  | .int n => some n
  | .float t => some (floatValue t)
  | _ => none

/-! ## Casts -/

theorem uint_cast_eq_iff {bits : Nat} {n : Int} (h : 0 ≤ n) :
    ((n.toNat % 2 ^ bits : Nat) : Int) = n ↔ 0 ≤ n ∧ n < 2 ^ bits := by
  have hpow : (0 : Int) < 2 ^ bits := by positivity
  rw [Int.natCast_mod, Int.toNat_of_nonneg h, Nat.cast_pow]
  constructor
  · intro heq
    refine ⟨h, ?_⟩
    rw [← heq]
    exact Int.emod_lt_of_pos n hpow
  · rintro ⟨-, hlt⟩
    exact Int.emod_eq_of_lt h hlt

theorem int32_cast_eq_iff {n : Int} : n.bmod (2 ^ 32) = n ↔ -2 ^ 31 ≤ n ∧ n < 2 ^ 31 := by
  rw [Int.bmod_def]
  omega

/-- What is zero after the cast is a multiple. -/
theorem int32_cast_eq_zero_iff {n : Int} : n.bmod (2 ^ 32) = 0 ↔ (2 ^ 32 : Int) ∣ n := by
  rw [Int.bmod_def]
  omega

/-! ## Fields -/

/-- How a field of fixed width takes a number. -/
structure IntField where
  read : Json → Option Int
  /-- `as` -/
  cast : Int → Int
  lo : Int
  hi : Int
  number_of_read : ∀ {v n}, read v = some n → v.number = some (n : ℚ)
  cast_eq_iff : ∀ {v n}, read v = some n → (cast n = n ↔ lo ≤ n ∧ n < hi)

namespace IntField

/-- `as_u64`, cast to the width. -/
def uint (bits : Nat) : IntField where
  read v := v.asU64.map Int.ofNat
  cast n := (n.toNat % 2 ^ bits : Nat)
  lo := 0
  hi := 2 ^ bits
  number_of_read := by
    intro v n h
    cases v with
    | int m =>
      rw [Json.asU64] at h
      split at h
      · rename_i hm
        obtain rfl : Int.ofNat m.toNat = n := Option.some.inj h
        rw [Int.ofNat_eq_natCast, Int.toNat_of_nonneg hm]
        rfl
      · cases h
    | _ => cases h
  cast_eq_iff := by
    intro v n h
    rcases Option.map_eq_some_iff.1 h with ⟨m, -, rfl⟩
    exact uint_cast_eq_iff (Int.natCast_nonneg m)

/-- `as_i64`, cast to 32 bits. -/
def int32 : IntField where
  read := Json.asI64
  cast n := n.bmod (2 ^ 32)
  lo := -2 ^ 31
  hi := 2 ^ 31
  number_of_read := by
    intro v n h
    cases v with
    | int m =>
      rw [Json.asI64] at h
      split at h
      · cases h
        rfl
      · cases h
    | _ => cases h
  cast_eq_iff _ := int32_cast_eq_iff

variable (f : IntField)

/-- The number in the field afterwards, where `kept` was in it before. -/
def stored (kept : Option ℚ) (v : Json) : Option ℚ :=
  match f.read v with
  | some n => some (f.cast n : ℚ)
  | none => kept

/-- What is read fits the field, and a number that is not read is in it already. -/
def Takes (kept : Option ℚ) (v : Json) : Prop :=
  match f.read v with
  | some n => f.lo ≤ n ∧ n < f.hi
  | none => ∀ q, v.number = some q → kept = some q

theorem takes_iff {kept : Option ℚ} {v : Json} :
    (∀ q, v.number = some q → f.stored kept v = some q) ↔ f.Takes kept v := by
  rw [stored, Takes]
  cases hread : f.read v with
  | none => exact Iff.rfl
  | some n =>
    simp only [f.number_of_read hread, Option.some.injEq, forall_eq', Int.cast_inj]
    exact f.cast_eq_iff hread

/-- The number in the field after a body, where `kept` was in it before. -/
def storedAt (kept : Option ℚ) (body : Json) (key : Str) : Option ℚ :=
  match body.get key with
  | some v => f.stored kept v
  | none => kept

/-- What a body has under the key is taken. -/
def TakesAt (kept : Option ℚ) (body : Json) (key : Str) : Prop :=
  ∀ v, body.get key = some v → f.Takes kept v

theorem takesAt_iff {kept : Option ℚ} {body : Json} {key : Str} :
    (∀ q, (body.get key).bind Json.number = some q → f.storedAt kept body key = some q) ↔
      f.TakesAt kept body key := by
  rw [storedAt, TakesAt]
  cases body.get key with
  | none => simp
  | some v =>
    simp only [Option.bind_some, Option.some.injEq, forall_eq']
    exact f.takes_iff

end IntField

end HomeTier.Lib
