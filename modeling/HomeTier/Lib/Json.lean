import Mathlib.Algebra.Order.Ring.Int
import HomeTier.Lib.Entries
import HomeTier.Lib.Text

/-! # JSON values

Values as `serde_json` keeps them. An object is the list of its entries, with
the keys in order, as in the `BTreeMap` behind `serde_json::Map`. Integers are
those of 64 bits, signed or unsigned; every other number is a float, given by
its decimal text. `Valid` says this, together with the nesting that the parser
of `serde_json` accepts.

Texts are left to `JsonText`: what is read is valid, printing a valid value
gives a text that is read back, and blanks around a text do not matter. For a
float this says more than `serde_json` promises without its `float_roundtrip`:
there the last digit of a long number may change when it is read back. No field
of a configuration, an app or a link is a float.
-/

namespace HomeTier.Lib

inductive Json where
  | null
  | bool (b : Bool)
  | int (n : Int)
  | float (text : Str)
  | str (s : Str)
  | arr (xs : List Json)
  | obj (kvs : List (Str × Json))

namespace Json

/-- `Value::get` with a key. -/
def get (key : Str) : Json → Option Json
  | obj kvs => kvs.lookup key
  | _ => none

/-- `as_str` -/
def asStr : Json → Option Str
  | str s => some s
  | _ => none

/-- `as_bool` -/
def asBool : Json → Option Bool
  | bool b => some b
  | _ => none

/-- `as_u64` -/
def asU64 : Json → Option Nat
  | int n => if 0 ≤ n then some n.toNat else none
  | _ => none

/-- `as_i64` -/
def asI64 : Json → Option Int
  | int n => if n < 2 ^ 63 then some n else none
  | _ => none

/-- `as_array` -/
def asArray : Json → Option (List Json)
  | arr xs => some xs
  | _ => none

/-- `as_object` -/
def asObject : Json → Option (List (Str × Json))
  | obj kvs => some kvs
  | _ => none

/-- The characters of a number. -/
def isNumberChar (c : Char) : Bool := c.isDigit || c ∈ ['-', '+', '.', 'e', 'E']

/-- Texts of floats, as far as their characters go. -/
def isFloatText (t : Str) : Bool :=
  t.all isNumberChar && t.any (· ∈ ['.', 'e', 'E']) &&
    t.head?.any fun c => c.isDigit || c == '-'

/-- Values nested no deeper than `d`. -/
inductive Valid : Nat → Json → Prop
  | null {d : Nat} : Valid d null
  | bool {d : Nat} (b : Bool) : Valid d (bool b)
  | int {d : Nat} {n : Int} (h : -2 ^ 63 ≤ n ∧ n < 2 ^ 64) : Valid d (int n)
  | float {d : Nat} {t : Str} (h : isFloatText t = true) : Valid d (float t)
  | str {d : Nat} (s : Str) : Valid d (str s)
  | arr {d : Nat} {xs : List Json} (h : ∀ x ∈ xs, Valid d x) : Valid (d + 1) (arr xs)
  | obj {d : Nat} {kvs : List (Str × Json)} (hsorted : Sorted kvs)
      (h : ∀ e ∈ kvs, Valid d e.2) : Valid (d + 1) (obj kvs)

/-- What the recursion limit of 128 leaves to a text. -/
def nestingLimit : Nat := 127

theorem sorted_of_valid {d : Nat} {kvs : List (Str × Json)} (h : Valid d (obj kvs)) :
    Sorted kvs := by
  cases h with
  | obj hsorted h => exact hsorted

/-- Entries of valid values that are inserted in a valid object leave it valid. -/
theorem valid_insertEntries {d : Nat} {entries kvs : List (Str × Json)}
    (hentries : ∀ e ∈ entries, Valid d e.2) (h : Valid (d + 1) (obj kvs)) :
    Valid (d + 1) (obj (insertEntries entries kvs)) := by
  cases h with
  | obj hsorted hkvs =>
    refine Valid.obj (sorted_insertEntries entries hsorted) ?_
    intro e he
    rcases mem_insertEntries he with he | he
    · exact hentries e he
    · exact hkvs e he

end Json

/-- `serde_json` between values and texts. -/
structure JsonText where
  /-- `serde_json::from_str` -/
  parse : Str → Option Json
  /-- `Value::to_string` -/
  print : Json → Str
  parse_valid : ∀ s v, parse s = some v → v.Valid Json.nestingLimit
  /-- With floats that are read back as they were written. -/
  parse_print : ∀ v, v.Valid Json.nestingLimit → parse (print v) = some v
  parse_nil : parse [] = none
  /-- Blanks around a value do not matter. -/
  parse_trim : ∀ s v, parse s = some v → parse (trim s) = some v
  trim_print : ∀ v, v.Valid Json.nestingLimit → trim (print v) = print v
  print_ne_nil : ∀ v, v.Valid Json.nestingLimit → print v ≠ []

end HomeTier.Lib
