import HomeTier.Lib.Json

/-! # Records in JSON

How `serde` derives the JSON of a record: an object with an entry for each field,
where an absent option is `null`. It is read by the names of the fields, or from
an array by their order, and a field that is not there is none. What is written
is read back, once the fields are (`readRecord_record`).
-/

namespace HomeTier.Lib.Json

variable {α : Type}

/-- `Serialize` -/
def record (fields : List (Str × Json)) : Json := .obj (insertEntries fields [])

/-- `Deserialize`, from what each field has. -/
def readRecord (names : List Str) (read : (Str → Option Json) → Option α) : Json → Option α
  | .obj kvs => read fun key => kvs.lookup key
  | .arr xs =>
    if xs.length = names.length then read fun key => (names.zip xs).lookup key else none
  | _ => none

def optional : Option Str → Json
  | none => .null
  | some s => .str s

/-- `Option<String>` -/
def readOptional : Option Json → Option (Option Str)
  | none => some none
  | some .null => some none
  | some v => v.asStr.map some

@[simp] theorem readOptional_optional (s : Option Str) :
    readOptional (some (optional s)) = some s := by
  cases s <;> rfl

/-- `Vec<T>` -/
def readList (read : Json → Option α) : Json → Option (List α)
  | .arr xs => xs.mapM read
  | _ => none

theorem readList_map {read : Json → Option α} {write : α → Json}
    (h : ∀ x, read (write x) = some x) (xs : List α) :
    readList read (.arr (xs.map write)) = some xs := by
  rw [readList]
  induction xs with
  | nil => rfl
  | cons x xs ih => simp [List.mapM_cons, h, ih]

/-- `u32` -/
def readU32 : Json → Option UInt32
  | .int n => if 0 ≤ n ∧ n < 2 ^ 32 then some (UInt32.ofNat n.toNat) else none
  | _ => none

theorem readU32_toNat (n : UInt32) : readU32 (.int n.toNat) = some n := by
  have hlt : n.toNat < 2 ^ 32 := n.toNat_lt
  rw [readU32, if_pos (by omega), Int.toNat_natCast, UInt32.ofNat_toNat]

theorem readRecord_record {fields : List (Str × Json)} (hnodup : (fields.map (·.1)).Nodup)
    (names : List Str) {read : (Str → Option Json) → Option α} {x : α}
    (h : ∀ get : Str → Option Json, (∀ e ∈ fields, get e.1 = some e.2) → read get = some x) :
    readRecord names read (record fields) = some x :=
  h _ fun _ he => lookup_insertEntries_nil hnodup he

section Validity

variable {d : Nat}

theorem valid_record {fields : List (Str × Json)} (h : ∀ e ∈ fields, Valid d e.2) :
    Valid (d + 1) (record fields) :=
  valid_insertEntries h (.obj sorted_nil (by simp))

theorem valid_optional (s : Option Str) : Valid d (optional s) := by
  cases s with
  | none => exact .null
  | some s => exact .str s

theorem valid_u32 (n : UInt32) : Valid d (.int n.toNat) := by
  have hlt : n.toNat < 2 ^ 32 := n.toNat_lt
  exact .int ⟨by omega, by omega⟩

end Validity

end HomeTier.Lib.Json
