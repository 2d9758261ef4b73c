import Mathlib.Algebra.BigOperators.Group.Finset.Basic
import Mathlib.Algebra.Order.Group.Multiset

/-! # A list in parts

A growing list that is kept in a current part and in numbered ones: elements are
appended to the current part, and `roll` puts the current part under a number.
Rolling loses what was under the number, and nothing else (`holds_roll_iff`).
-/

namespace HomeTier.Lib

/-- The current part, and those with a number. -/
abbrev Parts (α : Type) := Option Nat → List α

namespace Parts

variable {α : Type}

def append (f : Parts α) (x : α) : Parts α := Function.update f none (f none ++ [x])

/-- The current part goes under a number, unless there is none. -/
def roll (f : Parts α) (n : Nat) : Parts α :=
  if f none = [] then f else Function.update (Function.update f none []) (some n) (f none)

@[simp] theorem append_none (f : Parts α) (x : α) : (f.append x) none = f none ++ [x] :=
  Function.update_self _ _ _

@[simp] theorem append_some (f : Parts α) (x : α) (k : Nat) :
    (f.append x) (some k) = f (some k) :=
  Function.update_of_ne (by simp) _ _

@[simp] theorem roll_none (f : Parts α) (n : Nat) : (f.roll n) none = [] := by
  unfold roll
  split
  · next h => exact h
  · rw [Function.update_of_ne (by simp), Function.update_self]

variable {f : Parts α}

theorem roll_self (h : f none ≠ []) (n : Nat) : (f.roll n) (some n) = f none := by
  rw [roll, if_neg h, Function.update_self]

theorem roll_of_ne (f : Parts α) {n k : Nat} (h : k ≠ n) : (f.roll n) (some k) = f (some k) := by
  unfold roll
  split
  · rfl
  · rw [Function.update_of_ne (by simpa using h), Function.update_of_ne (by simp)]

/-- Rolling brings nothing new. -/
theorem exists_of_mem_roll {n : Nat} {k : Option Nat} {x : α}
    (h : x ∈ (f.roll n) k) : ∃ j, x ∈ f j := by
  by_cases hnil : f none = []
  · rw [roll, if_pos hnil] at h
    exact ⟨k, h⟩
  · cases k with
    | none =>
      rw [roll_none] at h
      cases h
    | some k =>
      by_cases hk : k = n
      · subst hk
        rw [roll_self hnil] at h
        exact ⟨none, h⟩
      · rw [roll_of_ne f hk] at h
        exact ⟨some k, h⟩

/-- What is in the current part and below the number `N`. -/
def total (f : Parts α) (N : Nat) : Multiset α :=
  (f none : Multiset α) + ∑ k ∈ Finset.range N, (f (some k) : Multiset α)

/-- The parts have the elements of a list, each once. -/
def Holds (f : Parts α) (xs : List α) : Prop :=
  ∃ N, (∀ k, N ≤ k → f (some k) = []) ∧ f.total N = xs

/-- Empty parts do not count. -/
theorem total_eq_of_le {N M : Nat} (hempty : ∀ k, N ≤ k → f (some k) = [])
    (h : N ≤ M) : f.total M = f.total N := by
  have hsum : ∑ k ∈ Finset.range N, (f (some k) : Multiset α) =
      ∑ k ∈ Finset.range M, (f (some k) : Multiset α) := by
    apply Finset.sum_subset
    · exact Finset.range_subset_range.2 h
    · intro k _ hk
      rw [hempty k (by simpa using hk)]
      rfl
  rw [total, total, hsum]

variable {xs : List α}

/-- Each part is among what the parts hold, next to the current one. -/
theorem Holds.add_le (h : f.Holds xs) (k : Nat) : (f none : Multiset α) + f (some k) ≤ xs := by
  rcases h with ⟨N, hempty, htotal⟩
  have hmem : k ∈ Finset.range (max N (k + 1)) := Finset.mem_range.2 (by omega)
  rw [← htotal, ← total_eq_of_le hempty (Nat.le_max_left N (k + 1)), total,
    ← Finset.add_sum_erase _ _ hmem, ← add_assoc]
  exact Multiset.le_add_right _ _

theorem Holds.mem (h : f.Holds xs) {k : Option Nat} {x : α} (hx : x ∈ f k) : x ∈ xs := by
  cases k with
  | none =>
    have hle := (Multiset.le_add_right _ _).trans (h.add_le 0)
    exact Multiset.mem_coe.1 (Multiset.mem_of_le hle hx)
  | some k =>
    have hle := (Multiset.le_add_left _ _).trans (h.add_le k)
    exact Multiset.mem_coe.1 (Multiset.mem_of_le hle hx)

/-- Where nothing comes twice, the current part has nothing of another. -/
theorem Holds.disjoint (h : f.Holds xs) (hxs : xs.Nodup) {k : Nat}
    {x : α} (hcurrent : x ∈ f none) : x ∉ f (some k) := by
  have hnodup : ((f none : Multiset α) + f (some k)).Nodup :=
    Multiset.nodup_of_le (h.add_le k) (Multiset.coe_nodup.2 hxs)
  intro hx
  exact Multiset.disjoint_left.1 (Multiset.nodup_add.1 hnodup).2.2 hcurrent hx

/-- With no other part the current one holds everything. -/
theorem Holds.length_eq (h : f.Holds xs)
    (hempty : ∀ k, f (some k) = []) : (f none).length = xs.length := by
  rcases h with ⟨N, -, htotal⟩
  have hcard := congrArg Multiset.card htotal
  simpa [total, hempty] using hcard

theorem holds_nil : Holds (fun _ => []) ([] : List α) := ⟨0, fun _ _ => rfl, by simp [total]⟩

theorem total_append (f : Parts α) (x : α) (N : Nat) :
    (f.append x).total N = f.total N + {x} := by
  simp only [total, append_none, append_some, ← Multiset.coe_add, Multiset.coe_singleton]
  exact add_right_comm _ _ _

theorem holds_append_iff {x : α} : (f.append x).Holds (xs ++ [x]) ↔ f.Holds xs := by
  have htotal : ∀ N, (f.append x).total N = ↑(xs ++ [x]) ↔ f.total N = xs := by
    intro N
    rw [total_append, ← Multiset.coe_add, Multiset.coe_singleton, add_left_inj]
  simp only [Holds, append_some, htotal]

/-- The part that had the number is what rolling loses. -/
theorem total_roll {n N : Nat} (hcurrent : f none ≠ []) (hn : n < N) :
    (f.roll n).total N + f (some n) = f.total N := by
  have hmem : n ∈ Finset.range N := Finset.mem_range.2 hn
  have hother : ∀ k ∈ (Finset.range N).erase n, ((f.roll n) (some k) : Multiset α) = f (some k) := by
    intro k hk
    rw [roll_of_ne f (Finset.ne_of_mem_erase hk)]
  rw [total, total, ← Finset.add_sum_erase _ _ hmem, ← Finset.add_sum_erase _ _ hmem, roll_none,
    roll_self hcurrent, Finset.sum_congr rfl hother, Multiset.coe_nil, zero_add]
  -- the current part has moved, the part under the number is gone
  rw [add_assoc, add_comm _ (f (some n) : Multiset α)]

/-- Rolling keeps what the parts hold exactly when the number is free. -/
theorem holds_roll_iff {n : Nat} (h : f.Holds xs) :
    (f.roll n).Holds xs ↔ f none = [] ∨ f (some n) = [] := by
  by_cases hcurrent : f none = []
  · rw [roll, if_pos hcurrent]
    exact ⟨fun _ => Or.inl hcurrent, fun _ => h⟩
  rcases h with ⟨N, hempty, htotal⟩
  constructor
  · rintro ⟨M, hempty', htotal'⟩
    -- beyond all numbers in use, before and after
    have hbefore := total_eq_of_le (M := max (max N M) (n + 1)) hempty (by omega)
    have hafter := total_eq_of_le (M := max (max N M) (n + 1)) hempty' (by omega)
    have hlost := total_roll (n := n) (N := max (max N M) (n + 1)) hcurrent (by omega)
    rw [hbefore, hafter, htotal, htotal', add_eq_left] at hlost
    exact Or.inr (Multiset.coe_eq_zero _ |>.1 hlost)
  · rintro (hnone | hfree)
    · exact absurd hnone hcurrent
    refine ⟨max N (n + 1), ?_, ?_⟩
    · intro k hk
      rw [roll_of_ne f (by omega)]
      exact hempty k (by omega)
    · have hlost := total_roll (n := n) (N := max N (n + 1)) hcurrent (by omega)
      rw [hfree, Multiset.coe_nil, add_zero, total_eq_of_le hempty (by omega), htotal] at hlost
      exact hlost

end Parts

end HomeTier.Lib
