import Mathlib.Data.List.DropRight
import Mathlib.Order.WithBot

/-! # A bounded feed

A list keeps its last `max` elements. A reader asks for the elements whose key
is above the largest key it has seen, and expects those that were added since it
asked last, as far as they are still kept: `InStep` says that it gets them.
`inStep_append_iff` is what a writer has to observe for this.
-/

namespace HomeTier.Lib

variable {α κ : Type}

/-! ## The last elements of a list -/

theorem rtake_of_length_le {l : List α} {n : Nat} (h : l.length ≤ n) : l.rtake n = l := by
  rw [List.rtake, Nat.sub_eq_zero_of_le h, List.drop_zero]

theorem length_rtake (l : List α) (n : Nat) : (l.rtake n).length = min n l.length := by
  rw [List.rtake, List.length_drop]
  omega

theorem rtake_append (l es : List α) (n : Nat) :
    (l ++ es).rtake n = l.rtake (n - es.length) ++ es.rtake n := by
  have hlast : l.length + es.length - n - l.length = es.length - n := by omega
  simp only [List.rtake, List.length_append, List.drop_append, hlast]
  by_cases h : es.length ≤ n
  · have hfirst : l.length + es.length - n = l.length - (n - es.length) := by omega
    rw [hfirst]
  · -- nothing of the first list is left
    have hleft : l.drop (l.length + es.length - n) = [] := List.drop_eq_nil_of_le (by omega)
    have hright : l.drop (l.length - (n - es.length)) = [] := List.drop_eq_nil_of_le (by omega)
    rw [hleft, hright]

theorem rtake_rtake (l : List α) (m n : Nat) : (l.rtake m).rtake n = l.rtake (min m n) := by
  simp only [List.rtake, List.length_drop, List.drop_drop]
  congr 1
  omega

theorem rtake_suffix (l : List α) (n : Nat) : l.rtake n <:+ l := List.drop_suffix _ _

theorem getLast?_rtake {l : List α} {n : Nat} (hn : n ≠ 0) : (l.rtake n).getLast? = l.getLast? := by
  rw [List.rtake, List.getLast?_drop]
  split
  · next h =>
    have hnil : l = [] := by
      rw [← List.length_eq_zero_iff]
      omega
    rw [hnil]
    rfl
  · rfl

/-- Drop from the front until no more than `max` are left. -/
def evict (max : Nat) : List α → List α
  | [] => []
  | x :: l => if max < l.length + 1 then evict max l else x :: l

theorem evict_eq_rtake (max : Nat) (l : List α) : evict max l = l.rtake max := by
  induction l with
  | nil => exact List.rtake_nil max |>.symm
  | cons x l ih =>
    rw [evict]
    split
    · next h =>
      rw [ih, List.rtake, List.rtake, List.length_cons, Nat.sub_add_comm (by omega),
        List.drop_succ_cons]
    · next h => exact (rtake_of_length_le (by simpa using h)).symm

theorem mem_evict {max : Nat} {x : α} {l : List α} (h : x ∈ evict max l) : x ∈ l := by
  rw [evict_eq_rtake] at h
  exact (rtake_suffix l max).subset h

theorem length_evict (max : Nat) (l : List α) : (evict max l).length ≤ max := by
  rw [evict_eq_rtake, length_rtake]
  exact Nat.min_le_left _ _

/-- Add elements one by one. -/
def pushAll (max : Nat) (l es : List α) : List α := es.foldl (fun l x => evict max (l ++ [x])) l

theorem pushAll_eq_rtake {max : Nat} {l : List α} (h : l.length ≤ max) (es : List α) :
    pushAll max l es = (l ++ es).rtake max := by
  induction es using List.reverseRecOn with
  | nil => rw [List.append_nil, rtake_of_length_le h]; rfl
  | append_singleton es x ih =>
    rw [pushAll, List.foldl_append, List.foldl_cons, List.foldl_nil]
    show evict max (pushAll max l es ++ [x]) = _
    rw [ih, evict_eq_rtake, ← List.append_assoc, rtake_append, rtake_append (l ++ es),
      rtake_rtake, List.length_singleton, Nat.min_eq_right (Nat.sub_le max 1)]

/-! ## A reader -/

section Reader

variable [LinearOrder κ] (key : α → κ)

/-- Above the largest key the reader has seen. -/
def Above (last : Option κ) (x : α) : Prop := ∀ l ∈ last, l < key x

instance (last : Option κ) : DecidablePred (Above key last) := fun x =>
  inferInstanceAs (Decidable (∀ l ∈ last, l < key x))

/-- The largest key, once some elements have been read. -/
def seen (last : Option κ) (xs : List α) : Option κ :=
  xs.foldl (fun last x => some (last.elim (key x) (max · (key x)))) last

/-- The keys increase, and the reader would get the last `fresh` elements. -/
structure InStep (last : Option κ) (fresh : Nat) (l : List α) : Prop where
  increasing : l.Pairwise (key · < key ·)
  answer : l.filter (Above key last ·) = l.rtake fresh

/-- New elements are in order among themselves, and above all that is kept and seen. -/
structure Ordered (last : Option κ) (old new : List α) : Prop where
  increasing : new.Pairwise (key · < key ·)
  above_old : ∀ x ∈ old, ∀ y ∈ new, key x < key y
  above_last : ∀ y ∈ new, Above key last y

variable {key} {last : Option κ} {fresh : Nat} {l : List α}

theorem filter_eq_drop_iff {p : α → Bool} {l : List α} {k : Nat} :
    l.filter p = l.drop k ↔ (∀ x ∈ l.take k, p x = false) ∧ ∀ x ∈ l.drop k, p x = true := by
  constructor
  · intro h
    have hdrop : ∀ x ∈ l.drop k, p x = true := by
      intro x hx
      rw [← h] at hx
      exact List.of_mem_filter hx
    have hsplit : (l.take k).filter p ++ (l.drop k).filter p = l.drop k := by
      rw [← List.filter_append, List.take_append_drop, h]
    rw [List.filter_eq_self.2 hdrop, List.append_left_eq_self, List.filter_eq_nil_iff] at hsplit
    exact ⟨fun x hx => by simpa using hsplit x hx, hdrop⟩
  · rintro ⟨htake, hdrop⟩
    conv_lhs => rw [← List.take_append_drop k l]
    rw [List.filter_append, List.filter_eq_self.2 hdrop, List.filter_eq_nil_iff.2, List.nil_append]
    intro x hx
    simp [htake x hx]

/-- Dropping elements in front keeps the reader in step. -/
theorem InStep.rtake (h : InStep key last fresh l) (n : Nat) :
    InStep key last fresh (l.rtake n) := by
  refine ⟨h.increasing.sublist (rtake_suffix l n).sublist, ?_⟩
  rcases filter_eq_drop_iff.1 h.answer with ⟨hstale, hfresh⟩
  apply filter_eq_drop_iff.2
  constructor
  · -- what is stale among fewer elements was stale before
    intro x hx
    apply hstale x
    rw [length_rtake, List.rtake, List.take_drop] at hx
    by_cases hn : fresh ≤ n
    · exact (List.take_prefix_take_left (by omega)).subset (List.mem_of_mem_drop hx)
    · have hzero : min n l.length - fresh = 0 := by omega
      rw [hzero, Nat.add_zero, List.drop_take_self] at hx
      exact absurd hx List.not_mem_nil
  · intro x hx
    apply hfresh x
    have hx' : x ∈ (l.rtake n).rtake fresh := hx
    rw [rtake_rtake, ← Nat.min_comm, ← rtake_rtake] at hx'
    exact (rtake_suffix _ n).subset hx'

/-- A writer keeps the reader in step exactly by adding in order. -/
theorem inStep_append_iff (h : InStep key last fresh l) (max : Nat) (es : List α) :
    InStep key last (fresh + es.length) ((l ++ es).rtake max) ↔
      Ordered key last (l.rtake (max - es.length)) (es.rtake max) := by
  have hold := h.rtake (max - es.length)
  have hfresh : ((l ++ es).rtake max).rtake (fresh + es.length) =
      (l.rtake (max - es.length)).rtake fresh ++ es.rtake max := by
    have hnew : (es.rtake max).rtake (fresh + es.length) = es.rtake max := by
      apply rtake_of_length_le
      rw [length_rtake]
      omega
    have hmin : min (max - es.length) (fresh + es.length - min max es.length) =
        min (max - es.length) fresh := by omega
    rw [rtake_append, rtake_append, length_rtake, hnew, rtake_rtake l, rtake_rtake l, hmin]
  have hanswer : ((l ++ es).rtake max).filter (Above key last ·) =
        ((l ++ es).rtake max).rtake (fresh + es.length) ↔
      ∀ y ∈ es.rtake max, Above key last y := by
    rw [hfresh, rtake_append, List.filter_append, hold.answer, List.append_cancel_left_eq,
      List.filter_eq_self]
    simp
  constructor
  · rintro ⟨hinc, hans⟩
    rw [rtake_append, List.pairwise_append] at hinc
    exact ⟨hinc.2.1, hinc.2.2, hanswer.1 hans⟩
  · rintro ⟨hinc, habove, hlast⟩
    refine ⟨?_, hanswer.2 hlast⟩
    rw [rtake_append, List.pairwise_append]
    exact ⟨hold.increasing, hinc, habove⟩

variable (key) in
theorem le_seen (last : Option κ) (xs : List α) :
    (∀ l ∈ last, ∃ m ∈ seen key last xs, l ≤ m) ∧ ∀ x ∈ xs, ∃ m ∈ seen key last xs, key x ≤ m := by
  induction xs generalizing last with
  | nil => exact ⟨fun l hl => ⟨l, hl, le_rfl⟩, by simp⟩
  | cons x xs ih =>
    show (∀ l ∈ last, ∃ m ∈ seen key (some _) xs, l ≤ m) ∧
      ∀ y ∈ x :: xs, ∃ m ∈ seen key (some _) xs, key y ≤ m
    rcases ih (some (last.elim (key x) (max · (key x)))) with ⟨hlast, hxs⟩
    rcases hlast _ rfl with ⟨m, hm, hle⟩
    have hx : key x ≤ m := by
      cases last with
      | none => exact hle
      | some l => exact (le_max_right l (key x)).trans hle
    constructor
    · rintro l hl
      cases hl
      exact ⟨m, hm, (le_max_left l (key x)).trans hle⟩
    · rw [List.forall_mem_cons]
      exact ⟨⟨m, hm, hx⟩, hxs⟩

/-- A reader that has read is in step. -/
theorem InStep.poll (h : InStep key last fresh l) :
    InStep key (seen key last (l.filter (Above key last ·))) 0 l := by
  refine ⟨h.increasing, ?_⟩
  rw [List.rtake_zero, List.filter_eq_nil_iff]
  intro x hx habove
  rcases le_seen key last (l.filter (Above key last ·)) with ⟨hlast, hread⟩
  have hseen : ∃ m ∈ seen key last (l.filter (Above key last ·)), key x ≤ m := by
    by_cases hx' : Above key last x
    · exact hread x (by simpa using ⟨hx, hx'⟩)
    · -- it is not above something seen earlier
      simp only [Above, not_forall, not_lt] at hx'
      rcases hx' with ⟨l, hl, hle⟩
      rcases hlast l hl with ⟨m, hm, hlm⟩
      exact ⟨m, hm, hle.trans hlm⟩
  rcases hseen with ⟨m, hm, hle⟩
  have habove' : Above key (seen key last (l.filter (Above key last ·))) x := by
    simpa using habove
  exact absurd (habove' m hm) (not_lt.2 hle)

end Reader

end HomeTier.Lib
