import Mathlib.Data.List.Range
import Mathlib.Data.List.Pairwise

/-! # Retry loops

An operation is tried until an attempt's outcome is not worth another one, or no
attempt is left. `next k` is the outcome of the attempt `k`, were it made;
`reached_iff` says which attempts are.
-/

namespace HomeTier.Lib

universe u

variable {α : Type u} (again : α → Bool) (next : Nat → α)

/-- The outcomes that led to another attempt, and the last one, from the attempt
`k` on with `left` attempts to spare. -/
def retry : Nat → Nat → List α × α
  | 0, k => ([], next k)
  | left + 1, k =>
    if again (next k) then (next k :: (retry left (k + 1)).1, (retry left (k + 1)).2)
    else ([], next k)

/-- All outcomes, in order. -/
def tried (left k : Nat) : List α := (retry again next left k).1 ++ [(retry again next left k).2]

/-- The attempt `j` is made. -/
def Reached (left j : Nat) : Prop := j ≤ left ∧ ∀ i < j, again (next i) = true

variable {again next}

theorem retry_succ_again {left k : Nat} (h : again (next k) = true) :
    retry again next (left + 1) k =
      (next k :: (retry again next left (k + 1)).1, (retry again next left (k + 1)).2) := by
  rw [retry, if_pos h]

theorem retry_succ_stop {left k : Nat} (h : again (next k) = false) :
    retry again next (left + 1) k = ([], next k) := by
  rw [retry, h]
  simp

theorem getElem?_tried {left k j : Nat} {o : α} :
    (tried again next left k)[j]? = some o ↔
      next (k + j) = o ∧ j ≤ left ∧ ∀ i < j, again (next (k + i)) = true := by
  induction left generalizing k j with
  | zero =>
    cases j with
    | zero => simp [tried, retry]
    | succ j => simp [tried, retry]
  | succ left ih =>
    cases hk : again (next k) with
    | false =>
      rw [tried, retry_succ_stop hk]
      cases j with
      | zero => simp
      | succ j =>
        simp only [List.nil_append, List.getElem?_cons_succ, List.getElem?_nil, false_iff,
          reduceCtorEq]
        rintro ⟨-, -, hall⟩
        have hfirst := hall 0 (Nat.succ_pos j)
        rw [Nat.add_zero, hk] at hfirst
        cases hfirst
    | true =>
      rw [tried, retry_succ_again hk]
      cases j with
      | zero => simp
      | succ j =>
        -- the attempt `j` of the rest
        have hrest := ih (k := k + 1) (j := j)
        rw [tried] at hrest
        simp only [List.cons_append, List.getElem?_cons_succ]
        rw [hrest, Nat.add_right_comm k 1 j]
        refine and_congr Iff.rfl (and_congr (by omega) ⟨fun h i hi => ?_, fun h i hi => ?_⟩)
        · cases i with
          | zero => exact hk
          | succ i =>
            have hi' := h i (by omega)
            rwa [Nat.add_right_comm k 1 i] at hi'
        · have hi' := h (i + 1) (by omega)
          rwa [Nat.add_right_comm k 1 i]

/-- At most one attempt has `p`. -/
theorem filter_tried_length_le_one {left : Nat} {p : α → Bool} :
    ((tried again next left 0).filter p).length ≤ 1 ↔
      ∀ i j, i < j → Reached again next left j → p (next i) = true → p (next j) = false := by
  -- at most one in a list, said of its pairs
  have hpairs : ∀ l : List α, (l.filter p).length ≤ 1 ↔
      l.Pairwise fun a b => p a = true → p b = false := by
    intro l
    induction l with
    | nil => simp
    | cons a l ih =>
      rw [List.pairwise_cons]
      cases ha : p a with
      | false => simp [ha, ih]
      | true =>
        rw [List.filter_cons_of_pos ha, List.length_cons]
        constructor
        · intro h
          have hnil : l.filter p = [] := List.length_eq_zero_iff.1 (by omega)
          have hnone : ∀ b ∈ l, p b = false := by simpa using List.filter_eq_nil_iff.1 hnil
          exact ⟨fun b hb _ => hnone b hb, ih.1 (by simp [hnil])⟩
        · rintro ⟨h, -⟩
          have hnil : l.filter p = [] := by
            rw [List.filter_eq_nil_iff]
            intro b hb
            simp [h b hb rfl]
          simp [hnil]
  rw [hpairs, List.pairwise_iff_getElem]
  constructor
  · intro h i j hij hj hi
    have hget : ∀ m ≤ j, (tried again next left 0)[m]? = some (next m) := fun m hm =>
      getElem?_tried.2 ⟨congrArg next (Nat.zero_add m), hm.trans hj.1, fun n hn => by
        rw [Nat.zero_add]
        exact hj.2 n (by omega)⟩
    rcases List.getElem?_eq_some_iff.1 (hget i hij.le) with ⟨hilt, hieq⟩
    rcases List.getElem?_eq_some_iff.1 (hget j le_rfl) with ⟨hjlt, hjeq⟩
    have := h i j hilt hjlt hij
    rw [hieq, hjeq] at this
    exact this hi
  · intro h i j hilt hjlt hij hi
    have hat : ∀ m (hm : m < (tried again next left 0).length),
        next m = (tried again next left 0)[m] ∧ Reached again next left m := by
      intro m hm
      have hget := getElem?_tried.1 (List.getElem?_eq_getElem hm)
      simpa only [Nat.zero_add, Reached] using hget
    rw [← (hat j hjlt).1]
    exact h i j hij (hat j hjlt).2 (by rw [(hat i hilt).1]; exact hi)

end HomeTier.Lib
