import Mathlib.Data.List.Nodup
import Mathlib.Tactic.Tauto

/-! # The first of each key

`distinctFrom key skip seen as` goes through a list with the set of the keys it has seen,
and keeps an element when its key is new and none that is skipped. The keys that are left
are those of the list, each once, and a list of which nothing is left out is unchanged.
-/

namespace HomeTier.Lib

variable {α κ : Type} [DecidableEq κ] (key : α → κ) (skip : κ → Prop) [DecidablePred skip]

/-- `retain` with `HashSet::insert`. -/
def distinctFrom : List κ → List α → List α
  | _, [] => []
  | seen, a :: as =>
    if skip (key a) ∨ key a ∈ seen then distinctFrom seen as
    else a :: distinctFrom (key a :: seen) as

variable {key skip} in
/-- What is skipped may as well have been seen. -/
theorem distinctFrom_congr {skip' : κ → Prop} [DecidablePred skip'] {seen seen' : List κ}
    (h : ∀ k, skip k ∨ k ∈ seen ↔ skip' k ∨ k ∈ seen') (as : List α) :
    distinctFrom key skip seen as = distinctFrom key skip' seen' as := by
  induction as generalizing seen seen' with
  | nil => rfl
  | cons a as ih =>
    simp only [distinctFrom, h (key a)]
    split
    · exact ih h
    · rw [ih]
      intro k
      have hk := h k
      simp only [List.mem_cons]
      tauto

theorem mem_map_distinctFrom (seen : List κ) (as : List α) (k : κ) :
    k ∈ (distinctFrom key skip seen as).map key ↔ k ∈ as.map key ∧ ¬ skip k ∧ k ∉ seen := by
  induction as generalizing seen with
  | nil => simp [distinctFrom]
  | cons a as ih =>
    rw [distinctFrom]
    split
    · next hout =>
      simp only [ih, List.map_cons, List.mem_cons]
      constructor
      · rintro ⟨hk, hrest⟩
        exact ⟨.inr hk, hrest⟩
      · rintro ⟨rfl | hk, hskip, hseen⟩
        · exact absurd hout (not_or.2 ⟨hskip, hseen⟩)
        · exact ⟨hk, hskip, hseen⟩
    · next hin =>
      simp only [List.map_cons, List.mem_cons, ih, not_or]
      constructor
      · rintro (rfl | ⟨hk, hskip, -, hseen⟩)
        · exact ⟨.inl rfl, not_or.1 hin⟩
        · exact ⟨.inr hk, hskip, hseen⟩
      · rintro ⟨hk, hskip, hseen⟩
        by_cases hka : k = key a
        · exact .inl hka
        · exact .inr ⟨hk.resolve_left hka, hskip, hka, hseen⟩

theorem nodup_distinctFrom (seen : List κ) (as : List α) :
    ((distinctFrom key skip seen as).map key).Nodup := by
  induction as generalizing seen with
  | nil => simp [distinctFrom]
  | cons a as ih =>
    rw [distinctFrom]
    split
    · exact ih seen
    · rw [List.map_cons, List.nodup_cons]
      refine ⟨?_, ih _⟩
      intro hmem
      exact ((mem_map_distinctFrom key skip _ as (key a)).1 hmem).2.2 List.mem_cons_self

variable {key skip} in
theorem distinctFrom_eq_self {seen : List κ} {as : List α} (hnodup : (as.map key).Nodup)
    (hkeep : ∀ a ∈ as, ¬ skip (key a) ∧ key a ∉ seen) : distinctFrom key skip seen as = as := by
  induction as generalizing seen with
  | nil => rfl
  | cons a as ih =>
    rw [List.map_cons, List.nodup_cons] at hnodup
    rw [distinctFrom, if_neg (not_or.2 (hkeep a List.mem_cons_self)), ih hnodup.2]
    intro b hb
    refine ⟨(hkeep b (List.mem_cons_of_mem _ hb)).1, ?_⟩
    intro hmem
    rcases List.mem_cons.1 hmem with heq | hseen
    · exact hnodup.1 (heq ▸ List.mem_map_of_mem hb)
    · exact (hkeep b (List.mem_cons_of_mem _ hb)).2 hseen

end HomeTier.Lib
