import Mathlib.Order.Lattice
import HomeTier.Lib.Trace

/-! # One component of a system, and replicas that join

A system whose parts take steps of their own is a step function over the states
of all of them. Seen at one part, a step of the system is a few steps of that
part, often none; so a run of the system is a run of every part
(`run_projected`), and what holds along the one holds along the other
(`along_projected`).

A replica that joins what it is given to what it has ends with the join of all
of it, whatever the order and however often a thing is given
(`joined_congr`).
-/

namespace HomeTier.Lib

universe u v w x

section Projected

variable {σ : Type u} {ι : Type v} {τ : Type w} {κ : Type x}
variable {step : σ → ι → Option σ} {cstep : τ → κ → Option τ}

theorem run_append (s : σ) (as bs : List ι) :
    run step s (as ++ bs) = (run step s as).bind fun t => run step t bs := by
  induction as generalizing s with
  | nil => rfl
  | cons a as ih =>
    simp only [List.cons_append, run]
    cases step s a with
    | none => rfl
    | some s' => exact ih s'

theorem Along.append {P : σ → ι → Prop} {s t : σ} {as bs : List ι} (h : Along step P s as)
    (hrun : run step s as = some t) (hrest : Along step P t bs) :
    Along step P s (as ++ bs) := by
  induction as generalizing s with
  | nil =>
    obtain rfl : s = t := by simpa using hrun
    exact hrest
  | cons a as ih =>
    rcases run_cons_eq_some hrun with ⟨s', hs, hrun'⟩
    rw [along_cons hs] at h
    exact (along_cons hs _).2 ⟨h.1, ih h.2 hrun'⟩

variable (step) in
/-- The steps of the part, one step of the system after the other. -/
def projected (acts : σ → ι → List κ) : σ → List ι → List κ
  | _, [] => []
  | s, a :: as =>
    match step s a with
    | none => []
    | some s' => acts s a ++ projected acts s' as

theorem projected_cons {acts : σ → ι → List κ} {s s' : σ} {a : ι} (h : step s a = some s')
    (as : List ι) : projected step acts s (a :: as) = acts s a ++ projected step acts s' as := by
  simp [projected, h]

variable (view : σ → τ) {acts : σ → ι → List κ}

/-- A run is seen as a run of the other system. -/
theorem run_projected
    (hview : ∀ s a s', step s a = some s' → run cstep (view s) (acts s a) = some (view s'))
    {s t : σ} {as : List ι} (h : run step s as = some t) :
    run cstep (view s) (projected step acts s as) = some (view t) := by
  induction as generalizing s with
  | nil =>
    obtain rfl : s = t := by simpa using h
    rfl
  | cons a as ih =>
    rcases run_cons_eq_some h with ⟨s', hs, hrest⟩
    rw [projected_cons hs, run_append, hview s a s' hs]
    exact ih hrest

/-- So is what each of its steps meets. -/
theorem along_projected {P : σ → ι → Prop} {Q : τ → κ → Prop}
    (hview : ∀ s a s', step s a = some s' → run cstep (view s) (acts s a) = some (view s'))
    (hP : ∀ s a s', step s a = some s' → P s a → Along cstep Q (view s) (acts s a))
    {s : σ} {as : List ι} (h : Along step P s as) :
    Along cstep Q (view s) (projected step acts s as) := by
  induction as generalizing s with
  | nil => trivial
  | cons a as ih =>
    cases hs : step s a with
    | none =>
      simp [projected, hs]
    | some s' =>
      rw [along_cons hs] at h
      rw [projected_cons hs]
      exact (hP s a s' hs h.1).append (hview s a s' hs) (ih h.2)

/-- What the part has recorded is what its steps record. -/
theorem record_projected {ρ : Type x} (record : σ → List ρ) {recorded : κ → List ρ}
    (hrecord : ∀ s a s', step s a = some s' →
      record s' = record s ++ (acts s a).flatMap recorded)
    {s t : σ} {as : List ι} (h : run step s as = some t) :
    record t = record s ++ (projected step acts s as).flatMap recorded := by
  induction as generalizing s with
  | nil =>
    obtain rfl : s = t := by simpa using h
    simp [projected]
  | cons a as ih =>
    rcases run_cons_eq_some h with ⟨s', hs, hrest⟩
    rw [ih hrest, hrecord s a s' hs, projected_cons hs, List.flatMap_append, List.append_assoc]

end Projected

section Joined

variable {α : Type u} [SemilatticeSup α]

/-- `a` joined with everything in the list. -/
def joined (a : α) (xs : List α) : α := xs.foldr (fun x b => x ⊔ b) a

@[simp] theorem joined_nil (a : α) : joined a [] = a := rfl

@[simp] theorem joined_cons (a x : α) (xs : List α) : joined a (x :: xs) = x ⊔ joined a xs := rfl

theorem joined_le_iff {a b : α} {xs : List α} : joined a xs ≤ b ↔ a ≤ b ∧ ∀ x ∈ xs, x ≤ b := by
  induction xs with
  | nil => simp
  | cons x xs ih =>
    rw [joined_cons, sup_le_iff, ih, List.forall_mem_cons]
    tauto

theorem le_joined (a : α) (xs : List α) : a ≤ joined a xs := (joined_le_iff.1 le_rfl).1

theorem le_joined_of_mem {a x : α} {xs : List α} (h : x ∈ xs) : x ≤ joined a xs :=
  (joined_le_iff.1 le_rfl).2 x h

theorem joined_congr (a : α) {xs ys : List α} (h : ∀ x, x ∈ xs ↔ x ∈ ys) :
    joined a xs = joined a ys := by
  apply le_antisymm
  · exact joined_le_iff.2 ⟨le_joined a ys, fun x hx => le_joined_of_mem ((h x).1 hx)⟩
  · exact joined_le_iff.2 ⟨le_joined a xs, fun x hx => le_joined_of_mem ((h x).2 hx)⟩

end Joined

end HomeTier.Lib
