import HomeTier.Lib.Trace

/-! # Steps that run down

Some actions of a system are its own, the others come from outside. When each of
its own steps makes a measure smaller, the system comes to rest by itself: no
order of its own steps is longer than the measure, and one that cannot go on
always ends in a state where none of them is enabled.
-/

namespace HomeTier.Lib

universe u v

variable {σ : Type u} {ι : Type v} {step : σ → ι → Option σ} {own : ι → Prop}

/-- None of the system's own steps is enabled. -/
def Settled (step : σ → ι → Option σ) (own : ι → Prop) (s : σ) : Prop :=
  ∀ a, own a → step s a = none

/-- `t` is reached from `s` by own steps, and is at rest. -/
def Settles (step : σ → ι → Option σ) (own : ι → Prop) (s t : σ) : Prop :=
  ∃ as, (∀ a ∈ as, own a) ∧ run step s as = some t ∧ Settled step own t

theorem Settles.refl {s : σ} (h : Settled step own s) : Settles step own s s :=
  ⟨[], by simp, rfl, h⟩

theorem Settles.head {s s' t : σ} {a : ι} (hown : own a) (hs : step s a = some s')
    (h : Settles step own s' t) : Settles step own s t := by
  rcases h with ⟨as, has, hrun, hsettled⟩
  refine ⟨a :: as, List.forall_mem_cons.2 ⟨hown, has⟩, ?_, hsettled⟩
  simp only [run, hs]
  exact hrun

theorem Settles.after {s t u : σ} {as : List ι} (hown : ∀ a ∈ as, own a)
    (hrun : run step s as = some t) (h : Settles step own t u) : Settles step own s u := by
  induction as generalizing s with
  | nil =>
    obtain rfl : s = t := by simpa using hrun
    exact h
  | cons a as ih =>
    rcases run_cons_eq_some hrun with ⟨s', hs, hrest⟩
    have hfirst := List.forall_mem_cons.1 hown
    exact (ih hfirst.2 hrest).head hfirst.1 hs

/-- What own steps preserve holds where they come to rest. -/
theorem Settles.preserves {I : σ → Prop} {s t : σ} (h : Settles step own s t)
    (hstep : ∀ s a s', I s → own a → step s a = some s' → I s') (hinit : I s) : I t := by
  rcases h with ⟨as, has, hrun, -⟩
  induction as generalizing s with
  | nil =>
    obtain rfl : s = t := by simpa using hrun
    exact hinit
  | cons a as ih =>
    rcases run_cons_eq_some hrun with ⟨s', hs, hrest⟩
    have hown := List.forall_mem_cons.1 has
    exact ih (hstep s a s' hinit hown.1 hs) hown.2 hrest

section Measure

variable {I : σ → Prop} (work : σ → Nat)
  (hkeep : ∀ s a s', I s → own a → step s a = some s' → I s')
  (hless : ∀ s a s', I s → own a → step s a = some s' → work s' < work s)

include hkeep hless

/-- No order of own steps is longer than the measure. -/
theorem length_add_work_le {s t : σ} {as : List ι} (hI : I s) (hown : ∀ a ∈ as, own a)
    (hrun : run step s as = some t) : as.length + work t ≤ work s := by
  induction as generalizing s with
  | nil =>
    obtain rfl : s = t := by simpa using hrun
    simp
  | cons a as ih =>
    rcases run_cons_eq_some hrun with ⟨s', hs, hrest⟩
    have hfirst := List.forall_mem_cons.1 hown
    have hlt : work s' < work s := hless s a s' hI hfirst.1 hs
    have hle := ih (hkeep s a s' hI hfirst.1 hs) hfirst.2 hrest
    rw [List.length_cons]
    omega

/-- A state of rest is always reached. -/
theorem exists_settles {s : σ} (hI : I s) : ∃ t, Settles step own s t := by
  induction hwork : work s using Nat.strongRecOn generalizing s with
  | ind n ih =>
    by_cases hsettled : Settled step own s
    · exact ⟨s, .refl hsettled⟩
    · -- some own step is enabled, and leads to less work
      simp only [Settled, not_forall] at hsettled
      rcases hsettled with ⟨a, hown, hne⟩
      rcases Option.ne_none_iff_exists'.1 hne with ⟨s', hs⟩
      have hlt : work s' < n := hwork ▸ hless s a s' hI hown hs
      rcases ih _ hlt (hkeep s a s' hI hown hs) rfl with ⟨t, ht⟩
      exact ⟨t, ht.head hown hs⟩

end Measure

end HomeTier.Lib
