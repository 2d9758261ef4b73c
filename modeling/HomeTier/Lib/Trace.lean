import Mathlib.Data.List.Basic

/-! # Runs of a partial step function

A component that takes one action at a time is given by a step function
`step : σ → ι → Option σ`: `step s a` is the state after action `a`, and
`none` when `a` is not enabled in `s`. A run is a list of actions; an
interleaving of several parties is one list over the union of their actions,
so a statement over every list of actions is a statement over every
interleaving.

The rules below are the ones the rest of the development is built on: an
invariant that may speak about the actions taken so far (`run_invariant`), and
two operators over a run, `Along` (a property of every step taken) and
`Always` (a property of every state visited), with the rule that exchanges
one for the other (`always_iff_along`).
-/

namespace HomeTier.Lib

universe u v

variable {σ : Type u} {ι : Type v} (step : σ → ι → Option σ)

/-- The state after a list of actions, `none` as soon as one is not enabled. -/
@[grind] def run : σ → List ι → Option σ
  | s, [] => some s
  | s, a :: as =>
    match step s a with
    | none => none
    | some s' => run s' as

/-- `P` holds of every step the run takes, in the state before it. -/
@[grind] def Along (P : σ → ι → Prop) : σ → List ι → Prop
  | _, [] => True
  | s, a :: as =>
    match step s a with
    | none => True
    | some s' => P s a ∧ Along P s' as

/-- `I` holds of every state the run visits, the first included. -/
@[grind] def Always (I : σ → Prop) : σ → List ι → Prop
  | s, [] => I s
  | s, a :: as =>
    match step s a with
    | none => I s
    | some s' => I s ∧ Always I s' as

instance decidableAlong (P : σ → ι → Prop) [∀ s a, Decidable (P s a)] :
    ∀ s as, Decidable (Along step P s as)
  | _, [] => .isTrue trivial
  | s, a :: as =>
    show Decidable (match step s a with
      | none => True
      | some s' => P s a ∧ Along step P s' as) from
    match step s a with
    | none => .isTrue trivial
    | some s' => @instDecidableAnd _ _ _ (decidableAlong P s' as)

variable {step}

@[simp] theorem run_nil (s : σ) : run step s [] = some s := rfl

@[simp] theorem along_nil (P : σ → ι → Prop) (s : σ) : Along step P s [] := trivial

variable {as : List ι} {s t : σ}

theorem run_cons_eq_some {a : ι} (h : run step s (a :: as) = some t) :
    ∃ s', step s a = some s' ∧ run step s' as = some t := by
  unfold run at h
  cases hs : step s a with
  | none => simp [hs] at h
  | some s' => exact ⟨s', rfl, by simpa [hs] using h⟩

/-- One more step at the end. -/
theorem run_concat {s t t' : σ} {a : ι} (h : run step s as = some t)
    (ha : step t a = some t') : run step s (as ++ [a]) = some t' := by
  induction as generalizing s with
  | nil =>
    obtain rfl : s = t := by simpa using h
    simp [run, ha]
  | cons b as ih =>
    rcases run_cons_eq_some h with ⟨s', hs, hrest⟩
    simp only [List.cons_append, run, hs]
    exact ih hrest

variable {P : σ → ι → Prop}

theorem along_cons {s s' : σ} {a : ι} (h : step s a = some s')
    (as : List ι) : Along step P s (a :: as) ↔ P s a ∧ Along step P s' as := by
  simp [Along, h]

theorem along_of_forall (h : ∀ s a, P s a) (s : σ) (as : List ι) : Along step P s as := by
  induction as generalizing s with
  | nil => trivial
  | cons a as ih =>
    cases hs : step s a with
    | none => simp [Along, hs]
    | some s' => exact (along_cons hs as).2 ⟨h s a, ih s'⟩

theorem along_and {P Q : σ → ι → Prop} :
    Along step (fun s a => P s a ∧ Q s a) s as ↔ Along step P s as ∧ Along step Q s as := by
  induction as generalizing s with
  | nil => simp
  | cons a as ih =>
    cases hs : step s a with
    | none => simp [Along, hs]
    | some s' =>
      rw [along_cons hs, along_cons hs, along_cons hs, ih]
      constructor
      · rintro ⟨⟨hP, hQ⟩, hPs, hQs⟩
        exact ⟨⟨hP, hPs⟩, hQ, hQs⟩
      · rintro ⟨⟨hP, hPs⟩, hQ, hQs⟩
        exact ⟨⟨hP, hQ⟩, hPs, hQs⟩

/-- Two properties that agree on the states of an invariant hold along the same
runs. -/
theorem along_congr {J : σ → Prop} {P Q : σ → ι → Prop}
    (hinv : ∀ s a s', J s → step s a = some s' → J s') (hPQ : ∀ s a, J s → (P s a ↔ Q s a))
    (hJ : J s) : Along step P s as ↔ Along step Q s as := by
  induction as generalizing s with
  | nil => exact Iff.rfl
  | cons a as ih =>
    cases hs : step s a with
    | none => simp [Along, hs]
    | some s' =>
      have hrest := ih (hinv s a s' hJ hs)
      rw [along_cons hs, along_cons hs, hPQ s a hJ, hrest]

variable {I Q : σ → Prop}

/-- Two properties that agree on the states of `I` hold along the same runs from there, when
one of them keeps `I`. -/
theorem along_iff {P Q : σ → ι → Prop} (hQP : ∀ s a s', I s → step s a = some s' → (Q s a ↔ P s a))
    (hkeep : ∀ s a s', I s → step s a = some s' → Q s a → I s')
    (hI : I s) (as : List ι) : Along step Q s as ↔ Along step P s as := by
  induction as generalizing s with
  | nil => exact Iff.rfl
  | cons a as ih =>
    cases hs : step s a with
    | none => simp [Along, hs]
    | some s' =>
      have hsame := hQP s a s' hI hs
      rw [along_cons hs, along_cons hs, ← hsame]
      exact and_congr_right fun hQ => ih (hkeep s a s' hI hs hQ)

/-- What holds along a run holds of a step in its middle. -/
theorem Along.of_append {s t t' : σ} {front as : List ι} {a : ι}
    (h : Along step P s (front ++ a :: as)) (hrun : run step s front = some t)
    (ha : step t a = some t') : P t a := by
  induction front generalizing s with
  | nil =>
    obtain rfl : s = t := by simpa using hrun
    exact ((along_cons ha as).1 h).1
  | cons b front ih =>
    rcases run_cons_eq_some hrun with ⟨s', hs, hrest⟩
    exact ih ((along_cons hs _).1 h).2 hrest

theorem always_cons {s s' : σ} {a : ι} (h : step s a = some s')
    (as : List ι) : Always step I s (a :: as) ↔ I s ∧ Always step I s' as := by
  simp [Always, h]

theorem always_head (h : Always step I s as) : I s := by
  cases as with
  | nil => exact h
  | cons a as =>
    cases hs : step s a with
    | none => simpa [Always, hs] using h
    | some s' => exact ((always_cons hs as).1 h).1

/-- What always holds holds at the end of the run. -/
theorem Always.mono (hQ : ∀ s, I s → Q s) (h : Always step I s as) : Always step Q s as := by
  induction as generalizing s with
  | nil => exact hQ s h
  | cons a as ih =>
    cases hs : step s a with
    | none => simpa [Always, hs] using hQ s (always_head h)
    | some s' =>
      rw [always_cons hs] at h ⊢
      exact ⟨hQ s h.1, ih h.2⟩

theorem always_run (h : Always step I s as) (hrun : run step s as = some t) : I t := by
  induction as generalizing s with
  | nil =>
    obtain rfl : s = t := by simpa using hrun
    exact h
  | cons a as ih =>
    rcases run_cons_eq_some hrun with ⟨s', hs, hrest⟩
    exact ih ((always_cons hs as).1 h).2 hrest

/-- A closed run that ends where something that follows from `I` fails. -/
theorem not_always_of_run [DecidablePred Q] (hQ : ∀ s, I s → Q s)
    (hrun : (run step s as).any (fun t => !decide (Q t)) = true) :
    ¬ Always step I s as := by
  intro h
  cases hr : run step s as with
  | none => simp [hr] at hrun
  | some t =>
    have hend : Q t := hQ t (always_run h hr)
    simp [hr, hend] at hrun

/-- Invariant rule with history: `Inv h s` may mention the actions `h` taken
so far, and each step may use what `Along` says about it. -/
theorem run_invariant (Inv : List ι → σ → Prop)
    (hstep : ∀ h s a s', Inv h s → P s a → step s a = some s' → Inv (h ++ [a]) s')
    {h : List ι} (hinit : Inv h s) (hP : Along step P s as)
    (hrun : run step s as = some t) : Inv (h ++ as) t := by
  induction as generalizing h s with
  | nil =>
    obtain rfl : s = t := by simpa using hrun
    simpa using hinit
  | cons a as ih =>
    obtain ⟨s', hs, hrest⟩ := run_cons_eq_some hrun
    have hP' := (along_cons hs as).1 hP
    have hinv : Inv (h ++ [a]) s' := hstep h s a s' hinit hP'.1 hs
    simpa using ih hinv hP'.2 hrest

/-- What every step preserves holds at the end of a run. -/
theorem run_preserves (hstep : ∀ s a s', I s → step s a = some s' → I s')
    (hinit : I s) (hrun : run step s as = some t) : I t := by
  induction as generalizing s with
  | nil =>
    obtain rfl : s = t := by simpa using hrun
    exact hinit
  | cons a as ih =>
    rcases run_cons_eq_some hrun with ⟨s', hs, hrest⟩
    exact ih (hstep s a s' hinit hs) hrest

/-- Invariant rule: what every step of the run preserves holds throughout, and
so does all that follows from it. -/
theorem always_of_along (hQ : ∀ s, I s → Q s)
    (hstep : ∀ s a s', I s → P s a → step s a = some s' → I s')
    (hinit : I s) (hP : Along step P s as) : Always step Q s as := by
  induction as generalizing s with
  | nil => exact hQ s hinit
  | cons a as ih =>
    cases hs : step s a with
    | none => simpa [Always, hs] using hQ s hinit
    | some s' =>
      have hP' := (along_cons hs as).1 hP
      exact (always_cons hs as).2 ⟨hQ s hinit, ih (hstep s a s' hinit hP'.1 hs) hP'.2⟩

/-- If `I` gives `Q`, and among states of an invariant `J` a step from `I` leads to `I`
where it satisfies `P`, and not to `Q` where it does not, then `Q` holds along a run
exactly when all its steps satisfy `P`. -/
theorem always_iff_along_of {I J Q : σ → Prop} (hQ : ∀ s, I s → Q s)
    (hinv : ∀ s a s', J s → step s a = some s' → J s')
    (hkeeps : ∀ s a s', J s → I s → step s a = some s' → P s a → I s')
    (hneeded : ∀ s a s', J s → I s → step s a = some s' → Q s' → P s a)
    (hJ : J s) (hinit : I s) (as : List ι) :
    Always step Q s as ↔ Along step P s as := by
  induction as generalizing s with
  | nil => simpa [Always, Along] using hQ s hinit
  | cons a as ih =>
    cases hs : step s a with
    | none => simpa [Always, Along, hs] using hQ s hinit
    | some s' =>
      have hJ' : J s' := hinv s a s' hJ hs
      rw [always_cons hs, along_cons hs]
      constructor
      · rintro ⟨-, hrest⟩
        -- the head of `hrest` is the state right after the step
        have hPa : P s a := hneeded s a s' hJ hinit hs (always_head hrest)
        exact ⟨hPa, (ih hJ' (hkeeps s a s' hJ hinit hs hPa)).1 hrest⟩
      · rintro ⟨hPa, hrest⟩
        exact ⟨hQ s hinit, (ih hJ' (hkeeps s a s' hJ hinit hs hPa)).2 hrest⟩

/-- If, among states of an invariant `J`, a step keeps `I` exactly when it
satisfies `P`, then a run stays in `I` exactly when all its steps satisfy `P`. -/
theorem always_iff_along {I J : σ → Prop} (hinv : ∀ s a s', J s → step s a = some s' → J s')
    (hstep : ∀ s a s', J s → I s → step s a = some s' → (I s' ↔ P s a))
    (hJ : J s) (hinit : I s) (as : List ι) :
    Always step I s as ↔ Along step P s as :=
  always_iff_along_of (fun _ hI => hI) hinv
    (fun s a s' hJ hI hs => (hstep s a s' hJ hI hs).2)
    (fun s a s' hJ hI hs => (hstep s a s' hJ hI hs).1) hJ hinit as

/-! ## Runs to the end of a task -/

/-- The run of a task: all actions are taken, and the task has ended after the last
one and not before. -/
def runUntil (ended : σ → Prop) [DecidablePred ended] (step : σ → ι → Option σ) :
    σ → List ι → Option σ
  | s, [] => if ended s then some s else none
  | s, a :: as => if ended s then none else (step s a).bind fun s' => runUntil ended step s' as

/-- A flag after actions that set it, reset it or leave it. -/
def latch (sets resets : ι → Bool) : Bool → List ι → Bool
  | flag, [] => flag
  | flag, a :: as => latch sets resets (sets a || (flag && !resets a)) as

section Tasks

variable {ended : σ → Prop} [DecidablePred ended]

theorem runUntil_cons {s t : σ} {a : ι} {as : List ι}
    (h : runUntil ended step s (a :: as) = some t) :
    ¬ ended s ∧ ∃ s', step s a = some s' ∧ runUntil ended step s' as = some t := by
  unfold runUntil at h
  split at h
  · cases h
  · rename_i hended
    exact ⟨hended, Option.bind_eq_some_iff.1 h⟩

theorem runUntil_nil {s t : σ} (h : runUntil ended step s [] = some t) : ended s ∧ t = s := by
  unfold runUntil at h
  split at h
  · rename_i hended
    exact ⟨hended, (Option.some.inj h).symm⟩
  · cases h

/-- A flag that every step of a task sets, resets or leaves is a latch over its run. -/
theorem runUntil_latch (J : σ → Prop) (flag : σ → Bool) {sets resets : ι → Bool}
    (hstep : ∀ s a s', J s → ¬ ended s → step s a = some s' →
      J s' ∧ flag s' = (sets a || (flag s && !resets a)))
    {s t : σ} {as : List ι} (hJ : J s) (h : runUntil ended step s as = some t) :
    flag t = latch sets resets (flag s) as := by
  induction as generalizing s with
  | nil =>
    rcases runUntil_nil h with ⟨-, rfl⟩
    rfl
  | cons a as ih =>
    rcases runUntil_cons h with ⟨hended, s', hs, hrest⟩
    rcases hstep s a s' hJ hended hs with ⟨hJ', hflag⟩
    rw [ih hJ' hrest, hflag]
    rfl

end Tasks

end HomeTier.Lib
