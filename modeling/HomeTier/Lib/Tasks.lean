import Mathlib.Algebra.Order.BigOperators.Group.List
import Mathlib.Algebra.Order.Ring.Nat
import HomeTier.Lib.Trace

/-! # Asynchronous functions on one thread

A page runs its functions one at a time, each as far as its next `await`. What
is then left of it waits for an answer, together with the variables it holds;
the answer may come at any time after, in any order with those of the others.
So a page is what its functions share, and the list of those that wait.

A step starts a function (a call, a click, an event) or gives one that waits its
answer. An interleaving is a list of steps. The rules below speak about one
function at a time: what holds before an answer is taken is `Inv s (t :: ws)`,
with `t` the one that goes on, and `ws` the others.
-/

namespace HomeTier.Lib

/-- What waits is of type `τ`. -/
structure Page (σ τ : Type) where
  shared : σ
  waiting : List τ
deriving DecidableEq

/-- A call or an event of type `ε`, or an answer of type `α`. -/
inductive PageAct (τ ε α : Type) where
  | start (e : ε)
  | resume (t : τ) (a : α)
deriving DecidableEq

/-- The functions of a page, between one `await` and the next: what becomes of
the shared state, and what waits then. `none`: this cannot come now. -/
structure Script (σ τ ε α : Type) where
  start : σ → ε → Option (σ × List τ)
  resume : σ → τ → α → Option (σ × List τ)

namespace Script

variable {σ τ ε α : Type} [DecidableEq τ] (script : Script σ τ ε α)

def step (p : Page σ τ) : PageAct τ ε α → Option (Page σ τ)
  | .start e =>
    match script.start p.shared e with
    | none => none
    | some (s, ts) => some ⟨s, p.waiting ++ ts⟩
  | .resume t a =>
    if t ∈ p.waiting then
      match script.resume p.shared t a with
      | none => none
      | some (s, ts) => some ⟨s, p.waiting.erase t ++ ts⟩
    else none

/-- `P` of the state, of what else waits, and of the step taken. -/
def Within (P : σ → List τ → PageAct τ ε α → Prop) (p : Page σ τ) : PageAct τ ε α → Prop
  | .start e => P p.shared p.waiting (.start e)
  | .resume t a => P p.shared (p.waiting.erase t) (.resume t a)

instance (P : σ → List τ → PageAct τ ε α → Prop) [h : ∀ s ws a, Decidable (P s ws a)] :
    ∀ (p : Page σ τ) (a : PageAct τ ε α), Decidable (Within P p a)
  | p, .start e => h p.shared p.waiting (.start e)
  | p, .resume t a => h p.shared (p.waiting.erase t) (.resume t a)

variable {script}

theorem step_cases {p p' : Page σ τ} {a : PageAct τ ε α} (h : script.step p a = some p') :
    (∃ e s ts, a = .start e ∧ script.start p.shared e = some (s, ts) ∧
      p' = ⟨s, p.waiting ++ ts⟩) ∨
    (∃ t b s ts, a = .resume t b ∧ t ∈ p.waiting ∧
      script.resume p.shared t b = some (s, ts) ∧ p' = ⟨s, p.waiting.erase t ++ ts⟩) := by
  cases a with
  | start e =>
    simp only [step] at h
    split at h
    · cases h
    · rename_i s ts hs
      exact .inl ⟨e, s, ts, rfl, hs, (Option.some.inj h).symm⟩
  | resume t b =>
    simp only [step] at h
    split at h
    · rename_i ht
      split at h
      · cases h
      · rename_i s ts hs
        exact .inr ⟨t, b, s, ts, rfl, ht, hs, (Option.some.inj h).symm⟩
    · cases h

/-! ## Invariants -/

/-- For what at most one function at a time does. -/
theorem eq_of_perm_of_length_le {α : Type} {l l' : List α} (h : l.Perm l') (hl : l.length ≤ 1) :
    l = l' := by
  match l, hl with
  | [], _ => exact h.nil_eq
  | [a], _ => exact List.singleton_perm.mp h

section Invariants

variable {Inv : σ → List τ → Prop} {P : σ → List τ → PageAct τ ε α → Prop}

/-- `Inv` does not depend on the order in which the tasks are listed, and each
part of a function that satisfies `P` keeps it. -/
structure Keeps (script : Script σ τ ε α) (P : σ → List τ → PageAct τ ε α → Prop)
    (Inv : σ → List τ → Prop) : Prop where
  perm : ∀ s ws ws', ws.Perm ws' → Inv s ws → Inv s ws'
  start : ∀ s ws e s' ts, Inv s ws → P s ws (.start e) → script.start s e = some (s', ts) →
    Inv s' (ws ++ ts)
  resume : ∀ s ws t a s' ts, Inv s (t :: ws) → P s ws (.resume t a) →
    script.resume s t a = some (s', ts) → Inv s' (ws ++ ts)

theorem Keeps.step (h : script.Keeps P Inv) {p p' : Page σ τ} {a : PageAct τ ε α}
    (hinv : Inv p.shared p.waiting) (hP : Within P p a) (hstep : script.step p a = some p') :
    Inv p'.shared p'.waiting := by
  rcases step_cases hstep with ⟨e, s, ts, rfl, hs, rfl⟩ | ⟨t, b, s, ts, rfl, ht, hs, rfl⟩
  · exact h.start _ _ _ _ _ hinv hP hs
  · exact h.resume _ _ _ _ _ _ (h.perm _ _ _ (List.perm_cons_erase ht) hinv) hP hs

/-- Holds at the end of every run whose steps all satisfy `P`. -/
theorem Keeps.run (h : script.Keeps P Inv) {p p' : Page σ τ} {as : List (PageAct τ ε α)}
    (hinit : Inv p.shared p.waiting) (hP : Along script.step (Within P) p as)
    (hrun : Lib.run script.step p as = some p') : Inv p'.shared p'.waiting :=
  run_invariant (fun _ p => Inv p.shared p.waiting)
    (fun _ _ _ _ hinv hPa hstep => h.step hinv hPa hstep) (h := []) hinit hP hrun

/-- Holds in every state of such a run, and so does what follows from it. -/
theorem Keeps.always (h : script.Keeps P Inv) {Q : Page σ τ → Prop}
    (hQ : ∀ p : Page σ τ, Inv p.shared p.waiting → Q p) {p : Page σ τ}
    {as : List (PageAct τ ε α)} (hinit : Inv p.shared p.waiting)
    (hP : Along script.step (Within P) p as) : Always script.step Q p as :=
  always_of_along (I := fun p => Inv p.shared p.waiting) hQ
    (fun _ _ _ hinv hPa hstep => h.step hinv hPa hstep) hinit hP

end Invariants

/-! ## Coming to an end -/

section Ends

/-- The answers still to be taken, where `w` bounds those of each function. -/
def steps (w : σ → τ → Nat) (p : Page σ τ) : Nat := (p.waiting.map (w p.shared)).sum

/-- Where every answer brings the bound down, a page takes so many answers and
no more before something new is started. -/
theorem answers_length_le {w : σ → τ → Nat}
    (h : ∀ s t a s' ts, script.resume s t a = some (s', ts) →
      (∀ u, w s' u ≤ w s u) ∧ (ts.map (w s')).sum < w s t)
    {p p' : Page σ τ} {as : List (τ × α)}
    (hrun : Lib.run script.step p (as.map fun x => .resume x.1 x.2) = some p') :
    as.length ≤ steps w p := by
  induction as generalizing p with
  | nil => exact Nat.zero_le _
  | cons x as ih =>
    rcases run_cons_eq_some hrun with ⟨q, hq, hrest⟩
    rcases step_cases hq with ⟨e, s, ts, he, -, -⟩ | ⟨t, b, s, ts, he, ht, hs, rfl⟩
    · cases he
    · rcases h _ _ _ _ _ hs with ⟨hmono, hlt⟩
      have hsum := List.sum_map_erase (w p.shared) ht
      have hothers : ((p.waiting.erase t).map (w s)).sum ≤
          ((p.waiting.erase t).map (w p.shared)).sum := List.sum_le_sum fun u _ => hmono u
      have hlen := ih hrest
      simp only [steps, List.map_append, List.sum_append] at hlen ⊢
      simp only [List.length_cons]
      omega

end Ends

end Script

end HomeTier.Lib
