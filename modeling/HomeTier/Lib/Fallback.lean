import Mathlib.Data.List.Infix

/-! # Falling back

Attempts are made in turn. One that is done, or gives up for all of them, ends the run;
the others leave an error to the next. `upTo p` is a list up to the first element with `p`:
these are the attempts that are made, if `p` says which ones end the run (`fallback_eq`).
-/

namespace HomeTier.Lib

variable {σ β ε α : Type}

/-- What an attempt comes to. -/
inductive Attempt (ε α : Type) where
  | done (a : α)
  | next (e : ε)
  | abort (e : ε)

namespace Attempt

/-- No further attempt is made. -/
def Ends : Attempt ε α → Prop
  | next _ => False
  | done _ | abort _ => True

/-- What a run that it ends comes to. -/
def result : Attempt ε α → Except ε α
  | done a => .ok a
  | next e | abort e => .error e

@[simp] theorem ends_done (a : α) : (done a : Attempt ε α).Ends := trivial

@[simp] theorem ends_abort (e : ε) : (abort e : Attempt ε α).Ends := trivial

@[simp] theorem not_ends_next (e : ε) : ¬ (next e : Attempt ε α).Ends := id

end Attempt

section Run

variable (attempt : σ → β → σ × Attempt ε α) (exhausted : ε → ε)

/-- Attempts in turn, with the error of the last one. -/
def fallback : σ → ε → List β → σ × Except ε α
  | s, last, [] => (s, .error (exhausted last))
  | s, _, b :: bs =>
    match attempt s b with
    | (s', .done a) => (s', .ok a)
    | (s', .abort e) => (s', .error e)
    | (s', .next e) => fallback s' e bs

/-- The state after some attempts. -/
def attempted (s : σ) (bs : List β) : σ := bs.foldl (fun s b => (attempt s b).1) s

variable {attempt exhausted}

@[simp] theorem attempted_nil (s : σ) : attempted attempt s [] = s := rfl

@[simp] theorem attempted_cons (s : σ) (b : β) (bs : List β) :
    attempted attempt s (b :: bs) = attempted attempt (attempt s b).1 bs := rfl

theorem fallback_cons_of_ends {s : σ} {b : β} (h : (attempt s b).2.Ends) (last : ε) (bs : List β) :
    fallback attempt exhausted s last (b :: bs) = ((attempt s b).1, (attempt s b).2.result) := by
  rw [fallback]
  split
  · rename_i hb
    rw [hb]
    rfl
  · rename_i hb
    rw [hb]
    rfl
  · rename_i hb
    rw [hb] at h
    exact absurd h (Attempt.not_ends_next _)

variable (exhausted) in
theorem fallback_cons_of_not_ends {s : σ} {b : β} (h : ¬ (attempt s b).2.Ends) (last : ε)
    (bs : List β) : ∃ last', fallback attempt exhausted s last (b :: bs) =
      fallback attempt exhausted (attempt s b).1 last' bs := by
  rw [fallback]
  split
  · rename_i hb
    rw [hb] at h
    exact absurd (Attempt.ends_done _) h
  · rename_i hb
    rw [hb] at h
    exact absurd (Attempt.ends_abort _) h
  · rename_i hb
    rw [hb]
    exact ⟨_, rfl⟩

end Run

/-! ## The attempts that are made -/

section UpTo

variable (p : β → Bool)

/-- Up to the first element with `p`, or all. -/
def upTo : List β → List β
  | [] => []
  | b :: bs => if p b then [b] else b :: upTo bs

variable {p}

@[simp] theorem upTo_nil : upTo p [] = [] := rfl

theorem upTo_cons_of_pos {b : β} (h : p b = true) (bs : List β) : upTo p (b :: bs) = [b] :=
  if_pos h

theorem upTo_cons_of_neg {b : β} (h : ¬ p b = true) (bs : List β) :
    upTo p (b :: bs) = b :: upTo p bs :=
  if_neg h

theorem upTo_ne_nil {b : β} {bs : List β} : upTo p (b :: bs) ≠ [] := by
  rw [upTo]
  split
  · exact List.cons_ne_nil _ _
  · exact List.cons_ne_nil _ _

/-- A weaker `p` is met at the same place, unless it is met first by an element without the
other that is not the last one. -/
theorem upTo_eq_iff {q : β → Bool} (hle : ∀ b, p b = true → q b = true) (bs : List β) :
    upTo q bs = upTo p bs ↔
      ∀ b rest, bs.dropWhile (! q ·) = b :: rest → p b = true ∨ rest = [] := by
  induction bs with
  | nil => simp
  | cons b bs ih =>
    by_cases hq : q b = true
    · rw [upTo_cons_of_pos hq, List.dropWhile_cons_of_neg (by simpa using hq)]
      by_cases hp : p b = true
      · rw [upTo_cons_of_pos hp]
        refine iff_of_true rfl ?_
        intro b' rest heq
        obtain ⟨rfl, -⟩ := List.cons.inj heq
        exact .inl hp
      · rw [upTo_cons_of_neg hp]
        cases bs with
        | nil => simp
        | cons c bs => simp [upTo_ne_nil.symm, hp]
    · have hp : ¬ p b = true := fun hp => hq (hle b hp)
      rw [upTo_cons_of_neg hq, upTo_cons_of_neg hp, List.dropWhile_cons_of_pos (by simpa using hq),
        List.cons.injEq, and_iff_right rfl, ih]

end UpTo

section Run

variable {attempt : σ → β → σ × Attempt ε α} {exhausted : ε → ε} {ends : β → Bool}

/-- Which attempts end a run is known beforehand. -/
def Foreseen (attempt : σ → β → σ × Attempt ε α) (ends : β → Bool) : Prop :=
  ∀ s b, (attempt s b).2.Ends ↔ ends b = true

variable (exhausted) in
/-- A run is over with the first attempt that ends it, and else when all are made. -/
theorem fallback_eq (h : Foreseen attempt ends) (s : σ) (last : ε) (bs : List β) :
    (∃ before b rest, bs = before ++ b :: rest ∧ (∀ b' ∈ before, ends b' = false) ∧
      ends b = true ∧ fallback attempt exhausted s last bs =
        ((attempt (attempted attempt s before) b).1,
          (attempt (attempted attempt s before) b).2.result)) ∨
    ((∀ b ∈ bs, ends b = false) ∧ ∃ last', fallback attempt exhausted s last bs =
      (attempted attempt s bs, .error (exhausted last'))) := by
  induction bs generalizing s last with
  | nil => exact .inr ⟨by simp, last, rfl⟩
  | cons b bs ih =>
    by_cases hb : ends b = true
    · exact .inl ⟨[], b, bs, rfl, by simp, hb, fallback_cons_of_ends ((h s b).2 hb) last bs⟩
    · obtain ⟨last', heq⟩ := fallback_cons_of_not_ends exhausted
        (fun hends => hb ((h s b).1 hends)) last bs
      rw [Bool.not_eq_true] at hb
      rw [heq]
      rcases ih (attempt s b).1 last' with ⟨before, c, rest, rfl, hbefore, hc, hrun⟩ | ⟨hall, last'', hrun⟩
      · refine .inl ⟨b :: before, c, rest, rfl, ?_, hc, hrun⟩
        intro b' hmem
        rcases List.mem_cons.1 hmem with rfl | hmem
        · exact hb
        · exact hbefore b' hmem
      · refine .inr ⟨?_, last'', hrun⟩
        intro b' hmem
        rcases List.mem_cons.1 hmem with rfl | hmem
        · exact hb
        · exact hall b' hmem

/-- What no attempt changes is unchanged after some. -/
theorem attempted_frame {γ : Type} (f : σ → γ) {bs : List β}
    (h : ∀ b ∈ bs, ∀ s, f (attempt s b).1 = f s) (s : σ) : f (attempted attempt s bs) = f s := by
  induction bs generalizing s with
  | nil => rfl
  | cons b bs ih =>
    rw [attempted_cons, ih fun c hc => h c (List.mem_cons_of_mem b hc), h b List.mem_cons_self]

theorem upTo_append_cons {before : List β} (hbefore : ∀ b ∈ before, ends b = false) {b : β}
    (hb : ends b = true) (rest : List β) : upTo ends (before ++ b :: rest) = before ++ [b] := by
  induction before with
  | nil => exact upTo_cons_of_pos hb rest
  | cons c before ih =>
    have hc : ¬ ends c = true := by simp [hbefore c List.mem_cons_self]
    rw [List.cons_append, upTo_cons_of_neg hc,
      ih fun b hmem => hbefore b (List.mem_cons_of_mem c hmem), List.cons_append]

theorem upTo_eq_self {bs : List β} (h : ∀ b ∈ bs, ends b = false) : upTo ends bs = bs := by
  induction bs with
  | nil => rfl
  | cons b bs ih =>
    have hb : ¬ ends b = true := by simp [h b List.mem_cons_self]
    rw [upTo_cons_of_neg hb, ih fun c hmem => h c (List.mem_cons_of_mem b hmem)]

/-- If each attempt notes itself, the notes are those up to the one that ends the run. -/
theorem notes_fallback (h : Foreseen attempt ends) {notes : σ → List β}
    (hnotes : ∀ s b, notes (attempt s b).1 = notes s ++ [b]) (s : σ) (last : ε) (bs : List β) :
    notes (fallback attempt exhausted s last bs).1 = notes s ++ upTo ends bs := by
  have hattempted : ∀ bs s, notes (attempted attempt s bs) = notes s ++ bs := by
    intro bs
    induction bs with
    | nil => simp
    | cons b bs ih =>
      intro s
      rw [attempted_cons, ih, hnotes, List.append_assoc, List.singleton_append]
  rcases fallback_eq exhausted h s last bs with
    ⟨before, b, rest, rfl, hbefore, hb, hrun⟩ | ⟨hall, last', hrun⟩
  · rw [hrun, hnotes, hattempted, upTo_append_cons hbefore hb, List.append_assoc]
  · rw [hrun, hattempted, upTo_eq_self hall]

end Run

end HomeTier.Lib
