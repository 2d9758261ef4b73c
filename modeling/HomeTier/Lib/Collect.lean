import Mathlib.Data.List.Basic

/-! # Collecting results

`collect` over an iterator of results gives all of them or the first error.
Two collected lists are compared through the values of their elements.
-/

namespace HomeTier.Lib

variable {α β ε : Type} {f : α → Except ε β} {as : List α} {bs : List β}

/-- All results of `f`, or its first error. -/
def collect (f : α → Except ε β) : List α → Except ε (List β)
  | [] => .ok []
  | a :: as =>
    match f a with
    | .error e => .error e
    | .ok b =>
      match collect f as with
      | .error e => .error e
      | .ok bs => .ok (b :: bs)

theorem collect_cons_ok {a : α} {b : β} :
    collect f (a :: as) = .ok (b :: bs) ↔ f a = .ok b ∧ collect f as = .ok bs := by
  rw [collect]
  cases f a with
  | error e => simp
  | ok b' =>
    cases collect f as with
    | error e => simp
    | ok bs' => simp

theorem collect_cons_ne_nil {a : α} : collect f (a :: as) ≠ .ok [] := by
  rw [collect]
  cases f a with
  | error e => simp
  | ok b' =>
    cases collect f as with
    | error e => simp
    | ok bs' => simp

/-- The results are those of the elements, one by one. -/
theorem collect_eq_ok : collect f as = .ok bs ↔ as.map f = bs.map .ok := by
  induction as generalizing bs with
  | nil =>
    cases bs with
    | nil => simp [collect]
    | cons b bs => simp [collect]
  | cons a as ih =>
    cases bs with
    | nil => simp [collect_cons_ne_nil]
    | cons b bs => simp [collect_cons_ok, ih]

/-- There is an error exactly when an element has one. -/
theorem collect_isOk : (∃ bs, collect f as = .ok bs) ↔ ∀ a ∈ as, ∃ b, f a = .ok b := by
  constructor
  · rintro ⟨bs, h⟩ a ha
    rw [collect_eq_ok] at h
    have hmem : f a ∈ bs.map .ok := by
      rw [← h]
      exact List.mem_map_of_mem ha
    rcases List.mem_map.1 hmem with ⟨b, -, hb⟩
    exact ⟨b, hb.symm⟩
  · intro h
    induction as with
    | nil => exact ⟨[], rfl⟩
    | cons a as ih =>
      rcases h a List.mem_cons_self with ⟨b, hb⟩
      rcases ih (fun x hx => h x (List.mem_cons_of_mem a hx)) with ⟨bs, hbs⟩
      exact ⟨b :: bs, collect_cons_ok.2 ⟨hb, hbs⟩⟩

theorem exists_ok_iff {x : Except ε α} :
    (∃ a, x = .ok a) ↔ x.toOption.isSome = true := by
  cases x with
  | error e => simp [Except.toOption]
  | ok a => simp [Except.toOption]

theorem collect_ok_iff :
    (∃ bs, collect f as = .ok bs) ↔ ∀ a ∈ as, (f a).toOption.isSome = true := by
  rw [collect_isOk]
  simp only [exists_ok_iff]

/-- A computation in two steps succeeds when both do. -/
theorem bind_eq_ok {γ : Type} {x : Except ε γ} {g : γ → Except ε β} {b : β} :
    (x >>= g) = .ok b ↔ ∃ a, x = .ok a ∧ g a = .ok b := by
  cases x with
  | error e => simp [bind, Except.bind]
  | ok a => simp [bind, Except.bind]

theorem map_toOption_of_collect (h : collect f as = .ok bs) :
    (as.map fun a => (f a).toOption) = bs.map some := by
  have hmap := congrArg (List.map Except.toOption) (collect_eq_ok.1 h)
  rw [List.map_map, List.map_map] at hmap
  exact hmap

/-- Once all elements have a value, leaving out those without one changes nothing. -/
theorem filterMap_toOption_of_collect (h : collect f as = .ok bs) :
    (as.filterMap fun a => (f a).toOption) = bs := by
  have hsome : ((as.map fun a => (f a).toOption).filterMap id) = bs := by
    rw [map_toOption_of_collect h]
    simp
  rw [List.filterMap_map] at hsome
  exact hsome

/-- Collected lists are equal when their elements' values are. -/
theorem collected_eq_iff {γ δ : Type} {g : γ → Except δ β} {cs : List γ} {ds : List β}
    (hf : collect f as = .ok bs) (hg : collect g cs = .ok ds) :
    bs = ds ↔ (as.map fun a => (f a).toOption) = cs.map fun c => (g c).toOption := by
  rw [map_toOption_of_collect hf, map_toOption_of_collect hg]
  exact (List.map_inj_right fun x y h => Option.some.inj h).symm

/-- Two readings of one list, the first of which may leave out more. -/
theorem map_filter_eq_map_filter_iff {p q : α → Bool} {g k : α → β}
    (hpq : ∀ a, p a = true → q a = true) :
    (as.filter p).map g = (as.filter q).map k ↔
      ∀ a ∈ as, q a = true → p a = true ∧ g a = k a := by
  induction as with
  | nil => simp
  | cons a as ih =>
    by_cases hp : p a = true
    · simp [hp, hpq a hp, ih]
    · by_cases hq : q a = true
      · -- the second list is longer
        have hle : (as.filter p).length ≤ (as.filter q).length := by
          rw [← List.countP_eq_length_filter, ← List.countP_eq_length_filter]
          exact List.countP_mono_left fun b _ => hpq b
        constructor
        · intro h
          have hlen := congrArg List.length h
          simp only [List.filter_cons_of_neg hp, List.filter_cons_of_pos hq, List.length_map,
            List.length_cons] at hlen
          omega
        · intro h
          exact absurd (h a List.mem_cons_self hq).1 hp
      · simp [hp, hq, ih]

end HomeTier.Lib
