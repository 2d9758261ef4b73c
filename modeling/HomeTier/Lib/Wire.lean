import HomeTier.Lib.Collect
import HomeTier.Lib.Text

/-! # Readers of byte strings

A reader takes bytes from the front of its input and returns a value with the
bytes that are left. It is exact for an encoding when it accepts the encodings
of its values and nothing else, whatever follows them. Repetition and optional
parts keep exactness (`exact_readMany`, `exact_readOption`), and an encoding that is
cut off is refused (`Exact.error_of_cut`).
-/

namespace HomeTier.Lib

variable {α ε : Type}

/-- `r` accepts exactly the encodings of the values in `P`. -/
def Exact (r : Bytes → Except ε (α × Bytes)) (P : α → Prop) (enc : α → Bytes) : Prop :=
  ∀ b x rest, r b = .ok (x, rest) ↔ P x ∧ b = enc x ++ rest

/-- One byte, or the given error at the end of the input. -/
def readByte (missing : ε) : Bytes → Except ε (UInt8 × Bytes)
  | [] => .error missing
  | b :: rest => .ok (b, rest)

/-- `n` values in a row. -/
def readMany (r : Bytes → Except ε (α × Bytes)) : Nat → Bytes → Except ε (List α × Bytes)
  | 0, b => .ok ([], b)
  | n + 1, b => do
    let (x, b) ← r b
    let (xs, b) ← readMany r n b
    pure (x :: xs, b)

/-- A value that is only there when it is announced. -/
def readOption (r : Bytes → Except ε (α × Bytes)) (present : Bool) (b : Bytes) :
    Except ε (Option α × Bytes) :=
  if present then do
    let (x, b) ← r b
    pure (some x, b)
  else .ok (none, b)

theorem readByte_eq_ok {missing : ε} {b rest : Bytes} {x : UInt8} :
    readByte missing b = .ok (x, rest) ↔ b = x :: rest := by
  cases b with
  | nil => simp [readByte]
  | cons y b => simp [readByte]

variable {r : Bytes → Except ε (α × Bytes)} {P : α → Prop} {enc : α → Bytes}

/-- An exact reader reads nothing from an encoding whose end is missing. -/
theorem Exact.error_of_cut (h : Exact r P enc) {x : α} (hx : P x) {p : Bytes} (hp : p <+: enc x)
    (hne : p ≠ enc x) : ∃ e, r p = .error e := by
  rcases hp with ⟨missing, hmissing⟩
  cases hread : r p with
  | error e => exact ⟨e, rfl⟩
  | ok out =>
    rcases out with ⟨y, rest⟩
    rcases (h p y rest).1 hread with ⟨hy, rfl⟩
    -- the whole encoding would be read in two ways
    have hwhole : r (enc x) = .ok (y, rest ++ missing) := by
      rw [h]
      exact ⟨hy, by rw [← hmissing, List.append_assoc]⟩
    have hself : r (enc x) = .ok (x, []) := (h _ _ _).2 ⟨hx, by simp⟩
    rw [hself, Except.ok.injEq, Prod.mk.injEq] at hwhole
    have hnil : missing = [] := (List.append_eq_nil_iff.1 hwhole.2.symm).2
    rw [hnil, List.append_nil] at hmissing
    exact absurd hmissing hne

theorem exact_readMany (h : Exact r P enc) (n : Nat) :
    Exact (readMany r n) (fun xs => xs.length = n ∧ ∀ x ∈ xs, P x) (fun xs => xs.flatMap enc) := by
  induction n with
  | zero =>
    intro b xs rest
    rw [readMany, Except.ok.injEq, Prod.mk.injEq]
    constructor
    · rintro ⟨rfl, rfl⟩
      simp
    · rintro ⟨⟨hlen, -⟩, rfl⟩
      obtain rfl : xs = [] := List.length_eq_zero_iff.1 hlen
      simp
  | succ n ih =>
    intro b xs rest
    simp only [readMany, bind_eq_ok, Prod.exists, pure, Except.pure, Except.ok.injEq,
      Prod.mk.injEq]
    constructor
    · rintro ⟨x, b', hx, ys, b'', hys, rfl, rfl⟩
      rcases (h _ _ _).1 hx with ⟨hPx, rfl⟩
      rcases (ih _ _ _).1 hys with ⟨⟨hlen, hall⟩, rfl⟩
      refine ⟨⟨by simp [hlen], ?_⟩, by simp⟩
      exact List.forall_mem_cons.2 ⟨hPx, hall⟩
    · rintro ⟨⟨hlen, hall⟩, rfl⟩
      cases xs with
      | nil => simp at hlen
      | cons x ys =>
        rw [List.forall_mem_cons] at hall
        have hlen' : ys.length = n := by simpa using hlen
        refine ⟨x, ys.flatMap enc ++ rest, (h _ _ _).2 ⟨hall.1, by simp⟩, ys, rest, ?_, rfl, rfl⟩
        exact (ih _ _ _).2 ⟨⟨hlen', hall.2⟩, rfl⟩

theorem exact_readOption (h : Exact r P enc) (present : Bool) :
    Exact (readOption r present) (fun o => o.isSome = present ∧ ∀ x ∈ o, P x)
      (fun o => o.elim [] enc) := by
  intro b o rest
  cases present with
  | false =>
    rw [readOption, if_neg (by simp), Except.ok.injEq, Prod.mk.injEq]
    constructor
    · rintro ⟨rfl, rfl⟩
      simp
    · rintro ⟨⟨hnone, -⟩, rfl⟩
      obtain rfl : o = none := by simpa using hnone
      exact ⟨rfl, rfl⟩
  | true =>
    simp only [readOption, if_true, bind_eq_ok, Prod.exists, pure, Except.pure, Except.ok.injEq,
      Prod.mk.injEq]
    constructor
    · rintro ⟨x, b', hx, rfl, rfl⟩
      rcases (h _ _ _).1 hx with ⟨hPx, rfl⟩
      simpa using hPx
    · rintro ⟨⟨hsome, hall⟩, rfl⟩
      rcases Option.isSome_iff_exists.1 hsome with ⟨x, rfl⟩
      exact ⟨x, rest, (h _ _ _).2 ⟨hall x rfl, rfl⟩, rfl, rfl⟩

end HomeTier.Lib
