import HomeTier.Lib.Text

/-! # Byte sources

A source is polled with room for some bytes. It is not ready, it fails, or it
hands over at most as many bytes; none at all means the end of its bytes, unless
there was no room. A run of polls is the list of their rooms.
-/

namespace HomeTier.Lib

/-- What a poll comes to. -/
inductive Poll (ε : Type) where
  | pending
  | failed (e : ε)
  | ready (out : Bytes)
deriving DecidableEq, Repr

/-- The bytes that a poll hands over. -/
def Poll.bytes {ε : Type} : Poll ε → Bytes
  | .pending | .failed _ => []
  | .ready out => out

/-- Polls of a state; no more is handed over than there is room for. -/
structure Source (σ ε : Type) where
  poll : σ → Nat → Poll ε × σ
  fits : ∀ s room, (poll s room).1.bytes.length ≤ room

namespace Source

variable {σ ε : Type} (S : Source σ ε)

/-- One poll after the other. -/
def polls : σ → List Nat → List (Poll ε) × σ
  | s, [] => ([], s)
  | s, room :: rooms =>
    ((S.poll s room).1 :: (polls (S.poll s room).2 rooms).1, (polls (S.poll s room).2 rooms).2)

/-- The bytes that polls have handed over, in order. -/
def delivered (outs : List (Poll ε)) : Bytes := outs.flatMap Poll.bytes

/-- The source of the bytes of a list, as many as there is room for. -/
def ofBytes : Source Bytes ε where
  poll b room := (.ready (b.take room), b.drop room)
  fits b room := List.length_take_le room b

variable {S}

@[simp] theorem polls_nil (s : σ) : S.polls s [] = ([], s) := rfl

theorem polls_cons {s s' : σ} {room : Nat} {out : Poll ε} (h : S.poll s room = (out, s'))
    (rooms : List Nat) :
    S.polls s (room :: rooms) = (out :: (S.polls s' rooms).1, (S.polls s' rooms).2) := by
  simp only [polls, h]

@[simp] theorem delivered_append (outs outs' : List (Poll ε)) :
    delivered (outs ++ outs') = delivered outs ++ delivered outs' :=
  List.flatMap_append

@[simp] theorem delivered_ready (chunks : List Bytes) :
    delivered (chunks.map (Poll.ready (ε := ε))) = chunks.flatten := by
  rw [delivered, List.flatMap_map]
  simp [Poll.bytes, List.flatMap_id']

/-- Sources whose states match poll by poll hand over the same. -/
theorem polls_eq_of_match {σ' : Type} {S' : Source σ' ε} (R : σ → σ' → Prop)
    (hmatch : ∀ s s' room, R s s' →
      (S.poll s room).1 = (S'.poll s' room).1 ∧ R (S.poll s room).2 (S'.poll s' room).2)
    {s : σ} {s' : σ'} (h : R s s') (rooms : List Nat) :
    (S.polls s rooms).1 = (S'.polls s' rooms).1 ∧ R (S.polls s rooms).2 (S'.polls s' rooms).2 := by
  induction rooms generalizing s s' with
  | nil => exact ⟨rfl, h⟩
  | cons room rooms ih =>
    rcases hmatch s s' room h with ⟨hout, hnext⟩
    rcases ih hnext with ⟨houts, hlast⟩
    exact ⟨List.cons_eq_cons.2 ⟨hout, houts⟩, hlast⟩

end Source

end HomeTier.Lib
