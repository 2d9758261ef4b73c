import Mathlib.Logic.Function.Basic
import HomeTier.Lib.Trace

/-! # Parties on a network

Each party has a state of its own. It acts by itself, which may put packets on
the network, and it takes what the network brings it. The network holds the
packets in flight; any of them may come next, to whoever takes it, and anybody
may put a packet there. A run is one list of these steps, so it is any order of
sends and deliveries.

What is said of each party by itself needs a look at one party only
(`Party.always_iff_along`).
-/

namespace HomeTier.Lib

/-- How one party acts and receives. `δ` is what the network decides about an
arrival, `none` that the step is not enabled. -/
structure Party (ν α π δ : Type) where
  act : ν → α → Option (ν × List π)
  receive : ν → π → δ → Option ν

structure Parties (ν π : Type) where
  node : Nat → ν
  wire : List π

inductive NetAct (α π δ : Type) where
  | act (n : Nat) (a : α)
  /-- By whoever is on the network. -/
  | post (p : π)
  /-- The packet at `i` comes to `n`. -/
  | deliver (n i : Nat) (d : δ)

namespace Party

variable {ν α π δ : Type} (party : Party ν α π δ)

def step (s : Parties ν π) : NetAct α π δ → Option (Parties ν π)
  | .act n a =>
    match party.act (s.node n) a with
    | none => none
    | some (v, out) => some ⟨Function.update s.node n v, s.wire ++ out⟩
  | .post p => some { s with wire := s.wire ++ [p] }
  | .deliver n i d =>
    match s.wire[i]? with
    | none => none
    | some p =>
      match party.receive (s.node n) p d with
      | none => none
      | some v => some ⟨Function.update s.node n v, s.wire.eraseIdx i⟩

/-- `P` of the acts that the parties take themselves. -/
def ActsBy (P : ν → α → Prop) (s : Parties ν π) : NetAct α π δ → Prop
  | .act n a => P (s.node n) a
  | .post _ => True
  | .deliver _ _ _ => True

variable {party}

theorem step_act {s : Parties ν π} {n : Nat} {a : α} {v : ν} {out : List π}
    (h : party.act (s.node n) a = some (v, out)) :
    party.step s (.act n a) = some ⟨Function.update s.node n v, s.wire ++ out⟩ := by
  simp only [step, h]

theorem step_deliver {s : Parties ν π} {n i : Nat} {d : δ} {p : π} {v : ν}
    (hp : s.wire[i]? = some p) (h : party.receive (s.node n) p d = some v) :
    party.step s (.deliver n i d) =
      some ⟨Function.update s.node n v, s.wire.eraseIdx i⟩ := by
  simp only [step, hp, h]

theorem step_cases {s s' : Parties ν π} {a : NetAct α π δ} (h : party.step s a = some s') :
    (∃ n b v out, a = .act n b ∧ party.act (s.node n) b = some (v, out) ∧
      s' = ⟨Function.update s.node n v, s.wire ++ out⟩) ∨
    (∃ p, a = .post p ∧ s' = { s with wire := s.wire ++ [p] }) ∨
    (∃ n i d p v, a = .deliver n i d ∧ s.wire[i]? = some p ∧
      party.receive (s.node n) p d = some v ∧
      s' = ⟨Function.update s.node n v, s.wire.eraseIdx i⟩) := by
  cases a with
  | act n b =>
    simp only [step] at h
    split at h
    · cases h
    · rename_i v out hact
      exact .inl ⟨n, b, v, out, rfl, hact, (Option.some.inj h).symm⟩
  | post p => exact .inr (.inl ⟨p, rfl, (Option.some.inj h).symm⟩)
  | deliver n i d =>
    simp only [step] at h
    split at h
    · cases h
    · rename_i p hp
      split at h
      · cases h
      · rename_i v hv
        exact .inr (.inr ⟨n, i, d, p, v, rfl, hp, hv, (Option.some.inj h).symm⟩)

/-- A change of one party, when all were fine before. -/
theorem forall_update_iff {I : ν → Prop} {node : Nat → ν} {n : Nat} {v : ν}
    (h : ∀ k, I (node k)) : (∀ k, I (Function.update node n v k)) ↔ I v := by
  constructor
  · intro hall
    have hn := hall n
    rwa [Function.update_self] at hn
  · intro hv k
    by_cases hk : k = n
    · subst hk
      rwa [Function.update_self]
    · rw [Function.update_of_ne hk]
      exact h k

/-- If an act keeps `I` of its party exactly when it satisfies `P`, and arrivals
keep it, then all parties stay in `I` exactly when all their acts satisfy `P`. -/
theorem always_iff_along {I : ν → Prop} {P : ν → α → Prop}
    (hact : ∀ v a v' out, I v → party.act v a = some (v', out) → (I v' ↔ P v a))
    (hreceive : ∀ v p d v', I v → party.receive v p d = some v' → I v')
    {s : Parties ν π} (hinit : ∀ n, I (s.node n)) (as : List (NetAct α π δ)) :
    Always party.step (fun s => ∀ n, I (s.node n)) s as ↔
      Along party.step (ActsBy P) s as := by
  refine Lib.always_iff_along (J := fun _ => True) (fun _ _ _ _ _ => trivial) ?_ trivial hinit as
  intro s a s' _ hI hstep
  rcases step_cases hstep with
    ⟨n, b, v, out, rfl, hb, rfl⟩ | ⟨p, rfl, rfl⟩ | ⟨n, i, d, p, v, rfl, -, hv, rfl⟩
  · -- a party acts
    rw [forall_update_iff hI]
    exact hact _ _ _ _ (hI n) hb
  · -- only the network changes
    exact ⟨fun _ => trivial, fun _ => hI⟩
  · -- an arrival
    rw [forall_update_iff hI]
    exact ⟨fun _ => trivial, fun _ => hreceive _ _ _ _ (hI n) hv⟩

end Party

end HomeTier.Lib
