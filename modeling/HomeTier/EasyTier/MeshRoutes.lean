import HomeTier.EasyTier.PeerList
import HomeTier.Lib.Trace

/-! # Telling the page about routes

At each poll `poll_instance_status` of `src-tauri/src/easytier/mod.rs` collects the
networks behind all nodes in a hash set, makes a list of it and compares the list with
that of the last event. The order of the list is the one in which the set is iterated,
which is another one for every set.

So the page is told about changes only in the runs in which a set that is collected
again is iterated in the order it had (`told_on_change_iff`).
-/

namespace HomeTier

open Lib

namespace Rpc

/-- The networks behind the nodes, as often as they are named. -/
def proxiedNetworks (routes : Option (List Route)) (my : Option MyInfo) : List Str :=
  (routes.getD []).flatMap (·.proxyCidrs) ++ (my.map (·.proxyCidrs)).getD []

/-- The answers of one poll. -/
structure Snapshot where
  routes : Option (List Route)
  my : Option MyInfo
  /-- `mesh_routes_set.into_iter().collect()` -/
  meshRoutes : List Str
  nodup : meshRoutes.Nodup
  mem_meshRoutes : ∀ cidr, cidr ∈ meshRoutes ↔ cidr ∈ proxiedNetworks routes my

/-- Two lists of the same set. -/
def SameSet (a b : List Str) : Prop := ∀ cidr, cidr ∈ a ↔ cidr ∈ b

/-- The loop between two polls. -/
structure Polled where
  lastMeshRoutes : List Str
  /-- The routes of the last `mesh_routes_updated`, none before the first. -/
  told : List Str

def Polled.start : Polled := ⟨[], []⟩

/-- Whether the event is emitted. -/
def Polled.Emits (s : Polled) (snapshot : Snapshot) : Prop :=
  snapshot.meshRoutes ≠ s.lastMeshRoutes ∨
    (s.lastMeshRoutes = [] ∧ snapshot.meshRoutes ≠ [])

instance (s : Polled) (snapshot : Snapshot) : Decidable (s.Emits snapshot) :=
  inferInstanceAs (Decidable (_ ∨ _))

/-- One poll that the core answers. -/
def Polled.step (s : Polled) (snapshot : Snapshot) : Option Polled :=
  some (if s.Emits snapshot then ⟨snapshot.meshRoutes, snapshot.meshRoutes⟩ else s)

/-- The event is emitted when the set is not that of the last event, and only then. -/
def ToldOnChange (s : Polled) (snapshot : Snapshot) : Prop :=
  s.Emits snapshot ↔ ¬ SameSet snapshot.meshRoutes s.told

/-- The set of the last event comes in the same order again. -/
def OrderKept (s : Polled) (snapshot : Snapshot) : Prop :=
  SameSet snapshot.meshRoutes s.told → snapshot.meshRoutes = s.told

theorem emits_iff (s : Polled) (snapshot : Snapshot) :
    s.Emits snapshot ↔ snapshot.meshRoutes ≠ s.lastMeshRoutes := by
  constructor
  · rintro (h | ⟨hlast, hne⟩)
    · exact h
    · rwa [hlast]
  · exact Or.inl

theorem told_step {s s' : Polled} {snapshot : Snapshot} (h : s.lastMeshRoutes = s.told)
    (hstep : s.step snapshot = some s') : s'.lastMeshRoutes = s'.told := by
  cases hstep
  split
  · rfl
  · exact h

/-- The page is told exactly about the changes in the runs in which a set that did not
change keeps its order, and in no other run. -/
theorem told_on_change_iff (snapshots : List Snapshot) :
    Along Polled.step ToldOnChange .start snapshots ↔
      Along Polled.step OrderKept .start snapshots := by
  apply along_congr (J := fun s => s.lastMeshRoutes = s.told)
  · intro s snapshot s' h hstep
    exact told_step h hstep
  · intro s snapshot h
    rw [ToldOnChange, OrderKept, emits_iff, h, not_iff_not]
    constructor
    · intro hiff
      exact hiff.2
    · intro hkept
      refine ⟨?_, hkept⟩
      intro heq
      rw [heq]
      exact fun _ => Iff.rfl
  · rfl

/-- Two networks behind this node, in one order or the other. -/
def twoNetworks (a b : Str) (h : a ≠ b) : Snapshot where
  routes := none
  my := some ⟨1, [], [], [], [a, b]⟩
  meshRoutes := [a, b]
  nodup := by simpa using h
  mem_meshRoutes := fun _ => Iff.rfl

def swapped (a b : Str) (h : a ≠ b) : Snapshot where
  routes := none
  my := some ⟨1, [], [], [], [a, b]⟩
  meshRoutes := [b, a]
  nodup := by simpa using h.symm
  mem_meshRoutes := fun cidr => by simp [proxiedNetworks, or_comm]

/-- The same two networks again, in the other order. -/
theorem told_without_change : ¬ ∀ snapshots : List Snapshot,
    Along Polled.step ToldOnChange .start snapshots := by
  intro hall
  have hne : "10.0.0.0/24".toList ≠ "10.0.1.0/24".toList := by decide
  have h := hall [twoNetworks _ _ hne, swapped _ _ hne]
  have hfirst : Polled.start.step (twoNetworks _ _ hne) =
      some ⟨["10.0.0.0/24".toList, "10.0.1.0/24".toList],
        ["10.0.0.0/24".toList, "10.0.1.0/24".toList]⟩ := by
    rw [Polled.step, if_pos ((emits_iff _ _).2 (List.cons_ne_nil _ _))]
    rfl
  rw [along_cons hfirst] at h
  have hsecond := ((along_cons rfl []).1 h.2).1
  refine hsecond.1 ((emits_iff _ _).2 ?_) ?_
  · intro heq
    exact hne (List.cons.inj heq).1.symm
  · intro cidr
    simp [swapped, or_comm]

end Rpc

end HomeTier
