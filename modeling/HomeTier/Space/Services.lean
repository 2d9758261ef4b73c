import Mathlib.Data.Finset.Basic
import Mathlib.Data.Finset.Filter
import HomeTier.Lib.Trace
import HomeTier.Space.Ports

/-! # Local services of the connected space

The maps of `SpaceManager` (`src-tauri/src/space/manager.rs`) over runs of
`connect`, `disconnect` and `delete` in which every step succeeds. A map is the
set of its keys. `connect` starts the servers of a space and a background task
that creates its chat client once peers are known (`discover_and_connect_peers`);
`disconnect` cancels the task, waits for it and removes everything of the space.

1. The services follow the connected space in a run exactly when each `connect`
   finds no other space connected and each discovery completes while its space
   is connected (`services_follow_iff`).
2. Connecting to a second space leaves the services of the first one running
   (`second_connect_leaves_services`).
-/

namespace HomeTier

open Lib

/-- A background task, with the space it looks for peers of. -/
structure Discovery where
  task : Nat
  space : Uuid

structure SpaceManager where
  /-- Spaces the manager knows, and those the caller owns. -/
  spaces : Finset Uuid
  owned : Finset Uuid
  /-- What runs in the daemon. -/
  running : Finset Uuid
  chatServers : Finset Uuid
  fileServers : Finset Uuid
  voiceServers : Finset Uuid
  screenServers : Finset Uuid
  chatClients : Finset Uuid
  cancelTokens : Finset Uuid
  connectHandles : Map Uuid Nat
  discoveries : List Discovery
  nextTask : Nat

inductive ManagerAction where
  | connect (s : Uuid)
  | disconnect (s : Uuid)
  | delete (s : Uuid)
  /-- A task found the peers and enters the chat client. -/
  | discovered (task : Nat)
  /-- A task ended without. -/
  | gaveUp (task : Nat)

namespace SpaceManager

variable (m : SpaceManager)

/-- The manager of a new process, for known spaces. -/
def init (spaces owned : Finset Uuid) : SpaceManager where
  spaces := spaces
  owned := owned
  running := ∅
  chatServers := ∅
  fileServers := ∅
  voiceServers := ∅
  screenServers := ∅
  chatClients := ∅
  cancelTokens := ∅
  connectHandles := ∅
  discoveries := []
  nextTask := 0

/-- `connect`, its requests to the daemon answered with success: other running
spaces are disconnected there, old servers of the space are replaced. -/
def connect (s : Uuid) : SpaceManager :=
  { m with
    running := insert s (m.running.filter fun r => r = s)
    chatServers := insert s (m.chatServers.erase s)
    fileServers := insert s (m.fileServers.erase s)
    voiceServers := insert s (m.voiceServers.erase s)
    screenServers := insert s (m.screenServers.erase s)
    cancelTokens := insert s m.cancelTokens
    -- a handle that was there before is dropped, and its task goes on
    connectHandles := AList.insert s m.nextTask m.connectHandles
    discoveries := m.discoveries ++ [⟨m.nextTask, s⟩]
    nextTask := m.nextTask + 1 }

/-- `disconnect`: the task of the handle has ended when the maps are emptied. -/
def disconnect (s : Uuid) : SpaceManager :=
  { m with
    running := m.running.erase s
    chatServers := m.chatServers.erase s
    fileServers := m.fileServers.erase s
    voiceServers := m.voiceServers.erase s
    screenServers := m.screenServers.erase s
    chatClients := m.chatClients.erase s
    cancelTokens := m.cancelTokens.erase s
    connectHandles := AList.erase s m.connectHandles
    discoveries := m.discoveries.filter fun d => some d.task ≠ m.connectHandles.get s }

/-- One call, or one step of a background task. -/
def step : ManagerAction → Option SpaceManager
  | .connect s => if s ∈ m.spaces then some (m.connect s) else none
  | .disconnect s => some (m.disconnect s)
  | .delete s =>
    if s ∈ m.spaces ∧ s ∈ m.owned then
      some { m.disconnect s with spaces := m.spaces.erase s }
    else none
  | .discovered task =>
    match m.discoveries.find? fun d => d.task = task with
    | some d =>
      some { m with
        chatClients := insert d.space m.chatClients
        discoveries := m.discoveries.filter fun d => d.task ≠ task }
    | none => none
  | .gaveUp task =>
    some { m with discoveries := m.discoveries.filter fun d => d.task ≠ task }

/-- Servers and the token are there for the connected space; nothing is there
for another one. -/
structure Follows : Prop where
  served : ∀ s ∈ m.running, s ∈ m.chatServers ∧ s ∈ m.fileServers ∧ s ∈ m.voiceServers ∧
    s ∈ m.screenServers ∧ s ∈ m.cancelTokens
  cleared : ∀ s, s ∈ m.chatServers ∨ s ∈ m.fileServers ∨ s ∈ m.voiceServers ∨
    s ∈ m.screenServers ∨ s ∈ m.chatClients ∨ s ∈ m.cancelTokens → s ∈ m.running

/-- No other space is connected when one is connected, and a discovery completes
while its space is connected. -/
def Orderly : ManagerAction → Prop
  | .connect s => ∀ r ∈ m.running, r = s
  | .discovered task => ∀ d ∈ m.discoveries.find? (fun d => d.task = task), d.space ∈ m.running
  | _ => True

/-! ## Steps -/

variable {m}

theorem follows_connect {s : Uuid} (h : m.Follows) :
    (m.connect s).Follows ↔ ∀ r ∈ m.running, r = s := by
  constructor
  · intro h' r hr
    -- a space that was connected before still has its chat server
    by_contra hne
    have hserver : r ∈ (m.connect s).chatServers := by
      simp [connect, hne, (h.served r hr).1]
    have hrun := h'.cleared r (Or.inl hserver)
    simp [connect, hne] at hrun
  · intro honly
    constructor
    · intro r hr
      obtain rfl : r = s := by
        rcases Finset.mem_insert.1 hr with rfl | hold
        · rfl
        · exact honly r (Finset.mem_filter.1 hold).1
      simp [connect]
    · intro r hr
      by_cases hrs : r = s
      · simp [connect, hrs]
      · -- what remains of another space would make it connected before
        have hold : r ∈ m.running := by
          apply h.cleared
          simpa [connect, hrs] using hr
        exact absurd (honly r hold) hrs

theorem follows_disconnect {s : Uuid} (h : m.Follows) : (m.disconnect s).Follows := by
  constructor
  · intro r hr
    rcases Finset.mem_erase.1 hr with ⟨hne, hrun⟩
    rcases h.served r hrun with ⟨h1, h2, h3, h4, h5⟩
    exact ⟨Finset.mem_erase.2 ⟨hne, h1⟩, Finset.mem_erase.2 ⟨hne, h2⟩, Finset.mem_erase.2 ⟨hne, h3⟩,
      Finset.mem_erase.2 ⟨hne, h4⟩, Finset.mem_erase.2 ⟨hne, h5⟩⟩
  · intro r hr
    by_cases hrs : r = s
    · simp [disconnect, hrs] at hr
    · apply Finset.mem_erase.2
      refine ⟨hrs, h.cleared r ?_⟩
      simpa [disconnect, hrs] using hr

theorem follows_discovered {d : Discovery} {ds : List Discovery} (h : m.Follows) :
    ({ m with chatClients := insert d.space m.chatClients, discoveries := ds } :
      SpaceManager).Follows ↔ d.space ∈ m.running := by
  constructor
  · intro h'
    apply h'.cleared d.space
    simp
  · intro hrun
    constructor
    · exact h.served
    · intro r hr
      by_cases hrs : r = d.space
      · rw [hrs]
        exact hrun
      · apply h.cleared
        simpa [hrs] using hr

/-- A step keeps the services with the connected space exactly when it is orderly. -/
theorem follows_step {m' : SpaceManager} {a : ManagerAction} (h : m.Follows)
    (hstep : m.step a = some m') : m'.Follows ↔ m.Orderly a := by
  cases a with
  | connect s =>
    rcases Option.ite_none_right_eq_some.1 hstep with ⟨-, heq⟩
    obtain rfl := Option.some.inj heq
    exact follows_connect h
  | disconnect s =>
    obtain rfl := Option.some.inj hstep
    simpa [Orderly] using follows_disconnect h
  | delete s =>
    rcases Option.ite_none_right_eq_some.1 hstep with ⟨-, heq⟩
    obtain rfl := Option.some.inj heq
    have hd := follows_disconnect (s := s) h
    simpa [Orderly] using (⟨hd.served, hd.cleared⟩ :
      ({ m.disconnect s with spaces := m.spaces.erase s } : SpaceManager).Follows)
  | discovered task =>
    cases hfind : m.discoveries.find? (fun d => d.task = task) with
    | none => simp [step, hfind] at hstep
    | some d =>
      simp only [step, hfind, Option.some.injEq] at hstep
      subst hstep
      rw [follows_discovered h, Orderly, hfind]
      simp
  | gaveUp task =>
    obtain rfl := Option.some.inj hstep
    simpa [Orderly] using (⟨h.served, h.cleared⟩ :
      ({ m with discoveries := m.discoveries.filter fun d => d.task ≠ task } :
        SpaceManager).Follows)

theorem follows_init (spaces owned : Finset Uuid) : (init spaces owned).Follows := by
  constructor
  · intro s hs
    simp [init] at hs
  · intro s hs
    simp [init] at hs

/-- Along a run, the services follow the connected space exactly when every step
is orderly. -/
theorem services_follow_iff (spaces owned : Finset Uuid) (as : List ManagerAction) :
    Always step Follows (init spaces owned) as ↔ Along step Orderly (init spaces owned) as :=
  always_iff_along (J := fun _ => True) (fun _ _ _ _ _ => trivial)
    (fun _ _ _ _ h hstep => follows_step h hstep) trivial (follows_init spaces owned) as

/-- The services of space 1 stay when space 2 is connected. -/
theorem second_connect_leaves_services :
    ¬ Always step Follows (init {1, 2} {1, 2}) [.connect 1, .connect 2] := by
  intro h
  have hrun : run step (init {1, 2} {1, 2}) [.connect 1, .connect 2] =
      some (((init {1, 2} {1, 2}).connect 1).connect 2) := rfl
  have hfollows := always_run h hrun
  have hserver : (1 : Uuid) ∈ (((init {1, 2} {1, 2}).connect 1).connect 2).chatServers := by
    decide
  have hold := hfollows.cleared 1 (Or.inl hserver)
  exact absurd hold (by decide)

end SpaceManager

end HomeTier
