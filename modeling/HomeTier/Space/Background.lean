import Mathlib.Data.List.Basic
import HomeTier.Lib.Trace

/-! # The background task of a connection

`connect` of `src-tauri/src/space/manager.rs` stores a cancellation token and the
handle of a task under the id of the space; the task looks for the virtual address
and the peers and then enters a chat client. `disconnect` cancels the token it
finds, waits for the handle it finds, and removes the chat client.

The calls are steps between their awaits, for one space. A `disconnect` holds the
lock of the handles while it waits, as the guard lives as long as the `if let`.
Calls at the same point are interchangeable and are counted.
-/

namespace HomeTier

open Lib

namespace Background

/-- `discover_and_connect_peers`: at the top of the loop, after an answer is asked
for, and behind the loop, where cancellation is not looked at any more. -/
inductive Stage where
  | checking (retries : Nat)
  | querying (retries : Nat)
  | entering
deriving DecidableEq, Repr

structure Task where
  id : Nat
  stage : Stage
deriving DecidableEq, Repr

structure St where
  /-- `connect` calls before their token; those that a `disconnect` has overtaken. -/
  fresh : Nat
  overtaken : Nat
  /-- `connect` calls that have stored a token, and those that have spawned. -/
  tokenSet : List Nat
  spawned : List Nat
  /-- `disconnect` calls: token taken, waiting for a task, stopping, client removed. -/
  taking : Nat
  waiting : Option Nat
  stopping : Nat
  cleared : Nat
  /-- The maps' entries of the space, and the tokens that are cancelled. -/
  token : Option Nat
  handle : Option Nat
  client : Bool
  cancelled : List Nat
  tasks : List Task
  nextTask : Nat
  /-- A `disconnect` has returned, and no `connect` was called since. -/
  ended : Bool
deriving DecidableEq, Repr

def init : St where
  fresh := 0
  overtaken := 0
  tokenSet := []
  spawned := []
  taking := 0
  waiting := none
  stopping := 0
  cleared := 0
  token := none
  handle := none
  client := false
  cancelled := []
  tasks := []
  nextTask := 0
  ended := false

inductive Event where
  | connect
  | connectFails (overtaken : Bool)
  | setToken (overtaken : Bool)
  | spawn (task : Nat)
  | storeHandle (task : Nat)
  | disconnect
  | takeHandle
  | taskAwaited
  | clearClients
  | disconnected
  /-- The task looks at its token. -/
  | check (task : Nat)
  /-- No status, or no virtual address in it. -/
  | missing (task : Nat)
  | found (task : Nat)
  /-- `get_peers`, and the chat client if it succeeds. -/
  | peers (task : Nat) (ok : Bool)
deriving DecidableEq, Repr

/-- `RETRY_DELAYS.len()` -/
def maxRetries : Nat := 7

def St.stage (s : St) (task : Nat) : Option Stage :=
  (s.tasks.find? fun x => x.id = task).map (·.stage)

def St.setStage (s : St) (task : Nat) (stage : Stage) : St :=
  { s with tasks := s.tasks.map fun x => if x.id = task then { x with stage := stage } else x }

/-- The task ends. -/
def St.finish (s : St) (task : Nat) : St :=
  { s with tasks := s.tasks.filter fun x => x.id ≠ task }

@[grind] def step (s : St) : Event → Option St
  | .connect => some { s with fresh := s.fresh + 1, ended := false }
  | .connectFails false =>
    if 0 < s.fresh then some { s with fresh := s.fresh - 1 } else none
  | .connectFails true =>
    if 0 < s.overtaken then some { s with overtaken := s.overtaken - 1 } else none
  | .setToken overtaken =>
    if 0 < (if overtaken then s.overtaken else s.fresh) then
      some { s with
        fresh := if overtaken then s.fresh else s.fresh - 1
        overtaken := if overtaken then s.overtaken - 1 else s.overtaken
        -- a token that was there is dropped, not cancelled
        token := some s.nextTask
        tokenSet := s.tokenSet ++ [s.nextTask]
        nextTask := s.nextTask + 1 }
    else none
  | .spawn task =>
    if task ∈ s.tokenSet then
      some { s with
        tokenSet := s.tokenSet.erase task
        spawned := s.spawned ++ [task]
        tasks := s.tasks ++ [⟨task, .checking 0⟩] }
    else none
  | .storeHandle task =>
    if task ∈ s.spawned ∧ s.waiting = none then
      some { s with spawned := s.spawned.erase task, handle := some task }
    else none
  | .disconnect =>
    some { s with
      taking := s.taking + 1
      cancelled := s.cancelled ++ s.token.toList
      token := none }
  | .takeHandle =>
    if 0 < s.taking ∧ s.waiting = none then
      some (match s.handle with
        | some task => { s with taking := s.taking - 1, waiting := some task, handle := none }
        | none => { s with taking := s.taking - 1, stopping := s.stopping + 1 })
    else none
  | .taskAwaited =>
    match s.waiting with
    | some task =>
      if s.stage task = none then some { s with waiting := none, stopping := s.stopping + 1 }
      else none
    | none => none
  | .clearClients =>
    if 0 < s.stopping then
      some { s with stopping := s.stopping - 1, cleared := s.cleared + 1, client := false }
    else none
  | .disconnected =>
    if 0 < s.cleared then
      some { s with
        cleared := s.cleared - 1
        ended := true
        overtaken := s.overtaken + s.fresh
        fresh := 0 }
    else none
  | .check task =>
    match s.stage task with
    | some (.checking retries) =>
      some (if task ∈ s.cancelled then s.finish task else s.setStage task (.querying retries))
    | _ => none
  | .missing task =>
    match s.stage task with
    | some (.querying retries) =>
      some (if maxRetries ≤ retries + 1 then s.finish task
        else s.setStage task (.checking (retries + 1)))
    | _ => none
  | .found task =>
    match s.stage task with
    | some (.querying _) => some (s.setStage task .entering)
    | _ => none
  | .peers task ok =>
    match s.stage task with
    | some .entering => some { s.finish task with client := s.client || ok }
    | _ => none

/-- A `connect` call is running. -/
def St.Connecting (s : St) : Prop :=
  0 < s.fresh ∨ 0 < s.overtaken ∨ s.tokenSet ≠ [] ∨ s.spawned ≠ []

/-- A `disconnect` call is running. -/
def St.Disconnecting (s : St) : Prop :=
  0 < s.taking ∨ s.waiting ≠ none ∨ 0 < s.stopping ∨ 0 < s.cleared

instance (s : St) : Decidable s.Connecting := inferInstanceAs (Decidable (_ ∨ _))

instance (s : St) : Decidable s.Disconnecting := inferInstanceAs (Decidable (_ ∨ _))

/-- After a `disconnect` there is no task and no client of the space. -/
def Ended (s : St) : Prop :=
  s.ended = true → ¬ s.Connecting → s.tasks = [] ∧ s.client = false

instance (s : St) : Decidable (Ended s) := inferInstanceAs (Decidable (_ → _))

/-- A `connect` stores its token while no task of the space runs and no other
`connect` is about to spawn one, and no `disconnect` is running or has returned since
the call; a `disconnect` does not begin between the token and the handle. -/
def Sound (s : St) : Event → Prop
  | .setToken overtaken => overtaken = false ∧ s.tasks = [] ∧ s.tokenSet = [] ∧ s.spawned = [] ∧
    ¬ s.Disconnecting
  | .disconnect => s.tokenSet = [] ∧ s.spawned = []
  | _ => True

instance (s : St) (event : Event) : Decidable (Sound s event) := by
  unfold Sound
  split
  all_goals infer_instance

/-! ## The invariant -/

/-- Between its token and its handle there is at most one `connect`, and no task but
its own; else every task is that of the handle or is waited for. -/
structure Inv (s : St) : Prop where
  ended : s.ended = true →
    s.fresh = 0 ∧ s.tokenSet = [] ∧ s.spawned = [] ∧ s.tasks = [] ∧ s.client = false
  quiet : s.Disconnecting → s.tokenSet = [] ∧ s.spawned = []
  owned : ∀ x ∈ s.tasks, x.id ∈ s.spawned ∨ s.handle = some x.id ∨ s.waiting = some x.id
  alone : s.tokenSet ≠ [] → s.tasks = [] ∧ s.spawned = []
  single : ∀ x ∈ s.tasks, ∀ t ∈ s.spawned, x.id = t
  pairwise : s.tokenSet.length + s.spawned.length ≤ 1
  waiting : s.waiting ≠ none → s.handle = none
  stopped : 0 < s.stopping ∨ 0 < s.cleared → s.tasks = []
  cleared : 0 < s.cleared → s.client = false

theorem inv_init : Inv init := by
  constructor
  all_goals simp [init]

variable {s : St}

/-- Tasks may move on and end. -/
theorem Inv.tasks (h : Inv s) {tasks : List Task}
    (hids : ∀ x ∈ tasks, ∃ y ∈ s.tasks, y.id = x.id) : Inv { s with tasks := tasks } := by
  have hnil : s.tasks = [] → tasks = [] := by
    intro hs
    rw [List.eq_nil_iff_forall_not_mem]
    intro x hx
    rcases hids x hx with ⟨y, hy, -⟩
    rw [hs] at hy
    cases hy
  constructor
  · intro hended
    rcases h.ended hended with ⟨hfresh, htoken, hspawned, htasks, hclient⟩
    exact ⟨hfresh, htoken, hspawned, hnil htasks, hclient⟩
  · exact h.quiet
  · intro x hx
    rcases hids x hx with ⟨y, hy, hid⟩
    rw [← hid]
    exact h.owned y hy
  · intro htoken
    exact ⟨hnil (h.alone htoken).1, (h.alone htoken).2⟩
  · intro x hx t ht
    rcases hids x hx with ⟨y, hy, hid⟩
    rw [← hid]
    exact h.single y hy t ht
  · exact h.pairwise
  · exact h.waiting
  · intro hstopped
    exact hnil (h.stopped hstopped)
  · exact h.cleared

theorem Inv.setStage (h : Inv s) (task : Nat) (stage : Stage) : Inv (s.setStage task stage) := by
  apply h.tasks
  intro x hx
  rcases List.mem_map.1 hx with ⟨y, hy, rfl⟩
  refine ⟨y, hy, ?_⟩
  split
  · rfl
  · rfl

theorem Inv.finish (h : Inv s) (task : Nat) : Inv (s.finish task) := by
  apply h.tasks
  intro x hx
  exact ⟨x, List.mem_of_mem_filter hx, rfl⟩

/-- A task that does something is there. -/
theorem tasks_ne_nil {task : Nat} {stage : Stage} (h : s.stage task = some stage) :
    s.tasks ≠ [] := by
  intro hnil
  simp [St.stage, hnil] at h

theorem stage_eq_none {task : Nat} (h : s.stage task = none) {x : Task} (hx : x ∈ s.tasks) :
    x.id ≠ task := by
  rw [St.stage, Option.map_eq_none_iff, List.find?_eq_none] at h
  simpa using h x hx

theorem inv_setToken (h : Inv s) (hfresh : 0 < s.fresh)
    (hsound : Sound s (.setToken false)) {t : St}
    (hstep : step s (.setToken false) = some t) : Inv t := by
  rcases hsound with ⟨-, htasks, htoken, hspawned, hquiet⟩
  simp only [step, Bool.false_eq_true, if_false, hfresh, if_true, Option.some.injEq] at hstep
  subst hstep
  constructor
  · intro hended
    have hzero := (h.ended hended).1
    omega
  · intro hdisconnecting
    exact absurd hdisconnecting hquiet
  · exact h.owned
  · intro _
    exact ⟨htasks, hspawned⟩
  · exact h.single
  · show (s.tokenSet ++ [s.nextTask]).length + s.spawned.length ≤ 1
    simp [htoken, hspawned]
  · exact h.waiting
  · exact h.stopped
  · exact h.cleared

theorem inv_spawn (h : Inv s) {task : Nat} (hmem : task ∈ s.tokenSet) {t : St}
    (hstep : step s (.spawn task) = some t) : Inv t := by
  simp only [step, hmem, if_true, Option.some.injEq] at hstep
  subst hstep
  have hne : s.tokenSet ≠ [] := List.ne_nil_of_mem hmem
  rcases h.alone hne with ⟨htasks, hspawned⟩
  have hlen := h.pairwise
  -- the only token is that of the task
  have herase : s.tokenSet.erase task = [] := by
    apply List.eq_nil_of_length_eq_zero
    rw [List.length_erase_of_mem hmem]
    omega
  constructor
  · intro hended
    exact absurd (h.ended hended).2.1 hne
  · intro hdisconnecting
    exact absurd (h.quiet hdisconnecting).1 hne
  · intro x hx
    left
    have hxtask : x = ⟨task, .checking 0⟩ := by simpa [htasks] using hx
    simp [hxtask]
  · intro htoken
    exact absurd herase htoken
  · intro x hx u hu
    have hxtask : x = ⟨task, .checking 0⟩ := by simpa [htasks] using hx
    have hutask : u = task := by simpa [hspawned] using hu
    rw [hxtask, hutask]
  · show (s.tokenSet.erase task).length + (s.spawned ++ [task]).length ≤ 1
    simp [herase, hspawned]
  · exact h.waiting
  · intro hstopped
    have hdisconnecting : s.Disconnecting := by
      rcases hstopped with hstopped | hstopped
      · exact Or.inr (Or.inr (Or.inl hstopped))
      · exact Or.inr (Or.inr (Or.inr hstopped))
    exact absurd (h.quiet hdisconnecting).1 hne
  · exact h.cleared

theorem inv_storeHandle (h : Inv s) {task : Nat} (hmem : task ∈ s.spawned)
    (hwaiting : s.waiting = none) {t : St} (hstep : step s (.storeHandle task) = some t) :
    Inv t := by
  simp only [step, if_pos (And.intro hmem hwaiting), Option.some.injEq] at hstep
  subst hstep
  have hne : s.spawned ≠ [] := List.ne_nil_of_mem hmem
  have hlen := h.pairwise
  have hpos : 0 < s.spawned.length := List.length_pos_of_mem hmem
  have herase : s.spawned.erase task = [] := by
    apply List.eq_nil_of_length_eq_zero
    rw [List.length_erase_of_mem hmem]
    omega
  constructor
  · intro hended
    exact absurd (h.ended hended).2.2.1 hne
  · intro hdisconnecting
    exact absurd (h.quiet hdisconnecting).2 hne
  · intro x hx
    right
    left
    show some task = some x.id
    rw [h.single x hx task hmem]
  · intro htoken
    exact absurd (h.alone htoken).2 hne
  · intro x hx u hu
    rw [herase] at hu
    cases hu
  · show s.tokenSet.length + (s.spawned.erase task).length ≤ 1
    rw [herase, List.length_nil]
    omega
  · intro hne'
    exact absurd hwaiting hne'
  · exact h.stopped
  · exact h.cleared

theorem inv_takeHandle (h : Inv s) (htaking : 0 < s.taking) (hwaiting : s.waiting = none) {t : St}
    (hstep : step s .takeHandle = some t) : Inv t := by
  have hquiet := h.quiet (Or.inl htaking)
  simp only [step, if_pos (And.intro htaking hwaiting), Option.some.injEq] at hstep
  split at hstep
  · rename_i task hhandle
    subst hstep
    refine ⟨h.ended, fun _ => hquiet, ?_, h.alone, h.single, h.pairwise, fun _ => rfl, h.stopped,
      h.cleared⟩
    intro x hx
    rcases h.owned x hx with hspawned | hmine | hwaited
    · exact Or.inl hspawned
    · exact Or.inr (Or.inr (hhandle ▸ hmine))
    · rw [hwaiting] at hwaited
      cases hwaited
  · rename_i hhandle
    subst hstep
    -- without a handle there is no task
    have htasks : s.tasks = [] := by
      rw [List.eq_nil_iff_forall_not_mem]
      intro x hx
      rcases h.owned x hx with hspawned | hmine | hwaited
      · rw [hquiet.2] at hspawned
        cases hspawned
      · rw [hhandle] at hmine
        cases hmine
      · rw [hwaiting] at hwaited
        cases hwaited
    exact ⟨h.ended, fun _ => hquiet, h.owned, h.alone, h.single, h.pairwise, h.waiting,
      fun _ => htasks, h.cleared⟩

theorem inv_taskAwaited (h : Inv s) {task : Nat} (hwaiting : s.waiting = some task)
    (hended : s.stage task = none) {t : St} (hstep : step s .taskAwaited = some t) : Inv t := by
  simp only [step, hwaiting, hended, if_true, Option.some.injEq] at hstep
  subst hstep
  have hne : s.waiting ≠ none := by
    rw [hwaiting]
    exact Option.some_ne_none task
  have hquiet := h.quiet (Or.inr (Or.inl hne))
  have htasks : s.tasks = [] := by
    rw [List.eq_nil_iff_forall_not_mem]
    intro x hx
    rcases h.owned x hx with hspawned | hmine | hwaited
    · rw [hquiet.2] at hspawned
      cases hspawned
    · rw [h.waiting hne] at hmine
      cases hmine
    · rw [hwaiting, Option.some.injEq] at hwaited
      exact stage_eq_none hended hx hwaited.symm
  refine ⟨h.ended, fun _ => hquiet, ?_, h.alone, h.single, h.pairwise, ?_, fun _ => htasks,
    h.cleared⟩
  · intro x hx
    have hmem : x ∈ s.tasks := hx
    rw [htasks] at hmem
    cases hmem
  · intro hne'
    exact absurd rfl hne'

/-- One step. -/
theorem inv_step {event : Event} {t : St} (h : Inv s) (hsound : Sound s event)
    (hstep : step s event = some t) : Inv t := by
  cases event with
  | connect =>
    injection hstep with hstep
    subst hstep
    exact ⟨by simp, h.quiet, h.owned, h.alone, h.single, h.pairwise, h.waiting, h.stopped,
      h.cleared⟩
  | connectFails overtaken =>
    cases overtaken with
    | false =>
      simp only [step] at hstep
      split at hstep
      · injection hstep with hstep
        subst hstep
        refine ⟨?_, h.quiet, h.owned, h.alone, h.single, h.pairwise, h.waiting, h.stopped,
          h.cleared⟩
        intro hended
        -- the count of fresh starts was zero before, and stays so
        rcases h.ended hended with ⟨hfresh, hrest⟩
        refine ⟨?_, hrest⟩
        show s.fresh - 1 = 0
        omega
      · cases hstep
    | true =>
      simp only [step] at hstep
      split at hstep
      · injection hstep with hstep
        subst hstep
        exact ⟨h.ended, h.quiet, h.owned, h.alone, h.single, h.pairwise, h.waiting, h.stopped,
          h.cleared⟩
      · cases hstep
  | setToken overtaken =>
    -- no later start has come between, so the token set is this start's
    obtain rfl : overtaken = false := hsound.1
    by_cases hfresh : 0 < s.fresh
    · exact inv_setToken h hfresh hsound hstep
    · simp [step, hfresh] at hstep
  | spawn task =>
    by_cases hmem : task ∈ s.tokenSet
    · exact inv_spawn h hmem hstep
    · simp [step, hmem] at hstep
  | storeHandle task =>
    by_cases hmem : task ∈ s.spawned ∧ s.waiting = none
    · exact inv_storeHandle h hmem.1 hmem.2 hstep
    · simp only [step, if_neg hmem] at hstep
      cases hstep
  | disconnect =>
    injection hstep with hstep
    subst hstep
    -- no start is between its token and its handle when a disconnect begins
    exact ⟨h.ended, fun _ => hsound, h.owned, h.alone, h.single, h.pairwise, h.waiting, h.stopped,
      h.cleared⟩
  | takeHandle =>
    by_cases hcan : 0 < s.taking ∧ s.waiting = none
    · exact inv_takeHandle h hcan.1 hcan.2 hstep
    · simp only [step, if_neg hcan] at hstep
      cases hstep
  | taskAwaited =>
    cases hwaiting : s.waiting with
    | none => simp [step, hwaiting] at hstep
    | some task =>
      by_cases hended : s.stage task = none
      · exact inv_taskAwaited h hwaiting hended hstep
      · simp [step, hwaiting, hended] at hstep
  | clearClients =>
    simp only [step] at hstep
    split at hstep
    · rename_i hstopping
      injection hstep with hstep
      subst hstep
      have hquiet := h.quiet (Or.inr (Or.inr (Or.inl hstopping)))
      have htasks := h.stopped (Or.inl hstopping)
      refine ⟨?_, fun _ => hquiet, h.owned, h.alone, h.single, h.pairwise, h.waiting,
        fun _ => htasks, fun _ => rfl⟩
      intro hended
      rcases h.ended hended with ⟨hfresh, htoken, hspawned, htasks, -⟩
      exact ⟨hfresh, htoken, hspawned, htasks, rfl⟩
    · cases hstep
  | disconnected =>
    simp only [step] at hstep
    split at hstep
    · rename_i hcleared
      injection hstep with hstep
      subst hstep
      have hquiet := h.quiet (Or.inr (Or.inr (Or.inr hcleared)))
      have htasks := h.stopped (Or.inr hcleared)
      have hclient := h.cleared hcleared
      exact ⟨fun _ => ⟨rfl, hquiet.1, hquiet.2, htasks, hclient⟩, fun _ => hquiet, h.owned, h.alone,
        h.single, h.pairwise, h.waiting, fun _ => htasks, fun _ => hclient⟩
    · cases hstep
  | check task =>
    simp only [step] at hstep
    split at hstep
    · injection hstep with hstep
      subst hstep
      split
      · exact h.finish task
      · exact h.setStage task _
    · cases hstep
  | missing task =>
    simp only [step] at hstep
    split at hstep
    · injection hstep with hstep
      subst hstep
      split
      · exact h.finish task
      · exact h.setStage task _
    · cases hstep
  | found task =>
    simp only [step] at hstep
    split at hstep
    · injection hstep with hstep
      subst hstep
      exact h.setStage task _
    · cases hstep
  | peers task ok =>
    simp only [step] at hstep
    split at hstep
    · rename_i hstage
      injection hstep with hstep
      subst hstep
      -- a task that asks for its peers is there, so neither has the end come nor the clearing
      have hne := tasks_ne_nil hstage
      have hfinish := h.finish task
      refine ⟨?_, hfinish.quiet, hfinish.owned, hfinish.alone, hfinish.single, hfinish.pairwise,
        hfinish.waiting, hfinish.stopped, ?_⟩
      · intro hended
        exact absurd (h.ended hended).2.2.2.1 hne
      · intro hcleared
        exact absurd (h.stopped (Or.inr hcleared)) hne
    · cases hstep

/-- Along sound runs the background task ends with the connection. -/
theorem background_ends {events : List Event} (h : Along step Sound init events) :
    Always step Ended init events := by
  apply always_of_along (P := Sound) (I := Inv)
  · intro s hs hended _
    exact (hs.ended hended).2.2.2
  · intro s event t hs hsound hstep
    exact inv_step hs hsound hstep
  · exact inv_init
  · exact h

/-- Connected, disconnected while the task looks for peers, and connected again. -/
theorem background_ends_example :
    Always step Ended init
      [.connect, .setToken false, .spawn 0, .storeHandle 0, .check 0, .found 0, .disconnect,
        .takeHandle, .peers 0 true, .taskAwaited, .clearClients, .disconnected, .connect,
        .setToken false, .spawn 1, .check 1, .storeHandle 1, .missing 1, .disconnect,
        .check 1, .takeHandle, .taskAwaited, .clearClients, .disconnected] :=
  background_ends (by decide)

/-- Two connects in a row: the task of the first one is forgotten, and enters a chat
client after the disconnect. -/
theorem background_outlives :
    ¬ Always step Ended init
      [.connect, .setToken false, .spawn 0, .storeHandle 0, .connect, .setToken false, .spawn 1,
        .storeHandle 1, .disconnect, .takeHandle, .check 1, .taskAwaited, .clearClients,
        .disconnected, .check 0, .found 0, .peers 0 true] := by
  apply not_always_of_run (Q := Ended)
  · exact fun s hs => hs
  · decide

end Background

end HomeTier
