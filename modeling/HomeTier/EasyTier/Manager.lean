import Mathlib
import HomeTier.Lib.Trace

/-! # The network manager of the daemon

`EasyTierManager` of `src-tauri/src/easytier/mod.rs`, as the daemon drives it
for its IPC requests (`daemon/mod.rs`), together with the instances that run in
the core (`easytier/src/rpc_service/instance_manage.rs`). A request is a
sequence of steps, one for each RPC to the core and for each group of local
file operations; the answer to a step is an input:

* `start_network` clears all instances (three attempts), prepares the files,
  runs the instance and removes the file the core wrote;
* `stop_network` deletes one instance, `stop_all` those with a TOML file;
* `patch_config` rewrites the files and runs the instance over the old one;
* `restart_all_instances` runs every instance with a TOML file again.

An RPC that is answered with an error may have been executed all the same, and
a failed overwrite may have removed the old instance. At most one instance runs
along a whole run exactly when no instance is started beside another one
(`single_network_iff`), which only `start_network` tries to prevent.
-/

namespace HomeTier

open Lib

/-- A UUID as a number, `as_u128`. -/
abbrev Uuid := BitVec 128

instance : LawfulBEq Uuid := inferInstance

namespace EasyTierManager

/-- Answer to `retain_network_instance([])`. -/
inductive RetainAnswer where
  | ok
  | failed (executed : Bool)
deriving DecidableEq, Repr

/-- What a failed `run_network_instance` has done. -/
inductive RunEffect where
  | nothing
  | removedOld
  | started
deriving DecidableEq, Repr

/-- Answer to `run_network_instance` with `overwrite`. -/
inductive RunAnswer where
  | ok
  | failed (effect : RunEffect)
deriving DecidableEq, Repr

def RetainAnswer.executed : RetainAnswer → Bool
  | .ok => true
  | .failed executed => executed

def RunAnswer.effect : RunAnswer → RunEffect
  | .ok => .started
  | .failed effect => effect

/-- Where `generate_config` fails; a failed write may leave a file. -/
inductive GenerateError where
  | translate
  | writeToml (left : Bool)
  | writeJson (left : Bool)
deriving DecidableEq, Repr

/-- Where `start_network` fails between the clearing and the run. -/
inductive PrepareError where
  | removeOld
  | ensureBinary
  | generate (e : GenerateError)
deriving DecidableEq, Repr

/-- Steps of `start_network`; `cleared` says whether an attempt to clear the
instances has been executed. -/
inductive StartPhase where
  | connect
  | clear (attempt : Nat) (cleared : Bool)
  | prepare (cleared : Bool)
  | runConnect (cleared : Bool)
  | run (cleared : Bool)
  | finish
deriving DecidableEq, Repr

/-- Steps of `stop_network`. -/
inductive StopPhase where
  | connect
  | delete
deriving DecidableEq, Repr

/-- Steps of `patch_config`. -/
inductive PatchPhase where
  | read
  | generate
  | connect
  | run
deriving DecidableEq, Repr

/-- Steps of `restart_all_instances` for one instance. -/
inductive RestartPhase where
  | read
  | connect
  | run
deriving DecidableEq, Repr

/-- What the daemon is doing; `todo` are the instances that follow. -/
inductive Task where
  | idle
  | start (id : Uuid) (phase : StartPhase)
  | stop (id : Uuid) (todo : List Uuid) (phase : StopPhase)
  | patch (id : Uuid) (phase : PatchPhase)
  | restart (id : Uuid) (todo : List Uuid) (phase : RestartPhase)
deriving DecidableEq, Repr

/-- The instances of the core, the spaces with a TOML or JSON file, the current
task and, right after a `start_network` returned `Ok`, its space. -/
structure St where
  running : Finset Uuid
  toml : Finset Uuid
  json : Finset Uuid
  task : Task
  started : Option Uuid
deriving DecidableEq

/-- IPC requests, and the answers to the steps of the current one. -/
inductive Act where
  | connectSpace (id : Uuid)
  | disconnectSpace (id : Uuid)
  | patchConfig (id : Uuid)
  | switchBinary (order : List Uuid)
  | stopAll (order : List Uuid)
  | connected (ok : Bool)
  | retain (answer : RetainAnswer)
  | prepared (error : Option PrepareError)
  | ran (answer : RunAnswer) (wrote : Bool)
  | finished (ok : Bool)
  | deleted (removed : Bool) (removedFile : Bool)
  | configRead (ok : Bool)
  | generated (error : Option GenerateError)
deriving DecidableEq, Repr

/-- An empty daemon: nothing runs, no files. -/
def init : St where
  running := ∅
  toml := ∅
  json := ∅
  task := .idle
  started := none

/-- `order` lists the files of the directory, in whatever order it is read. -/
def Lists (order : List Uuid) (files : Finset Uuid) : Prop :=
  order.Nodup ∧ order.toFinset = files

instance (order : List Uuid) (files : Finset Uuid) : Decidable (Lists order files) :=
  inferInstanceAs (Decidable (_ ∧ _))

/-- Presence of a file after a failed write. -/
def leave (left : Bool) (id : Uuid) (files : Finset Uuid) : Finset Uuid :=
  if left then insert id files else files.erase id

/-- The files after `generate_config`. -/
def generate (s : St) (id : Uuid) : Option GenerateError → St
  | none => { s with toml := insert id s.toml, json := insert id s.json }
  | some .translate => s
  | some (.writeToml left) => { s with toml := leave left id s.toml }
  | some (.writeJson left) => { s with toml := insert id s.toml, json := leave left id s.json }

/-- The files after the local steps of `start_network`. -/
def prepare (s : St) (id : Uuid) : Option PrepareError → St
  | none => generate { s with toml := s.toml.erase id } id none
  | some .removeOld => s
  | some .ensureBinary => { s with toml := s.toml.erase id }
  | some (.generate e) => generate { s with toml := s.toml.erase id } id (some e)

/-- What `run_network_instance` does to the instances, and to the TOML file. -/
def runInstance (s : St) (id : Uuid) (effect : RunEffect) (wrote : Bool) : St :=
  let toml := if wrote then insert id s.toml else s.toml
  match effect with
  | .nothing => { s with toml := toml }
  | .removedOld => { s with running := s.running.erase id, toml := toml }
  | .started => { s with running := insert id s.running, toml := toml }

/-- The next instance of `stop_all`, or none is left. -/
def stopNext (s : St) : List Uuid → St
  | [] => { s with task := .idle }
  | id :: todo => { s with task := .stop id todo .connect }

/-- The next instance of `restart_all_instances`. -/
def restartNext (s : St) : List Uuid → St
  | [] => { s with task := .idle }
  | id :: todo => { s with task := .restart id todo .read }

/-- An IPC request to an idle daemon. -/
def request (s : St) : Act → Option St
  | .connectSpace id => some { s with task := .start id .connect }
  | .disconnectSpace id => some { s with task := .stop id [] .connect }
  | .patchConfig id => some { s with task := .patch id .read }
  | .switchBinary order => if Lists order s.toml then some (restartNext s order) else none
  | .stopAll order => if Lists order s.toml then some (stopNext s order) else none
  | _ => none

/-- The instances after an attempt to clear them. -/
def clearAll (s : St) (executed : Bool) : St := if executed then { s with running := ∅ } else s

def startNetwork (s : St) (id : Uuid) : StartPhase → Act → Option St
  | .connect, .connected ok =>
    some { s with task := if ok then .start id (.clear 1 false) else .idle }
  | .clear attempt cleared, .retain answer =>
    -- after the third failure the clearing is reported as done
    some { clearAll s answer.executed with
      task := .start id (if answer = .ok ∨ 3 ≤ attempt then
        .prepare (cleared || answer.executed)
      else .clear (attempt + 1) (cleared || answer.executed)) }
  | .prepare cleared, .prepared error =>
    if error = some .removeOld ∧ id ∉ s.toml then none
    else
      some { prepare s id error with
        task := if error = none then .start id (.runConnect cleared) else .idle }
  | .runConnect cleared, .connected ok =>
    some { s with task := if ok then .start id (.run cleared) else .idle }
  | .run _, .ran answer wrote =>
    some { runInstance s id answer.effect wrote with
      task := if answer = .ok then .start id .finish else .idle }
  | .finish, .finished ok =>
    some (if ok then { s with toml := s.toml.erase id, task := .idle, started := some id }
      else { s with task := .idle })
  | _, _ => none

def stopNetwork (s : St) (id : Uuid) (todo : List Uuid) : StopPhase → Act → Option St
  | .connect, .connected ok =>
    some (if ok then { s with task := .stop id todo .delete } else stopNext s todo)
  | .delete, .deleted removed removedFile =>
    -- a failed deletion is only logged
    some (stopNext { s with
      running := if removed then s.running.erase id else s.running
      toml := if removedFile then s.toml.erase id else s.toml } todo)
  | _, _ => none

def patchConfig (s : St) (id : Uuid) : PatchPhase → Act → Option St
  | .read, .configRead ok =>
    if ok then
      if id ∈ s.json ∨ id ∈ s.toml then some { s with task := .patch id .generate } else none
    else some { s with task := .idle }
  | .generate, .generated error =>
    some { generate s id error with task := if error = none then .patch id .connect else .idle }
  | .connect, .connected ok => some { s with task := if ok then .patch id .run else .idle }
  | .run, .ran answer wrote =>
    some { runInstance s id answer.effect wrote with task := .idle }
  | _, _ => none

def restartAllInstances (s : St) (id : Uuid) (todo : List Uuid) : RestartPhase → Act → Option St
  | .read, .configRead ok =>
    some (if ok then { s with task := .restart id todo .connect } else restartNext s todo)
  | .connect, .connected ok =>
    some (if ok then { s with task := .restart id todo .run } else restartNext s todo)
  | .run, .ran answer wrote => some (restartNext (runInstance s id answer.effect wrote) todo)
  | _, _ => none

/-- The state without the mark of a return. -/
def resume (s : St) : St := { s with started := none }

/-- One step; `none` when the act does not answer the current task. -/
def step (s : St) (a : Act) : Option St :=
  match s.task with
  | .idle => request (resume s) a
  | .start id phase => startNetwork (resume s) id phase a
  | .stop id todo phase => stopNetwork (resume s) id todo phase a
  | .patch id phase => patchConfig (resume s) id phase a
  | .restart id todo phase => restartAllInstances (resume s) id todo phase a

/-! ## What a step does to the instances -/

/-- The instance a step starts, and whether the instances were cleared for it. -/
def startsAt (task : Task) (a : Act) : Option (Uuid × Bool) :=
  match task, a with
  | .start id (.run cleared), .ran answer _ =>
    if answer.effect = .started then some (id, cleared) else none
  | .patch id .run, .ran answer _ => if answer.effect = .started then some (id, false) else none
  | .restart id _ .run, .ran answer _ =>
    if answer.effect = .started then some (id, false) else none
  | _, _ => none

/-- The instances have been cleared and the new one is not started yet. -/
def StartPhase.cleared : StartPhase → Bool
  | .connect => false
  | .clear _ cleared => cleared
  | .prepare cleared => cleared
  | .runConnect cleared => cleared
  | .run cleared => cleared
  | .finish => false

/-- The space a task has cleared the instances for. -/
def clearedFor : Task → Option Uuid
  | .start id phase => if phase.cleared then some id else none
  | _ => none

/-- A step from `task` shrinks the set of instances, starts one, or is the
return of a `start_network`. -/
inductive Effect (task : Task) (running : Finset Uuid) (a : Act) (s' : St) : Prop where
  | shrinks (hno : startsAt task a = none) (hrun : s'.running ⊆ running)
      (hret : s'.started = none)
  | starts (id : Uuid) (cleared : Bool) (hstart : startsAt task a = some (id, cleared))
      (hrun : s'.running = insert id running) (hret : s'.started = none)
  | returns (id : Uuid) (htask : task = .start id .finish) (hno : startsAt task a = none)
      (hrun : s'.running = running) (hret : s'.started = some id)

@[simp] theorem generate_running (s : St) (id : Uuid) (e : Option GenerateError) :
    (generate s id e).running = s.running := by
  rcases e with _ | _ | _ | _ <;> rfl

@[simp] theorem generate_started (s : St) (id : Uuid) (e : Option GenerateError) :
    (generate s id e).started = s.started := by
  rcases e with _ | _ | _ | _ <;> rfl

@[simp] theorem prepare_running (s : St) (id : Uuid) (e : Option PrepareError) :
    (prepare s id e).running = s.running := by
  rcases e with _ | _ | _ | _ <;> simp [prepare]

@[simp] theorem prepare_started (s : St) (id : Uuid) (e : Option PrepareError) :
    (prepare s id e).started = s.started := by
  rcases e with _ | _ | _ | _ <;> simp [prepare]

@[simp] theorem runInstance_started (s : St) (id : Uuid) (e : RunEffect) (w : Bool) :
    (runInstance s id e w).started = s.started := by
  cases e <;> rfl

@[simp] theorem stopNext_running (s : St) (todo : List Uuid) :
    (stopNext s todo).running = s.running := by
  cases todo <;> rfl

@[simp] theorem restartNext_running (s : St) (todo : List Uuid) :
    (restartNext s todo).running = s.running := by
  cases todo <;> rfl

@[simp] theorem restartNext_started (s : St) (todo : List Uuid) :
    (restartNext s todo).started = s.started := by
  cases todo <;> rfl

theorem clearAll_subset (s : St) (executed : Bool) : (clearAll s executed).running ⊆ s.running := by
  cases executed with
  | true => exact Finset.empty_subset _
  | false => exact Finset.Subset.refl _

@[simp] theorem clearAll_started (s : St) (executed : Bool) :
    (clearAll s executed).started = s.started := by
  cases executed <;> rfl

/-- A run that starts nothing at most removes the old instance. -/
theorem runInstance_subset (s : St) (id : Uuid) {e : RunEffect} (h : e ≠ .started) (w : Bool) :
    (runInstance s id e w).running ⊆ s.running := by
  cases e with
  | nothing => exact Finset.Subset.refl _
  | removedOld => exact Finset.erase_subset _ _
  | started => exact absurd rfl h

theorem runInstance_effect {task : Task} {s s' : St} {a : Act} {id : Uuid} {cleared : Bool}
    {e : RunEffect} {w : Bool}
    (hat : startsAt task a = if e = .started then some (id, cleared) else none)
    (hrun : s'.running = (runInstance s id e w).running) (hret : s'.started = none) :
    Effect task s.running a s' := by
  by_cases he : e = .started
  · subst he
    exact .starts id cleared (by simpa using hat) hrun hret
  · refine .shrinks (by simpa [he] using hat) ?_ hret
    rw [hrun]
    exact runInstance_subset s id he w

/-! ## One lemma for each operation -/

/-- Nothing has returned and no `start_network` is under way. -/
structure Quiet (s : St) : Prop where
  returned : s.started = none
  cleared : clearedFor s.task = none
  finishing : ∀ id, s.task ≠ .start id .finish

theorem quiet_stopNext {s : St} (hs : s.started = none) (todo : List Uuid) :
    Quiet (stopNext s todo) := by
  cases todo with
  | nil => exact ⟨hs, rfl, by simp [stopNext]⟩
  | cons id todo => exact ⟨hs, rfl, by simp [stopNext]⟩

theorem quiet_restartNext {s : St} (hs : s.started = none) (todo : List Uuid) :
    Quiet (restartNext s todo) := by
  cases todo with
  | nil => exact ⟨hs, rfl, by simp [restartNext]⟩
  | cons id todo => exact ⟨hs, rfl, by simp [restartNext]⟩

section Operations

variable {s s' : St} {a : Act} {id : Uuid} {todo : List Uuid}

theorem request_spec (hs : s.started = none) (h : request s a = some s') :
    Quiet s' ∧ s'.running = s.running := by
  have hlist : ∀ (next : St → List Uuid → St) (order : List Uuid),
      (if Lists order s.toml then some (next s order) else none) = some s' →
        s' = next s order := by
    intro next order hif
    split at hif
    · exact (Option.some.inj hif).symm
    · simp at hif
  cases a with
  | connectSpace | disconnectSpace | patchConfig =>
    obtain rfl := Option.some.inj h
    exact ⟨⟨hs, rfl, by simp⟩, rfl⟩
  | switchBinary order =>
    obtain rfl := hlist restartNext order h
    exact ⟨quiet_restartNext hs order, restartNext_running s order⟩
  | stopAll order =>
    obtain rfl := hlist stopNext order h
    exact ⟨quiet_stopNext hs order, stopNext_running s order⟩
  | _ => simp [request] at h

theorem stopNetwork_spec {phase : StopPhase} (hs : s.started = none)
    (h : stopNetwork s id todo phase a = some s') : Quiet s' ∧ s'.running ⊆ s.running := by
  cases phase with
  | connect =>
    cases a with
    | connected ok =>
      obtain rfl := Option.some.inj h
      cases ok with
      | true => exact ⟨⟨hs, rfl, by simp⟩, Finset.Subset.refl _⟩
      | false => exact ⟨quiet_stopNext hs todo, by simp⟩
    | _ => simp [stopNetwork] at h
  | delete =>
    cases a with
    | deleted removed removedFile =>
      obtain rfl := Option.some.inj h
      refine ⟨quiet_stopNext (by exact hs) todo, ?_⟩
      cases removed with
      | true => simpa using Finset.erase_subset id s.running
      | false => simp
    | _ => simp [stopNetwork] at h

theorem patchConfig_spec {phase : PatchPhase} (hs : s.started = none)
    (h : patchConfig s id phase a = some s') : Quiet s' ∧ Effect (.patch id phase) s.running a s' := by
  cases phase with
  | read =>
    cases a with
    | configRead ok =>
      simp only [patchConfig] at h
      split at h
      · split at h
        · obtain rfl := Option.some.inj h
          exact ⟨⟨hs, rfl, by simp⟩, .shrinks rfl (Finset.Subset.refl _) hs⟩
        · simp at h
      · obtain rfl := Option.some.inj h
        exact ⟨⟨hs, rfl, by simp⟩, .shrinks rfl (Finset.Subset.refl _) hs⟩
    | _ => simp [patchConfig] at h
  | generate =>
    cases a with
    | generated error =>
      obtain rfl := Option.some.inj h
      refine ⟨⟨by simpa using hs, ?_, ?_⟩, .shrinks rfl (by simp) (by simpa using hs)⟩
      · cases error <;> rfl
      · cases error <;> simp
    | _ => simp [patchConfig] at h
  | connect =>
    cases a with
    | connected ok =>
      obtain rfl := Option.some.inj h
      refine ⟨⟨hs, ?_, ?_⟩, .shrinks rfl (Finset.Subset.refl _) hs⟩
      · cases ok <;> rfl
      · cases ok <;> simp
    | _ => simp [patchConfig] at h
  | run =>
    cases a with
    | ran answer wrote =>
      obtain rfl := Option.some.inj h
      exact ⟨⟨by simpa using hs, rfl, by simp⟩,
        runInstance_effect rfl rfl (by simpa using hs)⟩
    | _ => simp [patchConfig] at h

theorem restartAllInstances_spec {phase : RestartPhase} (hs : s.started = none)
    (h : restartAllInstances s id todo phase a = some s') :
    Quiet s' ∧ Effect (.restart id todo phase) s.running a s' := by
  cases phase with
  | read =>
    cases a with
    | configRead ok =>
      obtain rfl := Option.some.inj h
      cases ok with
      | true => exact ⟨⟨hs, rfl, by simp⟩, .shrinks rfl (Finset.Subset.refl _) hs⟩
      | false => exact ⟨quiet_restartNext hs todo, .shrinks rfl (by simp) (by simpa using hs)⟩
    | _ => simp [restartAllInstances] at h
  | connect =>
    cases a with
    | connected ok =>
      obtain rfl := Option.some.inj h
      cases ok with
      | true => exact ⟨⟨hs, rfl, by simp⟩, .shrinks rfl (Finset.Subset.refl _) hs⟩
      | false => exact ⟨quiet_restartNext hs todo, .shrinks rfl (by simp) (by simpa using hs)⟩
    | _ => simp [restartAllInstances] at h
  | run =>
    cases a with
    | ran answer wrote =>
      obtain rfl := Option.some.inj h
      exact ⟨quiet_restartNext (by simpa using hs) todo,
        runInstance_effect (w := wrote) rfl (by simp) (by simpa using hs)⟩
    | _ => simp [restartAllInstances] at h

/-! ### `start_network` -/

/-- What holds in every reachable state: a cleared core runs at most the space
it was cleared for, and a started instance runs. -/
structure Inv (s : St) : Prop where
  cleared : ∀ id, clearedFor s.task = some id → s.running ⊆ {id}
  finishing : ∀ id, s.task = .start id .finish → id ∈ s.running
  returned : ∀ id, s.started = some id → id ∈ s.running

theorem Quiet.inv (h : Quiet s) : Inv s where
  cleared := fun id hid => by simp [h.cleared] at hid
  finishing := fun id hid => absurd hid (h.finishing id)
  returned := fun id hid => by simp [h.returned] at hid

/-- The invariant of a `start_network` that has not started its instance. -/
theorem inv_start {phase : StartPhase} (hs : s.started = none) (ht : s.task = .start id phase)
    (hf : phase ≠ .finish) (hrun : phase.cleared = true → s.running ⊆ {id}) : Inv s where
  cleared := by
    intro id' hid
    rw [ht, clearedFor] at hid
    split at hid
    · rename_i hc
      obtain rfl := Option.some.inj hid
      exact hrun hc
    · simp at hid
  finishing := by
    intro id' hid
    rw [ht] at hid
    exact absurd (Task.start.inj hid).2 hf
  returned := by
    intro id' hid
    simp [hs] at hid

theorem startNetwork_effect {phase : StartPhase} (hs : s.started = none)
    (h : startNetwork s id phase a = some s') : Effect (.start id phase) s.running a s' := by
  cases phase with
  | connect | runConnect =>
    cases a with
    | connected ok =>
      obtain rfl := Option.some.inj h
      exact .shrinks rfl (Finset.Subset.refl _) hs
    | _ => simp [startNetwork] at h
  | clear attempt cleared =>
    cases a with
    | retain answer =>
      obtain rfl := Option.some.inj h
      exact .shrinks rfl (clearAll_subset s _) (by simpa using hs)
    | _ => simp [startNetwork] at h
  | prepare cleared =>
    cases a with
    | prepared error =>
      simp only [startNetwork] at h
      split at h
      · simp at h
      · obtain rfl := Option.some.inj h
        exact .shrinks rfl (by simp) (by simpa using hs)
    | _ => simp [startNetwork] at h
  | run cleared =>
    cases a with
    | ran answer wrote =>
      obtain rfl := Option.some.inj h
      exact runInstance_effect rfl rfl (by simpa using hs)
    | _ => simp [startNetwork] at h
  | finish =>
    cases a with
    | finished ok =>
      obtain rfl := Option.some.inj h
      cases ok with
      | true => exact .returns id rfl rfl rfl rfl
      | false => exact .shrinks rfl (Finset.Subset.refl _) hs
    | _ => simp [startNetwork] at h

theorem startNetwork_inv {phase : StartPhase} (hs : s.started = none)
    (ht : s.task = .start id phase) (hinv : Inv s)
    (h : startNetwork s id phase a = some s') : Inv s' := by
  have hcleared : phase.cleared = true → s.running ⊆ {id} := by
    intro hc
    exact hinv.cleared id (by simp [ht, clearedFor, hc])
  cases phase with
  | connect =>
    cases a with
    | connected ok =>
      obtain rfl := Option.some.inj h
      cases ok with
      | true => exact inv_start hs rfl (by simp) (by simp [StartPhase.cleared])
      | false => exact Quiet.inv ⟨hs, rfl, by simp⟩
    | _ => simp [startNetwork] at h
  | clear attempt cleared =>
    cases a with
    | retain answer =>
      obtain rfl := Option.some.inj h
      have hs' : (clearAll s answer.executed).started = none := by simpa using hs
      have hrun : (cleared || answer.executed) = true →
          (clearAll s answer.executed).running ⊆ {id} := by
        intro hc
        cases he : answer.executed with
        | true => exact Finset.empty_subset _
        | false => exact hcleared (by simpa [he, StartPhase.cleared] using hc)
      by_cases hlast : answer = .ok ∨ 3 ≤ attempt
      · rw [if_pos hlast]
        exact inv_start hs' rfl (by simp) hrun
      · rw [if_neg hlast]
        exact inv_start hs' rfl (by simp) hrun
    | _ => simp [startNetwork] at h
  | prepare cleared =>
    cases a with
    | prepared error =>
      simp only [startNetwork] at h
      split at h
      · simp at h
      · obtain rfl := Option.some.inj h
        cases error with
        | none =>
          exact inv_start (by simpa using hs) rfl (by simp)
            (by simpa [StartPhase.cleared] using hcleared)
        | some e => exact Quiet.inv ⟨by simpa using hs, rfl, by simp⟩
    | _ => simp [startNetwork] at h
  | runConnect cleared =>
    cases a with
    | connected ok =>
      obtain rfl := Option.some.inj h
      cases ok with
      | true => exact inv_start hs rfl (by simp) hcleared
      | false => exact Quiet.inv ⟨hs, rfl, by simp⟩
    | _ => simp [startNetwork] at h
  | run cleared =>
    cases a with
    | ran answer wrote =>
      obtain rfl := Option.some.inj h
      cases answer with
      | ok =>
        -- the instance runs from here on
        refine ⟨by simp [clearedFor, StartPhase.cleared], ?_, by simp [hs]⟩
        intro id' hid
        obtain rfl : id = id' := by simpa using hid
        simp [runInstance, RunAnswer.effect]
      | failed effect => exact Quiet.inv ⟨by simpa using hs, rfl, by simp⟩
    | _ => simp [startNetwork] at h
  | finish =>
    cases a with
    | finished ok =>
      obtain rfl := Option.some.inj h
      cases ok with
      | true =>
        refine ⟨by simp [clearedFor], by simp, ?_⟩
        intro id' hid
        obtain rfl : id = id' := by simpa using hid
        exact hinv.finishing id ht
      | false => exact Quiet.inv ⟨hs, rfl, by simp⟩
    | _ => simp [startNetwork] at h

end Operations

/-! ## Whole runs -/

section Runs

variable {s s' : St} {a : Act}

theorem step_effect (h : step s a = some s') : Effect s.task s.running a s' := by
  have hs : (resume s).started = none := rfl
  unfold step at h
  cases ht : s.task with
  | idle =>
    simp only [ht] at h
    rcases request_spec hs h with ⟨hq, hrun⟩
    refine .shrinks rfl ?_ hq.returned
    rw [hrun]
    exact Finset.Subset.refl _
  | start id phase =>
    simp only [ht] at h
    have heff := startNetwork_effect hs h
    exact heff
  | stop id todo phase =>
    simp only [ht] at h
    rcases stopNetwork_spec hs h with ⟨hq, hrun⟩
    exact .shrinks rfl hrun hq.returned
  | patch id phase =>
    simp only [ht] at h
    have heff := (patchConfig_spec hs h).2
    exact heff
  | restart id todo phase =>
    simp only [ht] at h
    have heff := (restartAllInstances_spec hs h).2
    exact heff

theorem step_inv (hinv : Inv s) (h : step s a = some s') : Inv s' := by
  have hs : (resume s).started = none := rfl
  have hinv' : Inv (resume s) := ⟨hinv.cleared, hinv.finishing, by simp [resume]⟩
  unfold step at h
  cases ht : s.task with
  | idle =>
    simp only [ht] at h
    exact (request_spec hs h).1.inv
  | start id phase =>
    simp only [ht] at h
    exact startNetwork_inv hs ht hinv' h
  | stop id todo phase =>
    simp only [ht] at h
    exact (stopNetwork_spec hs h).1.inv
  | patch id phase =>
    simp only [ht] at h
    exact (patchConfig_spec hs h).1.inv
  | restart id todo phase =>
    simp only [ht] at h
    exact (restartAllInstances_spec hs h).1.inv

/-- At most one instance runs, and a returned `start_network` left exactly its
own running. -/
structure SingleNetwork (s : St) : Prop where
  atMostOne : s.running.card ≤ 1
  exact : ∀ id, s.started = some id → s.running = {id}

/-- An instance is only started when the instances were cleared for it or no
other one runs. -/
def StartsAlone (s : St) (a : Act) : Prop :=
  match startsAt s.task a with
  | none => True
  | some (id, cleared) => cleared = true ∨ s.running ⊆ {id}

theorem clearedFor_of_startsAt {task : Task} {id : Uuid} (h : startsAt task a = some (id, true)) :
    clearedFor task = some id := by
  unfold startsAt at h
  split at h
  · split at h
    · obtain ⟨rfl, rfl⟩ : _ ∧ _ := by simpa using h
      rfl
    · simp at h
  · split at h
    · simp at h
    · simp at h
  · split at h
    · simp at h
    · simp at h
  · simp at h

theorem card_insert_le_one_iff {α : Type} [DecidableEq α] (x : α) (R : Finset α) :
    (insert x R).card ≤ 1 ↔ R ⊆ {x} := by
  constructor
  · intro h y hy
    have := Finset.card_le_one.1 h y (Finset.mem_insert_of_mem hy) x (Finset.mem_insert_self x R)
    simpa using this
  · intro h
    have hsub : insert x R ⊆ {x} := Finset.insert_subset (Finset.mem_singleton_self x) h
    simpa using Finset.card_le_card hsub

/-- Among reachable states, a step keeps a single network exactly when it starts
no instance beside another one. -/
theorem singleNetwork_step (hinv : Inv s) (hone : SingleNetwork s) (h : step s a = some s') :
    SingleNetwork s' ↔ StartsAlone s a := by
  rcases step_effect h with ⟨hno, hrun, hret⟩ | ⟨id, cleared, hstart, hrun, hret⟩ |
    ⟨id, htask, hno, hrun, hret⟩
  · -- no instance is added
    have hcard : s'.running.card ≤ 1 := (Finset.card_le_card hrun).trans hone.atMostOne
    have halone : StartsAlone s a := by simp [StartsAlone, hno]
    exact ⟨fun _ => halone, fun _ => ⟨hcard, by simp [hret]⟩⟩
  · have hiff : SingleNetwork s' ↔ s.running ⊆ {id} := by
      rw [← card_insert_le_one_iff, ← hrun]
      exact ⟨fun hsingle => hsingle.atMostOne, fun hcard => ⟨hcard, by simp [hret]⟩⟩
    rw [hiff]
    simp only [StartsAlone, hstart]
    constructor
    · exact Or.inr
    · rintro (hc | halone)
      · subst hc
        exact hinv.cleared id (clearedFor_of_startsAt hstart)
      · exact halone
  · -- the instance that was started is the only one
    have halone : StartsAlone s a := by simp [StartsAlone, hno]
    have hmem : id ∈ s.running := hinv.finishing id htask
    refine ⟨fun _ => halone, fun _ => ⟨by rw [hrun]; exact hone.atMostOne, ?_⟩⟩
    intro id' hid
    obtain rfl : id = id' := by simpa [hret] using hid
    rw [hrun]
    exact (Finset.eq_singleton_iff_unique_mem).2
      ⟨hmem, fun x hx => Finset.card_le_one.1 hone.atMostOne x hx id hmem⟩

end Runs

theorem inv_init : Inv init := Quiet.inv ⟨rfl, rfl, by simp [init]⟩

theorem singleNetwork_init : SingleNetwork init := ⟨by simp [init], by simp [init]⟩

/-- From an empty daemon, a single network runs at every moment of a run exactly
when every instance is started after a clearing that was executed or while no
other instance runs. -/
theorem single_network_iff (as : List Act) :
    Always step SingleNetwork init as ↔ Along step StartsAlone init as :=
  always_iff_along (fun _ _ _ => step_inv) (fun _ _ _ => singleNetwork_step) inv_init
    singleNetwork_init as

/-! ### A space connected while the core does not answer the clearing -/

/-- Connect a space; the answer to each of the attempts to clear is given. -/
def connectActs (id : Uuid) (attempts : List RetainAnswer) : List Act :=
  [.connectSpace id, .connected true] ++ attempts.map .retain ++
    [.prepared none, .connected true, .ran .ok true, .finished true]

/-- Two spaces are connected in turn. -/
def twoSpaces (attempts : List RetainAnswer) : List Act :=
  connectActs 1 [.ok] ++ connectActs 2 attempts

/-- Three failed attempts to clear are passed over, and the second instance is
started beside the first. -/
theorem uncleared_start_runs_two :
    ¬ Always step SingleNetwork init (twoSpaces (List.replicate 3 (.failed false))) := by
  intro h
  obtain ⟨t, hrun, hcard⟩ : ∃ t, run step init (twoSpaces (List.replicate 3 (.failed false))) =
      some t ∧ t.running.card = 2 := ⟨_, rfl, by decide⟩
  have hone := (always_run h hrun).atMostOne
  omega

end EasyTierManager

end HomeTier
