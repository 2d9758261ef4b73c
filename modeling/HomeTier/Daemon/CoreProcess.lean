import Mathlib.Data.List.Basic
import HomeTier.Lib.Text
import HomeTier.Lib.Trace

/-! # The core process

`EasyTierProcess` of `src-tauri/src/easytier/process.rs` starts `easytier-core`
and holds its handle; the start-up task of the daemon (`daemon/mod.rs`) starts
one, and the shutdown of the daemon stops it.

`Child::kill` of tokio sends the signal and waits once its future is awaited: a
call that is not awaited does nothing, and a `Child` that is dropped leaves the
process alone. A child that has been waited for cannot be killed again.
-/

namespace HomeTier

open Lib

namespace CoreProcess

/-! ## One child -/

/-- Where `child.kill().await` fails: the signal is not sent, or the process is
not waited for. -/
inductive KillFault where
  | signal (error : Str)
  | wait (error : Str)
deriving DecidableEq, Repr

def KillFault.isSignal : KillFault → Bool
  | .signal _ => true
  | .wait _ => false

/-- What `EasyTierProcess::stop` does with a child. -/
structure Stopped where
  sent : Bool
  reaped : Bool
  /-- The child goes back into the manager. -/
  kept : Bool
  result : Except Str Unit

/-- `EasyTierProcess::stop` for a child; `wait` after `kill` finds the exit status
there. -/
def stopChild (reaped : Bool) (fault : Option KillFault) : Stopped :=
  if reaped then
    { sent := false
      reaped := true
      kept := false
      result := .error ("终止进程失败: ".toList ++
        "invalid argument: can't kill an exited process".toList) }
  else
    match fault with
    | some (.signal error) =>
      { sent := false, reaped := false, kept := false
        result := .error ("终止进程失败: ".toList ++ error) }
    | some (.wait error) =>
      { sent := true, reaped := false, kept := false
        result := .error ("终止进程失败: ".toList ++ error) }
    | none => { sent := true, reaped := true, kept := true, result := .ok () }

/-! ## The managers -/

/-- A process, by whether a kill has been sent to it and whether it has been waited
for. -/
structure Core where
  sent : Bool
  reaped : Bool
deriving DecidableEq, Repr

/-- The processes started so far, those a `start_daemon` still waits for, the
managers with their children, and a `stop` that has just returned an error, with
the child before and after it. -/
structure St where
  cores : List Core
  starting : List Nat
  managers : List (Option Nat)
  failedStop : Option (Option Nat × Option Nat)
deriving DecidableEq, Repr

def init : St where
  cores := []
  starting := []
  managers := []
  failedStop := none

inductive Event where
  /-- `start_daemon` spawns, or returns the error. -/
  | spawn (error : Option Str)
  /-- The port answers, and the manager is returned. -/
  | ready (p : Nat)
  /-- The port does not answer for 20 s. -/
  | timeout (p : Nat)
  | stop (m : Nat) (fault : Option KillFault)
  | restart (m : Nat) (fault : Option KillFault) (error : Option Str)
  | drop (m : Nat)
deriving DecidableEq, Repr

/-- A kill that has been sent stays sent. -/
def Core.stop (c : Core) (r : Stopped) : Core where
  sent := c.sent || r.sent
  reaped := r.reaped

/-- `stop` of the manager `m`, with the state and the result. -/
def stop (s : St) (m : Nat) (child : Option Nat) (fault : Option KillFault) :
    St × Except Str Unit :=
  match child with
  | none => ({ s with failedStop := none }, .ok ())
  | some p =>
    let c := s.cores.getD p ⟨false, false⟩
    let r := stopChild c.reaped fault
    let after := if r.kept then some p else none
    ({ s with
        cores := s.cores.set p (c.stop r)
        managers := s.managers.set m after
        failedStop := match r.result with
          | .ok _ => none
          | .error _ => some (some p, after) },
      r.result)

/-- A new process for the manager `m`. -/
def respawn (s : St) (m : Nat) : St :=
  { s with
    cores := s.cores ++ [⟨false, false⟩]
    managers := s.managers.set m (some s.cores.length) }

def step (s : St) : Event → Option St
  | .spawn none =>
    some { s with
      cores := s.cores ++ [⟨false, false⟩]
      starting := s.starting ++ [s.cores.length]
      failedStop := none }
  | .spawn (some _) => some { s with failedStop := none }
  | .ready p =>
    if p ∈ s.starting then
      some { s with
        starting := s.starting.filter (· ≠ p)
        managers := s.managers ++ [some p]
        failedStop := none }
    else none
  | .timeout p =>
    -- `let _ = child.kill()` is not awaited
    if p ∈ s.starting then
      some { s with starting := s.starting.filter (· ≠ p), failedStop := none }
    else none
  | .stop m fault => (s.managers[m]?).map fun child => (stop s m child fault).1
  | .restart m fault error =>
    (s.managers[m]?).map fun child =>
      let r := stop s m child fault
      match r.2, error with
      | .ok _, none => respawn r.1 m
      | _, _ => r.1
  | .drop m =>
    -- neither is the kill in `drop`
    if m < s.managers.length then
      some { s with managers := s.managers.eraseIdx m, failedStop := none }
    else none

/-- A kill has been sent to the process. -/
def St.Sent (s : St) (p : Nat) : Prop := (s.cores[p]?).any (·.sent) = true

instance (s : St) (p : Nat) : Decidable (s.Sent p) := inferInstanceAs (Decidable (_ = _))

/-- A process that no running `start_daemon` and no manager has any more has been
sent a kill, and a `stop` that fails leaves the child where it was. -/
structure Owned (s : St) : Prop where
  cores : ∀ p < s.cores.length, p ∈ s.starting ∨ some p ∈ s.managers ∨ s.Sent p
  failedStop : ∀ before after, s.failedStop = some (before, after) → after = before

/-- The child of a manager. -/
def St.child (s : St) (m : Nat) : Option Nat := (s.managers[m]?).join

/-- No `start_daemon` times out; no kill of a `stop` fails, nor comes to a process
that has been stopped; a manager is dropped only after its child was stopped. -/
def Sound (s : St) : Event → Prop
  | .timeout _ => False
  | .stop m fault | .restart m fault _ =>
    ∀ p ∈ s.child m, fault = none ∧ (s.cores.getD p ⟨false, false⟩).reaped = false
  | .drop m => ∀ p ∈ s.child m, s.Sent p
  | _ => True

instance (s : St) (event : Event) : Decidable (Sound s event) := by
  unfold Sound
  split
  all_goals infer_instance

/-! ## No manager loses its process -/

section Managers

variable {s : St} {m p q : Nat}

theorem child_eq_some : s.child m = some p ↔ s.managers[m]? = some (some p) := by
  simp [St.child, Option.join_eq_some_iff]

/-- Another manager's child stays where a manager is changed. -/
theorem mem_set_or (x : Option Nat) (h : some q ∈ s.managers) :
    some q ∈ s.managers.set m x ∨ s.child m = some q := by
  rcases List.mem_iff_getElem?.1 h with ⟨i, hi⟩
  by_cases him : i = m
  · subst him
    exact Or.inr (child_eq_some.2 hi)
  · left
    rw [List.mem_iff_getElem?]
    exact ⟨i, by rw [List.getElem?_set_ne (Ne.symm him), hi]⟩

theorem mem_eraseIdx_or (h : some q ∈ s.managers) :
    some q ∈ s.managers.eraseIdx m ∨ s.child m = some q := by
  rcases List.mem_iff_getElem?.1 h with ⟨i, hi⟩
  by_cases him : i = m
  · subst him
    exact Or.inr (child_eq_some.2 hi)
  · exact Or.inl (List.mem_eraseIdx_iff_getElem?.2 ⟨i, him, hi⟩)

/-- A new process is another one. -/
theorem sent_append {t : St} (c : Core) (ht : t.cores = s.cores ++ [c]) (hq : q < s.cores.length)
    (h : s.Sent q) : t.Sent q := by
  rw [St.Sent, ht, List.getElem?_append_left hq]
  exact h

theorem stopChild_none : stopChild false none = ⟨true, true, true, .ok ()⟩ := rfl

/-- `stop` of a child that runs sends the kill and leaves the managers alone. -/
theorem stop_sound {fault : Option KillFault} (h : s.managers[m]? = some (some p))
    (hfault : fault = none) (hreaped : (s.cores.getD p ⟨false, false⟩).reaped = false) :
    stop s m (some p) fault =
      ({ s with cores := s.cores.set p ⟨true, true⟩, failedStop := none }, .ok ()) := by
  have hset : s.managers.set m (some p) = s.managers := by
    apply List.ext_getElem?
    intro i
    by_cases him : m = i
    · subst him
      rw [List.getElem?_set_self', h]
      rfl
    · rw [List.getElem?_set_ne him]
  simp only [stop, hfault, hreaped, stopChild_none, Core.stop, if_true, hset, Bool.or_true]

theorem sent_set {t : St} (ht : t.cores = s.cores.set p ⟨true, true⟩) (hq : q < s.cores.length)
    (h : s.Sent q ∨ q = p) : t.Sent q := by
  rw [St.Sent, ht]
  by_cases hqp : q = p
  · subst hqp
    rw [List.getElem?_set_self hq]
    rfl
  · rw [List.getElem?_set_ne (Ne.symm hqp)]
    exact h.resolve_right hqp

theorem owned_stop (h : Owned s) {child : Option Nat} (hchild : s.managers[m]? = some child)
    {fault : Option KillFault}
    (hsound : ∀ p ∈ s.child m, fault = none ∧ (s.cores.getD p ⟨false, false⟩).reaped = false) :
    Owned (stop s m child fault).1 ∧ (stop s m child fault).1.managers = s.managers ∧
      ∀ q ∈ s.child m, q < (stop s m child fault).1.cores.length →
        (stop s m child fault).1.Sent q := by
  cases child with
  | none =>
    refine ⟨⟨h.cores, ?_⟩, rfl, ?_⟩
    · intro before after heq
      cases heq
    · intro q hq _
      have hnone : s.managers[m]? = some (some q) := child_eq_some.1 hq
      rw [hchild] at hnone
      cases hnone
  | some p =>
    rcases hsound p (child_eq_some.2 hchild) with ⟨hfault, hreaped⟩
    rw [stop_sound hchild hfault hreaped]
    refine ⟨⟨?_, ?_⟩, rfl, ?_⟩
    · intro q hq
      have hq' : q < s.cores.length := by simpa using hq
      rcases h.cores q hq' with hstart | hman | hsent
      · exact Or.inl hstart
      · exact Or.inr (Or.inl hman)
      · exact Or.inr (Or.inr (sent_set rfl hq' (Or.inl hsent)))
    · intro before after heq
      cases heq
    · intro q hq hlt
      have hqm : s.managers[m]? = some (some q) := child_eq_some.1 hq
      rw [hchild] at hqm
      have hqp : q = p := by simpa using hqm.symm
      exact sent_set rfl (by simpa using hlt) (Or.inr hqp)

/-- One call of the managers. -/
theorem owned_step {event : Event} {t : St} (h : Owned s) (hsound : Sound s event)
    (hstep : step s event = some t) : Owned t := by
  cases event with
  | spawn error =>
    cases error with
    | some error =>
      injection hstep with hstep
      subst hstep
      exact ⟨h.cores, by simp⟩
    | none =>
      injection hstep with hstep
      subst hstep
      refine ⟨?_, by simp⟩
      intro q hq
      simp only [List.length_append, List.length_singleton] at hq
      by_cases hnew : q = s.cores.length
      · left
        rw [List.mem_append, hnew]
        exact Or.inr (List.mem_singleton.2 rfl)
      · have hq' : q < s.cores.length := by omega
        rcases h.cores q hq' with hstart | hman | hsent
        · exact Or.inl (List.mem_append.2 (Or.inl hstart))
        · exact Or.inr (Or.inl hman)
        · exact Or.inr (Or.inr (sent_append _ rfl hq' hsent))
  | ready p =>
    simp only [step] at hstep
    split at hstep
    · injection hstep with hstep
      subst hstep
      refine ⟨?_, by simp⟩
      intro q hq
      rcases h.cores q hq with hstart | hman | hsent
      · by_cases hqp : q = p
        · right
          left
          simp [hqp]
        · left
          simp [hstart, hqp]
      · exact Or.inr (Or.inl (List.mem_append.2 (Or.inl hman)))
      · exact Or.inr (Or.inr hsent)
    · cases hstep
  | timeout p => exact hsound.elim
  | stop m fault =>
    rcases Option.map_eq_some_iff.1 hstep with ⟨child, hchild, rfl⟩
    exact (owned_stop h hchild hsound).1
  | restart m fault error =>
    rcases Option.map_eq_some_iff.1 hstep with ⟨child, hchild, rfl⟩
    rcases owned_stop h hchild hsound with ⟨howned, hmanagers, hsent⟩
    have hm : m < s.managers.length := (List.getElem?_eq_some_iff.1 hchild).1
    simp only
    split
    · -- the old process has been killed, and a new one takes its place
      generalize (stop s m child fault).1 = r at *
      refine ⟨?_, howned.failedStop⟩
      intro q hq
      simp only [respawn, List.length_append, List.length_singleton] at hq
      by_cases hnew : q = r.cores.length
      · right
        left
        rw [hnew, List.mem_iff_getElem?]
        refine ⟨m, ?_⟩
        show (r.managers.set m _)[m]? = _
        rw [List.getElem?_set_self (by rw [hmanagers]; exact hm)]
      · have hq' : q < r.cores.length := by omega
        rcases howned.cores q hq' with hstart | hman | hold
        · exact Or.inl hstart
        · rcases mem_set_or (m := m) (some r.cores.length) hman with hstay | hgone
          · exact Or.inr (Or.inl hstay)
          · have hchildq : q ∈ s.child m := by
              rw [St.child, ← hmanagers]
              exact hgone
            exact Or.inr (Or.inr (sent_append _ rfl hq' (hsent q hchildq hq')))
        · exact Or.inr (Or.inr (sent_append _ rfl hq' hold))
    · exact howned
  | drop m =>
    simp only [step] at hstep
    split at hstep
    · injection hstep with hstep
      subst hstep
      refine ⟨?_, by simp⟩
      intro q hq
      rcases h.cores q hq with hstart | hman | hsent
      · exact Or.inl hstart
      · rcases mem_eraseIdx_or hman with hstay | hgone
        · exact Or.inr (Or.inl hstay)
        · exact Or.inr (Or.inr (hsound q hgone))
      · exact Or.inr (Or.inr hsent)
    · cases hstep

end Managers

/-! ## The daemon -/

/-- The start-up task. -/
inductive StartTask where
  | cleaning
  | spawned
  | waiting
  | ended
deriving DecidableEq, Repr

/-- What `easytier-core.pid` names. -/
inductive PidFile where
  | unreadable
  | core
  | other
deriving DecidableEq, Repr

inductive MainTask where
  | running
  | stopping
  | stopped
  | returned
deriving DecidableEq, Repr

/-- The daemon's process, whether it runs and whether it has been waited for; the
handle in `easytier_process` is there or not. -/
structure Daemon where
  startTask : StartTask
  main : MainTask
  handle : Bool
  running : Bool
  reaped : Bool
  pidFile : PidFile
deriving DecidableEq, Repr

/-- A daemon whose start-up task has just been spawned. -/
def Daemon.init (pidFile : PidFile) : Daemon where
  startTask := .cleaning
  main := .running
  handle := false
  running := false
  reaped := false
  pidFile := pidFile

/-- What `cleanup_easytier_daemon` meets. -/
structure CleanupIo where
  /-- Linux or macOS. -/
  unix : Bool
  /-- `ps` names the process of the file, or the listener, `easytier-core`. -/
  named : Bool
  /-- The signals are delivered. -/
  signalled : Bool
  /-- The process is seen dead in the end. -/
  confirmed : Bool
  /-- `lsof` finds the daemon's process on the RPC port. -/
  listens : Bool
deriving DecidableEq, Repr

inductive DaemonEvent where
  | spawn (ok : Bool)
  /-- The pid is written, or the write fails and leaves what was there, or tears it. -/
  | writePid (file : Option PidFile)
  | ready
  | timeout
  | exit
  | shutdown
  | stopEasytier (fault : Option KillFault) (io : CleanupIo)
  | returns
deriving DecidableEq, Repr

/-- What reaches the process in `cleanup_easytier_daemon`. -/
def CleanupIo.Kills (io : CleanupIo) (file : PidFile) : Prop :=
  io.unix = true ∧ io.named = true ∧ io.signalled = true ∧
    (file = .core ∨ (file = .unreadable ∧ io.listens = true))

instance (io : CleanupIo) (file : PidFile) : Decidable (io.Kills file) :=
  inferInstanceAs (Decidable (_ ∧ _))

/-- `cleanup_easytier_daemon` -/
def cleanup (d : Daemon) (io : CleanupIo) : Daemon :=
  { d with
    running := d.running && !decide (io.Kills d.pidFile)
    pidFile :=
      if d.pidFile = .unreadable then .unreadable
      else if io.unix ∧ io.named ∧ ¬ io.confirmed then d.pidFile
      else .unreadable }

/-- `Daemon::stop_easytier`; the process manager it has taken is dropped at the end,
which does not kill. -/
def stopEasytier (d : Daemon) (fault : Option KillFault) (io : CleanupIo) : Daemon :=
  if d.handle then
    let r := stopChild d.reaped fault
    { d with
      handle := false
      running := d.running && !r.sent
      reaped := r.reaped
      pidFile := if r.kept then .unreadable else d.pidFile }
  else cleanup d io

/-- The tasks end with the runtime, once `run` has returned. -/
def daemonStep (d : Daemon) (event : DaemonEvent) : Option Daemon :=
  if d.main = .returned then none
  else
    match event with
    | .spawn ok =>
      if d.startTask = .cleaning then
        some (if ok then { d with startTask := .spawned, running := true }
          else { d with startTask := .ended })
      else none
    | .writePid file =>
      if d.startTask = .spawned then
        some { d with startTask := .waiting, pidFile := file.getD .core }
      else none
    | .ready =>
      if d.startTask = .waiting then some { d with startTask := .ended, handle := true } else none
    | .timeout =>
      -- the error is logged, and the process goes on
      if d.startTask = .waiting then some { d with startTask := .ended } else none
    | .exit => some { d with running := false }
    | .shutdown => if d.main = .running then some { d with main := .stopping } else none
    | .stopEasytier fault io =>
      if d.main = .stopping then some { stopEasytier d fault io with main := .stopped } else none
    | .returns => if d.main = .stopped then some { d with main := .returned } else none

/-- No process is left when `Daemon::run` has returned. -/
def NoneLeft (d : Daemon) : Prop := d.main = .returned → d.running = false

instance (d : Daemon) : Decidable (NoneLeft d) := inferInstanceAs (Decidable (_ → _))

/-- The start-up task spawns before the shutdown has looked for a process, which
then kills the one that runs. -/
def DaemonSound (d : Daemon) : DaemonEvent → Prop
  | .spawn ok => ok = true → d.main ≠ .stopped
  | .stopEasytier fault io => d.running = true →
    if d.handle then fault.any (·.isSignal) = false else io.Kills d.pidFile
  | _ => True

instance (d : Daemon) (event : DaemonEvent) : Decidable (DaemonSound d event) := by
  unfold DaemonSound
  split
  all_goals infer_instance

/-- The handle is that of a child nobody has waited for, and after the shutdown
nothing runs. -/
structure DaemonInv (d : Daemon) : Prop where
  handle : d.main = .running ∨ d.main = .stopping → d.reaped = false
  stopped : d.main = .stopped ∨ d.main = .returned → d.running = false

theorem daemonInv_init (pidFile : PidFile) : DaemonInv (Daemon.init pidFile) where
  handle := fun _ => rfl
  stopped := fun _ => rfl

theorem not_running_stopEasytier {d : Daemon} {fault : Option KillFault} {io : CleanupIo}
    (hreaped : d.reaped = false) (hsound : DaemonSound d (.stopEasytier fault io)) :
    (stopEasytier d fault io).running = false := by
  cases hrunning : d.running with
  | false =>
    unfold stopEasytier
    split
    · simp only [hrunning, Bool.false_and]
    · simp only [cleanup, hrunning, Bool.false_and]
  | true =>
    have hkills := hsound hrunning
    unfold stopEasytier
    split
    · rename_i hhandle
      rw [if_pos hhandle] at hkills
      have hsent : (stopChild d.reaped fault).sent = true := by
        rw [hreaped]
        cases fault with
        | none => rfl
        | some f =>
          cases f with
          | signal error => cases hkills
          | wait error => rfl
      simp only [hsent, Bool.not_true, Bool.and_false]
    · rename_i hhandle
      rw [if_neg hhandle] at hkills
      simp only [cleanup, hkills, decide_true, Bool.not_true, Bool.and_false]

theorem daemonInv_step {d d' : Daemon} {event : DaemonEvent} (h : DaemonInv d)
    (hsound : DaemonSound d event) (hstep : daemonStep d event = some d') : DaemonInv d' := by
  unfold daemonStep at hstep
  split at hstep
  · cases hstep
  · rename_i hreturned
    cases event with
    | spawn ok =>
      simp only at hstep
      split at hstep
      · injection hstep with hstep
        subst hstep
        cases ok with
        | false => exact ⟨h.handle, h.stopped⟩
        | true =>
          refine ⟨h.handle, ?_⟩
          -- nothing is spawned once the main loop has stopped the core
          rintro (hmain | hmain)
          · exact absurd hmain (hsound rfl)
          · exact absurd hmain hreturned
      · cases hstep
    | writePid | ready | timeout =>
      simp only at hstep
      split at hstep
      · injection hstep with hstep
        subst hstep
        exact ⟨h.handle, h.stopped⟩
      · cases hstep
    | exit =>
      injection hstep with hstep
      subst hstep
      exact ⟨h.handle, fun _ => rfl⟩
    | shutdown =>
      simp only at hstep
      split at hstep
      · rename_i hmain
        injection hstep with hstep
        subst hstep
        refine ⟨fun _ => h.handle (Or.inl hmain), ?_⟩
        intro hstopped
        simp at hstopped
      · cases hstep
    | stopEasytier fault io =>
      simp only at hstep
      split at hstep
      · rename_i hmain
        injection hstep with hstep
        subst hstep
        -- the handle is still there, so the core is killed
        refine ⟨?_, fun _ => not_running_stopEasytier (h.handle (Or.inr hmain)) hsound⟩
        intro hrunning
        simp at hrunning
      · cases hstep
    | returns =>
      simp only at hstep
      split at hstep
      · rename_i hmain
        injection hstep with hstep
        subst hstep
        refine ⟨?_, fun _ => h.stopped (Or.inl hmain)⟩
        intro hrunning
        simp at hrunning
      · cases hstep

/-- Along sound runs no process is left without an owner, neither by the managers
nor by the daemon. -/
theorem no_orphan {events : List Event} {pidFile : PidFile} {daemonEvents : List DaemonEvent}
    (h : Along step Sound init events)
    (hdaemon : Along daemonStep DaemonSound (Daemon.init pidFile) daemonEvents) :
    Always step Owned init events ∧
      Always daemonStep NoneLeft (Daemon.init pidFile) daemonEvents := by
  constructor
  · apply always_of_along (P := Sound) (I := Owned)
    · exact fun s hs => hs
    · intro s event t hs hsound hstep
      exact owned_step hs hsound hstep
    · exact ⟨by simp [init], by simp [init]⟩
    · exact h
  · apply always_of_along (P := DaemonSound) (I := DaemonInv)
    · intro d hd hmain
      exact hd.stopped (Or.inr hmain)
    · intro d event d' hd hsound hstep
      exact daemonInv_step hd hsound hstep
    · exact daemonInv_init pidFile
    · exact hdaemon

/-- Started, stopped and dropped; and a daemon that is shut down while its process
is not ready yet. -/
theorem no_orphan_example :
    Always step Owned init [.spawn none, .ready 0, .restart 0 none none, .stop 0 none, .drop 0] ∧
      Always daemonStep NoneLeft (Daemon.init .other)
        [.spawn true, .writePid none, .shutdown,
          .stopEasytier none ⟨true, true, true, true, false⟩, .ready, .returns] :=
  no_orphan (by decide) (by decide)

/-- A start that times out leaves its process; and so does a daemon that spawns it
after its shutdown has found none. -/
theorem orphaned :
    ¬ Always step Owned init [.spawn none, .timeout 0] ∧
      ¬ Always daemonStep NoneLeft (Daemon.init .unreadable)
        [.shutdown, .stopEasytier none ⟨true, true, true, true, false⟩, .spawn true, .returns] := by
  constructor
  · apply not_always_of_run (Q := fun s =>
      ∀ p ∈ List.range s.cores.length, p ∈ s.starting ∨ some p ∈ s.managers ∨ s.Sent p)
    · intro s hs p hp
      exact hs.cores p (List.mem_range.1 hp)
    · decide
  · apply not_always_of_run (Q := NoneLeft)
    · exact fun d hd => hd
    · decide

end CoreProcess

end HomeTier
