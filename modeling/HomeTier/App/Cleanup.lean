import HomeTier.Lib.Decimal
import HomeTier.Lib.Utf8
import HomeTier.Log.Record

/-! # Cleaning up processes

`cleanup_orphan_daemon` and `cleanup_easytier_daemon` of `src/cleanup.rs`, over a table of
processes: what `ps` and `lsof` print is worked out from it, and a process that gets a
signal is gone. Who a process is, its program and its arguments tell; the code goes by
texts that `ps` prints.

* The processes that get a signal are the recorded daemon, the first other listener of the
  IPC port and the recorded core or the first listener of the RPC port, each if it looks
  like one (`swept_cleanup`).
* They are the ones that should go exactly if no other process is taken for one of them
  and none is hidden behind another one or behind a stale file (`finishes_iff`).
-/

namespace HomeTier.Cleanup

open Lib

/-! ## Processes -/

inductive Platform where
  | linux
  | macos
  | other
deriving DecidableEq

structure Proc where
  pid : UInt32
  /-- The path of its program. -/
  program : Str
  args : List Str
  /-- The TCP ports it listens on. -/
  listens : List UInt16
deriving DecidableEq

namespace Proc

variable (p : Proc)

def name : Str := ((cutAtLast '/' p.program).map (·.2)).getD p.program

/-- `ps -o comm=`; Linux keeps 15 bytes of the name. -/
def comm : Platform → Str
  | .linux => fromUtf8Lossy ((utf8 p.name).take 15)
  | .macos => p.program
  | .other => []

/-- `ps -o command=` -/
def command : Str := [' '].intercalate (p.program :: p.args)

def IsCore : Prop := p.name = "easytier-core".toList

/-- Without the argument it is the GUI. -/
def IsDaemon : Prop := p.name = "homeTier".toList ∧ "--daemon".toList ∈ p.args

instance : Decidable p.IsCore := inferInstanceAs (Decidable (_ = _))

instance : Decidable p.IsDaemon := inferInstanceAs (Decidable (_ ∧ _))

end Proc

/-- The processes in the order of the listings, the contents of the pid files, `none` for
one that cannot be read, and the ports. `signalled` are the processes that got a signal. -/
structure System where
  os : Platform
  procs : List Proc
  unique : (procs.map (·.pid)).Nodup
  daemonPid : Option Str
  corePid : Option Str
  ipcPort : UInt16
  rpcPort : UInt16
  signalled : List UInt32

/-- The process that a pid file records. -/
def pidOf (content : Str) : Option UInt32 := parseU32 (trim content)

namespace System

variable (s : System)

/-- `ps -p` -/
def find (pid : UInt32) : Option Proc := s.procs.find? (·.pid = pid)

/-- `is_easytier_process`; of no process `ps` prints nothing. -/
def isEasytierProcess (pid : UInt32) : Bool :=
  match s.os with
  | .linux | .macos =>
    containsText (trim (((s.find pid).map (·.comm s.os)).getD [])) "easytier-core".toList
  | .other => false

/-- `process_command` -/
def processCommand (pid : UInt32) : Option Str :=
  (s.find pid).bind fun p =>
    let cmd := trim p.command
    if cmd = [] then none else some cmd

/-- `is_hometier_daemon_process`. Outside ASCII only the dotted capital I has a letter of the
name in its lower case, and there a combining dot comes behind it. -/
def isHometierDaemonProcess (pid : UInt32) : Bool :=
  match s.os with
  | .linux | .macos =>
    match s.processCommand pid with
    | some cmd =>
      containsText (cmd.map Char.toLower) "hometier".toList && containsText cmd "--daemon".toList
    | none => false
  | .other => false

/-- `find_listener_pid` -/
def findListenerPid (port : UInt16) : Option UInt32 :=
  (s.procs.find? (port ∈ ·.listens)).map (·.pid)

/-- `terminate_process` -/
def terminateProcess (pid : UInt32) : System :=
  { s with
    procs := s.procs.filter (·.pid ≠ pid)
    unique := s.unique.sublist (List.filter_sublist.map _)
    signalled := s.signalled ++ [pid] }

/-- `cleanup_orphan_daemon`, by the pid file. -/
def cleanupRecordedDaemon : System :=
  match s.daemonPid.bind pidOf with
  | some pid =>
    if s.isHometierDaemonProcess pid then s.terminateProcess pid else { s with daemonPid := none }
  | none => s

/-- `cleanup_orphan_daemon`, by the port. -/
def cleanupListeningDaemon : System :=
  match s.findListenerPid s.ipcPort with
  | some pid => if s.isHometierDaemonProcess pid then s.terminateProcess pid else s
  | none => s

def cleanupOrphanDaemon : System := s.cleanupRecordedDaemon.cleanupListeningDaemon

/-- `cleanup_easytier_daemon` -/
def cleanupEasytierDaemon : System :=
  match s.corePid.bind pidOf with
  | some pid =>
    -- whatever becomes of it, nobody looks at the port
    if s.isEasytierProcess pid then { s.terminateProcess pid with corePid := none }
    else { s with corePid := none }
  | none =>
    match s.findListenerPid s.rpcPort with
    | some pid => if s.isEasytierProcess pid then s.terminateProcess pid else s
    | none => s

def cleanup : System := { s with signalled := [] }.cleanupOrphanDaemon.cleanupEasytierDaemon

/-! ## What is expected -/

def Recorded (file : Option Str) (p : Proc) : Prop := file.bind pidOf = some p.pid

instance (file : Option Str) (p : Proc) : Decidable (Recorded file p) :=
  inferInstanceAs (Decidable (_ = _))

/-- A process that should go. -/
def Target (p : Proc) : Prop :=
  (p.IsCore ∧ (Recorded s.corePid p ∨ s.rpcPort ∈ p.listens)) ∨
    (p.IsDaemon ∧ (Recorded s.daemonPid p ∨ s.ipcPort ∈ p.listens))

instance (p : Proc) : Decidable (s.Target p) := inferInstanceAs (Decidable (_ ∨ _))

/-- None of these remains, and only these got a signal. -/
def Finishes : Prop :=
  (∀ p ∈ s.cleanup.procs, ¬ s.Target p) ∧
    ∀ pid ∈ s.cleanup.signalled, ∃ p ∈ s.procs, p.pid = pid ∧ s.Target p

/-! ## Who looks like one -/

def looksLikeCore (p : Proc) : Bool :=
  s.os ≠ .other && containsText (trim (p.comm s.os)) "easytier-core".toList

def looksLikeDaemon (p : Proc) : Bool :=
  s.os ≠ .other && containsText ((trim p.command).map Char.toLower) "hometier".toList &&
    containsText (trim p.command) "--daemon".toList

/-- The recorded process, if it looks like a daemon. -/
def TakenByFile (p : Proc) : Prop := Recorded s.daemonPid p ∧ s.looksLikeDaemon p = true

instance : DecidablePred s.TakenByFile := fun _ => inferInstanceAs (Decidable (_ ∧ _))

/-- The first other listener of the IPC port, if it looks like a daemon. -/
def TakenByPort (p : Proc) : Prop :=
  s.procs.find? (fun q => ¬ s.TakenByFile q ∧ s.ipcPort ∈ q.listens) = some p ∧
    s.looksLikeDaemon p = true

instance : DecidablePred s.TakenByPort := fun _ => inferInstanceAs (Decidable (_ ∧ _))

/-- The recorded process, or if none is recorded the first listener of the RPC port that is
left, if it looks like a core. -/
def TakenForCore (p : Proc) : Prop :=
  (match s.corePid.bind pidOf with
    | some pid => p.pid = pid
    | none => s.procs.find? (fun q =>
        (¬ s.TakenByFile q ∧ ¬ s.TakenByPort q) ∧ s.rpcPort ∈ q.listens) = some p) ∧
    s.looksLikeCore p = true

instance : DecidablePred s.TakenForCore := fun p => by
  unfold TakenForCore
  refine @instDecidableAnd _ _ ?_ inferInstance
  split <;> infer_instance

/-- Nobody else is taken for a daemon or a core, and no listener is hidden. -/
structure Clear : Prop where
  recorded : ∀ p ∈ s.procs, s.TakenByFile p → s.Target p
  listening : ∀ p ∈ s.procs, s.TakenByPort p → s.Target p
  core : ∀ p ∈ s.procs, s.TakenForCore p → s.Target p
  daemons : ∀ p ∈ s.procs, p.IsDaemon → s.ipcPort ∈ p.listens →
    s.TakenByFile p ∨ s.TakenByPort p ∨ s.TakenForCore p
  cores : ∀ p ∈ s.procs, p.IsCore → s.rpcPort ∈ p.listens →
    s.TakenByFile p ∨ s.TakenByPort p ∨ s.TakenForCore p
  supported : s.os = .other → ∀ p ∈ s.procs, ¬ s.Target p

end System

/-! ## The texts of `ps` -/

theorem Proc.name_infix (p : Proc) : p.name <:+: p.program := by
  unfold Proc.name
  cases hcut : cutAtLast '/' p.program with
  | none => exact List.infix_rfl
  | some parts =>
    obtain ⟨front, back⟩ := parts
    rw [cutAtLast_join hcut]
    exact ((List.suffix_cons '/' back).trans (List.suffix_append front _)).isInfix

namespace System

variable {s : System}

/-- A core looks like one. -/
theorem looksLikeCore_of_isCore (hos : s.os ≠ .other) {p : Proc} (h : p.IsCore) :
    s.looksLikeCore p = true := by
  have hword : ∀ c ∈ "easytier-core".toList, isWhitespace c = false :=
    forall_mem_of_all (by decide)
  have hcomm : "easytier-core".toList <:+: p.comm s.os := by
    unfold Proc.comm
    split
    · -- the name is short enough for Linux
      have hshort : (utf8 "easytier-core".toList).take 15 = utf8 "easytier-core".toList :=
        List.take_of_length_le (by decide)
      rw [h, hshort, fromUtf8Lossy_utf8]
    · have hname := p.name_infix
      rwa [h] at hname
    · rename_i hother
      exact absurd hother hos
  unfold looksLikeCore
  simp only [hos, ne_eq, not_false_eq_true, decide_true, Bool.true_and]
  exact containsText_iff.2 (infix_trim (by decide) hword hcomm)

/-- A daemon looks like one. -/
theorem looksLikeDaemon_of_isDaemon (hos : s.os ≠ .other) {p : Proc} (h : p.IsDaemon) :
    s.looksLikeDaemon p = true := by
  have hname : "homeTier".toList <:+: p.command := by
    have hprogram := p.name_infix
    rw [h.1] at hprogram
    exact hprogram.trans (infix_intercalate List.mem_cons_self)
  have harg : "--daemon".toList <:+: p.command :=
    infix_intercalate (List.mem_cons_of_mem _ h.2)
  have hlower := (infix_trim (by decide) (forall_mem_of_all (by decide)) hname).map Char.toLower
  rw [show "homeTier".toList.map Char.toLower = "hometier".toList by decide] at hlower
  unfold looksLikeDaemon
  simp only [hos, ne_eq, not_false_eq_true, decide_true, Bool.true_and, Bool.and_eq_true]
  have hflag := infix_trim (by decide) (forall_mem_of_all (by decide)) harg
  exact ⟨containsText_iff.2 hlower, containsText_iff.2 hflag⟩

theorem isEasytierProcess_eq (s : System) (pid : UInt32) :
    s.isEasytierProcess pid = (s.find pid).any s.looksLikeCore := by
  have hblank : containsText (trim []) "easytier-core".toList = false := by decide
  unfold isEasytierProcess looksLikeCore
  cases s.find pid with
  | none =>
    cases s.os with
    | linux | macos => exact hblank
    | other => rfl
  | some p => cases hos : s.os <;> simp

theorem isHometierDaemonProcess_eq (s : System) (pid : UInt32) :
    s.isHometierDaemonProcess pid = (s.find pid).any s.looksLikeDaemon := by
  unfold isHometierDaemonProcess looksLikeDaemon processCommand
  cases s.find pid with
  | none => cases s.os <;> simp
  | some p =>
    by_cases hcmd : trim p.command = []
    · -- an empty line has neither word
      cases hos : s.os <;> simp [hcmd]
      all_goals decide
    · cases hos : s.os <;> simp [hcmd]

/-! ## The processes that go -/

theorem find_eq_some {pid : UInt32} {p : Proc} :
    s.find pid = some p ↔ p ∈ s.procs ∧ p.pid = pid := by
  constructor
  · intro h
    exact ⟨List.mem_of_find?_eq_some h, by simpa using List.find?_some h⟩
  · rintro ⟨hmem, rfl⟩
    unfold find
    cases hfind : s.procs.find? (·.pid = p.pid) with
    | none => simpa using List.find?_eq_none.1 hfind p hmem
    | some q =>
      have hq : q.pid = p.pid := by simpa using List.find?_some hfind
      rw [List.inj_on_of_nodup_map s.unique (List.mem_of_find?_eq_some hfind) hmem hq]

/-- From one state to the next the processes in `gone` get a signal, and no others. -/
structure Swept (s s' : System) (gone : Proc → Prop) [DecidablePred gone] : Prop where
  os : s'.os = s.os
  ipcPort : s'.ipcPort = s.ipcPort
  rpcPort : s'.rpcPort = s.rpcPort
  procs : s'.procs = s.procs.filter fun p => ¬ gone p
  signalled : ∀ pid, pid ∈ s'.signalled ↔ pid ∈ s.signalled ∨ ∃ p ∈ s.procs, p.pid = pid ∧ gone p

section Sweeps

variable {s' s'' : System} {gone gone' : Proc → Prop} [DecidablePred gone] [DecidablePred gone']

theorem Swept.trans (h : Swept s s' gone) (h' : Swept s' s'' gone') :
    Swept s s'' fun p => gone p ∨ gone' p := by
  refine ⟨h'.os.trans h.os, h'.ipcPort.trans h.ipcPort, h'.rpcPort.trans h.rpcPort, ?_, ?_⟩
  · rw [h'.procs, h.procs, List.filter_filter]
    refine List.filter_congr ?_
    intro p _
    by_cases hg : gone p <;> simp [hg]
  · intro pid
    rw [h'.signalled, h.signalled, h.procs]
    constructor
    · rintro ((hold | ⟨p, hp, hpid, hgone⟩) | ⟨p, hp, hpid, hgone⟩)
      · exact .inl hold
      · exact .inr ⟨p, hp, hpid, .inl hgone⟩
      · exact .inr ⟨p, (List.mem_filter.1 hp).1, hpid, .inr hgone⟩
    · rintro (hold | ⟨p, hp, hpid, hgone⟩)
      · exact .inl (.inl hold)
      · by_cases hg : gone p
        · exact .inl (.inr ⟨p, hp, hpid, hg⟩)
        · exact .inr ⟨p, List.mem_filter.2 ⟨hp, by simpa using hg⟩, hpid, hgone.resolve_left hg⟩

/-- Nothing is done. -/
theorem Swept.refl (h : ∀ p ∈ s.procs, ¬ gone p) : Swept s s gone := by
  refine ⟨rfl, rfl, rfl, ?_, ?_⟩
  · rw [List.filter_eq_self.2]
    intro p hp
    simpa using h p hp
  · intro pid
    refine (or_iff_left ?_).symm
    rintro ⟨p, hp, -, hgone⟩
    exact h p hp hgone

/-- One process gets a signal. -/
theorem Swept.terminate {p : Proc} (hp : p ∈ s.procs) (h : ∀ q ∈ s.procs, gone q ↔ q = p) :
    Swept s (s.terminateProcess p.pid) gone := by
  have hpid : ∀ q ∈ s.procs, q.pid = p.pid ↔ gone q := by
    intro q hq
    rw [h q hq]
    exact ⟨fun heq => List.inj_on_of_nodup_map s.unique hq hp heq, fun heq => heq ▸ rfl⟩
  refine ⟨rfl, rfl, rfl, ?_, ?_⟩
  · refine List.filter_congr ?_
    intro q hq
    simp [hpid q hq]
  · intro pid
    show pid ∈ s.signalled ++ [p.pid] ↔ _
    rw [List.mem_append, List.mem_singleton]
    refine or_congr_right ⟨?_, ?_⟩
    · rintro rfl
      exact ⟨p, hp, rfl, (h p hp).2 rfl⟩
    · rintro ⟨q, hq, rfl, hgone⟩
      rw [(h q hq).1 hgone]

end Sweeps

/-- A process that is found in some way gets a signal if it looks the part. -/
def terminateFound (s : System) (found : Option Proc) (looks : Proc → Bool) : System :=
  match found with
  | some p => if looks p then s.terminateProcess p.pid else s
  | none => s

theorem swept_terminateFound (s : System) (found : Option Proc) (looks : Proc → Bool)
    (gone : Proc → Prop) [DecidablePred gone] (hfound : ∀ p ∈ found, p ∈ s.procs)
    (h : ∀ q ∈ s.procs, gone q ↔ found = some q ∧ looks q = true) :
    Swept s (s.terminateFound found looks) gone := by
  cases found with
  | none =>
    refine Swept.refl ?_
    intro p hp hgone
    cases ((h p hp).1 hgone).1
  | some p =>
    unfold terminateFound
    dsimp only
    split
    · rename_i hlooks
      refine Swept.terminate (hfound p rfl) ?_
      intro q hq
      rw [h q hq, Option.some.injEq]
      constructor
      · rintro ⟨rfl, -⟩
        rfl
      · rintro rfl
        exact ⟨rfl, hlooks⟩
    · rename_i hlooks
      refine Swept.refl ?_
      intro q hq hgone
      obtain ⟨heq, hlooksq⟩ := (h q hq).1 hgone
      exact hlooks (Option.some.inj heq ▸ hlooksq)

theorem recorded_iff {file : Option Str} {q : Proc} (hq : q ∈ s.procs) :
    Recorded file q ↔ (file.bind pidOf).bind s.find = some q := by
  constructor
  · intro h
    exact Option.bind_eq_some_iff.2 ⟨q.pid, h, find_eq_some.2 ⟨hq, rfl⟩⟩
  · intro h
    obtain ⟨pid, hpid, hfind⟩ := Option.bind_eq_some_iff.1 h
    rw [Recorded, hpid, (find_eq_some.1 hfind).2]

/-- A listener that is found. -/
theorem find_of_listener {port : UInt16} {p : Proc}
    (h : s.procs.find? (port ∈ ·.listens) = some p) : s.find p.pid = some p :=
  find_eq_some.2 ⟨List.mem_of_find?_eq_some h, rfl⟩

theorem swept_recorded (s : System) : Swept s s.cleanupRecordedDaemon s.TakenByFile := by
  have h := swept_terminateFound s ((s.daemonPid.bind pidOf).bind s.find) s.looksLikeDaemon
    s.TakenByFile ?_ ?_
  · unfold cleanupRecordedDaemon
    cases hpid : s.daemonPid.bind pidOf with
    | none =>
      rw [hpid] at h
      exact h
    | some pid =>
      rw [hpid, Option.bind_some] at h
      dsimp only
      rw [isHometierDaemonProcess_eq]
      cases hfind : s.find pid with
      | none =>
        rw [hfind] at h
        -- only the file goes
        exact ⟨h.os, h.ipcPort, h.rpcPort, h.procs, h.signalled⟩
      | some p =>
        obtain rfl := (find_eq_some.1 hfind).2
        rw [hfind] at h
        dsimp only [Option.any_some, terminateFound] at h ⊢
        split at h
        · rename_i hlooks
          rw [if_pos hlooks]
          exact h
        · rename_i hlooks
          rw [if_neg hlooks]
          exact ⟨h.os, h.ipcPort, h.rpcPort, h.procs, h.signalled⟩
  · intro p hp
    obtain ⟨pid, -, hfind⟩ := Option.bind_eq_some_iff.1 hp
    exact (find_eq_some.1 hfind).1
  · intro q hq
    unfold TakenByFile
    rw [recorded_iff hq]

theorem swept_listening {s' : System} (h : Swept s s' s.TakenByFile) :
    Swept s' s'.cleanupListeningDaemon s.TakenByPort := by
  have hlooks : s'.looksLikeDaemon = s.looksLikeDaemon := by
    funext p
    rw [looksLikeDaemon, looksLikeDaemon, h.os]
  have hsame : s'.procs.find? (s'.ipcPort ∈ ·.listens) =
      s.procs.find? fun q => ¬ s.TakenByFile q ∧ s.ipcPort ∈ q.listens := by
    rw [h.procs, h.ipcPort, List.find?_filter]
    congr 1
    funext q
    simp
  have hfound := swept_terminateFound s' (s'.procs.find? (s'.ipcPort ∈ ·.listens))
    s'.looksLikeDaemon s.TakenByPort
    (fun p hp => List.mem_of_find?_eq_some hp) (fun q _ => by rw [TakenByPort, hsame, hlooks])
  unfold cleanupListeningDaemon findListenerPid
  cases hlistener : s'.procs.find? (s'.ipcPort ∈ ·.listens) with
  | none =>
    rw [hlistener] at hfound
    exact hfound
  | some p =>
    rw [hlistener] at hfound
    dsimp only [Option.map_some]
    rw [isHometierDaemonProcess_eq, find_of_listener hlistener, Option.any_some]
    exact hfound

theorem corePid_cleanupOrphanDaemon (s : System) :
    s.cleanupOrphanDaemon.corePid = s.corePid := by
  have hrecorded : s.cleanupRecordedDaemon.corePid = s.corePid := by
    unfold cleanupRecordedDaemon
    split
    · split <;> rfl
    · rfl
  have hlistening : ∀ t : System, t.cleanupListeningDaemon.corePid = t.corePid := by
    intro t
    unfold cleanupListeningDaemon
    split
    · split <;> rfl
    · rfl
  rw [cleanupOrphanDaemon, hlistening, hrecorded]

theorem swept_core {s' : System} (h : Swept s s' fun p => s.TakenByFile p ∨ s.TakenByPort p)
    (hcore : s'.corePid = s.corePid) :
    Swept s' s'.cleanupEasytierDaemon s.TakenForCore := by
  have hlooks : s'.looksLikeCore = s.looksLikeCore := by
    funext p
    rw [looksLikeCore, looksLikeCore, h.os]
  unfold cleanupEasytierDaemon
  rw [hcore]
  cases hpid : s.corePid.bind pidOf with
  | some pid =>
    -- the pid file names a process: the port is not looked at
    have hfound := swept_terminateFound s' (s'.find pid) s'.looksLikeCore s.TakenForCore
      (fun p hp => (find_eq_some.1 hp).1) ?_
    · dsimp only
      rw [isEasytierProcess_eq]
      cases hfind : s'.find pid with
      | none =>
        rw [hfind] at hfound
        exact ⟨hfound.os, hfound.ipcPort, hfound.rpcPort, hfound.procs, hfound.signalled⟩
      | some p =>
        obtain rfl := (find_eq_some.1 hfind).2
        rw [hfind] at hfound
        dsimp only [Option.any_some, terminateFound] at hfound ⊢
        split at hfound
        · rename_i hcoreLike
          rw [if_pos hcoreLike]
          exact ⟨hfound.os, hfound.ipcPort, hfound.rpcPort, hfound.procs, hfound.signalled⟩
        · rename_i hcoreLike
          rw [if_neg hcoreLike]
          exact ⟨hfound.os, hfound.ipcPort, hfound.rpcPort, hfound.procs, hfound.signalled⟩
    · intro q hq
      rw [TakenForCore, hpid, hlooks, find_eq_some]
      simp only [hq, true_and]
  | none =>
    -- no pid file: the first listener that the two sweeps in front have left
    have hsame : s'.procs.find? (s'.rpcPort ∈ ·.listens) = s.procs.find? fun q =>
        (¬ s.TakenByFile q ∧ ¬ s.TakenByPort q) ∧ s.rpcPort ∈ q.listens := by
      rw [h.procs, h.rpcPort, List.find?_filter]
      congr 1
      funext q
      simp
    have hfound := swept_terminateFound s' (s'.procs.find? (s'.rpcPort ∈ ·.listens))
      s'.looksLikeCore s.TakenForCore
      (fun p hp => List.mem_of_find?_eq_some hp)
      (fun q _ => by rw [TakenForCore, hpid, hsame, hlooks])
    dsimp only
    unfold findListenerPid
    cases hlistener : s'.procs.find? (s'.rpcPort ∈ ·.listens) with
    | none =>
      rw [hlistener] at hfound
      exact hfound
    | some p =>
      rw [hlistener] at hfound
      dsimp only [Option.map_some]
      rw [isEasytierProcess_eq, find_of_listener hlistener, Option.any_some]
      exact hfound

/-- Who gets a signal and is gone. -/
def Taken (s : System) (p : Proc) : Prop :=
  (s.TakenByFile p ∨ s.TakenByPort p) ∨ s.TakenForCore p

instance (s : System) : DecidablePred s.Taken := fun _ => inferInstanceAs (Decidable (_ ∨ _))

theorem swept_cleanup (s : System) : Swept { s with signalled := [] } s.cleanup s.Taken := by
  have hrecorded := swept_recorded { s with signalled := [] }
  have horphan := hrecorded.trans (swept_listening hrecorded)
  exact horphan.trans (swept_core (s := { s with signalled := [] }) horphan
    (corePid_cleanupOrphanDaemon _))

theorem finishes_iff_taken (s : System) :
    s.Finishes ↔ ∀ p ∈ s.procs, (s.Taken p ↔ s.Target p) := by
  have hswept := swept_cleanup s
  have hprocs : ∀ p, p ∈ s.cleanup.procs ↔ p ∈ s.procs ∧ ¬ s.Taken p := by
    intro p
    rw [hswept.procs, List.mem_filter, decide_eq_true_eq]
  have hsignalled : ∀ pid, pid ∈ s.cleanup.signalled ↔ ∃ p ∈ s.procs, p.pid = pid ∧ s.Taken p := by
    intro pid
    rw [hswept.signalled]
    exact or_iff_right (List.not_mem_nil)
  constructor
  · rintro ⟨hgone, honly⟩ p hp
    constructor
    · intro htaken
      obtain ⟨q, hq, hpid, htarget⟩ := honly p.pid ((hsignalled _).2 ⟨p, hp, rfl, htaken⟩)
      rwa [← List.inj_on_of_nodup_map s.unique hq hp hpid]
    · intro htarget
      by_contra hleft
      exact hgone p ((hprocs p).2 ⟨hp, hleft⟩) htarget
  · intro hall
    refine ⟨?_, ?_⟩
    · intro p hp htarget
      obtain ⟨hmem, hleft⟩ := (hprocs p).1 hp
      exact hleft ((hall p hmem).2 htarget)
    · intro pid hpid
      obtain ⟨p, hp, rfl, htaken⟩ := (hsignalled pid).1 hpid
      exact ⟨p, hp, rfl, (hall p hp).1 htaken⟩

/-- Nobody looks like one where `ps` is not asked. -/
theorem not_taken_of_other (hos : s.os = .other) (p : Proc) : ¬ s.Taken p := by
  have hcore : s.looksLikeCore p = false := by simp [looksLikeCore, hos]
  have hdaemon : s.looksLikeDaemon p = false := by simp [looksLikeDaemon, hos]
  unfold Taken TakenByFile TakenByPort TakenForCore
  simp [hcore, hdaemon]

/-- The clean-up takes the processes that should go, and no others, exactly if nobody else is
taken for one and no listener is hidden. -/
theorem finishes_iff (s : System) : s.Finishes ↔ s.Clear := by
  rw [finishes_iff_taken]
  constructor
  · intro hall
    refine ⟨?_, ?_, ?_, ?_, ?_, ?_⟩
    · intro p hp htaken
      exact (hall p hp).1 (.inl (.inl htaken))
    · intro p hp htaken
      exact (hall p hp).1 (.inl (.inr htaken))
    · intro p hp htaken
      exact (hall p hp).1 (.inr htaken)
    · intro p hp hdaemon hlistens
      exact or_assoc.1 ((hall p hp).2 (.inr ⟨hdaemon, .inr hlistens⟩))
    · intro p hp hcore hlistens
      exact or_assoc.1 ((hall p hp).2 (.inl ⟨hcore, .inr hlistens⟩))
    · intro hos p hp htarget
      exact not_taken_of_other hos p ((hall p hp).2 htarget)
  · intro hclear p hp
    constructor
    · rintro ((htaken | htaken) | htaken)
      · exact hclear.recorded p hp htaken
      · exact hclear.listening p hp htaken
      · exact hclear.core p hp htaken
    · intro htarget
      have hos : s.os ≠ .other := fun hos => hclear.supported hos p hp htarget
      rcases htarget with ⟨hcore, hrecorded | hlistens⟩ | ⟨hdaemon, hrecorded | hlistens⟩
      · -- a recorded process that is a core looks like one
        refine .inr ⟨?_, looksLikeCore_of_isCore hos hcore⟩
        rw [show s.corePid.bind pidOf = some p.pid from hrecorded]
      · exact or_assoc.2 (hclear.cores p hp hcore hlistens)
      · exact .inl (.inl ⟨hrecorded, looksLikeDaemon_of_isDaemon hos hdaemon⟩)
      · exact or_assoc.2 (hclear.daemons p hp hdaemon hlistens)

/-- A core that listens on its port, and a file that records another process. -/
def staleFile : System where
  os := .linux
  procs := [⟨5000, "/opt/homeTier/easytier-core".toList, ["--daemon".toList], [15888]⟩]
  unique := by decide
  daemonPid := none
  corePid := some "4242".toList
  ipcPort := 15889
  rpcPort := 15888
  signalled := []

/-- Nobody looks at the port, and the core remains. -/
theorem stale_file_hides : ¬ ∀ s : System, s.Finishes := by
  intro hall
  have hgone := (hall staleFile).1
  revert hgone
  decide

end System

end HomeTier.Cleanup
