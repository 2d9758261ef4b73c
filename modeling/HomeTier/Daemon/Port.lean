import HomeTier.Lib.Decimal
import HomeTier.Lib.Trace

/-! # The port of the daemon

The daemon listens on the first free port from the setting `DAEMON_IPC_PORT` on
(`Daemon::run_inner` of `src-tauri/src/daemon/mod.rs`). If that is another one it
goes into the setting; then it goes into `daemon_state.json`, and at last the
ready signal is written. The GUI takes the port for a client from its copy of the
setting, which follows the file every two seconds, or from the state file
(`daemon/client.rs`), and a client keeps its port.

Ports are `u16`, and the search ends before `rpc_port + 10`, which wraps.
-/

namespace HomeTier

open Lib

namespace IpcPort

/-- `DEFAULT_RPC_PORT` -/
def defaultRpcPort : UInt16 := 15889

/-- A write to a file. -/
inductive Save where
  | ok
  | unchanged
  | torn
deriving DecidableEq, Repr

/-- `daemon_state.json` -/
inductive StateFile where
  | absent
  | torn
  | written (rpcPort : Nat)
deriving DecidableEq, Repr

/-- A daemon that listens: the port it knows, the one of its socket, and the one
in its status. -/
structure Listening where
  port : UInt16
  socket : UInt16
  status : UInt16
  published : Bool
  ready : Bool
deriving DecidableEq, Repr

inductive Daemon where
  | off
  | starting (rpcPort : UInt16)
  | listening (l : Listening)
deriving DecidableEq, Repr

/-- A search for a port, and what it has found. -/
structure Search where
  rpcPort : UInt16
  busy : List UInt16
  found : Option UInt16
deriving DecidableEq, Repr

/-- The setting in the file and in the GUI's memory, the state file, the daemon,
the GUI's clients by their ports, with the shared one apart, and the last search. -/
structure St where
  conf : Option Str
  guiConf : Option Str
  stateFile : StateFile
  daemon : Daemon
  clients : List UInt16
  global : Option UInt16
  searched : Option Search
deriving DecidableEq, Repr

inductive Event where
  /-- `config::init` and `Daemon::new` -/
  | start (removed : Bool)
  /-- The search; port 0 binds to some other port, `ephemeral`. -/
  | bind (busy : List UInt16) (ephemeral : UInt16) (saved : Save)
  | publish (removed : Bool) (written : Save)
  | signal
  | stop (removed : Bool)
  | crash
  | fromDataDir
  | defaultPort
  | getGlobal
  /-- The GUI reads the changed file again. -/
  | reload
  /-- `set_app_config`, which may change the port. -/
  | setConfig (port : Option Str) (saved : Save)
deriving DecidableEq, Repr

/-- A GUI that has read its settings. -/
def init (conf : Option Str) (stateFile : StateFile) : St where
  conf := conf
  guiConf := conf
  stateFile := stateFile
  daemon := .off
  clients := []
  global := none
  searched := none

/-! ## The search -/

/-- Whether `TcpListener::bind` succeeds. -/
def binds (busy : List UInt16) (port : UInt16) : Bool := port = 0 || !busy.contains port

/-- `for port in self.rpc_port..self.rpc_port + 10` -/
def search (rpcPort : UInt16) (busy : List UInt16) : Option UInt16 :=
  ((List.range' rpcPort.toNat ((rpcPort + 10).toNat - rpcPort.toNat)).find? fun n =>
    binds busy (UInt16.ofNat n)).map UInt16.ofNat

/-- The sum does not overflow, and no free port of the ten is skipped. -/
structure Search.Thorough (r : Search) : Prop where
  fits : r.rpcPort.toNat + 10 < 2 ^ 16
  found : ∀ q, r.found = some q → r.rpcPort.toNat ≤ q.toNat ∧ q.toNat < r.rpcPort.toNat + 10 ∧
    q ∉ r.busy ∧ ∀ q' : UInt16, r.rpcPort.toNat ≤ q'.toNat → q'.toNat < q.toNat → q' ∈ r.busy
  exhausted : r.found = none →
    ∀ q : UInt16, r.rpcPort.toNat ≤ q.toNat → q.toNat < r.rpcPort.toNat + 10 → q ∈ r.busy

theorem search_range {p : UInt16} (hfits : p.toNat + 10 < 2 ^ 16) (busy : List UInt16) :
    search p busy = ((List.range' p.toNat 10).find? fun n =>
      binds busy (UInt16.ofNat n)).map UInt16.ofNat := by
  have hsum : (p + 10).toNat = p.toNat + 10 := by
    rw [UInt16.toNat_add]
    exact Nat.mod_eq_of_lt hfits
  rw [search, hsum, Nat.add_sub_cancel_left]

theorem binds_iff {busy : List UInt16} {q : UInt16} (h : q ≠ 0) :
    binds busy q = true ↔ q ∉ busy := by
  simp [binds, h]

theorem search_eq_some {p q : UInt16} {busy : List UInt16} (h0 : p ≠ 0)
    (hfits : p.toNat + 10 < 2 ^ 16) (h : search p busy = some q) :
    p.toNat ≤ q.toNat ∧ q.toNat < p.toNat + 10 ∧ q ∉ busy ∧
      ∀ q' : UInt16, p.toNat ≤ q'.toNat → q'.toNat < q.toNat → q' ∈ busy := by
  rw [search_range hfits, Option.map_eq_some_iff] at h
  rcases h with ⟨n, hn, rfl⟩
  rw [List.find?_range'_eq_some, List.mem_range'_1] at hn
  rcases hn with ⟨hbinds, ⟨hle, hlt⟩, hmin⟩
  have hpos : 0 < p.toNat := by
    have hne : p.toNat ≠ 0 := by
      intro h
      exact h0 (UInt16.toNat_inj.1 h)
    omega
  have hnat : (UInt16.ofNat n).toNat = n := by
    rw [UInt16.toNat_ofNat']
    exact Nat.mod_eq_of_lt (by omega)
  have hne : ∀ q' : UInt16, p.toNat ≤ q'.toNat → q' ≠ 0 := by
    rintro q' hq' rfl
    have : (0 : UInt16).toNat = 0 := rfl
    omega
  refine ⟨by omega, by omega, ?_, ?_⟩
  · rw [← binds_iff (hne _ (by omega))]
    exact hbinds
  · intro q' hq' hlt'
    by_contra hfree
    rw [← binds_iff (hne q' hq')] at hfree
    have hbusy := hmin q'.toNat hq' (by omega)
    rw [UInt16.ofNat_toNat, hfree] at hbusy
    simp at hbusy

theorem search_eq_none {p : UInt16} {busy : List UInt16} (h0 : p ≠ 0)
    (hfits : p.toNat + 10 < 2 ^ 16) (h : search p busy = none) {q : UInt16}
    (hle : p.toNat ≤ q.toNat) (hlt : q.toNat < p.toNat + 10) : q ∈ busy := by
  rw [search_range hfits, Option.map_eq_none_iff, List.find?_range'_eq_none] at h
  have hbusy := h q.toNat hle hlt
  have hne : q ≠ 0 := by
    rintro rfl
    apply h0
    apply UInt16.toNat_inj.1
    have : (0 : UInt16).toNat = 0 := rfl
    omega
  by_contra hfree
  rw [← binds_iff hne] at hfree
  rw [UInt16.ofNat_toNat, hfree] at hbusy
  simp at hbusy

/-- Below the end of the range the search is what it should be. -/
theorem search_thorough {p : UInt16} (h0 : p ≠ 0) (hfits : p.toNat + 10 < 2 ^ 16)
    (busy : List UInt16) : (Search.mk p busy (search p busy)).Thorough where
  fits := hfits
  found := fun _ h => search_eq_some h0 hfits h
  exhausted := fun h _ hle hlt => search_eq_none h0 hfits h hle hlt

/-- A free port is taken itself. -/
theorem search_free {p : UInt16} {busy : List UInt16} (h0 : p ≠ 0)
    (hfits : p.toNat + 10 < 2 ^ 16) (hfree : p ∉ busy) : search p busy = some p := by
  cases h : search p busy with
  | none => exact absurd (search_eq_none h0 hfits h le_rfl (by omega)) hfree
  | some q =>
    rcases search_eq_some h0 hfits h with ⟨hle, -, -, hmin⟩
    have hnlt : ¬ p.toNat < q.toNat := by
      intro hlt
      exact hfree (hmin p le_rfl hlt)
    have heq : q.toNat = p.toNat := by omega
    rw [UInt16.toNat_inj.1 heq]

/-- No port of the ten is found if none is free. -/
theorem search_exhausted {p : UInt16} {busy : List UInt16} (h0 : p ≠ 0)
    (hfits : p.toNat + 10 < 2 ^ 16) (hbusy : ∀ i ∈ List.range 10, p + UInt16.ofNat i ∈ busy) :
    search p busy = none := by
  cases h : search p busy with
  | none => rfl
  | some q =>
    rcases search_eq_some h0 hfits h with ⟨hle, hlt, hfree, -⟩
    have hi : q.toNat - p.toNat < 10 := by omega
    have heq : p + UInt16.ofNat (q.toNat - p.toNat) = q := by
      apply UInt16.toNat_inj.1
      rw [UInt16.toNat_add, UInt16.toNat_ofNat', Nat.mod_eq_of_lt (a := q.toNat - p.toNat) (by omega),
        Nat.mod_eq_of_lt (by omega)]
      omega
    exact absurd (heq ▸ hbusy _ (List.mem_range.2 hi)) hfree

/-! ## The steps -/

section Steps

-- the setting in the template
variable (template : Option Str)

/-- `get_u16(KEY_DAEMON_IPC_PORT, DEFAULT_RPC_PORT)` -/
def defaultRpcPortOf (setting : Option Str) : UInt16 :=
  ((setting.or template).bind fun v => parseU16 (trim v)).getD defaultRpcPort

/-- The setting in the file after a save. -/
def saveTo (conf value : Option Str) : Save → Option Str
  | .ok => value
  | .unchanged => conf
  | .torn => none

/-- The port in the state file, `as_u64` and `as u16`. -/
def StateFile.rpcPort : StateFile → Option UInt16
  | .written n => some (UInt16.ofNat n)
  | _ => none

/-- The port of a new client of `IpcClient::from_data_dir`. -/
def fromDataDir (s : St) : UInt16 := s.stateFile.rpcPort.getD (defaultRpcPortOf template s.guiConf)

/-- The state file once it has been removed and written. -/
def writeState (file : StateFile) (port : UInt16) (removed : Bool) : Save → StateFile
  | .ok => .written port.toNat
  | .unchanged => if removed then .absent else file
  | .torn => .torn

/-- The daemon has a socket on the port it has found. -/
def bound (s : St) (rpcPort q ephemeral : UInt16) (saved : Save) : St :=
  { s with
    daemon := .listening
      { port := q
        socket := if q = 0 then ephemeral else q
        status := q
        published := false
        ready := false }
    conf := if q = rpcPort then s.conf else saveTo s.conf (some (decimal q.toNat)) saved }

def step (s : St) : Event → Option St
  | .start removed =>
    if s.daemon = .off then
      some { s with
        stateFile := if removed then .absent else s.stateFile
        daemon := .starting (defaultRpcPortOf template s.conf) }
    else none
  | .bind busy ephemeral saved =>
    match s.daemon with
    | .starting rpcPort =>
      let s := { s with searched := some ⟨rpcPort, busy, search rpcPort busy⟩ }
      match search rpcPort busy with
      | none => some { s with daemon := .off }
      | some q => some (bound s rpcPort q ephemeral saved)
    | _ => none
  | .publish removed written =>
    match s.daemon with
    | .listening l =>
      if l.published then none
      else
        some { s with
          stateFile := writeState s.stateFile l.port removed written
          daemon := .listening { l with published := true } }
    | _ => none
  | .signal =>
    match s.daemon with
    | .listening l =>
      if l.published then some { s with daemon := .listening { l with ready := true } } else none
    | _ => none
  | .stop removed =>
    match s.daemon with
    | .listening _ =>
      some { s with
        stateFile := if removed then .absent else s.stateFile
        daemon := .off }
    | _ => none
  | .crash => some { s with daemon := .off }
  | .fromDataDir => some { s with clients := s.clients ++ [fromDataDir template s] }
  | .defaultPort => some { s with clients := s.clients ++ [defaultRpcPortOf template s.guiConf] }
  | .getGlobal =>
    some { s with global := s.global.or (some (defaultRpcPortOf template s.guiConf)) }
  | .reload => some { s with guiConf := s.conf }
  | .setConfig port saved =>
    some { s with
      guiConf := port.or s.guiConf
      conf := saveTo s.conf (port.or s.guiConf) saved }

/-! ## What is expected -/

/-- The ports of the GUI's clients. -/
def St.ports (s : St) : List UInt16 := s.clients ++ s.global.toList

/-- The port that a daemon with a ready signal listens on. -/
def St.readyPort (s : St) : Option UInt16 :=
  match s.daemon with
  | .listening l => if l.ready then some l.socket else none
  | _ => none

/-- Once the ready signal is written, every client has the port the daemon listens
on; the search does not overflow and skips no free port. -/
structure Agreed (s : St) : Prop where
  clients : ∀ p, s.readyPort = some p → ∀ c ∈ s.ports, c = p
  searched : ∀ r, s.searched = some r → r.Thorough

/-- The configured port is no less than 1 and the sum fits; the port is free, or
the GUI has no client yet and the new port is saved, or none of the ten is free. -/
def Finds (s : St) (rpcPort : UInt16) (busy : List UInt16) (saved : Save) : Prop :=
  rpcPort ≠ 0 ∧ rpcPort.toNat + 10 < 2 ^ 16 ∧
    (rpcPort ∉ busy ∨ (s.ports = [] ∧ saved = .ok) ∨
      ∀ i ∈ List.range 10, rpcPort + UInt16.ofNat i ∈ busy)

/-- The file's setting gives the port. -/
def St.Says (s : St) (port : UInt16) : Prop := port = defaultRpcPortOf template s.conf

/-- The port is found where it is configured; what a client's port is taken from
gives the same port as the file's setting; that port does not change while there
are clients or a daemon. -/
def Sound (s : St) : Event → Prop
  | .bind busy _ saved =>
    match s.daemon with
    | .starting p => Finds s p busy saved
    | _ => True
  | .fromDataDir =>
    match s.stateFile.rpcPort with
    | some p => s.Says template p
    | none => s.Says template (defaultRpcPortOf template s.guiConf)
  | .defaultPort => s.Says template (defaultRpcPortOf template s.guiConf)
  | .getGlobal => s.global = none → s.Says template (defaultRpcPortOf template s.guiConf)
  | .setConfig port saved =>
    s.Says template (defaultRpcPortOf template (saveTo s.conf (port.or s.guiConf) saved)) ∨
      (s.ports = [] ∧ s.daemon = .off)
  | _ => True

instance (s : St) (p : UInt16) (busy : List UInt16) (saved : Save) :
    Decidable (Finds s p busy saved) :=
  inferInstanceAs (Decidable (_ ∧ _))

instance (s : St) (port : UInt16) : Decidable (s.Says template port) :=
  inferInstanceAs (Decidable (_ = _))

instance (s : St) (event : Event) : Decidable (Sound template s event) := by
  unfold Sound
  split
  all_goals try split
  all_goals infer_instance

/-! ## The invariant -/

/-- Clients and daemon have the port that the file's setting gives. -/
structure Inv (s : St) : Prop where
  ports : ∀ c ∈ s.ports, s.Says template c
  starting : ∀ p, s.daemon = .starting p → s.Says template p
  listening : ∀ l, s.daemon = .listening l → s.Says template l.port ∧ l.socket = l.port
  searched : ∀ r, s.searched = some r → r.Thorough

theorem inv_init (conf : Option Str) (stateFile : StateFile) :
    Inv template (init conf stateFile) where
  ports := by simp [init, St.ports]
  starting := by simp [init]
  listening := by simp [init]
  searched := by simp [init]

variable {template} {s : St}

theorem Inv.agreed (h : Inv template s) : Agreed s where
  clients := by
    intro p hp c hc
    unfold St.readyPort at hp
    split at hp
    · rename_i l hl
      rcases h.listening l hl with ⟨hport, hsocket⟩
      split at hp
      · injection hp with hp
        rw [← hp, hsocket]
        exact (h.ports c hc).trans hport.symm
      · cases hp
    · cases hp
  searched := h.searched

/-- A step that leaves the file and the clients alone. -/
theorem Inv.daemon (h : Inv template s) {t : St} (hconf : t.conf = s.conf)
    (hports : t.ports = s.ports) (hsearched : t.searched = s.searched)
    (hstarting : ∀ p, t.daemon = .starting p → s.Says template p)
    (hlistening : ∀ l, t.daemon = .listening l → s.Says template l.port ∧ l.socket = l.port) :
    Inv template t := by
  constructor
  · simp only [hports, St.Says, hconf]
    exact h.ports
  · simp only [St.Says, hconf]
    exact hstarting
  · simp only [St.Says, hconf]
    exact hlistening
  · rw [hsearched]
    exact h.searched

/-- A new client with the port of the file's setting. -/
theorem Inv.client (h : Inv template s) {t : St} {p : UInt16} (hp : s.Says template p)
    (hconf : t.conf = s.conf) (hdaemon : t.daemon = s.daemon)
    (hports : ∀ c ∈ t.ports, c ∈ s.ports ∨ c = p) (hsearched : t.searched = s.searched) :
    Inv template t := by
  constructor
  · intro c hc
    show c = defaultRpcPortOf template t.conf
    rw [hconf]
    rcases hports c hc with hc | rfl
    · exact h.ports c hc
    · exact hp
  · simp only [hdaemon, St.Says, hconf]
    exact h.starting
  · simp only [hdaemon, St.Says, hconf]
    exact h.listening
  · rw [hsearched]
    exact h.searched

/-- What is written as a setting is read as that port. -/
theorem defaultRpcPortOf_decimal (template : Option Str) (q : UInt16) :
    defaultRpcPortOf template (some (decimal q.toNat)) = q := by
  simp [defaultRpcPortOf, parseU16_decimal]

theorem inv_bind (h : Inv template s) {p : UInt16} {busy : List UInt16} {ephemeral : UInt16}
    {saved : Save} (hp : s.daemon = .starting p) (hfinds : Finds s p busy saved) {t : St}
    (hstep : step template s (.bind busy ephemeral saved) = some t) : Inv template t := by
  rcases hfinds with ⟨h0, hfits, hcase⟩
  have hthorough := search_thorough h0 hfits busy
  simp only [step, hp] at hstep
  cases hsearch : search p busy with
  | none =>
    -- the daemon ends with an error
    simp only [hsearch, Option.some.injEq] at hstep
    subst hstep
    refine ⟨h.ports, ?_, ?_, ?_⟩
    · intro p' hp'
      cases hp'
    · intro l hl
      cases hl
    · intro r hr
      injection hr with hr
      rw [← hr, ← hsearch]
      exact hthorough
  | some q =>
    simp only [hsearch, Option.some.injEq] at hstep
    subst hstep
    rcases search_eq_some h0 hfits hsearch with ⟨hle, -, hfree, -⟩
    have hq : q ≠ 0 := by
      rintro rfl
      apply h0
      apply UInt16.toNat_inj.1
      have hzero : (0 : UInt16).toNat = 0 := rfl
      omega
    have hsearched : ∀ r, some (Search.mk p busy (some q)) = some r → r.Thorough := by
      intro r hr
      injection hr with hr
      rw [← hr, ← hsearch]
      exact hthorough
    by_cases hmoved : q = p
    · subst hmoved
      refine ⟨?_, ?_, ?_, hsearched⟩
      · intro c hc
        show c = defaultRpcPortOf template (if q = q then s.conf else _)
        rw [if_pos rfl]
        exact h.ports c hc
      · intro p' hp'
        cases hp'
      · intro l hl
        injection hl with hl
        subst hl
        refine ⟨?_, if_neg hq⟩
        show q = defaultRpcPortOf template (if q = q then s.conf else _)
        rw [if_pos rfl]
        exact h.starting q hp
    · -- a daemon that moves has no client to tell
      have hsaved : s.ports = [] ∧ saved = .ok := by
        rcases hcase with hcase | hcase | hcase
        · rw [search_free h0 hfits hcase, Option.some.injEq] at hsearch
          exact absurd hsearch.symm hmoved
        · exact hcase
        · rw [search_exhausted h0 hfits hcase] at hsearch
          cases hsearch
      refine ⟨?_, ?_, ?_, hsearched⟩
      · intro c hc
        have hmem : c ∈ s.ports := hc
        rw [hsaved.1] at hmem
        cases hmem
      · intro p' hp'
        cases hp'
      · intro l hl
        injection hl with hl
        subst hl
        refine ⟨?_, if_neg hq⟩
        show q = defaultRpcPortOf template (if q = p then s.conf else saveTo s.conf _ saved)
        rw [if_neg hmoved, hsaved.2, saveTo, defaultRpcPortOf_decimal]

/-- One step. -/
theorem inv_step {event : Event} {t : St} (h : Inv template s) (hsound : Sound template s event)
    (hstep : step template s event = some t) : Inv template t := by
  cases event with
  | start removed =>
    simp only [step] at hstep
    split at hstep
    · injection hstep with hstep
      subst hstep
      refine h.daemon rfl rfl rfl ?_ ?_
      · intro p hp
        injection hp with hp
        exact hp.symm
      · intro l hl
        cases hl
    · cases hstep
  | bind busy ephemeral saved =>
    cases hd : s.daemon with
    | starting p =>
      simp only [Sound, hd] at hsound
      exact inv_bind h hd hsound hstep
    | off => simp [step, hd] at hstep
    | listening l => simp [step, hd] at hstep
  | publish removed written =>
    cases hd : s.daemon with
    | listening l =>
      simp only [step, hd] at hstep
      split at hstep
      · cases hstep
      · injection hstep with hstep
        subst hstep
        refine h.daemon rfl rfl rfl ?_ ?_
        · intro p hp
          cases hp
        · intro l' hl
          injection hl with hl
          subst hl
          exact h.listening l hd
    | off => simp [step, hd] at hstep
    | starting p => simp [step, hd] at hstep
  | signal =>
    cases hd : s.daemon with
    | listening l =>
      simp only [step, hd] at hstep
      split at hstep
      · injection hstep with hstep
        subst hstep
        refine h.daemon rfl rfl rfl ?_ ?_
        · intro p hp
          cases hp
        · intro l' hl
          injection hl with hl
          subst hl
          exact h.listening l hd
      · cases hstep
    | off => simp [step, hd] at hstep
    | starting p => simp [step, hd] at hstep
  | stop removed =>
    cases hd : s.daemon with
    | listening l =>
      simp only [step, hd, Option.some.injEq] at hstep
      subst hstep
      exact h.daemon rfl rfl rfl (by simp) (by simp)
    | off => simp [step, hd] at hstep
    | starting p => simp [step, hd] at hstep
  | crash =>
    injection hstep with hstep
    subst hstep
    exact h.daemon rfl rfl rfl (by simp) (by simp)
  | fromDataDir =>
    injection hstep with hstep
    subst hstep
    refine h.client (p := fromDataDir template s) ?_ rfl rfl ?_ rfl
    · simp only [Sound] at hsound
      unfold fromDataDir
      cases hfile : s.stateFile.rpcPort with
      | some p =>
        rw [hfile] at hsound
        exact hsound
      | none =>
        rw [hfile] at hsound
        exact hsound
    · intro c hc
      have hmem : c ∈ (s.clients ++ [fromDataDir template s]) ++ s.global.toList := hc
      simp only [List.mem_append, List.mem_singleton] at hmem
      rw [St.ports, List.mem_append]
      tauto
  | defaultPort =>
    injection hstep with hstep
    subst hstep
    refine h.client hsound rfl rfl ?_ rfl
    intro c hc
    have hmem : c ∈ (s.clients ++ [defaultRpcPortOf template s.guiConf]) ++ s.global.toList := hc
    simp only [List.mem_append, List.mem_singleton] at hmem
    rw [St.ports, List.mem_append]
    tauto
  | getGlobal =>
    injection hstep with hstep
    subst hstep
    cases hglobal : s.global with
    | some p =>
      -- the shared client is there already
      refine h.daemon rfl ?_ rfl h.starting h.listening
      simp [St.ports, hglobal]
    | none =>
      refine h.client (hsound hglobal) rfl rfl ?_ rfl
      intro c hc
      have hmem : c ∈ s.clients ++ [defaultRpcPortOf template s.guiConf] := by
        simpa [St.ports, hglobal] using hc
      rw [List.mem_append, List.mem_singleton] at hmem
      rw [St.ports, List.mem_append]
      tauto
  | reload =>
    injection hstep with hstep
    subst hstep
    exact h.daemon rfl rfl rfl h.starting h.listening
  | setConfig port saved =>
    injection hstep with hstep
    subst hstep
    rcases hsound with hsame | ⟨hports, hoff⟩
    · have hmeans : ∀ p, s.Says template p →
          p = defaultRpcPortOf template (saveTo s.conf (port.or s.guiConf) saved) := by
        intro p hp
        exact hp.trans hsame.symm
      constructor
      · intro c hc
        exact hmeans c (h.ports c hc)
      · intro p hp
        exact hmeans p (h.starting p hp)
      · intro l hl
        exact ⟨hmeans l.port (h.listening l hl).1, (h.listening l hl).2⟩
      · exact h.searched
    · constructor
      · intro c hc
        have hmem : c ∈ s.ports := hc
        rw [hports] at hmem
        cases hmem
      · intro p hp
        have hstarting : s.daemon = .starting p := hp
        rw [hoff] at hstarting
        cases hstarting
      · intro l hl
        have hlistening : s.daemon = .listening l := hl
        rw [hoff] at hlistening
        cases hlistening
      · exact h.searched

/-- Along a run of sound steps the GUI's clients have the port of the daemon. -/
theorem clients_agree (template conf : Option Str) (stateFile : StateFile) {events : List Event}
    (h : Along (step template) (Sound template) (init conf stateFile) events) :
    Always (step template) Agreed (init conf stateFile) events := by
  apply always_of_along (P := Sound template) (I := Inv template)
  · intro s hs
    exact hs.agreed
  · intro s event t hs hsound hstep
    exact inv_step hs hsound hstep
  · exact inv_init template conf stateFile
  · exact h

end Steps

/-- The daemon moves before the GUI has a client, and starts once more where it
has been. -/
theorem clients_agree_example :
    Always (step none) Agreed (init (some " 16000".toList) .absent)
      [.start true, .bind [16000] 0 .ok, .publish true .ok, .fromDataDir, .reload, .getGlobal,
        .signal, .stop true, .start true, .bind [] 0 .ok, .publish true .torn, .signal,
        .fromDataDir] :=
  clients_agree none _ _ (by decide)

/-- The configured port is busy when the daemon starts, and the shared client has
already been made. -/
theorem global_client_left_behind :
    ¬ Always (step none) Agreed (init none .absent)
      [.getGlobal, .start true, .bind [15889] 0 .ok, .publish true .ok, .signal, .reload,
        .getGlobal, .fromDataDir] := by
  apply not_always_of_run
    (Q := fun s => s.readyPort.all fun p => s.ports.all fun c => decide (c = p))
  · intro s hs
    rw [Option.all_eq_true]
    intro p hp
    exact List.all_eq_true.2 fun c hc => decide_eq_true (hs.clients p hp c hc)
  · decide

end IpcPort

end HomeTier
