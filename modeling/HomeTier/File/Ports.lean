import HomeTier.Lib.Trace
import HomeTier.Space.Ports

/-! # Who holds the ports of the file servers

Two components start a file server for a space, on the same computed port:
`SpaceManager` when a space is connected (`start_file_server` of
`src-tauri/src/space/manager.rs`) and `FileServerRegistry`
(`src-tauri/src/file/registry.rs`) for every command that stores or reads a
file, and for every connected space each two seconds (`sync`). The task of a
server (`FileServer::start` of `src-tauri/src/file/server.rs`) looks at the flag
that `stop` clears only between two calls of `accept`, so it holds its port a
while longer.

The runs below interleave all of this in any order, on Linux and macOS, where a
port has at most one listener. `FileServer::start` sets `SO_REUSEADDR`, which
lets two sockets listen on Windows. Only file servers are followed: the chat,
voice and screen servers of the manager, whose ports (from 18000, 18100 and
18200 on) reach into the same range, are to a file server what another program
is, something that makes `bind` fail.

1. Every server of either map has a running task of its own, and no two servers
   have the same port; a server that was stopped takes at most one more
   connection (`servers_listen`).
2. While the configured base stays, a server cannot be started exactly if
   something else holds its port, or one of the two components serves a space
   whose id agrees modulo 1000, is about to, or has stopped to a moment ago
   (`not_opens_iff`). So a space cannot be connected
   while the registry serves it, and no file of a connected space can be received.
3. The registry serves a space that is deleted for good, and no other file server
   gets its port (`deleted_served`).
4. A sync leaves the registry with a server exactly for the connected spaces, if
   no start in it fails (`sync_follows`).
-/

namespace HomeTier.FilePorts

open Lib

/-- Whose map a server is in: `file_servers` or `servers`. -/
inductive Owner where
  | manager
  | registry
deriving DecidableEq

/-- The task of a server. -/
structure Listener where
  owner : Owner
  space : Uuid
  /-- Shared with the server. -/
  running : Bool
  /-- In `accept`, not between two calls of it. -/
  waiting : Bool
  /-- Connections it has taken since the server was stopped. -/
  late : Nat

structure St where
  /-- The configured base of the ports, which can be set at any time. -/
  base : UInt16
  /-- The spaces of the database. -/
  rows : List Uuid
  listeners : UInt16 → Option Listener
  /-- The port of each server in the two maps. -/
  servers : Owner → Uuid → Option UInt16
  /-- Calls of `connect` that have removed the old server and start the new one. -/
  connecting : List Uuid
  /-- Calls of `connect` whose server listens and is not in the map yet. -/
  opened : List (Uuid × UInt16)
  /-- What a sync has still to do: the spaces and whether they were connected. -/
  pending : List (Uuid × Bool)

def init (base : UInt16) (rows : List Uuid) : St where
  base := base
  rows := rows
  listeners := fun _ => none
  servers := fun _ _ => none
  connecting := []
  opened := []
  pending := []

/-- What the system answers to `bind`. -/
structure Os where
  /-- The port it chooses when asked for port 0. -/
  chosen : UInt16
  /-- Something that is no file server holds the port (another program, or a chat, voice or
  screen server of the manager), or there is another error. -/
  refused : Bool

namespace St

variable (s : St) (o : Owner) (id : Uuid) (os : Os)

/-- `port_for`, and the same in `start_file_server` -/
def portFor : UInt16 := servicePort s.base id .file

/-- The port that `bind` gets. -/
def portOf : UInt16 := if s.portFor id = 0 then os.chosen else s.portFor id

/-- `FileServer::start` succeeds: no file server listens on the port, and the system does not
refuse it for another reason. -/
def opens : Bool := !os.refused && (s.listeners (s.portOf id os)).isNone

/-- The task that `FileServer::start` spawns. -/
def listen : St :=
  { s with listeners :=
      Function.update s.listeners (s.portOf id os) (some ⟨o, id, true, false, 0⟩) }

def setServer (port : Option UInt16) : St :=
  { s with servers := Function.update s.servers o (Function.update (s.servers o) id port) }

/-- The server is removed from the map and stopped. -/
def stop : St :=
  match s.servers o id with
  | none => s
  | some p =>
    { s.setServer o id none with
      listeners := Function.update s.listeners p
        ((s.listeners p).map fun l => { l with running := false }) }

/-- `get_or_start`, which holds the lock of the map; the second component is its result. -/
def getOrStart : St × Bool :=
  if (s.servers .registry id).isSome then (s, true)
  else if s.opens id os then
    ((s.listen .registry id os).setServer .registry id (some (s.portOf id os)), true)
  else (s, false)

end St

inductive Act where
  /-- `create` and `join` -/
  | create (id : Uuid)
  /-- `delete_space` of the database, after `disconnect` -/
  | delete (id : Uuid)
  | setBase (base : UInt16)
  /-- `connect`, once the daemon has accepted -/
  | clean (id : Uuid)
  /-- Its chat server does not start. -/
  | giveUp (id : Uuid)
  /-- Its file server is started. -/
  | start (id : Uuid) (os : Os)
  /-- The server enters the map. -/
  | enter (id : Uuid) (port : UInt16)
  | disconnect (id : Uuid)
  /-- `receive_file`, an upload or a download -/
  | getOrStart (id : Uuid) (os : Os)
  /-- A sync begins with these spaces connected. -/
  | list (connected : List Uuid)
  /-- It goes on to its next space. -/
  | next (os : Os)
  /-- The task of a server looks at its flag. -/
  | check (port : UInt16)
  | accept (port : UInt16)
  | timeout (port : UInt16)

/-- The task of a server before its next `accept`: it waits, or gives its port back. -/
def Listener.check (l : Listener) : Option Listener :=
  if l.running then some { l with waiting := true } else none

def Listener.accept (l : Listener) : Listener :=
  { l with waiting := false, late := if l.running then l.late else l.late + 1 }

def step (s : St) : Act → Option St
  | .create id => if id ∈ s.rows then none else some { s with rows := id :: s.rows }
  | .delete id => some { s with rows := s.rows.filter (· ≠ id) }
  | .setBase base => some { s with base := base }
  | .clean id => some { s.stop .manager id with connecting := id :: s.connecting }
  | .giveUp id =>
    if id ∈ s.connecting then some { s with connecting := s.connecting.erase id } else none
  | .start id os =>
    if id ∈ s.connecting then
      if s.opens id os then
        some { s.listen .manager id os with
          connecting := s.connecting.erase id
          opened := (id, s.portOf id os) :: s.opened }
      else some { s with connecting := s.connecting.erase id }
    else none
  | .enter id p =>
    if (id, p) ∈ s.opened then
      some { s.setServer .manager id (some p) with opened := s.opened.erase (id, p) }
    else none
  | .disconnect id => some (s.stop .manager id)
  | .getOrStart id os => some (s.getOrStart id os).1
  | .list connected =>
    if s.pending = [] then
      some { s with pending := s.rows.map fun id => (id, decide (id ∈ connected)) }
    else none
  | .next os =>
    match s.pending with
    | [] => none
    | (id, true) :: rest => some { (s.getOrStart id os).1 with pending := rest }
    | (id, false) :: rest => some { s.stop .registry id with pending := rest }
  | .check p =>
    match s.listeners p with
    | none => none
    | some l =>
      if l.waiting then none
      else some { s with listeners := Function.update s.listeners p l.check }
  | .accept p =>
    match s.listeners p with
    | none => none
    | some l =>
      if l.waiting then some { s with listeners := Function.update s.listeners p (some l.accept) }
      else none
  | .timeout p =>
    match s.listeners p with
    | none => none
    | some l =>
      if l.waiting then
        some { s with listeners :=
          Function.update s.listeners p (some { l with waiting := false }) }
      else none

/-! ## Steps -/

variable {s s' : St}

/-- What the loop of a server does to its task. -/
inductive Loops (l : Listener) : Option Listener → Prop where
  | checked : l.waiting = false → l.running = true → Loops l (some { l with waiting := true })
  | ended : l.waiting = false → l.running = false → Loops l none
  | accepted : l.waiting = true → Loops l (some l.accept)
  | timedOut : l.waiting = true → Loops l (some { l with waiting := false })

def Act.IsLoop : Act → Prop
  | .check _ | .accept _ | .timeout _ => True
  | _ => False

/-- What each action does. -/
inductive Moved (s : St) : Act → St → Prop where
  | created {id} (h : id ∉ s.rows) : Moved s (.create id) { s with rows := id :: s.rows }
  | deleted {id} : Moved s (.delete id) { s with rows := s.rows.filter (· ≠ id) }
  | rebased {base} : Moved s (.setBase base) { s with base := base }
  | cleaned {id} :
      Moved s (.clean id) { s.stop .manager id with connecting := id :: s.connecting }
  | gaveUp {id} : Moved s (.giveUp id) { s with connecting := s.connecting.erase id }
  | refused {id os} (h : s.opens id os = false) :
      Moved s (.start id os) { s with connecting := s.connecting.erase id }
  | opened {id os} (h : s.opens id os = true) :
      Moved s (.start id os) { s.listen .manager id os with
        connecting := s.connecting.erase id, opened := (id, s.portOf id os) :: s.opened }
  | entered {id p} (h : (id, p) ∈ s.opened) :
      Moved s (.enter id p)
        { s.setServer .manager id (some p) with opened := s.opened.erase (id, p) }
  | disconnected {id} : Moved s (.disconnect id) (s.stop .manager id)
  | registered {id os} : Moved s (.getOrStart id os) (s.getOrStart id os).1
  | listed {connected} (h : s.pending = []) :
      Moved s (.list connected)
        { s with pending := s.rows.map fun id => (id, decide (id ∈ connected)) }
  | kept {os id rest} (h : s.pending = (id, true) :: rest) :
      Moved s (.next os) { (s.getOrStart id os).1 with pending := rest }
  | dropped {os id rest} (h : s.pending = (id, false) :: rest) :
      Moved s (.next os) { s.stop .registry id with pending := rest }
  | looped {a p l next} (ha : a.IsLoop) (hl : s.listeners p = some l) (h : Loops l next) :
      Moved s a { s with listeners := Function.update s.listeners p next }

/-- The registry starts a server that is not there, if it can. -/
theorem getOrStart_cases (s : St) (id : Uuid) (os : Os) :
    (s.getOrStart id os = (s, true) ∧ s.servers .registry id ≠ none) ∨
    (s.servers .registry id = none ∧ s.opens id os = true ∧ s.getOrStart id os =
      ((s.listen .registry id os).setServer .registry id (some (s.portOf id os)), true)) ∨
    (s.servers .registry id = none ∧ s.opens id os = false ∧ s.getOrStart id os = (s, false)) := by
  unfold St.getOrStart
  cases hserver : s.servers .registry id with
  | some p => exact Or.inl ⟨rfl, nofun⟩
  | none =>
    cases hopens : s.opens id os with
    | true => exact Or.inr (Or.inl ⟨rfl, rfl, rfl⟩)
    | false => exact Or.inr (Or.inr ⟨rfl, rfl, rfl⟩)

theorem step_moved {a : Act} (h : step s a = some s') : Moved s a s' := by
  cases a with
  | create id =>
    rcases Option.ite_none_left_eq_some.1 h with ⟨hfresh, hs'⟩
    obtain rfl := Option.some.inj hs'
    exact .created hfresh
  | delete id =>
    obtain rfl := Option.some.inj h
    exact .deleted
  | setBase base =>
    obtain rfl := Option.some.inj h
    exact .rebased
  | clean id =>
    obtain rfl := Option.some.inj h
    exact .cleaned
  | giveUp id =>
    rcases Option.ite_none_right_eq_some.1 h with ⟨-, hs'⟩
    obtain rfl := Option.some.inj hs'
    exact .gaveUp
  | start id os =>
    rcases Option.ite_none_right_eq_some.1 h with ⟨-, hs'⟩
    cases hopens : s.opens id os with
    | true =>
      rw [if_pos hopens] at hs'
      obtain rfl := Option.some.inj hs'
      exact .opened hopens
    | false =>
      rw [hopens, if_neg Bool.false_ne_true] at hs'
      obtain rfl := Option.some.inj hs'
      exact .refused hopens
  | enter id p =>
    rcases Option.ite_none_right_eq_some.1 h with ⟨hmem, hs'⟩
    obtain rfl := Option.some.inj hs'
    exact .entered hmem
  | disconnect id =>
    obtain rfl := Option.some.inj h
    exact .disconnected
  | getOrStart id os =>
    obtain rfl := Option.some.inj h
    exact .registered
  | list connected =>
    rcases Option.ite_none_right_eq_some.1 h with ⟨hpending, hs'⟩
    obtain rfl := Option.some.inj hs'
    exact .listed hpending
  | next os =>
    simp only [step] at h
    split at h
    · cases h
    · obtain rfl := Option.some.inj h
      exact .kept ‹_›
    · obtain rfl := Option.some.inj h
      exact .dropped ‹_›
  | check p =>
    simp only [step] at h
    split at h
    · cases h
    · rename_i l hl
      rcases Option.ite_none_left_eq_some.1 h with ⟨hwaiting, hs'⟩
      obtain rfl := Option.some.inj hs'
      -- the loop looks at the flag between two connections
      have hwaiting : l.waiting = false := by simpa using hwaiting
      have hloop : (Act.check p).IsLoop := trivial
      apply Moved.looped hloop hl
      unfold Listener.check
      split
      · exact .checked hwaiting ‹_›
      · exact .ended hwaiting (by simpa using ‹¬ l.running = true›)
  | accept p =>
    simp only [step] at h
    split at h
    · cases h
    · rename_i l hl
      rcases Option.ite_none_right_eq_some.1 h with ⟨hwaiting, hs'⟩
      obtain rfl := Option.some.inj hs'
      exact .looped trivial hl (.accepted hwaiting)
  | timeout p =>
    simp only [step] at h
    split at h
    · cases h
    · rename_i l hl
      rcases Option.ite_none_right_eq_some.1 h with ⟨hwaiting, hs'⟩
      obtain rfl := Option.some.inj hs'
      exact .looped trivial hl (.timedOut hwaiting)

/-! ## Servers and their tasks -/

/-- A running task, for this map and space, holds the port. -/
def St.Holds (s : St) (o : Owner) (id : Uuid) (p : UInt16) : Prop :=
  ∃ l, s.listeners p = some l ∧ l.running = true ∧ l.owner = o ∧ l.space = id

variable {p base : UInt16} {id id' : Uuid}

theorem St.Holds.unique {o o' : Owner} (h : s.Holds o id p)
    (h' : s.Holds o' id' p) : o = o' ∧ id = id' := by
  rcases h with ⟨l, hl, -, rfl, rfl⟩
  rcases h' with ⟨l', hl', -, rfl, rfl⟩
  obtain rfl := Option.some.inj (hl.symm.trans hl')
  exact ⟨rfl, rfl⟩

/-- A port that can be opened has no task. -/
theorem St.Holds.ne_portOf {o : Owner} {os : Os}
    (h : s.Holds o id p) (hopens : s.opens id' os = true) : p ≠ s.portOf id' os := by
  rintro rfl
  rcases h with ⟨l, hl, -⟩
  simp [St.opens, hl] at hopens

theorem holds_of_ne {o : Owner} {p q : UInt16} (h : s.Holds o id q) (hne : q ≠ p)
    (next : Option Listener) :
    { s with listeners := Function.update s.listeners p next }.Holds o id q := by
  rcases h with ⟨l, hl, h⟩
  exact ⟨l, (Function.update_of_ne hne _ _).trans hl, h⟩

theorem servers_setServer (s : St) (o o' : Owner) (id id' : Uuid) (port : Option UInt16) :
    (s.setServer o id port).servers o' id' =
      if o' = o ∧ id' = id then port else s.servers o' id' := by
  show Function.update s.servers o (Function.update (s.servers o) id port) o' id' = _
  by_cases ho : o' = o
  · subst ho
    rw [Function.update_self]
    by_cases hid : id' = id
    · subst hid
      rw [Function.update_self, if_pos ⟨rfl, rfl⟩]
    · rw [Function.update_of_ne hid, if_neg fun h => hid h.2]
  · rw [Function.update_of_ne ho, if_neg fun h => ho h.1]

/-- A task between two calls of `accept` has still to look at its flag, and one that runs has
taken nothing late. -/
def Listener.Prompt (l : Listener) : Prop :=
  l.late + l.waiting.toNat ≤ 1 ∧ (l.running = true → l.late = 0)

structure Kept (s : St) : Prop where
  served : ∀ {o id p}, s.servers o id = some p → s.Holds o id p
  opened : ∀ {id p}, (id, p) ∈ s.opened → s.Holds .manager id p ∧ s.servers .manager id ≠ some p
  once : s.opened.Nodup
  prompt : ∀ {p l}, s.listeners p = some l → l.Prompt

theorem kept_init (base : UInt16) (rows : List Uuid) : Kept (init base rows) where
  served := nofun
  opened := nofun
  once := List.nodup_nil
  prompt := nofun

theorem Loops.prompt {l l' : Listener} (h : Loops l (some l')) (hl : l.Prompt) : l'.Prompt := by
  rcases hl with ⟨hle, hrun⟩
  cases h with
  | checked hwaiting hrunning =>
    refine ⟨?_, hrun⟩
    simp [hrun hrunning]
  | accepted hwaiting =>
    rw [hwaiting, Bool.toNat_true] at hle
    unfold Listener.accept
    split
    · exact ⟨by simpa using hle.trans' (Nat.le_succ _), hrun⟩
    · rename_i hstopped
      exact ⟨by simpa using hle, fun h => absurd h hstopped⟩
  | timedOut hwaiting =>
    rw [hwaiting, Bool.toNat_true] at hle
    exact ⟨by simpa using hle.trans' (Nat.le_succ _), hrun⟩

theorem Loops.same {l l' : Listener} (h : Loops l (some l')) :
    l'.running = l.running ∧ l'.owner = l.owner ∧ l'.space = l.space := by
  cases h with
  | checked _ _ | accepted _ | timedOut _ => exact ⟨rfl, rfl, rfl⟩

variable {l : Listener}

/-- The loop does not end a task that runs. -/
theorem Loops.isSome {next : Option Listener} (h : Loops l next)
    (hrunning : l.running = true) : ∃ l', next = some l' := by
  cases h with
  | checked _ _ | accepted _ | timedOut _ => exact ⟨_, rfl⟩
  | ended _ hstopped => exact absurd (hrunning.symm.trans hstopped) nofun

theorem prompt_update {p q : UInt16} {next : Option Listener}
    (hold : ∀ {q l}, s.listeners q = some l → l.Prompt) (hnext : ∀ l', next = some l' → l'.Prompt)
    (hl : Function.update s.listeners p next q = some l) : l.Prompt := by
  by_cases hq : q = p
  · subst hq
    rw [Function.update_self] at hl
    exact hnext l hl
  · rw [Function.update_of_ne hq] at hl
    exact hold hl

theorem kept_stop (hkept : Kept s) (o : Owner) (id : Uuid) : Kept (s.stop o id) := by
  unfold St.stop
  split
  · exact hkept
  · rename_i p hserver
    have hholds := hkept.served hserver
    constructor
    · intro o' id' q hnew
      have hq : (s.setServer o id none).servers o' id' = some q := hnew
      rw [servers_setServer] at hq
      split at hq
      · cases hq
      · rename_i hother
        refine holds_of_ne (hkept.served hq) ?_ _
        rintro rfl
        exact hother ((hkept.served hq).unique hholds)
    · intro id' q hmem
      rcases hkept.opened hmem with ⟨hq, hne⟩
      constructor
      · refine holds_of_ne hq ?_ _
        rintro rfl
        rcases hq.unique hholds with ⟨rfl, rfl⟩
        exact hne hserver
      · show (s.setServer o id none).servers .manager id' ≠ some q
        rw [servers_setServer]
        split
        · exact nofun
        · exact hne
    · exact hkept.once
    · refine fun hl => prompt_update hkept.prompt ?_ hl
      intro l' hl'
      rcases Option.map_eq_some_iff.1 hl' with ⟨l, hl, rfl⟩
      exact ⟨(hkept.prompt hl).1, nofun⟩

/-- A task on a port that was free disturbs no other. -/
theorem holds_listen {o o' : Owner} {os : Os}
    (hopens : s.opens id' os = true) (h : s.Holds o id p) : (s.listen o' id' os).Holds o id p :=
  holds_of_ne h (h.ne_portOf hopens) _

theorem holds_listen_self (s : St) (o : Owner) (id : Uuid) (os : Os) :
    (s.listen o id os).Holds o id (s.portOf id os) :=
  ⟨⟨o, id, true, false, 0⟩, Function.update_self .., rfl, rfl, rfl⟩

theorem prompt_listen (hkept : Kept s) {o : Owner} {os : Os}
    (hl : (s.listen o id os).listeners p = some l) : l.Prompt := by
  refine prompt_update hkept.prompt ?_ hl
  intro l' hl'
  obtain rfl := Option.some.inj hl'
  exact ⟨Nat.zero_le _, fun _ => rfl⟩

theorem kept_getOrStart (hkept : Kept s) (id : Uuid) (os : Os) : Kept (s.getOrStart id os).1 := by
  rcases getOrStart_cases s id os with ⟨h, -⟩ | ⟨hnone, hopens, h⟩ | ⟨-, -, h⟩
  · rw [h]
    exact hkept
  · rw [h]
    constructor
    · intro o' id' q hnew
      rw [servers_setServer] at hnew
      split at hnew
      · rename_i hthis
        obtain rfl := Option.some.inj hnew
        rw [hthis.1, hthis.2]
        exact holds_listen_self s .registry id os
      · exact holds_listen hopens (hkept.served hnew)
    · intro id' q hmem
      refine ⟨holds_listen hopens (hkept.opened hmem).1, ?_⟩
      rw [servers_setServer, if_neg fun h => by cases h.1]
      exact (hkept.opened hmem).2
    · exact hkept.once
    · exact prompt_listen hkept
  · rw [h]
    exact hkept

/-- `connect` starts a server. -/
theorem kept_opened (hkept : Kept s) {os : Os} (hopens : s.opens id os = true) :
    Kept { s.listen .manager id os with opened := (id, s.portOf id os) :: s.opened } := by
  have hfree : ∀ {o' id'}, s.Holds o' id' (s.portOf id os) → False :=
    fun h => h.ne_portOf hopens rfl
  constructor
  · exact fun hserver => holds_listen hopens (hkept.served hserver)
  · intro id' q hmem
    rcases List.mem_cons.1 hmem with heq | hmem
    · obtain ⟨rfl, rfl⟩ := Prod.mk.inj heq
      exact ⟨holds_listen_self s .manager _ os, fun hserver => hfree (hkept.served hserver)⟩
    · exact ⟨holds_listen hopens (hkept.opened hmem).1, (hkept.opened hmem).2⟩
  · exact List.nodup_cons.2 ⟨fun hmem => hfree (hkept.opened hmem).1, hkept.once⟩
  · exact prompt_listen hkept

/-- It enters the server in the map. -/
theorem kept_entered (hkept : Kept s) (hmem : (id, p) ∈ s.opened) :
    Kept { s.setServer .manager id (some p) with opened := s.opened.erase (id, p) } := by
  have hp := hkept.opened hmem
  constructor
  · intro o' id' q hnew
    have hq : (s.setServer .manager id (some p)).servers o' id' = some q := hnew
    rw [servers_setServer] at hq
    split at hq
    · rename_i hthis
      obtain rfl := Option.some.inj hq
      rw [hthis.1, hthis.2]
      exact hp.1
    · exact hkept.served hq
  · intro id' q hother
    rcases hkept.once.mem_erase_iff.1 hother with ⟨hne, hother⟩
    refine ⟨(hkept.opened hother).1, ?_⟩
    show (s.setServer .manager id (some p)).servers .manager id' ≠ some q
    rw [servers_setServer]
    split
    · rename_i hthis
      intro heq
      obtain rfl := Option.some.inj heq
      exact hne (by rw [hthis.2])
    · exact (hkept.opened hother).2
  · exact hkept.once.erase _
  · exact hkept.prompt

theorem holds_looped {p q : UInt16} {next : Option Listener} {o : Owner}
    (hl : s.listeners p = some l) (hloops : Loops l next) (hq : s.Holds o id q) :
    { s with listeners := Function.update s.listeners p next }.Holds o id q := by
  by_cases hqp : q = p
  · subst hqp
    rcases hq with ⟨l', hl', hrunning, rfl, rfl⟩
    obtain rfl := Option.some.inj (hl.symm.trans hl')
    rcases hloops.isSome hrunning with ⟨l', rfl⟩
    rcases hloops.same with ⟨hrun, howner, hspace⟩
    exact ⟨l', Function.update_self .., hrun.trans hrunning, howner, hspace⟩
  · exact holds_of_ne hq hqp next

theorem kept_looped (hkept : Kept s) {next : Option Listener}
    (hl : s.listeners p = some l) (hloops : Loops l next) :
    Kept { s with listeners := Function.update s.listeners p next } where
  served hserver := holds_looped hl hloops (hkept.served hserver)
  opened hmem := ⟨holds_looped hl hloops (hkept.opened hmem).1, (hkept.opened hmem).2⟩
  once := hkept.once
  prompt := by
    refine fun hq => prompt_update hkept.prompt ?_ hq
    rintro l' rfl
    exact hloops.prompt (hkept.prompt hl)

/-- The other fields do not matter. -/
theorem Kept.of_eq (hkept : Kept s) (hlisteners : s'.listeners = s.listeners)
    (hservers : s'.servers = s.servers) (hopened : s'.opened = s.opened) : Kept s' := by
  constructor
  · intro o id p hserver
    rw [hservers] at hserver
    simpa only [St.Holds, hlisteners] using hkept.served hserver
  · intro id p hmem
    rw [hopened] at hmem
    simpa only [St.Holds, hlisteners, hservers] using hkept.opened hmem
  · rw [hopened]
    exact hkept.once
  · intro p l hl
    rw [hlisteners] at hl
    exact hkept.prompt hl

theorem kept_moved {a : Act} (hkept : Kept s) (h : Moved s a s') : Kept s' := by
  cases h with
  | created _ | deleted | rebased | gaveUp | refused _ | listed _ =>
    exact hkept.of_eq rfl rfl rfl
  | cleaned | disconnected | dropped _ => exact (kept_stop hkept _ _).of_eq rfl rfl rfl
  | opened hopens => exact (kept_opened hkept hopens).of_eq rfl rfl rfl
  | entered hmem => exact kept_entered hkept hmem
  | registered | kept _ => exact (kept_getOrStart hkept _ _).of_eq rfl rfl rfl
  | looped _ hl hloops => exact kept_looped hkept hl hloops

theorem kept_run {rows : List Uuid} {as : List Act}
    (hrun : run step (init base rows) as = some s) : Kept s :=
  run_preserves (fun _ _ _ hkept h => kept_moved hkept (step_moved h)) (kept_init base rows) hrun

/-- In every run each server of the two maps has a running task on its port, no two have the
same, and a task takes at most one connection after its server was stopped. -/
theorem servers_listen (base : UInt16) (rows : List Uuid) (as : List Act) (s : St)
    (hrun : run step (init base rows) as = some s) :
    (∀ o id p, s.servers o id = some p → s.Holds o id p) ∧
      (∀ o id o' id' p, s.servers o id = some p → s.servers o' id' = some p →
        o = o' ∧ id = id') ∧
      ∀ p l, s.listeners p = some l → l.late ≤ 1 := by
  have hkept := kept_run hrun
  refine ⟨fun o id p => hkept.served, ?_, ?_⟩
  · intro o id o' id' p h h'
    exact (hkept.served h).unique (hkept.served h')
  · intro p l hl
    have hle := (hkept.prompt hl).1
    omega

/-! ## While the base stays -/

def Act.setsBase : Act → Bool
  | .setBase _ => true
  | _ => false

@[simp] theorem rows_stop (s : St) (o : Owner) (id : Uuid) : (s.stop o id).rows = s.rows := by
  unfold St.stop
  split <;> rfl

@[simp] theorem pending_stop (s : St) (o : Owner) (id : Uuid) :
    (s.stop o id).pending = s.pending := by
  unfold St.stop
  split <;> rfl

@[simp] theorem rows_getOrStart (s : St) (id : Uuid) (os : Os) :
    (s.getOrStart id os).1.rows = s.rows := by
  unfold St.getOrStart
  split
  · rfl
  · split <;> rfl

@[simp] theorem pending_getOrStart (s : St) (id : Uuid) (os : Os) :
    (s.getOrStart id os).1.pending = s.pending := by
  unfold St.getOrStart
  split
  · rfl
  · split <;> rfl

/-- Ports are computed from this base, and every running task is that of a server in a map or
of a `connect` that enters it next. -/
structure Computed (base : UInt16) (s : St) : Prop where
  based : s.base = base
  port : ∀ {p l}, s.listeners p = some l → p = servicePort base l.space .file
  owned : ∀ {p l}, s.listeners p = some l → l.running = true →
    s.servers l.owner l.space = some p ∨ (l.owner = .manager ∧ (l.space, p) ∈ s.opened)

theorem computed_init (base : UInt16) (rows : List Uuid) : Computed base (init base rows) where
  based := rfl
  port := nofun
  owned := nofun

section Computed

variable {base : UInt16}

theorem computed_stop (hcomputed : Computed base s) (o : Owner) (id : Uuid) :
    Computed base (s.stop o id) := by
  unfold St.stop
  split
  · exact hcomputed
  · rename_i p hserver
    have hold : ∀ {q l}, Function.update s.listeners p
        ((s.listeners p).map fun l => { l with running := false }) q = some l →
        ∃ l₀, s.listeners q = some l₀ ∧ l.space = l₀.space ∧
          (l.running = true → q ≠ p ∧ l = l₀) := by
      intro q l hl
      by_cases hq : q = p
      · subst hq
        rw [Function.update_self] at hl
        rcases Option.map_eq_some_iff.1 hl with ⟨l₀, hl₀, rfl⟩
        exact ⟨l₀, hl₀, rfl, nofun⟩
      · rw [Function.update_of_ne hq] at hl
        exact ⟨l, hl, rfl, fun _ => ⟨hq, rfl⟩⟩
    constructor
    · exact hcomputed.based
    · intro q l hl
      rcases hold hl with ⟨l₀, hl₀, hspace, -⟩
      rw [hspace]
      exact hcomputed.port hl₀
    · intro q l hl hrunning
      rcases hold hl with ⟨l₀, hl₀, -, hsame⟩
      rcases hsame hrunning with ⟨hne, rfl⟩
      refine (hcomputed.owned hl₀ hrunning).imp_left fun hq => ?_
      show (s.setServer o id none).servers l.owner l.space = some q
      rw [servers_setServer, if_neg]
      · exact hq
      · rintro ⟨rfl, rfl⟩
        exact hne (Option.some.inj (hq.symm.trans hserver))

theorem computed_listen (hcomputed : Computed base s) {o : Owner} {id : Uuid} {os : Os}
    (hport : s.portFor id ≠ 0) {p : UInt16} {l : Listener}
    (hl : (s.listen o id os).listeners p = some l) :
    p = servicePort base l.space .file ∧
      (s.listeners p = some l ∨ (l = ⟨o, id, true, false, 0⟩ ∧ p = s.portOf id os)) := by
  have hl : Function.update s.listeners (s.portOf id os) (some ⟨o, id, true, false, 0⟩) p =
      some l := hl
  by_cases hp : p = s.portOf id os
  · subst hp
    rw [Function.update_self] at hl
    obtain rfl := Option.some.inj hl
    refine ⟨?_, Or.inr ⟨rfl, rfl⟩⟩
    rw [St.portOf, if_neg hport, St.portFor, hcomputed.based]
  · rw [Function.update_of_ne hp] at hl
    exact ⟨hcomputed.port hl, Or.inl hl⟩

theorem computed_getOrStart (hcomputed : Computed base s) (id : Uuid) (os : Os)
    (hport : s.portFor id ≠ 0) : Computed base (s.getOrStart id os).1 := by
  rcases getOrStart_cases s id os with ⟨h, -⟩ | ⟨hnone, hopens, h⟩ | ⟨-, -, h⟩
  · rw [h]
    exact hcomputed
  · rw [h]
    constructor
    · exact hcomputed.based
    · exact fun hl => (computed_listen hcomputed hport hl).1
    · intro p l hl hrunning
      rw [servers_setServer]
      rcases (computed_listen hcomputed hport hl).2 with hl | ⟨rfl, rfl⟩
      · refine (hcomputed.owned hl hrunning).imp_left fun hp => ?_
        rw [if_neg]
        · exact hp
        · rintro ⟨ho, hid⟩
          rw [ho, hid, hnone] at hp
          cases hp
      · rw [if_pos ⟨rfl, rfl⟩]
        exact Or.inl rfl
  · rw [h]
    exact hcomputed

theorem computed_opened (hcomputed : Computed base s) {id : Uuid} {os : Os}
    (hport : s.portFor id ≠ 0) :
    Computed base { s.listen .manager id os with opened := (id, s.portOf id os) :: s.opened } where
  based := hcomputed.based
  port hl := (computed_listen hcomputed hport hl).1
  owned hl hrunning := by
    rcases (computed_listen hcomputed hport hl).2 with hl | ⟨rfl, rfl⟩
    · exact (hcomputed.owned hl hrunning).imp_right fun h =>
        ⟨h.1, List.mem_cons_of_mem _ h.2⟩
    · exact Or.inr ⟨rfl, List.mem_cons_self⟩

theorem computed_entered (hkept : Kept s) (hcomputed : Computed base s) {id : Uuid} {p : UInt16}
    (hmem : (id, p) ∈ s.opened) :
    Computed base { s.setServer .manager id (some p) with opened := s.opened.erase (id, p) } where
  based := hcomputed.based
  port := hcomputed.port
  owned := by
    intro q l hl hrunning
    rcases (hkept.opened hmem).1 with ⟨l₀, hl₀, -, -, hspace⟩
    show (s.setServer .manager id (some p)).servers l.owner l.space = some q ∨
      (l.owner = .manager ∧ (l.space, q) ∈ s.opened.erase (id, p))
    rw [servers_setServer]
    by_cases hthis : l.owner = .manager ∧ l.space = id
    · -- both ports are computed from the same id
      have hpq : p = q := by
        rw [hcomputed.port hl₀, hcomputed.port hl, hspace, hthis.2]
      rw [if_pos hthis, hpq]
      exact Or.inl rfl
    · rw [if_neg hthis]
      refine (hcomputed.owned hl hrunning).imp_right fun h => ⟨h.1, ?_⟩
      refine (List.mem_erase_of_ne ?_).2 h.2
      intro heq
      exact hthis ⟨h.1, congrArg Prod.fst heq⟩

theorem computed_looped (hcomputed : Computed base s) {p : UInt16} {l : Listener}
    {next : Option Listener} (hl : s.listeners p = some l) (hloops : Loops l next) :
    Computed base { s with listeners := Function.update s.listeners p next } := by
  have hold : ∀ {q l'}, Function.update s.listeners p next q = some l' →
      ∃ l₀, s.listeners q = some l₀ ∧ l'.running = l₀.running ∧ l'.owner = l₀.owner ∧
        l'.space = l₀.space := by
    intro q l' hl'
    by_cases hq : q = p
    · subst hq
      rw [Function.update_self] at hl'
      subst hl'
      exact ⟨l, hl, hloops.same⟩
    · rw [Function.update_of_ne hq] at hl'
      exact ⟨l', hl', rfl, rfl, rfl⟩
  constructor
  · exact hcomputed.based
  · intro q l' hl'
    rcases hold hl' with ⟨l₀, hl₀, -, -, hspace⟩
    rw [hspace]
    exact hcomputed.port hl₀
  · intro q l' hl' hrunning
    rcases hold hl' with ⟨l₀, hl₀, hrun, howner, hspace⟩
    rw [howner, hspace]
    exact hcomputed.owned hl₀ (hrun.symm.trans hrunning)

theorem Computed.of_eq (hcomputed : Computed base s) (hbase : s'.base = s.base)
    (hlisteners : s'.listeners = s.listeners) (hservers : s'.servers = s.servers)
    (hopened : s'.opened = s.opened) : Computed base s' := by
  constructor
  · rw [hbase]
    exact hcomputed.based
  · rw [hlisteners]
    exact hcomputed.port
  · rw [hlisteners, hservers, hopened]
    exact hcomputed.owned

variable (hports : ∀ id, servicePort base id .file ≠ 0)
include hports

theorem computed_moved {a : Act} (hkept : Kept s) (hcomputed : Computed base s)
    (hsets : a.setsBase = false) (h : Moved s a s') : Computed base s' := by
  have hport : ∀ id, s.portFor id ≠ 0 := by
    intro id
    rw [St.portFor, hcomputed.based]
    exact hports id
  cases h with
  | rebased => cases hsets
  | created _ | deleted | gaveUp | refused _ | listed _ =>
    exact hcomputed.of_eq rfl rfl rfl rfl
  | cleaned | disconnected | dropped _ =>
    exact (computed_stop hcomputed _ _).of_eq rfl rfl rfl rfl
  | opened hopens => exact (computed_opened hcomputed (hport _)).of_eq rfl rfl rfl rfl
  | entered hmem => exact computed_entered hkept hcomputed hmem
  | registered | kept _ =>
    exact (computed_getOrStart hcomputed _ _ (hport _)).of_eq rfl rfl rfl rfl
  | looped _ hl hloops => exact computed_looped hcomputed hl hloops

theorem computed_run {rows : List Uuid} {as : List Act}
    (hsets : Along step (fun _ a => a.setsBase = false) (init base rows) as)
    (hrun : run step (init base rows) as = some s) : Kept s ∧ Computed base s :=
  run_invariant (fun _ s => Kept s ∧ Computed base s) (h := [])
    (fun _ _ _ _ hinv hsets h =>
      ⟨kept_moved hinv.1 (step_moved h), computed_moved hports hinv.1 hinv.2 hsets (step_moved h)⟩)
    ⟨kept_init base rows, computed_init base rows⟩ hsets hrun

end Computed

/-- One of the two components serves the space, is about to, or has not given back the port
on which it did. -/
def St.Busy (s : St) (id : Uuid) : Prop :=
  (∃ o, s.servers o id ≠ none) ∨ (∃ p, (id, p) ∈ s.opened) ∨
    ∃ p l, s.listeners p = some l ∧ l.space = id ∧ l.running = false

theorem servicePort_eq_iff : servicePort base id .file = servicePort base id' .file ↔
      id.toNat % 1000 = id'.toNat % 1000 := by
  rw [← Node.portOffset_eq_iff]
  exact UInt16.add_right_inj _

theorem servicePort_ne_zero (hlow : 0 < base.toNat)
    (hhigh : base.toNat + 999 < 65536) (id : Uuid) : servicePort base id .file ≠ 0 := by
  intro hzero
  have hsum : (base + portOffset id).toNat = 0 := congrArg UInt16.toNat hzero
  rw [UInt16.toNat_add, portOffset, UInt16.toNat_ofNat'] at hsum
  omega

theorem Kept.listener_of_busy (hkept : Kept s) (hbusy : s.Busy id) :
    ∃ p l, s.listeners p = some l ∧ l.space = id := by
  rcases hbusy with ⟨o, hserver⟩ | ⟨p, hmem⟩ | ⟨p, l, hl, hspace, -⟩
  · rcases Option.ne_none_iff_exists'.1 hserver with ⟨p, hp⟩
    rcases hkept.served hp with ⟨l, hl, -, -, hspace⟩
    exact ⟨p, l, hl, hspace⟩
  · rcases (hkept.opened hmem).1 with ⟨l, hl, -, -, hspace⟩
    exact ⟨p, l, hl, hspace⟩
  · exact ⟨p, l, hl, hspace⟩

theorem Computed.busy (hcomputed : Computed base s)
    (hl : s.listeners p = some l) : s.Busy l.space := by
  cases hrunning : l.running with
  | true =>
    rcases hcomputed.owned hl hrunning with hserver | ⟨-, hmem⟩
    · exact Or.inl ⟨l.owner, by rw [hserver]; exact nofun⟩
    · exact Or.inr (Or.inl ⟨p, hmem⟩)
  | false => exact Or.inr (Or.inr ⟨p, l, hl, rfl, hrunning⟩)

/-- In every run in which the configured base stays, and every port computed from it is one, a
server for a space cannot be started exactly if something else holds its port, or one of the
components serves a space whose id agrees modulo 1000, is about to, or has not given back its
port. -/
theorem not_opens_iff (base : UInt16) (hlow : 0 < base.toNat) (hhigh : base.toNat + 999 < 65536)
    (rows : List Uuid) (as : List Act) (s : St)
    (hsets : Along step (fun _ a => a.setsBase = false) (init base rows) as)
    (hrun : run step (init base rows) as = some s) (id : Uuid) (os : Os) :
    s.opens id os = false ↔ os.refused = true ∨
      ∃ id', id'.toNat % 1000 = id.toNat % 1000 ∧ s.Busy id' := by
  have hports := servicePort_ne_zero hlow hhigh
  rcases computed_run hports hsets hrun with ⟨hkept, hcomputed⟩
  have hport : s.portOf id os = servicePort base id .file := by
    rw [St.portOf, St.portFor, hcomputed.based, if_neg (hports id)]
  have hopens : s.opens id os = false ↔ os.refused = true ∨
      ∃ l, s.listeners (servicePort base id .file) = some l := by
    rw [St.opens, hport, Bool.and_eq_false_iff, Bool.not_eq_false', Option.isNone_eq_false_iff,
      Option.isSome_iff_exists]
  rw [hopens]
  refine or_congr_right ?_
  constructor
  · rintro ⟨l, hl⟩
    exact ⟨l.space, servicePort_eq_iff.1 (hcomputed.port hl).symm, hcomputed.busy hl⟩
  · rintro ⟨id', hid, hbusy⟩
    rcases hkept.listener_of_busy hbusy with ⟨p, l, hl, rfl⟩
    refine ⟨l, ?_⟩
    rw [← servicePort_eq_iff.2 hid, ← hcomputed.port hl]
    exact hl

/-! ## Deleted spaces -/

/-- What has become of the server of the registry. -/
theorem getOrStart_registry (h : s.servers .registry id = some p)
    (id' : Uuid) (os : Os) : (s.getOrStart id' os).1.servers .registry id = some p := by
  rcases getOrStart_cases s id' os with ⟨h', -⟩ | ⟨hnone, -, h'⟩ | ⟨-, -, h'⟩
  · rw [h']
    exact h
  · rw [h', servers_setServer, if_neg]
    · exact h
    · rintro ⟨-, rfl⟩
      rw [h] at hnone
      cases hnone
  · rw [h']
    exact h

theorem servers_stop (s : St) (o o' : Owner) (id id' : Uuid) :
    (s.stop o id).servers o' id' = if o' = o ∧ id' = id then none else s.servers o' id' := by
  unfold St.stop
  split
  · rename_i hnone
    split
    · rename_i hthis
      rw [hthis.1, hthis.2, hnone]
    · rfl
  · exact servers_setServer ..

/-- The registry serves a space that no sync will see. -/
structure Forgotten (id : Uuid) (p : UInt16) (s : St) : Prop where
  kept : Kept s
  server : s.servers .registry id = some p
  gone : id ∉ s.rows
  notPending : (id, false) ∉ s.pending

def Act.creates (id : Uuid) : Act → Bool
  | .create id' => id' = id
  | _ => false

theorem forgotten_step {a : Act} (h : Forgotten id p s)
    (hcreates : a.creates id = false) (hstep : step s a = some s') : Forgotten id p s' := by
  have hmoved := step_moved hstep
  have hkept := kept_moved h.kept hmoved
  -- the manager stops its own servers only
  have hmanager : ∀ id', (s.stop .manager id').servers .registry id = some p := by
    intro id'
    rw [servers_stop, if_neg fun h => by cases h.1]
    exact h.server
  cases hmoved with
  | created _ =>
    refine ⟨hkept, h.server, fun hmem => ?_, h.notPending⟩
    rcases List.mem_cons.1 hmem with heq | hmem
    · exact of_decide_eq_false hcreates heq.symm
    · exact h.gone hmem
  | deleted =>
    exact ⟨hkept, h.server, fun hmem => h.gone (List.mem_filter.1 hmem).1, h.notPending⟩
  | rebased | gaveUp | refused _ | opened _ | looped _ _ _ =>
    exact ⟨hkept, h.server, h.gone, h.notPending⟩
  | cleaned | disconnected =>
    refine ⟨hkept, hmanager _, ?_, ?_⟩
    · show id ∉ (s.stop .manager _).rows
      rw [rows_stop]
      exact h.gone
    · show (id, false) ∉ (s.stop .manager _).pending
      rw [pending_stop]
      exact h.notPending
  | @entered id' q _ =>
    refine ⟨hkept, ?_, h.gone, h.notPending⟩
    show (s.setServer .manager id' (some q)).servers .registry id = some p
    rw [servers_setServer, if_neg fun h => by cases h.1]
    exact h.server
  | registered =>
    refine ⟨hkept, getOrStart_registry h.server _ _, ?_, ?_⟩
    · rw [rows_getOrStart]
      exact h.gone
    · rw [pending_getOrStart]
      exact h.notPending
  | listed _ =>
    refine ⟨hkept, h.server, h.gone, ?_⟩
    intro hmem
    -- the sync asks for the spaces that have a row
    rcases List.mem_map.1 hmem with ⟨id', hrow, heq⟩
    obtain rfl : id' = id := congrArg Prod.fst heq
    exact h.gone hrow
  | kept hpending =>
    refine ⟨hkept, getOrStart_registry h.server _ _, ?_, ?_⟩
    · show id ∉ (s.getOrStart _ _).1.rows
      rw [rows_getOrStart]
      exact h.gone
    · intro hmem
      apply h.notPending
      rw [hpending]
      exact List.mem_cons_of_mem _ hmem
  | dropped hpending =>
    -- the registry stops the server of another space
    have hnot := h.notPending
    rw [hpending, List.mem_cons, not_or] at hnot
    rcases hnot with ⟨hne, hrest⟩
    refine ⟨hkept, ?_, ?_, hrest⟩
    · show (s.stop .registry _).servers .registry id = some p
      rw [servers_stop, if_neg]
      · exact h.server
      · rintro ⟨-, rfl⟩
        exact hne rfl
    · show id ∉ (s.stop .registry _).rows
      rw [rows_stop]
      exact h.gone

theorem Forgotten.not_opens (h : Forgotten id p s) (id' : Uuid) (os : Os)
    (hport : s.portOf id' os = p) : s.opens id' os = false := by
  rw [Bool.eq_false_iff]
  intro hopens
  exact (h.kept.served h.server).ne_portOf hopens hport.symm

/-- In every run, when a space is deleted that the registry serves, and no sync under way has
seen it disconnected, its server is never stopped and no other file server is ever started on
its port. -/
theorem deleted_served (base : UInt16) (rows : List Uuid) (as bs : List Act) (s : St)
    (hrun : run step (init base rows) as = some s) (id : Uuid) (p : UInt16)
    (hserver : s.servers .registry id = some p) (hgone : id ∉ s.rows)
    (hpending : (id, false) ∉ s.pending)
    (hcreates : Along step (fun _ a => a.creates id = false) s bs) :
    Always step (fun t => t.servers .registry id = some p ∧ t.Holds .registry id p ∧
      ∀ id' os, t.portOf id' os = p → t.opens id' os = false) s bs :=
  always_of_along
    (fun _ h => ⟨h.server, h.kept.served h.server, h.not_opens⟩)
    (fun _ _ _ h hcreates hstep => forgotten_step h hcreates hstep)
    ⟨kept_run hrun, hserver, hgone, hpending⟩ hcreates

/-! ## Syncs -/

/-- Only the sync uses the registry. -/
def Act.syncs : Act → Bool
  | .getOrStart .. | .list _ => false
  | _ => true

/-- The next space of the sync gets its server, if it is connected. -/
def St.starts (s : St) : Act → Bool
  | .next os =>
    match s.pending with
    | (id, true) :: _ => (s.servers .registry id).isSome || s.opens id os
    | _ => true
  | _ => true

section Syncs

variable (rows connected : List Uuid) (before : Uuid → Option UInt16)

/-- What a sync of these spaces has done: those still to come are pending, the others have a
server exactly if they were connected. -/
structure Synced (s : St) : Prop where
  listed : ∀ x ∈ s.pending, x.1 ∈ rows ∧ x.2 = decide (x.1 ∈ connected)
  done : ∀ id ∈ rows, (id, decide (id ∈ connected)) ∈ s.pending ∨
    (s.servers .registry id ≠ none ↔ id ∈ connected)
  others : ∀ id, id ∉ rows → s.servers .registry id = before id

variable {rows connected before}

theorem Synced.of_eq (h : Synced rows connected before s) (hpending : s'.pending = s.pending)
    (hservers : s'.servers .registry = s.servers .registry) :
    Synced rows connected before s' := by
  constructor
  · rw [hpending]
    exact h.listed
  · rw [hpending, hservers]
    exact h.done
  · rw [hservers]
    exact h.others

/-- The sync goes on. -/
theorem Synced.next (h : Synced rows connected before s) {id : Uuid} {now : Bool}
    {rest : List (Uuid × Bool)} (hpending : s.pending = (id, now) :: rest)
    (hrest : s'.pending = rest) (hserver : s'.servers .registry id ≠ none ↔ now = true)
    (hothers : ∀ id', id' ≠ id → s'.servers .registry id' = s.servers .registry id') :
    Synced rows connected before s' := by
  have hhead := h.listed (id, now) (by rw [hpending]; exact List.mem_cons_self)
  have hdone : s'.servers .registry id ≠ none ↔ id ∈ connected := by
    rw [hserver, show now = decide (id ∈ connected) from hhead.2, decide_eq_true_iff]
  constructor
  · intro x hx
    rw [hrest] at hx
    apply h.listed
    rw [hpending]
    exact List.mem_cons_of_mem _ hx
  · intro id' hid'
    by_cases heq : id' = id
    · subst heq
      exact Or.inr hdone
    · rw [hothers id' heq, hrest]
      refine (h.done id' hid').imp_left fun hmem => ?_
      rw [hpending] at hmem
      rcases List.mem_cons.1 hmem with hmem | hmem
      · exact absurd (congrArg Prod.fst hmem) heq
      · exact hmem
  · intro id' hid'
    have hne : id' ≠ id := by
      rintro rfl
      exact hid' hhead.1
    rw [hothers id' hne]
    exact h.others id' hid'

theorem synced_step {a : Act} (h : Synced rows connected before s) (hsyncs : a.syncs = true)
    (hstarts : s.starts a = true) (hstep : step s a = some s') : Synced rows connected before s' := by
  have hmanager : ∀ id, (s.stop .manager id).servers .registry = s.servers .registry := by
    intro id
    funext id'
    rw [servers_stop, if_neg fun h => by cases h.1]
  cases step_moved hstep with
  | created _ | deleted | rebased | gaveUp | refused _ | opened _ | looped _ _ _ =>
    exact h.of_eq rfl rfl
  | cleaned | disconnected => exact h.of_eq (pending_stop ..) (hmanager _)
  | @entered id p _ =>
    refine h.of_eq rfl (funext fun id' => ?_)
    show (s.setServer .manager id (some p)).servers .registry id' = _
    rw [servers_setServer, if_neg fun h => by cases h.1]
  | registered => cases hsyncs
  | listed _ => cases hsyncs
  | @kept os id rest hpending =>
    refine h.next hpending rfl ?_ ?_
    · refine iff_of_true ?_ rfl
      show (s.getOrStart id os).1.servers .registry id ≠ none
      rcases getOrStart_cases s id os with ⟨h', hsome⟩ | ⟨-, -, h'⟩ | ⟨hnone, hopens, h'⟩
      · rw [h']
        exact hsome
      · rw [h', servers_setServer, if_pos ⟨rfl, rfl⟩]
        exact nofun
      · -- the port can be opened, by assumption
        simp [St.starts, hpending, hnone, hopens] at hstarts
    · intro id' hne
      show (s.getOrStart id os).1.servers .registry id' = _
      rcases getOrStart_cases s id os with ⟨h', -⟩ | ⟨-, -, h'⟩ | ⟨-, -, h'⟩
      · rw [h']
      · rw [h', servers_setServer, if_neg fun h => hne h.2]
        rfl
      · rw [h']
  | @dropped os id rest hpending =>
    refine h.next hpending rfl ?_ ?_
    · show (s.stop .registry id).servers .registry id ≠ none ↔ _
      rw [servers_stop, if_pos ⟨rfl, rfl⟩]
      exact iff_of_false (fun h => h rfl) nofun
    · intro id' hne
      show (s.stop .registry id).servers .registry id' = _
      rw [servers_stop, if_neg fun h => hne h.2]

end Syncs

/-- A sync, interleaved with connects, disconnects, deletions and the tasks of the servers:
when it is through, and could start each server it had to, the registry has one exactly for
the spaces that were connected when it began, and for other spaces nothing has changed. -/
theorem sync_follows (s s₁ t : St) (connected : List Uuid) (bs : List Act)
    (hlist : step s (.list connected) = some s₁)
    (hsyncs : Along step (fun _ a => a.syncs = true) s₁ bs)
    (hstarts : Along step (fun u a => u.starts a = true) s₁ bs)
    (hrun : run step s₁ bs = some t) (hdone : t.pending = []) :
    (∀ id ∈ s.rows, t.servers .registry id ≠ none ↔ id ∈ connected) ∧
      ∀ id, id ∉ s.rows → t.servers .registry id = s.servers .registry id := by
  rcases Option.ite_none_right_eq_some.1 hlist with ⟨-, hs₁⟩
  obtain rfl := Option.some.inj hs₁
  have hbegun : Synced s.rows connected (s.servers .registry)
      { s with pending := s.rows.map fun id => (id, decide (id ∈ connected)) } := by
    constructor
    · intro x hx
      rcases List.mem_map.1 hx with ⟨id, hid, rfl⟩
      exact ⟨hid, rfl⟩
    · exact fun id hid => Or.inl (List.mem_map.2 ⟨id, hid, rfl⟩)
    · exact fun id _ => rfl
  have hsynced : Synced s.rows connected (s.servers .registry) t :=
    run_invariant (fun _ => Synced s.rows connected (s.servers .registry)) (h := [])
      (fun _ _ _ _ h ha hstep => synced_step h ha.1 ha.2 hstep) hbegun
      (along_and.2 ⟨hsyncs, hstarts⟩) hrun
  refine ⟨fun id hid => ?_, hsynced.others⟩
  rcases hsynced.done id hid with hpending | hiff
  · rw [hdone] at hpending
    cases hpending
  · exact hiff

/-! ## One port, two spaces -/

def granted : Os := ⟨0, false⟩

/-- Space 1 is connected, so its files cannot be received; when it is disconnected they can,
and then it cannot be connected. It is deleted. -/
def bothOwners : List Act := [
  .clean 1, .start 1 granted, .enter 1 19001, .check 19001, .getOrStart 1 granted,
  .disconnect 1, .accept 19001, .check 19001, .getOrStart 1 granted, .clean 1,
  .start 1 granted, .delete 1]

def bothOwnersEnd : St := (run step (init 19000 [1, 1001]) bothOwners).getD (init 0 [])

theorem run_bothOwners : run step (init 19000 [1, 1001]) bothOwners = some bothOwnersEnd := by
  have hsome : (run step (init 19000 [1, 1001]) bothOwners).isSome = true := by
    decide +kernel
  rcases Option.isSome_iff_exists.1 hsome with ⟨s, hs⟩
  rw [bothOwnersEnd, hs, Option.getD_some]

theorem server_bothOwners : bothOwnersEnd.servers .registry 1 = some 19001 := by
  decide +kernel

theorem servers_listen_two :
    (∀ o id p, bothOwnersEnd.servers o id = some p → bothOwnersEnd.Holds o id p) ∧
      (∀ o id o' id' p, bothOwnersEnd.servers o id = some p →
        bothOwnersEnd.servers o' id' = some p → o = o' ∧ id = id') ∧
      ∀ p l, bothOwnersEnd.listeners p = some l → l.late ≤ 1 :=
  servers_listen 19000 [1, 1001] bothOwners bothOwnersEnd run_bothOwners

/-- The other space has the same port. -/
theorem not_opens_iff_two :
    bothOwnersEnd.opens 1001 granted = false ↔ granted.refused = true ∨
      ∃ id', id'.toNat % 1000 = (1001 : Uuid).toNat % 1000 ∧ bothOwnersEnd.Busy id' :=
  not_opens_iff 19000 (by decide) (by decide) [1, 1001] bothOwners bothOwnersEnd
    (by decide +kernel) run_bothOwners 1001 granted

theorem deleted_served_two :
    Always step (fun t => t.servers .registry 1 = some 19001 ∧ t.Holds .registry 1 19001 ∧
      ∀ id' os, t.portOf id' os = 19001 → t.opens id' os = false) bothOwnersEnd
      [.list [1001], .next granted] :=
  deleted_served 19000 [1, 1001] bothOwners [.list [1001], .next granted] bothOwnersEnd
    run_bothOwners 1 19001 server_bothOwners (by decide +kernel) (by decide +kernel)
    (by decide +kernel)

def served : List Act := [.next granted, .check 19001, .next granted]

def begun : St := ((step (init 19000 [1, 2]) (.list [1])).getD (init 0 []))

def servedEnd : St := (run step begun served).getD (init 0 [])

theorem run_served : run step begun served = some servedEnd := by
  have hsome : (run step begun served).isSome = true := by
    decide +kernel
  rcases Option.isSome_iff_exists.1 hsome with ⟨s, hs⟩
  rw [servedEnd, hs, Option.getD_some]

theorem sync_follows_two :
    (∀ id ∈ [1, 2], servedEnd.servers .registry id ≠ none ↔ id ∈ [1]) ∧
      ∀ id, id ∉ [1, 2] →
        servedEnd.servers .registry id = (init 19000 [1, 2]).servers .registry id :=
  sync_follows (init 19000 [1, 2]) begun servedEnd [1] served rfl (by decide +kernel)
    (by decide +kernel) run_served (by decide +kernel)

end HomeTier.FilePorts
