import HomeTier.Lib.Table
import HomeTier.Lib.Uuid
import HomeTier.Lib.Trace
import HomeTier.EasyTier.Manager

/-! # TUN injection on mobile

`connect`, `disconnect`, `leave` and `set_tun_fd` of the mobile `SpaceManager`
(`src-tauri/src/space/manager.rs`) over the mobile `EasyTierManager`
(`easytier/mod.rs`), with the channel of an instance (`easytier/src/launcher.rs`).
The VPN service creates a TUN, closes the previous one, and passes the number
of its descriptor; the kernel may give a new TUN the number of a closed one.

`set_tun_fd` remembers the number it injected last for a space and takes the
same number for a repeated request. Only `disconnect` forgets it. So a new TUN
reaches the running instance exactly when it does not have the number injected
last since the space was disconnected (`injects_iff`).
-/

namespace HomeTier

open Lib

namespace TunInjection

/-- A file descriptor, `RawFd`. -/
abbrev Fd := Int32

/-- TUNs are told apart by the order in which they were created. -/
abbrev Tun := Nat

/-! ## Instances -/

/-- The channel a launcher takes TUN descriptors from: the numbers that wait in
it, and the TUNs they stood for when they were accepted. -/
structure TunChannel where
  queued : List Fd
  received : List Tun
  closed : Bool
deriving DecidableEq

def TunChannel.new : TunChannel := ⟨[], [], false⟩

/-- `NetworkInstance`; `start` makes the launcher. -/
structure NetworkInstance where
  launcher : Option TunChannel
deriving DecidableEq

structure RunningInstance where
  instanceId : Uuid
  networkInstance : Option NetworkInstance
deriving DecidableEq

/-- `mpsc::channel(16)` -/
def channelCapacity : Nat := 16

/-- `try_send`: `fd` stands for `tun`, if there is a TUN of that number. -/
def TunChannel.trySend (ch : TunChannel) (fd : Fd) (tun : Option Tun) : Except Str TunChannel :=
  if ch.closed then .error "channel closed".toList
  else if channelCapacity ≤ ch.queued.length then .error "no available capacity".toList
  else .ok { ch with queued := ch.queued ++ [fd], received := ch.received ++ tun.toList }

def RunningInstance.received (i : RunningInstance) : List Tun :=
  ((i.networkInstance.bind (·.launcher)).map (·.received)).getD []

/-! ## State and operations -/

/-- What has been injected, and when a space was disconnected. -/
inductive Event where
  | injected (space : Uuid) (fd : Fd) (tun : Option Tun)
  | disconnected (space : Uuid)
deriving DecidableEq

/-- The space manager with its network manager, and the descriptors of the
process; `history` is read by no operation. -/
structure App where
  spaces : List Uuid
  instances : List RunningInstance
  tunInjected : Uuid → Option Fd
  tuns : Nat
  opened : Fd → Option Tun
  history : List Event

def App.instanceOf (s : App) (space : Uuid) : Option RunningInstance :=
  s.instances.find? (·.instanceId = space)

/-- `EasyTierManager::stop_network`; stopping an instance cannot fail. -/
def stopNetwork (s : App) (space : Uuid) : App :=
  { s with instances := deleteKey (·.instanceId) space s.instances }

/-- The three attempts of `start_network`, from number `k` on. -/
def startAttempts (attempt : Nat → Except Str Unit) : Nat → Nat → Str → Except Str Unit
  | _, 0, lastError => .error ("启动网络实例失败 (Mobile, 重试耗尽): ".toList ++ lastError)
  | k, left + 1, _ =>
    match attempt k with
    | .ok () => .ok ()
    | .error e =>
      startAttempts attempt (k + 1) left
        ("尝试 ".toList ++ (toString (k + 1)).toList ++ "/3 失败: ".toList ++ e)

def startNetwork (s : App) (space : Uuid) (attempt : Nat → Except Str Unit) :
    Except Str Unit × App :=
  let s := if (s.instanceOf space).isSome then stopNetwork s space else s
  match startAttempts attempt 0 3 [] with
  | .error e => (.error e, s)
  | .ok () =>
    (.ok (), { s with instances := upsert (·.instanceId) ⟨space, some ⟨some .new⟩⟩ s.instances })

/-- `SpaceManager::connect`: all running instances are stopped first. -/
def connect (s : App) (space : Uuid) (attempt : Nat → Except Str Unit) : Except Str Unit × App :=
  let s := (s.instances.map (·.instanceId)).foldl stopNetwork s
  if s.spaces.contains space then startNetwork s space attempt
  else (.error "Space not found".toList, s)

/-- `SpaceManager::disconnect` -/
def disconnect (s : App) (space : Uuid) : App :=
  let s := stopNetwork s space
  { s with
    tunInjected := Function.update s.tunInjected space none
    history := s.history ++ [.disconnected space] }

/-- `SpaceManager::leave` -/
def leave (s : App) (space : Uuid) : App :=
  if (s.instanceOf space).isSome then stopNetwork s space else s

/-- The channel of the running instance of a space. -/
def tunFdSender (s : App) (space : Uuid) : Except Str TunChannel :=
  match s.instanceOf space with
  | none => .error ("Instance not found: ".toList ++ uuidText space)
  | some running =>
    match running.networkInstance with
    | none => .error "Running instance not initialized".toList
    | some inst =>
      match inst.launcher with
      | none => .error "TUN fd sender not available".toList
      | some ch => .ok ch

/-- The instances with another channel for one space. -/
def setChannel (space : Uuid) (ch : TunChannel) (instances : List RunningInstance) :
    List RunningInstance :=
  instances.map fun i =>
    if i.instanceId = space then { i with networkInstance := some ⟨some ch⟩ } else i

/-- `EasyTierManager::set_tun_fd` -/
def injectTunFd (s : App) (space : Uuid) (fd : Fd) : Except Str App :=
  match tunFdSender s space with
  | .error e => .error e
  | .ok ch =>
    match ch.trySend fd (s.opened fd) with
    | .error e => .error ("Failed to send TUN fd: ".toList ++ e)
    | .ok ch =>
      .ok { s with
        instances := setChannel space ch s.instances
        history := s.history ++ [.injected space fd (s.opened fd)] }

/-- `SpaceManager::set_tun_fd` -/
def setTunFd (s : App) (space : Uuid) (fd : Fd) : Except Str Unit × App :=
  if s.tunInjected space = some fd then (.ok (), s)
  else
    match injectTunFd s space fd with
    | .error e => (.error e, s)
    | .ok s => (.ok (), { s with tunInjected := Function.update s.tunInjected space (some fd) })

/-! ## Runs -/

inductive Act where
  | connect (space : Uuid) (attempt : Nat → Except Str Unit)
  | disconnect (space : Uuid)
  | leave (space : Uuid)
  | setTunFd (space : Uuid) (fd : Fd)
  /-- The VPN service creates a TUN; the kernel picks a free number. -/
  | establish (fd : Fd)
  | close (fd : Fd)
  /-- The instance takes a number from its channel. -/
  | receive (space : Uuid)
  /-- The instance gives up its channel. -/
  | giveUp (space : Uuid)

def step (s : App) : Act → Option App
  | .connect space attempt => some (connect s space attempt).2
  | .disconnect space => some (disconnect s space)
  | .leave space => some (leave s space)
  | .setTunFd space fd => some (setTunFd s space fd).2
  | .establish fd =>
    if (s.opened fd).isSome then none
    else some { s with tuns := s.tuns + 1, opened := Function.update s.opened fd (some s.tuns) }
  | .close fd => some { s with opened := Function.update s.opened fd none }
  | .receive space =>
    match tunFdSender s space with
    | .error _ => none
    | .ok ch =>
      some { s with instances := setChannel space { ch with queued := ch.queued.tail } s.instances }
  | .giveUp space =>
    match tunFdSender s space with
    | .error _ => none
    | .ok ch => some { s with instances := setChannel space { ch with closed := true } s.instances }

/-- The app right after its start. -/
def start (spaces : List Uuid) : App where
  spaces := spaces
  instances := []
  tunInjected := fun _ => none
  tuns := 0
  opened := fun _ => none
  history := []

/-! ## What has been injected -/

/-- The TUNs injected into instances of a space. -/
def injectedInto (space : Uuid) (history : List Event) : List Tun :=
  history.flatMap fun
    | .injected space' _ tun => if space' = space then tun.toList else []
    | .disconnected _ => []

/-- The number injected last since the space was disconnected. -/
def lastNumber (space : Uuid) (history : List Event) : Option Fd :=
  history.foldl
    (fun last e =>
      match e with
      | .injected space' fd _ => if space' = space then some fd else last
      | .disconnected space' => if space' = space then none else last)
    none

/-- A TUN that was created after every TUN injected into the space. -/
def Newer (s : App) (space : Uuid) (tun : Tun) : Prop :=
  ∀ earlier ∈ injectedInto space s.history, earlier < tun

/-- A `set_tun_fd` that returns `Ok` for a new TUN has given it to the instance
that runs. -/
def Injects (s : App) : Act → Prop
  | .setTunFd space fd =>
    ∀ tun, s.opened fd = some tun → Newer s space tun → (setTunFd s space fd).1 = .ok () →
      ∃ running, (setTunFd s space fd).2.instanceOf space = some running ∧ tun ∈ running.received
  | _ => True

/-- A new TUN does not have the number injected last since the space was
disconnected. -/
def Renumbered (s : App) : Act → Prop
  | .setTunFd space fd =>
    ∀ tun, s.opened fd = some tun → Newer s space tun → lastNumber space s.history ≠ some fd
  | _ => True

@[simp] theorem lastNumber_injected (space space' : Uuid) (fd : Fd) (tun : Option Tun)
    (history : List Event) :
    lastNumber space (history ++ [.injected space' fd tun]) =
      if space' = space then some fd else lastNumber space history := by
  simp [lastNumber]

@[simp] theorem lastNumber_disconnected (space space' : Uuid) (history : List Event) :
    lastNumber space (history ++ [.disconnected space']) =
      if space' = space then none else lastNumber space history := by
  simp [lastNumber]

@[simp] theorem injectedInto_append (space : Uuid) (history history' : List Event) :
    injectedInto space (history ++ history') =
      injectedInto space history ++ injectedInto space history' := by
  simp [injectedInto]

/-! ## Instances and their channels -/

theorem mem_of_tunFdSender {s : App} {space : Uuid} {ch : TunChannel}
    (h : tunFdSender s space = .ok ch) :
    ∃ running ∈ s.instances, running.instanceId = space ∧ running.received = ch.received ∧
      s.instanceOf space = some running := by
  unfold tunFdSender at h
  split at h
  · cases h
  · rename_i running hrunning
    split at h
    · cases h
    · rename_i inst hinst
      split at h
      · cases h
      · rename_i ch' hch
        obtain rfl : ch' = ch := Except.ok.inj h
        refine ⟨running, List.mem_of_find?_eq_some hrunning, ?_, ?_, hrunning⟩
        · simpa using List.find?_some hrunning
        · simp [RunningInstance.received, hinst, hch]

/-- The other instances keep their channels. -/
theorem mem_setChannel {space : Uuid} {ch : TunChannel} {instances : List RunningInstance}
    {i : RunningInstance} (h : i ∈ setChannel space ch instances) :
    i ∈ instances ∨ (i.instanceId = space ∧ i.received = ch.received) := by
  rcases List.mem_map.1 h with ⟨j, hj, rfl⟩
  by_cases hspace : j.instanceId = space
  · right
    rw [if_pos hspace]
    exact ⟨hspace, rfl⟩
  · left
    rw [if_neg hspace]
    exact hj

theorem instanceOf_setChannel {s : App} {space : Uuid} {running : RunningInstance}
    (h : s.instanceOf space = some running) (ch : TunChannel) :
    (setChannel space ch s.instances).find? (·.instanceId = space) =
      some { running with networkInstance := some ⟨some ch⟩ } := by
  have hkey : ∀ i : RunningInstance,
      (decide ((if i.instanceId = space then { i with networkInstance := some ⟨some ch⟩ }
        else i).instanceId = space)) = decide (i.instanceId = space) := by
    intro i
    by_cases hi : i.instanceId = space <;> simp [hi]
  have hrunning : running.instanceId = space := by simpa using List.find?_some h
  rw [setChannel, List.find?_map]
  have hcomp : ((fun i : RunningInstance => decide (i.instanceId = space)) ∘ fun i =>
      if i.instanceId = space then { i with networkInstance := some ⟨some ch⟩ } else i) =
      fun i => decide (i.instanceId = space) := funext hkey
  rw [hcomp, show s.instances.find? (fun i => decide (i.instanceId = space)) = some running from h]
  simp [hrunning]

theorem TunChannel.trySend_cases (ch : TunChannel) (fd : Fd) (tun : Option Tun) :
    (∃ e, ch.trySend fd tun = .error e) ∨
      ∃ ch', ch'.received = ch.received ++ tun.toList ∧ ch.trySend fd tun = .ok ch' := by
  unfold trySend
  split
  · exact .inl ⟨_, rfl⟩
  split
  · exact .inl ⟨_, rfl⟩
  · refine .inr ⟨_, ?_, rfl⟩
    rfl

/-- What `set_tun_fd` can do. -/
theorem setTunFd_cases (s : App) (space : Uuid) (fd : Fd) :
    (s.tunInjected space = some fd ∧ setTunFd s space fd = (.ok (), s)) ∨
    (s.tunInjected space ≠ some fd ∧ ∃ e, setTunFd s space fd = (.error e, s)) ∨
    (s.tunInjected space ≠ some fd ∧ ∃ ch ch', tunFdSender s space = .ok ch ∧
      ch'.received = ch.received ++ (s.opened fd).toList ∧
      setTunFd s space fd = (.ok (), { s with
        instances := setChannel space ch' s.instances
        history := s.history ++ [.injected space fd (s.opened fd)]
        tunInjected := Function.update s.tunInjected space (some fd) })) := by
  by_cases hrec : s.tunInjected space = some fd
  · left
    exact ⟨hrec, if_pos hrec⟩
  right
  rw [setTunFd, if_neg hrec, injectTunFd]
  cases hsender : tunFdSender s space with
  | error e => exact .inl ⟨hrec, e, rfl⟩
  | ok ch =>
    rcases ch.trySend_cases fd (s.opened fd) with ⟨e, he⟩ | ⟨ch', hreceived, hsent⟩
    · exact .inl ⟨hrec, "Failed to send TUN fd: ".toList ++ e, by simp only [he]⟩
    · exact .inr ⟨hrec, ch, ch', rfl, hreceived, by simp only [hsent]⟩

/-! ## What the records say -/

/-- The number recorded for a space is the last one injected, and an instance
has received only what was injected into its space. -/
structure Recorded (s : App) : Prop where
  number : ∀ space, s.tunInjected space = lastNumber space s.history
  received : ∀ i ∈ s.instances, ∀ tun ∈ i.received, tun ∈ injectedInto i.instanceId s.history

/-- An operation that only stops instances, or starts new ones. -/
structure Restarts (s s' : App) : Prop where
  tunInjected : s'.tunInjected = s.tunInjected
  history : s'.history = s.history
  instances : ∀ i ∈ s'.instances, i ∈ s.instances ∨ i.received = []

theorem Restarts.refl (s : App) : Restarts s s := ⟨rfl, rfl, fun _ hi => .inl hi⟩

theorem Restarts.trans {s s' s'' : App} (h : Restarts s s') (h' : Restarts s' s'') :
    Restarts s s'' := by
  refine ⟨h'.tunInjected.trans h.tunInjected, h'.history.trans h.history, ?_⟩
  intro i hi
  rcases h'.instances i hi with hi | hi
  · exact h.instances i hi
  · exact .inr hi

theorem restarts_stopNetwork (s : App) (space : Uuid) : Restarts s (stopNetwork s space) :=
  ⟨rfl, rfl, fun _ hi => .inl (mem_deleteKey.1 hi).1⟩

theorem restarts_stopAll (ids : List Uuid) (s : App) : Restarts s (ids.foldl stopNetwork s) := by
  induction ids generalizing s with
  | nil => exact Restarts.refl s
  | cons id ids ih => exact (restarts_stopNetwork s id).trans (ih _)

theorem restarts_startNetwork (s : App) (space : Uuid) (attempt : Nat → Except Str Unit) :
    Restarts s (startNetwork s space attempt).2 := by
  unfold startNetwork
  have hstop : Restarts s (if (s.instanceOf space).isSome then stopNetwork s space else s) := by
    split
    · exact restarts_stopNetwork s space
    · exact Restarts.refl s
  generalize (if (s.instanceOf space).isSome then stopNetwork s space else s) = t at hstop
  cases startAttempts attempt 0 3 [] with
  | error e => exact hstop
  | ok _ =>
    refine hstop.trans ⟨rfl, rfl, ?_⟩
    intro i hi
    rcases mem_upsert.1 hi with ⟨hi, -⟩ | rfl
    · exact .inl hi
    · exact .inr rfl

theorem restarts_connect (s : App) (space : Uuid) (attempt : Nat → Except Str Unit) :
    Restarts s (connect s space attempt).2 := by
  unfold connect
  have hstop := restarts_stopAll (s.instances.map (·.instanceId)) s
  generalize (s.instances.map (·.instanceId)).foldl stopNetwork s = t at hstop
  by_cases hspace : t.spaces.contains space = true
  · simp only [hspace, if_true]
    exact hstop.trans (restarts_startNetwork t space attempt)
  · simp only [hspace]
    exact hstop

theorem restarts_leave (s : App) (space : Uuid) : Restarts s (leave s space) := by
  unfold leave
  split
  · exact restarts_stopNetwork s space
  · exact Restarts.refl s

theorem Recorded.restarts {s s' : App} (h : Recorded s) (h' : Restarts s s') : Recorded s' := by
  constructor
  · intro space
    rw [h'.tunInjected, h'.history]
    exact h.number space
  · intro i hi tun htun
    rw [h'.history]
    rcases h'.instances i hi with hi | hnew
    · exact h.received i hi tun htun
    · simp [hnew] at htun

theorem Recorded.disconnect {s : App} (h : Recorded s) (space : Uuid) :
    Recorded (disconnect s space) := by
  constructor
  · intro space'
    show Function.update s.tunInjected space none space' = _
    rw [TunInjection.disconnect, lastNumber_disconnected]
    by_cases hspace : space' = space
    · rw [hspace, Function.update_self, if_pos rfl]
    · rw [Function.update_of_ne hspace, if_neg (Ne.symm hspace)]
      exact h.number space'
  · intro i hi tun htun
    have hi' : i ∈ s.instances := (mem_deleteKey.1 hi).1
    show tun ∈ injectedInto _ (s.history ++ _)
    rw [injectedInto_append]
    exact List.mem_append_left _ (h.received i hi' tun htun)

/-- A change of a channel that is not a new TUN. -/
theorem Recorded.setChannel {s : App} (h : Recorded s) {space : Uuid} {ch ch' : TunChannel}
    (hsender : tunFdSender s space = .ok ch) (hreceived : ch'.received = ch.received) :
    Recorded { s with instances := setChannel space ch' s.instances } := by
  refine ⟨h.number, ?_⟩
  intro i hi tun htun
  rcases mem_setChannel hi with hi | ⟨hspace, hch⟩
  · exact h.received i hi tun htun
  · rcases mem_of_tunFdSender hsender with ⟨running, hmem, hid, heq, -⟩
    rw [hspace, ← hid]
    apply h.received running hmem
    rw [heq, ← hreceived, ← hch]
    exact htun

theorem Recorded.setTunFd {s : App} (h : Recorded s) (space : Uuid) (fd : Fd) :
    Recorded (setTunFd s space fd).2 := by
  rcases setTunFd_cases s space fd with ⟨-, heq⟩ | ⟨-, e, heq⟩ |
    ⟨-, ch, ch', hsender, hreceived, heq⟩
  · rw [heq]
    exact h
  · rw [heq]
    exact h
  rw [heq]
  constructor
  · intro space'
    show Function.update s.tunInjected space (some fd) space' = lastNumber space' (s.history ++ _)
    rw [lastNumber_injected]
    by_cases hspace : space' = space
    · rw [hspace, Function.update_self, if_pos rfl]
    · rw [Function.update_of_ne hspace, if_neg (Ne.symm hspace)]
      exact h.number space'
  · intro i hi tun htun
    show tun ∈ injectedInto _ (s.history ++ _)
    rw [injectedInto_append]
    rcases mem_setChannel hi with hi | ⟨hspace, hch⟩
    · exact List.mem_append_left _ (h.received i hi tun htun)
    rw [hch, hreceived] at htun
    rcases List.mem_append.1 htun with hold | hnew
    · -- received before this call
      rcases mem_of_tunFdSender hsender with ⟨running, hmem, hid, hrunning, -⟩
      apply List.mem_append_left
      rw [hspace, ← hid]
      apply h.received running hmem
      rw [hrunning]
      exact hold
    · apply List.mem_append_right
      simpa [injectedInto, hspace] using hnew

theorem recorded_step {s s' : App} {a : Act} (h : Recorded s) (hstep : step s a = some s') :
    Recorded s' := by
  cases a with
  | connect space attempt =>
    obtain rfl := Option.some.inj hstep
    exact h.restarts (restarts_connect s space attempt)
  | disconnect space =>
    obtain rfl := Option.some.inj hstep
    exact h.disconnect space
  | leave space =>
    obtain rfl := Option.some.inj hstep
    exact h.restarts (restarts_leave s space)
  | setTunFd space fd =>
    obtain rfl := Option.some.inj hstep
    exact h.setTunFd space fd
  | establish fd =>
    simp only [step] at hstep
    split at hstep
    · cases hstep
    · obtain rfl := Option.some.inj hstep
      exact ⟨h.number, h.received⟩
  | close fd =>
    obtain rfl := Option.some.inj hstep
    exact ⟨h.number, h.received⟩
  | receive | giveUp =>
    simp only [step] at hstep
    split at hstep
    · cases hstep
    · rename_i ch hsender
      obtain rfl := Option.some.inj hstep
      exact h.setChannel hsender rfl

theorem recorded_start (spaces : List Uuid) : Recorded (start spaces) :=
  ⟨fun _ => rfl, fun i hi => by simp [start] at hi⟩

/-! ## New TUNs -/

/-- The instance a request is passed on to receives the TUN. -/
theorem received_of_sent {s : App} {space : Uuid} {fd : Fd} {tun : Tun} {ch ch' : TunChannel}
    (hopened : s.opened fd = some tun) (hsender : tunFdSender s space = .ok ch)
    (hreceived : ch'.received = ch.received ++ (s.opened fd).toList) :
    ∃ running, (setChannel space ch' s.instances).find? (·.instanceId = space) = some running ∧
      tun ∈ running.received := by
  rcases mem_of_tunFdSender hsender with ⟨running, -, -, -, hrunning⟩
  refine ⟨_, instanceOf_setChannel hrunning ch', ?_⟩
  show tun ∈ ch'.received
  rw [hreceived, hopened]
  simp

theorem injects_iff_renumbered {s : App} (h : Recorded s) (a : Act) :
    Injects s a ↔ Renumbered s a := by
  cases a with
  | setTunFd space fd =>
    constructor
    · intro hinjects tun hopened hnewer hlast
      have hrec : s.tunInjected space = some fd := (h.number space).trans hlast
      have hnoop : setTunFd s space fd = (.ok (), s) := if_pos hrec
      rcases hinjects tun hopened hnewer (by rw [hnoop]) with ⟨running, hrunning, htun⟩
      rw [hnoop] at hrunning
      -- the running instance is as before, so it has only older TUNs
      have hmem : running ∈ s.instances := List.mem_of_find?_eq_some hrunning
      have hid : running.instanceId = space := by simpa using List.find?_some hrunning
      have hinjected := h.received running hmem tun htun
      rw [hid] at hinjected
      exact absurd (hnewer tun hinjected) (lt_irrefl tun)
    · intro hrenumbered tun hopened hnewer hok
      have hrec : s.tunInjected space ≠ some fd := by
        rw [h.number space]
        exact hrenumbered tun hopened hnewer
      rcases setTunFd_cases s space fd with ⟨heq, -⟩ | ⟨-, e, heq⟩ |
        ⟨-, ch, ch', hsender, hreceived, heq⟩
      · exact absurd heq hrec
      · rw [heq] at hok
        cases hok
      · rw [heq]
        exact received_of_sent hopened hsender hreceived
  | _ => exact Iff.rfl

/-- Along every run, each `Ok` for a new TUN means that the running instance
has received it, exactly when no new TUN has the number injected last since
the space was disconnected. -/
theorem injects_iff (spaces : List Uuid) (as : List Act) :
    Along step Injects (start spaces) as ↔ Along step Renumbered (start spaces) as :=
  along_congr (fun _ _ _ => recorded_step) (fun _ a h => injects_iff_renumbered h a)
    (recorded_start spaces)

/-- A space that is connected again with a TUN of the same number. -/
def reconnected : List Act :=
  [.connect 1 fun _ => .ok (), .establish 3, .setTunFd 1 3, .connect 1 fun _ => .ok (), .close 3,
    .establish 3]

/-- The record is still there, and the instance is a new one. -/
def reconnectedApp : App where
  spaces := [1]
  instances := [⟨1, some ⟨some .new⟩⟩]
  tunInjected := Function.update (fun _ => none) 1 (some 3)
  tuns := 2
  opened :=
    Function.update (Function.update (Function.update (fun _ => none) 3 (some 0)) 3 none) 3 (some 1)
  history := [.injected 1 3 (some 0)]

theorem run_reconnected : run step (start [1]) reconnected = some reconnectedApp := rfl

theorem reconnected_not_injected : ¬ ∀ (spaces : List Uuid) (as : List Act),
    Along step Injects (start spaces) as := by
  intro h
  have hlast := (h [1] (reconnected ++ [.setTunFd 1 3])).of_append run_reconnected rfl
  have hnewer : Newer reconnectedApp 1 1 := by
    intro earlier hearlier
    obtain rfl : earlier = 0 := by simpa [reconnectedApp, injectedInto] using hearlier
    exact Nat.zero_lt_one
  rcases hlast 1 rfl hnewer rfl with ⟨running, hrunning, htun⟩
  obtain rfl := Option.some.inj hrunning
  cases htun

end TunInjection

end HomeTier
