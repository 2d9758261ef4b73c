import HomeTier.EasyTier.Request
import HomeTier.Space.Services

/-! # A connect that fails

`SpaceManager::connect` of the desktop (`src-tauri/src/space/manager.rs`) with
every answer its steps can get: the daemon may not be ready, the configuration
unreadable, the request to the daemon lost before or after it is served, and
every server may fail to start. Nothing is undone on the way out.

1. A connect that succeeds does what `SpaceManager.connect` says
   (`connect_ok`).
2. A connect that fails leaves nothing of its space exactly when it is
   `Harmless`: it fails before or at the request to the daemon, nothing of the
   space was there before, and what the daemon did starts nothing and leaves no
   file (`failed_connect_iff`). When a server fails to start, the network of the
   space always stays (`network_left_running`).
-/

namespace HomeTier

open Lib EasyTierManager

/-- The manager, and the files of the daemon by which it lists its spaces. -/
structure Desktop extends SpaceManager where
  toml : Finset Uuid
  json : Finset Uuid

/-- How a request to the daemon goes. The texts are those of the errors. -/
inductive IpcCall where
  | notSent (e : Str)
  /-- The daemon does not accept the request. -/
  | refused (message : Str)
  /-- It is served, with these answers to its steps. -/
  | answered (acts : List Act) (message : Str)
  /-- It is served, and the response does not arrive. -/
  | lost (acts : List Act) (e : Str)

inductive IpcResponse where
  | ok
  | error (message : Str)

/-- What the steps of a connect are answered. -/
structure ConnectAnswers where
  pings : Nat → Bool
  /-- The files of the daemon in some order, each with the request to stop it. -/
  listing : Option (List (Uuid × IpcCall))
  /-- `get_effective_config`, and its result as JSON -/
  config : Except Str Unit
  request : IpcCall
  fileBase : UInt16
  /-- Why a server cannot listen on a port. -/
  bind : Service → UInt16 → Option Str

/-- `wait_daemon_ready` after a ping without answer -/
def ConnectAnswers.ready (a : ConnectAnswers) : Bool :=
  a.pings 0 || (List.range 50).any fun i => a.pings (i + 1)

namespace Desktop

variable (h : Desktop) (s : Uuid) (a : ConnectAnswers)

/-- What `list` shows of a space, when the daemon answers. -/
inductive SpaceStatus where
  | connected
  | disconnected
deriving DecidableEq

def status : SpaceStatus := if s ∈ h.toml then .connected else .disconnected

/-- The daemon between two requests. -/
def daemon : EasyTierManager.St where
  running := h.running
  toml := h.toml
  json := h.json
  task := .idle
  started := none

def withDaemon (d : EasyTierManager.St) : Desktop :=
  { h with running := d.running, toml := d.toml, json := d.json }

/-- The daemon after a request to it. -/
def daemonAfter (request : Act) : IpcCall → Option EasyTierManager.St
  | .notSent _ | .refused _ => some h.daemon
  | .answered acts _ | .lost acts _ => serve h.daemon request acts

/-- `connect_space` of the IPC client -/
def connectSpace (call : IpcCall) : Option (Desktop × Except Str IpcResponse) :=
  (h.daemonAfter (.connectSpace s) call).map fun d =>
    (h.withDaemon d,
      match call with
      | .notSent e | .lost _ e => .error e
      | .refused message => .ok (.error message)
      | .answered _ message => .ok (if d.started = some s then .ok else .error message))

/-- The other spaces of the daemon are stopped, whatever comes of it. -/
def disconnectOthers : Desktop → List (Uuid × IpcCall) → Option Desktop
  | h, [] => some h
  | h, (r, call) :: rest =>
    if r = s then disconnectOthers h rest
    else (h.daemonAfter (.disconnectSpace r) call).bind fun d => disconnectOthers (h.withDaemon d) rest

def disconnectListed : Option (List (Uuid × IpcCall)) → Option Desktop
  -- a daemon that does not list its spaces has none to stop
  | none => some h
  | some order =>
    if Lists (order.map (·.1)) h.toml then disconnectOthers s h order else none

/-- The old servers are stopped. -/
def removeServers : Desktop :=
  { h with
    chatServers := h.chatServers.erase s
    fileServers := h.fileServers.erase s
    voiceServers := h.voiceServers.erase s
    screenServers := h.screenServers.erase s }

def insertServer : Service → Desktop
  | .chat => { h with chatServers := insert s h.chatServers }
  | .voice => { h with voiceServers := insert s h.voiceServers }
  | .screen => { h with screenServers := insert s h.screenServers }
  | .file => { h with fileServers := insert s h.fileServers }

/-- A server is entered in its map once it listens. -/
def startServer (service : Service) (label : Str) : Desktop × Except Str Unit :=
  match a.bind service (servicePort a.fileBase s service) with
  | some e => (h, .error ("启动".toList ++ label ++ "失败: ".toList ++ e))
  | none => (h.insertServer s service, .ok ())

def startChatServer : Desktop × Except Str Unit := h.startServer s a .chat "聊天服务器".toList
def startFileServer : Desktop × Except Str Unit := h.startServer s a .file "文件服务器".toList
def startVoiceServer : Desktop × Except Str Unit := h.startServer s a .voice "语音服务器".toList
def startScreenShareServer : Desktop × Except Str Unit :=
  h.startServer s a .screen "屏幕共享服务器".toList

/-- `?` -/
def andThen (r : Desktop × Except Str Unit) (next : Desktop → Desktop × Except Str Unit) :
    Desktop × Except Str Unit :=
  match r.2 with
  | .error e => (r.1, .error e)
  | .ok () => next r.1

/-- The token is entered, the discovery spawned, its handle entered. -/
def spawnDiscovery : Desktop :=
  { h with
    cancelTokens := insert s h.cancelTokens
    connectHandles := AList.insert s h.nextTask h.connectHandles
    discoveries := h.discoveries ++ [⟨h.nextTask, s⟩]
    nextTask := h.nextTask + 1 }

/-- `connect` after the daemon has answered `Ok` -/
def startServices : Desktop × Except Str Unit :=
  andThen ((h.removeServers s).startChatServer s a) fun h =>
  andThen (h.startFileServer s a) fun h =>
  andThen (h.startVoiceServer s a) fun h =>
  andThen (h.startScreenShareServer s a) fun h =>
  (h.spawnDiscovery s, .ok ())

/-- `connect`; `none` when the answers are not those of its steps. -/
def connect : Option (Desktop × Except Str Unit) :=
  if a.ready = false then
    some (h, .error "daemon 启动超时（10s），无法建立 IPC 连接".toList)
  else
    match h.disconnectListed s a.listing with
    | none => none
    | some h =>
      if s ∉ h.spaces then some (h, .error "Space not found".toList)
      else
        match a.config with
        | .error e => some (h, .error e)
        | .ok () =>
          (h.connectSpace s a.request).map fun
            | (h, .error e) => (h, .error e)
            | (h, .ok (.error message)) => (h, .error message)
            | (h, .ok .ok) => h.startServices s a

/-! ## What a failed connect should leave -/

/-- The manager has nothing of the space. -/
structure NothingKept : Prop where
  chatServer : s ∉ h.chatServers
  fileServer : s ∉ h.fileServers
  voiceServer : s ∉ h.voiceServers
  screenServer : s ∉ h.screenServers
  chatClient : s ∉ h.chatClients
  cancelToken : s ∉ h.cancelTokens

structure NothingLeft : Prop where
  kept : h.NothingKept s
  running : s ∉ h.running
  status : h.status s ≠ .connected

/-- After a request that is not answered `Ok`, the daemon runs and lists the space
as before, or as the last of its steps that change this have made it. -/
def Unstarted : IpcCall → Prop
  | .notSent _ | .refused _ => s ∉ h.running ∧ s ∉ h.toml
  | .answered acts _ | .lost acts _ =>
    latch Act.startsInstance Act.removesInstance (decide (s ∈ h.running)) acts = false ∧
      latch Act.writesFile Act.removesFile (decide (s ∈ h.toml)) acts = false

/-- The daemon answers `Ok`. -/
def AnsweredOk : IpcCall → Prop
  | .answered acts _ => Act.finished true ∈ acts
  | _ => False

/-- The request to the daemon is made. -/
def Requested : Prop := a.ready = true ∧ s ∈ h.spaces ∧ a.config = .ok ()

def AllListen : Prop := ∀ service, a.bind service (servicePort a.fileBase s service) = none

/-- A connect that does not fail, or that has nothing to undo. -/
inductive Harmless : Prop where
  | connects (hreq : h.Requested s a) (hok : AnsweredOk a.request) (hlisten : AllListen s a)
  | notRequested (hreq : ¬ h.Requested s a) (hkept : h.NothingKept s) (hrun : s ∉ h.running)
      (htoml : s ∉ h.toml)
  | notStarted (hreq : h.Requested s a) (hok : ¬ AnsweredOk a.request) (hkept : h.NothingKept s)
      (hrun : h.Unstarted s a.request)

/-! ## The steps -/

section Steps

variable {h s a} {h' : Desktop} {d : EasyTierManager.St} {r : Except Str Unit}

theorem status_ne_connected : h.status s ≠ .connected ↔ s ∉ h.toml := by
  unfold status
  split <;> simp [*]

/-- The manager keeps its maps; the space is there in the daemon as before. -/
structure Same (h : Desktop) (s : Uuid) (d : EasyTierManager.St) : Prop where
  running : s ∈ d.running ↔ s ∈ h.running
  toml : s ∈ d.toml ↔ s ∈ h.toml

theorem nothingLeft_withDaemon :
    (h.withDaemon d).NothingLeft s ↔ h.NothingKept s ∧ s ∉ d.running ∧ s ∉ d.toml := by
  constructor
  · rintro ⟨⟨h1, h2, h3, h4, h5, h6⟩, hrun, hstatus⟩
    exact ⟨⟨h1, h2, h3, h4, h5, h6⟩, hrun, status_ne_connected.1 hstatus⟩
  · rintro ⟨⟨h1, h2, h3, h4, h5, h6⟩, hrun, htoml⟩
    exact ⟨⟨h1, h2, h3, h4, h5, h6⟩, hrun, status_ne_connected.2 htoml⟩

theorem disconnect_same {r : Uuid} {call : IpcCall} (hne : s ≠ r)
    (hafter : h.daemonAfter (.disconnectSpace r) call = some d) : Same h s d := by
  have hserved : ∀ acts, serve h.daemon (.disconnectSpace r) acts = some d → Same h s d := by
    intro acts hserve
    rcases serve_disconnectSpace rfl hne hserve with ⟨hrun, htoml⟩
    exact ⟨hrun, htoml⟩
  cases call with
  | notSent e =>
    obtain rfl := Option.some.inj hafter
    exact ⟨Iff.rfl, Iff.rfl⟩
  | refused message =>
    obtain rfl := Option.some.inj hafter
    exact ⟨Iff.rfl, Iff.rfl⟩
  | answered acts message => exact hserved acts hafter
  | lost acts e => exact hserved acts hafter

theorem disconnectOthers_same {others : List (Uuid × IpcCall)}
    (hothers : disconnectOthers s h others = some h') :
    ∃ d, h' = h.withDaemon d ∧ Same h s d := by
  induction others generalizing h with
  | nil =>
    obtain rfl := Option.some.inj hothers
    exact ⟨h.daemon, rfl, Iff.rfl, Iff.rfl⟩
  | cons o others ih =>
    rcases o with ⟨r, call⟩
    unfold disconnectOthers at hothers
    split at hothers
    · exact ih hothers
    · rename_i hne
      rcases Option.bind_eq_some_iff.1 hothers with ⟨d, hafter, hrest⟩
      have hsame := disconnect_same (Ne.symm hne) hafter
      rcases ih hrest with ⟨d', rfl, hsame'⟩
      exact ⟨d', rfl, hsame'.running.trans hsame.running, hsame'.toml.trans hsame.toml⟩

theorem disconnectListed_same (hlisted : h.disconnectListed s a.listing = some h') :
    ∃ d, h' = h.withDaemon d ∧ Same h s d := by
  unfold disconnectListed at hlisted
  split at hlisted
  · obtain rfl := Option.some.inj hlisted
    exact ⟨h.daemon, rfl, Iff.rfl, Iff.rfl⟩
  · split at hlisted
    · exact disconnectOthers_same hlisted
    · cases hlisted

/-! ### The servers -/

@[simp] theorem insertServer_running (service : Service) :
    (h.insertServer s service).running = h.running := by
  cases service <;> rfl

theorem startServer_running (service : Service) (label : Str) :
    (h.startServer s a service label).1.running = h.running := by
  unfold startServer
  split
  · rfl
  · exact insertServer_running service

theorem andThen_running {x : Desktop × Except Str Unit}
    {next : Desktop → Desktop × Except Str Unit} (hx : x.1.running = h.running)
    (hnext : ∀ g, (next g).1.running = g.running) : (andThen x next).1.running = h.running := by
  unfold andThen
  split
  · exact hx
  · exact (hnext _).trans hx

/-- The servers do not reach the daemon. -/
theorem startServices_running : (h.startServices s a).1.running = h.running := by
  refine andThen_running (startServer_running .chat _) fun g₁ => ?_
  refine andThen_running (startServer_running .file _) fun g₂ => ?_
  refine andThen_running (startServer_running .voice _) fun g₃ => ?_
  exact andThen_running (startServer_running .screen _) fun g₄ => rfl

theorem startServer_ok {service : Service} {label : Str} :
    (h.startServer s a service label).2 = .ok () ↔
      a.bind service (servicePort a.fileBase s service) = none := by
  unfold startServer
  split <;> simp [*]

theorem andThen_ok {x : Desktop × Except Str Unit} {next : Desktop → Desktop × Except Str Unit} :
    (andThen x next).2 = .ok () ↔ x.2 = .ok () ∧ (next x.1).2 = .ok () := by
  unfold andThen
  split <;> simp [*]

theorem startServices_ok : (h.startServices s a).2 = .ok () ↔ AllListen s a := by
  unfold startServices startChatServer startFileServer startVoiceServer startScreenShareServer
  simp only [andThen_ok, startServer_ok, and_true]
  constructor
  · rintro ⟨hchat, hfile, hvoice, hscreen⟩ service
    cases service with
    | chat => exact hchat
    | voice => exact hvoice
    | screen => exact hscreen
    | file => exact hfile
  · intro hall
    exact ⟨hall .chat, hall .file, hall .voice, hall .screen⟩

theorem startServices_eq (hlisten : AllListen s a) :
    (h.startServices s a).1.toSpaceManager =
      { h.toSpaceManager.connect s with running := h.running } := by
  simp only [startServices, startChatServer, startFileServer, startVoiceServer,
    startScreenShareServer, startServer, andThen, hlisten .chat, hlisten .file, hlisten .voice,
    hlisten .screen]
  rfl

/-! ### The request to the daemon -/

theorem daemonAfter_connect {call : IpcCall}
    (hafter : h.daemonAfter (.connectSpace s) call = some d) :
    (s ∉ d.running ∧ s ∉ d.toml) ↔ h.Unstarted s call := by
  have hserved : ∀ acts, serve h.daemon (.connectSpace s) acts = some d →
      ((s ∉ d.running ∧ s ∉ d.toml) ↔
        latch Act.startsInstance Act.removesInstance (decide (s ∈ h.running)) acts = false ∧
          latch Act.writesFile Act.removesFile (decide (s ∈ h.toml)) acts = false) := by
    intro acts hserve
    have hrunning := serve_connectSpace_running rfl hserve
    have htoml := serve_connectSpace_toml rfl hserve
    constructor
    · rintro ⟨hrun, hfile⟩
      exact ⟨hrunning ▸ decide_eq_false hrun, htoml ▸ decide_eq_false hfile⟩
    · rintro ⟨hrun, hfile⟩
      exact ⟨of_decide_eq_false (hrunning.trans hrun), of_decide_eq_false (htoml.trans hfile)⟩
  cases call with
  | notSent e =>
    obtain rfl := Option.some.inj hafter
    exact Iff.rfl
  | refused message =>
    obtain rfl := Option.some.inj hafter
    exact Iff.rfl
  | answered acts message => exact hserved acts hafter
  | lost acts e => exact hserved acts hafter

/-- What has been asked of the daemon before does not count. -/
theorem Same.unstarted (hsame : Same h s d) (call : IpcCall) :
    (h.withDaemon d).Unstarted s call ↔ h.Unstarted s call := by
  have hrun : decide (s ∈ (h.withDaemon d).running) = decide (s ∈ h.running) :=
    decide_eq_decide.2 hsame.running
  have htoml : decide (s ∈ (h.withDaemon d).toml) = decide (s ∈ h.toml) :=
    decide_eq_decide.2 hsame.toml
  cases call with
  | notSent e => exact and_congr (not_congr hsame.running) (not_congr hsame.toml)
  | refused message => exact and_congr (not_congr hsame.running) (not_congr hsame.toml)
  | answered acts message => simp only [Unstarted, hrun, htoml]
  | lost acts e => simp only [Unstarted, hrun, htoml]

/-- The response is `Ok` and the network runs, or it is none of the two errors. -/
theorem connectSpace_cases {call : IpcCall} {x : Desktop × Except Str IpcResponse}
    (hcall : h.connectSpace s call = some x) :
    ∃ d, h.daemonAfter (.connectSpace s) call = some d ∧ x.1 = h.withDaemon d ∧
      ((AnsweredOk call ∧ x.2 = .ok .ok ∧ s ∈ d.running) ∨
        (¬ AnsweredOk call ∧ ((∃ e, x.2 = .error e) ∨ ∃ message, x.2 = .ok (.error message)))) := by
  rcases Option.map_eq_some_iff.1 hcall with ⟨d, hafter, rfl⟩
  refine ⟨d, hafter, rfl, ?_⟩
  cases call with
  | notSent e => exact .inr ⟨id, .inl ⟨e, rfl⟩⟩
  | refused message => exact .inr ⟨id, .inr ⟨message, rfl⟩⟩
  | lost acts e => exact .inr ⟨id, .inl ⟨e, rfl⟩⟩
  | answered acts message =>
    rcases serve_connectSpace_started rfl hafter with ⟨hstarted, hrun⟩
    by_cases hok : d.started = some s
    · exact .inl ⟨hstarted.1 hok, by simp [hok], hrun hok⟩
    · exact .inr ⟨fun hmem => hok (hstarted.2 hmem), .inr ⟨message, by simp [hok]⟩⟩

/-- Where a connect ends: before the request to the daemon, at it, or behind it. -/
inductive Ends (h : Desktop) (s : Uuid) (a : ConnectAnswers) : Desktop → Except Str Unit → Prop where
  | before (hreq : ¬ h.Requested s a) (d : EasyTierManager.St) (hsame : Same h s d) (e : Str) :
    Ends h s a (h.withDaemon d) (.error e)
  | request (hreq : h.Requested s a) (hok : ¬ AnsweredOk a.request) (d₀ d : EasyTierManager.St)
    (hsame : Same h s d₀)
    (hafter : (h.withDaemon d₀).daemonAfter (.connectSpace s) a.request = some d) (e : Str) :
    Ends h s a (h.withDaemon d) (.error e)
  | behind (hreq : h.Requested s a) (hok : AnsweredOk a.request) (d : EasyTierManager.St)
    (hrun : s ∈ d.running) :
    Ends h s a ((h.withDaemon d).startServices s a).1 ((h.withDaemon d).startServices s a).2

theorem connect_ends (hconn : h.connect s a = some (h', r)) : Ends h s a h' r := by
  unfold connect at hconn
  split at hconn
  · rename_i hready
    have hreq : ¬ h.Requested s a := fun hreq => by simp [hreq.1] at hready
    obtain ⟨rfl, rfl⟩ := Prod.mk.inj (Option.some.inj hconn)
    exact .before hreq h.daemon ⟨Iff.rfl, Iff.rfl⟩ _
  · rename_i hready
    split at hconn
    · cases hconn
    · rename_i h₀ hlisted
      rcases disconnectListed_same hlisted with ⟨d₀, rfl, hsame⟩
      split at hconn
      · rename_i hspace
        have hreq : ¬ h.Requested s a := fun hreq => hspace hreq.2.1
        obtain ⟨rfl, rfl⟩ := Prod.mk.inj (Option.some.inj hconn)
        exact .before hreq d₀ hsame _
      · rename_i hspace
        split at hconn
        · rename_i e hconfig
          have hreq : ¬ h.Requested s a := fun hreq => by simp [hreq.2.2] at hconfig
          obtain ⟨rfl, rfl⟩ := Prod.mk.inj (Option.some.inj hconn)
          exact .before hreq d₀ hsame _
        · rename_i hconfig
          -- only here is the daemon asked to connect
          have hreq : h.Requested s a := ⟨by simpa using hready, not_not.1 hspace, hconfig⟩
          rcases Option.map_eq_some_iff.1 hconn with ⟨x, hcall, heq⟩
          rcases x with ⟨h₁, response⟩
          rcases connectSpace_cases hcall with ⟨d, hafter, hx, hresp⟩
          obtain rfl : h₁ = h.withDaemon d := hx
          rcases hresp with ⟨hok, hr, hrun⟩ | ⟨hok, ⟨e, hr⟩ | ⟨message, hr⟩⟩
          · obtain rfl : response = .ok .ok := hr
            have hends := Ends.behind hreq hok d hrun
            rw [show (h.withDaemon d).startServices s a = (h', r) from heq] at hends
            exact hends
          · obtain rfl : response = .error e := hr
            obtain ⟨rfl, rfl⟩ := Prod.mk.inj heq
            exact .request hreq hok d₀ d hsame hafter e
          · obtain rfl : response = .ok (.error message) := hr
            obtain ⟨rfl, rfl⟩ := Prod.mk.inj heq
            exact .request hreq hok d₀ d hsame hafter message

end Steps

/-! ## Results -/

section Results

variable {h h' : Desktop} {s : Uuid} {a : ConnectAnswers} {r : Except Str Unit}

/-- When a server fails to start, the network of the space runs on. -/
theorem network_left_running {e : Str} (hconn : h.connect s a = some (h', .error e))
    (hreq : h.Requested s a) (hok : AnsweredOk a.request) : s ∈ h'.running := by
  have hends := connect_ends hconn
  generalize hr : Except.error e = r at hends
  cases hends with
  | before hno => exact absurd hreq hno
  | request _ hno => exact absurd hok hno
  | behind _ _ d hrun =>
    rw [startServices_running]
    exact hrun

/-- A connect that succeeds, the instances of other spaces aside. -/
theorem connect_ok (hconn : h.connect s a = some (h', .ok ())) :
    h'.toSpaceManager = { h.toSpaceManager.connect s with running := h'.running } ∧
      s ∈ h'.running := by
  have hends := connect_ends hconn
  generalize hr : Except.ok () = r at hends
  cases hends with
  | before => cases hr
  | request => cases hr
  | behind _ _ d hrun =>
    have hlisten := startServices_ok.1 hr.symm
    rw [startServices_eq hlisten]
    exact ⟨rfl, hrun⟩

/-- A connect that fails leaves nothing of the space exactly when there was nothing,
it does not come to the servers, and the daemon starts nothing. -/
theorem failed_connect_iff (hconn : h.connect s a = some (h', r)) :
    (∀ e, r = .error e → h'.NothingLeft s) ↔ h.Harmless s a := by
  cases connect_ends hconn with
  | before hreq d hsame e =>
    constructor
    · intro hleft
      rcases nothingLeft_withDaemon.1 (hleft e rfl) with ⟨hkept, hrun, htoml⟩
      exact .notRequested hreq hkept (fun hin => hrun (hsame.running.2 hin))
        fun hin => htoml (hsame.toml.2 hin)
    · rintro (⟨hreq', -, -⟩ | ⟨-, hkept, hrun, htoml⟩ | ⟨hreq', -, -, -⟩) e' -
      · exact absurd hreq' hreq
      · exact nothingLeft_withDaemon.2 ⟨hkept, fun hin => hrun (hsame.running.1 hin),
          fun hin => htoml (hsame.toml.1 hin)⟩
      · exact absurd hreq' hreq
  | request hreq hok d₀ d hsame hafter e =>
    have hafter := (daemonAfter_connect hafter).trans (hsame.unstarted a.request)
    constructor
    · intro hleft
      rcases nothingLeft_withDaemon.1 (hleft e rfl) with ⟨hkept, hrun⟩
      exact .notStarted hreq hok hkept (hafter.1 hrun)
    · rintro (⟨-, hok', -⟩ | ⟨hreq', -, -, -⟩ | ⟨-, -, hkept, hrun⟩) e' -
      · exact absurd hok' hok
      · exact absurd hreq hreq'
      · exact nothingLeft_withDaemon.2 ⟨hkept, hafter.2 hrun⟩
  | behind hreq hok d hrun =>
    constructor
    · intro hleft
      have hres : ((h.withDaemon d).startServices s a).2 = .ok () := by
        cases hres : ((h.withDaemon d).startServices s a).2 with
        | ok u => rfl
        | error e =>
          -- the daemon is not asked to stop the network again
          have hno := (hleft e hres).running
          rw [startServices_running] at hno
          exact absurd hrun hno
      exact .connects hreq hok (startServices_ok.1 hres)
    · rintro (⟨-, -, hlisten⟩ | ⟨hno, -, -, -⟩ | ⟨-, hno, -, -⟩) e he
      · rw [startServices_ok.2 hlisten] at he
        cases he
      · exact absurd hreq hno
      · exact absurd hok hno

/-- A new process that knows one space. -/
def oneSpace : Desktop where
  toSpaceManager := SpaceManager.init {1} {1}
  toml := ∅
  json := ∅

/-- Another space is there, and the daemon has its files. -/
def twoSpaces : Desktop where
  toSpaceManager := SpaceManager.init {1, 2} {1, 2}
  toml := {2}
  json := {2}

/-- The daemon keeps the other space, and does not find the binary for this one. -/
def unprepared : ConnectAnswers where
  pings := fun i => i = 3
  listing := some [(2, .refused "busy".toList)]
  config := .ok ()
  request := .answered [.connected true, .retain .ok, .prepared (some .ensureBinary)]
    "no binary".toList
  fileBase := 18300
  bind := fun _ _ => none

/-- Nothing is left of a space whose network could not be prepared. -/
theorem unprepared_leaves_nothing : ∃ h' e, twoSpaces.connect 1 unprepared = some (h', .error e) ∧
    h'.NothingLeft 1 := by
  have hconn : ∃ h' e, twoSpaces.connect 1 unprepared = some (h', .error e) := ⟨_, _, rfl⟩
  rcases hconn with ⟨h', e, hconn⟩
  refine ⟨h', e, hconn, (failed_connect_iff hconn).2 (.notStarted ?_ ?_ ?_ ?_) e rfl⟩
  · exact ⟨by decide, by decide, rfl⟩
  · show ¬ Act.finished true ∈ _
    decide
  · constructor <;> decide
  · exact ⟨by decide, by decide⟩

/-- The port of the chat server is taken. -/
def portTaken : ConnectAnswers where
  pings := fun _ => true
  listing := some []
  config := .ok ()
  request := .answered [.connected true, .retain .ok, .prepared none, .connected true,
    .ran .ok true, .finished true] []
  fileBase := 18300
  bind := fun service _ => if service = .chat then some [] else none

/-- The network runs on when the chat server does not start. -/
theorem failed_chat_server_leaves_network : ¬ ∀ (h : Desktop) (s : Uuid) (a : ConnectAnswers)
    (h' : Desktop) (e : Str), h.connect s a = some (h', .error e) → h'.NothingLeft s := by
  intro hall
  have hconn : ∃ h' e, oneSpace.connect 1 portTaken = some (h', .error e) := ⟨_, _, rfl⟩
  rcases hconn with ⟨h', e, hconn⟩
  have hrun : 1 ∈ h'.running := by
    apply network_left_running hconn
    · exact ⟨by decide, by decide, rfl⟩
    · show Act.finished true ∈ _
      decide
  exact (hall _ _ _ _ _ hconn).running hrun

end Results

end Desktop

end HomeTier
