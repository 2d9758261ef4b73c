import Mathlib.Data.Finset.Basic
import Mathlib.Logic.Function.Basic
import HomeTier.Lib.Tasks
import HomeTier.Vpn.Address

/-! # Connecting with a VPN

`connectWithVpn`, its `rebuildVpn` and listener, and `disconnectWithVpn` of
`src/services/mobileVpn.ts`, for one space, cut at their awaits. Each call of
`connectWithVpn` has variables of its own, which its listener and its rebuilds
share; all calls share `meshRoutesUnlisten`. Sets of routes are finite sets.

The log holds the calls that matter outside and the sets of routes that come, the
latest first.
-/

namespace HomeTier.Vpn

open Lib

/-- The variables of one `connectWithVpn`. -/
structure Connection where
  virtualIpClean : Str
  localSubnets : Finset Str
  currentMeshRoutes : Finset Str
  vpnStarted : Bool
  rebuildBusy : Bool
  rebuildQueued : Bool
  appliedRoutes : Option (Finset Str)

/-- What `connectWithVpn` waits for. -/
inductive ConnectAt where
  | isMobile
  | connectSpaceDesktop
  | prepareVpn
  | detectLanSubnets
  /-- `listen`, before and after the listener is registered. -/
  | listen
  | listening
  /-- The second attempt or the first. -/
  | connectSpace (again : Bool)
  | retryDelay
  | startVpn
  | stopVpn
  | listSpaces
  | pollDelay
  | settleDelay
  | getMeshRoutes
deriving DecidableEq

/-- What `rebuildVpn` waits for; `desired` is its constant. -/
inductive RebuildAt where
  | stopVpn (desired : Finset Str)
  | startVpn (desired : Finset Str)
deriving DecidableEq

/-- What `disconnectWithVpn` waits for. -/
inductive DisconnectAt where
  | isMobile
  | disconnectSpaceDesktop
  | disconnectSpace
  | stopVpn
deriving DecidableEq

inductive VpnTask where
  | connect (c : Nat) (a : ConnectAt)
  | rebuild (c : Nat) (a : RebuildAt)
  | disconnect (a : DisconnectAt)
deriving DecidableEq

inductive VpnLog where
  /-- A `connectWithVpn` begins. -/
  | begun (c : Nat)
  | connectSpace (c : Nat)
  | startVpn (c : Nat) (routes : Finset Str)
  /-- A set of routes comes: by an event, or as the answer of `getMeshRoutes`. -/
  | meshRoutes (c : Nat) (routes : List Str)
  /-- `disconnectWithVpn` resolves true. -/
  | disconnected
deriving DecidableEq

/-- What the calls share; `conn c` are the variables of the call `c`. -/
structure VpnState where
  conn : Nat → Connection
  begun : Nat
  listeners : List Nat
  meshRoutesUnlisten : Option Nat
  log : List VpnLog

inductive VpnEvent where
  | connect (virtualIp : Str)
  | disconnect
  /-- `mesh_routes_updated` comes to the listener of a call. -/
  | meshRoutesUpdated (c : Nat) (spaceId : Str) (routes : List Str)

/-- An answer: a promise is rejected, or resolved with what matters of it. -/
inductive VpnAnswer where
  | failed
  | done
  | mobile (yes : Bool)
  | granted (yes : Bool)
  | subnets (found : List Str)
  /-- `fd !== null` -/
  | started (yes : Bool)
  /-- Whether the space has its virtual address. -/
  | listed (found : Bool)
  /-- Whether the ten seconds are over. -/
  | elapsed (late : Bool)
  | routes (current : List Str)

/-! ## The variables of a call -/

namespace Connection

def virtualIpSubnet (k : Connection) : Str :=
  ['.'].intercalate ((k.virtualIpClean.splitOn '.').take 3) ++ ".0/24".toList

def desiredRoutes (k : Connection) : Finset Str :=
  insert k.virtualIpSubnet k.currentMeshRoutes \ k.localSubnets

/-- `next.size !== currentMeshRoutes.size || some(x => !currentMeshRoutes.has(x))` -/
def changed (k : Connection) (next : Finset Str) : Bool :=
  next.card ≠ k.currentMeshRoutes.card || decide (∃ x ∈ next, x ∉ k.currentMeshRoutes)

/-- The head of the loop of `rebuildVpn`, up to `stopVpn` or the return. -/
def rebuildLoop (k : Connection) : Connection × Option RebuildAt :=
  let k := { k with rebuildQueued := false }
  if k.appliedRoutes = some k.desiredRoutes then ({ k with rebuildBusy := false }, none)
  else (k, some (.stopVpn k.desiredRoutes))

def rebuildVpn (k : Connection) : Connection × Option RebuildAt :=
  if !k.vpnStarted then (k, none)
  else if k.rebuildBusy then ({ k with rebuildQueued := true }, none)
  else rebuildLoop { k with rebuildBusy := true }

def record (k : Connection) (next : Finset Str) : Connection := { k with currentMeshRoutes := next }

/-- The listener. -/
def onMeshRoutes (k : Connection) (routes : List Str) : Connection × Option RebuildAt :=
  if k.changed routes.toFinset then (k.record routes.toFinset).rebuildVpn else (k, none)

/-- After `startVpn` in `rebuildVpn`. -/
def rebuilt (k : Connection) (desired : Finset Str) (started : Bool) :
    Connection × Option RebuildAt :=
  if !started then ({ k with appliedRoutes := none, rebuildBusy := false }, none)
  else
    let k := { k with appliedRoutes := some desired }
    if !k.rebuildQueued then ({ k with rebuildBusy := false }, none) else k.rebuildLoop

end Connection

/-! ## The steps -/

namespace VpnState

def note (s : VpnState) (e : VpnLog) : VpnState := { s with log := e :: s.log }

def setConn (s : VpnState) (c : Nat) (k : Connection) : VpnState :=
  { s with conn := Function.update s.conn c k }

/-- `if (meshRoutesUnlisten) { meshRoutesUnlisten(); meshRoutesUnlisten = null; }` -/
def unlisten (s : VpnState) : VpnState :=
  match s.meshRoutesUnlisten with
  | some c => { s with listeners := s.listeners.erase c, meshRoutesUnlisten := none }
  | none => s

/-- A rebuild that goes on, or has ended. -/
def withRebuild (s : VpnState) (c : Nat) (r : Connection × Option RebuildAt) :
    VpnState × List VpnTask :=
  (s.setConn c r.1, r.2.toList.map (.rebuild c))

/-- The call of `connectSpace` in the loop of attempts. -/
def callConnectSpace (s : VpnState) (c : Nat) (again : Bool) : VpnState × List VpnTask :=
  (s.note (.connectSpace c), [.connect c (.connectSpace again)])

def callConnectSpaceDesktop (s : VpnState) (c : Nat) : VpnState × List VpnTask :=
  (s.note (.connectSpace c), [.connect c .connectSpaceDesktop])

/-- From the address check to `listen`. -/
def beforeListen (s : VpnState) (c : Nat) (localSubnets : Finset Str) :
    VpnState × List VpnTask :=
  let s := s.setConn c { s.conn c with localSubnets := localSubnets }
  if isValidIpv4 (s.conn c).virtualIpClean then (s.unlisten, [.connect c .listen]) else (s, [])

/-- The replay: `getMeshRoutes` has answered or failed. -/
def replay (s : VpnState) (c : Nat) : Option (List Str) → VpnState × List VpnTask
  | some routes =>
    let k := s.conn c
    let k := if k.changed routes.toFinset then k.record routes.toFinset else k
    (s.note (.meshRoutes c routes)).withRebuild c k.rebuildVpn
  | none => s.withRebuild c (s.conn c).rebuildVpn

/-- `connectWithVpn` -/
def connectStep (s : VpnState) (c : Nat) : ConnectAt → VpnAnswer → Option (VpnState × List VpnTask)
  | .isMobile, .mobile false => some (s.callConnectSpaceDesktop c)
  | .isMobile, .mobile true => some (s, [.connect c .prepareVpn])
  | .isMobile, .failed => some (s, [])
  | .connectSpaceDesktop, .done => some (s, [])
  | .connectSpaceDesktop, .failed => some (s, [])
  | .prepareVpn, .granted true => some (s, [.connect c .detectLanSubnets])
  | .prepareVpn, .granted false => some (s, [])
  | .detectLanSubnets, .subnets found => some (s.beforeListen c found.toFinset)
  | .detectLanSubnets, .failed => some (s.beforeListen c ∅)
  | .listen, .done => some ({ s with listeners := c :: s.listeners }, [.connect c .listening])
  | .listen, .failed => some (s, [])
  | .listening, .done =>
    some (callConnectSpace { s with meshRoutesUnlisten := some c } c false)
  | .connectSpace _, .done =>
    some (s.note (.startVpn c {(s.conn c).virtualIpSubnet}), [.connect c .startVpn])
  | .connectSpace false, .failed => some (s, [.connect c .retryDelay])
  | .connectSpace true, .failed => some (s.unlisten, [])
  | .retryDelay, .done => some (s.callConnectSpace c true)
  | .startVpn, .started false => some (s, [.connect c .stopVpn])
  | .startVpn, .started true =>
    some (s.setConn c { s.conn c with
      vpnStarted := true, appliedRoutes := some {(s.conn c).virtualIpSubnet} },
      [.connect c .listSpaces])
  | .stopVpn, .done => some (s.unlisten, [])
  | .listSpaces, .listed false => some (s, [.connect c .pollDelay])
  | .listSpaces, .listed true => some (s, [.connect c .settleDelay])
  | .listSpaces, .failed => some (s, [])
  | .pollDelay, .elapsed false => some (s, [.connect c .listSpaces])
  | .pollDelay, .elapsed true => some (s, [.connect c .settleDelay])
  | .settleDelay, .done => some (s, [.connect c .getMeshRoutes])
  | .getMeshRoutes, .routes current => some (s.replay c (some current))
  | .getMeshRoutes, .failed => some (s.replay c none)
  | _, _ => none

/-- `rebuildVpn` -/
def rebuildStep (s : VpnState) (c : Nat) : RebuildAt → VpnAnswer → Option (VpnState × List VpnTask)
  | .stopVpn desired, .done =>
    some (s.note (.startVpn c desired), [.rebuild c (.startVpn desired)])
  | .startVpn desired, .started yes => some (s.withRebuild c ((s.conn c).rebuilt desired yes))
  | _, _ => none

/-- `disconnectWithVpn` -/
def disconnectStep (s : VpnState) : DisconnectAt → VpnAnswer → Option (VpnState × List VpnTask)
  | .isMobile, .mobile false => some (s, [.disconnect .disconnectSpaceDesktop])
  | .isMobile, .mobile true => some (s.unlisten, [.disconnect .disconnectSpace])
  | .isMobile, .failed => some (s, [])
  | .disconnectSpaceDesktop, .done => some (s.note .disconnected, [])
  | .disconnectSpaceDesktop, .failed => some (s, [])
  | .disconnectSpace, .done => some (s, [.disconnect .stopVpn])
  | .disconnectSpace, .failed => some (s, [])
  | .stopVpn, .done => some (s.note .disconnected, [])
  | _, _ => none

end VpnState

/-- The variables with which a call begins. -/
def newConnection (virtualIp : Str) : Connection where
  virtualIpClean := jsTrim (cutAt '/' virtualIp).1
  localSubnets := ∅
  currentMeshRoutes := ∅
  vpnStarted := false
  rebuildBusy := false
  rebuildQueued := false
  appliedRoutes := none

section Script

variable (tauri : Bool) (spaceId : Str)

def startVpnEvent (s : VpnState) : VpnEvent → Option (VpnState × List VpnTask)
  | .connect virtualIp =>
    let c := s.begun
    let s := ({ s with begun := c + 1 }.setConn c (newConnection virtualIp)).note (.begun c)
    if tauri then some (s, [.connect c .isMobile]) else some (s.callConnectSpaceDesktop c)
  | .disconnect =>
    some (s, [.disconnect (if tauri then .isMobile else .disconnectSpaceDesktop)])
  | .meshRoutesUpdated c sid routes =>
    if c ∈ s.listeners then
      if sid = spaceId then
        some ((s.note (.meshRoutes c routes)).withRebuild c ((s.conn c).onMeshRoutes routes))
      else some (s, [])
    else none

def resumeVpn (s : VpnState) : VpnTask → VpnAnswer → Option (VpnState × List VpnTask)
  | .connect c a, answer => s.connectStep c a answer
  | .rebuild c a, answer => s.rebuildStep c a answer
  | .disconnect a, answer => s.disconnectStep a answer

/-- The page, in a window of the application or in a browser. -/
def vpnScript : Script VpnState VpnTask VpnEvent VpnAnswer where
  start := startVpnEvent tauri spaceId
  resume := resumeVpn

end Script

/-- Nothing has been called yet. -/
def vpnInit : Page VpnState VpnTask where
  shared :=
    { conn := fun _ => newConnection []
      begun := 0
      listeners := []
      meshRoutesUnlisten := none
      log := [] }
  waiting := []

end HomeTier.Vpn
