import HomeTier.EasyTier.Manager
import HomeTier.Lib.Tasks

/-! # The spaces that the page shows

`loadSpaces`, `connectSpace`, `disconnectSpace` and `leaveSpace` of
`src/stores/spaceStore.ts`, cut at their awaits, with the commands they call.
`SpaceManager::connect` asks what runs, stops it and starts the network; each of
these may fail, and so may the services behind it. On a phone `connectWithVpn`
goes around it, and the VPN service of Android comes and goes by itself.

What runs is what the backend reports: on a phone the instances of the process,
on a desktop the TOML files of the daemon (`list_saved`). `start_network` writes
the file of a space and removes it again when it succeeds; what else writes such
files is left out.

Statuses only: names, addresses and tabs are left out, and so is what creates or
deletes a space.
-/

namespace HomeTier.SpaceStore

open Lib

inductive SpaceStatus where
  | DIS
  | ING
  | CED
deriving DecidableEq

structure Shown where
  id : Uuid
  status : SpaceStatus
deriving DecidableEq

/-- The ids of the table `spaces`, in order. -/
structure SpaceTable where
  ids : List Uuid
  nodup : ids.Nodup

structure StoreState where
  spaces : List Shown
  /-- The networks that the backend reports as running: instances on a phone, TOML
  files on a desktop. -/
  running : List Uuid
  /-- `HomeTierVpnService.self != null` -/
  vpn : Bool

/-- What `loadSpaces` waits for. -/
inductive LoadAt where
  | list
  | listed (spaces : List Shown)
  | isMobile (spaces : List Shown)
  | vpnStatus (spaces : List Shown)
deriving DecidableEq

/-- The second look of `loadSpaces`, two seconds later. -/
inductive RecheckAt where
  | timer
  | list
  | listed (spaces : List Shown)
deriving DecidableEq

/-- What `connectSpace` waits for: on a phone what `connectWithVpn` does before
and after the command, in between the steps of the command. -/
inductive ConnectAt where
  | isMobile
  | prepare
  | ping
  | running
  | stopping (others : List Uuid)
  | starting
  | services
  | replied (ok : Bool)
  | retryDelay
  | startVpn
  | stopVpn
  | poll
deriving DecidableEq

/-- What `disconnectSpace` and `leaveSpace` wait for. -/
inductive LeaveAt where
  | isMobile
  | request
  | replied (ok : Bool)
  | stopVpn
deriving DecidableEq

inductive SpaceTask where
  | load (prev : List Shown) (a : LoadAt)
  | recheck (a : RecheckAt)
  /-- `again`: the second attempt of `connectWithVpn`. -/
  | connect (id : Uuid) (again : Bool) (a : ConnectAt)
  | disconnect (id : Uuid) (a : LeaveAt)
  | leave (id : Uuid) (a : LeaveAt)
deriving DecidableEq

inductive SpaceEvent where
  | loadSpaces
  | connectSpace (id : Uuid)
  | disconnectSpace (id : Uuid)
  | leaveSpace (id : Uuid)
  /-- Android creates or destroys the VPN service. -/
  | vpnService (up : Bool)

inductive SpaceAnswer where
  | done
  | failed
  /-- The network is stopped, but its TOML file could not be removed. -/
  | undeleted
  /-- `start_network` fails behind the old TOML file, with or without a new one. -/
  | failedBehind (file : Bool)
  /-- Whether the daemon has answered what runs; without an answer nothing does. -/
  | reported (ok : Bool)
  | started (yes : Bool)

namespace StoreState

/-- `list`: the status of a space is read off what runs. -/
def list (s : StoreState) (table : SpaceTable) (ok : Bool) : List Shown :=
  table.ids.map fun id => ⟨id, if ok ∧ id ∈ s.running then .CED else .DIS⟩

/-- `spaces.map((s) => s.id === spaceId ? { ...s, status } : s)` -/
def setStatus (s : StoreState) (id : Uuid) (status : SpaceStatus) : StoreState :=
  { s with spaces := s.spaces.map fun sp => if sp.id = id then { sp with status } else sp }

/-- The target is connecting, no other is connected. -/
def setConnecting (s : StoreState) (id : Uuid) : StoreState :=
  { s with spaces := s.spaces.map fun sp =>
      if sp.id = id then { sp with status := .ING }
      else if sp.status = .CED ∨ sp.status = .ING then { sp with status := .DIS }
      else sp }

/-- `s.status === DIS ? { ...s, status: CED } : s` -/
def corrected (spaces : List Shown) : List Shown :=
  spaces.map fun sp => if sp.status = .DIS then { sp with status := .CED } else sp

/-- The end of `loadSpaces`; spaces that were connected and are no more are looked
at again. -/
def finish (s : StoreState) (prev final : List Shown) : StoreState × List SpaceTask :=
  let transient := prev.any fun p =>
    p.status = .CED && final.any fun sp => sp.id = p.id && sp.status = .DIS
  ({ s with spaces := final }, if transient then [.recheck .timer] else [])

def stop (s : StoreState) (id : Uuid) : StoreState :=
  { s with running := s.running.filter (· ≠ id) }

def start (s : StoreState) (id : Uuid) : StoreState :=
  { s with running := if id ∈ s.running then s.running else id :: s.running }

/-- A network that is started on a phone is reported, one of a desktop is not. -/
def started (mobile : Bool) (s : StoreState) (id : Uuid) : StoreState :=
  if mobile then s.start id else s.stop id

end StoreState

/-- The loop over the others, up to the next request. -/
def stopNext : List Uuid → ConnectAt
  | [] => .starting
  | x :: rest => .stopping (x :: rest)

section Script

variable (mobile : Bool) (table : SpaceTable)

def startSpace (s : StoreState) : SpaceEvent → Option (StoreState × List SpaceTask)
  | .loadSpaces => some (s, [.load s.spaces .list])
  | .connectSpace id =>
    if s.spaces.any fun sp => sp.id = id && sp.status = .CED then some (s, [])
    else some (s, [.connect id false .isMobile])
  | .disconnectSpace id => some (s, [.disconnect id .isMobile])
  | .leaveSpace id => some (s, [.leave id .request])
  | .vpnService up => some ({ s with vpn := up }, [])

def loadStep (s : StoreState) (prev : List Shown) :
    LoadAt → SpaceAnswer → Option (StoreState × List SpaceTask)
  | .list, .reported ok => some (s, [.load prev (.listed (s.list table ok))])
  | .list, .failed => some (s, [])
  | .listed spaces, .done => some (s, [.load prev (.isMobile spaces)])
  | .isMobile spaces, .done =>
    if mobile ∧ spaces.any (·.status = .DIS) then some (s, [.load prev (.vpnStatus spaces)])
    else some (s.finish prev spaces)
  | .vpnStatus spaces, .done =>
    some (s.finish prev (if s.vpn then StoreState.corrected spaces else spaces))
  | .vpnStatus spaces, .failed => some (s.finish prev spaces)
  | _, _ => none

def recheckStep (s : StoreState) : RecheckAt → SpaceAnswer → Option (StoreState × List SpaceTask)
  | .timer, .done => some (s, [.recheck .list])
  | .list, .reported ok => some (s, [.recheck (.listed (s.list table ok))])
  | .list, .failed => some (s, [])
  | .listed spaces, .done => some ({ s with spaces }, [])
  | _, _ => none

/-- `SpaceManager::connect` of a desktop asks the daemon and stops the others; on a
phone it stops all that run. -/
def connectStep (s : StoreState) (id : Uuid) (again : Bool) :
    ConnectAt → SpaceAnswer → Option (StoreState × List SpaceTask)
  | .isMobile, .done =>
    let s := s.setConnecting id
    if !mobile then some (s, [.connect id again .ping])
    else if s.spaces.any (·.id = id) then some (s, [.connect id again .prepare])
    else some (s.setStatus id .DIS, [])
  | .prepare, .done => some (s, [.connect id again .running])
  | .prepare, .failed => some (s.setStatus id .DIS, [])
  | .ping, .done => some (s, [.connect id again .running])
  | .ping, .failed => some (s, [.connect id again (.replied false)])
  | .running, .reported ok =>
    if mobile then
      if ok then some (s, [.connect id again (stopNext s.running)]) else none
    else
      some (s, [.connect id again (stopNext (if ok then s.running.filter (· ≠ id) else []))])
  | .stopping (x :: rest), .done => some (s.stop x, [.connect id again (stopNext rest)])
  | .stopping (_ :: rest), .failed => some (s, [.connect id again (stopNext rest)])
  | .stopping (_ :: rest), .undeleted =>
    if mobile then none else some (s, [.connect id again (stopNext rest)])
  | .starting, .done =>
    some (s.started mobile id, [.connect id again (if mobile then .replied true else .services)])
  | .starting, .failed => some (s, [.connect id again (.replied false)])
  | .starting, .failedBehind file =>
    if mobile then none
    else some (if file then s.start id else s.stop id, [.connect id again (.replied false)])
  | .services, .done => some (s, [.connect id again (.replied true)])
  | .services, .failed => some (s, [.connect id again (.replied false)])
  | .replied true, .done =>
    if mobile then some (s, [.connect id again .startVpn]) else some (s.setStatus id .CED, [])
  | .replied false, .done =>
    if mobile ∧ !again then some (s, [.connect id again .retryDelay])
    else some (s.setStatus id .DIS, [])
  | .retryDelay, .done => some (s, [.connect id true .running])
  | .startVpn, .started true => some (s, [.connect id again .poll])
  | .startVpn, .started false => some (s, [.connect id again .stopVpn])
  | .stopVpn, .done => some (s.setStatus id .DIS, [])
  | .poll, .done => some (s.setStatus id .CED, [])
  | .poll, .failed => some (s.setStatus id .DIS, [])
  | _, _ => none

/-- A phone shows the space as disconnected whatever `disconnectWithVpn` says. -/
def disconnectStep (s : StoreState) (id : Uuid) :
    LeaveAt → SpaceAnswer → Option (StoreState × List SpaceTask)
  | .isMobile, .done => some (s, [.disconnect id .request])
  | .request, .done => some (s.stop id, [.disconnect id (.replied true)])
  | .request, .undeleted => if mobile then none else some (s, [.disconnect id (.replied true)])
  | .request, .failed => some (s, [.disconnect id (.replied false)])
  | .replied true, .done =>
    if mobile then some (s, [.disconnect id .stopVpn]) else some (s.setStatus id .DIS, [])
  | .replied false, .done => if mobile then some (s.setStatus id .DIS, []) else some (s, [])
  | .stopVpn, .done => some (s.setStatus id .DIS, [])
  | _, _ => none

def leaveStep (s : StoreState) (id : Uuid) :
    LeaveAt → SpaceAnswer → Option (StoreState × List SpaceTask)
  | .request, .done => some (s.stop id, [.leave id (.replied true)])
  | .request, .undeleted => if mobile then none else some (s, [.leave id (.replied true)])
  | .request, .failed => some (s, [.leave id (.replied false)])
  | .replied true, .done => some (s.setStatus id .DIS, [])
  | .replied false, .done => some (s, [])
  | _, _ => none

def resumeSpace (s : StoreState) : SpaceTask → SpaceAnswer → Option (StoreState × List SpaceTask)
  | .load prev a, answer => loadStep mobile table s prev a answer
  | .recheck a, answer => recheckStep table s a answer
  | .connect id again a, answer => connectStep mobile s id again a answer
  | .disconnect id a, answer => disconnectStep mobile s id a answer
  | .leave id a, answer => leaveStep mobile s id a answer

def spaceScript : Script StoreState SpaceTask SpaceEvent SpaceAnswer where
  start := startSpace
  resume := resumeSpace mobile table

end Script

/-- The page is opened; a network may run already. -/
def spaceInit (first : Option Uuid) (vpn : Bool) : Page StoreState SpaceTask where
  shared := { spaces := [], running := first.toList, vpn }
  waiting := []

end HomeTier.SpaceStore
