import HomeTier.Lib.Held
import HomeTier.Lib.Tasks
import HomeTier.Lib.Text

/-! # Sharing the screen

`startShare` and `stopShare` of `src/services/screen.ts`, cut at their awaits.
Watching is left out: `stopWatching`, which `startShare` calls, then only takes
the branch of a service that does not watch. The creation of a connection waits
for nothing.

`rejected` has, for each `startShare` that was rejected, what it left behind.
-/

namespace HomeTier.Screen

open Lib

/-- What a rejected call leaves behind. -/
structure Leftover where
  tracks : List Nat
  handlers : List Nat
  peers : List Str
deriving DecidableEq

structure Leftover.Idle (l : Leftover) : Prop where
  tracks : l.tracks = []
  handlers : l.handlers = []
  peers : l.peers = []

inductive LastCall where
  | none
  | startShare
  | stopShare
deriving DecidableEq

structure ScreenState where
  spaceId : Option Str
  /-- `mode === "sharing"` -/
  sharing : Bool
  tracks : Held
  allowedIps : List Str
  handlers : Held
  peers : List Str
  lastCall : LastCall
  rejected : List Leftover

inductive ShareAt where
  /-- The signal of the `stopShare` that comes first. -/
  | stopping
  | stopped
  | ready
  /-- `getDisplayMedia` -/
  | capturing
  | preloading
  | announcing
deriving DecidableEq

inductive ScreenTask where
  | startShare (space : Str) (allowedIps : List Str) (a : ShareAt)
  | stopShare
deriving DecidableEq

inductive ScreenEvent where
  | startShare (space : Str) (allowedIps : List Str)
  | stopShare
  /-- The user ends the sharing in the system's own window. -/
  | ended (n : Nat)
  /-- `request_view` comes to a handler. -/
  | requestView (handler : Nat) (space ip : Str)
  | viewerLost (ip : Str)

inductive ScreenAnswer where
  | done
  | failed
  /-- Whether `getDisplayMedia` is there. -/
  | supported (yes : Bool)
  /-- A stream, with a video track or without. -/
  | captured (track : Bool)

namespace ScreenState

def leftover (s : ScreenState) : Leftover where
  tracks := s.tracks.live
  handlers := s.handlers.live
  peers := s.peers

def reject (s : ScreenState) : ScreenState := { s with rejected := s.leftover :: s.rejected }

/-- `if (this.spaceId) { this.spaceId = null; this.unregister?.(); … }` -/
def forget (s : ScreenState) : ScreenState :=
  if s.spaceId.isSome then { s with spaceId := none, handlers := s.handlers.release } else s

/-- The end of `stopShare`. -/
def stopEnd (s : ScreenState) : ScreenState :=
  { s with
    peers := []
    tracks := s.tracks.release
    allowedIps := []
    handlers := s.handlers.release
    spaceId := none
    sharing := false }

/-- `stopShare`, up to its signal; whether it waits for one. -/
def stopStart (s : ScreenState) : ScreenState × Bool :=
  if !s.sharing then (s.forget, false)
  else if s.spaceId.isSome then (s, true)
  else (s.stopEnd, false)

def share (s : ScreenState) (space : Str) (allowedIps : List Str) : ScreenState :=
  { s with spaceId := some space, sharing := true, tracks := s.tracks.acquire, allowedIps }

/-- `handleSharerSignal` of `request_view`. -/
def onViewerRequest (s : ScreenState) (ip : Str) : ScreenState :=
  if s.allowedIps ≠ [] ∧ ip ∉ s.allowedIps then s
  else if ip ∈ s.peers then s
  else { s with peers := ip :: s.peers }

end ScreenState

/-! ## The steps -/

def startScreen (s : ScreenState) : ScreenEvent → Option (ScreenState × List ScreenTask)
  | .startShare space allowedIps =>
    let s := { s with lastCall := .startShare }
    if s.sharing ∧ s.spaceId = some space then some (s, [])
    else some (s.stopStart.1,
      [.startShare space allowedIps (if s.stopStart.2 then .stopping else .stopped)])
  | .stopShare =>
    let s := { s with lastCall := .stopShare }
    some (s.stopStart.1, if s.stopStart.2 then [.stopShare] else [])
  | .ended n =>
    let s := { s with tracks := s.tracks.lose n }
    some (s.stopStart.1, if s.stopStart.2 then [.stopShare] else [])
  | .requestView handler space ip =>
    if handler ∈ s.handlers.live then
      some (if s.spaceId = some space ∧ s.sharing then s.onViewerRequest ip else s, [])
    else none
  | .viewerLost ip => some ({ s with peers := s.peers.erase ip }, [])

def shareStep (s : ScreenState) (space : Str) (allowedIps : List Str) :
    ShareAt → ScreenAnswer → Option (ScreenState × List ScreenTask)
  | .stopping, .done | .stopping, .failed => some (s.stopEnd, [.startShare space allowedIps .stopped])
  | .stopped, .done => some (s.forget, [.startShare space allowedIps .ready])
  | .ready, .supported true => some (s, [.startShare space allowedIps .capturing])
  | .ready, .supported false => some (s.reject, [])
  | .capturing, .captured true =>
    some (s.share space allowedIps, [.startShare space allowedIps .preloading])
  | .capturing, .captured false | .capturing, .failed => some (s.reject, [])
  | .preloading, .done =>
    some ({ s with handlers := s.handlers.acquire }, [.startShare space allowedIps .announcing])
  | .announcing, .done => some (s, [])
  | .announcing, .failed => some (s.reject, [])
  | _, _ => none

def resumeScreen (s : ScreenState) :
    ScreenTask → ScreenAnswer → Option (ScreenState × List ScreenTask)
  | .startShare space allowedIps a, answer => shareStep s space allowedIps a answer
  | .stopShare, .done | .stopShare, .failed => some (s.stopEnd, [])
  | _, _ => none

def screenScript : Script ScreenState ScreenTask ScreenEvent ScreenAnswer where
  start := startScreen
  resume := resumeScreen

def screenInit : Page ScreenState ScreenTask where
  shared :=
    { spaceId := none
      sharing := false
      tracks := .none
      allowedIps := []
      handlers := .none
      peers := []
      lastCall := .none
      rejected := [] }
  waiting := []

end HomeTier.Screen
