import Mathlib.Logic.Function.Basic
import HomeTier.Lib.Held
import HomeTier.Lib.Tasks
import HomeTier.Lib.Text

/-! # Voice: joining, leaving, the microphone

`join`, `leave`, `toggleMic` and `tickVad` of `src/services/voice.ts`, cut at
their awaits. Tracks are what `getUserMedia` has given; handlers and timers are
those registered. Of the peers only their number counts here: a signal or the
list of members adds one, the creation of a connection waits for nothing.

`rejected` has, for each `join` that was rejected, what it left behind.
-/

namespace HomeTier.Voice

open Lib

/-- What a rejected call leaves behind. -/
structure Leftover where
  tracks : List Nat
  handlers : List Nat
  timers : List Nat
  peers : List Str
deriving DecidableEq

structure Leftover.Idle (l : Leftover) : Prop where
  tracks : l.tracks = []
  handlers : l.handlers = []
  timers : l.timers = []
  peers : l.peers = []

inductive LastCall where
  | none
  | join
  | leave
deriving DecidableEq

structure VoiceState where
  spaceId : Option Str
  tracks : Held
  /-- `track.enabled` -/
  enabled : Nat → Bool
  /-- `localAnalyser !== null` -/
  localAnalyser : Bool
  silentSince : Nat
  micMuted : Bool
  handlers : Held
  vadTimer : Held
  volumeTimer : Held
  peers : List Str
  lastCall : LastCall
  rejected : List Leftover

inductive JoinAt where
  /-- The signal of the `leave` that comes first. -/
  | leaving
  | left
  /-- `getUserMedia` -/
  | capturing
  | preloading
  | announcing
  | members
deriving DecidableEq

inductive VoiceTask where
  | join (space : Str) (a : JoinAt)
  | leave
  | toggleMic
deriving DecidableEq

inductive VoiceEvent where
  | join (space : Str)
  | leave
  | toggleMic
  | tickVad (timer : Nat) (speaking : Bool)
  /-- A signal comes to a handler, and makes a connection or ends one. -/
  | peerJoined (handler : Nat) (space ip : Str)
  | peerLeft (ip : Str)
  /-- The device is gone. -/
  | trackEnded (n : Nat)

inductive VoiceAnswer where
  | done
  | failed
  /-- Whether `mediaDevices` is there. -/
  | supported (yes : Bool)
  /-- A stream, and whether an `AudioContext` can be had. -/
  | captured (context : Bool)
  | member (ip : Str)

namespace VoiceState

def leftover (s : VoiceState) : Leftover where
  tracks := s.tracks.live
  handlers := s.handlers.live
  timers := s.vadTimer.live ++ s.volumeTimer.live
  peers := s.peers

def reject (s : VoiceState) : VoiceState := { s with rejected := s.leftover :: s.rejected }

/-- `leave`, up to its signal. -/
def leaveStart (s : VoiceState) : VoiceState :=
  { s with
    handlers := s.handlers.release
    vadTimer := s.vadTimer.release
    volumeTimer := s.volumeTimer.release }

def leaveEnd (s : VoiceState) : VoiceState :=
  { s with spaceId := none, peers := [], tracks := s.tracks.release, localAnalyser := false }

/-- The `catch` of `join`. -/
def joinFailed (s : VoiceState) : VoiceState :=
  { s with spaceId := none, tracks := s.tracks.release, localAnalyser := false }.reject

/-- `this.localTrack = stream.getAudioTracks()[0]` -/
def capture (s : VoiceState) : VoiceState :=
  { s with
    tracks := s.tracks.acquire
    enabled := Function.update s.enabled s.tracks.next true }

def enter (s : VoiceState) (space : Str) : VoiceState :=
  { s with localAnalyser := true, spaceId := some space, micMuted := false }

def addPeer (s : VoiceState) (ip : Str) : VoiceState :=
  if ip ∈ s.peers then s else { s with peers := ip :: s.peers }

/-- `if (this.localTrack) this.localTrack.enabled = enabled;` -/
def setEnabled (s : VoiceState) (enabled : Bool) : VoiceState :=
  match s.tracks.current with
  | some n => { s with enabled := Function.update s.enabled n enabled }
  | none => s

def toggleMic (s : VoiceState) : VoiceState :=
  { s with micMuted := !s.micMuted }.setEnabled s.micMuted

/-- `this.localTrack?.enabled` -/
def currentEnabled (s : VoiceState) : Option Bool := s.tracks.current.map s.enabled

def vadInterval : Nat := 150

def vadSilenceMute : Nat := 1200

def tickVad (s : VoiceState) (speaking : Bool) : VoiceState :=
  if !s.localAnalyser then s
  else if speaking then
    let s := { s with silentSince := 0 }
    if s.currentEnabled = some false ∧ !s.micMuted then s.setEnabled true else s
  else
    let s := { s with silentSince := s.silentSince + vadInterval }
    if s.currentEnabled = some true ∧ !s.micMuted ∧ vadSilenceMute ≤ s.silentSince then
      s.setEnabled false
    else s

end VoiceState

/-! ## The steps -/

def startVoice (s : VoiceState) : VoiceEvent → Option (VoiceState × List VoiceTask)
  | .join space =>
    let s := { s with lastCall := .join }
    if s.spaceId = some space then some (s, [])
    else if s.spaceId.isSome then some (s.leaveStart, [.join space .leaving])
    else some (s.leaveStart.leaveEnd, [.join space .left])
  | .leave =>
    let s := { s with lastCall := .leave }
    if s.spaceId.isSome then some (s.leaveStart, [.leave]) else some (s.leaveStart.leaveEnd, [])
  | .toggleMic => some (s.toggleMic, if s.spaceId.isSome then [.toggleMic] else [])
  | .tickVad timer speaking =>
    if timer ∈ s.vadTimer.live then some (s.tickVad speaking, []) else none
  | .peerJoined handler space ip =>
    if handler ∈ s.handlers.live then
      some (if s.spaceId = some space then s.addPeer ip else s, [])
    else none
  | .peerLeft ip => some ({ s with peers := s.peers.erase ip }, [])
  | .trackEnded n => some ({ s with tracks := s.tracks.lose n }, [])

def joinStep (s : VoiceState) (space : Str) :
    JoinAt → VoiceAnswer → Option (VoiceState × List VoiceTask)
  | .leaving, .done | .leaving, .failed => some (s.leaveEnd, [.join space .left])
  | .left, .supported true => some (s, [.join space .capturing])
  | .left, .supported false => some (s.reject, [])
  | .capturing, .captured true => some (s.capture.enter space, [.join space .preloading])
  | .capturing, .captured false => some (s.capture.joinFailed, [])
  | .capturing, .failed => some (s.joinFailed, [])
  | .preloading, .done =>
    some ({ s with handlers := s.handlers.acquire }, [.join space .announcing])
  | .announcing, .done => some (s, [.join space .members])
  | .announcing, .failed => some (s.joinFailed, [])
  | .members, .member ip => some (s.addPeer ip, [.join space .members])
  | .members, .done =>
    some ({ s with
      silentSince := 0
      vadTimer := s.vadTimer.acquire
      volumeTimer := s.volumeTimer.acquire }, [])
  | .members, .failed => some (s.joinFailed, [])
  | _, _ => none

def resumeVoice (s : VoiceState) : VoiceTask → VoiceAnswer → Option (VoiceState × List VoiceTask)
  | .join space a, answer => joinStep s space a answer
  | .leave, .done | .leave, .failed => some (s.leaveEnd, [])
  | .toggleMic, .done | .toggleMic, .failed => some (s, [])
  | _, _ => none

def voiceScript : Script VoiceState VoiceTask VoiceEvent VoiceAnswer where
  start := startVoice
  resume := resumeVoice

def voiceInit : Page VoiceState VoiceTask where
  shared :=
    { spaceId := none
      tracks := .none
      enabled := fun _ => false
      localAnalyser := false
      silentSince := 0
      micMuted := false
      handlers := .none
      vadTimer := .none
      volumeTimer := .none
      peers := []
      lastCall := .none
      rejected := [] }
  waiting := []

end HomeTier.Voice
