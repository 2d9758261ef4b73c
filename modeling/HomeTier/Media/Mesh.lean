import Mathlib.Logic.Function.Basic
import HomeTier.Lib.Tasks
import HomeTier.Lib.Text

/-! # Two participants of a call

`join`, `onPeerJoin`, `ensurePeersFromMembers`, `onPeerLeave`, `onOffer`,
`onAnswer`, `createPeer` and `sendOffer` of `src/services/voice.ts`, with the
dispatch of `src/services/signal.ts`, for two participants of one space. Each of
them calls `join` once, and neither calls `leave`. What a handler waits for, and
the messages in flight, wait in one list, and any of them may come next. A
message that comes to a side without a handler is dropped.

Other members are passed over: their connections are not of this pair. Nor are
the candidates, which change no description. Addresses are texts of digits and
dots, none of them empty, whose order is that of their characters.
-/

namespace HomeTier.Mesh

open Lib

/-! ## Connections -/

/-- A description: whose offer it is, or answers, and whose answer. -/
structure Sdp where
  offerer : Nat
  answerer : Option Nat
deriving DecidableEq

inductive SignalingState where
  | stable
  | haveLocalOffer
  | haveRemoteOffer
deriving DecidableEq

structure Conn where
  localDescription : Option Sdp
  remoteDescription : Option Sdp
  signalingState : SignalingState
deriving DecidableEq

namespace Conn

def new : Conn := ⟨none, none, .stable⟩

/-- `setLocalDescription(await createOffer(…))` of connection `pc`. -/
def setLocalOffer (pc : Nat) (c : Conn) : Option Conn :=
  if c.signalingState = .haveRemoteOffer then none
  else some { c with localDescription := some ⟨pc, none⟩, signalingState := .haveLocalOffer }

/-- An offer of its own is rolled back. -/
def setRemoteOffer (sdp : Sdp) (c : Conn) : Conn :=
  { c with remoteDescription := some sdp, signalingState := .haveRemoteOffer }

/-- `setLocalDescription()`: an answer to the offer it has, else an offer. -/
def setLocal (pc : Nat) (c : Conn) : Conn :=
  match c.signalingState, c.remoteDescription with
  | .haveRemoteOffer, some sdp =>
    { c with localDescription := some ⟨sdp.offerer, some pc⟩, signalingState := .stable }
  | _, _ => { c with localDescription := some ⟨pc, none⟩, signalingState := .haveLocalOffer }

def setRemoteAnswer (sdp : Sdp) (c : Conn) : Option Conn :=
  if c.signalingState = .haveLocalOffer then
    some { c with remoteDescription := some sdp, signalingState := .stable }
  else none

end Conn

/-! ## The two sides -/

inductive Side where
  | left
  | right
deriving DecidableEq

def Side.other : Side → Side
  | .left => .right
  | .right => .left

/-- What one side has, of the other one. -/
structure Voice where
  /-- `join` has been called. -/
  begun : Bool
  /-- `this.spaceId !== null` -/
  spaceId : Bool
  /-- `this.unregister !== null` -/
  handler : Bool
  /-- The connection of `peers.get(remoteIp)`. -/
  peer : Option Nat
  next : Nat
  /-- The connections made and not closed. -/
  opened : List Nat
  conn : Nat → Conn
  /-- Its `join` message has been sent; its member list has been read; the
  `join` message of the other one has been dropped; the offers it has sent. -/
  announced : Bool
  listed : Bool
  missed : Bool
  offers : Nat

abbrev Voices := Side → Voice

structure Member where
  virtualIp : Option Str
  isOnline : Option Bool
deriving DecidableEq

inductive JoinAt where
  /-- `getUserMedia` -/
  | capturing
  | preloading
  | announcing
  | listing
deriving DecidableEq

/-- Who has called `createPeer` and `sendOffer`. -/
inductive Caller where
  | onPeerJoin
  /-- The loop of `ensurePeersFromMembers`, with the members left. -/
  | members (rest : List Member)
deriving DecidableEq

inductive Reason where
  | call (caller : Caller)
  | offer (sdp : Sdp)
deriving DecidableEq

inductive Message where
  | join
  | offer (sdp : Sdp)
  | answer (sdp : Sdp)
deriving DecidableEq

inductive VoiceTask where
  | join (p : Side) (a : JoinAt)
  | created (p : Side) (pc : Nat) (reason : Reason)
  | createOffer (p : Side) (pc : Nat) (caller : Caller)
  | setLocalOffer (p : Side) (pc : Nat) (caller : Caller)
  /-- `sendSignal`, of an offer; and what comes after it. -/
  | sendOffer (p : Side) (sdp : Sdp) (caller : Caller)
  | sent (p : Side) (caller : Caller)
  | setRemoteOffer (p : Side) (pc : Nat) (sdp : Sdp)
  | setLocal (p : Side) (pc : Nat)
  | sendAnswer (p : Side) (sdp : Sdp)
  | setRemoteAnswer (p : Side) (pc : Nat) (sdp : Sdp)
  /-- A message in flight to `p`. -/
  | message (p : Side) (m : Message)
deriving DecidableEq

inductive VoiceEvent where
  | join (p : Side)
  /-- `connectionState` of a connection is now failed, disconnected or closed. -/
  | closed (p : Side)

inductive VoiceAnswer where
  | done
  | failed
  | members (l : List Member)

namespace Voice

/-- The handler takes what comes. -/
def accepts (v : Voice) : Bool := v.handler && v.spaceId

/-- `new RTCPeerConnection(RTC_CONFIG)` -/
def createPeer (v : Voice) : Voice :=
  { v with next := v.next + 1, opened := v.opened ++ [v.next] }

/-- `this.peers.set(remoteIp, peer)` -/
def setPeer (v : Voice) (pc : Nat) : Voice := { v with peer := some pc }

def setConn (v : Voice) (pc : Nat) (c : Conn) : Voice :=
  { v with conn := Function.update v.conn pc c }

def onPeerLeave (v : Voice) : Voice :=
  match v.peer with
  | some pc => { v with peer := none, opened := v.opened.erase pc }
  | none => v

end Voice

/-! ## The steps -/

section Script

variable (ip : Side → Str)

namespace Voices

def set (s : Voices) (p : Side) (v : Voice) : Voices := Function.update s p v

/-- The `catch` of `join`: the handler stays registered. -/
def joinFailed (s : Voices) (p : Side) : Voices := s.set p { s p with spaceId := false }

/-- `createPeer`, up to the `await` of its caller. -/
def createPeer (s : Voices) (p : Side) (reason : Reason) : Voices × List VoiceTask :=
  (s.set p (s p).createPeer, [.created p (s p).next reason])

/-- A member that a connection is made to: the other one, not known as offline. -/
def names (p : Side) (m : Member) : Bool :=
  m.virtualIp = some (ip p.other) && m.isOnline ≠ some false

/-- The loop of `ensurePeersFromMembers`, up to its next wait. -/
def ensurePeers (s : Voices) (p : Side) : List Member → Voices × List VoiceTask
  | [] => (s, [])
  | m :: rest =>
    if names ip p m ∧ (s p).peer = none then s.createPeer p (.call (.members rest))
    else ensurePeers s p rest

def goOn (s : Voices) (p : Side) : Caller → Voices × List VoiceTask
  | .onPeerJoin => (s, [])
  | .members rest => s.ensurePeers ip p rest

/-- An error: that of a handler goes nowhere, that of `join` ends it. -/
def reject (s : Voices) (p : Side) : Caller → Voices × List VoiceTask
  | .onPeerJoin => (s, [])
  | .members _ => (s.joinFailed p, [])

/-- `this.peers.set`, and the offer of the side with the smaller address. -/
def enter (s : Voices) (p : Side) (pc : Nat) : Reason → Voices × List VoiceTask
  | .call caller =>
    let s := s.set p ((s p).setPeer pc)
    if ip p < ip p.other ∧ (s p).spaceId then (s, [.createOffer p pc caller])
    else s.goOn ip p caller
  | .offer sdp => (s.set p ((s p).setPeer pc), [.setRemoteOffer p pc sdp])

def onMessage (s : Voices) (p : Side) : Message → Voices × List VoiceTask
  | .join =>
    if (s p).peer.isSome then (s, []) else s.createPeer p (.call .onPeerJoin)
  | .offer sdp =>
    match (s p).peer with
    | some pc => (s, [.setRemoteOffer p pc sdp])
    | none => s.createPeer p (.offer sdp)
  | .answer sdp =>
    match (s p).peer with
    | some pc => (s, [.setRemoteAnswer p pc sdp])
    | none => (s, [])

/-- The dispatch: without a handler for the space, the message is dropped. -/
def receive (s : Voices) (p : Side) (m : Message) : Voices × List VoiceTask :=
  if (s p).accepts then s.onMessage p m
  else if m = .join then (s.set p { s p with missed := true }, [])
  else (s, [])

end Voices

def startVoice (s : Voices) : VoiceEvent → Option (Voices × List VoiceTask)
  | .join p =>
    if (s p).begun then none
    else some (s.set p { s p with begun := true }, [.join p .capturing])
  | .closed p => some (s.set p (s p).onPeerLeave, [])

def resumeVoice (s : Voices) : VoiceTask → VoiceAnswer → Option (Voices × List VoiceTask)
  | .join p .capturing, .done =>
    some (s.set p { s p with spaceId := true }, [.join p .preloading])
  | .join _ .capturing, .failed => some (s, [])
  -- an error of `preloadMembers` does not stop it
  | .join p .preloading, _ => some (s.set p { s p with handler := true }, [.join p .announcing])
  | .join p .announcing, .done =>
    some (s.set p { s p with announced := true }, [.message p.other .join, .join p .listing])
  | .join p .announcing, .failed => some (s.joinFailed p, [])
  | .join p .listing, .members l =>
    some ((s.set p { s p with listed := true }).ensurePeers ip p l)
  | .join p .listing, .failed => some (s.set p { s p with listed := true }, [])
  | .created p pc reason, .done => some (s.enter ip p pc reason)
  | .createOffer p pc caller, .done => some (s, [.setLocalOffer p pc caller])
  | .createOffer p _ caller, .failed => some (s.reject p caller)
  | .setLocalOffer p pc caller, .done =>
    match ((s p).conn pc).setLocalOffer pc with
    | some c => some (s.set p ((s p).setConn pc c), [.sendOffer p ⟨pc, none⟩ caller])
    | none => some (s.reject p caller)
  | .setLocalOffer p _ caller, .failed => some (s.reject p caller)
  | .sendOffer p sdp caller, .done =>
    some (s.set p { s p with offers := (s p).offers + 1 },
      [.message p.other (.offer sdp), .sent p caller])
  | .sendOffer p _ caller, .failed => some (s.reject p caller)
  | .sent p caller, .done => some (s.goOn ip p caller)
  | .setRemoteOffer p pc sdp, .done =>
    some (s.set p ((s p).setConn pc (((s p).conn pc).setRemoteOffer sdp)), [.setLocal p pc])
  | .setLocal p pc, .done =>
    let c := ((s p).conn pc).setLocal pc
    some (s.set p ((s p).setConn pc c), (c.localDescription.map (.sendAnswer p)).toList)
  | .sendAnswer p sdp, .done => some (s, [.message p.other (.answer sdp)])
  | .setRemoteAnswer p pc sdp, .done =>
    match ((s p).conn pc).setRemoteAnswer sdp with
    | some c => some (s.set p ((s p).setConn pc c), [])
    | none => some (s, [])
  | .setRemoteOffer .., .failed | .setLocal .., .failed | .sendAnswer .., .failed
  | .setRemoteAnswer .., .failed => some (s, [])
  | .message p m, .done => some (s.receive p m)
  | _, _ => none

def voiceScript : Script Voices VoiceTask VoiceEvent VoiceAnswer where
  start := startVoice
  resume := resumeVoice ip

end Script

/-- Neither has called `join`. -/
def voiceInit : Page Voices VoiceTask where
  shared := fun _ =>
    { begun := false
      spaceId := false
      handler := false
      peer := none
      next := 0
      opened := []
      conn := fun _ => .new
      announced := false
      listed := false
      missed := false
      offers := 0 }
  waiting := []

end HomeTier.Mesh
