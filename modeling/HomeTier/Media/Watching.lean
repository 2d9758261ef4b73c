import HomeTier.Lib.Held
import HomeTier.Media.Mesh

/-! # Who sees a shared screen

`src/services/screen.ts` on any number of nodes, with the signals between them
(`sendSignal` and the dispatch of `signal.ts`): a node that watches asks once for
the screens that are shared, a node that shares offers its screen to whom it lets
watch, and the offer is answered. Every function is cut at its awaits, a message
in flight waits with what is left of the functions, and any of them may come next
or fail. An await of a call that has not waited itself is no cut, but for the
creation of a connection, to which two handlers of one signal may both come.

Left out are candidates, the quality, and what the page shows beside the picture
(`setSharer`, `setShareEnded`, the counts).

* A picture that is seen was captured by a node for those who see it.
* A node that waits for a sharing to begin does not see it, unless it starts to
  watch anew.
-/

namespace HomeTier.Watching

open Lib
open Mesh (Sdp Conn SignalingState)

inductive Mode where
  | idle
  | sharing
  | watching
deriving DecidableEq

structure Pc where
  conn : Conn
  isClosed : Bool

structure ScreenService where
  spaceId : Option Str
  mode : Mode
  /-- The capture of `localStream`. -/
  localStream : Option Nat
  allowedIps : List Str
  handlers : Held
  peers : Str → Option Nat
  /-- The connections made so far, those no longer in `peers` too. -/
  pcs : Str → Nat → Pc
  /-- The connection whose tracks are in `remoteStream`. -/
  remoteStream : Option Nat

structure Screens where
  /-- By virtual address. -/
  node : Str → ScreenService
  /-- The number of connections made so far, over all nodes. -/
  next : Nat
  /-- The capture whose tracks a connection was given. -/
  sends : Nat → Option Nat
  /-- Who has captured a screen, and for whom. -/
  captures : List (Str × List Str)

inductive Message where
  | start
  | stop
  | requestView
  | offer (sdp : Sdp)
  | answer (sdp : Sdp)
deriving DecidableEq

inductive ShareAt where
  /-- The signal of the `stopShare` that comes first. -/
  | stopping
  /-- `getDisplayMedia` -/
  | capturing
  | preloading
deriving DecidableEq

inductive WatchAt where
  | stopping
  | preloading
deriving DecidableEq

inductive Task where
  | startShare (a space : Str) (allowedIps : List Str) (now : ShareAt)
  | stopShare (a : Str)
  | startWatching (a space : Str) (now : WatchAt)
  /-- `createPeer`, in `onViewerRequest` or in `onOffer`. -/
  | created (a ip : Str) (id : Nat) (offer : Option Sdp)
  /-- `createOffer` and `setLocalDescription` -/
  | setLocalOffer (a ip : Str) (id : Nat)
  | setRemoteOffer (a ip : Str) (id : Nat) (sdp : Sdp)
  /-- `createAnswer` and `setLocalDescription` -/
  | setLocalAnswer (a ip : Str) (id : Nat)
  /-- `flushPendingIce`, before the answer is sent. -/
  | flush (a ip : Str) (id : Nat)
  | setRemoteAnswer (a ip : Str) (id : Nat) (sdp : Sdp)
  /-- In flight from `src` to `dst`. -/
  | message (src dst space : Str) (m : Message)
deriving DecidableEq

inductive Event where
  | startShare (a space : Str) (allowedIps : List Str)
  /-- Also at the end of the track. -/
  | stopShare (a : Str)
  | startWatching (a space : Str)
  | stopWatching (a : Str)
  /-- `connectionState` is now failed or disconnected. -/
  | lost (a ip : Str) (id : Nat)
  /-- `ontrack` -/
  | track (a ip : Str) (id : Nat)

inductive Answer where
  | done
  | failed
deriving DecidableEq

/-! ## One node -/

namespace ScreenService

variable (v : ScreenService)

def setPeer (ip : Str) (p : Option Nat) : ScreenService :=
  { v with peers := Function.update v.peers ip p }

@[simp] theorem setPeer_self (ip : Str) (p : Option Nat) : (v.setPeer ip p).peers ip = p :=
  Function.update_self ..

theorem setPeer_of_ne {ip ip' : Str} (p : Option Nat) (h : ip' ≠ ip) :
    (v.setPeer ip p).peers ip' = v.peers ip' := Function.update_of_ne h ..

def setPc (ip : Str) (id : Nat) (pc : Pc) : ScreenService :=
  { v with pcs := Function.update v.pcs ip (Function.update (v.pcs ip) id pc) }

def setConn (ip : Str) (id : Nat) (c : Conn) : ScreenService :=
  v.setPc ip id { v.pcs ip id with conn := c }

def closePeer (ip : Str) (id : Nat) : ScreenService :=
  v.setPc ip id { v.pcs ip id with isClosed := true }

/-- `for (const peer of this.peers.values()) this.closePeer(peer); this.peers.clear();` -/
def closePeers : ScreenService :=
  { v with
    peers := fun _ => none
    pcs := fun ip id =>
      if v.peers ip = some id then { v.pcs ip id with isClosed := true } else v.pcs ip id }

/-- A connection that is closed takes no description. -/
def opened (ip : Str) (id : Nat) : Option Conn :=
  if (v.pcs ip id).isClosed then none else some (v.pcs ip id).conn

/-- `if (this.spaceId) { this.spaceId = null; this.unregister?.(); … }` -/
def forget : ScreenService :=
  if v.spaceId.isSome then { v with spaceId := none, handlers := v.handlers.release } else v

/-- The end of `stopShare` and of `stopWatching`. -/
def leave : ScreenService :=
  { v with handlers := v.handlers.release, spaceId := none, mode := .idle }

/-- `stopShare` behind its signal. -/
def stopEnd : ScreenService :=
  { v.closePeers.leave with localStream := none, allowedIps := [] }

/-- `stopShare` up to its signal; the space it waits for, if it does. -/
def stopShare : ScreenService × Option Str :=
  if v.mode = .sharing then
    match v.spaceId with
    | some space => (v, some space)
    | none => (v.stopEnd, none)
  else (v.forget, none)

def stopWatching : ScreenService :=
  if v.mode = .watching then { v.closePeers.leave with remoteStream := none } else v.forget

def watch (space : Str) : ScreenService :=
  { v with spaceId := some space, mode := .watching, remoteStream := none }

def share (space : Str) (allowedIps : List Str) (capture : Nat) : ScreenService :=
  { v with spaceId := some space, mode := .sharing, localStream := some capture, allowedIps }

def register : ScreenService := { v with handlers := v.handlers.acquire }

/-- `allowedIps` without an entry lets everybody watch. -/
def lets (ip : Str) : Prop := v.allowedIps = [] ∨ ip ∈ v.allowedIps

instance (ip : Str) : Decidable (v.lets ip) := inferInstanceAs (Decidable (_ ∨ _))

/-- What `handleViewerSignal` does at `stop`. -/
def shareEnded (ip : Str) : ScreenService :=
  match v.peers ip with
  | some id => { (v.closePeer ip id).setPeer ip none with remoteStream := none }
  | none => { v with remoteStream := none }

/-- `onconnectionstatechange` -/
def lost (ip : Str) (id : Nat) : ScreenService :=
  let w := (v.setPeer ip none).closePeer ip id
  if v.mode = .watching then { w with remoteStream := none } else w

end ScreenService

/-- The connection that made it. -/
def source (sdp : Sdp) : Nat := sdp.answerer.getD sdp.offerer

/-- `setLocalDescription(await createAnswer())`. -/
def setLocalAnswer (pc : Nat) (c : Conn) : Option Conn :=
  if c.signalingState = .haveRemoteOffer then some (c.setLocal pc) else none

/-! ## The nodes -/

section Script

-- the nodes that the chat of a node reaches
variable (reach : Str → List Str)

namespace Screens

variable (s : Screens)

def set (a : Str) (v : ScreenService) : Screens := { s with node := Function.update s.node a v }

/-- `sendSignal` to all. -/
def broadcast (a space : Str) (m : Message) : List Task :=
  (reach a).map fun b => .message a b space m

/-- `sendSignal` to one, in the space of the service. -/
def signal (a ip : Str) (m : Message) : List Task :=
  match (s.node a).spaceId with
  | some space => if ip ∈ reach a then [.message a ip space m] else []
  | none => []

def createPeer (a ip : Str) : Screens :=
  { s.set a ((s.node a).setPc ip s.next ⟨.new, false⟩) with
    next := s.next + 1
    sends := Function.update s.sends s.next
      (if (s.node a).mode = .sharing then (s.node a).localStream else none) }

/-- `handleSharerSignal` -/
def handleSharerSignal (a src : Str) : Message → Screens × List Task
  | .requestView =>
    if ¬ (s.node a).lets src then (s, [])
    else if ((s.node a).peers src).isSome then (s, [])
    else (s.createPeer a src, [.created a src s.next none])
  | .answer sdp =>
    match (s.node a).peers src with
    | some id => (s, [.setRemoteAnswer a src id sdp])
    | none => (s, [])
  | _ => (s, [])

/-- `handleViewerSignal` -/
def handleViewerSignal (a src : Str) : Message → Screens × List Task
  | .offer sdp =>
    match (s.node a).peers src with
    | some id => (s, [.setRemoteOffer a src id sdp])
    | none => (s.createPeer a src, [.created a src s.next (some sdp)])
  | .stop => (s.set a ((s.node a).shareEnded src), [])
  -- who waits for a sharing to begin does not ask again
  | _ => (s, [])

def handleSignal (a src : Str) (m : Message) : Screens × List Task :=
  match (s.node a).mode with
  | .sharing => s.handleSharerSignal a src m
  | .watching => s.handleViewerSignal a src m
  | .idle => (s, [])

/-- Every handler that is registered takes the signal. -/
def handleAll (a src : Str) (m : Message) : Nat → Screens → Screens × List Task
  | 0, s => (s, [])
  | n + 1, s =>
    ((handleAll a src m n (s.handleSignal a src m).1).1,
      (s.handleSignal a src m).2 ++ (handleAll a src m n (s.handleSignal a src m).1).2)

/-- The dispatch: a signal of one's own, or of another space, is dropped. -/
def receive (src dst space : Str) (m : Message) : Screens × List Task :=
  if src ≠ dst ∧ (s.node dst).spaceId = some space then
    handleAll dst src m (s.node dst).handlers.live.length s
  else (s, [])

end Screens

open Screens

/-- Calls of `startShare`, `stopShare`, `startWatching` and `stopWatching`, and events of a
connection. -/
def startScreens (s : Screens) : Event → Option (Screens × List Task)
  | .startShare a space allowedIps =>
    if (s.node a).mode = .sharing ∧ (s.node a).spaceId = some space then some (s, [])
    else match (s.node a).stopShare with
      | (v, some old) => some (s.set a v,
          broadcast reach a old .stop ++ [.startShare a space allowedIps .stopping])
      | (v, none) => some (s.set a v.stopWatching, [.startShare a space allowedIps .capturing])
  | .stopShare a =>
    match (s.node a).stopShare with
    | (v, some old) => some (s.set a v, broadcast reach a old .stop ++ [.stopShare a])
    | (v, none) => some (s.set a v, [])
  | .startWatching a space =>
    if (s.node a).mode = .watching ∧ (s.node a).spaceId = some space then some (s, [])
    else match (s.node a).stopShare with
      | (v, some old) => some (s.set a v,
          broadcast reach a old .stop ++ [.startWatching a space .stopping])
      | (v, none) =>
        some (s.set a (v.stopWatching.watch space), [.startWatching a space .preloading])
  | .stopWatching a => some (s.set a (s.node a).stopWatching, [])
  | .lost a ip id =>
    if ((s.node a).pcs ip id).isClosed then none else some (s.set a ((s.node a).lost ip id), [])
  | .track a ip id =>
    match ((s.node a).opened ip id).bind Conn.remoteDescription with
    | some sdp =>
      if (s.node a).mode = .watching ∧ (s.sends (source sdp)).isSome then
        some (s.set a { s.node a with remoteStream := some (source sdp) }, [])
      else some (s, [])
    | none => none

def resumeScreens (s : Screens) : Task → Answer → Option (Screens × List Task)
  | .startShare a space allowedIps .stopping, _ =>
    some (s.set a (s.node a).stopEnd.stopWatching, [.startShare a space allowedIps .capturing])
  | .startShare a space allowedIps .capturing, .done =>
    some ({ s.set a ((s.node a).share space allowedIps s.captures.length) with
        captures := s.captures ++ [(a, allowedIps)] },
      [.startShare a space allowedIps .preloading])
  | .startShare _ _ _ .capturing, .failed => some (s, [])
  | .startShare a space _ .preloading, _ =>
    some (s.set a (s.node a).register, broadcast reach a space .start)
  | .stopShare a, _ => some (s.set a (s.node a).stopEnd, [])
  | .startWatching a space .stopping, _ =>
    some (s.set a ((s.node a).stopEnd.stopWatching.watch space),
      [.startWatching a space .preloading])
  | .startWatching a space .preloading, _ =>
    some (s.set a (s.node a).register, broadcast reach a space .requestView)
  | .created a ip id offer, _ =>
    let s' := s.set a ((s.node a).setPeer ip (some id))
    match offer with
    | some sdp => some (s', [.setRemoteOffer a ip id sdp])
    | none => some (s', if (s.node a).spaceId.isSome then [.setLocalOffer a ip id] else [])
  | .setLocalOffer a ip id, .done =>
    match ((s.node a).opened ip id).bind (Conn.setLocalOffer id) with
    | some c =>
      some (s.set a ((s.node a).setConn ip id c), s.signal reach a ip (.offer ⟨id, none⟩))
    | none => some (s, [])
  | .setRemoteOffer a ip id sdp, .done =>
    match (s.node a).opened ip id with
    | some c => some (s.set a ((s.node a).setConn ip id (c.setRemoteOffer sdp)),
        [.setLocalAnswer a ip id])
    | none => some (s, [])
  | .setLocalAnswer a ip id, .done =>
    match ((s.node a).opened ip id).bind (setLocalAnswer id) with
    | some c => some (s.set a ((s.node a).setConn ip id c), [.flush a ip id])
    | none => some (s, [])
  | .flush a ip id, .done =>
    match ((s.node a).pcs ip id).conn.localDescription with
    | some sdp => some (s, s.signal reach a ip (.answer sdp))
    -- no node takes the empty answer
    | none => some (s, [])
  | .setRemoteAnswer a ip id sdp, .done =>
    match ((s.node a).opened ip id).bind (Conn.setRemoteAnswer sdp) with
    | some c => some (s.set a ((s.node a).setConn ip id c), [])
    | none => some (s, [])
  | .message src dst space m, .done => some (s.receive src dst space m)
  | _, .failed => some (s, [])

def screens : Script Screens Task Event Answer where
  start := startScreens reach
  resume := resumeScreens reach

end Script

def idle : ScreenService where
  spaceId := none
  mode := .idle
  localStream := none
  allowedIps := []
  handlers := .none
  peers := fun _ => none
  pcs := fun _ _ => ⟨.new, true⟩
  remoteStream := none

def init : Page Screens Task := ⟨⟨fun _ => idle, 0, fun _ => none, []⟩, []⟩

/-! ## Who may see it

A connection belongs to the one who made it and is for one other, and so is what
a description says of it, which the other has from a signal. So what is given to
the connection when it is made decides who sees it. -/

/-- What the calls of a run are confined to, and with them its requests and what is seen. -/
structure Policy where
  shares : Str → Prop
  watches : Str → Prop
  asks : Str → Str → Prop
  sees : Str × List Str → Str → Prop
  asks_of_watches : ∀ d a, watches d → asks d a
  sees_of_asks : ∀ d a allowedIps, asks d a → shares a → (allowedIps = [] ∨ d ∈ allowedIps) →
    sees (a, allowedIps) d

section Shown

variable (policy : Policy)

/-- The tracks that connection `id` was given are those of a capture that `d` may see. -/
def Screens.Given (s : Screens) (id : Nat) (d : Str) : Prop :=
  id < s.next ∧ ∀ n, s.sends id = some n → ∃ c, s.captures[n]? = some c ∧ policy.sees c d

/-- Connections and captures are only added. -/
structure Screens.Grows (s s' : Screens) : Prop where
  next : s.next ≤ s'.next
  sends : ∀ id, id < s.next → s'.sends id = s.sends id
  captures : ∀ (n : Nat) (c : Str × List Str), s.captures[n]? = some c → s'.captures[n]? = some c

/-- The descriptions of a connection of `a` to `ip`. -/
structure ConnOk (s : Screens) (a ip : Str) (c : Conn) : Prop where
  localDescription : ∀ sdp, c.localDescription = some sdp → s.Given policy (source sdp) ip
  remoteDescription : ∀ sdp, c.remoteDescription = some sdp → s.Given policy (source sdp) a

structure ServiceOk (s : Screens) (a : Str) (v : ScreenService) : Prop where
  sharing : v.mode = .sharing → policy.shares a
  capture : ∀ n, v.localStream = some n → s.captures[n]? = some (a, v.allowedIps)
  peer : ∀ ip id, v.peers ip = some id → s.Given policy id ip
  conn : ∀ ip id, ConnOk policy s a ip (v.pcs ip id).conn
  seen : ∀ id, v.remoteStream = some id → s.Given policy id a

def TaskOk (s : Screens) : Task → Prop
  | .startShare a _ _ _ => policy.shares a
  | .startWatching a _ _ => policy.watches a
  | .created a ip id offer => s.Given policy id ip ∧ ∀ sdp ∈ offer, s.Given policy (source sdp) a
  | .setLocalOffer _ ip id | .setLocalAnswer _ ip id => s.Given policy id ip
  | .setRemoteOffer a ip id sdp => s.Given policy id ip ∧ s.Given policy (source sdp) a
  | .setRemoteAnswer a _ _ sdp => s.Given policy (source sdp) a
  | .message src dst _ .requestView => policy.asks src dst
  | .message _ dst _ (.offer sdp) => s.Given policy (source sdp) dst
  | .message _ dst _ (.answer sdp) => s.Given policy (source sdp) dst
  | _ => True

structure ShownOk (s : Screens) (ws : List Task) : Prop where
  service : ∀ a, ServiceOk policy s a (s.node a)
  task : ∀ t ∈ ws, TaskOk policy s t

/-- A call that the policy knows. -/
def Policy.Admits : PageAct Task Event Answer → Prop
  | .start (.startShare a _ _) => policy.shares a
  | .start (.startWatching a _) => policy.watches a
  | _ => True

variable {policy} {s s' : Screens} {a ip : Str} {v : ScreenService}

namespace Screens

/-- What is given to an address stays so. -/
theorem Grows.given (hgrows : s.Grows s') {id : Nat} {d : Str} (h : s.Given policy id d) :
    s'.Given policy id d := by
  rcases h with ⟨hlt, hsends⟩
  have hle := hgrows.next
  refine ⟨by omega, fun n hn => ?_⟩
  rw [hgrows.sends id hlt] at hn
  rcases hsends n hn with ⟨c, hc, hsees⟩
  exact ⟨c, hgrows.captures n c hc, hsees⟩

theorem Grows.refl (s : Screens) : s.Grows s := ⟨le_rfl, fun _ _ => rfl, fun _ _ h => h⟩

theorem Grows.trans {s'' : Screens} (h : s.Grows s') (h' : s'.Grows s'') : s.Grows s'' where
  next := h.next.trans h'.next
  sends id hlt := (h'.sends id (hlt.trans_le h.next)).trans (h.sends id hlt)
  captures n c hc := h'.captures n c (h.captures n c hc)

theorem grows_set : s.Grows (s.set a v) := ⟨le_rfl, fun _ _ => rfl, fun _ _ h => h⟩

theorem grows_captures (c : Str × List Str) : s.Grows { s with captures := s.captures ++ [c] } := by
  refine ⟨le_rfl, fun _ _ => rfl, fun n c' hc' => ?_⟩
  rcases List.getElem?_eq_some_iff.1 hc' with ⟨hlt, -⟩
  exact (List.getElem?_append_left hlt).trans hc'

theorem grows_createPeer : s.Grows (s.createPeer a ip) where
  next := Nat.le_succ _
  sends _ hlt := Function.update_of_ne hlt.ne _ _
  captures _ _ h := h

@[simp] theorem set_node_self : (s.set a v).node a = v := Function.update_self ..

theorem set_node_of_ne {b : Str} (h : b ≠ a) : (s.set a v).node b = s.node b :=
  Function.update_of_ne h ..

@[simp] theorem createPeer_node_self :
    (s.createPeer a ip).node a = (s.node a).setPc ip s.next ⟨.new, false⟩ := set_node_self

theorem createPeer_node_of_ne {b : Str} (h : b ≠ a) : (s.createPeer a ip).node b = s.node b :=
  set_node_of_ne h

/-- A connection that is made by one who does not share carries nothing. -/
theorem given_createPeer (hok : ServiceOk policy s a (s.node a))
    (hsees : (s.node a).mode = .sharing → policy.sees (a, (s.node a).allowedIps) ip) :
    (s.createPeer a ip).Given policy s.next ip := by
  refine ⟨Nat.lt_succ_self _, fun n hn => ?_⟩
  have hsends : (if (s.node a).mode = .sharing then (s.node a).localStream else none) = some n := by
    simpa [createPeer] using hn
  split at hsends
  · next hsharing => exact ⟨_, hok.capture n hsends, hsees hsharing⟩
  · cases hsends

end Screens

/-- So do the descriptions of a connection. -/
theorem ConnOk.grows (hgrows : s.Grows s') {c : Conn} (h : ConnOk policy s a ip c) :
    ConnOk policy s' a ip c :=
  ⟨fun sdp hsdp => hgrows.given (h.localDescription sdp hsdp),
    fun sdp hsdp => hgrows.given (h.remoteDescription sdp hsdp)⟩

theorem connOk_new : ConnOk policy s a ip .new := ⟨fun _ h => (by cases h), fun _ h => (by cases h)⟩

/-- So does what a task carries. -/
theorem TaskOk.grows (hgrows : s.Grows s') {t : Task} (h : TaskOk policy s t) :
    TaskOk policy s' t := by
  cases t with
  | startShare | startWatching => exact h
  | stopShare | flush => trivial
  | created a ip id offer => exact ⟨hgrows.given h.1, fun sdp hsdp => hgrows.given (h.2 sdp hsdp)⟩
  | setLocalOffer | setLocalAnswer | setRemoteAnswer => exact hgrows.given h
  | setRemoteOffer a ip id sdp => exact ⟨hgrows.given h.1, hgrows.given h.2⟩
  | message src dst space m =>
    cases m with
    | start | stop => trivial
    | requestView => exact h
    | offer sdp | answer sdp => exact hgrows.given h

namespace ServiceOk

variable (hok : ServiceOk policy s a v)

include hok

theorem grows (hgrows : s.Grows s') : ServiceOk policy s' a v where
  sharing := hok.sharing
  capture n hn := hgrows.captures n _ (hok.capture n hn)
  peer ip id hid := hgrows.given (hok.peer ip id hid)
  conn ip id := (hok.conn ip id).grows hgrows
  seen id hid := hgrows.given (hok.seen id hid)

theorem unseen : ServiceOk policy s a { v with remoteStream := none } :=
  ⟨hok.sharing, hok.capture, hok.peer, hok.conn, fun _ h => (by cases h)⟩

theorem setPeer {p : Option Nat} (hp : ∀ id, p = some id → s.Given policy id ip) :
    ServiceOk policy s a (v.setPeer ip p) where
  sharing := hok.sharing
  capture := hok.capture
  peer ip' id hid := by
    by_cases hip : ip' = ip
    · subst hip
      exact hp id ((v.setPeer_self ip' p).symm.trans hid)
    · exact hok.peer ip' id ((v.setPeer_of_ne p hip).symm.trans hid)
  conn := hok.conn
  seen := hok.seen

theorem dropPeer (ip : Str) : ServiceOk policy s a (v.setPeer ip none) :=
  hok.setPeer fun _ h => (by cases h)

theorem setPc {id : Nat} {pc : Pc} (hpc : ConnOk policy s a ip pc.conn) :
    ServiceOk policy s a (v.setPc ip id pc) where
  sharing := hok.sharing
  capture := hok.capture
  peer := hok.peer
  conn ip' id' := by
    by_cases hip : ip' = ip
    · subst hip
      by_cases hid : id' = id
      · subst hid
        simpa [ScreenService.setPc] using hpc
      · simpa [ScreenService.setPc, hid] using hok.conn ip' id'
    · simpa [ScreenService.setPc, hip] using hok.conn ip' id'
  seen := hok.seen

theorem setConn {id : Nat} {c : Conn} (hc : ConnOk policy s a ip c) :
    ServiceOk policy s a (v.setConn ip id c) := hok.setPc hc

theorem closePeer (ip : Str) (id : Nat) : ServiceOk policy s a (v.closePeer ip id) :=
  hok.setPc (hok.conn ip id)

theorem closePeers : ServiceOk policy s a v.closePeers where
  sharing := hok.sharing
  capture := hok.capture
  peer _ _ h := by cases h
  conn ip id := by
    -- closing leaves the descriptions
    have hconn : (v.closePeers.pcs ip id).conn = (v.pcs ip id).conn :=
      (apply_ite Pc.conn _ _ _).trans (ite_self _)
    exact hconn ▸ hok.conn ip id
  seen := hok.seen

theorem leave : ServiceOk policy s a v.leave :=
  ⟨fun h => (by cases h), hok.capture, hok.peer, hok.conn, hok.seen⟩

theorem forget : ServiceOk policy s a v.forget := by
  unfold ScreenService.forget
  split
  · exact ⟨hok.sharing, hok.capture, hok.peer, hok.conn, hok.seen⟩
  · exact hok

theorem stopEnd : ServiceOk policy s a v.stopEnd :=
  ⟨hok.leave.sharing, fun _ h => (by cases h), hok.closePeers.peer, hok.closePeers.conn, hok.seen⟩

theorem stopWatching : ServiceOk policy s a v.stopWatching := by
  unfold ScreenService.stopWatching
  split
  · exact hok.closePeers.leave.unseen
  · exact hok.forget

/-- Whether the others have to be told first or not. -/
theorem stopShare : ServiceOk policy s a v.stopShare.1 := by
  unfold ScreenService.stopShare
  split
  · split
    · exact hok
    · exact hok.stopEnd
  · exact hok.forget

theorem watch (space : Str) : ServiceOk policy s a (v.watch space) :=
  ⟨fun h => (by cases h), hok.capture, hok.peer, hok.conn, fun _ h => (by cases h)⟩

theorem register : ServiceOk policy s a v.register :=
  ⟨hok.sharing, hok.capture, hok.peer, hok.conn, hok.seen⟩

/-- The captures of the node include the one it now shows. -/
theorem share (space : Str) (allowedIps : List Str) {n : Nat} (hshares : policy.shares a)
    (hn : s.captures[n]? = some (a, allowedIps)) :
    ServiceOk policy s a (v.share space allowedIps n) :=
  ⟨fun _ => hshares, fun _ hm => Option.some.inj hm ▸ hn, hok.peer, hok.conn, hok.seen⟩

theorem shareEnded (ip : Str) : ServiceOk policy s a (v.shareEnded ip) := by
  unfold ScreenService.shareEnded
  split
  · exact ((hok.closePeer ip _).dropPeer ip).unseen
  · exact hok.unseen

theorem lost (ip : Str) (id : Nat) : ServiceOk policy s a (v.lost ip id) := by
  unfold ScreenService.lost
  split
  · exact ((hok.dropPeer ip).closePeer ip id).unseen
  · exact (hok.dropPeer ip).closePeer ip id

/-- Every connection that is not closed is in order. -/
theorem opened {id : Nat} {c : Conn} (hc : v.opened ip id = some c) : ConnOk policy s a ip c := by
  unfold ScreenService.opened at hc
  split at hc
  · cases hc
  · obtain rfl := Option.some.inj hc
    exact hok.conn ip id

end ServiceOk

/-! Each description that is set is of the connection itself, or from the signal. -/

/-- The offer names the connection, which was given. -/
theorem ConnOk.setLocalOffer {id : Nat} {c c' : Conn} (h : ConnOk policy s a ip c)
    (hid : s.Given policy id ip) (hc : c.setLocalOffer id = some c') : ConnOk policy s a ip c' := by
  unfold Conn.setLocalOffer at hc
  split at hc
  · cases hc
  · obtain rfl := Option.some.inj hc
    refine ⟨fun sdp hsdp => ?_, h.remoteDescription⟩
    obtain rfl := Option.some.inj hsdp
    exact hid

/-- The offer was given to this node. -/
theorem ConnOk.setRemoteOffer {c : Conn} {sdp : Sdp} (h : ConnOk policy s a ip c)
    (hsdp : s.Given policy (source sdp) a) : ConnOk policy s a ip (c.setRemoteOffer sdp) :=
  ⟨h.localDescription, fun _ heq => Option.some.inj heq ▸ hsdp⟩

theorem ConnOk.setLocalAnswer {id : Nat} {c c' : Conn} (h : ConnOk policy s a ip c)
    (hid : s.Given policy id ip) (hc : setLocalAnswer id c = some c') :
    ConnOk policy s a ip c' := by
  rcases Option.ite_none_right_eq_some.1 hc with ⟨-, hlocal⟩
  obtain rfl := Option.some.inj hlocal
  -- an answer, or an offer, of connection `id` either way
  unfold Conn.setLocal
  split
  · exact ⟨fun _ heq => Option.some.inj heq ▸ hid, h.remoteDescription⟩
  · exact ⟨fun _ heq => Option.some.inj heq ▸ hid, h.remoteDescription⟩

/-- The answer was given to this node. -/
theorem ConnOk.setRemoteAnswer {c c' : Conn} {sdp : Sdp} (h : ConnOk policy s a ip c)
    (hsdp : s.Given policy (source sdp) a) (hc : c.setRemoteAnswer sdp = some c') :
    ConnOk policy s a ip c' := by
  rcases Option.ite_none_right_eq_some.1 hc with ⟨-, hremote⟩
  obtain rfl := Option.some.inj hremote
  exact ⟨h.localDescription, fun _ heq => Option.some.inj heq ▸ hsdp⟩

namespace ShownOk

variable {ws ts : List Task} {reach : Str → List Str}

/-- One service changes. -/
theorem set (h : ShownOk policy s ws) (hv : ServiceOk policy s a v) :
    ShownOk policy (s.set a v) ws where
  service b := by
    by_cases hb : b = a
    · subst hb
      rw [Screens.set_node_self]
      exact hv.grows Screens.grows_set
    · rw [Screens.set_node_of_ne hb]
      exact (h.service b).grows Screens.grows_set
  task t ht := (h.task t ht).grows Screens.grows_set

/-- Tasks are added. -/
theorem add (h : ShownOk policy s ws) (hts : ∀ t ∈ ts, TaskOk policy s t) :
    ShownOk policy s (ws ++ ts) :=
  ⟨h.service, List.forall_mem_append.2 ⟨h.task, hts⟩⟩

theorem tail {t : Task} (h : ShownOk policy s (t :: ws)) : ShownOk policy s ws :=
  ⟨h.service, (List.forall_mem_cons.1 h.task).2⟩

theorem head {t : Task} (h : ShownOk policy s (t :: ws)) : TaskOk policy s t := h.task t (by simp)

theorem capture (h : ShownOk policy s ws) (c : Str × List Str) :
    ShownOk policy { s with captures := s.captures ++ [c] } ws := by
  have hgrows : s.Grows { s with captures := s.captures ++ [c] } := Screens.grows_captures c
  exact ⟨fun b => (h.service b).grows hgrows, fun t ht => (h.task t ht).grows hgrows⟩

/-- The tracks of a new connection are those of the capture, if the node shares. -/
theorem createPeer (h : ShownOk policy s ws) (a ip : Str) :
    ShownOk policy (s.createPeer a ip) ws := by
  have hgrows : s.Grows (s.createPeer a ip) := Screens.grows_createPeer
  have hv : ServiceOk policy s a ((s.node a).setPc ip s.next ⟨.new, false⟩) :=
    (h.service a).setPc connOk_new
  refine ⟨fun b => ?_, fun t ht => (h.task t ht).grows hgrows⟩
  by_cases hb : b = a
  · subst hb
    rw [Screens.createPeer_node_self]
    exact hv.grows hgrows
  · rw [Screens.createPeer_node_of_ne hb]
    exact (h.service b).grows hgrows

/-- Only who is let gets a connection. -/
theorem handleSharerSignal (h : ShownOk policy s ws) (hsharing : (s.node a).mode = .sharing)
    {src space : Str} {m : Message} (hm : .message src a space m ∈ ws) :
    ShownOk policy (s.handleSharerSignal a src m).1 (ws ++ (s.handleSharerSignal a src m).2) := by
  cases m with
  | requestView =>
    have hasks : policy.asks src a := h.task _ hm
    simp only [Screens.handleSharerSignal]
    split
    · simpa using h
    · next hlets =>
      split
      · simpa using h
      · refine (h.createPeer a src).add (List.forall_mem_singleton.2 ⟨?_, nofun⟩)
        refine Screens.given_createPeer (h.service a) fun _ => ?_
        exact policy.sees_of_asks src a _ hasks ((h.service a).sharing hsharing) (not_not.1 hlets)
  | answer sdp =>
    have hsdp : s.Given policy (source sdp) a := h.task _ hm
    simp only [Screens.handleSharerSignal]
    split
    · exact h.add (List.forall_mem_singleton.2 hsdp)
    · simpa using h
  | start | stop | offer => simpa [Screens.handleSharerSignal] using h

/-- A viewer has no tracks to give. -/
theorem handleViewerSignal (h : ShownOk policy s ws) (hwatching : (s.node a).mode = .watching)
    {src space : Str} {m : Message} (hm : .message src a space m ∈ ws) :
    ShownOk policy (s.handleViewerSignal a src m).1 (ws ++ (s.handleViewerSignal a src m).2) := by
  cases m with
  | offer sdp =>
    have hsdp : s.Given policy (source sdp) a := h.task _ hm
    simp only [Screens.handleViewerSignal]
    split
    · next id hid =>
      exact h.add (List.forall_mem_singleton.2 ⟨(h.service a).peer src id hid, hsdp⟩)
    · refine (h.createPeer a src).add (List.forall_mem_singleton.2 ⟨?_, ?_⟩)
      · -- who watches gives its connections no tracks
        refine Screens.given_createPeer (h.service a) fun hsharing => ?_
        rw [hwatching] at hsharing
        cases hsharing
      · intro sdp' hsdp'
        obtain rfl := Option.some.inj hsdp'
        exact Screens.grows_createPeer.given hsdp
  | stop => simpa [Screens.handleViewerSignal] using h.set ((h.service a).shareEnded src)
  | start | requestView | answer => simpa [Screens.handleViewerSignal] using h

theorem handleSignal (h : ShownOk policy s ws) {src space : Str} {m : Message}
    (hm : .message src a space m ∈ ws) :
    ShownOk policy (s.handleSignal a src m).1 (ws ++ (s.handleSignal a src m).2) := by
  unfold Screens.handleSignal
  split
  · next hsharing => exact h.handleSharerSignal hsharing hm
  · next hwatching => exact h.handleViewerSignal hwatching hm
  · simpa using h

/-- However often a handler is registered. -/
theorem handleAll {src space : Str} {m : Message} (n : Nat) (h : ShownOk policy s ws)
    (hm : .message src a space m ∈ ws) :
    ShownOk policy (Screens.handleAll a src m n s).1 (ws ++ (Screens.handleAll a src m n s).2) := by
  induction n generalizing s ws with
  | zero => simpa [Screens.handleAll] using h
  | succ n ih =>
    simp only [Screens.handleAll]
    rw [← List.append_assoc]
    exact ih (h.handleSignal hm) (List.mem_append_left _ hm)

theorem receive {src dst space : Str} {m : Message}
    (h : ShownOk policy s (.message src dst space m :: ws)) :
    ShownOk policy (s.receive src dst space m).1 (ws ++ (s.receive src dst space m).2) := by
  unfold Screens.receive
  split
  · exact tail (h.handleAll _ List.mem_cons_self)
  · simpa using h.tail

theorem forall_broadcast {b space : Str} {m : Message}
    (hm : ∀ dst, TaskOk policy s (.message b dst space m)) :
    ∀ t ∈ Screens.broadcast reach b space m, TaskOk policy s t := by
  intro t ht
  rcases List.mem_map.1 ht with ⟨dst, -, rfl⟩
  exact hm dst

theorem forall_signal {b : Str} {m : Message}
    (hm : ∀ space, TaskOk policy s' (.message b ip space m)) :
    ∀ t ∈ s.signal reach b ip m, TaskOk policy s' t := by
  intro t ht
  unfold Screens.signal at ht
  split at ht
  · split at ht
    · rw [List.mem_singleton.1 ht]
      exact hm _
    · cases ht
  · cases ht

/-- A share ends: the others are told, and the call goes on. -/
theorem stopping (h : ShownOk policy s ws) {old : Str} {t : Task}
    (hstop : (s.node a).stopShare = (v, some old)) (ht : TaskOk policy (s.set a v) t) :
    ShownOk policy (s.set a v) (ws ++ (Screens.broadcast reach a old .stop ++ [t])) := by
  have hv := (h.service a).stopShare
  rw [hstop] at hv
  refine (h.set hv).add (List.forall_mem_append.2 ⟨?_, ?_⟩)
  · exact forall_broadcast fun _ => trivial
  · exact List.forall_mem_singleton.2 ht

/-- There was no share. -/
theorem stopped (h : ShownOk policy s ws) (hstop : (s.node a).stopShare = (v, none)) :
    ServiceOk policy s a v := by
  have hv := (h.service a).stopShare
  rwa [hstop] at hv

/-- Every call and every event of a connection keeps it. -/
theorem start {e : Event} {s' : Screens} (h : ShownOk policy s ws)
    (hadmits : policy.Admits (.start e))
    (hstart : startScreens reach s e = some (s', ts)) : ShownOk policy s' (ws ++ ts) := by
  cases e with
  | startShare a space allowedIps =>
    simp only [startScreens] at hstart
    split at hstart
    · -- the space has it already
      cases hstart
      simpa using h
    · split at hstart
      · next v old hstop =>
        -- an earlier share
        cases hstart
        exact h.stopping hstop hadmits
      · next v hstop =>
        cases hstart
        have hv := h.stopped hstop
        exact (h.set hv.stopWatching).add (List.forall_mem_singleton.2 hadmits)
  | stopShare a =>
    simp only [startScreens] at hstart
    split at hstart
    · next v old hstop =>
      cases hstart
      exact h.stopping hstop trivial
    · next v hstop =>
      -- there is none
      cases hstart
      simpa using h.set (h.stopped hstop)
  | startWatching a space =>
    simp only [startScreens] at hstart
    split at hstart
    · -- the space is watched already
      cases hstart
      simpa using h
    · split at hstart
      · next v old hstop =>
        -- an earlier share
        cases hstart
        exact h.stopping hstop hadmits
      · next v hstop =>
        cases hstart
        have hv := (h.stopped hstop).stopWatching
        exact (h.set (hv.watch space)).add (List.forall_mem_singleton.2 hadmits)
  | stopWatching a =>
    cases hstart
    simpa using h.set (h.service a).stopWatching
  | lost a ip id =>
    rcases Option.ite_none_left_eq_some.1 hstart with ⟨-, hlost⟩
    cases hlost
    simpa using h.set ((h.service a).lost ip id)
  | track a ip id =>
    simp only [startScreens] at hstart
    split at hstart
    · next sdp hsdp =>
      rcases Option.bind_eq_some_iff.1 hsdp with ⟨c, hc, hremote⟩
      have hgiven := ((h.service a).opened hc).remoteDescription sdp hremote
      split at hstart
      · cases hstart
        rw [List.append_nil]
        -- the picture is the one the description is about
        have hok := h.service a
        refine h.set ⟨hok.sharing, hok.capture, hok.peer, hok.conn, ?_⟩
        intro id hid
        obtain rfl := Option.some.inj hid
        exact hgiven
      · cases hstart
        simpa using h
    · cases hstart

theorem setConn (h : ShownOk policy s ws) {id : Nat} {c : Conn} (hc : ConnOk policy s a ip c) :
    ShownOk policy (s.set a ((s.node a).setConn ip id c)) ws := h.set ((h.service a).setConn hc)

/-- Every answer keeps it. -/
theorem resume {t : Task} {b : Answer} {s' : Screens} (h : ShownOk policy s (t :: ws))
    (hresume : resumeScreens reach s t b = some (s', ts)) : ShownOk policy s' (ws ++ ts) := by
  have hfailed : ∀ {s' ts}, some (s, ([] : List Task)) = some (s', ts) →
      ShownOk policy s' (ws ++ ts) := by
    intro s' ts heq
    cases heq
    simpa using h.tail
  cases t with
  | startShare a space allowedIps now =>
    have hshares : policy.shares a := h.head
    cases now with
    | stopping =>
      cases hresume
      exact (h.tail.set (h.service a).stopEnd.stopWatching).add
        (List.forall_mem_singleton.2 hshares)
    | capturing =>
      cases b with
      | done =>
        -- the new capture is the last one
        cases hresume
        have hcapture := h.tail.capture (a, allowedIps)
        have hn : (s.captures ++ [(a, allowedIps)])[s.captures.length]? = some (a, allowedIps) := by
          simp
        exact (hcapture.set ((hcapture.service a).share space allowedIps hshares hn)).add
          (List.forall_mem_singleton.2 hshares)
      | failed => exact hfailed hresume
    | preloading =>
      cases hresume
      exact (h.tail.set (h.service a).register).add (forall_broadcast fun _ => trivial)
  | stopShare a =>
    cases hresume
    simpa using h.tail.set (h.service a).stopEnd
  | startWatching a space now =>
    have hwatches : policy.watches a := h.head
    cases now with
    | stopping =>
      cases hresume
      refine (h.tail.set ?_).add (List.forall_mem_singleton.2 hwatches)
      exact (h.service a).stopEnd.stopWatching.watch space
    | preloading =>
      cases hresume
      -- the requests
      refine (h.tail.set (h.service a).register).add (forall_broadcast fun dst => ?_)
      exact policy.asks_of_watches a dst hwatches
  | created a ip id offer =>
    have hcreated : s.Given policy id ip ∧ ∀ sdp ∈ offer, s.Given policy (source sdp) a := h.head
    have hset : ShownOk policy (s.set a ((s.node a).setPeer ip (some id))) ws := by
      refine h.tail.set ((h.service a).setPeer fun id' hid' => ?_)
      obtain rfl := Option.some.inj hid'
      exact hcreated.1
    have hgrows : s.Grows (s.set a ((s.node a).setPeer ip (some id))) := Screens.grows_set
    cases offer with
    | some sdp =>
      -- a viewer answers
      cases hresume
      refine hset.add (List.forall_mem_singleton.2 ⟨hgrows.given hcreated.1, hgrows.given ?_⟩)
      exact hcreated.2 sdp rfl
    | none =>
      -- who shares offers, unless it has left the space
      cases hresume
      split
      · exact hset.add (List.forall_mem_singleton.2 (hgrows.given hcreated.1))
      · simpa using hset
  | setLocalOffer a ip id =>
    cases b with
    | failed => exact hfailed hresume
    | done =>
      have hid : s.Given policy id ip := h.head
      simp only [resumeScreens] at hresume
      split at hresume
      · next c' hc' =>
        cases hresume
        rcases Option.bind_eq_some_iff.1 hc' with ⟨c, hc, hlocal⟩
        have hconn := ((h.service a).opened hc).setLocalOffer hid hlocal
        have hset : ShownOk policy (s.set a ((s.node a).setConn ip id c')) ws :=
          h.tail.setConn hconn
        have hgrows : s.Grows (s.set a ((s.node a).setConn ip id c')) := Screens.grows_set
        exact hset.add (forall_signal fun _ => hgrows.given hid)
      · exact hfailed hresume
  | setRemoteOffer a ip id sdp =>
    cases b with
    | failed => exact hfailed hresume
    | done =>
      have hsdp : s.Given policy id ip ∧ s.Given policy (source sdp) a := h.head
      simp only [resumeScreens] at hresume
      split at hresume
      · next c hc =>
        cases hresume
        refine (h.tail.setConn (((h.service a).opened hc).setRemoteOffer hsdp.2)).add ?_
        exact List.forall_mem_singleton.2 (Screens.grows_set.given hsdp.1)
      · exact hfailed hresume
  | setLocalAnswer a ip id =>
    cases b with
    | failed => exact hfailed hresume
    | done =>
      have hid : s.Given policy id ip := h.head
      simp only [resumeScreens] at hresume
      split at hresume
      · next c' hc' =>
        cases hresume
        rcases Option.bind_eq_some_iff.1 hc' with ⟨c, hc, hlocal⟩
        exact (h.tail.setConn (((h.service a).opened hc).setLocalAnswer hid hlocal)).add
          (List.forall_mem_singleton.2 trivial)
      · exact hfailed hresume
  | flush a ip id =>
    cases b with
    | failed => exact hfailed hresume
    | done =>
      simp only [resumeScreens] at hresume
      split at hresume
      · next sdp hsdp =>
        cases hresume
        have hconn := (h.service a).conn ip id
        exact h.tail.add (forall_signal fun _ => hconn.localDescription sdp hsdp)
      · exact hfailed hresume
  | setRemoteAnswer a ip id sdp =>
    cases b with
    | failed => exact hfailed hresume
    | done =>
      have hsdp : s.Given policy (source sdp) a := h.head
      simp only [resumeScreens] at hresume
      split at hresume
      · next c' hc' =>
        cases hresume
        rcases Option.bind_eq_some_iff.1 hc' with ⟨c, hc, hremote⟩
        simpa using h.tail.setConn (((h.service a).opened hc).setRemoteAnswer hsdp hremote)
      · exact hfailed hresume
  | message src dst space m =>
    cases b with
    | failed => exact hfailed hresume
    | done =>
      have hr : s.receive src dst space m = (s', ts) := Option.some.inj hresume
      simpa only [hr] using h.receive

/-- Nothing is shown at first. -/
theorem init : ShownOk policy init.shared init.waiting where
  service _ := ⟨nofun, nofun, nofun, fun _ _ => connOk_new, nofun⟩
  task _ ht := absurd ht List.not_mem_nil

end ShownOk

/-- So does every step of the page. -/
theorem shownOk_keeps (reach : Str → List Str) :
    (screens reach).Keeps (fun _ _ e => policy.Admits e) (ShownOk policy) where
  perm _ _ _ hperm h := ⟨h.service, fun t ht => h.task t (hperm.mem_iff.2 ht)⟩
  start _ _ _ _ _ h hadmits hstart := h.start hadmits hstart
  resume _ _ _ _ _ _ h _ hresume := h.resume hresume

end Shown

/-- `c` is the capture that `d` sees. -/
def Screens.Sees (s : Screens) (d : Str) (c : Str × List Str) : Prop :=
  ∃ id n, (s.node d).remoteStream = some id ∧ s.sends id = some n ∧ s.captures[n]? = some c

/-- What is seen is allowed. -/
theorem ShownOk.sees {policy : Policy} {s : Screens} {ws : List Task} (h : ShownOk policy s ws)
    {d : Str} {c : Str × List Str} (hsees : s.Sees d c) : policy.sees c d := by
  rcases hsees with ⟨id, n, hid, hn, hc⟩
  rcases ((h.service d).seen id hid).2 n hn with ⟨c', hc', hpolicy⟩
  obtain rfl := Option.some.inj (hc'.symm.trans hc)
  exact hpolicy

/-- Everybody may share and watch. -/
def Policy.lets : Policy where
  shares _ := True
  watches _ := True
  asks _ _ := True
  sees c d := c.2 = [] ∨ d ∈ c.2
  asks_of_watches _ _ _ := trivial
  sees_of_asks _ _ _ _ _ hlets := hlets

theorem ShownOk.run {policy : Policy} {reach : Str → List Str}
    {as : List (PageAct Task Event Answer)} {p p' : Page Screens Task}
    (h : ShownOk policy p.shared p.waiting) (has : ∀ e ∈ as, policy.Admits e)
    (hrun : Lib.run (screens reach).step p as = some p') :
    ShownOk policy p'.shared p'.waiting := by
  have hadmits : Along (screens reach).step (Script.Within fun _ _ e => policy.Admits e) p as := by
    clear h hrun
    induction as generalizing p with
    | nil => exact along_nil _ _
    | cons e as ih =>
      rcases List.forall_mem_cons.1 has with ⟨he, has⟩
      cases hstep : (screens reach).step p e with
      | none => simp [Along, hstep]
      | some q =>
        refine (along_cons hstep as).2 ⟨?_, ih has⟩
        cases e with
        | start e => exact he
        | resume t b => exact he
  exact (shownOk_keeps reach).run h hadmits hrun

/-- Whoever sees a screen is one of those it was shared with, whatever the calls, the signals
that are lost and the order of all of them. -/
theorem seen_allowed (reach : Str → List Str) {as : List (PageAct Task Event Answer)}
    {p : Page Screens Task} (hrun : Lib.run (screens reach).step init as = some p) {d : Str}
    {c : Str × List Str} (hsees : p.shared.Sees d c) : c.2 = [] ∨ d ∈ c.2 := by
  have hinit : ShownOk .lets init.shared init.waiting := ShownOk.init
  refine (hinit.run (fun e _ => ?_) hrun).sees hsees
  rcases e with e | ⟨t, b⟩
  · cases e with
    | _ => trivial
  · trivial

section Film

/-- Two nodes, `a` and `b`. -/
def film : Str → List Str := fun _ => [['a'], ['b']]

def sharing : List (PageAct Task Event Answer) :=
  [.start (.startShare ['a'] ['s'] [['b']]),
    .resume (.startShare ['a'] ['s'] [['b']] .capturing) .done,
    .resume (.startShare ['a'] ['s'] [['b']] .preloading) .done]

def watching : List (PageAct Task Event Answer) :=
  [.start (.startWatching ['b'] ['s']), .resume (.startWatching ['b'] ['s'] .preloading) .done,
    .resume (.message ['b'] ['b'] ['s'] .requestView) .done]

def viewing : List (PageAct Task Event Answer) :=
  [.resume (.message ['b'] ['a'] ['s'] .requestView) .done,
    .resume (.created ['a'] ['b'] 0 none) .done, .resume (.setLocalOffer ['a'] ['b'] 0) .done,
    .resume (.message ['a'] ['b'] ['s'] (.offer ⟨0, none⟩)) .done,
    .resume (.created ['b'] ['a'] 1 (some ⟨0, none⟩)) .done,
    .resume (.setRemoteOffer ['b'] ['a'] 1 ⟨0, none⟩) .done, .start (.track ['b'] ['a'] 1)]

theorem seen_allowed_film :
    ∃ p, Lib.run (screens film).step init (sharing ++ watching ++ viewing) = some p ∧
      p.shared.Sees ['b'] (['a'], [['b']]) ∧ ([['b']] = [] ∨ ['b'] ∈ [['b']]) := by
  have hseen : (Lib.run (screens film).step init (sharing ++ watching ++ viewing)).map
      (fun p => ((p.shared.node ['b']).remoteStream, p.shared.sends 0, p.shared.captures[0]?)) =
      some (some 0, some 0, some (['a'], [['b']])) := by rfl
  rcases Option.map_eq_some_iff.1 hseen with ⟨p, hrun, hp⟩
  rcases Prod.mk.inj hp with ⟨hstream, hsends⟩
  rcases Prod.mk.inj hsends with ⟨hsends, hcapture⟩
  have hsees : p.shared.Sees ['b'] (['a'], [['b']]) := ⟨0, 0, hstream, hsends, hcapture⟩
  exact ⟨p, hrun, hsees, seen_allowed film hrun hsees⟩

end Film

/-! Requests are sent once, when a node starts to watch. -/

/-- `v` is about to ask `a`. -/
def Asks (v a : Str) : Task → Prop
  | .startWatching d _ _ => d = v
  | .message d b _ .requestView => d = v ∧ b = a
  | _ => False

section Unseen

variable (v a : Str)

/-- All but `a` may share. -/
def Policy.unshared : Policy where
  shares b := b ≠ a
  watches _ := True
  asks _ _ := True
  sees c d := ¬ (d = v ∧ c.1 = a)
  asks_of_watches _ _ _ := trivial
  sees_of_asks _ _ _ _ hshares _ := fun h => hshares h.2

/-- All but `v` may start to watch, and `v` asks all but `a`. -/
def Policy.unasked : Policy where
  shares _ := True
  watches d := d ≠ v
  asks d b := ¬ (d = v ∧ b = a)
  sees c d := ¬ (d = v ∧ c.1 = a)
  asks_of_watches _ _ hwatches := fun h => hwatches h.1
  sees_of_asks _ _ _ hasks _ _ := hasks

variable {v a}

/-- What nobody has yet been given stays so, when no one asks for it any more. -/
theorem ShownOk.unasked {s : Screens} {ws : List Task} (h : ShownOk (.unshared v a) s ws)
    (hws : ∀ t ∈ ws, ¬ Asks v a t) : ShownOk (.unasked v a) s ws where
  service b :=
    have hb := h.service b
    { sharing := fun _ => trivial
      capture := hb.capture
      peer := hb.peer
      conn := fun ip id => ⟨(hb.conn ip id).localDescription, (hb.conn ip id).remoteDescription⟩
      seen := hb.seen }
  task t ht := by
    have hok := h.task t ht
    have hasks := hws t ht
    cases t with
    | startShare => trivial
    | startWatching => exact hasks
    | message src dst space m =>
      cases m with
      | requestView => exact hasks
      | _ => exact hok
    | _ => exact hok

variable {reach : Str → List Str} {before after : List (PageAct Task Event Answer)}
  {p p' : Page Screens Task}

/-- A node that has asked before a sharing begins does not see it, in any order of what
follows, until it starts to watch anew: that the sharing begins is not a reason to ask. -/
theorem waiting_unseen (hbefore : Lib.run (screens reach).step init before = some p)
    (hshare : ∀ space allowedIps, .start (.startShare a space allowedIps) ∉ before)
    (hasked : ∀ t ∈ p.waiting, ¬ Asks v a t)
    (hafter : Lib.run (screens reach).step p after = some p')
    (hwatch : ∀ space, .start (.startWatching v space) ∉ after) (allowedIps : List Str) :
    ¬ p'.shared.Sees v (a, allowedIps) := by
  have hunshared : ShownOk (.unshared v a) p.shared p.waiting := by
    refine ShownOk.init.run (fun e he => ?_) hbefore
    rcases e with e | ⟨t, b⟩
    · cases e with
      | startShare b space allowedIps =>
        intro hb
        subst hb
        exact hshare space allowedIps he
      | _ => trivial
    · trivial
  have hunasked : ShownOk (.unasked v a) p'.shared p'.waiting := by
    refine (hunshared.unasked hasked).run (fun e he => ?_) hafter
    rcases e with e | ⟨t, b⟩
    · cases e with
      | startWatching d space =>
        intro hd
        subst hd
        exact hwatch space he
      | _ => trivial
    · trivial
  intro hsees
  exact hunasked.sees hsees ⟨rfl, rfl⟩

/-- The request comes before the sharing, and nothing after it. -/
theorem waiting_unseen_film :
    ∃ p p', Lib.run (screens film).step init
        (watching ++ [.resume (.message ['b'] ['a'] ['s'] .requestView) .done]) = some p ∧
      Lib.run (screens film).step p sharing = some p' ∧
      ¬ p'.shared.Sees ['b'] (['a'], [['b']]) := by
  have hwaiting : (Lib.run (screens film).step init
      (watching ++ [.resume (.message ['b'] ['a'] ['s'] .requestView) .done])).map
      (fun p => (p.waiting, (Lib.run (screens film).step p sharing).isSome)) = some ([], true) := by
    decide +kernel
  rcases Option.map_eq_some_iff.1 hwaiting with ⟨p, hbefore, hp⟩
  rcases Prod.mk.inj hp with ⟨hp, hsome⟩
  rcases Option.isSome_iff_exists.1 hsome with ⟨p', hafter⟩
  refine ⟨p, p', hbefore, hafter, ?_⟩
  refine waiting_unseen hbefore (fun _ _ => by simp [watching]) ?_ hafter
    (fun _ => by simp [sharing]) _
  rw [hp]
  exact fun _ h => absurd h List.not_mem_nil

end Unseen

end HomeTier.Watching
