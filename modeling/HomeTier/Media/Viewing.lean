import HomeTier.Media.Watching

/-! # A viewer that asks

A node `a` shares its screen, and a node `v` that it lets watch starts to. What is
then between the two is always in one of twelve places (`Progress`), with one
function that waits or one signal in flight, until the two are connected. Other
nodes may do what they like, with `a` and `v` too: a step that is not between the
two leaves what they hold of each other (`Same`). That `a` listens and has a
capture is what its calls leave, when no two of them are under way at once
(`CallsOk`).
-/

namespace HomeTier.Watching

open Lib
open Mesh (Sdp Conn SignalingState)

/-! ## What a step changes -/

/-- The node that a task is of, and the one it is about; a call is about none. -/
def ends : Task → Str × Option Str
  | .startShare d _ _ _ => (d, none)
  | .stopShare d => (d, none)
  | .startWatching d _ _ => (d, none)
  | .created c ip _ _ => (c, some ip)
  | .setLocalOffer c ip _ => (c, some ip)
  | .setRemoteOffer c ip _ _ => (c, some ip)
  | .setLocalAnswer c ip _ => (c, some ip)
  | .flush c ip _ => (c, some ip)
  | .setRemoteAnswer c ip _ _ => (c, some ip)
  | .message src dst _ _ => (dst, some src)

def Event.ends : Event → Str × Option Str
  | .startShare d _ _ => (d, none)
  | .stopShare d => (d, none)
  | .startWatching d _ => (d, none)
  | .stopWatching d => (d, none)
  | .lost c ip _ => (c, some ip)
  | .track c ip _ => (c, some ip)

/-- The same but for what is about `ip`, and for the picture. -/
structure SameBut (ip : Str) (w w' : ScreenService) : Prop where
  spaceId : w'.spaceId = w.spaceId
  mode : w'.mode = w.mode
  localStream : w'.localStream = w.localStream
  allowedIps : w'.allowedIps = w.allowedIps
  handlers : w'.handlers = w.handlers
  peers : ∀ ip', ip' ≠ ip → w'.peers ip' = w.peers ip'
  pcs : ∀ ip', ip' ≠ ip → w'.pcs ip' = w.pcs ip'

namespace SameBut

variable {w w' w'' : ScreenService} {ip : Str}

theorem refl (w : ScreenService) : SameBut ip w w :=
  ⟨rfl, rfl, rfl, rfl, rfl, fun _ _ => rfl, fun _ _ => rfl⟩

theorem trans (h : SameBut ip w w') (h' : SameBut ip w' w'') : SameBut ip w w'' where
  spaceId := h'.spaceId.trans h.spaceId
  mode := h'.mode.trans h.mode
  localStream := h'.localStream.trans h.localStream
  allowedIps := h'.allowedIps.trans h.allowedIps
  handlers := h'.handlers.trans h.handlers
  peers ip' hip := (h'.peers ip' hip).trans (h.peers ip' hip)
  pcs ip' hip := (h'.pcs ip' hip).trans (h.pcs ip' hip)

theorem stream (w : ScreenService) (r : Option Nat) : SameBut ip w { w with remoteStream := r } :=
  ⟨rfl, rfl, rfl, rfl, rfl, fun _ _ => rfl, fun _ _ => rfl⟩

theorem setPeer (p : Option Nat) : SameBut ip w (w.setPeer ip p) :=
  ⟨rfl, rfl, rfl, rfl, rfl, fun _ hip => w.setPeer_of_ne p hip, fun _ _ => rfl⟩

theorem setPc {id : Nat} {pc : Pc} : SameBut ip w (w.setPc ip id pc) :=
  ⟨rfl, rfl, rfl, rfl, rfl, fun _ _ => rfl, fun _ hip => Function.update_of_ne hip ..⟩

theorem shareEnded : SameBut ip w (w.shareEnded ip) := by
  unfold ScreenService.shareEnded
  split
  · next id _ =>
    have hclose : SameBut ip w (w.closePeer ip id) := setPc
    exact (hclose.trans (setPeer none)).trans (stream _ none)
  · exact stream w none

theorem lost {id : Nat} : SameBut ip w (w.lost ip id) := by
  have hclose : SameBut ip w ((w.setPeer ip none).closePeer ip id) := (setPeer none).trans setPc
  unfold ScreenService.lost
  split
  · exact hclose.trans (stream _ none)
  · exact hclose

end SameBut

/-- Only node `e.1` has changed; if `e.2` is another, then only with respect to that one. -/
structure Only (e : Str × Option Str) (s s' : Screens) : Prop where
  grows : s.Grows s'
  others : ∀ d, d ≠ e.1 → s'.node d = s.node d
  slot : ∀ ip, e.2 = some ip → SameBut ip (s.node e.1) (s'.node e.1)

/-- What comes of a task is of its node, or from its node to the other one; a call speaks to all. -/
def Follows (e : Str × Option Str) (t : Task) : Prop :=
  ends t = e ∨ ∃ ip, ends t = (ip, some e.1) ∧ (e.2 = none ∨ e.2 = some ip)

section Frame

variable {c ip : Str} {s s' : Screens} {w : ScreenService} {reach : Str → List Str}
  {ts : List Task}

namespace Only

theorem refl (e : Str × Option Str) (s : Screens) : Only e s s :=
  ⟨.refl s, fun _ _ => rfl, fun _ _ => .refl _⟩

theorem trans {e : Str × Option Str} {s'' : Screens} (h : Only e s s') (h' : Only e s' s'') :
    Only e s s'' where
  grows := h.grows.trans h'.grows
  others d hd := (h'.others d hd).trans (h.others d hd)
  slot ip hip := (h.slot ip hip).trans (h'.slot ip hip)

theorem call : Only (c, none) s (s.set c w) :=
  ⟨Screens.grows_set, fun _ hd => Screens.set_node_of_ne hd, fun _ hip => by cases hip⟩

theorem set (h : SameBut ip (s.node c) w) : Only (c, some ip) s (s.set c w) where
  grows := Screens.grows_set
  others _ hd := Screens.set_node_of_ne hd
  slot ip' hip := by
    obtain rfl := Option.some.inj hip
    exact Screens.set_node_self.symm ▸ h

theorem createPeer : Only (c, some ip) s (s.createPeer c ip) := by
  have hset : Only (c, some ip) s (s.set c ((s.node c).setPc ip s.next ⟨.new, false⟩)) :=
    set .setPc
  exact ⟨Screens.grows_createPeer, hset.others, hset.slot⟩

end Only

theorem follows_broadcast {space : Str} {m : Message} :
    ∀ t ∈ Screens.broadcast reach c space m, Follows (c, none) t := by
  intro t ht
  rcases List.mem_map.1 ht with ⟨dst, -, rfl⟩
  exact .inr ⟨dst, rfl, .inl rfl⟩

theorem follows_signal {m : Message} :
    ∀ t ∈ s.signal reach c ip m, Follows (c, some ip) t := by
  intro t ht
  unfold Screens.signal at ht
  split at ht
  · split at ht
    · rw [List.mem_singleton.1 ht]
      exact .inr ⟨ip, rfl, .inr rfl⟩
    · cases ht
  · cases ht

theorem only_handleSignal (m : Message) : Only (c, some ip) s (s.handleSignal c ip m).1 ∧
    ∀ t ∈ (s.handleSignal c ip m).2, Follows (c, some ip) t := by
  have hnone : Only (c, some ip) s s ∧ ∀ t ∈ ([] : List Task), Follows (c, some ip) t := by
    simpa using Only.refl _ s
  unfold Screens.handleSignal
  split
  · cases m with
    | requestView =>
      simp only [Screens.handleSharerSignal]
      split
      · exact hnone
      · split
        · exact hnone
        · exact ⟨.createPeer, List.forall_mem_singleton.2 (.inl rfl)⟩
    | answer sdp =>
      simp only [Screens.handleSharerSignal]
      split
      · exact ⟨.refl _ s, List.forall_mem_singleton.2 (.inl rfl)⟩
      · exact hnone
    | start | stop | offer => exact hnone
  · cases m with
    | offer sdp =>
      simp only [Screens.handleViewerSignal]
      split
      · exact ⟨.refl _ s, List.forall_mem_singleton.2 (.inl rfl)⟩
      · exact ⟨.createPeer, List.forall_mem_singleton.2 (.inl rfl)⟩
    | stop =>
      refine ⟨.set .shareEnded, ?_⟩
      simp [Screens.handleViewerSignal]
    | start | requestView | answer => exact hnone
  · exact hnone

theorem only_handleAll (m : Message) (n : Nat) :
    Only (c, some ip) s (Screens.handleAll c ip m n s).1 ∧
      ∀ t ∈ (Screens.handleAll c ip m n s).2, Follows (c, some ip) t := by
  induction n generalizing s with
  | zero => exact ⟨.refl _ s, by simp [Screens.handleAll]⟩
  | succ n ih =>
    have hone : Only (c, some ip) s (s.handleSignal c ip m).1 ∧
        ∀ t ∈ (s.handleSignal c ip m).2, Follows (c, some ip) t := only_handleSignal m
    exact ⟨hone.1.trans ih.1, List.forall_mem_append.2 ⟨hone.2, ih.2⟩⟩

theorem only_receive (src dst space : Str) (m : Message) :
    Only (dst, some src) s (s.receive src dst space m).1 ∧
      ∀ t ∈ (s.receive src dst space m).2, Follows (dst, some src) t := by
  unfold Screens.receive
  split
  · exact only_handleAll m _
  · exact ⟨.refl _ s, by simp⟩

/-- A call or an event changes one service, and what follows is of that one. -/
theorem only_start {e : Event} (hstart : startScreens reach s e = some (s', ts)) :
    Only e.ends s s' ∧ ∀ t ∈ ts, Follows e.ends t := by
  cases e with
  | startShare | startWatching =>
    simp only [startScreens] at hstart
    split at hstart
    · cases hstart
      simpa using Only.refl _ s
    · split at hstart
      · cases hstart
        refine ⟨.call, List.forall_mem_append.2 ⟨follows_broadcast, ?_⟩⟩
        exact List.forall_mem_singleton.2 (.inl rfl)
      · cases hstart
        exact ⟨.call, List.forall_mem_singleton.2 (.inl rfl)⟩
  | stopShare c =>
    simp only [startScreens] at hstart
    split at hstart
    · cases hstart
      refine ⟨.call, List.forall_mem_append.2 ⟨follows_broadcast, ?_⟩⟩
      exact List.forall_mem_singleton.2 (.inl rfl)
    · cases hstart
      exact ⟨.call, by simp⟩
  | stopWatching c =>
    cases hstart
    exact ⟨.call, by simp⟩
  | lost c ip id =>
    rcases Option.ite_none_left_eq_some.1 hstart with ⟨-, hlost⟩
    cases hlost
    exact ⟨.set .lost, by simp⟩
  | track c ip id =>
    simp only [startScreens] at hstart
    split at hstart
    · split at hstart
      · cases hstart
        exact ⟨.set (.stream _ _), by simp⟩
      · cases hstart
        simpa using Only.refl _ s
    · cases hstart

/-- So does an answer. -/
theorem only_resume {t : Task} {b : Answer} (hresume : resumeScreens reach s t b = some (s', ts)) :
    Only (ends t) s s' ∧ ∀ t' ∈ ts, Follows (ends t) t' := by
  have hfailed : ∀ {s' ts}, some (s, ([] : List Task)) = some (s', ts) →
      Only (ends t) s s' ∧ ∀ t' ∈ ts, Follows (ends t) t' := by
    intro s' ts heq
    cases heq
    simpa using Only.refl _ s
  cases t with
  | startShare c space allowedIps now =>
    cases now with
    | stopping =>
      cases hresume
      exact ⟨.call, List.forall_mem_singleton.2 (.inl rfl)⟩
    | capturing =>
      cases b with
      | done =>
        cases hresume
        -- the capture is appended, so those that are there keep their places
        have hcall : Only (c, none) s
            (s.set c ((s.node c).share space allowedIps s.captures.length)) := .call
        have hgrows : s.Grows { s with captures := s.captures ++ [(c, allowedIps)] } :=
          Screens.grows_captures _
        refine ⟨⟨⟨le_rfl, fun _ _ => rfl, hgrows.captures⟩, hcall.others, hcall.slot⟩, ?_⟩
        exact List.forall_mem_singleton.2 (.inl rfl)
      | failed => exact hfailed hresume
    | preloading =>
      cases hresume
      exact ⟨.call, follows_broadcast⟩
  | stopShare c =>
    cases hresume
    exact ⟨.call, by simp⟩
  | startWatching c space now =>
    cases now with
    | stopping =>
      cases hresume
      exact ⟨.call, List.forall_mem_singleton.2 (.inl rfl)⟩
    | preloading =>
      cases hresume
      exact ⟨.call, follows_broadcast⟩
  | created c ip id offer =>
    cases offer with
    | some sdp =>
      cases hresume
      exact ⟨.set (.setPeer _), List.forall_mem_singleton.2 (.inl rfl)⟩
    | none =>
      cases hresume
      refine ⟨.set (.setPeer _), ?_⟩
      split
      · exact List.forall_mem_singleton.2 (.inl rfl)
      · simp
  | setLocalOffer c ip id =>
    cases b with
    | failed => exact hfailed hresume
    | done =>
      simp only [resumeScreens] at hresume
      split at hresume
      · cases hresume
        exact ⟨.set .setPc, follows_signal⟩
      · exact hfailed hresume
  | setRemoteOffer | setLocalAnswer =>
    cases b with
    | failed => exact hfailed hresume
    | done =>
      simp only [resumeScreens] at hresume
      split at hresume
      · cases hresume
        exact ⟨.set .setPc, List.forall_mem_singleton.2 (.inl rfl)⟩
      · exact hfailed hresume
  | flush c ip id =>
    cases b with
    | failed => exact hfailed hresume
    | done =>
      simp only [resumeScreens] at hresume
      split at hresume
      · cases hresume
        exact ⟨.refl _ s, follows_signal⟩
      · exact hfailed hresume
  | setRemoteAnswer c ip id sdp =>
    cases b with
    | failed => exact hfailed hresume
    | done =>
      simp only [resumeScreens] at hresume
      split at hresume
      · cases hresume
        exact ⟨.set .setPc, by simp⟩
      · exact hfailed hresume
  | message src dst space m =>
    cases b with
    | failed => exact hfailed hresume
    | done =>
      -- a message changes its receiver only, at the entry of its sender
      have hr : s.receive src dst space m = (s', ts) := Option.some.inj hresume
      have hreceive := only_receive (s := s) src dst space m
      rw [hr] at hreceive
      exact hreceive

end Frame

/-! ## Between two nodes -/

section Between

variable (a v : Str)

def pair (c ip : Str) : Bool := (c = a && ip = v) || (c = v && ip = a)

/-- Is it a call of the two, or of one of them about the other? -/
def concerns : Str × Option Str → Bool
  | (d, none) => d = a || d = v
  | (c, some ip) => pair a v c ip

def between (t : Task) : Bool := concerns a v (ends t)

/-- The tracks arrive in the course of it. -/
def disturbs : Event → Bool
  | .track _ _ _ => false
  | e => concerns a v e.ends

/-- The same of the service, and of what it holds of `ip`. -/
structure SameSlot (w w' : ScreenService) (ip : Str) : Prop where
  spaceId : w'.spaceId = w.spaceId
  mode : w'.mode = w.mode
  localStream : w'.localStream = w.localStream
  allowedIps : w'.allowedIps = w.allowedIps
  handlers : w'.handlers = w.handlers
  peer : w'.peers ip = w.peers ip
  pcs : w'.pcs ip = w.pcs ip

/-- What `a` and `v` hold of each other is the same. -/
structure Same (s s' : Screens) : Prop where
  grows : s.Grows s'
  sharer : SameSlot (s.node a) (s'.node a) v
  viewer : SameSlot (s.node v) (s'.node v) a

variable {a v}

theorem pair_comm (c ip : Str) : pair a v ip c = pair a v c ip := by
  unfold pair
  rw [Bool.or_comm, Bool.and_comm, Bool.and_comm (decide (ip = a))]

theorem between_of_follows {e : Str × Option Str} {t : Task} (h : Follows e t)
    (he : concerns a v e = false) : between a v t = false := by
  rcases h with h | ⟨ip, h, hip⟩
  · rw [between, h, he]
  · rw [between, h]
    refine (pair_comm e.1 ip).trans ?_
    rcases e with ⟨c, d⟩
    rcases hip with hip | hip
    · -- a call of a third node
      have hd : d = none := hip
      subst hd
      have hfar : c ≠ a ∧ c ≠ v := by simpa [concerns] using he
      simp [pair, hfar.1, hfar.2]
    · have hd : d = some ip := hip
      subst hd
      exact he

theorem SameSlot.refl (w : ScreenService) (ip : Str) : SameSlot w w ip :=
  ⟨rfl, rfl, rfl, rfl, rfl, rfl, rfl⟩

theorem SameBut.slot {w w' : ScreenService} {ip ip' : Str} (h : SameBut ip w w') (hip : ip' ≠ ip) :
    SameSlot w w' ip' :=
  ⟨h.spaceId, h.mode, h.localStream, h.allowedIps, h.handlers, h.peers ip' hip, h.pcs ip' hip⟩

theorem Only.slot_of_ne {e : Str × Option Str} {s s' : Screens} (h : Only e s s') {d ip : Str}
    (he : e.1 = d → ∃ ip', e.2 = some ip' ∧ ip ≠ ip') : SameSlot (s.node d) (s'.node d) ip := by
  by_cases hd : d = e.1
  · rcases he hd.symm with ⟨ip', hip', hne⟩
    subst hd
    exact (h.slot ip' hip').slot hne
  · rw [h.others d hd]
    exact .refl _ _

theorem Only.same {e : Str × Option Str} {s s' : Screens} (h : Only e s s')
    (he : concerns a v e = false) : Same a v s s' := by
  rcases e with ⟨c, _ | ip⟩
  · have hfar : c ≠ a ∧ c ≠ v := by simpa [concerns] using he
    exact ⟨h.grows, h.slot_of_ne fun hc => absurd hc hfar.1,
      h.slot_of_ne fun hc => absurd hc hfar.2⟩
  · simp only [concerns, pair, Bool.or_eq_false_iff, Bool.and_eq_false_imp, decide_eq_true_eq,
      decide_eq_false_iff_not] at he
    refine ⟨h.grows, h.slot_of_ne fun hc => ⟨ip, rfl, ?_⟩, h.slot_of_ne fun hc => ⟨ip, rfl, ?_⟩⟩
    · exact Ne.symm (he.1 hc)
    · exact Ne.symm (he.2 hc)

variable {s s' : Screens} {reach : Str → List Str} {ts : List Task}

/-- What is not between the two changes nothing between them. -/
theorem same_resume {t : Task} {b : Answer} (hresume : resumeScreens reach s t b = some (s', ts))
    (ht : between a v t = false) : Same a v s s' ∧ ∀ t' ∈ ts, between a v t' = false := by
  rcases only_resume hresume with ⟨honly, hts⟩
  exact ⟨honly.same ht, fun t' ht' => between_of_follows (hts t' ht') ht⟩

/-- Only the picture changes. -/
theorem sameSlot_stream {c d ip : Str} {r : Option Nat} :
    SameSlot (s.node d) ((s.set c { s.node c with remoteStream := r }).node d) ip := by
  by_cases hd : d = c
  · subst hd
    rw [Screens.set_node_self]
    exact ⟨rfl, rfl, rfl, rfl, rfl, rfl, rfl⟩
  · rw [Screens.set_node_of_ne hd]
    exact .refl _ _

/-- Nor does a call or an event that does not disturb them. -/
theorem same_start {e : Event} (hstart : startScreens reach s e = some (s', ts))
    (he : disturbs a v e = false) : Same a v s s' ∧ ∀ t ∈ ts, between a v t = false := by
  rcases only_start hstart with ⟨honly, hts⟩
  cases e with
  | track c ip id =>
    simp only [startScreens] at hstart
    split at hstart
    · split at hstart
      · cases hstart
        exact ⟨⟨honly.grows, sameSlot_stream, sameSlot_stream⟩, by simp⟩
      · cases hstart
        exact ⟨⟨honly.grows, .refl _ _, .refl _ _⟩, by simp⟩
    · cases hstart
  | _ => exact ⟨honly.same he, fun t ht => between_of_follows (hts t ht) he⟩

end Between

/-! ## The places -/

/-- Connection `x` is the one of the node that shares, `y` that of the viewer. -/
inductive Progress where
  | preloading
  | requesting
  | creatingOffer (x : Nat)
  | offering (x : Nat)
  | offered (x : Nat)
  | creatingAnswer (x y : Nat)
  | accepting (x y : Nat)
  | answering (x y : Nat)
  | flushing (x y : Nat)
  | answered (x y : Nat)
  | closing (x y : Nat)
  | connected (x y : Nat)

namespace Progress

/-- The number of the steps before it. -/
def rank : Progress → Nat
  | preloading => 0
  | requesting => 1
  | creatingOffer _ => 2
  | offering _ => 3
  | offered _ => 4
  | creatingAnswer _ _ => 5
  | accepting _ _ => 6
  | answering _ _ => 7
  | flushing _ _ => 8
  | answered _ _ => 9
  | closing _ _ => 10
  | connected _ _ => 11

/-- The place after it, where `fresh` is the number of the next connection. -/
def next (fresh : Nat) : Progress → Option Progress
  | preloading => some requesting
  | requesting => some (creatingOffer fresh)
  | creatingOffer x => some (offering x)
  | offering x => some (offered x)
  | offered x => some (creatingAnswer x fresh)
  | creatingAnswer x y => some (accepting x y)
  | accepting x y => some (answering x y)
  | answering x y => some (flushing x y)
  | flushing x y => some (answered x y)
  | answered x y => some (closing x y)
  | closing x y => some (connected x y)
  | connected _ _ => none

/-- What waits, of `a` that shares `space` and of `v`. -/
def tasks (a v space : Str) : Progress → List Task
  | preloading => [.startWatching v space .preloading]
  | requesting => [.message v a space .requestView]
  | creatingOffer x => [.created a v x none]
  | offering x => [.setLocalOffer a v x]
  | offered x => [.message a v space (.offer ⟨x, none⟩)]
  | creatingAnswer x y => [.created v a y (some ⟨x, none⟩)]
  | accepting x y => [.setRemoteOffer v a y ⟨x, none⟩]
  | answering _ y => [.setLocalAnswer v a y]
  | flushing _ y => [.flush v a y]
  | answered x y => [.message v a space (.answer ⟨x, some y⟩)]
  | closing x y => [.setRemoteAnswer a v x ⟨x, some y⟩]
  | connected _ _ => []

/-- The connection of the node that shares, whether it is in `peers` yet, and its descriptions. -/
def sharer : Progress → Option (Nat × Bool × Conn)
  | preloading | requesting => none
  | creatingOffer x => some (x, false, .new)
  | offering x => some (x, true, .new)
  | offered x | creatingAnswer x _ | accepting x _ | answering x _ | flushing x _ | answered x _
  | closing x _ => some (x, true, ⟨some ⟨x, none⟩, none, .haveLocalOffer⟩)
  | connected x y => some (x, true, ⟨some ⟨x, none⟩, some ⟨x, some y⟩, .stable⟩)

/-- The connection of the viewer. -/
def viewer : Progress → Option (Nat × Bool × Conn)
  | preloading | requesting | creatingOffer _ | offering _ | offered _ => none
  | creatingAnswer _ y => some (y, false, .new)
  | accepting _ y => some (y, true, .new)
  | answering x y => some (y, true, ⟨none, some ⟨x, none⟩, .haveRemoteOffer⟩)
  | flushing x y | answered x y | closing x y | connected x y =>
    some (y, true, ⟨some ⟨x, some y⟩, some ⟨x, none⟩, .stable⟩)

/-- The viewer's handlers. -/
def handlers : Progress → Nat
  | preloading => 0
  | _ => 1

/-- The progress goes on by one. -/
theorem rank_next {fresh : Nat} {g g' : Progress} (h : g.next fresh = some g') :
    g'.rank = g.rank + 1 := by
  cases g with
  | connected => cases h
  | _ =>
    cases h
    rfl

end Progress

/-- What a node holds of a connection to `ip`. -/
def Holds (w : ScreenService) (ip : Str) : Option (Nat × Bool × Conn) → Prop
  | none => w.peers ip = none
  | some (id, entered, c) =>
    w.peers ip = (if entered then some id else none) ∧ w.pcs ip id = ⟨c, false⟩

/-- What `a` shares: capture `n`, in `space`, with those of `allowedIps`. -/
structure Shared where
  a : Str
  v : Str
  space : Str
  allowedIps : List Str
  n : Nat
  lets : allowedIps = [] ∨ v ∈ allowedIps
  ne : v ≠ a

section Viewing

variable (o : Shared)

structure SharerAt (s : Screens) (w : ScreenService) (g : Progress) : Prop where
  mode : w.mode = .sharing
  spaceId : w.spaceId = some o.space
  handlers : w.handlers.live.length = 1
  allowedIps : w.allowedIps = o.allowedIps
  localStream : w.localStream = some o.n
  holds : Holds w o.v g.sharer
  -- its connection was given the capture
  sends : ∀ x entered c, g.sharer = some (x, entered, c) → x < s.next ∧ s.sends x = some o.n

structure ViewerAt (w : ScreenService) (g : Progress) : Prop where
  mode : w.mode = .watching
  spaceId : w.spaceId = some o.space
  handlers : w.handlers.live.length = g.handlers
  holds : Holds w o.a g.viewer

structure Viewing (s : Screens) (g : Progress) : Prop where
  capture : s.captures[o.n]? = some (o.a, o.allowedIps)
  sharer : SharerAt o s (s.node o.a) g
  viewer : ViewerAt o (s.node o.v) g

variable {o} {s s' : Screens} {w w' : ScreenService} {g g' : Progress} {reach : Str → List Str}
  {ts : List Task}

theorem Holds.same {ip : Str} {h : Option (Nat × Bool × Conn)} (hsame : SameSlot w w' ip)
    (hold : Holds w ip h) : Holds w' ip h := by
  match h, hold with
  | none, hpeer => exact hsame.peer.trans hpeer
  | some (id, entered, c), ⟨hpeer, hpc⟩ =>
    exact ⟨hsame.peer.trans hpeer, (congrFun hsame.pcs id).trans hpc⟩

theorem SharerAt.same (hsame : SameSlot w w' o.v) (hgrows : s.Grows s') (h : SharerAt o s w g) :
    SharerAt o s' w' g where
  mode := hsame.mode.trans h.mode
  spaceId := hsame.spaceId.trans h.spaceId
  handlers := hsame.handlers.symm ▸ h.handlers
  allowedIps := hsame.allowedIps.trans h.allowedIps
  localStream := hsame.localStream.trans h.localStream
  holds := h.holds.same hsame
  sends x entered c hx := by
    rcases h.sends x entered c hx with ⟨hlt, hsends⟩
    exact ⟨hlt.trans_le hgrows.next, (hgrows.sends x hlt).trans hsends⟩

theorem ViewerAt.same (hsame : SameSlot w w' o.a) (h : ViewerAt o w g) : ViewerAt o w' g where
  mode := hsame.mode.trans h.mode
  spaceId := hsame.spaceId.trans h.spaceId
  handlers := hsame.handlers.symm ▸ h.handlers
  holds := h.holds.same hsame

theorem Viewing.same (hsame : Same o.a o.v s s') (h : Viewing o s g) : Viewing o s' g where
  capture := hsame.grows.captures _ _ h.capture
  sharer := h.sharer.same hsame.sharer hsame.grows
  viewer := h.viewer.same hsame.viewer

/-- A step of the node that shares. -/
theorem Viewing.setSharer (h : Viewing o s g) (hw : SharerAt o s w g')
    (hv : g'.viewer = g.viewer ∧ g'.handlers = g.handlers) : Viewing o (s.set o.a w) g' where
  capture := h.capture
  sharer := by
    rw [Screens.set_node_self]
    exact hw.same (.refl _ _) Screens.grows_set
  viewer := by
    rw [Screens.set_node_of_ne o.ne]
    exact ⟨h.viewer.mode, h.viewer.spaceId, hv.2 ▸ h.viewer.handlers, hv.1 ▸ h.viewer.holds⟩

/-- A step of the viewer. -/
theorem Viewing.setViewer (h : Viewing o s g) (hw : ViewerAt o w g')
    (hs : g'.sharer = g.sharer) : Viewing o (s.set o.v w) g' where
  capture := h.capture
  sharer := by
    rw [Screens.set_node_of_ne o.ne.symm]
    have hsharer := h.sharer.same (.refl _ _) (Screens.grows_set (a := o.v) (v := w))
    exact ⟨hsharer.mode, hsharer.spaceId, hsharer.handlers, hsharer.allowedIps,
      hsharer.localStream, hs ▸ hsharer.holds, hs ▸ hsharer.sends⟩
  viewer := by
    rw [Screens.set_node_self]
    exact hw

/-! ## One step between the two -/

namespace Holds

variable {ip : Str} {id : Nat} {entered : Bool} {c : Conn}

theorem opened (h : Holds w ip (some (id, entered, c))) : w.opened ip id = some c := by
  simp [ScreenService.opened, h.2]

theorem setConn (h : Holds w ip (some (id, entered, c))) (c' : Conn) :
    Holds (w.setConn ip id c') ip (some (id, entered, c')) := by
  refine ⟨h.1, ?_⟩
  simp [ScreenService.setConn, ScreenService.setPc, h.2]

theorem setPeer (h : Holds w ip (some (id, entered, c))) :
    Holds (w.setPeer ip (some id)) ip (some (id, true, c)) := ⟨w.setPeer_self ip _, h.2⟩

theorem setPc (h : Holds w ip none) (id : Nat) (c : Conn) :
    Holds (w.setPc ip id ⟨c, false⟩) ip (some (id, false, c)) := by
  refine ⟨h, ?_⟩
  simp [ScreenService.setPc]

end Holds

theorem signal_eq {c ip space : Str} {m : Message} (hspace : (s.node c).spaceId = some space)
    (hreach : ip ∈ reach c) : s.signal reach c ip m = [.message c ip space m] := by
  simp [Screens.signal, hspace, hreach]

/-- One handler takes the signal. -/
theorem receive_eq {src dst space : Str} {m : Message} (hne : src ≠ dst)
    (hspace : (s.node dst).spaceId = some space) (hlive : (s.node dst).handlers.live.length = 1) :
    s.receive src dst space m = s.handleSignal dst src m := by
  unfold Screens.receive
  rw [if_pos ⟨hne, hspace⟩, hlive]
  simp [Screens.handleAll]

/-- Of the requests of `v`, one goes to `a`. -/
theorem filter_broadcast (hnodup : (reach o.v).Nodup) (hreach : o.a ∈ reach o.v) (m : Message) :
    (Screens.broadcast reach o.v o.space m).filter (between o.a o.v) =
      [.message o.v o.a o.space m] := by
  have hpair : ∀ b, between o.a o.v (.message o.v b o.space m) = decide (b = o.a) := by
    simp [between, concerns, ends, pair, o.ne]
  have hfilter : (reach o.v).filter (fun b => decide (b = o.a)) = [o.a] := by
    rw [List.filter_eq, List.count_eq_one_of_mem hnodup hreach, List.replicate_one]
  simp only [Screens.broadcast, List.filter_map, Function.comp_def, hpair, hfilter, List.map_cons,
    List.map_nil]

theorem filter_tasks (a v space : Str) (g : Progress) :
    (g.tasks a v space).filter (between a v) = g.tasks a v space := by
  cases g with
  | _ => simp [Progress.tasks, between, concerns, ends, pair]

/-- The sharer makes a connection for who asks. -/
theorem Viewing.receive_requestView (h : Viewing o s .requesting) :
    s.receive o.v o.a o.space .requestView =
      (s.createPeer o.a o.v, [.created o.a o.v s.next none]) := by
  have hlets : (s.node o.a).lets o.v := by
    rw [ScreenService.lets, h.sharer.allowedIps]
    exact o.lets
  have hpeer : (s.node o.a).peers o.v = none := h.sharer.holds
  rw [receive_eq o.ne h.sharer.spaceId h.sharer.handlers]
  simp [Screens.handleSignal, h.sharer.mode, Screens.handleSharerSignal, hlets, hpeer]

/-- The connection of the node that shares is given its capture. -/
theorem Viewing.createOffer (h : Viewing o s .requesting) :
    Viewing o (s.createPeer o.a o.v) (.creatingOffer s.next) where
  capture := h.capture
  sharer := by
    rw [Screens.createPeer_node_self]
    refine ⟨h.sharer.mode, h.sharer.spaceId, h.sharer.handlers, h.sharer.allowedIps,
      h.sharer.localStream, h.sharer.holds.setPc _ _, fun x entered c hx => ?_⟩
    cases hx
    refine ⟨Nat.lt_succ_self _, ?_⟩
    simp [Screens.createPeer, h.sharer.mode, h.sharer.localStream]
  viewer := by
    rw [Screens.createPeer_node_of_ne o.ne]
    exact ⟨h.viewer.mode, h.viewer.spaceId, h.viewer.handlers, h.viewer.holds⟩

/-- The viewer makes its own for the offer. -/
theorem Viewing.receive_offer {x : Nat} (h : Viewing o s (.offered x)) :
    s.receive o.a o.v o.space (.offer ⟨x, none⟩) =
      (s.createPeer o.v o.a, [.created o.v o.a s.next (some ⟨x, none⟩)]) := by
  have hpeer : (s.node o.v).peers o.a = none := h.viewer.holds
  rw [receive_eq o.ne.symm h.viewer.spaceId h.viewer.handlers]
  simp [Screens.handleSignal, h.viewer.mode, Screens.handleViewerSignal, hpeer]

theorem Viewing.createAnswer {x : Nat} (h : Viewing o s (.offered x)) :
    Viewing o (s.createPeer o.v o.a) (.creatingAnswer x s.next) where
  capture := h.capture
  sharer := by
    rw [Screens.createPeer_node_of_ne o.ne.symm]
    have hgrows : s.Grows (s.createPeer o.v o.a) := Screens.grows_createPeer
    have hsharer := h.sharer.same (.refl _ _) hgrows
    exact ⟨hsharer.mode, hsharer.spaceId, hsharer.handlers, hsharer.allowedIps,
      hsharer.localStream, hsharer.holds, hsharer.sends⟩
  viewer := by
    rw [Screens.createPeer_node_self]
    exact ⟨h.viewer.mode, h.viewer.spaceId, h.viewer.handlers, h.viewer.holds.setPc _ _⟩

/-- The answer goes to the connection that offered. -/
theorem Viewing.receive_answer {x y : Nat} (h : Viewing o s (.answered x y)) :
    s.receive o.v o.a o.space (.answer ⟨x, some y⟩) =
      (s, [.setRemoteAnswer o.a o.v x ⟨x, some y⟩]) := by
  have hpeer : (s.node o.a).peers o.v = some x := h.sharer.holds.1
  rw [receive_eq o.ne h.sharer.spaceId h.sharer.handlers]
  simp [Screens.handleSignal, h.sharer.mode, Screens.handleSharerSignal, hpeer]

/-- The node that shares has its connection in `g'` as `w` holds it. -/
theorem SharerAt.step (h : SharerAt o s (s.node o.a) g)
    (hsame : w.mode = (s.node o.a).mode ∧ w.spaceId = (s.node o.a).spaceId ∧
      w.handlers = (s.node o.a).handlers ∧ w.allowedIps = (s.node o.a).allowedIps ∧
      w.localStream = (s.node o.a).localStream)
    (hholds : Holds w o.v g'.sharer)
    (hid : g'.sharer.map Prod.fst = g.sharer.map Prod.fst) : SharerAt o s w g' := by
  rcases hsame with ⟨hmode, hspace, hhandlers, hallowed, hstream⟩
  refine ⟨hmode.trans h.mode, hspace.trans h.spaceId, hhandlers ▸ h.handlers,
    hallowed.trans h.allowedIps, hstream.trans h.localStream, hholds, fun x entered c hx => ?_⟩
  rw [hx, Option.map_some] at hid
  rcases Option.map_eq_some_iff.1 hid.symm with ⟨⟨x', entered', c'⟩, hx', rfl⟩
  exact h.sends _ _ _ hx'

/-- A step that changes neither. -/
theorem Viewing.pass (h : Viewing o s g) (hs : g'.sharer = g.sharer)
    (hv : g'.viewer = g.viewer ∧ g'.handlers = g.handlers) : Viewing o s g' where
  capture := h.capture
  sharer := ⟨h.sharer.mode, h.sharer.spaceId, h.sharer.handlers, h.sharer.allowedIps,
    h.sharer.localStream, hs ▸ h.sharer.holds, hs ▸ h.sharer.sends⟩
  viewer := ⟨h.viewer.mode, h.viewer.spaceId, hv.2 ▸ h.viewer.handlers, hv.1 ▸ h.viewer.holds⟩

/-- What `a` and `v` do next, the functions of `screen.ts` do. -/
theorem Viewing.next (hnodup : (reach o.v).Nodup) (hreach : o.a ∈ reach o.v)
    (hback : o.v ∈ reach o.a) (h : Viewing o s g) {t : Task}
    (ht : g.tasks o.a o.v o.space = [t]) (hresume : resumeScreens reach s t .done = some (s', ts)) :
    ∃ g', g.next s.next = some g' ∧ Viewing o s' g' ∧
      ts.filter (between o.a o.v) = g'.tasks o.a o.v o.space := by
  have hs := h.sharer
  have hv := h.viewer
  cases g with
  | preloading =>
    obtain rfl := List.singleton_inj.1 ht
    cases hresume
    refine ⟨_, rfl, h.setViewer ⟨hv.mode, hv.spaceId, ?_, hv.holds⟩ rfl, ?_⟩
    · -- the viewer registers its handler before it asks
      have hlive : (s.node o.v).handlers.live.length = 0 := hv.handlers
      simp [ScreenService.register, Held.acquire, hlive, Progress.handlers]
    · exact filter_broadcast hnodup hreach _
  | requesting =>
    obtain rfl := List.singleton_inj.1 ht
    have hr : s.receive o.v o.a o.space .requestView = (s', ts) := Option.some.inj hresume
    rw [h.receive_requestView] at hr
    cases hr
    exact ⟨_, rfl, h.createOffer, filter_tasks o.a o.v o.space (.creatingOffer s.next)⟩
  | creatingOffer x =>
    obtain rfl := List.singleton_inj.1 ht
    simp only [resumeScreens, hs.spaceId, Option.isSome_some, if_true] at hresume
    cases hresume
    refine ⟨_, rfl, h.setSharer ?_ ⟨rfl, rfl⟩, filter_tasks o.a o.v o.space (.offering x)⟩
    exact hs.step ⟨rfl, rfl, rfl, rfl, rfl⟩ hs.holds.setPeer rfl
  | offering x =>
    obtain rfl := List.singleton_inj.1 ht
    -- each description fits the state that the connection has in this place
    have hopened : (s.node o.a).opened o.v x = some .new := hs.holds.opened
    have hlocal : Conn.setLocalOffer x .new = some ⟨some ⟨x, none⟩, none, .haveLocalOffer⟩ := rfl
    simp only [resumeScreens, hopened, Option.bind_some, hlocal,
      signal_eq hs.spaceId hback] at hresume
    cases hresume
    refine ⟨_, rfl, h.setSharer ?_ ⟨rfl, rfl⟩, filter_tasks o.a o.v o.space (.offered x)⟩
    exact hs.step ⟨rfl, rfl, rfl, rfl, rfl⟩ (hs.holds.setConn _) rfl
  | offered x =>
    obtain rfl := List.singleton_inj.1 ht
    have hr : s.receive o.a o.v o.space (.offer ⟨x, none⟩) = (s', ts) := Option.some.inj hresume
    rw [h.receive_offer] at hr
    cases hr
    exact ⟨_, rfl, h.createAnswer, filter_tasks o.a o.v o.space (.creatingAnswer x s.next)⟩
  | creatingAnswer x y =>
    obtain rfl := List.singleton_inj.1 ht
    cases hresume
    refine ⟨_, rfl, h.setViewer ?_ rfl, filter_tasks o.a o.v o.space (.accepting x y)⟩
    exact ⟨hv.mode, hv.spaceId, hv.handlers, hv.holds.setPeer⟩
  | accepting x y =>
    obtain rfl := List.singleton_inj.1 ht
    have hopened : (s.node o.v).opened o.a y = some .new := hv.holds.opened
    simp only [resumeScreens, hopened] at hresume
    cases hresume
    refine ⟨_, rfl, h.setViewer ?_ rfl, filter_tasks o.a o.v o.space (.answering x y)⟩
    exact ⟨hv.mode, hv.spaceId, hv.handlers, hv.holds.setConn _⟩
  | answering x y =>
    obtain rfl := List.singleton_inj.1 ht
    have hopened : (s.node o.v).opened o.a y =
        some ⟨none, some ⟨x, none⟩, .haveRemoteOffer⟩ := hv.holds.opened
    have hlocal : setLocalAnswer y ⟨none, some ⟨x, none⟩, .haveRemoteOffer⟩ =
        some ⟨some ⟨x, some y⟩, some ⟨x, none⟩, .stable⟩ := rfl
    simp only [resumeScreens, hopened, Option.bind_some, hlocal] at hresume
    cases hresume
    refine ⟨_, rfl, h.setViewer ?_ rfl, filter_tasks o.a o.v o.space (.flushing x y)⟩
    exact ⟨hv.mode, hv.spaceId, hv.handlers, hv.holds.setConn _⟩
  | flushing x y =>
    obtain rfl := List.singleton_inj.1 ht
    have hlocal : ((s.node o.v).pcs o.a y).conn.localDescription = some ⟨x, some y⟩ := by
      rw [hv.holds.2]
    simp only [resumeScreens, hlocal, signal_eq hv.spaceId hreach] at hresume
    cases hresume
    exact ⟨_, rfl, h.pass rfl ⟨rfl, rfl⟩, filter_tasks o.a o.v o.space (.answered x y)⟩
  | answered x y =>
    obtain rfl := List.singleton_inj.1 ht
    -- the answer is of this offer, so the sharer takes it
    have hr : s.receive o.v o.a o.space (.answer ⟨x, some y⟩) = (s', ts) := Option.some.inj hresume
    rw [h.receive_answer] at hr
    cases hr
    exact ⟨_, rfl, h.pass rfl ⟨rfl, rfl⟩, filter_tasks o.a o.v o.space (.closing x y)⟩
  | closing x y =>
    obtain rfl := List.singleton_inj.1 ht
    have hopened : (s.node o.a).opened o.v x =
        some ⟨some ⟨x, none⟩, none, .haveLocalOffer⟩ := hs.holds.opened
    have hremote : Conn.setRemoteAnswer ⟨x, some y⟩ ⟨some ⟨x, none⟩, none, .haveLocalOffer⟩ =
        some ⟨some ⟨x, none⟩, some ⟨x, some y⟩, .stable⟩ := rfl
    simp only [resumeScreens, hopened, Option.bind_some, hremote] at hresume
    cases hresume
    refine ⟨_, rfl, h.setSharer ?_ ⟨rfl, rfl⟩, filter_tasks o.a o.v o.space (.connected x y)⟩
    exact hs.step ⟨rfl, rfl, rfl, rfl, rfl⟩ (hs.holds.setConn _) rfl
  | connected x y => cases ht

end Viewing

/-! ## The calls of one node

One call at a time leaves a node with one handler in the space that it is in, and
with its capture while it shares. -/

section Calls

variable {d : Str} {s s' : Screens} {w w' : ScreenService} {ws ts : List Task}
  {reach : Str → List Str}

def callOf (d : Str) (t : Task) : Bool := ends t = (d, none)

/-- No call of `d` begins before the one before it has ended. -/
def Orderly (d : Str) (_ : Screens) (ws : List Task) : PageAct Task Event Answer → Prop
  | .start e => e.ends = (d, none) → ws.filter (callOf d) = []
  | .resume _ _ => True

instance (d : Str) (s : Screens) (ws : List Task) (e : PageAct Task Event Answer) :
    Decidable (Orderly d s ws e) := by
  unfold Orderly
  split
  all_goals infer_instance

/-- Who shares has a capture, for those of `allowedIps`. -/
def Captures (s : Screens) (d : Str) (w : ScreenService) : Prop :=
  w.mode = .sharing → ∃ n, w.localStream = some n ∧ s.captures[n]? = some (d, w.allowedIps)

/-- In no space, and deaf. -/
structure Off (s : Screens) (d : Str) (w : ScreenService) : Prop where
  spaceId : w.spaceId = none
  live : w.handlers.live = []
  captures : Captures s d w

structure On (s : Screens) (d : Str) (w : ScreenService) : Prop where
  spaceId : w.spaceId.isSome = true
  mode : w.mode ≠ .idle
  live : w.handlers.live.length = 1
  current : w.handlers.OnlyCurrent
  captures : Captures s d w

/-- In a space, before it registers. -/
structure Entering (s : Screens) (d : Str) (w : ScreenService) : Prop where
  spaceId : w.spaceId.isSome = true
  mode : w.mode ≠ .idle
  live : w.handlers.live = []
  captures : Captures s d w

/-- What a node is, by the call of its that waits. -/
inductive CallsOk (d : Str) (s : Screens) (w : ScreenService) : List Task → Prop where
  | off : Off s d w → CallsOk d s w []
  | on : On s d w → CallsOk d s w []
  | startShareStopping (space : Str) (allowedIps : List Str) : On s d w →
    CallsOk d s w [.startShare d space allowedIps .stopping]
  | startShareCapturing (space : Str) (allowedIps : List Str) : Off s d w →
    CallsOk d s w [.startShare d space allowedIps .capturing]
  | startSharePreloading (space : Str) (allowedIps : List Str) : Entering s d w →
    CallsOk d s w [.startShare d space allowedIps .preloading]
  | stopShare : On s d w → CallsOk d s w [.stopShare d]
  | startWatchingStopping (space : Str) : On s d w →
    CallsOk d s w [.startWatching d space .stopping]
  | startWatchingPreloading (space : Str) : Entering s d w →
    CallsOk d s w [.startWatching d space .preloading]

theorem CallsOk.length_le (h : CallsOk d s w ws) : ws.length ≤ 1 := by
  cases h with
  | off => exact Nat.zero_le _
  | on => exact Nat.zero_le _
  | _ => exact le_rfl

/-- Between two calls. -/
theorem CallsOk.rest (h : CallsOk d s w []) : Off s d w ∨ On s d w := by
  cases h with
  | off hoff => exact .inl hoff
  | on hon => exact .inr hon

theorem Captures.same (h : Captures s d w) (hgrows : s.Grows s') (hmode : w'.mode = w.mode)
    (hstream : w'.localStream = w.localStream) (hallowed : w'.allowedIps = w.allowedIps) :
    Captures s' d w' := by
  intro hsharing
  rcases h (hmode.symm.trans hsharing) with ⟨n, hn, hc⟩
  exact ⟨n, hstream.trans hn, hallowed ▸ hgrows.captures n _ hc⟩

section Same

variable {ip : Str} (hgrows : s.Grows s') (hsame : SameBut ip w w')

include hgrows hsame

theorem Off.same (h : Off s d w) : Off s' d w' where
  spaceId := hsame.spaceId.trans h.spaceId
  live := hsame.handlers.symm ▸ h.live
  captures := h.captures.same hgrows hsame.mode hsame.localStream hsame.allowedIps

theorem On.same (h : On s d w) : On s' d w' where
  spaceId := hsame.spaceId.symm ▸ h.spaceId
  mode := hsame.mode.symm ▸ h.mode
  live := hsame.handlers.symm ▸ h.live
  current := hsame.handlers.symm ▸ h.current
  captures := h.captures.same hgrows hsame.mode hsame.localStream hsame.allowedIps

theorem Entering.same (h : Entering s d w) : Entering s' d w' where
  spaceId := hsame.spaceId.symm ▸ h.spaceId
  mode := hsame.mode.symm ▸ h.mode
  live := hsame.handlers.symm ▸ h.live
  captures := h.captures.same hgrows hsame.mode hsame.localStream hsame.allowedIps

/-- What another step leaves as it is. -/
theorem CallsOk.same (h : CallsOk d s w ws) : CallsOk d s' w' ws := by
  cases h with
  | off h => exact .off (h.same hgrows hsame)
  | on h => exact .on (h.same hgrows hsame)
  | startShareStopping space allowedIps h =>
    exact .startShareStopping space allowedIps (h.same hgrows hsame)
  | startShareCapturing space allowedIps h =>
    exact .startShareCapturing space allowedIps (h.same hgrows hsame)
  | startSharePreloading space allowedIps h =>
    exact .startSharePreloading space allowedIps (h.same hgrows hsame)
  | stopShare h => exact .stopShare (h.same hgrows hsame)
  | startWatchingStopping space h => exact .startWatchingStopping space (h.same hgrows hsame)
  | startWatchingPreloading space h => exact .startWatchingPreloading space (h.same hgrows hsame)

end Same

theorem release_nil {h : Held} (hl : h.live = []) : h.release.live = [] :=
  List.eq_nil_iff_forall_not_mem.2 fun n hn => by simpa [hl] using h.release_live_subset n hn

theorem Off.forget (h : Off s d w) : Off s d w.forget := by
  simpa [ScreenService.forget, h.spaceId] using h

theorem On.forget (h : On s d w) : Off s d w.forget := by
  rw [ScreenService.forget, if_pos h.spaceId]
  exact ⟨rfl, Held.release_live h.current, h.captures⟩

theorem Off.stopEnd (h : Off s d w) : Off s d w.stopEnd :=
  ⟨rfl, release_nil h.live, fun hsharing => by cases hsharing⟩

theorem On.stopEnd (h : On s d w) : Off s d w.stopEnd :=
  ⟨rfl, Held.release_live h.current, fun hsharing => by cases hsharing⟩

theorem Off.stopWatching (h : Off s d w) : Off s d w.stopWatching := by
  unfold ScreenService.stopWatching
  split
  · exact ⟨rfl, release_nil h.live, fun hsharing => by cases hsharing⟩
  · exact h.forget

theorem On.stopWatching (h : On s d w) : Off s d w.stopWatching := by
  unfold ScreenService.stopWatching
  split
  · exact ⟨rfl, Held.release_live h.current, fun hsharing => by cases hsharing⟩
  · exact h.forget

theorem Off.watch (h : Off s d w) (space : Str) : Entering s d (w.watch space) :=
  ⟨rfl, by simp [ScreenService.watch], h.live, fun hsharing => by cases hsharing⟩

theorem Entering.register (h : Entering s d w) : On s d w.register where
  spaceId := h.spaceId
  mode := h.mode
  live := by simp [ScreenService.register, Held.acquire, h.live]
  current := Held.onlyCurrent_acquire h.live
  captures := h.captures

/-- `stopShare` waits only for the signal to its space. -/
theorem stopShare_cases (h : Off s d w ∨ On s d w) {old : Option Str}
    (hstop : w.stopShare = (w', old)) :
    (∃ space, old = some space ∧ w' = w ∧ On s d w) ∨ (old = none ∧ Off s d w') := by
  unfold ScreenService.stopShare at hstop
  split at hstop
  · split at hstop
    · next space hspace =>
      cases hstop
      rcases h with h | h
      · exact absurd (h.spaceId.symm.trans hspace) nofun
      · exact .inl ⟨space, rfl, rfl, h⟩
    · cases hstop
      exact .inr ⟨rfl, h.elim Off.stopEnd On.stopEnd⟩
  · cases hstop
    exact .inr ⟨rfl, h.elim Off.forget On.forget⟩

/-! ### Steps -/

theorem not_callOf_of_follows {e : Str × Option Str} (he : e ≠ (d, none)) {t : Task}
    (h : Follows e t) : callOf d t = false := by
  rcases h with h | ⟨ip, h, -⟩
  · simp [callOf, h, he]
  · simp [callOf, h]

theorem filter_calls (hws : ws.filter (callOf d) = []) {t : Task} (ms : List Task)
    (hms : ∀ m ∈ ms, callOf d m = false) (ht : callOf d t = true) :
    (ws ++ (ms ++ [t])).filter (callOf d) = [t] := by
  have hnil : ms.filter (callOf d) = [] := List.filter_eq_nil_iff.2 (by simpa using hms)
  simp [List.filter_append, hws, hnil, ht]

theorem not_callOf_broadcast {space : Str} {m : Message} :
    ∀ t ∈ Screens.broadcast reach d space m, callOf d t = false := by
  intro t ht
  rcases List.mem_map.1 ht with ⟨dst, -, rfl⟩
  simp [callOf, ends]

/-- Other steps leave the service as it is. -/
theorem Only.calls {e : Str × Option Str} (h : Only e s s') (he : e ≠ (d, none))
    (hok : CallsOk d s (s.node d) ws) : CallsOk d s' (s'.node d) ws := by
  by_cases hd : d = e.1
  · rcases e with ⟨c, _ | ip⟩
    · exact absurd (hd ▸ rfl) he
    · subst hd
      exact hok.same h.grows (h.slot ip rfl)
  · rw [h.others d hd]
    have hsame : SameBut d (s.node d) (s.node d) := .refl _
    exact hok.same h.grows hsame

theorem CallsOk.set (h : CallsOk d s w ts) : CallsOk d (s.set d w) ((s.set d w).node d) ts := by
  rw [Screens.set_node_self]
  have hsame : SameBut d w w := .refl _
  exact h.same Screens.grows_set hsame

/-- A share ends: what waits is the call, the messages to its space aside. -/
theorem CallsOk.stopping (hws : ws.filter (callOf d) = [])
    (hrest : Off s d (s.node d) ∨ On s d (s.node d)) {old : Str} {t : Task}
    (hstop : (s.node d).stopShare = (w, some old)) (ht : callOf d t = true)
    (hcall : On s d (s.node d) → CallsOk d s (s.node d) [t]) :
    CallsOk d (s.set d w) ((s.set d w).node d)
      ((ws ++ (Screens.broadcast reach d old .stop ++ [t])).filter (callOf d)) := by
  rcases stopShare_cases hrest hstop with ⟨_, -, rfl, hon⟩ | ⟨hnone, -⟩
  · rw [filter_calls hws _ not_callOf_broadcast ht]
    exact (hcall hon).set
  · cases hnone

/-- There was no share, or it has no space. -/
theorem Off.stopped (hrest : Off s d w ∨ On s d w) (hstop : w.stopShare = (w', none)) :
    Off s d w' := by
  rcases stopShare_cases hrest hstop with ⟨_, hsome, -⟩ | ⟨-, hoff⟩
  · cases hsome
  · exact hoff

/-- A call begins where none waits. -/
theorem CallsOk.start_call (hws : ws.filter (callOf d) = [])
    (hrest : Off s d (s.node d) ∨ On s d (s.node d)) {e : Event} (he : e.ends = (d, none))
    (hstart : startScreens reach s e = some (s', ts)) :
    CallsOk d s' (s'.node d) ((ws ++ ts).filter (callOf d)) := by
  have hsame : CallsOk d s (s.node d) ((ws ++ []).filter (callOf d)) := by
    rw [List.append_nil, hws]
    exact hrest.elim .off .on
  -- with no signal before it
  have hone : ∀ {t}, callOf d t = true → (ws ++ [t]).filter (callOf d) = [t] :=
    filter_calls hws [] (by simp)
  cases e with
  | startShare c space allowedIps =>
    obtain rfl : c = d := congrArg Prod.fst he
    simp only [startScreens] at hstart
    split at hstart
    · -- the space has it already
      cases hstart
      exact hsame
    · split at hstart
      · next v old hstop =>
        -- an earlier share ends first
        cases hstart
        exact CallsOk.stopping hws hrest hstop (by simp [callOf, ends])
          fun hon => .startShareStopping space allowedIps hon
      · next v hstop =>
        -- nothing to wait for
        cases hstart
        rw [hone (by simp [callOf, ends])]
        exact (CallsOk.startShareCapturing space allowedIps
          (Off.stopped hrest hstop).stopWatching).set
  | stopShare c =>
    obtain rfl : c = d := congrArg Prod.fst he
    simp only [startScreens] at hstart
    split at hstart
    · next v old hstop =>
      -- the signal to its space
      cases hstart
      exact CallsOk.stopping hws hrest hstop (by simp [callOf, ends]) fun hon => .stopShare hon
    · next v hstop =>
      -- done at once
      cases hstart
      rw [List.append_nil, hws]
      exact (CallsOk.off (Off.stopped hrest hstop)).set
  | startWatching c space =>
    obtain rfl : c = d := congrArg Prod.fst he
    simp only [startScreens] at hstart
    split at hstart
    · -- the space is watched already
      cases hstart
      exact hsame
    · split at hstart
      · next v old hstop =>
        -- a share of its own ends first
        cases hstart
        exact CallsOk.stopping hws hrest hstop (by simp [callOf, ends])
          fun hon => .startWatchingStopping space hon
      · next v hstop =>
        -- the handler is still to be registered
        cases hstart
        rw [hone (by simp [callOf, ends])]
        exact (CallsOk.startWatchingPreloading space
          ((Off.stopped hrest hstop).stopWatching.watch space)).set
  | stopWatching c =>
    -- it waits for nothing
    obtain rfl : c = d := congrArg Prod.fst he
    cases hstart
    rw [List.append_nil, hws]
    exact (CallsOk.off (hrest.elim Off.stopWatching On.stopWatching)).set
  | lost => cases he
  | track => cases he

/-- Every call that begins in order keeps it. -/
theorem CallsOk.start {e : Event} (hok : CallsOk d s (s.node d) (ws.filter (callOf d)))
    (horderly : Orderly d s ws (.start e)) (hstart : startScreens reach s e = some (s', ts)) :
    CallsOk d s' (s'.node d) ((ws ++ ts).filter (callOf d)) := by
  by_cases he : e.ends = (d, none)
  · have hws : ws.filter (callOf d) = [] := horderly he
    rw [hws] at hok
    exact start_call hws hok.rest he hstart
  · rcases only_start hstart with ⟨honly, hts⟩
    have hnil : ts.filter (callOf d) = [] :=
      List.filter_eq_nil_iff.2 fun t ht => by simp [not_callOf_of_follows he (hts t ht)]
    rw [List.filter_append, hnil, List.append_nil]
    exact honly.calls he hok

/-- The call that waits goes on. -/
theorem CallsOk.resume_call (hws : ws.filter (callOf d) = []) {t : Task} {b : Answer}
    (hok : CallsOk d s (s.node d) [t]) (hresume : resumeScreens reach s t b = some (s', ts)) :
    CallsOk d s' (s'.node d) ((ws ++ ts).filter (callOf d)) := by
  have hone : ∀ {t}, callOf d t = true → (ws ++ [t]).filter (callOf d) = [t] :=
    filter_calls hws [] (by simp)
  have hsignals : ∀ {space m},
      (ws ++ Screens.broadcast reach d space m).filter (callOf d) = [] := by
    intro space m
    have hnil : (Screens.broadcast reach d space m).filter (callOf d) = [] :=
      List.filter_eq_nil_iff.2 fun t ht => by simp [not_callOf_broadcast t ht]
    rw [List.filter_append, hws, hnil, List.append_nil]
  cases hok with
  | startShareStopping space allowedIps hon =>
    cases hresume
    rw [hone (by simp [callOf, ends])]
    exact (CallsOk.startShareCapturing space allowedIps hon.stopEnd.stopWatching).set
  | startShareCapturing space allowedIps hoff =>
    cases b with
    | failed =>
      cases hresume
      rw [List.append_nil, hws]
      exact .off hoff
    | done =>
      cases hresume
      rw [hone (by simp [callOf, ends])]
      -- the capture that it now has is the last
      refine .startSharePreloading space allowedIps ?_
      refine (Screens.set_node_self (s := s)).symm ▸ ⟨rfl, ?_, hoff.live, fun _ => ?_⟩
      · simp [ScreenService.share]
      · exact ⟨s.captures.length, rfl, by simp [ScreenService.share]⟩
  | startSharePreloading space allowedIps hentering =>
    cases hresume
    rw [hsignals]
    exact (CallsOk.on hentering.register).set
  | stopShare hon =>
    cases hresume
    rw [List.append_nil, hws]
    exact (CallsOk.off hon.stopEnd).set
  | startWatchingStopping space hon =>
    cases hresume
    rw [hone (by simp [callOf, ends])]
    exact (CallsOk.startWatchingPreloading space (hon.stopEnd.stopWatching.watch space)).set
  | startWatchingPreloading space hentering =>
    cases hresume
    rw [hsignals]
    exact (CallsOk.on hentering.register).set

/-- Every answer to a call keeps it. -/
theorem CallsOk.resume {t : Task} {b : Answer}
    (hok : CallsOk d s (s.node d) ((t :: ws).filter (callOf d)))
    (hresume : resumeScreens reach s t b = some (s', ts)) :
    CallsOk d s' (s'.node d) ((ws ++ ts).filter (callOf d)) := by
  by_cases ht : ends t = (d, none)
  · have hcall : callOf d t = true := by simp [callOf, ht]
    rw [List.filter_cons_of_pos hcall] at hok
    have hlen := hok.length_le
    rw [List.length_cons] at hlen
    have hws : ws.filter (callOf d) = [] := List.length_eq_zero_iff.1 (by omega)
    rw [hws] at hok
    exact resume_call hws hok hresume
  · rcases only_resume hresume with ⟨honly, hts⟩
    have hnil : ts.filter (callOf d) = [] :=
      List.filter_eq_nil_iff.2 fun t' ht' => by simp [not_callOf_of_follows ht (hts t' ht')]
    rw [List.filter_append, hnil, List.append_nil]
    rw [List.filter_cons_of_neg (by simp [callOf, ht])] at hok
    exact honly.calls ht hok

/-- In orderly runs one call of a node waits at a time. -/
theorem calls_keeps (reach : Str → List Str) (d : Str) :
    (screens reach).Keeps (Orderly d)
      fun s ws => CallsOk d s (s.node d) (ws.filter (callOf d)) where
  perm _ _ _ hperm h := by
    rw [← Script.eq_of_perm_of_length_le (hperm.filter _) h.length_le]
    exact h
  start _ _ _ _ _ h horderly hstart := h.start horderly hstart
  resume _ _ _ _ _ _ h _ hresume := h.resume hresume

theorem calls_init (d : Str) :
    CallsOk d init.shared (init.shared.node d) (init.waiting.filter (callOf d)) :=
  .off ⟨rfl, rfl, fun hsharing => by cases hsharing⟩

end Calls

/-! ## Runs -/

section Runs

variable {o : Shared} {reach : Str → List Str} {g : Progress}
  {p p' : Page Screens Task} {as : List (PageAct Task Event Answer)}

/-- A step of what is between `a` and `v`. -/
def own (a v : Str) : PageAct Task Event Answer → Bool
  | .start _ => false
  | .resume t _ => between a v t

/-- `a` and `v` make no other calls and keep their connection, and what is between them
does not fail. -/
def Undisturbed (a v : Str) : PageAct Task Event Answer → Prop
  | .start e => disturbs a v e = false
  | .resume t b => between a v t = true → b = .done

/-- The nodes are at `g`, and so is what waits. -/
structure ViewingAt (o : Shared) (p : Page Screens Task) (g : Progress) : Prop where
  viewing : Viewing o p.shared g
  tasks : p.waiting.filter (between o.a o.v) = g.tasks o.a o.v o.space

theorem Progress.length_tasks (a v space : Str) (g : Progress) :
    (g.tasks a v space).length ≤ 1 := by
  cases g with
  | connected => exact Nat.zero_le _
  | _ => exact le_rfl

theorem Progress.rank_le (g : Progress) : g.rank ≤ 11 := by
  cases g with
  | _ => simp [Progress.rank]

theorem Progress.exists_tasks (a v space : Str) {g : Progress} (h : g.rank < 11) :
    ∃ t, g.tasks a v space = [t] := by
  cases g with
  | connected => exact absurd h (lt_irrefl 11)
  | _ => exact ⟨_, rfl⟩

theorem Progress.eq_connected {g : Progress} (h : g.rank = 11) : ∃ x y, g = connected x y := by
  cases g with
  | connected x y => exact ⟨x, y, rfl⟩
  | _ => simp [Progress.rank] at h

theorem filter_append_of_forall {a v : Str} {ws ts : List Task}
    (hts : ∀ t ∈ ts, between a v t = false) :
    (ws ++ ts).filter (between a v) = ws.filter (between a v) := by
  have hnil : ts.filter (between a v) = [] := List.filter_eq_nil_iff.2 (by simpa using hts)
  rw [List.filter_append, hnil, List.append_nil]

/-- A step between the two leads to the next place, and no other step to another. -/
theorem ViewingAt.step (hnodup : (reach o.v).Nodup) (hreach : o.a ∈ reach o.v)
    (hback : o.v ∈ reach o.a) (h : ViewingAt o p g) {e : PageAct Task Event Answer}
    (he : Undisturbed o.a o.v e) (hstep : (screens reach).step p e = some p') :
    ∃ g', ViewingAt o p' g' ∧ g'.rank = g.rank + (if own o.a o.v e then 1 else 0) := by
  rcases Script.step_cases hstep with
    ⟨e, s, ts, rfl, hs, rfl⟩ | ⟨t, b, s, ts, rfl, ht, hs, rfl⟩
  · rcases same_start hs he with ⟨hsame, hts⟩
    exact ⟨g, ⟨h.viewing.same hsame, (filter_append_of_forall hts).trans h.tasks⟩, rfl⟩
  · have hperm := (List.perm_cons_erase ht).filter (between o.a o.v)
    rw [h.tasks] at hperm
    have heq := Script.eq_of_perm_of_length_le hperm (g.length_tasks o.a o.v o.space)
    by_cases hown : between o.a o.v t = true
    · -- it is the one that waits between them
      obtain rfl : b = .done := he hown
      rw [List.filter_cons_of_pos hown] at heq
      have hlen := g.length_tasks o.a o.v o.space
      rw [heq, List.length_cons] at hlen
      have hrest : (p.waiting.erase t).filter (between o.a o.v) = [] :=
        List.length_eq_zero_iff.1 (by omega)
      rw [hrest] at heq
      rcases h.viewing.next hnodup hreach hback heq hs with ⟨g', hnext, hviewing, htasks⟩
      refine ⟨g', ⟨hviewing, ?_⟩, ?_⟩
      · rw [List.filter_append, hrest, htasks, List.nil_append]
      · rw [Progress.rank_next hnext, own, hown, if_pos rfl]
    · rw [Bool.not_eq_true] at hown
      rcases same_resume hs hown with ⟨hsame, hts⟩
      rw [List.filter_cons_of_neg (by simp [hown])] at heq
      refine ⟨g, ⟨h.viewing.same hsame, (filter_append_of_forall hts).trans heq.symm⟩, ?_⟩
      rw [own, hown, if_neg Bool.false_ne_true, Nat.add_zero]

/-- Every undisturbed run brings the progress on or leaves it. -/
theorem ViewingAt.run (hnodup : (reach o.v).Nodup) (hreach : o.a ∈ reach o.v)
    (hback : o.v ∈ reach o.a) (h : ViewingAt o p g) (has : ∀ e ∈ as, Undisturbed o.a o.v e)
    (hrun : Lib.run (screens reach).step p as = some p') :
    ∃ g', ViewingAt o p' g' ∧ g'.rank = g.rank + (as.filter (own o.a o.v)).length := by
  induction as generalizing p g with
  | nil =>
    obtain rfl : p = p' := by simpa using hrun
    exact ⟨g, h, rfl⟩
  | cons e as ih =>
    rcases List.forall_mem_cons.1 has with ⟨he, has⟩
    rcases run_cons_eq_some hrun with ⟨q, hstep, hrest⟩
    rcases h.step hnodup hreach hback he hstep with ⟨g₁, h₁, hrank₁⟩
    rcases ih h₁ has hrest with ⟨g₂, h₂, hrank₂⟩
    refine ⟨g₂, h₂, ?_⟩
    rw [hrank₂, hrank₁, List.filter_cons]
    split
    · rw [List.length_cons]
      omega
    · omega

/-- A function that waits can always go on. -/
theorem resume_isSome (s : Screens) (t : Task) : (resumeScreens reach s t .done).isSome = true := by
  cases t with
  | startShare c space allowedIps now =>
    cases now with
    | _ => rfl
  | startWatching c space now =>
    cases now with
    | _ => rfl
  | stopShare | message => rfl
  | created c ip id offer =>
    cases offer with
    | _ => rfl
  | setLocalOffer | setRemoteOffer | setLocalAnswer | flush | setRemoteAnswer =>
    -- with the connection, or with none
    simp only [resumeScreens]
    split
    · rfl
    · rfl

/-- What `v` finds when it starts to watch what `a` shares, each of them between two calls. -/
theorem ViewingAt.start (h : ∀ t ∈ p.waiting, between o.a o.v t = false)
    (hsharer : On p.shared o.a (p.shared.node o.a)) (hsharing : (p.shared.node o.a).mode = .sharing)
    (hspace : (p.shared.node o.a).spaceId = some o.space)
    (hallowed : (p.shared.node o.a).allowedIps = o.allowedIps)
    (hstream : (p.shared.node o.a).localStream = some o.n)
    (hcapture : p.shared.captures[o.n]? = some (o.a, o.allowedIps))
    (hnew : (p.shared.node o.a).peers o.v = none)
    (hviewer : Off p.shared o.v (p.shared.node o.v)) (hidle : (p.shared.node o.v).mode = .idle)
    (hfresh : (p.shared.node o.v).peers o.a = none)
    (hstep : (screens reach).step p (.start (.startWatching o.v o.space)) = some p') :
    ViewingAt o p' .preloading := by
  have hforget : (p.shared.node o.v).forget = p.shared.node o.v := by
    simp [ScreenService.forget, hviewer.spaceId]
  have hstop : (p.shared.node o.v).stopShare = (p.shared.node o.v, none) := by
    simp [ScreenService.stopShare, hidle, hforget]
  have hwatch : (p.shared.node o.v).stopWatching = p.shared.node o.v := by
    simp [ScreenService.stopWatching, hidle, hforget]
  have hp' : p' = ⟨p.shared.set o.v ((p.shared.node o.v).watch o.space),
      p.waiting ++ [.startWatching o.v o.space .preloading]⟩ := by
    have hs : some (⟨p.shared.set o.v ((p.shared.node o.v).watch o.space),
        p.waiting ++ [.startWatching o.v o.space .preloading]⟩ : Page Screens Task) = some p' := by
      simpa [Script.step, screens, startScreens, hidle, hstop, hwatch] using hstep
    exact (Option.some.inj hs).symm
  subst hp'
  refine ⟨⟨hcapture, ?_, ?_⟩, ?_⟩
  · rw [Screens.set_node_of_ne o.ne.symm]
    exact ⟨hsharing, hspace, hsharer.live, hallowed, hstream, hnew, fun _ _ _ hx => by cases hx⟩
  · rw [Screens.set_node_self]
    exact ⟨rfl, rfl, by simp [ScreenService.watch, hviewer.live, Progress.handlers], hfresh⟩
  · have hnil : p.waiting.filter (between o.a o.v) = [] :=
      List.filter_eq_nil_iff.2 (by simpa using h)
    rw [List.filter_append, hnil]
    exact filter_tasks o.a o.v o.space .preloading

/-- The tracks arrive over the connection. -/
theorem ViewingAt.sees {x y : Nat} (h : ViewingAt o p (.connected x y)) :
    ∃ p'', (screens reach).step p (.start (.track o.v o.a y)) = some p'' ∧
      p''.shared.Sees o.v (o.a, o.allowedIps) := by
  have hv := h.viewing.viewer
  have hremote : ((p.shared.node o.v).opened o.a y).bind Conn.remoteDescription =
      some ⟨x, none⟩ := by
    rw [hv.holds.opened]
    rfl
  have hsends : p.shared.sends x = some o.n := (h.viewing.sharer.sends x _ _ rfl).2
  refine ⟨⟨p.shared.set o.v { p.shared.node o.v with remoteStream := some x }, p.waiting ++ []⟩,
    ?_, ?_⟩
  · simp [Script.step, screens, startScreens, hremote, hv.mode, source, hsends]
  · refine ⟨x, o.n, ?_, hsends, h.viewing.capture⟩
    rw [Screens.set_node_self]

end Runs

section Connects

variable {reach : Str → List Str} {a v space : Str} {p q p' : Page Screens Task}
  {before after : List (PageAct Task Event Answer)}

/-- A node that starts to watch what another one shares with it, when the two have no connection
yet and nothing of them waits, is connected after eleven steps of what is between the two,
whatever else happens, and then sees what that one captures; and until then there is always such
a step to take. -/
theorem asking_connects (hne : v ≠ a) (hnodup : (reach v).Nodup) (hreach : a ∈ reach v)
    (hback : v ∈ reach a) (hbefore : Lib.run (screens reach).step init before = some p)
    (hordera : Along (screens reach).step (Script.Within (Orderly a)) init before)
    (horderv : Along (screens reach).step (Script.Within (Orderly v)) init before)
    (hrest : ∀ t ∈ p.waiting, between a v t = false)
    (hsharing : (p.shared.node a).mode = .sharing)
    (hspace : (p.shared.node a).spaceId = some space) (hlets : (p.shared.node a).lets v)
    (hnew : (p.shared.node a).peers v = none) (hidle : (p.shared.node v).mode = .idle)
    (hfresh : (p.shared.node v).peers a = none)
    (hstart : (screens reach).step p (.start (.startWatching v space)) = some q)
    (hundisturbed : ∀ e ∈ after, Undisturbed a v e)
    (hafter : Lib.run (screens reach).step q after = some p') :
    (after.filter (own a v)).length ≤ 11 ∧
      ((after.filter (own a v)).length < 11 → ∃ t, between a v t = true ∧
        ((screens reach).step p' (.resume t .done)).isSome = true) ∧
      ((after.filter (own a v)).length = 11 → ∃ y p'',
        (screens reach).step p' (.start (.track v a y)) = some p'' ∧
          p''.shared.Sees v (a, (p.shared.node a).allowedIps)) := by
  -- a call that waits would be between the two
  have hcalls : ∀ d, d = a ∨ d = v → p.waiting.filter (callOf d) = [] := by
    refine fun d hd => List.filter_eq_nil_iff.2 fun t ht hcall => ?_
    have hends : ends t = (d, none) := by simpa [callOf] using hcall
    have hbetween := hrest t ht
    rw [between, hends] at hbetween
    simp only [concerns, Bool.or_eq_false_iff, decide_eq_false_iff_not] at hbetween
    exact hd.elim hbetween.1 hbetween.2
  -- so each of them is as a call that has come to its end leaves it
  have hona : On p.shared a (p.shared.node a) := by
    have hok := (calls_keeps reach a).run (calls_init a) hordera hbefore
    rw [hcalls a (.inl rfl)] at hok
    exact hok.rest.resolve_left fun hoff => absurd (hoff.spaceId.symm.trans hspace) nofun
  have hoffv : Off p.shared v (p.shared.node v) := by
    have hok := (calls_keeps reach v).run (calls_init v) horderv hbefore
    rw [hcalls v (.inr rfl)] at hok
    exact hok.rest.resolve_right fun hon => hon.mode hidle
  rcases hona.captures hsharing with ⟨n, hstream, hcapture⟩
  let o : Shared := ⟨a, v, space, (p.shared.node a).allowedIps, n, hlets, hne⟩
  have hat : ViewingAt o q .preloading :=
    ViewingAt.start (o := o) hrest hona hsharing hspace rfl hstream hcapture hnew hoffv hidle hfresh
      hstart
  -- the place that the run has come to, counted by its own steps
  rcases hat.run hnodup hreach hback hundisturbed hafter with ⟨g, hg, hrank⟩
  rw [Progress.rank, Nat.zero_add] at hrank
  refine ⟨hrank ▸ g.rank_le, fun hlt => ?_, fun heq => ?_⟩
  · rcases Progress.exists_tasks a v space (hrank ▸ hlt) with ⟨t, ht⟩
    have hmem : t ∈ p'.waiting.filter (between a v) := by
      rw [show p'.waiting.filter (between a v) = [t] from hg.tasks.trans ht]
      exact List.mem_singleton_self t
    rcases List.mem_filter.1 hmem with ⟨hwaiting, hbetween⟩
    refine ⟨t, hbetween, ?_⟩
    have hsome : (resumeScreens reach p'.shared t .done).isSome = true := resume_isSome p'.shared t
    rcases Option.isSome_iff_exists.1 hsome with ⟨r, hr⟩
    simp [Script.step, screens, hwaiting, hr]
  · rcases Progress.eq_connected (hrank.trans heq) with ⟨x, y, rfl⟩
    exact ⟨y, hg.sees⟩

/-- Up to the signal that the sharing has begun. -/
def shared : List (PageAct Task Event Answer) :=
  sharing ++ [.resume (.message ['a'] ['b'] ['s'] .start) .done]

/-- What follows the call of the viewer, with the tracks in the course of it. -/
def viewed : List (PageAct Task Event Answer) :=
  watching.tail ++ viewing ++
    [.resume (.setLocalAnswer ['b'] ['a'] 1) .done, .resume (.flush ['b'] ['a'] 1) .done,
      .resume (.message ['b'] ['a'] ['s'] (.answer ⟨0, some 1⟩)) .done,
      .resume (.setRemoteAnswer ['a'] ['b'] 0 ⟨0, some 1⟩) .done]

theorem asking_connects_film :
    ∃ p q p', Lib.run (screens film).step init shared = some p ∧
      (screens film).step p (.start (.startWatching ['b'] ['s'])) = some q ∧
      Lib.run (screens film).step q viewed = some p' ∧
      ∃ y p'', (screens film).step p' (.start (.track ['b'] ['a'] y)) = some p'' ∧
        p''.shared.Sees ['b'] (['a'], (p.shared.node ['a']).allowedIps) := by
  have hfilm : (Lib.run (screens film).step init shared).map (fun p =>
      (p.waiting.all fun t => between ['a'] ['b'] t = false, (p.shared.node ['a']).mode,
        (p.shared.node ['a']).spaceId, (p.shared.node ['a']).allowedIps,
        (p.shared.node ['a']).peers ['b'], (p.shared.node ['b']).mode,
        (p.shared.node ['b']).peers ['a'],
        (Lib.run (screens film).step p (.start (.startWatching ['b'] ['s']) :: viewed)).isSome)) =
      some (true, .sharing, some ['s'], [['b']], none, .idle, none, true) := by rfl
  rcases Option.map_eq_some_iff.1 hfilm with ⟨p, hbefore, hp⟩
  simp only [Prod.mk.injEq] at hp
  rcases hp with ⟨hrest, hsharing, hspace, hallowed, hnew, hidle, hfresh, hsome⟩
  rcases Option.isSome_iff_exists.1 hsome with ⟨p', hrun⟩
  rcases run_cons_eq_some hrun with ⟨q, hstart, hafter⟩
  have hlets : (p.shared.node ['a']).lets ['b'] := by
    rw [ScreenService.lets, hallowed]
    decide
  refine ⟨p, q, p', hbefore, hstart, hafter, ?_⟩
  exact (asking_connects (by decide) (by decide) (by decide) (by decide) hbefore
    (by decide +kernel) (by decide +kernel) (by simpa using hrest) hsharing hspace hlets hnew hidle
    hfresh hstart (by simp [viewed, watching, viewing, Undisturbed, disturbs]) hafter).2.2
    (by decide +kernel)

end Connects

end HomeTier.Watching
