import Mathlib.Data.List.Perm.Basic
import HomeTier.Media.Mesh

/-! # The negotiation of two participants

The side with the smaller address offers, once. The negotiation is always in one
place: a handler that waits, or a message in flight (`Stage`).
-/

namespace HomeTier.Mesh

open Lib

/-! ## The condition -/

section Reaches

variable (ip : Side → Str)

def VoiceAnswer.names (p : Side) : VoiceAnswer → Bool
  | .members l => l.any (Voices.names ip p)
  | .done | .failed => false

/-- An offer comes to a side that takes it; a connection that has been made
finds no other one in its place; none is closed; the side that offers finds the
other one among the members, when it has missed that one's `join`; and no call
fails, once the microphone is there. -/
def Reaches (s : Voices) (_ : List VoiceTask) : PageAct VoiceTask VoiceEvent VoiceAnswer → Prop
  | .start (.join _) => True
  | .start (.closed p) => (s p).peer = none
  | .resume (.join p .listing) a => ip p < ip p.other → (s p).missed → a.names ip p
  | .resume (.created p _ _) .done => (s p).peer = none
  | .resume (.message p (.offer _)) _ => (s p).accepts
  | .resume (.join _ .capturing) _ | .resume (.join _ .preloading) _ => True
  | .resume _ .failed => False
  | .resume _ _ => True

instance (s : Voices) (ws : List VoiceTask) (a : PageAct VoiceTask VoiceEvent VoiceAnswer) :
    Decidable (Reaches ip s ws a) := by
  unfold Reaches
  split
  all_goals infer_instance

end Reaches

/-! ## The two sides -/

@[simp] theorem Side.other_other (p : Side) : p.other.other = p := by
  cases p <;> rfl

@[simp] theorem Side.other_ne (p : Side) : p.other ≠ p := by
  cases p <;> decide

@[simp] theorem Side.ne_other (p : Side) : p ≠ p.other := p.other_ne.symm

theorem Side.eq_or_other (p q : Side) : p = q ∨ p = q.other := by
  cases p <;> cases q <;> simp [Side.other]

namespace Voices

variable {s : Voices} {p q : Side} {v : Voice}

@[simp] theorem set_self : s.set p v p = v := Function.update_self _ _ _

theorem set_of_ne (h : q ≠ p) : s.set p v q = s q := Function.update_of_ne h _ _

@[simp] theorem set_other : s.set p v p.other = s p.other := set_of_ne p.other_ne

@[simp] theorem set_other' : s.set p.other v p = s p := set_of_ne p.ne_other

/-- A field of both sides, of which one has changed to something equal. -/
theorem set_field {α : Type} (f : Voice → α) (h : f v = f (s p)) (q : Side) :
    f (s.set p v q) = f (s q) := by
  by_cases hq : q = p
  · rw [hq, set_self, h]
  · rw [set_of_ne hq]

theorem createPeer_field {α : Type} (f : Voice → α) (h : ∀ v : Voice, f v.createPeer = f v)
    (reason : Reason) (q : Side) : f ((s.createPeer p reason).1 q) = f (s q) :=
  set_field f (h (s p)) q

theorem ensurePeers_cases (ip : Side → Str) (s : Voices) (p : Side) (l : List Member) :
    (s.ensurePeers ip p l = (s, []) ∧ ((s p).peer = none → l.any (names ip p) = false)) ∨
    ((s p).peer = none ∧
      ∃ rest, s.ensurePeers ip p l = s.createPeer p (.call (.members rest))) := by
  induction l with
  | nil => exact .inl ⟨rfl, fun _ => rfl⟩
  | cons m rest ih =>
    unfold ensurePeers
    split
    · rename_i h
      exact .inr ⟨h.2, rest, rfl⟩
    · rename_i h
      refine ih.imp_left ?_
      rintro ⟨heq, hany⟩
      refine ⟨heq, fun hp => ?_⟩
      rw [List.any_cons, hany hp, Bool.or_false]
      simpa [hp] using h

theorem goOn_cases (ip : Side → Str) (s : Voices) (p : Side) (c : Caller) :
    s.goOn ip p c = (s, []) ∨
    ((s p).peer = none ∧ ∃ c', s.goOn ip p c = s.createPeer p (.call c')) := by
  cases c with
  | onPeerJoin => exact .inl rfl
  | members rest =>
    rcases ensurePeers_cases ip s p rest with ⟨heq, -⟩ | ⟨hp, rest', heq⟩
    · exact .inl heq
    · exact .inr ⟨hp, _, heq⟩

end Voices

/-! ## Where the negotiation is -/

/-- Connection `x` of the side that offers, with its offer. -/
structure Offering (s : Voices) (o : Side) (x : Nat) : Prop where
  peer : (s o).peer = some x
  offer : ((s o).conn x).localDescription = some ⟨x, none⟩
  state : ((s o).conn x).signalingState = .haveLocalOffer
  once : (s o).offers = 1

/-- Connection `y` of the other side, with its answer to the offer of `x`. -/
structure Answered (s : Voices) (p : Side) (x y : Nat) : Prop where
  peer : (s p).peer = some y
  offer : ((s p).conn y).remoteDescription = some ⟨x, none⟩
  answer : ((s p).conn y).localDescription = some ⟨x, some y⟩
  state : ((s p).conn y).signalingState = .stable

/-- Connection `x` has the answer to its offer. -/
structure Finished (s : Voices) (o : Side) (x y : Nat) : Prop where
  peer : (s o).peer = some x
  offer : ((s o).conn x).localDescription = some ⟨x, none⟩
  answer : ((s o).conn x).remoteDescription = some ⟨x, some y⟩
  state : ((s o).conn x).signalingState = .stable
  once : (s o).offers = 1

/-- The side `o` offers; `l` is what waits of the negotiation. -/
inductive Stage (o : Side) (s : Voices) : List VoiceTask → Prop where
  | before : (s o).peer = none → (∀ n, (s o).conn n = .new) → (s o).offers = 0 → Stage o s []
  | createOffer (x : Nat) (c : Caller) : (s o).peer = some x → (s o).conn x = .new →
    (s o).offers = 0 → Stage o s [.createOffer o x c]
  | setLocalOffer (x : Nat) (c : Caller) : (s o).peer = some x → (s o).conn x = .new →
    (s o).offers = 0 → Stage o s [.setLocalOffer o x c]
  | sendOffer (x : Nat) (c : Caller) : (s o).peer = some x →
    ((s o).conn x).localDescription = some ⟨x, none⟩ →
    ((s o).conn x).signalingState = .haveLocalOffer → (s o).offers = 0 →
    Stage o s [.sendOffer o ⟨x, none⟩ c]
  | offer (x : Nat) : Offering s o x → Stage o s [.message o.other (.offer ⟨x, none⟩)]
  | created (x y : Nat) : Offering s o x → Stage o s [.created o.other y (.offer ⟨x, none⟩)]
  | setRemoteOffer (x y : Nat) : Offering s o x → (s o.other).peer = some y →
    Stage o s [.setRemoteOffer o.other y ⟨x, none⟩]
  | setLocal (x y : Nat) : Offering s o x → (s o.other).peer = some y →
    ((s o.other).conn y).remoteDescription = some ⟨x, none⟩ →
    ((s o.other).conn y).signalingState = .haveRemoteOffer → Stage o s [.setLocal o.other y]
  | sendAnswer (x y : Nat) : Offering s o x → Answered s o.other x y →
    Stage o s [.sendAnswer o.other ⟨x, some y⟩]
  | answer (x y : Nat) : Offering s o x → Answered s o.other x y →
    Stage o s [.message o (.answer ⟨x, some y⟩)]
  | setRemoteAnswer (x y : Nat) : Offering s o x → Answered s o.other x y →
    Stage o s [.setRemoteAnswer o x ⟨x, some y⟩]
  | finished (x y : Nat) : Finished s o x y → Answered s o.other x y → Stage o s []

namespace Stage

variable {o p : Side} {s s' : Voices} {l : List VoiceTask} {t : VoiceTask} {pc : Nat} {c : Caller}
  {sdp : Sdp}

theorem length_le (h : Stage o s l) : l.length ≤ 1 := by
  cases h <;> simp

theorem tail_nil (h : Stage o s (t :: l)) : l = [] := by
  simpa using h.length_le

/-- `Stage` reads the peers, the descriptions and the count of offers; a first
peer of the side that answers changes nothing. -/
theorem frame (h : Stage o s l) (ho : (s' o).peer = (s o).peer)
    (hother : (s' o.other).peer = (s o.other).peer ∨ (s o.other).peer = none)
    (hc : ∀ p, (s' p).conn = (s p).conn) (hn : (s' o).offers = (s o).offers) : Stage o s' l := by
  have hoffering : ∀ {x}, Offering s o x → Offering s' o x := fun {x} h =>
    ⟨ho.trans h.peer, by rw [hc]; exact h.offer, by rw [hc]; exact h.state, hn.trans h.once⟩
  have hpeer : ∀ {y}, (s o.other).peer = some y → (s' o.other).peer = some y := by
    intro y hy
    rcases hother with heq | hnone
    · exact heq.trans hy
    · exact absurd (hnone.symm.trans hy) (by simp)
  have hanswered : ∀ {x y}, Answered s o.other x y → Answered s' o.other x y := fun {x y} h =>
    ⟨hpeer h.peer, by rw [hc]; exact h.offer, by rw [hc]; exact h.answer, by rw [hc]; exact h.state⟩
  cases h with
  | before h₁ h₂ h₃ => exact .before (ho.trans h₁) (by rw [hc]; exact h₂) (hn.trans h₃)
  | createOffer x c h₁ h₂ h₃ =>
    exact .createOffer x c (ho.trans h₁) (by rw [hc]; exact h₂) (hn.trans h₃)
  | setLocalOffer x c h₁ h₂ h₃ =>
    exact .setLocalOffer x c (ho.trans h₁) (by rw [hc]; exact h₂) (hn.trans h₃)
  | sendOffer x c h₁ h₂ h₃ h₄ =>
    exact .sendOffer x c (ho.trans h₁) (by rw [hc]; exact h₂) (by rw [hc]; exact h₃) (hn.trans h₄)
  | offer x h₁ => exact .offer x (hoffering h₁)
  | created x y h₁ => exact .created x y (hoffering h₁)
  | setRemoteOffer x y h₁ h₂ => exact .setRemoteOffer x y (hoffering h₁) (hpeer h₂)
  | setLocal x y h₁ h₂ h₃ h₄ =>
    exact .setLocal x y (hoffering h₁) (hpeer h₂) (by rw [hc]; exact h₃) (by rw [hc]; exact h₄)
  | sendAnswer x y h₁ h₂ => exact .sendAnswer x y (hoffering h₁) (hanswered h₂)
  | answer x y h₁ h₂ => exact .answer x y (hoffering h₁) (hanswered h₂)
  | setRemoteAnswer x y h₁ h₂ => exact .setRemoteAnswer x y (hoffering h₁) (hanswered h₂)
  | finished x y h₁ h₂ =>
    exact .finished x y ⟨ho.trans h₁.peer, by rw [hc]; exact h₁.offer, by rw [hc]; exact h₁.answer,
      by rw [hc]; exact h₁.state, hn.trans h₁.once⟩ (hanswered h₂)

/-! One lemma for each place: what its next step leaves, and where. -/

/-- The first connection of the side that offers. -/
theorem enter (h : Stage o s l) (hp : (s o).peer = none) (pc : Nat) (c : Caller) :
    l = [] ∧ Stage o (s.set o ((s o).setPeer pc)) [.createOffer o pc c] := by
  cases h with
  | before h₁ h₂ h₃ =>
    refine ⟨rfl, .createOffer pc c ?_ ?_ ?_⟩
    · simp [Voice.setPeer]
    · simpa [Voice.setPeer] using h₂ pc
    · simpa [Voice.setPeer] using h₃
  | finished x y h₁ h₂ => exact absurd (hp.symm.trans h₁.peer) (by simp)
  | createOffer x c h₁ => exact absurd (hp.symm.trans h₁) (by simp)
  | setLocalOffer x c h₁ => exact absurd (hp.symm.trans h₁) (by simp)
  | sendOffer x c h₁ => exact absurd (hp.symm.trans h₁) (by simp)
  | offer x h₁ => exact absurd (hp.symm.trans h₁.peer) (by simp)
  | created x y h₁ => exact absurd (hp.symm.trans h₁.peer) (by simp)
  | setRemoteOffer x y h₁ => exact absurd (hp.symm.trans h₁.peer) (by simp)
  | setLocal x y h₁ => exact absurd (hp.symm.trans h₁.peer) (by simp)
  | sendAnswer x y h₁ => exact absurd (hp.symm.trans h₁.peer) (by simp)
  | answer x y h₁ => exact absurd (hp.symm.trans h₁.peer) (by simp)
  | setRemoteAnswer x y h₁ => exact absurd (hp.symm.trans h₁.peer) (by simp)

theorem createdOffer (h : Stage o s [.createOffer p pc c]) : Stage o s [.setLocalOffer p pc c] := by
  cases h with
  | createOffer x c h₁ h₂ h₃ => exact .setLocalOffer pc c h₁ h₂ h₃

theorem offered (h : Stage o s [.setLocalOffer p pc c]) :
    ∃ k, ((s p).conn pc).setLocalOffer pc = some k ∧
      Stage o (s.set p ((s p).setConn pc k)) [.sendOffer p ⟨pc, none⟩ c] := by
  cases h with
  | setLocalOffer x c h₁ h₂ h₃ =>
    refine ⟨⟨some ⟨pc, none⟩, none, .haveLocalOffer⟩, by rw [h₂]; rfl, ?_⟩
    exact .sendOffer pc c (by simpa [Voice.setConn] using h₁) (by simp [Voice.setConn])
      (by simp [Voice.setConn]) (by simpa [Voice.setConn] using h₃)

theorem sent (h : Stage o s [.sendOffer p sdp c]) :
    p = o ∧ Stage o (s.set p { s p with offers := (s p).offers + 1 })
      [.message p.other (.offer sdp)] := by
  cases h with
  | sendOffer x c h₁ h₂ h₃ h₄ =>
    refine ⟨rfl, .offer x ⟨?_, ?_, ?_, ?_⟩⟩
    · simpa using h₁
    · simpa using h₂
    · simpa using h₃
    · simpa using h₄

theorem delivered (h : Stage o s [.message p (.offer sdp)]) :
    p = o.other ∧ (∀ pc, Stage o s [.created p pc (.offer sdp)]) ∧
      ∀ pc, (s p).peer = some pc → Stage o s [.setRemoteOffer p pc sdp] := by
  cases h with
  | offer x h₁ =>
    exact ⟨rfl, fun pc => .created x pc h₁, fun pc hpc => .setRemoteOffer x pc h₁ hpc⟩

theorem madeFor (h : Stage o s [.created p pc (.offer sdp)]) :
    p = o.other ∧ Stage o (s.set p ((s p).setPeer pc)) [.setRemoteOffer p pc sdp] := by
  cases h with
  | created x y h₁ =>
    refine ⟨rfl, .setRemoteOffer x pc ⟨?_, ?_, ?_, ?_⟩ (by simp [Voice.setPeer])⟩
    · simpa using h₁.peer
    · simpa using h₁.offer
    · simpa using h₁.state
    · simpa using h₁.once

theorem described (h : Stage o s [.setRemoteOffer p pc sdp]) :
    p = o.other ∧ Stage o (s.set p ((s p).setConn pc (((s p).conn pc).setRemoteOffer sdp)))
      [.setLocal p pc] := by
  cases h with
  | setRemoteOffer x y h₁ h₂ =>
    refine ⟨rfl, .setLocal x pc ⟨?_, ?_, ?_, ?_⟩ ?_ ?_ ?_⟩
    · simpa using h₁.peer
    · simpa using h₁.offer
    · simpa using h₁.state
    · simpa using h₁.once
    · simpa [Voice.setConn] using h₂
    · simp [Voice.setConn, Conn.setRemoteOffer]
    · simp [Voice.setConn, Conn.setRemoteOffer]

theorem answered (h : Stage o s [.setLocal p pc]) :
    p = o.other ∧ ∃ sdp, (((s p).conn pc).setLocal pc).localDescription = some sdp ∧
      Stage o (s.set p ((s p).setConn pc (((s p).conn pc).setLocal pc))) [.sendAnswer p sdp] := by
  cases h with
  | setLocal x y h₁ h₂ h₃ h₄ =>
    have hset : ((s o.other).conn pc).setLocal pc =
        { (s o.other).conn pc with
          localDescription := some ⟨x, some pc⟩, signalingState := .stable } := by
      simp only [Conn.setLocal, h₃, h₄]
    rw [hset]
    refine ⟨rfl, ⟨x, some pc⟩, rfl, .sendAnswer x pc ⟨?_, ?_, ?_, ?_⟩ ⟨?_, ?_, ?_, ?_⟩⟩
    · simpa using h₁.peer
    · simpa using h₁.offer
    · simpa using h₁.state
    · simpa using h₁.once
    · simpa [Voice.setConn] using h₂
    · simpa [Voice.setConn] using h₃
    · simp [Voice.setConn]
    · simp [Voice.setConn]

theorem replied (h : Stage o s [.sendAnswer p sdp]) :
    Stage o s [.message p.other (.answer sdp)] := by
  cases h with
  | sendAnswer x y h₁ h₂ =>
    rw [Side.other_other]
    exact .answer x y h₁ h₂

theorem accepted (h : Stage o s [.message p (.answer sdp)]) :
    p = o ∧ ∃ pc, (s p).peer = some pc ∧ Stage o s [.setRemoteAnswer p pc sdp] := by
  cases h with
  | answer x y h₁ h₂ => exact ⟨rfl, x, h₁.peer, .setRemoteAnswer x y h₁ h₂⟩

theorem ended (h : Stage o s [.setRemoteAnswer p pc sdp]) :
    ∃ k, ((s p).conn pc).setRemoteAnswer sdp = some k ∧
      Stage o (s.set p ((s p).setConn pc k)) [] := by
  cases h with
  | setRemoteAnswer x y h₁ h₂ =>
    refine ⟨{ (s o).conn pc with
      remoteDescription := some ⟨pc, some y⟩, signalingState := .stable }, ?_, ?_⟩
    · simp only [Conn.setRemoteAnswer, h₁.state]
      rfl
    · refine .finished pc y ⟨?_, ?_, ?_, ?_, ?_⟩ ⟨?_, ?_, ?_, ?_⟩
      · simpa [Voice.setConn] using h₁.peer
      · simpa [Voice.setConn] using h₁.offer
      · simp [Voice.setConn]
      · simp [Voice.setConn]
      · simpa [Voice.setConn] using h₁.once
      · simpa using h₂.peer
      · simpa using h₂.offer
      · simpa using h₂.answer
      · simpa using h₂.state

end Stage

/-! ## Joining -/

/-- The side whose call, with its handler registered, a task goes on with. -/
def VoiceTask.caller : VoiceTask → Option Side
  | .join _ .capturing | .join _ .preloading => none
  | .join p _ | .created p _ _ | .createOffer p _ _ | .setLocalOffer p _ _ | .sendOffer p _ _
  | .sent p _ => some p
  | .setRemoteOffer .. | .setLocal .. | .sendAnswer .. | .setRemoteAnswer .. | .message .. => none

def VoiceTask.isJoin : VoiceTask → Bool
  | .join _ _ => true
  | _ => false

/-- What `join` has done of each side, and what of it still waits. -/
structure Joining (s : Voices) (ws : List VoiceTask) : Prop where
  inSpace : ∀ p, .join p .preloading ∈ ws → (s p).spaceId = true
  inCall : ∀ t ∈ ws, ∀ p, t.caller = some p → (s p).accepts = true
  handled : ∀ p, (s p).announced = true ∨ (s p).listed = true → (s p).accepts = true
  announced : ∀ p, (s p).spaceId = true →
    (s p).announced = true ∨ .join p .preloading ∈ ws ∨ .join p .announcing ∈ ws
  listed : ∀ p, (s p).spaceId = true → (s p).listed = true ∨ ∃ a ≠ .capturing, .join p a ∈ ws

/-- What `Joining` reads of a side. -/
def Voice.flags (v : Voice) : Bool × Bool × Bool × Bool :=
  (v.spaceId, v.handler, v.announced, v.listed)

theorem Voice.accepts_congr {v v' : Voice} (h : v'.flags = v.flags) : v'.accepts = v.accepts :=
  congrArg (fun x : Bool × Bool × Bool × Bool => x.2.1 && x.1) h

namespace Joining

variable {s s' : Voices} {ws ws' ts : List VoiceTask} {t : VoiceTask} {p : Side}

theorem perm (hw : ws.Perm ws') (h : Joining s ws) : Joining s ws' where
  inSpace p hp := h.inSpace p (hw.mem_iff.mpr hp)
  inCall t ht := h.inCall t (hw.mem_iff.mpr ht)
  handled := h.handled
  announced p := by
    rw [← hw.mem_iff, ← hw.mem_iff]
    exact h.announced p
  listed p hp := by
    rcases h.listed p hp with hl | ⟨a, ha, hmem⟩
    · exact .inl hl
    · exact .inr ⟨a, ha, hw.mem_iff.mp hmem⟩

theorem congr (h : Joining s ws) (hs : ∀ p, (s' p).flags = (s p).flags) : Joining s' ws := by
  have hspace : ∀ p, (s' p).spaceId = (s p).spaceId := fun p => congrArg Prod.fst (hs p)
  have hann : ∀ p, (s' p).announced = (s p).announced := fun p =>
    congrArg (fun x => x.2.2.1) (hs p)
  have hlist : ∀ p, (s' p).listed = (s p).listed := fun p => congrArg (fun x => x.2.2.2) (hs p)
  constructor
  · exact fun p hp => (hspace p).trans (h.inSpace p hp)
  · exact fun t ht p hp => (Voice.accepts_congr (hs p)).trans (h.inCall t ht p hp)
  · intro p
    rw [Voice.accepts_congr (hs p), hann, hlist]
    exact h.handled p
  · intro p
    rw [hspace, hann]
    exact h.announced p
  · intro p
    rw [hspace, hlist]
    exact h.listed p

/-- A task that is no part of `join` is over. -/
theorem drop (h : Joining s (t :: ws)) (ht : t.isJoin = false) : Joining s ws := by
  have hne : ∀ p a, (.join p a : VoiceTask) ≠ t := by
    intro p a heq
    rw [← heq] at ht
    cases ht
  constructor
  · exact fun p hp => h.inSpace p (List.mem_cons_of_mem _ hp)
  · exact fun u hu => h.inCall u (List.mem_cons_of_mem _ hu)
  · exact h.handled
  · intro p hp
    simpa [hne] using h.announced p hp
  · intro p hp
    simpa [hne] using h.listed p hp

theorem append (h : Joining s ws) (hjoin : ∀ t ∈ ts, t.isJoin = false)
    (hcall : ∀ t ∈ ts, ∀ p, t.caller = some p → (s p).accepts = true) : Joining s (ws ++ ts) := by
  have hmem : ∀ p a, .join p a ∈ ws ++ ts ↔ .join p a ∈ ws := by
    intro p a
    rw [List.mem_append, or_iff_left]
    intro ht
    exact absurd (hjoin _ ht) (by simp [VoiceTask.isJoin])
  constructor
  · simpa only [hmem] using h.inSpace
  · intro t ht
    rcases List.mem_append.mp ht with ht | ht
    · exact h.inCall t ht
    · exact hcall t ht
  · exact h.handled
  · simpa only [hmem] using h.announced
  · simpa only [hmem] using h.listed

/-- A handler goes on, or another one starts in the same call. -/
theorem goOn (h : Joining s (t :: ws)) (ht : t.isJoin = false)
    (hs : ∀ p, (s' p).flags = (s p).flags) (hjoin : ∀ u ∈ ts, u.isJoin = false)
    (hcall : ∀ u ∈ ts, ∀ p, u.caller = some p → (s p).accepts = true) : Joining s' (ws ++ ts) :=
  ((h.drop ht).append hjoin hcall).congr hs

theorem begin (h : Joining s ws) (p : Side) : Joining s (ws ++ [.join p .capturing]) := by
  constructor
  · simpa using h.inSpace
  · intro t ht
    rcases List.mem_append.mp ht with ht | ht
    · exact h.inCall t ht
    · obtain rfl := List.mem_singleton.mp ht
      exact fun q hq => absurd hq (by simp [VoiceTask.caller])
  · exact h.handled
  · simpa using h.announced
  · intro q hq
    rcases h.listed q hq with hl | ⟨a, ha, hmem⟩
    · exact .inl hl
    · exact .inr ⟨a, ha, List.mem_append_left _ hmem⟩

/-- One part of `join` is over, and the next one waits, if there is one. -/
theorem advance {a : JoinAt} {v : Voice} (h : Joining s (.join p a :: ws))
    (hspace : (s p).spaceId = true → v.spaceId = true)
    (haccepts : (s p).accepts = true → v.accepts = true)
    (hts : ∀ t ∈ ts, ∀ q, t.caller = some q → q = p ∧ v.accepts = true)
    (hjoin : ∀ q b, .join q b ∈ ts → q = p) (hin : .join p .preloading ∈ ts → v.spaceId = true)
    (hhandled : v.announced = true ∨ v.listed = true → v.accepts = true)
    (hannounced : v.spaceId = true → v.announced = true ∨ .join p .preloading ∈ ws ++ ts ∨
      .join p .announcing ∈ ws ++ ts)
    (hlisted : v.spaceId = true → v.listed = true ∨ ∃ b ≠ .capturing, .join p b ∈ ws ++ ts) :
    Joining (s.set p v) (ws ++ ts) := by
  -- the joins of the others are the ones that were there
  have hmem : ∀ q, q ≠ p → ∀ b, .join q b ∈ ws ++ ts ↔ .join q b ∈ VoiceTask.join p a :: ws := by
    intro q hq b
    simp only [List.mem_append, List.mem_cons, VoiceTask.join.injEq, hq, false_and, false_or]
    exact or_iff_left fun ht => hq (hjoin q b ht)
  constructor
  · intro q hq
    by_cases hqp : q = p
    · subst hqp
      rw [Voices.set_self]
      rcases List.mem_append.mp hq with hq | hq
      · exact hspace (h.inSpace q (List.mem_cons_of_mem _ hq))
      · exact hin hq
    · rw [Voices.set_of_ne hqp]
      exact h.inSpace q ((hmem q hqp _).mp hq)
  · intro t ht q hq
    rcases List.mem_append.mp ht with ht | ht
    · have hacc := h.inCall t (List.mem_cons_of_mem _ ht) q hq
      by_cases hqp : q = p
      · rw [hqp, Voices.set_self]
        exact haccepts (hqp ▸ hacc)
      · rwa [Voices.set_of_ne hqp]
    · rcases hts t ht q hq with ⟨rfl, hv⟩
      rwa [Voices.set_self]
  · intro q
    by_cases hq : q = p
    · rw [hq, Voices.set_self]
      exact hhandled
    · rw [Voices.set_of_ne hq]
      exact h.handled q
  · intro q
    by_cases hq : q = p
    · rw [hq, Voices.set_self]
      exact hannounced
    · rw [Voices.set_of_ne hq, hmem q hq, hmem q hq]
      exact h.announced q
  · intro q
    by_cases hq : q = p
    · rw [hq, Voices.set_self]
      exact hlisted
    · rw [Voices.set_of_ne hq]
      simpa only [hmem q hq] using h.listed q

theorem captured (h : Joining s (.join p .capturing :: ws)) :
    Joining (s.set p { s p with spaceId := true }) (ws ++ [.join p .preloading]) := by
  have haccepts : (s p).accepts = true → { s p with spaceId := true }.accepts = true := by
    intro hacc
    simp only [Voice.accepts, Bool.and_eq_true] at hacc ⊢
    exact ⟨hacc.1, trivial⟩
  refine h.advance (fun _ => rfl) haccepts ?_ (by simp) (fun _ => rfl)
    (fun hdone => haccepts (h.handled p hdone)) (fun _ => .inr (.inl (by simp)))
    (fun _ => .inr ⟨.preloading, by simp, by simp⟩)
  simp [VoiceTask.caller]

/-- Without a microphone, `join` ends. -/
theorem refused (h : Joining s (.join p .capturing :: ws)) : Joining s ws where
  inSpace q hq := h.inSpace q (List.mem_cons_of_mem _ hq)
  inCall t ht := h.inCall t (List.mem_cons_of_mem _ ht)
  handled := h.handled
  announced q hq := by simpa using h.announced q hq
  listed q hq := by
    rcases h.listed q hq with hl | ⟨a, ha, hmem⟩
    · exact .inl hl
    · refine .inr ⟨a, ha, (List.mem_cons.mp hmem).resolve_left ?_⟩
      rintro ⟨⟩
      exact ha rfl

theorem preloaded (h : Joining s (.join p .preloading :: ws)) :
    Joining (s.set p { s p with handler := true }) (ws ++ [.join p .announcing]) := by
  have hspace : (s p).spaceId = true := h.inSpace p List.mem_cons_self
  have hacc : { s p with handler := true }.accepts = true := by simpa [Voice.accepts] using hspace
  refine h.advance id (fun _ => hacc) ?_ (by simp) (by simp) (fun _ => hacc)
    (fun _ => .inr (.inr (by simp))) (fun _ => .inr ⟨.announcing, by simp, by simp⟩)
  simpa [VoiceTask.caller] using hacc

theorem announce (h : Joining s (.join p .announcing :: ws)) :
    Joining (s.set p { s p with announced := true })
      (ws ++ [.message p.other .join, .join p .listing]) := by
  have hacc : (s p).accepts = true := h.inCall _ List.mem_cons_self p rfl
  refine h.advance id id ?_ (by simp) (by simp) (fun _ => hacc) (fun _ => .inl rfl)
    (fun _ => .inr ⟨.listing, by simp, by simp⟩)
  intro t ht q hq
  simp only [List.mem_cons, List.not_mem_nil, or_false] at ht
  rcases ht with rfl | rfl
  · cases hq
  · exact ⟨(Option.some.inj hq).symm, hacc⟩

theorem list (h : Joining s (.join p .listing :: ws)) :
    Joining (s.set p { s p with listed := true }) ws := by
  have hacc : (s p).accepts = true := h.inCall _ List.mem_cons_self p rfl
  have hj : Joining (s.set p { s p with listed := true }) (ws ++ []) := by
    refine h.advance id id (by simp) (by simp) (by simp) (fun _ => hacc) ?_ (fun _ => .inl rfl)
    intro hspace
    simpa using h.announced p hspace
  simpa using hj

end Joining

/-! ## The connections that are open -/

def VoiceTask.makes (p : Side) : VoiceTask → Option Nat
  | .created q pc _ => if q = p then some pc else none
  | _ => none

/-- A side's open connections: the one in its map, and those being made. -/
def Opened (s : Voices) (ws : List VoiceTask) : Prop :=
  ∀ p, (s p).opened.Perm ((s p).peer.toList ++ ws.filterMap (VoiceTask.makes p))

namespace Opened

variable {s s' : Voices} {ws ws' ts : List VoiceTask} {t : VoiceTask} {p : Side}

theorem perm (hw : ws.Perm ws') (h : Opened s ws) : Opened s ws' := fun p =>
  (h p).trans ((hw.filterMap _).append_left _)

theorem congr (h : Opened s ws) (hpeer : ∀ p, (s' p).peer = (s p).peer)
    (hopened : ∀ p, (s' p).opened = (s p).opened) : Opened s' ws := by
  intro p
  rw [hpeer, hopened]
  exact h p

/-- A task that makes no connection is over, and others that make none wait. -/
theorem goOn (h : Opened s (t :: ws)) (ht : ∀ p, t.makes p = none)
    (hts : ∀ u ∈ ts, ∀ p, u.makes p = none) (hpeer : ∀ p, (s' p).peer = (s p).peer)
    (hopened : ∀ p, (s' p).opened = (s p).opened) : Opened s' (ws ++ ts) := by
  intro p
  rw [hpeer, hopened, List.filterMap_append, List.filterMap_eq_nil_iff.mpr fun u hu => hts u hu p,
    List.append_nil]
  have hp := h p
  rwa [List.filterMap_cons_none (ht p)] at hp

theorem createPeer (h : Opened s ws) (p : Side) (reason : Reason) :
    Opened (s.createPeer p reason).1 (ws ++ (s.createPeer p reason).2) := by
  intro q
  rw [List.filterMap_append, ← List.append_assoc]
  by_cases hq : q = p
  · subst hq
    simpa [Voices.createPeer, Voice.createPeer, VoiceTask.makes] using (h q).append_right _
  · have hne : p ≠ q := fun heq => hq heq.symm
    simpa [Voices.createPeer, Voices.set_of_ne hq, VoiceTask.makes, hne] using h q

/-- The connection goes into the map, where there was none. -/
theorem setPeer {pc : Nat} {reason : Reason} (h : Opened s (.created p pc reason :: ws))
    (hp : (s p).peer = none) : Opened (s.set p ((s p).setPeer pc)) ws := by
  intro q
  have hq := h q
  by_cases hqp : q = p
  · subst hqp
    simpa [Voice.setPeer, VoiceTask.makes, hp] using hq
  · have hne : p ≠ q := fun heq => hqp heq.symm
    simpa [Voices.set_of_ne hqp, VoiceTask.makes, hne] using hq

end Opened

/-! ## A connection to come -/

/-- The side that offers has its connection, or will have it: it is being made,
the other one's `join` is still to be sent or in flight, or it has been missed
and the members are still to be read. -/
inductive Coming (o : Side) (s : Voices) (ws : List VoiceTask) : Prop where
  | there : (s o).peer ≠ none → Coming o s ws
  | made (pc : Nat) (c : Caller) : .created o pc (.call c) ∈ ws → Coming o s ws
  | unannounced : (s o.other).announced = false → Coming o s ws
  | inFlight : .message o .join ∈ ws → Coming o s ws
  | missed : (s o).missed = true → (s o).listed = false → Coming o s ws

def VoiceTask.brings (o : Side) : VoiceTask → Bool
  | .created p _ (.call _) | .message p .join => p = o
  | _ => false

namespace Coming

variable {o : Side} {s s' : Voices} {ws ws' ts : List VoiceTask} {t : VoiceTask}

theorem perm (hw : ws.Perm ws') (h : Coming o s ws) : Coming o s ws' := by
  cases h with
  | there h => exact .there h
  | made pc c h => exact .made pc c (hw.mem_iff.mp h)
  | unannounced h => exact .unannounced h
  | inFlight h => exact .inFlight (hw.mem_iff.mp h)
  | missed h₁ h₂ => exact .missed h₁ h₂

theorem append (h : Coming o s ws) : Coming o s (ws ++ ts) := by
  cases h with
  | there h => exact .there h
  | made pc c h => exact .made pc c (List.mem_append_left _ h)
  | unannounced h => exact .unannounced h
  | inFlight h => exact .inFlight (List.mem_append_left _ h)
  | missed h₁ h₂ => exact .missed h₁ h₂

theorem drop (h : Coming o s (t :: ws)) (ht : t.brings o = false) : Coming o s ws := by
  cases h with
  | there h => exact .there h
  | made pc c h =>
    rcases List.mem_cons.mp h with rfl | h
    · simp [VoiceTask.brings] at ht
    · exact .made pc c h
  | unannounced h => exact .unannounced h
  | inFlight h =>
    rcases List.mem_cons.mp h with rfl | h
    · simp [VoiceTask.brings] at ht
    · exact .inFlight h
  | missed h₁ h₂ => exact .missed h₁ h₂

theorem congr (h : Coming o s ws) (hpeer : (s o).peer ≠ none → (s' o).peer ≠ none)
    (hann : (s' o.other).announced = (s o.other).announced)
    (hmissed : (s' o).missed = (s o).missed) (hlisted : (s' o).listed = (s o).listed) :
    Coming o s' ws := by
  cases h with
  | there h => exact .there (hpeer h)
  | made pc c h => exact .made pc c h
  | unannounced h => exact .unannounced (hann.trans h)
  | inFlight h => exact .inFlight h
  | missed h₁ h₂ => exact .missed (hmissed.trans h₁) (hlisted.trans h₂)

end Coming

end HomeTier.Mesh
