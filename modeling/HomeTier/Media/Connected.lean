import HomeTier.Media.Negotiation

/-! # Two participants are connected

The parts of the invariant, put together, along every step; and what it says
when nothing waits.
-/

namespace HomeTier.Mesh

open Lib

/-! ## The invariant -/

def VoiceTask.negotiates : VoiceTask → Bool
  | .join .. | .sent .. | .created _ _ (.call _) | .message _ .join => false
  | _ => true

def negotiation (ws : List VoiceTask) : List VoiceTask := ws.filter VoiceTask.negotiates

theorem negotiation_append (ws ts : List VoiceTask) :
    negotiation (ws ++ ts) = negotiation ws ++ negotiation ts := List.filter_append ..

/-- What each side has by itself. -/
structure Orderly (o : Side) (s : Voices) (ws : List VoiceTask) : Prop where
  joining : Joining s ws
  opened : Opened s ws
  quiet : (s o.other).offers = 0
  taking : ∀ p, (s p).peer ≠ none → (s p).accepts = true

structure MeshInv (o : Side) (s : Voices) (ws : List VoiceTask) : Prop extends
    Orderly o s ws where
  stage : Stage o s (negotiation ws)
  coming : Coming o s ws

/-- What a side keeps while descriptions are set and messages sent. -/
structure Voice.SameCall (v v' : Voice) : Prop where
  flags : v'.flags = v.flags
  peer : v'.peer = v.peer
  opened : v'.opened = v.opened
  missed : v'.missed = v.missed

namespace MeshInv

variable {o p : Side} {s : Voices} {ws ws' ts : List VoiceTask} {t : VoiceTask} {v : Voice}

theorem perm (hw : ws.Perm ws') (h : MeshInv o s ws) : MeshInv o s ws' where
  stage := by
    have heq : negotiation ws = negotiation ws' :=
      Script.eq_of_perm_of_length_le (hw.filter _) h.stage.length_le
    exact heq ▸ h.stage
  joining := h.joining.perm hw
  opened := h.opened.perm hw
  quiet := h.quiet
  taking := h.taking
  coming := h.coming.perm hw

/-- What negotiates does so alone. -/
theorem alone (h : MeshInv o s (t :: ws)) (ht : t.negotiates = true) :
    negotiation ws = [] ∧ Stage o s [t] := by
  have hst : Stage o s (t :: negotiation ws) := by
    have hs := h.stage
    rwa [negotiation, List.filter_cons_of_pos ht] at hs
  have hnil : negotiation ws = [] := hst.tail_nil
  rw [hnil] at hst
  exact ⟨hnil, hst⟩

/-- What comes to the side that offers depends on four fields of a side, -/
theorem coming_set (h : Coming o s ws) (hpeer : v.peer = (s p).peer)
    (hannounced : v.announced = (s p).announced) (hmissed : v.missed = (s p).missed)
    (hlisted : v.listed = (s p).listed) : Coming o (s.set p v) ws := by
  refine h.congr ?_ ?_ ?_ ?_
  · rw [Voices.set_field Voice.peer hpeer]
    exact id
  · exact Voices.set_field Voice.announced hannounced _
  · exact Voices.set_field Voice.missed hmissed _
  · exact Voices.set_field Voice.listed hlisted _

/-- of the other side on one. -/
theorem coming_set_other (h : Coming o s ws) (hp : p ≠ o)
    (hannounced : v.announced = (s p).announced) : Coming o (s.set p v) ws := by
  have hop : o ≠ p := fun heq => hp heq.symm
  refine h.congr ?_ ?_ ?_ ?_
  · rw [Voices.set_of_ne hop]
    exact id
  · exact Voices.set_field Voice.announced hannounced _
  · rw [Voices.set_of_ne hop]
  · rw [Voices.set_of_ne hop]

theorem quiet_set (h : Orderly o s ws) (hoffers : v.offers = (s p).offers) :
    ((s.set p v) o.other).offers = 0 := (Voices.set_field Voice.offers hoffers _).trans h.quiet

/-- The negotiation depends on three. -/
theorem stage_set (h : Stage o s (negotiation ws)) (hpeer : v.peer = (s p).peer)
    (hconn : v.conn = (s p).conn) (hoffers : v.offers = (s p).offers) :
    Stage o (s.set p v) (negotiation ws) := by
  refine h.frame ?_ (.inl ?_) ?_ ?_
  · exact Voices.set_field Voice.peer hpeer _
  · exact Voices.set_field Voice.peer hpeer _
  · exact Voices.set_field Voice.conn hconn
  · exact Voices.set_field Voice.offers hoffers _

/-- The negotiation moves on to its next place. -/
theorem negotiate (h : MeshInv o s (t :: ws)) (ht : t.negotiates = true)
    (hmakes : ∀ q, t.makes q = none) (hv : (s p).SameCall v)
    (hquiet : ((s.set p v) o.other).offers = 0) (hjoin : ∀ u ∈ ts, u.isJoin = false)
    (hcall : ∀ u ∈ ts, ∀ q, u.caller = some q → (s q).accepts = true)
    (hts : ∀ u ∈ ts, ∀ q, u.makes q = none)
    (hstage : Stage o s [t] → Stage o (s.set p v) (negotiation ts)) :
    MeshInv o (s.set p v) (ws ++ ts) := by
  rcases h.alone ht with ⟨hnil, hst⟩
  have hnojoin : t.isJoin = false := by
    cases t <;> first | rfl | cases ht
  have hnobring : t.brings o = false := by
    cases t with
    | created q pc reason => cases reason <;> first | rfl | cases ht
    | message q m => cases m <;> first | rfl | cases ht
    | _ => rfl
  refine ⟨⟨?_, ?_, ?_, ?_⟩, ?_, ?_⟩
  · exact h.joining.goOn hnojoin (Voices.set_field _ hv.flags) hjoin hcall
  · exact h.opened.goOn hmakes hts (Voices.set_field _ hv.peer) (Voices.set_field _ hv.opened)
  · exact hquiet
  · intro q
    rw [Voices.set_field Voice.peer hv.peer, Voices.set_field Voice.accepts
      (Voice.accepts_congr hv.flags)]
    exact h.taking q
  · rw [negotiation_append, hnil]
    exact hstage hst
  · exact coming_set (h.coming.drop hnobring).append hv.peer
      (congrArg (fun x => x.2.2.1) hv.flags) hv.missed (congrArg (fun x => x.2.2.2) hv.flags)

/-- It does so without a change to either side. -/
theorem pass (h : MeshInv o s (t :: ws)) (ht : t.negotiates = true)
    (hmakes : ∀ q, t.makes q = none) (hjoin : ∀ u ∈ ts, u.isJoin = false)
    (hcall : ∀ u ∈ ts, ∀ q, u.caller = some q → (s q).accepts = true)
    (hts : ∀ u ∈ ts, ∀ q, u.makes q = none)
    (hstage : Stage o s [t] → Stage o s (negotiation ts)) : MeshInv o s (ws ++ ts) := by
  have hself : s.set o (s o) = s := Function.update_eq_self _ _
  have hnext := h.negotiate (p := o) (v := s o) ht hmakes ⟨rfl, rfl, rfl, rfl⟩
    (by rw [hself]; exact h.quiet) hjoin hcall hts (by rw [hself]; exact hstage)
  rwa [hself] at hnext

/-- A task of no negotiation that brings nothing is over. -/
theorem drop (h : MeshInv o s (t :: ws)) (ht : t.negotiates = false) (hjoin : t.isJoin = false)
    (hmakes : ∀ q, t.makes q = none) (hbrings : t.brings o = false) : MeshInv o s ws where
  stage := by
    have hs := h.stage
    rwa [negotiation, List.filter_cons_of_neg (by simp [ht])] at hs
  joining := h.joining.drop hjoin
  opened := by
    have hopened : Opened s (ws ++ []) :=
      h.opened.goOn hmakes (by simp) (fun _ => rfl) (fun _ => rfl)
    simpa using hopened
  quiet := h.quiet
  taking := h.taking
  coming := h.coming.drop hbrings

/-- A connection is made, for a `join` or a member, or for an offer. -/
theorem createPeer {reason : Reason} (h : Orderly o s ws)
    (hstage : Stage o s (negotiation (ws ++ [.created p (s p).next reason])))
    (hcoming : Coming o s (ws ++ [.created p (s p).next reason]))
    (hacc : (s p).accepts = true) :
    MeshInv o (s.createPeer p reason).1 (ws ++ (s.createPeer p reason).2) where
  stage := by
    refine hstage.frame ?_ (.inl ?_) (fun q => ?_) ?_
    · exact Voices.createPeer_field Voice.peer (fun _ => rfl) reason _
    · exact Voices.createPeer_field Voice.peer (fun _ => rfl) reason _
    · exact Voices.createPeer_field Voice.conn (fun _ => rfl) reason _
    · exact Voices.createPeer_field Voice.offers (fun _ => rfl) reason _
  joining := by
    refine (h.joining.append (by simp [Voices.createPeer, VoiceTask.isJoin]) ?_).congr
      (Voices.createPeer_field _ (fun _ => rfl) reason)
    simpa [Voices.createPeer, VoiceTask.caller] using hacc
  opened := h.opened.createPeer p reason
  quiet := (Voices.createPeer_field Voice.offers (fun _ => rfl) reason _).trans h.quiet
  taking q := by
    rw [Voices.createPeer_field Voice.peer (fun _ => rfl) reason,
      Voices.createPeer_field Voice.accepts (fun _ => rfl) reason]
    exact h.taking q
  coming := by
    refine hcoming.congr ?_ ?_ ?_ ?_
    · rw [Voices.createPeer_field Voice.peer (fun _ => rfl) reason]
      exact id
    · exact Voices.createPeer_field Voice.announced (fun _ => rfl) reason _
    · exact Voices.createPeer_field Voice.missed (fun _ => rfl) reason _
    · exact Voices.createPeer_field Voice.listed (fun _ => rfl) reason _

theorem createCalled {c : Caller} (h : MeshInv o s ws) (hacc : (s p).accepts = true) :
    MeshInv o (s.createPeer p (.call c)).1 (ws ++ (s.createPeer p (.call c)).2) := by
  refine createPeer h.toOrderly ?_ h.coming.append hacc
  rw [negotiation_append]
  simpa [negotiation, VoiceTask.negotiates] using h.stage

theorem goOn (ip : Side → Str) (h : MeshInv o s ws) (hacc : (s p).accepts = true) (c : Caller) :
    MeshInv o (s.goOn ip p c).1 (ws ++ (s.goOn ip p c).2) := by
  rcases Voices.goOn_cases ip s p c with heq | ⟨-, c', heq⟩
  · rw [heq]
    simpa using h
  · rw [heq]
    exact h.createCalled hacc

section Enter

variable {ip : Side → Str} {pc : Nat} {c : Caller}

/-- A side with its connection in the map takes what comes, as before. -/
theorem taking_setPeer (h : MeshInv o s ws) (hacc : (s p).accepts = true) (q : Side)
    (hq : ((s.set p ((s p).setPeer pc)) q).peer ≠ none) :
    ((s.set p ((s p).setPeer pc)) q).accepts = true := by
  by_cases hqp : q = p
  · rw [hqp, Voices.set_self]
    exact hacc
  · rw [Voices.set_of_ne hqp] at hq ⊢
    exact h.taking q hq

/-- The connection of the side that answers goes into the map. -/
theorem setPeer_other (h : MeshInv o s (.created o.other pc (.call c) :: ws))
    (hp : (s o.other).peer = none) : MeshInv o (s.set o.other ((s o.other).setPeer pc)) ws where
  stage := by
    have hs : Stage o s (negotiation ws) := h.stage
    refine hs.frame ?_ (.inr hp) ?_ ?_
    · rw [Voices.set_other']
    · exact Voices.set_field Voice.conn rfl
    · rw [Voices.set_other']
  joining := (h.joining.drop rfl).congr (Voices.set_field _ rfl)
  opened := h.opened.setPeer hp
  quiet := by
    rw [Voices.set_self]
    exact h.quiet
  taking := h.taking_setPeer (h.joining.inCall _ List.mem_cons_self _ rfl)
  coming := coming_set_other (h.coming.drop (by simp [VoiceTask.brings])) o.other_ne rfl

/-- That of the side that offers goes into the map, and the negotiation begins. -/
theorem setPeer_offerer (h : MeshInv o s (.created o pc (.call c) :: ws))
    (hp : (s o).peer = none) :
    MeshInv o (s.set o ((s o).setPeer pc)) (ws ++ [.createOffer o pc c]) where
  stage := by
    have hs : Stage o s (negotiation ws) := h.stage
    rcases hs.enter hp pc c with ⟨hnil, hstage⟩
    rw [negotiation_append, hnil]
    exact hstage
  joining := by
    have hacc : (s o).accepts = true := h.joining.inCall _ List.mem_cons_self o rfl
    refine h.joining.goOn rfl (Voices.set_field _ rfl) (by simp [VoiceTask.isJoin]) ?_
    simpa [VoiceTask.caller] using hacc
  opened := by
    intro q
    rw [List.filterMap_append, show [VoiceTask.createOffer o pc c].filterMap (VoiceTask.makes q) = []
      from rfl, List.append_nil]
    exact h.opened.setPeer hp q
  quiet := by
    rw [Voices.set_other]
    exact h.quiet
  taking := h.taking_setPeer (h.joining.inCall _ List.mem_cons_self _ rfl)
  coming := .there (by simp [Voice.setPeer])

theorem enterCall (hlt : ip o < ip o.other) (h : MeshInv o s (.created p pc (.call c) :: ws))
    (hp : (s p).peer = none) :
    MeshInv o (s.enter ip p pc (.call c)).1 (ws ++ (s.enter ip p pc (.call c)).2) := by
  have hacc : (s p).accepts = true := h.joining.inCall _ List.mem_cons_self p rfl
  rcases p.eq_or_other o with rfl | rfl
  · have hcond : ip p < ip p.other ∧ ((s.set p ((s p).setPeer pc)) p).spaceId = true := by
      rw [Voices.set_self]
      exact ⟨hlt, (Bool.and_eq_true_iff.mp hacc).2⟩
    simp only [Voices.enter, if_pos hcond]
    exact h.setPeer_offerer hp
  · have hcond : ¬ (ip o.other < ip o.other.other ∧
        ((s.set o.other ((s o.other).setPeer pc)) o.other).spaceId = true) := by
      rw [Side.other_other]
      exact fun hc => List.lt_asymm hlt hc.1
    simp only [Voices.enter, if_neg hcond]
    refine (h.setPeer_other hp).goOn ip ?_ c
    rw [Voices.set_self]
    exact hacc

/-- The side that answers has made a connection for the offer. -/
theorem enterOffer {sdp : Sdp} (h : MeshInv o s (.created p pc (.offer sdp) :: ws))
    (hp : (s p).peer = none) :
    MeshInv o (s.enter ip p pc (.offer sdp)).1 (ws ++ (s.enter ip p pc (.offer sdp)).2) := by
  rcases h.alone rfl with ⟨hnil, hst⟩
  rcases hst.madeFor with ⟨rfl, hstage⟩
  simp only [Voices.enter]
  refine ⟨⟨?_, ?_, ?_, ?_⟩, ?_, ?_⟩
  · refine h.joining.goOn rfl (Voices.set_field _ rfl) (by simp [VoiceTask.isJoin]) ?_
    simp [VoiceTask.caller]
  · intro q
    rw [List.filterMap_append, show [VoiceTask.setRemoteOffer o.other pc sdp].filterMap
      (VoiceTask.makes q) = [] from rfl, List.append_nil]
    exact h.opened.setPeer hp q
  · rw [Voices.set_self]
    exact h.quiet
  · exact h.taking_setPeer (h.joining.inCall _ List.mem_cons_self _ rfl)
  · rw [negotiation_append, hnil]
    exact hstage
  · exact coming_set_other (h.coming.drop rfl).append o.other_ne rfl

end Enter

/-! ### Messages -/

section Messages

variable {m : Message} {sdp : Sdp}

/-- A `join` comes to a handler. -/
theorem onJoin (h : MeshInv o s (.message p .join :: ws)) (hacc : (s p).accepts = true) :
    MeshInv o (s.onMessage p .join).1 (ws ++ (s.onMessage p .join).2) := by
  have horderly : Orderly o s ws := ⟨h.joining.drop rfl, h.opened, h.quiet, h.taking⟩
  simp only [Voices.onMessage]
  split
  · rename_i hpeer
    have hcoming : Coming o s ws := by
      by_cases hp : p = o
      · exact .there (by simpa [hp, Option.ne_none_iff_isSome] using hpeer)
      · exact h.coming.drop (by simp [VoiceTask.brings, hp])
    rw [List.append_nil]
    exact ⟨horderly, h.stage, hcoming⟩
  · refine createPeer horderly ?_ ?_ hacc
    · rw [negotiation_append]
      simpa [negotiation, VoiceTask.negotiates] using h.stage
    · by_cases hp : p = o
      · exact .made (s p).next .onPeerJoin (by simp [hp])
      · exact (h.coming.drop (by simp [VoiceTask.brings, hp])).append

/-- A `join` is missed: the members have not been read yet. -/
theorem missJoin (h : MeshInv o s (.message p .join :: ws)) (hacc : ¬ (s p).accepts = true) :
    MeshInv o (s.set p { s p with missed := true }) ws where
  stage := stage_set h.stage rfl rfl rfl
  joining := (h.joining.drop rfl).congr (Voices.set_field _ rfl)
  opened := Opened.congr (s := s) h.opened (Voices.set_field _ rfl) (Voices.set_field _ rfl)
  quiet := quiet_set h.toOrderly rfl
  taking q := by
    rw [Voices.set_field Voice.peer (by rfl), Voices.set_field Voice.accepts (by rfl)]
    exact h.taking q
  coming := by
    by_cases hp : p = o
    · subst hp
      have hlisted : (s p).listed = false := by
        rw [← Bool.not_eq_true]
        exact fun hl => hacc (h.joining.handled p (.inr hl))
      exact .missed (by rw [Voices.set_self]) (by rw [Voices.set_self]; exact hlisted)
    · exact coming_set_other (h.coming.drop (by simp [VoiceTask.brings, hp])) hp rfl

/-- The offer comes to the handler of the side that answers. -/
theorem onOffer (h : MeshInv o s (.message p (.offer sdp) :: ws)) (hacc : (s p).accepts = true) :
    MeshInv o (s.onMessage p (.offer sdp)).1 (ws ++ (s.onMessage p (.offer sdp)).2) := by
  rcases h.alone rfl with ⟨hnil, hst⟩
  rcases hst.delivered with ⟨-, hcreate, hset⟩
  simp only [Voices.onMessage]
  split
  · rename_i pc hpc
    exact h.pass rfl (fun _ => rfl) (by simp [VoiceTask.isJoin]) (by simp [VoiceTask.caller])
      (by simp [VoiceTask.makes]) fun _ => hset pc hpc
  · have horderly : Orderly o s ws := ⟨h.joining.drop rfl, h.opened, h.quiet, h.taking⟩
    refine createPeer horderly ?_ (h.coming.drop rfl).append hacc
    rw [negotiation_append, hnil]
    exact hcreate _

/-- The answer comes to the connection that has offered. -/
theorem onAnswer (h : MeshInv o s (.message p (.answer sdp) :: ws)) :
    (s p).accepts = true ∧
      MeshInv o (s.onMessage p (.answer sdp)).1 (ws ++ (s.onMessage p (.answer sdp)).2) := by
  rcases (h.alone rfl).2.accepted with ⟨rfl, pc, hpc, hstage⟩
  refine ⟨h.taking p (by simp [hpc]), ?_⟩
  simp only [Voices.onMessage, hpc]
  exact h.pass rfl (fun _ => rfl) (by simp [VoiceTask.isJoin]) (by simp [VoiceTask.caller])
    (by simp [VoiceTask.makes]) fun _ => hstage

theorem receive (h : MeshInv o s (.message p m :: ws))
    (hoffer : ∀ sdp, m = .offer sdp → (s p).accepts = true) :
    MeshInv o (s.receive p m).1 (ws ++ (s.receive p m).2) := by
  unfold Voices.receive
  cases m with
  | join =>
    by_cases hacc : (s p).accepts = true
    · rw [if_pos hacc]
      exact h.onJoin hacc
    · rw [if_neg hacc, if_pos rfl, List.append_nil]
      exact h.missJoin hacc
  | offer sdp =>
    have hacc := hoffer sdp rfl
    rw [if_pos hacc]
    exact h.onOffer hacc
  | answer sdp =>
    rcases h.onAnswer with ⟨hacc, hnext⟩
    rw [if_pos hacc]
    exact hnext

end Messages

/-! ### `join` -/

/-- A part of `join` that only changes what `Joining` reads. -/
theorem joinStep {a : JoinAt} (h : MeshInv o s (.join p a :: ws)) (v : Voice)
    (ts : List VoiceTask) (hv : v.peer = (s p).peer)
    (hopened : v.opened = (s p).opened) (hconn : v.conn = (s p).conn)
    (hoffers : v.offers = (s p).offers) (haccepts : (s p).accepts = true → v.accepts = true)
    (hts : negotiation ts = []) (hmakes : ∀ u ∈ ts, ∀ q, u.makes q = none)
    (hjoining : Joining (s.set p v) (ws ++ ts)) :
    Orderly o (s.set p v) (ws ++ ts) ∧ Stage o (s.set p v) (negotiation (ws ++ ts)) := by
  have hopen : Opened (s.set p v) (ws ++ ts) :=
    h.opened.goOn (fun _ => rfl) hmakes (Voices.set_field _ hv) (Voices.set_field _ hopened)
  refine ⟨⟨hjoining, hopen, ?_, ?_⟩, ?_⟩
  · exact quiet_set h.toOrderly hoffers
  · intro q hq
    rw [Voices.set_field Voice.peer hv] at hq
    by_cases hqp : q = p
    · subst hqp
      rw [Voices.set_self]
      exact haccepts (h.taking q hq)
    · rw [Voices.set_of_ne hqp]
      exact h.taking q hq
  · rw [negotiation_append, hts, List.append_nil]
    exact stage_set h.stage hv hconn hoffers

theorem captured (h : MeshInv o s (.join p .capturing :: ws)) :
    MeshInv o (s.set p { s p with spaceId := true }) (ws ++ [.join p .preloading]) := by
  have haccepts : (s p).accepts = true → { s p with spaceId := true }.accepts = true := by
    intro hacc
    simp only [Voice.accepts, Bool.and_eq_true] at hacc ⊢
    exact ⟨hacc.1, trivial⟩
  rcases h.joinStep { s p with spaceId := true } [.join p .preloading] rfl rfl rfl
    rfl haccepts rfl (by simp [VoiceTask.makes]) h.joining.captured with ⟨horderly, hstage⟩
  exact ⟨horderly, hstage, coming_set (h.coming.drop rfl).append rfl rfl rfl rfl⟩

theorem refused (h : MeshInv o s (.join p .capturing :: ws)) : MeshInv o s ws where
  joining := h.joining.refused
  opened := h.opened
  quiet := h.quiet
  taking := h.taking
  stage := h.stage
  coming := h.coming.drop rfl

theorem preloaded (h : MeshInv o s (.join p .preloading :: ws)) :
    MeshInv o (s.set p { s p with handler := true }) (ws ++ [.join p .announcing]) := by
  have hspace : (s p).spaceId = true := h.joining.inSpace p List.mem_cons_self
  rcases h.joinStep { s p with handler := true } [.join p .announcing] rfl rfl rfl
    rfl (fun _ => by simpa [Voice.accepts] using hspace) rfl (by simp [VoiceTask.makes])
    h.joining.preloaded with ⟨horderly, hstage⟩
  exact ⟨horderly, hstage, coming_set (h.coming.drop rfl).append rfl rfl rfl rfl⟩

theorem announce (h : MeshInv o s (.join p .announcing :: ws)) :
    MeshInv o (s.set p { s p with announced := true })
      (ws ++ [.message p.other .join, .join p .listing]) := by
  rcases h.joinStep { s p with announced := true }
    [.message p.other .join, .join p .listing] rfl rfl rfl rfl id rfl
    (by simp [VoiceTask.makes]) h.joining.announce with ⟨horderly, hstage⟩
  refine ⟨horderly, hstage, ?_⟩
  rcases p.eq_or_other o with rfl | rfl
  · refine (h.coming.drop rfl).append.congr ?_ ?_ ?_ ?_
    · rw [Voices.set_field Voice.peer (by rfl)]
      exact id
    · rw [Voices.set_other]
    · exact Voices.set_field Voice.missed (by rfl) _
    · exact Voices.set_field Voice.listed (by rfl) _
  · -- the message is on its way to the side that offers
    exact .inFlight (by simp)

/-- The members are read. What the side that offers has missed, it finds there. -/
theorem listed {ip : Side → Str} {a : VoiceAnswer} (hlt : ip o < ip o.other)
    (h : MeshInv o s (.join p .listing :: ws))
    (hnames : ip p < ip p.other → (s p).missed = true → a.names ip p = true)
    (l : List Member) (hl : a.names ip p = true → l.any (Voices.names ip p) = true) :
    MeshInv o ((s.set p { s p with listed := true }).ensurePeers ip p l).1
      (ws ++ ((s.set p { s p with listed := true }).ensurePeers ip p l).2) := by
  have hacc : ((s.set p { s p with listed := true }) p).accepts = true := by
    rw [Voices.set_self]
    exact h.joining.inCall _ List.mem_cons_self p rfl
  have hjoining : Joining (s.set p { s p with listed := true }) (ws ++ []) := by
    simpa using h.joining.list
  rcases h.joinStep { s p with listed := true } [] rfl rfl rfl rfl id rfl (by simp)
    hjoining with ⟨horderly, hstage⟩
  rw [List.append_nil] at horderly hstage
  have hdrop : Coming o s ws := h.coming.drop rfl
  -- for the other side, nothing has changed
  have hother : p ≠ o → Coming o (s.set p { s p with listed := true }) ws := fun hp =>
    coming_set_other hdrop hp rfl
  rcases Voices.ensurePeers_cases ip (s.set p { s p with listed := true }) p l with
    ⟨heq, hany⟩ | ⟨hnone, rest, heq⟩
  · rw [heq]
    simp only [List.append_nil]
    refine ⟨horderly, hstage, ?_⟩
    by_cases hp : p = o
    · subst hp
      by_cases hpeer : (s p).peer = none
      · have hmissed : (s p).missed = true → False := by
          intro hm
          have hin := hl (hnames hlt hm)
          rw [hany (by rw [Voices.set_self]; exact hpeer)] at hin
          cases hin
        cases hdrop with
        | there h => exact absurd hpeer h
        | made pc c h => exact .made pc c h
        | unannounced h => exact .unannounced (by rw [Voices.set_other]; exact h)
        | inFlight h => exact .inFlight h
        | missed h₁ _ => exact (hmissed h₁).elim
      · exact .there (by rw [Voices.set_self]; exact hpeer)
    · exact hother hp
  · rw [heq]
    refine createPeer horderly ?_ ?_ hacc
    · rw [negotiation_append]
      simpa [negotiation, VoiceTask.negotiates] using hstage
    · by_cases hp : p = o
      · subst hp
        exact .made _ (.members rest) (List.mem_append_right _ List.mem_cons_self)
      · exact (hother hp).append

theorem begin (h : MeshInv o s ws) :
    MeshInv o (s.set p { s p with begun := true }) (ws ++ [.join p .capturing]) where
  joining := (h.joining.begin p).congr (Voices.set_field _ rfl)
  opened := by
    have hsame : Opened (s.set p { s p with begun := true }) ws :=
      h.opened.congr (Voices.set_field _ rfl) (Voices.set_field _ rfl)
    intro q
    rw [List.filterMap_append, show [VoiceTask.join p .capturing].filterMap (VoiceTask.makes q) = []
      from rfl, List.append_nil]
    exact hsame q
  quiet := quiet_set h.toOrderly rfl
  taking q := by
    rw [Voices.set_field Voice.peer (by rfl), Voices.set_field Voice.accepts (by rfl)]
    exact h.taking q
  stage := by
    rw [negotiation_append, show negotiation [VoiceTask.join p .capturing] = [] from rfl,
      List.append_nil]
    exact stage_set h.stage rfl rfl rfl
  coming := coming_set h.coming.append rfl rfl rfl rfl

theorem of_some {s' : Voices} {x : Voices × List VoiceTask} (h : MeshInv o x.1 (ws ++ x.2))
    (hs : some x = some (s', ts)) : MeshInv o s' (ws ++ ts) := by
  obtain rfl := Option.some.inj hs
  exact h

end MeshInv

/-! ## Every run -/

section Runs

variable {ip : Side → Str} {o : Side}

theorem keeps_start (s : Voices) (ws : List VoiceTask) (e : VoiceEvent) (s' : Voices)
    (ts : List VoiceTask) (h : MeshInv o s ws) (hr : Reaches ip s ws (.start e))
    (hs : startVoice s e = some (s', ts)) : MeshInv o s' (ws ++ ts) := by
  cases e with
  | join p =>
    simp only [startVoice] at hs
    split_ifs at hs
    exact h.begin.of_some hs
  | closed p =>
    have hnone : (s p).peer = none := hr
    have hsame : s.set p (s p).onPeerLeave = s := by
      rw [show (s p).onPeerLeave = s p by simp [Voice.onPeerLeave, hnone]]
      exact Function.update_eq_self _ _
    simp only [startVoice, hsame] at hs
    exact MeshInv.of_some (x := (s, [])) (by simpa using h) hs

theorem keeps_resume (hlt : ip o < ip o.other) (s : Voices) (ws : List VoiceTask) (t : VoiceTask)
    (a : VoiceAnswer) (s' : Voices) (ts : List VoiceTask) (h : MeshInv o s (t :: ws))
    (hr : Reaches ip s ws (.resume t a)) (hs : resumeVoice ip s t a = some (s', ts)) :
    MeshInv o s' (ws ++ ts) := by
  cases t with
  | join p at_ =>
    cases at_ with
    | capturing =>
      cases a with
      | done => exact MeshInv.of_some h.captured hs
      | failed => exact MeshInv.of_some (x := (s, [])) (by simpa using h.refused) hs
      | members l => cases hs
    | preloading => exact MeshInv.of_some h.preloaded hs
    | announcing =>
      cases a with
      | done => exact MeshInv.of_some h.announce hs
      | failed => exact hr.elim
      | members l => cases hs
    | listing =>
      cases a with
      | done => cases hs
      | failed =>
        exact (h.listed hlt hr [] (fun hn => by cases hn)).of_some hs
      | members l => exact (h.listed hlt hr l id).of_some hs
  | created p pc reason =>
    cases a with
    | done =>
      cases reason with
      | call c => exact (h.enterCall hlt hr).of_some hs
      | offer sdp => exact (h.enterOffer hr).of_some hs
    | failed => exact hr.elim
    | members l => cases hs
  | createOffer p pc c =>
    cases a with
    | done =>
      refine MeshInv.of_some (x := (s, [.setLocalOffer p pc c])) ?_ hs
      refine h.pass rfl (fun _ => rfl) (by simp [VoiceTask.isJoin]) ?_ (by simp [VoiceTask.makes])
        Stage.createdOffer
      simpa [VoiceTask.caller] using h.joining.inCall _ List.mem_cons_self p rfl
    | failed => exact hr.elim
    | members l => cases hs
  | setLocalOffer p pc c =>
    cases a with
    | done =>
      -- no other exchange between the two is under way, so the stage is known
      rcases (h.alone rfl).2.offered with ⟨k, hk, hstage⟩
      simp only [resumeVoice, hk] at hs
      refine MeshInv.of_some (x := (_, _)) ?_ hs
      refine h.negotiate rfl (fun _ => rfl) ⟨rfl, rfl, rfl, rfl⟩ ?_ (by simp [VoiceTask.isJoin]) ?_
        (by simp [VoiceTask.makes]) fun _ => hstage
      · exact MeshInv.quiet_set h.toOrderly rfl
      · simpa [VoiceTask.caller] using h.joining.inCall _ List.mem_cons_self p rfl
    | failed => exact hr.elim
    | members l => cases hs
  | sendOffer p sdp c =>
    cases a with
    | done =>
      rcases (h.alone rfl).2.sent with ⟨rfl, hstage⟩
      refine MeshInv.of_some (x := (_, _)) ?_ hs
      refine h.negotiate rfl (fun _ => rfl) ⟨rfl, rfl, rfl, rfl⟩ ?_ (by simp [VoiceTask.isJoin]) ?_
        (by simp [VoiceTask.makes]) fun _ => hstage
      · rw [Voices.set_other]
        exact h.quiet
      · simpa [VoiceTask.caller] using h.joining.inCall _ List.mem_cons_self p rfl
    | failed => exact hr.elim
    | members l => cases hs
  | sent p c =>
    -- the offer has gone out; the loop over the members goes on
    have hacc : (s p).accepts = true := h.joining.inCall _ List.mem_cons_self p rfl
    cases a with
    | done => exact ((h.drop rfl rfl (fun _ => rfl) rfl).goOn ip hacc c).of_some hs
    | failed => exact hr.elim
    | members l => cases hs
  | setRemoteOffer p pc sdp =>
    cases a with
    | done =>
      rcases (h.alone rfl).2.described with ⟨rfl, hstage⟩
      refine MeshInv.of_some (x := (_, _)) ?_ hs
      refine h.negotiate rfl (fun _ => rfl) ⟨rfl, rfl, rfl, rfl⟩ ?_ (by simp [VoiceTask.isJoin])
        (by simp [VoiceTask.caller]) (by simp [VoiceTask.makes]) fun _ => hstage
      exact MeshInv.quiet_set h.toOrderly rfl
    | failed => exact hr.elim
    | members l => cases hs
  | setLocal p pc =>
    cases a with
    | done =>
      rcases (h.alone rfl).2.answered with ⟨rfl, sdp, hsdp, hstage⟩
      simp only [resumeVoice, hsdp] at hs
      refine MeshInv.of_some (x := (_, [.sendAnswer o.other sdp])) ?_ hs
      refine h.negotiate rfl (fun _ => rfl) ⟨rfl, rfl, rfl, rfl⟩ ?_ (by simp [VoiceTask.isJoin])
        (by simp [VoiceTask.caller]) (by simp [VoiceTask.makes]) fun _ => hstage
      exact MeshInv.quiet_set h.toOrderly rfl
    | failed => exact hr.elim
    | members l => cases hs
  | sendAnswer p sdp =>
    cases a with
    | done =>
      refine MeshInv.of_some (x := (s, [.message p.other (.answer sdp)])) ?_ hs
      exact h.pass rfl (fun _ => rfl) (by simp [VoiceTask.isJoin]) (by simp [VoiceTask.caller])
        (by simp [VoiceTask.makes]) Stage.replied
    | failed => exact hr.elim
    | members l => cases hs
  | setRemoteAnswer p pc sdp =>
    cases a with
    | done =>
      rcases (h.alone rfl).2.ended with ⟨k, hk, hstage⟩
      simp only [resumeVoice, hk] at hs
      refine MeshInv.of_some (x := (_, [])) ?_ hs
      refine h.negotiate rfl (fun _ => rfl) ⟨rfl, rfl, rfl, rfl⟩ ?_ (by simp) (by simp) (by simp)
        fun _ => hstage
      exact MeshInv.quiet_set h.toOrderly rfl
    | failed => exact hr.elim
    | members l => cases hs
  | message p m =>
    cases a with
    | done =>
      -- what arrives starts the handler of its kind
      refine (h.receive ?_).of_some hs
      rintro sdp rfl
      exact hr
    | failed => cases hs
    | members l => cases hs

theorem keeps (hlt : ip o < ip o.other) :
    (voiceScript ip).Keeps (Reaches ip) (MeshInv o) where
  perm _ _ _ hw h := h.perm hw
  start := keeps_start
  resume := keeps_resume hlt

theorem meshInv_init (o : Side) : MeshInv o voiceInit.shared voiceInit.waiting where
  joining := by constructor <;> simp [voiceInit]
  opened := by
    intro p
    simp [voiceInit]
  quiet := rfl
  taking := by simp [voiceInit]
  stage := .before rfl (fun _ => rfl) rfl
  coming := .unannounced rfl

end Runs

/-- One side offers, that with the smaller address. When both have joined and
nothing waits, each has one open connection, which is that of its map, and these
two have each other's descriptions. -/
def Connected (ip : Side → Str) (p : Page Voices VoiceTask) : Prop :=
  ∃ o : Side, ip o < ip o.other ∧ (p.shared o.other).offers = 0 ∧
    (p.waiting = [] → (∀ q, (p.shared q).spaceId = true) → ∃ x y,
      (p.shared o).opened = [x] ∧ (p.shared o.other).opened = [y] ∧
      Finished p.shared o x y ∧ Answered p.shared o.other x y)

theorem connected_of_inv {ip : Side → Str} {o : Side} (hlt : ip o < ip o.other)
    (p : Page Voices VoiceTask) (h : MeshInv o p.shared p.waiting) : Connected ip p := by
  refine ⟨o, hlt, h.quiet, ?_⟩
  intro hw hjoined
  have hst := h.stage
  have hopened : ∀ q, (p.shared q).opened.Perm (p.shared q).peer.toList := by
    intro q
    simpa [hw] using h.opened q
  rw [hw] at hst
  cases hst with
  | before hpeer =>
    -- nothing is under way, so the connection would still have to come
    cases h.coming with
    | there hthere => exact absurd hpeer hthere
    | made pc c hmem => simp [hw] at hmem
    | unannounced hann => simpa [hw, hann] using h.joining.announced o.other (hjoined _)
    | inFlight hmem => simp [hw] at hmem
    | missed _ hlisted => simpa [hw, hlisted] using h.joining.listed o (hjoined _)
  | finished x y hx hy =>
    refine ⟨x, y, ?_, ?_, hx, hy⟩
    · simpa [hx.peer] using hopened o
    · simpa [hy.peer] using hopened o.other

theorem exists_offerer {ip : Side → Str} (hne : ip .left ≠ ip .right) :
    ∃ o : Side, ip o < ip o.other := by
  by_cases hlt : ip .left < ip .right
  · exact ⟨.left, hlt⟩
  · refine ⟨.right, ?_⟩
    by_contra hge
    exact hne (List.le_antisymm hge hlt)

/-- Two participants, in every run whose steps meet the condition. -/
theorem participants_connected (ip : Side → Str) (hne : ip .left ≠ ip .right)
    (as : List (PageAct VoiceTask VoiceEvent VoiceAnswer))
    (h : Along (voiceScript ip).step (Script.Within (Reaches ip)) voiceInit as) :
    Always (voiceScript ip).step (Connected ip) voiceInit as := by
  rcases exists_offerer hne with ⟨o, hlt⟩
  exact (keeps hlt).always (connected_of_inv hlt) (meshInv_init o) h

def addresses : Side → Str
  | .left => ['1']
  | .right => ['2']

/-- The left side joins alone, then the right side, which finds it among the
members. -/
def secondJoins : List (PageAct VoiceTask VoiceEvent VoiceAnswer) :=
  [.start (.join .left), .resume (.join .left .capturing) .done,
    .resume (.join .left .preloading) .failed, .resume (.join .left .announcing) .done,
    .resume (.message .right .join) .done, .resume (.join .left .listing) (.members []),
    .start (.join .right), .resume (.join .right .capturing) .done,
    .resume (.join .right .preloading) .done, .resume (.join .right .announcing) .done,
    .resume (.join .right .listing) (.members [⟨some ['1'], some true⟩]),
    .resume (.message .left .join) .done,
    .resume (.created .right 0 (.call (.members []))) .done,
    .resume (.created .left 0 (.call .onPeerJoin)) .done,
    .resume (.createOffer .left 0 .onPeerJoin) .done,
    .resume (.setLocalOffer .left 0 .onPeerJoin) .done,
    .resume (.sendOffer .left ⟨0, none⟩ .onPeerJoin) .done,
    .resume (.message .right (.offer ⟨0, none⟩)) .done,
    .resume (.sent .left .onPeerJoin) .done,
    .resume (.setRemoteOffer .right 0 ⟨0, none⟩) .done, .resume (.setLocal .right 0) .done,
    .resume (.sendAnswer .right ⟨0, some 0⟩) .done,
    .resume (.message .left (.answer ⟨0, some 0⟩)) .done,
    .resume (.setRemoteAnswer .left 0 ⟨0, some 0⟩) .done]

theorem participants_connected_example :
    Along (voiceScript addresses).step (Script.Within (Reaches addresses)) voiceInit secondJoins ∧
    Always (voiceScript addresses).step (Connected addresses) voiceInit secondJoins :=
  ⟨by decide,
    participants_connected addresses (by decide) secondJoins (by decide)⟩

/-- The left side joins alone and finds the right side among the members: its
offer comes before the right side has joined. -/
def offerTooEarly : List (PageAct VoiceTask VoiceEvent VoiceAnswer) :=
  [.start (.join .left), .resume (.join .left .capturing) .done,
    .resume (.join .left .preloading) .done, .resume (.join .left .announcing) .done,
    .resume (.message .right .join) .done,
    .resume (.join .left .listing) (.members [⟨some ['2'], some true⟩]),
    .resume (.created .left 0 (.call (.members []))) .done,
    .resume (.createOffer .left 0 (.members [])) .done,
    .resume (.setLocalOffer .left 0 (.members [])) .done,
    .resume (.sendOffer .left ⟨0, none⟩ (.members [])) .done,
    .resume (.message .right (.offer ⟨0, none⟩)) .done, .resume (.sent .left (.members [])) .done,
    .start (.join .right), .resume (.join .right .capturing) .done,
    .resume (.join .right .preloading) .done, .resume (.join .right .announcing) .done,
    .resume (.message .left .join) .done,
    .resume (.join .right .listing) (.members [⟨some ['1'], some true⟩]),
    .resume (.created .right 0 (.call (.members []))) .done]

theorem never_negotiated : ¬ ∀ (ip : Side → Str), ip .left ≠ ip .right →
    ∀ as : List (PageAct VoiceTask VoiceEvent VoiceAnswer),
      Always (voiceScript ip).step (Connected ip) voiceInit as := by
  intro h
  have hlost : ¬ Always (voiceScript addresses).step (Connected addresses) voiceInit
      offerTooEarly := by
    apply not_always_of_run (Q := fun p : Page Voices VoiceTask =>
      p.waiting = [] → ((p.shared .left).spaceId = true ∧ (p.shared .right).spaceId = true) →
        ((p.shared .left).peer.bind fun x => ((p.shared .left).conn x).remoteDescription) ≠ none)
    · rintro p ⟨o, hlt, -, hconn⟩ hw ⟨hl, hr⟩
      have hjoined : ∀ q, (p.shared q).spaceId = true := by
        intro q
        cases q with
        | left => exact hl
        | right => exact hr
      rcases hconn hw hjoined with ⟨x, y, -, -, hfin, -⟩
      cases o with
      | left => simp [hfin.peer, hfin.answer]
      | right => exact absurd hlt (by decide)
    · decide
  exact hlost (h addresses (by decide) offerTooEarly)

end HomeTier.Mesh
