import HomeTier.Media.Voice

/-! # The microphone is released

A track that `getUserMedia` gives late, to a `join` that something has overtaken,
takes the place of another or stays after a `leave`; a `join` that fails after
its handler is registered leaves the handler. Nothing else goes wrong.
-/

namespace HomeTier.Voice

open Lib

/-- Nothing of a call is there besides tracks. -/
structure Clean (s : VoiceState) : Prop where
  handlers : s.handlers.live = []
  timers : s.vadTimer.live ++ s.volumeTimer.live = []
  peers : s.peers = []

instance (s : VoiceState) : Decidable (Clean s) :=
  decidable_of_iff (s.handlers.live = [] ∧ s.vadTimer.live ++ s.volumeTimer.live = [] ∧
    s.peers = []) ⟨fun h => ⟨h.1, h.2.1, h.2.2⟩, fun h => ⟨h.1, h.2, h.3⟩⟩

/-- Where the `catch` of `join` begins. -/
def JoinAt.guarded : JoinAt → Bool
  | .capturing | .announcing | .members => true
  | _ => false

/-- A track is given when none is live, and after a `leave` only while the leave
still waits. A `join` is rejected when nothing of a call is there. -/
def CapturesAlone (s : VoiceState) (ws : List VoiceTask) :
    PageAct VoiceTask VoiceEvent VoiceAnswer → Prop
  | .resume (.join _ .capturing) (.captured context) => s.tracks.live = [] ∧
    (context = true → s.lastCall = .leave → .leave ∈ ws) ∧ (context = false → Clean s)
  | .resume (.join _ .left) (.supported yes) => yes = false → s.tracks.live = [] ∧ Clean s
  | .resume (.join _ a) .failed => a.guarded = true → Clean s
  | _ => True

instance (s : VoiceState) (ws : List VoiceTask) (a : PageAct VoiceTask VoiceEvent VoiceAnswer) :
    Decidable (CapturesAlone s ws a) := by
  unfold CapturesAlone
  split
  all_goals infer_instance

structure VoiceInv (s : VoiceState) (ws : List VoiceTask) : Prop where
  only : s.tracks.OnlyCurrent
  muted : s.micMuted = true → ∀ n ∈ s.tracks.live, s.enabled n = false
  left : s.lastCall = .leave → s.tracks.live = [] ∨ .leave ∈ ws
  idle : ∀ l ∈ s.rejected, l.Idle

namespace VoiceInv

variable {s s' : VoiceState} {ws ws' ts : List VoiceTask}

theorem perm (hw : ws.Perm ws') (h : VoiceInv s ws) : VoiceInv s ws' :=
  ⟨h.only, h.muted, fun hl => (h.left hl).imp_right hw.mem_iff.mp, h.idle⟩

/-- A step that touches no track and is no call. -/
theorem frame (h : VoiceInv s ws) (ht : s'.tracks = s.tracks) (he : s'.enabled = s.enabled)
    (hm : s'.micMuted = s.micMuted) (hl : s'.lastCall = s.lastCall)
    (hr : s'.rejected = s.rejected) (hw : .leave ∈ ws → .leave ∈ ws') : VoiceInv s' ws' where
  only := ht ▸ h.only
  muted := by
    rw [ht, he, hm]
    exact h.muted
  left := by
    rw [ht, hl]
    exact fun hleave => (h.left hleave).imp_right hw
  idle := hr ▸ h.idle

/-- A step after which no track is live. -/
theorem of_none (h : VoiceInv s ws) (ht : s'.tracks.live = []) (hr : s'.rejected = s.rejected) :
    VoiceInv s' ws' where
  only n hn := by
    rw [ht] at hn
    exact absurd hn List.not_mem_nil
  muted _ n hn := by
    rw [ht] at hn
    exact absurd hn List.not_mem_nil
  left _ := .inl ht
  idle := hr ▸ h.idle

theorem reject (h : VoiceInv s ws) (ht : s.tracks.live = []) (hc : Clean s) :
    VoiceInv s.reject ws' where
  only n hn := absurd (ht ▸ hn) List.not_mem_nil
  muted _ n hn := absurd (ht ▸ hn) List.not_mem_nil
  left _ := .inl ht
  idle l hl := by
    rcases List.mem_cons.mp hl with rfl | hl
    · exact ⟨ht, hc.handlers, hc.timers, hc.peers⟩
    · exact h.idle l hl

theorem leaveEnd (h : VoiceInv s ws) : VoiceInv s.leaveEnd ws' :=
  h.of_none (Held.release_live h.only) rfl

theorem joinFailed (h : VoiceInv s ws) (hc : Clean s) : VoiceInv s.joinFailed ws' := by
  have hnone : (s.tracks.release).live = [] := Held.release_live h.only
  have h' : VoiceInv { s with spaceId := none, tracks := s.tracks.release, localAnalyser := false }
      ws := h.of_none hnone rfl
  exact h'.reject hnone ⟨hc.handlers, hc.timers, hc.peers⟩

/-- The first track is the only one. -/
theorem capture (h : VoiceInv s ws) (ht : s.tracks.live = []) (hl : s.lastCall = .leave → .leave ∈ ws)
    (space : Str) (hw : .leave ∈ ws → .leave ∈ ws') : VoiceInv (s.capture.enter space) ws' where
  only := Held.onlyCurrent_acquire ht
  muted hm := absurd hm Bool.false_ne_true
  left hleave := .inr (hw (hl hleave))
  idle := h.idle

theorem setEnabled_muted (h : s.tracks.OnlyCurrent) :
    ∀ n ∈ s.tracks.live, (s.setEnabled false).enabled n = false := by
  intro n hn
  unfold VoiceState.setEnabled
  rw [h n hn]
  exact Function.update_self ..

theorem setEnabled_tracks (s : VoiceState) (b : Bool) : (s.setEnabled b).tracks = s.tracks := by
  unfold VoiceState.setEnabled
  split <;> rfl

theorem setEnabled_micMuted (s : VoiceState) (b : Bool) :
    (s.setEnabled b).micMuted = s.micMuted := by
  unfold VoiceState.setEnabled
  split <;> rfl

theorem setEnabled_lastCall (s : VoiceState) (b : Bool) :
    (s.setEnabled b).lastCall = s.lastCall := by
  unfold VoiceState.setEnabled
  split <;> rfl

theorem setEnabled_rejected (s : VoiceState) (b : Bool) :
    (s.setEnabled b).rejected = s.rejected := by
  unfold VoiceState.setEnabled
  split <;> rfl

/-- The microphone is switched: off when it is muted, on only when it is not. -/
theorem setEnabled (h : VoiceInv s ws) (b : Bool) (hm : s.micMuted = true → b = false)
    (hw : .leave ∈ ws → .leave ∈ ws') : VoiceInv (s.setEnabled b) ws' where
  only := by
    rw [setEnabled_tracks]
    exact h.only
  muted := by
    rw [setEnabled_micMuted, setEnabled_tracks]
    intro hmuted
    rw [hm hmuted]
    exact setEnabled_muted h.only
  left := by
    rw [setEnabled_lastCall, setEnabled_tracks]
    exact fun hl => (h.left hl).imp_right hw
  idle := by
    rw [setEnabled_rejected]
    exact h.idle

theorem toggleMic (h : VoiceInv s ws) (hw : .leave ∈ ws → .leave ∈ ws') :
    VoiceInv s.toggleMic ws' := by
  have hmuted : (!s.micMuted) = true → ∀ n ∈ s.tracks.live,
      (({ s with micMuted := !s.micMuted } : VoiceState).setEnabled s.micMuted).enabled n = false := by
    intro hnext
    rw [show s.micMuted = false by simpa using hnext]
    exact setEnabled_muted (s := { s with micMuted := !false }) h.only
  unfold VoiceState.toggleMic
  constructor
  · rw [setEnabled_tracks]
    exact h.only
  · rw [setEnabled_micMuted, setEnabled_tracks]
    exact hmuted
  · rw [setEnabled_lastCall, setEnabled_tracks]
    exact fun hl => (h.left hl).imp_right hw
  · rw [setEnabled_rejected]
    exact h.idle

theorem tickVad (h : VoiceInv s ws) (speaking : Bool) (hw : .leave ∈ ws → .leave ∈ ws') :
    VoiceInv (s.tickVad speaking) ws' := by
  have hsilent : ∀ k, VoiceInv { s with silentSince := k } ws :=
    fun k => h.frame rfl rfl rfl rfl rfl id
  unfold VoiceState.tickVad
  dsimp only
  split_ifs with h₁ h₂ h₃ h₄
  · exact h.frame rfl rfl rfl rfl rfl hw
  · -- switched on again only while it is not muted
    refine (hsilent 0).setEnabled true ?_ hw
    intro hmuted
    simp only [Bool.not_eq_true'] at h₃
    exact absurd (h₃.2.symm.trans hmuted) Bool.false_ne_true
  · exact (hsilent 0).frame rfl rfl rfl rfl rfl hw
  · exact (hsilent _).setEnabled false (fun _ => rfl) hw
  · exact (hsilent _).frame rfl rfl rfl rfl rfl hw

theorem addPeer (h : VoiceInv s ws) (ip : Str) (hw : .leave ∈ ws → .leave ∈ ws') :
    VoiceInv (s.addPeer ip) ws' := by
  unfold VoiceState.addPeer
  split
  · exact h.frame rfl rfl rfl rfl rfl hw
  · exact h.frame rfl rfl rfl rfl rfl hw

theorem trackEnded (h : VoiceInv s ws) (n : Nat) (hw : .leave ∈ ws → .leave ∈ ws') :
    VoiceInv { s with tracks := s.tracks.lose n } ws' where
  only := Held.onlyCurrent_lose h.only n
  muted hm m hmem := h.muted hm m (Held.lose_live_subset _ n m hmem)
  left hl := by
    rcases h.left hl with hnone | hwait
    · exact .inl (Held.lose_live_nil hnone n)
    · exact .inr (hw hwait)
  idle := h.idle

/-! ## Calls and events -/

theorem start {e : VoiceEvent} (h : VoiceInv s ws) (hs : startVoice s e = some (s', ts)) :
    VoiceInv s' (ws ++ ts) := by
  have hmem : .leave ∈ ws → .leave ∈ ws ++ ts := List.mem_append_left _
  -- a join is the last call: it owes nothing to a leave
  have hjoin : VoiceInv { s with lastCall := .join } ws :=
    ⟨h.only, h.muted, fun hl => LastCall.noConfusion hl, h.idle⟩
  cases e with
  | join space =>
    simp only [startVoice] at hs
    split_ifs at hs <;> cases hs
    · exact hjoin.frame rfl rfl rfl rfl rfl hmem
    · exact hjoin.frame rfl rfl rfl rfl rfl hmem
    · have hleave : VoiceInv { s with lastCall := .join }.leaveStart ws :=
        hjoin.frame rfl rfl rfl rfl rfl id
      exact hleave.leaveEnd
  | leave =>
    simp only [startVoice] at hs
    split_ifs at hs <;> cases hs
    · exact ⟨h.only, h.muted, fun _ => .inr (by simp), h.idle⟩
    · exact h.of_none (Held.release_live h.only) rfl
  | toggleMic =>
    cases hs
    exact h.toggleMic hmem
  | tickVad timer speaking =>
    simp only [startVoice] at hs
    split_ifs at hs
    cases hs
    exact h.tickVad speaking hmem
  | peerJoined handler space ip =>
    simp only [startVoice] at hs
    split_ifs at hs <;> cases hs
    · exact h.addPeer ip hmem
    · exact h.frame rfl rfl rfl rfl rfl hmem
  | peerLeft ip =>
    cases hs
    exact h.frame rfl rfl rfl rfl rfl hmem
  | trackEnded n =>
    cases hs
    exact h.trackEnded n hmem

theorem join {space : Str} {a : JoinAt} {b : VoiceAnswer} {r : VoiceState × List VoiceTask}
    (h : VoiceInv s (.join space a :: ws))
    (hP : CapturesAlone s ws (.resume (.join space a) b))
    (hs : joinStep s space a b = some r) : VoiceInv r.1 (ws ++ r.2) := by
  have hrest : ∀ ts : List VoiceTask, .leave ∈ .join space a :: ws → .leave ∈ ws ++ ts := by
    intro ts hmem
    rcases List.mem_cons.mp hmem with heq | hmem
    · exact nomatch heq
    · exact List.mem_append_left _ hmem
  unfold joinStep at hs
  split at hs
  all_goals cases hs
  · exact h.leaveEnd
  · exact h.leaveEnd
  · exact h.frame rfl rfl rfl rfl rfl (hrest _)
  · exact h.reject (hP rfl).1 (hP rfl).2
  · exact h.capture hP.1 (fun hl => .tail _ (hP.2.1 rfl hl)) space (hrest _)
  · -- the track is stopped at once
    have hnone : s.tracks.acquire.release.live = [] :=
      Held.release_live (Held.onlyCurrent_acquire hP.1)
    have hclean : Clean s := hP.2.2 rfl
    have h' : VoiceInv { s.capture with
        spaceId := none, tracks := s.tracks.acquire.release, localAnalyser := false } ws :=
      h.of_none hnone rfl
    exact h'.reject hnone ⟨hclean.handlers, hclean.timers, hclean.peers⟩
  · exact h.joinFailed (hP rfl)
  · exact h.frame rfl rfl rfl rfl rfl (hrest _)
  · exact h.frame rfl rfl rfl rfl rfl (hrest _)
  · exact h.joinFailed (hP rfl)
  · exact h.addPeer _ (hrest _)
  · exact h.frame rfl rfl rfl rfl rfl (hrest _)
  · exact h.joinFailed (hP rfl)

theorem resume {t : VoiceTask} {b : VoiceAnswer} (h : VoiceInv s (t :: ws))
    (hP : CapturesAlone s ws (.resume t b)) (hs : resumeVoice s t b = some (s', ts)) :
    VoiceInv s' (ws ++ ts) := by
  cases t with
  | join space a => exact h.join hP hs
  | leave =>
    cases b <;> cases hs
    · exact h.leaveEnd
    · exact h.leaveEnd
  | toggleMic =>
    have hrest : .leave ∈ .toggleMic :: ws → .leave ∈ ws ++ [] := by
      intro hmem
      rcases List.mem_cons.mp hmem with heq | hmem
      · exact VoiceTask.noConfusion heq
      · exact List.mem_append_left _ hmem
    cases b <;> cases hs
    · exact h.frame rfl rfl rfl rfl rfl hrest
    · exact h.frame rfl rfl rfl rfl rfl hrest

end VoiceInv

theorem voiceInv_keeps : voiceScript.Keeps CapturesAlone VoiceInv where
  perm _ _ _ hw h := h.perm hw
  start _ _ _ _ _ h _ hs := h.start hs
  resume _ _ _ _ _ _ h hP hs := h.resume hP hs

theorem voiceInv_init : VoiceInv voiceInit.shared voiceInit.waiting where
  only := Held.onlyCurrent_none
  muted _ _ hn := absurd hn List.not_mem_nil
  left _ := .inl rfl
  idle _ hl := absurd hl List.not_mem_nil

/-- When no call waits, what is live is the current track, and nothing after a
`leave`; what was rejected left nothing; a muted microphone is off. -/
structure Released (p : Page VoiceState VoiceTask) : Prop where
  current : p.waiting = [] → p.shared.tracks.OnlyCurrent
  left : p.waiting = [] → p.shared.lastCall = .leave → p.shared.tracks.live = []
  idle : ∀ l ∈ p.shared.rejected, l.Idle
  muted : p.shared.micMuted = true → ∀ n ∈ p.shared.tracks.live, p.shared.enabled n = false

theorem VoiceInv.released {p : Page VoiceState VoiceTask} (h : VoiceInv p.shared p.waiting) :
    Released p where
  current _ := h.only
  left hw hl := by
    rcases h.left hl with hnone | hwait
    · exact hnone
    · rw [hw] at hwait
      exact absurd hwait List.not_mem_nil
  idle := h.idle
  muted := h.muted

theorem voice_released (acts : List (PageAct VoiceTask VoiceEvent VoiceAnswer))
    (h : Along voiceScript.step (Script.Within CapturesAlone) voiceInit acts) :
    Always voiceScript.step Released voiceInit acts :=
  voiceInv_keeps.always (fun _ hinv => hinv.released) voiceInv_init h

/-- The microphone is refused at first. In the next call it is muted and back, and the call is
left. -/
def oneCall : List (PageAct VoiceTask VoiceEvent VoiceAnswer) :=
  [.start (.join "home".toList),
    .resume (.join "home".toList .left) (.supported true),
    .resume (.join "home".toList .capturing) .failed,
    .start (.join "home".toList),
    .resume (.join "home".toList .left) (.supported true),
    .resume (.join "home".toList .capturing) (.captured true),
    .resume (.join "home".toList .preloading) .done,
    .resume (.join "home".toList .announcing) .done,
    .resume (.join "home".toList .members) (.member "10.144.0.3".toList),
    .resume (.join "home".toList .members) .done,
    .start .toggleMic,
    .resume .toggleMic .done,
    .start .toggleMic,
    .resume .toggleMic .done,
    .start (.tickVad 0 true),
    .start .leave,
    .resume .leave .done]

/-- The user leaves while the browser still asks for the microphone. -/
def leftWhileAsked : List (PageAct VoiceTask VoiceEvent VoiceAnswer) :=
  [.start (.join "home".toList),
    .resume (.join "home".toList .left) (.supported true),
    .start .leave,
    .resume (.join "home".toList .capturing) (.captured true),
    .resume (.join "home".toList .preloading) .done,
    .resume (.join "home".toList .announcing) .done,
    .resume (.join "home".toList .members) .done]

/-- The microphone stays open. -/
theorem microphone_open : ¬ Always voiceScript.step Released voiceInit leftWhileAsked :=
  not_always_of_run
    (Q := fun p => p.waiting = [] → p.shared.lastCall = .leave → p.shared.tracks.live = [])
    (fun _ h => h.left) (by decide)

end HomeTier.Voice
