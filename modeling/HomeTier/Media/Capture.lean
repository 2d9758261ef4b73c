import HomeTier.Media.Screen
import HomeTier.Media.VoiceCapture

/-! # The screen is released

As for the microphone: what goes wrong is a track given to a `startShare` that
something has overtaken, and a `startShare` that fails after it has the track.
-/

namespace HomeTier.Screen

open Lib

/-- Nothing of a call is there. -/
structure Clean (s : ScreenState) : Prop where
  tracks : s.tracks.live = []
  handlers : s.handlers.live = []
  peers : s.peers = []

instance (s : ScreenState) : Decidable (Clean s) :=
  decidable_of_iff (s.tracks.live = [] ∧ s.handlers.live = [] ∧ s.peers = [])
    ⟨fun h => ⟨h.1, h.2.1, h.2.2⟩, fun h => ⟨h.1, h.2, h.3⟩⟩

/-- A track is given when none is live, and after a `stopShare` only while that
still waits. A `startShare` is rejected when nothing of a call is there. -/
def CapturesAlone (s : ScreenState) (ws : List ScreenTask) :
    PageAct ScreenTask ScreenEvent ScreenAnswer → Prop
  | .resume (.startShare _ _ .capturing) (.captured track) =>
    (track = true → s.tracks.live = [] ∧ (s.lastCall = .stopShare → .stopShare ∈ ws)) ∧
      (track = false → Clean s)
  | .resume (.startShare _ _ .ready) (.supported yes) => yes = false → Clean s
  | .resume (.startShare _ _ a) .failed => a ≠ .stopping → Clean s
  | _ => True

instance (s : ScreenState) (ws : List ScreenTask)
    (a : PageAct ScreenTask ScreenEvent ScreenAnswer) : Decidable (CapturesAlone s ws a) := by
  unfold CapturesAlone
  split
  all_goals infer_instance

structure ScreenInv (s : ScreenState) (ws : List ScreenTask) : Prop where
  only : s.tracks.OnlyCurrent
  sharing : s.sharing = false → s.tracks.live = []
  left : s.lastCall = .stopShare → s.tracks.live = [] ∨ .stopShare ∈ ws
  idle : ∀ l ∈ s.rejected, l.Idle

namespace ScreenInv

variable {s s' : ScreenState} {ws ws' ts : List ScreenTask}

theorem perm (hw : ws.Perm ws') (h : ScreenInv s ws) : ScreenInv s ws' :=
  ⟨h.only, h.sharing, fun hl => (h.left hl).imp_right hw.mem_iff.mp, h.idle⟩

/-- A step that touches no track and is no call. -/
theorem frame (h : ScreenInv s ws) (ht : s'.tracks = s.tracks) (hs : s'.sharing = s.sharing)
    (hl : s'.lastCall = s.lastCall) (hr : s'.rejected = s.rejected)
    (hw : .stopShare ∈ ws → .stopShare ∈ ws') : ScreenInv s' ws' where
  only := ht ▸ h.only
  sharing := by
    rw [ht, hs]
    exact h.sharing
  left := by
    rw [ht, hl]
    exact fun hstop => (h.left hstop).imp_right hw
  idle := hr ▸ h.idle

/-- A step after which no track is live. -/
theorem of_none (h : ScreenInv s ws) (ht : s'.tracks.live = []) (hr : s'.rejected = s.rejected) :
    ScreenInv s' ws' where
  only n hn := by
    rw [ht] at hn
    exact absurd hn List.not_mem_nil
  sharing _ := ht
  left _ := .inl ht
  idle := hr ▸ h.idle

theorem reject (h : ScreenInv s ws) (hc : Clean s) : ScreenInv s.reject ws' where
  only _ hn := absurd (hc.tracks ▸ hn) List.not_mem_nil
  sharing _ := hc.tracks
  left _ := .inl hc.tracks
  idle l hl := by
    rcases List.mem_cons.mp hl with rfl | hl
    · exact ⟨hc.tracks, hc.handlers, hc.peers⟩
    · exact h.idle l hl

theorem stopEnd (h : ScreenInv s ws) : ScreenInv s.stopEnd ws' :=
  h.of_none (Held.release_live h.only) rfl

theorem forget (h : ScreenInv s ws) (hw : .stopShare ∈ ws → .stopShare ∈ ws') :
    ScreenInv s.forget ws' := by
  unfold ScreenState.forget
  split
  · exact h.frame rfl rfl rfl rfl hw
  · exact h.frame rfl rfl rfl rfl hw

/-- `stopShare` waits for its signal, or no track is live. -/
theorem stopStart (only : s.tracks.OnlyCurrent) (sharing : s.sharing = false → s.tracks.live = [])
    (idle : ∀ l ∈ s.rejected, l.Idle)
    (hw : s.stopStart.2 = true → s.lastCall = .stopShare → .stopShare ∈ ws') :
    ScreenInv s.stopStart.1 ws' := by
  unfold ScreenState.stopStart at hw ⊢
  split_ifs at hw ⊢ with hshare hspace
  · have hnone : s.tracks.live = [] := sharing (by simpa using hshare)
    have h : ScreenInv s ws' := ⟨only, sharing, fun _ => .inl hnone, idle⟩
    exact h.forget id
  · exact ⟨only, sharing, fun hl => .inr (hw rfl hl), idle⟩
  · have hnone : s.stopEnd.tracks.live = [] := Held.release_live only
    exact ⟨Held.onlyCurrent_release only, fun _ => hnone, fun _ => .inl hnone, idle⟩

/-- The first track is the only one. -/
theorem share (h : ScreenInv s ws) (ht : s.tracks.live = [])
    (hl : s.lastCall = .stopShare → .stopShare ∈ ws') (space : Str) (allowedIps : List Str) :
    ScreenInv (s.share space allowedIps) ws' where
  only := Held.onlyCurrent_acquire ht
  sharing hf := absurd hf.symm Bool.false_ne_true
  left hstop := .inr (hl hstop)
  idle := h.idle

/-! ## Calls and events -/

theorem start {e : ScreenEvent} (h : ScreenInv s ws) (hs : startScreen s e = some (s', ts)) :
    ScreenInv s' (ws ++ ts) := by
  have hmem : .stopShare ∈ ws → .stopShare ∈ ws ++ ts := List.mem_append_left _
  cases e with
  | startShare space allowedIps =>
    simp only [startScreen] at hs
    split_ifs at hs <;> cases hs
    · exact ⟨h.only, h.sharing, fun hl => LastCall.noConfusion hl, h.idle⟩
    · exact stopStart h.only h.sharing h.idle fun _ hl => LastCall.noConfusion hl
    · exact stopStart h.only h.sharing h.idle fun _ hl => LastCall.noConfusion hl
  | stopShare =>
    cases hs
    refine stopStart h.only h.sharing h.idle fun hwait _ => ?_
    rw [hwait]
    simp
  | ended n =>
    cases hs
    refine stopStart (Held.onlyCurrent_lose h.only n)
      (fun hf => Held.lose_live_nil (h.sharing hf) n) h.idle fun hwait _ => ?_
    rw [hwait]
    simp
  | requestView handler space ip =>
    simp only [startScreen] at hs
    split_ifs at hs <;> cases hs
    · unfold ScreenState.onViewerRequest
      split_ifs
      · exact h.frame rfl rfl rfl rfl hmem
      · exact h.frame rfl rfl rfl rfl hmem
      · exact h.frame rfl rfl rfl rfl hmem
    · exact h.frame rfl rfl rfl rfl hmem
  | viewerLost ip =>
    cases hs
    exact h.frame rfl rfl rfl rfl hmem

theorem startShare {space : Str} {allowedIps : List Str} {a : ShareAt} {b : ScreenAnswer}
    {r : ScreenState × List ScreenTask} (h : ScreenInv s (.startShare space allowedIps a :: ws))
    (hP : CapturesAlone s ws (.resume (.startShare space allowedIps a) b))
    (hs : shareStep s space allowedIps a b = some r) : ScreenInv r.1 (ws ++ r.2) := by
  have hrest : ∀ ts : List ScreenTask,
      .stopShare ∈ .startShare space allowedIps a :: ws → .stopShare ∈ ws ++ ts := by
    intro ts hmem
    rcases List.mem_cons.mp hmem with heq | hmem
    · exact ScreenTask.noConfusion heq
    · exact List.mem_append_left _ hmem
  unfold shareStep at hs
  split at hs
  all_goals cases hs
  · exact h.stopEnd
  · exact h.stopEnd
  · exact h.forget (hrest _)
  · exact h.frame rfl rfl rfl rfl (hrest _)
  · exact h.reject (hP rfl)
  · exact h.share (hP.1 rfl).1 (fun hl => List.mem_append_left _ ((hP.1 rfl).2 hl)) space allowedIps
  · exact h.reject (hP.2 rfl)
  · exact h.reject (hP (by decide))
  · exact h.frame rfl rfl rfl rfl (hrest _)
  · exact h.frame rfl rfl rfl rfl (hrest _)
  · exact h.reject (hP (by decide))

theorem resume {t : ScreenTask} {b : ScreenAnswer} (h : ScreenInv s (t :: ws))
    (hP : CapturesAlone s ws (.resume t b)) (hs : resumeScreen s t b = some (s', ts)) :
    ScreenInv s' (ws ++ ts) := by
  cases t with
  | startShare space allowedIps a => exact h.startShare hP hs
  | stopShare =>
    cases b <;> cases hs
    · exact h.stopEnd
    · exact h.stopEnd

end ScreenInv

theorem screenInv_keeps : screenScript.Keeps CapturesAlone ScreenInv where
  perm _ _ _ hw h := h.perm hw
  start _ _ _ _ _ h _ hs := h.start hs
  resume _ _ _ _ _ _ h hP hs := h.resume hP hs

theorem screenInv_init : ScreenInv screenInit.shared screenInit.waiting where
  only := Held.onlyCurrent_none
  sharing _ := rfl
  left _ := .inl rfl
  idle _ hl := absurd hl List.not_mem_nil

/-- When no call waits, what is live is the current track, and nothing after a
`stopShare`; what was rejected left nothing. -/
structure Released (p : Page ScreenState ScreenTask) : Prop where
  current : p.waiting = [] → p.shared.tracks.OnlyCurrent
  left : p.waiting = [] → p.shared.lastCall = .stopShare → p.shared.tracks.live = []
  idle : ∀ l ∈ p.shared.rejected, l.Idle

theorem ScreenInv.released {p : Page ScreenState ScreenTask}
    (h : ScreenInv p.shared p.waiting) : Released p where
  current _ := h.only
  left hw hl := by
    rcases h.left hl with hnone | hwait
    · exact hnone
    · rw [hw] at hwait
      exact absurd hwait List.not_mem_nil
  idle := h.idle

theorem screen_released (acts : List (PageAct ScreenTask ScreenEvent ScreenAnswer))
    (h : Along screenScript.step (Script.Within CapturesAlone) screenInit acts) :
    Always screenScript.step Released screenInit acts :=
  screenInv_keeps.always (fun _ hinv => hinv.released) screenInv_init h

/-- A sharing with one viewer. -/
def oneSharing : List (PageAct ScreenTask ScreenEvent ScreenAnswer) :=
  [.start (.startShare "home".toList []),
    .resume (.startShare "home".toList [] .stopped) .done,
    .resume (.startShare "home".toList [] .ready) (.supported true),
    .resume (.startShare "home".toList [] .capturing) (.captured true),
    .resume (.startShare "home".toList [] .preloading) .done,
    .resume (.startShare "home".toList [] .announcing) .done,
    .start (.requestView 0 "home".toList "10.144.0.3".toList),
    .start .stopShare,
    .resume .stopShare .done]

end HomeTier.Screen

namespace HomeTier.Media

open Lib

/-- Microphone and screen. -/
theorem captures_released
    (calls : List (PageAct Voice.VoiceTask Voice.VoiceEvent Voice.VoiceAnswer))
    (shares : List (PageAct Screen.ScreenTask Screen.ScreenEvent Screen.ScreenAnswer))
    (hcalls : Along Voice.voiceScript.step (Script.Within Voice.CapturesAlone) Voice.voiceInit calls)
    (hshares : Along Screen.screenScript.step (Script.Within Screen.CapturesAlone)
      Screen.screenInit shares) :
    Always Voice.voiceScript.step Voice.Released Voice.voiceInit calls ∧
      Always Screen.screenScript.step Screen.Released Screen.screenInit shares :=
  ⟨Voice.voice_released calls hcalls, Screen.screen_released shares hshares⟩

theorem captures_released_example :
    Always Voice.voiceScript.step Voice.Released Voice.voiceInit Voice.oneCall ∧
      Always Screen.screenScript.step Screen.Released Screen.screenInit Screen.oneSharing :=
  captures_released Voice.oneCall Screen.oneSharing (by decide) (by decide)

end HomeTier.Media
