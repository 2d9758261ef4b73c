import HomeTier.Vpn.Connect

/-! # Disconnecting from the VPN

`disconnectWithVpn` removes the listener that is set, and stops the instance and
the VPN. It tells nothing to a `connectWithVpn` or a rebuild that waits. What
waits at its end decides whether the old connection is heard of again.
-/

namespace HomeTier.Vpn

open Lib

/-! ## Calls after the end -/

/-- `disconnectWithVpn` has resolved true, and no call has begun since. -/
def isFinal : List VpnLog → Bool
  | [] => false
  | .disconnected :: _ => true
  | .begun _ :: _ => false
  | _ :: older => isFinal older

/-- None of the calls was made in between. -/
def DisconnectFinal : List VpnLog → Prop
  | [] => True
  | .connectSpace _ :: older => isFinal older = false ∧ DisconnectFinal older
  | .startVpn _ _ :: older => isFinal older = false ∧ DisconnectFinal older
  | _ :: older => DisconnectFinal older

instance decidableDisconnectFinal : ∀ log, Decidable (DisconnectFinal log)
  | [] => .isTrue trivial
  | .connectSpace _ :: older =>
    @instDecidableAnd _ _ _ (decidableDisconnectFinal older)
  | .startVpn _ _ :: older =>
    @instDecidableAnd _ _ _ (decidableDisconnectFinal older)
  | .begun _ :: older => decidableDisconnectFinal older
  | .meshRoutes _ _ :: older => decidableDisconnectFinal older
  | .disconnected :: older => decidableDisconnectFinal older

theorem DisconnectFinal.cons {log : List VpnLog} (h : DisconnectFinal log)
    (hf : isFinal log = false) (e : VpnLog) : DisconnectFinal (e :: log) := by
  cases e with
  | connectSpace | startVpn => exact ⟨hf, h⟩
  | begun | meshRoutes | disconnected => exact h

/-! ## What can no longer call -/

/-- Whatever `connectWithVpn` is answered there, it ends without a call, or waits
for such an answer again: an address that is not valid ends it before its listener. -/
def ConnectAt.Harmless (k : Connection) : ConnectAt → Prop
  | .connectSpaceDesktop | .stopVpn => True
  | .prepareVpn | .detectLanSubnets =>
    k.vpnStarted = false ∧ isValidIpv4 k.virtualIpClean = false
  | _ => False

instance (k : Connection) : ∀ a : ConnectAt, Decidable (a.Harmless k)
  | .connectSpaceDesktop | .stopVpn => .isTrue trivial
  | .prepareVpn | .detectLanSubnets => inferInstanceAs (Decidable (_ ∧ _))
  | .isMobile | .listen | .listening | .connectSpace _ | .retryDelay | .startVpn | .listSpaces
  | .pollDelay | .settleDelay | .getMeshRoutes => .isFalse id

/-- A rebuild goes round its loop for routes that have changed. -/
def RebuildAt.Harmless (k : Connection) : RebuildAt → Prop
  | .stopVpn _ => False
  | .startVpn d => k.vpnStarted = true ∧ (k.rebuildQueued = false ∨ d = k.desiredRoutes)

instance (k : Connection) : ∀ a : RebuildAt, Decidable (a.Harmless k)
  | .stopVpn _ => .isFalse id
  | .startVpn _ => inferInstanceAs (Decidable (_ ∧ _))

def VpnTask.Harmless (s : VpnState) : VpnTask → Prop
  | .connect c a => a.Harmless (s.conn c)
  | .rebuild c a => a.Harmless (s.conn c)
  | .disconnect _ => True

instance (s : VpnState) : ∀ t : VpnTask, Decidable (t.Harmless s)
  | .connect c a => inferInstanceAs (Decidable (a.Harmless (s.conn c)))
  | .rebuild c a => inferInstanceAs (Decidable (a.Harmless (s.conn c)))
  | .disconnect _ => .isTrue trivial

/-- A listener whose VPN has not been started only records. -/
structure Silent (s : VpnState) (ws : List VpnTask) : Prop where
  harmless : ∀ t ∈ ws, t.Harmless s
  recording : ∀ c ∈ s.listeners, (s.conn c).vpnStarted = false

instance (s : VpnState) (ws : List VpnTask) : Decidable (Silent s ws) :=
  decidable_of_iff ((∀ t ∈ ws, t.Harmless s) ∧ ∀ c ∈ s.listeners, (s.conn c).vpnStarted = false)
    ⟨fun h => ⟨h.1, h.2⟩, fun h => ⟨h.1, h.2⟩⟩

/-- `disconnectWithVpn` resolves true. -/
def VpnTask.resolves : VpnTask → VpnAnswer → Bool
  | .disconnect .disconnectSpaceDesktop, .done | .disconnect .stopVpn, .done => true
  | _, _ => false

/-- When it does, nothing of a connection is left that calls. -/
def EndsSilent (s : VpnState) (ws : List VpnTask) :
    PageAct VpnTask VpnEvent VpnAnswer → Prop
  | .start _ => True
  | .resume t a => t.resolves a = true → Silent s ws

instance (s : VpnState) (ws : List VpnTask) : ∀ a, Decidable (EndsSilent s ws a)
  | .start _ => .isTrue trivial
  | .resume t a => inferInstanceAs (Decidable (t.resolves a = true → Silent s ws))

/-! ## What is silent stays so -/

/-- What is harmless reads only the variables of its own call. -/
theorem VpnTask.Harmless.frame {s s' : VpnState} {t : VpnTask} (h : t.Harmless s)
    (hk : s'.conn = s.conn) : t.Harmless s' := by
  cases t with
  | connect c a =>
    show a.Harmless (s'.conn c)
    rw [hk]
    exact h
  | rebuild c a =>
    show a.Harmless (s'.conn c)
    rw [hk]
    exact h
  | disconnect a => trivial

theorem VpnTask.Harmless.setConn {s : VpnState} {t : VpnTask} (h : t.Harmless s) {c : Nat}
    {k : Connection} (hc : ∀ a : ConnectAt, a.Harmless (s.conn c) → a.Harmless k)
    (hr : ∀ a : RebuildAt, a.Harmless (s.conn c) → a.Harmless k) : t.Harmless (s.setConn c k) := by
  have hself : (s.setConn c k).conn c = k := Function.update_self ..
  have hne : ∀ d, d ≠ c → (s.setConn c k).conn d = s.conn d :=
    fun d hd => Function.update_of_ne hd ..
  cases t with
  | connect d a =>
    show a.Harmless ((s.setConn c k).conn d)
    by_cases hd : d = c
    · subst hd
      rw [hself]
      exact hc a h
    · rw [hne d hd]
      exact h
  | rebuild d a =>
    show a.Harmless ((s.setConn c k).conn d)
    by_cases hd : d = c
    · subst hd
      rw [hself]
      exact hr a h
    · rw [hne d hd]
      exact h
  | disconnect a => trivial

/-- A call that has not started its VPN has no rebuild: its other variables may
change, its address excepted. -/
theorem ConnectAt.Harmless.before {k k' : Connection} (hv : k'.vpnStarted = false)
    (hip : k'.virtualIpClean = k.virtualIpClean) (a : ConnectAt) (h : a.Harmless k) :
    a.Harmless k' := by
  cases a with
  | prepareVpn | detectLanSubnets =>
    refine ⟨hv, ?_⟩
    rw [hip]
    exact h.2
  | connectSpaceDesktop | stopVpn => trivial
  | _ => exact h

theorem RebuildAt.Harmless.before {k k' : Connection} (hs : k.vpnStarted = false)
    (a : RebuildAt) (h : a.Harmless k) : a.Harmless k' := by
  cases a with
  | stopVpn => exact h
  | startVpn => exact absurd (hs.symm.trans h.1) Bool.false_ne_true

/-- A rebuild ends: only flags have changed. -/
theorem ConnectAt.Harmless.after {k k' : Connection} (hs : k.vpnStarted = true) (a : ConnectAt)
    (h : a.Harmless k) : a.Harmless k' := by
  cases a with
  | prepareVpn | detectLanSubnets => exact absurd (h.1.symm.trans hs) Bool.false_ne_true
  | connectSpaceDesktop | stopVpn => trivial
  | _ => exact h

theorem RebuildAt.Harmless.after {k k' : Connection} (hv : k'.vpnStarted = k.vpnStarted)
    (hq : k'.rebuildQueued = k.rebuildQueued ∨ k'.rebuildQueued = false)
    (hd : k'.desiredRoutes = k.desiredRoutes) (a : RebuildAt) (h : a.Harmless k) :
    a.Harmless k' := by
  cases a with
  | stopVpn => exact h
  | startVpn d =>
    refine ⟨hv.trans h.1, ?_⟩
    rw [hd]
    rcases hq with hq | hq
    · rw [hq]
      exact h.2
    · exact .inl hq

/-- Without news, or with those it has just applied, a rebuild ends. -/
theorem Connection.rebuilt_ends (k : Connection) (d : Finset Str) (yes : Bool)
    (hq : k.rebuildQueued = false ∨ d = k.desiredRoutes) :
    (k.rebuilt d yes).2 = none ∧ (k.rebuilt d yes).1.vpnStarted = k.vpnStarted ∧
      ((k.rebuilt d yes).1.rebuildQueued = k.rebuildQueued ∨
        (k.rebuilt d yes).1.rebuildQueued = false) ∧
      (k.rebuilt d yes).1.desiredRoutes = k.desiredRoutes := by
  unfold Connection.rebuilt Connection.rebuildLoop
  dsimp only
  split_ifs with hyes hqueued happlied
  · exact ⟨rfl, rfl, .inl rfl, rfl⟩
  · exact ⟨rfl, rfl, .inl rfl, rfl⟩
  · exact ⟨rfl, rfl, .inr rfl, rfl⟩
  · -- the routes applied would have to differ from those desired
    rcases hq with hq | hd
    · exact absurd (by rw [hq]; rfl) hqueued
    · exact absurd (congrArg some hd) happlied

namespace Silent

variable {s s' : VpnState} {ws ts : List VpnTask} {t : VpnTask} {c : Nat} {b : VpnAnswer}
  {r : VpnState × List VpnTask}

theorem perm {ws' : List VpnTask} (hw : ws.Perm ws') (h : Silent s ws) : Silent s ws' where
  harmless t ht := h.harmless t (hw.mem_iff.mpr ht)
  recording := h.recording

/-- A step that leaves the variables of the calls and adds no listener. -/
theorem frame (h : Silent s (t :: ws)) (hk : s'.conn = s.conn)
    (hl : ∀ d ∈ s'.listeners, d ∈ s.listeners) (ht : ∀ u ∈ ts, u.Harmless s) :
    Silent s' (ws ++ ts) where
  harmless u hu := by
    rcases List.mem_append.mp hu with hw | hn
    · exact (h.harmless u (.tail _ hw)).frame hk
    · exact (ht u hn).frame hk
  recording d hd := by
    rw [hk]
    exact h.recording d (hl d hd)

theorem unlisten_listeners (s : VpnState) : ∀ d ∈ s.unlisten.listeners, d ∈ s.listeners := by
  intro d hd
  unfold VpnState.unlisten at hd
  split at hd
  · exact List.mem_of_mem_erase hd
  · exact hd

theorem unlisten_conn (s : VpnState) : s.unlisten.conn = s.conn := by
  unfold VpnState.unlisten
  split <;> rfl

theorem unlisten_log (s : VpnState) : s.unlisten.log = s.log := by
  unfold VpnState.unlisten
  split <;> rfl

/-- The variables of a call change. -/
theorem setConn {k : Connection} (h : Silent s (t :: ws))
    (hc : ∀ a : ConnectAt, a.Harmless (s.conn c) → a.Harmless k)
    (hr : ∀ a : RebuildAt, a.Harmless (s.conn c) → a.Harmless k)
    (hv : (s.conn c).vpnStarted = false → k.vpnStarted = false) :
    Silent (s.setConn c k) (ws ++ []) where
  harmless u hu := by
    rw [List.append_nil] at hu
    exact (h.harmless u (.tail _ hu)).setConn hc hr
  recording d hd := by
    by_cases hdc : d = c
    · subst hdc
      rw [show (s.setConn d k).conn d = k from Function.update_self ..]
      exact hv (h.recording d hd)
    · rw [show (s.setConn c k).conn d = s.conn d from Function.update_of_ne hdc ..]
      exact h.recording d hd

theorem connect {a : ConnectAt} (h : Silent s (.connect c a :: ws))
    (hr : s.connectStep c a b = some r) : Silent r.1 (ws ++ r.2) ∧ r.1.log = s.log := by
  have ht : a.Harmless (s.conn c) := h.harmless _ List.mem_cons_self
  have hstop : Silent s (ws ++ []) := h.frame rfl (fun _ hd => hd) (by simp)
  have hunlisten : Silent s.unlisten (ws ++ []) :=
    h.frame (unlisten_conn s) (unlisten_listeners s) (by simp)
  have hbefore : ∀ found, a.Harmless (s.conn c) → (a = .detectLanSubnets) →
      Silent (s.beforeListen c found).1 (ws ++ (s.beforeListen c found).2) ∧
        (s.beforeListen c found).1.log = s.log := by
    rintro found ht rfl
    unfold VpnState.beforeListen
    dsimp only
    have hip : ((s.setConn c { s.conn c with localSubnets := found }).conn c).virtualIpClean =
        (s.conn c).virtualIpClean := by
      rw [show (s.setConn c { s.conn c with localSubnets := found }).conn c = _ from
        Function.update_self ..]
    rw [hip, ht.2]
    exact ⟨h.setConn (ConnectAt.Harmless.before ht.1 rfl) (RebuildAt.Harmless.before ht.1) id, rfl⟩
  unfold VpnState.connectStep at hr
  split at hr
  all_goals cases hr
  all_goals
    first
    | exact ⟨hstop, rfl⟩
    | exact ⟨hunlisten, unlisten_log s⟩
    | exact hbefore _ ht rfl
    | exact ht.elim
    | skip
  -- the permission is given
  refine ⟨h.frame rfl (fun _ hd => hd) ?_, rfl⟩
  intro u hu
  rw [List.mem_singleton.mp hu]
  exact ht

/-- The rebuild that waits for `startVpn` finds nothing new, and ends. -/
theorem rebuild {a : RebuildAt} (h : Silent s (.rebuild c a :: ws))
    (hr : s.rebuildStep c a b = some r) : Silent r.1 (ws ++ r.2) ∧ r.1.log = s.log := by
  have ht : a.Harmless (s.conn c) := h.harmless _ List.mem_cons_self
  unfold VpnState.rebuildStep at hr
  split at hr
  all_goals cases hr
  case h_1.refl d => exact ht.elim
  case h_2.refl d yes =>
    obtain ⟨hs, hq⟩ := ht
    obtain ⟨hnone, hv, hqueue, hd⟩ := (s.conn c).rebuilt_ends d yes hq
    show Silent (s.setConn c ((s.conn c).rebuilt d yes).1)
      (ws ++ ((s.conn c).rebuilt d yes).2.toList.map (.rebuild c)) ∧ s.log = s.log
    rw [hnone]
    exact ⟨h.setConn (ConnectAt.Harmless.after hs) (RebuildAt.Harmless.after hv hqueue hd)
      fun hf => hv.trans hf, rfl⟩

theorem disconnect {a : DisconnectAt} (h : Silent s (.disconnect a :: ws))
    (hr : s.disconnectStep a b = some r) :
    Silent r.1 (ws ++ r.2) ∧ (r.1.log = s.log ∨ r.1.log = .disconnected :: s.log) := by
  have hone : ∀ a, ∀ u ∈ [VpnTask.disconnect a], u.Harmless s := by
    intro a u hu
    rw [List.mem_singleton.mp hu]
    trivial
  unfold VpnState.disconnectStep at hr
  split at hr
  all_goals cases hr
  all_goals
    first
    | exact ⟨h.frame rfl (fun _ hd => hd) (hone _), .inl rfl⟩
    | exact ⟨h.frame rfl (fun _ hd => hd) (by simp), .inl rfl⟩
    | exact ⟨h.frame rfl (fun _ hd => hd) (by simp), .inr rfl⟩
    | exact ⟨h.frame (unlisten_conn s) (unlisten_listeners s) (hone _), .inl (unlisten_log s)⟩

/-- An event is recorded. -/
theorem meshRoutes (h : Silent s ws) (hc : c ∈ s.listeners) (routes : List Str) :
    Silent ((s.note (.meshRoutes c routes)).withRebuild c ((s.conn c).onMeshRoutes routes)).1
      (ws ++ ((s.note (.meshRoutes c routes)).withRebuild c
        ((s.conn c).onMeshRoutes routes)).2) := by
  have hs := h.recording c hc
  have hrec : ((s.conn c).onMeshRoutes routes).2 = none ∧
      ((s.conn c).onMeshRoutes routes).1.vpnStarted = false ∧
      ((s.conn c).onMeshRoutes routes).1.virtualIpClean = (s.conn c).virtualIpClean := by
    unfold Connection.onMeshRoutes
    split
    · have hrecord : ((s.conn c).record routes.toFinset).rebuildVpn =
          ((s.conn c).record routes.toFinset, none) :=
        if_pos (by rw [show ((s.conn c).record routes.toFinset).vpnStarted = false from hs]; rfl)
      rw [hrecord]
      exact ⟨rfl, hs, rfl⟩
    · exact ⟨rfl, hs, rfl⟩
  show Silent ((s.note (.meshRoutes c routes)).setConn c ((s.conn c).onMeshRoutes routes).1)
    (ws ++ ((s.conn c).onMeshRoutes routes).2.toList.map (.rebuild c))
  rw [hrec.1]
  -- what is noted is read by nothing that waits
  have hcons : Silent (s.note (.meshRoutes c routes)) (.disconnect .isMobile :: ws) :=
    ⟨List.forall_mem_cons.mpr ⟨trivial, fun u hu => (h.harmless u hu).frame rfl⟩, h.recording⟩
  exact hcons.setConn (ConnectAt.Harmless.before hrec.2.1 hrec.2.2) (RebuildAt.Harmless.before hs)
    fun _ => hrec.2.1

end Silent

/-! ## What a step notes -/

section Log

variable {s : VpnState} {t : VpnTask} {b : VpnAnswer} {r : VpnState × List VpnTask}

/-- At most one call, and the end only where `disconnectWithVpn` resolves true. -/
def Notes (s : VpnState) (ends : Prop) (r : VpnState × List VpnTask) : Prop :=
  r.1.log = s.log ∨ (∃ e, e ≠ .disconnected ∧ r.1.log = e :: s.log) ∨
    (ends ∧ r = (s.note .disconnected, []))

theorem connectStep_notes {c : Nat} {a : ConnectAt} (hr : s.connectStep c a b = some r) :
    Notes s False r := by
  unfold VpnState.connectStep at hr
  split at hr
  all_goals cases hr
  all_goals
    first
    | exact .inl rfl
    | exact .inl (Silent.unlisten_log s)
    | exact .inr (.inl ⟨.connectSpace c, by simp, rfl⟩)
    | exact .inr (.inl ⟨.startVpn c _, by simp, rfl⟩)
    | exact .inr (.inl ⟨.meshRoutes c _, by simp, rfl⟩)
    | skip
  all_goals
    unfold VpnState.beforeListen
    dsimp only
    split
    · exact .inl (Silent.unlisten_log _)
    · exact .inl rfl

theorem resumeVpn_notes (hr : resumeVpn s t b = some r) :
    Notes s (t.resolves b = true) r := by
  cases t with
  | connect c a =>
    rcases connectStep_notes hr with h | h | h
    · exact .inl h
    · exact .inr (.inl h)
    · exact h.1.elim
  | rebuild c a =>
    have hr : s.rebuildStep c a b = some r := hr
    unfold VpnState.rebuildStep at hr
    split at hr
    all_goals cases hr
    · exact .inr (.inl ⟨.startVpn c _, by simp, rfl⟩)
    · exact .inl rfl
  | disconnect a =>
    have hr : s.disconnectStep a b = some r := hr
    unfold VpnState.disconnectStep at hr
    split at hr
    all_goals cases hr
    all_goals
      first
      | exact .inl rfl
      | exact .inl (Silent.unlisten_log s)
      | exact .inr (.inr ⟨rfl, rfl⟩)

theorem Silent.resume {ws : List VpnTask} (h : Silent s (t :: ws))
    (hr : resumeVpn s t b = some r) :
    Silent r.1 (ws ++ r.2) ∧ (r.1.log = s.log ∨ r.1.log = .disconnected :: s.log) := by
  cases t with
  | connect c a => exact ⟨(h.connect hr).1, .inl (h.connect hr).2⟩
  | rebuild c a => exact ⟨(h.rebuild hr).1, .inl (h.rebuild hr).2⟩
  | disconnect a => exact h.disconnect hr

end Log

/-! ## Every interleaving -/

structure FinalInv (s : VpnState) (ws : List VpnTask) : Prop where
  final : DisconnectFinal s.log
  silent : isFinal s.log = true → Silent s ws

theorem isFinal_cons_of_ne {log : List VpnLog} (h : isFinal log = false) {e : VpnLog}
    (he : e ≠ .disconnected) : isFinal (e :: log) = false := by
  cases e with
  | disconnected => exact absurd rfl he
  | begun => rfl
  | connectSpace | startVpn | meshRoutes => exact h

section Run

variable (tauri : Bool) (spaceId : Str)

theorem finalInv_keeps : (vpnScript tauri spaceId).Keeps EndsSilent FinalInv where
  perm _ _ _ hw h := ⟨h.final, fun hf => (h.silent hf).perm hw⟩
  start s ws e s' ts h _ hs := by
    cases e with
    | connect ip =>
      -- a new call begins: what it and the old ones call is no longer final
      simp only [vpnScript, startVpnEvent] at hs
      split at hs <;> cases hs
      · exact ⟨h.final, fun hf => absurd hf Bool.false_ne_true⟩
      · exact ⟨⟨rfl, h.final⟩, fun hf => absurd hf Bool.false_ne_true⟩
    | disconnect =>
      cases hs
      refine ⟨h.final, ?_⟩
      intro hf
      refine ⟨?_, (h.silent hf).recording⟩
      intro u hu
      rcases List.mem_append.mp hu with hw | hn
      · exact (h.silent hf).harmless u hw
      · rw [List.mem_singleton.mp hn]
        trivial
    | meshRoutesUpdated c sid routes =>
      simp only [vpnScript, startVpnEvent] at hs
      split_ifs at hs with hc hsid <;> cases hs
      · exact ⟨h.final, fun hf => (h.silent hf).meshRoutes hc routes⟩
      · rw [List.append_nil]
        exact h
  resume s ws t b s' ts h hP hs := by
    by_cases hf : isFinal s.log = true
    · have hstep := (h.silent hf).resume hs
      rcases hstep.2 with hlog | hlog
      · exact ⟨hlog ▸ h.final, fun _ => hstep.1⟩
      · exact ⟨hlog ▸ h.final, fun _ => hstep.1⟩
    · rw [Bool.not_eq_true] at hf
      rcases resumeVpn_notes hs with hlog | ⟨e, he, hlog⟩ | ⟨hends, hr⟩
      · refine ⟨hlog ▸ h.final, fun hf' => ?_⟩
        have hlog : s'.log = s.log := hlog
        rw [hlog, hf] at hf'
        exact absurd hf' Bool.false_ne_true
      · refine ⟨hlog ▸ h.final.cons hf e, fun hf' => ?_⟩
        have hlog : s'.log = e :: s.log := hlog
        rw [hlog, isFinal_cons_of_ne hf he] at hf'
        exact absurd hf' Bool.false_ne_true
      · cases hr
        refine ⟨h.final, fun _ => ?_⟩
        rw [List.append_nil]
        have hsilent : Silent s ws := hP hends
        exact ⟨fun u hu => (hsilent.harmless u hu).frame rfl, hsilent.recording⟩

/-- In a run in which nothing is left that calls whenever `disconnectWithVpn`
resolves true, no call is made for the old connection. -/
theorem disconnect_final (acts : List (PageAct VpnTask VpnEvent VpnAnswer))
    (h : Along (vpnScript tauri spaceId).step (Script.Within EndsSilent) vpnInit acts) :
    Always (vpnScript tauri spaceId).step (fun p => DisconnectFinal p.shared.log) vpnInit acts :=
  (finalInv_keeps tauri spaceId).always (fun _ hinv => hinv.final)
    ⟨trivial, fun hf => absurd hf Bool.false_ne_true⟩ h

end Run

/-- The VPN is up when it is disconnected; nothing waits at the end. -/
def upThenDown : List (PageAct VpnTask VpnEvent VpnAnswer) :=
  [.start (.connect "10.144.0.2/24".toList),
    .resume (.connect 0 .isMobile) (.mobile true),
    .resume (.connect 0 .prepareVpn) (.granted true),
    .resume (.connect 0 .detectLanSubnets) (.subnets []),
    .resume (.connect 0 .listen) .done,
    .resume (.connect 0 .listening) .done,
    .resume (.connect 0 (.connectSpace false)) .done,
    .resume (.connect 0 .startVpn) (.started true),
    .resume (.connect 0 .listSpaces) (.listed true),
    .resume (.connect 0 .settleDelay) .done,
    .resume (.connect 0 .getMeshRoutes) (.routes []),
    .start .disconnect,
    .resume (.disconnect .isMobile) (.mobile true),
    .resume (.disconnect .disconnectSpace) .done,
    .resume (.disconnect .stopVpn) .done]

theorem disconnect_final_example : Always (vpnScript true "home".toList).step
    (fun p => DisconnectFinal p.shared.log) vpnInit upThenDown :=
  disconnect_final true "home".toList upThenDown (by decide)

/-- The replay has found a route; `disconnectWithVpn` comes while its rebuild
waits for `stopVpn`. -/
def downDuringRebuild : List (PageAct VpnTask VpnEvent VpnAnswer) :=
  [.start (.connect "10.144.0.2/24".toList),
    .resume (.connect 0 .isMobile) (.mobile true),
    .resume (.connect 0 .prepareVpn) (.granted true),
    .resume (.connect 0 .detectLanSubnets) (.subnets []),
    .resume (.connect 0 .listen) .done,
    .resume (.connect 0 .listening) .done,
    .resume (.connect 0 (.connectSpace false)) .done,
    .resume (.connect 0 .startVpn) (.started true),
    .resume (.connect 0 .listSpaces) (.listed true),
    .resume (.connect 0 .settleDelay) .done,
    .resume (.connect 0 .getMeshRoutes) (.routes ["10.0.1.0/24".toList]),
    .start .disconnect,
    .resume (.disconnect .isMobile) (.mobile true),
    .resume (.disconnect .disconnectSpace) .done,
    .resume (.disconnect .stopVpn) .done,
    .resume (.rebuild 0 (.stopVpn {"10.144.0.0/24".toList, "10.0.1.0/24".toList})) .done]

/-- The VPN is started again, with no connection. -/
theorem started_after_disconnect : ¬ Always (vpnScript true "home".toList).step
    (fun p => DisconnectFinal p.shared.log) vpnInit downDuringRebuild := by
  intro h
  have hend := always_run h rfl
  revert hend
  decide

end HomeTier.Vpn
