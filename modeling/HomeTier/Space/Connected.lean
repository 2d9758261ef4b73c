import HomeTier.Space.Store

/-! # One connected space, the right one

Calls of `spaceStore.ts` that change what runs write the list at other moments
than the backend changes. The list is right as long as such calls do not overlap
with each other or with a load, what stops the other networks works, a connect
that fails leaves nothing running, and no load finds the VPN up beside a space
that is disconnected. On a desktop no connect may succeed: the space is shown as
connected, and the daemon has removed the file by which it reports the network.
-/

namespace HomeTier.SpaceStore

open Lib

/-! ## The lists -/

/-- The list shows what runs. -/
def Agrees (spaces : List Shown) (running : List Uuid) : Prop :=
  ∀ sp ∈ spaces, sp.status = .CED ↔ sp.id ∈ running

/-- No two different spaces are connected. -/
def OneConnected (spaces : List Shown) : Prop :=
  ∀ a ∈ spaces, ∀ b ∈ spaces, a.status = .CED → b.status = .CED → a.id = b.id

def AtMostOne (running : List Uuid) : Prop := ∀ x ∈ running, ∀ y ∈ running, x = y

section Lists

variable {s : StoreState} {spaces : List Shown} {running : List Uuid} {id : Uuid}

theorem Agrees.oneConnected (h : Agrees spaces running) (hr : AtMostOne running) :
    OneConnected spaces :=
  fun a ha b hb hac hbc => hr _ ((h a ha).mp hac) _ ((h b hb).mp hbc)

/-- With one row for an id the connected spaces are counted. -/
theorem OneConnected.countP_le (h : OneConnected spaces) (hn : (spaces.map (·.id)).Nodup) :
    spaces.countP (·.status = .CED) ≤ 1 := by
  induction spaces with
  | nil => exact Nat.zero_le _
  | cons a rest ih =>
    rw [List.map_cons, List.nodup_cons] at hn
    have hrest : OneConnected rest := fun b hb c hc => h b (.tail _ hb) c (.tail _ hc)
    by_cases ha : a.status = .CED
    · -- another would have the id of `a`
      have hnone : rest.countP (·.status = .CED) = 0 := by
        rw [List.countP_eq_zero]
        intro b hb hbc
        have hid := h a (.head _) b (.tail _ hb) ha (of_decide_eq_true hbc)
        exact hn.1 (hid ▸ List.mem_map_of_mem hb)
      rw [List.countP_cons, hnone]
      split <;> omega
    · rw [List.countP_cons_of_neg (by simpa using ha)]
      exact ih hrest hn.2

theorem mem_stop {x : Uuid} : x ∈ (s.stop id).running ↔ x ∈ s.running ∧ x ≠ id := by
  simp [StoreState.stop]

theorem mem_start {x : Uuid} : x ∈ (s.start id).running ↔ x = id ∨ x ∈ s.running := by
  unfold StoreState.start
  dsimp only
  split
  · rename_i hin
    constructor
    · exact .inr
    · rintro (rfl | h)
      · exact hin
      · exact h
  · exact List.mem_cons

/-- Started alone, a network is all that a phone reports, and a desktop reports none. -/
theorem mem_started {mobile : Bool} (h : ∀ x ∈ s.running, x = id) {x : Uuid} :
    x ∈ (s.started mobile id).running ↔ x = id ∧ mobile = true := by
  unfold StoreState.started
  cases mobile with
  | true =>
    rw [if_pos rfl, mem_start]
    exact ⟨fun hx => ⟨hx.elim (fun h => h) (h x), rfl⟩, fun hx => .inl hx.1⟩
  | false =>
    rw [if_neg Bool.false_ne_true, mem_stop]
    exact ⟨fun hx => absurd (h x hx.1) hx.2, fun hx => absurd hx.2 Bool.false_ne_true⟩

theorem mem_setStatus {st : SpaceStatus} {sp : Shown} :
    sp ∈ (s.setStatus id st).spaces ↔
      (sp.id = id ∧ sp.status = st ∧ ∃ old ∈ s.spaces, old.id = id) ∨
        (sp.id ≠ id ∧ sp ∈ s.spaces) := by
  unfold StoreState.setStatus
  dsimp only
  rw [List.mem_map]
  constructor
  · rintro ⟨old, hold, rfl⟩
    split
    · rename_i hid
      exact .inl ⟨hid, rfl, old, hold, hid⟩
    · rename_i hid
      exact .inr ⟨hid, hold⟩
  · rintro (⟨hid, hst, old, hold, holdid⟩ | ⟨hid, hmem⟩)
    · refine ⟨old, hold, ?_⟩
      rw [if_pos holdid]
      cases sp
      cases hid
      cases hst
      rw [holdid]
    · exact ⟨sp, hmem, if_neg hid⟩

theorem setStatus_ids (s : StoreState) (id : Uuid) (st : SpaceStatus) :
    (s.setStatus id st).spaces.map (·.id) = s.spaces.map (·.id) := by
  unfold StoreState.setStatus
  rw [List.map_map]
  apply List.map_congr_left
  intro sp _
  show (if sp.id = id then { sp with status := st } else sp).id = sp.id
  split <;> rfl

theorem setConnecting_ids (s : StoreState) (id : Uuid) :
    (s.setConnecting id).spaces.map (·.id) = s.spaces.map (·.id) := by
  unfold StoreState.setConnecting
  rw [List.map_map]
  apply List.map_congr_left
  intro sp _
  show (if sp.id = id then { sp with status := .ING }
    else if sp.status = .CED ∨ sp.status = .ING then { sp with status := .DIS } else sp).id = sp.id
  split_ifs <;> rfl

/-- While a space is connecting none is connected. -/
theorem setConnecting_ne (s : StoreState) (id : Uuid) :
    ∀ sp ∈ (s.setConnecting id).spaces, sp.status ≠ .CED := by
  intro sp hsp
  obtain ⟨old, -, rfl⟩ := List.mem_map.mp hsp
  split_ifs with h₁ h₂
  · exact SpaceStatus.noConfusion
  · exact SpaceStatus.noConfusion
  · exact fun h => h₂ (.inl h)

theorem list_agrees {table : SpaceTable} {ok : Bool} (h : ok = true ∨ s.running = []) :
    Agrees (s.list table ok) s.running := by
  intro sp hsp
  obtain ⟨id, -, rfl⟩ := List.mem_map.mp hsp
  dsimp only
  rcases h with rfl | h
  · by_cases hid : id ∈ s.running <;> simp [hid]
  · simp [h]

theorem list_ids (s : StoreState) (table : SpaceTable) (ok : Bool) :
    (s.list table ok).map (·.id) = table.ids := by
  unfold StoreState.list
  rw [List.map_map]
  exact List.map_id _

end Lists

/-! ## The condition -/

/-- A second look that is not due yet. -/
def SpaceTask.isTimer : SpaceTask → Bool
  | .recheck .timer => true
  | _ => false

def SpaceTask.isLoad : SpaceTask → Bool
  | .load _ _ | .recheck _ => true
  | _ => false

def SpaceTask.isLeave : SpaceTask → Bool
  | .recheck .timer | .disconnect _ _ | .leave _ _ => true
  | _ => false

/-- The last answer to a `connectSpace` that fails. -/
def lastFailure (mobile : Bool) (s : StoreState) (id : Uuid) (again : Bool) :
    ConnectAt → SpaceAnswer → Bool
  | .isMobile, .done => mobile && !s.spaces.any (·.id = id)
  | .prepare, .failed | .stopVpn, .done | .poll, .failed => true
  | .replied false, .done => !mobile || again
  | _, _ => false

/-- Calls overlap with calls of their kind only, and connects with none. The
daemon reports what runs, the others are stopped, and a connect that fails leaves
nothing running; on a phone a load does not find the VPN up beside a space that
is disconnected, and what cannot be disconnected does not run. On a desktop no
connect succeeds, and the TOML files of what is stopped are removed. -/
def Separate (mobile : Bool) (s : StoreState) (ws : List SpaceTask) :
    PageAct SpaceTask SpaceEvent SpaceAnswer → Prop
  | .start .loadSpaces | .resume (.recheck .timer) _ => ∀ t ∈ ws, t.isLoad = true
  | .start (.connectSpace id) =>
    (s.spaces.any fun sp => sp.id = id && sp.status = .CED) = true ∨ ∀ t ∈ ws, t.isTimer = true
  | .start (.disconnectSpace _) | .start (.leaveSpace _) => ∀ t ∈ ws, t.isLeave = true
  | .start (.vpnService _) => True
  | .resume (.load _ .list) (.reported ok) | .resume (.recheck .list) (.reported ok) =>
    ok = true ∨ s.running = []
  | .resume (.load _ (.vpnStatus _)) .done => s.vpn = false
  | .resume (.connect id _ .running) (.reported ok) => ok = true ∨ ∀ x ∈ s.running, x = id
  | .resume (.connect _ _ (.stopping (x :: _))) .failed
  | .resume (.connect _ _ (.stopping (x :: _))) .undeleted => x ∉ s.running
  | .resume (.connect _ _ (.replied true)) .done => mobile = true
  | .resume (.connect id again a) answer =>
    lastFailure mobile s id again a answer = true → s.running = []
  | .resume (.disconnect id (.replied false)) .done => mobile = true → id ∉ s.running
  | .resume (.disconnect id .request) .undeleted | .resume (.leave id .request) .undeleted =>
    id ∉ s.running
  | .resume _ _ => True

instance (mobile : Bool) (s : StoreState) (ws : List SpaceTask)
    (a : PageAct SpaceTask SpaceEvent SpaceAnswer) : Decidable (Separate mobile s ws a) := by
  unfold Separate
  split
  all_goals infer_instance

/-! ## What waits -/

/-- An answer that is up to date. -/
structure Accurate (running : List Uuid) (spaces : List Shown) : Prop where
  nodup : (spaces.map (·.id)).Nodup
  agrees : Agrees spaces running

def LoadAt.Ok (running : List Uuid) : LoadAt → Prop
  | .list => True
  | .listed spaces | .isMobile spaces | .vpnStatus spaces => Accurate running spaces

def RecheckAt.Ok (running : List Uuid) : RecheckAt → Prop
  | .timer | .list => True
  | .listed spaces => Accurate running spaces

/-- What may wait while loads do. -/
def SpaceTask.LoadOk (running : List Uuid) : SpaceTask → Prop
  | .load _ a => a.Ok running
  | .recheck a => a.Ok running
  | _ => False

/-- The network has been stopped, the page is not told yet. -/
def LeaveAt.stopped : LeaveAt → Bool
  | .replied true | .stopVpn => true
  | _ => false

def SpaceTask.ends (x : Uuid) : SpaceTask → Bool
  | .disconnect id a | .leave id a => id = x && a.stopped
  | _ => false

/-- What may wait while disconnects do. -/
def SpaceTask.LeaveOk (running : List Uuid) : SpaceTask → Prop
  | .recheck .timer => True
  | .disconnect id a | .leave id a => a.stopped = true → id ∉ running
  | _ => False

def NoneConnected (spaces : List Shown) : Prop := ∀ sp ∈ spaces, sp.status ≠ .CED

/-- How far the backend is with the connect that waits. -/
def ConnectAt.Backend (mobile : Bool) (running : List Uuid) (id : Uuid) : ConnectAt → Prop
  | .stopping others => ∀ x ∈ running, x = id ∨ x ∈ others
  | .starting => ∀ x ∈ running, x = id
  | .services | .replied true => ∀ x, x ∈ running ↔ x = id ∧ mobile = true
  | .startVpn | .stopVpn | .poll => ∀ x, x ∈ running ↔ x = id
  | _ => True

def ConnectAt.Ok (mobile : Bool) (s : StoreState) (id : Uuid) : ConnectAt → Prop
  | .isMobile => Agrees s.spaces s.running
  | a => NoneConnected s.spaces ∧ a.Backend mobile s.running id

/-- Loads wait, or disconnects, or one connect. -/
inductive Mode (mobile : Bool) (s : StoreState) (ws : List SpaceTask) : Prop where
  | loading : Agrees s.spaces s.running → (∀ t ∈ ws, t.LoadOk s.running) → Mode mobile s ws
  | leaving : OneConnected s.spaces → (∀ sp ∈ s.spaces, sp.id ∈ s.running → sp.status = .CED) →
    (∀ sp ∈ s.spaces, sp.status = .CED →
      sp.id ∈ s.running ∨ ∃ t ∈ ws, t.ends sp.id = true) →
    (∀ t ∈ ws, t.LeaveOk s.running) → Mode mobile s ws
  | connecting (id : Uuid) (again : Bool) (a : ConnectAt) (timers : List SpaceTask) :
    ws.Perm (.connect id again a :: timers) → (∀ t ∈ timers, t.isTimer = true) → a.Ok mobile s id →
    Mode mobile s ws

structure SpaceInv (mobile : Bool) (s : StoreState) (ws : List SpaceTask) : Prop where
  nodup : (s.spaces.map (·.id)).Nodup
  one : AtMostOne s.running
  mode : Mode mobile s ws

section Modes

variable {mobile : Bool} {s s' : StoreState} {ws ws' : List SpaceTask} {t : SpaceTask} {running : List Uuid}

theorem isTimer_eq (h : t.isTimer = true) : t = .recheck .timer := by
  unfold SpaceTask.isTimer at h
  split at h
  · rfl
  · exact absurd h Bool.false_ne_true

theorem SpaceTask.LoadOk.timer (h : t.LoadOk running) (ht : t.isLeave = true) :
    t.isTimer = true := by
  unfold SpaceTask.isLeave at ht
  split at ht
  · rfl
  · exact h.elim
  · exact h.elim
  · exact absurd ht Bool.false_ne_true

theorem SpaceTask.LeaveOk.timer (h : t.LeaveOk running) (ht : t.isLoad = true) :
    t.isTimer = true := by
  unfold SpaceTask.isLoad at ht
  split at ht
  · exact h.elim
  · rename_i a
    cases a with
    | timer => rfl
    | list => exact h.elim
    | listed => exact h.elim
  · exact absurd ht Bool.false_ne_true

theorem SpaceTask.LoadOk.of_timer (h : t.isTimer = true) : t.LoadOk running := by
  rw [isTimer_eq h]
  trivial

theorem SpaceTask.LeaveOk.of_timer (h : t.isTimer = true) : t.LeaveOk running := by
  rw [isTimer_eq h]
  trivial

theorem Mode.perm (hw : ws.Perm ws') (h : Mode mobile s ws) : Mode mobile s ws' := by
  cases h with
  | loading h₁ h₂ => exact .loading h₁ fun t ht => h₂ t (hw.mem_iff.mpr ht)
  | leaving h₁ h₂ h₃ h₄ =>
    refine .leaving h₁ h₂ ?_ fun t ht => h₄ t (hw.mem_iff.mpr ht)
    intro sp hsp hced
    rcases h₃ sp hsp hced with hr | ⟨t, ht, hends⟩
    · exact .inl hr
    · exact .inr ⟨t, hw.mem_iff.mp ht, hends⟩
  | connecting id again a timers h₁ h₂ h₃ =>
    exact .connecting id again a timers (hw.symm.trans h₁) h₂ h₃

/-- When only timers wait the list is right. -/
theorem Mode.agrees (h : Mode mobile s ws) (ht : ∀ t ∈ ws, t.isTimer = true) :
    Agrees s.spaces s.running := by
  cases h with
  | loading h₁ => exact h₁
  | leaving _ h₂ h₃ _ =>
    intro sp hsp
    refine ⟨fun hced => ?_, h₂ sp hsp⟩
    rcases h₃ sp hsp hced with hr | ⟨t, htw, hends⟩
    · exact hr
    · rw [isTimer_eq (ht t htw)] at hends
      exact absurd hends Bool.false_ne_true
  | connecting id again a timers h₁ =>
    have hc := ht _ (h₁.mem_iff.mpr List.mem_cons_self)
    exact absurd hc Bool.false_ne_true

theorem Mode.loads (h : Mode mobile s ws) (hl : ∀ t ∈ ws, t.isLoad = true) :
    Agrees s.spaces s.running ∧ ∀ t ∈ ws, t.LoadOk s.running := by
  cases h with
  | loading h₁ h₂ => exact ⟨h₁, h₂⟩
  | leaving h₁ h₂ h₃ h₄ =>
    have htimer : ∀ t ∈ ws, t.isTimer = true := fun t ht => (h₄ t ht).timer (hl t ht)
    have hmode : Mode mobile s ws := .leaving h₁ h₂ h₃ h₄
    exact ⟨hmode.agrees htimer, fun t ht => .of_timer (htimer t ht)⟩
  | connecting id again a timers h₁ =>
    exact absurd (hl _ (h₁.mem_iff.mpr List.mem_cons_self)) Bool.false_ne_true

theorem Mode.leaves (h : Mode mobile s ws) (hr : AtMostOne s.running) (hl : ∀ t ∈ ws, t.isLeave = true) :
    OneConnected s.spaces ∧ (∀ sp ∈ s.spaces, sp.id ∈ s.running → sp.status = .CED) ∧
      (∀ sp ∈ s.spaces, sp.status = .CED →
        sp.id ∈ s.running ∨ ∃ t ∈ ws, t.ends sp.id = true) ∧
      ∀ t ∈ ws, t.LeaveOk s.running := by
  cases h with
  | loading h₁ h₂ =>
    have htimer : ∀ t ∈ ws, t.isTimer = true := fun t ht => (h₂ t ht).timer (hl t ht)
    exact ⟨h₁.oneConnected hr, fun sp hsp => (h₁ sp hsp).mpr, fun sp hsp h => .inl ((h₁ sp hsp).mp h),
      fun t ht => .of_timer (htimer t ht)⟩
  | leaving h₁ h₂ h₃ h₄ => exact ⟨h₁, h₂, h₃, h₄⟩
  | connecting id again a timers h₁ =>
    exact absurd (hl _ (h₁.mem_iff.mpr List.mem_cons_self)) Bool.false_ne_true

theorem Mode.oneConnected (h : Mode mobile s ws) (hr : AtMostOne s.running) : OneConnected s.spaces := by
  cases h with
  | loading h₁ => exact h₁.oneConnected hr
  | leaving h₁ => exact h₁
  | connecting id again a timers _ _ h₃ =>
    cases a with
    | isMobile => exact Agrees.oneConnected h₃ hr
    | _ => exact fun a ha _ _ hac _ => absurd hac (h₃.1 a ha)

end Modes

/-! ## One step -/

section Step

variable {mobile : Bool} {table : SpaceTable} {s s' : StoreState} {ws ts : List SpaceTask}

variable {t u : SpaceTask}

theorem SpaceInv.add_leave (h : SpaceInv mobile s ws)
    (hP : ∀ u ∈ ws, u.isLeave = true) (ht : t.LeaveOk s.running) : SpaceInv mobile s (ws ++ [t]) := by
  obtain ⟨hone, hrun, hced, hok⟩ := h.mode.leaves h.one hP
  refine ⟨h.nodup, h.one, .leaving hone hrun ?_ ?_⟩
  · intro sp hsp hst
    rcases hced sp hsp hst with hr | ⟨u, hu, hends⟩
    · exact .inl hr
    · exact .inr ⟨u, List.mem_append_left _ hu, hends⟩
  · intro u hu
    rcases List.mem_append.mp hu with hw | hn
    · exact hok u hw
    · rw [List.mem_singleton.mp hn]
      exact ht

theorem SpaceInv.start {e : SpaceEvent} (h : SpaceInv mobile s ws) (hP : Separate mobile s ws (.start e))
    (hs : startSpace s e = some (s', ts)) : SpaceInv mobile s' (ws ++ ts) := by
  cases e with
  | loadSpaces =>
    cases hs
    obtain ⟨hag, hload⟩ := h.mode.loads hP
    refine ⟨h.nodup, h.one, .loading hag ?_⟩
    intro t ht
    rcases List.mem_append.mp ht with hw | hn
    · exact hload t hw
    · rw [List.mem_singleton.mp hn]
      trivial
  | connectSpace id =>
    simp only [startSpace] at hs
    split at hs <;> cases hs
    · rw [List.append_nil]
      exact h
    · rename_i hnot
      have htimers : ∀ t ∈ ws, t.isTimer = true := by
        rcases hP with hced | htimers
        · exact absurd hced hnot
        · exact htimers
      -- nothing but timers waits, so the connect is alone
      refine ⟨h.nodup, h.one, .connecting id false .isMobile ws ?_ htimers (h.mode.agrees htimers)⟩
      exact List.perm_append_singleton _ _
  | disconnectSpace id =>
    cases hs
    exact h.add_leave hP fun hf => absurd hf Bool.false_ne_true
  | leaveSpace id =>
    cases hs
    exact h.add_leave hP fun hf => absurd hf Bool.false_ne_true
  | vpnService up =>
    cases hs
    rw [List.append_nil]
    refine ⟨h.nodup, h.one, ?_⟩
    cases h.mode with
    | loading h₁ h₂ => exact .loading h₁ h₂
    | leaving h₁ h₂ h₃ h₄ => exact .leaving h₁ h₂ h₃ h₄
    | connecting id again a timers h₁ h₂ h₃ =>
      refine .connecting id again a timers h₁ h₂ ?_
      cases a <;> exact h₃

/-! ### Loads -/

/-- A load waits beside loads only. -/
theorem SpaceInv.loading (h : SpaceInv mobile s (t :: ws)) (ht : t.isLoad = true)
    (hnot : t.isTimer = false) :
    Agrees s.spaces s.running ∧ t.LoadOk s.running ∧ ∀ u ∈ ws, u.LoadOk s.running := by
  cases h.mode with
  | loading h₁ h₂ =>
    exact ⟨h₁, h₂ t List.mem_cons_self, fun u hu => h₂ u (.tail _ hu)⟩
  | leaving _ _ _ h₄ =>
    have htimer := (h₄ t List.mem_cons_self).timer ht
    exact absurd (hnot.symm.trans htimer) Bool.false_ne_true
  | connecting id again a timers h₁ h₂ =>
    rcases List.mem_cons.mp (h₁.mem_iff.mp List.mem_cons_self) with rfl | hmem
    · exact absurd ht Bool.false_ne_true
    · exact absurd (hnot.symm.trans (h₂ t hmem)) Bool.false_ne_true

theorem SpaceInv.load_next (h : SpaceInv mobile s (t :: ws)) (ht : t.isLoad = true)
    (hnot : t.isTimer = false) (hu : u.LoadOk s.running) : SpaceInv mobile s (ws ++ [u]) := by
  obtain ⟨hag, -, hws⟩ := h.loading ht hnot
  refine ⟨h.nodup, h.one, .loading hag ?_⟩
  intro v hv
  rcases List.mem_append.mp hv with hw | hn
  · exact hws v hw
  · rw [List.mem_singleton.mp hn]
    exact hu

theorem SpaceInv.load_end (h : SpaceInv mobile s (t :: ws)) (ht : t.isLoad = true)
    (hnot : t.isTimer = false) : SpaceInv mobile s (ws ++ []) := by
  obtain ⟨hag, -, hws⟩ := h.loading ht hnot
  rw [List.append_nil]
  exact ⟨h.nodup, h.one, .loading hag hws⟩

/-- The list is replaced by an answer that is up to date. -/
theorem SpaceInv.load_show (h : SpaceInv mobile s (t :: ws)) (ht : t.isLoad = true)
    (hnot : t.isTimer = false) {spaces : List Shown} (hacc : Accurate s.running spaces)
    {timers : List SpaceTask} (htimers : ∀ u ∈ timers, u.isTimer = true) :
    SpaceInv mobile { s with spaces } (ws ++ timers) := by
  obtain ⟨-, -, hws⟩ := h.loading ht hnot
  refine ⟨hacc.nodup, h.one, .loading hacc.agrees ?_⟩
  intro v hv
  rcases List.mem_append.mp hv with hw | hn
  · exact hws v hw
  · exact .of_timer (htimers v hn)

theorem accurate_list {ok : Bool} (h : ok = true ∨ s.running = []) :
    Accurate s.running (s.list table ok) := by
  refine ⟨?_, list_agrees h⟩
  rw [list_ids]
  exact table.nodup

theorem SpaceInv.finish (h : SpaceInv mobile s (t :: ws)) (ht : t.isLoad = true)
    (hnot : t.isTimer = false) {spaces : List Shown} (hacc : Accurate s.running spaces)
    (prev : List Shown) :
    SpaceInv mobile (s.finish prev spaces).1 (ws ++ (s.finish prev spaces).2) := by
  apply h.load_show ht hnot hacc
  intro u hu
  dsimp only [StoreState.finish] at hu
  split at hu
  · rw [List.mem_singleton.mp hu]
    rfl
  · exact absurd hu List.not_mem_nil

variable {r : StoreState × List SpaceTask} {b : SpaceAnswer}

theorem SpaceInv.load {prev : List Shown} {a : LoadAt} (h : SpaceInv mobile s (.load prev a :: ws))
    (hP : Separate mobile s ws (.resume (.load prev a) b))
    (hs : loadStep mobile table s prev a b = some r) : SpaceInv mobile r.1 (ws ++ r.2) := by
  have hok : a.Ok s.running := (h.loading rfl rfl).2.1
  unfold loadStep at hs
  split at hs
  case h_7 => cases hs
  case h_4 spaces =>
    split at hs <;> cases hs
    · exact h.load_next rfl rfl hok
    · exact h.finish rfl rfl hok prev
  all_goals cases hs
  · exact h.load_next rfl rfl (accurate_list hP)
  · exact h.load_end rfl rfl
  · exact h.load_next rfl rfl hok
  · -- the VPN is not up, nothing is corrected
    rw [show s.vpn = false from hP, if_neg Bool.false_ne_true]
    exact h.finish rfl rfl hok prev
  · exact h.finish rfl rfl hok prev

theorem SpaceInv.recheck {a : RecheckAt} (h : SpaceInv mobile s (.recheck a :: ws))
    (hP : Separate mobile s ws (.resume (.recheck a) b))
    (hs : recheckStep table s a b = some r) : SpaceInv mobile r.1 (ws ++ r.2) := by
  unfold recheckStep at hs
  split at hs
  all_goals cases hs
  · -- the timer comes to an end beside loads only
    have hall : ∀ t ∈ .recheck .timer :: ws, t.isLoad = true := List.forall_mem_cons.mpr ⟨rfl, hP⟩
    obtain ⟨hag, hload⟩ := h.mode.loads hall
    refine ⟨h.nodup, h.one, .loading hag ?_⟩
    intro t ht
    rcases List.mem_append.mp ht with hw | hn
    · exact hload t (.tail _ hw)
    · rw [List.mem_singleton.mp hn]
      trivial
  · exact h.load_next rfl rfl (accurate_list hP)
  · exact h.load_end rfl rfl
  · exact h.load_show rfl rfl (h.loading rfl rfl).2.1 (by simp)

/-! ### Disconnects -/

/-- A disconnect waits beside disconnects only. -/
theorem SpaceInv.leaving (h : SpaceInv mobile s (t :: ws)) (ht : t.isLeave = true)
    (hnot : t.isTimer = false) :
    (OneConnected s.spaces ∧ ∀ sp ∈ s.spaces, sp.id ∈ s.running → sp.status = .CED) ∧
      (∀ sp ∈ s.spaces, sp.status = .CED →
        sp.id ∈ s.running ∨ ∃ u ∈ t :: ws, u.ends sp.id = true) ∧
      t.LeaveOk s.running ∧ ∀ u ∈ ws, u.LeaveOk s.running := by
  cases h.mode with
  | loading _ h₂ =>
    have htimer := (h₂ t List.mem_cons_self).timer ht
    exact absurd (hnot.symm.trans htimer) Bool.false_ne_true
  | leaving h₁ h₂ h₃ h₄ =>
    exact ⟨⟨h₁, h₂⟩, h₃, h₄ t List.mem_cons_self, fun u hu => h₄ u (.tail _ hu)⟩
  | connecting id again a timers h₁ h₂ =>
    rcases List.mem_cons.mp (h₁.mem_iff.mp List.mem_cons_self) with rfl | hmem
    · exact absurd ht Bool.false_ne_true
    · exact absurd (hnot.symm.trans (h₂ t hmem)) Bool.false_ne_true

/-- It goes on, and answers for what it has stopped. -/
theorem SpaceInv.leave_next (h : SpaceInv mobile s (t :: ws)) (ht : t.isLeave = true)
    (hnot : t.isTimer = false) (hsp : s'.spaces = s.spaces)
    (hsub : ∀ x ∈ s'.running, x ∈ s.running)
    (hstop : ∀ x ∈ s.running, x ∉ s'.running → u.ends x = true)
    (hends : ∀ x, t.ends x = true → u.ends x = true)
    (hu : u.LeaveOk s'.running) : SpaceInv mobile s' (ws ++ [u]) := by
  obtain ⟨⟨hone, hrun⟩, hced, -, hws⟩ := h.leaving ht hnot
  refine ⟨hsp ▸ h.nodup, fun x hx y hy => h.one x (hsub x hx) y (hsub y hy), .leaving ?_ ?_ ?_ ?_⟩
  · rw [hsp]
    exact hone
  · rw [hsp]
    exact fun sp hmem hr => hrun sp hmem (hsub _ hr)
  · rw [hsp]
    intro sp hmem hst
    rcases hced sp hmem hst with hr | ⟨v, hv, hve⟩
    · by_cases hr' : sp.id ∈ s'.running
      · exact .inl hr'
      · exact .inr ⟨u, by simp, hstop _ hr hr'⟩
    · rcases List.mem_cons.mp hv with rfl | hv
      · exact .inr ⟨u, by simp, hends _ hve⟩
      · exact .inr ⟨v, List.mem_append_left _ hv, hve⟩
  · intro v hv
    rcases List.mem_append.mp hv with hw | hn
    · have hv := hws v hw
      -- less runs than before
      cases v with
      | load => exact hv
      | recheck a => cases a <;> exact hv
      | connect => exact hv
      | disconnect => exact fun hst hr => hv hst (hsub _ hr)
      | leave => exact fun hst hr => hv hst (hsub _ hr)
    · rw [List.mem_singleton.mp hn]
      exact hu

/-- It goes on and stops nothing. -/
theorem SpaceInv.leave_on (h : SpaceInv mobile s (t :: ws)) (ht : t.isLeave = true)
    (hnot : t.isTimer = false) (hends : ∀ x, t.ends x = true → u.ends x = true)
    (hu : u.LeaveOk s.running) : SpaceInv mobile s (ws ++ [u]) :=
  h.leave_next ht hnot rfl (fun _ hx => hx) (fun _ hx hn => absurd hx hn) hends hu

/-- It stops the network of its space, which it answers for. -/
theorem SpaceInv.leave_stop {id : Uuid} (h : SpaceInv mobile s (t :: ws))
    (ht : t.isLeave = true) (hnot : t.isTimer = false)
    (hends : ∀ x, t.ends x = true → u.ends x = true) (hid : u.ends id = true)
    (hu : u.LeaveOk (s.stop id).running) : SpaceInv mobile (s.stop id) (ws ++ [u]) := by
  refine h.leave_next ht hnot rfl (fun _ hx => (mem_stop.mp hx).1) ?_ hends hu
  intro x hx hn
  have hxid : x = id := by
    by_contra hne
    exact hn (mem_stop.mpr ⟨hx, hne⟩)
  rwa [hxid]

/-- It fails with nothing stopped, and nothing is written. -/
theorem SpaceInv.leave_end (h : SpaceInv mobile s (t :: ws)) (ht : t.isLeave = true)
    (hnot : t.isTimer = false) (hends : ∀ x, t.ends x = false) : SpaceInv mobile s (ws ++ []) := by
  obtain ⟨⟨hone, hrun⟩, hced, -, hws⟩ := h.leaving ht hnot
  rw [List.append_nil]
  refine ⟨h.nodup, h.one, .leaving hone hrun ?_ hws⟩
  intro sp hmem hst
  rcases hced sp hmem hst with hr | ⟨v, hv, hve⟩
  · exact .inl hr
  · rcases List.mem_cons.mp hv with rfl | hv
    · exact absurd ((hends _).symm.trans hve) Bool.false_ne_true
    · exact .inr ⟨v, hv, hve⟩

/-- The space is shown as disconnected. -/
theorem SpaceInv.leave_write {id : Uuid} (h : SpaceInv mobile s (t :: ws))
    (ht : t.isLeave = true) (hnot : t.isTimer = false) (hends : ∀ x, t.ends x = true → x = id)
    (hid : id ∉ s.running) : SpaceInv mobile (s.setStatus id .DIS) (ws ++ []) := by
  obtain ⟨⟨hone, hrun⟩, hced, -, hws⟩ := h.leaving ht hnot
  -- connected is only what was so before, under another id
  have hold : ∀ sp ∈ (s.setStatus id .DIS).spaces, sp.status = .CED → sp.id ≠ id ∧ sp ∈ s.spaces := by
    intro sp hsp hst
    rcases mem_setStatus.mp hsp with ⟨-, hdis, -⟩ | hother
    · exact SpaceStatus.noConfusion (hst.symm.trans hdis)
    · exact hother
  rw [List.append_nil]
  refine ⟨(setStatus_ids s id .DIS).symm ▸ h.nodup, h.one, .leaving ?_ ?_ ?_ hws⟩
  · intro a ha b hb hac hbc
    exact hone a (hold a ha hac).2 b (hold b hb hbc).2 hac hbc
  · intro sp hsp hr
    rcases mem_setStatus.mp hsp with ⟨heq, -, -⟩ | ⟨-, hmem⟩
    · exact absurd (heq ▸ hr) hid
    · exact hrun sp hmem hr
  · intro sp hsp hst
    obtain ⟨hne, hmem⟩ := hold sp hsp hst
    rcases hced sp hmem hst with hr | ⟨v, hv, hve⟩
    · exact .inl hr
    · rcases List.mem_cons.mp hv with rfl | hv
      · exact absurd (hends _ hve) hne
      · exact .inr ⟨v, hv, hve⟩

theorem SpaceInv.disconnect {id : Uuid} {a : LeaveAt}
    (h : SpaceInv mobile s (.disconnect id a :: ws))
    (hP : Separate mobile s ws (.resume (.disconnect id a) b))
    (hs : disconnectStep mobile s id a b = some r) : SpaceInv mobile r.1 (ws ++ r.2) := by
  have hok : a.stopped = true → id ∉ s.running := (h.leaving rfl rfl).2.2.1
  have hends : ∀ a : LeaveAt, ∀ x, (SpaceTask.disconnect id a).ends x = true → x = id := by
    intro a x hx
    exact (of_decide_eq_true (Bool.and_eq_true_iff.mp hx).1).symm
  have hends' : ∀ x, (SpaceTask.disconnect id .request).ends x = true → False :=
    fun x hx => absurd (Bool.and_eq_true_iff.mp hx).2 Bool.false_ne_true
  unfold disconnectStep at hs
  split at hs
  case h_8 => cases hs
  case h_3 =>
    -- the network is stopped, and its file stays
    split at hs <;> cases hs
    exact h.leave_on rfl rfl (fun x hx => (hends' x hx).elim) fun _ => hP
  case h_5 =>
    -- stopped: a phone still takes its VPN down
    split at hs <;> cases hs
    · exact h.leave_on rfl rfl (fun _ hx => hx) hok
    · exact h.leave_write rfl rfl (hends _) (hok rfl)
  case h_6 =>
    -- not stopped
    split at hs <;> cases hs
    · rename_i hm
      exact h.leave_write rfl rfl (hends _) (hP hm)
    · exact h.leave_end rfl rfl fun x => Bool.and_false _
  all_goals cases hs
  · exact h.leave_on rfl rfl (fun _ hx => hx) fun hf => absurd hf Bool.false_ne_true
  · -- the network is stopped, and its file is gone
    exact h.leave_stop rfl rfl (fun x hx => (hends' x hx).elim)
      (by simp [SpaceTask.ends, LeaveAt.stopped]) fun _ hr => (mem_stop.mp hr).2 rfl
  · exact h.leave_on rfl rfl (fun _ hx => hx) fun hf => absurd hf Bool.false_ne_true
  · exact h.leave_write rfl rfl (hends _) (hok rfl)

theorem SpaceInv.leave {id : Uuid} {a : LeaveAt} (h : SpaceInv mobile s (.leave id a :: ws))
    (hP : Separate mobile s ws (.resume (.leave id a) b))
    (hs : leaveStep mobile s id a b = some r) : SpaceInv mobile r.1 (ws ++ r.2) := by
  have hok : a.stopped = true → id ∉ s.running := (h.leaving rfl rfl).2.2.1
  have hends : ∀ x, (SpaceTask.leave id .request).ends x = true → False :=
    fun x hx => absurd (Bool.and_eq_true_iff.mp hx).2 Bool.false_ne_true
  unfold leaveStep at hs
  split at hs
  case h_2 =>
    -- the network is stopped, and its file stays
    split at hs <;> cases hs
    exact h.leave_on rfl rfl (fun x hx => (hends x hx).elim) fun _ => hP
  all_goals cases hs
  · -- the network is stopped, and its file is gone
    exact h.leave_stop rfl rfl (fun x hx => (hends x hx).elim)
      (by simp [SpaceTask.ends, LeaveAt.stopped]) fun _ hr => (mem_stop.mp hr).2 rfl
  · exact h.leave_on rfl rfl (fun _ hx => hx) fun hf => absurd hf Bool.false_ne_true
  · refine h.leave_write rfl rfl ?_ (hok rfl)
    intro x hx
    exact (of_decide_eq_true (Bool.and_eq_true_iff.mp hx).1).symm
  · exact h.leave_end rfl rfl fun x => Bool.and_false _

/-! ### Connects -/

variable {id : Uuid} {again : Bool} {a : ConnectAt}

/-- A connect waits alone. -/
theorem SpaceInv.connecting (h : SpaceInv mobile s (.connect id again a :: ws)) :
    (∀ u ∈ ws, u.isTimer = true) ∧ a.Ok mobile s id := by
  cases h.mode with
  | loading _ h₂ => exact (h₂ _ List.mem_cons_self).elim
  | leaving _ _ _ h₄ => exact (h₄ _ List.mem_cons_self).elim
  | connecting id' again' a' timers h₁ h₂ h₃ =>
    rcases List.mem_cons.mp (h₁.mem_iff.mp List.mem_cons_self) with heq | hmem
    · cases heq
      exact ⟨fun u hu => h₂ u (h₁.cons_inv.mem_iff.mp hu), h₃⟩
    · exact absurd (h₂ _ hmem) Bool.false_ne_true

theorem SpaceInv.connect_next (h : SpaceInv mobile s (.connect id again a :: ws)) {again' : Bool}
    {a' : ConnectAt} (hn : (s'.spaces.map (·.id)).Nodup) (hr : AtMostOne s'.running)
    (hok : a'.Ok mobile s' id) : SpaceInv mobile s' (ws ++ [.connect id again' a']) :=
  ⟨hn, hr, .connecting id again' a' ws (List.perm_append_singleton _ _) h.connecting.1 hok⟩

/-- The last status of a connect: connected and alone, or nothing runs. -/
theorem SpaceInv.connect_write (h : SpaceInv mobile s (.connect id again a :: ws)) {st : SpaceStatus}
    (hnone : NoneConnected s.spaces)
    (hrun : st = .CED ∧ (∀ x, x ∈ s.running ↔ x = id) ∨ st = .DIS ∧ s.running = []) :
    SpaceInv mobile (s.setStatus id st) (ws ++ []) := by
  rw [List.append_nil]
  refine ⟨(setStatus_ids s id st).symm ▸ h.nodup, h.one, .loading ?_ ?_⟩
  · intro sp hsp
    show sp.status = .CED ↔ sp.id ∈ s.running
    rcases hrun with ⟨rfl, hr⟩ | ⟨rfl, hr⟩
    · rw [hr]
      rcases mem_setStatus.mp hsp with ⟨hid, hst, -⟩ | ⟨hid, hmem⟩
      · exact iff_of_true hst hid
      · exact iff_of_false (hnone sp hmem) hid
    · rw [hr]
      rcases mem_setStatus.mp hsp with ⟨hid, hst, -⟩ | ⟨hid, hmem⟩
      · exact iff_of_false (fun h => SpaceStatus.noConfusion (hst.symm.trans h)) List.not_mem_nil
      · exact iff_of_false (hnone sp hmem) List.not_mem_nil
  · exact fun u hu => .of_timer (h.connecting.1 u hu)

theorem stopNext_ok {others : List Uuid} (hnone : NoneConnected s.spaces)
    (h : ∀ x ∈ s.running, x = id ∨ x ∈ others) : (stopNext others).Ok mobile s id := by
  cases others with
  | nil => exact ⟨hnone, fun x hx => (h x hx).resolve_right List.not_mem_nil⟩
  | cons y rest => exact ⟨hnone, h⟩

/-- One of the others is passed over that does not run. -/
theorem stopNext_rest {y : Uuid} {rest : List Uuid} (hnone : NoneConnected s.spaces)
    (h : ∀ x ∈ s.running, x = id ∨ x ∈ y :: rest) (hy : y ∉ s.running) :
    (stopNext rest).Ok mobile s id := by
  refine stopNext_ok hnone fun x hx => ?_
  rcases h x hx with hid | hmem
  · exact .inl hid
  · rcases List.mem_cons.mp hmem with rfl | hmem
    · exact absurd hx hy
    · exact .inr hmem

theorem SpaceInv.connect (h : SpaceInv mobile s (.connect id again a :: ws))
    (hP : Separate mobile s ws (.resume (.connect id again a) b))
    (hs : connectStep mobile s id again a b = some r) : SpaceInv mobile r.1 (ws ++ r.2) := by
  have hok := h.connecting.2
  unfold connectStep at hs
  split at hs
  case h_1 =>
    -- from here on none is shown as connected
    have hnodup : ((s.setConnecting id).spaces.map (·.id)).Nodup :=
      (setConnecting_ids s id).symm ▸ h.nodup
    dsimp only at hs
    split at hs
    · -- a desktop
      cases hs
      exact h.connect_next hnodup h.one ⟨setConnecting_ne s id, trivial⟩
    split at hs
    · -- a phone that lists the space
      cases hs
      exact h.connect_next hnodup h.one ⟨setConnecting_ne s id, trivial⟩
    · -- one that does not
      rename_i hm hfound
      cases hs
      have hsame : ((s.setConnecting id).spaces.any fun sp => sp.id = id) =
          s.spaces.any fun sp => sp.id = id := by
        have hmap : ∀ l : List Shown, (l.any fun sp => sp.id = id) =
            (l.map (·.id)).any fun x => x = id := by
          intro l
          rw [List.any_map]
          rfl
        rw [hmap, hmap, setConnecting_ids]
      rw [hsame] at hfound
      have hfail : s.running = [] := by
        apply hP
        simp only [lastFailure, Bool.not_eq_true, Bool.not_eq_false'] at hm hfound ⊢
        rw [hm, hfound]
        rfl
      have h' : SpaceInv mobile (s.setConnecting id) (.connect id again .prepare :: ws) :=
        ⟨hnodup, h.one, .connecting id again .prepare ws .rfl h.connecting.1
          ⟨setConnecting_ne s id, trivial⟩⟩
      exact h'.connect_write (setConnecting_ne s id) (.inr ⟨rfl, hfail⟩)
  case h_6 ok =>
    -- a phone stops all that run, a desktop the others that it is told of
    split at hs
    · split at hs <;> cases hs
      exact h.connect_next h.nodup h.one (stopNext_ok hok.1 fun x hx => .inr hx)
    · cases hs
      refine h.connect_next h.nodup h.one (stopNext_ok hok.1 ?_)
      intro x hx
      rcases (hP : ok = true ∨ ∀ x ∈ s.running, x = id) with rfl | hall
      · by_cases hxid : x = id
        · exact .inl hxid
        · exact .inr (List.mem_filter.mpr ⟨hx, decide_eq_true hxid⟩)
      · exact .inl (hall x hx)
  case h_9 y rest =>
    -- it is stopped and would still be reported, but was not
    split at hs <;> cases hs
    exact h.connect_next h.nodup h.one (stopNext_rest hok.1 hok.2 hP)
  case h_12 file =>
    -- nothing but the network itself is reported
    split at hs <;> cases hs
    have hall : ∀ x ∈ (if file then s.start id else s.stop id).running, x = id := by
      intro x hx
      split at hx
      · exact (mem_start.mp hx).elim (fun h => h) (hok.2 x)
      · exact hok.2 x (mem_stop.mp hx).1
    have hone : AtMostOne (if file then s.start id else s.stop id).running :=
      fun x hx z hz => (hall x hx).trans (hall z hz).symm
    have hspaces : (if file then s.start id else s.stop id).spaces = s.spaces := by
      split <;> rfl
    refine h.connect_next (hspaces.symm ▸ h.nodup) hone ⟨?_, trivial⟩
    rw [hspaces]
    exact hok.1
  case h_15 =>
    -- the start has succeeded: only a phone is left
    obtain rfl : mobile = true := hP
    cases hs
    exact h.connect_next h.nodup h.one ⟨hok.1, fun x => (hok.2 x).trans (and_iff_left rfl)⟩
  case h_16 =>
    split at hs <;> cases hs
    · exact h.connect_next h.nodup h.one ⟨hok.1, trivial⟩
    · rename_i hlast
      refine h.connect_write hok.1 (.inr ⟨rfl, hP ?_⟩)
      cases mobile <;> cases again <;> simp_all [lastFailure]
  case h_23 => cases hs
  all_goals cases hs
  · exact h.connect_next h.nodup h.one ⟨hok.1, trivial⟩
  · exact h.connect_write hok.1 (.inr ⟨rfl, hP rfl⟩)
  · exact h.connect_next h.nodup h.one ⟨hok.1, trivial⟩
  · exact h.connect_next h.nodup h.one ⟨hok.1, trivial⟩
  · -- one of the others is stopped
    rename_i y rest
    have hone : AtMostOne (s.stop y).running :=
      fun x hx z hz => h.one x (mem_stop.mp hx).1 z (mem_stop.mp hz).1
    have hok' : (stopNext rest).Ok mobile (s.stop y) id :=
      stopNext_rest hok.1 (fun x hx => hok.2 x (mem_stop.mp hx).1) fun hy => (mem_stop.mp hy).2 rfl
    have hnodup : ((s.stop y).spaces.map (·.id)).Nodup := h.nodup
    exact h.connect_next hnodup hone hok'
  · -- it would not stop, but did not run
    rename_i y rest
    exact h.connect_next h.nodup h.one (stopNext_rest hok.1 hok.2 hP)
  · have hrun : ∀ x, x ∈ (s.started mobile id).running ↔ x = id ∧ mobile = true :=
      fun _ => mem_started hok.2
    have hone : AtMostOne (s.started mobile id).running :=
      fun x hx z hz => ((hrun x).mp hx).1.trans ((hrun z).mp hz).1.symm
    have hspaces : (s.started mobile id).spaces = s.spaces := by
      unfold StoreState.started
      split <;> rfl
    have hnone : NoneConnected (s.started mobile id).spaces := hspaces.symm ▸ hok.1
    refine h.connect_next (hspaces.symm ▸ h.nodup) hone ?_
    split
    · exact ⟨hnone, hrun⟩
    · exact ⟨hnone, hrun⟩
  · exact h.connect_next h.nodup h.one ⟨hok.1, trivial⟩
  · exact h.connect_next h.nodup h.one hok
  · exact h.connect_next h.nodup h.one ⟨hok.1, trivial⟩
  · exact h.connect_next h.nodup h.one ⟨hok.1, trivial⟩
  · exact h.connect_next h.nodup h.one hok
  · exact h.connect_next h.nodup h.one hok
  · exact h.connect_write hok.1 (.inr ⟨rfl, hP rfl⟩)
  · exact h.connect_write hok.1 (.inl ⟨rfl, hok.2⟩)
  · exact h.connect_write hok.1 (.inr ⟨rfl, hP rfl⟩)

end Step

/-! ## Every interleaving -/

section Run

variable (mobile : Bool) (table : SpaceTable)

theorem spaceInv_keeps : (spaceScript mobile table).Keeps (Separate mobile) (SpaceInv mobile) where
  perm _ _ _ hw h := ⟨h.nodup, h.one, h.mode.perm hw⟩
  start _ _ _ _ _ h hP hs := h.start hP hs
  resume s ws t b s' ts h hP hs := by
    cases t with
    | load prev a => exact h.load hP hs
    | recheck a => exact h.recheck hP hs
    | connect id again a => exact h.connect hP hs
    | disconnect id a => exact h.disconnect hP hs
    | leave id a => exact h.leave hP hs

/-- At most one space is connected; when no call waits these are the spaces whose
network runs. -/
def ShowsRunning (p : Page StoreState SpaceTask) : Prop :=
  p.shared.spaces.countP (·.status = .CED) ≤ 1 ∧
    ((∀ t ∈ p.waiting, t.isTimer = true) →
      ∀ sp ∈ p.shared.spaces, sp.status = .CED ↔ sp.id ∈ p.shared.running)

theorem SpaceInv.showsRunning {p : Page StoreState SpaceTask}
    (h : SpaceInv mobile p.shared p.waiting) : ShowsRunning p :=
  ⟨(h.mode.oneConnected h.one).countP_le h.nodup, h.mode.agrees⟩

theorem spaceInv_init (first : Option Uuid) (vpn : Bool) :
    SpaceInv mobile (spaceInit first vpn).shared (spaceInit first vpn).waiting where
  nodup := List.nodup_nil
  one x hx y hy := by
    have hx : first = some x := Option.mem_toList.mp hx
    have hy : first = some y := Option.mem_toList.mp hy
    exact Option.some.inj (hx.symm.trans hy)
  mode := .loading (fun _ h => absurd h List.not_mem_nil) fun _ h => absurd h List.not_mem_nil

/-- In a run whose calls are `Separate` at most one space is ever shown as connected, and
whenever no call waits the connected spaces are those that the backend reports. -/
theorem shows_running (first : Option Uuid) (vpn : Bool)
    (acts : List (PageAct SpaceTask SpaceEvent SpaceAnswer))
    (h : Along (spaceScript mobile table).step (Script.Within (Separate mobile))
      (spaceInit first vpn) acts) :
    Always (spaceScript mobile table).step ShowsRunning (spaceInit first vpn) acts :=
  (spaceInv_keeps mobile table).always (fun _ hinv => hinv.showsRunning)
    (spaceInv_init mobile first vpn) h

end Run

theorem twoIds_nodup : ([1, 2] : List Uuid).Nodup := by decide

def twoSpaces : SpaceTable where
  ids := [1, 2]
  nodup := twoIds_nodup

/-- On a phone: the spaces are loaded, and one of them connected. -/
def connectFirst : List (PageAct SpaceTask SpaceEvent SpaceAnswer) :=
  [.start .loadSpaces,
    .resume (.load [] .list) (.reported true),
    .resume (.load [] (.listed [⟨1, .DIS⟩, ⟨2, .DIS⟩])) .done,
    .resume (.load [] (.isMobile [⟨1, .DIS⟩, ⟨2, .DIS⟩])) .done,
    .resume (.load [] (.vpnStatus [⟨1, .DIS⟩, ⟨2, .DIS⟩])) .done,
    .start (.connectSpace 1),
    .resume (.connect 1 false .isMobile) .done,
    .resume (.connect 1 false .prepare) .done,
    .resume (.connect 1 false .running) (.reported true),
    .resume (.connect 1 false .starting) .done,
    .resume (.connect 1 false (.replied true)) .done,
    .start (.vpnService true),
    .resume (.connect 1 false .startVpn) (.started true),
    .resume (.connect 1 false .poll) .done]

theorem shows_running_example : Always (spaceScript true twoSpaces).step ShowsRunning
    (spaceInit none false) connectFirst :=
  shows_running true twoSpaces none false connectFirst (by decide)

/-- They are loaded again. -/
def loadAgain : List (PageAct SpaceTask SpaceEvent SpaceAnswer) :=
  [.start .loadSpaces,
    .resume (.load [⟨1, .CED⟩, ⟨2, .DIS⟩] .list) (.reported true),
    .resume (.load [⟨1, .CED⟩, ⟨2, .DIS⟩] (.listed [⟨1, .CED⟩, ⟨2, .DIS⟩])) .done,
    .resume (.load [⟨1, .CED⟩, ⟨2, .DIS⟩] (.isMobile [⟨1, .CED⟩, ⟨2, .DIS⟩])) .done,
    .resume (.load [⟨1, .CED⟩, ⟨2, .DIS⟩] (.vpnStatus [⟨1, .CED⟩, ⟨2, .DIS⟩])) .done]

/-- The VPN is up for the first space, and the second is shown as connected. -/
theorem both_connected : ¬ Always (spaceScript true twoSpaces).step ShowsRunning
    (spaceInit none false) (connectFirst ++ loadAgain) :=
  not_always_of_run (Q := fun p => p.shared.spaces.countP (·.status = .CED) ≤ 1)
    (fun _ h => h.1) (by decide)

/-- On a desktop a space is connected, and the daemon removes its file. -/
def connectOnDesktop : List (PageAct SpaceTask SpaceEvent SpaceAnswer) :=
  [.start .loadSpaces,
    .resume (.load [] .list) (.reported true),
    .resume (.load [] (.listed [⟨1, .DIS⟩, ⟨2, .DIS⟩])) .done,
    .resume (.load [] (.isMobile [⟨1, .DIS⟩, ⟨2, .DIS⟩])) .done,
    .start (.connectSpace 1),
    .resume (.connect 1 false .isMobile) .done,
    .resume (.connect 1 false .ping) .done,
    .resume (.connect 1 false .running) (.reported true),
    .resume (.connect 1 false .starting) .done,
    .resume (.connect 1 false .services) .done,
    .resume (.connect 1 false (.replied true)) .done]

/-- A single call that succeeds: the space is connected, and nothing is reported. -/
theorem connected_unreported : ¬ Always (spaceScript false twoSpaces).step ShowsRunning
    (spaceInit none false) connectOnDesktop :=
  not_always_of_run
    (Q := fun p => p.waiting = [] → ∀ sp ∈ p.shared.spaces,
      sp.status = .CED ↔ sp.id ∈ p.shared.running)
    (fun p h hw => h.2 (by simp [hw])) (by decide)

end HomeTier.SpaceStore
