import HomeTier.Vpn.Connect

/-! # The routes of the VPN converge

Events come before the first start, during a rebuild and between its two
awaits; a busy flag, a queued flag and the routes applied decide what a rebuild
does with them. One invariant about one call of `connectWithVpn` says where its
rebuild stands (`Rebuilding`), and each part of the call keeps it.

What came before the first start is given to the VPN by the replay alone, and a
call whose `listSpaces` is rejected ends before it (`routes_lost`).
-/

namespace HomeTier.Vpn

open Lib

/-! ## What belongs to one call -/

section Tasks

variable (c : Nat)

def VpnTask.main : VpnTask → Option ConnectAt
  | .connect d a => if d = c then some a else none
  | _ => none

def VpnTask.rebuilding : VpnTask → Option RebuildAt
  | .rebuild d a => if d = c then some a else none
  | _ => none

def mains (ws : List VpnTask) : List ConnectAt := ws.filterMap (·.main c)

def rebuilds (ws : List VpnTask) : List RebuildAt := ws.filterMap (·.rebuilding c)

/-- The routes last given to `startVpn`. -/
def lastGiven : List VpnLog → Option (Finset Str)
  | [] => none
  | .startVpn d routes :: older => if d = c then some routes else lastGiven older
  | _ :: older => lastGiven older

/-- The set of routes that has come last, by an event or by the replay. -/
def lastRecorded : List VpnLog → Finset Str
  | [] => ∅
  | .begun d :: older => if d = c then ∅ else lastRecorded older
  | .meshRoutes d routes :: older => if d = c then routes.toFinset else lastRecorded older
  | _ :: older => lastRecorded older

end Tasks

/-- Up to the first start of the VPN. -/
def ConnectAt.early : ConnectAt → Bool
  | .listSpaces | .pollDelay | .settleDelay | .getMeshRoutes => false
  | _ => true

theorem mains_append (c : Nat) (ws ts : List VpnTask) :
    mains c (ws ++ ts) = mains c ws ++ mains c ts := List.filterMap_append

theorem rebuilds_append (c : Nat) (ws ts : List VpnTask) :
    rebuilds c (ws ++ ts) = rebuilds c ws ++ rebuilds c ts := List.filterMap_append

theorem Connection.changed_eq_false {k : Connection} {next : Finset Str} :
    k.changed next = false ↔ next = k.currentMeshRoutes := by
  unfold Connection.changed
  constructor
  · intro h
    simp only [ne_eq, decide_not, Bool.or_eq_false_iff, Bool.not_eq_false', decide_eq_true_eq,
      decide_eq_false_iff_not, not_exists, not_and, not_not] at h
    -- a subset of the same size
    exact Finset.eq_of_subset_of_card_le h.2 h.1.ge
  · intro h
    subst h
    simp

@[simp] theorem Connection.record_vpnStarted (k : Connection) (next : Finset Str) :
    (k.record next).vpnStarted = k.vpnStarted := rfl

@[simp] theorem Connection.record_rebuildBusy (k : Connection) (next : Finset Str) :
    (k.record next).rebuildBusy = k.rebuildBusy := rfl

theorem Connection.rebuildVpn_vpnStarted (k : Connection) :
    k.rebuildVpn.1.vpnStarted = k.vpnStarted := by
  unfold Connection.rebuildVpn Connection.rebuildLoop
  dsimp only
  split_ifs <;> rfl

theorem Connection.rebuilt_vpnStarted (k : Connection) (d : Finset Str) (yes : Bool) :
    (k.rebuilt d yes).1.vpnStarted = k.vpnStarted := by
  unfold Connection.rebuilt Connection.rebuildLoop
  dsimp only
  split_ifs <;> rfl

theorem Connection.onMeshRoutes_vpnStarted (k : Connection) (routes : List Str) :
    (k.onMeshRoutes routes).1.vpnStarted = k.vpnStarted := by
  unfold Connection.onMeshRoutes
  split
  · exact (k.record _).rebuildVpn_vpnStarted
  · rfl

theorem Connection.rebuildVpn_currentMeshRoutes (k : Connection) :
    k.rebuildVpn.1.currentMeshRoutes = k.currentMeshRoutes := by
  unfold Connection.rebuildVpn Connection.rebuildLoop
  dsimp only
  split_ifs <;> rfl

theorem Connection.rebuilt_currentMeshRoutes (k : Connection) (d : Finset Str) (yes : Bool) :
    (k.rebuilt d yes).1.currentMeshRoutes = k.currentMeshRoutes := by
  unfold Connection.rebuilt Connection.rebuildLoop
  dsimp only
  split_ifs <;> rfl

/-- A set that is not `changed` has been recorded before. -/
theorem Connection.onMeshRoutes_currentMeshRoutes (k : Connection) (routes : List Str) :
    (k.onMeshRoutes routes).1.currentMeshRoutes = routes.toFinset := by
  unfold Connection.onMeshRoutes
  split
  · exact (k.record _).rebuildVpn_currentMeshRoutes
  · rename_i hsame
    exact (Connection.changed_eq_false.mp (Bool.eq_false_of_not_eq_true hsame)).symm

theorem Connection.onMeshRoutes_virtualIpSubnet (k : Connection) (routes : List Str) :
    (k.onMeshRoutes routes).1.virtualIpSubnet = k.virtualIpSubnet := by
  unfold Connection.onMeshRoutes Connection.rebuildVpn Connection.rebuildLoop
  dsimp only
  split_ifs <;> rfl

/-! ## Where a rebuild stands -/

/-- With the routes `given` last to `startVpn`; `settled`: nothing of
`connectWithVpn` itself waits. -/
inductive Rebuilding (k : Connection) (given : Option (Finset Str)) (settled : Prop) :
    List RebuildAt → Prop where
  | before : k.vpnStarted = false → k.rebuildBusy = false → (settled → given = none) →
    Rebuilding k given settled []
  | idle : k.vpnStarted = true → k.rebuildBusy = false → k.appliedRoutes = given →
    (settled → given = some k.desiredRoutes) → Rebuilding k given settled []
  | stopping (d : Finset Str) : k.vpnStarted = true → k.rebuildBusy = true →
    k.appliedRoutes = given → d = k.desiredRoutes ∨ k.rebuildQueued = true →
    Rebuilding k given settled [.stopVpn d]
  | starting (d : Finset Str) : k.vpnStarted = true → k.rebuildBusy = true → given = some d →
    d = k.desiredRoutes ∨ k.rebuildQueued = true → Rebuilding k given settled [.startVpn d]

namespace Rebuilding

variable {k : Connection} {given : Option (Finset Str)} {settled settled' : Prop}
  {l : List RebuildAt}

theorem length_le (h : Rebuilding k given settled l) : l.length ≤ 1 := by
  cases h <;> simp

theorem imp (h : Rebuilding k given settled l) (hs : settled' → settled) :
    Rebuilding k given settled' l := by
  cases h with
  | before h₁ h₂ h₃ => exact .before h₁ h₂ (h₃ ∘ hs)
  | idle h₁ h₂ h₃ h₄ => exact .idle h₁ h₂ h₃ (h₄ ∘ hs)
  | stopping d h₁ h₂ h₃ h₄ => exact .stopping d h₁ h₂ h₃ h₄
  | starting d h₁ h₂ h₃ h₄ => exact .starting d h₁ h₂ h₃ h₄

/-- `connectWithVpn` ends without a rebuild: the one that runs is enough, or the
routes applied are those desired. -/
theorem settle (h : Rebuilding k given settled l) (hs : k.vpnStarted = true)
    (hk : k.rebuildBusy = true ∨ k.appliedRoutes = some k.desiredRoutes) :
    Rebuilding k given settled' l := by
  cases h with
  | before h₁ => exact absurd (hs.symm.trans h₁) (by decide)
  | idle h₁ h₂ h₃ =>
    refine .idle h₁ h₂ h₃ fun _ => ?_
    rcases hk with hbusy | happlied
    · exact absurd (hbusy.symm.trans h₂) (by decide)
    · exact h₃.symm.trans happlied
  | stopping d h₁ h₂ h₃ h₄ => exact .stopping d h₁ h₂ h₃ h₄
  | starting d h₁ h₂ h₃ h₄ => exact .starting d h₁ h₂ h₃ h₄

/-- The head of the loop compares the routes applied with the ones desired now. -/
theorem loop (hs : k.vpnStarted = true) (hb : k.rebuildBusy = true) (ha : k.appliedRoutes = given) :
    Rebuilding k.rebuildLoop.1 given settled k.rebuildLoop.2.toList := by
  unfold Connection.rebuildLoop
  dsimp only
  split
  · rename_i heq
    exact .idle hs rfl ha fun _ => ha.symm.trans heq
  · exact .stopping _ hs hb ha (.inl rfl)

/-- A set is recorded and `rebuildVpn` called: it starts a rebuild, leaves a note
to the one that runs, or comes too early. -/
theorem record (h : Rebuilding k given settled l)
    (hs : k.vpnStarted = false → settled' → settled) (next : Finset Str) :
    Rebuilding (k.record next).rebuildVpn.1 given settled'
      (l ++ (k.record next).rebuildVpn.2.toList) := by
  unfold Connection.rebuildVpn
  rw [Connection.record_vpnStarted, Connection.record_rebuildBusy]
  cases h with
  | before h₁ h₂ h₃ =>
    rw [h₁]
    exact .before h₁ h₂ (h₃ ∘ hs h₁)
  | idle h₁ h₂ h₃ =>
    rw [h₁, h₂]
    exact loop rfl rfl h₃
  | stopping d h₁ h₂ h₃ =>
    rw [h₁, h₂]
    exact .stopping d rfl rfl h₃ (.inr rfl)
  | starting d h₁ h₂ h₃ =>
    rw [h₁, h₂]
    exact .starting d rfl rfl h₃ (.inr rfl)

theorem onMeshRoutes (h : Rebuilding k given settled l) (routes : List Str) :
    Rebuilding (k.onMeshRoutes routes).1 given settled
      (l ++ (k.onMeshRoutes routes).2.toList) := by
  unfold Connection.onMeshRoutes
  split
  · exact h.record (fun _ => id) _
  · simpa using h

/-- `stopVpn` has answered: the routes are given to `startVpn`. -/
theorem stopped {d : Finset Str} (h : Rebuilding k given settled [.stopVpn d]) :
    Rebuilding k (some d) settled [.startVpn d] := by
  cases h with
  | stopping _ h₁ h₂ _ h₄ => exact .starting d h₁ h₂ rfl h₄

/-- `startVpn` has answered: an event since then sends the loop round again. -/
theorem rebuilt {d : Finset Str} (h : Rebuilding k given settled [.startVpn d]) :
    Rebuilding (k.rebuilt d true).1 given settled (k.rebuilt d true).2.toList := by
  cases h with
  | starting _ h₁ h₂ h₃ h₄ =>
    unfold Connection.rebuilt
    cases hq : k.rebuildQueued with
    | true => exact loop h₁ h₂ h₃.symm
    | false =>
      refine .idle h₁ rfl h₃.symm fun _ => ?_
      rcases h₄ with heq | hq'
      · exact h₃.trans (congrArg some heq)
      · exact absurd (hq.symm.trans hq') Bool.false_ne_true

theorem nil_of_early (h : Rebuilding k given settled l) (hs : k.vpnStarted = false) :
    l = [] ∧ k.rebuildBusy = false ∧ (settled → given = none) := by
  cases h with
  | before _ hb hg => exact ⟨rfl, hb, hg⟩
  | idle h₁ => exact absurd (hs.symm.trans h₁) Bool.false_ne_true
  | stopping _ h₁ => exact absurd (hs.symm.trans h₁) Bool.false_ne_true
  | starting _ h₁ => exact absurd (hs.symm.trans h₁) Bool.false_ne_true

end Rebuilding

/-! ## The invariant -/

/-- `startVpn` fails for the call `c`. -/
def failsToStart (c : Nat) : PageAct VpnTask VpnEvent VpnAnswer → Bool
  | .resume (.connect d .startVpn) (.started false) => d = c
  | .resume (.rebuild d (.startVpn _)) (.started false) => d = c
  | _ => false

def StartsVpn (c : Nat) (_ : VpnState) (_ : List VpnTask)
    (a : PageAct VpnTask VpnEvent VpnAnswer) : Prop := failsToStart c a = false

instance (c : Nat) (s : VpnState) (ws : List VpnTask) (a : PageAct VpnTask VpnEvent VpnAnswer) :
    Decidable (StartsVpn c s ws a) := inferInstanceAs (Decidable (_ = false))

/-- `listSpaces` is rejected for the call `c`. -/
def failsToList (c : Nat) : PageAct VpnTask VpnEvent VpnAnswer → Bool
  | .resume (.connect d .listSpaces) .failed => d = c
  | _ => false

/-- Where `listSpaces` is rejected, a rebuild runs or the VPN has the routes
recorded so far. -/
def ListsOrSettled (c : Nat) (s : VpnState) (_ : List VpnTask)
    (a : PageAct VpnTask VpnEvent VpnAnswer) : Prop :=
  failsToList c a = true →
    (s.conn c).rebuildBusy = true ∨ (s.conn c).appliedRoutes = some (s.conn c).desiredRoutes

instance (c : Nat) (s : VpnState) (ws : List VpnTask) (a : PageAct VpnTask VpnEvent VpnAnswer) :
    Decidable (ListsOrSettled c s ws a) := inferInstanceAs (Decidable (_ → _))

def Converges (c : Nat) (s : VpnState) (ws : List VpnTask)
    (a : PageAct VpnTask VpnEvent VpnAnswer) : Prop :=
  StartsVpn c s ws a ∧ ListsOrSettled c s ws a

instance (c : Nat) (s : VpnState) (ws : List VpnTask) (a : PageAct VpnTask VpnEvent VpnAnswer) :
    Decidable (Converges c s ws a) := inferInstanceAs (Decidable (_ ∧ _))

/-- What has been given to `startVpn` while `connectWithVpn` waits at `a`. -/
def ConnectAt.givenAt (k : Connection) (a : ConnectAt) : Option (Finset Str) :=
  if a = .startVpn then some {k.virtualIpSubnet} else none

structure VpnInv (c : Nat) (s : VpnState) (ws : List VpnTask) : Prop where
  one : (mains c ws).length ≤ 1
  fresh : s.begun ≤ c → mains c ws = [] ∧ (s.conn c).vpnStarted = false
  phase : ∀ a ∈ mains c ws, (s.conn c).vpnStarted = !a.early
  given : ∀ a ∈ mains c ws, a.early = true →
    a ≠ .stopVpn ∧ lastGiven c s.log = a.givenAt (s.conn c)
  rebuilding : Rebuilding (s.conn c) (lastGiven c s.log) (mains c ws = []) (rebuilds c ws)
  recorded : (s.conn c).currentMeshRoutes = lastRecorded c s.log

namespace VpnInv

variable {c : Nat} {s s' : VpnState} {ws ws' ts : List VpnTask} {t : VpnTask}

/-- `VpnInv c` reads nothing that belongs to another call. -/
theorem frame (h : VpnInv c s ws) (hm : mains c ws' = mains c ws)
    (hr : rebuilds c ws' = rebuilds c ws) (hk : s'.conn c = s.conn c) (hb : s.begun ≤ s'.begun)
    (hg : lastGiven c s'.log = lastGiven c s.log)
    (hl : lastRecorded c s'.log = lastRecorded c s.log) : VpnInv c s' ws' where
  one := hm ▸ h.one
  fresh hle := by
    rw [hm, hk]
    exact h.fresh (hb.trans hle)
  phase := by
    rw [hm, hk]
    exact h.phase
  given := by
    rw [hm, hg, hk]
    exact h.given
  rebuilding := by
    rw [hr, hk, hg, hm]
    exact h.rebuilding
  recorded := by
    rw [hk, hl]
    exact h.recorded

theorem perm (hw : ws.Perm ws') (h : VpnInv c s ws) : VpnInv c s ws' :=
  h.frame (Script.eq_of_perm_of_length_le (hw.filterMap _) h.one).symm
    (Script.eq_of_perm_of_length_le (hw.filterMap _) h.rebuilding.length_le).symm rfl le_rfl rfl rfl

/-- While a part of the call waits, no other does. -/
theorem mains_eq_nil {a : ConnectAt} (h : VpnInv c s (.connect c a :: ws)) :
    mains c ws = [] := by
  have hone := h.one
  rw [show mains c (.connect c a :: ws) = a :: mains c ws by simp [mains, VpnTask.main]] at hone
  simpa using hone

/-- The call goes on before its first start: its variables are as new ones in
what the invariant reads. -/
theorem connect_early {a : ConnectAt} (h : VpnInv c s (.connect c a :: ws)) (ha : a.early = true)
    (hb : s'.begun = s.begun) (hv : (s'.conn c).vpnStarted = (s.conn c).vpnStarted)
    (hbusy : (s'.conn c).rebuildBusy = (s.conn c).rebuildBusy)
    (hl : (s'.conn c).currentMeshRoutes = lastRecorded c s'.log) (hr : rebuilds c ts = [])
    (ht : (mains c ts).length ≤ 1) (hearly : ∀ b ∈ mains c ts, b.early = true)
    (hg : ∀ b ∈ mains c ts, b ≠ .stopVpn ∧ lastGiven c s'.log = b.givenAt (s'.conn c))
    (hend : mains c ts = [] → lastGiven c s'.log = none) :
    VpnInv c s' (ws ++ ts) := by
  have hm : mains c (.connect c a :: ws) = a :: mains c ws := by simp [mains, VpnTask.main]
  have hws : mains c (ws ++ ts) = mains c ts := by
    rw [mains_append, h.mains_eq_nil, List.nil_append]
  have hs : (s.conn c).vpnStarted = false := by
    rw [h.phase a (hm ▸ List.mem_cons_self), ha]
    rfl
  have hnil := h.rebuilding.nil_of_early hs
  constructor
  · rw [hws]
    exact ht
  · intro hle
    -- a call that waits has begun
    exact absurd (h.fresh (hb ▸ hle)).1 (hm ▸ List.cons_ne_nil _ _)
  · rw [hws]
    intro b hmem
    rw [hearly b hmem]
    exact hv.trans hs
  · rw [hws]
    exact fun b hmem _ => hg b hmem
  · rw [rebuilds_append, hr, show rebuilds c ws = [] from hnil.1, hws]
    exact .before (hv.trans hs) (hbusy.trans hnil.2.1) hend
  · exact hl

/-- The call goes on after its first start. -/
theorem connect_late {a : ConnectAt} (h : VpnInv c s (.connect c a :: ws))
    (hb : s'.begun = s.begun) (ht : (mains c ts).length ≤ 1)
    (hlate : ∀ b ∈ mains c ts, b.early = false) (hv : (s'.conn c).vpnStarted = true)
    (hreb : Rebuilding (s'.conn c) (lastGiven c s'.log) (mains c ts = [])
      (rebuilds c ws ++ rebuilds c ts))
    (hl : (s'.conn c).currentMeshRoutes = lastRecorded c s'.log) : VpnInv c s' (ws ++ ts) := by
  have hm : mains c (.connect c a :: ws) = a :: mains c ws := by simp [mains, VpnTask.main]
  have hws : mains c (ws ++ ts) = mains c ts := by
    rw [mains_append, h.mains_eq_nil, List.nil_append]
  constructor
  · rw [hws]
    exact ht
  · intro hle
    exact absurd (h.fresh (hb ▸ hle)).1 (hm ▸ List.cons_ne_nil _ _)
  · rw [hws]
    intro b hmem
    rw [hlate b hmem]
    exact hv
  · rw [hws]
    intro b hmem hearly
    exact absurd (hearly.symm.trans (hlate b hmem)) (by decide)
  · rw [rebuilds_append, hws]
    exact hreb
  · exact hl

end VpnInv

/-! ## What the other calls leave alone -/

/-- Nothing of the call `c` has changed, and nothing of it waits in `ts`. -/
structure Apart (c : Nat) (s s' : VpnState) (ts : List VpnTask) : Prop where
  conn : s'.conn c = s.conn c
  begun : s'.begun = s.begun
  given : lastGiven c s'.log = lastGiven c s.log
  recorded : lastRecorded c s'.log = lastRecorded c s.log
  mains : mains c ts = []
  rebuilds : rebuilds c ts = []

section Apart

variable {c d : Nat} {s s' : VpnState} {ts : List VpnTask}

@[simp] theorem VpnState.unlisten_conn (s : VpnState) : s.unlisten.conn = s.conn := by
  unfold VpnState.unlisten
  split <;> rfl

@[simp] theorem VpnState.unlisten_begun (s : VpnState) : s.unlisten.begun = s.begun := by
  unfold VpnState.unlisten
  split <;> rfl

@[simp] theorem VpnState.unlisten_log (s : VpnState) : s.unlisten.log = s.log := by
  unfold VpnState.unlisten
  split <;> rfl

@[simp] theorem VpnState.setConn_self (s : VpnState) (k : Connection) :
    (s.setConn c k).conn c = k := Function.update_self ..

theorem VpnState.setConn_of_ne (hd : d ≠ c) (s : VpnState) (k : Connection) :
    (s.setConn d k).conn c = s.conn c := Function.update_of_ne hd.symm ..

@[simp] theorem mains_main (d : Nat) (a : ConnectAt) (ws : List VpnTask) :
    mains c (.connect d a :: ws) = (if d = c then [a] else []) ++ mains c ws := by
  unfold mains
  rw [List.filterMap_cons]
  by_cases hd : d = c <;> simp [VpnTask.main, hd]

@[simp] theorem mains_rebuild (d : Nat) (a : RebuildAt) (ws : List VpnTask) :
    mains c (.rebuild d a :: ws) = mains c ws := rfl

@[simp] theorem mains_disconnect (a : DisconnectAt) (ws : List VpnTask) :
    mains c (.disconnect a :: ws) = mains c ws := rfl

@[simp] theorem mains_nil : mains c [] = [] := rfl

@[simp] theorem mains_rebuilds (d : Nat) (l : List RebuildAt) :
    mains c (l.map (.rebuild d)) = [] := by
  induction l with
  | nil => rfl
  | cons a l ih => exact ih

@[simp] theorem rebuilds_main (d : Nat) (a : ConnectAt) (ws : List VpnTask) :
    rebuilds c (.connect d a :: ws) = rebuilds c ws := rfl

@[simp] theorem rebuilds_disconnect (a : DisconnectAt) (ws : List VpnTask) :
    rebuilds c (.disconnect a :: ws) = rebuilds c ws := rfl

@[simp] theorem rebuilds_nil : rebuilds c [] = [] := rfl

theorem rebuilds_self (l : List RebuildAt) : rebuilds c (l.map (.rebuild c)) = l := by
  induction l with
  | nil => rfl
  | cons a l ih =>
    unfold rebuilds at ih ⊢
    rw [List.map_cons, List.filterMap_cons_some (b := a) (by simp [VpnTask.rebuilding]), ih]

theorem rebuilds_of_ne (hd : d ≠ c) (l : List RebuildAt) :
    rebuilds c (l.map (.rebuild d)) = [] := by
  induction l with
  | nil => rfl
  | cons a l ih =>
    unfold rebuilds at ih ⊢
    rw [List.map_cons, List.filterMap_cons_none (by simp [VpnTask.rebuilding, hd]), ih]

/-- A rebuild of another call. -/
theorem Apart.withRebuild (hd : d ≠ c) (h : Apart c s s' []) (r : Connection × Option RebuildAt) :
    Apart c s (s'.withRebuild d r).1 (s'.withRebuild d r).2 where
  conn := (VpnState.setConn_of_ne hd s' r.1).trans h.conn
  begun := h.begun
  given := h.given
  recorded := h.recorded
  mains := mains_rebuilds d _
  rebuilds := rebuilds_of_ne hd _

@[simp] theorem lastGiven_note_of_ne (hd : d ≠ c) (routes : Finset Str) (log : List VpnLog) :
    lastGiven c (.startVpn d routes :: log) = lastGiven c log := if_neg hd

/-- What is noted says nothing of `c`. -/
def VpnLog.Apart (c : Nat) : VpnLog → Prop
  | .startVpn d _ => d ≠ c
  | .begun d => d ≠ c
  | .meshRoutes d _ => d ≠ c
  | _ => True

theorem Apart.note {e : VpnLog} (he : e.Apart c) (h : Apart c s s' ts) :
    Apart c s (s'.note e) ts where
  conn := h.conn
  begun := h.begun
  given := by
    rw [← h.given]
    cases e with
    | startVpn d routes => exact if_neg he
    | _ => rfl
  recorded := by
    rw [← h.recorded]
    cases e with
    | begun d => exact if_neg he
    | meshRoutes d routes => exact if_neg he
    | _ => rfl
  mains := h.mains
  rebuilds := h.rebuilds

theorem Apart.refl (hm : Vpn.mains c ts = []) (hr : Vpn.rebuilds c ts = []) :
    Apart c s s ts := ⟨rfl, rfl, rfl, rfl, hm, hr⟩

theorem Apart.setConn (hd : d ≠ c) (h : Apart c s s' ts) (k : Connection) :
    Apart c s (s'.setConn d k) ts :=
  { h with conn := (VpnState.setConn_of_ne hd s' k).trans h.conn }

theorem Apart.unlisten (h : Apart c s s' ts) : Apart c s s'.unlisten ts where
  conn := by rw [VpnState.unlisten_conn, h.conn]
  begun := by rw [VpnState.unlisten_begun, h.begun]
  given := by rw [VpnState.unlisten_log, h.given]
  recorded := by rw [VpnState.unlisten_log, h.recorded]
  mains := h.mains
  rebuilds := h.rebuilds

theorem apart_beforeListen (hd : d ≠ c) (found : Finset Str) :
    Apart c s (s.beforeListen d found).1 (s.beforeListen d found).2 := by
  unfold VpnState.beforeListen
  dsimp only
  split
  · exact ((Apart.refl (by simp [hd]) rfl).setConn hd _).unlisten
  · exact (Apart.refl rfl rfl).setConn hd _

theorem apart_replay (hd : d ≠ c) (current : Option (List Str)) :
    Apart c s (s.replay d current).1 (s.replay d current).2 := by
  unfold VpnState.replay
  cases current with
  | none => exact (Apart.refl rfl rfl).withRebuild hd _
  | some routes =>
    exact ((Apart.refl rfl rfl).note (e := .meshRoutes d routes) hd).withRebuild hd _

theorem apart_connect (hd : d ≠ c) {a : ConnectAt} {b : VpnAnswer} {r : VpnState × List VpnTask}
    (h : s.connectStep d a b = some r) : Apart c s r.1 r.2 := by
  have hmain : ∀ a, mains c [.connect d a] = [] := fun a => by simp [hd]
  unfold VpnState.connectStep at h
  split at h
  all_goals cases h
  all_goals
    first
    | exact apart_beforeListen hd _
    | exact apart_replay hd _
    | exact .refl rfl rfl
    | exact .refl (hmain _) rfl
    | exact (Apart.refl rfl rfl).unlisten
    | exact (Apart.refl (hmain _) rfl).setConn hd _
    | exact ⟨rfl, rfl, rfl, rfl, hmain _, rfl⟩
    | exact (Apart.refl (hmain _) rfl).note (e := .connectSpace d) trivial
    | exact (Apart.refl (hmain _) rfl).note (e := .startVpn d _) hd

theorem apart_rebuild (hd : d ≠ c) {a : RebuildAt} {b : VpnAnswer} {r : VpnState × List VpnTask}
    (h : s.rebuildStep d a b = some r) : Apart c s r.1 r.2 := by
  unfold VpnState.rebuildStep at h
  split at h
  all_goals cases h
  · exact (Apart.refl rfl (rebuilds_of_ne hd [_])).note (e := .startVpn d _) hd
  · exact (Apart.refl rfl rfl).withRebuild hd _

theorem apart_disconnect {a : DisconnectAt} {b : VpnAnswer} {r : VpnState × List VpnTask}
    (h : s.disconnectStep a b = some r) : Apart c s r.1 r.2 := by
  unfold VpnState.disconnectStep at h
  split at h
  all_goals cases h
  all_goals
    first
    | exact .refl rfl rfl
    | exact (Apart.refl rfl rfl).unlisten
    | exact (Apart.refl rfl rfl).note (e := .disconnected) trivial

end Apart

/-- Steps of the others keep the invariant. -/
theorem VpnInv.apart {c : Nat} {s s' : VpnState} {ws ts : List VpnTask} {t : VpnTask}
    (h : VpnInv c s (t :: ws)) (hm : t.main c = none) (hr : t.rebuilding c = none)
    (ha : Apart c s s' ts) : VpnInv c s' (ws ++ ts) := by
  apply h.frame _ _ ha.conn ha.begun.ge ha.given ha.recorded
  · rw [mains_append, ha.mains, List.append_nil]
    exact (List.filterMap_cons_none hm).symm
  · rw [rebuilds_append, ha.rebuilds, List.append_nil]
    exact (List.filterMap_cons_none hr).symm

/-! ## The steps of the call itself -/

section Self

variable {c : Nat} {s s' : VpnState} {ws ts : List VpnTask}

/-- One that changes no variable of the call and notes no start. -/
theorem VpnInv.connect_on {a : ConnectAt} (h : VpnInv c s (.connect c a :: ws))
    (ha : a.early = true) (hstart : a ≠ .startVpn) (hk : s'.conn c = s.conn c)
    (hb : s'.begun = s.begun) (hg : lastGiven c s'.log = lastGiven c s.log)
    (hl : lastRecorded c s'.log = lastRecorded c s.log) (hr : rebuilds c ts = [])
    (ht : (mains c ts).length ≤ 1) (hearly : ∀ b ∈ mains c ts, b.early = true)
    (hnew : ∀ b ∈ mains c ts, b ≠ .stopVpn ∧ b ≠ .startVpn) : VpnInv c s' (ws ++ ts) := by
  have hnone : lastGiven c s'.log = none := by
    rw [hg, (h.given a (by simp) ha).2]
    exact if_neg hstart
  refine h.connect_early ha hb (by rw [hk]) (by rw [hk]) ?_ hr ht hearly ?_ fun _ => hnone
  · rw [hk, hl]
    exact h.recorded
  · intro b hmem
    refine ⟨(hnew b hmem).1, hnone.trans ?_⟩
    exact (if_neg (hnew b hmem).2).symm

theorem VpnInv.connect_wait {a b : ConnectAt} (h : VpnInv c s (.connect c a :: ws))
    (ha : a.early = false) (hb : b.early = false) : VpnInv c s (ws ++ [.connect c b]) := by
  refine h.connect_late rfl (by simp) (by simp [hb]) ?_ ?_ h.recorded
  · rw [h.phase a (by simp), ha]
    rfl
  · rw [show rebuilds c [.connect c b] = [] from rfl, List.append_nil]
    exact h.rebuilding.imp fun hnil => absurd hnil (by simp)

theorem VpnInv.beforeListen (h : VpnInv c s (.connect c .detectLanSubnets :: ws))
    (found : Finset Str) : VpnInv c (s.beforeListen c found).1 (ws ++ (s.beforeListen c found).2) := by
  have hnone : lastGiven c s.log = none := (h.given .detectLanSubnets (by simp) rfl).2
  have hrec := h.recorded
  unfold VpnState.beforeListen
  dsimp only
  split
  · apply h.connect_early rfl
    all_goals simp [VpnState.setConn, ConnectAt.early, ConnectAt.givenAt, hnone, hrec]
  · apply h.connect_early rfl
    all_goals simp [VpnState.setConn, hnone, hrec]

/-- The first start: from now on events make rebuilds. -/
theorem VpnInv.started (h : VpnInv c s (.connect c .startVpn :: ws)) :
    VpnInv c (s.setConn c { s.conn c with
      vpnStarted := true, appliedRoutes := some {(s.conn c).virtualIpSubnet} })
      (ws ++ [.connect c .listSpaces]) := by
  have hs : (s.conn c).vpnStarted = false := h.phase .startVpn (by simp)
  have hg : lastGiven c s.log = _ := (h.given .startVpn (by simp) rfl).2
  have hnil := h.rebuilding.nil_of_early hs
  rw [rebuilds_main] at hnil
  refine h.connect_late rfl (by simp) (by simp [ConnectAt.early]) (by simp) ?_ ?_
  · rw [VpnState.setConn_self, hnil.1]
    -- the replay is still to come
    exact .idle rfl hnil.2.1 hg.symm fun hend => absurd hend (by simp)
  · rw [VpnState.setConn_self]
    exact h.recorded

/-- A set that has come is recorded, and `rebuildVpn` called; the call of
`connectWithVpn` has ended. -/
theorem VpnInv.replay_record (h : VpnInv c s (.connect c .getMeshRoutes :: ws))
    (hb : s'.begun = s.begun) (hg : lastGiven c s'.log = lastGiven c s.log) {next : Finset Str}
    (hl : lastRecorded c s'.log = next) :
    VpnInv c (s'.withRebuild c ((s.conn c).record next).rebuildVpn).1
      (ws ++ (s'.withRebuild c ((s.conn c).record next).rebuildVpn).2) := by
  have hs : (s.conn c).vpnStarted = true := h.phase .getMeshRoutes (by simp)
  have hself : (s'.withRebuild c ((s.conn c).record next).rebuildVpn).1.conn c =
      ((s.conn c).record next).rebuildVpn.1 := s'.setConn_self _
  have hmains : mains c (s'.withRebuild c ((s.conn c).record next).rebuildVpn).2 = [] :=
    mains_rebuilds c _
  refine h.connect_late hb ?_ ?_ ?_ ?_ ?_
  · rw [hmains]
    exact Nat.zero_le _
  · intro b hmem
    exact absurd (hmains ▸ hmem) List.not_mem_nil
  · rw [hself, Connection.rebuildVpn_vpnStarted]
    exact hs
  · rw [hself]
    show Rebuilding _ (lastGiven c s'.log) _
      (rebuilds c ws ++ rebuilds c (((s.conn c).record next).rebuildVpn.2.toList.map (.rebuild c)))
    rw [rebuilds_self, hg]
    exact h.rebuilding.record (fun hf => absurd (hs.symm.trans hf) (by decide)) next
  · rw [hself, Connection.rebuildVpn_currentMeshRoutes]
    exact hl.symm

/-- The replay: the answer is the set that has come last, whether it differs from
the one before or not; without an answer that one stays. -/
theorem VpnInv.replay (h : VpnInv c s (.connect c .getMeshRoutes :: ws))
    (current : Option (List Str)) :
    VpnInv c (s.replay c current).1 (ws ++ (s.replay c current).2) := by
  unfold VpnState.replay
  cases current with
  | none => exact h.replay_record rfl rfl h.recorded.symm
  | some routes =>
    have hnoted : lastRecorded c (s.note (.meshRoutes c routes)).log = routes.toFinset := if_pos rfl
    dsimp only
    split
    · refine h.replay_record ?_ ?_ hnoted
      all_goals rfl
    · rename_i hsame
      have heq := Connection.changed_eq_false.mp (Bool.eq_false_of_not_eq_true hsame)
      refine h.replay_record ?_ ?_ (hnoted.trans heq)
      all_goals rfl

/-- `listSpaces` is rejected: there is no replay. -/
theorem VpnInv.unlisted (h : VpnInv c s (.connect c .listSpaces :: ws))
    (hk : (s.conn c).rebuildBusy = true ∨
      (s.conn c).appliedRoutes = some (s.conn c).desiredRoutes) : VpnInv c s (ws ++ []) := by
  have hs : (s.conn c).vpnStarted = true := h.phase .listSpaces (by simp)
  refine h.connect_late rfl (by simp) (by simp) hs ?_ h.recorded
  exact (List.append_nil (rebuilds c ws)).symm ▸ h.rebuilding.settle hs hk

theorem VpnInv.connect_self {a : ConnectAt} {b : VpnAnswer} {r : VpnState × List VpnTask}
    (h : VpnInv c s (.connect c a :: ws)) (hP : Converges c s ws (.resume (.connect c a) b))
    (hr : s.connectStep c a b = some r) : VpnInv c r.1 (ws ++ r.2) := by
  unfold VpnState.connectStep at hr
  split at hr
  all_goals cases hr
  all_goals
    first
    | exact h.beforeListen _
    | exact h.started
    | exact h.replay _
    | exact h.connect_wait rfl rfl
    | skip
  case h_13.refl =>
    -- the routes of the first start are noted
    have hrec := h.recorded
    apply h.connect_early rfl
    all_goals simp [VpnState.note, ConnectAt.early, lastGiven, lastRecorded, ConnectAt.givenAt, hrec]
  case h_17.refl => exact absurd hP.1 (by simp [StartsVpn, failsToStart])
  case h_19.refl => exact absurd rfl (h.given .stopVpn (by simp) rfl).1
  case h_22.refl => exact h.unlisted (hP.2 (by simp [failsToList]))
  all_goals
    apply h.connect_on rfl
    all_goals
      simp [VpnState.callConnectSpace, VpnState.callConnectSpaceDesktop, VpnState.note,
        ConnectAt.early, lastGiven, lastRecorded]

/-- A rebuild goes on; the main part of the call is not touched. -/
theorem VpnInv.rebuild_on {a : RebuildAt} (h : VpnInv c s (.rebuild c a :: ws))
    (hb : s'.begun = s.begun) (hv : (s'.conn c).vpnStarted = true)
    (hs : (s.conn c).vpnStarted = true) (hm : mains c ts = [])
    (hreb : Rebuilding (s'.conn c) (lastGiven c s'.log) (mains c ws = [])
      (rebuilds c ws ++ rebuilds c ts))
    (hl : (s'.conn c).currentMeshRoutes = lastRecorded c s'.log) : VpnInv c s' (ws ++ ts) := by
  have hmains : mains c (ws ++ ts) = mains c (.rebuild c a :: ws) := by
    rw [mains_append, hm, List.append_nil, mains_rebuild]
  constructor
  · rw [hmains]
    exact h.one
  · intro hle
    exact absurd (hs.symm.trans (h.fresh (hb ▸ hle)).2) (by decide)
  · rw [hmains]
    intro b hmem
    rw [hv, ← hs]
    exact h.phase b hmem
  · rw [hmains]
    intro b hmem hearly
    -- the first start is over
    have hphase := hs.symm.trans (h.phase b hmem)
    rw [hearly] at hphase
    exact absurd hphase (by decide)
  · rw [rebuilds_append, hmains]
    exact hreb
  · exact hl

theorem VpnInv.rebuild_self {a : RebuildAt} {b : VpnAnswer} {r : VpnState × List VpnTask}
    (h : VpnInv c s (.rebuild c a :: ws)) (hP : Converges c s ws (.resume (.rebuild c a) b))
    (hr : s.rebuildStep c a b = some r) : VpnInv c r.1 (ws ++ r.2) := by
  have hcons : rebuilds c (.rebuild c a :: ws) = a :: rebuilds c ws := by
    simp [rebuilds, VpnTask.rebuilding]
  have hreb := h.rebuilding
  rw [hcons] at hreb
  -- one rebuild of a call at a time
  have hws : rebuilds c ws = [] := by
    have hone := hreb.length_le
    simpa using hone
  rw [hws] at hreb
  have hs : (s.conn c).vpnStarted = true := by
    cases hreb <;> assumption
  unfold VpnState.rebuildStep at hr
  split at hr
  all_goals cases hr
  case h_1.refl d =>
    refine h.rebuild_on rfl hs hs rfl ?_ h.recorded
    rw [hws, List.nil_append]
    show Rebuilding (s.conn c) (lastGiven c (.startVpn c d :: s.log)) (mains c ws = [])
      (rebuilds c ([.startVpn d].map (.rebuild c)))
    rw [rebuilds_self, show lastGiven c (.startVpn c d :: s.log) = some d from if_pos rfl]
    exact hreb.stopped
  case h_2.refl d yes =>
    have hyes : yes = true := by
      cases yes with
      | true => rfl
      | false => exact absurd hP.1 (by simp [StartsVpn, failsToStart])
    subst hyes
    refine h.rebuild_on rfl ?_ hs (mains_rebuilds c _) ?_ ?_
    · show ((s.setConn c ((s.conn c).rebuilt d true).1).conn c).vpnStarted = true
      rw [VpnState.setConn_self, Connection.rebuilt_vpnStarted, hs]
    · rw [hws, List.nil_append]
      show Rebuilding ((s.setConn c ((s.conn c).rebuilt d true).1).conn c) _ _
        (rebuilds c (((s.conn c).rebuilt d true).2.toList.map (.rebuild c)))
      rw [VpnState.setConn_self, rebuilds_self]
      exact hreb.rebuilt
    · show ((s.setConn c ((s.conn c).rebuilt d true).1).conn c).currentMeshRoutes = _
      rw [VpnState.setConn_self, Connection.rebuilt_currentMeshRoutes]
      exact h.recorded

end Self

/-! ## Calls and events -/

section Start

variable {c d : Nat} {s : VpnState} {ws : List VpnTask}

/-- A new call has variables of its own. -/
theorem VpnInv.connect_new (h : VpnInv c s ws) (ip : Str) (a : ConnectAt) (ha : a.early = true)
    (hstart : a ≠ .startVpn) (hstop : a ≠ .stopVpn) {s' : VpnState} (hb : s'.begun = s.begun + 1)
    (hconn : s'.conn = Function.update s.conn s.begun (newConnection ip))
    (hg : lastGiven c s'.log = lastGiven c s.log)
    (hl : lastRecorded c s'.log = if s.begun = c then ∅ else lastRecorded c s.log) :
    VpnInv c s' (ws ++ [.connect s.begun a]) := by
  by_cases hc : s.begun = c
  · have hfresh := h.fresh hc.le
    have hnil := h.rebuilding.nil_of_early hfresh.2
    have hnone : lastGiven c s'.log = none := hg.trans (hnil.2.2 hfresh.1)
    have hk : s'.conn c = newConnection ip := by rw [hconn, hc, Function.update_self]
    have hm : mains c (ws ++ [.connect s.begun a]) = [a] := by
      rw [mains_append, hfresh.1]
      simp [hc]
    constructor
    · simp [hm]
    · intro hle
      omega
    · intro b hmem
      rw [hm, List.mem_singleton] at hmem
      rw [hk, hmem, ha]
      rfl
    · intro b hmem _
      rw [hm, List.mem_singleton] at hmem
      subst hmem
      exact ⟨hstop, hnone.trans (if_neg hstart).symm⟩
    · rw [hk, rebuilds_append, hnil.1]
      exact .before rfl rfl fun _ => hnone
    · rw [hk, hl, if_pos hc]
      rfl
  · apply h.frame _ _ _ (by omega) hg (hl.trans (if_neg hc))
    · simp [mains_append, hc]
    · simp [rebuilds_append]
    · rw [hconn, Function.update_of_ne (Ne.symm hc)]

/-- An event: its set is the one that has come last. -/
theorem VpnInv.meshRoutes (h : VpnInv c s ws) (routes : List Str) :
    VpnInv c ((s.note (.meshRoutes d routes)).withRebuild d ((s.conn d).onMeshRoutes routes)).1
      (ws ++ ((s.note (.meshRoutes d routes)).withRebuild d
        ((s.conn d).onMeshRoutes routes)).2) := by
  by_cases hd : d = c
  · subst hd
    have hm : mains d (ws ++ ((s.note (.meshRoutes d routes)).withRebuild d
        ((s.conn d).onMeshRoutes routes)).2) = mains d ws := by
      rw [mains_append]
      exact (congrArg _ (mains_rebuilds d _)).trans (List.append_nil _)
    have hk : ((s.note (.meshRoutes d routes)).withRebuild d
        ((s.conn d).onMeshRoutes routes)).1.conn d = ((s.conn d).onMeshRoutes routes).1 :=
      (s.note (.meshRoutes d routes)).setConn_self _
    constructor
    · rw [hm]
      exact h.one
    · rw [hm, hk, Connection.onMeshRoutes_vpnStarted]
      exact h.fresh
    · rw [hm, hk, Connection.onMeshRoutes_vpnStarted]
      exact h.phase
    · rw [hm, hk]
      intro a hmem hearly
      have hgiven := h.given a hmem hearly
      rw [ConnectAt.givenAt, Connection.onMeshRoutes_virtualIpSubnet]
      exact hgiven
    · rw [hk, hm, rebuilds_append]
      show Rebuilding _ (lastGiven d s.log) (mains d ws = [])
        (rebuilds d ws ++ rebuilds d (((s.conn d).onMeshRoutes routes).2.toList.map (.rebuild d)))
      rw [rebuilds_self]
      exact h.rebuilding.onMeshRoutes routes
    · rw [hk, Connection.onMeshRoutes_currentMeshRoutes]
      exact (if_pos rfl).symm
  · have ha := ((Apart.refl (s := s) (c := c) rfl rfl).note (e := .meshRoutes d routes)
      hd).withRebuild hd ((s.conn d).onMeshRoutes routes)
    apply h.frame _ _ ha.conn ha.begun.ge ha.given ha.recorded
    · rw [mains_append, ha.mains, List.append_nil]
    · rw [rebuilds_append, ha.rebuilds, List.append_nil]

end Start

/-! ## Every interleaving -/

section Run

variable (tauri : Bool) (spaceId : Str) (c : Nat)

theorem vpnInv_keeps : (vpnScript tauri spaceId).Keeps (Converges c) (VpnInv c) where
  perm _ _ _ hw h := h.perm hw
  start s ws e s' ts h _ hs := by
    cases e with
    | connect ip =>
      simp only [vpnScript, startVpnEvent] at hs
      split at hs <;> cases hs
      · exact h.connect_new ip .isMobile rfl (by decide) (by decide) rfl rfl rfl rfl
      · exact h.connect_new ip .connectSpaceDesktop rfl (by decide) (by decide) rfl rfl rfl rfl
    | disconnect =>
      cases hs
      apply h.frame _ _ rfl le_rfl rfl rfl
      · exact (mains_append c ws _).trans (List.append_nil _)
      · exact (rebuilds_append c ws _).trans (List.append_nil _)
    | meshRoutesUpdated d sid routes =>
      simp only [vpnScript, startVpnEvent] at hs
      split_ifs at hs <;> cases hs
      · exact h.meshRoutes routes
      · exact (List.append_nil ws).symm ▸ h
  resume s ws t b s' ts h hP hs := by
    cases t with
    | connect d a =>
      by_cases hd : d = c
      · subst hd
        exact h.connect_self hP hs
      · exact h.apart (if_neg hd) rfl (apart_connect hd hs)
    | rebuild d a =>
      by_cases hd : d = c
      · subst hd
        exact h.rebuild_self hP hs
      · exact h.apart rfl (if_neg hd) (apart_rebuild hd hs)
    | disconnect a => exact h.apart rfl rfl (apart_disconnect hs)

theorem vpnInv_init : VpnInv c vpnInit.shared vpnInit.waiting where
  one := Nat.zero_le _
  fresh _ := ⟨rfl, rfl⟩
  phase _ hmem := absurd hmem List.not_mem_nil
  given _ hmem := absurd hmem List.not_mem_nil
  rebuilding := .before rfl rfl fun _ => rfl
  recorded := rfl

/-- At most one rebuild of the call runs; when nothing of the call waits, what was
last given to `startVpn` are the routes desired with the set that came last. -/
def RoutesConverge (p : Page VpnState VpnTask) : Prop :=
  (rebuilds c p.waiting).length ≤ 1 ∧
    (mains c p.waiting = [] → rebuilds c p.waiting = [] →
      ∀ given ∈ lastGiven c p.shared.log, given =
        ((p.shared.conn c).record (lastRecorded c p.shared.log)).desiredRoutes)

instance (p : Page VpnState VpnTask) : Decidable (RoutesConverge c p) :=
  inferInstanceAs (Decidable (_ ∧ (_ → _ → _)))

theorem VpnInv.converge {c : Nat} {p : Page VpnState VpnTask}
    (h : VpnInv c p.shared p.waiting) : RoutesConverge c p := by
  refine ⟨h.rebuilding.length_le, ?_⟩
  intro hmain hnone given hgiven
  have hreb := h.rebuilding
  rw [hnone] at hreb
  rw [← h.recorded]
  cases hreb with
  | before _ _ hg =>
    -- nothing has been given yet
    exact absurd ((hg hmain).symm.trans hgiven) (by simp)
  | idle _ _ _ hd => exact Option.some.inj (hgiven.symm.trans (hd hmain))

/-- The calls of `connectWithVpn`, their events, rebuilds and answers come in any
order, those of other calls and of `disconnectWithVpn` among them. -/
theorem routes_converge (acts : List (PageAct VpnTask VpnEvent VpnAnswer))
    (h : Along (vpnScript tauri spaceId).step (Script.Within (Converges c)) vpnInit acts) :
    Always (vpnScript tauri spaceId).step (RoutesConverge c) vpnInit acts :=
  (vpnInv_keeps tauri spaceId c).always (fun _ hinv => hinv.converge) (vpnInv_init c) h

end Run

/-- An event comes before the first start, one during the rebuild that the replay
has begun. -/
def eventsDuringRebuild : List (PageAct VpnTask VpnEvent VpnAnswer) :=
  [.start (.connect "10.144.0.2/24".toList),
    .resume (.connect 0 .isMobile) (.mobile true),
    .resume (.connect 0 .prepareVpn) (.granted true),
    .resume (.connect 0 .detectLanSubnets) (.subnets []),
    .resume (.connect 0 .listen) .done,
    .resume (.connect 0 .listening) .done,
    .start (.meshRoutesUpdated 0 "s".toList ["a".toList]),
    .resume (.connect 0 (.connectSpace false)) .done,
    .resume (.connect 0 .startVpn) (.started true),
    .resume (.connect 0 .listSpaces) (.listed true),
    .resume (.connect 0 .settleDelay) .done,
    .resume (.connect 0 .getMeshRoutes) (.routes ["a".toList]),
    .resume (.rebuild 0 (.stopVpn {"10.144.0.0/24".toList, "a".toList})) .done,
    .start (.meshRoutesUpdated 0 "s".toList ["b".toList]),
    .resume (.rebuild 0 (.startVpn {"10.144.0.0/24".toList, "a".toList})) (.started true),
    .resume (.rebuild 0 (.stopVpn {"10.144.0.0/24".toList, "b".toList})) .done,
    .resume (.rebuild 0 (.startVpn {"10.144.0.0/24".toList, "b".toList})) (.started true)]

theorem routes_converge_example :
    Always (vpnScript true "s".toList).step (RoutesConverge 0) vpnInit eventsDuringRebuild :=
  routes_converge true "s".toList 0 eventsDuringRebuild (by decide)

/-- An event comes before the first start; `listSpaces` is rejected after it. -/
def eventBeforeStart : List (PageAct VpnTask VpnEvent VpnAnswer) :=
  [.start (.connect "10.144.0.2/24".toList),
    .resume (.connect 0 .isMobile) (.mobile true),
    .resume (.connect 0 .prepareVpn) (.granted true),
    .resume (.connect 0 .detectLanSubnets) (.subnets []),
    .resume (.connect 0 .listen) .done,
    .resume (.connect 0 .listening) .done,
    .start (.meshRoutesUpdated 0 "s".toList ["10.0.1.0/24".toList]),
    .resume (.connect 0 (.connectSpace false)) .done,
    .resume (.connect 0 .startVpn) (.started true),
    .resume (.connect 0 .listSpaces) .failed]

/-- Every start succeeds and nothing waits any more; the VPN is never given the
route. -/
theorem routes_lost :
    Along (vpnScript true "s".toList).step (Script.Within (StartsVpn 0)) vpnInit
        eventBeforeStart ∧
      ¬ Always (vpnScript true "s".toList).step (RoutesConverge 0) vpnInit eventBeforeStart := by
  refine ⟨by decide, fun h => ?_⟩
  have hend := always_run h rfl
  revert hend
  decide

end HomeTier.Vpn
