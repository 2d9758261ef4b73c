import Mathlib.Data.List.Sort
import HomeTier.Lib.Text
import HomeTier.Lib.Trace

/-! # Tabs of opened apps

The store of `src/stores/appTabsStore.ts`. An operation is given with the time that
`Date.now()` tells during it, and the clock does not run backwards.

* Keys stay unique, there are at most ten tabs, and opening an app evicts one with the
  least recent activity, never the new one: these hold in every run.
* The active key names an open tab, and what is visible is an active tab, as long as
  only open tabs are activated and the last one is not closed while it is shown
  (`tabs_sound_iff`).
-/

namespace HomeTier.AppTabs

open Lib

def maxIframes : Nat := 10

/-- The fields of an app that a tab depends on. -/
structure SpaceApp where
  id : Str
  protocol : Str
  hostname : Str
  port : Str
  pathname : Str
deriving DecidableEq

/-- `buildAppUrl` -/
def buildAppUrl (app : SpaceApp) : Str :=
  let base := app.protocol ++ "//".toList ++ app.hostname
  let port := if app.port ≠ [] then ':' :: app.port else []
  let path :=
    if app.pathname ≠ [] then
      '/' :: (if app.pathname.head? = some '/' then app.pathname.tail else app.pathname)
    else []
  base ++ port ++ path

structure AppTab where
  key : Str
  spaceId : Str
  appId : Str
  app : SpaceApp
  appUrl : Str
  proxyUrl : Str
  lastActiveAt : Nat
  loadError : Bool
deriving DecidableEq

/-- The store, and the last time the clock told. -/
structure AppTabsStore where
  openApps : List AppTab
  activeKey : Option Str
  visible : Bool
  clock : Nat
deriving DecidableEq

inductive Op where
  | openApp (spaceId : Str) (app : SpaceApp)
  | setActive (key : Str)
  | setLoadError (key : Str) (err : Bool)
  | updateProxyUrl (key : Str) (url : Str)
  | closeTab (key : Str)
  | clearSpace (spaceId : Str)
  | hide
deriving DecidableEq

def init : AppTabsStore where
  openApps := []
  activeKey := none
  visible := false
  clock := 0

/-! ## The operations -/

def keyOf (spaceId : Str) (app : SpaceApp) : Str := spaceId ++ ':' :: app.id

def makeTab (spaceId : Str) (app : SpaceApp) (now : Nat) : AppTab where
  key := keyOf spaceId app
  spaceId := spaceId
  appId := app.id
  app := app
  appUrl := buildAppUrl app
  proxyUrl := []
  lastActiveAt := now
  loadError := false

/-- `map` with a change of the tab of a key. -/
def updateTab (key : Str) (f : AppTab → AppTab) (tabs : List AppTab) : List AppTab :=
  tabs.map fun t => if t.key = key then f t else t

/-- The first of the tabs sorted by activity, the least recent one in front. -/
def oldest (tabs : List AppTab) : Option AppTab :=
  (tabs.insertionSort fun a b => a.lastActiveAt ≤ b.lastActiveAt).head?

/-- The first of the tabs sorted by activity, the most recent one in front. -/
def newest (tabs : List AppTab) : Option AppTab :=
  (tabs.insertionSort fun a b => b.lastActiveAt ≤ a.lastActiveAt).head?

namespace AppTabsStore

def hasTab (s : AppTabsStore) (key : Str) : Prop := key ∈ s.openApps.map (·.key)

instance (s : AppTabsStore) (key : Str) : Decidable (s.hasTab key) :=
  inferInstanceAs (Decidable (_ ∈ _))

def openApp (s : AppTabsStore) (spaceId : Str) (app : SpaceApp) (now : Nat) : AppTabsStore :=
  let key := keyOf spaceId app
  if s.hasTab key then
    { s with
      openApps := updateTab key (fun t => { t with lastActiveAt := now }) s.openApps
      activeKey := some key
      visible := true }
  else
    let opened := s.openApps ++ [makeTab spaceId app now]
    let kept :=
      if opened.length > maxIframes then
        match oldest opened with
        | some t => opened.filter (·.key ≠ t.key)
        | none => opened
      else opened
    { s with openApps := kept, activeKey := some key, visible := true }

def setActive (s : AppTabsStore) (key : Str) (now : Nat) : AppTabsStore :=
  { s with
    openApps := updateTab key (fun t => { t with lastActiveAt := now }) s.openApps
    activeKey := some key
    visible := true }

def setLoadError (s : AppTabsStore) (key : Str) (err : Bool) : AppTabsStore :=
  { s with openApps := updateTab key (fun t => { t with loadError := err }) s.openApps }

def updateProxyUrl (s : AppTabsStore) (key url : Str) : AppTabsStore :=
  { s with openApps := updateTab key (fun t => { t with proxyUrl := url }) s.openApps }

def closeTab (s : AppTabsStore) (key : Str) : AppTabsStore :=
  let openApps := s.openApps.filter (·.key ≠ key)
  { s with
    openApps := openApps
    activeKey := if s.activeKey = some key then (newest openApps).map (·.key) else s.activeKey }

/-- An empty key is no key for `activeKey && …`. -/
def clearSpace (s : AppTabsStore) (spaceId : Str) : AppTabsStore :=
  let openApps := s.openApps.filter (·.spaceId ≠ spaceId)
  let gone := s.activeKey.any fun key => key ≠ [] ∧ key ∉ openApps.map (·.key)
  { s with
    openApps := openApps
    activeKey := if gone then none else s.activeKey
    visible := if gone then false else s.visible }

def hide (s : AppTabsStore) : AppTabsStore := { s with visible := false }

def apply (s : AppTabsStore) (now : Nat) : Op → AppTabsStore
  | .openApp spaceId app => s.openApp spaceId app now
  | .setActive key => s.setActive key now
  | .setLoadError key err => s.setLoadError key err
  | .updateProxyUrl key url => s.updateProxyUrl key url
  | .closeTab key => s.closeTab key
  | .clearSpace spaceId => s.clearSpace spaceId
  | .hide => s.hide

end AppTabsStore

def step (s : AppTabsStore) (timed : Nat × Op) : Option AppTabsStore :=
  if s.clock ≤ timed.1 then some { s.apply timed.1 timed.2 with clock := timed.1 } else none

/-! ## What is expected -/

/-- Of the store, whatever was done. -/
structure Sound (s : AppTabsStore) : Prop where
  unique : (s.openApps.map (·.key)).Nodup
  few : s.openApps.length ≤ maxIframes
  active : ∀ key ∈ s.activeKey, s.hasTab key
  shown : s.visible = true → ∃ key ∈ s.activeKey, s.hasTab key

/-- Of an operation: an opened app stays, and a tab that is gone was one with the least
recent activity. -/
def OpensWell (s : AppTabsStore) (timed : Nat × Op) : Prop :=
  ∀ spaceId app, timed.2 = .openApp spaceId app → ∀ s', step s timed = some s' →
    s'.hasTab (keyOf spaceId app) ∧
    ∀ t ∈ s.openApps, ¬ s'.hasTab t.key → ∀ other ∈ s.openApps, t.lastActiveAt ≤ other.lastActiveAt

/-- Only open tabs are activated, and the last tab is not closed while it is active and
shown. -/
def Polite (s : AppTabsStore) (timed : Nat × Op) : Prop :=
  match timed.2 with
  | .setActive key => s.hasTab key
  | .closeTab key =>
    ¬ (s.activeKey = some key ∧ s.visible = true ∧ ∀ t ∈ s.openApps, t.key = key)
  | _ => True

instance (s : AppTabsStore) (timed : Nat × Op) : Decidable (Polite s timed) := by
  unfold Polite
  split
  all_goals infer_instance

/-! ## Sorted tabs -/

variable {tabs : List AppTab}

theorem oldest_spec {t : AppTab} (h : oldest tabs = some t) :
    t ∈ tabs ∧ ∀ other ∈ tabs, t.lastActiveAt ≤ other.lastActiveAt := by
  have hsorted := List.pairwise_insertionSort (fun a b : AppTab => a.lastActiveAt ≤ b.lastActiveAt) tabs
  have hperm := List.perm_insertionSort (fun a b : AppTab => a.lastActiveAt ≤ b.lastActiveAt) tabs
  unfold oldest at h
  generalize tabs.insertionSort (fun a b => a.lastActiveAt ≤ b.lastActiveAt) = sorted at *
  cases sorted with
  | nil => cases h
  | cons first rest =>
    obtain rfl : first = t := Option.some.inj h
    refine ⟨hperm.subset List.mem_cons_self, ?_⟩
    intro other hother
    rcases List.mem_cons.1 (hperm.symm.subset hother) with rfl | hmem
    · exact le_rfl
    · exact (List.pairwise_cons.1 hsorted).1 other hmem

theorem oldest_isSome (h : tabs ≠ []) : ∃ t, oldest tabs = some t := by
  have hperm := List.perm_insertionSort (fun a b : AppTab => a.lastActiveAt ≤ b.lastActiveAt) tabs
  unfold oldest
  cases hsorted : tabs.insertionSort (fun a b => a.lastActiveAt ≤ b.lastActiveAt) with
  | nil =>
    rw [hsorted] at hperm
    exact absurd hperm.symm.eq_nil h
  | cons first rest => exact ⟨first, rfl⟩

/-- The sort is stable: a tab at the end is behind all that are not more recent. -/
theorem oldest_concat_ne {last t : AppTab} (hne : tabs ≠ [])
    (hnew : last ∉ tabs) (hlate : ∀ other ∈ tabs, other.lastActiveAt ≤ last.lastActiveAt)
    (h : oldest (tabs ++ [last]) = some t) : t ∈ tabs := by
  rcases List.exists_mem_of_ne_nil tabs hne with ⟨other, hother⟩
  have hpair : [other, last].Sublist (tabs ++ [last]) :=
    (List.singleton_sublist.2 hother).append (List.Sublist.refl [last])
  have hsorted := List.pair_sublist_insertionSort
    (r := fun a b : AppTab => a.lastActiveAt ≤ b.lastActiveAt) (hlate other hother) hpair
  have hperm := List.perm_insertionSort (fun a b : AppTab => a.lastActiveAt ≤ b.lastActiveAt)
    (tabs ++ [last])
  rcases List.mem_append.1 (oldest_spec h).1 with hmem | hmem
  · exact hmem
  · obtain rfl := List.mem_singleton.1 hmem
    -- the last tab would come twice
    exfalso
    unfold oldest at h
    generalize (tabs ++ [t]).insertionSort (fun a b => a.lastActiveAt ≤ b.lastActiveAt) = sorted at *
    cases sorted with
    | nil => cases h
    | cons first rest =>
      obtain rfl : first = t := Option.some.inj h
      have hrest : rest.Perm tabs := by
        have hswap : (first :: rest).Perm (first :: tabs) :=
          hperm.trans (List.perm_append_comm)
        exact hswap.cons_inv
      have hdiff : other ≠ first := by
        rintro rfl
        exact hnew hother
      rcases List.sublist_cons_iff.1 hsorted with hin | ⟨r, hr, -⟩
      · exact hnew (hrest.subset (hin.subset (by simp)))
      · exact hdiff (List.cons.inj hr).1

theorem newest_eq_none : newest tabs = none ↔ tabs = [] := by
  rw [newest, List.head?_eq_none_iff]
  constructor
  · intro h
    have hperm := List.perm_insertionSort (fun a b : AppTab => b.lastActiveAt ≤ a.lastActiveAt) tabs
    rw [h] at hperm
    exact hperm.symm.eq_nil
  · rintro rfl
    rfl

theorem newest_mem {t : AppTab} (h : newest tabs = some t) : t ∈ tabs := by
  have hperm := List.perm_insertionSort (fun a b : AppTab => b.lastActiveAt ≤ a.lastActiveAt) tabs
  exact hperm.subset (List.mem_of_mem_head? h)

variable {s s' : AppTabsStore}

theorem step_eq_some {now : Nat} {op : Op} (h : step s (now, op) = some s') :
    s.clock ≤ now ∧ s' = { s.apply now op with clock := now } := by
  unfold step at h
  split at h
  case isTrue hnow => exact ⟨hnow, (Option.some.inj h).symm⟩
  case isFalse => cases h

/-! ## The tabs in every state -/

/-- Holds whatever is done. -/
structure Listed (s : AppTabsStore) : Prop where
  unique : (s.openApps.map (·.key)).Nodup
  few : s.openApps.length ≤ maxIframes
  named : ∀ t ∈ s.openApps, t.key ≠ []
  past : ∀ t ∈ s.openApps, t.lastActiveAt ≤ s.clock

theorem listed_init : Listed init where
  unique := List.nodup_nil
  few := Nat.zero_le _
  named := by simp [init]
  past := by simp [init]

variable {key spaceId : Str}

theorem updateTab_keys {f : AppTab → AppTab} (hf : ∀ t, (f t).key = t.key)
    (tabs : List AppTab) : (updateTab key f tabs).map (·.key) = tabs.map (·.key) := by
  unfold updateTab
  rw [List.map_map]
  refine List.map_congr_left ?_
  intro t _
  simp only [Function.comp_apply]
  split
  · exact hf t
  · rfl

/-- A change of a tab that keeps its key, and does not put it in the future. -/
theorem Listed.updateTab (h : Listed s) {f : AppTab → AppTab}
    (hf : ∀ t, (f t).key = t.key) (hclock : s.clock ≤ s'.clock)
    (hpast : ∀ t, t.lastActiveAt ≤ s'.clock → (f t).lastActiveAt ≤ s'.clock)
    (htabs : s'.openApps = AppTabs.updateTab key f s.openApps) : Listed s' := by
  have hkeys : s'.openApps.map (·.key) = s.openApps.map (·.key) := by
    rw [htabs, updateTab_keys hf]
  refine ⟨?_, ?_, ?_, ?_⟩
  · rw [hkeys]
    exact h.unique
  · rw [htabs, AppTabs.updateTab, List.length_map]
    exact h.few
  · intro t ht
    have hmem : t.key ∈ s.openApps.map (·.key) := hkeys ▸ List.mem_map_of_mem ht
    obtain ⟨t', ht', hkey⟩ := List.mem_map.1 hmem
    rw [← hkey]
    exact h.named t' ht'
  · intro t ht
    rw [htabs, AppTabs.updateTab] at ht
    obtain ⟨t', ht', rfl⟩ := List.mem_map.1 ht
    have hold : t'.lastActiveAt ≤ s'.clock := (h.past t' ht').trans hclock
    split
    · exact hpast t' hold
    · exact hold

theorem Listed.sublist (h : Listed s) (hclock : s.clock ≤ s'.clock)
    (htabs : s'.openApps.Sublist s.openApps) : Listed s' where
  unique := h.unique.sublist (htabs.map _)
  few := htabs.length_le.trans h.few
  named := fun t ht => h.named t (htabs.subset ht)
  past := fun t ht => (h.past t (htabs.subset ht)).trans hclock

/-! ### Opening an app -/

variable {app : SpaceApp}

/-- What opening an app that has no tab does to the tabs: it is put behind them, and when
they are too many one of the old ones with the least recent activity goes. -/
theorem openApp_new (h : Listed s) {now : Nat}
    (hnow : s.clock ≤ now) (hnew : ¬ s.hasTab (keyOf spaceId app)) :
    (s.openApps.length < maxIframes ∧
      (s.openApp spaceId app now).openApps = s.openApps ++ [makeTab spaceId app now]) ∨
    ∃ t ∈ s.openApps, (∀ other ∈ s.openApps, t.lastActiveAt ≤ other.lastActiveAt) ∧
      (s.openApp spaceId app now).openApps =
        (s.openApps ++ [makeTab spaceId app now]).filter (·.key ≠ t.key) := by
  simp only [AppTabsStore.openApp, if_neg hnew, List.length_append, List.length_singleton]
  by_cases hfull : s.openApps.length + 1 > maxIframes
  · have hne : s.openApps ≠ [] := by
      rintro hnil
      simp [hnil, maxIframes] at hfull
    have hnotin : makeTab spaceId app now ∉ s.openApps := by
      intro hmem
      exact hnew (List.mem_map_of_mem (f := (·.key)) hmem)
    have hlate : ∀ other ∈ s.openApps,
        other.lastActiveAt ≤ (makeTab spaceId app now).lastActiveAt := by
      intro other hother
      exact (h.past other hother).trans hnow
    obtain ⟨t, ht⟩ : ∃ t, oldest (s.openApps ++ [makeTab spaceId app now]) = some t :=
      oldest_isSome (by simp)
    have hold : t ∈ s.openApps := oldest_concat_ne hne hnotin hlate ht
    refine .inr ⟨t, hold, ?_, ?_⟩
    · intro other hother
      exact (oldest_spec ht).2 other (List.mem_append_left _ hother)
    · rw [if_pos hfull, ht]
  · refine .inl ⟨by omega, ?_⟩
    rw [if_neg hfull]

theorem Listed.eq_of_key (h : Listed s) {t t' : AppTab} (ht : t ∈ s.openApps)
    (ht' : t' ∈ s.openApps) (hkey : t.key = t'.key) : t = t' :=
  List.inj_on_of_nodup_map h.unique ht ht' hkey

theorem Listed.openApp (h : Listed s) {now : Nat} (hnow : s.clock ≤ now) :
    Listed { s.openApp spaceId app now with clock := now } := by
  by_cases hhas : s.hasTab (keyOf spaceId app)
  · have htabs : (s.openApp spaceId app now).openApps = AppTabs.updateTab (keyOf spaceId app)
        (fun t => { t with lastActiveAt := now }) s.openApps := by
      simp only [AppTabsStore.openApp, if_pos hhas]
    refine Listed.updateTab h ?_ hnow ?_ htabs
    · exact fun _ => rfl
    · exact fun _ _ => le_rfl
  · have hunique : ((s.openApps ++ [makeTab spaceId app now]).map (·.key)).Nodup := by
      rw [List.map_append, List.map_singleton, List.nodup_append]
      refine ⟨h.unique, List.nodup_singleton _, ?_⟩
      rintro key hkey _ hnew rfl
      obtain rfl := List.mem_singleton.1 hnew
      exact hhas hkey
    have hnamed : ∀ t ∈ s.openApps ++ [makeTab spaceId app now], t.key ≠ [] := by
      intro t ht
      rcases List.mem_append.1 ht with hmem | hmem
      · exact h.named t hmem
      · -- a key has at least the colon
        obtain rfl := List.mem_singleton.1 hmem
        simp [makeTab, keyOf]
    have hpast : ∀ t ∈ s.openApps ++ [makeTab spaceId app now], t.lastActiveAt ≤ now := by
      intro t ht
      rcases List.mem_append.1 ht with hmem | hmem
      · exact (h.past t hmem).trans hnow
      · obtain rfl := List.mem_singleton.1 hmem
        exact le_rfl
    rcases openApp_new h hnow hhas with ⟨hroom, htabs⟩ | ⟨t, ht, -, htabs⟩
    · refine ⟨?_, ?_, ?_, ?_⟩
      · rwa [htabs]
      · rw [htabs, List.length_append, List.length_singleton]
        exact hroom
      · rwa [htabs]
      · rwa [htabs]
    · have hsub : ((s.openApps ++ [makeTab spaceId app now]).filter (·.key ≠ t.key)).Sublist
          (s.openApps ++ [makeTab spaceId app now]) := List.filter_sublist
      refine ⟨?_, ?_, ?_, ?_⟩
      · rw [htabs]
        exact hunique.sublist (hsub.map _)
      · -- at least the tab that goes is missing
        have hlt : ((s.openApps ++ [makeTab spaceId app now]).filter (·.key ≠ t.key)).length <
            (s.openApps ++ [makeTab spaceId app now]).length :=
          List.length_filter_lt_length_iff_exists.2 ⟨t, List.mem_append_left _ ht, by simp⟩
        rw [List.length_append, List.length_singleton] at hlt
        have hfew := h.few
        rw [htabs]
        omega
      · rw [htabs]
        intro t' ht'
        exact hnamed t' (hsub.subset ht')
      · rw [htabs]
        intro t' ht'
        exact hpast t' (hsub.subset ht')

/-- Opening an app that has a tab keeps the keys. -/
theorem openApp_keys (hhas : s.hasTab (keyOf spaceId app)) (now : Nat) :
    (s.openApp spaceId app now).openApps.map (·.key) = s.openApps.map (·.key) := by
  simp only [AppTabsStore.openApp, if_pos hhas]
  exact updateTab_keys (f := fun t => { t with lastActiveAt := now }) (fun _ => rfl) _

/-- An opened app has its tab. -/
theorem openApp_hasTab (h : Listed s) {now : Nat} (hnow : s.clock ≤ now) :
    (s.openApp spaceId app now).hasTab (keyOf spaceId app) := by
  unfold AppTabsStore.hasTab
  by_cases hhas : s.hasTab (keyOf spaceId app)
  · rw [openApp_keys hhas]
    exact hhas
  · have hlast : makeTab spaceId app now ∈ s.openApps ++ [makeTab spaceId app now] := by simp
    rcases openApp_new h hnow hhas with ⟨-, htabs⟩ | ⟨t, ht, -, htabs⟩
    · rw [htabs]
      exact List.mem_map_of_mem (f := (·.key)) hlast
    · rw [htabs]
      have hdiff : keyOf spaceId app ≠ t.key := by
        intro hkey
        exact hhas (List.mem_map.2 ⟨t, ht, hkey.symm⟩)
      exact List.mem_map.2 ⟨_, List.mem_filter.2 ⟨hlast, decide_eq_true hdiff⟩, rfl⟩

theorem opensWell (h : Listed s) (timed : Nat × Op) : OpensWell s timed := by
  obtain ⟨now, op⟩ := timed
  intro spaceId app hop s' hstep
  obtain rfl : op = .openApp spaceId app := hop
  obtain ⟨hnow, rfl⟩ := step_eq_some hstep
  refine ⟨openApp_hasTab h hnow, ?_⟩
  intro t ht hgone
  replace hgone : t.key ∉ (s.openApp spaceId app now).openApps.map (·.key) := hgone
  by_cases hhas : s.hasTab (keyOf spaceId app)
  · -- no tab goes
    rw [openApp_keys hhas] at hgone
    exact absurd (List.mem_map_of_mem ht) hgone
  · rcases openApp_new h hnow hhas with ⟨-, htabs⟩ | ⟨old, hold, hleast, htabs⟩
    · rw [htabs] at hgone
      exact absurd (List.mem_map_of_mem (List.mem_append_left _ ht)) hgone
    · rw [htabs] at hgone
      have hkey : t.key = old.key := by
        by_contra hne
        exact hgone (List.mem_map_of_mem
          (List.mem_filter.2 ⟨List.mem_append_left _ ht, by simpa using hne⟩))
      rw [h.eq_of_key ht hold hkey]
      exact hleast

/-! ### Every operation -/

theorem listed_step (s : AppTabsStore) (timed : Nat × Op) (s' : AppTabsStore) (h : Listed s)
    (hstep : step s timed = some s') : Listed s' := by
  obtain ⟨now, op⟩ := timed
  obtain ⟨hnow, rfl⟩ := step_eq_some hstep
  cases op with
  | openApp spaceId app => exact h.openApp hnow
  | setActive key =>
    exact h.updateTab (f := fun t => { t with lastActiveAt := now }) (fun _ => rfl) hnow
      (fun _ _ => le_rfl) rfl
  | setLoadError key err =>
    exact h.updateTab (f := fun t => { t with loadError := err }) (fun _ => rfl) hnow
      (fun _ hold => hold) rfl
  | updateProxyUrl key url =>
    exact h.updateTab (f := fun t => { t with proxyUrl := url }) (fun _ => rfl) hnow
      (fun _ hold => hold) rfl
  | closeTab key => exact h.sublist hnow List.filter_sublist
  | clearSpace spaceId => exact h.sublist hnow List.filter_sublist
  | hide => exact h.sublist hnow (List.Sublist.refl _)

/-! ## The active tab -/

/-- The part of `Sound` that an operation can break. -/
def Pointed (s : AppTabsStore) : Prop :=
  (∀ key ∈ s.activeKey, s.hasTab key) ∧ (s.visible = true → ∃ key ∈ s.activeKey, s.hasTab key)

theorem sound_iff (h : Listed s) : Sound s ↔ Pointed s :=
  ⟨fun hs => ⟨hs.active, hs.shown⟩, fun hp => ⟨h.unique, h.few, hp.1, hp.2⟩⟩

/-- The same keys, the same active key, and no more visible. -/
theorem Pointed.of_keys (h : Pointed s) (hkeys : s'.openApps.map (·.key) = s.openApps.map (·.key))
    (hactive : s'.activeKey = s.activeKey) (hvisible : s'.visible = true → s.visible = true) :
    Pointed s' := by
  have hhas : ∀ key, s'.hasTab key ↔ s.hasTab key := by
    intro key
    rw [AppTabsStore.hasTab, AppTabsStore.hasTab, hkeys]
  refine ⟨?_, ?_⟩
  · intro key hkey
    exact (hhas key).2 (h.1 key (hactive ▸ hkey))
  · intro hshown
    obtain ⟨key, hkey, htab⟩ := h.2 (hvisible hshown)
    exact ⟨key, hactive ▸ hkey, (hhas key).2 htab⟩

/-- An operation that activates a key points well exactly when the key has a tab. -/
theorem pointed_of_some (hactive : s.activeKey = some key) : Pointed s ↔ s.hasTab key := by
  constructor
  · intro h
    exact h.1 key hactive
  · intro h
    refine ⟨?_, fun _ => ⟨key, hactive, h⟩⟩
    intro key' hkey'
    rw [hactive] at hkey'
    exact Option.some.inj hkey' ▸ h

theorem pointed_of_none (hactive : s.activeKey = none) : Pointed s ↔ s.visible = false := by
  unfold Pointed
  rw [hactive]
  simp

theorem hasTab_filter {keeps : AppTab → Bool} (htabs : s'.openApps = s.openApps.filter keeps) :
    s'.hasTab key ↔ ∃ t ∈ s.openApps, keeps t = true ∧ t.key = key := by
  simp only [AppTabsStore.hasTab, htabs, List.mem_map, List.mem_filter, and_assoc]

theorem pointed_closeTab (h : Pointed s) (key : Str) : Pointed (s.closeTab key) ↔
      ¬ (s.activeKey = some key ∧ s.visible = true ∧ ∀ t ∈ s.openApps, t.key = key) := by
  by_cases hactive : s.activeKey = some key
  · have hnext : (s.closeTab key).activeKey =
        (newest (s.openApps.filter (·.key ≠ key))).map (·.key) := if_pos hactive
    cases hnewest : newest (s.openApps.filter (·.key ≠ key)) with
    | some t =>
      -- another tab is left, and becomes active
      have hmem := newest_mem hnewest
      have hleft : t ∈ s.openApps ∧ t.key ≠ key := by simpa using hmem
      rw [hnewest] at hnext
      rw [pointed_of_some hnext]
      refine iff_of_true (List.mem_map_of_mem hmem) ?_
      rintro ⟨-, -, hall⟩
      exact hleft.2 (hall t hleft.1)
    | none =>
      -- none is left, and what is shown stays shown
      have hall : ∀ t ∈ s.openApps, t.key = key := by
        intro t ht
        by_contra hne
        have hmem : t ∈ s.openApps.filter (·.key ≠ key) :=
          List.mem_filter.2 ⟨ht, decide_eq_true hne⟩
        rw [newest_eq_none.1 hnewest] at hmem
        cases hmem
      rw [hnewest] at hnext
      rw [pointed_of_none hnext]
      have hshown : (s.closeTab key).visible = s.visible := rfl
      rw [hshown, ← Bool.not_eq_true]
      exact not_congr ⟨fun hv => ⟨hactive, hv, hall⟩, fun hbad => hbad.2.1⟩
  · have hnext : (s.closeTab key).activeKey = s.activeKey := if_neg hactive
    refine iff_of_true ?_ (fun hbad => hactive hbad.1)
    -- the active tab is another one, so it stays
    have hkept : ∀ key' ∈ s.activeKey, (s.closeTab key).hasTab key' := by
      intro key' hkey'
      obtain ⟨t, ht, hkey⟩ := List.mem_map.1 (h.1 key' hkey')
      refine (hasTab_filter rfl).2 ⟨t, ht, decide_eq_true ?_, hkey⟩
      rintro hsame
      exact hactive (by rw [hkey', ← hkey, hsame])
    refine ⟨?_, ?_⟩
    · rw [hnext]
      exact hkept
    · intro hshown
      obtain ⟨key', hkey', -⟩ := h.2 hshown
      exact ⟨key', hnext.trans hkey', hkept key' hkey'⟩

theorem pointed_clearSpace (hlisted : Listed s) (h : Pointed s)
    (spaceId : Str) : Pointed (s.clearSpace spaceId) := by
  cases hactive : s.activeKey with
  | none =>
    have hnext : (s.clearSpace spaceId).activeKey = none := by
      simp [AppTabsStore.clearSpace, hactive]
    have hhidden : s.visible = false := (pointed_of_none hactive).1 h
    rw [pointed_of_none hnext]
    simp [AppTabsStore.clearSpace, hactive, hhidden]
  | some key =>
    -- an active key has a tab, so it is not empty
    obtain ⟨t, ht, hkey⟩ := List.mem_map.1 (h.1 key hactive)
    have hne : key ≠ [] := hkey ▸ hlisted.named t ht
    by_cases hleft : key ∈ (s.openApps.filter (·.spaceId ≠ spaceId)).map (·.key)
    · have hnext : (s.clearSpace spaceId).activeKey = some key := by
        simp only [AppTabsStore.clearSpace, hactive, Option.any_some, hleft, not_true, and_false,
          decide_false, Bool.false_eq_true, if_false]
      exact (pointed_of_some hnext).2 hleft
    · have hnext : (s.clearSpace spaceId).activeKey = none := by
        simp only [AppTabsStore.clearSpace, hactive, Option.any_some, hleft, not_false_eq_true,
          hne, ne_eq, and_self, decide_true, if_true]
      rw [pointed_of_none hnext]
      simp only [AppTabsStore.clearSpace, hactive, Option.any_some, hleft, not_false_eq_true,
        hne, ne_eq, and_self, decide_true, if_true]

theorem pointed_step {timed : Nat × Op} (hlisted : Listed s)
    (h : Pointed s) (hstep : step s timed = some s') : Pointed s' ↔ Polite s timed := by
  obtain ⟨now, op⟩ := timed
  obtain ⟨hnow, rfl⟩ := step_eq_some hstep
  -- the clock says nothing about the active tab
  change Pointed (s.apply now op) ↔ _
  cases op with
  | openApp spaceId app =>
    refine iff_of_true ?_ trivial
    have hnext : (s.openApp spaceId app now).activeKey = some (keyOf spaceId app) := by
      simp only [AppTabsStore.openApp]
      split <;> rfl
    exact (pointed_of_some hnext).2 (openApp_hasTab hlisted hnow)
  | setActive key =>
    have hkeys : (s.setActive key now).openApps.map (·.key) = s.openApps.map (·.key) :=
      updateTab_keys (f := fun t => { t with lastActiveAt := now }) (fun _ => rfl) _
    have hhas : (s.setActive key now).hasTab key ↔ s.hasTab key := by
      rw [AppTabsStore.hasTab, AppTabsStore.hasTab, hkeys]
    exact (pointed_of_some rfl).trans hhas
  | setLoadError key err =>
    have hkeys : (s.setLoadError key err).openApps.map (·.key) = s.openApps.map (·.key) :=
      updateTab_keys (f := fun t => { t with loadError := err }) (fun _ => rfl) _
    exact iff_of_true (h.of_keys hkeys rfl id) trivial
  | updateProxyUrl key url =>
    have hkeys : (s.updateProxyUrl key url).openApps.map (·.key) = s.openApps.map (·.key) :=
      updateTab_keys (f := fun t => { t with proxyUrl := url }) (fun _ => rfl) _
    exact iff_of_true (h.of_keys hkeys rfl id) trivial
  | closeTab key => exact pointed_closeTab h key
  | clearSpace spaceId => exact iff_of_true (pointed_clearSpace hlisted h spaceId) trivial
  | hide =>
    refine iff_of_true (h.of_keys rfl rfl ?_) trivial
    intro hshown
    cases hshown

/-! ## Runs -/

/-- A run keeps the store sound exactly when all its operations are polite, and apps open
well in every run. -/
theorem tabs_sound_iff (ops : List (Nat × Op)) :
    Always step Sound init ops ∧ Along step OpensWell init ops ↔ Along step Polite init ops := by
  have hinit : Sound init := (sound_iff listed_init).2 ((pointed_of_none rfl).2 rfl)
  have hwell : Along step OpensWell init ops := by
    rw [along_congr (Q := fun _ _ => True) listed_step
      (fun s timed h => iff_of_true (opensWell h timed) trivial) listed_init]
    exact along_of_forall (fun _ _ => trivial) init ops
  have hsound : Always step Sound init ops ↔ Along step Polite init ops := by
    refine always_iff_along listed_step ?_ listed_init hinit ops
    intro s timed s' hlisted hs hstep
    rw [sound_iff (listed_step s timed s' hlisted hstep)]
    exact pointed_step hlisted ((sound_iff hlisted).1 hs) hstep
  rw [hsound]
  exact and_iff_left hwell

/-- An app is opened and its tab, the only one, closed: the browser is still visible, and
no tab is active. -/
theorem closed_still_visible :
    ¬ ∀ ops, Always step Sound init ops ∧ Along step OpensWell init ops := by
  intro hall
  have hnas : Always step Sound init
      [(1, .openApp "s".toList ⟨"nas".toList, "http:".toList, "10.0.0.2".toList, "80".toList, []⟩),
        (2, .closeTab "s:nas".toList)] := (hall _).1
  refine not_always_of_run (Q := fun s => s.visible = true → s.activeKey ≠ none) ?_ ?_ hnas
  · intro s hs hshown hnone
    obtain ⟨key, hkey, -⟩ := hs.shown hshown
    rw [hnone] at hkey
    cases hkey
  · decide

end HomeTier.AppTabs
