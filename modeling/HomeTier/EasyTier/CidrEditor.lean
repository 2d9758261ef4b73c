import HomeTier.EasyTier.NetworkCidr
import HomeTier.Lib.Trace

/-! # The own network in the editor

`EasyTierConfigEditor` lists the networks that are shared, the one of the own address
among them. The list has no marks, so the entries that are the user's are kept beside it.

* An edit loses no entry of the user's (`names_edit`).
* After every edit the list names the user's entries and the own network, and no more, as
  long as an edit of the address leaves no old network behind (`derived_follows_iff`).
-/

namespace HomeTier.CidrEditor

open Lib NetworkCidr

/-! ## The configuration -/

/-- The fields of a `Partial<NetworkConfig>` that these edits read and write. A length that
is no finite number is `some none`. -/
structure Config where
  virtualIpv4 : Option Str := none
  networkLength : Option (Option ℚ) := none
  proxyCidrs : Option (List Str) := none
  dhcp : Option Bool := none

namespace Config

variable (value : Config)

/-- `{ ...value, ...patch }` -/
def set (patch : Config) : Config where
  virtualIpv4 := patch.virtualIpv4.or value.virtualIpv4
  networkLength := patch.networkLength.or value.networkLength
  proxyCidrs := patch.proxyCidrs.or value.proxyCidrs
  dhcp := patch.dhcp.or value.dhcp

def cidrs : List Str := value.proxyCidrs.getD []

/-- `ownCidr` -/
def ownCidr : Option Str :=
  computeNetworkCidr (value.virtualIpv4.getD []) (value.networkLength.getD (some 24))

/-- The trimmed entries, each once, without the blank ones. -/
def kept : List Str := distinctFrom id (· = []) [] (value.cidrs.map jsTrim)

/-- `syncProxyCidrs` -/
def syncProxyCidrs (patch : Config) : Config :=
  let newV4 := (patch.virtualIpv4.or value.virtualIpv4).getD []
  let newLen := (patch.networkLength.or value.networkLength).getD (some 24)
  let proxyCidrs :=
    match computeNetworkCidr newV4 newLen with
    | some newC => if newC ∈ value.kept then value.kept else value.kept ++ [newC]
    | none => value.kept
  { patch with proxyCidrs := some proxyCidrs }

/-- The row of such an entry can be neither edited nor removed. -/
def isDerived (cidr : Str) : Prop := value.ownCidr = some (jsTrim cidr)

instance (cidr : Str) : Decidable (value.isDerived cidr) := inferInstanceAs (Decidable (_ = _))

end Config

/-! ## Edits -/

inductive Edit where
  | virtualIpv4 (ip : Str)
  | networkLength (text : Str)
  | addCidr
  | editCidr (i : Nat) (text : Str)
  | removeCidr (i : Nat)

/-- `parseInt(e.target.value) || 24` -/
def typedLength (text : Str) : Option ℚ :=
  match jsParseInt text with
  | some n => if n = 0 then some 24 else toDouble n
  | none => some 24

/-- What an edit of the address sets. -/
def addressPatch : Edit → Option Config
  | .virtualIpv4 ip =>
    some { virtualIpv4 := some ip, dhcp := if jsTrim ip ≠ [] then some false else none }
  | .networkLength text => some { networkLength := some (typedLength text) }
  | _ => none

/-- The row of an edit, if it is of one, can be edited. -/
def enabled (value : Config) : Edit → Prop
  | .editCidr i _ | .removeCidr i => ∃ cidr ∈ value.cidrs[i]?, ¬ value.isDerived cidr
  | _ => True

instance (value : Config) (a : Edit) : Decidable (enabled value a) := by
  unfold enabled
  split
  all_goals infer_instance

/-- The rows after an edit of one. -/
def editRows (cidrs : List Str) : Edit → List Str
  | .addCidr => cidrs ++ [[]]
  | .editCidr i text => cidrs.set i text
  | .removeCidr i => cidrs.eraseIdx i
  | _ => cidrs

def change (value : Config) (a : Edit) : Config :=
  match addressPatch a with
  | some patch => value.set (value.syncProxyCidrs patch)
  | none => value.set { proxyCidrs := some (editRows value.cidrs a) }

/-! ## Whose the entries are -/

/-- What a row with this text names: nothing, when it is blank. -/
def named (text : Str) : List Str := if jsTrim text = [] then [] else [jsTrim text]

/-- The networks that a list names. -/
def Names (texts : List Str) (t : Str) : Prop := t ∈ texts.flatMap named

instance (texts : List Str) (t : Str) : Decidable (Names texts t) :=
  inferInstanceAs (Decidable (_ ∈ _))

/-- The rows that an edit leaves alone. -/
def untouched (value : Config) : Edit → List Str
  | .editCidr i _ | .removeCidr i => value.cidrs.eraseIdx i
  | _ => value.cidrs

/-- What an edit has the user put there. -/
def typed : Edit → List Str
  | .editCidr _ text => named text
  | _ => []

/-- The configuration, and the entries that are the user's. -/
structure Editor where
  value : Config
  users : List Str

/-- The initial entries are the user's. Whether that is so of one that is the own network
nobody can tell. -/
def Editor.start (value : Config) (ownIsUsers : Bool) : Editor where
  value := value
  users := (value.cidrs.flatMap named).filter fun t =>
    ownIsUsers || value.ownCidr != some t

/-- The user's entries are those that were so and are in a row the edit leaves alone, and
what is typed. -/
def step (e : Editor) (a : Edit) : Option Editor :=
  if enabled e.value a then
    some
      { value := change e.value a
        users := e.users.filter (fun t => Names (untouched e.value a) t) ++ typed a }
  else none

/-- The list names the user's entries and the own network. -/
def Derives (e : Editor) : Prop :=
  ∀ t, Names e.value.cidrs t ↔ t ∈ e.users ∨ e.value.ownCidr = some t

/-- After the edit. -/
def FollowedBy (e : Editor) (a : Edit) : Prop := ∀ e', step e a = some e' → Derives e'

/-- An own network that is listed and not the user's stays the own network when the address
is edited, and when a row is edited the own network is listed, or typed. -/
def Careful (e : Editor) (a : Edit) : Prop :=
  match addressPatch a with
  | some patch =>
    ∀ own, e.value.ownCidr = some own → Names e.value.cidrs own →
      own ∈ e.users ∨ (e.value.set patch).ownCidr = some own
  | none =>
    ∀ own, e.value.ownCidr = some own → Names e.value.cidrs own ∨ own ∈ typed a

/-! ## What is named -/

theorem mem_named {text t : Str} : t ∈ named text ↔ t ≠ [] ∧ jsTrim text = t := by
  unfold named
  split
  · rename_i hblank
    simp only [hblank, List.not_mem_nil, false_iff, not_and]
    intro hne heq
    exact hne heq.symm
  · rename_i hne
    rw [List.mem_singleton]
    constructor
    · rintro rfl
      exact ⟨hne, rfl⟩
    · rintro ⟨-, rfl⟩
      rfl

theorem names_iff {texts : List Str} {t : Str} :
    Names texts t ↔ t ≠ [] ∧ ∃ text ∈ texts, jsTrim text = t := by
  simp only [Names, List.mem_flatMap, mem_named]
  constructor
  · rintro ⟨text, hmem, hne, htrim⟩
    exact ⟨hne, text, hmem, htrim⟩
  · rintro ⟨hne, text, hmem, htrim⟩
    exact ⟨text, hmem, hne, htrim⟩

theorem names_append (front back : List Str) (t : Str) :
    Names (front ++ back) t ↔ Names front t ∨ Names back t := by
  simp only [Names, List.flatMap_append, List.mem_append]

/-- A row in front or behind does not matter. -/
theorem names_of_perm {texts texts' : List Str} (h : texts.Perm texts') (t : Str) :
    Names texts t ↔ Names texts' t :=
  (h.flatMap_right named).mem_iff

theorem names_cons (text : Str) (texts : List Str) (t : Str) :
    Names (text :: texts) t ↔ t ∈ named text ∨ Names texts t := by
  simp only [Names, List.flatMap_cons, List.mem_append]

/-- The networks in the rows, by one of the rows. -/
theorem names_eraseIdx {texts : List Str} {i : Nat} {text : Str} (h : texts[i]? = some text)
    (t : Str) : Names texts t ↔ t ∈ named text ∨ Names (texts.eraseIdx i) t := by
  obtain ⟨hi, rfl⟩ := List.getElem?_eq_some_iff.1 h
  rw [← names_cons]
  exact names_of_perm (List.getElem_cons_eraseIdx_perm hi).symm t

theorem names_set {texts : List Str} {i : Nat} (hi : i < texts.length) (text t : Str) :
    Names (texts.set i text) t ↔ t ∈ named text ∨ Names (texts.eraseIdx i) t := by
  have hset : (texts.set i text)[i]? = some text := by simp [hi]
  rw [names_eraseIdx hset, List.eraseIdx_set_eq]

/-- Trimming and leaving out what comes twice keeps the names. -/
theorem names_kept (value : Config) (t : Str) : Names value.kept t ↔ Names value.cidrs t := by
  have hmem : ∀ s, s ∈ value.kept ↔ s ∈ value.cidrs.map jsTrim ∧ s ≠ [] := by
    intro s
    have hkeys := mem_map_distinctFrom id (· = []) [] (value.cidrs.map jsTrim) s
    rw [List.map_id, List.map_id] at hkeys
    rw [Config.kept, hkeys]
    simp
  rw [names_iff, names_iff]
  constructor
  · rintro ⟨hne, s, hs, htrim⟩
    obtain ⟨text, htext, rfl⟩ := List.mem_map.1 ((hmem s).1 hs).1
    rw [jsTrim_jsTrim] at htrim
    exact ⟨hne, text, htext, htrim⟩
  · rintro ⟨hne, text, htext, rfl⟩
    exact ⟨hne, _, (hmem _).2 ⟨List.mem_map_of_mem htext, hne⟩, jsTrim_jsTrim text⟩

/-! ## The own network -/

/-- The network of an address has no blanks. -/
theorem named_cidr {ip own : Str} {length : Option ℚ} (h : computeNetworkCidr ip length = some own) :
    named own = [own] := by
  have hchars : ∀ v n, ∀ c ∈ cidrText v n, isJsSpace c = false := by
    intro v n c hc
    rw [cidrText_eq, List.mem_append, List.mem_cons] at hc
    rcases hc with htext | rfl | hdigit
    · rcases Inet4.mem_text htext with rfl | hdigit
      · decide
      · exact isJsSpace_of_isDigit hdigit
    · decide
    · exact isJsSpace_of_isDigit (isDigit_of_mem_decimal hdigit)
  have hne : ∀ v n, cidrText v n ≠ [] := by
    intro v n
    rw [cidrText_eq]
    simp
  unfold computeNetworkCidr at h
  split at h
  · cases h
  split at h
  · cases h
  obtain rfl := Option.some.inj h
  rw [named, jsTrim_eq_self (hchars _ _), if_neg (hne _ _)]

/-- A list that is kept without its entry for the own network, or with it. -/
theorem names_syncProxyCidrs (value patch : Config) (t : Str) :
    Names (value.set (value.syncProxyCidrs patch)).cidrs t ↔
      Names value.cidrs t ∨ (value.set patch).ownCidr = some t := by
  have hown : (value.set patch).ownCidr = computeNetworkCidr
      ((patch.virtualIpv4.or value.virtualIpv4).getD [])
      ((patch.networkLength.or value.networkLength).getD (some 24)) := rfl
  show Names (match computeNetworkCidr _ _ with
    | some newC => if newC ∈ value.kept then value.kept else value.kept ++ [newC]
    | none => value.kept) t ↔ _
  rw [hown]
  cases hnew : computeNetworkCidr ((patch.virtualIpv4.or value.virtualIpv4).getD [])
      ((patch.networkLength.or value.networkLength).getD (some 24)) with
  | none => simp [names_kept]
  | some newC =>
    have hself : t ∈ named newC ↔ some newC = some t := by
      rw [named_cidr hnew, List.mem_singleton, Option.some.injEq, eq_comm]
    rw [← names_kept]
    dsimp only
    split
    · -- it is listed already
      rename_i hlisted
      rw [← hself]
      refine (or_iff_left_of_imp ?_).symm
      intro ht
      exact List.mem_flatMap.2 ⟨newC, hlisted, ht⟩
    · rw [names_append, ← hself]
      simp [Names]

/-! ## One edit -/

variable {a : Edit}

theorem ownCidr_change (h : addressPatch a = none) (value : Config) :
    (change value a).ownCidr = value.ownCidr := by
  simp only [change, h, Config.set, Config.ownCidr, Option.none_or]

theorem ownCidr_change_address {patch : Config} (h : addressPatch a = some patch)
    (value : Config) : (change value a).ownCidr = (value.set patch).ownCidr := by
  rw [change, h]
  rfl

/-- An edit of the address leaves all rows alone. -/
theorem untouched_address {patch : Config} (h : addressPatch a = some patch)
    (value : Config) : untouched value a = value.cidrs ∧ typed a = [] := by
  cases a
  case virtualIpv4 | networkLength => exact ⟨rfl, rfl⟩
  case addCidr | editCidr | removeCidr => cases h

/-- What is named after an edit: what was in the rows it leaves alone, what is typed, and
when it is of the address, the own network. -/
theorem names_edit {value : Config} (h : enabled value a) (t : Str) :
    Names (change value a).cidrs t ↔ Names (untouched value a) t ∨ t ∈ typed a ∨
      (addressPatch a ≠ none ∧ (change value a).ownCidr = some t) := by
  have haddress : ∀ patch, addressPatch a = some patch →
      (Names (change value a).cidrs t ↔ Names (untouched value a) t ∨ t ∈ typed a ∨
        (addressPatch a ≠ none ∧ (change value a).ownCidr = some t)) := by
    intro patch hpatch
    obtain ⟨hrows, htyped⟩ := untouched_address hpatch value
    rw [ownCidr_change_address hpatch, hrows, htyped, change, hpatch]
    simpa using names_syncProxyCidrs value patch t
  cases a with
  | virtualIpv4 ip => exact haddress _ rfl
  | networkLength text => exact haddress _ rfl
  | addCidr =>
    have hrows : (change value .addCidr).cidrs = value.cidrs ++ [[]] := rfl
    rw [hrows, names_append]
    simp [untouched, typed, addressPatch, Names, named, jsTrim]
  | editCidr i text =>
    obtain ⟨cidr, hcidr, -⟩ := h
    have hrows : (change value (.editCidr i text)).cidrs = value.cidrs.set i text := rfl
    rw [hrows, names_set (List.getElem?_eq_some_iff.1 hcidr).1]
    simp [untouched, typed, addressPatch, or_comm]
  | removeCidr i =>
    have hrows : (change value (.removeCidr i)).cidrs = value.cidrs.eraseIdx i := rfl
    rw [hrows]
    simp [untouched, typed, addressPatch]

/-- The own network is in no row that can be edited. -/
theorem names_untouched {value : Config} (h : enabled value a) {t : Str} :
    Names value.cidrs t → Names (untouched value a) t ∨
      (addressPatch a = none ∧ value.ownCidr ≠ some t) := by
  intro ht
  have hrow : ∀ i, (∃ cidr ∈ value.cidrs[i]?, ¬ value.isDerived cidr) →
      Names (value.cidrs.eraseIdx i) t ∨ value.ownCidr ≠ some t := by
    rintro i ⟨cidr, hcidr, hfree⟩
    rcases (names_eraseIdx hcidr t).1 ht with hnamed | hrest
    · right
      rintro hown
      rw [← (mem_named.1 hnamed).2] at hown
      exact hfree hown
    · exact .inl hrest
  cases a with
  | virtualIpv4 ip => exact .inl ht
  | networkLength text => exact .inl ht
  | addCidr => exact .inl ht
  | editCidr i text => exact (hrow i h).imp_right fun hne => ⟨rfl, hne⟩
  | removeCidr i => exact (hrow i h).imp_right fun hne => ⟨rfl, hne⟩

theorem names_of_untouched {value : Config} {t : Str}
    (h : Names (untouched value a) t) : Names value.cidrs t := by
  have hrow : ∀ i, Names (value.cidrs.eraseIdx i) t → Names value.cidrs t := by
    intro i hrest
    rw [names_iff] at hrest ⊢
    obtain ⟨hne, text, htext, htrim⟩ := hrest
    exact ⟨hne, text, List.mem_of_mem_eraseIdx htext, htrim⟩
  cases a with
  | virtualIpv4 ip => exact h
  | networkLength text => exact h
  | addCidr => exact h
  | editCidr i text => exact hrow i h
  | removeCidr i => exact hrow i h

/-- Everything the user put there is listed, and what is listed besides is the own network. -/
structure Accounted (e : Editor) : Prop where
  listed : ∀ t ∈ e.users, Names e.value.cidrs t
  known : ∀ t, Names e.value.cidrs t → t ∈ e.users ∨ e.value.ownCidr = some t

theorem accounted_start (value : Config) (ownIsUsers : Bool) :
    Accounted (Editor.start value ownIsUsers) where
  listed := fun t ht => (List.mem_filter.1 ht).1
  known := by
    intro t ht
    by_cases hown : value.ownCidr = some t
    · exact .inr hown
    · exact .inl (List.mem_filter.2 ⟨ht, by simp [hown]⟩)

variable {e e' : Editor}

theorem Derives.accounted (h : Derives e) : Accounted e where
  listed := fun t ht => (h t).2 (.inl ht)
  known := fun t ht => (h t).1 ht

theorem step_eq_some (h : step e a = some e') : enabled e.value a ∧ e'.value = change e.value a ∧
      ∀ t, t ∈ e'.users ↔ (t ∈ e.users ∧ Names (untouched e.value a) t) ∨ t ∈ typed a := by
  unfold step at h
  split at h
  · rename_i henabled
    obtain rfl := Option.some.inj h
    refine ⟨henabled, rfl, ?_⟩
    intro t
    simp only [List.mem_append, List.mem_filter, decide_eq_true_eq]
  · cases h

/-- An edit of the address: every entry stays, and the new own network is listed. -/
theorem derives_address {patch : Config} (h : Accounted e)
    (hstep : step e a = some e') (haddress : addressPatch a = some patch) :
    Derives e' ↔ ∀ own, e.value.ownCidr = some own → Names e.value.cidrs own →
      own ∈ e.users ∨ (e.value.set patch).ownCidr = some own := by
  obtain ⟨henabled, hvalue, husers⟩ := step_eq_some hstep
  obtain ⟨hrows, htyped⟩ := untouched_address haddress e.value
  have hown : e'.value.ownCidr = (e.value.set patch).ownCidr := by
    rw [hvalue, ownCidr_change_address haddress]
  have hnames : ∀ t, Names e'.value.cidrs t ↔
      Names e.value.cidrs t ∨ (e.value.set patch).ownCidr = some t := by
    intro t
    rw [← hown, hvalue, names_edit henabled, hrows, htyped]
    simp [haddress]
  have hkept : ∀ t, t ∈ e'.users ↔ t ∈ e.users := by
    intro t
    rw [husers, hrows, htyped]
    simp only [List.not_mem_nil, or_false, and_iff_left_iff_imp]
    exact h.listed t
  simp only [Derives, hnames, hkept, hown]
  constructor
  · intro hall own _ hlisted
    exact (hall own).1 (.inl hlisted)
  · intro hcareful t
    constructor
    · rintro (hlisted | hnew)
      · rcases h.known t hlisted with huser | hold
        · exact .inl huser
        · exact hcareful t hold hlisted
      · exact .inr hnew
    · rintro (huser | hnew)
      · exact .inl (h.listed t huser)
      · exact .inr hnew

/-- An edit of the entries: only the own network may be missing. -/
theorem derives_entries (h : Accounted e)
    (hstep : step e a = some e') (hentries : addressPatch a = none) :
    Derives e' ↔ ∀ own, e.value.ownCidr = some own →
      Names e.value.cidrs own ∨ own ∈ typed a := by
  obtain ⟨henabled, hvalue, husers⟩ := step_eq_some hstep
  have hown : e'.value.ownCidr = e.value.ownCidr := by
    rw [hvalue, ownCidr_change hentries]
  have hnames : ∀ t, Names e'.value.cidrs t ↔ Names (untouched e.value a) t ∨ t ∈ typed a := by
    intro t
    rw [hvalue, names_edit henabled]
    simp [hentries]
  simp only [Derives, hnames, husers, hown]
  constructor
  · intro hall own hisOwn
    exact ((hall own).2 (.inr hisOwn)).imp_left names_of_untouched
  · intro hcareful t
    constructor
    · rintro (hrest | htyped)
      · -- an entry that was not the user's is the own network
        exact (h.known t (names_of_untouched hrest)).imp_left fun huser => .inl ⟨huser, hrest⟩
      · exact .inl (.inr htyped)
    · rintro ((⟨-, hrest⟩ | htyped) | hisOwn)
      · exact .inl hrest
      · exact .inr htyped
      · rcases hcareful t hisOwn with hlisted | htyped
        · rcases names_untouched henabled hlisted with hrest | ⟨-, hne⟩
          · exact .inl hrest
          · exact absurd hisOwn hne
        · exact .inr htyped

theorem derives_step (h : Accounted e) (hstep : step e a = some e') : Derives e' ↔ Careful e a := by
  unfold Careful
  cases haddress : addressPatch a with
  | some patch => exact derives_address h hstep haddress
  | none => exact derives_entries h hstep haddress

/-! ## Runs -/

/-- After each edit of a run the list is as expected exactly if the edits of the run are
careful. -/
theorem derived_follows_iff (value : Config) (ownIsUsers : Bool) (edits : List Edit) :
    Along step FollowedBy (Editor.start value ownIsUsers) edits ↔
      Along step Careful (Editor.start value ownIsUsers) edits := by
  refine along_iff (I := Accounted) ?_ ?_ (accounted_start value ownIsUsers) edits
  · intro e a e' h hstep
    rw [← derives_step h hstep]
    constructor
    · intro hall
      exact hall e' hstep
    · intro hderives e'' hstep''
      obtain rfl := Option.some.inj (hstep.symm.trans hstep'')
      exact hderives
  · intro e a e' _ hstep hfollowed
    exact (hfollowed e' hstep).accounted

/-- A home whose address is `10.0.0.1`. -/
def home : Config where
  virtualIpv4 := some "10.0.0.1".toList
  networkLength := some (some 24)
  proxyCidrs := some ["10.0.0.0/24".toList]

/-- The address is replaced, and the network of the old one stays. -/
theorem old_network_stays : ¬ ∀ (value : Config) (ownIsUsers : Bool) (edits : List Edit),
    Along step FollowedBy (Editor.start value ownIsUsers) edits := by
  intro hall
  have hold : home.ownCidr = some "10.0.0.0/24".toList :=
    computeNetworkCidr_text ⟨10, 0, 0, 1⟩ (n := 24) (by decide) (by decide)
  have hnew : (change home (.virtualIpv4 "10.1.0.1".toList)).ownCidr = some "10.1.0.0/24".toList :=
    computeNetworkCidr_text ⟨10, 1, 0, 1⟩ (n := 24) (by decide) (by decide)
  have hstep : step (Editor.start home false) (.virtualIpv4 "10.1.0.1".toList) = some _ :=
    if_pos trivial
  have hderives := ((along_cons hstep []).1 (hall home false _)).1 _ hstep
  have hlisted : Names home.cidrs "10.0.0.0/24".toList := by decide
  rcases (derives_address (accounted_start home false) hstep rfl).1 hderives _ hold hlisted with
    huser | hown
  · -- nobody typed it
    have hnot := (List.mem_filter.1 huser).2
    simp [hold] at hnot
  · rw [← ownCidr_change_address (a := .virtualIpv4 "10.1.0.1".toList) rfl] at hown
    exact absurd (hnew.symm.trans hown) (by decide)

end HomeTier.CidrEditor
