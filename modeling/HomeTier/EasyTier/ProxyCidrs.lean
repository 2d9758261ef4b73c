import Mathlib.Data.List.Dedup
import HomeTier.Lib.Distinct
import HomeTier.EasyTier.Agreement

/-! # Proxied networks

`effective_proxy_cidrs` of `src-tauri/src/easytier/config.rs` takes the networks of
`proxy_cidrs`, or those of the legacy field where that list is empty, and adds the own
network. Before a configuration is stored, `dedupe_proxy_cidrs` tidies the list and puts
the own network first; on a phone, `connect` adds the networks that were detected.

Both may make an empty list non-empty, or the other way round, and so switch the legacy
field off or on. They do not change the networks exactly where the legacy field names
nothing that is lost or comes back (`normalised_iff`).
-/

namespace HomeTier

open Lib

namespace NetworkConfig

variable {Url Inet Cidr Ip Addr : Type} (A : AddrParsers Url Inet Cidr Ip Addr)

/-- The network of the own address, as `effective_proxy_cidrs` and `dedupe_proxy_cidrs`
work it out. -/
def ownCidr (c : NetworkConfig) : Option Str :=
  if c.virtualIpv4 ≠ [] ∧ 0 < c.networkLength ∧ c.networkLength ≤ 32 then
    (A.inet (c.virtualIpv4 ++ '/' :: decimal c.networkLength.toNat)).map A.network
  else none

/-- The first `retain` of `dedupe_proxy_cidrs`. -/
def retained (texts : List Str) : List Str := distinctFrom trim (· = []) [] texts

/-- `dedupe_proxy_cidrs` -/
def dedupeProxyCidrs (c : NetworkConfig) : NetworkConfig :=
  { c with
    proxyCidrs :=
      match c.ownCidr A with
      | some own => own :: (retained c.proxyCidrs).filter (trim · ≠ own)
      | none => retained c.proxyCidrs }

/-- The configuration that `connect` starts on a phone. A `HashSet` gives the merged texts
in any order. -/
def Connects (c : NetworkConfig) (autoCidrs : Option (List Str)) (c' : NetworkConfig) : Prop :=
  match autoCidrs with
  | none | some [] => c' = c
  | some cidrs => ∃ merged : List Str, merged.Nodup ∧
      (∀ t, t ∈ merged ↔ t ∈ c.proxyCidrs ∨ t ∈ cidrs) ∧ c' = { c with proxyCidrs := merged }

/-- The networks that a list names. -/
def Names (texts : List Str) (t : Str) : Prop := t ≠ [] ∧ ∃ s ∈ texts, trim s = t

/-- What the claims of `dedupe_proxy_cidrs` and of the merge come to. -/
structure Normalises (c : NetworkConfig) (autoCidrs : Option (List Str)) : Prop where
  same : ∀ t, t ∈ (c.dedupeProxyCidrs A).effectiveProxyCidrs A ↔ t ∈ c.effectiveProxyCidrs A
  distinct : ((c.dedupeProxyCidrs A).proxyCidrs.map trim).Nodup
  ownFirst : ∀ own, c.ownCidr A = some own → (c.dedupeProxyCidrs A).proxyCidrs.head? = some own
  idempotent : (c.dedupeProxyCidrs A).dedupeProxyCidrs A = c.dedupeProxyCidrs A
  merged : ∀ c', c.Connects autoCidrs c' → ∀ t, t ∈ c'.effectiveProxyCidrs A ↔
    t ∈ c.effectiveProxyCidrs A ∨ Names (autoCidrs.getD []) t

/-- Where the list is empty, the legacy field names no network but the own one, if there
is one, and the detected ones, if there are any; where the list is not empty but names
nothing and there is no own network, the legacy field names nothing either. -/
structure LegacyKept (c : NetworkConfig) (autoCidrs : List Str) : Prop where
  own : c.proxyCidrs = [] → ∀ own, c.ownCidr A = some own →
    ∀ t, Names c.proxyNetworks t → t = own
  blank : c.proxyCidrs ≠ [] → c.ownCidr A = none → (∀ t, ¬ Names c.proxyCidrs t) →
    ∀ t, ¬ Names c.proxyNetworks t
  auto : c.proxyCidrs = [] → autoCidrs ≠ [] →
    ∀ t, Names c.proxyNetworks t → Names autoCidrs t ∨ c.ownCidr A = some t

variable {A} {c : NetworkConfig}

/-! ## What the lists name -/

@[simp] theorem not_names_nil (t : Str) : ¬ Names [] t := by simp [Names]

theorem names_cons (s t : Str) (texts : List Str) :
    Names (s :: texts) t ↔ (t ≠ [] ∧ trim s = t) ∨ Names texts t := by
  simp only [Names, List.exists_mem_cons_iff]
  rw [and_or_left]

theorem mem_distinctTrimmed (texts : List Str) (t : Str) :
    t ∈ distinctTrimmed texts ↔ Names texts t := by
  have hfold : ∀ out : List Str, t ∈ texts.foldl (fun out t =>
      if trim t = [] ∨ out.any (fun o => o = trim t) then out else out ++ [trim t]) out ↔
        t ∈ out ∨ Names texts t := by
    induction texts with
    | nil => simp
    | cons s texts ih =>
      intro out
      rw [List.foldl_cons, ih, names_cons, ← or_assoc]
      apply or_congr_left
      split
      · next hout =>
        constructor
        · exact .inl
        · rintro (hmem | ⟨hne, rfl⟩)
          · exact hmem
          · rcases hout with hblank | hany
            · exact absurd hblank hne
            · simpa using hany
      · next hin =>
        rw [not_or] at hin
        rw [List.mem_append, List.mem_singleton]
        apply or_congr_right
        constructor
        · rintro rfl
          exact ⟨hin.1, rfl⟩
        · rintro ⟨-, rfl⟩
          rfl
  simpa [distinctTrimmed] using hfold []

theorem names_retained (texts : List Str) (t : Str) :
    t ∈ (retained texts).map trim ↔ Names texts t := by
  rw [retained, mem_map_distinctFrom, Names, List.mem_map]
  constructor
  · rintro ⟨hs, hne, -⟩
    exact ⟨hne, hs⟩
  · rintro ⟨hne, hs⟩
    exact ⟨hs, hne, by simp⟩

/-- The texts that count. -/
def source (c : NetworkConfig) : List Str :=
  if c.proxyCidrs ≠ [] then c.proxyCidrs else c.proxyNetworks

theorem mem_effectiveProxyCidrs (c : NetworkConfig) (t : Str) :
    t ∈ c.effectiveProxyCidrs A ↔ Names c.source t ∨ c.ownCidr A = some t := by
  rw [← mem_distinctTrimmed, effectiveProxyCidrs, source, ownCidr]
  generalize distinctTrimmed (if c.proxyCidrs ≠ [] then c.proxyCidrs else c.proxyNetworks) = out
  by_cases hown : c.virtualIpv4 ≠ [] ∧ 0 < c.networkLength ∧ c.networkLength ≤ 32
  · rw [if_pos hown, if_pos hown]
    cases A.inet (c.virtualIpv4 ++ '/' :: decimal c.networkLength.toNat) with
    | none => simp
    | some inet =>
      simp only [Option.map_some, Option.some.injEq]
      split
      · next hmem =>
        have hnetwork : A.network inet ∈ out := by simpa using hmem
        constructor
        · exact .inl
        · rintro (hin | rfl)
          · exact hin
          · exact hnetwork
      · rw [List.mem_append, List.mem_singleton, eq_comm]
  · rw [if_neg hown, if_neg hown]
    simp

/-- An own network is a trimmed text. -/
def NetworkTexts (A : AddrParsers Url Inet Cidr Ip Addr) : Prop :=
  ∀ inet, trim (A.network inet) = A.network inet ∧ A.network inet ≠ []

theorem trim_own (hA : NetworkTexts A) {own : Str} (h : c.ownCidr A = some own) :
    trim own = own ∧ own ≠ [] := by
  rw [ownCidr] at h
  split at h
  · rcases Option.map_eq_some_iff.1 h with ⟨inet, -, rfl⟩
    exact hA inet
  · cases h

/-! ## Tidying -/

@[simp] theorem ownCidr_dedupe : (c.dedupeProxyCidrs A).ownCidr A = c.ownCidr A := rfl

theorem names_filter_ne {texts : List Str} {own t : Str} :
    Names (texts.filter (trim · ≠ own)) t ↔ Names texts t ∧ t ≠ own := by
  simp only [Names, List.mem_filter, decide_eq_true_eq]
  constructor
  · rintro ⟨hne, s, ⟨hs, hother⟩, rfl⟩
    exact ⟨⟨hne, s, hs, rfl⟩, hother⟩
  · rintro ⟨⟨hne, s, hs, rfl⟩, hother⟩
    exact ⟨hne, s, ⟨hs, hother⟩, rfl⟩

theorem names_retained_iff (texts : List Str) (t : Str) :
    Names (retained texts) t ↔ Names texts t := by
  rw [← names_retained texts, Names, ← List.mem_map]
  constructor
  · exact And.right
  · intro hmem
    exact ⟨((names_retained texts t).1 hmem).1, hmem⟩

theorem names_dedupe (hA : NetworkTexts A) (t : Str) :
    Names (c.dedupeProxyCidrs A).proxyCidrs t ↔ Names c.proxyCidrs t ∨ c.ownCidr A = some t := by
  rw [dedupeProxyCidrs]
  cases hown : c.ownCidr A with
  | none => simp [names_retained_iff]
  | some own =>
    rcases trim_own hA hown with ⟨htrim, hne⟩
    simp only [names_cons, names_filter_ne, names_retained_iff, htrim, Option.some.injEq]
    constructor
    · rintro (⟨-, heq⟩ | ⟨hnames, -⟩)
      · exact .inr heq
      · exact .inl hnames
    · rintro (hnames | rfl)
      · by_cases heq : t = own
        · exact .inl ⟨hnames.1, heq.symm⟩
        · exact .inr ⟨hnames, heq⟩
      · exact .inl ⟨hne, rfl⟩

theorem retained_eq_nil_iff (texts : List Str) : retained texts = [] ↔ ∀ t, ¬ Names texts t := by
  constructor
  · intro h t hnames
    have hmem := (names_retained texts t).2 hnames
    rw [h] at hmem
    cases hmem
  · intro h
    rw [← List.map_eq_nil_iff (f := trim), List.eq_nil_iff_forall_not_mem]
    intro t hmem
    exact h t ((names_retained texts t).1 hmem)

theorem nodup_dedupe (hA : NetworkTexts A) : ((c.dedupeProxyCidrs A).proxyCidrs.map trim).Nodup := by
  have hretained : ((retained c.proxyCidrs).map trim).Nodup := nodup_distinctFrom _ _ _ _
  rw [dedupeProxyCidrs]
  cases hown : c.ownCidr A with
  | none => exact hretained
  | some own =>
    simp only [List.map_cons, (trim_own hA hown).1, List.nodup_cons]
    constructor
    · rw [List.mem_map]
      rintro ⟨s, hs, heq⟩
      exact absurd heq (by simpa using (List.mem_filter.1 hs).2)
    · exact hretained.sublist (List.filter_sublist.map trim)

theorem retained_dedupe (hA : NetworkTexts A) :
    retained (c.dedupeProxyCidrs A).proxyCidrs = (c.dedupeProxyCidrs A).proxyCidrs := by
  refine distinctFrom_eq_self (nodup_dedupe hA) ?_
  intro s hs
  refine ⟨?_, by simp⟩
  rw [dedupeProxyCidrs] at hs
  have hretained : ∀ s ∈ retained c.proxyCidrs, trim s ≠ [] := fun s hs =>
    ((names_retained c.proxyCidrs (trim s)).1 (List.mem_map_of_mem hs)).1
  cases hown : c.ownCidr A with
  | none =>
    rw [hown] at hs
    exact hretained s hs
  | some own =>
    rw [hown] at hs
    rcases List.mem_cons.1 hs with rfl | hs
    · rw [(trim_own hA hown).1]
      exact (trim_own hA hown).2
    · exact hretained s (List.mem_filter.1 hs).1

theorem dedupe_dedupe (hA : NetworkTexts A) :
    (c.dedupeProxyCidrs A).dedupeProxyCidrs A = c.dedupeProxyCidrs A := by
  have hretained := retained_dedupe (c := c) hA
  rw [dedupeProxyCidrs, ownCidr_dedupe, hretained]
  cases hown : c.ownCidr A with
  | none => rfl
  | some own =>
    -- the own network is taken out of the front and put back
    simp only [dedupeProxyCidrs, hown]
    rw [List.filter_cons_of_neg (by simp [(trim_own hA hown).1]), List.filter_filter]
    simp

/-! ## Where the networks stay -/

theorem same_iff (hA : NetworkTexts A) :
    (∀ t, t ∈ (c.dedupeProxyCidrs A).effectiveProxyCidrs A ↔ t ∈ c.effectiveProxyCidrs A) ↔
      (c.proxyCidrs = [] → ∀ own, c.ownCidr A = some own →
        ∀ t, Names c.proxyNetworks t → t = own) ∧
      (c.proxyCidrs ≠ [] → c.ownCidr A = none → (∀ t, ¬ Names c.proxyCidrs t) →
        ∀ t, ¬ Names c.proxyNetworks t) := by
  simp only [mem_effectiveProxyCidrs, ownCidr_dedupe]
  have hlegacy : (c.dedupeProxyCidrs A).proxyNetworks = c.proxyNetworks := rfl
  by_cases hempty : c.proxyCidrs = []
  · have hsource : c.source = c.proxyNetworks := if_neg (not_not.2 hempty)
    cases hown : c.ownCidr A with
    | none =>
      -- nothing is added, and the legacy field counts as before
      have hnil : (c.dedupeProxyCidrs A).proxyCidrs = [] := by
        rw [dedupeProxyCidrs, hown, hempty]
        rfl
      have hsource' : (c.dedupeProxyCidrs A).source = c.proxyNetworks := if_neg (not_not.2 hnil)
      simp [hsource, hsource', hempty]
    | some own =>
      have hne : (c.dedupeProxyCidrs A).proxyCidrs ≠ [] := by
        rw [dedupeProxyCidrs, hown]
        exact List.cons_ne_nil _ _
      have hsource' : (c.dedupeProxyCidrs A).source = (c.dedupeProxyCidrs A).proxyCidrs :=
        if_pos hne
      simp only [hsource, hsource', names_dedupe hA, hown, hempty, not_names_nil, false_or, or_self,
        Option.some.injEq, forall_const, ne_eq, not_true_eq_false, false_imp_iff, and_true,
        forall_eq']
      constructor
      · intro hsame t hnames
        exact ((hsame t).2 (.inl hnames)).symm
      · intro hall t
        constructor
        · exact .inr
        · rintro (hnames | heq)
          · exact (hall t hnames).symm
          · exact heq
  · have hsource : c.source = c.proxyCidrs := if_pos hempty
    by_cases hnil : (c.dedupeProxyCidrs A).proxyCidrs = []
    · have hsource' : (c.dedupeProxyCidrs A).source = c.proxyNetworks := if_neg (not_not.2 hnil)
      have hown : c.ownCidr A = none := by
        cases hown : c.ownCidr A with
        | none => rfl
        | some own =>
          rw [dedupeProxyCidrs, hown] at hnil
          cases hnil
      have hblank : ∀ t, ¬ Names c.proxyCidrs t := by
        intro t hnames
        have hmem := (names_dedupe hA t).2 (.inl hnames)
        rw [hnil] at hmem
        exact not_names_nil t hmem
      simp [hsource, hsource', hown, hblank, hempty]
    · have hsource' : (c.dedupeProxyCidrs A).source = (c.dedupeProxyCidrs A).proxyCidrs :=
        if_pos hnil
      have hkept : ¬ (c.ownCidr A = none ∧ ∀ t, ¬ Names c.proxyCidrs t) := by
        rintro ⟨hown, hblank⟩
        apply hnil
        rw [dedupeProxyCidrs, hown]
        exact (retained_eq_nil_iff _).2 hblank
      simp only [hsource, hsource', names_dedupe hA]
      refine iff_of_true (fun t => by rw [or_assoc, or_self]) ⟨fun h => absurd h hempty, ?_⟩
      intro _ hown hblank
      exact absurd ⟨hown, hblank⟩ hkept

theorem names_of_mem_iff {texts texts' merged : List Str}
    (h : ∀ t, t ∈ merged ↔ t ∈ texts ∨ t ∈ texts') (t : Str) :
    Names merged t ↔ Names texts t ∨ Names texts' t := by
  simp only [Names, h, ← and_or_left]
  apply and_congr_right
  intro _
  constructor
  · rintro ⟨s, hs | hs, rfl⟩
    · exact .inl ⟨s, hs, rfl⟩
    · exact .inr ⟨s, hs, rfl⟩
  · rintro (⟨s, hs, rfl⟩ | ⟨s, hs, rfl⟩)
    · exact ⟨s, .inl hs, rfl⟩
    · exact ⟨s, .inr hs, rfl⟩

theorem merged_iff (autoCidrs : Option (List Str)) :
    (∀ c', c.Connects autoCidrs c' → ∀ t, t ∈ c'.effectiveProxyCidrs A ↔
        t ∈ c.effectiveProxyCidrs A ∨ Names (autoCidrs.getD []) t) ↔
      (c.proxyCidrs = [] → autoCidrs.getD [] ≠ [] →
        ∀ t, Names c.proxyNetworks t → Names (autoCidrs.getD []) t ∨ c.ownCidr A = some t) := by
  rcases autoCidrs with _ | _ | ⟨cidr, cidrs⟩
  · refine iff_of_true ?_ fun _ h => absurd rfl h
    rintro c' rfl t
    simp
  · refine iff_of_true ?_ fun _ h => absurd rfl h
    rintro c' rfl t
    simp
  · simp only [Option.getD_some, ne_eq, reduceCtorEq, not_false_eq_true, forall_const]
    generalize hauto : cidr :: cidrs = auto
    have hne : auto ≠ [] := by rw [← hauto]; exact List.cons_ne_nil _ _
    have hconnects : ∀ c', c.Connects (some auto) c' ↔ ∃ merged : List Str, merged.Nodup ∧
        (∀ t, t ∈ merged ↔ t ∈ c.proxyCidrs ∨ t ∈ auto) ∧ c' = { c with proxyCidrs := merged } := by
      intro c'
      rw [← hauto]
      rfl
    -- the merged list is not empty, so it is the one that counts
    have heffective : ∀ c', c.Connects (some auto) c' → ∀ t, t ∈ c'.effectiveProxyCidrs A ↔
        (Names c.proxyCidrs t ∨ Names auto t) ∨ c.ownCidr A = some t := by
      intro c' hc' t
      rcases (hconnects c').1 hc' with ⟨merged, -, hmerged, rfl⟩
      have hfull : merged ≠ [] := by
        rcases List.exists_mem_of_ne_nil auto hne with ⟨s, hs⟩
        exact List.ne_nil_of_mem ((hmerged s).2 (.inr hs))
      have hsource : ({ c with proxyCidrs := merged } : NetworkConfig).source = merged :=
        if_pos hfull
      rw [mem_effectiveProxyCidrs, hsource, names_of_mem_iff hmerged]
      rfl
    have hexists : ∃ c', c.Connects (some auto) c' := by
      refine ⟨_, (hconnects _).2 ⟨(c.proxyCidrs ++ auto).dedup, List.nodup_dedup _, ?_, rfl⟩⟩
      simp
    by_cases hempty : c.proxyCidrs = []
    · -- without proxyCidrs the fallback list is given up
      have hsource : c.source = c.proxyNetworks := if_neg (not_not.2 hempty)
      constructor
      · intro hall _ t hnames
        rcases hexists with ⟨c', hc'⟩
        have hmem := (hall c' hc' t).2 (.inl ((mem_effectiveProxyCidrs c t).2
          (.inl (hsource ▸ hnames))))
        have hor := (heffective c' hc' t).1 hmem
        rwa [hempty, or_iff_right (not_names_nil t)] at hor
      · intro hall c' hc' t
        rw [heffective c' hc', mem_effectiveProxyCidrs, hsource, hempty,
          or_iff_right (not_names_nil t)]
        constructor
        · rintro (hnames | hown)
          · exact .inr hnames
          · exact .inl (.inr hown)
        · rintro ((hnames | hown) | hnames)
          · exact hall hempty t hnames
          · exact .inr hown
          · exact .inl hnames
    · have hsource : c.source = c.proxyCidrs := if_pos hempty
      refine iff_of_true ?_ fun h => absurd h hempty
      intro c' hc' t
      rw [heffective c' hc', mem_effectiveProxyCidrs, hsource, or_right_comm]

/-- Tidying keeps the networks, and so does the merge, exactly where the legacy field
names nothing that is lost or comes back; the rest always holds. -/
theorem normalised_iff (hA : NetworkTexts A) (c : NetworkConfig) (autoCidrs : Option (List Str)) :
    c.Normalises A autoCidrs ↔ c.LegacyKept A (autoCidrs.getD []) := by
  constructor
  · intro h
    rcases (same_iff hA).1 h.same with ⟨hown, hblank⟩
    exact ⟨hown, hblank, (merged_iff autoCidrs).1 h.merged⟩
  · intro h
    exact {
      same := (same_iff hA).2 ⟨h.own, h.blank⟩
      distinct := nodup_dedupe hA
      ownFirst := by
        intro own hown
        rw [dedupeProxyCidrs, hown]
        rfl
      idempotent := dedupe_dedupe hA
      merged := (merged_iff autoCidrs).2 h.auto }

/-! ## Two configurations -/

/-- Digits, dots and a slash. -/
theorem networkTexts_ipv4Parsers : NetworkTexts ipv4Parsers := by
  intro inet
  constructor
  · apply trim_eq_self
    intro ch hch
    simp only [ipv4Parsers, List.mem_append, List.mem_cons, or_assoc] at hch
    rcases hch with h | rfl | h | rfl | h | rfl | h | rfl | h
    · exact isWhitespace_decimal h
    · rfl
    · exact isWhitespace_decimal h
    · rfl
    · exact isWhitespace_decimal h
    · rfl
    · exact isWhitespace_decimal h
    · rfl
    · exact isWhitespace_decimal h
  · simp [ipv4Parsers, decimal_ne_nil]

/-- A configuration of an older version, with one proxied network. -/
def legacyConfig : NetworkConfig :=
  { NetworkConfig.default "home".toList with proxyNetworks := ["192.168.1.0/24".toList] }

/-- A static address, and a list with a network that comes twice and the own one. -/
def listedConfig : NetworkConfig :=
  { legacyConfig with
    virtualIpv4 := "10.126.126.2".toList
    networkLength := 24
    proxyCidrs := ["192.168.1.0/24".toList, " 192.168.1.0/24".toList, "10.126.126.0/24".toList] }

/-- The list is tidied and merged with a detected network, and nothing is lost. -/
theorem listed_normalised :
    listedConfig.Normalises ipv4Parsers (some ["192.168.2.0/24".toList]) ∧
      (listedConfig.dedupeProxyCidrs ipv4Parsers).proxyCidrs =
        ["10.126.126.0/24".toList, "192.168.1.0/24".toList] := by
  have hown : listedConfig.ownCidr ipv4Parsers ≠ none := by decide
  have hlist : listedConfig.proxyCidrs ≠ [] := List.cons_ne_nil _ _
  refine ⟨(normalised_iff networkTexts_ipv4Parsers listedConfig _).2 ⟨?_, ?_, ?_⟩, by decide⟩
  · exact fun hnil => absurd hnil hlist
  · exact fun _ hnone => absurd hnone hown
  · exact fun hnil => absurd hnil hlist

/-- A detected network takes the place of the legacy one. -/
theorem legacy_lost : ¬ ∀ {Url Inet Cidr Ip Addr : Type} (A : AddrParsers Url Inet Cidr Ip Addr)
    (c : NetworkConfig) (autoCidrs : Option (List Str)), NetworkTexts A →
      c.Normalises A autoCidrs := by
  intro h
  have hmerged := (h ipv4Parsers legacyConfig (some ["192.168.2.0/24".toList])
    networkTexts_ipv4Parsers).merged
  have hconnects : legacyConfig.Connects (some ["192.168.2.0/24".toList])
      { legacyConfig with proxyCidrs := ["192.168.2.0/24".toList] } :=
    ⟨["192.168.2.0/24".toList], List.nodup_singleton _, fun t => by simp [legacyConfig,
      NetworkConfig.default], rfl⟩
  have hkept : "192.168.1.0/24".toList ∈ legacyConfig.effectiveProxyCidrs ipv4Parsers := by decide
  have hafter := (hmerged _ hconnects "192.168.1.0/24".toList).2 (.inl hkept)
  revert hafter
  decide

end NetworkConfig

end HomeTier
