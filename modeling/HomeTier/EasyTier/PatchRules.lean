import HomeTier.EasyTier.ConfigJson

/-! # How the daemon applies a patch

`EasyTierManager::patch_config` of `src-tauri/src/easytier/mod.rs` goes through
the keys it knows: where the patch has a value of the right kind the field is
set, and otherwise it stays. The keys and what is done with each are a table
(`patchRules`); a field without a rule is never changed.

`apply_eq_read_iff` says, rule by rule, when a field set so is what `serde` reads from
the value of the patch.
-/

namespace HomeTier

open Lib

namespace ConfigJson

inductive PatchRule where
  | setStr
  /-- An `Option<String>`. -/
  | setSomeStr
  | setBool
  /-- `as_u64`, cast to the width. -/
  | setUint (bits : Nat)
  | setSomeUint (bits : Nat)
  /-- `as_i64`, cast to the width. -/
  | setInt (bits : Nat)
  /-- The strings of an array; other elements are left out. -/
  | setStrings
  /-- The objects of an array that have an `uri`. -/
  | setPeers
  /-- The strings of an object, inserted. -/
  | mergeFlags
  | ignored
deriving DecidableEq, Repr

/-- The keys in the order of the source. -/
def patchRules : List (Str × PatchRule) :=
  [("network_name".toList, .setStr),
    ("network_secret".toList, .setStr),
    ("dhcp".toList, .setBool),
    ("ipv4".toList, .setSomeStr),
    ("ipv6".toList, .setSomeStr),
    ("hostname".toList, .setSomeStr),
    ("virtual_ipv4".toList, .setStr),
    ("network_length".toList, .setUint 8),
    ("credential_file".toList, .setSomeStr),
    ("networking_method".toList, .setInt 32),
    ("public_server_url".toList, .setStr),
    ("peer_urls".toList, .setStrings),
    ("listener_urls".toList, .setStrings),
    ("mapped_listeners".toList, .setStrings),
    ("proxy_cidrs".toList, .setStrings),
    ("relay_network_whitelist".toList, .setStrings),
    ("routes".toList, .setStrings),
    ("exit_nodes".toList, .setStrings),
    ("peers".toList, .setPeers),
    ("flags".toList, .mergeFlags),
    ("enable_vpn_portal".toList, .setBool),
    ("disable_ipv6".toList, .setBool),
    ("disable_p2p".toList, .setBool),
    ("enable_kcp_proxy".toList, .setBool),
    ("enable_quic_proxy".toList, .setBool),
    ("latency_first".toList, .setBool),
    ("use_smoltcp".toList, .setBool),
    ("no_tun".toList, .setBool),
    ("enable_exit_node".toList, .setBool),
    ("enable_socks5".toList, .setBool),
    ("enable_udp_broadcast_relay".toList, .setBool),
    ("enable_magic_dns".toList, .setBool),
    ("enable_private_mode".toList, .setBool),
    ("enable_relay_network_whitelist".toList, .setBool),
    ("enable_manual_routes".toList, .setBool),
    ("bind_device".toList, .setBool),
    ("p2p_only".toList, .setBool),
    ("lazy_p2p".toList, .setBool),
    ("multi_thread".toList, .setBool),
    ("proxy_forward_by_system".toList, .setBool),
    ("disable_encryption".toList, .setBool),
    ("disable_tcp_hole_punching".toList, .setBool),
    ("disable_udp_hole_punching".toList, .setBool),
    ("disable_upnp".toList, .setBool),
    ("disable_sym_hole_punching".toList, .setBool),
    ("vpn_portal_listen_port".toList, .setUint 16),
    ("vpn_portal_client_network_len".toList, .setUint 8),
    ("vpn_portal_client_network_addr".toList, .setStr),
    ("socks5_port".toList, .setUint 16),
    ("mtu".toList, .setSomeUint 32),
    ("instance_recv_bps_limit".toList, .setSomeUint 64),
    ("dev_name".toList, .setStr)]

def patchRule (name : Str) : PatchRule := (patchRules.lookup name).getD .ignored

/-- A `PeerConfig` from an element of `peers`. -/
def patchPeer (p : Json) : Option ConfigData := do
  let uri ← (← p.get "uri".toList).asStr
  let key := (p.get "peer_public_key".toList).bind Json.asStr
  return .record [.str uri,
    match key with
    | some key => .some (.str key)
    | none => .none]

def PatchRule.apply (rule : PatchRule) (v : Json) (d : ConfigData) : ConfigData :=
  match rule with
  | .setStr => (v.asStr.map .str).getD d
  | .setSomeStr => (v.asStr.map fun s => .some (.str s)).getD d
  | .setBool => (v.asBool.map .bool).getD d
  | .setUint bits => (v.asU64.map fun n => .int (n % 2 ^ bits : Nat)).getD d
  | .setSomeUint bits => (v.asU64.map fun n => .some (.int (n % 2 ^ bits : Nat))).getD d
  | .setInt bits => (v.asI64.map fun n => .int (n.bmod (2 ^ bits))).getD d
  | .setStrings =>
    (v.asArray.map fun xs => .list (xs.filterMap fun x => x.asStr.map .str)).getD d
  | .setPeers => (v.asArray.map fun xs => .list (xs.filterMap patchPeer)).getD d
  | .mergeFlags =>
    match v.asObject, d with
    | some kvs, .texts m =>
      .texts (insertEntries (kvs.filterMap fun e => e.2.asStr.map fun s => (e.1, s)) m)
    | _, d => d
  | .ignored => d

/-- The part of `patch_config` that changes the configuration. -/
def applyPatch (patch : Json) (ds : List ConfigData) : List ConfigData :=
  List.zipWith (fun (p : Str × FieldType) d =>
    match patch.get p.1 with
    | some v => (patchRule p.1).apply v d
    | none => d) configTypes ds

/-! ## Rules and types -/

/-- The rule is one for fields of the type. -/
def PatchRule.isFor : PatchRule → FieldType → Bool
  | .setStr, .scalar .str => true
  | .setSomeStr, .option .str => true
  | .setBool, .scalar .bool => true
  | .setUint bits, .scalar (.uint bits') => bits = bits'
  | .setSomeUint bits, .option (.uint bits') => bits = bits'
  | .setInt bits, .scalar (.int bits') => bits = bits' && bits = 32
  | .setStrings, .strings => true
  | .setPeers, .records .peer => true
  | .mergeFlags, .texts => true
  | .ignored, _ => true
  | _, _ => false

theorem isFor_patchRule : ∀ p ∈ configTypes, (patchRule p.1).isFor p.2 = true :=
  forall_mem_of_all (by decide)

/-- The pairs of a rule and a type that go together. -/
inductive RuleFor : PatchRule → FieldType → Prop
  | setStr : RuleFor .setStr (.scalar .str)
  | setSomeStr : RuleFor .setSomeStr (.option .str)
  | setBool : RuleFor .setBool (.scalar .bool)
  | setUint (bits : Nat) : RuleFor (.setUint bits) (.scalar (.uint bits))
  | setSomeUint (bits : Nat) : RuleFor (.setSomeUint bits) (.option (.uint bits))
  | setInt : RuleFor (.setInt 32) (.scalar (.int 32))
  | setStrings : RuleFor .setStrings .strings
  | setPeers : RuleFor .setPeers (.records .peer)
  | mergeFlags : RuleFor .mergeFlags .texts
  | ignored (t : FieldType) : RuleFor .ignored t

variable {t : FieldType}

theorem ruleFor_of_isFor {rule : PatchRule} (h : rule.isFor t = true) : RuleFor rule t := by
  rw [PatchRule.isFor.eq_def] at h
  split at h
  · exact .setStr
  · exact .setSomeStr
  · exact .setBool
  · obtain rfl := of_decide_eq_true h
    exact .setUint _
  · obtain rfl := of_decide_eq_true h
    exact .setSomeUint _
  · rw [Bool.and_eq_true] at h
    obtain rfl := of_decide_eq_true h.1
    obtain rfl := of_decide_eq_true h.2
    exact .setInt
  · exact .setStrings
  · exact .setPeers
  · exact .mergeFlags
  · exact .ignored _
  · cases h

/-- Every field has a rule for its type. -/
theorem ruleFor_patchRule {p : Str × FieldType} (hp : p ∈ configTypes) :
    RuleFor (patchRule p.1) p.2 :=
  ruleFor_of_isFor (isFor_patchRule p hp)

/-- A value of the patch from which the rule makes what `serde` reads. -/
def PatchRule.Agrees (rule : PatchRule) (t : FieldType) (v : Json) (d : ConfigData) : Prop :=
  match rule with
  | .setStr => ∃ s, v = .str s
  | .setSomeStr => (∃ s, v = .str s) ∨ v = .null ∧ d = .none
  | .setBool => ∃ b, v = .bool b
  | .setUint bits => ∃ n, v = .int n ∧ 0 ≤ n ∧ n < 2 ^ bits
  | .setSomeUint bits => (∃ n, v = .int n ∧ 0 ≤ n ∧ n < 2 ^ bits) ∨ v = .null ∧ d = .none
  | .setInt bits => ∃ n, v = .int n ∧ -2 ^ (bits - 1) ≤ n ∧ n < 2 ^ (bits - 1)
  | .setStrings => ∃ xs, v = .arr xs ∧ ∀ x ∈ xs, ∃ s, x = .str s
  | .setPeers =>
    ∃ xs, v = .arr xs ∧ ∀ x ∈ xs, ∃ kvs uri, x = .obj kvs ∧
      kvs.lookup "uri".toList = some (.str uri) ∧
      ∀ key, kvs.lookup "peer_public_key".toList = some key → key = .null ∨ ∃ s, key = .str s
  | .mergeFlags =>
    -- flags that the patch does not have would stay
    ∃ kvs m, v = .obj kvs ∧ (∀ e ∈ kvs, ∃ s, e.2 = .str s) ∧ d = .texts m ∧
      ∀ e ∈ m, e.1 ∈ kvs.map (·.1)
  | .ignored => t.read v = some d

/-! ## One rule at a time -/

theorem mapM_eq_filterMap_iff {α β : Type} {f g : α → Option β} {xs : List α} :
    xs.mapM f = some (xs.filterMap g) ↔ ∀ x ∈ xs, ∃ y, f x = some y ∧ g x = some y := by
  rw [mapM_eq_some_iff]
  induction xs with
  | nil => simp
  | cons x xs ih =>
    rw [List.forall_mem_cons, ← ih]
    cases hg : g x with
    | none =>
      -- what is left out is missing in the length
      rw [List.filterMap_cons_none hg]
      constructor
      · intro h
        have hlen := h.length_eq
        have hle := List.length_filterMap_le g xs
        rw [List.length_cons] at hlen
        omega
      · rintro ⟨⟨y, -, hy⟩, -⟩
        cases hy
    | some y =>
      rw [List.filterMap_cons_some hg, List.forall₂_cons]
      constructor
      · rintro ⟨hx, hxs⟩
        exact ⟨⟨y, hx, rfl⟩, hxs⟩
      · rintro ⟨⟨y', hx, hy⟩, hxs⟩
        cases hy
        exact ⟨hx, hxs⟩

theorem toNat_mod_of_lt {bits : Nat} {n : Int} (h0 : 0 ≤ n) (h : n < 2 ^ bits) :
    ((n.toNat % 2 ^ bits : Nat) : Int) = n := by
  have hlt : n.toNat < 2 ^ bits := by
    rw [← Int.ofNat_lt, Int.toNat_of_nonneg h0]
    simpa using h
  rw [Nat.mod_eq_of_lt hlt, Int.toNat_of_nonneg h0]

variable {d : ConfigData} {v : Json}

theorem setUint_iff {bits : Nat} :
    (Scalar.uint bits).read v = some ((PatchRule.setUint bits).apply v d) ↔
      ∃ n, v = .int n ∧ 0 ≤ n ∧ n < 2 ^ bits := by
  cases v with
  | int n =>
    by_cases hrange : 0 ≤ n ∧ n < 2 ^ bits
    · simp only [Scalar.read, if_pos hrange, PatchRule.apply, Json.asU64, if_pos hrange.1,
        Option.map_some, Option.getD_some, toNat_mod_of_lt hrange.1 hrange.2, true_iff]
      exact ⟨n, rfl, hrange⟩
    · simp only [Scalar.read, if_neg hrange, reduceCtorEq, false_iff]
      rintro ⟨n', hn, hrange'⟩
      cases hn
      exact hrange hrange'
  | _ => simp [Scalar.read]

theorem setSomeUint_iff {bits : Nat} :
    readOption (Scalar.uint bits).read v = some ((PatchRule.setSomeUint bits).apply v d) ↔
      (∃ n, v = .int n ∧ 0 ≤ n ∧ n < 2 ^ bits) ∨ v = .null ∧ d = .none := by
  cases v with
  | null => simp [readOption, PatchRule.apply, Json.asU64, eq_comm]
  | int n =>
    by_cases hrange : 0 ≤ n ∧ n < 2 ^ bits
    · simp only [readOption, Scalar.read, if_pos hrange, PatchRule.apply, Json.asU64,
        if_pos hrange.1, Option.map_some, Option.getD_some, toNat_mod_of_lt hrange.1 hrange.2,
        true_iff]
      exact Or.inl ⟨n, rfl, hrange⟩
    · simp only [readOption, Scalar.read, if_neg hrange, Option.map_none, reduceCtorEq, false_iff,
        false_and, or_false]
      rintro ⟨n', hn, hrange'⟩
      cases hn
      exact hrange hrange'
  | _ => simp [readOption, Scalar.read]

theorem bmod_of_range {n : Int} (h : -2 ^ (32 - 1) ≤ n ∧ n < 2 ^ (32 - 1)) :
    n.bmod (2 ^ 32) = n := by
  rw [Int.bmod_def]
  omega

theorem setInt_iff : (Scalar.int 32).read v = some ((PatchRule.setInt 32).apply v d) ↔
      ∃ n, v = .int n ∧ -2 ^ (32 - 1) ≤ n ∧ n < 2 ^ (32 - 1) := by
  cases v with
  | int n =>
    by_cases hrange : -2 ^ (32 - 1) ≤ n ∧ n < 2 ^ (32 - 1)
    · have hsmall : n < 2 ^ 63 := by omega
      simp only [Scalar.read, if_pos hrange, PatchRule.apply, Json.asI64, if_pos hsmall,
        Option.map_some, Option.getD_some, bmod_of_range hrange, true_iff]
      exact ⟨n, rfl, hrange⟩
    · simp only [Scalar.read, if_neg hrange, reduceCtorEq, false_iff]
      rintro ⟨n', hn, hrange'⟩
      cases hn
      exact hrange hrange'
  | _ => simp [Scalar.read]

theorem setStrings_iff : readList Scalar.str.read v = some (PatchRule.setStrings.apply v d) ↔
      ∃ xs, v = .arr xs ∧ ∀ x ∈ xs, ∃ s, x = .str s := by
  have helement : ∀ x : Json, (∃ y, Scalar.str.read x = some y ∧ x.asStr.map .str = some y) ↔
      ∃ s, x = .str s := by
    intro x
    cases x <;> simp [Scalar.read, Json.asStr]
  cases v with
  | arr xs =>
    have hlist : xs.mapM Scalar.str.read =
        some (xs.filterMap fun x => x.asStr.map ConfigData.str) ↔ _ := mapM_eq_filterMap_iff
    simp only [helement] at hlist
    simp [readList, PatchRule.apply, Json.asArray, hlist]
  | _ => simp [readList]

variable {kvs : List (Str × Json)}

theorem readRecord_peer_obj {uri key : Json} (huri : kvs.lookup "uri".toList = some uri)
    (hkey : kvs.lookup "peer_public_key".toList = some key) :
    readRecord RecordKind.peer.fields (.obj kvs) = (do
      let uri ← Scalar.str.read uri
      let key ← readOption Scalar.str.read key
      return .record [uri, key]) := by
  simp only [readRecord, RecordKind.fields, RecordField.str, RecordField.option, List.mapM_cons,
    List.mapM_nil, readField, huri, hkey]
  cases Scalar.str.read uri with
  | none => rfl
  | some u => cases readOption Scalar.str.read key <;> rfl

theorem readRecord_peer_obj_none {uri : Json} (huri : kvs.lookup "uri".toList = some uri)
    (hkey : kvs.lookup "peer_public_key".toList = none) :
    readRecord RecordKind.peer.fields (.obj kvs) = (do
      let uri ← Scalar.str.read uri
      return .record [uri, .none]) := by
  simp only [readRecord, RecordKind.fields, RecordField.str, RecordField.option, List.mapM_cons,
    List.mapM_nil, readField, huri, hkey]
  cases Scalar.str.read uri <;> rfl

theorem patchPeer_obj {uri : Json} (huri : kvs.lookup "uri".toList = some uri) :
    patchPeer (.obj kvs) = uri.asStr.map fun s =>
      .record [.str s,
        match (kvs.lookup "peer_public_key".toList).bind Json.asStr with
        | some key => .some (.str key)
        | none => .none] := by
  simp only [patchPeer, Json.get, huri]
  cases uri <;> rfl

/-- An element of `peers` is taken by both exactly if it is an object of the
right types. -/
theorem peer_iff (x : Json) :
    (∃ y, readRecord RecordKind.peer.fields x = some y ∧ patchPeer x = some y) ↔
      ∃ kvs uri, x = .obj kvs ∧ kvs.lookup "uri".toList = some (.str uri) ∧
        ∀ key, kvs.lookup "peer_public_key".toList = some key →
          key = .null ∨ ∃ s, key = .str s := by
  cases x with
  | obj kvs =>
    cases huri : kvs.lookup "uri".toList with
    | none =>
      have hpeer : patchPeer (.obj kvs) = none := by
        simp only [patchPeer, Json.get, huri]
        rfl
      rw [hpeer]
      constructor
      · rintro ⟨y, -, hy⟩
        cases hy
      · rintro ⟨kvs', uri, hkvs, hlookup, -⟩
        cases hkvs
        rw [huri] at hlookup
        cases hlookup
    | some uri =>
      -- the condition, at this object
      have hright : (∃ kvs' uri', Json.obj kvs = .obj kvs' ∧
          kvs'.lookup "uri".toList = some (.str uri') ∧
          ∀ key, kvs'.lookup "peer_public_key".toList = some key →
            key = .null ∨ ∃ s, key = .str s) ↔
          (∃ s, uri = .str s) ∧ ∀ key, kvs.lookup "peer_public_key".toList = some key →
            key = .null ∨ ∃ s, key = .str s := by
        constructor
        · rintro ⟨kvs', s, hkvs, hs, hkeys⟩
          cases hkvs
          rw [huri] at hs
          cases hs
          exact ⟨⟨s, rfl⟩, hkeys⟩
        · rintro ⟨⟨s, rfl⟩, hkeys⟩
          exact ⟨kvs, s, rfl, huri, hkeys⟩
      rw [hright, patchPeer_obj huri]
      cases hkey : kvs.lookup "peer_public_key".toList with
      | none =>
        rw [readRecord_peer_obj_none huri hkey]
        cases uri <;> simp [Scalar.read, Json.asStr]
      | some key =>
        rw [readRecord_peer_obj huri hkey]
        cases uri <;> cases key <;> simp [Scalar.read, readOption, Json.asStr]
  | _ =>
    constructor
    · rintro ⟨y, -, hy⟩
      cases hy
    · rintro ⟨kvs, uri, hkvs, -⟩
      cases hkvs

theorem setPeers_iff :
    readList (readRecord RecordKind.peer.fields) v = some (PatchRule.setPeers.apply v d) ↔
      ∃ xs, v = .arr xs ∧ ∀ x ∈ xs, ∃ kvs uri, x = .obj kvs ∧
        kvs.lookup "uri".toList = some (.str uri) ∧
        ∀ key, kvs.lookup "peer_public_key".toList = some key →
          key = .null ∨ ∃ s, key = .str s := by
  cases v with
  | arr xs =>
    have hlist : xs.mapM (readRecord RecordKind.peer.fields) = some (xs.filterMap patchPeer) ↔ _ :=
      mapM_eq_filterMap_iff
    simp only [peer_iff] at hlist
    simp only [readList, PatchRule.apply, Json.asArray, Option.map_some, Option.getD_some]
    constructor
    · intro h
      rcases Option.map_eq_some_iff.1 h with ⟨ds, hds, heq⟩
      cases heq
      exact ⟨xs, rfl, hlist.1 hds⟩
    · rintro ⟨xs', hxs, hall⟩
      cases hxs
      rw [hlist.2 hall]
      rfl
  | _ => simp [readList]

/-- Inserting in `m` gives the same as inserting in nothing exactly if every
key of `m` is inserted. -/
theorem insertEntries_eq_iff {es m : List (Str × Str)} (hes : (es.map (·.1)).Nodup)
    (hm : Sorted m) :
    insertEntries es [] = insertEntries es m ↔ ∀ e ∈ m, e.1 ∈ es.map (·.1) := by
  constructor
  · intro heq e he
    by_contra hnot
    have hlookup := lookup_insertEntries hes m e.1
    rw [← heq, lookup_insertEntries hes, lookup_eq_none hnot, lookup_of_mem hm.nodup he] at hlookup
    cases hlookup
  · intro hall
    apply sorted_ext (sorted_insertEntries es sorted_nil) (sorted_insertEntries es hm)
    intro k
    rw [lookup_insertEntries hes, lookup_insertEntries hes]
    cases hes' : es.lookup k with
    | some s => rfl
    | none =>
      cases hk : m.lookup k with
      | none => rfl
      | some s =>
        -- the key is inserted after all
        rcases List.mem_map.1 (hall _ (mem_of_lookup hk)) with ⟨e, he, rfl⟩
        rw [lookup_of_mem hes he] at hes'
        cases hes'

/-- An entry with a text. -/
def textEntry (e : Str × Json) : Option (Str × Str) := e.2.asStr.map fun s => (e.1, s)

theorem readTexts_obj_iff {m : List (Str × Str)} : readTexts (.obj kvs) = some (.texts m) ↔
      (∀ e ∈ kvs, ∃ s, e.2 = .str s) ∧ insertEntries (kvs.filterMap textEntry) [] = m := by
  have hall : kvs.mapM textEntry = some (kvs.filterMap textEntry) ↔
      ∀ e ∈ kvs, ∃ s, e.2 = .str s := by
    rw [mapM_eq_filterMap_iff]
    apply forall₂_congr
    rintro ⟨key, v⟩ _
    cases v <;> simp [textEntry, Json.asStr]
  show (kvs.mapM textEntry).map (fun es => ConfigData.texts (insertEntries es [])) = _ ↔ _
  constructor
  · intro h
    rcases Option.map_eq_some_iff.1 h with ⟨es, hes, heq⟩
    cases heq
    have hsome : ∀ e ∈ kvs, (textEntry e).isSome = true := mapM_isSome_iff.1 (by simp [hes])
    have hstr : ∀ e ∈ kvs, ∃ s, e.2 = .str s := by
      rw [← hall, mapM_eq_filterMap_iff]
      intro e he
      rcases Option.isSome_iff_exists.1 (hsome e he) with ⟨y, hy⟩
      exact ⟨y, hy, hy⟩
    rw [hall.2 hstr] at hes
    cases hes
    exact ⟨hstr, rfl⟩
  · rintro ⟨hstr, rfl⟩
    rw [hall.2 hstr]
    rfl

theorem map_fst_filterMap_textEntry (h : ∀ e ∈ kvs, ∃ s, e.2 = .str s) :
    (kvs.filterMap textEntry).map (·.1) = kvs.map (·.1) := by
  induction kvs with
  | nil => rfl
  | cons e kvs ih =>
    rw [List.forall_mem_cons] at h
    rcases h with ⟨⟨s, hs⟩, hrest⟩
    have hentry : textEntry e = some (e.1, s) := by simp [textEntry, hs, Json.asStr]
    rw [List.filterMap_cons_some hentry, List.map_cons, List.map_cons, ih hrest]

/-- A map that is read back has its keys in order. -/
theorem sorted_of_readTexts (h : readTexts (writeTexts d) = some d) :
    ∃ m, d = .texts m ∧ Sorted m := by
  cases d with
  | texts m =>
    rw [writeTexts, readTexts, mapM_asStr_map_str] at h
    have heq : insertEntries m [] = m := ConfigData.texts.inj (Option.some.inj h)
    refine ⟨m, rfl, ?_⟩
    rw [← heq]
    exact sorted_insertEntries m sorted_nil
  | _ => cases h

theorem mergeFlags_iff {k : Nat} (hv : v.Valid k) (hd : readTexts (writeTexts d) = some d) :
    readTexts v = some (PatchRule.mergeFlags.apply v d) ↔
      ∃ kvs m, v = .obj kvs ∧ (∀ e ∈ kvs, ∃ s, e.2 = .str s) ∧ d = .texts m ∧
        ∀ e ∈ m, e.1 ∈ kvs.map (·.1) := by
  rcases sorted_of_readTexts hd with ⟨m, rfl, hm⟩
  cases v with
  | obj kvs =>
    show readTexts (.obj kvs) = some (.texts (insertEntries (kvs.filterMap textEntry) m)) ↔ _
    rw [readTexts_obj_iff]
    constructor
    · rintro ⟨hstr, heq⟩
      have hkeys := map_fst_filterMap_textEntry hstr
      have hnodup : ((kvs.filterMap textEntry).map (·.1)).Nodup := by
        rw [hkeys]
        exact (Json.sorted_of_valid hv).nodup
      rw [insertEntries_eq_iff hnodup hm, hkeys] at heq
      exact ⟨kvs, m, rfl, hstr, rfl, heq⟩
    · rintro ⟨kvs', m', hkvs, hstr, hm', hall⟩
      cases hkvs
      cases hm'
      have hkeys := map_fst_filterMap_textEntry hstr
      have hnodup : ((kvs.filterMap textEntry).map (·.1)).Nodup := by
        rw [hkeys]
        exact (Json.sorted_of_valid hv).nodup
      refine ⟨hstr, ?_⟩
      rw [insertEntries_eq_iff hnodup hm, hkeys]
      exact hall
  | _ => simp [readTexts]

/-- What a rule makes of a field is what `serde` reads from the value of the
patch, exactly if the value agrees with the rule. -/
theorem apply_eq_read_iff {rule : PatchRule} (h : RuleFor rule t) {k : Nat}
    (hv : v.Valid k) (hd : t.read (t.write d) = some d) :
    t.read v = some (rule.apply v d) ↔ rule.Agrees t v d := by
  cases h with
  | setStr =>
    cases v <;> simp [FieldType.read, Scalar.read, PatchRule.apply, PatchRule.Agrees, Json.asStr]
  | setSomeStr =>
    cases v <;> simp [FieldType.read, readOption, Scalar.read, PatchRule.apply, PatchRule.Agrees,
      Json.asStr, eq_comm]
  | setBool =>
    cases v <;> simp [FieldType.read, Scalar.read, PatchRule.apply, PatchRule.Agrees, Json.asBool]
  | setUint bits => exact setUint_iff
  | setSomeUint bits => exact setSomeUint_iff
  | setInt => exact setInt_iff
  | setStrings => exact setStrings_iff
  | setPeers => exact setPeers_iff
  | mergeFlags => exact mergeFlags_iff hv hd
  | ignored => exact Iff.rfl

/-! ## Fields keep their types -/

/-- A field is left, or is set to what is read back. -/
theorem set_back {α : Type} {x : Option α} {set : α → ConfigData}
    (hset : ∀ a, t.read (t.write (set a)) = some (set a)) (hd : t.read (t.write d) = some d) :
    t.read (t.write ((x.map set).getD d)) = some ((x.map set).getD d) := by
  cases x with
  | none => exact hd
  | some a => exact hset a

theorem scalar_uint_back (bits n : Nat) :
    (Scalar.uint bits).read (writeScalar (.int (n % 2 ^ bits : Nat))) =
      some (.int (n % 2 ^ bits : Nat)) := by
  have hrange : 0 ≤ ((n % 2 ^ bits : Nat) : Int) ∧ ((n % 2 ^ bits : Nat) : Int) < 2 ^ bits := by
    have hlt : n % 2 ^ bits < 2 ^ bits := Nat.mod_lt n (Nat.two_pow_pos bits)
    refine ⟨Int.natCast_nonneg _, ?_⟩
    exact_mod_cast hlt
  simp only [writeScalar, Scalar.read, if_pos hrange]

theorem scalar_int_back (n : Int) :
    (Scalar.int 32).read (writeScalar (.int (n.bmod (2 ^ 32)))) =
      some (.int (n.bmod (2 ^ 32))) := by
  have hrange : -2 ^ (32 - 1) ≤ n.bmod (2 ^ 32) ∧ n.bmod (2 ^ 32) < 2 ^ (32 - 1) := by
    rw [Int.bmod_def]
    omega
  simp only [writeScalar, Scalar.read, if_pos hrange]

theorem list_back {read : Json → Option ConfigData} {write : ConfigData → Json}
    {ds : List ConfigData} (h : ∀ d ∈ ds, read (write d) = some d) :
    readList read (writeList write (.list ds)) = some (.list ds) := by
  have hall : List.Forall₂ (fun x d => read x = some d) (ds.map write) ds := by
    rw [List.forall₂_map_left_iff, List.forall₂_same]
    exact h
  rw [writeList, readList, mapM_eq_some_iff.2 hall]
  rfl

/-- A peer that the daemon takes is one that `serde` could have read. -/
theorem patchPeer_back {p : Json} (h : patchPeer p = some d) :
    readRecord RecordKind.peer.fields (writeRecord RecordKind.peer.fields d) = some d := by
  rw [patchPeer] at h
  rcases Option.bind_eq_some_iff.1 h with ⟨uri, -, h⟩
  rcases Option.bind_eq_some_iff.1 h with ⟨s, -, h⟩
  cases h
  have hback := back_record RecordKind.peer.lawful RecordKind.peer.nodup_names
  -- as if it were read from an array of the two
  generalize (p.get "peer_public_key".toList).bind Json.asStr = key
  cases key with
  | none => exact hback (.arr [.str s, .null]) _ rfl
  | some key => exact hback (.arr [.str s, .str key]) _ rfl

theorem apply_back {rule : PatchRule} (h : RuleFor rule t) (v : Json)
    (hd : t.read (t.write d) = some d) :
    t.read (t.write (rule.apply v d)) = some (rule.apply v d) := by
  cases h with
  | setStr => exact set_back (fun _ => rfl) hd
  | setSomeStr => exact set_back (fun _ => rfl) hd
  | setBool => exact set_back (fun _ => rfl) hd
  | setUint bits => exact set_back (scalar_uint_back bits) hd
  | setSomeUint bits =>
    apply set_back _ hd
    intro n
    have hread : (Scalar.uint bits).read (.int (n % 2 ^ bits : Nat)) =
        some (.int (n % 2 ^ bits : Nat)) := scalar_uint_back bits n
    show ((Scalar.uint bits).read (.int (n % 2 ^ bits : Nat))).map ConfigData.some = _
    rw [hread]
    rfl
  | setInt => exact set_back scalar_int_back hd
  | setStrings =>
    apply set_back _ hd
    intro xs
    apply list_back
    intro y hy
    rcases List.mem_filterMap.1 hy with ⟨x, -, hx⟩
    rcases Option.map_eq_some_iff.1 hx with ⟨s, -, rfl⟩
    rfl
  | setPeers =>
    apply set_back _ hd
    intro xs
    apply list_back
    intro y hy
    rcases List.mem_filterMap.1 hy with ⟨x, -, hx⟩
    exact patchPeer_back hx
  | mergeFlags =>
    rcases sorted_of_readTexts hd with ⟨m, rfl, hm⟩
    cases v with
    | obj kvs => exact readTexts_writeTexts (sorted_insertEntries _ hm)
    | _ => exact hd
  | ignored => exact hd

theorem forall₂_zipWith {α β : Type} {R : α → β → Prop} {g : α → β → β} {xs : List α}
    {ys : List β} (h : List.Forall₂ R xs ys) (hg : ∀ x ∈ xs, ∀ y, R x y → R x (g x y)) :
    List.Forall₂ R xs (List.zipWith g xs ys) := by
  induction h with
  | nil => exact List.Forall₂.nil
  | cons hxy _ ih =>
    rw [List.forall_mem_cons] at hg
    exact List.Forall₂.cons (hg.1 _ hxy) (ih hg.2)

/-- A patched configuration still has its types, whatever the patch. -/
theorem wellTyped_applyPatch {ds : List ConfigData} (h : WellTyped ds) (patch : Json) :
    WellTyped (applyPatch patch ds) := by
  refine forall₂_zipWith h ?_
  intro p hp d hd
  cases patch.get p.1 with
  | none => exact hd
  | some v => exact apply_back (ruleFor_patchRule hp) v hd

end ConfigJson

end HomeTier
