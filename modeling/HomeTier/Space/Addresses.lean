import HomeTier.Space.Records

/-! # Addresses of joined nodes

A node that joins a network without an address stores one that depends on
nothing but the id it has drawn for the space: its 16 bytes are the digits of a
number to the base 31, taken modulo `2 ^ 64` and then modulo 250. The creator's
address is made in the same way.

So the addresses are distinct exactly when these remainders are
(`distinct_iff`), which a creator and 250 nodes never have.
-/

namespace HomeTier

open Lib ConfigJson

/-! ## The hash -/

/-- The bytes of an id as digits to the base 31. -/
def byteNumber (id : Uuid) : Nat := Nat.ofDigits 31 ((uuidBytes id).reverse.map (·.toNat))

/-- The class of an id. -/
def idClass (id : Uuid) : Nat := byteNumber id % 2 ^ 64 % 250

theorem idClass_lt (id : Uuid) : idClass id < 250 := Nat.mod_lt _ (by decide)

theorem toNat_foldl_hash (bytes : List UInt8) (h : UInt64) :
    (bytes.foldl (fun h b => h * 31 + b.toUInt64) h).toNat =
      (h.toNat * 31 ^ bytes.length + Nat.ofDigits 31 (bytes.reverse.map (·.toNat))) % 2 ^ 64 := by
  induction bytes generalizing h with
  | nil =>
    simp
  | cons b bytes ih =>
    have hstep : (h * 31 + b.toUInt64).toNat = (h.toNat * 31 + b.toNat) % 2 ^ 64 := by
      rw [UInt64.toNat_add, UInt64.toNat_mul]
      simp [Nat.add_mod]
    have hdigits : Nat.ofDigits 31 ((b :: bytes).reverse.map (·.toNat)) =
        Nat.ofDigits 31 (bytes.reverse.map (·.toNat)) + 31 ^ bytes.length * b.toNat := by
      rw [List.reverse_cons, List.map_append, Nat.ofDigits_append]
      simp
    rw [List.foldl_cons, ih, hstep, hdigits, List.length_cons]
    rw [Nat.add_mod, Nat.mod_mul_mod, ← Nat.add_mod]
    congr 1
    ring

theorem toNat_uuidHash (id : Uuid) : (uuidHash id).toNat = byteNumber id % 2 ^ 64 := by
  rw [uuidHash, toNat_foldl_hash]
  simp [byteNumber]

theorem toNat_host (id : Uuid) : ((uuidHash id % 250).toUInt32 + 2).toNat = idClass id + 2 := by
  have hmod : (uuidHash id % 250).toNat = idClass id := by
    rw [UInt64.toNat_mod, toNat_uuidHash, idClass, show (250 : UInt64).toNat = 250 from rfl]
  have hlt := idClass_lt id
  generalize idClass id = n at hmod hlt ⊢
  rw [UInt32.toNat_add, UInt64.toNat_toUInt32, hmod, show (2 : UInt32).toNat = 2 from rfl]
  omega

theorem canonicalVirtualIpv4_eq (id : Uuid) :
    canonicalVirtualIpv4 id = "10.144.144.".toList ++ decimal (idClass id + 2) :=
  congrArg (fun n => "10.144.144.".toList ++ decimal n) (toNat_host id)

theorem canonicalVirtualIpv4_inj {id id' : Uuid} :
    canonicalVirtualIpv4 id = canonicalVirtualIpv4 id' ↔ idClass id = idClass id' := by
  rw [canonicalVirtualIpv4_eq, canonicalVirtualIpv4_eq, List.append_cancel_left_eq]
  constructor
  · intro h
    exact Nat.add_right_cancel (decimal_injective h)
  · intro h
    rw [h]

/-- A host of `10.144.144.0/24`. -/
def IsHostAddress (addr : Str) : Prop :=
  ∃ host, 1 ≤ host ∧ host ≤ 254 ∧ addr = "10.144.144.".toList ++ decimal host

theorem isHostAddress_canonical (id : Uuid) : IsHostAddress (canonicalVirtualIpv4 id) := by
  have hlt := idClass_lt id
  exact ⟨idClass id + 2, by omega, by omega, canonicalVirtualIpv4_eq id⟩

namespace ConfigJson

/-! ## Fields of the stored configuration -/

theorem isSome_lookup_zip {α : Type} {name : Str} {names : List Str} {ds : List α}
    (hlen : names.length = ds.length) (h : name ∈ names) :
    ((names.zip ds).lookup name).isSome = true := by
  induction names generalizing ds with
  | nil => simp at h
  | cons k names ih =>
    cases ds with
    | nil => simp at hlen
    | cons d ds =>
      rw [List.zip_cons_cons, List.lookup_cons]
      by_cases hk : name = k
      · simp [hk]
      · have hne : (name == k) = false := by simpa using hk
        rw [hne]
        exact ih (by simpa using hlen) (by simpa [hk] using h)

theorem IsConfig.isSome_getField {cfg : ConfigData} (h : IsConfig cfg) {name : Str}
    (hname : name ∈ configNames) : (getField name cfg).isSome = true := by
  rcases h with ⟨ds, rfl, hds⟩
  have hlen : configNames.length = ds.length := by
    have hnames : configNames = configTypes.map (·.1) := rfl
    rw [hnames, List.length_map]
    exact hds.length_eq
  exact isSome_lookup_zip hlen hname

/-- The texts of a list that reads back. -/
theorem mem_back {ds : List ConfigData}
    (h : FieldType.strings.read (FieldType.strings.write (.list ds)) = some (.list ds)) :
    ∀ d ∈ ds, Scalar.str.read (writeScalar d) = some d := by
  rcases Option.map_eq_some_iff.1 h with ⟨ds', hread, heq⟩
  obtain rfl : ds' = ds := by simpa using heq
  have hall := mapM_eq_some_iff.1 hread
  rw [List.forall₂_map_left_iff, List.forall₂_same] at hall
  exact hall

end ConfigJson

namespace SpaceRecords

theorem mem_keepFirst {ds : List ConfigData} {acc : List Str × List ConfigData} {d : ConfigData}
    (h : d ∈ (ds.foldl keepFirst acc).2) : d ∈ acc.2 ∨ d ∈ ds := by
  induction ds generalizing acc with
  | nil => exact .inl h
  | cons x ds ih =>
    rcases ih h with hd | hd
    · simp only [keepFirst] at hd
      split at hd
      · exact .inl hd
      · rcases List.mem_append.1 hd with hd | hd
        · exact .inl hd
        · rw [List.mem_singleton.1 hd]
          exact .inr List.mem_cons_self
    · exact .inr (List.mem_cons_of_mem x hd)

theorem mem_firstTexts {ds : List ConfigData} {d : ConfigData} (h : d ∈ firstTexts ds) :
    d ∈ ds := by
  rcases mem_keepFirst h with hd | hd
  · cases hd
  · exact hd

/-! ## The fields that are set -/

theorem type_networkName : configTypes.lookup "network_name".toList = some (.scalar .str) := by
  decide

theorem type_networkSecret :
    configTypes.lookup "network_secret".toList = some (.scalar .str) := by
  decide

theorem type_virtualIpv4 : configTypes.lookup "virtual_ipv4".toList = some (.scalar .str) := by
  decide

theorem type_dhcp : configTypes.lookup "dhcp".toList = some (.scalar .bool) := by decide

theorem type_proxyCidrs : configTypes.lookup "proxy_cidrs".toList = some .strings := by
  decide

theorem mem_configNames {name : Str} {t : FieldType} (h : configTypes.lookup name = some t) :
    name ∈ configNames :=
  List.mem_map_of_mem (f := Prod.fst) (mem_of_lookup h)

theorem isConfig_setText {cfg : ConfigData} (h : IsConfig cfg) (name : String) (s : Str)
    (hname : configTypes.lookup name.toList = some (.scalar .str)) :
    IsConfig (setText name s cfg) :=
  h.modifyField hname fun _ _ => rfl

theorem isConfig_setDhcp {cfg : ConfigData} (h : IsConfig cfg) :
    IsConfig (modifyField "dhcp".toList (fun _ => .bool false) cfg) :=
  h.modifyField type_dhcp fun _ _ => rfl

theorem isConfig_dedupeProxyCidrs {cfg : ConfigData} (h : IsConfig cfg)
    (networkOf : Str → Option Str) : IsConfig (dedupeProxyCidrs networkOf cfg) := by
  refine h.modifyField type_proxyCidrs ?_
  intro d hd
  generalize ownCidr networkOf cfg = own
  cases d with
  | list ds =>
    have hback := mem_back hd
    cases own with
    | none =>
      apply list_back
      intro d hd
      exact hback d (mem_firstTexts hd)
    | some own =>
      apply list_back
      intro d hd
      rcases List.mem_cons.1 hd with rfl | hd
      · rfl
      · exact hback d (mem_firstTexts (List.mem_of_mem_filter hd))
  | _ => cases own <;> exact hd

/-- The address is not a network to be routed. -/
theorem address_dedupeProxyCidrs (networkOf : Str → Option Str) (cfg : ConfigData) :
    getField "virtual_ipv4".toList (dedupeProxyCidrs networkOf cfg) =
      getField "virtual_ipv4".toList cfg := by
  rw [dedupeProxyCidrs, getField_modifyField, if_neg (by decide)]

theorem getField_setText (name : String) (s : Str) {cfg : ConfigData} (h : IsConfig cfg)
    (hname : name.toList ∈ configNames) :
    getField name.toList (setText name s cfg) = some (.str s) := by
  rcases Option.isSome_iff_exists.1 (h.isSome_getField hname) with ⟨d, hd⟩
  rw [setText, getField_modifyField, if_pos rfl, hd]
  rfl

theorem isConfig_base (fresh : Str) (userConfig : Option Json) :
    IsConfig ((userConfig.bind (readConfig fresh)).getD (defaultConfig fresh)) := by
  cases hread : userConfig.bind (readConfig fresh) with
  | none => exact isConfig_default fresh
  | some cfg =>
    rcases Option.bind_eq_some_iff.1 hread with ⟨v, -, hv⟩
    exact wellTyped_of_readConfig hv

theorem createConfig_spec (networkOf : Str → Option Str) (fresh : Str) (userConfig : Option Json)
    (id : Uuid) (networkName networkSecret : Str) :
    IsConfig (createConfig networkOf fresh userConfig id networkName networkSecret) ∧
      getField "virtual_ipv4".toList
        (createConfig networkOf fresh userConfig id networkName networkSecret) =
          some (.str (canonicalVirtualIpv4 id)) := by
  have hnamed := isConfig_setText (isConfig_base fresh userConfig) "network_name" networkName
    type_networkName
  have hsecret := isConfig_setText hnamed "network_secret" networkSecret
    type_networkSecret
  have hdhcp := isConfig_setDhcp hsecret
  constructor
  · exact isConfig_dedupeProxyCidrs (isConfig_setText hdhcp "virtual_ipv4" _
      type_virtualIpv4) networkOf
  · rw [createConfig, address_dedupeProxyCidrs]
    exact getField_setText "virtual_ipv4" _ hdhcp (mem_configNames type_virtualIpv4)

/-- A configuration without an address is given one. -/
theorem joinConfig_spec (networkOf : Str → Option Str) (id : Uuid) {config : ConfigData}
    (h : IsConfig config) (hnone : getField "virtual_ipv4".toList config = some (.str [])) :
    IsConfig (joinConfig networkOf id config) ∧
      getField "virtual_ipv4".toList (joinConfig networkOf id config) =
        some (.str (canonicalVirtualIpv4 id)) := by
  have hdhcp := isConfig_setDhcp h
  have hfield : getField "virtual_ipv4".toList
      (modifyField "dhcp".toList (fun _ => .bool false) config) = some (.str []) := by
    rw [getField_modifyField, if_neg (by decide)]
    exact hnone
  have hblank : textField "virtual_ipv4"
      (modifyField "dhcp".toList (fun _ => .bool false) config) = [] := by
    rw [textField, hfield]
  rw [joinConfig]
  simp only [hblank, if_true]
  constructor
  · exact isConfig_dedupeProxyCidrs (isConfig_setText hdhcp "virtual_ipv4" _
      type_virtualIpv4) networkOf
  · rw [address_dedupeProxyCidrs]
    exact getField_setText "virtual_ipv4" _ hdhcp (mem_configNames type_virtualIpv4)

/-! ## Stored addresses -/

/-- The address in the stored configuration. -/
def SpaceRow.virtualIpv4 (row : SpaceRow) : Option Str :=
  match (row.configJson.bind (readConfig [])).bind (getField "virtual_ipv4".toList) with
  | some (.str s) => some s
  | _ => none

theorem virtualIpv4_of_config {row : SpaceRow} {cfg : ConfigData} {s : Str}
    (hrow : row.configJson = some (writeConfig cfg)) (h : IsConfig cfg)
    (hs : getField "virtual_ipv4".toList cfg = some (.str s)) : row.virtualIpv4 = some s := by
  rw [SpaceRow.virtualIpv4, hrow, Option.bind_some, h.readConfig_writeConfig, Option.bind_some, hs]

theorem storeConfig_ok {m : Manager} {db : Db} {io : RecordIo} {row space : SpaceRow}
    {config : ConfigData} (h : (storeConfig m db io row config).1 = .ok space) :
    space.configJson = some (writeConfig config) := by
  unfold storeConfig at h
  split at h
  · cases h
  · obtain rfl := Except.ok.inj h
    rfl

/-- A `create` on a machine. -/
structure CreateCall where
  manager : Manager
  relayPrefix : Str
  name : Str
  networkSecret : Str
  description : Option Str
  io : RecordIo

/-- A `join` on a machine, with a configuration that was read from JSON. -/
structure JoinCall where
  manager : Manager
  config : ConfigData
  isConfig : IsConfig config
  name : Option Str
  io : RecordIo

section Calls

variable (foreignKeys : Bool) (networkOf : Str → Option Str)

def CreateCall.result (c : CreateCall) : Except Str SpaceRow :=
  (create foreignKeys networkOf c.manager c.relayPrefix c.name c.networkSecret c.description c.io).1

def JoinCall.result (j : JoinCall) : Except Str SpaceRow :=
  (join networkOf j.manager j.config j.name j.io).1

/-- The address that a call has stored. -/
def assigned : Except Str SpaceRow → Option Str
  | .ok row => row.virtualIpv4
  | .error _ => none

/-- No address comes with the configuration. -/
def JoinCall.Unaddressed (j : JoinCall) : Prop :=
  getField "virtual_ipv4".toList j.config = some (.str [])

/-- The addresses of the nodes are hosts of the network, no two are equal, and
none is the creator's. -/
structure Distinct (c : CreateCall) (joins : List JoinCall) : Prop where
  nodup : (joins.map fun j => assigned (j.result networkOf)).Nodup
  host : ∀ j ∈ joins, ∃ addr, assigned (j.result networkOf) = some addr ∧ IsHostAddress addr
  creator : ∀ j ∈ joins, assigned (j.result networkOf) ≠ assigned (c.result foreignKeys networkOf)

variable {foreignKeys networkOf}

theorem assigned_create {c : CreateCall} {row : SpaceRow}
    (h : c.result foreignKeys networkOf = .ok row) :
    assigned (c.result foreignKeys networkOf) = some (canonicalVirtualIpv4 c.io.id) := by
  rw [h]
  rw [CreateCall.result, create] at h
  split at h
  · cases h
  simp only at h
  split at h
  · cases h
  split at h
  · cases h
  split at h
  · cases h
  · rename_i userConfig _
    rcases createConfig_spec networkOf c.io.fresh userConfig c.io.id (c.relayPrefix ++ c.name)
      c.networkSecret with ⟨hconfig, haddr⟩
    exact virtualIpv4_of_config (storeConfig_ok h) hconfig haddr

theorem assigned_join {j : JoinCall} {row : SpaceRow} (h : j.result networkOf = .ok row)
    (hnone : j.Unaddressed) :
    assigned (j.result networkOf) = some (canonicalVirtualIpv4 j.io.id) := by
  rw [h]
  rw [JoinCall.result, join] at h
  split at h
  · cases h
  simp only at h
  split at h
  · cases h
  · rcases joinConfig_spec networkOf j.io.id j.isConfig hnone with ⟨hconfig, haddr⟩
    exact virtualIpv4_of_config (storeConfig_ok h) hconfig haddr

theorem assigned_of_joined {joins : List JoinCall}
    (hjoined : ∀ j ∈ joins, (∃ row, j.result networkOf = .ok row) ∧ j.Unaddressed) :
    ∀ j ∈ joins, assigned (j.result networkOf) = some (canonicalVirtualIpv4 j.io.id) := by
  intro j hj
  rcases hjoined j hj with ⟨⟨row, hok⟩, hnone⟩
  exact assigned_join hok hnone

/-- Equal addresses are those of ids of one class. -/
theorem nodup_assigned_iff {joins : List JoinCall}
    (hassigned : ∀ j ∈ joins,
      assigned (j.result networkOf) = some (canonicalVirtualIpv4 j.io.id)) :
    (joins.map fun j => assigned (j.result networkOf)).Nodup ↔
      (joins.map fun j => idClass j.io.id).Nodup := by
  have hmap : (joins.map fun j => assigned (j.result networkOf)) =
      joins.map fun j => some (canonicalVirtualIpv4 j.io.id) := List.map_congr_left hassigned
  rw [hmap, List.Nodup, List.Nodup, List.pairwise_map, List.pairwise_map]
  simp only [ne_eq, Option.some_inj, canonicalVirtualIpv4_inj]

theorem classes_of_distinct {c : CreateCall} {joins : List JoinCall}
    (hcreated : ∃ row, c.result foreignKeys networkOf = .ok row)
    (hjoined : ∀ j ∈ joins, (∃ row, j.result networkOf = .ok row) ∧ j.Unaddressed)
    (h : Distinct foreignKeys networkOf c joins) :
    (joins.map fun j => idClass j.io.id).Nodup ∧ ∀ j ∈ joins, idClass j.io.id ≠ idClass c.io.id := by
  rcases hcreated with ⟨row, hrow⟩
  have hassigned := assigned_of_joined hjoined
  refine ⟨(nodup_assigned_iff hassigned).1 h.nodup, ?_⟩
  intro j hj hclass
  apply h.creator j hj
  rw [hassigned j hj, assigned_create hrow, canonicalVirtualIpv4_inj.2 hclass]

theorem distinct_of_classes {c : CreateCall} {joins : List JoinCall}
    (hcreated : ∃ row, c.result foreignKeys networkOf = .ok row)
    (hjoined : ∀ j ∈ joins, (∃ row, j.result networkOf = .ok row) ∧ j.Unaddressed)
    (hnodup : (joins.map fun j => idClass j.io.id).Nodup)
    (hcreator : ∀ j ∈ joins, idClass j.io.id ≠ idClass c.io.id) :
    Distinct foreignKeys networkOf c joins := by
  rcases hcreated with ⟨row, hrow⟩
  have hassigned := assigned_of_joined hjoined
  refine ⟨(nodup_assigned_iff hassigned).2 hnodup, ?_, ?_⟩
  · intro j hj
    exact ⟨_, hassigned j hj, isHostAddress_canonical j.io.id⟩
  · intro j hj heq
    rw [hassigned j hj, assigned_create hrow, Option.some_inj, canonicalVirtualIpv4_inj] at heq
    exact hcreator j hj heq

/-- The nodes that join a network have distinct addresses exactly when the
classes of the ids they have drawn differ from each other and from that of the
creator's. -/
theorem distinct_iff {c : CreateCall} {joins : List JoinCall}
    (hcreated : ∃ row, c.result foreignKeys networkOf = .ok row)
    (hjoined : ∀ j ∈ joins, (∃ row, j.result networkOf = .ok row) ∧ j.Unaddressed) :
    Distinct foreignKeys networkOf c joins ↔
      (joins.map fun j => idClass j.io.id).Nodup ∧
        ∀ j ∈ joins, idClass j.io.id ≠ idClass c.io.id := by
  constructor
  · exact classes_of_distinct hcreated hjoined
  · rintro ⟨hnodup, hcreator⟩
    exact distinct_of_classes hcreated hjoined hnodup hcreator

end Calls

/-! ## Two nodes -/

def freshManager : Manager := ⟨⟨[], []⟩, []⟩

def creatorCall : CreateCall where
  manager := freshManager
  relayPrefix := []
  name := "home".toList
  networkSecret := []
  description := none
  io := grantedIo 0x00000000000040008000000000000000 "anna".toList

/-- A node that joins with the default configuration. -/
def joinCall (id : Uuid) : JoinCall where
  manager := freshManager
  config := defaultConfig []
  isConfig := isConfig_default []
  name := none
  io := grantedIo id "bob".toList

theorem joinCall_unaddressed (id : Uuid) : (joinCall id).Unaddressed := by
  show getField "virtual_ipv4".toList (defaultConfig []) = _
  rfl

theorem distinct_pair : Distinct true (fun _ => none) creatorCall
    [joinCall 0x00000000000040008000000000000001, joinCall 0x00000000000040008000000000000002] ↔
      ([0x00000000000040008000000000000001, 0x00000000000040008000000000000002].map
        idClass).Nodup ∧
      ∀ j ∈ [joinCall 0x00000000000040008000000000000001,
        joinCall 0x00000000000040008000000000000002],
        idClass j.io.id ≠ idClass creatorCall.io.id := by
  refine distinct_iff ⟨_, rfl⟩ ?_
  intro j hj
  rcases List.mem_cons.1 hj with rfl | hj
  · exact ⟨⟨_, rfl⟩, joinCall_unaddressed _⟩
  · obtain rfl := List.mem_singleton.1 hj
    exact ⟨⟨_, rfl⟩, joinCall_unaddressed _⟩

/-- Ids whose last bytes are 1 and 251. -/
theorem same_address : ¬ ∀ (foreignKeys : Bool) (networkOf : Str → Option Str) (c : CreateCall)
    (joins : List JoinCall), joins.length ≤ 250 →
      (∃ row, c.result foreignKeys networkOf = .ok row) →
      (∀ j ∈ joins, (∃ row, j.result networkOf = .ok row) ∧ j.Unaddressed) →
      Distinct foreignKeys networkOf c joins := by
  intro h
  have hjoined : ∀ id, (∃ row, (joinCall id).result (fun _ => none) = .ok row) ∧
      (joinCall id).Unaddressed := fun id => ⟨⟨_, rfl⟩, joinCall_unaddressed id⟩
  have hdistinct := h true (fun _ => none) creatorCall
    [joinCall 0x00000000000040008000000000000001, joinCall 0x000000000000400080000000000000fb]
    (by decide) ⟨_, rfl⟩ (by
      intro j hj
      rcases List.mem_cons.1 hj with rfl | hj
      · exact hjoined _
      · obtain rfl := List.mem_singleton.1 hj
        exact hjoined _)
  have hassigned : ∀ id, assigned ((joinCall id).result fun _ => none) =
      some (canonicalVirtualIpv4 id) := by
    intro id
    rcases hjoined id with ⟨⟨row, hrow⟩, hnone⟩
    exact assigned_join hrow hnone
  have hnodup := hdistinct.nodup
  rw [List.map_cons, List.map_singleton, hassigned, hassigned,
    canonicalVirtualIpv4_inj.2 (show idClass 0x00000000000040008000000000000001 =
      idClass 0x000000000000400080000000000000fb by decide)] at hnodup
  simp at hnodup

end SpaceRecords

end HomeTier
