import Mathlib.Data.List.Forall2
import HomeTier.Lib.Json

/-! # Configurations as JSON

How `serde` reads the `NetworkConfig` of `src-tauri/src/easytier/config.rs` from
a JSON value, and writes it. The record is given by the table of its fields, in
the order of the source: name, type and default. A field that is absent has its
default, an unknown key is ignored, and a present field must have its type. As
for every derived record, an array is read as the fields in order.

`NetworkConfig::from_config_json` reads a text that way. A configuration that
was read is read back from what is written of it (`readConfig_writeConfig`).
-/

namespace HomeTier

open Lib

namespace ConfigJson

/-- Types of single values, with the width of integers. -/
inductive Scalar where
  | str
  | bool
  | uint (bits : Nat)
  | int (bits : Nat)
deriving DecidableEq, Repr

/-- Records inside a configuration. -/
inductive RecordKind where
  | portForward
  | peer
  | proxyNetwork
  | log
deriving DecidableEq, Repr

inductive FieldType where
  | scalar (s : Scalar)
  /-- `Option` of a single value. -/
  | option (s : Scalar)
  /-- `Vec<String>` -/
  | strings
  /-- `Vec` of records. -/
  | records (r : RecordKind)
  /-- `Option` of a record. -/
  | record (r : RecordKind)
  /-- `Option<serde_json::Value>` -/
  | value
  /-- `HashMap<String, String>` -/
  | texts
deriving DecidableEq, Repr

/-- What is read from a field. -/
inductive ConfigData where
  | str (s : Str)
  | bool (b : Bool)
  | int (n : Int)
  | none
  | some (d : ConfigData)
  | list (ds : List ConfigData)
  | record (ds : List ConfigData)
  | json (v : Json)
  /-- A map, as its entries in order. -/
  | texts (m : List (Str × Str))

/-- What an absent field is: in an object, and in an array. -/
inductive Missing where
  | error
  /-- An `Option` without a default of its own. -/
  | none
  | default (d : ConfigData)

def Missing.inObject : Missing → Option ConfigData
  | .error => Option.none
  | .none => some .none
  | .default d => some d

def Missing.inArray : Missing → Option ConfigData
  | .default d => some d
  | _ => Option.none

/-! ## Reading -/

def Scalar.read : Scalar → Json → Option ConfigData
  | .str, .str s => some (.str s)
  | .bool, .bool b => some (.bool b)
  | .uint bits, .int n => if 0 ≤ n ∧ n < 2 ^ bits then some (.int n) else none
  | .int bits, .int n =>
    if -2 ^ (bits - 1) ≤ n ∧ n < 2 ^ (bits - 1) then some (.int n) else none
  | _, _ => none

/-- `Option<T>` -/
def readOption (read : Json → Option ConfigData) : Json → Option ConfigData
  | .null => some .none
  | v => (read v).map .some

/-- `Vec<T>` -/
def readList (read : Json → Option ConfigData) : Json → Option ConfigData
  | .arr xs => (xs.mapM read).map .list
  | _ => none

/-- `HashMap<String, String>` -/
def readTexts : Json → Option ConfigData
  | .obj kvs =>
    (kvs.mapM fun (e : Str × Json) => e.2.asStr.map fun s => (e.1, s)).map fun es =>
      .texts (insertEntries es [])
  | _ => none

/-! ## Writing -/

def writeScalar : ConfigData → Json
  | .str s => .str s
  | .bool b => .bool b
  | .int n => .int n
  | _ => .null

/-- `Option<T>` -/
def writeOption (write : ConfigData → Json) : ConfigData → Json
  | .some d => write d
  | _ => .null

/-- `Vec<T>` -/
def writeList (write : ConfigData → Json) : ConfigData → Json
  | .list ds => .arr (ds.map write)
  | _ => .null

/-- `serde_json::Value` -/
def writeValue : ConfigData → Json
  | .json v => v
  | _ => .null

/-- `HashMap<String, String>` -/
def writeTexts : ConfigData → Json
  | .texts m => .obj (m.map fun e => (e.1, .str e.2))
  | _ => .null

/-! ## Records -/

/-- A field of a record with what it is when absent. -/
structure RecordField where
  name : Str
  missing : Missing
  read : Json → Option ConfigData
  write : ConfigData → Json

def readField (kvs : List (Str × Json)) (f : RecordField) : Option ConfigData :=
  match kvs.lookup f.name with
  | some v => f.read v
  | none => f.missing.inObject

/-- The fields in order; more values than fields are an error. -/
def readArray : List RecordField → List Json → Option (List ConfigData)
  | [], [] => some []
  | [], _ :: _ => none
  | f :: fs, [] => do
    let d ← f.missing.inArray
    let ds ← readArray fs []
    return d :: ds
  | f :: fs, v :: vs => do
    let d ← f.read v
    let ds ← readArray fs vs
    return d :: ds

def readRecord (fields : List RecordField) : Json → Option ConfigData
  | .obj kvs => (fields.mapM (readField kvs)).map .record
  | .arr vs => (readArray fields vs).map .record
  | _ => none

def recordEntries (fields : List RecordField) (ds : List ConfigData) : List (Str × Json) :=
  List.zipWith (fun f d => (f.name, f.write d)) fields ds

def writeRecord (fields : List RecordField) : ConfigData → Json
  | .record ds => .obj (insertEntries (recordEntries fields ds) [])
  | _ => .null

def RecordField.str (name : String) (missing : Missing) : RecordField :=
  ⟨name.toList, missing, Scalar.str.read, writeScalar⟩

def RecordField.port (name : String) : RecordField :=
  ⟨name.toList, .default (.int 0), (Scalar.uint 16).read, writeScalar⟩

/-- An `Option` field. -/
def RecordField.option (name : String) (s : Scalar) : RecordField :=
  ⟨name.toList, .none, readOption s.read, writeOption writeScalar⟩

/-- `PortForwardConfig`, `PeerConfig`, `ProxyNetworkConfig` and `LogConfig` -/
def RecordKind.fields : RecordKind → List RecordField
  | .portForward =>
    [.str "bind_ip" (.default (.str [])), .port "bind_port", .str "dst_ip" (.default (.str [])),
      .port "dst_port", .str "proto" (.default (.str []))]
  | .peer => [.str "uri" .error, .option "peer_public_key" .str]
  | .proxyNetwork =>
    [.str "cidr" .error, .option "mapped_cidr" .str,
      ⟨"allow".toList, .none, readOption (readList Scalar.str.read),
        writeOption (writeList writeScalar)⟩]
  | .log =>
    [.option "level" .str, .option "file" .str, .option "dir" .str, .option "size_mb" (.uint 32),
      .option "count" (.uint 32)]

def FieldType.read : FieldType → Json → Option ConfigData
  | .scalar s => s.read
  | .option s => readOption s.read
  | .strings => readList Scalar.str.read
  | .records r => readList (readRecord r.fields)
  | .record r => readOption (readRecord r.fields)
  | .value => readOption fun v => some (.json v)
  | .texts => readTexts

def FieldType.write : FieldType → ConfigData → Json
  | .scalar _ => writeScalar
  | .option _ => writeOption writeScalar
  | .strings => writeList writeScalar
  | .records r => writeList (writeRecord r.fields)
  | .record r => writeOption (writeRecord r.fields)
  | .value => writeOption writeValue
  | .texts => writeTexts

/-! ## `NetworkConfig` -/

structure ConfigField where
  name : Str
  type : FieldType
  default : ConfigData

def defaultListeners : ConfigData :=
  .list [.str "tcp://0.0.0.0:11010".toList, .str "udp://0.0.0.0:11010".toList,
    .str "wg://0.0.0.0:11011".toList]

/-- The fields of `NetworkConfig`; `fresh` is the id that `Default` draws. -/
def configFields (fresh : Str) : List ConfigField :=
  [⟨"instance_id".toList, .scalar .str, .str fresh⟩,
    ⟨"instance_name".toList, .option .str, .none⟩,
    ⟨"dhcp".toList, .scalar .bool, .bool true⟩,
    ⟨"virtual_ipv4".toList, .scalar .str, .str []⟩,
    ⟨"network_length".toList, .scalar (.uint 8), .int 24⟩,
    ⟨"ipv4".toList, .option .str, .none⟩,
    ⟨"ipv6".toList, .option .str, .none⟩,
    ⟨"hostname".toList, .option .str, .none⟩,
    ⟨"network_name".toList, .scalar .str, .str "easytier".toList⟩,
    ⟨"network_secret".toList, .scalar .str, .str []⟩,
    ⟨"credential_file".toList, .option .str, .none⟩,
    ⟨"networking_method".toList, .scalar (.int 32), .int 1⟩,
    ⟨"public_server_url".toList, .scalar .str, .str []⟩,
    ⟨"peer_urls".toList, .strings, .list []⟩,
    ⟨"proxy_cidrs".toList, .strings, .list []⟩,
    ⟨"enable_vpn_portal".toList, .scalar .bool, .bool false⟩,
    ⟨"vpn_portal_listen_port".toList, .scalar (.uint 16), .int 22022⟩,
    ⟨"vpn_portal_client_network_addr".toList, .scalar .str, .str []⟩,
    ⟨"vpn_portal_client_network_len".toList, .scalar (.uint 8), .int 24⟩,
    ⟨"listener_urls".toList, .strings, defaultListeners⟩,
    ⟨"mapped_listeners".toList, .strings, .list []⟩,
    ⟨"latency_first".toList, .scalar .bool, .bool false⟩,
    ⟨"dev_name".toList, .scalar .str, .str []⟩,
    ⟨"use_smoltcp".toList, .scalar .bool, .bool false⟩,
    ⟨"disable_ipv6".toList, .scalar .bool, .bool false⟩,
    ⟨"ipv6_public_addr_provider".toList, .option .bool, .none⟩,
    ⟨"ipv6_public_addr_auto".toList, .option .bool, .none⟩,
    ⟨"ipv6_public_addr_prefix".toList, .option .str, .none⟩,
    ⟨"enable_kcp_proxy".toList, .scalar .bool, .bool false⟩,
    ⟨"disable_kcp_input".toList, .scalar .bool, .bool false⟩,
    ⟨"enable_quic_proxy".toList, .scalar .bool, .bool false⟩,
    ⟨"disable_quic_input".toList, .scalar .bool, .bool false⟩,
    ⟨"disable_p2p".toList, .scalar .bool, .bool false⟩,
    ⟨"p2p_only".toList, .scalar .bool, .bool false⟩,
    ⟨"lazy_p2p".toList, .scalar .bool, .bool false⟩,
    ⟨"bind_device".toList, .scalar .bool, .bool true⟩,
    ⟨"no_tun".toList, .scalar .bool, .bool false⟩,
    ⟨"enable_exit_node".toList, .scalar .bool, .bool false⟩,
    ⟨"relay_all_peer_rpc".toList, .scalar .bool, .bool false⟩,
    ⟨"need_p2p".toList, .scalar .bool, .bool false⟩,
    ⟨"multi_thread".toList, .scalar .bool, .bool true⟩,
    ⟨"proxy_forward_by_system".toList, .scalar .bool, .bool false⟩,
    ⟨"disable_encryption".toList, .scalar .bool, .bool false⟩,
    ⟨"disable_tcp_hole_punching".toList, .scalar .bool, .bool false⟩,
    ⟨"disable_udp_hole_punching".toList, .scalar .bool, .bool false⟩,
    ⟨"disable_upnp".toList, .scalar .bool, .bool false⟩,
    ⟨"enable_udp_broadcast_relay".toList, .scalar .bool, .bool false⟩,
    ⟨"disable_sym_hole_punching".toList, .scalar .bool, .bool false⟩,
    ⟨"enable_relay_network_whitelist".toList, .scalar .bool, .bool false⟩,
    ⟨"enable_magic_dns".toList, .scalar .bool, .bool false⟩,
    ⟨"enable_private_mode".toList, .scalar .bool, .bool false⟩,
    ⟨"enable_socks5".toList, .scalar .bool, .bool false⟩,
    ⟨"relay_network_whitelist".toList, .strings, .list []⟩,
    ⟨"enable_manual_routes".toList, .scalar .bool, .bool false⟩,
    ⟨"routes".toList, .strings, .list []⟩,
    ⟨"exit_nodes".toList, .strings, .list []⟩,
    ⟨"socks5_port".toList, .scalar (.uint 16), .int 1080⟩,
    ⟨"mtu".toList, .option (.uint 32), .none⟩,
    ⟨"instance_recv_bps_limit".toList, .option (.uint 64), .none⟩,
    ⟨"port_forwards".toList, .records .portForward, .list []⟩,
    ⟨"acl".toList, .value, .none⟩,
    ⟨"file_logger".toList, .record .log, .none⟩,
    ⟨"console_logger".toList, .record .log, .none⟩,
    ⟨"peers".toList, .records .peer, .list []⟩,
    ⟨"listeners".toList, .strings, .list []⟩,
    ⟨"proxy_networks".toList, .records .proxyNetwork, .list []⟩,
    ⟨"proxy_networks_auto".toList, .option .bool, .none⟩,
    ⟨"flags".toList, .texts, .texts []⟩]

def ConfigField.toRecordField (f : ConfigField) : RecordField :=
  ⟨f.name, .default f.default, f.type.read, f.type.write⟩

/-- The names and types of the fields. -/
def configTypes : List (Str × FieldType) := (configFields []).map fun f => (f.name, f.type)

/-- `serde_json::from_value::<NetworkConfig>` -/
def readConfig (fresh : Str) : Json → Option ConfigData :=
  readRecord ((configFields fresh).map ConfigField.toRecordField)

/-- `skip_serializing_if` of `proxy_networks_auto` -/
def isSkipped (e : Str × Json) : Bool :=
  match e.2 with
  | .null => e.1 = "proxy_networks_auto".toList
  | _ => false

/-- `NetworkConfig` serialised. -/
def writeConfig : ConfigData → Json
  | .record ds =>
    .obj (insertEntries
      ((List.zipWith (fun p d => (p.1, p.2.write d)) configTypes ds).filter (!isSkipped ·)) [])
  | _ => .null

def configNames : List Str := (configFields []).map (·.name)

/-- A field of a configuration changed. -/
def modifyField (name : Str) (f : ConfigData → ConfigData) : ConfigData → ConfigData
  | .record ds => .record (List.zipWith (fun n d => if n = name then f d else d) configNames ds)
  | d => d

/-- `NetworkConfig::default()` -/
def defaultConfig (fresh : Str) : ConfigData := .record ((configFields fresh).map (·.default))

/-! ## `from_config_json` -/

/-- Whether `n` bytes of the text end between two characters. -/
def isCharBoundary : Nat → Str → Bool
  | 0, _ => true
  | _ + 1, [] => false
  | n + 1, c :: s => decide (c.utf8Size ≤ n + 1) && isCharBoundary (n + 1 - c.utf8Size) s

/-- What `from_config_json` comes to. -/
inductive ConfigRead where
  | ok (cfg : ConfigData)
  | error
  /-- The preview of 200 bytes in the error message is cut inside a character. -/
  | panic

def fromConfigJson (J : JsonText) (fresh text : Str) : ConfigRead :=
  let trimmed := trim text
  if trimmed = [] then .ok (defaultConfig fresh)
  else
    match J.parse trimmed with
    | none => .error
    | some v =>
      match readConfig fresh v with
      | some cfg => .ok cfg
      | none => if isCharBoundary (min (utf8 trimmed).length 200) trimmed then .error else .panic

/-! ## What is read -/

theorem mapM_isSome_iff {α β : Type} {f : α → Option β} {xs : List α} :
    (xs.mapM f).isSome = true ↔ ∀ x ∈ xs, (f x).isSome = true := by
  induction xs with
  | nil => simp
  | cons x xs ih =>
    rw [List.mapM_cons, List.forall_mem_cons, ← ih]
    cases f x with
    | none => simp
    | some y => cases xs.mapM f <;> simp

theorem map_configFields (fresh : Str) :
    (configFields fresh).map (fun f => (f.name, f.type)) = configTypes := rfl

theorem readField_isSome_iff {kvs : List (Str × Json)} {f : ConfigField} :
    (readField kvs f.toRecordField).isSome = true ↔
      ∀ v, kvs.lookup f.name = some v → (f.type.read v).isSome = true := by
  rw [readField]
  show (match kvs.lookup f.name with
    | some v => f.type.read v
    | none => some f.default).isSome = true ↔ _
  cases kvs.lookup f.name with
  | none => simp
  | some v => simp

/-- An object is read exactly when each field that is there has its type. -/
theorem readConfig_obj_isSome_iff {fresh : Str} {kvs : List (Str × Json)} :
    (readConfig fresh (.obj kvs)).isSome = true ↔
      ∀ p ∈ configTypes, ∀ v, kvs.lookup p.1 = some v → (p.2.read v).isSome = true := by
  rw [readConfig, readRecord, Option.isSome_map, mapM_isSome_iff, List.forall_mem_map,
    ← map_configFields fresh, List.forall_mem_map]
  exact forall₂_congr fun f _ => readField_isSome_iff

/-! ## Reading back -/

theorem mapM_eq_some_iff {α β : Type} {f : α → Option β} {xs : List α} {ys : List β} :
    xs.mapM f = some ys ↔ List.Forall₂ (fun x y => f x = some y) xs ys := by
  induction xs generalizing ys with
  | nil => simp [eq_comm]
  | cons x xs ih =>
    rw [List.mapM_cons]
    cases hx : f x with
    | none =>
      constructor
      · intro h
        cases h
      · intro h
        cases h with
        | cons h _ =>
          rw [hx] at h
          cases h
    | some y =>
      constructor
      · intro h
        rcases Option.bind_eq_some_iff.1 h with ⟨y', hy', h⟩
        rcases Option.bind_eq_some_iff.1 h with ⟨ys', hys, h⟩
        cases hy'
        cases h
        exact List.Forall₂.cons hx (ih.1 hys)
      · intro h
        cases h with
        | cons h hrest =>
          rw [hx] at h
          cases h
          show (xs.mapM f >>= _) = _
          rw [ih.2 hrest]
          rfl

/-- What is read is read back from what is written of it. -/
def Back (read : Json → Option ConfigData) (write : ConfigData → Json) : Prop :=
  ∀ v d, read v = some d → read (write d) = some d

/-- What is read is not written as `null`. -/
def NotNull (read : Json → Option ConfigData) (write : ConfigData → Json) : Prop :=
  ∀ v d, read v = some d → write d ≠ .null

theorem Scalar.back (s : Scalar) : Back s.read writeScalar := by
  intro v d h
  cases s <;> cases v <;> simp only [Scalar.read, reduceCtorEq] at h
  · cases h
    rfl
  · cases h
    rfl
  · split at h
    · rename_i hrange
      cases h
      simp only [writeScalar, Scalar.read, if_pos hrange]
    · cases h
  · split at h
    · rename_i hrange
      cases h
      simp only [writeScalar, Scalar.read, if_pos hrange]
    · cases h

theorem Scalar.notNull (s : Scalar) : NotNull s.read writeScalar := by
  intro v d h hnull
  have hback := s.back v d h
  rw [hnull] at hback
  cases s <;> cases hback

variable {read : Json → Option ConfigData} {write : ConfigData → Json}

theorem back_option (hback : Back read write) (hnull : NotNull read write) :
    Back (readOption read) (writeOption write) := by
  intro v d h
  rw [readOption.eq_def] at h
  split at h
  · cases h
    rfl
  · rcases Option.map_eq_some_iff.1 h with ⟨d', hd', rfl⟩
    show readOption read (write d') = _
    rw [readOption.eq_def]
    split
    · rename_i heq
      exact absurd heq (hnull v d' hd')
    · rw [hback v d' hd']
      rfl

theorem back_list (hback : Back read write) : Back (readList read) (writeList write) := by
  intro v d h
  rw [readList.eq_def] at h
  split at h
  · rename_i xs
    rcases Option.map_eq_some_iff.1 h with ⟨ds, hds, rfl⟩
    show ((ds.map write).mapM read).map ConfigData.list = _
    have hall : List.Forall₂ (fun x d => read x = some d) (ds.map write) ds := by
      rw [mapM_eq_some_iff] at hds
      clear h
      induction hds with
      | nil => exact List.Forall₂.nil
      | cons hx _ ih => exact List.Forall₂.cons (hback _ _ hx) ih
    rw [mapM_eq_some_iff.2 hall]
    rfl
  · cases h

theorem back_value : Back (readOption fun v => some (.json v)) (writeOption writeValue) := by
  intro v d h
  rw [readOption.eq_def] at h
  split at h
  · cases h
    rfl
  · rename_i hne
    cases h
    show readOption _ v = _
    rw [readOption.eq_def]
    split
    · exact absurd rfl hne
    · rfl

theorem mapM_asStr_map_str (m : List (Str × Str)) :
    (m.map fun e => (e.1, Json.str e.2)).mapM
      (fun (e : Str × Json) => e.2.asStr.map fun s => (e.1, s)) = some m := by
  rw [mapM_eq_some_iff]
  induction m with
  | nil => exact List.Forall₂.nil
  | cons e m ih => exact List.Forall₂.cons rfl ih

theorem readTexts_writeTexts {m : List (Str × Str)} (h : Sorted m) :
    readTexts (writeTexts (.texts m)) = some (.texts m) := by
  rw [writeTexts, readTexts, mapM_asStr_map_str, Option.map_some, insertEntries_append [] h]
  rfl

theorem back_texts : Back readTexts writeTexts := by
  intro v d h
  rw [readTexts.eq_def] at h
  split at h
  · rcases Option.map_eq_some_iff.1 h with ⟨es, -, rfl⟩
    exact readTexts_writeTexts (sorted_insertEntries es sorted_nil)
  · cases h

/-- A field whose values, given or absent, are read back. -/
structure RecordField.Lawful (f : RecordField) : Prop where
  back : Back f.read f.write
  inObject : ∀ d, f.missing.inObject = some d → f.read (f.write d) = some d
  inArray : ∀ d, f.missing.inArray = some d → f.read (f.write d) = some d

variable {fields : List RecordField}

theorem readArray_back (h : ∀ f ∈ fields, f.Lawful) : ∀ {vs ds}, readArray fields vs = some ds →
      List.Forall₂ (fun f d => f.read (f.write d) = some d) fields ds := by
  induction fields with
  | nil =>
    intro vs ds hds
    cases vs with
    | nil =>
      cases hds
      exact List.Forall₂.nil
    | cons v vs => cases hds
  | cons f fields ih =>
    intro vs ds hds
    rw [List.forall_mem_cons] at h
    cases vs with
    | nil =>
      rcases Option.bind_eq_some_iff.1 hds with ⟨d, hd, hds⟩
      rcases Option.bind_eq_some_iff.1 hds with ⟨ds', hds', hds⟩
      cases hds
      exact List.Forall₂.cons (h.1.inArray d hd) (ih h.2 hds')
    | cons v vs =>
      rcases Option.bind_eq_some_iff.1 hds with ⟨d, hd, hds⟩
      rcases Option.bind_eq_some_iff.1 hds with ⟨ds', hds', hds⟩
      cases hds
      exact List.Forall₂.cons (h.1.back v d hd) (ih h.2 hds')

/-- The fields of a record that was read are read back one by one. -/
theorem readRecord_back (h : ∀ f ∈ fields, f.Lawful) {v : Json}
    {d : ConfigData} (hd : readRecord fields v = some d) :
    ∃ ds, d = .record ds ∧
      List.Forall₂ (fun f d => f.read (f.write d) = some d) fields ds := by
  rw [readRecord.eq_def] at hd
  split at hd
  · rename_i kvs
    rcases Option.map_eq_some_iff.1 hd with ⟨ds, hds, rfl⟩
    refine ⟨ds, rfl, ?_⟩
    rw [mapM_eq_some_iff] at hds
    clear hd
    induction hds with
    | nil => exact List.Forall₂.nil
    | @cons f d fields ds hfield _ ih =>
      rw [List.forall_mem_cons] at h
      refine List.Forall₂.cons ?_ (ih h.2)
      rw [readField] at hfield
      split at hfield
      · exact h.1.back _ d hfield
      · exact h.1.inObject d hfield
  · rcases Option.map_eq_some_iff.1 hd with ⟨ds, hds, rfl⟩
    exact ⟨ds, rfl, readArray_back h hds⟩
  · cases hd

theorem mem_of_forall₂ {α β : Type} {R : α → β → Prop} {xs : List α} {ys : List β}
    (h : List.Forall₂ R xs ys) {p : α × β} (hp : p ∈ xs.zip ys) : R p.1 p.2 :=
  (List.forall₂_iff_zip.1 h).2 hp

theorem map_fst_zipWith {α β : Type} (name : α → Str) (value : α → β → Json) {xs : List α}
    {ys : List β} (h : xs.length = ys.length) :
    (List.zipWith (fun x y => (name x, value x y)) xs ys).map (·.1) = xs.map name := by
  induction xs generalizing ys with
  | nil => rfl
  | cons x xs ih =>
    cases ys with
    | nil => cases h
    | cons y ys =>
      rw [List.zipWith_cons_cons, List.map_cons, List.map_cons, ih (Nat.succ.inj h)]

/-- Fields are read back from their entries; an entry may be left out if its
field is that when absent. -/
theorem forall₂_readField {ds : List ConfigData}
    {entries : List (Str × Json)} (hnames : (fields.map (·.name)).Nodup)
    (hentries : entries = recordEntries fields ds)
    (h : List.Forall₂ (fun f d => f.read (f.write d) = some d) fields ds)
    (keep : Str × Json → Bool)
    (hdrop : ∀ p ∈ fields.zip ds, keep (p.1.name, p.1.write p.2) = false →
      p.1.missing.inObject = some p.2) :
    List.Forall₂ (fun f d => readField (insertEntries (entries.filter keep) []) f = some d)
      fields ds := by
  have hlen := h.length_eq
  have hnodup : (entries.map (·.1)).Nodup := by
    rw [hentries, recordEntries, map_fst_zipWith _ _ hlen]
    exact hnames
  have hnodup' : ((entries.filter keep).map (·.1)).Nodup :=
    hnodup.sublist (List.filter_sublist.map _)
  rw [List.forall₂_iff_zip]
  refine ⟨hlen, ?_⟩
  intro f d hp
  have hread : f.read (f.write d) = some d := mem_of_forall₂ h hp
  have hmem : (f.name, f.write d) ∈ entries := by
    rw [hentries, recordEntries, ← List.map_uncurry_zip_eq_zipWith]
    exact List.mem_map.2 ⟨(f, d), hp, rfl⟩
  rw [readField, lookup_insertEntries hnodup']
  cases hkeep : keep (f.name, f.write d) with
  | true =>
    have hlookup : (entries.filter keep).lookup f.name = some (f.write d) :=
      lookup_of_mem hnodup' (e := (f.name, f.write d)) (List.mem_filter.2 ⟨hmem, hkeep⟩)
    simp only [hlookup, Option.some_or, hread]
  | false =>
    -- no other entry has the name
    have hlookup : (entries.filter keep).lookup f.name = none := by
      apply lookup_eq_none
      intro hname
      rcases List.mem_map.1 hname with ⟨e, he, hname⟩
      rw [List.mem_filter] at he
      have hsame := lookup_of_mem hnodup he.1
      rw [hname, lookup_of_mem hnodup (e := (f.name, f.write d)) hmem] at hsame
      have heq : e = (f.name, f.write d) := by
        rcases e with ⟨key, v⟩
        cases hsame
        cases hname
        rfl
      rw [heq, hkeep] at he
      cases he.2
    simp only [hlookup, Option.none_or, List.lookup_nil]
    exact hdrop (f, d) hp hkeep

theorem back_record (h : ∀ f ∈ fields, f.Lawful)
    (hnames : (fields.map (·.name)).Nodup) : Back (readRecord fields) (writeRecord fields) := by
  intro v d hd
  rcases readRecord_back h hd with ⟨ds, rfl, hds⟩
  have hfields := forall₂_readField hnames rfl hds (fun _ => true)
    (fun _ _ hfalse => by cases hfalse)
  rw [List.filter_true] at hfields
  rw [writeRecord, readRecord, mapM_eq_some_iff.2 hfields]
  rfl

theorem notNull_record : NotNull (readRecord fields) (writeRecord fields) := by
  intro v d hd hnull
  rw [readRecord.eq_def] at hd
  split at hd
  · rcases Option.map_eq_some_iff.1 hd with ⟨ds, -, rfl⟩
    cases hnull
  · rcases Option.map_eq_some_iff.1 hd with ⟨ds, -, rfl⟩
    cases hnull
  · cases hd

theorem RecordField.str_lawful (name : String) {missing : Missing}
    (h : missing = .error ∨ missing = .default (.str [])) : (RecordField.str name missing).Lawful := by
  refine ⟨Scalar.back .str, ?_, ?_⟩
  · intro d hd
    rcases h with rfl | rfl <;> cases hd
    rfl
  · intro d hd
    rcases h with rfl | rfl <;> cases hd
    rfl

theorem RecordField.port_lawful (name : String) : (RecordField.port name).Lawful := by
  refine ⟨Scalar.back _, ?_, ?_⟩
  · intro d hd
    cases hd
    rfl
  · intro d hd
    cases hd
    rfl

/-- An `Option` field that is absent is `None`. -/
theorem lawful_option {name : Str} (hback : Back read write) (hnull : NotNull read write) :
    RecordField.Lawful ⟨name, .none, readOption read, writeOption write⟩ := by
  refine ⟨back_option hback hnull, ?_, ?_⟩
  · intro d hd
    cases hd
    rfl
  · intro d hd
    cases hd

theorem notNull_list : NotNull (readList read) (writeList write) := by
  intro v d hd hnull
  rw [readList.eq_def] at hd
  split at hd
  · rcases Option.map_eq_some_iff.1 hd with ⟨ds, -, rfl⟩
    cases hnull
  · cases hd

theorem RecordKind.lawful (r : RecordKind) : ∀ f ∈ r.fields, f.Lawful := by
  have hoption : ∀ name s, (RecordField.option name s).Lawful := fun name s =>
    lawful_option s.back s.notNull
  have hempty : ∀ name, (RecordField.str name (.default (.str []))).Lawful := fun name =>
    RecordField.str_lawful name (Or.inr rfl)
  have hgiven : ∀ name, (RecordField.str name .error).Lawful := fun name =>
    RecordField.str_lawful name (Or.inl rfl)
  cases r with
  | portForward =>
    simp only [RecordKind.fields, List.forall_mem_cons]
    exact ⟨hempty _, RecordField.port_lawful _, hempty _, RecordField.port_lawful _, hempty _,
      by simp⟩
  | peer =>
    simp only [RecordKind.fields, List.forall_mem_cons]
    exact ⟨hgiven _, hoption _ _, by simp⟩
  | proxyNetwork =>
    simp only [RecordKind.fields, List.forall_mem_cons]
    exact ⟨hgiven _, hoption _ _, lawful_option (back_list (Scalar.back _)) notNull_list, by simp⟩
  | log =>
    simp only [RecordKind.fields, List.forall_mem_cons]
    exact ⟨hoption _ _, hoption _ _, hoption _ _, hoption _ _, hoption _ _, by simp⟩

theorem RecordKind.nodup_names (r : RecordKind) : (r.fields.map (·.name)).Nodup := by
  cases r <;> decide

theorem FieldType.back (t : FieldType) : Back t.read t.write := by
  cases t with
  | scalar s => exact s.back
  | option s => exact back_option s.back s.notNull
  | strings => exact back_list (Scalar.back _)
  | records r => exact back_list (back_record r.lawful r.nodup_names)
  | record r => exact back_option (back_record r.lawful r.nodup_names) notNull_record
  | value => exact back_value
  | texts => exact back_texts

/-- Every default is read back. -/
theorem ConfigField.default_back (fresh : Str) :
    ∀ f ∈ configFields fresh, f.type.read (f.type.write f.default) = some f.default := by
  simp only [configFields, List.forall_mem_cons]
  repeat' constructor
  intro f hf
  cases hf

theorem ConfigField.lawful (fresh : Str) :
    ∀ f ∈ (configFields fresh).map ConfigField.toRecordField, f.Lawful := by
  rw [List.forall_mem_map]
  intro f hf
  refine ⟨f.type.back, ?_, ?_⟩
  · intro d hd
    cases hd
    exact ConfigField.default_back fresh f hf
  · intro d hd
    cases hd
    exact ConfigField.default_back fresh f hf

theorem nodup_configNames (fresh : Str) :
    (((configFields fresh).map ConfigField.toRecordField).map (·.name)).Nodup := by
  show (configTypes.map (·.1)).Nodup
  decide

/-- The fields have their types: each is read back from what is written of it. -/
def WellTyped (ds : List ConfigData) : Prop :=
  List.Forall₂ (fun p d => p.2.read (p.2.write d) = some d) configTypes ds

theorem wellTyped_iff (fresh : Str) {ds : List ConfigData} :
    WellTyped ds ↔ List.Forall₂ (fun f d => f.read (f.write d) = some d)
      ((configFields fresh).map ConfigField.toRecordField) ds := by
  rw [WellTyped, ← map_configFields fresh, List.forall₂_map_left_iff, List.forall₂_map_left_iff]
  rfl

theorem wellTyped_of_readConfig {fresh : Str} {v : Json} {cfg : ConfigData}
    (h : readConfig fresh v = some cfg) : ∃ ds, cfg = .record ds ∧ WellTyped ds := by
  rcases readRecord_back (ConfigField.lawful fresh) h with ⟨ds, hcfg, hds⟩
  exact ⟨ds, hcfg, (wellTyped_iff fresh).2 hds⟩

theorem wellTyped_default (fresh : Str) :
    WellTyped ((configFields fresh).map (·.default)) := by
  rw [wellTyped_iff fresh, List.forall₂_map_left_iff, List.forall₂_map_right_iff, List.forall₂_same]
  exact ConfigField.default_back fresh

/-- The only field that may be left out. -/
theorem eq_of_name_auto {fresh : Str} {f : ConfigField} (hf : f ∈ configFields fresh)
    (hname : f.name = "proxy_networks_auto".toList) :
    f = ⟨"proxy_networks_auto".toList, .option .bool, .none⟩ := by
  have hnodup : (((configFields fresh).map fun f => (f.name, f)).map (·.1)).Nodup := by
    rw [List.map_map]
    exact nodup_configNames fresh
  have hlookup := lookup_of_mem hnodup (List.mem_map_of_mem hf)
  rw [hname] at hlookup
  exact (Option.some.inj hlookup).symm

theorem isSkipped_eq_true {e : Str × Json} (h : isSkipped e = true) :
    e.1 = "proxy_networks_auto".toList ∧ e.2 = .null := by
  rw [isSkipped] at h
  split at h
  · rename_i hnull
    exact ⟨of_decide_eq_true h, hnull⟩
  · cases h

/-- A configuration is read back from its JSON. -/
theorem readConfig_writeConfig {ds : List ConfigData} (h : WellTyped ds) (fresh : Str) :
    readConfig fresh (writeConfig (.record ds)) = some (.record ds) := by
  have hds := (wellTyped_iff fresh).1 h
  have hentries : List.zipWith (fun p d => (p.1, p.2.write d)) configTypes ds =
      recordEntries ((configFields fresh).map ConfigField.toRecordField) ds := by
    rw [← map_configFields fresh, recordEntries, List.zipWith_map_left, List.zipWith_map_left]
    rfl
  have hfields := forall₂_readField (nodup_configNames fresh) hentries hds (!isSkipped ·) (by
    rintro ⟨f, d⟩ hp hdrop
    have hread := mem_of_forall₂ hds hp
    rcases List.mem_map.1 (List.of_mem_zip hp).1 with ⟨f', hf', rfl⟩
    rw [Bool.not_eq_false'] at hdrop
    rcases isSkipped_eq_true hdrop with ⟨hname, hnull⟩
    obtain rfl := eq_of_name_auto hf' hname
    -- `null` is `None`, which is also the default
    have hnone : readOption Scalar.bool.read .null = some d := by
      rw [← hnull]
      exact hread
    cases hnone
    rfl)
  rw [readConfig, writeConfig, readRecord, mapM_eq_some_iff.2 hfields]
  rfl

/-! ## Reading texts -/

/-- A text that holds a value is not blank. -/
theorem trim_ne_nil_of_parse {J : JsonText} {text : Str} {v : Json}
    (h : J.parse text = some v) : trim text ≠ [] := by
  intro hnil
  have hv := J.parse_trim text v h
  rw [hnil, J.parse_nil] at hv
  cases hv

/-- A text that holds a value is read as the value is. -/
theorem fromConfigJson_eq_ok_iff {J : JsonText} {fresh text : Str} {v : Json} {cfg : ConfigData}
    (h : J.parse text = some v) :
    fromConfigJson J fresh text = .ok cfg ↔ readConfig fresh v = some cfg := by
  simp only [fromConfigJson, if_neg (trim_ne_nil_of_parse h), J.parse_trim text v h]
  cases readConfig fresh v with
  | none =>
    show (if _ then ConfigRead.error else ConfigRead.panic) = _ ↔ _
    split <;> simp
  | some cfg' => simp

end ConfigJson

end HomeTier
