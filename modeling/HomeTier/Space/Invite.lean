import HomeTier.Qr.Scan
import HomeTier.Space.Identity
import HomeTier.Space.Join
import HomeTier.Space.Share

/-! # Inviting to a space

`generate_share_link` of `src-tauri/src/space/manager.rs` puts the network of a
space, its peers and its listeners into a link. Who scans the link is asked and
joins: the page reads it with `parse_qr` and `parse_share_data`, writes a
configuration that has the fields of the link (`buildConfigJson` of
`src/components/Space/JoinSpaceDialog.tsx`), and calls `join_space`. This is the
application; in a browser the same dialog posts to `/space/join`, where the peers
and the listeners of the link are dropped (`webJoinSpace`).

In the application nothing is lost on the way: what is joined is the default
configuration with the fields of the link (`invitation_joins`). But the link has the network
of the space, while the inviter is in that of its configuration; they meet if
these are the same (`invitation_meets_iff`).
-/

namespace HomeTier

open Lib ConfigJson SpaceRecords

/-! ## Objects that give some fields -/

namespace ConfigJson

/-- A field as it is given and as it is read. -/
structure Given where
  name : Str
  value : Json
  data : ConfigData

/-- It is a field of a configuration and has its type. -/
def Given.Reads (g : Given) : Prop :=
  ∃ t, configTypes.lookup g.name = some t ∧ t.read g.value = some g.data

def withGiven (gs : List Given) (cfg : ConfigData) : ConfigData :=
  gs.foldl (fun cfg g => modifyField g.name (fun _ => g.data) cfg) cfg

variable {gs : List Given}

theorem getField_withGiven_of_notMem {n : Str} (h : n ∉ gs.map Given.name) (cfg : ConfigData) :
    getField n (withGiven gs cfg) = getField n cfg := by
  induction gs generalizing cfg with
  | nil => rfl
  | cons g gs ih =>
    rw [List.map_cons, List.mem_cons, not_or] at h
    have hstep : withGiven (g :: gs) cfg = withGiven gs (modifyField g.name (fun _ => g.data) cfg) :=
      rfl
    rw [hstep, ih h.2, getField_modifyField, if_neg h.1]

theorem getField_withGiven_of_mem (hnodup : (gs.map Given.name).Nodup) {g : Given} (hg : g ∈ gs)
    {cfg : ConfigData} (hthere : ∃ d, getField g.name cfg = some d) :
    getField g.name (withGiven gs cfg) = some g.data := by
  induction gs generalizing cfg with
  | nil => cases hg
  | cons g' gs ih =>
    rw [List.map_cons, List.nodup_cons] at hnodup
    have hstep : withGiven (g' :: gs) cfg =
        withGiven gs (modifyField g'.name (fun _ => g'.data) cfg) := rfl
    rcases hthere with ⟨d, hd⟩
    rw [hstep]
    rcases List.mem_cons.1 hg with rfl | hg
    · rw [getField_withGiven_of_notMem hnodup.1, getField_modifyField, if_pos rfl, hd]
      rfl
    · apply ih hnodup.2 hg
      rw [getField_modifyField, hd]
      split
      · exact ⟨_, rfl⟩
      · exact ⟨d, rfl⟩

theorem isConfig_withGiven (h : ∀ g ∈ gs, g.Reads) {cfg : ConfigData} (hcfg : IsConfig cfg) :
    IsConfig (withGiven gs cfg) := by
  induction gs generalizing cfg with
  | nil => exact hcfg
  | cons g gs ih =>
    rw [List.forall_mem_cons] at h
    rcases h.1 with ⟨t, ht, hread⟩
    apply ih h.2
    exact hcfg.modifyField ht fun _ _ => t.back _ _ hread

/-- Reading an object that gives some fields changes these in the default
configuration. -/
theorem readConfig_given (hnodup : (gs.map Given.name).Nodup) (h : ∀ g ∈ gs, g.Reads)
    (fresh : Str) :
    readConfig fresh (.obj (insertEntries (gs.map fun g => (g.name, g.value)) [])) =
      some (withGiven gs (defaultConfig fresh)) := by
  have hkeys : ((gs.map fun g => (g.name, g.value)).map (·.1)) = gs.map Given.name := by
    rw [List.map_map]
    rfl
  have hnodup' : ((gs.map fun g => (g.name, g.value)).map (·.1)).Nodup := by rwa [hkeys]
  have hmem : ∀ g ∈ gs, (insertEntries (gs.map fun g => (g.name, g.value)) []).lookup g.name =
      some g.value := fun g hg => lookup_insertEntries_nil hnodup' (List.mem_map_of_mem hg)
  have hnot : ∀ n, n ∉ gs.map Given.name →
      (insertEntries (gs.map fun g => (g.name, g.value)) []).lookup n = none := by
    intro n hn
    rw [lookup_insertEntries hnodup', lookup_eq_none (by rwa [hkeys])]
    rfl
  have hnames : (configTypes.map (·.1)).Nodup := nodup_configNames []
  have hsome : (readConfig fresh
      (.obj (insertEntries (gs.map fun g => (g.name, g.value)) []))).isSome = true := by
    rw [readConfig_obj_isSome_iff]
    rintro ⟨n, t⟩ hp v hv
    by_cases hn : n ∈ gs.map Given.name
    · -- a key that is given reads as its type
      rcases List.mem_map.1 hn with ⟨g, hg, rfl⟩
      rcases h g hg with ⟨t', ht', hread⟩
      have htype : configTypes.lookup g.name = some t := lookup_of_mem hnames hp
      obtain rfl : t = t' := Option.some.inj (htype.symm.trans ht')
      obtain rfl : g.value = v := Option.some.inj ((hmem g hg).symm.trans hv)
      rw [hread]
      rfl
    · have hv : (insertEntries (gs.map fun g => (g.name, g.value)) []).lookup n = some v := hv
      rw [hnot n hn] at hv
      cases hv
  rcases Option.isSome_iff_exists.1 hsome with ⟨cfg, hcfg⟩
  rw [hcfg]
  congr 1
  refine config_ext (isConfig_of_readConfig hcfg)
    (isConfig_withGiven h (isConfig_default fresh)) ?_
  intro n hn
  rw [configNames_eq_map fresh] at hn
  rcases List.mem_map.1 hn with ⟨f, hf, rfl⟩
  rw [getField_readConfig hcfg hf, readField]
  by_cases hgiven : f.name ∈ gs.map Given.name
  · rcases List.mem_map.1 hgiven with ⟨g, hg, hname⟩
    rcases h g hg with ⟨t, ht, hread⟩
    have htype : configTypes.lookup f.name = some f.type := by
      have hf' : (f.name, f.type) ∈ configTypes := by
        rw [← map_configFields fresh]
        exact List.mem_map_of_mem (f := fun f : ConfigField => (f.name, f.type)) hf
      exact lookup_of_mem hnames hf'
    -- a name has one type in the table
    obtain rfl : f.type = t := by
      rw [← hname, ht] at htype
      exact (Option.some.inj htype).symm
    have hlookup : (insertEntries (gs.map fun g => (g.name, g.value)) []).lookup
        f.toRecordField.name = some g.value := by
      rw [← hmem g hg, hname]
      rfl
    rw [hlookup]
    show f.type.read g.value = _
    rw [hread, ← hname, getField_withGiven_of_mem hnodup hg]
    exact ⟨f.default, by rw [hname]; exact getField_default hf⟩
  · have hlookup : (insertEntries (gs.map fun g => (g.name, g.value)) []).lookup
        f.toRecordField.name = none := hnot f.name hgiven
    rw [hlookup, getField_withGiven_of_notMem hgiven, getField_default hf]
    rfl

/-- The texts of a list. -/
def textsField (name : String) (cfg : ConfigData) : List Str :=
  match getField name.toList cfg with
  | some (.list ds) => ds.map textOf
  | _ => []

end ConfigJson

namespace SpaceInvite

open SpacePatch

/-! ## The link -/

/-- An address that is blank is none. -/
def sharedAddress (ip : Option Str) : Option Str := (ip.map trim).filter (· ≠ [])

def identity (space : SpaceRow) : Identity := ⟨space.networkName, space.networkSecret⟩

def shareInfo (space : SpaceRow) (effective : ConfigData) (ip : Option Str) : ShareInfo where
  name := some space.name
  networkName := space.networkName
  networkSecret := space.networkSecret
  hostHint := none
  virtualIp := sharedAddress ip
  dhcp := some (sharedAddress ip).isNone
  peerUrls := textsField "peer_urls" effective
  listenerUrls := textsField "listener_urls" effective

section Link

variable (Q : QrCrates) (seed : Str)

/-- `generate_share_link`; `none` where `get_effective_config` panics. -/
def generateShareLink (nonce : { n : Bytes // n.length = nonceLen }) (J : JsonText) (fresh : Str)
    (m : Manager) (id : Uuid) (column : Except Str (Option Str)) (ip : Option Str) :
    Option (Except Str Str) :=
  match m.spaces.find? (·.id = id) with
  | none => some (.error "Space not found".toList)
  | some space =>
    match getEffectiveConfig J fresh (some (identity space)) column with
    | .panic => none
    | .error e => some (.error e)
    | .ok effective => some do
      let data ← encodeShareBinary (shareInfo space effective ip)
      encryptQr Q seed nonce eventJoinSpace data

/-- `parse_share_data` -/
def parseShareData (data : Str) : Except Str ShareInfo :=
  match base64Decode data with
  | none => .error ("分享数据解码失败: ".toList ++ Q.base64Error data)
  | some bytes => decodeShareBinary bytes

/-- `resolveJoinShareInfo` -/
def resolveJoinShareInfo (text : Str) : Except Str ShareInfo := do
  let scanned ← parseQr Q seed text
  if scanned.event ≠ eventJoinSpace then
    .error ("unsupported QR event: ".toList ++ scanned.event)
  else parseShareData Q scanned.data

end Link

/-! ## Joining -/

def texts (ss : List Str) : Json := .arr (ss.map .str)

/-- The properties that `buildConfigJson` sets. `dhcp` is there also where it is `null`. -/
def configEntries (info : ShareInfo) : List (Str × Json) :=
  [("network_name".toList, .str info.networkName),
    ("network_secret".toList, .str info.networkSecret)] ++
  (if info.virtualIp.getD [] ≠ [] then [("virtual_ipv4".toList, .str (info.virtualIp.getD []))]
    else []) ++
  [("dhcp".toList, match info.dhcp with
    | some b => .bool b
    | none => .null)] ++
  (if info.peerUrls ≠ [] then [("peer_urls".toList, texts info.peerUrls)] else []) ++
  (if info.listenerUrls ≠ [] then [("listener_urls".toList, texts info.listenerUrls)] else [])

/-- `buildConfigJson`. The keys are written in the order of their names, the page writes them
as they were set, and no reader of an object tells. -/
def buildConfigJson (J : JsonText) (info : ShareInfo) : Str :=
  J.print (.obj (insertEntries (configEntries info) []))

/-- Scanning a link in the application, confirming it, and what the command `join_space`
answers. In a browser the last step is `webJoinSpace`. -/
def acceptInvitation (Q : QrCrates) (seed : Str) {J : JsonText} (C : ConfigText J)
    (networkOf : Str → Option Str) (e : Str) (m : Manager) (fresh link : Str) (io : RecordIo) :
    Except Str SpaceRow × Manager :=
  match resolveJoinShareInfo Q seed link with
  | .error err => (.error err, m)
  | .ok info => SpaceRecords.joinSpace networkOf C e m fresh (buildConfigJson J info) info.name io

/-- The default configuration with the fields of a link. -/
def invitedConfig (fresh : Str) (info : ShareInfo) (dhcp : Bool) : ConfigData :=
  let config := setText "network_name" info.networkName (defaultConfig fresh)
  let config := setText "network_secret" info.networkSecret config
  let config :=
    if info.virtualIp.getD [] ≠ [] then setText "virtual_ipv4" (info.virtualIp.getD []) config
    else config
  let config := modifyField "dhcp".toList (fun _ => .bool dhcp) config
  let config :=
    if info.peerUrls ≠ [] then
      modifyField "peer_urls".toList (fun _ => .list (info.peerUrls.map .str)) config
    else config
  if info.listenerUrls ≠ [] then
    modifyField "listener_urls".toList (fun _ => .list (info.listenerUrls.map .str)) config
  else config

/-! ## What is read of the link -/

variable {Q : QrCrates} {seed : Str} {nonce : { n : Bytes // n.length = nonceLen }}

theorem parseShareData_encode {info : ShareInfo} {data : Bytes}
    (h : encodeShareBinary info = .ok data) : parseShareData Q (base64Encode data) = .ok info := by
  rcases encodeShareBinary_eq_ok.1 h with ⟨hfits, rfl⟩
  rw [parseShareData, base64Decode_encode]
  refine decodeShareBinary_eq_ok.2 ⟨hfits, shareFlags info, [], shareFlags_mask info, ?_⟩
  rw [List.append_nil]

theorem resolveJoinShareInfo_link {info : ShareInfo} {data : Bytes} {link : Str}
    (henc : encodeShareBinary info = .ok data)
    (h : encryptQr Q seed nonce eventJoinSpace data = .ok link) :
    resolveJoinShareInfo Q seed link = .ok info := by
  rw [resolveJoinShareInfo, parseQr_of_encryptQr h]
  exact parseShareData_encode henc

/-! ## What is joined -/

def given (info : ShareInfo) (dhcp : Bool) : List Given :=
  [⟨"network_name".toList, .str info.networkName, .str info.networkName⟩,
    ⟨"network_secret".toList, .str info.networkSecret, .str info.networkSecret⟩] ++
  (if info.virtualIp.getD [] ≠ [] then
    [⟨"virtual_ipv4".toList, .str (info.virtualIp.getD []), .str (info.virtualIp.getD [])⟩]
    else []) ++
  [⟨"dhcp".toList, .bool dhcp, .bool dhcp⟩] ++
  (if info.peerUrls ≠ [] then
    [⟨"peer_urls".toList, texts info.peerUrls, .list (info.peerUrls.map .str)⟩] else []) ++
  (if info.listenerUrls ≠ [] then
    [⟨"listener_urls".toList, texts info.listenerUrls, .list (info.listenerUrls.map .str)⟩]
    else [])

variable {info : ShareInfo} {dhcp : Bool}

theorem configEntries_eq (h : info.dhcp = some dhcp) :
    configEntries info = (given info dhcp).map fun g => (g.name, g.value) := by
  rw [configEntries, given, h]
  simp only [List.map_append]
  congr 1
  · congr 1
    · congr 2
      split
      · rfl
      · rfl
    · split
      · rfl
      · rfl
  · split
    · rfl
    · rfl

theorem withGiven_append (gs hs : List Given) (cfg : ConfigData) :
    withGiven (gs ++ hs) cfg = withGiven hs (withGiven gs cfg) := List.foldl_append

theorem withGiven_ite (c : Prop) [Decidable c] (g : Given) (cfg : ConfigData) :
    withGiven (if c then [g] else []) cfg =
      if c then modifyField g.name (fun _ => g.data) cfg else cfg := by
  split
  · rfl
  · rfl

theorem withGiven_given (info : ShareInfo) (dhcp : Bool) (fresh : Str) :
    withGiven (given info dhcp) (defaultConfig fresh) = invitedConfig fresh info dhcp := by
  rw [given, withGiven_append, withGiven_append, withGiven_append, withGiven_append, withGiven_ite,
    withGiven_ite, withGiven_ite]
  rfl

theorem nodup_given (info : ShareInfo) (dhcp : Bool) : ((given info dhcp).map Given.name).Nodup := by
  have hite : ∀ (c : Prop) [Decidable c] (g : Given),
      ((if c then [g] else []).map Given.name).Sublist [g.name] := by
    intro c _ g
    split
    · exact List.Sublist.refl _
    · exact List.nil_sublist _
  have hall : ["network_name".toList, "network_secret".toList, "virtual_ipv4".toList,
      "dhcp".toList, "peer_urls".toList, "listener_urls".toList].Nodup := by
    decide
  refine List.Nodup.sublist ?_ hall
  rw [given, List.map_append, List.map_append, List.map_append, List.map_append]
  exact ((((List.Sublist.refl ["network_name".toList, "network_secret".toList]).append
    (hite _ _)).append (List.Sublist.refl ["dhcp".toList])).append (hite _ _)).append (hite _ _)

theorem type_peerUrls : configTypes.lookup "peer_urls".toList = some .strings := by decide

theorem type_listenerUrls : configTypes.lookup "listener_urls".toList = some .strings := by decide

theorem read_texts (ss : List Str) :
    FieldType.strings.read (texts ss) = some (.list (ss.map .str)) := by
  have hall : (ss.map Json.str).mapM Scalar.str.read = some (ss.map .str) := by
    rw [mapM_eq_some_iff, List.forall₂_map_left_iff, List.forall₂_map_right_iff]
    exact List.forall₂_same.2 fun _ _ => rfl
  show ((ss.map Json.str).mapM Scalar.str.read).map ConfigData.list = _
  rw [hall]
  rfl

theorem reads_texts {name : Str} (h : configTypes.lookup name = some .strings) (ss : List Str) :
    Given.Reads ⟨name, texts ss, .list (ss.map .str)⟩ := ⟨.strings, h, read_texts ss⟩

theorem reads_str {name : Str} (h : configTypes.lookup name = some (.scalar .str)) (s : Str) :
    Given.Reads ⟨name, .str s, .str s⟩ := ⟨.scalar .str, h, rfl⟩

theorem reads_given (info : ShareInfo) (dhcp : Bool) : ∀ g ∈ given info dhcp, g.Reads := by
  have hite : ∀ (c : Prop) [Decidable c] (g : Given), g.Reads →
      ∀ g' ∈ (if c then [g] else []), g'.Reads := by
    intro c _ g hg g' hmem
    split at hmem
    · rw [List.mem_singleton.1 hmem]
      exact hg
    · cases hmem
  intro g hg
  simp only [given, List.mem_append] at hg
  rcases hg with (((hg | hg) | hg) | hg) | hg
  · rcases List.mem_cons.1 hg with rfl | hg
    · exact reads_str type_networkName _
    · rw [List.mem_singleton.1 hg]
      exact reads_str type_networkSecret _
  · exact hite _ _ (reads_str type_virtualIpv4 _) g hg
  · rw [List.mem_singleton.1 hg]
    exact ⟨.scalar .bool, type_dhcp, rfl⟩
  · exact hite _ _ (reads_texts type_peerUrls _) g hg
  · exact hite _ _ (reads_texts type_listenerUrls _) g hg

theorem valid_given (info : ShareInfo) (dhcp : Bool) :
    ∀ g ∈ given info dhcp, g.value.Valid 126 := by
  have htexts : ∀ ss, (texts ss).Valid 126 := by
    intro ss
    refine .arr ?_
    intro x hx
    rcases List.mem_map.1 hx with ⟨s, -, rfl⟩
    exact .str s
  have hite : ∀ (c : Prop) [Decidable c] (g : Given), g.value.Valid 126 →
      ∀ g' ∈ (if c then [g] else []), g'.value.Valid 126 := by
    intro c _ g hg g' hmem
    split at hmem
    · rw [List.mem_singleton.1 hmem]
      exact hg
    · cases hmem
  intro g hg
  simp only [given, List.mem_append] at hg
  rcases hg with (((hg | hg) | hg) | hg) | hg
  · rcases List.mem_cons.1 hg with rfl | hg
    · exact .str _
    · rw [List.mem_singleton.1 hg]
      exact .str _
  · exact hite _ _ (.str _) g hg
  · rw [List.mem_singleton.1 hg]
    exact .bool _
  · exact hite _ _ (htexts _) g hg
  · exact hite _ _ (htexts _) g hg

/-- `serde_json` finds no field twice in an object that was written. -/
def Once {J : JsonText} (C : ConfigText J) : Prop :=
  ∀ kvs, Sorted kvs → C.twice (J.print (.obj kvs)) = false

theorem read_buildConfigJson {J : JsonText} {C : ConfigText J} (hC : Once C)
    (h : info.dhcp = some dhcp) (fresh : Str) :
    C.read fresh (buildConfigJson J info) = some (invitedConfig fresh info dhcp) := by
  have hsorted : Sorted (insertEntries (configEntries info) []) :=
    sorted_insertEntries _ sorted_nil
  have hvalid : (Json.obj (insertEntries (configEntries info) [])).Valid Json.nestingLimit := by
    apply Json.valid_insertEntries
    · rw [configEntries_eq h]
      intro e he
      rcases List.mem_map.1 he with ⟨g, hg, rfl⟩
      exact valid_given info dhcp g hg
    · exact .obj sorted_nil (by simp)
  rw [buildConfigJson, C.read_eq fresh _ _ (J.parse_print _ hvalid), hC _ hsorted,
    if_neg Bool.false_ne_true, configEntries_eq h,
    readConfig_given (nodup_given info dhcp) (reads_given info dhcp), withGiven_given]

section Invitation

variable {J : JsonText} {C : ConfigText J} {fresh : Str} {m : Manager} {id : Uuid}
variable {column : Except Str (Option Str)} {space : SpaceRow} {effective : ConfigData}

theorem generateShareLink_eq (hspace : m.spaces.find? (·.id = id) = some space)
    (heffective : getEffectiveConfig J fresh (some (identity space)) column = .ok effective)
    (ip : Option Str) :
    generateShareLink Q seed nonce J fresh m id column ip = some (do
      let data ← encodeShareBinary (shareInfo space effective ip)
      encryptQr Q seed nonce eventJoinSpace data) := by
  rw [generateShareLink]
  simp only [hspace, heffective]

theorem exists_link (hspace : m.spaces.find? (·.id = id) = some space)
    (heffective : getEffectiveConfig J fresh (some (identity space)) column = .ok effective)
    {ip : Option Str} (hfits : (shareInfo space effective ip).Fits) :
    ∃ link, generateShareLink Q seed nonce J fresh m id column ip = some (.ok link) := by
  have hevent : utf8 eventJoinSpace ≠ [] ∧ (utf8 eventJoinSpace).length ≤ maxEventLen := by
    decide
  have henc := encodeShareBinary_eq_ok.2 ⟨hfits, rfl⟩
  rcases encryptQr_isOk (Q := Q) hevent.1 hevent.2 _ with ⟨link, h⟩
  rw [generateShareLink_eq hspace heffective]
  exact ⟨link, congrArg some (bind_eq_ok.2 ⟨_, henc, h⟩)⟩

/-- The page hands the fields of the link to the node. -/
theorem acceptInvitation_link (hC : Once C)
    (hspace : m.spaces.find? (·.id = id) = some space)
    (heffective : getEffectiveConfig J fresh (some (identity space)) column = .ok effective)
    {ip : Option Str} {link : Str}
    (h : generateShareLink Q seed nonce J fresh m id column ip = some (.ok link))
    (networkOf : Str → Option Str) (e : Str) (receiver : Manager) (fresh' : Str) (io : RecordIo) :
    acceptInvitation Q seed C networkOf e receiver fresh' link io =
      join networkOf receiver
        (invitedConfig fresh' (shareInfo space effective ip) (sharedAddress ip).isNone)
        (some space.name) io := by
  rw [generateShareLink_eq hspace heffective] at h
  rcases bind_eq_ok.1 (Option.some.inj h) with ⟨data, henc, hdata⟩
  rw [acceptInvitation, resolveJoinShareInfo_link henc hdata]
  show SpaceRecords.joinSpace _ _ _ _ _ _ _ _ = _
  rw [SpaceRecords.joinSpace, read_buildConfigJson hC rfl]
  rfl

variable (Q seed nonce) in
/-- A link can be made exactly if what it is to hold is short, and whoever scans it in the
application joins the default configuration with what it holds, under the name of the
space. -/
theorem invitation_joins (hC : Once C) (hspace : m.spaces.find? (·.id = id) = some space)
    (heffective : getEffectiveConfig J fresh (some (identity space)) column = .ok effective)
    (ip : Option Str) :
    ((∃ link, generateShareLink Q seed nonce J fresh m id column ip = some (.ok link)) ↔
      (shareInfo space effective ip).Fits) ∧
    ∀ link, generateShareLink Q seed nonce J fresh m id column ip = some (.ok link) →
      ∀ networkOf e receiver fresh' io,
        acceptInvitation Q seed C networkOf e receiver fresh' link io =
          join networkOf receiver
            (invitedConfig fresh' (shareInfo space effective ip) (sharedAddress ip).isNone)
            (some space.name) io := by
  refine ⟨⟨?_, exists_link hspace heffective⟩, fun _ => acceptInvitation_link hC hspace heffective⟩
  rintro ⟨link, h⟩
  rw [generateShareLink_eq hspace heffective] at h
  rcases bind_eq_ok.1 (Option.some.inj h) with ⟨data, henc, -⟩
  exact (encodeShareBinary_eq_ok.1 henc).1

/-! ## Meeting -/

/-- The configuration of the space, if it can be read, leaves the network of the space or
names the same. -/
def KeepsNetwork (J : JsonText) (fresh : Str) (space : Identity)
    (column : Except Str (Option Str)) : Prop :=
  ∀ text cfg, column = .ok (some text) → fromConfigJson J fresh text = .ok cfg →
    (textField "network_name" cfg = [] ∨ textField "network_name" cfg = space.networkName) ∧
    (textField "network_secret" cfg = [] ∨ textField "network_secret" cfg = space.networkSecret)

theorem isConfig_of_fromConfigJson {text : Str} {cfg : ConfigData}
    (h : fromConfigJson J fresh text = .ok cfg) : IsConfig cfg := by
  simp only [fromConfigJson] at h
  split at h
  · rw [← ConfigRead.ok.inj h]
    exact isConfig_default fresh
  · split at h
    · cases h
    · split at h
      · rename_i cfg' hread
        rw [← ConfigRead.ok.inj h]
        exact isConfig_of_readConfig hread
      · split at h
        · cases h
        · cases h

theorem identityOf_effective_iff {column : Except Str (Option Str)} {net : Identity}
    (heffective : getEffectiveConfig J fresh (some net) column = .ok effective) :
    identityOf effective = net ↔ KeepsNetwork J fresh net column := by
  unfold getEffectiveConfig at heffective
  split at heffective
  · cases heffective
  · cases heffective
  · -- no configuration
    rename_i hnet
    obtain rfl := Option.some.inj hnet
    obtain rfl := Effective.ok.inj heffective
    exact iff_of_true identityOf_fallbackConfig fun text cfg htext => by cases htext
  · rename_i space' text hnet
    obtain rfl := Option.some.inj hnet
    split at heffective
    · rename_i cfg hcfg
      obtain rfl := Effective.ok.inj heffective
      have hconfig := isConfig_of_fromConfigJson hcfg
      have hname := hconfig.getField_text type_networkName
      have hsecret := hconfig.getField_text type_networkSecret
      have hfilled : ∀ given own : Str,
          (if given = [] then own else given) = own ↔ given = [] ∨ given = own := by
        intro given own
        by_cases hgiven : given = []
        · simp [hgiven]
        · simp [hgiven]
      rw [identityOf_fillIdentity hname hsecret]
      constructor
      · intro heq text' cfg' htext' hcfg'
        obtain rfl : text = text' := by simpa using htext'
        obtain rfl : cfg = cfg' := ConfigRead.ok.inj (hcfg.symm.trans hcfg')
        exact ⟨(hfilled _ _).1 (congrArg Identity.networkName heq),
          (hfilled _ _).1 (congrArg Identity.networkSecret heq)⟩
      · intro hkeeps
        obtain ⟨hsame, hsame'⟩ := hkeeps text cfg rfl hcfg
        rw [(hfilled _ _).2 hsame, (hfilled _ _).2 hsame']
    · -- nothing that can be read
      rename_i hcfg
      obtain rfl := Effective.ok.inj heffective
      refine iff_of_true identityOf_fallbackConfig ?_
      intro text' cfg htext hok
      obtain rfl : text = text' := by simpa using htext
      rw [hcfg] at hok
      cases hok
    · cases heffective

theorem mem_given {g : Given} (h : g ∈ [
    (⟨"network_name".toList, .str info.networkName, .str info.networkName⟩ : Given),
    ⟨"network_secret".toList, .str info.networkSecret, .str info.networkSecret⟩]) :
    g ∈ given info dhcp := by
  rw [given]
  apply List.mem_append_left
  apply List.mem_append_left
  apply List.mem_append_left
  apply List.mem_append_left
  exact h

theorem identityOf_invitedConfig (fresh : Str) (info : ShareInfo) (dhcp : Bool)
    (networkOf : Str → Option Str) (id : Uuid) :
    identityOf (joinConfig networkOf id (invitedConfig fresh info dhcp)) =
      ⟨info.networkName, info.networkSecret⟩ := by
  have hconfig : IsConfig (invitedConfig fresh info dhcp) := by
    rw [← withGiven_given]
    exact isConfig_withGiven (reads_given info dhcp) (isConfig_default fresh)
  have hgiven : ∀ g ∈ given info dhcp, (∃ d, getField g.name (defaultConfig fresh) = some d) →
      getField g.name (invitedConfig fresh info dhcp) = some g.data := by
    intro g hg hthere
    rw [← withGiven_given]
    exact getField_withGiven_of_mem (nodup_given info dhcp) hg hthere
  have hname : getField "network_name".toList
      (joinConfig networkOf id (invitedConfig fresh info dhcp)) = some (.str info.networkName) := by
    rw [getField_joinConfig networkOf id hconfig, if_neg (by decide), if_neg (by decide),
      if_neg (by decide)]
    exact hgiven ⟨_, .str info.networkName, .str info.networkName⟩ (mem_given (.head _))
      ⟨_, getField_default_name fresh⟩
  have hsecret : getField "network_secret".toList
      (joinConfig networkOf id (invitedConfig fresh info dhcp)) = some (.str info.networkSecret) := by
    rw [getField_joinConfig networkOf id hconfig, if_neg (by decide), if_neg (by decide),
      if_neg (by decide)]
    exact hgiven ⟨_, .str info.networkSecret, .str info.networkSecret⟩
      (mem_given (.tail _ (.head _))) ⟨_, getField_default_secret fresh⟩
  rw [identityOf, textField_eq hname, textField_eq hsecret]

/-- What `join` gives back holds the configuration it has stored. -/
theorem configJson_join {networkOf : Str → Option Str} {receiver m' : Manager} {cfg : ConfigData}
    {name : Option Str} {io : RecordIo} {row : SpaceRow}
    (h : join networkOf receiver cfg name io = (.ok row, m')) :
    row.configJson = some (writeConfig (joinConfig networkOf io.id cfg)) := by
  simp only [SpaceRecords.join] at h
  split at h
  · cases h
  · split at h
    · cases h
    · rw [storeConfig] at h
      split at h
      · cases h
      · rw [← Except.ok.inj (congrArg Prod.fst h)]

variable (Q seed nonce) in
/-- Who accepts an invitation with `join_space` is then in the network of the inviter exactly
if the configuration of the inviter keeps to the network of the space. -/
theorem invitation_meets_iff (hC : Once C) (hspace : m.spaces.find? (·.id = id) = some space)
    (heffective : getEffectiveConfig J fresh (some (identity space)) column = .ok effective)
    (ip : Option Str) (link : Str)
    (h : generateShareLink Q seed nonce J fresh m id column ip = some (.ok link))
    (networkOf : Str → Option Str) (e : Str) (receiver m' : Manager) (fresh' : Str) (io : RecordIo)
    (row : SpaceRow)
    (haccept : acceptInvitation Q seed C networkOf e receiver fresh' link io = (.ok row, m')) :
    (row.configJson.bind (readConfig [])).map identityOf = some (identityOf effective) ↔
      KeepsNetwork J fresh (identity space) column := by
  rw [acceptInvitation_link hC hspace heffective h] at haccept
  have hconfig : IsConfig (invitedConfig fresh' (shareInfo space effective ip)
      (sharedAddress ip).isNone) := by
    rw [← withGiven_given]
    exact isConfig_withGiven (reads_given _ _) (isConfig_default fresh')
  rw [configJson_join haccept, Option.bind_some,
    (isConfig_joinConfig hconfig networkOf io.id).readConfig_writeConfig, Option.map_some,
    identityOf_invitedConfig, ← identityOf_effective_iff heffective, Option.some.injEq]
  exact eq_comm

end Invitation

/-! ## An invitation home -/

theorem once_compact : Once ConfigText.compact := fun _ _ => rfl

def homeSpace : SpaceRow where
  id := 1
  name := "home".toList
  ownerId := none
  networkName := "homeTier_home".toList
  networkSecret := "home-secret".toList
  description := none
  createdAt := []
  isAutoConnect := false
  configJson := none

def inviter : Manager := ⟨⟨[homeSpace], []⟩, [homeSpace]⟩

def homeConfig : ConfigData := fallbackConfig [] (identity homeSpace)

theorem effective_home :
    getEffectiveConfig .compact [] (some (identity homeSpace)) (.ok none) = .ok homeConfig := rfl

instance (s : Str) : Decidable (Short s) := inferInstanceAs (Decidable (_ ≤ _))

theorem short_home : Short homeSpace.networkName ∧ Short homeSpace.networkSecret ∧
    Short homeSpace.name := by
  decide

theorem listenerUrls_home : textsField "listener_urls" homeConfig =
    ["tcp://0.0.0.0:11010".toList, "udp://0.0.0.0:11010".toList, "wg://0.0.0.0:11011".toList] := rfl

theorem fits_home : (shareInfo homeSpace homeConfig none).Fits where
  networkName := short_home.1
  networkSecret := short_home.2.1
  name s hs := by
    obtain rfl := Option.some.inj hs
    exact short_home.2.2
  hostHint s hs := by cases hs
  virtualIp s hs := by cases hs
  peerUrls := ⟨Nat.zero_le _, fun s hs => by cases hs⟩
  listenerUrls := by
    show ShortList (textsField "listener_urls" homeConfig)
    rw [listenerUrls_home]
    exact ⟨by decide, by decide⟩

theorem found_home : inviter.spaces.find? (·.id = 1) = some homeSpace := rfl

theorem invitation_joins_home :
    ∃ link, generateShareLink fooCrates [] sevens .compact [] inviter 1 (.ok none) none =
        some (.ok link) ∧
      acceptInvitation fooCrates [] ConfigText.compact networkText [] emptyManager [] link
          (grantedIo 2 "guest".toList) =
        join networkText emptyManager (invitedConfig [] (shareInfo homeSpace homeConfig none) true)
          (some "home".toList) (grantedIo 2 "guest".toList) := by
  have hjoins := invitation_joins fooCrates [] sevens once_compact found_home effective_home none
  rcases hjoins.1.2 fits_home with ⟨link, h⟩
  exact ⟨link, h, hjoins.2 link h networkText [] emptyManager [] (grantedIo 2 "guest".toList)⟩

/-- The inviter has no configuration of its own, and both are in the network of the space. -/
theorem invitation_meets_home : ∃ link row m',
    acceptInvitation fooCrates [] ConfigText.compact networkText [] emptyManager [] link
        (grantedIo 2 "guest".toList) = (.ok row, m') ∧
      ((row.configJson.bind (readConfig [])).map identityOf = some (identityOf homeConfig) ↔
        KeepsNetwork .compact [] (identity homeSpace) (.ok none)) := by
  rcases exists_link (Q := fooCrates) found_home effective_home fits_home with ⟨link, h⟩
  have haccept := acceptInvitation_link once_compact found_home effective_home h networkText []
    emptyManager [] (grantedIo 2 "guest".toList)
  exact ⟨link, _, _, haccept, invitation_meets_iff fooCrates [] sevens once_compact found_home
    effective_home none link h networkText [] emptyManager _ [] (grantedIo 2 "guest".toList) _
    haccept⟩

end SpaceInvite

end HomeTier
