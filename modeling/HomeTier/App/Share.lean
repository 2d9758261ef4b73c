import HomeTier.App.Import
import HomeTier.Lib.JsonRecord
import HomeTier.Space.Invite

/-! # Sharing apps by a link

`generate_add_app_link` (`src-tauri/src/commands/app.rs`) puts the apps that were
selected in a space, the names of the space and of its network, and the peers it is
meant for into a link. Who scans the link imports them: `handleScanResult` of
`src/components/Space/SpaceList.tsx` reads it with `parse_qr` and calls
`import_add_apps`.

1. A link can be made exactly if an app is selected and the peers can be listed, and all
   that it says comes to the import of any node (`shared_apps_arrive`).
2. Who has accepted an invitation gets those apps of the link that it does not have,
   exactly if the configuration of who shares keeps the network of the space and the
   peers are online (`member_gets_apps`).

Both commands are those of the application: the page in a browser posts to routes that
the server does not have. The keys of a payload are printed in their order here and in
that of the declaration there, and serde looks them up by name.
-/

namespace HomeTier.AppImports

open Lib ConfigJson SpaceRows SpaceRecords

/-! ## Payloads as JSON -/

namespace AppImport

def fields (app : AppImport) : List (Str × Json) :=
  [("name".toList, .str app.name), ("category".toList, .optional app.category),
    ("icon".toList, .optional app.icon), ("protocol".toList, .optional app.protocol),
    ("hostname".toList, .optional app.hostname), ("port".toList, .optional app.port),
    ("pathname".toList, .optional app.pathname)]

def toJson (app : AppImport) : Json := .record app.fields

def ofFields (get : Str → Option Json) : Option AppImport := do
  let name ← (get "name".toList).bind Json.asStr
  let category ← Json.readOptional (get "category".toList)
  let icon ← Json.readOptional (get "icon".toList)
  let protocol ← Json.readOptional (get "protocol".toList)
  let hostname ← Json.readOptional (get "hostname".toList)
  let port ← Json.readOptional (get "port".toList)
  let pathname ← Json.readOptional (get "pathname".toList)
  return { name, category, icon, protocol, hostname, port, pathname }

def ofJson : Json → Option AppImport :=
  Json.readRecord ["name".toList, "category".toList, "icon".toList, "protocol".toList,
    "hostname".toList, "port".toList, "pathname".toList] ofFields

theorem nodup_fields (app : AppImport) : (app.fields.map (·.1)).Nodup := by
  show ["name".toList, "category".toList, "icon".toList, "protocol".toList, "hostname".toList,
    "port".toList, "pathname".toList].Nodup
  decide

theorem ofJson_toJson (app : AppImport) : ofJson app.toJson = some app := by
  refine Json.readRecord_record app.nodup_fields _ fun get hget => ?_
  simp only [fields, List.forall_mem_cons] at hget
  obtain ⟨hname, hcategory, hicon, hprotocol, hhostname, hport, hpathname, -⟩ := hget
  simp only [ofFields, hname, hcategory, hicon, hprotocol, hhostname, hport, hpathname,
    Option.bind_some, Json.asStr, Json.readOptional_optional, Option.bind_eq_bind,
    Option.pure_def]

theorem valid_toJson {d : Nat} (app : AppImport) : app.toJson.Valid (d + 1) := by
  refine Json.valid_record ?_
  simp only [fields, List.forall_mem_cons, List.not_mem_nil, false_implies, implies_true, and_true]
  exact ⟨.str _, Json.valid_optional _, Json.valid_optional _, Json.valid_optional _,
    Json.valid_optional _, Json.valid_optional _, Json.valid_optional _⟩

end AppImport

namespace PeerTarget

def fields (peer : PeerTarget) : List (Str × Json) :=
  [("peerId".toList, .int peer.peerId.toNat), ("virtualIp".toList, .optional peer.virtualIp)]

def toJson (peer : PeerTarget) : Json := .record peer.fields

def ofFields (get : Str → Option Json) : Option PeerTarget := do
  let peerId ← (get "peerId".toList).bind Json.readU32
  let virtualIp ← Json.readOptional (get "virtualIp".toList)
  return { peerId, virtualIp }

def ofJson : Json → Option PeerTarget :=
  Json.readRecord ["peerId".toList, "virtualIp".toList] ofFields

theorem nodup_fields (peer : PeerTarget) : (peer.fields.map (·.1)).Nodup := by
  show ["peerId".toList, "virtualIp".toList].Nodup
  decide

theorem ofJson_toJson (peer : PeerTarget) : ofJson peer.toJson = some peer := by
  refine Json.readRecord_record peer.nodup_fields _ fun get hget => ?_
  simp only [fields, List.forall_mem_cons] at hget
  obtain ⟨hpeerId, hvirtualIp, -⟩ := hget
  have hread : (get "peerId".toList).bind Json.readU32 = some peer.peerId := by
    rw [hpeerId, Option.bind_some, Json.readU32_toNat]
  simp only [ofFields, hread, hvirtualIp, Option.bind_some, Json.readOptional_optional,
    Option.bind_eq_bind, Option.pure_def]

theorem valid_toJson {d : Nat} (peer : PeerTarget) : peer.toJson.Valid (d + 1) := by
  refine Json.valid_record ?_
  simp only [fields, List.forall_mem_cons, List.not_mem_nil, false_implies, implies_true, and_true]
  exact ⟨Json.valid_u32 _, Json.valid_optional _⟩

end PeerTarget

namespace AddAppPayload

def fields (payload : AddAppPayload) : List (Str × Json) :=
  [("name".toList, .str payload.name), ("networkName".toList, .str payload.networkName),
    ("apps".toList, .arr (payload.apps.map AppImport.toJson)),
    ("targetPeers".toList, .arr (payload.targetPeers.map PeerTarget.toJson))]

def toJson (payload : AddAppPayload) : Json := .record payload.fields

def ofFields (get : Str → Option Json) : Option AddAppPayload := do
  let name ← (get "name".toList).bind Json.asStr
  let networkName ← (get "networkName".toList).bind Json.asStr
  let apps ← (get "apps".toList).bind (Json.readList AppImport.ofJson)
  let targetPeers ← (get "targetPeers".toList).bind (Json.readList PeerTarget.ofJson)
  return { name, networkName, apps, targetPeers }

def ofJson : Json → Option AddAppPayload :=
  Json.readRecord ["name".toList, "networkName".toList, "apps".toList, "targetPeers".toList]
    ofFields

theorem nodup_fields (payload : AddAppPayload) : (payload.fields.map (·.1)).Nodup := by
  show ["name".toList, "networkName".toList, "apps".toList, "targetPeers".toList].Nodup
  decide

theorem ofJson_toJson (payload : AddAppPayload) : ofJson payload.toJson = some payload := by
  refine Json.readRecord_record payload.nodup_fields _ fun get hget => ?_
  simp only [fields, List.forall_mem_cons] at hget
  obtain ⟨hname, hnetworkName, happs, htargetPeers, -⟩ := hget
  simp only [ofFields, hname, hnetworkName, happs, htargetPeers, Option.bind_some, Json.asStr,
    Json.readList_map AppImport.ofJson_toJson, Json.readList_map PeerTarget.ofJson_toJson,
    Option.bind_eq_bind, Option.pure_def]

theorem valid_toJson (payload : AddAppPayload) : payload.toJson.Valid Json.nestingLimit := by
  refine Json.valid_record ?_
  simp only [fields, List.forall_mem_cons, List.not_mem_nil, false_implies, implies_true, and_true]
  refine ⟨.str _, .str _, .arr ?_, .arr ?_⟩
  · exact List.forall_mem_map.2 fun app _ => app.valid_toJson
  · exact List.forall_mem_map.2 fun peer _ => peer.valid_toJson

end AddAppPayload

/-! ## Making and scanning a link -/

/-- What a link is to hold: the selected apps of the space, and the peers it is meant for. -/
def addAppPayload (space : SpaceRecords.SpaceRow) (effective : ConfigData) (apps : List AppRow)
    (appIds : List Str) (peers : List PeerTarget) (targetPeerIds : List UInt32) :
    AddAppPayload where
  name := space.name
  networkName := textField "network_name" effective
  apps := (apps.filter fun a => appIds.contains a.id).map content
  targetPeers := peers.filter fun p => targetPeerIds.contains p.peerId

inductive ScanOutcome where
  /-- The dialog that asks whether to join. -/
  | join (info : ShareInfo)
  | imported (result : ImportAddAppsResult)
  | unsupported (event : Str)
  | failed (message : Str)

section Link

variable (Q : QrCrates) (seed : Str)

/-- `generate_add_app_link`; `none` where `get_effective_config` panics. `uuidError` is the text
for an id that is none, and `peers` what `get_peers` gives. -/
def generateAddAppLink (nonce : { n : Bytes // n.length = nonceLen }) (J : JsonText)
    (fresh uuidError : Str) (m : SpaceRecords.Manager) (db : Db) (spaceId : Str)
    (column : Except Str (Option Str)) (appIds : List Str) (peers : Except Str (List PeerTarget))
    (targetPeerIds : List UInt32) : Option (Except Str Str) :=
  match parseUuid spaceId with
  | none => some (.error uuidError)
  | some id =>
    match m.spaces.find? (·.id = id) with
    | none => some (.error "Space not found".toList)
    | some space =>
      match SpacePatch.getEffectiveConfig J fresh (some (SpaceInvite.identity space)) column with
      | .panic => none
      | .error e => some (.error e)
      | .ok effective =>
        if (db.listApps spaceId).filter (fun a => appIds.contains a.id) = [] then
          some (.error "未选择有效应用".toList)
        else
          some do
            let peers ← peers
            let payload :=
              addAppPayload space effective (db.listApps spaceId) appIds peers targetPeerIds
            encryptQr Q seed nonce eventAddApp (utf8 (J.print payload.toJson))

/-- The first lines of `import_add_apps`. -/
def decodePayload (J : JsonText) (data : Str) : Except Str AddAppPayload :=
  match base64Decode data with
  | none => .error ("数据解码失败: ".toList ++ Q.base64Error data)
  | some bytes =>
    match ((fromUtf8 bytes).bind J.parse).bind AddAppPayload.ofJson with
    | none => .error "载荷解析失败".toList
    | some payload => .ok payload

/-- `handleScanResult`, where the two calls are commands of the application. -/
def handleScanResult (E : Env) (db : Db) (text : Str) : Db × ScanOutcome :=
  match parseQr Q seed text with
  | .error e => (db, .failed e)
  | .ok scanned =>
    if scanned.event = eventJoinSpace then
      match SpaceInvite.parseShareData Q scanned.data with
      | .error e => (db, .failed e)
      | .ok info => (db, .join info)
    else if scanned.event = eventAddApp then
      match importAddApps E db (decodePayload Q E.J scanned.data) with
      | (db, .error e) => (db, .failed e)
      | (db, .ok result) => (db, .imported result)
    else (db, .unsupported scanned.event)

end Link

def importOutcome : Except Str ImportAddAppsResult → ScanOutcome
  | .error e => .failed e
  | .ok result => .imported result

section Sharing

variable {Q : QrCrates} {seed : Str} {nonce : { n : Bytes // n.length = nonceLen }}

theorem decodePayload_print (J : JsonText) (payload : AddAppPayload) :
    decodePayload Q J (base64Encode (utf8 (J.print payload.toJson))) = .ok payload := by
  have hread : ((fromUtf8 (utf8 (J.print payload.toJson))).bind J.parse).bind
      AddAppPayload.ofJson = some payload := by
    rw [fromUtf8_eq_some.2 rfl, Option.bind_some, J.parse_print _ payload.valid_toJson,
      Option.bind_some, payload.ofJson_toJson]
  simp only [decodePayload, base64Decode_encode, hread]

/-- A link of apps is imported by who scans it. -/
theorem handleScanResult_addApp {E : Env} {payload : AddAppPayload} {link : Str}
    (h : encryptQr Q seed nonce eventAddApp (utf8 (E.J.print payload.toJson)) = .ok link)
    (db : Db) :
    handleScanResult Q seed E db link = ((importAddApps E db (.ok payload)).1,
      importOutcome (importAddApps E db (.ok payload)).2) := by
  have hevent : eventAddApp ≠ eventJoinSpace := by decide
  simp only [handleScanResult, parseQr_of_encryptQr h, if_neg hevent, if_true,
    decodePayload_print]
  cases himport : importAddApps E db (.ok payload) with
  | mk db' result =>
    cases result with
    | error e => rfl
    | ok result => rfl

section Known

variable {E : Env} {fresh uuidError spaceId : Str} {m : SpaceRecords.Manager} {db : Db} {id : Uuid}
variable {column : Except Str (Option Str)} {space : SpaceRecords.SpaceRow}
variable {effective : ConfigData}
variable (hid : parseUuid spaceId = some id) (hspace : m.spaces.find? (·.id = id) = some space)
  (heffective : SpacePatch.getEffectiveConfig E.J fresh (some (SpaceInvite.identity space))
    column = .ok effective)

include hid hspace heffective

/-- A link is made exactly if an app is selected and the peers of the space can be listed. -/
theorem generateAddAppLink_eq_ok_iff {appIds : List Str}
    {peers : Except Str (List PeerTarget)} {targetPeerIds : List UInt32} {link : Str} :
    generateAddAppLink Q seed nonce E.J fresh uuidError m db spaceId column appIds peers
        targetPeerIds = some (.ok link) ↔
      (∃ app ∈ db.listApps spaceId, app.id ∈ appIds) ∧ ∃ targets, peers = .ok targets ∧
        encryptQr Q seed nonce eventAddApp (utf8 (E.J.print (addAppPayload space effective
          (db.listApps spaceId) appIds targets targetPeerIds).toJson)) = .ok link := by
  have hselected : (db.listApps spaceId).filter (fun a => appIds.contains a.id) = [] ↔
      ¬ ∃ app ∈ db.listApps spaceId, app.id ∈ appIds := by
    simp [List.filter_eq_nil_iff]
  simp only [generateAddAppLink, hid, hspace, heffective, hselected]
  by_cases hsome : ∃ app ∈ db.listApps spaceId, app.id ∈ appIds
  · rw [if_neg (not_not_intro hsome), Option.some.injEq, and_iff_right hsome]
    cases peers with
    | error e =>
      -- the error of the listing is the answer
      refine iff_of_false (fun h => ?_) ?_
      · cases h
      · rintro ⟨targets, h, -⟩
        cases h
    | ok targets => simp [bind, Except.bind]
  · rw [if_pos hsome]
    refine iff_of_false (fun h => ?_) fun h => hsome h.1
    cases Option.some.inj h

theorem exists_addAppLink {appIds : List Str} (hselected : ∃ app ∈ db.listApps spaceId, app.id ∈ appIds)
    (targets : List PeerTarget) (targetPeerIds : List UInt32) :
    ∃ link, generateAddAppLink Q seed nonce E.J fresh uuidError m db spaceId column appIds
      (.ok targets) targetPeerIds = some (.ok link) := by
  have hevent : utf8 eventAddApp ≠ [] ∧ (utf8 eventAddApp).length ≤ maxEventLen := by
    decide
  have hmade : ∃ link, encryptQr Q seed nonce eventAddApp (utf8 (E.J.print (addAppPayload space
      effective (db.listApps spaceId) appIds targets targetPeerIds).toJson)) = .ok link :=
    encryptQr_isOk hevent.1 hevent.2 _
  rcases hmade with ⟨link, h⟩
  exact ⟨link, (generateAddAppLink_eq_ok_iff hid hspace heffective).2
    ⟨hselected, targets, rfl, h⟩⟩

variable (Q seed nonce uuidError db) in
/-- A link for a known space can be made exactly if one of its apps is selected and the peers
of the space can be listed, and whoever scans it in the application imports the selected apps
for the peers it is meant for. -/
theorem shared_apps_arrive (appIds : List Str) (peers : Except Str (List PeerTarget)) (targetPeerIds : List UInt32) :
    ((∃ link, generateAddAppLink Q seed nonce E.J fresh uuidError m db spaceId column appIds
          peers targetPeerIds = some (.ok link)) ↔
        (∃ app ∈ db.listApps spaceId, app.id ∈ appIds) ∧ ∃ targets, peers = .ok targets) ∧
      ∀ link, generateAddAppLink Q seed nonce E.J fresh uuidError m db spaceId column appIds
          peers targetPeerIds = some (.ok link) →
        ∃ targets, peers = .ok targets ∧ ∀ db', handleScanResult Q seed E db' link =
          ((importAddApps E db' (.ok (addAppPayload space effective (db.listApps spaceId) appIds
              targets targetPeerIds))).1,
            importOutcome (importAddApps E db' (.ok (addAppPayload space effective
              (db.listApps spaceId) appIds targets targetPeerIds))).2) := by
  refine ⟨⟨?_, ?_⟩, fun link h => ?_⟩
  · rintro ⟨link, h⟩
    obtain ⟨hselected, targets, hpeers, -⟩ :=
      (generateAddAppLink_eq_ok_iff hid hspace heffective).1 h
    exact ⟨hselected, targets, hpeers⟩
  · rintro ⟨hselected, targets, rfl⟩
    exact exists_addAppLink hid hspace heffective hselected targets targetPeerIds
  · obtain ⟨-, targets, hpeers, hmade⟩ :=
      (generateAddAppLink_eq_ok_iff hid hspace heffective).1 h
    exact ⟨targets, hpeers, handleScanResult_addApp hmade⟩

end Known

/-! ## Members -/

theorem join_name {networkOf : Str → Option Str} {receiver m' : SpaceRecords.Manager}
    {cfg : ConfigData} {name : Str} {io : RecordIo} {row : SpaceRecords.SpaceRow}
    (h : SpaceRecords.join networkOf receiver cfg (some name) io = (.ok row, m')) :
    row.name = name := by
  simp only [SpaceRecords.join] at h
  split at h
  · cases h
  · split at h
    · cases h
    · rw [storeConfig] at h
      split at h
      · cases h
      · rw [← Except.ok.inj (congrArg Prod.fst h)]
        rfl

/-- The row of a space that a node has joined, with its configuration as text. -/
structure RowOf (E : Env) (joined : SpaceRecords.SpaceRow) (row : SpaceRow) : Prop where
  id : row.id = uuidText joined.id
  name : row.name = joined.name
  config : ∃ text, row.configJson = some text ∧ E.J.parse text = joined.configJson

/-- The one row of its name is found if it fits, and else none is. -/
theorem find_only {E : Env} {payload : AddAppPayload} {rows : List SpaceRow} {row : SpaceRow}
    (hrow : row ∈ rows) (honly : ∀ r ∈ rows, r.name = payload.name → r = row) :
    rows.find? (Matches E payload ·) = if Matches E payload row then some row else none := by
  split
  · next hmatches =>
    cases hfind : rows.find? (Matches E payload ·) with
    | none => exact absurd hmatches (by simpa using List.find?_eq_none.1 hfind row hrow)
    | some r =>
      have hr : Matches E payload r := by simpa using List.find?_some hfind
      rw [honly r (List.mem_of_find?_eq_some hfind) hr.1]
  · next hnot =>
    rw [List.find?_eq_none]
    intro r hr hmatches
    have hmatches : Matches E payload r := by simpa using hmatches
    rw [honly r hr hmatches.1] at hmatches
    exact hnot hmatches

/-- The import into the one space of the name. -/
theorem importAddApps_only {E : Env} {db : Db} {payload : AddAppPayload} {row : SpaceRow}
    {spaceId : Uuid} (hid : row.id = uuidText spaceId) (hrow : row ∈ db.spaces.rows)
    (honly : ∀ r ∈ db.spaces.rows, r.name = payload.name → r = row) :
    (Matches E payload row → ∃ added, (importAddApps E db (.ok payload)).2 =
        .ok ⟨row.id, row.name, added⟩ ∧
      Adds row.id payload.apps db (importAddApps E db (.ok payload)).1 added) ∧
    (¬ Matches E payload row → (importAddApps E db (.ok payload)).1 = db ∧
      ∃ e, (importAddApps E db (.ok payload)).2 = .error e) := by
  have hmem : ∀ r, r ∈ db.listSpaces ↔ r ∈ db.spaces.rows := fun r => List.mem_insertionSort _
  have hfind := find_only (E := E) ((hmem row).2 hrow) fun r hr => honly r ((hmem r).1 hr)
  have hparse : parseUuid row.id = some spaceId := by
    rw [hid, parseUuid_uuidText]
  refine ⟨fun hmatches => ?_, fun hnot => ?_⟩
  · rw [if_pos hmatches] at hfind
    rcases matchSpace_of_some hfind hparse with ⟨-, hmatch⟩ | ⟨⟨r, hr, hstop⟩, -⟩
    · have hthere : db.hasSpace row.id := List.mem_map_of_mem hrow
      obtain ⟨added, hcount, hadds⟩ := adds_importApps (E := E) hthere 0 payload.apps
      rw [importAddApps_of_match hmatch, ← hid]
      exact ⟨added, by rw [hcount, Nat.zero_add], hadds⟩
    · -- an unreadable row would be another one of the name
      have hother := List.mem_takeWhile_imp hr
      rw [honly r ((hmem r).1 (List.takeWhile_subset _ hr)) hstop.1] at hother
      simp [hmatches] at hother
  · rw [if_neg hnot] at hfind
    rcases matchSpace_of_none hfind with hmatch | hmatch
    · simp only [importAddApps, hmatch]
      exact ⟨trivial, _, rfl⟩
    · simp only [importAddApps, hmatch]
      exact ⟨trivial, _, rfl⟩

section Member

variable {J : JsonText} {C : ConfigText J} {fresh uuidError spaceId : Str} {id : Uuid}
variable {m : SpaceRecords.Manager} {db : Db} {column : Except Str (Option Str)}
variable {space : SpaceRecords.SpaceRow} {effective : ConfigData}

/-- What is shared in a space fits the space of a member who has accepted an invitation to it
exactly if the network is the same and the peers are online. -/
theorem matches_member (hC : SpaceInvite.Once C) (hspace : m.spaces.find? (·.id = id) = some space)
    (heffective : SpacePatch.getEffectiveConfig J fresh (some (SpaceInvite.identity space)) column =
      .ok effective) {ip : Option Str} {link : Str}
    (h : SpaceInvite.generateShareLink Q seed nonce J fresh m id column ip = some (.ok link))
    {networkOf : Str → Option Str} {e fresh' : Str} {receiver m' : SpaceRecords.Manager}
    {io : RecordIo} {joined : SpaceRecords.SpaceRow}
    (haccept : SpaceInvite.acceptInvitation Q seed C networkOf e receiver fresh' link io =
      (.ok joined, m')) {E : Env} {row : SpaceRow} (hrow : RowOf E joined row)
    (apps : List AppRow) (appIds : List Str) (peers : List PeerTarget)
    (targetPeerIds : List UInt32) :
    Matches E (addAppPayload space effective apps appIds peers targetPeerIds) row ↔
      textField "network_name" effective = space.networkName ∧
        allTargetsPresent E (addAppPayload space effective apps appIds peers targetPeerIds)
          joined.id = true := by
  rw [SpaceInvite.acceptInvitation_link hC hspace heffective h] at haccept
  have hname : row.name = space.name := hrow.name.trans (join_name haccept)
  have hparse : parseUuid row.id = some joined.id := by
    rw [hrow.id, parseUuid_uuidText]
  -- the row of the receiver has the name and the network of the link
  have hnetwork : row.configJson.bind (networkNameOf E) = some space.networkName := by
    have hconfig : IsConfig (SpaceInvite.invitedConfig fresh'
        (SpaceInvite.shareInfo space effective ip) (SpaceInvite.sharedAddress ip).isNone) := by
      rw [← SpaceInvite.withGiven_given]
      exact isConfig_withGiven (SpaceInvite.reads_given _ _) (isConfig_default fresh')
    rcases hrow.config with ⟨text, htext, hjoined⟩
    rw [SpaceInvite.configJson_join haccept] at hjoined
    have hread := (fromConfigJson_eq_ok_iff hjoined).2
      ((isConfig_joinConfig hconfig networkOf io.id).readConfig_writeConfig E.freshInstance)
    rw [htext, Option.bind_some, networkNameOf]
    simp only [hread]
    exact congrArg some (congrArg SpacePatch.Identity.networkName
      (SpaceInvite.identityOf_invitedConfig fresh' (SpaceInvite.shareInfo space effective ip)
        (SpaceInvite.sharedAddress ip).isNone networkOf io.id))
  unfold Matches
  rw [hnetwork]
  simp only [hname, hparse, Option.mem_some_iff, Option.some.injEq, exists_eq_left']
  constructor
  · rintro ⟨-, hsame, htargets⟩
    exact ⟨hsame.symm, htargets⟩
  · rintro ⟨hsame, htargets⟩
    exact ⟨rfl, hsame.symm, htargets⟩

variable (Q seed nonce) in
/-- Who has accepted the invitation to a space, and has no other space of the name, gets the
apps that are shared there exactly if the network is the same and the peers are online:
those that it does not have, and nothing else changes. Otherwise nothing changes. -/
theorem member_gets_apps {E : Env} {C : ConfigText E.J} (hC : SpaceInvite.Once C)
    (hspace : m.spaces.find? (·.id = id) = some space)
    (heffective : SpacePatch.getEffectiveConfig E.J fresh (some (SpaceInvite.identity space))
      column = .ok effective) (ip : Option Str) (link : Str)
    (h : SpaceInvite.generateShareLink Q seed nonce E.J fresh m id column ip = some (.ok link))
    (networkOf : Str → Option Str) (e fresh' : Str) (receiver m' : SpaceRecords.Manager)
    (io : RecordIo) (joined : SpaceRecords.SpaceRow)
    (haccept : SpaceInvite.acceptInvitation Q seed C networkOf e receiver fresh' link io =
      (.ok joined, m')) (hid : parseUuid spaceId = some id) (appIds : List Str)
    (peers : List PeerTarget) (targetPeerIds : List UInt32) (appLink : Str)
    (hshare : generateAddAppLink Q seed nonce E.J fresh uuidError m db spaceId column appIds
      (.ok peers) targetPeerIds = some (.ok appLink)) (db' : Db) (row : SpaceRow)
    (hrow : RowOf E joined row) (hthere : row ∈ db'.spaces.rows)
    (honly : ∀ r ∈ db'.spaces.rows, r.name = space.name → r = row) :
    let payload := addAppPayload space effective (db.listApps spaceId) appIds peers targetPeerIds
    let scanned := handleScanResult Q seed E db' appLink
    (textField "network_name" effective = space.networkName ∧
        allTargetsPresent E payload joined.id = true → ∃ added,
      scanned.2 = .imported ⟨row.id, row.name, added⟩ ∧
        Adds row.id payload.apps db' scanned.1 added) ∧
    (¬ (textField "network_name" effective = space.networkName ∧
        allTargetsPresent E payload joined.id = true) →
      scanned.1 = db' ∧ ∃ message, scanned.2 = .failed message) := by
  intro payload scanned
  have hscanned : scanned = ((importAddApps E db' (.ok payload)).1,
      importOutcome (importAddApps E db' (.ok payload)).2) := by
    obtain ⟨-, targets, hpeers, hmade⟩ :=
      (generateAddAppLink_eq_ok_iff hid hspace heffective).1 hshare
    obtain rfl := Except.ok.inj hpeers
    exact handleScanResult_addApp hmade db'
  have himport : (Matches E payload row → _) ∧ (¬ Matches E payload row → _) :=
    importAddApps_only hrow.id hthere honly
  rcases himport with ⟨hfits, hfits'⟩
  rw [hscanned, ← matches_member hC hspace heffective h haccept hrow]
  refine ⟨fun hmatches => ?_, fun hnot => ?_⟩
  · rcases hfits hmatches with ⟨added, hresult, hadds⟩
    exact ⟨added, by rw [hresult]; rfl, hadds⟩
  · rcases hfits' hnot with ⟨hsame, message, hresult⟩
    exact ⟨hsame, message, by rw [hresult]; rfl⟩

end Member

/-! ## Films at home -/

def films : AppRow where
  id := "films".toList
  spaceId := uuidText 1
  name := "Films".toList
  category := none
  icon := none
  protocol := some "http:".toList
  hostname := some "nas.local".toList
  port := some "8096".toList
  pathname := none
  sortOrder := 0
  createdBy := []
  createdAt := []

def sharer : Db := ⟨[], ⟨[], List.nodup_nil⟩, ⟨[films], List.nodup_singleton _⟩⟩

theorem films_selected : ∃ app ∈ sharer.listApps (uuidText 1), app.id ∈ ["films".toList] :=
  ⟨films, (List.mem_insertionSort _).2 (by simp [sharer, rowsOf, films]), List.mem_singleton.2 rfl⟩

def cinema : PeerTarget := ⟨7, some "10.126.126.2".toList⟩

def kitchen : PeerTarget := ⟨9, none⟩

theorem listApps_sharer : sharer.listApps (uuidText 1) = [films] := by
  simp [Db.listApps, sharer, rowsOf, films]

theorem payload_films : addAppPayload SpaceInvite.homeSpace SpaceInvite.homeConfig
    (sharer.listApps (uuidText 1)) ["films".toList] [cinema, kitchen] [7] =
      ⟨"home".toList, "homeTier_home".toList, [content films], [cinema]⟩ := by
  rw [listApps_sharer]
  rfl

theorem shared_apps_arrive_films : ∃ link,
    generateAddAppLink fooCrates [] sevens quietEnv.J [] [] SpaceInvite.inviter sharer (uuidText 1)
        (.ok none) ["films".toList] (.ok [cinema, kitchen]) [7] = some (.ok link) ∧
      ∀ db', handleScanResult fooCrates [] quietEnv db' link =
        ((importAddApps quietEnv db' (.ok ⟨"home".toList, "homeTier_home".toList, [content films],
            [cinema]⟩)).1,
          importOutcome (importAddApps quietEnv db' (.ok ⟨"home".toList, "homeTier_home".toList,
            [content films], [cinema]⟩)).2) := by
  have harrive := shared_apps_arrive (E := quietEnv) fooCrates [] sevens [] sharer
    (parseUuid_uuidText 1) SpaceInvite.found_home SpaceInvite.effective_home ["films".toList]
    (.ok [cinema, kitchen]) [7]
  rcases harrive.1.2 ⟨films_selected, _, rfl⟩ with ⟨link, h⟩
  rcases harrive.2 link h with ⟨targets, hpeers, hscanned⟩
  obtain rfl := Except.ok.inj hpeers
  rw [payload_films] at hscanned
  exact ⟨link, h, hscanned⟩

/-- Values whose parts are at most texts. -/
def isPlain : Json → Bool
  | .null | .bool _ | .str _ => true
  | .int n => decide (-2 ^ 63 ≤ n ∧ n < 2 ^ 64)
  | .arr xs => xs.all fun x => x.asStr.isSome
  | .obj kvs => kvs.isEmpty
  | .float _ => false

theorem valid_of_isPlain {v : Json} (h : isPlain v = true) : v.Valid 126 := by
  cases v with
  | null => exact .null
  | bool b => exact .bool b
  | int n => exact .int (of_decide_eq_true h)
  | float t => cases h
  | str s => exact .str s
  | arr xs =>
    refine .arr fun x hx => ?_
    have htext := List.all_eq_true.1 h x hx
    cases x with
    | str s => exact .str s
    | _ => cases htext
  | obj kvs =>
    obtain rfl := List.isEmpty_iff.1 h
    exact .obj sorted_nil (by simp)

def guestEntries : List (Str × Json) :=
  match joinConfig networkText 2 (SpaceInvite.invitedConfig [] (SpaceInvite.shareInfo
    SpaceInvite.homeSpace SpaceInvite.homeConfig none) true) with
  | .record ds =>
    (List.zipWith (fun p d => (p.1, p.2.write d)) configTypes ds).filter (!isSkipped ·)
  | _ => []

theorem plain_guest : guestEntries.all (fun e => isPlain e.2) = true := by
  decide +kernel

/-- The guest's row, as text. -/
def guestRow : SpaceRow :=
  ⟨uuidText 2, "home".toList, [],
    some (JsonText.compact.print (.obj (insertEntries guestEntries [])))⟩

theorem parse_guest : JsonText.compact.parse (JsonText.compact.print
    (.obj (insertEntries guestEntries []))) = some (.obj (insertEntries guestEntries [])) := by
  apply JsonText.compact.parse_print
  refine Json.valid_record fun e he => ?_
  exact valid_of_isPlain (List.all_eq_true.1 plain_guest e he)

def guest : Db := ⟨[], ⟨[guestRow], List.nodup_singleton _⟩, ⟨[], List.nodup_nil⟩⟩

theorem member_gets_apps_films : ∃ appLink added,
    (handleScanResult fooCrates [] quietEnv guest appLink).2 =
        .imported ⟨uuidText 2, "home".toList, added⟩ ∧
      Adds (uuidText 2) [content films] guest
        (handleScanResult fooCrates [] quietEnv guest appLink).1 added := by
  have hinvited : ∃ link, SpaceInvite.generateShareLink fooCrates [] sevens .compact []
      SpaceInvite.inviter 1 (.ok none) none = some (.ok link) :=
    SpaceInvite.exists_link SpaceInvite.found_home SpaceInvite.effective_home SpaceInvite.fits_home
  have hshared : ∃ appLink, generateAddAppLink fooCrates [] sevens quietEnv.J [] []
      SpaceInvite.inviter sharer (uuidText 1) (.ok none) ["films".toList] (.ok []) [] =
        some (.ok appLink) :=
    exists_addAppLink (parseUuid_uuidText 1) SpaceInvite.found_home SpaceInvite.effective_home
      films_selected [] []
  rcases hinvited with ⟨link, h⟩
  rcases hshared with ⟨appLink, hshare⟩
  have haccept := SpaceInvite.acceptInvitation_link SpaceInvite.once_compact
    SpaceInvite.found_home SpaceInvite.effective_home h networkText [] emptyManager []
    (grantedIo 2 "guest".toList)
  have hgets := member_gets_apps fooCrates [] sevens (E := quietEnv) SpaceInvite.once_compact
    SpaceInvite.found_home SpaceInvite.effective_home none link h networkText [] []
    emptyManager _ (grantedIo 2 "guest".toList) _ haccept (parseUuid_uuidText 1)
    ["films".toList] [] [] appLink hshare guest guestRow ⟨rfl, rfl, _, rfl, parse_guest⟩
    (List.mem_singleton.2 rfl) fun r hr _ => List.mem_singleton.1 hr
  exact ⟨appLink, hgets.1 ⟨rfl, rfl⟩⟩

end Sharing

end HomeTier.AppImports
