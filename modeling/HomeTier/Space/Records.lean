import Mathlib.Data.Nat.Digits.Lemmas
import HomeTier.Lib.Decimal
import HomeTier.EasyTier.Manager
import HomeTier.EasyTier.PatchRules

/-! # Space records

`create`, `join`, `delete` and `list` of `src-tauri/src/space/manager.rs` over
the tables `spaces` and `members` of `db/mod.rs` and `db/migrations.rs`. What
the database answers is an input: a statement that fails changes nothing. The
id of a row in `spaces` stands for its text, and the column `config_json` for
the JSON in it, which is read and written as `EasyTier/ConfigJson` says.

Both `create` and `join` store a configuration with a fixed address. Where none
is given, it is computed from the id that was drawn for the space on this node.
-/

namespace HomeTier

open Lib ConfigJson

/-! ## Fields of a configuration -/

namespace ConfigJson

/-- A field of a configuration. -/
def getField (name : Str) : ConfigData → Option ConfigData
  | .record ds => (configNames.zip ds).lookup name
  | _ => none

theorem lookup_zip_zipWith {α : Type} (n m : Str) (f : α → α) (names : List Str) (ds : List α) :
    (names.zip (List.zipWith (fun k d => if k = m then f d else d) names ds)).lookup n =
      if n = m then ((names.zip ds).lookup n).map f else (names.zip ds).lookup n := by
  induction names generalizing ds with
  | nil => simp
  | cons k names ih =>
    cases ds with
    | nil => simp
    | cons d ds =>
      rw [List.zipWith_cons_cons, List.zip_cons_cons, List.zip_cons_cons]
      by_cases hk : n = k
      · subst hk
        by_cases hm : n = m <;> simp [hm]
      · have hne : (n == k) = false := by simpa using hk
        rw [List.lookup_cons, List.lookup_cons, hne]
        exact ih ds

theorem getField_modifyField (n m : Str) (f : ConfigData → ConfigData) (cfg : ConfigData) :
    getField n (modifyField m f cfg) =
      if n = m then (getField n cfg).map f else getField n cfg := by
  cases cfg with
  | record ds => exact lookup_zip_zipWith n m f configNames ds
  | _ =>
    show none = _
    split <;> rfl

/-- A configuration whose fields have their types. -/
def IsConfig (cfg : ConfigData) : Prop := ∃ ds, cfg = .record ds ∧ WellTyped ds

theorem isConfig_default (fresh : Str) : IsConfig (defaultConfig fresh) :=
  ⟨_, rfl, wellTyped_default fresh⟩

theorem IsConfig.readConfig_writeConfig {cfg : ConfigData} (h : IsConfig cfg) (fresh : Str) :
    readConfig fresh (writeConfig cfg) = some cfg := by
  rcases h with ⟨ds, rfl, hds⟩
  exact ConfigJson.readConfig_writeConfig hds fresh

/-- A field may be changed to a value of its type. -/
theorem IsConfig.modifyField {cfg : ConfigData} (h : IsConfig cfg) {name : Str} {t : FieldType}
    (ht : configTypes.lookup name = some t) {f : ConfigData → ConfigData}
    (hf : ∀ d, t.read (t.write d) = some d → t.read (t.write (f d)) = some (f d)) :
    IsConfig (modifyField name f cfg) := by
  rcases h with ⟨ds, rfl, hds⟩
  refine ⟨List.zipWith (fun p d => if p.1 = name then f d else d) configTypes ds, ?_, ?_⟩
  · have hnames : configNames = configTypes.map (·.1) := rfl
    rw [ConfigJson.modifyField, hnames, List.zipWith_map_left]
  · have hnodup : (configTypes.map (·.1)).Nodup := nodup_configNames []
    refine forall₂_zipWith hds ?_
    intro p hp d hd
    by_cases hname : p.1 = name
    · have hlookup := lookup_of_mem hnodup hp
      rw [hname, ht] at hlookup
      rw [if_pos hname, ← Option.some.inj hlookup]
      exact hf d (Option.some.inj hlookup ▸ hd)
    · rw [if_neg hname]
      exact hd

end ConfigJson

/-! ## Addresses -/

/-- `as_bytes`, the first byte being the highest. -/
def uuidBytes (id : Uuid) : List UInt8 :=
  (List.range 16).map fun i => UInt8.ofNat (id.toNat / 256 ^ (15 - i))

/-- The loop of `canonical_virtual_ipv4`. -/
def uuidHash (id : Uuid) : UInt64 :=
  (uuidBytes id).foldl (fun h b => h * 31 + b.toUInt64) 0

def canonicalVirtualIpv4 (id : Uuid) : Str :=
  let host := (uuidHash id % 250).toUInt32 + 2
  "10.144.144.".toList ++ decimal host.toNat

namespace SpaceRecords

/-! ## Tables -/

structure SpaceRow where
  id : Uuid
  name : Str
  ownerId : Option Str
  networkName : Str
  networkSecret : Str
  description : Option Str
  createdAt : Str
  isAutoConnect : Bool
  configJson : Option Json

structure MemberRow where
  id : Str
  spaceId : Uuid
  nickname : Str
  isOwner : Bool
  joinedAt : Str
deriving DecidableEq

structure Db where
  spaces : List SpaceRow
  members : List MemberRow

def Db.hasSpace (db : Db) (id : Uuid) : Bool := db.spaces.any (·.id = id)

/-- `INSERT INTO spaces` -/
def insertSpace (db : Db) (row : SpaceRow) : Except Str Unit → Except Str Db
  | .error e => .error ("Insert space error: ".toList ++ e)
  | .ok () =>
    if db.hasSpace row.id then
      .error "Insert space error: UNIQUE constraint failed: spaces.id".toList
    else .ok { db with spaces := db.spaces ++ [row] }

/-- `UPDATE spaces SET config_json` -/
def updateSpaceConfig (db : Db) (id : Uuid) (configJson : Json) : Except Str Unit → Except Str Db
  | .error e => .error ("Update config error: ".toList ++ e)
  | .ok () =>
    .ok { db with
      spaces := db.spaces.map fun row =>
        if row.id = id then { row with configJson := some configJson } else row }

section Tables

-- Whether the connection enforces foreign keys.
variable (foreignKeys : Bool)

/-- `INSERT OR IGNORE INTO members`: the key is the id of the member alone. -/
def addMember (db : Db) (row : MemberRow) : Except Str Unit → Except Str Db
  | .error e => .error ("Add member error: ".toList ++ e)
  | .ok () =>
    if db.members.any (·.id = row.id) then .ok db
    else if foreignKeys && !db.hasSpace row.spaceId then
      .error "Add member error: FOREIGN KEY constraint failed".toList
    else .ok { db with members := db.members ++ [row] }

/-- `delete_space`: the second statement may fail after the first. -/
def deleteSpace (db : Db) (id : Uuid) (spaceDeleted membersDeleted : Except Str Unit) :
    Except Str Unit × Db :=
  match spaceDeleted with
  | .error e => (.error ("Delete space error: ".toList ++ e), db)
  | .ok () =>
    let rest := db.members.filter (·.spaceId ≠ id)
    let db : Db :=
      { spaces := db.spaces.filter (·.id ≠ id), members := if foreignKeys then rest else db.members }
    match membersDeleted with
    | .error e => (.error ("Delete members error: ".toList ++ e), db)
    | .ok () => (.ok (), { db with members := rest })

/-! ## Configurations -/

-- `Ipv4Inet::from_str`, then `network().to_string()`.
variable (networkOf : Str → Option Str)

def textField (name : String) (cfg : ConfigData) : Str :=
  match getField name.toList cfg with
  | some (.str s) => s
  | _ => []

def textOf : ConfigData → Str
  | .str s => s
  | _ => []

/-- One entry: blank texts and those seen before are dropped. -/
def keepFirst (acc : List Str × List ConfigData) (d : ConfigData) : List Str × List ConfigData :=
  let t := trim (textOf d)
  if t = [] ∨ acc.1.contains t then acc else (t :: acc.1, acc.2 ++ [d])

/-- The first of each text, trimmed, that is not blank. -/
def firstTexts (ds : List ConfigData) : List ConfigData := (ds.foldl keepFirst ([], [])).2

/-- The network of the own address. -/
def ownCidr (cfg : ConfigData) : Option Str :=
  let virtualIpv4 := textField "virtual_ipv4" cfg
  match getField "network_length".toList cfg with
  | some (.int len) =>
    if virtualIpv4 ≠ [] ∧ 0 < len ∧ len ≤ 32 then networkOf (virtualIpv4 ++ '/' :: decimalInt len)
    else none
  | _ => none

/-- The own network comes first. -/
def withOwn : Option Str → ConfigData → ConfigData
  | none, .list ds => .list (firstTexts ds)
  | some own, .list ds =>
    .list (.str own :: (firstTexts ds).filter fun d => trim (textOf d) ≠ own)
  | _, d => d

/-- `dedupe_proxy_cidrs` -/
def dedupeProxyCidrs (cfg : ConfigData) : ConfigData :=
  modifyField "proxy_cidrs".toList (withOwn (ownCidr networkOf cfg)) cfg

def setText (name : String) (s : Str) : ConfigData → ConfigData :=
  modifyField name.toList fun _ => .str s

/-- The configuration that `create` stores. -/
def createConfig (fresh : Str) (userConfig : Option Json) (id : Uuid)
    (networkName networkSecret : Str) : ConfigData :=
  let config := (userConfig.bind (readConfig fresh)).getD (defaultConfig fresh)
  let config := setText "network_secret" networkSecret (setText "network_name" networkName config)
  let config := modifyField "dhcp".toList (fun _ => .bool false) config
  dedupeProxyCidrs networkOf (setText "virtual_ipv4" (canonicalVirtualIpv4 id) config)

/-- The configuration that `join` stores. -/
def joinConfig (id : Uuid) (config : ConfigData) : ConfigData :=
  let config := modifyField "dhcp".toList (fun _ => .bool false) config
  let config :=
    if textField "virtual_ipv4" config = [] then
      setText "virtual_ipv4" (canonicalVirtualIpv4 id) config
    else config
  dedupeProxyCidrs networkOf config

/-! ## Operations -/

/-- The database, and the list of spaces in memory. -/
structure Manager where
  db : Db
  spaces : List SpaceRow

/-- What `create` and `join` draw and are answered. -/
structure RecordIo where
  id : Uuid
  /-- The id that the default configuration draws. -/
  fresh : Str
  createdAt : Str
  joinedAt : Str
  userId : Except Str (Option Str)
  spaceInserted : Except Str Unit
  memberAdded : Except Str Unit
  /-- The JSON of `users.config_json`, if there is any. -/
  userConfig : Except Str (Option Json)
  configUpdated : Except Str Unit

def localUser : Str := "local-user".toList

/-- The user that a space is created for. -/
def RecordIo.creator (io : RecordIo) : Str :=
  match io.userId with
  | .error _ => localUser
  | .ok userId => userId.getD localUser

/-- A user's call in which everything goes through. -/
def grantedIo (id : Uuid) (user : Str) : RecordIo where
  id := id
  fresh := []
  createdAt := []
  joinedAt := []
  userId := .ok (some user)
  spaceInserted := .ok ()
  memberAdded := .ok ()
  userConfig := .ok none
  configUpdated := .ok ()

/-- The row that is inserted first, without a configuration. -/
def newRow (io : RecordIo) (owner name networkName networkSecret : Str)
    (description : Option Str) : SpaceRow where
  id := io.id
  name := name
  ownerId := some owner
  networkName := networkName
  networkSecret := networkSecret
  description := description
  createdAt := io.createdAt
  isAutoConnect := false
  configJson := none

/-- The last part of `create` and `join`. -/
def storeConfig (m : Manager) (db : Db) (io : RecordIo) (row : SpaceRow) (config : ConfigData) :
    Except Str SpaceRow × Manager :=
  match updateSpaceConfig db row.id (writeConfig config) io.configUpdated with
  | .error e => (.error e, { m with db := db })
  | .ok db =>
    let space := { row with configJson := some (writeConfig config) }
    (.ok space, { m with db := db, spaces := m.spaces ++ [space] })

/-- The row of the creator. -/
def ownerRow (io : RecordIo) (owner name : Str) : MemberRow := ⟨owner, io.id, name, true, io.joinedAt⟩

/-- `create`; `relayPrefix` is the configured prefix of network names. -/
def create (m : Manager) (relayPrefix name networkSecret : Str) (description : Option Str)
    (io : RecordIo) : Except Str SpaceRow × Manager :=
  match io.userId with
  | .error e => (.error e, m)
  | .ok userId =>
    let owner := userId.getD localUser
    let row := newRow io owner name (relayPrefix ++ name) networkSecret description
    match insertSpace m.db row io.spaceInserted with
    | .error e => (.error e, m)
    | .ok db =>
      match addMember foreignKeys db (ownerRow io owner name) io.memberAdded with
      | .error e => (.error e, { m with db := db })
      | .ok db =>
        match io.userConfig with
        | .error e => (.error e, { m with db := db })
        | .ok userConfig =>
          storeConfig m db io row
            (createConfig networkOf io.fresh userConfig io.id row.networkName networkSecret)

/-- `join` -/
def join (m : Manager) (config : ConfigData) (name : Option Str) (io : RecordIo) :
    Except Str SpaceRow × Manager :=
  let networkName := textField "network_name" config
  match io.userId with
  | .error e => (.error e, m)
  | .ok userId =>
    let row := newRow io (userId.getD localUser) (name.getD networkName) networkName
      (textField "network_secret" config) none
    match insertSpace m.db row io.spaceInserted with
    | .error e => (.error e, m)
    | .ok db => storeConfig m db io row (joinConfig networkOf io.id config)

/-- What `delete` is answered; `left` is the result of `leave`. -/
structure DeleteIo where
  userId : Except Str (Option Str)
  left : Except Str Unit
  spaceDeleted : Except Str Unit
  membersDeleted : Except Str Unit

/-- `delete` -/
def delete (m : Manager) (id : Uuid) (io : DeleteIo) : Except Str Unit × Manager :=
  match io.userId with
  | .error e => (.error e, m)
  | .ok userId =>
    match m.spaces.find? (·.id = id) with
    | none => (.error "Space not found".toList, m)
    | some space =>
      if space.ownerId ≠ some (userId.getD []) then
        (.error "只有空间所有者才能删除空间".toList, m)
      else
        match io.left with
        | .error e => (.error e, m)
        | .ok () =>
          match deleteSpace foreignKeys m.db id io.spaceDeleted io.membersDeleted with
          | (.error e, db) => (.error e, { m with db := db })
          | (.ok (), db) =>
            (.ok (), { m with db := db, spaces := m.spaces.filter (·.id ≠ id) })

/-- `list`: the rows take the place of the spaces in memory. -/
def list (m : Manager) : Except Str Unit → Manager
  | .error _ => m
  | .ok () => { m with spaces := m.db.spaces }

/-! ## What the operations do to the tables -/

variable {foreignKeys networkOf}

/-- The spaces of the table are the same, one apart. -/
def SameSpaces (id : Uuid) (db db' : Db) : Prop := ∀ other ≠ id, db'.hasSpace other = db.hasSpace other

theorem insertSpace_ok {db db' : Db} {row : SpaceRow} {r : Except Str Unit}
    (h : insertSpace db row r = .ok db') :
    SameSpaces row.id db db' ∧ db'.hasSpace row.id = true ∧ db'.members = db.members := by
  cases r with
  | error e => cases h
  | ok _ =>
    rw [insertSpace] at h
    split at h
    · cases h
    · obtain rfl := Except.ok.inj h
      refine ⟨?_, by simp [Db.hasSpace], rfl⟩
      intro other hother
      simp [Db.hasSpace, hother.symm]

theorem addMember_ok {db db' : Db} {row : MemberRow} {r : Except Str Unit}
    (h : addMember foreignKeys db row r = .ok db') :
    db'.spaces = db.spaces ∧
      db'.members = if db.members.any (·.id = row.id) then db.members else db.members ++ [row] := by
  cases r with
  | error e => cases h
  | ok _ =>
    rw [addMember] at h
    by_cases hkey : db.members.any (·.id = row.id) = true
    · rw [if_pos hkey] at h
      obtain rfl := Except.ok.inj h
      exact ⟨rfl, (if_pos hkey).symm⟩
    · rw [if_neg hkey] at h
      rw [if_neg hkey]
      split at h
      · cases h
      · obtain rfl := Except.ok.inj h
        exact ⟨rfl, rfl⟩

theorem updateSpaceConfig_ok {db db' : Db} {id : Uuid} {configJson : Json} {r : Except Str Unit}
    (h : updateSpaceConfig db id configJson r = .ok db') :
    (∀ other, db'.hasSpace other = db.hasSpace other) ∧ db'.members = db.members := by
  cases r with
  | error e => cases h
  | ok _ =>
    obtain rfl := Except.ok.inj h
    refine ⟨?_, rfl⟩
    intro other
    rw [Db.hasSpace, Db.hasSpace, List.any_map]
    congr 1
    funext row
    show decide ((if row.id = id then { row with configJson := some configJson } else row).id =
      other) = _
    split <;> rfl

theorem storeConfig_db (m : Manager) (db : Db) (io : RecordIo) (row : SpaceRow)
    (config : ConfigData) :
    (∀ other, (storeConfig m db io row config).2.db.hasSpace other = db.hasSpace other) ∧
      (storeConfig m db io row config).2.db.members = db.members := by
  unfold storeConfig
  cases hupdate : updateSpaceConfig db row.id (writeConfig config) io.configUpdated with
  | error e => exact ⟨fun _ => rfl, rfl⟩
  | ok db' => exact updateSpaceConfig_ok hupdate

variable (foreignKeys networkOf) in
/-- `create` adds at most its two rows; where it succeeds, the member row is
left out exactly if the user has one already. -/
theorem create_db (m : Manager) (relayPrefix name networkSecret : Str) (description : Option Str)
    (io : RecordIo) :
    let result := create foreignKeys networkOf m relayPrefix name networkSecret description io
    SameSpaces io.id m.db result.2.db ∧
      (result.2.db.members = m.db.members ∨
        result.2.db.members = m.db.members ++ [ownerRow io io.creator name]) ∧
      ∀ space, result.1 = .ok space → result.2.db.hasSpace io.id = true ∧
        result.2.db.members =
          if m.db.members.any (·.id = io.creator) then m.db.members
          else m.db.members ++ [ownerRow io io.creator name] := by
  unfold create RecordIo.creator
  cases io.userId with
  | error e => exact ⟨fun _ _ => rfl, .inl rfl, fun _ h => nomatch h⟩
  | ok userId =>
    simp only
    generalize hrow : newRow io (userId.getD localUser) name (relayPrefix ++ name) networkSecret
      description = row
    have hid : row.id = io.id := by rw [← hrow]; rfl
    generalize hmember : ownerRow io (userId.getD localUser) name = member
    have hkey : member.id = userId.getD localUser := by rw [← hmember]; rfl
    cases hinsert : insertSpace m.db row io.spaceInserted with
    | error e => exact ⟨fun _ _ => rfl, .inl rfl, fun _ h => nomatch h⟩
    | ok db =>
      -- the row is in; what fails from here on leaves it there
      rcases insertSpace_ok hinsert with ⟨hsame, hhas, hmembers⟩
      rw [hid] at hsame hhas
      simp only
      cases hadd : addMember foreignKeys db member io.memberAdded with
      | error e => exact ⟨hsame, .inl hmembers, fun _ h => nomatch h⟩
      | ok db' =>
        rcases addMember_ok hadd with ⟨hspaces, hmembers'⟩
        rw [hmembers, hkey] at hmembers'
        have hhas' : ∀ other, db'.hasSpace other = db.hasSpace other := by
          intro other
          rw [Db.hasSpace, Db.hasSpace, hspaces]
        have hsame' : SameSpaces io.id m.db db' :=
          fun other hother => (hhas' other).trans (hsame other hother)
        have hor : db'.members = m.db.members ∨ db'.members = m.db.members ++ [member] := by
          rw [hmembers']
          split
          · exact .inl rfl
          · exact .inr rfl
        simp only
        cases io.userConfig with
        | error e => exact ⟨hsame', hor, fun _ h => nomatch h⟩
        | ok userConfig =>
          simp only
          -- the configuration changes neither the spaces nor the members
          rcases storeConfig_db m db' io row (createConfig networkOf io.fresh userConfig io.id
            row.networkName networkSecret) with ⟨hstored, hkept⟩
          refine ⟨?_, ?_, ?_⟩
          · intro other hother
            exact (hstored other).trans (hsame' other hother)
          · rw [hkept]
            exact hor
          · intro space _
            rw [hkept]
            exact ⟨(hstored io.id).trans ((hhas' io.id).trans hhas), hmembers'⟩

variable (networkOf) in
/-- `join` adds no member. -/
theorem join_db (m : Manager) (config : ConfigData) (name : Option Str) (io : RecordIo) :
    SameSpaces io.id m.db (join networkOf m config name io).2.db ∧
      (join networkOf m config name io).2.db.members = m.db.members := by
  unfold join
  cases io.userId with
  | error e => exact ⟨fun _ _ => rfl, rfl⟩
  | ok userId =>
    simp only
    generalize hrow : newRow io (userId.getD localUser)
      (name.getD (textField "network_name" config)) (textField "network_name" config)
      (textField "network_secret" config) none = row
    have hid : row.id = io.id := by rw [← hrow]; rfl
    cases hinsert : insertSpace m.db row io.spaceInserted with
    | error e => exact ⟨fun _ _ => rfl, rfl⟩
    | ok db =>
      rcases insertSpace_ok hinsert with ⟨hsame, -, hmembers⟩
      rw [hid] at hsame
      rcases storeConfig_db m db io row (joinConfig networkOf io.id config) with ⟨hstored, hkept⟩
      exact ⟨fun other hother => (hstored other).trans (hsame other hother), hkept.trans hmembers⟩

variable (foreignKeys) in
/-- `delete` changes nothing, or removes the row of the space and then at most
the members of the space. -/
theorem delete_db (m : Manager) (id : Uuid) (io : DeleteIo) :
    (delete foreignKeys m id io).2.db = m.db ∨
      ((delete foreignKeys m id io).2.db.hasSpace id = false ∧
        SameSpaces id m.db (delete foreignKeys m id io).2.db ∧
        ((delete foreignKeys m id io).2.db.members = m.db.members ∨
          (delete foreignKeys m id io).2.db.members = m.db.members.filter (·.spaceId ≠ id))) := by
  -- what the two statements of deleteSpace leave
  have hdelete : ∀ db : Db, (deleteSpace foreignKeys db id io.spaceDeleted io.membersDeleted).2 = db ∨
      ((deleteSpace foreignKeys db id io.spaceDeleted io.membersDeleted).2.hasSpace id = false ∧
        SameSpaces id db (deleteSpace foreignKeys db id io.spaceDeleted io.membersDeleted).2 ∧
        ((deleteSpace foreignKeys db id io.spaceDeleted io.membersDeleted).2.members = db.members ∨
          (deleteSpace foreignKeys db id io.spaceDeleted io.membersDeleted).2.members =
            db.members.filter (·.spaceId ≠ id))) := by
    intro db
    have hgone : (db.spaces.filter (·.id ≠ id)).any (·.id = id) = false := by simp
    have hsame : ∀ other ≠ id,
        (db.spaces.filter (·.id ≠ id)).any (·.id = other) = db.spaces.any (·.id = other) := by
      intro other hother
      rw [List.any_filter]
      congr 1
      funext row
      by_cases hrow : row.id = other
      · simp [hrow, hother]
      · simp [hrow]
    unfold deleteSpace
    cases io.spaceDeleted with
    | error e => exact .inl rfl
    | ok _ =>
      right
      cases io.membersDeleted with
      | error e =>
        refine ⟨hgone, hsame, ?_⟩
        cases foreignKeys
        · -- without foreign keys the members stay behind
          exact .inl rfl
        · exact .inr rfl
      | ok _ => exact ⟨hgone, hsame, .inr rfl⟩
  unfold delete
  cases io.userId with
  | error e => exact .inl rfl
  | ok userId =>
    simp only
    cases m.spaces.find? (·.id = id) with
    | none => exact .inl rfl
    | some space =>
      simp only
      split
      · exact .inl rfl
      · cases io.left with
        | error e => exact .inl rfl
        | ok _ =>
          have h := hdelete m.db
          simp only
          rcases hresult : deleteSpace foreignKeys m.db id io.spaceDeleted io.membersDeleted with
            ⟨e | _, db⟩
          · rw [hresult] at h
            exact h
          · rw [hresult] at h
            exact h

end Tables

end SpaceRecords

end HomeTier
