import Mathlib.Data.List.Sort
import HomeTier.Lib.Distinct
import HomeTier.Lib.JsonText
import HomeTier.Lib.Uuid
import HomeTier.Server.SpaceRows
import HomeTier.Space.Records

/-! # Importing shared apps

`import_add_apps` of `src/commands/app.rs`: the spaces are searched for the first one that
the link fits, and those apps are inserted whose names are not there.

* The search goes over other spaces, except over one with the same name and an unreadable
  configuration, where it gives up.
* What is inserted belongs to the id of the space in its usual notation, and there is a
  foreign key.
* The import does what it should exactly if neither comes up (`imports_iff`).
-/

namespace HomeTier.AppImports

open Lib ConfigJson SpaceRows SpaceRecords

/-! ## Payloads and tables -/

structure AppImport where
  name : Str
  category : Option Str
  icon : Option Str
  protocol : Option Str
  hostname : Option Str
  port : Option Str
  pathname : Option Str
deriving DecidableEq

structure PeerTarget where
  peerId : UInt32
  virtualIp : Option Str
deriving DecidableEq

structure AddAppPayload where
  name : Str
  networkName : Str
  apps : List AppImport
  targetPeers : List PeerTarget

/-- The columns of `spaces` that are read. -/
structure SpaceRow where
  id : Str
  name : Str
  createdAt : Str
  configJson : Option Str
deriving DecidableEq

structure Db where
  users : List Str
  spaces : Rows SpaceRow.id
  apps : Rows AppRow.id

structure ImportAddAppsResult where
  spaceId : Str
  spaceName : Str
  imported : Nat
deriving DecidableEq

/-- What else the command asks: the configurations, the peers that are online in a space,
an id that no row has, and the time. -/
structure Env where
  J : JsonText
  freshInstance : Str
  getPeers : Uuid → Except Str (List UInt32)
  newV4 : List Str → Str
  newV4_fresh : ∀ used, newV4 used ∉ used
  now : List AppRow → Str

/-! ## Statements -/

namespace Db

variable (db : Db)

def listSpaces : List SpaceRow := db.spaces.rows.insertionSort fun a b => b.createdAt ≤ a.createdAt

def listApps (spaceId : Str) : List AppRow :=
  (rowsOf AppRow.spaceId spaceId db.apps.rows).insertionSort fun a b =>
    a.sortOrder < b.sortOrder ∨ (a.sortOrder = b.sortOrder ∧ a.createdAt ≤ b.createdAt)

def getUserId : Option Str := db.users.head?

def hasSpace (id : Str) : Prop := id ∈ db.spaces.rows.map (·.id)

instance (id : Str) : Decidable (db.hasSpace id) := inferInstanceAs (Decidable (_ ∈ _))

def insertApp (app : AppRow) : Except Str Db :=
  if h : app.id ∉ db.apps.rows.map (·.id) then
    if db.hasSpace app.spaceId then .ok { db with apps := db.apps.insert app h }
    else .error "Insert app error: FOREIGN KEY constraint failed".toList
  else .error "Insert app error: UNIQUE constraint failed: space_apps.id".toList

end Db

section Importing

variable (E : Env)

/-! ## The command -/

/-- The network name of a configuration text; `none` where `from_config_json` gives an
error, or panics over its text. -/
def networkNameOf (configJson : Str) : Option Str :=
  match fromConfigJson E.J E.freshInstance configJson with
  | .ok config => some (textField "network_name" config)
  | _ => none

def unreadable : Str := "config_json 解析失败".toList

def notFound (payload : AddAppPayload) : Str :=
  "未找到匹配空间：name=".toList ++ payload.name ++ ", network_name=".toList ++ payload.networkName

/-- `all_targets_present` -/
def allTargetsPresent (payload : AddAppPayload) (spaceId : Uuid) : Bool :=
  let currentPeers := (E.getPeers spaceId).toOption.getD []
  payload.targetPeers.all fun tp => currentPeers.contains tp.peerId

/-- The loop over the spaces. -/
def matchSpace (payload : AddAppPayload) : List SpaceRow → Except Str (Option (Uuid × Str))
  | [] => .ok none
  | row :: rows =>
    if row.name ≠ payload.name then matchSpace payload rows
    else
      match row.configJson with
      | none => matchSpace payload rows
      | some configJson =>
        match networkNameOf E configJson with
        | none => .error unreadable
        | some networkName =>
          if networkName ≠ payload.networkName then matchSpace payload rows
          else
            match parseUuid row.id with
            | none => matchSpace payload rows
            | some spaceId =>
              if allTargetsPresent E payload spaceId then .ok (some (spaceId, row.name))
              else matchSpace payload rows

def newApp (db : Db) (spaceId : Str) (app : AppImport) : AppRow where
  id := E.newV4 (db.apps.rows.map (·.id))
  spaceId := spaceId
  name := app.name
  category := app.category
  icon := app.icon
  protocol := app.protocol.or (some "http:".toList)
  hostname := app.hostname
  port := app.port
  pathname := app.pathname
  sortOrder := 0
  createdBy := db.getUserId.getD []
  createdAt := E.now db.apps.rows

/-- The loop over the apps. -/
def importApps (spaceId : Str) : Db → Nat → List AppImport → Db × Nat
  | db, imported, [] => (db, imported)
  | db, imported, app :: apps =>
    if (db.listApps spaceId).any fun a => a.name = app.name then importApps spaceId db imported apps
    else
      match db.insertApp (newApp E db spaceId app) with
      | .ok db' => importApps spaceId db' (imported + 1) apps
      | .error _ => importApps spaceId db imported apps

/-- `import_add_apps`; `decoded` is what base64 and JSON give. -/
def importAddApps (db : Db) (decoded : Except Str AddAppPayload) :
    Db × Except Str ImportAddAppsResult :=
  match decoded with
  | .error e => (db, .error e)
  | .ok payload =>
    match matchSpace E payload db.listSpaces with
    | .error e => (db, .error e)
    | .ok none => (db, .error (notFound payload))
    | .ok (some (spaceId, spaceName)) =>
      let (db', imported) := importApps E (uuidText spaceId) db 0 payload.apps
      (db', .ok ⟨uuidText spaceId, spaceName, imported⟩)

/-! ## What is expected -/

/-- The name, the network name and the peers fit. -/
def Matches (payload : AddAppPayload) (row : SpaceRow) : Prop :=
  row.name = payload.name ∧ row.configJson.bind (networkNameOf E) = some payload.networkName ∧
    ∃ spaceId ∈ parseUuid row.id, allTargetsPresent E payload spaceId = true

instance (payload : AddAppPayload) : DecidablePred (Matches E payload) :=
  fun _ => inferInstanceAs (Decidable (_ ∧ _ ∧ _))

/-- The first app of each name that a space does not have. -/
def missing (db : Db) (spaceId : Str) (apps : List AppImport) : List AppImport :=
  distinctFrom AppImport.name (· ∈ (db.listApps spaceId).map (·.name)) [] apps

/-- What is kept of an app. -/
def AppImport.stored (app : AppImport) : AppImport :=
  { app with protocol := app.protocol.or (some "http:".toList) }

/-- What a row says of its app. -/
def content (row : AppRow) : AppImport :=
  ⟨row.name, row.category, row.icon, row.protocol, row.hostname, row.port, row.pathname⟩

/-- From one state to the next a space gets the apps that it does not have, and nothing else
changes. -/
def Adds (spaceId : Str) (apps : List AppImport) (db db' : Db) (imported : Nat) : Prop :=
  db'.users = db.users ∧ db'.spaces = db.spaces ∧ ∃ new : List AppRow,
    db'.apps.rows = db.apps.rows ++ new ∧ (∀ row ∈ new, row.spaceId = spaceId) ∧
      new.map content = (missing db spaceId apps).map AppImport.stored ∧ imported = new.length

/-- The first space that fits gets the apps, and once more nothing; if none fits, there is an
error and nothing changes. -/
def Imports (db : Db) (payload : AddAppPayload) : Prop :=
  match db.listSpaces.find? (Matches E payload) with
  | none => (importAddApps E db (.ok payload)).1 = db ∧
      ∃ e, (importAddApps E db (.ok payload)).2 = .error e
  | some space =>
    (∃ result, (importAddApps E db (.ok payload)).2 = .ok result ∧
      Adds space.id payload.apps db (importAddApps E db (.ok payload)).1 result.imported) ∧
    (importAddApps E (importAddApps E db (.ok payload)).1 (.ok payload)).1.apps =
      (importAddApps E db (.ok payload)).1.apps

/-- No space before the one that fits has the name and an unreadable configuration, and the
id of the one that fits is in the usual notation, or there is nothing to add. -/
def Importable (db : Db) (payload : AddAppPayload) : Prop :=
  ∀ space ∈ db.listSpaces.find? (Matches E payload),
    (∀ row ∈ db.listSpaces.takeWhile (¬ Matches E payload ·), row.name = payload.name →
      ∀ text ∈ row.configJson, networkNameOf E text ≠ none) ∧
    ∀ spaceId ∈ parseUuid space.id, uuidText spaceId = space.id ∨
      (missing db space.id payload.apps = [] ∧
        (¬ db.hasSpace (uuidText spaceId) ∨ missing db (uuidText spaceId) payload.apps = []))

/-! ## The search -/

variable {E}

/-- The search gives up at such a row. -/
def Unreadable (E : Env) (payload : AddAppPayload) (row : SpaceRow) : Prop :=
  row.name = payload.name ∧ ∃ text ∈ row.configJson, networkNameOf E text = none

variable {payload : AddAppPayload}

theorem matchSpace_of_matches {row : SpaceRow}
    (h : Matches E payload row) {spaceId : Uuid} (hid : parseUuid row.id = some spaceId)
    (rows : List SpaceRow) :
    matchSpace E payload (row :: rows) = .ok (some (spaceId, row.name)) := by
  obtain ⟨hname, hnetwork, spaceId', hid', htargets⟩ := h
  obtain rfl : spaceId' = spaceId := Option.some.inj (hid'.symm.trans hid)
  obtain ⟨text, htext, hread⟩ := Option.bind_eq_some_iff.1 hnetwork
  simp [matchSpace, hname, htext, hread, hid, htargets]

theorem matchSpace_of_unreadable {row : SpaceRow}
    (h : Unreadable E payload row) (rows : List SpaceRow) :
    matchSpace E payload (row :: rows) = .error unreadable := by
  obtain ⟨hname, text, htext, hread⟩ := h
  rw [Option.mem_def] at htext
  simp [matchSpace, hname, htext, hread]

theorem matchSpace_of_neither {row : SpaceRow}
    (h : ¬ Matches E payload row) (h' : ¬ Unreadable E payload row) (rows : List SpaceRow) :
    matchSpace E payload (row :: rows) = matchSpace E payload rows := by
  rw [matchSpace]
  split
  · rfl
  rename_i hname
  rw [not_not] at hname
  split
  · rfl
  rename_i text htext
  split
  · rename_i hread
    exact absurd ⟨hname, text, htext, hread⟩ h'
  rename_i network hread
  split
  · rfl
  rename_i hnetwork
  rw [not_not] at hnetwork
  split
  · rfl
  rename_i spaceId hid
  split
  · rename_i htargets
    refine absurd ⟨hname, ?_, spaceId, hid, htargets⟩ h
    rw [htext, Option.bind_some, hread, hnetwork]
  · rfl

theorem matchSpace_of_none {rows : List SpaceRow} (h : rows.find? (Matches E payload ·) = none) :
    matchSpace E payload rows = .ok none ∨ matchSpace E payload rows = .error unreadable := by
  induction rows with
  | nil => exact .inl rfl
  | cons row rows ih =>
    have hnot : ¬ Matches E payload row := by simpa using List.find?_eq_none.1 h row (by simp)
    rw [List.find?_cons_of_neg (by simpa using hnot)] at h
    by_cases hstop : Unreadable E payload row
    · exact .inr (matchSpace_of_unreadable hstop rows)
    · rw [matchSpace_of_neither hnot hstop]
      exact ih h

theorem matchSpace_of_some {rows : List SpaceRow} {space : SpaceRow}
    (h : rows.find? (Matches E payload ·) = some space) {spaceId : Uuid}
    (hid : parseUuid space.id = some spaceId) :
    ((∀ row ∈ rows.takeWhile (¬ Matches E payload ·), ¬ Unreadable E payload row) ∧
      matchSpace E payload rows = .ok (some (spaceId, space.name))) ∨
    ((∃ row ∈ rows.takeWhile (¬ Matches E payload ·), Unreadable E payload row) ∧
      matchSpace E payload rows = .error unreadable) := by
  induction rows with
  | nil => cases h
  | cons row rows ih =>
    by_cases hmatches : Matches E payload row
    · rw [List.find?_cons_of_pos (by simpa using hmatches)] at h
      obtain rfl := Option.some.inj h
      rw [List.takeWhile_cons_of_neg (by simpa using hmatches)]
      exact .inl ⟨by simp, matchSpace_of_matches hmatches hid rows⟩
    · rw [List.find?_cons_of_neg (by simpa using hmatches)] at h
      rw [List.takeWhile_cons_of_pos (by simpa using hmatches)]
      by_cases hstop : Unreadable E payload row
      · exact .inr ⟨⟨row, List.mem_cons_self, hstop⟩, matchSpace_of_unreadable hstop rows⟩
      · rw [matchSpace_of_neither hmatches hstop]
        simpa [hstop] using ih h

/-! ## The insertion -/

variable {spaceId name : Str} {db : Db}

theorem mem_listApps_names : name ∈ (db.listApps spaceId).map (·.name) ↔
      ∃ row ∈ db.apps.rows, row.spaceId = spaceId ∧ row.name = name := by
  simp only [Db.listApps, List.mem_map, List.mem_insertionSort, rowsOf, List.mem_filter,
    decide_eq_true_eq, and_assoc]

theorem any_listApps : ((db.listApps spaceId).any fun a => a.name = name) = true ↔
      name ∈ (db.listApps spaceId).map (·.name) := by
  simp

theorem content_newApp (db : Db) (spaceId : Str) (app : AppImport) :
    content (newApp E db spaceId app) = app.stored := rfl

/-- A new row is inserted where its space is in the table. -/
theorem insertApp_newApp (app : AppImport) :
    (db.hasSpace spaceId → ∃ db' : Db, db.insertApp (newApp E db spaceId app) = .ok db' ∧
      db'.users = db.users ∧ db'.spaces = db.spaces ∧
      db'.apps.rows = db.apps.rows ++ [newApp E db spaceId app]) ∧
    (¬ db.hasSpace spaceId → ∃ e, db.insertApp (newApp E db spaceId app) = .error e) := by
  have hfresh : (newApp E db spaceId app).id ∉ db.apps.rows.map (·.id) := E.newV4_fresh _
  unfold Db.insertApp
  rw [dif_pos hfresh]
  constructor
  · intro hspace
    rw [if_pos (show db.hasSpace (newApp E db spaceId app).spaceId from hspace)]
    exact ⟨_, rfl, rfl, rfl, rfl⟩
  · intro hspace
    rw [if_neg (show ¬ db.hasSpace (newApp E db spaceId app).spaceId from hspace)]
    exact ⟨_, rfl⟩

theorem importApps_of_no_space (h : ¬ db.hasSpace spaceId)
    (imported : Nat) (apps : List AppImport) :
    importApps E spaceId db imported apps = (db, imported) := by
  induction apps with
  | nil => rfl
  | cons app apps ih =>
    rw [importApps]
    split
    · exact ih
    · obtain ⟨e, he⟩ := (insertApp_newApp (E := E) app).2 h
      rw [he]
      exact ih

theorem missing_cons_of_mem {app : AppImport}
    (h : app.name ∈ (db.listApps spaceId).map (·.name)) (apps : List AppImport) :
    missing db spaceId (app :: apps) = missing db spaceId apps := by
  rw [missing, distinctFrom, if_pos (.inl h), missing]

/-- Once an app is there, the others are missing as if its name had been. -/
theorem missing_cons_of_notMem {db db' : Db} {app : AppImport}
    (h : app.name ∉ (db.listApps spaceId).map (·.name)) {row : AppRow}
    (hrows : db'.apps.rows = db.apps.rows ++ [row]) (hspace : row.spaceId = spaceId)
    (hname : row.name = app.name) (apps : List AppImport) :
    missing db spaceId (app :: apps) = app :: missing db' spaceId apps := by
  rw [missing, distinctFrom, if_neg (by simpa using h), missing]
  congr 1
  refine distinctFrom_congr ?_ apps
  intro k
  rw [mem_listApps_names, mem_listApps_names, hrows]
  simp [hspace, hname, eq_comm]

theorem adds_importApps (h : db.hasSpace spaceId) (imported : Nat) (apps : List AppImport) :
    ∃ added, (importApps E spaceId db imported apps).2 = imported + added ∧
      Adds spaceId apps db (importApps E spaceId db imported apps).1 added := by
  induction apps generalizing db imported with
  | nil => exact ⟨0, rfl, rfl, rfl, [], by simp [importApps], by simp, rfl, rfl⟩
  | cons app apps ih =>
    rw [importApps]
    by_cases hthere : app.name ∈ (db.listApps spaceId).map (·.name)
    · rw [if_pos (any_listApps.2 hthere)]
      obtain ⟨added, hcount, husers, hspaces, new, hrows, hids, hcontent, hlength⟩ := ih h imported
      refine ⟨added, hcount, husers, hspaces, new, hrows, hids, ?_, hlength⟩
      rw [missing_cons_of_mem hthere]
      exact hcontent
    · rw [if_neg (fun hany => hthere (any_listApps.1 hany))]
      obtain ⟨db', hinsert, husers', hspaces', hrows'⟩ := (insertApp_newApp (E := E) app).1 h
      rw [hinsert]
      have hspace' : db'.hasSpace spaceId := by
        unfold Db.hasSpace
        rw [hspaces']
        exact h
      obtain ⟨added, hcount, husers, hspaces, new, hrows, hids, hcontent, hlength⟩ :=
        ih hspace' (imported + 1)
      refine ⟨added + 1, ?_, husers.trans husers', hspaces.trans hspaces',
        newApp E db spaceId app :: new, ?_, ?_, ?_, ?_⟩
      · dsimp only
        rw [hcount]
        omega
      · dsimp only
        rw [hrows, hrows', List.append_assoc, List.singleton_append]
      · rintro row (_ | ⟨_, hrow⟩)
        · rfl
        · exact hids row hrow
      · rw [missing_cons_of_notMem hthere hrows' rfl rfl, List.map_cons, List.map_cons, hcontent,
          content_newApp]
      · rw [hlength, List.length_cons]

variable {apps : List AppImport}

theorem missing_eq_nil : missing db spaceId apps = [] ↔
      ∀ app ∈ apps, app.name ∈ (db.listApps spaceId).map (·.name) := by
  have hkeys := mem_map_distinctFrom AppImport.name
    (· ∈ (db.listApps spaceId).map (·.name)) [] apps
  constructor
  · intro hnil app happ
    by_contra hnot
    have hmem := (hkeys app.name).2 ⟨List.mem_map_of_mem happ, hnot, List.not_mem_nil⟩
    rw [← missing, hnil] at hmem
    cases hmem
  · intro hall
    rw [List.eq_nil_iff_forall_not_mem]
    intro app happ
    obtain ⟨hname, hnot, -⟩ := (hkeys app.name).1 (List.mem_map_of_mem happ)
    obtain ⟨app', happ', heq⟩ := List.mem_map.1 hname
    exact hnot (heq ▸ hall app' happ')

/-- After the import nothing is missing. -/
theorem missing_of_adds {db db' : Db} {imported : Nat}
    (h : Adds spaceId apps db db' imported) : missing db' spaceId apps = [] := by
  obtain ⟨-, -, new, hrows, hids, hcontent, -⟩ := h
  rw [missing_eq_nil]
  intro app happ
  rw [mem_listApps_names, hrows]
  by_cases hthere : app.name ∈ (db.listApps spaceId).map (·.name)
  · obtain ⟨row, hrow, hspace, hname⟩ := mem_listApps_names.1 hthere
    exact ⟨row, List.mem_append_left _ hrow, hspace, hname⟩
  · -- its first occurrence is among the new rows
    have hkeys := (mem_map_distinctFrom AppImport.name
      (· ∈ (db.listApps spaceId).map (·.name)) [] apps app.name).2
        ⟨List.mem_map_of_mem happ, hthere, List.not_mem_nil⟩
    obtain ⟨first, hfirst, hname⟩ := List.mem_map.1 hkeys
    have hstored : first.stored ∈ new.map content := by
      rw [hcontent]
      exact List.mem_map_of_mem hfirst
    obtain ⟨row, hrow, hrowContent⟩ := List.mem_map.1 hstored
    have hrowName : row.name = first.name := congrArg AppImport.name hrowContent
    exact ⟨row, List.mem_append_right _ hrow, hids row hrow, hrowName.trans hname⟩

theorem rows_eq {α κ : Type} {key : α → κ} {t t' : Rows key} (h : t.rows = t'.rows) : t = t' := by
  cases t
  cases t'
  cases h
  rfl

theorem apps_of_adds_nil {db db' : Db} {imported : Nat}
    (h : Adds spaceId apps db db' imported) (hnil : missing db spaceId apps = []) :
    db'.apps = db.apps ∧ imported = 0 := by
  obtain ⟨-, -, new, hrows, -, hcontent, hlength⟩ := h
  have hnew : new = [] := by
    rw [hnil] at hcontent
    simpa using hcontent
  rw [hnew] at hrows hlength
  exact ⟨rows_eq (by simpa using hrows), hlength⟩

theorem importAddApps_of_match {spaceId : Uuid}
    (h : matchSpace E payload db.listSpaces = .ok (some (spaceId, name))) :
    importAddApps E db (.ok payload) =
      ((importApps E (uuidText spaceId) db 0 payload.apps).1,
        .ok ⟨uuidText spaceId, name, (importApps E (uuidText spaceId) db 0 payload.apps).2⟩) := by
  simp only [importAddApps, h]

/-- Where nothing is missing, or no space has the id, nothing is inserted. -/
theorem importApps_idle (h : ¬ db.hasSpace spaceId ∨ missing db spaceId apps = []) :
    (importApps E spaceId db 0 apps).1.apps = db.apps ∧
      (importApps E spaceId db 0 apps).2 = 0 := by
  by_cases hspace : db.hasSpace spaceId
  · obtain ⟨added, hcount, hadds⟩ := adds_importApps (E := E) hspace 0 apps
    obtain ⟨happs, rfl⟩ := apps_of_adds_nil hadds (h.resolve_left (not_not.2 hspace))
    exact ⟨happs, hcount⟩
  · rw [importApps_of_no_space hspace]
    exact ⟨rfl, rfl⟩

/-- The second import finds the same space, and everything there. -/
theorem importAddApps_again {spaceId : Uuid}
    (h : matchSpace E payload db.listSpaces = .ok (some (spaceId, name))) :
    (importAddApps E (importAddApps E db (.ok payload)).1 (.ok payload)).1.apps =
      (importAddApps E db (.ok payload)).1.apps := by
  rw [importAddApps_of_match h]
  by_cases hspace : db.hasSpace (uuidText spaceId)
  · obtain ⟨added, -, hadds⟩ := adds_importApps (E := E) hspace 0 payload.apps
    have hsame : (importApps E (uuidText spaceId) db 0 payload.apps).1.listSpaces = db.listSpaces := by
      rw [Db.listSpaces, Db.listSpaces, hadds.2.1]
    rw [importAddApps_of_match (by rw [hsame]; exact h)]
    exact (importApps_idle (.inr (missing_of_adds hadds))).1
  · rw [importApps_of_no_space hspace, importAddApps_of_match h, importApps_of_no_space hspace]

variable (E)

/-- An import does what it should exactly if nothing unreadable is in its way and the id is
in the usual notation. -/
theorem imports_iff (db : Db) (payload : AddAppPayload) :
    Imports E db payload ↔ Importable E db payload := by
  unfold Imports Importable
  cases hfind : db.listSpaces.find? (Matches E payload ·) with
  | none =>
    refine iff_of_true ?_ (by simp)
    rcases matchSpace_of_none hfind with hmatch | hmatch
    · simp only [importAddApps, hmatch]
      exact ⟨trivial, _, rfl⟩
    · simp only [importAddApps, hmatch]
      exact ⟨trivial, _, rfl⟩
  | some space =>
    have hmatches : Matches E payload space := by simpa using List.find?_some hfind
    obtain ⟨spaceId, hid, -⟩ := hmatches.2.2
    rw [Option.mem_def] at hid
    simp only [Option.mem_def, Option.some.injEq, forall_eq', hid]
    rcases matchSpace_of_some hfind hid with ⟨hclear, hmatch⟩ | ⟨⟨row, hrow, hstop⟩, hmatch⟩
    · have hway : ∀ row ∈ db.listSpaces.takeWhile (¬ Matches E payload ·),
          row.name = payload.name → ∀ text, row.configJson = some text →
            networkNameOf E text ≠ none :=
        fun row hrow hname text htext hread => hclear row hrow ⟨hname, text, htext, hread⟩
      rw [and_iff_left (importAddApps_again hmatch), and_iff_right hway,
        importAddApps_of_match hmatch]
      simp only [Except.ok.injEq, exists_eq_left']
      have hthere : db.hasSpace space.id := by
        have hmem := List.mem_of_find?_eq_some hfind
        exact List.mem_map_of_mem ((List.mem_insertionSort _).1 hmem)
      by_cases hcanonical : uuidText spaceId = space.id
      · refine iff_of_true ?_ (.inl hcanonical)
        rw [hcanonical]
        obtain ⟨added, hcount, hadds⟩ := adds_importApps (E := E) hthere 0 payload.apps
        rw [hcount, Nat.zero_add]
        exact hadds
      · rw [or_iff_right hcanonical]
        constructor
        · rintro ⟨-, -, new, hrows, hids, hcontent, hlength⟩
          -- what is inserted belongs to another id
          have hnew : ∀ added, Adds (uuidText spaceId) payload.apps db
              (importApps E (uuidText spaceId) db 0 payload.apps).1 added →
              new = [] ∧ missing db (uuidText spaceId) payload.apps = [] := by
            rintro added ⟨-, -, new', hrows', hids', hcontent', -⟩
            have hsame : new' = new := List.append_cancel_left (hrows'.symm.trans hrows)
            have hnil : new = [] := by
              rw [List.eq_nil_iff_forall_not_mem]
              intro row hrow
              exact hcanonical ((hids' row (hsame ▸ hrow)).symm.trans (hids row hrow))
            rw [hsame, hnil] at hcontent'
            exact ⟨hnil, by simpa using hcontent'.symm⟩
          by_cases hspace : db.hasSpace (uuidText spaceId)
          · obtain ⟨added, -, hadds⟩ := adds_importApps (E := E) hspace 0 payload.apps
            obtain ⟨hnil, hmissing⟩ := hnew added hadds
            rw [hnil] at hcontent
            exact ⟨by simpa using hcontent.symm, .inr hmissing⟩
          · rw [importApps_of_no_space hspace] at hrows
            have hnil : new = [] := by simpa using hrows
            rw [hnil] at hcontent
            exact ⟨by simpa using hcontent.symm, .inl hspace⟩
        · rintro ⟨hmissing, hidle⟩
          obtain ⟨happs, hcount⟩ := importApps_idle (E := E) hidle
          have hrest : (importApps E (uuidText spaceId) db 0 payload.apps).1.users = db.users ∧
              (importApps E (uuidText spaceId) db 0 payload.apps).1.spaces = db.spaces := by
            by_cases hspace : db.hasSpace (uuidText spaceId)
            · obtain ⟨added, -, hadds⟩ := adds_importApps (E := E) hspace 0 payload.apps
              exact ⟨hadds.1, hadds.2.1⟩
            · rw [importApps_of_no_space hspace]
              exact ⟨rfl, rfl⟩
          refine ⟨hrest.1, hrest.2, [], ?_, by simp, ?_, hcount⟩
          · rw [happs, List.append_nil]
          · rw [hmissing]
            rfl
    · refine iff_of_false ?_ ?_
      · rintro ⟨⟨result, hok, -⟩, -⟩
        simp only [importAddApps, hmatch, reduceCtorEq] at hok
      · rintro ⟨hway, -⟩
        obtain ⟨hname, text, htext, hread⟩ := hstop
        exact hway row hrow hname text htext hread

end Importing

/-! ## Two spaces of one name -/

/-- Nobody is online, and ids are longer than those in use. -/
def quietEnv : Env where
  J := JsonText.compact
  freshInstance := []
  getPeers := fun _ => .ok []
  newV4 := fun used => List.replicate (used.flatten.length + 1) 'a'
  newV4_fresh := by
    intro used hmem
    have hle : (List.replicate (used.flatten.length + 1) 'a').length ≤ used.flatten.length :=
      (List.sublist_flatten_of_mem hmem).length_le
    simp at hle
  now := fun _ => []

/-- Two spaces of one name; the configuration of the one is no object, that of the other is
the default. -/
def twoHomes (newer older : Uuid) (hne : uuidText newer ≠ uuidText older) : Db where
  users := []
  spaces :=
    { rows :=
        [⟨uuidText newer, "home".toList, "2026-01-02".toList, some "true".toList⟩,
          ⟨uuidText older, "home".toList, "2026-01-01".toList, some []⟩]
      nodup := by simpa using hne }
  apps := ⟨[], List.nodup_nil⟩

theorem networkNameOf_true : networkNameOf quietEnv "true".toList = none := by
  have hparse : JsonText.compact.parse "true".toList = some (.bool true) :=
    JsonText.compact.parse_print (.bool true) (.bool true)
  rw [networkNameOf]
  split
  · rename_i config hconfig
    -- a configuration is an object
    have hread := (fromConfigJson_eq_ok_iff hparse).1 hconfig
    cases hread
  · rfl

theorem networkNameOf_nil (E : Env) : networkNameOf E [] = some "easytier".toList := rfl

theorem listSpaces_twoHomes {newer older : Uuid} (hne : uuidText newer ≠ uuidText older) :
    (twoHomes newer older hne).listSpaces = (twoHomes newer older hne).spaces.rows := by
  have hle : "2026-01-01".toList ≤ "2026-01-02".toList := by decide
  rw [Db.listSpaces, twoHomes, List.insertionSort_cons, List.insertionSort_cons,
    List.insertionSort_nil, List.orderedInsert_nil]
  exact List.orderedInsert_cons_of_le _ _ hle

/-- The link of such a space. -/
def homeLink : AddAppPayload := ⟨"home".toList, "easytier".toList, [], []⟩

theorem matches_default (E : Env) (id : Uuid) (createdAt : Str) :
    Matches E homeLink ⟨uuidText id, "home".toList, createdAt, some []⟩ :=
  ⟨rfl, networkNameOf_nil E, id, parseUuid_uuidText id, by rw [allTargetsPresent]; rfl⟩

theorem not_imports_of_unreadable {E : Env} {db : Db} {payload : AddAppPayload} {space : SpaceRow}
    (hmem : space ∈ db.listSpaces) (hmatches : Matches E payload space)
    (hmatch : matchSpace E payload db.listSpaces = .error unreadable) : ¬ Imports E db payload := by
  intro himports
  unfold Imports at himports
  split at himports
  · rename_i hnone
    exact List.find?_eq_none.1 hnone _ hmem (decide_eq_true hmatches)
  · obtain ⟨⟨result, hok, -⟩, -⟩ := himports
    simp only [importAddApps, hmatch, reduceCtorEq] at hok

theorem not_imports_twoHomes {newer older : Uuid} (hne : uuidText newer ≠ uuidText older) :
    ¬ Imports quietEnv (twoHomes newer older hne) homeLink := by
  refine not_imports_of_unreadable ?_ (matches_default quietEnv older "2026-01-01".toList) ?_
  · rw [listSpaces_twoHomes]
    exact List.mem_cons_of_mem _ List.mem_cons_self
  · rw [listSpaces_twoHomes]
    exact matchSpace_of_unreadable ⟨rfl, _, rfl, networkNameOf_true⟩ _

/-- The unreadable one ends the search before the one that fits. -/
theorem unreadable_ends_search : ¬ ∀ E db payload, Imports E db payload := by
  have hne : uuidText 1 ≠ uuidText 2 := uuidText_injective.ne (by decide)
  simp only [not_forall]
  exact ⟨quietEnv, twoHomes 1 2 hne, homeLink, not_imports_twoHomes hne⟩

end HomeTier.AppImports
