import HomeTier.Lib.Json
import HomeTier.Lib.Table

/-! # The rules and apps of a space behind the HTTP API

The handlers of `src-tauri/src/server/routes.rs` that change or delete a row of
`acl_rules`, `port_forward_rules` or `space_apps`, and the one that inserts a port
forward rule, with the statements of `db/mod.rs` they end in. Each takes the space from the path and the id of the
row from the body:

* the two update handlers of the rules look the row up among the rows of the
  space, and answer 404 for a row of another one;
* the two delete handlers of the rules leave the space out, and so do both
  handlers of the apps, which ask for the creator instead.

Whether a statement fails is an input.
-/

namespace HomeTier.SpaceRows

open Lib

/-! ## Tables -/

structure AclRuleRow where
  id : Str
  spaceId : Str
  action : Str
  source : Str
  dest : Str
  ports : Str
  description : Str
  createdAt : Str
  updatedAt : Str
deriving DecidableEq

structure PortForwardRuleRow where
  id : Str
  spaceId : Str
  name : Str
  protocol : Str
  sourceIp : Str
  sourcePort : Int
  targetIp : Str
  targetPort : Int
  description : Str
  createdAt : Str
  updatedAt : Str
deriving DecidableEq

structure AppRow where
  id : Str
  spaceId : Str
  name : Str
  category : Option Str
  icon : Option Str
  protocol : Option Str
  hostname : Option Str
  port : Option Str
  pathname : Option Str
  sortOrder : Int
  createdBy : Str
  createdAt : Str
deriving DecidableEq

/-- The tables that the handlers read or write. -/
structure SpaceDb where
  users : List Str
  aclRules : Rows AclRuleRow.id
  portForwards : Rows PortForwardRuleRow.id
  apps : Rows AppRow.id

/-- The errors of the statements; `none` is success. -/
structure Answers where
  userId : Option Str
  select : Option Str
  write : Option Str

/-! ## Statements -/

namespace SpaceDb

variable (db : SpaceDb) (io : Answers)

/-- `get_user_id().ok().flatten().unwrap_or_else(|| "anonymous")` -/
def callerId : Str :=
  match io.userId with
  | some _ => "anonymous".toList
  | none => db.users.head?.getD "anonymous".toList

def getAclRules (spaceId : Str) : Except Str (List AclRuleRow) :=
  match io.select with
  | some e => .error ("Query ACL rules error: ".toList ++ e)
  | none => .ok (rowsOf AclRuleRow.spaceId spaceId db.aclRules.rows)

def updateAclRule (rule : AclRuleRow) : SpaceDb × Except Str Unit :=
  match io.write with
  | some e => (db, .error ("Update ACL rule error: ".toList ++ e))
  | none =>
    -- the CHECK of the column
    if rule.action = "allow".toList ∨ rule.action = "deny".toList then
      ({ db with
        aclRules := db.aclRules.updateWhere (fun x => x.id = rule.id)
          (fun x => { x with
            action := rule.action, source := rule.source, dest := rule.dest, ports := rule.ports
            description := rule.description, updatedAt := rule.updatedAt })
          (fun _ => rfl) }, .ok ())
    else
      (db, .error
        "Update ACL rule error: CHECK constraint failed: action IN ('allow', 'deny')".toList)

def deleteAclRule (ruleId : Str) : SpaceDb × Except Str Unit :=
  match io.write with
  | some e => (db, .error ("Delete ACL rule error: ".toList ++ e))
  | none => ({ db with aclRules := db.aclRules.deleteWhere fun x => x.id = ruleId }, .ok ())

def getPortForwardRules (spaceId : Str) : Except Str (List PortForwardRuleRow) :=
  match io.select with
  | some e => .error ("Query port forward rules error: ".toList ++ e)
  | none => .ok (rowsOf PortForwardRuleRow.spaceId spaceId db.portForwards.rows)

def insertPortForwardRule (rule : PortForwardRuleRow) : SpaceDb × Except Str Unit :=
  match io.write with
  | some e => (db, .error ("Insert port forward rule error: ".toList ++ e))
  | none =>
    if rule.protocol = "tcp".toList ∨ rule.protocol = "udp".toList then
      if h : rule.id ∉ db.portForwards.rows.map (·.id) then
        ({ db with portForwards := db.portForwards.insert rule h }, .ok ())
      else
        (db, .error
          "Insert port forward rule error: UNIQUE constraint failed: port_forward_rules.id".toList)
    else
      (db, .error
        "Insert port forward rule error: CHECK constraint failed: protocol IN ('tcp', 'udp')".toList)

def updatePortForwardRule (rule : PortForwardRuleRow) : SpaceDb × Except Str Unit :=
  match io.write with
  | some e => (db, .error ("Update port forward rule error: ".toList ++ e))
  | none =>
    if rule.protocol = "tcp".toList ∨ rule.protocol = "udp".toList then
      ({ db with
        portForwards := db.portForwards.updateWhere (fun x => x.id = rule.id)
          (fun x => { x with
            name := rule.name, protocol := rule.protocol
            sourceIp := rule.sourceIp, sourcePort := rule.sourcePort
            targetIp := rule.targetIp, targetPort := rule.targetPort
            description := rule.description, updatedAt := rule.updatedAt })
          (fun _ => rfl) }, .ok ())
    else
      (db, .error
        "Update port forward rule error: CHECK constraint failed: protocol IN ('tcp', 'udp')".toList)

def deletePortForwardRule (ruleId : Str) : SpaceDb × Except Str Unit :=
  match io.write with
  | some e => (db, .error ("Delete port forward rule error: ".toList ++ e))
  | none =>
    ({ db with portForwards := db.portForwards.deleteWhere fun x => x.id = ruleId }, .ok ())

def listAppsByCreated (appId createdBy : Str) : Except Str (List AppRow) :=
  match io.select with
  | some e => .error ("Query error: ".toList ++ e)
  | none => .ok (db.apps.rows.filter fun x => x.id = appId ∧ x.createdBy = createdBy)

def updateApp (app : AppRow) : SpaceDb × Except Str Unit :=
  match io.write with
  | some e => (db, .error ("Update app error: ".toList ++ e))
  | none =>
    ({ db with
      apps := db.apps.updateWhere (fun x => x.id = app.id)
        (fun x => { x with
          name := app.name, category := app.category, icon := app.icon
          protocol := app.protocol, hostname := app.hostname, port := app.port
          pathname := app.pathname, sortOrder := app.sortOrder })
        (fun _ => rfl) }, .ok ())

def deleteApp (id callerId : Str) : SpaceDb × Except Str Unit :=
  match io.write with
  | some e => (db, .error ("Delete app error: ".toList ++ e))
  | none =>
    let db' := { db with
      apps := db.apps.deleteWhere fun x => x.id = id ∧ x.createdBy = callerId }
    if db.apps.rows.any fun x => x.id = id ∧ x.createdBy = callerId then (db', .ok ())
    else (db', .error "无权限删除或应用不存在".toList)

end SpaceDb

/-! ## Handlers -/

/-- A status with what the body says: a text, or the changed row. -/
inductive Reply where
  | noContent
  | badRequest (text : Str)
  | forbidden (text : Str)
  | notFound (text : Str)
  | internalServerError (text : Str)
  | aclRule (rule : AclRuleRow)
  | portForwardRule (rule : PortForwardRuleRow)

/-- `body[key].as_str()` -/
def str? (body : Json) (key : Str) : Option Str := (body.get key).bind Json.asStr

/-- `body[key].as_i64().map(|v| v as i32)` -/
def i32? (body : Json) (key : Str) : Option Int :=
  ((body.get key).bind Json.asI64).map fun v => v.bmod (2 ^ 32)

/-- The answer to a statement without rows. -/
def replyTo (r : SpaceDb × Except Str Unit) (done : Reply) : SpaceDb × Reply :=
  match r with
  | (db, .ok ()) => (db, done)
  | (db, .error e) => (db, .internalServerError e)

section Handlers

variable (db : SpaceDb) (io : Answers) (spaceId : Str) (body : Json)

def updateAclRuleHandler (now : Str) : SpaceDb × Reply :=
  let ruleId := (str? body "rule_id".toList).getD []
  if ruleId = [] then (db, .badRequest "缺少 rule_id".toList)
  else
    match db.getAclRules io spaceId with
    | .error e => (db, .internalServerError e)
    | .ok existing =>
      match existing.find? fun r => r.id = ruleId with
      | none => (db, .notFound "ACL 规则不存在".toList)
      | some row =>
        let updated : AclRuleRow := { row with
          action := (str? body "action".toList).getD row.action
          source := (str? body "source".toList).getD row.source
          dest := (str? body "dest".toList).getD row.dest
          ports := (str? body "ports".toList).getD row.ports
          description := (str? body "description".toList).getD row.description
          updatedAt := now }
        replyTo (db.updateAclRule io updated) (.aclRule updated)

/-- The space is not looked at. -/
def deleteAclRuleHandler (_spaceId : Str) : SpaceDb × Reply :=
  let ruleId := (str? body "rule_id".toList).getD []
  if ruleId = [] then (db, .badRequest "缺少 rule_id".toList)
  else replyTo (db.deleteAclRule io ruleId) .noContent

/-- The rule that a body asks for; `id` is drawn. -/
def newPortForwardRule (spaceId : Str) (body : Json) (id now : Str) : PortForwardRuleRow where
  id := id
  spaceId := spaceId
  name := (str? body "name".toList).getD []
  protocol := (str? body "protocol".toList).getD []
  sourceIp := (str? body "sourceIp".toList).getD []
  sourcePort := (i32? body "sourcePort".toList).getD 0
  targetIp := (str? body "targetIp".toList).getD []
  targetPort := (i32? body "targetPort".toList).getD 0
  description := (str? body "description".toList).getD []
  createdAt := now
  updatedAt := now

def createPortForwardRuleHandler (id now : Str) : SpaceDb × Reply :=
  let row := newPortForwardRule spaceId body id now
  if row.name = [] ∨ row.protocol = [] ∨ row.sourceIp = [] ∨ row.sourcePort = 0 ∨
      row.targetIp = [] ∨ row.targetPort = 0 then
    (db, .badRequest "缺少必要参数".toList)
  else replyTo (db.insertPortForwardRule io row) (.portForwardRule row)

def updatePortForwardRuleHandler (now : Str) : SpaceDb × Reply :=
  let ruleId := (str? body "rule_id".toList).getD []
  if ruleId = [] then (db, .badRequest "缺少 rule_id".toList)
  else
    match db.getPortForwardRules io spaceId with
    | .error e => (db, .internalServerError e)
    | .ok existing =>
      match existing.find? fun r => r.id = ruleId with
      | none => (db, .notFound "端口转发规则不存在".toList)
      | some row =>
        let updated : PortForwardRuleRow := { row with
          name := (str? body "name".toList).getD row.name
          protocol := (str? body "protocol".toList).getD row.protocol
          sourceIp := (str? body "sourceIp".toList).getD row.sourceIp
          sourcePort := (i32? body "sourcePort".toList).getD row.sourcePort
          targetIp := (str? body "targetIp".toList).getD row.targetIp
          targetPort := (i32? body "targetPort".toList).getD row.targetPort
          description := (str? body "description".toList).getD row.description
          updatedAt := now }
        replyTo (db.updatePortForwardRule io updated) (.portForwardRule updated)

/-- The space is not looked at. -/
def deletePortForwardRuleHandler (_spaceId : Str) : SpaceDb × Reply :=
  let ruleId := (str? body "rule_id".toList).getD []
  if ruleId = [] then (db, .badRequest "缺少 rule_id".toList)
  else replyTo (db.deletePortForwardRule io ruleId) .noContent

/-- The row that the body of an app makes of the stored one. -/
def updatedApp (body : Json) (appId name callerId : Str) (existing : AppRow) : AppRow where
  id := appId
  spaceId := existing.spaceId
  name := name
  category := str? body "category".toList
  icon := str? body "icon".toList
  protocol := (str? body "protocol".toList).or (some "http:".toList)
  hostname := str? body "hostname".toList
  port := str? body "port".toList
  pathname := str? body "pathname".toList
  sortOrder := existing.sortOrder
  createdBy := callerId
  createdAt := existing.createdAt

/-- The space is not looked at. -/
def updateAppHandler (_spaceId : Str) : SpaceDb × Reply :=
  let appId := (str? body "app_id".toList).getD []
  let name := (str? body "name".toList).getD []
  if appId = [] ∨ name = [] then (db, .badRequest "缺少 app_id 或 name".toList)
  else
    match db.listAppsByCreated io appId (db.callerId io) with
    | .error e => (db, .internalServerError e)
    | .ok [] => (db, .forbidden "无权限修改或应用不存在".toList)
    | .ok (existing :: _) =>
      replyTo (db.updateApp io (updatedApp body appId name (db.callerId io) existing)) .noContent

/-- The space is not looked at. -/
def deleteAppHandler (_spaceId : Str) : SpaceDb × Reply :=
  let appId := (str? body "app_id".toList).getD []
  if appId = [] then (db, .badRequest "缺少 app_id".toList)
  else replyTo (db.deleteApp io appId (db.callerId io)) .noContent

end Handlers

/-- The routes that change or delete a row. -/
inductive Route where
  | updateAclRule
  | deleteAclRule
  | updatePortForwardRule
  | deletePortForwardRule
  | updateApp
  | deleteApp
deriving DecidableEq

structure Request where
  route : Route
  spaceId : Str
  body : Json

def handle (db : SpaceDb) (io : Answers) (now : Str) (req : Request) : SpaceDb × Reply :=
  match req.route with
  | .updateAclRule => updateAclRuleHandler db io req.spaceId req.body now
  | .deleteAclRule => deleteAclRuleHandler db io req.body req.spaceId
  | .updatePortForwardRule => updatePortForwardRuleHandler db io req.spaceId req.body now
  | .deletePortForwardRule => deletePortForwardRuleHandler db io req.body req.spaceId
  | .updateApp => updateAppHandler db io req.body req.spaceId
  | .deleteApp => deleteAppHandler db io req.body req.spaceId

/-! ## Rows of other spaces -/

/-- Every other space keeps its rows. -/
structure OthersKept (spaceId : Str) (db db' : SpaceDb) : Prop where
  aclRules : ∀ b ≠ spaceId, rowsOf AclRuleRow.spaceId b db'.aclRules.rows =
    rowsOf AclRuleRow.spaceId b db.aclRules.rows
  portForwards : ∀ b ≠ spaceId, rowsOf PortForwardRuleRow.spaceId b db'.portForwards.rows =
    rowsOf PortForwardRuleRow.spaceId b db.portForwards.rows
  apps : ∀ b ≠ spaceId, rowsOf AppRow.spaceId b db'.apps.rows =
    rowsOf AppRow.spaceId b db.apps.rows

section Kept

variable {a : Str} {db : SpaceDb}

theorem OthersKept.refl (a : Str) (db : SpaceDb) : OthersKept a db db :=
  ⟨fun _ _ => rfl, fun _ _ => rfl, fun _ _ => rfl⟩

theorem othersKept_aclRules {t : Rows AclRuleRow.id} :
    OthersKept a db { db with aclRules := t } ↔
      ∀ b ≠ a, rowsOf AclRuleRow.spaceId b t.rows =
        rowsOf AclRuleRow.spaceId b db.aclRules.rows :=
  ⟨fun h => h.aclRules, fun h => ⟨h, fun _ _ => rfl, fun _ _ => rfl⟩⟩

theorem othersKept_portForwards {t : Rows PortForwardRuleRow.id} :
    OthersKept a db { db with portForwards := t } ↔
      ∀ b ≠ a, rowsOf PortForwardRuleRow.spaceId b t.rows =
        rowsOf PortForwardRuleRow.spaceId b db.portForwards.rows :=
  ⟨fun h => h.portForwards, fun h => ⟨fun _ _ => rfl, h, fun _ _ => rfl⟩⟩

theorem othersKept_apps {t : Rows AppRow.id} :
    OthersKept a db { db with apps := t } ↔
      ∀ b ≠ a, rowsOf AppRow.spaceId b t.rows = rowsOf AppRow.spaceId b db.apps.rows :=
  ⟨fun h => h.apps, fun h => ⟨fun _ _ => rfl, fun _ _ => rfl, h⟩⟩

@[simp] theorem replyTo_fst (r : SpaceDb × Except Str Unit) (done : Reply) :
    (replyTo r done).1 = r.1 := by
  rcases r with ⟨db, e | ⟨⟩⟩ <;> rfl

end Kept

/-! ### Rules that are changed -/

section Update

variable {db : SpaceDb} {io : Answers} {spaceId : Str}

/-- A row found by its id among those of the space is the only one with the id. -/
theorem spaceId_of_find {α : Type} {key group : α → Str} {t : Rows key} {k : Str} {x row : α}
    (hfind : (rowsOf group spaceId t.rows).find? (fun y => key y = k) = some row)
    (hx : x ∈ t.rows) (hkey : key x = key row) : group x = spaceId := by
  have hmem := List.mem_of_find?_eq_some hfind
  rcases List.mem_filter.1 hmem with ⟨hrow, hgroup⟩
  rw [t.eq_of_key_eq hx hrow hkey]
  exact of_decide_eq_true hgroup

theorem updateAclRule_kept {k : Str} {row rule : AclRuleRow}
    (hfind : (rowsOf AclRuleRow.spaceId spaceId db.aclRules.rows).find? (fun y => y.id = k) =
      some row) (hid : rule.id = row.id) :
    OthersKept spaceId db (db.updateAclRule io rule).1 := by
  unfold SpaceDb.updateAclRule
  split
  · exact .refl spaceId db
  · split
    · refine othersKept_aclRules.2 ((rowsOf_updateWhere_iff (by intros; rfl)).2 ?_)
      intro x hx hp
      left
      exact spaceId_of_find hfind hx ((of_decide_eq_true hp).trans hid)
    · exact .refl spaceId db

theorem updatePortForwardRule_kept {k : Str} {row rule : PortForwardRuleRow}
    (hfind : (rowsOf PortForwardRuleRow.spaceId spaceId db.portForwards.rows).find?
      (fun y => y.id = k) = some row) (hid : rule.id = row.id) :
    OthersKept spaceId db (db.updatePortForwardRule io rule).1 := by
  unfold SpaceDb.updatePortForwardRule
  split
  · exact .refl spaceId db
  · split
    · refine othersKept_portForwards.2 ((rowsOf_updateWhere_iff (by intros; rfl)).2 ?_)
      intro x hx hp
      left
      exact spaceId_of_find hfind hx ((of_decide_eq_true hp).trans hid)
    · exact .refl spaceId db

/-- The update handlers of the rules ask for the space. -/
theorem updateAclRuleHandler_kept (body : Json) (now : Str) :
    OthersKept spaceId db (updateAclRuleHandler db io spaceId body now).1 := by
  unfold updateAclRuleHandler SpaceDb.getAclRules
  cases io.select with
  | some e =>
    simp only
    split
    · exact .refl spaceId db
    · exact .refl spaceId db
  | none =>
    simp only
    split
    · exact .refl spaceId db
    · split
      · exact .refl spaceId db
      · next row hfind =>
        rw [replyTo_fst]
        exact updateAclRule_kept hfind rfl

theorem updatePortForwardRuleHandler_kept (body : Json) (now : Str) :
    OthersKept spaceId db (updatePortForwardRuleHandler db io spaceId body now).1 := by
  unfold updatePortForwardRuleHandler SpaceDb.getPortForwardRules
  cases io.select with
  | some e =>
    simp only
    split
    · exact .refl spaceId db
    · exact .refl spaceId db
  | none =>
    simp only
    split
    · exact .refl spaceId db
    · split
      · exact .refl spaceId db
      · next row hfind =>
        rw [replyTo_fst]
        exact updatePortForwardRule_kept hfind rfl

end Update

/-! ### The handlers that leave the space out -/

section Unguarded

variable {db : SpaceDb} {io : Answers} {spaceId : Str} {body : Json}

theorem deleteAclRuleHandler_iff :
    OthersKept spaceId db (deleteAclRuleHandler db io body spaceId).1 ↔
      ((str? body "rule_id".toList).getD [] ≠ [] → io.write = none →
        ∀ r ∈ db.aclRules.rows, r.id = (str? body "rule_id".toList).getD [] →
          r.spaceId = spaceId) := by
  unfold deleteAclRuleHandler SpaceDb.deleteAclRule
  generalize (str? body "rule_id".toList).getD [] = k
  by_cases hk : k = []
  · simp [hk, OthersKept.refl]
  · cases io.write with
    | some e => simp [hk, OthersKept.refl]
    | none =>
      simp only [if_neg hk, replyTo_fst]
      rw [othersKept_aclRules]
      refine (rowsOf_filter_iff _ _).trans ?_
      simp [hk]

theorem deletePortForwardRuleHandler_iff :
    OthersKept spaceId db (deletePortForwardRuleHandler db io body spaceId).1 ↔
      ((str? body "rule_id".toList).getD [] ≠ [] → io.write = none →
        ∀ r ∈ db.portForwards.rows, r.id = (str? body "rule_id".toList).getD [] →
          r.spaceId = spaceId) := by
  unfold deletePortForwardRuleHandler SpaceDb.deletePortForwardRule
  generalize (str? body "rule_id".toList).getD [] = k
  by_cases hk : k = []
  · simp [hk, OthersKept.refl]
  · cases io.write with
    | some e => simp [hk, OthersKept.refl]
    | none =>
      simp only [if_neg hk, replyTo_fst]
      rw [othersKept_portForwards]
      refine (rowsOf_filter_iff _ _).trans ?_
      simp [hk]

theorem deleteAppHandler_iff :
    OthersKept spaceId db (deleteAppHandler db io body spaceId).1 ↔
      ((str? body "app_id".toList).getD [] ≠ [] → io.write = none →
        ∀ r ∈ db.apps.rows, r.id = (str? body "app_id".toList).getD [] →
          r.createdBy = db.callerId io → r.spaceId = spaceId) := by
  unfold deleteAppHandler SpaceDb.deleteApp
  generalize (str? body "app_id".toList).getD [] = k
  by_cases hk : k = []
  · simp [hk, OthersKept.refl]
  · cases io.write with
    | some e => simp [hk, OthersKept.refl]
    | none =>
      simp only [if_neg hk, replyTo_fst, apply_ite Prod.fst, ite_self]
      rw [othersKept_apps]
      refine (rowsOf_filter_iff _ _).trans ?_
      simp [hk]

/-- The columns that `update_app` writes make the row of the body. -/
theorem updateApp_row {appId name callerId : Str} {r : AppRow} (hid : r.id = appId)
    (hcreated : r.createdBy = callerId) :
    ({ r with
      name := name, category := str? body "category".toList, icon := str? body "icon".toList
      protocol := (str? body "protocol".toList).or (some "http:".toList)
      hostname := str? body "hostname".toList, port := str? body "port".toList
      pathname := str? body "pathname".toList, sortOrder := r.sortOrder } : AppRow) =
      updatedApp body appId name callerId r := by
  subst hid hcreated
  rfl

theorem updateAppHandler_iff :
    OthersKept spaceId db (updateAppHandler db io body spaceId).1 ↔
      ((str? body "app_id".toList).getD [] ≠ [] → (str? body "name".toList).getD [] ≠ [] →
        io.select = none → io.write = none →
        ∀ r ∈ db.apps.rows, r.id = (str? body "app_id".toList).getD [] →
          r.createdBy = db.callerId io → r.spaceId = spaceId ∨
            updatedApp body ((str? body "app_id".toList).getD [])
              ((str? body "name".toList).getD []) (db.callerId io) r = r) := by
  unfold updateAppHandler SpaceDb.listAppsByCreated SpaceDb.updateApp
  generalize (str? body "app_id".toList).getD [] = k
  generalize (str? body "name".toList).getD [] = name
  generalize db.callerId io = caller
  by_cases hempty : k = [] ∨ name = []
  · simp only [if_pos hempty, OthersKept.refl, true_iff]
    intro hk hname
    rcases hempty with h | h
    · exact absurd h hk
    · exact absurd h hname
  · rcases not_or.1 hempty with ⟨hk, hname⟩
    simp only [if_neg hempty]
    cases io.select with
    | some e => simp [OthersKept.refl]
    | none =>
      have hfound : ∀ r ∈ db.apps.rows, r.id = k → r.createdBy = caller →
          r ∈ db.apps.rows.filter fun x => x.id = k ∧ x.createdBy = caller := by
        intro r hr hid hcreated
        simp [hr, hid, hcreated]
      simp only
      cases hrows : db.apps.rows.filter fun x => x.id = k ∧ x.createdBy = caller with
      | nil =>
        -- no app of the caller has the id
        rw [hrows] at hfound
        simp only [OthersKept.refl, true_iff]
        intro _ _ _ _ r hr hid hcreated
        exact absurd (hfound r hr hid hcreated) List.not_mem_nil
      | cons existing rest =>
        have hmem : existing ∈ db.apps.rows.filter fun x => x.id = k ∧ x.createdBy = caller := by
          rw [hrows]
          exact List.mem_cons_self
        have hexisting : existing ∈ db.apps.rows ∧ existing.id = k ∧
            existing.createdBy = caller := by simpa using hmem
        rcases hexisting with ⟨hin, hid, hcreated⟩
        have honly : ∀ r ∈ db.apps.rows, r.id = k → r = existing := by
          intro r hr hr'
          exact db.apps.eq_of_key_eq hr hin (hr'.trans hid.symm)
        cases io.write with
        | some e => simp [OthersKept.refl]
        | none =>
          simp only [replyTo_fst]
          rw [othersKept_apps]
          refine (rowsOf_updateWhere_iff (by intros; rfl)).trans ?_
          constructor
          · intro h _ _ _ _ r hr hrid hrcreated
            rcases h r hr (decide_eq_true hrid) with hspace | hsame
            · exact .inl hspace
            · right
              rw [← honly r hr hrid] at hsame
              rw [← updateApp_row hrid hrcreated]
              exact hsame
          · intro h r hr hp
            have hrid : r.id = k := of_decide_eq_true hp
            obtain rfl := honly r hr hrid
            rcases h hk hname trivial trivial r hr hrid hcreated with hspace | hsame
            · exact .inl hspace
            · right
              rw [← updateApp_row hrid hcreated] at hsame
              exact hsame

end Unguarded

/-! ## Requests -/

/-- The row that the body names, where a statement gets to it, is of the space
in the path, or an app that the body leaves as it is. -/
def Addressed (db : SpaceDb) (io : Answers) (req : Request) : Prop :=
  let ruleId := (str? req.body "rule_id".toList).getD []
  let appId := (str? req.body "app_id".toList).getD []
  let name := (str? req.body "name".toList).getD []
  match req.route with
  | .updateAclRule | .updatePortForwardRule => True
  | .deleteAclRule => ruleId ≠ [] → io.write = none →
      ∀ r ∈ db.aclRules.rows, r.id = ruleId → r.spaceId = req.spaceId
  | .deletePortForwardRule => ruleId ≠ [] → io.write = none →
      ∀ r ∈ db.portForwards.rows, r.id = ruleId → r.spaceId = req.spaceId
  | .deleteApp => appId ≠ [] → io.write = none →
      ∀ r ∈ db.apps.rows, r.id = appId → r.createdBy = db.callerId io → r.spaceId = req.spaceId
  | .updateApp => appId ≠ [] → name ≠ [] → io.select = none → io.write = none →
      ∀ r ∈ db.apps.rows, r.id = appId → r.createdBy = db.callerId io →
        r.spaceId = req.spaceId ∨ updatedApp req.body appId name (db.callerId io) r = r

/-- A request leaves the other spaces alone exactly when it names a row of its own. -/
theorem others_kept_iff (db : SpaceDb) (io : Answers) (now : Str) (req : Request) :
    OthersKept req.spaceId db (handle db io now req).1 ↔ Addressed db io req := by
  rcases req with ⟨route, spaceId, body⟩
  cases route with
  | updateAclRule => exact iff_of_true (updateAclRuleHandler_kept body now) trivial
  | deleteAclRule => exact deleteAclRuleHandler_iff
  | updatePortForwardRule => exact iff_of_true (updatePortForwardRuleHandler_kept body now) trivial
  | deletePortForwardRule => exact deletePortForwardRuleHandler_iff
  | updateApp => exact updateAppHandler_iff
  | deleteApp => exact deleteAppHandler_iff

/-- Two spaces; the rule is of the second. -/
def guestRule : AclRuleRow where
  id := "r".toList
  spaceId := "guests".toList
  action := "deny".toList
  source := "10.0.0.0/8".toList
  dest := "10.0.0.1".toList
  ports := "*".toList
  description := []
  createdAt := "2025-01-01T00:00:00+08:00".toList
  updatedAt := "2025-01-01T00:00:00+08:00".toList

def guestDb : SpaceDb where
  users := ["u".toList]
  aclRules := ⟨[guestRule], List.nodup_singleton _⟩
  portForwards := ⟨[], List.nodup_nil⟩
  apps := ⟨[], List.nodup_nil⟩

/-- A request to `home` that names the rule deletes it. -/
theorem foreign_rule_deleted :
    ¬ ∀ (db : SpaceDb) (io : Answers) (now : Str) (req : Request),
      OthersKept req.spaceId db (handle db io now req).1 := by
  intro h
  let body : Json := .obj [("rule_id".toList, .str "r".toList)]
  have hkept := h guestDb ⟨none, none, none⟩ [] ⟨.deleteAclRule, "home".toList, body⟩
  have hrows := hkept.aclRules "guests".toList (by decide)
  have hlost : rowsOf AclRuleRow.spaceId "guests".toList
      (handle guestDb ⟨none, none, none⟩ [] ⟨.deleteAclRule, "home".toList, body⟩).1.aclRules.rows ≠
        rowsOf AclRuleRow.spaceId "guests".toList guestDb.aclRules.rows := by
    decide
  exact hlost hrows

end HomeTier.SpaceRows
