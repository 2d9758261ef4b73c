import HomeTier.Space.Records

/-! # Calls that fail half way

`create` and `join` write the row of the space, then (`create` only) the row of
the owner, then the configuration, and last the list in memory. Each statement
is a transaction of its own, so the rows written before a statement that fails
stay.

A call is atomic exactly if it is refused before its first row is in, or every
later statement goes through and the creator has the row of a member of the
space at the end (`atomic_iff`). `create` misses that row where the creator is
in `members` for another space: the key is the id of the member alone, and the
insert is `OR IGNORE`. `join` never inserts it.
-/

namespace HomeTier

open Lib ConfigJson

namespace SpaceRecords

/-- A call of `create` or of `join`. -/
inductive RecordCall where
  | create (relayPrefix name networkSecret : Str) (description : Option Str)
  | join (config : ConfigData) (name : Option Str)

section Calls

variable (foreignKeys : Bool) (networkOf : Str → Option Str)

def RecordCall.run (m : Manager) (io : RecordIo) : RecordCall → Except Str SpaceRow × Manager
  | .create relayPrefix name networkSecret description =>
    SpaceRecords.create foreignKeys networkOf m relayPrefix name networkSecret description io
  | .join config name => SpaceRecords.join networkOf m config name io

/-- The configuration of the space. -/
def RecordCall.config (io : RecordIo) : RecordCall → ConfigData
  | .create relayPrefix name networkSecret _ =>
    createConfig networkOf io.fresh io.userConfig.toOption.join io.id (relayPrefix ++ name)
      networkSecret
  | .join config _ => joinConfig networkOf io.id config

/-- The user has the row of a member of the space. -/
def Db.hasMember (db : Db) (user : Str) (id : Uuid) : Bool :=
  db.members.any fun row => row.id = user ∧ row.spaceId = id

/-- The space is in the table and in memory, with its configuration and with its
creator as a member. -/
structure Stored (io : RecordIo) (config : ConfigData) (space : SpaceRow) (m : Manager) : Prop where
  drawn : space.id = io.id
  configured : space.configJson = some (writeConfig config)
  inTable : space ∈ m.db.spaces
  inMemory : space ∈ m.spaces
  owned : m.db.hasMember io.creator io.id = true

/-- All or nothing. -/
def Atomic (m : Manager) (io : RecordIo) (config : ConfigData) :
    Except Str SpaceRow × Manager → Prop
  | (.error _, m') => m' = m
  | (.ok space, m') => Stored io config space m'

/-- The user cannot be read, or the row of the space is not inserted. -/
def Refused (m : Manager) (io : RecordIo) : Prop :=
  (∃ e, io.userId = .error e) ∨ (∃ e, io.spaceInserted = .error e) ∨ m.db.hasSpace io.id = true

/-- The statements after the first go through, and the creator is a member of
the space at the end. -/
def RecordCall.GoesThrough (m : Manager) (io : RecordIo) : RecordCall → Prop
  | .create .. =>
    io.memberAdded = .ok () ∧ (∃ userConfig, io.userConfig = .ok userConfig) ∧
      io.configUpdated = .ok () ∧
      (m.db.members.any (·.id = io.creator) = false ∨ m.db.hasMember io.creator io.id = true)
  | .join .. => io.configUpdated = .ok () ∧ m.db.hasMember io.creator io.id = true

variable {foreignKeys networkOf} {m : Manager} {io : RecordIo} {config : ConfigData}

/-! ## The first statement -/

theorem refused_or_begun (m : Manager) (io : RecordIo) :
    Refused m io ∨
      ∃ userId, io.userId = .ok userId ∧ io.spaceInserted = .ok () ∧ m.db.hasSpace io.id = false := by
  unfold Refused
  cases io.userId with
  | error e => exact .inl (.inl ⟨e, rfl⟩)
  | ok userId =>
    cases io.spaceInserted with
    | error e => exact .inl (.inr (.inl ⟨e, rfl⟩))
    | ok _ =>
      cases m.db.hasSpace io.id with
      | true => exact .inl (.inr (.inr rfl))
      | false => exact .inr ⟨userId, rfl, rfl, rfl⟩

theorem insertSpace_refused (row : SpaceRow) (hrow : row.id = io.id)
    (h : (∃ e, io.spaceInserted = .error e) ∨ m.db.hasSpace io.id = true) :
    ∃ e, insertSpace m.db row io.spaceInserted = .error e := by
  rcases h with ⟨e, he⟩ | hhas
  · exact ⟨_, by rw [he, insertSpace]⟩
  · cases io.spaceInserted with
    | error e => exact ⟨_, rfl⟩
    | ok _ => exact ⟨_, by rw [insertSpace, hrow, if_pos hhas]⟩

/-- A call that is refused changes nothing. -/
theorem atomic_of_refused (h : Refused m io) (call : RecordCall) :
    Atomic m io config (call.run foreignKeys networkOf m io) := by
  cases call with
  | create relayPrefix name networkSecret description =>
    rw [RecordCall.run, create]
    cases huser : io.userId with
    | error e => exact rfl
    | ok userId =>
      rcases h with ⟨e, he⟩ | h
      · rw [huser] at he
        cases he
      · obtain ⟨e, he⟩ := insertSpace_refused (newRow io (userId.getD localUser) name
          (relayPrefix ++ name) networkSecret description) rfl h
        simp only [he]
        exact rfl
  | join cfg name =>
    rw [RecordCall.run, join]
    cases huser : io.userId with
    | error e => exact rfl
    | ok userId =>
      rcases h with ⟨e, he⟩ | h
      · rw [huser] at he
        cases he
      · obtain ⟨e, he⟩ := insertSpace_refused (newRow io (userId.getD localUser)
          (name.getD (textField "network_name" cfg)) (textField "network_name" cfg)
          (textField "network_secret" cfg) none) rfl h
        simp only [he]
        exact rfl

theorem insertSpace_begun {row : SpaceRow} (hrow : row.id = io.id)
    (hinserted : io.spaceInserted = .ok ()) (hnew : m.db.hasSpace io.id = false) :
    insertSpace m.db row io.spaceInserted = .ok { m.db with spaces := m.db.spaces ++ [row] } := by
  rw [hinserted, insertSpace, hrow, hnew]
  rfl

/-! ## The later statements -/

/-- Once the row of the space is in, a failure leaves it behind. -/
theorem not_atomic_of_row {db : Db} {row : SpaceRow} (hspaces : db.spaces = m.db.spaces ++ [row])
    (e : Str) : ¬ Atomic m io config (.error e, { m with db := db }) := by
  intro h
  have hdb : db = m.db := congrArg Manager.db h
  rw [hdb] at hspaces
  simp at hspaces

theorem atomic_storeConfig {db : Db} {row : SpaceRow} (hspaces : db.spaces = m.db.spaces ++ [row])
    (hrow : row.id = io.id) :
    Atomic m io config (storeConfig m db io row config) ↔
      io.configUpdated = .ok () ∧ db.hasMember io.creator io.id = true := by
  rw [storeConfig]
  cases io.configUpdated with
  | error e => exact iff_of_false (not_atomic_of_row hspaces _) (fun h => nomatch h.1)
  | ok _ =>
    simp only [updateSpaceConfig, true_and]
    constructor
    · intro h
      exact h.owned
    · intro howned
      -- the row that is answered is the one just inserted, with the configuration
      exact {
        drawn := hrow
        configured := rfl
        inTable := List.mem_map.2 ⟨row, by simp [hspaces], if_pos rfl⟩
        inMemory := by simp
        owned := howned }

/-- The owner row is added to a space that is in the table. -/
theorem addMember_begun {db : Db} {member : MemberRow} (hhas : db.hasSpace member.spaceId = true) :
    addMember foreignKeys db member (.ok ()) =
      .ok (if db.members.any (·.id = member.id) then db
        else { db with members := db.members ++ [member] }) := by
  rw [addMember]
  split
  · rfl
  · simp [hhas]

theorem hasMember_addMember (db : Db) (member : MemberRow) :
    (if db.members.any (·.id = member.id) then db
      else { db with members := db.members ++ [member] }).hasMember member.id member.spaceId = true ↔
      db.members.any (·.id = member.id) = false ∨ db.hasMember member.id member.spaceId = true := by
  cases hkey : db.members.any (·.id = member.id) with
  | true => simp
  | false => simp [Db.hasMember]

theorem atomic_create (relayPrefix name networkSecret : Str) (description : Option Str)
    {userId : Option Str} (huser : io.userId = .ok userId) (hinserted : io.spaceInserted = .ok ())
    (hnew : m.db.hasSpace io.id = false) :
    let call := RecordCall.create relayPrefix name networkSecret description
    Atomic m io (call.config networkOf io) (call.run foreignKeys networkOf m io) ↔
      call.GoesThrough m io := by
  intro call
  have hcreator : io.creator = userId.getD localUser := by rw [RecordIo.creator, huser]
  simp only [call, RecordCall.run, RecordCall.config, RecordCall.GoesThrough, create, huser]
  rw [insertSpace_begun rfl hinserted hnew, ← hcreator]
  generalize hrow : newRow io io.creator name (relayPrefix ++ name) networkSecret description = row
  have hid : row.id = io.id := by rw [← hrow]; rfl
  have hname : row.networkName = relayPrefix ++ name := by rw [← hrow]; rfl
  simp only
  cases hadded : io.memberAdded with
  | error e => simpa [addMember] using not_atomic_of_row rfl _
  | ok _ =>
    rw [addMember_begun (by simp [Db.hasSpace, ownerRow, hid])]
    have hmember := hasMember_addMember { m.db with spaces := m.db.spaces ++ [row] }
      (ownerRow io io.creator name)
    have hspaces : (if m.db.members.any (·.id = (ownerRow io io.creator name).id) then
        ({ m.db with spaces := m.db.spaces ++ [row] } : Db)
        else { m.db with
          spaces := m.db.spaces ++ [row]
          members := m.db.members ++ [ownerRow io io.creator name] }).spaces =
          m.db.spaces ++ [row] := by
      split <;> rfl
    simp only
    cases hconfig : io.userConfig with
    | error e => simpa using not_atomic_of_row hspaces _
    | ok userConfig =>
      simp only [hname]
      refine (atomic_storeConfig hspaces hid).trans ?_
      simp only [true_and, Except.ok.injEq, exists_eq']
      exact and_congr_right fun _ => hmember

theorem atomic_join (cfg : ConfigData) (name : Option Str) {userId : Option Str}
    (huser : io.userId = .ok userId) (hinserted : io.spaceInserted = .ok ())
    (hnew : m.db.hasSpace io.id = false) :
    Atomic m io ((RecordCall.join cfg name).config networkOf io)
        ((RecordCall.join cfg name).run foreignKeys networkOf m io) ↔
      (RecordCall.join cfg name).GoesThrough m io := by
  simp only [RecordCall.run, RecordCall.config, RecordCall.GoesThrough, join, huser]
  rw [insertSpace_begun rfl hinserted hnew]
  exact atomic_storeConfig rfl rfl

/-- A call of `create` or `join` is atomic exactly if it is refused before its
first row is in, or goes through with the creator as a member at the end. -/
theorem atomic_iff (foreignKeys : Bool) (networkOf : Str → Option Str) (m : Manager) (io : RecordIo)
    (call : RecordCall) :
    Atomic m io (call.config networkOf io) (call.run foreignKeys networkOf m io) ↔
      Refused m io ∨ call.GoesThrough m io := by
  rcases refused_or_begun m io with hrefused | ⟨userId, huser, hinserted, hnew⟩
  · exact iff_of_true (atomic_of_refused hrefused call) (.inl hrefused)
  · have hbegun : ¬ Refused m io := by
      rintro (⟨e, he⟩ | ⟨e, he⟩ | hhas)
      · exact nomatch huser.symm.trans he
      · exact nomatch hinserted.symm.trans he
      · exact absurd (hnew.symm.trans hhas) (by decide)
    rw [or_iff_right hbegun]
    cases call with
    | create relayPrefix name networkSecret description =>
      exact atomic_create relayPrefix name networkSecret description huser hinserted hnew
    | join cfg name => exact atomic_join cfg name huser hinserted hnew

/-- A call of a user whose last statement fails. -/
def lockedIo : RecordIo :=
  { grantedIo 1 "anna".toList with configUpdated := .error "database is locked".toList }

/-- Where the configuration cannot be written, `create` returns the error and
leaves a space without one. -/
theorem failed_create_leaves_space :
    ¬ ∀ (foreignKeys : Bool) (networkOf : Str → Option Str) (m : Manager) (io : RecordIo)
      (call : RecordCall),
      Atomic m io (call.config networkOf io) (call.run foreignKeys networkOf m io) := by
  intro h
  have hspace := h true (fun _ => none) ⟨⟨[], []⟩, []⟩ lockedIo
    (.create "HomeTier-".toList "club".toList "s".toList none)
  -- the row of the space is in the table, although the call fails
  exact not_atomic_of_row rfl _ hspace

end Calls

end SpaceRecords

end HomeTier
