import HomeTier.Lib.Trace
import HomeTier.Space.Records

/-! # Owner rows

Runs of `create`, `join`, `delete` and `list` on one machine, by whatever user
the machine has at the time. `create` gives its user a member row with the owner
role, but the key of `members` is the id of the member alone and the insert is
`OR IGNORE`: a user who has a row anywhere gets none.

So each space has its owner row exactly along the runs in which no `create` that
goes through finds a row of its user (`owned_iff`).
-/

namespace HomeTier

open Lib ConfigJson

namespace SpaceRecords

/-! ## Runs -/

/-- The manager of a machine; `created` holds each space whose `create` returned
`Ok`, with its creator, and `drawn` the ids drawn so far. -/
structure Machine where
  manager : Manager
  created : List (Uuid × Str)
  drawn : List Uuid

inductive Act where
  | create (relayPrefix name networkSecret : Str) (description : Option Str) (io : RecordIo)
  | join (config : ConfigData) (name : Option Str) (io : RecordIo)
  | delete (id : Uuid) (io : DeleteIo)
  | list (rows : Except Str Unit)
  /-- The app is started again: no space is in memory. -/
  | restart

section Runs

variable (foreignKeys : Bool) (networkOf : Str → Option Str)

/-- `Uuid::new_v4` does not draw an id twice. -/
def step (s : Machine) : Act → Option Machine
  | .create relayPrefix name networkSecret description io =>
    if s.drawn.contains io.id then none
    else
      let result :=
        create foreignKeys networkOf s.manager relayPrefix name networkSecret description io
      some {
        manager := result.2
        created :=
          match result.1 with
          | .ok _ => s.created ++ [(io.id, io.creator)]
          | .error _ => s.created
        drawn := s.drawn ++ [io.id] }
  | .join config name io =>
    if s.drawn.contains io.id then none
    else
      some { s with
        manager := (join networkOf s.manager config name io).2
        drawn := s.drawn ++ [io.id] }
  | .delete id io => some { s with manager := (delete foreignKeys s.manager id io).2 }
  | .list rows => some { s with manager := list s.manager rows }
  | .restart => some { s with manager := { s.manager with spaces := [] } }

def start : Machine := ⟨⟨⟨[], []⟩, []⟩, [], []⟩

/-! ## Owner rows -/

def ownerRows (db : Db) (space : Uuid) : List MemberRow :=
  db.members.filter fun row => row.spaceId = space ∧ row.isOwner

/-- Each space that was created here and is still there has one owner row, and
it is that of its creator. -/
def Owned (s : Machine) : Prop :=
  ∀ p ∈ s.created, s.manager.db.hasSpace p.1 = true →
    ∃ row, ownerRows s.manager.db p.1 = [row] ∧ row.id = p.2

/-- The space that is created or deleted. -/
def Act.space : Act → Option Uuid
  | .create _ _ _ _ io => some io.id
  | .delete id _ => some id
  | _ => none

/-- The other spaces keep their owner rows. -/
def KeepsOthers (s : Machine) (a : Act) : Prop :=
  ∀ other, a.space ≠ some other → ∀ s', step foreignKeys networkOf s a = some s' →
    ownerRows s'.manager.db other = ownerRows s.manager.db other

/-- A `create` that goes through finds no member row of its user. -/
def Unheld (s : Machine) : Act → Prop
  | .create relayPrefix name networkSecret description io =>
    ∀ space,
      (create foreignKeys networkOf s.manager relayPrefix name networkSecret description io).1 =
        .ok space → s.manager.db.members.any (·.id = io.creator) = false
  | _ => True

/-- The spaces and rows there are have ids that were drawn. -/
structure Drawn (s : Machine) : Prop where
  created : ∀ p ∈ s.created, p.1 ∈ s.drawn
  members : ∀ row ∈ s.manager.db.members, row.spaceId ∈ s.drawn

variable {foreignKeys networkOf}

theorem step_create {s s' : Machine} {relayPrefix name networkSecret : Str}
    {description : Option Str} {io : RecordIo}
    (h : step foreignKeys networkOf s (.create relayPrefix name networkSecret description io) =
      some s') :
    io.id ∉ s.drawn ∧ s'.drawn = s.drawn ++ [io.id] ∧
      s'.manager =
        (create foreignKeys networkOf s.manager relayPrefix name networkSecret description io).2 ∧
      ((∃ space, (create foreignKeys networkOf s.manager relayPrefix name networkSecret description
          io).1 = .ok space ∧ s'.created = s.created ++ [(io.id, io.creator)]) ∨
        (∃ e, (create foreignKeys networkOf s.manager relayPrefix name networkSecret description
          io).1 = .error e ∧ s'.created = s.created)) := by
  simp only [step] at h
  split at h
  · cases h
  · rename_i hfresh
    obtain rfl := Option.some.inj h
    refine ⟨by simpa using hfresh, rfl, rfl, ?_⟩
    cases (create foreignKeys networkOf s.manager relayPrefix name networkSecret description
      io).1 with
    | ok space => exact .inl ⟨space, rfl, rfl⟩
    | error e => exact .inr ⟨e, rfl, rfl⟩

theorem step_join {s s' : Machine} {config : ConfigData} {name : Option Str} {io : RecordIo}
    (h : step foreignKeys networkOf s (.join config name io) = some s') :
    io.id ∉ s.drawn ∧ s' = { s with
      manager := (join networkOf s.manager config name io).2
      drawn := s.drawn ++ [io.id] } := by
  simp only [step] at h
  split at h
  · cases h
  · rename_i hfresh
    exact ⟨by simpa using hfresh, (Option.some.inj h).symm⟩

/-! ## The rows of the other spaces -/

theorem ownerRows_of_members {db db' : Db} (h : db'.members = db.members) (space : Uuid) :
    ownerRows db' space = ownerRows db space := by
  rw [ownerRows, ownerRows, h]

theorem ownerRows_append {db db' : Db} {row : MemberRow} {space : Uuid}
    (h : db'.members = db.members ++ [row]) (hne : row.spaceId ≠ space) :
    ownerRows db' space = ownerRows db space := by
  rw [ownerRows, ownerRows, h, List.filter_append]
  simp [hne]

theorem ownerRows_filter {db db' : Db} {id space : Uuid}
    (h : db'.members = db.members.filter (·.spaceId ≠ id)) (hne : id ≠ space) :
    ownerRows db' space = ownerRows db space := by
  rw [ownerRows, ownerRows, h, List.filter_filter]
  congr 1
  funext row
  by_cases hrow : row.spaceId = space
  · simp [hrow, hne.symm]
  · simp [hrow]

/-- `create` leaves the owner rows of the other spaces. -/
theorem ownerRows_create {m : Manager} {relayPrefix name networkSecret : Str}
    {description : Option Str} {io : RecordIo} {other : Uuid} (hne : io.id ≠ other) :
    ownerRows (create foreignKeys networkOf m relayPrefix name networkSecret description io).2.db
      other = ownerRows m.db other := by
  rcases create_db foreignKeys networkOf m relayPrefix name
    networkSecret description io with ⟨-, hmembers | hmembers, -⟩
  · exact ownerRows_of_members hmembers other
  · exact ownerRows_append hmembers hne

theorem ownerRows_delete {m : Manager} {id other : Uuid} {io : DeleteIo} (hne : id ≠ other) :
    ownerRows (delete foreignKeys m id io).2.db other = ownerRows m.db other := by
  rcases delete_db foreignKeys m id io with hsame | ⟨-, -, hmembers | hmembers⟩
  · rw [hsame]
  · exact ownerRows_of_members hmembers other
  · exact ownerRows_filter hmembers hne

theorem list_db (m : Manager) (rows : Except Str Unit) : (list m rows).db = m.db := by
  cases rows <;> rfl

theorem keepsOthers (s : Machine) (a : Act) : KeepsOthers foreignKeys networkOf s a := by
  intro other hother s' hstep
  cases a with
  | create relayPrefix name networkSecret description io =>
    rcases step_create hstep with ⟨-, -, hmanager, -⟩
    rw [hmanager]
    exact ownerRows_create fun heq => hother (congrArg some heq)
  | join config name io =>
    rcases step_join hstep with ⟨-, rfl⟩
    exact ownerRows_of_members (join_db networkOf s.manager config name io).2 other
  | delete id io =>
    obtain rfl := Option.some.inj hstep
    exact ownerRows_delete fun heq => hother (congrArg some heq)
  | list rows =>
    obtain rfl := Option.some.inj hstep
    exact ownerRows_of_members (congrArg Db.members (list_db s.manager rows)) other
  | restart =>
    obtain rfl := Option.some.inj hstep
    rfl

/-! ## Steps -/

theorem drawn_step {s s' : Machine} {a : Act} (h : Drawn s)
    (hstep : step foreignKeys networkOf s a = some s') : Drawn s' := by
  cases a with
  | create relayPrefix name networkSecret description io =>
    rcases step_create hstep with ⟨-, hdrawn, hmanager, hcreated⟩
    constructor
    · intro p hp
      rw [hdrawn]
      -- the id is drawn whether or not the creation succeeds
      rcases hcreated with ⟨space, -, heq⟩ | ⟨e, -, heq⟩
      · rw [heq] at hp
        rcases List.mem_append.1 hp with hp | hp
        · exact List.mem_append_left _ (h.created p hp)
        · obtain rfl : p = (io.id, io.creator) := by simpa using hp
          simp
      · rw [heq] at hp
        exact List.mem_append_left _ (h.created p hp)
    · intro row hrow
      rw [hdrawn]
      rw [hmanager] at hrow
      -- a creation adds its owner's row at most
      rcases create_db foreignKeys networkOf s.manager relayPrefix
        name networkSecret description io with ⟨-, hmembers | hmembers, -⟩
      · rw [hmembers] at hrow
        exact List.mem_append_left _ (h.members row hrow)
      · rw [hmembers] at hrow
        rcases List.mem_append.1 hrow with hrow | hrow
        · exact List.mem_append_left _ (h.members row hrow)
        · obtain rfl : row = ownerRow io io.creator name := by simpa using hrow
          exact List.mem_append_right _ List.mem_cons_self
  | join config name io =>
    rcases step_join hstep with ⟨-, rfl⟩
    constructor
    · intro p hp
      exact List.mem_append_left _ (h.created p hp)
    · intro row hrow
      apply List.mem_append_left
      rw [(join_db networkOf s.manager config name io).2] at hrow
      exact h.members row hrow
  | delete id io =>
    obtain rfl := Option.some.inj hstep
    refine ⟨h.created, ?_⟩
    intro row hrow
    apply h.members row
    -- a deletion only takes members away
    rcases delete_db foreignKeys s.manager id io with
      hsame | ⟨-, -, hmembers | hmembers⟩
    · rw [← hsame]
      exact hrow
    · rw [← hmembers]
      exact hrow
    · rw [hmembers] at hrow
      exact List.mem_of_mem_filter hrow
  | list rows =>
    obtain rfl := Option.some.inj hstep
    refine ⟨h.created, ?_⟩
    intro row hrow
    rw [list_db] at hrow
    exact h.members row hrow
  | restart =>
    obtain rfl := Option.some.inj hstep
    exact ⟨h.created, h.members⟩

/-- The spaces created before have their rows as before, so they are still
owned. -/
theorem owned_of_same {s : Machine} {m' : Manager} {id : Uuid} (howned : Owned s)
    (hspaces : SameSpaces id s.manager.db m'.db)
    (hrows : ∀ other, id ≠ other → ownerRows m'.db other = ownerRows s.manager.db other)
    {p : Uuid × Str} (hp : p ∈ s.created) (hne : p.1 ≠ id) (hlive : m'.db.hasSpace p.1 = true) :
    ∃ row, ownerRows m'.db p.1 = [row] ∧ row.id = p.2 := by
  rw [hspaces p.1 hne] at hlive
  rcases howned p hp hlive with ⟨row, hrow, hid⟩
  exact ⟨row, (hrows p.1 hne.symm).trans hrow, hid⟩

/-- No row belongs to a space whose id has just been drawn. -/
theorem ownerRows_fresh {s : Machine} (h : Drawn s) {id : Uuid} (hfresh : id ∉ s.drawn) :
    ownerRows s.manager.db id = [] := by
  rw [ownerRows, List.filter_eq_nil_iff]
  intro row hrow hspace
  obtain ⟨rfl, -⟩ : row.spaceId = id ∧ row.isOwner = true := by simpa using hspace
  exact hfresh (h.members row hrow)

theorem owned_create {s s' : Machine} {relayPrefix name networkSecret : Str}
    {description : Option Str} {io : RecordIo} (h : Drawn s) (howned : Owned s)
    (hstep : step foreignKeys networkOf s (.create relayPrefix name networkSecret description io) =
      some s') :
    Owned s' ↔
      Unheld foreignKeys networkOf s (.create relayPrefix name networkSecret description io) := by
  rcases step_create hstep with ⟨hfresh, -, hmanager, hcreated⟩
  rcases create_db foreignKeys networkOf s.manager relayPrefix
    name networkSecret description io with ⟨hspaces, -, hok⟩
  rw [← hmanager] at hspaces hok
  have hrows : ∀ other, io.id ≠ other →
      ownerRows s'.manager.db other = ownerRows s.manager.db other := by
    intro other hne
    rw [hmanager]
    exact ownerRows_create hne
  have hold : ∀ p ∈ s.created, s'.manager.db.hasSpace p.1 = true →
      ∃ row, ownerRows s'.manager.db p.1 = [row] ∧ row.id = p.2 := by
    intro p hp hlive
    have hne : p.1 ≠ io.id := fun heq => hfresh (heq ▸ h.created p hp)
    exact owned_of_same howned hspaces hrows hp hne hlive
  have hnone := ownerRows_fresh h hfresh
  rcases hcreated with ⟨space, hspace, heq⟩ | ⟨e, he, heq⟩
  · rcases hok space hspace with ⟨hlive, hmembers⟩
    constructor
    · intro howned' _ _
      rcases howned' (io.id, io.creator) (by simp [heq]) hlive with ⟨row, hrow, -⟩
      -- had the user a row, the space would have none
      by_contra hheld
      rw [if_pos (by simpa using hheld)] at hmembers
      rw [ownerRows_of_members hmembers, hnone] at hrow
      cases hrow
    · intro hunheld p hp hlive'
      rw [heq] at hp
      rcases List.mem_append.1 hp with hp | hp
      · exact hold p hp hlive'
      obtain rfl : p = (io.id, io.creator) := by simpa using hp
      rw [hunheld space hspace] at hmembers
      refine ⟨ownerRow io io.creator name, ?_, rfl⟩
      have hmembers' : s'.manager.db.members =
          s.manager.db.members ++ [ownerRow io io.creator name] := hmembers
      rw [ownerRows] at hnone
      rw [ownerRows, hmembers', List.filter_append, hnone]
      simp [ownerRow]
  · constructor
    · intro _ space hspace
      rw [he] at hspace
      cases hspace
    · intro _ p hp hlive
      rw [heq] at hp
      exact hold p hp hlive

theorem owned_step {s s' : Machine} {a : Act} (h : Drawn s) (howned : Owned s)
    (hstep : step foreignKeys networkOf s a = some s') :
    Owned s' ↔ Unheld foreignKeys networkOf s a := by
  cases a with
  | create relayPrefix name networkSecret description io => exact owned_create h howned hstep
  | join config name io =>
    rcases step_join hstep with ⟨hfresh, rfl⟩
    rcases join_db networkOf s.manager config name io with ⟨hspaces, hmembers⟩
    refine iff_of_true ?_ trivial
    intro p hp hlive
    have hne : p.1 ≠ io.id := fun heq => hfresh (heq ▸ h.created p hp)
    exact owned_of_same howned hspaces (fun other _ => ownerRows_of_members hmembers other) hp hne
      hlive
  | delete id io =>
    obtain rfl := Option.some.inj hstep
    refine iff_of_true ?_ trivial
    intro p hp hlive
    rcases delete_db foreignKeys s.manager id io with hsame | ⟨hgone, hspaces, -⟩
    · simp only [hsame] at hlive ⊢
      exact howned p hp hlive
    · have hne : p.1 ≠ id := by
        intro heq
        have hgone' : (delete foreignKeys s.manager id io).2.db.hasSpace p.1 = false := heq ▸ hgone
        exact absurd (hgone'.symm.trans hlive) (by decide)
      exact owned_of_same howned hspaces (fun other hother => ownerRows_delete hother) hp hne hlive
  | list rows =>
    obtain rfl := Option.some.inj hstep
    refine iff_of_true ?_ trivial
    intro p hp hlive
    simp only [list_db] at hlive ⊢
    exact howned p hp hlive
  | restart =>
    obtain rfl := Option.some.inj hstep
    exact iff_of_true howned trivial

/-- Along every run, each space that was created and is still there has one
owner row, that of its creator, and no operation touches the owner rows of
another space, exactly when no `create` that goes through finds a member row
of its user. -/
theorem owned_iff (foreignKeys : Bool) (networkOf : Str → Option Str) (as : List Act) :
    (Always (step foreignKeys networkOf) Owned start as ∧
      Along (step foreignKeys networkOf) (KeepsOthers foreignKeys networkOf) start as) ↔
    Along (step foreignKeys networkOf) (Unheld foreignKeys networkOf) start as := by
  have hstart : Drawn start :=
    ⟨fun p hp => by simp [start] at hp, fun row hrow => by simp [start] at hrow⟩
  have howned : Owned start := fun p hp => by simp [start] at hp
  rw [and_iff_left (along_of_forall keepsOthers start as)]
  exact always_iff_along (fun _ _ _ => drawn_step) (fun _ _ _ => owned_step) hstart howned as

end Runs

/-! ## Two spaces of one user -/

def homeAndWork : List Act :=
  [.create [] "home".toList [] none (grantedIo 1 "anna".toList),
    .create [] "work".toList [] none (grantedIo 2 "anna".toList)]

theorem work_not_owned : ¬ ∀ (foreignKeys : Bool) (networkOf : Str → Option Str) (as : List Act),
    Always (step foreignKeys networkOf) Owned start as ∧
      Along (step foreignKeys networkOf) (KeepsOthers foreignKeys networkOf) start as := by
  intro h
  have hlast : ∃ s, run (step true fun _ => none) start homeAndWork = some s ∧
      (2, "anna".toList) ∈ s.created ∧ s.manager.db.hasSpace 2 = true ∧
      ownerRows s.manager.db 2 = [] := ⟨_, rfl, by decide, rfl, rfl⟩
  rcases hlast with ⟨s, hrun, hcreated, hlive, hnone⟩
  have howned : Owned s := always_run (h true (fun _ => none) homeAndWork).1 hrun
  rcases howned (2, "anna".toList) hcreated hlive with ⟨row, hrow, -⟩
  rw [hnone] at hrow
  cases hrow

end SpaceRecords

end HomeTier
