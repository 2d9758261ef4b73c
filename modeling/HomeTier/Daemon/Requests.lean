import HomeTier.Lib.Text
import HomeTier.EasyTier.Manager

/-! # What the daemon says is running

`handle_request` and `stop_all` of `src-tauri/src/daemon/mod.rs` over the
network manager, for requests during which every RPC to the core succeeds. What
runs is recorded three times: by the instances of the core, by the TOML files
(`list_saved`, `list_running`, `is_running`) and in `connected_spaces`. A
request comes with the outcome of its local file operations; a space id comes as
text, and `parse` is `Uuid::parse_str`.

1. The records agree after every request of a run exactly when each request
   satisfies `Keeps` (`agree_iff`).
2. `start_network` removes the TOML file of the instance it has started, so a
   `ConnectSpace` that succeeds always breaks the agreement
   (`connected_space_is_not_listed`).
-/

namespace HomeTier.Daemon

open Lib EasyTierManager

structure St where
  easytier : EasyTierManager.St
  connectedSpaces : List Str

/-- Requests that change something, with how their local steps end. -/
inductive IpcRequest where
  /-- `configOk`: the configuration is read as a `NetworkConfig`. -/
  | connectSpace (spaceId : Str) (configOk : Bool) (prepared : Option PrepareError)
      (wrote finished : Bool)
  | disconnectSpace (spaceId : Str) (removedFile : Bool)
  | patchConfig (spaceId : Str) (read : Bool) (generated : Option GenerateError) (wrote : Bool)
  /-- The TOML files in the order they are found, and whether each is removed. -/
  | stopAll (order : List (Uuid × Bool))

/-! ## Steps of the manager for one request -/

/-- `start_network`, after which nothing runs when the preparation fails. -/
def startActs (id : Uuid) (prepared : Option PrepareError) (wrote finished : Bool) : List Act :=
  [.connectSpace id, .connected true, .retain .ok, .prepared prepared] ++
    if prepared = none then [.connected true, .ran .ok wrote, .finished finished] else []

def stopActs (id : Uuid) (removedFile : Bool) : List Act :=
  [.disconnectSpace id, .connected true, .deleted true removedFile]

def patchActs (id : Uuid) (read : Bool) (generated : Option GenerateError) (wrote : Bool) :
    List Act :=
  [.patchConfig id, .configRead read] ++
    if read = true then
      .generated generated ::
        if generated = none then [.connected true, .ran .ok wrote] else []
    else []

def stopAllActs (order : List (Uuid × Bool)) : List Act :=
  .stopAll (order.map (·.1)) :: order.flatMap fun o => [.connected true, .deleted true o.2]

/-- `if !contains { push }` -/
def push (spaceId : Str) (spaces : List Str) : List Str :=
  if spaceId ∈ spaces then spaces else spaces ++ [spaceId]

/-- The state after a request; `none` when the manager does not take these steps. -/
def handleRequest (parse : Str → Option Uuid) (s : St) : IpcRequest → Option St
  | .connectSpace spaceId configOk prepared wrote finished =>
    match configOk, parse spaceId with
    | true, some id =>
      (run EasyTierManager.step s.easytier (startActs id prepared wrote finished)).map fun e =>
        { easytier := e
          connectedSpaces :=
            if e.started = some id then push spaceId s.connectedSpaces else s.connectedSpaces }
    | _, _ => some s
  | .disconnectSpace spaceId removedFile =>
    match parse spaceId with
    | some id =>
      (run EasyTierManager.step s.easytier (stopActs id removedFile)).map fun e =>
        { easytier := e, connectedSpaces := s.connectedSpaces.filter (· ≠ spaceId) }
    | none => some s
  | .patchConfig spaceId read generated wrote =>
    match parse spaceId with
    | some id =>
      (run EasyTierManager.step s.easytier (patchActs id read generated wrote)).map fun e =>
        { easytier := e
          connectedSpaces :=
            if read = true ∧ generated = none then push spaceId s.connectedSpaces
            else s.connectedSpaces }
    | none => some s
  | .stopAll order =>
    (run EasyTierManager.step s.easytier (stopAllActs order)).map fun e =>
      { easytier := e, connectedSpaces := [] }

/-- A daemon that has removed the TOML files of its predecessor; the JSON files
are still there. -/
def init (json : Finset Uuid) : St where
  easytier := { EasyTierManager.init with json := json }
  connectedSpaces := []

/-! ## The records -/

/-- Answer to `ListSpaces`: a file `<id>.toml` stands for its id. -/
def listSaved (s : St) : Finset Uuid := s.easytier.toml

/-- `list_running` -/
def listRunning (s : St) : Finset Uuid := listSaved s

/-- `is_running` -/
def isRunning (s : St) (id : Uuid) : Bool := decide (id ∈ s.easytier.toml)

/-- The spaces a list of texts stands for. -/
def denoted (parse : Str → Option Uuid) (texts : List Str) : Finset Uuid :=
  (texts.filterMap parse).toFinset

/-- All records show what runs in the core. -/
structure Agree (parse : Str → Option Uuid) (s : St) : Prop where
  listSpaces : listSaved s = s.easytier.running
  listRunning : listRunning s = s.easytier.running
  isRunning : ∀ id, isRunning s id = true ↔ id ∈ s.easytier.running
  connectedSpaces : denoted parse s.connectedSpaces = s.easytier.running

variable {parse : Str → Option Uuid} {s s' : St}

theorem agree_iff_files :
    Agree parse s ↔ s.easytier.toml = s.easytier.running ∧
      denoted parse s.connectedSpaces = s.easytier.running := by
  constructor
  · intro h
    exact ⟨h.listSpaces, h.connectedSpaces⟩
  · rintro ⟨htoml, hconnected⟩
    refine ⟨htoml, htoml, ?_, hconnected⟩
    intro id
    rw [isRunning, htoml, decide_eq_true_iff]

@[simp] theorem mem_denoted {texts : List Str} {id : Uuid} :
    id ∈ denoted parse texts ↔ ∃ t ∈ texts, parse t = some id := by
  simp [denoted]

theorem denoted_push {spaceId : Str} {id : Uuid} (h : parse spaceId = some id)
    (texts : List Str) : denoted parse (push spaceId texts) = insert id (denoted parse texts) := by
  ext u
  rw [Finset.mem_insert, mem_denoted, mem_denoted, push]
  split
  · rename_i hmem
    constructor
    · intro hu
      exact Or.inr hu
    · rintro (rfl | hu)
      · exact ⟨spaceId, hmem, h⟩
      · exact hu
  · constructor
    · rintro ⟨t, ht, htu⟩
      rcases List.mem_append.1 ht with ht | ht
      · exact Or.inr ⟨t, ht, htu⟩
      · rw [List.mem_singleton] at ht
        subst ht
        rw [h] at htu
        exact Or.inl (Option.some.inj htu).symm
    · rintro (rfl | ⟨t, ht, htu⟩)
      · exact ⟨spaceId, by simp, h⟩
      · exact ⟨t, List.mem_append_left _ ht, htu⟩

/-- Removing one spelling of an id removes the id exactly when it has no other. -/
theorem denoted_filter {spaceId : Str} {id : Uuid} (h : parse spaceId = some id)
    (texts : List Str) :
    denoted parse (texts.filter (· ≠ spaceId)) = (denoted parse texts).erase id ↔
      ∀ t ∈ texts, parse t = some id → t = spaceId := by
  constructor
  · intro heq t ht htid
    by_contra hne
    have hmem : id ∈ denoted parse (texts.filter (· ≠ spaceId)) :=
      mem_denoted.2 ⟨t, List.mem_filter.2 ⟨ht, by simpa using hne⟩, htid⟩
    rw [heq] at hmem
    exact Finset.notMem_erase id _ hmem
  · intro hall
    ext u
    rw [Finset.mem_erase, mem_denoted, mem_denoted]
    constructor
    · rintro ⟨t, ht, htu⟩
      rw [List.mem_filter] at ht
      refine ⟨?_, t, ht.1, htu⟩
      rintro rfl
      have := hall t ht.1 htu
      simp [this] at ht
    · rintro ⟨hne, t, ht, htu⟩
      refine ⟨t, List.mem_filter.2 ⟨ht, ?_⟩, htu⟩
      rw [decide_eq_true_iff]
      rintro rfl
      rw [h] at htu
      exact hne (Option.some.inj htu).symm

/-! ## What each request does to the files and the instances -/

section Runs

variable {e e' : EasyTierManager.St}

/-- Files and instances are as given, and the manager is idle. -/
structure Left (e : EasyTierManager.St) (running toml : Finset Uuid) : Prop where
  running : e.running = running
  toml : e.toml = toml
  idle : e.task = .idle

/-- The TOML files a failed preparation leaves. -/
def tomlAfter (toml : Finset Uuid) (id : Uuid) : PrepareError → Finset Uuid
  | .removeOld => toml
  | .ensureBinary => toml.erase id
  | .generate .translate => toml.erase id
  | .generate (.writeToml left) => leave left id (toml.erase id)
  | .generate (.writeJson _) => insert id toml

theorem insert_erase_self (files : Finset Uuid) (id : Uuid) :
    insert id (files.erase id) = insert id files := by
  ext u
  by_cases h : u = id <;> simp [h]

theorem run_start_failed (he : e.task = .idle) {id : Uuid} {error : PrepareError}
    {wrote finished : Bool}
    (h : run EasyTierManager.step e (startActs id (some error) wrote finished) = some e') :
    Left e' ∅ (tomlAfter e.toml id error) ∧ e'.started = none ∧
      (error = .removeOld → id ∈ e.toml) := by
  simp [startActs, run, EasyTierManager.step, he, request, resume, startNetwork, clearAll,
    RetainAnswer.executed] at h
  split at h
  · cases h
  · rename_i hstep
    split at hstep
    · cases hstep
    · rename_i hold
      obtain rfl := Option.some.inj h
      obtain rfl := Option.some.inj hstep
      refine ⟨⟨rfl, ?_, rfl⟩, rfl, ?_⟩
      · rcases error with _ | _ | _ | left | left <;>
          simp [prepare, generate, tomlAfter, insert_erase_self]
      · rintro rfl
        by_contra hnot
        exact hold ⟨rfl, hnot⟩

theorem run_start_ok (he : e.task = .idle) {id : Uuid} {wrote finished : Bool}
    (h : run EasyTierManager.step e (startActs id none wrote finished) = some e') :
    Left e' {id} (if finished then e.toml.erase id else insert id e.toml) ∧
      e'.started = if finished then some id else none := by
  simp [startActs, run, EasyTierManager.step, he, request, resume, startNetwork, clearAll,
    RetainAnswer.executed] at h
  subst h
  cases finished <;> cases wrote <;>
    exact ⟨⟨by simp [runInstance, RunAnswer.effect],
      by simp [runInstance, RunAnswer.effect, prepare, generate, insert_erase_self], by simp⟩,
      by simp⟩

theorem run_stop (he : e.task = .idle) {id : Uuid} {removedFile : Bool}
    (h : run EasyTierManager.step e (stopActs id removedFile) = some e') :
    Left e' (e.running.erase id) (if removedFile then e.toml.erase id else e.toml) := by
  simp [stopActs, run, EasyTierManager.step, he, request, resume, stopNetwork, stopNext] at h
  subst h
  exact ⟨rfl, rfl, rfl⟩

/-- The TOML files a failed `generate_config` leaves. -/
def tomlGenerated (toml : Finset Uuid) (id : Uuid) : GenerateError → Finset Uuid
  | .translate => toml
  | .writeToml left => leave left id toml
  | .writeJson _ => insert id toml

theorem run_patch_unread (he : e.task = .idle) {id : Uuid} {generated : Option GenerateError}
    {wrote : Bool}
    (h : run EasyTierManager.step e (patchActs id false generated wrote) = some e') :
    Left e' e.running e.toml := by
  simp [patchActs, run, EasyTierManager.step, he, request, resume, patchConfig] at h
  subst h
  exact ⟨rfl, rfl, rfl⟩

theorem run_patch_failed (he : e.task = .idle) {id : Uuid} {error : GenerateError} {wrote : Bool}
    (h : run EasyTierManager.step e (patchActs id true (some error) wrote) = some e') :
    Left e' e.running (tomlGenerated e.toml id error) := by
  by_cases hread : id ∈ e.json ∨ id ∈ e.toml
  · simp [patchActs, run, EasyTierManager.step, he, request, resume, patchConfig, hread] at h
    subst h
    exact ⟨rfl, by rcases error with _ | left | left <;> rfl, rfl⟩
  · simp [patchActs, run, EasyTierManager.step, he, request, resume, patchConfig, hread] at h

theorem run_patch_ok (he : e.task = .idle) {id : Uuid} {wrote : Bool}
    (h : run EasyTierManager.step e (patchActs id true none wrote) = some e') :
    Left e' (insert id e.running) (insert id e.toml) := by
  by_cases hread : id ∈ e.json ∨ id ∈ e.toml
  · simp [patchActs, run, EasyTierManager.step, he, request, resume, patchConfig, hread] at h
    subst h
    cases wrote <;>
      exact ⟨by simp [runInstance, RunAnswer.effect],
        by simp [runInstance, RunAnswer.effect, generate], rfl⟩
  · simp [patchActs, run, EasyTierManager.step, he, request, resume, patchConfig, hread] at h

/-- The loop of `stop_all`: a file whose removal fails is left. -/
theorem run_stopAll_loop {order : List (Uuid × Bool)}
    (h : run EasyTierManager.step (stopNext e (order.map (·.1)))
      (order.flatMap fun o => [Act.connected true, .deleted true o.2]) = some e') :
    Left e' (e.running \ (order.map (·.1)).toFinset)
      (e.toml \ ((order.filter (·.2)).map (·.1)).toFinset) := by
  induction order generalizing e with
  | nil =>
    obtain rfl : stopNext e [] = e' := by simpa [run] using h
    exact ⟨by simp, by simp [stopNext], rfl⟩
  | cons o order ih =>
    rcases o with ⟨id, removedFile⟩
    change run EasyTierManager.step { e with task := .stop id (order.map (·.1)) .connect }
      (.connected true :: .deleted true removedFile ::
        order.flatMap fun o => [Act.connected true, .deleted true o.2]) = some e' at h
    simp only [run, EasyTierManager.step, resume, stopNetwork, if_true] at h
    have hrest := ih h
    refine ⟨?_, ?_, hrest.idle⟩
    · rw [hrest.running]
      ext u
      simp
      tauto
    · rw [hrest.toml]
      cases removedFile
      · simp
      · ext u
        simp
        tauto

theorem run_stopAll (he : e.task = .idle) {order : List (Uuid × Bool)}
    (h : run EasyTierManager.step e (stopAllActs order) = some e') :
    Left e' (e.running \ (order.map (·.1)).toFinset)
      (e.toml \ ((order.filter (·.2)).map (·.1)).toFinset) ∧
      Lists (order.map (·.1)) e.toml := by
  rcases run_cons_eq_some h with ⟨e₁, hreq, hloop⟩
  simp only [EasyTierManager.step, he, request, resume] at hreq
  split at hreq
  · rename_i hlists
    obtain rfl := Option.some.inj hreq
    have hleft := run_stopAll_loop hloop
    exact ⟨hleft, hlists⟩
  · cases hreq

end Runs

/-! ## Which requests keep the agreement -/

/-- What a request must find for the records to agree after it, when they agree
before it. -/
def Keeps (parse : Str → Option Uuid) (s : St) : IpcRequest → Prop
  | .connectSpace spaceId configOk prepared _ finished =>
    match configOk, parse spaceId with
    | true, some id =>
      match prepared with
      -- nothing ran, and the failure leaves no TOML file
      | some error => s.easytier.running = ∅ ∧ tomlAfter s.easytier.toml id error = ∅
      -- the space itself ran alone, and its TOML file could not be removed
      | none => finished = false ∧ s.easytier.running = {id}
    | _, _ => True
  | .disconnectSpace spaceId removedFile =>
    match parse spaceId with
    | some id => (removedFile = true ∨ id ∉ s.easytier.toml) ∧
        ∀ t ∈ s.connectedSpaces, parse t = some id → t = spaceId
    | none => True
  | .patchConfig spaceId read generated _ =>
    match parse spaceId, read, generated with
    | some id, true, some error => tomlGenerated s.easytier.toml id error = s.easytier.toml
    | _, _, _ => True
  | .stopAll order => ∀ o ∈ order, o.2 = true

theorem handleRequest_idle {r : IpcRequest} (hs : s.easytier.task = .idle)
    (h : handleRequest parse s r = some s') : s'.easytier.task = .idle := by
  cases r with
  | connectSpace spaceId configOk prepared wrote finished =>
    simp only [handleRequest] at h
    split at h
    · rcases Option.map_eq_some_iff.1 h with ⟨e', hrun, rfl⟩
      cases prepared with
      | none => exact (run_start_ok hs hrun).1.idle
      | some error => exact (run_start_failed hs hrun).1.idle
    · obtain rfl := Option.some.inj h
      exact hs
  | disconnectSpace spaceId removedFile =>
    simp only [handleRequest] at h
    split at h
    · rcases Option.map_eq_some_iff.1 h with ⟨e', hrun, rfl⟩
      exact (run_stop hs hrun).idle
    · obtain rfl := Option.some.inj h
      exact hs
  | patchConfig spaceId read generated wrote =>
    simp only [handleRequest] at h
    split at h
    · rcases Option.map_eq_some_iff.1 h with ⟨e', hrun, rfl⟩
      rcases read with _ | _
      · exact (run_patch_unread hs hrun).idle
      · rcases generated with _ | error
        · exact (run_patch_ok hs hrun).idle
        · exact (run_patch_failed hs hrun).idle
    · obtain rfl := Option.some.inj h
      exact hs
  | stopAll order =>
    rcases Option.map_eq_some_iff.1 h with ⟨e', hrun, rfl⟩
    exact (run_stopAll hs hrun).1.idle

theorem connectSpace_agree {spaceId : Str} {configOk : Bool} {prepared : Option PrepareError}
    {wrote finished : Bool} (hs : s.easytier.task = .idle) (hagree : Agree parse s)
    (h : handleRequest parse s (.connectSpace spaceId configOk prepared wrote finished) = some s') :
    Agree parse s' ↔ Keeps parse s (.connectSpace spaceId configOk prepared wrote finished) := by
  rcases agree_iff_files.1 hagree with ⟨htoml, hconnected⟩
  rw [agree_iff_files]
  simp only [handleRequest] at h
  simp only [Keeps]
  split at h
  · rename_i id hparse
    rcases Option.map_eq_some_iff.1 h with ⟨e', hrun, rfl⟩
    cases prepared with
    | some error =>
      -- all instances are gone and no space is entered
      rcases run_start_failed hs hrun with ⟨hleft, hstarted, -⟩
      simp only [hleft.running, hleft.toml, hstarted, reduceCtorEq, if_false, hconnected]
      exact and_comm
    | none =>
      rcases run_start_ok hs hrun with ⟨hleft, hstarted⟩
      cases finished with
      | true =>
        -- the instance runs and its file is gone
        simp only [hleft.running, hleft.toml, if_true]
        constructor
        · rintro ⟨hbad, -⟩
          have hmem : id ∈ s.easytier.toml.erase id := by
            rw [hbad]
            exact Finset.mem_singleton_self id
          exact absurd hmem (Finset.notMem_erase id _)
        · rintro ⟨hbad, -⟩
          cases hbad
      | false =>
        simp only [hleft.running, hleft.toml, hstarted, Bool.false_eq_true, if_false, reduceCtorEq,
          hconnected, htoml, true_and]
        constructor
        · exact fun h => h.2
        · intro h
          rw [h]
          simp
  · -- refused before anything is done
    obtain rfl := Option.some.inj h
    exact ⟨fun _ => trivial, fun _ => ⟨htoml, hconnected⟩⟩

theorem disconnectSpace_agree {spaceId : Str} {removedFile : Bool}
    (hs : s.easytier.task = .idle) (hagree : Agree parse s)
    (h : handleRequest parse s (.disconnectSpace spaceId removedFile) = some s') :
    Agree parse s' ↔ Keeps parse s (.disconnectSpace spaceId removedFile) := by
  rcases agree_iff_files.1 hagree with ⟨htoml, hconnected⟩
  rw [agree_iff_files]
  simp only [handleRequest] at h
  simp only [Keeps]
  split at h
  · rename_i id hparse
    rcases Option.map_eq_some_iff.1 h with ⟨e', hrun, rfl⟩
    have hleft := run_stop hs hrun
    have hfiles : (if removedFile = true then s.easytier.toml.erase id else s.easytier.toml) =
        s.easytier.toml.erase id ↔ (removedFile = true ∨ id ∉ s.easytier.toml) := by
      cases removedFile with
      | true => simp
      | false =>
        simp only [Bool.false_eq_true, if_false, false_or]
        rw [eq_comm, Finset.erase_eq_self]
    have hspaces := denoted_filter hparse s.connectedSpaces
    rw [hconnected] at hspaces
    rw [hleft.running, hleft.toml, ← htoml, hfiles, htoml, hspaces]
  · obtain rfl := Option.some.inj h
    exact ⟨fun _ => trivial, fun _ => ⟨htoml, hconnected⟩⟩

theorem patchConfig_agree {spaceId : Str} {read : Bool} {generated : Option GenerateError}
    {wrote : Bool} (hs : s.easytier.task = .idle) (hagree : Agree parse s)
    (h : handleRequest parse s (.patchConfig spaceId read generated wrote) = some s') :
    Agree parse s' ↔ Keeps parse s (.patchConfig spaceId read generated wrote) := by
  rcases agree_iff_files.1 hagree with ⟨htoml, hconnected⟩
  rw [agree_iff_files]
  simp only [handleRequest] at h
  simp only [Keeps]
  split at h
  · rename_i id hparse
    rcases Option.map_eq_some_iff.1 h with ⟨e', hrun, rfl⟩
    rcases read with _ | _
    · have hleft := run_patch_unread hs hrun
      simp [hleft.running, hleft.toml, htoml, hconnected]
    · rcases generated with _ | error
      · -- the instance runs, its file is there and it is entered
        have hleft := run_patch_ok hs hrun
        simp [hleft.running, hleft.toml, htoml, denoted_push hparse, hconnected]
      · have hleft := run_patch_failed hs hrun
        simp [hleft.running, hleft.toml, htoml, hconnected, hparse]
  · rename_i hparse
    obtain rfl := Option.some.inj h
    simp [hparse, htoml, hconnected]

theorem stopAll_agree {order : List (Uuid × Bool)} (hs : s.easytier.task = .idle)
    (hagree : Agree parse s) (h : handleRequest parse s (.stopAll order) = some s') :
    Agree parse s' ↔ Keeps parse s (.stopAll order) := by
  rcases agree_iff_files.1 hagree with ⟨htoml, hconnected⟩
  rw [agree_iff_files]
  rcases Option.map_eq_some_iff.1 h with ⟨e', hrun, rfl⟩
  rcases run_stopAll hs hrun with ⟨hleft, hnodup, hlists⟩
  -- every instance has a file, so all are stopped
  have hempty : s.easytier.running \ (order.map (·.1)).toFinset = ∅ := by
    rw [hlists, htoml, Finset.sdiff_self]
  rw [hleft.running, hleft.toml, hempty]
  simp only [Keeps, denoted, List.filterMap_nil, List.toFinset_nil, and_true]
  constructor
  · intro hgone o ho
    by_contra hkept
    have hmem : o.1 ∈ s.easytier.toml \ ((order.filter (·.2)).map (·.1)).toFinset := by
      rw [← hlists, Finset.mem_sdiff, List.mem_toFinset, List.mem_toFinset]
      refine ⟨List.mem_map.2 ⟨o, ho, rfl⟩, ?_⟩
      intro hremoved
      rcases List.mem_map.1 hremoved with ⟨o', ho', heq⟩
      rw [List.mem_filter] at ho'
      -- each file is listed once
      have hsame : o' = o := List.inj_on_of_nodup_map hnodup ho'.1 ho heq
      rw [hsame] at ho'
      exact hkept ho'.2
    rw [hgone] at hmem
    exact absurd hmem (Finset.notMem_empty _)
  · intro hall
    have hfilter : order.filter (·.2) = order := List.filter_eq_self.2 hall
    rw [hfilter, hlists, Finset.sdiff_self]

theorem handleRequest_agree {r : IpcRequest} (hs : s.easytier.task = .idle)
    (hagree : Agree parse s) (h : handleRequest parse s r = some s') :
    Agree parse s' ↔ Keeps parse s r := by
  cases r with
  | connectSpace => exact connectSpace_agree hs hagree h
  | disconnectSpace => exact disconnectSpace_agree hs hagree h
  | patchConfig => exact patchConfig_agree hs hagree h
  | stopAll => exact stopAll_agree hs hagree h

/-- The answer to `ListSpaces`, `list_running`, `is_running` and
`connected_spaces` show after every request what runs in the core exactly when
every request of the run satisfies `Keeps`. -/
theorem agree_iff (parse : Str → Option Uuid) (json : Finset Uuid) (rs : List IpcRequest) :
    Always (handleRequest parse) (Agree parse) (init json) rs ↔
      Along (handleRequest parse) (Keeps parse) (init json) rs := by
  apply always_iff_along (J := fun s => s.easytier.task = .idle)
  · intro s r s' hs h
    exact handleRequest_idle hs h
  · intro s r s' hs hagree h
    exact handleRequest_agree hs hagree h
  · rfl
  · exact agree_iff_files.2 ⟨rfl, rfl⟩

def oneId : Str := "00000000-0000-0000-0000-000000000001".toList

/-- A first `ConnectSpace` that succeeds: the instance runs and the space is
entered, but no list shows it. -/
theorem connected_space_is_not_listed :
    ∃ s, run (handleRequest fun t => if t = oneId then some 1 else none) (init ∅)
        [.connectSpace oneId true none true true] = some s ∧
      s.easytier.running = {1} ∧ s.connectedSpaces = [oneId] ∧
      listSaved s = ∅ ∧ listRunning s = ∅ ∧ isRunning s 1 = false := by
  refine ⟨_, rfl, ?_⟩
  decide

end HomeTier.Daemon
