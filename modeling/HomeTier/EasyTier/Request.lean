import HomeTier.EasyTier.Manager

/-! # One request to the daemon

A request of the manager is over when the daemon is idle again. What a
`start_network` leaves of its space is decided by the answers to its steps: the
instance by the last answer that starts or removes it
(`serve_connectSpace_running`), the TOML file by the last one that writes or
removes it (`serve_connectSpace_toml`). A `stop_network` leaves other spaces as
they are (`serve_disconnectSpace`).
-/

namespace HomeTier.EasyTierManager

open Lib

/-- A request and the answers to all its steps. -/
def serve (s : St) (request : Act) (acts : List Act) : Option St :=
  (step s request).bind fun s' => runUntil (fun s => s.task = .idle) step s' acts

def Act.startsInstance : Act → Bool
  | .ran answer _ => answer.effect = .started
  | _ => false

def Act.removesInstance : Act → Bool
  | .retain answer => answer.executed
  | .ran answer _ => answer.effect = .removedOld
  | _ => false

/-- The TOML file is there after the failure. -/
def PrepareError.leavesFile : PrepareError → Bool
  | .removeOld => true
  | .ensureBinary => false
  | .generate .translate => false
  | .generate (.writeToml left) => left
  | .generate (.writeJson _) => true

def Act.writesFile : Act → Bool
  | .prepared none => true
  | .prepared (some e) => e.leavesFile
  | .ran _ wrote => wrote
  | _ => false

def Act.removesFile : Act → Bool
  | .prepared (some e) => !e.leavesFile
  | .finished ok => ok
  | _ => false

/-- The manager starts the instance or is done with it. -/
def Starting (id : Uuid) (s : St) : Prop := s.task = .idle ∨ ∃ phase, s.task = .start id phase

section Steps

variable {s s' : St} {a : Act} {id : Uuid}

theorem mem_prepare_toml {error : Option PrepareError}
    (hold : error = some .removeOld → id ∈ s.toml) :
    decide (id ∈ (prepare s id error).toml) = (Act.prepared error).writesFile := by
  rcases error with _ | _ | _ | _ | left | left
  · simp [prepare, generate, Act.writesFile]
  · simp [prepare, Act.writesFile, PrepareError.leavesFile, hold]
  · simp [prepare, Act.writesFile, PrepareError.leavesFile]
  · simp [prepare, generate, Act.writesFile, PrepareError.leavesFile]
  · cases left <;> simp [prepare, generate, leave, Act.writesFile, PrepareError.leavesFile]
  · simp [prepare, generate, Act.writesFile, PrepareError.leavesFile]

/-- Every step of a `start_network` by its phase. -/
theorem startNetwork_step {phase : StartPhase} (h : startNetwork s id phase a = some s') :
    Starting id s' ∧
      decide (id ∈ s'.running) =
        (a.startsInstance || (decide (id ∈ s.running) && !a.removesInstance)) ∧
      decide (id ∈ s'.toml) = (a.writesFile || (decide (id ∈ s.toml) && !a.removesFile)) := by
  unfold startNetwork at h
  split at h
  · -- the core has to be reachable
    rename_i ok
    obtain rfl := Option.some.inj h
    cases ok <;> simp [Starting, Act.startsInstance, Act.removesInstance, Act.writesFile,
      Act.removesFile]
  · -- an attempt to clear the instances
    rename_i attempt cleared answer
    obtain rfl := Option.some.inj h
    refine ⟨.inr ⟨_, rfl⟩, ?_, ?_⟩
    · cases hexec : answer.executed <;>
        simp [clearAll, Act.startsInstance, Act.removesInstance, hexec]
    · cases answer.executed <;> simp [clearAll, Act.writesFile, Act.removesFile]
  · rename_i cleared error
    split at h
    · cases h
    · rename_i hold
      obtain rfl := Option.some.inj h
      have hold' : error = some .removeOld → id ∈ s.toml := by
        intro herr
        by_contra hno
        exact hold ⟨herr, hno⟩
      refine ⟨?_, ?_, ?_⟩
      · cases error <;> simp [Starting]
      · simp [Act.startsInstance, Act.removesInstance]
      · show decide (id ∈ (prepare s id error).toml) = _
        rw [mem_prepare_toml hold']
        -- what a preparation does not write it has removed
        cases error <;> simp [Act.writesFile, Act.removesFile]
  · rename_i cleared ok
    obtain rfl := Option.some.inj h
    cases ok <;> simp [Starting, Act.startsInstance, Act.removesInstance, Act.writesFile,
      Act.removesFile]
  · rename_i cleared answer wrote
    obtain rfl := Option.some.inj h
    refine ⟨?_, ?_, ?_⟩
    · by_cases hok : answer = .ok <;> simp [Starting, hok]
    · by_cases hold : id ∈ s.running <;> cases heff : answer.effect <;>
        simp [runInstance, Act.startsInstance, Act.removesInstance, heff, hold]
    · cases answer.effect <;> cases wrote <;>
        simp [runInstance, Act.writesFile, Act.removesFile]
  · rename_i ok
    obtain rfl := Option.some.inj h
    cases ok <;> simp [Starting, Act.startsInstance, Act.removesInstance, Act.writesFile,
      Act.removesFile]
  · cases h

theorem starting_step (hs : Starting id s) (hended : ¬ s.task = .idle) (h : step s a = some s') :
    Starting id s' ∧
      decide (id ∈ s'.running) =
        (a.startsInstance || (decide (id ∈ s.running) && !a.removesInstance)) ∧
      decide (id ∈ s'.toml) = (a.writesFile || (decide (id ∈ s.toml) && !a.removesFile)) := by
  rcases hs with hidle | ⟨phase, htask⟩
  · exact absurd hidle hended
  · simp only [step, htask] at h
    exact startNetwork_step (s := resume s) h

end Steps

section Requests

variable {s t : St} {id r : Uuid} {acts : List Act}

theorem serve_connectSpace (hidle : s.task = .idle) (h : serve s (.connectSpace id) acts = some t) :
    runUntil (fun s => s.task = .idle) step { resume s with task := .start id .connect } acts =
      some t := by
  simpa [serve, step, hidle, request] using h

theorem serve_connectSpace_running (hidle : s.task = .idle)
    (h : serve s (.connectSpace id) acts = some t) :
    decide (id ∈ t.running) =
      latch Act.startsInstance Act.removesInstance (decide (id ∈ s.running)) acts := by
  have hstep : ∀ (s : St) (a : Act) (s' : St), Starting id s → ¬ s.task = .idle →
      step s a = some s' → Starting id s' ∧
        decide (id ∈ s'.running) = (a.startsInstance || (decide (id ∈ s.running) && !a.removesInstance)) := by
    intro s a s' hs hended hstep
    rcases starting_step hs hended hstep with ⟨hs', hrunning, htoml⟩
    exact ⟨hs', hrunning⟩
  have hlatch := runUntil_latch (Starting id) (fun s => decide (id ∈ s.running)) hstep
    (.inr ⟨_, rfl⟩) (serve_connectSpace hidle h)
  exact hlatch

theorem serve_connectSpace_toml (hidle : s.task = .idle)
    (h : serve s (.connectSpace id) acts = some t) :
    decide (id ∈ t.toml) =
      latch Act.writesFile Act.removesFile (decide (id ∈ s.toml)) acts := by
  have hstep : ∀ (s : St) (a : Act) (s' : St), Starting id s → ¬ s.task = .idle →
      step s a = some s' → Starting id s' ∧
        decide (id ∈ s'.toml) = (a.writesFile || (decide (id ∈ s.toml) && !a.removesFile)) := by
    intro s a s' hs hended hstep
    rcases starting_step hs hended hstep with ⟨hs', hrunning, htoml⟩
    exact ⟨hs', htoml⟩
  have hlatch := runUntil_latch (Starting id) (fun s => decide (id ∈ s.toml)) hstep
    (.inr ⟨_, rfl⟩) (serve_connectSpace hidle h)
  exact hlatch

/-- Only the last step returns, and what it returns runs. -/
theorem startNetwork_return {phase : StartPhase} {a : Act} {s' : St} (hs : s.started = none)
    (hfinish : phase = .finish → id ∈ s.running) (h : startNetwork s id phase a = some s') :
    (s'.task = .idle ∧ (s'.started = some id ↔ a = .finished true) ∧
        (s'.started = some id → id ∈ s'.running)) ∨
      (a ≠ .finished true ∧
        ∃ phase', s'.task = .start id phase' ∧ (phase' = .finish → id ∈ s'.running)) := by
  unfold startNetwork at h
  split at h
  · rename_i ok
    obtain rfl := Option.some.inj h
    cases ok <;> simp [hs]
  · rename_i attempt cleared answer
    obtain rfl := Option.some.inj h
    refine .inr ⟨Act.noConfusion, _, rfl, ?_⟩
    split <;> exact StartPhase.noConfusion
  · rename_i cleared error
    split at h
    · cases h
    · obtain rfl := Option.some.inj h
      cases error <;> simp [hs]
  · rename_i cleared ok
    obtain rfl := Option.some.inj h
    cases ok <;> simp [hs]
  · rename_i cleared answer wrote
    obtain rfl := Option.some.inj h
    by_cases hok : answer = .ok
    · -- the core has started the instance
      subst hok
      exact .inr ⟨Act.noConfusion, .finish, by simp, by simp [runInstance, RunAnswer.effect]⟩
    · exact .inl (by simp [hok, hs])
  · rename_i ok
    obtain rfl := Option.some.inj h
    cases ok with
    | true => exact .inl (by simpa using hfinish rfl)
    | false => exact .inl (by simp [hs])
  · cases h

theorem runUntil_start (hs : ∃ phase, s.task = .start id phase ∧ (phase = .finish → id ∈ s.running))
    (h : runUntil (fun s => s.task = .idle) step s acts = some t) :
    (t.started = some id ↔ Act.finished true ∈ acts) ∧ (t.started = some id → id ∈ t.running) := by
  induction acts generalizing s with
  | nil =>
    rcases runUntil_nil h with ⟨hidle, -⟩
    rcases hs with ⟨phase, htask, -⟩
    rw [htask] at hidle
    cases hidle
  | cons a acts ih =>
    rcases runUntil_cons h with ⟨-, s', hstep, hrest⟩
    rcases hs with ⟨phase, htask, hfinish⟩
    simp only [step, htask] at hstep
    rcases startNetwork_return (s := resume s) rfl hfinish hstep with ⟨hidle, hret, hrun⟩ | ⟨hne, hs'⟩
    · -- nothing follows the last step
      cases acts with
      | nil =>
        rcases runUntil_nil hrest with ⟨-, rfl⟩
        refine ⟨hret.trans ?_, hrun⟩
        rw [List.mem_singleton]
        exact eq_comm
      | cons b acts => exact absurd hidle (runUntil_cons hrest).1
    · rcases ih hs' hrest with ⟨hret, hrun⟩
      refine ⟨hret.trans ?_, hrun⟩
      rw [List.mem_cons]
      constructor
      · exact Or.inr
      · rintro (rfl | hmem)
        · exact absurd rfl hne
        · exact hmem

/-- A `start_network` returns `Ok` when its last step does, and the instance runs then. -/
theorem serve_connectSpace_started (hidle : s.task = .idle)
    (h : serve s (.connectSpace id) acts = some t) :
    (t.started = some id ↔ Act.finished true ∈ acts) ∧ (t.started = some id → id ∈ t.running) := by
  have hreturn := runUntil_start ⟨.connect, rfl, StartPhase.noConfusion⟩ (serve_connectSpace hidle h)
  exact hreturn

theorem stopNetwork_step {phase : StopPhase} {a : Act} {s' : St} (hne : id ≠ r)
    (h : stopNetwork s r [] phase a = some s') :
    (s'.task = .idle ∨ ∃ phase, s'.task = .stop r [] phase) ∧
      (id ∈ s'.running ↔ id ∈ s.running) ∧ (id ∈ s'.toml ↔ id ∈ s.toml) := by
  unfold stopNetwork at h
  split at h
  · rename_i ok
    obtain rfl := Option.some.inj h
    cases ok <;> simp [stopNext]
  · rename_i removed removedFile
    obtain rfl := Option.some.inj h
    cases removed <;> cases removedFile <;> simp [stopNext, hne]
  · cases h

theorem runUntil_stop (hne : id ≠ r)
    (hs : s.task = .idle ∨ ∃ phase, s.task = .stop r [] phase)
    (h : runUntil (fun s => s.task = .idle) step s acts = some t) :
    (id ∈ t.running ↔ id ∈ s.running) ∧ (id ∈ t.toml ↔ id ∈ s.toml) := by
  induction acts generalizing s with
  | nil =>
    rcases runUntil_nil h with ⟨-, rfl⟩
    exact ⟨Iff.rfl, Iff.rfl⟩
  | cons a acts ih =>
    rcases runUntil_cons h with ⟨hended, s', hstep, hrest⟩
    rcases hs with hidle | ⟨phase, htask⟩
    · exact absurd hidle hended
    · simp only [step, htask] at hstep
      rcases stopNetwork_step (s := resume s) hne hstep with ⟨hs', hrunning, htoml⟩
      rcases ih hs' hrest with ⟨hrunning', htoml'⟩
      exact ⟨hrunning'.trans hrunning, htoml'.trans htoml⟩

/-- Another space is left as it is. -/
theorem serve_disconnectSpace (hidle : s.task = .idle) (hne : id ≠ r)
    (h : serve s (.disconnectSpace r) acts = some t) :
    (id ∈ t.running ↔ id ∈ s.running) ∧ (id ∈ t.toml ↔ id ∈ s.toml) := by
  have hrun : runUntil (fun s => s.task = .idle) step
      { resume s with task := .stop r [] .connect } acts = some t := by
    simpa [serve, step, hidle, request] using h
  have hothers := runUntil_stop hne (.inr ⟨_, rfl⟩) hrun
  exact hothers

end Requests

end HomeTier.EasyTierManager
