import HomeTier.Lib.RwLock

/-! # Locks of the space manager

`SpaceManager` (`src-tauri/src/space/manager.rs`) keeps each of its maps in a
tokio `RwLock`. Modelled are the lock operations, in program order and with the
guards still held, of `connect`, `list`, `get_effective_config` and the chat
listener of `setup.rs`, together with the locks of the servers they call. A
task may return early after any operation.

1. No set of tasks is deadlocked in a run in which `list` asks for its write
   lock on `spaces` only while no `connect` that has `spaces` or `chat_servers`
   still ahead of it holds `spaces` or is queued for it
   (`deadlock_free_of_polite`).
2. A `list` that asks between the two read locks of a `connect` deadlocks with
   it (`list_between_reads_deadlocks`).
-/

namespace HomeTier

open Lib LockState
open LockOp (under)

inductive Lock where
  | spaces
  | chatServers
  | fileServers
  | voiceServers
  | screenServers
  | storageDir
  | cancelTokens
  | connectHandles
  /-- `running` of one chat or file server. -/
  | running (server : Nat)
  /-- `message_queue` of one chat server. -/
  | messageQueue (server : Nat)
deriving DecidableEq, Repr

inductive ManagerTask where
  /-- With the servers it finds in the maps and those it starts. -/
  | connect (oldChat oldFile : Option Nat) (newChat newFile : Nat)
  | list
  | getEffectiveConfig
  /-- Ticks of the loop: for each server, how many messages it has. -/
  | chatListener (ticks : List (List (Nat × Nat)))
deriving DecidableEq, Repr

namespace ManagerTask

def isConnect : ManagerTask → Bool
  | .connect .. => true
  | _ => false

def getEffectiveConfigOps : List (LockOp Lock) := under .spaces .read []

def listOps : List (LockOp Lock) := under .spaces .write []

/-- `stop` of a server and the first statement of `start` write `running`. -/
def setRunning (server : Nat) : List (LockOp Lock) := under (.running server) .write []

/-- `if let Some(old) = map.write().await.remove(..)`: the guard lives to the
end of the block. -/
def stopOld : Option Nat → List (LockOp Lock)
  | none => []
  | some server => setRunning server

def startChatServer (server : Nat) : List (LockOp Lock) :=
  setRunning server ++ under .chatServers .write []

def startFileServer (server : Nat) : List (LockOp Lock) :=
  under .storageDir .read [] ++ (setRunning server ++ under .fileServers .write [])

/-- `connect` keeps its guard on `spaces` to the end. -/
def connectOps (oldChat oldFile : Option Nat) (newChat newFile : Nat) : List (LockOp Lock) :=
  under .spaces .read <|
    getEffectiveConfigOps ++ (
    -- old servers
    under .chatServers .write (stopOld oldChat) ++ (
    under .fileServers .write (stopOld oldFile) ++ (
    under .voiceServers .write [] ++ (
    under .screenServers .write [] ++ (
    -- new servers
    startChatServer newChat ++ (
    startFileServer newFile ++ (
    under .voiceServers .write [] ++ (
    under .screenServers .write [] ++ (
    -- background task
    under .cancelTokens .write [] ++
    under .connectHandles .write [])))))))))

/-- One server of a tick: `drain_messages`, then `spaces` for each message. -/
def drain (server messages : Nat) : List (LockOp Lock) :=
  under (.messageQueue server) .write [] ++
    (List.replicate messages (under .spaces .read [])).flatten

/-- `chat_servers` stays locked while all servers are drained. -/
def tick (servers : List (Nat × Nat)) : List (LockOp Lock) :=
  under .chatServers .read (servers.flatMap fun s => drain s.1 s.2)

def ops : ManagerTask → List (LockOp Lock)
  | .connect oldChat oldFile newChat newFile => connectOps oldChat oldFile newChat newFile
  | .list => listOps
  | .getEffectiveConfig => getEffectiveConfigOps
  | .chatListener ticks => ticks.flatMap tick

end ManagerTask

abbrev ManagerLocks := LockState ManagerTask Lock

namespace ManagerLocks

abbrev step : ManagerLocks → LockEvent ManagerTask → Option ManagerLocks :=
  LockState.step ManagerTask.ops

/-! ## Which locks are asked for under which guards -/

/-- The guards each task may have when it asks for lock `l`. -/
def rule : ManagerTask → List (Lock × Mode) → Lock → Prop
  | .connect .., held, l =>
    held = [] ∨ held = [(.spaces, .read)] ∨
      ((held = [(.chatServers, .write), (.spaces, .read)] ∨
        held = [(.fileServers, .write), (.spaces, .read)]) ∧ ∃ n, l = .running n)
  | .list, held, _ => held = []
  | .getEffectiveConfig, held, _ => held = []
  | .chatListener _, held, l =>
    held = [] ∨ (held = [(.chatServers, .read)] ∧ (l = .spaces ∨ ∃ n, l = .messageQueue n))

theorem guarded_flatMap {α : Type} {φ : List (Lock × Mode) → Lock → Prop}
    {held : List (Lock × Mode)} {f : α → List (LockOp Lock)} {rest : List (LockOp Lock)}
    (hf : ∀ a rest, GuardedBy φ held rest → GuardedBy φ held (f a ++ rest))
    (hrest : GuardedBy φ held rest) (xs : List α) : GuardedBy φ held (xs.flatMap f ++ rest) := by
  induction xs with
  | nil => simpa using hrest
  | cons x xs ih =>
    rw [List.flatMap_cons, List.append_assoc]
    exact hf x _ ih

theorem drain_guarded (ticks : List (List (Nat × Nat))) (server messages : Nat)
    {rest : List (LockOp Lock)}
    (hrest : GuardedBy (rule (.chatListener ticks)) [(.chatServers, .read)] rest) :
    GuardedBy (rule (.chatListener ticks)) [(.chatServers, .read)]
      (ManagerTask.drain server messages ++ rest) := by
  rw [ManagerTask.drain, List.append_assoc, guarded_under]
  refine ⟨Or.inr ⟨rfl, Or.inr ⟨server, rfl⟩⟩, ?_⟩
  show GuardedBy _ [(Lock.chatServers, Mode.read)] _
  -- one more message: one more pair of operations, and the guards are as before
  induction messages with
  | zero => simpa using hrest
  | succ n ih =>
    rw [List.replicate_succ, List.flatten_cons, List.append_assoc, guarded_under]
    exact ⟨Or.inr ⟨rfl, Or.inl rfl⟩, ih⟩

theorem ops_guarded (k : ManagerTask) : GuardedBy (rule k) [] k.ops := by
  cases k with
  | connect oldChat oldFile newChat newFile =>
    cases oldChat <;> cases oldFile <;>
      simp [ManagerTask.ops, ManagerTask.connectOps, ManagerTask.getEffectiveConfigOps,
        ManagerTask.stopOld, ManagerTask.setRunning, ManagerTask.startChatServer,
        ManagerTask.startFileServer, LockOp.under, GuardedBy, rule]
  | list => exact ⟨rfl, trivial⟩
  | getEffectiveConfig => exact ⟨rfl, trivial⟩
  | chatListener ticks =>
    have htick : ∀ servers rest, GuardedBy (rule (.chatListener ticks)) [] rest →
        GuardedBy (rule (.chatListener ticks)) [] (ManagerTask.tick servers ++ rest) := by
      intro servers rest hrest
      rw [ManagerTask.tick, guarded_under]
      refine ⟨Or.inl rfl, guarded_flatMap ?_ (guarded_release.2 hrest) servers⟩
      intro s rest h
      exact drain_guarded ticks s.1 s.2 h
    have hnil : GuardedBy (rule (.chatListener ticks)) [] [] := guarded_nil
    simpa [ManagerTask.ops] using guarded_flatMap htick hnil ticks

/-- What a task that waits for `l` may hold. -/
theorem rule_held {k : ManagerTask} {held : List (Lock × Mode)} {l x : Lock} {m : Mode}
    (h : rule k held l) (hmem : (x, m) ∈ held) :
    (x = .spaces ∧ m = .read ∧ k.isConnect = true) ∨ (x = .chatServers ∧ l ≠ .chatServers) ∨
      (x = .fileServers ∧ ∃ n, l = .running n) := by
  cases k with
  | connect oldChat oldFile newChat newFile =>
    rcases h with rfl | rfl | ⟨rfl | rfl, n, rfl⟩
    · simp at hmem
    · simp_all [ManagerTask.isConnect]
    · rcases List.mem_cons.1 hmem with heq | hmem
      · simp_all
      · simp_all [ManagerTask.isConnect]
    · rcases List.mem_cons.1 hmem with heq | hmem
      · simp_all
      · simp_all [ManagerTask.isConnect]
  | list =>
    rw [show held = [] from h] at hmem
    simp at hmem
  | getEffectiveConfig =>
    rw [show held = [] from h] at hmem
    simp at hmem
  | chatListener ticks =>
    rcases h with rfl | ⟨rfl, rfl | ⟨n, rfl⟩⟩
    · simp at hmem
    · simp_all
    · simp_all

/-! ## The condition on `list` -/

/-- A `connect` that will ask for `spaces` or `chat_servers`, or waits for it. -/
def Unfinished (t : LockTask ManagerTask Lock) : Prop :=
  t.kind.isConnect = true ∧
    ∃ op ∈ t.todo, ∃ m, op = .acquire .spaces m ∨ op = .acquire .chatServers m

/-- The task holds `spaces` or is queued for it. -/
def AtSpaces (t : LockTask ManagerTask Lock) : Prop :=
  (∃ g ∈ t.held, g.1 = .spaces) ∨ ∃ g ∈ t.waiting, g.1 = .spaces

/-- Who asks for `spaces` to write it (in this system, a `list`) finds no
unfinished `connect` at `spaces`. -/
def Polite (s : ManagerLocks) : LockEvent ManagerTask → Prop
  | .request i => ∀ t, s.tasks[i]? = some t → t.rest.head? = some (.acquire .spaces .write) →
      ∀ u ∈ s.tasks, Unfinished u → ¬ AtSpaces u
  | _ => True

def connectAt (s : ManagerLocks) (i : Nat) : Prop :=
  (s.tasks[i]?.map (·.kind)).any ManagerTask.isConnect = true

/-- No writer of `spaces` queues up behind an unfinished `connect`. -/
structure NoWriterBehind (s : ManagerLocks) : Prop where
  holding : ∀ t ∈ s.tasks, Unfinished t → (∃ g ∈ t.held, g.1 = .spaces) →
    ∀ e ∈ s.queue .spaces, e.2 = .read
  queued : (s.queue .spaces).Pairwise fun e e' => connectAt s e.1 → e'.2 = .read

theorem Unfinished.of_todo {t t' : LockTask ManagerTask Lock} (h : Unfinished t')
    (hk : t'.kind = t.kind) (hsub : ∀ op ∈ t'.todo, op ∈ t.todo) : Unfinished t := by
  rcases h with ⟨hc, op, hop, hm⟩
  exact ⟨hk ▸ hc, op, hsub op hop, hm⟩

variable {s s' : ManagerLocks} {a : LockEvent ManagerTask}

/-- A change of task `i` that adds no guard on `spaces` adds nothing to what
holds writers off. -/
theorem NoWriterBehind.holding_set (hs : NoWriterBehind s) {i : Nat}
    {t t' : LockTask ManagerTask Lock} (ht : s.tasks[i]? = some t) (hk : t'.kind = t.kind)
    (hsub : ∀ op ∈ t'.todo, op ∈ t.todo) (hheld : ∀ g ∈ t'.held, g.1 = .spaces → g ∈ t.held) :
    ∀ u ∈ s.tasks.set i t', Unfinished u → (∃ g ∈ u.held, g.1 = .spaces) →
      ∀ e ∈ s.queue .spaces, e.2 = .read := by
  intro u hu hun hg
  rcases List.mem_or_eq_of_mem_set hu with hold | rfl
  · exact hs.holding u hold hun hg
  · rcases hg with ⟨g, hg, hgs⟩
    have hun' : Unfinished t := hun.of_todo hk hsub
    exact hs.holding t (List.mem_of_getElem? ht) hun' ⟨g, hheld g hg hgs, hgs⟩

/-- The entries that were there keep their order and their kinds. -/
theorem NoWriterBehind.queued_step (hQ : s.Queued) (hs : NoWriterBehind s)
    (h : Step ManagerTask.ops s a s') :
    (s.queue .spaces).Pairwise fun e e' => connectAt s' e.1 → e'.2 = .read := by
  refine hs.queued.imp_of_mem ?_
  intro e e' he _ hR hc
  rcases hQ.waits .spaces e.1 e.2 he with ⟨t, ht, -⟩
  have hlt : e.1 < s.tasks.length := (List.getElem?_eq_some_iff.1 ht).1
  apply hR
  rw [connectAt, kind_step h hlt] at hc
  exact hc

/-- A task queued for `spaces` is at `spaces`, and unfinished if it is a `connect`. -/
theorem standing_of_mem (hQ : s.Queued) {e : Nat × Mode} (he : e ∈ s.queue .spaces)
    (hc : connectAt s e.1) : ∃ t ∈ s.tasks, Unfinished t ∧ AtSpaces t := by
  rcases hQ.waits .spaces e.1 e.2 he with ⟨t, ht, hw⟩
  have hkind : t.kind.isConnect = true := by simpa [connectAt, ht] using hc
  refine ⟨t, List.mem_of_getElem? ht, ⟨hkind, _, ?_, e.2, Or.inl rfl⟩, Or.inr ⟨_, hw, rfl⟩⟩
  rw [todo_of_waiting hw]
  exact List.mem_cons_self

theorem noWriterBehind_init : NoWriterBehind (LockState.init : ManagerLocks) where
  holding := by simp [LockState.init]
  queued := List.Pairwise.nil

theorem noWriterBehind_step (hQ : s.Queued) (hs : NoWriterBehind s) (hp : Polite s a)
    (h : Step ManagerTask.ops s a s') : NoWriterBehind s' := by
  have hqueued := hs.queued_step hQ h
  have hkind := fun j hj => kind_step h (i := j) hj
  cases h with
  | spawn k =>
    refine ⟨?_, hqueued⟩
    intro t ht hun hg
    rcases List.mem_append.1 ht with hold | hnew
    · exact hs.holding t hold hun hg
    · -- a new task holds nothing
      rw [List.mem_singleton] at hnew
      subst hnew
      simp at hg
  | @take i t l m rest ht hw hr hq hfree =>
    refine ⟨?_, hqueued⟩
    by_cases hl : l = .spaces
    · -- granted at once: nobody is queued
      subst hl
      intro u _ _ _ e he
      simp [hq] at he
    · refine hs.holding_set ht rfl ?_ ?_
      · intro op hop
        rw [todo_of_not_waiting hw, hr]
        rw [todo_of_not_waiting (by exact hw)] at hop
        exact List.mem_cons_of_mem _ hop
      · intro g hg hgs
        rcases List.mem_cons.1 hg with rfl | hg
        · exact absurd hgs hl
        · exact hg
  | @wait i t l m rest ht hw hr =>
    have htodo : ∀ op ∈ LockOp.acquire l m :: rest, op ∈ t.todo := by
      intro op hop
      rw [todo_of_not_waiting hw, hr]
      exact hop
    have hold : ∀ u ∈ s.tasks.set i ⟨t.kind, t.held, some (l, m), rest⟩, Unfinished u →
        (∃ g ∈ u.held, g.1 = .spaces) → ∀ e ∈ s.queue .spaces, e.2 = .read :=
      hs.holding_set ht rfl htodo (fun g hg _ => hg)
    by_cases hl : l = .spaces
    · subst hl
      cases m with
      | read =>
        -- a reader more is no writer
        constructor
        · intro u hu hun hg e he
          simp only [Function.update_self, List.mem_append, List.mem_singleton] at he
          rcases he with he | rfl
          · exact hold u hu hun hg e he
          · rfl
        · simp only [Function.update_self]
          rw [List.pairwise_append]
          refine ⟨hqueued, List.pairwise_singleton _ _, ?_⟩
          intro e _ e' he' _
          rw [List.mem_singleton] at he'
          rw [he']
      | write =>
        -- the condition: no unfinished `connect` is at `spaces`
        have hnone := hp t ht (by rw [hr]; rfl)
        constructor
        · intro u hu hun hg
          rcases List.mem_or_eq_of_mem_set hu with hu | rfl
          · exact absurd (Or.inl hg) (hnone u hu hun)
          · have hun' : Unfinished t := hun.of_todo rfl htodo
            exact absurd (Or.inl hg) (hnone t (List.mem_of_getElem? ht) hun')
        · simp only [Function.update_self]
          rw [List.pairwise_append]
          refine ⟨hqueued, List.pairwise_singleton _ _, ?_⟩
          intro e he e' _ hc
          rcases hQ.waits .spaces e.1 e.2 he with ⟨te, hte, -⟩
          have hlt : e.1 < s.tasks.length := (List.getElem?_eq_some_iff.1 hte).1
          rw [connectAt, hkind e.1 hlt] at hc
          rcases standing_of_mem hQ he hc with ⟨u, hu, hun, hat⟩
          exact absurd hat (hnone u hu hun)
    · have hne : Lock.spaces ≠ l := fun h => hl h.symm
      constructor
      · intro u hu hun hg
        simpa [Function.update_of_ne hne] using hold u hu hun hg
      · simpa [Function.update_of_ne hne] using hqueued
  | @grant i t l m q ht hw hq hfree =>
    by_cases hl : l = .spaces
    · subst hl
      rw [hq, List.pairwise_cons] at hqueued
      have hpair := hs.queued
      rw [hq, List.pairwise_cons] at hpair
      constructor
      · intro u hu hun hg
        simp only [Function.update_self]
        intro e he
        rcases List.mem_or_eq_of_mem_set hu with hu | rfl
        · exact hs.holding u hu hun hg e (by rw [hq]; exact List.mem_cons_of_mem _ he)
        · -- the one that was first in line: those behind it are readers
          apply hpair.1 e he
          simpa [connectAt, ht] using hun.1
      · simpa using hqueued.2
    · have hne : Lock.spaces ≠ l := fun h => hl h.symm
      have hold : ∀ u ∈ s.tasks.set i ⟨t.kind, (l, m) :: t.held, none, t.rest⟩, Unfinished u →
          (∃ g ∈ u.held, g.1 = .spaces) → ∀ e ∈ s.queue .spaces, e.2 = .read := by
        refine hs.holding_set ht rfl ?_ ?_
        · intro op hop
          rw [todo_of_waiting hw]
          exact List.mem_cons_of_mem _ hop
        · intro g hg hgs
          rcases List.mem_cons.1 hg with rfl | hg
          · exact absurd hgs hl
          · exact hg
      constructor
      · intro u hu hun hg
        simpa [Function.update_of_ne hne] using hold u hu hun hg
      · simpa [Function.update_of_ne hne] using hqueued
  | release ht hw hr =>
    refine ⟨hs.holding_set ht rfl ?_ ?_, hqueued⟩
    · intro op hop
      rw [todo_of_not_waiting hw, hr]
      rw [todo_of_not_waiting (by exact hw)] at hop
      exact List.mem_cons_of_mem _ hop
    · intro g hg _
      exact List.mem_of_mem_tail hg
  | leave ht hw =>
    refine ⟨hs.holding_set ht rfl ?_ ?_, hqueued⟩
    · intro op hop
      rw [todo_of_not_waiting (by exact hw)] at hop
      simp at hop
    · intro g hg _
      simp at hg

/-! ## No deadlock -/

/-- What every state of a polite run satisfies. -/
structure Inv (s : ManagerLocks) : Prop where
  queued : s.Queued
  guarded : s.TasksGuarded rule
  noWriterBehind : NoWriterBehind s

theorem inv_init : Inv (LockState.init : ManagerLocks) where
  queued := queued_init
  guarded := by
    intro t ht
    simp [LockState.init] at ht
  noWriterBehind := noWriterBehind_init

theorem inv_step (hs : Inv s) (hp : Polite s a) (h : step s a = some s') : Inv s' := by
  have hstep := Step.of_step h
  exact ⟨LockState.queued_step hs.queued hstep, guarded_step ops_guarded hs.guarded hstep,
    noWriterBehind_step hs.queued hs.noWriterBehind hp hstep⟩

variable {T : Set Nat}

theorem exists_waiting (hT : s.Deadlocked T) {i : Nat} (hi : i ∈ T) :
    ∃ t l m, s.tasks[i]? = some t ∧ t.waiting = some (l, m) := by
  rcases hT.2 i hi with ⟨j, -, -, t, l, m, ht, hw, -⟩
  exact ⟨t, l, m, ht, hw⟩

/-- Whoever in a deadlocked set waits for `l`, some member holds `l` and waits
itself, which the rules of the tasks restrict. -/
theorem exists_holder (hs : Inv s) (hT : s.Deadlocked T) {i : Nat} (hi : i ∈ T)
    {t : LockTask ManagerTask Lock} {l : Lock} {m : Mode} (ht : s.tasks[i]? = some t)
    (hw : t.waiting = some (l, m)) :
    ∃ j ∈ T, ∃ u ∈ T, ∃ tj tu mj mu l' m', s.tasks[j]? = some tj ∧ tj.waiting = some (l, mj) ∧
      s.tasks[u]? = some tu ∧ tu.waiting = some (l', m') ∧ (l, mu) ∈ tu.held ∧
      mu.compatible mj = false ∧
      ((l = .spaces ∧ mu = .read ∧ tu.kind.isConnect = true) ∨
        (l = .chatServers ∧ l' ≠ .chatServers) ∨ (l = .fileServers ∧ ∃ n, l' = .running n)) := by
  rcases exists_conflict hs.queued hT hi ht hw with
    ⟨j, hj, u, hu, tj, tu, mj, mu, htj, hwj, htu, hheld, hconf⟩
  rcases exists_waiting hT hu with ⟨tu', l', m', htu', hwu⟩
  rw [htu] at htu'
  obtain rfl := Option.some.inj htu'
  have hrule : rule tu.kind tu.held l' := guarded_of_waiting hs.guarded htu hwu
  exact ⟨j, hj, u, hu, tj, tu, mj, mu, l', m', htj, hwj, htu, hwu, hheld, hconf,
    rule_held hrule hheld⟩

/-- Members of a deadlocked set wait for `spaces` or `chat_servers`: nobody
waits while it holds another lock, `file_servers` under `running` apart. -/
theorem waits_for_spaces_or_chat (hs : Inv s) (hT : s.Deadlocked T) {i : Nat} (hi : i ∈ T)
    {t : LockTask ManagerTask Lock} {l : Lock} {m : Mode} (ht : s.tasks[i]? = some t)
    (hw : t.waiting = some (l, m)) : l = .spaces ∨ l = .chatServers := by
  have hrunning : ∀ {j n tj mj}, j ∈ T → s.tasks[j]? = some tj →
      tj.waiting ≠ some (.running n, mj) := by
    intro j n tj mj hj htj hwj
    rcases exists_holder hs hT hj htj hwj with
      ⟨_, _, _, _, _, _, _, _, _, _, _, _, _, _, _, _, ⟨hl, _⟩ | ⟨hl, _⟩ | ⟨hl, _⟩⟩
    · cases hl
    · cases hl
    · cases hl
  rcases exists_holder hs hT hi ht hw with
    ⟨_, _, u, hu, _, tu, _, _, _, _, _, _, htu, hwu, _, _, ⟨hl, _⟩ | ⟨hl, _⟩ | ⟨_, n, rfl⟩⟩
  · exact Or.inl hl
  · exact Or.inr hl
  · exact absurd hwu (hrunning hu htu)

theorem Inv.deadlockFree (hs : Inv s) : s.DeadlockFree := by
  intro T hT
  -- nobody waits for `spaces`: its holder is an unfinished `connect`, and the
  -- one it blocks a writer behind it
  have hspaces : ∀ i ∈ T, ∀ t m, s.tasks[i]? = some t → t.waiting ≠ some (.spaces, m) := by
    intro i hi t m ht hw
    rcases exists_holder hs hT hi ht hw with
      ⟨j, hj, u, hu, tj, tu, mj, mu, l', m', htj, hwj, htu, hwu, hheld, hconf, hholder⟩
    rcases hholder with ⟨-, rfl, hc⟩ | ⟨hl, -⟩ | ⟨hl, -⟩
    · have hun : Unfinished tu := by
        refine ⟨hc, .acquire l' m', ?_, m', ?_⟩
        · rw [todo_of_waiting hwu]
          exact List.mem_cons_self
        · rcases waits_for_spaces_or_chat hs hT hu htu hwu with rfl | rfl
          · exact Or.inl rfl
          · exact Or.inr rfl
      have hread : mj = .read := hs.noWriterBehind.holding tu (List.mem_of_getElem? htu) hun
        ⟨_, hheld, rfl⟩ _ (hs.queued.listed .spaces j mj tj htj hwj)
      subst hread
      cases hconf
    · cases hl
    · cases hl
  rcases hT.1 with ⟨i, hi⟩
  rcases exists_waiting hT hi with ⟨t, l, m, ht, hw⟩
  rcases waits_for_spaces_or_chat hs hT hi ht hw with rfl | rfl
  · exact hspaces i hi t m ht hw
  · -- the holder of `chat_servers` waits, and so for `spaces`
    rcases exists_holder hs hT hi ht hw with
      ⟨_, _, u, hu, _, tu, _, _, l', m', _, _, htu, hwu, _, _, ⟨hl, _⟩ | ⟨_, hne⟩ | ⟨hl, _⟩⟩
    · cases hl
    · rcases waits_for_spaces_or_chat hs hT hu htu hwu with rfl | rfl
      · exact hspaces u hu tu m' htu hwu
      · exact hne rfl
    · cases hl

/-- In every run in which `list` asks for its write lock on `spaces` only while
no unfinished `connect` holds it or is queued for it, no reachable state has a
deadlocked set of tasks. -/
theorem deadlock_free_of_polite (as : List (LockEvent ManagerTask))
    (hp : Along step Polite LockState.init as) :
    Always step DeadlockFree LockState.init as := by
  apply always_of_along (I := Inv) (P := Polite)
  · intro s hs
    exact hs.deadlockFree
  · intro s a s' hs hp h
    exact inv_step hs hp h
  · exact inv_init
  · exact hp

/-- A `list` between the start of a `connect` and its first lock. -/
theorem deadlock_free_of_polite_list :
    Along step Polite LockState.init
      [.spawn (.connect none none 0 1), .spawn .list, .request 1, .request 0, .release 1,
        .grant 0, .request 0] ∧
    Always step DeadlockFree LockState.init
      [.spawn (.connect none none 0 1), .spawn .list, .request 1, .request 0, .release 1,
        .grant 0, .request 0] := by
  have hp : Along step Polite LockState.init
      [.spawn (.connect none none 0 1), .spawn .list, .request 1, .request 0, .release 1,
        .grant 0, .request 0] := by
    refine ⟨trivial, trivial, ?_, ?_, trivial, trivial, ?_, trivial⟩
    · -- the write lock is asked for while the `connect` has nothing
      rintro t - - u hu -
      simp only [LockState.init, List.nil_append, List.cons_append, List.mem_cons,
        List.not_mem_nil, or_false] at hu
      rcases hu with rfl | rfl
      · simp [AtSpaces]
      · simp [AtSpaces]
    · intro t ht hhead
      obtain rfl := Option.some.inj ht
      cases hhead
    · intro t ht hhead
      obtain rfl := Option.some.inj ht
      cases hhead
  exact ⟨hp, deadlock_free_of_polite _ hp⟩

/-- `connect` takes `spaces`, a `list` queues up to write it, and `connect` asks
for it once more in `get_effective_config`. -/
theorem list_between_reads_deadlocks :
    ∃ s, run step LockState.init
      [.spawn (.connect none none 0 1), .spawn .list, .request 0, .request 1, .request 0] = some s ∧
      s.Deadlocked {0, 1} := by
  refine ⟨_, rfl, ⟨0, Or.inl rfl⟩, ?_⟩
  intro i hi
  rcases hi with rfl | rfl
  · -- the second read is queued behind the writer
    refine ⟨1, Or.inr rfl, Nat.one_ne_zero, _, .spaces, .read, rfl, rfl, Or.inr ?_⟩
    show ([1, 0] : List Nat).idxOf 1 < ([1, 0] : List Nat).idxOf 0
    decide
  · -- the writer waits for the first guard of `connect`
    exact ⟨0, Or.inl rfl, Nat.zero_ne_one, _, .spaces, .write, rfl, rfl,
      Or.inl ⟨_, .read, rfl, List.mem_cons_self, rfl⟩⟩

end ManagerLocks

end HomeTier
