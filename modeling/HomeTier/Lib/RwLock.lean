import Mathlib.Data.Set.Basic
import Mathlib.Logic.Function.Basic
import HomeTier.Lib.Trace

/-! # Tasks over fair read-write locks

A task runs a fixed program of lock operations: it asks for a lock in a mode,
or drops the guard it took last. Each lock has one FIFO queue. A request is
granted at once only when nobody is queued and no guard conflicts with it;
otherwise it is queued, and only the head of a queue may be granted. So a
queued writer holds back every reader that comes after it.

A set of tasks is deadlocked when each of them waits for a lock that another
one holds in a conflicting mode, or is queued for in front of it.

1. `guarded_step`: a rule on the guards a task may hold when it asks for a lock
   is kept by every step, once the programs keep it.
2. `exists_conflict`: in a deadlocked set, whoever is queued for a lock, some
   member holds it against another member.
-/

namespace HomeTier.Lib

universe u v

inductive Mode where
  | read
  | write
deriving DecidableEq, Repr

/-- Readers share a lock; a writer shares it with nobody. -/
def Mode.compatible : Mode → Mode → Bool
  | .read, .read => true
  | _, _ => false

inductive LockOp (L : Type v) where
  | acquire (l : L) (m : Mode)
  /-- Drops the guard taken last. -/
  | release
deriving DecidableEq, Repr

/-- Operations done under a guard on `l`. -/
def LockOp.under {L : Type v} (l : L) (m : Mode) (ops : List (LockOp L)) : List (LockOp L) :=
  .acquire l m :: (ops ++ [.release])

structure LockTask (K : Type u) (L : Type v) where
  kind : K
  /-- Guards, the one taken last first. -/
  held : List (L × Mode)
  /-- The request the task is queued with. -/
  waiting : Option (L × Mode)
  rest : List (LockOp L)

/-- What is left of a task's program, the request it waits with included. -/
def LockTask.todo {K : Type u} {L : Type v} (t : LockTask K L) : List (LockOp L) :=
  match t.waiting with
  | none => t.rest
  | some (l, m) => .acquire l m :: t.rest

/-- Tasks are known by their place in the list. -/
structure LockState (K : Type u) (L : Type v) where
  tasks : List (LockTask K L)
  queue : L → List (Nat × Mode)

inductive LockEvent (K : Type u) where
  | spawn (k : K)
  | request (i : Nat)
  | grant (i : Nat)
  | release (i : Nat)
  /-- The task returns early and drops all its guards. -/
  | leave (i : Nat)
deriving Repr

namespace LockState

variable {K : Type u} {L : Type v}

def init : LockState K L where
  tasks := []
  queue _ := []

/-- No guard on `l` conflicts with mode `m`. -/
def free [DecidableEq L] (s : LockState K L) (l : L) (m : Mode) : Bool :=
  s.tasks.all fun t => t.held.all fun g => decide (g.1 ≠ l) || g.2.compatible m

def step [DecidableEq L] (prog : K → List (LockOp L)) (s : LockState K L) :
    LockEvent K → Option (LockState K L)
  | .spawn k =>
    some { s with tasks := s.tasks ++ [{ kind := k, held := [], waiting := none, rest := prog k }] }
  | .request i =>
    match s.tasks[i]? with
    | none => none
    | some t =>
      match t.waiting, t.rest with
      | none, .acquire l m :: rest =>
        if s.queue l = [] ∧ s.free l m = true then
          some { s with tasks := s.tasks.set i { t with held := (l, m) :: t.held, rest := rest } }
        else
          some { tasks := s.tasks.set i { t with waiting := some (l, m), rest := rest }
                 queue := Function.update s.queue l (s.queue l ++ [(i, m)]) }
      | _, _ => none
  | .grant i =>
    match s.tasks[i]? with
    | none => none
    | some t =>
      match t.waiting with
      | none => none
      | some (l, m) =>
        if s.queue l = (i, m) :: (s.queue l).tail ∧ s.free l m = true then
          some { tasks := s.tasks.set i { t with held := (l, m) :: t.held, waiting := none }
                 queue := Function.update s.queue l (s.queue l).tail }
        else none
  | .release i =>
    match s.tasks[i]? with
    | none => none
    | some t =>
      match t.waiting, t.rest with
      | none, .release :: rest =>
        some { s with tasks := s.tasks.set i { t with held := t.held.tail, rest := rest } }
      | _, _ => none
  | .leave i =>
    match s.tasks[i]? with
    | none => none
    | some t =>
      match t.waiting with
      | none => some { s with tasks := s.tasks.set i { t with held := [], rest := [] } }
      | some _ => none

/-- Task `j` is queued for `l` in front of task `i`. -/
def InFront (s : LockState K L) (l : L) (j i : Nat) : Prop :=
  ((s.queue l).map (·.1)).idxOf j < ((s.queue l).map (·.1)).idxOf i

/-- Task `i` waits for a lock that task `j` holds in a conflicting mode, or is
queued for in front of it. -/
def BlockedBy (s : LockState K L) (i j : Nat) : Prop :=
  ∃ t l m, s.tasks[i]? = some t ∧ t.waiting = some (l, m) ∧
    ((∃ u m', s.tasks[j]? = some u ∧ (l, m') ∈ u.held ∧ m'.compatible m = false) ∨
      s.InFront l j i)

/-- Every member of `T` waits for another member. -/
def Deadlocked (s : LockState K L) (T : Set Nat) : Prop :=
  T.Nonempty ∧ ∀ i ∈ T, ∃ j ∈ T, j ≠ i ∧ s.BlockedBy i j

def DeadlockFree (s : LockState K L) : Prop := ∀ T : Set Nat, ¬ s.Deadlocked T

/-! ## What a step does -/

variable {prog : K → List (LockOp L)} {s s' : LockState K L} {a : LockEvent K}

/-- The steps one by one, with what each finds and what it leaves. -/
inductive Step [DecidableEq L] (prog : K → List (LockOp L)) (s : LockState K L) :
    LockEvent K → LockState K L → Prop
  | spawn (k : K) :
      Step prog s (.spawn k) { s with tasks := s.tasks ++ [⟨k, [], none, prog k⟩] }
  | take {i : Nat} {t : LockTask K L} {l : L} {m : Mode} {rest : List (LockOp L)}
      (ht : s.tasks[i]? = some t) (hw : t.waiting = none) (hr : t.rest = .acquire l m :: rest)
      (hq : s.queue l = []) (hfree : s.free l m = true) :
      Step prog s (.request i)
        { s with tasks := s.tasks.set i { t with held := (l, m) :: t.held, rest := rest } }
  | wait {i : Nat} {t : LockTask K L} {l : L} {m : Mode} {rest : List (LockOp L)}
      (ht : s.tasks[i]? = some t) (hw : t.waiting = none) (hr : t.rest = .acquire l m :: rest) :
      Step prog s (.request i)
        { tasks := s.tasks.set i { t with waiting := some (l, m), rest := rest }
          queue := Function.update s.queue l (s.queue l ++ [(i, m)]) }
  | grant {i : Nat} {t : LockTask K L} {l : L} {m : Mode} {q : List (Nat × Mode)}
      (ht : s.tasks[i]? = some t) (hw : t.waiting = some (l, m)) (hq : s.queue l = (i, m) :: q)
      (hfree : s.free l m = true) :
      Step prog s (.grant i)
        { tasks := s.tasks.set i { t with held := (l, m) :: t.held, waiting := none }
          queue := Function.update s.queue l q }
  | release {i : Nat} {t : LockTask K L} {rest : List (LockOp L)}
      (ht : s.tasks[i]? = some t) (hw : t.waiting = none) (hr : t.rest = .release :: rest) :
      Step prog s (.release i)
        { s with tasks := s.tasks.set i { t with held := t.held.tail, rest := rest } }
  | leave {i : Nat} {t : LockTask K L} (ht : s.tasks[i]? = some t) (hw : t.waiting = none) :
      Step prog s (.leave i)
        { s with tasks := s.tasks.set i { t with held := [], rest := [] } }

theorem Step.of_step [DecidableEq L] (h : step prog s a = some s') : Step prog s a s' := by
  cases a with
  | spawn k =>
    obtain rfl := Option.some.inj h
    exact .spawn k
  | request i =>
    simp only [step] at h
    split at h
    · cases h
    · rename_i t ht
      split at h
      · rename_i l m rest hw hr
        split at h
        · -- nobody in front, nobody against it
          rename_i hfree
          obtain rfl := Option.some.inj h
          exact .take ht hw hr hfree.1 hfree.2
        · obtain rfl := Option.some.inj h
          exact .wait ht hw hr
      · cases h
  | grant i =>
    simp only [step] at h
    split at h
    · cases h
    · rename_i t ht
      split at h
      · cases h
      · rename_i l m hw
        split at h
        · rename_i hfree
          obtain rfl := Option.some.inj h
          exact .grant ht hw hfree.1 hfree.2
        · cases h
  | release i =>
    simp only [step] at h
    split at h
    · cases h
    · rename_i t ht
      split at h
      · rename_i rest hw hr
        obtain rfl := Option.some.inj h
        exact .release ht hw hr
      · cases h
  | leave i =>
    simp only [step] at h
    split at h
    · cases h
    · rename_i t ht
      split at h
      · rename_i hw
        obtain rfl := Option.some.inj h
        exact .leave ht hw
      · cases h

/-! ## Programs that keep a rule -/

/-- Whenever the program asks for a lock, `φ` holds of the guards it has. -/
def GuardedBy (φ : List (L × Mode) → L → Prop) : List (L × Mode) → List (LockOp L) → Prop
  | _, [] => True
  | held, .acquire l m :: ops => φ held l ∧ GuardedBy φ ((l, m) :: held) ops
  | held, .release :: ops => GuardedBy φ held.tail ops

variable {m : Mode} {l : L}

@[simp] theorem guarded_under {φ : List (L × Mode) → L → Prop} {held : List (L × Mode)}
    {ops rest : List (LockOp L)} :
    GuardedBy φ held (LockOp.under l m ops ++ rest) ↔
      φ held l ∧ GuardedBy φ ((l, m) :: held) (ops ++ .release :: rest) := by
  simp [LockOp.under, GuardedBy]

@[simp] theorem guarded_release {φ : List (L × Mode) → L → Prop} {held : List (L × Mode)}
    {rest : List (LockOp L)} :
    GuardedBy φ held (.release :: rest) ↔ GuardedBy φ held.tail rest := Iff.rfl

@[simp] theorem guarded_nil {φ : List (L × Mode) → L → Prop} {held : List (L × Mode)} :
    GuardedBy φ held [] := trivial

/-- Every task runs the rest of a program that keeps the rule of its kind. -/
def TasksGuarded (φ : K → List (L × Mode) → L → Prop) (s : LockState K L) : Prop :=
  ∀ t ∈ s.tasks, GuardedBy (φ t.kind) t.held t.todo

variable {t : LockTask K L}

theorem todo_of_waiting (h : t.waiting = some (l, m)) : t.todo = .acquire l m :: t.rest := by
  simp [LockTask.todo, h]

theorem todo_of_not_waiting (h : t.waiting = none) : t.todo = t.rest := by
  simp [LockTask.todo, h]

theorem guarded_step [DecidableEq L] {φ : K → List (L × Mode) → L → Prop}
    (hprog : ∀ k, GuardedBy (φ k) [] (prog k)) (hs : s.TasksGuarded φ) (h : Step prog s a s') :
    s'.TasksGuarded φ := by
  intro t' ht'
  cases h with
  | spawn k =>
    rcases List.mem_append.1 ht' with hold | hnew
    · exact hs t' hold
    · -- the new task is at the start of its program
      rw [List.mem_singleton] at hnew
      subst hnew
      exact hprog k
  | take ht hw hr hq hfree =>
    rcases List.mem_or_eq_of_mem_set ht' with hold | rfl
    · exact hs t' hold
    · have hrule := hs _ (List.mem_of_getElem? ht)
      rw [todo_of_not_waiting hw, hr] at hrule
      simpa [LockTask.todo, hw] using hrule.2
  | wait ht hw hr =>
    rcases List.mem_or_eq_of_mem_set ht' with hold | rfl
    · exact hs t' hold
    · -- what is left to do does not change by waiting for it
      have hrule := hs _ (List.mem_of_getElem? ht)
      rw [todo_of_not_waiting hw, hr] at hrule
      simpa [LockTask.todo] using hrule
  | grant ht hw hq hfree =>
    rcases List.mem_or_eq_of_mem_set ht' with hold | rfl
    · exact hs t' hold
    · have hrule := hs _ (List.mem_of_getElem? ht)
      rw [todo_of_waiting hw] at hrule
      simpa [LockTask.todo] using hrule.2
  | release ht hw hr =>
    rcases List.mem_or_eq_of_mem_set ht' with hold | rfl
    · exact hs t' hold
    · have hrule := hs _ (List.mem_of_getElem? ht)
      rw [todo_of_not_waiting hw, hr] at hrule
      simpa [LockTask.todo, hw, GuardedBy] using hrule
  | leave ht hw =>
    rcases List.mem_or_eq_of_mem_set ht' with hold | rfl
    · exact hs t' hold
    · simp [LockTask.todo, hw]

variable {i : Nat}

theorem guarded_of_waiting {φ : K → List (L × Mode) → L → Prop} (hs : s.TasksGuarded φ)
    (ht : s.tasks[i]? = some t)
    (hw : t.waiting = some (l, m)) : φ t.kind t.held l := by
  have hrule := hs t (List.mem_of_getElem? ht)
  rw [todo_of_waiting hw] at hrule
  exact hrule.1

/-! ## Queues -/

/-- A queue lists the tasks that wait for it, each once. -/
structure Queued (s : LockState K L) : Prop where
  waits : ∀ l i m, (i, m) ∈ s.queue l → ∃ t, s.tasks[i]? = some t ∧ t.waiting = some (l, m)
  listed : ∀ l i m t, s.tasks[i]? = some t → t.waiting = some (l, m) → (i, m) ∈ s.queue l
  nodup : ∀ l, ((s.queue l).map (·.1)).Nodup

theorem queued_init : (init : LockState K L).Queued where
  waits := by simp [init]
  listed := by simp [init]
  nodup := by simp [init]

/-- What a queue's entry says about the task is what the task says. -/
theorem Queued.waiting (hs : s.Queued) (ht : s.tasks[i]? = some t)
    (hmem : (i, m) ∈ s.queue l) : t.waiting = some (l, m) := by
  rcases hs.waits l i m hmem with ⟨t', ht', hw'⟩
  rw [ht] at ht'
  obtain rfl := Option.some.inj ht'
  exact hw'

theorem Queued.ne_of_mem (hs : s.Queued) {i j : Nat}
    (ht : s.tasks[i]? = some t) (hw : t.waiting = none)
    (hmem : (j, m) ∈ s.queue l) : i ≠ j := by
  rintro rfl
  have := hs.waiting ht hmem
  simp [hw] at this

/-- A task that waits for nothing may change as long as it does not wait. -/
theorem Queued.set (hs : s.Queued) {t t' : LockTask K L} (ht : s.tasks[i]? = some t)
    (hw : t.waiting = none) (hw' : t'.waiting = none) :
    Queued { s with tasks := s.tasks.set i t' } where
  waits := by
    intro l j m hmem
    simpa [List.getElem?_set_ne (hs.ne_of_mem ht hw hmem)] using hs.waits l j m hmem
  listed := by
    intro l j m u hu hwu
    by_cases hij : i = j
    · subst hij
      rw [List.getElem?_set_self (List.getElem?_eq_some_iff.1 ht).1] at hu
      obtain rfl := Option.some.inj hu
      simp [hw'] at hwu
    · rw [List.getElem?_set_ne hij] at hu
      exact hs.listed l j m u hu hwu
  nodup := hs.nodup

theorem queued_spawn (hs : s.Queued) (k : K) (ops : List (LockOp L)) :
    Queued { s with tasks := s.tasks ++ [⟨k, [], none, ops⟩] } where
  waits := by
    intro l i m hmem
    rcases hs.waits l i m hmem with ⟨t, ht, hw⟩
    have hlt : i < s.tasks.length := (List.getElem?_eq_some_iff.1 ht).1
    exact ⟨t, by rw [List.getElem?_append_left hlt, ht], hw⟩
  listed := by
    intro l i m t ht hw
    rcases Nat.lt_or_ge i s.tasks.length with hlt | hge
    · rw [List.getElem?_append_left hlt] at ht
      exact hs.listed l i m t ht hw
    · -- the new task does not wait
      rw [List.getElem?_append_right hge, List.getElem?_singleton] at ht
      split at ht
      · obtain rfl := Option.some.inj ht
        simp at hw
      · cases ht
  nodup := hs.nodup

theorem queued_wait [DecidableEq L] (hs : s.Queued)
    {rest : List (LockOp L)} (ht : s.tasks[i]? = some t) (hw : t.waiting = none) :
    Queued { tasks := s.tasks.set i { t with waiting := some (l, m), rest := rest }
             queue := Function.update s.queue l (s.queue l ++ [(i, m)]) } := by
  have hlt : i < s.tasks.length := (List.getElem?_eq_some_iff.1 ht).1
  constructor
  · intro l' j m' hmem
    -- an entry that was there is of another task
    have hold : (j, m') ∈ s.queue l' → ∃ t', (s.tasks.set i
        { t with waiting := some (l, m), rest := rest })[j]? = some t' ∧
          t'.waiting = some (l', m') := by
      intro hmem
      simpa [List.getElem?_set_ne (hs.ne_of_mem ht hw hmem)] using hs.waits l' j m' hmem
    by_cases hl : l' = l
    · subst hl
      simp only [Function.update_self, List.mem_append, List.mem_singleton] at hmem
      rcases hmem with hmem | hmem
      · exact hold hmem
      · obtain ⟨rfl, rfl⟩ := Prod.mk.inj hmem
        exact ⟨_, List.getElem?_set_self hlt, rfl⟩
    · simp only [Function.update_of_ne hl] at hmem
      exact hold hmem
  · intro l' j m' u hu hwu
    by_cases hij : i = j
    · subst hij
      rw [List.getElem?_set_self hlt] at hu
      obtain rfl := Option.some.inj hu
      obtain ⟨rfl, rfl⟩ := Prod.mk.inj (Option.some.inj hwu)
      simp
    · rw [List.getElem?_set_ne hij] at hu
      have hmem := hs.listed l' j m' u hu hwu
      by_cases hl : l' = l
      · subst hl
        simp [hmem]
      · simpa [Function.update_of_ne hl] using hmem
  · intro l'
    by_cases hl : l' = l
    · subst hl
      simp only [Function.update_self, List.map_append, List.map_cons, List.map_nil]
      rw [List.nodup_append]
      refine ⟨hs.nodup l', by simp, ?_⟩
      intro j hj j' hj'
      rcases List.mem_map.1 hj with ⟨⟨k, m'⟩, hentry, rfl⟩
      rw [List.mem_singleton] at hj'
      subst hj'
      exact (hs.ne_of_mem ht hw hentry).symm
    · simpa only [Function.update_of_ne hl] using hs.nodup l'

theorem queued_grant [DecidableEq L] (hs : s.Queued)
    {q : List (Nat × Mode)} (ht : s.tasks[i]? = some t)
    (hw : t.waiting = some (l, m)) (hq : s.queue l = (i, m) :: q) :
    Queued { tasks := s.tasks.set i { t with held := (l, m) :: t.held, waiting := none }
             queue := Function.update s.queue l q } := by
  have hlt : i < s.tasks.length := (List.getElem?_eq_some_iff.1 ht).1
  have hnodup := hs.nodup l
  rw [hq, List.map_cons, List.nodup_cons] at hnodup
  constructor
  · intro l' j m' hmem
    -- the task that got its lock stood in this queue only, and once
    by_cases hl : l' = l
    · subst hl
      simp only [Function.update_self] at hmem
      have hne : i ≠ j := by
        rintro rfl
        exact hnodup.1 (List.mem_map.2 ⟨_, hmem, rfl⟩)
      have hmem' : (j, m') ∈ s.queue l' := by
        rw [hq]
        exact List.mem_cons_of_mem _ hmem
      simpa [List.getElem?_set_ne hne] using hs.waits l' j m' hmem'
    · simp only [Function.update_of_ne hl] at hmem
      have hne : i ≠ j := by
        rintro rfl
        have hw' := hs.waiting ht hmem
        rw [hw] at hw'
        exact hl (Prod.mk.inj (Option.some.inj hw')).1.symm
      simpa [List.getElem?_set_ne hne] using hs.waits l' j m' hmem
  · intro l' j m' u hu hwu
    by_cases hij : i = j
    · subst hij
      rw [List.getElem?_set_self hlt] at hu
      obtain rfl := Option.some.inj hu
      simp at hwu
    · rw [List.getElem?_set_ne hij] at hu
      have hmem := hs.listed l' j m' u hu hwu
      by_cases hl : l' = l
      · subst hl
        rw [hq, List.mem_cons] at hmem
        rcases hmem with heq | hmem
        · exact absurd (Prod.mk.inj heq).1.symm hij
        · simpa using hmem
      · simpa [Function.update_of_ne hl] using hmem
  · intro l'
    by_cases hl : l' = l
    · subst hl
      simpa only [Function.update_self] using hnodup.2
    · simpa only [Function.update_of_ne hl] using hs.nodup l'

theorem queued_step [DecidableEq L] (hs : s.Queued) (h : Step prog s a s') : s'.Queued := by
  cases h with
  | spawn k => exact queued_spawn hs k (prog k)
  | take ht hw hr hq hfree => exact hs.set ht hw hw
  | wait ht hw hr => exact queued_wait hs ht hw
  | grant ht hw hq hfree => exact queued_grant hs ht hw hq
  | release ht hw hr => exact hs.set ht hw hw
  | leave ht hw => exact hs.set ht hw hw

/-- No step changes what a task is. -/
theorem kind_step [DecidableEq L] (h : Step prog s a s') (hi : i < s.tasks.length) :
    s'.tasks[i]?.map (·.kind) = s.tasks[i]?.map (·.kind) := by
  have hset : ∀ {j : Nat} {t t' : LockTask K L}, s.tasks[j]? = some t → t'.kind = t.kind →
      (s.tasks.set j t')[i]?.map (·.kind) = s.tasks[i]?.map (·.kind) := by
    intro j t t' ht hk
    by_cases hij : j = i
    · subst hij
      rw [List.getElem?_set_self hi, ht]
      simp [hk]
    · rw [List.getElem?_set_ne hij]
  cases h with
  | spawn k => rw [List.getElem?_append_left hi]
  | take ht hw hr hq hfree => exact hset ht rfl
  | wait ht hw hr => exact hset ht rfl
  | grant ht hw hq hfree => exact hset ht rfl
  | release ht hw hr => exact hset ht rfl
  | leave ht hw => exact hset ht rfl

/-! ## Deadlocked sets -/

/-- Whoever in a deadlocked set waits for a lock, some member holds that lock
against another member that waits for it. -/
theorem exists_conflict (hs : s.Queued) {T : Set Nat} (hT : s.Deadlocked T)
    (hi : i ∈ T) (ht : s.tasks[i]? = some t)
    (hw : t.waiting = some (l, m)) :
    ∃ j ∈ T, ∃ u ∈ T, ∃ tj tu mj mu, s.tasks[j]? = some tj ∧ tj.waiting = some (l, mj) ∧
      s.tasks[u]? = some tu ∧ (l, mu) ∈ tu.held ∧ mu.compatible mj = false := by
  -- induction on the place in the queue: who blocks from the front is blocked too
  induction hn : ((s.queue l).map (·.1)).idxOf i using Nat.strong_induction_on
    generalizing i t m with
  | h n ih =>
    rcases hT.2 i hi with ⟨j, hj, -, t', l', m', ht', hw', hblock⟩
    rw [ht] at ht'
    obtain rfl := Option.some.inj ht'
    rw [hw] at hw'
    obtain ⟨rfl, rfl⟩ := Prod.mk.inj (Option.some.inj hw')
    rcases hblock with ⟨u, mu, hu, hheld, hconf⟩ | hfront
    · exact ⟨i, hi, j, hj, t, u, m, mu, ht, hw, hu, hheld, hconf⟩
    · -- the one in front waits for the same lock
      have hmem : j ∈ (s.queue l).map (·.1) :=
        List.idxOf_lt_length_iff.1 (lt_of_lt_of_le hfront List.idxOf_le_length)
      rcases List.mem_map.1 hmem with ⟨⟨j', mj⟩, hentry, rfl⟩
      rcases hs.waits l j' mj hentry with ⟨tj, htj, hwj⟩
      exact ih _ (hn ▸ hfront) hj htj hwj rfl

end LockState

end HomeTier.Lib
