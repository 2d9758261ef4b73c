import HomeTier.ConfigStore.Queue
import HomeTier.ConfigStore.Remote
import HomeTier.Lib.Projection

/-! # The network of config stores

Every node runs the server of `src-tauri/src/config_store/server.rs` in front of
its queue and store, and is a client of the others
(`config_store/client.rs`, `commands/config_store.rs`):

* `upload_config` submits a file at the node itself;
* `get_remote_config_version`, `download_remote_config` and
  `store_remote_config` make a round trip: the request travels, the server
  dispatches it, a stored file is submitted, and the answer travels back;
* the consumer of each node works through its queue.

The steps of all of them interleave freely, and a connection may break at any
time, which does not stop the server's half. The store of a file is one step
here, as is the lookup that answers a query; how a read of the content falls
between the accesses of a store is a matter of `Snapshot`.

What a client reads of a version was published and stays at or below what the
server has (`reads_never_ahead`). Two nodes with the same version have the same
file if no two files were published under one version (`replicas_agree`), and
two nodes that were given the same files in any order have the same version
once their queues are drained (`replicas_converge`), in every run in which no
newer file is overwritten in a queue.
-/

namespace HomeTier

open Lib

namespace StoreNetwork

open RemoteStore (Message dispatch)

/-- A round trip whose answer is known. -/
structure Reply where
  client : Nat
  server : Nat
  msg : Message
  answer : Message
deriving DecidableEq

inductive Task where
  /-- The request of a client on its way to a server. -/
  | asked (client server : Nat) (msg : Message)
  /-- `submit` between its two halves, with the answer that will be given. -/
  | submitting (node : Nat) (file : ConfigFile) (reply : Option Reply)
  /-- The answer on its way back. -/
  | answered (reply : Reply)
deriving DecidableEq

structure St where
  node : Nat → StoreQueue.St
  tasks : List Task
  /-- History: the files submitted at a node. -/
  received : Nat → List ConfigFile
  /-- History: the files given to `upload_config` and `store_remote_config`. -/
  published : List ConfigFile
  /-- History: the answers the clients have read. -/
  results : List Reply

/-- A step of the consumer task. -/
inductive ConsumerAct where
  | recv
  | remove
  | store
deriving DecidableEq

def ConsumerAct.act : ConsumerAct → StoreQueue.Act
  | .recv => .recv
  | .remove => .remove
  | .store => .store

inductive Act where
  | upload (node : Nat) (file : ConfigFile)
  | call (client server : Nat) (msg : Message)
  /-- The server reads the request of task `i`. -/
  | serve (i : Nat)
  /-- The submit of task `i` puts its file on the channel. -/
  | send (i : Nat)
  | consume (node : Nat) (a : ConsumerAct)
  /-- The client reads the answer of task `i`. -/
  | finish (i : Nat)
  /-- The connection of task `i` breaks. -/
  | lose (i : Nat)
deriving DecidableEq

/-- The file a message carries. -/
def carried : Message → Option ConfigFile
  | .storeFile name version content timestamp checksum =>
    some ⟨name, version, content, timestamp, checksum⟩
  | _ => none

/-- Nodes over their stores, with nothing under way. -/
def init (s₀ : Nat → ConfigStore) : St where
  node n := StoreQueue.init (s₀ n)
  tasks := []
  received _ := []
  published := []
  results := []

/-- What becomes of the request `msg` once the server has read it. -/
def served (s : St) (client server : Nat) (msg : Message) : Task :=
  let reply : Reply := ⟨client, server, msg, (dispatch (s.node server).store msg).1⟩
  match (dispatch (s.node server).store msg).2 with
  | none => .answered reply
  | some file => .submitting server file (some reply)

/-- What a step does to the tasks. -/
def taskStep (s : St) : Act → Option St
  | .upload n file =>
    some { s with
      tasks := s.tasks ++ [.submitting n file none]
      published := s.published ++ [file] }
  | .call client server msg =>
    some { s with
      tasks := s.tasks ++ [.asked client server msg]
      published := s.published ++ (carried msg).toList }
  | .serve i =>
    match s.tasks[i]? with
    | some (.asked client server msg) =>
      some { s with tasks := s.tasks.set i (served s client server msg) }
    | _ => none
  | .send i =>
    match s.tasks[i]? with
    | some (.submitting _ _ none) => some { s with tasks := s.tasks.eraseIdx i }
    | some (.submitting _ _ (some reply)) =>
      some { s with tasks := s.tasks.set i (.answered reply) }
    | _ => none
  | .consume _ _ => some s
  | .finish i =>
    match s.tasks[i]? with
    | some (.answered reply) =>
      some { s with
        tasks := s.tasks.eraseIdx i
        results := s.results ++ [reply] }
    | _ => none
  | .lose i =>
    match s.tasks[i]? with
    | some (.submitting n file _) =>
      -- the server goes on with its submit
      some { s with tasks := s.tasks.set i (.submitting n file none) }
    | some _ => some { s with tasks := s.tasks.eraseIdx i }
    | none => none

/-- The step of a node's queue that is part of a step. -/
def queueAct (s : St) : Act → Option (Nat × StoreQueue.Act)
  | .upload n file => some (n, .insert file)
  | .serve i =>
    match s.tasks[i]? with
    | some (.asked _ server msg) =>
      (dispatch (s.node server).store msg).2.map fun file => (server, .insert file)
    | _ => none
  | .send i =>
    match s.tasks[i]? with
    | some (.submitting n file _) => some (n, .send file)
    | _ => none
  | .consume n a => some (n, a.act)
  | _ => none

/-- One step of a node's queue. -/
def St.queue (enc : ConfigStore.IndexEncoder) (s : St) (n : Nat) (a : StoreQueue.Act) :
    Option St :=
  (StoreQueue.step enc (s.node n) a).map fun q =>
    { s with
      node := Function.update s.node n q
      received := Function.update s.received n (s.received n ++ StoreQueue.submitted [a]) }

def step (enc : ConfigStore.IndexEncoder) (s : St) (a : Act) : Option St :=
  (taskStep s a).bind fun t =>
    match queueAct s a with
    | none => some t
    | some (n, b) => t.queue enc n b

/-- The metadata that `query_version` returns. -/
def Reply.read (r : Reply) : Option ConfigFileMeta :=
  match r.msg, r.answer with
  | .queryVersion name, .versionInfo _ version timestamp checksum =>
    if version = 0 ∧ timestamp = 0 then none else some ⟨name, version, timestamp, checksum⟩
  | _, _ => none

/-- The file that `request_file` returns; it does not learn the timestamp. -/
def Reply.file (r : Reply) : Option ConfigFile :=
  match r.msg, r.answer with
  | .requestFile name _, .fileResponse _ version content checksum =>
    if version = 0 ∧ content = [] then none else some ⟨name, version, content, 0, checksum⟩
  | _, _ => none

/-- The file that `store_file` was told has been stored. -/
def Reply.stored (r : Reply) : Option ConfigFile :=
  match r.answer with
  | .storeAck _ true _ => carried r.msg
  | _ => none

/-- Every entry of the index has its content. -/
def Readable (s : ConfigStore) : Prop :=
  ∀ name, ConfigStore.Plain name → ∃ file, s.getFile name = .ok file

/-- A file the network knows: published, or there from the start. -/
def Known (s₀ : Nat → ConfigStore) (s : St) (file : ConfigFile) : Prop :=
  file ∈ s.published ∨ ∃ n, (s₀ n).getFile file.name = .ok (some file)

/-- No two files the network knows share name and version. -/
def OneContent (s₀ : Nat → ConfigStore) (s : St) : Prop :=
  ∀ f g, Known s₀ s f → Known s₀ s g → f.name = g.name → f.version = g.version → f = g

/-- No submit overwrites a pending file that is newer than all that can still
reach the store. -/
def Covered (s : St) (a : Act) : Prop :=
  ∀ n b, queueAct s a = some (n, b) → StoreQueue.Covered (s.node n) b

instance (s : St) (a : Act) : Decidable (Covered s a) :=
  match h : queueAct s a with
  | none => .isTrue fun n b hb => by simp [h] at hb
  | some (n, b) =>
    decidable_of_iff (StoreQueue.Covered (s.node n) b) (by
      constructor
      · intro hc m c hm
        obtain ⟨rfl, rfl⟩ := Prod.mk.inj (Option.some.inj (h.symm.trans hm))
        exact hc
      · exact fun hc => hc n b h)

/-- The node has no submit under way and its queue is worked off. -/
def Quiet (s : St) (n : Nat) : Prop := StoreQueue.Drained (s.node n)

instance (s : St) (n : Nat) : Decidable (Quiet s n) :=
  inferInstanceAs (Decidable (StoreQueue.Drained _))

variable {enc : ConfigStore.IndexEncoder} {s₀ : Nat → ConfigStore}

/-! ## One step -/

variable {s s' t : St} {a : Act}

theorem taskStep_frame (h : taskStep s a = some t) : t.node = s.node ∧ t.received = s.received := by
  cases a with
  | upload | call | consume =>
    obtain rfl := Option.some.inj h
    exact ⟨rfl, rfl⟩
  | serve i | send i | finish i | lose i =>
    simp only [taskStep] at h
    split at h
    all_goals first
      | (obtain rfl := Option.some.inj h; exact ⟨rfl, rfl⟩)
      | cases h

/-- A step is a step of the tasks and at most one step of one queue. -/
theorem step_cases (h : step enc s a = some s') : ∃ t, taskStep s a = some t ∧
      ((queueAct s a = none ∧ s' = t) ∨
        ∃ n b q, queueAct s a = some (n, b) ∧ StoreQueue.step enc (s.node n) b = some q ∧
          s' = { t with
            node := Function.update s.node n q
            received := Function.update s.received n
              (s.received n ++ StoreQueue.submitted [b]) }) := by
  rcases Option.bind_eq_some_iff.1 h with ⟨t, ht, hq⟩
  refine ⟨t, ht, ?_⟩
  split at hq
  · rename_i hnone
    exact .inl ⟨hnone, (Option.some.inj hq).symm⟩
  · rename_i n b hsome
    obtain ⟨hnode, hreceived⟩ := taskStep_frame ht
    rcases Option.map_eq_some_iff.1 hq with ⟨q, hstep, rfl⟩
    rw [hnode] at hstep
    exact .inr ⟨n, b, q, hsome, hstep, by rw [hnode, hreceived]⟩

/-- The step as node `n` sees it. -/
def actsAt (n : Nat) (s : St) (a : Act) : List StoreQueue.Act :=
  match queueAct s a with
  | none => []
  | some (m, b) => if m = n then [b] else []

theorem node_step (n : Nat) (h : step enc s a = some s') :
    run (StoreQueue.step enc) (s.node n) (actsAt n s a) = some (s'.node n) := by
  rcases step_cases h with ⟨t, ht, ⟨hnone, rfl⟩ | ⟨m, b, q, hsome, hstep, rfl⟩⟩
  · simp [actsAt, hnone, (taskStep_frame ht).1]
  · by_cases hm : m = n
    · subst hm
      simp [actsAt, hsome, run, hstep]
    · simp [actsAt, hsome, hm, Function.update_of_ne (Ne.symm hm)]

theorem received_step (n : Nat) (h : step enc s a = some s') : s'.received n = s.received n ++
      (actsAt n s a).flatMap fun b => StoreQueue.submitted [b] := by
  rcases step_cases h with ⟨t, ht, ⟨hnone, rfl⟩ | ⟨m, b, q, hsome, -, rfl⟩⟩
  · simp [actsAt, hnone, (taskStep_frame ht).2]
  · by_cases hm : m = n
    · subst hm
      simp [actsAt, hsome]
    · simp [actsAt, hsome, hm, Function.update_of_ne (Ne.symm hm)]

/-! ## A node by itself -/

theorem flatMap_submitted (as : List StoreQueue.Act) :
    (as.flatMap fun a => StoreQueue.submitted [a]) = StoreQueue.submitted as := by
  induction as with
  | nil => rfl
  | cons a as ih =>
    rw [List.flatMap_cons, ih]
    show _ = StoreQueue.submitted ([a] ++ as)
    exact List.filterMap_append.symm

/-- A run of the network is at each node a run of its queue on what it receives. -/
theorem exists_queue_run (n : Nat) {as : List Act} (h : run (step enc) (init s₀) as = some s) :
    ∃ qs, run (StoreQueue.step enc) (StoreQueue.init (s₀ n)) qs = some (s.node n) ∧
      StoreQueue.submitted qs = s.received n ∧
      (Along (step enc) Covered (init s₀) as →
        Along (StoreQueue.step enc) StoreQueue.Covered (StoreQueue.init (s₀ n)) qs) := by
  have hview : ∀ (s : St) (a : Act) (s' : St), step enc s a = some s' →
      run (StoreQueue.step enc) (s.node n) (actsAt n s a) = some (s'.node n) :=
    fun _ _ _ => node_step n
  refine ⟨_, run_projected (fun s => s.node n) hview h, ?_, ?_⟩
  · have hrecord : ∀ (s : St) (a : Act) (s' : St), step enc s a = some s' →
        s'.received n = s.received n ++
          (actsAt n s a).flatMap fun b => StoreQueue.submitted [b] :=
      fun _ _ _ => received_step n
    have hrec := record_projected (fun s : St => s.received n) hrecord h
    rw [← flatMap_submitted]
    exact (hrec.trans (List.nil_append _)).symm
  · refine fun hcov => along_projected (fun s => s.node n) hview ?_ hcov
    intro s a s' hs hc
    have hsome := node_step n hs
    unfold actsAt at hsome ⊢
    split at hsome
    · trivial
    · rename_i m b hq
      by_cases hm : m = n
      · subst hm
        simp only [if_pos] at hsome ⊢
        rcases run_cons_eq_some hsome with ⟨q, hstep, -⟩
        exact (along_cons hstep _).2 ⟨hc _ _ hq, trivial⟩
      · simp [hm]

/-- What the queue of a node holds was received, and the store has of `name` what it
started with or a newer file that was received. -/
structure Sound (s₁ : ConfigStore) (files : List ConfigFile) (name : Str) (q : StoreQueue.St) :
    Prop where
  pending : ∀ m f, q.pending.lookup m = some f → f ∈ files
  held : ∀ f, q.consumer = .taken (some f) → f ∈ files
  stored : (q.store.getMeta name = s₁.getMeta name ∧ q.store.getFile name = s₁.getFile name) ∨
    ∃ f ∈ files, f.name = name ∧ q.store.getMeta name = some f.toMeta ∧
      q.store.getFile name = .ok (some f)

theorem sound_init (s₁ : ConfigStore) (name : Str) : Sound s₁ [] name (StoreQueue.init s₁) where
  pending := by simp [StoreQueue.init]
  held := by simp [StoreQueue.init]
  stored := .inl ⟨rfl, rfl⟩

/-- A step of the queue stores what was held, holds what was pending, and has pending what
was submitted. -/
theorem queue_step {q q' : StoreQueue.St} {b : StoreQueue.Act}
    (h : StoreQueue.step enc q b = some q') :
    (q'.store = q.store ∨
      ∃ f, q.consumer = .taken (some f) ∧ q'.store = (q.store.store enc .allOk f).1) ∧
    (∀ m f, q'.pending.lookup m = some f →
      q.pending.lookup m = some f ∨ f ∈ StoreQueue.submitted [b]) ∧
    (∀ f, q'.consumer = .taken (some f) →
      q.consumer = .taken (some f) ∨ ∃ m, q.pending.lookup m = some f) := by
  cases b with
  | insert file =>
    obtain rfl := Option.some.inj h
    refine ⟨.inl rfl, ?_, fun f hf => .inl hf⟩
    intro m f hf
    -- the newest of a name is the one that is pending
    by_cases hm : m = file.name
    · subst hm
      right
      simpa [StoreQueue.submitted, eq_comm] using hf
    · left
      rwa [AList.lookup_insert_ne hm] at hf
  | send file =>
    simp only [StoreQueue.step] at h
    split at h
    · obtain rfl := Option.some.inj h
      exact ⟨.inl rfl, fun m f hf => .inl hf, fun f hf => .inl hf⟩
    · cases h
  | recv =>
    simp only [StoreQueue.step] at h
    split at h
    · obtain rfl := Option.some.inj h
      exact ⟨.inl rfl, fun m f hf => .inl hf, fun f hf => by cases hf⟩
    · cases h
  | remove =>
    simp only [StoreQueue.step] at h
    split at h
    · rename_i name hr
      obtain rfl := Option.some.inj h
      -- what the consumer takes was pending under the name it received
      refine ⟨.inl rfl, ?_, fun f hf => .inr ⟨name, by simpa using hf⟩⟩
      intro m f hf
      left
      by_cases hm : m = name
      · subst hm
        simp at hf
      · rwa [AList.lookup_erase_ne hm] at hf
    · cases h
  | store =>
    simp only [StoreQueue.step] at h
    split at h
    · obtain rfl := Option.some.inj h
      exact ⟨.inl rfl, fun m f hf => .inl hf, fun f hf => by cases hf⟩
    · rename_i f ht
      obtain rfl := Option.some.inj h
      exact ⟨.inr ⟨f, ht, rfl⟩, fun m f hf => .inl hf, fun f hf => by cases hf⟩
    · cases h

variable {name : Str}

variable (enc) in
/-- Storing a file leaves a name alone or puts the newer file there. -/
theorem store_effect (s : ConfigStore) {f : ConfigFile} (hf : ConfigStore.Plain f.name)
    (hname : ConfigStore.Plain name) :
    ((s.store enc .allOk f).1.getMeta name = s.getMeta name ∧
      (s.store enc .allOk f).1.getFile name = s.getFile name) ∨
    (f.name = name ∧ (s.store enc .allOk f).1.getMeta name = some f.toMeta ∧
      (s.store enc .allOk f).1.getFile name = .ok (some f)) := by
  by_cases hle : (f.version : WithBot ℕ) ≤ s.version? f.name
  · exact .inl (ConfigStore.store_stale enc s hf hle hname)
  · have hfresh := ConfigStore.store_fresh enc s hf hle hname
    by_cases heq : name = f.name
    · rw [if_pos heq, if_pos heq] at hfresh
      exact .inr ⟨heq.symm, hfresh⟩
    · rw [if_neg heq, if_neg heq] at hfresh
      exact .inl hfresh

section QueueStep

variable {s₁ : ConfigStore} {files : List ConfigFile} {name : Str} {q q' : StoreQueue.St}
  {b : StoreQueue.Act}

theorem Sound.step (hs : Sound s₁ files name q) (h : StoreQueue.step enc q b = some q')
    (hplain : ∀ f ∈ files, ConfigStore.Plain f.name) (hname : ConfigStore.Plain name) :
    Sound s₁ (files ++ StoreQueue.submitted [b]) name q' := by
  obtain ⟨hstore, hpending, hheld⟩ := queue_step h
  have hmem : ∀ {f}, f ∈ files → f ∈ files ++ StoreQueue.submitted [b] :=
    fun hf => List.mem_append_left _ hf
  have hold : (q.store.getMeta name = s₁.getMeta name ∧ q.store.getFile name = s₁.getFile name) ∨
      ∃ f ∈ files ++ StoreQueue.submitted [b], f.name = name ∧
        q.store.getMeta name = some f.toMeta ∧ q.store.getFile name = .ok (some f) := by
    rcases hs.stored with hsame | ⟨f, hf, hrest⟩
    · exact .inl hsame
    · exact .inr ⟨f, hmem hf, hrest⟩
  refine ⟨?_, ?_, ?_⟩
  · intro m f hf
    rcases hpending m f hf with hp | hnew
    · exact hmem (hs.pending m f hp)
    · exact List.mem_append_right _ hnew
  · intro f hf
    rcases hheld f hf with hh | ⟨m, hp⟩
    · exact hmem (hs.held f hh)
    · exact hmem (hs.pending m f hp)
  · rcases hstore with hsame | ⟨f, hf, hput⟩
    · rw [hsame]
      exact hold
    · rw [hput]
      have hfile := hs.held f hf
      rcases store_effect enc q.store (hplain f hfile) hname with ⟨hmeta, hget⟩ | hnew
      · rw [hmeta, hget]
        exact hold
      · exact .inr ⟨f, hmem hfile, hnew⟩

theorem version_le_step (hs : Sound s₁ files name q) (h : StoreQueue.step enc q b = some q')
    (hplain : ∀ f ∈ files, ConfigStore.Plain f.name) (hname : ConfigStore.Plain name) :
    q.store.version? name ≤ q'.store.version? name := by
  rcases (queue_step h).1 with hsame | ⟨f, hf, hput⟩
  · rw [hsame]
  · rw [hput, ConfigStore.version?_store enc q.store (hplain f (hs.held f hf)) hname]
    split
    · exact le_max_left _ _
    · exact le_rfl

/-- The entry of a name in a readable store is a file. -/
theorem file_of_getMeta {s : ConfigStore} (hread : Readable s) (hname : ConfigStore.Plain name)
    {m : ConfigFileMeta} (h : s.getMeta name = some m) :
    ∃ f : ConfigFile, s.getFile name = .ok (some f) ∧ f.toMeta = { m with name := name } := by
  rcases hread name hname with ⟨o, ho⟩
  unfold ConfigStore.getFile at ho ⊢
  rw [h] at ho ⊢
  cases hd : s.disk (s.contentPath name) with
  | none =>
    rw [hd] at ho
    cases ho
  | some content => exact ⟨_, rfl, rfl⟩

/-- A node has of a name nothing, or a file that it started with or received. -/
theorem Sound.current (hs : Sound s₁ files name q) (hread : Readable s₁)
    (hname : ConfigStore.Plain name) :
    (q.store.getMeta name = none ∧ q.store.getFile name = .ok none) ∨
    ∃ f m, q.store.getMeta name = some m ∧ f.toMeta = { m with name := name } ∧
      q.store.getFile name = .ok (some f) ∧ (f ∈ files ∨ s₁.getFile name = .ok (some f)) := by
  rcases hs.stored with ⟨hmeta, hget⟩ | ⟨f, hf, hfn, hmeta, hget⟩
  · cases hm : s₁.getMeta name with
    | none =>
      left
      rw [hmeta, hget]
      exact ⟨hm, by simp [ConfigStore.getFile, hm]⟩
    | some m =>
      rcases file_of_getMeta hread hname hm with ⟨f, hf, hfm⟩
      exact .inr ⟨f, m, hmeta.trans hm, hfm, hget.trans hf, .inr hf⟩
  · subst hfn
    exact .inr ⟨f, f.toMeta, hmeta, rfl, hget, .inl hf⟩

end QueueStep

/-! ## The network -/

/-- The answer that a task holds. -/
def Task.reply? : Task → Option Reply
  | .asked _ _ _ => none
  | .submitting _ _ reply => reply
  | .answered reply => some reply

/-- The answers that were given, read or on their way. -/
def St.replies (s : St) : List Reply := s.results ++ s.tasks.filterMap Task.reply?

/-- The file that a task will hand over. -/
def Task.file? : Task → Option ConfigFile
  | .asked _ _ msg => carried msg
  | .submitting _ file _ => some file
  | .answered _ => none

/-- What a client reads, metadata or a file, was published or there from the start, and is
not newer than what the server has. -/
structure Truthful (s₀ : Nat → ConfigStore) (s : St) (r : Reply) : Prop where
  read : ∀ m, r.read = some m → ConfigStore.Plain m.name →
    (∃ f : ConfigFile, (f ∈ s.published ∨ (s₀ r.server).getFile m.name = .ok (some f)) ∧
      f.toMeta = m) ∧
    (m.version : WithBot ℕ) ≤ (s.node r.server).store.version? m.name
  file : ∀ g, r.file = some g → ConfigStore.Plain g.name →
    (∃ f : ConfigFile, (f ∈ s.published ∨ (s₀ r.server).getFile g.name = .ok (some f)) ∧
      { f with timestamp := 0 } = g) ∧
    (g.version : WithBot ℕ) ≤ (s.node r.server).store.version? g.name

structure Inv (s₀ : Nat → ConfigStore) (s : St) : Prop where
  asked : ∀ task ∈ s.tasks, ∀ f, task.file? = some f → f ∈ s.published
  received : ∀ n, ∀ f ∈ s.received n, f ∈ s.published
  sound : ∀ n name, ConfigStore.Plain name → Sound (s₀ n) (s.received n) name (s.node n)
  truthful : ∀ r ∈ s.replies, Truthful s₀ s r
  acknowledged : ∀ r ∈ s.replies, ∀ f, r.stored = some f → f ∈ s.received r.server

theorem inv_init : Inv s₀ (init s₀) where
  asked := by simp [init]
  received := by simp [init]
  sound n name _ := sound_init (s₀ n) name
  truthful := by simp [init, St.replies]
  acknowledged := by simp [init, St.replies]

theorem dispatch_snd (store : ConfigStore) (msg : Message) :
    (dispatch store msg).2 = carried msg := by
  cases msg with
  | queryVersion name =>
    simp only [dispatch, carried]
    split <;> rfl
  | requestFile name fromVersion =>
    simp only [dispatch, carried]
    split <;> rfl
  | versionInfo | fileResponse | storeFile | storeAck => rfl

theorem mem_replies {r : Reply} :
    r ∈ s.replies ↔ r ∈ s.results ∨ ∃ task ∈ s.tasks, task.reply? = some r := by
  simp [St.replies, List.mem_filterMap]

theorem taskStep_published (h : taskStep s a = some t) : ∀ f ∈ s.published, f ∈ t.published := by
  intro f hf
  cases a with
  | upload | call =>
    obtain rfl := Option.some.inj h
    exact List.mem_append_left _ hf
  | consume n a =>
    obtain rfl := Option.some.inj h
    exact hf
  | serve i | send i | finish i | lose i =>
    simp only [taskStep] at h
    split at h
    all_goals first
      | (obtain rfl := Option.some.inj h; exact hf)
      | cases h

/-- A task that a step leaves was there, carries no answer and a file that is known, is an
earlier one without its file, or is the request that has been served. -/
theorem taskStep_tasks (h : taskStep s a = some t) {task : Task} (htask : task ∈ t.tasks) :
    task ∈ s.tasks ∨
    (task.reply? = none ∧ ∀ f, task.file? = some f →
      f ∈ t.published ∨ ∃ old ∈ s.tasks, old.file? = some f) ∨
    (task.file? = none ∧ ∃ old ∈ s.tasks, old.reply? = task.reply?) ∨
    ∃ i client server msg, a = .serve i ∧ s.tasks[i]? = some (.asked client server msg) ∧
      task = served s client server msg := by
  cases a with
  | upload n file =>
    obtain rfl := Option.some.inj h
    rcases List.mem_append.1 htask with hold | hnew
    · exact .inl hold
    · -- an upload publishes its file; it has no reply
      obtain rfl := List.mem_singleton.1 hnew
      refine .inr (.inl ⟨rfl, fun f hf => .inl ?_⟩)
      obtain rfl := Option.some.inj hf
      simp
  | call client server msg =>
    obtain rfl := Option.some.inj h
    rcases List.mem_append.1 htask with hold | hnew
    · exact .inl hold
    · obtain rfl := List.mem_singleton.1 hnew
      refine .inr (.inl ⟨rfl, fun f hf => .inl ?_⟩)
      -- a call is published by what it carries
      have hf' : carried msg = some f := hf
      simp [hf']
  | consume n a =>
    obtain rfl := Option.some.inj h
    exact .inl htask
  | serve i =>
    simp only [taskStep] at h
    split at h
    · rename_i client server msg hi
      obtain rfl := Option.some.inj h
      rcases List.mem_or_eq_of_mem_set htask with hold | rfl
      · exact .inl hold
      · exact .inr (.inr (.inr ⟨i, client, server, msg, rfl, hi, rfl⟩))
    · cases h
  | send i =>
    simp only [taskStep] at h
    split at h
    · obtain rfl := Option.some.inj h
      exact .inl (List.mem_of_mem_eraseIdx htask)
    · rename_i n file reply hi
      obtain rfl := Option.some.inj h
      rcases List.mem_or_eq_of_mem_set htask with hold | rfl
      · exact .inl hold
      · -- sent: what is left waits for the reply
        exact .inr (.inr (.inl ⟨rfl, _, List.mem_of_getElem? hi, rfl⟩))
    · cases h
  | finish i =>
    simp only [taskStep] at h
    split at h
    · obtain rfl := Option.some.inj h
      exact .inl (List.mem_of_mem_eraseIdx htask)
    · cases h
  | lose i =>
    simp only [taskStep] at h
    split at h
    · rename_i n file reply hi
      obtain rfl := Option.some.inj h
      rcases List.mem_or_eq_of_mem_set htask with hold | rfl
      · exact .inl hold
      · -- lost: no reply comes any more
        exact .inr (.inl ⟨rfl, fun f hf => .inr ⟨_, List.mem_of_getElem? hi, hf⟩⟩)
    · obtain rfl := Option.some.inj h
      exact .inl (List.mem_of_mem_eraseIdx htask)
    · cases h

theorem taskStep_results (h : taskStep s a = some t) {r : Reply}
    (hr : r ∈ t.results) : r ∈ s.replies := by
  cases a with
  | upload n file =>
    obtain rfl := Option.some.inj h
    exact mem_replies.2 (.inl hr)
  | call client server msg =>
    obtain rfl := Option.some.inj h
    exact mem_replies.2 (.inl hr)
  | consume n a =>
    obtain rfl := Option.some.inj h
    exact mem_replies.2 (.inl hr)
  | finish i =>
    simp only [taskStep] at h
    split at h
    · rename_i reply hi
      obtain rfl := Option.some.inj h
      rcases List.mem_append.1 hr with hold | hnew
      · exact mem_replies.2 (.inl hold)
      · obtain rfl := List.mem_singleton.1 hnew
        exact mem_replies.2 (.inr ⟨_, List.mem_of_getElem? hi, rfl⟩)
    · cases h
  | serve i | send i | lose i =>
    simp only [taskStep] at h
    split at h
    all_goals first
      | (obtain rfl := Option.some.inj h; exact mem_replies.2 (.inl hr))
      | cases h

theorem reply_served (s : St) (client server : Nat) (msg : Message) :
    (served s client server msg).reply? =
      some ⟨client, server, msg, (dispatch (s.node server).store msg).1⟩ := by
  unfold served
  split <;> rfl

/-- An answer that is there after a step was there before, or is the one just given. -/
theorem replies_step (h : taskStep s a = some t) {r : Reply} (hr : r ∈ t.replies) :
    r ∈ s.replies ∨ ∃ i client server msg, a = .serve i ∧
      s.tasks[i]? = some (.asked client server msg) ∧
      r = ⟨client, server, msg, (dispatch (s.node server).store msg).1⟩ := by
  rcases mem_replies.1 hr with hres | ⟨task, htask, hreply⟩
  · exact .inl (taskStep_results h hres)
  · rcases taskStep_tasks h htask with
      hold | ⟨hnone, -⟩ | ⟨-, old, hold, hsame⟩ | ⟨i, client, server, msg, ha, hi, rfl⟩
    · exact .inl (mem_replies.2 (.inr ⟨task, hold, hreply⟩))
    · rw [hnone] at hreply
      cases hreply
    · exact .inl (mem_replies.2 (.inr ⟨old, hold, hsame.trans hreply⟩))
    · rw [reply_served] at hreply
      exact .inr ⟨i, client, server, msg, ha, hi, (Option.some.inj hreply).symm⟩

variable {server client : Nat} {msg : Message}

theorem file_served {f : ConfigFile}
    (h : (served s client server msg).file? = some f) : carried msg = some f := by
  unfold served at h
  rw [← dispatch_snd (s.node server).store msg]
  split at h
  · cases h
  · rename_i file hfile
    rw [hfile]
    exact h

theorem Inv.asked_step (hinv : Inv s₀ s) (h : taskStep s a = some t) :
    ∀ task ∈ t.tasks, ∀ f, task.file? = some f → f ∈ t.published := by
  intro task htask f hf
  have hpub := taskStep_published h
  rcases taskStep_tasks h htask with
    hold | ⟨-, hknown⟩ | ⟨hnone, -⟩ | ⟨i, client, server, msg, -, hi, rfl⟩
  · exact hpub f (hinv.asked task hold f hf)
  · rcases hknown f hf with hnew | ⟨old, hold, hfile⟩
    · exact hnew
    · exact hpub f (hinv.asked old hold f hfile)
  · rw [hnone] at hf
    cases hf
  · exact hpub f (hinv.asked _ (List.mem_of_getElem? hi) f (file_served hf))

/-- What a step submits has been published. -/
theorem Inv.submitted_step (hinv : Inv s₀ s) (h : taskStep s a = some t)
    {n : Nat} {b : StoreQueue.Act} (hb : queueAct s a = some (n, b)) :
    ∀ f ∈ StoreQueue.submitted [b], f ∈ t.published := by
  intro f hf
  cases a with
  | upload m file =>
    obtain rfl := Option.some.inj h
    obtain ⟨rfl, rfl⟩ := Prod.mk.inj (Option.some.inj hb)
    obtain rfl : f = file := by simpa [StoreQueue.submitted] using hf
    simp
  | serve i =>
    simp only [queueAct] at hb
    split at hb
    · rename_i client server msg hi
      rw [dispatch_snd] at hb
      rcases Option.map_eq_some_iff.1 hb with ⟨file, hfile, heq⟩
      obtain ⟨rfl, rfl⟩ := Prod.mk.inj heq
      obtain rfl : f = file := by simpa [StoreQueue.submitted] using hf
      exact taskStep_published h f (hinv.asked _ (List.mem_of_getElem? hi) f hfile)
    · cases hb
  | send i =>
    simp only [queueAct] at hb
    split at hb
    · obtain ⟨rfl, rfl⟩ := Prod.mk.inj (Option.some.inj hb)
      simp [StoreQueue.submitted] at hf
    · cases hb
  | consume m c =>
    obtain ⟨rfl, rfl⟩ := Prod.mk.inj (Option.some.inj hb)
    cases c <;> simp [ConsumerAct.act, StoreQueue.submitted] at hf
  | call | finish | lose => cases hb

/-- The metadata that a server answers with. -/
theorem Inv.read_served (hinv : Inv s₀ s) (hread : ∀ n, Readable (s₀ n)) {m : ConfigFileMeta}
    (hm : Reply.read ⟨client, server, msg, (dispatch (s.node server).store msg).1⟩ = some m)
    (hname : ConfigStore.Plain m.name) :
    (∃ f : ConfigFile, (f ∈ s.published ∨ (s₀ server).getFile m.name = .ok (some f)) ∧
      f.toMeta = m) ∧ (m.version : WithBot ℕ) ≤ (s.node server).store.version? m.name := by
  unfold Reply.read at hm
  split at hm
  · rename_i name sentName version timestamp checksum hmsg hanswer
    have hmsg' : msg = .queryVersion name := hmsg
    subst hmsg'
    have hanswer' : (dispatch (s.node server).store (.queryVersion name)).1 =
      .versionInfo sentName version timestamp checksum := hanswer
    split at hm
    · cases hm
    · rename_i hzero
      obtain rfl := Option.some.inj hm
      have hname : ConfigStore.Plain name := hname
      rcases (hinv.sound server name hname).current (hread server) hname with
        ⟨hmeta, -⟩ | ⟨f, m, hmeta, hfm, -, hfrom⟩
      · -- there is no entry, and the answer is made of zeros
        rw [dispatch, hmeta] at hanswer'
        cases hanswer'
        exact absurd ⟨rfl, rfl⟩ hzero
      · rw [dispatch, hmeta] at hanswer'
        cases hanswer'
        refine ⟨⟨f, hfrom.imp_left (hinv.received server f), hfm⟩, ?_⟩
        show (m.version : WithBot ℕ) ≤ (s.node server).store.version? name
        rw [ConfigStore.version?, hmeta]
  · cases hm

/-- The file that a server answers with. -/
theorem Inv.file_served (hinv : Inv s₀ s) (hread : ∀ n, Readable (s₀ n)) {g : ConfigFile}
    (hg : Reply.file ⟨client, server, msg, (dispatch (s.node server).store msg).1⟩ = some g)
    (hname : ConfigStore.Plain g.name) :
    (∃ f : ConfigFile, (f ∈ s.published ∨ (s₀ server).getFile g.name = .ok (some f)) ∧
      { f with timestamp := 0 } = g) ∧
      (g.version : WithBot ℕ) ≤ (s.node server).store.version? g.name := by
  unfold Reply.file at hg
  split at hg
  · rename_i name fromVersion sentName version content checksum hmsg hanswer
    have hmsg' : msg = .requestFile name fromVersion := hmsg
    subst hmsg'
    have hanswer' : (dispatch (s.node server).store (.requestFile name fromVersion)).1 =
      .fileResponse sentName version content checksum := hanswer
    split at hg
    · cases hg
    · rename_i hzero
      obtain rfl := Option.some.inj hg
      have hname : ConfigStore.Plain name := hname
      rcases (hinv.sound server name hname).current (hread server) hname with
        ⟨-, hget⟩ | ⟨f, m, hmeta, hfm, hget, hfrom⟩
      · -- there is no file, and the answer is an empty one
        rw [dispatch, hget] at hanswer'
        cases hanswer'
        exact absurd ⟨rfl, rfl⟩ hzero
      · rw [dispatch, hget] at hanswer'
        cases hanswer'
        have hfname : f.name = name := congrArg ConfigFileMeta.name hfm
        refine ⟨⟨f, hfrom.imp_left (hinv.received server f), by rw [← hfname]⟩, ?_⟩
        have hversion : f.version = m.version := congrArg ConfigFileMeta.version hfm
        show (f.version : WithBot ℕ) ≤ (s.node server).store.version? name
        rw [ConfigStore.version?, hmeta, hversion]
  · cases hg

/-- The answer that a server gives is true. -/
theorem Inv.truthful_served (hinv : Inv s₀ s) (hread : ∀ n, Readable (s₀ n))
    (client server : Nat) (msg : Message) :
    Truthful s₀ s ⟨client, server, msg, (dispatch (s.node server).store msg).1⟩ where
  read _ hm hname := hinv.read_served hread hm hname
  file _ hg hname := hinv.file_served hread hg hname

theorem stored_served {f : ConfigFile}
    (h : Reply.stored ⟨client, server, msg, (dispatch (s.node server).store msg).1⟩ = some f) :
    carried msg = some f := by
  unfold Reply.stored at h
  split at h
  · exact h
  · cases h

/-- A step leaves a node alone, or is one step of its queue. -/
theorem node_cases (n : Nat) (h : step enc s a = some s') :
    ((∀ b, queueAct s a ≠ some (n, b)) ∧ s'.node n = s.node n ∧
      s'.received n = s.received n) ∨
    ∃ b, queueAct s a = some (n, b) ∧ StoreQueue.step enc (s.node n) b = some (s'.node n) ∧
      s'.received n = s.received n ++ StoreQueue.submitted [b] := by
  have hnode := node_step n h
  have hreceived := received_step n h
  unfold actsAt at hnode hreceived
  split at hnode
  · rename_i hnone
    rw [hnone] at hreceived
    exact .inl ⟨by simp [hnone], (Option.some.inj hnode).symm,
      hreceived.trans (List.append_nil _)⟩
  · rename_i m b hsome
    rw [hsome] at hreceived
    by_cases hm : m = n
    · subst hm
      simp only [if_pos] at hnode hreceived
      rcases run_cons_eq_some hnode with ⟨q, hstep, hq⟩
      obtain rfl := Option.some.inj hq
      refine .inr ⟨b, hsome, hstep, hreceived.trans ?_⟩
      rw [List.flatMap_singleton]
    · simp only [if_neg hm] at hnode hreceived
      exact .inl ⟨by simp [hsome, hm], (Option.some.inj hnode).symm,
        hreceived.trans (List.append_nil _)⟩

/-- What a step does apart from the queues is its step of the tasks. -/
theorem step_tasks (h : step enc s a = some s') :
    ∃ t, taskStep s a = some t ∧ s'.tasks = t.tasks ∧ s'.results = t.results ∧
      s'.published = t.published := by
  rcases step_cases h with ⟨t, ht, ⟨-, rfl⟩ | ⟨n, b, q, -, -, rfl⟩⟩
  · exact ⟨_, ht, rfl, rfl, rfl⟩
  · exact ⟨t, ht, rfl, rfl, rfl⟩

theorem Inv.version_le (hinv : Inv s₀ s)
    (hplain : ∀ f ∈ s.published, ConfigStore.Plain f.name) (h : step enc s a = some s') (n : Nat)
    (hname : ConfigStore.Plain name) :
    (s.node n).store.version? name ≤ (s'.node n).store.version? name := by
  rcases node_cases n h with ⟨-, hsame, -⟩ | ⟨b, -, hstep, -⟩
  · rw [hsame]
  · exact version_le_step (hinv.sound n name hname) hstep
      (fun f hf => hplain f (hinv.received n f hf)) hname

theorem Truthful.mono {r : Reply} (htrue : Truthful s₀ s r)
    (hpub : ∀ f ∈ s.published, f ∈ s'.published)
    (hversion : ∀ name, ConfigStore.Plain name →
      (s.node r.server).store.version? name ≤ (s'.node r.server).store.version? name) :
    Truthful s₀ s' r where
  read m hm hname := by
    obtain ⟨⟨f, hf, hfm⟩, hle⟩ := htrue.read m hm hname
    exact ⟨⟨f, hf.imp_left (hpub f), hfm⟩, hle.trans (hversion m.name hname)⟩
  file g hg hname := by
    obtain ⟨⟨f, hf, hfg⟩, hle⟩ := htrue.file g hg hname
    exact ⟨⟨f, hf.imp_left (hpub f), hfg⟩, hle.trans (hversion g.name hname)⟩

theorem inv_step (hinv : Inv s₀ s) (hread : ∀ n, Readable (s₀ n))
    (hplain : ∀ f ∈ s.published, ConfigStore.Plain f.name) (h : step enc s a = some s') :
    Inv s₀ s' := by
  rcases step_tasks h with ⟨t, ht, htasks, hresults, hpublished⟩
  have hpub : ∀ f ∈ s.published, f ∈ s'.published := by
    rw [hpublished]
    exact taskStep_published ht
  have hreplies : ∀ r ∈ s'.replies, r ∈ t.replies := by
    intro r hr
    rwa [St.replies, htasks, hresults] at hr
  have hreceived : ∀ n, ∀ f ∈ s.received n, f ∈ s'.received n := by
    intro n f hf
    rcases node_cases n h with ⟨-, -, hsame⟩ | ⟨b, -, -, hnew⟩
    · rwa [hsame]
    · rw [hnew]
      exact List.mem_append_left _ hf
  refine ⟨?_, ?_, ?_, ?_, ?_⟩
  · rw [htasks, hpublished]
    exact hinv.asked_step ht
  · intro n f hf
    rcases node_cases n h with ⟨-, -, hsame⟩ | ⟨b, hb, -, hnew⟩
    · rw [hsame] at hf
      exact hpub f (hinv.received n f hf)
    · rw [hnew, List.mem_append] at hf
      rcases hf with hold | hsub
      · exact hpub f (hinv.received n f hold)
      · rw [hpublished]
        exact hinv.submitted_step ht hb f hsub
  · intro n name hname
    rcases node_cases n h with ⟨-, hnode, hsame⟩ | ⟨b, -, hstep, hnew⟩
    · rw [hnode, hsame]
      exact hinv.sound n name hname
    · rw [hnew]
      exact (hinv.sound n name hname).step hstep
        (fun f hf => hplain f (hinv.received n f hf)) hname
  · intro r hr
    have htrue : Truthful s₀ s r := by
      rcases replies_step ht (hreplies r hr) with hold | ⟨i, client, server, msg, -, -, rfl⟩
      · exact hinv.truthful r hold
      · exact hinv.truthful_served hread client server msg
    exact htrue.mono hpub fun name hname => hinv.version_le hplain h r.server hname
  · intro r hr f hf
    rcases replies_step ht (hreplies r hr) with hold | ⟨i, client, server, msg, rfl, hi, rfl⟩
    · exact hreceived r.server f (hinv.acknowledged r hold f hf)
    · -- the file of an acknowledged request is submitted in the same step
      have hb : queueAct s (.serve i) = some (server, .insert f) := by
        simp only [queueAct, hi, dispatch_snd, stored_served hf, Option.map_some]
      rcases node_cases server h with ⟨hnone, -⟩ | ⟨b, hb', -, hnew⟩
      · exact absurd hb (hnone _)
      · rw [hb] at hb'
        obtain rfl := (Prod.mk.inj (Option.some.inj hb')).2
        show f ∈ s'.received server
        rw [hnew]
        simp [StoreQueue.submitted]

/-! ## Runs -/

theorem inv_run (hread : ∀ n, Readable (s₀ n)) {as : List Act}
    (hrun : run (step enc) (init s₀) as = some s)
    (hplain : ∀ f ∈ s.published, ConfigStore.Plain f.name) : Inv s₀ s := by
  have hkeep : ∀ (s : St) (a : Act) (s' : St),
      ((∀ f ∈ s.published, ConfigStore.Plain f.name) → Inv s₀ s) → step enc s a = some s' →
      ((∀ f ∈ s'.published, ConfigStore.Plain f.name) → Inv s₀ s') := by
    intro s a s' hI hs hp
    rcases step_tasks hs with ⟨t, ht, -, -, hpublished⟩
    have hp' : ∀ f ∈ s.published, ConfigStore.Plain f.name := by
      intro f hf
      apply hp
      rw [hpublished]
      exact taskStep_published ht f hf
    exact inv_step (hI hp') hread hp' hs
  exact run_preserves hkeep (fun _ => inv_init) hrun hplain

/-- In every run, whatever a client has read of a name, metadata or a file, is that of a file
that was published or that the server started with, and the server still has that version
or a newer one. -/
theorem reads_never_ahead (hread : ∀ n, Readable (s₀ n)) (as : List Act) (s : St)
    (hrun : run (step enc) (init s₀) as = some s)
    (hplain : ∀ f ∈ s.published, ConfigStore.Plain f.name) (r : Reply) (hr : r ∈ s.results) :
    Truthful s₀ s r :=
  (inv_run hread hrun hplain).truthful r (mem_replies.2 (.inl hr))

/-- What a node has of a name. -/
theorem Inv.current (hinv : Inv s₀ s) (hread : ∀ n, Readable (s₀ n)) (n : Nat)
    (hname : ConfigStore.Plain name) :
    ((s.node n).store.version? name = ⊥ ∧ (s.node n).store.getFile name = .ok none) ∨
    ∃ f : ConfigFile, f.name = name ∧ (s.node n).store.version? name = f.version ∧
      (s.node n).store.getFile name = .ok (some f) ∧ Known s₀ s f := by
  rcases (hinv.sound n name hname).current (hread n) hname with
    ⟨hmeta, hget⟩ | ⟨f, m, hmeta, hfm, hget, hfrom⟩
  · exact .inl ⟨by rw [ConfigStore.version?, hmeta], hget⟩
  · have hfname : f.name = name := congrArg ConfigFileMeta.name hfm
    have hfversion : f.version = m.version := congrArg ConfigFileMeta.version hfm
    refine .inr ⟨f, hfname, by rw [ConfigStore.version?, hmeta, hfversion], hget, ?_⟩
    rcases hfrom with hrec | hstart
    · exact .inl (hinv.received n f hrec)
    · exact .inr ⟨n, by rwa [hfname]⟩

theorem Inv.agree (hinv : Inv s₀ s) (hread : ∀ n, Readable (s₀ n))
    (hone : OneContent s₀ s) {m n : Nat} (hname : ConfigStore.Plain name)
    (hversion : (s.node m).store.version? name = (s.node n).store.version? name) :
    (s.node m).store.getFile name = (s.node n).store.getFile name := by
  rcases hinv.current hread m hname with ⟨hm, hgetm⟩ | ⟨f, hf, hm, hgetm, hfk⟩
  · rcases hinv.current hread n hname with ⟨-, hgetn⟩ | ⟨g, -, hn, -, -⟩
    · rw [hgetm, hgetn]
    · rw [hm, hn] at hversion
      cases hversion
  · rcases hinv.current hread n hname with ⟨hn, -⟩ | ⟨g, hg, hn, hgetn, hgk⟩
    · rw [hm, hn] at hversion
      cases hversion
    · have hfg : f = g := by
        apply hone f g hfk hgk (hf.trans hg.symm)
        rw [hm, hn] at hversion
        exact_mod_cast hversion
      rw [hgetm, hgetn, hfg]

/-- In every run in which no two files share name and version, nodes with the same version
of a name have the same file. -/
theorem replicas_agree (hread : ∀ n, Readable (s₀ n)) (as : List Act) (s : St)
    (hrun : run (step enc) (init s₀) as = some s)
    (hplain : ∀ f ∈ s.published, ConfigStore.Plain f.name) (hone : OneContent s₀ s)
    (m n : Nat) (name : Str) (hname : ConfigStore.Plain name)
    (hversion : (s.node m).store.version? name = (s.node n).store.version? name) :
    (s.node m).store.getFile name = (s.node n).store.getFile name :=
  (inv_run hread hrun hplain).agree hread hone hname hversion

/-! ## Drained queues -/

/-- The newest version is the join of what was there and what was submitted. -/
theorem newest_eq_joined (s₁ : ConfigStore) (files : List ConfigFile) (name : Str) :
    StoreQueue.newest s₁ files name =
      joined (s₁.version? name)
        ((files.filter fun f => f.name = name).map fun f => (f.version : WithBot ℕ)) := by
  rw [StoreQueue.newest, joined, List.foldr_map]

/-- A quiet node has the newest of what it started with and what it received. -/
theorem version_of_quiet {as : List Act} (hrun : run (step enc) (init s₀) as = some s)
    (hcov : Along (step enc) Covered (init s₀) as) {n : Nat}
    (hplain : ∀ f ∈ s.received n, ConfigStore.Plain f.name) (hquiet : Quiet s n)
    (hname : ConfigStore.Plain name) :
    (s.node n).store.version? name = StoreQueue.newest (s₀ n) (s.received n) name := by
  rcases exists_queue_run n hrun with ⟨qs, hqrun, hqs, hqcov⟩
  rw [← hqs] at hplain ⊢
  have hinv := run_invariant (h := [])
    (fun h q => (∀ f ∈ StoreQueue.submitted h, ConfigStore.Plain f.name) →
      StoreQueue.Inv (s₀ n) name h q)
    (by
      intro h q b q' hI hc hs hp
      have hp' : ∀ f ∈ StoreQueue.submitted h, ConfigStore.Plain f.name := by
        intro f hf
        exact hp f (by rw [StoreQueue.submitted_append]; exact List.mem_append_left _ hf)
      exact StoreQueue.inv_step enc hname (hI hp') hp' hc hs)
    (fun _ => StoreQueue.inv_init) (hqcov hcov) hqrun
  exact (StoreQueue.Inv.keepsNewest (hinv hplain) hquiet).version

/-- In every run that overwrites no newer pending file, two quiet nodes that started with
the same version of a name and received the same files for it, in any order and any number
of times, have the same file. -/
theorem replicas_converge (hread : ∀ n, Readable (s₀ n)) (as : List Act) (s : St)
    (hrun : run (step enc) (init s₀) as = some s)
    (hplain : ∀ f ∈ s.published, ConfigStore.Plain f.name) (hone : OneContent s₀ s)
    (hcov : Along (step enc) Covered (init s₀) as) (m n : Nat) (hm : Quiet s m) (hn : Quiet s n)
    (name : Str) (hname : ConfigStore.Plain name)
    (hstart : (s₀ m).version? name = (s₀ n).version? name)
    (hsame : ∀ f : ConfigFile, f.name = name → (f ∈ s.received m ↔ f ∈ s.received n)) :
    (s.node m).store.getFile name = (s.node n).store.getFile name := by
  have hinv := inv_run hread hrun hplain
  have hplain' : ∀ k, ∀ f ∈ s.received k, ConfigStore.Plain f.name :=
    fun k f hf => hplain f (hinv.received k f hf)
  apply hinv.agree hread hone hname
  rw [version_of_quiet hrun hcov (hplain' m) hm hname,
    version_of_quiet hrun hcov (hplain' n) hn hname, newest_eq_joined, newest_eq_joined, hstart]
  apply joined_congr
  intro v
  simp only [List.mem_map, List.mem_filter, decide_eq_true_eq]
  constructor
  · rintro ⟨f, ⟨hf, hfn⟩, rfl⟩
    exact ⟨f, ⟨(hsame f hfn).1 hf, hfn⟩, rfl⟩
  · rintro ⟨f, ⟨hf, hfn⟩, rfl⟩
    exact ⟨f, ⟨(hsame f hfn).2 hf, hfn⟩, rfl⟩

/-- In every such run, a file whose storing was acknowledged to a client is not lost: once
the server is quiet it has that version or a newer one. -/
theorem acknowledged_kept (hread : ∀ n, Readable (s₀ n)) (as : List Act) (s : St)
    (hrun : run (step enc) (init s₀) as = some s)
    (hplain : ∀ f ∈ s.published, ConfigStore.Plain f.name)
    (hcov : Along (step enc) Covered (init s₀) as) (r : Reply) (hr : r ∈ s.results)
    (f : ConfigFile) (hf : r.stored = some f) (hquiet : Quiet s r.server) :
    (f.version : WithBot ℕ) ≤ (s.node r.server).store.version? f.name := by
  have hinv := inv_run hread hrun hplain
  have hreceived := hinv.acknowledged r (mem_replies.2 (.inl hr)) f hf
  have hplain' : ∀ g ∈ s.received r.server, ConfigStore.Plain g.name :=
    fun g hg => hplain g (hinv.received _ g hg)
  rw [version_of_quiet hrun hcov hplain' hquiet (hplain' f hreceived), newest_eq_joined]
  apply le_joined_of_mem
  exact List.mem_map.2 ⟨f, List.mem_filter.2 ⟨hreceived, by simp⟩, rfl⟩

/-! ## Two nodes -/

/-- `store_remote_config` of a file. -/
def pushed (f : ConfigFile) : Message :=
  .storeFile f.name f.version f.content f.timestamp f.checksum

/-- One file through a queue. -/
def work (n : Nat) : List Act := [.consume n .recv, .consume n .remove, .consume n .store]

/-- Node 0 stores version 1, then 2, and pushes them to node 1 the other way round; node 1
asks node 0 for its version and its file. -/
def twoVersions : List Act := List.flatten [
  [.upload 0 (StoreQueue.fileV 1 [1]), .send 0], work 0,
  [.upload 0 (StoreQueue.fileV 2 [2]), .send 0], work 0,
  [.call 0 1 (pushed (StoreQueue.fileV 2 [2])), .serve 0, .send 0, .finish 0], work 1,
  [.call 0 1 (pushed (StoreQueue.fileV 1 [1])), .serve 0, .send 0, .finish 0], work 1,
  [.call 1 0 (.queryVersion "space_settings".toList), .serve 0, .finish 0],
  [.call 1 0 (.requestFile "space_settings".toList none), .serve 0, .finish 0]]

def freshNodes : Nat → ConfigStore := fun _ => StoreQueue.emptyStore

theorem readable_freshNodes (n : Nat) : Readable (freshNodes n) := fun _ _ => ⟨none, rfl⟩

theorem oneContent_twoVersions
    (hpub : ∀ f ∈ s.published, f = StoreQueue.fileV 1 [1] ∨ f = StoreQueue.fileV 2 [2]) :
    OneContent freshNodes s := by
  have hknown : ∀ f, Known freshNodes s f →
      f = StoreQueue.fileV 1 [1] ∨ f = StoreQueue.fileV 2 [2] := by
    rintro f (hf | ⟨n, hn⟩)
    · exact hpub f hf
    · cases hn
  intro f g hf hg _ hversion
  rcases hknown f hf with rfl | rfl <;> rcases hknown g hg with rfl | rfl
  · rfl
  · cases hversion
  · cases hversion
  · rfl

def twoVersionsEnd : St :=
  (run (step fun _ => []) (init freshNodes) twoVersions).getD (init freshNodes)

theorem run_twoVersions :
    run (step fun _ => []) (init freshNodes) twoVersions = some twoVersionsEnd := by
  have hsome : (run (step fun _ => []) (init freshNodes) twoVersions).isSome = true := by
    decide +kernel
  rcases Option.isSome_iff_exists.1 hsome with ⟨s, hs⟩
  rw [twoVersionsEnd, hs, Option.getD_some]

theorem plain_twoVersions : ∀ f ∈ twoVersionsEnd.published, ConfigStore.Plain f.name := by
  decide

theorem oneContent_twoVersionsEnd : OneContent freshNodes twoVersionsEnd :=
  oneContent_twoVersions (by decide)

/-- Node 1 has read version 2 of node 0, and its file. -/
theorem reads_never_ahead_two :
    Truthful freshNodes twoVersionsEnd ⟨1, 0, .queryVersion "space_settings".toList,
        .versionInfo "space_settings".toList 2 2 none⟩ ∧
      Truthful freshNodes twoVersionsEnd ⟨1, 0, .requestFile "space_settings".toList none,
        .fileResponse "space_settings".toList 2 [2] none⟩ :=
  ⟨reads_never_ahead readable_freshNodes twoVersions _ run_twoVersions plain_twoVersions _
      (by decide),
    reads_never_ahead readable_freshNodes twoVersions _ run_twoVersions plain_twoVersions _
      (by decide)⟩

/-- Both have version 2. -/
theorem replicas_agree_two :
    (twoVersionsEnd.node 0).store.getFile "space_settings".toList =
      (twoVersionsEnd.node 1).store.getFile "space_settings".toList :=
  replicas_agree readable_freshNodes twoVersions _ run_twoVersions plain_twoVersions
    oneContent_twoVersionsEnd 0 1 _ (by decide) (by decide)

theorem same_received (f : ConfigFile) :
    f ∈ twoVersionsEnd.received 0 ↔ f ∈ twoVersionsEnd.received 1 := by
  show f ∈ [StoreQueue.fileV 1 [1], StoreQueue.fileV 2 [2]] ↔
    f ∈ [StoreQueue.fileV 2 [2], StoreQueue.fileV 1 [1]]
  simp [or_comm]

theorem covered_twoVersions : Along (step fun _ => []) Covered (init freshNodes) twoVersions := by
  decide

theorem replicas_converge_two :
    (twoVersionsEnd.node 0).store.getFile "space_settings".toList =
      (twoVersionsEnd.node 1).store.getFile "space_settings".toList :=
  replicas_converge readable_freshNodes twoVersions _ run_twoVersions plain_twoVersions
    oneContent_twoVersionsEnd covered_twoVersions 0 1 (by decide) (by decide) _ (by decide) rfl
    fun f _ => same_received f

theorem acknowledged_kept_two :
    (1 : WithBot ℕ) ≤ (twoVersionsEnd.node 1).store.version? "space_settings".toList :=
  acknowledged_kept readable_freshNodes twoVersions _ run_twoVersions plain_twoVersions
    covered_twoVersions ⟨0, 1, pushed (StoreQueue.fileV 1 [1]),
      .storeAck "space_settings".toList true none⟩
    (by decide) (StoreQueue.fileV 1 [1]) rfl (by decide)

end StoreNetwork

end HomeTier
