import HomeTier.Lib.Trace
import HomeTier.ConfigStore.Store

/-! # The store queue

`src-tauri/src/config_store/queue.rs`. `submit` overwrites the pending entry of
the file's name and then, outside the lock, sends the file on an unbounded
channel; one consumer task receives a message, removes the pending entry of
the message's name and stores what it removed. The three steps of the consumer
and the two steps of every `submit` interleave freely:

* `insert f` / `send f` — the two halves of `submit(f)`;
* `recv` / `remove` / `store` — one round of the consumer.

The pending map holds one file per name, and `insert` replaces it without
looking at the versions. A run in which no `insert` throws away a file newer
than everything that can still reach the store (`Covered`) leaves, once the
channel is drained, the newest submitted version in the store
(`drained_keeps_newest`); a run that overwrites a pending file by an older one
loses it (`overwritten_update_lost`).
-/

namespace HomeTier

open Lib

namespace StoreQueue

/-- Where the consumer task stands in its loop. -/
inductive Consumer where
  | waiting
  | received (name : Str)
  | taken (actual : Option ConfigFile)
deriving DecidableEq, Repr

/-- The store, the queue and the submits that have not sent yet. -/
structure St where
  store : ConfigStore
  pending : Map Str ConfigFile
  channel : List ConfigFile
  submitting : List ConfigFile
  consumer : Consumer

inductive Act where
  | insert (file : ConfigFile)
  | send (file : ConfigFile)
  | recv
  | remove
  | store
deriving DecidableEq, Repr

/-- An idle queue in front of `store`. -/
def init (store : ConfigStore) : St where
  store := store
  pending := ∅
  channel := []
  submitting := []
  consumer := .waiting

/-- One step of a submitter or of the consumer; file writes succeed. -/
def step (enc : ConfigStore.IndexEncoder) (s : St) : Act → Option St
  | .insert f =>
    some { s with
      pending := s.pending.insert f.name f
      submitting := f :: s.submitting }
  | .send f =>
    if f ∈ s.submitting then
      some { s with
        submitting := s.submitting.erase f
        channel := s.channel ++ [f] }
    else none
  | .recv =>
    match s.consumer, s.channel with
    | .waiting, task :: rest => some { s with channel := rest, consumer := .received task.name }
    | _, _ => none
  | .remove =>
    match s.consumer with
    | .received name =>
      some { s with
        pending := s.pending.erase name
        consumer := .taken (s.pending.lookup name) }
    | _ => none
  | .store =>
    match s.consumer with
    | .taken none => some { s with consumer := .waiting }
    | .taken (some actual) =>
      -- an `Err` of the store is only logged
      some { s with store := (s.store.store enc .allOk actual).1, consumer := .waiting }
    | _ => none

/-- The files submitted in a run, in order. -/
def submitted (as : List Act) : List ConfigFile :=
  as.filterMap fun
    | .insert f => some f
    | _ => none

/-- Every submit has sent, the channel is empty and the consumer waits. -/
def Drained (s : St) : Prop :=
  s.channel = [] ∧ s.submitting = [] ∧ s.consumer = .waiting

instance (s : St) : Decidable (Drained s) := inferInstanceAs (Decidable (_ ∧ _ ∧ _))

/-- The largest of the initial version of `n` and the versions submitted for it. -/
def newest (s₀ : ConfigStore) (files : List ConfigFile) (n : Str) : WithBot ℕ :=
  (files.filter fun f => f.name = n).foldr (fun f v => max ↑f.version v) (s₀.version? n)

/-- The store holds the newest version of `n` and the file that goes with it. -/
structure KeepsNewest (s₀ : ConfigStore) (files : List ConfigFile) (s : ConfigStore)
    (n : Str) : Prop where
  version : s.version? n = newest s₀ files n
  updated : s₀.version? n < s.version? n →
    ∃ f ∈ files, f.name = n ∧ (f.version : WithBot ℕ) = s.version? n ∧
      s.getFile n = .ok (some f)
  kept : ¬ s₀.version? n < s.version? n → s.getFile n = s₀.getFile n

/-- Version of the file of `n` that the consumer is about to store. -/
def heldVersion (s : St) (n : Str) : WithBot ℕ :=
  match s.consumer with
  | .taken (some f) => if f.name = n then f.version else ⊥
  | _ => ⊥

/-- Version of the pending file of `n`. -/
def pendingVersion (s : St) (n : Str) : WithBot ℕ :=
  match s.pending.lookup n with
  | none => ⊥
  | some f => f.version

/-- The pending file a submit replaces is no newer than the new file, the
stored file and the file being stored. -/
def Covered (s : St) : Act → Prop
  | .insert f =>
    pendingVersion s f.name ≤
      max (f.version : WithBot ℕ) (max (s.store.version? f.name) (heldVersion s f.name))
  | _ => True

instance : ∀ s a, Decidable (Covered s a)
  | _, .insert _ => inferInstanceAs (Decidable (_ ≤ _))
  | _, .send _ => .isTrue trivial
  | _, .recv => .isTrue trivial
  | _, .remove => .isTrue trivial
  | _, .store => .isTrue trivial

/-! ## The invariant

`newest` says that nothing newer was lost: what was submitted is in the store,
in the consumer's hands or still pending. `outstanding` says that a pending
entry has a message that will make the consumer pick it up. -/

structure Inv (s₀ : ConfigStore) (n : Str) (h : List Act) (s : St) : Prop where
  newest : newest s₀ (submitted h) n =
    max (s.store.version? n) (max (heldVersion s n) (pendingVersion s n))
  pendingMem : ∀ m f, s.pending.lookup m = some f → f.name = m ∧ f ∈ submitted h
  heldMem : ∀ f, s.consumer = .taken (some f) → f ∈ submitted h
  outstanding : s.pending.lookup n ≠ none →
    s.consumer = .received n ∨ ∃ f ∈ s.channel ++ s.submitting, f.name = n
  stored : (s.store.getMeta n = s₀.getMeta n ∧ s.store.getFile n = s₀.getFile n) ∨
    ∃ f ∈ submitted h, f.name = n ∧ s₀.version? n < (f.version : WithBot ℕ) ∧
      s.store.getMeta n = some f.toMeta ∧ s.store.getFile n = .ok (some f)

theorem submitted_append (h : List Act) (a : Act) :
    submitted (h ++ [a]) = submitted h ++ submitted [a] := by
  simp [submitted]

theorem newest_append (s₀ : ConfigStore) (files : List ConfigFile) (f : ConfigFile) (n : Str) :
    newest s₀ (files ++ [f]) n =
      if f.name = n then max ↑f.version (newest s₀ files n) else newest s₀ files n := by
  have hfold : ∀ (l : List ConfigFile) (v : WithBot ℕ),
      l.foldr (fun g w => max (↑g.version : WithBot ℕ) w) (max ↑f.version v) =
        max ↑f.version (l.foldr (fun g w => max (↑g.version : WithBot ℕ) w) v) := by
    intro l v
    induction l with
    | nil => rfl
    | cons g l ih => simp only [List.foldr_cons, ih, max_left_comm]
  by_cases hn : f.name = n
  · simp [newest, hn, hfold]
  · simp [newest, hn]

variable {s₀ : ConfigStore} {n : Str} {h : List Act} {s : St}

theorem inv_init : Inv s₀ n [] (init s₀) where
  newest := by simp [StoreQueue.newest, submitted, init, heldVersion, pendingVersion]
  pendingMem := by simp [init]
  heldMem := by simp [init]
  outstanding := by simp [init]
  stored := .inl ⟨rfl, rfl⟩

theorem inv_insert {f : ConfigFile} (hinv : Inv s₀ n h s) (hcov : Covered s (.insert f)) :
    Inv s₀ n (h ++ [.insert f]) { s with
      pending := s.pending.insert f.name f
      submitting := f :: s.submitting } := by
  have hsub : submitted (h ++ [.insert f]) = submitted h ++ [f] := by simp [submitted]
  have hmem : ∀ {g}, g ∈ submitted h → g ∈ submitted (h ++ [.insert f]) := by
    intro g hg
    simp [hsub, hg]
  have hpendMem : ∀ m g, (s.pending.insert f.name f).lookup m = some g →
      g.name = m ∧ g ∈ submitted (h ++ [.insert f]) := by
    intro m g hg
    by_cases hm : m = f.name
    · subst hm
      have hg' : f = g := by simpa using hg
      subst hg'
      exact ⟨rfl, by simp [hsub]⟩
    · rw [AList.lookup_insert_ne hm] at hg
      exact ⟨(hinv.pendingMem m g hg).1, hmem (hinv.pendingMem m g hg).2⟩
  have hstored : (s.store.getMeta n = s₀.getMeta n ∧ s.store.getFile n = s₀.getFile n) ∨
      ∃ g ∈ submitted (h ++ [.insert f]), g.name = n ∧ s₀.version? n < (g.version : WithBot ℕ) ∧
        s.store.getMeta n = some g.toMeta ∧ s.store.getFile n = .ok (some g) := by
    rcases hinv.stored with hold | ⟨g, hg, hrest⟩
    · exact .inl hold
    · exact .inr ⟨g, hmem hg, hrest⟩
  by_cases hn : f.name = n
  · -- the entry of `n` is replaced: `Covered` bounds what is thrown away
    have hpend : pendingVersion { s with
        pending := s.pending.insert f.name f
        submitting := f :: s.submitting } n = f.version := by
      simp [pendingVersion, hn]
    refine ⟨?_, hpendMem, fun g hg => hmem (hinv.heldMem g hg), ?_, hstored⟩
    · rw [hsub, newest_append, if_pos hn, hinv.newest, hpend]
      have hle : pendingVersion s n ≤
          max (f.version : WithBot ℕ) (max (s.store.version? n) (heldVersion s n)) := by
        simpa [Covered, hn] using hcov
      change _ = max (s.store.version? n) (max (heldVersion s n) ↑f.version)
      apply le_antisymm
      · refine max_le (by simp) (max_le (by simp) (max_le (by simp) ?_))
        refine hle.trans (max_le (by simp) (max_le (by simp) (by simp)))
      · exact max_le (by simp) (max_le (by simp) (by simp))
    · intro _
      exact .inr ⟨f, by simp, hn⟩
  · -- another name: the entry of `n` is untouched
    have hlook : (s.pending.insert f.name f).lookup n = s.pending.lookup n :=
      AList.lookup_insert_ne (Ne.symm hn)
    refine ⟨?_, hpendMem, fun g hg => hmem (hinv.heldMem g hg), ?_, hstored⟩
    · rw [hsub, newest_append, if_neg hn, hinv.newest]
      simp only [pendingVersion, heldVersion, hlook]
    · intro hne
      rw [hlook] at hne
      rcases hinv.outstanding hne with hrec | ⟨g, hg, hgn⟩
      · exact .inl hrec
      · refine .inr ⟨g, ?_, hgn⟩
        simp only [List.mem_append, List.mem_cons] at hg ⊢
        tauto

theorem inv_send {f : ConfigFile} (hinv : Inv s₀ n h s) :
    Inv s₀ n (h ++ [.send f]) { s with
      submitting := s.submitting.erase f
      channel := s.channel ++ [f] } := by
  have hsub : submitted (h ++ [.send f]) = submitted h := by simp [submitted]
  refine ⟨?_, ?_, ?_, ?_, ?_⟩
  · rw [hsub]
    exact hinv.newest
  · rw [hsub]
    exact hinv.pendingMem
  · rw [hsub]
    exact hinv.heldMem
  · intro hne
    rcases hinv.outstanding hne with hrec | ⟨g, hg, hgn⟩
    · exact .inl hrec
    · -- the message moves from the submitters to the channel
      refine .inr ⟨g, ?_, hgn⟩
      by_cases hgf : g = f
      · simp [hgf]
      · have hmem : g ∈ s.submitting.erase f ↔ g ∈ s.submitting := List.mem_erase_of_ne hgf
        simp only [List.mem_append, List.mem_singleton] at hg ⊢
        tauto
  · rw [hsub]
    exact hinv.stored

theorem inv_recv {task : ConfigFile} {rest : List ConfigFile} (hinv : Inv s₀ n h s)
    (hw : s.consumer = .waiting) (hc : s.channel = task :: rest) :
    Inv s₀ n (h ++ [.recv]) { s with channel := rest, consumer := .received task.name } := by
  have hsub : submitted (h ++ [.recv]) = submitted h := by simp [submitted]
  refine ⟨?_, ?_, ?_, ?_, ?_⟩
  · rw [hsub, hinv.newest]
    simp [heldVersion, pendingVersion, hw]
  · rw [hsub]
    exact hinv.pendingMem
  · simp
  · intro hne
    rcases hinv.outstanding hne with hrec | ⟨g, hg, hgn⟩
    · simp [hw] at hrec
    · by_cases hgt : g = task
      · exact .inl (by simp [← hgn, hgt])
      · refine .inr ⟨g, ?_, hgn⟩
        rw [hc] at hg
        simpa [hgt] using hg
  · rw [hsub]
    exact hinv.stored

theorem inv_remove {name : Str} (hinv : Inv s₀ n h s) (hr : s.consumer = .received name) :
    Inv s₀ n (h ++ [.remove]) { s with
      pending := s.pending.erase name
      consumer := .taken (s.pending.lookup name) } := by
  have hsub : submitted (h ++ [.remove]) = submitted h := by simp [submitted]
  refine ⟨?_, ?_, ?_, ?_, ?_⟩
  · -- what was pending for `name` is now held; nothing else changes
    rw [hsub, hinv.newest]
    cases hp : s.pending.lookup name with
    | none =>
      by_cases hn : n = name
      · subst hn
        simp [heldVersion, pendingVersion, hr, hp]
      · simp [heldVersion, pendingVersion, hr, AList.lookup_erase_ne hn]
    | some f =>
      have hfn : f.name = name := (hinv.pendingMem name f hp).1
      by_cases hn : n = name
      · subst hn
        simp [heldVersion, pendingVersion, hr, hp, hfn]
      · simp [heldVersion, pendingVersion, hr, AList.lookup_erase_ne hn, hfn, Ne.symm hn]
  · intro m f hf
    rw [hsub]
    by_cases hm : m = name
    · subst hm
      simp at hf
    · rw [AList.lookup_erase_ne hm] at hf
      exact hinv.pendingMem m f hf
  · intro f hf
    rw [hsub]
    exact (hinv.pendingMem name f (by simpa using hf)).2
  · intro hne
    by_cases hn : n = name
    · subst hn
      simp at hne
    · rw [AList.lookup_erase_ne hn] at hne
      rcases hinv.outstanding hne with hrec | hmsg
      · rw [hr] at hrec
        exact absurd (Consumer.received.inj hrec).symm hn
      · exact .inr hmsg
  · rw [hsub]
    exact hinv.stored

/-- The consumer found nothing to store. -/
theorem inv_skip (hinv : Inv s₀ n h s) (ht : s.consumer = .taken none) :
    Inv s₀ n (h ++ [.store]) { s with consumer := .waiting } := by
  have hsub : submitted (h ++ [.store]) = submitted h := by simp [submitted]
  refine ⟨?_, ?_, ?_, ?_, ?_⟩
  · rw [hsub, hinv.newest]
    simp [heldVersion, pendingVersion, ht]
  · rw [hsub]
    exact hinv.pendingMem
  · simp
  · intro hne
    rcases hinv.outstanding hne with hrec | hmsg
    · simp [ht] at hrec
    · exact .inr hmsg
  · rw [hsub]
    exact hinv.stored

/-- The initial version is never above the stored one. -/
theorem Inv.initial_le (hinv : Inv s₀ n h s) : s₀.version? n ≤ s.store.version? n := by
  rcases hinv.stored with ⟨hmeta, -⟩ | ⟨f, -, -, hlt, hmeta, -⟩
  · simp [ConfigStore.version?, hmeta]
  · have hv : s.store.version? n = f.version := by
      simp [ConfigStore.version?, hmeta, ConfigFile.toMeta]
    rw [hv]
    exact hlt.le

theorem inv_store (enc : ConfigStore.IndexEncoder) {f : ConfigFile} (hinv : Inv s₀ n h s)
    (ht : s.consumer = .taken (some f)) (hf : ConfigStore.Plain f.name)
    (hn : ConfigStore.Plain n) :
    Inv s₀ n (h ++ [.store]) { s with
      store := (s.store.store enc .allOk f).1
      consumer := .waiting } := by
  have hsub : submitted (h ++ [.store]) = submitted h := by simp [submitted]
  have hheld : heldVersion s n = if f.name = n then ↑f.version else ⊥ := by
    simp [heldVersion, ht]
  refine ⟨?_, ?_, ?_, ?_, ?_⟩
  · -- the held version moves into the store
    rw [hsub, hinv.newest, hheld]
    simp only [ConfigStore.version?_store enc s.store hf hn]
    by_cases hname : f.name = n
    · simp [heldVersion, pendingVersion, hname, max_assoc]
    · simp [heldVersion, pendingVersion, hname, Ne.symm hname]
  · rw [hsub]
    exact hinv.pendingMem
  · simp
  · intro hne
    rcases hinv.outstanding hne with hrec | hmsg
    · simp [ht] at hrec
    · exact .inr hmsg
  · rw [hsub]
    by_cases hle : (f.version : WithBot ℕ) ≤ s.store.version? f.name
    · -- refused: index and contents stay
      obtain ⟨hmeta, hfile⟩ := ConfigStore.store_stale enc s.store hf hle hn
      simp only [hmeta, hfile]
      exact hinv.stored
    · obtain ⟨hmeta, hfile⟩ := ConfigStore.store_fresh enc s.store hf hle hn
      by_cases hname : n = f.name
      · right
        have hlt : s₀.version? n < (f.version : WithBot ℕ) := by
          refine lt_of_le_of_lt hinv.initial_le ?_
          rw [hname]
          exact not_le.1 hle
        exact ⟨f, hinv.heldMem f ht, hname.symm, hlt, hmeta.trans (if_pos hname),
          hfile.trans (if_pos hname)⟩
      · simp only [hmeta, hfile, if_neg hname]
        exact hinv.stored

/-! ## Runs -/

/-- Every step of a run over plain names keeps the invariant. -/
theorem inv_step (enc : ConfigStore.IndexEncoder) (hn : ConfigStore.Plain n) {a : Act} {s' : St}
    (hinv : Inv s₀ n h s) (hplain : ∀ f ∈ submitted h, ConfigStore.Plain f.name)
    (hcov : Covered s a) (hstep : step enc s a = some s') : Inv s₀ n (h ++ [a]) s' := by
  cases a with
  | insert f =>
    obtain rfl := Option.some.inj hstep
    exact inv_insert hinv hcov
  | send f =>
    simp only [step] at hstep
    split at hstep
    · obtain rfl := Option.some.inj hstep
      exact inv_send hinv
    · simp at hstep
  | recv =>
    simp only [step] at hstep
    split at hstep
    · rename_i hw hc
      obtain rfl := Option.some.inj hstep
      exact inv_recv hinv hw hc
    · simp at hstep
  | remove =>
    simp only [step] at hstep
    split at hstep
    · rename_i hr
      obtain rfl := Option.some.inj hstep
      exact inv_remove hinv hr
    · simp at hstep
  | store =>
    simp only [step] at hstep
    split at hstep
    · rename_i ht
      obtain rfl := Option.some.inj hstep
      exact inv_skip hinv ht
    · rename_i ht
      obtain rfl := Option.some.inj hstep
      exact inv_store enc hinv ht (hplain _ (hinv.heldMem _ ht)) hn
    · simp at hstep

/-- A drained queue has nothing pending, so the store holds the newest version. -/
theorem Inv.keepsNewest (hinv : Inv s₀ n h s) (hd : Drained s) :
    KeepsNewest s₀ (submitted h) s.store n := by
  obtain ⟨hchan, hsubm, hcons⟩ := hd
  have hpend : s.pending.lookup n = none := by
    by_contra hne
    rcases hinv.outstanding hne with hrec | ⟨f, hf, -⟩
    · simp [hcons] at hrec
    · simp [hchan, hsubm] at hf
  have hversion : s.store.version? n = StoreQueue.newest s₀ (submitted h) n := by
    rw [hinv.newest]
    simp [heldVersion, pendingVersion, hcons, hpend]
  refine ⟨hversion, ?_, ?_⟩
  · intro hlt
    rcases hinv.stored with ⟨hmeta, -⟩ | ⟨f, hf, hfn, -, hmeta, hfile⟩
    · simp [ConfigStore.version?, hmeta] at hlt
    · refine ⟨f, hf, hfn, ?_, hfile⟩
      simp [ConfigStore.version?, hmeta, ConfigFile.toMeta]
  · intro hnlt
    rcases hinv.stored with ⟨-, hfile⟩ | ⟨f, -, -, hlt, hmeta, -⟩
    · exact hfile
    · exfalso
      apply hnlt
      simpa [ConfigStore.version?, hmeta, ConfigFile.toMeta] using hlt

/-- In every run whose submits never throw away a pending file newer than all
that can still reach the store, the drained store holds, for every name, the
newest of the initial and the submitted versions with its file. -/
theorem drained_keeps_newest (enc : ConfigStore.IndexEncoder) (s₀ : ConfigStore) (as : List Act)
    (s : St) (hrun : run (step enc) (init s₀) as = some s)
    (hplain : ∀ f ∈ submitted as, ConfigStore.Plain f.name)
    (hcov : Along (step enc) Covered (init s₀) as) (hd : Drained s) (n : Str)
    (hn : ConfigStore.Plain n) : KeepsNewest s₀ (submitted as) s.store n := by
  -- the invariant is carried under the assumption that the names seen so far are plain
  have hinv : (∀ f ∈ submitted as, ConfigStore.Plain f.name) → Inv s₀ n as s := by
    have h := run_invariant (h := [])
      (fun h s => (∀ f ∈ submitted h, ConfigStore.Plain f.name) → Inv s₀ n h s)
      (by
        intro h s a s' hI hc hs hp
        have hp' : ∀ f ∈ submitted h, ConfigStore.Plain f.name := by
          intro f hf
          exact hp f (by rw [submitted_append]; exact List.mem_append_left _ hf)
        exact inv_step enc hn (hI hp') hp' hc hs)
      (fun _ => inv_init) hcov hrun
    simpa using h
  exact (hinv hplain).keepsNewest hd

/-! ## A run of two submits -/

/-- An empty store. -/
def emptyStore : ConfigStore where
  root := ["data".toList]
  versions := ∅
  disk := fun _ => none

def fileV (version : Nat) (content : Bytes) : ConfigFile where
  name := "space_settings".toList
  version := version
  content := content
  timestamp := version
  checksum := none

/-- Version 1 is stored before version 2 is submitted. -/
def inOrder : List Act :=
  [.insert (fileV 1 [1]), .send (fileV 1 [1]), .recv, .remove, .store,
   .insert (fileV 2 [2]), .send (fileV 2 [2]), .recv, .remove, .store]

/-- Version 2 is still pending when version 1 is submitted. -/
def outOfOrder : List Act :=
  [.insert (fileV 2 [2]), .send (fileV 2 [2]), .insert (fileV 1 [1]), .send (fileV 1 [1]),
   .recv, .remove, .store, .recv, .remove, .store]

theorem drained_keeps_newest_in_order :
    ∃ s, run (step fun _ => []) (init emptyStore) inOrder = some s ∧
      KeepsNewest emptyStore (submitted inOrder) s.store "space_settings".toList :=
  ⟨_, rfl, drained_keeps_newest (fun _ => []) emptyStore inOrder _ rfl (by decide) (by decide)
    (by decide) _ (by decide)⟩

/-- A submit that overwrites a newer pending file loses it: after versions 2
and 1 the drained store holds version 1. -/
theorem overwritten_update_lost :
    ¬ ∀ (s : St), run (step fun _ => []) (init emptyStore) outOfOrder = some s → Drained s →
      KeepsNewest emptyStore (submitted outOfOrder) s.store "space_settings".toList := by
  intro h
  have hversion := (h _ rfl (by decide)).version
  revert hversion
  decide

end StoreQueue

end HomeTier
