import HomeTier.ConfigStore.Isolation
import HomeTier.Lib.Trace

/-! # Reading a configuration while it is stored

The calls of `store` and `get_file` for one name, split at their accesses to
the content file and to the in-memory index. A `store` call holds the file lock
of the name, creates the content file anew, writes it piece by piece and then
inserts the metadata. A `get_file` call takes no lock: it looks the metadata up
and then reads the file piece by piece.

Every file that is returned is one that was stored, in every run in which no
content file is created under a reader and no reader looks up metadata whose
content has been overwritten (`snapshots_of_undisturbed`).
-/

namespace HomeTier

open Lib

namespace Snapshot

/-- A `store` call that holds the lock. -/
inductive WriterPhase where
  | locked
  | checked
  /-- The content file is created; `rest` is still to be written. -/
  | writing (rest : Bytes)
  | inserted
  | leaving
deriving DecidableEq, Repr

/-- A `get_file` call. -/
inductive Reader where
  | idle
  | found (m : ConfigFileMeta)
  | reading (m : ConfigFileMeta) (acc : Bytes)
deriving DecidableEq, Repr

structure St where
  /-- The index entry of the name. -/
  index : Option ConfigFileMeta
  /-- The content file of the name. -/
  content : Option Bytes
  /-- The holder of the file lock. -/
  holder : Option (ConfigFile × WriterPhase)
  readers : Nat → Reader
  /-- History: the files whose metadata has been inserted. -/
  stored : List ConfigFile
  /-- History: the content file has been created since the last insertion. -/
  torn : Bool
  /-- History: what `get_file` has returned. -/
  returned : List ConfigFile

inductive WriterAct where
  | check
  /-- `File::create`, which may fail. -/
  | create (ok : Bool)
  /-- One write of `k` bytes. -/
  | write (k : Nat)
  | writeFailed
  | insert
  /-- `persist_versions`, with any result. -/
  | persist
  | unlock
deriving DecidableEq, Repr

inductive ReaderAct where
  | lookup
  | openFile
  /-- One read of at most `k` bytes. -/
  | read (k : Nat)
  /-- The end of the file. -/
  | finish
  | fail
deriving DecidableEq, Repr

inductive Act where
  | acquire (file : ConfigFile)
  | writer (a : WriterAct)
  | reader (r : Nat) (a : ReaderAct)
deriving DecidableEq, Repr

variable (name : Str)

/-- The store refuses what is not newer than the index entry. -/
def St.stale (s : St) (file : ConfigFile) : Bool := s.index.any fun m => m.version ≥ file.version

def writerStep (s : St) (file : ConfigFile) : WriterPhase → WriterAct → Option St
  | .locked, .check =>
    some { s with holder := some (file, if s.stale file then .leaving else .checked) }
  | .checked, .create true =>
    some { s with
      content := some []
      torn := true
      holder := some (file, .writing file.content) }
  | .checked, .create false => some { s with holder := some (file, .leaving) }
  | .writing rest, .write k =>
    if 0 < k ∧ k ≤ rest.length then
      some { s with
        content := some (s.content.getD [] ++ rest.take k)
        holder := some (file, .writing (rest.drop k)) }
    else none
  | .writing rest, .writeFailed =>
    if rest = [] then none else some { s with holder := some (file, .leaving) }
  | .writing rest, .insert =>
    if rest = [] then
      some { s with
        index := some file.toMeta
        stored := s.stored ++ [file]
        torn := false
        holder := some (file, .inserted) }
    else none
  | .inserted, .persist => some { s with holder := some (file, .leaving) }
  | .leaving, .unlock => some { s with holder := none }
  | _, _ => none

def St.setReader (s : St) (r : Nat) (reader : Reader) : St :=
  { s with readers := Function.update s.readers r reader }

/-- What `get_file` returns. -/
def assemble (m : ConfigFileMeta) (content : Bytes) : ConfigFile where
  name := name
  version := m.version
  content := content
  timestamp := m.timestamp
  checksum := m.checksum

def readerStep (s : St) (r : Nat) : Reader → ReaderAct → Option St
  | .idle, .lookup =>
    match s.index with
    | none => some s
    | some m => some (s.setReader r (.found m))
  | .found m, .openFile =>
    match s.content with
    | none => some (s.setReader r .idle)
    | some _ => some (s.setReader r (.reading m []))
  | .reading m acc, .read k =>
    if acc.length < (s.content.getD []).length then
      some (s.setReader r (.reading m (acc ++ ((s.content.getD []).drop acc.length).take k)))
    else none
  | .reading m acc, .finish =>
    if (s.content.getD []).length ≤ acc.length then
      some { s.setReader r .idle with
        returned := s.returned ++ [assemble name m acc] }
    else none
  | .found _, .fail => some (s.setReader r .idle)
  | .reading _ _, .fail => some (s.setReader r .idle)
  | _, _ => none

def step (s : St) : Act → Option St
  | .acquire file =>
    if s.holder = none ∧ file.name = name then some { s with holder := some (file, .locked) }
    else none
  | .writer a =>
    match s.holder with
    | none => none
    | some (file, phase) => writerStep s file phase a
  | .reader r a => readerStep name s r (s.readers r) a

/-- A store that holds `file`, or nothing but a leftover. -/
def start (leftover : Option Bytes) : Option ConfigFile → St
  | none => ⟨none, leftover, none, fun _ => .idle, [], false, []⟩
  | some file => ⟨some file.toMeta, some file.content, none, fun _ => .idle, [file], false, []⟩

/-- What is returned has been stored as it is. -/
def Consistent (s : St) : Prop := ∀ file ∈ s.returned, file ∈ s.stored

/-- The step comes not between the two accesses of the other side: no content
file is created under a reader, and no metadata is looked up whose content has
been overwritten. -/
def Undisturbed (s : St) : Act → Prop
  | .writer (.create true) => ∀ r, s.readers r = .idle
  | .reader _ .lookup => s.index = none ∨ s.torn = false
  | _ => True

/-! ## Calls that are not interrupted

Steps that follow one another without interruption are the calls of the store.
-/

/-- The state shows the name as the store has it. -/
structure Shows (store : ConfigStore) (s : St) : Prop where
  index : s.index = store.getMeta name
  content : s.content = store.disk (store.contentPath name)

/-- The steps of `store`. -/
def storeActs (stale : Bool) (file : ConfigFile) : List Act :=
  if stale then [.acquire file, .writer .check, .writer .unlock]
  else
    [.acquire file, .writer .check, .writer (.create true)] ++
      (if file.content = [] then [] else [.writer (.write file.content.length)]) ++
      [.writer .insert, .writer .persist, .writer .unlock]

/-- The steps of `get_file` where the name is stored. -/
def getActs (r : Nat) (content : Bytes) : List Act :=
  [.reader r .lookup, .reader r .openFile] ++
    (if content = [] then [] else [.reader r (.read content.length)]) ++ [.reader r .finish]

theorem run_storeActs {s : St} (hfree : s.holder = none) {file : ConfigFile}
    (hname : file.name = name) :
    run (step name) s (storeActs (s.stale file) file) =
      some (if s.stale file then s
        else { s with
          index := some file.toMeta
          content := some file.content
          stored := s.stored ++ [file]
          torn := false }) := by
  rcases s with ⟨index, content, holder, readers, stored, torn, returned⟩
  obtain rfl : holder = none := hfree
  cases hstale : St.stale ⟨index, content, none, readers, stored, torn, returned⟩ file with
  | true =>
    have hstale' : ∀ h, St.stale ⟨index, content, h, readers, stored, torn, returned⟩ file = true :=
      fun _ => hstale
    simp [storeActs, run, step, writerStep, hname, hstale']
  | false =>
    have hstale' : ∀ h, St.stale ⟨index, content, h, readers, stored, torn, returned⟩ file = false :=
      fun _ => hstale
    by_cases hempty : file.content = []
    · simp [storeActs, run, step, writerStep, hname, hstale', hempty]
    · have hpos := List.length_pos_of_ne_nil hempty
      simp [storeActs, run, step, writerStep, hname, hstale', hempty, hpos]

theorem run_getActs {s : St} {r : Nat} (hidle : s.readers r = .idle) {m : ConfigFileMeta}
    {content : Bytes} (hindex : s.index = some m) (hcontent : s.content = some content) :
    run (step name) s (getActs r content) =
      some { s with returned := s.returned ++ [assemble name m content] } := by
  have hback : Function.update s.readers r .idle = s.readers := by
    rw [← hidle]
    exact Function.update_eq_self r s.readers
  by_cases hempty : content = []
  · simp [getActs, run, step, readerStep, hidle, hindex, hcontent, hempty, St.setReader, hback]
  · have hpos := List.length_pos_of_ne_nil hempty
    simp [getActs, run, step, readerStep, hidle, hindex, hcontent, hempty, hpos, St.setReader, hback]

/-- The check of the version is that of the store. -/
theorem stale_iff {store : ConfigStore} {s : St} (h : Shows name store s) {file : ConfigFile}
    (hname : file.name = name) :
    s.stale file = true ↔ (file.version : WithBot ℕ) ≤ store.version? file.name := by
  rw [← store.conflict_iff file, hname, ← h.index]
  rfl

theorem shows_store {enc : ConfigStore.IndexEncoder} {store : ConfigStore} {s : St} (h : Shows name store s)
    (hfree : s.holder = none) {file : ConfigFile} (hname : file.name = name)
    (hplain : ConfigStore.Plain name) :
    ∃ t, run (step name) s (storeActs (s.stale file) file) = some t ∧
      Shows name (store.store enc .allOk file).1 t := by
  refine ⟨_, run_storeActs name hfree hname, ?_⟩
  subst hname
  have hpath : (store.store enc .allOk file).1.contentPath file.name =
      store.contentPath file.name := by
    rw [ConfigStore.contentPath, ConfigStore.contentPath, ConfigStore.configsDir,
      ConfigStore.configsDir, ConfigStore.store_root]
  have hopen : StoreIo.allOk.openLock = none := rfl
  by_cases hstale : s.stale file = true
  · -- a stale file touches the lock only
    rw [if_pos hstale]
    have hold := (stale_iff _ h rfl).1 hstale
    have hsame := ConfigStore.store_stale enc store hplain hold hplain
    constructor
    · rw [hsame.1]
      exact h.index
    · rw [hpath, ConfigStore.store_eq]
      show _ = store.disk.apply (store.effects enc .allOk file) _
      rw [h.content, ConfigStore.effects, if_pos hopen, if_neg (fun hw => hw.2.2 hold),
        Disk.apply_cons_ne _ (ConfigStore.lockPath_ne_contentPath store _ _)]
      rfl
  · rw [if_neg hstale]
    have hnew := mt (stale_iff _ h rfl).2 hstale
    have hfresh := ConfigStore.store_fresh enc store hplain hnew hplain
    constructor
    · rw [hfresh.1, if_pos rfl]
    · rw [hpath, ConfigStore.store_eq]
      show _ = store.disk.apply (store.effects enc .allOk file) _
      rw [ConfigStore.effects, if_pos hopen, if_pos ⟨rfl, rfl, hnew⟩]
      refine (Disk.apply_lastOf _ (e := (store.contentPath file.name, some file.content))
        ⟨[_], [_], rfl, ?_⟩).symm
      intro y hy
      obtain rfl := List.mem_singleton.1 hy
      exact (ConfigStore.contentPath_ne_indexPath store hplain).symm

theorem shows_get {store : ConfigStore} {s : St} (h : Shows name store s) {r : Nat}
    (hidle : s.readers r = .idle) {file : ConfigFile} (hget : store.getFile name = .ok (some file)) :
    ∃ t, run (step name) s (getActs r file.content) = some t ∧ Shows name store t ∧
      t.returned = s.returned ++ [file] := by
  unfold ConfigStore.getFile at hget
  split at hget
  · cases hget
  · next m hmeta =>
    split at hget
    · cases hget
    · next content hcontent =>
      obtain rfl := Option.some.inj (Except.ok.inj hget)
      exact ⟨_, run_getActs name hidle (h.index.trans hmeta) (h.content.trans hcontent),
        ⟨h.index, h.content⟩, rfl⟩

/-! ## The invariant -/

/-- A reader has found the file stored last, and its content is there. -/
def Reader.Ok (s : St) : Reader → Prop
  | .idle => True
  | .found m => s.torn = false ∧ ∃ file, s.stored.getLast? = some file ∧ m = file.toMeta
  | .reading m acc =>
    s.torn = false ∧ ∃ file, s.stored.getLast? = some file ∧ m = file.toMeta ∧
      acc <+: file.content

/-- The holder is for this name, and what it has written is in the file. -/
def HolderOk (s : St) : Option (ConfigFile × WriterPhase) → Prop
  | none => True
  | some (file, .writing rest) =>
    file.name = name ∧ s.torn = true ∧ ∃ written, s.content = some written ∧
      written ++ rest = file.content
  | some (file, _) => file.name = name

structure Inv (s : St) : Prop where
  index : s.index = s.stored.getLast?.map ConfigFile.toMeta
  settled : s.torn = false → ∀ file, s.stored.getLast? = some file →
    s.content = some file.content
  named : ∀ file ∈ s.stored, file.name = name
  holder : HolderOk name s s.holder
  readers : ∀ r, (s.readers r).Ok s
  consistent : Consistent s

theorem inv_start (leftover : Option Bytes) {file : Option ConfigFile}
    (hname : ∀ f ∈ file, f.name = name) : Inv name (start leftover file) := by
  cases file with
  | none =>
    constructor <;> simp [start, HolderOk, Reader.Ok, Consistent]
  | some f =>
    have hf : f.name = name := hname f rfl
    constructor <;> simp [start, HolderOk, Reader.Ok, Consistent, hf]

section Steps

variable {name : Str} {s s' : St}

theorem Inv.setHolder (h : Inv name s) {holder : Option (ConfigFile × WriterPhase)}
    (hholder : HolderOk name s holder) : Inv name { s with holder := holder } where
  index := h.index
  settled := h.settled
  named := h.named
  holder := hholder
  readers := h.readers
  consistent := h.consistent

theorem Inv.setReader (h : Inv name s) (r : Nat) {reader : Reader} (hreader : reader.Ok s) :
    Inv name (s.setReader r reader) where
  index := h.index
  settled := h.settled
  named := h.named
  holder := h.holder
  readers := by
    intro q
    show Reader.Ok s (Function.update s.readers r reader q)
    by_cases hq : q = r
    · subst hq
      rw [Function.update_self]
      exact hreader
    · rw [Function.update_of_ne hq]
      exact h.readers q
  consistent := h.consistent

theorem Inv.holderName (h : Inv name s) {file : ConfigFile} {phase : WriterPhase}
    (hholder : s.holder = some (file, phase)) : file.name = name := by
  have hok := h.holder
  rw [hholder] at hok
  cases phase with
  | writing rest => exact hok.1
  | locked => exact hok
  | checked => exact hok
  | inserted => exact hok
  | leaving => exact hok

/-- While the content is torn nobody reads it. -/
theorem Inv.idle_of_torn (h : Inv name s) (htorn : s.torn = true) (r : Nat) :
    s.readers r = .idle := by
  have hok := h.readers r
  cases hr : s.readers r with
  | idle => rfl
  | found m =>
    rw [hr] at hok
    rw [hok.1] at htorn
    cases htorn
  | reading m acc =>
    rw [hr] at hok
    rw [hok.1] at htorn
    cases htorn

theorem writerStep_inv (h : Inv name s) {file : ConfigFile} {phase : WriterPhase}
    (hholder : s.holder = some (file, phase)) {a : WriterAct}
    (hquiet : a = .create true → ∀ r, s.readers r = .idle)
    (hs : writerStep s file phase a = some s') : Inv name s' := by
  have hname := h.holderName hholder
  unfold writerStep at hs
  split at hs
  · -- check
    obtain rfl := Option.some.inj hs
    apply h.setHolder
    split
    · exact hname
    · exact hname
  · -- create: the content is torn, and nobody is reading it
    obtain rfl := Option.some.inj hs
    have hidle := hquiet rfl
    constructor
    · exact h.index
    · intro htorn
      cases htorn
    · exact h.named
    · exact ⟨hname, rfl, [], rfl, rfl⟩
    · intro r
      show Reader.Ok _ (s.readers r)
      rw [hidle r]
      trivial
    · exact h.consistent
  · -- create fails
    obtain rfl := Option.some.inj hs
    exact h.setHolder hname
  · -- write: what is written grows by what is taken from the rest
    next rest k =>
    split at hs
    · obtain rfl := Option.some.inj hs
      have hok := h.holder
      rw [hholder] at hok
      rcases hok with ⟨-, htorn, written, hcontent, hjoin⟩
      constructor
      · exact h.index
      · intro hnot
        rw [htorn] at hnot
        cases hnot
      · exact h.named
      · refine ⟨hname, htorn, written ++ rest.take k, ?_, ?_⟩
        · rw [hcontent]
          rfl
        · rw [List.append_assoc, List.take_append_drop, hjoin]
      · exact h.readers
      · exact h.consistent
    · cases hs
  · -- write fails: the content stays torn
    split at hs
    · cases hs
    · obtain rfl := Option.some.inj hs
      exact h.setHolder hname
  · -- insert: the content is whole, and nobody has looked up the old metadata
    next rest =>
    split at hs
    · next hrest =>
      subst hrest
      obtain rfl := Option.some.inj hs
      have hok := h.holder
      rw [hholder] at hok
      rcases hok with ⟨-, htorn, written, hcontent, hjoin⟩
      rw [List.append_nil] at hjoin
      subst hjoin
      constructor
      · simp
      · intro _ f hf
        obtain rfl : file = f := by simpa using hf
        exact hcontent
      · intro f hf
        rcases List.mem_append.1 hf with hf | hf
        · exact h.named f hf
        · obtain rfl : f = file := by simpa using hf
          exact hname
      · exact hname
      · intro r
        show Reader.Ok _ (s.readers r)
        rw [h.idle_of_torn htorn r]
        trivial
      · intro f hf
        exact List.mem_append_left _ (h.consistent f hf)
    · cases hs
  · -- persist
    obtain rfl := Option.some.inj hs
    exact h.setHolder hname
  · -- unlock
    obtain rfl := Option.some.inj hs
    exact h.setHolder trivial
  · cases hs

theorem readerStep_inv (h : Inv name s) {r : Nat} {a : ReaderAct}
    (hquiet : a = .lookup → s.index = none ∨ s.torn = false)
    (hs : readerStep name s r (s.readers r) a = some s') : Inv name s' := by
  have hok := h.readers r
  unfold readerStep at hs
  split at hs
  · -- lookup: the index holds the metadata of the file stored last
    split at hs
    · obtain rfl := Option.some.inj hs
      exact h
    · next m hindex =>
      obtain rfl := Option.some.inj hs
      apply h.setReader
      have htorn : s.torn = false := by
        rcases hquiet rfl with hnone | htorn
        · rw [hindex] at hnone
          cases hnone
        · exact htorn
      have hlast := h.index
      rw [hindex] at hlast
      rcases Option.map_eq_some_iff.1 hlast.symm with ⟨f, hf, rfl⟩
      exact ⟨htorn, f, hf, rfl⟩
  · -- open
    next m hr =>
    rw [hr] at hok
    split at hs
    · obtain rfl := Option.some.inj hs
      exact h.setReader r trivial
    · obtain rfl := Option.some.inj hs
      rcases hok with ⟨htorn, f, hf, rfl⟩
      exact h.setReader r ⟨htorn, f, hf, rfl, List.nil_prefix⟩
  · -- read: the next bytes are those of the stored content
    next m acc k hr =>
    rw [hr] at hok
    split at hs
    · obtain rfl := Option.some.inj hs
      rcases hok with ⟨htorn, f, hf, rfl, hpre⟩
      have hcontent := h.settled htorn f hf
      apply h.setReader
      refine ⟨htorn, f, hf, rfl, ?_⟩
      rw [hcontent, Option.getD_some]
      rcases hpre with ⟨rest, hrest⟩
      rw [← hrest, List.drop_left]
      exact (List.prefix_append_right_inj _).2 (List.take_prefix _ _)
    · cases hs
  · -- the end: everything has been read
    next m acc hr =>
    rw [hr] at hok
    split at hs
    · next hend =>
      obtain rfl := Option.some.inj hs
      rcases hok with ⟨htorn, f, hf, rfl, hpre⟩
      have hcontent := h.settled htorn f hf
      rw [hcontent, Option.getD_some] at hend
      obtain rfl : acc = f.content := hpre.eq_of_length_le hend
      have hmem : f ∈ s.stored := List.mem_of_getLast? hf
      have hidle : Inv name (s.setReader r .idle) := h.setReader r trivial
      exact {
        index := hidle.index
        settled := hidle.settled
        named := hidle.named
        holder := hidle.holder
        readers := hidle.readers
        consistent := by
          intro g hg
          rcases List.mem_append.1 hg with hg | hg
          · exact h.consistent g hg
          · obtain rfl := List.mem_singleton.1 hg
            have hself : assemble name f.toMeta f.content = f := by
              rw [← h.named f hmem]
              rfl
            rw [hself]
            exact hmem }
    · cases hs
  · obtain rfl := Option.some.inj hs
    exact h.setReader r trivial
  · obtain rfl := Option.some.inj hs
    exact h.setReader r trivial
  · cases hs

/-- Every step that comes not between two accesses keeps the invariant. -/
theorem step_inv (h : Inv name s) {a : Act} (hquiet : Undisturbed s a)
    (hs : step name s a = some s') : Inv name s' := by
  unfold step at hs
  split at hs
  · split at hs
    · next hfree =>
      obtain rfl := Option.some.inj hs
      exact h.setHolder hfree.2
    · cases hs
  · next a =>
    split at hs
    · cases hs
    · next file phase hholder =>
      refine writerStep_inv h hholder ?_ hs
      rintro rfl
      exact hquiet
  · next r a =>
    refine readerStep_inv h ?_ hs
    rintro rfl
    exact hquiet

end Steps

/-- In every run whose steps do not come between the two accesses of the other
side, every file that is returned has been stored as it is. -/
theorem snapshots_of_undisturbed (leftover : Option Bytes) (file : Option ConfigFile)
    (hname : ∀ f ∈ file, f.name = name) (as : List Act)
    (h : Along (step name) Undisturbed (start leftover file) as) :
    Always (step name) Consistent (start leftover file) as :=
  always_of_along (fun _ hinv => Inv.consistent hinv)
    (fun _ _ _ hinv hquiet hs => step_inv hinv hquiet hs) (inv_start name leftover hname) h

/-! ## A store call beside a read -/

def firstSettings : ConfigFile where
  name := "settings".toList
  version := 1
  content := [111, 110]
  timestamp := 1714521600
  checksum := none

def secondSettings : ConfigFile where
  name := "settings".toList
  version := 2
  content := [111, 102, 102]
  timestamp := 1714521660
  checksum := none

/-- A whole call that stores the second settings. -/
def storeSecond : List Act :=
  [.acquire secondSettings, .writer .check, .writer (.create true), .writer (.write 3),
    .writer .insert, .writer .persist, .writer .unlock]

/-- The accesses of a read behind the lookup. -/
def readContent : List Act := [.reader 0 .openFile, .reader 0 (.read 8192), .reader 0 .finish]

/-- A read, then a call, then a read. -/
theorem snapshots_in_turn : Always (step "settings".toList) Consistent
    (start none (some firstSettings))
    (.reader 0 .lookup :: readContent ++ storeSecond ++ .reader 0 .lookup :: readContent) :=
  snapshots_of_undisturbed "settings".toList none (some firstSettings)
    (by rintro f ⟨⟩; rfl) _
    ⟨.inr rfl, trivial, trivial, trivial, trivial, trivial, fun r => by cases r <;> rfl, trivial,
      trivial, trivial, trivial, .inr rfl, trivial, trivial, trivial, trivial⟩

/-- A whole call between lookup and read: the first metadata with the second content. -/
theorem mixed_snapshot : ¬ Always (step "settings".toList) Consistent
    (start none (some firstSettings)) (.reader 0 .lookup :: storeSecond ++ readContent) := by
  intro h
  have hend := always_run h rfl
  exact absurd (hend (assemble "settings".toList firstSettings.toMeta secondSettings.content)
    (by decide)) (by decide)

end Snapshot

end HomeTier
