import HomeTier.Lib.Text
import HomeTier.Lib.Trace

/-! # Transfer status

`send_file` of `src-tauri/src/file/transfer.rs` registers the transfer under the id of
the file, hands the body to the HTTP client chunk by chunk and records the result when
the response is there. A task of its own writes the progress every 200 ms, and once more
when it is told to stop: it takes the transfer for completed as soon as all chunks have
been handed over. Nothing orders its last write and the final one, and the task of an
earlier call for the same file may still be running.

The status is truthful exactly along the runs in which an upload that fails meets no
write of a progress task that has seen its whole body handed over
(`status_truthful_iff`).
-/

namespace HomeTier.FileProgress

open Lib

inductive TransferStatus where
  | transferring
  | paused
  | completed
  | failed
deriving DecidableEq

def TransferStatus.isTerminal : TransferStatus → Bool
  | completed | failed => true
  | transferring | paused => false

structure TransferState where
  totalBytes : Nat
  bytesTransferred : Nat
  speed : Nat
  status : TransferStatus
deriving DecidableEq

/-- What comes of `client.put(..).send()`. -/
inductive Response where
  | error (e : Str)
  | status (code : Nat)
deriving DecidableEq

def Response.isSuccess : Response → Bool
  | error _ => false
  | status code => 200 ≤ code && code < 300

/-- Where the progress task of a call is: before its `select!`, or before its write. -/
inductive ProgressTask where
  | waiting
  | woken (n : Nat) (done : Bool)
  | ended
deriving DecidableEq

/-- The stream and the progress task of a call. -/
structure Upload where
  totalBytes : Nat
  chunks : List Nat
  sent : Nat
  stopped : Bool
  task : ProgressTask

/-- Where `send_file` is: `recorded` after the final update. -/
inductive Sender where
  | idle
  | sending
  | answered (r : Response)
  | recorded (r : Response)

/-- One id of `transfers`, and the calls of `send_file` for it. -/
structure State where
  entry : Option TransferState
  uploads : List Upload
  sender : Sender
  /-- The present transfer was taken for completed by a progress task. -/
  whole : Bool
  /-- A terminal status was replaced by the other one. -/
  overwritten : Bool

inductive Act where
  /-- A call for a body registers the transfer and starts the progress task. -/
  | register (body : List UInt8)
  /-- The stream of a call hands over a chunk. -/
  | advance (i : Nat)
  /-- The 200 ms are over. -/
  | tick (i : Nat)
  /-- The progress task is told to stop. -/
  | stop (i : Nat)
  /-- The progress task writes, with the speed it has measured. -/
  | write (i : Nat) (speed : Nat)
  | respond (r : Response)
  /-- The final update. -/
  | record

def chunkSize : Nat := 64 * 1024

def newUpload (body : List UInt8) : Upload where
  totalBytes := body.length
  chunks := (body.toChunks chunkSize).map List.length
  sent := 0
  stopped := false
  task := .waiting

def newTransfer (body : List UInt8) : TransferState where
  totalBytes := body.length
  bytesTransferred := 0
  speed := 0
  status := .transferring

def State.setUpload (s : State) (i : Nat) (u : Upload) : State :=
  { s with uploads := s.uploads.set i u }

/-- A write to the entry, which is there or not. -/
def State.setEntry (s : State) (f : TransferState → TransferState) : State :=
  { s with
    entry := s.entry.map f
    overwritten := s.overwritten ||
      s.entry.any fun t => t.status.isTerminal && (f t).status ≠ t.status }

/-- `if let Some(state) = transfers.write().await.get_mut(&t_id)` of the progress task. -/
def progressed (u : Upload) (n speed : Nat) (t : TransferState) : TransferState :=
  { t with
    bytesTransferred := n
    speed := speed
    status := if u.totalBytes ≤ n then .completed else t.status }

/-- The final update. -/
def settled (r : Response) (t : TransferState) : TransferState :=
  if r.isSuccess then { t with status := .completed, bytesTransferred := t.totalBytes }
  else { t with status := .failed }

def step (s : State) : Act → Option State
  | .register body =>
    match s.sender with
    | .idle | .recorded _ =>
      some { s with
        entry := some (newTransfer body)
        uploads := s.uploads ++ [newUpload body]
        sender := .sending
        whole := false }
    | _ => none
  | .advance i =>
    match s.uploads[i]? with
    | some u =>
      match u.chunks with
      | c :: chunks => some (s.setUpload i { u with chunks := chunks, sent := u.sent + c })
      | [] => none
    | none => none
  | .tick i =>
    match s.uploads[i]? with
    | some u =>
      if u.task = .waiting then some (s.setUpload i { u with task := .woken u.sent false })
      else none
    | none => none
  | .stop i =>
    match s.uploads[i]? with
    | some u =>
      if u.task = .waiting ∧ u.stopped = true then
        some (s.setUpload i { u with task := .woken u.sent true })
      else none
    | none => none
  | .write i speed =>
    match s.uploads[i]? with
    | some u =>
      match u.task with
      | .woken n done =>
        let task := if done then .ended else .waiting
        some { (s.setUpload i { u with task := task }).setEntry (progressed u n speed) with
          whole := s.whole || u.totalBytes ≤ n }
      | _ => none
    | none => none
  | .respond r =>
    match s.sender with
    | .sending =>
      -- the call of the response is the last one
      let last := s.uploads.length - 1
      some { s with
        uploads := s.uploads.modify last fun u => { u with stopped := true }
        sender := .answered r }
    | _ => none
  | .record =>
    match s.sender with
    | .answered r => some { s.setEntry (settled r) with sender := .recorded r }
    | _ => none

/-- No call for the file yet. -/
def start : State := ⟨none, [], .idle, false, false⟩

/-- From the final update on the status is completed exactly for a success and else
failed, and no terminal status was replaced by another. -/
structure Truthful (s : State) : Prop where
  final : ∀ r, s.sender = .recorded r → ∃ t, s.entry = some t ∧
    t.status = if r.isSuccess then .completed else .failed
  kept : s.overwritten = false

/-- A progress task that has seen its whole body handed over does not write after an
upload was recorded as failed, and has not written before it is. -/
def Sound (s : State) : Act → Prop
  | .write i _ => ∀ u n done, s.uploads[i]? = some u → u.task = .woken n done →
    u.totalBytes ≤ n → ∀ r, s.sender = .recorded r → r.isSuccess = true
  | .record => ∀ r, s.sender = .answered r → r.isSuccess = false → s.whole = false
  | _ => True

/-- Until its final update a transfer is completed only for the progress tasks. -/
def Registered (s : State) : Prop :=
  match s.sender with
  | .idle => s.entry = none
  | .sending | .answered _ =>
    ∃ t, s.entry = some t ∧ t.status = if s.whole then .completed else .transferring
  | .recorded _ => ∃ t, s.entry = some t

/-! ## Steps -/

variable {s s' : State}

/-- A step of a stream or of a task that is not its write leaves the entry alone. -/
theorem step_frame {a : Act} (hs : step s a = some s')
    (ha : (∃ i, a = .advance i) ∨ (∃ i, a = .tick i) ∨ ∃ i, a = .stop i) :
    s'.entry = s.entry ∧ s'.sender = s.sender ∧ s'.whole = s.whole ∧
      s'.overwritten = s.overwritten := by
  rcases ha with ⟨i, rfl⟩ | ⟨i, rfl⟩ | ⟨i, rfl⟩
  · simp only [step] at hs
    split at hs
    · split at hs
      · obtain rfl := Option.some.inj hs
        exact ⟨rfl, rfl, rfl, rfl⟩
      · cases hs
    · cases hs
  · simp only [step] at hs
    split at hs
    · split at hs
      · obtain rfl := Option.some.inj hs
        exact ⟨rfl, rfl, rfl, rfl⟩
      · cases hs
    · cases hs
  · simp only [step] at hs
    split at hs
    · split at hs
      · obtain rfl := Option.some.inj hs
        exact ⟨rfl, rfl, rfl, rfl⟩
      · cases hs
    · cases hs

theorem step_register {body : List UInt8} (hs : step s (.register body) = some s') :
    s'.entry = some (newTransfer body) ∧ s'.sender = .sending ∧ s'.whole = false ∧
      s'.overwritten = s.overwritten := by
  simp only [step] at hs
  split at hs
  · obtain rfl := Option.some.inj hs
    exact ⟨rfl, rfl, rfl, rfl⟩
  · obtain rfl := Option.some.inj hs
    exact ⟨rfl, rfl, rfl, rfl⟩
  · cases hs

theorem step_write {i speed : Nat} (hs : step s (.write i speed) = some s') :
    ∃ u n done, s.uploads[i]? = some u ∧ u.task = .woken n done ∧
      s'.entry = s.entry.map (progressed u n speed) ∧ s'.sender = s.sender ∧
      s'.whole = (s.whole || decide (u.totalBytes ≤ n)) ∧
      s'.overwritten = (s.overwritten || s.entry.any fun t =>
        t.status.isTerminal && (progressed u n speed t).status ≠ t.status) := by
  simp only [step] at hs
  split at hs
  · next u hu =>
    split at hs
    · next n done htask =>
      obtain rfl := Option.some.inj hs
      exact ⟨u, n, done, hu, htask, rfl, rfl, rfl, rfl⟩
    · cases hs
  · cases hs

theorem step_respond {r : Response} (hs : step s (.respond r) = some s') :
    s.sender = .sending ∧ s'.sender = .answered r ∧ s'.entry = s.entry ∧ s'.whole = s.whole ∧
      s'.overwritten = s.overwritten := by
  simp only [step] at hs
  split at hs
  · next hsender =>
    obtain rfl := Option.some.inj hs
    exact ⟨hsender, rfl, rfl, rfl, rfl⟩
  · cases hs

theorem step_record (hs : step s .record = some s') :
    ∃ r, s.sender = .answered r ∧ s'.sender = .recorded r ∧
      s'.entry = s.entry.map (settled r) ∧
      s'.overwritten = (s.overwritten || s.entry.any fun t =>
        t.status.isTerminal && (settled r t).status ≠ t.status) := by
  simp only [step] at hs
  split at hs
  · next r hsender =>
    obtain rfl := Option.some.inj hs
    exact ⟨r, hsender, rfl, rfl, rfl⟩
  · cases hs

theorem settled_status (r : Response) (t : TransferState) :
    (settled r t).status = if r.isSuccess then .completed else .failed := by
  rw [settled]
  split
  · rfl
  · rfl

/-! ## Runs -/

theorem registered_step (s : State) (a : Act) (s' : State) (h : Registered s)
    (hs : step s a = some s') : Registered s' := by
  have hframe : s'.entry = s.entry → s'.sender = s.sender → s'.whole = s.whole → Registered s' := by
    intro hentry hsender hwhole
    rwa [Registered, hentry, hsender, hwhole]
  cases a with
  | register body =>
    rcases step_register hs with ⟨hentry, hsender, hwhole, -⟩
    rw [Registered, hsender, hwhole]
    exact ⟨_, hentry, rfl⟩
  | advance i =>
    rcases step_frame hs (.inl ⟨i, rfl⟩) with ⟨hentry, hsender, hwhole, -⟩
    exact hframe hentry hsender hwhole
  | tick i =>
    rcases step_frame hs (.inr (.inl ⟨i, rfl⟩)) with ⟨hentry, hsender, hwhole, -⟩
    exact hframe hentry hsender hwhole
  | stop i =>
    rcases step_frame hs (.inr (.inr ⟨i, rfl⟩)) with ⟨hentry, hsender, hwhole, -⟩
    exact hframe hentry hsender hwhole
  | write i speed =>
    rcases step_write hs with ⟨u, n, done, -, -, hentry, hsender, hwhole, -⟩
    -- a write that reaches the end completes the transfer
    have hstatus : ∀ t : TransferState, t.status = (if s.whole then .completed else .transferring) →
        (progressed u n speed t).status = if s'.whole then .completed else .transferring := by
      intro t ht
      rw [hwhole, progressed, ht]
      by_cases hall : u.totalBytes ≤ n
      · simp [hall]
      · simp [hall]
    rw [Registered] at h
    rw [Registered, hsender]
    cases hold : s.sender with
    | idle =>
      rw [hold] at h
      rw [hentry, h]
      rfl
    | sending | answered =>
      rw [hold] at h
      rcases h with ⟨t, ht, hst⟩
      exact ⟨_, by rw [hentry, ht]; rfl, hstatus t hst⟩
    | recorded r =>
      rw [hold] at h
      rcases h with ⟨t, ht⟩
      exact ⟨_, by rw [hentry, ht]; rfl⟩
  | respond r =>
    rcases step_respond hs with ⟨hold, hsender, hentry, hwhole, -⟩
    rw [Registered, hold] at h
    rw [Registered, hsender, hentry, hwhole]
    exact h
  | record =>
    rcases step_record hs with ⟨r, hold, hsender, hentry, -⟩
    rw [Registered, hold] at h
    rcases h with ⟨t, ht, -⟩
    rw [Registered, hsender]
    exact ⟨_, by rw [hentry, ht]; rfl⟩

/-- A step that does not write to the entry of a recorded transfer keeps it truthful. -/
theorem truthful_frame (h : Truthful s) (hentry : s'.entry = s.entry)
    (hsender : s'.sender = s.sender) (hkept : s'.overwritten = s.overwritten) : Truthful s' :=
  ⟨by rw [hentry, hsender]; exact h.final, hkept.trans h.kept⟩

theorem truthful_write {i speed : Nat} (hreg : Registered s) (h : Truthful s)
    (hs : step s (.write i speed) = some s') : Truthful s' ↔ Sound s (.write i speed) := by
  rcases step_write hs with ⟨u, n, done, hu, htask, hentry, hsender, -, hover⟩
  have hsound : Sound s (.write i speed) ↔
      (u.totalBytes ≤ n → ∀ r, s.sender = .recorded r → r.isSuccess = true) := by
    constructor
    · intro hsound
      exact hsound u n done hu htask
    · intro hsound u' n' done' hu' htask' hle
      obtain rfl := Option.some.inj (hu.symm.trans hu')
      cases htask.symm.trans htask'
      exact hsound hle
  rw [hsound]
  rw [h.kept, Bool.false_or] at hover
  have hnew : ∀ t : TransferState, (progressed u n speed t).status =
      if u.totalBytes ≤ n then .completed else t.status := fun _ => rfl
  -- before the sender has recorded its result, no write leaves a terminal status
  have hactive : (∀ r, s.sender ≠ .recorded r) →
      (s.entry.any fun t => t.status.isTerminal && (progressed u n speed t).status ≠ t.status) =
        false := by
    intro hnone
    rw [Registered] at hreg
    split at hreg
    · rw [hreg]
      rfl
    · rcases hreg with ⟨t, ht, hst⟩
      rw [ht]
      cases hw : s.whole <;> rw [hw] at hst <;> by_cases hle : u.totalBytes ≤ n <;>
        simp [hnew, hst, hle, TransferStatus.isTerminal]
    · rcases hreg with ⟨t, ht, hst⟩
      rw [ht]
      cases hw : s.whole <;> rw [hw] at hst <;> by_cases hle : u.totalBytes ≤ n <;>
        simp [hnew, hst, hle, TransferStatus.isTerminal]
    · next r hr => exact absurd hr (hnone r)
  by_cases hrecorded : ∃ r, s.sender = .recorded r
  · -- behind the recorded result, a write must come to the same status
    rcases hrecorded with ⟨r, hr⟩
    rcases h.final r hr with ⟨t, ht, hst⟩
    rw [ht] at hentry hover
    have hfinal : (progressed u n speed t).status = t.status ↔
        (u.totalBytes ≤ n → r.isSuccess = true) := by
      rw [hnew, hst]
      cases r.isSuccess <;> by_cases hle : u.totalBytes ≤ n <;> simp [hle]
    have hterminal : t.status.isTerminal = true := by
      rw [hst]
      split <;> rfl
    have hsucc : (u.totalBytes ≤ n → ∀ r', s.sender = .recorded r' → r'.isSuccess = true) ↔
        (u.totalBytes ≤ n → r.isSuccess = true) := by
      constructor
      · intro hall hle
        exact hall hle r hr
      · intro hall hle r' hr'
        cases hr.symm.trans hr'
        exact hall hle
    rw [hsucc, ← hfinal]
    constructor
    · intro htruthful
      have hkept := hover.symm.trans htruthful.kept
      simpa [hterminal] using hkept
    · intro hsame
      constructor
      · intro r' hr'
        cases hr.symm.trans (hsender.symm.trans hr')
        exact ⟨_, hentry, hsame.trans hst⟩
      · rw [hover]
        simp [hsame]
  · have hnone : ∀ r, s.sender ≠ .recorded r := fun r hr => hrecorded ⟨r, hr⟩
    refine iff_of_true ⟨?_, hover.trans (hactive hnone)⟩ fun _ r hr => absurd hr (hnone r)
    intro r hr
    exact absurd (hsender.symm.trans hr) (hnone r)

theorem truthful_record (hreg : Registered s) (h : Truthful s)
    (hs : step s .record = some s') : Truthful s' ↔ Sound s .record := by
  rcases step_record hs with ⟨r, hold, hsender, hentry, hover⟩
  have hsound : Sound s .record ↔ (r.isSuccess = false → s.whole = false) := by
    constructor
    · intro hsound
      exact hsound r hold
    · intro hsound r' hr'
      cases hold.symm.trans hr'
      exact hsound
  rw [Registered, hold] at hreg
  rcases hreg with ⟨t, ht, hst⟩
  rw [h.kept, Bool.false_or, ht] at hover
  rw [ht] at hentry
  have hkept : s'.overwritten = false ↔ (r.isSuccess = false → s.whole = false) := by
    rw [hover]
    simp only [Option.any_some, settled_status, hst]
    cases r.isSuccess <;> cases s.whole <;> simp [TransferStatus.isTerminal]
  rw [hsound, ← hkept]
  constructor
  · intro htruthful
    exact htruthful.kept
  · intro hfalse
    refine ⟨?_, hfalse⟩
    intro r' hr'
    cases hsender.symm.trans hr'
    exact ⟨_, hentry, settled_status r t⟩

/-- The status is truthful in every state of a run exactly if no write of a progress task
that has seen its whole body handed over meets an upload that fails. -/
theorem status_truthful_iff (as : List Act) :
    Always step Truthful start as ↔ Along step Sound start as := by
  have hinit : Truthful start := ⟨fun r hr => (nomatch hr), rfl⟩
  have hreg : Registered start := by
    show start.entry = none
    rfl
  refine always_iff_along registered_step ?_ hreg hinit as
  intro s a s' hreg h hs
  cases a with
  | register body =>
    rcases step_register hs with ⟨-, hsender, -, hkept⟩
    refine iff_of_true ⟨?_, hkept.trans h.kept⟩ trivial
    intro r hr
    exact nomatch hsender.symm.trans hr
  | advance i =>
    rcases step_frame hs (.inl ⟨i, rfl⟩) with ⟨hentry, hsender, -, hkept⟩
    exact iff_of_true (truthful_frame h hentry hsender hkept) trivial
  | tick i =>
    rcases step_frame hs (.inr (.inl ⟨i, rfl⟩)) with ⟨hentry, hsender, -, hkept⟩
    exact iff_of_true (truthful_frame h hentry hsender hkept) trivial
  | stop i =>
    rcases step_frame hs (.inr (.inr ⟨i, rfl⟩)) with ⟨hentry, hsender, -, hkept⟩
    exact iff_of_true (truthful_frame h hentry hsender hkept) trivial
  | write i speed => exact truthful_write hreg h hs
  | respond r =>
    rcases step_respond hs with ⟨-, hsender, -, -, hkept⟩
    refine iff_of_true ⟨?_, hkept.trans h.kept⟩ trivial
    intro r' hr'
    exact nomatch hsender.symm.trans hr'
  | record => exact truthful_record hreg h hs

/-- The whole body is handed over, the peer refuses it, and the last write of the
progress task comes after the final update. -/
def refusedUpload : List Act :=
  [.register [0], .advance 0, .respond (.status 500), .record, .stop 0, .write 0 0]

/-- An upload that was refused ends as completed. -/
theorem refused_completed : ¬ ∀ as, Always step Truthful start as := by
  intro h
  have hlast : ∃ s, run step start refusedUpload = some s ∧ s.overwritten = true := ⟨_, rfl, rfl⟩
  rcases hlast with ⟨s, hrun, hover⟩
  exact absurd (hover.symm.trans (always_run (h refusedUpload) hrun).kept) (by decide)

end HomeTier.FileProgress
