import HomeTier.Lib.Decimal
import HomeTier.Lib.Disk
import HomeTier.Lib.Fallback

/-! # Downloads with a second source

`download_asset` of `src/commands/update_app.rs`, `upgrade_easytier_with_progress` of
`src/commands/easytier.rs` and `download_from_github` of `src/easytier/downloader.rs`. Each
makes three attempts at each of two sources.

* `download_from_github` has the whole body before it writes, and a body that breaks off
  leads to the next attempt.
* The other two write the body while it arrives, and a body that breaks off ends them: they
  fall back exactly if the first answer with a success status is whole, or the last attempt
  (`downloads_fall_back_iff`).
-/

namespace HomeTier.Download

open Lib

/-! ## Requests -/

structure Status where
  code : Nat
  /-- As it is displayed. -/
  text : Str
deriving DecidableEq

/-- `is_success` -/
def Status.isSuccess (status : Status) : Bool := 200 ≤ status.code && status.code < 300

/-- What comes of a request: an error, or an answer. The body of an answer arrives in
chunks, and an error may follow them. -/
inductive Reply where
  | failed (e : Str)
  | answered (status : Status) (chunks : List Bytes) (broken : Option Str)
deriving DecidableEq

structure Request where
  url : Str
  label : Str
  attempt : Nat
deriving DecidableEq

/-- What is done on the machine, and may fail. -/
inductive Step where
  | createDir
  | createFile
  | write (chunk : Nat)
  | flush
  | renameFile
  | install
  | ping
  | connect
  | switchBinary
  | readFile
  | removeFile
  | setPermissions
  | replaceFile
deriving DecidableEq

structure Env where
  mirror : Str
  platform : Str
  net : Request → Reply
  fails : Step → Option Str
  /-- So many bytes a file has that is given up. -/
  kept : Nat
  /-- What `install` returns. -/
  binary : Path

structure St where
  disk : Disk
  /-- The requests that were sent. -/
  asked : List Request
  /-- The archive that was installed. -/
  installed : Option Bytes

section Downloads

variable (E : Env)

def maxRetries : Nat := 3

/-- The two loops. -/
def requests (urls : List (Str × Str)) : List Request :=
  urls.flatMap fun u => (List.range' 1 maxRetries).map fun attempt => ⟨u.1, u.2, attempt⟩

def proxyUrl (directUrl : Str) : Str := E.mirror ++ '/' :: directUrl

def urls (useProxy : Bool) (directUrl : Str) : List (Str × Str) :=
  if useProxy then [(proxyUrl E directUrl, "代理".toList), (directUrl, "直连".toList)]
  else [(directUrl, "直连".toList), (proxyUrl E directUrl, "代理".toList)]

def exhausted (urls : List (Str × Str)) (lastErr : Str) : Str :=
  "下载失败 (重试 ".toList ++ decimal maxRetries ++ " 次, ".toList ++ decimal urls.length ++
    " 个源): ".toList ++ lastErr

/-- The chunks of an answer with a success status. -/
def answer (r : Request) : Except Str (List Bytes × Option Str) :=
  match E.net r with
  | .failed e => .error (r.label ++ " 下载失败: ".toList ++ e)
  | .answered status chunks broken =>
    if status.isSuccess then .ok (chunks, broken)
    else .error (r.label ++ " 返回 HTTP ".toList ++ status.text)

/-! ## Files -/

/-- The loop over the chunks; `got` is what the temporary file was given. -/
def receive (tmpPath : Path) (disk : Disk) (broken : Option Str) :
    Nat → Bytes → List Bytes → Disk × Except Str Unit
  | _, got, [] =>
    match broken with
    | some e => (disk.write tmpPath (got.take E.kept), .error ("读取下载数据失败: ".toList ++ e))
    | none =>
      match E.fails .flush with
      | some e => (disk.write tmpPath (got.take E.kept), .error ("刷新文件失败: ".toList ++ e))
      | none => (disk.write tmpPath got, .ok ())
  | k, got, chunk :: chunks =>
    match E.fails (.write k) with
    | some e =>
      (disk.write tmpPath ((got ++ chunk).take E.kept), .error ("写入临时文件失败: ".toList ++ e))
    | none => receive tmpPath disk broken (k + 1) (got ++ chunk) chunks

/-- From `File::create` to the renaming. -/
def save (tmpPath destPath : Path) (disk : Disk) (chunks : List Bytes) (broken : Option Str) :
    Disk × Except Str Unit :=
  match E.fails .createFile with
  | some e => (disk, .error ("创建临时文件失败: ".toList ++ e))
  | none =>
    match receive E tmpPath disk broken 0 [] chunks with
    | (disk, .error e) => (disk, .error e)
    | (disk, .ok ()) =>
      match E.fails .renameFile with
      | some e => (disk, .error ("重命名临时文件失败: ".toList ++ e))
      | none => (disk.rename tmpPath destPath, .ok ())

/-- `install` of an archive. -/
def install (path : Path) (s : St) : St × Except Str Path :=
  match E.fails .install, s.disk path with
  | none, some archive => ({ s with installed := some archive }, .ok E.binary)
  | e, _ => (s, .error (e.getD []))

/-! ## `download_asset` -/

def tryAsset (tmpPath destPath : Path) (s : St) (r : Request) : St × Attempt Str Path :=
  let s := { s with asked := s.asked ++ [r] }
  match answer E r with
  | .error lastErr => (s, .next lastErr)
  | .ok (chunks, broken) =>
    match save E tmpPath destPath s.disk chunks broken with
    | (disk, .error e) => ({ s with disk := disk }, .abort e)
    | (disk, .ok ()) => ({ s with disk := disk }, .done destPath)

def downloadAsset (url assetName : Str) (destDir : Path) (useProxy : Bool) (s : St) :
    St × Except Str Path :=
  let destPath := join destDir assetName
  let tmpPath := join destDir (assetName ++ ".tmp".toList)
  fallback (tryAsset E tmpPath destPath) (exhausted (urls E useProxy url)) s []
    (requests (urls E useProxy url))

/-! ## `upgrade_easytier_with_progress` -/

def filename (version : Str) : Str :=
  "easytier-".toList ++ E.platform ++ "-v".toList ++ version ++ ".zip".toList

def directUrl (version : Str) : Str :=
  "https://github.com/EasyTier/EasyTier/releases/download/v".toList ++ version ++
    '/' :: filename E version

def tempDir (temp : Path) (version : Str) : Path := join temp ("easytier-dl-".toList ++ version)

/-- What follows an installation. -/
def switchBinary : Attempt Str Unit :=
  match E.fails .ping with
  | some _ => .abort "daemon 未运行或无法连接".toList
  | none =>
    match E.fails .connect with
    | some e => .abort ("连接 daemon 失败: ".toList ++ e)
    | none =>
      match E.fails .switchBinary with
      | some message => .abort message
      | none => .done ()

def tryCore (tempDir : Path) (filename : Str) (s : St) (r : Request) : St × Attempt Str Unit :=
  let s := { s with disk := s.disk.removeDir tempDir, asked := s.asked ++ [r] }
  match answer E r with
  | .error lastErr => (s, .next lastErr)
  | .ok (chunks, broken) =>
    match E.fails .createDir with
    | some e => (s, .abort ("创建临时目录失败: ".toList ++ e))
    | none =>
      let tempPath := join tempDir filename
      match save E (join tempDir (filename ++ ".tmp".toList)) tempPath s.disk chunks broken with
      | (disk, .error e) => ({ s with disk := disk }, .abort e)
      | (disk, .ok ()) =>
        match install E tempPath { s with disk := disk } with
        | (s, .error e) =>
          ({ s with disk := s.disk.removeDir tempDir }, .next ("安装失败: ".toList ++ e))
        | (s, .ok _) => ({ s with disk := s.disk.removeDir tempDir }, switchBinary E)

/-- `temp` is the directory of the system for temporary files. -/
def upgradeEasytier (version : Str) (useProxy : Bool) (temp : Path) (s : St) :
    St × Except Str Unit :=
  fallback (tryCore E (tempDir temp version) (filename E version))
    (exhausted (urls E useProxy (directUrl E version))) s []
    (requests (urls E useProxy (directUrl E version)))

/-! ## `download_from_github` -/

def tryGithub (tempDir : Path) (filename : Str) (s : St) (r : Request) : St × Attempt Str Path :=
  let s := { s with asked := s.asked ++ [r] }
  let removed := fun s : St => { s with disk := s.disk.removeDir tempDir }
  match answer E r with
  | .error lastErr => (s, .next lastErr)
  | .ok (_, some e) => (removed s, .next (r.label ++ " 读取数据失败: ".toList ++ e))
  | .ok (chunks, none) =>
    let bytes := chunks.flatten
    if bytes = [] then (removed s, .next (r.label ++ " 下载文件为空".toList))
    else
      match E.fails (.write 0) with
      | some e => (removed s, .next (r.label ++ " 写入临时文件失败: ".toList ++ e))
      | none =>
        let tmpPath := join tempDir (filename ++ ".tmp".toList)
        let finalPath := join tempDir filename
        let disk := s.disk.write tmpPath bytes
        -- the result of the renaming is not looked at
        let disk := if (E.fails .renameFile).isNone then disk.rename tmpPath finalPath else disk
        match install E finalPath { s with disk := disk } with
        | (s, .ok path) => (removed s, .done path)
        | (s, .error e) => (removed s, .next (r.label ++ " 安装失败: ".toList ++ e))

def githubUrls (directUrl : Str) : List (Str × Str) :=
  [(proxyUrl E directUrl, "镜像".toList), (directUrl, "直连".toList)]

def downloadFromGithub (version : Str) (temp : Path) (s : St) : St × Except Str Path :=
  fallback (tryGithub E (tempDir temp version) (filename E version))
    (exhausted (githubUrls E (directUrl E version))) s []
    (requests (githubUrls E (directUrl E version)))

/-! ## What is expected -/

/-- The body, if all of it arrives. -/
def Reply.body? : Reply → Option Bytes
  | .failed _ => none
  | .answered status chunks broken =>
    if status.isSuccess = true ∧ broken = none then some chunks.flatten else none

/-- The body, if all of it arrives and is no empty file. -/
def Reply.archive? (reply : Reply) : Option Bytes := reply.body?.filter (· ≠ [])

/-- There is an answer, and its status is one of success. -/
def Reply.succeeds : Reply → Bool
  | .failed _ => false
  | .answered status _ _ => status.isSuccess

/-- A download makes the attempts up to the first that brings a body, and has its body; if
none does it makes all of them and fails. -/
def FallsBack {α : Type} (body : Request → Option Bytes) (rs : List Request) (s s' : St)
    (result : Except Str α) (file : Option Bytes) : Prop :=
  s'.asked = s.asked ++ upTo (fun r => (body r).isSome) rs ∧
    (result.isOk = true ↔ ∃ r ∈ rs, (body r).isSome = true) ∧
    ∀ r, rs.find? (fun r => (body r).isSome) = some r → file = body r

def AssetFallsBack (url assetName : Str) (destDir : Path) (useProxy : Bool) (s : St) : Prop :=
  let (s', result) := downloadAsset E url assetName destDir useProxy s
  FallsBack (fun r => (E.net r).body?) (requests (urls E useProxy url)) s s' result
    (s'.disk (join destDir assetName))

def CoreFallsBack (version : Str) (useProxy : Bool) (temp : Path) (s : St) : Prop :=
  let (s', result) := upgradeEasytier E version useProxy temp s
  FallsBack (fun r => (E.net r).body?) (requests (urls E useProxy (directUrl E version))) s s'
    result s'.installed

def GithubFallsBack (version : Str) (temp : Path) (s : St) : Prop :=
  let (s', result) := downloadFromGithub E version temp s
  FallsBack (fun r => (E.net r).archive?)
    (requests (githubUrls E (directUrl E version))) s s' result s'.installed

def DownloadsFallBack (url assetName : Str) (destDir : Path) (version : Str) (useProxy : Bool)
    (temp : Path) (s : St) : Prop :=
  AssetFallsBack E url assetName destDir useProxy s ∧ CoreFallsBack E version useProxy temp s ∧
    GithubFallsBack E version temp s

/-- Of the attempts in order, the first that is answered with a success status brings all of
its body, or is the last one. -/
def FirstIsWhole (rs : List Request) : Prop :=
  ∀ r rest, rs.dropWhile (fun r => ! (E.net r).succeeds) = r :: rest →
    (E.net r).body?.isSome = true ∨ rest = []

/-! ## One attempt -/

variable {E}

theorem succeeds_of_body {reply : Reply} (h : reply.body?.isSome = true) :
    reply.succeeds = true := by
  cases reply with
  | failed e => simp [Reply.body?] at h
  | answered status chunks broken =>
    by_cases hs : status.isSuccess = true
    · exact hs
    · simp [Reply.body?, hs] at h

theorem answer_of_not_succeeds {r : Request} (h : (E.net r).succeeds = false) :
    ∃ e, answer E r = .error e := by
  cases hnet : E.net r with
  | failed e => exact ⟨_, by rw [answer, hnet]⟩
  | answered status chunks broken =>
    rw [hnet] at h
    have hs : ¬ status.isSuccess = true := by simpa [Reply.succeeds] using h
    exact ⟨_, by rw [answer, hnet]; exact if_neg hs⟩

theorem answer_of_succeeds {r : Request} (h : (E.net r).succeeds = true) :
    ∃ chunks broken, answer E r = .ok (chunks, broken) ∧
      (E.net r).body? = if broken = none then some chunks.flatten else none := by
  cases hnet : E.net r with
  | failed e =>
    rw [hnet] at h
    simp [Reply.succeeds] at h
  | answered status chunks broken =>
    rw [hnet] at h
    have hs : status.isSuccess = true := h
    refine ⟨chunks, broken, by rw [answer, hnet]; exact if_pos hs, ?_⟩
    simp [Reply.body?, hs]

/-! ### The temporary file -/

variable (E) in
/-- What the temporary file is given until a write fails. -/
def given : Nat → List Bytes → Bytes
  | _, [] => []
  | k, chunk :: chunks => if (E.fails (.write k)).isSome then chunk else chunk ++ given (k + 1) chunks

variable (E) in
/-- All chunks arrive and are written. -/
structure Arrives (k : Nat) (chunks : List Bytes) (broken : Option Str) : Prop where
  writes : ∀ i < chunks.length, E.fails (.write (k + i)) = none
  whole : broken = none
  flushes : E.fails .flush = none

variable {chunks : List Bytes} {broken : Option Str}

theorem arrives_cons {k : Nat} {chunk : Bytes} (hwrite : E.fails (.write k) = none) :
    Arrives E k (chunk :: chunks) broken ↔ Arrives E (k + 1) chunks broken := by
  constructor
  · intro ⟨hwrites, hwhole, hflush⟩
    refine ⟨fun i hi => ?_, hwhole, hflush⟩
    have hnext := hwrites (i + 1) (by simpa using hi)
    rwa [Nat.add_right_comm k 1 i, Nat.add_assoc]
  · intro ⟨hwrites, hwhole, hflush⟩
    refine ⟨fun i hi => ?_, hwhole, hflush⟩
    cases i with
    | zero => exact hwrite
    | succ i =>
      have hprev := hwrites i (by simpa using hi)
      rwa [Nat.add_right_comm k 1 i, Nat.add_assoc] at hprev

theorem receive_of_arrives {tmpPath : Path} {disk : Disk} {k : Nat}
    (h : Arrives E k chunks broken) (got : Bytes) :
    receive E tmpPath disk broken k got chunks =
      (disk.write tmpPath (got ++ chunks.flatten), .ok ()) := by
  induction chunks generalizing k got with
  | nil => simp only [receive, h.whole, h.flushes, List.flatten_nil, List.append_nil]
  | cons chunk chunks ih =>
    have hwrite : E.fails (.write k) = none := h.writes 0 (Nat.succ_pos _)
    rw [receive, hwrite]
    show receive E tmpPath disk broken (k + 1) (got ++ chunk) chunks = _
    rw [ih ((arrives_cons hwrite).1 h), List.flatten_cons, List.append_assoc]

theorem receive_of_not_arrives (tmpPath : Path) (disk : Disk) {k : Nat}
    (h : ¬ Arrives E k chunks broken) (got : Bytes) :
    ∃ e, receive E tmpPath disk broken k got chunks =
      (disk.write tmpPath ((got ++ given E k chunks).take E.kept), .error e) := by
  induction chunks generalizing k got with
  | nil =>
    simp only [given, List.append_nil, receive]
    cases broken with
    | some e => exact ⟨_, rfl⟩
    | none =>
      cases hflush : E.fails .flush with
      | some e => exact ⟨_, rfl⟩
      | none => exact absurd ⟨by simp, rfl, hflush⟩ h
  | cons chunk chunks ih =>
    rw [given, receive]
    cases hwrite : E.fails (.write k) with
    | some e => exact ⟨_, rfl⟩
    | none =>
      obtain ⟨e, heq⟩ := ih (fun h' => h ((arrives_cons hwrite).2 h')) (got ++ chunk)
      refine ⟨e, ?_⟩
      rw [if_neg (by simp), ← List.append_assoc]
      exact heq

theorem save_of_arrives {tmpPath destPath : Path} {disk : Disk}
    (hcreate : E.fails .createFile = none) (h : Arrives E 0 chunks broken)
    (hrename : E.fails .renameFile = none) :
    save E tmpPath destPath disk chunks broken =
      ((disk.write tmpPath chunks.flatten).rename tmpPath destPath, .ok ()) := by
  simp only [save, hcreate, receive_of_arrives h, hrename, List.nil_append]

theorem save_of_not_arrives (tmpPath destPath : Path) (disk : Disk)
    (hcreate : E.fails .createFile = none)
    (h : ¬ Arrives E 0 chunks broken) :
    ∃ e, save E tmpPath destPath disk chunks broken =
      (disk.write tmpPath ((given E 0 chunks).take E.kept), .error e) := by
  obtain ⟨e, heq⟩ := receive_of_not_arrives tmpPath disk h []
  exact ⟨e, by simp only [save, hcreate, heq, List.nil_append]⟩

/-! ### A run of them -/

section Run

variable {α : Type} {attempt : St → Request → St × Attempt Str α} {exhausted : Str → Str}
  {ends : Request → Bool} {body : Request → Option Bytes}

/-- An attempt that ends a run is done with its body, if it has one, and else gives up. -/
structure Brings (attempt : St → Request → St × Attempt Str α) (ends : Request → Bool)
    (body : Request → Option Bytes) (file : St → Option Bytes) : Prop where
  ends_of_body : ∀ r, (body r).isSome = true → ends r = true
  next : ∀ s r, ends r = false →
    ∃ s' e, attempt s r = (s', .next e) ∧ s'.asked = s.asked ++ [r]
  done : ∀ s r b, body r = some b →
    ∃ s' a, attempt s r = (s', .done a) ∧ s'.asked = s.asked ++ [r] ∧ file s' = some b
  aborts : ∀ s r, ends r = true → body r = none →
    ∃ s' e, attempt s r = (s', .abort e) ∧ s'.asked = s.asked ++ [r]

variable {file : St → Option Bytes}

theorem Brings.foreseen (h : Brings attempt ends body file) : Foreseen attempt ends := by
  intro s r
  cases hr : ends r with
  | false =>
    obtain ⟨s', e, heq, -⟩ := h.next s r hr
    simp [heq]
  | true =>
    cases hb : body r with
    | some b =>
      obtain ⟨s', a, heq, -⟩ := h.done s r b hb
      simp [heq]
    | none =>
      obtain ⟨s', e, heq, -⟩ := h.aborts s r hr hb
      simp [heq]

theorem Brings.notes (h : Brings attempt ends body file) (s : St) (r : Request) :
    (attempt s r).1.asked = s.asked ++ [r] := by
  cases hr : ends r with
  | false =>
    obtain ⟨s', e, heq, hasked⟩ := h.next s r hr
    rw [heq, hasked]
  | true =>
    cases hb : body r with
    | some b =>
      obtain ⟨s', a, heq, hasked, -⟩ := h.done s r b hb
      rw [heq, hasked]
    | none =>
      obtain ⟨s', e, heq, hasked⟩ := h.aborts s r hr hb
      rw [heq, hasked]

theorem fallsBack_iff (h : Brings attempt ends body file) (s : St)
    (last : Str) (rs : List Request) :
    FallsBack body rs s (fallback attempt exhausted s last rs).1
        (fallback attempt exhausted s last rs).2 (file (fallback attempt exhausted s last rs).1) ↔
      ∀ r rest, rs.dropWhile (fun r => ! ends r) = r :: rest →
        (body r).isSome = true ∨ rest = [] := by
  have hbody : ∀ r, ends r = false → (body r).isSome = false := fun r hr =>
    Bool.eq_false_iff.2 fun hsome => by simp [h.ends_of_body r hsome] at hr
  rw [FallsBack, notes_fallback h.foreseen h.notes, List.append_cancel_left_eq,
    upTo_eq_iff h.ends_of_body]
  refine and_iff_left_of_imp fun hfirst => ?_
  rcases fallback_eq exhausted h.foreseen s last rs with
    ⟨before, r, rest, rfl, hbefore, hr, hrun⟩ | ⟨hall, last', hrun⟩
  · have hdrop : (before ++ r :: rest).dropWhile (fun r => ! ends r) = r :: rest := by
      rw [List.dropWhile_append_of_pos (by simpa using hbefore),
        List.dropWhile_cons_of_neg (by simpa using hr)]
    have hnone : before.find? (fun r => (body r).isSome) = none := by
      rw [List.find?_eq_none]
      intro r' hmem
      simp [hbody r' (hbefore r' hmem)]
    rw [hrun, List.find?_append, hnone, Option.none_or]
    cases hb : body r with
    | some b =>
      obtain ⟨s', a, heq, -, hfile⟩ := h.done (attempted attempt s before) r b hb
      rw [heq, List.find?_cons_of_pos (by simp [hb])]
      refine ⟨iff_of_true rfl ⟨r, by simp, by simp [hb]⟩, fun r' hr' => ?_⟩
      rw [← Option.some.inj hr', hb, hfile]
    | none =>
      -- it is the last one
      obtain rfl : rest = [] := by simpa [hb] using hfirst r rest hdrop
      obtain ⟨s', e, heq, -⟩ := h.aborts (attempted attempt s before) r hr hb
      rw [heq, List.find?_cons_of_neg (by simp [hb]), List.find?_nil]
      refine ⟨iff_of_false Bool.false_ne_true ?_, fun r' hr' => by cases hr'⟩
      intro ⟨r', hmem, hsome⟩
      rcases List.mem_append.1 hmem with hmem | hmem
      · simp [hbody r' (hbefore r' hmem)] at hsome
      · rw [List.mem_singleton.1 hmem, hb] at hsome
        cases hsome
  · have hnone : ∀ r ∈ rs, ¬ (body r).isSome = true := fun r hmem => by
      simp [hbody r (hall r hmem)]
    rw [hrun, List.find?_eq_none.2 hnone]
    refine ⟨iff_of_false Bool.false_ne_true ?_, fun r' hr' => by cases hr'⟩
    intro ⟨r, hmem, hsome⟩
    exact hnone r hmem hsome

end Run

/-! ### The three downloads -/

theorem answer_of_body {r : Request} {b : Bytes} (h : (E.net r).body? = some b) :
    ∃ chunks, answer E r = .ok (chunks, none) ∧ chunks.flatten = b := by
  obtain ⟨chunks, broken, hanswer, hbody⟩ :=
    answer_of_succeeds (succeeds_of_body (Option.isSome_of_eq_some h))
  rw [h] at hbody
  split at hbody
  · rename_i hbroken
    rw [hbroken] at hanswer
    exact ⟨chunks, hanswer, (Option.some.inj hbody).symm⟩
  · cases hbody

theorem answer_of_broken {r : Request} (hr : (E.net r).succeeds = true)
    (h : (E.net r).body? = none) : ∃ chunks e, answer E r = .ok (chunks, some e) := by
  obtain ⟨chunks, broken, hanswer, hbody⟩ := answer_of_succeeds hr
  cases broken with
  | some e => exact ⟨chunks, e, hanswer⟩
  | none =>
    rw [h, if_pos rfl] at hbody
    cases hbody

section Local

variable (hlocal : ∀ step, E.fails step = none)
include hlocal

theorem save_of_whole (tmpPath destPath : Path) (disk : Disk) (chunks : List Bytes) :
    save E tmpPath destPath disk chunks none =
      ((disk.write tmpPath chunks.flatten).rename tmpPath destPath, .ok ()) :=
  save_of_arrives (hlocal _) ⟨fun _ _ => hlocal _, rfl, hlocal _⟩ (hlocal _)

theorem save_of_broken (tmpPath destPath : Path) (disk : Disk) (chunks : List Bytes) (e : Str) :
    ∃ disk' e', save E tmpPath destPath disk chunks (some e) = (disk', .error e') := by
  have hcut : ¬ Arrives E 0 chunks (some e) := fun h => Option.some_ne_none e h.whole
  obtain ⟨e', heq⟩ := save_of_not_arrives tmpPath destPath disk (hlocal _) hcut
  exact ⟨_, e', heq⟩

theorem brings_tryAsset (tmpPath destPath : Path) :
    Brings (tryAsset E tmpPath destPath) (fun r => (E.net r).succeeds)
      (fun r => (E.net r).body?) fun s => s.disk destPath where
  ends_of_body := fun r => succeeds_of_body
  next := by
    intro s r hr
    obtain ⟨e, hanswer⟩ := answer_of_not_succeeds hr
    exact ⟨_, e, by rw [tryAsset, hanswer], rfl⟩
  done := by
    intro s r b hb
    obtain ⟨chunks, hanswer, rfl⟩ := answer_of_body hb
    refine ⟨_, destPath, by rw [tryAsset, hanswer]; simp only [save_of_whole hlocal]; rfl, rfl, ?_⟩
    show Disk.rename _ tmpPath destPath destPath = _
    rw [Disk.rename_target, Disk.write_self]
  aborts := by
    intro s r hr hb
    obtain ⟨chunks, e, hanswer⟩ := answer_of_broken hr hb
    obtain ⟨disk, e', hsave⟩ := save_of_broken hlocal tmpPath destPath s.disk chunks e
    exact ⟨_, e', by rw [tryAsset, hanswer]; simp only [hsave]; rfl, rfl⟩

/-- What was saved is there to be installed. -/
theorem install_saved (disk : Disk) (tmpPath path : Path) (b : Bytes) (asked : List Request)
    (installed : Option Bytes) :
    install E path ⟨(disk.write tmpPath b).rename tmpPath path, asked, installed⟩ =
      (⟨(disk.write tmpPath b).rename tmpPath path, asked, some b⟩, .ok E.binary) := by
  simp only [install, hlocal, Disk.rename_target, Disk.write_self]

theorem switchBinary_eq : switchBinary E = .done () := by
  simp only [switchBinary, hlocal]

theorem brings_tryCore (tempDir : Path) (filename : Str) :
    Brings (tryCore E tempDir filename) (fun r => (E.net r).succeeds)
      (fun r => (E.net r).body?) St.installed where
  ends_of_body := fun r => succeeds_of_body
  next := by
    intro s r hr
    obtain ⟨e, hanswer⟩ := answer_of_not_succeeds hr
    exact ⟨_, e, by rw [tryCore, hanswer], rfl⟩
  done := by
    intro s r b hb
    obtain ⟨chunks, hanswer, rfl⟩ := answer_of_body hb
    rw [tryCore, hanswer]
    simp only [hlocal, save_of_whole hlocal, install_saved hlocal,
      switchBinary_eq hlocal]
    exact ⟨_, (), rfl, rfl, rfl⟩
  aborts := by
    intro s r hr hb
    obtain ⟨chunks, e, hanswer⟩ := answer_of_broken hr hb
    obtain ⟨disk, e', hsave⟩ := save_of_broken hlocal (join tempDir (filename ++ ".tmp".toList))
      (join tempDir filename) (s.disk.removeDir tempDir) chunks e
    rw [tryCore, hanswer]
    simp only [hlocal, hsave]
    exact ⟨_, e', rfl, rfl⟩

theorem brings_tryGithub (tempDir : Path) (filename : Str) :
    Brings (tryGithub E tempDir filename) (fun r => (E.net r).archive?.isSome)
      (fun r => (E.net r).archive?) St.installed where
  ends_of_body := fun r h => h
  next := by
    intro s r hr
    cases hs : (E.net r).succeeds with
    | false =>
      obtain ⟨e, hanswer⟩ := answer_of_not_succeeds hs
      exact ⟨_, e, by rw [tryGithub, hanswer], rfl⟩
    | true =>
      cases hb : (E.net r).body? with
      | none =>
        obtain ⟨chunks, e, hanswer⟩ := answer_of_broken hs hb
        exact ⟨_, _, by rw [tryGithub, hanswer], rfl⟩
      | some b =>
        obtain ⟨chunks, hanswer, rfl⟩ := answer_of_body hb
        have hempty : chunks.flatten = [] := by simpa [Reply.archive?, hb] using hr
        rw [tryGithub, hanswer]
        simp only [hempty, if_true]
        exact ⟨_, _, rfl, rfl⟩
  done := by
    intro s r b hb
    obtain ⟨hb, hne⟩ := Option.filter_eq_some_iff.1 hb
    obtain ⟨chunks, hanswer, rfl⟩ := answer_of_body hb
    rw [tryGithub, hanswer]
    simp only [hlocal, if_neg (of_decide_eq_true hne), Option.isNone_none, if_true,
      install_saved hlocal]
    exact ⟨_, E.binary, rfl, rfl, rfl⟩
  aborts := by
    intro s r hr hb
    rw [hb] at hr
    cases hr

end Local

/-! ## Falling back -/

section Results

variable (hlocal : ∀ step, E.fails step = none)
include hlocal

theorem assetFallsBack_iff (url assetName : Str) (destDir : Path) (useProxy : Bool) (s : St) :
    AssetFallsBack E url assetName destDir useProxy s ↔
      FirstIsWhole E (requests (urls E useProxy url)) :=
  fallsBack_iff (brings_tryAsset hlocal _ _) s [] _

theorem coreFallsBack_iff (version : Str) (useProxy : Bool) (temp : Path) (s : St) :
    CoreFallsBack E version useProxy temp s ↔
      FirstIsWhole E (requests (urls E useProxy (directUrl E version))) :=
  fallsBack_iff (brings_tryCore hlocal _ _) s [] _

theorem githubFallsBack (version : Str) (temp : Path) (s : St) :
    GithubFallsBack E version temp s := by
  unfold GithubFallsBack downloadFromGithub
  refine (fallsBack_iff (brings_tryGithub hlocal _ _) s [] _).2 fun r rest hdrop => .inl ?_
  have hhead := List.head?_dropWhile_not (fun r => ! (E.net r).archive?.isSome)
    (requests (githubUrls E (directUrl E version)))
  rw [hdrop] at hhead
  simpa using hhead

omit hlocal in
/-- If no body breaks off, all is well. -/
theorem firstIsWhole_of_forall {rs : List Request}
    (h : ∀ r ∈ rs, (E.net r).succeeds = true → (E.net r).body?.isSome = true) :
    FirstIsWhole E rs := by
  intro r rest hdrop
  have hhead := List.head?_dropWhile_not (fun r => ! (E.net r).succeeds) rs
  rw [hdrop] at hhead
  have hmem : r ∈ rs := (List.dropWhile_sublist _).subset (hdrop ▸ List.mem_cons_self)
  exact .inl (h r hmem (by simpa using hhead))

/-- The downloads fall back exactly if no body breaks off before the last attempt, or only
behind one that is whole; the third one always does. -/
theorem downloads_fall_back_iff (url assetName : Str) (destDir : Path) (version : Str) (useProxy : Bool)
    (temp : Path) (s : St) :
    DownloadsFallBack E url assetName destDir version useProxy temp s ↔
      FirstIsWhole E (requests (urls E useProxy url)) ∧
        FirstIsWhole E (requests (urls E useProxy (directUrl E version))) := by
  rw [DownloadsFallBack, assetFallsBack_iff hlocal, coreFallsBack_iff hlocal,
    and_iff_left (githubFallsBack hlocal version temp s)]

end Results

/-! ### Two servers -/

/-- Nothing fails on the machine. -/
def soundEnv (net : Request → Reply) : Env where
  mirror := "https://mirror".toList
  platform := "linux-x86_64".toList
  net := net
  fails := fun _ => none
  kept := 0
  binary := []

def ok : Status := ⟨200, "200 OK".toList⟩

/-- The first answer breaks off, and those that follow are whole. -/
def brokenOnce (r : Request) : Reply :=
  .answered ok [[104], [105]] (if r.attempt = 1 then some "reset".toList else none)

/-- The first request fails. -/
def failedOnce (r : Request) : Reply :=
  if r.attempt = 1 then .failed "refused".toList else .answered ok [[104], [105]] none

/-- The second attempt would have brought the file. -/
theorem broken_body_ends_download :
    ¬ ∀ E, (∀ step, E.fails step = none) → ∀ url assetName destDir version useProxy temp s,
      DownloadsFallBack E url assetName destDir version useProxy temp s := by
  intro h
  have hasset : AssetFallsBack (soundEnv brokenOnce) "https://h/a".toList "a".toList [] false
      ⟨fun _ => none, [], none⟩ :=
    (h (soundEnv brokenOnce) (fun _ => rfl) _ _ _ "1".toList _ [] _).1
  have hfirst := (assetFallsBack_iff (fun _ => rfl) _ _ _ _ _).1 hasset
  rcases hfirst _ _ rfl with hwhole | hlast
  · cases hwhole
  · cases hlast

theorem downloads_failedOnce :
    DownloadsFallBack (soundEnv failedOnce) "https://h/a".toList "a".toList [] "1".toList true []
      ⟨fun _ => none, [], none⟩ := by
  have hwhole : ∀ r, (failedOnce r).succeeds = true → (failedOnce r).body?.isSome = true := by
    intro r hr
    unfold failedOnce at hr ⊢
    split at hr
    · cases hr
    · rename_i hattempt
      rw [if_neg hattempt]
      rfl
  exact (downloads_fall_back_iff (fun _ => rfl) _ _ _ _ _ _ _).2
    ⟨firstIsWhole_of_forall fun r _ => hwhole r, firstIsWhole_of_forall fun r _ => hwhole r⟩

end Downloads

end HomeTier.Download
