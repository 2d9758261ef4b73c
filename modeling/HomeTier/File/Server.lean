import HomeTier.Lib.Decimal
import HomeTier.Lib.Disk
import HomeTier.Lib.Message
import HomeTier.Lib.Uuid

/-! # File server

`FileServer` and `handle_connection` of `src-tauri/src/file/server.rs`. A
connection is read until the blank line behind the head. The length of the body
comes from `content-length` lines; without such a line it is 0, and nothing more
is read than what arrived together with the end of the head (`put_unsized`).
With the right length the whole body is stored (`put_sized`).

The pieces that successive reads return are an input, and so is what becomes of
a write. The directory of a file is created before it is written.
-/

namespace HomeTier

open Lib

namespace FileServer

/-- What became of `std::fs::write`: when it fails, the file is as before or holds
what was written until then. -/
inductive SaveResult where
  | saved
  | failed (error : Str) (left : Option Bytes)
deriving DecidableEq

/-- Write a file as far as the operating system lets it. -/
def tryWrite (disk : Disk) (path : Path) (content : Bytes) : SaveResult → Except Str Unit × Disk
  | .saved => (.ok (), disk.write path content)
  | .failed error none => (.error error, disk)
  | .failed error (some left) => (.error error, disk.write path left)

theorem tryWrite_saved (disk : Disk) (path : Path) (content : Bytes) :
    tryWrite disk path content .saved = (.ok (), disk.write path content) := rfl

theorem tryWrite_snd (disk : Disk) (path : Path) (content : Bytes) (result : SaveResult) :
    (tryWrite disk path content result).2 = disk ∨
      ∃ c, (tryWrite disk path content result).2 = disk.write path c := by
  rcases result with - | ⟨e, - | left⟩
  · exact .inr ⟨content, rfl⟩
  · exact .inl rfl
  · exact .inr ⟨left, rfl⟩

/-- `{file_id}.bin` in the storage directory -/
def filePath (storageDir : Path) (fileId : BitVec 128) : Path :=
  join storageDir (uuidText fileId ++ ".bin".toList)

/-- `ENOENT`, as Rust prints it -/
def notFound : Str := "No such file or directory (os error 2)".toList

def readFile (disk : Disk) (storageDir : Path) (fileId : BitVec 128) : Except Str Bytes :=
  match disk (filePath storageDir fileId) with
  | some data => .ok data
  | none => .error ("读取文件失败: ".toList ++ notFound)

def writeFile (disk : Disk) (storageDir : Path) (fileId : BitVec 128) (data : Bytes)
    (result : SaveResult) : Except Str Unit × Disk :=
  let (written, disk) := tryWrite disk (filePath storageDir fileId) data result
  (written.mapError ("保存文件失败: ".toList ++ ·), disk)

theorem writeFile_failed (disk : Disk) (storageDir : Path) (fileId : BitVec 128) (data : Bytes)
    (e : Str) (left : Option Bytes) :
    writeFile disk storageDir fileId data (.failed e left) =
      (.error ("保存文件失败: ".toList ++ e),
        (left.map fun c => disk.write (filePath storageDir fileId) c).getD disk) := by
  cases left <;> rfl

/-! ## Reading a request -/

def findHeaderEnd (buf : Bytes) : Option Nat := position blankBytes buf

/-- Read until the blank line: its position, what was read and the pieces that
follow. There is none when the connection ends or the head is too long. -/
def readHead : Bytes → List Bytes → Option (Nat × Bytes × List Bytes)
  | _, [] => none
  | headerBuf, chunk :: pieces =>
    let headerBuf := headerBuf ++ chunk
    match findHeaderEnd headerBuf with
    | some pos => some (pos, headerBuf, pieces)
    | none => if 64 * 1024 < headerBuf.length then none else readHead headerBuf pieces

/-- What has arrived of the body with the end of the head; `none` if the head has no end. -/
def bodyStart (pieces : List Bytes) : Option Bytes :=
  (readHead [] pieces).map fun (headerEnd, headerBuf, _) => headerBuf.drop (headerEnd + 4)

/-- Read on while the body is shorter than its length. -/
def readBody (contentLength : Nat) : Bytes → List Bytes → Bytes
  | body, [] => body
  | body, chunk :: pieces =>
    if body.length < contentLength then readBody contentLength (body ++ chunk) pieces else body

/-- The value of a `content-length` line; it is 0 when it is no number. -/
def lengthOf (line : Str) : Nat :=
  ((line.splitOn ':')[1]?.bind fun v => parseUnsigned (2 ^ 64) (trim v)).getD 0

/-- `to_lowercase` makes no letter of this name from a character outside ASCII. -/
def isLengthLine (line : Str) : Bool := "content-length:".toList.isPrefixOf (line.map Char.toLower)

/-- The last `content-length` line counts. -/
def contentLength (ls : List Str) : Nat :=
  ls.foldl (fun n line => if isLengthLine line then lengthOf line else n) 0

/-! ## Answers -/

def okAnswer : Str := "HTTP/1.1 200 OK\r\nContent-Length: 2\r\n\r\nOK".toList

def invalidFileId : Str :=
  "HTTP/1.1 400 Bad Request\r\nContent-Length: 15\r\n\r\nInvalid file ID".toList

def notFoundAnswer : Str := "HTTP/1.1 404 Not Found\r\nContent-Length: 9\r\n\r\nNot Found".toList

def serverError (e : Str) : Str :=
  "HTTP/1.1 500 Internal Server Error\r\nContent-Length: ".toList ++ decimal (utf8 e).length ++
    "\r\n\r\n".toList ++ e

def contentHead (data : Bytes) : Str :=
  "HTTP/1.1 200 OK\r\nContent-Type: application/octet-stream\r\nContent-Length: ".toList ++
    decimal data.length ++ "\r\n\r\n".toList

/-- `/files/` -/
def filesPrefix : Str := ['/', 'f', 'i', 'l', 'e', 's', '/']

/-- The body of a PUT becomes the file. -/
def store (storageDir : Path) (result : SaveResult) (disk : Disk) (fileId : BitVec 128)
    (body : Bytes) : Bytes × Disk :=
  match tryWrite disk (filePath storageDir fileId) body result with
  | (.ok (), disk) => (utf8 okAnswer, disk)
  | (.error e, disk) => (utf8 (serverError e), disk)

theorem store_snd (storageDir : Path) (result : SaveResult) (disk : Disk)
    (fileId : BitVec 128) (body : Bytes) :
    (store storageDir result disk fileId body).2 =
      (tryWrite disk (filePath storageDir fileId) body result).2 := by
  rcases result with - | ⟨e, - | left⟩ <;> rfl

/-- The answer to a request and the disk behind it. -/
def answer (storageDir : Path) (result : SaveResult) (disk : Disk) (method path : Str)
    (body : Bytes) : Bytes × Disk :=
  if method = "PUT".toList ∧ filesPrefix <+: path then
    match parseUuid (trimStartText filesPrefix path) with
    | some fileId => store storageDir result disk fileId body
    | none => (utf8 invalidFileId, disk)
  else if method = "GET".toList ∧ filesPrefix <+: path then
    match parseUuid (trimStartText filesPrefix path) with
    | some fileId =>
      match disk (filePath storageDir fileId) with
      | some data => (utf8 (contentHead data) ++ data, disk)
      | none => (utf8 notFoundAnswer, disk)
    | none => (utf8 invalidFileId, disk)
  else (utf8 notFoundAnswer, disk)

/-- `handle_connection`; there is no answer when no request was read. -/
def handleConnection (storageDir : Path) (result : SaveResult) (disk : Disk)
    (pieces : List Bytes) : Option Bytes × Disk :=
  match readHead [] pieces with
  | none => (none, disk)
  | some (headerEnd, headerBuf, pieces) =>
    match lines (fromUtf8Lossy (headerBuf.take headerEnd)) with
    | [] => (none, disk)
    | requestLine :: headers =>
      let parts := splitWhitespace requestLine
      let method := parts[0]?.getD []
      let path := parts[1]?.getD ['/']
      let body := readBody (contentLength headers) (headerBuf.drop (headerEnd + 4)) pieces
      let (response, disk) := answer storageDir result disk method path body
      (some response, disk)

/-! ## The end of the head -/

variable {pieces : List Bytes} {head : HeadBytes}

/-- When the head is complete, less than the last piece of the body has been read with it. -/
theorem readHead_spec {body buf : Bytes}
    (hbuf : findHeaderEnd buf = none) (hwire : buf ++ pieces.flatten = head.bytes ++ body)
    {pos : Nat} {headerBuf : Bytes} {rest : List Bytes}
    (h : readHead buf pieces = some (pos, headerBuf, rest)) :
    pos = head.text.length ∧
      ∃ got, headerBuf = head.bytes ++ got ∧ got ++ rest.flatten = body ∧
        (∃ chunk ∈ pieces, got.length < chunk.length) ∧ rest <:+ pieces := by
  induction pieces generalizing buf with
  | nil => cases h
  | cons chunk pieces ih =>
    have hshort : buf.length < head.bytes.length := by
      by_contra hge
      rw [findHeaderEnd, head.position_arrived ⟨_, hwire⟩, if_pos (not_lt.1 hge)] at hbuf
      cases hbuf
    rw [List.flatten_cons, ← List.append_assoc] at hwire
    -- the end of the head is found when the last byte of the head is in
    have hfound := head.position_arrived ⟨_, hwire⟩
    rw [readHead, findHeaderEnd, hfound] at h
    split at h
    · rename_i p hp
      split at hp
      · rename_i hle
        cases hp
        cases h
        -- what this piece has behind the head is the front of the body
        rcases List.prefix_of_prefix_length_le ⟨body, rfl⟩ ⟨_, hwire⟩ hle with ⟨got, hgot⟩
        refine ⟨rfl, got, hgot.symm, ?_, ⟨chunk, List.mem_cons_self, ?_⟩, List.suffix_cons _ _⟩
        · rw [← hgot, List.append_assoc, List.append_cancel_left_eq] at hwire
          exact hwire
        · have hlen := congrArg List.length hgot
          simp only [List.length_append] at hlen
          omega
      · cases hp
    · rename_i hp
      split at hp
      · cases hp
      · rename_i hgt
        split at h
        · cases h
        · have hnone : findHeaderEnd (buf ++ chunk) = none := by
            rw [findHeaderEnd, hfound, if_neg hgt]
          rcases ih hnone hwire h with ⟨hpos, got, hgot, hbody, ⟨c, hc, hlt⟩, hsuffix⟩
          exact ⟨hpos, got, hgot, hbody, ⟨c, List.mem_cons_of_mem _ hc, hlt⟩,
            hsuffix.trans (List.suffix_cons _ _)⟩

/-- Without a length to reach, nothing more is read. -/
theorem readBody_zero (got : Bytes) (rest : List Bytes) : readBody 0 got rest = got := by
  cases rest with
  | nil => rfl
  | cons chunk rest => rw [readBody, if_neg (Nat.not_lt_zero _)]

/-- With enough pieces left, the body is read up to its length. -/
theorem readBody_whole {n : Nat} {body got : Bytes}
    (hwire : got ++ pieces.flatten = body) (hlen : body.length = n)
    (hne : ∀ p ∈ pieces, p ≠ []) : readBody n got pieces = body := by
  induction pieces generalizing got with
  | nil => simpa [readBody] using hwire
  | cons chunk pieces ih =>
    rw [readBody]
    rw [List.forall_mem_cons] at hne
    rw [List.flatten_cons, ← List.append_assoc] at hwire
    split
    · exact ih hwire hne.2
    · next hge =>
      -- nothing can be left, since the body has its length
      have htotal := congrArg List.length hwire
      have hpos := List.length_pos_of_ne_nil hne.1
      simp only [List.length_append] at htotal
      omega

/-- The head is read unless more than 64 KiB arrive before its blank line. -/
theorem readHead_ne_none_iff {body buf : Bytes}
    (hbuf : findHeaderEnd buf = none) (hwire : buf ++ pieces.flatten = head.bytes ++ body) :
    readHead buf pieces ≠ none ↔
      ∀ k, 0 < k → (buf ++ (pieces.take k).flatten).length ≤ 64 * 1024 ∨
        head.bytes.length ≤ (buf ++ (pieces.take k).flatten).length := by
  induction pieces generalizing buf with
  | nil =>
    -- all of it has arrived
    rw [List.flatten_nil, List.append_nil] at hwire
    rw [hwire, findHeaderEnd, head.position_bytes] at hbuf
    cases hbuf
  | cons chunk pieces ih =>
    rw [List.flatten_cons, ← List.append_assoc] at hwire
    have hfound := head.position_arrived ⟨_, hwire⟩
    have hshift : ∀ k, (buf ++ ((chunk :: pieces).take (k + 1)).flatten) =
        (buf ++ chunk) ++ (pieces.take k).flatten := by
      intro k
      rw [List.take_succ_cons, List.flatten_cons, List.append_assoc]
    rw [readHead, findHeaderEnd, hfound]
    by_cases hle : head.bytes.length ≤ (buf ++ chunk).length
    · rw [if_pos hle]
      refine iff_of_true (by simp) ?_
      intro k hk
      obtain ⟨k, rfl⟩ := Nat.exists_eq_add_of_lt hk
      rw [Nat.zero_add, hshift, List.length_append]
      exact .inr (hle.trans (Nat.le_add_right _ _))
    · rw [if_neg hle]
      by_cases hlong : 64 * 1024 < (buf ++ chunk).length
      · simp only [if_pos hlong, ne_eq, not_true, false_iff]
        intro h
        have hone := h 1 Nat.one_pos
        rw [hshift, List.take_zero, List.flatten_nil, List.append_nil] at hone
        rcases hone with hone | hone
        · exact absurd hlong (not_lt.2 hone)
        · exact hle hone
      · simp only [if_neg hlong]
        have hnone : findHeaderEnd (buf ++ chunk) = none := by
          rw [findHeaderEnd, hfound, if_neg hle]
        rw [ih hnone hwire]
        constructor
        · intro h k hk
          obtain ⟨k, rfl⟩ := Nat.exists_eq_add_of_lt hk
          rw [Nat.zero_add, hshift]
          cases k with
          | zero =>
            rw [List.take_zero, List.flatten_nil, List.append_nil]
            exact .inl (not_lt.1 hlong)
          | succ k => exact h (k + 1) (Nat.succ_pos k)
        · intro h k hk
          rw [← hshift]
          exact h (k + 1) (Nat.succ_pos k)

variable {body : Bytes}

/-- A head that is not too long is read. -/
theorem readHead_ne_none
    (hshort : head.bytes.length ≤ 64 * 1024) (hwire : pieces.flatten = head.bytes ++ body) :
    readHead [] pieces ≠ none := by
  rw [readHead_ne_none_iff rfl hwire]
  intro k _
  rcases le_total ([] ++ (pieces.take k).flatten).length (64 * 1024) with h | h
  · exact .inl h
  · exact .inr (hshort.trans h)

/-! ## Uploads -/

def putLine (fileId : BitVec 128) : Str :=
  "PUT".toList ++ ' ' :: (filesPrefix ++ uuidText fileId ++ ' ' :: "HTTP/1.1".toList)

theorem isWhitespace_uuidText (fileId : BitVec 128) :
    ∀ c ∈ uuidText fileId, isWhitespace c = false :=
  forall_mem_uuidText (forall_mem_of_all (by decide)) (by decide) fileId

theorem slash_notMem_uuidText (fileId : BitVec 128) : '/' ∉ uuidText fileId := by
  intro h
  exact forall_mem_uuidText (P := (· ≠ '/')) (forall_mem_of_all (by decide)) (by decide) fileId
    '/' h rfl

theorem isWhitespace_filesPrefix : ∀ c ∈ filesPrefix, isWhitespace c = false :=
  forall_mem_of_all (by decide)

theorem forall_mem_putLine {P : Char → Prop} (hfixed : ∀ c ∈ "PUT /files/HTTP1.-".toList, P c)
    (hdigit : ∀ c ∈ hexDigits, P c) (fileId : BitVec 128) :
    ∀ c ∈ putLine fileId, P c := by
  have hpart : ∀ s : Str, s ⊆ "PUT /files/HTTP1.-".toList → ∀ c ∈ s, P c := by
    intro s hs c hc
    exact hfixed c (hs hc)
  have hhyphen : P '-' := hfixed '-' (by decide)
  intro c hc
  simp only [putLine, List.mem_append, List.mem_cons] at hc
  rcases hc with hc | rfl | (hc | hc) | rfl | hc
  · exact hpart _ (by decide) c hc
  · exact hfixed ' ' (by decide)
  · exact hpart _ (by decide) c hc
  · exact forall_mem_uuidText hdigit hhyphen fileId c hc
  · exact hfixed ' ' (by decide)
  · exact hpart _ (by decide) c hc

theorem return_notMem_putLine (fileId : BitVec 128) : '\r' ∉ putLine fileId := by
  intro h
  exact forall_mem_putLine (P := (· ≠ '\r')) (forall_mem_of_all (by decide))
    (forall_mem_of_all (by decide)) fileId _ h rfl

theorem newline_notMem_putLine (fileId : BitVec 128) : '\n' ∉ putLine fileId := by
  intro h
  exact forall_mem_putLine (P := (· ≠ '\n')) (forall_mem_of_all (by decide))
    (forall_mem_of_all (by decide)) fileId _ h rfl

theorem splitWhitespace_putLine (fileId : BitVec 128) :
    splitWhitespace (putLine fileId) =
      ["PUT".toList, filesPrefix ++ uuidText fileId, "HTTP/1.1".toList] := by
  have hpath : ∀ c ∈ filesPrefix ++ uuidText fileId, isWhitespace c = false := by
    intro c hc
    rcases List.mem_append.1 hc with hc | hc
    · exact isWhitespace_filesPrefix c hc
    · exact isWhitespace_uuidText fileId c hc
  have hne : filesPrefix ++ uuidText fileId ≠ [] := List.cons_ne_nil _ _
  have hversion : splitWhitespace "HTTP/1.1".toList = ["HTTP/1.1".toList] := by decide
  rw [putLine, splitWhitespace_append (by decide) (forall_mem_of_all (by decide)),
    splitWhitespace_append hne hpath, hversion]

theorem answer_put (storageDir : Path) (result : SaveResult) (disk : Disk)
    (fileId : BitVec 128) (body : Bytes) :
    answer storageDir result disk "PUT".toList (filesPrefix ++ uuidText fileId) body =
      store storageDir result disk fileId body := by
  have hpre : filesPrefix <+: filesPrefix ++ uuidText fileId := ⟨_, rfl⟩
  have hrest : ¬ filesPrefix <+: uuidText fileId := by
    intro h
    exact slash_notMem_uuidText fileId (h.subset (by decide))
  have htrim : trimStartText filesPrefix (filesPrefix ++ uuidText fileId) = uuidText fileId :=
    trimStartText_append hrest
  rw [answer, if_pos ⟨rfl, hpre⟩, htrim, parseUuid_uuidText]

variable {headers : List Str}

/-- A request is answered with the body as far as it is read, unless the connection
fails before. -/
theorem handleConnection_head {requestLine : Str}
    (hlines : lines (fromUtf8Lossy head.text) = requestLine :: headers)
    (hwire : pieces.flatten = head.bytes ++ body) (storageDir : Path)
    (result : SaveResult) (disk : Disk) :
    (readHead [] pieces = none ∧
      handleConnection storageDir result disk pieces = (none, disk)) ∨
    readHead [] pieces ≠ none ∧
    ∃ got rest, got ++ rest.flatten = body ∧ (∃ chunk ∈ pieces, got.length < chunk.length) ∧
      rest <:+ pieces ∧
      handleConnection storageDir result disk pieces =
        Prod.map some id (answer storageDir result disk
          ((splitWhitespace requestLine)[0]?.getD []) ((splitWhitespace requestLine)[1]?.getD ['/'])
          (readBody (contentLength headers) got rest)) := by
  cases hread : readHead [] pieces with
  | none => exact .inl ⟨rfl, by rw [handleConnection, hread]⟩
  | some r =>
    rcases r with ⟨pos, headerBuf, rest⟩
    rcases readHead_spec rfl hwire hread with ⟨rfl, got, rfl, hgot, hchunk, hsuffix⟩
    refine .inr ⟨Option.some_ne_none _, got, rest, hgot, hchunk, hsuffix, ?_⟩
    simp only [handleConnection, hread, head.take_bytes, head.drop_bytes, hlines]
    rfl

variable {fileId : BitVec 128}

/-- The body of a PUT is stored as far as it is read, unless the connection fails before. -/
theorem handleConnection_put {head : HeadLines} (hhead : head.lines = putLine fileId :: headers)
    (hwire : pieces.flatten = head.bytes ++ body) (storageDir : Path) (result : SaveResult)
    (disk : Disk) :
    (readHead [] pieces = none ∧
      handleConnection storageDir result disk pieces = (none, disk)) ∨
    ∃ got rest, got ++ rest.flatten = body ∧ (∃ chunk ∈ pieces, got.length < chunk.length) ∧
      rest <:+ pieces ∧
      handleConnection storageDir result disk pieces =
        Prod.map some id (store storageDir result disk fileId
          (readBody (contentLength headers) got rest)) := by
  have hlines : lines (fromUtf8Lossy head.toHeadBytes.text) = putLine fileId :: headers := by
    show lines (fromUtf8Lossy (utf8 (joinLines head.lines))) = _
    rw [fromUtf8Lossy_utf8, lines_joinLines head.line_ne_nil head.return_notMem
      head.newline_notMem, hhead]
  rcases handleConnection_head hlines hwire storageDir result disk with
    h | ⟨-, got, rest, hgot, hchunk, hsuffix, hanswer⟩
  · exact .inl h
  · rw [splitWhitespace_putLine] at hanswer
    refine .inr ⟨got, rest, hgot, hchunk, hsuffix, hanswer.trans ?_⟩
    exact congrArg (Prod.map some id) (answer_put storageDir result disk fileId _)

/-- Without a length, what arrived with the end of the head is stored. -/
theorem put_bodyStart {head : HeadLines}
    (hhead : head.lines = putLine fileId :: headers) (hlen : contentLength headers = 0)
    (hwire : pieces.flatten = head.bytes ++ body)
    (storageDir : Path) (result : SaveResult) (disk : Disk) :
    handleConnection storageDir result disk pieces =
      match bodyStart pieces with
      | none => (none, disk)
      | some got => Prod.map some id (store storageDir result disk fileId got) := by
  have hlines : lines (fromUtf8Lossy head.toHeadBytes.text) = putLine fileId :: headers := by
    show lines (fromUtf8Lossy (utf8 (joinLines head.lines))) = _
    rw [fromUtf8Lossy_utf8, lines_joinLines head.line_ne_nil head.return_notMem
      head.newline_notMem, hhead]
  cases hread : readHead [] pieces with
  | none => rw [handleConnection, bodyStart, hread, Option.map_none]
  | some r =>
    rcases r with ⟨pos, headerBuf, rest⟩
    have hbytes : [] ++ pieces.flatten = head.toHeadBytes.bytes ++ body := hwire
    rcases readHead_spec rfl hbytes hread with ⟨rfl, got, rfl, -⟩
    simp only [handleConnection, bodyStart, hread, Option.map_some, HeadBytes.take_bytes,
      HeadBytes.drop_bytes, hlines, hlen, readBody_zero, splitWhitespace_putLine,
      List.getElem?_cons_zero, List.getElem?_cons_succ, Option.getD_some, answer_put]
    rfl

/-- Without a length, only what arrived together with the end of the head is stored. -/
theorem put_unsized {head : HeadLines}
    (hhead : head.lines = putLine fileId :: headers) (hlen : contentLength headers = 0)
    (hwire : pieces.flatten = head.bytes ++ body)
    (storageDir : Path) (result : SaveResult) (disk : Disk) :
    handleConnection storageDir result disk pieces = (none, disk) ∨
    ∃ got, got <+: body ∧ (∃ chunk ∈ pieces, got.length < chunk.length) ∧
      handleConnection storageDir result disk pieces =
        Prod.map some id (store storageDir result disk fileId got) := by
  rcases handleConnection_put hhead hwire storageDir result disk with
    ⟨-, hclosed⟩ | ⟨got, rest, hbody, hchunk, -, hstored⟩
  · exact .inl hclosed
  · rw [hlen] at hstored
    rw [readBody_zero] at hstored
    exact .inr ⟨got, ⟨_, hbody⟩, hchunk, hstored⟩

/-- With its length, the whole body is stored, in whatever pieces it arrives. -/
theorem put_sized {head : HeadLines} (hhead : head.lines = putLine fileId :: headers)
    (hlen : contentLength headers = body.length) (hshort : head.bytes.length ≤ 64 * 1024)
    (hwire : pieces.flatten = head.bytes ++ body)
    (hne : ∀ p ∈ pieces, p ≠ []) (storageDir : Path) (result : SaveResult) (disk : Disk) :
    handleConnection storageDir result disk pieces =
      Prod.map some id (store storageDir result disk fileId body) := by
  rcases handleConnection_put hhead hwire storageDir result disk with
    ⟨hnone, -⟩ | ⟨got, rest, hbody, -, hsuffix, hstored⟩
  · exact absurd hnone (readHead_ne_none (show head.toHeadBytes.bytes.length ≤ _ from hshort) hwire)
  · rw [hlen, readBody_whole hbody rfl fun p hp => hne p (hsuffix.subset hp)] at hstored
    exact hstored

end FileServer

end HomeTier
