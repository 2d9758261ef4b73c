import HomeTier.File.Server
import HomeTier.Lib.Codec
import HomeTier.Lib.Frame

/-! # File transfer

`send_file` and `receive_file` of `src-tauri/src/file/transfer.rs`, over the
encryption of `crypto/mod.rs`. A file is compressed, encrypted when there is a
password, and uploaded as a stream: `reqwest` does not know the length of such a
body and sends it in chunks without a `content-length` line, which is what
`RequestHeaders` says. The receiver opens what its file server stored.

What is packed is opened again (`openBody_packBody`), and a body sent with its
length would arrive (`received_of_sized`). But `handle_connection` neither
decodes chunks nor reads a body of unknown length. What it stores starts with
the size of the first chunk, if with anything, so no file without a password is
ever opened (`not_delivered_plain`); with a password none is opened when the head
arrives on its own (`not_delivered_bytewise`).

zstd, PBKDF2, AES-256-GCM and SHA-256 come from crates and are parameters
(`TransferCrates`); salt and nonce are inputs.
-/

namespace HomeTier

open Lib

/-- The first byte of a magic number: of a zstd frame, of its older versions or
of a frame to be skipped. -/
def isMagicStart (b : UInt8) : Bool :=
  b == 0xFD || (0x22 ≤ b && b ≤ 0x28) || (0x50 ≤ b && b ≤ 0x5F)

/-- The crates behind a transfer, with what the code relies on. -/
structure TransferCrates where
  /-- zstd at level 3, with the text of an error. -/
  compress : Bytes → Except Str Bytes
  decompress : Bytes → Except Str Bytes
  /-- PBKDF2-HMAC-SHA256: password, salt and iterations give a key of 32 bytes. -/
  pbkdf2 : Bytes → Bytes → Nat → Bytes
  /-- AES-256-GCM under a key and a nonce; the tag ends the ciphertext. -/
  gcmEncrypt : Bytes → Bytes → Bytes → Option Bytes
  gcmDecrypt : Bytes → Bytes → Bytes → Option Bytes
  sha256 : Bytes → Bytes
  compress_inverse : ∀ data, ∃ out, compress data = .ok out ∧ decompress out = .ok data
  /-- Frames start with a magic number, and there is one at least. -/
  decompress_magic : ∀ data out, decompress data = .ok out →
    ∃ b rest, data = b :: rest ∧ isMagicStart b = true
  gcm_inverse : ∀ key nonce data out, gcmEncrypt key nonce data = some out →
    gcmDecrypt key nonce out = some data

open FileServer (SaveResult tryWrite tryWrite_saved)

namespace FileTransfer

def pbkdf2Iterations : Nat := 210000

def saltLen : Nat := 16

def nonceLen : Nat := 12

/-- The random bytes of an encryption. -/
structure Seed where
  salt : Bytes
  nonce : Bytes
  salt_length : salt.length = saltLen
  nonce_length : nonce.length = nonceLen

structure FileInfo where
  id : BitVec 128
  spaceId : BitVec 128
  senderId : BitVec 128
  fileName : Str
  fileSize : Nat
  fileHash : Option Str
  mimeType : Option Str
  isCompressed : Bool
  isPasswordProtected : Bool
  storagePath : Option Str
  createdAt : Str
deriving DecidableEq

section Transfer

variable (C : TransferCrates)

/-! ## Encryption -/

/-- `crypto::sha256_hex` -/
def sha256Hex (data : Bytes) : Str := hexEncode (C.sha256 data)

/-- `crypto::derive_key`. Its key has the right length, so no cipher refuses it. -/
def deriveKey (password : Str) (salt : Bytes) : Bytes :=
  C.pbkdf2 (utf8 password) salt pbkdf2Iterations

/-- `crypto::encrypt` -/
def encrypt (seed : Seed) (data : Bytes) (password : Str) : Except Str Bytes :=
  match C.gcmEncrypt (deriveKey C password seed.salt) seed.nonce data with
  | some ciphertext => .ok (seed.salt ++ seed.nonce ++ ciphertext)
  | none => .error "Encrypt error: aead::Error".toList

/-- `crypto::decrypt` -/
def decrypt (data : Bytes) (password : Str) : Except Str Bytes :=
  if data.length < saltLen + nonceLen then .error "Invalid encrypted data".toList
  else
    let key := deriveKey C password (data.take saltLen)
    match C.gcmDecrypt key ((data.drop saltLen).take nonceLen) (data.drop (saltLen + nonceLen)) with
    | some plaintext => .ok plaintext
    | none => .error "Decrypt error: aead::Error".toList

/-! ## Bodies -/

/-- The body that `send_file` makes of a file. -/
def packBody (seed : Seed) (password : Option Str) (data : Bytes) : Except Str Bytes := do
  let compressed ← (C.compress data).mapError ("Compress error: ".toList ++ ·)
  match password with
  | some pwd => (encrypt C seed compressed pwd).mapError ("Encrypt error: ".toList ++ ·)
  | none => pure compressed

def openPassword (password : Option Str) (data : Bytes) : Except Str Bytes :=
  match password with
  | some pwd => (decrypt C data pwd).mapError ("解密失败: ".toList ++ ·)
  | none => .ok data

def checkHash (expectedHash : Option Str) (data : Bytes) : Except Str Bytes :=
  match expectedHash with
  | some expected =>
    if sha256Hex C data = expected then .ok data
    else .error "文件完整性校验失败 (hash mismatch)".toList
  | none => .ok data

/-- What `receive_file` makes of a stored body. -/
def openBody (password expectedHash : Option Str) (data : Bytes) : Except Str Bytes := do
  let data ← openPassword C password data
  let data ← (C.decompress data).mapError ("解压失败: ".toList ++ ·)
  checkHash C expectedHash data

/-! ## Sending -/

/-- The header lines of a streamed request: there is no length among them. -/
structure RequestHeaders where
  lines : List Str
  line_ne_nil : ∀ l ∈ lines, l ≠ []
  return_notMem : ∀ l ∈ lines, '\r' ∉ l
  newline_notMem : ∀ l ∈ lines, '\n' ∉ l
  unsized : ∀ l ∈ lines, FileServer.isLengthLine l = false

/-- The answer to a request, as status and its text, or the text of an error. -/
abbrev Reply := Except Str (Nat × Str)

/-- The request, its body in chunks of 64 KiB. -/
def requestBody (body : Bytes) : Bytes := chunked (body.toChunks (64 * 1024))

/-- What `send_file` makes of the answer. -/
def settle (info : FileInfo) : Reply × Disk → Except Str FileInfo × Disk
  | (.error e, disk) => (.error ("上传失败: ".toList ++ e), disk)
  | (.ok (status, text), disk) =>
    if 200 ≤ status ∧ status < 300 then (.ok info, disk)
    else (.error ("上传失败: HTTP ".toList ++ text), disk)

@[simp] theorem settle_snd (info : FileInfo) (r : Reply × Disk) : (settle info r).2 = r.2 := by
  rcases r with ⟨e | ⟨status, text⟩, disk⟩
  · rfl
  · rw [settle]
    split <;> rfl

theorem eq_of_settle {info info' : FileInfo} {r : Reply × Disk} {disk : Disk}
    (h : settle info r = (.ok info', disk)) : info' = info := by
  rcases r with ⟨e | ⟨status, text⟩, disk'⟩
  · cases h
  · rw [settle] at h
    split at h
    · cases h
      rfl
    · cases h

/-- `send_file` for the file `source` at `filePath`. `exchange` sends a chunked
body; the disk is that of the node it reaches. The transfer that is registered in
between is found again when the answer has come. -/
def sendFile (spaceId senderId : BitVec 128) (filePath : Path) (source : Option Bytes)
    (password : Option Str) (seed : Seed) (fileId : BitVec 128) (createdAt : Str)
    (exchange : Bytes → Disk → Reply × Disk) (disk : Disk) : Except Str FileInfo × Disk :=
  match filePath.getLast?, source with
  | none, _ => (.error "Invalid file path".toList, disk)
  | some _, none => (.error ("File error: ".toList ++ FileServer.notFound), disk)
  | some fileName, some data =>
    match packBody C seed password data with
    | .error e => (.error e, disk)
    | .ok body =>
      settle
        { id := fileId
          spaceId := spaceId
          senderId := senderId
          fileName := fileName
          fileSize := data.length
          fileHash := some (sha256Hex C data)
          mimeType := none
          isCompressed := true
          isPasswordProtected := password.isSome
          storagePath := none
          createdAt := createdAt }
        (exchange (requestBody body) disk)

/-- What sending leaves on the disk is left by the exchange. -/
theorem sendFile_snd (spaceId senderId : BitVec 128) (filePath : Path) (data : Bytes)
    (password : Option Str) (seed : Seed) (fileId : BitVec 128) (createdAt : Str)
    (exchange : Bytes → Disk → Reply × Disk) (disk : Disk) :
    (sendFile C spaceId senderId filePath (some data) password seed fileId createdAt exchange
      disk).2 = disk ∨
    ∃ body, (sendFile C spaceId senderId filePath (some data) password seed fileId createdAt
      exchange disk).2 = (exchange (requestBody body) disk).2 := by
  unfold sendFile
  cases filePath.getLast? with
  | none => exact .inl rfl
  | some fileName =>
    cases hpack : packBody C seed password data with
    | error e =>
      left
      simp only [hpack]
    | ok body =>
      right
      refine ⟨body, ?_⟩
      simp only [hpack, settle_snd]

variable {password expectedHash : Option Str}

/-- What `send_file` returns describes the file it has sent. -/
theorem sendFile_ok {spaceId senderId : BitVec 128} {filePath : Path} {data : Bytes}
    {seed : Seed} {fileId : BitVec 128} {createdAt : Str}
    {exchange : Bytes → Disk → Reply × Disk} {disk disk' : Disk} {info : FileInfo}
    (h : sendFile C spaceId senderId filePath (some data) password seed fileId createdAt exchange
      disk = (.ok info, disk')) :
    info.id = fileId ∧ filePath.getLast? = some info.fileName ∧ info.fileSize = data.length ∧
      info.fileHash = some (sha256Hex C data) := by
  unfold sendFile at h
  cases hname : filePath.getLast? with
  | none => simp [hname] at h
  | some fileName =>
    cases hpack : packBody C seed password data with
    | error e => simp [hname, hpack] at h
    | ok body =>
      simp only [hname, hpack] at h
      obtain rfl := eq_of_settle h
      exact ⟨rfl, rfl, rfl, rfl⟩

/-! ## Receiving -/

/-- `receive_file`: `created` is what became of the directory of `savePath`. -/
def receiveFile (storageDir : Path) (fileId : BitVec 128) (savePath : Path)
    (password expectedHash : Option Str) (created : Except Str Unit) (result : SaveResult)
    (disk : Disk) : Except Str Unit × Disk :=
  match created with
  | .error e => (.error ("创建目录失败: ".toList ++ e), disk)
  | .ok () =>
    match FileServer.readFile disk storageDir fileId with
    | .error e => (.error e, disk)
    | .ok stored =>
      match openBody C password expectedHash stored with
      | .error e => (.error e, disk)
      | .ok data =>
        let (written, disk) := tryWrite disk savePath data result
        (written.mapError ("保存文件失败: ".toList ++ ·), disk)

theorem exists_stored_of_received {storageDir savePath : Path} {fileId : BitVec 128}
    {created : Except Str Unit} {result : SaveResult}
    {disk : Disk}
    (h : (receiveFile C storageDir fileId savePath password expectedHash created result disk).1 =
      .ok ()) :
    ∃ stored data, disk (FileServer.filePath storageDir fileId) = some stored ∧
      openBody C password expectedHash stored = .ok data := by
  unfold receiveFile FileServer.readFile at h
  cases created with
  | error e => cases h
  | ok u =>
    cases hstored : disk (FileServer.filePath storageDir fileId) with
    | none => simp [hstored] at h
    | some stored =>
      simp only [hstored] at h
      cases hopen : openBody C password expectedHash stored with
      | error e => simp [hopen] at h
      | ok data => exact ⟨stored, data, rfl, hopen⟩

/-! ## What is packed is opened -/

theorem decrypt_encrypt {seed : Seed} {data out : Bytes} {password : Str}
    (h : encrypt C seed data password = .ok out) : decrypt C out password = .ok data := by
  unfold encrypt at h
  cases hgcm : C.gcmEncrypt (deriveKey C password seed.salt) seed.nonce data with
  | none => simp [hgcm] at h
  | some ciphertext =>
    obtain rfl : seed.salt ++ seed.nonce ++ ciphertext = out := by simpa [hgcm] using h
    have hlen : (seed.salt ++ seed.nonce).length = saltLen + nonceLen := by
      rw [List.length_append, seed.salt_length, seed.nonce_length]
    have hshort : ¬ (seed.salt ++ seed.nonce ++ ciphertext).length < saltLen + nonceLen := by
      rw [List.length_append, hlen]
      omega
    have hsalt : (seed.salt ++ seed.nonce ++ ciphertext).take saltLen = seed.salt := by
      rw [List.append_assoc]
      exact List.take_left' seed.salt_length
    have hnonce : ((seed.salt ++ seed.nonce ++ ciphertext).drop saltLen).take nonceLen =
        seed.nonce := by
      rw [List.append_assoc, List.drop_left' seed.salt_length]
      exact List.take_left' seed.nonce_length
    have hcipher : (seed.salt ++ seed.nonce ++ ciphertext).drop (saltLen + nonceLen) =
        ciphertext := List.drop_left' hlen
    simp only [decrypt, if_neg hshort, hsalt, hnonce, hcipher, C.gcm_inverse _ _ _ _ hgcm]

theorem eq_ok_of_mapError {α : Type} {f : Str → Str} {x : Except Str α} {a : α}
    (h : x.mapError f = .ok a) : x = .ok a := by
  cases x with
  | error e => cases h
  | ok b => exact h

theorem openBody_of_decompress {stored frame data : Bytes}
    (hplain : openPassword C password stored = .ok frame)
    (hdecompress : C.decompress frame = .ok data) :
    openBody C password expectedHash stored = checkHash C expectedHash data := by
  rw [openBody, hplain]
  show (C.decompress frame).mapError _ >>= _ = _
  rw [hdecompress]
  rfl

/-- What is opened was a frame behind the password. -/
theorem exists_frame_of_openBody {stored data : Bytes}
    (h : openBody C password expectedHash stored = .ok data) :
    ∃ frame out, openPassword C password stored = .ok frame ∧ C.decompress frame = .ok out := by
  rw [openBody] at h
  cases hplain : openPassword C password stored with
  | error e =>
    rw [hplain] at h
    cases h
  | ok frame =>
    rw [hplain] at h
    cases hdecompress : C.decompress frame with
    | error e =>
      replace h : (C.decompress frame).mapError _ >>= _ = _ := h
      rw [hdecompress] at h
      cases h
    | ok out => exact ⟨frame, out, rfl, hdecompress⟩

/-- The receiver's steps undo the sender's, for every content and password. -/
theorem openBody_packBody {seed : Seed} {data body : Bytes}
    (h : packBody C seed password data = .ok body)
    (hhash : ∀ expected ∈ expectedHash, expected = sha256Hex C data) :
    openBody C password expectedHash body = .ok data := by
  rcases C.compress_inverse data with ⟨compressed, hcompress, hdecompress⟩
  have hcheck : checkHash C expectedHash data = .ok data := by
    cases expectedHash with
    | none => rfl
    | some expected =>
      obtain rfl := hhash expected rfl
      exact if_pos rfl
  cases password with
  | none =>
    have hpack : packBody C seed none data = .ok compressed := by
      rw [packBody, hcompress]
      rfl
    obtain rfl : compressed = body := Except.ok.inj (hpack.symm.trans h)
    rw [openBody_of_decompress C rfl hdecompress, hcheck]
  | some pwd =>
    have hpack : packBody C seed (some pwd) data =
        (encrypt C seed compressed pwd).mapError ("Encrypt error: ".toList ++ ·) := by
      rw [packBody, hcompress]
      rfl
    have hencrypt : encrypt C seed compressed pwd = .ok body := by
      rw [hpack] at h
      exact eq_ok_of_mapError h
    have hplain : openPassword C (some pwd) body = .ok compressed := by
      rw [openPassword, decrypt_encrypt C hencrypt]
      rfl
    rw [openBody_of_decompress C hplain hdecompress, hcheck]

/-- A stored body is received as the file it was packed from. -/
theorem receiveFile_of_stored {seed : Seed}
    {data body : Bytes} (hpack : packBody C seed password data = .ok body)
    (hhash : ∀ expected ∈ expectedHash, expected = sha256Hex C data) {storageDir savePath : Path}
    {fileId : BitVec 128} {disk : Disk}
    (hstored : disk (FileServer.filePath storageDir fileId) = some body) :
    receiveFile C storageDir fileId savePath password expectedHash (.ok ()) .saved disk =
      (.ok (), disk.write savePath data) := by
  have hopen := openBody_packBody C hpack hhash
  simp only [receiveFile, FileServer.readFile, hstored, hopen, tryWrite_saved]
  rfl

/-- Only what starts like a frame is opened without a password. -/
theorem magic_of_openBody {stored data : Bytes}
    (h : openBody C none expectedHash stored = .ok data) :
    ∃ b rest, stored = b :: rest ∧ isMagicStart b = true := by
  rcases exists_frame_of_openBody C h with ⟨frame, out, hplain, hdecompress⟩
  obtain rfl : stored = frame := Except.ok.inj hplain
  exact C.decompress_magic stored out hdecompress

/-- Nothing is opened as no file. -/
theorem openBody_nil_ne (password expectedHash : Option Str) (data : Bytes) :
    openBody C password expectedHash [] ≠ .ok data := by
  intro h
  cases password with
  | none =>
    rcases magic_of_openBody C h with ⟨b, rest, hcons, -⟩
    cases hcons
  | some pwd =>
    rcases exists_frame_of_openBody C h with ⟨frame, out, hplain, -⟩
    cases hplain

end Transfer

/-! ## The connection -/

/-- The head of an upload. -/
def RequestHeaders.head (headers : RequestHeaders) (fileId : BitVec 128) : HeadLines where
  lines := FileServer.putLine fileId :: headers.lines
  lines_ne_nil := List.cons_ne_nil _ _
  line_ne_nil := List.forall_mem_cons.2 ⟨List.cons_ne_nil _ _, headers.line_ne_nil⟩
  return_notMem := List.forall_mem_cons.2 ⟨FileServer.return_notMem_putLine fileId, headers.return_notMem⟩
  newline_notMem := List.forall_mem_cons.2 ⟨FileServer.newline_notMem_putLine fileId, headers.newline_notMem⟩

theorem RequestHeaders.contentLength_lines (headers : RequestHeaders) :
    FileServer.contentLength headers.lines = 0 := by
  have hfold : ∀ (ls : List Str) (n : Nat), (∀ l ∈ ls, FileServer.isLengthLine l = false) →
      ls.foldl (fun n line =>
        if FileServer.isLengthLine line then FileServer.lengthOf line else n) n = n := by
    intro ls
    induction ls with
    | nil => intro n _; rfl
    | cons l ls ih =>
      intro n h
      rw [List.forall_mem_cons] at h
      rw [List.foldl_cons, h.1]
      exact ih n h.2
  exact hfold headers.lines 0 headers.unsized

/-- The header lines of `reqwest`. -/
def plainLines : List Str :=
  ["accept: */*".toList, "accept-encoding: gzip, br".toList, "host: 10.126.126.2:19001".toList,
    "transfer-encoding: chunked".toList]

def plainHeaders : RequestHeaders where
  lines := plainLines
  line_ne_nil := forall_mem_of_all (by decide)
  return_notMem := forall_mem_of_all (by decide)
  newline_notMem := forall_mem_of_all (by decide)
  unsized := forall_mem_of_all (by decide)

/-- The status line of an answer, as the client reads it. -/
def readReply : Option Bytes → Reply
  | none => .error "error sending request".toList
  | some response =>
    let text := ((response.takeWhile (· ≠ 13)).drop 9).map fun b => Char.ofNat b.toNat
    match parseUnsigned 1000 (text.take 3) with
    | some status => .ok (status, text)
    | none => .error "error sending request".toList

theorem readReply_okAnswer :
    readReply (some (utf8 FileServer.okAnswer)) = .ok (200, "200 OK".toList) := by
  decide

theorem takeWhile_line {line : Bytes} (h : 13 ∉ line) (rest : Bytes) :
    (line ++ 13 :: rest).takeWhile (· ≠ 13) = line := by
  have hline : ∀ b ∈ line, decide (b ≠ 13) = true := by
    intro b hb
    exact decide_eq_true fun heq => h (heq ▸ hb)
  rw [List.takeWhile_append_of_pos hline]
  simp

theorem readReply_serverError (e : Str) :
    readReply (some (utf8 (FileServer.serverError e))) =
      .ok (500, "500 Internal Server Error".toList) := by
  have hsplit : "HTTP/1.1 500 Internal Server Error\r\nContent-Length: ".toList =
      "HTTP/1.1 500 Internal Server Error".toList ++ '\r' :: "\nContent-Length: ".toList := by
    decide
  have hform : FileServer.serverError e =
      "HTTP/1.1 500 Internal Server Error".toList ++ '\r' :: "\nContent-Length: ".toList ++
        decimal (utf8 e).length ++ "\r\n\r\n".toList ++ e :=
    congrArg (fun s => s ++ decimal (utf8 e).length ++ "\r\n\r\n".toList ++ e) hsplit
  have hreturn : String.utf8EncodeChar '\r' = [13] := by
    decide
  have htake (rest : Bytes) :
      (utf8 "HTTP/1.1 500 Internal Server Error".toList ++ 13 :: rest).takeWhile (· ≠ 13) =
        utf8 "HTTP/1.1 500 Internal Server Error".toList :=
    takeWhile_line (by decide) rest
  simp only [readReply, hform, List.append_assoc, List.cons_append, utf8_append, utf8_cons,
    hreturn, List.nil_append, htake]
  decide
/-- Send a body to the file server of a node. -/
def exchange (storageDir : Path) (headers : RequestHeaders) (fileId : BitVec 128)
    (arrival : Arrival 4096) (result : SaveResult) (body : Bytes) (disk : Disk) : Reply × Disk :=
  let wire := (headers.head fileId).bytes ++ body
  let (response, disk) := FileServer.handleConnection storageDir result disk (arrival.pieces wire)
  (readReply response, disk)

/-- The file server stores what arrives with the end of the head, and answers. -/
theorem exchange_eq (storageDir : Path) (headers : RequestHeaders) (fileId : BitVec 128)
    (arrival : Arrival 4096) (result : SaveResult) (body : Bytes) (disk : Disk) :
    exchange storageDir headers fileId arrival result body disk =
      match FileServer.bodyStart (arrival.pieces ((headers.head fileId).bytes ++ body)) with
      | none => (readReply none, disk)
      | some got =>
        Prod.map (readReply ∘ some) id (FileServer.store storageDir result disk fileId got) := by
  have hlines : (headers.head fileId).lines = FileServer.putLine fileId :: headers.lines := rfl
  simp only [exchange, FileServer.put_bodyStart hlines headers.contentLength_lines
    (arrival.flatten_pieces ((headers.head fileId).bytes ++ body))]
  cases FileServer.bodyStart (arrival.pieces ((headers.head fileId).bytes ++ body)) <;> rfl

/-- What an exchange leaves on the disk: nothing, or the start of what was sent. -/
theorem exchange_snd (storageDir : Path) (headers : RequestHeaders) (fileId : BitVec 128)
    (arrival : Arrival 4096) (result : SaveResult) (body : Bytes) (disk : Disk) :
    (exchange storageDir headers fileId arrival result body disk).2 = disk ∨
    ∃ got, got <+: body ∧
      (∃ chunk ∈ arrival.pieces ((headers.head fileId).bytes ++ body), got.length < chunk.length) ∧
      (exchange storageDir headers fileId arrival result body disk).2 =
        (tryWrite disk (FileServer.filePath storageDir fileId) got result).2 := by
  have hlines : (headers.head fileId).lines = FileServer.putLine fileId :: headers.lines := rfl
  have hput := FileServer.put_unsized hlines
    headers.contentLength_lines
    (arrival.flatten_pieces ((headers.head fileId).bytes ++ body)) storageDir result disk
  rcases hput with hclosed | ⟨got, hpre, hchunk, hstored⟩
  · left
    simp only [exchange, hclosed]
  · refine .inr ⟨got, hpre, hchunk, ?_⟩
    simp only [exchange, hstored]
    exact FileServer.store_snd storageDir result disk fileId got

/-! ## From file to file -/

/-- One transfer: what the two nodes and the network contribute to it. -/
structure Run where
  spaceId : BitVec 128
  senderId : BitVec 128
  fileId : BitVec 128
  filePath : Path
  seed : Seed
  createdAt : Str
  headers : RequestHeaders
  arrival : Arrival 4096
  /-- The receiver. -/
  storageDir : Path
  savePath : Path
  disk : Disk
  fresh : disk (FileServer.filePath storageDir fileId) = none
  /-- Whether the receiver has the hash of the file. -/
  hashed : Bool

section Run

variable (C : TransferCrates)

/-- The receiver's disk when `content` has been sent. -/
def Run.sent (r : Run) (content : Bytes) (password : Option Str) : Disk :=
  (sendFile C r.spaceId r.senderId r.filePath (some content) password r.seed r.fileId r.createdAt
    (exchange r.storageDir r.headers r.fileId r.arrival .saved) r.disk).2

/-- Send `content`, then receive it. -/
def Run.received (r : Run) (content : Bytes) (password : Option Str) : Except Str Unit × Disk :=
  receiveFile C r.storageDir r.fileId r.savePath password
    (if r.hashed then some (sha256Hex C content) else none) (.ok ()) .saved
    (r.sent C content password)

/-- The receiver gets the file that was sent. -/
def Run.Delivers (r : Run) (content : Bytes) (password : Option Str) : Prop :=
  (r.received C content password).1 = .ok () ∧
    (r.received C content password).2 r.savePath = some content

/-- Every transfer of this content under this password arrives. -/
def Transfers (content : Bytes) (password : Option Str) : Prop :=
  ∀ r : Run, r.Delivers C content password

/-- What the receiver has is nothing, or the start of a chunked body. -/
theorem Run.sent_cases (r : Run) (content : Bytes) (password : Option Str) :
    r.sent C content password (FileServer.filePath r.storageDir r.fileId) = none ∨
    ∃ body got, got <+: requestBody body ∧
      (∃ chunk ∈ r.arrival.pieces ((r.headers.head r.fileId).bytes ++ requestBody body),
        got.length < chunk.length) ∧
      r.sent C content password (FileServer.filePath r.storageDir r.fileId) = some got := by
  rw [Run.sent]
  rcases sendFile_snd C r.spaceId r.senderId r.filePath content password r.seed r.fileId
    r.createdAt (exchange r.storageDir r.headers r.fileId r.arrival .saved) r.disk with
    hunsent | ⟨body, hsent⟩
  · left
    rw [hunsent]
    exact r.fresh
  · rw [hsent]
    rcases exchange_snd r.storageDir r.headers r.fileId r.arrival .saved (requestBody body)
      r.disk with hclosed | ⟨got, hpre, hchunk, hstored⟩
    · left
      rw [hclosed]
      exact r.fresh
    · refine .inr ⟨body, got, hpre, hchunk, ?_⟩
      rw [hstored, tryWrite_saved]
      simp only [Disk.write_self]

/-- A file is only received when what was stored is opened. -/
theorem Run.exists_stored {r : Run} {content : Bytes} {password : Option Str}
    (h : r.Delivers C content password) : ∃ stored expectedHash data,
      r.sent C content password (FileServer.filePath r.storageDir r.fileId) = some stored ∧
        openBody C password expectedHash stored = .ok data := by
  rcases exists_stored_of_received C h.1 with ⟨stored, data, hstored, hopen⟩
  exact ⟨stored, _, data, hstored, hopen⟩

theorem not_magic_of_sizeDigit {b : UInt8} (h : isSizeDigit b = true) :
    isMagicStart b = false := by
  simp only [isSizeDigit, isMagicStart, Bool.or_eq_true, Bool.and_eq_true, decide_eq_true_eq,
    UInt8.le_iff_toNat_le, UInt8.reduceToNat, beq_eq_decide, UInt8.ext_iff] at *
  have hlt := b.toNat_lt
  simp only [Bool.or_eq_false_iff, Bool.and_eq_false_iff, decide_eq_false_iff_not]
  omega

/-- Without a password no file is delivered, however it arrives. -/
theorem not_delivered_plain (r : Run) (content : Bytes) : ¬ r.Delivers C content none := by
  intro h
  rcases Run.exists_stored C h with ⟨stored, expectedHash, data, hstored, hopen⟩
  rcases r.sent_cases C content none with hnone | ⟨body, got, hpre, -, hgot⟩
  · rw [hnone] at hstored
    cases hstored
  · rw [hgot] at hstored
    obtain rfl : got = stored := Option.some.inj hstored
    -- a file starts with a magic number, a chunked body with a digit
    rcases magic_of_openBody C hopen with ⟨b, rest, rfl, hmagic⟩
    rcases exists_cons_chunked (body.toChunks (64 * 1024)) with ⟨d, tail, hchunked, hdigit⟩
    rw [requestBody, hchunked] at hpre
    obtain rfl : b = d := (List.cons_prefix_cons.1 hpre).1
    rw [not_magic_of_sizeDigit hdigit] at hmagic
    cases hmagic

/-- The same transfer, with reads of single bytes. -/
def Run.bytewise (r : Run) : Run := { r with arrival := Lib.bytewise (by decide) }

/-- With any password no file is delivered when the head arrives on its own. -/
theorem not_delivered_bytewise (r : Run) (content : Bytes) (password : Option Str) :
    ¬ r.bytewise.Delivers C content password := by
  intro h
  rcases Run.exists_stored C h with ⟨stored, expectedHash, data, hstored, hopen⟩
  rcases r.bytewise.sent_cases C content password with hnone | ⟨body, got, -, hchunk, hgot⟩
  · rw [hnone] at hstored
    cases hstored
  · rw [hgot] at hstored
    obtain rfl : got = stored := Option.some.inj hstored
    rcases hchunk with ⟨chunk, hmem, hlt⟩
    have hone : chunk.length = 1 := by
      rcases List.mem_map.1 hmem with ⟨b, -, rfl⟩
      rfl
    obtain rfl : got = [] := List.length_eq_zero_iff.1 (by omega)
    exact openBody_nil_ne C password expectedHash data hopen

/-- Had it been sent with its length, the body would arrive and be opened. -/
theorem received_of_sized {seed : Seed} {password expectedHash : Option Str}
    {content body : Bytes} (hpack : packBody C seed password content = .ok body)
    (hhash : ∀ expected ∈ expectedHash, expected = sha256Hex C content) {head : HeadLines}
    {fileId : BitVec 128} {headers : List Str}
    (hhead : head.lines = FileServer.putLine fileId :: headers)
    (hlen : FileServer.contentLength headers = body.length)
    (hshort : head.bytes.length ≤ 64 * 1024) (arrival : Arrival 4096) (storageDir savePath : Path)
    (disk : Disk) :
    (receiveFile C storageDir fileId savePath password expectedHash (.ok ()) .saved
      (FileServer.handleConnection storageDir .saved disk
        (arrival.pieces (head.bytes ++ body))).2).2 savePath = some content := by
  have hput := FileServer.put_sized hhead hlen hshort
    (arrival.flatten_pieces (head.bytes ++ body)) (arrival.piece_ne_nil _) storageDir .saved disk
  have hstored : (FileServer.handleConnection storageDir .saved disk
      (arrival.pieces (head.bytes ++ body))).2 (FileServer.filePath storageDir fileId) =
        some body := by
    simp only [hput, Prod.map_snd, id, FileServer.store_snd, tryWrite_saved, Disk.write_self]
  generalize (FileServer.handleConnection storageDir .saved disk
    (arrival.pieces (head.bytes ++ body))).2 = disk' at hstored
  simp only [receiveFile_of_stored C hpack hhash hstored, Disk.write_self]

/-- A transfer between two nodes of a space. -/
def sampleRun : Run where
  spaceId := 1
  senderId := 2
  fileId := 3
  filePath := ["tmp".toList, "notes.txt".toList]
  seed := ⟨List.replicate 16 1, List.replicate 12 2, rfl, rfl⟩
  createdAt := "2024-05-01T12:00:00+08:00".toList
  headers := plainHeaders
  arrival := Lib.bytewise (by decide)
  storageDir := ["files".toList]
  savePath := ["home".toList, "notes.txt".toList]
  disk := fun _ => none
  fresh := rfl
  hashed := false

/-- No content arrives under any password in every transfer; without a password it
arrives in none, with one in none that brings the head on its own. -/
theorem never_transfers (content : Bytes) (password : Option Str) :
    ¬ Transfers C content password ∧
    (password = none → ∀ r : Run, ¬ r.Delivers C content password) ∧
    ∀ r : Run, ¬ r.bytewise.Delivers C content password := by
  refine ⟨?_, ?_, ?_⟩
  · intro h
    exact not_delivered_bytewise C sampleRun content password (h sampleRun.bytewise)
  · rintro rfl r
    exact not_delivered_plain C r content
  · intro r
    exact not_delivered_bytewise C r content password

end Run

/-- Magic number, no content size and a window of 2 MiB. -/
def rawHead : Bytes := [0x28, 0xB5, 0x2F, 0xFD, 0x00, 0x58]

theorem rawCrates_inverse (data : Bytes) :
    ∃ out, (.ok (rawHead ++ (le32 (8 * data.length + 1)).take 3 ++ data) : Except Str Bytes) =
      .ok out ∧ (if rawHead <+: out ∧ 9 ≤ out.length then .ok (out.drop 9)
        else .error "解压读取失败: incomplete frame".toList : Except Str Bytes) = .ok data := by
  have hhead : (rawHead ++ (le32 (8 * data.length + 1)).take 3).length = 9 := rfl
  have hframe : rawHead <+: rawHead ++ (le32 (8 * data.length + 1)).take 3 ++ data ∧
      9 ≤ (rawHead ++ (le32 (8 * data.length + 1)).take 3 ++ data).length := by
    constructor
    · rw [List.append_assoc]
      exact List.prefix_append _ _
    · rw [List.length_append, hhead]
      exact Nat.le_add_right _ _
  refine ⟨_, rfl, ?_⟩
  rw [if_pos hframe, List.drop_left' hhead]

theorem rawCrates_magic {data out : Bytes}
    (h : (if rawHead <+: data ∧ 9 ≤ data.length then .ok (data.drop 9)
      else .error "解压读取失败: incomplete frame".toList : Except Str Bytes) = .ok out) :
    ∃ b rest, data = b :: rest ∧ isMagicStart b = true := by
  split at h
  · next hframe =>
    rcases hframe.1 with ⟨rest, rfl⟩
    exact ⟨0x28, _, rfl, rfl⟩
  · cases h

/-- zstd for contents that do not shrink and fit one block; the other crates are
replaced by functions that meet what is relied on. -/
def rawCrates : TransferCrates where
  compress data := .ok (rawHead ++ (le32 (8 * data.length + 1)).take 3 ++ data)
  decompress data :=
    if rawHead <+: data ∧ 9 ≤ data.length then .ok (data.drop 9)
    else .error "解压读取失败: incomplete frame".toList
  pbkdf2 password salt _ := password ++ salt
  gcmEncrypt key nonce data := some (data ++ List.replicate 16 0)
  gcmDecrypt key nonce data := some (data.take (data.length - 16))
  sha256 _ := List.replicate 32 0
  compress_inverse data := rawCrates_inverse data
  decompress_magic data out h := rawCrates_magic h
  gcm_inverse key nonce data out h := by
    obtain rfl := Option.some.inj h
    simp

/-- The file `hi` is not received. -/
theorem hi_not_transferred : ¬ Transfers rawCrates [104, 105] none := by
  intro h
  exact not_delivered_plain rawCrates sampleRun [104, 105] (h sampleRun)

end FileTransfer

end HomeTier
