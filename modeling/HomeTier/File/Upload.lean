import HomeTier.File.Transfer

/-! # Server uploads

`send_file_handler` and `receive_file_handler` of `src-tauri/src/server/routes.rs`
with `get_peers_for_file_transfer` of `space/manager.rs`. An upload is written to
a temporary file and, as it is, to the file server of its space; then it is sent
to each peer under the same id, and a row is inserted. The peer list starts with
this node itself, whose own file server then stores what arrives over the
already stored copy.

With peers, the row has the name of the temporary file, and from the local copy
on no error removes that copy. So an upload does what is expected of it exactly
when it is refused or fails before the copy, or when there are no peers and the
row is inserted (`meets_iff`); the rest is coincidence: the requested name is
that of the temporary file, whose id is random.

What the operating system, the network and the database answer is an input.
-/

namespace HomeTier

open Lib

namespace FileUpload

open FileServer (SaveResult tryWrite)
open FileTransfer (FileInfo Seed Reply RequestHeaders)

structure FileRow where
  id : Str
  spaceId : Str
  senderId : Str
  fileName : Str
  fileSize : Nat
  fileHash : Option Str
  mimeType : Option Str
  isCompressed : Bool
  isPasswordProtected : Bool
  storagePath : Option Str
  createdAt : Str
deriving DecidableEq

/-- Disk, file servers and the `files` table of the node. -/
structure Node where
  storageDir : Path
  disk : Disk
  servers : List (BitVec 128)
  rows : List FileRow

/-- Where the other end of a peer's address is. -/
inductive Target where
  /-- Another node, with its answer. -/
  | other (reply : Reply)
  /-- This node; the answer of its file server may be lost. -/
  | self (headers : RequestHeaders) (arrival : Arrival 4096) (result : SaveResult)
    (lost : Option Str)

/-- One `send_file` call. -/
structure Send where
  seed : Seed
  createdAt : Str
  target : Target

/-- What an upload meets. -/
structure UploadIo where
  /-- The virtual addresses of the peers. -/
  peers : Except Str (List (Option Str))
  portBase : UInt16
  fileId : BitVec 128
  createdAt : Str
  tmpWrite : SaveResult
  started : Except Str Unit
  copyWrite : SaveResult
  send : Nat → Send
  tmpRemoved : Bool
  inserted : Except Str Unit

section Handlers

variable (C : TransferCrates)

/-! ## Paths and servers -/

def tmpPath (storageDir : Path) (fileId : BitVec 128) : Path :=
  join storageDir (uuidText fileId ++ ".tmp".toList)

def spaceDir (storageDir : Path) (space : BitVec 128) : Path := join storageDir (uuidText space)

/-- `{storage_dir}/{space}/{file_id}.bin` -/
def binPath (storageDir : Path) (space fileId : BitVec 128) : Path :=
  FileServer.filePath (spaceDir storageDir space) fileId

/-- `std::fs::remove_file`, its error ignored -/
def removeFile (disk : Disk) (path : Path) (removed : Bool) : Disk :=
  if removed then Function.update disk path none else disk

/-- `FileServerRegistry::get_or_start`: a server that runs is used again. -/
def getOrStart (servers : List (BitVec 128)) (space : BitVec 128) (started : Except Str Unit) :
    Except Str (List (BitVec 128)) :=
  if servers.contains space then .ok servers else started.map fun _ => servers ++ [space]

/-- `get_peers_for_file_transfer` -/
def getPeersForFileTransfer (peers : Except Str (List (Option Str))) (base : UInt16)
    (space : BitVec 128) : Except Str (List (Str × UInt16)) :=
  peers.map fun peers =>
    (peers.filterMap id).map fun ip => (ip, base + UInt16.ofNat (space.toNat % 1000))

/-! ## The upload -/

/-- What a request to a peer does to the disk of this node. -/
def Target.exchange (dir : Path) (fileId : BitVec 128) : Target → Bytes → Disk → Reply × Disk
  | .other reply => fun _ disk => (reply, disk)
  | .self headers arrival result lost => fun body disk =>
    let (reply, disk) := FileTransfer.exchange dir headers fileId arrival result body disk
    ((lost.map Except.error).getD reply, disk)

/-- The loop over the peers, the first of them being number `k`. -/
def sendAll (storageDir tmp : Path) (space : BitVec 128) (password : Option Str)
    (send : Nat → Send) (k : Nat) (shared : BitVec 128) (last : Option FileInfo) (disk : Disk) :
    List (Str × UInt16) → Except Str (Option FileInfo) × Disk
  | [] => (.ok last, disk)
  | _ :: peers =>
    match FileTransfer.sendFile C space space tmp (disk tmp) password (send k).seed shared
      (send k).createdAt ((send k).target.exchange (spaceDir storageDir space) shared) disk with
    | (.error e, disk) => (.error e, disk)
    | (.ok info, disk) =>
      sendAll storageDir tmp space password send (k + 1) info.id (some info) disk peers

/-- The file of an upload without peers. -/
def localInfo (space : BitVec 128) (fileName : Str) (password : Option Str) (body : Bytes)
    (io : UploadIo) : FileInfo where
  id := io.fileId
  spaceId := space
  senderId := space
  fileName := fileName
  fileSize := body.length
  fileHash := some (FileTransfer.sha256Hex C body)
  mimeType := none
  isCompressed := false
  isPasswordProtected := password.isSome
  storagePath := none
  createdAt := io.createdAt

/-- Send to all peers, if there are any, and give up the temporary file. -/
def distribute (storageDir : Path) (space : BitVec 128) (fileName : Str) (password : Option Str)
    (body : Bytes) (io : UploadIo) (peers : List (Str × UInt16)) (disk : Disk) :
    Except Str FileInfo × Disk :=
  let tmp := tmpPath storageDir io.fileId
  match peers with
  | [] => (.ok (localInfo C space fileName password body io), removeFile disk tmp io.tmpRemoved)
  | peers =>
    let (sent, disk) :=
      sendAll C storageDir tmp space password io.send 0 io.fileId none disk peers
    let disk := removeFile disk tmp io.tmpRemoved
    match sent with
    | .error e => (.error e, disk)
    | .ok none => (.error "文件发送失败".toList, disk)
    | .ok (some info) => (.ok info, disk)

def fileRow (info : FileInfo) : FileRow where
  id := uuidText info.id
  spaceId := uuidText info.spaceId
  senderId := uuidText info.senderId
  fileName := info.fileName
  fileSize := info.fileSize
  fileHash := info.fileHash
  mimeType := info.mimeType
  isCompressed := info.isCompressed
  isPasswordProtected := info.isPasswordProtected
  storagePath := info.storagePath
  createdAt := info.createdAt

/-- The parameters and the body of a request. -/
structure UploadRequest where
  spaceId : Option Str
  fileName : Option Str
  password : Option Str
  body : Bytes

/-- An answer: status and text of an error, or the file. -/
abbrev Answer (α : Type) := Except (Nat × Str) α

/-- The part of `send_file_handler` behind its checks. -/
def upload (node : Node) (space : BitVec 128) (fileName : Str) (request : UploadRequest)
    (io : UploadIo) (peers : List (Str × UInt16)) : Answer FileInfo × Node :=
  let tmp := tmpPath node.storageDir io.fileId
  match tryWrite node.disk tmp request.body io.tmpWrite with
  | (.error e, disk) => (.error (500, "写入临时文件失败: ".toList ++ e), { node with disk := disk })
  | (.ok (), disk) =>
    match getOrStart node.servers space io.started with
    | .error e => (.error (500, e), { node with disk := removeFile disk tmp io.tmpRemoved })
    | .ok servers =>
      match FileServer.writeFile disk (spaceDir node.storageDir space) io.fileId request.body
        io.copyWrite with
      | (.error e, disk) =>
        (.error (500, e),
          { node with disk := removeFile disk tmp io.tmpRemoved, servers := servers })
      | (.ok (), disk) =>
        match distribute C node.storageDir space fileName request.password request.body io peers
          disk with
        | (.error e, disk) => (.error (500, e), { node with disk := disk, servers := servers })
        | (.ok info, disk) =>
          match io.inserted with
          | .error e => (.error (500, e), { node with disk := disk, servers := servers })
          | .ok () =>
            (.ok info,
              { node with disk := disk, servers := servers, rows := node.rows ++ [fileRow info] })

def sendFileHandler (node : Node) (request : UploadRequest) (io : UploadIo) :
    Answer FileInfo × Node :=
  let spaceId := request.spaceId.getD []
  let fileName := request.fileName.getD []
  if spaceId = [] ∨ fileName = [] then (.error (400, "缺少 space_id/file_name".toList), node)
  else
    match parseUuid spaceId with
    | none => (.error (400, "space_id 格式错误".toList), node)
    | some space =>
      match getPeersForFileTransfer io.peers io.portBase space with
      | .error e => (.error (500, e), node)
      | .ok peers => upload C node space fileName request io peers

/-! ## The download -/

structure Download where
  disposition : Str
  data : Bytes
deriving DecidableEq

/-- `get_file`: the row of a file in a space. -/
def getFile (rows : List FileRow) (spaceId fileId : Str) : Option FileRow :=
  rows.find? fun row => row.spaceId = spaceId ∧ row.id = fileId

/-- `alphanumeric` is `char::is_alphanumeric`. -/
def safeName (alphanumeric : Char → Bool) (fileName : Str) : Str :=
  fileName.map fun c => if alphanumeric c || c == '.' || c == '-' || c == '_' then c else '_'

def receiveFileHandler (alphanumeric : Char → Bool) (node : Node) (spaceId fileId : Str)
    (started : Except Str Unit) : Answer Download × Node :=
  match parseUuid spaceId with
  | none => (.error (400, "space_id 格式错误".toList), node)
  | some space =>
    match parseUuid fileId with
    | none => (.error (400, "file_id 格式错误".toList), node)
    | some file =>
      let fileName := ((getFile node.rows spaceId fileId).map (·.fileName)).getD fileId
      match getOrStart node.servers space started with
      | .error e => (.error (500, e), node)
      | .ok servers =>
        let node := { node with servers := servers }
        match FileServer.readFile node.disk (spaceDir node.storageDir space) file with
        | .error e => (.error (404, e), node)
        | .ok data =>
          (.ok ⟨"attachment; filename=\"".toList ++ safeName alphanumeric fileName ++ ['"'], data⟩,
            node)

/-! ## The two files of an upload -/

/-- A name that starts with a UUID is one more component. -/
theorem join_uuidText (base : Path) (id : BitVec 128) {ext : Str} (hext : '/' ∉ ext) :
    join base (uuidText id ++ ext) = base ++ [uuidText id ++ ext] := by
  have hlong : ∀ s : Str, s.length < 36 → uuidText id ++ ext ≠ s := by
    intro s hs h
    have := congrArg List.length h
    rw [List.length_append, length_uuidText] at this
    omega
  refine join_plain base ?_ (hlong _ (by decide)) (hlong _ (by decide)) (hlong _ (by decide))
  intro h
  rcases List.mem_append.1 h with h | h
  · exact FileServer.slash_notMem_uuidText id h
  · exact hext h

theorem tmpPath_eq (storageDir : Path) (fileId : BitVec 128) :
    tmpPath storageDir fileId = storageDir ++ [uuidText fileId ++ ".tmp".toList] :=
  join_uuidText storageDir fileId (by decide)

theorem binPath_eq (storageDir : Path) (space fileId : BitVec 128) :
    binPath storageDir space fileId =
      storageDir ++ [uuidText space] ++ [uuidText fileId ++ ".bin".toList] := by
  have hdir : spaceDir storageDir space = storageDir ++ [uuidText space] := by
    have hjoin := join_uuidText storageDir space (List.not_mem_nil (a := '/'))
    rw [List.append_nil] at hjoin
    exact hjoin
  rw [binPath, FileServer.filePath, hdir]
  exact join_uuidText _ fileId (by decide)

/-- The stored copy is one directory further down. -/
theorem tmpPath_ne_binPath (storageDir : Path) (fileId space : BitVec 128) :
    tmpPath storageDir fileId ≠ binPath storageDir space fileId := by
  intro h
  rw [tmpPath_eq, binPath_eq] at h
  have := congrArg List.length h
  simp at this

/-- The temporary file is given up, and nothing else. -/
@[simp] theorem removeFile_ne (disk : Disk) {path p : Path} (removed : Bool) (h : p ≠ path) :
    removeFile disk path removed p = disk p := by
  cases removed
  · rfl
  · exact Function.update_of_ne h _ _

theorem removeFile_self (disk : Disk) (path : Path) : removeFile disk path true path = none :=
  Function.update_self _ _ _

/-! ## The loop over the peers -/

/-- Other files are as before, and this one is still there. -/
def Kept (bin : Path) (disk disk' : Disk) : Prop :=
  (∀ p, p ≠ bin → disk' p = disk p) ∧ ((disk bin).isSome → (disk' bin).isSome)

theorem Kept.refl (bin : Path) (disk : Disk) : Kept bin disk disk := ⟨fun _ _ => rfl, id⟩

theorem Kept.trans {bin : Path} {d d' d'' : Disk} (h : Kept bin d d') (h' : Kept bin d' d'') :
    Kept bin d d'' :=
  ⟨fun p hp => (h'.1 p hp).trans (h.1 p hp), fun hd => h'.2 (h.2 hd)⟩

theorem kept_write (bin : Path) (disk : Disk) (content : Bytes) :
    Kept bin disk (disk.write bin content) := by
  constructor
  · intro p hp
    exact Disk.write_ne disk content hp
  · intro _
    rw [Disk.write_self]
    rfl

/-- A request to a peer only touches the stored copy. -/
theorem Target.kept_exchange (t : Target) (dir : Path) (fileId : BitVec 128) (body : Bytes)
    (disk : Disk) :
    Kept (FileServer.filePath dir fileId) disk (t.exchange dir fileId body disk).2 := by
  cases t with
  | other reply => exact Kept.refl _ disk
  | self headers arrival result lost =>
    show Kept _ disk (FileTransfer.exchange dir headers fileId arrival result body disk).2
    rcases FileTransfer.exchange_snd dir headers fileId arrival result body disk with
      hclosed | ⟨got, -, -, hstored⟩
    · rw [hclosed]
      exact Kept.refl _ disk
    · rw [hstored]
      rcases FileServer.tryWrite_snd disk (FileServer.filePath dir fileId) got result with h | ⟨c, h⟩
      · rw [h]
        exact Kept.refl _ disk
      · rw [h]
        exact kept_write _ disk c

/-- The file of a send: it is called like the temporary file. -/
structure Describes (tmp : Path) (fileId : BitVec 128) (body : Bytes) (info : FileInfo) : Prop where
  id : info.id = fileId
  fileName : tmp.getLast? = some info.fileName
  fileSize : info.fileSize = body.length
  fileHash : info.fileHash = some (FileTransfer.sha256Hex C body)

theorem sendAll_spec {storageDir tmp : Path} {space fileId : BitVec 128} {password : Option Str}
    {send : Nat → Send} {body : Bytes} (hne : tmp ≠ binPath storageDir space fileId)
    {peers : List (Str × UInt16)} {k : Nat} {last : Option FileInfo} {disk : Disk}
    (htmp : disk tmp = some body) (hlast : ∀ info ∈ last, Describes C tmp fileId body info) :
    Kept (binPath storageDir space fileId) disk
      (sendAll C storageDir tmp space password send k fileId last disk peers).2 ∧
    ∀ r, (sendAll C storageDir tmp space password send k fileId last disk peers).1 = .ok r →
      (∀ info ∈ r, Describes C tmp fileId body info) ∧ (r = none → last = none ∧ peers = []) := by
  induction peers generalizing k last disk with
  | nil =>
    refine ⟨Kept.refl _ disk, ?_⟩
    intro r hr
    obtain rfl : last = r := Except.ok.inj hr
    exact ⟨hlast, fun h => ⟨h, rfl⟩⟩
  | cons peer peers ih =>
    -- an exchange writes to the copy at most
    have hkept : Kept (binPath storageDir space fileId) disk
        (FileTransfer.sendFile C space space tmp (some body) password (send k).seed fileId
          (send k).createdAt ((send k).target.exchange (spaceDir storageDir space) fileId) disk).2 := by
      rcases FileTransfer.sendFile_snd C space space tmp body password (send k).seed fileId
        (send k).createdAt ((send k).target.exchange (spaceDir storageDir space) fileId) disk with
        h | ⟨wire, h⟩
      · rw [h]
        exact Kept.refl _ disk
      · rw [h]
        exact (send k).target.kept_exchange _ fileId _ disk
    rw [sendAll, htmp]
    rcases hsend : FileTransfer.sendFile C space space tmp (some body) password (send k).seed fileId
      (send k).createdAt ((send k).target.exchange (spaceDir storageDir space) fileId) disk with
      ⟨e | info, disk'⟩
    · rw [hsend] at hkept
      refine ⟨hkept, ?_⟩
      intro r hr
      cases hr
    · rw [hsend] at hkept
      rcases FileTransfer.sendFile_ok C hsend with ⟨hid, hname, hsize, hhash⟩
      have hinfo : Describes C tmp fileId body info := ⟨hid, hname, hsize, hhash⟩
      have htmp' : disk' tmp = some body := (hkept.1 tmp hne).trans htmp
      have hsome : ∀ i ∈ some info, Describes C tmp fileId body i := by
        intro i hi
        obtain rfl := Option.some.inj hi
        exact hinfo
      have hrec := ih (k := k + 1) htmp' hsome
      simp only [hid]
      refine ⟨hkept.trans hrec.1, ?_⟩
      intro r hr
      rcases hrec.2 r hr with ⟨hr', hnone⟩
      refine ⟨hr', fun h => ?_⟩
      cases (hnone h).1

/-! ## Uploads -/

/-- An upload under an id that is new on the node. -/
structure Upload where
  node : Node
  request : UploadRequest
  io : UploadIo
  fresh_tmp : node.disk (tmpPath node.storageDir io.fileId) = none
  fresh_bin : ∀ space, node.disk (binPath node.storageDir space io.fileId) = none
  fresh_row : ∀ row ∈ node.rows, row.id ≠ uuidText io.fileId

/-- Nothing of the upload is on a node. -/
def Upload.Absent (u : Upload) (node : Node) : Prop :=
  node.disk (tmpPath u.node.storageDir u.io.fileId) = none ∧
    (∀ space, node.disk (binPath u.node.storageDir space u.io.fileId) = none) ∧
    ∀ row ∈ node.rows, row.id ≠ uuidText u.io.fileId

/-- The download for the id gives the uploaded bytes. -/
def Upload.Downloads (u : Upload) (node : Node) (id : BitVec 128) : Prop :=
  ∀ alphanumeric started, ∃ d, (receiveFileHandler alphanumeric node
    (u.request.spaceId.getD []) (uuidText id) started).1 = .ok d ∧ d.data = u.request.body

/-- The row of the id has the requested name, and size and hash of the uploaded bytes. -/
def Upload.Recorded (u : Upload) (node : Node) (id : BitVec 128) : Prop :=
  ∃ row ∈ node.rows, row.id = uuidText id ∧ row.fileName = u.request.fileName.getD [] ∧
    row.fileSize = u.request.body.length ∧
    row.fileHash = some (FileTransfer.sha256Hex C u.request.body)

/-- A successful upload can be downloaded and is recorded; a failed one leaves nothing. -/
def Upload.Meets (u : Upload) : Prop :=
  match sendFileHandler C u.node u.request u.io with
  | (.ok info, node) => u.Downloads node info.id ∧ u.Recorded C node info.id
  | (.error _, node) => u.Absent node

/-- The space and the peers of an upload that is not refused. -/
def Upload.accepted (u : Upload) : Option (BitVec 128 × List (Str × UInt16)) :=
  if u.request.spaceId.getD [] = [] ∨ u.request.fileName.getD [] = [] then none
  else
    match parseUuid (u.request.spaceId.getD []) with
    | none => none
    | some space =>
      match getPeersForFileTransfer u.io.peers u.io.portBase space with
      | .error _ => none
      | .ok peers => some (space, peers)

/-- The disk with the temporary file and the local copy. -/
def Upload.copied (u : Upload) (space : BitVec 128) : Disk :=
  (u.node.disk.write (tmpPath u.node.storageDir u.io.fileId) u.request.body).write
    (binPath u.node.storageDir space u.io.fileId) u.request.body

/-- What a send leaves in the place of the stored copy: for another node nothing, for this one
the part of the body that arrives with the head. There is none at all if the send fails. -/
def Send.left (send : Send) (fileId : BitVec 128) (password : Option Str) (body : Bytes) :
    Option (Option Bytes) :=
  match FileTransfer.packBody C send.seed password body with
  | .error _ => none
  | .ok packed =>
    match send.target with
    | .other (.ok (status, _)) => if 200 ≤ status ∧ status < 300 then some none else none
    | .self headers arrival .saved none =>
      (FileServer.bodyStart (arrival.pieces ((headers.head fileId).bytes ++
        FileTransfer.requestBody packed))).map some
    | _ => none

/-- The same of each send of an upload to `n` peers. -/
def Upload.lefts (u : Upload) (n : Nat) : List (Option (Option Bytes)) :=
  (List.range' 0 n).map fun k => (u.io.send k).left C u.io.fileId u.request.password u.request.body

/-- The requested name is that of the temporary file, every peer is reached, and the last time
that this node sends to itself the uploaded bytes arrive with the head. -/
def Upload.Coincides (u : Upload) (peers : List (Str × UInt16)) : Prop :=
  u.request.fileName.getD [] = uuidText u.io.fileId ++ ".tmp".toList ∧
    none ∉ u.lefts C peers.length ∧
    ∀ got ∈ ((u.lefts C peers.length).filterMap Option.join).getLast?, got = u.request.body

/-- The upload is refused, or fails before the local copy without leaving anything, or
is stored for no peers and recorded. -/
def Upload.Smooth (u : Upload) : Prop :=
  match u.accepted with
  | none => True
  | some (space, peers) =>
    match u.io.tmpWrite with
    | .failed _ left => left = none
    | .saved =>
      match getOrStart u.node.servers space u.io.started with
      | .error _ => u.io.tmpRemoved = true
      | .ok _ =>
        match u.io.copyWrite with
        | .failed _ left => left = none ∧ u.io.tmpRemoved = true
        | .saved => u.io.inserted = .ok () ∧ (peers = [] ∨ u.Coincides C peers)

theorem Upload.refused (u : Upload) (h : u.accepted = none) :
    ∃ e, sendFileHandler C u.node u.request u.io = (.error e, u.node) := by
  unfold Upload.accepted at h
  unfold sendFileHandler
  split at h
  · next hempty => exact ⟨_, if_pos hempty⟩
  · next hempty =>
    simp only [if_neg hempty]
    cases hspace : parseUuid (u.request.spaceId.getD []) with
    | none => exact ⟨_, rfl⟩
    | some space =>
      simp only [hspace] at h
      cases hpeers : getPeersForFileTransfer u.io.peers u.io.portBase space with
      | error e => exact ⟨(500, e), by simp only [hpeers]⟩
      | ok peers => simp [hpeers] at h

theorem Upload.handled (u : Upload) {space : BitVec 128} {peers : List (Str × UInt16)}
    (h : u.accepted = some (space, peers)) :
    parseUuid (u.request.spaceId.getD []) = some space ∧
      sendFileHandler C u.node u.request u.io =
        upload C u.node space (u.request.fileName.getD []) u.request u.io peers := by
  unfold Upload.accepted at h
  unfold sendFileHandler
  split at h
  · cases h
  · next hempty =>
    simp only [if_neg hempty]
    cases hspace : parseUuid (u.request.spaceId.getD []) with
    | none => simp [hspace] at h
    | some space' =>
      simp only [hspace] at h
      cases hpeers : getPeersForFileTransfer u.io.peers u.io.portBase space' with
      | error e => simp [hpeers] at h
      | ok peers' =>
        simp only [hpeers, Option.some.injEq, Prod.mk.injEq] at h
        rcases h with ⟨rfl, rfl⟩
        exact ⟨rfl, by simp only [hpeers]⟩

/-- Until the local copy, only the temporary file is touched. -/
theorem Upload.absent_of_tmp (u : Upload) {disk : Disk} (servers : List (BitVec 128))
    (hother : ∀ p, p ≠ tmpPath u.node.storageDir u.io.fileId → disk p = u.node.disk p) :
    u.Absent { u.node with disk := disk, servers := servers } ↔
      disk (tmpPath u.node.storageDir u.io.fileId) = none := by
  constructor
  · exact fun h => h.1
  · intro htmp
    refine ⟨htmp, fun space => ?_, u.fresh_row⟩
    rw [← u.fresh_bin space]
    exact hother _ (tmpPath_ne_binPath _ _ _).symm

/-- The stored copy shows that an upload has been there. -/
theorem Upload.not_absent {u : Upload} {node : Node} {space : BitVec 128}
    (h : (node.disk (binPath u.node.storageDir space u.io.fileId)).isSome) : ¬ u.Absent node := by
  intro habsent
  rw [habsent.2.1 space] at h
  cases h

theorem contains_of_getOrStart {servers servers' : List (BitVec 128)} {space : BitVec 128}
    {started : Except Str Unit} (h : getOrStart servers space started = .ok servers') :
    servers'.contains space = true := by
  unfold getOrStart at h
  split at h
  · next hcontains =>
    obtain rfl := Except.ok.inj h
    exact hcontains
  · cases started with
    | error e => cases h
    | ok u =>
      obtain rfl : servers ++ [space] = servers' := Except.ok.inj h
      simp

/-- With the server of the space running, the download is what is stored. -/
theorem Upload.downloads_iff (u : Upload) {node : Node} {space id : BitVec 128}
    (hspace : parseUuid (u.request.spaceId.getD []) = some space)
    (hserver : node.servers.contains space = true) :
    u.Downloads node id ↔
      node.disk (binPath node.storageDir space id) = some u.request.body := by
  have hrun : ∀ started, getOrStart node.servers space started = .ok node.servers :=
    fun _ => if_pos hserver
  unfold Upload.Downloads receiveFileHandler
  simp only [hspace, parseUuid_uuidText, hrun, FileServer.readFile]
  cases hdisk : node.disk (binPath node.storageDir space id) with
  | none =>
    rw [binPath] at hdisk
    simp [hdisk]
  | some data =>
    rw [binPath] at hdisk
    simp [hdisk]

/-- The row of the upload is the one that was inserted. -/
theorem Upload.recorded_iff (u : Upload) {node : Node} {info : FileInfo}
    (hrows : node.rows = u.node.rows ++ [fileRow info]) (hid : info.id = u.io.fileId)
    (hsize : info.fileSize = u.request.body.length)
    (hhash : info.fileHash = some (FileTransfer.sha256Hex C u.request.body)) :
    u.Recorded C node info.id ↔ info.fileName = u.request.fileName.getD [] := by
  constructor
  · rintro ⟨row, hrow, hrowId, hname, -, -⟩
    rw [hrows, List.mem_append, List.mem_singleton] at hrow
    rcases hrow with hrow | rfl
    · rw [hid] at hrowId
      exact absurd hrowId (u.fresh_row row hrow)
    · exact hname
  · intro hname
    exact ⟨fileRow info, by simp [hrows], rfl, hname, hsize, hhash⟩

/-! ## The peers -/

theorem Upload.copied_bin (u : Upload) (space : BitVec 128) :
    u.copied space (binPath u.node.storageDir space u.io.fileId) = some u.request.body := by
  simp only [Upload.copied, Disk.write_self]

theorem Upload.copied_tmp (u : Upload) (space : BitVec 128) :
    u.copied space (tmpPath u.node.storageDir u.io.fileId) = some u.request.body := by
  rw [Upload.copied, Disk.write_ne _ _ (tmpPath_ne_binPath _ _ _), Disk.write_self]

theorem getLast?_tmpPath (storageDir : Path) (fileId : BitVec 128) :
    (tmpPath storageDir fileId).getLast? = some (uuidText fileId ++ ".tmp".toList) := by
  rw [tmpPath_eq, List.getLast?_concat]

/-! ## What the sends leave -/

/-- A send to a peer succeeds as `Send.left` says, and leaves what it says. -/
theorem Send.sendFile_left (send : Send) (space fileId : BitVec 128) {tmp : Path}
    (hname : tmp.getLast?.isSome) (password : Option Str) (body : Bytes) (dir : Path) (disk : Disk) :
    match send.left C fileId password body with
    | none => ∃ e disk', FileTransfer.sendFile C space space tmp (some body) password send.seed fileId
        send.createdAt (send.target.exchange dir fileId) disk = (.error e, disk')
    | some got => ∃ info, info.id = fileId ∧
        FileTransfer.sendFile C space space tmp (some body) password send.seed fileId
          send.createdAt (send.target.exchange dir fileId) disk =
            (.ok info, (got.map (disk.write (FileServer.filePath dir fileId))).getD disk) := by
  rcases Option.isSome_iff_exists.1 hname with ⟨fileName, hname⟩
  unfold Send.left
  simp only [FileTransfer.sendFile, hname]
  cases hpack : FileTransfer.packBody C send.seed password body with
  | error e => exact ⟨_, _, rfl⟩
  | ok packed =>
    simp only []
    rcases send.target with ⟨e | ⟨status, text⟩⟩ | ⟨headers, arrival, result, lost⟩
    · -- the request to another node fails
      exact ⟨_, _, rfl⟩
    · simp only [Target.exchange, FileTransfer.settle]
      by_cases hstatus : 200 ≤ status ∧ status < 300
      · simp only [if_pos hstatus]
        exact ⟨_, rfl, rfl⟩
      · simp only [if_neg hstatus]
        exact ⟨_, _, rfl⟩
    · -- this node, whose file server answers what becomes of the first part of the body
      cases hstart : FileServer.bodyStart (arrival.pieces ((headers.head fileId).bytes ++
          FileTransfer.requestBody packed)) with
      | none =>
        simp only [Target.exchange, FileTransfer.exchange_eq, hstart]
        cases lost with
        | none =>
          cases result with
          | saved =>
            simp only [hstart, Option.map_none]
            exact ⟨_, _, rfl⟩
          | failed e left => exact ⟨_, _, rfl⟩
        | some e => cases result <;> exact ⟨_, _, rfl⟩
      | some got =>
        cases lost with
        | some e =>
          simp only [Target.exchange]
          cases result <;> exact ⟨_, _, rfl⟩
        | none =>
          simp only [Target.exchange, FileTransfer.exchange_eq, hstart]
          cases result with
          | saved =>
            simp only [FileServer.store, FileServer.tryWrite_saved, Prod.map, Function.comp_apply,
              FileTransfer.readReply_okAnswer, hstart, Option.map_some]
            exact ⟨_, rfl, rfl⟩
          | failed e left =>
            have hfailed : ∃ disk', FileServer.store dir (.failed e left) disk fileId got =
                (utf8 (FileServer.serverError e), disk') := by
              cases left <;> exact ⟨_, rfl⟩
            rcases hfailed with ⟨disk', hfailed⟩
            simp only [hfailed, Prod.map, Function.comp_apply, FileTransfer.readReply_serverError]
            exact ⟨_, _, rfl⟩

/-- The sends from number `k` on: if one of them fails, so does the loop, and else the last part
that this node stored of what it sent itself is in the place of the copy. -/
theorem sendAll_left {storageDir tmp : Path} {space fileId : BitVec 128} (password : Option Str)
    (send : Nat → Send) (peers : List (Str × UInt16)) (k : Nat) (last : Option FileInfo)
    {body : Bytes} (hne : tmp ≠ binPath storageDir space fileId) (hname : tmp.getLast?.isSome)
    {disk : Disk} {c : Bytes} (htmp : disk tmp = some body)
    (hbin : disk (binPath storageDir space fileId) = some c) :
    let lefts := (List.range' k peers.length).map fun k => (send k).left C fileId password body
    (none ∈ lefts → ∃ e disk',
      sendAll C storageDir tmp space password send k fileId last disk peers = (.error e, disk')) ∧
    (none ∉ lefts → ∃ last' disk',
      sendAll C storageDir tmp space password send k fileId last disk peers = (.ok last', disk') ∧
        disk' (binPath storageDir space fileId) =
          some ((lefts.filterMap Option.join).getLast?.getD c)) := by
  induction peers generalizing k last disk c with
  | nil => exact ⟨fun h => absurd h List.not_mem_nil, fun _ => ⟨_, _, rfl, hbin⟩⟩
  | cons peer peers ih =>
    intro lefts
    -- the first peer, then the rest with its own draws
    have hlefts : lefts = (send k).left C fileId password body ::
        (List.range' (k + 1) peers.length).map fun k => (send k).left C fileId password body := by
      simp only [lefts, List.length_cons, List.range'_succ, List.map_cons]
    have hsend := (send k).sendFile_left C space fileId hname password body
      (spaceDir storageDir space) disk
    rw [hlefts, sendAll, htmp]
    cases hleft : (send k).left C fileId password body with
    | none =>
      rw [hleft] at hsend
      rcases hsend with ⟨e, disk', hsend⟩
      rw [hsend]
      exact ⟨fun _ => ⟨_, _, rfl⟩, fun h => absurd List.mem_cons_self h⟩
    | some got =>
      rw [hleft] at hsend
      rcases hsend with ⟨info, hid, hsend⟩
      rw [hsend]
      simp only [hid]
      -- what a send leaves is in the copy only, so the next one reads the same file
      have htmp' : (got.map (disk.write (binPath storageDir space fileId))).getD disk tmp =
          some body := by
        cases got with
        | none => exact htmp
        | some got => simp only [Option.map_some, Option.getD_some, Disk.write_ne _ _ hne, htmp]
      have hbin' : (got.map (disk.write (binPath storageDir space fileId))).getD disk
          (binPath storageDir space fileId) = some (got.getD c) := by
        cases got with
        | none => exact hbin
        | some got => simp only [Option.map_some, Option.getD_some, Disk.write_self]
      have hrest := ih (k + 1) (some info) htmp' hbin'
      refine ⟨fun h => hrest.1 ?_, fun h => ?_⟩
      · rcases List.mem_cons.1 h with h | h
        · cases h
        · exact h
      · rcases hrest.2 fun h' => h (List.mem_cons_of_mem _ h') with ⟨last', disk', hsends, hstored⟩
        refine ⟨last', disk', hsends, hstored.trans ?_⟩
        -- the last that was left is the last of the rest, if there is one
        cases got with
        | none => rfl
        | some got => simp [List.getLast?_cons]

/-- What the upload has of itself when the local copy is there and the peers are served. -/
theorem Upload.distribute_spec (u : Upload) (space : BitVec 128) (peers : List (Str × UInt16))
    {result : Except Str FileInfo} {disk : Disk}
    (h : distribute C u.node.storageDir space (u.request.fileName.getD []) u.request.password
      u.request.body u.io peers (u.copied space) = (result, disk)) :
    (disk (binPath u.node.storageDir space u.io.fileId)).isSome ∧
    (result.isOk = false → ¬ (peers = [] ∨ u.Coincides C peers)) ∧
    ∀ info, result = .ok info → info.id = u.io.fileId ∧
      info.fileSize = u.request.body.length ∧
      info.fileHash = some (FileTransfer.sha256Hex C u.request.body) ∧
      ((disk (binPath u.node.storageDir space u.io.fileId) = some u.request.body ∧
        info.fileName = u.request.fileName.getD []) ↔
        peers = [] ∨ u.Coincides C peers) := by
  have hne := tmpPath_ne_binPath u.node.storageDir u.io.fileId space
  cases peers with
  | nil =>
    obtain ⟨rfl, rfl⟩ := Prod.mk.inj h
    have hbin : removeFile (u.copied space) (tmpPath u.node.storageDir u.io.fileId) u.io.tmpRemoved
        (binPath u.node.storageDir space u.io.fileId) = some u.request.body := by
      rw [removeFile_ne _ _ hne.symm, u.copied_bin]
    refine ⟨by rw [hbin]; rfl, by rintro ⟨⟩, ?_⟩
    intro info hinfo
    obtain rfl := Except.ok.inj hinfo
    exact ⟨rfl, rfl, rfl, ⟨fun _ => .inl rfl, fun _ => ⟨hbin, rfl⟩⟩⟩
  | cons peer peers =>
    have hlast : ∀ info ∈ (none : Option FileInfo),
        Describes C (tmpPath u.node.storageDir u.io.fileId) u.io.fileId u.request.body info := by
      intro info hinfo
      cases hinfo
    have hspec := @sendAll_spec C u.node.storageDir (tmpPath u.node.storageDir u.io.fileId) space
      u.io.fileId u.request.password u.io.send u.request.body hne (peer :: peers) 0 none
      (u.copied space) (u.copied_tmp space) hlast
    rcases hsend : sendAll C u.node.storageDir (tmpPath u.node.storageDir u.io.fileId) space
      u.request.password u.io.send 0 u.io.fileId none (u.copied space) (peer :: peers) with
      ⟨sent, disk'⟩
    rw [hsend] at hspec
    rcases hspec with ⟨hkept, hsent⟩
    have hbin : removeFile disk' (tmpPath u.node.storageDir u.io.fileId) u.io.tmpRemoved
        (binPath u.node.storageDir space u.io.fileId) =
          disk' (binPath u.node.storageDir space u.io.fileId) := removeFile_ne _ _ hne.symm
    have hsome : (disk' (binPath u.node.storageDir space u.io.fileId)).isSome :=
      hkept.2 (by rw [u.copied_bin]; rfl)
    -- a coincidence is about what this loop has returned
    have hcoincides : u.Coincides C (peer :: peers) ↔
        u.request.fileName.getD [] = uuidText u.io.fileId ++ ".tmp".toList ∧
          sent.isOk = true ∧
          disk' (binPath u.node.storageDir space u.io.fileId) = some u.request.body := by
      have hlefts := sendAll_left C u.request.password u.io.send (peer :: peers) 0 none hne
        (by rw [getLast?_tmpPath]; rfl) (u.copied_tmp space) (u.copied_bin space)
      rw [hsend] at hlefts
      rcases hlefts with ⟨hfails, hdelivers⟩
      refine and_congr_right fun _ => ?_
      by_cases hall : none ∈ u.lefts C (peer :: peers).length
      · -- a send fails
        rcases hfails hall with ⟨e, disk₂, heq⟩
        obtain ⟨rfl, rfl⟩ := Prod.mk.inj heq
        exact iff_of_false (fun h => h.1 hall) fun h => by cases h.1
      · rcases hdelivers hall with ⟨last, disk₂, heq, hstored⟩
        obtain ⟨rfl, rfl⟩ := Prod.mk.inj heq
        rw [hstored]
        show _ ∧ (∀ got ∈ ((u.lefts C (peer :: peers).length).filterMap Option.join).getLast?,
          got = u.request.body) ↔ _ ∧
            some (((u.lefts C (peer :: peers).length).filterMap Option.join).getLast?.getD _) = _
        cases ((u.lefts C (peer :: peers).length).filterMap Option.join).getLast? with
        | none => exact iff_of_true ⟨hall, fun got hgot => by cases hgot⟩ ⟨rfl, rfl⟩
        | some got =>
          constructor
          · exact fun h => ⟨rfl, congrArg some (h.2 got rfl)⟩
          · rintro ⟨-, hsame⟩
            refine ⟨hall, fun got' hgot => ?_⟩
            obtain rfl := Option.some.inj hgot
            exact Option.some.inj hsame
    simp only [distribute, hsend] at h
    rcases sent with e | - | info
    · obtain ⟨rfl, rfl⟩ := Prod.mk.inj h
      refine ⟨by rw [hbin]; exact hsome, ?_, fun info hinfo => by cases hinfo⟩
      rintro - (hnil | hco)
      · cases hnil
      · cases (hcoincides.1 hco).2.1
    · cases ((hsent none rfl).2 rfl).2
    · obtain ⟨rfl, rfl⟩ := Prod.mk.inj h
      refine ⟨by rw [hbin]; exact hsome, (by rintro ⟨⟩), ?_⟩
      intro info' hinfo
      obtain rfl := Except.ok.inj hinfo
      have hdescribes := (hsent (some info) rfl).1 info rfl
      have hname : info.fileName = uuidText u.io.fileId ++ ".tmp".toList := by
        have := hdescribes.fileName
        rw [getLast?_tmpPath, Option.some.injEq] at this
        exact this.symm
      refine ⟨hdescribes.id, hdescribes.fileSize, hdescribes.fileHash, ?_⟩
      rw [hbin, hname, hcoincides]
      constructor
      · rintro ⟨hbody, heq⟩
        exact .inr ⟨heq.symm, rfl, hbody⟩
      · rintro (hnil | ⟨heq, -, hbody⟩)
        · cases hnil
        · exact ⟨hbody, heq.symm⟩

/-! ## When an upload does what is expected -/

theorem removeFile_write_iff (disk : Disk) (path : Path) (content : Bytes) (removed : Bool) :
    removeFile (disk.write path content) path removed path = none ↔ removed = true := by
  cases removed with
  | false =>
    rw [removeFile, if_neg Bool.false_ne_true, Disk.write_self]
    simp
  | true => simp only [removeFile_self]

/-- Before the local copy, a failed upload is absent when the temporary file is removed. -/
theorem Upload.absent_removed_iff (u : Upload) (servers : List (BitVec 128)) :
    u.Absent { u.node with
      disk := removeFile (u.node.disk.write (tmpPath u.node.storageDir u.io.fileId) u.request.body)
        (tmpPath u.node.storageDir u.io.fileId) u.io.tmpRemoved
      servers := servers } ↔ u.io.tmpRemoved = true := by
  rw [u.absent_of_tmp, removeFile_write_iff]
  intro p hp
  rw [removeFile_ne _ _ hp, Disk.write_ne _ _ hp]

/-- From the local copy on, an upload is expected to be distributed and recorded. -/
theorem Upload.meets_copied (u : Upload) {space : BitVec 128} {peers : List (Str × UInt16)}
    {servers : List (BitVec 128)} (hspace : parseUuid (u.request.spaceId.getD []) = some space)
    (hservers : getOrStart u.node.servers space u.io.started = .ok servers)
    (htmp : u.io.tmpWrite = .saved) (hcopy : u.io.copyWrite = .saved) :
    (match upload C u.node space (u.request.fileName.getD []) u.request u.io peers with
      | (.ok info, node) => u.Downloads node info.id ∧ u.Recorded C node info.id
      | (.error _, node) => u.Absent node) ↔
    u.io.inserted = .ok () ∧ (peers = [] ∨ u.Coincides C peers) := by
  have hwrite : FileServer.writeFile
      (u.node.disk.write (tmpPath u.node.storageDir u.io.fileId) u.request.body)
      (spaceDir u.node.storageDir space) u.io.fileId u.request.body .saved =
        (.ok (), u.copied space) := rfl
  rcases hdistribute : distribute C u.node.storageDir space (u.request.fileName.getD [])
    u.request.password u.request.body u.io peers (u.copied space) with ⟨result, disk⟩
  rcases u.distribute_spec C space peers hdistribute with ⟨hsome, herror, hok⟩
  simp only [upload, htmp, FileServer.tryWrite_saved, hservers, hcopy, hwrite, hdistribute]
  cases result with
  | error e =>
    constructor
    · intro habsent
      exact absurd habsent (Upload.not_absent hsome)
    · intro h
      exact absurd h.2 (herror rfl)
  | ok info =>
    rcases hok info rfl with ⟨hid, hsize, hhash, hiff⟩
    cases hinserted : u.io.inserted with
    | error e =>
      constructor
      · intro habsent
        exact absurd habsent (Upload.not_absent hsome)
      · intro h
        cases h.1
    | ok done =>
      show u.Downloads _ _ ∧ u.Recorded C _ _ ↔ _
      rw [u.downloads_iff hspace (contains_of_getOrStart hservers),
        u.recorded_iff C rfl hid hsize hhash, hid, hiff]
      exact ⟨fun h => ⟨rfl, h⟩, fun h => h.2⟩

/-- An upload of `notes.txt` with one member online, who takes the file. -/
def notesUpload : Upload where
  node := ⟨["files".toList], fun _ => none, [], []⟩
  request := ⟨some (uuidText 1), some "notes.txt".toList, none, [104, 105]⟩
  io :=
    { peers := .ok [some "10.126.126.2".toList]
      portBase := 19000
      fileId := 3
      createdAt := "2024-05-01T12:00:00+08:00".toList
      tmpWrite := .saved
      started := .ok ()
      copyWrite := .saved
      send := fun _ => ⟨FileTransfer.sampleRun.seed, "2024-05-01T12:00:00+08:00".toList,
        .other (.ok (200, "200 OK".toList))⟩
      tmpRemoved := true
      inserted := .ok () }
  fresh_tmp := rfl
  fresh_bin := fun _ => rfl
  fresh_row := by
    intro row hrow
    cases hrow

theorem notesUpload_accepted :
    notesUpload.accepted = some (1, [("10.126.126.2".toList, 19001)]) := by
  have hspace : parseUuid (notesUpload.request.spaceId.getD []) = some 1 := parseUuid_uuidText 1
  have hne : notesUpload.request.spaceId.getD [] ≠ [] := by
    intro h
    have := congrArg List.length h
    simp [notesUpload] at this
  have hname : notesUpload.request.fileName.getD [] ≠ [] := List.cons_ne_nil _ _
  rw [Upload.accepted, if_neg (not_or.2 ⟨hne, hname⟩), hspace]
  rfl

/-- Its row has another name. -/
theorem notesUpload_fails : ¬ notesUpload.Meets C := by
  rcases notesUpload.handled C notesUpload_accepted with ⟨hspace, hhandled⟩
  intro h
  unfold Upload.Meets at h
  rw [hhandled] at h
  rcases (notesUpload.meets_copied C hspace rfl rfl rfl).1 h with ⟨-, hnil | ⟨hname, -⟩⟩
  · cases hnil
  · have hlen := congrArg List.length hname
    simp [notesUpload] at hlen

/-- An upload does what is expected of it exactly if it is refused, fails before the local copy
without leaving anything, or is stored for no peers and recorded, coincidences apart. -/
theorem meets_iff (u : Upload) : u.Meets C ↔ u.Smooth C := by
  unfold Upload.Smooth
  cases haccepted : u.accepted with
  | none =>
    -- refused: nothing has been written
    rcases u.refused C haccepted with ⟨e, hrefused⟩
    unfold Upload.Meets
    rw [hrefused]
    exact ⟨fun _ => trivial, fun _ => ⟨u.fresh_tmp, u.fresh_bin, u.fresh_row⟩⟩
  | some target =>
    rcases target with ⟨space, peers⟩
    rcases u.handled C haccepted with ⟨hspace, hhandled⟩
    unfold Upload.Meets
    rw [hhandled]
    simp only []
    cases htmp : u.io.tmpWrite with
    | failed e left =>
      cases left with
      | none =>
        simp only [upload, htmp, tryWrite]
        exact ⟨fun _ => trivial, fun _ => ⟨u.fresh_tmp, u.fresh_bin, u.fresh_row⟩⟩
      | some left =>
        simp only [upload, htmp, tryWrite]
        -- a part of the temporary file is left, and nothing takes it away
        rw [u.absent_of_tmp u.node.servers, Disk.write_self]
        intro p hp
        exact Disk.write_ne _ left hp
    | saved =>
      cases hservers : getOrStart u.node.servers space u.io.started with
      | error e =>
        simp only [upload, htmp, FileServer.tryWrite_saved, hservers]
        -- no server: all turns on the removal of the temporary file
        exact u.absent_removed_iff u.node.servers
      | ok servers =>
        cases hcopy : u.io.copyWrite with
        | saved => exact u.meets_copied C hspace hservers htmp hcopy
        | failed e left =>
          cases left with
          | none =>
            simp only [upload, htmp, hservers, hcopy, tryWrite, FileServer.writeFile_failed,
              Option.map_none, Option.getD_none, true_and]
            exact u.absent_removed_iff servers
          | some left =>
            simp only [upload, htmp, hservers, hcopy, tryWrite, FileServer.writeFile_failed,
              Option.map_some, Option.getD_some]
            -- a part of the copy is left, whatever the removal does
            have hsome : (removeFile ((u.node.disk.write (tmpPath u.node.storageDir u.io.fileId)
                u.request.body).write (binPath u.node.storageDir space u.io.fileId) left)
                (tmpPath u.node.storageDir u.io.fileId) u.io.tmpRemoved
                (binPath u.node.storageDir space u.io.fileId)).isSome := by
              rw [removeFile_ne _ _ (tmpPath_ne_binPath _ _ _).symm, Disk.write_self]
              rfl
            constructor
            · intro habsent
              exact absurd habsent (Upload.not_absent hsome)
            · intro h
              cases h.1

end Handlers

/-- An upload to a space with a member online is not recorded under its name. -/
theorem notes_not_recorded : ¬ notesUpload.Meets FileTransfer.rawCrates :=
  notesUpload_fails FileTransfer.rawCrates

end FileUpload

end HomeTier
