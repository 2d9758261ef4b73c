import HomeTier.File.Server

/-! # Uploads with a length

What `handle_connection` of `src-tauri/src/file/server.rs` makes of a PUT whose
head gives a length. The body is read on until it has the length or the stream
ends, and what there is then is stored and answered with 200:

* a body that breaks off is stored as far as it came;
* a body that goes on is stored with what the last read brought along.

So a PUT is answered as it should be exactly if the body has its length, or if
there is no 200 for another reason (`storesBody_iff`).
-/

namespace HomeTier

open Lib

namespace FileServer

/-! ## Requests -/

/-- The text behind the name of a length line. -/
def lengthText (line : Str) : Str := line.drop "content-length:".toList.length

/-- A PUT: the head up to the first blank line, and its length lines, which agree. -/
structure PutRequest extends HeadBytes where
  requestLine : Str
  headers : List Str
  lines_text : lines (fromUtf8Lossy text) = requestLine :: headers
  method_put : (splitWhitespace requestLine)[0]? = some "PUT".toList
  length : Nat
  sized : ∃ line ∈ headers, isLengthLine line = true
  length_agrees : ∀ line ∈ headers, isLengthLine line = true →
    parseDigits (trim (lengthText line)) = some length

/-- The file that a path names. -/
def pathFileId (path : Str) : Option (BitVec 128) :=
  if filesPrefix <+: path then parseUuid (trimStartText filesPrefix path) else none

namespace PutRequest

variable (r : PutRequest)

def path : Str := (splitWhitespace r.requestLine)[1]?.getD ['/']

def fileId : Option (BitVec 128) := pathFileId r.path

/-- A request as it arrives: the pieces that reads return, of which none is empty
or longer than the buffer. Of the request there may be less than the head. -/
structure Arrives (pieces : List Bytes) : Prop where
  ne_nil : ∀ p ∈ pieces, p ≠ []
  length_le : ∀ p ∈ pieces, p.length ≤ 16384
  head : r.bytes <+: pieces.flatten ∨ pieces.flatten <+: r.bytes

/-- A status line with 200. -/
def answered : Bytes := utf8 "HTTP/1.1 200".toList

/-- A PUT that is answered with 200 came with the body it says, and that is stored. -/
def StoresBody (storageDir : Path) (result : SaveResult) (disk : Disk) (pieces : List Bytes) :
    Prop :=
  ∀ response disk', handleConnection storageDir result disk pieces = (some response, disk') →
    answered <+: response →
      ∃ data fileId, pieces.flatten = r.bytes ++ data ∧ data.length = r.length ∧
        r.fileId = some fileId ∧ disk' (filePath storageDir fileId) = some data

/-- The blank line comes within 64 KiB, as the reads see it. -/
def HeadInTime (pieces : List Bytes) : Prop :=
  ∀ k, (pieces.take k).flatten.length ≤ 64 * 1024 ∨ r.bytes.length ≤ (pieces.take k).flatten.length

/-- The body has the length of the request, unless nothing is stored anyway. -/
def BodyFits (result : SaveResult) (pieces : List Bytes) : Prop :=
  ∀ data, pieces.flatten = r.bytes ++ data → r.HeadInTime pieces → r.fileId.isSome = true →
    result = .saved → data.length = r.length ∧ r.length < 2 ^ 64

end PutRequest

/-! ## The length -/

theorem notMem_of_parseDigits {s : Str} {n : Nat} (h : parseDigits (trim s) = some n) :
    ':' ∉ s := by
  intro hmem
  rcases List.append_of_mem hmem with ⟨a, b, rfl⟩
  rw [trim_append_cons (by decide)] at h
  rw [parseDigits] at h
  split at h
  · rename_i hdigits
    have hcolon := List.all_eq_true.1 hdigits.2 ':' (by simp)
    revert hcolon
    decide
  · cases h

/-- The first colon of a length line ends the name. -/
theorem splitOn_lengthLine {line : Str} (h : isLengthLine line = true)
    (hcolon : ':' ∉ lengthText line) : (line.splitOn ':')[1]? = some (lengthText line) := by
  have hpre : "content-length".toList ++ [':'] <+: line.map Char.toLower :=
    List.isPrefixOf_iff_prefix.1 h
  rcases hpre with ⟨low, hline⟩
  rcases List.map_eq_append_iff.1 hline.symm with ⟨front, rest, rfl, hfront, -⟩
  rcases List.map_eq_append_iff.1 hfront with ⟨name, sep, rfl, hname, hsep⟩
  rcases List.map_eq_singleton_iff.1 hsep with ⟨c, rfl, hc⟩
  obtain rfl : c = ':' := eq_of_toLower_eq hc (by decide)
  have hlen : (name ++ [':']).length = "content-length:".toList.length := by
    have hlower := congrArg List.length hfront
    rw [List.length_map] at hlower
    exact hlower
  have hrest : lengthText (name ++ [':'] ++ rest) = rest := List.drop_left' hlen
  have hno : ':' ∉ name := by
    intro hmem
    have hlower := List.mem_map_of_mem (f := Char.toLower) hmem
    rw [hname] at hlower
    revert hlower
    decide
  rw [hrest] at hcolon ⊢
  rw [List.append_assoc, List.singleton_append, List.splitOn_append_cons_self,
    List.splitOn_eq_singleton hno, List.splitOn_eq_singleton hcolon]
  rfl

theorem lengthOf_eq {line : Str} (h : isLengthLine line = true) {n : Nat}
    (hn : parseDigits (trim (lengthText line)) = some n) :
    lengthOf line = if n < 2 ^ 64 then n else 0 := by
  have hdigit : dropPlus (trim (lengthText line)) = trim (lengthText line) := by
    unfold dropPlus
    split
    · rename_i t ht
      rw [ht, parseDigits] at hn
      split at hn
      · rename_i hdigits
        have hplus : '+'.isDigit = true := List.all_eq_true.1 hdigits.2 '+' (by simp)
        exact absurd hplus (by decide)
      · cases hn
    · rfl
  rw [lengthOf, splitOn_lengthLine h (notMem_of_parseDigits hn), Option.bind_some, parseUnsigned,
    hdigit, hn]
  by_cases hlt : n < 2 ^ 64
  · simp only [hlt, if_true, Option.getD_some]
  · simp only [hlt, if_false, Option.getD_none]

theorem foldl_contentLength {ls : List Str} {m : Nat}
    (h : ∀ line ∈ ls, isLengthLine line = true → lengthOf line = m) (init : Nat) :
    ls.foldl (fun n line => if isLengthLine line then lengthOf line else n) init =
      if ls.any isLengthLine then m else init := by
  induction ls generalizing init with
  | nil => rfl
  | cons line ls ih =>
    rw [List.forall_mem_cons] at h
    rw [List.foldl_cons, ih h.2, List.any_cons]
    cases hline : isLengthLine line with
    | true =>
      rw [if_pos rfl, h.1 hline]
      simp
    | false => simp

theorem PutRequest.contentLength_eq (r : PutRequest) :
    contentLength r.headers = if r.length < 2 ^ 64 then r.length else 0 := by
  rw [contentLength, foldl_contentLength (m := if r.length < 2 ^ 64 then r.length else 0)]
  · rw [if_pos]
    rcases r.sized with ⟨line, hline, hlength⟩
    exact List.any_eq_true.2 ⟨line, hline, hlength⟩
  · intro line hline hlength
    exact lengthOf_eq hlength (r.length_agrees line hline hlength)

/-! ## The answer -/

/-- The digit of the status line that tells success. -/
theorem getElem?_of_answered {response : Bytes} (h : PutRequest.answered <+: response) :
    response[9]? = some 50 := by
  rcases h with ⟨rest, rfl⟩
  rfl

theorem answer_put_eq (storageDir : Path) (result : SaveResult) (disk : Disk) (path : Str)
    (body : Bytes) {fileId : BitVec 128} (hid : pathFileId path = some fileId) :
    answer storageDir result disk "PUT".toList path body =
      store storageDir result disk fileId body := by
  rw [pathFileId] at hid
  split at hid
  · rename_i hpre
    rw [answer, if_pos ⟨rfl, hpre⟩, hid]
  · cases hid

/-- A PUT is answered with 200 only if its body is saved. -/
theorem answer_put_of_answered {storageDir : Path} {result : SaveResult} {disk disk' : Disk}
    {path : Str} {body response : Bytes}
    (h : answer storageDir result disk "PUT".toList path body = (response, disk'))
    (hok : PutRequest.answered <+: response) :
    result = .saved ∧ ∃ fileId, pathFileId path = some fileId ∧
      disk' (filePath storageDir fileId) = some body := by
  have hdigit := getElem?_of_answered hok
  cases hid : pathFileId path with
  | some fileId =>
    rw [answer_put_eq storageDir result disk path body hid] at h
    rcases result with - | ⟨e, left⟩
    · cases h
      exact ⟨rfl, fileId, rfl, Disk.write_self ..⟩
    · -- a failed write is a 500
      cases left <;>
      · cases h
        cases hdigit
  | none =>
    rw [pathFileId] at hid
    rw [answer] at h
    split at h
    · rename_i hput
      rw [if_pos hput.2] at hid
      rw [hid] at h
      cases h
      cases hdigit
    · rw [if_neg (by rintro ⟨hmethod, -⟩; revert hmethod; decide)] at h
      cases h
      cases hdigit

/-- A body that is saved is answered with 200. -/
theorem exists_store_saved (storageDir : Path) (disk : Disk) (fileId : BitVec 128) (body : Bytes) :
    ∃ response, PutRequest.answered <+: response ∧
      store storageDir .saved disk fileId body =
        (response, disk.write (filePath storageDir fileId) body) :=
  ⟨utf8 okAnswer, ⟨utf8 " OK\r\nContent-Length: 2\r\n\r\nOK".toList, rfl⟩, rfl⟩

/-! ## What is stored -/

theorem readHead_found {buf : Bytes} {pieces : List Bytes} {pos : Nat} {headerBuf : Bytes}
    {rest : List Bytes} (h : readHead buf pieces = some (pos, headerBuf, rest)) :
    findHeaderEnd headerBuf = some pos ∧ headerBuf <+: buf ++ pieces.flatten := by
  induction pieces generalizing buf with
  | nil => cases h
  | cons chunk pieces ih =>
    rw [List.flatten_cons, ← List.append_assoc]
    rw [readHead] at h
    split at h
    · rename_i p hp
      cases h
      exact ⟨hp, List.prefix_append _ _⟩
    · split at h
      · cases h
      · exact ih h

namespace PutRequest

variable {r : PutRequest} {pieces : List Bytes}

theorem method_eq (r : PutRequest) : (splitWhitespace r.requestLine)[0]?.getD [] = "PUT".toList := by
  rw [r.method_put]
  rfl

/-- A connection that ends within the head is not answered. -/
theorem readHead_of_short (h : pieces.flatten <+: r.bytes) (hshort : ¬ r.bytes <+: pieces.flatten) :
    readHead [] pieces = none := by
  cases hread : readHead [] pieces with
  | none => rfl
  | some found =>
    rcases found with ⟨pos, headerBuf, rest⟩
    rcases readHead_found hread with ⟨hpos, tail, htail⟩
    have hfound : position blankBytes pieces.flatten = some pos := by
      rw [← List.nil_append pieces.flatten, ← htail]
      exact position_append hpos tail
    have harrived : pieces.flatten <+: r.bytes ++ [] := by
      rw [List.append_nil]
      exact h
    rw [r.position_arrived harrived] at hfound
    split at hfound
    · rename_i hle
      exact absurd (h.eq_of_length_le hle ▸ List.prefix_rfl) hshort
    · cases hfound

theorem headInTime_iff {data : Bytes} (hdata : pieces.flatten = r.bytes ++ data) :
    r.HeadInTime pieces ↔ readHead [] pieces ≠ none := by
  rw [readHead_ne_none_iff rfl hdata]
  constructor
  · intro h k _
    exact h k
  · intro h k
    cases k with
    | zero => exact .inl (Nat.zero_le _)
    | succ k => exact h (k + 1) (Nat.succ_pos k)

/-- The bytes that are read as the body are those that were sent exactly if their
number is the length. -/
theorem readBody_eq_iff (h : r.Arrives pieces) {data got : Bytes} {rest : List Bytes}
    (hgot : got ++ rest.flatten = data) (hchunk : ∃ chunk ∈ pieces, got.length < chunk.length)
    (hsuffix : rest <:+ pieces) :
    (data.length = r.length ∧ readBody (contentLength r.headers) got rest = data) ↔
      data.length = r.length ∧ r.length < 2 ^ 64 := by
  refine and_congr_right fun hlen => ?_
  rw [r.contentLength_eq]
  by_cases hlt : r.length < 2 ^ 64
  · rw [if_pos hlt]
    refine iff_of_true (readBody_whole hgot hlen ?_) hlt
    intro p hp
    exact h.ne_nil p (hsuffix.subset hp)
  · rw [if_neg hlt, readBody_zero]
    refine iff_of_false ?_ hlt
    rintro rfl
    rcases hchunk with ⟨chunk, hchunk, hshort⟩
    have hle := h.length_le chunk hchunk
    omega

/-- A PUT is answered as it should be exactly if its body has the length it says,
or nothing is stored anyway. -/
theorem storesBody_iff (r : PutRequest) {pieces : List Bytes} (h : r.Arrives pieces)
    (storageDir : Path) (result : SaveResult) (disk : Disk) :
    r.StoresBody storageDir result disk pieces ↔ r.BodyFits result pieces := by
  by_cases hhead : r.bytes <+: pieces.flatten
  · -- the whole head arrives
    rcases hhead with ⟨data, hdata⟩
    rcases handleConnection_head r.lines_text hdata.symm storageDir result disk with
      ⟨hnone, hclosed⟩ | ⟨hread, got, rest, hgot, hchunk, hsuffix, hanswer⟩
    · refine iff_of_true ?_ ?_
      · intro response disk' hresponse
        rw [hclosed] at hresponse
        cases hresponse
      · intro data' hdata' htime
        exact absurd hnone ((headInTime_iff hdata').1 htime)
    · rw [r.method_eq] at hanswer
      have hunique : ∀ data', pieces.flatten = r.bytes ++ data' → data' = data := by
        intro data' hdata'
        rw [← hdata] at hdata'
        exact (List.append_cancel_left hdata').symm
      by_cases hsaved : result = .saved ∧ r.fileId.isSome = true
      · -- the write succeeds, under the id of the path
        rcases hsaved with ⟨rfl, hid⟩
        rcases Option.isSome_iff_exists.1 hid with ⟨fileId, hfile⟩
        rcases exists_store_saved storageDir disk fileId
          (readBody (contentLength r.headers) got rest) with ⟨ok, hok, hstore⟩
        have hput := answer_put_eq storageDir .saved disk r.path
          (readBody (contentLength r.headers) got rest) hfile
        rw [hstore] at hput
        have hreply : handleConnection storageDir .saved disk pieces =
            (some ok, disk.write (filePath storageDir fileId)
              (readBody (contentLength r.headers) got rest)) :=
          hanswer.trans (congrArg (Prod.map some id) hput)
        -- then all turns on what readBody takes for the body
        have hwritten := readBody_eq_iff h hgot hchunk hsuffix
        constructor
        · intro hstores data' hdata' _ _ _
          rcases hstores _ _ hreply hok with ⟨data'', fileId', hdata'', hlen, hfile', hdisk⟩
          obtain rfl := hunique _ hdata'
          obtain rfl := hunique _ hdata''
          rw [hfile] at hfile'
          cases hfile'
          rw [Disk.write_self] at hdisk
          exact hwritten.1 ⟨hlen, Option.some.inj hdisk⟩
        · intro hfits response disk' hresponse _
          rcases hwritten.2 (hfits data hdata.symm ((headInTime_iff hdata.symm).2 hread) hid rfl)
            with ⟨hlen, hbody⟩
          rw [hreply, hbody] at hresponse
          cases hresponse
          exact ⟨data, fileId, hdata.symm, hlen, hfile, Disk.write_self ..⟩
      · refine iff_of_true ?_ ?_
        · intro response disk' hresponse hok
          rw [hanswer] at hresponse
          cases hresponse
          rcases answer_put_of_answered rfl hok with ⟨hresult, fileId, hfile, -⟩
          refine absurd ⟨hresult, ?_⟩ hsaved
          rw [Option.isSome_iff_exists]
          exact ⟨fileId, hfile⟩
        · intro data' _ _ hid hresult
          exact absurd ⟨hresult, hid⟩ hsaved
  · have hnone := readHead_of_short (h.head.resolve_left hhead) hhead
    refine iff_of_true ?_ ?_
    · intro response disk' hresponse
      rw [handleConnection, hnone] at hresponse
      cases hresponse
    · intro data hdata
      exact absurd ⟨data, hdata.symm⟩ hhead

/-- Two bytes for one file. -/
def noteHead : HeadLines where
  lines := [putLine 7, "Content-Length: 2".toList]
  lines_ne_nil := List.cons_ne_nil _ _
  line_ne_nil := by
    simp only [List.forall_mem_cons]
    exact ⟨List.cons_ne_nil _ _, by decide, by simp⟩
  return_notMem := by
    simp only [List.forall_mem_cons]
    exact ⟨return_notMem_putLine 7, by decide, by simp⟩
  newline_notMem := by
    simp only [List.forall_mem_cons]
    exact ⟨newline_notMem_putLine 7, by decide, by simp⟩

theorem lines_noteHead : lines (fromUtf8Lossy noteHead.toHeadBytes.text) =
    putLine 7 :: ["Content-Length: 2".toList] := by
  show lines (fromUtf8Lossy (utf8 (joinLines noteHead.lines))) = _
  rw [fromUtf8Lossy_utf8, lines_joinLines noteHead.line_ne_nil noteHead.return_notMem
    noteHead.newline_notMem]
  rfl

def notePut : PutRequest where
  toHeadBytes := noteHead.toHeadBytes
  requestLine := putLine 7
  headers := ["Content-Length: 2".toList]
  lines_text := lines_noteHead
  method_put := by
    rw [splitWhitespace_putLine]
    rfl
  length := 2
  sized := ⟨_, List.mem_singleton_self _, by decide⟩
  length_agrees := by
    intro line hline _
    rw [List.mem_singleton.1 hline]
    decide

theorem length_notePut : notePut.bytes.length = 79 := by decide

theorem arrives_notePut (body : Bytes) (hne : body ≠ []) (hlen : body.length ≤ 2) :
    notePut.Arrives [notePut.bytes, body] where
  ne_nil := by
    simp only [List.forall_mem_cons]
    refine ⟨?_, hne, by simp⟩
    intro hnil
    have hlength := length_notePut
    rw [hnil] at hlength
    cases hlength
  length_le := by
    simp only [List.forall_mem_cons, length_notePut]
    exact ⟨by decide, hlen.trans (by decide), by simp⟩
  head := .inl (by simp)

/-- The two bytes come behind the head. -/
theorem note_stored :
    notePut.Arrives [notePut.bytes, [104, 105]] ∧
      notePut.StoresBody [] .saved (fun _ => none) [notePut.bytes, [104, 105]] := by
  have harrives := arrives_notePut [104, 105] (List.cons_ne_nil _ _) le_rfl
  refine ⟨harrives, (storesBody_iff notePut harrives [] .saved _).2 ?_⟩
  intro data hdata _ _ _
  have hbody : [104, 105] = data := by
    simpa using hdata
  rw [← hbody]
  exact ⟨rfl, by decide⟩

/-- One of the two bytes is stored, and the answer is 200. -/
theorem cut_note_stored : ¬ ∀ (r : PutRequest) (pieces : List Bytes) (storageDir : Path)
    (result : SaveResult) (disk : Disk), r.Arrives pieces →
      r.StoresBody storageDir result disk pieces := by
  intro h
  have hstores := h notePut _ [] .saved (fun _ => none)
    (arrives_notePut [104] (List.cons_ne_nil _ _) (by decide))
  have hwire : [notePut.bytes, [104]].flatten = notePut.bytes ++ [104] := by simp
  have hhead : noteHead.lines = putLine 7 :: ["Content-Length: 2".toList] := rfl
  rcases handleConnection_put hhead hwire [] .saved (fun _ => none) with
    ⟨hnone, -⟩ | ⟨got, rest, -, -, -, hreply⟩
  · refine absurd hnone (readHead_ne_none ?_ hwire)
    show notePut.bytes.length ≤ _
    rw [length_notePut]
    decide
  · rcases exists_store_saved [] (fun _ => none) 7
      (readBody (contentLength ["Content-Length: 2".toList]) got rest) with ⟨ok, hok, hstore⟩
    rw [hstore] at hreply
    rcases hstores ok _ hreply hok with ⟨data, fileId, hdata, hlen, -⟩
    rw [hwire, List.append_cancel_left_eq] at hdata
    rw [← hdata] at hlen
    cases hlen

end PutRequest

end FileServer

end HomeTier
