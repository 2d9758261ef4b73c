import HomeTier.Lib.Message
import HomeTier.Proxy.HttpForward
import HomeTier.Proxy.Prepend

/-! # The front of the proxy

A connection to the proxy of `src-tauri/src/proxy/server.rs` is read once, up to
8192 bytes, and `is_raw_ws_upgrade` of these bytes says who gets it:

* `serve_http` reads them again through a `PrependStream`, and then on from the
  socket;
* `handle_raw_upgrade` takes them for the whole request head. What follows the
  head in them is not sent on.

How many bytes the first read returns is up to the network (`FirstRead`).
-/

namespace HomeTier.Front

open Lib HttpForward

/-- `is_raw_ws_upgrade` -/
def isRawWsUpgrade (data : Bytes) : Bool :=
  match fromUtf8 data with
  | none => false
  | some s =>
    if !"GET".toList.isPrefixOf s && !"get".toList.isPrefixOf s then false
    else
      let lower := toLowercase s
      containsText lower "upgrade:".toList && containsText lower "websocket".toList

/-! ## Streams -/

/-- A socket of which so many bytes have arrived. -/
def socket (arrived : Nat) : Source Bytes Unit where
  poll stream room := (.ready (stream.take (min room arrived)), stream.drop (min room arrived))
  fits stream room := (List.length_take_le _ stream).trans (Nat.min_le_left room arrived)

/-- What one read after the other returns, and what is left to read. A read has
room for some bytes, and some have arrived on the socket. -/
def readAll : List (Nat × Nat) → PrependStream Bytes → Bytes × PrependStream Bytes
  | [], s => ([], s)
  | (remaining, arrived) :: reads, s =>
    let (out, s') := PrependStream.pollRead (socket arrived) s remaining
    let (outs, s'') := readAll reads s'
    (out.bytes ++ outs, s'')

def unread (s : PrependStream Bytes) : Bytes := s.buf.drop s.pos ++ s.stream

theorem pollRead_unread (s : PrependStream Bytes) (remaining arrived : Nat) :
    (PrependStream.pollRead (socket arrived) s remaining).1.bytes ++
      unread (PrependStream.pollRead (socket arrived) s remaining).2 = unread s := by
  unfold PrependStream.pollRead unread
  split
  · -- from the bytes read ahead
    simp only [Poll.bytes]
    rw [← List.append_assoc, ← List.drop_drop, List.take_append_drop]
  · next hpos =>
    have hnil : s.buf.drop s.pos = [] := List.drop_eq_nil_of_le (by omega)
    simp only [socket, Poll.bytes, hnil, List.nil_append, List.take_append_drop]

/-- No byte is lost or moved. -/
theorem readAll_unread (reads : List (Nat × Nat)) (s : PrependStream Bytes) :
    (readAll reads s).1 ++ unread (readAll reads s).2 = unread s := by
  induction reads generalizing s with
  | nil => rfl
  | cons r reads ih =>
    rcases r with ⟨remaining, arrived⟩
    simp only [readAll]
    rw [List.append_assoc, ih, pollRead_unread]

/-- `tokio::io::copy` of a socket, as far as it comes: what is written and what
is left to read. -/
def copy : List Nat → Bytes → Bytes × Bytes
  | [], stream => ([], stream)
  | n :: reads, stream =>
    let (outs, left) := copy reads (stream.drop n)
    (stream.take n ++ outs, left)

theorem copy_append (reads : List Nat) (stream : Bytes) :
    (copy reads stream).1 ++ (copy reads stream).2 = stream := by
  induction reads generalizing stream with
  | nil => rfl
  | cons n reads ih =>
    simp only [copy]
    rw [List.append_assoc, ih, List.take_append_drop]

/-! ## A connection -/

/-- What a client sends: a request head, the blank line behind it and whatever
follows. -/
structure ClientStream where
  head : Bytes
  further : Bytes
  position_head : position blankBytes (head ++ blankBytes ++ further) = some head.length

def ClientStream.bytes (C : ClientStream) : Bytes := C.head ++ blankBytes ++ C.further

/-- The first `try_read`; after a wakeup for nothing it would block. -/
inductive FirstRead where
  | wouldBlock
  | read (n : Nat)
deriving DecidableEq

def FirstRead.peek (stream : Bytes) : FirstRead → Bytes
  | .wouldBlock => []
  | .read n => stream.take n

/-- A read into `peek_buf` returns what is there, at least a byte. -/
def FirstRead.Possible (stream : Bytes) : FirstRead → Prop
  | .wouldBlock => True
  | .read n => 0 < n ∧ n ≤ 8192 ∧ n ≤ stream.length

/-- All reads of a connection: the first one and those behind it, on either way. -/
structure Split where
  first : FirstRead
  http : List (Nat × Nat)
  upgrade : List Nat

/-- Who gets the connection, and what of the client's bytes. -/
inductive Served where
  /-- What `hyper` reads, and the stream left behind. -/
  | http (read : Bytes) (left : PrependStream Bytes)
  /-- The head that is parsed, what is sent on behind the upstream request, and
  the bytes of the socket left behind. -/
  | upgrade (head : Str) (sent left : Bytes)
  | badRequest (message : Str)

def isUpgrade (stream : Bytes) (first : FirstRead) : Bool := isRawWsUpgrade (first.peek stream)

/-- The task of an accepted connection. -/
def serve (stream : Bytes) (s : Split) : Served :=
  let peek := s.first.peek stream
  let rest := stream.drop peek.length
  if isRawWsUpgrade peek then
    match position blankBytes peek with
    | none => .badRequest "incomplete request headers".toList
    | some eoh =>
      match fromUtf8 (peek.take eoh) with
      | none => .badRequest "request headers not utf-8".toList
      | some head =>
        let (sent, left) := copy s.upgrade rest
        .upgrade head sent left
  else
    let (read, left) := readAll s.http (PrependStream.new rest peek)
    .http read left

/-- Every byte is read or still to be read, in order. -/
def Kept (stream : Bytes) : Served → Prop
  | .http read left => read ++ unread left = stream
  | .upgrade head sent left => utf8 head ++ blankBytes ++ (sent ++ left) = stream
  | .badRequest _ => False

/-- The same decision whatever the reads are, and no byte is lost. -/
structure Independent (C : ClientStream) : Prop where
  decision : ∀ r r' : FirstRead, r.Possible C.bytes → r'.Possible C.bytes →
    isUpgrade C.bytes r = isUpgrade C.bytes r'
  kept : ∀ s : Split, s.first.Possible C.bytes → Kept C.bytes (serve C.bytes s)

/-! ## Both ways -/

section Ways

variable {C : ClientStream} {s : Split}

/-- The first bytes and the rest make up the stream. -/
theorem peek_append (stream : Bytes) (r : FirstRead) :
    r.peek stream ++ stream.drop (r.peek stream).length = stream := by
  cases r with
  | wouldBlock => rfl
  | read n =>
    rw [FirstRead.peek, List.length_take, ← List.drop_eq_drop_min, List.take_append_drop]

/-- The HTTP handler reads what the client sent. -/
theorem kept_http (stream : Bytes) {s : Split} (h : isUpgrade stream s.first = false) :
    Kept stream (serve stream s) := by
  have hnot : ¬ isRawWsUpgrade (s.first.peek stream) = true := by
    rw [show isRawWsUpgrade (s.first.peek stream) = false from h]
    decide
  simp only [serve, if_neg hnot, Kept]
  rw [readAll_unread]
  exact peek_append stream s.first

instance (stream : Bytes) : DecidablePred (FirstRead.Possible stream)
  | .wouldBlock => .isTrue trivial
  | .read n => inferInstanceAs (Decidable (0 < n ∧ n ≤ 8192 ∧ n ≤ stream.length))

/-- A stream whose first bytes, however many, do not ask for an upgrade. -/
def NeverUpgrade (C : ClientStream) : Prop :=
  ∀ n ≤ 8192, isRawWsUpgrade (C.bytes.take n) = false

/-- An upgrade starts with a method. -/
theorem three_le_length {data : Bytes} (h : isRawWsUpgrade data = true) : 3 ≤ data.length := by
  unfold isRawWsUpgrade at h
  split at h
  · cases h
  · next s hs =>
    have hmethod : ∃ method t : Str, (method = "GET".toList ∨ method = "get".toList) ∧
        s = method ++ t := by
      split at h
      · cases h
      · next hget =>
        simp only [Bool.and_eq_true, Bool.not_eq_true', not_and_or, Bool.not_eq_false,
          List.isPrefixOf_iff_prefix] at hget
        rcases hget with ⟨t, ht⟩ | ⟨t, ht⟩
        · exact ⟨_, t, .inl rfl, ht.symm⟩
        · exact ⟨_, t, .inr rfl, ht.symm⟩
    rcases hmethod with ⟨method, t, hmethod, rfl⟩
    have hthree : (utf8 method).length = 3 := by
      rcases hmethod with rfl | rfl
      · rfl
      · rfl
    rw [← fromUtf8_eq_some.1 hs, utf8_append, List.length_append, hthree]
    omega

/-- The reads do not matter exactly when none of them makes the connection an
upgrade: a read of one byte never does. -/
theorem independent_iff (C : ClientStream) : Independent C ↔ NeverUpgrade C := by
  have hlen : 4 ≤ C.bytes.length := by
    simp only [ClientStream.bytes, List.length_append, blankBytes, List.length_cons]
    omega
  constructor
  · intro h n hn
    by_contra hupgrade
    have hupgrade : isRawWsUpgrade (C.bytes.take n) = true := by simpa using hupgrade
    have hone : (FirstRead.read 1).Possible C.bytes := ⟨by decide, by decide, by omega⟩
    have hread : (FirstRead.read (min n C.bytes.length)).Possible C.bytes := by
      have := three_le_length hupgrade
      rw [List.length_take] at this
      exact ⟨by omega, by omega, by omega⟩
    have hsame := h.decision _ _ hread hone
    simp only [isUpgrade, FirstRead.peek, ← List.take_eq_take_min] at hsame
    rw [hupgrade] at hsame
    have hthree := three_le_length hsame.symm
    rw [List.length_take] at hthree
    omega
  · intro h
    have hnever : ∀ r : FirstRead, r.Possible C.bytes → isUpgrade C.bytes r = false := by
      intro r hr
      cases r with
      | wouldBlock => rfl
      | read n => exact h n hr.2.1
    constructor
    · intro r r' hr hr'
      rw [hnever r hr, hnever r' hr']
    · intro s hs
      exact kept_http C.bytes (hnever s.first hs)

/-- An upgrade with a frame behind its head. -/
def chatStream : ClientStream where
  head := utf8 "GET /?ws=chat.local/ HTTP/1.1\r\nUpgrade: websocket".toList
  further := [0x81, 0x00]
  position_head := by decide

/-- Read up to the end of its head, it is an upgrade; read with a first byte of its
own, it is not. (Read together with the frame it is no text, and so not either.) -/
theorem decided_by_first_read : ¬ ∀ C : ClientStream, Independent C := by
  intro h
  have hsame := (h chatStream).decision (.read 53) (.read 1) (by decide) (by decide)
  have hdiffer : isUpgrade chatStream.bytes (.read 53) ≠ isUpgrade chatStream.bytes (.read 1) := by
    decide
  exact hdiffer hsame

end Ways

end HomeTier.Front
