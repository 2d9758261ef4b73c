import Mathlib
import HomeTier.Lib.AsyncRead

/-! # Bytes in front of a stream

`PrependStream` of `src-tauri/src/proxy/server.rs` over any stream. Polls are answered
from the bytes read ahead as long as there are any, and then by the stream as if they
had been the first ones (`transparent`).
-/

namespace HomeTier

open Lib

/-- `PrependStream` -/
structure PrependStream (σ : Type) where
  stream : σ
  buf : Bytes
  pos : Nat

namespace PrependStream

variable {σ ε : Type}

def new (stream : σ) (initialData : Bytes) : PrependStream σ where
  stream := stream
  buf := initialData
  pos := 0

/-- `poll_read` into a buffer with so many bytes left. -/
def pollRead (S : Source σ ε) (self : PrependStream σ) (bufRemaining : Nat) :
    Poll ε × PrependStream σ :=
  if self.pos < self.buf.length then
    let remaining := self.buf.drop self.pos
    let toCopy := min remaining.length bufRemaining
    (.ready (remaining.take toCopy), { self with pos := self.pos + toCopy })
  else
    let polled := S.poll self.stream bufRemaining
    (polled.1, { self with stream := polled.2 })

/-- `put_slice` never gets more bytes than the buffer takes. -/
theorem pollRead_fits (S : Source σ ε) (self : PrependStream σ) (bufRemaining : Nat) :
    (pollRead S self bufRemaining).1.bytes.length ≤ bufRemaining := by
  unfold pollRead
  split
  · simp only [Poll.bytes, List.length_take]
    omega
  · exact S.fits _ _

/-- The stream that is read instead of `S`. -/
def source (S : Source σ ε) : Source (PrependStream σ) ε where
  poll := pollRead S
  fits := pollRead_fits S

/-! ## Polls -/

variable {S : Source σ ε} {self : PrependStream σ}

theorem poll_ahead {room : Nat} (h : self.pos < self.buf.length) :
    (source S).poll self room = (.ready ((self.buf.drop self.pos).take room),
      { self with pos := self.pos + min (self.buf.length - self.pos) room }) := by
  -- taking more than there is takes all of it
  have htake : (self.buf.drop self.pos).take (min (self.buf.length - self.pos) room) =
      (self.buf.drop self.pos).take room := by
    rw [List.take_eq_take_iff, List.length_drop]
    omega
  show pollRead S self room = _
  simp only [pollRead, if_pos h, List.length_drop, htake]

/-- Without bytes ahead all polls go to the stream. -/
theorem polls_behind (h : self.buf.length ≤ self.pos) (rooms : List Nat) :
    ((source S).polls self rooms).1 = (S.polls self.stream rooms).1 ∧
      ((source S).polls self rooms).2.stream = (S.polls self.stream rooms).2 := by
  have hstep : ∀ (p : PrependStream σ) (s : σ) (room : Nat),
      p.buf.length ≤ p.pos ∧ p.stream = s →
      ((source S).poll p room).1 = (S.poll s room).1 ∧
        ((source S).poll p room).2.buf.length ≤ ((source S).poll p room).2.pos ∧
        ((source S).poll p room).2.stream = (S.poll s room).2 := by
    intro p s room ⟨hp, hs⟩
    have hpoll : (source S).poll p room =
        ((S.poll p.stream room).1, { p with stream := (S.poll p.stream room).2 }) :=
      if_neg (Nat.not_lt.2 hp)
    rw [hpoll, hs]
    exact ⟨rfl, hp, rfl⟩
  have hmatch := Source.polls_eq_of_match
    (fun (p : PrependStream σ) s => p.buf.length ≤ p.pos ∧ p.stream = s) hstep ⟨h, rfl⟩ rooms
  exact ⟨hmatch.1, hmatch.2.2⟩

/-- What polls with some room return: pieces of the bytes ahead, none of them empty,
and from the poll on that finds none left what the stream returns. -/
theorem polls_eq (self : PrependStream σ) {rooms : List Nat} (hrooms : ∀ room ∈ rooms, 0 < room) :
    ∃ chunks : List Bytes,
      ((source S).polls self rooms).1 =
        chunks.map .ready ++ (S.polls self.stream (rooms.drop chunks.length)).1 ∧
      ((source S).polls self rooms).2.stream =
        (S.polls self.stream (rooms.drop chunks.length)).2 ∧
      (∀ chunk ∈ chunks, chunk ≠ []) ∧
      chunks.flatten = (self.buf.drop self.pos).take rooms.sum ∧
      (chunks.length < rooms.length → chunks.flatten = self.buf.drop self.pos) := by
  induction rooms generalizing self with
  | nil => exact ⟨[], rfl, rfl, by simp, by simp, by simp⟩
  | cons room rooms ih =>
    by_cases hahead : self.pos < self.buf.length
    · rw [List.forall_mem_cons] at hrooms
      rcases ih { self with pos := self.pos + min (self.buf.length - self.pos) room } hrooms.2 with
        ⟨chunks, houts, hstream, hne, hflat, hall⟩
      -- what is left after the first piece
      have hleft : self.buf.drop (self.pos + min (self.buf.length - self.pos) room) =
          (self.buf.drop self.pos).drop room := by
        rw [← List.drop_drop, List.drop_eq_drop_iff, List.length_drop]
        omega
      rw [hleft] at hflat hall
      rw [Source.polls_cons (poll_ahead hahead)]
      refine ⟨(self.buf.drop self.pos).take room :: chunks, ?_, hstream, ?_, ?_, ?_⟩
      · simp only [houts, List.map_cons, List.length_cons, List.drop_succ_cons, List.cons_append]
      · rw [List.forall_mem_cons]
        refine ⟨?_, hne⟩
        rw [Ne, List.take_eq_nil_iff, List.drop_eq_nil_iff]
        omega
      · rw [List.flatten_cons, hflat, List.sum_cons, List.take_add]
      · intro hlt
        rw [List.flatten_cons, hall (by simpa using hlt), List.take_append_drop]
    · have hnone : self.buf.drop self.pos = [] := List.drop_eq_nil_of_le (Nat.le_of_not_lt hahead)
      rcases polls_behind (S := S) (Nat.le_of_not_lt hahead) (room :: rooms) with ⟨houts, hstream⟩
      exact ⟨[], houts, hstream, by simp, by simp [hnone], by simp [hnone]⟩

/-- Read with buffers that have room, the bytes put in front come first, in non-empty
pieces and all of them before the stream is asked; what follows are the polls of the
stream itself, and it is left in the state that these leave it in. -/
theorem transparent (S : Source σ ε) (stream : σ) (initial : Bytes) (rooms : List Nat)
    (hrooms : ∀ room ∈ rooms, 0 < room) :
    ∃ chunks : List Bytes,
      ((source S).polls (new stream initial) rooms).1 =
        chunks.map .ready ++ (S.polls stream (rooms.drop chunks.length)).1 ∧
      ((source S).polls (new stream initial) rooms).2.stream =
        (S.polls stream (rooms.drop chunks.length)).2 ∧
      (∀ chunk ∈ chunks, chunk ≠ []) ∧
      (chunks.length < rooms.length → chunks.flatten = initial) ∧
      Source.delivered ((source S).polls (new stream initial) rooms).1 =
        initial.take rooms.sum ++
          Source.delivered (S.polls stream (rooms.drop chunks.length)).1 := by
  rcases polls_eq (S := S) (new stream initial) hrooms with
    ⟨chunks, houts, hstream, hne, hflat, hall⟩
  refine ⟨chunks, houts, hstream, hne, hall, ?_⟩
  rw [houts, Source.delivered_append, Source.delivered_ready, hflat]
  rfl

/-- Three bytes ahead, read two at a time. -/
theorem transparent_two : ∃ chunks : List Bytes,
    ((source (Source.ofBytes (ε := Unit))).polls (new [7, 8] [1, 2, 3]) [2, 2, 2]).1 =
      chunks.map .ready ++
        ((Source.ofBytes (ε := Unit)).polls [7, 8] ([2, 2, 2].drop chunks.length)).1 ∧
    ((source (Source.ofBytes (ε := Unit))).polls (new [7, 8] [1, 2, 3]) [2, 2, 2]).2.stream =
      ((Source.ofBytes (ε := Unit)).polls [7, 8] ([2, 2, 2].drop chunks.length)).2 ∧
    (∀ chunk ∈ chunks, chunk ≠ []) ∧
    (chunks.length < [2, 2, 2].length → chunks.flatten = [1, 2, 3]) ∧
    Source.delivered
        ((source (Source.ofBytes (ε := Unit))).polls (new [7, 8] [1, 2, 3]) [2, 2, 2]).1 =
      [1, 2, 3].take [2, 2, 2].sum ++ Source.delivered
        ((Source.ofBytes (ε := Unit)).polls [7, 8] ([2, 2, 2].drop chunks.length)).1 :=
  transparent (Source.ofBytes (ε := Unit)) [7, 8] [1, 2, 3] [2, 2, 2] (by decide)

end PrependStream

end HomeTier
