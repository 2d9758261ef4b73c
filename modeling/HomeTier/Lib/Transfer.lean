import HomeTier.Lib.Http

/-! # Bodies on their way

A `Transfer` is a body that is sent, which a broken connection may cut off; a
`Stream` is what a reader gets of it. A content coding is undone by a decoder
that turns the bytes it has read into those it can give, and says whether it
came to the end of its input; an empty body stays empty under any coding.
-/

namespace HomeTier.Lib

/-- The bytes that are read, and whether the end was reached. -/
structure Stream where
  bytes : Bytes
  whole : Bool
deriving DecidableEq, Repr

/-- All bytes, unless reading failed. -/
def Stream.collect (s : Stream) : Option Bytes := if s.whole then some s.bytes else none

/-- A body that is sent, and how much of it arrives when the connection breaks. -/
structure Transfer where
  complete : Bytes
  cut : Option Nat
deriving DecidableEq, Repr

namespace Transfer

def arrived (t : Transfer) : Stream :=
  match t.cut with
  | none => ⟨t.complete, true⟩
  | some n => ⟨t.complete.take n, false⟩

theorem collect_arrived_of_whole {t : Transfer} (h : t.cut = none) :
    t.arrived.collect = some t.complete := by
  rw [arrived, h]
  rfl

theorem collect_arrived_of_cut {t : Transfer} (h : t.cut ≠ none) : t.arrived.collect = none := by
  rcases Option.ne_none_iff_exists'.1 h with ⟨n, hn⟩
  rw [arrived, hn]
  rfl

end Transfer

/-! ## Content codings -/

/-- The codings of a body, in the order they were applied; the identity is none. -/
def contentCodings (h : HeaderMap) : List Str :=
  (h.filter fun e => e.1 = "content-encoding".toList).flatMap fun e =>
    (((e.2.map fun b => Char.ofNat b.toNat).splitOn ',').map fun c =>
      (trim c).map Char.toLower).filter fun c => c ≠ [] ∧ c ≠ "identity".toList

variable (decode : Str → Bytes → Stream)

/-- A stream behind the decoder of a coding. -/
def undo (coding : Str) (s : Stream) : Stream :=
  if s.bytes = [] then s
  else ⟨(decode coding s.bytes).bytes, s.whole && (decode coding s.bytes).whole⟩

/-- The last coding comes off first. -/
def undoAll (codings : List Str) (s : Stream) : Stream := codings.foldr (undo decode) s

theorem undoAll_empty (codings : List Str) : undoAll decode codings ⟨[], true⟩ = ⟨[], true⟩ := by
  induction codings with
  | nil => rfl
  | cons c cs ih => rw [undoAll, List.foldr_cons, ← undoAll, ih, undo, if_pos rfl]

end HomeTier.Lib
