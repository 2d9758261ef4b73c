import Mathlib.Algebra.Ring.Nat
import HomeTier.Lib.Text

/-! # Length-prefixed frames

A frame is the length of its content in four little-endian bytes, followed by
the content. The length is written modulo 2³², so it is only read back for
contents shorter than that.
-/

namespace HomeTier.Lib

/-- `(n as u32).to_le_bytes()` -/
def le32 (n : Nat) : Bytes :=
  [UInt8.ofNat n, UInt8.ofNat (n / 2 ^ 8), UInt8.ofNat (n / 2 ^ 16), UInt8.ofNat (n / 2 ^ 24)]

/-- `u32::from_le_bytes` -/
def fromLe32 : Bytes → Nat
  | [a, b, c, d] => a.toNat + b.toNat * 2 ^ 8 + c.toNat * 2 ^ 16 + d.toNat * 2 ^ 24
  | _ => 0

/-- Length and content. -/
def frame (content : Bytes) : Bytes := le32 content.length ++ content

@[simp] theorem le32_length (n : Nat) : (le32 n).length = 4 := rfl

theorem fromLe32_le32 {n : Nat} (h : n < 2 ^ 32) : fromLe32 (le32 n) = n := by
  simp only [le32, fromLe32, UInt8.toNat_ofNat']
  omega

theorem frame_ne_nil (content : Bytes) : frame content ≠ [] := by
  simp [frame, le32]

/-- The first four bytes of a prefix of a frame give the length of its content. -/
theorem take_of_prefix_frame {p content : Bytes} (h : p <+: frame content) (hp : 4 ≤ p.length) :
    p = le32 content.length ++ p.drop 4 := by
  rcases h with ⟨t, ht⟩
  have htake : p.take 4 = le32 content.length := by
    have := congrArg (List.take 4) ht
    rw [List.take_append_of_le_length hp, frame, List.take_left' (le32_length _)] at this
    exact this
  conv_lhs => rw [← List.take_append_drop 4 p, htake]

end HomeTier.Lib
