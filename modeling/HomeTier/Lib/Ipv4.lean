import Mathlib.Algebra.Order.Group.Nat
import HomeTier.Lib.Decimal

/-! # IPv4 addresses and networks

An address is its four bytes. A network is an address and a length; it holds
the addresses that begin with the same bits, and it is written with the other
bits cleared.
-/

namespace HomeTier.Lib

structure Inet4 where
  o₁ : UInt8
  o₂ : UInt8
  o₃ : UInt8
  o₄ : UInt8
deriving DecidableEq, Repr

namespace Inet4

def toNat (x : Inet4) : Nat :=
  ((x.o₁.toNat * 256 + x.o₂.toNat) * 256 + x.o₃.toNat) * 256 + x.o₄.toNat

def ofNat (n : Nat) : Inet4 :=
  ⟨UInt8.ofNat (n / 2 ^ 24), UInt8.ofNat (n / 2 ^ 16), UInt8.ofNat (n / 2 ^ 8), UInt8.ofNat n⟩

/-- The bytes in the opposite order. -/
def swapped (x : Inet4) : Inet4 := ⟨x.o₄, x.o₃, x.o₂, x.o₁⟩

/-- The 32-bit number whose least significant byte is the first one. -/
def leastFirst (x : Inet4) : BitVec 32 :=
  BitVec.ofNat 32 (x.o₁.toNat + x.o₂.toNat * 2 ^ 8 + x.o₃.toNat * 2 ^ 16 + x.o₄.toNat * 2 ^ 24)

/-- The dotted notation. -/
def text (x : Inet4) : Str :=
  decimal x.o₁.toNat ++ '.' :: (decimal x.o₂.toNat ++ '.' ::
    (decimal x.o₃.toNat ++ '.' :: decimal x.o₄.toNat))

/-- 10.0.0.0/8, 172.16.0.0/12 and 192.168.0.0/16. -/
def SiteLocal (x : Inet4) : Prop :=
  x.o₁ = 10 ∨ (x.o₁ = 172 ∧ 16 ≤ x.o₂.toNat ∧ x.o₂.toNat ≤ 31) ∨ (x.o₁ = 192 ∧ x.o₂ = 168)

instance (x : Inet4) : Decidable x.SiteLocal := inferInstanceAs (Decidable (_ ∨ _))

theorem toNat_lt (x : Inet4) : x.toNat < 2 ^ 32 := by
  have h₁ := x.o₁.toNat_lt
  have h₂ := x.o₂.toNat_lt
  have h₃ := x.o₃.toNat_lt
  have h₄ := x.o₄.toNat_lt
  unfold toNat
  omega

theorem ext_toNat {x y : Inet4} (h₁ : x.o₁.toNat = y.o₁.toNat) (h₂ : x.o₂.toNat = y.o₂.toNat)
    (h₃ : x.o₃.toNat = y.o₃.toNat) (h₄ : x.o₄.toNat = y.o₄.toNat) : x = y := by
  cases x
  cases y
  simp only [mk.injEq]
  exact ⟨UInt8.toNat_inj.1 h₁, UInt8.toNat_inj.1 h₂, UInt8.toNat_inj.1 h₃, UInt8.toNat_inj.1 h₄⟩

@[simp] theorem swapped_swapped (x : Inet4) : x.swapped.swapped = x := rfl

theorem toNat_leastFirst (x : Inet4) : x.leastFirst.toNat =
    x.o₁.toNat + x.o₂.toNat * 2 ^ 8 + x.o₃.toNat * 2 ^ 16 + x.o₄.toNat * 2 ^ 24 := by
  have h₁ := x.o₁.toNat_lt
  have h₂ := x.o₂.toNat_lt
  have h₃ := x.o₃.toNat_lt
  have h₄ := x.o₄.toNat_lt
  rw [leastFirst, BitVec.toNat_ofNat]
  omega

theorem leastFirst_eq_zero_iff {x : Inet4} : x.leastFirst = 0#32 ↔ x = ⟨0, 0, 0, 0⟩ := by
  constructor
  · intro h
    have hzero := congrArg BitVec.toNat h
    rw [toNat_leastFirst, BitVec.toNat_ofNat] at hzero
    apply ext_toNat <;> simp <;> omega
  · rintro rfl
    decide

/-- Numbers and dots are cut at the dots in one way only. -/
theorem decimal_dot_inj {m n : Nat} {s t : Str} (h : decimal m ++ '.' :: s = decimal n ++ '.' :: t) :
    m = n ∧ s = t := by
  have hdot : ∀ k : Nat, '.' ∉ decimal k := by
    intro k hmem
    exact absurd (isDigit_of_mem_decimal hmem) (by decide)
  have hcut := congrArg (cutAt '.') h
  rw [cutAt_append (hdot m), cutAt_append (hdot n)] at hcut
  simp only [Prod.mk.injEq, Option.some.injEq] at hcut
  exact ⟨decimal_injective hcut.1, hcut.2⟩

theorem text_injective : Function.Injective text := by
  intro x y h
  rcases decimal_dot_inj h with ⟨h₁, h⟩
  rcases decimal_dot_inj h with ⟨h₂, h⟩
  rcases decimal_dot_inj h with ⟨h₃, h₄⟩
  exact ext_toNat h₁ h₂ h₃ (decimal_injective h₄)

theorem splitOn_text (x : Inet4) : x.text.splitOn '.' =
    [decimal x.o₁.toNat, decimal x.o₂.toNat, decimal x.o₃.toNat, decimal x.o₄.toNat] := by
  have hdot : ∀ k : Nat, '.' ∉ decimal k := by
    intro k hmem
    exact absurd (isDigit_of_mem_decimal hmem) (by decide)
  have hjoin : x.text = ['.'].intercalate
      [decimal x.o₁.toNat, decimal x.o₂.toNat, decimal x.o₃.toNat, decimal x.o₄.toNat] := by
    simp [text, List.intercalate, List.intersperse]
  rw [hjoin]
  refine List.splitOn_intercalate '.' ?_ (List.cons_ne_nil _ _)
  intro l hl
  simp only [List.mem_cons, List.not_mem_nil, or_false] at hl
  rcases hl with rfl | rfl | rfl | rfl <;> exact hdot _

/-- It is made of digits and dots. -/
theorem mem_text {x : Inet4} {c : Char} (h : c ∈ x.text) : c = '.' ∨ c.isDigit = true := by
  simp only [text, List.mem_append, List.mem_cons] at h
  rcases h with h | h | h | h | h | h | h
  · exact .inr (isDigit_of_mem_decimal h)
  · exact .inl h
  · exact .inr (isDigit_of_mem_decimal h)
  · exact .inl h
  · exact .inr (isDigit_of_mem_decimal h)
  · exact .inl h
  · exact .inr (isDigit_of_mem_decimal h)

theorem slash_notMem_text (x : Inet4) : '/' ∉ x.text := by
  intro h
  rcases mem_text h with hdot | hdigit
  · exact absurd hdot (by decide)
  · exact absurd hdigit (by decide)

end Inet4

/-! ## Networks -/

structure Net where
  address : Inet4
  length : Fin 33
deriving DecidableEq, Repr

namespace Net

/-- The address begins with the bits of the network. -/
def Contains (n : Net) (x : Inet4) : Prop :=
  x.toNat / 2 ^ (32 - n.length.val) = n.address.toNat / 2 ^ (32 - n.length.val)

instance (n : Net) (x : Inet4) : Decidable (n.Contains x) := inferInstanceAs (Decidable (_ = _))

/-- The first address. -/
def first (n : Net) : Inet4 :=
  .ofNat (n.address.toNat / 2 ^ (32 - n.length.val) * 2 ^ (32 - n.length.val))

/-- The notation with a slash. -/
def text (n : Net) : Str := n.first.text ++ '/' :: decimal n.length.val

/-- The 256 addresses around one. -/
def around (x : Inet4) : Net := ⟨x, 24⟩

theorem text_inj {m n : Net} : m.text = n.text ↔ m.first = n.first ∧ m.length = n.length := by
  constructor
  · intro h
    have hcut := congrArg (cutAt '/') h
    rw [text, text, cutAt_append m.first.slash_notMem_text,
      cutAt_append n.first.slash_notMem_text] at hcut
    simp only [Prod.mk.injEq, Option.some.injEq] at hcut
    exact ⟨Inet4.text_injective hcut.1, Fin.ext (decimal_injective hcut.2)⟩
  · rintro ⟨h₁, h₂⟩
    rw [text, text, h₁, h₂]

@[simp] theorem contains_address (n : Net) : n.Contains n.address := rfl

theorem around_contains_iff {x y : Inet4} :
    (around x).Contains y ↔ y.o₁ = x.o₁ ∧ y.o₂ = x.o₂ ∧ y.o₃ = x.o₃ := by
  have hx₂ := x.o₂.toNat_lt
  have hx₃ := x.o₃.toNat_lt
  have hx₄ := x.o₄.toNat_lt
  have hy₂ := y.o₂.toNat_lt
  have hy₃ := y.o₃.toNat_lt
  have hy₄ := y.o₄.toNat_lt
  have hlength : 2 ^ (32 - (24 : Fin 33).val) = 256 := by decide
  simp only [Contains, around, hlength, Inet4.toNat, ← UInt8.toNat_inj]
  omega

theorem first_around (x : Inet4) : (around x).first = { x with o₄ := 0 } := by
  have h₁ := x.o₁.toNat_lt
  have h₂ := x.o₂.toNat_lt
  have h₃ := x.o₃.toNat_lt
  have h₄ := x.o₄.toNat_lt
  have hlength : 2 ^ (32 - (24 : Fin 33).val) = 256 := by decide
  apply Inet4.ext_toNat <;>
    simp only [first, around, hlength, Inet4.toNat, Inet4.ofNat, UInt8.toNat_ofNat',
      UInt8.toNat_zero] <;> omega

theorem text_around (x : Inet4) :
    (around x).text = Inet4.text { x with o₄ := 0 } ++ '/' :: decimal 24 := by
  rw [text, first_around]
  rfl

/-- A network is written like the one around `x` when it is that network. -/
theorem text_eq_around_iff {n : Net} {x : Inet4} :
    n.text = (around x).text ↔ n.length = 24 ∧ n.Contains x := by
  rw [text_inj, first_around, and_comm]
  refine and_congr_right ?_
  intro hlength
  obtain ⟨a, l⟩ := n
  obtain rfl : l = 24 := hlength
  show (around a).first = _ ↔ (around a).Contains x
  rw [first_around, around_contains_iff]
  simp only [Inet4.mk.injEq]
  constructor
  · rintro ⟨h₁, h₂, h₃, -⟩
    exact ⟨h₁.symm, h₂.symm, h₃.symm⟩
  · rintro ⟨h₁, h₂, h₃⟩
    exact ⟨h₁.symm, h₂.symm, h₃.symm, trivial⟩

end Net

end HomeTier.Lib
