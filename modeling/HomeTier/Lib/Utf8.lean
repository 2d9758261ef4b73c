import Mathlib.Data.List.Basic
import HomeTier.Lib.Text

/-! # Reading bytes that may not be UTF-8

`String::from_utf8_lossy` replaces each invalid sequence by one U+FFFD. A
sequence reaches as far as its bytes could still begin the encoding of a
character (the maximal subpart of the Unicode standard), and at least one byte.

A text whose encoding is cut after some byte is read as an initial part of the
text, with one U+FFFD at the end when the cut is inside a character
(`fromUtf8Lossy_of_prefix`).
-/

namespace HomeTier.Lib

/-- U+FFFD -/
def replacementChar : Char := '\uFFFD'

/-- For the first byte of an encoding: how many bytes follow, and the range of
the next one. -/
def leadByte (b : Nat) : Option (Nat × Nat × Nat) :=
  if b < 0x80 then some (0, 0x80, 0xBF)
  else if b < 0xC2 then none
  else if b < 0xE0 then some (1, 0x80, 0xBF)
  else if b = 0xE0 then some (2, 0xA0, 0xBF)
  else if b = 0xED then some (2, 0x80, 0x9F)
  else if b < 0xF0 then some (2, 0x80, 0xBF)
  else if b = 0xF0 then some (3, 0x90, 0xBF)
  else if b < 0xF4 then some (3, 0x80, 0xBF)
  else if b = 0xF4 then some (3, 0x80, 0x8F)
  else none

/-- How many of the bytes that must follow are there; only the first has a range
of its own. -/
def followers : Nat → Nat → Nat → Bytes → Nat
  | 0, _, _, _ => 0
  | _ + 1, _, _, [] => 0
  | n + 1, lo, hi, b :: bs =>
    if lo ≤ b.toNat ∧ b.toNat ≤ hi then followers n 0x80 0xBF bs + 1 else 0

/-- Bytes after the first one that the sequence at `b` reaches over. -/
def reach (b : UInt8) (rest : Bytes) : Nat :=
  match leadByte b.toNat with
  | none => 0
  | some (n, lo, hi) => followers n lo hi rest

/-- The text from the byte on that comes after `skip` others. -/
def lossyFrom : Nat → Bytes → Str
  | _, [] => []
  | skip + 1, _ :: rest => lossyFrom skip rest
  | 0, b :: rest =>
    (fromUtf8 (b :: rest.take (reach b rest))).getD [replacementChar] ++
      lossyFrom (reach b rest) rest

/-- `String::from_utf8_lossy` -/
def fromUtf8Lossy (b : Bytes) : Str := lossyFrom 0 b

theorem lossyFrom_eq (skip : Nat) (b : Bytes) : lossyFrom skip b = fromUtf8Lossy (b.drop skip) := by
  induction b generalizing skip with
  | nil => cases skip <;> rfl
  | cons x b ih =>
    cases skip with
    | zero => rfl
    | succ skip => exact ih skip

/-! ## Encodings of characters -/

/-- The bytes after the first one: the next in its own range, the others in the common one. -/
inductive Tail : Nat → Nat → Bytes → Prop
  | nil {lo hi : Nat} : Tail lo hi []
  | cons {lo hi : Nat} {b : UInt8} {bs : Bytes} :
      lo ≤ b.toNat → b.toNat ≤ hi → Tail 0x80 0xBF bs → Tail lo hi (b :: bs)

theorem followers_append {lo hi : Nat} {bs : Bytes} (h : Tail lo hi bs) (rest : Bytes) :
    followers bs.length lo hi (bs ++ rest) = bs.length := by
  induction h with
  | nil => rfl
  | cons hlo hhi _ ih => simp [followers, hlo, hhi, ih]

/-- Of the bytes that must follow, those before a cut. -/
theorem followers_take {lo hi n : Nat} {bs : Bytes} (h : Tail lo hi bs) (k : Nat)
    (hn : bs.length ≤ n) (hk : k ≤ bs.length) : followers n lo hi (bs.take k) = k := by
  induction h generalizing n k with
  | nil =>
    obtain rfl : k = 0 := by simpa using hk
    cases n <;> rfl
  | @cons lo hi b bs hlo hhi _ ih =>
    cases k with
    | zero => cases n <;> rfl
    | succ k =>
      cases n with
      | zero => simp at hn
      | succ n =>
        rw [List.length_cons] at hn hk
        have hrec := ih (n := n) k (by omega) (by omega)
        simp [followers, hlo, hhi, hrec]

theorem toNat_ofNat_of_lt {n : Nat} (h : n < 256) : (UInt8.ofNat n).toNat = n := by
  rw [UInt8.toNat_ofNat']
  omega

/-- The first byte of an encoding tells its length and the range of the second. -/
theorem utf8EncodeChar_shape (c : Char) :
    ∃ b bs lo hi, String.utf8EncodeChar c = b :: bs ∧
      leadByte b.toNat = some (bs.length, lo, hi) ∧ Tail lo hi bs := by
  have hvalid : c.val.toNat < 0xD800 ∨ (0xDFFF < c.val.toNat ∧ c.val.toNat < 0x110000) := c.valid
  unfold String.utf8EncodeChar
  simp only []
  generalize c.val.toNat = v at hvalid
  -- any six bits make a byte of the common range
  have hsix : ∀ n, 0x80 ≤ (UInt8.ofNat (n % 0x40 + 0x80)).toNat ∧
      (UInt8.ofNat (n % 0x40 + 0x80)).toNat ≤ 0xBF := by
    intro n
    rw [toNat_ofNat_of_lt (by omega)]
    omega
  split_ifs with h1 h2 h3
  · refine ⟨_, _, 0x80, 0xBF, rfl, ?_, .nil⟩
    rw [toNat_ofNat_of_lt (by omega), leadByte, if_pos (by omega)]
    rfl
  · refine ⟨_, _, 0x80, 0xBF, rfl, ?_, .cons (hsix v).1 (hsix v).2 .nil⟩
    rw [toNat_ofNat_of_lt (by omega), leadByte, if_neg (by omega), if_neg (by omega),
      if_pos (by omega)]
    rfl
  · have hlead : v / 4096 % 16 + 0xE0 < 256 := by omega
    have hsecond : (UInt8.ofNat (v / 64 % 0x40 + 0x80)).toNat = v / 64 % 0x40 + 0x80 :=
      toNat_ofNat_of_lt (by omega)
    -- overlong forms and surrogates are excluded by the range of the second byte
    by_cases he0 : v / 4096 = 0
    · refine ⟨_, _, 0xA0, 0xBF, rfl, ?_, .cons ?_ ?_ (.cons (hsix v).1 (hsix v).2 .nil)⟩
      · rw [toNat_ofNat_of_lt hlead, he0]
        rfl
      · rw [hsecond]; omega
      · rw [hsecond]; omega
    · by_cases hed : v / 4096 = 13
      · refine ⟨_, _, 0x80, 0x9F, rfl, ?_, .cons ?_ ?_ (.cons (hsix v).1 (hsix v).2 .nil)⟩
        · rw [toNat_ofNat_of_lt hlead, hed]
          rfl
        · rw [hsecond]; omega
        · rw [hsecond]; omega
      · refine ⟨_, _, 0x80, 0xBF, rfl, ?_,
          .cons (hsix (v / 64)).1 (hsix (v / 64)).2 (.cons (hsix v).1 (hsix v).2 .nil)⟩
        rw [toNat_ofNat_of_lt hlead, leadByte, if_neg (by omega), if_neg (by omega),
          if_neg (by omega), if_neg (by omega), if_neg (by omega), if_pos (by omega)]
        rfl
  · have hlead : v / 262144 % 8 + 0xF0 < 256 := by omega
    have hsecond : (UInt8.ofNat (v / 4096 % 0x40 + 0x80)).toNat = v / 4096 % 0x40 + 0x80 :=
      toNat_ofNat_of_lt (by omega)
    have htail : Tail 0x80 0xBF [UInt8.ofNat (v / 64 % 0x40 + 0x80), UInt8.ofNat (v % 0x40 + 0x80)] :=
      .cons (hsix (v / 64)).1 (hsix (v / 64)).2 (.cons (hsix v).1 (hsix v).2 .nil)
    by_cases hf0 : v / 262144 = 0
    · refine ⟨_, _, 0x90, 0xBF, rfl, ?_, .cons ?_ ?_ htail⟩
      · rw [toNat_ofNat_of_lt hlead, hf0]
        rfl
      · rw [hsecond]; omega
      · rw [hsecond]; omega
    · by_cases hf4 : v / 262144 = 4
      · refine ⟨_, _, 0x80, 0x8F, rfl, ?_, .cons ?_ ?_ htail⟩
        · rw [toNat_ofNat_of_lt hlead, hf4]
          rfl
        · rw [hsecond]; omega
        · rw [hsecond]; omega
      · refine ⟨_, _, 0x80, 0xBF, rfl, ?_, .cons (hsix (v / 4096)).1 (hsix (v / 4096)).2 htail⟩
        rw [toNat_ofNat_of_lt hlead, leadByte, if_neg (by omega), if_neg (by omega),
          if_neg (by omega), if_neg (by omega), if_neg (by omega), if_neg (by omega),
          if_neg (by omega), if_pos (by omega)]
        rfl

/-- Only the bytes of longer encodings are above the ASCII range. -/
theorem eq_of_mem_utf8EncodeChar {b : UInt8} {c : Char} (hb : b.toNat < 0x80)
    (h : b ∈ String.utf8EncodeChar c) : c = Char.ofNat b.toNat := by
  have hvalid : c.val.toNat < 0xD800 ∨ (0xDFFF < c.val.toNat ∧ c.val.toNat < 0x110000) := c.valid
  unfold String.utf8EncodeChar at h
  simp only [] at h
  rw [← Char.ofNat_toNat c]
  congr 1
  show c.val.toNat = b.toNat
  generalize c.val.toNat = v at h hvalid
  have hbyte : ∀ n, 0x80 ≤ n → n < 0x100 → b ≠ UInt8.ofNat n := by
    intro n hlo hhi heq
    rw [heq, toNat_ofNat_of_lt hhi] at hb
    omega
  split_ifs at h with h1 h2 h3
  · obtain rfl := List.mem_singleton.1 h
    rw [toNat_ofNat_of_lt (by omega)]
  all_goals
    exfalso
    simp only [List.mem_cons, List.not_mem_nil, or_false] at h
  · rcases h with h | h
    · exact hbyte _ (by omega) (by omega) h
    · exact hbyte _ (by omega) (by omega) h
  · rcases h with h | h | h
    · exact hbyte _ (by omega) (by omega) h
    · exact hbyte _ (by omega) (by omega) h
    · exact hbyte _ (by omega) (by omega) h
  · rcases h with h | h | h | h
    · exact hbyte _ (by omega) (by omega) h
    · exact hbyte _ (by omega) (by omega) h
    · exact hbyte _ (by omega) (by omega) h
    · exact hbyte _ (by omega) (by omega) h

theorem notMem_utf8 {b : UInt8} {s : Str} (hb : b.toNat < 0x80) (h : Char.ofNat b.toNat ∉ s) :
    b ∉ utf8 s := by
  intro hmem
  rcases List.mem_flatMap.1 hmem with ⟨c, hc, hmem⟩
  obtain rfl := eq_of_mem_utf8EncodeChar hb hmem
  exact h hc

/-- The sequence at an encoding reaches over the encoding and no further. -/
theorem reach_encode {c : Char} {b : UInt8} {bs : Bytes} (h : String.utf8EncodeChar c = b :: bs)
    (rest : Bytes) : reach b (bs ++ rest) = bs.length := by
  rcases utf8EncodeChar_shape c with ⟨b', bs', lo, hi, hshape, hlead, htail⟩
  rw [h] at hshape
  obtain ⟨rfl, rfl⟩ := List.cons.inj hshape
  rw [reach, hlead]
  exact followers_append htail rest

/-- The sequence at an encoding that is cut reaches to the cut. -/
theorem reach_cut {c : Char} {b : UInt8} {bs : Bytes} (h : String.utf8EncodeChar c = b :: bs)
    {k : Nat} (hk : k ≤ bs.length) : reach b (bs.take k) = k := by
  rcases utf8EncodeChar_shape c with ⟨b', bs', lo, hi, hshape, hlead, htail⟩
  rw [h] at hshape
  obtain ⟨rfl, rfl⟩ := List.cons.inj hshape
  rw [reach, hlead]
  exact followers_take htail k le_rfl hk

/-! ## Lossy reading of encodings -/

theorem fromUtf8_encodeChar (c : Char) : fromUtf8 (String.utf8EncodeChar c) = some [c] := by
  rw [fromUtf8_eq_some]
  simp [utf8]

theorem fromUtf8Lossy_encodeChar_append (c : Char) (rest : Bytes) :
    fromUtf8Lossy (String.utf8EncodeChar c ++ rest) = c :: fromUtf8Lossy rest := by
  obtain ⟨b, bs, hb⟩ := List.exists_cons_of_ne_nil (String.utf8EncodeChar_ne_nil (c := c))
  have hread : fromUtf8 (b :: bs) = some [c] := hb ▸ fromUtf8_encodeChar c
  rw [hb, List.cons_append, fromUtf8Lossy, lossyFrom, reach_encode hb, lossyFrom_eq,
    List.take_left, List.drop_left, hread]
  rfl

/-- No encoding is cut to another text's encoding. -/
theorem fromUtf8_cut {c : Char} {b : UInt8} {bs : Bytes} (h : String.utf8EncodeChar c = b :: bs)
    {k : Nat} (hk : k < bs.length) : fromUtf8 (b :: bs.take k) = none := by
  cases hread : fromUtf8 (b :: bs.take k) with
  | none => rfl
  | some s =>
    rw [fromUtf8_eq_some] at hread
    cases s with
    | nil => simp [utf8] at hread
    | cons d s =>
      -- `d` would end where the first byte says that `c` goes on
      obtain ⟨b', bs', hd⟩ := List.exists_cons_of_ne_nil (String.utf8EncodeChar_ne_nil (c := d))
      have hcut : b' :: (bs' ++ utf8 s) = b :: bs.take k := by
        simpa [utf8, hd] using hread
      obtain ⟨rfl, htake⟩ := List.cons.inj hcut
      have hlong : bs = bs' ++ (utf8 s ++ bs.drop k) := by
        rw [← List.append_assoc, htake, List.take_append_drop]
      have h1 : reach b' bs = bs'.length := by
        rw [hlong]
        exact reach_encode hd _
      have h2 : reach b' bs = bs.length := by
        simpa using reach_encode h []
      have h3 : bs'.length ≤ k := by
        have := congrArg List.length htake
        rw [List.length_append, List.length_take] at this
        omega
      omega

theorem fromUtf8Lossy_cut {c : Char} {p : Bytes} (hp : p <+: String.utf8EncodeChar c)
    (hne : p ≠ []) (hcut : p ≠ String.utf8EncodeChar c) : fromUtf8Lossy p = [replacementChar] := by
  obtain ⟨b, bs, hb⟩ := List.exists_cons_of_ne_nil (String.utf8EncodeChar_ne_nil (c := c))
  rw [hb] at hp hcut
  cases p with
  | nil => exact absurd rfl hne
  | cons x p =>
    rw [List.cons_prefix_cons] at hp
    obtain ⟨rfl, hp⟩ := hp
    have htake : bs.take p.length = p := (List.prefix_iff_eq_take.1 hp).symm
    have hlt : p.length < bs.length := by
      rcases Nat.lt_or_ge p.length bs.length with hlt | hge
      · exact hlt
      · exact absurd (by rw [hp.eq_of_length_le hge]) hcut
    have hreach : reach x p = p.length := by
      rw [← htake]
      simpa [htake] using reach_cut hb (Nat.le_of_lt hlt)
    have hread : fromUtf8 (x :: p) = none := by
      rw [← htake]
      exact fromUtf8_cut hb hlt
    rw [fromUtf8Lossy, lossyFrom, hreach, List.take_length, hread, lossyFrom_eq, List.drop_length]
    rfl

@[simp] theorem fromUtf8Lossy_nil : fromUtf8Lossy [] = [] := rfl

theorem utf8_cons (c : Char) (s : Str) : utf8 (c :: s) = String.utf8EncodeChar c ++ utf8 s := by
  simp [utf8]

theorem utf8_append (s t : Str) : utf8 (s ++ t) = utf8 s ++ utf8 t := by
  simp [utf8]

theorem fromUtf8Lossy_utf8 (s : Str) : fromUtf8Lossy (utf8 s) = s := by
  induction s with
  | nil => rfl
  | cons c s ih => rw [utf8_cons, fromUtf8Lossy_encodeChar_append, ih]

/-- What is read of a text whose encoding is cut: the characters before the cut,
and U+FFFD for the one inside it. -/
theorem fromUtf8Lossy_of_prefix {s : Str} {p : Bytes} (hp : p <+: utf8 s) (hcut : p ≠ utf8 s) :
    ∃ t, t <+: s ∧ t ≠ s ∧
      (fromUtf8Lossy p = t ∨ fromUtf8Lossy p = t ++ [replacementChar]) := by
  induction s generalizing p with
  | nil => exact absurd (List.prefix_nil.1 hp) hcut
  | cons c s ih =>
    rw [utf8_cons] at hp hcut
    by_cases hin : String.utf8EncodeChar c <+: p
    · -- the cut is after the first character
      rcases hin with ⟨q, rfl⟩
      have hq : q <+: utf8 s := (List.prefix_append_right_inj _).1 hp
      have hqcut : q ≠ utf8 s := by
        rintro rfl
        exact hcut rfl
      rcases ih hq hqcut with ⟨t, ht, hts, hread⟩
      refine ⟨c :: t, List.cons_prefix_cons.2 ⟨rfl, ht⟩, by simpa using hts, ?_⟩
      rw [fromUtf8Lossy_encodeChar_append]
      rcases hread with hread | hread
      · exact Or.inl (by rw [hread])
      · exact Or.inr (by rw [hread]; rfl)
    · refine ⟨[], List.nil_prefix, by simp, ?_⟩
      by_cases hnil : p = []
      · exact Or.inl (by rw [hnil]; rfl)
      · have hpre : p <+: String.utf8EncodeChar c := by
          rcases List.prefix_or_prefix_of_prefix hp (List.prefix_append _ (utf8 s)) with h | h
          · exact h
          · exact absurd h hin
        have hne : p ≠ String.utf8EncodeChar c := by
          rintro rfl
          exact hin (List.prefix_refl _)
        exact Or.inr (fromUtf8Lossy_cut hpre hnil hne)

end HomeTier.Lib
