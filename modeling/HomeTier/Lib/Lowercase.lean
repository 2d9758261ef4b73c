import Mathlib.Algebra.GroupWithZero.Nat
import HomeTier.Lib.Utf8

/-! # Texts in lower case

Lower case of a text character by character, where a character outside ASCII may
have a form of another length: every form is not empty, and of ASCII it holds only
the letters that come of the dotted capital I and the Kelvin sign
(`LowerForm`). A search for an ASCII text without these letters finds in the lower
case the place it finds in the text in any case, and the bytes before it are the
bytes of the forms (`Lowered.splitOnce_eq`).
-/

namespace HomeTier.Lib

def LowerForm (c : Char) (form : Str) : Prop :=
  if c.toNat < 128 then form = [c.toLower]
  else form ≠ [] ∧ ∀ d ∈ form, 128 ≤ d.toNat ∨ d = 'i' ∨ d = 'k'

/-- The second text is the first in lower case; `width` are the bytes of a form. -/
inductive Lowered (width : Char → Nat) : Str → Str → Prop
  | nil : Lowered width [] []
  | cons {c : Char} {form s t : Str} (hform : LowerForm c form)
    (hwidth : (utf8 form).length = width c) (h : Lowered width s t) :
    Lowered width (c :: s) (form ++ t)

/-- Bytes of a text in lower case. -/
def lowerBytes (width : Char → Nat) (s : Str) : Nat := (s.map width).sum

/-- Around the first occurrence in any case, with the occurrence. -/
def splitIgnoreCase (pat : Str) : Str → Option (Str × Str × Str)
  | [] => none
  | c :: s =>
    if ((c :: s).take pat.length).map Char.toLower = pat then
      some ([], (c :: s).take pat.length, (c :: s).drop pat.length)
    else (splitIgnoreCase pat s).map fun x => (c :: x.1, x.2)

/-- ASCII, and none of the letters that come of other characters. -/
def isPlain (d : Char) : Bool := d.toNat < 128 && d != 'i' && d != 'k'

abbrev Plain (pat : Str) : Prop := pat.all isPlain = true

theorem isPlain_iff {d : Char} : isPlain d = true ↔ d.toNat < 128 ∧ d ≠ 'i' ∧ d ≠ 'k' := by
  simp [isPlain, and_assoc]

theorem splitIgnoreCase_eq_some {pat s a p b : Str} (h : splitIgnoreCase pat s = some (a, p, b)) :
    s = a ++ p ++ b ∧ p.map Char.toLower = pat := by
  induction s generalizing a with
  | nil => cases h
  | cons c s ih =>
    unfold splitIgnoreCase at h
    split at h
    · rename_i hpat
      obtain ⟨rfl, hp, rfl⟩ : a = [] ∧ p = (c :: s).take pat.length ∧
          b = (c :: s).drop pat.length := by simpa [eq_comm] using h
      rw [hp, List.nil_append, List.take_append_drop]
      exact ⟨rfl, hpat⟩
    · rcases Option.map_eq_some_iff.1 h with ⟨⟨a', p', b'⟩, hrec, heq⟩
      obtain ⟨rfl, rfl, rfl⟩ : a = c :: a' ∧ p = p' ∧ b = b' := by simpa [eq_comm] using heq
      rcases ih hrec with ⟨rfl, hp⟩
      exact ⟨rfl, hp⟩

/-- What follows does not move the first occurrence. -/
theorem splitIgnoreCase_append {pat s a p b : Str} (h : splitIgnoreCase pat s = some (a, p, b))
    (t : Str) : splitIgnoreCase pat (s ++ t) = some (a, p, b ++ t) := by
  induction s generalizing a with
  | nil => cases h
  | cons c s ih =>
    have hcut := splitIgnoreCase_eq_some h
    have hlen : pat.length ≤ (c :: s).length := by
      rw [hcut.1, ← hcut.2]
      simp only [List.length_append, List.length_map]
      omega
    rw [List.cons_append, splitIgnoreCase, ← List.cons_append,
      List.take_append_of_le_length hlen, List.drop_append_of_le_length hlen]
    unfold splitIgnoreCase at h
    split at h
    · rename_i hpat
      obtain ⟨rfl, rfl, rfl⟩ : a = [] ∧ p = (c :: s).take pat.length ∧
          b = (c :: s).drop pat.length := by simpa [eq_comm] using h
      rw [if_pos hpat]
    · rename_i hpat
      rcases Option.map_eq_some_iff.1 h with ⟨⟨a', p', b'⟩, hrec, heq⟩
      obtain ⟨rfl, rfl, rfl⟩ : a = c :: a' ∧ p = p' ∧ b = b' := by simpa [eq_comm] using heq
      rw [if_neg hpat, ih hrec]
      rfl

theorem exists_splitIgnoreCase {pat u m : Str} (hne : pat ≠ []) (hm : m.map Char.toLower = pat)
    (v : Str) : ∃ a p b, splitIgnoreCase pat (u ++ m ++ v) = some (a, p, b ++ v) := by
  have hfound : ∃ a p b, splitIgnoreCase pat (u ++ m) = some (a, p, b) := by
    induction u with
    | nil =>
      have hlen : m.length = pat.length := by rw [← hm, List.length_map]
      cases m with
      | nil => exact absurd hm.symm hne
      | cons c m =>
        have htake : (c :: m).take pat.length = c :: m := List.take_of_length_le (Nat.le_of_eq hlen)
        rw [List.nil_append, splitIgnoreCase, htake, if_pos hm]
        exact ⟨_, _, _, rfl⟩
    | cons c u ih =>
      rcases ih with ⟨a, p, b, hrec⟩
      rw [List.cons_append, splitIgnoreCase, hrec]
      split <;> exact ⟨_, _, _, rfl⟩
  rcases hfound with ⟨a, p, b, h⟩
  exact ⟨a, p, b, splitIgnoreCase_append h v⟩

theorem lowerBytes_append (width : Char → Nat) (s t : Str) :
    lowerBytes width (s ++ t) = lowerBytes width s + lowerBytes width t := by
  simp [lowerBytes]

section Search

variable {width : Char → Nat} {s low : Str}

theorem Lowered.of_append {t : Str} (h : Lowered width (s ++ t) low) :
    ∃ ls lt, low = ls ++ lt ∧ Lowered width s ls ∧ Lowered width t lt := by
  induction s generalizing low with
  | nil => exact ⟨[], low, rfl, .nil, h⟩
  | cons c s ih =>
    cases h with
    | @cons _ form _ low hform hwidth h =>
      rcases ih h with ⟨ls, lt, rfl, hs, ht⟩
      exact ⟨form ++ ls, lt, by simp, .cons hform hwidth hs, ht⟩

theorem Lowered.of_ascii (hascii : ∀ c ∈ s, c.toNat < 128) (h : Lowered width s low) :
    low = s.map Char.toLower := by
  induction h with
  | nil => rfl
  | cons hform hwidth h ih =>
    rw [List.forall_mem_cons] at hascii
    rw [LowerForm, if_pos hascii.1] at hform
    rw [hform, ih hascii.2]
    rfl

theorem Lowered.length_utf8 (h : Lowered width s low) : (utf8 low).length = lowerBytes width s := by
  induction h with
  | nil => rfl
  | cons hform hwidth h ih =>
    rw [utf8_append, List.length_append, hwidth, ih]
    simp [lowerBytes]

theorem splitOnce_cons_of_not_prefix {pat : Str} {c : Char} {t : Str} (h : ¬ pat <+: c :: t) :
    splitOnce pat (c :: t) = (splitOnce pat t).map fun x => (c :: x.1, x.2) := by
  have hdrop : (c :: t).dropPrefix? pat = none := by
    rw [Option.eq_none_iff_forall_ne_some]
    intro rest hrest
    rcases List.dropPrefix?_eq_some_iff.1 hrest with ⟨front, heq, hfront⟩
    obtain rfl : front = pat := by simpa using hfront
    exact h ⟨rest, heq.symm⟩
  simp only [splitOnce, hdrop]

/-- Characters other than its first one are passed over. -/
theorem splitOnce_append_of_notMem {d : Char} {pat form : Str} (h : d ∉ form) (t : Str) :
    splitOnce (d :: pat) (form ++ t) =
      (splitOnce (d :: pat) t).map fun x => (form ++ x.1, x.2) := by
  induction form with
  | nil => simp
  | cons a form ih =>
    rw [List.mem_cons, not_or] at h
    have hno : ¬ d :: pat <+: a :: (form ++ t) := by
      intro hpre
      exact h.1 (List.cons_prefix_cons.1 hpre).1
    rw [List.cons_append, splitOnce_cons_of_not_prefix hno, ih h.2, Option.map_map]
    rfl

theorem toLower_of_not_ascii {c : Char} (h : ¬ c.toNat < 128) : c.toLower = c := by
  have hno : ¬ (c.val ≥ 'A'.val ∧ c.val ≤ 'Z'.val) := by
    rintro ⟨-, hle⟩
    have hle' : c.toNat ≤ 90 := hle
    omega
  exact dif_neg hno

/-- What comes of a character outside ASCII is no plain character. -/
theorem LowerForm.notMem {c d : Char} {form : Str} (hc : ¬ c.toNat < 128)
    (hform : LowerForm c form) (hd : d.toNat < 128 ∧ d ≠ 'i' ∧ d ≠ 'k') :
    form ≠ [] ∧ d ∉ form := by
  rw [LowerForm, if_neg hc] at hform
  refine ⟨hform.1, ?_⟩
  intro hmem
  rcases hform.2 d hmem with hge | hi | hk
  · omega
  · exact hd.2.1 hi
  · exact hd.2.2 hk

/-- A plain text stands at the front of the lower case where it does in the text. -/
theorem Lowered.front {pat : Str} (hpat : Plain pat) (h : Lowered width s low) :
    ((s.take pat.length).map Char.toLower = pat ∧
        ∃ rest, low = pat ++ rest ∧ Lowered width (s.take pat.length) pat ∧
          Lowered width (s.drop pat.length) rest) ∨
      ((s.take pat.length).map Char.toLower ≠ pat ∧ ¬ pat <+: low) := by
  induction pat generalizing s low with
  | nil => exact .inl ⟨rfl, low, rfl, .nil, h⟩
  | cons d pat ih =>
    rw [Plain, List.all_cons, Bool.and_eq_true, isPlain_iff] at hpat
    rcases hpat with ⟨hd, hpat'⟩
    cases h with
    | nil => exact .inr ⟨by simp, by simp⟩
    | @cons c form s low hform hwidth h =>
      by_cases hc : c.toNat < 128
      · rw [LowerForm, if_pos hc] at hform
        subst hform
        by_cases hcd : c.toLower = d
        · subst hcd
          rcases ih hpat' h with ⟨heq, rest, rfl, hfront, hrest⟩ | ⟨hne, hno⟩
          · refine .inl ⟨by simpa using heq, rest, rfl, ?_, hrest⟩
            exact .cons (by rw [LowerForm, if_pos hc]) hwidth hfront
          · exact .inr ⟨by simpa using hne, by simpa using hno⟩
        · exact .inr ⟨by simp [hcd], by simp [Ne.symm hcd]⟩
      · -- the form begins with another character than `d`
        rcases LowerForm.notMem hc hform hd with ⟨hne, hmem⟩
        rcases List.exists_cons_of_ne_nil hne with ⟨e, form', rfl⟩
        rw [List.mem_cons, not_or] at hmem
        refine .inr ⟨?_, by simp [hmem.1]⟩
        rw [List.length_cons, List.take_succ_cons, List.map_cons, toLower_of_not_ascii hc]
        intro heq
        rw [(List.cons.inj heq).1] at hc
        exact hc hd.1

/-- The first occurrence in lower case is the first one in any case. -/
theorem Lowered.splitOnce_eq {d : Char} {pat : Str} (hpat : Plain (d :: pat))
    (h : Lowered width s low) :
    match splitIgnoreCase (d :: pat) s with
    | none => splitOnce (d :: pat) low = none
    | some (a, p, b) => ∃ la lb, splitOnce (d :: pat) low = some (la, lb) ∧
        Lowered width a la ∧ Lowered width p (d :: pat) ∧ Lowered width b lb := by
  induction h with
  | nil => simp [splitIgnoreCase, splitOnce]
  | @cons c form s low hform hwidth h ih =>
    have hfront := (Lowered.cons hform hwidth h).front hpat
    unfold splitIgnoreCase
    rcases hfront with ⟨heq, rest, hlow, hp, hrest⟩ | ⟨hne, hno⟩
    · rw [if_pos heq, hlow]
      have hcut := @splitOnce_append d pat [] List.not_mem_nil rest
      exact ⟨[], rest, hcut, .nil, hp, hrest⟩
    · rw [if_neg hne]
      have hskip : splitOnce (d :: pat) (form ++ low) =
          (splitOnce (d :: pat) low).map fun x => (form ++ x.1, x.2) := by
        by_cases hc : c.toNat < 128
        · rw [LowerForm, if_pos hc] at hform
          subst hform
          exact splitOnce_cons_of_not_prefix hno
        · exact splitOnce_append_of_notMem
            (LowerForm.notMem hc hform
              (isPlain_iff.1 (List.all_eq_true.1 hpat d List.mem_cons_self))).2 low
      rw [hskip]
      cases hsplit : splitIgnoreCase (d :: pat) s with
      | none =>
        rw [hsplit] at ih
        simp [ih]
      | some x =>
        rcases x with ⟨a, p, b⟩
        rw [hsplit] at ih
        rcases ih with ⟨la, lb, hsplit', ha, hp, hb⟩
        exact ⟨form ++ la, lb, by simp [hsplit'], .cons hform hwidth ha, hp, hb⟩

end Search

end HomeTier.Lib
