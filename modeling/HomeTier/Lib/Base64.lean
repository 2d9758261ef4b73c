import HomeTier.Lib.Codec

/-! # Base64 with padding

The standard alphabet, padded to groups of four characters. It is read strictly:
all padding has to be there and no bits may be left over. So the decoder inverts
the encoder (`base64Decode_encode`).
-/

namespace HomeTier.Lib

/-- The alphabets differ in two characters. -/
def standardChar (c : Char) : Char := if c = '-' then '+' else if c = '_' then '/' else c

def urlChar (c : Char) : Option Char :=
  if c = '+' then some '-' else if c = '/' then some '_'
  else if c = '-' ∨ c = '_' then none else some c

def padding (n : Nat) : Str := List.replicate ((4 - n % 4) % 4) '='

def base64Encode (bs : Bytes) : Str :=
  let text := (base64UrlEncode bs).map standardChar
  text ++ padding text.length

def base64Decode (s : Str) : Option Bytes :=
  let text := s.rdropWhile (· = '=')
  if s.length % 4 ≠ 0 ∨ text.length + 2 < s.length then none
  else (text.mapM urlChar).bind base64UrlDecode

theorem urlChar_standardChar : ∀ c ∈ base64UrlAlphabet, urlChar (standardChar c) = some c := by
  have hall : base64UrlAlphabet.all (fun c => decide (urlChar (standardChar c) = some c)) = true :=
    rfl
  intro c hc
  exact of_decide_eq_true (List.all_eq_true.1 hall c hc)

theorem standardChar_ne_pad : ∀ c ∈ base64UrlAlphabet, standardChar c ≠ '=' := by
  have hall : base64UrlAlphabet.all (fun c => decide (standardChar c ≠ '=')) = true := rfl
  intro c hc
  exact of_decide_eq_true (List.all_eq_true.1 hall c hc)

theorem mapM_urlChar {s : Str} (h : ∀ c ∈ s, c ∈ base64UrlAlphabet) :
    (s.map standardChar).mapM urlChar = some s := by
  induction s with
  | nil => rfl
  | cons c s ih =>
    rw [List.forall_mem_cons] at h
    simp [urlChar_standardChar c h.1, ih h.2]

/-- A last group has two characters at least. -/
theorem length_base64UrlEncode (bs : Bytes) : (base64UrlEncode bs).length % 4 ≠ 1 := by
  induction bs using base64UrlEncode.induct with
  | case1 => simp [base64UrlEncode]
  | case2 a => simp [base64UrlEncode]
  | case3 a b => simp [base64UrlEncode]
  | case4 a b c rest ih =>
    simp only [base64UrlEncode, List.length_cons]
    omega

/-- Taking the padding away leaves the text. -/
theorem rdropWhile_padding {s : Str} (h : ∀ c ∈ s, c ≠ '=') (n : Nat) :
    (s ++ padding n).rdropWhile (· = '=') = s := by
  have hpad : ∀ k, (s ++ List.replicate k '=').rdropWhile (· = '=') = s := by
    intro k
    induction k with
    | zero =>
      rw [List.replicate_zero, List.append_nil, List.rdropWhile_eq_self_iff]
      intro hne
      simpa using h _ (List.getLast_mem hne)
    | succ k ih =>
      rw [List.replicate_succ', ← List.append_assoc, List.rdropWhile_concat_pos _ _ _ (by simp)]
      exact ih
  exact hpad _

theorem base64Decode_encode (bs : Bytes) : base64Decode (base64Encode bs) = some bs := by
  have halphabet := mem_alphabet_of_mem_encode bs
  have hne : ∀ c ∈ (base64UrlEncode bs).map standardChar, c ≠ '=' := by
    intro c hc
    rcases List.mem_map.1 hc with ⟨d, hd, rfl⟩
    exact standardChar_ne_pad d (halphabet d hd)
  have hlast := length_base64UrlEncode bs
  have hlength : (base64Encode bs).length =
      (base64UrlEncode bs).length + (4 - (base64UrlEncode bs).length % 4) % 4 := by
    simp [base64Encode, padding]
  have hfits : ¬ ((base64Encode bs).length % 4 ≠ 0 ∨
      ((base64UrlEncode bs).map standardChar).length + 2 < (base64Encode bs).length) := by
    rw [hlength, List.length_map]
    omega
  have htext : (base64Encode bs).rdropWhile (· = '=') = (base64UrlEncode bs).map standardChar :=
    rdropWhile_padding hne _
  simp only [base64Decode, htext]
  rw [if_neg hfits, mapM_urlChar halphabet, Option.bind_some, base64UrlDecode_encode]

end HomeTier.Lib
