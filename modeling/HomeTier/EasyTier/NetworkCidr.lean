import HomeTier.EasyTier.ProxyCidrs
import HomeTier.Vpn.LocalNets

/-! # The network of an address, twice

The editor works out the network of the own address with `computeNetworkCidr` of
`src/types/network.ts`, the program with `NetworkConfig::effective_proxy_cidrs` and
`dedupe_proxy_cidrs` (`NetworkConfig.ownCidr`). The first reads the address with
`Number`, the second with the `cidr` crate.

* Both mask alike: `cidrText_eq`.
* They differ on a full-length network, which the crate prints without its length, and
  on an address that only `Number` can read (`network_agree_iff`).
-/

namespace HomeTier.NetworkCidr

open Lib Vpn

/-! ## The editor -/

/-- `Number.isInteger(p) && p >= 0 && p <= 255` -/
def isOctet : Option ℚ → Bool
  | some q => q.den = 1 && 0 ≤ q && q ≤ 255
  | none => false

/-- `Number.isInteger(len) && len > 0 && len <= 32` -/
def isLength : Option ℚ → Bool
  | some q => q.den = 1 && 0 < q && q ≤ 32
  | none => false

/-- A number as the operand of a shift. -/
def toInt32 : Option ℚ → BitVec 32
  | some q => BitVec.ofInt 32 q.num
  | none => 0

/-- The text of a masked address. -/
def cidrText (ipInt : BitVec 32) (length : Nat) : Str :=
  let mask := if length = 32 then 0xFFFFFFFF#32 else 0xFFFFFFFF#32 <<< (32 - length)
  let net := ipInt &&& mask
  let octet (shift : Nat) : Str := decimal ((net >>> shift) &&& 0xFF#32).toNat
  octet 24 ++ '.' :: (octet 16 ++ '.' :: (octet 8 ++ '.' :: octet 0)) ++ '/' :: decimal length

def parts (ip : Str) : List (Option ℚ) := ((jsTrim ip).splitOn '.').map jsNumber

/-- `computeNetworkCidr` -/
def computeNetworkCidr (ip : Str) (networkLength : Option ℚ) : Option Str :=
  if (parts ip).length ≠ 4 ∨ (parts ip).any (fun p => !isOctet p) then none
  else if !isLength networkLength then none
  else
    let part (i : Nat) : BitVec 32 := toInt32 ((parts ip).getD i none)
    let ipInt := part 0 <<< 24 ||| part 1 <<< 16 ||| part 2 <<< 8 ||| part 3
    some (cidrText ipInt ((networkLength.getD 0).num.toNat))

/-- The parts are four octets. -/
def FourOctets (ip : Str) : Prop := (parts ip).length = 4 ∧ ∀ p ∈ parts ip, isOctet p = true

instance (ip : Str) : Decidable (FourOctets ip) := inferInstanceAs (Decidable (_ ∧ _))

/-! ## The program -/

/-- How the network of an address is printed. -/
def networkText (address length : Nat) : Str :=
  let first := Inet4.ofNat (address / 2 ^ (32 - length) * 2 ^ (32 - length))
  if length = 32 then first.text else first.text ++ '/' :: decimal length

/-- Only strict dotted quads are read, and a full-length network is printed without its
length. -/
def StrictInet {Url Inet Cidr Ip Addr : Type} (A : AddrParsers Url Inet Cidr Ip Addr) : Prop :=
  ∀ s n, n ≤ 32 → (A.inet (s ++ '/' :: decimal n)).map A.network = (parseIpv4 s).map (networkText · n)

/-- The length is out of range, the address is a strict dotted quad and the length is
not 32, or the address is not four octets for the editor either. -/
def Agreeing (ip : Str) (length : UInt8) : Prop :=
  length = 0 ∨ 32 < length ∨ ((parseIpv4 ip).isSome = true ∧ length ≠ 32) ∨ ¬ FourOctets ip

instance (ip : Str) (length : UInt8) : Decidable (Agreeing ip length) :=
  inferInstanceAs (Decidable (_ ∨ _))

/-! ## Octets and lengths -/

theorem isOctet_iff {p : Option ℚ} : isOctet p = true ↔ ∃ b : UInt8, p = some (b.toNat : ℚ) := by
  cases p with
  | none => simp [isOctet]
  | some q =>
    simp only [isOctet, Bool.and_eq_true, decide_eq_true_eq, Option.some.injEq]
    constructor
    · rintro ⟨⟨hden, hlow⟩, hhigh⟩
      -- an integer is its numerator
      have hq : (q.num : ℚ) = q := (Rat.den_eq_one_iff q).1 hden
      rw [← hq] at hlow hhigh ⊢
      have hnum : 0 ≤ q.num := by exact_mod_cast hlow
      have hle : q.num ≤ 255 := by exact_mod_cast hhigh
      refine ⟨UInt8.ofNat q.num.toNat, ?_⟩
      have hbyte : (UInt8.ofNat q.num.toNat).toNat = q.num.toNat :=
        UInt8.toNat_ofNat_of_lt' (show q.num.toNat < 256 by omega)
      rw [hbyte]
      exact_mod_cast (Int.toNat_of_nonneg hnum).symm
    · rintro ⟨b, rfl⟩
      have hlt : b.toNat < 256 := b.toNat_lt
      refine ⟨⟨Rat.den_natCast _, Nat.cast_nonneg _⟩, ?_⟩
      exact_mod_cast Nat.le_of_lt_succ hlt

theorem isLength_natCast (n : Nat) : isLength (some (n : ℚ)) = true ↔ 0 < n ∧ n ≤ 32 := by
  simp only [isLength, Bool.and_eq_true, decide_eq_true_eq, Rat.den_natCast, true_and]
  norm_cast

theorem toInt32_natCast (n : Nat) : toInt32 (some (n : ℚ)) = BitVec.ofNat 32 n := by
  show BitVec.ofInt 32 (n : ℚ).num = _
  rw [Rat.num_natCast, BitVec.ofInt_natCast]

/-! ## Masks -/

theorem toNat_and_mask (v : BitVec 32) : (v &&& 0xFF#32).toNat = v.toNat % 256 := by
  rw [BitVec.toNat_and]
  exact Nat.and_two_pow_sub_one_eq_mod v.toNat 8

/-- An octet behind others; they share no bit. -/
theorem shift_or_shift (a k : Nat) {b : Nat} (hb : b < 256) :
    a <<< (8 + k) ||| b <<< k = (a * 256 + b) <<< k := by
  rw [Nat.shiftLeft_add, ← Nat.shiftLeft_or_distrib, ← Nat.shiftLeft_add_eq_or_of_lt hb,
    Nat.shiftLeft_eq a 8]

/-- The shifts put the octets side by side. -/
theorem toNat_join (x : Inet4) :
    (BitVec.ofNat 32 x.o₁.toNat <<< 24 ||| BitVec.ofNat 32 x.o₂.toNat <<< 16 |||
      BitVec.ofNat 32 x.o₃.toNat <<< 8 ||| BitVec.ofNat 32 x.o₄.toNat).toNat = x.toNat := by
  have hshift : ∀ a k : Nat, a < 256 → k ≤ 24 → (BitVec.ofNat 32 a <<< k).toNat = a <<< k := by
    intro a k ha hk
    have hpow : 2 ^ k ≤ 2 ^ 24 := Nat.pow_le_pow_right (by omega) hk
    have hlt : a <<< k < 2 ^ 32 := by
      rw [Nat.shiftLeft_eq]
      nlinarith
    rw [BitVec.toNat_shiftLeft, BitVec.toNat_ofNat, Nat.mod_eq_of_lt (show a < 2 ^ 32 by omega),
      Nat.mod_eq_of_lt hlt]
  have hlast : (BitVec.ofNat 32 x.o₄.toNat).toNat = x.o₄.toNat <<< 0 :=
    Nat.mod_eq_of_lt (x.o₄.toNat_lt.trans (by omega))
  rw [BitVec.toNat_or, BitVec.toNat_or, BitVec.toNat_or, hshift _ 24 x.o₁.toNat_lt (by omega),
    hshift _ 16 x.o₂.toNat_lt (by omega), hshift _ 8 x.o₃.toNat_lt (by omega), hlast,
    shift_or_shift _ 16 x.o₂.toNat_lt, shift_or_shift _ 8 x.o₃.toNat_lt,
    shift_or_shift _ 0 x.o₄.toNat_lt]
  rfl

/-- Masking clears the last bits. -/
theorem toNat_masked (v : BitVec 32) (n : Nat) :
    (v &&& if n = 32 then 0xFFFFFFFF#32 else 0xFFFFFFFF#32 <<< (32 - n)).toNat =
      v.toNat / 2 ^ (32 - n) * 2 ^ (32 - n) := by
  have hmask : (if n = 32 then 0xFFFFFFFF#32 else 0xFFFFFFFF#32 <<< (32 - n)) =
      BitVec.allOnes 32 <<< (32 - n) := by
    split
    · rename_i hfull
      rw [hfull]
      rfl
    · rfl
  have hshifts : v &&& BitVec.allOnes 32 <<< (32 - n) = (v >>> (32 - n)) <<< (32 - n) := by
    apply BitVec.eq_of_getLsbD_eq
    intro i hi
    simp only [BitVec.getLsbD_and, BitVec.getLsbD_shiftLeft, BitVec.getLsbD_ushiftRight,
      BitVec.getLsbD_allOnes]
    by_cases hlow : i < 32 - n
    · simp [hlow]
    · have hback : 32 - n + (i - (32 - n)) = i := by omega
      have hin : i - (32 - n) < 32 := by omega
      simp [hlow, hi, hback, hin]
  have hlt : v.toNat / 2 ^ (32 - n) * 2 ^ (32 - n) < 2 ^ 32 :=
    Nat.lt_of_le_of_lt (Nat.div_mul_le_self _ _) v.isLt
  rw [hmask, hshifts, BitVec.toNat_shiftLeft, BitVec.toNat_ushiftRight, Nat.shiftRight_eq_div_pow,
    Nat.shiftLeft_eq, Nat.mod_eq_of_lt hlt]

/-- The editor writes the first address and the length. -/
theorem cidrText_eq (v : BitVec 32) (n : Nat) :
    cidrText v n = (Inet4.ofNat (v.toNat / 2 ^ (32 - n) * 2 ^ (32 - n))).text ++ '/' :: decimal n := by
  simp only [cidrText, toNat_and_mask, BitVec.toNat_ushiftRight, toNat_masked v n,
    Nat.shiftRight_eq_div_pow, Inet4.text, Inet4.ofNat, UInt8.toNat_ofNat', Nat.pow_zero, Nat.div_one]

/-! ## Where they agree -/

theorem computeNetworkCidr_isSome (ip : Str) (n : Nat) :
    (computeNetworkCidr ip (some (n : ℚ))).isSome = true ↔ FourOctets ip ∧ 0 < n ∧ n ≤ 32 := by
  have hoctets : FourOctets ip ↔
      ¬ ((parts ip).length ≠ 4 ∨ (parts ip).any (fun p => !isOctet p) = true) := by
    simp [FourOctets]
  rw [hoctets, ← isLength_natCast, computeNetworkCidr]
  by_cases hparts : (parts ip).length ≠ 4 ∨ (parts ip).any (fun p => !isOctet p) = true
  · rw [if_pos hparts]
    simp only [hparts, not_true_eq_false, false_and, Option.isSome_none, Bool.false_eq_true]
  · rw [if_neg hparts]
    cases hlength : isLength (some (n : ℚ)) with
    | false => simp
    | true => simp only [hparts, Bool.not_true, Bool.false_eq_true, if_false, Option.isSome_some,
        not_false_eq_true, and_self]

/-- A strict dotted quad is read as its octets. -/
theorem parts_text (x : Inet4) : parts x.text =
    [some (x.o₁.toNat : ℚ), some (x.o₂.toNat : ℚ), some (x.o₃.toNat : ℚ), some (x.o₄.toNat : ℚ)] := by
  have hspace : jsTrim x.text = x.text := by
    apply jsTrim_eq_self
    intro c hc
    rcases Inet4.mem_text hc with rfl | hdigit
    · decide
    · exact isJsSpace_of_isDigit hdigit
  have hread : ∀ b : UInt8, jsNumber (decimal b.toNat) = some (b.toNat : ℚ) := by
    intro b
    have hlt : b.toNat < 256 := b.toNat_lt
    exact jsNumber_decimal (hlt.trans (by norm_num))
  rw [parts, hspace, Inet4.splitOn_text]
  simp only [List.map_cons, List.map_nil, hread]

theorem fourOctets_text (x : Inet4) : FourOctets x.text := by
  rw [FourOctets, parts_text]
  refine ⟨rfl, ?_⟩
  intro p hp
  rw [isOctet_iff]
  simp only [List.mem_cons, List.not_mem_nil, or_false] at hp
  rcases hp with rfl | rfl | rfl | rfl
  · exact ⟨_, rfl⟩
  · exact ⟨_, rfl⟩
  · exact ⟨_, rfl⟩
  · exact ⟨_, rfl⟩

theorem computeNetworkCidr_text (x : Inet4) {n : Nat} (hpos : 0 < n) (hn : n ≤ 32) :
    computeNetworkCidr x.text (some (n : ℚ)) =
      some ((Inet4.ofNat (x.toNat / 2 ^ (32 - n) * 2 ^ (32 - n))).text ++ '/' :: decimal n) := by
  have hlength : isLength (some (n : ℚ)) = true := (isLength_natCast n).2 ⟨hpos, hn⟩
  have hoctets : ¬ ((parts x.text).length ≠ 4 ∨
      (parts x.text).any (fun p => !isOctet p) = true) := by
    have hfour := fourOctets_text x
    rw [FourOctets] at hfour
    simpa using hfour
  rw [computeNetworkCidr, if_neg hoctets, hlength, parts_text]
  simp only [Bool.not_true, Bool.false_eq_true, if_false, List.getD_cons_zero, List.getD_cons_succ,
    toInt32_natCast, Option.getD_some, Rat.num_natCast, Int.toNat_natCast]
  rw [cidrText_eq, toNat_join]

/-- An octet that is read is the decimal notation of its value. -/
theorem decimal_of_readOctet {s : Str} {n : Nat} (h : readOctet s = some n) :
    s = decimal n ∧ n < 256 := by
  rcases readOctet_eq_some h with ⟨hne, -, hdigits, hparse, hlt⟩
  have hzero : s.head? ≠ some '0' ∨ s = ['0'] := by
    unfold readOctet at h
    split at h
    · rename_i hcond
      exact hcond.2
    · cases h
  rw [parseDigits, if_pos ⟨hne, hdigits⟩] at hparse
  obtain rfl := Option.some.inj hparse
  exact ⟨(decimal_ofDigitChars hne (List.all_eq_true.1 hdigits) hzero).symm, hlt⟩

/-- What the address parser reads is the notation of an address. -/
theorem exists_text_of_parseIpv4 {s : Str} {a : Nat} (h : parseIpv4 s = some a) :
    ∃ x : Inet4, s = x.text ∧ a = x.toNat := by
  rcases parseIpv4_eq_some h with ⟨p, q, r, t, k, l, m, n, hsplit, hp, hq, hr, ht, rfl⟩
  rcases decimal_of_readOctet hp with ⟨rfl, hk⟩
  rcases decimal_of_readOctet hq with ⟨rfl, hl⟩
  rcases decimal_of_readOctet hr with ⟨rfl, hm⟩
  rcases decimal_of_readOctet ht with ⟨rfl, hn⟩
  have hbyte : ∀ b : Nat, b < 256 → (UInt8.ofNat b).toNat = b := fun b hb =>
    UInt8.toNat_ofNat_of_lt' hb
  refine ⟨⟨UInt8.ofNat k, UInt8.ofNat l, UInt8.ofNat m, UInt8.ofNat n⟩, ?_, ?_⟩
  · have hjoin : ['.'].intercalate (s.splitOn '.') = s := List.intercalate_splitOn '.'
    rw [← hjoin, hsplit]
    simp [Inet4.text, hbyte, hk, hl, hm, hn, List.intercalate, List.intersperse]
  · simp [Inet4.toNat, hbyte, hk, hl, hm, hn]

section Agreement

variable {Url Inet Cidr Ip Addr : Type} {A : AddrParsers Url Inet Cidr Ip Addr}

theorem ownCidr_eq (hA : StrictInet A) (c : NetworkConfig) : c.ownCidr A =
    if 0 < c.networkLength.toNat ∧ c.networkLength.toNat ≤ 32 then
      (parseIpv4 c.virtualIpv4).map (networkText · c.networkLength.toNat)
    else none := by
  have hrange : (0 < c.networkLength ∧ c.networkLength ≤ 32) ↔
      0 < c.networkLength.toNat ∧ c.networkLength.toNat ≤ 32 := by
    rw [UInt8.lt_iff_toNat_lt, UInt8.le_iff_toNat_le]
    rfl
  simp only [NetworkConfig.ownCidr, hrange]
  by_cases hne : c.virtualIpv4 = []
  · -- the empty text is no address
    rw [if_neg (by simp [hne]), hne, parseIpv4_nil]
    simp
  · by_cases hlength : 0 < c.networkLength.toNat ∧ c.networkLength.toNat ≤ 32
    · rw [if_pos ⟨hne, hlength⟩, if_pos hlength, hA _ _ hlength.2]
    · rw [if_neg (fun h => hlength h.2), if_neg hlength]

/-- Of an address that is read both print the same network, unless it is a full-length
one. -/
theorem agree_of_text (x : Inet4) {n : Nat} (hpos : 0 < n) (hn : n ≤ 32) :
    computeNetworkCidr x.text (some (n : ℚ)) = (parseIpv4 x.text).map (networkText · n) ↔
      n ≠ 32 := by
  rw [computeNetworkCidr_text x hpos hn, parseIpv4_text, Option.map_some, Option.some.injEq,
    networkText]
  split
  · rename_i hfull
    -- a slash follows or not
    simp only [hfull, ne_eq, not_true_eq_false, iff_false]
    intro heq
    have hlength := congrArg List.length heq
    simp only [List.length_append, List.length_cons] at hlength
    omega
  · rename_i hshort
    simp [hshort]

/-- Editor and program give the same network exactly where the address and the length
are agreeing. -/
theorem network_agree_iff (hA : StrictInet A) (c : NetworkConfig) :
    computeNetworkCidr c.virtualIpv4 (some (c.networkLength.toNat : ℚ)) = c.ownCidr A ↔
      Agreeing c.virtualIpv4 c.networkLength := by
  have hfull : c.networkLength = 32 ↔ c.networkLength.toNat = 32 := by
    rw [← UInt8.toNat_inj]
    rfl
  have hrange : (c.networkLength = 0 ∨ 32 < c.networkLength) ↔
      ¬ (0 < c.networkLength.toNat ∧ c.networkLength.toNat ≤ 32) := by
    rw [← UInt8.toNat_inj, UInt8.lt_iff_toNat_lt, UInt8.toNat_zero]
    show (_ ∨ 32 < _) ↔ _
    omega
  have hsome := computeNetworkCidr_isSome c.virtualIpv4 c.networkLength.toNat
  rw [ownCidr_eq hA, Agreeing, ← or_assoc, hrange]
  by_cases hlength : 0 < c.networkLength.toNat ∧ c.networkLength.toNat ≤ 32
  · rw [if_pos hlength, or_iff_right (not_not.2 hlength), Ne, hfull]
    cases hparse : parseIpv4 c.virtualIpv4 with
    | some a =>
      rcases exists_text_of_parseIpv4 hparse with ⟨x, htext, -⟩
      have hfour : FourOctets c.virtualIpv4 := by
        rw [htext]
        exact fourOctets_text x
      have hagree := agree_of_text x hlength.1 hlength.2
      rw [← htext, hparse] at hagree
      rw [hagree]
      simp [hfour]
    | none =>
      -- the program has no network then
      rw [Option.map_none, ← Option.not_isSome_iff_eq_none, hsome]
      simp [hlength]
  · rw [if_neg hlength, ← Option.not_isSome_iff_eq_none, hsome]
    simp [hlength]

end Agreement

/-! ## Two addresses -/

/-- An address and a network length, read as strictly as they can be. -/
def strictInet (s : Str) : Option (Nat × Nat) :=
  match cutAtLast '/' s with
  | some (address, length) =>
    match parseIpv4 address, parseDigits length with
    | some address, some length => if length ≤ 32 then some (address, length) else none
    | _, _ => none
  | none => none

theorem strictInet_decimal (s : Str) (n : Nat) : strictInet (s ++ '/' :: decimal n) =
    if n ≤ 32 then (parseIpv4 s).map fun a => (a, n) else none := by
  have hslash : '/' ∉ decimal n := by
    intro hmem
    exact absurd (isDigit_of_mem_decimal hmem) (by decide)
  rw [strictInet, cutAtLast_append hslash]
  simp only [parseDigits_decimal]
  cases parseIpv4 s with
  | none => simp
  | some a => simp

theorem strictInet_length {s : Str} {n : Nat} {i : Nat × Nat}
    (h : strictInet (s ++ '/' :: decimal n) = some i) : i.2 = n := by
  rw [strictInet_decimal] at h
  split at h
  · rcases Option.map_eq_some_iff.1 h with ⟨a, -, rfl⟩
    rfl
  · cases h

def strictParsers : AddrParsers Str (Nat × Nat) (Nat × Nat) Nat (Nat × Nat) :=
  { ipv4Parsers with
    inet := strictInet
    network := fun i => networkText i.1 i.2
    inet_length := fun _ _ _ _ hn hm => (strictInet_length hn).symm.trans (strictInet_length hm) }

theorem strictInet_strictParsers : StrictInet strictParsers := by
  intro s n hn
  show (strictInet _).map _ = _
  rw [strictInet_decimal, if_pos hn, Option.map_map]
  rfl

/-- A home with a static address. -/
def staticConfig (ip : Str) (length : UInt8) : NetworkConfig :=
  { NetworkConfig.default "home".toList with
    virtualIpv4 := ip
    networkLength := length }

/-- An address in the usual notation. -/
theorem agree_plain :
    computeNetworkCidr (staticConfig "10.144.144.10".toList 24).virtualIpv4
        (some ((staticConfig "10.144.144.10".toList 24).networkLength.toNat : ℚ)) =
      (staticConfig "10.144.144.10".toList 24).ownCidr strictParsers :=
  (network_agree_iff strictInet_strictParsers (staticConfig "10.144.144.10".toList 24)).2
    (.inr (.inr (.inl (by decide))))

/-- An octet with a leading zero has a network in the editor only. -/
theorem leading_zero_differs : ¬ ∀ {Url Inet Cidr Ip Addr : Type}
    (A : AddrParsers Url Inet Cidr Ip Addr), StrictInet A → ∀ c : NetworkConfig,
      computeNetworkCidr c.virtualIpv4 (some (c.networkLength.toNat : ℚ)) = c.ownCidr A := by
  intro h
  have heq := h strictParsers strictInet_strictParsers (staticConfig "10.144.144.010".toList 24)
  have hread : ∀ s : Str, s ∈ ["10".toList, "144".toList, "010".toList] →
      jsNumber s = some (Nat.ofDigitChars 10 s 0 : ℚ) := by
    intro s hs
    have hdigits : ∀ s ∈ ["10".toList, "144".toList, "010".toList],
        s ≠ [] ∧ s.all Char.isDigit = true ∧ Nat.ofDigitChars 10 s 0 < 2 ^ 53 := by decide
    rcases hdigits s hs with ⟨hne, hall, hlt⟩
    rw [jsNumber_digits hne hall, toDouble_natCast hlt]
  have hparts : parts "10.144.144.010".toList =
      ["10".toList, "144".toList, "144".toList, "010".toList].map
        fun s => some (Nat.ofDigitChars 10 s 0 : ℚ) := by
    have hsplit : (jsTrim "10.144.144.010".toList).splitOn '.' =
        ["10".toList, "144".toList, "144".toList, "010".toList] := by decide
    rw [parts, hsplit, List.map_cons, List.map_cons, List.map_cons, List.map_cons,
      hread _ (by simp), hread _ (by simp), hread _ (by simp)]
    rfl
  have hfour : FourOctets "10.144.144.010".toList := by
    rw [FourOctets, hparts]
    refine ⟨rfl, ?_⟩
    intro p hp
    rcases List.mem_map.1 hp with ⟨s, hs, rfl⟩
    have hsmall : ∀ s ∈ ["10".toList, "144".toList, "144".toList, "010".toList],
        Nat.ofDigitChars 10 s 0 < 256 := by decide
    refine isOctet_iff.2 ⟨UInt8.ofNat (Nat.ofDigitChars 10 s 0), ?_⟩
    rw [UInt8.toNat_ofNat_of_lt' (hsmall s hs)]
  have hsome : (computeNetworkCidr "10.144.144.010".toList (some ((24 : UInt8).toNat : ℚ))).isSome
      = true := (computeNetworkCidr_isSome _ _).2 ⟨hfour, by decide, by decide⟩
  have hnone : (staticConfig "10.144.144.010".toList 24).ownCidr strictParsers = none := by decide
  rw [hnone] at heq
  rw [show computeNetworkCidr "10.144.144.010".toList (some ((24 : UInt8).toNat : ℚ)) = none from heq]
    at hsome
  cases hsome

end HomeTier.NetworkCidr
