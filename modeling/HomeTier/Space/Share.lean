import HomeTier.Lib.Codec
import HomeTier.Lib.Decimal
import HomeTier.Lib.Wire

/-! # Share payloads

`ShareInfo` of `src-tauri/src/types.rs` and its binary form in
`src-tauri/src/space/share.rs`: a version byte, a byte of flags for the optional
fields, strings behind a length byte and lists behind a count byte. The buffer
of the encoder is the concatenation of what its steps append.
-/

namespace HomeTier

open Lib

structure ShareInfo where
  name : Option Str
  networkName : Str
  networkSecret : Str
  hostHint : Option Str
  virtualIp : Option Str
  dhcp : Option Bool
  peerUrls : List Str
  listenerUrls : List Str
deriving DecidableEq

def payloadVersion : UInt8 := 1

def flagName : UInt8 := 0x01

def flagHostHint : UInt8 := 0x02

def flagVirtualIp : UInt8 := 0x04

def flagDhcp : UInt8 := 0x08

def maxStringLen : Nat := 255

/-! ## Encoder -/

/-- `write_string` -/
def writeString (s field : Str) : Except Str Bytes :=
  if (utf8 s).length > maxStringLen then
    .error (field ++ " 长度超过 255 字节: ".toList ++ s)
  else .ok (UInt8.ofNat (utf8 s).length :: utf8 s)

def writeOption (s : Option Str) (field : Str) : Except Str Bytes :=
  match s with
  | none => .ok []
  | some s => writeString s field

/-- A count and its strings. -/
def writeList (ss : List Str) (tooMany field : Str) : Except Str Bytes :=
  if ss.length > 255 then .error tooMany
  else do
    let parts ← collect (fun s => writeString s field) ss
    pure (UInt8.ofNat ss.length :: parts.flatten)

/-- The flags of the fields that are there. -/
def shareFlags (info : ShareInfo) : UInt8 :=
  (if info.name.isSome then flagName else 0) |||
    (if info.hostHint.isSome then flagHostHint else 0) |||
    (if info.virtualIp.isSome then flagVirtualIp else 0) |||
    (if info.dhcp.isSome then flagDhcp else 0)

def dhcpByte (b : Bool) : UInt8 := if b then 1 else 0

/-- `encode_share_binary` -/
def encodeShareBinary (info : ShareInfo) : Except Str Bytes := do
  let networkName ← writeString info.networkName "network_name".toList
  let networkSecret ← writeString info.networkSecret "network_secret".toList
  let name ← writeOption info.name "name".toList
  let hostHint ← writeOption info.hostHint "host_hint".toList
  let virtualIp ← writeOption info.virtualIp "virtual_ip".toList
  let dhcp := info.dhcp.elim [] fun b => [dhcpByte b]
  let peers ← writeList info.peerUrls "peer_urls 数量超过 255".toList "peer_url".toList
  let listeners ← writeList info.listenerUrls "listener_urls 数量超过 255".toList
    "listener_url".toList
  pure ([payloadVersion, shareFlags info] ++ networkName ++ networkSecret ++ name ++ hostHint ++
    virtualIp ++ dhcp ++ peers ++ listeners)

/-! ## Decoder -/

/-- `read_string` -/
def readString (input : Bytes) : Except Str (Str × Bytes) := do
  let (len, input) ← readByte "分享数据截断: 缺少长度字节".toList input
  if input.length < len.toNat then .error "分享数据截断: 字符串长度不匹配".toList
  else
    match fromUtf8 (input.take len.toNat) with
    | none => .error "分享数据损坏: 字符串非 UTF-8".toList
    | some s => .ok (s, input.drop len.toNat)

def readDhcp (input : Bytes) : Except Str (Bool × Bytes) := do
  let (b, input) ← readByte "分享数据截断: 缺少 dhcp 值".toList input
  if b = 0 then .ok (false, input)
  else if b = 1 then .ok (true, input)
  else .error ("非法 dhcp 值: 0x".toList ++ hexEncode [b])

/-- A count and its strings. -/
def readList (missing : Str) (input : Bytes) : Except Str (List Str × Bytes) := do
  let (count, input) ← readByte missing input
  readMany readString count.toNat input

/-- What follows the flags. -/
def readFields (flags : UInt8) (cur : Bytes) : Except Str (ShareInfo × Bytes) := do
  let (networkName, cur) ← readString cur
  let (networkSecret, cur) ← readString cur
  let (name, cur) ← readOption readString (flags &&& flagName != 0) cur
  let (hostHint, cur) ← readOption readString (flags &&& flagHostHint != 0) cur
  let (virtualIp, cur) ← readOption readString (flags &&& flagVirtualIp != 0) cur
  let (dhcp, cur) ← readOption readDhcp (flags &&& flagDhcp != 0) cur
  let (peerUrls, cur) ← readList "分享数据截断: 缺少 peer_count".toList cur
  let (listenerUrls, cur) ← readList "分享数据截断: 缺少 listener_count".toList cur
  pure ({ name, networkName, networkSecret, hostHint, virtualIp, dhcp, peerUrls, listenerUrls }, cur)

/-- `decode_share_binary`; what is left of the cursor is not looked at. -/
def decodeShareBinary (data : Bytes) : Except Str ShareInfo := do
  let (version, cur) ← readByte "分享数据为空".toList data
  if version ≠ payloadVersion then
    .error ("不支持的分享载荷版本: ".toList ++ decimal version.toNat)
  else
    let (flags, cur) ← readByte "分享数据截断: 缺少 flags".toList cur
    let (info, _) ← readFields flags cur
    pure info

/-! ## Layout -/

/-- A string that a length byte can announce. -/
def Short (s : Str) : Prop := (utf8 s).length ≤ maxStringLen

def stringBytes (s : Str) : Bytes := UInt8.ofNat (utf8 s).length :: utf8 s

/-- A list that a count byte can announce, of such strings. -/
def ShortList (ss : List Str) : Prop := ss.length ≤ 255 ∧ ∀ s ∈ ss, Short s

def listBytes (ss : List Str) : Bytes := UInt8.ofNat ss.length :: ss.flatMap stringBytes

/-- Every string and every list of the value is short. -/
structure ShareInfo.Fits (info : ShareInfo) : Prop where
  networkName : Short info.networkName
  networkSecret : Short info.networkSecret
  name : ∀ s ∈ info.name, Short s
  hostHint : ∀ s ∈ info.hostHint, Short s
  virtualIp : ∀ s ∈ info.virtualIp, Short s
  peerUrls : ShortList info.peerUrls
  listenerUrls : ShortList info.listenerUrls

/-- What follows the flags. -/
def ShareInfo.fieldBytes (info : ShareInfo) : Bytes :=
  stringBytes info.networkName ++ stringBytes info.networkSecret ++ info.name.elim [] stringBytes ++
    info.hostHint.elim [] stringBytes ++ info.virtualIp.elim [] stringBytes ++
    (info.dhcp.elim [] fun b => [dhcpByte b]) ++ listBytes info.peerUrls ++
    listBytes info.listenerUrls

/-- The flags announce the optional fields that are there; other bits are free. -/
structure Announces (flags : UInt8) (info : ShareInfo) : Prop where
  name : info.name.isSome = (flags &&& flagName != 0)
  hostHint : info.hostHint.isSome = (flags &&& flagHostHint != 0)
  virtualIp : info.virtualIp.isSome = (flags &&& flagVirtualIp != 0)
  dhcp : info.dhcp.isSome = (flags &&& flagDhcp != 0)

theorem low_bits_table : ∀ f : Fin 256, ∀ a b c d : Bool,
    UInt8.ofFin f &&& 0x0F = (if a then flagName else 0) ||| (if b then flagHostHint else 0) |||
      (if c then flagVirtualIp else 0) ||| (if d then flagDhcp else 0) ↔
    a = (UInt8.ofFin f &&& flagName != 0) ∧ b = (UInt8.ofFin f &&& flagHostHint != 0) ∧
      c = (UInt8.ofFin f &&& flagVirtualIp != 0) ∧ d = (UInt8.ofFin f &&& flagDhcp != 0) := by
  decide +kernel

/-- The low four bits are the flags of the encoder. -/
theorem announces_iff {flags : UInt8} {info : ShareInfo} :
    Announces flags info ↔ flags &&& 0x0F = shareFlags info := by
  have htable := low_bits_table flags.toFin info.name.isSome info.hostHint.isSome
    info.virtualIp.isSome info.dhcp.isSome
  rw [UInt8.ofFin_toFin] at htable
  rw [shareFlags, htable]
  constructor
  · intro h
    exact ⟨h.name, h.hostHint, h.virtualIp, h.dhcp⟩
  · rintro ⟨h1, h2, h3, h4⟩
    exact ⟨h1, h2, h3, h4⟩

/-- The encoder sets no other bit. -/
theorem shareFlags_mask (info : ShareInfo) : shareFlags info &&& 0x0F = shareFlags info := by
  unfold shareFlags
  generalize info.name.isSome = a
  generalize info.hostHint.isSome = b
  generalize info.virtualIp.isSome = c
  generalize info.dhcp.isSome = d
  revert a b c d
  decide

/-! ## The encoder writes the layout -/

theorem writeString_eq_ok {s field : Str} {b : Bytes} :
    writeString s field = .ok b ↔ Short s ∧ b = stringBytes s := by
  rw [writeString, Short]
  by_cases h : (utf8 s).length ≤ maxStringLen
  · rw [if_neg (Nat.not_lt.2 h), Except.ok.injEq, stringBytes, eq_comm]
    simp [h]
  · rw [if_pos (Nat.lt_of_not_le h)]
    simp [h]

theorem writeOption_eq_ok {s : Option Str} {field : Str} {b : Bytes} :
    writeOption s field = .ok b ↔ (∀ t ∈ s, Short t) ∧ b = s.elim [] stringBytes := by
  cases s with
  | none => simp [writeOption, eq_comm]
  | some s => simp [writeOption, writeString_eq_ok]

theorem collect_writeString {ss : List Str} {field : Str} {parts : List Bytes} :
    collect (fun s => writeString s field) ss = .ok parts ↔
      (∀ s ∈ ss, Short s) ∧ parts = ss.map stringBytes := by
  induction ss generalizing parts with
  | nil =>
    simp [collect, eq_comm]
  | cons s ss ih =>
    cases parts with
    | nil => simp [collect_cons_ne_nil]
    | cons p parts =>
      rw [collect_cons_ok, writeString_eq_ok, ih, List.forall_mem_cons, List.map_cons,
        List.cons.injEq]
      constructor
      · rintro ⟨⟨h1, h2⟩, h3, h4⟩
        exact ⟨⟨h1, h3⟩, h2, h4⟩
      · rintro ⟨⟨h1, h3⟩, h2, h4⟩
        exact ⟨⟨h1, h2⟩, h3, h4⟩

theorem writeList_eq_ok {ss : List Str} {tooMany field : Str} {b : Bytes} :
    writeList ss tooMany field = .ok b ↔ ShortList ss ∧ b = listBytes ss := by
  rw [writeList, ShortList]
  by_cases h : ss.length ≤ 255
  · rw [if_neg (by omega)]
    simp only [bind_eq_ok, collect_writeString, pure, Except.pure, Except.ok.injEq, h, true_and]
    constructor
    · rintro ⟨parts, ⟨hall, rfl⟩, rfl⟩
      exact ⟨hall, by rw [listBytes, List.flatMap]⟩
    · rintro ⟨hall, rfl⟩
      exact ⟨_, ⟨hall, rfl⟩, by rw [listBytes, List.flatMap]⟩
  · rw [if_pos (by omega)]
    simp [h]

theorem encodeShareBinary_eq_ok {info : ShareInfo} {b : Bytes} :
    encodeShareBinary info = .ok b ↔
      info.Fits ∧ b = payloadVersion :: shareFlags info :: info.fieldBytes := by
  simp only [encodeShareBinary, bind_eq_ok, writeString_eq_ok, writeOption_eq_ok,
    writeList_eq_ok, pure, Except.pure, Except.ok.injEq]
  constructor
  · rintro ⟨_, ⟨h1, rfl⟩, _, ⟨h2, rfl⟩, _, ⟨h3, rfl⟩, _, ⟨h4, rfl⟩, _, ⟨h5, rfl⟩, _, ⟨h6, rfl⟩, _,
      ⟨h7, rfl⟩, rfl⟩
    refine ⟨⟨h1, h2, h3, h4, h5, h6, h7⟩, ?_⟩
    simp [ShareInfo.fieldBytes]
  · rintro ⟨h, rfl⟩
    refine ⟨_, ⟨h.networkName, rfl⟩, _, ⟨h.networkSecret, rfl⟩, _, ⟨h.name, rfl⟩, _,
      ⟨h.hostHint, rfl⟩, _, ⟨h.virtualIp, rfl⟩, _, ⟨h.peerUrls, rfl⟩, _, ⟨h.listenerUrls, rfl⟩, ?_⟩
    simp [ShareInfo.fieldBytes]

/-! ## The decoder reads the layout -/

theorem toNat_ofNat_of_le {n : Nat} (h : n ≤ 255) : (UInt8.ofNat n).toNat = n :=
  UInt8.toNat_ofNat_of_lt' (show n < 256 by omega)

theorem exact_readString : Exact readString Short stringBytes := by
  intro b s rest
  simp only [readString, bind_eq_ok, Prod.exists, readByte_eq_ok]
  constructor
  · rintro ⟨len, input, rfl, h⟩
    split at h
    · simp at h
    · next hlen =>
      split at h
      · simp at h
      · next t ht =>
        obtain ⟨rfl, rfl⟩ : t = s ∧ input.drop len.toNat = rest := by simpa using h
        rw [fromUtf8_eq_some] at ht
        have hsize : (utf8 t).length = len.toNat := by
          rw [ht, List.length_take]
          omega
        have hbyte : len.toNat < 256 := len.toNat_lt
        refine ⟨?_, ?_⟩
        · show (utf8 t).length ≤ 255
          omega
        · rw [stringBytes, hsize, UInt8.ofNat_toNat, ht]
          simp
  · rintro ⟨hshort, rfl⟩
    have hsize : (UInt8.ofNat (utf8 s).length).toNat = (utf8 s).length :=
      toNat_ofNat_of_le hshort
    refine ⟨UInt8.ofNat (utf8 s).length, utf8 s ++ rest, rfl, ?_⟩
    rw [hsize, if_neg (by simp), List.take_left, fromUtf8_eq_some.2 rfl, List.drop_left]

theorem exact_readDhcp : Exact readDhcp (fun _ => True) (fun b => [dhcpByte b]) := by
  intro b x rest
  simp only [readDhcp, bind_eq_ok, Prod.exists, readByte_eq_ok, true_and]
  constructor
  · rintro ⟨d, input, rfl, h⟩
    split at h
    · next hd =>
      obtain ⟨rfl, rfl⟩ : false = x ∧ input = rest := by simpa using h
      simp [dhcpByte, hd]
    · split at h
      · next hd =>
        obtain ⟨rfl, rfl⟩ : true = x ∧ input = rest := by simpa using h
        simp [dhcpByte, hd]
      · simp at h
  · rintro rfl
    refine ⟨_, _, rfl, ?_⟩
    cases x with
    | false => rfl
    | true => rfl

theorem exact_readList (missing : Str) : Exact (readList missing) ShortList listBytes := by
  intro b ss rest
  simp only [readList, bind_eq_ok, Prod.exists, readByte_eq_ok]
  constructor
  · rintro ⟨count, input, rfl, h⟩
    rcases (exact_readMany exact_readString _ _ _ _).1 h with ⟨⟨hlen, hall⟩, rfl⟩
    have hbyte : count.toNat < 256 := count.toNat_lt
    refine ⟨⟨by omega, hall⟩, ?_⟩
    rw [listBytes, hlen, UInt8.ofNat_toNat]
    rfl
  · rintro ⟨⟨hlen, hall⟩, rfl⟩
    refine ⟨_, _, rfl, ?_⟩
    rw [toNat_ofNat_of_le hlen]
    exact (exact_readMany exact_readString _ _ _ _).2 ⟨⟨rfl, hall⟩, rfl⟩

theorem exact_readFields (flags : UInt8) :
    Exact (readFields flags) (fun info => info.Fits ∧ Announces flags info)
      ShareInfo.fieldBytes := by
  intro b info rest
  simp only [readFields, bind_eq_ok, Prod.exists, exact_readString _ _ _,
    exact_readOption exact_readString _ _ _ _, exact_readOption exact_readDhcp _ _ _ _,
    exact_readList _ _ _ _, pure, Except.pure, Except.ok.injEq, Prod.mk.injEq]
  constructor
  · rintro ⟨_, _, ⟨h1, rfl⟩, _, _, ⟨h2, rfl⟩, _, _, ⟨⟨a3, h3⟩, rfl⟩, _, _, ⟨⟨a4, h4⟩, rfl⟩, _, _,
      ⟨⟨a5, h5⟩, rfl⟩, _, _, ⟨⟨a6, -⟩, rfl⟩, _, _, ⟨h7, rfl⟩, _, _, ⟨h8, rfl⟩, rfl, rfl⟩
    refine ⟨⟨⟨h1, h2, h3, h4, h5, h7, h8⟩, ⟨a3, a4, a5, a6⟩⟩, ?_⟩
    simp [ShareInfo.fieldBytes]
  · rintro ⟨⟨h, a⟩, rfl⟩
    refine ⟨_, _, ⟨h.networkName, ?_⟩, _, _, ⟨h.networkSecret, rfl⟩, _, _, ⟨⟨a.name, h.name⟩, rfl⟩,
      _, _, ⟨⟨a.hostHint, h.hostHint⟩, rfl⟩, _, _, ⟨⟨a.virtualIp, h.virtualIp⟩, rfl⟩, _, _,
      ⟨⟨a.dhcp, fun _ _ => trivial⟩, rfl⟩, _, _, ⟨h.peerUrls, rfl⟩, _, rest,
      ⟨h.listenerUrls, rfl⟩, rfl, rfl⟩
    simp [ShareInfo.fieldBytes]

theorem decodeShareBinary_eq_ok {b : Bytes} {info : ShareInfo} :
    decodeShareBinary b = .ok info ↔ info.Fits ∧ ∃ flags rest,
      flags &&& 0x0F = shareFlags info ∧ b = payloadVersion :: flags :: info.fieldBytes ++ rest := by
  simp only [decodeShareBinary, bind_eq_ok, Prod.exists, readByte_eq_ok]
  constructor
  · rintro ⟨version, cur, rfl, h⟩
    split at h
    · simp at h
    · next hversion =>
      simp only [bind_eq_ok, Prod.exists, readByte_eq_ok, pure, Except.pure,
        Except.ok.injEq] at h
      rcases h with ⟨flags, cur, rfl, info, rest, hread, rfl⟩
      rcases (exact_readFields flags _ _ _).1 hread with ⟨⟨hfits, hflags⟩, rfl⟩
      obtain rfl : version = payloadVersion := not_not.1 hversion
      exact ⟨hfits, flags, rest, announces_iff.1 hflags, rfl⟩
  · rintro ⟨hfits, flags, rest, hflags, rfl⟩
    refine ⟨payloadVersion, _, rfl, ?_⟩
    rw [if_neg (not_not.2 rfl)]
    simp only [bind_eq_ok, Prod.exists, readByte_eq_ok, pure, Except.pure, Except.ok.injEq]
    refine ⟨flags, _, rfl, info, rest, ?_, rfl⟩
    exact (exact_readFields flags _ _ _).2 ⟨⟨hfits, announces_iff.2 hflags⟩, rfl⟩

/-! ## Round trip -/

/-- The encoder accepts exactly the values whose strings and lists are short, and
the decoder gives such a value back. -/
theorem share_round_trip (info : ShareInfo) :
    match encodeShareBinary info with
    | .ok b => info.Fits ∧ decodeShareBinary b = .ok info
    | .error _ => ¬ info.Fits := by
  cases henc : encodeShareBinary info with
  | ok b =>
    rcases encodeShareBinary_eq_ok.1 henc with ⟨hfits, rfl⟩
    refine ⟨hfits, decodeShareBinary_eq_ok.2
      ⟨hfits, shareFlags info, [], shareFlags_mask info, ?_⟩⟩
    simp
  | error e =>
    intro hfits
    have hok := encodeShareBinary_eq_ok.2 ⟨hfits, rfl⟩
    rw [henc] at hok
    simp at hok

/-- What is decoded is an encoding, up to the high four bits of the flags and up
to the bytes behind the listener list. -/
theorem decoded_up_to_flags_and_rest (b : Bytes) (info : ShareInfo) :
    decodeShareBinary b = .ok info ↔ ∃ flags fields rest,
      encodeShareBinary info = .ok (payloadVersion :: shareFlags info :: fields) ∧
        flags &&& 0x0F = shareFlags info ∧ b = payloadVersion :: flags :: fields ++ rest := by
  rw [decodeShareBinary_eq_ok]
  constructor
  · rintro ⟨hfits, flags, rest, hflags, rfl⟩
    exact ⟨flags, info.fieldBytes, rest, encodeShareBinary_eq_ok.2 ⟨hfits, rfl⟩, hflags, rfl⟩
  · rintro ⟨flags, fields, rest, henc, hflags, rfl⟩
    rcases encodeShareBinary_eq_ok.1 henc with ⟨hfits, heq⟩
    obtain rfl : fields = info.fieldBytes := by simpa using heq
    exact ⟨hfits, flags, rest, hflags, rfl⟩

/-- A value without optional fields and URLs. -/
def bareShare : ShareInfo where
  name := none
  networkName := "net".toList
  networkSecret := "key".toList
  hostHint := none
  virtualIp := none
  dhcp := none
  peerUrls := []
  listenerUrls := []

/-- An unknown flag and a trailing byte are accepted. -/
theorem unknown_flag_and_trailing_byte_accepted :
    decodeShareBinary [1, 0x10, 3, 110, 101, 116, 3, 107, 101, 121, 0, 0, 7] = .ok bareShare ∧
      encodeShareBinary bareShare ≠ .ok [1, 0x10, 3, 110, 101, 116, 3, 107, 101, 121, 0, 0, 7] := by
  constructor
  · rw [decodeShareBinary_eq_ok]
    refine ⟨?_, 0x10, [7], by decide, by decide⟩
    constructor
    · show (utf8 "net".toList).length ≤ 255
      decide
    · show (utf8 "key".toList).length ≤ 255
      decide
    · simp [bareShare]
    · simp [bareShare]
    · simp [bareShare]
    · simp [bareShare, ShortList]
    · simp [bareShare, ShortList]
  · intro h
    rcases encodeShareBinary_eq_ok.1 h with ⟨-, heq⟩
    exact absurd heq (by decide)

end HomeTier
