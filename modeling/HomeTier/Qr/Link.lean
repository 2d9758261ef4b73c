import HomeTier.Lib.Codec
import HomeTier.Lib.Decimal
import HomeTier.Lib.Frame
import HomeTier.Lib.Wire

/-! # Encrypted QR links

`encrypt_qr` and `decrypt_qr` of `src-tauri/src/qr/mod.rs`, over the adaptive
compression of `utils/compress.rs` and the fixed-key encryption of
`utils/encrypt.rs`. The payload is a version byte, the event behind a length
byte and the data; it is compressed when that makes it smaller, encrypted under
a random nonce that stands in front of the ciphertext, and written in base64url
as a query parameter.

zstd, AES-256-GCM, SHA-256 and the URL parser come from crates and are
parameters (`QrCrates`); the nonce is an input.
-/

namespace HomeTier

open Lib

/-- What `decrypt_qr` asks of a parsed URL. -/
structure LinkUrl where
  scheme : Str
  host : Option Str
  queryPairs : List (Str × Str)

/-- The crates behind a link, with what the code relies on. -/
structure QrCrates where
  /-- zstd at level 3, with the text of an error. -/
  compress : Bytes → Except Str Bytes
  decompress : Bytes → Except Str Bytes
  sha256 : Bytes → Bytes
  /-- AES-256-GCM under a key and a nonce; the tag ends the ciphertext. -/
  gcmEncrypt : Bytes → Bytes → Bytes → Option Bytes
  gcmDecrypt : Bytes → Bytes → Bytes → Option Bytes
  parseUrl : Str → Option LinkUrl
  /-- The text of a base64 error. -/
  base64Error : Str → Str
  decompress_compress : ∀ data out, compress data = .ok out → decompress out = .ok data
  sha256_length : ∀ data, (sha256 data).length = 32
  gcm_inverse : ∀ key nonce data, ∃ out, gcmEncrypt key nonce data = some out ∧
    out.length = data.length + 16 ∧ gcmDecrypt key nonce out = some data
  /-- A query of characters that need no encoding; the scheme comes in lower case. -/
  parseUrl_query : ∀ v d, (∀ c ∈ v, c ∈ base64UrlAlphabet) → (∀ c ∈ d, c ∈ base64UrlAlphabet) →
    parseUrl ("homeTier://qr?v=".toList ++ v ++ "&d=".toList ++ d) =
      some ⟨"hometier".toList, some "qr".toList, [(['v'], v), (['d'], d)]⟩

def nonceLen : Nat := 12

def tagLen : Nat := 16

def formatZstd : UInt8 := 0

def formatRaw : UInt8 := 1

def qrPayloadVersion : UInt8 := 1

def maxEventLen : Nat := 255

section Link

variable (Q : QrCrates)

/-! ## Compression and encryption -/

/-- `adaptive_compress`: a smaller zstd frame, or else the data as it is. -/
def adaptiveCompress (data : Bytes) : Bytes :=
  match Q.compress data with
  | .ok compressed =>
    if compressed.length < data.length then formatZstd :: compressed else formatRaw :: data
  | .error _ => formatRaw :: data

/-- `adaptive_decompress` -/
def adaptiveDecompress : Bytes → Except Str Bytes
  | [] => .error "压缩数据为空".toList
  | format :: data =>
    if format = formatZstd then Q.decompress data
    else if format = formatRaw then .ok data
    else .error ("未知压缩格式标记: 0x".toList ++ hexEncode [format])

/-- `FixedKeyGcm::encrypt` -/
def gcmSeal (key nonce plaintext : Bytes) : Except Str Bytes :=
  if key.length ≠ 32 then .error "密钥初始化失败: Invalid Length".toList
  else
    match Q.gcmEncrypt key nonce plaintext with
    | some ciphertext => .ok (nonce ++ ciphertext)
    | none => .error "加密失败: aead::Error".toList

/-- `FixedKeyGcm::decrypt` -/
def gcmOpen (key blob : Bytes) : Except Str Bytes :=
  if blob.length < nonceLen + tagLen then .error "加密数据长度不足".toList
  else if key.length ≠ 32 then .error "密钥初始化失败: Invalid Length".toList
  else
    match Q.gcmDecrypt key (blob.take nonceLen) (blob.drop nonceLen) with
    | some plaintext => .ok plaintext
    | none => .error "解密失败，数据无效或已损坏".toList

/-- `qr_key`: the digest of the configured seed. -/
def qrKey (seed : Str) : Bytes := Q.sha256 (utf8 seed)

/-! ## Links -/

/-- `encrypt_qr` -/
def encryptQr (seed : Str) (nonce : { n : Bytes // n.length = nonceLen }) (event : Str)
    (data : Bytes) : Except Str Str :=
  if utf8 event = [] then .error "event 不能为空".toList
  else if (utf8 event).length > maxEventLen then .error "event 长度超过 255 字节".toList
  else do
    let payload := qrPayloadVersion :: UInt8.ofNat (utf8 event).length :: utf8 event ++ data
    let enc ← gcmSeal Q (qrKey Q seed) nonce.1 (adaptiveCompress Q payload)
    pure ("homeTier://qr".toList ++ "?v=1&d=".toList ++ base64UrlEncode enc)

/-- The event and the data of a payload. -/
def readPayload (payload : Bytes) : Except Str (Str × Bytes) := do
  let (ver, cur) ← readByte "二维码载荷为空".toList payload
  if ver ≠ qrPayloadVersion then
    .error ("不支持的二维码载荷版本: ".toList ++ decimal ver.toNat)
  else
    let (elen, cur) ← readByte "二维码数据截断: 缺少 event 长度".toList cur
    if cur.length < elen.toNat then .error "二维码数据截断: event 不完整".toList
    else
      match fromUtf8 (cur.take elen.toNat) with
      | none => .error "二维码数据损坏: event 非 UTF-8".toList
      | some event => .ok (event, cur.drop elen.toNat)

/-- The first value of a query parameter. -/
def LinkUrl.param (url : LinkUrl) (key : Str) : Option Str :=
  (url.queryPairs.find? fun p => p.1 = key).map Prod.snd

/-- `decrypt_qr` -/
def decryptQr (seed link : Str) : Except Str (Str × Bytes) :=
  match Q.parseUrl (trim link) with
  | none => .error "无效的二维码链接".toList
  | some url =>
    if url.scheme.map Char.toLower ≠ "hometier".toList ∨ url.host ≠ some "qr".toList then
      .error "无效的二维码链接格式".toList
    else if url.param ['v'] ≠ some ['1'] then .error "不支持的二维码链接版本".toList
    else
      match url.param ['d'] with
      | none => .error "二维码链接缺少加密数据".toList
      | some data =>
        match base64UrlDecode data with
        | none => .error ("二维码数据解码失败: ".toList ++ Q.base64Error data)
        | some raw => do
          let plaintext ← gcmOpen Q (qrKey Q seed) raw
          let payload ← adaptiveDecompress Q plaintext
          readPayload payload

end Link

/-! ## Each layer is inverted -/

variable {Q : QrCrates}

/-- Both formats are read back. -/
theorem adaptiveDecompress_compress (data : Bytes) :
    adaptiveDecompress Q (adaptiveCompress Q data) = .ok data := by
  rw [adaptiveCompress]
  cases hc : Q.compress data with
  | error e => rfl
  | ok compressed =>
    by_cases hlt : compressed.length < data.length
    · simp only [if_pos hlt]
      exact Q.decompress_compress data compressed hc
    · simp only [if_neg hlt]
      rfl

theorem gcmOpen_seal {key : Bytes} (hkey : key.length = 32)
    (nonce : { n : Bytes // n.length = nonceLen }) (plaintext : Bytes) :
    ∃ blob, gcmSeal Q key nonce.1 plaintext = .ok blob ∧ gcmOpen Q key blob = .ok plaintext := by
  rcases Q.gcm_inverse key nonce.1 plaintext with ⟨out, henc, hlen, hdec⟩
  refine ⟨nonce.1 ++ out, ?_, ?_⟩
  · rw [gcmSeal, if_neg (not_not.2 hkey), henc]
  · -- the nonce has its fixed length, so the cut falls behind it
    have hsize : ¬ (nonce.1 ++ out).length < nonceLen + tagLen := by
      rw [List.length_append, nonce.2, hlen, tagLen]
      omega
    have htake : (nonce.1 ++ out).take nonceLen = nonce.1 := List.take_left' nonce.2
    have hdrop : (nonce.1 ++ out).drop nonceLen = out := List.drop_left' nonce.2
    rw [gcmOpen, if_neg hsize, if_neg (not_not.2 hkey), htake, hdrop, hdec]

theorem readPayload_payload {event : Str} (hlen : (utf8 event).length ≤ maxEventLen)
    (data : Bytes) :
    readPayload (qrPayloadVersion :: UInt8.ofNat (utf8 event).length :: utf8 event ++ data) =
      .ok (event, data) := by
  have hsize : (UInt8.ofNat (utf8 event).length).toNat = (utf8 event).length :=
    UInt8.toNat_ofNat_of_lt' (show (utf8 event).length < 256 from Nat.lt_succ_of_le hlen)
  rw [readPayload, bind_eq_ok]
  refine ⟨(qrPayloadVersion, UInt8.ofNat (utf8 event).length :: utf8 event ++ data), rfl, ?_⟩
  dsimp only
  rw [if_neg (not_not.2 rfl), bind_eq_ok]
  refine ⟨(UInt8.ofNat (utf8 event).length, utf8 event ++ data), rfl, ?_⟩
  dsimp only
  rw [hsize, if_neg (by simp), List.take_left, fromUtf8_eq_some.2 rfl, List.drop_left]

theorem notWhitespace_of_mem_alphabet : ∀ c ∈ base64UrlAlphabet, isWhitespace c = false :=
  forall_mem_of_all (by decide)

/-- A link is its own trimmed text, and the parser gives its parameters back. -/
theorem parseUrl_link {d : Str} (hd : ∀ c ∈ d, c ∈ base64UrlAlphabet) :
    Q.parseUrl (trim ("homeTier://qr".toList ++ "?v=1&d=".toList ++ d)) =
      some ⟨"hometier".toList, some "qr".toList, [(['v'], ['1']), (['d'], d)]⟩ := by
  have hfront : ∀ c ∈ "homeTier://qr".toList ++ "?v=1&d=".toList, isWhitespace c = false :=
    forall_mem_of_all (by decide)
  have hplain : ∀ c ∈ "homeTier://qr".toList ++ "?v=1&d=".toList ++ d,
      isWhitespace c = false := by
    intro c hc
    rcases List.mem_append.1 hc with hc | hc
    · exact hfront c hc
    · exact notWhitespace_of_mem_alphabet c (hd c hc)
  have hversion : ∀ c ∈ ['1'], c ∈ base64UrlAlphabet := by
    intro c hc
    obtain rfl : c = '1' := by simpa using hc
    decide
  rw [trim_eq_self hplain]
  exact Q.parseUrl_query ['1'] d hversion hd

theorem decryptQr_link {seed : Str} {raw : Bytes} :
    decryptQr Q seed ("homeTier://qr".toList ++ "?v=1&d=".toList ++ base64UrlEncode raw) = (do
      let plaintext ← gcmOpen Q (qrKey Q seed) raw
      let payload ← adaptiveDecompress Q plaintext
      readPayload payload) := by
  rw [decryptQr, parseUrl_link (mem_alphabet_of_mem_encode raw)]
  have hscheme : ("hometier".toList.map Char.toLower) = "hometier".toList := by decide
  simp only [hscheme, ne_eq, not_true_eq_false, or_self, if_false]
  have hv : LinkUrl.param ⟨"hometier".toList, some "qr".toList,
      [(['v'], ['1']), (['d'], base64UrlEncode raw)]⟩ ['v'] = some ['1'] := rfl
  have hd : LinkUrl.param ⟨"hometier".toList, some "qr".toList,
      [(['v'], ['1']), (['d'], base64UrlEncode raw)]⟩ ['d'] = some (base64UrlEncode raw) := rfl
  simp only [hv, hd, not_true_eq_false, if_false, base64UrlDecode_encode]

/-- Every event of 1 to 255 bytes and every payload come back from their link. -/
theorem qr_round_trip (Q : QrCrates) (seed : Str) (nonce : { n : Bytes // n.length = nonceLen })
    (event : Str) (data : Bytes) (hpos : 1 ≤ (utf8 event).length)
    (hlen : (utf8 event).length ≤ 255) :
    ∃ link, encryptQr Q seed nonce event data = .ok link ∧
      decryptQr Q seed link = .ok (event, data) := by
  have hne : utf8 event ≠ [] := by
    intro hnil
    rw [hnil] at hpos
    simp at hpos
  rcases gcmOpen_seal (Q := Q) (Q.sha256_length (utf8 seed)) nonce (adaptiveCompress Q
    (qrPayloadVersion :: UInt8.ofNat (utf8 event).length :: utf8 event ++ data))
    with ⟨blob, hseal, hopen⟩
  refine ⟨"homeTier://qr".toList ++ "?v=1&d=".toList ++ base64UrlEncode blob, ?_, ?_⟩
  · have hmax : ¬ (utf8 event).length > maxEventLen := Nat.not_lt.2 hlen
    rw [encryptQr, if_neg hne, if_neg hmax]
    exact bind_eq_ok.2 ⟨blob, hseal, rfl⟩
  · rw [decryptQr_link, bind_eq_ok]
    refine ⟨_, hopen, ?_⟩
    rw [bind_eq_ok]
    exact ⟨_, adaptiveDecompress_compress _, readPayload_payload hlen data⟩

/-! ## A recorded link -/

/-- SHA-256 of the default seed. -/
def defaultQrKey : Bytes :=
  (hexDecode "8c76a9175607eaa7b692d223d6aeeeae38ebda7eba9c06d4019fb9a4e4ac667d".toList).getD []

/-- The raw payload of the event `foo` without data. -/
def fooPlaintext : Bytes := [1, 1, 3, 102, 111, 111]

/-- Its AES-256-GCM ciphertext under the default key and the nonce of sevens. -/
def fooCiphertext : Bytes :=
  [0xea, 0x00, 0xb7, 0x95, 0xe2, 0x88, 0x2e, 0x73, 0x13, 0x96, 0x97, 0x07, 0x13, 0x93, 0x63, 0x32,
    0x64, 0x88, 0xb7, 0xce, 0x59, 0xa6]

theorem length_sevens : (List.replicate 12 7 : Bytes).length = nonceLen := rfl

def sevens : { n : Bytes // n.length = nonceLen } := ⟨List.replicate 12 7, length_sevens⟩

/-- A zstd frame with one raw block. -/
def zstdRaw (data : Bytes) : Bytes :=
  [0x28, 0xb5, 0x2f, 0xfd, 0x00, 0x58] ++ (le32 (data.length * 8 + 1)).take 3 ++ data

theorem drop_zstdRaw {data out : Bytes} (h : Except.ok (zstdRaw data) = (.ok out : Except Str Bytes)) :
    (.ok (out.drop 9) : Except Str Bytes) = .ok data := by
  obtain rfl : zstdRaw data = out := Except.ok.inj h
  rfl

/-- SHA-256 of the default seed; zeros elsewhere. -/
def fooDigest (data : Bytes) : Bytes :=
  if data = utf8 "homeTier-qr-v1".toList then defaultQrKey else List.replicate 32 0

theorem fooDigest_length (data : Bytes) : (fooDigest data).length = 32 := by
  rw [fooDigest]
  split
  · decide
  · rfl

/-- The ciphertext above where it was recorded, zeros for a tag elsewhere. -/
def fooSeal (key nonce data : Bytes) : Bytes :=
  if key = defaultQrKey ∧ nonce = sevens.1 ∧ data = fooPlaintext then fooCiphertext
  else data ++ List.replicate 16 0

def fooOpen (key nonce out : Bytes) : Bytes :=
  if key = defaultQrKey ∧ nonce = sevens.1 ∧ out = fooCiphertext then fooPlaintext
  else out.take (out.length - 16)

theorem fooOpen_seal (key nonce data : Bytes) :
    (fooSeal key nonce data).length = data.length + 16 ∧
      fooOpen key nonce (fooSeal key nonce data) = data := by
  by_cases h : key = defaultQrKey ∧ nonce = sevens.1 ∧ data = fooPlaintext
  · rcases h with ⟨rfl, rfl, rfl⟩
    rw [fooSeal, if_pos ⟨rfl, rfl, rfl⟩, fooOpen, if_pos ⟨rfl, rfl, rfl⟩]
    exact ⟨rfl, rfl⟩
  · have hout : data ++ List.replicate 16 0 ≠ fooCiphertext := by
      -- the recorded tag does not end in zero
      intro heq
      have hlast := congrArg List.getLast? heq
      simp [fooCiphertext, List.getLast?_append] at hlast
    rw [fooSeal, if_neg h, fooOpen, if_neg fun h' => hout h'.2.2]
    simp

/-- The parameters of a link, read from its text. -/
def readLink (s : Str) : Option LinkUrl :=
  match s.dropPrefix? "homeTier://qr?v=".toList with
  | none => none
  | some query =>
    match cutAt '&' query with
    | (v, some rest) =>
      match rest.dropPrefix? "d=".toList with
      | some d => some ⟨"hometier".toList, some "qr".toList, [(['v'], v), (['d'], d)]⟩
      | none => none
    | (_, none) => none

theorem dropPrefix_append (p s : Str) : (p ++ s).dropPrefix? p = some s := by
  rw [List.dropPrefix?_eq_some_iff]
  exact ⟨p, rfl, by simp⟩

theorem readLink_query {v d : Str} (hv : ∀ c ∈ v, c ∈ base64UrlAlphabet) :
    readLink ("homeTier://qr?v=".toList ++ v ++ "&d=".toList ++ d) =
      some ⟨"hometier".toList, some "qr".toList, [(['v'], v), (['d'], d)]⟩ := by
  have hamp : '&' ∉ v := by
    intro hmem
    exact absurd (hv '&' hmem) (by decide)
  have htext : "homeTier://qr?v=".toList ++ v ++ "&d=".toList ++ d =
      "homeTier://qr?v=".toList ++ (v ++ '&' :: ("d=".toList ++ d)) := by
    rw [List.append_assoc, List.append_assoc]
    rfl
  rw [readLink, htext, dropPrefix_append]
  simp only [cutAt_append hamp, dropPrefix_append]

/-- The crates on the values that occur below. -/
def fooCrates : QrCrates where
  compress data := .ok (zstdRaw data)
  decompress out := .ok (out.drop 9)
  sha256 := fooDigest
  gcmEncrypt key nonce data := some (fooSeal key nonce data)
  gcmDecrypt key nonce out := some (fooOpen key nonce out)
  parseUrl := readLink
  base64Error _ := "Invalid input".toList
  decompress_compress _ _ h := drop_zstdRaw h
  sha256_length := fooDigest_length
  gcm_inverse key nonce data :=
    ⟨_, rfl, (fooOpen_seal key nonce data).1, congrArg some (fooOpen_seal key nonce data).2⟩
  parseUrl_query _ _ hv _ := readLink_query hv

def fooPayload : Bytes := utf8 "\x7b\"network_name\":\"homeTier_home\"\x7d".toList

theorem qr_round_trip_foo :
    ∃ link, encryptQr fooCrates "homeTier-qr-v1".toList sevens "foo".toList fooPayload = .ok link ∧
      decryptQr fooCrates "homeTier-qr-v1".toList link = .ok ("foo".toList, fooPayload) :=
  qr_round_trip fooCrates "homeTier-qr-v1".toList sevens "foo".toList fooPayload (by decide)
    (by decide)

end HomeTier
