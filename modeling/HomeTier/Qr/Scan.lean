import HomeTier.Lib.Base64
import HomeTier.Qr.Link

/-! # Scanning a link

`parse_qr` of `src-tauri/src/commands/qr.rs` gives the page the event of a link and
its data in base64; by the event the page calls the command that reads the data
(`handleScanResult` of `src/components/Space/SpaceList.tsx`, `resolveJoinShareInfo`
of `src/utils/share.ts`). What was put into a link comes to that command.
-/

namespace HomeTier

open Lib

def eventJoinSpace : Str := "j_s".toList

def eventAddApp : Str := "a_a".toList

structure ParseQrResult where
  event : Str
  data : Str

section Scan

variable (Q : QrCrates)

def parseQr (seed link : Str) : Except Str ParseQrResult := do
  let (event, data) ← decryptQr Q seed link
  pure { event, data := base64Encode data }

end Scan

variable {Q : QrCrates} {seed : Str} {nonce : { n : Bytes // n.length = nonceLen }}

theorem encryptQr_isOk {event : Str} (hne : utf8 event ≠ [])
    (hlen : (utf8 event).length ≤ maxEventLen) (data : Bytes) :
    ∃ link, encryptQr Q seed nonce event data = .ok link := by
  rcases gcmOpen_seal (Q := Q) (Q.sha256_length (utf8 seed)) nonce (adaptiveCompress Q
    (qrPayloadVersion :: UInt8.ofNat (utf8 event).length :: utf8 event ++ data))
    with ⟨blob, hseal, -⟩
  refine ⟨"homeTier://qr".toList ++ "?v=1&d=".toList ++ base64UrlEncode blob, ?_⟩
  rw [encryptQr, if_neg hne, if_neg (Nat.not_lt.2 hlen)]
  exact bind_eq_ok.2 ⟨blob, hseal, rfl⟩

/-- A link that was made is read. -/
theorem decryptQr_of_encryptQr {event link : Str} {data : Bytes}
    (h : encryptQr Q seed nonce event data = .ok link) : decryptQr Q seed link = .ok (event, data) := by
  unfold encryptQr at h
  split at h
  · cases h
  · split at h
    · cases h
    · rename_i hlen
      rcases bind_eq_ok.1 h with ⟨enc, hseal, hlink⟩
      obtain rfl := Except.ok.inj hlink
      rcases gcmOpen_seal (Q := Q) (Q.sha256_length (utf8 seed)) nonce (adaptiveCompress Q
        (qrPayloadVersion :: UInt8.ofNat (utf8 event).length :: utf8 event ++ data))
        with ⟨blob, hseal', hopen⟩
      obtain rfl : enc = blob := Except.ok.inj (hseal.symm.trans hseal')
      rw [decryptQr_link]
      refine bind_eq_ok.2 ⟨_, hopen, ?_⟩
      refine bind_eq_ok.2 ⟨_, adaptiveDecompress_compress _, ?_⟩
      exact readPayload_payload (Nat.not_lt.1 hlen) data

theorem parseQr_of_encryptQr {event link : Str} {data : Bytes}
    (h : encryptQr Q seed nonce event data = .ok link) :
    parseQr Q seed link = .ok ⟨event, base64Encode data⟩ := by
  rw [parseQr, decryptQr_of_encryptQr h]
  rfl

end HomeTier
