import HomeTier.Lib.Codec
import HomeTier.Lib.Http

/-! # Cookie authentication of the HTTP server

`src-tauri/src/server/auth.rs` and `auth_layer` of `server/mod.rs`. A client is
identified by a fingerprint of three of its headers; its cookie is a random
nonce followed by the HMAC of that fingerprint under the server's secret, in
base64url. `authLayer` lets a request pass when its path is a static resource
or its cookie verifies, and otherwise answers 401 together with a fresh cookie
for the request's own fingerprint.

SHA-256 and HMAC-SHA256 come from crates and are parameters (`Primitives`);
the nonce is an input.
-/

namespace HomeTier

open Lib

/-- The digest and the keyed digest the server uses. -/
structure Primitives where
  sha256 : Bytes → Bytes
  hmac : Bytes → Bytes → Bytes

/-- Twelve random bytes. -/
abbrev Nonce := { bs : Bytes // bs.length = 12 }

/-- What the server reads of a request. -/
structure Request where
  path : Str
  headers : HeaderMap
deriving DecidableEq, Repr

/-- The values `auth_layer` takes from the application state. -/
structure AuthConfig where
  secret : Str
  publicBase : Str
  tls : Bool
deriving DecidableEq, Repr

/-- `auth_layer` hands the request to the next service or answers 401 with a
`Set-Cookie` header. -/
inductive AuthOutcome where
  | next
  | unauthorized (setCookie : Str)
deriving DecidableEq, Repr

/-! ## Fingerprint and token -/

section Token

variable (P : Primitives)

/-- Text that is hashed into the fingerprint. -/
def fingerprintText (headers : HeaderMap) : Str :=
  let host := (headers.getStr "host".toList).getD []
  let ua := (headers.getStr "user-agent".toList).getD []
  let refr := (headers.getStr "referer".toList).getD []
  host ++ ['|'] ++ ua ++ ['|'] ++ refr

def extractFingerprint (headers : HeaderMap) : Str :=
  hexEncode (P.sha256 (utf8 (fingerprintText headers)))

/-- `crypto::hmac_sha256` -/
def hmacSha256 (secret : Str) (data : Bytes) : Str :=
  hexEncode (P.hmac (utf8 secret) data)

def verifyToken (token fingerprint secret : Str) : Bool :=
  match base64UrlDecode token with
  | none => false
  | some raw =>
    if raw.length < 12 then false
    else
      let sigBytes := raw.drop 12
      let expectedHex := hmacSha256 P secret (utf8 fingerprint)
      let expected := (hexDecode expectedHex).getD []
      sigBytes == expected

def generateCookieValue (nonce : Nonce) (fingerprint secret : Str) : Str :=
  let sigHex := hmacSha256 P secret (utf8 fingerprint)
  let sigBytes := (hexDecode sigHex).getD []
  base64UrlEncode (nonce.1 ++ sigBytes)

def hostTokenName : Str := "__Host-token=".toList

def plainTokenName : Str := "hometier-token=".toList

/-- The piece is one of the two token cookies. -/
def isTokenPiece (s : Str) : Bool :=
  let s := trim s
  hostTokenName.isPrefixOf s || plainTokenName.isPrefixOf s

/-- The value of a token piece. -/
def tokenValue (s : Str) : Str :=
  let s := trim s
  if hostTokenName.isPrefixOf s then s.drop hostTokenName.length
  else s.drop plainTokenName.length

/-- The token of a `Cookie` header: the value of its first token piece. -/
def cookieToken (c : Str) : Option Str :=
  ((c.splitOn ';').find? isTokenPiece).map tokenValue

def verifyRequest (headers : HeaderMap) (secret : Str) : Bool :=
  match (headers.getStr "cookie".toList).bind cookieToken with
  | some token => verifyToken P token (extractFingerprint P headers) secret
  | none => false

end Token

/-! ## Static resources -/

/-- `strip_public_base`: the path without the public base. -/
def stripPublicBase (path publicBase : Str) : Str :=
  if publicBase = [] ∨ publicBase = ['/'] then path
  else
    let base := trimEndMatches '/' publicBase
    if path = base then ['/']
    else
      match path.dropPrefix? base with
      | some rest =>
        if rest = [] then ['/']
        else if rest.head? = some '/' then rest
        else path
      | none => path

def staticExtensions : List Str :=
  [".html", ".css", ".js", ".ico", ".svg", ".png", ".jpg", ".jpeg",
   ".gif", ".woff", ".woff2", ".ttf", ".eot", ".map", ".txt", ".xml"].map String.toList

def specialPrefixes : List Str :=
  ["/assets/", "/favicon.", "/robots.", "/manifest."].map String.toList

/-- `is_static_resource` after the public base has been stripped. -/
def isStaticPath (path : Str) : Bool :=
  if path = ['/'] ∨ path = [] then true
  else if specialPrefixes.any fun p => p.isPrefixOf path then true
  else if staticExtensions.any fun ext => ext.isSuffixOf path then true
  -- routes of the front end have no file extension
  else if '.' ∉ path ∧ ¬ "/api/".toList <+: path ∧ ¬ "/ws/".toList <+: path then true
  else false

def isStaticResource (path publicBase : Str) : Bool :=
  isStaticPath (stripPublicBase path publicBase)

/-! ## The layer -/

section Layer

variable (P : Primitives)

/-- `set_cookie_header`: the value of the `Set-Cookie` header. -/
def setCookieHeader (cookieValue : Str) (secure : Bool) : Str :=
  if secure then
    hostTokenName ++ cookieValue ++ "; Path=/; HttpOnly; SameSite=Lax; Secure".toList
  else
    plainTokenName ++ cookieValue ++ "; Path=/; HttpOnly; SameSite=Lax".toList

def authLayer (cfg : AuthConfig) (nonce : Nonce) (req : Request) : AuthOutcome :=
  if isStaticResource req.path cfg.publicBase then .next
  else
    let fingerprint := extractFingerprint P req.headers
    if verifyRequest P req.headers cfg.secret then .next
    else
      let newToken := generateCookieValue P nonce fingerprint cfg.secret
      .unauthorized (setCookieHeader newToken cfg.tls)

/-! ## What issuing and verifying agree on -/

@[simp] theorem hexDecode_hmacSha256 (secret : Str) (data : Bytes) :
    (hexDecode (hmacSha256 P secret data)).getD [] = P.hmac (utf8 secret) data := by
  simp [hmacSha256]

/-- A token verifies when it carries the MAC of the fingerprint behind twelve bytes. -/
theorem verifyToken_iff (token fp secret : Str) :
    verifyToken P token fp secret = true ↔
      ∃ raw, base64UrlDecode token = some raw ∧ 12 ≤ raw.length ∧
        raw.drop 12 = P.hmac (utf8 secret) (utf8 fp) := by
  unfold verifyToken
  cases base64UrlDecode token with
  | none => simp
  | some raw =>
    by_cases hlen : raw.length < 12
    · simp only [if_pos hlen, Option.some.injEq]
      constructor
      · intro h
        simp at h
      · rintro ⟨_, rfl, h, -⟩
        omega
    · simp only [if_neg hlen, hexDecode_hmacSha256, beq_iff_eq, Option.some.injEq]
      constructor
      · intro h
        exact ⟨raw, rfl, by omega, h⟩
      · rintro ⟨_, rfl, -, h⟩
        exact h

/-- An issued token verifies for the fingerprint it was issued for. -/
theorem verifyToken_generate (nonce : Nonce) (fp secret : Str) :
    verifyToken P (generateCookieValue P nonce fp secret) fp secret = true := by
  rw [verifyToken_iff]
  refine ⟨nonce.1 ++ P.hmac (utf8 secret) (utf8 fp), ?_, ?_, ?_⟩
  · simp [generateCookieValue]
  · simp [nonce.2]
  · rw [List.drop_left' nonce.2]

/-- `verify_request` accepts exactly the requests whose `Cookie` header has a
token that verifies for the request's own fingerprint. -/
theorem verifyRequest_iff (headers : HeaderMap) (secret : Str) :
    verifyRequest P headers secret = true ↔
      ∃ c token, headers.getStr "cookie".toList = some c ∧ cookieToken c = some token ∧
        verifyToken P token (extractFingerprint P headers) secret = true := by
  unfold verifyRequest
  cases headers.getStr "cookie".toList with
  | none => simp
  | some c =>
    cases hc : cookieToken c with
    | none => simp [hc]
    | some token => simp [hc]

/-- The layer passes a request exactly when its path is static or its cookie verifies. -/
theorem authLayer_next_iff (cfg : AuthConfig) (nonce : Nonce) (req : Request) :
    authLayer P cfg nonce req = .next ↔
      isStaticResource req.path cfg.publicBase = true ∨
        verifyRequest P req.headers cfg.secret = true := by
  unfold authLayer
  by_cases hs : isStaticResource req.path cfg.publicBase = true
  · simp [hs]
  · by_cases hv : verifyRequest P req.headers cfg.secret = true
    · simp [hs, hv]
    · simp [hs, hv]

theorem authLayer_reject {cfg : AuthConfig} {nonce : Nonce} {req : Request}
    (hs : isStaticResource req.path cfg.publicBase = false)
    (hv : verifyRequest P req.headers cfg.secret = false) :
    authLayer P cfg nonce req = .unauthorized (setCookieHeader
      (generateCookieValue P nonce (extractFingerprint P req.headers) cfg.secret) cfg.tls) := by
  simp [authLayer, hs, hv]

/-- A rejected request is answered with a cookie for its own fingerprint. -/
theorem authLayer_unauthorized {cfg : AuthConfig} {nonce : Nonce} {req : Request} {sc : Str}
    (h : authLayer P cfg nonce req = .unauthorized sc) :
    isStaticResource req.path cfg.publicBase = false ∧
      verifyRequest P req.headers cfg.secret = false ∧
      sc = setCookieHeader
        (generateCookieValue P nonce (extractFingerprint P req.headers) cfg.secret) cfg.tls := by
  unfold authLayer at h
  by_cases hs : isStaticResource req.path cfg.publicBase = true
  · simp [hs] at h
  · by_cases hv : verifyRequest P req.headers cfg.secret = true
    · simp [hs, hv] at h
    · simp only [hs, hv, if_false, Bool.false_eq_true, AuthOutcome.unauthorized.injEq] at h
      exact ⟨by simpa using hs, by simpa using hv, h.symm⟩

end Layer

end HomeTier
