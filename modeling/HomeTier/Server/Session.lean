import HomeTier.Server.Auth

/-! # Clients of the authentication layer

Two views of a client that talks to `auth_layer` over many requests.

* An arbitrary client (`Client`) chooses each request from the replies it has
  received. The layer answers a rejected request with a valid cookie for that
  request's fingerprint, so a client does get in after a rejection; what holds
  is that it never gets in under a fingerprint the layer has not rejected
  before (`passed_only_after_rejection`).
* A browser (`Visit`) sends back the last cookie it was given, among other
  cookies. As long as the three headers of the fingerprint stay what they were
  when the cookie was issued, it is accepted (`accepted_after_issue`).
-/

namespace HomeTier

open Lib

/-! ## Arbitrary clients -/

namespace Session

/-- What a client receives: the response of the inner service, or 401 with a
`Set-Cookie` header. -/
inductive Reply where
  | served (body : Bytes)
  | unauthorized (setCookie : Str)
deriving DecidableEq, Repr

/-- A client builds its next request from all replies so far, oldest first. -/
abbrev Client := List Reply → Request

/-- The signature bytes a request presents, if its token decodes. -/
def presentedSignature (req : Request) : Option Bytes :=
  (((req.headers.getStr "cookie".toList).bind cookieToken).bind base64UrlDecode).map
    fun raw => raw.drop 12

/-- The request sends back the cookie of the `Set-Cookie` header `sc`. -/
def Presents (cfg : AuthConfig) (req : Request) (sc : Str) : Prop :=
  ∃ c v, req.headers.getStr "cookie".toList = some c ∧ cookieToken c = some v ∧
    sc = setCookieHeader v cfg.tls

section Run

variable (P : Primitives) (cfg : AuthConfig) (next : Nat → Request → Bytes)
  (nonces : Nat → Nonce) (client : Client)

/-- The server's reply to a request: `next` is the service behind the layer. -/
def answer (nonce : Nonce) (next : Request → Bytes) (req : Request) : Reply :=
  match authLayer P cfg nonce req with
  | .next => .served (next req)
  | .unauthorized sc => .unauthorized sc

/-- The first `n` exchanges of the client, oldest first. -/
def transcript : Nat → List (Request × Reply)
  | 0 => []
  | n + 1 =>
    let t := transcript n
    let req := client (t.map fun e => e.2)
    t ++ [(req, answer P cfg (nonces n) (next n) req)]

def requestAt (n : Nat) : Request :=
  client ((transcript P cfg next nonces client n).map fun e => e.2)

def replyAt (n : Nat) : Reply :=
  answer P cfg (nonces n) (next n) (requestAt P cfg next nonces client n)

/-- The messages whose MAC the server has put into a reply. -/
def macQueries (t : List (Request × Reply)) : List Bytes :=
  t.filterMap fun
    | (req, .unauthorized _) => some (utf8 (extractFingerprint P req.headers))
    | (_, .served _) => none

/-- The client forges no MAC: whenever a request presents the MAC of a message
under the server's secret, the server has put the MAC of that message into an
earlier reply. -/
def Unforgeable : Prop :=
  ∀ n sig m, presentedSignature (requestAt P cfg next nonces client n) = some sig →
    sig = P.hmac (utf8 cfg.secret) m → m ∈ macQueries P (transcript P cfg next nonces client n)

theorem mem_transcript {n : Nat} {e : Request × Reply} :
    e ∈ transcript P cfg next nonces client n ↔
      ∃ k < n, e = (requestAt P cfg next nonces client k, replyAt P cfg next nonces client k) := by
  induction n with
  | zero => simp [transcript]
  | succ n ih =>
    simp only [transcript, List.mem_append, ih, List.mem_singleton]
    constructor
    · rintro (⟨k, hk, rfl⟩ | rfl)
      · exact ⟨k, by omega, rfl⟩
      · exact ⟨n, by omega, rfl⟩
    · rintro ⟨k, hk, rfl⟩
      by_cases hkn : k = n
      · subst hkn
        exact .inr rfl
      · exact .inl ⟨k, by omega, rfl⟩

/-- A transcript starts with the first exchange. -/
theorem transcript_succ (n : Nat) :
    ∃ rest, transcript P cfg next nonces client (n + 1) =
      (requestAt P cfg next nonces client 0, replyAt P cfg next nonces client 0) :: rest := by
  induction n with
  | zero => exact ⟨[], rfl⟩
  | succ n ih =>
    obtain ⟨rest, hrest⟩ := ih
    rw [transcript, hrest]
    exact ⟨_, List.cons_append⟩

theorem mem_macQueries {t : List (Request × Reply)} {m : Bytes} (h : m ∈ macQueries P t) :
    ∃ req sc, (req, Reply.unauthorized sc) ∈ t ∧ m = utf8 (extractFingerprint P req.headers) := by
  simp only [macQueries, List.mem_filterMap] at h
  obtain ⟨⟨req, reply⟩, hmem, hm⟩ := h
  cases reply with
  | served body => simp at hm
  | unauthorized sc => exact ⟨req, sc, hmem, by simpa using hm.symm⟩

variable {P cfg next nonces client}

theorem answer_served {nonce : Nonce} {next : Request → Bytes} {req : Request} {body : Bytes}
    (h : answer P cfg nonce next req = .served body) : authLayer P cfg nonce req = .next := by
  unfold answer at h
  cases ha : authLayer P cfg nonce req with
  | next => rfl
  | unauthorized sc => simp [ha] at h

theorem answer_unauthorized {nonce : Nonce} {next : Request → Bytes} {req : Request} {sc : Str}
    (h : answer P cfg nonce next req = .unauthorized sc) :
    authLayer P cfg nonce req = .unauthorized sc := by
  unfold answer at h
  cases ha : authLayer P cfg nonce req with
  | next => simp [ha] at h
  | unauthorized sc' => simpa [ha] using h

/-- An accepted request presents the MAC of its own fingerprint. -/
theorem presented_of_verifyRequest {req : Request} {secret : Str}
    (h : verifyRequest P req.headers secret = true) :
    presentedSignature req =
      some (P.hmac (utf8 secret) (utf8 (extractFingerprint P req.headers))) := by
  obtain ⟨c, token, hc, htok, hv⟩ := (verifyRequest_iff P req.headers secret).1 h
  obtain ⟨raw, hraw, -, hsig⟩ := (verifyToken_iff P token _ secret).1 hv
  simp only [presentedSignature, hc, Option.bind_some, htok, hraw, Option.map_some, hsig]

theorem setCookieHeader_injective (secure : Bool) :
    Function.Injective fun v => setCookieHeader v secure := by
  intro v w h
  cases secure with
  | true => simpa [setCookieHeader] using h
  | false => simpa [setCookieHeader] using h

/-- A client that forges no MAC gets past the layer on a guarded path only
under a fingerprint that the layer has rejected before; and the cookie of a
rejection is accepted on every later request with that fingerprint. -/
theorem passed_only_after_rejection (P : Primitives) (cfg : AuthConfig)
    (next : Nat → Request → Bytes) (nonces : Nat → Nonce) (client : Client)
    (hmac : Unforgeable P cfg next nonces client) :
    let request := requestAt P cfg next nonces client
    let reply := replyAt P cfg next nonces client
    (∀ n body, isStaticResource (request n).path cfg.publicBase = false →
      reply n = .served body →
        ∃ k < n, (∃ sc, reply k = .unauthorized sc) ∧
          extractFingerprint P (request k).headers = extractFingerprint P (request n).headers) ∧
    (∀ n, ∀ k < n, ∀ sc, reply k = .unauthorized sc →
      extractFingerprint P (request k).headers = extractFingerprint P (request n).headers →
        Presents cfg (request n) sc → verifyRequest P (request n).headers cfg.secret = true) := by
  intro request reply
  refine ⟨?_, ?_⟩
  · intro n body hguard hserved
    rcases (authLayer_next_iff P cfg _ _).1 (answer_served hserved) with hstatic | hv
    · rw [hguard] at hstatic
      simp at hstatic
    · -- the MAC it presents was handed out, and only a rejection hands one out
      have hq := hmac n _ _ (presented_of_verifyRequest hv) rfl
      obtain ⟨req, sc, hmem, hfp⟩ := mem_macQueries P hq
      obtain ⟨k, hk, he⟩ := (mem_transcript P cfg next nonces client).1 hmem
      obtain ⟨rfl, hreply⟩ := Prod.mk.inj he
      exact ⟨k, hk, ⟨sc, hreply.symm⟩, utf8_injective hfp.symm⟩
  · rintro n k - sc hreply hfp ⟨c, v, hc, hv, hsc⟩
    obtain ⟨-, -, hissued⟩ := authLayer_unauthorized P (answer_unauthorized hreply)
    have hvalue : v = generateCookieValue P (nonces k)
        (extractFingerprint P (request k).headers) cfg.secret :=
      setCookieHeader_injective cfg.tls (hsc.symm.trans hissued)
    refine (verifyRequest_iff P _ _).2 ⟨c, v, hc, hv, ?_⟩
    rw [hvalue, ← hfp]
    exact verifyToken_generate P _ _ _

end Run

/-! ### A client that comes back with the cookie of its rejection -/

/-- The fingerprint of a browser on the start page of the hub. -/
def homeFingerprint : Str :=
  "633487a90f9ed7e9a077ffa60169274a8a56f6fbeb5c513d1b2417f0c8b7c99d".toList

/-- The fingerprint of the same browser on the page of a space. -/
def spaceFingerprint : Str :=
  "f75e878b3da91ba3ab600d727eb5864ea06fc07d31adf702782fe8a628c6baed".toList

/-- Bytes of a hexadecimal text. -/
def hexBytes (s : Str) : Bytes := (hexDecode s).getD []

/-- The MACs of the two fingerprints under the secret `home-secret`. -/
def homeMac : Bytes :=
  hexBytes "46a36caf354a172d6b74ad8b0555c5340842e95f96a5b25ab1f79ac4c8c92bbb".toList

def spaceMac : Bytes :=
  hexBytes "e88ca1565b0f7ec88341990d5de3fedc0dfada7da6b781726509d650bb926ae0".toList

/-- SHA-256 and HMAC-SHA256 under `home-secret`, on the values that occur below. -/
def recorded : Primitives where
  sha256 := fun x =>
    if x = utf8 "hub.local|Browser/1.0|https://hub.local/".toList then hexBytes homeFingerprint
    else if x = utf8 "hub.local|Browser/1.0|https://hub.local/space/1".toList then
      hexBytes spaceFingerprint
    else []
  hmac := fun _ m =>
    if m = utf8 homeFingerprint then homeMac
    else if m = utf8 spaceFingerprint then spaceMac
    else []

/-- A server without TLS and without a public base. -/
def hub : AuthConfig where
  secret := "home-secret".toList
  publicBase := "/".toList
  tls := false

def hubNonce : Nonce := ⟨List.replicate 12 7, rfl⟩

/-- The headers of a page of the hub. -/
def hubHeaders (referer : String) : HeaderMap :=
  [("host".toList, headerBytes "hub.local".toList),
   ("user-agent".toList, headerBytes "Browser/1.0".toList),
   ("referer".toList, headerBytes referer.toList)]

/-- A ping with the given extra headers. -/
def ping (extra : HeaderMap) : Request where
  path := "/api/cmd/ping".toList
  headers := hubHeaders "https://hub.local/" ++ extra

/-- Ping without a cookie, then with the cookie of the first reply. -/
def returning : Client
  | .unauthorized sc :: _ =>
    ping [("cookie".toList, headerBytes (sc.takeWhile fun c => c ≠ ';'))]
  | _ => ping []

/-- The exchanges of `returning` with the hub. -/
def hubRequest : Nat → Request := requestAt recorded hub (fun _ _ => []) (fun _ => hubNonce) returning

def hubReply : Nat → Reply := replyAt recorded hub (fun _ _ => []) (fun _ => hubNonce) returning

theorem homeMac_ne : homeMac ≠ spaceMac ∧ homeMac ≠ [] := by decide

/-- The first request presents nothing and asks for the MAC that the second presents;
the second is served. -/
theorem hub_exchange :
    presentedSignature (ping []) = none ∧
      presentedSignature (returning [hubReply 0]) = some homeMac ∧
      utf8 homeFingerprint ∈ macQueries recorded [(hubRequest 0, hubReply 0)] ∧
      isStaticResource (hubRequest 1).path hub.publicBase = false ∧
      hubReply 1 = .served [] := by
  decide

theorem eq_of_hmac_eq_homeMac {key m : Bytes} (h : homeMac = recorded.hmac key m) :
    m = utf8 homeFingerprint := by
  rcases homeMac_ne with ⟨hspace, hempty⟩
  by_contra hm
  simp only [recorded, if_neg hm] at h
  split_ifs at h
  · exact hspace h
  · exact hempty h

/-- The replayed cookie is the only MAC the client presents. -/
theorem returning_unforgeable :
    Unforgeable recorded hub (fun _ _ => []) (fun _ => hubNonce) returning := by
  intro n sig m hsig hm
  rcases hub_exchange with ⟨hnone, hfirst, hquery, -, -⟩
  cases n with
  | zero =>
    exact absurd (hnone.symm.trans hsig) (by simp)
  | succ n =>
    obtain ⟨rest, ht⟩ := transcript_succ recorded hub (fun _ _ => []) (fun _ => hubNonce) returning n
    have hpresented : presentedSignature (returning (hubReply 0 :: rest.map fun e => e.2)) =
        some homeMac := by
      have hreply : ∀ l, presentedSignature (returning (hubReply 0 :: l)) =
          presentedSignature (returning [hubReply 0]) := fun l => by
        cases hubReply 0 <;> rfl
      rw [hreply]
      exact hfirst
    have hreq : requestAt recorded hub (fun _ _ => []) (fun _ => hubNonce) returning (n + 1) =
        returning (hubReply 0 :: rest.map fun e => e.2) := by
      rw [requestAt, ht]
      rfl
    rw [hreq, hpresented, Option.some.injEq] at hsig
    rw [ht, eq_of_hmac_eq_homeMac (hsig.trans hm)]
    rw [← List.singleton_append, macQueries, List.filterMap_append]
    exact List.mem_append_left _ hquery

theorem hubReply_one : hubReply 1 = .served [] := hub_exchange.2.2.2.2

theorem passed_only_after_rejection_returning :
    Unforgeable recorded hub (fun _ _ => []) (fun _ => hubNonce) returning ∧
      hubReply 1 = .served [] ∧
      ∃ k < 1, (∃ sc, hubReply k = .unauthorized sc) ∧
        extractFingerprint recorded (hubRequest k).headers =
          extractFingerprint recorded (hubRequest 1).headers :=
  ⟨returning_unforgeable, hubReply_one,
    (passed_only_after_rejection recorded hub (fun _ _ => []) (fun _ => hubNonce) returning
      returning_unforgeable).1 1 [] hub_exchange.2.2.2.1 hubReply_one⟩

/-- A rejected client does not stay rejected: the second request of `returning`
is served on a path that is no static resource. -/
theorem rejected_client_admitted :
    ¬ ∀ (client : Client), Unforgeable recorded hub (fun _ _ => []) (fun _ => hubNonce) client →
      ∀ n body,
        isStaticResource (requestAt recorded hub (fun _ _ => []) (fun _ => hubNonce) client n).path
            hub.publicBase = false →
          replyAt recorded hub (fun _ _ => []) (fun _ => hubNonce) client n ≠ .served body := by
  intro h
  exact h returning returning_unforgeable 1 [] hub_exchange.2.2.2.1 hubReply_one

/-! ## Browsers -/

/-- A cookie pair as a browser sends it. -/
abbrev CookiePair := { s : Str // ';' ∉ s }

/-- One request of a browser: everything but the token cookie, which stands
between the cookies `before` and `after`. -/
structure Visit where
  path : Str
  headers : HeaderMap
  before : List CookiePair
  after : List CookiePair
  noCookie : headers.get "cookie".toList = none

/-- The request of a visit by a browser that holds the token cookie `jar`. -/
def Visit.request (jar : Option Str) (v : Visit) : Request where
  path := v.path
  headers :=
    let pairs := v.before.map (·.1) ++ jar.toList ++ v.after.map (·.1)
    v.headers ++ if pairs = [] then [] else [("cookie".toList, headerBytes (cookieLine pairs))]

/-- The `name=value` part of a `Set-Cookie` header. -/
def setCookiePair (sc : Str) : Str := sc.takeWhile fun c => c ≠ ';'

section Browser

variable (P : Primitives) (cfg : AuthConfig)

/-- The cookie the browser holds after a visit: the last one the server set. -/
def visit (jar : Option Str) (v : Visit) (nonce : Nonce) : Option Str :=
  match authLayer P cfg nonce (v.request jar) with
  | .next => jar
  | .unauthorized sc => some (setCookiePair sc)

/-- The cookie after a list of visits. -/
def jarAfter (jar : Option Str) (visits : List (Visit × Nonce)) : Option Str :=
  visits.foldl (fun jar v => visit P cfg jar v.1 v.2) jar

/-- Same `Host`, `User-Agent` and `Referer` headers. -/
structure SameFingerprint (v w : Visit) : Prop where
  host : w.headers.get "host".toList = v.headers.get "host".toList
  userAgent : w.headers.get "user-agent".toList = v.headers.get "user-agent".toList
  referer : w.headers.get "referer".toList = v.headers.get "referer".toList

/-- The other cookies are visible ASCII, and none in front of the token cookie
carries one of its names. -/
structure Harmless (v : Visit) : Prop where
  visible : ∀ p ∈ v.before ++ v.after, Visible p.1
  noToken : ∀ p ∈ v.before, isTokenPiece p.1 = false

/-! ### The fingerprint of a visit -/

/-- The token cookie is the only header the browser adds. -/
theorem getStr_request_of_ne (jar : Option Str) (v : Visit) (name : Str)
    (h : name ≠ "cookie".toList) :
    (v.request jar).headers.getStr name = v.headers.getStr name := by
  have hcookie : ∀ b : Bytes, HeaderMap.get [("cookie".toList, b)] name = none := by
    intro b
    simp only [HeaderMap.get, List.find?_cons, List.find?_nil, Ne.symm h, decide_false,
      Option.map_none]
  simp only [HeaderMap.getStr, Visit.request, HeaderMap.get_append]
  split
  · simp [HeaderMap.get]
  · rw [hcookie, Option.or_none]

theorem fingerprint_request (jar : Option Str) (v : Visit) :
    extractFingerprint P (v.request jar).headers = extractFingerprint P v.headers := by
  simp only [extractFingerprint, fingerprintText,
    getStr_request_of_ne jar v "host".toList (by decide),
    getStr_request_of_ne jar v "user-agent".toList (by decide),
    getStr_request_of_ne jar v "referer".toList (by decide)]

theorem SameFingerprint.fingerprint_eq {v w : Visit} (h : SameFingerprint v w) :
    extractFingerprint P w.headers = extractFingerprint P v.headers := by
  simp only [extractFingerprint, fingerprintText, HeaderMap.getStr, h.host, h.userAgent,
    h.referer]

/-! ### The token cookie among the others -/

/-- The name the token cookie is set under. -/
def tokenName (secure : Bool) : Str := if secure then hostTokenName else plainTokenName

/-- A character that may stand in the token cookie. -/
def TokenChar (c : Char) : Prop :=
  c ≠ ';' ∧ isWhitespace c = false ∧ Visible [c]

instance (c : Char) : Decidable (TokenChar c) := inferInstanceAs (Decidable (_ ∧ _ ∧ _))

variable {P cfg}

theorem tokenChar_of_mem {nonce : Nonce} {fp : Str} {c : Char}
    (h : c ∈ tokenName cfg.tls ++ generateCookieValue P nonce fp cfg.secret) : TokenChar c := by
  have hname : ∀ secure, (tokenName secure).all (fun c => TokenChar c) = true := by decide
  have halpha : base64UrlAlphabet.all (fun c => TokenChar c) = true := by decide
  rcases List.mem_append.1 h with h | h
  · simpa using List.all_eq_true.1 (hname cfg.tls) c h
  · simpa using List.all_eq_true.1 halpha c (mem_alphabet_of_mem_encode _ c h)

theorem isTokenPiece_space (s : Str) : isTokenPiece (' ' :: s) = isTokenPiece s := by
  simp only [isTokenPiece, trim_space_cons]

theorem tokenValue_space (s : Str) : tokenValue (' ' :: s) = tokenValue s := by
  simp only [tokenValue, trim_space_cons]

/-- The token of a cookie line is the value of its first token pair. -/
theorem cookieToken_cookieLine {ps : List Str} (h : ∀ q ∈ ps, ';' ∉ q) :
    cookieToken (cookieLine ps) = (ps.find? isTokenPiece).map tokenValue := by
  cases ps with
  | nil => rfl
  | cons p ps =>
    rw [cookieToken, splitOn_cookieLine h, List.find?_cons, List.find?_cons]
    cases isTokenPiece p with
    | true => rfl
    | false =>
      have hpiece : (isTokenPiece ∘ fun q => ' ' :: q) = isTokenPiece :=
        funext isTokenPiece_space
      have hvalue : (tokenValue ∘ fun q => ' ' :: q) = tokenValue := funext tokenValue_space
      simp only [List.find?_map, Option.map_map, hpiece, hvalue]

/-- A pair under one of the token names is read back as its value. -/
theorem tokenPiece_of_name {secure : Bool} {v : Str}
    (h : ∀ c ∈ tokenName secure ++ v, isWhitespace c = false) :
    isTokenPiece (tokenName secure ++ v) = true ∧ tokenValue (tokenName secure ++ v) = v := by
  have htrim := trim_eq_self h
  simp only [isTokenPiece, tokenValue, htrim]
  cases secure with
  | true =>
    have hp : hostTokenName.isPrefixOf (hostTokenName ++ v) = true :=
      List.isPrefixOf_iff_prefix.2 (List.prefix_append _ _)
    simp only [tokenName, if_true, hp, Bool.true_or, List.drop_left, and_self]
  | false =>
    have hp : plainTokenName.isPrefixOf (plainTokenName ++ v) = true :=
      List.isPrefixOf_iff_prefix.2 (List.prefix_append _ _)
    have hhost : hostTokenName.isPrefixOf (plainTokenName ++ v) = false := rfl
    simp only [tokenName, Bool.false_eq_true, if_false, hp, hhost, Bool.or_true, List.drop_left,
      and_self]

/-- The pair a rejection sets is read back as its token. -/
theorem token_of_pair (nonce : Nonce) (fp : Str) :
    isTokenPiece (tokenName cfg.tls ++ generateCookieValue P nonce fp cfg.secret) = true ∧
      tokenValue (tokenName cfg.tls ++ generateCookieValue P nonce fp cfg.secret) =
        generateCookieValue P nonce fp cfg.secret :=
  tokenPiece_of_name fun _ hc => (tokenChar_of_mem hc).2.1

/-- A browser stores the pair in front of the attributes. -/
theorem setCookiePair_header (nonce : Nonce) (fp : Str) :
    setCookiePair (setCookieHeader (generateCookieValue P nonce fp cfg.secret) cfg.tls) =
      tokenName cfg.tls ++ generateCookieValue P nonce fp cfg.secret := by
  have hall : ∀ c ∈ tokenName cfg.tls ++ generateCookieValue P nonce fp cfg.secret,
      decide (c ≠ ';') = true := by
    intro c hc
    simpa using (tokenChar_of_mem hc).1
  have hcut : ∀ attrs : Str, setCookiePair
      ((tokenName cfg.tls ++ generateCookieValue P nonce fp cfg.secret) ++ ';' :: attrs) =
        tokenName cfg.tls ++ generateCookieValue P nonce fp cfg.secret := by
    intro attrs
    rw [setCookiePair, List.takeWhile_append_of_pos hall]
    simp
  cases htls : cfg.tls with
  | true =>
    rw [htls] at hcut
    exact hcut " Path=/; HttpOnly; SameSite=Lax; Secure".toList
  | false =>
    rw [htls] at hcut
    exact hcut " Path=/; HttpOnly; SameSite=Lax".toList

/-! ### The session invariant -/

variable (P cfg) in
/-- The browser holds a cookie issued for the fingerprint `fp`. -/
def Holds (fp : Str) (jar : Option Str) : Prop :=
  ∃ nonce, jar = some (tokenName cfg.tls ++ generateCookieValue P nonce fp cfg.secret)

/-- A rejected visit leaves a cookie for its own fingerprint. -/
theorem holds_of_unauthorized {jar : Option Str} {v : Visit} {nonce : Nonce} {sc : Str}
    (h : authLayer P cfg nonce (v.request jar) = .unauthorized sc) :
    Holds P cfg (extractFingerprint P v.headers) (visit P cfg jar v nonce) := by
  obtain ⟨-, -, hsc⟩ := authLayer_unauthorized P h
  refine ⟨nonce, ?_⟩
  simp only [visit, h]
  rw [hsc, setCookiePair_header, fingerprint_request]

theorem holds_visit {fp : Str} {jar : Option Str} {w : Visit} (nonce : Nonce)
    (hjar : Holds P cfg fp jar) (hw : extractFingerprint P w.headers = fp) :
    Holds P cfg fp (visit P cfg jar w nonce) := by
  cases ha : authLayer P cfg nonce (w.request jar) with
  | next =>
    rw [visit, ha]
    exact hjar
  | unauthorized sc =>
    -- the cookie is replaced by one for the same fingerprint
    rw [← hw]
    exact holds_of_unauthorized ha

theorem holds_jarAfter {fp : Str} {jar : Option Str} {visits : List (Visit × Nonce)}
    (hjar : Holds P cfg fp jar)
    (hw : ∀ w ∈ visits, extractFingerprint P w.1.headers = fp) :
    Holds P cfg fp (jarAfter P cfg jar visits) := by
  induction visits generalizing jar with
  | nil => exact hjar
  | cons w ws ih =>
    have hstep := holds_visit w.2 hjar (hw w (by simp))
    exact ih hstep fun x hx => hw x (by simp [hx])

/-- A held cookie is accepted among harmless others. -/
theorem verifyRequest_of_holds {jar : Option Str} {w : Visit}
    (hjar : Holds P cfg (extractFingerprint P w.headers) jar) (hw : Harmless w) :
    verifyRequest P (w.request jar).headers cfg.secret = true := by
  obtain ⟨nonce, rfl⟩ := hjar
  set pair := tokenName cfg.tls ++
    generateCookieValue P nonce (extractFingerprint P w.headers) cfg.secret with hpair
  set pairs := w.before.map (·.1) ++ [pair] ++ w.after.map (·.1) with hpairs
  have hmem : ∀ q ∈ pairs, (∃ p ∈ w.before ++ w.after, q = p.1) ∨ q = pair := by
    intro q hq
    simp only [hpairs, List.mem_append, List.mem_map, List.mem_singleton] at hq ⊢
    rcases hq with (⟨p, hp, rfl⟩ | rfl) | ⟨p, hp, rfl⟩
    · exact .inl ⟨p, .inl hp, rfl⟩
    · exact .inr rfl
    · exact .inl ⟨p, .inr hp, rfl⟩
  have hvisible : Visible (cookieLine pairs) := by
    refine visible_cookieLine fun q hq => ?_
    rcases hmem q hq with ⟨p, hp, rfl⟩ | rfl
    · exact hw.visible p hp
    · intro c hc
      exact (tokenChar_of_mem hc).2.2 c (by simp)
  have hsemi : ∀ q ∈ pairs, ';' ∉ q := by
    intro q hq
    rcases hmem q hq with ⟨p, hp, rfl⟩ | rfl
    · exact p.2
    · intro hc
      exact (tokenChar_of_mem hc).1 rfl
  -- all cookies are visible ASCII, so the header is read as it was sent
  have hcookie : (w.request (some pair)).headers.getStr "cookie".toList =
      some (cookieLine pairs) := by
    have hne : pairs ≠ [] := by simp [hpairs]
    have hget : (w.request (some pair)).headers.get "cookie".toList =
        some (headerBytes (cookieLine pairs)) := by
      simp only [Visit.request, HeaderMap.get_append, w.noCookie, Option.none_or]
      change HeaderMap.get (if pairs = [] then [] else _) _ = _
      rw [if_neg hne]
      simp [HeaderMap.get, hpairs]
    rw [HeaderMap.getStr, hget, Option.bind_some, toStr_headerBytes hvisible]
  -- and no token cookie stands in front of the issued one
  have hfind : pairs.find? isTokenPiece = some pair := by
    have hbefore : (w.before.map (·.1)).find? isTokenPiece = none := by
      simp only [List.find?_eq_none, List.mem_map]
      rintro _ ⟨p, hp, rfl⟩
      simp [hw.noToken p hp]
    rw [hpairs, List.append_assoc, List.find?_append, hbefore, Option.none_or, List.find?_append]
    simp [hpair, (token_of_pair nonce (extractFingerprint P w.headers)).1]
  refine (verifyRequest_iff P _ _).2 ⟨cookieLine pairs, tokenValue pair, hcookie, ?_, ?_⟩
  · rw [cookieToken_cookieLine hsemi, hfind, Option.map_some]
  · rw [hpair, (token_of_pair nonce _).2, fingerprint_request]
    exact verifyToken_generate P _ _ _

end Browser

/-- Once a visit has been answered with a cookie, every later visit whose
`Host`, `User-Agent` and `Referer` are those of that visit is accepted, as long
as they stayed the same in between, among any harmless cookies. -/
theorem accepted_after_issue (P : Primitives) (cfg : AuthConfig) (jar : Option Str)
    (earlier : List (Visit × Nonce)) (v : Visit) (nonce : Nonce) (sc : Str)
    (between : List (Visit × Nonce)) (w : Visit)
    (hissued : authLayer P cfg nonce (v.request (jarAfter P cfg jar earlier)) = .unauthorized sc)
    (hbetween : ∀ x ∈ between, SameFingerprint v x.1) (hw : SameFingerprint v w)
    (hother : Harmless w) :
    verifyRequest P
      (w.request (jarAfter P cfg jar (earlier ++ (v, nonce) :: between))).headers
      cfg.secret = true := by
  have hjar : Holds P cfg (extractFingerprint P w.headers)
      (jarAfter P cfg jar (earlier ++ (v, nonce) :: between)) := by
    rw [hw.fingerprint_eq]
    have hstart := holds_of_unauthorized hissued
    have hrest := holds_jarAfter hstart fun x hx => (hbetween x hx).fingerprint_eq P
    simpa [jarAfter] using hrest
  exact verifyRequest_of_holds hjar hother

/-- A fetch of the hub's pages, with one other cookie in front. -/
def fetchFrom (referer : String) : Visit where
  path := "/api/cmd/space/list".toList
  headers := hubHeaders referer
  before := [⟨"theme=dark".toList, by decide⟩]
  after := []
  noCookie := rfl

theorem fetchFrom_harmless (referer : String) : Harmless (fetchFrom referer) := by
  constructor
  · change ∀ p ∈ [(⟨"theme=dark".toList, by decide⟩ : CookiePair)], Visible p.1
    decide
  · change ∀ p ∈ [(⟨"theme=dark".toList, by decide⟩ : CookiePair)], isTokenPiece p.1 = false
    decide

/-- The first fetch, without a token, is answered with a cookie. -/
theorem fetchFrom_issued :
    authLayer recorded hub hubNonce ((fetchFrom "https://hub.local/").request none) =
      .unauthorized (setCookieHeader (generateCookieValue recorded hubNonce
        (extractFingerprint recorded ((fetchFrom "https://hub.local/").request none).headers)
        hub.secret) hub.tls) :=
  authLayer_reject recorded (by decide) (by decide)

theorem accepted_after_issue_home :
    verifyRequest recorded ((fetchFrom "https://hub.local/").request
      (jarAfter recorded hub none [(fetchFrom "https://hub.local/", hubNonce)])).headers
      hub.secret = true :=
  accepted_after_issue recorded hub none [] (fetchFrom "https://hub.local/") hubNonce _
    [] (fetchFrom "https://hub.local/") fetchFrom_issued (by simp) ⟨rfl, rfl, rfl⟩
    (fetchFrom_harmless _)

/-- The page a request is made from enters the fingerprint: the cookie issued on
the start page is refused on the page of a space. -/
theorem other_page_rejected :
    ¬ ∀ (v w : Visit) (sc : Str),
      authLayer recorded hub hubNonce (v.request none) = .unauthorized sc →
      w.headers.get "host".toList = v.headers.get "host".toList →
      w.headers.get "user-agent".toList = v.headers.get "user-agent".toList → Harmless w →
        verifyRequest recorded (w.request (jarAfter recorded hub none [(v, hubNonce)])).headers
          hub.secret = true := by
  intro h
  have haccepted := h (fetchFrom "https://hub.local/") (fetchFrom "https://hub.local/space/1")
    _ fetchFrom_issued rfl rfl (fetchFrom_harmless _)
  revert haccepted
  decide

/-- The same fetch behind one other cookie. -/
def fetchBehind (pair : CookiePair) : Visit :=
  { fetchFrom "https://hub.local/" with before := [pair] }

/-- One cookie with a letter beyond ASCII makes the whole header unreadable. -/
theorem other_letter_rejected :
    ¬ ∀ (v w : Visit) (sc : Str),
      authLayer recorded hub hubNonce (v.request none) = .unauthorized sc → SameFingerprint v w →
      (∀ p ∈ w.before, isTokenPiece p.1 = false) →
        verifyRequest recorded (w.request (jarAfter recorded hub none [(v, hubNonce)])).headers
          hub.secret = true := by
  intro h
  have hplain : ∀ p ∈ (fetchBehind ⟨"theme=dunkelgrün".toList, by decide⟩).before,
      isTokenPiece p.1 = false := by
    change ∀ p ∈ [(⟨"theme=dunkelgrün".toList, by decide⟩ : CookiePair)], isTokenPiece p.1 = false
    decide
  have haccepted := h (fetchFrom "https://hub.local/")
    (fetchBehind ⟨"theme=dunkelgrün".toList, by decide⟩) _ fetchFrom_issued ⟨rfl, rfl, rfl⟩ hplain
  revert haccepted
  decide

/-- Of two cookies with a token name only the first is read, though another application
of the host may have set it. -/
theorem earlier_token_rejected :
    ¬ ∀ (v w : Visit) (sc : Str),
      authLayer recorded hub hubNonce (v.request none) = .unauthorized sc → SameFingerprint v w →
      (∀ p ∈ w.before ++ w.after, Visible p.1) →
        verifyRequest recorded (w.request (jarAfter recorded hub none [(v, hubNonce)])).headers
          hub.secret = true := by
  intro h
  have hvisible : ∀ p ∈ (fetchBehind ⟨"hometier-token=old".toList, by decide⟩).before ++
      (fetchBehind ⟨"hometier-token=old".toList, by decide⟩).after, Visible p.1 := by
    change ∀ p ∈ [(⟨"hometier-token=old".toList, by decide⟩ : CookiePair)], Visible p.1
    decide
  have haccepted := h (fetchFrom "https://hub.local/")
    (fetchBehind ⟨"hometier-token=old".toList, by decide⟩) _ fetchFrom_issued ⟨rfl, rfl, rfl⟩
    hvisible
  revert haccepted
  decide

/-- A browser that returns its cookie is refused for each of three reasons: the page it
asks from, the letters of its other cookies, and their names. -/
theorem refused_with_cookie :
    (¬ ∀ (v w : Visit) (sc : Str),
      authLayer recorded hub hubNonce (v.request none) = .unauthorized sc →
      w.headers.get "host".toList = v.headers.get "host".toList →
      w.headers.get "user-agent".toList = v.headers.get "user-agent".toList → Harmless w →
        verifyRequest recorded (w.request (jarAfter recorded hub none [(v, hubNonce)])).headers
          hub.secret = true) ∧
    (¬ ∀ (v w : Visit) (sc : Str),
      authLayer recorded hub hubNonce (v.request none) = .unauthorized sc → SameFingerprint v w →
      (∀ p ∈ w.before, isTokenPiece p.1 = false) →
        verifyRequest recorded (w.request (jarAfter recorded hub none [(v, hubNonce)])).headers
          hub.secret = true) ∧
    ¬ ∀ (v w : Visit) (sc : Str),
      authLayer recorded hub hubNonce (v.request none) = .unauthorized sc → SameFingerprint v w →
      (∀ p ∈ w.before ++ w.after, Visible p.1) →
        verifyRequest recorded (w.request (jarAfter recorded hub none [(v, hubNonce)])).headers
          hub.secret = true :=
  ⟨other_page_rejected, other_letter_rejected, earlier_token_rejected⟩

end Session

end HomeTier
