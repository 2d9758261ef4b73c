import HomeTier.Lib.Retry
import HomeTier.Lib.Transfer
import HomeTier.Log.Record
import HomeTier.Proxy.Attach

/-! # Forwarded requests and their responses

`forward` and `passthrough` of `src-tauri/src/proxy/plugins/http_forward.rs`: how
the request to the upstream is made of the client's, the retry loop, and how the
client's response is made of the upstream's. `forward` serves the pages under
`/__proxy__` and `?url=`; it exchanges cookies with the jars, rewrites pages and
keeps downloads. `passthrough` serves what falls through.

An attempt ends with a response, after the redirects that reqwest follows, or
with an error; `delivered` is whether the request had reached the upstream by
then. `exchange` is all that comes of one client request: what the upstream
receives, the response, and the download.

reqwest, the decoders of content codings and the rewriting of pages (`rewriter.rs`
and the injected script) are the parameters of `ForwardCrates`.
-/

namespace HomeTier.HttpForward

open Lib

/-! ## Requests -/

structure ClientRequest where
  method : Str
  path : Str
  headers : HeaderMap
  body : Transfer
deriving DecidableEq, Repr

structure UpstreamRequest where
  method : Str
  url : Str
  headers : HeaderMap
  body : Bytes
deriving DecidableEq, Repr

inductive RewriteTarget where
  | html
  | css
  | js
  | none
deriving DecidableEq, Repr

/-- What `forward` and `passthrough` are told: `forward` has the key and source
URL of the application, and what the jar of the upstream sends. -/
inductive Mode where
  | forward (sourceUrl key : Str) (shouldRewrite : Bool) (jarCookie downloadDir : Option Str)
  | passthrough
deriving DecidableEq, Repr

/-- The URL a request is sent to, and the device mode. -/
structure Job where
  url : Str
  mobile : Bool
  mode : Mode
deriving DecidableEq, Repr

/-- A page to be rewritten. -/
structure RewriteJob where
  contentType : Str
  forwardUrl : Str
  sourceUrl : Str
  proxyPrefix : Str
  key : Str
  target : RewriteTarget
  mobile : Bool
  csp : Option Str
deriving DecidableEq

/-- reqwest and the rewriter. -/
structure ForwardCrates where
  /-- The error for a URL that reqwest makes no request of. -/
  buildError : Str → Option Str
  /-- Headers that reqwest and hyper send on their own: for the credentials in a
  URL, and those missing in a request. -/
  credentials : Str → HeaderMap
  defaults : HeaderMap → HeaderMap
  /-- The decoder of a content coding. -/
  decode : Str → Bytes → Stream
  /-- `rewrite_urls`, the injected script and `relax_csp`: the bytes of the page
  and its policy when it changes; none when `rewrite_urls` panics. -/
  rewrite : RewriteJob → Bytes → Option (Bytes × Option Str)
  /-- `urlencoding::decode` -/
  urlDecode : Str → Option Str
  credentials_visible : ∀ url, ∀ e ∈ credentials url, (toStr e.2).isSome = true
  defaults_visible : ∀ h, ∀ e ∈ defaults h, (toStr e.2).isSome = true

def hopByHop : List Str :=
  ["host".toList, "connection".toList, "keep-alive".toList, "proxy-authenticate".toList,
    "proxy-authorization".toList, "te".toList, "trailers".toList, "transfer-encoding".toList,
    "upgrade".toList]

/-- Headers that are not sent on: those of the connection and the length. -/
def isDropped (name : Str) : Bool := hopByHop.contains name || name = "content-length".toList

/-- `headers_to_forward` -/
def headersToForward (h : HeaderMap) : List (Str × Str) :=
  h.filterMap fun e => if isDropped e.1 then none else (toStr e.2).map fun v => (e.1, v)

/-- The methods that are sent as they are. -/
def knownMethods : List Str :=
  ["GET".toList, "POST".toList, "PUT".toList, "PATCH".toList, "DELETE".toList, "HEAD".toList,
    "OPTIONS".toList]

/-- The methods that are sent with their body. -/
def bodyMethods : List Str := ["POST".toList, "PUT".toList, "PATCH".toList]

def mobileUa : Str :=
  ("Mozilla/5.0 (Linux; Android 14; Pixel 8) AppleWebKit/537.36 (KHTML, like Gecko) " ++
    "Chrome/126.0.0.0 Mobile Safari/537.36").toList

/-- `forward` replaces the user agent, `passthrough` adds one. -/
def setUserAgent (job : Job) (h : List (Str × Str)) : List (Str × Str) :=
  match job.mobile, job.mode with
  | false, _ => h
  | true, .passthrough => h ++ [("user-agent".toList, mobileUa)]
  | true, .forward .. =>
    if h.any fun e => e.1 = "user-agent".toList then
      h.map fun e => if e.1 = "user-agent".toList then (e.1, mobileUa) else e
    else h ++ [("user-agent".toList, mobileUa)]

/-- The jar's cookies take the place of the client's `cookie` headers, merged
with the first of them. -/
def mergeCookie (jarCookie : Option Str) (h : List (Str × Str)) : List (Str × Str) :=
  match jarCookie with
  | none => h
  | some jc =>
    (h.filter fun e => e.1 ≠ "cookie".toList) ++
      [("cookie".toList, mergeCookieHeaders
        ((h.find? fun e => e.1 = "cookie".toList).map fun e => e.2) jc)]

def Mode.jarCookie : Mode → Option Str
  | .forward _ _ _ jarCookie _ => jarCookie
  | .passthrough => none

/-- The headers that reqwest is given. -/
def givenHeaders (job : Job) (req : ClientRequest) : HeaderMap :=
  (mergeCookie job.mode.jarCookie (setUserAgent job (headersToForward req.headers))).map
    fun e => (e.1, headerBytes e.2)

/-- The request of `req_builder`; a body that cannot be read is sent empty. -/
def outgoing (C : ForwardCrates) (job : Job) (req : ClientRequest) : UpstreamRequest :=
  { method := if knownMethods.contains req.method then req.method else "GET".toList
    url := job.url
    headers := C.credentials job.url ++ givenHeaders job req ++ C.defaults (givenHeaders job req)
    body := if bodyMethods.contains req.method then req.body.arrived.collect.getD [] else [] }

/-! ## Attempts -/

/-- The predicates of a reqwest error, and its text. -/
structure SendError where
  connect : Bool
  timeout : Bool
  request : Bool
  status : Bool
  text : Str
deriving DecidableEq, Repr

/-- The response of an upstream, with no body where the status has none. -/
structure Wire where
  status : Nat
  headers : HeaderMap
  body : Transfer
  bodyless : status = 204 ∨ status = 304 → body = ⟨[], none⟩

inductive Outcome where
  | response (w : Wire)
  | failed (e : SendError) (delivered : Bool)

def Outcome.delivered : Outcome → Bool
  | .response _ => true
  | .failed _ d => d

def SendError.isRetriable (e : SendError) : Bool := e.connect || e.request || e.timeout

def Outcome.isRetriable : Outcome → Bool
  | .response _ => false
  | .failed e _ => e.isRetriable

def maxRetries : Nat := 2

/-- The outcomes in order, and the last one. A request that could not be built is
not tried again. -/
def attempts (C : ForwardCrates) (job : Job) (net : Nat → Outcome) : List Outcome × Outcome :=
  match C.buildError job.url with
  | some text =>
    let o := Outcome.failed ⟨false, false, false, false, text⟩ false
    ([o], o)
  | none =>
    (tried Outcome.isRetriable net maxRetries 0, (retry Outcome.isRetriable net maxRetries 0).2)

/-! ## Responses -/

inductive Body where
  | full (b : Bytes)
  | stream (s : Stream)
deriving DecidableEq, Repr

def Body.read : Body → Stream
  | .full b => ⟨b, true⟩
  | .stream s => s

structure Response where
  status : Nat
  headers : HeaderMap
  body : Body
deriving DecidableEq, Repr

/-- A file that is written to the downloads and queued for the front end. -/
structure Download where
  path : Str
  content : Bytes
deriving DecidableEq, Repr

/-- The content coding that reqwest undoes: gzip or br, alone in a header. -/
def undone (h : HeaderMap) : List Str :=
  let names := fun c : String =>
    h.any fun e => e.1 = "content-encoding".toList ∧ e.2 = headerBytes c.toList
  if names "gzip" then ["gzip".toList] else if names "br" then ["br".toList] else []

/-- `bytes_stream`: the body as reqwest hands it out. -/
def bytesStream (C : ForwardCrates) (w : Wire) : Stream :=
  undoAll C.decode (undone w.headers) w.body.arrived

def textPlain : HeaderMap := [("content-type".toList, headerBytes "text/plain; charset=utf-8".toList)]

def badGateway (text : Str) : Response := ⟨502, textPlain, .full (utf8 text)⟩

/-- `to_lowercase`, as far as ASCII letters come of it: of the characters outside
ASCII only the dotted capital I and the Kelvin sign become some. -/
def toLowercase (s : Str) : Str :=
  s.flatMap fun c =>
    if c = Char.ofNat 0x130 then ['i', Char.ofNat 0x307]
    else if c = Char.ofNat 0x212A then ['k']
    else [c.toLower]

/-- The readable text of a header, in lower case. -/
def lowerHeader (h : HeaderMap) (name : String) : Str :=
  toAsciiLowercase ((h.getStr name.toList).getD [])

/-- `classify_content`, of a type in lower case. -/
def classifyContent (contentType : Str) : RewriteTarget :=
  if containsText contentType "text/html".toList then .html
  else if containsText contentType "text/css".toList then .css
  else if containsText contentType "javascript".toList then .js
  else .none

def displayable : List String :=
  ["text/html", "text/css", "application/javascript", "application/json", "application/xml",
    "text/xml", "font/", "image/", "audio/", "video/"]

def downloadMimes : List String :=
  ["application/octet-stream", "application/zip", "application/x-zip", "application/pdf",
    "application/vnd.", "application/x-msdownload", "application/x-7z", "application/x-rar",
    "application/x-tar", "application/gzip"]

def containsAny (s : Str) (subs : List String) : Bool := subs.any fun sub => containsText s sub.toList

def isDownload (h : HeaderMap) : Bool :=
  let cd := lowerHeader h "content-disposition"
  let contentType := lowerHeader h "content-type"
  (containsText cd "attachment".toList && !containsText cd "inline".toList &&
    !containsAny contentType displayable) || containsAny contentType downloadMimes

/-- `build_proxy_prefix` of the `host` header, empty without one. -/
def proxyPrefix (req : ClientRequest) : Str :=
  match req.headers.getStr "host".toList with
  | some host => "http://".toList ++ host
  | none => []

def isRedirection (status : Nat) : Bool := 300 ≤ status && status < 400

/-- `needs_rewrite` -/
def needsRewrite (shouldRewrite : Bool) (req : ClientRequest) (w : Wire) : Bool :=
  let contentType := lowerHeader w.headers "content-type"
  shouldRewrite && proxyPrefix req ≠ [] && classifyContent contentType ≠ .none &&
    !containsText contentType "text/event-stream".toList && w.status ≠ 304 &&
    !isRedirection w.status

/-- The first `charset=` with a value, set to `utf-8`. -/
def replaceCharset : Str → Str
  | [] => []
  | c :: s =>
    match (c :: s).dropPrefix? "charset=".toList with
    | none => c :: replaceCharset s
    | some rest =>
      let isValue := fun c : Char => !isWhitespace c && c ≠ ';'
      if rest.takeWhile isValue = [] then c :: replaceCharset s
      else "charset=utf-8".toList ++ rest.dropWhile isValue

/-- `rewrite_location` -/
def rewriteLocation (loc forwardUrl key pre : Str) : Option Str :=
  if key = [] ∨ pre = [] then none
  else if loc.head? = some '/' then some (pre ++ "/__proxy__".toList ++ key ++ loc)
  else
    let origin := (splitUpstream forwardUrl).1
    if origin = [] then none
    else
      let scheme :=
        if "https://".toList.isPrefixOf forwardUrl then "https".toList else "http".toList
      (loc.dropPrefix? (scheme ++ "://".toList ++ origin)).map fun rest =>
        pre ++ "/__proxy__".toList ++ key ++ rest

/-- One response header of `forward`. -/
def forwardHeader (forwardUrl key pre : Str) (e : Str × Bytes) : Option (Str × Bytes) :=
  if e.1 = "content-length".toList ∨ e.1 = "transfer-encoding".toList ∨
      e.1 = "content-encoding".toList ∨ e.1 = "x-content-type-options".toList then none
  else
    match toStr e.2 with
    | none => some e
    | some val =>
      if e.1 = "content-type".toList then some (e.1, headerBytes (replaceCharset val))
      else if e.1 = "location".toList then
        match rewriteLocation val forwardUrl key pre with
        | some loc => some (e.1, headerBytes loc)
        | none => some e
      else some e

/-- One response header of `passthrough`. -/
def passHeader (e : Str × Bytes) : Option (Str × Bytes) :=
  if e.1 = "content-length".toList ∨ e.1 = "transfer-encoding".toList ∨
      e.1 = "content-encoding".toList then none
  else some e

def contentLength (b : Bytes) : HeaderMap :=
  [("content-length".toList, headerBytes (decimal b.length))]

/-- What follows the first occurrence of a pattern, letter case aside. -/
def behindIgnoreCase (pat s : Str) : Option Str :=
  (s.tails.find? fun t => pat.isPrefixOf (toAsciiLowercase t)).map fun t => t.drop pat.length

/-- `extract_filename` -/
def extractFilename (urlDecode : Str → Option Str) (cd url : Str) : Str :=
  let valueOf := fun rest : Str =>
    ((trim (cutAt ';' rest).1).dropWhile (· = '"')).rdropWhile (· = '"')
  let fromUrl :=
    let last := (((trimEndMatches '/' url).splitOn '/').getLast?).getD []
    if last = [] then "download".toList else last
  match behindIgnoreCase "filename*=".toList cd with
  | some rest =>
    let decoded := (urlDecode (valueOf rest)).getD (valueOf rest)
    match splitOnce "''".toList decoded with
    | some (_, name) => name
    | none => decoded
  | none =>
    match behindIgnoreCase "filename=".toList cd with
    | some rest => if valueOf rest = [] then fromUrl else valueOf rest
    | none => fromUrl

def sanitizeFilename (name : Str) : Str := name.map fun c => if c = '/' ∨ c = '\\' then '_' else c

/-- The file of a download: named by its header, else by the URL. -/
def savedPath (C : ForwardCrates) (dir forwardUrl : Str) (w : Wire) : Str :=
  let rawName :=
    match w.headers.getStr "content-disposition".toList with
    | some cd => extractFilename C.urlDecode cd forwardUrl
    | none => forwardUrl
  dir ++ '/' :: sanitizeFilename rawName

/-- Set a header in the place of all its values, or drop it. -/
def overrideHeader (h : HeaderMap) (name : Str) : Option Str → HeaderMap
  | none => h
  | some [] => h.filter fun e => e.1 ≠ name
  | some v => (h.filter fun e => e.1 ≠ name) ++ [(name, headerBytes v)]

def rewriteJob (job : Job) (sourceUrl key : Str) (req : ClientRequest) (w : Wire) : RewriteJob :=
  let contentType := lowerHeader w.headers "content-type"
  { contentType := contentType
    forwardUrl := job.url
    sourceUrl := sourceUrl
    proxyPrefix := proxyPrefix req
    key := key
    target := classifyContent contentType
    mobile := job.mobile
    csp := w.headers.getStr "content-security-policy".toList }

/-- A rewritten page, or the bytes as they are after a panic. -/
def rewritten (C : ForwardCrates) (r : RewriteJob) (b : Bytes) : Bytes × Option Str :=
  (C.rewrite r b).getD (b, none)

/-- A script of a CGI or PHP address that is no page. -/
def isScript (forwardUrl contentType : Str) (b : Bytes) : Bool :=
  (containsText (toLowercase forwardUrl) ".cgi".toList ||
      containsText (toLowercase forwardUrl) ".php".toList) &&
    containsText contentType "text/html".toList && b.head? ≠ some 60

def rewriteResponse (C : ForwardCrates) (r : RewriteJob) (headers : HeaderMap) (w : Wire) :
    Response :=
  -- a body that cannot be read is rewritten as an empty one
  let b := (bytesStream C w).collect.getD []
  let page := rewritten C r b
  let typed :=
    if isScript r.forwardUrl r.contentType b then
      [("content-type".toList, headerBytes "application/javascript; charset=utf-8".toList)]
    else []
  ⟨w.status, overrideHeader (headers ++ typed ++ contentLength page.1)
    "content-security-policy".toList page.2, .full page.1⟩

/-- The `Ok` branch of `forward`. -/
def forwardResponse (C : ForwardCrates) (job : Job) (sourceUrl key : Str) (shouldRewrite : Bool)
    (downloadDir : Option Str) (req : ClientRequest) (w : Wire) : Response × Option Download :=
  let headers := w.headers.filterMap (forwardHeader job.url key (proxyPrefix req))
  if needsRewrite shouldRewrite req w then
    (rewriteResponse C (rewriteJob job sourceUrl key req w) headers w, none)
  else if w.status = 304 ∨ w.status = 204 then (⟨w.status, headers, .full []⟩, none)
  else if isDownload w.headers then
    let b := (bytesStream C w).collect.getD []
    (⟨w.status, headers ++ contentLength b, .full b⟩,
      downloadDir.map fun dir => ⟨savedPath C dir job.url w, b⟩)
  else (⟨w.status, headers, .stream (bytesStream C w)⟩, none)

def staticAssets : List String :=
  [".css", ".js", ".mjs", ".woff", ".woff2", ".ttf", ".eot", ".svg", ".png", ".jpg", ".jpeg",
    ".gif", ".webp", ".ico"]

/-- A page in the place of a static asset. -/
def isMisplaced (req : ClientRequest) (w : Wire) : Bool :=
  staticAssets.any (fun ext => ext.toList.isSuffixOf (toLowercase req.path)) &&
    containsText ((w.headers.getStr "content-type".toList).getD []) "text/html".toList

/-- The `Ok` branch of `passthrough`. -/
def passResponse (C : ForwardCrates) (req : ClientRequest) (w : Wire) : Response :=
  let headers := w.headers.filterMap passHeader
  if w.status = 304 ∨ w.status = 204 then ⟨w.status, headers, .full []⟩
  else if isMisplaced req w then
    badGateway ("Upstream returned HTML for static asset ".toList ++ toLowercase req.path ++
      " (status ".toList ++ decimal w.status ++ ")".toList)
  else ⟨w.status, headers, .stream (bytesStream C w)⟩

/-- The message of `forward` for its last error. -/
def errorMessage (e : SendError) (forwardUrl : Str) : Str :=
  if e.connect then
    if e.timeout then "connect_timeout to ".toList ++ forwardUrl
    else "connect_failed to ".toList ++ forwardUrl
  else if e.request then "request_failed (possibly DNS) to ".toList ++ forwardUrl
  else if e.status then "status_error to ".toList ++ forwardUrl
  else "unknown_error to ".toList ++ forwardUrl ++ ": ".toList ++ e.text

/-- The client's response to the last outcome. -/
def respond (C : ForwardCrates) (job : Job) (req : ClientRequest) :
    Outcome → Response × Option Download
  | .response w =>
    match job.mode with
    | .forward sourceUrl key shouldRewrite _ downloadDir =>
      forwardResponse C job sourceUrl key shouldRewrite downloadDir req w
    | .passthrough => (passResponse C req w, none)
  | .failed e _ =>
    match job.mode with
    | .forward .. =>
      (badGateway ("Proxy request failed: ".toList ++ errorMessage e job.url), none)
    | .passthrough => (badGateway ("Passthrough request failed: ".toList ++ e.text), none)

/-! ## Exchanges -/

structure Exchange where
  received : List UpstreamRequest
  response : Response
  download : Option Download

/-- What comes of a client request under the outcomes of its attempts. -/
def exchange (C : ForwardCrates) (job : Job) (req : ClientRequest) (net : Nat → Outcome) :
    Exchange :=
  let r := attempts C job net
  { received := (r.1.filter Outcome.delivered).map fun _ => outgoing C job req
    response := (respond C job req r.2).1
    download := (respond C job req r.2).2 }

/-! ## What an exchange is made of -/

section Exchange

variable {C : ForwardCrates} {job : Job} {req : ClientRequest} {net : Nat → Outcome}

/-- Some attempt reaches the upstream. -/
def Delivered (C : ForwardCrates) (job : Job) (net : Nat → Outcome) : Prop :=
  ∃ o ∈ (attempts C job net).1, o.delivered = true

/-- The attempts end with a response of the upstream. -/
def EndsWith (C : ForwardCrates) (job : Job) (net : Nat → Outcome) (w : Wire) : Prop :=
  (attempts C job net).2 = .response w

/-- Every attempt sends the same request. -/
theorem mem_received {u : UpstreamRequest} :
    u ∈ (exchange C job req net).received ↔ Delivered C job net ∧ u = outgoing C job req := by
  simp only [exchange, Delivered, List.mem_map, List.mem_filter]
  constructor
  · rintro ⟨o, ⟨hmem, hd⟩, rfl⟩
    exact ⟨⟨o, hmem, hd⟩, rfl⟩
  · rintro ⟨⟨o, hmem, hd⟩, rfl⟩
    exact ⟨o, ⟨hmem, hd⟩, rfl⟩

/-- The ways of a response body to the client. -/
inductive Branch where
  | rewrite (r : RewriteJob)
  | bodyless
  | download (dir : Option Str)
  | stream
  | misplaced
deriving DecidableEq

def branch (job : Job) (req : ClientRequest) (w : Wire) : Branch :=
  match job.mode with
  | .forward sourceUrl key shouldRewrite _ downloadDir =>
    if needsRewrite shouldRewrite req w then .rewrite (rewriteJob job sourceUrl key req w)
    else if w.status = 304 ∨ w.status = 204 then .bodyless
    else if isDownload w.headers then .download downloadDir
    else .stream
  | .passthrough =>
    if w.status = 304 ∨ w.status = 204 then .bodyless
    else if isMisplaced req w then .misplaced
    else .stream

/-- Only a page in the place of an asset changes the status. -/
theorem respond_status {w : Wire} (h : branch job req w ≠ .misplaced) :
    (respond C job req (.response w)).1.status = w.status := by
  revert h
  cases hmode : job.mode with
  | forward sourceUrl key shouldRewrite jarCookie downloadDir =>
    simp only [respond, branch, hmode, forwardResponse, rewriteResponse]
    split_ifs <;> simp
  | passthrough =>
    simp only [respond, branch, hmode, passResponse]
    split_ifs <;> simp

theorem respond_misplaced {w : Wire} (h : branch job req w = .misplaced) :
    (respond C job req (.response w)).1.status = 502 := by
  revert h
  cases hmode : job.mode with
  | forward sourceUrl key shouldRewrite jarCookie downloadDir =>
    simp only [branch, hmode]
    split_ifs <;> simp
  | passthrough =>
    simp only [respond, branch, hmode, passResponse]
    split_ifs <;> simp [badGateway]

/-- A body is read whole where it is rewritten or downloaded, with an empty one
in the place of one that cannot be read. -/
theorem respond_body {w : Wire} (h : branch job req w ≠ .misplaced) :
    (respond C job req (.response w)).1.body =
      match branch job req w with
      | .rewrite r => .full (rewritten C r ((bytesStream C w).collect.getD [])).1
      | .download _ => .full ((bytesStream C w).collect.getD [])
      | .stream => .stream (bytesStream C w)
      | _ => .full [] := by
  revert h
  cases hmode : job.mode with
  | forward sourceUrl key shouldRewrite jarCookie downloadDir =>
    simp only [respond, branch, hmode, forwardResponse, rewriteResponse]
    split_ifs <;> simp
  | passthrough =>
    simp only [respond, branch, hmode, passResponse]
    split_ifs <;> simp

theorem respond_download {w : Wire} :
    (respond C job req (.response w)).2 =
      match branch job req w with
      | .download dir => dir.map fun dir =>
          ⟨savedPath C dir job.url w, (bytesStream C w).collect.getD []⟩
      | _ => none := by
  cases hmode : job.mode with
  | forward sourceUrl key shouldRewrite jarCookie downloadDir =>
    simp only [respond, branch, hmode, forwardResponse]
    split_ifs <;> simp
  | passthrough =>
    simp only [respond, branch, hmode]
    split_ifs <;> simp

theorem bodyless_of_branch {w : Wire} (h : branch job req w = .bodyless) :
    w.body = ⟨[], none⟩ := by
  refine w.bodyless ?_
  revert h
  cases hmode : job.mode with
  | forward | passthrough =>
    by_cases hnone : w.status = 304 ∨ w.status = 204
    · exact fun _ => hnone.symm
    · simp only [branch, hmode, if_neg hnone]
      split_ifs <;> simp

theorem exchange_of_response {w : Wire} (h : EndsWith C job net w) :
    (exchange C job req net).response = (respond C job req (.response w)).1 ∧
      (exchange C job req net).download = (respond C job req (.response w)).2 := by
  unfold EndsWith at h
  rw [exchange, h]
  exact ⟨rfl, rfl⟩

end Exchange

/-! ## A proxied application -/

/-- Crates that take every URL and leave every body as it is. -/
def plainCrates : ForwardCrates where
  buildError _ := none
  credentials _ := []
  defaults _ := []
  decode _ b := ⟨b, true⟩
  rewrite _ b := some (b, none)
  urlDecode s := some s
  credentials_visible := by simp
  defaults_visible := by simp

def nasJob : Job where
  url := "http://nas.lan/api/pay".toList
  mobile := false
  mode := .forward "http://nas.lan".toList "0a1b2c3d4e5f".toList true none none

end HomeTier.HttpForward
