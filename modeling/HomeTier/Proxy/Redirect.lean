import HomeTier.Lib.Reference
import HomeTier.Proxy.Forward
import HomeTier.Proxy.HttpForward

/-! # Following a redirect through the proxy

A response with a `Location` header comes back for a page of the proxy. It is one
that `reqwest` does not follow by itself, a 201 or a 300 for one.
`forward` hands the header to the browser, rewritten by `rewriteLocation` or as
it is; the browser resolves it against the address of the page and requests the
result, from the proxy when it has the proxy's host. `serve` is what the proxy
then requests: `handle` decodes the request line, and a request that falls
through goes to what `resolveTarget` (`resolve_target` in
`src-tauri/src/proxy/plugins/http_forward.rs`) makes of the referrer and of the
last page.
-/

namespace HomeTier.Redirect

open Lib HttpForward

/-! ## Requests that fall through -/

/-- What `resolve_target` looks at besides the request line: the `referer` header
and the page that was forwarded last. -/
structure Surroundings where
  referer : Option Str
  activeOrigin : Option Str

def isHttp (url : Str) : Bool :=
  "http://".toList.isPrefixOf url || "https://".toList.isPrefixOf url

/-- `resolve_relative_path` -/
def resolveRelativePath (originalUrl requestPath : Str) : Str :=
  let cleanPath := trimStartMatches '/' requestPath
  if requestPath.head? = some '/' then
    let scheme :=
      if "https://".toList.isPrefixOf originalUrl then "https".toList else "http".toList
    let origin :=
      match splitOnce "://".toList originalUrl with
      | some _ => scheme ++ "://".toList ++ (cutAt '/' (behindScheme originalUrl)).1
      | none => originalUrl
    trimEndMatches '/' origin ++ '/' :: cleanPath
  else
    match cutAtLast '/' originalUrl with
    | some (dir, _) => dir ++ '/' :: cleanPath
    | none => originalUrl ++ '/' :: cleanPath

def fullPath (t : RequestLine) : Str := t.path ++ withDelimiter '?' t.query

def fromActiveOrigin (around : Surroundings) (t : RequestLine) : Option Str :=
  around.activeOrigin.map fun origin =>
    let upstream := resolveRelativePath origin (fullPath t)
    if isHttp upstream then upstream else origin

/-- The source of the key in the referrer. -/
def fromKey (km : KeyMap) (around : Surroundings) (t : RequestLine) : Option Str :=
  match around.referer.bind (splitOnce "/__proxy__".toList) with
  | some (_, rest) =>
    match km.get (splitKey rest).1 with
    | some source =>
      let upstream := resolveRelativePath source (fullPath t)
      if isHttp upstream then some upstream else fromActiveOrigin around t
    | none => fromActiveOrigin around t
  | none => fromActiveOrigin around t

/-- `resolve_target`; `urldecode` is `urlencoding::decode`. -/
def resolveTarget (urldecode : Str → Option Str) (km : KeyMap) (around : Surroundings)
    (t : RequestLine) : Option Str :=
  match around.referer.bind (splitOnce "/proxy?url=".toList) with
  | some (_, encoded) =>
    match urldecode encoded with
    | some decoded =>
      let upstream := resolveRelativePath decoded (fullPath t)
      if isHttp upstream then some upstream else fromKey km around t
    | none => none
  | none => fromKey km around t

/-- `can_handle` for a GET request that is neither under a key nor has a `url`. -/
def fallsThrough (around : Surroundings) (t : RequestLine) : Bool :=
  (around.referer.any fun r =>
    containsText r "/proxy?url=".toList || containsText r "/__proxy__".toList) ||
  (t.path ≠ "/proxy".toList && t.path ≠ ['/'])

/-! ## From a page to the next request -/

/-- The URL the proxy requests for a request of the browser. -/
def serve (C : UrlCodec) (urldecode : Str → Option Str) (km : KeyMap) (around : Surroundings)
    (t : RequestLine) : Option Str :=
  match handle C km t with
  | .proxied (.ok url) => some url
  | .proxied (.error _) => none
  | .legacy url => some url
  | .passthrough =>
    if fallsThrough around t then resolveTarget urldecode km around t else none

/-- `forward_url` and `proxy_key` of a request that is forwarded with cookies,
rewriting and the rest: under a key, or with a `url` parameter and no key. -/
def loaded (C : UrlCodec) (km : KeyMap) (t : RequestLine) : Option (Str × Str) :=
  match t.path.dropPrefix? "/__proxy__".toList with
  | some rest =>
    match handleProxyRequest C km rest t.query with
    | .ok url => some (url, (splitKey rest).1)
    | .error _ => none
  | none => (paramGet (C.formParse (t.query.getD [])) "url".toList).map fun url => (url, [])

/-- A page in the browser. -/
structure Page where
  host : Str
  line : RequestLine
  host_plain : ∀ c ∈ ['/', '?', '#'], c ∉ host
  path_rooted : line.path.head? = some '/'
  path_noHash : '#' ∉ line.path
  query_noHash : ∀ q ∈ line.query, '#' ∉ q

/-- `build_proxy_prefix` -/
def buildProxyPrefix (host : Str) : Str := "http://".toList ++ host

def Page.url (page : Page) : Str := buildProxyPrefix page.host ++ fullPath page.line

/-- How a redirect is followed: the proxy requests a URL, the browser requests one
that is not the proxy's, or the proxy answers with an error. -/
inductive Followed where
  | proxied (url : Str)
  | outside (url : Reference)
  | refused
deriving DecidableEq

def Followed.target : Followed → Option Target
  | .proxied url => some (parseReference url).target
  | .outside url => some url.target
  | .refused => none

def Followed.ofServed : Option Str → Followed
  | some url => .proxied url
  | none => .refused

/-- The browser follows a reference of a document with the given base. -/
def fetch (C : UrlCodec) (urldecode : Str → Option Str) (km : KeyMap) (around : Surroundings)
    (host : Str) (base : Reference) (ref : Str) : Followed :=
  let url := base.resolve (parseReference ref)
  if url.scheme = some "http".toList ∧ url.authority = some host then
    match requestTarget (buildProxyPrefix host) url.text with
    | some line => .ofServed (serve C urldecode km around line)
    | none => .refused
  else .outside url

/-- The browser follows a `Location` of the page. -/
def follow (C : UrlCodec) (urldecode : Str → Option Str) (km : KeyMap) (around : Surroundings)
    (page : Page) (loc : Str) : Followed :=
  fetch C urldecode km around page.host (parseReference page.url) loc

/-- The `Location` the browser is given for that of a response to `page`. -/
def location (page : Page) (forwardUrl key loc : Str) : Str :=
  (rewriteLocation loc forwardUrl key (buildProxyPrefix page.host)).getD loc

/-- Scheme and authority, with the port. -/
def site (r : Reference) : Option Str × Option Str := (r.scheme, r.authority)

end HomeTier.Redirect
