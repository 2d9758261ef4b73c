import HomeTier.Lib.Percent
import HomeTier.Log.Record
import HomeTier.Proxy.Attach
import HomeTier.Proxy.Forward

/-! # WebSocket URLs of a proxied page

A page opens a WebSocket through `r_ws` of the script that
`inject_local_http_script` (`src-tauri/src/proxy/hometier_protocol.rs`) puts into
it; `rWs` is that function. The browser connects to the proxy, and
`handle_raw_upgrade` (`proxy/ws_proxy.rs`) reads the URL back from the query of
the request line (`parseUpgrade`), resolves it (`resolveTarget`) and connects
(`connectUpstream`).

The decoder cuts the host at a slash and at the last colon, whatever stands
behind them, and takes a host without a dot for no host at all. For wss the host
has to be a server name, which an address in brackets is not. `WsExact` says which
URLs arrive as the page wrote them.
-/

namespace HomeTier.WsCodec

open Lib

/-! ## URLs -/

/-- Host and port of a URL as they are written. A colon in a host stands in
brackets. -/
structure Address where
  host : Str
  port : Option UInt16
  host_ne : host ≠ []
  host_plain : ∀ c ∈ ['/', '?', '#'], c ∉ host
  host_colon : ':' ∉ host ∨ host.getLast? = some ']'

def Address.text (a : Address) : Str :=
  a.host ++ withDelimiter ':' (a.port.map fun p => decimal p.toNat)

def defaultPort (secure : Bool) : UInt16 := if secure then 443 else 80

/-- The source URL of a key: path, query and fragment are its tail. -/
structure Source where
  secure : Bool
  address : Address
  tail : Str
  tail_starts : tail = [] ∨ ∃ c ∈ ['/', '?', '#'], tail.head? = some c

namespace Source

def scheme (S : Source) : Str := if S.secure then "https".toList else "http".toList

def text (S : Source) : Str := S.scheme ++ "://".toList ++ (S.address.text ++ S.tail)

def port (S : Source) : UInt16 := S.address.port.getD (defaultPort S.secure)

end Source

/-- A ws(s) URL, in its serialized form. -/
structure WsUrl where
  secure : Bool
  address : Address
  path : Str
  query : Option Str
  path_rooted : path = [] ∨ path.head? = some '/'
  path_plain : ∀ c ∈ ['?', '#'], c ∉ path
  query_plain : ∀ q ∈ query, ∀ c ∈ ['#', Char.ofNat 39], c ∉ q

namespace WsUrl

def scheme (U : WsUrl) : WsScheme := if U.secure then .wss else .ws

def schemeText (U : WsUrl) : Str := if U.secure then "wss".toList else "ws".toList

/-- Everything behind host and port. -/
def tail (U : WsUrl) : Str := U.path ++ withDelimiter '?' U.query

def text (U : WsUrl) : Str := U.schemeText ++ "://".toList ++ (U.address.text ++ U.tail)

/-- Path and query that a connection to the URL requests. -/
def requestPath (U : WsUrl) : Str :=
  (if U.path = [] then "/".toList else U.path) ++ withDelimiter '?' U.query

/-- Where the URL says. -/
def target (U : WsUrl) : WsTarget :=
  ⟨U.address.host, U.address.port.getD (defaultPort U.secure), U.scheme, U.requestPath⟩

end WsUrl

/-- The proxy's listener: the system chose its port. -/
structure Front where
  port : UInt16
  ephemeral : 1024 ≤ port.toNat

/-- `location.host` of a proxied page. -/
def Front.location (front : Front) : Str := "127.0.0.1:".toList ++ decimal front.port.toNat

/-! ## The script -/

/-- What `encodeURIComponent` leaves as it is. -/
def isUnreserved (c : Char) : Bool := c.isAlphanum || "-_.!~*'()".toList.contains c

def encodeURIComponent (s : Str) : Str := percentEncode isUnreserved s

def isAuthority (c : Char) : Bool := c ≠ '/' && c ≠ '?' && c ≠ '#'

/-- `/^(wss?):\/\/([^\/?#]*)(.*)$/i`: scheme in lower case, host with port, and
the rest. -/
def wsMatch (u : Str) : Option (Str × Str × Str) :=
  if toAsciiLowercase (u.take 5) = "ws://".toList then
    some ("ws".toList, (u.drop 5).takeWhile isAuthority, (u.drop 5).dropWhile isAuthority)
  else if toAsciiLowercase (u.take 6) = "wss://".toList then
    some ("wss".toList, (u.drop 6).takeWhile isAuthority, (u.drop 6).dropWhile isAuthority)
  else none

/-- `O.split("://")[1] || ""` up to a slash. -/
def originHost (origin : Str) : Str :=
  match splitOnce "://".toList origin with
  | none => []
  | some (_, after) =>
    match splitOnce "://".toList after with
    | none => (cutAt '/' after).1
    | some (piece, _) => (cutAt '/' piece).1

/-- `r_ws` of a page at `location`, for the key and source origin in its script. -/
def rWs (location key origin u : Str) : Str :=
  if containsText u "/__proxy__".toList then u
  else
    match wsMatch u with
    | none => u
    | some (scheme, h, rest) =>
      let rest := if rest = [] then "/".toList else rest
      let oh := originHost origin
      let param := '?' :: scheme ++ '=' :: encodeURIComponent (h ++ rest)
      if h = location ∨ (oh ≠ [] ∧ h = oh) then
        "ws://".toList ++ (location ++ "/__proxy__".toList ++ key ++ param)
      else "ws://".toList ++ (location ++ param)

/-! ## The browser -/

/-- Queries of special schemes have no apostrophe. -/
def specialQuery (q : Str) : Str :=
  q.flatMap fun c => if c = Char.ofNat 39 then "%27".toList else [c]

/-- Path and query of the upgrade request for a URL of the proxy; a URL of
another host is not its business. -/
def upgradeLine (front : Front) (url : Str) : Option Str :=
  match url.dropPrefix? "ws://".toList with
  | none => none
  | some after =>
    let authority := after.takeWhile isAuthority
    let line := (cutAt '#' (after.dropWhile isAuthority)).1
    let path := (cutAt '?' line).1
    let query := (cutAt '?' line).2
    if authority = front.location ∨
        authority = "localhost:".toList ++ decimal front.port.toNat then
      some ((if path = [] then "/".toList else path) ++
        withDelimiter '?' (query.map specialQuery))
    else none

/-! ## The proxy -/

/-- Source URL of the key in a path. -/
def keyOrigin (km : KeyMap) (path : Str) : Option Str :=
  match (cutAt '?' path).1.dropPrefix? "/__proxy__".toList with
  | none => none
  | some rest =>
    let key := (cutAt '/' rest).1
    if key = [] then none else km.get key

/-- The upgrade request as `handle_raw_upgrade` reads it, or its error message. -/
def parseUpgrade (km : KeyMap) (path : Str) (clientOrigin clientCookie : Option Str) :
    Except Str UpgradeRequest :=
  let read := fun (scheme : WsScheme) (encoded : Str) =>
    match percentDecode encoded with
    | some target =>
      .ok ⟨scheme, target, clientOrigin, clientCookie, keyOrigin km path⟩
    | none => .error "url decode failed".toList
  match (cutAt '?' path).2 with
  | none => .error "missing ?ws= query".toList
  | some query =>
    let qs := (cutAt '?' query).1
    match qs.dropPrefix? "ws=".toList, qs.dropPrefix? "wss=".toList with
    | some encoded, _ => read .ws encoded
    | none, some encoded => read .wss encoded
    | none, none => .error ("unsupported query: ".toList ++ path)

/-- Where an upgrade is to go. -/
def resolveUpgrade (isIp : Str → Bool) (front : Front) (km : KeyMap) (path : Str)
    (clientOrigin clientCookie : Option Str) : Except Str WsTarget :=
  match parseUpgrade km path clientOrigin clientCookie with
  | .error e => .error e
  | .ok req =>
    match resolveTarget isIp front.port req with
    | some t => .ok t
    | none => .error "self-connect blocked".toList

/-- What the proxy meets outside: which texts parse as addresses, what a TCP
connection to host and port gives (a timeout has no text), which hosts rustls
takes for server names, and what a handshake over a connection gives. -/
structure Network where
  isIp : Str → Bool
  tcp : Str → Except (Option Str) Unit
  serverName : Str → Bool
  tls : Str → Except Str Unit

/-- The address that is connected to. -/
def upstreamAddr (t : WsTarget) : Str := t.host ++ ':' :: decimal t.port.toNat

/-- `connect_upstream`: the host of a wss target has to be a server name. -/
def connectUpstream (net : Network) (t : WsTarget) : Except Str Unit :=
  match net.tcp (upstreamAddr t) with
  | .error none => .error ("connect timeout: ".toList ++ upstreamAddr t)
  | .error (some e) =>
    .error ("connect failed: ".toList ++ upstreamAddr t ++ ": ".toList ++ e)
  | .ok () =>
    if t.scheme = .wss then
      if net.serverName t.host then
        match net.tls (upstreamAddr t) with
        | .error e => .error ("tls connect: ".toList ++ e)
        | .ok () => .ok ()
      else .error ("invalid hostname: ".toList ++ t.host)
    else .ok ()

/-- Where the proxy is connected to for an upgrade, or its error message. -/
def connectTo (net : Network) (front : Front) (km : KeyMap) (path : Str)
    (clientOrigin clientCookie : Option Str) : Except Str WsTarget :=
  match resolveUpgrade net.isIp front km path clientOrigin clientCookie with
  | .error e => .error e
  | .ok t =>
    match connectUpstream net t with
    | .error e => .error e
    | .ok () => .ok t

/-- Where a URL that a page of the source opens leads to; none when the upgrade is
refused or does not come to the proxy. -/
def leadsTo (isIp : Str → Bool) (front : Front) (km : KeyMap) (key source : Str)
    (cookie : Option Str) (u : Str) : Option WsTarget :=
  match upgradeLine front (rWs front.location key (baseOrigin source) u) with
  | none => none
  | some path =>
    (resolveUpgrade isIp front km path (some ("http://".toList ++ front.location))
      cookie).toOption

/-- Where the proxy is connected to when a page of the source opens a URL. -/
def openSocket (net : Network) (front : Front) (km : KeyMap) (key source : Str)
    (cookie : Option Str) (u : Str) : Option WsTarget :=
  match upgradeLine front (rWs front.location key (baseOrigin source) u) with
  | none => none
  | some path =>
    (connectTo net front km path (some ("http://".toList ++ front.location)) cookie).toOption

/-- The target is where the URL says; for a URL of the proxy itself, at the source
with the same path and query. -/
def AsWritten (front : Front) (S : Source) (U : WsUrl) (t : WsTarget) : Prop :=
  if U.address.text = front.location then
    t.host = S.address.host ∧ t.port = S.port ∧ t.path = U.requestPath
  else t = U.target

/-- The proxy connects to where the URL says. -/
def OpensAsWritten (net : Network) (front : Front) (km : KeyMap) (key : Str) (S : Source)
    (cookie : Option Str) (U : WsUrl) : Prop :=
  ∃ t, openSocket net front km key S.text cookie U.text = some t ∧ AsWritten front S U t

end HomeTier.WsCodec
