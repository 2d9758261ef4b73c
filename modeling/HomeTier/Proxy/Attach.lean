import HomeTier.Proxy.Jars
import HomeTier.Proxy.Url

/-! # Cookies on their way back

What `proxy/plugins/http_forward.rs` and `proxy/ws_proxy.rs` send of the jars. A
forwarded request looks its jar up under the authority as the URL writes it, and
matches domains against that authority; an upgrade looks it up under
`host:port`, with the port always there, matches domains against the host and
paths against `/`.
-/

namespace HomeTier

open Lib

/-! ## Forwarded requests -/

/-- `merge_cookie_headers`: pairs of the client, replaced by those of the jar. -/
def mergeCookieHeaders (native : Option Str) (jar : Str) : Str :=
  let pairs := match native with
    | some n => cookiePairs n
    | none => []
  cookieLine (((cookiePairs jar).foldl (fun pairs p => upsert Prod.fst p pairs) pairs).map pairText)

/-- The `Cookie` headers of a forwarded request; `native` are those of the
client. -/
def forwardCookies (jars : Jars) (forwardUrl : Str) (native : List Str) (now : UInt64) : List Str :=
  let origin := (splitUpstream forwardUrl).1
  let path := (splitUpstream forwardUrl).2
  if origin = [] then native
  else
    match ((jars.jar origin).buildCookieHeader now origin path).2 with
    | some jc => [mergeCookieHeaders native.head? jc]
    | none => native

/-! ## Upgrades -/

inductive WsScheme where
  | ws
  | wss
deriving DecidableEq, Repr

/-- An upgrade request: scheme and decoded target of its query, the `Origin` and
`Cookie` headers, and the source URL of the key in its path. -/
structure UpgradeRequest where
  scheme : WsScheme
  target : Str
  clientOrigin : Option Str
  clientCookie : Option Str
  keyOrigin : Option Str

/-- Where an upgrade goes. -/
structure WsTarget where
  host : Str
  port : UInt16
  scheme : WsScheme
  path : Str
deriving DecidableEq, Repr

def selfHosts : List Str :=
  ["127.0.0.1".toList, "localhost".toList, "::1".toList, "[::1]".toList]

/-- The target is the proxy itself. -/
def isSelf (frontPort : UInt16) (t : WsTarget) : Bool :=
  selfHosts.any (fun host => host = t.host) && t.port = frontPort

/-- The target as the query names it. -/
def namedTarget (req : UpgradeRequest) : WsTarget :=
  let authority := (cutAt '/' req.target).1
  let path := match (cutAt '/' req.target).2 with
    | some p => '/' :: p
    | none => "/".toList
  let defaultPort : UInt16 := if req.scheme = .wss then 443 else 80
  match cutAtLast ':' authority with
  | some (host, port) => ⟨host, (parseU16 port).getD defaultPort, req.scheme, path⟩
  | none => ⟨authority, defaultPort, req.scheme, path⟩

/-- Host and port of the `Origin` header. -/
def fromClientOrigin (t : WsTarget) (origin : Str) : WsTarget :=
  let rest := match origin.dropPrefix? "http://".toList with
    | some r => r
    | none =>
      match origin.dropPrefix? "https://".toList with
      | some r => r
      | none => []
  match cutAtLast ':' rest with
  | some (host, port) =>
    match parseU16 port with
    | some p => { t with host := host, port := p }
    | none => t
  | none => t

/-- Host, port and scheme of the source URL of the key. -/
def fromKeyOrigin (t : WsTarget) (origin : Str) : WsTarget :=
  let rest := match splitOnce "://".toList origin with
    | some (_, rest) => rest
    | none => origin
  let authority := (cutAt '/' rest).1
  let secure := "https://".toList.isPrefixOf origin
  match cutAtLast ':' authority with
  | some (host, port) =>
    match parseU16 port with
    | some p => { t with host := host, port := p, scheme := if secure then .wss else t.scheme }
    | none => t
  | none =>
    { t with
      host := authority
      port := if secure then 443 else 80
      scheme := if secure then .wss else t.scheme }

/-- The target of an upgrade in `handle_raw_upgrade`, `none` for the proxy's own
port. `isIp` is whether a text parses as an address. -/
def resolveTarget (isIp : Str → Bool) (frontPort : UInt16) (req : UpgradeRequest) :
    Option WsTarget :=
  let named := namedTarget req
  let valid := '.' ∈ named.host || isIp named.host
  let t := match req.clientOrigin with
    | some origin => if valid then named else fromClientOrigin named origin
    | none => named
  let t := match req.keyOrigin with
    | some origin =>
      if isSelf frontPort t || !valid then fromKeyOrigin t origin else t
    | none => t
  if isSelf frontPort t then none else some t

/-- The `Cookie` header of an upgrade: the jar's, else the client's. -/
def upgradeCookie (jars : Jars) (t : WsTarget) (clientCookie : Option Str) (now : UInt64) :
    Option Str :=
  match ((jars.jar (CookieJars.upgradeKey t.host t.port)).buildCookieHeader now t.host
      "/".toList).2 with
  | some jc => some jc
  | none => clientCookie

/-! ## The way back -/

/-- An upstream: scheme, host and port. A colon in a host stands in brackets. -/
structure UpstreamOrigin where
  secure : Bool
  host : Str
  port : UInt16
  host_plain : '/' ∉ host
  host_colon : ':' ∉ host ∨ host.getLast? = some ']'

namespace UpstreamOrigin

def scheme (O : UpstreamOrigin) : Str := if O.secure then "https".toList else "http".toList

def wsScheme (O : UpstreamOrigin) : WsScheme := if O.secure then .wss else .ws

def defaultPort (O : UpstreamOrigin) : UInt16 := if O.secure then 443 else 80

/-- `host:port` -/
def hostPort (O : UpstreamOrigin) : Str := CookieJars.upgradeKey O.host O.port

/-- A URL of this origin: the default port may be left out. -/
structure Owns (O : UpstreamOrigin) (u : HttpUrl) : Prop where
  scheme : u.scheme = O.scheme
  authority : u.authority = O.hostPort ∨ (O.port = O.defaultPort ∧ u.authority = O.host)

end UpstreamOrigin

/-- Path matching of RFC 6265, section 5.1.4. -/
def PathMatch (cookiePath requestPath : Str) : Prop :=
  cookiePath = requestPath ∨
    ∃ rest, requestPath = cookiePath ++ rest ∧
      (cookiePath.getLast? = some '/' ∨ rest.head? = some '/')

/-- One of the `Cookie` headers has the cookie. -/
def Carries (lines : List Str) (c : StoredCookie) : Prop :=
  ∃ line ∈ lines, (c.name, c.value) ∈ cookiePairs line

/-! ## Jar keys -/

/-- The key of a request is what stands in front of the first slash, or that
without a colon at its end. -/
theorem splitUpstream_fst {scheme : Str} (hscheme : ':' ∉ scheme) (after : Str) :
    (splitUpstream (scheme ++ "://".toList ++ after)).1 = after.takeWhile (· ≠ '/') ∨
      after.takeWhile (· ≠ '/') = (splitUpstream (scheme ++ "://".toList ++ after)).1 ++ [':'] := by
  have hsplit : splitOnce "://".toList (scheme ++ "://".toList ++ after) = some (scheme, after) :=
    splitOnce_append hscheme after
  rw [splitUpstream_origin]
  simp only [behindScheme, hsplit]
  cases hagain : splitOnce "://".toList after with
  | none => exact .inl rfl
  | some r =>
    rcases r with ⟨piece, b⟩
    have hafter := splitOnce_eq_some hagain
    by_cases hslash : '/' ∈ piece
    · left
      rcases List.eq_append_cons_of_mem hslash with ⟨p, q, rfl, hp⟩
      have htake : ∀ t : Str, (p ++ '/' :: t).takeWhile (· ≠ '/') = p := fun t =>
        congrArg Prod.fst (cutAt_append hp t)
      simp only [hafter, htake, List.append_assoc, List.cons_append]
    · right
      have hcolon : '/' ∉ piece ++ [':'] := by simpa using hslash
      have htake : (piece ++ [':'] ++ '/' :: '/' :: b).takeWhile (· ≠ '/') = piece ++ [':'] :=
        congrArg Prod.fst (cutAt_append hcolon ('/' :: b))
      have hform : after = piece ++ [':'] ++ '/' :: '/' :: b := by
        rw [hafter]
        simp
      simp only [hform, htake, takeWhile_ne_eq_self hslash]

namespace HttpUrl

/-- Behind the origin comes a path, a query, a fragment or nothing. -/
theorem tail_head (u : HttpUrl) : u.tail.head? ≠ some ':' := by
  unfold tail
  rcases u.path_rooted with hp | hp
  · rw [hp]
    cases u.query with
    | some q => simp [withDelimiter]
    | none =>
      cases u.fragment with
      | some f => simp [withDelimiter]
      | none => simp [withDelimiter]
  · cases hpath : u.path with
    | nil => simp [hpath] at hp
    | cons c p =>
      obtain rfl : c = '/' := by simpa [hpath] using hp
      simp

/-- Up to the first slash there is nothing of the tail, or a query or fragment. -/
theorem takeWhile_tail_eq_nil (u : HttpUrl) :
    u.tail.takeWhile (· ≠ '/') = [] ↔ (u.path = [] → u.query = none ∧ u.fragment = none) := by
  unfold tail
  rcases u.path_rooted with hp | hp
  · rw [hp]
    cases u.query with
    | some q => simp [withDelimiter]
    | none =>
      cases u.fragment with
      | some f => simp [withDelimiter]
      | none => simp [withDelimiter]
  · cases hpath : u.path with
    | nil => simp [hpath] at hp
    | cons c p =>
      obtain rfl : c = '/' := by simpa [hpath] using hp
      simp

end HttpUrl

namespace UpstreamOrigin

variable (O : UpstreamOrigin)

theorem hostPort_getLast : ∃ d : Char, d.isDigit = true ∧ O.hostPort.getLast? = some d := by
  have hne := decimal_ne_nil O.port.toNat
  refine ⟨(decimal O.port.toNat).getLast hne, isDigit_of_mem_decimal (List.getLast_mem hne), ?_⟩
  rw [hostPort, CookieJars.upgradeKey, List.getLast?_append, List.getLast?_cons,
    List.getLast?_eq_some_getLast hne]
  rfl

theorem hostPort_ne_colon : O.hostPort.getLast? ≠ some ':' := by
  rcases O.hostPort_getLast with ⟨d, hd, hlast⟩
  rw [hlast]
  rintro ⟨rfl⟩
  simp [Char.isDigit] at hd

/-- The jar of `host:port` is that of a URL that writes the port, and a path in
front of a query or fragment. -/
structure WritesPort (u : HttpUrl) : Prop where
  authority : u.authority = O.hostPort
  path : u.path = [] → u.query = none ∧ u.fragment = none

theorem splitUpstream_eq_hostPort {u : HttpUrl} (h : O.Owns u) :
    (splitUpstream u.text).1 = O.hostPort ↔ O.WritesPort u := by
  have hno : '/' ∉ u.authority := u.authority_noSlash
  have hfront : (u.authority ++ u.tail).takeWhile (· ≠ '/') =
      u.authority ++ u.tail.takeWhile (· ≠ '/') := by
    refine List.takeWhile_append_of_pos ?_
    intro a ha
    have hne : a ≠ '/' := by
      rintro rfl
      exact hno ha
    simpa using hne
  have htext : u.text = u.scheme ++ "://".toList ++ (u.authority ++ u.tail) := by
    simp only [HttpUrl.text, Origin.origin, List.append_assoc]
  have hkey := splitUpstream_fst u.scheme_noColon (u.authority ++ u.tail)
  rw [← htext, hfront] at hkey
  -- a colon behind the authority would be the first character of the tail
  have htail : ∀ t : Str, u.tail.takeWhile (· ≠ '/') ≠ ':' :: t := by
    intro t ht
    apply u.tail_head
    cases htl : u.tail with
    | nil => simp [htl] at ht
    | cons c l =>
      have hc : c = ':' := by
        rw [htl, List.takeWhile_cons] at ht
        split at ht
        · exact (List.cons.inj ht).1
        · simp at ht
      rw [hc]
      rfl
  constructor
  · intro heq
    rw [heq] at hkey
    rcases h.authority with hauth | ⟨-, hauth⟩
    · rw [hauth] at hkey
      refine ⟨hauth, (u.takeWhile_tail_eq_nil).1 ?_⟩
      rcases hkey with hkey | hkey
      · simpa using hkey
      · exact absurd (List.append_cancel_left hkey) (htail [])
    · rw [hauth, hostPort, CookieJars.upgradeKey] at hkey
      rcases hkey with hkey | hkey
      · exact absurd (List.append_cancel_left hkey).symm (htail _)
      · rw [List.append_assoc, List.cons_append] at hkey
        exact absurd (List.append_cancel_left hkey) (htail _)
  · rintro ⟨hauth, hpath⟩
    rw [(u.takeWhile_tail_eq_nil).2 hpath, hauth, List.append_nil] at hkey
    rcases hkey with hkey | hkey
    · exact hkey
    · refine absurd ?_ O.hostPort_ne_colon
      rw [hkey]
      simp

/-- A domain that is the host or a parent of it never matches `host:port`. -/
theorem domain_ne_hostPort {c : StoredCookie} {d : Str} (hd : c.domain = some d)
    (hof : d = O.host ∨ '.' :: d <:+ O.host) : domainOk O.hostPort c = false := by
  have hsuffix : trimStartMatches '.' d <:+ O.host := by
    have htrim : trimStartMatches '.' d <:+ d := List.dropWhile_suffix _
    rcases hof with rfl | hof
    · exact htrim
    · exact htrim.trans ((List.suffix_cons '.' d).trans hof)
  simp only [domainOk, hd, Bool.or_eq_false_iff, decide_eq_false_iff_not]
  constructor
  · intro heq
    have hlen := hsuffix.length_le
    rw [← heq, hostPort, CookieJars.upgradeKey, List.length_append] at hlen
    simp only [List.length_cons] at hlen
    omega
  · rw [Bool.eq_false_iff, ne_eq, List.isSuffixOf_iff_suffix]
    intro hdot
    have hport : ':' :: decimal O.port.toNat <:+ O.hostPort := List.suffix_append _ _
    rcases List.suffix_or_suffix_of_suffix hdot hport with hin | hin
    · -- the dot would stand in the port
      have hmem : '.' ∈ ':' :: decimal O.port.toNat := hin.subset List.mem_cons_self
      rcases List.mem_cons.1 hmem with hc | hc
      · exact absurd hc (by decide)
      · have := isDigit_of_mem_decimal hc
        simp [Char.isDigit] at this
    · -- the port would stand in the host
      have hhost : ':' :: decimal O.port.toNat <:+ O.host := by
        rcases List.suffix_cons_iff.1 hin with heq | hin
        · exact absurd (List.cons.inj heq).1 (by decide)
        · exact hin.trans hsuffix
      rcases O.host_colon with hno | hlast
      · exact hno (hhost.subset List.mem_cons_self)
      · rcases hhost with ⟨front, hfront⟩
        have hne := decimal_ne_nil O.port.toNat
        rw [← hfront, List.getLast?_append, List.getLast?_cons,
          List.getLast?_eq_some_getLast hne] at hlast
        have hdigit := isDigit_of_mem_decimal (List.getLast_mem hne)
        rw [show (decimal O.port.toNat).getLast hne = ']' by simpa using hlast] at hdigit
        simp [Char.isDigit] at hdigit

end UpstreamOrigin

/-! ## What a jar sends -/

/-- Name and value of a stored cookie. -/
def StoredCookie.pair (c : StoredCookie) : Str × Str := (c.name, c.value)

section Sending

variable {jar : Jar} {c : StoredCookie} {now : UInt64} {host requestPath : Str}

/-- The cookies of a jar that match a request. -/
def Jar.matched (now : UInt64) (jar : Jar) (host requestPath : Str) : Jar :=
  (jar.purge now).filter (isMatch host requestPath)

theorem buildCookieHeader_eq (now : UInt64) (jar : Jar) (host requestPath : Str) :
    (jar.buildCookieHeader now host requestPath).2 =
      if jar.matched now host requestPath = [] then none
      else some (cookieLine (((jar.matched now host requestPath).map StoredCookie.pair).map
        pairText)) := by
  rw [List.map_map]
  rfl

theorem lastOf_matched {κ : Type} {key : StoredCookie → κ}
    (h : LastOf key c (jar.filter (isMatch host requestPath)))
    (hlive : c.expiredAt now = false) : LastOf key c (jar.matched now host requestPath) := by
  rw [Jar.matched, Jar.purge, List.filter_comm]
  exact h.filter (by simp [hlive])

theorem tidy_matched (h : ∀ c ∈ jar, Tidy c.pair) :
    ∀ p ∈ (jar.matched now host requestPath).map StoredCookie.pair, Tidy p := by
  intro p hp
  rcases List.mem_map.1 hp with ⟨c, hc, rfl⟩
  exact h c (List.mem_of_mem_filter (List.mem_of_mem_filter hc))

/-- A matching cookie is on the line of its jar. -/
theorem buildCookieHeader_of_mem (htidy : ∀ c ∈ jar, Tidy c.pair)
    (h : c ∈ jar.matched now host requestPath) :
    ∃ line, (jar.buildCookieHeader now host requestPath).2 = some line ∧
      cookiePairs line = (jar.matched now host requestPath).map StoredCookie.pair := by
  have hne : jar.matched now host requestPath ≠ [] := List.ne_nil_of_mem h
  refine ⟨_, ?_, cookiePairs_cookieLine (tidy_matched htidy)⟩
  rw [buildCookieHeader_eq, if_neg hne]

/-- The last cookie of its name on the jar's line survives the merge. -/
theorem mem_mergeCookieHeaders {native : Option Str} {line : Str} {p : Str × Str}
    (h : LastOf Prod.fst p (cookiePairs line)) :
    p ∈ cookiePairs (mergeCookieHeaders native line) := by
  unfold mergeCookieHeaders
  rw [cookiePairs_cookieLine]
  · exact mem_foldl_upsert h _
  · intro q hq
    rcases of_mem_foldl_upsert hq with hq | hq
    · cases native with
      | none => simp at hq
      | some n => exact tidy_of_mem_cookiePairs hq
    · exact tidy_of_mem_cookiePairs hq

end Sending

end HomeTier
