import HomeTier.Lib.Message
import HomeTier.Proxy.HttpForward
import HomeTier.Proxy.WsUrl

/-! # The upgrade request to the upstream

`handle_raw_upgrade` of `src-tauri/src/proxy/ws_proxy.rs` reads the request line
and the headers of the client (`readUpgrade`), connects, and formats a request
of its own (`upstreamRequest`): path and host of the target, the headers that
are not dropped, and a cookie.

Header lines end at each LF, so no value has one, but a CR inside a line stays.
Path and host come out of the percent-decoded query, with whatever they have.
-/

namespace HomeTier.WsRequest

open Lib WsCodec HttpForward

/-! ## What is read -/

def hopByHop : List Str :=
  ["host".toList, "connection".toList, "keep-alive".toList, "proxy-authenticate".toList,
    "proxy-authorization".toList, "te".toList, "trailers".toList, "transfer-encoding".toList,
    "upgrade".toList]

/-- Headers that the upstream should not see. -/
def dropped : List Str :=
  ["sec-websocket-extensions".toList, "referer".toList, "pragma".toList, "cache-control".toList,
    "sec-fetch-site".toList, "sec-fetch-mode".toList, "sec-fetch-dest".toList,
    "accept-encoding".toList]

structure WsHeaders where
  wsKey : Str
  wsVersion : Str
  extraHeaders : List (Str × Str)
  clientCookie : Option Str
  clientOrigin : Option Str
deriving DecidableEq

/-- One line of the head. -/
def readHeader (h : WsHeaders) (line : Str) : WsHeaders :=
  match cutAt ':' line with
  | (_, none) => h
  | (k, some v) =>
    let key := trim k
    let keyLower := toLowercase key
    let value := trim v
    if keyLower = "sec-websocket-key".toList then { h with wsKey := value }
    else if keyLower = "sec-websocket-version".toList then { h with wsVersion := value }
    else if keyLower = "cookie".toList then { h with clientCookie := some value }
    else if keyLower = "origin".toList then { h with clientOrigin := some value }
    else if keyLower ∈ dropped then h
    else if keyLower ∈ hopByHop then h
    else { h with extraHeaders := h.extraHeaders ++ [(key, value)] }

def readHeaders (ls : List Str) : WsHeaders := ls.foldl readHeader ⟨[], [], [], none, none⟩

/-- The proxy when the upgrade comes in; `connect` is what connecting to a
target gives, `none` when it succeeds. -/
structure Proxy where
  isIp : Str → Bool
  front : Front
  keys : KeyMap
  jars : Jars
  now : UInt64
  connect : WsTarget → Option Str

/-- The target of the upgrade and its headers, or status and message of the error
that is sent to the client. -/
def readUpgrade (P : Proxy) (head : Str) : Except (Str × Str) (WsTarget × WsHeaders) :=
  match lines head with
  | [] => .error ("400 Bad Request".toList, "empty request line".toList)
  | requestLine :: headerLines =>
    match splitWhitespace requestLine with
    | _ :: path :: _ =>
      let h := readHeaders headerLines
      match parseUpgrade P.keys path h.clientOrigin h.clientCookie with
      | .error e => .error ("400 Bad Request".toList, e)
      | .ok req =>
        match resolveTarget P.isIp P.front.port req with
        | none => .error ("502 Bad Gateway".toList, "self-connect blocked".toList)
        | some t => .ok (t, h)
    | _ => .error ("400 Bad Request".toList, "malformed request line".toList)

/-! ## What is written -/

def hostHeader (t : WsTarget) : Str := t.host ++ ':' :: decimal t.port.toNat

def upstreamOrigin (t : WsTarget) (h : WsHeaders) : Str :=
  match h.clientOrigin with
  | some o => o
  | none =>
    (if t.scheme = .wss then "https".toList else "http".toList) ++ "://".toList ++ hostHeader t

/-- Headers that stand in the request already are not added again. -/
def isExtra (p : Str × Str) : Bool :=
  let keyLower := toLowercase p.1
  !(keyLower = "sec-websocket-key".toList || keyLower = "sec-websocket-version".toList ||
    keyLower = "host".toList)

/-- The request, as it is formatted. -/
def upstreamRequest (t : WsTarget) (h : WsHeaders) (cookie : Option Str) : Str :=
  "GET ".toList ++ t.path ++ " HTTP/1.1".toList ++ lineEnd ++
  "Host: ".toList ++ hostHeader t ++ lineEnd ++
  "Upgrade: websocket".toList ++ lineEnd ++
  "Connection: Upgrade".toList ++ lineEnd ++
  "Sec-WebSocket-Key: ".toList ++ h.wsKey ++ lineEnd ++
  "Sec-WebSocket-Version: ".toList ++ h.wsVersion ++ lineEnd ++
  "Origin: ".toList ++ upstreamOrigin t h ++ lineEnd ++
  (h.extraHeaders.filter isExtra).flatMap (fun p => p.1 ++ ": ".toList ++ p.2 ++ lineEnd) ++
  (match cookie with
    | some c => "Cookie: ".toList ++ c ++ lineEnd
    | none => []) ++
  lineEnd

/-- What `handle_raw_upgrade` writes to the upstream. -/
def handleRawUpgrade (P : Proxy) (head : Str) : Except (Str × Str) Str :=
  match readUpgrade P head with
  | .error e => .error e
  | .ok (t, h) =>
    match P.connect t with
    | some e => .error ("502 Bad Gateway".toList, e)
    | none => .ok (upstreamRequest t h (upgradeCookie P.jars t h.clientCookie P.now))

/-! ## Lines -/

/-- The request line and the header lines that are meant. -/
def intendedLines (t : WsTarget) (h : WsHeaders) (cookie : Option Str) : List Str :=
  [ "GET ".toList ++ t.path ++ " HTTP/1.1".toList,
    "Host: ".toList ++ hostHeader t,
    "Upgrade: websocket".toList,
    "Connection: Upgrade".toList,
    "Sec-WebSocket-Key: ".toList ++ h.wsKey,
    "Sec-WebSocket-Version: ".toList ++ h.wsVersion,
    "Origin: ".toList ++ upstreamOrigin t h ] ++
  (h.extraHeaders.map (fun p => p.1 ++ ": ".toList ++ p.2) ++
    (cookie.map fun c => "Cookie: ".toList ++ c).toList)

/-- What is kept of the headers: no newline, and no name of the fixed lines
among the others. -/
structure Read (h : WsHeaders) : Prop where
  wsKey : '\n' ∉ h.wsKey
  wsVersion : '\n' ∉ h.wsVersion
  extraHeaders : ∀ p ∈ h.extraHeaders, '\n' ∉ p.1 ∧ '\n' ∉ p.2 ∧ isExtra p = true
  clientCookie : ∀ c ∈ h.clientCookie, '\n' ∉ c
  clientOrigin : ∀ o ∈ h.clientOrigin, '\n' ∉ o

theorem read_readHeader {h : WsHeaders} {line : Str} (hline : '\n' ∉ line) (hread : Read h) :
    Read (readHeader h line) := by
  have hjoin := cutAt_join ':' line
  unfold readHeader
  split
  · exact hread
  · next k v hcut =>
    rw [hcut] at hjoin
    have hk : '\n' ∉ trim k := by
      intro hmem
      refine hline ?_
      rw [← hjoin]
      exact List.mem_append_left _ (mem_of_mem_trim hmem)
    have hv : '\n' ∉ trim v := by
      intro hmem
      refine hline ?_
      rw [← hjoin]
      exact List.mem_append_right _ (List.mem_cons_of_mem _ (mem_of_mem_trim hmem))
    simp only
    split_ifs with hkey hversion hcookie horigin hdropped hhop
    · exact { hread with wsKey := hv }
    · exact { hread with wsVersion := hv }
    · exact { hread with clientCookie := by simpa using hv }
    · exact { hread with clientOrigin := by simpa using hv }
    · exact hread
    · exact hread
    · refine { hread with extraHeaders := ?_ }
      intro p hp
      rcases List.mem_append.1 hp with hp | hp
      · exact hread.extraHeaders p hp
      · obtain rfl := List.mem_singleton.1 hp
        refine ⟨hk, hv, ?_⟩
        have hhost : toLowercase (trim k) ≠ "host".toList := by
          intro h
          exact hhop (h ▸ List.mem_cons_self)
        show (!(decide (toLowercase (trim k) = _) || decide (toLowercase (trim k) = _) ||
          decide (toLowercase (trim k) = _))) = true
        rw [decide_eq_false hkey, decide_eq_false hversion, decide_eq_false hhost]
        rfl

theorem read_readHeaders {ls : List Str} (hls : ∀ l ∈ ls, '\n' ∉ l) : Read (readHeaders ls) := by
  have hfold : ∀ h : WsHeaders, Read h → Read (ls.foldl readHeader h) := by
    induction ls with
    | nil => exact fun _ h => h
    | cons l ls ih =>
      intro h hread
      rw [List.forall_mem_cons] at hls
      exact ih hls.2 _ (read_readHeader hls.1 hread)
  exact hfold _ ⟨by simp, by simp, by simp, by simp, by simp⟩

/-- What is written are the intended lines and the blank line. -/
theorem upstreamRequest_eq {h : WsHeaders} (hread : Read h) (t : WsTarget) (cookie : Option Str) :
    upstreamRequest t h cookie = headText (intendedLines t h cookie) := by
  have hextra : h.extraHeaders.filter isExtra = h.extraHeaders := by
    rw [List.filter_eq_self]
    intro p hp
    exact (hread.extraHeaders p hp).2.2
  have hlines : headText (h.extraHeaders.map (fun p => p.1 ++ ": ".toList ++ p.2) ++
        (cookie.map fun c => "Cookie: ".toList ++ c).toList) =
      h.extraHeaders.flatMap (fun p => p.1 ++ ": ".toList ++ p.2 ++ lineEnd) ++
        ((match cookie with
          | some c => "Cookie: ".toList ++ c ++ lineEnd
          | none => []) ++ lineEnd) := by
    rw [headText, List.flatMap_append, List.flatMap_map, List.append_assoc]
    cases cookie with
    | none => rfl
    | some c => simp only [Option.map_some, Option.toList_some, List.flatMap_singleton]
  unfold upstreamRequest intendedLines
  rw [hextra]
  simp only [List.cons_append, List.nil_append, headText_cons, hlines]
  simp only [List.append_assoc]

/-! ## One request line and the header lines -/

/-- The cookie line of the jar. -/
def jarCookie (P : Proxy) (t : WsTarget) : Option Str :=
  ((P.jars.jar (CookieJars.upgradeKey t.host t.port)).buildCookieHeader P.now t.host "/".toList).2

/-- Path, host and the jar's cookies have no line break, and what is sent of the
client's headers has no CR. -/
structure Clean (P : Proxy) (t : WsTarget) (h : WsHeaders) : Prop where
  path : OneLine t.path
  host : OneLine t.host
  wsKey : '\r' ∉ h.wsKey
  wsVersion : '\r' ∉ h.wsVersion
  clientOrigin : ∀ o ∈ h.clientOrigin, '\r' ∉ o
  extraHeaders : ∀ p ∈ h.extraHeaders, '\r' ∉ p.1 ∧ '\r' ∉ p.2
  clientCookie : jarCookie P t = none → ∀ c ∈ h.clientCookie, '\r' ∉ c
  jar : ∀ c ∈ jarCookie P t, OneLine c

section Lines

variable {P : Proxy} {t : WsTarget} {h : WsHeaders}

theorem oneLine_decimal (n : Nat) : OneLine (decimal n) := by
  constructor
  · intro hc
    exact absurd (isDigit_of_mem_decimal hc) (by decide)
  · intro hc
    exact absurd (isDigit_of_mem_decimal hc) (by decide)

theorem oneLine_hostHeader : OneLine (hostHeader t) ↔ OneLine t.host := by
  have hport : OneLine (':' :: decimal t.port.toNat) :=
    oneLine_append.2 ⟨(by decide : OneLine [':']), oneLine_decimal _⟩
  rw [hostHeader, oneLine_append, and_iff_left hport]

/-- The origin adds to the host only what the client sent. -/
theorem oneLine_upstreamOrigin (hhost : OneLine t.host) :
    OneLine (upstreamOrigin t h) ↔ ∀ o ∈ h.clientOrigin, OneLine o := by
  unfold upstreamOrigin
  cases h.clientOrigin with
  | some o => simp
  | none =>
    have hscheme : OneLine (if t.scheme = .wss then "https".toList else "http".toList) := by
      split <;> decide
    simp only [oneLine_append, hscheme, oneLine_hostHeader, hhost, and_true, true_and]
    simp only [Option.mem_def, reduceCtorEq, false_imp_iff, implies_true, iff_true]
    decide

theorem oneLine_of_newline {s : Str} (hs : '\n' ∉ s) : OneLine s ↔ '\r' ∉ s :=
  and_iff_left hs

/-- A text in front of what is filled in. -/
theorem oneLine_filled {label s : Str} (hlabel : OneLine label) :
    OneLine (label ++ s) ↔ OneLine s := by
  rw [oneLine_append, and_iff_right hlabel]

theorem fixed_ne_nil {label s : Str} (h : label ≠ []) : label ++ s ≠ [] :=
  List.append_ne_nil_of_left_ne_nil h s

theorem intendedLines_ne_nil (cookie : Option Str) : ∀ l ∈ intendedLines t h cookie, l ≠ [] := by
  have hcolon : (": ".toList : Str) ≠ [] := by decide
  unfold intendedLines
  rw [List.forall_mem_append, List.forall_mem_append]
  refine ⟨?_, ?_, ?_⟩
  · simp only [List.forall_mem_cons, List.append_assoc]
    refine ⟨fixed_ne_nil (by decide), fixed_ne_nil (by decide), by decide, by decide,
      fixed_ne_nil (by decide), fixed_ne_nil (by decide), fixed_ne_nil (by decide), ?_⟩
    simp
  · intro l hl
    rcases List.mem_map.1 hl with ⟨p, -, rfl⟩
    rw [List.append_assoc]
    exact List.append_ne_nil_of_right_ne_nil _ (fixed_ne_nil hcolon)
  · intro l hl
    rcases cookie with _ | c
    · simp at hl
    · obtain rfl := List.mem_singleton.1 hl
      exact fixed_ne_nil (by decide)

/-- The cookie line that is sent. -/
theorem oneLine_upgradeCookie (hread : Read h) :
    (∀ c ∈ upgradeCookie P.jars t h.clientCookie P.now, OneLine c) ↔
      (jarCookie P t = none → ∀ c ∈ h.clientCookie, '\r' ∉ c) ∧
        ∀ c ∈ jarCookie P t, OneLine c := by
  have hclient : (∀ c ∈ h.clientCookie, OneLine c) ↔ ∀ c ∈ h.clientCookie, '\r' ∉ c :=
    forall₂_congr fun c hc => oneLine_of_newline (hread.clientCookie c hc)
  have hsent : upgradeCookie P.jars t h.clientCookie P.now =
      match jarCookie P t with
      | some c => some c
      | none => h.clientCookie := rfl
  rw [hsent]
  cases jarCookie P t with
  | none => simpa using hclient
  | some c => simp

theorem clean_iff (hread : Read h) :
    Clean P t h ↔
      ∀ l ∈ intendedLines t h (upgradeCookie P.jars t h.clientCookie P.now), OneLine l := by
  have hget : OneLine "GET ".toList := by decide
  have hhttp : OneLine " HTTP/1.1".toList := by decide
  have hcolon : OneLine ": ".toList := by decide
  have hfixed : OneLine "Upgrade: websocket".toList ∧ OneLine "Connection: Upgrade".toList := by
    decide
  -- what was read off lines has no line feed in it, so only a CR is left to exclude
  have hextra : (∀ p ∈ h.extraHeaders, OneLine (p.1 ++ ": ".toList ++ p.2)) ↔
      ∀ p ∈ h.extraHeaders, '\r' ∉ p.1 ∧ '\r' ∉ p.2 := by
    refine forall₂_congr fun p hp => ?_
    have hp := hread.extraHeaders p hp
    rw [oneLine_append, oneLine_append, and_iff_left hcolon, oneLine_of_newline hp.1,
      oneLine_of_newline hp.2.1]
  have horigin : OneLine t.host → (OneLine ("Origin: ".toList ++ upstreamOrigin t h) ↔
      ∀ o ∈ h.clientOrigin, '\r' ∉ o) := by
    intro hhost
    rw [oneLine_filled (by decide), oneLine_upstreamOrigin hhost]
    exact forall₂_congr fun o ho => oneLine_of_newline (hread.clientOrigin o ho)
  have hcookie := oneLine_upgradeCookie (P := P) (t := t) hread
  generalize upgradeCookie P.jars t h.clientCookie P.now = cookie at hcookie ⊢
  have hline : (∀ l ∈ (cookie.map fun c => "Cookie: ".toList ++ c).toList, OneLine l) ↔
      ∀ c ∈ cookie, OneLine c := by
    cases cookie with
    | none => simp
    | some c =>
      have hlabel : OneLine ("Cookie: ".toList ++ c) ↔ OneLine c := oneLine_filled (by decide)
      simpa using hlabel
  have hkey : OneLine ("Sec-WebSocket-Key: ".toList ++ h.wsKey) ↔ '\r' ∉ h.wsKey := by
    rw [oneLine_filled (by decide), oneLine_of_newline hread.wsKey]
  have hversion : OneLine ("Sec-WebSocket-Version: ".toList ++ h.wsVersion) ↔
      '\r' ∉ h.wsVersion := by
    rw [oneLine_filled (by decide), oneLine_of_newline hread.wsVersion]
  have hhost : OneLine ("Host: ".toList ++ hostHeader t) ↔ OneLine t.host := by
    rw [oneLine_filled (by decide), oneLine_hostHeader]
  have hpath : OneLine ("GET ".toList ++ t.path ++ " HTTP/1.1".toList) ↔ OneLine t.path := by
    rw [oneLine_append, and_iff_left hhttp, oneLine_filled hget]
  unfold intendedLines
  rw [List.forall_mem_append, List.forall_mem_append, List.forall_mem_map, hline, hcookie, hextra]
  simp only [List.forall_mem_cons, List.not_mem_nil, false_imp_iff, implies_true, and_true, hpath, hhost, hkey, hversion,
    hfixed.1, hfixed.2, true_and]
  constructor
  · intro hclean
    exact ⟨⟨hclean.path, hclean.host, hclean.wsKey, hclean.wsVersion,
      (horigin hclean.host).2 hclean.clientOrigin⟩, hclean.extraHeaders, hclean.clientCookie,
      hclean.jar⟩
  · rintro ⟨⟨hp, hh, hk, hv, ho⟩, he, hc, hj⟩
    exact ⟨hp, hh, hk, hv, (horigin hh).1 ho, he, hc, hj⟩

/-- Headers that come out of a head. -/
theorem read_of_readUpgrade {head : Str} (hok : readUpgrade P head = .ok (t, h)) : Read h := by
  unfold readUpgrade at hok
  split at hok
  · cases hok
  · next requestLine headerLines hlines =>
    have hheaders : Read (readHeaders headerLines) := by
      apply read_readHeaders
      intro l hl
      have hmem : l ∈ lines head := by
        rw [hlines]
        exact List.mem_cons_of_mem _ hl
      exact newline_notMem_of_mem_lines hmem
    split at hok
    · simp only at hok
      split at hok
      · cases hok
      · split at hok
        · cases hok
        · cases hok
          exact hheaders
    · cases hok

theorem handleRawUpgrade_ok {head : Str} (hok : readUpgrade P head = .ok (t, h))
    (hconnect : P.connect t = none) : handleRawUpgrade P head =
      .ok (upstreamRequest t h (upgradeCookie P.jars t h.clientCookie P.now)) := by
  rw [handleRawUpgrade, hok]
  simp only [hconnect]

theorem handleRawUpgrade_error {head e : Str} (hok : readUpgrade P head = .ok (t, h))
    (hconnect : P.connect t = some e) :
    handleRawUpgrade P head = .error ("502 Bad Gateway".toList, e) := by
  rw [handleRawUpgrade, hok]
  simp only [hconnect]

end Lines

/-- The upstream sees the intended lines and no others exactly when what they are
made of is clean. -/
theorem wireLines_iff (P : Proxy) (head : Str) :
    (∀ t h text, readUpgrade P head = .ok (t, h) → handleRawUpgrade P head = .ok text →
      wireLines text = intendedLines t h (upgradeCookie P.jars t h.clientCookie P.now)) ↔
      ∀ t h, readUpgrade P head = .ok (t, h) → P.connect t = none → Clean P t h := by
  constructor
  · intro hall t h hok hconnect
    have hread := read_of_readUpgrade hok
    have hlines := hall t h _ hok (handleRawUpgrade_ok hok hconnect)
    rw [upstreamRequest_eq hread] at hlines
    exact (clean_iff hread).2 ((wireLines_headText (intendedLines_ne_nil _)).1 hlines)
  · intro hall t h text hok hwritten
    have hread := read_of_readUpgrade hok
    cases hconnect : P.connect t with
    | some e =>
      rw [handleRawUpgrade_error hok hconnect] at hwritten
      cases hwritten
    | none =>
      rw [handleRawUpgrade_ok hok hconnect] at hwritten
      obtain rfl := Except.ok.inj hwritten
      rw [upstreamRequest_eq hread]
      exact (wireLines_headText (intendedLines_ne_nil _)).2
        ((clean_iff hread).1 (hall t h hok hconnect))

/-- The headers of a handshake. -/
def handshake : Str :=
  "Host: 127.0.0.1:8080\r\nUpgrade: websocket\r\nConnection: Upgrade\r\n".toList ++
  "Sec-WebSocket-Key: dGhlIHNhbXBsZSBub25jZQ==\r\nSec-WebSocket-Version: 13\r\n\r\n".toList

/-- A path with an encoded line break. -/
def smuggled : Str := "GET /?ws=h.io/a%0d%0ab:c HTTP/1.1\r\n".toList ++ handshake

def plainProxy : Proxy where
  isIp := fun _ => false
  front := ⟨8080, by decide⟩
  keys := ∅
  jars := ∅
  now := 0
  connect := fun _ => none

/-- What is made of it. -/
def smuggledTarget : WsTarget := ⟨"h.io".toList, 80, .ws, "/a\r\nb:c".toList⟩

def handshakeHeaders : WsHeaders :=
  ⟨"dGhlIHNhbXBsZSBub25jZQ==".toList, "13".toList, [], none, none⟩

/-- The upstream reads a header that the client did not send. -/
theorem header_smuggled :
    ¬ ∀ (P : Proxy) (head : Str) (t : WsTarget) (h : WsHeaders) (text : Str),
      readUpgrade P head = .ok (t, h) → handleRawUpgrade P head = .ok text →
        wireLines text = intendedLines t h (upgradeCookie P.jars t h.clientCookie P.now) := by
  intro hall
  have hread : (readUpgrade plainProxy smuggled).toOption = some (smuggledTarget, handshakeHeaders) := by
    decide
  cases hok : readUpgrade plainProxy smuggled with
  | error e =>
    rw [hok] at hread
    cases hread
  | ok r =>
    rw [hok] at hread
    obtain rfl : r = (smuggledTarget, handshakeHeaders) := Option.some.inj hread
    have hlines := hall _ _ _ _ _ hok (handleRawUpgrade_ok hok rfl)
    have hbreak : "b:c HTTP/1.1".toList ∈ wireLines (upstreamRequest smuggledTarget
        handshakeHeaders (upgradeCookie plainProxy.jars smuggledTarget none plainProxy.now)) := by
      decide
    have hnot : "b:c HTTP/1.1".toList ∉ intendedLines smuggledTarget handshakeHeaders
        (upgradeCookie plainProxy.jars smuggledTarget none plainProxy.now) := by
      decide
    exact hnot (hlines ▸ hbreak)

end HomeTier.WsRequest
