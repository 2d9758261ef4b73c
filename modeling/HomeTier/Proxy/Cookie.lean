import HomeTier.Lib.Decimal
import HomeTier.Lib.Http
import HomeTier.Lib.Table

/-! # Cookies and the jar of a host

`parse_set_cookie`, `parse_http_date` and `PerHostCookieJar` of
`src-tauri/src/proxy/hometier_protocol.rs`. A jar identifies a cookie by name,
path and domain when it stores one and by name and path when it deletes one.
Every reading of the clock is an argument.
-/

namespace HomeTier

open Lib

/-- Date parsers of the `chrono` crate: seconds since the epoch. -/
structure Chrono where
  parseFromRfc2822 : Str → Option Int
  naiveParseFromStr : Str → Str → Option Int

structure StoredCookie where
  name : Str
  value : Str
  path : Str
  domain : Option Str
  expiresAt : Option UInt64
  httpOnly : Bool
  secure : Bool
  sameSite : Option Str
deriving DecidableEq, Repr

namespace StoredCookie

/-- The expiry has passed; never for a session cookie. -/
def expiredAt (c : StoredCookie) (now : UInt64) : Bool :=
  match c.expiresAt with
  | some exp => exp ≤ now
  | none => false

/-- What identifies a cookie of a jar. -/
def identity (c : StoredCookie) : Str × Str × Option Str := (c.name, c.path, c.domain)

/-- What a deletion names. -/
def place (c : StoredCookie) : Str × Str := (c.name, c.path)

end StoredCookie

/-! ## Parsing -/

/-- `to_ascii_lowercase` -/
def toAsciiLowercase (s : Str) : Str := s.map Char.toLower

/-- `timestamp().max(0) as u64` -/
def epochSeconds (timestamp : Int) : UInt64 := UInt64.ofNat (max timestamp 0).toNat

/-- RFC 1123, RFC 850 and asctime dates. -/
def parseHttpDate (D : Chrono) (s : Str) : Option UInt64 :=
  let s := trim s
  match D.parseFromRfc2822 s with
  | some ts => some (epochSeconds ts)
  | none =>
    let s2 := trim (s.erase ',')
    match D.naiveParseFromStr s2 "%A %d-%b-%y %H:%M:%S GMT".toList with
    | some ts => some (epochSeconds ts)
    | none =>
      match D.naiveParseFromStr s "%a %b %e %H:%M:%S %Y".toList with
      | some ts => some (epochSeconds ts)
      | none => none

/-- Key and value of an attribute. -/
def readAttribute (part : Str) : Str × Str :=
  match cutAt '=' part with
  | (key, some val) => (toAsciiLowercase (trim key), trim val)
  | (_, none) => (toAsciiLowercase part, [])

/-- An attribute, applied to what stood before it. -/
def setAttribute (D : Chrono) (now : UInt64) (c : StoredCookie) (key val : Str) : StoredCookie :=
  if key = "path".toList then
    if val = [] then c else { c with path := val }
  else if key = "domain".toList then
    if val = [] then c else { c with domain := some (trimStartMatches '.' val) }
  else if key = "max-age".toList then
    match parseI64 val with
    | some secs =>
      { c with expiresAt := some (if secs ≤ 0 then 0 else now + UInt64.ofNat secs.toNat) }
    | none => c
  else if key = "expires".toList then
    match parseHttpDate D val with
    | some ts => { c with expiresAt := some ts }
    | none => c
  else if key = "httponly".toList then { c with httpOnly := true }
  else if key = "secure".toList then { c with secure := true }
  else if key = "samesite".toList then
    if toAsciiLowercase val = "lax".toList ∨ toAsciiLowercase val = "strict".toList ∨
        toAsciiLowercase val = "none".toList then
      { c with sameSite := some (toAsciiLowercase val) }
    else c
  else c

/-- One part of a `Set-Cookie` header behind the first. -/
def applyAttribute (D : Chrono) (now : UInt64) (c : StoredCookie) (part : Str) : StoredCookie :=
  setAttribute D now c (readAttribute (trim part)).1 (readAttribute (trim part)).2

def parseSetCookie (D : Chrono) (now : UInt64) (header : Str) : Option StoredCookie :=
  match header.splitOn ';' with
  | [] => none
  | first :: attributes =>
    match cutAt '=' first with
    | (_, none) => none
    | (name, some value) =>
      if trim name = [] then none
      else
        some (attributes.foldl (applyAttribute D now)
          { name := trim name
            value := trim value
            path := "/".toList
            domain := none
            expiresAt := none
            httpOnly := false
            secure := false
            sameSite := none })

theorem applyAttribute_pair (D : Chrono) (now : UInt64) (c : StoredCookie) (part : Str) :
    (applyAttribute D now c part).name = c.name ∧ (applyAttribute D now c part).value = c.value := by
  unfold applyAttribute setAttribute
  repeat' split
  all_goals exact ⟨rfl, rfl⟩

/-- Name and value of a parsed cookie can be written on a cookie line. -/
theorem parseSetCookie_tidy {D : Chrono} {now : UInt64} {header : Str} {c : StoredCookie}
    (h : parseSetCookie D now header = some c) : Tidy (c.name, c.value) := by
  have hfold : ∀ (attributes : List Str) (c₀ : StoredCookie),
      (attributes.foldl (applyAttribute D now) c₀).name = c₀.name ∧
        (attributes.foldl (applyAttribute D now) c₀).value = c₀.value := by
    intro attributes
    induction attributes with
    | nil => exact fun _ => ⟨rfl, rfl⟩
    | cons part parts ih =>
      intro c₀
      rcases ih (applyAttribute D now c₀ part) with ⟨hname, hvalue⟩
      rcases applyAttribute_pair D now c₀ part with ⟨hname₀, hvalue₀⟩
      exact ⟨hname.trans hname₀, hvalue.trans hvalue₀⟩
  unfold parseSetCookie at h
  cases hsplit : header.splitOn ';' with
  | nil => simp [hsplit] at h
  | cons first attributes =>
    have hfirst : ';' ∉ first := notMem_of_mem_splitOn (by rw [hsplit]; exact List.mem_cons_self)
    rcases hcut : cutAt '=' first with ⟨name, - | value⟩
    · simp [hsplit, hcut] at h
    · simp only [hsplit, hcut, Option.ite_none_left_eq_some, Option.some.injEq] at h
      rcases h with ⟨-, rfl⟩
      have hread : readPair first = some (trim name, trim value) := by simp [readPair, hcut]
      rw [(hfold attributes _).1, (hfold attributes _).2]
      exact readPair_tidy hfirst hread

/-! ## The jar of a host -/

abbrev Jar := List StoredCookie

namespace Jar

def insert (jar : Jar) (cookie : StoredCookie) : Jar :=
  upsert StoredCookie.identity cookie jar

def remove (jar : Jar) (name path : Str) : Jar :=
  deleteKey StoredCookie.place (name, path) jar

/-- `add_set_cookie`: the new jar and the cookie to be stored in the database.
The clock is read once for `Max-Age` and once more for the expiry. -/
def addSetCookie (D : Chrono) (parseAt addAt : UInt64) (jar : Jar) (header : Str) :
    Jar × Option StoredCookie :=
  match parseSetCookie D parseAt header with
  | none => (jar, none)
  | some cookie =>
    if cookie.expiredAt addAt then (jar.remove cookie.name cookie.path, none)
    else (jar.insert cookie, some cookie)

/-- Without the cookies that have expired. -/
def purge (jar : Jar) (now : UInt64) : Jar := jar.filter fun c => !c.expiredAt now

end Jar

/-- Domain matching of `build_cookie_header`: `host` is its domain or ends in a
dot and the domain; a cookie without domain always matches. -/
def domainOk (host : Str) (c : StoredCookie) : Bool :=
  match c.domain with
  | some dom =>
    let dom := trimStartMatches '.' dom
    host = dom || ('.' :: dom).isSuffixOf host
  | none => true

/-- Path matching of `build_cookie_header`. -/
def pathOk (requestPath : Str) (c : StoredCookie) : Bool :=
  let cp := trimEndMatches '/' c.path
  if cp = [] ∨ cp = "/".toList then true
  else
    match requestPath.dropPrefix? cp with
    | some rest => rest = [] || rest.head? = some '/'
    | none => false

/-- The cookie goes with a request. -/
def isMatch (host requestPath : Str) (c : StoredCookie) : Bool :=
  domainOk host c && pathOk requestPath c

/-- `build_cookie_header`: the purged jar and the header. -/
def Jar.buildCookieHeader (now : UInt64) (jar : Jar) (host requestPath : Str) : Jar × Option Str :=
  let jar := jar.purge now
  let matched := jar.filter (isMatch host requestPath)
  (jar, if matched = [] then none
    else some (cookieLine (matched.map fun c => pairText (c.name, c.value))))

end HomeTier
