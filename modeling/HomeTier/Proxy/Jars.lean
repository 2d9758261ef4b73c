import HomeTier.Lib.Trace
import HomeTier.Proxy.Cookie

/-! # The cookie jars and their database mirror

All jars of the proxy, keyed by the authority of the upstream, and the table
`proxy_cookies` that outlives the process. A response stores its `Set-Cookie`
headers one by one, first in the jar and then in the table
(`proxy/plugins/http_forward.rs`); a request purges the jar it reads; a restart
fills the jars from the table (`seed_jars_from_db`). Calls of the database
succeed, and the clock does not go back.

The jar replaces by name, path and domain, the table by host, name and path;
session cookies go to the table like the others; a deletion reaches the jar
alone; and rows stay when they expire. `restores_iff` says that these four are
all that keeps a restart from giving the jars back.
-/

namespace HomeTier

open Lib

structure ProxyCookieRow where
  hostKey : Str
  name : Str
  value : Str
  path : Str
  domain : Option Str
  expiresAt : Option Int64
  httpOnly : Bool
  secure : Bool
  sameSite : Option Str
deriving DecidableEq

namespace ProxyCookieRow

/-- `PRIMARY KEY (host_key, name, path)` -/
def primaryKey (r : ProxyCookieRow) : Str × Str × Str := (r.hostKey, r.name, r.path)

/-- The cookie of a row, as `seed_jars_from_db` reads it. -/
def cookie (r : ProxyCookieRow) : StoredCookie where
  name := r.name
  value := r.value
  path := r.path
  domain := r.domain
  expiresAt := r.expiresAt.map Int64.toUInt64
  httpOnly := r.httpOnly
  secure := r.secure
  sameSite := r.sameSite

end ProxyCookieRow

/-- The row of a cookie, as `persist_cookie_to_db` writes it. -/
def StoredCookie.row (hostKey : Str) (c : StoredCookie) : ProxyCookieRow where
  hostKey := hostKey
  name := c.name
  value := c.value
  path := c.path
  domain := c.domain
  expiresAt := c.expiresAt.map UInt64.toInt64
  httpOnly := c.httpOnly
  secure := c.secure
  sameSite := c.sameSite

abbrev CookieTable := List ProxyCookieRow

def upsertProxyCookie (db : CookieTable) (row : ProxyCookieRow) : CookieTable :=
  upsert ProxyCookieRow.primaryKey row db

def deleteProxyCookie (db : CookieTable) (hostKey name path : Str) : CookieTable :=
  deleteKey ProxyCookieRow.primaryKey (hostKey, name, path) db

def persistCookieToDb (db : CookieTable) (hostKey : Str) (cookie : StoredCookie)
    (nowEpoch : UInt64) : CookieTable :=
  if cookie.expiredAt nowEpoch then deleteProxyCookie db hostKey cookie.name cookie.path
  else upsertProxyCookie db (cookie.row hostKey)

abbrev Jars := Map Str Jar

/-- The jar of a host, created empty when it is missing. -/
def Jars.jar (jars : Jars) (hostKey : Str) : Jar := (jars.get hostKey).getD []

/-- One row of `seed_jars_from_db`. -/
def Jars.push (jars : Jars) (r : ProxyCookieRow) : Jars :=
  AList.insert r.hostKey (jars.jar r.hostKey ++ [r.cookie]) jars

/-- `seed_jars_from_db`, at the start of a process. -/
def seedJarsFromDb (db : CookieTable) : Jars := db.foldl Jars.push ∅

/-- `url.split("://").nth(1).unwrap_or(url)` -/
def behindScheme (url : Str) : Str :=
  match splitOnce "://".toList url with
  | some (_, after) =>
    match splitOnce "://".toList after with
    | some (piece, _) => piece
    | none => after
  | none => url

/-- `split_upstream`: authority and path of a URL. -/
def splitUpstream (url : Str) : Str × Str :=
  match cutAt '/' (behindScheme url) with
  | (origin, some path) => (origin, (cutAt '?' ('/' :: path)).1)
  | (origin, none) => (origin, "/".toList)

/-- The authority is what stands in front of the first slash. -/
theorem splitUpstream_origin (url : Str) :
    (splitUpstream url).1 = (behindScheme url).takeWhile (· ≠ '/') := by
  unfold splitUpstream
  rcases hcut : cutAt '/' (behindScheme url) with ⟨origin, - | path⟩
  · exact (congrArg Prod.fst hcut).symm
  · exact (congrArg Prod.fst hcut).symm

namespace CookieJars

structure St where
  jars : Jars
  db : CookieTable
  now : UInt64

/-- What happens to the jars. A response is one `setCookie` for each of its
headers, with the readings of the clock; a request and an upgrade read the jar
of their upstream. -/
inductive Act where
  | setCookie (forwardUrl : Str) (value : Bytes) (parseAt addAt persistAt : UInt64)
  | request (forwardUrl : Str) (time : UInt64)
  | upgrade (targetHost : Str) (targetPort : UInt16) (time : UInt64)
  | tick (time : UInt64)
  | restart (time : UInt64)

def init : St where
  jars := ∅
  db := []
  now := 0

/-- One `Set-Cookie` header of a response. -/
def storeCookie (D : Chrono) (s : St) (forwardUrl : Str) (value : Bytes)
    (parseAt addAt persistAt : UInt64) : St :=
  let origin := (splitUpstream forwardUrl).1
  match toStr value with
  | none => { s with now := persistAt }
  | some val =>
    if origin = [] then { s with now := persistAt }
    else
      let r := (s.jars.jar origin).addSetCookie D parseAt addAt val
      { jars := s.jars.insert origin r.1
        db := match r.2 with
          | some cookie => persistCookieToDb s.db origin cookie persistAt
          | none => s.db
        now := persistAt }

/-- `host:port`, the key of a WebSocket upgrade. -/
def upgradeKey (targetHost : Str) (targetPort : UInt16) : Str :=
  targetHost ++ ':' :: decimal targetPort.toNat

/-- Reading a jar purges it. -/
def readJar (s : St) (hostKey : Str) (time : UInt64) : St :=
  { s with
    jars := s.jars.insert hostKey ((s.jars.jar hostKey).purge time)
    now := time }

/-- One step; time does not go back. -/
def step (D : Chrono) (s : St) : Act → Option St
  | .setCookie forwardUrl value parseAt addAt persistAt =>
    if s.now ≤ parseAt ∧ parseAt ≤ addAt ∧ addAt ≤ persistAt then
      some (storeCookie D s forwardUrl value parseAt addAt persistAt)
    else none
  | .request forwardUrl time =>
    if s.now ≤ time then
      let origin := (splitUpstream forwardUrl).1
      if origin = [] then some { s with now := time } else some (readJar s origin time)
    else none
  | .upgrade targetHost targetPort time =>
    if s.now ≤ time then some (readJar s (upgradeKey targetHost targetPort) time) else none
  | .tick time => if s.now ≤ time then some { s with now := time } else none
  | .restart time =>
    if s.now ≤ time then some { s with jars := seedJarsFromDb s.db, now := time } else none

/-- A persistent cookie whose expiry has not passed. -/
def Lasting (now : UInt64) (c : StoredCookie) : Prop :=
  c.expiresAt ≠ none ∧ c.expiredAt now = false

/-- A restart at this moment gives every jar back: exactly its lasting cookies. -/
def Restores (s : St) : Prop :=
  ∀ k c, c ∈ (seedJarsFromDb s.db).jar k ↔ c ∈ s.jars.jar k ∧ Lasting s.now c

/-- No row has expired. -/
def Fresh (db : CookieTable) (now : UInt64) : Prop :=
  ∀ r ∈ db, r.cookie.expiredAt now = false

/-- A `Set-Cookie` header that the table follows. A deletion may not concern a
row. A new cookie has an expiry; of the rows at its place, those of another
domain have expired; and no other row has. -/
def Followed (db : CookieTable) (hostKey : Str) (cookie : StoredCookie) (addAt persistAt : UInt64) :
    Prop :=
  if cookie.expiredAt addAt then
    (∀ r ∈ db, r.primaryKey ≠ (hostKey, cookie.name, cookie.path)) ∧ Fresh db persistAt
  else
    cookie.expiresAt ≠ none ∧
    ∀ r ∈ db, if r.primaryKey = (hostKey, cookie.name, cookie.path)
      then r.domain = cookie.domain ∨ r.cookie.expiredAt persistAt = true
      else r.cookie.expiredAt persistAt = false

/-- The step keeps the table in line with the jars. -/
def InLine (D : Chrono) (s : St) : Act → Prop
  | .setCookie forwardUrl value parseAt addAt persistAt =>
    match toStr value with
    | none => Fresh s.db persistAt
    | some val =>
      let origin := (splitUpstream forwardUrl).1
      match parseSetCookie D parseAt val with
      | none => Fresh s.db persistAt
      | some cookie =>
        if origin = [] then Fresh s.db persistAt
        else Followed s.db origin cookie addAt persistAt
  | .request _ time => Fresh s.db time
  | .upgrade _ _ time => Fresh s.db time
  | .tick time => Fresh s.db time
  | .restart time => Fresh s.db time

/-! ## Rows and jars -/

theorem row_cookie (r : ProxyCookieRow) : r.cookie.row r.hostKey = r := by
  cases r with
  | mk hostKey name value path domain expiresAt httpOnly secure sameSite =>
    cases expiresAt with
    | none => rfl
    | some e => simp [ProxyCookieRow.cookie, StoredCookie.row]

@[simp] theorem cookie_row (k : Str) (c : StoredCookie) : (c.row k).cookie = c := by
  cases c with
  | mk name value path domain expiresAt httpOnly secure sameSite =>
    cases expiresAt with
    | none => rfl
    | some e => simp [ProxyCookieRow.cookie, StoredCookie.row]

@[simp] theorem primaryKey_row (k : Str) (c : StoredCookie) :
    (c.row k).primaryKey = (k, c.name, c.path) := rfl

theorem row_injective {k k' : Str} {c c' : StoredCookie} :
    c.row k = c'.row k' ↔ k = k' ∧ c = c' := by
  constructor
  · intro h
    have hc := congrArg ProxyCookieRow.cookie h
    rw [cookie_row, cookie_row] at hc
    exact ⟨congrArg ProxyCookieRow.hostKey h, hc⟩
  · rintro ⟨rfl, rfl⟩
    rfl

/-- Every row is the row of a cookie. -/
theorem forall_row {db : CookieTable} {P : ProxyCookieRow → Prop} :
    (∀ r ∈ db, P r) ↔ ∀ k c, StoredCookie.row k c ∈ db → P (c.row k) := by
  constructor
  · intro h k c hmem
    exact h _ hmem
  · intro h r hmem
    rw [← row_cookie r] at hmem ⊢
    exact h _ _ hmem

theorem jar_insert (jars : Jars) (k k' : Str) (j : Jar) :
    Jars.jar (AList.insert k j jars) k' = if k' = k then j else jars.jar k' := by
  by_cases hk : k' = k
  · subst hk
    simp [Jars.jar]
  · simp [Jars.jar, Map.get, AList.lookup_insert_ne hk, hk]

theorem jar_empty (k : Str) : Jars.jar ∅ k = [] := rfl

/-- A seeded jar holds the cookies of the rows of its host. -/
theorem jar_seedJarsFromDb (db : CookieTable) (k : Str) :
    (seedJarsFromDb db).jar k = (db.filter fun r => r.hostKey = k).map fun r => r.cookie := by
  have hfold : ∀ jars : Jars, Jars.jar (db.foldl Jars.push jars) k =
      jars.jar k ++ (db.filter fun r => r.hostKey = k).map fun r => r.cookie := by
    induction db with
    | nil => simp
    | cons r db ih =>
      intro jars
      rw [List.foldl_cons, ih, Jars.push, jar_insert]
      by_cases hk : r.hostKey = k
      · subst hk
        simp
      · simp [hk, Ne.symm hk]
  rw [seedJarsFromDb, hfold, jar_empty, List.nil_append]

theorem mem_seedJarsFromDb {db : CookieTable} {k : Str} {c : StoredCookie} :
    c ∈ (seedJarsFromDb db).jar k ↔ c.row k ∈ db := by
  rw [jar_seedJarsFromDb]
  constructor
  · intro h
    rcases List.mem_map.1 h with ⟨r, hr, rfl⟩
    rcases List.mem_filter.1 hr with ⟨hmem, hk⟩
    obtain rfl : r.hostKey = k := by simpa using hk
    rwa [row_cookie]
  · intro h
    refine List.mem_map.2 ⟨c.row k, List.mem_filter.2 ⟨h, ?_⟩, cookie_row k c⟩
    simp [StoredCookie.row]

theorem restores_iff_rows {s : St} :
    Restores s ↔ ∀ k c, StoredCookie.row k c ∈ s.db ↔ c ∈ s.jars.jar k ∧ Lasting s.now c := by
  simp only [Restores, mem_seedJarsFromDb]

theorem fresh_iff {db : CookieTable} {now : UInt64} :
    Fresh db now ↔ ∀ k c, StoredCookie.row k c ∈ db → c.expiredAt now = false := by
  rw [Fresh, forall_row]
  simp

/-! ## Effects of a step -/

section Effects

variable {D : Chrono} {s s' : St} {a : Act} {c : StoredCookie}

/-- What a step does to the jars and the table. -/
inductive Effect (D : Chrono) (s : St) : Act → St → Prop where
  | quiet {a : Act} {s' : St} (hdb : s'.db = s.db)
      (hjar : ∀ k, s'.jars.jar k = s.jars.jar k) : Effect D s a s'
  | purged {a : Act} {s' : St} (k₀ : Str) (hdb : s'.db = s.db)
      (hjar : ∀ k, s'.jars.jar k = if k = k₀ then (s.jars.jar k).purge s'.now else s.jars.jar k) :
      Effect D s a s'
  | deleted {url : Str} {value : Bytes} {parseAt addAt persistAt : UInt64} {val : Str}
      {cookie : StoredCookie} {s' : St} (htext : toStr value = some val)
      (hparse : parseSetCookie D parseAt val = some cookie) (hdb : s'.db = s.db)
      (hjar : ∀ k, s'.jars.jar k = if k = (splitUpstream url).1
        then (s.jars.jar k).remove cookie.name cookie.path else s.jars.jar k) :
      Effect D s (.setCookie url value parseAt addAt persistAt) s'
  | stored {url : Str} {value : Bytes} {parseAt addAt persistAt : UInt64} {val : Str}
      {cookie : StoredCookie} {s' : St} (htext : toStr value = some val)
      (hparse : parseSetCookie D parseAt val = some cookie)
      (hdb : s'.db = persistCookieToDb s.db (splitUpstream url).1 cookie persistAt)
      (hjar : ∀ k, s'.jars.jar k = if k = (splitUpstream url).1
        then (s.jars.jar k).insert cookie else s.jars.jar k) :
      Effect D s (.setCookie url value parseAt addAt persistAt) s'
  | restarted {a : Act} {s' : St} (hdb : s'.db = s.db)
      (hjars : s'.jars = seedJarsFromDb s.db) : Effect D s a s'

/-- The jars after one of them is changed by `f`. -/
theorem jar_change (jars : Jars) (f : Jar → Jar) (k₀ k : Str) :
    Jars.jar (AList.insert k₀ (f (jars.jar k₀)) jars) k =
      if k = k₀ then f (jars.jar k) else jars.jar k := by
  rw [jar_insert]
  by_cases hk : k = k₀
  · simp [hk]
  · simp [hk]

variable {parseAt addAt persistAt : UInt64} {value : Bytes}

theorem effect_storeCookie {url : Str} : Effect D s (.setCookie url value parseAt addAt persistAt)
      (storeCookie D s url value parseAt addAt persistAt) := by
  unfold storeCookie
  cases htext : toStr value with
  | none => exact .quiet rfl (fun _ => rfl)
  | some val =>
    by_cases horigin : (splitUpstream url).1 = []
    · simp only [horigin, if_true]
      exact .quiet rfl (fun _ => rfl)
    · simp only [horigin, if_false, Jar.addSetCookie]
      cases hparse : parseSetCookie D parseAt val with
      | none =>
        refine .quiet rfl ?_
        intro k
        exact (jar_change s.jars id _ k).trans (ite_self _)
      | some cookie =>
        cases hexp : cookie.expiredAt addAt with
        | true =>
          simp only [hexp, if_true]
          exact .deleted htext hparse rfl
            (jar_change s.jars (fun j => j.remove cookie.name cookie.path) _)
        | false =>
          simp only [hexp, Bool.false_eq_true, if_false]
          exact .stored htext hparse rfl (jar_change s.jars (fun j => j.insert cookie) _)

theorem effect_readJar {a : Act} {k₀ : Str} {time : UInt64} : Effect D s a (readJar s k₀ time) :=
  .purged k₀ rfl (jar_change s.jars (fun j => j.purge time) k₀)

theorem now_storeCookie {url : Str} {p a t : UInt64} :
    (storeCookie D s url value p a t).now = t := by
  unfold storeCookie
  cases toStr value with
  | none => rfl
  | some val => exact (apply_ite St.now _ _ _).trans (ite_self t)

theorem effect_step (hs : step D s a = some s') : Effect D s a s' ∧ s.now ≤ s'.now := by
  cases a with
  | setCookie url value parseAt addAt persistAt =>
    simp only [step, Option.ite_none_right_eq_some, Option.some.injEq] at hs
    rcases hs with ⟨⟨h₁, h₂, h₃⟩, rfl⟩
    refine ⟨effect_storeCookie, ?_⟩
    rw [now_storeCookie]
    exact UInt64.le_trans h₁ (UInt64.le_trans h₂ h₃)
  | request url time =>
    simp only [step, Option.ite_none_right_eq_some] at hs
    rcases hs with ⟨hle, hs⟩
    split at hs
    · obtain rfl := Option.some.inj hs
      exact ⟨.quiet rfl (fun _ => rfl), hle⟩
    · obtain rfl := Option.some.inj hs
      exact ⟨effect_readJar, hle⟩
  | upgrade targetHost targetPort time =>
    simp only [step, Option.ite_none_right_eq_some, Option.some.injEq] at hs
    rcases hs with ⟨hle, rfl⟩
    exact ⟨effect_readJar, hle⟩
  | tick time =>
    simp only [step, Option.ite_none_right_eq_some, Option.some.injEq] at hs
    rcases hs with ⟨hle, rfl⟩
    exact ⟨.quiet rfl (fun _ => rfl), hle⟩
  | restart time =>
    simp only [step, Option.ite_none_right_eq_some, Option.some.injEq] at hs
    rcases hs with ⟨hle, rfl⟩
    exact ⟨.restarted rfl rfl, hle⟩

theorem now_le_run {as : List Act} (hrun : run (step D) s as = some s') : s.now ≤ s'.now := by
  induction as generalizing s with
  | nil =>
    obtain rfl : s = s' := by simpa using hrun
    exact UInt64.le_refl _
  | cons a as ih =>
    rcases run_cons_eq_some hrun with ⟨s₁, hs, hrest⟩
    exact UInt64.le_trans (effect_step hs).2 (ih hrest)

/-- The state after a cookie is set. -/
theorem storeCookie_eq {url : Str} {val : Str}
    (htext : toStr value = some val) (hparse : parseSetCookie D parseAt val = some c)
    (hkey : (splitUpstream url).1 ≠ []) (hlive : c.expiredAt addAt = false) :
    storeCookie D s url value parseAt addAt persistAt =
      ⟨AList.insert (splitUpstream url).1 ((s.jars.jar (splitUpstream url).1).insert c) s.jars,
        persistCookieToDb s.db (splitUpstream url).1 c persistAt, persistAt⟩ := by
  simp only [storeCookie, htext, hkey, if_false, Jar.addSetCookie, hparse, hlive,
    Bool.false_eq_true]

/-- A response may come first. -/
theorem step_first (url : Str) (value : Bytes) (hpa : parseAt ≤ addAt) (hap : addAt ≤ persistAt) :
    step D init (.setCookie url value parseAt addAt persistAt) =
      some (storeCookie D init url value parseAt addAt persistAt) := by
  have hzero : init.now ≤ parseAt := UInt64.le_iff_toNat_le.2 (Nat.zero_le _)
  simp [step, hzero, hpa, hap]

/-- After the first cookie there is no other. -/
theorem mem_jar_first {url : Str} {val : Str}
    (htext : toStr value = some val) (hparse : parseSetCookie D parseAt val = some c)
    {k : Str} {c' : StoredCookie}
    (h : c' ∈ (storeCookie D init url value parseAt addAt persistAt).jars.jar k) :
    k = (splitUpstream url).1 ∧ c' = c := by
  have hnone : ∀ k, init.jars.jar k = [] := jar_empty
  rcases (effect_storeCookie : Effect D init (.setCookie url value parseAt addAt persistAt) _) with
    ⟨-, hjar⟩ | ⟨k₀, -, hjar⟩ | ⟨-, -, -, hjar⟩ | ⟨htext', hparse', -, hjar⟩ | ⟨-, hjars⟩
  · simp [hjar, hnone] at h
  · simp [hjar, hnone, Jar.purge] at h
  · simp [hjar, hnone, Jar.remove, deleteKey] at h
  · obtain rfl := Option.some.inj (htext.symm.trans htext')
    obtain rfl := Option.some.inj (hparse.symm.trans hparse')
    rw [hjar] at h
    split at h
    · next hk =>
      refine ⟨hk, ?_⟩
      simpa [hnone, Jar.insert, upsert] using h
    · simp [hnone] at h
  · rw [hjars] at h
    simp [seedJarsFromDb, init, jar_empty] at h

end Effects

/-! ## Steps -/

theorem not_expired_of_le {c : StoredCookie} {now later : UInt64} (hle : now ≤ later)
    (h : c.expiredAt later = false) : c.expiredAt now = false := by
  unfold StoredCookie.expiredAt at h ⊢
  cases hexp : c.expiresAt with
  | none => rfl
  | some e =>
    simp only [hexp, decide_eq_false_iff_not] at h ⊢
    intro hnow
    exact h (UInt64.le_trans hnow hle)

theorem Lasting.of_le {c : StoredCookie} {now later : UInt64} (hle : now ≤ later)
    (h : Lasting later c) : Lasting now c := ⟨h.1, not_expired_of_le hle h.2⟩

section Steps

variable {D : Chrono} {s s' : St} {time : UInt64}

/-- A step that leaves the table and every lasting cookie alone. -/
theorem restores_unchanged {jars : Jars} (h : Restores s) (hle : s.now ≤ time)
    (hjars : ∀ k c, Lasting time c → (c ∈ jars.jar k ↔ c ∈ s.jars.jar k)) :
    Restores ⟨jars, s.db, time⟩ ↔ Fresh s.db time := by
  rw [restores_iff_rows] at h
  rw [restores_iff_rows, fresh_iff]
  constructor
  · intro h' k c hrow
    exact ((h' k c).1 hrow).2.2
  · intro hfresh k c
    constructor
    · intro hrow
      rcases (h k c).1 hrow with ⟨hmem, hlast⟩
      have hlast' : Lasting time c := ⟨hlast.1, hfresh k c hrow⟩
      exact ⟨(hjars k c hlast').2 hmem, hlast'⟩
    · rintro ⟨hmem, hlast⟩
      exact (h k c).2 ⟨(hjars k c hlast).1 hmem, hlast.of_le hle⟩

/-- A header that deletes: the jar loses the cookies at its place, the table
nothing. -/
theorem restores_delete {k₀ : Str} {cookie : StoredCookie} (h : Restores s) (hle : s.now ≤ time) :
    Restores ⟨AList.insert k₀ ((s.jars.jar k₀).remove cookie.name cookie.path) s.jars, s.db, time⟩ ↔
      (∀ r ∈ s.db, r.primaryKey ≠ (k₀, cookie.name, cookie.path)) ∧ Fresh s.db time := by
  rw [restores_iff_rows] at h
  rw [restores_iff_rows, fresh_iff, forall_row]
  have hjar : ∀ k c, c ∈ Jars.jar (AList.insert k₀
      ((s.jars.jar k₀).remove cookie.name cookie.path) s.jars) k ↔
      c ∈ s.jars.jar k ∧ (k, c.name, c.path) ≠ (k₀, cookie.name, cookie.path) := by
    intro k c
    rw [jar_insert]
    by_cases hk : k = k₀
    · subst hk
      simp [Jar.remove, StoredCookie.place]
    · simp [hk]
  constructor
  · intro h'
    constructor
    · intro k c hrow
      exact ((hjar k c).1 ((h' k c).1 hrow).1).2
    · intro k c hrow
      exact ((h' k c).1 hrow).2.2
  · rintro ⟨hplace, hfresh⟩ k c
    constructor
    · intro hrow
      rcases (h k c).1 hrow with ⟨hmem, hlast⟩
      exact ⟨(hjar k c).2 ⟨hmem, hplace k c hrow⟩, hlast.1, hfresh k c hrow⟩
    · rintro ⟨hmem, hlast⟩
      exact (h k c).2 ⟨((hjar k c).1 hmem).1, hlast.of_le hle⟩

theorem mem_jar_insert {k₀ k : Str} {cookie c : StoredCookie} (jars : Jars) :
    c ∈ Jars.jar (AList.insert k₀ ((jars.jar k₀).insert cookie) jars) k ↔
      (c ∈ jars.jar k ∧ (k, c.identity) ≠ (k₀, cookie.identity)) ∨ (k = k₀ ∧ c = cookie) := by
  rw [jar_insert]
  by_cases hk : k = k₀
  · subst hk
    simp [Jar.insert]
  · simp [hk]

theorem mem_persistCookieToDb {k₀ k : Str} {cookie c : StoredCookie} (db : CookieTable) :
    c.row k ∈ persistCookieToDb db k₀ cookie time ↔
      (c.row k ∈ db ∧ (k, c.name, c.path) ≠ (k₀, cookie.name, cookie.path)) ∨
        (k = k₀ ∧ c = cookie ∧ cookie.expiredAt time = false) := by
  unfold persistCookieToDb
  cases hexp : cookie.expiredAt time with
  | true => simp [deleteProxyCookie]
  | false => simp [upsertProxyCookie, row_injective]

/-- A header that sets a cookie: the jar replaces its identity, the table its
place. -/
theorem restores_insert {k₀ : Str} {cookie : StoredCookie} (h : Restores s) (hle : s.now ≤ time) :
    Restores ⟨AList.insert k₀ ((s.jars.jar k₀).insert cookie) s.jars,
        persistCookieToDb s.db k₀ cookie time, time⟩ ↔
      cookie.expiresAt ≠ none ∧
      ∀ r ∈ s.db, if r.primaryKey = (k₀, cookie.name, cookie.path)
        then r.domain = cookie.domain ∨ r.cookie.expiredAt time = true
        else r.cookie.expiredAt time = false := by
  rw [restores_iff_rows] at h
  rw [restores_iff_rows, forall_row]
  simp only [mem_jar_insert, mem_persistCookieToDb, primaryKey_row, cookie_row]
  constructor
  · intro h'
    constructor
    · -- a session cookie has a row now
      intro hsession
      have hfresh : cookie.expiredAt time = false := by simp [StoredCookie.expiredAt, hsession]
      exact ((h' k₀ cookie).1 (.inr ⟨rfl, rfl, hfresh⟩)).2.1 hsession
    · intro k c hrow
      rcases (h k c).1 hrow with ⟨hmem, hlast⟩
      by_cases hplace : (k, c.name, c.path) = (k₀, cookie.name, cookie.path)
      · rw [if_pos hplace]
        by_contra hother
        rw [not_or, Bool.not_eq_true] at hother
        have hdomain : c.domain ≠ cookie.domain := hother.1
        -- the jar keeps the cookie of the other domain, the table does not
        have hid : (k, c.identity) ≠ (k₀, cookie.identity) := by
          intro heq
          exact hdomain (congrArg (fun e => e.2.2.2) heq)
        rcases (h' k c).2 ⟨.inl ⟨hmem, hid⟩, hlast.1, hother.2⟩ with ⟨-, hne⟩ | ⟨-, rfl, -⟩
        · exact hne hplace
        · exact hdomain rfl
      · rw [if_neg hplace]
        exact ((h' k c).1 (.inl ⟨hrow, hplace⟩)).2.2
  · rintro ⟨hpersistent, hrows⟩ k c
    constructor
    · rintro (⟨hrow, hplace⟩ | ⟨rfl, rfl, hfresh⟩)
      · rcases (h k c).1 hrow with ⟨hmem, hlast⟩
        have hfresh := hrows k c hrow
        rw [if_neg hplace] at hfresh
        refine ⟨.inl ⟨hmem, ?_⟩, hlast.1, hfresh⟩
        intro heq
        apply hplace
        simp only [Prod.mk.injEq, StoredCookie.identity] at heq
        simp [heq]
      · exact ⟨.inr ⟨rfl, rfl⟩, hpersistent, hfresh⟩
    · rintro ⟨⟨hmem, hid⟩ | ⟨rfl, rfl⟩, hlast⟩
      · have hrow := (h k c).2 ⟨hmem, hlast.of_le hle⟩
        have hcond := hrows k c hrow
        by_cases hplace : (k, c.name, c.path) = (k₀, cookie.name, cookie.path)
        · rw [if_pos hplace, hlast.2] at hcond
          have hdomain : c.domain = cookie.domain := by simpa [StoredCookie.row] using hcond
          refine absurd ?_ hid
          simp only [Prod.mk.injEq] at hplace
          simp [StoredCookie.identity, hplace, hdomain]
        · exact .inl ⟨hrow, hplace⟩
      · exact .inr ⟨rfl, rfl, hlast.2⟩

/-- A header keeps the mirror exactly when the table follows it. -/
theorem restores_storeCookie {forwardUrl : Str} {value : Bytes} {parseAt addAt persistAt : UInt64}
    (h : Restores s) (hle : s.now ≤ persistAt) :
    Restores (storeCookie D s forwardUrl value parseAt addAt persistAt) ↔
      InLine D s (.setCookie forwardUrl value parseAt addAt persistAt) := by
  have hsame : Restores ⟨s.jars, s.db, persistAt⟩ ↔ Fresh s.db persistAt :=
    restores_unchanged h hle (fun _ _ _ => Iff.rfl)
  simp only [storeCookie, InLine]
  cases hval : toStr value with
  | none => exact hsame
  | some val =>
    by_cases horigin : (splitUpstream forwardUrl).1 = []
    · simp only [horigin, if_true]
      cases parseSetCookie D parseAt val with
      | none => exact hsame
      | some cookie => exact hsame
    · simp only [horigin, if_false, Jar.addSetCookie]
      cases hparse : parseSetCookie D parseAt val with
      | none =>
        refine restores_unchanged h hle ?_
        intro k c _
        rw [jar_insert]
        by_cases hk : k = (splitUpstream forwardUrl).1
        · simp [hk]
        · simp [hk]
      | some cookie =>
        simp only [Followed]
        cases hexp : cookie.expiredAt addAt with
        | true =>
          simp only [if_true]
          exact restores_delete h hle
        | false =>
          simp only [Bool.false_eq_true, if_false]
          exact restores_insert h hle

/-- Reading a jar loses no lasting cookie. -/
theorem restores_readJar {k₀ : Str} (h : Restores s) (hle : s.now ≤ time) :
    Restores (readJar s k₀ time) ↔ Fresh s.db time := by
  refine restores_unchanged h hle ?_
  intro k c hlast
  rw [jar_insert]
  by_cases hk : k = k₀
  · subst hk
    simp [Jar.purge, hlast.2]
  · simp [hk]

theorem restores_step {a : Act} (h : Restores s) (hs : step D s a = some s') :
    Restores s' ↔ InLine D s a := by
  cases a with
  | setCookie forwardUrl value parseAt addAt persistAt =>
    simp only [step, Option.ite_none_right_eq_some, Option.some.injEq] at hs
    rcases hs with ⟨⟨h₁, h₂, h₃⟩, rfl⟩
    exact restores_storeCookie h (UInt64.le_trans h₁ (UInt64.le_trans h₂ h₃))
  | request forwardUrl time =>
    simp only [step, Option.ite_none_right_eq_some] at hs
    rcases hs with ⟨hle, hs⟩
    split at hs
    · obtain rfl := Option.some.inj hs
      exact restores_unchanged h hle (fun _ _ _ => Iff.rfl)
    · obtain rfl := Option.some.inj hs
      exact restores_readJar h hle
  | upgrade targetHost targetPort time =>
    simp only [step, Option.ite_none_right_eq_some, Option.some.injEq] at hs
    rcases hs with ⟨hle, rfl⟩
    exact restores_readJar h hle
  | tick time =>
    simp only [step, Option.ite_none_right_eq_some, Option.some.injEq] at hs
    rcases hs with ⟨hle, rfl⟩
    exact restores_unchanged h hle (fun _ _ _ => Iff.rfl)
  | restart time =>
    simp only [step, Option.ite_none_right_eq_some, Option.some.injEq] at hs
    rcases hs with ⟨hle, rfl⟩
    refine restores_unchanged h hle ?_
    intro k c hlast
    rw [h k c]
    constructor
    · rintro ⟨hmem, -⟩
      exact hmem
    · intro hmem
      exact ⟨hmem, hlast.of_le hle⟩

theorem restores_init : Restores init := by
  intro k c
  rw [mem_seedJarsFromDb]
  simp [init, jar_empty]

end Steps

/-- **The mirror.** At every moment of a run a restart would give the jars back,
exactly when every step of the run is in line with the table. -/
theorem restores_iff (D : Chrono) (as : List Act) :
    Always (step D) Restores init as ↔ Along (step D) (InLine D) init as := by
  refine always_iff_along (J := fun _ => True) ?_ ?_ trivial restores_init as
  · intro s a s' _ _
    trivial
  · intro s a s' _ h hs
    exact restores_step h hs

/-- No dates occur in the runs below. -/
def noDates : Chrono where
  parseFromRfc2822 _ := none
  naiveParseFromStr _ _ := none

def setFrom (header : String) (time : UInt64) : Act :=
  .setCookie "http://nas.local/login".toList (headerBytes header.toList) time time time

/-- The jar of `nas.local` and the jar a restart gives. -/
def jarAndRestored (as : List Act) : Option (Jar × Jar) :=
  (run (step noDates) init as).map fun s =>
    (s.jars.jar "nas.local".toList, (seedJarsFromDb s.db).jar "nas.local".toList)

/-- A session cookie comes back after a restart, and so does a persistent one
that the upstream has deleted. -/
theorem session_and_deleted_restored :
    (∃ s, run (step noDates) init [setFrom "sid=1" 10] = some s ∧ ¬ Restores s) ∧
      ∃ s, run (step noDates) init
        [setFrom "theme=dark; Max-Age=60" 10, setFrom "theme=; Max-Age=0" 20] = some s ∧
        ¬ Restores s := by
  constructor
  · let sid : StoredCookie := ⟨"sid".toList, "1".toList, "/".toList, none, none, false, false, none⟩
    have hjar : jarAndRestored [setFrom "sid=1" 10] = some ([sid], [sid]) := by decide
    rcases Option.map_eq_some_iff.1 hjar with ⟨s, hrun, hpair⟩
    rcases Prod.mk.injEq .. ▸ hpair with ⟨-, hrestored⟩
    refine ⟨s, hrun, ?_⟩
    intro h
    have hback : sid ∈ (seedJarsFromDb s.db).jar "nas.local".toList := by
      rw [hrestored]
      simp
    exact ((h _ sid).1 hback).2.1 rfl
  · let theme : StoredCookie :=
      ⟨"theme".toList, "dark".toList, "/".toList, none, some 70, false, false, none⟩
    have hjar : jarAndRestored
        [setFrom "theme=dark; Max-Age=60" 10, setFrom "theme=; Max-Age=0" 20] =
        some ([], [theme]) := by decide
    rcases Option.map_eq_some_iff.1 hjar with ⟨s, hrun, hpair⟩
    rcases Prod.mk.injEq .. ▸ hpair with ⟨hheld, hrestored⟩
    refine ⟨s, hrun, ?_⟩
    intro h
    have hback : theme ∈ (seedJarsFromDb s.db).jar "nas.local".toList := by
      rw [hrestored]
      simp
    have hmem := ((h _ theme).1 hback).1
    rw [hheld] at hmem
    simp at hmem

end CookieJars

end HomeTier
