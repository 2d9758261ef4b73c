import HomeTier.Proxy.Attach

/-! # Cookies come back

A cookie that an upstream sets through the proxy, and the requests and upgrades
that go to the same upstream later. `Held` is kept by every step that does not
get in the way of the cookie, restarts included; from it a matching cookie is
sent. `cookie_return_iff` says which cookies come back on both ways.

Only `forward` reads and fills the jars: `passthrough` sends what the browser
sends, and a response that `reqwest` follows is seen by neither.
-/

namespace HomeTier

open Lib

namespace CookieJars

/-- A cookie of the same name that takes the place of `c`, or goes with the same
request. -/
def InTheWay (host requestPath : Str) (c c' : StoredCookie) : Prop :=
  c'.name = c.name ∧ (c'.path = c.path ∨ isMatch host requestPath c' = true)

/-- A later header for the same jar that gets in the way of a cookie. -/
def Rival (D : Chrono) (hostKey requestPath : Str) (c : StoredCookie) : Act → Prop
  | .setCookie forwardUrl value parseAt _ _ =>
    (splitUpstream forwardUrl).1 = hostKey ∧
      ∃ val c', toStr value = some val ∧ parseSetCookie D parseAt val = some c' ∧
        InTheWay hostKey requestPath c c'
  | _ => False

/-- The two functions of the forwarder that make requests. -/
inductive Sender where
  | forward
  | passthrough
deriving DecidableEq

/-- An HTTP request of the proxy: the URL that it asks for, and the redirects that
`reqwest` has followed from there by itself. -/
structure Exchange where
  sender : Sender
  url : HttpUrl
  followed : List HttpUrl

/-- `reqwest` lets the `Cookie` headers stand on all its way. -/
def keptAlong (keeps : HttpUrl → HttpUrl → Bool) : HttpUrl → List HttpUrl → Bool
  | _, [] => true
  | u, v :: vs => keeps u v && keptAlong keeps v vs

namespace Exchange

/-- Where the request goes in the end. -/
def target (e : Exchange) : HttpUrl := e.followed.getLastD e.url

/-- The `Cookie` headers of the request; `native` are those of the browser.
`passthrough` has no others. -/
def cookies (keeps : HttpUrl → HttpUrl → Bool) (e : Exchange) (jars : Jars) (native : List Str)
    (now : UInt64) : List Str :=
  if keptAlong keeps e.url e.followed then
    match e.sender with
    | .forward => forwardCookies jars e.url.text native now
    | .passthrough => native
  else []

/-- What a `Set-Cookie` header of the response leaves behind: `forward` looks at
the response that `reqwest` gives it, which is none that `reqwest` follows. -/
def answered (D : Chrono) (s : St) (e : Exchange) (follows : Bool) (value : Bytes)
    (parseAt addAt persistAt : UInt64) : Option St :=
  if e.sender = .forward ∧ follows = false then
    step D s (.setCookie e.url.text value parseAt addAt persistAt)
  else some s

end Exchange

/-- A cookie set by the response to `e₁` is sent with every later request `e₂` and
every later upgrade to the same origin, and the two read one jar: whatever ran
before and since, as long as no later cookie got in its way and it has not
expired. -/
def Returned (D : Chrono) (isIp : Str → Bool) (keeps : HttpUrl → HttpUrl → Bool)
    (O : UpstreamOrigin) (e₁ e₂ : Exchange) (follows : Bool) (c : StoredCookie) (value : Bytes)
    (parseAt addAt persistAt : UInt64) : Prop :=
  ∀ earlier later s₀ s₁ s now,
    run (step D) init earlier = some s₀ →
    e₁.answered D s₀ follows value parseAt addAt persistAt = some s₁ →
    run (step D) s₁ later = some s →
    (∀ a ∈ later, ¬ Rival D (splitUpstream e₁.url.text).1 (splitUpstream e₂.url.text).2 c a) →
    s.now ≤ now → c.expiredAt now = false →
    (∀ native, Carries (e₂.cookies keeps s.jars native now) c) ∧
    (∀ frontPort req t, resolveTarget isIp frontPort req = some t →
      t.host = O.host → t.port = O.port → t.scheme = O.wsScheme →
      PathMatch c.path (cutAt '?' t.path).1 →
      Carries (upgradeCookie s.jars t req.clientCookie now).toList c) ∧
    (splitUpstream e₂.url.text).1 = upgradeKey O.host O.port

/-- A cookie on the root path. -/
def OnRoot (c : StoredCookie) : Prop := trimEndMatches '/' c.path = []

/-- Which exchanges and cookies come back: `forward` makes both requests and is
given the response, the two ask for host and port in front of their first slash,
the cookies are kept on the way, and the cookie has no domain and the root path. -/
structure ReturnExact (keeps : HttpUrl → HttpUrl → Bool) (O : UpstreamOrigin)
    (e₁ e₂ : Exchange) (follows : Bool) (c : StoredCookie) : Prop where
  captured : e₁.sender = .forward ∧ follows = false
  sent : e₂.sender = .forward ∧ keptAlong keeps e₂.url e₂.followed = true
  stored : (splitUpstream e₁.url.text).1 = O.hostPort
  asked : (splitUpstream e₂.url.text).1 = O.hostPort
  domain : c.domain = none
  root : OnRoot c

/-! ## Runs -/

/-- Every cookie in a jar or a row can be written on a cookie line. -/
structure Tidied (s : St) : Prop where
  jars : ∀ k, ∀ c ∈ s.jars.jar k, Tidy c.pair
  db : ∀ r ∈ s.db, Tidy r.cookie.pair

/-- Among the cookies that go with the request, `c` is the last of its name: in
its jar and in the rows of its host. -/
structure Held (k requestPath : Str) (c : StoredCookie) (s : St) : Prop where
  jar : LastOf StoredCookie.name c ((s.jars.jar k).filter (isMatch k requestPath))
  row : LastOf (fun r => (r.hostKey, r.name)) (c.row k)
    (s.db.filter fun r => isMatch k requestPath r.cookie)

section Steps

variable {D : Chrono} {s s' : St} {a : Act} {k rp : Str} {c : StoredCookie}

theorem tidied_init : Tidied init where
  jars := by
    intro k c hc
    simp [init, jar_empty] at hc
  db := by
    intro r hr
    simp [init] at hr

theorem tidied_step (h : Tidied s) (hs : step D s a = some s') : Tidied s' := by
  rcases (effect_step hs).1 with ⟨hdb, hjar⟩ | ⟨k₀, hdb, hjar⟩ | ⟨-, -, hdb, hjar⟩ |
    ⟨-, hparse, hdb, hjar⟩ | ⟨hdb, hjars⟩
  · -- nothing changes
    refine ⟨?_, hdb ▸ h.db⟩
    intro k c hc
    exact h.jars k c (hjar k ▸ hc)
  · -- a jar is purged
    refine ⟨?_, hdb ▸ h.db⟩
    intro k c hc
    rw [hjar] at hc
    split at hc
    · exact h.jars k c (List.mem_of_mem_filter hc)
    · exact h.jars k c hc
  · -- a cookie is deleted
    refine ⟨?_, hdb ▸ h.db⟩
    intro k c hc
    rw [hjar] at hc
    split at hc
    · exact h.jars k c (mem_deleteKey.1 hc).1
    · exact h.jars k c hc
  · -- a cookie is stored
    have htidy := parseSetCookie_tidy hparse
    constructor
    · intro k c hc
      rw [hjar] at hc
      split at hc
      · rcases mem_upsert.1 hc with ⟨hc, -⟩ | rfl
        · exact h.jars k c hc
        · exact htidy
      · exact h.jars k c hc
    · rw [hdb, forall_row]
      intro k c hc
      rw [cookie_row]
      rcases (mem_persistCookieToDb s.db).1 hc with ⟨hc, -⟩ | ⟨-, rfl, -⟩
      · have hrow := h.db _ hc
        rwa [cookie_row] at hrow
      · exact htidy
  · -- the jars come from the table
    refine ⟨?_, hdb ▸ h.db⟩
    intro k c hc
    rw [hjars] at hc
    have hrow := h.db _ (mem_seedJarsFromDb.1 hc)
    rwa [cookie_row] at hrow

theorem tidied_run {as : List Act} (h : Tidied s) (hrun : run (step D) s as = some s') :
    Tidied s' := by
  induction as generalizing s with
  | nil =>
    obtain rfl : s = s' := by simpa using hrun
    exact h
  | cons a as ih =>
    rcases run_cons_eq_some hrun with ⟨s₁, hs, hrest⟩
    exact ih (tidied_step h hs) hrest

/-- Nothing in the way: a cookie stays where it is until it expires. -/
theorem held_step (h : Held k rp c s) (hs : step D s a = some s') (hrival : ¬ Rival D k rp c a)
    (hlive : c.expiredAt s'.now = false) : Held k rp c s' := by
  rcases (effect_step hs).1 with ⟨hdb, hjar⟩ | ⟨k₀, hdb, hjar⟩ | ⟨htext, hparse, hdb, hjar⟩ |
    ⟨htext, hparse, hdb, hjar⟩ | ⟨hdb, hjars⟩
  · exact ⟨hjar k ▸ h.jar, hdb ▸ h.row⟩
  · -- a purge drops what has expired, and the cookie has not
    refine ⟨?_, hdb ▸ h.row⟩
    rw [hjar]
    split
    · rw [Jar.purge, List.filter_comm]
      exact h.jar.filter (by simp [hlive])
    · exact h.jar
  · rename_i url value parseAt addAt persistAt val cookie
    refine ⟨?_, hdb ▸ h.row⟩
    rw [hjar]
    split
    · next hk =>
      -- a deletion of its own place would be a rival
      have hplace : c.place ≠ (cookie.name, cookie.path) := by
        intro heq
        rcases Prod.mk.injEq .. ▸ heq with ⟨hname, hpath⟩
        exact hrival ⟨hk.symm, val, cookie, htext, hparse, hname.symm, .inl hpath.symm⟩
      rw [Jar.remove, deleteKey, List.filter_comm]
      exact h.jar.filter (decide_eq_true hplace)
    · exact h.jar
  · rename_i url value parseAt addAt persistAt val cookie
    -- another cookie is stored: not over this one, and not behind it under its name
    have hway : k = (splitUpstream url).1 → ¬ InTheWay k rp c cookie := by
      intro hk hin
      exact hrival ⟨hk.symm, val, cookie, htext, hparse, hin⟩
    constructor
    · rw [hjar]
      split
      · next hk =>
        have hid : c.identity ≠ cookie.identity := by
          intro heq
          simp only [StoredCookie.identity, Prod.mk.injEq] at heq
          exact hway hk ⟨heq.1.symm, .inl heq.2.1.symm⟩
        rw [Jar.insert, upsert, List.filter_append, List.filter_comm]
        have hkept := h.jar.filter
          (p := fun c' => decide (c'.identity ≠ cookie.identity)) (decide_eq_true hid)
        cases hmatch : isMatch k rp cookie with
        | true =>
          rw [List.filter_cons_of_pos hmatch]
          exact hkept.concat fun hname => hway hk ⟨hname, .inr hmatch⟩
        | false =>
          rw [List.filter_cons_of_neg (by simp [hmatch]), List.filter_nil, List.append_nil]
          exact hkept
      · exact h.jar
    · have hkept : (c.row k).primaryKey ≠ ((splitUpstream url).1, cookie.name, cookie.path) := by
        intro heq
        simp only [primaryKey_row, Prod.mk.injEq] at heq
        exact hway heq.1 ⟨heq.2.1.symm, .inl heq.2.2.symm⟩
      rw [hdb]
      unfold persistCookieToDb
      split
      · rw [deleteProxyCookie, deleteKey, List.filter_comm]
        exact h.row.filter (decide_eq_true hkept)
      · rw [upsertProxyCookie, upsert, List.filter_append, List.filter_comm]
        have hrow := h.row.filter
          (p := fun r => decide (r.primaryKey ≠ (cookie.row (splitUpstream url).1).primaryKey))
          (decide_eq_true hkept)
        cases hmatch : isMatch k rp cookie with
        | true =>
          rw [List.filter_cons_of_pos (by rwa [cookie_row])]
          refine hrow.concat ?_
          intro heq
          simp only [StoredCookie.row, Prod.mk.injEq] at heq
          exact hway heq.1.symm ⟨heq.2, .inr hmatch⟩
        | false =>
          rw [List.filter_cons_of_neg (by simp [hmatch]), List.filter_nil, List.append_nil]
          exact hrow
  · refine ⟨?_, hdb ▸ h.row⟩
    -- a restart makes the jar of the rows, and its row is the last of the name
    rw [hjars, jar_seedJarsFromDb, List.filter_map, List.filter_comm]
    have hrows := h.row.filter (p := fun r => decide (r.hostKey = k)) (by simp [StoredCookie.row])
    have hmap : LastOf StoredCookie.name (c.row k).cookie
        (((s.db.filter fun r => isMatch k rp r.cookie).filter fun r => r.hostKey = k).map
          ProxyCookieRow.cookie) := by
      refine hrows.map ?_
      intro r hr hne heq
      apply hne
      have hk : r.hostKey = k := by simpa using (List.mem_filter.1 hr).2
      have hname : r.name = c.name := heq
      simp [hk, hname, StoredCookie.row]
    rwa [cookie_row] at hmap

theorem held_run {as : List Act} (h : Held k rp c s) (hrun : run (step D) s as = some s')
    (hrival : ∀ a ∈ as, ¬ Rival D k rp c a) (hlive : c.expiredAt s'.now = false) :
    Held k rp c s' := by
  induction as generalizing s with
  | nil =>
    obtain rfl : s = s' := by simpa using hrun
    exact h
  | cons a as ih =>
    rcases run_cons_eq_some hrun with ⟨s₁, hs, hrest⟩
    have hle : s₁.now ≤ s'.now := now_le_run hrest
    have h₁ : Held k rp c s₁ :=
      held_step h hs (hrival a List.mem_cons_self) (not_expired_of_le hle hlive)
    exact ih h₁ hrest (fun a ha => hrival a (List.mem_cons_of_mem _ ha))

theorem held_storeCookie {url : Str} {value : Bytes} {parseAt addAt persistAt : UInt64} {val : Str}
    (htext : toStr value = some val) (hparse : parseSetCookie D parseAt val = some c)
    (hkey : (splitUpstream url).1 ≠ []) (hadd : c.expiredAt addAt = false)
    (hpersist : c.expiredAt persistAt = false) (hmatch : isMatch (splitUpstream url).1 rp c = true) :
    Held (splitUpstream url).1 rp c (storeCookie D s url value parseAt addAt persistAt) := by
  rw [storeCookie_eq htext hparse hkey hadd]
  constructor
  · rw [jar_insert, if_pos rfl]
    exact (lastOf_concat _ c _).filter hmatch
  · simp only [persistCookieToDb, hpersist, Bool.false_eq_true, if_false]
    exact (lastOf_concat _ (c.row _) _).filter (by rwa [cookie_row])

end Steps

/-! ## Both ways -/

theorem pathOk_of_onRoot {c : StoredCookie} (h : OnRoot c) (requestPath : Str) :
    pathOk requestPath c = true := by
  have hroot : trimEndMatches '/' c.path = [] := h
  simp [pathOk, hroot]

/-- On the path of an upgrade only the root matches. -/
theorem onRoot_of_pathOk {c : StoredCookie} (h : pathOk "/".toList c = true) : OnRoot c := by
  by_contra hne
  have hroot : trimEndMatches '/' c.path ≠ [] := hne
  have hlast : (trimEndMatches '/' c.path).getLast hroot ≠ '/' := by
    intro heq
    exact List.rdropWhile_last_not _ c.path hroot (decide_eq_true heq)
  have hslash : trimEndMatches '/' c.path ≠ "/".toList := by
    intro heq
    apply hlast
    simp [heq]
  simp only [pathOk, hroot, hslash, or_self, if_false] at h
  cases hdrop : "/".toList.dropPrefix? (trimEndMatches '/' c.path) with
  | none => simp only [hdrop, Bool.false_eq_true] at h
  | some rest =>
    rw [List.dropPrefix?_eq_some_iff] at hdrop
    rcases hdrop with ⟨pre, heq, hpre⟩
    obtain rfl : pre = trimEndMatches '/' c.path := by simpa using hpre
    rcases List.append_eq_singleton_iff.1 heq.symm with ⟨hnil, -⟩ | ⟨hone, -⟩
    · exact hroot hnil
    · exact hslash hone

section Ways

variable {jars : Jars} {c : StoredCookie} {now : UInt64} {k : Str}

theorem isMatch_of_onRoot (hdomain : c.domain = none) (hroot : OnRoot c) (host requestPath : Str) :
    isMatch host requestPath c = true := by
  simp [isMatch, domainOk, hdomain, pathOk_of_onRoot hroot]

/-- The last cookie of its name that matches goes out with a forwarded request. -/
theorem carries_forward {url : Str} {native : List Str} (hkey : (splitUpstream url).1 ≠ [])
    (htidy : ∀ c ∈ jars.jar (splitUpstream url).1, Tidy c.pair)
    (hlast : LastOf StoredCookie.name c ((jars.jar (splitUpstream url).1).filter
      (isMatch (splitUpstream url).1 (splitUpstream url).2)))
    (hlive : c.expiredAt now = false) : Carries (forwardCookies jars url native now) c := by
  have hmatched := lastOf_matched hlast hlive
  rcases buildCookieHeader_of_mem htidy hmatched.mem with ⟨line, hline, hpairs⟩
  have hpair : LastOf Prod.fst c.pair (cookiePairs line) := by
    rw [hpairs]
    refine hmatched.map ?_
    intro c' _ hne
    exact hne
  refine ⟨mergeCookieHeaders native.head? line, ?_, mem_mergeCookieHeaders hpair⟩
  simp only [forwardCookies, hkey, if_false, hline]
  exact List.mem_cons_self

/-- A cookie of the jar of `host:port` goes out with an upgrade. -/
theorem carries_upgrade {t : WsTarget} {clientCookie : Option Str}
    (htidy : ∀ c ∈ jars.jar (upgradeKey t.host t.port), Tidy c.pair)
    (hmem : c ∈ jars.jar (upgradeKey t.host t.port)) (hlive : c.expiredAt now = false)
    (hdomain : c.domain = none) (hroot : OnRoot c) :
    Carries (upgradeCookie jars t clientCookie now).toList c := by
  have hmatched : c ∈ (jars.jar (upgradeKey t.host t.port)).matched now t.host "/".toList := by
    simp only [Jar.matched, Jar.purge, List.mem_filter, hmem, hlive,
      isMatch_of_onRoot hdomain hroot, Bool.not_false, and_self]
  rcases buildCookieHeader_of_mem htidy hmatched with ⟨line, hline, hpairs⟩
  refine ⟨line, ?_, ?_⟩
  · simp only [upgradeCookie, hline]
    exact Option.mem_toList.2 rfl
  · rw [hpairs]
    exact List.mem_map.2 ⟨c, hmatched, rfl⟩

/-- Without a cookie of the client, what goes out matched in the jar. -/
theorem exists_matched {jar : Jar} {host requestPath line : Str}
    (h : (jar.buildCookieHeader now host requestPath).2 = some line) :
    ∃ c ∈ jar, domainOk host c = true ∧ pathOk requestPath c = true := by
  rw [buildCookieHeader_eq] at h
  cases hmatched : jar.matched now host requestPath with
  | nil => simp [hmatched] at h
  | cons c cs =>
    have hmem : c ∈ jar.matched now host requestPath := by rw [hmatched]; exact List.mem_cons_self
    rcases List.mem_filter.1 hmem with ⟨hpurged, hok⟩
    exact ⟨c, List.mem_of_mem_filter hpurged, (Bool.and_eq_true_iff.1 hok).1,
      (Bool.and_eq_true_iff.1 hok).2⟩

theorem of_carries_forward {url : Str} (h : Carries (forwardCookies jars url [] now) c) :
    ∃ c' ∈ jars.jar (splitUpstream url).1, domainOk (splitUpstream url).1 c' = true := by
  rcases h with ⟨line, hline, -⟩
  unfold forwardCookies at hline
  by_cases hkey : (splitUpstream url).1 = []
  · simp [hkey] at hline
  · cases hheader : ((jars.jar (splitUpstream url).1).buildCookieHeader now (splitUpstream url).1
        (splitUpstream url).2).2 with
    | none => simp [hkey, hheader] at hline
    | some jc =>
      rcases exists_matched hheader with ⟨c', hmem, hdomain, -⟩
      exact ⟨c', hmem, hdomain⟩

theorem of_carries_upgrade {t : WsTarget} (h : Carries (upgradeCookie jars t none now).toList c) :
    ∃ c' ∈ jars.jar (upgradeKey t.host t.port), pathOk "/".toList c' = true := by
  rcases h with ⟨line, hline, -⟩
  unfold upgradeCookie at hline
  cases hheader : ((jars.jar (upgradeKey t.host t.port)).buildCookieHeader now t.host
      "/".toList).2 with
  | none => simp only [hheader, Option.toList_none, List.not_mem_nil] at hline
  | some jc =>
    rcases exists_matched hheader with ⟨c', hmem, -, hpath⟩
    exact ⟨c', hmem, hpath⟩

end Ways

/-- An upgrade that names host and port reaches them. -/
theorem resolveTarget_hostPort (isIp : Str → Bool) (O : UpstreamOrigin) (path : Str) :
    resolveTarget isIp (O.port + 1) ⟨O.wsScheme, O.hostPort ++ '/' :: path, none, none, none⟩ =
      some ⟨O.host, O.port, O.wsScheme, '/' :: path⟩ := by
  have hno : '/' ∉ O.hostPort := by
    rw [UpstreamOrigin.hostPort, upgradeKey, List.mem_append, not_or]
    refine ⟨O.host_plain, ?_⟩
    rw [List.mem_cons, not_or]
    refine ⟨by decide, ?_⟩
    intro hmem
    have hdigit := isDigit_of_mem_decimal hmem
    simp [Char.isDigit] at hdigit
  have hcolon : ':' ∉ (decimal O.port.toNat).reverse := by
    intro hmem
    have hdigit := isDigit_of_mem_decimal (List.mem_reverse.1 hmem)
    simp [Char.isDigit] at hdigit
  have hlast : cutAtLast ':' O.hostPort = some (O.host, decimal O.port.toNat) := by
    have hrev : O.hostPort.reverse = (decimal O.port.toNat).reverse ++ ':' :: O.host.reverse := by
      simp [UpstreamOrigin.hostPort, upgradeKey]
    simp [cutAtLast, hrev, cutAt_append hcolon]
  have hnamed : namedTarget ⟨O.wsScheme, O.hostPort ++ '/' :: path, none, none, none⟩ =
      ⟨O.host, O.port, O.wsScheme, '/' :: path⟩ := by
    simp only [namedTarget, cutAt_append hno, hlast, parseU16_decimal, Option.getD_some]
  have hport : O.port ≠ O.port + 1 := by
    intro heq
    have h1 : (1 : UInt16) = 0 := by simpa using heq.symm
    exact absurd h1 (by decide)
  simp [resolveTarget, hnamed, isSelf, hport]

/-- The step of a response whose cookie is captured. -/
theorem answered_forward {D : Chrono} {s : St} {e : Exchange} {value : Bytes}
    {parseAt addAt persistAt : UInt64} (h : e.sender = .forward) :
    e.answered D s false value parseAt addAt persistAt =
      step D s (.setCookie e.url.text value parseAt addAt persistAt) :=
  if_pos ⟨h, rfl⟩

/-- Nothing to carry: the first upgrade to an origin with an empty jar. -/
theorem not_carries_init {t : WsTarget} {c : StoredCookie} {now : UInt64} :
    ¬ Carries (upgradeCookie init.jars t none now).toList c := by
  intro h
  rcases of_carries_upgrade h with ⟨c', hmem, -⟩
  simp [init, jar_empty] at hmem

/-- **Cookies come back** with requests and upgrades alike in the `ReturnExact` cases,
and in no other. The two requests go to `O` in the end, whatever URLs the proxy asked
for; for a URL of `O` itself `splitUpstream_eq_hostPort` says when its jar is that of
host and port. -/
theorem cookie_return_iff (D : Chrono) (isIp : Str → Bool) (keeps : HttpUrl → HttpUrl → Bool)
    (O : UpstreamOrigin) {e₁ e₂ : Exchange} {follows : Bool} {value : Bytes} {val : Str}
    {c : StoredCookie} {parseAt addAt persistAt : UInt64} (hpa : parseAt ≤ addAt)
    (hap : addAt ≤ persistAt) (htext : toStr value = some val)
    (hparse : parseSetCookie D parseAt val = some c) (hlive : c.expiredAt persistAt = false)
    (hdomain : ∀ d, c.domain = some d → d = O.host ∨ '.' :: d <:+ O.host)
    (hpath : PathMatch c.path e₂.target.pathname) :
    Returned D isIp keeps O e₁ e₂ follows c value parseAt addAt persistAt ↔
      ReturnExact keeps O e₁ e₂ follows c := by
  have hadd : c.expiredAt addAt = false := not_expired_of_le hap hlive
  constructor
  · intro h
    -- an upgrade to the origin, on the path of the request
    have hrooted := e₂.target.pathname_rooted
    obtain ⟨path, hp⟩ : ∃ path, e₂.target.pathname = '/' :: path := by
      cases hp : e₂.target.pathname with
      | nil => simp [hp] at hrooted
      | cons x path =>
        obtain rfl : x = '/' := by simpa [hp] using hrooted
        exact ⟨path, rfl⟩
    have hcut : (cutAt '?' ('/' :: path)).1 = e₂.target.pathname := by
      rw [← hp, cutAt_of_notMem (e₂.target.pathname_plain '?' (by simp))]
    by_cases hcaptured : e₁.sender = .forward ∧ follows = false
    · -- the response is the first thing that happens, the request the second
      have hstep := step_first (D := D) e₁.url.text value hpa hap
      rcases hcaptured with ⟨hsender, rfl⟩
      have hnow : (storeCookie D init e₁.url.text value parseAt addAt persistAt).now ≤
          persistAt := by
        rw [now_storeCookie]
        exact UInt64.le_refl _
      rcases h [] [] init _ _ persistAt rfl ((answered_forward hsender).trans hstep) rfl (by simp)
        hnow hlive with ⟨hfwd, hup, -⟩
      have hbare := hfwd []
      have hkept : keptAlong keeps e₂.url e₂.followed = true := by
        by_contra hkept
        rw [Exchange.cookies, if_neg hkept] at hbare
        rcases hbare with ⟨line, hline, -⟩
        simp at hline
      have hsender₂ : e₂.sender = .forward := by
        cases hsender₂ : e₂.sender with
        | forward => rfl
        | passthrough =>
          rw [Exchange.cookies, if_pos hkept, hsender₂] at hbare
          rcases hbare with ⟨line, hline, -⟩
          simp at hline
      rw [Exchange.cookies, if_pos hkept, hsender₂] at hbare
      rcases of_carries_forward hbare with ⟨c₂, hmem₂, hok₂⟩
      rcases mem_jar_first htext hparse hmem₂ with ⟨hkey₂, rfl⟩
      have hsent := hup _ _ _ (resolveTarget_hostPort isIp O path) rfl rfl rfl (by rwa [hcut])
      rcases of_carries_upgrade hsent with ⟨c₃, hmem₃, hok₃⟩
      rcases mem_jar_first htext hparse hmem₃ with ⟨hkey₁, rfl⟩
      have hkey : (splitUpstream e₂.url.text).1 = O.hostPort := hkey₂.trans hkey₁.symm
      refine ⟨⟨hsender, rfl⟩, ⟨hsender₂, hkept⟩, hkey₁.symm, hkey, ?_, onRoot_of_pathOk hok₃⟩
      cases hdom : c₃.domain with
      | none => rfl
      | some d =>
        rw [hkey, O.domain_ne_hostPort hdom (hdomain d hdom)] at hok₂
        simp at hok₂
    · -- nothing is stored, so the upgrade has nothing to send
      have hnow : init.now ≤ persistAt := UInt64.le_iff_toNat_le.2 (Nat.zero_le _)
      rcases h [] [] init _ _ persistAt rfl (if_neg hcaptured) rfl (by simp) hnow hlive with
        ⟨-, hup, -⟩
      have hsent := hup _ _ _ (resolveTarget_hostPort isIp O path) rfl rfl rfl (by rwa [hcut])
      exact absurd hsent not_carries_init
  · rintro ⟨⟨hsender₁, rfl⟩, ⟨hsender₂, hkept⟩, hkey₁, hkey₂, hnone, hroot⟩
    have hne : O.hostPort ≠ [] := by simp [UpstreamOrigin.hostPort, upgradeKey]
    intro earlier later s₀ s₁ s now hearlier hset hlater hrival hle hnow
    rw [answered_forward hsender₁] at hset
    have htidy : Tidied s := tidied_run (tidied_step (tidied_run tidied_init hearlier) hset) hlater
    have hheld₁ : Held O.hostPort (splitUpstream e₂.url.text).2 c s₁ := by
      simp only [step, Option.ite_none_right_eq_some, Option.some.injEq] at hset
      rcases hset with ⟨-, rfl⟩
      rw [← hkey₁]
      exact held_storeCookie htext hparse (hkey₁ ▸ hne) hadd hlive
        (isMatch_of_onRoot hnone hroot _ _)
    rw [hkey₁] at hrival
    have hheld : Held O.hostPort (splitUpstream e₂.url.text).2 c s :=
      held_run hheld₁ hlater hrival (not_expired_of_le hle hnow)
    refine ⟨?_, ?_, hkey₂⟩
    · intro native
      rw [Exchange.cookies, if_pos hkept, hsender₂]
      refine carries_forward (hkey₂ ▸ hne) (htidy.jars _) ?_ hnow
      rw [hkey₂]
      exact hheld.jar
    · intro frontPort req t _ hhost hport _ _
      refine carries_upgrade (htidy.jars _) ?_ hnow hnone hroot
      rw [hhost, hport]
      exact List.mem_of_mem_filter hheld.jar.mem

/-! ### An application on a port of its own -/

/-- `http://nas.local:8080` -/
def nasOrigin : UpstreamOrigin where
  secure := false
  host := "nas.local".toList
  port := 8080
  host_plain := by decide
  host_colon := .inl (by decide)

/-- `http://nas.local:8080/login` -/
def nasLogin : HttpUrl where
  toOrigin := nasHost
  path := "/login".toList
  query := none
  fragment := none
  http := nasHost_http
  path_rooted := by decide
  path_plain := forall_mem_of_all (by decide)
  query_plain := noQuery_plain

/-- Digits and delimiters of an address. -/
def looksLikeIp (host : Str) : Bool := host.all fun c => c.isDigit || c == '.' || c == ':'

/-- `reqwest` takes the cookies off on the way to another host or port. -/
def sameAuthority (u v : HttpUrl) : Bool := decide (u.authority = v.authority)

/-- The cookie `sid=1`, with or without a domain. -/
def sidCookie (domain : Option Str) : StoredCookie :=
  ⟨"sid".toList, "1".toList, "/".toList, domain, none, false, false, none⟩

/-- The log-in page, asked for by the page with its key. -/
def loginAsked : Exchange := ⟨.forward, nasLogin, []⟩

/-- A page that is redirected to the log-in page, which `reqwest` follows. -/
def homeAsked : Exchange where
  sender := .forward
  url :=
    { nasLogin with
      path := "/".toList
      path_rooted := by decide
      path_plain := forall_mem_of_all (by decide) }
  followed := [nasLogin]

theorem nasLogin_owned : nasOrigin.Owns nasLogin where
  scheme := rfl
  authority := .inl rfl

theorem sid_returned :
    Returned noDates looksLikeIp sameAuthority nasOrigin loginAsked homeAsked false (sidCookie none)
      (headerBytes "sid=1".toList) 10 10 10 := by
  have hpath : PathMatch "/".toList homeAsked.target.pathname :=
    .inr ⟨"login".toList, rfl, .inl rfl⟩
  refine (cookie_return_iff noDates looksLikeIp sameAuthority nasOrigin
    (UInt64.le_refl 10) (UInt64.le_refl 10) (toStr_headerBytes (by decide)) (by decide) rfl
    ?_ hpath).2 ?_
  · simp [sidCookie]
  · exact ⟨⟨rfl, rfl⟩, ⟨rfl, by decide⟩, (nasOrigin.splitUpstream_eq_hostPort nasLogin_owned).2
      ⟨rfl, by decide⟩, by decide, rfl, rfl⟩

/-- With a domain the cookie stays behind: the host of the request is compared
with its port. -/
theorem domain_cookie_withheld :
    ¬ Returned noDates looksLikeIp sameAuthority nasOrigin loginAsked loginAsked false
      (sidCookie (some "nas.local".toList)) (headerBytes "sid=1; Domain=nas.local".toList)
      10 10 10 := by
  intro h
  have hset := step_first (D := noDates) nasLogin.text
    (headerBytes "sid=1; Domain=nas.local".toList) (UInt64.le_refl 10) (UInt64.le_refl 10)
  have hnow : (storeCookie noDates init nasLogin.text
      (headerBytes "sid=1; Domain=nas.local".toList) 10 10 10).now ≤ 10 := by
    rw [now_storeCookie]
    exact UInt64.le_refl _
  rcases h [] [] init _ _ 10 rfl ((answered_forward rfl).trans hset) rfl (by simp) hnow rfl with
    ⟨hfwd, -, -⟩
  have hnone : loginAsked.cookies sameAuthority (storeCookie noDates init nasLogin.text
      (headerBytes "sid=1; Domain=nas.local".toList) 10 10 10).jars [] 10 = [] := by
    decide
  rcases hfwd [] with ⟨line, hline, -⟩
  rw [hnone] at hline
  simp at hline

/-- `passthrough` makes a request to the same page without the cookie in the jar. -/
theorem passthrough_withholds :
    ¬ Returned noDates looksLikeIp sameAuthority nasOrigin loginAsked
      { loginAsked with sender := .passthrough } false (sidCookie none)
      (headerBytes "sid=1".toList) 10 10 10 := by
  intro h
  have hset := step_first (D := noDates) nasLogin.text
    (headerBytes "sid=1".toList) (UInt64.le_refl 10) (UInt64.le_refl 10)
  have hnow : (storeCookie noDates init nasLogin.text (headerBytes "sid=1".toList)
      10 10 10).now ≤ 10 := by
    rw [now_storeCookie]
    exact UInt64.le_refl _
  rcases h [] [] init _ _ 10 rfl ((answered_forward rfl).trans hset) rfl (by simp) hnow rfl with
    ⟨hfwd, -, -⟩
  rcases hfwd [] with ⟨line, hline, -⟩
  exact absurd hline List.not_mem_nil

end CookieJars

end HomeTier
