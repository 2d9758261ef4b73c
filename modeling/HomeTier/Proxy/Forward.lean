import HomeTier.Lib.Codec
import HomeTier.Proxy.Url

/-! # Proxy URLs and where they are forwarded to

A page of an application is loaded through the local proxy under
`/__proxy__{key}`, where the key stands for the application's source URL. Two
encoders write such URLs:

* `encodeProxy` (`rewrite_urls` in `src-tauri/src/proxy/rewriter.rs`) for the
  links of a proxied page;
* `resolveProxyUrl` (`src/components/AppBrowser/ProxyFrame.tsx`) for the page a
  user opens, after registering it as a source of its own.

`handle` and `handleProxyRequest` (`proxy/plugins/http_forward.rs`) read the
request line back and build the upstream URL. The decoder looks for the `url`
parameter of another origin in the path, where a request line has none, and
appends every path to the whole source URL; `proxy_codec_iff` says for which
URLs the round trip closes all the same.
-/

namespace HomeTier

open Lib

/-- `urlencoding::encode` and `form_urlencoded::parse`, from crates. -/
structure UrlCodec where
  urlencode : Str → Str
  formParse : Str → List (Str × Str)

/-- Path and query of a request line. -/
structure RequestLine where
  path : Str
  query : Option Str
  path_plain : '?' ∉ path

/-- Registered keys with their source URLs. -/
abbrev KeyMap := Map Str Str

/-! ## Encoders -/

/-- `base_origin` of `rewrite_urls`. -/
def baseOrigin (baseUrl : Str) : Str :=
  match splitOnce "://".toList baseUrl with
  | some (scheme, after) =>
    match cutAt '/' after with
    | (host, some _) => scheme ++ "://".toList ++ host
    | (_, none) => baseUrl
  | none => trimEndMatches '/' baseUrl

/-- `encode_proxy` of `rewrite_urls`. -/
def encodeProxy (C : UrlCodec) (baseUrl proxyPrefix key url : Str) : Str :=
  if key = [] then proxyPrefix ++ "/proxy?url=".toList ++ C.urlencode url
  else if extractOrigin url = baseOrigin baseUrl then
    -- same origin: the path goes behind the key
    let path := url.drop (baseOrigin baseUrl).length
    proxyPrefix ++ "/__proxy__".toList ++ key ++ path
  else proxyPrefix ++ "/__proxy__".toList ++ key ++ "?url=".toList ++ C.urlencode url

/-- The key of a source URL: six bytes of its digest. -/
def proxyKey (sha256 : Bytes → Bytes) (url : Str) : Str :=
  hexEncode ((sha256 (utf8 url)).take 6)

/-- `register_proxy_key` -/
def registerProxyKey (sha256 : Bytes → Bytes) (km : KeyMap) (url : Str) : KeyMap × Str :=
  let key := proxyKey sha256 url
  (km.insert key url, key)

/-- `http://127.0.0.1:{port}` -/
def proxyOrigin (port : Str) : Str := "http://127.0.0.1:".toList ++ port

/-- `resolveProxyUrl`: register the URL and build its proxy URL. -/
def resolveProxyUrl (sha256 : Bytes → Bytes) (km : KeyMap) (port : Str) (u : HttpUrl) :
    KeyMap × Str :=
  let r := registerProxyKey sha256 km u.text
  let path := if u.pathname = ['/'] then [] else u.pathname
  (r.1, proxyOrigin port ++ "/__proxy__".toList ++ r.2 ++ path ++ u.search ++ u.hash)

/-- The request line a browser sends for a URL of the proxy: the fragment stays
behind, path and query are cut at the question mark. -/
def requestTarget (proxyPrefix url : Str) : Option RequestLine :=
  match url.dropPrefix? proxyPrefix with
  | none => none
  | some rest =>
    let line := (cutAt '#' rest).1
    some ⟨(cutAt '?' line).1, (cutAt '?' line).2, by
      intro h
      simpa using List.mem_takeWhile_imp h⟩

/-! ## Decoder -/

/-- `get` of a `HashMap` collected from pairs: the last value of the name. -/
def paramGet (params : List (Str × Str)) (name : Str) : Option Str :=
  (params.reverse.find? fun e => e.1 = name).map fun e => e.2

/-- The key in front of the first slash, else of the first question mark, and
what follows. -/
def splitKey (rest : Str) : Str × Str :=
  let c := if '/' ∈ rest then '/' else '?'
  (rest.takeWhile (· ≠ c), rest.dropWhile (· ≠ c))

def handleProxyRequest (C : UrlCodec) (km : KeyMap) (rest : Str) (query : Option Str) :
    Except Str Str :=
  let key := (splitKey rest).1
  let remaining := (splitKey rest).2
  match km.get key with
  | none => .error ("Proxy key not found: ".toList ++ key)
  | some sourceUrl =>
    match remaining with
    | '?' :: qs => .ok ((paramGet (C.formParse qs) "url".toList).getD sourceUrl)
    | _ =>
      if '/' ∈ remaining then
        let remaining := remaining.dropWhile (· ≠ '/')
        let pathPart := (cutAt '?' remaining).1
        .ok (trimEndMatches '/' sourceUrl ++ pathPart ++ withDelimiter '?' query)
      else .ok sourceUrl

/-- How `handle` treats a request. -/
inductive Route where
  | proxied (forwardUrl : Except Str Str)
  | legacy (targetUrl : Str)
  | passthrough

def handle (C : UrlCodec) (km : KeyMap) (t : RequestLine) : Route :=
  match t.path.dropPrefix? "/__proxy__".toList with
  | some rest => .proxied (handleProxyRequest C km rest t.query)
  | none =>
    match paramGet (C.formParse (t.query.getD [])) "url".toList with
    | some targetUrl => .legacy targetUrl
    | none => .passthrough

/-- The upstream URL built for a request under `/__proxy__`. -/
def upstream (C : UrlCodec) (km : KeyMap) (t : RequestLine) : Option Str :=
  match handle C km t with
  | .proxied (.ok url) => some url
  | _ => none

/-! ## What the decoder builds -/

/-- A key without delimiters. -/
def PlainKey (key : Str) : Prop := ∀ c ∈ ['/', '?', '#'], c ∉ key

theorem proxyKey_plain (sha256 : Bytes → Bytes) (url : Str) : PlainKey (proxyKey sha256 url) := by
  intro c hc hmem
  have hd : c ∈ hexDigits := mem_hexDigits_of_mem_encode _ c hmem
  have hno : ∀ d ∈ ['/', '?', '#'], d ∉ hexDigits := forall_mem_of_all (by decide)
  exact hno c hc hd

theorem proxyKey_length {sha256 : Bytes → Bytes} (hsha : ∀ x, (sha256 x).length = 32) (url : Str) :
    (proxyKey sha256 url).length = 12 := by
  rw [proxyKey, hexEncode_length, List.length_take, hsha]
  rfl

theorem proxyKey_ne_nil {sha256 : Bytes → Bytes} (hsha : ∀ x, (sha256 x).length = 32) (url : Str) :
    proxyKey sha256 url ≠ [] := by
  intro hnil
  have hlength := proxyKey_length hsha url
  simp [hnil] at hlength

/-- The key of a rooted path is everything in front of it. -/
theorem splitKey_append {key p : Str} (hkey : PlainKey key)
    (hp : p = [] ∨ p.head? = some '/') : splitKey (key ++ p) = (key, p) := by
  have hall : ∀ c ∈ ['/', '?', '#'], ∀ a ∈ key, decide (a ≠ c) = true := by
    intro c hc a ha
    have hne : a ≠ c := by
      rintro rfl
      exact hkey a hc ha
    simpa using hne
  rcases hp with rfl | hp
  · have hslash : '/' ∉ key := hkey '/' (by simp)
    have htake : key.takeWhile (· ≠ '?') = key :=
      List.takeWhile_eq_self_iff.2 (hall '?' (by simp))
    have hdrop : key.dropWhile (· ≠ '?') = [] :=
      List.dropWhile_eq_nil_iff.2 (hall '?' (by simp))
    simp only [List.append_nil, splitKey, if_neg hslash, htake, hdrop]
  · cases p with
    | nil => simp at hp
    | cons c p =>
      obtain rfl : c = '/' := by simpa using hp
      have hslash : '/' ∈ key ++ '/' :: p := by simp
      simp only [splitKey, if_pos hslash,
        List.takeWhile_append_of_pos (hall '/' (by simp)),
        List.dropWhile_append_of_pos (hall '/' (by simp))]
      simp

/-- Under a registered key a bare request goes to the source URL, any other to
its path appended to the source URL without trailing slashes. -/
theorem upstream_key (C : UrlCodec) {km : KeyMap} {key source : Str} (hkey : PlainKey key)
    (hsource : km.get key = some source) (t : RequestLine) {p : Str}
    (hpath : t.path = "/__proxy__".toList ++ key ++ p) (hp : p = [] ∨ p.head? = some '/') :
    upstream C km t = some (if p = [] then source
      else trimEndMatches '/' source ++ p ++ withDelimiter '?' t.query) := by
  have hdrop : t.path.dropPrefix? "/__proxy__".toList = some (key ++ p) := by
    rw [List.dropPrefix?_eq_some_iff]
    exact ⟨_, by rw [hpath, List.append_assoc], by simp⟩
  have hquery : '?' ∉ p := by
    intro h
    exact t.path_plain (by rw [hpath]; simp [h])
  simp only [upstream, handle, hdrop, handleProxyRequest, splitKey_append hkey hp, hsource]
  rcases hp with rfl | hp
  · simp
  · cases p with
    | nil => simp at hp
    | cons c p =>
      obtain rfl : c = '/' := by simpa using hp
      have hcut : (cutAt '?' ('/' :: p)).1 = '/' :: p := by
        rw [cutAt_of_notMem hquery]
      simp [hcut]

/-! ## Request lines of encoded URLs -/

/-- The request line of a proxy URL: what stands behind the key, without its
fragment and cut at the question mark. -/
theorem requestTarget_key (proxyPrefix : Str) {key : Str} (hkey : PlainKey key) (path : Str)
    (query fragment : Option Str) (hpath : ∀ c ∈ ['?', '#'], c ∉ path)
    (hquery : ∀ q ∈ query, '#' ∉ q) :
    ∃ t, requestTarget proxyPrefix (proxyPrefix ++ "/__proxy__".toList ++ key ++
        (path ++ withDelimiter '?' query ++ withDelimiter '#' fragment)) = some t ∧
      t.path = "/__proxy__".toList ++ key ++ path ∧ t.query = query := by
  have hdrop : (proxyPrefix ++ "/__proxy__".toList ++ key ++
      (path ++ withDelimiter '?' query ++ withDelimiter '#' fragment)).dropPrefix? proxyPrefix =
      some ("/__proxy__".toList ++ key ++ path ++ withDelimiter '?' query ++
        withDelimiter '#' fragment) := by
    rw [List.dropPrefix?_eq_some_iff]
    exact ⟨proxyPrefix, by simp only [List.append_assoc], by simp⟩
  have hfront : ∀ c ∈ ['?', '#'], c ∉ "/__proxy__".toList ++ key ++ path := by
    intro c hc
    have hmark : ∀ c ∈ ['?', '#'], c ∉ "/__proxy__".toList :=
      forall_mem_of_all (by decide)
    have hk : c ∉ key := hkey c (List.mem_cons_of_mem _ hc)
    simp only [List.mem_append, not_or]
    exact ⟨⟨hmark c hc, hk⟩, hpath c hc⟩
  have hline : '#' ∉ "/__proxy__".toList ++ key ++ path ++ withDelimiter '?' query := by
    rw [List.mem_append, not_or]
    refine ⟨hfront '#' (by simp), ?_⟩
    cases query with
    | none => simp [withDelimiter]
    | some q => simpa [withDelimiter] using hquery q rfl
  have hhash : (cutAt '#' ("/__proxy__".toList ++ key ++ path ++ withDelimiter '?' query ++
      withDelimiter '#' fragment)).1 =
      "/__proxy__".toList ++ key ++ path ++ withDelimiter '?' query := by
    cases fragment with
    | none => rw [withDelimiter, List.append_nil, cutAt_of_notMem hline]
    | some f => rw [withDelimiter, cutAt_append hline]
  have hmark : cutAt '?' ("/__proxy__".toList ++ key ++ path ++ withDelimiter '?' query) =
      ("/__proxy__".toList ++ key ++ path, query) := by
    cases query with
    | none => rw [withDelimiter, List.append_nil, cutAt_of_notMem (hfront '?' (by simp))]
    | some q => rw [withDelimiter, cutAt_append (hfront '?' (by simp))]
  refine ⟨_, by rw [requestTarget, hdrop], ?_, ?_⟩
  · simp only [hhash, hmark]
  · simp only [hhash, hmark]

/-- The request line of a proxy URL with a parameter right behind the key. -/
theorem requestTarget_param (proxyPrefix : Str) {key : Str} (hkey : PlainKey key) (param : Str) :
    ∃ t, requestTarget proxyPrefix
        (proxyPrefix ++ "/__proxy__".toList ++ key ++ '?' :: param) = some t ∧
      t.path = "/__proxy__".toList ++ key ++ [] := by
  have hquery : ∀ q ∈ some (cutAt '#' param).1, '#' ∉ q := by
    intro q hq
    obtain rfl : (cutAt '#' param).1 = q := by simpa using hq
    exact notMem_cutAt '#' param
  have hjoin : [] ++ withDelimiter '?' (some (cutAt '#' param).1) ++
      withDelimiter '#' (cutAt '#' param).2 = '?' :: param := by
    change '?' :: ((cutAt '#' param).1 ++ withDelimiter '#' (cutAt '#' param).2) = _
    rw [cutAt_join]
  rcases requestTarget_key proxyPrefix hkey [] (some (cutAt '#' param).1) (cutAt '#' param).2
    (by simp) hquery with ⟨t, ht, hpath, -⟩
  rw [hjoin] at ht
  exact ⟨t, ht, hpath⟩

/-! ## Pages of an application -/

/-- `page` is the upstream URL of a request under the key. -/
def ServedUnder (C : UrlCodec) (km : KeyMap) (key page : Str) : Prop :=
  ∃ (t : RequestLine) (p : Str), t.path = "/__proxy__".toList ++ key ++ p ∧
    (p = [] ∨ p.head? = some '/') ∧ upstream C km t = some page

theorem baseOrigin_rooted (o : Origin) {tail : Str} (h : tail = [] ∨ tail.head? = some '/') :
    baseOrigin (o.origin ++ tail) = o.origin := by
  have hsplit : splitOnce "://".toList (o.origin ++ tail) = some (o.scheme, o.authority ++ tail) := by
    rw [Origin.origin, List.append_assoc _ o.authority tail]
    exact splitOnce_append o.scheme_noColon _
  have hext := o.extractOrigin_rooted h
  rw [extractOrigin, hsplit] at hext
  rw [baseOrigin, hsplit]
  exact hext

/-- Pages served under a key have the origin of its source. -/
theorem baseOrigin_of_served (C : UrlCodec) {km : KeyMap} {key page : Str} {S : SourceUrl}
    (hkey : PlainKey key) (hsource : km.get key = some S.text)
    (h : ServedUnder C km key page) : baseOrigin page = S.origin := by
  rcases h with ⟨t, p, hpath, hp, hup⟩
  rw [upstream_key C hkey hsource t hpath hp, Option.some.injEq] at hup
  by_cases hnil : p = []
  · rw [if_pos hnil] at hup
    rw [← hup]
    exact baseOrigin_rooted _ S.path_rooted
  · rw [if_neg hnil, SourceUrl.text, Origin.trimEnd_append] at hup
    rw [← hup, List.append_assoc, List.append_assoc]
    refine baseOrigin_rooted _ (.inr ?_)
    have hhead : p.head? = some '/' := hp.resolve_left hnil
    cases htrim : trimEndMatches '/' S.path with
    | nil =>
      cases p with
      | nil => simp at hhead
      | cons c p => simpa using hhead
    | cons c q =>
      -- what is left of the source's path still starts with its slash
      rcases trimEndMatches_append '/' S.path with ⟨r, -, hr⟩
      rcases S.path_rooted with hempty | hslash
      · rw [htrim, hempty] at hr
        simp at hr
      · rw [hr, htrim] at hslash
        simpa using hslash

/-! ## Links of a page -/

namespace HttpUrl

variable (U : HttpUrl)

theorem tail_eq_nil_iff : U.tail = [] ↔ U.path = [] ∧ U.query = none ∧ U.fragment = none := by
  cases hq : U.query with
  | some q => simp [tail, withDelimiter, hq]
  | none =>
    cases hf : U.fragment with
    | some f => simp [tail, withDelimiter, hf]
    | none => simp [tail, withDelimiter, hq, hf]

theorem extractOrigin_of_path (h : U.path ≠ []) : extractOrigin U.text = U.origin := by
  refine U.extractOrigin_rooted (.inr ?_)
  have hhead := U.path_rooted.resolve_left h
  cases hp : U.path with
  | nil => exact absurd hp h
  | cons c p => simpa [tail, hp] using hhead

/-- When the extracted origin is an origin at all, it is the URL's own. -/
theorem origin_of_extractOrigin {o : Origin} (h : extractOrigin U.text = o.origin) :
    U.origin = o.origin ∧ (U.path = [] → U.tail = []) := by
  by_cases hp : U.path = []
  · -- otherwise the question mark or the hash would lie in the origin
    have htail : U.tail = [] := by
      cases ht : U.tail with
      | nil => rfl
      | cons c t =>
        have hc : c ∈ ['?', '#'] := by
          rw [tail, hp] at ht
          cases hq : U.query with
          | some q =>
            rw [hq] at ht
            simp only [withDelimiter, List.nil_append, List.cons_append, List.cons.injEq] at ht
            simp [← ht.1]
          | none =>
            cases hf : U.fragment with
            | some f =>
              rw [hq, hf] at ht
              simp only [withDelimiter, List.nil_append, List.cons.injEq] at ht
              simp [← ht.1]
            | none => simp [hq, hf, withDelimiter] at ht
        have hne : c ≠ '/' := by
          rintro rfl
          simp at hc
        rw [text, U.extractOrigin_append, ht] at h
        refine absurd ?_ (o.origin_plain hc)
        rw [← h]
        simp [hne]
    rw [text, htail, List.append_nil] at h
    have hown : extractOrigin (U.origin ++ []) = U.origin := U.extractOrigin_rooted (.inl rfl)
    rw [List.append_nil] at hown
    exact ⟨hown.symm.trans h, fun _ => htail⟩
  · exact ⟨(U.extractOrigin_of_path hp).symm.trans h, fun hnil => absurd hnil hp⟩

end HttpUrl

/-- The links of an application that come back as they were: no fragment, the
origin of the source, and a source that is no more than its origin. -/
structure EncodeExact (S : SourceUrl) (U : HttpUrl) : Prop where
  origin : U.origin = S.origin
  noFragment : U.fragment = none
  bare : U.path = [] → S.path = [] ∧ U.query = none
  slashes : U.path ≠ [] → trimEndMatches '/' S.path = []

section Encode

variable (C : UrlCodec) {km : KeyMap} {key page : Str} {S : SourceUrl}

/-- Where the link `U` of a page is forwarded to. -/
theorem upstream_encodeProxy (proxyPrefix : Str) (hkey : PlainKey key) (hne : key ≠ [])
    (hsource : km.get key = some S.text) (hpage : baseOrigin page = S.origin) (U : HttpUrl) :
    ∃ t, requestTarget proxyPrefix (encodeProxy C page proxyPrefix key U.text) = some t ∧
      upstream C km t = some (if extractOrigin U.text = S.origin ∧ U.path ≠ [] then
        trimEndMatches '/' S.text ++ U.path ++ withDelimiter '?' U.query else S.text) := by
  rw [encodeProxy, if_neg hne, hpage]
  by_cases ho : extractOrigin U.text = S.origin
  · rcases U.origin_of_extractOrigin ho with ⟨hown, -⟩
    have hdrop : U.text.drop S.origin.length = U.tail := by
      rw [HttpUrl.text, hown]
      exact List.drop_left
    rw [if_pos ho, hdrop]
    rcases requestTarget_key proxyPrefix hkey U.path U.query U.fragment U.path_plain
      U.query_plain with ⟨t, ht, hpath, hquery⟩
    refine ⟨t, ht, ?_⟩
    rw [upstream_key C hkey hsource t hpath U.path_rooted, hquery]
    by_cases hp : U.path = []
    · simp [hp]
    · simp [hp, ho]
  · rw [if_neg ho, if_neg (fun h => ho h.1)]
    rcases requestTarget_param proxyPrefix hkey ("url=".toList ++ C.urlencode U.text) with
      ⟨t, ht, hpath⟩
    refine ⟨t, ?_, ?_⟩
    · simpa using ht
    · rw [upstream_key C hkey hsource t hpath (.inl rfl), if_pos rfl]

theorem forwarded_noHash (S : SourceUrl) (U : HttpUrl) :
    '#' ∉ S.origin ++ trimEndMatches '/' S.path ++ U.path ++ withDelimiter '?' U.query := by
  have hS : '#' ∉ trimEndMatches '/' S.path := by
    rcases trimEndMatches_append '/' S.path with ⟨r, -, hr⟩
    intro h
    refine S.path_plain '#' (by simp) ?_
    rw [hr]
    exact List.mem_append_left _ h
  have hq : '#' ∉ withDelimiter '?' U.query := by
    cases hquery : U.query with
    | none => simp [withDelimiter]
    | some q => simpa [withDelimiter] using U.query_plain q hquery
  simp only [List.mem_append, not_or]
  exact ⟨⟨⟨S.origin_plain (by simp), hS⟩, U.path_plain '#' (by simp)⟩, hq⟩

/-- The forwarded URL is the link itself exactly in the `EncodeExact` case. -/
theorem forwarded_eq_iff (S : SourceUrl) (U : HttpUrl) :
    (if extractOrigin U.text = S.origin ∧ U.path ≠ [] then
      trimEndMatches '/' S.text ++ U.path ++ withDelimiter '?' U.query else S.text) = U.text ↔
      EncodeExact S U := by
  by_cases hc : extractOrigin U.text = S.origin ∧ U.path ≠ []
  · rw [if_pos hc, SourceUrl.text, Origin.trimEnd_append]
    rcases U.origin_of_extractOrigin hc.1 with ⟨hown, -⟩
    constructor
    · intro htext
      have hf : U.fragment = none := by
        cases hfrag : U.fragment with
        | none => rfl
        | some f =>
          -- a fragment would be in the forwarded URL, which has no hash
          have hmem : '#' ∈ U.text := by
            simp [HttpUrl.text, HttpUrl.tail, hfrag, withDelimiter]
          rw [← htext] at hmem
          exact absurd hmem (forwarded_noHash S U)
      refine ⟨hown, hf, fun h => absurd h hc.2, fun _ => ?_⟩
      rw [HttpUrl.text, HttpUrl.tail, hown, hf] at htext
      simpa [withDelimiter] using htext
    · intro h
      rw [HttpUrl.text, HttpUrl.tail, h.slashes hc.2, h.noFragment, h.origin]
      simp [withDelimiter]
  · rw [if_neg hc]
    constructor
    · intro htext
      have ho : extractOrigin U.text = S.origin := by
        rw [← htext]
        exact S.extractOrigin_text
      have hp : U.path = [] := by
        by_contra hp
        exact hc ⟨ho, hp⟩
      rcases U.origin_of_extractOrigin ho with ⟨hown, htail⟩
      have hS : S.path = [] := by
        rw [SourceUrl.text, HttpUrl.text, hown, htail hp] at htext
        simpa using htext
      rcases U.tail_eq_nil_iff.1 (htail hp) with ⟨-, hq, hf⟩
      exact ⟨hown, hf, fun _ => ⟨hS, hq⟩, fun h => absurd hp h⟩
    · intro h
      have hp : U.path = [] := by
        by_contra hp
        exact hc ⟨(U.extractOrigin_of_path hp).trans h.origin, hp⟩
      rcases h.bare hp with ⟨hS, hq⟩
      have htail : U.tail = [] := U.tail_eq_nil_iff.2 ⟨hp, hq, h.noFragment⟩
      rw [SourceUrl.text, HttpUrl.text, htail, hS, h.origin]

end Encode

/-! ## Pages a user opens -/

/-- The opened URLs that come back as they were: the root page, or a URL without
a query that ends in exactly the slashes its path consists of. -/
def ResolveExact (U : HttpUrl) : Prop :=
  U.pathname = ['/'] ∨ (U.search = [] ∧ U.text = trimEndMatches '/' U.text ++ U.pathname)

/-- A part as the URL interface shows it: nothing for an empty part. -/
def shown (part : Option Str) : Option Str :=
  match part with
  | some [] => none
  | part => part

theorem HttpUrl.search_eq (U : HttpUrl) : U.search = withDelimiter '?' (shown U.query) := by
  unfold HttpUrl.search
  rcases U.query with _ | _ | _ <;> rfl

theorem HttpUrl.hash_eq (U : HttpUrl) : U.hash = withDelimiter '#' (shown U.fragment) := by
  unfold HttpUrl.hash
  rcases U.fragment with _ | _ | _ <;> rfl

/-- Where an opened URL is forwarded to. -/
theorem upstream_resolveProxyUrl (C : UrlCodec) (sha256 : Bytes → Bytes) (km : KeyMap)
    (port : Str) (U : HttpUrl) :
    ∃ t, requestTarget (proxyOrigin port) (resolveProxyUrl sha256 km port U).2 = some t ∧
      upstream C (resolveProxyUrl sha256 km port U).1 t =
        some (if U.pathname = ['/'] then U.text
          else trimEndMatches '/' U.text ++ U.pathname ++ U.search) := by
  have hkey := proxyKey_plain sha256 U.text
  have hsource : (resolveProxyUrl sha256 km port U).1.get (proxyKey sha256 U.text) =
      some U.text := Map.get_insert_self _ _ _
  have hquery : ∀ q ∈ shown U.query, '#' ∉ q := by
    intro q hq
    refine U.query_plain q ?_
    unfold shown at hq
    split at hq
    · simp at hq
    · exact hq
  by_cases hroot : U.pathname = ['/']
  · rcases requestTarget_key (proxyOrigin port) hkey [] (shown U.query) (shown U.fragment)
      (by simp) hquery with ⟨t, ht, hpath, -⟩
    refine ⟨t, ?_, ?_⟩
    · simpa [resolveProxyUrl, registerProxyKey, hroot, U.search_eq, U.hash_eq] using ht
    · rw [upstream_key C hkey hsource t hpath (.inl rfl)]
      simp [hroot]
  · rcases requestTarget_key (proxyOrigin port) hkey U.pathname (shown U.query)
      (shown U.fragment) U.pathname_plain hquery with ⟨t, ht, hpath, ht'⟩
    have hne : U.pathname ≠ [] := by
      intro h
      have := U.pathname_rooted
      simp [h] at this
    refine ⟨t, ?_, ?_⟩
    · simpa [resolveProxyUrl, registerProxyKey, hroot, U.search_eq, U.hash_eq] using ht
    · rw [upstream_key C hkey hsource t hpath (.inr U.pathname_rooted), ht', U.search_eq]
      simp [hroot, hne]

theorem resolved_eq_iff (U : HttpUrl) :
    (if U.pathname = ['/'] then U.text
      else trimEndMatches '/' U.text ++ U.pathname ++ U.search) = U.text ↔ ResolveExact U := by
  by_cases hroot : U.pathname = ['/']
  · simp [hroot, ResolveExact]
  · rw [if_neg hroot]
    constructor
    · intro htext
      have hs : U.search = [] := by
        rcases trimEndMatches_append '/' U.text with ⟨r, hr, htrim⟩
        -- path and query together are the trailing slashes of the URL
        have hslash : U.pathname ++ U.search = r := by
          have hboth : trimEndMatches '/' U.text ++ (U.pathname ++ U.search) =
              trimEndMatches '/' U.text ++ r := by
            rw [← List.append_assoc, htext, ← htrim]
          exact List.append_cancel_left hboth
        by_contra hne
        have hmark : '?' ∈ U.search := by
          rw [U.search_eq] at hne ⊢
          cases h : shown U.query with
          | none => simp [h, withDelimiter] at hne
          | some q => simp [withDelimiter]
        have := hr '?' (hslash ▸ List.mem_append_right _ hmark)
        simp at this
      refine .inr ⟨hs, ?_⟩
      simpa [hs] using htext.symm
    · rintro (h | ⟨hs, htext⟩)
      · exact absurd h hroot
      · rw [hs, List.append_nil]
        exact htext.symm

/-- The upstream URL of the request a browser makes for a proxy URL. -/
def forwardOf (C : UrlCodec) (km : KeyMap) (proxyPrefix url : Str) : Option Str :=
  (requestTarget proxyPrefix url).bind (upstream C km)

/-- `http://nas.local:8080` -/
def nas : SourceUrl where
  toOrigin := nasHost
  path := []
  path_rooted := .inl rfl
  path_plain := forall_mem_of_all (by decide)

/-- `http://nas.local:8080/films?page=2` -/
def nasFilms : HttpUrl where
  toOrigin := nasHost
  path := "/films".toList
  query := some "page=2".toList
  fragment := none
  http := nasHost_http
  path_rooted := by decide
  path_plain := forall_mem_of_all (by decide)
  query_plain := by
    rintro q hq
    obtain rfl : "page=2".toList = q := by simpa using hq
    decide

/-- `https://cdn.example/app.js` -/
def cdnScript : HttpUrl where
  scheme := "https".toList
  authority := "cdn.example".toList
  path := "/app.js".toList
  query := none
  fragment := none
  scheme_plain := forall_mem_of_all (by decide)
  authority_plain := forall_mem_of_all (by decide)
  authority_ne := by decide
  http := by decide
  path_rooted := by decide
  path_plain := forall_mem_of_all (by decide)
  query_plain := noQuery_plain

/-- The codec and the digest on the values that occur here. -/
def nasCodec : UrlCodec where
  urlencode := fun s =>
    if s = cdnScript.text then "https%3A%2F%2Fcdn.example%2Fapp.js".toList else s
  formParse := fun s =>
    if s = "url=https%3A%2F%2Fcdn.example%2Fapp.js".toList then
      [("url".toList, cdnScript.text)]
    else []

def nasDigest (x : Bytes) : Bytes :=
  if x = utf8 nas.text then
    [0x20, 0x97, 0xf4, 0xb8, 0x06, 0x08, 0x35, 0x92, 0x20, 0x4f, 0xf8,
     0xb0, 0x05, 0x52, 0x89, 0xea, 0xba, 0xd9, 0x68, 0x15, 0x43, 0xf2,
     0x8a, 0x5d, 0xf8, 0xf3, 0x5d, 0x37, 0x62, 0x23, 0x4d, 0x8e]
  else List.replicate 32 0

theorem nasDigest_length (x : Bytes) : (nasDigest x).length = 32 := by
  unfold nasDigest
  split <;> rfl

def nasKeys : KeyMap := (registerProxyKey nasDigest ∅ nas.text).1

def nasPrefix : Str := "http://127.0.0.1:7890".toList

theorem nasKeys_registered : nasKeys.get (proxyKey nasDigest nas.text) = some nas.text :=
  Map.get_insert_self _ _ _

/-- The start page of the application. -/
theorem nas_served : ServedUnder nasCodec nasKeys (proxyKey nasDigest nas.text) nas.text := by
  have hplain : '?' ∉ "/__proxy__".toList ++ proxyKey nasDigest nas.text ++ [] := by
    have hkey := proxyKey_plain nasDigest nas.text '?' (by simp)
    simpa using hkey
  refine ⟨⟨_, none, hplain⟩, [], rfl, .inl rfl, ?_⟩
  rw [upstream_key nasCodec (proxyKey_plain _ _) nasKeys_registered _ rfl (.inl rfl), if_pos rfl]

end HomeTier
