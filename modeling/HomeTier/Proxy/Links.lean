import HomeTier.Proxy.Location
import HomeTier.Proxy.Rewriter

/-! # Links keep their target

What the browser requests for a rewritten reference, compared with the reference
resolved against the URL of the document. `resolveUrl` is right for absolute
references, and for others as far as the origin and the directory it cuts out of
the document's URL are; it takes `data:` and the like, and fragments, for paths.
The URL it makes is then encoded: another origin goes into a parameter that the
decoder does not see, a path of the same origin is appended to the source URL.
-/

namespace HomeTier.Rewriter

open Lib Redirect

variable {C : UrlCodec} {urldecode : Str → Option Str} {km : KeyMap} {around : Surroundings}
  {page : Page} {base : Reference} {B S : HttpUrl} {p key ref : Str}

/-! ## What a link should do -/

/-- References that are not fetched: of another scheme, or into the page. -/
def NotFetched (ref : Str) : Prop :=
  match (parseReference ref).scheme with
  | some scheme => scheme ≠ "http".toList ∧ scheme ≠ "https".toList
  | none => ref.head? = some '#'

instance (ref : Str) : Decidable (NotFetched ref) := by
  unfold NotFetched
  split
  · infer_instance
  · infer_instance

/-- What the proxy is made to request. -/
def asked : Followed → Option Target
  | .proxied url => some (parseReference url).target
  | .outside _ => none
  | .refused => none

/-- `link` is a reference in a document of `page` and what stands for it in the
rewritten one; `base` is what the browser resolves the references of that against. -/
def LinkFaithful (C : UrlCodec) (urldecode : Str → Option Str) (km : KeyMap)
    (around : Surroundings) (page : Page) (base : Reference) (baseUrl : Str) (link : Link) : Prop :=
  if NotFetched link.1 then link.2 = link.1
  else asked (fetch C urldecode km around page.host base link.2) =
    some ((parseReference baseUrl).resolve (parseReference link.1)).target

/-! ## When it does -/

/-- `base_origin` finds the origin of the document. -/
def OriginOk (B : HttpUrl) : Prop := B.path ≠ [] ∨ (B.query = none ∧ B.fragment = none)

/-- `base_dir` finds the directory of the document. -/
def DirOk (B : HttpUrl) : Prop :=
  (B.path = [] → B.query = none ∧ B.fragment = none) ∧ (∀ q ∈ B.query, '/' ∉ q) ∧
    ∀ f ∈ B.fragment, '/' ∉ f

/-- A relative reference that the directory is enough for. -/
structure RelOk (B : HttpUrl) (ref : Str) : Prop where
  scheme : (parseReference ref).scheme = none
  head : ref.head? ≠ some '/'
  noAuthority : containsText ref "://".toList = false
  dir : DirOk B
  path : (parseTail ref).path = [] →
    B.pathname.getLast? = some '/' ∧ ((parseTail ref).query = none → B.query = none)

/-- A reference under a key. -/
def KeyedOk (S B : HttpUrl) (ref : Str) : Prop :=
  S.query = none ∧ S.fragment = none ∧
    ((isHttp ref ∧ OnSource S ref) ∨
      ("//".toList <+: ref ∧ OnSource S (B.scheme ++ ':' :: ref)) ∨
      RootPath S ref ∨
      (RelOk B ref ∧ AtRoot S ∧ Stays 0 (segments (mergePath B.pathname (parseTail ref).path))))

/-- The references that are requested as they are meant. -/
def LinkKept (source : Option HttpUrl) (B : HttpUrl) (proxyPrefix key ref : Str) : Prop :=
  if NotFetched ref then skipProxied proxyPrefix ref ∨ isRewritable ref = false
  else skipProxied proxyPrefix ref = false ∧
    ((key = [] ∧ (isAbsolute ref ∨ (ref.head? = some '/' ∧ OriginOk B) ∨ RelOk B ref)) ∨
      ∃ S ∈ source, KeyedOk S B ref)

/-- Nothing that a later pass looks for begins in the reference, or in what it is made. -/
def Undisturbed (ctx : Context) (ref : Str) : Prop :=
  Quiet ref ∧ (skipProxied ctx.proxyPrefix ref = false → isRewritable ref = true →
    Quiet ctx.proxyPrefix ∧ Quiet (resolveUrl ctx.baseUrl ref))

/-! ## The absolute URL -/

/-- An authority behind a scheme is read as one without. -/
theorem parseReference_scheme {scheme : Str} (h : scheme = "http".toList ∨ scheme = "https".toList)
    (r : Str) : parseReference (scheme ++ ':' :: ("//".toList ++ r)) =
      { parseReference ("//".toList ++ r) with scheme := some scheme } := by
  have hplain : ∀ c ∈ ['?', '#'], c ∉ scheme ++ [':'] := by
    rcases h with rfl | rfl
    · exact forall_mem_of_all (by decide)
    · exact forall_mem_of_all (by decide)
  have hform : scheme ++ ':' :: ("//".toList ++ r) = (scheme ++ [':']) ++ ("//".toList ++ r) := by
    simp
  have hslash : (parseTail ("//".toList ++ r)).path = "//".toList ++ (parseTail r).path := by
    rw [parseTail_append (forall_mem_of_all (by decide))]
  have htail := parseTail_append hplain ("//".toList ++ r)
  have hpath : (scheme ++ [':']) ++ (parseTail ("//".toList ++ r)).path =
      scheme ++ ':' :: ("//".toList ++ (parseTail r).path) := by
    rw [hslash]
    simp
  have hnone : splitScheme ("//".toList ++ (parseTail r).path) =
      (none, "//".toList ++ (parseTail r).path) := splitScheme_of_head (c := '/') (by decide) _
  rw [hform]
  unfold parseReference
  simp only [htail, hpath, splitScheme_http h]
  simp only [hslash, hnone]

theorem isHttp_iff {ref : Str} : isHttp ref = true ↔
    ∃ scheme r, (scheme = "http".toList ∨ scheme = "https".toList) ∧
      ref = scheme ++ ':' :: ("//".toList ++ r) := by
  have hs : "http://".toList = "http".toList ++ ':' :: "//".toList := by decide
  have hs' : "https://".toList = "https".toList ++ ':' :: "//".toList := by decide
  unfold isHttp
  rw [Bool.or_eq_true, List.isPrefixOf_iff_prefix, List.isPrefixOf_iff_prefix]
  constructor
  · rintro (⟨r, rfl⟩ | ⟨r, rfl⟩)
    · exact ⟨_, r, .inl rfl, by rw [hs]; simp only [List.append_assoc, List.cons_append]⟩
    · exact ⟨_, r, .inr rfl, by rw [hs']; simp only [List.append_assoc, List.cons_append]⟩
  · rintro ⟨scheme, r, rfl | rfl, rfl⟩
    · exact .inl ⟨r, by rw [hs]; simp only [List.append_assoc, List.cons_append]⟩
    · exact .inr ⟨r, by rw [hs']; simp only [List.append_assoc, List.cons_append]⟩

theorem cleanPath_target {r : Reference} (h : r.path = [] ∨ r.path.head? = some '/') :
    Reference.target { r with path := cleanPath r.path } = r.target := by
  simp only [Reference.target, cleanPath_eq_nil h, cleanPath_cleanPath]

theorem network_rooted (s : Str) : withDelimiter '/' (cutAt '/' s).2 = [] ∨
    (withDelimiter '/' (cutAt '/' s).2).head? = some '/' := by
  cases (cutAt '/' s).2 with
  | none => exact .inl rfl
  | some q => exact .inr rfl

/-- An absolute reference means itself. -/
theorem target_http (h : isHttp ref = true) :
    (parseReference ref).target =
      ((parseReference B.text).resolve (parseReference ref)).target := by
  rcases isHttp_iff.1 h with ⟨scheme, r, hscheme, rfl⟩
  rw [parseReference_scheme hscheme, parseReference_network, resolve_of_scheme _ rfl]
  exact (cleanPath_target (network_rooted _)).symm

/-- With the scheme of the document in front, so does one with an authority. -/
theorem target_network (h : "//".toList <+: ref) :
    (parseReference (B.scheme ++ ':' :: ref)).target =
      ((parseReference B.text).resolve (parseReference ref)).target := by
  rcases h with ⟨r, rfl⟩
  rw [parseReference_scheme B.http, parseReference_network, parse_text]
  simp only [Reference.resolve, Option.isSome_none, Option.isSome_some, Bool.false_eq_true,
    if_false, if_true]
  exact (cleanPath_target (network_rooted _)).symm

/-- A path behind the origin of the document. -/
theorem target_root (hhead : ref.head? = some '/') (hslash : ¬ "//".toList <+: ref) :
    (parseReference (B.origin ++ ref)).target =
      ((parseReference B.text).resolve (parseReference ref)).target := by
  have hends : EndsAuthority ref := by
    intro c hc
    rw [hhead, Option.mem_some_iff] at hc
    rw [← hc]
    simp
  have hp := parseTail_head.2 hhead
  have hne : (parseTail ref).path ≠ [] := by
    intro hnil
    simp [hnil] at hp
  rw [parse_sameSite B hends, parseReference_rooted hhead hslash, parse_text]
  simp only [Reference.resolve, Option.isSome_none, Bool.false_eq_true, if_false, hne, hp, if_true]
  exact (cleanPath_target (.inr hp)).symm

/-! ### What `resolve_url` makes of it -/

theorem resolveUrl_network (h : "//".toList <+: ref) :
    resolveUrl B.text ref = B.scheme ++ ':' :: ref := by
  rcases h with ⟨r, rfl⟩
  have hnot : isHttp ("//".toList ++ r) = false := rfl
  have hslash : "//".toList.isPrefixOf ("//".toList ++ r) = true := rfl
  rw [resolveUrl, hnot, if_neg (by simp), if_pos hslash]
  rcases B.http with hs | hs
  · have hno : "https".toList.isPrefixOf B.text = false := by
      rw [HttpUrl.text, Origin.origin, hs]
      rfl
    rw [hno, hs]
    rfl
  · have hyes : "https".toList.isPrefixOf B.text = true := by
      rw [HttpUrl.text, Origin.origin, hs]
      rfl
    rw [hyes, hs]
    rfl

theorem isHttp_head (h : isHttp ref = true) : ref.head? ≠ some '/' := by
  rcases isHttp_iff.1 h with ⟨scheme, r, rfl | rfl, rfl⟩
  · simp
  · simp

theorem isHttp_false_of_slash (h : ref.head? = some '/') : isHttp ref = false := by
  rw [← Bool.not_eq_true]
  exact fun hhttp => isHttp_head hhttp h

theorem baseOrigin_text (h : OriginOk B) : baseOrigin B.text = B.origin := by
  refine baseOrigin_rooted _ ?_
  rcases B.path_rooted with hp | hp
  · rcases h with h | ⟨hq, hf⟩
    · exact absurd hp h
    · left
      simp [HttpUrl.tail, hp, hq, hf, withDelimiter]
  · right
    rw [HttpUrl.tail, List.append_assoc, List.head?_append, hp, Option.some_or]

theorem resolveUrl_root (horigin : OriginOk B) (hhead : ref.head? = some '/')
    (hslash : ¬ "//".toList <+: ref) : resolveUrl B.text ref = B.origin ++ ref := by
  have hno : "//".toList.isPrefixOf ref = false := by
    rw [← Bool.not_eq_true, List.isPrefixOf_iff_prefix]
    exact hslash
  rw [resolveUrl, isHttp_false_of_slash hhead, hno, if_neg (by simp), if_neg (by simp),
    if_pos hhead, baseOrigin_text horigin]

/-- The directory of the document and what stands behind it. -/
theorem baseDir_text (h : DirOk B) : ∃ dir last, B.pathname = dir ++ '/' :: last ∧ '/' ∉ last ∧
    (∀ path, mergePath B.pathname path = dir ++ '/' :: path) ∧
    baseDir B.text = B.origin ++ (dir ++ ['/']) := by
  rcases h with ⟨hnone, hquery, hfragment⟩
  rcases mergePath_cases (List.mem_of_mem_head? B.pathname_rooted) with
    ⟨dir, last, hform, hlast, hmerge⟩
  refine ⟨dir, last, hform, hlast, fun path => by simpa using hmerge [] path, ?_⟩
  have hafter : ∀ t : Str, splitOnce "://".toList (B.origin ++ t) =
      some (B.scheme, B.authority ++ t) := by
    intro t
    rw [Origin.origin, List.append_assoc _ B.authority t]
    exact splitOnce_append B.scheme_noColon _
  by_cases hp : B.path = []
  · rcases hnone hp with ⟨hq, hf⟩
    have htext : B.text = B.origin ++ [] := by
      simp [HttpUrl.text, HttpUrl.tail, hp, hq, hf, withDelimiter]
    have hdir : dir = [] := by
      rw [HttpUrl.pathname, if_pos hp] at hform
      cases dir with
      | nil => rfl
      | cons d dir => simp at hform
    have hend : B.text.getLast? ≠ some '/' := by
      rw [htext, List.append_nil, Origin.origin,
        List.getLast?_append_of_ne_nil _ B.authority_ne]
      exact fun h => B.authority_noSlash (List.mem_of_getLast? h)
    have hcut : cutAtLast '/' B.authority = none := by
      have hrev : '/' ∉ B.authority.reverse := by simpa using B.authority_noSlash
      rw [cutAtLast, cutAt_of_notMem hrev]
    rw [baseDir, if_neg hend, htext, hafter]
    simp [hcut, hdir]
  · -- behind the last slash of the path no other one comes
    have hpath : B.path = dir ++ '/' :: last := by
      rw [← hform, HttpUrl.pathname, if_neg hp]
    let t := last ++ withDelimiter '?' B.query ++ withDelimiter '#' B.fragment
    have ht : '/' ∉ t := by
      have hq : '/' ∉ withDelimiter '?' B.query := by
        cases hq : B.query with
        | none => simp [withDelimiter]
        | some q => simpa [withDelimiter] using hquery q hq
      have hf : '/' ∉ withDelimiter '#' B.fragment := by
        cases hf : B.fragment with
        | none => simp [withDelimiter]
        | some f => simpa [withDelimiter] using hfragment f hf
      simp only [t, List.mem_append, not_or]
      exact ⟨⟨hlast, hq⟩, hf⟩
    have htext : B.text = B.origin ++ (dir ++ '/' :: t) := by
      simp only [HttpUrl.text, HttpUrl.tail, hpath, t, List.append_assoc, List.cons_append]
    rw [baseDir]
    by_cases hnil : t = []
    · rw [hnil] at htext
      rw [if_pos (by rw [htext]; simp), htext]
    · have hend : B.text.getLast? ≠ some '/' := by
        have hcons : B.text = (B.origin ++ (dir ++ ['/'])) ++ t := by
          rw [htext]
          simp
        rw [hcons, List.getLast?_append_of_ne_nil _ hnil]
        exact fun h => ht (List.mem_of_getLast? h)
      have hcut : cutAtLast '/' (B.authority ++ (dir ++ '/' :: t)) = some (B.authority ++ dir, t) := by
        rw [← List.append_assoc]
        exact cutAtLast_append ht _
      rw [if_neg hend, htext, hafter]
      simp only [hcut, Origin.origin, List.append_assoc]

theorem resolveUrl_relative (hhttp : isHttp ref = false) (hhead : ref.head? ≠ some '/') :
    resolveUrl B.text ref = baseDir B.text ++ ref := by
  have hslash : "//".toList.isPrefixOf ref = false := by
    rw [← Bool.not_eq_true, List.isPrefixOf_iff_prefix]
    rintro ⟨r, rfl⟩
    simp at hhead
  rw [resolveUrl, hhttp, hslash, if_neg (by simp), if_neg (by simp), if_neg hhead]

theorem isHttp_scheme (h : isHttp ref = true) : (parseReference ref).scheme ≠ none := by
  rcases isHttp_iff.1 h with ⟨scheme, r, hscheme, rfl⟩
  rw [parseReference_scheme hscheme]
  simp

theorem RelOk.notHttp (h : RelOk B ref) : isHttp ref = false := by
  rw [← Bool.not_eq_true]
  exact fun hhttp => isHttp_scheme hhttp h.scheme

/-- An empty path stands for the root of the host. -/
theorem merge_text (B : HttpUrl) (path : Str) :
    (parseReference B.text).merge path = mergePath B.pathname path := by
  rw [parse_text, Reference.merge, HttpUrl.pathname]
  by_cases hp : B.path = []
  · simp [hp, mergePath, cutAtLast, cutAt]
  · simp [hp]

/-- A relative reference in the directory of the document. -/
theorem RelOk.resolve (h : RelOk B ref) : ∃ dir, resolveUrl B.text ref = B.origin ++ (dir ++ '/' :: ref) ∧
    (dir ++ '/' :: ref).head? = some '/' ∧
    (parseTail (dir ++ '/' :: ref)).path = mergePath B.pathname (parseTail ref).path ∧
    (parseReference (B.origin ++ (dir ++ '/' :: ref))).target =
      ((parseReference B.text).resolve (parseReference ref)).target := by
  rcases baseDir_text h.dir with ⟨dir, last, hpath, hlast, hmerge, hdir⟩
  have hroot : ∀ t : Str, (dir ++ '/' :: t).head? = some '/' := by
    intro t
    have hrooted := B.pathname_rooted
    rw [hpath] at hrooted
    cases dir with
    | nil => rfl
    | cons d dir => simpa using hrooted
  have hplain : ∀ c ∈ ['?', '#'], c ∉ dir ++ ['/'] := by
    intro c hc hmem
    refine B.pathname_plain c hc ?_
    rw [hpath, List.append_cons]
    exact List.mem_append_left _ hmem
  have htail := parseTail_append hplain ref
  rw [List.append_assoc] at htail
  have hends : EndsAuthority (dir ++ '/' :: ref) := by
    intro c hc
    rw [hroot, Option.mem_some_iff] at hc
    rw [← hc]
    simp
  have hform : (parseTail (dir ++ '/' :: ref)).path = dir ++ '/' :: (parseTail ref).path := by
    have hpaths := congrArg LocalPart.path htail
    simpa using hpaths
  have hquery : (parseTail (dir ++ '/' :: ref)).query = (parseTail ref).query := by
    have hqueries := congrArg LocalPart.query htail
    simpa using hqueries
  refine ⟨dir, ?_, hroot ref, by rw [hform, hmerge], ?_⟩
  · rw [resolveUrl_relative h.notHttp h.head, hdir]
    simp
  · have hrel : (parseTail ref).path.head? ≠ some '/' := fun hr => h.head (parseTail_head.1 hr)
    rw [parse_sameSite B hends, parseReference_relative h.scheme h.head, parse_text]
    by_cases hnil : (parseTail ref).path = []
    · -- the document is a directory
      rcases h.path hnil with ⟨hend, hq⟩
      have hlastNil : last = [] := by
        rw [hpath] at hend
        cases last with
        | nil => rfl
        | cons c l =>
          rw [List.append_cons, List.getLast?_append_of_ne_nil _ (List.cons_ne_nil c l)] at hend
          exact absurd (List.mem_of_getLast? hend) hlast
      have hdocument : dir ++ ['/'] = B.pathname := by rw [hpath, hlastNil]
      have hq' : (if (parseTail ref).query.isSome then (parseTail ref).query else B.query) =
          (parseTail ref).query := by
        cases hcase : (parseTail ref).query with
        | none => exact hq hcase
        | some q => rfl
      simp only [Reference.resolve, Reference.target, hform, hquery, hnil, Option.isSome_none,
        Bool.false_eq_true, if_false, if_true, hdocument, hq', HttpUrl.pathname]
      by_cases hp : B.path = []
      · simp [hp, @cleanPath_of_dotFree ['/'] (by decide)]
      · simp [hp]
    · have hmerged := merge_text B (parseTail ref).path
      rw [parse_text, hmerge] at hmerged
      simp only [Reference.resolve, hnil, hrel, Option.isSome_none, Bool.false_eq_true, if_false,
        hmerged, hform, hquery]
      exact (cleanPath_target (.inr (hroot _))).symm

/-! ## What the browser requests -/

/-- A reference with a scheme means the same in every document. -/
theorem fetch_of_scheme (h : (parseReference ref).scheme.isSome) :
    fetch C urldecode km around page.host base ref =
      follow C urldecode km around page ref := by
  unfold follow fetch
  rw [resolve_of_scheme _ h, resolve_of_scheme _ h]

theorem proxied_scheme (host rest : Str) :
    (parseReference (buildProxyPrefix host ++ rest)).scheme.isSome := by
  rw [Option.isSome_iff_ne_none]
  apply isHttp_scheme
  unfold isHttp buildProxyPrefix
  rw [Bool.or_eq_true, List.isPrefixOf_iff_prefix]
  exact .inl ⟨host ++ rest, (List.append_assoc _ _ _).symm⟩

/-- What follows an extracted origin. -/
theorem extractOrigin_cases (url : Str) :
    ∃ t, url = extractOrigin url ++ t ∧ (t = [] ∨ t.head? = some '/') := by
  unfold extractOrigin
  cases hsplit : splitOnce "://".toList url with
  | none => exact ⟨[], by simp, .inl rfl⟩
  | some r =>
    rcases r with ⟨scheme, after⟩
    have hurl := splitOnce_eq_some hsplit
    have hjoin := cutAt_join '/' after
    rcases hcut : cutAt '/' after with ⟨host, - | path⟩
    · exact ⟨[], by simp only [hcut, List.append_nil], .inl rfl⟩
    · rw [hcut] at hjoin
      refine ⟨'/' :: path, ?_, .inr rfl⟩
      simp only [hcut]
      rw [hurl, ← hjoin]
      simp only [withDelimiter, List.append_assoc]

/-- `encode_proxy` puts a path of the origin behind the key, and of other URLs
nothing that the decoder reads. -/
theorem encodeProxy_keyed (hkey : key ≠ []) {baseUrl : Str} (hbase : baseOrigin baseUrl = S.origin)
    (proxyPrefix url : Str) :
    (∃ rest, rest.head? = some '/' ∧ url = S.origin ++ rest ∧
      encodeProxy C baseUrl proxyPrefix key url =
        proxyPrefix ++ "/__proxy__".toList ++ key ++ rest) ∨
    ((∀ rest, rest.head? = some '/' → url ≠ S.origin ++ rest) ∧
      ∃ rest, (parseTail rest).path = [] ∧ encodeProxy C baseUrl proxyPrefix key url =
        proxyPrefix ++ "/__proxy__".toList ++ key ++ rest) := by
  rw [encodeProxy, if_neg hkey, hbase]
  by_cases horigin : extractOrigin url = S.origin
  · rcases extractOrigin_cases url with ⟨t, hurl, ht⟩
    rw [horigin] at hurl
    have hdrop : url.drop S.origin.length = t := by
      rw [hurl]
      exact List.drop_left
    rw [if_pos horigin, hdrop]
    rcases ht with rfl | ht
    · right
      refine ⟨?_, [], rfl, rfl⟩
      intro rest hrest heq
      have hnil : rest = [] := (List.append_cancel_left (hurl.symm.trans heq)).symm
      simp [hnil] at hrest
    · exact .inl ⟨t, ht, hurl, rfl⟩
  · right
    rw [if_neg horigin]
    refine ⟨?_, "?url=".toList ++ C.urlencode url, ?_, by simp only [List.append_assoc]⟩
    · intro rest hrest heq
      exact horigin (heq ▸ S.extractOrigin_rooted (.inr hrest))
    · have happ : "?url=".toList ++ C.urlencode url = '?' :: ("url=".toList ++ C.urlencode url) := rfl
      rw [happ]
      simp [parseTail, cutAt]

section Keyed

variable {forwardUrl : Str}

/-- The encoded path of a source that is all of its host. -/
theorem asked_rooted (h : LoadedFrom km page forwardUrl key S p) (hroot : AtRoot S) {rest : Str}
    (hrest : rest.head? = some '/') (hstays : Stays 0 (segments (parseTail rest).path)) :
    asked (fetch C urldecode km around page.host base
        (buildProxyPrefix page.host ++ "/__proxy__".toList ++ key ++ rest)) =
      some (parseReference (S.origin ++ rest)).target := by
  have hp := parseTail_head.2 hrest
  have htarget := @target_rewritten C urldecode _ around _ _ _ _ _ h hroot _ hrest hstays
  have hends : EndsAuthority rest := by
    intro c hc
    rw [hrest, Option.mem_some_iff] at hc
    rw [← hc]
    simp
  have hne : (parseTail rest).path ≠ [] := by
    intro hnil
    simp [hnil] at hp
  have hform : (parseReference (S.origin ++ rest)).target = rootTarget S (parseTail rest) := by
    rw [parse_sameSite S hends]
    simp [Reference.target, rootTarget, hne]
  have hscheme : (parseReference
      (buildProxyPrefix page.host ++ "/__proxy__".toList ++ key ++ rest)).scheme.isSome := by
    rw [List.append_assoc, List.append_assoc]
    exact proxied_scheme _ _
  rw [fetch_of_scheme hscheme, hform, ← htarget,
    follow_rewritten h.plain h.source (.inr hp) hstays]
  rfl

/-- What is encoded as another origin goes to the source URL. -/
theorem asked_bare (h : LoadedFrom km page forwardUrl key S p) {rest : Str}
    (hrest : (parseTail rest).path = []) :
    asked (fetch C urldecode km around page.host base
        (buildProxyPrefix page.host ++ "/__proxy__".toList ++ key ++ rest)) =
      some (parseReference S.text).target := by
  have hstays : Stays 0 (segments (parseTail rest).path) := by
    rw [hrest]
    decide
  have hscheme : (parseReference
      (buildProxyPrefix page.host ++ "/__proxy__".toList ++ key ++ rest)).scheme.isSome := by
    rw [List.append_assoc, List.append_assoc]
    exact proxied_scheme _ _
  rw [fetch_of_scheme hscheme, follow_rewritten h.plain h.source (.inl hrest) hstays, if_pos hrest]
  rfl

/-- The document of a plain source. -/
theorem document_of_loaded (hquery : S.query = none) (hfragment : S.fragment = none)
    (h : LoadedFrom km page B.text key S p) : B.origin = S.origin ∧ B.scheme = S.scheme ∧
      (B.path = if p = [] then S.path else trimEndMatches '/' S.path ++ p) ∧
      (B.query = if p = [] then none else page.line.query) ∧ B.fragment = none := by
  have hparse := parse_loaded hquery hfragment h.path h.rooted h.url
  rw [parse_text] at hparse
  simp only [Reference.mk.injEq, Option.some.injEq] at hparse
  rcases hparse with ⟨hscheme, hauthority, hpath, hq, hf⟩
  exact ⟨by rw [Origin.origin, Origin.origin, hscheme, hauthority], hscheme, hpath, hq, hf⟩

theorem originOk_of_loaded (hquery : S.query = none) (hfragment : S.fragment = none)
    (h : LoadedFrom km page B.text key S p) : OriginOk B := by
  rcases document_of_loaded hquery hfragment h with ⟨-, -, hpath, hq, hf⟩
  by_cases hp : p = []
  · right
    rw [hq, if_pos hp]
    exact ⟨rfl, hf⟩
  · left
    rw [hpath, if_neg hp]
    simp [hp]

/-- A URL of the source's host is requested as it is. -/
theorem asked_onSource (hquery : S.query = none) (hfragment : S.fragment = none)
    (h : LoadedFrom km page B.text key S p) {url : Str} (hurl : OnSource S url) :
    asked (fetch C urldecode km around page.host base
        (encodeProxy C B.text (buildProxyPrefix page.host) key url)) =
      some (parseReference url).target := by
  rcases hurl with ⟨rest, hdrop, hends, hcase⟩
  have hform : url = S.origin ++ rest := by
    rw [Option.mem_def, List.dropPrefix?_eq_some_iff] at hdrop
    rcases hdrop with ⟨pre, hloc, hpre⟩
    obtain rfl : pre = S.origin := by simpa using hpre
    exact hloc
  have hbase : baseOrigin B.text = S.origin := by
    rw [baseOrigin_text (originOk_of_loaded hquery hfragment h),
      (document_of_loaded hquery hfragment h).1]
  rcases encodeProxy_keyed (C := C) h.ne hbase (buildProxyPrefix page.host) url with
    ⟨rest', hrooted, heq, henc⟩ | ⟨hno, rest', hnil, henc⟩
  · obtain rfl : rest' = rest := List.append_cancel_left (heq.symm.trans hform)
    rw [if_pos hrooted] at hcase
    rw [henc, asked_rooted h hcase.1 hrooted hcase.2, hform]
  · have hnot : rest.head? ≠ some '/' := fun hrooted => hno rest hrooted hform
    rw [if_neg hnot] at hcase
    have hpath : (parseTail rest).path = [] :=
      (parseTail_rooted hends).resolve_right fun hp => hnot (parseTail_head.1 hp)
    rw [henc, asked_bare h hnil, target_text, hform, parse_sameSite S hends, hcase.1, hcase.2]
    simp [Reference.target, hpath]

end Keyed

/-- Without a key, any URL comes back as it is. -/
theorem asked_legacy (hplain : ∀ u, '#' ∉ C.urlencode u)
    (hparse : ∀ u, C.formParse ("url=".toList ++ C.urlencode u) = [("url".toList, u)])
    (baseUrl url : Str) :
    asked (fetch C urldecode km around page.host base
        (encodeProxy C baseUrl (buildProxyPrefix page.host) [] url)) =
      some (parseReference url).target := by
  have henc : encodeProxy C baseUrl (buildProxyPrefix page.host) [] url =
      buildProxyPrefix page.host ++ ("/proxy".toList ++
        withDelimiter '?' (some ("url=".toList ++ C.urlencode url))) := by
    rw [encodeProxy, if_pos rfl, List.append_assoc]
    rfl
  have hq : ∀ q ∈ some ("url=".toList ++ C.urlencode url), '#' ∉ q := by
    intro q hq
    obtain rfl := Option.some.inj hq
    rw [List.mem_append, not_or]
    exact ⟨by decide, hplain url⟩
  let line : RequestLine := ⟨"/proxy".toList, some ("url=".toList ++ C.urlencode url), by decide⟩
  have htail := @parseTail_of_plain "/proxy".toList _ none (forall_mem_of_all (by decide)) hq
  rw [withDelimiter, List.append_nil] at htail
  have hread := parseReference_http (.inl rfl) page.host_plain
    (endsAuthority_of_rooted (p := "/proxy".toList) rfl
      (withDelimiter '?' (some ("url=".toList ++ C.urlencode url))))
  rw [htail] at hread
  -- the browser asks the proxy for /proxy, with the URL in the query
  have hurl : (parseReference page.url).resolve (parseReference (buildProxyPrefix page.host ++
      ("/proxy".toList ++ withDelimiter '?' (some ("url=".toList ++ C.urlencode url))))) =
      ofLine page line none := by
    have hclean : cleanPath "/proxy".toList = "/proxy".toList :=
      cleanPath_of_dotFree (by decide)
    have hform : buildProxyPrefix page.host ++ ("/proxy".toList ++
        withDelimiter '?' (some ("url=".toList ++ C.urlencode url))) =
        "http".toList ++ "://".toList ++ page.host ++ ("/proxy".toList ++
          withDelimiter '?' (some ("url=".toList ++ C.urlencode url))) := rfl
    rw [hform, hread, resolve_of_scheme _ rfl, hclean]
    rfl
  -- and the proxy reads it back
  have hserve : serve C urldecode km around line = some url := by
    have hdrop : line.path.dropPrefix? "/__proxy__".toList = none := by
      change "/proxy".toList.dropPrefix? "/__proxy__".toList = none
      decide
    have hget : paramGet (C.formParse (line.query.getD [])) "url".toList = some url := by
      change paramGet (C.formParse ("url=".toList ++ C.urlencode url)) _ = _
      rw [hparse]
      simp [paramGet]
    simp only [serve, handle, hdrop, hget]
  have hhash : '#' ∉ line.path := by
    change '#' ∉ "/proxy".toList
    decide
  rw [henc, fetch_of_scheme (proxied_scheme _ _), follow_proxied hhash hq hurl, hserve]
  rfl

/-! ## Undisturbed references -/

section Undisturbed

/-- None of these is in a key, or in what is percent-encoded. -/
def marks : List Char := ['=', '(', '>', '"', '\'']

theorem quiet_of_plain {s : Str} (h : ∀ m ∈ marks, m ∉ s) : Quiet s := by
  have hmarks : ∀ o ∈ openings, (o.marks.any fun m => decide (m ∈ marks)) = true := by decide
  refine quiet_of_marks fun o ho => ?_
  rcases List.any_eq_true.1 (hmarks o ho) with ⟨m, hm, hmark⟩
  exact ⟨m, hm, h m (of_decide_eq_true hmark)⟩

theorem barrier_slash : ∀ o ∈ openings, o.Barrier '/' := by
  have h : ∀ o ∈ openings, (o.name.all fun p => decide (isLetter p '/' = false)) = true ∧
      '/' ∉ o.marks := by decide
  exact fun o ho => ⟨forall_mem_of_all (h o ho).1, (h o ho).2, fun _ => by decide⟩

theorem barrier_question : ∀ o ∈ openings, o.Barrier '?' := by
  have h : ∀ o ∈ openings, (o.name.all fun p => decide (isLetter p '?' = false)) = true ∧
      '?' ∉ o.marks := by decide
  exact fun o ho => ⟨forall_mem_of_all (h o ho).1, (h o ho).2, fun _ => by decide⟩

/-- The parameter with an encoded URL: only `srcset` asks for nothing but an equals
sign, and the one here stands behind another name. -/
theorem quiet_parameter {enc : Str} (h : ∀ m ∈ marks, m ∉ enc) :
    Quiet ("?url=".toList ++ enc) := by
  intro o ho t ht
  rw [← Bool.not_eq_true]
  intro hbegins
  have hmarks : ∀ m ∈ o.marks, m ∈ t := fun m hm => beginsWith_mem hm hbegins
  rcases (List.mem_tails _ _).1 ht with ⟨a, ha⟩
  have hother : ∀ o ∈ openings, o = srcsetOpening ∨
      (o.marks.any fun m => decide (m ∈ marks ∧ m ∉ "?url=".toList)) = true := by decide
  rcases hother o ho with rfl | hany
  · rcases List.append_eq_append_iff.1 ha with ⟨x, hx, rfl⟩ | ⟨y, -, rfl⟩
    · cases x with
      | nil => exact h '=' (by decide) (hmarks '=' (by decide))
      | cons c x =>
        have hc : c ∈ "?url=".toList := by
          rw [hx]
          exact List.mem_append_right _ List.mem_cons_self
        have hletter : ∀ c ∈ "?url=".toList, isLetter 's' c = false :=
          forall_mem_of_all (by decide)
        have hfirst : (isLetter 's' c && _) = true := hbegins
        rw [hletter c hc, Bool.false_and] at hfirst
        exact Bool.false_ne_true hfirst
    · exact h '=' (by decide) (List.mem_append_right _ (hmarks '=' (by decide)))
  · rcases List.any_eq_true.1 hany with ⟨m, hm, hsign⟩
    obtain ⟨hmark, hno⟩ := of_decide_eq_true hsign
    have hmem : m ∈ "?url=".toList ++ enc := by
      rw [← ha]
      exact List.mem_append_right _ (hmarks m hm)
    exact (List.mem_append.1 hmem).elim hno (h m hmark)

/-- The proxy's URL for a quiet one is quiet. -/
theorem quiet_encodeProxy (henc : ∀ u, ∀ m ∈ marks, m ∉ C.urlencode u)
    (hkey : ∀ m ∈ marks, m ∉ key) {baseUrl proxyPrefix url : Str} (hpre : Quiet proxyPrefix)
    (hurl : Quiet url) : Quiet (encodeProxy C baseUrl proxyPrefix key url) := by
  unfold encodeProxy
  have hparameter : ∀ x : Str, Quiet x → Quiet (x ++ "?url=".toList ++ C.urlencode url) := by
    intro x hx
    rw [List.append_assoc]
    exact hx.append barrier_question (quiet_parameter (henc url))
  have hproxied : Quiet (proxyPrefix ++ "/__proxy__".toList ++ key) := by
    rw [List.append_assoc]
    refine hpre.append barrier_slash (quiet_of_plain fun m hm hmem => ?_)
    have hno : ∀ m ∈ marks, m ∉ "/__proxy__".toList := forall_mem_of_all (by decide)
    exact (List.mem_append.1 hmem).elim (hno m hm) (hkey m hm)
  split
  · have hform : proxyPrefix ++ "/proxy?url=".toList = proxyPrefix ++ "/proxy".toList ++
        "?url=".toList := by
      rw [List.append_assoc]
      rfl
    rw [hform]
    exact hparameter _ (hpre.append barrier_slash (by decide))
  · simp only
    split
    · next horigin =>
      rcases extractOrigin_cases url with ⟨path, hsplit, hpath⟩
      have hdrop : url.drop (baseOrigin baseUrl).length = path := by
        rw [← horigin]
        exact (congrArg (List.drop _) hsplit).trans List.drop_left
      rw [hdrop]
      have hquiet : Quiet path := hurl.suffix ⟨_, hsplit.symm⟩
      rcases hpath with rfl | hpath
      · rw [List.append_nil]
        exact hproxied
      · rcases List.head?_eq_some_iff.1 hpath with ⟨rest, rfl⟩
        exact hproxied.append barrier_slash hquiet
    · exact hparameter _ hproxied

theorem Undisturbed.quiet {ctx : Context} (henc : ∀ u, ∀ m ∈ marks, m ∉ C.urlencode u)
    (hkey : ∀ m ∈ marks, m ∉ ctx.proxyKey) (h : Undisturbed ctx ref) :
    Quiet (rewriteRef C ctx ref) := by
  unfold rewriteRef encoded
  split
  · exact h.1
  · next hskip =>
    split
    · next hrewritable =>
      rcases h.2 (Bool.eq_false_of_not_eq_true hskip) hrewritable.1 with ⟨hpre, hurl⟩
      exact quiet_encodeProxy henc hkey hpre hurl
    · exact h.1

end Undisturbed

/-! ## Kept links -/

theorem isHttp_append {scheme : Str} (h : scheme = "http".toList ∨ scheme = "https".toList)
    (r : Str) : isHttp (scheme ++ "://".toList ++ r) = true := by
  refine isHttp_iff.2 ⟨scheme, r, h, ?_⟩
  simp

/-- Under an HTTP document every reference becomes absolute. -/
theorem isAbsolute_resolveUrl (B : HttpUrl) (ref : Str) :
    isAbsolute (resolveUrl B.text ref) = true := by
  have hsplit : splitOnce "://".toList B.text = some (B.scheme, B.authority ++ B.tail) := by
    rw [HttpUrl.text, Origin.origin, List.append_assoc _ B.authority B.tail]
    exact splitOnce_append B.scheme_noColon _
  have htext : B.text = B.scheme ++ "://".toList ++ (B.authority ++ B.tail) :=
    splitOnce_eq_some hsplit
  -- whatever is put in front begins with the scheme of the document
  have hbase : ∃ t, baseOrigin B.text = B.scheme ++ "://".toList ++ t := by
    rw [baseOrigin, hsplit]
    simp only
    split
    · exact ⟨_, rfl⟩
    · exact ⟨_, htext⟩
  have hdir : ∃ t, baseDir B.text = B.scheme ++ "://".toList ++ t := by
    unfold baseDir
    split
    · exact ⟨_, htext⟩
    · rw [hsplit]
      simp only
      split
      · next dir last hcut => exact ⟨dir ++ ['/'], by simp only [List.append_assoc]⟩
      · refine ⟨B.authority ++ B.tail ++ ['/'], ?_⟩
        rw [htext]
        simp only [List.append_assoc]
  rw [isAbsolute, Bool.or_eq_true]
  by_cases hhttp : isHttp ref = true
  · left
    rw [resolveUrl, if_pos hhttp]
    exact hhttp
  · by_cases hslash : "//".toList <+: ref
    · left
      rcases hslash with ⟨r, rfl⟩
      rw [resolveUrl_network ⟨r, rfl⟩]
      exact isHttp_iff.2 ⟨B.scheme, r, B.http, rfl⟩
    · left
      have hno : "//".toList.isPrefixOf ref = false := by
        rw [← Bool.not_eq_true, List.isPrefixOf_iff_prefix]
        exact hslash
      rw [resolveUrl, if_neg hhttp, hno, if_neg (by simp)]
      split
      · rcases hbase with ⟨t, ht⟩
        rw [ht, List.append_assoc]
        exact isHttp_append B.http _
      · rcases hdir with ⟨t, ht⟩
        rw [ht, List.append_assoc]
        exact isHttp_append B.http _

/-- The context of the documents of a page. -/
def contextOf (page : Page) (baseUrl key : Str) : Context :=
  ⟨baseUrl, buildProxyPrefix page.host, key⟩

theorem rewriteRef_skipped (h : skipProxied (buildProxyPrefix page.host) ref ∨ isRewritable ref = false)
    (baseUrl : Str) : rewriteRef C (contextOf page baseUrl key) ref = ref := by
  unfold rewriteRef encoded contextOf
  simp only
  split
  · rfl
  · next hskip =>
    have hno : ¬ (isRewritable ref = true ∧ isAbsolute (resolveUrl baseUrl ref) = true) := by
      intro hyes
      rw [h.resolve_left hskip] at hyes
      simp at hyes
    rw [if_neg hno]
    rfl

theorem rewriteRef_encoded (hskip : skipProxied (buildProxyPrefix page.host) ref = false)
    (hrewritable : isRewritable ref = true) :
    rewriteRef C (contextOf page B.text key) ref =
      encodeProxy C B.text (buildProxyPrefix page.host) key (resolveUrl B.text ref) := by
  unfold rewriteRef encoded contextOf
  simp only [hskip]
  rw [if_neg (by simp), if_pos ⟨hrewritable, isAbsolute_resolveUrl B ref⟩]
  rfl

theorem isRewritable_of_head (h : ref.head? = some '/') : isRewritable ref = true := by
  simp [isRewritable, h]

theorem isRewritable_of_absolute (h : isAbsolute ref = true) : isRewritable ref = true := by
  simp [isRewritable, h]

theorem head_of_network (h : "//".toList <+: ref) : ref.head? = some '/' := by
  rcases h with ⟨r, rfl⟩
  rfl

theorem RelOk.rewritable (h : RelOk B ref) : isRewritable ref = true := by
  rw [isRewritable, h.noAuthority]
  simp

/-- A kept link without a key. -/
theorem faithful_legacy (hplain : ∀ u, '#' ∉ C.urlencode u)
    (hparse : ∀ u, C.formParse ("url=".toList ++ C.urlencode u) = [("url".toList, u)])
    (hskip : skipProxied (buildProxyPrefix page.host) ref = false)
    (h : isAbsolute ref ∨ (ref.head? = some '/' ∧ OriginOk B) ∨ RelOk B ref) :
    asked (fetch C urldecode km around page.host base
        (rewriteRef C (contextOf page B.text []) ref)) =
      some ((parseReference B.text).resolve (parseReference ref)).target := by
  -- the absolute URL is the one that is meant
  have hresolve : isRewritable ref = true ∧ (parseReference (resolveUrl B.text ref)).target =
      ((parseReference B.text).resolve (parseReference ref)).target := by
    have hnetwork : "//".toList <+: ref → (parseReference (resolveUrl B.text ref)).target =
        ((parseReference B.text).resolve (parseReference ref)).target := by
      intro hslash
      rw [resolveUrl_network hslash, target_network hslash]
    rcases h with h | ⟨hhead, horigin⟩ | h
    · refine ⟨isRewritable_of_absolute h, ?_⟩
      rw [isAbsolute, Bool.or_eq_true, List.isPrefixOf_iff_prefix] at h
      rcases h with hhttp | hslash
      · rw [resolveUrl, if_pos hhttp, target_http hhttp]
      · exact hnetwork hslash
    · refine ⟨isRewritable_of_head hhead, ?_⟩
      by_cases hslash : "//".toList <+: ref
      · exact hnetwork hslash
      · rw [resolveUrl_root horigin hhead hslash, target_root hhead hslash]
    · refine ⟨h.rewritable, ?_⟩
      rcases h.resolve with ⟨dir, hurl, -, -, htarget⟩
      rw [hurl, htarget]
  rw [rewriteRef_encoded hskip hresolve.1, asked_legacy hplain hparse, hresolve.2]

/-- A kept link under a key. -/
theorem faithful_keyed (h : LoadedFrom km page B.text key S p)
    (hskip : skipProxied (buildProxyPrefix page.host) ref = false) (hok : KeyedOk S B ref) :
    asked (fetch C urldecode km around page.host base
        (rewriteRef C (contextOf page B.text key) ref)) =
      some ((parseReference B.text).resolve (parseReference ref)).target := by
  rcases hok with ⟨hquery, hfragment, hcase⟩
  rcases document_of_loaded hquery hfragment h with ⟨horigin, -⟩
  have hbase : baseOrigin B.text = S.origin := by
    rw [baseOrigin_text (originOk_of_loaded hquery hfragment h), horigin]
  -- a path of a source that is all of its host
  have hrooted : ∀ rest : Str, rest.head? = some '/' → AtRoot S →
      Stays 0 (segments (parseTail rest).path) →
      asked (fetch C urldecode km around page.host base
        (encodeProxy C B.text (buildProxyPrefix page.host) key (S.origin ++ rest))) =
      some (parseReference (S.origin ++ rest)).target := by
    intro rest hrest hroot hstays
    rcases encodeProxy_keyed (C := C) h.ne hbase (buildProxyPrefix page.host) (S.origin ++ rest) with
      ⟨rest', -, heq, henc⟩ | ⟨hno, -⟩
    · obtain rfl : rest = rest' := List.append_cancel_left heq
      rw [henc, asked_rooted h hroot hrest hstays]
    · exact absurd rfl (hno rest hrest)
  rcases hcase with ⟨hhttp, hon⟩ | ⟨hslash, hon⟩ | ⟨hhead, hslash, hroot, hstays⟩ |
    ⟨hrel, hroot, hstays⟩
  · have habs : isAbsolute ref = true := by simp [isAbsolute, hhttp]
    rw [rewriteRef_encoded hskip (isRewritable_of_absolute habs), resolveUrl, if_pos hhttp,
      asked_onSource hquery hfragment h hon, target_http hhttp]
  · rw [rewriteRef_encoded hskip (isRewritable_of_head (head_of_network hslash)),
      resolveUrl_network hslash, asked_onSource hquery hfragment h hon, target_network hslash]
  · rw [rewriteRef_encoded hskip (isRewritable_of_head hhead),
      resolveUrl_root (originOk_of_loaded hquery hfragment h) hhead hslash, horigin,
      hrooted ref hhead hroot hstays, ← horigin, target_root hhead hslash]
  · rcases hrel.resolve with ⟨dir, hurl, hdir, hpath, htarget⟩
    rw [rewriteRef_encoded hskip hrel.rewritable, hurl, horigin,
      hrooted _ hdir hroot (hpath ▸ hstays), ← horigin, htarget]

end HomeTier.Rewriter
