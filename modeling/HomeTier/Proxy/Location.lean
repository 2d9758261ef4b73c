import HomeTier.Proxy.Followed

/-! # Redirects keep their target

`rewriteLocation` compares texts: what starts with a slash is taken for a path of
the upstream, and what starts with the upstream's scheme and authority for a URL
of it. So a `Location` that names another authority behind two slashes, or one
that continues the upstream's, is asked of the upstream or of a key that does not
exist; and the decoder appends every path to the whole source URL.
`Kept` collects the redirects that survive this.
-/

namespace HomeTier.Redirect

open Lib HttpForward

variable {C : UrlCodec} {urldecode : Str → Option Str} {km : KeyMap} {around : Surroundings}
  {page : Page} {forwardUrl key loc : Str}

/-! ## The header the browser gets -/

/-- The text `rewrite_location` looks for in front of a `Location`. -/
def upstreamBase (forwardUrl : Str) : Str :=
  (if "https://".toList.isPrefixOf forwardUrl then "https".toList else "http".toList) ++
    "://".toList ++ (splitUpstream forwardUrl).1

theorem location_noKey : location page forwardUrl [] loc = loc := by
  rw [location, rewriteLocation, if_pos (.inl rfl), Option.getD_none]

/-- What starts with a slash goes behind the key. -/
theorem location_slash (hkey : key ≠ []) (hloc : loc.head? = some '/') :
    location page forwardUrl key loc =
      buildProxyPrefix page.host ++ "/__proxy__".toList ++ key ++ loc := by
  rw [location, rewriteLocation, if_neg (not_or.2 ⟨hkey, buildProxyPrefix_ne page.host⟩),
    if_pos hloc, Option.getD_some]

/-- So does what follows the upstream's scheme and authority. -/
theorem location_base (hkey : key ≠ []) (hhead : loc.head? ≠ some '/')
    (hne : (splitUpstream forwardUrl).1 ≠ []) {rest : Str}
    (hloc : loc = upstreamBase forwardUrl ++ rest) :
    location page forwardUrl key loc =
      buildProxyPrefix page.host ++ "/__proxy__".toList ++ key ++ rest := by
  have hdrop : loc.dropPrefix? (upstreamBase forwardUrl) = some rest := by
    rw [List.dropPrefix?_eq_some_iff]
    exact ⟨_, hloc, by simp⟩
  unfold upstreamBase at hdrop
  rw [location, rewriteLocation, if_neg (not_or.2 ⟨hkey, buildProxyPrefix_ne page.host⟩),
    if_neg hhead]
  simp only [if_neg hne, hdrop, Option.map_some, Option.getD_some]

/-- Everything else is left as it is. -/
theorem location_other (hhead : loc.head? ≠ some '/')
    (hbase : ¬ upstreamBase forwardUrl <+: loc) : location page forwardUrl key loc = loc := by
  have hdrop : loc.dropPrefix? (upstreamBase forwardUrl) = none := by
    rw [← Option.not_isSome_iff_eq_none]
    intro hsome
    rcases Option.isSome_iff_exists.1 hsome with ⟨rest, hrest⟩
    rw [List.dropPrefix?_eq_some_iff] at hrest
    rcases hrest with ⟨pre, hloc, hpre⟩
    obtain rfl : pre = upstreamBase forwardUrl := by simpa using hpre
    exact hbase ⟨rest, hloc.symm⟩
  unfold upstreamBase at hdrop
  unfold location rewriteLocation
  by_cases hkey : key = [] ∨ buildProxyPrefix page.host = []
  · rw [if_pos hkey, Option.getD_none]
  · rw [if_neg hkey, if_neg hhead]
    by_cases horigin : (splitUpstream forwardUrl).1 = []
    · simp only [if_pos horigin, Option.getD_none]
    · simp only [if_neg horigin, hdrop, Option.map_none, Option.getD_none]

/-! ## Redirects that are kept -/

/-- The source URL is a host and nothing else. -/
def AtRoot (S : HttpUrl) : Prop :=
  trimEndMatches '/' S.path = [] ∧ S.query = none ∧ S.fragment = none

/-- The page itself, or a place on it. -/
def SamePage (loc : Str) : Prop := loc = [] ∨ loc.head? = some '#'

/-- A URL that neither the proxy nor `rewrite_location` takes for its own. -/
def Elsewhere (page : Page) (forwardUrl key loc : Str) : Prop :=
  (parseReference loc).scheme.isSome ∧ (key = [] ∨ ¬ upstreamBase forwardUrl <+: loc) ∧
    site (parseReference loc) ≠ (some "http".toList, some page.host)

/-- A path of the same host, for a source that is all of its host. -/
def RootPath (S : HttpUrl) (loc : Str) : Prop :=
  loc.head? = some '/' ∧ ¬ "//".toList <+: loc ∧ AtRoot S ∧
    Stays 0 (segments (parseTail loc).path)

/-- A URL of the source's host: with a path, for a source that is all of its host;
else the source URL itself. -/
def OnSource (S : HttpUrl) (url : Str) : Prop :=
  ∃ rest ∈ url.dropPrefix? S.origin, EndsAuthority rest ∧
    if rest.head? = some '/' then AtRoot S ∧ Stays 0 (segments (parseTail rest).path)
    else cleanPath S.pathname = ['/'] ∧ S.query = (parseTail rest).query

/-- A URL that `rewrite_location` finds to be the source's. -/
def SameSite (S : HttpUrl) (forwardUrl loc : Str) : Prop :=
  upstreamBase forwardUrl = S.origin ∧ OnSource S loc

/-- A reference relative to a page that is not the source URL itself. -/
def Below (S : HttpUrl) (page : Page) (key loc : Str) : Prop :=
  S.query = none ∧ S.fragment = none ∧ (parseReference loc).scheme = none ∧
    loc.head? ≠ some '/' ∧ ∃ p ∈ page.line.path.dropPrefix? ("/__proxy__".toList ++ key),
      p.head? = some '/' ∧ ((parseReference loc).path = [] ∨
        Stays 0 (segments (mergePath p (parseReference loc).path)))

/-- The redirects that reach what they name. `source` is what the key of the page
stands for. -/
def Kept (source : Option HttpUrl) (page : Page) (forwardUrl key loc : Str) : Prop :=
  SamePage loc ∨ Elsewhere page forwardUrl key loc ∨
    ∃ S ∈ source, RootPath S loc ∨ SameSite S forwardUrl loc ∨ Below S page key loc

/-- Following the `Location` given to the browser requests the URL that the
original one means, and nothing of the upstream for another host or port. -/
structure Faithful (C : UrlCodec) (urldecode : Str → Option Str) (km : KeyMap)
    (around : Surroundings) (page : Page) (forwardUrl key loc : Str) : Prop where
  exact : (follow C urldecode km around page (location page forwardUrl key loc)).target =
    some ((parseReference forwardUrl).resolve (parseReference loc)).target
  elsewhere : ∀ url,
    follow C urldecode km around page (location page forwardUrl key loc) = .proxied url →
    site ((parseReference forwardUrl).resolve (parseReference loc)) ≠
      site (parseReference forwardUrl) →
    site (parseReference url) ≠ site (parseReference forwardUrl)

/-- Requesting the right URL includes asking the right host. -/
theorem Faithful.of_exact
    (h : (follow C urldecode km around page (location page forwardUrl key loc)).target =
      some ((parseReference forwardUrl).resolve (parseReference loc)).target) :
    Faithful C urldecode km around page forwardUrl key loc where
  exact := h
  elsewhere := by
    intro url hfollow hsite
    rw [hfollow, Followed.target, Option.some.injEq] at h
    have hsame : site (parseReference url) =
        site ((parseReference forwardUrl).resolve (parseReference loc)) :=
      Prod.ext (congrArg Target.scheme h) (congrArg Target.authority h)
    rw [hsame]
    exact hsite

/-! ### Left as they are -/

theorem parse_samePage (h : SamePage loc) : ∃ fragment, parseReference loc =
    { scheme := none, authority := none, path := [], query := none, fragment := fragment } := by
  rcases h with rfl | h
  · exact ⟨none, rfl⟩
  · cases loc with
    | nil => simp at h
    | cons c f =>
      obtain rfl : c = '#' := by simpa using h
      have htail : parseTail ('#' :: f) = ⟨[], none, some f⟩ := by
        simp [parseTail, cutAt]
      refine ⟨some f, ?_⟩
      simp only [parseReference, htail]
      rfl

/-- What `rewrite_location` looks for starts with a scheme. -/
theorem scheme_of_base (h : upstreamBase forwardUrl <+: loc) :
    ∃ scheme, (parseReference loc).scheme = some scheme := by
  rcases h with ⟨rest, rfl⟩
  have hscheme : ∃ scheme, (scheme = "http".toList ∨ scheme = "https".toList) ∧
      upstreamBase forwardUrl = scheme ++ "://".toList ++ (splitUpstream forwardUrl).1 := by
    unfold upstreamBase
    split
    · exact ⟨_, .inr rfl, rfl⟩
    · exact ⟨_, .inl rfl, rfl⟩
  rcases hscheme with ⟨scheme, hhttp, hbase⟩
  have hplain : ∀ c ∈ ['?', '#'], c ∉ scheme ++ "://".toList := by
    rcases hhttp with rfl | rfl
    · exact forall_mem_of_all (by decide)
    · exact forall_mem_of_all (by decide)
  have htail : (parseTail (upstreamBase forwardUrl ++ rest)).path =
      scheme ++ ':' :: '/' :: '/' :: (parseTail ((splitUpstream forwardUrl).1 ++ rest)).path := by
    rw [hbase, List.append_assoc, parseTail_append hplain]
    simp
  refine ⟨scheme, ?_⟩
  simp only [parseReference, htail, splitScheme_http hhttp]

theorem head_of_scheme (h : (parseReference loc).scheme ≠ none) : loc.head? ≠ some '/' := by
  intro hhead
  have hpath := parseTail_head.2 hhead
  refine h ?_
  cases hform : (parseTail loc).path with
  | nil => simp [hform] at hpath
  | cons c r =>
    obtain rfl : c = '/' := by simpa [hform] using hpath
    simp only [parseReference, hform, splitScheme_of_head (c := '/') (by decide)]

theorem serve_loaded (h : loaded C km page.line = some (forwardUrl, key)) :
    serve C urldecode km around page.line = some forwardUrl := by
  rw [loaded] at h
  rw [serve, handle]
  cases hdrop : page.line.path.dropPrefix? "/__proxy__".toList with
  | some rest =>
    rw [hdrop] at h
    simp only at h ⊢
    cases hurl : handleProxyRequest C km rest page.line.query with
    | ok url =>
      rw [hurl] at h
      obtain ⟨rfl, -⟩ : url = forwardUrl ∧ (splitKey rest).1 = key := by simpa using h
      rfl
    | error e =>
      rw [hurl] at h
      cases h
  | none =>
    rw [hdrop] at h
    rcases Option.map_eq_some_iff.1 h with ⟨url, hurl, heq⟩
    obtain rfl : url = forwardUrl := congrArg Prod.fst heq
    simp only [hurl]

theorem faithful_samePage (hload : loaded C km page.line = some (forwardUrl, key))
    (h : SamePage loc) : Faithful C urldecode km around page forwardUrl key loc := by
  rcases parse_samePage h with ⟨fragment, hparse⟩
  have hhead : loc.head? ≠ some '/' := by
    rcases h with rfl | h
    · simp
    · rw [h]
      simp
  have hbase : ¬ upstreamBase forwardUrl <+: loc := by
    intro hpre
    rcases scheme_of_base hpre with ⟨scheme, hscheme⟩
    rw [hparse] at hscheme
    simp at hscheme
  have hurl : (parseReference page.url).resolve (parseReference loc) =
      ofLine page page.line fragment := by
    rw [hparse, page.parse_url]
    rfl
  apply Faithful.of_exact
  rw [location_other hhead hbase, follow_proxied page.path_noHash page.query_noHash hurl,
    serve_loaded hload, hparse]
  rfl

theorem faithful_elsewhere (h : Elsewhere page forwardUrl key loc) :
    Faithful C urldecode km around page forwardUrl key loc := by
  rcases h with ⟨hscheme, hother, hsite⟩
  have hloc : location page forwardUrl key loc = loc := by
    rcases hother with rfl | hbase
    · exact location_noKey
    · refine location_other (head_of_scheme ?_) hbase
      rw [← Option.isSome_iff_ne_none]
      exact hscheme
  have hout : follow C urldecode km around page loc =
      .outside ((parseReference page.url).resolve (parseReference loc)) := by
    refine if_neg ?_
    rw [resolve_of_scheme _ hscheme]
    rintro ⟨hs, ha⟩
    exact hsite (Prod.ext hs ha)
  apply Faithful.of_exact
  rw [hloc, hout, Followed.target, resolve_of_scheme _ hscheme, resolve_of_scheme _ hscheme]

/-! ### Redirects of a page under a key -/

section Keyed

variable {S : HttpUrl} {p : Str}

/-- A page under the key of a source, and where it was forwarded to. -/
structure LoadedFrom (km : KeyMap) (page : Page) (forwardUrl key : Str) (S : HttpUrl) (p : Str) :
    Prop where
  plain : PlainKey key
  ne : key ≠ []
  source : km.get key = some S.text
  path : page.line.path = "/__proxy__".toList ++ key ++ p
  rooted : p = [] ∨ p.head? = some '/'
  url : forwardUrl = if p = [] then S.text
    else trimEndMatches '/' S.text ++ p ++ withDelimiter '?' page.line.query

theorem LoadedFrom.path_plain (h : LoadedFrom km page forwardUrl key S p) :
    ∀ c ∈ ['?', '#'], c ∉ p := by
  intro c hc hmem
  have hpage : c ∈ page.line.path := h.path ▸ List.mem_append_right _ hmem
  rcases List.mem_cons.1 hc with rfl | hc
  · exact page.line.path_plain hpage
  · rcases List.mem_singleton.1 hc with rfl
    exact page.path_noHash hpage

/-- What is requested for a path of the source's host. -/
def rootTarget (S : HttpUrl) (t : LocalPart) : Target where
  scheme := some S.scheme
  authority := some S.authority
  path := cleanPath t.path
  query := t.query

/-- A path put behind the key of a source that is all of its host. -/
theorem target_rewritten (h : LoadedFrom km page forwardUrl key S p) (hroot : AtRoot S)
    {rest : Str} (hrest : rest.head? = some '/')
    (hstays : Stays 0 (segments (parseTail rest).path)) :
    (follow C urldecode km around page
        (buildProxyPrefix page.host ++ "/__proxy__".toList ++ key ++ rest)).target =
      some (rootTarget S (parseTail rest)) := by
  have hp := parseTail_head.2 hrest
  have hne : (parseTail rest).path ≠ [] := by
    intro hnil
    simp [hnil] at hp
  have hclean := cleanPath_rooted hp
  have hcleanNe : cleanPath (parseTail rest).path ≠ [] := by
    intro hnil
    simp [hnil] at hclean
  have hplain : ∀ c ∈ ['?', '#'], c ∉ cleanPath (parseTail rest).path := fun c hc hmem =>
    parseTail_plain rest c hc (mem_of_mem_cleanPath hmem)
  rw [follow_rewritten h.plain h.source (.inr hp) hstays, if_neg hne, Followed.target,
    parse_appended hroot.2.1 hroot.2.2 hclean hplain (parseTail_query rest), hroot.1]
  simp [Reference.target, rootTarget, hcleanNe, cleanPath_cleanPath]

theorem faithful_rootPath (h : LoadedFrom km page forwardUrl key S p) (hloc : RootPath S loc) :
    Faithful C urldecode km around page forwardUrl key loc := by
  rcases hloc with ⟨hhead, hslash, hroot, hstays⟩
  have hp := parseTail_head.2 hhead
  have hne : (parseTail loc).path ≠ [] := by
    intro hnil
    simp [hnil] at hp
  apply Faithful.of_exact
  rw [location_slash h.ne hhead, target_rewritten h hroot hhead hstays,
    parseReference_rooted hhead hslash, parse_loaded hroot.2.1 hroot.2.2 h.path h.rooted h.url]
  have hcleanNe : cleanPath (parseTail loc).path ≠ [] := by
    intro hnil
    exact hne ((cleanPath_eq_nil (.inr hp)).1 hnil)
  simp [Reference.resolve, Reference.target, rootTarget, hne, hp, hcleanNe, cleanPath_cleanPath]

/-- `rewrite_location` only finds an authority that is there. -/
theorem splitUpstream_ne (h : upstreamBase forwardUrl = S.origin) :
    (splitUpstream forwardUrl).1 ≠ [] := by
  intro hnil
  have hlast : S.origin.getLast? = some '/' := by
    rw [← h, upstreamBase, hnil, List.append_nil, List.getLast?_append_of_ne_nil _ (by decide)]
    decide
  rw [Origin.origin, List.getLast?_append_of_ne_nil _ S.authority_ne] at hlast
  exact S.authority_noSlash (List.mem_of_getLast? hlast)

theorem parse_sameSite (S : HttpUrl) {rest : Str} (h : EndsAuthority rest) :
    parseReference (S.origin ++ rest) =
      { scheme := some S.scheme, authority := some S.authority, path := (parseTail rest).path,
        query := (parseTail rest).query, fragment := (parseTail rest).fragment } :=
  parseReference_http S.http S.authority_plain h

theorem target_text (S : HttpUrl) : (parseReference S.text).target =
    { scheme := some S.scheme, authority := some S.authority, path := cleanPath S.pathname,
      query := S.query } := by
  rw [parse_text]
  unfold Reference.target HttpUrl.pathname
  by_cases hp : S.path = []
  · simp only [hp, Option.isSome_some, and_self, if_true]
    rfl
  · simp only [hp, and_false, if_false]

theorem faithful_sameSite (h : LoadedFrom km page forwardUrl key S p)
    (hloc : SameSite S forwardUrl loc) :
    Faithful C urldecode km around page forwardUrl key loc := by
  rcases hloc with ⟨hbase, rest, hdrop, hends, hcase⟩
  have hform : loc = S.origin ++ rest := by
    rw [Option.mem_def, List.dropPrefix?_eq_some_iff] at hdrop
    rcases hdrop with ⟨pre, hloc, hpre⟩
    obtain rfl : pre = S.origin := by simpa using hpre
    exact hloc
  have hparse : parseReference loc = _ := hform ▸ parse_sameSite S hends
  have hhead : loc.head? ≠ some '/' := by
    apply head_of_scheme
    rw [hparse]
    simp
  apply Faithful.of_exact
  rw [location_base h.ne hhead (splitUpstream_ne hbase) (hbase ▸ hform), hparse]
  split at hcase
  · next hrest =>
    have hp := parseTail_head.2 hrest
    have hcleanNe : cleanPath (parseTail rest).path ≠ [] := by
      intro hnil
      have hclean := cleanPath_rooted hp
      simp [hnil] at hclean
    rw [target_rewritten h hcase.1 hrest hcase.2]
    simp [Reference.resolve, Reference.target, rootTarget, hcleanNe, cleanPath_cleanPath]
  · next hrest =>
    have hnil : (parseTail rest).path = [] :=
      (parseTail_rooted hends).resolve_right fun hp => hrest (parseTail_head.1 hp)
    have hstays : Stays 0 (segments (parseTail rest).path) := by
      rw [hnil]
      decide
    rw [follow_rewritten h.plain h.source (.inl hnil) hstays, if_pos hnil, Followed.target,
      target_text, hcase.1, hcase.2]
    simp [Reference.resolve, Reference.target, hnil, cleanPath]

theorem faithful_below (h : LoadedFrom km page forwardUrl key S p)
    (hloc : Below S page key loc) : Faithful C urldecode km around page forwardUrl key loc := by
  rcases hloc with ⟨hquery, hfragment, hscheme, hhead, p', hdrop, hp, hcase⟩
  obtain rfl : p = p' := by
    rw [Option.mem_def, List.dropPrefix?_eq_some_iff] at hdrop
    rcases hdrop with ⟨pre, hpath, hpre⟩
    obtain rfl : pre = "/__proxy__".toList ++ key := by simpa using hpre
    exact List.append_cancel_left (h.path.symm.trans hpath)
  have hpne : p ≠ [] := by
    rintro rfl
    simp at hp
  have hbase : ¬ upstreamBase forwardUrl <+: loc := by
    intro hpre
    rcases scheme_of_base hpre with ⟨scheme, hsome⟩
    rw [hscheme] at hsome
    simp at hsome
  have hparse := parseReference_relative hscheme hhead
  have hrel : (parseTail loc).path.head? ≠ some '/' := fun hr => hhead (parseTail_head.1 hr)
  have hforward := parse_loaded hquery hfragment h.path h.rooted h.url
  rw [if_neg hpne, if_neg hpne] at hforward
  have htrimmed := trimmed_rooted S.path_rooted
  apply Faithful.of_exact
  rw [location_other hhead hbase]
  by_cases hnil : (parseTail loc).path = []
  · -- the path of the page stays
    have hurl : (parseReference page.url).resolve (parseReference loc) =
        { scheme := some "http".toList, authority := some page.host,
          path := "/__proxy__".toList ++ key ++ p,
          query := if (parseTail loc).query.isSome then (parseTail loc).query else page.line.query,
          fragment := (parseTail loc).fragment } := by
      rw [hparse, page.parse_url, h.path]
      simp only [Reference.resolve, hnil, Option.isSome_none, Bool.false_eq_true, if_false, if_true]
    have hq : ∀ q ∈ (if (parseTail loc).query.isSome then (parseTail loc).query
        else page.line.query), '#' ∉ q := by
      split
      · exact parseTail_query loc
      · exact page.query_noHash
    rw [follow_under h.plain h.source h.rooted h.path_plain hq hurl, if_neg hpne, Followed.target,
      parse_appended hquery hfragment hp h.path_plain hq, hparse, hforward]
    simp only [Reference.resolve, hnil, Option.isSome_none, Bool.false_eq_true, if_false, if_true]
    rfl
  · -- the directory of the page is the one of the upstream
    have hstays : Stays 0 (segments (mergePath p (parseTail loc).path)) := by
      rw [hparse] at hcase
      exact hcase.resolve_left hnil
    have hm := mergePath_rooted hp (parseTail loc).path
    have hplain : ∀ c ∈ ['?', '#'], c ∉ cleanPath (mergePath p (parseTail loc).path) := by
      intro c hc hmem
      rcases mem_mergePath hp (mem_of_mem_cleanPath hmem) with hmem | hmem
      · exact h.path_plain c hc hmem
      · exact parseTail_plain loc c hc hmem
    have hurl : (parseReference page.url).resolve (parseReference loc) =
        { scheme := some "http".toList, authority := some page.host,
          path := "/__proxy__".toList ++ key ++ cleanPath (mergePath p (parseTail loc).path),
          query := (parseTail loc).query, fragment := (parseTail loc).fragment } := by
      have hpath : page.line.path ≠ [] := by
        intro hpath
        simpa [hpath] using page.path_rooted
      rw [hparse, page.parse_url]
      simp only [Reference.resolve, Reference.merge, hnil, hrel, hpath, Option.isSome_none,
        Bool.false_eq_true, if_false, and_false]
      rw [h.path, mergePath_append _ hp, cleanPath_under h.plain (.inr hm) hstays]
    have hclean := cleanPath_rooted hm
    have hcleanNe : cleanPath (mergePath p (parseTail loc).path) ≠ [] := by
      intro hnil
      simp [hnil] at hclean
    have hFne : trimEndMatches '/' S.path ++ p ≠ [] := by
      simp [hpne]
    rw [follow_under h.plain h.source (.inr hclean) hplain (parseTail_query loc) hurl,
      if_neg hcleanNe, Followed.target,
      parse_appended hquery hfragment hclean hplain (parseTail_query loc), hparse, hforward]
    simp only [Reference.resolve, Reference.merge, Reference.target, hnil, hrel, hFne,
      Option.isSome_none, Option.isSome_some, Bool.false_eq_true, if_false, and_false]
    have hbelow := cleanPath_below htrimmed hm hstays
    have hne : trimEndMatches '/' S.path ++ cleanPath (mergePath p (parseTail loc).path) ≠ [] := by
      simp [hcleanNe]
    have hroot : (trimEndMatches '/' S.path ++ mergePath p (parseTail loc).path).head? =
        some '/' := by
      rcases htrimmed with htrim | htrim
      · rw [htrim, List.nil_append]
        exact hm
      · rw [List.head?_append, htrim, Option.some_or]
    have hne' : cleanPath (trimEndMatches '/' S.path ++ mergePath p (parseTail loc).path) ≠ [] := by
      intro hnil
      have hclean := cleanPath_rooted hroot
      simp [hnil] at hclean
    rw [mergePath_append _ hp, if_neg (fun h => hne h.2), if_neg (fun h => hne' h.2), hbelow,
      cleanPath_cleanPath]

/-! ### Rewritten redirects that are not kept -/

/-- Sources and redirects without the coincidences of dot segments, of a query or
fragment that swallows a path, and of an empty port. -/
structure Plain (S : HttpUrl) (loc : Str) : Prop where
  query : S.query = none
  fragment : S.fragment = none
  port : S.authority.getLast? ≠ some ':'
  path : DotFree (segments S.path)
  loc : DotFree ((parseTail loc).path.splitOn '/')

/-- `rewrite_location` puts the redirect behind the key. -/
def Rewritten (forwardUrl loc : Str) : Prop :=
  loc.head? = some '/' ∨ upstreamBase forwardUrl <+: loc

theorem dotFree_behind {a q : Str} (h : DotFree ((a ++ q).splitOn '/'))
    (hq : q.head? = some '/') : DotFree (segments q) := by
  cases q with
  | nil => simp at hq
  | cons c q =>
    obtain rfl : c = '/' := by simpa using hq
    intro s hs
    refine h s ?_
    rw [List.splitOn_append_cons_self]
    exact List.mem_append_right _ hs

theorem dotFree_trimmed (h : DotFree (segments S.path)) :
    trimEndMatches '/' S.path = [] ∨ DotFree (segments (trimEndMatches '/' S.path)) := by
  rcases trimmed_rooted S.path_rooted with htrim | htrim
  · exact .inl htrim
  · right
    rcases trimEndMatches_append '/' S.path with ⟨r, hr, hform⟩
    intro s hs
    cases r with
    | nil =>
      rw [List.append_nil] at hform
      rw [← hform] at hs
      exact h s hs
    | cons c r =>
      refine h s ?_
      have hc : c = '/' := hr c List.mem_cons_self
      rw [hform, hc, segments_append htrim rfl]
      exact List.mem_append_left _ hs

/-- The path asked of the upstream is the whole one. -/
theorem path_rewritten (h : LoadedFrom km page forwardUrl key S p) (hquery : S.query = none)
    (hfragment : S.fragment = none) (hdots : DotFree (segments S.path)) {rest : Str}
    (hrest : rest.head? = some '/') (hfree : DotFree (segments (parseTail rest).path)) :
    (follow C urldecode km around page
        (buildProxyPrefix page.host ++ "/__proxy__".toList ++ key ++ rest)).target =
      some { scheme := some S.scheme, authority := some S.authority,
             path := trimEndMatches '/' S.path ++ (parseTail rest).path,
             query := (parseTail rest).query } := by
  have hp := parseTail_head.2 hrest
  have hne : (parseTail rest).path ≠ [] := by
    intro hnil
    simp [hnil] at hp
  have hself := cleanPath_of_dotFree hfree
  have hplain : ∀ c ∈ ['?', '#'], c ∉ (parseTail rest).path := parseTail_plain rest
  have hjoined : cleanPath (trimEndMatches '/' S.path ++ (parseTail rest).path) =
      trimEndMatches '/' S.path ++ (parseTail rest).path := by
    rcases dotFree_trimmed hdots with htrim | htrim
    · rw [htrim, List.nil_append, hself]
    · rcases trimmed_rooted S.path_rooted with hnil | hroot
      · rw [hnil, List.nil_append, hself]
      · refine cleanPath_of_dotFree ?_
        rw [segments_append hroot hp]
        intro s hs
        rcases List.mem_append.1 hs with hs | hs
        · exact htrim s hs
        · exact hfree s hs
  rw [follow_rewritten h.plain h.source (.inr hp) (stays_of_dotFree hfree 0), if_neg hne,
    Followed.target, hself,
    parse_appended hquery hfragment hp hplain (parseTail_query rest)]
  simp [Reference.target, hne, hjoined]

theorem upstreamBase_eq (h : LoadedFrom km page forwardUrl key S p) (htame : Plain S loc) :
    upstreamBase forwardUrl = S.origin := by
  have hform : ∃ t, forwardUrl = S.origin ++ t ∧ (t = [] ∨ t.head? = some '/') := by
    rw [h.url]
    rcases h.rooted with rfl | hp
    · exact ⟨S.path, by rw [if_pos rfl, text_plain htame.query htame.fragment], S.path_rooted⟩
    · have hne : p ≠ [] := by
        rintro rfl
        simp at hp
      refine ⟨trimEndMatches '/' S.path ++ p ++ withDelimiter '?' page.line.query, ?_, .inr ?_⟩
      · rw [if_neg hne, text_plain htame.query htame.fragment, S.trimEnd_append]
        simp only [List.append_assoc]
      · rcases trimmed_rooted S.path_rooted with htrim | htrim
        · rw [htrim, List.nil_append, List.head?_append, hp, Option.some_or]
        · rw [List.append_assoc, List.head?_append, htrim, Option.some_or]
  rcases hform with ⟨t, hform, ht⟩
  -- what follows the origin begins with a slash, so the authority is cut off whole
  have htake : (S.authority ++ t).takeWhile (· ≠ '/') = S.authority := by
    rcases ht with rfl | ht
    · rw [List.append_nil]
      exact takeWhile_ne_eq_self S.authority_noSlash
    · cases t with
      | nil => simp at ht
      | cons c t =>
        obtain rfl : c = '/' := by simpa using ht
        exact congrArg Prod.fst (cutAt_append S.authority_noSlash t)
  have hsplit := splitUpstream_fst S.scheme_noColon (S.authority ++ t)
  rw [htake] at hsplit
  have hupstream : (splitUpstream forwardUrl).1 = S.authority := by
    rw [hform, Origin.origin, List.append_assoc]
    rcases hsplit with hsplit | hsplit
    · exact hsplit
    · refine absurd ?_ htame.port
      rw [hsplit]
      simp
  rw [upstreamBase, hupstream, Origin.origin]
  rcases S.http with hs | hs
  · have hno : "https://".toList.isPrefixOf forwardUrl = false := by
      rw [hform, Origin.origin, hs]
      rfl
    rw [hno, hs]
    rfl
  · have hyes : "https://".toList.isPrefixOf forwardUrl = true := by
      rw [hform, Origin.origin, hs]
      rfl
    rw [hyes, hs]
    rfl

/-- A host that goes on behind the upstream's becomes a key that is not
registered. -/
theorem refused_of_longer (h : LoadedFrom km page forwardUrl key S p)
    (hkeys : ∀ k s, km.get k = some s → k.length = key.length) {rest : Str}
    (hrest : ¬ EndsAuthority rest)
    (hfree : DotFree ((S.origin ++ (parseTail rest).path).splitOn '/')) :
    follow C urldecode km around page
      (buildProxyPrefix page.host ++ "/__proxy__".toList ++ key ++ rest) = .refused := by
  rcases rest with - | ⟨c, r⟩
  · exact absurd (by simp [EndsAuthority]) hrest
  have hc : c ∉ ['/', '?', '#'] := by simpa [EndsAuthority] using hrest
  have hcplain : ∀ d ∈ ['?', '#'], d ∉ [c] := by
    intro d hd hmem
    rcases List.mem_singleton.1 hmem with rfl
    exact hc (List.mem_cons_of_mem _ hd)
  have hpath : (parseTail (c :: r)).path = c :: (parseTail r).path := by
    have happ := parseTail_append hcplain r
    rw [List.singleton_append] at happ
    rw [happ]
    rfl
  have hno := parseTail_plain (c :: r)
  -- the key runs up to the next slash
  obtain ⟨x, q, hform, hx, hq⟩ : ∃ x q, (parseTail (c :: r)).path = c :: x ++ q ∧
      '/' ∉ c :: x ∧ (q = [] ∨ q.head? = some '/') := by
    have hcs : c ≠ '/' := by
      rintro rfl
      simp at hc
    rw [hpath]
    by_cases hslash : '/' ∈ (parseTail r).path
    · rcases List.eq_append_cons_of_mem hslash with ⟨x, y, heq, hx⟩
      refine ⟨x, '/' :: y, by rw [heq]; rfl, ?_, .inr rfl⟩
      rw [List.mem_cons, not_or]
      exact ⟨Ne.symm hcs, hx⟩
    · refine ⟨(parseTail r).path, [], by rw [List.append_nil], ?_, .inl rfl⟩
      rw [List.mem_cons, not_or]
      exact ⟨Ne.symm hcs, hslash⟩
  have hlonger : PlainKey (key ++ c :: x) := by
    intro d hd hmem
    rcases List.mem_append.1 hmem with hmem | hmem
    · exact h.plain d hd hmem
    · rcases List.mem_cons.1 hd with rfl | hd
      · exact hx hmem
      · exact hno d hd (hform ▸ List.mem_append_left _ hmem)
  have hstays : Stays 0 (segments q) := by
    rcases hq with rfl | hq
    · decide
    · rw [hform, ← List.append_assoc] at hfree
      exact stays_of_dotFree (dotFree_behind hfree hq) 0
  have hunregistered : km.get (key ++ c :: x) = none := by
    cases hget : km.get (key ++ c :: x) with
    | none => rfl
    | some s =>
      have hlength := hkeys _ s hget
      simp at hlength
  have hqplain : ∀ d ∈ ['?', '#'], d ∉ cleanPath q := fun d hd hmem =>
    hno d hd (hform ▸ List.mem_append_right _ (mem_of_mem_cleanPath hmem))
  have hqclean : cleanPath q = [] ∨ (cleanPath q).head? = some '/' := by
    rcases hq with hq | hq
    · exact .inl ((cleanPath_eq_nil (.inl hq)).2 hq)
    · exact .inr (cleanPath_rooted hq)
  have hurl := @resolve_rewritten page _ h.plain _ _ _ hlonger hform hq hstays
  have hfreeLine := plain_under hlonger hqplain
  let line : RequestLine := ⟨"/__proxy__".toList ++ (key ++ c :: x) ++ cleanPath q,
    (parseTail (c :: r)).query, hfreeLine '?' (by simp)⟩
  have hdrop : line.path.dropPrefix? "/__proxy__".toList = some (key ++ c :: x ++ cleanPath q) := by
    rw [List.dropPrefix?_eq_some_iff]
    exact ⟨_, List.append_assoc _ _ _, by simp⟩
  have hserve : serve C urldecode km around line = none := by
    simp only [serve, handle, hdrop, handleProxyRequest, splitKey_append hlonger hqclean,
      hunregistered]
  rw [@follow_proxied _ _ _ _ _ _ line _ (hfreeLine '#' (by simp)) (parseTail_query (c :: r)) hurl,
    hserve]
  rfl

/-- A rewritten redirect that reaches what it names is one of those kept. -/
theorem kept_of_faithful (h : LoadedFrom km page forwardUrl key S p)
    (hkeys : ∀ k s, km.get k = some s → k.length = key.length) (hplain : Plain S loc)
    (hrewritten : Rewritten forwardUrl loc)
    (hfaithful : Faithful C urldecode km around page forwardUrl key loc) :
    RootPath S loc ∨ SameSite S forwardUrl loc := by
  have hexact := hfaithful.exact
  have hbase := upstreamBase_eq h hplain
  have hloaded := parse_loaded hplain.query hplain.fragment h.path h.rooted h.url
  by_cases hhead : loc.head? = some '/'
  · left
    have hp := parseTail_head.2 hhead
    have hne : (parseTail loc).path ≠ [] := by
      intro hnil
      simp [hnil] at hp
    have hfree : DotFree (segments (parseTail loc).path) :=
      dotFree_behind (a := []) (by simpa using hplain.loc) hp
    rw [location_slash h.ne hhead, path_rewritten h hplain.query hplain.fragment hplain.path hhead
      hfree, Option.some.injEq] at hexact
    by_cases hslash : "//".toList <+: loc
    · -- another authority: its path is shorter than what is asked of the upstream
      exfalso
      rcases hslash with ⟨r, rfl⟩
      have hlp : (parseTail ("//".toList ++ r)).path = "//".toList ++ (parseTail r).path := by
        rw [parseTail_append (forall_mem_of_all (by decide))]
      have hjoin := cutAt_join '/' (parseTail r).path
      have hq : withDelimiter '/' (cutAt '/' (parseTail r).path).2 = [] ∨
          (withDelimiter '/' (cutAt '/' (parseTail r).path).2).head? = some '/' := by
        cases (cutAt '/' (parseTail r).path).2 with
        | none => exact .inl rfl
        | some q => exact .inr rfl
      have hclean : cleanPath (withDelimiter '/' (cutAt '/' (parseTail r).path).2) =
          withDelimiter '/' (cutAt '/' (parseTail r).path).2 := by
        rcases hq with hq | hq
        · rw [hq]
          rfl
        · refine cleanPath_of_dotFree (dotFree_behind
            (a := "//".toList ++ (cutAt '/' (parseTail r).path).1) ?_ hq)
          rw [List.append_assoc, hjoin, ← hlp]
          exact hplain.loc
      have hpath := congrArg (fun t => t.path.length) hexact
      have hlen := congrArg List.length hjoin
      rw [List.length_append] at hlen
      rw [parseReference_network, hloaded, hlp] at hpath
      simp only [Reference.resolve, Reference.target, Option.isSome_none, Option.isSome_some,
        Bool.false_eq_true, if_false, if_true, true_and, hclean, List.length_append] at hpath
      have htwo : "//".toList.length = 2 := rfl
      split at hpath
      · rw [htwo, List.length_singleton] at hpath
        omega
      · rw [htwo] at hpath
        omega
    · have hself := cleanPath_of_dotFree hfree
      rw [parseReference_rooted hhead hslash, hloaded] at hexact
      have hpath : trimEndMatches '/' S.path ++ (parseTail loc).path = (parseTail loc).path := by
        simpa [Reference.resolve, Reference.target, hne, hp, hself] using
          congrArg Target.path hexact
      exact ⟨hhead, hslash, ⟨List.append_left_eq_self.1 hpath, hplain.query, hplain.fragment⟩,
        stays_of_dotFree hfree 0⟩
  · right
    rcases hrewritten.resolve_left hhead with ⟨rest, hrest⟩
    have hform : loc = S.origin ++ rest := by rw [← hrest, hbase]
    have htail : (parseTail loc).path = S.origin ++ (parseTail rest).path := by
      rw [hform, parseTail_append fun c hc => S.origin_plain hc]
    rw [location_base h.ne hhead (splitUpstream_ne hbase) hrest.symm] at hexact
    have hdrop : rest ∈ loc.dropPrefix? S.origin := by
      rw [Option.mem_def, List.dropPrefix?_eq_some_iff]
      exact ⟨_, hform, by simp⟩
    by_cases hends : EndsAuthority rest
    · refine ⟨hbase, rest, hdrop, hends, ?_⟩
      rw [hform, parse_sameSite S hends, resolve_of_scheme _ rfl] at hexact
      split
      · next hslash =>
        have hp := parseTail_head.2 hslash
        have hne : (parseTail rest).path ≠ [] := by
          intro hnil
          simp [hnil] at hp
        have hfree : DotFree (segments (parseTail rest).path) :=
          dotFree_behind (htail ▸ hplain.loc) hp
        have hself := cleanPath_of_dotFree hfree
        rw [path_rewritten h hplain.query hplain.fragment hplain.path hslash hfree, Option.some.injEq] at hexact
        have hpath : trimEndMatches '/' S.path ++ (parseTail rest).path = (parseTail rest).path := by
          simpa [Reference.target, hne, hself] using congrArg Target.path hexact
        exact ⟨⟨List.append_left_eq_self.1 hpath, hplain.query, hplain.fragment⟩,
          stays_of_dotFree hfree 0⟩
      · next hslash =>
        have hnil : (parseTail rest).path = [] :=
          (parseTail_rooted hends).resolve_right fun hp => hslash (parseTail_head.1 hp)
        have hstays : Stays 0 (segments (parseTail rest).path) := by
          rw [hnil]
          decide
        rw [follow_rewritten h.plain h.source (.inl hnil) hstays, if_pos hnil, Followed.target,
          target_text, Option.some.injEq] at hexact
        refine ⟨?_, congrArg Target.query hexact⟩
        simpa [Reference.target, hnil, cleanPath] using congrArg Target.path hexact
    · exfalso
      have hlong := @refused_of_longer C urldecode _ around _ _ _ _ _ h hkeys _ hends (htail ▸ hplain.loc)
      rw [hlong] at hexact
      simp [Followed.target] at hexact

end Keyed

/-! ### All redirects -/

/-- `http://nas.local:8080` -/
def nasRoot : HttpUrl where
  toOrigin := nasHost
  path := []
  query := none
  fragment := none
  http := nasHost_http
  path_rooted := nas.path_rooted
  path_plain := nas.path_plain
  query_plain := noQuery_plain

def nasKey : Str := "2097f4b80608".toList

theorem nasKeys_eq (k s : Str) (h : nasKeys.get k = some s) : k = proxyKey nasDigest s := by
  by_cases hk : k = proxyKey nasDigest nas.text
  · have hs : nasKeys.get k = some nas.text := hk ▸ nasKeys_registered
    rw [hk, Option.some.inj (h.symm.trans hs)]
  · have hnone : nasKeys.get k = none := AList.lookup_insert_ne hk
    rw [hnone] at h
    simp at h

/-- `/__proxy__2097f4b80608/films?page=2` -/
def filmsPage : Page where
  host := "127.0.0.1:7890".toList
  line := ⟨"/__proxy__2097f4b80608/films".toList, some "page=2".toList, by decide⟩
  host_plain := forall_mem_of_all (by decide)
  path_rooted := by decide
  path_noHash := by decide
  query_noHash := by
    rintro q hq
    obtain rfl : "page=2".toList = q := by simpa using hq
    decide

theorem filmsPage_loaded :
    loaded nasCodec nasKeys filmsPage.line = some (nasFilms.text, nasKey) := by decide

end HomeTier.Redirect
