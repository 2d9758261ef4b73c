import HomeTier.Proxy.LinksKept

/-! # URLs that a page makes up

What the rewriting of a document cannot see, the script of the page does when a
URL is used: `R` for `fetch`, requests and elements, `w` for `location`
(`inject_local_http_script` of `src-tauri/src/proxy/hometier_protocol.rs`). They
put behind the key what starts with the source's origin `O`, with the page's own
origin `F`, or with a slash. A URL without scheme and slash is left to the
browser, which resolves it against the `<base>` that `rewrite_urls` has put into
the document: the root of the key, whatever the path of the page is.

`runtime_faithful` says which of them are requested as the page means them. A page
reads its origin from `location`, so one that starts with `F` means the source.
-/

namespace HomeTier.PageScript

open Lib Redirect Rewriter

/-! ## The script -/

/-- What follows an origin, behind the key. -/
def behindKey (K F rest : Str) : Str := F ++ "/__proxy__".toList ++ K ++ rest

/-- `R`, for key, source origin and own origin -/
def R (K O F u : Str) : Str :=
  if u = [] then u
  else if containsText u "/__proxy__".toList then u
  else
    match if O = [] then none else u.dropPrefix? O with
    | some rest => behindKey K F rest
    | none =>
      match u.dropPrefix? F with
      | some rest => behindKey K F rest
      | none => if u.head? = some '/' then behindKey K F u else u

/-- `w` does not look for the own origin. -/
def w (K O F u : Str) : Str :=
  if u = [] then u
  else if containsText u "/__proxy__".toList then u
  else
    match if O = [] then none else u.dropPrefix? O with
    | some rest => behindKey K F rest
    | none => if u.head? = some '/' then behindKey K F u else u

section Script

variable {K O F u : Str}

theorem dropPrefix?_append (a b : Str) : (a ++ b).dropPrefix? a = some b := by
  rw [List.dropPrefix?_eq_some_iff]
  exact ⟨a, rfl, by simp⟩

theorem dropPrefix?_eq_none {a u : Str} (h : ¬ a <+: u) : u.dropPrefix? a = none := by
  rw [← Option.not_isSome_iff_eq_none]
  intro hsome
  rcases Option.isSome_iff_exists.1 hsome with ⟨rest, hrest⟩
  rw [List.dropPrefix?_eq_some_iff] at hrest
  rcases hrest with ⟨pre, hform, hpre⟩
  obtain rfl : pre = a := by simpa using hpre
  exact h ⟨rest, hform.symm⟩

theorem w_eq_R (h : ¬ F <+: u) : w K O F u = R K O F u := by
  unfold w R
  rw [dropPrefix?_eq_none h]

variable (hnew : containsText u "/__proxy__".toList = false)
include hnew

theorem R_source (hO : O ≠ []) {rest : Str} (hu : u = O ++ rest) :
    R K O F u = behindKey K F rest := by
  have hne : u ≠ [] := by
    rw [hu]
    simp [hO]
  have hdrop : u.dropPrefix? O = some rest := by
    rw [hu]
    exact dropPrefix?_append O rest
  unfold R
  rw [if_neg hne, hnew, if_neg Bool.false_ne_true, if_neg hO, hdrop]

theorem R_own (hO : ¬ O <+: u) (hF : F ≠ []) {rest : Str} (hu : u = F ++ rest) :
    R K O F u = behindKey K F rest := by
  have hne : u ≠ [] := by
    rw [hu]
    simp [hF]
  have hno : (if O = [] then none else u.dropPrefix? O) = none := by
    split
    · rfl
    · exact dropPrefix?_eq_none hO
  have hdrop : u.dropPrefix? F = some rest := by
    rw [hu]
    exact dropPrefix?_append F rest
  unfold R
  rw [if_neg hne, hnew, if_neg Bool.false_ne_true, hno, hdrop]

/-- What starts with neither origin goes behind the key if it starts with a slash. -/
theorem R_other (hO : ¬ O <+: u) (hF : ¬ F <+: u) :
    R K O F u = if u.head? = some '/' then behindKey K F u else u := by
  have hno : (if O = [] then none else u.dropPrefix? O) = none := by
    split
    · rfl
    · exact dropPrefix?_eq_none hO
  unfold R
  rw [hno, dropPrefix?_eq_none hF]
  split
  · rename_i hnil
    rw [hnil]
    rfl
  · rw [hnew, if_neg Bool.false_ne_true]

end Script

/-! ## Requests of a page -/

/-- On the page of the source, a URL that was built from `location.origin` starts with the
source's. -/
def meant (O F u : Str) : Str :=
  match u.dropPrefix? F with
  | some rest => O ++ rest
  | none => u

/-- `<base>` of the documents under a key -/
def baseHref (page : Page) (key : Str) : Str :=
  buildProxyPrefix page.host ++ "/__proxy__".toList ++ key ++ ['/']

/-- A reference without scheme and slash, in a document that lies in the directory of the
source URL; an empty path or query stands for that of the document. -/
structure Beside (S B : HttpUrl) (u : Str) : Prop where
  scheme : (parseReference u).scheme = none
  head : u.head? ≠ some '/'
  dir : mergePath B.pathname [] = trimEndMatches '/' S.path ++ ['/']
  self : (parseTail u).path = [] → B.pathname = trimEndMatches '/' S.path ++ ['/'] ∧
    ((parseTail u).query = none → B.query = none)

/-- The URLs that are requested as they are meant. -/
def RuntimeKept (S B : HttpUrl) (page : Page) (u : Str) : Prop :=
  OnSource S (meant S.origin (buildProxyPrefix page.host) u) ∨ RootPath S u ∨
    ((parseReference u).scheme.isSome ∧
      ¬ S.origin <+: meant S.origin (buildProxyPrefix page.host) u) ∨
    Beside S B u

section Requests

variable {C : UrlCodec} {urldecode : Str → Option Str} {km : KeyMap} {around : Surroundings}
  {page : Page} {base : Reference} {B S : HttpUrl} {p key u : Str}

theorem meant_own (O F rest : Str) : meant O F (F ++ rest) = O ++ rest := by
  rw [meant, dropPrefix?_append]

theorem meant_other {O F : Str} (h : ¬ F <+: u) : meant O F u = u := by
  rw [meant, dropPrefix?_eq_none h]

theorem origin_ne (S : HttpUrl) : S.origin ≠ [] := by
  rw [Origin.origin]
  simp

theorem scheme_source (S : HttpUrl) (rest : Str) :
    (parseReference (S.origin ++ rest)).scheme.isSome := by
  rw [Option.isSome_iff_ne_none]
  apply isHttp_scheme
  rw [Origin.origin, List.append_assoc]
  exact isHttp_append S.http _

/-- Behind the key the base does not matter. -/
theorem fetch_behindKey (rest : Str) :
    fetch C urldecode km around page.host base
        (behindKey key (buildProxyPrefix page.host) rest) =
      follow C urldecode km around page
        (buildProxyPrefix page.host ++ "/__proxy__".toList ++ key ++ rest) := by
  have hscheme : (parseReference (behindKey key (buildProxyPrefix page.host) rest)).scheme.isSome := by
    rw [behindKey, List.append_assoc, List.append_assoc]
    exact proxied_scheme _ _
  exact fetch_of_scheme hscheme

/-! ### Paths beside the document -/

theorem parse_baseHref (hkey : PlainKey key) : parseReference (baseHref page key) =
    { scheme := some "http".toList, authority := some page.host,
      path := "/__proxy__".toList ++ key ++ ['/'], query := none, fragment := none } := by
  have hplain : ∀ c ∈ ['?', '#'], c ∉ "/__proxy__".toList ++ key ++ ['/'] :=
    plain_under hkey (forall_mem_of_all (by decide))
  have htail := @parseTail_of_plain _ none none hplain (by simp)
  rw [withDelimiter, withDelimiter, List.append_nil, List.append_nil] at htail
  have hroot : ("/__proxy__".toList ++ key ++ ['/']).head? = some '/' := rfl
  have hends := endsAuthority_of_rooted hroot []
  rw [List.append_nil] at hends
  have hread := parseReference_http (.inl rfl) page.host_plain hends
  rw [htail] at hread
  have hform : ∀ path : Str, buildProxyPrefix page.host ++ path =
      "http".toList ++ "://".toList ++ page.host ++ path := by
    intro path
    unfold buildProxyPrefix
    rw [httpPrefix_eq]
    simp only [List.append_assoc]
    rfl
  rw [baseHref, List.append_assoc, List.append_assoc, ← List.append_assoc "/__proxy__".toList,
    hform, hread]

/-- Below the root of the key. -/
theorem fetch_beside (hkey : PlainKey key) (hscheme : (parseReference u).scheme = none)
    (hhead : u.head? ≠ some '/') (hfree : DotFree ((parseTail u).path.splitOn '/')) :
    fetch C urldecode km around page.host (parseReference (baseHref page key)) u =
      follow C urldecode km around page
        (buildProxyPrefix page.host ++ "/__proxy__".toList ++ key ++ '/' :: u) := by
  have hslash : (parseTail ('/' :: u)).path = '/' :: (parseTail u).path ∧
      (parseTail ('/' :: u)).query = (parseTail u).query ∧
      (parseTail ('/' :: u)).fragment = (parseTail u).fragment := by
    have happ := parseTail_append (a := ['/']) (forall_mem_of_all (by decide)) u
    rw [List.singleton_append] at happ
    rw [happ]
    exact ⟨rfl, rfl, rfl⟩
  have hsegments : DotFree (segments ('/' :: (parseTail u).path)) := hfree
  have habsolute := @resolve_rewritten page _ hkey ('/' :: u) [] ('/' :: (parseTail u).path)
    (by rwa [List.append_nil]) hslash.1 (.inr rfl) (stays_of_dotFree hsegments 0)
  rw [List.append_nil, hslash.2.1, hslash.2.2, cleanPath_of_dotFree hsegments] at habsolute
  have hrel : (parseTail u).path.head? ≠ some '/' := fun hr => hhead (parseTail_head.1 hr)
  -- beside the base of the page, under the key's prefix: one and the same URL
  have hsame : (parseReference (baseHref page key)).resolve (parseReference u) =
      (parseReference page.url).resolve (parseReference
        (buildProxyPrefix page.host ++ "/__proxy__".toList ++ key ++ '/' :: u)) := by
    rw [habsolute, parse_baseHref hkey, parseReference_relative hscheme hhead]
    by_cases hnil : (parseTail u).path = []
    · have hq : (if (parseTail u).query.isSome then (parseTail u).query else none) =
          (parseTail u).query := by
        cases (parseTail u).query with
        | none => rfl
        | some q => rfl
      simp only [Reference.resolve, hnil, hq, Option.isSome_none, Bool.false_eq_true, if_false,
        if_true]
    · have hne : "/__proxy__".toList ++ key ++ ['/'] ≠ [] := by simp
      have hmerge : mergePath ("/__proxy__".toList ++ key ++ ['/']) (parseTail u).path =
          "/__proxy__".toList ++ key ++ '/' :: (parseTail u).path :=
        mergePath_append ("/__proxy__".toList ++ key) (p := ['/']) rfl (parseTail u).path
      have hclean := cleanPath_under hkey (p := '/' :: (parseTail u).path) (.inr rfl)
        (stays_of_dotFree hsegments 0)
      rw [cleanPath_of_dotFree hsegments] at hclean
      simp only [Reference.resolve, Reference.merge, hnil, hrel, hne, hmerge, hclean,
        Option.isSome_none, Bool.false_eq_true, if_false, and_false]
  unfold follow fetch
  rw [hsame]

/-- A path in a directory without dot segments. -/
theorem dotFree_mergePath {path merged : Str} (hrooted : merged.head? = some '/')
    (hbase : DotFree (segments merged)) (hpath : DotFree (path.splitOn '/')) :
    DotFree (segments (mergePath merged path)) := by
  rcases mergePath_cases (List.mem_of_mem_head? hrooted) with ⟨dir, last, hform, -, hmerge⟩
  have hmerged := hmerge [] path
  rw [List.nil_append, List.nil_append] at hmerged
  rw [hmerged]
  intro s hs
  cases hdir : dir with
  | nil =>
    rw [hdir] at hs
    exact hpath s hs
  | cons c d =>
    have hhead : dir.head? = some '/' := by
      rw [hform, hdir] at hrooted
      rw [hdir]
      exact hrooted
    rw [segments_append hhead rfl] at hs
    rw [hform, segments_append hhead rfl] at hbase
    rcases List.mem_append.1 hs with hs | hs
    · exact hbase s (List.mem_append_left _ hs)
    · exact hpath s hs

/-- What a reference without scheme and slash means. -/
theorem target_beside (hdocument : DotFree (segments B.pathname))
    (hscheme : (parseReference u).scheme = none) (hhead : u.head? ≠ some '/')
    (hfree : DotFree ((parseTail u).path.splitOn '/')) :
    ((parseReference B.text).resolve (parseReference u)).target =
      { scheme := some B.scheme, authority := some B.authority,
        path := if (parseTail u).path = [] then B.pathname
          else mergePath B.pathname (parseTail u).path,
        query := if (parseTail u).path = [] ∧ (parseTail u).query = none then B.query
          else (parseTail u).query } := by
  have hrel : (parseTail u).path.head? ≠ some '/' := fun hr => hhead (parseTail_head.1 hr)
  rw [parseReference_relative hscheme hhead]
  by_cases hnil : (parseTail u).path = []
  · have hself : cleanPath B.pathname = B.pathname := cleanPath_of_dotFree hdocument
    have hpath : (if B.path = [] then ['/'] else cleanPath B.path) = B.pathname := by
      unfold HttpUrl.pathname at hself ⊢
      by_cases hp : B.path = []
      · rw [if_pos hp, if_pos hp]
      · rw [if_neg hp] at hself ⊢
        rw [if_neg hp]
        exact hself
    have hq : (if (parseTail u).query.isSome then (parseTail u).query else B.query) =
        if (parseTail u).query = none then B.query else (parseTail u).query := by
      cases (parseTail u).query with
      | none => rfl
      | some q => rfl
    rw [parse_text]
    simp only [Reference.resolve, Reference.target, hnil, hq, Option.isSome_none, Option.isSome_some,
      Bool.false_eq_true, if_false, if_true, true_and, hpath]
  · have hclean := cleanPath_of_dotFree (dotFree_mergePath B.pathname_rooted hdocument hfree)
    have hne : mergePath B.pathname (parseTail u).path ≠ [] := by
      intro h
      have hrooted := mergePath_rooted B.pathname_rooted (parseTail u).path
      rw [h] at hrooted
      cases hrooted
    have hmerged := merge_text B (parseTail u).path
    rw [parse_text] at hmerged ⊢
    simp only [Reference.resolve, Reference.target, hnil, hrel, hmerged, hclean, hne,
      Option.isSome_none, Option.isSome_some, Bool.false_eq_true, if_false, false_and, and_false]

theorem authority_loaded (h : LoadedFrom km page B.text key S p) (hquery : S.query = none)
    (hfragment : S.fragment = none) : B.scheme = S.scheme ∧ B.authority = S.authority := by
  rcases document_of_loaded hquery hfragment h with ⟨horigin, hscheme, -⟩
  rw [Origin.origin, Origin.origin, hscheme] at horigin
  exact ⟨hscheme, List.append_cancel_left horigin⟩

/-- Such a reference is requested as it is meant if the document lies in the directory of the
source URL, and only then. -/
theorem beside_iff (h : LoadedFrom km page B.text key S p) (hplain : Plain S u)
    (hdocument : DotFree (segments B.pathname)) (hscheme : (parseReference u).scheme = none)
    (hhead : u.head? ≠ some '/') :
    (fetch C urldecode km around page.host (parseReference (baseHref page key)) u).target =
      some ((parseReference B.text).resolve (parseReference u)).target ↔ Beside S B u := by
  have hslash : parseTail ('/' :: u) = { parseTail u with path := '/' :: (parseTail u).path } :=
    parseTail_append (a := ['/']) (forall_mem_of_all (by decide)) u
  have hfree : DotFree (segments (parseTail ('/' :: u)).path) := by
    rw [hslash]
    exact hplain.loc
  rcases authority_loaded h hplain.query hplain.fragment with ⟨hs, ha⟩
  rw [fetch_beside h.plain hscheme hhead hplain.loc,
    path_rewritten h hplain.query hplain.fragment hplain.path rfl hfree,
    target_beside hdocument hscheme hhead hplain.loc, hs, ha, hslash]
  simp only [Option.some.injEq, Target.mk.injEq, true_and]
  rcases mergePath_cases (List.mem_of_mem_head? B.pathname_rooted) with ⟨dir, last, -, -, hmerge⟩
  have hmerged : ∀ path, mergePath B.pathname path = dir ++ '/' :: path := hmerge []
  -- a reference without a path names the document again, with its query
  by_cases hnil : (parseTail u).path = []
  · simp only [hnil, if_true, true_and]
    have hqueries : (parseTail u).query =
        (if (parseTail u).query = none then B.query else (parseTail u).query) ↔
        ((parseTail u).query = none → B.query = none) := by
      cases (parseTail u).query with
      | none =>
        rw [if_pos rfl]
        exact ⟨fun heq _ => heq.symm, fun heq => (heq rfl).symm⟩
      | some q => exact iff_of_true (if_neg nofun).symm nofun
    rw [hqueries]
    constructor
    · rintro ⟨hpath, hq⟩
      have hdir : mergePath B.pathname [] = trimEndMatches '/' S.path ++ ['/'] := by
        rw [← hpath]
        exact mergePath_append _ (p := ['/']) rfl []
      exact ⟨hscheme, hhead, hdir, fun _ => ⟨hpath.symm, hq⟩⟩
    · intro hbeside
      rcases hbeside.self hnil with ⟨hpath, hq⟩
      exact ⟨hpath.symm, hq⟩
  · simp only [hnil, if_false, false_and, and_true]
    rw [hmerged]
    constructor
    · intro hpath
      have hdir : mergePath B.pathname [] = trimEndMatches '/' S.path ++ ['/'] := by
        rw [hmerged, List.append_cancel_right hpath]
      exact ⟨hscheme, hhead, hdir, fun h => absurd h hnil⟩
    · intro hbeside
      have hdir := hbeside.dir
      rw [hmerged] at hdir
      rw [List.append_cancel_right hdir]

/-! ### All URLs -/

/-- What is put behind the key is requested like a redirect that is put there. -/
theorem rewritten_iff (h : LoadedFrom km page B.text key S p)
    (hkeys : ∀ k s, km.get k = some s → k.length = key.length) {loc rest : Str}
    (hplain : Plain S loc) (hrewritten : Rewritten B.text loc)
    (hloc : location page B.text key loc =
      buildProxyPrefix page.host ++ "/__proxy__".toList ++ key ++ rest) :
    (fetch C urldecode km around page.host base
        (behindKey key (buildProxyPrefix page.host) rest)).target =
      some ((parseReference B.text).resolve (parseReference loc)).target ↔
      OnSource S loc ∨ RootPath S loc := by
  rw [fetch_behindKey, ← hloc]
  constructor
  · intro hexact
    rcases kept_of_faithful h hkeys hplain hrewritten (.of_exact hexact) with hroot | hsame
    · exact .inr hroot
    · exact .inl hsame.2
  · rintro (hsource | hroot)
    · exact (faithful_sameSite h ⟨upstreamBase_eq h hplain, hsource⟩).exact
    · exact (faithful_rootPath h hroot).exact

theorem head_source (S : HttpUrl) (rest : Str) : (S.origin ++ rest).head? ≠ some '/' := by
  apply head_of_scheme
  rw [← Option.isSome_iff_ne_none]
  exact scheme_source S rest

theorem source_of_onSource (h : OnSource S u) : S.origin <+: u := by
  rcases h with ⟨rest, hdrop, -⟩
  rw [Option.mem_def, List.dropPrefix?_eq_some_iff] at hdrop
  rcases hdrop with ⟨pre, hform, hpre⟩
  obtain rfl : pre = S.origin := by simpa using hpre
  exact ⟨rest, hform.symm⟩

theorem faithful_source (h : LoadedFrom km page B.text key S p)
    (hkeys : ∀ k s, km.get k = some s → k.length = key.length) {rest : Str}
    (hplain : Plain S (S.origin ++ rest)) :
    (fetch C urldecode km around page.host base
        (behindKey key (buildProxyPrefix page.host) rest)).target =
      some ((parseReference B.text).resolve (parseReference (S.origin ++ rest))).target ↔
      OnSource S (S.origin ++ rest) := by
  have hbase := upstreamBase_eq h hplain
  have hloc : location page _ key (S.origin ++ rest) =
      buildProxyPrefix page.host ++ "/__proxy__".toList ++ key ++ rest :=
    location_base h.ne (head_source S rest) (splitUpstream_ne hbase)
      (congrArg (· ++ rest) hbase.symm)
  rw [rewritten_iff h hkeys hplain (.inr ⟨rest, congrArg (· ++ rest) hbase⟩) hloc]
  refine or_iff_left ?_
  exact fun hroot => head_source S rest hroot.1

theorem faithful_root (h : LoadedFrom km page B.text key S p)
    (hkeys : ∀ k s, km.get k = some s → k.length = key.length) (hplain : Plain S u)
    (hhead : u.head? = some '/') :
    (fetch C urldecode km around page.host base
        (behindKey key (buildProxyPrefix page.host) u)).target =
      some ((parseReference B.text).resolve (parseReference u)).target ↔ RootPath S u := by
  rw [rewritten_iff h hkeys hplain (.inl hhead) (location_slash h.ne hhead)]
  refine or_iff_right ?_
  intro hsource
  rcases source_of_onSource hsource with ⟨rest, rfl⟩
  exact head_source S rest hhead

/-- A URL of another site is requested from there. -/
theorem fetch_elsewhere (hscheme : (parseReference u).scheme.isSome)
    (hsite : site (parseReference u) ≠ (some "http".toList, some page.host)) :
    (fetch C urldecode km around page.host base u).target =
      some ((parseReference B.text).resolve (parseReference u)).target := by
  have hout : fetch C urldecode km around page.host base u =
      .outside (base.resolve (parseReference u)) := by
    refine if_neg ?_
    rw [resolve_of_scheme _ hscheme]
    rintro ⟨hs, ha⟩
    exact hsite (Prod.ext hs ha)
  rw [hout, Followed.target, resolve_of_scheme _ hscheme, resolve_of_scheme _ hscheme]

theorem extractOrigin_text (hplain : Plain S u) : extractOrigin S.text = S.origin := by
  rw [text_plain hplain.query hplain.fragment]
  exact S.extractOrigin_rooted S.path_rooted

end Requests

/-- `location.origin + "/login"` -/
def loginUrl : Str := buildProxyPrefix filmsPage.host ++ "/login".toList

theorem meant_loginUrl : meant nasRoot.origin (buildProxyPrefix filmsPage.host) loginUrl =
    nasRoot.origin ++ "/login".toList :=
  meant_own ..

end HomeTier.PageScript
