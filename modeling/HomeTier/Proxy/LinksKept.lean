import HomeTier.Lib.Percent
import HomeTier.Proxy.Links

/-! # Which links keep their target

`LinkKept` is enough for every document. It is also needed, for the references that
are rewritten in documents and for sources without the coincidences that dot
segments, a query or a fragment bring: the path that is asked of the upstream is
compared with the one that is meant, and a source with a path of its own makes it
longer.

Values of attributes are read as they stand, without character references.
-/

namespace HomeTier.Rewriter

open Lib Redirect

variable {C : UrlCodec} {urldecode : Str → Option Str} {km : KeyMap} {around : Surroundings}
  {page : Page} {base : Reference} {B S : HttpUrl} {p key ref : Str}

/-! ## Without coincidences -/

structure PlainDocument (B : HttpUrl) : Prop where
  dir : DirOk B
  path : DotFree (segments B.pathname)

structure PlainSource (S : HttpUrl) : Prop where
  query : S.query = none
  fragment : S.fragment = none
  path : DotFree (segments S.path)

def PlainRef (ref : Str) : Prop := DotFree ((parseTail ref).path.splitOn '/')

theorem PlainDocument.originOk (h : PlainDocument B) : OriginOk B := by
  by_cases hp : B.path = []
  · exact .inr (h.dir.1 hp)
  · exact .inl hp

/-! ## References of other schemes -/

theorem prefix_encodeProxy (baseUrl proxyPrefix url : Str) :
    proxyPrefix <+: encodeProxy C baseUrl proxyPrefix key url := by
  unfold encodeProxy
  split
  · exact ⟨_, (List.append_assoc _ _ _).symm⟩
  · simp only
    split
    · exact ⟨_, by simp only [List.append_assoc]; rfl⟩
    · exact ⟨_, by simp only [List.append_assoc]; rfl⟩

/-- What looks proxied was not there before. -/
theorem kept_of_unchanged (h : rewriteRef C (contextOf page B.text key) ref = ref) :
    skipProxied (buildProxyPrefix page.host) ref ∨ isRewritable ref = false := by
  by_contra hno
  rw [not_or, Bool.not_eq_true, Bool.not_eq_false] at hno
  rw [rewriteRef_encoded hno.1 hno.2] at h
  have hpre : (buildProxyPrefix page.host).isPrefixOf ref = true := by
    rw [List.isPrefixOf_iff_prefix, ← h]
    exact prefix_encodeProxy _ _ _
  simp [skipProxied, hpre] at hno

/-! ## What is asked, in any case -/

/-- A path is asked of the upstream behind that of the source. -/
theorem asked_path (h : LoadedFrom km page B.text key S p) (hplain : PlainSource S) {rest : Str}
    (hrest : rest.head? = some '/') (hfree : DotFree (segments (parseTail rest).path)) :
    asked (fetch C urldecode km around page.host base
        (buildProxyPrefix page.host ++ "/__proxy__".toList ++ key ++ rest)) =
      some { scheme := some S.scheme, authority := some S.authority,
             path := trimEndMatches '/' S.path ++ (parseTail rest).path,
             query := (parseTail rest).query } := by
  have hp := parseTail_head.2 hrest
  have htarget := @path_rewritten C urldecode _ around _ _ _ _ _ h
    hplain.query hplain.fragment hplain.path _ hrest hfree
  have hscheme : (parseReference
      (buildProxyPrefix page.host ++ "/__proxy__".toList ++ key ++ rest)).scheme.isSome := by
    rw [List.append_assoc, List.append_assoc]
    exact proxied_scheme _ _
  rw [fetch_of_scheme hscheme, ← htarget,
    follow_rewritten h.plain h.source (.inr hp) (stays_of_dotFree hfree 0)]
  rfl

theorem encodeProxy_rooted (hkey : key ≠ []) {baseUrl : Str} (hbase : baseOrigin baseUrl = S.origin)
    (proxyPrefix : Str) {rest : Str} (hrest : rest.head? = some '/') :
    encodeProxy C baseUrl proxyPrefix key (S.origin ++ rest) =
      proxyPrefix ++ "/__proxy__".toList ++ key ++ rest := by
  rcases encodeProxy_keyed (C := C) hkey hbase proxyPrefix (S.origin ++ rest) with
    ⟨rest', -, heq, henc⟩ | ⟨hno, -⟩
  · obtain rfl : rest = rest' := List.append_cancel_left heq
    exact henc
  · exact absurd rfl (hno rest hrest)

theorem baseOrigin_of_loaded (h : LoadedFrom km page B.text key S p) (hplain : PlainSource S) :
    baseOrigin B.text = S.origin := by
  rw [baseOrigin_text (originOk_of_loaded hplain.query hplain.fragment h),
    (document_of_loaded hplain.query hplain.fragment h).1]

/-- A text behind two slashes is an authority and what may follow it. -/
theorem authority_cases (r : Str) : ∃ authority tail, r = authority ++ tail ∧
    (∀ c ∈ ['/', '?', '#'], c ∉ authority) ∧ EndsAuthority tail := by
  let plain : Char → Bool := fun c => c ∉ ['/', '?', '#']
  refine ⟨r.takeWhile plain, r.dropWhile plain, List.takeWhile_append_dropWhile.symm, ?_, ?_⟩
  · intro c hc hmem
    have hpl := List.mem_takeWhile_imp hmem
    simp only [plain, decide_eq_true_eq] at hpl
    exact hpl hc
  · intro c hc
    by_contra hno
    have hhead := List.head?_dropWhile_not plain r
    rw [Option.mem_def] at hc
    rw [hc] at hhead
    simp only [plain] at hhead
    simp [hno] at hhead

/-- An absolute URL of the source's host that is asked for as it is. -/
theorem onSource_of_asked (h : LoadedFrom km page B.text key S p) (hplain : PlainSource S)
    {scheme r : Str} (hscheme : scheme = "http".toList ∨ scheme = "https".toList)
    (hdots : ∀ rest, r = S.authority ++ rest → rest.head? = some '/' →
      DotFree (segments (parseTail rest).path))
    (hasked : asked (fetch C urldecode km around page.host base
        (encodeProxy C B.text (buildProxyPrefix page.host) key
          (scheme ++ ':' :: ("//".toList ++ r)))) =
      some (parseReference (scheme ++ ':' :: ("//".toList ++ r))).target) :
    OnSource S (scheme ++ ':' :: ("//".toList ++ r)) := by
  rcases authority_cases r with ⟨authority, tail, rfl, hauthority, hends⟩
  have hform : scheme ++ ':' :: ("//".toList ++ (authority ++ tail)) =
      scheme ++ "://".toList ++ authority ++ tail := by
    simp
  have hparse := parseReference_http hscheme hauthority hends
  rw [hform] at hasked ⊢
  have hbase := baseOrigin_of_loaded h hplain
  have hdrop : ∀ rest : Str, rest ∈ (S.origin ++ rest).dropPrefix? S.origin := by
    intro rest
    rw [Option.mem_def, List.dropPrefix?_eq_some_iff]
    exact ⟨_, rfl, by simp⟩
  rcases encodeProxy_keyed (C := C) h.ne hbase (buildProxyPrefix page.host)
      (scheme ++ "://".toList ++ authority ++ tail) with
    ⟨rest, hrest, heq, henc⟩ | ⟨hno, rest, hnil, henc⟩
  · -- a path of the source's host
    have hends' : EndsAuthority rest := by
      intro c hc
      rw [hrest, Option.mem_some_iff] at hc
      rw [← hc]
      simp
    have hsource := parse_sameSite S hends'
    rw [← heq, hparse] at hsource
    simp only [Reference.mk.injEq, Option.some.injEq] at hsource
    rcases hsource with ⟨hs, ha, -, -, -⟩
    have hsame : tail = rest := by
      rw [hs, ha] at heq
      exact List.append_cancel_left heq
    have hfree := hdots rest (by rw [ha, hsame]) hrest
    have hself := cleanPath_of_dotFree hfree
    have hp := parseTail_head.2 hrest
    have hne : (parseTail rest).path ≠ [] := by
      intro hnil
      simp [hnil] at hp
    rw [henc, asked_path h hplain hrest hfree, hparse, hsame, Option.some.injEq] at hasked
    have hpath : trimEndMatches '/' S.path ++ (parseTail rest).path = (parseTail rest).path := by
      simpa [Reference.target, hne, hself] using congrArg Target.path hasked
    rw [heq]
    refine ⟨rest, hdrop rest, hends', ?_⟩
    rw [if_pos hrest]
    exact ⟨⟨List.append_left_eq_self.1 hpath, hplain.query, hplain.fragment⟩,
      stays_of_dotFree hfree 0⟩
  · -- anything else goes to the source URL
    rw [henc, asked_bare h hnil, target_text, hparse, Option.some.injEq] at hasked
    have hs : S.scheme = scheme := by
      simpa [Reference.target] using congrArg Target.scheme hasked
    have ha : S.authority = authority := by
      simpa [Reference.target] using congrArg Target.authority hasked
    have hurl : scheme ++ "://".toList ++ authority ++ tail = S.origin ++ tail := by
      rw [Origin.origin, hs, ha]
    have hnot : tail.head? ≠ some '/' := fun hrooted => hno tail hrooted hurl
    have hpath : (parseTail tail).path = [] :=
      (parseTail_rooted hends).resolve_right fun hp => hnot (parseTail_head.1 hp)
    rw [hurl]
    refine ⟨tail, hdrop tail, hends, ?_⟩
    rw [if_neg hnot]
    refine ⟨?_, congrArg Target.query hasked⟩
    simpa [Reference.target, hpath] using congrArg Target.path hasked

/-! ## Relative references -/

/-- What stands in front of the colon is the scheme. -/
theorem splitScheme_cases {s scheme : Str} (h : (splitScheme s).1 = some scheme) :
    ∃ a, s = a ++ ':' :: (splitScheme s).2 := by
  unfold splitScheme at h ⊢
  split at h
  · next c name rest hcut =>
    split at h
    · next hname =>
      refine ⟨c :: name, ?_⟩
      rw [if_pos hname]
      have hjoin := cutAt_join ':' s
      rw [hcut] at hjoin
      exact hjoin.symm
    · simp at h
  · simp at h

/-- Without `://` there is no authority behind a scheme. -/
theorem authority_none {scheme : Str} (hscheme : (parseReference ref).scheme = some scheme)
    (hno : containsText ref "://".toList = false) : (parseReference ref).authority = none := by
  rcases splitScheme_cases hscheme with ⟨a, hform⟩
  have hauthority : (splitAuthority (splitScheme (parseTail ref).path).2).1 = none := by
    unfold splitAuthority
    split
    · next rest heq =>
      refine absurd ?_ (Bool.eq_false_iff.1 hno)
      have hjoin := parseTail_join ref
      rw [hform, heq] at hjoin
      have hfound := containsText_of_append a "://".toList (rest ++
        withDelimiter '?' (parseTail ref).query ++ withDelimiter '#' (parseTail ref).fragment)
      rw [← hjoin]
      simpa using hfound
    · rfl
  exact hauthority

/-- Segments of the directory are segments of the document. -/
theorem dotFree_merged (hdocument : PlainDocument B) (hplain : PlainRef ref) :
    DotFree (segments (mergePath B.pathname (parseTail ref).path)) := by
  rcases baseDir_text hdocument.dir with ⟨dir, last, hpath, -, hmerge, -⟩
  have hd := hdocument.path
  rw [hpath] at hd
  rw [hmerge]
  cases hcase : dir with
  | nil =>
    intro s hs
    exact hplain s (by simpa [segments] using hs)
  | cons c d =>
    have hhead : dir.head? = some '/' := by
      have hroot := B.pathname_rooted
      rw [hpath, hcase] at hroot
      rw [hcase]
      simpa using hroot
    rw [← hcase, segments_append hhead rfl]
    rw [segments_append hhead rfl] at hd
    intro s hs
    rcases List.mem_append.1 hs with hs | hs
    · exact hd s (List.mem_append_left _ hs)
    · exact hplain s (by simpa [segments] using hs)

/-- A relative reference whose path behind that of the source is the one meant: the
source has no path, and the directory of the document is enough. -/
theorem relOk_of_target (hdocument : PlainDocument B) (hplain : PlainRef ref)
    (hhead : ref.head? ≠ some '/') (hno : containsText ref "://".toList = false) {t dir : Str}
    (hmerge : ∀ path, mergePath B.pathname path = dir ++ '/' :: path)
    (htarget : Target.mk (some B.scheme) (some B.authority)
        (t ++ mergePath B.pathname (parseTail ref).path) (parseTail ref).query =
      ((parseReference B.text).resolve (parseReference ref)).target) :
    t = [] ∧ RelOk B ref := by
  have hscheme : (parseReference ref).scheme = none := by
    cases hscheme : (parseReference ref).scheme with
    | none => rfl
    | some scheme =>
      -- `http:path` has no authority, what is asked for has one
      have hnone := authority_none hscheme hno
      have hsome : (parseReference ref).scheme.isSome := by rw [hscheme]; rfl
      rw [resolve_of_scheme _ hsome] at htarget
      have hauthority := congrArg Target.authority htarget
      simp [Reference.target, hnone] at hauthority
  have hrel : (parseTail ref).path.head? ≠ some '/' := fun hr => hhead (parseTail_head.1 hr)
  have hmerged := merge_text B (parseTail ref).path
  rcases baseDir_text hdocument.dir with ⟨dir', last, hpath, hlast, hmerge', -⟩
  have hdir : dir = dir' := by
    have hboth := (hmerge []).symm.trans (hmerge' [])
    exact List.append_cancel_right hboth
  rw [← hdir] at hpath
  rw [parseReference_relative hscheme hhead] at htarget
  by_cases hnil : (parseTail ref).path = []
  · -- the query or nothing: the document itself
    rw [parse_text] at htarget
    simp only [Reference.resolve, hnil, Option.isSome_none, Bool.false_eq_true, if_false,
      if_true] at htarget
    have hself : cleanPath B.pathname = B.pathname := cleanPath_of_dotFree hdocument.path
    have hpaths : t ++ (dir ++ ['/']) = B.pathname := by
      have heq := congrArg Target.path htarget
      simp only [Reference.target, hmerge] at heq
      rw [heq]
      unfold HttpUrl.pathname at hself ⊢
      by_cases hp : B.path = []
      · simp [hp]
      · rw [if_neg hp] at hself ⊢
        rw [if_neg (fun h => hp h.2)]
        exact hself
    have hlastNil : last = [] := by
      cases last with
      | nil => rfl
      | cons c l =>
        have hends := congrArg List.getLast? hpaths
        have hright : (dir ++ '/' :: c :: l).getLast? = (c :: l).getLast? := by
          rw [List.append_cons, List.getLast?_append_of_ne_nil _ (List.cons_ne_nil c l)]
        rw [hpath, hright, ← List.append_assoc, List.getLast?_concat] at hends
        exact absurd (List.mem_of_getLast? hends.symm) hlast
    have ht : t = [] := by
      rw [hpath, hlastNil] at hpaths
      exact List.append_left_eq_self.1 hpaths
    refine ⟨ht, hscheme, hhead, hno, hdocument.dir, fun _ => ⟨?_, ?_⟩⟩
    · rw [hpath, hlastNil]
      simp
    · intro hq
      have heq := congrArg Target.query htarget
      simpa [Reference.target, hq] using heq.symm
  · have hself := cleanPath_of_dotFree (dotFree_merged hdocument hplain)
    rw [hmerge] at hself
    rw [parse_text] at hmerged htarget
    simp only [Reference.resolve, hnil, hrel, Option.isSome_none, Bool.false_eq_true, if_false,
      hmerged] at htarget
    have heq := congrArg Target.path htarget
    simp only [Reference.target, hmerge, hself] at heq
    rw [if_neg (by simp)] at heq
    exact ⟨List.append_left_eq_self.1 heq, hscheme, hhead, hno, hdocument.dir,
      fun h => absurd h hnil⟩

/-- The URL that a relative reference is made. -/
theorem resolveUrl_merged (hdocument : PlainDocument B) (hhttp : isHttp ref = false)
    (hhead : ref.head? ≠ some '/') : ∃ dir, resolveUrl B.text ref = B.origin ++ (dir ++ '/' :: ref) ∧
      (∀ path, mergePath B.pathname path = dir ++ '/' :: path) ∧
      (dir ++ '/' :: ref).head? = some '/' ∧
      (parseTail (dir ++ '/' :: ref)).path = mergePath B.pathname (parseTail ref).path ∧
      (parseTail (dir ++ '/' :: ref)).query = (parseTail ref).query := by
  rcases baseDir_text hdocument.dir with ⟨dir, last, hpath, -, hmerge, hdir⟩
  have hplain : ∀ c ∈ ['?', '#'], c ∉ dir ++ ['/'] := by
    intro c hc hmem
    refine B.pathname_plain c hc ?_
    rw [hpath, List.append_cons]
    exact List.mem_append_left _ hmem
  have htail := parseTail_append hplain ref
  rw [List.append_assoc] at htail
  have hroot : (dir ++ '/' :: ref).head? = some '/' := by
    rw [← hmerge]
    exact mergePath_rooted B.pathname_rooted ref
  refine ⟨dir, ?_, hmerge, hroot, ?_, ?_⟩
  · rw [resolveUrl_relative hhttp hhead, hdir]
    simp
  · rw [hmerge]
    simpa using congrArg LocalPart.path htail
  · simpa using congrArg LocalPart.query htail

/-! ## Only kept links do what they should -/

theorem noAuthority_of_rewritable (h : isRewritable ref = true) (habs : isAbsolute ref = false)
    (hhead : ref.head? ≠ some '/') : containsText ref "://".toList = false := by
  rw [isRewritable, habs] at h
  simpa [hhead] using h

theorem isHttp_of_not_absolute (h : isAbsolute ref = false) : isHttp ref = false := by
  rw [isAbsolute, Bool.or_eq_false_iff] at h
  exact h.1

/-- Without a key. -/
theorem kept_legacy (hplain : ∀ u, '#' ∉ C.urlencode u)
    (hparse : ∀ u, C.formParse ("url=".toList ++ C.urlencode u) = [("url".toList, u)])
    (hskip : skipProxied (buildProxyPrefix page.host) ref = false)
    (hrewritable : isRewritable ref = true) (hdocument : PlainDocument B) (href : PlainRef ref)
    (h : asked (fetch C urldecode km around page.host base
        (rewriteRef C (contextOf page B.text []) ref)) =
      some ((parseReference B.text).resolve (parseReference ref)).target) :
    isAbsolute ref ∨ (ref.head? = some '/' ∧ OriginOk B) ∨ RelOk B ref := by
  cases habs : isAbsolute ref with
  | true => exact .inl rfl
  | false =>
    by_cases hhead : ref.head? = some '/'
    · exact .inr (.inl ⟨hhead, hdocument.originOk⟩)
    · right
      right
      have hno := noAuthority_of_rewritable hrewritable habs hhead
      rcases resolveUrl_merged hdocument (isHttp_of_not_absolute habs) hhead with
        ⟨dir, hurl, hmerge, hroot, hpath, hquery⟩
      have hends : EndsAuthority (dir ++ '/' :: ref) := by
        intro c hc
        rw [hroot, Option.mem_some_iff] at hc
        rw [← hc]
        simp
      have hself := cleanPath_of_dotFree (dotFree_merged hdocument href)
      rw [rewriteRef_encoded hskip hrewritable, asked_legacy hplain hparse, hurl,
        parse_sameSite B hends, hpath, hquery, Option.some.injEq] at h
      refine (relOk_of_target (t := []) hdocument href hhead hno hmerge ?_).2
      rw [← h, Reference.target]
      simp only [hself, List.nil_append]
      rw [if_neg (by simp [hmerge])]

/-- Under a key. -/
theorem kept_keyed (h : LoadedFrom km page B.text key S p) (hsource : PlainSource S)
    (hskip : skipProxied (buildProxyPrefix page.host) ref = false)
    (hrewritable : isRewritable ref = true) (hdocument : PlainDocument B) (href : PlainRef ref)
    (hasked : asked (fetch C urldecode km around page.host base
        (rewriteRef C (contextOf page B.text key) ref)) =
      some ((parseReference B.text).resolve (parseReference ref)).target) :
    KeyedOk S B ref := by
  refine ⟨hsource.query, hsource.fragment, ?_⟩
  rcases document_of_loaded hsource.query hsource.fragment h with ⟨horigin, hscheme, -⟩
  have hbase := baseOrigin_of_loaded h hsource
  rw [rewriteRef_encoded hskip hrewritable] at hasked
  cases hhttp : isHttp ref with
  | true =>
    left
    refine ⟨rfl, ?_⟩
    rw [resolveUrl, if_pos hhttp, ← target_http hhttp] at hasked
    rcases isHttp_iff.1 hhttp with ⟨scheme, r, hs, hform⟩
    subst hform
    refine onSource_of_asked h hsource hs ?_ hasked
    rintro rest rfl hrest
    have hfront : ∀ c ∈ ['?', '#'], c ∉ scheme ++ "://".toList ++ S.authority := by
      intro c hc
      have hs' : c ∉ scheme := by
        rcases hs with rfl | rfl
        · exact forall_mem_of_all (P := fun c => c ∉ "http".toList) (by decide) c hc
        · exact forall_mem_of_all (P := fun c => c ∉ "https".toList) (by decide) c hc
      have hsep : ∀ c ∈ ['?', '#'], c ∉ "://".toList := forall_mem_of_all (by decide)
      simp only [List.mem_append, not_or]
      exact ⟨⟨hs', hsep c hc⟩, S.authority_plain c (List.mem_cons_of_mem _ hc)⟩
    have hpath : (parseTail (scheme ++ ':' :: ("//".toList ++ (S.authority ++ rest)))).path =
        scheme ++ "://".toList ++ S.authority ++ (parseTail rest).path := by
      have htail := congrArg LocalPart.path (parseTail_append hfront rest)
      simpa using htail
    rw [PlainRef, hpath] at href
    exact dotFree_behind href (parseTail_head.2 hrest)
  | false =>
    by_cases hslash : "//".toList <+: ref
    · right
      left
      refine ⟨hslash, ?_⟩
      rw [resolveUrl_network hslash, ← target_network hslash] at hasked
      rcases hslash with ⟨r, rfl⟩
      refine onSource_of_asked h hsource B.http ?_ hasked
      rintro rest rfl hrest
      have hfront : ∀ c ∈ ['?', '#'], c ∉ "//".toList ++ S.authority := by
        intro c hc
        have hsep : ∀ c ∈ ['?', '#'], c ∉ "//".toList := forall_mem_of_all (by decide)
        simp only [List.mem_append, not_or]
        exact ⟨hsep c hc, S.authority_plain c (List.mem_cons_of_mem _ hc)⟩
      have hpath := congrArg LocalPart.path (parseTail_append hfront rest)
      rw [List.append_assoc] at hpath
      rw [PlainRef, hpath] at href
      exact dotFree_behind href (parseTail_head.2 hrest)
    · by_cases hhead : ref.head? = some '/'
      · -- a path of the host
        right
        right
        left
        have hp := parseTail_head.2 hhead
        have hfree : DotFree (segments (parseTail ref).path) :=
          dotFree_behind (a := []) (by rw [List.nil_append]; exact href) hp
        have hself := cleanPath_of_dotFree hfree
        have hne : (parseTail ref).path ≠ [] := by
          intro hnil
          simp [hnil] at hp
        have hends : EndsAuthority ref := by
          intro c hc
          rw [hhead, Option.mem_some_iff] at hc
          rw [← hc]
          simp
        rw [resolveUrl_root hdocument.originOk hhead hslash, horigin,
          encodeProxy_rooted h.ne hbase _ hhead, asked_path h hsource hhead hfree,
          ← target_root hhead hslash, parse_sameSite B hends, Option.some.injEq] at hasked
        have hpath : trimEndMatches '/' S.path ++ (parseTail ref).path = (parseTail ref).path := by
          simpa [Reference.target, hne, hself] using congrArg Target.path hasked
        exact ⟨hhead, hslash,
          ⟨List.append_left_eq_self.1 hpath, hsource.query, hsource.fragment⟩,
          stays_of_dotFree hfree 0⟩
      · right
        right
        right
        have habs : isAbsolute ref = false := by
          rw [isAbsolute, hhttp, Bool.false_or, ← Bool.not_eq_true, List.isPrefixOf_iff_prefix]
          exact hslash
        have hno := noAuthority_of_rewritable hrewritable habs hhead
        rcases resolveUrl_merged hdocument hhttp hhead with
          ⟨dir, hurl, hmerge, hroot, hpath, hquery⟩
        have hfree := dotFree_merged hdocument href
        rw [hurl, horigin, encodeProxy_rooted h.ne hbase _ hroot,
          asked_path h hsource hroot (hpath ▸ hfree), hpath, hquery, ← hscheme,
          Option.some.injEq] at hasked
        have hauthority : S.authority = B.authority := by
          rw [Origin.origin, Origin.origin, hscheme] at horigin
          exact (List.append_cancel_left horigin).symm
        rw [hauthority] at hasked
        rcases relOk_of_target hdocument href hhead hno hmerge hasked with ⟨htrim, hrel⟩
        exact ⟨hrel, ⟨htrim, hsource.query, hsource.fragment⟩, stays_of_dotFree hfree 0⟩

/-! ## Every link of a document -/

/-- `urlencoding::encode` leaves letters, digits and four marks. -/
def Encodes (C : UrlCodec) : Prop :=
  ∀ u, ∀ c ∈ C.urlencode u, c.isAlphanum = true ∨ c ∈ "-_.~%".toList

theorem Encodes.notMem {c : Char} (h : Encodes C) (hc : c ∈ '#' :: marks) (u : Str) :
    c ∉ C.urlencode u := by
  intro hmem
  have hno : ∀ c ∈ '#' :: marks, ¬ (c.isAlphanum = true ∨ c ∈ "-_.~%".toList) :=
    forall_mem_of_all (by decide)
  exact hno c hc (h u c hmem)

/-- Percent encoding of everything but letters and digits. -/
def percentCodec : UrlCodec where
  urlencode := percentEncode Char.isAlphanum
  formParse := fun s =>
    match (s.dropPrefix? "url=".toList).bind percentDecode with
    | some u => [("url".toList, u)]
    | none => []

theorem percentCodec_parse (u : Str) :
    percentCodec.formParse ("url=".toList ++ percentCodec.urlencode u) = [("url".toList, u)] := by
  have hdrop : ("url=".toList ++ percentEncode Char.isAlphanum u).dropPrefix? "url=".toList =
      some (percentEncode Char.isAlphanum u) := by
    rw [List.dropPrefix?_eq_some_iff]
    exact ⟨_, rfl, by simp⟩
  have hdecode : percentDecode (percentEncode Char.isAlphanum u) = some u :=
    percentDecode_percentEncode (by decide) u
  simp only [percentCodec, hdrop, Option.bind_some, hdecode]

theorem percentCodec_encodes : Encodes percentCodec := by
  intro u c hc
  rcases mem_percentEncode hc with h | h | h
  · exact .inl h
  · exact .inr (h ▸ by decide)
  · have hdigits : ∀ c ∈ upperHexDigits, c.isAlphanum = true := forall_mem_of_all (by decide)
    exact .inl (hdigits c h)

theorem filmsPage_percent :
    loaded percentCodec nasKeys filmsPage.line = some (nasFilms.text, nasKey) := by decide

/-- Letters, digits and the underscore. -/
def isAsciiWord (c : Char) : Bool := c.isAlphanum || c = '_'

def filmsHtml : Str :=
  "<img src=\"/films/1.png\"><img src=\"data:image/png;base64,iVBORw0K\"><img src=\"/url(1).png\">".toList

def posterLink : Link :=
  ("/films/1.png".toList, "http://127.0.0.1:7890/__proxy__2097f4b80608/films/1.png".toList)

def dataLink : Link :=
  ("data:image/png;base64,iVBORw0K".toList,
    "http://127.0.0.1:7890/__proxy__2097f4b80608/data:image/png;base64,iVBORw0K".toList)

/-- The pass over style sheets has found a reference in the name of the file. -/
def urlLink : Link :=
  ("/url(1).png".toList, ("http://127.0.0.1:7890/__proxy__2097f4b80608/".toList ++
    "url(http://127.0.0.1:7890/__proxy__2097f4b80608/1).png".toList))

theorem filmsHtml_links :
    linksOf percentCodec isAsciiWord (contextOf filmsPage nasFilms.text nasKey) .html filmsHtml =
      [posterLink, dataLink, urlLink,
        ("1".toList, "http://127.0.0.1:7890/__proxy__2097f4b80608/1".toList)] := by
  decide +kernel

end HomeTier.Rewriter
