import HomeTier.Proxy.Redirect

/-! # Where a redirect to the proxy ends

The browser reads a URL of the proxy back into a request line, the decoder appends
the path behind the key to the source URL, and the result is read as a URL again.
-/

namespace HomeTier.Redirect

open Lib HttpForward

variable {C : UrlCodec} {urldecode : Str → Option Str} {km : KeyMap} {around : Surroundings}
  {page : Page} {forwardUrl key loc : Str}

/-! ## Reading back what is written -/

theorem splitScheme_http {scheme : Str}
    (h : scheme = "http".toList ∨ scheme = "https".toList) (rest : Str) :
    splitScheme (scheme ++ ':' :: rest) = (some scheme, rest) := by
  rcases h with rfl | rfl
  · exact @splitScheme_append 'h' "ttp".toList (by decide) (by decide) rest
  · exact @splitScheme_append 'h' "ttps".toList (by decide) (by decide) rest

theorem parseReference_http {scheme authority tail : Str}
    (h : scheme = "http".toList ∨ scheme = "https".toList)
    (hauthority : ∀ c ∈ ['/', '?', '#'], c ∉ authority) (htail : EndsAuthority tail) :
    parseReference (scheme ++ "://".toList ++ authority ++ tail) =
      { scheme := some scheme, authority := some authority, path := (parseTail tail).path,
        query := (parseTail tail).query, fragment := (parseTail tail).fragment } := by
  refine parseReference_absolute (splitScheme_http h _) ?_ hauthority htail
  rcases h with rfl | rfl
  · exact forall_mem_of_all (by decide)
  · exact forall_mem_of_all (by decide)

theorem endsAuthority_of_rooted {p : Str} (h : p.head? = some '/') (s : Str) :
    EndsAuthority (p ++ s) := by
  intro c hc
  rw [List.head?_append, h, Option.some_or, Option.mem_some_iff] at hc
  rw [← hc]
  simp

theorem Page.parse_url (page : Page) : parseReference page.url =
    { scheme := some "http".toList, authority := some page.host, path := page.line.path,
      query := page.line.query, fragment := none } := by
  have hpath : ∀ c ∈ ['?', '#'], c ∉ page.line.path := by
    intro c hc
    rcases List.mem_cons.1 hc with rfl | hc
    · exact page.line.path_plain
    · rcases List.mem_singleton.1 hc with rfl
      exact page.path_noHash
  have htail := @parseTail_of_plain _ _ none hpath page.query_noHash
  rw [withDelimiter, List.append_nil] at htail
  have hread := parseReference_http (.inl rfl) page.host_plain
    (endsAuthority_of_rooted page.path_rooted (withDelimiter '?' page.line.query))
  rw [htail] at hread
  exact hread

/-- The browser's request line for a URL of the proxy. -/
theorem requestTarget_line (pre : Str) {line : RequestLine} (hpath : '#' ∉ line.path)
    (hquery : ∀ q ∈ line.query, '#' ∉ q) (fragment : Option Str) :
    requestTarget pre (pre ++ (line.path ++ withDelimiter '?' line.query ++
      withDelimiter '#' fragment)) = some line := by
  have hdrop : (pre ++ (line.path ++ withDelimiter '?' line.query ++
      withDelimiter '#' fragment)).dropPrefix? pre =
      some (line.path ++ withDelimiter '?' line.query ++ withDelimiter '#' fragment) := by
    rw [List.dropPrefix?_eq_some_iff]
    exact ⟨pre, rfl, by simp⟩
  have hfront : '#' ∉ line.path ++ withDelimiter '?' line.query := by
    rw [List.mem_append, not_or]
    refine ⟨hpath, ?_⟩
    cases hq : line.query with
    | none => simp [withDelimiter]
    | some q => simpa [withDelimiter] using hquery q hq
  simp only [requestTarget, hdrop, cutAt_withDelimiter hfront,
    cutAt_withDelimiter line.path_plain]

theorem httpPrefix_eq : "http://".toList = "http".toList ++ [':', '/', '/'] := by decide

/-- The URL of the proxy with a request line. -/
def ofLine (page : Page) (line : RequestLine) (fragment : Option Str) : Reference where
  scheme := some "http".toList
  authority := some page.host
  path := line.path
  query := line.query
  fragment := fragment

theorem ofLine_text (line : RequestLine) (fragment : Option Str) :
    (ofLine page line fragment).text = buildProxyPrefix page.host ++
      (line.path ++ withDelimiter '?' line.query ++ withDelimiter '#' fragment) := by
  unfold Reference.text ofLine buildProxyPrefix
  rw [httpPrefix_eq]
  generalize "http".toList = scheme
  simp

/-- A redirect to a URL of the proxy's host comes back as a request line. -/
theorem follow_proxied {line : RequestLine} {fragment : Option Str} (hpath : '#' ∉ line.path)
    (hquery : ∀ q ∈ line.query, '#' ∉ q)
    (hurl : (parseReference page.url).resolve (parseReference loc) = ofLine page line fragment) :
    follow C urldecode km around page loc = .ofServed (serve C urldecode km around line) := by
  have hline := requestTarget_line (buildProxyPrefix page.host) hpath hquery fragment
  have hsite : (ofLine page line fragment).scheme = some "http".toList ∧
      (ofLine page line fragment).authority = some page.host := by
    simp only [ofLine, and_self]
  simp only [follow, fetch, hurl, if_pos hsite, ofLine_text, hline]

/-! ## The decoder -/

theorem serve_of_upstream {t : RequestLine} {url : Str} (h : upstream C km t = some url) :
    serve C urldecode km around t = some url := by
  unfold upstream at h
  unfold serve
  split at h
  · next u hhandle =>
    rw [hhandle]
    exact h
  · simp at h

/-- Without query and fragment, a key ends at the first slash. -/
theorem splitKey_cases {rest : Str} (h : ∀ c ∈ ['?', '#'], c ∉ rest) :
    ∃ key p, rest = key ++ p ∧ PlainKey key ∧ (p = [] ∨ p.head? = some '/') ∧
      splitKey rest = (key, p) := by
  by_cases hslash : '/' ∈ rest
  · rcases List.eq_append_cons_of_mem hslash with ⟨a, b, rfl, ha⟩
    have hplain : PlainKey a := by
      intro c hc hmem
      rcases List.mem_cons.1 hc with rfl | hc
      · exact ha hmem
      · exact h c hc (List.mem_append_left _ hmem)
    exact ⟨a, '/' :: b, rfl, hplain, .inr rfl, splitKey_append hplain (.inr rfl)⟩
  · have hplain : PlainKey rest := by
      intro c hc hmem
      rcases List.mem_cons.1 hc with rfl | hc
      · exact hslash hmem
      · exact h c hc hmem
    have hsplit := splitKey_append hplain (.inl (rfl : ([] : Str) = []))
    rw [List.append_nil] at hsplit
    exact ⟨rest, [], (List.append_nil rest).symm, hplain, .inl rfl, hsplit⟩

/-- Where a page under a key comes from. -/
theorem loaded_key (h : loaded C km page.line = some (forwardUrl, key)) (hkey : key ≠ []) :
    PlainKey key ∧ ∃ source p, km.get key = some source ∧
      page.line.path = "/__proxy__".toList ++ key ++ p ∧ (p = [] ∨ p.head? = some '/') ∧
      forwardUrl = if p = [] then source
        else trimEndMatches '/' source ++ p ++ withDelimiter '?' page.line.query := by
  unfold loaded at h
  split at h
  · next rest hdrop =>
    rw [List.dropPrefix?_eq_some_iff] at hdrop
    rcases hdrop with ⟨pre, hpath, hpre⟩
    obtain rfl : pre = "/__proxy__".toList := by simpa using hpre
    have hno : ∀ c ∈ ['?', '#'], c ∉ rest := by
      intro c hc hmem
      have hpage : c ∈ page.line.path := by
        rw [hpath]
        exact List.mem_append_right _ hmem
      rcases List.mem_cons.1 hc with rfl | hc
      · exact page.line.path_plain hpage
      · rcases List.mem_singleton.1 hc with rfl
        exact page.path_noHash hpage
    split at h
    · next url hurl =>
      rcases splitKey_cases hno with ⟨k, p, rfl, hplain, hp, hsplit⟩
      obtain ⟨rfl, rfl⟩ : url = forwardUrl ∧ k = key := by simpa [hsplit] using h
      cases hsource : km.get k with
      | none => simp [handleProxyRequest, hsplit, hsource] at hurl
      | some source =>
        have hform : page.line.path = "/__proxy__".toList ++ k ++ p := by
          rw [hpath, List.append_assoc]
        have hup := upstream_key C hplain hsource page.line hform hp
        have hdrop : page.line.path.dropPrefix? "/__proxy__".toList = some (k ++ p) := by
          rw [List.dropPrefix?_eq_some_iff]
          exact ⟨_, hpath, by simp⟩
        simp only [upstream, handle, hdrop, hurl] at hup
        exact ⟨hplain, source, p, rfl, hform, hp, Option.some.inj hup⟩
    · simp at h
  · rcases Option.map_eq_some_iff.1 h with ⟨url, -, heq⟩
    exact absurd (congrArg Prod.snd heq).symm hkey

theorem buildProxyPrefix_ne (host : Str) : buildProxyPrefix host ≠ [] := by
  have hne : "http://".toList ≠ [] := by decide
  unfold buildProxyPrefix
  generalize "http://".toList = pre at hne ⊢
  simp [hne]

theorem plain_under (hkey : PlainKey key) {p : Str} (hp : ∀ c ∈ ['?', '#'], c ∉ p) :
    ∀ c ∈ ['?', '#'], c ∉ "/__proxy__".toList ++ key ++ p := by
  intro c hc
  have hmark : ∀ c ∈ ['?', '#'], c ∉ "/__proxy__".toList := forall_mem_of_all (by decide)
  simp only [List.mem_append, not_or]
  exact ⟨⟨hmark c hc, hkey c (List.mem_cons_of_mem _ hc)⟩, hp c hc⟩

/-- A redirect to a path under a key goes where the decoder appends it. -/
theorem follow_under (hkey : PlainKey key) {source p : Str} {query fragment : Option Str}
    (hsource : km.get key = some source) (hp : p = [] ∨ p.head? = some '/')
    (hplain : ∀ c ∈ ['?', '#'], c ∉ p) (hquery : ∀ q ∈ query, '#' ∉ q)
    (hurl : (parseReference page.url).resolve (parseReference loc) =
      { scheme := some "http".toList, authority := some page.host,
        path := "/__proxy__".toList ++ key ++ p, query := query, fragment := fragment }) :
    follow C urldecode km around page loc = .proxied (if p = [] then source
      else trimEndMatches '/' source ++ p ++ withDelimiter '?' query) := by
  have hfree := plain_under hkey hplain
  let line : RequestLine := ⟨"/__proxy__".toList ++ key ++ p, query, hfree '?' (by simp)⟩
  have hfollow := @follow_proxied C urldecode km around _ _ line _ (hfree '#' (by simp)) hquery hurl
  rw [hfollow, serve_of_upstream (upstream_key C hkey hsource line rfl hp)]
  rfl

/-- A path under a key keeps its dot segments to itself unless it climbs out. -/
theorem cleanPath_under (hkey : PlainKey key) {p : Str} (hp : p = [] ∨ p.head? = some '/')
    (hstays : Stays 0 (segments p)) :
    cleanPath ("/__proxy__".toList ++ key ++ p) = "/__proxy__".toList ++ key ++ cleanPath p := by
  have hslash : '/' ∉ "__proxy__".toList ++ key := by
    rw [List.mem_append, not_or]
    exact ⟨by decide, hkey '/' (by simp)⟩
  have hseg : segments ("/__proxy__".toList ++ key) = ["__proxy__".toList ++ key] := by
    have hform : "/__proxy__".toList ++ key = '/' :: ("__proxy__".toList ++ key) := rfl
    rw [segments, hform, List.tail_cons]
    exact List.splitOn_eq_singleton hslash
  have hfree : DotFree (segments ("/__proxy__".toList ++ key)) := by
    rw [hseg]
    intro s hs
    rcases List.mem_singleton.1 hs with rfl
    exact ⟨by simp [dot], by simp [dotDot]⟩
  have hroot : ∀ q : Str, ("/__proxy__".toList ++ key ++ q).head? = some '/' := fun _ => rfl
  rcases hp with rfl | hp
  · have hnil : cleanPath [] = [] := rfl
    rw [hnil, List.append_nil]
    exact cleanPath_of_dotFree hfree
  · have hbelow := cleanPath_below (.inr (hroot [])) hp hstays
    rw [List.append_nil] at hbelow
    rw [← hbelow]
    refine cleanPath_of_dotFree ?_
    have hrootKey := hroot []
    rw [List.append_nil] at hrootKey
    rw [segments_append hrootKey (cleanPath_rooted hp)]
    intro s hs
    rcases List.mem_append.1 hs with hs | hs
    · exact hfree s hs
    · exact dotFree_cleanPath hp s hs

theorem resolve_of_scheme (base : Reference) {r : Reference} (h : r.scheme.isSome) :
    base.resolve r = { r with path := cleanPath r.path } := if_pos h

/-! ## Sources -/

theorem endsAuthority_tail (S : HttpUrl) : EndsAuthority S.tail := by
  unfold HttpUrl.tail
  rcases S.path_rooted with hp | hp
  · intro c hc
    rw [hp] at hc
    cases hq : S.query with
    | some q => simp [hq, withDelimiter] at hc; simp [← hc]
    | none =>
      cases hf : S.fragment with
      | some f => simp [hq, hf, withDelimiter] at hc; simp [← hc]
      | none => simp [hq, hf, withDelimiter] at hc
  · rw [List.append_assoc]
    exact endsAuthority_of_rooted hp _

theorem parse_text (S : HttpUrl) : parseReference S.text =
    { scheme := some S.scheme, authority := some S.authority, path := S.path, query := S.query,
      fragment := S.fragment } := by
  have hread := parseReference_http S.http S.authority_plain (endsAuthority_tail S)
  have htail : parseTail S.tail = ⟨S.path, S.query, S.fragment⟩ :=
    parseTail_of_plain S.path_plain S.query_plain
  rw [htail] at hread
  exact hread

theorem trimmed_rooted {path : Str} (h : path = [] ∨ path.head? = some '/') :
    trimEndMatches '/' path = [] ∨ (trimEndMatches '/' path).head? = some '/' := by
  rcases trimEndMatches_append '/' path with ⟨r, -, hform⟩
  cases htrim : trimEndMatches '/' path with
  | nil => exact .inl rfl
  | cons c p =>
    right
    rcases h with h | h
    · rw [h] at htrim
      simp [trimEndMatches] at htrim
    · rw [hform, htrim] at h
      simpa using h

theorem trimmed_plain {path : Str} (h : ∀ c ∈ ['?', '#'], c ∉ path) :
    ∀ c ∈ ['?', '#'], c ∉ trimEndMatches '/' path := by
  intro c hc hmem
  rcases trimEndMatches_append '/' path with ⟨r, -, hform⟩
  exact h c hc (hform ▸ List.mem_append_left _ hmem)

theorem text_plain {S : HttpUrl} (hquery : S.query = none) (hfragment : S.fragment = none) :
    S.text = S.origin ++ S.path := by
  simp [HttpUrl.text, HttpUrl.tail, hquery, hfragment, withDelimiter]

/-- A path appended to a source URL without query and fragment. -/
theorem parse_appended {S : HttpUrl} (hquery : S.query = none) (hfragment : S.fragment = none)
    {p : Str} (hp : p.head? = some '/') (hplain : ∀ c ∈ ['?', '#'], c ∉ p) {query : Option Str}
    (hq : ∀ q ∈ query, '#' ∉ q) :
    parseReference (trimEndMatches '/' S.text ++ p ++ withDelimiter '?' query) =
      { scheme := some S.scheme, authority := some S.authority,
        path := trimEndMatches '/' S.path ++ p, query := query, fragment := none } := by
  have hroot : (trimEndMatches '/' S.path ++ p).head? = some '/' := by
    rcases trimmed_rooted S.path_rooted with h | h
    · rw [h, List.nil_append]
      exact hp
    · rw [List.head?_append, h, Option.some_or]
  have hfree : ∀ c ∈ ['?', '#'], c ∉ trimEndMatches '/' S.path ++ p := by
    intro c hc
    rw [List.mem_append, not_or]
    exact ⟨trimmed_plain S.path_plain c hc, hplain c hc⟩
  have hread := parseReference_http S.http S.authority_plain
    (endsAuthority_of_rooted hroot (withDelimiter '?' query))
  have htail := @parseTail_of_plain _ _ none hfree hq
  rw [withDelimiter, List.append_nil] at htail
  rw [htail] at hread
  rw [text_plain hquery hfragment, S.trimEnd_append]
  simpa only [Origin.origin, List.append_assoc] using hread

/-- The URL of a page of a source without query and fragment. -/
theorem parse_loaded {S : HttpUrl} (hquery : S.query = none) (hfragment : S.fragment = none)
    {p : Str} (hpath : page.line.path = "/__proxy__".toList ++ key ++ p)
    (hp : p = [] ∨ p.head? = some '/')
    (hurl : forwardUrl = if p = [] then S.text
      else trimEndMatches '/' S.text ++ p ++ withDelimiter '?' page.line.query) :
    parseReference forwardUrl =
      { scheme := some S.scheme, authority := some S.authority,
        path := if p = [] then S.path else trimEndMatches '/' S.path ++ p,
        query := if p = [] then none else page.line.query, fragment := none } := by
  rcases hp with rfl | hp
  · rw [hurl, if_pos rfl, if_pos rfl, if_pos rfl, parse_text, hquery, hfragment]
  · have hne : p ≠ [] := by
      rintro rfl
      simp at hp
    have hplain : ∀ c ∈ ['?', '#'], c ∉ p := by
      intro c hc hmem
      have hpage : c ∈ page.line.path := hpath ▸ List.mem_append_right _ hmem
      rcases List.mem_cons.1 hc with rfl | hc
      · exact page.line.path_plain hpage
      · rcases List.mem_singleton.1 hc with rfl
        exact page.path_noHash hpage
    rw [hurl, if_neg hne, if_neg hne, if_neg hne,
      parse_appended hquery hfragment hp hplain page.query_noHash]

/-! ## Behind the key -/

theorem cleanPath_eq_nil {p : Str} (hp : p = [] ∨ p.head? = some '/') :
    cleanPath p = [] ↔ p = [] := by
  rcases hp with rfl | hp
  · exact iff_of_true rfl rfl
  · refine iff_of_false ?_ ?_
    · intro h
      simpa [h] using cleanPath_rooted hp
    · rintro rfl
      simp at hp

/-- The browser reads the key up to the next slash. -/
theorem resolve_rewritten (hkey : PlainKey key) {rest x q : Str} (hlonger : PlainKey (key ++ x))
    (hform : (parseTail rest).path = x ++ q) (hq : q = [] ∨ q.head? = some '/')
    (hstays : Stays 0 (segments q)) :
    (parseReference page.url).resolve
        (parseReference (buildProxyPrefix page.host ++ "/__proxy__".toList ++ key ++ rest)) =
      { scheme := some "http".toList, authority := some page.host,
        path := "/__proxy__".toList ++ (key ++ x) ++ cleanPath q,
        query := (parseTail rest).query, fragment := (parseTail rest).fragment } := by
  have hends : EndsAuthority ("/__proxy__".toList ++ key ++ rest) := by
    rw [List.append_assoc]
    exact endsAuthority_of_rooted rfl _
  have hread := parseReference_http (.inl rfl) page.host_plain hends
  have hfree : ∀ c ∈ ['?', '#'], c ∉ "/__proxy__".toList ++ key := by
    have h := plain_under (p := []) hkey (by simp)
    rwa [List.append_nil] at h
  rw [parseTail_append hfree] at hread
  have hproxy : buildProxyPrefix page.host ++ "/__proxy__".toList ++ key ++ rest =
      "http".toList ++ "://".toList ++ page.host ++ ("/__proxy__".toList ++ key ++ rest) := by
    unfold buildProxyPrefix
    rw [httpPrefix_eq]
    simp only [List.append_assoc]
    rfl
  have hpath : "/__proxy__".toList ++ key ++ (parseTail rest).path =
      "/__proxy__".toList ++ (key ++ x) ++ q := by
    rw [hform]
    simp only [List.append_assoc]
  rw [← hproxy] at hread
  rw [hread, resolve_of_scheme _ rfl]
  simp only [hpath, cleanPath_under hlonger hq hstays]

/-- What is put behind the key goes to the source with its path. -/
theorem follow_rewritten (hkey : PlainKey key) {source rest : Str}
    (hsource : km.get key = some source)
    (hp : (parseTail rest).path = [] ∨ (parseTail rest).path.head? = some '/')
    (hstays : Stays 0 (segments (parseTail rest).path)) :
    follow C urldecode km around page
        (buildProxyPrefix page.host ++ "/__proxy__".toList ++ key ++ rest) =
      .proxied (if (parseTail rest).path = [] then source
        else trimEndMatches '/' source ++ cleanPath (parseTail rest).path ++
          withDelimiter '?' (parseTail rest).query) := by
  have hpc : cleanPath (parseTail rest).path = [] ∨
      (cleanPath (parseTail rest).path).head? = some '/' := by
    rcases hp with hp | hp
    · exact .inl ((cleanPath_eq_nil (.inl hp)).2 hp)
    · exact .inr (cleanPath_rooted hp)
  have hplain : ∀ c ∈ ['?', '#'], c ∉ cleanPath (parseTail rest).path := fun c hc hmem =>
    parseTail_plain rest c hc (mem_of_mem_cleanPath hmem)
  have hurl := @resolve_rewritten page _ hkey _ [] _ (by rwa [List.append_nil])
    (List.nil_append (parseTail rest).path).symm hp hstays
  rw [List.append_nil] at hurl
  have hfollow := @follow_under C urldecode _ around _ _ _ hkey _ _ _ _ hsource
    hpc hplain (parseTail_query rest) hurl
  rw [hfollow]
  simp only [cleanPath_eq_nil hp]

end HomeTier.Redirect
