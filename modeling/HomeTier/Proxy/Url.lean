import HomeTier.Lib.Text

/-! # URLs as the proxy writes and reads them

The proxy handles URLs as texts. `Origin`, `HttpUrl` and `SourceUrl` are the
URLs themselves, with the delimiters excluded from their components, and
`text` is how they are written; the lemmas say what `extract_origin` of
`src-tauri/src/proxy/rewriter.rs` and the trimming of a source URL make of
such a text.
-/

namespace HomeTier

open Lib

/-- Scheme and authority. -/
structure Origin where
  scheme : Str
  authority : Str
  scheme_plain : ∀ c ∈ [':', '/', '?', '#'], c ∉ scheme
  authority_plain : ∀ c ∈ ['/', '?', '#'], c ∉ authority
  authority_ne : authority ≠ []

/-- `scheme://authority` -/
def Origin.origin (o : Origin) : Str := o.scheme ++ "://".toList ++ o.authority

/-- An absolute http(s) URL. -/
structure HttpUrl extends Origin where
  path : Str
  query : Option Str
  fragment : Option Str
  http : scheme = "http".toList ∨ scheme = "https".toList
  path_rooted : path = [] ∨ path.head? = some '/'
  path_plain : ∀ c ∈ ['?', '#'], c ∉ path
  query_plain : ∀ q ∈ query, '#' ∉ q

/-- A source URL of an application: any scheme, authority and path. -/
structure SourceUrl extends Origin where
  path : Str
  path_rooted : path = [] ∨ path.head? = some '/'
  path_plain : ∀ c ∈ ['?', '#'], c ∉ path

namespace HttpUrl

/-- Everything behind the origin. -/
def tail (u : HttpUrl) : Str :=
  u.path ++ withDelimiter '?' u.query ++ withDelimiter '#' u.fragment

def text (u : HttpUrl) : Str := u.origin ++ u.tail

/-- `pathname` of the URL interface of browsers. -/
def pathname (u : HttpUrl) : Str := if u.path = [] then ['/'] else u.path

/-- `search`: empty for an empty query. -/
def search (u : HttpUrl) : Str :=
  match u.query with
  | none => []
  | some [] => []
  | some (c :: q) => '?' :: c :: q

/-- `hash`: empty for an empty fragment. -/
def hash (u : HttpUrl) : Str :=
  match u.fragment with
  | none => []
  | some [] => []
  | some (c :: f) => '#' :: c :: f

end HttpUrl

def SourceUrl.text (s : SourceUrl) : Str := s.origin ++ s.path

/-- `extract_origin`: scheme, host and port of a URL text. -/
def extractOrigin (url : Str) : Str :=
  match splitOnce "://".toList url with
  | some (scheme, after) =>
    match cutAt '/' after with
    | (host, some _) => scheme ++ "://".toList ++ host
    | (_, none) => url
  | none => url

/-! ## Origins of texts -/

/-- The extracted origin runs up to the first slash behind the scheme. -/
theorem extractOrigin_eq {scheme : Str} (h : ':' ∉ scheme) (after : Str) :
    extractOrigin (scheme ++ "://".toList ++ after) =
      scheme ++ "://".toList ++ after.takeWhile (· ≠ '/') := by
  have hsplit : splitOnce "://".toList (scheme ++ "://".toList ++ after) = some (scheme, after) :=
    splitOnce_append h after
  rw [extractOrigin, hsplit]
  by_cases hslash : '/' ∈ after
  · rcases List.eq_append_cons_of_mem hslash with ⟨a, b, rfl, ha⟩
    have htake : (a ++ '/' :: b).takeWhile (· ≠ '/') = a :=
      congrArg Prod.fst (cutAt_append ha b)
    simp only [cutAt_append ha, htake]
  · simp only [cutAt_of_notMem hslash, takeWhile_ne_eq_self hslash]

variable (o : Origin)

theorem Origin.scheme_noColon : ':' ∉ o.scheme := o.scheme_plain ':' (by simp)

theorem Origin.authority_noSlash : '/' ∉ o.authority := o.authority_plain '/' (by simp)

/-- Neither `?` nor `#` occurs in an origin. -/
theorem Origin.origin_plain {c : Char} (h : c ∈ ['?', '#']) : c ∉ o.origin := by
  have hs : c ∉ o.scheme := o.scheme_plain c (List.mem_cons_of_mem _ (List.mem_cons_of_mem _ h))
  have ha : c ∉ o.authority := o.authority_plain c (List.mem_cons_of_mem _ h)
  have hsep : c ∉ "://".toList := by
    rcases List.mem_cons.1 h with rfl | h
    · decide
    · rcases List.mem_singleton.1 h with rfl
      decide
  simp only [Origin.origin, List.mem_append, not_or]
  exact ⟨⟨hs, hsep⟩, ha⟩

theorem Origin.extractOrigin_append (tail : Str) :
    extractOrigin (o.origin ++ tail) = o.origin ++ tail.takeWhile (· ≠ '/') := by
  have hall : ∀ a ∈ o.authority, decide (a ≠ '/') = true := by
    intro a ha
    have hne : a ≠ '/' := by
      rintro rfl
      exact o.authority_noSlash ha
    simpa using hne
  rw [Origin.origin, List.append_assoc _ o.authority tail, extractOrigin_eq o.scheme_noColon,
    List.takeWhile_append_of_pos hall, ← List.append_assoc]

/-- What is rooted behind the origin does not belong to it. -/
theorem Origin.extractOrigin_rooted {tail : Str} (h : tail = [] ∨ tail.head? = some '/') :
    extractOrigin (o.origin ++ tail) = o.origin := by
  rw [o.extractOrigin_append]
  rcases h with rfl | h
  · simp
  · cases tail with
    | nil => simp
    | cons c t =>
      obtain rfl : c = '/' := by simpa using h
      simp

/-- Trailing slashes of a source URL lie in its path. -/
theorem Origin.trimEnd_append (path : Str) :
    trimEndMatches '/' (o.origin ++ path) = o.origin ++ trimEndMatches '/' path := by
  have hlast : ∀ h : o.origin ≠ [], ¬ decide (o.origin.getLast h = '/') = true := by
    intro h
    have hl : o.origin.getLast h = o.authority.getLast o.authority_ne := by
      simp only [Origin.origin, List.getLast_append_of_ne_nil _ o.authority_ne]
    have hne : o.origin.getLast h ≠ '/' := by
      rw [hl]
      intro he
      exact o.authority_noSlash (he ▸ List.getLast_mem o.authority_ne)
    simpa using hne
  induction path using List.reverseRecOn with
  | nil =>
    rw [List.append_nil, trimEndMatches, List.rdropWhile_eq_self_iff.2 hlast]
    simp [trimEndMatches]
  | append_singleton p c ih =>
    by_cases hc : c = '/'
    · subst hc
      have hstep : ∀ l : Str, trimEndMatches '/' (l ++ ['/']) = trimEndMatches '/' l := by
        intro l
        simp [trimEndMatches]
      rw [← List.append_assoc, hstep, hstep, ih]
    · have hkeep : ∀ l : Str, trimEndMatches '/' (l ++ [c]) = l ++ [c] := by
        intro l
        simp [trimEndMatches, hc]
      rw [← List.append_assoc, hkeep, hkeep, List.append_assoc]

theorem HttpUrl.pathname_rooted (U : HttpUrl) : U.pathname.head? = some '/' := by
  unfold HttpUrl.pathname
  by_cases hp : U.path = []
  · simp [hp]
  · simpa [hp] using U.path_rooted.resolve_left hp

theorem HttpUrl.pathname_plain (U : HttpUrl) : ∀ c ∈ ['?', '#'], c ∉ U.pathname := by
  intro c hc
  unfold HttpUrl.pathname
  by_cases hp : U.path = []
  · rw [if_pos hp]
    have hroot : ∀ c ∈ ['?', '#'], c ∉ ['/'] := forall_mem_of_all (by decide)
    exact hroot c hc
  · rw [if_neg hp]
    exact U.path_plain c hc

theorem SourceUrl.extractOrigin_text (s : SourceUrl) : extractOrigin s.text = s.origin :=
  s.extractOrigin_rooted s.path_rooted

theorem noQuery_plain : ∀ q ∈ (none : Option Str), '#' ∉ q := by simp

/-- `http://nas.local:8080`, a host with a port of its own. -/
def nasHost : Origin where
  scheme := "http".toList
  authority := "nas.local:8080".toList
  scheme_plain := forall_mem_of_all (by decide)
  authority_plain := forall_mem_of_all (by decide)
  authority_ne := by decide

theorem nasHost_http : nasHost.scheme = "http".toList ∨ nasHost.scheme = "https".toList := .inl rfl

end HomeTier
