import HomeTier.Lib.Http

/-! # Content security policies

A header holds policies separated by commas, a policy directives separated by
semicolons, a directive a name and its sources; of several directives of one name
the first counts. An action of a page is governed by the first directive present
among those its destination falls back to, and allowed when there is none.

`hits url source` says that a host or scheme source matches a URL and is a parameter.
`permits_append` says what more sources do to a directive: everything it permitted it
still permits, except that a hash takes the effect of `'unsafe-inline'` away.
-/

namespace HomeTier.Lib.Csp

/-! ## Sources -/

def lower (s : Str) : Str := s.map Char.toLower

def isSpace (c : Char) : Bool :=
  c = ' ' || c = '\t' || c = '\n' || c = '\r' || c = Char.ofNat 12

def selfSource : Str := "'self'".toList

def unsafeInline : Str := "'unsafe-inline'".toList

def unsafeHashes : Str := "'unsafe-hashes'".toList

def strictDynamic : Str := "'strict-dynamic'".toList

/-- Hosts, schemes, `*` and `'self'`. -/
def isUrl (t : Str) : Bool := t.head? ≠ some '\'' || lower t = selfSource

def isBase64 (c : Char) : Bool :=
  c.isAlphanum || c = '+' || c = '/' || c = '-' || c = '_' || c = '='

/-- What stands between the first `n` characters and the closing quote. -/
def quoted (n : Nat) (t : Str) : Option Str :=
  let value := (t.drop n).dropLast
  if t.getLast? = some '\'' ∧ value ≠ [] ∧ value.all isBase64 then some value else none

/-- The nonce of a nonce source. -/
def nonceOf (t : Str) : Option Str :=
  if lower (t.take 7) = "'nonce-".toList then quoted 7 t else none

def hashNames : List Str := ["'sha256-".toList, "'sha384-".toList, "'sha512-".toList]

/-- The standard letters for the URL safe ones. -/
def standard (c : Char) : Char := if c = '-' then '+' else if c = '_' then '/' else c

/-- The hash of a hash source, in one spelling. -/
def hashOf (t : Str) : Option Str :=
  if lower (t.take 8) ∈ hashNames then
    (quoted 8 t).map fun value => lower (t.take 8) ++ value.map standard
  else none

def has (sources : List Str) (keyword : Str) : Bool := sources.any fun t => lower t = keyword

/-- `'unsafe-inline'`, without anything that takes its effect away. -/
def allowsAllInline (sources : List Str) : Bool :=
  has sources unsafeInline && !has sources strictDynamic &&
    sources.all fun t => (nonceOf t).isNone && (hashOf t).isNone

def hasNonce (sources : List Str) (nonce : Option Str) : Bool :=
  nonce.any fun n => sources.any (nonceOf · = some n)

def hasHash (sources : List Str) (h : Str) : Bool := sources.any (hashOf · = some h)

/-! ## Actions -/

inductive Resource where
  | connect
  | font
  | frame
  | image
  | manifest
  | media
  | object
  | style
  | worker
deriving DecidableEq

inductive Destination where
  | resource (r : Resource)
  | scriptElement
  | scriptAttribute
deriving DecidableEq

def defaultSrc : Str := "default-src".toList

def scriptSrc : Str := "script-src".toList

/-- The directives that may govern a destination; the first one present does. -/
def fallback : Destination → List Str
  | .resource .connect => ["connect-src".toList, defaultSrc]
  | .resource .font => ["font-src".toList, defaultSrc]
  | .resource .frame => ["frame-src".toList, "child-src".toList, defaultSrc]
  | .resource .image => ["img-src".toList, defaultSrc]
  | .resource .manifest => ["manifest-src".toList, defaultSrc]
  | .resource .media => ["media-src".toList, defaultSrc]
  | .resource .object => ["object-src".toList, defaultSrc]
  | .resource .style => ["style-src-elem".toList, "style-src".toList, defaultSrc]
  | .resource .worker => ["worker-src".toList, "child-src".toList, scriptSrc, defaultSrc]
  | .scriptElement => ["script-src-elem".toList, scriptSrc, defaultSrc]
  | .scriptAttribute => ["script-src-attr".toList, scriptSrc, defaultSrc]

section Policies

variable {URL : Type}

/-- What a page may want to do: load something, load or contain a script element, or
have an event handler. Inline code comes with its hashes. -/
inductive Action (URL : Type) where
  | load (resource : Resource) (url : URL)
  | script (url : URL) (nonce : Option Str) (integrity : List Str) (parserInserted : Bool)
  | inline (nonce : Option Str) (hashes : List Str)
  | handler (hashes : List Str)

def Action.destination : Action URL → Destination
  | .load resource _ => .resource resource
  | .script .. => .scriptElement
  | .inline .. => .scriptElement
  | .handler _ => .scriptAttribute

def Action.isInline : Action URL → Bool
  | .load .. => false
  | .script .. => false
  | .inline .. => true
  | .handler _ => true

/-- What host or scheme sources match a URL. -/
abbrev Hits (URL : Type) := URL → Str → Bool

def matchesUrl (hits : Hits URL) (sources : List Str) (url : URL) : Bool :=
  sources.any fun t => isUrl t && hits url t

/-- The sources of a directive permit an action. -/
def permits (hits : Hits URL) (sources : List Str) : Action URL → Bool
  | .load _ url => matchesUrl hits sources url
  | .script url nonce integrity parserInserted =>
    hasNonce sources nonce || (integrity ≠ [] && integrity.all (hasHash sources)) ||
      if has sources strictDynamic then !parserInserted else matchesUrl hits sources url
  | .inline nonce hashes =>
    allowsAllInline sources || hasNonce sources nonce || hashes.any (hasHash sources)
  | .handler hashes =>
    allowsAllInline sources || (has sources unsafeHashes && hashes.any (hasHash sources))

/-! ## Policies -/

def strip (s : Str) : Str := (s.dropWhile isSpace).rdropWhile isSpace

/-- The directives of a policy as they are written. -/
def directives (policy : Str) : List Str := ((policy.splitOn ';').map strip).filter (· ≠ [])

def nameOf (directive : Str) : Str := lower (directive.takeWhile (!isSpace ·))

def words (s : Str) : List Str := (s.splitOnP isSpace).filter (· ≠ [])

def sourcesOf (directive : Str) : List Str := words (directive.dropWhile (!isSpace ·))

/-- The directive of a name. -/
def named (ds : List Str) (name : Str) : Option Str := ds.find? (nameOf · = name)

def governing (ds : List Str) (dest : Destination) : Option Str :=
  (fallback dest).findSome? (named ds)

def allowed (hits : Hits URL) (ds : List Str) (a : Action URL) : Bool :=
  match governing ds a.destination with
  | some d => permits hits (sourcesOf d) a
  | none => true

/-- All policies of a header allow the action. -/
def allowedBy (hits : Hits URL) (header : Str) (a : Action URL) : Bool :=
  (header.splitOn ',').all fun policy => allowed hits (directives policy) a

variable {hits : Hits URL}

theorem allowedBy_of_onePolicy {header : Str} (h : ',' ∉ header)
    (a : Action URL) : allowedBy hits header a = allowed hits (directives header) a := by
  rw [allowedBy, List.splitOn_eq_singleton h]
  simp

/-! ## Kinds of sources -/

theorem toLower_quote {c : Char} (h : c.toLower = '\'') : c = '\'' :=
  eq_of_toLower_eq h (by decide)

theorem lower_take (n : Nat) (t : Str) : lower (t.take n) = (lower t).take n := List.map_take

theorem take_lower_of_nonce {t n : Str} (h : nonceOf t = some n) :
    (lower t).take 7 = "'nonce-".toList := by
  rw [← lower_take]
  by_contra hne
  rw [nonceOf, if_neg hne] at h
  cases h

variable {t k keyword : Str}

theorem take_lower_of_hash (h : hashOf t = some k) : (lower t).take 8 ∈ hashNames := by
  rw [← lower_take]
  by_contra hne
  rw [hashOf, if_neg hne] at h
  cases h

/-- A source whose letters start with a quote is no URL, unless it is `'self'`. -/
theorem isUrl_eq_false (hhead : (lower t).head? = some '\'')
    (hself : lower t ≠ selfSource) : isUrl t = false := by
  have hquote : t.head? = some '\'' := by
    cases t with
    | nil => cases hhead
    | cons c t =>
      have hc : c.toLower = '\'' := by simpa [lower] using hhead
      simp [toLower_quote hc]
  simp [isUrl, hquote, hself]

theorem head?_of_take {n : Nat} {s k : Str} {c : Char} (h : s.take n = k)
    (hhead : k.head? = some c) : s.head? = some c := by
  rw [← h] at hhead
  cases n with
  | zero => simp at hhead
  | succ n => simpa [List.head?_take] using hhead

theorem lower_of_isUrl (h : isUrl t = true) (hhead : (lower t).head? = some '\'') :
    lower t = selfSource := by
  by_contra hself
  rw [isUrl_eq_false hhead hself] at h
  cases h

theorem nonceOf_of_isUrl (h : isUrl t = true) : nonceOf t = none := by
  by_contra hnonce
  rcases Option.ne_none_iff_exists'.1 hnonce with ⟨n, hn⟩
  have htake := take_lower_of_nonce hn
  rw [lower_of_isUrl h (head?_of_take htake rfl)] at htake
  exact absurd htake (by decide)

theorem hashOf_of_isUrl (h : isUrl t = true) : hashOf t = none := by
  by_contra hhash
  rcases Option.ne_none_iff_exists'.1 hhash with ⟨k, hk⟩
  have htake := take_lower_of_hash hk
  have hhead : (lower t).head? = some '\'' := by
    simp only [hashNames, List.mem_cons, List.not_mem_nil, or_false] at htake
    rcases htake with h | h | h
    · exact head?_of_take h rfl
    · exact head?_of_take h rfl
    · exact head?_of_take h rfl
  rw [lower_of_isUrl h hhead] at htake
  exact absurd htake (by decide)

theorem lower_ne_of_isUrl (h : isUrl t = true)
    (hkeyword : keyword.head? = some '\'') (hself : selfSource ≠ keyword) : lower t ≠ keyword := by
  intro heq
  rw [← heq] at hkeyword
  exact hself ((lower_of_isUrl h hkeyword).symm.trans heq)

/-- The letters of a hash source are no other keyword's. -/
theorem lower_ne_of_hash (h : hashOf t = some k)
    (hkeyword : keyword.take 8 ∉ hashNames) : lower t ≠ keyword := by
  intro heq
  have htake := take_lower_of_hash h
  rw [heq] at htake
  exact hkeyword htake

theorem nonceOf_of_hash (h : hashOf t = some k) : nonceOf t = none := by
  by_contra hnonce
  rcases Option.ne_none_iff_exists'.1 hnonce with ⟨n, hn⟩
  have hseven : ((lower t).take 8).take 7 = "'nonce-".toList := by
    rw [List.take_take]
    exact take_lower_of_nonce hn
  have htake := take_lower_of_hash h
  have hno : ∀ x ∈ hashNames, x.take 7 ≠ "'nonce-".toList := by decide
  exact hno _ htake hseven

theorem isUrl_of_hash (h : hashOf t = some k) : isUrl t = false := by
  by_contra hurl
  rw [hashOf_of_isUrl (by simpa using hurl)] at h
  cases h

/-! ## More sources -/

theorem has_append (s e : List Str) (keyword : Str) :
    has (s ++ e) keyword = (has s keyword || has e keyword) := List.any_append

variable {s ds e : List Str}

theorem hasNonce_append {nonce : Option Str} (h : hasNonce s nonce = true) :
    hasNonce (s ++ e) nonce = true := by
  cases nonce with
  | none => cases h
  | some n =>
    simp only [hasNonce, Option.any_some, List.any_append, Bool.or_eq_true] at h ⊢
    exact Or.inl h

theorem hasHash_append (h : hasHash s k = true) : hasHash (s ++ e) k = true := by
  simp only [hasHash, List.any_append, Bool.or_eq_true] at h ⊢
  exact Or.inl h

theorem matchesUrl_append {url : URL}
    (h : matchesUrl hits s url = true) : matchesUrl hits (s ++ e) url = true := by
  simp only [matchesUrl, List.any_append, Bool.or_eq_true] at h ⊢
  exact Or.inl h

/-- More sources permit more, as long as `'unsafe-inline'` keeps its effect on inline
code and `'strict-dynamic'` is not among them. -/
theorem permits_append {a : Action URL} (hdynamic : has e strictDynamic = false)
    (hinline : a.isInline = true → allowsAllInline s = true → allowsAllInline (s ++ e) = true)
    (h : permits hits s a = true) : permits hits (s ++ e) a = true := by
  cases a with
  | load resource url => exact matchesUrl_append h
  | script url nonce integrity parserInserted =>
    simp only [permits, Bool.or_eq_true, Bool.and_eq_true] at h ⊢
    rw [has_append, hdynamic, Bool.or_false]
    rcases h with (h | ⟨hne, h⟩) | h
    · exact Or.inl (Or.inl (hasNonce_append h))
    · refine Or.inl (Or.inr ⟨hne, ?_⟩)
      rw [List.all_eq_true] at h ⊢
      exact fun k hk => hasHash_append (h k hk)
    · refine Or.inr ?_
      split
      · rename_i hdyn
        rw [if_pos hdyn] at h
        exact h
      · rename_i hdyn
        rw [if_neg hdyn] at h
        exact matchesUrl_append h
  | inline nonce hashes =>
    simp only [permits, Bool.or_eq_true] at h ⊢
    rcases h with (h | h) | h
    · exact Or.inl (Or.inl (hinline rfl h))
    · exact Or.inl (Or.inr (hasNonce_append h))
    · refine Or.inr ?_
      rw [List.any_eq_true] at h ⊢
      rcases h with ⟨k, hk, h⟩
      exact ⟨k, hk, hasHash_append h⟩
  | handler hashes =>
    simp only [permits, Bool.or_eq_true, Bool.and_eq_true] at h ⊢
    rcases h with h | ⟨hhas, h⟩
    · exact Or.inl (hinline rfl h)
    · refine Or.inr ⟨by rw [has_append, hhas]; rfl, ?_⟩
      rw [List.any_eq_true] at h ⊢
      rcases h with ⟨k, hk, h⟩
      exact ⟨k, hk, hasHash_append h⟩

theorem allowsAllInline_append_url (ht : isUrl t = true) :
    allowsAllInline (s ++ [t]) = allowsAllInline s := by
  have hinline : lower t ≠ unsafeInline := lower_ne_of_isUrl ht rfl (by decide)
  have hdynamic : lower t ≠ strictDynamic := lower_ne_of_isUrl ht rfl (by decide)
  simp [allowsAllInline, has, hinline, hdynamic, nonceOf_of_isUrl ht, hashOf_of_isUrl ht]

/-- A hash takes the effect of `'unsafe-inline'` away. -/
theorem allowsAllInline_of_hash (ht : hashOf t = some k)
    (hmem : t ∈ s) : allowsAllInline s = false := by
  by_contra hall
  simp only [allowsAllInline, Bool.not_eq_false, Bool.and_eq_true, List.all_eq_true] at hall
  have hnone := (hall.2 t hmem).2
  rw [ht] at hnone
  cases hnone

theorem has_url (ht : isUrl t = true) (hkeyword : keyword.head? = some '\'')
    (hself : selfSource ≠ keyword) : has [t] keyword = false := by
  simp [has, lower_ne_of_isUrl ht hkeyword hself]

theorem has_hash (ht : hashOf t = some k)
    (hkeyword : keyword.take 8 ∉ hashNames) : has [t] keyword = false := by
  simp [has, lower_ne_of_hash ht hkeyword]

theorem permits_append_url {a : Action URL}
    (ht : isUrl t = true) (h : permits hits s a = true) : permits hits (s ++ [t]) a = true := by
  apply permits_append (has_url ht rfl (by decide)) _ h
  intro _ hall
  rw [allowsAllInline_append_url ht, hall]

theorem permits_append_hash {a : Action URL}
    (ht : hashOf t = some k) (hinline : a.isInline = true → allowsAllInline s = false)
    (h : permits hits s a = true) : permits hits (s ++ [t]) a = true := by
  apply permits_append (has_hash ht (by decide)) _ h
  intro ha hall
  rw [hinline ha] at hall
  cases hall

/-! ## The text of a directive -/

theorem nameOf_append (p t : Str) : nameOf (p ++ ' ' :: t) = nameOf p := by
  have hspace : (!isSpace ' ') = false := by decide
  rw [nameOf, nameOf]
  congr 1
  induction p with
  | nil => simp [hspace]
  | cons c p ih =>
    cases hc : isSpace c with
    | true => simp [hc]
    | false => simp [hc, ih]

theorem words_append (p t : Str) : words (p ++ ' ' :: t) = words p ++ words t := by
  rw [words, List.splitOnP_append_cons _ _ (by decide), List.filter_append]
  rfl

theorem words_eq_singleton (hne : t ≠ []) (h : ∀ c ∈ t, isSpace c = false) : words t = [t] := by
  rw [words, List.splitOnP_eq_singleton h]
  simp [hne]

theorem sourcesOf_append (p : Str) (hne : t ≠ []) (h : ∀ c ∈ t, isSpace c = false) :
    sourcesOf (p ++ ' ' :: t) = sourcesOf p ++ [t] := by
  have hspace : (!isSpace ' ') = false := by decide
  have hdrop : (p ++ ' ' :: t).dropWhile (!isSpace ·) =
      p.dropWhile (!isSpace ·) ++ ' ' :: t := dropWhile_append_cons hspace p t
  rw [sourcesOf, hdrop, words_append, words_eq_singleton hne h]
  rfl

/-! ## The directives of a policy -/

theorem strip_of_ends {s : Str} (hhead : ∀ c ∈ s.head?, isSpace c = false)
    (hlast : ∀ c ∈ s.getLast?, isSpace c = false) : strip s = s := by
  have hdrop : s.dropWhile isSpace = s := by
    cases s with
    | nil => rfl
    | cons c s => simp [hhead c rfl]
  rw [strip, hdrop, List.rdropWhile_eq_self_iff]
  intro hne
  simp [hlast _ (List.getLast?_eq_some_getLast hne)]

theorem strip_space_cons (s : Str) : strip (' ' :: s) = strip s := by
  have hspace : isSpace ' ' = true := by decide
  simp [strip, hspace]

/-- Directives written with `"; "` between them are read back. -/
theorem directives_cookieLine
    (h : ∀ d ∈ ds, ';' ∉ d ∧ strip d = d ∧ d ≠ []) : directives (cookieLine ds) = ds := by
  cases ds with
  | nil => rfl
  | cons d ds =>
    have hstrip : ∀ q ∈ ds, strip (' ' :: q) = q := by
      intro q hq
      rw [strip_space_cons]
      exact (h q (List.mem_cons_of_mem d hq)).2.1
    have hmap : (ds.map fun q => ' ' :: q).map strip = ds := by
      rw [List.map_map]
      exact (List.map_congr_left hstrip).trans (List.map_id ds)
    rw [directives, splitOn_cookieLine fun q hq => (h q hq).1, List.map_cons, hmap,
      (h d List.mem_cons_self).2.1, List.filter_eq_self]
    intro q hq
    simpa using (h q hq).2.2

theorem directives_nil : directives [] = [] := by decide

theorem findSome?_map_of_forall {α β γ : Type} {f : α → Option β} {f' : α → Option γ} {g : β → γ}
    {l : List α} (h : ∀ x ∈ l, f' x = (f x).map g) :
    l.findSome? f' = (l.findSome? f).map g := by
  induction l with
  | nil => rfl
  | cons x l ih =>
    have hx := h x List.mem_cons_self
    have ih := ih fun y hy => h y (List.mem_cons_of_mem x hy)
    cases hf : f x with
    | none => simp [hx, hf, ih]
    | some y => simp [hx, hf]

/-- A change of the directives that changes the ones of a destination's names only. -/
theorem governing_of_named {ds ds' : List Str} {g : Str → Str} {dest : Destination}
    (h : ∀ n ∈ fallback dest, named ds' n = (named ds n).map g) :
    governing ds' dest = (governing ds dest).map g := findSome?_map_of_forall h

theorem mem_of_named {n d : Str} (h : named ds n = some d) : d ∈ ds ∧ nameOf d = n := by
  refine ⟨List.mem_of_find?_eq_some h, ?_⟩
  simpa using List.find?_some h

theorem mem_of_governing {dest : Destination} {d : Str}
    (h : governing ds dest = some d) : d ∈ ds ∧ nameOf d ∈ fallback dest := by
  rcases List.exists_of_findSome?_eq_some h with ⟨n, hn, hd⟩
  rcases mem_of_named hd with ⟨hmem, hname⟩
  exact ⟨hmem, hname ▸ hn⟩

end Policies

end HomeTier.Lib.Csp
