import HomeTier.Lib.Scan
import HomeTier.Proxy.Forward
import HomeTier.Log.Record

/-! # The rewriter of links

`rewrite_urls` of `src-tauri/src/proxy/rewriter.rs` goes over a document with regular
expressions: over the attributes that hold a URL, the `srcset` attributes, and
`url(...)` of style sheets. Each reference found is treated alike by `rewriteRef`:
left alone when it looks proxied, else made absolute by `resolveUrl` and encoded by
`encodeProxy`.

Each pass goes over the whole document that the one in front of it has left, what
that one has written included. A link is a reference with what stands for it in the
end: a later pass that finds one of its own in it changes it once more, and a reference
inside a longer one that a later pass finds is none. The passes behind these, over
`@import`, scripts, `<meta>` and `<base>`, are not modelled; what they look for in a
reference is among the `openings`.

The regex crate's `\w` is the parameter `isWord`.
-/

namespace HomeTier.Rewriter

open Lib

/-! ## One reference -/

/-- The page a document comes from and how it is proxied. -/
structure Context where
  baseUrl : Str
  proxyPrefix : Str
  proxyKey : Str

def isHttp (url : Str) : Bool :=
  "http://".toList.isPrefixOf url || "https://".toList.isPrefixOf url

def isAbsolute (url : Str) : Bool := isHttp url || "//".toList.isPrefixOf url

/-- `base_dir` of `resolve_url`. -/
def baseDir (baseUrl : Str) : Str :=
  if baseUrl.getLast? = some '/' then baseUrl
  else
    match splitOnce "://".toList baseUrl with
    | some (scheme, after) =>
      match cutAtLast '/' after with
      | some (dir, _) => scheme ++ "://".toList ++ dir ++ ['/']
      | none => baseUrl ++ ['/']
    | none =>
      match cutAtLast '/' baseUrl with
      | some (dir, _) => dir ++ ['/']
      | none => baseUrl ++ ['/']

def resolveUrl (baseUrl url : Str) : Str :=
  if isHttp url then url
  else if "//".toList.isPrefixOf url then
    (if "https".toList.isPrefixOf baseUrl then "https:".toList else "http:".toList) ++ url
  else if url.head? = some '/' then baseOrigin baseUrl ++ url
  else baseDir baseUrl ++ url

def skipProxied (proxyPrefix url : Str) : Bool :=
  proxyPrefix.isPrefixOf url || containsText url "/proxy?url=".toList ||
    containsText url "/__proxy__".toList

/-- The test in front of `resolve_url`: an absolute or rooted URL, or no scheme with
an authority. -/
def isRewritable (url : Str) : Bool :=
  isAbsolute url || url.head? = some '/' || !containsText url "://".toList

/-- The proxy's URL for a reference that is rewritten. -/
def encoded (C : UrlCodec) (ctx : Context) (url : Str) : Option Str :=
  if skipProxied ctx.proxyPrefix url then none
  else if isRewritable url ∧ isAbsolute (resolveUrl ctx.baseUrl url) then
    some (encodeProxy C ctx.baseUrl ctx.proxyPrefix ctx.proxyKey (resolveUrl ctx.baseUrl url))
  else none

def rewriteRef (C : UrlCodec) (ctx : Context) (url : Str) : Str := (encoded C ctx url).getD url

/-! ## Where references are found -/

/-- A letter of a pattern under `(?i)`: either case, the long s and the Kelvin sign. -/
def isLetter (pat c : Char) : Bool :=
  c.toLower = pat || (pat = 's' && c = 'ſ') || (pat = 'k' && c = 'K')

/-- A name in any case in front of a text, and what follows. -/
def behindName : Str → Str → Option (Str × Str)
  | [], s => some ([], s)
  | _ :: _, [] => none
  | p :: pat, c :: s =>
    if isLetter p c then (behindName pat s).map fun r => (c :: r.1, r.2) else none

/-- `\s*` -/
def blanks (s : Str) : Str × Str := (s.takeWhile isWhitespace, s.dropWhile isWhitespace)

/-- `\s*=\s*` and a quoted value: what stands in front of the quote, the quote, the
value and the rest. -/
def quotedValue (s : Str) : Option (Str × Char × Str × Str) :=
  match (blanks s).2 with
  | '=' :: s' =>
    match (blanks s').2 with
    | q :: s'' =>
      if q = '"' ∨ q = '\'' then
        match cutAt q s'' with
        | (c :: value, some rest) =>
          some ((blanks s).1 ++ '=' :: (blanks s').1, q, c :: value, rest)
        | _ => none
      else none
    | [] => none
  | _ => none

/-- One of the attributes, behind a word boundary, with its value replaced. -/
def attributeMatcher (isWord : Char → Bool) (names : List Str)
    (rewrite : Str → Replacement Char Str) : Matcher Char Str := fun before s =>
  if before.any isWord then none
  else
    names.findSome? fun name => (behindName name s).bind fun (written, s') =>
      (quotedValue s').map fun (front, q, value, rest) =>
        { toReplacement := (rewrite value).within (written ++ front ++ [q]) [q],
          length := s.length - rest.length }

/-- `re_attr` -/
def urlAttributes : List Str :=
  ["src", "href", "action", "poster", "data-src", "data-href", "data-url"].map String.toList

def rewriteAttribute (C : UrlCodec) (ctx : Context) (value : Str) : Replacement Char Str :=
  .single value (rewriteRef C ctx value)

/-- One candidate of a `srcset`: its URL and what follows it. -/
def candidate (part : Str) : Str × Str :=
  ((trim part).takeWhile (!isWhitespace ·), (trim part).dropWhile (!isWhitespace ·))

/-- The descriptor stands behind the first blank; without one it may be empty. -/
def rewriteCandidate (C : UrlCodec) (ctx : Context) (part : Str) : Replacement Char Str :=
  (Replacement.single (candidate part).1 (rewriteRef C ctx (candidate part).1)).within []
    (if (encoded C ctx (candidate part).1).isNone then (candidate part).2
    else if (candidate part).2.tail = [] then [] else ' ' :: (candidate part).2.tail)

/-- The value of a `srcset`. -/
def rewriteSrcset (C : UrlCodec) (ctx : Context) (value : Str) : Replacement Char Str :=
  .intercalate ", ".toList ((value.splitOn ',').map (rewriteCandidate C ctx))

/-- `[^'")\s]` -/
def isCssUrlChar (c : Char) : Bool := !(c = '\'' || c = '"' || c = ')' || isWhitespace c)

/-- `['"]?` -/
def dropQuote (s : Str) : Str :=
  match s with
  | c :: s' => if c = '\'' ∨ c = '"' then s' else s
  | [] => []

/-- `re_css_url` -/
def cssMatcher (C : UrlCodec) (ctx : Context) : Matcher Char Str := fun _ s =>
  (behindName "url".toList s).bind fun (_, s') =>
    match s' with
    | '(' :: s'' =>
      let inner := dropQuote (blanks s'').2
      let url := inner.takeWhile isCssUrlChar
      match (blanks (dropQuote (inner.dropWhile isCssUrlChar))).2 with
      | ')' :: rest =>
        if url = [] then none
        else
          some
            { toReplacement :=
                (Replacement.single url (rewriteRef C ctx url)).within "url(".toList [')'],
              length := s.length - rest.length }
      | _ => none
    | _ => none

/-! ## Documents -/

inductive DocumentKind where
  | html
  | css
deriving DecidableEq

/-- The passes of `rewrite_urls` over links, in order. -/
def passes (C : UrlCodec) (isWord : Char → Bool) (ctx : Context) :
    DocumentKind → List (Matcher Char Str)
  | .html =>
    [attributeMatcher isWord urlAttributes (rewriteAttribute C ctx),
      attributeMatcher isWord ["srcset".toList] (rewriteSrcset C ctx), cssMatcher C ctx]
  | .css => [cssMatcher C ctx]

/-- The document with its links rewritten. -/
def rewriteLinks (C : UrlCodec) (isWord : Char → Bool) (ctx : Context) (kind : DocumentKind)
    (content : Str) : Str := Matcher.rewrite (passes C isWord ctx kind) content

/-- A reference and what stands for it in the document at the end. -/
abbrev Link := Str × Str

/-- The references found in a document, with the pieces of the rewritten document that
stand for them. -/
def piecesOf (C : UrlCodec) (isWord : Char → Bool) (ctx : Context) (kind : DocumentKind)
    (content : Str) : List (Str × Piece Char) := Matcher.foundBy (passes C isWord ctx kind) content

def linksOf (C : UrlCodec) (isWord : Char → Bool) (ctx : Context) (kind : DocumentKind)
    (content : Str) : List Link :=
  (piecesOf C isWord ctx kind content).map fun f => (f.1, f.2.text)

variable {C : UrlCodec} {isWord : Char → Bool} {ctx : Context} {kind : DocumentKind}
  {content : Str} {l : Link}

/-- What a link says stands in the rewritten document. -/
theorem linksOf_in_document (h : l ∈ linksOf C isWord ctx kind content) :
    ∃ before after, rewriteLinks C isWord ctx kind content = before ++ l.2 ++ after := by
  rcases List.mem_map.1 h with ⟨f, hf, rfl⟩
  exact ⟨f.2.before, f.2.after, (Matcher.foundBy_whole hf).symm⟩

/-! ## What a later pass takes for its own -/

/-- What the text that a pass looks for begins with: a name in any case and marks,
with or without blanks in front of each. -/
structure Opening where
  name : Str
  blanks : Bool
  marks : Str
deriving DecidableEq

def behindMarks (blank : Bool) : Str → Str → Bool
  | [], _ => true
  | m :: marks, s =>
    match (if blank then s.dropWhile isWhitespace else s) with
    | c :: s' => c = m && behindMarks blank marks s'
    | [] => false

def beginsWith (blank : Bool) (marks : Str) : Str → Str → Bool
  | [], s => behindMarks blank marks s
  | _ :: _, [] => false
  | p :: name, c :: s => isLetter p c && beginsWith blank marks name s

def Opening.begins (o : Opening) (s : Str) : Bool := beginsWith o.blanks o.marks o.name s

def srcsetOpening : Opening := ⟨"srcset".toList, true, "=".toList⟩

def cssOpening : Opening := ⟨"url".toList, false, "(".toList⟩

/-- Also of the passes over `@import`, modules, calls of scripts and `<head>`. -/
def openings : List Opening :=
  [srcsetOpening, cssOpening, ⟨"<head".toList, false, ">".toList⟩] ++
    (['"', '\''].flatMap fun q =>
      ["import", "export", "from"].map (⟨String.toList ·, true, [q]⟩) ++
        ["require", "fetch", "importscripts", "worker", "import", "open"].map
          (⟨String.toList ·, true, ['(', q]⟩))

/-- None of them stands in the text. -/
def Quiet (s : Str) : Prop := ∀ o ∈ openings, ∀ t ∈ s.tails, o.begins t = false

instance (s : Str) : Decidable (Quiet s) := inferInstanceAs (Decidable (∀ o ∈ _, ∀ t ∈ _, _))

/-- A character that no occurrence of an opening reaches over. -/
structure Opening.Barrier (o : Opening) (c : Char) : Prop where
  name : ∀ p ∈ o.name, isLetter p c = false
  marks : c ∉ o.marks
  blanks : o.blanks = true → isWhitespace c = false

section Openings

variable {o : Opening} {c : Char} {blank : Bool} {marks name s t w : Str}

theorem behindMarks_barrier (hmarks : c ∉ marks) (hblank : blank = true → isWhitespace c = false)
    (hne : marks ≠ []) (h : behindMarks blank marks (t ++ c :: s) = true) :
    behindMarks blank marks t = true := by
  induction marks generalizing t with
  | nil => exact absurd rfl hne
  | cons m marks ih =>
    rw [List.mem_cons, not_or] at hmarks
    -- the mark stands in front of the barrier
    have hcut : (if blank then (t ++ c :: s).dropWhile isWhitespace else t ++ c :: s) =
        (if blank then t.dropWhile isWhitespace else t) ++ c :: s := by
      cases blank with
      | false => rfl
      | true =>
        simp only [if_true, List.dropWhile_append]
        split
        · next hempty =>
          rw [List.isEmpty_iff] at hempty
          rw [hempty, List.dropWhile_cons_of_neg (by simp [hblank rfl]), List.nil_append]
        · rfl
    unfold behindMarks at h ⊢
    rw [hcut] at h
    cases hfront : (if blank then t.dropWhile isWhitespace else t) with
    | nil =>
      rw [hfront, List.nil_append] at h
      simp only [Bool.and_eq_true, decide_eq_true_eq] at h
      exact absurd h.1 hmarks.1
    | cons c' t' =>
      rw [hfront, List.cons_append] at h
      simp only [Bool.and_eq_true, decide_eq_true_eq] at h ⊢
      refine ⟨h.1, ?_⟩
      by_cases hnil : marks = []
      · rw [hnil]
        rfl
      · exact ih hmarks.2 hnil h.2

theorem beginsWith_barrier (hname : ∀ p ∈ name, isLetter p c = false) (hmarks : c ∉ marks)
    (hblank : blank = true → isWhitespace c = false) (hne : marks ≠ [])
    (h : beginsWith blank marks name (t ++ c :: s) = true) :
    beginsWith blank marks name t = true := by
  induction name generalizing t with
  | nil => exact behindMarks_barrier hmarks hblank hne h
  | cons p name ih =>
    cases t with
    | nil =>
      simp only [List.nil_append, beginsWith, Bool.and_eq_true] at h
      exact absurd (h.1.symm.trans (hname p List.mem_cons_self)) (by simp)
    | cons a t =>
      simp only [List.cons_append, beginsWith, Bool.and_eq_true] at h ⊢
      exact ⟨h.1, ih (fun q hq => hname q (List.mem_cons_of_mem p hq)) h.2⟩

theorem behindMarks_mem {m : Char} (hm : m ∈ marks) (h : behindMarks blank marks s = true) :
    m ∈ s := by
  induction marks generalizing s with
  | nil => simp at hm
  | cons m' marks ih =>
    have hsub : (if blank then s.dropWhile isWhitespace else s) ⊆ s := by
      split
      · exact (List.dropWhile_sublist _).subset
      · exact List.Subset.refl s
    unfold behindMarks at h
    split at h
    · next c s' hs =>
      simp only [Bool.and_eq_true, decide_eq_true_eq] at h
      rw [hs] at hsub
      rcases List.mem_cons.1 hm with rfl | hm
      · exact hsub (h.1 ▸ List.mem_cons_self)
      · exact hsub (List.mem_cons_of_mem _ (ih hm h.2))
    · simp at h

theorem beginsWith_mem {m : Char} (hm : m ∈ marks) (h : beginsWith blank marks name s = true) :
    m ∈ s := by
  induction name generalizing s with
  | nil => exact behindMarks_mem hm h
  | cons p name ih =>
    cases s with
    | nil => simp [beginsWith] at h
    | cons c s =>
      simp only [beginsWith, Bool.and_eq_true] at h
      exact List.mem_cons_of_mem c (ih h.2)

theorem srcset_mem_openings : srcsetOpening ∈ openings := .head _

theorem css_mem_openings : cssOpening ∈ openings := .tail _ (.head _)

theorem openings_marks (h : o ∈ openings) : o.marks ≠ [] := by
  revert o
  decide

theorem Opening.begins_barrier (ho : o ∈ openings) (hc : o.Barrier c)
    (h : o.begins (t ++ c :: s) = true) : o.begins t = true :=
  beginsWith_barrier hc.name hc.marks hc.blanks (openings_marks ho) h

theorem Quiet.suffix (h : Quiet s) (ht : t <:+ s) : Quiet t := fun o ho r hr =>
  h o ho r ((List.mem_tails _ _).2 (((List.mem_tails _ _).1 hr).trans ht))

/-- Every opening lacks one of its marks. -/
theorem quiet_of_marks (h : ∀ o ∈ openings, ∃ m ∈ o.marks, m ∉ s) : Quiet s := by
  intro o ho t ht
  rcases h o ho with ⟨m, hm, hno⟩
  rw [← Bool.not_eq_true]
  intro hbegins
  exact hno (((List.mem_tails _ _).1 ht).subset (beginsWith_mem hm hbegins))

/-- No opening reaches over a barrier. -/
theorem Quiet.append (hc : ∀ o ∈ openings, o.Barrier c) (ht : Quiet t) (hs : Quiet (c :: s)) :
    Quiet (t ++ c :: s) := by
  intro o ho r hr
  rcases (List.mem_tails _ _).1 hr with ⟨a, ha⟩
  rcases List.append_eq_append_iff.1 ha with ⟨t', rfl, rfl⟩ | ⟨s', -, hs'⟩
  · -- one that begins in front of the barrier
    rw [← Bool.not_eq_true]
    intro hbegins
    have hfront := Opening.begins_barrier ho (hc o ho) hbegins
    rw [ht o ho t' ((List.mem_tails _ _).2 (List.suffix_append a t'))] at hfront
    exact Bool.false_ne_true hfront
  · exact hs o ho r ((List.mem_tails _ _).2 ⟨s', hs'.symm⟩)

/-- A matcher that looks for an opening finds nothing in a quiet piece. -/
theorem Opening.quiet {m : Matcher Char Str} {piece : Piece Char} (ho : o ∈ openings)
    (hm : ∀ before t hit, m before t = some hit → o.begins t = true) (htext : Quiet piece.text)
    (hafter : c ∈ piece.after.head?) (hc : o.Barrier c) : m.Quiet piece := by
  intro t ht before
  rcases List.head?_eq_some_iff.1 hafter with ⟨s, hs⟩
  rw [hs]
  cases hfound : m before (t ++ c :: s) with
  | none => rfl
  | some hit =>
    have hfront := Opening.begins_barrier ho hc (hm before _ hit hfound)
    rw [htext o ho t ((List.mem_tails _ _).2 ht)] at hfront
    exact absurd hfront Bool.false_ne_true

theorem beginsWith_of_behindName (h : behindName name s = some (w, t)) :
    beginsWith blank marks name s = behindMarks blank marks t := by
  induction name generalizing s w with
  | nil =>
    obtain ⟨-, rfl⟩ := Prod.mk.inj (Option.some.inj h)
    rfl
  | cons p name ih =>
    cases s with
    | nil => simp [behindName] at h
    | cons c s =>
      rw [behindName] at h
      split at h
      · next hletter =>
        rcases Option.map_eq_some_iff.1 h with ⟨⟨w', t'⟩, hrest, heq⟩
        obtain ⟨-, rfl⟩ := Prod.mk.inj heq
        rw [beginsWith, hletter, Bool.true_and]
        exact ih hrest
      · simp at h

end Openings

/-! ## What the passes find -/

theorem cssMatcher_begins {before : Option Char} {t : Str} {hit : Hit Char Str}
    (h : cssMatcher C ctx before t = some hit) : cssOpening.begins t = true := by
  unfold cssMatcher at h
  rcases Option.bind_eq_some_iff.1 h with ⟨⟨written, s'⟩, hname, hbody⟩
  simp only at hbody
  split at hbody
  · have hname : behindName cssOpening.name t = _ := hname
    rw [Opening.begins, beginsWith_of_behindName hname]
    rfl
  · simp at hbody

theorem srcsetMatcher_begins {rewrite : Str → Replacement Char Str} {before : Option Char}
    {t : Str} {hit : Hit Char Str}
    (h : attributeMatcher isWord ["srcset".toList] rewrite before t = some hit) :
    srcsetOpening.begins t = true := by
  unfold attributeMatcher at h
  split at h
  · simp at h
  · rw [List.findSome?_singleton] at h
    rcases Option.bind_eq_some_iff.1 h with ⟨⟨written, s'⟩, hname, hvalue⟩
    rcases Option.map_eq_some_iff.1 hvalue with ⟨r, hquoted, -⟩
    have hname : behindName srcsetOpening.name t = _ := hname
    rw [Opening.begins, beginsWith_of_behindName hname]
    unfold quotedValue at hquoted
    split at hquoted
    · next s'' hblanks =>
      have hblanks : s'.dropWhile isWhitespace = '=' :: s'' := hblanks
      simp [srcsetOpening, behindMarks, hblanks]
    · simp at hquoted

/-- What a pass writes for a reference, and what stands behind it. -/
def Writes (C : UrlCodec) (ctx : Context) (behind : Char → Prop) (f : Str × Piece Char) : Prop :=
  f.2.text = rewriteRef C ctx f.1 ∧ ∃ c ∈ f.2.after.head?, behind c

variable {f : Str × Piece Char}

theorem Writes.within {behind : Char → Prop} (h : Writes C ctx behind f)
    (front back : Str) : Writes C ctx behind (f.1, f.2.within front back) := by
  rcases h with ⟨htext, c, hc, hbehind⟩
  refine ⟨htext, c, ?_, hbehind⟩
  rcases List.head?_eq_some_iff.1 hc with ⟨s, hs⟩
  rw [Option.mem_def, Piece.within, hs]
  rfl

/-- All that a pass finds is written as its matcher writes it. -/
theorem writes_of_matcher {m : Matcher Char Str} {behind : Char → Prop}
    (hm : ∀ before t hit, m before t = some hit → ∀ f ∈ hit.found, Writes C ctx behind f)
    (h : f ∈ (m.replaceAll content).found) : Writes C ctx behind f := by
  rcases Matcher.mem_replaceFrom h with ⟨before, t, hit, hhit, g, hg, front, back, rfl⟩
  exact (hm before t hit hhit g hg).within front back

/-- The quote behind the value of an attribute. -/
def IsQuote (c : Char) : Prop := c = '"' ∨ c = '\''

theorem attributeMatcher_found {names : List Str} {rewrite : Str → Replacement Char Str}
    {before : Option Char} {t : Str} {hit : Hit Char Str}
    (h : attributeMatcher isWord names rewrite before t = some hit) :
    ∃ value front q, IsQuote q ∧ hit.found = ((rewrite value).within front [q]).found := by
  unfold attributeMatcher at h
  split at h
  · simp at h
  · rcases List.exists_of_findSome?_eq_some h with ⟨name, -, hname⟩
    rcases Option.bind_eq_some_iff.1 hname with ⟨⟨written, s'⟩, -, hvalue⟩
    rcases Option.map_eq_some_iff.1 hvalue with ⟨⟨front, q, value, rest⟩, hquoted, rfl⟩
    refine ⟨value, written ++ front ++ [q], q, ?_, rfl⟩
    unfold quotedValue at hquoted
    split at hquoted
    · split at hquoted
      · split at hquoted
        · next hq =>
          split at hquoted
          · obtain ⟨-, rfl, -⟩ := Option.some.inj hquoted
            exact hq
          · simp at hquoted
        · simp at hquoted
      · simp at hquoted
    · simp at hquoted

theorem attributePass_writes (h : f ∈ ((attributeMatcher isWord urlAttributes
      (rewriteAttribute C ctx)).replaceAll content).found) : Writes C ctx IsQuote f := by
  refine writes_of_matcher ?_ h
  intro before t hit hhit f hf
  rcases attributeMatcher_found hhit with ⟨value, front, q, hq, hfound⟩
  rw [hfound] at hf
  rcases Replacement.mem_within hf with ⟨g, hg, rfl⟩
  obtain rfl := List.mem_singleton.1 hg
  exact ⟨rfl, q, rfl, hq⟩

/-- What stands behind a candidate: a blank, a comma or the quote. -/
def EndsCandidate (c : Char) : Prop := isWhitespace c = true ∨ c = ',' ∨ IsQuote c

theorem rewriteCandidate_found {part : Str}
    (h : f ∈ (rewriteCandidate C ctx part).found) : f.2.text = rewriteRef C ctx f.1 ∧
      ∀ c ∈ f.2.after.head?, isWhitespace c = true := by
  rcases Replacement.mem_within h with ⟨g, hg, rfl⟩
  obtain rfl := List.mem_singleton.1 hg
  refine ⟨rfl, ?_⟩
  intro c hc
  simp only [Piece.within, List.nil_append] at hc
  split at hc
  · have hhead := List.head?_dropWhile_not (!isWhitespace ·) (trim part)
    rw [Option.mem_def] at hc
    rw [candidate] at hc
    rw [hc] at hhead
    simpa using hhead
  · split at hc
    · simp at hc
    · obtain rfl := Option.some.inj hc
      decide

theorem srcsetPass_writes (h : f ∈ ((attributeMatcher isWord ["srcset".toList]
      (rewriteSrcset C ctx)).replaceAll content).found) : Writes C ctx EndsCandidate f := by
  refine writes_of_matcher ?_ h
  intro before t hit hhit f hf
  rcases attributeMatcher_found hhit with ⟨value, front, q, hq, hfound⟩
  rw [hfound] at hf
  rcases Replacement.mem_within hf with ⟨g, hg, rfl⟩
  rcases Replacement.mem_intercalate hg with ⟨r, hr, g', hg', front', back, rfl, hback⟩
  rcases List.mem_map.1 hr with ⟨part, -, rfl⟩
  rcases rewriteCandidate_found hg' with ⟨htext, hblank⟩
  refine ⟨htext, ?_⟩
  simp only [Piece.within]
  cases hafter : g'.2.after with
  | cons c s =>
    rw [hafter] at hblank
    exact ⟨c, rfl, .inl (hblank c rfl)⟩
  | nil =>
    rcases hback with rfl | ⟨s, rfl⟩
    · exact ⟨q, rfl, .inr (.inr hq)⟩
    · exact ⟨',', rfl, .inr (.inl rfl)⟩

theorem cssPass_writes
    (h : f ∈ ((cssMatcher C ctx).replaceAll content).found) : Writes C ctx (· = ')') f := by
  refine writes_of_matcher ?_ h
  intro before t hit hhit f hf
  unfold cssMatcher at hhit
  rcases Option.bind_eq_some_iff.1 hhit with ⟨⟨written, s'⟩, -, hbody⟩
  simp only at hbody
  split at hbody
  · split at hbody
    · split at hbody
      · simp at hbody
      · obtain rfl := Option.some.inj hbody
        rcases Replacement.mem_within hf with ⟨g, hg, rfl⟩
        obtain rfl := List.mem_singleton.1 hg
        exact ⟨rfl, ')', rfl, rfl⟩
    · simp at hbody
  · simp at hbody

/-! ## Quiet references -/

theorem IsQuote.srcset {c : Char} (h : IsQuote c) : srcsetOpening.Barrier c := by
  rcases h with rfl | rfl
  · exact ⟨forall_mem_of_all (by decide), by decide, by decide⟩
  · exact ⟨forall_mem_of_all (by decide), by decide, by decide⟩

theorem isLetter_blank {p c : Char} (hp : p ∈ "url".toList) (hc : isWhitespace c = true) :
    isLetter p c = false := by
  have hletter : ∀ p ∈ "url".toList, p ≠ 's' ∧ p ≠ 'k' ∧ isWhitespace p = false :=
    forall_mem_of_all (by decide)
  -- a blank is its own lower case
  have hlower : c.toLower = c := by
    have hno : ¬ (c.val ≥ 'A'.val ∧ c.val ≤ 'Z'.val) := by
      rintro ⟨hlow, hhigh⟩
      have hlow : 65 ≤ c.toNat := UInt32.le_iff_toNat_le.1 hlow
      have hhigh : c.toNat ≤ 90 := UInt32.le_iff_toNat_le.1 hhigh
      simp only [isWhitespace, Bool.or_eq_true, Bool.and_eq_true, decide_eq_true_eq,
        beq_iff_eq] at hc
      omega
    exact dif_neg hno
  have hne : c ≠ p := by
    rintro rfl
    exact absurd (hc.symm.trans (hletter c hp).2.2) (by decide)
  simp [isLetter, hlower, hne, (hletter p hp).1, (hletter p hp).2.1]

theorem EndsCandidate.css {c : Char} (h : EndsCandidate c) : cssOpening.Barrier c := by
  rcases h with h | rfl | rfl | rfl
  · refine ⟨fun p hp => isLetter_blank hp h, ?_, fun hblanks => absurd hblanks (by decide)⟩
    intro hmem
    obtain rfl := List.mem_singleton.1 hmem
    exact absurd h (by decide)
  · exact ⟨forall_mem_of_all (by decide), by decide, by decide⟩
  · exact ⟨forall_mem_of_all (by decide), by decide, by decide⟩
  · exact ⟨forall_mem_of_all (by decide), by decide, by decide⟩

/-- What stands for a quiet reference at the end is what the pass that has found it has
written. -/
theorem linksOf_rewritten (h : l ∈ linksOf C isWord ctx kind content)
    (hquiet : kind = .html → Quiet (rewriteRef C ctx l.1)) : l.2 = rewriteRef C ctx l.1 := by
  rcases List.mem_map.1 h with ⟨f, hf, rfl⟩
  have hcss : ∀ s, f ∈ Matcher.foundBy [cssMatcher C ctx] s →
      f.2.text = rewriteRef C ctx f.1 := by
    intro s hf
    rcases Matcher.mem_foundBy_cons hf with ⟨g, hg, hsame, hfollow⟩ | hf
    · have hend : g.2 = f.2 := Option.some.inj hfollow
      rw [← hend, ← hsame]
      exact (cssPass_writes hg).1
    · simp [Matcher.foundBy] at hf
  cases kind with
  | css => exact hcss content hf
  | html =>
    have hquiet := hquiet rfl
    rcases Matcher.mem_foundBy_cons hf with ⟨g, hg, hsame, hfollow⟩ | hf
    · -- the value of an attribute, under the two passes behind
      rcases attributePass_writes hg with ⟨htext, c, hc, hquote⟩
      rcases Option.bind_eq_some_iff.1 hfollow with ⟨g₁, hsrcset, hrest⟩
      rcases Option.bind_eq_some_iff.1 hrest with ⟨g₂, hurl, hend⟩
      have hend : g₂ = f.2 := Option.some.inj hend
      subst hend
      rw [hsame] at htext
      have h₁ := Matcher.follow_quiet (Opening.quiet srcset_mem_openings
        (fun _ _ _ hm => srcsetMatcher_begins hm) (htext ▸ hquiet) hc hquote.srcset) hsrcset
      rw [← h₁.2] at hc
      have h₂ := Matcher.follow_quiet (Opening.quiet css_mem_openings
        (fun _ _ _ hm => cssMatcher_begins hm) (h₁.1.trans htext ▸ hquiet) hc
        (EndsCandidate.css (.inr (.inr hquote)))) hurl
      exact h₂.1.trans (h₁.1.trans htext)
    · rcases Matcher.mem_foundBy_cons hf with ⟨g, hg, hsame, hfollow⟩ | hf
      · -- a candidate of a `srcset`
        rcases srcsetPass_writes hg with ⟨htext, c, hc, hends⟩
        rcases Option.bind_eq_some_iff.1 hfollow with ⟨g₁, hurl, hend⟩
        have hend : g₁ = f.2 := Option.some.inj hend
        subst hend
        rw [hsame] at htext
        have h₁ := Matcher.follow_quiet (Opening.quiet css_mem_openings
          (fun _ _ _ hm => cssMatcher_begins hm) (htext ▸ hquiet) hc hends.css) hurl
        exact h₁.1.trans htext
      · exact hcss _ hf

end HomeTier.Rewriter
