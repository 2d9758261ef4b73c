import HomeTier.Lib.Text

/-! # Reference resolution

A reference is read into its five components, resolved against a base and
requested: `Reference.resolve` is the strict algorithm of the generic URI
syntax, `Reference.target` is what of a URL a request is about, with its dot
segments removed and without the fragment.

The facts about dot segments are about lists of segments: removing them below a
directory that the path does not climb out of is removing them on their own
(`removeDots_base`).
-/

namespace HomeTier.Lib

/-! ## Dot segments -/

def dot : Str := ['.']

def dotDot : Str := ['.', '.']

/-- What one segment that another one follows does to the directories passed so
far, innermost first. -/
def enter (out : List Str) (s : Str) : List Str :=
  if s = dot then out else if s = dotDot then out.tail else s :: out

/-- The segments of a path below `out`, innermost first, without dot segments.
A dot segment at the end leaves the directory it names. -/
@[grind] def removeDots (out : List Str) : List Str → List Str
  | [] => out.reverse
  | [s] => (if s = dot ∨ s = dotDot then [] :: enter out s else s :: out).reverse
  | s :: t :: ss => removeDots (enter out s) (t :: ss)

/-- No `..` leaves the directory that lies `n` levels up. -/
def Stays : Nat → List Str → Prop
  | _, [] => True
  | n, s :: ss =>
    if s = dot then Stays n ss
    else if s = dotDot then 0 < n ∧ Stays (n - 1) ss
    else Stays (n + 1) ss

instance Stays.decidable (n : Nat) (ss : List Str) : Decidable (Stays n ss) := by
  induction ss generalizing n with
  | nil => exact isTrue trivial
  | cons s ss ih =>
    unfold Stays
    infer_instance

def DotFree (ss : List Str) : Prop := ∀ s ∈ ss, s ≠ dot ∧ s ≠ dotDot

instance (ss : List Str) : Decidable (DotFree ss) := inferInstanceAs (Decidable (∀ s ∈ ss, _))

variable {path p a s : Str}

theorem enter_of_dotFree (h : s ≠ dot ∧ s ≠ dotDot) (out : List Str) : enter out s = s :: out := by
  rw [enter, if_neg h.1, if_neg h.2]

variable {ss out : List Str}

theorem removeDots_of_dotFree (h : DotFree ss) (out : List Str) :
    removeDots out ss = out.reverse ++ ss := by
  induction ss generalizing out with
  | nil => simp [removeDots]
  | cons s ss ih =>
    have hs := h s List.mem_cons_self
    cases ss with
    | nil =>
      rw [removeDots, if_neg (not_or.2 hs)]
      simp
    | cons t ss =>
      have hrest : DotFree (t :: ss) := fun r hr => h r (List.mem_cons_of_mem s hr)
      rw [removeDots, enter_of_dotFree hs, ih hrest]
      simp

theorem dotFree_enter (h : DotFree out) (s : Str) : DotFree (enter out s) := by
  unfold enter
  split
  · exact h
  · next hdot =>
    split
    · exact fun r hr => h r (List.mem_of_mem_tail hr)
    · next hdotDot =>
      intro r hr
      rcases List.mem_cons.1 hr with rfl | hr
      · exact ⟨hdot, hdotDot⟩
      · exact h r hr

/-- No dot segment is left. -/
theorem dotFree_removeDots (h : DotFree out) (ss : List Str) : DotFree (removeDots out ss) := by
  induction ss generalizing out with
  | nil => exact fun r hr => h r (by simpa [removeDots] using hr)
  | cons s ss ih =>
    cases ss with
    | nil =>
      have hend : DotFree (if s = dot ∨ s = dotDot then [] :: enter out s else s :: out) := by
        intro r hr
        split at hr
        · rcases List.mem_cons.1 hr with rfl | hr
          · decide
          · exact dotFree_enter h s r hr
        · next hs =>
          rcases List.mem_cons.1 hr with rfl | hr
          · exact not_or.1 hs
          · exact h r hr
      exact fun r hr => hend r (by simpa only [removeDots, List.mem_reverse] using hr)
    | cons t ss => exact ih (dotFree_enter h s)

/-- A path that does not climb out of `out` leaves what is above alone. -/
theorem removeDots_base (h : Stays out.length ss)
    (base : List Str) : removeDots (out ++ base) ss = base.reverse ++ removeDots out ss := by
  induction ss generalizing out with
  | nil => simp [removeDots]
  | cons s ss ih =>
    -- one step changes what is in front of the base only
    have hstep : enter (out ++ base) s = enter out s ++ base ∧
        Stays (enter out s).length ss := by
      unfold Stays at h
      unfold enter
      split at h
      · next hs => simpa only [if_pos hs] using ⟨trivial, h⟩
      · next hs =>
        split at h
        · next hs' =>
          simp only [if_neg hs, if_pos hs', List.length_tail]
          refine ⟨?_, h.2⟩
          cases out with
          | nil => simp at h
          | cons o out => rfl
        · next hs' => simpa only [if_neg hs, if_neg hs', List.length_cons, List.cons_append] using ⟨trivial, h⟩
    cases ss with
    | nil =>
      simp only [removeDots, hstep.1]
      split
      · simp
      · simp
    | cons t ss => rw [removeDots, removeDots, hstep.1, ih hstep.2]

theorem stays_of_dotFree (h : DotFree ss) (n : Nat) : Stays n ss := by
  induction ss generalizing n with
  | nil => trivial
  | cons s ss ih =>
    have hs := h s List.mem_cons_self
    rw [Stays, if_neg hs.1, if_neg hs.2]
    exact ih (fun r hr => h r (List.mem_cons_of_mem s hr)) (n + 1)

/-- Directories in front of a path are entered first. -/
theorem removeDots_append (out : List Str) (ss : List Str) {ts : List Str} (h : ts ≠ []) :
    removeDots out (ss ++ ts) = removeDots (ss.foldl enter out) ts := by
  induction ss generalizing out with
  | nil => rfl
  | cons s ss ih =>
    cases hrest : ss ++ ts with
    | nil => exact absurd (List.append_eq_nil_iff.1 hrest).2 h
    | cons t us => rw [List.cons_append, hrest, removeDots, ← hrest, ih, List.foldl_cons]

theorem removeDots_ne_nil (h : ss ≠ []) (out : List Str) : removeDots out ss ≠ [] := by
  induction ss generalizing out with
  | nil => exact absurd rfl h
  | cons s ss ih =>
    cases ss with
    | nil =>
      rw [removeDots]
      split
      · simp
      · simp
    | cons t ss => exact ih (List.cons_ne_nil t ss) _

/-- Segments are neither made up nor split. -/
theorem mem_removeDots {r : Str} (h : r ∈ removeDots out ss) : r = [] ∨ r ∈ out ∨ r ∈ ss := by
  have henter : ∀ {out : List Str} {s r : Str}, r ∈ enter out s → r ∈ out ∨ r = s := by
    intro out s r hr
    unfold enter at hr
    split at hr
    · exact .inl hr
    · split at hr
      · exact .inl (List.mem_of_mem_tail hr)
      · rcases List.mem_cons.1 hr with rfl | hr
        · exact .inr rfl
        · exact .inl hr
  induction ss generalizing out with
  | nil => exact .inr (.inl (by simpa [removeDots] using h))
  | cons s ss ih =>
    cases ss with
    | nil =>
      simp only [removeDots, List.mem_reverse] at h
      split at h
      · rcases List.mem_cons.1 h with rfl | h
        · exact .inl rfl
        · rcases henter h with h | rfl
          · exact .inr (.inl h)
          · exact .inr (.inr List.mem_cons_self)
      · rcases List.mem_cons.1 h with rfl | h
        · exact .inr (.inr List.mem_cons_self)
        · exact .inr (.inl h)
    | cons t ss =>
      rcases ih h with h | h | h
      · exact .inl h
      · rcases henter h with h | rfl
        · exact .inr (.inl h)
        · exact .inr (.inr List.mem_cons_self)
      · exact .inr (.inr (List.mem_cons_of_mem s h))

/-! ## Paths -/

/-- The segments of a path with a slash in front. -/
def segments (path : Str) : List Str := path.tail.splitOn '/'

/-- A path of segments. -/
def ofSegments (ss : List Str) : Str := '/' :: List.intercalate ['/'] ss

/-- A rooted path without dot segments; others are left alone. -/
def cleanPath (path : Str) : Str :=
  if path.head? = some '/' then ofSegments (removeDots [] (segments path)) else path

theorem segments_ne_nil (path : Str) : segments path ≠ [] := List.splitOn_ne_nil _ _

theorem segments_ofSegments (hne : ss ≠ []) (h : ∀ s ∈ ss, '/' ∉ s) :
    segments (ofSegments ss) = ss := by
  rw [segments, ofSegments, List.tail_cons]
  exact List.splitOn_intercalate '/' h hne

theorem ofSegments_segments (h : path.head? = some '/') : ofSegments (segments path) = path := by
  cases path with
  | nil => simp at h
  | cons c p =>
    obtain rfl : c = '/' := by simpa using h
    rw [ofSegments, segments, List.tail_cons, List.intercalate_splitOn]

theorem segments_noSlash (path : Str) : ∀ s ∈ segments path, '/' ∉ s :=
  fun _ hs => notMem_of_mem_splitOn hs

theorem segments_append_cons (a q : Str) :
    segments ('/' :: a ++ '/' :: q) = a.splitOn '/' ++ q.splitOn '/' :=
  List.splitOn_append_cons_self a q

/-- A path below a directory has the segments of both. -/
theorem segments_append (ha : a.head? = some '/') (hp : p.head? = some '/') :
    segments (a ++ p) = segments a ++ segments p := by
  cases a with
  | nil => simp at ha
  | cons c a =>
    cases p with
    | nil => simp at hp
    | cons d p =>
      obtain rfl : c = '/' := by simpa using ha
      obtain rfl : d = '/' := by simpa using hp
      exact segments_append_cons a p

theorem cleanPath_eq (h : path.head? = some '/') :
    cleanPath path = ofSegments (removeDots [] (segments path)) := if_pos h

theorem cleanPath_rooted (h : path.head? = some '/') : (cleanPath path).head? = some '/' := by
  rw [cleanPath_eq h]
  rfl

theorem segments_cleanPath (h : path.head? = some '/') :
    segments (cleanPath path) = removeDots [] (segments path) := by
  rw [cleanPath_eq h]
  refine segments_ofSegments (removeDots_ne_nil (segments_ne_nil path) []) ?_
  intro s hs
  rcases mem_removeDots hs with rfl | hs | hs
  · simp
  · simp at hs
  · exact segments_noSlash path s hs

theorem cleanPath_of_dotFree (h : DotFree (segments path)) : cleanPath path = path := by
  unfold cleanPath
  split
  · next hroot =>
    rw [removeDots_of_dotFree h]
    exact ofSegments_segments hroot
  · rfl

theorem dotFree_cleanPath (h : path.head? = some '/') : DotFree (segments (cleanPath path)) := by
  rw [segments_cleanPath h]
  exact dotFree_removeDots (by simp [DotFree]) _

/-- There is nothing to remove a second time. -/
theorem cleanPath_cleanPath (path : Str) : cleanPath (cleanPath path) = cleanPath path := by
  by_cases h : path.head? = some '/'
  · exact cleanPath_of_dotFree (dotFree_cleanPath h)
  · have hself : cleanPath path = path := if_neg h
    rw [hself, hself]

variable {c : Char}

theorem mem_ofSegments : c ∈ ofSegments ss ↔ c = '/' ∨ ∃ s ∈ ss, c ∈ s := by
  rw [ofSegments, List.mem_cons]
  induction ss with
  | nil => simp
  | cons s ss ih =>
    cases ss with
    | nil => simp
    | cons t ss =>
      have hcons : List.intercalate ['/'] (s :: t :: ss) =
          s ++ '/' :: List.intercalate ['/'] (t :: ss) := by simp
      rw [hcons, List.mem_append, List.mem_cons]
      constructor
      · rintro (h | h | h | h)
        · exact .inl h
        · exact .inr ⟨s, List.mem_cons_self, h⟩
        · exact .inl h
        · rcases ih.1 (.inr h) with h | ⟨r, hr, h⟩
          · exact .inl h
          · exact .inr ⟨r, List.mem_cons_of_mem s hr, h⟩
      · rintro (h | ⟨r, hr, h⟩)
        · exact .inl h
        · rcases List.mem_cons.1 hr with rfl | hr
          · exact .inr (.inl h)
          · rcases ih.2 (.inr ⟨r, hr, h⟩) with h | h
            · exact .inl h
            · exact .inr (.inr (.inr h))

/-- The characters of a clean path are those of the path. -/
theorem mem_of_mem_cleanPath (h : c ∈ cleanPath path) : c ∈ path := by
  by_cases hroot : path.head? = some '/'
  · rw [cleanPath_eq hroot, mem_ofSegments] at h
    rw [← ofSegments_segments hroot, mem_ofSegments]
    rcases h with h | ⟨s, hs, hc⟩
    · exact .inl h
    · rcases mem_removeDots hs with rfl | hs | hs
      · simp at hc
      · simp at hs
      · exact .inr ⟨s, hs, hc⟩
  · rwa [cleanPath, if_neg hroot] at h

/-- Below a directory that the path stays under, its dot segments may be removed
beforehand. -/
theorem cleanPath_below (ha : a = [] ∨ a.head? = some '/') (hp : p.head? = some '/')
    (hstays : Stays 0 (segments p)) : cleanPath (a ++ cleanPath p) = cleanPath (a ++ p) := by
  rcases ha with rfl | ha
  · exact cleanPath_cleanPath p
  · have hhead : ∀ q : Str, (a ++ q).head? = some '/' := fun q => by
      rw [List.head?_append, ha, Option.some_or]
    have hclean := cleanPath_rooted hp
    have hfree := dotFree_cleanPath hp
    rw [cleanPath_eq (hhead (cleanPath p)), cleanPath_eq (hhead p), segments_append ha hclean,
      segments_append ha hp, removeDots_append _ _ (segments_ne_nil _),
      removeDots_append _ _ (segments_ne_nil _), removeDots_of_dotFree hfree,
      segments_cleanPath hp]
    have hbase := @removeDots_base _ [] hstays ((segments a).foldl enter [])
    rw [List.nil_append] at hbase
    rw [hbase]

/-! ## References -/

structure Reference where
  scheme : Option Str
  authority : Option Str
  path : Str
  query : Option Str
  fragment : Option Str
deriving DecidableEq

def isSchemeChar (c : Char) : Bool := c.isAlphanum || c = '+' || c = '-' || c = '.'

/-- A scheme in front of the first colon, in lower case. -/
def splitScheme (s : Str) : Option Str × Str :=
  match cutAt ':' s with
  | (c :: name, some rest) =>
    if c.isAlpha ∧ name.all isSchemeChar then (some ((c :: name).map Char.toLower), rest)
    else (none, s)
  | _ => (none, s)

/-- An authority behind two slashes. -/
def splitAuthority (s : Str) : Option Str × Str :=
  match s with
  | '/' :: '/' :: rest => (some (cutAt '/' rest).1, withDelimiter '/' (cutAt '/' rest).2)
  | s => (none, s)

/-- Path, query and fragment. -/
structure LocalPart where
  path : Str
  query : Option Str
  fragment : Option Str
deriving DecidableEq

def parseTail (s : Str) : LocalPart :=
  let front := (cutAt '#' s).1
  ⟨(cutAt '?' front).1, (cutAt '?' front).2, (cutAt '#' s).2⟩

def parseReference (s : Str) : Reference :=
  let t := parseTail s
  let rest := (splitScheme t.path).2
  { scheme := (splitScheme t.path).1, authority := (splitAuthority rest).1,
    path := (splitAuthority rest).2, query := t.query, fragment := t.fragment }

/-- A relative path starts in the directory of the base. -/
def mergePath (base path : Str) : Str :=
  match cutAtLast '/' base with
  | some (dir, _) => dir ++ '/' :: path
  | none => path

namespace Reference

def merge (base : Reference) (path : Str) : Str :=
  if base.authority.isSome ∧ base.path = [] then '/' :: path else mergePath base.path path

def resolve (base r : Reference) : Reference :=
  if r.scheme.isSome then { r with path := cleanPath r.path }
  else if r.authority.isSome then { r with scheme := base.scheme, path := cleanPath r.path }
  else if r.path = [] then
    { base with query := if r.query.isSome then r.query else base.query, fragment := r.fragment }
  else if r.path.head? = some '/' then
    { r with scheme := base.scheme, authority := base.authority, path := cleanPath r.path }
  else
    { r with
      scheme := base.scheme, authority := base.authority, path := cleanPath (base.merge r.path) }

/-- The reference as it is written. -/
def text (r : Reference) : Str :=
  (r.scheme.elim [] fun s => s ++ [':']) ++ (r.authority.elim [] fun a => '/' :: '/' :: a) ++
    r.path ++ withDelimiter '?' r.query ++ withDelimiter '#' r.fragment

end Reference

/-- What a request for a URL is about. -/
structure Target where
  scheme : Option Str
  authority : Option Str
  path : Str
  query : Option Str
deriving DecidableEq

def Reference.target (r : Reference) : Target :=
  { scheme := r.scheme, authority := r.authority, query := r.query,
    path := if r.authority.isSome ∧ r.path = [] then ['/'] else cleanPath r.path }

/-! ### Merging -/

theorem mergePath_cases (h : '/' ∈ p) : ∃ dir last, p = dir ++ '/' :: last ∧ '/' ∉ last ∧
      ∀ a path, mergePath (a ++ p) path = a ++ (dir ++ '/' :: path) := by
  have hslash : '/' ∈ p.reverse := List.mem_reverse.2 h
  rcases List.eq_append_cons_of_mem hslash with ⟨x, y, hrev, hx⟩
  have hform : p = y.reverse ++ '/' :: x.reverse := by
    rw [← List.reverse_reverse p, hrev]
    simp
  have hlast : '/' ∉ x.reverse := by simpa using hx
  refine ⟨y.reverse, x.reverse, hform, hlast, ?_⟩
  intro a path
  rw [hform, mergePath, ← List.append_assoc, cutAtLast_append hlast]
  simp

/-- Only the directory of the base counts. -/
theorem mergePath_append (a : Str) (hp : p.head? = some '/') (path : Str) :
    mergePath (a ++ p) path = a ++ mergePath p path := by
  rcases mergePath_cases (List.mem_of_mem_head? hp) with ⟨dir, last, -, -, hmerge⟩
  rw [hmerge, ← List.nil_append p, hmerge, List.nil_append]

theorem mem_mergePath (hp : p.head? = some '/') (h : c ∈ mergePath p path) : c ∈ p ∨ c ∈ path := by
  rcases mergePath_cases (List.mem_of_mem_head? hp) with ⟨dir, last, hform, -, hmerge⟩
  rw [← List.nil_append p, hmerge, List.nil_append] at h
  rw [List.mem_append, List.mem_cons] at h
  rw [hform, List.mem_append, List.mem_cons]
  rcases h with h | h | h
  · exact .inl (.inl h)
  · exact .inl (.inr (.inl h))
  · exact .inr h

theorem mergePath_rooted (hp : p.head? = some '/') (path : Str) :
    (mergePath p path).head? = some '/' := by
  rcases mergePath_cases (List.mem_of_mem_head? hp) with ⟨dir, last, hform, -, hmerge⟩
  rw [← List.nil_append p, hmerge, List.nil_append]
  cases dir with
  | nil => rfl
  | cons d dir => simpa [hform] using hp

/-! ### Reading -/

theorem cutAt_append_left (h : c ∉ a) (b : Str) :
    cutAt c (a ++ b) = (a ++ (cutAt c b).1, (cutAt c b).2) := by
  have hall : ∀ x ∈ a, decide (x ≠ c) = true := by
    intro x hx
    have hne : x ≠ c := by
      rintro rfl
      exact h hx
    simpa using hne
  rw [cutAt, cutAt, List.takeWhile_append_of_pos hall, List.dropWhile_append_of_pos hall]

theorem cutAt_withDelimiter (h : c ∉ a) (part : Option Str) :
    cutAt c (a ++ withDelimiter c part) = (a, part) := by
  cases part with
  | none => rw [withDelimiter, List.append_nil, cutAt_of_notMem h]
  | some s => rw [withDelimiter, cutAt_append h]

theorem parseTail_append (h : ∀ c ∈ ['?', '#'], c ∉ a) (b : Str) :
    parseTail (a ++ b) = { parseTail b with path := a ++ (parseTail b).path } := by
  have hhash := cutAt_append_left (h '#' (by simp)) b
  have hmark := cutAt_append_left (h '?' (by simp)) (cutAt '#' b).1
  simp only [parseTail, hhash, hmark]

theorem parseTail_plain (s : Str) : ∀ c ∈ ['?', '#'], c ∉ (parseTail s).path := by
  intro c hc hmem
  rcases List.mem_cons.1 hc with rfl | hc
  · exact notMem_cutAt '?' _ hmem
  · rcases List.mem_singleton.1 hc with rfl
    exact notMem_cutAt '#' s (List.takeWhile_subset _ hmem)

theorem parseTail_query (s : Str) : ∀ q ∈ (parseTail s).query, '#' ∉ q := by
  intro q hq hmem
  have hfront : '#' ∉ (cutAt '#' s).1 := notMem_cutAt '#' s
  have hjoin := cutAt_join '?' (cutAt '#' s).1
  have hq' : (cutAt '?' (cutAt '#' s).1).2 = some q := hq
  rw [hq'] at hjoin
  rw [← hjoin] at hfront
  exact hfront (List.mem_append_right _ (List.mem_cons_of_mem _ hmem))

theorem parseTail_join (s : Str) :
    (parseTail s).path ++ withDelimiter '?' (parseTail s).query ++
      withDelimiter '#' (parseTail s).fragment = s := by
  simp only [parseTail]
  rw [cutAt_join, cutAt_join]

theorem parseTail_of_plain {query fragment : Option Str}
    (hpath : ∀ c ∈ ['?', '#'], c ∉ path) (hquery : ∀ q ∈ query, '#' ∉ q) :
    parseTail (path ++ withDelimiter '?' query ++ withDelimiter '#' fragment) =
      ⟨path, query, fragment⟩ := by
  have hfront : '#' ∉ path ++ withDelimiter '?' query := by
    rw [List.mem_append, not_or]
    refine ⟨hpath '#' (by simp), ?_⟩
    cases query with
    | none => simp [withDelimiter]
    | some q => simpa [withDelimiter] using hquery q rfl
  simp only [parseTail, cutAt_withDelimiter hfront, cutAt_withDelimiter (hpath '?' (by simp))]

/-- What may follow an authority. -/
def EndsAuthority (tail : Str) : Prop := ∀ c ∈ tail.head?, c ∈ ['/', '?', '#']

theorem parseTail_rooted {tail : Str} (h : EndsAuthority tail) :
    (parseTail tail).path = [] ∨ (parseTail tail).path.head? = some '/' := by
  cases tail with
  | nil => exact .inl rfl
  | cons c t =>
    have hc : c ∈ ['/', '?', '#'] := h c rfl
    simp only [List.mem_cons, List.not_mem_nil, or_false] at hc
    rcases hc with rfl | rfl | rfl
    · right
      simp [parseTail, cutAt]
    · left
      simp [parseTail, cutAt]
    · left
      simp [parseTail, cutAt]

theorem parseTail_head : (parseTail s).path.head? = some '/' ↔ s.head? = some '/' := by
  constructor
  · intro h
    have hjoin := parseTail_join s
    rw [List.append_assoc] at hjoin
    rw [← hjoin, List.head?_append, h, Option.some_or]
  · intro h
    cases s with
    | nil => simp at h
    | cons c r =>
      obtain rfl : c = '/' := by simpa using h
      have happ := parseTail_append (a := ['/']) (forall_mem_of_all (by decide)) r
      rw [List.singleton_append] at happ
      rw [happ]
      rfl

theorem splitAuthority_append {authority path : Str} (h : '/' ∉ authority)
    (hpath : path = [] ∨ path.head? = some '/') :
    splitAuthority ('/' :: '/' :: (authority ++ path)) = (some authority, path) := by
  rcases hpath with rfl | hpath
  · simp [splitAuthority, cutAt_of_notMem h, withDelimiter]
  · cases path with
    | nil => simp at hpath
    | cons c p =>
      obtain rfl : c = '/' := by simpa using hpath
      simp [splitAuthority, cutAt_append h, withDelimiter]

theorem splitScheme_of_head (hc : c.isAlpha = false) (s : Str) :
    splitScheme (c :: s) = (none, c :: s) := by
  unfold splitScheme
  split
  · next d name rest hcut =>
    have hd : d = c := by
      have hfst := congrArg Prod.fst hcut
      rw [cutAt] at hfst
      by_cases hcolon : c = ':'
      · simp [hcolon] at hfst
      · rw [List.takeWhile_cons_of_pos (by simpa using hcolon)] at hfst
        exact (List.cons.inj hfst).1.symm
    rw [hd, hc, if_neg (by simp)]
  · rfl

theorem splitScheme_append {name : Str} (hc : c.isAlpha = true)
    (hname : name.all isSchemeChar = true) (rest : Str) :
    splitScheme (c :: name ++ ':' :: rest) = (some ((c :: name).map Char.toLower), rest) := by
  have hcolon : ':' ∉ c :: name := by
    intro h
    rcases List.mem_cons.1 h with rfl | h
    · simp at hc
    · exact absurd (List.all_eq_true.1 hname ':' h) (by decide)
  rw [splitScheme, cutAt_append hcolon]
  exact if_pos ⟨hc, hname⟩

theorem splitScheme_none (h : (splitScheme s).1 = none) : (splitScheme s).2 = s := by
  unfold splitScheme at h ⊢
  split at h
  · split at h
    · simp at h
    · next hno =>
      rw [if_neg hno]
  · rfl

/-- A relative reference is its path. -/
theorem parseReference_relative (hscheme : (parseReference s).scheme = none)
    (h : s.head? ≠ some '/') :
    parseReference s =
      { scheme := none, authority := none, path := (parseTail s).path,
        query := (parseTail s).query, fragment := (parseTail s).fragment } := by
  have hpath := splitScheme_none hscheme
  have hhead : (parseTail s).path.head? ≠ some '/' := fun hp => h (parseTail_head.1 hp)
  have hauthority : splitAuthority (parseTail s).path = (none, (parseTail s).path) := by
    unfold splitAuthority
    split
    · next rest heq => exact absurd (by rw [heq]; rfl) hhead
    · rfl
  have hnone : (splitScheme (parseTail s).path).1 = none := hscheme
  simp only [parseReference, hnone, hpath, hauthority]

/-- A URL with an authority. -/
theorem parseReference_absolute {scheme authority tail : Str}
    (hscheme : splitScheme (scheme ++ ':' :: '/' :: '/' :: (authority ++ (parseTail tail).path)) =
      (some scheme, '/' :: '/' :: (authority ++ (parseTail tail).path)))
    (hplain : ∀ c ∈ ['?', '#'], c ∉ scheme)
    (hauthority : ∀ c ∈ ['/', '?', '#'], c ∉ authority) (htail : EndsAuthority tail) :
    parseReference (scheme ++ "://".toList ++ authority ++ tail) =
      { scheme := some scheme, authority := some authority, path := (parseTail tail).path,
        query := (parseTail tail).query, fragment := (parseTail tail).fragment } := by
  have hfront : ∀ c ∈ ['?', '#'], c ∉ scheme ++ "://".toList ++ authority := by
    intro c hc
    have hsep : ∀ c ∈ ['?', '#'], c ∉ "://".toList := forall_mem_of_all (by decide)
    simp only [List.mem_append, not_or]
    exact ⟨⟨hplain c hc, hsep c hc⟩, hauthority c (List.mem_cons_of_mem _ hc)⟩
  have hform : scheme ++ "://".toList ++ authority ++ (parseTail tail).path =
      scheme ++ ':' :: '/' :: '/' :: (authority ++ (parseTail tail).path) := by simp
  simp only [parseReference, parseTail_append hfront, hform, hscheme,
    splitAuthority_append (hauthority '/' (by simp)) (parseTail_rooted htail)]

/-- A reference with an authority and no scheme. -/
theorem parseReference_network (r : Str) :
    parseReference ("//".toList ++ r) =
      { scheme := none, authority := some (cutAt '/' (parseTail r).path).1,
        path := withDelimiter '/' (cutAt '/' (parseTail r).path).2,
        query := (parseTail r).query, fragment := (parseTail r).fragment } := by
  have hpath := parseTail_append (a := "//".toList) (forall_mem_of_all (by decide)) r
  have hscheme : splitScheme ("//".toList ++ (parseTail r).path) =
      (none, "//".toList ++ (parseTail r).path) := splitScheme_of_head (c := '/') (by decide) _
  simp only [parseReference, hpath, hscheme]
  rfl

/-- A reference to a path of the same authority. -/
theorem parseReference_rooted (h : s.head? = some '/') (hslash : ¬ "//".toList <+: s) :
    parseReference s =
      { scheme := none, authority := none, path := (parseTail s).path,
        query := (parseTail s).query, fragment := (parseTail s).fragment } := by
  cases s with
  | nil => simp at h
  | cons c r =>
    obtain rfl : c = '/' := by simpa using h
    have hpath : (parseTail ('/' :: r)).path = '/' :: (parseTail r).path := by
      have happ := parseTail_append (a := ['/']) (forall_mem_of_all (by decide)) r
      rw [List.singleton_append] at happ
      rw [happ]
      rfl
    have hauthority : splitAuthority ('/' :: (parseTail r).path) =
        (none, '/' :: (parseTail r).path) := by
      unfold splitAuthority
      split
      · next rest heq =>
        -- a second slash would be one of the reference
        refine absurd ?_ hslash
        have hsecond : (parseTail r).path = '/' :: rest := (List.cons.inj heq).2
        have hjoin := parseTail_join r
        rw [hsecond] at hjoin
        rw [← hjoin]
        exact ⟨_, rfl⟩
      · rfl
    simp only [parseReference, hpath, splitScheme_of_head (c := '/') (by decide), hauthority]

end HomeTier.Lib
