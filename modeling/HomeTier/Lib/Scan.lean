import Mathlib.Data.List.Basic

/-! # Replacing what is found in a list

`replaceAll` goes through a list once. Where a matcher, given the element in front
and the rest, finds something, its text takes the place of the elements it covers
and the search goes on behind them. What was found is kept together with the piece
of the new text that stands for it.

Several matchers go over a list one after the other. `follow` says what the later
ones make of a piece: the text between its ends, unless something found in front of
it reaches into it.
-/

namespace HomeTier.Lib

variable {α β : Type}

/-! ## Pieces -/

/-- A part of a text, between what is in front of it and what is behind. -/
structure Piece (α : Type) where
  before : List α
  text : List α
  after : List α
deriving DecidableEq

namespace Piece

def whole (p : Piece α) : List α := p.before ++ p.text ++ p.after

/-- The same part of a longer text. -/
def within (front back : List α) (p : Piece α) : Piece α :=
  ⟨front ++ p.before, p.text, p.after ++ back⟩

@[simp] theorem whole_within (front back : List α) (p : Piece α) :
    (p.within front back).whole = front ++ p.whole ++ back := by
  simp [whole, within]

end Piece

/-- A new text with the pieces of it that stand for what was found. -/
structure Replacement (α β : Type) where
  text : List α
  found : List (β × Piece α)
  whole : ∀ f ∈ found, f.2.whole = text

namespace Replacement

def plain (text : List α) : Replacement α β := ⟨text, [], by simp⟩

/-- All of the text stands for `b`. -/
def single (b : β) (text : List α) : Replacement α β :=
  ⟨text, [(b, ⟨[], text, []⟩)], by simp [Piece.whole]⟩

def within (front back : List α) (r : Replacement α β) : Replacement α β where
  text := front ++ r.text ++ back
  found := r.found.map fun f => (f.1, f.2.within front back)
  whole f hf := by
    rcases List.mem_map.1 hf with ⟨g, hg, rfl⟩
    rw [Piece.whole_within, r.whole g hg]

def append (r r' : Replacement α β) : Replacement α β where
  text := r.text ++ r'.text
  found := (r.within [] r'.text).found ++ (r'.within r.text []).found
  whole f hf := by
    rcases List.mem_append.1 hf with hf | hf
    · exact (r.within [] r'.text).whole f hf
    · exact ((r'.within r.text []).whole f hf).trans (List.append_nil _)

def intercalate (sep : List α) : List (Replacement α β) → Replacement α β
  | [] => plain []
  | [r] => r
  | r :: rs => (r.within [] sep).append (intercalate sep rs)

theorem mem_within {front back : List α} {r : Replacement α β} {f : β × Piece α}
    (h : f ∈ (r.within front back).found) :
    ∃ g ∈ r.found, f = (g.1, g.2.within front back) := by
  rcases List.mem_map.1 h with ⟨g, hg, rfl⟩
  exact ⟨g, hg, rfl⟩

theorem mem_append {r r' : Replacement α β} {f : β × Piece α} (h : f ∈ (r.append r').found) :
    (∃ g ∈ r.found, f = (g.1, g.2.within [] r'.text)) ∨
      ∃ g ∈ r'.found, f = (g.1, g.2.within r.text []) :=
  (List.mem_append.1 h).imp mem_within mem_within

/-- What is found in one of the parts is found there, in front of the separator, or
at the end. -/
theorem mem_intercalate {sep : List α} {rs : List (Replacement α β)} {f : β × Piece α}
    (h : f ∈ (intercalate sep rs).found) : ∃ r ∈ rs, ∃ g ∈ r.found, ∃ front back,
      f = (g.1, g.2.within front back) ∧ (back = [] ∨ sep <+: back) := by
  induction rs generalizing f with
  | nil => simp [intercalate, plain] at h
  | cons r rs ih =>
    cases rs with
    | nil => exact ⟨r, List.mem_cons_self, f, h, [], [], by simp [Piece.within], .inl rfl⟩
    | cons r' rs =>
      rcases mem_append h with ⟨g, hg, rfl⟩ | ⟨g, hg, rfl⟩
      · rcases mem_within hg with ⟨g', hg', rfl⟩
        exact ⟨r, List.mem_cons_self, g', hg', [], sep ++ (intercalate sep (r' :: rs)).text,
          by simp [Piece.within], .inr (List.prefix_append _ _)⟩
      · rcases ih hg with ⟨q, hq, g', hg', front, back, rfl, hback⟩
        exact ⟨q, List.mem_cons_of_mem _ hq, g', hg', (r.within [] sep).text ++ front, back,
          by simp [Piece.within], hback⟩

end Replacement

/-! ## One matcher -/

/-- Something found: what replaces it, and how long it is. -/
structure Hit (α β : Type) extends Replacement α β where
  length : Nat

abbrev Matcher (α β : Type) := Option α → List α → Option (Hit α β)

namespace Matcher

/-- `skip` elements still belong to the last hit. -/
def replaceFrom (m : Matcher α β) : Nat → Option α → List α → Replacement α β
  | _, _, [] => .plain []
  | skip + 1, _, a :: s => replaceFrom m skip (some a) s
  | 0, before, a :: s =>
    match m before (a :: s) with
    | some h => h.toReplacement.append (replaceFrom m (h.length - 1) (some a) s)
    | none => (replaceFrom m 0 (some a) s).within [a] []

def replaceAll (m : Matcher α β) (s : List α) : Replacement α β := m.replaceFrom 0 none s

/-- What is found was found by the matcher somewhere. -/
theorem mem_replaceFrom {m : Matcher α β} {skip : Nat} {before : Option α} {s : List α}
    {f : β × Piece α} (h : f ∈ (m.replaceFrom skip before s).found) :
    ∃ before t hit, m before t = some hit ∧ ∃ g ∈ hit.found, ∃ front back,
      f = (g.1, g.2.within front back) := by
  induction s generalizing skip before f with
  | nil => simp [replaceFrom, Replacement.plain] at h
  | cons a s ih =>
    cases skip with
    | succ skip => exact ih h
    | zero =>
      rw [replaceFrom] at h
      split at h
      · next hit hm =>
        rcases Replacement.mem_append h with ⟨g, hg, rfl⟩ | ⟨g, hg, rfl⟩
        · exact ⟨before, a :: s, hit, hm, g, hg, [], _, rfl⟩
        · rcases ih hg with ⟨before', t, hit', hm', g', hg', front, back, rfl⟩
          exact ⟨before', t, hit', hm', g', hg', hit.text ++ front, back, by simp [Piece.within]⟩
      · rcases Replacement.mem_within h with ⟨g, hg, rfl⟩
        rcases ih hg with ⟨before', t, hit', hm', g', hg', front, back, rfl⟩
        exact ⟨before', t, hit', hm', g', hg', a :: front, back, by simp [Piece.within]⟩

/-! ## A piece under another matcher -/

/-- The search in front of `rest`: the text that takes the place of what it has
passed, how many elements of `rest` still belong to the last hit, and the element in
front of `rest`. -/
def scanTo (m : Matcher α β) (rest : List α) :
    Nat → Option α → List α → List α × Nat × Option α
  | skip, before, [] => ([], skip, before)
  | skip + 1, _, a :: s => scanTo m rest skip (some a) s
  | 0, before, a :: s =>
    match m before (a :: (s ++ rest)) with
    | some h => ((h.text ++ (scanTo m rest (h.length - 1) (some a) s).1,
        (scanTo m rest (h.length - 1) (some a) s).2))
    | none => (a :: (scanTo m rest 0 (some a) s).1, (scanTo m rest 0 (some a) s).2)

theorem replaceFrom_append (m : Matcher α β) (skip : Nat) (before : Option α) (s rest : List α) :
    (m.replaceFrom skip before (s ++ rest)).text = (m.scanTo rest skip before s).1 ++
      (m.replaceFrom (m.scanTo rest skip before s).2.1 (m.scanTo rest skip before s).2.2
        rest).text := by
  induction s generalizing skip before with
  | nil => rfl
  | cons a s ih =>
    cases skip with
    | succ skip => exact ih skip (some a)
    | zero =>
      rw [List.cons_append, replaceFrom, scanTo]
      cases m before (a :: (s ++ rest)) with
      | some h =>
        dsimp only [Replacement.append]
        rw [ih, List.append_assoc]
      | none =>
        dsimp only [Replacement.within]
        rw [ih, List.append_nil]
        rfl

/-- The piece that the matcher leaves in place of `p`; none where something found in
front of `p` reaches into it. -/
def follow (m : Matcher α β) (p : Piece α) : Option (Piece α) :=
  let front := m.scanTo (p.text ++ p.after) 0 none p.before
  if front.2.1 = 0 then
    let inner := m.scanTo p.after 0 front.2.2 p.text
    some ⟨front.1, inner.1, (m.replaceFrom inner.2.1 inner.2.2 p.after).text⟩
  else none

theorem follow_whole {m : Matcher α β} {p p' : Piece α} (h : m.follow p = some p') :
    p'.whole = (m.replaceAll p.whole).text := by
  unfold follow at h
  dsimp only at h
  split at h
  · next hskip =>
    obtain rfl := Option.some.inj h
    rw [replaceAll, Piece.whole, Piece.whole, List.append_assoc p.before, replaceFrom_append, hskip,
      replaceFrom_append, List.append_assoc]
  · simp at h

/-- The matcher finds nothing that begins in the piece or right behind it. -/
def Quiet (m : Matcher α β) (p : Piece α) : Prop :=
  ∀ t, t <:+ p.text → ∀ before, m before (t ++ p.after) = none

theorem scanTo_quiet {m : Matcher α β} {rest s : List α}
    (h : ∀ t, t <:+ s → ∀ before, m before (t ++ rest) = none) (before : Option α) :
    (m.scanTo rest 0 before s).1 = s ∧ (m.scanTo rest 0 before s).2.1 = 0 := by
  induction s generalizing before with
  | nil => exact ⟨rfl, rfl⟩
  | cons a s ih =>
    have hnone : m before (a :: (s ++ rest)) = none := h (a :: s) List.suffix_rfl before
    have hrest := ih (fun t ht => h t (ht.trans (List.suffix_cons a s))) (some a)
    rw [scanTo, hnone]
    exact ⟨congrArg _ hrest.1, hrest.2⟩

/-- A quiet piece keeps its text, and what stands behind it. -/
theorem follow_quiet {m : Matcher α β} {p p' : Piece α} (hquiet : m.Quiet p)
    (h : m.follow p = some p') : p'.text = p.text ∧ p'.after.head? = p.after.head? := by
  unfold follow at h
  dsimp only at h
  split at h
  · obtain rfl := Option.some.inj h
    have hscan := fun before => scanTo_quiet hquiet before
    refine ⟨(hscan _).1, ?_⟩
    dsimp only
    rw [(hscan _).2]
    cases hafter : p.after with
    | nil => rfl
    | cons a s =>
      have hnone : ∀ before, m before (a :: s) = none := by
        intro before
        have hend := hquiet [] List.nil_suffix before
        rwa [List.nil_append, hafter] at hend
      rw [replaceFrom, hnone]
      rfl
  · simp at h

/-! ## Several matchers -/

/-- One after the other. -/
def rewrite : List (Matcher α β) → List α → List α
  | [], s => s
  | m :: ms, s => rewrite ms (m.replaceAll s).text

def followAll : List (Matcher α β) → Piece α → Option (Piece α)
  | [], p => some p
  | m :: ms, p => (m.follow p).bind (followAll ms)

theorem followAll_whole {ms : List (Matcher α β)} {p p' : Piece α} (h : followAll ms p = some p') :
    p'.whole = rewrite ms p.whole := by
  induction ms generalizing p with
  | nil =>
    obtain rfl := Option.some.inj h
    rfl
  | cons m ms ih =>
    rcases Option.bind_eq_some_iff.1 h with ⟨q, hq, hrest⟩
    rw [ih hrest, follow_whole hq]
    rfl

/-- What each of them finds, with the piece of the last text that stands for it. -/
def foundBy : List (Matcher α β) → List α → List (β × Piece α)
  | [], _ => []
  | m :: ms, s => (m.replaceAll s).found.filterMap (fun f => (followAll ms f.2).map (f.1, ·)) ++
      foundBy ms (m.replaceAll s).text

/-- The first one finds it, and the others leave it, or one of those finds it. -/
theorem mem_foundBy_cons {m : Matcher α β} {ms : List (Matcher α β)} {s : List α} {f : β × Piece α}
    (h : f ∈ foundBy (m :: ms) s) :
    (∃ g ∈ (m.replaceAll s).found, g.1 = f.1 ∧ followAll ms g.2 = some f.2) ∨
      f ∈ foundBy ms (m.replaceAll s).text := by
  refine (List.mem_append.1 h).imp_left fun h => ?_
  rcases List.mem_filterMap.1 h with ⟨g, hg, hf⟩
  rcases Option.map_eq_some_iff.1 hf with ⟨p, hp, rfl⟩
  exact ⟨g, hg, rfl, hp⟩

/-- It is a piece of the last text. -/
theorem foundBy_whole {ms : List (Matcher α β)} {s : List α} {f : β × Piece α}
    (h : f ∈ foundBy ms s) : f.2.whole = rewrite ms s := by
  induction ms generalizing s with
  | nil => simp [foundBy] at h
  | cons m ms ih =>
    rcases mem_foundBy_cons h with ⟨g, hg, -, hfollow⟩ | h
    · rw [followAll_whole hfollow, (m.replaceAll s).whole g hg]
      rfl
    · exact ih h

end Matcher

end HomeTier.Lib
