import HomeTier.Lib.Text

/-! # Tags of an HTML document

A reader of HTML text, one character at a time: comments, declarations, the
names and attributes of tags, and the text of elements that holds no tags. The
escaped texts of scripts are left out. `firstStartTag` cuts a document behind its
first start tag of a name; what it takes ends in such a tag
(`firstStartTag_eq_some`).
-/

namespace HomeTier.Lib.Html

def isSpace (c : Char) : Bool := c = ' ' || c = '\t' || c = '\n' || c = '\r' || c = '\x0c'

def isLetter (c : Char) : Bool := ('a' ≤ c && c ≤ 'z') || ('A' ≤ c && c ≤ 'Z')

/-- A start tag, or an end tag; names are in lower case. -/
structure Tag where
  close : Bool
  name : Str
deriving DecidableEq

inductive CommentMode where
  | start
  | startDash
  | body
  | dash
  | dashes
  | bang

/-- Where the reader is behind the name of a tag. -/
inductive AttrMode where
  | before
  | name
  | after
  | beforeValue
  | double
  | single
  | unquoted
deriving DecidableEq

inductive Mode where
  | text
  | tagOpen
  | endTagOpen
  | markup
  | markupDash
  /-- A declaration, or what is read as a comment up to the next `>`. -/
  | bogus
  | comment (m : CommentMode)
  | tagName (tag : Tag)
  | attrs (tag : Tag) (m : AttrMode)
  /-- Text without tags up to an end tag of that name, of which `seen` is read. -/
  | raw (name seen : Str)

/-- Elements whose text holds no tags, in a browser that runs scripts. -/
def rawElements : List String :=
  ["script", "style", "textarea", "title", "xmp", "iframe", "noembed", "noframes", "noscript"]

/-- Inside a comment; `none` at its end. -/
def commentStep : CommentMode → Char → Option CommentMode
  | .start, c => if c = '-' then some .startDash else if c = '>' then none else some .body
  | .startDash, c => if c = '-' then some .dashes else if c = '>' then none else some .body
  | .body, c => if c = '-' then some .dash else some .body
  | .dash, c => if c = '-' then some .dashes else some .body
  | .dashes, c =>
    if c = '>' then none else if c = '-' then some .dashes
    else if c = '!' then some .bang else some .body
  | .bang, c => if c = '-' then some .dash else if c = '>' then none else some .body

/-- Behind the name of a tag that does not end here. -/
def attrStep : AttrMode → Char → AttrMode
  | .before, c => if isSpace c || c = '/' then .before else .name
  | .name, c | .after, c =>
    if isSpace c then .after else if c = '/' then .before
    else if c = '=' then .beforeValue else .name
  | .beforeValue, c =>
    if isSpace c then .beforeValue else if c = '"' then .double
    else if c = '\'' then .single else .unquoted
  | .double, c => if c = '"' then .before else .double
  | .single, c => if c = '\'' then .before else .single
  | .unquoted, c => if isSpace c then .before else .unquoted

/-- What follows a tag. -/
def tagEnd (tag : Tag) : Mode :=
  if !tag.close && rawElements.any (·.toList = tag.name) then .raw tag.name [] else .text

/-- The next mode, and the tag that ends with this character. -/
def step : Mode → Char → Mode × Option Tag
  | .text, c => (if c = '<' then .tagOpen else .text, none)
  | .tagOpen, c =>
    (if isLetter c then .tagName ⟨false, [c.toLower]⟩ else if c = '!' then .markup
      else if c = '/' then .endTagOpen else if c = '?' then .bogus
      else if c = '<' then .tagOpen else .text, none)
  | .endTagOpen, c =>
    (if isLetter c then .tagName ⟨true, [c.toLower]⟩ else if c = '>' then .text else .bogus, none)
  | .markup, c => (if c = '-' then .markupDash else if c = '>' then .text else .bogus, none)
  | .markupDash, c =>
    (if c = '-' then .comment .start else if c = '>' then .text else .bogus, none)
  | .bogus, c => (if c = '>' then .text else .bogus, none)
  | .comment m, c => (((commentStep m c).map Mode.comment).getD .text, none)
  | .tagName tag, c =>
    if c = '>' then (tagEnd tag, some tag)
    else (if isSpace c || c = '/' then .attrs tag .before
      else .tagName { tag with name := tag.name ++ [c.toLower] }, none)
  | .attrs tag m, c =>
    -- a quoted value may hold a `>`
    if c = '>' ∧ m ≠ .double ∧ m ≠ .single then (tagEnd tag, some tag)
    else (.attrs tag (attrStep m c), none)
  | .raw name seen, c =>
    if seen = '<' :: '/' :: name ∧ (isSpace c || c = '/') then (.attrs ⟨true, name⟩ .before, none)
    else if seen = '<' :: '/' :: name ∧ c = '>' then (.text, some ⟨true, name⟩)
    else (.raw name
      (if (seen ++ [c.toLower]).isPrefixOf ('<' :: '/' :: name) then seen ++ [c.toLower]
        else if c = '<' then ['<'] else []), none)

/-- The text up to the end of the first start tag of a name, and what follows. -/
def firstStartTag (name : Str) : Mode → Str → Option (Str × Str)
  | _, [] => none
  | m, c :: s =>
    if (step m c).2 = some ⟨false, name⟩ then some ([c], s)
    else (firstStartTag name (step m c).1 s).map fun x => (c :: x.1, x.2)

/-- The document behind its first head start tag. -/
def headStart (html : Str) : Option (Str × Str) := firstStartTag "head".toList .text html

/-! ## What is taken ends in the tag -/

/-- The text so far ends in `<` and a name, in any case, with more behind it. -/
def Opens (read name : Str) : Prop :=
  ∃ u n v, read = u ++ '<' :: n ++ v ∧ n.map Char.toLower = name

/-- What has been read in a mode. -/
def Reads (read : Str) : Mode → Prop
  | .tagOpen => ∃ u, read = u ++ ['<']
  | .tagName ⟨false, name⟩ => ∃ u n, read = u ++ '<' :: n ∧ n.map Char.toLower = name
  | .attrs ⟨false, name⟩ _ => Opens read name
  | _ => True

theorem Opens.append {read name : Str} (h : Opens read name) (c : Char) :
    Opens (read ++ [c]) name := by
  rcases h with ⟨u, n, v, rfl, hn⟩
  exact ⟨u, n, v ++ [c], by simp, hn⟩

theorem reads_tagEnd (read : Str) (tag : Tag) : Reads read (tagEnd tag) := by
  unfold tagEnd
  split <;> exact trivial

theorem Reads.tagName {read : Str} {tag : Tag} (hopen : tag.close = false)
    (h : Reads read (.tagName tag)) : ∃ u n, read = u ++ '<' :: n ∧ n.map Char.toLower = tag.name := by
  rcases tag with ⟨close, name⟩
  obtain rfl : close = false := hopen
  exact h

theorem Reads.attrs {read : Str} {tag : Tag} {m : AttrMode} (hopen : tag.close = false)
    (h : Reads read (.attrs tag m)) : Opens read tag.name := by
  rcases tag with ⟨close, name⟩
  obtain rfl : close = false := hopen
  exact h

/-- A start tag ends with `>` behind its name. -/
theorem reads_step {read : Str} {m : Mode} (h : Reads read m) (c : Char) :
    Reads (read ++ [c]) (step m c).1 ∧
      ∀ tag, (step m c).2 = some tag → tag.close = false → c = '>' ∧ Opens read tag.name := by
  cases m with
  | text =>
    by_cases hc : c = '<'
    · subst hc
      exact ⟨⟨read, rfl⟩, by simp [step]⟩
    · simp [step, hc, Reads]
  | tagOpen =>
    rcases h with ⟨u, rfl⟩
    refine ⟨?_, by simp [step]⟩
    by_cases hletter : isLetter c = true
    · simp only [step, hletter, if_true]
      -- the name begins, one letter long
      exact ⟨u, [c], by simp, by simp⟩
    · simp only [step, hletter, Bool.false_eq_true, if_false]
      split
      · trivial
      · split
        · trivial
        · split
          · trivial
          · split
            · rename_i hc
              -- a second '<' may open a tag as well
              exact ⟨u ++ ['<'], by rw [hc]⟩
            · trivial
  | endTagOpen | markup | markupDash =>
    refine ⟨?_, by simp [step]⟩
    simp only [step]
    split
    · trivial
    · split <;> trivial
  | bogus =>
    refine ⟨?_, by simp [step]⟩
    simp only [step]
    split <;> trivial
  | comment m =>
    refine ⟨?_, by simp [step]⟩
    simp only [step]
    cases commentStep m c <;> trivial
  | tagName tag =>
    by_cases hc : c = '>'
    · simp only [step, hc, if_true]
      refine ⟨reads_tagEnd _ tag, ?_⟩
      rintro tag' htag hopen
      -- '>' behind the name ends the tag
      obtain rfl := Option.some.inj htag
      rcases h.tagName hopen with ⟨u, n, rfl, hn⟩
      exact ⟨trivial, u, n, [], by simp, hn⟩
    · simp only [step, hc, if_false]
      refine ⟨?_, by simp⟩
      rcases tag with ⟨close, name⟩
      cases close with
      | true => split <;> trivial
      | false =>
        rcases h with ⟨u, n, rfl, hn⟩
        split
        · exact ⟨u, n, [c], by simp, hn⟩
        · exact ⟨u, n ++ [c], by simp, by simp [hn]⟩
  | attrs tag m =>
    by_cases hc : c = '>' ∧ m ≠ .double ∧ m ≠ .single
    · simp only [step, if_pos hc]
      refine ⟨reads_tagEnd _ tag, ?_⟩
      rintro tag' htag hopen
      obtain rfl := Option.some.inj htag
      exact ⟨hc.1, h.attrs hopen⟩
    · simp only [step, if_neg hc]
      refine ⟨?_, by simp⟩
      rcases tag with ⟨close, name⟩
      cases close with
      | true => trivial
      | false => exact Opens.append h c
  | raw name seen =>
    simp only [step]
    split
    · exact ⟨trivial, by simp⟩
    · split
      · refine ⟨trivial, ?_⟩
        rintro tag htag hopen
        -- only the end tag is found in raw text
        obtain rfl := Option.some.inj htag
        cases hopen
      · exact ⟨trivial, by simp⟩

theorem firstStartTag_reads {name : Str} {m : Mode} {read s a b : Str} (hread : Reads read m)
    (h : firstStartTag name m s = some (a, b)) :
    s = a ++ b ∧ ∃ a', a = a' ++ ['>'] ∧ Opens (read ++ a') name := by
  induction s generalizing m read a b with
  | nil => cases h
  | cons c s ih =>
    rcases reads_step hread c with ⟨hnext, htag⟩
    unfold firstStartTag at h
    split at h
    · rename_i hstep
      obtain ⟨rfl, rfl⟩ := Prod.mk.inj (Option.some.inj h)
      rcases htag _ hstep rfl with ⟨rfl, hopens⟩
      exact ⟨rfl, [], rfl, by simpa using hopens⟩
    · rcases Option.map_eq_some_iff.1 h with ⟨⟨a₁, b₁⟩, hrest, heq⟩
      obtain ⟨rfl, rfl⟩ := Prod.mk.inj heq
      rcases ih hnext hrest with ⟨rfl, a', rfl, hopens⟩
      exact ⟨rfl, c :: a', rfl, by simpa using hopens⟩

/-- The text taken ends in `<` and the name, in any case, and something up to a `>`. -/
theorem firstStartTag_eq_some {name s a b : Str} (h : firstStartTag name .text s = some (a, b)) :
    s = a ++ b ∧ ∃ u n v, a = u ++ '<' :: n ++ v ++ ['>'] ∧ n.map Char.toLower = name := by
  have hstart : Reads [] .text := trivial
  rcases firstStartTag_reads hstart h with ⟨hs, a', rfl, hopens⟩
  rcases hopens with ⟨u, n, v, heq, hn⟩
  rw [List.nil_append] at heq
  exact ⟨hs, u, n, v, by rw [heq], hn⟩

end HomeTier.Lib.Html
