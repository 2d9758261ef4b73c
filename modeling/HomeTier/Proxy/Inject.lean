import HomeTier.Lib.Html
import HomeTier.Lib.Insert
import HomeTier.Lib.Lowercase
import HomeTier.Log.Record
import HomeTier.Proxy.HttpForward

/-! # The script in a proxied page

`inject_local_http_script` of `src-tauri/src/proxy/hometier_protocol.rs`, with
`inject_viewport_meta`. Places are looked for in a lower-case copy of the page and
used, as numbers of bytes, in the page itself.

1. The script and the viewport element come to the place the page has for them,
   for every proxy key and source URL, exactly when the copy has as many bytes up
   to the place that the search finds as the page has up to the right one
   (`inject_exact_iff`).
2. A page with one letter that is longer in lower case makes the program panic
   (`dotted_i_panics`).
-/

namespace HomeTier.Inject

open Lib

/-- `str::to_lowercase`, and the bytes of a character's lower case. A capital sigma
has two forms, of the same length. -/
structure Lowercase where
  toLowercase : Str → Str
  width : Char → Nat
  lowered : ∀ s, Lowered width s (toLowercase s)

/-- The parts of the script that do not depend on the request, and its digest,
`base64(sha256(_))`. -/
structure Scripts where
  rewriting : Str
  emulation : Str
  navBridge : Str
  autofocus : Str
  touchBridge : Str
  digest : Bytes → Str

/-- Behind the first `>` that follows the first `<head`, in bytes. -/
def behindHead (lower : Str) : Option Nat :=
  match splitOnce "<head".toList lower with
  | none => none
  | some (before, rest) =>
    match splitOnce ">".toList rest with
    | none => none
    | some (attrs, _) => some ((utf8 before).length + 5 + (utf8 attrs).length + 1)

def viewportMeta : Str :=
  "<meta name=\"viewport\" content=\"width=device-width, initial-scale=1\">".toList

def injectViewportMeta (L : Lowercase) (html : Str) : Option Str :=
  let lower := L.toLowercase html
  if containsText lower "viewport".toList then some html
  else
    match behindHead lower with
    | some pos => insertStr html pos viewportMeta
    | none => some html

/-- The script up to the proxy key, and up to the origin and behind it. -/
def keyOpen : Str := "(function()\x7b\nvar K=\"".toList
def originOpen : Str := "\",O=\"".toList
def originClose : Str := "\",F=location.origin;\n".toList
def scriptOpen : Str := "<script id=\"__ht\">".toList
def scriptClose : Str := "</script>".toList

def jsContent (S : Scripts) (isMobile : Bool) (proxyKey sourceOrigin : Str) : Str :=
  keyOpen ++ proxyKey ++ originOpen ++ sourceOrigin ++ originClose ++ S.rewriting ++
    (if isMobile then '\n' :: S.emulation else []) ++
    '\n' :: S.navBridge ++ '\n' :: S.autofocus ++ '\n' :: S.touchBridge

def scriptTag (js : Str) : Str := scriptOpen ++ js ++ scriptClose

/-- Where the script is put, in bytes of the copy. -/
def scriptPlace (lower : Str) : Nat :=
  match behindHead lower with
  | some pos => pos
  | none =>
    match splitOnce "</head>".toList lower with
    | some (before, _) => (utf8 before).length
    | none =>
      match splitOnce "<body".toList lower with
      | some (before, _) => (utf8 before).length
      | none => 0

/-- The page and the hash for its CSP; `none` is a panic. -/
def injectLocalHttpScript (L : Lowercase) (S : Scripts) (htmlBytes : Bytes) (isMobile : Bool)
    (proxyKey sourceUrl : Str) : Option (Bytes × Str) :=
  match fromUtf8 htmlBytes with
  | none => some (htmlBytes, [])
  | some html =>
    let js := jsContent S isMobile proxyKey (extractOrigin sourceUrl)
    (if isMobile then injectViewportMeta L html else some html).bind fun html =>
      (insertStr html (scriptPlace (L.toLowercase html)) (scriptTag js)).map fun html =>
        (utf8 html, "'sha256-".toList ++ S.digest (utf8 js) ++ "'".toList)

/-! ## What the page should become -/

variable (L : Lowercase)

def mentionsViewport (html : Str) : Bool := containsText (L.toLowercase html) "viewport".toList

/-- The page up to its `</head>`, else up to its `<body`, else nothing of it. -/
def beforeBody (html : Str) : Str :=
  match splitIgnoreCase "</head>".toList html with
  | some (before, _) => before
  | none =>
    match splitIgnoreCase "<body".toList html with
    | some (before, _) => before
    | none => []

/-- The page with the elements behind its first head start tag, or with the script
at another place when it has none. -/
def expected (html : Str) (isMobile : Bool) (script : Str) : Str :=
  match Html.headStart html with
  | some (head, rest) =>
    head ++ script ++ (if isMobile && !mentionsViewport L html then viewportMeta else []) ++ rest
  | none => beforeBody html ++ script ++ html.drop (beforeBody html).length

/-- The program makes of the page what it should, for every key and URL. -/
def Exact (S : Scripts) (html : Str) (isMobile : Bool) : Prop :=
  ∀ proxyKey sourceUrl,
    (injectLocalHttpScript L S (utf8 html) isMobile proxyKey sourceUrl).map Prod.fst =
      some (utf8 (expected L html isMobile
        (scriptTag (jsContent S isMobile proxyKey (extractOrigin sourceUrl)))))

/-- The page up to the first `>` that follows its first `<head`, in any case. -/
def headText (html : Str) : Option Str :=
  match splitIgnoreCase "<head".toList html with
  | none => none
  | some (before, head, rest) =>
    match splitIgnoreCase ">".toList rest with
    | none => none
    | some (attrs, close, _) => some (before ++ head ++ attrs ++ close)

/-- The page up to where the search ends. -/
def found (html : Str) : Str := (headText html).getD (beforeBody html)

/-- The page up to the right place. -/
def place (html : Str) : Str :=
  match Html.headStart html with
  | some (head, _) => head
  | none => beforeBody html

/-- The copy has as many bytes up to what is found as the page up to the right place;
and no viewport element is put into a page without a head start tag. -/
def InPlace (html : Str) (isMobile : Bool) : Prop :=
  lowerBytes L.width (found html) = (utf8 (place html)).length ∧
    (isMobile = true → Html.headStart html = none → mentionsViewport L html = false →
      headText html = none)

/-! ## The search -/

section Search

variable {L} {html : Str}

theorem behindHead_eq {low : Str} (h : Lowered L.width html low) :
    behindHead low = (headText html).map (lowerBytes L.width) := by
  have hhead := Lowered.splitOnce_eq (show Plain ('<' :: "head".toList) by decide) h
  have hlit : "<head".toList = '<' :: "head".toList := rfl
  unfold behindHead headText
  rw [hlit]
  cases hsplit : splitIgnoreCase ('<' :: "head".toList) html with
  | none =>
    rw [hsplit] at hhead
    rw [hhead]
    rfl
  | some x =>
    rcases x with ⟨before, head, rest⟩
    rw [hsplit] at hhead
    rcases hhead with ⟨lbefore, lrest, hlow, hbefore, hhead, hrest⟩
    have hclose := Lowered.splitOnce_eq (show Plain ['>'] by decide) hrest
    rw [hlow]
    have hlit' : ">".toList = ['>'] := rfl
    simp only [hlit']
    cases hsplit' : splitIgnoreCase ['>'] rest with
    | none =>
      rw [hsplit'] at hclose
      rw [hclose]
      rfl
    | some y =>
      rcases y with ⟨attrs, close, after⟩
      rw [hsplit'] at hclose
      rcases hclose with ⟨lattrs, lafter, hlow', hattrs, hclose, -⟩
      rw [hlow']
      have h5 : lowerBytes L.width head = 5 := hhead.length_utf8.symm
      have h1 : lowerBytes L.width close = 1 := hclose.length_utf8.symm
      simp only [Option.map_some, lowerBytes_append, hbefore.length_utf8, hattrs.length_utf8, h5, h1]

/-- The search ends in the copy where it ends in the page, in other bytes. -/
theorem scriptPlace_eq : scriptPlace (L.toLowercase html) = lowerBytes L.width (found html) := by
  have hlow := L.lowered html
  unfold scriptPlace found
  rw [behindHead_eq hlow]
  cases headText html with
  | some text => rfl
  | none =>
    have hclose := Lowered.splitOnce_eq (show Plain ('<' :: "/head>".toList) by decide) hlow
    have hbody := Lowered.splitOnce_eq (show Plain ('<' :: "body".toList) by decide) hlow
    have hlit : "</head>".toList = '<' :: "/head>".toList := rfl
    have hlit' : "<body".toList = '<' :: "body".toList := rfl
    simp only [Option.map_none, Option.getD_none, beforeBody, hlit, hlit']
    cases hsplit : splitIgnoreCase ('<' :: "/head>".toList) html with
    | some x =>
      rcases x with ⟨before, tag, rest⟩
      rw [hsplit] at hclose
      rcases hclose with ⟨lbefore, lrest, heq, hbefore, -⟩
      rw [heq]
      exact hbefore.length_utf8
    | none =>
      rw [hsplit] at hclose
      rw [hclose]
      cases hsplit' : splitIgnoreCase ('<' :: "body".toList) html with
      | some x =>
        rcases x with ⟨before, tag, rest⟩
        rw [hsplit'] at hbody
        rcases hbody with ⟨lbefore, lrest, heq, hbefore, -⟩
        rw [heq]
        exact hbefore.length_utf8
      | none =>
        rw [hsplit'] at hbody
        rw [hbody]
        rfl

/-! ## The places of a page -/

theorem beforeBody_append (html : Str) :
    beforeBody html ++ html.drop (beforeBody html).length = html := by
  have hpre : beforeBody html <+: html := by
    unfold beforeBody
    split
    · rename_i before rest hsplit
      exact ⟨rest.1 ++ rest.2, by rw [(splitIgnoreCase_eq_some hsplit).1, List.append_assoc]⟩
    · split
      · rename_i before rest hsplit
        exact ⟨rest.1 ++ rest.2, by rw [(splitIgnoreCase_eq_some hsplit).1, List.append_assoc]⟩
      · exact List.nil_prefix
  exact List.prefix_iff_eq_append.1 hpre

/-- The head start tag holds a `<head` and a `>` behind it, whatever follows. -/
theorem headText_of_headStart {head rest : Str} (h : Html.headStart html = some (head, rest)) :
    ∃ text, ∀ t, headText (head ++ t) = some text := by
  rcases Html.firstStartTag_eq_some h with ⟨-, u, n, v, rfl, hn⟩
  have hm : ('<' :: n).map Char.toLower = "<head".toList := by
    rw [List.map_cons, hn]
    rfl
  rcases exists_splitIgnoreCase (u := u) (by decide) hm (v ++ ['>']) with ⟨a, p, b, hsplit⟩
  have hgt : ['>'].map Char.toLower = ">".toList := by decide
  rcases exists_splitIgnoreCase (u := b ++ v) (by decide) hgt [] with ⟨a', p', b', hsplit'⟩
  refine ⟨a ++ p ++ a' ++ p', fun t => ?_⟩
  have heq : u ++ '<' :: n ++ v ++ ['>'] = u ++ '<' :: n ++ (v ++ ['>']) := by simp
  have heq' : b ++ (v ++ ['>']) = b ++ v ++ ['>'] ++ [] := by simp
  unfold headText
  rw [heq, splitIgnoreCase_append hsplit t]
  dsimp only
  rw [heq', splitIgnoreCase_append hsplit' t]

end Search

/-! ## The script -/

/-- The key stands behind a quotation mark. -/
theorem scriptTag_key (S : Scripts) (isMobile : Bool) (sourceOrigin : Str) :
    ∃ t u : Str, ∀ proxyKey : Str, scriptTag (jsContent S isMobile proxyKey sourceOrigin) =
      t ++ '"' :: (proxyKey ++ u) := by
  obtain ⟨front, hopen⟩ : ∃ front, keyOpen = front ++ ['"'] := ⟨keyOpen.dropLast, by decide⟩
  refine ⟨scriptOpen ++ front, originOpen ++ (sourceOrigin ++ (originClose ++
    (S.rewriting ++ ((if isMobile then '\n' :: S.emulation else []) ++ ('\n' :: S.navBridge ++
      ('\n' :: S.autofocus ++ ('\n' :: S.touchBridge ++ scriptClose))))))), ?_⟩
  intro proxyKey
  rw [scriptTag, jsContent, hopen]
  simp only [List.append_assoc, List.cons_append, List.nil_append]

/-- The script stands at its place for every key and URL exactly when it is put there. -/
theorem insert_script_iff (S : Scripts) (isMobile : Bool) {html a b : Str} {pos : Nat} :
    (∀ proxyKey sourceUrl, insertStr html pos
        (scriptTag (jsContent S isMobile proxyKey (extractOrigin sourceUrl))) =
      some (a ++ scriptTag (jsContent S isMobile proxyKey (extractOrigin sourceUrl)) ++ b)) ↔
      html = a ++ b ∧ pos = (utf8 a).length := by
  constructor
  · intro h
    rcases scriptTag_key S isMobile (extractOrigin []) with ⟨t, u, htag⟩
    -- a key longer than the page shows where the script stands
    have hkey := h (List.replicate (html.length + a.length) 'a') []
    rcases insertStr_eq_some hkey with ⟨a', b', rfl, hpos, hout⟩
    rw [htag] at hout
    rcases eq_of_marked (by decide) (by omega) (by rw [List.length_append]; omega) hout with
      ⟨rfl, rfl⟩
    exact ⟨rfl, hpos.symm⟩
  · rintro ⟨rfl, rfl⟩ proxyKey sourceUrl
    exact insertStr_append _ _ _

theorem mentionsViewport_of_meta {html : Str} (h : viewportMeta <:+: html) :
    mentionsViewport L html = true := by
  rcases h with ⟨u, v, rfl⟩
  rcases (L.lowered (u ++ viewportMeta ++ v)).of_append with ⟨lfront, lv, hlow, hfront, -⟩
  rcases hfront.of_append with ⟨lu, lmeta, rfl, -, hmeta⟩
  have hascii : ∀ c ∈ viewportMeta, c.toNat < 128 := forall_mem_of_all (by decide)
  obtain ⟨x, y, hxy⟩ : ∃ x y, viewportMeta.map Char.toLower = x ++ "viewport".toList ++ y :=
    ⟨viewportMeta.take 12, viewportMeta.drop 20, by decide⟩
  rw [mentionsViewport, hlow, hmeta.of_ascii hascii, hxy]
  have heq : lu ++ (x ++ "viewport".toList ++ y) ++ lv = lu ++ x ++ "viewport".toList ++ (y ++ lv) := by
    simp only [List.append_assoc]
  rw [heq]
  exact containsText_of_append _ _ _

/-- The viewport element is put at its place into a page that does not name it. -/
theorem eq_of_viewportMeta {a b a' b' : Str} (hpage : a ++ b = a' ++ b')
    (hno : mentionsViewport L (a ++ b) = false)
    (h : a ++ viewportMeta ++ b = a' ++ viewportMeta ++ b') : a = a' := by
  have hnot : ∀ s, s <:+: a ++ b → ¬ viewportMeta <:+: s := by
    intro s hs hmeta
    rw [mentionsViewport_of_meta L (hmeta.trans hs)] at hno
    cases hno
  obtain ⟨w, hw, hmem⟩ : ∃ w, viewportMeta = '<' :: w ∧ '<' ∉ w :=
    ⟨viewportMeta.tail, by decide, by decide⟩
  rw [hw] at h hnot
  have ha := hnot a ⟨[], b, rfl⟩
  have ha' := hnot a' ⟨[], b', by rw [hpage]; rfl⟩
  exact (eq_of_insert hmem ha ha' h).1

/-- The page before the script is put in. -/
def prepared (html : Str) (isMobile : Bool) : Option Str :=
  if isMobile then injectViewportMeta L html else some html

/-- What follows the script. -/
def behindPlace (html : Str) (isMobile : Bool) : Str :=
  match Html.headStart html with
  | some (_, rest) => (if isMobile && !mentionsViewport L html then viewportMeta else []) ++ rest
  | none => html.drop (beforeBody html).length

theorem expected_eq (html : Str) (isMobile : Bool) (script : Str) :
    expected L html isMobile script = place html ++ script ++ behindPlace L html isMobile := by
  unfold expected place behindPlace
  cases Html.headStart html with
  | none => rfl
  | some x => simp only [List.append_assoc]

/-- The elements are right exactly when the page is prepared right and the search in
it ends at the right place. -/
theorem exact_iff_prepared (S : Scripts) (html : Str) (isMobile : Bool) :
    Exact L S html isMobile ↔ ∃ page, prepared L html isMobile = some page ∧
      page = place html ++ behindPlace L html isMobile ∧
      lowerBytes L.width (found page) = (utf8 (place html)).length := by
  have hutf8 : fromUtf8 (utf8 html) = some html := fromUtf8_eq_some.2 rfl
  have hres : ∀ proxyKey sourceUrl,
      (injectLocalHttpScript L S (utf8 html) isMobile proxyKey sourceUrl).map Prod.fst =
        (prepared L html isMobile).bind fun page =>
          (insertStr page (lowerBytes L.width (found page))
            (scriptTag (jsContent S isMobile proxyKey (extractOrigin sourceUrl)))).map utf8 := by
    intro proxyKey sourceUrl
    simp only [injectLocalHttpScript, hutf8, prepared, scriptPlace_eq, Option.map_bind,
      Function.comp_def, Option.map_map]
  unfold Exact
  simp only [hres, expected_eq]
  cases prepared L html isMobile with
  | none => simp
  | some page =>
    simp only [Option.bind_some, Option.some.injEq, exists_eq_left', Option.map_eq_some_iff,
      utf8_injective.eq_iff, exists_eq_right]
    exact insert_script_iff S isMobile

theorem place_append (html : Str) :
    html = place html ++ (match Html.headStart html with
      | some (_, rest) => rest
      | none => html.drop (beforeBody html).length) := by
  unfold place
  cases hstart : Html.headStart html with
  | none => exact (beforeBody_append html).symm
  | some x => exact (Html.firstStartTag_eq_some hstart).1

/-- Without a viewport element to put in, the page stays as it is. -/
theorem exact_iff_of_kept {S : Scripts} {html : Str} {isMobile : Bool}
    (hkept : prepared L html isMobile = some html)
    (hmeta : Html.headStart html = none ∨ (isMobile && !mentionsViewport L html) = false) :
    Exact L S html isMobile ↔ lowerBytes L.width (found html) = (utf8 (place html)).length := by
  have hpage : html = place html ++ behindPlace L html isMobile := by
    conv_lhs => rw [place_append html]
    unfold behindPlace
    cases hstart : Html.headStart html with
    | none => rfl
    | some x =>
      rcases hmeta with hnone | hno
      · rw [hstart] at hnone
        cases hnone
      · simp only [hno, Bool.false_eq_true, if_false, List.nil_append]
  rw [exact_iff_prepared, hkept]
  constructor
  · rintro ⟨page, hsome, -, hplace⟩
    obtain rfl := Option.some.inj hsome
    exact hplace
  · intro hplace
    exact ⟨html, rfl, hpage, hplace⟩

/-- The script and the viewport element come to their places, for every key and URL,
exactly when the search ends at the right place and no viewport element is put into
a page without a head start tag. -/
theorem inject_exact_iff (S : Scripts) (html : Str) (isMobile : Bool) :
    Exact L S html isMobile ↔ InPlace L html isMobile := by
  cases isMobile with
  | false =>
    rw [exact_iff_of_kept L rfl (.inr rfl)]
    simp [InPlace]
  | true =>
    cases hview : mentionsViewport L html with
    | true =>
      have hkept : prepared L html true = some html := by
        rw [prepared, if_pos rfl, injectViewportMeta]
        exact if_pos hview
      rw [exact_iff_of_kept L hkept (.inr (by rw [hview]; rfl))]
      simp [InPlace, hview]
    | false =>
      have hprep : prepared L html true =
          match (headText html).map (lowerBytes L.width) with
          | some pos => insertStr html pos viewportMeta
          | none => some html := by
        rw [prepared, if_pos rfl, injectViewportMeta, ← behindHead_eq (L.lowered html)]
        exact if_neg (by rw [← mentionsViewport, hview]; exact Bool.false_ne_true)
      cases hstart : Html.headStart html with
      | none =>
        cases htext : headText html with
        | none =>
          have hkept : prepared L html true = some html := by rw [hprep, htext]; rfl
          rw [exact_iff_of_kept L hkept (.inl hstart)]
          simp [InPlace, htext]
        | some text =>
          constructor
          · -- the element is put into a page that should stay as it is
            intro hexact
            rcases (exact_iff_prepared L S html true).1 hexact with ⟨page, hpage, hout, -⟩
            rw [hprep, htext] at hpage
            rcases insertStr_eq_some hpage with ⟨a, b, hab, -, rfl⟩
            have hsame : place html ++ behindPlace L html true = html := by
              conv_rhs => rw [place_append html]
              rw [behindPlace, hstart]
            have hlen := congrArg List.length (hout.trans hsame)
            rw [hab] at hlen
            have hmeta : 0 < viewportMeta.length := by decide
            simp only [List.length_append] at hlen
            omega
          · intro hplace
            have hnone := hplace.2 rfl hstart hview
            rw [htext] at hnone
            cases hnone
      | some x =>
        rcases x with ⟨head, rest⟩
        rcases headText_of_headStart hstart with ⟨text, htext⟩
        have hhtml := (Html.firstStartTag_eq_some hstart).1
        have hplace : place html = head := by rw [place, hstart]
        have hbehind : behindPlace L html true = viewportMeta ++ rest := by
          rw [behindPlace, hstart, hview]
          rfl
        have hfound : ∀ t, found (head ++ t) = text := by
          intro t
          rw [found, htext]
          rfl
        rw [exact_iff_prepared, hprep, hhtml, htext rest, ← hhtml, hplace, hbehind]
        constructor
        · rintro ⟨page, hpage, hout, -⟩
          rcases insertStr_eq_some hpage with ⟨a, b, hab, hpos, rfl⟩
          have heq : a = head := by
            apply eq_of_viewportMeta L (hab.symm.trans hhtml) (hab ▸ hview)
            rw [hout, List.append_assoc]
          refine ⟨?_, fun _ hnone => ?_⟩
          · rw [hplace, hhtml, hfound, ← hpos, heq]
          · rw [hstart] at hnone
            cases hnone
        · rintro ⟨hright, -⟩
          rw [hplace, hhtml, hfound] at hright
          refine ⟨head ++ (viewportMeta ++ rest), ?_, rfl, ?_⟩
          · show insertStr html (lowerBytes L.width text) viewportMeta = _
            rw [hright, hhtml, insertStr_append, List.append_assoc]
          · rw [hfound, hright]

/-! ## A page that panics -/

theorem lowerForm_toLowercase (c : Char) : LowerForm c (HttpForward.toLowercase [c]) := by
  unfold LowerForm HttpForward.toLowercase
  split
  · rename_i hascii
    have hi : c ≠ Char.ofNat 0x130 := by
      rintro rfl
      exact absurd hascii (by decide)
    have hk : c ≠ Char.ofNat 0x212A := by
      rintro rfl
      exact absurd hascii (by decide)
    simp [hi, hk]
  · rename_i hascii
    by_cases hi : c = Char.ofNat 0x130
    · -- the letter i and a combining dot
      simp only [List.flatMap_singleton, if_pos hi]
      refine ⟨List.cons_ne_nil _ _, ?_⟩
      intro d hd
      rcases List.mem_pair.1 hd with rfl | rfl
      · exact .inr (.inl rfl)
      · exact .inl (by decide)
    · by_cases hk : c = Char.ofNat 0x212A
      · simp only [List.flatMap_singleton, if_neg hi, if_pos hk]
        refine ⟨List.cons_ne_nil _ _, ?_⟩
        intro d hd
        exact .inr (.inr (List.mem_singleton.1 hd))
      · simp only [List.flatMap_singleton, hi, hk, if_false, toLower_of_not_ascii hascii]
        exact ⟨List.cons_ne_nil _ _, fun d hd => .inl (by
          rw [List.mem_singleton.1 hd]
          omega)⟩

/-- Lower case where only the dotted capital I and the Kelvin sign change. -/
def fewLetters : Lowercase where
  toLowercase := HttpForward.toLowercase
  width c := (utf8 (HttpForward.toLowercase [c])).length
  lowered := by
    intro s
    induction s with
    | nil => exact .nil
    | cons c s ih =>
      have hcons : HttpForward.toLowercase (c :: s) =
          HttpForward.toLowercase [c] ++ HttpForward.toLowercase s := by
        simp [HttpForward.toLowercase]
      rw [hcons]
      exact .cons (lowerForm_toLowercase c) rfl ih

/-- The copy is one byte longer before the head than the page. -/
def dottedPage : Str := 'İ' :: "<head>é".toList

theorem dotted_i_panics (S : Scripts) (proxyKey sourceUrl : Str) :
    injectLocalHttpScript fewLetters S (utf8 dottedPage) false proxyKey sourceUrl = none := by
  have hutf8 : fromUtf8 (utf8 dottedPage) = some dottedPage := fromUtf8_eq_some.2 rfl
  have hplace : scriptPlace (fewLetters.toLowercase dottedPage) = 9 := by decide
  have hinside : splitBytes dottedPage 9 = none := by decide
  simp only [injectLocalHttpScript, hutf8, hplace, insertStr, hinside, Bool.false_eq_true, if_false,
    Option.bind_some, Option.map_none]

/-- Not every page gets its elements. -/
theorem dotted_i_not_exact : ¬ ∀ (L : Lowercase) (S : Scripts) (html : Str) (isMobile : Bool),
    Exact L S html isMobile := by
  intro h
  have hres := h fewLetters ⟨[], [], [], [], [], fun _ => []⟩ dottedPage false [] []
  rw [dotted_i_panics] at hres
  cases hres

end HomeTier.Inject
