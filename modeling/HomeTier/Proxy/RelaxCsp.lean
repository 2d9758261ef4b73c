import HomeTier.Lib.Csp
import HomeTier.Log.Record

/-! # Relaxing a content security policy

`relax_csp` of `src-tauri/src/proxy/hometier_protocol.rs` edits the text of a policy so
that the injected script may run and connect to the proxy: `frame-ancestors` goes, each
directive that starts with `script-src` gets the script's hash, each that starts with
`connect-src` or `default-src` a source, and a policy without `script-src` gets one.
`handle` of `http_forward.rs` puts the result in place of the upstream's header.
-/

namespace HomeTier.RelaxCsp

open Lib Lib.Csp

/-! ## The edit -/

def frameAncestors : Str := "frame-ancestors".toList

def connectSrc : Str := "connect-src".toList

/-- One round of the loop over `added_sources`. Each round starts from the directive as
it was, so a later source takes the place of an earlier one. -/
def addSource (trimmed : Str) (directive : Option Str) (src : Str) : Option Str :=
  let directive :=
    if connectSrc.isPrefixOf trimmed && !containsText trimmed src then
      some (trimmed ++ ' ' :: src)
    else directive
  if defaultSrc.isPrefixOf trimmed && !containsText trimmed src then
    some (trimmed ++ ' ' :: src)
  else directive

/-- What the loop over the directives makes of one, `none` if it is not modified. -/
def relaxDirective (scriptHash : Str) (addedSources : List Str) (trimmed : Str) : Option Str :=
  if frameAncestors.isPrefixOf trimmed then some []
  else
    let directive :=
      if scriptSrc.isPrefixOf trimmed && scriptHash ≠ [] && !containsText trimmed scriptHash then
        some (trimmed ++ ' ' :: scriptHash)
      else none
    addedSources.foldl (addSource trimmed) directive

def hasScriptSrc (directives : List Str) : Bool :=
  directives.any fun trimmed =>
    !frameAncestors.isPrefixOf trimmed && scriptSrc.isPrefixOf trimmed

/-- The directive pushed when there is no `script-src`. -/
def pushed (scriptHash : Str) (directives : List Str) : List Str :=
  if !hasScriptSrc directives && scriptHash ≠ [] then [scriptSrc ++ ' ' :: scriptHash] else []

/-- A directive after the loop. -/
def edited (scriptHash : Str) (addedSources : List Str) (trimmed : Str) : Str :=
  (relaxDirective scriptHash addedSources trimmed).getD trimmed

def relaxCsp (csp scriptHash : Str) (addedSources : List Str) : Option Str :=
  let directives := (csp.splitOn ';').map trim
  let modified := directives.any fun d => (relaxDirective scriptHash addedSources d).isSome
  if !modified && pushed scriptHash directives = [] then none
  else
    some (cookieLine ((directives.map (edited scriptHash addedSources) ++
      pushed scriptHash directives).filter (· ≠ [])))

/-- The policy of the response, empty if the header is removed. -/
def cspOverride (csp scriptHash : Str) (addedSources : List Str) : Str :=
  (relaxCsp csp scriptHash addedSources).getD csp

/-! ## The directives of the edited policy -/

/-- One word of a policy. -/
structure IsToken (t : Str) : Prop where
  ne_nil : t ≠ []
  noSpace : ∀ c ∈ t, isSpace c = false
  noSemicolon : ';' ∉ t
  noComma : ',' ∉ t

/-- The hash is appended to the directive. -/
def getsHash (scriptHash d : Str) : Bool :=
  scriptSrc.isPrefixOf d && !containsText d scriptHash

/-- The source appended to the directive: the last one that is not in its text. -/
def getsSource (addedSources : List Str) (d : Str) : Option Str :=
  if connectSrc.isPrefixOf d || defaultSrc.isPrefixOf d then
    (addedSources.filter fun src => !containsText d src).getLast?
  else none

/-- The word appended to a directive. -/
def added (scriptHash : Str) (addedSources : List Str) (d : Str) : Option Str :=
  if getsHash scriptHash d then some scriptHash else getsSource addedSources d

variable {d a : Str}

theorem head?_of_isPrefixOf (h : a.isPrefixOf d = true) (hne : a ≠ []) : d.head? = a.head? := by
  rcases List.isPrefixOf_iff_prefix.1 h with ⟨r, rfl⟩
  cases a with
  | nil => exact absurd rfl hne
  | cons c a => rfl

/-- Directives that start with different letters. -/
theorem not_isPrefixOf {a b d : Str} (h : a.isPrefixOf d = true) (ha : a ≠ []) (hb : b ≠ [])
    (hdiff : a.head? ≠ b.head?) : b.isPrefixOf d = false := by
  by_contra hfront
  have hfront : b.isPrefixOf d = true := by simpa using hfront
  exact hdiff ((head?_of_isPrefixOf h ha).symm.trans (head?_of_isPrefixOf hfront hb))

theorem foldl_addSource (d : Str) (directive : Option Str) (addedSources : List Str) :
    addedSources.foldl (addSource d) directive =
      ((getsSource addedSources d).map fun src => d ++ ' ' :: src).or directive := by
  induction addedSources using List.reverseRecOn with
  | nil => simp [getsSource]
  | append_singleton srcs src ih =>
    rw [List.foldl_append, List.foldl_cons, List.foldl_nil, ih]
    cases hfront : connectSrc.isPrefixOf d || defaultSrc.isPrefixOf d with
    | false =>
      rw [Bool.or_eq_false_iff] at hfront
      simp [addSource, getsSource, hfront.1, hfront.2]
    | true =>
      cases hmissing : containsText d src with
      | true => simp [addSource, getsSource, hfront, hmissing]
      | false =>
        -- one of the two tests takes this source, whatever was there
        have htake : ∀ e, addSource d e src = some (d ++ ' ' :: src) := by
          intro e
          rw [Bool.or_eq_true] at hfront
          rcases hfront with h | h
          · simp [addSource, h, hmissing]
          · simp [addSource, h, hmissing]
        simp [htake, getsSource, hfront, hmissing]

variable {csp scriptHash : Str} {addedSources : List Str}

theorem relaxDirective_eq (hhash : scriptHash ≠ []) (hframe : frameAncestors.isPrefixOf d = false) :
    relaxDirective scriptHash addedSources d =
      (added scriptHash addedSources d).map fun t => d ++ ' ' :: t := by
  rw [relaxDirective, if_neg (by simp [hframe]), foldl_addSource, added]
  cases hgets : getsHash scriptHash d with
  | true =>
    have hgets' := hgets
    simp only [getsHash, Bool.and_eq_true, Bool.not_eq_true'] at hgets'
    have hconnect : connectSrc.isPrefixOf d = false :=
      not_isPrefixOf hgets'.1 (by decide) (by decide) (by decide)
    have hdefault : defaultSrc.isPrefixOf d = false :=
      not_isPrefixOf hgets'.1 (by decide) (by decide) (by decide)
    simp [getsSource, hconnect, hdefault, hgets'.1, hgets'.2, hhash]
  | false =>
    have hnot : (scriptSrc.isPrefixOf d && decide (scriptHash ≠ []) &&
        !containsText d scriptHash) = false := by
      rw [getsHash] at hgets
      rcases Bool.and_eq_false_iff.1 hgets with h | h
      · simp [h]
      · simp [h]
    rw [if_neg (by rw [hnot]; exact Bool.false_ne_true), if_neg (by decide)]
    simp

theorem edited_of_frame (h : frameAncestors.isPrefixOf d = true) :
    edited scriptHash addedSources d = [] := by
  rw [edited, relaxDirective, if_pos h]
  rfl

theorem edited_eq (hhash : scriptHash ≠ []) (hframe : frameAncestors.isPrefixOf d = false) :
    edited scriptHash addedSources d =
      match added scriptHash addedSources d with
      | some t => d ++ ' ' :: t
      | none => d := by
  rw [edited, relaxDirective_eq hhash hframe]
  cases added scriptHash addedSources d <;> rfl

theorem mem_of_getsSource {d src : Str} (h : getsSource addedSources d = some src) :
    src ∈ addedSources := by
  rw [getsSource] at h
  split at h
  · exact List.mem_of_mem_filter (List.mem_of_getLast? h)
  · cases h

theorem isUrl_of_getsSource {d src : Str} (hsources : ∀ s ∈ addedSources, IsToken s ∧ isUrl s = true)
    (h : getsSource addedSources d = some src) : isUrl src = true :=
  (hsources src (mem_of_getsSource h)).2

theorem token_of_added {d t : Str} (hhash : IsToken scriptHash)
    (hsources : ∀ s ∈ addedSources, IsToken s) (h : added scriptHash addedSources d = some t) :
    IsToken t := by
  rw [added] at h
  split at h
  · cases h
    exact hhash
  · exact hsources t (mem_of_getsSource h)

theorem nameOf_edited (hhash : scriptHash ≠ []) (hframe : frameAncestors.isPrefixOf d = false) :
    nameOf (edited scriptHash addedSources d) = nameOf d := by
  rw [edited_eq hhash hframe]
  split
  · exact nameOf_append _ _
  · rfl

theorem sourcesOf_edited (hhash : IsToken scriptHash)
    (hsources : ∀ s ∈ addedSources, IsToken s) (hframe : frameAncestors.isPrefixOf d = false) :
    sourcesOf (edited scriptHash addedSources d) =
      sourcesOf d ++ (added scriptHash addedSources d).toList := by
  rw [edited_eq hhash.ne_nil hframe]
  cases hadded : added scriptHash addedSources d with
  | none => simp
  | some t =>
    have ht := token_of_added hhash hsources hadded
    exact sourcesOf_append d ht.ne_nil ht.noSpace

/-! The name of a `frame-ancestors` governs nothing. -/

/-- A directive's name starts with what the directive starts with. -/
theorem take_nameOf (h : a.isPrefixOf d = true)
    (hword : ∀ c ∈ a, (!isSpace c) = true) (hlower : lower a = a) :
    (nameOf d).take a.length = a := by
  rcases List.isPrefixOf_iff_prefix.1 h with ⟨r, rfl⟩
  have htake : (a ++ r).takeWhile (!isSpace ·) = a ++ r.takeWhile (!isSpace ·) :=
    List.takeWhile_append_of_pos hword
  rw [nameOf, htake, lower, List.map_append]
  exact (congrArg (List.take _) (congrArg (· ++ _) hlower)).trans List.take_left

variable {dest : Destination}

theorem notFrame_of_fallback {n : Str} (h : n ∈ fallback dest) : n.take 15 ≠ frameAncestors := by
  have hall : ∀ n ∈ fallback dest, n.take 15 ≠ frameAncestors := by
    rcases dest with r | _ | _
    · cases r <;> decide
    · decide
    · decide
  exact hall n h

variable {ds : List Str}

theorem named_edited {n : Str} (hhash : scriptHash ≠ [])
    (hds : ∀ d ∈ ds, d ≠ []) (hn : n.take 15 ≠ frameAncestors) :
    named ((ds.map (edited scriptHash addedSources)).filter (· ≠ [])) n =
      (named ds n).map (edited scriptHash addedSources) := by
  induction ds with
  | nil => rfl
  | cons d ds ih =>
    have ih := ih fun x hx => hds x (List.mem_cons_of_mem d hx)
    simp only [named] at ih
    cases hframe : frameAncestors.isPrefixOf d with
    | true =>
      -- cleared, and of another name
      have hname : nameOf d ≠ n := by
        rintro rfl
        exact hn (take_nameOf hframe (forall_mem_of_all (by decide)) (by decide))
      rw [List.map_cons, edited_of_frame hframe]
      simpa [named, hname] using ih
    | false =>
      have hname : nameOf (edited scriptHash addedSources d) = nameOf d :=
        nameOf_edited hhash hframe
      have hne : edited scriptHash addedSources d ≠ [] := by
        rw [edited_eq hhash hframe]
        split
        · simp
        · exact hds d List.mem_cons_self
      rw [List.map_cons, List.filter_cons_of_pos (by simpa using hne), named, named,
        List.find?_cons, List.find?_cons, hname]
      by_cases heq : nameOf d = n
      · simp [heq]
      · simpa [heq] using ih

/-! The text of the edited policy is read back as its directives. -/

theorem isWhitespace_of_visible {c : Char} (h : (32 ≤ c.toNat ∧ c.toNat < 127) ∨ c.toNat = 9) :
    isWhitespace c = isSpace c := by
  have heq : ∀ n : Fin 127, (32 ≤ n.val ∨ n.val = 9) →
      isWhitespace (Char.ofNat n.val) = isSpace (Char.ofNat n.val) := by
    decide
  have hlt : c.toNat < 127 := by omega
  have hc := heq ⟨c.toNat, hlt⟩ (by simp only; omega)
  simpa [Char.ofNat_toNat] using hc

theorem dropWhile_congr {p q : Char → Bool} {s : Str} (h : ∀ c ∈ s, p c = q c) :
    s.dropWhile p = s.dropWhile q := by
  induction s with
  | nil => rfl
  | cons c s ih =>
    have ih := ih fun x hx => h x (List.mem_cons_of_mem c hx)
    simp only [List.dropWhile_cons, h c List.mem_cons_self, ih]

/-- On the characters of a header, `trim` takes away what a policy's parser does. -/
theorem trim_eq_strip {s : Str} (h : Visible s) : trim s = strip s := by
  have heq : ∀ c ∈ s, isWhitespace c = isSpace c := fun c hc => isWhitespace_of_visible (h c hc)
  rw [trim, strip, dropWhile_congr heq, List.rdropWhile, List.rdropWhile,
    dropWhile_congr (q := isSpace)]
  intro c hc
  exact heq c ((List.dropWhile_suffix _).subset (List.mem_reverse.1 hc))

theorem strip_strip {s : Str} (h : Visible s) : strip (strip s) = strip s := by
  rw [← trim_eq_strip h, ← trim_eq_strip, trim_trim]
  exact fun c hc => h c (mem_of_mem_trim hc)

theorem head_of_any (h : a.head?.any isSpace = false) : ∀ c ∈ a.head?, isSpace c = false := by
  intro c hc
  rw [hc] at h
  exact h

/-- A directive that a word is appended to starts with a letter. -/
theorem head_of_added {d t : Str} (h : added scriptHash addedSources d = some t) :
    ∀ c ∈ d.head?, isSpace c = false := by
  have hletter : ∀ a : Str, a.isPrefixOf d = true → a ≠ [] →
      (∀ c ∈ a.head?, isSpace c = false) → ∀ c ∈ d.head?, isSpace c = false := by
    intro a ha hne hspace
    rw [head?_of_isPrefixOf ha hne]
    exact hspace
  rw [added] at h
  split at h
  · rename_i hgets
    rw [getsHash, Bool.and_eq_true] at hgets
    exact hletter _ hgets.1 (by decide) (head_of_any (by decide))
  · rw [getsSource] at h
    split at h
    · rename_i hfront
      rcases Bool.or_eq_true_iff.1 hfront with hconnect | hdefault
      · exact hletter _ hconnect (by decide) (head_of_any (by decide))
      · exact hletter _ hdefault (by decide) (head_of_any (by decide))
    · cases h

theorem strip_append {d t : Str} (hhead : ∀ c ∈ d.head?, isSpace c = false) (hd : d ≠ [])
    (ht : IsToken t) : strip (d ++ ' ' :: t) = d ++ ' ' :: t := by
  apply strip_of_ends
  · rw [List.head?_append_of_ne_nil _ hd]
    exact hhead
  · intro c hc
    have hlast : (' ' :: t).getLast? = t.getLast? := by
      cases t with
      | nil => exact absurd rfl ht.ne_nil
      | cons x t => rfl
    rw [List.getLast?_append_of_ne_nil _ (by simp), hlast] at hc
    exact ht.noSpace c (List.mem_of_getLast? hc)

theorem added_nil : added scriptHash addedSources [] = none := by
  have hscript : scriptSrc.isPrefixOf [] = false := by decide
  have hconnect : connectSrc.isPrefixOf [] = false := by decide
  have hdefault : defaultSrc.isPrefixOf [] = false := by decide
  simp [added, getsHash, getsSource, hscript, hconnect, hdefault]

/-- What is written of a directive can be read back. -/
theorem wellFormed_edited (hhash : IsToken scriptHash)
    (hsources : ∀ s ∈ addedSources, IsToken s) (hsemicolon : ';' ∉ d) (hstrip : strip d = d)
    (hne : edited scriptHash addedSources d ≠ []) :
    ';' ∉ edited scriptHash addedSources d ∧
      strip (edited scriptHash addedSources d) = edited scriptHash addedSources d := by
  cases hframe : frameAncestors.isPrefixOf d with
  | true => exact absurd (edited_of_frame hframe) hne
  | false =>
    rw [edited_eq hhash.ne_nil hframe]
    cases hadded : added scriptHash addedSources d with
    | none => exact ⟨hsemicolon, hstrip⟩
    | some t =>
      have ht := token_of_added hhash hsources hadded
      have hd : d ≠ [] := by
        rintro rfl
        rw [added_nil] at hadded
        cases hadded
      refine ⟨by simp [hsemicolon, ht.noSemicolon], ?_⟩
      exact strip_append (head_of_added hadded) hd ht

theorem edited_nil (hhash : scriptHash ≠ []) : edited scriptHash addedSources [] = [] := by
  rw [edited_eq hhash (by decide), added_nil]

theorem pushed_filter (ds : List Str) :
    pushed scriptHash (ds.filter (· ≠ [])) = pushed scriptHash ds := by
  have hany : hasScriptSrc (ds.filter (· ≠ [])) = hasScriptSrc ds := by
    have hscript : scriptSrc.isPrefixOf [] = false := by decide
    induction ds with
    | nil => rfl
    | cons d ds ih =>
      simp only [hasScriptSrc] at ih ⊢
      by_cases hd : d = []
      · rw [List.filter_cons_of_neg (by simp [hd]), List.any_cons, ih, hd, hscript]
        simp
      · rw [List.filter_cons_of_pos (by simpa using hd), List.any_cons, List.any_cons, ih]
  rw [pushed, pushed, hany]

theorem filter_map_edited (hhash : scriptHash ≠ []) (ds : List Str) :
    (ds.map (edited scriptHash addedSources)).filter (· ≠ []) =
      ((ds.filter (· ≠ [])).map (edited scriptHash addedSources)).filter (· ≠ []) := by
  induction ds with
  | nil => rfl
  | cons d ds ih =>
    by_cases hd : d = []
    · simpa [hd, edited_nil hhash] using ih
    · rw [List.filter_cons_of_pos (by simpa using hd), List.map_cons, List.map_cons,
        List.filter_cons, List.filter_cons, ih]

/-- The directives of the policy of the response. -/
theorem directives_cspOverride (hcsp : Visible csp) (hhash : IsToken scriptHash)
    (hsources : ∀ s ∈ addedSources, IsToken s) :
    directives (cspOverride csp scriptHash addedSources) =
      ((directives csp).map (edited scriptHash addedSources)).filter (· ≠ []) ++
        pushed scriptHash (directives csp) := by
  have hvisible : ∀ p ∈ csp.splitOn ';', Visible p := by
    intro p hp c hc
    exact hcsp c (mem_of_mem_splitOn hp hc)
  have hpieces : (csp.splitOn ';').map trim = (csp.splitOn ';').map strip :=
    List.map_congr_left fun p hp => trim_eq_strip (hvisible p hp)
  have hright : ((directives csp).map (edited scriptHash addedSources)).filter (· ≠ []) =
      (((csp.splitOn ';').map strip).map (edited scriptHash addedSources)).filter (· ≠ []) :=
    (filter_map_edited hhash.ne_nil _).symm
  have hpushed : pushed scriptHash (directives csp) =
      pushed scriptHash ((csp.splitOn ';').map strip) := pushed_filter _
  rw [hright, hpushed, cspOverride, relaxCsp, hpieces]
  split
  · -- nothing is modified
    rename_i hnone
    rw [Bool.and_eq_true, Bool.not_eq_true', decide_eq_true_eq, List.any_eq_false] at hnone
    have hsame : ((csp.splitOn ';').map strip).map (edited scriptHash addedSources) =
        (csp.splitOn ';').map strip := by
      refine (List.map_congr_left ?_).trans (List.map_id _)
      intro d hd
      have hd := hnone.1 d hd
      rw [Option.not_isSome_iff_eq_none] at hd
      simp [edited, hd]
    rw [hsame, hnone.2, List.append_nil]
    rfl
  · have hkeep : (pushed scriptHash ((csp.splitOn ';').map strip)).filter (· ≠ []) =
        pushed scriptHash ((csp.splitOn ';').map strip) := by
      rw [pushed]
      split
      · simp
      · rfl
    rw [List.filter_append, hkeep]
    apply directives_cookieLine
    intro d hd
    rw [List.mem_append, List.mem_filter, List.mem_map] at hd
    rcases hd with ⟨⟨x, hx, rfl⟩, hne⟩ | hd
    · have hne : edited scriptHash addedSources x ≠ [] := by simpa using hne
      rcases List.mem_map.1 hx with ⟨p, hp, rfl⟩
      have hsemicolon : ';' ∉ strip p := by
        rw [← trim_eq_strip (hvisible p hp)]
        exact fun hmem => notMem_of_mem_splitOn hp (mem_of_mem_trim hmem)
      rcases wellFormed_edited hhash hsources hsemicolon (strip_strip (hvisible p hp)) hne with
        ⟨hno, hstrip⟩
      exact ⟨hno, hstrip, hne⟩
    · rw [pushed] at hd
      split at hd
      · rw [List.mem_singleton] at hd
        subst hd
        have hno : ';' ∉ scriptSrc := by decide
        refine ⟨by simp [hno, hhash.noSemicolon], ?_, by simp⟩
        exact strip_append (head_of_any (by decide)) (by decide) hhash
      · cases hd

/-! ## What governs after the edit -/

def pushes (scriptHash : Str) (ds : List Str) : Bool := pushed scriptHash ds ≠ []

/-- Without a directive of its own, the destination falls back to a pushed `script-src`. -/
def Adopts (ds : List Str) (dest : Destination) : Prop :=
  scriptSrc ∈ fallback dest ∧ ∀ n ∈ fallback dest, n ≠ defaultSrc → named ds n = none

instance (ds : List Str) (dest : Destination) : Decidable (Adopts ds dest) :=
  inferInstanceAs (Decidable (_ ∧ _))

theorem nameOf_pushed : nameOf (scriptSrc ++ ' ' :: scriptHash) = scriptSrc := by
  rw [nameOf_append]
  decide

theorem sourcesOf_pushed (hhash : IsToken scriptHash) :
    sourcesOf (scriptSrc ++ ' ' :: scriptHash) = [scriptHash] := by
  have hnone : sourcesOf scriptSrc = [] := by decide
  rw [sourcesOf_append _ hhash.ne_nil hhash.noSpace, hnone]
  rfl

theorem named_pushed (ds : List Str) (n : Str) :
    named (pushed scriptHash ds) n =
      if pushes scriptHash ds ∧ n = scriptSrc then some (scriptSrc ++ ' ' :: scriptHash)
      else none := by
  rw [pushes, pushed]
  split
  · have hname : nameOf (scriptSrc ++ ' ' :: scriptHash) = scriptSrc := nameOf_pushed
    by_cases hn : n = scriptSrc
    · simp [named, hn, hname]
    · simp [named, hn, hname, Ne.symm hn]
  · simp [named]

/-- `default-src` comes right after `script-src`, which comes after what is more
specific. -/
theorem fallback_of_scriptSrc (h : scriptSrc ∈ fallback dest) :
    ∃ specific, fallback dest = specific ++ [scriptSrc, defaultSrc] ∧ scriptSrc ∉ specific ∧
      defaultSrc ∉ specific := by
  rcases dest with r | _ | _
  · cases r with
    | worker => exact ⟨["worker-src".toList, "child-src".toList], rfl, by decide, by decide⟩
    | _ => exact absurd h (by decide)
  · exact ⟨["script-src-elem".toList], rfl, by decide, by decide⟩
  · exact ⟨["script-src-attr".toList], rfl, by decide, by decide⟩

/-- A destination is governed by the edited directive it was governed by, or by the
pushed one. -/
theorem governing_cspOverride (hcsp : Visible csp) (hhash : IsToken scriptHash)
    (hsources : ∀ s ∈ addedSources, IsToken s) (dest : Destination) :
    governing (directives (cspOverride csp scriptHash addedSources)) dest =
      if pushes scriptHash (directives csp) ∧ Adopts (directives csp) dest then
        some (scriptSrc ++ ' ' :: scriptHash)
      else (governing (directives csp) dest).map (edited scriptHash addedSources) := by
  have hds : ∀ d ∈ directives csp, d ≠ [] := by
    intro d hd
    simpa using (List.mem_filter.1 hd).2
  generalize hd : directives csp = ds at hds ⊢
  have hnamed : ∀ n ∈ fallback dest,
      named (directives (cspOverride csp scriptHash addedSources)) n =
        ((named ds n).map (edited scriptHash addedSources)).or
          (if pushes scriptHash ds ∧ n = scriptSrc then some (scriptSrc ++ ' ' :: scriptHash)
            else none) := by
    intro n hn
    rw [directives_cspOverride hcsp hhash hsources, hd, named, List.find?_append]
    exact congrArg₂ Option.or (named_edited hhash.ne_nil hds (notFrame_of_fallback hn))
      (named_pushed ds n)
  split
  · rename_i hadopts
    rcases hadopts with ⟨hpush, hmem, hnone⟩
    rcases fallback_of_scriptSrc hmem with ⟨specific, hfallback, hscript, hdefault⟩
    have hfirst : specific.findSome?
        (named (directives (cspOverride csp scriptHash addedSources))) = none := by
      rw [List.findSome?_eq_none_iff]
      intro n hn
      have hin : n ∈ fallback dest := by simp [hfallback, hn]
      have hne : n ≠ scriptSrc := fun h => hscript (h ▸ hn)
      rw [hnamed n hin, hnone n hin fun h => hdefault (h ▸ hn), if_neg fun h => hne h.2]
      rfl
    have hself : named (directives (cspOverride csp scriptHash addedSources)) scriptSrc =
        some (scriptSrc ++ ' ' :: scriptHash) := by
      rw [hnamed scriptSrc hmem, hnone scriptSrc hmem (by decide), if_pos ⟨hpush, rfl⟩]
      rfl
    rw [governing, hfallback, List.findSome?_append, hfirst]
    simp [hself]
  · rename_i hnot
    have hplain : ∀ n ∈ fallback dest, (pushes scriptHash ds = true → n ≠ scriptSrc) →
        named (directives (cspOverride csp scriptHash addedSources)) n =
          (named ds n).map (edited scriptHash addedSources) := by
      intro n hn hne
      rw [hnamed n hn, if_neg fun h => hne h.1 h.2]
      simp
    by_cases hmem : pushes scriptHash ds = true ∧ scriptSrc ∈ fallback dest
    · -- some directive comes before the pushed one
      rcases fallback_of_scriptSrc hmem.2 with ⟨specific, hfallback, hscript, hdefault⟩
      have hfirst : specific.findSome?
          (named (directives (cspOverride csp scriptHash addedSources))) =
            (specific.findSome? (named ds)).map (edited scriptHash addedSources) := by
        apply findSome?_map_of_forall
        intro n hn
        apply hplain n (by simp [hfallback, hn])
        rintro - rfl
        exact hscript hn
      rw [governing, governing, hfallback, List.findSome?_append, List.findSome?_append, hfirst]
      cases hspecific : specific.findSome? (named ds) with
      | some d => rfl
      | none =>
        have hself : named ds scriptSrc ≠ none := by
          intro hself
          apply hnot
          refine ⟨hmem.1, hmem.2, ?_⟩
          intro n hn hne
          simp only [hfallback, List.mem_append, List.mem_cons, List.not_mem_nil, or_false] at hn
          rcases hn with hn | rfl | rfl
          · exact List.findSome?_eq_none_iff.1 hspecific n hn
          · exact hself
          · exact absurd rfl hne
        rcases Option.ne_none_iff_exists'.1 hself with ⟨d, hd⟩
        have hd' := hnamed scriptSrc hmem.2
        rw [hd] at hd'
        simp [hd, hd']
    · apply governing_of_named
      intro n hn
      apply hplain n hn
      rintro hpush rfl
      exact hmem ⟨hpush, hn⟩

/-! ## When the edit only relaxes -/

variable {URL : Type}

/-- What the policy allows it still allows, and the injected script, known by its hash
`k`, and what the added sources match are allowed. -/
structure OnlyRelaxes (hits : Hits URL) (csp scriptHash k : Str) (addedSources : List Str) :
    Prop where
  keeps : ∀ a, allowedBy hits csp a = true →
    allowedBy hits (cspOverride csp scriptHash addedSources) a = true
  script : ∀ hashes, k ∈ hashes →
    allowedBy hits (cspOverride csp scriptHash addedSources) (.inline none hashes) = true
  sources : ∀ src ∈ addedSources, ∀ url, hits url src = true →
    allowedBy hits (cspOverride csp scriptHash addedSources) (.load .connect url) = true

/-- The sources of a `default-src` permit nothing at a destination but the hash. -/
def OnlyHash (hits : Hits URL) (k : Str) (sources : List Str) : Destination → Prop
  | .resource .worker => ∀ url, matchesUrl hits sources url = false
  | .scriptElement =>
    allowsAllInline sources = false ∧ has sources strictDynamic = false ∧
      (∀ t ∈ sources, nonceOf t = none ∧ ∀ h ∈ hashOf t, h = k) ∧
      ∀ url, matchesUrl hits sources url = false
  | .scriptAttribute =>
    allowsAllInline sources = false ∧
      (has sources unsafeHashes = true → ∀ t ∈ sources, hashOf t = none)
  | _ => True

/-- The policy loses nothing by the edit and gains what it is made for. -/
structure CspOk (hits : Hits URL) (csp scriptHash k : Str) (addedSources : List Str) :
    Prop where
  onePolicy : ',' ∉ csp
  /-- A directive for scripts that gets the hash does not live on `'unsafe-inline'`. -/
  inline : ∀ dest ∈ [Destination.scriptElement, .scriptAttribute],
    ∀ d ∈ governing (directives csp) dest, getsHash scriptHash d = true →
      allowsAllInline (sourcesOf d) = false
  /-- Where a pushed `script-src` comes before `default-src`, nothing was allowed. -/
  adopted : pushes scriptHash (directives csp) = true → ∀ dest, Adopts (directives csp) dest →
    ∃ d, named (directives csp) defaultSrc = some d ∧ OnlyHash hits k (sourcesOf d) dest
  /-- The directive for script elements gets the hash, has it or needs none. -/
  script : ¬(pushes scriptHash (directives csp) = true ∧ Adopts (directives csp) .scriptElement) →
    ∀ d ∈ governing (directives csp) .scriptElement, getsHash scriptHash d = true ∨
      hasHash (sourcesOf d) k = true ∨ allowsAllInline (sourcesOf d) = true
  /-- What a source matches is matched by the directive for connections or by the one
  source it gets. -/
  sources : ∀ d ∈ governing (directives csp) (.resource .connect), ∀ src ∈ addedSources, ∀ url,
    hits url src = true → matchesUrl hits (sourcesOf d) url = true ∨
      ∃ last, getsSource addedSources d = some last ∧ hits url last = true

theorem permits_hash {hits : Hits URL} {k : Str} {hashes : List Str}
    (hk : hashOf scriptHash = some k) (hmem : k ∈ hashes) :
    permits hits [scriptHash] (.inline none hashes) = true := by
  have hhas : hasHash [scriptHash] k = true := by simp [hasHash, hk]
  have hany : hashes.any (hasHash [scriptHash]) = true := List.any_eq_true.2 ⟨k, hmem, hhas⟩
  simp [permits, hany]

section Hash

variable {hits : Hits URL} {k : Str} (hk : hashOf scriptHash = some k)
include hk

theorem hasHash_singleton {h : Str} : hasHash [scriptHash] h = true ↔ h = k := by
  simp [hasHash, hk, eq_comm]

theorem permits_of_onlyHash {s : List Str} {a : Action URL}
    (hscript : scriptSrc ∈ fallback a.destination) (honly : OnlyHash hits k s a.destination)
    (h : permits hits s a = true) : permits hits [scriptHash] a = true := by
  cases a with
  | load resource url =>
    cases resource with
    | worker =>
      have hno : matchesUrl hits s url = false := honly url
      rw [permits, hno] at h
      cases h
    | _ =>
      change scriptSrc ∈ fallback (.resource _) at hscript
      exact absurd hscript (by decide)
  | script url nonce integrity parserInserted =>
    rcases honly with ⟨_, hdynamic, htokens, hurl⟩
    simp only [permits, Bool.or_eq_true, Bool.and_eq_true, hdynamic, hurl] at h ⊢
    rcases h with (h | ⟨hne, h⟩) | h
    · -- a nonce needs a nonce source
      cases nonce with
      | none => cases h
      | some n =>
        rcases List.any_eq_true.1 h with ⟨t, ht, hn⟩
        rw [(htokens t ht).1] at hn
        exact absurd hn (by simp)
    · refine Or.inl (Or.inr ⟨hne, ?_⟩)
      rw [List.all_eq_true] at h ⊢
      intro x hx
      rcases List.any_eq_true.1 (h x hx) with ⟨t, ht, hxt⟩
      exact (hasHash_singleton hk).2 ((htokens t ht).2 x (of_decide_eq_true hxt))
    · cases h
  | inline nonce hashes =>
    rcases honly with ⟨hall, _, htokens, _⟩
    simp only [permits, Bool.or_eq_true, hall] at h ⊢
    rcases h with (h | h) | h
    · cases h
    · cases nonce with
      | none => cases h
      | some n =>
        rcases List.any_eq_true.1 h with ⟨t, ht, hn⟩
        rw [(htokens t ht).1] at hn
        exact absurd hn (by simp)
    · refine Or.inr ?_
      rcases List.any_eq_true.1 h with ⟨x, hx, hxs⟩
      rcases List.any_eq_true.1 hxs with ⟨t, ht, hxt⟩
      have hxk : x = k := (htokens t ht).2 x (of_decide_eq_true hxt)
      exact List.any_eq_true.2 ⟨x, hx, (hasHash_singleton hk).2 hxk⟩
  | handler hashes =>
    rcases honly with ⟨hall, hno⟩
    simp only [permits, Bool.or_eq_true, Bool.and_eq_true, hall] at h
    rcases h with h | ⟨hhas, h⟩
    · cases h
    · rcases List.any_eq_true.1 h with ⟨x, hx, hxs⟩
      rcases List.any_eq_true.1 hxs with ⟨t, ht, hxt⟩
      rw [hno hhas t ht] at hxt
      exact absurd hxt (by simp)

/-- The hash alone permits no inline code but the script, no load by URL and no script of
another kind. -/
theorem permits_inline_hash {hashes : List Str} {nonce : Option Str}
    (h : permits hits [scriptHash] (.inline nonce hashes) = true) : k ∈ hashes := by
  have hall : allowsAllInline [scriptHash] = false :=
    allowsAllInline_of_hash hk List.mem_cons_self
  have hnonce : hasNonce [scriptHash] nonce = false := by
    cases nonce with
    | none => rfl
    | some n => simp [hasNonce, nonceOf_of_hash hk]
  simp only [permits, hall, hnonce, Bool.false_or] at h
  rcases List.any_eq_true.1 h with ⟨x, hx, hxs⟩
  exact (hasHash_singleton hk).1 hxs ▸ hx

theorem permits_handler_hash {hashes : List Str} :
    permits hits [scriptHash] (.handler hashes) = false := by
  have hall : allowsAllInline [scriptHash] = false :=
    allowsAllInline_of_hash hk List.mem_cons_self
  have hhas : has [scriptHash] unsafeHashes = false := has_hash hk (by decide)
  simp [permits, hall, hhas]

theorem matchesUrl_hash {url : URL} : matchesUrl hits [scriptHash] url = false := by
  simp [matchesUrl, isUrl_of_hash hk]

theorem permits_script_hash {url : URL} {parserInserted : Bool} :
    permits hits [scriptHash] (.script url none [] parserInserted) = false := by
  have hdynamic : has [scriptHash] strictDynamic = false := has_hash hk (by decide)
  simp [permits, hasNonce, hdynamic, matchesUrl_hash hk]

theorem onlyHash_of_permits [Inhabited URL] {s : List Str} {dest : Destination}
    (hkeeps : ∀ a : Action URL, a.destination = dest → permits hits s a = true →
      permits hits [scriptHash] a = true) : OnlyHash hits k s dest := by
  rcases dest with r | _ | _
  · cases r with
    | worker =>
      intro url
      by_contra hurl
      have hurl : matchesUrl hits s url = true := by simpa using hurl
      -- each part: an action that the sources permit and the bare hash does not
      have hload := hkeeps (.load .worker url) rfl hurl
      rw [permits, matchesUrl_hash hk] at hload
      cases hload
    | _ => trivial
  · have hdynamic : has s strictDynamic = false := by
      by_contra hdynamic
      have hdynamic : has s strictDynamic = true := by simpa using hdynamic
      have hscript := hkeeps (.script default none [] false) rfl (by simp [permits, hdynamic])
      rw [permits_script_hash hk] at hscript
      cases hscript
    refine ⟨?_, hdynamic, ?_, ?_⟩
    · by_contra hall
      have hall : allowsAllInline s = true := by simpa using hall
      -- an inline script with neither nonce nor hash
      have hinline := hkeeps (.inline none []) rfl (by simp [permits, hall])
      exact absurd (permits_inline_hash hk hinline) (by simp)
    · intro t ht
      constructor
      · by_contra hnonce
        rcases Option.ne_none_iff_exists'.1 hnonce with ⟨n, hn⟩
        have hhas : hasNonce s (some n) = true := List.any_eq_true.2 ⟨t, ht, by simp [hn]⟩
        -- one with that nonce
        have hinline := hkeeps (.inline (some n) []) rfl (by simp [permits, hhas])
        exact absurd (permits_inline_hash hk hinline) (by simp)
      · intro h hh
        have hhas : hasHash s h = true := List.any_eq_true.2 ⟨t, ht, decide_eq_true hh⟩
        have hinline := hkeeps (.inline none [h]) rfl (by simp [permits, hhas])
        exact (List.mem_singleton.1 (permits_inline_hash hk hinline)).symm
    · intro url
      by_contra hurl
      have hurl : matchesUrl hits s url = true := by simpa using hurl
      have hscript := hkeeps (.script url none [] true) rfl (by simp [permits, hdynamic, hurl])
      rw [permits_script_hash hk] at hscript
      cases hscript
  · constructor
    · by_contra hall
      have hall : allowsAllInline s = true := by simpa using hall
      have hhandler := hkeeps (.handler []) rfl (by simp [permits, hall])
      rw [permits_handler_hash hk] at hhandler
      cases hhandler
    · intro hhas t ht
      by_contra hhash
      rcases Option.ne_none_iff_exists'.1 hhash with ⟨h, hh⟩
      have hmem : hasHash s h = true := List.any_eq_true.2 ⟨t, ht, decide_eq_true hh⟩
      have hhandler := hkeeps (.handler [h]) rfl (by simp [permits, hhas, hmem])
      rw [permits_handler_hash hk] at hhandler
      cases hhandler

end Hash

/-! ### The edit and the actions -/

/-- The name of a governing directive keeps it apart from the ones with a prefix no
name of its destination has. -/
theorem not_isPrefixOf_of_governing
    (h : governing ds dest = some d) (hword : ∀ c ∈ a, (!isSpace c) = true)
    (hlower : lower a = a) (hno : ∀ n ∈ fallback dest, n.take a.length ≠ a) :
    a.isPrefixOf d = false := by
  by_contra hfront
  have hfront : a.isPrefixOf d = true := by simpa using hfront
  exact hno _ (mem_of_governing h).2 (take_nameOf hfront hword hlower)

theorem not_frame_of_governing
    (h : governing ds dest = some d) : frameAncestors.isPrefixOf d = false :=
  not_isPrefixOf_of_governing h (forall_mem_of_all (by decide)) (by decide) fun _ hn => notFrame_of_fallback hn

theorem not_getsHash_of_connect
    (h : governing ds (.resource .connect) = some d) : getsHash scriptHash d = false := by
  have hfront : scriptSrc.isPrefixOf d = false :=
    not_isPrefixOf_of_governing h (forall_mem_of_all (by decide)) (by decide) (by decide)
  simp [getsHash, hfront]

/-- A destination that adopts a pushed `script-src` was governed by `default-src`. -/
theorem governing_of_adopts (h : Adopts ds dest) : governing ds dest = named ds defaultSrc := by
  rcases fallback_of_scriptSrc h.1 with ⟨specific, hfallback, hscript, hdefault⟩
  have hfirst : specific.findSome? (named ds) = none := by
    rw [List.findSome?_eq_none_iff]
    intro n hn
    exact h.2 n (by simp [hfallback, hn]) fun heq => hdefault (heq ▸ hn)
  have hself : named ds scriptSrc = none := h.2 scriptSrc h.1 (by decide)
  rw [governing, hfallback, List.findSome?_append, hfirst]
  cases hnamed : named ds defaultSrc with
  | none => simp [hself, hnamed]
  | some d => simp [hself, hnamed]

theorem not_getsHash_of_default (h : named ds defaultSrc = some d) :
    getsHash scriptHash d = false := by
  have hfront : scriptSrc.isPrefixOf d = false := by
    by_contra hfront
    have hfront : scriptSrc.isPrefixOf d = true := by simpa using hfront
    have htake := take_nameOf hfront (forall_mem_of_all (by decide)) (by decide)
    rw [(mem_of_named h).2] at htake
    exact absurd htake (by decide)
  simp [getsHash, hfront]

theorem noComma_edited (hhash : IsToken scriptHash)
    (hsources : ∀ s ∈ addedSources, IsToken s) (hd : ',' ∉ d) :
    ',' ∉ edited scriptHash addedSources d := by
  cases hframe : frameAncestors.isPrefixOf d with
  | true =>
    rw [edited_of_frame hframe]
    simp
  | false =>
    rw [edited_eq hhash.ne_nil hframe]
    cases hadded : added scriptHash addedSources d with
    | none => exact hd
    | some t => simp [hd, (token_of_added hhash hsources hadded).noComma]

theorem noComma_cspOverride (hpolicy : ',' ∉ csp) (hhash : IsToken scriptHash)
    (hsources : ∀ s ∈ addedSources, IsToken s) :
    ',' ∉ cspOverride csp scriptHash addedSources := by
  rw [cspOverride, relaxCsp]
  split
  · exact hpolicy
  · intro hmem
    rcases mem_cookieLine hmem with hsep | ⟨d, hd, hmem⟩
    · exact absurd hsep (by decide)
    · rcases List.mem_append.1 (List.mem_filter.1 hd).1 with hd | hd
      · rcases List.mem_map.1 hd with ⟨x, hx, rfl⟩
        rcases List.mem_map.1 hx with ⟨p, hp, rfl⟩
        have hno : ',' ∉ trim p := fun hc => hpolicy (mem_of_mem_splitOn hp (mem_of_mem_trim hc))
        exact noComma_edited hhash hsources hno hmem
      · rw [pushed] at hd
        split at hd
        · rw [List.mem_singleton.1 hd] at hmem
          rcases List.mem_append.1 hmem with hname | hhash'
          · exact absurd hname (by decide)
          · simp [hhash.noComma] at hhash'
        · cases hd

section Actions

variable {hits : Hits URL} {k : Str} (hcsp : Visible csp) (hpolicy : ',' ∉ csp)
  (hhash : IsToken scriptHash) (hk : hashOf scriptHash = some k)
  (hsources : ∀ s ∈ addedSources, IsToken s ∧ isUrl s = true)
include hcsp hpolicy hhash hsources

theorem allowedBy_of_adopts {a : Action URL}
    (h : pushes scriptHash (directives csp) = true ∧ Adopts (directives csp) a.destination) :
    allowedBy hits (cspOverride csp scriptHash addedSources) a = permits hits [scriptHash] a := by
  have htokens : ∀ s ∈ addedSources, IsToken s := fun s hs => (hsources s hs).1
  rw [allowedBy_of_onePolicy (noComma_cspOverride hpolicy hhash htokens), allowed,
    governing_cspOverride hcsp hhash htokens, if_pos h]
  simp only
  rw [sourcesOf_pushed hhash]

theorem allowedBy_of_not_adopts {a : Action URL}
    (h : ¬(pushes scriptHash (directives csp) = true ∧ Adopts (directives csp) a.destination)) :
    allowedBy hits (cspOverride csp scriptHash addedSources) a =
      match governing (directives csp) a.destination with
      | some d => permits hits (sourcesOf d ++ (added scriptHash addedSources d).toList) a
      | none => true := by
  have htokens : ∀ s ∈ addedSources, IsToken s := fun s hs => (hsources s hs).1
  rw [allowedBy_of_onePolicy (noComma_cspOverride hpolicy hhash htokens), allowed,
    governing_cspOverride hcsp hhash htokens, if_neg h]
  cases hd : governing (directives csp) a.destination with
  | none => rfl
  | some d =>
    simp only [Option.map_some]
    rw [sourcesOf_edited hhash htokens (not_frame_of_governing hd)]

/-- An action that the hash alone does not permit is lost where a pushed `script-src` is
adopted. -/
theorem permits_of_adopts (honly : OnlyRelaxes hits csp scriptHash k addedSources)
    {a : Action URL}
    (hadopts : pushes scriptHash (directives csp) = true ∧ Adopts (directives csp) a.destination)
    (ha : ∀ d, named (directives csp) defaultSrc = some d → permits hits (sourcesOf d) a = true) :
    permits hits [scriptHash] a = true := by
  have hbefore : allowedBy hits csp a = true := by
    rw [allowedBy_of_onePolicy hpolicy, allowed, governing_of_adopts hadopts.2]
    cases hd : named (directives csp) defaultSrc with
    | none => rfl
    | some d => exact ha d hd
  have hafter := honly.keeps a hbefore
  rwa [allowedBy_of_adopts hcsp hpolicy hhash hsources hadopts] at hafter

include hk

theorem onlyRelaxes_of_ok (hok : CspOk hits csp scriptHash k addedSources) :
    OnlyRelaxes hits csp scriptHash k addedSources := by
  constructor
  · -- what the policy allows stays allowed
    intro a ha
    rw [allowedBy_of_onePolicy hpolicy, allowed] at ha
    by_cases hadopts : pushes scriptHash (directives csp) = true ∧
        Adopts (directives csp) a.destination
    · -- a pushed script-src governs in the place of the one that did
      rcases hok.adopted hadopts.1 _ hadopts.2 with ⟨d, hd, honly⟩
      rw [governing_of_adopts hadopts.2, hd] at ha
      rw [allowedBy_of_adopts hcsp hpolicy hhash hsources hadopts]
      exact permits_of_onlyHash hk hadopts.2.1 honly ha
    · rw [allowedBy_of_not_adopts hcsp hpolicy hhash hsources hadopts]
      cases hd : governing (directives csp) a.destination with
      | none => rfl
      | some d =>
        rw [hd] at ha
        simp only [added] at ha ⊢
        cases hgets : getsHash scriptHash d with
        | true =>
          apply permits_append_hash hk _ ha
          intro hinline
          have hscripts : a.destination ∈ [Destination.scriptElement, .scriptAttribute] := by
            cases a with
            | load | script => cases hinline
            | inline | handler => simp [Action.destination]
          exact hok.inline _ hscripts d hd hgets
        | false =>
          rw [if_neg Bool.false_ne_true]
          cases hsource : getsSource addedSources d with
          | none => simpa using ha
          | some src => exact permits_append_url (isUrl_of_getsSource hsources hsource) ha
  · -- the script with the hash is allowed
    intro hashes hmem
    by_cases hadopts : pushes scriptHash (directives csp) = true ∧
        Adopts (directives csp) .scriptElement
    · have hallowed := @allowedBy_of_adopts _ _ _ _ hits hcsp hpolicy hhash hsources
        (.inline none hashes) hadopts
      rw [hallowed]
      exact permits_hash hk hmem
    · have hallowed := @allowedBy_of_not_adopts _ _ _ _ hits hcsp hpolicy hhash hsources
        (.inline none hashes) hadopts
      rw [hallowed]
      cases hd : governing (directives csp) .scriptElement with
      | none => simp [Action.destination, hd]
      | some d =>
        simp only [Action.destination, hd, added]
        have hany : ∀ e, hasHash (sourcesOf d ++ e) k = true →
            permits hits (sourcesOf d ++ e) (.inline none hashes) = true := by
          intro e he
          have hfound := List.any_eq_true.2 ⟨k, hmem, he⟩
          simp [permits, hfound]
        rcases hok.script hadopts d hd with hgets | hhas | hall
        · apply hany
          simp [hgets, hasHash, hk]
        · exact hany _ (hasHash_append hhas)
        · cases hgets : getsHash scriptHash d with
          | true =>
            apply hany
            simp [hasHash, hk]
          | false =>
            rw [if_neg Bool.false_ne_true]
            have hkeep : allowsAllInline
                (sourcesOf d ++ (getsSource addedSources d).toList) = true := by
              cases hsource : getsSource addedSources d with
              | none => simpa using hall
              | some src =>
                rw [Option.toList_some,
                  allowsAllInline_append_url (isUrl_of_getsSource hsources hsource), hall]
            simp [permits, hkeep]
  · -- connections to the added sources are allowed; no pushed directive governs them
    intro src hsrc url hurl
    have hadopts : ¬(pushes scriptHash (directives csp) = true ∧
        Adopts (directives csp) (.resource .connect)) := fun h => absurd h.2.1 (by decide)
    have hallowed := @allowedBy_of_not_adopts _ _ _ _ hits hcsp hpolicy hhash hsources
      (.load .connect url) hadopts
    rw [hallowed]
    cases hd : governing (directives csp) (.resource .connect) with
    | none => simp [Action.destination, hd]
    | some d =>
      simp only [Action.destination, hd, added, not_getsHash_of_connect hd, permits]
      rcases hok.sources d hd src hsrc url hurl with hmatch | ⟨last, hlast, hhit⟩
      · exact matchesUrl_append hmatch
      · have hself : (isUrl last && hits url last) = true := by
          rw [isUrl_of_getsSource hsources hlast, hhit]
          rfl
        simp [hlast, matchesUrl, hself]

theorem inline_of_onlyRelaxes (honly : OnlyRelaxes hits csp scriptHash k addedSources)
    {a : Action URL} {d : Str} (hd : governing (directives csp) a.destination = some d)
    (hgets : getsHash scriptHash d = true)
    (hbefore : allowsAllInline (sourcesOf d) = true → permits hits (sourcesOf d) a = true)
    (hafter : permits hits (sourcesOf d ++ [scriptHash]) a = true →
      allowsAllInline (sourcesOf d ++ [scriptHash]) = true) :
    allowsAllInline (sourcesOf d) = false := by
  by_contra hall
  have hall : allowsAllInline (sourcesOf d) = true := by simpa using hall
  have hadopts : ¬(pushes scriptHash (directives csp) = true ∧
      Adopts (directives csp) a.destination) := by
    intro h
    rw [governing_of_adopts h.2] at hd
    rw [not_getsHash_of_default hd] at hgets
    cases hgets
  have hallowed : allowedBy hits csp a = true := by
    rw [allowedBy_of_onePolicy hpolicy, allowed, hd]
    exact hbefore hall
  have hkept := honly.keeps a hallowed
  rw [allowedBy_of_not_adopts hcsp hpolicy hhash hsources hadopts, hd] at hkept
  simp only [added, hgets, if_true, Option.toList_some] at hkept
  have hlost := allowsAllInline_of_hash hk (s := sourcesOf d ++ [scriptHash]) (by simp)
  rw [hafter hkept] at hlost
  cases hlost

theorem ok_of_onlyRelaxes [Inhabited URL]
    (honly : OnlyRelaxes hits csp scriptHash k addedSources) :
    CspOk hits csp scriptHash k addedSources := by
  refine ⟨hpolicy, ?_, ?_, ?_, ?_⟩
  · intro dest hdest d hd hgets
    simp only [List.mem_cons, List.not_mem_nil, or_false] at hdest
    rcases hdest with rfl | rfl
    · apply inline_of_onlyRelaxes hcsp hpolicy hhash hk hsources honly (a := .inline none []) hd hgets
      · intro hall
        simp [permits, hall]
      · intro hafter
        simpa [permits, hasNonce] using hafter
    · apply inline_of_onlyRelaxes hcsp hpolicy hhash hk hsources honly (a := .handler []) hd hgets
      · intro hall
        simp [permits, hall]
      · intro hafter
        simpa [permits] using hafter
  · intro hpush dest hadopts
    have hkept : ∀ a : Action URL, a.destination = dest →
        (∀ d, named (directives csp) defaultSrc = some d →
          permits hits (sourcesOf d) a = true) → permits hits [scriptHash] a = true := by
      rintro a rfl ha
      exact permits_of_adopts hcsp hpolicy hhash hsources honly ⟨hpush, hadopts⟩ ha
    cases hd : named (directives csp) defaultSrc with
    | some d =>
      refine ⟨d, rfl, onlyHash_of_permits hk ?_⟩
      intro a hdest ha
      apply hkept a hdest
      intro d' hd'
      rw [hd] at hd'
      cases hd'
      exact ha
    | none =>
      -- nothing governed the destination, now the hash does
      exfalso
      have hkept : ∀ a : Action URL, a.destination = dest → permits hits [scriptHash] a = true := by
        intro a hdest
        apply hkept a hdest
        intro d hsome
        rw [hd] at hsome
        cases hsome
      rcases dest with r | _ | _
      · have hload := hkept (.load r default) rfl
        rw [permits, matchesUrl_hash hk] at hload
        cases hload
      · exact absurd (permits_inline_hash hk (hkept (.inline none []) rfl)) (by simp)
      · have hhandler := hkept (.handler []) rfl
        rw [permits_handler_hash hk] at hhandler
        cases hhandler
  · intro hadopts d hd
    have hscript := honly.script [k] (by simp)
    have hallowed := @allowedBy_of_not_adopts _ _ _ _ hits hcsp hpolicy hhash hsources
      (.inline none [k]) hadopts
    have hd : governing (directives csp) .scriptElement = some d := hd
    rw [hallowed] at hscript
    simp only [Action.destination, hd, added] at hscript
    cases hgets : getsHash scriptHash d with
    | true => exact Or.inl rfl
    | false =>
      rw [hgets, if_neg Bool.false_ne_true] at hscript
      refine Or.inr ?_
      cases hsource : getsSource addedSources d with
      | none =>
        rw [hsource, Option.toList_none, List.append_nil] at hscript
        simpa [permits, hasNonce, or_comm] using hscript
      | some src =>
        have hurl := isUrl_of_getsSource hsources hsource
        rw [hsource, Option.toList_some] at hscript
        simpa [permits, hasNonce, allowsAllInline_append_url hurl, hasHash, hashOf_of_isUrl hurl,
          or_comm] using hscript
  · intro d hd src hsrc url hhit
    have hadopts : ¬(pushes scriptHash (directives csp) = true ∧
        Adopts (directives csp) (.resource .connect)) := fun h => absurd h.2.1 (by decide)
    have hallowed := @allowedBy_of_not_adopts _ _ _ _ hits hcsp hpolicy hhash hsources
      (.load .connect url) hadopts
    have hload := honly.sources src hsrc url hhit
    have hd : governing (directives csp) (.resource .connect) = some d := hd
    rw [hallowed] at hload
    simp only [Action.destination, hd, added, not_getsHash_of_connect hd, permits] at hload
    rw [if_neg Bool.false_ne_true] at hload
    cases hsource : getsSource addedSources d with
    | none => exact Or.inl (by simpa [hsource] using hload)
    | some last =>
      simp only [hsource, Option.toList_some, matchesUrl, List.any_append, Bool.or_eq_true,
        List.any_cons, List.any_nil, Bool.or_false, Bool.and_eq_true] at hload
      rcases hload with hload | hload
      · exact Or.inl hload
      · exact Or.inr ⟨last, rfl, hload.2⟩

end Actions

/-- `relax_csp` only relaxes exactly when no directive it adds to lives on
`'unsafe-inline'`, no `default-src` is overridden by a pushed `script-src`, and the hash
and the sources reach the directives that govern. -/
theorem csp_only_relaxed [Inhabited URL] {hits : Hits URL} {k : Str} (hcsp : Visible csp)
    (hhash : IsToken scriptHash) (hk : hashOf scriptHash = some k)
    (hsources : ∀ s ∈ addedSources, IsToken s ∧ isUrl s = true) :
    (CspOk hits csp scriptHash k addedSources →
      OnlyRelaxes hits csp scriptHash k addedSources) ∧
    (',' ∉ csp → OnlyRelaxes hits csp scriptHash k addedSources →
      CspOk hits csp scriptHash k addedSources) := by
  constructor
  · intro hok
    exact onlyRelaxes_of_ok hcsp hok.onePolicy hhash hk hsources hok
  · intro hpolicy honly
    exact ok_of_onlyRelaxes hcsp hpolicy hhash hk hsources honly

/-- Sources are matched by the origin of a URL, `'self'` by the one of the page. -/
def atOrigin (page : Str) : Hits Str := fun origin t =>
  if lower t = selfSource then origin = page else origin = t

def portalHash : Str := "'sha256-RBNvo1WzZ4oRRq0W9+hknpT7T8If536DEMBg9hyq/4o='".toList

def proxySocket : Str := "ws://127.0.0.1:8080".toList

theorem csp_only_relaxed_portal :
    OnlyRelaxes (atOrigin "https://portal".toList)
      "script-src 'self'; connect-src 'self'".toList portalHash portalHash.dropLast
      [proxySocket] := by
  have hds : directives "script-src 'self'; connect-src 'self'".toList =
      ["script-src 'self'".toList, "connect-src 'self'".toList] := by decide
  have hconnect : governing ["script-src 'self'".toList, "connect-src 'self'".toList]
      (.resource .connect) = some "connect-src 'self'".toList := by decide
  have hok : CspOk (atOrigin "https://portal".toList)
      "script-src 'self'; connect-src 'self'".toList portalHash portalHash.dropLast [proxySocket] := by
    refine ⟨by decide, ?_, ?_, ?_, ?_⟩
    · rw [hds]
      decide
    · intro hpush
      rw [hds] at hpush
      exact absurd hpush (by decide)
    · rw [hds]
      intro _
      decide
    · rw [hds]
      intro d hd src hsrc url hhit
      rw [hconnect] at hd
      cases hd
      obtain rfl : src = proxySocket := by simpa using hsrc
      exact Or.inr ⟨proxySocket, by decide, hhit⟩
  have hhash : IsToken portalHash :=
    ⟨by decide, forall_mem_of_all (by decide), by decide,
      by decide⟩
  have hsocket : IsToken proxySocket :=
    ⟨by decide, forall_mem_of_all (by decide), by decide,
      by decide⟩
  have hsources : ∀ s ∈ [proxySocket], IsToken s ∧ isUrl s = true := by
    intro s hs
    obtain rfl : s = proxySocket := by simpa using hs
    exact ⟨hsocket, by decide⟩
  have hcsp : Visible "script-src 'self'; connect-src 'self'".toList := by
    exact forall_mem_of_all (by decide)
  exact (csp_only_relaxed hcsp hhash (by decide) hsources).1 hok

/-- The scripts of a page whose policy is `default-src 'self'` are no longer loaded. -/
theorem default_src_overridden :
    ¬ ∀ (csp scriptHash k : Str) (addedSources : List Str), Visible csp → ',' ∉ csp →
      IsToken scriptHash → hashOf scriptHash = some k →
      (∀ s ∈ addedSources, IsToken s ∧ isUrl s = true) →
      OnlyRelaxes (atOrigin "https://portal".toList) csp scriptHash k addedSources := by
  intro hall
  have hhash : IsToken portalHash :=
    ⟨by decide, forall_mem_of_all (by decide), by decide,
      by decide⟩
  have hcsp : Visible "default-src 'self'".toList := by
    exact forall_mem_of_all (by decide)
  have hrun := hall "default-src 'self'".toList portalHash portalHash.dropLast [] hcsp (by decide)
    hhash (by decide) (by simp)
  have hafter := hrun.keeps (.script "https://portal".toList none [] true) (by decide)
  exact absurd hafter (by decide)

end HomeTier.RelaxCsp
