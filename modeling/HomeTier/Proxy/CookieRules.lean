import HomeTier.Proxy.Cookie

/-! # Cookie paths and expiry by the standard

`build_cookie_header` cuts the slashes off the end of a cookie's path before it compares
it with a request, where RFC 6265 compares the path as it is. `parse_set_cookie` lets
the last of `Max-Age` and `Expires` decide, where the standard lets `Max-Age` decide
whenever it is there. Both agree with the standard on what `PathExact` and
`ExpiryAgrees` say.
-/

namespace HomeTier.CookieRules

open Lib

/-! ## Paths -/

/-- Path-match of RFC 6265, section 5.1.4. -/
def PathMatches (requestPath cookiePath : Str) : Prop :=
  requestPath = cookiePath ∨
    (cookiePath <+: requestPath ∧ cookiePath.getLast? = some '/') ∨
    cookiePath ++ ['/'] <+: requestPath

/-- The request is for the path `t` or below it. -/
def Covers (t requestPath : Str) : Prop :=
  t = [] ∨ requestPath = t ∨ t ++ ['/'] <+: requestPath

/-- A request that continues the cookie's path without its last slashes continues it
with them. -/
structure PathExact (cookiePath requestPath : Str) : Prop where
  empty : cookiePath = [] → requestPath = [] ∨ requestPath.head? = some '/'
  slash : cookiePath.getLast? = some '/' → Covers (trimEndMatches '/' cookiePath) requestPath →
    cookiePath <+: requestPath

theorem slash_ne_trimEnd (s : Str) : trimEndMatches '/' s ≠ "/".toList := by
  intro h
  have hlast : (trimEndMatches '/' s).getLast? = some '/' := by
    rw [h]
    rfl
  have hne : trimEndMatches '/' s ≠ [] := by
    rw [h]
    exact List.cons_ne_nil _ _
  have hnot := List.rdropWhile_last_not (· = '/') s hne
  rw [List.getLast?_eq_some_getLast hne, Option.some.injEq] at hlast
  exact hnot (decide_eq_true hlast)

theorem pathOk_iff (requestPath : Str) (c : StoredCookie) :
    pathOk requestPath c = true ↔ Covers (trimEndMatches '/' c.path) requestPath := by
  have hslash := slash_ne_trimEnd c.path
  rw [pathOk, Covers]
  generalize trimEndMatches '/' c.path = t at hslash ⊢
  by_cases hnil : t = []
  · simp [hnil]
  · rw [if_neg (not_or.2 ⟨hnil, hslash⟩)]
    cases hdrop : requestPath.dropPrefix? t with
    | none =>
      have hno : ∀ rest, requestPath ≠ t ++ rest := by
        rintro rest rfl
        have hsome : (t ++ rest).dropPrefix? t = some rest :=
          List.dropPrefix?_eq_some_iff.2 ⟨t, rfl, beq_self_eq_true t⟩
        rw [hdrop] at hsome
        cases hsome
      constructor
      · intro h
        cases h
      · rintro (h | rfl | ⟨more, rfl⟩)
        · exact absurd h hnil
        · exact absurd (List.append_nil _).symm (hno [])
        · exact absurd (List.append_assoc _ _ _) (hno ('/' :: more))
    | some rest =>
      obtain ⟨t', rfl, heq⟩ := List.dropPrefix?_eq_some_iff.1 hdrop
      obtain rfl : t' = t := eq_of_beq heq
      cases rest with
      | nil => simp
      | cons d rest => simp [hnil, List.prefix_append_right_inj, List.cons_prefix_cons, eq_comm]

/-- What a path covers, the path without its last slashes covers. -/
theorem covers_of_matches {requestPath cookiePath : Str} (h : PathMatches requestPath cookiePath) :
    Covers (trimEndMatches '/' cookiePath) requestPath := by
  have hcut : cookiePath = trimEndMatches '/' cookiePath ∨
      trimEndMatches '/' cookiePath ++ ['/'] <+: cookiePath := by
    rcases trimEndMatches_append '/' cookiePath with ⟨slashes, hslashes, heq⟩
    cases slashes with
    | nil => exact Or.inl (by rw [List.append_nil] at heq; exact heq)
    | cons a slashes =>
      obtain rfl : a = '/' := hslashes a List.mem_cons_self
      exact Or.inr ⟨slashes, by rw [List.append_assoc]; exact heq.symm⟩
  rcases h with rfl | ⟨hfront, hlast⟩ | hfront
  · rcases hcut with heq | hbelow
    · exact Or.inr (Or.inl heq)
    · exact Or.inr (Or.inr hbelow)
  · rcases hcut with heq | hbelow
    · -- a path that ends in a slash is cut
      exfalso
      have hne : cookiePath ≠ [] := by
        rintro rfl
        cases hlast
      have hne' : trimEndMatches '/' cookiePath ≠ [] := by rwa [← heq]
      have hnot := List.rdropWhile_last_not (· = '/') cookiePath hne'
      rw [heq, List.getLast?_eq_some_getLast hne', Option.some.injEq] at hlast
      exact hnot (decide_eq_true hlast)
    · exact Or.inr (Or.inr (hbelow.trans hfront))
  · rcases hcut with heq | hbelow
    · rw [heq] at hfront
      exact Or.inr (Or.inr hfront)
    · exact Or.inr (Or.inr (hbelow.trans ((List.prefix_append _ _).trans hfront)))

/-- The jar's path test is the one of the standard exactly on `PathExact`. -/
theorem path_test_standard (requestPath : Str) (c : StoredCookie) :
    (pathOk requestPath c = true ↔ PathMatches requestPath c.path) ↔
      PathExact c.path requestPath := by
  rw [pathOk_iff]
  constructor
  · intro h
    constructor
    · -- trimmed to nothing, the path covers all
      intro hnil
      have hcovers : Covers (trimEndMatches '/' c.path) requestPath := by
        rw [hnil]
        exact Or.inl rfl
      rcases h.1 hcovers with heq | ⟨-, hlast⟩ | ⟨more, hmore⟩
      · exact Or.inl (heq.trans hnil)
      · rw [hnil] at hlast
        cases hlast
      · rw [hnil] at hmore
        exact Or.inr (by rw [← hmore]; rfl)
    · intro _ hcovers
      rcases h.1 hcovers with heq | ⟨hfront, -⟩ | hfront
      · exact heq ▸ List.prefix_rfl
      · exact hfront
      · exact (List.prefix_append _ _).trans hfront
  · intro h
    refine ⟨fun hcovers => ?_, covers_of_matches⟩
    -- trimming changes a path with a slash at its end only
    by_cases hlast : c.path.getLast? = some '/'
    · exact Or.inr (Or.inl ⟨h.slash hlast hcovers, hlast⟩)
    · have hsame : trimEndMatches '/' c.path = c.path := by
        rw [trimEndMatches, List.rdropWhile_eq_self_iff]
        intro hne hslash
        apply hlast
        rw [List.getLast?_eq_some_getLast hne, of_decide_eq_true hslash]
      rw [hsame] at hcovers
      rcases hcovers with hnil | heq | hbelow
      · rcases h.empty hnil with hr | hr
        · exact Or.inl (hr.trans hnil.symm)
        · rw [hnil]
          cases requestPath with
          | nil => cases hr
          | cons d r =>
            obtain rfl : d = '/' := by simpa using hr
            exact Or.inr (Or.inr ⟨r, rfl⟩)
      · exact Or.inl heq
      · exact Or.inr (Or.inr hbelow)

def adminCookie : StoredCookie where
  name := "id".toList
  value := "1".toList
  path := "/admin/".toList
  domain := none
  expiresAt := none
  httpOnly := false
  secure := false
  sameSite := none

/-- A cookie for what is below `/admin/` is sent for `/admin`. -/
theorem slash_cut_off :
    ¬ ∀ requestPath c, pathOk requestPath c = true ↔ PathMatches requestPath c.path := by
  intro h
  rcases (h "/admin".toList adminCookie).1 (by decide) with heq | ⟨hfront, -⟩ | hfront
  · exact absurd heq (by decide)
  · exact absurd hfront (by decide)
  · exact absurd hfront (by decide)

/-! ## Attributes

A cookie before its attributes are read, and the attributes as pairs. -/

def firstCookie (header : Str) : Option StoredCookie :=
  match header.splitOn ';' with
  | [] => none
  | first :: _ =>
    match cutAt '=' first with
    | (_, none) => none
    | (name, some value) =>
      if trim name = [] then none
      else
        some
          { name := trim name
            value := trim value
            path := "/".toList
            domain := none
            expiresAt := none
            httpOnly := false
            secure := false
            sameSite := none }

def attributesOf (header : Str) : List (Str × Str) :=
  (header.splitOn ';').tail.map fun part => readAttribute (trim part)

variable {D : Chrono} {now : UInt64} {header : Str}

def setPair (D : Chrono) (now : UInt64) (c : StoredCookie) (a : Str × Str) : StoredCookie :=
  setAttribute D now c a.1 a.2

theorem parseSetCookie_eq (D : Chrono) (now : UInt64) (header : Str) :
    parseSetCookie D now header =
      (firstCookie header).map ((attributesOf header).foldl (setPair D now)) := by
  rw [parseSetCookie, firstCookie, attributesOf]
  cases header.splitOn ';' with
  | nil => rfl
  | cons first parts =>
    simp only [List.tail_cons, List.foldl_map]
    rcases cutAt '=' first with ⟨name, - | value⟩
    · rfl
    · simp only
      split
      · rfl
      · rfl

/-! What an attribute gives to each field. -/

def pathOf (a : Str × Str) : Option Str :=
  if a.1 = "path".toList ∧ a.2 ≠ [] then some a.2 else none

def domainOf (a : Str × Str) : Option Str :=
  if a.1 = "domain".toList ∧ a.2 ≠ [] then some (trimStartMatches '.' a.2) else none

def maxAgeOf (a : Str × Str) : Option Int := if a.1 = "max-age".toList then parseI64 a.2 else none

def expiresOf (D : Chrono) (a : Str × Str) : Option UInt64 :=
  if a.1 = "expires".toList then parseHttpDate D a.2 else none

/-- A non-positive `Max-Age` is a time that has passed. -/
def maxAgeExpiry (now : UInt64) (secs : Int) : UInt64 :=
  if secs ≤ 0 then 0 else now + UInt64.ofNat secs.toNat

def expiryOf (D : Chrono) (now : UInt64) (a : Str × Str) : Option UInt64 :=
  ((maxAgeOf a).map (maxAgeExpiry now)).or (expiresOf D a)

def sameSiteOf (a : Str × Str) : Option Str :=
  if a.1 = "samesite".toList ∧ (toAsciiLowercase a.2 = "lax".toList ∨
      toAsciiLowercase a.2 = "strict".toList ∨ toAsciiLowercase a.2 = "none".toList) then
    some (toAsciiLowercase a.2)
  else none

def flagOf (name : Str) (a : Str × Str) : Option Bool := if a.1 = name then some true else none

/-- One attribute, field by field. -/
theorem setPair_eq (c : StoredCookie) (a : Str × Str) :
    setPair D now c a =
      { name := c.name
        value := c.value
        path := (pathOf a).getD c.path
        domain := (domainOf a).or c.domain
        expiresAt := (expiryOf D now a).or c.expiresAt
        httpOnly := (flagOf "httponly".toList a).getD c.httpOnly
        secure := (flagOf "secure".toList a).getD c.secure
        sameSite := (sameSiteOf a).or c.sameSite } := by
  rcases a with ⟨key, val⟩
  simp only [setPair, setAttribute, pathOf, domainOf, expiryOf, maxAgeOf, expiresOf, flagOf,
    sameSiteOf]
  have hnames : ["path".toList, "domain".toList, "max-age".toList, "expires".toList,
      "httponly".toList, "secure".toList, "samesite".toList].Nodup := by decide
  -- only that the names differ matters
  generalize "path".toList = path, "domain".toList = domain, "max-age".toList = maxAge,
    "expires".toList = expires, "httponly".toList = httpOnly, "secure".toList = secure,
    "samesite".toList = sameSite at hnames ⊢
  generalize "lax".toList = lax, "strict".toList = strict, "none".toList = unset
  simp only [List.nodup_cons, List.mem_cons, List.not_mem_nil, or_false, not_or,
    not_false_eq_true, List.nodup_nil, and_true] at hnames
  by_cases hpath : key = path
  · subst hpath
    by_cases hval : val = []
    · simp [hnames, hval]
    · simp [hnames, hval]
  by_cases hdomain : key = domain
  · subst hdomain
    by_cases hval : val = []
    · simp [hnames, hpath, hval]
    · simp [hnames, hpath, hval]
  by_cases hmaxAge : key = maxAge
  · subst hmaxAge
    cases hsecs : parseI64 val with
    | none => simp [hnames, hpath, hdomain]
    | some secs => simp [hnames, hpath, hdomain, maxAgeExpiry]
  by_cases hexpires : key = expires
  · subst hexpires
    cases hdate : parseHttpDate D val with
    | none => simp [hnames, hpath, hdomain, hmaxAge]
    | some ts => simp [hnames, hpath, hdomain, hmaxAge]
  by_cases honly : key = httpOnly
  · subst honly
    simp [hnames, hpath, hdomain, hmaxAge, hexpires]
  by_cases hsecure : key = secure
  · subst hsecure
    simp [hnames, hpath, hdomain, hmaxAge, hexpires, honly]
  by_cases hsite : key = sameSite
  · subst hsite
    simp only [hpath, hdomain, hmaxAge, hexpires, honly, hsecure, if_false, if_true, false_and,
      true_and]
    split
    · rfl
    · rfl
  · simp [hpath, hdomain, hmaxAge, hexpires, honly, hsecure, hsite]

/-! ## All attributes -/

section Last

variable {α β : Type} {g : α → Option β}

theorem last_concat (l : List α) (a : α) :
    ((l ++ [a]).filterMap g).getLast? = (g a).or (l.filterMap g).getLast? := by
  rw [List.filterMap_append]
  cases hg : g a with
  | none => simp [hg]
  | some b => simp [hg]

/-- Only the elements that set it matter. -/
theorem filterMap_filter_of {p : α → Bool} (h : ∀ a, p a = false → g a = none) (l : List α) :
    (l.filter p).filterMap g = l.filterMap g := by
  induction l with
  | nil => rfl
  | cons a l ih =>
    cases hp : p a with
    | true => rw [List.filter_cons_of_pos hp, List.filterMap_cons, List.filterMap_cons, ih]
    | false => rw [List.filter_cons_of_neg (by simp [hp]), ih, List.filterMap_cons, h a hp]

end Last

/-- A field that attributes of one name set. -/
def SetBy {β : Type} (name : Str) (g : Str × Str → Option β) : Prop :=
  ∀ a, a.1 ≠ name → g a = none

theorem SetBy.congr {β : Type} {name : Str} {g : Str × Str → Option β} (h : SetBy name g)
    {l l' : List (Str × Str)}
    (hsame : l.filter (fun a => a.1 = name) = l'.filter (fun a => a.1 = name)) :
    l.filterMap g = l'.filterMap g := by
  have hone : ∀ a : Str × Str, decide (a.1 = name) = false → g a = none := by
    intro a ha
    exact h a (of_decide_eq_false ha)
  rw [← filterMap_filter_of hone l, hsame, filterMap_filter_of hone l']

theorem setBy_path : SetBy "path".toList pathOf := fun _ h => if_neg fun hp => h hp.1

theorem setBy_domain : SetBy "domain".toList domainOf := fun _ h => if_neg fun hp => h hp.1

theorem setBy_sameSite : SetBy "samesite".toList sameSiteOf := fun _ h => if_neg fun hp => h hp.1

theorem setBy_flag (name : Str) : SetBy name (flagOf name) := fun _ h => if_neg h

theorem setBy_maxAge : SetBy "max-age".toList maxAgeOf := fun _ h => if_neg h

theorem setBy_expires : SetBy "expires".toList (expiresOf D) := fun _ h => if_neg h

/-- `Max-Age` values and `Expires` times in their order. -/
def maxAges (l : List (Str × Str)) : List Int := l.filterMap maxAgeOf

def expiresTimes (D : Chrono) (l : List (Str × Str)) : List UInt64 := l.filterMap (expiresOf D)

def lastMaxAge (now : UInt64) (l : List (Str × Str)) : Option UInt64 :=
  (maxAges l).getLast?.map (maxAgeExpiry now)

/-- The last of the times is the one of the last `Max-Age` or of the last `Expires`. -/
theorem last_expiryOf (l : List (Str × Str)) :
    (l.filterMap (expiryOf D now)).getLast? = (lastMaxAge now l).or (expiresTimes D l).getLast? ∨
    (l.filterMap (expiryOf D now)).getLast? =
      (expiresTimes D l).getLast?.or (lastMaxAge now l) := by
  induction l using List.reverseRecOn with
  | nil => exact Or.inl rfl
  | append_singleton l a ih =>
    simp only [lastMaxAge, maxAges, expiresTimes, List.filterMap_append] at ih ⊢
    cases hsecs : maxAgeOf a with
    | some secs => exact Or.inl (by simp [expiryOf, hsecs])
    | none =>
      cases hdate : expiresOf D a with
      | some ts => exact Or.inr (by simp [expiryOf, hsecs, hdate])
      | none => simpa [expiryOf, hsecs, hdate] using ih

/-! ## What the standard says -/

/-- The expiry of a cookie with these attributes: `Max-Age` before `Expires`. -/
def standardExpiry (D : Chrono) (now : UInt64) (l : List (Str × Str)) : Option UInt64 :=
  (lastMaxAge now l).or (expiresTimes D l).getLast?

/-- The same pair and the same attributes, those of one name in the same order. -/
def Reordered (header header' : Str) : Prop :=
  (header.splitOn ';').head? = (header'.splitOn ';').head? ∧
    ∀ name, (attributesOf header).filter (fun a => a.1 = name) =
      (attributesOf header').filter (fun a => a.1 = name)

structure Standard (D : Chrono) (now : UInt64) (header : Str) : Prop where
  expiry : ∀ c, parseSetCookie D now header = some c →
    c.expiresAt = standardExpiry D now (attributesOf header)
  deletes : ∀ c, parseSetCookie D now header = some c →
    ∀ secs ∈ (maxAges (attributesOf header)).getLast?, secs ≤ 0 → ∀ t, c.expiredAt t = true
  order : ∀ header', Reordered header header' →
    parseSetCookie D now header' = parseSetCookie D now header

/-- `Max-Age` and `Expires` of a cookie name the same second, when it has both. -/
def ExpiryAgrees (D : Chrono) (now : UInt64) (header : Str) : Prop :=
  (firstCookie header).isSome → ∀ m ∈ lastMaxAge now (attributesOf header),
    ∀ e ∈ (expiresTimes D (attributesOf header)).getLast?, m = e

theorem or_comm_of_agree {β : Type} {a b : Option β} (h : ∀ m ∈ a, ∀ e ∈ b, m = e) :
    a.or b = b.or a := by
  cases a with
  | none => simp
  | some m =>
    cases b with
    | none => rfl
    | some e => exact congrArg some (h m rfl e rfl)

/-- A cookie with attributes, field by field. -/
theorem foldl_setPair (c : StoredCookie) (l : List (Str × Str)) :
    l.foldl (setPair D now) c =
      { name := c.name
        value := c.value
        path := (l.filterMap pathOf).getLast?.getD c.path
        domain := (l.filterMap domainOf).getLast?.or c.domain
        expiresAt := (l.filterMap (expiryOf D now)).getLast?.or c.expiresAt
        httpOnly := (l.filterMap (flagOf "httponly".toList)).getLast?.getD c.httpOnly
        secure := (l.filterMap (flagOf "secure".toList)).getLast?.getD c.secure
        sameSite := (l.filterMap sameSiteOf).getLast?.or c.sameSite } := by
  induction l using List.reverseRecOn with
  | nil => rfl
  | append_singleton l a ih =>
    rw [List.foldl_append, List.foldl_cons, List.foldl_nil, ih, setPair_eq]
    simp only [last_concat, Option.or_assoc, Option.getD_or]

theorem firstCookie_expiry {c : StoredCookie} (h : firstCookie header = some c) :
    c.expiresAt = none := by
  rw [firstCookie] at h
  split at h
  · cases h
  · split at h
    · cases h
    · split at h
      · cases h
      · cases h
        rfl

/-- A parsed cookie expires at the last time its attributes name. -/
theorem parsed_expiry {c : StoredCookie} (h : parseSetCookie D now header = some c) :
    c.expiresAt = ((attributesOf header).filterMap (expiryOf D now)).getLast? := by
  rw [parseSetCookie_eq, Option.map_eq_some_iff] at h
  rcases h with ⟨c₀, hc₀, rfl⟩
  rw [foldl_setPair, firstCookie_expiry hc₀]
  simp

theorem firstCookie_congr {header' : Str}
    (h : (header.splitOn ';').head? = (header'.splitOn ';').head?) :
    firstCookie header' = firstCookie header := by
  rw [firstCookie, firstCookie]
  cases hs : header.splitOn ';' with
  | nil => exact absurd hs (List.splitOn_ne_nil _ _)
  | cons first parts =>
    cases hs' : header'.splitOn ';' with
    | nil => exact absurd hs' (List.splitOn_ne_nil _ _)
    | cons first' parts' =>
      rw [hs, hs'] at h
      obtain rfl : first = first' := by simpa using h
      rfl

/-- With one time to name, every field depends on the attributes of one name only. -/
theorem parse_reordered {header' : Str} (hagrees : ExpiryAgrees D now header)
    (h : Reordered header header') :
    parseSetCookie D now header' = parseSetCookie D now header := by
  rw [parseSetCookie_eq, parseSetCookie_eq, firstCookie_congr h.1]
  cases hc : firstCookie header with
  | none => rfl
  | some c =>
    have hmax : lastMaxAge now (attributesOf header') = lastMaxAge now (attributesOf header) := by
      rw [lastMaxAge, lastMaxAge, maxAges, maxAges, setBy_maxAge.congr (h.2 _)]
    have hdates : expiresTimes D (attributesOf header') = expiresTimes D (attributesOf header) := by
      rw [expiresTimes, expiresTimes, setBy_expires.congr (h.2 _)]
    have hcomm := or_comm_of_agree (hagrees (by simp [hc]))
    have hsame : ((attributesOf header').filterMap (expiryOf D now)).getLast? =
        ((attributesOf header).filterMap (expiryOf D now)).getLast? := by
      have hleft : ((attributesOf header).filterMap (expiryOf D now)).getLast? =
          (lastMaxAge now (attributesOf header)).or
            (expiresTimes D (attributesOf header)).getLast? := by
        rcases last_expiryOf (attributesOf header) with hl | hl
        · exact hl
        · exact hl.trans hcomm.symm
      rw [hleft]
      rcases last_expiryOf (attributesOf header') with hl | hl
      · rw [hl, hmax, hdates]
      · rw [hl, hmax, hdates, hcomm]
    rw [Option.map_some, Option.map_some, foldl_setPair, foldl_setPair, hsame,
      setBy_path.congr (h.2 _), setBy_domain.congr (h.2 _), setBy_sameSite.congr (h.2 _),
      (setBy_flag "httponly".toList).congr (h.2 _), (setBy_flag "secure".toList).congr (h.2 _)]

/-- The same header with the `Expires` attributes at its end. -/
def expiresLast (header : Str) : Str :=
  match header.splitOn ';' with
  | [] => header
  | first :: parts =>
    [';'].intercalate (first ::
      (parts.filter (fun part => (readAttribute (trim part)).1 ≠ "expires".toList) ++
        parts.filter (fun part => (readAttribute (trim part)).1 = "expires".toList)))

theorem splitOn_expiresLast {first : Str} {parts : List Str}
    (h : header.splitOn ';' = first :: parts) :
    (expiresLast header).splitOn ';' = first ::
      (parts.filter (fun part => (readAttribute (trim part)).1 ≠ "expires".toList) ++
        parts.filter (fun part => (readAttribute (trim part)).1 = "expires".toList)) := by
  have hno : ∀ part ∈ first :: parts, ';' ∉ part := by
    intro part hpart
    rw [← h] at hpart
    exact notMem_of_mem_splitOn hpart
  rw [expiresLast, h]
  apply List.splitOn_intercalate
  · intro part hpart
    apply hno
    rcases List.mem_cons.1 hpart with rfl | hpart
    · exact List.mem_cons_self
    · rcases List.mem_append.1 hpart with hpart | hpart
      · exact List.mem_cons_of_mem _ (List.mem_filter.1 hpart).1
      · exact List.mem_cons_of_mem _ (List.mem_filter.1 hpart).1
  · exact List.cons_ne_nil _ _

theorem attributesOf_expiresLast (header : Str) :
    attributesOf (expiresLast header) =
      (attributesOf header).filter (fun a => a.1 ≠ "expires".toList) ++
        (attributesOf header).filter (fun a => a.1 = "expires".toList) := by
  cases hs : header.splitOn ';' with
  | nil => exact absurd hs (List.splitOn_ne_nil _ _)
  | cons first parts =>
    rw [attributesOf, attributesOf, splitOn_expiresLast hs, hs, List.tail_cons, List.tail_cons,
      List.map_append, List.filter_map, List.filter_map]
    rfl

theorem filter_moved {β : Type} (l : List (Str × β)) (key name : Str) :
    (l.filter (fun a => a.1 ≠ key) ++ l.filter (fun a => a.1 = key)).filter (fun a => a.1 = name) =
      l.filter (fun a => a.1 = name) := by
  rw [List.filter_append, List.filter_filter, List.filter_filter]
  by_cases hname : name = key
  · subst hname
    have hnone : l.filter (fun a => decide (a.1 = name) && decide (a.1 ≠ name)) = [] := by
      rw [List.filter_eq_nil_iff]
      intro a _
      simp
    rw [hnone, List.nil_append]
    refine List.filter_congr ?_
    intro a _
    simp
  · have hnone : l.filter (fun a => decide (a.1 = name) && decide (a.1 = key)) = [] := by
      rw [List.filter_eq_nil_iff]
      intro a _ ha
      simp only [Bool.and_eq_true, decide_eq_true_eq] at ha
      exact hname (ha.1.symm.trans ha.2)
    rw [hnone, List.append_nil]
    refine List.filter_congr ?_
    intro a _
    by_cases ha : a.1 = name
    · simp [ha, hname]
    · simp [ha]

theorem reordered_expiresLast (header : Str) : Reordered header (expiresLast header) := by
  constructor
  · cases hs : header.splitOn ';' with
    | nil => exact absurd hs (List.splitOn_ne_nil _ _)
    | cons first parts => rw [splitOn_expiresLast hs, List.head?_cons, List.head?_cons]
  · intro name
    rw [attributesOf_expiresLast, filter_moved]

/-- The last of the times when the `Expires` attributes are at the end. -/
theorem last_expiresLast {ts : UInt64}
    (h : (expiresTimes D (attributesOf header)).getLast? = some ts) :
    ((attributesOf (expiresLast header)).filterMap (expiryOf D now)).getLast? = some ts := by
  have hdates : ((attributesOf header).filter (fun a => a.1 = "expires".toList)).filterMap
      (expiryOf D now) = expiresTimes D (attributesOf header) := by
    have hone : ∀ a : Str × Str, decide (a.1 = "expires".toList) = false → expiresOf D a = none :=
      fun a ha => setBy_expires a (of_decide_eq_false ha)
    rw [expiresTimes, ← filterMap_filter_of hone]
    refine List.filterMap_congr ?_
    intro a ha
    have hname : a.1 = "expires".toList := of_decide_eq_true (List.mem_filter.1 ha).2
    have hmax : maxAgeOf a = none := by
      apply setBy_maxAge
      rw [hname]
      decide
    simp [expiryOf, hmax]
  rw [attributesOf_expiresLast, List.filterMap_append, hdates, List.getLast?_append, h]
  rfl

/-- Expiry and order are the standard's exactly when `Max-Age` and `Expires` agree. -/
theorem max_age_first (D : Chrono) (now : UInt64) (header : Str) :
    Standard D now header ↔ ExpiryAgrees D now header := by
  constructor
  · intro h hsome m hm ts hts
    rcases Option.isSome_iff_exists.1 hsome with ⟨c₀, hc₀⟩
    have hparse := parseSetCookie_eq D now header
    rw [hc₀, Option.map_some] at hparse
    have horder := h.order _ (reordered_expiresLast header)
    rw [hparse] at horder
    have hexpiry := parsed_expiry horder
    rw [last_expiresLast hts, h.expiry _ hparse, standardExpiry] at hexpiry
    rw [Option.mem_def.1 hm] at hexpiry
    exact Option.some.inj hexpiry
  · intro h
    have hexpiry : ∀ c, parseSetCookie D now header = some c →
        c.expiresAt = standardExpiry D now (attributesOf header) := by
      intro c hc
      have hsome : (firstCookie header).isSome := by
        rw [parseSetCookie_eq, Option.map_eq_some_iff] at hc
        rcases hc with ⟨c₀, hc₀, -⟩
        rw [hc₀]
        rfl
      rw [parsed_expiry hc, standardExpiry]
      rcases last_expiryOf (attributesOf header) with hl | hl
      · exact hl
      · exact hl.trans (or_comm_of_agree (h hsome)).symm
    refine ⟨hexpiry, ?_, fun header' hre => parse_reordered h hre⟩
    intro c hc secs hsecs hle t
    have hzero : c.expiresAt = some 0 := by
      rw [hexpiry c hc, standardExpiry, lastMaxAge, Option.mem_def.1 hsecs]
      simp [maxAgeExpiry, hle]
    rw [StoredCookie.expiredAt, hzero]
    simp

/-- A parser that reads every date as the same second. -/
def oneDate : Chrono := ⟨fun _ => some 2000, fun _ _ => none⟩

/-- A cookie that the server deletes by `Max-Age` is kept for a later `Expires`. -/
theorem deleted_cookie_kept : ¬ ∀ D now header, Standard D now header := by
  intro h
  have hparse : parseSetCookie oneDate 1000 "id=1; Max-Age=0; Expires=x".toList =
      some ⟨"id".toList, "1".toList, "/".toList, none, some 2000, false, false, none⟩ := by
    decide
  have hexpiry := (h oneDate 1000 "id=1; Max-Age=0; Expires=x".toList).expiry _ hparse
  exact absurd hexpiry (by decide)

end HomeTier.CookieRules
