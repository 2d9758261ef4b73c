import Mathlib.Data.List.Sort
import HomeTier.Lib.Decimal

/-! # The order of versions

`compare_versions` and `check_app_update` of `src/commands/update_app.rs`, and
`fetch_available_versions` of `src/easytier/github.rs`. Both cut a version at its points
and read the pieces as numbers; the first takes 0 for a piece that it cannot read, and the
second leaves it out.

* A number is read as itself below a bound, and a piece with a tag in it not at all, so a
  pair is ordered as its precedence says if the first number in which the two differ is
  small and has no tag (`order_of_follows`), and else only by luck.
* If all pairs of some versions are so, the two functions order them right, and so report
  and list them right (`versions_ordered`).
-/

namespace HomeTier.Versions

open Lib

/-! ## Versions -/

def isIdentChar (c : Char) : Bool := c.isAlphanum || c == '-'

/-- An identifier of a tag. -/
inductive Ident where
  | num (n : Nat)
  | name (s : Str) (plain : s.all isIdentChar = true) (named : s.all Char.isDigit = false)

/-- A version, with the number of `v` in front of it. -/
structure Version where
  leading : Nat
  major : Nat
  minor : Nat
  patch : Nat
  pre : List Ident
  build : List Str
  build_plain : ∀ s ∈ build, s ≠ [] ∧ s.all isIdentChar = true

def Ident.text : Ident → Str
  | .num n => decimal n
  | .name s _ _ => s

def Ident.cmp : Ident → Ident → Ordering
  | .num m, .num n => compare m n
  | .num _, .name _ _ _ => .lt
  | .name _ _ _, .num _ => .gt
  | .name s _ _, .name t _ _ => compare s t

/-- A version without a tag is above those with one. -/
def cmpTag : List Ident → List Ident → Ordering
  | [], [] => .eq
  | [], _ :: _ => .gt
  | _ :: _, [] => .lt
  | ids, ids' => ids.compareLex Ident.cmp ids'

namespace Version

variable (v : Version)

/-- The tag and what is said of the build. -/
def suffix : Str :=
  (if v.pre.isEmpty then [] else '-' :: ['.'].intercalate (v.pre.map Ident.text)) ++
    if v.build.isEmpty then [] else '+' :: ['.'].intercalate v.build

def bare : Str :=
  decimal v.major ++ '.' :: (decimal v.minor ++ '.' :: (decimal v.patch ++ v.suffix))

def text : Str := List.replicate v.leading 'v' ++ v.bare

/-- Nothing follows the numbers. -/
def isPlain : Bool := v.pre.isEmpty && v.build.isEmpty

/-- The precedence of versions. -/
def cmp (a b : Version) : Ordering :=
  (compare a.major b.major).then ((compare a.minor b.minor).then
    ((compare a.patch b.patch).then (cmpTag a.pre b.pre)))

def pieces : List Str := v.bare.splitOn '.'

end Version

/-! ## The code -/

/-- `trim_start_matches('v')` -/
def trimV (s : Str) : Str := s.dropWhile (· = 'v')

/-- A piece that is no `i32` counts as 0. -/
def i32Piece (s : Str) : Int := (parseSigned (2 ^ 31) s).getD 0

/-- The loop of `compare_versions` over the indices. -/
def compareAt (pa pb : List Int) : List Nat → Int
  | [] => 0
  | i :: rest =>
    let na := pa.getD i 0
    let nb := pb.getD i 0
    if na > nb then 1
    else if na < nb then -1
    else compareAt pa pb rest

def compareVersions (a b : Str) : Int :=
  let pa := ((trimV a).splitOn '.').map i32Piece
  let pb := ((trimV b).splitOn '.').map i32Piece
  compareAt pa pb (List.range (max pa.length pb.length))

structure CheckAppUpdate where
  current : Str
  latest : Option Str
  hasUpdate : Bool

/-- `check_app_update`; `tag` is the one of the latest release, if it can be fetched. -/
def checkAppUpdate (current : Str) (tag : Option Str) : CheckAppUpdate :=
  match tag with
  | none => ⟨current, none, false⟩
  | some tag =>
    let latest := trimV tag
    ⟨current, some latest, compareVersions latest current > 0⟩

/-- Pieces that are no `u32` are left out. -/
def u32Pieces (pieces : List Str) : List Nat := pieces.filterMap (parseUnsigned (2 ^ 32))

/-- The comparison that `fetch_available_versions` sorts by. -/
def listOrder (a b : Str) : Ordering :=
  let aParts := u32Pieces (a.splitOn '.')
  let bParts := u32Pieces (b.splitOn '.')
  match (aParts.zip bParts).find? fun p => p.1 ≠ p.2 with
  | some (x, y) => compare y x
  | none => (compare aParts.length bParts.length).swap

/-- `fetch_available_versions`, of the tags of the releases. -/
def fetchAvailableVersions (tags : List Str) : List Str :=
  ((tags.filter (·.head? = some 'v')).map trimV).insertionSort fun a b => listOrder a b ≠ .gt

/-! ## What is expected -/

/-- A comparison as the code returns it. -/
def signOf : Ordering → Int
  | .lt => -1
  | .eq => 0
  | .gt => 1

/-- Of some versions. -/
structure Ordered (vs : List Version) : Prop where
  compares : ∀ a ∈ vs, ∀ b ∈ vs, compareVersions a.text b.text = signOf (a.cmp b)
  updates : ∀ a ∈ vs, ∀ b ∈ vs,
    ((checkAppUpdate b.bare (some a.text)).hasUpdate = true ↔ a.cmp b = .gt)
  lists : ∀ released : List Version, (∀ v ∈ released, v ∈ vs) →
    ∃ listed : List Version, listed.Perm (released.filter (0 < ·.leading)) ∧
      fetchAvailableVersions (released.map Version.text) = listed.map Version.bare ∧
      listed.Pairwise fun a b => a.cmp b ≠ .lt
  agree : ∀ a ∈ vs, ∀ b ∈ vs, compareVersions a.text b.text = signOf (listOrder b.bare a.bare)

/-- The order of the pieces, as `compare_versions` reads them. -/
def i32Order : List Int → List Int → Ordering
  | [], [] => .eq
  | x :: xs, [] => (compare x 0).then (i32Order xs [])
  | [], y :: ys => (compare 0 y).then (i32Order [] ys)
  | x :: xs, y :: ys => (compare x y).then (i32Order xs ys)

def compareOrder (s t : List Str) : Ordering := i32Order (s.map i32Piece) (t.map i32Piece)

/-- And as the list does, the other way round. -/
def fetchOrder (s t : List Str) : Ordering := compare (u32Pieces s) (u32Pieces t)

/-- The first number in which two versions differ is below the bound in both, and no tag
follows it; if there is none, the same follows the numbers. -/
def Follows (bound : Nat) (a b : Version) : Prop :=
  if a.major ≠ b.major then a.major < bound ∧ b.major < bound
  else if a.minor ≠ b.minor then a.minor < bound ∧ b.minor < bound
  else if a.patch ≠ b.patch then
    (a.isPlain = true ∧ b.isPlain = true) ∧ a.patch < bound ∧ b.patch < bound
  else a.pre = b.pre ∧ a.build = b.build

/-! ## Pieces -/

namespace Version

theorem trimV_text (v : Version) : trimV v.text = v.bare := by
  have hhead : v.bare.dropWhile (· = 'v') = v.bare := by
    rw [List.dropWhile_eq_self_iff]
    intro hlen
    obtain ⟨c, rest, hdigits⟩ := List.exists_cons_of_ne_nil (decimal_ne_nil v.major)
    have hdigit : c.isDigit = true := isDigit_of_mem_decimal (n := v.major) (by simp [hdigits])
    have hne : c ≠ 'v' := by
      rintro rfl
      exact absurd hdigit (by decide)
    simp [bare, hdigits, hne]
  have hfront : ∀ n, trimV (List.replicate n 'v' ++ v.bare) = v.bare := by
    intro n
    induction n with
    | zero => exact hhead
    | succ n ih =>
      rw [List.replicate_succ, List.cons_append, trimV]
      simpa [trimV] using ih
  exact hfront v.leading

theorem trimV_bare (v : Version) : trimV v.bare = v.bare :=
  trimV_text { v with leading := 0 }

theorem head_text (v : Version) : v.text.head? = some 'v' ↔ 0 < v.leading := by
  cases hleading : v.leading with
  | zero =>
    have hnot := v.trimV_bare
    simp only [text, hleading, List.replicate_zero, List.nil_append, lt_irrefl, iff_false]
    intro hhead
    obtain ⟨rest, hbare⟩ := List.head?_eq_some_iff.1 hhead
    have hshort : (trimV ('v' :: rest)).length ≤ rest.length := by
      have hdrop : trimV ('v' :: rest) = trimV rest := rfl
      rw [hdrop]
      exact (List.dropWhile_suffix _).length_le
    rw [← hbare, hnot, hbare, List.length_cons] at hshort
    omega
  | succ n => simp [text, hleading, List.replicate_succ]

/-- The pieces behind the minor number. -/
def rest (v : Version) : List Str := (decimal v.patch ++ v.suffix).splitOn '.'

theorem pieces_eq (v : Version) : v.pieces = decimal v.major :: decimal v.minor :: v.rest := by
  have hpoint : ∀ n, '.' ∉ decimal n := by
    intro n hmem
    exact absurd (isDigit_of_mem_decimal hmem) (by decide)
  rw [pieces, bare, List.splitOn_append_cons_self_of_not_mem (hpoint _),
    List.splitOn_append_cons_self_of_not_mem (hpoint _), rest]

theorem rest_of_plain {v : Version} (h : v.isPlain = true) : v.rest = [decimal v.patch] := by
  obtain ⟨hpre, hbuild⟩ := Bool.and_eq_true_iff.1 h
  have hpoint : '.' ∉ decimal v.patch := by
    intro hmem
    exact absurd (isDigit_of_mem_decimal hmem) (by decide)
  rw [rest, suffix, if_pos hpre, if_pos hbuild, List.append_nil, List.append_nil,
    List.splitOn_eq_singleton hpoint]

end Version

/-! ## Orders of pieces -/

/-- Pieces are ordered by the first in which they differ, and numbers below the bound are
read. -/
structure PieceOrder (bound : Nat) (order : List Str → List Str → Ordering) : Prop where
  nil : order [] [] = .eq
  same : ∀ x s t, order (x :: s) (x :: t) = order s t
  number : ∀ m n s t, m < bound → n < bound → m ≠ n →
    order (decimal m :: s) (decimal n :: t) = compare m n

theorem PieceOrder.self {bound : Nat} {order : List Str → List Str → Ordering}
    (h : PieceOrder bound order) (s : List Str) : order s s = .eq := by
  induction s with
  | nil => exact h.nil
  | cons x s ih => rw [h.same, ih]

theorem compare_then_of_ne {m n : Nat} (h : m ≠ n) (o : Ordering) :
    (compare m n).then o = compare m n := by
  rcases Nat.lt_or_gt_of_ne h with hlt | hgt
  · rw [Nat.compare_eq_lt.2 hlt]
    rfl
  · rw [Nat.compare_eq_gt.2 hgt]
    rfl

instance : Std.ReflCmp Ident.cmp where
  compare_self {i} := by
    cases i with
    | num n => exact Nat.compare_eq_eq.2 rfl
    | name s => exact Std.ReflOrd.compare_self

theorem cmpTag_self (ids : List Ident) : cmpTag ids ids = .eq := by
  cases ids with
  | nil => rfl
  | cons i ids =>
    show List.compareLex Ident.cmp (i :: ids) (i :: ids) = .eq
    exact Std.ReflCmp.compare_self

/-- The pieces of two versions are in the right order if they follow the versions. -/
theorem order_of_follows {bound small : Nat} {order : List Str → List Str → Ordering}
    (h : PieceOrder bound order) (hbound : small ≤ bound) {a b : Version}
    (hfollows : Follows small a b) : order a.pieces b.pieces = a.cmp b := by
  unfold Follows at hfollows
  unfold Version.cmp
  rw [a.pieces_eq, b.pieces_eq]
  by_cases hmajor : a.major = b.major
  · rw [if_neg (not_not.2 hmajor)] at hfollows
    rw [hmajor, h.same, Nat.compare_eq_eq.2 rfl, Ordering.eq_then]
    by_cases hminor : a.minor = b.minor
    · rw [if_neg (not_not.2 hminor)] at hfollows
      rw [hminor, h.same, Nat.compare_eq_eq.2 rfl, Ordering.eq_then]
      by_cases hpatch : a.patch = b.patch
      · -- the versions are the same, but for the `v` in front
        rw [if_neg (not_not.2 hpatch)] at hfollows
        have hrest : a.rest = b.rest := by
          rw [Version.rest, Version.rest, Version.suffix, Version.suffix, hpatch, hfollows.1,
            hfollows.2]
        rw [hrest, h.self, hpatch, Nat.compare_eq_eq.2 rfl, Ordering.eq_then, hfollows.1,
          cmpTag_self]
      · rw [if_pos hpatch] at hfollows
        obtain ⟨⟨ha, hb⟩, hsmall, hsmall'⟩ := hfollows
        rw [compare_then_of_ne hpatch, Version.rest_of_plain ha, Version.rest_of_plain hb]
        exact h.number _ _ _ _ (by omega) (by omega) hpatch
    · rw [if_pos hminor] at hfollows
      rw [compare_then_of_ne hminor]
      exact h.number _ _ _ _ (by omega) (by omega) hminor
  · rw [if_pos hmajor] at hfollows
    rw [compare_then_of_ne hmajor]
    exact h.number _ _ _ _ (by omega) (by omega) hmajor

/-! ### Of `compare_versions` -/

theorem i32Piece_decimal {n : Nat} (h : n < 2 ^ 31) : i32Piece (decimal n) = n := by
  rw [i32Piece, parseSigned_of_parseUnsigned (parseUnsigned_decimal h), if_pos h]
  rfl

theorem pieceOrder_compareOrder : PieceOrder (2 ^ 31) compareOrder where
  nil := by simp [compareOrder, i32Order]
  same := by
    intro x s t
    simp [compareOrder, i32Order]
  number := by
    intro m n s t hm hn hne
    have hcast : compare (m : Int) (n : Int) = compare m n := by
      rcases Nat.lt_or_gt_of_ne hne with hlt | hgt
      · rw [Nat.compare_eq_lt.2 hlt, Int.compare_eq_lt.2 (by omega)]
      · rw [Nat.compare_eq_gt.2 hgt, Int.compare_eq_gt.2 (by omega)]
    simp only [compareOrder, List.map_cons, i32Piece_decimal hm, i32Piece_decimal hn, i32Order, hcast]
    exact compare_then_of_ne hne _

/-- From the second index on the loop is over the rest of the lists. -/
theorem compareAt_map_succ (pa pb : List Int) (is : List Nat) :
    compareAt pa pb (is.map (· + 1)) = compareAt pa.tail pb.tail is := by
  have hget : ∀ (p : List Int) (i : Nat), p.getD (i + 1) 0 = p.tail.getD i 0 := by
    intro p i
    cases p <;> simp
  induction is with
  | nil => rfl
  | cons i is ih => simp only [List.map_cons, compareAt, hget, ih]

theorem compareAt_range_succ (pa pb : List Int) (n : Nat) :
    compareAt pa pb (List.range (n + 1)) = match compare (pa.getD 0 0) (pb.getD 0 0) with
      | .gt => 1
      | .lt => -1
      | .eq => compareAt pa.tail pb.tail (List.range n) := by
  rw [List.range_succ_eq_map, ← compareAt_map_succ]
  show (if _ then _ else _) = _
  rcases Int.lt_trichotomy (pa.getD 0 0) (pb.getD 0 0) with hlt | heq | hgt
  · rw [Int.compare_eq_lt.2 hlt, if_neg (by omega), if_pos hlt]
  · rw [Int.compare_eq_eq.2 heq, if_neg (by omega), if_neg (by omega)]
  · rw [Int.compare_eq_gt.2 hgt, if_pos hgt]

theorem signOf_then (o o' : Ordering) : signOf (o.then o') =
    match o with
    | .gt => 1
    | .lt => -1
    | .eq => signOf o' := by
  cases o <;> rfl

theorem compareAt_eq (pa pb : List Int) :
    compareAt pa pb (List.range (max pa.length pb.length)) = signOf (i32Order pa pb) := by
  fun_induction i32Order pa pb with
  | case1 => rfl
  | case2 x xs ih =>
    rw [signOf_then, ← ih]
    simpa using compareAt_range_succ (x :: xs) [] xs.length
  | case3 y ys ih =>
    rw [signOf_then, ← ih]
    simpa using compareAt_range_succ [] (y :: ys) ys.length
  | case4 x xs y ys ih =>
    rw [signOf_then, ← ih, List.length_cons, List.length_cons, Nat.succ_max_succ]
    exact compareAt_range_succ _ _ _

theorem compareVersions_eq (a b : Version) :
    compareVersions a.text b.text = signOf (compareOrder a.pieces b.pieces) := by
  rw [compareVersions, a.trimV_text, b.trimV_text]
  exact compareAt_eq _ _

/-! ### Of the list -/

theorem u32Pieces_decimal {n : Nat} (h : n < 2 ^ 32) (s : List Str) :
    u32Pieces (decimal n :: s) = n :: u32Pieces s := by
  rw [u32Pieces, List.filterMap_cons, parseUnsigned_decimal h]
  rfl

theorem pieceOrder_fetchOrder : PieceOrder (2 ^ 32) fetchOrder where
  nil := rfl
  same := by
    intro x s t
    unfold fetchOrder u32Pieces
    cases hread : parseUnsigned (2 ^ 32) x with
    | none => rw [List.filterMap_cons_none hread, List.filterMap_cons_none hread]
    | some n =>
      rw [List.filterMap_cons_some hread, List.filterMap_cons_some hread, List.compare_cons_cons,
        Nat.compare_eq_eq.2 rfl, Ordering.eq_then]
  number := by
    intro m n s t hm hn hne
    rw [fetchOrder, u32Pieces_decimal hm, u32Pieces_decimal hn, List.compare_cons_cons]
    exact compare_then_of_ne hne _

/-- The first pieces that differ decide, and if there are none the longer list is first. -/
theorem find_zip_eq (as bs : List Nat) :
    (match (as.zip bs).find? fun p => decide (p.1 ≠ p.2) with
      | some (x, y) => compare y x
      | none => (compare as.length bs.length).swap) = compare bs as := by
  induction as generalizing bs with
  | nil =>
    cases bs with
    | nil => rfl
    | cons b bs => simp [Nat.compare_eq_lt.2]
  | cons a as ih =>
    cases bs with
    | nil => simp [Nat.compare_eq_gt.2]
    | cons b bs =>
      rw [List.zip_cons_cons, List.compare_cons_cons]
      by_cases hab : a = b
      · have hlengths : compare (as.length + 1) (bs.length + 1) = compare as.length bs.length := by
          simp only [Nat.compare_eq_ite_lt, Nat.add_lt_add_iff_right]
        rw [List.find?_cons_of_neg (by simp [hab]), hab, Nat.compare_eq_eq.2 rfl, Ordering.eq_then,
          ← ih bs, List.length_cons, List.length_cons, hlengths]
      · rw [List.find?_cons_of_pos (by simp [hab]), compare_then_of_ne (Ne.symm hab)]

theorem listOrder_eq (a b : Version) : listOrder a.bare b.bare = fetchOrder b.pieces a.pieces :=
  find_zip_eq _ _

/-- What the list is sorted by. -/
def Before (a b : Version) : Prop := listOrder a.bare b.bare ≠ .gt

instance : DecidableRel Before := fun _ _ => inferInstanceAs (Decidable (_ ≠ _))

theorem before_iff {a b : Version} :
    Before a b ↔ (compare (u32Pieces b.pieces) (u32Pieces a.pieces)).isLE = true := by
  rw [Before, listOrder_eq, fetchOrder, Ordering.isLE_iff_ne_gt]

/-- It is the order of lists the other way round. -/
instance : IsTrans Version Before where
  trans := by
    intro a b c hab hbc
    rw [before_iff] at *
    exact Std.TransOrd.isLE_trans hbc hab

instance : Std.Total Before where
  total := by
    intro a b
    rw [before_iff, before_iff, Std.OrientedOrd.eq_swap (a := u32Pieces b.pieces)]
    cases compare (u32Pieces a.pieces) (u32Pieces b.pieces)
    · exact .inr rfl
    · exact .inl rfl
    · exact .inl rfl

/-! ## All pairs -/

/-- No version in the list is older than one behind it, when all pairs are in order. -/
theorem lists_descending {vs : List Version}
    (hright : ∀ a ∈ vs, ∀ b ∈ vs, fetchOrder a.pieces b.pieces = a.cmp b)
    (released : List Version) (hmem : ∀ v ∈ released, v ∈ vs) :
    ∃ listed : List Version, listed.Perm (released.filter (0 < ·.leading)) ∧
      fetchAvailableVersions (released.map Version.text) = listed.map Version.bare ∧
      listed.Pairwise fun a b => a.cmp b ≠ .lt := by
  have hperm := List.perm_insertionSort Before (released.filter (0 < ·.leading))
  have hsub : ∀ v ∈ (released.filter (0 < ·.leading)).insertionSort Before, v ∈ vs := by
    intro v hv
    exact hmem v (List.mem_filter.1 (hperm.subset hv)).1
  refine ⟨(released.filter (0 < ·.leading)).insertionSort Before, hperm, ?_, ?_⟩
  · have htags : (released.map Version.text).filter (·.head? = some 'v') =
        (released.filter (0 < ·.leading)).map Version.text := by
      rw [List.filter_map]
      congr 2
      funext v
      simp only [Function.comp_apply, Version.head_text]
    have hbare : trimV ∘ Version.text = Version.bare := by
      funext v
      exact v.trimV_text
    rw [fetchAvailableVersions, htags, List.map_map, hbare]
    exact (List.map_insertionSort Before _ Version.bare _ (fun _ _ _ _ => Iff.rfl)).symm
  · refine (List.pairwise_insertionSort Before _).imp_of_mem ?_
    intro a b ha hb hab
    rw [← hright a (hsub a ha) b (hsub b hb), fetchOrder, Std.OrientedOrd.eq_swap]
    rw [before_iff, Ordering.isLE_iff_ne_gt] at hab
    intro hlt
    exact hab (Ordering.swap_eq_lt.1 hlt)

/-- Versions are ordered right by both functions if in each pair what differs first is read. -/
theorem versions_ordered (vs : List Version)
    (h : ∀ a ∈ vs, ∀ b ∈ vs, Follows (2 ^ 31) a b) : Ordered vs := by
  have hcompare : ∀ a ∈ vs, ∀ b ∈ vs, compareOrder a.pieces b.pieces = a.cmp b :=
    fun a ha b hb => order_of_follows pieceOrder_compareOrder le_rfl (h a ha b hb)
  have hfetch : ∀ a ∈ vs, ∀ b ∈ vs, fetchOrder a.pieces b.pieces = a.cmp b :=
    fun a ha b hb => order_of_follows pieceOrder_fetchOrder (by decide) (h a ha b hb)
  have hcompares : ∀ a ∈ vs, ∀ b ∈ vs, compareVersions a.text b.text = signOf (a.cmp b) := by
    intro a ha b hb
    rw [compareVersions_eq, hcompare a ha b hb]
  refine ⟨hcompares, ?_, lists_descending hfetch, ?_⟩
  · intro a ha b hb
    have hbare : compareVersions a.bare b.bare = compareVersions a.text b.text := by
      simp only [compareVersions, Version.trimV_text, Version.trimV_bare]
    have hupdate : (checkAppUpdate b.bare (some a.text)).hasUpdate =
        decide (signOf (a.cmp b) > 0) := by
      rw [← hcompares a ha b hb, ← hbare]
      show decide (compareVersions (trimV a.text) b.bare > 0) = _
      rw [a.trimV_text]
    rw [hupdate, decide_eq_true_eq]
    cases a.cmp b <;> decide
  · intro a ha b hb
    rw [hcompares a ha b hb, listOrder_eq, hfetch a ha b hb]

/-- A version without tag. -/
def plainVersion (major minor patch : Nat) : Version where
  leading := 1
  major := major
  minor := minor
  patch := patch
  pre := []
  build := []
  build_plain := by simp

/-- A candidate with a number of its own, and three releases. -/
def releases : List Version :=
  [ { plainVersion 0 9 0 with pre := [.name "rc".toList (by decide) (by decide), .num 1] },
    plainVersion 1 2 0, plainVersion 1 10 0, plainVersion 1 10 3 ]

theorem releases_ordered : Ordered releases :=
  versions_ordered releases (by
    intro a ha b hb
    simp only [releases, List.mem_cons, List.not_mem_nil, or_false] at ha hb
    rcases ha with rfl | rfl | rfl | rfl <;> rcases hb with rfl | rfl | rfl | rfl <;>
      simp [Follows, plainVersion, Version.isPlain])

/-- A release and the one that is to try it out. -/
def release (pre : List Ident) : Version := { plainVersion 1 0 0 with pre := pre }

/-- The candidate `1.0.0-rc.1` is taken for newer than its release. -/
theorem candidate_above_release : ¬ ∀ vs : List Version, Ordered vs := by
  intro hall
  let candidate := release [.name "rc".toList (by decide) (by decide), .num 1]
  have hcompare := (hall [candidate, release []]).compares candidate (by simp) (release []) (by simp)
  revert hcompare
  decide

end HomeTier.Versions
