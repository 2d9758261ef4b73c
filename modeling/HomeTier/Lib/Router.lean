import HomeTier.Lib.Text

/-! # Routing by path segments

A pattern is a list of segments, each a literal or a parameter that stands for
one non-empty segment. Among the patterns that match a path, a literal is
preferred to a parameter from left to right, with backtracking: `matchRoute`
walks the path with the routes that are still possible, literals first.
-/

namespace HomeTier.Lib

/-- One segment of a route pattern. -/
inductive Seg where
  | lit (s : Str)
  | param
deriving DecidableEq, Repr

/-- `{name}` is a parameter, anything else a literal. -/
def Seg.parse (s : Str) : Seg := if s.head? = some '{' then .param else .lit s

/-- The segments of `/a/{b}/c`; the empty text before the first slash is dropped. -/
def parsePattern (s : Str) : List Seg := ((s.splitOn '/').drop 1).map Seg.parse

def Seg.accepts : Seg → Str → Prop
  | .lit t, s => s = t
  | .param, s => s ≠ []

section Match

variable {β : Type}

/-- The routes that may still match once a segment has been matched by `g`. -/
def advance (g : Seg) (routes : List (List Seg × β)) : List (List Seg × β) :=
  routes.filterMap fun
    | (g' :: rest, b) => if g' = g then some (rest, b) else none
    | ([], _) => none

/-- The entry of the preferred route that matches the segments. -/
def matchRoute : List (List Seg × β) → List Str → Option β
  | routes, [] => (routes.find? fun r => r.1 = []).map fun r => r.2
  | routes, s :: ss =>
    match matchRoute (advance (.lit s) routes) ss with
    | some b => some b
    | none => if s = [] then none else matchRoute (advance .param routes) ss

theorem mem_advance {g : Seg} {routes : List (List Seg × β)} {rest : List Seg} {b : β}
    (h : (rest, b) ∈ advance g routes) : (g :: rest, b) ∈ routes := by
  simp only [advance, List.mem_filterMap] at h
  obtain ⟨⟨pat, b'⟩, hmem, hsome⟩ := h
  cases pat with
  | nil => simp at hsome
  | cons g' rest' =>
    by_cases hg : g' = g
    · simp only [hg, if_true, Option.some.injEq, Prod.mk.injEq] at hsome
      obtain ⟨rfl, rfl⟩ := hsome
      rwa [hg] at hmem
    · simp [hg] at hsome

/-- A matched entry comes from a route whose pattern accepts the path. -/
theorem matchRoute_sound {routes : List (List Seg × β)} {ss : List Str} {b : β}
    (h : matchRoute routes ss = some b) :
    ∃ pat, (pat, b) ∈ routes ∧ List.Forall₂ Seg.accepts pat ss := by
  induction ss generalizing routes with
  | nil =>
    simp only [matchRoute, Option.map_eq_some_iff] at h
    obtain ⟨⟨pat, b'⟩, hfind, rfl⟩ := h
    have hnil : pat = [] := by simpa using List.find?_some hfind
    subst hnil
    exact ⟨[], List.mem_of_find?_eq_some hfind, .nil⟩
  | cons s ss ih =>
    unfold matchRoute at h
    cases hlit : matchRoute (advance (.lit s) routes) ss with
    | some b' =>
      obtain rfl : b' = b := by simpa [hlit] using h
      obtain ⟨pat, hmem, hacc⟩ := ih hlit
      exact ⟨_, mem_advance hmem, .cons rfl hacc⟩
    | none =>
      simp only [hlit] at h
      by_cases hs : s = []
      · simp [hs] at h
      · obtain ⟨pat, hmem, hacc⟩ := ih (by simpa [hs] using h)
        exact ⟨_, mem_advance hmem, .cons hs hacc⟩

end Match

end HomeTier.Lib
