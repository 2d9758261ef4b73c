import HomeTier.Lib.Text

/-! # Lines and words

`str::lines` on texts whose lines are written with a newline behind each,
`str::split_whitespace` and `str::trim_start_matches`.
-/

namespace HomeTier.Lib

/-- A line without the carriage return it ends with. -/
def stripReturn (l : Str) : Str := if l.getLast? = some '\r' then l.dropLast else l

/-- What stands behind the last newline. -/
def lastLine (s : Str) : Str := (s.splitOn '\n').getLastD []

/-- `str::lines`. A carriage return in front of a newline belongs to the line end, and one at the
end of the text does not. -/
def lines (s : Str) : List Str :=
  ((s.splitOn '\n').dropLast.map stripReturn) ++ if lastLine s = [] then [] else [lastLine s]

/-- Lines, with a newline behind each. -/
def unlines (ls : List Str) : Str := ls.flatMap (· ++ ['\n'])

theorem stripReturn_eq_self {l : Str} (h : l.getLast? ≠ some '\r') : stripReturn l = l :=
  if_neg h

theorem mem_of_mem_stripReturn {c : Char} {l : Str} (h : c ∈ stripReturn l) : c ∈ l := by
  unfold stripReturn at h
  split at h
  · exact List.dropLast_subset l h
  · exact h

theorem lastLine_mem (s : Str) : lastLine s ∈ s.splitOn '\n' := by
  rw [lastLine, List.getLastD_eq_getLast?, List.getLast?_eq_some_getLast (List.splitOn_ne_nil _ _)]
  exact List.getLast_mem _

/-- Lines have no newline of their own. -/
theorem newline_notMem_of_mem_lines {s l : Str} (h : l ∈ lines s) : '\n' ∉ l := by
  rcases List.mem_append.1 h with h | h
  · rcases List.mem_map.1 h with ⟨part, hpart, rfl⟩
    exact fun hc => notMem_of_mem_splitOn (List.dropLast_subset _ hpart) (mem_of_mem_stripReturn hc)
  · split at h
    · cases h
    · rw [List.mem_singleton.1 h]
      exact notMem_of_mem_splitOn (lastLine_mem s)

@[simp] theorem lines_nil : lines [] = [] := rfl

theorem lastLine_append (a b : Str) : lastLine (a ++ '\n' :: b) = lastLine b := by
  have hsplit : (a ++ '\n' :: b).splitOn '\n' = a.splitOn '\n' ++ b.splitOn '\n' :=
    List.splitOn_append_cons_self a b
  rw [lastLine, lastLine, hsplit, List.getLastD_eq_getLast?, List.getLastD_eq_getLast?,
    List.getLast?_append_of_ne_nil _ (List.splitOn_ne_nil _ _)]

theorem lines_append (a b : Str) :
    lines (a ++ '\n' :: b) = (a.splitOn '\n').map stripReturn ++ lines b := by
  have hsplit : (a ++ '\n' :: b).splitOn '\n' = a.splitOn '\n' ++ b.splitOn '\n' :=
    List.splitOn_append_cons_self a b
  rw [lines, lines, lastLine_append, hsplit,
    List.dropLast_append_of_ne_nil (List.splitOn_ne_nil _ _), List.map_append, List.append_assoc]

/-- A text on one line is that line. -/
theorem lines_of_notMem {l : Str} (hne : l ≠ []) (h : '\n' ∉ l) : lines l = [l] := by
  have hlast : lastLine l = l := by
    rw [lastLine, List.splitOn_eq_singleton h]
    rfl
  rw [lines, hlast, if_neg hne, List.splitOn_eq_singleton h]
  rfl

/-- What is written as a line is read as the lines it has. -/
theorem lines_unlines_append (ls : List Str) (s : Str) :
    lines (unlines ls ++ s) =
      (ls.flatMap fun l => (l.splitOn '\n').map stripReturn) ++ lines s := by
  induction ls with
  | nil => rfl
  | cons l ls ih =>
    have hcons : unlines (l :: ls) ++ s = l ++ '\n' :: (unlines ls ++ s) := by simp [unlines]
    rw [hcons, lines_append, ih, List.flatMap_cons, List.append_assoc]

theorem lines_unlines (ls : List Str) :
    lines (unlines ls) = ls.flatMap fun l => (l.splitOn '\n').map stripReturn := by
  have h := lines_unlines_append ls []
  rwa [List.append_nil, lines_nil, List.append_nil] at h

/-- Lines without line breaks of their own are read back. -/
theorem lines_unlines_of_clean {ls : List Str} (hnewline : ∀ l ∈ ls, '\n' ∉ l)
    (hreturn : ∀ l ∈ ls, l.getLast? ≠ some '\r') : lines (unlines ls) = ls := by
  rw [lines_unlines]
  induction ls with
  | nil => rfl
  | cons l ls ih =>
    rw [List.forall_mem_cons] at hnewline hreturn
    rw [List.flatMap_cons, ih hnewline.2 hreturn.2, List.splitOn_eq_singleton hnewline.1,
      List.map_singleton, stripReturn_eq_self hreturn.1, List.singleton_append]

/-! ## Words -/

/-- `str::split_whitespace` -/
def splitWhitespace (s : Str) : List Str := (s.splitOnP isWhitespace).filter (· ≠ [])

/-- A word in front of a blank. -/
theorem splitWhitespace_append {w : Str} (hne : w ≠ []) (hw : ∀ c ∈ w, isWhitespace c = false)
    (s : Str) : splitWhitespace (w ++ ' ' :: s) = w :: splitWhitespace s := by
  have hsplit : (w ++ ' ' :: s).splitOnP isWhitespace = w :: s.splitOnP isWhitespace := by
    rw [List.splitOnP_append_cons _ _ (by decide), List.splitOnP_eq_singleton hw,
      List.singleton_append]
  rw [splitWhitespace, hsplit, List.filter_cons_of_pos (by simpa using hne), splitWhitespace]

/-- Drop a text from the front, up to `n` times. -/
def dropPrefixes (pat : Str) : Nat → Str → Str
  | 0, s => s
  | n + 1, s => if pat <+: s then dropPrefixes pat n (s.drop pat.length) else s

/-- `str::trim_start_matches` with a text that is not empty. -/
def trimStartText (pat s : Str) : Str := dropPrefixes pat s.length s

theorem dropPrefixes_of_not_prefix {pat s : Str} (h : ¬ pat <+: s) (n : Nat) :
    dropPrefixes pat n s = s := by
  cases n with
  | zero => rfl
  | succ n => rw [dropPrefixes, if_neg h]

theorem trimStartText_append {c : Char} {pat s : Str} (h : ¬ c :: pat <+: s) :
    trimStartText (c :: pat) (c :: pat ++ s) = s := by
  have hpre : c :: pat <+: c :: pat ++ s := ⟨s, rfl⟩
  have hlen : (c :: pat ++ s).length = (pat ++ s).length + 1 := rfl
  rw [trimStartText, hlen, dropPrefixes, if_pos hpre, List.drop_left,
    dropPrefixes_of_not_prefix h]

end HomeTier.Lib
