import HomeTier.Lib.Table
import HomeTier.Lib.Text

/-! # A disk

Files are named by resolved paths, lists of components without `.` and `..`.
`join` is `PathBuf::join` followed by the resolution the kernel applies when
the path is opened: an absolute argument replaces the base, `..` goes up.
-/

namespace HomeTier.Lib

/-- A resolved path. -/
abbrev Path := List Str

/-- The contents of the files that exist. -/
abbrev Disk := Path → Option Bytes

/-- Walk the components of a relative path from `base`. -/
def resolve (base : Path) : List Str → Path
  | [] => base
  | c :: cs =>
    if c = [] ∨ c = ".".toList then resolve base cs
    else if c = "..".toList then resolve base.dropLast cs
    else resolve (base ++ [c]) cs

/-- `base.join(s)`, resolved. -/
def join (base : Path) (s : Str) : Path :=
  resolve (if s.head? = some '/' then [] else base) (s.splitOn '/')

/-- `std::fs::write`: create or replace the file. -/
def Disk.write (d : Disk) (p : Path) (content : Bytes) : Disk :=
  Function.update d p (some content)

/-- `OpenOptions::create(true).write(true).open`: create the file when it is
absent, leave its content alone otherwise. -/
def Disk.touch (d : Disk) (p : Path) : Disk :=
  Function.update d p (some ((d p).getD []))

/-- `std::fs::rename`, of a file that exists. -/
def Disk.rename (d : Disk) (p q : Path) : Disk :=
  Function.update (Function.update d p none) q (d p)

/-- `std::fs::remove_file` -/
def Disk.remove (d : Disk) (p : Path) : Disk := Function.update d p none

/-- `std::fs::remove_dir_all` -/
def Disk.removeDir (d : Disk) (dir : Path) : Disk := fun p => if dir <+: p then none else d p

@[simp] theorem Disk.write_self (d : Disk) (p : Path) (c : Bytes) : d.write p c p = some c := by
  simp [Disk.write]

@[simp] theorem Disk.write_ne (d : Disk) {p q : Path} (c : Bytes) (h : q ≠ p) :
    d.write p c q = d q := by
  simp [Disk.write, h]

@[simp] theorem Disk.touch_ne (d : Disk) {p q : Path} (h : q ≠ p) : d.touch p q = d q := by
  simp [Disk.touch, h]

@[simp] theorem Disk.rename_target (d : Disk) (p q : Path) : d.rename p q q = d p := by
  simp [Disk.rename]

@[simp] theorem Disk.rename_ne (d : Disk) {p q r : Path} (hp : r ≠ p) (hq : r ≠ q) :
    d.rename p q r = d r := by
  simp [Disk.rename, hp, hq]

theorem Disk.rename_source (d : Disk) {p q : Path} (h : p ≠ q) : d.rename p q p = none := by
  simp [Disk.rename, h]

@[simp] theorem Disk.remove_self (d : Disk) (p : Path) : d.remove p p = none := by
  simp [Disk.remove]

@[simp] theorem Disk.remove_ne (d : Disk) {p q : Path} (h : q ≠ p) : d.remove p q = d q := by
  simp [Disk.remove, h]

/-! ## Several files -/

/-- Leave each file as given, one after the other. -/
def Disk.apply (d : Disk) (effects : List (Path × Option Bytes)) : Disk :=
  effects.foldl (fun d e => Function.update d e.1 e.2) d

theorem Disk.apply_of_notMem (d : Disk) {effects : List (Path × Option Bytes)} {p : Path}
    (h : p ∉ effects.map (·.1)) : d.apply effects p = d p := by
  induction effects generalizing d with
  | nil => rfl
  | cons e effects ih =>
    rw [List.map_cons, List.mem_cons, not_or] at h
    show Disk.apply (Function.update d e.1 e.2) effects p = d p
    rw [ih _ h.2, Function.update_of_ne h.1]

/-- The last effect on a file stays. -/
theorem Disk.apply_lastOf (d : Disk) {effects : List (Path × Option Bytes)}
    {e : Path × Option Bytes} (h : LastOf (·.1) e effects) : d.apply effects e.1 = e.2 := by
  rcases h with ⟨before, after, rfl, hafter⟩
  have hnotMem : e.1 ∉ after.map (·.1) := by
    intro hmem
    rcases List.mem_map.1 hmem with ⟨y, hy, heq⟩
    exact hafter y hy heq
  rw [Disk.apply, List.foldl_append, List.foldl_cons]
  show Disk.apply _ after e.1 = e.2
  rw [Disk.apply_of_notMem _ hnotMem, Function.update_self]

/-- An effect on another file does not matter. -/
theorem Disk.apply_cons_ne (d : Disk) {e : Path × Option Bytes} {p : Path} (h : p ≠ e.1)
    (effects : List (Path × Option Bytes)) : d.apply (e :: effects) p = d.apply effects p := by
  show Disk.apply (Function.update d e.1 e.2) effects p = d.apply effects p
  by_cases hp : p ∈ effects.map (·.1)
  · rcases exists_lastOf hp with ⟨e', he', rfl⟩
    rw [Disk.apply_lastOf _ he', Disk.apply_lastOf _ he']
  · rw [Disk.apply_of_notMem _ hp, Disk.apply_of_notMem _ hp, Function.update_of_ne h]

/-- Files are left alone exactly when the last effect on each is what it was. -/
theorem Disk.apply_agrees_iff (d : Disk) (effects : List (Path × Option Bytes)) (Q : Path → Prop) :
    (∀ p, Q p → d.apply effects p = d p) ↔
      ∀ e, LastOf (·.1) e effects → Q e.1 → d e.1 = e.2 := by
  constructor
  · intro h e he hq
    rw [← h e.1 hq, d.apply_lastOf he]
  · intro h p hq
    by_cases hp : p ∈ effects.map (·.1)
    · rcases exists_lastOf hp with ⟨e, he, rfl⟩
      rw [d.apply_lastOf he, h e he hq]
    · exact d.apply_of_notMem hp

/-! ## Paths of names -/

/-- A name without separators that is not a dot name is one more component. -/
theorem join_plain (base : Path) {s : Str} (hsep : '/' ∉ s) (hne : s ≠ [])
    (hdot : s ≠ ".".toList) (hdots : s ≠ "..".toList) : join base s = base ++ [s] := by
  have hhead : s.head? ≠ some '/' := by
    intro h
    exact hsep (List.mem_of_mem_head? h)
  have hskip : ¬ (s = [] ∨ s = ".".toList) := by
    rintro (h | h)
    · exact hne h
    · exact hdot h
  rw [join, if_neg hhead, List.splitOn_eq_singleton hsep]
  simp only [resolve, if_neg hskip, if_neg hdots]

theorem resolve_concat (base : Path) (cs : List Str) {c : Str} (hne : c ≠ [])
    (hdot : c ≠ ".".toList) (hdots : c ≠ "..".toList) :
    resolve base (cs ++ [c]) = resolve base cs ++ [c] := by
  have hskip : ¬ (c = [] ∨ c = ".".toList) := by
    rintro (h | h)
    · exact hne h
    · exact hdot h
  induction cs generalizing base with
  | nil => simp only [List.nil_append, resolve, if_neg hskip, if_neg hdots]
  | cons d cs ih =>
    simp only [List.cons_append, resolve]
    split
    · exact ih base
    · split
      · exact ih base.dropLast
      · exact ih (base ++ [d])

/-- A suffix without separators stays in the last component. -/
theorem splitOn_suffix (name : Str) {ext : Str} (hsep : '/' ∉ ext) :
    ∃ cs c, (name ++ ext).splitOn '/' = cs ++ [c ++ ext] := by
  induction name with
  | nil => exact ⟨[], [], List.splitOn_eq_singleton hsep⟩
  | cons a name ih =>
    rcases ih with ⟨cs, c, hsplit⟩
    rw [List.cons_append, List.splitOn_cons_eq_if_modifyHead, hsplit]
    by_cases ha : a = '/'
    · exact ⟨[] :: cs, c, by simp [ha]⟩
    · cases cs with
      | nil => exact ⟨[], a :: c, by simp [ha]⟩
      | cons d cs => exact ⟨(a :: d) :: cs, c, by simp [ha]⟩

/-- The file of a name with a suffix is called by the suffix. -/
theorem exists_join_suffix (base : Path) (name : Str) {ext : Str} (hsep : '/' ∉ ext)
    (hlen : 2 < ext.length) : ∃ dir c, join base (name ++ ext) = dir ++ [c ++ ext] := by
  rcases splitOn_suffix name hsep with ⟨cs, c, hsplit⟩
  have hlong : ∀ t : Str, t.length ≤ 2 → c ++ ext ≠ t := by
    intro t ht h
    have := congrArg List.length h
    simp only [List.length_append] at this
    omega
  rw [join, hsplit, resolve_concat]
  · exact ⟨_, c, rfl⟩
  · exact hlong [] (by simp)
  · exact hlong _ (by decide)
  · exact hlong _ (by decide)

end HomeTier.Lib
