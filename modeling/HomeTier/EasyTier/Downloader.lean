import Mathlib.Data.Char
import Mathlib.Data.List.Infix
import Mathlib.Data.List.Lex
import Mathlib.Data.List.Sort
import HomeTier.Lib.Disk
import HomeTier.Lib.Trace

/-! # The store of core binaries

`EasyTierDownloader` of `src-tauri/src/easytier/downloader.rs`. The binary of a
version is copied to a path of its own below `bin/`; afterwards the version is
written to `current_version.json`. A file at that path is taken for a complete
install, and a directory above it for an installed version, so a call that fails
between two of these steps is met again by the calls that follow.

An operating system error is an input: it says which step of the call fails and
what that step has done before. Only `/` separates the components of a path: on
Windows, where a backslash does too, versions are those without one.
-/

namespace HomeTier

open Lib

namespace Downloader

/-- The place of the store, the platform, and the binary in each version's
archive. -/
structure Layout where
  binDir : Path
  os : Str
  arch : Str
  archive : Str → Bytes
  os_plain : '/' ∉ os
  arch_plain : '/' ∉ arch

inductive BinarySource where
  | localArchive
  | localBinary
deriving DecidableEq, Repr

/-- The step of an install that fails. -/
inductive InstallFault where
  /-- `create_dir_all`, with this many of the ancestors there. -/
  | createDir (made : Nat)
  | tempDir
  | extract
  | noBinary
  /-- `std::fs::copy`: before the file is created, or after some bytes. -/
  | copy (written : Option Nat)
  | permissions
  /-- `std::fs::write` of the version record, which may truncate it first. -/
  | metadata (torn : Bool)
deriving DecidableEq, Repr

/-- The files and directories, the version in `current_version.json`, and what
the call just returned if it was an install that returned `Ok`. -/
structure St where
  files : Disk
  dirs : List Path
  current : Option Str
  returned : Option (Str × Path)

inductive Call where
  | install (version : Str) (source : BinarySource) (fault : Option InstallFault) (error : Str)
  /-- `kept` is what a removal that fails has left of the directory. -/
  | uninstall (version : Str) (kept : Option (List Path)) (recordRemoved : Bool) (error : Str)
  | listInstalled
deriving DecidableEq, Repr

/-- Before the first install. -/
def init : St where
  files := fun _ => none
  dirs := []
  current := none
  returned := none

/-! ## Directories -/

/-- `Path::exists` -/
def St.present (s : St) (p : Path) : Bool := (s.files p).isSome || s.dirs.contains p

/-- `std::fs::create_dir_all` -/
def St.createDirAll (s : St) (p : Path) : St :=
  { s with dirs := s.dirs ++ p.inits.filter fun d => !s.dirs.contains d }

@[simp] theorem mem_createDirAll {s : St} {p d : Path} :
    d ∈ (s.createDirAll p).dirs ↔ d ∈ s.dirs ∨ d <+: p := by
  by_cases hd : d ∈ s.dirs
  · simp [St.createDirAll, hd]
  · simp [St.createDirAll, hd, List.mem_inits]

section Store

variable (L : Layout)

namespace Layout

/-- `detect_platform` -/
def platform : Str := L.os ++ "-".toList ++ L.arch

def binaryName : Str :=
  if L.os = "windows".toList then "easytier-core.exe".toList else "easytier-core".toList

def stem : Str := "easytier-core-".toList

/-- `easytier-core-{version}` -/
def dirName (version : Str) : Str := stem ++ version

def versionDir (version : Str) : Path := join L.binDir (dirName version)

def platformDir (version : Str) : Path := join (L.versionDir version) L.platform

def binaryPath (version : Str) : Path := join (L.platformDir version) L.binaryName

def currentVersionFile : Path := join L.binDir "current_version.json".toList

end Layout

/-! ## The calls -/

/-- The steps a source has, and Windows has no permissions to set. -/
def InstallFault.Occurs (source : BinarySource) : InstallFault → Prop
  | .tempDir | .extract | .noBinary => source = .localArchive
  | .permissions => L.os ≠ "windows".toList
  | _ => True

instance (source : BinarySource) (fault : InstallFault) : Decidable (fault.Occurs L source) := by
  unfold InstallFault.Occurs
  split
  all_goals infer_instance

/-- The error of a failed install. -/
def InstallFault.text (error : Str) : InstallFault → Str
  | .createDir _ => "创建目录失败: ".toList ++ error
  | .tempDir => "创建临时目录失败: ".toList ++ error
  | .extract => error
  | .noBinary => "在归档中未找到 ".toList ++ L.binaryName
  | .copy _ => "复制二进制失败: ".toList ++ error
  | .permissions => "设置权限失败: ".toList ++ error
  | .metadata _ => "写入版本文件失败: ".toList ++ error

/-- What the step that fails, and those before it, have done. -/
def failInstall (s : St) (version : Str) : InstallFault → St
  | .createDir made => s.createDirAll ((L.platformDir version).dropLast.take made)
  | .tempDir | .extract | .noBinary | .copy none => s.createDirAll (L.platformDir version)
  | .copy (some written) =>
    { s.createDirAll (L.platformDir version) with
      files := s.files.write (L.binaryPath version) ((L.archive version).take written) }
  | .permissions =>
    { s.createDirAll (L.platformDir version) with
      files := s.files.write (L.binaryPath version) (L.archive version) }
  | .metadata torn =>
    { s.createDirAll (L.platformDir version) with
      files := s.files.write (L.binaryPath version) (L.archive version)
      current := if torn then none else s.current }

def install (s : St) (version : Str) (fault : Option InstallFault) (error : Str) :
    St × Except Str Path :=
  let target := L.binaryPath version
  if s.present target then (s, .ok target)
  else
    match fault with
    | some fault => (failInstall L s version fault, .error (fault.text L error))
    | none =>
      ({ s.createDirAll (L.platformDir version) with
          files := s.files.write target (L.archive version)
          current := some version },
        .ok target)

/-- `std::fs::remove_dir_all`, with what is left of the directory. -/
def removeDirAll (s : St) (dir : Path) (kept : List Path) : St :=
  { s with
    files := fun p => if dir <+: p ∧ p ∉ kept then none else s.files p
    dirs := s.dirs.filter fun d => !decide (dir <+: d ∧ d ∉ kept)
    current :=
      if dir <+: L.currentVersionFile ∧ L.currentVersionFile ∉ kept then none else s.current }

/-- Forget the current version if it is this one; an error is ignored. -/
def dropRecord (s : St) (version : Str) (recordRemoved : Bool) : St :=
  if s.current = some version ∧ recordRemoved then { s with current := none } else s

def uninstall (s : St) (version : Str) (kept : Option (List Path)) (recordRemoved : Bool)
    (error : Str) : St × Except Str Unit :=
  let dir := L.versionDir version
  if s.present dir then
    match kept with
    | some kept => (removeDirAll L s dir kept, .error ("删除目录失败: ".toList ++ error))
    | none => (dropRecord (removeDirAll L s dir []) version recordRemoved, .ok ())
  else (dropRecord s version recordRemoved, .ok ())

/-- What may be left of a directory: a directory stays as long as something in it. -/
def Leaves (s : St) (dir : Path) (kept : List Path) : Prop :=
  ∀ p ∈ kept, s.present p = true ∧ ∀ q ∈ p.inits, dir <+: q → q ∈ kept

instance (s : St) (dir : Path) (kept : List Path) : Decidable (Leaves s dir kept) :=
  inferInstanceAs (Decidable (∀ p ∈ kept, _))

/-- The name of a directory entry that is a directory. -/
def entryName (dir : Path) (d : Path) : Option Str :=
  if d.dropLast = dir then d.getLast? else none

/-- An entry that is a plain file has no platform below it. -/
def listInstalled (s : St) : List Str :=
  ((s.dirs.filterMap (entryName L.binDir)).filterMap fun name =>
    if Layout.stem <+: name ∧ s.present (join (L.binDir ++ [name]) L.platform) then
      some (name.drop Layout.stem.length)
    else none).insertionSort (· ≤ ·)

def step (s : St) : Call → Option St
  | .install version source fault error =>
    if ∀ f ∈ fault, f.Occurs L source then
      let r := install L s version fault error
      some { r.1 with returned := r.2.toOption.map fun path => (version, path) }
    else none
  | .uninstall version kept recordRemoved error =>
    if ∀ k ∈ kept, Leaves s (L.versionDir version) k then
      some { (uninstall L s version kept recordRemoved error).1 with returned := none }
    else none
  | .listInstalled => some { s with returned := none }

/-! ## What is expected -/

/-- The complete binary of the version is at its path. -/
def Complete (s : St) (version : Str) : Prop :=
  s.files (L.binaryPath version) = some (L.archive version)

/-- An install that returns `Ok` returns the complete binary of what is now the
current version, and exactly the versions with a complete binary are listed. -/
structure Faithful (s : St) : Prop where
  returned : ∀ version path, s.returned = some (version, path) →
    s.current = some version ∧ s.files path = some (L.archive version)
  listed : ∀ version ∈ listInstalled L s, Complete L s version
  complete : ∀ version, '/' ∉ version → Complete L s version → version ∈ listInstalled L s

/-- A failed step leaves no directory without a complete binary in it. -/
def InstallFault.Clean (version : Str) : InstallFault → Prop
  | .tempDir | .extract | .noBinary | .copy none => False
  | .copy (some written) => (L.archive version).length ≤ written
  | _ => True

instance (version : Str) (fault : InstallFault) : Decidable (fault.Clean L version) := by
  unfold InstallFault.Clean
  split
  all_goals infer_instance

/-- The version is a directory name (on Windows also without a backslash), an install of a
version that is there is an install of the current one, and a failed call leaves the directory
of a platform only with a complete binary. -/
def Sound (s : St) : Call → Prop
  | .install version _ fault _ => '/' ∉ version ∧
    (s.present (L.binaryPath version) = true → s.current = some version) ∧
    (s.present (L.binaryPath version) = false → ∀ f ∈ fault, f.Clean L version)
  | .uninstall version kept _ _ => '/' ∉ version ∧
    ∀ k ∈ kept, L.platformDir version ∈ k → L.binaryPath version ∈ k
  | .listInstalled => True

instance (s : St) (call : Call) : Decidable (Sound L s call) := by
  unfold Sound
  split
  all_goals infer_instance

/-! ## Paths of a version -/

section Paths

variable {L} {v w : Str}

/-- A name with another character than dots and separators is a component. -/
theorem join_name (base : Path) {s : Str} {c : Char} (hsep : '/' ∉ s) (hc : c ∈ s)
    (hdot : c ≠ '.') : join base s = base ++ [s] := by
  apply join_plain base hsep
  · intro h
    simp [h] at hc
  · intro h
    simp [h, hdot] at hc
  · intro h
    simp [h, hdot] at hc

theorem stem_plain : '/' ∉ Layout.stem ∧ 'e' ∈ Layout.stem := by
  decide

theorem versionDir_eq (hv : '/' ∉ v) : L.versionDir v = L.binDir ++ [Layout.dirName v] := by
  refine join_name (c := 'e') L.binDir ?_ ?_ (by decide)
  · rw [Layout.dirName, List.mem_append, not_or]
    exact ⟨stem_plain.1, hv⟩
  · rw [Layout.dirName, List.mem_append]
    exact Or.inl stem_plain.2

theorem join_platform (base : Path) : join base L.platform = base ++ [L.platform] := by
  refine join_name (c := '-') base ?_ ?_ (by decide)
  · simp [Layout.platform, L.os_plain, L.arch_plain]
  · simp [Layout.platform]

theorem platformDir_eq (hv : '/' ∉ v) :
    L.platformDir v = L.binDir ++ [Layout.dirName v, L.platform] := by
  rw [Layout.platformDir, join_platform, versionDir_eq hv, List.append_assoc]
  rfl

theorem binaryPath_eq (hv : '/' ∉ v) :
    L.binaryPath v = L.binDir ++ [Layout.dirName v, L.platform, L.binaryName] := by
  have hname : join (L.platformDir v) L.binaryName = L.platformDir v ++ [L.binaryName] := by
    refine join_name (c := 'e') _ ?_ ?_ (by decide)
    · unfold Layout.binaryName
      split
      all_goals decide
    · unfold Layout.binaryName
      split
      all_goals decide
  rw [Layout.binaryPath, hname, platformDir_eq hv, List.append_assoc]
  rfl

theorem dirName_injective (h : Layout.dirName v = Layout.dirName w) : v = w :=
  List.append_cancel_left h

theorem binaryPath_injective (hv : '/' ∉ v) (hw : '/' ∉ w)
    (h : L.binaryPath v = L.binaryPath w) : v = w := by
  rw [binaryPath_eq hv, binaryPath_eq hw, List.append_cancel_left_eq] at h
  injection h with hname
  exact dirName_injective hname

/-- What lies below the directory of a version belongs to this version. -/
theorem versionDir_prefix (hv : '/' ∉ v) {name : Str} {rest : List Str} :
    L.versionDir v <+: L.binDir ++ name :: rest ↔ Layout.dirName v = name := by
  rw [versionDir_eq hv, List.prefix_append_right_inj, List.cons_prefix_cons]
  simp

/-- The directories on the way to a platform are no platform of another version,
and no binary. -/
theorem platformDir_prefixed (hv : '/' ∉ v) (hw : '/' ∉ w) :
    L.platformDir v <+: L.platformDir w ↔ v = w := by
  rw [platformDir_eq hv, platformDir_eq hw, List.prefix_append_right_inj, List.cons_prefix_cons]
  constructor
  · intro h
    exact dirName_injective h.1
  · rintro rfl
    simp

theorem binaryPath_not_prefixed (hv : '/' ∉ v) (hw : '/' ∉ w) :
    ¬ L.binaryPath v <+: L.platformDir w := by
  intro h
  have hlen := h.length_le
  rw [binaryPath_eq hv, platformDir_eq hw] at hlen
  simp at hlen

end Paths

/-! ## The invariant -/

/-- Directories are those on the way to a platform, and a platform is there
exactly with its complete binary. -/
structure Inv (s : St) : Prop where
  dirs : ∀ d ∈ s.dirs, ∃ v, '/' ∉ v ∧ d <+: L.platformDir v
  files : ∀ p, s.files p ≠ none → ∃ v, '/' ∉ v ∧ p = L.binaryPath v ∧ L.platformDir v ∈ s.dirs
  parents : ∀ v, '/' ∉ v → L.platformDir v ∈ s.dirs → L.versionDir v ∈ s.dirs
  complete : ∀ v, '/' ∉ v → L.platformDir v ∈ s.dirs → Complete L s v

theorem inv_init : Inv L init where
  dirs := by simp [init]
  files := by simp [init]
  parents := by simp [init]
  complete := by simp [init]

section Present

variable {L} {s : St} {v : Str}

theorem present_iff {p : Path} : s.present p = true ↔ s.files p ≠ none ∨ p ∈ s.dirs := by
  simp [St.present, Option.isSome_iff_ne_none]

theorem present_binaryPath (h : Inv L s) (hv : '/' ∉ v) :
    s.present (L.binaryPath v) = true ↔ L.platformDir v ∈ s.dirs := by
  rw [present_iff]
  constructor
  · rintro (hfile | hdir)
    · rcases h.files _ hfile with ⟨w, hw, heq, hmem⟩
      obtain rfl : v = w := binaryPath_injective hv hw heq
      exact hmem
    · -- a directory ends at the platform
      rcases h.dirs _ hdir with ⟨w, hw, hfront⟩
      exact absurd hfront (binaryPath_not_prefixed hv hw)
  · intro hmem
    left
    rw [h.complete v hv hmem]
    simp

theorem present_platformDir (h : Inv L s) (hv : '/' ∉ v) :
    s.present (L.platformDir v) = true ↔ L.platformDir v ∈ s.dirs := by
  rw [present_iff]
  constructor
  · rintro (hfile | hdir)
    · rcases h.files _ hfile with ⟨w, hw, heq, -⟩
      exact absurd (heq ▸ List.prefix_rfl) (binaryPath_not_prefixed (L := L) hw hv)
    · exact hdir
  · exact Or.inr

theorem complete_iff (h : Inv L s) (hv : '/' ∉ v) :
    Complete L s v ↔ L.platformDir v ∈ s.dirs := by
  constructor
  · intro hcomplete
    rw [← present_binaryPath h hv, present_iff]
    left
    rw [hcomplete]
    simp
  · exact h.complete v hv

theorem entryName_eq_some {dir d : Path} {name : Str} :
    entryName dir d = some name ↔ d = dir ++ [name] := by
  unfold entryName
  split
  · rename_i hd
    rw [List.getLast?_eq_some_iff]
    constructor
    · rintro ⟨front, rfl⟩
      rw [← hd, List.dropLast_concat]
    · intro heq
      exact ⟨dir, heq⟩
  · rename_i hd
    constructor
    · intro h
      simp at h
    · rintro rfl
      simp at hd

theorem mem_listInstalled_iff :
    v ∈ listInstalled L s ↔ L.binDir ++ [Layout.dirName v] ∈ s.dirs ∧
      s.present (join (L.binDir ++ [Layout.dirName v]) L.platform) = true := by
  rw [listInstalled, (List.perm_insertionSort _ _).mem_iff, List.mem_filterMap]
  constructor
  · rintro ⟨name, hname, hv⟩
    rcases List.mem_filterMap.1 hname with ⟨d, hd, hentry⟩
    rw [entryName_eq_some] at hentry
    split at hv
    · rename_i hp
      rcases hp with ⟨⟨rest, rfl⟩, hpresent⟩
      rw [List.drop_left, Option.some.injEq] at hv
      subst hv
      exact ⟨hentry ▸ hd, hpresent⟩
    · simp at hv
  · rintro ⟨hd, hpresent⟩
    refine ⟨Layout.dirName v, List.mem_filterMap.2 ⟨_, hd, entryName_eq_some.2 rfl⟩, ?_⟩
    rw [if_pos ⟨List.prefix_append _ _, hpresent⟩, Layout.dirName, List.drop_left]

/-- The list shows the versions whose platform is there. -/
theorem mem_listInstalled (h : Inv L s) (hv : '/' ∉ v) :
    v ∈ listInstalled L s ↔ L.platformDir v ∈ s.dirs := by
  rw [mem_listInstalled_iff, ← versionDir_eq hv]
  show _ ∧ s.present (L.platformDir v) = true ↔ _
  rw [present_platformDir h hv]
  constructor
  · intro hboth
    exact hboth.2
  · intro hmem
    exact ⟨h.parents v hv hmem, hmem⟩

/-- Only version names are listed. -/
theorem plain_of_mem_listInstalled (h : Inv L s) (hmem : v ∈ listInstalled L s) : '/' ∉ v := by
  rcases h.dirs _ (mem_listInstalled_iff.1 hmem).1 with ⟨w, hw, hfront⟩
  rw [platformDir_eq hw, List.prefix_append_right_inj, List.cons_prefix_cons] at hfront
  rw [dirName_injective hfront.1]
  exact hw

theorem Inv.faithful (h : Inv L s)
    (hreturned : ∀ version path, s.returned = some (version, path) →
      s.current = some version ∧ s.files path = some (L.archive version)) : Faithful L s where
  returned := hreturned
  listed := by
    intro v hmem
    have hv := plain_of_mem_listInstalled h hmem
    exact h.complete v hv ((mem_listInstalled h hv).1 hmem)
  complete := by
    intro v hv hcomplete
    rw [mem_listInstalled h hv, ← complete_iff h hv]
    exact hcomplete

end Present

/-! ## What a call keeps -/

section Calls

variable {L} {s : St} {v : Str}

/-- The version record and the returned value do not matter. -/
theorem Inv.congr (h : Inv L s) {t : St} (hfiles : t.files = s.files) (hdirs : t.dirs = s.dirs) :
    Inv L t where
  dirs := by
    rw [hdirs]
    exact h.dirs
  files := by
    rw [hfiles, hdirs]
    exact h.files
  parents := by
    rw [hdirs]
    exact h.parents
  complete := by
    intro v hv hmem
    rw [hdirs] at hmem
    rw [Complete, hfiles]
    exact h.complete v hv hmem

/-- Directories above a platform may be made at any time. -/
theorem Inv.createDirAll (h : Inv L s) (hv : '/' ∉ v) (made : Nat) :
    Inv L (s.createDirAll ((L.platformDir v).dropLast.take made)) := by
  have hfront : (L.platformDir v).dropLast.take made <+: (L.platformDir v).dropLast :=
    List.take_prefix _ _
  -- no platform is among the new directories
  have hold : ∀ w, '/' ∉ w →
      L.platformDir w ∈ (s.createDirAll ((L.platformDir v).dropLast.take made)).dirs →
        L.platformDir w ∈ s.dirs := by
    intro w hw hmem
    rw [mem_createDirAll] at hmem
    rcases hmem with hmem | hmem
    · exact hmem
    · have hlen := (hmem.trans hfront).length_le
      rw [platformDir_eq hv, platformDir_eq hw] at hlen
      simp at hlen
  constructor
  · intro d hd
    rw [mem_createDirAll] at hd
    rcases hd with hd | hd
    · exact h.dirs d hd
    · exact ⟨v, hv, (hd.trans hfront).trans (List.dropLast_prefix _)⟩
  · intro p hp
    rcases h.files p hp with ⟨w, hw, rfl, hmem⟩
    exact ⟨w, hw, rfl, mem_createDirAll.2 (Or.inl hmem)⟩
  · intro w hw hmem
    exact mem_createDirAll.2 (Or.inl (h.parents w hw (hold w hw hmem)))
  · intro w hw hmem
    exact h.complete w hw (hold w hw hmem)

/-- The complete binary is put in its place. -/
theorem Inv.put (h : Inv L s) (hv : '/' ∉ v) {t : St}
    (hfiles : t.files = s.files.write (L.binaryPath v) (L.archive v))
    (hdirs : t.dirs = (s.createDirAll (L.platformDir v)).dirs) : Inv L t := by
  have hmem : ∀ d, d ∈ t.dirs ↔ d ∈ s.dirs ∨ d <+: L.platformDir v := by
    intro d
    rw [hdirs, mem_createDirAll]
  constructor
  · intro d hd
    rcases (hmem d).1 hd with hd | hd
    · exact h.dirs d hd
    · exact ⟨v, hv, hd⟩
  · intro p hp
    by_cases heq : p = L.binaryPath v
    · exact ⟨v, hv, heq, (hmem _).2 (Or.inr List.prefix_rfl)⟩
    · rw [hfiles, Disk.write_ne _ _ heq] at hp
      rcases h.files p hp with ⟨w, hw, hpw, hdir⟩
      exact ⟨w, hw, hpw, (hmem _).2 (Or.inl hdir)⟩
  · intro w hw hdir
    rw [hmem] at hdir ⊢
    rcases hdir with hdir | hdir
    · exact Or.inl (h.parents w hw hdir)
    · obtain rfl : w = v := (platformDir_prefixed hw hv).1 hdir
      right
      rw [versionDir_eq hv, platformDir_eq hv, List.prefix_append_right_inj]
      simp
  · intro w hw hdir
    rw [Complete, hfiles]
    by_cases heq : w = v
    · rw [heq, Disk.write_self]
    · have hne : L.binaryPath w ≠ L.binaryPath v := by
        intro hpath
        exact heq (binaryPath_injective hw hv hpath)
      rw [Disk.write_ne _ _ hne]
      rcases (hmem _).1 hdir with hdir | hdir
      · exact h.complete w hw hdir
      · exact absurd ((platformDir_prefixed hw hv).1 hdir) heq

/-- A removal that leaves the platform leaves the binary in it. -/
theorem Inv.removeDirAll (h : Inv L s) (hv : '/' ∉ v) {kept : List Path}
    (hkept : ∀ p ∈ kept, ∀ q ∈ p.inits, L.versionDir v <+: q → q ∈ kept)
    (hsound : L.platformDir v ∈ kept → L.binaryPath v ∈ kept) :
    Inv L (removeDirAll L s (L.versionDir v) kept) := by
  have hmem : ∀ d, d ∈ (Downloader.removeDirAll L s (L.versionDir v) kept).dirs ↔
      d ∈ s.dirs ∧ (L.versionDir v <+: d → d ∈ kept) := by
    intro d
    simp [Downloader.removeDirAll, imp_iff_not_or]
  have hfile : ∀ p, (Downloader.removeDirAll L s (L.versionDir v) kept).files p =
      if L.versionDir v <+: p ∧ p ∉ kept then none else s.files p := fun _ => rfl
  have hown : L.versionDir v <+: L.platformDir v := by
    rw [platformDir_eq hv, versionDir_prefix hv]
  constructor
  · intro d hd
    exact h.dirs d ((hmem d).1 hd).1
  · intro p hp
    rw [hfile] at hp
    split at hp
    · exact absurd rfl hp
    · rename_i hstay
      rcases h.files p hp with ⟨w, hw, rfl, hdir⟩
      refine ⟨w, hw, rfl, (hmem _).2 ⟨hdir, ?_⟩⟩
      intro hunder
      rw [platformDir_eq hw, versionDir_prefix hv] at hunder
      obtain rfl : v = w := dirName_injective hunder
      -- a binary that stays keeps the directories above it
      have hbelow : L.versionDir v <+: L.binaryPath v := by
        rw [binaryPath_eq hv, versionDir_prefix hv]
      have hpk : L.binaryPath v ∈ kept := by
        by_contra hnot
        exact hstay ⟨hbelow, hnot⟩
      refine hkept _ hpk _ ((List.mem_inits _ _).2 ?_) hown
      rw [platformDir_eq hv, binaryPath_eq hv, List.prefix_append_right_inj]
      simp
  · intro w hw hdir
    rw [hmem] at hdir ⊢
    refine ⟨h.parents w hw hdir.1, ?_⟩
    intro hunder
    rw [versionDir_eq hw, versionDir_prefix hv] at hunder
    obtain rfl : v = w := dirName_injective hunder
    exact hkept _ (hdir.2 hown) _ ((List.mem_inits _ _).2 hown) List.prefix_rfl
  · intro w hw hdir
    rw [hmem] at hdir
    rw [Complete, hfile, if_neg]
    · exact h.complete w hw hdir.1
    · rintro ⟨hunder, hnot⟩
      rw [binaryPath_eq hw, versionDir_prefix hv] at hunder
      obtain rfl : v = w := dirName_injective hunder
      -- the directory has stayed, and with it the binary
      exact hnot (hsound (hdir.2 hown))

theorem inv_failInstall (h : Inv L s) (hv : '/' ∉ v) {fault : InstallFault}
    (hclean : fault.Clean L v) : Inv L (failInstall L s v fault) := by
  cases fault with
  | createDir made => exact h.createDirAll hv made
  | tempDir => exact hclean.elim
  | extract => exact hclean.elim
  | noBinary => exact hclean.elim
  | copy written =>
    cases written with
    | none => exact hclean.elim
    | some written =>
      -- the copy failed after the last byte
      refine h.put hv ?_ rfl
      rw [failInstall, List.take_of_length_le hclean]
  | permissions => exact h.put hv rfl rfl
  | metadata torn => exact h.put hv rfl rfl

/-- An install keeps the invariant, and what it returns is complete and current. -/
theorem install_spec (h : Inv L s) {source : BinarySource} {fault : Option InstallFault}
    {error : Str} (hsound : Sound L s (.install v source fault error)) :
    Inv L (install L s v fault error).1 ∧
      ∀ path, (install L s v fault error).2 = .ok path →
        (install L s v fault error).1.current = some v ∧
        (install L s v fault error).1.files path = some (L.archive v) := by
  rcases hsound with ⟨hv, hcurrent, hclean⟩
  cases hpresent : s.present (L.binaryPath v) with
  | true =>
    simp only [install, if_pos hpresent]
    refine ⟨h, ?_⟩
    intro path hpath
    injection hpath with hpath
    subst hpath
    refine ⟨hcurrent hpresent, ?_⟩
    exact h.complete v hv ((present_binaryPath h hv).1 hpresent)
  | false =>
    unfold install
    simp only [hpresent, Bool.false_eq_true, if_false]
    cases fault with
    | some fault =>
      refine ⟨inv_failInstall h hv (hclean hpresent fault rfl), ?_⟩
      intro path hpath
      injection hpath
    | none =>
      refine ⟨h.put hv rfl rfl, ?_⟩
      intro path hpath
      injection hpath with hpath
      subst hpath
      exact ⟨rfl, Disk.write_self _ _ _⟩

theorem dropRecord_files (s : St) (v : Str) (removed : Bool) :
    (dropRecord s v removed).files = s.files := by
  unfold dropRecord
  split
  · rfl
  · rfl

theorem dropRecord_dirs (s : St) (v : Str) (removed : Bool) :
    (dropRecord s v removed).dirs = s.dirs := by
  unfold dropRecord
  split
  · rfl
  · rfl

theorem inv_uninstall (h : Inv L s) {kept : Option (List Path)} {recordRemoved : Bool}
    {error : Str} (hsound : Sound L s (.uninstall v kept recordRemoved error))
    (hleaves : ∀ k ∈ kept, Leaves s (L.versionDir v) k) :
    Inv L (uninstall L s v kept recordRemoved error).1 := by
  rcases hsound with ⟨hv, hbinary⟩
  unfold uninstall
  simp only
  split
  · cases kept with
    | some kept =>
      refine h.removeDirAll hv ?_ (hbinary kept rfl)
      intro p hp
      exact (hleaves kept rfl p hp).2
    | none =>
      have hall : Inv L (removeDirAll L s (L.versionDir v) []) :=
        h.removeDirAll hv (by simp) (by simp)
      exact hall.congr (dropRecord_files _ _ _) (dropRecord_dirs _ _ _)
  · exact h.congr (dropRecord_files _ _ _) (dropRecord_dirs _ _ _)

/-- One call keeps the invariant and does what is expected. -/
theorem inv_step {call : Call} {t : St} (h : Inv L s) (hsound : Sound L s call)
    (hstep : step L s call = some t) :
    Inv L t ∧ ∀ version path, t.returned = some (version, path) →
      t.current = some version ∧ t.files path = some (L.archive version) := by
  cases call with
  | install v source fault error =>
    rcases install_spec h hsound with ⟨hinv, hok⟩
    rw [step] at hstep
    split at hstep
    · injection hstep with hstep
      subst hstep
      refine ⟨hinv.congr rfl rfl, ?_⟩
      intro version path hreturned
      generalize install L s v fault error = r at *
      cases hresult : r.2 with
      | error e => simp [hresult, Except.toOption] at hreturned
      | ok target =>
        have hsame : path = target ∧ version = v := by
          simpa [hresult, Except.toOption, and_comm, eq_comm] using hreturned
        rw [hsame.1, hsame.2]
        exact hok target hresult
    · cases hstep
  | uninstall v kept recordRemoved error =>
    rw [step] at hstep
    split at hstep
    · rename_i hleaves
      injection hstep with hstep
      subst hstep
      refine ⟨(inv_uninstall h hsound hleaves).congr rfl rfl, ?_⟩
      intro version path hreturned
      cases hreturned
    · cases hstep
  | listInstalled =>
    injection hstep with hstep
    subst hstep
    refine ⟨h.congr rfl rfl, ?_⟩
    intro version path hreturned
    cases hreturned

end Calls

/-- In every run of sound calls the store is what it is taken for. -/
theorem store_faithful {calls : List Call} (h : Along (step L) (Sound L) init calls) :
    Always (step L) (Faithful L) init calls := by
  apply always_of_along (P := Sound L)
    (I := fun s => Inv L s ∧ ∀ version path, s.returned = some (version, path) →
      s.current = some version ∧ s.files path = some (L.archive version))
  · intro s hs
    exact hs.1.faithful hs.2
  · intro s call t hs hsound hstep
    exact inv_step hs.1 hsound hstep
  · refine ⟨inv_init L, ?_⟩
    intro version path hreturned
    cases hreturned
  · exact h

end Store

theorem example_plain : '/' ∉ "linux".toList ∧ '/' ∉ "x86_64".toList := by
  decide

def exampleLayout : Layout where
  binDir := ["data".toList, "bin".toList]
  os := "linux".toList
  arch := "x86_64".toList
  archive := fun version => 127 :: utf8 version
  os_plain := example_plain.1
  arch_plain := example_plain.2

/-- Two versions, one of them removed again. -/
def exampleCalls : List Call :=
  [.install "2".toList .localArchive none [], .listInstalled,
    .install "3".toList .localBinary (some (.copy (some 2))) "EIO".toList,
    .uninstall "2".toList none true []]

theorem store_faithful_example :
    Always (step exampleLayout) (Faithful exampleLayout) init exampleCalls :=
  store_faithful exampleLayout (by decide)

/-- The copy fails after its first byte; the next install of the version returns
what it has left. -/
theorem partial_binary_returned :
    ¬ Always (step exampleLayout) (Faithful exampleLayout) init
      [.install "2".toList .localArchive (some (.copy (some 1))) "ENOSPC".toList,
        .install "2".toList .localArchive none []] := by
  apply not_always_of_run (Q := fun s => ∀ r ∈ s.returned,
    s.files r.2 = some (exampleLayout.archive r.1))
  · intro s hs r hr
    exact (hs.returned r.1 r.2 hr).2
  · decide

end Downloader

end HomeTier
