import HomeTier.App.Download
import HomeTier.Lib.Codec
import HomeTier.Lib.Lines

/-! # The upgrade of the app

`upgrade_app_inner` of `src/commands/update_app.rs`. The AppImage that runs is replaced by one
that was downloaded beside it, under the name of the release and first under that name with
`.tmp`.

* The package that is downloaded is checked before it takes the place of the running one, but
  not before it takes a name beside it, and either name may be the one that the running
  AppImage has.
* The upgrade is atomic exactly if it has neither, or what happens to the name does no harm
  (`upgrade_atomic_iff`).
-/

namespace HomeTier.AppUpgrade

open Lib Download

/-! ## Releases -/

structure GitHubAsset where
  name : Str
  browserDownloadUrl : Str
deriving DecidableEq

structure GitHubRelease where
  tagName : Str
  assets : List GitHubAsset

/-- What comes of a request for a text. -/
inductive TextReply where
  | failed (e : Str)
  | answered (status : Status) (text : Except Str Str)

inductive Action where
  | installed
  | openRelease
deriving DecidableEq

/-- Everything that an upgrade asks the machine and the network, and the crates. -/
structure Setting extends Env where
  linux : Bool
  /-- `APPIMAGE`, if it is set and not empty. -/
  appimage : Option Path
  arch : Str
  text : Str → TextReply
  parseRelease : Str → Except Str GitHubRelease
  sha256 : Bytes → Bytes
  toLowercase : Str → Str

section Upgrade

variable (U : Setting)

def releaseLatestUrl : Str :=
  "https://api.github.com/repos/gmtfHomeHub/homeTier/releases/latest".toList

def fetchLatestRelease : Except Str GitHubRelease :=
  match U.text releaseLatestUrl with
  | .failed e => .error ("获取最新版本失败: ".toList ++ e)
  | .answered status text =>
    if ¬ status.isSuccess then .error ("GitHub API 返回错误: ".toList ++ status.text)
    else
      match text with
      | .error e => .error ("读取响应失败: ".toList ++ e)
      | .ok text => (U.parseRelease text).mapError ("解析响应失败: ".toList ++ ·)

def appimageAssetKeyword : Option Str :=
  if U.arch = "x86_64".toList then some "homeTier-linux-x86_64-".toList
  else if U.arch = "aarch64".toList then some "homeTier-linux-aarch64-".toList
  else none

/-- The package for the platform. -/
def isPackage (keyword : Str) (a : GitHubAsset) : Bool :=
  keyword.isPrefixOf a.name && ".AppImage".toList.isSuffixOf a.name

/-! ## Checksums -/

def checksumOf (assetName line : Str) : Option Str :=
  match splitWhitespace line with
  | hash :: name :: _ => if name = assetName then some (U.toLowercase hash) else none
  | _ => none

def findChecksum (content assetName : Str) : Option Str :=
  (lines content).findSome? (checksumOf U assetName)

def fetchChecksum (assets : List GitHubAsset) (assetName : Str) : Except Str Str :=
  match assets.find? (·.name = "checksums.txt".toList) with
  | none => .error "发布缺少 checksums.txt 校验文件".toList
  | some a =>
    match U.text (proxyUrl U.toEnv a.browserDownloadUrl) with
    | .failed e => .error ("下载校验文件失败: ".toList ++ e)
    | .answered status text =>
      if ¬ status.isSuccess then .error ("下载校验文件返回 HTTP ".toList ++ status.text)
      else
        match text with
        | .error e => .error ("读取校验文件失败: ".toList ++ e)
        | .ok text =>
          match findChecksum U text assetName with
          | none => .error ("校验文件中未找到 ".toList ++ assetName ++ " 的哈希".toList)
          | some hash => .ok hash

def sha256Hex (bytes : Bytes) : Str := hexEncode (U.sha256 bytes)

/-! ## The upgrade -/

/-- The running AppImage, the package, and its checksum. -/
structure Choice where
  appimage : Path
  asset : GitHubAsset
  expected : Str

/-- Before the download; what ends the upgrade here is an error of this. -/
def choose (disk : Disk) : Except (Except Str Action) Choice :=
  if ¬ U.linux then .error (.ok .openRelease)
  else
    match U.appimage with
    | none => .error (.ok .openRelease)
    | some appimage =>
      if (disk appimage).isNone then .error (.ok .openRelease)
      else
        match appimageAssetKeyword U with
        | none => .error (.ok .openRelease)
        | some keyword =>
          match fetchLatestRelease U with
          | .error e => .error (.error e)
          | .ok release =>
            match release.assets.find? (isPackage keyword) with
            | none => .error (.error ("最新版本未找到 ".toList ++ keyword ++ " 平台安装包".toList))
            | some asset =>
              match fetchChecksum U release.assets asset.name with
              | .error e => .error (.error e)
              | .ok expected =>
                if appimage = [] then .error (.error "无法确定安装目录".toList)
                else
                  match U.fails .createDir with
                  | some e => .error (.error ("创建目录失败: ".toList ++ e))
                  | none => .ok ⟨appimage, asset, expected⟩

/-- From the check to the replacement. -/
def replaceApp (c : Choice) (downloaded : Path) (s : St) : St × Except Str Action :=
  match U.fails .readFile, s.disk downloaded with
  | none, some bytes =>
    let actual := sha256Hex U bytes
    if actual ≠ c.expected then
      -- the result of the removal is not looked at
      let disk := if (U.fails .removeFile).isNone then s.disk.remove downloaded else s.disk
      ({ s with disk := disk }, .error ("安装包校验失败 (期望 ".toList ++ c.expected ++
        "，实际 ".toList ++ actual ++ ")".toList))
    else
      match U.fails .setPermissions with
      | some e => (s, .error ("设置执行权限失败: ".toList ++ e))
      | none =>
        match U.fails .replaceFile with
        | some e => (s, .error ("替换安装包失败: ".toList ++ e))
        | none => ({ s with disk := s.disk.rename downloaded c.appimage }, .ok .installed)
  | e, _ => (s, .error ("读取安装包失败: ".toList ++ e.getD []))

def Choice.dir (c : Choice) : Path := c.appimage.dropLast

def upgradeAppInner (useProxy : Bool) (s : St) : St × Except Str Action :=
  match choose U s.disk with
  | .error result => (s, result)
  | .ok c =>
    match downloadAsset U.toEnv c.asset.browserDownloadUrl c.asset.name c.dir useProxy s with
    | (s, .error e) => (s, .error e)
    | (s, .ok downloaded) => replaceApp U c downloaded s

/-! ## What is expected -/

/-- The checksum of the package is published. -/
def Published (hash : Str) : Prop :=
  ∃ keyword release asset, appimageAssetKeyword U = some keyword ∧
    fetchLatestRelease U = .ok release ∧
    release.assets.find? (isPackage keyword) = some asset ∧
    fetchChecksum U release.assets asset.name = .ok hash

/-- An upgrade that fails leaves the running AppImage as it was, and one that succeeds puts
the package there whose checksum is published. -/
def Atomic (useProxy : Bool) (s : St) : Prop :=
  match upgradeAppInner U useProxy s with
  | (s', .error _) =>
    ∀ appimage ∈ U.appimage, s'.disk appimage = s.disk appimage ∧ (s'.disk appimage).isSome = true
  | (_, .ok .openRelease) => True
  | (s', .ok .installed) =>
    ∀ appimage ∈ U.appimage, ∃ content, s'.disk appimage = some content ∧
      Published U (sha256Hex U content)

namespace Choice

variable (c : Choice)

/-- Where the package is downloaded to, and where it is written before. -/
def destPath : Path := join c.dir c.asset.name

def tmpPath : Path := join c.dir (c.asset.name ++ ".tmp".toList)

/-- The package passes the check, and nothing fails from there on. -/
structure Replaces (body : Bytes) : Prop where
  reads : U.fails .readFile = none
  agrees : sha256Hex U body = c.expected
  permits : U.fails .setPermissions = none
  replaces : U.fails .replaceFile = none

/-- The package does not pass the check, and is removed. -/
structure Removes (body : Bytes) : Prop where
  reads : U.fails .readFile = none
  differs : sha256Hex U body ≠ c.expected
  removes : U.fails .removeFile = none

/-- What happens to the two names does no harm to what the disk has. -/
structure Harmless (disk : Disk) (chunks : List Bytes) (broken : Option Str) : Prop where
  /-- The beginning of the body is left under the name with `.tmp`. -/
  cut : ¬ Arrives U.toEnv 0 chunks broken → c.appimage = c.tmpPath →
    disk c.appimage = some ((given U.toEnv 0 chunks).take U.kept)
  unnamed : Arrives U.toEnv 0 chunks broken → U.fails .renameFile ≠ none →
    c.appimage = c.tmpPath → disk c.appimage = some chunks.flatten
  named : Arrives U.toEnv 0 chunks broken → U.fails .renameFile = none →
    c.Replaces U chunks.flatten ∨ (c.appimage ≠ c.tmpPath ∧ (c.appimage = c.destPath →
      disk c.appimage = some chunks.flatten ∧ ¬ c.Removes U chunks.flatten))

end Choice

/-- An upgrade that has an answer, and a file to write it to, does no harm. -/
def Unharmed (useProxy : Bool) (s : St) : Prop :=
  ∀ c, choose U s.disk = .ok c → U.fails .createFile = none → ∀ r rest chunks broken,
    (requests (urls U.toEnv useProxy c.asset.browserDownloadUrl)).dropWhile
      (fun r => ! (U.net r).succeeds) = r :: rest →
    answer U.toEnv r = .ok (chunks, broken) → c.Harmless U s.disk chunks broken

/-! ## Before the download -/

variable {U}

theorem suffix_of_isPackage {keyword : Str} {a : GitHubAsset} (h : isPackage keyword a = true) :
    ".AppImage".toList <:+ a.name := by
  rw [isPackage, Bool.and_eq_true] at h
  exact List.isSuffixOf_iff_suffix.1 h.2

/-- What is known of a choice. -/
structure Chosen (U : Setting) (disk : Disk) (c : Choice) : Prop where
  appimage : U.appimage = some c.appimage
  present : (disk c.appimage).isSome = true
  package : ".AppImage".toList <:+ c.asset.name
  published : Published U c.expected

theorem chosen_of_choose {disk : Disk} {c : Choice} (h : choose U disk = .ok c) :
    Chosen U disk c := by
  unfold choose at h
  split at h
  · cases h
  split at h
  · cases h
  rename_i appimage happimage
  split at h
  · cases h
  rename_i hpresent
  split at h
  · cases h
  rename_i keyword hkeyword
  split at h
  · cases h
  rename_i release hrelease
  split at h
  · cases h
  rename_i asset hasset
  split at h
  · cases h
  rename_i expected hexpected
  split at h
  · cases h
  split at h
  · cases h
  obtain rfl := Except.ok.inj h
  exact ⟨happimage, by simpa [Option.isSome_iff_ne_none] using hpresent,
    suffix_of_isPackage (List.find?_some hasset),
    ⟨keyword, release, asset, hkeyword, hrelease, hasset, hexpected⟩⟩

/-- What ends an upgrade before the download does not install, and an error is one of an
AppImage that is there. -/
theorem of_choose_error {disk : Disk} {result : Except Str Action}
    (h : choose U disk = .error result) :
    result = .ok .openRelease ∨ (∃ e, result = .error e) ∧
      ∀ appimage ∈ U.appimage, (disk appimage).isSome = true := by
  unfold choose at h
  split at h
  · exact .inl (Except.error.inj h).symm
  split at h
  · exact .inl (Except.error.inj h).symm
  rename_i appimage happimage
  split at h
  · exact .inl (Except.error.inj h).symm
  rename_i hpresent
  have hthere : ∀ a ∈ U.appimage, (disk a).isSome = true := by
    intro a ha
    obtain rfl : appimage = a := Option.some.inj (happimage.symm.trans ha)
    simpa [Option.isSome_iff_ne_none] using hpresent
  split at h
  · exact .inl (Except.error.inj h).symm
  refine .inr ⟨?_, hthere⟩
  split at h
  · exact ⟨_, (Except.error.inj h).symm⟩
  split at h
  · exact ⟨_, (Except.error.inj h).symm⟩
  split at h
  · exact ⟨_, (Except.error.inj h).symm⟩
  split at h
  · exact ⟨_, (Except.error.inj h).symm⟩
  split at h
  · exact ⟨_, (Except.error.inj h).symm⟩
  · cases h

/-- The two names differ, as they end differently. -/
theorem destPath_ne_tmpPath {c : Choice} (h : ".AppImage".toList <:+ c.asset.name) :
    c.destPath ≠ c.tmpPath := by
  obtain ⟨stem, hstem⟩ := h
  obtain ⟨dir, a, hdest⟩ : ∃ dir a, join c.dir (stem ++ ".AppImage".toList) =
      dir ++ [a ++ ".AppImage".toList] := exists_join_suffix c.dir stem (by decide) (by decide)
  obtain ⟨dir', b, htmp⟩ : ∃ dir b, join c.dir (c.asset.name ++ ".tmp".toList) =
      dir ++ [b ++ ".tmp".toList] := exists_join_suffix c.dir c.asset.name (by decide) (by decide)
  intro heq
  rw [Choice.destPath, Choice.tmpPath, ← hstem, hdest, hstem, htmp] at heq
  have hlast : (a ++ ".AppImage".toList).getLast? = (b ++ ".tmp".toList).getLast? :=
    congrArg List.getLast? (List.singleton_inj.1 (List.append_inj_right' heq rfl))
  rw [List.getLast?_append_of_ne_nil _ (by decide), List.getLast?_append_of_ne_nil _ (by decide)]
    at hlast
  revert hlast
  decide

/-! ## The download -/

section Download

variable (E : Env) (tmpPath destPath : Path)

/-- An attempt with an answer is over with what it saves. -/
theorem tryAsset_of_answer {r : Request} {chunks : List Bytes} {broken : Option Str}
    (h : answer E r = .ok (chunks, broken)) (s : St) :
    ∃ s', s'.disk = (save E tmpPath destPath s.disk chunks broken).1 ∧
      (tryAsset E tmpPath destPath s r).1 = s' ∧ (tryAsset E tmpPath destPath s r).2.Ends ∧
      (tryAsset E tmpPath destPath s r).2.result =
        (save E tmpPath destPath s.disk chunks broken).2.map fun _ => destPath := by
  rw [tryAsset, h]
  rcases hsave : save E tmpPath destPath s.disk chunks broken with ⟨disk, e | _⟩
  · simp only [hsave]
    exact ⟨_, rfl, rfl, trivial, rfl⟩
  · simp only [hsave]
    exact ⟨_, rfl, rfl, trivial, rfl⟩

theorem tryAsset_of_not_succeeds {r : Request} (h : (E.net r).succeeds = false) (s : St) :
    (tryAsset E tmpPath destPath s r).1.disk = s.disk ∧
      ¬ (tryAsset E tmpPath destPath s r).2.Ends := by
  obtain ⟨e, hanswer⟩ := answer_of_not_succeeds h
  rw [tryAsset, hanswer]
  exact ⟨rfl, Attempt.not_ends_next e⟩

/-- Whether an attempt ends the download depends on its status only. -/
theorem foreseen_tryAsset : Foreseen (tryAsset E tmpPath destPath) fun r => (E.net r).succeeds := by
  intro s r
  cases hr : (E.net r).succeeds with
  | false => exact iff_of_false (tryAsset_of_not_succeeds E tmpPath destPath hr s).2 (by simp [hr])
  | true =>
    obtain ⟨chunks, broken, hanswer, -⟩ := answer_of_succeeds hr
    obtain ⟨s', -, -, hends, -⟩ := tryAsset_of_answer E tmpPath destPath hanswer s
    exact iff_of_true hends hr

/-- What a download does to the disk is what the first answer with a success status does. -/
theorem downloadAsset_cases (url assetName : Str) (destDir : Path) (useProxy : Bool) (s : St) :
    ((∀ r ∈ requests (urls E useProxy url), (E.net r).succeeds = false) ∧
      ∃ s' e, downloadAsset E url assetName destDir useProxy s = (s', .error e) ∧
        s'.disk = s.disk) ∨
    ∃ r rest chunks broken,
      (requests (urls E useProxy url)).dropWhile (fun r => ! (E.net r).succeeds) = r :: rest ∧
      answer E r = .ok (chunks, broken) ∧ ∃ s',
        s'.disk = (save E (join destDir (assetName ++ ".tmp".toList)) (join destDir assetName)
          s.disk chunks broken).1 ∧
        downloadAsset E url assetName destDir useProxy s =
          (s', (save E (join destDir (assetName ++ ".tmp".toList)) (join destDir assetName)
            s.disk chunks broken).2.map fun _ => join destDir assetName) := by
  have hframe : ∀ rs : List Request, (∀ r ∈ rs, (E.net r).succeeds = false) →
      (attempted (tryAsset E (join destDir (assetName ++ ".tmp".toList)) (join destDir assetName))
        s rs).disk = s.disk := fun rs hrs =>
    attempted_frame St.disk (fun r hr s => (tryAsset_of_not_succeeds E _ _ (hrs r hr) s).1) s
  rcases fallback_eq (exhausted (urls E useProxy url)) (foreseen_tryAsset E _ _) s []
    (requests (urls E useProxy url)) with
    ⟨before, r, rest, hsplit, hbefore, hr, hrun⟩ | ⟨hall, last', hrun⟩
  · obtain ⟨chunks, broken, hanswer, -⟩ := answer_of_succeeds hr
    obtain ⟨s', hdisk, hstate, -, hresult⟩ := tryAsset_of_answer E
      (join destDir (assetName ++ ".tmp".toList)) (join destDir assetName) hanswer
      (attempted (tryAsset E (join destDir (assetName ++ ".tmp".toList)) (join destDir assetName))
        s before)
    rw [hframe before hbefore] at hdisk hresult
    refine .inr ⟨r, rest, chunks, broken, ?_, hanswer, s', hdisk, ?_⟩
    · rw [hsplit, List.dropWhile_append_of_pos (by simpa using hbefore),
        List.dropWhile_cons_of_neg (by simpa using hr)]
    · rw [downloadAsset, hrun, hstate, hresult]
  · exact .inl ⟨hall, _, _, hrun, hframe _ hall⟩

end Download

/-! ## What is saved -/

section Save

variable {E : Env} {tmpPath destPath : Path} {disk : Disk} {chunks : List Bytes}
  {broken : Option Str}

theorem save_of_not_created (h : E.fails .createFile ≠ none) :
    ∃ e, save E tmpPath destPath disk chunks broken = (disk, .error e) := by
  obtain ⟨e, he⟩ := Option.ne_none_iff_exists'.1 h
  exact ⟨_, by rw [save, he]⟩

theorem save_of_not_renamed (hcreate : E.fails .createFile = none)
    (h : Arrives E 0 chunks broken) (hrename : E.fails .renameFile ≠ none) :
    ∃ e, save E tmpPath destPath disk chunks broken =
      (disk.write tmpPath chunks.flatten, .error e) := by
  obtain ⟨e, he⟩ := Option.ne_none_iff_exists'.1 hrename
  simp only [save, hcreate, receive_of_arrives h, he, List.nil_append]
  exact ⟨_, rfl⟩

end Save

/-! ## The replacement -/

section Replace

variable {c : Choice} {downloaded : Path} {s : St} {body : Bytes}

theorem replaceApp_of_replaces (hbody : s.disk downloaded = some body) (h : c.Replaces U body) :
    replaceApp U c downloaded s =
      ({ s with disk := s.disk.rename downloaded c.appimage }, .ok .installed) := by
  simp only [replaceApp, h.reads, hbody, h.agrees, ne_eq, not_true_eq_false, if_false, h.permits,
    h.replaces]

theorem replaceApp_of_removes (hbody : s.disk downloaded = some body) (h : c.Removes U body) :
    ∃ s' e, replaceApp U c downloaded s = (s', .error e) ∧ s'.disk = s.disk.remove downloaded := by
  simp only [replaceApp, h.reads, hbody, if_pos h.differs, h.removes, Option.isNone_none, if_true]
  exact ⟨_, _, rfl, rfl⟩

theorem replaceApp_of_neither (hbody : s.disk downloaded = some body)
    (h : ¬ c.Replaces U body) (h' : ¬ c.Removes U body) :
    ∃ s' e, replaceApp U c downloaded s = (s', .error e) ∧ s'.disk = s.disk := by
  unfold replaceApp
  cases hread : U.fails .readFile with
  | some e =>
    rw [hbody]
    exact ⟨_, _, rfl, rfl⟩
  | none =>
    rw [hbody]
    dsimp only
    by_cases hdiffers : sha256Hex U body ≠ c.expected
    · rw [if_pos hdiffers]
      -- the removal fails, too
      have hremove : ¬ (U.fails .removeFile).isNone = true := fun hremove =>
        h' ⟨hread, hdiffers, Option.isNone_iff_eq_none.1 hremove⟩
      exact ⟨_, _, rfl, by rw [if_neg hremove]⟩
    · rw [if_neg hdiffers]
      rw [not_not] at hdiffers
      cases hpermit : U.fails .setPermissions with
      | some e => exact ⟨_, _, rfl, rfl⟩
      | none =>
        cases hreplace : U.fails .replaceFile with
        | some e => exact ⟨_, _, rfl, rfl⟩
        | none => exact absurd ⟨hread, hdiffers, hpermit, hreplace⟩ h

end Replace

/-! ## Atomicity -/

section Atomic

variable {useProxy : Bool} {s : St} {c : Choice}

/-- An upgrade that fails is atomic if the one file is as it was. -/
theorem atomic_of_error (hc : Chosen U s.disk c) {s' : St} {e : Str}
    (h : upgradeAppInner U useProxy s = (s', .error e)) :
    Atomic U useProxy s ↔ s'.disk c.appimage = s.disk c.appimage := by
  simp only [Atomic, h, hc.appimage, Option.mem_def, Option.some.injEq, forall_eq']
  exact ⟨And.left, fun heq => ⟨heq, heq ▸ hc.present⟩⟩

theorem write_eq_iff {disk : Disk} {p q : Path} {b : Bytes} :
    disk.write q b p = disk p ↔ (p = q → disk p = some b) := by
  by_cases h : p = q
  · rw [h, Disk.write_self]
    exact ⟨fun heq _ => heq.symm, fun heq => (heq rfl).symm⟩
  · rw [Disk.write_ne _ _ h]
    exact ⟨fun _ heq => absurd heq h, fun _ => rfl⟩

/-- With one answer in question. -/
theorem unharmed_iff (hchoose : choose U s.disk = .ok c) {r : Request} {rest : List Request}
    {chunks : List Bytes} {broken : Option Str}
    (hdrop : (requests (urls U.toEnv useProxy c.asset.browserDownloadUrl)).dropWhile
      (fun r => ! (U.net r).succeeds) = r :: rest)
    (hanswer : answer U.toEnv r = .ok (chunks, broken)) :
    Unharmed U useProxy s ↔
      (U.fails .createFile = none → c.Harmless U s.disk chunks broken) := by
  constructor
  · intro h hcreate
    exact h c hchoose hcreate r rest chunks broken hdrop hanswer
  · intro h c' hchoose' hcreate r' rest' chunks' broken' hdrop' hanswer'
    obtain rfl := Except.ok.inj (hchoose.symm.trans hchoose')
    obtain ⟨rfl, -⟩ := List.cons.inj (hdrop.symm.trans hdrop')
    obtain ⟨rfl, rfl⟩ := Prod.mk.inj (Except.ok.inj (hanswer.symm.trans hanswer'))
    exact h hcreate

/-- Of a package that got its name. -/
theorem atomic_of_named (hchoose : choose U s.disk = .ok c) {s₁ : St} {body : Bytes}
    (hdownload : downloadAsset U.toEnv c.asset.browserDownloadUrl c.asset.name c.dir useProxy s =
      (s₁, .ok c.destPath))
    (hdisk : s₁.disk = (s.disk.write c.tmpPath body).rename c.tmpPath c.destPath) :
    Atomic U useProxy s ↔ c.Replaces U body ∨ (c.appimage ≠ c.tmpPath ∧
      (c.appimage = c.destPath → s.disk c.appimage = some body ∧ ¬ c.Removes U body)) := by
  have hc := chosen_of_choose hchoose
  have hne := destPath_ne_tmpPath hc.package
  have hupgrade : upgradeAppInner U useProxy s = replaceApp U c c.destPath s₁ := by
    simp only [upgradeAppInner, hchoose, hdownload]
  have hbody : s₁.disk c.destPath = some body := by
    rw [hdisk, Disk.rename_target, Disk.write_self]
  by_cases hreplaces : c.Replaces U body
  · refine iff_of_true ?_ (.inl hreplaces)
    rw [replaceApp_of_replaces hbody hreplaces] at hupgrade
    simp only [Atomic, hupgrade, hc.appimage, Option.mem_def, Option.some.injEq, forall_eq',
      Disk.rename_target, hbody, exists_eq_left']
    rw [hreplaces.agrees]
    exact hc.published
  rw [or_iff_right hreplaces]
  -- the name with `.tmp` is gone
  have htmp : s₁.disk c.tmpPath = none := by rw [hdisk, Disk.rename_source _ hne.symm]
  have hother : c.appimage ≠ c.tmpPath → c.appimage ≠ c.destPath →
      s₁.disk c.appimage = s.disk c.appimage := fun htmp hdest => by
    rw [hdisk, Disk.rename_ne _ htmp hdest, Disk.write_ne _ _ htmp]
  have hpresent : s.disk c.appimage ≠ none := Option.isSome_iff_ne_none.1 hc.present
  by_cases hremoves : c.Removes U body
  · obtain ⟨s', e, hresult, hs'⟩ := replaceApp_of_removes hbody hremoves
    rw [atomic_of_error hc (hupgrade.trans hresult), hs']
    by_cases hdest : c.appimage = c.destPath
    · rw [hdest, Disk.remove_self, ← hdest]
      exact iff_of_false (fun h => hpresent h.symm) fun h => (h.2 rfl).2 hremoves
    · rw [Disk.remove_ne _ hdest]
      by_cases hname : c.appimage = c.tmpPath
      · rw [hname, htmp, ← hname]
        exact iff_of_false (fun h => hpresent h.symm) fun h => h.1 rfl
      · exact iff_of_true (hother hname hdest) ⟨hname, fun h => absurd h hdest⟩
  · obtain ⟨s', e, hresult, hs'⟩ := replaceApp_of_neither hbody hreplaces hremoves
    rw [atomic_of_error hc (hupgrade.trans hresult), hs']
    by_cases hname : c.appimage = c.tmpPath
    · rw [hname, htmp, ← hname]
      exact iff_of_false (fun h => hpresent h.symm) fun h => h.1 rfl
    by_cases hdest : c.appimage = c.destPath
    · rw [and_iff_right hname, hdest, hbody]
      exact ⟨fun h _ => ⟨h.symm, hremoves⟩, fun h => (h rfl).1.symm⟩
    · exact iff_of_true (hother hname hdest) ⟨hname, fun h => absurd h hdest⟩

variable (U useProxy s)

/-- An upgrade is atomic exactly if what it does under its two names does no harm. -/
theorem upgrade_atomic_iff : Atomic U useProxy s ↔ Unharmed U useProxy s := by
  rcases hchoose : choose U s.disk with result | c
  · refine iff_of_true ?_ fun c hc => by simp [hchoose] at hc
    have hupgrade : upgradeAppInner U useProxy s = (s, result) := by
      simp only [upgradeAppInner, hchoose]
    rcases of_choose_error hchoose with rfl | ⟨⟨e, rfl⟩, hthere⟩
    · simp only [Atomic, hupgrade]
    · simp only [Atomic, hupgrade]
      exact fun appimage happimage => ⟨trivial, hthere appimage happimage⟩
  have hc := chosen_of_choose hchoose
  have herror : ∀ s' e, downloadAsset U.toEnv c.asset.browserDownloadUrl c.asset.name c.dir
      useProxy s = (s', .error e) →
      (Atomic U useProxy s ↔ s'.disk c.appimage = s.disk c.appimage) := by
    intro s' e hdownload
    have hupgrade : upgradeAppInner U useProxy s = (s', .error e) := by
      simp only [upgradeAppInner, hchoose, hdownload]
    exact atomic_of_error hc hupgrade
  rcases downloadAsset_cases U.toEnv c.asset.browserDownloadUrl c.asset.name c.dir useProxy s with
    ⟨hall, s', e, hdownload, hdisk⟩ | ⟨r, rest, chunks, broken, hdrop, hanswer, s', hdisk, hdownload⟩
  · refine iff_of_true ((herror s' e hdownload).2 (by rw [hdisk])) ?_
    intro c' hc' hcreate r rest chunks broken hdrop hanswer
    obtain rfl := Except.ok.inj (hchoose.symm.trans hc')
    rw [List.dropWhile_eq_nil_iff.2 (by simpa using hall)] at hdrop
    cases hdrop
  rw [unharmed_iff hchoose hdrop hanswer]
  by_cases hcreate : U.fails .createFile = none
  · rw [forall_prop_of_true hcreate]
    by_cases harrives : Arrives U.toEnv 0 chunks broken
    · by_cases hrename : U.fails .renameFile = none
      · -- the package gets its name
        rw [save_of_arrives hcreate harrives hrename] at hdisk hdownload
        rw [atomic_of_named hchoose hdownload hdisk]
        exact ⟨fun h => ⟨fun h' => absurd harrives h', fun _ h' => absurd hrename h', fun _ _ => h⟩,
          fun h => h.named harrives hrename⟩
      · obtain ⟨e, hsave⟩ := save_of_not_renamed hcreate harrives hrename
        rw [hsave] at hdisk hdownload
        rw [herror s' e hdownload, hdisk, write_eq_iff]
        exact ⟨fun h => ⟨fun h' => absurd harrives h', fun _ _ => h, fun _ h' => absurd h' hrename⟩,
          fun h => h.unnamed harrives hrename⟩
    · obtain ⟨e, hsave⟩ := save_of_not_arrives _ _ _ hcreate harrives
      rw [hsave] at hdisk hdownload
      rw [herror s' e hdownload, hdisk, write_eq_iff]
      exact ⟨fun h => ⟨fun _ => h, fun h' => absurd h' harrives, fun h' => absurd h' harrives⟩,
        fun h => h.cut harrives⟩
  · obtain ⟨e, hsave⟩ := save_of_not_created hcreate
    rw [hsave] at hdisk hdownload
    exact iff_of_true ((herror s' e hdownload).2 (by rw [hdisk])) fun h => absurd h hcreate

end Atomic

/-! ### A package of the same name -/

def packageName : Str := "homeTier-linux-x86_64-1.0.0.AppImage".toList

def sameRelease : GitHubRelease where
  tagName := "v1.0.0".toList
  assets := [⟨packageName, "https://h/app".toList⟩,
    ⟨"checksums.txt".toList, "https://h/checksums.txt".toList⟩]

def releaseText : Str :=
  ("\x7b\"tag_name\":\"v1.0.0\",\"assets\":[\x7b\"name\":" ++
    "\"homeTier-linux-x86_64-1.0.0.AppImage\",\"browser_download_url\":\"https://h/app\"\x7d," ++
    "\x7b\"name\":\"checksums.txt\",\"browser_download_url\":\"https://h/checksums.txt\"\x7d]\x7d").toList

/-- The digest of the two bytes that are downloaded. -/
def digest : Bytes :=
  [0x8f, 0x43, 0x43, 0x46, 0x64, 0x8f, 0x6b, 0x96, 0xdf, 0x89, 0xdd, 0xa9,
    0x01, 0xc5, 0x17, 0x6b, 0x10, 0xa6, 0xd8, 0x39, 0x61, 0xdd, 0x3c, 0x1a,
    0xc8, 0x8b, 0x59, 0xb2, 0xdc, 0x32, 0x7a, 0xa4]

/-- An AppImage with the name of the release, and a package that is not the published one. -/
def sameName : Setting where
  toEnv := soundEnv fun _ => .answered Download.ok [[104, 105]] none
  linux := true
  appimage := some ["opt".toList, packageName]
  arch := "x86_64".toList
  text := fun url =>
    .answered Download.ok (.ok (if url = releaseLatestUrl then releaseText
      else "00  ".toList ++ packageName))
  parseRelease := fun _ => .ok sameRelease
  sha256 := fun _ => digest
  toLowercase := id

def running : St where
  disk := fun p => if p = ["opt".toList, packageName] then some [1] else none
  asked := []
  installed := none

/-- The choice there. -/
def sameChoice : Choice where
  appimage := ["opt".toList, packageName]
  asset := ⟨packageName, "https://h/app".toList⟩
  expected := "00".toList

theorem choose_sameName : choose sameName running.disk = .ok sameChoice := rfl

/-- The check fails, and the AppImage that runs is removed. -/
theorem failed_check_removes_app : ¬ ∀ U useProxy s, Atomic U useProxy s := by
  intro h
  obtain ⟨s₁, hdownload, hdisk⟩ : ∃ s₁, downloadAsset sameName.toEnv
      sameChoice.asset.browserDownloadUrl packageName sameChoice.dir false running =
        (s₁, .ok sameChoice.destPath) ∧
      s₁.disk = (running.disk.write sameChoice.tmpPath [104, 105]).rename sameChoice.tmpPath
        sameChoice.destPath := ⟨_, rfl, rfl⟩
  have hdiffers : sha256Hex sameName [104, 105] ≠ sameChoice.expected := by decide
  rcases (atomic_of_named choose_sameName hdownload hdisk).1 (h _ _ _) with hreplaces | ⟨-, hsame⟩
  · exact hdiffers hreplaces.agrees
  · exact (hsame rfl).2 ⟨rfl, hdiffers, rfl⟩

end Upgrade

end HomeTier.AppUpgrade
