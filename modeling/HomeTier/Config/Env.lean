import HomeTier.Lib.Entries
import HomeTier.Lib.Lines

/-! # Settings files

`parse_env`, `render_from_template` and `build_template` of
`src-tauri/src/config/mod.rs`: lines `KEY=VALUE` with comments, blanks around
keys and values, and quotes around a value. A key that comes twice counts as the
last. A value is written as it is, and what is read back is the value without
blanks and quotes at its ends (`get_render`, `get_build`).
-/

namespace HomeTier

open Lib

abbrev EnvMap := Map Str Str

/-- A value in quotes of one kind. -/
def isQuoted (value : Str) : Bool :=
  2 ≤ (utf8 value).length &&
    (value.head? == some '"' && value.getLast? == some '"' ||
      value.head? == some '\'' && value.getLast? == some '\'')

def unquote (value : Str) : Str := if isQuoted value then value.tail.dropLast else value

/-- The key and the value of a line. -/
def parseLine (line : Str) : Option (Str × Str) :=
  let line := trim line
  if line = [] ∨ line.head? = some '#' then none
  else
    match cutAt '=' line with
    | (_, none) => none
    | (before, some after) =>
      let key := trim before
      if key = [] then none else some (key, unquote (trim after))

/-- `parse_env` -/
def parseEnv (content : Str) : EnvMap :=
  (lines content).foldl (fun map line =>
    match parseLine line with
    | some (key, value) => AList.insert key value map
    | none => map) ∅

/-- The key of a line of the template. -/
def lineKey (line : Str) : Option Str :=
  if trim line = [] ∨ (trim line).head? = some '#' then none
  else
    match cutAt '=' line with
    | (_, none) => none
    | (before, some _) => if trim before = [] then none else some (trim before)

/-- `format!("{}={}", k, v)` -/
def envLine (key value : Str) : Str := key ++ '=' :: value

/-- A line of the template, with the value of its key where there is one. -/
def renderLine (map : EnvMap) (line : Str) : Str :=
  match lineKey line with
  | none => line
  | some key =>
    match map.get key with
    | some v => envLine key v
    | none => line

/-- `render_from_template`; `order` lists the map as it is iterated over. -/
def renderFromTemplate (template : Str) (map : EnvMap) (order : List (Str × Str)) : Str :=
  let seen := (lines template).filterMap lineKey
  unlines ((lines template).map (renderLine map)) ++
    unlines ((order.filter fun e => !seen.contains e.1).map fun e => envLine e.1 e.2)

/-- `push_key` -/
def pushKey (map : EnvMap) (key desc default enumNote : Str) : List Str :=
  ["# ".toList ++ desc ++ "（默认值: ".toList ++ default ++ "；".toList ++ enumNote ++ "）".toList,
    envLine key ((map.get key).getD default), []]

/-- What `build_template` pushes: a line, or a key with `push_key`. -/
inductive BuiltItem where
  | line (text : Str)
  | key (k desc default enumNote : Str)

def BuiltItem.lines (map : EnvMap) : BuiltItem → List Str
  | .line text => [text]
  | .key k desc default enumNote => pushKey map k desc default enumNote

def builtItems : List BuiltItem :=
  [.line "# homeTier 应用配置文件".toList,
    .line "# 修改保存后热更新生效（自动检测，无需重启）。".toList,
    .line "# 优先级：配置文件 > 数据库设置 > 内置默认值。".toList,
    .line [],
    .line "# ===== 端口类配置 =====（修改后下次 daemon 启动生效）".toList,
    .key "DAEMON_IPC_PORT".toList "homeTier daemon IPC 端口".toList "15889".toList
      "整数，1-65535".toList,
    .key "EASYTIER_RPC_PORT".toList "easytier-core RPC 端口".toList "15888".toList
      "整数，1-65535".toList,
    .line [],
    .line "# ===== 网络配置 =====（修改后下次使用生效）".toList,
    .key "FILE_SERVER_PORT_BASE".toList
      "文件服务器端口基数（实际端口 = 基数 + space_id % 1000）".toList "19000".toList
      "整数，建议 1024-65535".toList,
    .key "DEFAULT_SPACE_IP".toList "新建空间的默认虚拟 IPv4 地址".toList "10.144.144.10".toList
      "IPv4 地址".toList,
    .line [],
    .line "# ===== 更新与下载配置 =====（修改后下次使用生效）".toList,
    .key "GITHUB_API".toList "EasyTier GitHub Releases API 地址".toList
      "https://api.github.com/repos/EasyTier/EasyTier/releases".toList "URL".toList,
    .key "GITHUB_MIRROR".toList "下载镜像前缀（留空则直连 GitHub）".toList
      "https://ghproxy.top".toList "URL，可为空".toList,
    .line [],
    .line "# ===== 业务配置 =====（立即生效）".toList,
    .key "RELAY_NETWORK_PREFIX".toList "中继网络前缀（配合 EasyTier 转发白名单）".toList
      "homeTier_".toList "字符串".toList,
    .key "SHARE_LINK_SECRET".toList
      "分享链接加密密钥种子（修改后新生成链接生效，旧链接将无法解析）".toList
      "homeTier-qr-v1".toList "字符串".toList,
    .key "LOG_ENABLED".toList "日志开关".toList "1".toList "枚举：1=开启，0=关闭".toList]

/-- `build_template`, where the last line is empty and ends the text. -/
def buildTemplate (map : EnvMap) : Str :=
  List.intercalate ['\n'] (builtItems.flatMap (·.lines map) ++ [[]])

/-- A key of `build_template`, with the value where it is not set. -/
def BuiltItem.keyDefault? : BuiltItem → Option (Str × Str)
  | .line _ => none
  | .key k _ default _ => some (k, default)

def builtKeys : List (Str × Str) := builtItems.filterMap (·.keyDefault?)

/-! ## Lines -/

/-- What is read back of a value. -/
def norm (value : Str) : Str := unquote (trim value)

/-- What comes before `=` gives the line no entry. -/
def NoKey (before : Str) : Prop := trim before = [] ∨ (trim before).head? = some '#'

theorem isWhitespace_equals : isWhitespace '=' = false := by decide

variable {s k a : Str}

/-- The key of a line is what stands before the first `=`. -/
theorem trim_line_skips_iff (b : Str) :
    (trim (a ++ '=' :: b) = [] ∨ (trim (a ++ '=' :: b)).head? = some '#' ∨ trim a = []) ↔
      NoKey a := by
  rw [trim_append_cons isWhitespace_equals, NoKey, trim_head?]
  cases ha : a.dropWhile isWhitespace with
  | nil =>
    have htrim : trim a = [] := by
      rw [trim, ha]
      rfl
    simp [htrim]
  | cons c r =>
    have htrim : trim a ≠ [] := by
      intro h
      have hhead := trim_head? a
      rw [h, ha] at hhead
      cases hhead
    simp [htrim]

theorem notMem_dropWhile {c : Char} (h : c ∉ a) : c ∉ a.dropWhile isWhitespace :=
  fun hmem => h ((List.dropWhile_suffix _).subset hmem)

theorem lineKey_cut (ha : '=' ∉ a) (b : Str) : (NoKey a → lineKey (a ++ '=' :: b) = none) ∧
      (¬ NoKey a → lineKey (a ++ '=' :: b) = some (trim a)) := by
  rw [← trim_line_skips_iff b]
  unfold lineKey
  rw [cutAt_append ha]
  constructor
  · rintro (h | h | h)
    · rw [if_pos (Or.inl h)]
    · rw [if_pos (Or.inr h)]
    · show (if _ then none else if trim a = [] then none else some (trim a)) = none
      rw [if_pos h, ite_self]
  · intro h
    rw [not_or, not_or] at h
    rw [if_neg (not_or.2 ⟨h.1, h.2.1⟩)]
    exact if_neg h.2.2

theorem parseLine_cut (ha : '=' ∉ a) (b : Str) : (NoKey a → parseLine (a ++ '=' :: b) = none) ∧
      (¬ NoKey a → parseLine (a ++ '=' :: b) = some (trim a, norm b)) := by
  have hcut : cutAt '=' (trim (a ++ '=' :: b)) =
      (a.dropWhile isWhitespace, some (b.rdropWhile isWhitespace)) := by
    rw [trim_append_cons isWhitespace_equals, cutAt_append (notMem_dropWhile ha)]
  rw [← trim_line_skips_iff b]
  unfold parseLine
  simp only [hcut, trim_dropWhile, trim_rdropWhile]
  constructor
  · rintro (h | h | h)
    · rw [if_pos (Or.inl h)]
    · rw [if_pos (Or.inr h)]
    · rw [if_pos h, ite_self]
  · intro h
    rw [not_or, not_or] at h
    rw [if_neg (not_or.2 ⟨h.1, h.2.1⟩)]
    exact if_neg h.2.2

theorem line_of_notMem {line : Str} (h : '=' ∉ line) :
    lineKey line = none ∧ parseLine line = none := by
  have htrim : '=' ∉ trim line := fun hmem => h (mem_of_mem_trim hmem)
  unfold lineKey parseLine
  simp only [cutAt_of_notMem h, cutAt_of_notMem htrim, ite_self, and_self]

/-- A line has a key and a value, or neither. -/
theorem line_cases (line : Str) :
    (lineKey line = none ∧ parseLine line = none) ∨
      ∃ a b, '=' ∉ a ∧ line = a ++ '=' :: b ∧ ¬ NoKey a ∧ lineKey line = some (trim a) ∧
        parseLine line = some (trim a, norm b) := by
  by_cases h : '=' ∈ line
  · rcases List.eq_append_cons_of_mem h with ⟨a, b, rfl, ha⟩
    by_cases hkey : NoKey a
    · exact Or.inl ⟨(lineKey_cut ha b).1 hkey, (parseLine_cut ha b).1 hkey⟩
    · exact Or.inr ⟨a, b, ha, rfl, hkey, (lineKey_cut ha b).2 hkey, (parseLine_cut ha b).2 hkey⟩
  · exact Or.inl (line_of_notMem h)

theorem lineKey_eq (line : Str) : lineKey line = (parseLine line).map (·.1) := by
  rcases line_cases line with ⟨hkey, hparse⟩ | ⟨a, b, -, -, -, hkey, hparse⟩
  · rw [hkey, hparse]
    rfl
  · rw [hkey, hparse]
    rfl

theorem parseLine_stripReturn (line : Str) : parseLine (stripReturn line) = parseLine line := by
  have htrim : trim (stripReturn line) = trim line := by
    unfold stripReturn
    split
    · next h =>
      rcases List.getLast?_eq_some_iff.1 h with ⟨l, rfl⟩
      have hreturn : isWhitespace '\r' = true := by decide
      rw [List.dropLast_concat, ← trim_rdropWhile (l ++ ['\r']),
        List.rdropWhile_concat_pos _ _ _ hreturn, trim_rdropWhile]
    · rfl
  unfold parseLine
  rw [htrim]

/-! ## Keys and values -/

/-- A key that a line can have. -/
structure IsKey (key : Str) : Prop where
  equals : '=' ∉ key
  newline : '\n' ∉ key
  named : ¬ NoKey key

theorem parseLine_envLine {key : Str} (h : IsKey key) (value : Str) :
    parseLine (envLine key value) = some (trim key, norm value) :=
  (parseLine_cut h.equals value).2 h.named

theorem mem_of_mem_norm {c : Char} {value : Str} (h : c ∈ norm value) : c ∈ value := by
  apply mem_of_mem_trim
  unfold norm unquote at h
  split at h
  · exact List.mem_of_mem_tail ((List.dropLast_sublist _).subset h)
  · exact h

/-- What a line has for a key is a key, without blanks at its ends. -/
theorem isKey_of_parseLine {line key value : Str} (hline : '\n' ∉ line)
    (h : parseLine line = some (key, value)) :
    IsKey key ∧ trim key = key ∧ '\n' ∉ value := by
  rcases line_cases line with ⟨-, hnone⟩ | ⟨a, b, ha, rfl, hnamed, -, hsome⟩
  · rw [hnone] at h
    cases h
  · rw [hsome] at h
    cases h
    rw [List.mem_append, not_or, List.mem_cons, not_or] at hline
    refine ⟨⟨fun hmem => ha (mem_of_mem_trim hmem), fun hmem => hline.1 (mem_of_mem_trim hmem), ?_⟩,
      trim_trim a, fun hmem => hline.2.2 (mem_of_mem_norm hmem)⟩
    unfold NoKey
    rw [trim_trim]
    exact hnamed

theorem length_trim_le (s : Str) : (trim s).length ≤ s.length :=
  (List.rdropWhile_prefix _ _).length_le.trans (List.dropWhile_suffix _).length_le

/-- A value is read back as it is if it has no blanks and no quotes at its ends. -/
theorem norm_eq_self_iff (value : Str) :
    norm value = value ↔ trim value = value ∧ isQuoted value = false := by
  constructor
  · intro h
    cases hquoted : isQuoted (trim value) with
    | true =>
      -- the quotes would be missing
      have hne : trim value ≠ [] := by
        intro hnil
        rw [hnil] at hquoted
        revert hquoted
        decide
      have hlength := congrArg List.length h
      rw [norm, unquote, if_pos hquoted, List.length_dropLast, List.length_tail] at hlength
      have hpos := List.length_pos_of_ne_nil hne
      have hle := length_trim_le value
      omega
    | false =>
      have htrim : trim value = value := by
        rw [norm, unquote, hquoted] at h
        exact h
      rw [htrim] at hquoted
      exact ⟨htrim, hquoted⟩
  · rintro ⟨htrim, hquoted⟩
    rw [norm, htrim, unquote, hquoted]
    rfl

/-! ## Reading a text -/

/-- The entries of a text, in order. -/
def entries (content : Str) : List (Str × Str) := (lines content).filterMap parseLine

/-- The last entry of a key counts. -/
theorem get_foldl_insert (es : List (Str × Str)) (m : EnvMap) (k : Str) :
    Map.get (es.foldl (fun map e => AList.insert e.1 e.2 map) m) k =
      (es.reverse.lookup k).or (m.get k) := by
  induction es generalizing m with
  | nil => rfl
  | cons e es ih =>
    rcases e with ⟨key, v⟩
    rw [List.foldl_cons, ih, List.reverse_cons, List.lookup_append, Option.or_assoc,
      lookup_cons_eq]
    by_cases hk : k = key
    · subst hk
      rw [Map.get_insert_self, if_pos rfl, Option.some_or]
    · have hother : Map.get (AList.insert key v m) k = m.get k := AList.lookup_insert_ne hk
      rw [hother, if_neg hk, List.lookup_nil, Option.none_or]

theorem parseEnv_eq (content : Str) :
    parseEnv content = (entries content).foldl (fun map e => AList.insert e.1 e.2 map) ∅ := by
  rw [parseEnv, entries, List.foldl_filterMap]
  congr 1
  funext map line
  cases parseLine line <;> rfl

theorem get_parseEnv (content k : Str) :
    (parseEnv content).get k = (entries content).reverse.lookup k := by
  rw [parseEnv_eq, get_foldl_insert]
  exact Option.or_none

/-- What is read has keys, and values on one line. -/
theorem isKey_of_get {content k v : Str} (h : (parseEnv content).get k = some v) :
    IsKey k ∧ trim k = k ∧ '\n' ∉ v := by
  rw [get_parseEnv] at h
  have hmem : (k, v) ∈ entries content := List.mem_reverse.1 (mem_of_lookup h)
  rcases List.mem_filterMap.1 hmem with ⟨line, hline, hparse⟩
  exact isKey_of_parseLine (newline_notMem_of_mem_lines hline) hparse

theorem entries_unlines_append {ls : List Str} (h : ∀ l ∈ ls, '\n' ∉ l) (s : Str) :
    entries (unlines ls ++ s) = ls.filterMap parseLine ++ entries s := by
  have hlines : ((ls.flatMap fun l => (l.splitOn '\n').map stripReturn).filterMap parseLine) =
      ls.filterMap parseLine := by
    induction ls with
    | nil => rfl
    | cons l ls ih =>
      rw [List.forall_mem_cons] at h
      rw [List.flatMap_cons, List.filterMap_append, ih h.2, List.splitOn_eq_singleton h.1,
        List.map_singleton, List.filterMap_cons, List.filterMap_cons, parseLine_stripReturn]
      cases parseLine l <;> rfl
  rw [entries, lines_unlines_append, List.filterMap_append, hlines, entries]

theorem entries_unlines {ls : List Str} (h : ∀ l ∈ ls, '\n' ∉ l) :
    entries (unlines ls) = ls.filterMap parseLine := by
  have happend := entries_unlines_append h []
  have hnil : entries [] = [] := rfl
  rwa [List.append_nil, hnil, List.append_nil] at happend

/-! ## Writing a text -/

/-- The entries of a map, in some order. -/
def listing (map : EnvMap) : List (Str × Str) := map.entries.map fun e => (e.1, e.2)

/-- The order in which a map is iterated over is any. -/
def Enumerates (map : EnvMap) (order : List (Str × Str)) : Prop := order.Perm (listing map)

variable {map : EnvMap}

theorem mem_of_enumerates {order : List (Str × Str)} (h : Enumerates map order) (k v : Str) :
    (k, v) ∈ order ↔ map.get k = some v := by
  rw [h.mem_iff, listing, List.mem_map]
  constructor
  · rintro ⟨e, he, heq⟩
    cases heq
    exact AList.mem_lookup_iff.2 he
  · intro hget
    exact ⟨⟨k, v⟩, AList.mem_lookup_iff.1 hget, rfl⟩

/-- The keys of a map can be written without blanks, and its values on one line. -/
def Writable (map : EnvMap) : Prop :=
  ∀ k v, map.get k = some v → IsKey k ∧ trim k = k ∧ '\n' ∉ v

theorem newline_notMem_envLine {k v : Str} (hk : '\n' ∉ k) (hv : '\n' ∉ v) :
    '\n' ∉ envLine k v := by
  have hequals : ('\n' : Char) ≠ '=' := by decide
  rw [envLine, List.mem_append, List.mem_cons]
  rintro (h | h | h)
  · exact hk h
  · exact hequals h
  · exact hv h

/-- What a line of the template becomes. -/
def replaced (map : EnvMap) (e : Str × Str) : Str × Str :=
  (e.1, ((map.get e.1).map norm).getD e.2)

theorem renderLine_spec (hmap : Writable map) {line : Str} (hline : '\n' ∉ line) :
    '\n' ∉ renderLine map line ∧
      parseLine (renderLine map line) = (parseLine line).map (replaced map) := by
  rcases line_cases line with ⟨hkey, hparse⟩ | ⟨a, b, -, -, -, hkey, hparse⟩
  · have hrender : renderLine map line = line := by simp only [renderLine, hkey]
    rw [hrender, hparse]
    exact ⟨hline, rfl⟩
  · cases hget : map.get (trim a) with
    | none =>
      have hrender : renderLine map line = line := by simp only [renderLine, hkey, hget]
      rw [hrender, hparse, Option.map_some, replaced, hget]
      exact ⟨hline, rfl⟩
    | some v =>
      have hrender : renderLine map line = envLine (trim a) v := by
        simp only [renderLine, hkey, hget]
      rcases hmap _ _ hget with ⟨hisKey, htrim, hnewline⟩
      rw [hrender, hparse, Option.map_some, replaced, hget, parseLine_envLine hisKey, htrim]
      exact ⟨newline_notMem_envLine hisKey.newline hnewline, rfl⟩

theorem filterMap_eq_map_of {α β : Type} {f : α → Option β} {g : α → β} {l : List α}
    (h : ∀ x ∈ l, f x = some (g x)) : l.filterMap f = l.map g := by
  induction l with
  | nil => rfl
  | cons x l ih =>
    rw [List.forall_mem_cons] at h
    rw [List.filterMap_cons, h.1, ih h.2, List.map_cons]

theorem entries_render {order : List (Str × Str)} (hmap : Writable map)
    (horder : Enumerates map order) (template : Str) :
    entries (renderFromTemplate template map order) =
      (entries template).map (replaced map) ++
        (order.filter (·.1 ∉ (entries template).map (·.1))).map fun e => (e.1, norm e.2) := by
  have hseen : (lines template).filterMap lineKey = (entries template).map (·.1) := by
    rw [entries, List.map_filterMap]
    exact congrArg (List.filterMap · (lines template)) (funext lineKey_eq)
  have hkept : ∀ l ∈ (lines template).map (renderLine map), '\n' ∉ l := by
    intro l hl
    rcases List.mem_map.1 hl with ⟨line, hline, rfl⟩
    exact (renderLine_spec hmap (newline_notMem_of_mem_lines hline)).1
  have hentry : ∀ e ∈ order, IsKey e.1 ∧ trim e.1 = e.1 ∧ '\n' ∉ e.2 := by
    intro e he
    exact hmap _ _ ((mem_of_enumerates horder e.1 e.2).1 he)
  have hadded : ∀ l ∈ (order.filter (·.1 ∉ (entries template).map (·.1))).map
      (fun e => envLine e.1 e.2), '\n' ∉ l := by
    intro l hl
    rcases List.mem_map.1 hl with ⟨e, he, rfl⟩
    rcases hentry e (List.mem_of_mem_filter he) with ⟨hkey, -, hnewline⟩
    exact newline_notMem_envLine hkey.newline hnewline
  have hnew : (order.filter fun e => !((entries template).map (·.1)).contains e.1) =
      order.filter (·.1 ∉ (entries template).map (·.1)) := by
    refine List.filter_congr fun e _ => ?_
    simp
  rw [renderFromTemplate, hseen, hnew, entries_unlines_append hkept, entries_unlines hadded]
  congr 1
  · -- the lines of the template
    rw [List.filterMap_map, entries, List.map_filterMap]
    apply List.filterMap_congr
    intro line hline
    exact (renderLine_spec hmap (newline_notMem_of_mem_lines hline)).2
  · -- the keys it does not have
    rw [List.filterMap_map]
    apply filterMap_eq_map_of
    intro e he
    rcases hentry e (List.mem_of_mem_filter he) with ⟨hkey, htrim, -⟩
    show parseLine (envLine e.1 e.2) = some (e.1, norm e.2)
    rw [parseLine_envLine hkey, htrim]

theorem lookup_eq_some_of_all {l : List (Str × Str)} {k x : Str} (hex : ∃ e ∈ l, e.1 = k)
    (hall : ∀ e ∈ l, e.1 = k → e.2 = x) : l.lookup k = some x := by
  cases h : l.lookup k with
  | none =>
    rcases hex with ⟨e, he, rfl⟩
    have hne := List.lookup_eq_none_iff.1 h e he
    simp at hne
  | some y => exact congrArg some (hall (k, y) (mem_of_lookup h) rfl)

theorem lookup_map_of_key {l : List (Str × Str)} {f : Str × Str → Str × Str}
    (h : ∀ e ∈ l, (f e).1 = e.1 ∧ (e.1 = k → (f e).2 = e.2)) :
    (l.map f).lookup k = l.lookup k := by
  induction l with
  | nil => rfl
  | cons e l ih =>
    rw [List.forall_mem_cons] at h
    rcases e with ⟨key, v⟩
    have hf : f (key, v) = (key, (f (key, v)).2) := Prod.ext h.1.1 rfl
    rw [List.map_cons, hf, lookup_cons_eq, lookup_cons_eq, ih h.2]
    split
    · next hk => exact congrArg some (h.1.2 hk.symm)
    · rfl

/-- What is read of a template with values put in: the values of the map as they
can be read, and the template's own. -/
theorem get_render {order : List (Str × Str)} (hmap : Writable map)
    (horder : Enumerates map order) (template k : Str) :
    (parseEnv (renderFromTemplate template map order)).get k =
      ((map.get k).map norm).or ((parseEnv template).get k) := by
  rw [get_parseEnv, get_parseEnv, entries_render hmap horder, List.reverse_append,
    List.lookup_append, ← List.map_reverse, ← List.map_reverse]
  cases hget : map.get k with
  | none =>
    have hadded : ((order.filter (·.1 ∉ (entries template).map (·.1))).reverse.map
        fun e => (e.1, norm e.2)).lookup k = none := by
      apply lookup_eq_none
      intro hmem
      rcases List.mem_map.1 hmem with ⟨e', he', rfl⟩
      rcases List.mem_map.1 he' with ⟨e, he, rfl⟩
      have horder' := (mem_of_enumerates horder e.1 e.2).1 (List.mem_of_mem_filter (List.mem_reverse.1 he))
      rw [hget] at horder'
      cases horder'
    rw [hadded, Option.none_or, Option.map_none, Option.none_or]
    apply lookup_map_of_key
    intro e _
    refine ⟨rfl, ?_⟩
    rintro rfl
    rw [replaced, hget]
    rfl
  | some v =>
    rw [Option.map_some, Option.some_or]
    by_cases hseen : k ∈ (entries template).map (·.1)
    · -- the template has the key
      have hadded : ((order.filter (·.1 ∉ (entries template).map (·.1))).reverse.map
          fun e => (e.1, norm e.2)).lookup k = none := by
        apply lookup_eq_none
        intro hmem
        rcases List.mem_map.1 hmem with ⟨e', he', rfl⟩
        rcases List.mem_map.1 he' with ⟨e, he, rfl⟩
        have hnew := List.of_mem_filter (List.mem_reverse.1 he)
        exact absurd hseen (by simpa using hnew)
      rw [hadded, Option.none_or]
      rcases List.mem_map.1 hseen with ⟨e, he, rfl⟩
      apply lookup_eq_some_of_all
      · exact ⟨_, List.mem_map_of_mem (List.mem_reverse.2 he), rfl⟩
      · intro e' he' hkey
        rcases List.mem_map.1 he' with ⟨e₀, -, rfl⟩
        have hkey' : e₀.1 = e.1 := hkey
        rw [replaced, hkey', hget]
        rfl
    · have hadded : ((order.filter (·.1 ∉ (entries template).map (·.1))).reverse.map
          fun e => (e.1, norm e.2)).lookup k = some (norm v) := by
        apply lookup_eq_some_of_all
        · refine ⟨(k, norm v), List.mem_map.2 ⟨(k, v), ?_, rfl⟩, rfl⟩
          rw [List.mem_reverse, List.mem_filter]
          exact ⟨(mem_of_enumerates horder k v).2 hget, by simpa using hseen⟩
        · intro e' he' hkey
          rcases List.mem_map.1 he' with ⟨e, he, rfl⟩
          obtain rfl : e.1 = k := hkey
          have hvalue := (mem_of_enumerates horder e.1 e.2).1 (List.mem_of_mem_filter (List.mem_reverse.1 he))
          rw [hget] at hvalue
          cases hvalue
          rfl
      rw [hadded, Option.some_or]

/-! ## The built-in template -/

/-- A text of letters, digits and the like. -/
def plainText (s : Str) : Bool :=
  s ≠ [] && s.all fun c => !isWhitespace c && !(['=', '#', '"', '\''].contains c)

theorem plainText_spec (h : plainText s = true) :
    s ≠ [] ∧ ∀ c ∈ s, isWhitespace c = false ∧ c ∉ ['=', '#', '"', '\''] := by
  simpa [plainText] using h

theorem newline_notMem_of_plainText (h : plainText s = true) : '\n' ∉ s := by
  intro hmem
  have hspace := ((plainText_spec h).2 _ hmem).1
  revert hspace
  decide

theorem norm_of_plainText (h : plainText s = true) : norm s = s := by
  rcases plainText_spec h with ⟨-, hall⟩
  refine (norm_eq_self_iff s).2 ⟨trim_eq_self fun c hc => (hall c hc).1, ?_⟩
  have hhead : ∀ c, c ∈ ['=', '#', '"', '\''] → s.head? ≠ some c := by
    intro c hc hs
    exact (hall c (List.mem_of_mem_head? hs)).2 hc
  simp [isQuoted, hhead '"' (by simp), hhead '\'' (by simp)]

theorem isKey_of_plainText (h : plainText s = true) : IsKey s ∧ trim s = s := by
  rcases plainText_spec h with ⟨hne, hall⟩
  have htrim : trim s = s := trim_eq_self fun c hc => (hall c hc).1
  refine ⟨⟨fun hmem => (hall _ hmem).2 (by simp), newline_notMem_of_plainText h, ?_⟩, htrim⟩
  rw [NoKey, htrim]
  rintro (hnil | hhead)
  · exact hne hnil
  · exact (hall _ (List.mem_of_mem_head? hhead)).2 (by simp)

/-- Comments and blank lines, and keys that can be read. -/
def BuiltItem.Ok : BuiltItem → Prop
  | .line text => '\n' ∉ text ∧ (text = [] ∨ text.head? = some '#')
  | .key k desc default enumNote =>
    plainText k = true ∧ '\n' ∉ desc ∧ plainText default = true ∧ '\n' ∉ enumNote

theorem parseLine_comment (s : Str) : parseLine ('#' :: s) = none := by
  have hhash : isWhitespace '#' = false := by decide
  have htrim : trim ('#' :: s) = '#' :: s.rdropWhile isWhitespace :=
    trim_append_cons hhash [] s
  unfold parseLine
  simp only [htrim]
  exact if_pos (Or.inr rfl)

theorem parseLine_nil : parseLine [] = none := rfl

theorem pushKey_comment (k desc default enumNote : Str) (map : EnvMap) :
    ∃ s, pushKey map k desc default enumNote =
      ['#' :: s, envLine k ((map.get k).getD default), []] ∧
      ('\n' ∉ desc → '\n' ∉ default → '\n' ∉ enumNote → '\n' ∉ s) := by
  refine ⟨" ".toList ++ desc ++ "（默认值: ".toList ++ default ++ "；".toList ++ enumNote ++
    "）".toList, ?_, ?_⟩
  · rfl
  · intro hdesc hdefault hnote
    simp [hdesc, hdefault, hnote]

/-- The lines of an item and its entries. -/
theorem BuiltItem.spec (hmap : Writable map) {i : BuiltItem} (h : i.Ok) :
    (∀ l ∈ i.lines map, '\n' ∉ l) ∧
      (i.lines map).filterMap parseLine =
        (i.keyDefault?.map fun e => (e.1, norm ((map.get e.1).getD e.2))).toList := by
  cases i with
  | line text =>
    rcases h with ⟨hnewline, hcomment⟩
    refine ⟨by simpa [BuiltItem.lines] using hnewline, ?_⟩
    have hparse : parseLine text = none := by
      rcases hcomment with rfl | hhead
      · exact parseLine_nil
      · rcases List.head?_eq_some_iff.1 hhead with ⟨s, rfl⟩
        exact parseLine_comment s
    rw [BuiltItem.lines, List.filterMap_cons, hparse]
    rfl
  | key k desc default enumNote =>
    rcases h with ⟨hkey, hdesc, hdefault, hnote⟩
    rcases isKey_of_plainText hkey with ⟨hisKey, htrim⟩
    rcases pushKey_comment k desc default enumNote map with ⟨s, hlines, hs⟩
    have hvalue : '\n' ∉ (map.get k).getD default := by
      cases hget : map.get k with
      | none => exact newline_notMem_of_plainText hdefault
      | some v => exact (hmap _ _ hget).2.2
    have hcomment := hs hdesc (newline_notMem_of_plainText hdefault) hnote
    show (∀ l ∈ pushKey map k desc default enumNote, _) ∧
      (pushKey map k desc default enumNote).filterMap parseLine = _
    rw [hlines]
    constructor
    · simp only [List.forall_mem_cons]
      exact ⟨by simpa using hcomment, newline_notMem_envLine hisKey.newline hvalue, by simp,
        by simp⟩
    · rw [List.filterMap_cons, parseLine_comment, List.filterMap_cons, parseLine_envLine hisKey,
        List.filterMap_cons, parseLine_nil, htrim]
      rfl

theorem intercalate_concat_nil (ls : List Str) :
    List.intercalate ['\n'] (ls ++ [[]]) = unlines ls := by
  induction ls with
  | nil => rfl
  | cons l ls ih =>
    have hne : ls ++ [[]] ≠ [] := by simp
    rw [List.cons_append, List.intercalate_cons_of_ne_nil hne, ih]
    simp [unlines]

/-- No line break in a text. -/
def oneLine (s : Str) : Bool := s.all (· != '\n')

theorem newline_notMem_of_oneLine (h : oneLine s = true) : '\n' ∉ s := by
  intro hmem
  have hne := List.all_eq_true.1 h _ hmem
  simp at hne

theorem ok_comment {text : String} (htext : text = String.ofList ('#' :: s))
    (h : oneLine s = true) : (BuiltItem.line text.toList).Ok := by
  rw [htext, String.toList_ofList]
  refine ⟨?_, Or.inr rfl⟩
  rw [List.mem_cons, not_or]
  exact ⟨by decide, newline_notMem_of_oneLine h⟩

theorem ok_blank : (BuiltItem.line []).Ok := ⟨List.not_mem_nil, Or.inl rfl⟩

theorem ok_key {key desc default enumNote : String} {k d x n : Str}
    (hkey : key = String.ofList k) (hdesc : desc = String.ofList d)
    (hdefault : default = String.ofList x) (hnote : enumNote = String.ofList n)
    (h : (plainText k && oneLine d && plainText x && oneLine n) = true) :
    (BuiltItem.key key.toList desc.toList default.toList enumNote.toList).Ok := by
  simp only [Bool.and_eq_true] at h
  rw [hkey, hdesc, hdefault, hnote, String.toList_ofList, String.toList_ofList,
    String.toList_ofList, String.toList_ofList]
  exact ⟨h.1.1.1, newline_notMem_of_oneLine h.1.1.2, h.1.2, newline_notMem_of_oneLine h.2⟩

theorem builtItems_ok : ∀ i ∈ builtItems, i.Ok := by
  unfold builtItems
  iterate 20 rw [List.forall_mem_cons]
  exact ⟨ok_comment rfl rfl, ok_comment rfl rfl, ok_comment rfl rfl, ok_blank,
    ok_comment rfl rfl, ok_key rfl rfl rfl rfl rfl, ok_key rfl rfl rfl rfl rfl, ok_blank,
    ok_comment rfl rfl, ok_key rfl rfl rfl rfl rfl, ok_key rfl rfl rfl rfl rfl, ok_blank,
    ok_comment rfl rfl, ok_key rfl rfl rfl rfl rfl, ok_key rfl rfl rfl rfl rfl, ok_blank,
    ok_comment rfl rfl, ok_key rfl rfl rfl rfl rfl, ok_key rfl rfl rfl rfl rfl,
    ok_key rfl rfl rfl rfl rfl, List.forall_mem_nil _⟩

/-- The entries that items of the built-in template make. -/
theorem filterMap_items (hmap : Writable map) {items : List BuiltItem} (h : ∀ i ∈ items, i.Ok) :
    (items.flatMap (·.lines map)).filterMap parseLine =
      (items.filterMap (·.keyDefault?)).map fun e => (e.1, norm ((map.get e.1).getD e.2)) := by
  induction items with
  | nil => rfl
  | cons i items ih =>
    rw [List.forall_mem_cons] at h
    rw [List.flatMap_cons, List.filterMap_append, ih h.2, (BuiltItem.spec hmap h.1).2,
      List.filterMap_cons]
    cases i.keyDefault? <;> rfl

theorem entries_build (hmap : Writable map) : entries (buildTemplate map) =
      builtKeys.map fun e => (e.1, norm ((map.get e.1).getD e.2)) := by
  have hlines : ∀ l ∈ builtItems.flatMap (·.lines map), '\n' ∉ l := by
    intro l hl
    rcases List.mem_flatMap.1 hl with ⟨i, hi, hl⟩
    exact (BuiltItem.spec hmap (builtItems_ok i hi)).1 l hl
  rw [buildTemplate, intercalate_concat_nil, entries_unlines hlines,
    filterMap_items hmap builtItems_ok, builtKeys]

theorem nodup_builtKeys : (builtKeys.map (·.1)).Nodup := by
  show ["DAEMON_IPC_PORT".toList, "EASYTIER_RPC_PORT".toList, "FILE_SERVER_PORT_BASE".toList,
    "DEFAULT_SPACE_IP".toList, "GITHUB_API".toList, "GITHUB_MIRROR".toList,
    "RELAY_NETWORK_PREFIX".toList, "SHARE_LINK_SECRET".toList, "LOG_ENABLED".toList].Nodup
  decide

/-- What is read of the built-in template: its keys, with their values as they
can be read. -/
theorem get_build (hmap : Writable map) (k : Str) : (parseEnv (buildTemplate map)).get k =
      (builtKeys.lookup k).map fun default => norm ((map.get k).getD default) := by
  rw [get_parseEnv, entries_build hmap, ← List.map_reverse]
  cases hlookup : builtKeys.lookup k with
  | none =>
    apply lookup_eq_none
    intro hmem
    rcases List.mem_map.1 hmem with ⟨e', he', rfl⟩
    rcases List.mem_map.1 he' with ⟨e, he, rfl⟩
    have hsome := lookup_of_mem nodup_builtKeys (List.mem_reverse.1 he)
    rw [hsome] at hlookup
    cases hlookup
  | some default =>
    have hmem : (k, default) ∈ builtKeys := mem_of_lookup hlookup
    apply lookup_eq_some_of_all
    · exact ⟨_, List.mem_map_of_mem (List.mem_reverse.2 hmem), rfl⟩
    · intro e' he' hkey
      rcases List.mem_map.1 he' with ⟨e, he, rfl⟩
      obtain rfl : e.1 = k := hkey
      have hsome := lookup_of_mem nodup_builtKeys (List.mem_reverse.1 he)
      rw [hsome] at hlookup
      cases hlookup
      rfl

/-- The values of the built-in template are read as they are. -/
theorem plainText_default {k default : Str} (h : builtKeys.lookup k = some default) :
    plainText k = true ∧ plainText default = true := by
  rcases List.mem_filterMap.1 (mem_of_lookup h) with ⟨i, hi, hkey⟩
  cases i with
  | line text => cases hkey
  | key k desc default enumNote =>
    cases hkey
    exact ⟨(builtItems_ok _ hi).1, (builtItems_ok _ hi).2.2.1⟩

end HomeTier
