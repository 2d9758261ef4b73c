import HomeTier.Lib.JsNumber
import HomeTier.Lib.Uuid
import HomeTier.EasyTier.Agreement
import HomeTier.Space.ConfigText
import HomeTier.Space.PatchConfig

/-! # The address of the VPN interface

On a phone the address is taken twice. `resolveVirtualIpForConnect` of
`src/services/mobileVpn.ts` finds the one of the interface, which must be fixed
before the network starts, and writes it back where it changes anything.
`SpaceManager::connect` then reads what the database holds, and
`to_easytier_config` takes the address of the node from it.
-/

namespace HomeTier.Vpn

open Lib ConfigJson SpaceRecords SpacePatch

/-! ## Dotted quads -/

/-- `IPV4_RE` -/
def matchesIpv4Re (s : Str) : Bool :=
  match s.splitOn '.' with
  | [a, b, c, d] => [a, b, c, d].all fun p => p ≠ [] && p.length ≤ 3 && p.all Char.isDigit
  | _ => false

def isValidIpv4 (s : Str) : Bool :=
  if s = [] then false
  else
    let trimmed := jsTrim s
    matchesIpv4Re trimmed && (trimmed.splitOn '.').all fun o => (parseDigits o).any (· ≤ 255)

/-- A part of `Ipv4Addr::from_str`: up to three digits, without leading zeros. -/
def readOctet (s : Str) : Option Nat :=
  if s.length ≤ 3 ∧ (s.head? ≠ some '0' ∨ s = ['0']) then (parseDigits s).filter (· < 256)
  else none

/-- `Ipv4Addr::from_str` -/
def parseIpv4 (s : Str) : Option Nat :=
  match s.splitOn '.' with
  | [a, b, c, d] =>
    match readOctet a, readOctet b, readOctet c, readOctet d with
    | some a, some b, some c, some d => some (((a * 256 + b) * 256 + c) * 256 + d)
    | _, _, _, _ => none
  | _ => none

/-- `cidr::Ipv4Inet`: an address, a slash and a length of up to 32. -/
structure InetReader where
  Inet : Type
  /-- `Ipv4Inet::from_str` -/
  read : Str → Option Inet
  address : Inet → Nat
  /-- The network of an address, as it is printed. -/
  network : Inet → Str
  read_eq : ∀ s n, (read (s ++ '/' :: decimal n)).map address = if n ≤ 32 then parseIpv4 s else none

/-! ## `resolveVirtualIpForConnect` -/

/-- The column `config_json`: a text, or the JSON that a configuration is
written as. -/
inductive Column where
  | text (s : Str)
  | json (v : Json)

section Resolve

variable {J : JsonText} {C : ConfigText J} (P : JsJson J C) (R : InetReader)

/-- `space.config_json ? JSON.parse(space.config_json) : null` in its `try`, as
far as it is a condition: `none` for what counts as false. -/
def pageConfig (configJson : Option Str) : Option P.Value :=
  match configJson with
  | none => none
  | some s => if s = [] then none else (P.parse s).filter P.truthy

/-- `cfg[key]` where it is a text. -/
def propText (v : Json) (key : String) : Option Str := (v.get key.toList).bind Json.asStr

def rawIp (v : Json) : Str :=
  match propText v "virtual_ipv4" with
  | some s => if jsTrim s ≠ [] then s else (propText v "ipv4").getD []
  | none => (propText v "ipv4").getD []

def plainIp (v : Json) : Str := jsTrim (cutAt '/' (rawIp v)).1

/-- The hash of the id: `(h * 31 + ch.charCodeAt(0)) >>> 0`. -/
def idHash (id : Str) : Nat := id.foldl (fun h ch => (h * 31 + ch.toNat) % 2 ^ 32) 0

def allocated (id : Uuid) : Str :=
  "10.144.144.".toList ++ decimal (idHash (uuidText id) % 250 + 2)

/-- `{ ...cfg, dhcp: false }` -/
def staticEntries : List (Str × Json) := [("dhcp".toList, .bool false)]

/-- `{ ...cfg, dhcp: false, virtual_ipv4: allocated }`, and `ipv4` where there is one. -/
def allocatedEntries (v : Json) (ip : Str) : List (Str × Json) :=
  [("dhcp".toList, .bool false), ("virtual_ipv4".toList, .str ip)] ++
    match propText v "ipv4" with
    | some _ => [("ipv4".toList, .str ip)]
    | none => []

/-- The command `update_space_config`: what the column holds then. -/
def updateSpaceConfig (column : Option Column) (fresh configJson : Str)
    (updated : Except Str Unit) : Option Column :=
  match C.read fresh configJson, updated with
  | some config, .ok () =>
    some (.json (writeConfig (dedupeProxyCidrs (fun s => (R.read s).map R.network) config)))
  | _, _ => column

/-- What the page knows of the configuration. -/
def pageView (configJson : Option Str) : Json := ((pageConfig P configJson).map P.view).getD .null

/-- The text that is handed to `updateSpaceConfig`, if it is called. -/
def updateText (id : Uuid) (configJson : Option Str) : Option Str :=
  (pageConfig P configJson).bind fun v =>
    if isValidIpv4 (plainIp (P.view v)) then
      if (P.view v).get "dhcp".toList matches some (.bool false) then none
      else some (P.stringify (P.assign v staticEntries))
    else some (P.stringify (P.assign v (allocatedEntries (P.view v) (allocated id))))

/-- The address, and the column after it. An update that fails is only logged. -/
def resolveVirtualIpForConnect (id : Uuid) (configJson : Option Str) (fresh : Str)
    (updated : Except Str Unit) : Str × Option Column :=
  let plain := plainIp (pageView P configJson)
  let ip := if isValidIpv4 plain then plain else allocated id
  let column := configJson.map .text
  match updateText P id configJson with
  | some t => (ip, updateSpaceConfig (C := C) R column fresh t updated)
  | none => (ip, column)

/-! ## The address of the node -/

def Column.read (J : JsonText) (fresh : Str) : Column → Option ConfigData
  | .text s =>
    match fromConfigJson J fresh s with
    | .ok cfg => some cfg
    | _ => none
  | .json v => readConfig fresh v

/-- The configuration that `connect` starts. -/
def connectConfig (J : JsonText) (fresh : Str) (space : Identity) (column : Option Column) :
    ConfigData :=
  match column.bind (Column.read J fresh) with
  | some config => fillIdentity space config
  | none => fallbackConfig fresh space

/-- The address that `to_easytier_config` sets. -/
def easytierIpv4 (config : ConfigData) : Option R.Inet :=
  let virtualIpv4 := textField "virtual_ipv4" config
  if virtualIpv4 ≠ [] then
    match getField "network_length".toList config with
    | some (.int len) => R.read (virtualIpv4 ++ '/' :: decimalInt len)
    | _ => none
  else none

/-- The interface has an address, and the node has it. -/
def AddressAgrees (id : Uuid) (configJson : Option Str) (space : Identity) (fresh fresh' : Str)
    (updated : Except Str Unit) : Prop :=
  let r := resolveVirtualIpForConnect P R id configJson fresh updated
  ∃ a, quad r.1 = some a ∧
    (easytierIpv4 R (connectConfig J fresh' space r.2)).map R.address = some a

end Resolve

/-! ## Addresses in canonical notation -/

theorem readOctet_eq_some {s : Str} {n : Nat} (h : readOctet s = some n) :
    s ≠ [] ∧ s.length ≤ 3 ∧ s.all Char.isDigit = true ∧ parseDigits s = some n ∧ n < 256 := by
  unfold readOctet at h
  split at h
  · rename_i hlen
    rcases Option.filter_eq_some_iff.1 h with ⟨hdigits, hlt⟩
    have hparts := hdigits
    unfold parseDigits at hparts
    split at hparts
    · rename_i hall
      exact ⟨hall.1, hlen.1, hall.2, hdigits, of_decide_eq_true hlt⟩
    · cases hparts
  · cases h

/-- The four parts of an address. -/
theorem parseIpv4_eq_some {s : Str} {n : Nat} (h : parseIpv4 s = some n) :
    ∃ a b c d : Str, ∃ x y z w : Nat, s.splitOn '.' = [a, b, c, d] ∧ readOctet a = some x ∧
      readOctet b = some y ∧ readOctet c = some z ∧ readOctet d = some w ∧
      n = ((x * 256 + y) * 256 + z) * 256 + w := by
  unfold parseIpv4 at h
  split at h
  · rename_i a b c d hsplit
    split at h
    · rename_i x y z w ha hb hc hd
      exact ⟨a, b, c, d, x, y, z, w, hsplit, ha, hb, hc, hd, (Option.some.inj h).symm⟩
    · cases h
  · cases h

/-- An address is made of digits and dots. -/
theorem mem_parseIpv4 {s : Str} {n : Nat} (h : parseIpv4 s = some n) {c : Char} (hc : c ∈ s) :
    c = '.' ∨ c.isDigit = true := by
  rcases parseIpv4_eq_some h with ⟨a, b, c', d, x, y, z, w, hsplit, ha, hb, hc', hd, -⟩
  have hjoin : ['.'].intercalate (s.splitOn '.') = s := List.intercalate_splitOn '.'
  rw [← hjoin, hsplit] at hc
  simp only [List.intercalate, List.intersperse, List.flatten_cons, List.flatten_nil,
    List.mem_append, List.mem_singleton, List.not_mem_nil, or_false] at hc
  have hdigit : ∀ {p : Str} {k : Nat}, readOctet p = some k → c ∈ p → c.isDigit = true :=
    fun hp hcp => List.all_eq_true.1 (readOctet_eq_some hp).2.2.1 c hcp
  rcases hc with hc | hc | hc | hc | hc | hc | hc
  · exact .inr (hdigit ha hc)
  · exact .inl hc
  · exact .inr (hdigit hb hc)
  · exact .inl hc
  · exact .inr (hdigit hc' hc)
  · exact .inl hc
  · exact .inr (hdigit hd hc)

theorem parseIpv4_nil : parseIpv4 [] = none := by decide

/-- No white space, no slash. -/
theorem plain_parseIpv4 {s : Str} {n : Nat} (h : parseIpv4 s = some n) :
    jsTrim s = s ∧ '/' ∉ s ∧ s ≠ [] := by
  refine ⟨jsTrim_eq_self fun c hc => ?_, fun hc => ?_, ?_⟩
  · rcases mem_parseIpv4 h hc with rfl | hdigit
    · decide
    · exact isJsSpace_of_isDigit hdigit
  · rcases mem_parseIpv4 h hc with hdot | hdigit
    · exact absurd hdot (by decide)
    · exact absurd hdigit (by decide)
  · rintro rfl
    rw [parseIpv4_nil] at h
    cases h

/-- What is checked of a part of an address. -/
theorem checks_readOctet {p : Str} {k : Nat} (h : readOctet p = some k) :
    (p ≠ [] && p.length ≤ 3 && p.all Char.isDigit) = true ∧
      (parseDigits p).any (· ≤ 255) = true := by
  rcases readOctet_eq_some h with ⟨hne, hlen, hdigits, hk, hlt⟩
  constructor
  · rw [hdigits, decide_eq_true hlen, decide_eq_true hne]
    rfl
  · rw [hk]
    exact decide_eq_true (Nat.le_of_lt_succ hlt)

/-- An address in canonical notation is one for the page, and the same one. -/
theorem valid_parseIpv4 {s : Str} {n : Nat} (h : parseIpv4 s = some n) :
    isValidIpv4 s = true ∧ quad s = some n := by
  rcases plain_parseIpv4 h with ⟨htrim, -, hne⟩
  rcases parseIpv4_eq_some h with ⟨a, b, c, d, x, y, z, w, hsplit, ha, hb, hc, hd, rfl⟩
  constructor
  · simp only [isValidIpv4, if_neg hne, htrim, matchesIpv4Re, hsplit, List.all_cons, List.all_nil,
      (checks_readOctet ha).1, (checks_readOctet ha).2, (checks_readOctet hb).1,
      (checks_readOctet hb).2, (checks_readOctet hc).1, (checks_readOctet hc).2,
      (checks_readOctet hd).1, (checks_readOctet hd).2, Bool.and_self]
  · rcases readOctet_eq_some ha with ⟨-, -, -, hx, hxlt⟩
    rcases readOctet_eq_some hb with ⟨-, -, -, hy, hylt⟩
    rcases readOctet_eq_some hc with ⟨-, -, -, hz, hzlt⟩
    rcases readOctet_eq_some hd with ⟨-, -, -, hw, hwlt⟩
    simp only [quad, hsplit, hx, hy, hz, hw]
    rw [if_pos ⟨hxlt, hylt, hzlt, hwlt⟩]

theorem parse_host : ∀ k < 250, (parseIpv4 ("10.144.144.".toList ++ decimal (k + 2))).isSome = true := by
  decide +kernel

/-- The page allocates addresses in canonical notation. -/
theorem parse_allocated (id : Uuid) : ∃ a, parseIpv4 (allocated id) = some a ∧
    quad (allocated id) = some a := by
  have hhost := parse_host (idHash (uuidText id) % 250) (Nat.mod_lt _ (by decide))
  rcases Option.isSome_iff_exists.1 hhost with ⟨a, ha⟩
  exact ⟨a, ha, (valid_parseIpv4 ha).2⟩

/-- The address that is in the configuration in canonical notation is the one of
the interface. -/
theorem plainIp_of_parse {v : Json} {s : Str} {n : Nat} (hs : propText v "virtual_ipv4" = some s)
    (h : parseIpv4 s = some n) : plainIp v = s := by
  rcases plain_parseIpv4 h with ⟨htrim, hslash, hne⟩
  have hraw : rawIp v = s := by
    rw [rawIp, hs]
    simp only [htrim]
    exact if_pos hne
  rw [plainIp, hraw, cutAt_of_notMem hslash, htrim]

/-! ## What the node is given -/

/-- The length of the network is one for an address. -/
def LengthFits (cfg : ConfigData) : Prop :=
  ∃ n : Nat, n ≤ 32 ∧ getField "network_length".toList cfg = some (.int n)

theorem exists_length {cfg : ConfigData} (h : IsConfig cfg) :
    ∃ n : Nat, getField "network_length".toList cfg = some (.int n) := by
  have htype : configTypes.lookup "network_length".toList = some (.scalar (.uint 8)) := by
    decide
  rcases h.exists_getField htype with ⟨d, hd, hread⟩
  cases d with
  | int n =>
    have hread' : (if 0 ≤ n ∧ n < 2 ^ 8 then some (ConfigData.int n) else none) = some (.int n) :=
      hread
    split at hread'
    · rename_i hn
      obtain ⟨k, rfl⟩ := Int.eq_ofNat_of_zero_le hn.1
      exact ⟨k, hd⟩
    · cases hread'
  | _ => cases hread

section Node

variable (R : InetReader)

theorem easytierIpv4_iff {cfg : ConfigData} {n : Nat}
    (hlen : getField "network_length".toList cfg = some (.int n)) {a : Nat} :
    (easytierIpv4 R cfg).map R.address = some a ↔
      parseIpv4 (textField "virtual_ipv4" cfg) = some a ∧ LengthFits cfg := by
  have hfits : LengthFits cfg ↔ n ≤ 32 := by
    constructor
    · rintro ⟨k, hk, hget⟩
      rw [hlen] at hget
      have hnk : (n : Int) = k := ConfigData.int.inj (Option.some.inj hget)
      omega
    · exact fun hn => ⟨n, hn, hlen⟩
  rw [easytierIpv4, hfits]
  by_cases hnil : textField "virtual_ipv4" cfg = []
  · rw [hnil, parseIpv4_nil]
    simp
  · have hdecimal : decimalInt (n : Int) = decimal n := rfl
    simp only [hlen, ne_eq, hnil, not_false_iff, if_true, hdecimal, R.read_eq]
    split <;> simp_all

theorem isConfig_column {J : JsonText} {fresh : Str} {column : Column} {cfg : ConfigData}
    (h : column.read J fresh = some cfg) : IsConfig cfg := by
  cases column with
  | text s =>
    simp only [Column.read, fromConfigJson] at h
    split at h
    · rename_i hread
      cases h
      split at hread
      · obtain rfl := ConfigRead.ok.inj hread
        exact isConfig_default fresh
      · split at hread
        · cases hread
        · split at hread
          · rename_i hcfg
            obtain rfl := ConfigRead.ok.inj hread
            exact isConfig_of_readConfig hcfg
          · split at hread <;> cases hread
    · cases h
  | json v => exact isConfig_of_readConfig h

theorem textField_default (fresh : Str) (space : Identity) :
    textField "virtual_ipv4" (fallbackConfig fresh space) = [] := by
  refine textField_eq ?_
  rw [fallbackConfig, getField_modifyField, if_neg (by decide), getField_modifyField,
    if_neg (by decide), getField_modifyField, if_neg (by decide)]
  exact getField_default (mem_addressField fresh)

/-- The node has the address that the database holds, in canonical notation. -/
theorem node_iff {J : JsonText} {fresh : Str} {space : Identity} {column : Option Column} {a : Nat} :
    (easytierIpv4 R (connectConfig J fresh space column)).map R.address = some a ↔
      ∃ cfg, column.bind (Column.read J fresh) = some cfg ∧
        parseIpv4 (textField "virtual_ipv4" cfg) = some a ∧ LengthFits cfg := by
  unfold connectConfig
  cases hcolumn : column.bind (Column.read J fresh) with
  | none =>
    simp [easytierIpv4, textField_default]
  | some cfg =>
    rcases Option.bind_eq_some_iff.1 hcolumn with ⟨column', -, hread⟩
    rcases exists_length (isConfig_column hread) with ⟨n, hn⟩
    have haddress : textField "virtual_ipv4" (fillIdentity space cfg) =
        textField "virtual_ipv4" cfg := by
      rw [textField, fillIdentity, getField_modifyField, if_neg (by decide), getField_modifyField,
        if_neg (by decide), textField]
    have hlength : getField "network_length".toList (fillIdentity space cfg) =
        getField "network_length".toList cfg := by
      rw [fillIdentity, getField_modifyField, if_neg (by decide), getField_modifyField,
        if_neg (by decide)]
    simp only [easytierIpv4_iff R (hlength.trans hn), haddress, LengthFits, hlength]
    simp

end Node

/-! ## When the two agree -/

section Agreement

variable {J : JsonText} {C : ConfigText J} (P : JsJson J C) (R : InetReader)

/-- The configuration that the page puts into the database, if any. -/
def rewritten (id : Uuid) (configJson : Option Str) (fresh : Str) (updated : Except Str Unit) :
    Option ConfigData :=
  match updateText P id configJson, updated with
  | some t, .ok () => C.read fresh t
  | _, _ => none

/-- The configuration that the database holds: the one the page has put there,
or what is read of the text that was there. -/
def held (id : Uuid) (configJson : Option Str) (fresh fresh' : Str) (updated : Except Str Unit) :
    Option ConfigData :=
  match rewritten P id configJson fresh updated with
  | some cfg => some cfg
  | none => configJson.bind fun s => Column.read J fresh' (.text s)

/-- The database holds a configuration with a length of up to 32, and
- `virtual_ipv4` is an address in canonical notation, or
- the page finds no address, and has put in the allocated one, or
- the page finds no address, puts in none, and the allocated one is there. -/
def Settled (id : Uuid) (configJson : Option Str) (fresh fresh' : Str)
    (updated : Except Str Unit) : Prop :=
  ∃ cfg, held P id configJson fresh fresh' updated = some cfg ∧ LengthFits cfg ∧
    ((∃ s a, propText (pageView P configJson) "virtual_ipv4" = some s ∧ parseIpv4 s = some a) ∨
      (isValidIpv4 (plainIp (pageView P configJson)) = false ∧
        ((rewritten P id configJson fresh updated).isSome = true ∨
          parseIpv4 (textField "virtual_ipv4" cfg) = parseIpv4 (allocated id))))

variable {P R} {id : Uuid} {configJson : Option Str} {fresh fresh' : Str}
  {updated : Except Str Unit}

theorem resolve_fst : (resolveVirtualIpForConnect P R id configJson fresh updated).1 =
    if isValidIpv4 (plainIp (pageView P configJson)) then plainIp (pageView P configJson)
    else allocated id := by
  unfold resolveVirtualIpForConnect
  simp only
  split <;> rfl

/-- The routes that are put in order have no part in the address. -/
theorem resolve_snd {a : Nat} :
    (∃ cfg, (resolveVirtualIpForConnect P R id configJson fresh updated).2.bind
        (Column.read J fresh') = some cfg ∧
      parseIpv4 (textField "virtual_ipv4" cfg) = some a ∧ LengthFits cfg) ↔
    ∃ cfg, held P id configJson fresh fresh' updated = some cfg ∧
      parseIpv4 (textField "virtual_ipv4" cfg) = some a ∧ LengthFits cfg := by
  -- the column is written anew, or left as it was
  have hcolumn : (resolveVirtualIpForConnect P R id configJson fresh updated).2 =
      match rewritten P id configJson fresh updated with
      | some cfg => some (.json (writeConfig
          (dedupeProxyCidrs (fun s => (R.read s).map R.network) cfg)))
      | none => configJson.map .text := by
    unfold resolveVirtualIpForConnect rewritten updateSpaceConfig
    cases updateText P id configJson with
    | none => rfl
    | some t =>
      cases hread : C.read fresh t with
      | none => cases updated <;> simp [hread]
      | some cfg => cases updated <;> simp [hread]
  rw [hcolumn, held]
  cases hrewritten : rewritten P id configJson fresh updated with
  | none => cases configJson <;> rfl
  | some cfg =>
    have hcfg : IsConfig cfg := by
      unfold rewritten at hrewritten
      split at hrewritten
      · exact C.isConfig _ _ _ hrewritten
      · cases hrewritten
    have hread : readConfig fresh' (writeConfig
        (dedupeProxyCidrs (fun s => (R.read s).map R.network) cfg)) =
          some (dedupeProxyCidrs (fun s => (R.read s).map R.network) cfg) :=
      (isConfig_dedupeProxyCidrs hcfg _).readConfig_writeConfig fresh'
    have haddress : textField "virtual_ipv4"
        (dedupeProxyCidrs (fun s => (R.read s).map R.network) cfg) =
          textField "virtual_ipv4" cfg := by
      rw [textField, address_dedupeProxyCidrs, textField]
    have hlength : getField "network_length".toList
        (dedupeProxyCidrs (fun s => (R.read s).map R.network) cfg) =
          getField "network_length".toList cfg := by
      rw [dedupeProxyCidrs, getField_modifyField, if_neg (by decide)]
    simp only [Option.bind_some, Column.read, hread, Option.some.injEq, exists_eq_left', haddress,
      LengthFits, hlength]

/-- What the page puts in. -/
theorem rewritten_eq_some {cfg : ConfigData}
    (h : rewritten P id configJson fresh updated = some cfg) :
    ∃ v kvs es, pageConfig P configJson = some v ∧ P.view (P.assign v es) = .obj kvs ∧
      kvs = insertEntries es (spread (P.view v)) ∧
      C.read fresh (P.stringify (P.assign v es)) = some cfg ∧
      (isValidIpv4 (plainIp (P.view v)) = true → es = staticEntries) ∧
      (isValidIpv4 (plainIp (P.view v)) = false →
        es = allocatedEntries (P.view v) (allocated id)) := by
  unfold rewritten at h
  split at h
  · rename_i t htext
    unfold updateText at htext
    rcases Option.bind_eq_some_iff.1 htext with ⟨v, hv, htext⟩
    split at htext
    · rename_i hvalid
      split at htext
      · cases htext
      · obtain rfl := Option.some.inj htext
        exact ⟨v, _, staticEntries, hv, P.view_assign _ _, rfl, h, fun _ => rfl,
          fun hne => absurd hvalid (by simp [hne])⟩
    · rename_i hinvalid
      obtain rfl := Option.some.inj htext
      exact ⟨v, _, _, hv, P.view_assign _ _, rfl, h, fun hvalid => absurd hvalid hinvalid,
        fun _ => rfl⟩
  · cases h

/-- An address is found in an object only. -/
theorem found_of_valid {v : Json} (h : isValidIpv4 (plainIp v) = true) :
    ∃ key ∈ pageTexts, ∃ s, (v.get key).bind Json.asStr = some s := by
  by_contra hnone
  push Not at hnone
  have hno : ∀ key, key.toList ∈ pageTexts → propText v key = none := by
    intro key hkey
    cases htext : propText v key with
    | none => rfl
    | some s => exact absurd htext (hnone key.toList hkey s)
  have hplain : plainIp v = [] := by
    rw [plainIp, rawIp, hno "virtual_ipv4" (by decide), hno "ipv4" (by decide)]
    rfl
  rw [hplain] at h
  exact absurd h (by decide)

theorem obj_of_text {v : Json} {key s : Str} (h : (v.get key).bind Json.asStr = some s) :
    ∃ kvs, v = .obj kvs := by
  cases v with
  | obj kvs => exact ⟨kvs, rfl⟩
  | _ => cases h

/-- Where the page finds an address, what is put in has the address of the field. -/
theorem address_static {cfg : ConfigData} (h : rewritten P id configJson fresh updated = some cfg)
    (hvalid : isValidIpv4 (plainIp (pageView P configJson)) = true) :
    textField "virtual_ipv4" cfg =
      (propText (pageView P configJson) "virtual_ipv4").getD [] := by
  rcases rewritten_eq_some h with ⟨v, kvs, es, hv, hview, hkvs, hread, hstatic, -⟩
  have hpage : pageView P configJson = P.view v := by
    rw [pageView, hv]
    rfl
  rw [hpage] at hvalid ⊢
  rcases found_of_valid hvalid with ⟨key, -, s, hs⟩
  rcases obj_of_text hs with ⟨own, hown⟩
  have hlookup : kvs.lookup "virtual_ipv4".toList = own.lookup "virtual_ipv4".toList := by
    rw [hkvs, hstatic hvalid, hown, lookup_insertEntries (by decide)]
    rfl
  rw [P.stringify_read _ _ _ _ hview hread, hlookup, hown]
  rfl

theorem nodup_allocatedEntries (v : Json) (ip : Str) :
    ((allocatedEntries v ip).map (·.1)).Nodup := by
  have hthree : ["dhcp".toList, "virtual_ipv4".toList, "ipv4".toList].Nodup := by decide
  have htwo : ["dhcp".toList, "virtual_ipv4".toList].Nodup := by decide
  unfold allocatedEntries
  split
  · exact hthree
  · exact htwo

/-- Where it finds none, what is put in has the allocated one. -/
theorem address_allocated {cfg : ConfigData}
    (h : rewritten P id configJson fresh updated = some cfg)
    (hinvalid : isValidIpv4 (plainIp (pageView P configJson)) = false) :
    textField "virtual_ipv4" cfg = allocated id := by
  rcases rewritten_eq_some h with ⟨v, kvs, es, hv, hview, hkvs, hread, -, hallocated⟩
  have hpage : pageView P configJson = P.view v := by
    rw [pageView, hv]
    rfl
  rw [hpage] at hinvalid
  have hlookup : kvs.lookup "virtual_ipv4".toList = some (.str (allocated id)) := by
    rw [hkvs, hallocated hinvalid, lookup_insertEntries (nodup_allocatedEntries _ _)]
    rfl
  rw [P.stringify_read _ _ _ _ hview hread, hlookup]
  rfl

/-- What is read of a text that was left alone has the address that the page finds. -/
theorem address_stored {s : Str} {cfg : ConfigData}
    (h : Column.read J fresh' (.text s) = some cfg)
    (hvalid : isValidIpv4 (plainIp (pageView P (some s))) = true) :
    textField "virtual_ipv4" cfg = (propText (pageView P (some s)) "virtual_ipv4").getD [] := by
  rcases found_of_valid hvalid with ⟨key, hkey, t, ht⟩
  obtain ⟨v, hv, hpage⟩ : ∃ v, P.parse s = some v ∧ pageView P (some s) = P.view v := by
    simp only [pageView, pageConfig] at ht ⊢
    by_cases hs : s = []
    · rw [if_pos hs] at ht
      cases ht
    · rw [if_neg hs] at ht ⊢
      cases hfilter : (P.parse s).filter P.truthy with
      | none =>
        rw [hfilter] at ht
        cases ht
      | some v => exact ⟨v, (Option.filter_eq_some_iff.1 hfilter).1, rfl⟩
  rw [hpage] at ht ⊢
  have hblank : trim s ≠ [] := by
    intro hnil
    rw [P.parse_blank s hnil] at hv
    cases hv
  simp only [Column.read, fromConfigJson, if_neg hblank] at h
  cases hparse : J.parse (trim s) with
  | none => simp [hparse] at h
  | some w =>
    have hsame := P.parse_texts s v w hv hparse
    rcases obj_of_text ((hsame key hkey).symm.trans ht) with ⟨kvs, rfl⟩
    cases hread : readConfig fresh' (.obj kvs) with
    | none =>
      simp only [hparse, hread] at h
      split at h
      · rename_i heq
        split at heq <;> cases heq
      · cases h
    | some cfg' =>
      obtain rfl : cfg' = cfg := by simpa [hparse, hread] using h
      rw [address_readConfig hread]
      exact congrArg (·.getD []) (hsame "virtual_ipv4".toList (by decide)).symm

/-- Where the page finds an address, the database holds the one of the field. -/
theorem address_held {cfg : ConfigData} (h : held P id configJson fresh fresh' updated = some cfg)
    (hvalid : isValidIpv4 (plainIp (pageView P configJson)) = true) :
    textField "virtual_ipv4" cfg =
      (propText (pageView P configJson) "virtual_ipv4").getD [] := by
  unfold held at h
  cases hrewritten : rewritten P id configJson fresh updated with
  | some cfg' =>
    simp only [hrewritten] at h
    obtain rfl := Option.some.inj h
    exact address_static hrewritten hvalid
  | none =>
    simp only [hrewritten] at h
    rcases Option.bind_eq_some_iff.1 h with ⟨s, rfl, hread⟩
    exact address_stored hread hvalid

theorem agrees_of_settled {space : Identity} (h : Settled P id configJson fresh fresh' updated) :
    AddressAgrees P R id configJson space fresh fresh' updated := by
  rcases h with ⟨cfg, hheld, hfits, hcases⟩
  simp only [AddressAgrees, node_iff, resolve_snd, resolve_fst]
  rcases hcases with ⟨s, a, hs, ha⟩ | ⟨hinvalid, hcases⟩
  · -- the address of the field
    have hplain := plainIp_of_parse hs ha
    have hvalid : isValidIpv4 (plainIp (pageView P configJson)) = true := by
      rw [hplain]
      exact (valid_parseIpv4 ha).1
    refine ⟨a, ?_, cfg, hheld, ?_, hfits⟩
    · rw [if_pos hvalid, hplain]
      exact (valid_parseIpv4 ha).2
    · rw [address_held hheld hvalid, hs]
      exact ha
  · rcases parse_allocated id with ⟨a, hparse, hquad⟩
    refine ⟨a, ?_, cfg, hheld, ?_, hfits⟩
    · rw [hinvalid]
      exact hquad
    · rcases hcases with hrewritten | hthere
      · -- the page has put in the allocated address
        rcases Option.isSome_iff_exists.1 hrewritten with ⟨cfg', hcfg'⟩
        have heq : cfg' = cfg := by
          rw [held, hcfg'] at hheld
          exact Option.some.inj hheld
        rw [← heq, address_allocated hcfg' hinvalid]
        exact hparse
      · rw [hthere]
        exact hparse

theorem settled_of_agrees {space : Identity}
    (h : AddressAgrees P R id configJson space fresh fresh' updated) :
    Settled P id configJson fresh fresh' updated := by
  simp only [AddressAgrees, node_iff, resolve_snd, resolve_fst] at h
  rcases h with ⟨a, hip, cfg, hheld, hnode, hfits⟩
  refine ⟨cfg, hheld, hfits, ?_⟩
  cases hvalid : isValidIpv4 (plainIp (pageView P configJson)) with
  | true =>
    left
    have haddress := address_held hheld hvalid
    cases htext : propText (pageView P configJson) "virtual_ipv4" with
    | none =>
      rw [haddress, htext, Option.getD_none, parseIpv4_nil] at hnode
      cases hnode
    | some s =>
      rw [haddress, htext] at hnode
      exact ⟨s, a, rfl, hnode⟩
  | false =>
    refine .inr ⟨rfl, .inr ?_⟩
    rcases parse_allocated id with ⟨b, hparse, hquad⟩
    rw [hvalid] at hip
    have hab : a = b := Option.some.inj (hip.symm.trans hquad)
    rw [hnode, hparse, hab]

end Agreement

/-- The node has the address of the interface exactly when the database holds
the address, in canonical notation and with a length of up to 32. -/
theorem address_agrees_iff {J : JsonText} {C : ConfigText J} (P : JsJson J C) (R : InetReader)
    (id : Uuid) (configJson : Option Str) (space : Identity) (fresh fresh' : Str)
    (updated : Except Str Unit) :
    AddressAgrees P R id configJson space fresh fresh' updated ↔
      Settled P id configJson fresh fresh' updated :=
  ⟨settled_of_agrees, agrees_of_settled⟩

/-! ### A space without a configuration -/

/-- The reader of `cidr`, with addresses and networks as numbers. -/
def readCidr (s : Str) : Option (Nat × Nat) :=
  match cutAtLast '/' s with
  | some (addr, len) =>
    match parseIpv4 addr, parseDigits len with
    | some a, some n => if n ≤ 32 then some (a, n) else none
    | _, _ => none
  | none => none

theorem readCidr_eq (s : Str) (n : Nat) :
    (readCidr (s ++ '/' :: decimal n)).map Prod.fst = if n ≤ 32 then parseIpv4 s else none := by
  have hslash : '/' ∉ decimal n := by
    intro hmem
    exact absurd (isDigit_of_mem_decimal hmem) (by decide)
  simp only [readCidr, cutAtLast_append hslash, parseDigits_decimal]
  cases parseIpv4 s with
  | none => simp
  | some a => by_cases hn : n ≤ 32 <;> simp [hn]

def cidrReader : InetReader where
  Inet := Nat × Nat
  read := readCidr
  address := Prod.fst
  network := ipv4Parsers.network
  read_eq := readCidr_eq

/-- The interface has 10.144.144.N, and the node starts without an address. -/
theorem absent_config_disagrees :
    ¬ AddressAgrees JsJson.compact cidrReader 1 none ⟨"lab".toList, "s3cret".toList⟩ [] []
      (.ok ()) := by
  intro h
  rcases settled_of_agrees h with ⟨cfg, hheld, -⟩
  have hnone : held JsJson.compact 1 none [] [] (.ok ()) = none := rfl
  rw [hnone] at hheld
  cases hheld

end HomeTier.Vpn
