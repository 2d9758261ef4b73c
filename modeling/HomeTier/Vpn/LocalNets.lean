import Mathlib
import HomeTier.Lib.Ipv4
import HomeTier.Log.Record
import HomeTier.Vpn.Connect

/-! # Local networks and the routes of the VPN

`LanSubnetDetector.detect` guesses the networks the device is attached to, as
texts `a.b.c.0/24`, from the addresses of its interfaces and from the integer
of the Wi-Fi manager. `desiredRoutes` leaves out the routes that are one of
these texts, letter for letter; `HomeTierVpnService` then takes a route for a
range of addresses.
-/

namespace HomeTier.Vpn

open Lib

/-! ## The device -/

inductive InetAddress where
  /-- With its network's real length, which the detector does not ask for. -/
  | inet4 (net : Net)
  /-- Not an `Inet4Address`. -/
  | other

structure NetworkInterface where
  name : Str
  /-- `none`: the call throws. -/
  isUp : Option Bool
  isLoopback : Bool
  inetAddresses : List InetAddress
  /-- Whether a physical network is attached through it, whatever its name. -/
  physical : Bool

structure Device where
  /-- What `getNetworkInterfaces` answers. -/
  interfaces : List NetworkInterface
  /-- The Wi-Fi network that the device has joined. -/
  wifi : Option Net
  /-- Whether the Wi-Fi manager tells its address. -/
  wifiTold : Bool

def InetAddress.net? : InetAddress → Option Net
  | .inet4 net => some net
  | .other => none

/-- The physical networks that the device is attached to. -/
def Device.lans (d : Device) : List Net :=
  (d.interfaces.filter (·.physical)).flatMap (·.inetAddresses.filterMap InetAddress.net?) ++
    d.wifi.toList

/-- `WifiInfo.ipAddress`: least significant byte first, and 0 if it is not told. -/
def Device.wifiIp (d : Device) : BitVec 32 :=
  match d.wifi with
  | some net => if d.wifiTold then net.address.leastFirst else 0
  | none => 0

/-! ## `LanSubnetDetector` -/

def virtualNames : List Str :=
  ["tun", "docker", "veth", "wg", "p2p", "virbr", "br-", "tap", "vti", "ip6tnl", "sit", "gre"].map
    String.toList

/-- The names of interfaces are ASCII. -/
def isVirtualInterface (name : Str) : Bool :=
  let lower := name.map Char.toLower
  virtualNames.any fun part => containsText lower part

def siteHeads : List Str :=
  ["10.", "192.168.", "172.16.", "172.17.", "172.18.", "172.19.", "172.20.", "172.21.", "172.22.",
    "172.23.", "172.24.", "172.25.", "172.26.", "172.27.", "172.28.", "172.29.", "172.30.",
    "172.31."].map String.toList

def isSiteLocalIpv4 (host : Str) : Bool := siteHeads.any (·.isPrefixOf host)

/-- The last lines of `intToCidr` and of `ipToCidr`. -/
def maskedCidr (octets : List Int) (length : Nat) : Str :=
  let masked := if length = 24 then octets.take 3 ++ [0] else octets
  ['.'].intercalate (masked.map decimalInt) ++ '/' :: decimal length

def intToCidr (ipInt : BitVec 32) (length : Nat) : Str :=
  let octets := [(ipInt.sshiftRight 24) &&& 0xFF#32, (ipInt.sshiftRight 16) &&& 0xFF#32,
    (ipInt.sshiftRight 8) &&& 0xFF#32, ipInt &&& 0xFF#32]
  maskedCidr (octets.map BitVec.toInt) length

/-- `none`: a part is no number, and `toInt` throws. -/
def ipToCidr (host : Str) (length : Nat) : Option Str :=
  let parts := host.splitOn '.'
  if parts.length ≠ 4 then some (host ++ '/' :: decimal length)
  else (parts.mapM (parseSigned (2 ^ 31))).map (maskedCidr · length)

/-- `subnets.add` -/
def addSubnet (subnets : List Str) (cidr : Str) : List Str :=
  if cidr ∈ subnets then subnets else subnets ++ [cidr]

/-- The loop over the addresses of an interface; false if an exception leaves it. -/
def walkAddresses (subnets : List Str) : List InetAddress → List Str × Bool
  | [] => (subnets, true)
  | .other :: rest => walkAddresses subnets rest
  | .inet4 net :: rest =>
    let host := net.address.text
    if isSiteLocalIpv4 host then
      match ipToCidr host 24 with
      | some cidr => walkAddresses (addSubnet subnets cidr) rest
      | none => (subnets, false)
    else walkAddresses subnets rest

/-- The loop over the interfaces, up to its end or the first exception. -/
def walkInterfaces (subnets : List Str) : List NetworkInterface → List Str
  | [] => subnets
  | ni :: rest =>
    match ni.isUp with
    | none => subnets
    | some isUp =>
      if !isUp || ni.isLoopback || isVirtualInterface ni.name then walkInterfaces subnets rest
      else
        match walkAddresses subnets ni.inetAddresses with
        | (subnets, true) => walkInterfaces subnets rest
        | (subnets, false) => subnets

def detect (d : Device) : List Str :=
  let subnets := walkInterfaces [] d.interfaces
  if d.wifiIp ≠ 0 then addSubnet subnets (intToCidr d.wifiIp 24) else subnets

/-! ## What a route covers -/

/-- `VpnService.Builder.addRoute`, as far as the address is an IPv4 one. -/
def addRoute (host : Str) (length : Int) : Option (Nat × Nat) :=
  if 0 ≤ length ∧ length ≤ 32 then (parseIpv4 host).map fun n => (n, length.toNat) else none

/-- The loop over the routes in `createVpnInterface`. -/
def readRoute (route : Str) : Option (Nat × Nat) :=
  match route.splitOn '/' with
  | [host, length] => addRoute host ((parseSigned (2 ^ 31) length).getD 24)
  | [host] => addRoute host 32
  | _ => none

/-- The address begins with the bits of the route. -/
def RouteCovers (route : Str) (x : Inet4) : Prop :=
  ∃ n length, readRoute route = some (n, length) ∧
    x.toNat / 2 ^ (32 - length) = n / 2 ^ (32 - length)

def Overlaps (route : Str) (lan : Net) : Prop := ∃ x, lan.Contains x ∧ RouteCovers route x

/-- The page has taken what the detector found. -/
def Connection.detected (k : Connection) (d : Device) : Connection :=
  { k with localSubnets := (detect d).toFinset }

structure LocalOutside (d : Device) (k : Connection) : Prop where
  apart : ∀ route ∈ (k.detected d).desiredRoutes, ∀ lan ∈ d.lans, ¬ Overlaps route lan
  attached : ∀ cidr ∈ detect d, ∃ lan ∈ d.lans, cidr = lan.text

/-! ## What the detector finds -/

/-- The interfaces in front of the first one that cannot be asked. -/
def Device.walked (d : Device) : List NetworkInterface := d.interfaces.takeWhile (·.isUp.isSome)

/-- The detector takes the interface for a physical one. -/
def NetworkInterface.Taken (ni : NetworkInterface) : Prop :=
  ni.isUp = some true ∧ ni.isLoopback = false ∧ isVirtualInterface ni.name = false

/-- A private address of an interface that is taken for a physical one. -/
def Device.Sees (d : Device) (x : Inet4) : Prop :=
  ∃ ni ∈ d.walked, ni.Taken ∧ (∃ net, .inet4 net ∈ ni.inetAddresses ∧ net.address = x) ∧ x.SiteLocal

/-- The Wi-Fi manager tells an address other than 0.0.0.0. -/
def Device.Tells (d : Device) (x : Inet4) : Prop :=
  d.wifiTold = true ∧ x ≠ ⟨0, 0, 0, 0⟩ ∧ ∃ net, d.wifi = some net ∧ net.address = x

section Texts

variable (x : Inet4)

theorem parseSigned_octet (b : UInt8) :
    parseSigned (2 ^ 31) (decimal b.toNat) = some (b.toNat : Int) := by
  have hlt := b.toNat_lt
  rw [parseSigned_of_parseUnsigned (parseUnsigned_decimal hlt), if_pos (by omega)]

/-- The last byte is cleared. -/
theorem maskedCidr_eq : maskedCidr [(x.o₁.toNat : Int), x.o₂.toNat, x.o₃.toNat, x.o₄.toNat] 24 =
    (Net.around x).text := by
  rw [Net.text_around]
  simp [maskedCidr, Inet4.text, List.intercalate, List.intersperse, decimalInt]

theorem ipToCidr_text : ipToCidr x.text 24 = some (Net.around x).text := by
  simp only [ipToCidr, Inet4.splitOn_text, List.mapM_cons, List.mapM_nil, parseSigned_octet]
  exact congrArg some (maskedCidr_eq x)

theorem toInt_and_mask (v : BitVec 32) : (v &&& 0xFF#32).toInt = (v.toNat % 256 : Nat) := by
  have hmask : (v &&& 0xFF#32).toNat = v.toNat % 256 := by
    rw [BitVec.toNat_and]
    exact Nat.and_two_pow_sub_one_eq_mod v.toNat 8
  have hlt : v.toNat % 256 < 256 := Nat.mod_lt _ (by decide)
  rw [BitVec.toInt_eq_toNat_of_lt (by omega), hmask]

/-- The sign that an arithmetic shift brings in is masked. -/
theorem toNat_sshiftRight_mod (v : BitVec 32) {s : Nat} (h : s = 8 ∨ s = 16 ∨ s = 24) :
    (v.sshiftRight s).toNat % 256 = v.toNat / 2 ^ s % 256 := by
  have hv := v.isLt
  cases hm : v.msb with
  | false => rw [BitVec.toNat_sshiftRight_of_msb_false hm, Nat.shiftRight_eq_div_pow]
  | true =>
    rw [BitVec.toNat_sshiftRight_of_msb_true hm, Nat.shiftRight_eq_div_pow]
    rcases h with rfl | rfl | rfl <;> omega

/-- The bytes of the integer are taken in the opposite order. -/
theorem intToCidr_leastFirst : intToCidr x.leastFirst 24 = (Net.around x.swapped).text := by
  have h₁ := x.o₁.toNat_lt
  have h₂ := x.o₂.toNat_lt
  have h₃ := x.o₃.toNat_lt
  have h₄ := x.o₄.toNat_lt
  have hfirst : x.leastFirst.toNat / 2 ^ 24 % 256 = x.o₄.toNat := by
    rw [Inet4.toNat_leastFirst]
    omega
  have hsecond : x.leastFirst.toNat / 2 ^ 16 % 256 = x.o₃.toNat := by
    rw [Inet4.toNat_leastFirst]
    omega
  have hthird : x.leastFirst.toNat / 2 ^ 8 % 256 = x.o₂.toNat := by
    rw [Inet4.toNat_leastFirst]
    omega
  have hfourth : x.leastFirst.toNat % 256 = x.o₁.toNat := by
    rw [Inet4.toNat_leastFirst]
    omega
  have hmasked : maskedCidr [(x.o₄.toNat : Int), x.o₃.toNat, x.o₂.toNat, x.o₁.toNat] 24 =
      (Net.around x.swapped).text := maskedCidr_eq x.swapped
  simpa only [intToCidr, List.map_cons, List.map_nil, toInt_and_mask,
    toNat_sshiftRight_mod _ (.inl rfl), toNat_sshiftRight_mod _ (.inr (.inl rfl)),
    toNat_sshiftRight_mod _ (.inr (.inr rfl)), hfirst, hsecond, hthird, hfourth] using hmasked

end Texts

/-! ## The private addresses by their text -/

/-- The head of an address in dotted notation: numbers are compared whole. -/
theorem dotted_head_iff {m n : Nat} {s t : Str} :
    decimal m ++ '.' :: s <+: decimal n ++ '.' :: t ↔ m = n ∧ s <+: t := by
  constructor
  · rintro ⟨rest, h⟩
    rw [List.append_assoc, List.cons_append] at h
    rcases Inet4.decimal_dot_inj h with ⟨hmn, hst⟩
    exact ⟨hmn, rest, hst⟩
  · rintro ⟨rfl, rest, rfl⟩
    exact ⟨rest, by simp⟩

theorem siteHeads_eq : siteHeads = (decimal 10 ++ ['.']) ::
    (decimal 192 ++ '.' :: (decimal 168 ++ ['.'])) ::
      (List.range' 16 16).map fun n => decimal 172 ++ '.' :: (decimal n ++ ['.']) := by
  decide

theorem isSiteLocalIpv4_text (x : Inet4) : isSiteLocalIpv4 x.text = true ↔ x.SiteLocal := by
  have hsecond : ∀ m n : Nat, decimal m ++ '.' :: (decimal n ++ ['.']) <+: x.text ↔
      m = x.o₁.toNat ∧ n = x.o₂.toNat := by
    intro m n
    rw [Inet4.text, dotted_head_iff, dotted_head_iff]
    simp
  have hfirst : decimal 10 ++ ['.'] <+: x.text ↔ 10 = x.o₁.toNat := by
    rw [Inet4.text, dotted_head_iff]
    simp
  rw [isSiteLocalIpv4, siteHeads_eq]
  simp only [List.any_cons, List.any_map, Bool.or_eq_true, List.isPrefixOf_iff_prefix,
    List.any_eq_true, List.mem_range'_1, Function.comp_apply, hfirst, hsecond]
  simp only [Inet4.SiteLocal, ← UInt8.toNat_inj]
  have hten : (10 : UInt8).toNat = 10 := rfl
  have hclass : (172 : UInt8).toNat = 172 := rfl
  have hhome : (192 : UInt8).toNat = 192 := rfl
  have hlan : (168 : UInt8).toNat = 168 := rfl
  rw [hten, hclass, hhome, hlan]
  constructor
  · rintro (h | ⟨h₁, h₂⟩ | ⟨n, hn, h₁, h₂⟩)
    · exact .inl h.symm
    · exact .inr (.inr ⟨h₁.symm, h₂.symm⟩)
    · exact .inr (.inl ⟨h₁.symm, by omega, by omega⟩)
  · rintro (h | ⟨h₁, hlow, hhigh⟩ | ⟨h₁, h₂⟩)
    · exact .inl h.symm
    · exact .inr (.inr ⟨x.o₂.toNat, ⟨hlow, by omega⟩, h₁.symm, rfl⟩)
    · exact .inr (.inl ⟨h₁.symm, h₂.symm⟩)

/-! ## What is in the list -/

theorem mem_addSubnet {subnets : List Str} {cidr s : Str} :
    s ∈ addSubnet subnets cidr ↔ s ∈ subnets ∨ s = cidr := by
  unfold addSubnet
  split
  · rename_i hin
    constructor
    · exact .inl
    · rintro (h | rfl)
      · exact h
      · exact hin
  · simp

/-- No address of an interface is in a form that makes `toInt` throw. -/
theorem walkAddresses_spec (l : List InetAddress) (subnets : List Str) :
    (walkAddresses subnets l).2 = true ∧ ∀ s, s ∈ (walkAddresses subnets l).1 ↔
      s ∈ subnets ∨ ∃ net, .inet4 net ∈ l ∧ net.address.SiteLocal ∧
        s = (Net.around net.address).text := by
  induction l generalizing subnets with
  | nil => simp [walkAddresses]
  | cons a rest ih =>
    cases a with
    | other => simpa [walkAddresses] using ih subnets
    | inet4 net =>
      unfold walkAddresses
      dsimp only
      split
      · rename_i hsite
        rw [ipToCidr_text]
        refine ⟨(ih _).1, fun s => ?_⟩
        dsimp only
        rw [(ih _).2, mem_addSubnet]
        have hlocal := (isSiteLocalIpv4_text _).1 hsite
        constructor
        · rintro ((h | rfl) | ⟨n, hn, hn', rfl⟩)
          · exact .inl h
          · exact .inr ⟨net, .head _, hlocal, rfl⟩
          · exact .inr ⟨n, .tail _ hn, hn', rfl⟩
        · rintro (h | ⟨n, hn, hn', rfl⟩)
          · exact .inl (.inl h)
          · rcases List.mem_cons.1 hn with heq | hn
            · cases heq
              exact .inl (.inr rfl)
            · exact .inr ⟨n, hn, hn', rfl⟩
      · rename_i hsite
        refine ⟨(ih _).1, fun s => ?_⟩
        rw [(ih _).2]
        constructor
        · rintro (h | ⟨n, hn, hn', rfl⟩)
          · exact .inl h
          · exact .inr ⟨n, .tail _ hn, hn', rfl⟩
        · rintro (h | ⟨n, hn, hn', rfl⟩)
          · exact .inl h
          · rcases List.mem_cons.1 hn with heq | hn
            · cases heq
              exact absurd ((isSiteLocalIpv4_text _).2 hn') hsite
            · exact .inr ⟨n, hn, hn', rfl⟩

instance (ni : NetworkInterface) : Decidable ni.Taken := inferInstanceAs (Decidable (_ ∧ _))

theorem mem_walkInterfaces (l : List NetworkInterface) (subnets : List Str) (s : Str) :
    s ∈ walkInterfaces subnets l ↔ s ∈ subnets ∨ ∃ ni ∈ l.takeWhile (·.isUp.isSome), ni.Taken ∧
      ∃ net, .inet4 net ∈ ni.inetAddresses ∧ net.address.SiteLocal ∧
        s = (Net.around net.address).text := by
  induction l generalizing subnets with
  | nil => simp [walkInterfaces]
  | cons ni rest ih =>
    unfold walkInterfaces
    cases hup : ni.isUp with
    | none => simp [hup]
    | some isUp =>
      have hwhile : (ni :: rest).takeWhile (·.isUp.isSome) =
          ni :: rest.takeWhile (·.isUp.isSome) := by simp [hup]
      rw [hwhile, List.exists_mem_cons_iff]
      dsimp only
      by_cases htaken : ni.Taken
      · have hskip : (!isUp || ni.isLoopback || isVirtualInterface ni.name) = false := by
          rcases htaken with ⟨h₁, h₂, h₃⟩
          obtain rfl := Option.some.inj (hup.symm.trans h₁)
          simp [h₂, h₃]
        have hwalk := walkAddresses_spec ni.inetAddresses subnets
        cases hfound : walkAddresses subnets ni.inetAddresses with
        | mk found ends =>
          rw [hfound] at hwalk
          obtain rfl : ends = true := hwalk.1
          rw [hskip]
          dsimp only
          rw [if_neg Bool.false_ne_true, ih, hwalk.2, or_assoc]
          simp only [htaken, true_and]
      · have hskip : (!isUp || ni.isLoopback || isVirtualInterface ni.name) = true := by
          by_contra hnot
          simp only [Bool.not_eq_true, Bool.or_eq_false_iff, Bool.not_eq_false'] at hnot
          obtain ⟨⟨rfl, h₂⟩, h₃⟩ := hnot
          exact htaken ⟨hup, h₂, h₃⟩
        rw [if_pos hskip, ih]
        simp only [htaken, false_and, false_or]

theorem Device.wifiIp_ne_zero_iff {d : Device} : d.wifiIp ≠ 0 ↔ ∃ x, d.Tells x := by
  unfold Device.wifiIp Device.Tells
  cases hwifi : d.wifi with
  | none => simp
  | some net =>
    cases htold : d.wifiTold with
    | false => simp
    | true => simp [Inet4.leastFirst_eq_zero_iff]

theorem Device.Tells.wifiIp {d : Device} {x : Inet4} (h : d.Tells x) : d.wifiIp = x.leastFirst := by
  rcases h with ⟨htold, -, net, hwifi, rfl⟩
  rw [Device.wifiIp, hwifi, htold]
  rfl

theorem mem_walked {d : Device} {s : Str} : s ∈ walkInterfaces [] d.interfaces ↔
    ∃ x, d.Sees x ∧ s = (Net.around x).text := by
  rw [mem_walkInterfaces]
  constructor
  · rintro (h | ⟨ni, hni, htaken, net, hnet, hlocal, rfl⟩)
    · exact absurd h List.not_mem_nil
    · exact ⟨net.address, ⟨ni, hni, htaken, ⟨net, hnet, rfl⟩, hlocal⟩, rfl⟩
  · rintro ⟨x, ⟨ni, hni, htaken, ⟨net, hnet, rfl⟩, hlocal⟩, rfl⟩
    exact .inr ⟨ni, hni, htaken, net, hnet, hlocal, rfl⟩

/-- The /24 around each private address that is seen, and the one around the
bytes of the Wi-Fi address in the opposite order. -/
theorem mem_detect {d : Device} {s : Str} : s ∈ detect d ↔
    (∃ x, d.Sees x ∧ s = (Net.around x).text) ∨
      ∃ x, d.Tells x ∧ s = (Net.around x.swapped).text := by
  unfold detect
  dsimp only
  by_cases hzero : d.wifiIp = 0
  · have hnone : ¬ ∃ x, d.Tells x := fun h => Device.wifiIp_ne_zero_iff.2 h hzero
    rw [if_neg (not_not_intro hzero), mem_walked]
    constructor
    · exact .inl
    · rintro (h | ⟨x, hx, -⟩)
      · exact h
      · exact absurd ⟨x, hx⟩ hnone
  · rcases Device.wifiIp_ne_zero_iff.1 hzero with ⟨x, hx⟩
    rw [if_pos hzero, mem_addSubnet, mem_walked, hx.wifiIp, intToCidr_leastFirst]
    refine or_congr_right ?_
    constructor
    · rintro rfl
      exact ⟨x, hx, rfl⟩
    · rintro ⟨y, hy, rfl⟩
      -- the manager tells one address
      rcases hx with ⟨-, -, net, hwifi, rfl⟩
      rcases hy with ⟨-, -, net', hwifi', rfl⟩
      obtain rfl := Option.some.inj (hwifi.symm.trans hwifi')
      rfl

/-! ## When local networks stay outside -/

/-- Each network that the detector reports is attached, and each route that
overlaps an attached network is written like one that it reports. -/
structure Spelled (d : Device) (k : Connection) : Prop where
  /-- A private address that is seen lies in an attached network of 256 addresses. -/
  seen : ∀ x, d.Sees x → ∃ lan ∈ d.lans, lan.length = 24 ∧ lan.Contains x
  /-- So does the Wi-Fi address with its bytes in the opposite order. -/
  told : ∀ x, d.Tells x → ∃ lan ∈ d.lans, lan.length = 24 ∧ lan.Contains x.swapped
  written : ∀ route, route = k.virtualIpSubnet ∨ route ∈ k.currentMeshRoutes →
    ∀ lan ∈ d.lans, Overlaps route lan →
      (∃ x, d.Sees x ∧ route = (Net.around x).text) ∨
        ∃ x, d.Tells x ∧ route = (Net.around x.swapped).text

theorem attached_iff (d : Device) : (∀ cidr ∈ detect d, ∃ lan ∈ d.lans, cidr = lan.text) ↔
    (∀ x, d.Sees x → ∃ lan ∈ d.lans, lan.length = 24 ∧ lan.Contains x) ∧
      ∀ x, d.Tells x → ∃ lan ∈ d.lans, lan.length = 24 ∧ lan.Contains x.swapped := by
  have hlan : ∀ x, (∃ lan ∈ d.lans, (Net.around x).text = lan.text) ↔
      ∃ lan ∈ d.lans, lan.length = 24 ∧ lan.Contains x := by
    intro x
    refine exists_congr fun lan => and_congr_right fun _ => ?_
    rw [eq_comm, Net.text_eq_around_iff]
  simp only [← hlan]
  constructor
  · intro h
    exact ⟨fun x hx => h _ (mem_detect.2 (.inl ⟨x, hx, rfl⟩)),
      fun x hx => h _ (mem_detect.2 (.inr ⟨x, hx, rfl⟩))⟩
  · rintro ⟨hsees, htells⟩ cidr hcidr
    rcases mem_detect.1 hcidr with ⟨x, hx, rfl⟩ | ⟨x, hx, rfl⟩
    · exact hsees x hx
    · exact htells x hx

theorem mem_desiredRoutes {d : Device} {k : Connection} {route : Str} :
    route ∈ (k.detected d).desiredRoutes ↔
      (route = k.virtualIpSubnet ∨ route ∈ k.currentMeshRoutes) ∧ route ∉ detect d := by
  rw [Connection.desiredRoutes, Finset.mem_sdiff, Finset.mem_insert]
  simp only [Connection.detected, List.mem_toFinset]
  exact Iff.rfl

/-- The attached networks stay outside, and no other is taken for one, exactly if the
routes are spelled like what the detector reports. -/
theorem local_outside_iff (d : Device) (k : Connection) : LocalOutside d k ↔ Spelled d k := by
  constructor
  · rintro ⟨hapart, hattached⟩
    rcases (attached_iff d).1 hattached with ⟨hseen, htold⟩
    refine ⟨hseen, htold, fun route hroute lan hlan hoverlaps => ?_⟩
    by_contra hnot
    exact hapart route (mem_desiredRoutes.2 ⟨hroute, fun hin => hnot (mem_detect.1 hin)⟩) lan hlan
      hoverlaps
  · intro h
    refine ⟨fun route hroute lan hlan hoverlaps => ?_, (attached_iff d).2 ⟨h.seen, h.told⟩⟩
    rcases mem_desiredRoutes.1 hroute with ⟨hfrom, hout⟩
    exact hout (mem_detect.2 (h.written route hfrom lan hlan hoverlaps))

/-! ### Home networks -/

theorem head?_decimal_ne {n : Nat} (h : n ≠ 0) : (decimal n).head? ≠ some '0' := by
  induction n using Nat.strongRecOn with
  | _ n ih =>
    by_cases hlt : n < 10
    · have hdigit : ∀ k < 10, k ≠ 0 → k.digitChar ≠ '0' := by decide
      rw [decimal, Nat.toDigits_of_lt_base hlt]
      simpa using hdigit n hlt h
    · have hten : 10 ≤ n := by omega
      rw [decimal, Nat.toDigits_of_base_le (by decide) hten,
        List.head?_append_of_ne_nil _ Nat.toDigits_ne_nil]
      exact ih (n / 10) (by omega) (by omega)

theorem readOctet_decimal {n : Nat} (h : n < 256) : readOctet (decimal n) = some n := by
  have hlength : (decimal n).length ≤ 3 :=
    (Nat.length_toDigits_le_iff (by decide) (by decide)).2 (by omega)
  have hzero : (decimal n).head? ≠ some '0' ∨ decimal n = ['0'] := by
    by_cases hn : n = 0
    · subst hn
      exact .inr rfl
    · exact .inl (head?_decimal_ne hn)
  rw [readOctet, if_pos ⟨hlength, hzero⟩, parseDigits_decimal]
  simp [h]

theorem parseIpv4_text (x : Inet4) : parseIpv4 x.text = some x.toNat := by
  simp only [parseIpv4, Inet4.splitOn_text, readOctet_decimal x.o₁.toNat_lt,
    readOctet_decimal x.o₂.toNat_lt, readOctet_decimal x.o₃.toNat_lt,
    readOctet_decimal x.o₄.toNat_lt]
  rfl

theorem readRoute_text (n : Net) : readRoute n.text = some (n.first.toNat, n.length.val) := by
  have hlength := n.length.isLt
  have hdigits : '/' ∉ decimal n.length.val := by
    intro hmem
    exact absurd (isDigit_of_mem_decimal hmem) (by decide)
  have hsplit : n.text.splitOn '/' = [n.first.text, decimal n.length.val] := by
    rw [Net.text, List.splitOn_append_cons_self_of_not_mem n.first.slash_notMem_text,
      List.splitOn_eq_singleton hdigits]
  have hread : parseSigned (2 ^ 31) (decimal n.length.val) = some (n.length.val : Int) := by
    rw [parseSigned_of_parseUnsigned (parseUnsigned_decimal hlength), if_pos (by omega)]
  rw [readRoute, hsplit]
  dsimp only
  rw [hread, Option.getD_some, addRoute, if_pos (by omega), parseIpv4_text]
  rfl

/-- The route covers the addresses of its network. -/
theorem routeCovers_around {x y : Inet4} :
    RouteCovers (Net.around x).text y ↔ (Net.around x).Contains y := by
  have hlength : 2 ^ (32 - (24 : Fin 33).val) = 256 := by decide
  have hlast := x.o₄.toNat_lt
  have hfirst : (Net.around x).first.toNat / 256 = x.toNat / 256 := by
    rw [Net.first_around]
    simp only [Inet4.toNat, UInt8.toNat_zero]
    omega
  unfold RouteCovers
  rw [readRoute_text]
  constructor
  · rintro ⟨n, length, heq, hcovers⟩
    obtain ⟨rfl, rfl⟩ := Prod.mk.inj (Option.some.inj heq)
    show y.toNat / 2 ^ (32 - (24 : Fin 33).val) = x.toNat / 2 ^ (32 - (24 : Fin 33).val)
    rw [hlength, ← hfirst, ← hlength]
    exact hcovers
  · intro h
    refine ⟨_, _, rfl, ?_⟩
    show y.toNat / 2 ^ (32 - (24 : Fin 33).val) =
      (Net.around x).first.toNat / 2 ^ (32 - (24 : Fin 33).val)
    rw [hlength, hfirst, ← hlength]
    exact h

/-! ### A network that is not outside -/

theorem campusLength_lt : 16 < 33 := by decide

/-- A phone in the Wi-Fi network 172.16.0.0/16, at 172.16.5.7. -/
def campusPhone : Device where
  interfaces := [⟨"wlan0".toList, some true, false,
    [.inet4 ⟨⟨172, 16, 5, 7⟩, ⟨16, campusLength_lt⟩⟩], true⟩]
  wifi := some ⟨⟨172, 16, 5, 7⟩, ⟨16, campusLength_lt⟩⟩
  wifiTold := true

/-- A peer shares a network of its own at 172.16.9.0/24. -/
def campusCall : Connection where
  virtualIpClean := "10.144.144.10".toList
  localSubnets := ∅
  currentMeshRoutes := {"172.16.9.0/24".toList}
  vpnStarted := true
  rebuildBusy := false
  rebuildQueued := false
  appliedRoutes := none

theorem detect_campusPhone :
    detect campusPhone = ["172.16.5.0/24".toList, "7.5.16.0/24".toList] := by
  decide

theorem campus_not_outside : ¬ LocalOutside campusPhone campusCall ∧
    (∃ route ∈ (campusCall.detected campusPhone).desiredRoutes, ∃ lan ∈ campusPhone.lans,
      Overlaps route lan) ∧
    ∃ cidr ∈ detect campusPhone, ∀ lan ∈ campusPhone.lans, cidr ≠ lan.text := by
  have hroute : (Net.around ⟨172, 16, 9, 0⟩).text = "172.16.9.0/24".toList := by decide
  have hdesired : "172.16.9.0/24".toList ∈ (campusCall.detected campusPhone).desiredRoutes := by
    refine mem_desiredRoutes.2 ⟨.inr (Finset.mem_singleton_self _), ?_⟩
    rw [detect_campusPhone]
    decide
  have hlan : (⟨⟨172, 16, 5, 7⟩, 16⟩ : Net) ∈ campusPhone.lans := .head _
  have hoverlaps : Overlaps "172.16.9.0/24".toList ⟨⟨172, 16, 5, 7⟩, 16⟩ := by
    refine ⟨⟨172, 16, 9, 20⟩, by decide, ?_⟩
    rw [← hroute]
    exact routeCovers_around.2 (by decide)
  refine ⟨fun h => h.apart _ hdesired _ hlan hoverlaps, ⟨_, hdesired, _, hlan, hoverlaps⟩, ?_⟩
  refine ⟨"7.5.16.0/24".toList, ?_, ?_⟩
  · rw [detect_campusPhone]
    exact .tail _ (.head _)
  · have hlans : campusPhone.lans = [⟨⟨172, 16, 5, 7⟩, 16⟩, ⟨⟨172, 16, 5, 7⟩, 16⟩] := rfl
    rw [hlans]
    decide

end HomeTier.Vpn
