import HomeTier.EasyTier.Proto

/-! # Two translations, one network

The loader of the mobile library and the loader the desktop core derives from
the message are compared field by field. They agree exactly when the texts that
are parsed parse on both sides and no setting is used that one side drops,
reads from another place or completes with another default.
-/

namespace HomeTier

open Lib

section Agreement

variable {Url Inet Cidr Ip Addr : Type} (A : AddrParsers Url Inet Cidr Ip Addr)

/-- All flags but the default protocol and the receive limit. -/
def SameFlags (f g : Flags) : Prop :=
  { f with
    defaultProtocol := g.defaultProtocol
    instanceRecvBpsLimit := g.instanceRecvBpsLimit } = g

/-- Two loaders describe one network. -/
structure SameNetwork (n m : TomlConfig Url Inet Cidr Ip Addr) : Prop where
  networkName : n.networkName = m.networkName
  networkSecret : n.networkSecret = m.networkSecret
  dhcp : n.dhcp = m.dhcp
  ipv4 : n.ipv4 = m.ipv4
  ipv6PublicAddrAuto : n.ipv6PublicAddrAuto = m.ipv6PublicAddrAuto
  peers : n.peers = m.peers
  listeners : n.listeners = m.listeners
  mappedListeners : n.mappedListeners = m.mappedListeners
  proxyCidrs : n.proxyCidrs = m.proxyCidrs
  routes : n.routes = m.routes
  exitNodes : n.exitNodes = m.exitNodes
  vpnPortal : n.vpnPortal = m.vpnPortal
  socks5Portal : n.socks5Portal = m.socks5Portal
  portForwards : n.portForwards = m.portForwards
  flags : SameFlags n.flags m.flags

namespace NetworkConfig

variable (c : NetworkConfig) (defaultSpaceIp : Str)

/-- The desktop translation, up to the loader of the core. -/
def desktopConfig [DecidableEq Cidr] (defaults : Flags) :
    Except Str (TomlConfig Url Inet Cidr Ip Addr) :=
  (c.buildProtoConfig A defaultSpaceIp).genConfig A defaults

/-- Both translations fail, or both describe one network. -/
def Agrees [DecidableEq Cidr] (algorithm freshId : Str) : Prop :=
  match c.toEasytierConfig A (genDefaultFlags algorithm) freshId,
    c.desktopConfig A defaultSpaceIp (genDefaultFlags algorithm) with
  | .ok n, .ok m => SameNetwork n m
  | .error _, .error _ => True
  | _, _ => False

/-! ## What each side accepts -/

/-- Peers and listeners of the mobile side are URLs. -/
structure MobileAccepts : Prop where
  peers : ∀ p ∈ c.namedPeers, (A.urlOf p.1).isSome
  listeners : ∀ l ∈ c.namedListeners, (A.urlOf l).isSome
  mapped : ∀ l ∈ c.mappedListeners, l ≠ [] → (A.urlOf l).isSome

/-- The peers of the networking method; an unknown method has an empty server. -/
def desktopPeers : List Str :=
  if c.networkingMethod = 1 then
    (if c.peerUrls ≠ [] then c.peerUrls else c.peers.map fun p => p.uri).filter fun u => u ≠ []
  else if c.networkingMethod = 2 then []
  else [if c.networkingMethod = 0 then c.publicServerUrl else []]

/-- A network, or two networks of one length around an arrow. -/
def ProxyNetwork (entry : Str) : Prop :=
  match splitOnce "->".toList entry with
  | none => (A.cidr entry).isSome
  | some (real, mapped) =>
    splitOnce "->".toList mapped = none ∧
      ∃ r m, A.cidr real = some r ∧ A.cidr mapped = some m ∧ A.cidrLength r = A.cidrLength m

/-- The desktop side parses the address, proxy networks, routes and exit nodes as well. -/
structure DesktopAccepts : Prop where
  address : ∀ ip, c.effectiveIpv4 defaultSpaceIp = some ip → ip ≠ [] →
    (A.inet (ip ++ "/24".toList)).isSome
  peers : ∀ u ∈ c.desktopPeers, (A.urlOf u).isSome
  listeners : ∀ l ∈ c.listenerUrls, l ≠ [] → (A.urlOf l).isSome
  proxyCidrs : ∀ n ∈ c.effectiveProxyCidrs A, ProxyNetwork A n
  routes : c.enableManualRoutes = true → ∀ r ∈ c.routes, (A.cidr r).isSome
  exitNodes : ∀ n ∈ c.exitNodes, (A.ip n).isSome

/-! ## What both sides read alike -/

/-- The one peer of a public server, the trimmed and keyless peers of a manual
network, none of a standalone one. -/
def PeersAlike : Prop :=
  if c.networkingMethod = 1 then
    if c.peerUrls ≠ [] then
      ∀ u ∈ c.peerUrls, u = [] ∨ (trim u ≠ [] ∧ A.urlOf (trim u) = A.urlOf u)
    else ∀ p ∈ c.peers, p.uri = [] ∨ p.peerPublicKey = none
  else if c.networkingMethod = 2 then c.namedPeers = []
  else ∃ u, c.namedPeers = [(u, none)] ∧
    A.urlOf u = A.urlOf (if c.networkingMethod = 0 then c.publicServerUrl else [])

/-- Flags that the desktop takes from the legacy map only, with their reading there. -/
def legacyFlags : List (Bool × Bool) :=
  [(c.latencyFirst, (c.boolFlag "latency_first").getD false),
    (c.enableKcpProxy, (c.boolFlag "enable_kcp_proxy").getD false),
    (c.enableQuicProxy, (c.boolFlag "enable_quic_proxy").getD false),
    (c.noTun, (c.boolFlag "no_tun").getD false),
    (c.disableP2p, (c.boolFlag "disable_p2p").getD false),
    (c.multiThread, (c.boolFlag "multi_thread").getD true),
    (c.bindDevice, (c.boolFlag "bind_device").getD true)]

/-- Flags that the desktop drops; the core has them off. -/
def droppedFlags : List Bool :=
  [c.useSmoltcp, c.disableKcpInput, c.disableQuicInput, c.p2pOnly, c.lazyP2p, c.enableExitNode,
    c.relayAllPeerRpc, c.needP2p, c.proxyForwardBySystem, c.disableTcpHolePunching,
    c.disableUdpHolePunching, c.disableUpnp, c.enableUdpBroadcastRelay, c.disableSymHolePunching,
    c.enableMagicDns, c.enablePrivateMode]

/-- The legacy MTU as both sides read it, or else the field against the `i32` reading. -/
def MtuAlike : Prop :=
  match (c.flag "mtu").bind parseU32 with
  | some m => m.toNat < 2 ^ 31
  | none =>
    c.mtu.getD 1380 = (((c.flag "mtu").bind parseI32).map Int32.toUInt32).getD 1380

structure FlagsAlike : Prop where
  legacy : ∀ f ∈ c.legacyFlags, f.1 = f.2
  dropped : ∀ b ∈ c.droppedFlags, b = false
  encryption : (c.boolFlag "enable_encryption").getD (!c.disableEncryption) = true
  ipv6 : (c.boolFlag "enable_ipv6").getD (!c.disableIpv6) = true
  whitelist : c.enableRelayNetworkWhitelist = true → c.relayNetworkWhitelist ≠ [] →
    [','].intercalate c.relayNetworkWhitelist = "*".toList
  devName : c.devName = [] ∨ (c.flag "dev_name").getD [] ≠ []
  mtu : c.MtuAlike

/-- The settings that both sides read alike. -/
structure ReadAlike : Prop where
  address : if c.virtualIpv4 ≠ [] then c.networkLength = 24
    else c.ipv4.getD [] = [] ∧ (c.dhcp = true ∨ defaultSpaceIp = [])
  peers : c.PeersAlike A
  listeners : c.listenerUrls ≠ [] ∨ ∀ l ∈ c.listeners, l = []
  mapped : ∀ l ∈ c.mappedListeners, l = []
  proxyCidrs : ∀ n ∈ c.effectiveProxyCidrs A, splitOnce "->".toList n = none
  routes : c.enableManualRoutes = true → c.routes ≠ []
  forwards : ∀ pf ∈ c.portForwards,
    A.resolve (pf.bindIp ++ ':' :: decimal pf.bindPort.toNat) = none ∨
      A.resolve (pf.dstIp ++ ':' :: decimal pf.dstPort.toNat) = none
  portal : c.enableVpnPortal = true → A.cidr (c.vpnPortalClientNetworkAddr ++
    '/' :: decimal c.vpnPortalClientNetworkLen.toNat) = none
  socks5 : c.enableSocks5 = false
  ipv6Auto : c.ipv6PublicAddrAuto ≠ some true
  flags : c.FlagsAlike

end NetworkConfig

end Agreement

section Results

variable {Url Inet Cidr Ip Addr : Type} {A : AddrParsers Url Inet Cidr Ip Addr}

namespace NetworkConfig

variable {c : NetworkConfig} {defaultSpaceIp : Str}

/-! ## Acceptance -/

section Accepts

variable {defaults : Flags} {freshId : Str}

theorem toEasytierConfig_eq_ok [DecidableEq Cidr] {n : TomlConfig Url Inet Cidr Ip Addr} :
    c.toEasytierConfig A defaults freshId = .ok n ↔ ∃ peers listeners mapped,
      collect (c.parsePeer A) c.namedPeers = .ok peers ∧
      collect (parseListener A "listener".toList) c.namedListeners = .ok listeners ∧
      collect (parseListener A "mapped listener".toList)
        (c.mappedListeners.filter fun l => l ≠ []) = .ok mapped ∧
      n = c.mobileConfig A defaults freshId peers listeners mapped := by
  simp only [toEasytierConfig, bind_eq_ok, pure, Except.pure, Except.ok.injEq]
  constructor
  · rintro ⟨peers, hp, listeners, hl, mapped, hm, rfl⟩
    exact ⟨peers, listeners, mapped, hp, hl, hm, rfl⟩
  · rintro ⟨peers, listeners, mapped, hp, hl, hm, rfl⟩
    exact ⟨peers, hp, listeners, hl, mapped, hm, rfl⟩

theorem mobile_ok_iff [DecidableEq Cidr] :
    (∃ n, c.toEasytierConfig A defaults freshId = .ok n) ↔ c.MobileAccepts A := by
  have hsteps : (∃ n, c.toEasytierConfig A defaults freshId = .ok n) ↔
      (∃ peers, collect (c.parsePeer A) c.namedPeers = .ok peers) ∧
      (∃ listeners, collect (parseListener A "listener".toList) c.namedListeners =
        .ok listeners) ∧
      ∃ mapped, collect (parseListener A "mapped listener".toList)
        (c.mappedListeners.filter fun l => l ≠ []) = .ok mapped := by
    simp only [toEasytierConfig_eq_ok]
    constructor
    · rintro ⟨n, peers, listeners, mapped, hp, hl, hm, -⟩
      exact ⟨⟨peers, hp⟩, ⟨listeners, hl⟩, ⟨mapped, hm⟩⟩
    · rintro ⟨⟨peers, hp⟩, ⟨listeners, hl⟩, ⟨mapped, hm⟩⟩
      exact ⟨_, peers, listeners, mapped, hp, hl, hm, rfl⟩
  rw [hsteps, collect_ok_iff, collect_ok_iff, collect_ok_iff]
  simp only [toOption_parsePeer, toOption_parseListener, Option.isSome_map, List.mem_filter,
    decide_eq_true_eq, and_imp]
  constructor
  · rintro ⟨hp, hl, hm⟩
    exact ⟨hp, hl, hm⟩
  · intro h
    exact ⟨h.peers, h.listeners, h.mapped⟩

/-! The message that `build_proto_config` writes, as `gen_config` reads it. -/

theorem someText_eq_none {s : Str} : someText s = none ↔ s = [] := by
  rw [someText]
  by_cases hs : s = []
  · simp [hs]
  · simp [hs]

theorem someText_eq_some {s t : Str} : someText s = some t ↔ s = t ∧ t ≠ [] := by
  rw [someText]
  by_cases hs : s = []
  · rw [if_pos hs]
    constructor
    · intro h
      simp at h
    · rintro ⟨rfl, ht⟩
      exact absurd hs ht
  · rw [if_neg hs, Option.some.injEq]
    constructor
    · rintro rfl
      exact ⟨rfl, hs⟩
    · intro h
      exact h.1

@[simp] theorem getD_someText (s : Str) : (someText s).getD [] = s := by
  rw [someText]
  by_cases hs : s = []
  · simp [hs]
  · simp [hs]

/-- Without an address of its own and a legacy one, a space asks for DHCP or takes the default. -/
theorem effectiveIpv4_of_nil (hv : c.virtualIpv4 = []) (hlegacy : c.ipv4.getD [] = []) :
    c.effectiveIpv4 defaultSpaceIp = if c.dhcp = true then none else some defaultSpaceIp := by
  have hown : c.ipv4.bind someText = none := by
    cases hip : c.ipv4 with
    | none => rfl
    | some ip =>
      rw [hip] at hlegacy
      simpa [someText_eq_none] using hlegacy
  rw [effectiveIpv4, hv, hown]
  cases c.dhcp with
  | true => rfl
  | false => rfl

theorem effectiveIpv4_of_legacy (hv : c.virtualIpv4 = []) (hlegacy : c.ipv4.getD [] ≠ []) :
    c.effectiveIpv4 defaultSpaceIp = some (c.ipv4.getD []) := by
  cases hip : c.ipv4 with
  | none => simp [hip] at hlegacy
  | some ip =>
    have hne : ip ≠ [] := by simpa [hip] using hlegacy
    have hsome : someText ip = some ip := someText_eq_some.2 ⟨rfl, hne⟩
    simp [effectiveIpv4, hv, hip, hsome]

theorem effectiveIpv4_of_own (hv : c.virtualIpv4 ≠ []) :
    c.effectiveIpv4 defaultSpaceIp = some c.virtualIpv4 := by
  simp [effectiveIpv4, hv]

/-- DHCP is on exactly when there is no address. -/
theorem dhcp_build : (c.buildProtoConfig A defaultSpaceIp).dhcp =
    some (c.effectiveIpv4 defaultSpaceIp).isNone := by
  show some _ = some _
  cases heff : c.effectiveIpv4 defaultSpaceIp with
  | some ip => rfl
  | none =>
    by_cases hv : c.virtualIpv4 = []
    · by_cases hlegacy : c.ipv4.getD [] = []
      · rw [effectiveIpv4_of_nil hv hlegacy] at heff
        by_cases hdhcp : c.dhcp = true
        · simp [hdhcp]
        · simp [hdhcp] at heff
      · simp [effectiveIpv4_of_legacy hv hlegacy] at heff
    · simp [effectiveIpv4_of_own hv] at heff

theorem parseIpv4_build {inet : Option Inet} :
    (c.buildProtoConfig A defaultSpaceIp).parseIpv4 A = .ok inet ↔
      match c.effectiveIpv4 defaultSpaceIp with
      | none => inet = none
      | some ip =>
        if ip = [] then inet = none
        else ∃ i, A.inet (ip ++ "/24".toList) = some i ∧ inet = some i := by
  have haddr : (c.buildProtoConfig A defaultSpaceIp).virtualIpv4 =
    c.effectiveIpv4 defaultSpaceIp := rfl
  have hlen : (c.buildProtoConfig A defaultSpaceIp).networkLength = none := rfl
  have htext : '/' :: decimalInt ((none : Option Int).getD 24) = "/24".toList := by decide
  rw [ProtoConfig.parseIpv4, dhcp_build, haddr, hlen, htext]
  cases c.effectiveIpv4 defaultSpaceIp with
  | none => simp [eq_comm]
  | some ip =>
    by_cases hip : ip = []
    · simp [hip, eq_comm]
    · simp only [Option.getD_some, Option.isNone_some, Bool.false_eq_true, if_false, hip]
      cases A.inet (ip ++ "/24".toList) with
      | none => simp
      | some i => simp [eq_comm]

theorem method_build : (c.buildProtoConfig A defaultSpaceIp).method =
    if c.networkingMethod = 1 then .manual
    else if c.networkingMethod = 2 then .standalone else .publicServer := by
  unfold ProtoConfig.method buildProtoConfig
  dsimp only
  split
  · next h0 => simp [h0, NetworkingMethod.ofInt, NetworkingMethod.toInt]
  · next h1 => simp [h1, NetworkingMethod.ofInt, NetworkingMethod.toInt]
  · next h2 => simp [h2, NetworkingMethod.ofInt, NetworkingMethod.toInt]
  · next h0 h1 h2 =>
    rw [if_neg h1, if_neg h2]
    rfl

theorem publicServerUrl_build :
    (c.buildProtoConfig A defaultSpaceIp).publicServerUrl.getD [] =
      if c.networkingMethod = 0 then c.publicServerUrl else [] := by
  unfold buildProtoConfig
  dsimp only
  split
  · next h0 => simp [h0]
  · next h0 =>
    rw [if_neg h0]
    rfl

theorem peerTexts_build :
    (c.buildProtoConfig A defaultSpaceIp).peerTexts = c.desktopPeers := by
  rw [ProtoConfig.peerTexts, method_build, publicServerUrl_build, desktopPeers]
  by_cases h1 : c.networkingMethod = 1
  · simp only [if_pos h1]
    rfl
  · by_cases h2 : c.networkingMethod = 2
    · simp only [if_neg h1, if_pos h2]
    · simp only [if_neg h1, if_neg h2]

theorem desktopConfig_eq_ok [DecidableEq Cidr] {m : TomlConfig Url Inet Cidr Ip Addr} :
    c.desktopConfig A defaultSpaceIp defaults = .ok m ↔
      ∃ ipv4 peers listeners networks routes exitNodes,
        (c.buildProtoConfig A defaultSpaceIp).parseIpv4 A = .ok ipv4 ∧
        collect ((c.buildProtoConfig A defaultSpaceIp).parsePeer A) c.desktopPeers = .ok peers ∧
        collect (parseWith A.urlOf "failed to parse listener uri: ".toList)
          (c.listenerUrls.filter fun l => l ≠ []) = .ok listeners ∧
        collect (parseProxyNetwork A) (c.effectiveProxyCidrs A) = .ok networks ∧
        (c.buildProtoConfig A defaultSpaceIp).parseRoutes A = .ok routes ∧
        collect (parseWith A.ip "failed to parse exit node: ".toList) c.exitNodes =
          .ok exitNodes ∧
        m = (c.buildProtoConfig A defaultSpaceIp).config A defaults ipv4 peers listeners networks
          none routes exitNodes [] := by
  rw [desktopConfig, ProtoConfig.genConfig, peerTexts_build]
  simp only [bind_eq_ok, pure, Except.pure, Except.ok.injEq]
  constructor
  · rintro ⟨ipv4, h4, peers, hp, listeners, hl, networks, hn, vpn, hv, routes, hr, exitNodes, he,
      mapped, hm, rfl⟩
    -- the message has neither a portal nor mapped listeners
    obtain rfl : none = vpn := Except.ok.inj hv
    obtain rfl : [] = mapped := Except.ok.inj hm
    exact ⟨ipv4, peers, listeners, networks, routes, exitNodes, h4, hp, hl, hn, hr, he, rfl⟩
  · rintro ⟨ipv4, peers, listeners, networks, routes, exitNodes, h4, hp, hl, hn, hr, he, rfl⟩
    exact ⟨ipv4, h4, peers, hp, listeners, hl, networks, hn, none, rfl, routes, hr, exitNodes, he,
      [], rfl, rfl⟩

theorem address_ok_iff :
    (∃ inet, (c.buildProtoConfig A defaultSpaceIp).parseIpv4 A = .ok inet) ↔
      ∀ ip, c.effectiveIpv4 defaultSpaceIp = some ip → ip ≠ [] →
        (A.inet (ip ++ "/24".toList)).isSome = true := by
  simp only [parseIpv4_build]
  cases c.effectiveIpv4 defaultSpaceIp with
  | none => simp
  | some ip =>
    by_cases hip : ip = []
    · simp [hip]
    · simp [hip, Option.isSome_iff_exists]

theorem routes_ok_iff :
    (∃ routes, (c.buildProtoConfig A defaultSpaceIp).parseRoutes A = .ok routes) ↔
      (c.enableManualRoutes = true → ∀ r ∈ c.routes, (A.cidr r).isSome = true) := by
  have hon : (c.buildProtoConfig A defaultSpaceIp).enableManualRoutes =
    some c.enableManualRoutes := rfl
  have hroutes : (c.buildProtoConfig A defaultSpaceIp).routes = c.routes := rfl
  rw [ProtoConfig.parseRoutes, hon, hroutes, Option.getD_some]
  by_cases h : c.enableManualRoutes = true
  · have hcollect : (∃ routes, collect (parseWith A.cidr "failed to parse route: ".toList)
        c.routes = .ok routes) ↔ ∀ r ∈ c.routes, (A.cidr r).isSome = true := by
      rw [collect_ok_iff]
      simp only [toOption_parseWith]
    simp only [h, if_true, true_implies, ← hcollect, bind_eq_ok]
    constructor
    · rintro ⟨routes, rs, hrs, -⟩
      exact ⟨rs, hrs⟩
    · rintro ⟨rs, hrs⟩
      exact ⟨some rs, rs, hrs, rfl⟩
  · simp [h]

theorem proxyNetwork_iff {entry : Str} :
    (parseProxyNetwork A entry).toOption.isSome = true ↔ ProxyNetwork A entry := by
  rw [← exists_ok_iff, ProxyNetwork]
  simp only [parseProxyNetwork_eq_ok]
  cases splitOnce "->".toList entry with
  | none =>
    simp only [Option.isSome_iff_exists]
    constructor
    · rintro ⟨n, hn, -⟩
      exact ⟨n.1, hn⟩
    · rintro ⟨r, hr⟩
      exact ⟨(r, none), hr, rfl⟩
  | some parts =>
    constructor
    · rintro ⟨n, hsplit, m, hr, hm, hlen, -⟩
      exact ⟨hsplit, n.1, m, hr, hm, hlen⟩
    · rintro ⟨hsplit, r, m, hr, hm, hlen⟩
      exact ⟨(r, some m), hsplit, m, hr, hm, hlen, rfl⟩

theorem desktop_ok_iff [DecidableEq Cidr] :
    (∃ m, c.desktopConfig A defaultSpaceIp defaults = .ok m) ↔
      c.DesktopAccepts A defaultSpaceIp := by
  have hsteps : (∃ m, c.desktopConfig A defaultSpaceIp defaults = .ok m) ↔
      (∃ inet, (c.buildProtoConfig A defaultSpaceIp).parseIpv4 A = .ok inet) ∧
      (∃ peers, collect ((c.buildProtoConfig A defaultSpaceIp).parsePeer A) c.desktopPeers =
        .ok peers) ∧
      (∃ listeners, collect (parseWith A.urlOf "failed to parse listener uri: ".toList)
        (c.listenerUrls.filter fun l => l ≠ []) = .ok listeners) ∧
      (∃ networks, collect (parseProxyNetwork A) (c.effectiveProxyCidrs A) = .ok networks) ∧
      (∃ routes, (c.buildProtoConfig A defaultSpaceIp).parseRoutes A = .ok routes) ∧
      ∃ exitNodes, collect (parseWith A.ip "failed to parse exit node: ".toList) c.exitNodes =
        .ok exitNodes := by
    simp only [desktopConfig_eq_ok]
    constructor
    · rintro ⟨m, ipv4, peers, listeners, networks, routes, exitNodes, h4, hp, hl, hn, hr, he, -⟩
      exact ⟨⟨ipv4, h4⟩, ⟨peers, hp⟩, ⟨listeners, hl⟩, ⟨networks, hn⟩, ⟨routes, hr⟩,
        ⟨exitNodes, he⟩⟩
    · rintro ⟨⟨ipv4, h4⟩, ⟨peers, hp⟩, ⟨listeners, hl⟩, ⟨networks, hn⟩, ⟨routes, hr⟩,
        ⟨exitNodes, he⟩⟩
      exact ⟨_, ipv4, peers, listeners, networks, routes, exitNodes, h4, hp, hl, hn, hr, he, rfl⟩
  rw [hsteps, address_ok_iff, routes_ok_iff, collect_ok_iff, collect_ok_iff, collect_ok_iff,
    collect_ok_iff]
  simp only [ProtoConfig.toOption_parsePeer, toOption_parseWith, proxyNetwork_iff,
    Option.isSome_map, List.mem_filter, decide_eq_true_eq, and_imp]
  constructor
  · rintro ⟨h4, hp, hl, hn, hr, he⟩
    exact ⟨h4, hp, hl, hn, hr, he⟩
  · intro h
    exact ⟨h.address, h.peers, h.listeners, h.proxyCidrs, h.routes, h.exitNodes⟩

end Accepts

/-! ## Fields -/

/-- The mobile address and DHCP flag against those of the desktop. -/
theorem address_iff {inet : Option Inet}
    (h : (c.buildProtoConfig A defaultSpaceIp).parseIpv4 A = .ok inet) :
    (c.effectiveDhcp = (c.effectiveIpv4 defaultSpaceIp).isNone ∧
      (if c.virtualIpv4 ≠ [] then
        A.inet (c.virtualIpv4 ++ '/' :: decimal c.networkLength.toNat) else none) = inet) ↔
      if c.virtualIpv4 ≠ [] then c.networkLength = 24
      else c.ipv4.getD [] = [] ∧ (c.dhcp = true ∨ defaultSpaceIp = []) := by
  rw [parseIpv4_build] at h
  by_cases hv : c.virtualIpv4 = []
  · by_cases hlegacy : c.ipv4.getD [] = []
    · rw [effectiveIpv4_of_nil hv hlegacy] at h ⊢
      by_cases hdhcp : c.dhcp = true
      · simp_all [effectiveDhcp]
      · by_cases hip : defaultSpaceIp = []
        · simp_all [effectiveDhcp]
        · -- the desktop takes the default address
          simp only [hdhcp, if_false, hip, Bool.false_eq_true] at h
          rcases h with ⟨i, -, rfl⟩
          simp [hv, hdhcp, hip]
    · rw [effectiveIpv4_of_legacy hv hlegacy] at h ⊢
      simp only [hlegacy, if_false] at h
      rcases h with ⟨i, -, rfl⟩
      simp [hv, hlegacy]
  · rw [effectiveIpv4_of_own hv] at h ⊢
    simp only [hv, if_false] at h
    rcases h with ⟨i, hi, rfl⟩
    have hdhcp : c.effectiveDhcp = false := by simp [effectiveDhcp, hv]
    simp only [hdhcp, Option.isNone_some, true_and, ne_eq, hv, not_false_eq_true, if_true]
    have htext : "/24".toList = '/' :: decimal 24 := by decide
    rw [htext] at hi
    constructor
    · intro hm
      have hlen := A.inet_length _ _ _ i hm hi
      exact UInt8.toNat_inj.1 hlen
    · intro hlen
      rw [hlen]
      exact hi

theorem listeners_iff {mobile desktop : List Url}
    (hm : collect (parseListener A "listener".toList) c.namedListeners = .ok mobile)
    (hd : collect (parseWith A.urlOf "failed to parse listener uri: ".toList)
      (c.listenerUrls.filter fun l => l ≠ []) = .ok desktop) :
    mobile = desktop ↔ c.listenerUrls ≠ [] ∨ ∀ l ∈ c.listeners, l = [] := by
  rw [collected_eq_iff hm hd]
  simp only [toOption_parseListener, toOption_parseWith, namedListeners]
  by_cases hl : c.listenerUrls = []
  · simp [hl, List.filter_eq_nil_iff]
  · simp [hl]

theorem mapped_iff {mobile : List Url}
    (hm : collect (parseListener A "mapped listener".toList)
      (c.mappedListeners.filter fun l => l ≠ []) = .ok mobile) :
    mobile = [] ↔ ∀ l ∈ c.mappedListeners, l = [] := by
  have hlen := congrArg List.length (map_toOption_of_collect hm)
  rw [List.length_map, List.length_map] at hlen
  rw [← List.length_eq_zero_iff, ← hlen, List.length_eq_zero_iff, List.filter_eq_nil_iff]
  simp

/-- The mobile side skips a mapped network, which the desktop adds. -/
theorem proxyCidrs_iff [DecidableEq Cidr] {networks : List (Cidr × Option Cidr)}
    (hd : collect (parseProxyNetwork A) (c.effectiveProxyCidrs A) = .ok networks) :
    ((c.effectiveProxyCidrs A).filterMap A.cidr).foldl
        (fun cidrs cidr => addProxyCidr cidrs (cidr, none)) [] =
      networks.foldl addProxyCidr [] ↔
      ∀ n ∈ c.effectiveProxyCidrs A, splitOnce "->".toList n = none := by
  have hfold : ((c.effectiveProxyCidrs A).filterMap A.cidr).foldl
      (fun cidrs cidr => addProxyCidr cidrs (cidr, none)) [] =
      (((c.effectiveProxyCidrs A).filterMap A.cidr).map fun r => (r, (none : Option Cidr))).foldl
        addProxyCidr [] := by
    rw [List.foldl_map]
  rw [hfold]
  constructor
  · intro heq n hn
    by_contra hsplit
    have hmem : parseProxyNetwork A n ∈ networks.map Except.ok := by
      rw [← collect_eq_ok.1 hd]
      exact List.mem_map_of_mem hn
    rcases List.mem_map.1 hmem with ⟨e, he, hok⟩
    have hread := parseProxyNetwork_eq_ok.1 hok.symm
    cases hs : splitOnce "->".toList n with
    | none => exact hsplit hs
    | some parts =>
      rw [hs] at hread
      rcases hread with ⟨-, m, -, -, -, hmapped⟩
      have hin : e ∈ networks.foldl addProxyCidr [] := mem_foldl_addProxyCidr.2 (Or.inr he)
      rw [← heq, mem_foldl_addProxyCidr] at hin
      -- an entry of the mobile side is not mapped
      rcases hin with hnil | hin
      · simp at hnil
      · rcases List.mem_map.1 hin with ⟨r, -, rfl⟩
        simp at hmapped
  · intro hplain
    have hread : ∀ n ∈ c.effectiveProxyCidrs A,
        (parseProxyNetwork A n).toOption = (A.cidr n).map fun r => (r, none) := by
      intro n hn
      rw [parseProxyNetwork, hplain n hn]
      simp only
      rw [parseWith]
      cases A.cidr n with
      | none => rfl
      | some r => rfl
    rw [← filterMap_toOption_of_collect hd, List.filterMap_congr hread, List.map_filterMap]

theorem routes_iff {routes : Option (List Cidr)}
    (h : (c.buildProtoConfig A defaultSpaceIp).parseRoutes A = .ok routes) :
    (if c.enableManualRoutes ∧ c.routes.filterMap A.cidr ≠ [] then
      some (c.routes.filterMap A.cidr) else none) = routes ↔
      (c.enableManualRoutes = true → c.routes ≠ []) := by
  have hon : (c.buildProtoConfig A defaultSpaceIp).enableManualRoutes =
    some c.enableManualRoutes := rfl
  have hroutes : (c.buildProtoConfig A defaultSpaceIp).routes = c.routes := rfl
  rw [ProtoConfig.parseRoutes, hon, hroutes, Option.getD_some] at h
  by_cases hman : c.enableManualRoutes = true
  · rw [if_pos hman, bind_eq_ok] at h
    rcases h with ⟨rs, hrs, h⟩
    obtain rfl : some rs = routes := Except.ok.inj h
    have hall := filterMap_toOption_of_collect hrs
    simp only [toOption_parseWith] at hall
    have hlen := congrArg List.length (map_toOption_of_collect hrs)
    rw [List.length_map, List.length_map] at hlen
    have hnil : rs = [] ↔ c.routes = [] := by
      rw [← List.length_eq_zero_iff, ← hlen, List.length_eq_zero_iff]
    rw [hall]
    simp only [hman, true_and, true_implies, ne_eq, ← hnil]
    by_cases hempty : rs = []
    · simp [hempty]
    · simp [hempty]
  · rw [if_neg hman] at h
    obtain rfl : none = routes := Except.ok.inj h
    simp [hman]

theorem exitNodes_eq {exitNodes : List Ip}
    (h : collect (parseWith A.ip "failed to parse exit node: ".toList) c.exitNodes =
      .ok exitNodes) :
    c.exitNodes.filterMap A.ip = exitNodes := by
  simpa only [toOption_parseWith] using filterMap_toOption_of_collect h

theorem forwards_iff : c.portForwards.filterMap (resolveForward A) = [] ↔
    ∀ pf ∈ c.portForwards, A.resolve (pf.bindIp ++ ':' :: decimal pf.bindPort.toNat) = none ∨
      A.resolve (pf.dstIp ++ ':' :: decimal pf.dstPort.toNat) = none := by
  rw [List.filterMap_eq_nil_iff]
  refine forall₂_congr fun pf _ => ?_
  rw [resolveForward]
  split
  · next hb hd => simp [hb, hd]
  · next h =>
    simp only [true_iff]
    cases hb : A.resolve (pf.bindIp ++ ':' :: decimal pf.bindPort.toNat) with
    | none => exact Or.inl rfl
    | some b =>
      cases hd : A.resolve (pf.dstIp ++ ':' :: decimal pf.dstPort.toNat) with
      | none => exact Or.inr rfl
      | some d => exact absurd hd (h b d hb)

theorem vpnPortal_iff : c.vpnPortal A = none ↔ (c.enableVpnPortal = true →
    A.cidr (c.vpnPortalClientNetworkAddr ++ '/' :: decimal c.vpnPortalClientNetworkLen.toNat) =
      none) := by
  rw [vpnPortal]
  by_cases h : c.enableVpnPortal = true
  · rw [if_pos h]
    split
    · next cidr hc => simp [h, hc]
    · next hc => simp [hc]
  · simp [h]

/-- A peer's value with a key against one without. -/
theorem map_key_eq_iff {u v : Option Url} {key : Option Str} (hu : u.isSome = true) :
    (u.map fun url => (url, key)) = (v.map fun url => (url, none)) ↔ u = v ∧ key = none := by
  rcases Option.isSome_iff_exists.1 hu with ⟨x, rfl⟩
  cases v with
  | none => simp
  | some y => simp

theorem peers_iff {p : ProtoConfig} {mobile desktop : List (Url × Option Str)}
    (hm : collect (c.parsePeer A) c.namedPeers = .ok mobile)
    (hd : collect (p.parsePeer A) c.desktopPeers = .ok desktop) :
    mobile = desktop ↔ c.PeersAlike A := by
  have hurl : ∀ q ∈ c.namedPeers, (A.urlOf q.1).isSome = true := by
    simpa using collect_ok_iff.1 ⟨mobile, hm⟩
  rw [collected_eq_iff hm hd]
  simp only [toOption_parsePeer, ProtoConfig.toOption_parsePeer]
  rw [PeersAlike, desktopPeers]
  by_cases h1 : c.networkingMethod = 1
  · rw [if_pos h1, if_pos h1]
    by_cases hp : c.peerUrls = []
    · -- the legacy peers, whose keys the desktop drops
      have hnamed : c.namedPeers =
          (c.peers.filter fun q => q.uri ≠ []).map fun q => (q.uri, q.peerPublicKey) := by
        simp [namedPeers, hp]
      rw [hnamed] at hurl
      rw [hnamed, if_neg (not_not.2 hp), if_neg (not_not.2 hp), List.filter_map, List.map_map,
        List.map_map]
      refine (map_filter_eq_map_filter_iff fun q hq => hq).trans ?_
      refine forall₂_congr fun q hq => ?_
      have hread : q.uri ≠ [] → (A.urlOf q.uri).isSome = true := by
        intro hne
        exact hurl _ (List.mem_map.2 ⟨q, List.mem_filter.2 ⟨hq, by simpa using hne⟩, rfl⟩)
      by_cases hne : q.uri = []
      · simp [hne]
      · simp [hne, map_key_eq_iff (hread hne)]
    · have hnamed : c.namedPeers =
          (c.peerUrls.filter fun u => trim u ≠ []).map fun u => (trim u, none) := by
        simp [namedPeers, hp]
      rw [hnamed, if_pos hp, if_pos hp, List.map_map]
      have hsub : ∀ u : Str, decide (trim u ≠ []) = true → decide (u ≠ []) = true := by
        intro u hu
        rw [decide_eq_true_eq] at hu ⊢
        rintro rfl
        exact hu rfl
      have hinj : Function.Injective (Option.map fun url : Url => (url, (none : Option Str))) :=
        Option.map_injective fun x y h => (Prod.mk.inj h).1
      refine (map_filter_eq_map_filter_iff hsub).trans ?_
      refine forall₂_congr fun u _ => ?_
      by_cases hu : u = []
      · simp [hu]
      · simp [hu, hinj.eq_iff]
  · rw [if_neg h1, if_neg h1]
    by_cases h2 : c.networkingMethod = 2
    · rw [if_pos h2, if_pos h2]
      simp
    · rw [if_neg h2, if_neg h2, List.map_singleton, List.map_eq_singleton_iff]
      constructor
      · rintro ⟨⟨u, key⟩, hnamed, heq⟩
        have hu : (A.urlOf u).isSome = true := by
          apply hurl (u, key)
          simp [hnamed]
        rcases (map_key_eq_iff hu).1 heq with ⟨hsame, rfl⟩
        exact ⟨u, hnamed, hsame⟩
      · rintro ⟨u, hnamed, hsame⟩
        refine ⟨(u, none), hnamed, ?_⟩
        simp only [hsame]

/-! ## Flags -/

theorem mtu_iff : ((c.flag "mtu").bind parseU32).getD (c.mtu.getD 1380) =
    (((c.flag "mtu").bind parseI32).map Int32.toUInt32).getD 1380 ↔ c.MtuAlike := by
  rw [MtuAlike]
  cases hu : (c.flag "mtu").bind parseU32 with
  | none => rfl
  | some m =>
    rcases Option.bind_eq_some_iff.1 hu with ⟨text, htext, hm⟩
    rw [htext, Option.bind_some, parseI32_of_parseU32 hm]
    by_cases hlt : m.toNat < 2 ^ 31
    · simp only [hlt, if_true, Option.getD_some]
    · -- the desktop keeps the default
      simp only [hlt, if_false, Option.getD_some, Option.getD_none, iff_false]
      rintro rfl
      exact hlt (by decide)

theorem devName_iff :
    (match c.flag "dev_name" with
      | some s => if s ≠ [] then s else if c.devName ≠ [] then c.devName else []
      | none => if c.devName ≠ [] then c.devName else []) = (c.flag "dev_name").getD [] ↔
      c.devName = [] ∨ (c.flag "dev_name").getD [] ≠ [] := by
  cases c.flag "dev_name" with
  | none =>
    by_cases hd : c.devName = []
    · simp [hd]
    · simp [hd]
  | some s =>
    by_cases hs : s = []
    · by_cases hd : c.devName = []
      · simp [hs, hd]
      · simp [hs, hd]
    · simp [hs]

theorem whitelist_iff :
    (if c.enableRelayNetworkWhitelist ∧ c.relayNetworkWhitelist ≠ [] then
      [','].intercalate c.relayNetworkWhitelist else "*".toList) = "*".toList ↔
      (c.enableRelayNetworkWhitelist = true → c.relayNetworkWhitelist ≠ [] →
        [','].intercalate c.relayNetworkWhitelist = "*".toList) := by
  by_cases h : c.enableRelayNetworkWhitelist = true ∧ c.relayNetworkWhitelist ≠ []
  · rw [if_pos h]
    constructor
    · intro heq _ _
      exact heq
    · intro himp
      exact himp h.1 h.2
  · rw [if_neg h]
    simp only [true_iff]
    intro hon hne
    exact absurd ⟨hon, hne⟩ h

theorem flags_iff {algorithm : Str} :
    SameFlags (c.mobileFlags (genDefaultFlags algorithm))
      ((c.buildProtoConfig A defaultSpaceIp).flags (genDefaultFlags algorithm)) ↔
      c.FlagsAlike := by
  have hflags : SameFlags (c.mobileFlags (genDefaultFlags algorithm))
      ((c.buildProtoConfig A defaultSpaceIp).flags (genDefaultFlags algorithm)) ↔
      (∀ f ∈ c.legacyFlags, f.1 = f.2) ∧ (∀ b ∈ c.droppedFlags, b = false) ∧
        (c.boolFlag "enable_encryption").getD (!c.disableEncryption) = true ∧
        (c.boolFlag "enable_ipv6").getD (!c.disableIpv6) = true ∧
        (if c.enableRelayNetworkWhitelist ∧ c.relayNetworkWhitelist ≠ [] then
          [','].intercalate c.relayNetworkWhitelist else "*".toList) = "*".toList ∧
        (match c.flag "dev_name" with
          | some s => if s ≠ [] then s else if c.devName ≠ [] then c.devName else []
          | none => if c.devName ≠ [] then c.devName else []) = (c.flag "dev_name").getD [] ∧
        ((c.flag "mtu").bind parseU32).getD (c.mtu.getD 1380) =
          (((c.flag "mtu").bind parseI32).map Int32.toUInt32).getD 1380 := by
    unfold SameFlags mobileFlags ProtoConfig.flags buildProtoConfig genDefaultFlags
    simp only [Flags.mk.injEq, legacyFlags, droppedFlags, List.forall_mem_cons,
      List.not_mem_nil, false_implies, implies_true, and_true, true_and, Option.getD_none,
      Option.map_none, Bool.false_eq_true, if_false]
    constructor
    · rintro ⟨dev, enc, ipv6, mtu, latency, exit, system, noTun, smol, white, p2p, only, lzy, rpc,
        tcp, udp, multi, bindDev, kcp, kcpIn, dns, priv, quic, quicIn, sym, need, upnp, relay⟩
      exact ⟨⟨latency, kcp, quic, noTun, p2p, multi, bindDev⟩,
        ⟨smol, kcpIn, quicIn, only, lzy, exit, rpc, need, system, tcp, udp, upnp, relay, sym, dns,
          priv⟩, enc, ipv6, white, dev, mtu⟩
    · rintro ⟨⟨latency, kcp, quic, noTun, p2p, multi, bindDev⟩,
        ⟨smol, kcpIn, quicIn, only, lzy, exit, rpc, need, system, tcp, udp, upnp, relay, sym, dns,
          priv⟩, enc, ipv6, white, dev, mtu⟩
      exact ⟨dev, enc, ipv6, mtu, latency, exit, system, noTun, smol, white, p2p, only, lzy, rpc,
        tcp, udp, multi, bindDev, kcp, kcpIn, dns, priv, quic, quicIn, sym, need, upnp, relay⟩
  rw [hflags, whitelist_iff, devName_iff, mtu_iff]
  constructor
  · rintro ⟨h1, h2, h3, h4, h5, h6, h7⟩
    exact ⟨h1, h2, h3, h4, h5, h6, h7⟩
  · intro h
    exact ⟨h.legacy, h.dropped, h.encryption, h.ipv6, h.whitelist, h.devName, h.mtu⟩

/-! ## Agreement -/

theorem socks5_iff :
    (if c.enableSocks5 then A.urlOf ("socks5://0.0.0.0:".toList ++ decimal c.socks5Port.toNat)
      else none) = none ↔ c.enableSocks5 = false := by
  rcases A.socks5_url c.socks5Port with ⟨url, hurl⟩
  rw [AddrParsers.urlOf, hurl]
  by_cases h : c.enableSocks5 = true
  · simp [h, Except.toOption]
  · simp [h]

theorem ipv6Auto_iff : c.ipv6PublicAddrAuto.getD false = false ↔
    c.ipv6PublicAddrAuto ≠ some true := by
  cases c.ipv6PublicAddrAuto with
  | none => simp
  | some b => simp

theorem sameNetwork_iff [DecidableEq Cidr] {algorithm freshId : Str}
    {n m : TomlConfig Url Inet Cidr Ip Addr}
    (hm : c.toEasytierConfig A (genDefaultFlags algorithm) freshId = .ok n)
    (hd : c.desktopConfig A defaultSpaceIp (genDefaultFlags algorithm) = .ok m) :
    SameNetwork n m ↔ c.ReadAlike A defaultSpaceIp := by
  rcases toEasytierConfig_eq_ok.1 hm with ⟨peers, listeners, mapped, hp, hl, hmap, rfl⟩
  rcases desktopConfig_eq_ok.1 hd with
    ⟨ipv4, peers', listeners', networks, routes, exitNodes, h4, hp', hl', hn, hr, he, rfl⟩
  have hdhcp : ((c.buildProtoConfig A defaultSpaceIp).dhcp.getD false) =
      (c.effectiveIpv4 defaultSpaceIp).isNone := by
    rw [dhcp_build]
    rfl
  -- one lemma a field; the name and the secret always agree
  constructor
  · intro h
    have haddr : c.effectiveDhcp = (c.effectiveIpv4 defaultSpaceIp).isNone := by
      rw [← hdhcp]
      exact h.dhcp
    exact {
      address := (address_iff h4).1 ⟨haddr, h.ipv4⟩
      peers := (peers_iff hp hp').1 h.peers
      listeners := (listeners_iff hl hl').1 h.listeners
      mapped := (mapped_iff hmap).1 h.mappedListeners
      proxyCidrs := (proxyCidrs_iff hn).1 h.proxyCidrs
      routes := (routes_iff hr).1 h.routes
      forwards := forwards_iff.1 h.portForwards
      portal := vpnPortal_iff.1 h.vpnPortal
      socks5 := socks5_iff.1 h.socks5Portal
      ipv6Auto := ipv6Auto_iff.1 h.ipv6PublicAddrAuto
      flags := flags_iff.1 h.flags }
  · intro h
    have haddr := (address_iff h4).2 h.address
    exact {
      networkName := (getD_someText c.networkName).symm
      networkSecret := (getD_someText c.networkSecret).symm
      dhcp := haddr.1.trans hdhcp.symm
      ipv4 := haddr.2
      ipv6PublicAddrAuto := ipv6Auto_iff.2 h.ipv6Auto
      peers := (peers_iff hp hp').2 h.peers
      listeners := (listeners_iff hl hl').2 h.listeners
      mappedListeners := (mapped_iff hmap).2 h.mapped
      proxyCidrs := (proxyCidrs_iff hn).2 h.proxyCidrs
      routes := (routes_iff hr).2 h.routes
      exitNodes := exitNodes_eq he
      vpnPortal := vpnPortal_iff.2 h.portal
      socks5Portal := socks5_iff.2 h.socks5
      portForwards := forwards_iff.2 h.forwards
      flags := flags_iff.2 h.flags }

/-- The translations agree exactly when both refuse the configuration, or both
accept it and it uses only what they read alike. -/
theorem agrees_iff [DecidableEq Cidr] (A : AddrParsers Url Inet Cidr Ip Addr)
    (c : NetworkConfig) (defaultSpaceIp algorithm freshId : Str) :
    c.Agrees A defaultSpaceIp algorithm freshId ↔
      (¬ c.MobileAccepts A ∧ ¬ c.DesktopAccepts A defaultSpaceIp) ∨
      (c.MobileAccepts A ∧ c.DesktopAccepts A defaultSpaceIp ∧ c.ReadAlike A defaultSpaceIp) := by
  have hmobile : (∃ n, c.toEasytierConfig A (genDefaultFlags algorithm) freshId = .ok n) ↔
    c.MobileAccepts A := mobile_ok_iff
  have hdesktop : (∃ m, c.desktopConfig A defaultSpaceIp (genDefaultFlags algorithm) = .ok m) ↔
    c.DesktopAccepts A defaultSpaceIp := desktop_ok_iff
  rw [← hmobile, ← hdesktop, Agrees]
  cases hm : c.toEasytierConfig A (genDefaultFlags algorithm) freshId with
  | error e =>
    cases hd : c.desktopConfig A defaultSpaceIp (genDefaultFlags algorithm) with
    | error e' => simp
    | ok m => simp
  | ok n =>
    cases hd : c.desktopConfig A defaultSpaceIp (genDefaultFlags algorithm) with
    | error e' => simp
    | ok m => simp [sameNetwork_iff hm hd]

end NetworkConfig

end Results

/-! ## A network of sixteen bits -/

/-- A dotted quad as a number. -/
def quad (s : Str) : Option Nat :=
  match s.splitOn '.' with
  | [a, b, c, d] =>
    match parseDigits a, parseDigits b, parseDigits c, parseDigits d with
    | some a, some b, some c, some d =>
      if a < 256 ∧ b < 256 ∧ c < 256 ∧ d < 256 then some (((a * 256 + b) * 256 + c) * 256 + d)
      else none
    | _, _, _, _ => none
  | _ => none

/-- An address and a network length. -/
def readInet (s : Str) : Option (Nat × Nat) :=
  match cutAtLast '/' s with
  | some (addr, len) =>
    match quad addr, parseDigits len with
    | some addr, some len => if len ≤ 32 then some (addr, len) else none
    | _, _ => none
  | none => none

theorem readInet_length {v : Str} {n : Nat} {i : Nat × Nat}
    (h : readInet (v ++ '/' :: decimal n) = some i) : i.2 = n := by
  have hslash : '/' ∉ decimal n := by
    intro hmem
    have hdigit := isDigit_of_mem_decimal hmem
    simp [Char.isDigit] at hdigit
  rw [readInet, cutAtLast_append hslash] at h
  simp only [parseDigits_decimal] at h
  cases hq : quad v with
  | none => simp [hq] at h
  | some addr =>
    simp only [hq] at h
    split at h
    · obtain rfl : (addr, n) = i := Option.some.inj h
      rfl
    · simp at h

/-- A URL with its scheme; its text stands for it. -/
def readUrl (s : Str) : Except Str Str :=
  if (splitOnce "://".toList s).isSome then .ok s
  else .error "relative URL without a base".toList

theorem readUrl_socks5 (port : UInt16) :
    ∃ u, readUrl ("socks5://0.0.0.0:".toList ++ decimal port.toNat) = .ok u := by
  have hcut : splitOnce "://".toList ("socks5".toList ++ "://".toList ++
      ("0.0.0.0:".toList ++ decimal port.toNat)) = some _ :=
    splitOnce_append (by decide) _
  refine ⟨_, if_pos ?_⟩
  have hsome := congrArg Option.isSome hcut
  exact hsome

/-- Parsers for IPv4 texts and absolute URLs; no name resolves. -/
def ipv4Parsers : AddrParsers Str (Nat × Nat) (Nat × Nat) Nat (Nat × Nat) where
  url := readUrl
  inet := readInet
  network i :=
    let net := i.1 / 2 ^ (32 - i.2) * 2 ^ (32 - i.2)
    decimal (net / 2 ^ 24) ++ '.' :: decimal (net / 2 ^ 16 % 256) ++ '.' ::
      decimal (net / 2 ^ 8 % 256) ++ '.' :: decimal (net % 256) ++ '/' :: decimal i.2
  cidr s := (readInet s).filter fun i => i.1 % 2 ^ (32 - i.2) = 0
  cidrLength := Prod.snd
  ip := quad
  resolve _ := none
  socketAddr _ := none
  anyAddr port := (0, port.toNat)
  validateMapped _ := none
  inet_length _ _ _ _ hn hm := (readInet_length hn).symm.trans (readInet_length hm)
  socks5_url := readUrl_socks5

/-- The default with a static address in a network of sixteen bits. -/
def sixteenBits : NetworkConfig :=
  { NetworkConfig.default "home".toList with
    virtualIpv4 := "10.126.126.2".toList
    networkLength := 16 }

/-- The desktop gives the address 10.126.126.2 a network of 24 bits. -/
theorem sixteen_bits_become_twenty_four :
    ¬ sixteenBits.Agrees ipv4Parsers "10.144.144.10".toList "aes-gcm".toList "fresh".toList := by
  intro h
  have hmobile : ((sixteenBits.toEasytierConfig ipv4Parsers (genDefaultFlags "aes-gcm".toList)
      "fresh".toList).toOption.map fun n => n.ipv4) = some (some (176061954, 16)) := by
    decide
  have hdesktop : ((sixteenBits.desktopConfig ipv4Parsers "10.144.144.10".toList
      (genDefaultFlags "aes-gcm".toList)).toOption.map fun n => n.ipv4) =
        some (some (176061954, 24)) := by
    decide
  unfold NetworkConfig.Agrees at h
  split at h
  · next n m hn hm =>
    rw [hn] at hmobile
    rw [hm] at hdesktop
    have hsixteen : n.ipv4 = some (176061954, 16) := Option.some.inj hmobile
    have htwentyfour : m.ipv4 = some (176061954, 24) := Option.some.inj hdesktop
    have heq := h.ipv4
    rw [hsixteen, htwentyfour] at heq
    exact absurd heq (by decide)
  · next e e' hn hm =>
    rw [hn] at hmobile
    exact absurd hmobile (by simp [Except.toOption])
  · exact h

end HomeTier
