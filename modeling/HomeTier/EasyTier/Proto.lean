import HomeTier.EasyTier.NetworkConfig

/-! # The desktop translation

`build_proto_config` of `src-tauri/src/easytier/mod.rs` writes the message sent
to the desktop core, and the core's `gen_config` (`easytier/src/launcher.rs`)
turns it into a loader of the same kind as the mobile one. Fields that
`build_proto_config` leaves out have their default, which is `none` or empty.
The instance id is a UUID's own text, which always parses, and is left out; so
are secure mode, access lists, compression and the IPv6 provider, which no
translation of this program sets.
-/

namespace HomeTier

open Lib

inductive NetworkingMethod where
  | publicServer
  | manual
  | standalone

namespace NetworkingMethod

def toInt : NetworkingMethod → Int
  | publicServer => 0
  | manual => 1
  | standalone => 2

/-- `try_from(..).unwrap_or_default()` -/
def ofInt : Int → NetworkingMethod
  | 1 => manual
  | 2 => standalone
  | _ => publicServer

end NetworkingMethod

/-- A port forward of the message. -/
structure ProtoForward where
  bindIp : Str
  bindPort : UInt32
  dstIp : Str
  dstPort : UInt32
  proto : Str

/-- The message `NetworkConfig` of `api_manage.proto`. -/
structure ProtoConfig where
  dhcp : Option Bool := none
  virtualIpv4 : Option Str := none
  networkLength : Option Int := none
  hostname : Option Str := none
  networkName : Option Str := none
  networkSecret : Option Str := none
  networkingMethod : Option Int := none
  publicServerUrl : Option Str := none
  peerUrls : List Str := []
  proxyCidrs : List Str := []
  enableVpnPortal : Option Bool := none
  vpnPortalListenPort : Option Int := none
  vpnPortalClientNetworkAddr : Option Str := none
  vpnPortalClientNetworkLen : Option Int := none
  listenerUrls : List Str := []
  latencyFirst : Option Bool := none
  devName : Option Str := none
  useSmoltcp : Option Bool := none
  disableIpv6 : Option Bool := none
  enableKcpProxy : Option Bool := none
  disableKcpInput : Option Bool := none
  disableP2p : Option Bool := none
  bindDevice : Option Bool := none
  noTun : Option Bool := none
  enableExitNode : Option Bool := none
  relayAllPeerRpc : Option Bool := none
  multiThread : Option Bool := none
  enableRelayNetworkWhitelist : Option Bool := none
  relayNetworkWhitelist : List Str := []
  enableManualRoutes : Option Bool := none
  routes : List Str := []
  exitNodes : List Str := []
  proxyForwardBySystem : Option Bool := none
  disableEncryption : Option Bool := none
  enableSocks5 : Option Bool := none
  socks5Port : Option Int := none
  disableUdpHolePunching : Option Bool := none
  mtu : Option Int32 := none
  mappedListeners : List Str := []
  enableMagicDns : Option Bool := none
  enablePrivateMode : Option Bool := none
  enableQuicProxy : Option Bool := none
  disableQuicInput : Option Bool := none
  portForwards : List ProtoForward := []
  disableSymHolePunching : Option Bool := none
  p2pOnly : Option Bool := none
  encryptionAlgorithm : Option Str := none
  disableTcpHolePunching : Option Bool := none
  credentialFile : Option Str := none
  lazyP2p : Option Bool := none
  needP2p : Option Bool := none
  instanceRecvBpsLimit : Option UInt64 := none
  disableUpnp : Option Bool := none
  ipv6PublicAddrAuto : Option Bool := none
  enableUdpBroadcastRelay : Option Bool := none

section Translation

variable {Url Inet Cidr Ip Addr : Type} (A : AddrParsers Url Inet Cidr Ip Addr)

namespace NetworkConfig

variable (c : NetworkConfig)

/-- `None` for an empty text. -/
def someText (s : Str) : Option Str := if s = [] then none else some s

/-- The address of the message: its own, the legacy one, or else the default of
a space without DHCP. -/
def effectiveIpv4 (defaultSpaceIp : Str) : Option Str :=
  let own := if c.virtualIpv4 ≠ [] then some c.virtualIpv4 else c.ipv4.bind someText
  match own with
  | some ip => some ip
  | none => if !c.dhcp then some defaultSpaceIp else none

/-- `build_proto_config` -/
def buildProtoConfig (defaultSpaceIp : Str) : ProtoConfig where
  networkName := someText c.networkName
  networkSecret := someText c.networkSecret
  dhcp := some (if (c.effectiveIpv4 defaultSpaceIp).isSome then false else c.dhcp)
  virtualIpv4 := c.effectiveIpv4 defaultSpaceIp
  hostname := c.hostname
  listenerUrls := c.listenerUrls
  peerUrls := if c.peerUrls ≠ [] then c.peerUrls else c.peers.map fun p => p.uri
  proxyCidrs := c.effectiveProxyCidrs A
  enableManualRoutes := some c.enableManualRoutes
  routes := c.routes
  exitNodes := c.exitNodes
  portForwards := []
  devName := c.flag "dev_name"
  mtu := (c.flag "mtu").bind parseI32
  latencyFirst := c.boolFlag "latency_first"
  enableKcpProxy := c.boolFlag "enable_kcp_proxy"
  enableQuicProxy := c.boolFlag "enable_quic_proxy"
  noTun := c.boolFlag "no_tun"
  disableP2p := c.boolFlag "disable_p2p"
  multiThread := c.boolFlag "multi_thread"
  bindDevice := c.boolFlag "bind_device"
  disableEncryption := none
  disableIpv6 := none
  encryptionAlgorithm := c.flag "encryption_algorithm"
  networkingMethod :=
    match c.networkingMethod with
    | 0 => some NetworkingMethod.publicServer.toInt
    | 1 => some NetworkingMethod.manual.toInt
    | 2 => some NetworkingMethod.standalone.toInt
    | _ => none
  publicServerUrl :=
    match c.networkingMethod with
    | 0 => someText c.publicServerUrl
    | _ => none

end NetworkConfig

/-! ## `gen_config` of the core -/

/-- `parse().with_context(..)`: the context is what the error shows. -/
def parseWith {α : Type} (parse : Str → Option α) (context text : Str) : Except Str α :=
  match parse text with
  | some a => .ok a
  | none => .error (context ++ text)

/-- `{:?}` of an optional number. -/
def debugOption : Option Int → Str
  | none => "None".toList
  | some n => "Some(".toList ++ decimalInt n ++ ")".toList

/-- An entry of `add_proxy_network_to_config`: a network, and what it is mapped to. -/
def parseProxyNetwork (entry : Str) : Except Str (Cidr × Option Cidr) :=
  match splitOnce "->".toList entry with
  | none => do
    let real ← parseWith A.cidr "failed to parse proxy network: ".toList entry
    pure (real, none)
  | some (real, mapped) => do
    let real ← parseWith A.cidr "failed to parse proxy network: ".toList real
    if (splitOnce "->".toList mapped).isSome then
      .error ("invalid proxy network format: ".toList ++ entry ++
        (", support format: <real_cidr> or <real_cidr>-><mapped_cidr>, example:\n" ++
        "                    10.0.0.0/24 or 10.0.0.0/24->192.168.0.0/24").toList)
    else
      let mapped ← parseWith A.cidr "failed to parse mapped network: ".toList mapped
      if A.cidrLength real ≠ A.cidrLength mapped then
        .error ("Mapped CIDR must have the same network length as the original CIDR: ".toList ++
          decimal (A.cidrLength real) ++ " != ".toList ++ decimal (A.cidrLength mapped))
      else pure (real, some mapped)

namespace ProtoConfig

variable (p : ProtoConfig)

def parseIpv4 : Except Str (Option Inet) :=
  let virtualIpv4 := p.virtualIpv4.getD []
  if p.dhcp.getD false then .ok none
  else if virtualIpv4 = [] then .ok none
  else
    match A.inet (virtualIpv4 ++ '/' :: decimalInt (p.networkLength.getD 24)) with
    | some inet => .ok (some inet)
    | none => .error ("failed to parse ipv4 inet address: ".toList ++ virtualIpv4 ++
        ", ".toList ++ debugOption p.networkLength)

def method : NetworkingMethod := .ofInt (p.networkingMethod.getD 0)

/-- The texts of the peers that a method connects to. -/
def peerTexts : List Str :=
  match p.method with
  | .publicServer => [p.publicServerUrl.getD []]
  | .manual => p.peerUrls.filter fun u => u ≠ []
  | .standalone => []

/-- A peer of the message has no key. -/
def parsePeer (text : Str) : Except Str (Url × Option Str) := do
  let url ← parseWith A.urlOf
    (match p.method with
      | .publicServer => "failed to parse public server uri: ".toList
      | _ => "failed to parse peer uri: ".toList) text
  pure (url, none)

def parseVpnPortal : Except Str (Option (Cidr × Addr)) :=
  if p.enableVpnPortal.getD false then do
    let cidr ← parseWith A.cidr "failed to parse vpn portal client cidr: ".toList
      (p.vpnPortalClientNetworkAddr.getD [] ++
        '/' :: decimalInt (p.vpnPortalClientNetworkLen.getD 24))
    match A.socketAddr ("0.0.0.0:".toList ++ decimalInt (p.vpnPortalListenPort.getD 0)) with
    | some addr => pure (some (cidr, addr))
    | none => .error ("failed to parse vpn portal wireguard listen port. ".toList ++
        debugOption p.vpnPortalListenPort)
  else .ok none

def parseRoutes : Except Str (Option (List Cidr)) :=
  if p.enableManualRoutes.getD false then do
    let routes ← collect (parseWith A.cidr "failed to parse route: ".toList) p.routes
    pure (some routes)
  else .ok none

/-- An entry of `parse_mapped_listener_urls`. -/
def parseMapped (text : Str) : Except Str Url := do
  let url ← parseWith A.urlOf "mapped listener is not a valid url: ".toList text
  match A.validateMapped url with
  | none => pure url
  | some e => .error e

/-- A forward with addresses; others are left out. -/
def parseForward (pf : ProtoForward) : Option (Addr × Addr × Str) :=
  if pf.bindIp = [] ∨ pf.dstIp = [] then none
  else
    match A.socketAddr (pf.bindIp ++ ':' :: decimal pf.bindPort.toNat),
      A.socketAddr (pf.dstIp ++ ':' :: decimal pf.dstPort.toNat) with
    | some bind, some dst => some (bind, dst, pf.proto)
    | _, _ => none

/-- The flags of `gen_config`: the defaults where the message is silent. -/
def flags (defaults : Flags) : Flags where
  defaultProtocol := defaults.defaultProtocol
  devName := p.devName.getD defaults.devName
  enableEncryption := (p.disableEncryption.map not).getD defaults.enableEncryption
  enableIpv6 := (p.disableIpv6.map not).getD defaults.enableIpv6
  -- a negative MTU wraps around
  mtu := (p.mtu.map Int32.toUInt32).getD defaults.mtu
  latencyFirst := p.latencyFirst.getD defaults.latencyFirst
  enableExitNode := p.enableExitNode.getD defaults.enableExitNode
  proxyForwardBySystem := p.proxyForwardBySystem.getD defaults.proxyForwardBySystem
  noTun := p.noTun.getD defaults.noTun
  useSmoltcp := p.useSmoltcp.getD defaults.useSmoltcp
  relayNetworkWhitelist :=
    if p.enableRelayNetworkWhitelist.getD false then [' '].intercalate p.relayNetworkWhitelist
    else defaults.relayNetworkWhitelist
  disableP2p := p.disableP2p.getD defaults.disableP2p
  p2pOnly := p.p2pOnly.getD defaults.p2pOnly
  lazyP2p := p.lazyP2p.getD defaults.lazyP2p
  relayAllPeerRpc := p.relayAllPeerRpc.getD defaults.relayAllPeerRpc
  disableTcpHolePunching := p.disableTcpHolePunching.getD defaults.disableTcpHolePunching
  disableUdpHolePunching := p.disableUdpHolePunching.getD defaults.disableUdpHolePunching
  multiThread := p.multiThread.getD defaults.multiThread
  bindDevice := p.bindDevice.getD defaults.bindDevice
  enableKcpProxy := p.enableKcpProxy.getD defaults.enableKcpProxy
  disableKcpInput := p.disableKcpInput.getD defaults.disableKcpInput
  acceptDns := p.enableMagicDns.getD defaults.acceptDns
  privateMode := p.enablePrivateMode.getD defaults.privateMode
  enableQuicProxy := p.enableQuicProxy.getD defaults.enableQuicProxy
  disableQuicInput := p.disableQuicInput.getD defaults.disableQuicInput
  encryptionAlgorithm := p.encryptionAlgorithm.getD defaults.encryptionAlgorithm
  disableSymHolePunching := p.disableSymHolePunching.getD defaults.disableSymHolePunching
  needP2p := p.needP2p.getD defaults.needP2p
  instanceRecvBpsLimit := p.instanceRecvBpsLimit.getD defaults.instanceRecvBpsLimit
  disableUpnp := p.disableUpnp.getD defaults.disableUpnp
  enableUdpBroadcastRelay := p.enableUdpBroadcastRelay.getD defaults.enableUdpBroadcastRelay

/-- What `gen_config` stores, its parsed fields given. -/
def config [DecidableEq Cidr] (defaults : Flags) (ipv4 : Option Inet)
    (peers : List (Url × Option Str)) (listeners : List Url)
    (networks : List (Cidr × Option Cidr)) (vpnPortal : Option (Cidr × Addr))
    (routes : Option (List Cidr)) (exitNodes : List Ip) (mapped : List Url) :
    TomlConfig Url Inet Cidr Ip Addr where
  networkName := p.networkName.getD []
  networkSecret := p.networkSecret.getD []
  instName := p.networkName.getD []
  hostname := p.hostname
  dhcp := p.dhcp.getD false
  ipv4 := ipv4
  ipv6PublicAddrAuto := p.ipv6PublicAddrAuto.getD false
  peers := peers
  listeners := listeners
  mappedListeners := mapped
  proxyCidrs := networks.foldl addProxyCidr []
  routes := routes
  exitNodes := exitNodes
  vpnPortal := vpnPortal
  socks5Portal :=
    if p.enableSocks5.getD false then
      p.socks5Port.bind fun port => A.urlOf ("socks5://0.0.0.0:".toList ++ decimalInt port)
    else none
  portForwards := p.portForwards.filterMap (parseForward A)
  credentialFile := p.credentialFile.filter fun path => path ≠ []
  flags := p.flags defaults

/-- `gen_config` -/
def genConfig [DecidableEq Cidr] (defaults : Flags) :
    Except Str (TomlConfig Url Inet Cidr Ip Addr) := do
  let ipv4 ← p.parseIpv4 A
  let peers ← collect (p.parsePeer A) p.peerTexts
  let listeners ← collect (parseWith A.urlOf "failed to parse listener uri: ".toList)
    (p.listenerUrls.filter fun l => l ≠ [])
  -- an entry's errors do not depend on the entries added before it
  let networks ← collect (parseProxyNetwork A) p.proxyCidrs
  let vpnPortal ← p.parseVpnPortal A
  let routes ← p.parseRoutes A
  let exitNodes ← collect (parseWith A.ip "failed to parse exit node: ".toList) p.exitNodes
  let mapped ← collect (parseMapped A) p.mappedListeners
  pure (p.config A defaults ipv4 peers listeners networks vpnPortal routes exitNodes mapped)

end ProtoConfig

/-! ## Values of the parsers -/

@[simp] theorem toOption_parseWith {α : Type} (parse : Str → Option α) (context text : Str) :
    (parseWith parse context text).toOption = parse text := by
  rw [parseWith]
  cases parse text with
  | none => rfl
  | some a => rfl

theorem parseWith_eq_ok {α : Type} {parse : Str → Option α} {context text : Str} {a : α} :
    parseWith parse context text = .ok a ↔ parse text = some a := by
  rw [parseWith]
  cases parse text with
  | none => simp
  | some b => simp

section Values

variable {A}

@[simp] theorem NetworkConfig.toOption_parsePeer (c : NetworkConfig) (p : Str × Option Str) :
    (c.parsePeer A p).toOption = (A.urlOf p.1).map fun url => (url, p.2) := by
  rw [NetworkConfig.parsePeer, AddrParsers.urlOf]
  cases A.url p.1 with
  | error e => rfl
  | ok url => rfl

@[simp] theorem NetworkConfig.toOption_parseListener (what l : Str) :
    (NetworkConfig.parseListener A what l).toOption = A.urlOf l := by
  rw [NetworkConfig.parseListener, AddrParsers.urlOf]
  cases A.url l with
  | error e => rfl
  | ok url => rfl

@[simp] theorem ProtoConfig.toOption_parsePeer (p : ProtoConfig) (text : Str) :
    (p.parsePeer A text).toOption = (A.urlOf text).map fun url => (url, none) := by
  rw [ProtoConfig.parsePeer, parseWith]
  cases A.urlOf text with
  | none => rfl
  | some url => rfl

/-- A proxy network that is read, with and without an arrow. -/
theorem parseProxyNetwork_eq_ok {entry : Str} {n : Cidr × Option Cidr} :
    parseProxyNetwork A entry = .ok n ↔
      match splitOnce "->".toList entry with
      | none => A.cidr entry = some n.1 ∧ n.2 = none
      | some (real, mapped) => splitOnce "->".toList mapped = none ∧
          ∃ m, A.cidr real = some n.1 ∧ A.cidr mapped = some m ∧
            A.cidrLength n.1 = A.cidrLength m ∧ n.2 = some m := by
  unfold parseProxyNetwork
  rcases n with ⟨r, m⟩
  cases splitOnce "->".toList entry with
  | none =>
    simp only [bind_eq_ok, parseWith_eq_ok, pure, Except.pure, Except.ok.injEq, Prod.mk.injEq]
    constructor
    · rintro ⟨a, ha, rfl, rfl⟩
      exact ⟨ha, rfl⟩
    · rintro ⟨hr, rfl⟩
      exact ⟨r, hr, rfl, rfl⟩
  | some parts =>
    rcases parts with ⟨real, mapped⟩
    simp only [bind_eq_ok, parseWith_eq_ok]
    constructor
    · rintro ⟨a, ha, h⟩
      split at h
      · simp at h
      · next hsplit =>
        rw [bind_eq_ok] at h
        rcases h with ⟨b, hb, h⟩
        split at h
        · simp at h
        · next hlen =>
          obtain ⟨rfl, rfl⟩ : a = r ∧ some b = m := by
            simpa [pure, Except.pure] using h
          exact ⟨by simpa using hsplit, b, ha, parseWith_eq_ok.1 hb, not_not.1 hlen, rfl⟩
    · rintro ⟨hsplit, b, ha, hb, hlen, rfl⟩
      refine ⟨r, ha, ?_⟩
      rw [hsplit, if_neg (by simp), bind_eq_ok]
      refine ⟨b, parseWith_eq_ok.2 hb, ?_⟩
      rw [if_neg (not_not.2 hlen)]
      rfl

end Values

end Translation

end HomeTier
