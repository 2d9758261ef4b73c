import HomeTier.Lib.Collect
import HomeTier.Lib.Decimal
import HomeTier.Lib.Http

/-! # Network configurations and their mobile translation

`NetworkConfig` of `src-tauri/src/easytier/config.rs`, without the fields no
translation reads, and `to_easytier_config`, which fills the loader of the
mobile library. The loader is what its setters store; `listeners`, `peers` and
the other lists are as their getters give them. Texts are parsed by crates.
-/

namespace HomeTier

open Lib

/-- Parsers of addresses, and what the translations rely on. -/
structure AddrParsers (Url Inet Cidr Ip Addr : Type) where
  /-- `Url::parse`, with the text of its error. -/
  url : Str → Except Str Url
  /-- `Ipv4Inet::from_str` -/
  inet : Str → Option Inet
  /-- `network().to_string()` -/
  network : Inet → Str
  /-- `Ipv4Cidr::from_str` -/
  cidr : Str → Option Cidr
  cidrLength : Cidr → Nat
  /-- `IpAddr::from_str` -/
  ip : Str → Option Ip
  /-- The first of `to_socket_addrs`. -/
  resolve : Str → Option Addr
  /-- `SocketAddr::from_str` -/
  socketAddr : Str → Option Addr
  /-- `0.0.0.0` with a port. -/
  anyAddr : UInt16 → Addr
  /-- `validate_mapped_listener_url`, with the text of its error. -/
  validateMapped : Url → Option Str
  /-- An inet keeps its network length. -/
  inet_length : ∀ v n m i, inet (v ++ '/' :: decimal n) = some i →
    inet (v ++ '/' :: decimal m) = some i → n = m
  socks5_url : ∀ port : UInt16, ∃ u, url ("socks5://0.0.0.0:".toList ++ decimal port.toNat) = .ok u

structure PortForwardConfig where
  bindIp : Str
  bindPort : UInt16
  dstIp : Str
  dstPort : UInt16
  proto : Str

structure PeerConfig where
  uri : Str
  peerPublicKey : Option Str

structure NetworkConfig where
  instanceId : Str
  dhcp : Bool
  virtualIpv4 : Str
  networkLength : UInt8
  ipv4 : Option Str
  hostname : Option Str
  networkName : Str
  networkSecret : Str
  credentialFile : Option Str
  networkingMethod : Int
  publicServerUrl : Str
  peerUrls : List Str
  proxyCidrs : List Str
  enableVpnPortal : Bool
  vpnPortalListenPort : UInt16
  vpnPortalClientNetworkAddr : Str
  vpnPortalClientNetworkLen : UInt8
  listenerUrls : List Str
  mappedListeners : List Str
  latencyFirst : Bool
  devName : Str
  useSmoltcp : Bool
  disableIpv6 : Bool
  ipv6PublicAddrAuto : Option Bool
  enableKcpProxy : Bool
  disableKcpInput : Bool
  enableQuicProxy : Bool
  disableQuicInput : Bool
  disableP2p : Bool
  p2pOnly : Bool
  lazyP2p : Bool
  bindDevice : Bool
  noTun : Bool
  enableExitNode : Bool
  relayAllPeerRpc : Bool
  needP2p : Bool
  multiThread : Bool
  proxyForwardBySystem : Bool
  disableEncryption : Bool
  disableTcpHolePunching : Bool
  disableUdpHolePunching : Bool
  disableUpnp : Bool
  enableUdpBroadcastRelay : Bool
  disableSymHolePunching : Bool
  enableRelayNetworkWhitelist : Bool
  enableMagicDns : Bool
  enablePrivateMode : Bool
  enableSocks5 : Bool
  relayNetworkWhitelist : List Str
  enableManualRoutes : Bool
  routes : List Str
  exitNodes : List Str
  socks5Port : UInt16
  mtu : Option UInt32
  instanceRecvBpsLimit : Option UInt64
  portForwards : List PortForwardConfig
  peers : List PeerConfig
  listeners : List Str
  /-- The `cidr` fields of `proxy_networks`. -/
  proxyNetworks : List Str
  flags : Map Str Str

/-- `Default` of a configuration, with the id it draws. -/
def NetworkConfig.default (instanceId : Str) : NetworkConfig where
  instanceId := instanceId
  dhcp := true
  virtualIpv4 := []
  networkLength := 24
  ipv4 := none
  hostname := none
  networkName := "easytier".toList
  networkSecret := []
  credentialFile := none
  networkingMethod := 1
  publicServerUrl := []
  peerUrls := []
  proxyCidrs := []
  enableVpnPortal := false
  vpnPortalListenPort := 22022
  vpnPortalClientNetworkAddr := []
  vpnPortalClientNetworkLen := 24
  listenerUrls := ["tcp://0.0.0.0:11010".toList, "udp://0.0.0.0:11010".toList,
    "wg://0.0.0.0:11011".toList]
  mappedListeners := []
  latencyFirst := false
  devName := []
  useSmoltcp := false
  disableIpv6 := false
  ipv6PublicAddrAuto := none
  enableKcpProxy := false
  disableKcpInput := false
  enableQuicProxy := false
  disableQuicInput := false
  disableP2p := false
  p2pOnly := false
  lazyP2p := false
  bindDevice := true
  noTun := false
  enableExitNode := false
  relayAllPeerRpc := false
  needP2p := false
  multiThread := true
  proxyForwardBySystem := false
  disableEncryption := false
  disableTcpHolePunching := false
  disableUdpHolePunching := false
  disableUpnp := false
  enableUdpBroadcastRelay := false
  disableSymHolePunching := false
  enableRelayNetworkWhitelist := false
  enableMagicDns := false
  enablePrivateMode := false
  enableSocks5 := false
  relayNetworkWhitelist := []
  enableManualRoutes := false
  routes := []
  exitNodes := []
  socks5Port := 1080
  mtu := none
  instanceRecvBpsLimit := none
  portForwards := []
  peers := []
  listeners := []
  proxyNetworks := []
  flags := ∅

/-- Flags of the core; those no translation writes are left out. -/
structure Flags where
  defaultProtocol : Str
  devName : Str
  enableEncryption : Bool
  enableIpv6 : Bool
  mtu : UInt32
  latencyFirst : Bool
  enableExitNode : Bool
  proxyForwardBySystem : Bool
  noTun : Bool
  useSmoltcp : Bool
  relayNetworkWhitelist : Str
  disableP2p : Bool
  p2pOnly : Bool
  lazyP2p : Bool
  relayAllPeerRpc : Bool
  disableTcpHolePunching : Bool
  disableUdpHolePunching : Bool
  multiThread : Bool
  bindDevice : Bool
  enableKcpProxy : Bool
  disableKcpInput : Bool
  acceptDns : Bool
  privateMode : Bool
  enableQuicProxy : Bool
  disableQuicInput : Bool
  encryptionAlgorithm : Str
  disableSymHolePunching : Bool
  needP2p : Bool
  instanceRecvBpsLimit : UInt64
  disableUpnp : Bool
  enableUdpBroadcastRelay : Bool

/-- `gen_default_flags`; the default algorithm depends on how the core is built. -/
def genDefaultFlags (defaultAlgorithm : Str) : Flags where
  defaultProtocol := "tcp".toList
  devName := []
  enableEncryption := true
  enableIpv6 := true
  mtu := 1380
  latencyFirst := false
  enableExitNode := false
  proxyForwardBySystem := false
  noTun := false
  useSmoltcp := false
  relayNetworkWhitelist := "*".toList
  disableP2p := false
  p2pOnly := false
  lazyP2p := false
  relayAllPeerRpc := false
  disableTcpHolePunching := false
  disableUdpHolePunching := false
  multiThread := true
  bindDevice := true
  enableKcpProxy := false
  disableKcpInput := false
  acceptDns := false
  privateMode := false
  enableQuicProxy := false
  disableQuicInput := false
  encryptionAlgorithm := defaultAlgorithm
  disableSymHolePunching := false
  needP2p := false
  instanceRecvBpsLimit := 18446744073709551615
  disableUpnp := false
  enableUdpBroadcastRelay := false

/-- What a `TomlConfigLoader` holds. -/
structure TomlConfig (Url Inet Cidr Ip Addr : Type) where
  networkName : Str
  networkSecret : Str
  instName : Str
  hostname : Option Str
  dhcp : Bool
  ipv4 : Option Inet
  ipv6PublicAddrAuto : Bool
  peers : List (Url × Option Str)
  listeners : List Url
  mappedListeners : List Url
  proxyCidrs : List (Cidr × Option Cidr)
  routes : Option (List Cidr)
  exitNodes : List Ip
  vpnPortal : Option (Cidr × Addr)
  socks5Portal : Option Url
  portForwards : List (Addr × Addr × Str)
  credentialFile : Option Str
  flags : Flags

section Translation

variable {Url Inet Cidr Ip Addr : Type} (A : AddrParsers Url Inet Cidr Ip Addr)

/-- A text's URL, when it is one. -/
def AddrParsers.urlOf (text : Str) : Option Url := (A.url text).toOption

/-- `add_proxy_cidr` without its error: no entry twice. -/
def addProxyCidr [DecidableEq Cidr] (cidrs : List (Cidr × Option Cidr))
    (entry : Cidr × Option Cidr) : List (Cidr × Option Cidr) :=
  if cidrs.any fun e => e = entry then cidrs else cidrs ++ [entry]

theorem mem_addProxyCidr [DecidableEq Cidr] {cidrs : List (Cidr × Option Cidr)} {entry e : Cidr × Option Cidr} :
    e ∈ addProxyCidr cidrs entry ↔ e ∈ cidrs ∨ e = entry := by
  rw [addProxyCidr]
  split
  · next h =>
    simp only [List.any_eq_true, decide_eq_true_eq] at h
    rcases h with ⟨e', he', rfl⟩
    constructor
    · intro h
      exact Or.inl h
    · rintro (h | rfl)
      · exact h
      · exact he'
  · simp

theorem mem_foldl_addProxyCidr [DecidableEq Cidr] {entries cidrs : List (Cidr × Option Cidr)}
    {e : Cidr × Option Cidr} :
    e ∈ entries.foldl addProxyCidr cidrs ↔ e ∈ cidrs ∨ e ∈ entries := by
  induction entries generalizing cidrs with
  | nil => simp
  | cons entry entries ih =>
    rw [List.foldl_cons, ih, mem_addProxyCidr, List.mem_cons, or_assoc]

namespace NetworkConfig

variable (c : NetworkConfig)

/-- Trimmed texts in their order, blank and repeated ones left out. -/
def distinctTrimmed (texts : List Str) : List Str :=
  texts.foldl (fun out t =>
    if trim t = [] ∨ out.any (fun o => o = trim t) then out else out ++ [trim t]) []

/-- `effective_proxy_cidrs`: the named networks, then the own one. -/
def effectiveProxyCidrs : List Str :=
  let out := distinctTrimmed (if c.proxyCidrs ≠ [] then c.proxyCidrs else c.proxyNetworks)
  if c.virtualIpv4 ≠ [] ∧ 0 < c.networkLength ∧ c.networkLength ≤ 32 then
    match A.inet (c.virtualIpv4 ++ '/' :: decimal c.networkLength.toNat) with
    | some inet =>
      if out.any fun o => o = A.network inet then out else out ++ [A.network inet]
    | none => out
  else out

/-- Peers with their keys: the trimmed URLs, or else the legacy list. -/
def namedPeers : List (Str × Option Str) :=
  if c.peerUrls ≠ [] then
    (c.peerUrls.filter fun u => trim u ≠ []).map fun u => (trim u, none)
  else (c.peers.filter fun p => p.uri ≠ []).map fun p => (p.uri, p.peerPublicKey)

/-- A peer's text; the two lists differ in their message. -/
def parsePeer (p : Str × Option Str) : Except Str (Url × Option Str) :=
  match A.url p.1 with
  | .ok url => .ok (url, p.2)
  | .error e =>
    .error ((if c.peerUrls ≠ [] then "invalid peer URL '".toList
      else "invalid peer URI '".toList) ++ p.1 ++ "': ".toList ++ e)

def parseListener (what l : Str) : Except Str Url :=
  match A.url l with
  | .ok url => .ok url
  | .error e => .error ("invalid ".toList ++ what ++ " '".toList ++ l ++ "': ".toList ++ e)

/-- The listeners, or else the legacy list. -/
def namedListeners : List Str :=
  (if c.listenerUrls ≠ [] then c.listenerUrls else c.listeners).filter fun l => l ≠ []

/-- A value of the legacy `flags` map. -/
def flag (key : String) : Option Str := c.flags.get key.toList

/-- `flags.get(key).map(|v| v == "true")` -/
def boolFlag (key : String) : Option Bool := (c.flag key).map fun v => v = "true".toList

/-- A portal for VPN clients. -/
def vpnPortal : Option (Cidr × Addr) :=
  if c.enableVpnPortal then
    match A.cidr (c.vpnPortalClientNetworkAddr ++
        '/' :: decimal c.vpnPortalClientNetworkLen.toNat) with
    | some cidr =>
      some (cidr, (A.resolve ("0.0.0.0:".toList ++ decimal c.vpnPortalListenPort.toNat)).getD
        (A.anyAddr c.vpnPortalListenPort))
    | none => none
  else none

/-- A forward whose addresses resolve. -/
def resolveForward (pf : PortForwardConfig) : Option (Addr × Addr × Str) :=
  match A.resolve (pf.bindIp ++ ':' :: decimal pf.bindPort.toNat),
    A.resolve (pf.dstIp ++ ':' :: decimal pf.dstPort.toNat) with
  | some bind, some dst => some (bind, dst, pf.proto)
  | _, _ => none

def effectiveDhcp : Bool := if c.virtualIpv4 ≠ [] then false else c.dhcp

/-- The flags of the mobile translation: fields first, then the legacy map. -/
def mobileFlags (defaults : Flags) : Flags where
  defaultProtocol :=
    match c.flag "default_protocol" with
    | some s => if s ≠ [] then s else defaults.defaultProtocol
    | none => defaults.defaultProtocol
  devName :=
    let own := if c.devName ≠ [] then c.devName else defaults.devName
    match c.flag "dev_name" with
    | some s => if s ≠ [] then s else own
    | none => own
  enableEncryption := (c.boolFlag "enable_encryption").getD (!c.disableEncryption)
  enableIpv6 := (c.boolFlag "enable_ipv6").getD (!c.disableIpv6)
  mtu := ((c.flag "mtu").bind parseU32).getD (c.mtu.getD defaults.mtu)
  latencyFirst := c.latencyFirst
  enableExitNode := c.enableExitNode
  proxyForwardBySystem := c.proxyForwardBySystem
  noTun := c.noTun
  useSmoltcp := c.useSmoltcp
  relayNetworkWhitelist :=
    if c.enableRelayNetworkWhitelist ∧ c.relayNetworkWhitelist ≠ [] then
      [','].intercalate c.relayNetworkWhitelist
    else "*".toList
  disableP2p := c.disableP2p
  p2pOnly := c.p2pOnly
  lazyP2p := c.lazyP2p
  relayAllPeerRpc := c.relayAllPeerRpc
  disableTcpHolePunching := c.disableTcpHolePunching
  disableUdpHolePunching := c.disableUdpHolePunching
  multiThread := c.multiThread
  bindDevice := c.bindDevice
  enableKcpProxy := c.enableKcpProxy
  disableKcpInput := c.disableKcpInput
  acceptDns := c.enableMagicDns
  privateMode := c.enablePrivateMode
  enableQuicProxy := c.enableQuicProxy
  disableQuicInput := c.disableQuicInput
  encryptionAlgorithm := (c.flag "encryption_algorithm").getD defaults.encryptionAlgorithm
  disableSymHolePunching := c.disableSymHolePunching
  needP2p := c.needP2p
  instanceRecvBpsLimit := c.instanceRecvBpsLimit.getD defaults.instanceRecvBpsLimit
  disableUpnp := c.disableUpnp
  enableUdpBroadcastRelay := c.enableUdpBroadcastRelay

/-- What `to_easytier_config` stores, its URLs given; `freshId` names an instance without id. -/
def mobileConfig [DecidableEq Cidr] (defaults : Flags) (freshId : Str)
    (peers : List (Url × Option Str)) (listeners mapped : List Url) :
    TomlConfig Url Inet Cidr Ip Addr where
  networkName := c.networkName
  networkSecret := c.networkSecret
  instName := if c.instanceId = [] then freshId else c.instanceId
  hostname := c.hostname
  dhcp := c.effectiveDhcp
  ipv4 :=
    if c.virtualIpv4 ≠ [] then
      A.inet (c.virtualIpv4 ++ '/' :: decimal c.networkLength.toNat)
    else none
  ipv6PublicAddrAuto := c.ipv6PublicAddrAuto.getD false
  peers := peers
  listeners := listeners
  mappedListeners := mapped
  proxyCidrs := ((c.effectiveProxyCidrs A).filterMap A.cidr).foldl
    (fun cidrs cidr => addProxyCidr cidrs (cidr, none)) []
  routes :=
    -- an empty list of parsed routes is not set
    if c.enableManualRoutes ∧ c.routes.filterMap A.cidr ≠ [] then
      some (c.routes.filterMap A.cidr)
    else none
  exitNodes := c.exitNodes.filterMap A.ip
  vpnPortal := c.vpnPortal A
  socks5Portal :=
    if c.enableSocks5 then
      A.urlOf ("socks5://0.0.0.0:".toList ++ decimal c.socks5Port.toNat)
    else none
  portForwards := c.portForwards.filterMap (resolveForward A)
  credentialFile := c.credentialFile.filter fun path => path ≠ []
  flags := c.mobileFlags defaults

/-- `to_easytier_config`: only peers and listeners can fail. -/
def toEasytierConfig [DecidableEq Cidr] (defaults : Flags) (freshId : Str) :
    Except Str (TomlConfig Url Inet Cidr Ip Addr) := do
  let peers ← collect (c.parsePeer A) c.namedPeers
  let listeners ← collect (parseListener A "listener".toList) c.namedListeners
  let mapped ← collect (parseListener A "mapped listener".toList)
    (c.mappedListeners.filter fun l => l ≠ [])
  pure (c.mobileConfig A defaults freshId peers listeners mapped)

end NetworkConfig

end Translation

end HomeTier
