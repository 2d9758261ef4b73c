import Mathlib.Algebra.Order.Field.Rat
import Mathlib.Algebra.Order.Ring.Cast
import Mathlib.Data.List.Sort
import Mathlib.Data.UInt
import Mathlib.Order.WithBot
import HomeTier.EasyTier.Status
import HomeTier.Lib.Decimal

/-! # The peer lists of desktop and mobile

On a desktop `query_peer_list` of `src-tauri/src/easytier/mod.rs` makes an entry of each
route and the peer it is paired with: it adds up the bytes of all connections and keeps
the smallest latency, the last loss rate and the last tunnel. On a phone
`poll_instance_status` looks at the first connection only, takes the latency from the
route and leaves the NAT type out.

The two lists agree on a peer exactly where that makes no difference (`peers_agree_iff`).
Latencies and loss rates are exact numbers, and the byte counters wrap around.
-/

namespace HomeTier

open Lib

namespace Rpc

/-- `PeerInfo` as it is sent to the page. -/
structure PeerInfo where
  peerId : UInt32
  virtualIp : Option Str
  hostname : Option Str
  latencyMs : Option ℚ
  lossRate : Option ℚ
  rxBytes : Option UInt64
  txBytes : Option UInt64
  connected : Bool
  isLocal : Bool
  version : Option Str
  tunnelProto : Option Str
  natType : Option Str
deriving DecidableEq, Repr

def nonEmpty (s : Str) : Option Str := if s = [] then none else some s

/-! ## The desktop -/

def dotted (addr : UInt32) : Str :=
  decimal (addr >>> 24 &&& 0xFF).toNat ++ '.' :: decimal (addr >>> 16 &&& 0xFF).toNat ++
    '.' :: decimal (addr >>> 8 &&& 0xFF).toNat ++ '.' :: decimal (addr &&& 0xFF).toNat

def formatIpv4Inet (inet : Option Ipv4Inet) : Option Str :=
  (inet.join.map dotted).filter (· ≠ "0.0.0.0".toList)

def latencyMsOf (stats : ConnStats) : ℚ := (stats.latencyUs.toNat : ℚ) / 1000

section Desktop

-- the names of the NAT types
variable (natName : Int → Str)

def peerFromRoute (route : Route) : PeerInfo where
  peerId := route.peerId
  virtualIp := formatIpv4Inet route.ipv4Addr
  hostname := nonEmpty route.hostname
  latencyMs := some route.pathLatency
  lossRate := none
  rxBytes := none
  txBytes := none
  connected := true
  isLocal := false
  version := nonEmpty route.version
  tunnelProto := none
  natType := route.stunInfo.map natName

/-- One connection of `peer_from_route_peer_pair`. -/
def PeerInfo.addConn (info : PeerInfo) (conn : PeerConn) : PeerInfo :=
  let info := match conn.stats with
    | some stats =>
      { info with
        rxBytes := some (info.rxBytes.getD 0 + stats.rxBytes)
        txBytes := some (info.txBytes.getD 0 + stats.txBytes)
        latencyMs := some (match info.latencyMs with
          | some current => min current (latencyMsOf stats)
          | none => latencyMsOf stats) }
    | none => info
  { info with
    lossRate := some conn.lossRate
    tunnelProto := conn.tunnel.or info.tunnelProto }

def peerFromRoutePeerPair (route : Route) (peer : Option CorePeer) : PeerInfo :=
  let info := peerFromRoute natName route
  let info := match route.stunInfo with
    | some natType => { info with natType := some (natName natType) }
    | none => info
  match peer with
  | some peer => peer.conns.foldl PeerInfo.addConn info
  | none => info

def desktopLocal (node : NodeInfo) : PeerInfo where
  peerId := node.peerId
  virtualIp := formatIpv4Inet node.virtualIpv4
  hostname := nonEmpty node.hostname
  latencyMs := some 0
  lossRate := none
  rxBytes := none
  txBytes := none
  connected := true
  isLocal := true
  version := nonEmpty node.version
  tunnelProto := none
  natType := none

/-- `query_peer_list`, for an instance that is in the response. -/
def desktopPeers (info : RunningInfo) : List PeerInfo :=
  let foreign (route : Route) : Bool := (info.myNodeInfo.map (·.peerId)) ≠ some route.peerId
  (info.myNodeInfo.map desktopLocal).toList ++
    if info.peerRoutePairs ≠ [] then
      info.peerRoutePairs.filterMap fun pair =>
        (pair.route.filter foreign).map fun route => peerFromRoutePeerPair natName route pair.peer
    else (info.routes.filter foreign).map (peerFromRoute natName)

end Desktop

/-! ## The phone -/

/-- `my_info` of `list_peer` -/
structure MyInfo where
  peerId : UInt32
  ipv4Addr : Str
  hostname : Str
  version : Str
  proxyCidrs : List Str
deriving DecidableEq, Repr

section Mobile

-- an address as the core prints it
variable (showInet : Ipv4Inet → Str)

/-- The last one that was inserted under the id. -/
def connOf (peers : List CorePeer) (id : UInt32) : Option CorePeer :=
  peers.reverse.find? (·.peerId = id)

@[inherit_doc connOf]
def routeOf (routes : List Route) (id : UInt32) : Option Route :=
  routes.reverse.find? (·.peerId = id)

def mobilePeer (id : UInt32) (conn : Option CorePeer) (route : Option Route) : PeerInfo where
  peerId := id
  virtualIp := route.bind fun r => r.ipv4Addr.map showInet
  hostname := route.bind fun r => nonEmpty r.hostname
  latencyMs := (route.map fun r => (r.pathLatency : ℚ)).filter (0 < ·)
  lossRate := conn.bind fun c => c.conns.head?.map (·.lossRate)
  rxBytes := conn.bind fun c => c.conns.head?.bind fun cn => cn.stats.map (·.rxBytes)
  txBytes := conn.bind fun c => c.conns.head?.bind fun cn => cn.stats.map (·.txBytes)
  connected := conn.isSome
  isLocal := false
  version := route.bind fun r => nonEmpty r.version
  tunnelProto := conn.bind fun c => c.conns.head?.bind (·.tunnel)
  natType := none

def mobileLocal (my : MyInfo) : PeerInfo where
  peerId := my.peerId
  virtualIp := some my.ipv4Addr
  hostname := nonEmpty my.hostname
  latencyMs := some 0
  lossRate := none
  rxBytes := none
  txBytes := none
  connected := true
  isLocal := true
  version := nonEmpty my.version
  tunnelProto := none
  natType := none

/-- What is sorted by; without a latency a peer goes to the end. -/
def PeerInfo.key (info : PeerInfo) : WithTop ℚ := info.latencyMs.elim ⊤ fun l => (l : WithTop ℚ)

/-- The peer list of `poll_instance_status`; `ids` are the ids in the order of their hash set. -/
def mobilePeers (my : Option MyInfo) (peers : List CorePeer) (routes : Option (List Route))
    (ids : List UInt32) : List PeerInfo :=
  let list := ids.map fun id =>
    mobilePeer showInet id (connOf peers id) (routeOf (routes.getD []) id)
  let list := ((my.filter (·.ipv4Addr ≠ [])).map mobileLocal).toList ++ list
  list.insertionSort fun a b => a.key ≤ b.key

end Mobile

/-! ## The core behind both -/

/-- What the core knows, and what it answers on the two ways. -/
structure CoreState where
  peers : List CorePeer
  routes : List Route
  myNodeInfo : Option NodeInfo
  myInfo : Option MyInfo
  /-- The pairs of `collect_network_info`. -/
  pairs : List PeerRoutePair
  /-- The ids in the order of the hash set of the phone. -/
  ids : List UInt32
  peerIds : (peers.map (·.peerId)).Nodup
  routeIds : (routes.map (·.peerId)).Nodup
  /-- A pair is a route with the peer of its id. -/
  pairs_eq : pairs = routes.map fun r => ⟨some r, peers.find? (·.peerId = r.peerId)⟩
  mem_ids : ∀ id, id ∈ ids ↔ id ∈ peers.map (·.peerId) ∨ id ∈ routes.map (·.peerId)

def CoreState.runningInfo (core : CoreState) : RunningInfo where
  errorMsg := none
  myNodeInfo := core.myNodeInfo
  peerRoutePairs := core.pairs
  routes := core.routes
  peers := core.peers

/-- The two entries say the same about the connection. -/
structure SameReport (a b : PeerInfo) : Prop where
  latency : a.latencyMs = b.latencyMs
  loss : a.lossRate = b.lossRate
  rx : a.rxBytes = b.rxBytes
  tx : a.txBytes = b.txBytes
  tunnel : a.tunnelProto = b.tunnelProto
  nat : a.natType = b.natType

/-- The two lists agree on every other node. -/
def PeersAgree (natName : Int → Str) (showInet : Ipv4Inet → Str) (core : CoreState) : Prop :=
  ∀ a ∈ desktopPeers natName core.runningInfo,
    ∀ b ∈ mobilePeers showInet core.myInfo core.peers (some core.routes) core.ids,
      a.isLocal = false → b.isLocal = false → a.peerId = b.peerId → SameReport a b

/-- The connections after the first carry nothing, or there is nothing to carry. -/
def RestIdle (count : ConnStats → UInt64) : List PeerConn → Prop
  | [] => True
  | conn :: conns =>
    match conn.stats with
    | some _ => ((conns.filterMap (·.stats)).map count).sum = 0
    | none => conns.filterMap (·.stats) = []

/-- Nothing of a route and its connections is reported in one of the two ways only. -/
structure ReportedAlike (route : Route) (conns : List PeerConn) : Prop where
  /-- Nothing is known about the NAT. -/
  nat : route.stunInfo = none
  /-- No connection is faster than the path. -/
  latency : 0 < route.pathLatency ∧
    ∀ stats ∈ conns.filterMap (·.stats), (route.pathLatency : ℚ) ≤ latencyMsOf stats
  rx : RestIdle ConnStats.rxBytes conns
  tx : RestIdle ConnStats.txBytes conns
  loss : conns.getLast?.map (·.lossRate) = conns.head?.map (·.lossRate)
  tunnel : (conns.filterMap (·.tunnel)).getLast? = conns.head?.bind (·.tunnel)

/-- The connections to the node of a route. -/
def CoreState.connsOf (core : CoreState) (route : Route) : List PeerConn :=
  ((core.peers.find? (·.peerId = route.peerId)).map (·.conns)).getD []

/-! ## What a desktop makes of the connections -/

theorem foldl_addConn_fixed (conns : List PeerConn) (info : PeerInfo) :
    (conns.foldl PeerInfo.addConn info).peerId = info.peerId ∧
      (conns.foldl PeerInfo.addConn info).isLocal = info.isLocal ∧
      (conns.foldl PeerInfo.addConn info).natType = info.natType := by
  induction conns generalizing info with
  | nil => exact ⟨rfl, rfl, rfl⟩
  | cons conn conns ih =>
    rcases ih (info.addConn conn) with ⟨hid, hlocal, hnat⟩
    rw [List.foldl_cons, hid, hlocal, hnat]
    cases hstats : conn.stats <;> simp [PeerInfo.addConn, hstats]

theorem foldl_addConn_loss (conns : List PeerConn) (info : PeerInfo) :
    (conns.foldl PeerInfo.addConn info).lossRate =
      (conns.getLast?.map (·.lossRate)).or info.lossRate := by
  induction conns using List.reverseRecOn with
  | nil => rfl
  | append_singleton conns conn _ =>
    rw [List.foldl_append, List.getLast?_concat]
    rfl

theorem foldl_addConn_tunnel (conns : List PeerConn) (info : PeerInfo) :
    (conns.foldl PeerInfo.addConn info).tunnelProto =
      ((conns.filterMap (·.tunnel)).getLast?).or info.tunnelProto := by
  induction conns using List.reverseRecOn with
  | nil => rfl
  | append_singleton conns conn ih =>
    rw [List.foldl_append, List.filterMap_append]
    have hlast : ∀ info : PeerInfo,
        (info.addConn conn).tunnelProto = conn.tunnel.or info.tunnelProto := by
      intro info
      cases hstats : conn.stats <;> simp [PeerInfo.addConn, hstats]
    show ((conns.foldl PeerInfo.addConn info).addConn conn).tunnelProto = _
    rw [hlast, ih]
    cases htunnel : conn.tunnel with
    | none => simp [htunnel]
    | some tunnel => simp [htunnel]

/-- The bytes that were counted are added up. -/
theorem foldl_addConn_bytes (conns : List PeerConn) (info : PeerInfo) :
    (conns.foldl PeerInfo.addConn info).rxBytes =
        (if conns.filterMap (·.stats) = [] then info.rxBytes
          else some (info.rxBytes.getD 0 + ((conns.filterMap (·.stats)).map (·.rxBytes)).sum)) ∧
      (conns.foldl PeerInfo.addConn info).txBytes =
        (if conns.filterMap (·.stats) = [] then info.txBytes
          else some (info.txBytes.getD 0 + ((conns.filterMap (·.stats)).map (·.txBytes)).sum)) := by
  induction conns generalizing info with
  | nil => exact ⟨rfl, rfl⟩
  | cons conn conns ih =>
    rcases ih (info.addConn conn) with ⟨hrx, htx⟩
    rw [List.foldl_cons, hrx, htx]
    cases hstats : conn.stats with
    | none =>
      rw [List.filterMap_cons_none hstats]
      simp [PeerInfo.addConn, hstats]
    | some stats =>
      rw [List.filterMap_cons_some hstats]
      by_cases hnil : conns.filterMap (·.stats) = []
      · simp [PeerInfo.addConn, hstats, hnil]
      · simp [PeerInfo.addConn, hstats, hnil, UInt64.add_assoc]

theorem foldl_addConn_latency (conns : List PeerConn) {info : PeerInfo} {l : ℚ}
    (h : info.latencyMs = some l) : (conns.foldl PeerInfo.addConn info).latencyMs =
      some (((conns.filterMap (·.stats)).map latencyMsOf).foldl min l) := by
  induction conns generalizing info l with
  | nil => exact h
  | cons conn conns ih =>
    rw [List.foldl_cons]
    cases hstats : conn.stats with
    | none =>
      rw [List.filterMap_cons_none hstats]
      apply ih
      simp [PeerInfo.addConn, hstats, h]
    | some stats =>
      rw [List.filterMap_cons_some hstats, List.map_cons, List.foldl_cons]
      apply ih
      simp [PeerInfo.addConn, hstats, h]

theorem foldl_min_le (xs : List ℚ) (l : ℚ) : xs.foldl min l ≤ l := by
  induction xs generalizing l with
  | nil => exact le_rfl
  | cons x xs ih => exact (ih (min l x)).trans (min_le_left l x)

/-- The smallest is the first when none is smaller. -/
theorem foldl_min_eq_iff (xs : List ℚ) (l : ℚ) : xs.foldl min l = l ↔ ∀ x ∈ xs, l ≤ x := by
  induction xs generalizing l with
  | nil => simp
  | cons x xs ih =>
    rw [List.foldl_cons, List.forall_mem_cons]
    constructor
    · intro h
      have hx : l ≤ x := by
        calc l = xs.foldl min (min l x) := h.symm
          _ ≤ min l x := foldl_min_le xs (min l x)
          _ ≤ x := min_le_right l x
      rw [min_eq_left hx] at h
      exact ⟨hx, (ih l).1 h⟩
    · rintro ⟨hx, hxs⟩
      rw [min_eq_left hx]
      exact (ih l).2 hxs

/-! ## One peer on both ways -/

section Peer

variable (natName : Int → Str) (showInet : Ipv4Inet → Str)

/-- The connections of a peer that may be missing. -/
def connsOfPeer (peer : Option CorePeer) : List PeerConn := (peer.map (·.conns)).getD []

theorem peerFromRoutePeerPair_eq (route : Route) (peer : Option CorePeer) :
    peerFromRoutePeerPair natName route peer =
      (connsOfPeer peer).foldl PeerInfo.addConn (peerFromRoute natName route) := by
  -- the type is set a second time
  have hnat : ∀ natType, route.stunInfo = some natType →
      { peerFromRoute natName route with natType := some (natName natType) } =
        peerFromRoute natName route := by
    intro natType hstun
    simp [peerFromRoute, hstun]
  unfold peerFromRoutePeerPair
  cases hstun : route.stunInfo with
  | none => cases peer <;> rfl
  | some natType =>
    simp only [hnat natType hstun]
    cases peer <;> rfl

theorem peerId_desktop (route : Route) (peer : Option CorePeer) :
    (peerFromRoutePeerPair natName route peer).peerId = route.peerId ∧
      (peerFromRoutePeerPair natName route peer).isLocal = false := by
  rw [peerFromRoutePeerPair_eq]
  rcases foldl_addConn_fixed (connsOfPeer peer) (peerFromRoute natName route) with
    ⟨hid, hlocal, -⟩
  exact ⟨hid, hlocal⟩

/-- Byte counters of the two ways. -/
theorem bytes_eq_iff (count : ConnStats → UInt64) (conns : List PeerConn) :
    (if conns.filterMap (·.stats) = [] then (none : Option UInt64)
      else some (0 + ((conns.filterMap (·.stats)).map count).sum)) =
        (conns.head?.bind fun conn => conn.stats.map count) ↔ RestIdle count conns := by
  cases conns with
  | nil => simp [RestIdle]
  | cons conn conns =>
    rw [RestIdle, List.head?_cons, Option.bind_some]
    cases hstats : conn.stats with
    | none =>
      rw [List.filterMap_cons_none hstats]
      simp
    | some stats =>
      rw [List.filterMap_cons_some hstats, if_neg (List.cons_ne_nil _ _), List.map_cons,
        List.sum_cons, Option.map_some, Option.some.injEq, UInt64.zero_add]
      constructor
      · intro h
        exact (UInt64.add_right_inj _).1 (h.trans (UInt64.add_zero _).symm)
      · intro h
        rw [h, UInt64.add_zero]

/-- A path without a latency is one on a desktop and none on a phone. -/
theorem latency_eq_iff (l : ℚ) (xs : List ℚ) :
    some (xs.foldl min l) = (some l).filter (0 < ·) ↔ 0 < l ∧ ∀ x ∈ xs, l ≤ x := by
  by_cases hl : 0 < l
  · rw [Option.filter_some_pos (by simpa using hl), Option.some.injEq, foldl_min_eq_iff]
    exact ⟨fun h => ⟨hl, h⟩, fun h => h.2⟩
  · rw [Option.filter_some_neg (by simpa using hl)]
    constructor
    · intro h
      cases h
    · rintro ⟨hpos, -⟩
      exact absurd hpos hl

theorem sameReport_iff (id : UInt32) (route : Route) (peer : Option CorePeer) :
    SameReport (peerFromRoutePeerPair natName route peer)
        (mobilePeer showInet id peer (some route)) ↔
      ReportedAlike route (connsOfPeer peer) := by
  have hhead : ∀ {β : Type} (f : PeerConn → Option β),
      (peer.bind fun c => c.conns.head?.bind f) = (connsOfPeer peer).head?.bind f := by
    intro β f
    cases peer <;> rfl
  have hloss : (peer.bind fun c => c.conns.head?.map (·.lossRate)) =
      (connsOfPeer peer).head?.map (·.lossRate) := by
    cases peer <;> rfl
  -- both readings are of the list of connections
  rw [peerFromRoutePeerPair_eq]
  generalize connsOfPeer peer = conns at hhead hloss ⊢
  have hbytes := foldl_addConn_bytes conns (peerFromRoute natName route)
  have hnat := (foldl_addConn_fixed conns (peerFromRoute natName route)).2.2
  have hlossDesktop := foldl_addConn_loss conns (peerFromRoute natName route)
  have htunnel := foldl_addConn_tunnel conns (peerFromRoute natName route)
  have hlatency : (conns.foldl PeerInfo.addConn (peerFromRoute natName route)).latencyMs =
      some (((conns.filterMap (·.stats)).map latencyMsOf).foldl min (route.pathLatency : ℚ)) :=
    foldl_addConn_latency conns rfl
  have hmobile : (mobilePeer showInet id peer (some route)).latencyMs =
      (some (route.pathLatency : ℚ)).filter (0 < ·) := rfl
  have hlatencies : (∀ x ∈ (conns.filterMap (·.stats)).map latencyMsOf,
      (route.pathLatency : ℚ) ≤ x) ↔
        ∀ stats ∈ conns.filterMap (·.stats), (route.pathLatency : ℚ) ≤ latencyMsOf stats :=
    List.forall_mem_map
  have hsign : (0 : ℚ) < route.pathLatency ↔ 0 < route.pathLatency := Int.cast_pos
  -- field by field: the desktop sums up what the phone takes of the first connection
  constructor
  · rintro ⟨hl, hlo, hr, ht, htu, hn⟩
    rw [hlatency, hmobile, latency_eq_iff, hsign, hlatencies] at hl
    refine ⟨?_, hl, ?_, ?_, ?_, ?_⟩
    · rw [hnat] at hn
      exact Option.map_eq_none_iff.1 hn
    · rw [hbytes.1] at hr
      exact (bytes_eq_iff ConnStats.rxBytes conns).1 (hr.trans (hhead _))
    · rw [hbytes.2] at ht
      exact (bytes_eq_iff ConnStats.txBytes conns).1 (ht.trans (hhead _))
    · rw [hlossDesktop] at hlo
      exact (Option.or_none).symm.trans (hlo.trans hloss)
    · rw [htunnel] at htu
      exact (Option.or_none).symm.trans (htu.trans (hhead _))
  · rintro ⟨hn, hl, hr, ht, hlo, htu⟩
    refine ⟨?_, ?_, ?_, ?_, ?_, ?_⟩
    · rw [hlatency, hmobile, latency_eq_iff, hsign, hlatencies]
      exact hl
    · rw [hlossDesktop]
      exact (Option.or_none).trans (hlo.trans hloss.symm)
    · rw [hbytes.1]
      exact ((bytes_eq_iff ConnStats.rxBytes conns).2 hr).trans (hhead _).symm
    · rw [hbytes.2]
      exact ((bytes_eq_iff ConnStats.txBytes conns).2 ht).trans (hhead _).symm
    · rw [htunnel]
      exact (Option.or_none).trans (htu.trans (hhead _).symm)
    · rw [hnat]
      exact Option.map_eq_none_iff.2 hn

end Peer

/-! ## The lists -/

/-- Where keys do not repeat, the last entry of a key is the first. -/
theorem find?_reverse {α : Type} {key : α → UInt32} {l : List α} (h : (l.map key).Nodup)
    (k : UInt32) : l.reverse.find? (key · = k) = l.find? (key · = k) := by
  cases hfirst : l.find? (key · = k) with
  | none =>
    rw [List.find?_eq_none] at hfirst ⊢
    intro x hx
    exact hfirst x (List.mem_reverse.1 hx)
  | some x =>
    have hx := List.mem_of_find?_eq_some hfirst
    have hkey : key x = k := by simpa using List.find?_some hfirst
    cases hlast : l.reverse.find? (key · = k) with
    | none =>
      rw [List.find?_eq_none] at hlast
      exact absurd hkey (by simpa using hlast x (List.mem_reverse.2 hx))
    | some y =>
      have hy := List.mem_reverse.1 (List.mem_of_find?_eq_some hlast)
      have hkey' : key y = k := by simpa using List.find?_some hlast
      rw [List.inj_on_of_nodup_map h hy hx (hkey'.trans hkey.symm)]

theorem find?_of_mem {α : Type} {key : α → UInt32} {l : List α} (h : (l.map key).Nodup) {x : α}
    (hx : x ∈ l) : l.find? (key · = key x) = some x := by
  cases hfirst : l.find? (key · = key x) with
  | none =>
    rw [List.find?_eq_none] at hfirst
    have hne : key x ≠ key x := by simpa using hfirst x hx
    exact absurd rfl hne
  | some y =>
    have hy := List.mem_of_find?_eq_some hfirst
    have hkey : key y = key x := by simpa using List.find?_some hfirst
    rw [List.inj_on_of_nodup_map h hy hx hkey]

section Core

variable (natName : Int → Str) (showInet : Ipv4Inet → Str) (core : CoreState)

/-- The entries of a desktop for the other nodes. -/
theorem mem_desktopPeers_iff {a : PeerInfo} (ha : a.isLocal = false) :
    a ∈ desktopPeers natName core.runningInfo ↔
      ∃ route ∈ core.routes, core.myNodeInfo.map (·.peerId) ≠ some route.peerId ∧
        a = peerFromRoutePeerPair natName route
          (core.peers.find? (·.peerId = route.peerId)) := by
  have hlocal : a ∉ (core.myNodeInfo.map desktopLocal).toList := by
    intro hmem
    rcases Option.map_eq_some_iff.1 (Option.mem_toList.1 hmem) with ⟨node, -, rfl⟩
    cases ha
  show a ∈ (core.myNodeInfo.map desktopLocal).toList ++ (if core.pairs ≠ [] then _ else _) ↔ _
  rw [List.mem_append, or_iff_right hlocal]
  by_cases hpairs : core.pairs = []
  · have hroutes : core.routes = [] := by
      rw [core.pairs_eq] at hpairs
      exact List.map_eq_nil_iff.1 hpairs
    rw [if_neg (not_not.2 hpairs)]
    show a ∈ (core.routes.filter _).map _ ↔ _
    rw [hroutes]
    simp
  · rw [if_pos hpairs]
    show a ∈ core.pairs.filterMap _ ↔ _
    rw [core.pairs_eq, List.filterMap_map, List.mem_filterMap]
    apply exists_congr
    intro route
    apply and_congr_right
    intro _
    simp only [Function.comp_apply, CoreState.runningInfo]
    by_cases hforeign : core.myNodeInfo.map (·.peerId) ≠ some route.peerId
    · rw [Option.filter_some_pos (by simpa using hforeign), Option.map_some, Option.some.injEq]
      exact ⟨fun h => ⟨hforeign, h.symm⟩, fun h => h.2.symm⟩
    · rw [Option.filter_some_neg (by simpa using hforeign)]
      constructor
      · intro h
        cases h
      · rintro ⟨h, -⟩
        exact absurd h hforeign

/-- The entries of a phone for the other nodes. -/
theorem mem_mobilePeers_iff {b : PeerInfo} (hb : b.isLocal = false) :
    b ∈ mobilePeers showInet core.myInfo core.peers (some core.routes) core.ids ↔
      ∃ id ∈ core.ids, b = mobilePeer showInet id (connOf core.peers id)
        (routeOf core.routes id) := by
  have hlocal : b ∉ ((core.myInfo.filter (·.ipv4Addr ≠ [])).map mobileLocal).toList := by
    intro hmem
    rcases Option.map_eq_some_iff.1 (Option.mem_toList.1 hmem) with ⟨my, -, rfl⟩
    cases hb
  rw [mobilePeers, (List.perm_insertionSort _ _).mem_iff, List.mem_append, or_iff_right hlocal,
    List.mem_map, Option.getD_some]
  apply exists_congr
  intro id
  exact and_congr_right fun _ => eq_comm

/-- Desktop and phone agree exactly on the peers whose routes and connections leave no
difference. -/
theorem peers_agree_iff :
    PeersAgree natName showInet core ↔
      ∀ route ∈ core.routes, core.myNodeInfo.map (·.peerId) ≠ some route.peerId →
        ReportedAlike route (core.connsOf route) := by
  have hconn : ∀ id, connOf core.peers id = core.peers.find? (·.peerId = id) :=
    find?_reverse core.peerIds
  have hroute : ∀ route ∈ core.routes, routeOf core.routes route.peerId = some route := by
    intro route hmem
    rw [routeOf, find?_reverse core.routeIds, find?_of_mem core.routeIds hmem]
  constructor
  · intro h route hmem hforeign
    have hid : route.peerId ∈ core.ids :=
      (core.mem_ids _).2 (.inr (List.mem_map_of_mem hmem))
    rcases peerId_desktop natName route (core.peers.find? (·.peerId = route.peerId)) with
      ⟨hdesktop, hlocal⟩
    have ha := (mem_desktopPeers_iff natName core hlocal).2 ⟨route, hmem, hforeign, rfl⟩
    have hb := (mem_mobilePeers_iff showInet core rfl).2 ⟨route.peerId, hid, rfl⟩
    have hsame := h _ ha _ hb hlocal rfl hdesktop
    rw [hconn, hroute route hmem] at hsame
    exact (sameReport_iff natName showInet _ _ _).1 hsame
  · intro h a ha b hb halocal hblocal hid
    rcases (mem_desktopPeers_iff natName core halocal).1 ha with ⟨route, hmem, hforeign, rfl⟩
    rcases (mem_mobilePeers_iff showInet core hblocal).1 hb with ⟨id, -, rfl⟩
    have hpeer : route.peerId = id :=
      (peerId_desktop natName route _).1.symm.trans hid
    rw [← hpeer, hconn, hroute route hmem]
    exact (sameReport_iff natName showInet _ _ _).2 (h route hmem hforeign)

end Core

/-- A peer over two connections. -/
def twoConns : CorePeer where
  peerId := 2
  conns := [⟨some ⟨9000, 100, 100⟩, 0, some "udp".toList⟩, ⟨some ⟨9000, 50, 50⟩, 0, none⟩]

def atticRoute : Route where
  peerId := 2
  ipv4Addr := none
  hostname := "attic".toList
  version := []
  pathLatency := 9
  stunInfo := none
  proxyCidrs := []

def twoConnsCore : CoreState where
  peers := [twoConns]
  routes := [atticRoute]
  myNodeInfo := none
  myInfo := none
  pairs := [⟨some atticRoute, some twoConns⟩]
  ids := [2]
  peerIds := List.nodup_singleton _
  routeIds := List.nodup_singleton _
  pairs_eq := rfl
  mem_ids := fun _ => or_self_iff.symm

/-- The phone leaves the bytes of the second connection out. -/
theorem second_conn_missing : ¬ ∀ (natName : Int → Str) (showInet : Ipv4Inet → Str)
    (core : CoreState), PeersAgree natName showInet core := by
  intro hall
  have h := hall (fun _ => []) (fun _ => []) twoConnsCore
  have ha := (mem_desktopPeers_iff (fun _ => []) twoConnsCore
    (peerId_desktop (fun _ => []) atticRoute (some twoConns)).2).2
      ⟨atticRoute, List.mem_cons_self, by decide, rfl⟩
  have hb := (mem_mobilePeers_iff (fun _ => []) twoConnsCore rfl).2
    ⟨2, List.mem_cons_self, rfl⟩
  have hrx := (h _ ha _ hb (peerId_desktop _ _ _).2 rfl (peerId_desktop _ _ _).1).rx
  revert hrx
  decide

end Rpc

end HomeTier
