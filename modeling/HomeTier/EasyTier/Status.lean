import Mathlib.Algebra.BigOperators.Group.List.Basic
import Mathlib.Algebra.GroupWithZero.Nat
import Mathlib.Data.Rat.Defs
import HomeTier.Lib.Text

/-! # The status of a running network

`query_rpc_status_once` of `src-tauri/src/easytier/mod.rs` asks the core about an
instance and adds up what the connections have carried. It walks the pairs of a route
and a peer and unwraps the peer, which the pair of a relayed node does not have, and
the peers that have no route are in no pair.

So it counts everything exactly when every pair has its peer and the pairs carry as
much as the listed peers do (`counts_all_iff`). Sums wrap around; latencies are
averaged in exact arithmetic.
-/

namespace HomeTier

open Lib

namespace Rpc

structure ConnStats where
  latencyUs : UInt64
  rxBytes : UInt64
  txBytes : UInt64
deriving DecidableEq, Repr

/-- A connection to a peer; of the tunnel, its type. -/
structure PeerConn where
  stats : Option ConnStats
  lossRate : ℚ
  tunnel : Option Str
deriving DecidableEq, Repr

/-- `PeerInfo` of the core. -/
structure CorePeer where
  peerId : UInt32
  conns : List PeerConn
deriving DecidableEq, Repr

/-- `Ipv4Inet`, whose address may be missing. -/
abbrev Ipv4Inet := Option UInt32

structure Route where
  peerId : UInt32
  ipv4Addr : Option Ipv4Inet
  hostname : Str
  version : Str
  pathLatency : Int
  /-- `udp_nat_type` of the STUN information. -/
  stunInfo : Option Int
  proxyCidrs : List Str
deriving DecidableEq, Repr

structure PeerRoutePair where
  route : Option Route
  peer : Option CorePeer
deriving DecidableEq, Repr

structure NodeInfo where
  peerId : UInt32
  virtualIpv4 : Option Ipv4Inet
  hostname : Str
  version : Str
deriving DecidableEq, Repr

/-- `NetworkInstanceRunningInfo` -/
structure RunningInfo where
  errorMsg : Option Str
  myNodeInfo : Option NodeInfo
  peerRoutePairs : List PeerRoutePair
  routes : List Route
  peers : List CorePeer
deriving DecidableEq, Repr

structure SpaceRuntimeStatus where
  spaceId : Str
  isRunning : Bool
  virtualIp : Option Str
  connectedPeers : Nat
  rxBytes : UInt64
  txBytes : UInt64
  avgLatencyMs : ℚ
deriving DecidableEq, Repr

/-- How the query ends. -/
inductive Outcome where
  /-- `unwrap` of `None` -/
  | panicked
  | returned (status : Option SpaceRuntimeStatus)
deriving DecidableEq, Repr

/-! ## The query -/

structure Totals where
  latency : Nat
  latencyCount : Nat
  rxBytes : UInt64
  txBytes : UInt64

def Totals.zero : Totals := ⟨0, 0, 0, 0⟩

def Totals.addConn (t : Totals) (conn : PeerConn) : Totals :=
  match conn.stats with
  | some stats =>
    { latency := t.latency + stats.latencyUs.toNat
      latencyCount := t.latencyCount + 1
      rxBytes := t.rxBytes + stats.rxBytes
      txBytes := t.txBytes + stats.txBytes }
  | none => t

/-- The loop over the pairs. -/
def Totals.addPairs (t : Totals) : List PeerRoutePair → Option Totals
  | [] => some t
  | pair :: pairs =>
    match pair.peer with
    | none => none
    | some peer => (peer.conns.foldl addConn t).addPairs pairs

def Totals.avgLatencyMs (t : Totals) : ℚ :=
  if 0 < t.latencyCount then (t.latency : ℚ) / t.latencyCount / 1000 else 0

section Query

variable (showAddr : UInt32 → Str) (spaceId : Str)

/-- The branch for an instance that is in the response. -/
def statusOf (info : RunningInfo) : Outcome :=
  match info.errorMsg with
  | some _ =>
    .returned (some {
      spaceId := spaceId
      isRunning := false
      virtualIp := none
      connectedPeers := 0
      rxBytes := 0
      txBytes := 0
      avgLatencyMs := 0 })
  | none =>
    match Totals.zero.addPairs info.peerRoutePairs with
    | none => .panicked
    | some totals =>
      .returned (some {
        spaceId := spaceId
        isRunning := true
        virtualIp := (info.myNodeInfo.bind fun node => node.virtualIpv4.join).map showAddr
        connectedPeers := info.peerRoutePairs.length
        rxBytes := totals.rxBytes
        txBytes := totals.txBytes
        avgLatencyMs := totals.avgLatencyMs })

/-- `query_rpc_status_once`, given the instances of the response if there is one. -/
def queryRpcStatusOnce (response : Option (Str → Option RunningInfo)) : Outcome :=
  match response.bind (· spaceId) with
  | some info => statusOf showAddr spaceId info
  | none => .returned none

end Query

/-! ## What is counted -/

/-- The statistics of all connections of the peers. -/
def allStats (peers : List CorePeer) : List ConnStats :=
  (peers.flatMap (·.conns)).filterMap (·.stats)

/-- The bytes of all connections of the peers. -/
def bytes (count : ConnStats → UInt64) (peers : List CorePeer) : Nat :=
  ((allStats peers).map fun stats => (count stats).toNat).sum

/-- The peers that the pairs have. -/
def RunningInfo.pairedPeers (info : RunningInfo) : List CorePeer :=
  info.peerRoutePairs.filterMap (·.peer)

/-- A query whose response has the instance returns a status with the sums over all connections
of all peers. -/
def CountsAll (showAddr : UInt32 → Str) (spaceId : Str) (info : RunningInfo) : Prop :=
  ∀ response : Str → Option RunningInfo, response spaceId = some info →
    ∃ status, queryRpcStatusOnce showAddr spaceId (some response) = .returned (some status) ∧
      status.rxBytes.toNat = bytes ConnStats.rxBytes info.peers ∧
      status.txBytes.toNat = bytes ConnStats.txBytes info.peers

theorem queryRpcStatusOnce_eq (showAddr : UInt32 → Str) {spaceId : Str} {info : RunningInfo}
    {response : Str → Option RunningInfo} (h : response spaceId = some info) :
    queryRpcStatusOnce showAddr spaceId (some response) = statusOf showAddr spaceId info := by
  simp only [queryRpcStatusOnce, Option.bind_some, h]

/-- The rest of the response does not matter. -/
theorem countsAll_iff (showAddr : UInt32 → Str) (spaceId : Str) (info : RunningInfo) :
    CountsAll showAddr spaceId info ↔
      ∃ status, statusOf showAddr spaceId info = .returned (some status) ∧
        status.rxBytes.toNat = bytes ConnStats.rxBytes info.peers ∧
        status.txBytes.toNat = bytes ConnStats.txBytes info.peers := by
  constructor
  · intro h
    exact h (fun _ => some info) rfl
  · intro h response hresponse
    rwa [queryRpcStatusOnce_eq showAddr hresponse]

/-- Every pair has its peer, and the pairs carry what the peers do; an instance that did
not start has carried nothing. -/
def RunningInfo.Countable (info : RunningInfo) : Prop :=
  match info.errorMsg with
  | some _ => bytes ConnStats.rxBytes info.peers = 0 ∧ bytes ConnStats.txBytes info.peers = 0
  | none => (∀ pair ∈ info.peerRoutePairs, pair.peer ≠ none) ∧
    ∀ count ∈ [ConnStats.rxBytes, ConnStats.txBytes],
      bytes count info.pairedPeers % 2 ^ 64 = bytes count info.peers

theorem bytes_cons (count : ConnStats → UInt64) (peer : CorePeer) (peers : List CorePeer) :
    bytes count (peer :: peers) = bytes count [peer] + bytes count peers := by
  simp [bytes, allStats]

/-- The sums of a peer, modulo the word size. -/
theorem foldl_addConn (t : Totals) (conns : List PeerConn) :
    let stats := conns.filterMap (·.stats)
    (conns.foldl Totals.addConn t).rxBytes.toNat =
        (t.rxBytes.toNat + (stats.map (·.rxBytes.toNat)).sum) % 2 ^ 64 ∧
      (conns.foldl Totals.addConn t).txBytes.toNat =
        (t.txBytes.toNat + (stats.map (·.txBytes.toNat)).sum) % 2 ^ 64 := by
  induction conns generalizing t with
  | nil =>
    have hrx := t.rxBytes.toNat_lt
    have htx := t.txBytes.toNat_lt
    simp only [List.foldl_nil, List.filterMap_nil, List.map_nil, List.sum_nil, Nat.add_zero]
    exact ⟨(Nat.mod_eq_of_lt hrx).symm, (Nat.mod_eq_of_lt htx).symm⟩
  | cons conn conns ih =>
    rcases ih (t.addConn conn) with ⟨hrx, htx⟩
    simp only [List.foldl_cons]
    rw [hrx, htx]
    cases hstats : conn.stats with
    | none =>
      rw [List.filterMap_cons_none hstats]
      simp only [Totals.addConn, hstats, and_self]
    | some stats =>
      rw [List.filterMap_cons_some hstats]
      simp only [Totals.addConn, hstats, List.map_cons, List.sum_cons, UInt64.toNat_add,
        Nat.mod_add_mod, Nat.add_assoc, and_self]

/-- The loop panics at a pair without a peer, and else adds up what the pairs carry. -/
theorem addPairs_spec (t : Totals) (pairs : List PeerRoutePair) :
    match t.addPairs pairs with
    | none => ∃ pair ∈ pairs, pair.peer = none
    | some totals => (∀ pair ∈ pairs, pair.peer ≠ none) ∧
      totals.rxBytes.toNat =
        (t.rxBytes.toNat + bytes ConnStats.rxBytes (pairs.filterMap (·.peer))) % 2 ^ 64 ∧
      totals.txBytes.toNat =
        (t.txBytes.toNat + bytes ConnStats.txBytes (pairs.filterMap (·.peer))) % 2 ^ 64 := by
  induction pairs generalizing t with
  | nil =>
    refine ⟨fun pair h => absurd h List.not_mem_nil, ?_, ?_⟩
    · exact (Nat.mod_eq_of_lt t.rxBytes.toNat_lt).symm
    · exact (Nat.mod_eq_of_lt t.txBytes.toNat_lt).symm
  | cons pair pairs ih =>
    rw [Totals.addPairs]
    cases hpeer : pair.peer with
    | none => exact ⟨pair, List.mem_cons_self, hpeer⟩
    | some peer =>
      have hrest := ih (peer.conns.foldl Totals.addConn t)
      rcases foldl_addConn t peer.conns with ⟨hrx, htx⟩
      rw [List.filterMap_cons_some hpeer]
      simp only [bytes_cons _ peer (pairs.filterMap _)]
      cases hloop : (peer.conns.foldl Totals.addConn t).addPairs pairs with
      | none =>
        rw [hloop] at hrest
        rcases hrest with ⟨other, hother, hnone⟩
        exact ⟨other, List.mem_cons_of_mem _ hother, hnone⟩
      | some totals =>
        rw [hloop] at hrest
        rcases hrest with ⟨hall, hrestRx, hrestTx⟩
        have hone : ∀ count, bytes count [peer] =
            ((peer.conns.filterMap (·.stats)).map fun stats => (count stats).toNat).sum := by
          intro count
          simp [bytes, allStats]
        refine ⟨?_, ?_, ?_⟩
        · intro other hother
          rcases List.mem_cons.1 hother with rfl | hother
          · rw [hpeer]
            exact Option.some_ne_none peer
          · exact hall other hother
        · rw [hrestRx, hrx, hone, Nat.mod_add_mod, Nat.add_assoc]
        · rw [hrestTx, htx, hone, Nat.mod_add_mod, Nat.add_assoc]

/-- The query counts everything exactly when each pair has its peer and the pairs carry
what the peers do. -/
theorem counts_all_iff (showAddr : UInt32 → Str) (spaceId : Str) (info : RunningInfo) :
    CountsAll showAddr spaceId info ↔ info.Countable := by
  rw [countsAll_iff]
  unfold RunningInfo.Countable statusOf
  cases herror : info.errorMsg with
  | some error =>
    constructor
    · rintro ⟨status, hstatus, hrx, htx⟩
      cases hstatus
      exact ⟨hrx.symm, htx.symm⟩
    · rintro ⟨hrx, htx⟩
      exact ⟨_, rfl, hrx.symm, htx.symm⟩
  | none =>
    -- the loop gives up at a pair without a peer, and sums up else
    have hspec := addPairs_spec .zero info.peerRoutePairs
    cases hloop : Totals.zero.addPairs info.peerRoutePairs with
    | none =>
      rw [hloop] at hspec
      rcases hspec with ⟨pair, hpair, hnone⟩
      constructor
      · rintro ⟨status, hstatus, -⟩
        cases hstatus
      · rintro ⟨hall, -⟩
        exact absurd hnone (hall pair hpair)
    | some totals =>
      rw [hloop] at hspec
      rcases hspec with ⟨hall, hrx, htx⟩
      have hzero : Totals.zero.rxBytes.toNat = 0 ∧ Totals.zero.txBytes.toNat = 0 := ⟨rfl, rfl⟩
      rw [hzero.1, Nat.zero_add] at hrx
      rw [hzero.2, Nat.zero_add] at htx
      constructor
      · rintro ⟨status, hstatus, hstatusRx, hstatusTx⟩
        cases hstatus
        refine ⟨hall, ?_⟩
        intro count hcount
        simp only [List.mem_cons, List.not_mem_nil, or_false] at hcount
        rcases hcount with rfl | rfl
        · exact hrx.symm.trans hstatusRx
        · exact htx.symm.trans hstatusTx
      · rintro ⟨-, hcounts⟩
        refine ⟨_, rfl, ?_, ?_⟩
        · exact hrx.trans (hcounts _ List.mem_cons_self)
        · exact htx.trans (hcounts _ (List.mem_cons_of_mem _ List.mem_cons_self))

/-- A node that is reached over another one has a route and no connection. -/
def relayedRoute : Route where
  peerId := 2
  ipv4Addr := none
  hostname := "attic".toList
  version := []
  pathLatency := 40
  stunInfo := none
  proxyCidrs := []

def relayed : RunningInfo where
  errorMsg := none
  myNodeInfo := none
  peerRoutePairs := [⟨some relayedRoute, none⟩]
  routes := [relayedRoute]
  peers := []

theorem relayed_panics : ¬ ∀ (showAddr : UInt32 → Str) (spaceId : Str) (info : RunningInfo),
    CountsAll showAddr spaceId info := by
  intro hall
  rcases hall (fun _ => []) [] relayed (fun _ => some relayed) rfl with ⟨status, hstatus, -⟩
  have hpanic : queryRpcStatusOnce (fun _ => []) [] (some fun _ => some relayed) = .panicked := rfl
  rw [hpanic] at hstatus
  cases hstatus

end Rpc

end HomeTier
