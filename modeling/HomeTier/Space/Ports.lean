import HomeTier.Lib.Text
import HomeTier.EasyTier.Manager

/-! # Ports of the local services

Each node keeps its own record of a space; `create` and `join` of
`src-tauri/src/space/manager.rs` draw the record's id on the node. The ports of
the chat, voice, screen and file servers are derived from that id, and so are
the ports a node uses for its peers: in `discover_and_connect_peers` for chat
and in `get_peers_for_file_transfer` for files. For a peer's voice or screen
server a node has only the port it derives for its own.
-/

namespace HomeTier

open Lib

/-- What a node stores of a space; the other fields do not bear on its ports. -/
structure Space where
  id : Uuid
  name : Str
  networkName : Str
  networkSecret : Str

/-- `create`: the network is named after the space. -/
def createSpace (freshId : Uuid) (relayPrefix name networkSecret : Str) : Space where
  id := freshId
  name := name
  networkName := relayPrefix ++ name
  networkSecret := networkSecret

/-- `join`: name and secret come from the shared configuration, the id does not. -/
def joinSpace (freshId : Uuid) (networkName networkSecret : Str) (name : Option Str) : Space where
  id := freshId
  name := name.getD networkName
  networkName := networkName
  networkSecret := networkSecret

inductive Service where
  | chat
  | voice
  | screen
  | file
deriving DecidableEq

/-- `(space_id.as_u128() % 1000) as u16` -/
def portOffset (id : Uuid) : UInt16 := UInt16.ofNat (id.toNat % 1000)

/-- The port of a service; `fileBase` is the configured base of the file server.
Addition wraps around. -/
def servicePort (fileBase : UInt16) (id : Uuid) : Service → UInt16
  | .chat => 18000 + portOffset id
  | .voice => 18100 + portOffset id
  | .screen => 18200 + portOffset id
  | .file => fileBase + portOffset id

/-- A node of a network, with its own record and configuration. -/
structure Node where
  space : Space
  fileBase : UInt16
  virtualIp : Str

/-- What the core reports about a member. -/
structure PeerInfo where
  virtualIp : Option Str
  isLocal : Bool

namespace Node

variable (n : Node)

/-- `start_chat_server` and its siblings. -/
def listenPort (s : Service) : UInt16 := servicePort n.fileBase n.space.id s

/-- The peers of the chat client, keyed by address. -/
def chatPeers (peers : List PeerInfo) : Map Str (Str × UInt16) :=
  peers.foldl (fun m p =>
    if p.isLocal then m
    else
      match p.virtualIp with
      | some ip => AList.insert ip (ip, 18000 + portOffset n.space.id) m
      | none => m) ∅

/-- `get_peers_for_file_transfer` -/
def filePeers (peers : List PeerInfo) : List (Str × UInt16) :=
  peers.filterMap fun p => p.virtualIp.map fun ip => (ip, n.fileBase + portOffset n.space.id)

/-- Whatever peers the core reports, `n` addresses `m` where it listens. -/
def Reaches (m : Node) : Prop :=
  ∀ peers,
    (∀ e, (n.chatPeers peers).get m.virtualIp = some e → e.2 = m.listenPort .chat) ∧
    (∀ e ∈ n.filePeers peers, e.1 = m.virtualIp → e.2 = m.listenPort .file) ∧
    n.listenPort .voice = m.listenPort .voice ∧ n.listenPort .screen = m.listenPort .screen

/-! ## Addressed ports -/

variable {n}

theorem filePeers_port {peers : List PeerInfo} {e : Str × UInt16} (h : e ∈ n.filePeers peers) :
    e.2 = n.fileBase + portOffset n.space.id := by
  rcases List.mem_filterMap.1 h with ⟨p, -, hp⟩
  rcases Option.map_eq_some_iff.1 hp with ⟨ip, -, rfl⟩
  rfl

/-- Every entry of the chat client has the port of the node's own id. -/
theorem chatPeers_port {peers : List PeerInfo} {ip : Str} {e : Str × UInt16}
    (h : (n.chatPeers peers).get ip = some e) : e.2 = 18000 + portOffset n.space.id := by
  -- the fold keeps the property of the map it extends
  have hfold : ∀ m : Map Str (Str × UInt16),
      (∀ ip e, m.get ip = some e → e.2 = 18000 + portOffset n.space.id) →
      ∀ ip e, (peers.foldl (fun m p =>
        if p.isLocal then m
        else
          match p.virtualIp with
          | some ip => AList.insert ip (ip, 18000 + portOffset n.space.id) m
          | none => m) m).get ip = some e → e.2 = 18000 + portOffset n.space.id := by
    clear h
    induction peers with
    | nil =>
      intro m hm
      exact hm
    | cons p peers ih =>
      intro m hm
      rw [List.foldl_cons]
      apply ih
      split
      · exact hm
      · cases p.virtualIp with
        | none => exact hm
        | some addr =>
          intro key entry hget
          by_cases hkey : key = addr
          · subst hkey
            rw [Map.get_insert_self] at hget
            obtain rfl := Option.some.inj hget
            rfl
          · rw [Map.get, AList.lookup_insert_ne hkey] at hget
            exact hm key entry hget
  exact hfold ∅ (by simp [Map.get]) ip e h

theorem portOffset_eq_iff {a b : Uuid} :
    portOffset a = portOffset b ↔ a.toNat % 1000 = b.toNat % 1000 := by
  rw [portOffset, portOffset, ← UInt16.toNat_inj, UInt16.toNat_ofNat', UInt16.toNat_ofNat']
  omega

/-- A node reaches another exactly when their ids agree modulo 1000 and their
file servers share a base. -/
theorem reaches_iff {m : Node} : n.Reaches m ↔
    n.space.id.toNat % 1000 = m.space.id.toNat % 1000 ∧ n.fileBase = m.fileBase := by
  rw [← portOffset_eq_iff]
  constructor
  · intro h
    -- a peer list with `m` alone has an entry for it on both sides
    rcases h [⟨some m.virtualIp, false⟩] with ⟨hchat, hfile, -, -⟩
    have hoffset := hchat (m.virtualIp, 18000 + portOffset n.space.id)
      (Map.get_insert_self _ _ _)
    have hport := hfile (m.virtualIp, n.fileBase + portOffset n.space.id) (by simp [filePeers]) rfl
    have hid : portOffset n.space.id = portOffset m.space.id := (UInt16.add_right_inj _).1 hoffset
    refine ⟨hid, ?_⟩
    have hbase : n.fileBase + portOffset n.space.id = m.fileBase + portOffset m.space.id := hport
    rw [hid] at hbase
    exact (UInt16.add_left_inj _).1 hbase
  · rintro ⟨hid, hbase⟩ peers
    refine ⟨?_, ?_, ?_, ?_⟩
    · intro e he
      rw [chatPeers_port he, hid]
      rfl
    · intro e he _
      rw [filePeers_port he, hid, hbase]
      rfl
    · rw [listenPort, listenPort, servicePort, servicePort, hid]
    · rw [listenPort, listenPort, servicePort, servicePort, hid]

end Node

/-! ## Networks -/

/-- A creator and those who joined, each with its own id, base and address. -/
structure Network where
  relayPrefix : Str
  name : Str
  networkSecret : Str
  creator : Uuid × UInt16 × Str
  /-- Joiners may name the space themselves. -/
  joiners : List (Uuid × UInt16 × Str × Option Str)

namespace Network

variable (net : Network)

def creatorNode : Node :=
  ⟨createSpace net.creator.1 net.relayPrefix net.name net.networkSecret, net.creator.2.1,
    net.creator.2.2⟩

def nodes : List Node :=
  net.creatorNode :: net.joiners.map fun j =>
    ⟨joinSpace j.1 net.creatorNode.space.networkName net.networkSecret j.2.2.2, j.2.1, j.2.2.1⟩

/-- The ids and file server bases of the nodes. -/
def idsAndBases : List (Uuid × UInt16) :=
  (net.creator.1, net.creator.2.1) :: net.joiners.map fun j => (j.1, j.2.1)

/-- In every network, all nodes reach each other exactly when the ids they drew
agree modulo 1000 and their file servers share a base. -/
theorem ports_agree_iff : (∀ a ∈ net.nodes, ∀ b ∈ net.nodes, a.Reaches b) ↔
    ∀ x ∈ net.idsAndBases, ∀ y ∈ net.idsAndBases,
      x.1.toNat % 1000 = y.1.toNat % 1000 ∧ x.2 = y.2 := by
  have hmap : net.idsAndBases = net.nodes.map fun a => (a.space.id, a.fileBase) := by
    simp [idsAndBases, nodes, creatorNode, createSpace, joinSpace]
  rw [hmap]
  simp only [List.forall_mem_map, Node.reaches_iff]

/-- A creator and one joiner with random ids. -/
def pair : Network where
  relayPrefix := "homeTier_".toList
  name := "home".toList
  networkSecret := "secret".toList
  creator := (0x6f1c2e8a9b0d4c7f8e1a2b3c4d5e6f70, 19000, "10.144.144.2".toList)
  joiners := [(0x0a1b2c3d4e5f4a6b9c8d7e6f5a4b3c2d, 19000, "10.144.144.3".toList, none)]

/-- The creator addresses the joiner on a port where it does not listen. -/
theorem joiner_not_reached : ¬ ∀ a ∈ pair.nodes, ∀ b ∈ pair.nodes, a.Reaches b := by
  intro h
  have hpair := (Node.reaches_iff.1 (h _ List.mem_cons_self _
    (List.mem_cons_of_mem _ List.mem_cons_self))).1
  exact absurd hpair (by decide)

end Network

end HomeTier
