import HomeTier.Lib.Parties
import HomeTier.Chat.Client
import HomeTier.Chat.Dispatch

/-! # The chat listener

Every node draws an id of its own for a network it creates or joins
(`src-tauri/src/space/manager.rs`), sends its messages under that id and opens
its chat server under that id. The listener (`src-tauri/src/app/setup.rs`, and
`src-tauri/src/lib.rs` without a window) takes the messages of each server,
verifies them with the secret of the server's space and emits them as they are.

So what a node verifies for a space of its own lands there exactly when the
sender wrote the receiver's id into it (`lands_iff`).
-/

namespace HomeTier.Realtime

open Lib

/-- The crates under the chat: digests, dates, JSON and the HTTP client. -/
structure Crates where
  primitives : Primitives
  chrono : ChatChrono
  json : JsonText
  /-- Head of a request to a host and port with a body of some length. -/
  head : Str → UInt16 → Nat → RequestHead

/-- `serde_json` for messages on a node in `zone`. -/
def Crates.codec (W : Crates) (zone : Zone) : ChatCodec where
  toString m := .ok (W.json.print (m.toJson W.chrono zone))
  fromStr t := (W.json.parse t).bind (ChatMessage.ofJson W.chrono)

/-! ## Events -/

/-- With a window, the page is sent the message alone; without one, its event
carries the id of the space as well. -/
inductive Mode where
  | desktop
  | server

structure Event where
  spaceId : Option Uuid
  message : ChatMessage

def newMessage (mode : Mode) (space : Uuid) (msg : ChatMessage) : Event where
  spaceId := match mode with
    | .desktop => none
    | .server => some space
  message := msg

/-- Every space that is written in the event is `space`. -/
def Event.Names (e : Event) (space : Uuid) : Prop :=
  e.message.spaceId = space ∧ ∀ id ∈ e.spaceId, id = space

theorem names_newMessage_iff {mode : Mode} {space : Uuid} {msg : ChatMessage} :
    (newMessage mode space msg).Names space ↔ msg.spaceId = space := by
  constructor
  · intro h
    exact h.1
  · intro h
    refine ⟨h, ?_⟩
    cases mode with
    | desktop =>
      intro id hid
      cases hid
    | server =>
      intro id hid
      exact (Option.mem_some_iff.1 hid).symm

/-! ## Nodes -/

/-- An event, with the space the message was verified for. -/
structure Emitted where
  space : Uuid
  event : Event

/-- A message that the page has handled, and the page as it was before. -/
structure Handled where
  space : Uuid
  message : ChatMessage
  before : FrontEnd
  reaction : Reaction

structure Node where
  /-- Address in the virtual network. -/
  ip : Str
  hostname : Str
  zone : Zone
  mode : Mode
  spaces : List Space
  /-- The queues of the open servers. -/
  chatServers : Map Uuid (List ChatMessage)
  chatClients : Map Uuid ChatClient
  front : FrontEnd
  emitted : List Emitted
  handled : List Handled

/-- A request to a chat server. -/
structure Packet where
  ip : Str
  port : UInt16
  bytes : Bytes

/-- What the network decides: the server that is listening, and how many bytes
are there when it reads. -/
structure Arrival where
  space : Uuid
  arrived : Nat

inductive Act where
  | create (freshId : Uuid) (relayPrefix name networkSecret : Str)
  | join (freshId : Uuid) (networkName networkSecret : Str) (name : Option Str)
  | delete (space : Uuid)
  | connect (space : Uuid)
  | disconnect (space : Uuid)
  | connectPeers (space : Uuid) (peers : List PeerInfo)
  | sendMessage (space : Uuid) (content msgType : Str) (freshId : Uuid) (now : Int)
  | sendSignal (space : Uuid) (payload : Str) (target : Option Str) (freshId : Uuid) (now : Int)
  /-- The listener comes to the server of a space. -/
  | listen (space : Uuid)
  /-- The page takes the next event. -/
  | handle
  /-- Whatever else the page does: other messages in the store, handlers,
  the list of spaces, the view. -/
  | page (front : FrontEnd)

namespace Node

variable (W : Crates) (v : Node)

def space? (id : Uuid) : Option Space := v.spaces.find? (·.id = id)

/-- `ChatMessage::text` and its siblings, signed: the ids of the space and of
the sender are the local id. -/
def signed (space : Space) (msgType content : Str) (freshId : Uuid) (now : Int) : ChatMessage :=
  ({ id := freshId, spaceId := space.id, senderId := space.id, senderName := v.hostname,
     msgType, content, timestamp := now, signature := none } : ChatMessage).sign
    W.primitives W.chrono v.zone space.networkSecret

/-- The request of `client.post`. -/
def packet (addr : Str × UInt16) (m : ChatMessage) : Packet :=
  let body := W.json.print (m.toJson W.chrono v.zone)
  { ip := addr.1, port := addr.2, bytes := (W.head addr.1 addr.2 (utf8 body).length).request body }

/-- `broadcast_message` -/
def broadcastMessage (m : ChatMessage) : List Packet :=
  match v.chatClients.get m.spaceId with
  | none => []
  | some client => client.peers.entries.map fun e => v.packet W e.2 m

/-- `send_signal_to` -/
def sendSignalTo (space : Uuid) (target : Str) (m : ChatMessage) : Option (List Packet) := do
  let client ← v.chatClients.get space
  let addr ← client.peers.get target
  return [v.packet W addr m]

def sendMessage (space : Uuid) (content msgType : Str) (freshId : Uuid) (now : Int) :
    Option (List Packet) := do
  let space ← v.space? space
  let msgType := if msgType = "image".toList then "image".toList else "text".toList
  return v.broadcastMessage W (v.signed W space msgType content freshId now)

def sendSignal (space : Uuid) (payload : Str) (target : Option Str) (freshId : Uuid) (now : Int) :
    Option (List Packet) := do
  let space ← v.space? space
  let m := v.signed W space "signal".toList payload freshId now
  match target with
  | some target => v.sendSignalTo W space.id target m
  | none => return v.broadcastMessage W m

/-- The server, the client and what runs with them are dropped. -/
def disconnect (space : Uuid) : Node :=
  { v with chatServers := v.chatServers.erase space, chatClients := v.chatClients.erase space }

/-- `connect`: a new server in the place of an old one. -/
def connect (space : Uuid) : Option Node := do
  let _ ← v.space? space
  return { v with chatServers := v.chatServers.insert space [] }

/-- `discover_and_connect_peers` -/
def connectPeers (space : Space) (peers : List PeerInfo) : Node :=
  let client : ChatClient :=
    ⟨HomeTier.Node.chatPeers { space, fileBase := 0, virtualIp := v.ip } peers⟩
  { v with chatClients := v.chatClients.insert space.id client }

/-- The messages that wait at the server of a space and verify there. -/
def verified (space : Uuid) : List ChatMessage :=
  match v.chatServers.get space, v.space? space with
  | some queue, some s => queue.filter (·.verify W.primitives W.chrono v.zone s.networkSecret)
  | _, _ => []

/-- One server in the loop of the listener. -/
def listen (space : Uuid) : Option Node := do
  let _ ← v.chatServers.get space
  return { v with
    chatServers := v.chatServers.insert space []
    emitted := v.emitted ++ (v.verified W space).map fun m => ⟨space, newMessage v.mode space m⟩ }

/-- The page takes the events in order. -/
def handle : Option Node := do
  let e ← v.emitted[v.handled.length]?
  let reaction := dispatchRaw W.json v.front e.event.message
  return { v with
    front := { v.front with messages := reaction.messages }
    handled := v.handled ++ [⟨e.space, e.event.message, v.front, reaction⟩] }

def act : Act → Option (Node × List Packet)
  | .create freshId relayPrefix name networkSecret =>
    some ({ v with spaces := v.spaces ++ [createSpace freshId relayPrefix name networkSecret] }, [])
  | .join freshId networkName networkSecret name =>
    some ({ v with spaces := v.spaces ++ [joinSpace freshId networkName networkSecret name] }, [])
  | .delete space =>
    some ({ v.disconnect space with spaces := v.spaces.filter (·.id ≠ space) }, [])
  | .connect space => (v.connect space).map (·, [])
  | .disconnect space => some (v.disconnect space, [])
  | .connectPeers space peers => (v.space? space).map fun s => (v.connectPeers s peers, [])
  | .sendMessage space content msgType freshId now =>
    (v.sendMessage W space content msgType freshId now).map (v, ·)
  | .sendSignal space payload target freshId now =>
    (v.sendSignal W space payload target freshId now).map (v, ·)
  | .listen space => (v.listen W space).map (·, [])
  | .handle => (v.handle W).map (·, [])
  | .page front => some ({ v with front := front }, [])

/-- The chat server of a space reads a request. -/
def receive (p : Packet) (arrival : Arrival) : Option Node :=
  if p.ip = v.ip ∧ p.port = 18000 + portOffset arrival.space then
    (v.chatServers.get arrival.space).map fun queue =>
      let queue' := (handleConnection (W.codec v.zone) (p.bytes.take arrival.arrived) queue).2
      { v with chatServers := v.chatServers.insert arrival.space queue' }
  else none

end Node

/-! ## Runs -/

def party (W : Crates) : Party Node Act Packet Arrival where
  act v a := v.act W a
  receive v p arrival := v.receive W p arrival

/-- A node before it has a space. -/
structure Setup where
  ip : Str
  hostname : Str
  zone : Zone
  mode : Mode
  front : FrontEnd

def Setup.node (s : Setup) : Node where
  ip := s.ip
  hostname := s.hostname
  zone := s.zone
  mode := s.mode
  spaces := []
  chatServers := ∅
  chatClients := ∅
  front := s.front
  emitted := []
  handled := []

def start (setup : Nat → Setup) : Parties Node Packet where
  node n := (setup n).node
  wire := []

section Run

variable (W : Crates)

/-- Whatever was verified for a space was emitted, shown and handled there. -/
structure Landed (v : Node) : Prop where
  emitted : ∀ e ∈ v.emitted, e.event.Names e.space
  handled : ∀ h ∈ v.handled, LandsIn W.json h.space h.before h.message h.reaction

/-- The listener finds the local id in the messages that it verifies. -/
def OwnId (v : Node) : Act → Prop
  | .listen space => ∀ m ∈ v.verified W space, m.spaceId = space
  | _ => True

variable {W} {v v' : Node}

theorem listen_eq_some {space : Uuid} (h : v.listen W space = some v') :
    v'.handled = v.handled ∧
      v'.emitted = v.emitted ++
        (v.verified W space).map fun m => ⟨space, newMessage v.mode space m⟩ := by
  rcases Option.bind_eq_some_iff.1 h with ⟨-, -, h⟩
  obtain rfl := Option.some.inj h
  exact ⟨rfl, rfl⟩

theorem handle_eq_some (h : v.handle W = some v') :
    v'.emitted = v.emitted ∧ ∃ e ∈ v.emitted, v'.handled = v.handled ++
      [⟨e.space, e.event.message, v.front, dispatchRaw W.json v.front e.event.message⟩] := by
  rcases Option.bind_eq_some_iff.1 h with ⟨e, he, h⟩
  obtain rfl := Option.some.inj h
  exact ⟨rfl, e, List.mem_of_getElem? he, rfl⟩

/-- What an act does to the records: the listener adds what it verifies, the
page adds what it takes, and nothing else touches them. -/
theorem act_cases {a : Act} {out : List Packet} (h : v.act W a = some (v', out)) :
    (∃ space, a = .listen space ∧ v'.handled = v.handled ∧
      v'.emitted = v.emitted ++
        (v.verified W space).map fun m => ⟨space, newMessage v.mode space m⟩) ∨
    (a = .handle ∧ v'.emitted = v.emitted ∧ ∃ e ∈ v.emitted, v'.handled = v.handled ++
      [⟨e.space, e.event.message, v.front, dispatchRaw W.json v.front e.event.message⟩]) ∨
    (OwnId W v a ∧ v'.emitted = v.emitted ∧ v'.handled = v.handled) := by
  cases a with
  | listen space =>
    rcases Option.map_eq_some_iff.1 h with ⟨w, hw, heq⟩
    obtain ⟨rfl, -⟩ := Prod.mk.inj heq
    exact .inl ⟨space, rfl, listen_eq_some hw⟩
  | handle =>
    rcases Option.map_eq_some_iff.1 h with ⟨w, hw, heq⟩
    obtain ⟨rfl, -⟩ := Prod.mk.inj heq
    exact .inr (.inl ⟨rfl, handle_eq_some hw⟩)
  | create | join | delete | disconnect | page =>
    obtain ⟨rfl, -⟩ := Prod.mk.inj (Option.some.inj h)
    exact .inr (.inr ⟨trivial, rfl, rfl⟩)
  | connect space =>
    rcases Option.map_eq_some_iff.1 h with ⟨w, hw, heq⟩
    obtain ⟨rfl, -⟩ := Prod.mk.inj heq
    rcases Option.bind_eq_some_iff.1 hw with ⟨-, -, hw⟩
    obtain rfl := Option.some.inj hw
    exact .inr (.inr ⟨trivial, rfl, rfl⟩)
  | connectPeers | sendMessage | sendSignal =>
    rcases Option.map_eq_some_iff.1 h with ⟨w, -, heq⟩
    obtain ⟨rfl, -⟩ := Prod.mk.inj heq
    exact .inr (.inr ⟨trivial, rfl, rfl⟩)

theorem receive_eq_some {p : Packet} {arrival : Arrival} (h : v.receive W p arrival = some v') :
    v'.emitted = v.emitted ∧ v'.handled = v.handled := by
  unfold Node.receive at h
  split at h
  · rcases Option.map_eq_some_iff.1 h with ⟨queue, -, rfl⟩
    exact ⟨rfl, rfl⟩
  · cases h

theorem landed_of_same (h : Landed W v) (hemitted : v'.emitted = v.emitted)
    (hhandled : v'.handled = v.handled) : Landed W v' := by
  constructor
  · rw [hemitted]
    exact h.emitted
  · rw [hhandled]
    exact h.handled

/-- One act of a node where everything has landed so far. -/
theorem landed_act_iff {a : Act} {out : List Packet} (h : Landed W v)
    (hact : v.act W a = some (v', out)) : Landed W v' ↔ OwnId W v a := by
  rcases act_cases hact with ⟨space, rfl, hhandled, hemitted⟩ | ⟨rfl, hemitted, e, he, hhandled⟩ |
    ⟨hown, hemitted, hhandled⟩
  · -- the listener: the new events name the ids in the messages
    constructor
    · intro h' m hm
      apply names_newMessage_iff.1
      apply h'.emitted ⟨space, newMessage v.mode space m⟩
      rw [hemitted]
      exact List.mem_append_right _ (List.mem_map.2 ⟨m, hm, rfl⟩)
    · intro hown
      constructor
      · rw [hemitted]
        intro e he
        rcases List.mem_append.1 he with he | he
        · exact h.emitted e he
        · rcases List.mem_map.1 he with ⟨m, hm, rfl⟩
          exact names_newMessage_iff.2 (hown m hm)
      · rw [hhandled]
        exact h.handled
  · -- the page: it goes by the id in the event
    refine ⟨fun _ => trivial, fun _ => ?_⟩
    constructor
    · rw [hemitted]
      exact h.emitted
    · rw [hhandled]
      intro x hx
      rcases List.mem_append.1 hx with hx | hx
      · exact h.handled x hx
      · obtain rfl := List.mem_singleton.1 hx
        have hspace : e.event.message.spaceId = e.space := (h.emitted e he).1
        rw [← hspace]
        exact landsIn_dispatchRaw W.json v.front e.event.message
  · exact ⟨fun _ => hown, fun _ => landed_of_same h hemitted hhandled⟩

theorem always_landed_iff {s : Parties Node Packet} (h : ∀ n, Landed W (s.node n))
    (as : List (NetAct Act Packet Arrival)) :
    Always (party W).step (fun s => ∀ n, Landed W (s.node n)) s as ↔
      Along (party W).step (Party.ActsBy (OwnId W)) s as := by
  apply Party.always_iff_along
  · intro v a v' out hv hact
    exact landed_act_iff hv hact
  · intro v p arrival v' hv hreceive
    rcases receive_eq_some hreceive with ⟨hemitted, hhandled⟩
    exact landed_of_same hv hemitted hhandled
  · exact h

theorem landed_start (setup : Nat → Setup) (n : Nat) : Landed W ((start setup).node n) := by
  constructor
  · intro e he
    cases he
  · intro h hh
    cases hh

end Run

/-- A request that fits the buffer and is there as a whole brings the message as
it was sent, with the sender's id for the space. -/
theorem receive_packet (W : Crates) {sender v : Node} {addr : Str × UInt16} {m : ChatMessage}
    {space : Uuid} {queue : List ChatMessage} (hip : addr.1 = v.ip)
    (hport : addr.2 = 18000 + portOffset space) (hserver : v.chatServers.get space = some queue)
    (hlen : (sender.packet W addr m).bytes.length ≤ bufferSize) :
    v.receive W (sender.packet W addr m) ⟨space, bufferSize⟩ = some { v with
      chatServers := v.chatServers.insert space
        (queue ++ [{ m with timestamp := shifted m.timestamp (sender.zone m.timestamp) }]) } := by
  have hread : (W.codec v.zone).fromStr (trim (W.json.print (m.toJson W.chrono sender.zone))) =
      some { m with timestamp := shifted m.timestamp (sender.zone m.timestamp) } := by
    rw [W.json.trim_print _ (m.valid_toJson W.chrono sender.zone)]
    exact m.transported_eq W.chrono W.json sender.zone
  have hhandle := handleConnection_request (W.head addr.1 addr.2 _) hread hlen queue
  have htake : (sender.packet W addr m).bytes.take bufferSize = (sender.packet W addr m).bytes :=
    List.take_of_length_le hlen
  unfold Node.receive
  rw [if_pos ⟨hip, hport⟩, hserver, Option.map_some]
  dsimp only
  rw [htake]
  unfold Node.packet
  dsimp only
  rw [hhandle]

/-- In every run of any nodes, whatever a node verifies lands in its own space
exactly as long as its listener finds the local id in it. -/
theorem lands_iff (W : Crates) (setup : Nat → Setup) (as : List (NetAct Act Packet Arrival)) :
    Always (party W).step (fun s => ∀ n, Landed W (s.node n)) (start setup) as ↔
      Along (party W).step (Party.ActsBy (OwnId W)) (start setup) as :=
  always_landed_iff (landed_start setup) as

/-! ## Two nodes of one network -/

def deskId : Uuid := 0x40008000000000000001

/-- Another id, with the same ports. -/
def laptopId : Uuid := 0x400080000000000003e9

def laptopAddress : Str × UInt16 := ("10.144.144.3".toList, 18353)

def noteLines : List Str :=
  ["POST /message HTTP/1.1".toList, "content-type: application/json".toList,
    "accept: */*".toList, "host: 10.144.144.3:18353".toList, "content-length: 319".toList]

theorem noteLines_ne_nil : ∀ l ∈ noteLines, l ≠ [] := forall_mem_of_all (by decide)

theorem notMem_noteLines : ∀ l ∈ noteLines, '\r' ∉ l := forall_mem_of_all (by decide)

def noteHead : RequestHead where
  lines := noteLines
  lines_ne_nil := List.cons_ne_nil _ _
  line_ne_nil := noteLines_ne_nil
  notMem_line := notMem_noteLines

/-- The text that is signed, and its HMAC-SHA256 under `home-secret`. -/
def noteText : Str :=
  ("00000000-0000-4000-8000-0000000000aa00000000-0000-4000-8000-000000000001hi" ++
    "2024-05-01 08:00:00 +08:00").toList

def noteMac : Bytes :=
  (hexDecode "f5392bc85ed49af6254c4039d884d3f0192b309dbcefe1c15680bb00d04471d9".toList).getD []

def notePrimitives : Primitives where
  sha256 := fun _ => []
  hmac := fun _ data => if data = utf8 noteText then noteMac else 0 :: data

def noteCrates : Crates where
  primitives := notePrimitives
  chrono := ChatMessage.recordedChrono
  json := JsonText.compact
  head := fun _ _ _ => noteHead

def blankPage : FrontEnd where
  messages := fun _ => []
  spaces := []
  handlers := []
  activeChatSpace := none
  focused := false
  granted := false

def deskAndLaptop : Nat → Setup
  | 0 => ⟨"10.144.144.2".toList, "desk".toList, ChatMessage.shanghai, .desktop, blankPage⟩
  | _ => ⟨laptopAddress.1, "laptop".toList, ChatMessage.shanghai, .desktop, blankPage⟩

def homeSecret : Str := "home-secret".toList

/-- The desk creates the space, the laptop joins it, both connect, and the desk
sends a message. -/
def noteSent : List (NetAct Act Packet Arrival) :=
  [.act 0 (.create deskId "homeTier_".toList "home".toList homeSecret),
   .act 1 (.join laptopId "homeTier_home".toList homeSecret none),
   .act 0 (.connect deskId), .act 1 (.connect laptopId),
   .act 0 (.connectPeers deskId [⟨some laptopAddress.1, false⟩]),
   .act 0 (.sendMessage deskId "hi".toList "text".toList 0x400080000000000000aa
     ChatMessage.mayDay)]

def deskSpace : Space := createSpace deskId "homeTier_".toList "home".toList homeSecret

def note : ChatMessage :=
  ((deskAndLaptop 0).node.signed noteCrates deskSpace "text".toList "hi".toList
    0x400080000000000000aa ChatMessage.mayDay)

def laptop : Node :=
  { (deskAndLaptop 1).node with
    spaces := [joinSpace laptopId "homeTier_home".toList homeSecret none]
    chatServers := AList.insert laptopId [] ∅ }

theorem run_noteSent : ∃ t, run (party noteCrates).step (start deskAndLaptop) noteSent = some t ∧
    t.node 1 = laptop ∧
    t.wire = [(deskAndLaptop 0).node.packet noteCrates laptopAddress note] := by
  refine ⟨_, rfl, ?_, ?_⟩
  · rfl
  · rfl

theorem note_fits : ((deskAndLaptop 0).node.packet noteCrates laptopAddress note).bytes.length ≤
    bufferSize := by decide +kernel

/-- The laptop with the message at its server. -/
def laptopWithNote : Node := { laptop with chatServers := AList.insert laptopId [note] ∅ }

theorem note_verified : laptopWithNote.verified noteCrates laptopId = [note] := by
  have hverify : note.verify notePrimitives ChatMessage.recordedChrono ChatMessage.shanghai
      homeSecret = true := ChatMessage.verify_sign _ _ _ _ _
  have hqueue : laptopWithNote.chatServers.get laptopId = some [note] :=
    Map.get_insert_self _ _ _
  have hspace : laptopWithNote.space? laptopId =
      some (joinSpace laptopId "homeTier_home".toList homeSecret none) := rfl
  unfold Node.verified
  simp only [hqueue, hspace]
  exact List.filter_cons_of_pos hverify

/-- The desk's message is verified by the laptop and lands under the desk's id. -/
theorem note_lands_elsewhere : ¬ ∀ (W : Crates) (setup : Nat → Setup)
    (as : List (NetAct Act Packet Arrival)),
    Always (party W).step (fun s => ∀ n, Landed W (s.node n)) (start setup) as := by
  intro hall
  have halong := (always_landed_iff (landed_start deskAndLaptop) _).1 (hall noteCrates deskAndLaptop
    (noteSent ++ [.deliver 1 0 ⟨laptopId, bufferSize⟩] ++ [.act 1 (.listen laptopId)]))
  rcases run_noteSent with ⟨t, hrun, hlaptop, hwire⟩
  -- the message reaches the laptop as it was sent
  have hshift : shifted note.timestamp ((deskAndLaptop 0).node.zone note.timestamp) =
      note.timestamp := shifted_eq_self.2 rfl
  have hserver : laptop.chatServers.get laptopId = some [] := Map.get_insert_self _ _ _
  have hreceive : laptop.receive noteCrates ((deskAndLaptop 0).node.packet noteCrates
      laptopAddress note) ⟨laptopId, bufferSize⟩ = some laptopWithNote := by
    rw [receive_packet noteCrates rfl rfl hserver note_fits, hshift]
    rfl
  have hdeliver : (party noteCrates).step t (.deliver 1 0 ⟨laptopId, bufferSize⟩) =
      some ⟨Function.update t.node 1 laptopWithNote, t.wire.eraseIdx 0⟩ := by
    apply Party.step_deliver
    · rw [hwire]
      rfl
    · rw [hlaptop]
      exact hreceive
  have hnode : Function.update t.node 1 laptopWithNote 1 = laptopWithNote :=
    Function.update_self _ _ _
  -- its listener is next
  have hact : ∃ v', (party noteCrates).act laptopWithNote (.listen laptopId) = some (v', []) :=
    ⟨_, rfl⟩
  rcases hact with ⟨v', hact⟩
  rw [← hnode] at hact
  have hown : OwnId noteCrates laptopWithNote (.listen laptopId) := by
    have hstep := halong.of_append (run_concat hrun hdeliver) (Party.step_act hact)
    simpa only [Party.ActsBy, Function.update_self] using hstep
  have hid : note.spaceId = laptopId := by
    apply hown note
    rw [note_verified]
    exact List.mem_cons_self
  exact absurd hid (by decide)

end HomeTier.Realtime
