import HomeTier.Chat.Server

/-! # Chat client

`broadcast` and `send_to` of `src-tauri/src/chat/client.rs` post a message to
the chat servers of the peers. The client takes any answer for success. What
the network does with each request is given: the request is split into segments
in some way, and some number of them is there when the server reads.

Whoever answered 200, or is reported without an error, has received the message
exactly when at each peer nothing had arrived or the whole request had, in at
most 8192 bytes (`acknowledged_iff`).
-/

namespace HomeTier

open Lib

/-- A way to split what is sent into segments. -/
structure Segmentation where
  split : Bytes → List Bytes
  joins : ∀ b, (split b).flatten = b

/-- The bytes of the first `n` segments. -/
def Segmentation.arrived (seg : Segmentation) (n : Nat) (b : Bytes) : Bytes :=
  ((seg.split b).take n).flatten

theorem Segmentation.arrived_prefix (seg : Segmentation) (n : Nat) (b : Bytes) :
    seg.arrived n b <+: b := by
  refine ⟨((seg.split b).drop n).flatten, ?_⟩
  rw [Segmentation.arrived, ← List.flatten_append, List.take_append_drop, seg.joins]

/-- What becomes of one request. -/
inductive Exchange where
  /-- The server never sees it. -/
  | unreachable (error : Str)
  /-- `n` segments are there when the server reads; its answer, if it gives one,
  may still be lost. -/
  | served (seg : Segmentation) (n : Nat) (lost : Option Str)

/-- The code around the client: `serde_json`, the HTTP client and the network. -/
structure ChatNet where
  codec : ChatCodec
  /-- Head of a request to a host and port with a body of some length. -/
  head : Str → UInt16 → Nat → RequestHead
  /-- By virtual IP. -/
  exchange : Str → Exchange

structure ChatClient where
  /-- virtual_ip -> (ip, port) -/
  peers : Map Str (Str × UInt16)

namespace ChatNet

variable (net : ChatNet)

/-- The request for a peer. -/
def request (addr : Str × UInt16) (body : Str) : Bytes :=
  (net.head addr.1 addr.2 (utf8 body).length).request body

/-- What the server does with a request: its answer and its queue. -/
def serve (vip : Str) (addr : Str × UInt16) (body : Str) (queue : List ChatMessage) :
    Option Str × List ChatMessage :=
  match net.exchange vip with
  | .unreachable _ => (none, queue)
  | .served seg n _ => handleConnection net.codec (seg.arrived n (net.request addr body)) queue

/-- `client.post(..).send()`: any answer is a success. -/
def post (vip : Str) (addr : Str × UInt16) (body : Str) (queue : List ChatMessage) :
    Except Str Unit :=
  match net.exchange vip with
  | .unreachable e => .error e
  | .served _ _ lost =>
    match (net.serve vip addr body queue).1, lost with
    | none, _ => .error "connection closed before message completed".toList
    | some _, some e => .error e
    | some _, none => .ok ()

/-- One round of the loop of `broadcast`: the errors and the queues of the peers. -/
def broadcastTo (m : ChatMessage)
    (acc : List (Str × Str) × (Str → List ChatMessage)) (peer : Str × Str × UInt16) :
    List (Str × Str) × (Str → List ChatMessage) :=
  match net.codec.toString m with
  | .error e => (acc.1 ++ [(peer.1, e)], acc.2)
  | .ok body =>
    let queues := Function.update acc.2 peer.1 (net.serve peer.1 peer.2 body (acc.2 peer.1)).2
    match net.post peer.1 peer.2 body (acc.2 peer.1) with
    | .ok () => (acc.1, queues)
    | .error e => (acc.1 ++ [(peer.1, e)], queues)

/-- `broadcast`, with the queues of the peers' servers. -/
def broadcast (client : ChatClient) (m : ChatMessage) (queues : Str → List ChatMessage) :
    List (Str × Str) × (Str → List ChatMessage) :=
  (client.peers.entries.map fun e => (e.1, e.2)).foldl (net.broadcastTo m) ([], queues)

/-- `send_to`, with the queues of the peers' servers. -/
def sendTo (client : ChatClient) (vip : Str) (m : ChatMessage)
    (queues : Str → List ChatMessage) : Except Str Unit × (Str → List ChatMessage) :=
  match client.peers.get vip with
  | none => (.error ("Peer ".toList ++ vip ++ " not found".toList), queues)
  | some addr =>
    match net.codec.toString m with
    | .error e => (.error e, queues)
    | .ok body =>
      ((net.post vip addr body (queues vip)).mapError ("Send error: ".toList ++ ·),
        Function.update queues vip (net.serve vip addr body (queues vip)).2)

/-! ## What the client learns -/

/-- Who answered 200 has enqueued the message, once and as it was sent; and so
has who is reported without an error. -/
structure Acknowledged (client : ChatClient) (m : ChatMessage) (body : Str)
    (queues : Str → List ChatMessage) : Prop where
  answered : ∀ vip addr, client.peers.get vip = some addr →
    (net.serve vip addr body (queues vip)).1 = some okResponse →
    (net.serve vip addr body (queues vip)).2 = queues vip ++ [m]
  broadcast : ∀ vip, vip ∈ client.peers → vip ∉ (net.broadcast client m queues).1.map (·.1) →
    (net.broadcast client m queues).2 vip = queues vip ++ [m]
  sendTo : ∀ vip, (net.sendTo client vip m queues).1 = .ok () →
    (net.sendTo client vip m queues).2 vip = queues vip ++ [m]

/-- At the peer's only read nothing has arrived, or all of a request that fits
the buffer. -/
def ReadWhole (vip : Str) (addr : Str × UInt16) (body : Str) : Prop :=
  match net.exchange vip with
  | .unreachable _ => True
  | .served seg n _ =>
    seg.arrived n (net.request addr body) = [] ∨
      (seg.arrived n (net.request addr body) = net.request addr body ∧
        (net.request addr body).length ≤ bufferSize)

variable {net} {client : ChatClient} {m : ChatMessage} {body : Str}

theorem serve_served {vip : Str} {seg : Segmentation} {n : Nat} {lost : Option Str}
    (hex : net.exchange vip = .served seg n lost) (addr : Str × UInt16) (body : Str)
    (queue : List ChatMessage) : net.serve vip addr body queue =
      handleConnection net.codec (seg.arrived n (net.request addr body)) queue := by
  simp [serve, hex]

theorem serve_unreachable {vip : Str} {e : Str} (hex : net.exchange vip = .unreachable e)
    (addr : Str × UInt16) (body : Str) (queue : List ChatMessage) :
    net.serve vip addr body queue = (none, queue) := by
  simp [serve, hex]

theorem answered_of_post {vip : Str} {addr : Str × UInt16} {queue : List ChatMessage}
    (h : net.post vip addr body queue = .ok ()) :
    (net.serve vip addr body queue).1 = some okResponse := by
  unfold post at h
  cases hex : net.exchange vip with
  | unreachable e => simp [hex] at h
  | served seg n lost =>
    simp only [hex] at h
    split at h
    · cases h
    · cases h
    · rename_i answer hanswer
      rw [serve_served hex] at hanswer ⊢
      -- the server has one answer
      rw [handleConnection_fst (ne_nil_of_answered hanswer)]

theorem serve_of_readWhole (h : net.codec.Reads m body) {vip : Str} {addr : Str × UInt16}
    (hread : net.ReadWhole vip addr body) (queue : List ChatMessage)
    (hanswer : (net.serve vip addr body queue).1 = some okResponse) :
    (net.serve vip addr body queue).2 = queue ++ [m] := by
  unfold ReadWhole at hread
  cases hex : net.exchange vip with
  | unreachable e =>
    rw [serve_unreachable hex] at hanswer
    cases hanswer
  | served seg n lost =>
    rw [serve_served hex] at hanswer ⊢
    simp only [hex] at hread
    rcases hread with hnil | ⟨hall, hlen⟩
    · rw [hnil] at hanswer
      cases hanswer
    · rw [hall, request, handleConnection_whole h _ hlen]

/-- A read of a part of the request is answered, and the message is lost. -/
theorem serve_of_not_readWhole (h : net.codec.Reads m body) {vip : Str} {addr : Str × UInt16}
    (hread : ¬ net.ReadWhole vip addr body) (queue : List ChatMessage) :
    net.serve vip addr body queue = (some okResponse, queue) := by
  unfold ReadWhole at hread
  cases hex : net.exchange vip with
  | unreachable e => simp [hex] at hread
  | served seg n lost =>
    simp only [hex, not_or] at hread
    have hpre : seg.arrived n (net.request addr body) <+: net.request addr body :=
      seg.arrived_prefix n _
    have htake : (seg.arrived n (net.request addr body)).take bufferSize <+:
        net.request addr body := (List.take_prefix _ _).trans hpre
    have hcut : (seg.arrived n (net.request addr body)).take bufferSize ≠
        net.request addr body := by
      intro heq
      have hlen := congrArg List.length heq
      rw [List.length_take] at hlen
      have hle := hpre.length_le
      exact hread.2 ⟨hpre.eq_of_length_le (by omega), by omega⟩
    rw [serve_served hex]
    exact handleConnection_cut h _ hread.1 htake hcut queue

/-! ## The loop of `broadcast` -/

theorem broadcastTo_eq (hbody : net.codec.toString m = .ok body)
    (acc : List (Str × Str) × (Str → List ChatMessage)) (peer : Str × Str × UInt16) :
    (net.broadcastTo m acc peer).2 =
      Function.update acc.2 peer.1 (net.serve peer.1 peer.2 body (acc.2 peer.1)).2 := by
  simp only [broadcastTo, hbody]
  split <;> rfl

theorem mem_errors_broadcastTo (hbody : net.codec.toString m = .ok body)
    {acc : List (Str × Str) × (Str → List ChatMessage)} {peer : Str × Str × UInt16} {vip : Str}
    (h : vip ∈ acc.1.map (·.1) ∨
      (vip = peer.1 ∧ net.post peer.1 peer.2 body (acc.2 peer.1) ≠ .ok ())) :
    vip ∈ (net.broadcastTo m acc peer).1.map (·.1) := by
  simp only [broadcastTo, hbody]
  split
  · rename_i hok
    rcases h with h | ⟨-, hne⟩
    · exact h
    · exact absurd hok hne
  · rw [List.map_append]
    rcases h with h | ⟨rfl, -⟩
    · exact List.mem_append_left _ h
    · exact List.mem_append_right _ List.mem_cons_self

/-- What the loop does to peer after peer: each server serves its own request
from its own queue, and who is without an error was posted to. -/
theorem foldl_broadcastTo (hbody : net.codec.toString m = .ok body)
    {peers : List (Str × Str × UInt16)} (hnodup : (peers.map (·.1)).Nodup)
    (acc : List (Str × Str) × (Str → List ChatMessage)) :
    (∀ vip ∉ peers.map (·.1), (peers.foldl (net.broadcastTo m) acc).2 vip = acc.2 vip) ∧
    (∀ vip ∈ acc.1.map (·.1), vip ∈ (peers.foldl (net.broadcastTo m) acc).1.map (·.1)) ∧
    (∀ vip addr, (vip, addr) ∈ peers →
      (peers.foldl (net.broadcastTo m) acc).2 vip =
        (net.serve vip addr body (acc.2 vip)).2 ∧
      (vip ∉ (peers.foldl (net.broadcastTo m) acc).1.map (·.1) →
        net.post vip addr body (acc.2 vip) = .ok ())) := by
  induction peers generalizing acc with
  | nil => simp
  | cons peer peers ih =>
    rw [List.map_cons, List.nodup_cons] at hnodup
    have hqueue := broadcastTo_eq hbody acc peer
    rcases ih hnodup.2 (net.broadcastTo m acc peer) with ⟨hother, herrors, hpeers⟩
    rw [List.foldl_cons]
    refine ⟨?_, ?_, ?_⟩
    · intro vip hvip
      rw [List.map_cons, List.mem_cons, not_or] at hvip
      rw [hother vip hvip.2, hqueue, Function.update_of_ne hvip.1]
    · intro vip hvip
      exact herrors vip (mem_errors_broadcastTo hbody (Or.inl hvip))
    · intro vip addr hmem
      rcases List.mem_cons.1 hmem with rfl | hmem
      · -- the peer of this round, which no later round touches
        refine ⟨?_, ?_⟩
        · rw [hother vip hnodup.1, hqueue, Function.update_self]
        · intro hno
          by_contra hpost
          exact hno (herrors vip (mem_errors_broadcastTo hbody (Or.inr ⟨rfl, hpost⟩)))
      · have hne : vip ≠ peer.1 := by
          rintro rfl
          exact hnodup.1 (List.mem_map.2 ⟨_, hmem, rfl⟩)
        have hsame : (net.broadcastTo m acc peer).2 vip = acc.2 vip := by
          rw [hqueue, Function.update_of_ne hne]
        rw [← hsame]
        exact hpeers vip addr hmem

theorem broadcast_spec (hbody : net.codec.toString m = .ok body)
    (queues : Str → List ChatMessage) {vip : Str} {addr : Str × UInt16}
    (hpeer : client.peers.get vip = some addr) :
    (net.broadcast client m queues).2 vip = (net.serve vip addr body (queues vip)).2 ∧
      (vip ∉ (net.broadcast client m queues).1.map (·.1) →
        net.post vip addr body (queues vip) = .ok ()) := by
  have hkeys : ((client.peers.entries.map fun e => (e.1, e.2)).map (·.1)).Nodup := by
    rw [List.map_map]
    exact client.peers.nodupKeys
  have hmem : (vip, addr) ∈ client.peers.entries.map fun e => (e.1, e.2) := by
    have hentry := AList.mem_lookup_iff.1 hpeer
    exact List.mem_map.2 ⟨_, hentry, rfl⟩
  exact (foldl_broadcastTo hbody hkeys ([], queues)).2.2 vip addr hmem

/-! ## Acknowledged messages -/

/-- Answers and reports can be trusted exactly when every peer that has read
anything of the request has read all of it at once. -/
theorem acknowledged_iff (h : net.codec.Reads m body) (queues : Str → List ChatMessage) :
    net.Acknowledged client m body queues ↔
      ∀ vip addr, client.peers.get vip = some addr → net.ReadWhole vip addr body := by
  constructor
  · intro hack vip addr hpeer
    by_contra hread
    have hserve := serve_of_not_readWhole h hread (queues vip)
    have hgot := hack.answered vip addr hpeer (by rw [hserve])
    rw [hserve] at hgot
    simp at hgot
  · intro hread
    have hpost : ∀ vip addr, client.peers.get vip = some addr →
        net.post vip addr body (queues vip) = .ok () →
        (net.serve vip addr body (queues vip)).2 = queues vip ++ [m] := by
      intro vip addr hpeer hpost
      exact serve_of_readWhole h (hread vip addr hpeer) _ (answered_of_post hpost)
    constructor
    · intro vip addr hpeer hanswer
      exact serve_of_readWhole h (hread vip addr hpeer) _ hanswer
    · intro vip hvip hno
      rcases Option.isSome_iff_exists.1 (AList.lookup_isSome.2 hvip) with ⟨addr, hpeer⟩
      rcases broadcast_spec h.written queues hpeer with ⟨hqueue, hok⟩
      rw [hqueue]
      exact hpost vip addr hpeer (hok hno)
    · intro vip hok
      unfold sendTo at hok ⊢
      cases hpeer : client.peers.get vip with
      | none => simp [hpeer] at hok
      | some addr =>
        simp only [hpeer, h.written] at hok ⊢
        rw [Function.update_self]
        apply hpost vip addr hpeer
        cases hres : net.post vip addr body (queues vip) with
        | error e => simp [hres, Except.mapError] at hok
        | ok u => rfl

/-! ## One message -/

def hello : ChatMessage where
  id := 1
  spaceId := 2
  senderId := 3
  senderName := "A".toList
  msgType := "text".toList
  content := "hi".toList
  timestamp := 0
  signature := none

def helloFields : Str :=
  "\"id\":\"00000000-0000-0000-0000-000000000001\",".toList ++
  "\"space_id\":\"00000000-0000-0000-0000-000000000002\",".toList ++
  "\"sender_id\":\"00000000-0000-0000-0000-000000000003\",".toList ++
  "\"sender_name\":\"A\",\"msg_type\":\"text\",\"content\":\"hi\",".toList ++
  "\"timestamp\":\"1970-01-01T00:00:00+00:00\",\"signature\":null".toList

def helloText : Str := '\x7b' :: (helloFields ++ ['\x7d'])

/-- `serde_json` as far as this message goes. -/
def helloCodec : ChatCodec where
  toString m := if m = hello then .ok helloText else .error []
  fromStr t := if t = helloText then some hello else none

theorem hello_reads : helloCodec.Reads hello helloText where
  written := by simp [helloCodec]
  object := ⟨_, rfl⟩
  read := by simp [helloCodec]
  cut := by
    intro t _ hne
    have hlast : t ++ [replacementChar] ≠ helloText := by
      intro heq
      have h := congrArg List.getLast? heq
      rw [List.getLast?_concat, helloText, ← List.cons_append, List.getLast?_concat] at h
      exact absurd h (by decide)
    simp [helloCodec, hne, hlast]

def helloLines : List Str :=
  ["POST /message HTTP/1.1".toList, "content-type: application/json".toList,
    "host: 10.0.0.2:18000".toList, "content-length: 254".toList]

theorem helloLines_ne_nil : ∀ l ∈ helloLines, l ≠ [] := forall_mem_of_all (by decide)

theorem notMem_helloLines : ∀ l ∈ helloLines, '\r' ∉ l := forall_mem_of_all (by decide)

def helloHead : RequestHead where
  lines := helloLines
  lines_ne_nil := List.cons_ne_nil _ _
  line_ne_nil := helloLines_ne_nil
  notMem_line := notMem_helloLines

def helloClient : ChatClient where
  peers := AList.insert "10.0.0.2".toList ("10.0.0.2".toList, 18000) ∅

/-- All in one segment, or cut in two. -/
def cutAfter (k : Nat) : Segmentation where
  split b := [b.take k, b.drop k]
  joins b := by simp

/-- A network on which every request is cut after `k` bytes, and the server
reads when the first segment is there. -/
def helloNet (k : Nat) : ChatNet where
  codec := helloCodec
  head _ _ _ := helloHead
  exchange _ := .served (cutAfter k) 1 none

theorem helloNet_arrived (k : Nat) (b : Bytes) : (cutAfter k).arrived 1 b = b.take k := by
  simp [Segmentation.arrived, cutAfter]

/-- The whole request in the first segment. -/
theorem acknowledged_iff_hello :
    (helloNet 8192).codec.Reads hello helloText ∧
      (helloNet 8192).Acknowledged helloClient hello helloText (fun _ => []) := by
  have hlen : (helloHead.request helloText).length ≤ bufferSize := by decide +kernel
  refine ⟨hello_reads, (acknowledged_iff hello_reads _).2 ?_⟩
  intro vip addr _
  right
  exact ⟨by rw [helloNet_arrived]; exact List.take_of_length_le hlen, hlen⟩

/-- The first segment ends where the body starts: the server answers 200 and
the message is nowhere. -/
theorem head_alone_is_answered :
    ¬ (helloNet (utf8 helloHead.text).length).Acknowledged helloClient hello helloText
      (fun _ => []) := by
  intro hack
  have hpeer : helloClient.peers.get "10.0.0.2".toList = some ("10.0.0.2".toList, 18000) :=
    Map.get_insert_self _ _ _
  have harrived : (cutAfter (utf8 helloHead.text).length).arrived 1
      ((helloNet (utf8 helloHead.text).length).request ("10.0.0.2".toList, 18000) helloText) =
      utf8 helloHead.text := by
    rw [helloNet_arrived]
    show (utf8 (helloHead.text ++ helloText)).take _ = _
    rw [utf8_append]
    exact List.take_left
  have hread : ¬ (helloNet (utf8 helloHead.text).length).ReadWhole "10.0.0.2".toList
      ("10.0.0.2".toList, 18000) helloText := by
    show ¬ (_ ∨ _ ∧ _)
    rw [harrived]
    rintro (hnil | ⟨hall, -⟩)
    · exact absurd hnil (by decide)
    · exact absurd (utf8_injective hall) (by decide)
  have hserve := serve_of_not_readWhole hello_reads hread []
  have hgot := hack.answered _ _ hpeer (by rw [hserve])
  rw [hserve] at hgot
  cases hgot

end ChatNet

end HomeTier
