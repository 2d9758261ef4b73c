import HomeTier.Lib.Trace
import HomeTier.Chat.Client
import HomeTier.Chat.Store

/-! # Delivery status

`send_message` of `src-tauri/src/commands/chat.rs` and the handler of
`server/routes.rs` store the message as `sent`, post it to the peers of the space and
then ask for the number of peers a second time. The status is worked out from that
number and the number of sends that failed. While the peers are asked, the list of the
clients is locked; before and after, it may change. Any number of calls run at a time.

A status is truthful exactly if the second number is right for what happened: none
where no peer was asked, more than the failed sends where a peer acknowledged, and no
more than these (but some) where none did (`delivery_truthful_iff`).
-/

namespace HomeTier.Delivery

open Lib ChatStore

/-- What comes of one `send().await`. -/
inductive Reply where
  | failed (error : Str)
  | answered (status : Nat)
deriving DecidableEq

/-- The peer has taken the message. -/
def Reply.Acknowledges : Reply → Prop
  | .failed _ => False
  | .answered status => 200 ≤ status ∧ status < 300

/-- `broadcast` takes any answer for a success. -/
def Reply.error? : Reply → Option Str
  | .failed error => some error
  | .answered _ => none

/-- How far a call is. -/
inductive Phase where
  /-- The row is in. -/
  | inserted
  /-- In the loop of `broadcast`, with the read lock. -/
  | broadcasting (rest : List Str) (errors : List (Str × Str))
  | broadcast (errors : List (Str × Str))
  | counted (peerCount : Nat) (status : MessageStatus)
deriving DecidableEq

/-- A call for a message; `asked` are the peers that the lock was taken with, and
`replies` what has come back. -/
structure Call where
  space : Uuid
  phase : Phase
  asked : List Str
  replies : List (Str × Reply)

/-- A call that has returned. -/
structure Receipt where
  id : Uuid
  asked : List Str
  replies : List (Str × Reply)
  peerCount : Nat
  /-- `update_message_status` went through. -/
  updated : Bool
  status : MessageStatus

structure State where
  /-- `chat_clients` -/
  clients : Uuid → Option ChatClient
  /-- Calls that hold the read lock. -/
  readers : Nat
  /-- The column `status` of the table `messages`. -/
  rows : Uuid → Option MessageStatus
  calls : Uuid → Option Call
  receipts : List Receipt

inductive Act where
  /-- The first part of a call, of a browser or not; the id is the one drawn. -/
  | insert (web : Bool) (content : Str) (id space : Uuid) (inserted : Except Str Unit)
  | lock (id : Uuid)
  | reply (id : Uuid) (reply : Reply)
  | unlock (id : Uuid)
  | count (id : Uuid)
  | update (id : Uuid) (updated : Except Str Unit)
  /-- `discover_and_connect_peers` -/
  | updatePeers (space : Uuid) (peers : Map Str (Str × UInt16))
  /-- `disconnect` -/
  | removeClient (space : Uuid)

def virtualIps (client : Option ChatClient) : List Str :=
  (client.map fun c => c.peers.entries.map (·.1)).getD []

/-- `chat_peer_count` -/
def chatPeerCount (s : State) (space : Uuid) : Nat := (virtualIps (s.clients space)).length

def statusOf (errors peerCount : Nat) : MessageStatus :=
  if peerCount = 0 then .sent
  else if errors < peerCount then .delivered
  else .failed

def State.setCall (s : State) (id : Uuid) (call : Option Call) : State :=
  { s with calls := Function.update s.calls id call }

def step (s : State) : Act → Option State
  | .insert web content id space inserted =>
    -- what is refused leaves nothing behind
    if web && content.isEmpty then some s
    else if s.rows id ≠ none then some s
    else
      match inserted with
      | .error _ => some s
      | .ok () =>
        some { s with
          rows := Function.update s.rows id (some .sent)
          calls := Function.update s.calls id (some ⟨space, .inserted, [], []⟩) }
  | .lock id =>
    match s.calls id with
    | some ⟨space, .inserted, _, _⟩ =>
      let peers := virtualIps (s.clients space)
      some { s.setCall id (some ⟨space, .broadcasting peers [], peers, []⟩) with
        readers := s.readers + 1 }
    | _ => none
  | .reply id reply =>
    match s.calls id with
    | some ⟨space, .broadcasting (vip :: rest) errors, asked, replies⟩ =>
      let errors := errors ++ (reply.error?.map (vip, ·)).toList
      some (s.setCall id
        (some ⟨space, .broadcasting rest errors, asked, replies ++ [(vip, reply)]⟩))
    | _ => none
  | .unlock id =>
    match s.calls id with
    | some ⟨space, .broadcasting [] errors, asked, replies⟩ =>
      some { s.setCall id (some ⟨space, .broadcast errors, asked, replies⟩) with
        readers := s.readers - 1 }
    | _ => none
  | .count id =>
    match s.calls id with
    | some ⟨space, .broadcast errors, asked, replies⟩ =>
      let peerCount := chatPeerCount s space
      let status := statusOf errors.length peerCount
      some (s.setCall id (some ⟨space, .counted peerCount status, asked, replies⟩))
    | _ => none
  | .update id updated =>
    match s.calls id with
    | some ⟨_, .counted peerCount status, asked, replies⟩ =>
      some { s.setCall id none with
        rows := if updated.isOk then Function.update s.rows id (some status) else s.rows
        receipts := s.receipts ++ [⟨id, asked, replies, peerCount, updated.isOk, status⟩] }
    | _ => none
  | .updatePeers space peers =>
    if s.readers = 0 then some { s with clients := Function.update s.clients space (some ⟨peers⟩) }
    else none
  | .removeClient space =>
    if s.readers = 0 then some { s with clients := Function.update s.clients space none } else none

/-- No call, no message. -/
def start (clients : Uuid → Option ChatClient) : State where
  clients := clients
  readers := 0
  rows := fun _ => none
  calls := fun _ => none
  receipts := []

/-! ## What a status says -/

def Acknowledged (replies : List (Str × Reply)) : Prop := ∃ r ∈ replies, r.2.Acknowledges

/-- The status tells whether the message was acknowledged. -/
structure Tells (status : MessageStatus) (asked : List Str) (replies : List (Str × Reply)) :
    Prop where
  delivered : status = .delivered ↔ Acknowledged replies
  failed : status = .failed ↔ asked ≠ [] ∧ ¬ Acknowledged replies

/-- The status is truthful, as it is returned and as it is stored. -/
structure Receipt.Truthful (r : Receipt) (s : State) : Prop where
  returned : Tells r.status r.asked r.replies
  stored : ∃ status, s.rows r.id = some status ∧ Tells status r.asked r.replies

/-- The sends that failed. -/
def failures (replies : List (Str × Reply)) : Nat :=
  (replies.filterMap fun r => r.2.error?).length

/-- The second number fits what happened, and the status is stored where there is one
to store. -/
structure Receipt.Counted (r : Receipt) : Prop where
  nobody : r.asked = [] → r.peerCount = 0
  acknowledged : Acknowledged r.replies → failures r.replies < r.peerCount
  unanswered : r.asked ≠ [] → ¬ Acknowledged r.replies →
    0 < r.peerCount ∧ r.peerCount ≤ failures r.replies
  updated : r.asked ≠ [] → r.updated = true

/-! ## Invariants -/

/-- What is known of a call in its phase. -/
def Call.Fits (c : Call) : Prop :=
  match c.phase with
  | .inserted => c.replies = [] ∧ c.asked = []
  | .broadcasting rest errors =>
    c.replies.map (·.1) ++ rest = c.asked ∧ errors.length = failures c.replies
  | .broadcast errors => c.replies.map (·.1) = c.asked ∧ errors.length = failures c.replies
  | .counted peerCount status =>
    c.replies.map (·.1) = c.asked ∧ status = statusOf (failures c.replies) peerCount

/-- Everyone was asked, and the status is the one worked out. -/
structure Receipt.Fits (r : Receipt) : Prop where
  all : r.replies.map (·.1) = r.asked
  status : r.status = statusOf (failures r.replies) r.peerCount

/-- Calls fit, and the row of a message is the call's or the receipt's. -/
structure Inv (s : State) : Prop where
  calls : ∀ id c, s.calls id = some c → c.Fits ∧ s.rows id = some .sent
  receipts : ∀ r ∈ s.receipts, r.Fits ∧ s.calls r.id = none ∧
    s.rows r.id = some (if r.updated then r.status else .sent)

theorem inv_start (clients : Uuid → Option ChatClient) : Inv (start clients) where
  calls := fun _ _ h => nomatch h
  receipts := fun _ h => nomatch h

/-- A call goes on to its next phase. -/
theorem Inv.setCall {s s' : State} {id : Uuid} {c : Call} (h : Inv s) (hold : s.calls id ≠ none)
    (hcalls : s'.calls = Function.update s.calls id (some c)) (hrows : s'.rows = s.rows)
    (hreceipts : s'.receipts = s.receipts) (hfits : c.Fits) : Inv s' := by
  constructor
  · intro id' c' hc'
    rw [hcalls] at hc'
    rw [hrows]
    by_cases hid : id' = id
    · subst hid
      obtain rfl : c = c' := by simpa using hc'
      rcases Option.ne_none_iff_exists'.1 hold with ⟨c₀, hc₀⟩
      exact ⟨hfits, (h.calls id' c₀ hc₀).2⟩
    · rw [Function.update_of_ne hid] at hc'
      exact h.calls id' c' hc'
  · intro r hr
    rw [hreceipts] at hr
    rcases h.receipts r hr with ⟨hr', hnone, hrow⟩
    have hid : r.id ≠ id := by
      rintro rfl
      exact hold hnone
    rw [hcalls, hrows, Function.update_of_ne hid]
    exact ⟨hr', hnone, hrow⟩

theorem inv_step {s s' : State} {a : Act} (h : Inv s) (hs : step s a = some s') : Inv s' := by
  cases a with
  | insert web content id space inserted =>
    simp only [step] at hs
    split at hs
    · obtain rfl := Option.some.inj hs
      exact h
    · split at hs
      · obtain rfl := Option.some.inj hs
        exact h
      · next hnew =>
        cases inserted with
        | error e =>
          obtain rfl := Option.some.inj hs
          exact h
        | ok _ =>
          obtain rfl := Option.some.inj hs
          have hrow : s.rows id = none := not_not.1 hnew
          constructor
          · intro id' c hc
            by_cases hid : id' = id
            · subst hid
              obtain rfl : _ = c := by simpa using hc
              exact ⟨⟨rfl, rfl⟩, by simp⟩
            · simp only [Function.update_of_ne hid] at hc ⊢
              exact h.calls id' c hc
          · intro r hr
            rcases h.receipts r hr with ⟨hr', hnone, hstored⟩
            -- a receipt has a row, so its id is not drawn again
            have hid : r.id ≠ id := by
              rintro rfl
              exact nomatch hrow.symm.trans hstored
            simp only [Function.update_of_ne hid]
            exact ⟨hr', hnone, hstored⟩
  | lock id =>
    simp only [step] at hs
    split at hs
    · next hcall =>
      obtain rfl := Option.some.inj hs
      exact h.setCall (by simp [hcall]) rfl rfl rfl ⟨rfl, rfl⟩
    · cases hs
  | reply id reply =>
    simp only [step] at hs
    split at hs
    · next hcall =>
      obtain rfl := Option.some.inj hs
      rcases (h.calls id _ hcall).1 with ⟨hasked, herrors⟩
      refine h.setCall (by simp [hcall]) rfl rfl rfl ⟨?_, ?_⟩
      · simpa using hasked
      · simp only [failures, List.filterMap_append, List.length_append] at herrors ⊢
        rw [herrors]
        cases reply <;> rfl
    · cases hs
  | unlock id =>
    simp only [step] at hs
    split at hs
    · next hcall =>
      obtain rfl := Option.some.inj hs
      rcases (h.calls id _ hcall).1 with ⟨hasked, herrors⟩
      exact h.setCall (by simp [hcall]) rfl rfl rfl ⟨by simpa using hasked, herrors⟩
    · cases hs
  | count id =>
    simp only [step] at hs
    split at hs
    · next hcall =>
      obtain rfl := Option.some.inj hs
      rcases (h.calls id _ hcall).1 with ⟨hasked, herrors⟩
      exact h.setCall (by simp [hcall]) rfl rfl rfl ⟨hasked, by rw [herrors]⟩
    · cases hs
  | update id updated =>
    simp only [step] at hs
    split at hs
    · next hcall =>
      obtain rfl := Option.some.inj hs
      rcases h.calls id _ hcall with ⟨⟨hasked, hstatus⟩, hrow⟩
      have hrows : ∀ id' ≠ id, ∀ status,
          (if updated.isOk then Function.update s.rows id (some status) else s.rows) id' =
            s.rows id' := by
        intro id' hid status
        split
        · exact Function.update_of_ne hid _ _
        · rfl
      constructor
      · intro id' c hc
        by_cases hid : id' = id
        · subst hid
          simp [State.setCall] at hc
        · simp only [State.setCall, Function.update_of_ne hid] at hc
          exact (h.calls id' c hc).imp_right (hrows id' hid _).trans
      · intro r hr
        rcases List.mem_append.1 hr with hr | hr
        · rcases h.receipts r hr with ⟨hr', hnone, hstored⟩
          have hid : r.id ≠ id := by
            rintro rfl
            exact nomatch hnone.symm.trans hcall
          refine ⟨hr', ?_, (hrows r.id hid _).trans hstored⟩
          simpa [State.setCall, Function.update_of_ne hid] using hnone
        · obtain rfl := List.mem_singleton.1 hr
          refine ⟨⟨hasked, hstatus⟩, by simp [State.setCall], ?_⟩
          cases updated with
          | error e => exact hrow
          | ok _ => simp [Except.isOk, Except.toBool]
    · cases hs
  | updatePeers | removeClient =>
    simp only [step] at hs
    split at hs
    · obtain rfl := Option.some.inj hs
      exact ⟨h.calls, h.receipts⟩
    · cases hs

/-! ## Where the status is truthful -/

theorem statusOf_eq_delivered_iff {errors peerCount : Nat} :
    statusOf errors peerCount = .delivered ↔ errors < peerCount := by
  rw [statusOf]
  split
  · simp; omega
  · split <;> simp_all

theorem statusOf_eq_failed_iff {errors peerCount : Nat} :
    statusOf errors peerCount = .failed ↔ 0 < peerCount ∧ peerCount ≤ errors := by
  rw [statusOf]
  split
  · simp; omega
  · split
    · simp; omega
    · simp; omega

/-- Who was not asked has acknowledged nothing. -/
theorem asked_ne_nil {asked : List Str} {replies : List (Str × Reply)}
    (hall : replies.map (·.1) = asked) (h : Acknowledged replies) : asked ≠ [] := by
  rcases h with ⟨r, hr, -⟩
  rintro rfl
  rw [List.map_eq_nil_iff.1 hall] at hr
  cases hr

/-- The message stays `sent` where nobody was asked. -/
theorem tells_sent_iff {asked : List Str} {replies : List (Str × Reply)}
    (hall : replies.map (·.1) = asked) : Tells .sent asked replies ↔ asked = [] := by
  constructor
  · rintro ⟨hdelivered, hfailed⟩
    by_contra hasked
    have hnone : ¬ Acknowledged replies := fun h => nomatch hdelivered.2 h
    exact nomatch hfailed.2 ⟨hasked, hnone⟩
  · intro hasked
    have hnone : ¬ Acknowledged replies := fun h => asked_ne_nil hall h hasked
    exact ⟨iff_of_false (fun h => nomatch h) hnone,
      iff_of_false (fun h => nomatch h) fun h => h.1 hasked⟩

theorem tells_statusOf_iff {asked : List Str} {replies : List (Str × Reply)} (peerCount : Nat)
    (hall : replies.map (·.1) = asked) :
    Tells (statusOf (failures replies) peerCount) asked replies ↔
      (asked = [] → peerCount = 0) ∧ (Acknowledged replies → failures replies < peerCount) ∧
        (asked ≠ [] → ¬ Acknowledged replies → 0 < peerCount ∧ peerCount ≤ failures replies) := by
  have hiff : Tells (statusOf (failures replies) peerCount) asked replies ↔
      (failures replies < peerCount ↔ Acknowledged replies) ∧
        (0 < peerCount ∧ peerCount ≤ failures replies ↔ asked ≠ [] ∧ ¬ Acknowledged replies) := by
    rw [← statusOf_eq_delivered_iff, ← statusOf_eq_failed_iff]
    exact ⟨fun h => ⟨h.1, h.2⟩, fun h => ⟨h.1, h.2⟩⟩
  rw [hiff]
  have hempty : asked = [] → failures replies = 0 := by
    intro hasked
    rw [List.map_eq_nil_iff.1 (hall.trans hasked)]
    rfl
  constructor
  · rintro ⟨hdelivered, hfailed⟩
    refine ⟨?_, hdelivered.2, fun hasked hnone => hfailed.2 ⟨hasked, hnone⟩⟩
    intro hasked
    have hnone : ¬ Acknowledged replies := fun h => asked_ne_nil hall h hasked
    have hle := mt hdelivered.1 hnone
    have hzero := hempty hasked
    omega
  · rintro ⟨hnobody, hacknowledged, hunanswered⟩
    by_cases hack : Acknowledged replies
    · have hlt := hacknowledged hack
      exact ⟨iff_of_true hlt hack, iff_of_false (by omega) fun h => h.2 hack⟩
    · by_cases hasked : asked = []
      · have hzero := hnobody hasked
        exact ⟨iff_of_false (by omega) hack, iff_of_false (by omega) fun h => h.1 hasked⟩
      · have hle := hunanswered hasked hack
        exact ⟨iff_of_false (by omega) hack, iff_of_true hle ⟨hasked, hack⟩⟩

theorem Receipt.truthful_iff {s : State} {r : Receipt} (hfits : r.Fits)
    (hrow : s.rows r.id = some (if r.updated then r.status else .sent)) :
    r.Truthful s ↔ r.Counted := by
  have hreturned := tells_statusOf_iff r.peerCount hfits.all
  rw [← hfits.status] at hreturned
  have hstored : (∃ status, s.rows r.id = some status ∧ Tells status r.asked r.replies) ↔
      Tells (if r.updated then r.status else .sent) r.asked r.replies := by
    rw [hrow]
    simp
  constructor
  · rintro ⟨htells, hkept⟩
    rcases hreturned.1 htells with ⟨hnobody, hacknowledged, hunanswered⟩
    refine ⟨hnobody, hacknowledged, hunanswered, ?_⟩
    intro hasked
    by_contra hupdated
    rw [hstored, if_neg hupdated, tells_sent_iff hfits.all] at hkept
    exact hasked hkept
  · rintro ⟨hnobody, hacknowledged, hunanswered, hupdated⟩
    have htells := hreturned.2 ⟨hnobody, hacknowledged, hunanswered⟩
    refine ⟨htells, hstored.2 ?_⟩
    split
    · exact htells
    · next hkept =>
      exact (tells_sent_iff hfits.all).2 (by_contra fun hasked => hkept (hupdated hasked))

/-- In every run, the status of a call that has returned is truthful exactly if the
second number of peers fits what happened and the status is stored. -/
theorem delivery_truthful_iff (clients : Uuid → Option ChatClient) (as : List Act) :
    Always step (fun s => ∀ r ∈ s.receipts, r.Truthful s ↔ r.Counted) (start clients) as := by
  refine always_of_along (I := Inv) (P := fun _ _ => True) ?_ ?_ (inv_start clients)
    (along_of_forall (fun _ _ => trivial) _ as)
  · intro s h r hr
    rcases h.receipts r hr with ⟨hfits, -, hrow⟩
    exact Receipt.truthful_iff hfits hrow
  · intro s a s' h _ hs
    exact inv_step h hs

/-- A peer that joins between the broadcast and the count. -/
def joinedPeer : Map Str (Str × UInt16) :=
  ⟨[⟨"10.144.144.2".toList, ("10.144.144.2".toList, 18001)⟩], by simp [List.NodupKeys, List.keys]⟩

def lateJoin : List Act :=
  [.insert false "hello".toList 7 1 (.ok ()), .lock 7, .unlock 7, .updatePeers 1 joinedPeer,
   .count 7, .update 7 (.ok ())]

/-- A message that nobody was asked to take is delivered, once a peer has joined. -/
theorem delivered_to_nobody : ¬ ∀ (clients : Uuid → Option ChatClient) (as : List Act),
    Always step (fun s => ∀ r ∈ s.receipts, r.Truthful s) (start clients) as := by
  intro h
  have hall := h (fun _ => none) lateJoin
  have hlast : ∃ s, run step (start fun _ => none) lateJoin = some s ∧
      s.receipts = [⟨7, [], [], 1, true, .delivered⟩] := ⟨_, rfl, rfl⟩
  rcases hlast with ⟨s, hrun, hreceipts⟩
  have htells := (always_run hall hrun ⟨7, [], [], 1, true, .delivered⟩ (by simp [hreceipts])).returned
  rcases htells.delivered.1 rfl with ⟨r, hr, -⟩
  cases hr

end HomeTier.Delivery
