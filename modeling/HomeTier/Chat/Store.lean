import Mathlib.Data.List.Sort
import HomeTier.Chat.Dispatch
import HomeTier.Lib.Tasks

/-! # The message lists of the page

`sendMessage`, `addMessage` and `loadMessages` of `src/stores/chatStore.ts`, cut
at their awaits, with the handlers they call: `send_message`, which stores the
message, and `get_message_history`. In a browser the server also sends the
message back as an event (`web`); received messages come from the listener, and
are not stored.

An answer may be lost on its way. `known` are the messages sent or received
since the list of their space was first loaded.
-/

namespace HomeTier.ChatStore

open Lib Realtime

/-! ## Data -/

inductive MessageStatus where
  | sending
  | sent
  | delivered
  | failed
deriving DecidableEq

/-- `temp-…` or the id the server has given. -/
inductive MessageId where
  | temp (tid : Str)
  | uuid (id : Uuid)
deriving DecidableEq

structure Entry where
  id : MessageId
  spaceId : Uuid
  msgType : MessageType
  content : Str
  status : MessageStatus
deriving DecidableEq

/-- A row of the table `messages`. -/
structure MessageRow where
  id : Uuid
  spaceId : Uuid
  msgType : Str
  content : Str
  timestamp : Str
  status : MessageStatus
deriving DecidableEq

structure ChatState where
  messages : Uuid → List Entry
  rows : List MessageRow
  loaded : List Uuid
  known : List (Uuid × Uuid)

/-- What is on its way to the server or back. -/
inductive ChatTask where
  | send (space : Uuid) (tid content msgType : Str)
  | reply (space : Uuid) (tid : Str) (msg : Option MessageRow)
  | event (space : Uuid) (msg : MessageRow)
  | load (space : Uuid) (limit : Nat)
  | history (space : Uuid) (msgs : List Entry)
deriving DecidableEq

inductive ChatEvent where
  | sendMessage (space : Uuid) (content msgType tid : Str)
  | loadMessages (space : Uuid) (limit : Nat)
  /-- `new_message` from a peer. -/
  | received (space id : Uuid) (msgType content : Str)

inductive ChatAnswer where
  | failed
  /-- The server takes the message, with what it makes up for it. -/
  | accepted (id : Uuid) (timestamp : Str) (status : MessageStatus)
  | taken

/-! ## The store -/

/-- `Message` of a row. -/
def readRow (row : MessageRow) : Entry :=
  ⟨.uuid row.id, row.spaceId, messageType row.msgType, row.content, row.status⟩

def ids (l : List Entry) : List MessageId := l.map (·.id)

namespace ChatState

def setMessages (s : ChatState) (space : Uuid) (l : List Entry) : ChatState :=
  { s with messages := Function.update s.messages space l }

/-- `existing.map((m) => (m.id === tid ? f(m) : m))` -/
def replace (s : ChatState) (space : Uuid) (tid : Str) (f : Entry → Entry) : ChatState :=
  s.setMessages space ((s.messages space).map fun m => if m.id = .temp tid then f m else m)

def addMessage (s : ChatState) (space : Uuid) (message : Entry) : ChatState :=
  if (s.messages space).any (·.id = message.id) then s
  else s.setMessages space (s.messages space ++ [message])

/-- The message counts from now on, if its list has been loaded. -/
def learn (s : ChatState) (space id : Uuid) : ChatState :=
  if space ∈ s.loaded then { s with known := (space, id) :: s.known } else s

/-- `dispatchRaw`, of a message that is no signal. -/
def dispatchRaw (s : ChatState) (space id : Uuid) (msgType : MessageType) (content : Str) :
    ChatState :=
  if msgType = .text ∨ msgType = .image then
    (s.addMessage space ⟨.uuid id, space, msgType, content, .sent⟩).learn space id
  else s

/-! ## The handlers -/

/-- The message types that `send_message` makes. -/
def sentType (msgType : Str) : Str := if msgType = "image".toList then msgType else "text".toList

/-- `send_message`: the row, with the status that it has in the end. In a browser, content that is empty is refused; an id that is
a key already is refused by the table. -/
def sendMessage (web : Bool) (s : ChatState) (space : Uuid) (tid content msgType : Str) (id : Uuid)
    (timestamp : Str) (status : MessageStatus) : ChatState × List ChatTask :=
  if web && content.isEmpty then (s, [.reply space tid none])
  else if s.rows.any (·.id = id) then (s, [.reply space tid none])
  else
    let row : MessageRow := ⟨id, space, sentType msgType, content, timestamp, status⟩
    ({ s with rows := s.rows ++ [row] },
      .reply space tid (some row) :: if web then [.event space row] else [])

/-- `get_messages`: `ORDER BY timestamp DESC LIMIT ?2` -/
def getMessages (s : ChatState) (space : Uuid) (limit : Nat) : List MessageRow :=
  ((s.rows.filter (·.spaceId = space)).insertionSort fun a b => b.timestamp ≤ a.timestamp).take
    limit

/-- `get_message_history`, turned round by the page. The limit that a browser
sends is a text, which the handler does not take for a number. -/
def history (web : Bool) (s : ChatState) (space : Uuid) (limit : Nat) : List Entry :=
  ((s.getMessages space (if web then 50 else limit)).map readRow).reverse

end ChatState

/-! ## The steps -/

section Script

variable (web : Bool)

def startChat (s : ChatState) : ChatEvent → Option (ChatState × List ChatTask)
  | .sendMessage space content msgType tid =>
    let temp : Entry :=
      ⟨.temp tid, space, if msgType = "image".toList then .image else .text, content, .sending⟩
    some (s.setMessages space (s.messages space ++ [temp]), [.send space tid content msgType])
  | .loadMessages space limit => some (s, [.load space limit])
  | .received space id msgType content =>
    some (s.dispatchRaw space id (messageType msgType) content, [])

def resumeChat (s : ChatState) : ChatTask → ChatAnswer → Option (ChatState × List ChatTask)
  | .send space tid content msgType, .accepted id timestamp status =>
    some (s.sendMessage web space tid content msgType id timestamp status)
  | .send space tid _ _, .failed =>
    some (s.replace space tid fun m => { m with status := .failed }, [])
  | .reply space tid (some msg), .taken =>
    some ((s.replace space tid fun _ => readRow msg).learn space msg.id, [])
  | .reply space tid none, .taken | .reply space tid _, .failed =>
    some (s.replace space tid fun m => { m with status := .failed }, [])
  | .event space msg, .taken =>
    some (s.dispatchRaw space msg.id (messageType msg.msgType) msg.content, [])
  | .event _ _, .failed => some (s, [])
  | .load space limit, .taken => some (s, [.history space (s.history web space limit)])
  | .load _ _, .failed => some (s, [])
  | .history space msgs, .taken =>
    some ({ s with loaded := space :: s.loaded }.setMessages space msgs, [])
  | .history _ _, .failed => some (s, [])
  | _, _ => none

def chatScript : Script ChatState ChatTask ChatEvent ChatAnswer where
  start := startChat
  resume := resumeChat web

end Script

/-- Nothing has been stored or loaded. -/
def chatInit : Page ChatState ChatTask where
  shared := { messages := fun _ => [], rows := [], loaded := [], known := [] }
  waiting := []

/-! ## Each message once -/

/-- The ids of each list are unique, and every known message is there. -/
def Kept (s : ChatState) : Prop :=
  ∀ space, (ids (s.messages space)).Nodup ∧
    ∀ id, (space, id) ∈ s.known → .uuid id ∈ ids (s.messages space)

/-- What the database gives is without repetition. -/
structure Stored (s : ChatState) (ws : List ChatTask) : Prop where
  rows : (s.rows.map (·.id)).Nodup
  answers : ∀ space msgs, .history space msgs ∈ ws → (ids msgs).Nodup

section Kept

variable {s : ChatState} {space : Uuid}

@[simp] theorem setMessages_self (s : ChatState) (space : Uuid) (l : List Entry) :
    (s.setMessages space l).messages space = l := Function.update_self ..

theorem setMessages_of_ne {other : Uuid} (h : other ≠ space) (s : ChatState) (l : List Entry) :
    (s.setMessages space l).messages other = s.messages other := Function.update_of_ne h ..

@[simp] theorem setMessages_known (s : ChatState) (space : Uuid) (l : List Entry) :
    (s.setMessages space l).known = s.known := rfl

/-- Only the list that is written matters. -/
theorem kept_setMessages_iff (h : Kept s) (l : List Entry) :
    Kept (s.setMessages space l) ↔
      (ids l).Nodup ∧ ∀ id, (space, id) ∈ s.known → .uuid id ∈ ids l := by
  constructor
  · intro hk
    simpa using hk space
  · intro hl other
    by_cases ho : other = space
    · subst ho
      simpa using hl
    · rw [setMessages_of_ne ho]
      exact h other

theorem kept_learn_iff (s : ChatState) (space id : Uuid) :
    Kept (s.learn space id) ↔
      Kept s ∧ (space ∈ s.loaded → .uuid id ∈ ids (s.messages space)) := by
  unfold ChatState.learn
  split
  · rename_i hl
    constructor
    · intro hk
      refine ⟨fun other => ⟨(hk other).1, fun i hi => (hk other).2 i (.tail _ hi)⟩, ?_⟩
      intro _
      exact (hk space).2 id (.head _)
    · rintro ⟨hk, hin⟩ other
      refine ⟨(hk other).1, ?_⟩
      intro i hi
      rcases List.mem_cons.mp hi with heq | hi
      · cases heq
        exact hin hl
      · exact (hk other).2 i hi
  · rename_i hl
    exact ⟨fun hk => ⟨hk, fun h => absurd h hl⟩, And.left⟩

theorem kept_append_temp_iff (h : Kept s) {e : Entry} {tid : Str} (he : e.id = .temp tid) :
    Kept (s.setMessages space (s.messages space ++ [e])) ↔
      .temp tid ∉ ids (s.messages space) := by
  have hids : ids (s.messages space ++ [e]) = ids (s.messages space) ++ [.temp tid] := by
    simp [ids, he]
  rw [kept_setMessages_iff h, hids, List.nodup_append]
  constructor
  · rintro ⟨⟨-, -, hne⟩, -⟩ hmem
    exact hne _ hmem _ List.mem_cons_self rfl
  · intro hnot
    refine ⟨⟨(h space).1, List.nodup_singleton _, ?_⟩, ?_⟩
    · intro i hi j hj hij
      rw [List.mem_singleton] at hj
      exact hnot (hj ▸ hij ▸ hi)
    · intro id hid
      exact List.mem_append_left _ ((h space).2 id hid)

theorem kept_addMessage (h : Kept s) (e : Entry) : Kept (s.addMessage space e) := by
  unfold ChatState.addMessage
  split
  · exact h
  · rename_i hnew
    have hids : ids (s.messages space ++ [e]) = ids (s.messages space) ++ [e.id] := by simp [ids]
    rw [kept_setMessages_iff h, hids]
    refine ⟨List.nodup_append.mpr ⟨(h space).1, List.nodup_singleton _, ?_⟩, ?_⟩
    · intro i hi j hj hij
      rw [List.mem_singleton] at hj
      obtain ⟨m, hm, hid⟩ := List.mem_map.mp hi
      exact hnew (List.any_eq_true.mpr ⟨m, hm, decide_eq_true (hid.trans (hij.trans hj))⟩)
    · intro id hid
      exact List.mem_append_left _ ((h space).2 id hid)

theorem mem_ids_addMessage (s : ChatState) (space : Uuid) (e : Entry) :
    e.id ∈ ids ((s.addMessage space e).messages space) := by
  unfold ChatState.addMessage
  split
  · rename_i hold
    rcases List.any_eq_true.mp hold with ⟨m, hm, hid⟩
    exact List.mem_map.mpr ⟨m, hm, of_decide_eq_true hid⟩
  · simp [ids]

theorem kept_dispatchRaw (h : Kept s) (id : Uuid) (msgType : MessageType) (content : Str) :
    Kept (s.dispatchRaw space id msgType content) := by
  unfold ChatState.dispatchRaw
  split
  · rw [kept_learn_iff]
    exact ⟨kept_addMessage h _, fun _ => mem_ids_addMessage s space _⟩
  · exact h

/-- The ids after a replacement. -/
theorem ids_replace (l : List Entry) (tid : Str) (f : Entry → Entry) (i : MessageId)
    (hf : ∀ m ∈ l, (f m).id = i ∨ m.id ≠ .temp tid) :
    ids (l.map fun m => if m.id = .temp tid then f m else m) =
      (ids l).map fun j => if j = .temp tid then i else j := by
  unfold ids
  rw [List.map_map, List.map_map]
  apply List.map_congr_left
  intro m hm
  show (if m.id = .temp tid then f m else m).id = if m.id = .temp tid then i else m.id
  split
  · rename_i htemp
    rcases hf m hm with h | h
    · exact h
    · exact absurd htemp h
  · rfl

/-- A failure changes no id. -/
theorem kept_fail (h : Kept s) (tid : Str) :
    Kept (s.replace space tid fun m => { m with status := .failed }) := by
  have hids : ids ((s.messages space).map fun m =>
      if m.id = .temp tid then { m with status := .failed } else m) = ids (s.messages space) := by
    unfold ids
    rw [List.map_map]
    apply List.map_congr_left
    intro m _
    show (if m.id = .temp tid then { m with status := .failed } else m).id = m.id
    split <;> rfl
  unfold ChatState.replace
  rw [kept_setMessages_iff h, hids]
  exact h space

section Renamed

variable {l : List MessageId} {tid : Str} {id : Uuid}

/-- The temporary id gives way to the one of the server. -/
def renamed (tid : Str) (id : Uuid) (i : MessageId) : MessageId :=
  if i = .temp tid then .uuid id else i

@[simp] theorem renamed_uuid (i : Uuid) : renamed tid id (.uuid i) = .uuid i := if_neg nofun

theorem mem_map_renamed : .uuid id ∈ l.map (renamed tid id) ↔ .temp tid ∈ l ∨ .uuid id ∈ l := by
  constructor
  · intro hmem
    obtain ⟨i, hi, heq⟩ := List.mem_map.mp hmem
    unfold renamed at heq
    split at heq
    · rename_i htemp
      exact .inl (htemp ▸ hi)
    · exact .inr (heq ▸ hi)
  · rintro (htemp | huuid)
    · exact List.mem_map.mpr ⟨_, htemp, if_pos rfl⟩
    · exact List.mem_map.mpr ⟨_, huuid, renamed_uuid id⟩

/-- Two entries become one id exactly when both ids are there. -/
theorem nodup_map_renamed (hl : l.Nodup) :
    (l.map (renamed tid id)).Nodup ↔ ¬ (.temp tid ∈ l ∧ .uuid id ∈ l) := by
  rw [List.nodup_map_iff_inj_on hl]
  constructor
  · rintro hinj ⟨htemp, huuid⟩
    have heq := hinj _ htemp _ huuid ((if_pos rfl).trans (renamed_uuid id).symm)
    exact MessageId.noConfusion heq
  · intro hnot i hi j hj heq
    unfold renamed at heq
    split_ifs at heq with hti htj htj
    · exact hti.trans htj.symm
    · exact absurd ⟨hti ▸ hi, heq ▸ hj⟩ hnot
    · exact absurd ⟨htj ▸ hj, heq ▸ hi⟩ hnot
    · exact heq

end Renamed

/-- The answer takes the place of the temporary message. -/
theorem kept_reply_iff (h : Kept s) (tid : Str) (msg : MessageRow) :
    Kept ((s.replace space tid fun _ => readRow msg).learn space msg.id) ↔
      ¬ (.temp tid ∈ ids (s.messages space) ∧ .uuid msg.id ∈ ids (s.messages space)) ∧
      (space ∈ s.loaded →
        .temp tid ∈ ids (s.messages space) ∨ .uuid msg.id ∈ ids (s.messages space)) := by
  have hids : ids ((s.messages space).map fun m => if m.id = .temp tid then readRow msg else m) =
      (ids (s.messages space)).map (renamed tid msg.id) :=
    ids_replace _ tid (fun _ => readRow msg) (.uuid msg.id) fun _ _ => .inl rfl
  have hknown : ∀ id, (space, id) ∈ s.known →
      .uuid id ∈ (ids (s.messages space)).map (renamed tid msg.id) :=
    fun id hid => List.mem_map.mpr ⟨_, (h space).2 id hid, renamed_uuid id⟩
  rw [kept_learn_iff]
  unfold ChatState.replace
  rw [kept_setMessages_iff h, setMessages_self, hids, nodup_map_renamed (h space).1,
    mem_map_renamed]
  constructor
  · rintro ⟨⟨hnot, -⟩, hin⟩
    exact ⟨hnot, hin⟩
  · rintro ⟨hnot, hin⟩
    exact ⟨⟨hnot, hknown⟩, hin⟩

end Kept

/-! ## Every interleaving -/

/-- A temporary id is new. An answer finds its temporary message or the message
itself, and not both. A history has what is known. -/
def KeepsOnce (s : ChatState) (_ : List ChatTask) : PageAct ChatTask ChatEvent ChatAnswer → Prop
  | .start (.sendMessage space _ _ tid) => .temp tid ∉ ids (s.messages space)
  | .resume (.reply space tid (some msg)) .taken =>
    ¬ (.temp tid ∈ ids (s.messages space) ∧ .uuid msg.id ∈ ids (s.messages space)) ∧
      (space ∈ s.loaded →
        .temp tid ∈ ids (s.messages space) ∨ .uuid msg.id ∈ ids (s.messages space))
  | .resume (.history space msgs) .taken =>
    ∀ k ∈ s.known, k.1 = space → .uuid k.2 ∈ ids msgs
  | _ => True

instance (s : ChatState) (ws : List ChatTask) : ∀ a, Decidable (KeepsOnce s ws a)
  | .start (.sendMessage space _ _ tid) =>
    inferInstanceAs (Decidable (.temp tid ∉ ids (s.messages space)))
  | .start (.loadMessages _ _) | .start (.received _ _ _ _) => .isTrue trivial
  | .resume (.reply _ _ (some _)) .taken => inferInstanceAs (Decidable (_ ∧ _))
  | .resume (.history space msgs) .taken =>
    List.decidableBAll (fun k : Uuid × Uuid => k.1 = space → MessageId.uuid k.2 ∈ ids msgs) s.known
  | .resume (.reply _ _ none) _ | .resume (.reply _ _ (some _)) .failed
  | .resume (.reply _ _ (some _)) (.accepted _ _ _) | .resume (.history _ _) .failed
  | .resume (.history _ _) (.accepted _ _ _) | .resume (.send _ _ _ _) _ | .resume (.event _ _) _
  | .resume (.load _ _) _ => .isTrue trivial

section Run

variable (web : Bool)

theorem kept_start {s s' : ChatState} {ts : List ChatTask} {e : ChatEvent} (ws : List ChatTask)
    (h : Kept s) (hs : startChat s e = some (s', ts)) :
    Kept s' ↔ KeepsOnce s ws (.start e) := by
  cases e with
  | sendMessage space content msgType tid =>
    cases hs
    exact kept_append_temp_iff h rfl
  | loadMessages space limit =>
    cases hs
    exact iff_of_true h trivial
  | received space id msgType content =>
    cases hs
    exact iff_of_true (kept_dispatchRaw h _ _ _) trivial

theorem kept_resume {s s' : ChatState} {ts ws : List ChatTask} {t : ChatTask} {a : ChatAnswer}
    (h : Kept s) (hj : Stored s (t :: ws)) (hs : resumeChat web s t a = some (s', ts)) :
    Kept s' ↔ KeepsOnce s ws (.resume t a) := by
  unfold resumeChat at hs
  split at hs
  case h_1 space tid content msgType id timestamp status =>
    -- only the table changes
    have hsame : s'.messages = s.messages ∧ s'.known = s.known := by
      have hs' : (s.sendMessage web space tid content msgType id timestamp status).1 = s' :=
        congrArg Prod.fst (Option.some.inj hs)
      rw [← hs']
      unfold ChatState.sendMessage
      split_ifs <;> exact ⟨rfl, rfl⟩
    refine iff_of_true ?_ trivial
    unfold Kept
    rw [hsame.1, hsame.2]
    exact h
  case h_12 => cases hs
  all_goals cases hs
  · exact iff_of_true (kept_fail h _) trivial
  · exact kept_reply_iff h _ _
  · exact iff_of_true (kept_fail h _) trivial
  · rename_i space tid msg
    refine iff_of_true (kept_fail h tid) ?_
    cases msg <;> trivial
  · exact iff_of_true (kept_dispatchRaw h _ _ _) trivial
  · exact iff_of_true h trivial
  · exact iff_of_true h trivial
  · exact iff_of_true h trivial
  · rename_i space msgs
    have hunique : (ids msgs).Nodup := hj.answers space msgs List.mem_cons_self
    refine (kept_setMessages_iff h msgs).trans ⟨?_, ?_⟩
    · rintro ⟨-, hin⟩ k hk rfl
      exact hin k.2 hk
    · intro hin
      exact ⟨hunique, fun id hid => hin (space, id) hid rfl⟩
  · exact iff_of_true h trivial

theorem nodup_ids_history {s : ChatState} (h : (s.rows.map (·.id)).Nodup) (space : Uuid)
    (limit : Nat) : (ids (s.history web space limit)).Nodup := by
  have hread : ∀ rows : List MessageRow,
      ids (rows.map readRow) = (rows.map (·.id)).map .uuid := by
    intro rows
    unfold ids
    rw [List.map_map, List.map_map]
    rfl
  have hspace : ((s.rows.filter (·.spaceId = space)).map (·.id)).Nodup :=
    h.sublist (List.filter_sublist.map _)
  have hget : ((s.getMessages space (if web then 50 else limit)).map (·.id)).Nodup := by
    unfold ChatState.getMessages
    refine List.Nodup.sublist ((List.take_sublist _ _).map _) ?_
    exact ((List.perm_insertionSort _ _).map _).nodup_iff.mpr hspace
  unfold ChatState.history
  rw [show ids (((s.getMessages space (if web then 50 else limit)).map readRow).reverse) =
    (ids ((s.getMessages space (if web then 50 else limit)).map readRow)).reverse from
      List.map_reverse, List.nodup_reverse, hread]
  exact hget.map fun _ _ heq => MessageId.uuid.inj heq

theorem Stored.of_rows_eq {s s' : ChatState} {ws ws' : List ChatTask} (h : Stored s ws)
    (hrows : s'.rows = s.rows)
    (hw : ∀ space msgs, .history space msgs ∈ ws' → .history space msgs ∈ ws) :
    Stored s' ws' where
  rows := hrows ▸ h.rows
  answers space msgs hmem := h.answers space msgs (hw space msgs hmem)

theorem learn_rows (s : ChatState) (space id : Uuid) : (s.learn space id).rows = s.rows := by
  unfold ChatState.learn
  split <;> rfl

theorem dispatchRaw_rows (s : ChatState) (space id : Uuid) (msgType : MessageType)
    (content : Str) : (s.dispatchRaw space id msgType content).rows = s.rows := by
  unfold ChatState.dispatchRaw ChatState.addMessage
  split
  · rw [learn_rows]
    split <;> rfl
  · rfl

theorem stored_start {s s' : ChatState} {ws ts : List ChatTask} {e : ChatEvent}
    (h : Stored s ws) (hs : startChat s e = some (s', ts)) : Stored s' (ws ++ ts) := by
  cases e with
  | sendMessage space content msgType tid =>
    cases hs
    exact h.of_rows_eq rfl (by simp)
  | loadMessages space limit =>
    cases hs
    exact h.of_rows_eq rfl (by simp)
  | received space id msgType content =>
    cases hs
    exact h.of_rows_eq (dispatchRaw_rows s space id _ content) (by simp)

/-- A row is added under a key of its own. -/
theorem stored_sendMessage {s : ChatState} {ws : List ChatTask} {space : Uuid}
    {tid content msgType : Str} {id : Uuid} {timestamp : Str} {status : MessageStatus}
    (h : Stored s ws) :
    Stored (s.sendMessage web space tid content msgType id timestamp status).1
      (ws ++ (s.sendMessage web space tid content msgType id timestamp status).2) := by
  unfold ChatState.sendMessage
  split
  · exact h.of_rows_eq rfl (by simp)
  split
  · exact h.of_rows_eq rfl (by simp)
  · rename_i hnew
    constructor
    · dsimp only
      rw [List.map_append, List.nodup_append]
      refine ⟨h.rows, List.nodup_singleton _, ?_⟩
      intro i hi j hj hij
      rw [List.map_cons, List.map_nil, List.mem_singleton] at hj
      obtain ⟨row, hrow, hid⟩ := List.mem_map.mp hi
      exact hnew (List.any_eq_true.mpr ⟨row, hrow, decide_eq_true (hid.trans (hij.trans hj))⟩)
    · intro other msgs hmem
      refine h.answers other msgs ?_
      rcases List.mem_append.mp hmem with hw | hn
      · exact hw
      · cases web <;> simp at hn

theorem stored_resume {s s' : ChatState} {ts ws : List ChatTask} {t : ChatTask} {a : ChatAnswer}
    (h : Stored s (t :: ws)) (hs : resumeChat web s t a = some (s', ts)) :
    Stored s' (ws ++ ts) := by
  have hws : Stored s ws := h.of_rows_eq rfl fun _ _ hw => .tail _ hw
  unfold resumeChat at hs
  split at hs
  case h_1 space tid content msgType id timestamp status =>
    have hr : s.sendMessage web space tid content msgType id timestamp status = (s', ts) :=
      Option.some.inj hs
    have hstored :
        Stored (s.sendMessage web space tid content msgType id timestamp status).1
          (ws ++ (s.sendMessage web space tid content msgType id timestamp status).2) :=
      stored_sendMessage web hws
    rw [hr] at hstored
    exact hstored
  case h_12 => cases hs
  all_goals cases hs
  case h_8 space limit =>
    refine ⟨hws.rows, ?_⟩
    intro other msgs hmem
    rcases List.mem_append.mp hmem with hw | hn
    · exact hws.answers other msgs hw
    · cases List.mem_singleton.mp hn
      exact nodup_ids_history web hws.rows space limit
  all_goals
    rw [List.append_nil]
    first
    | exact hws
    | exact hws.of_rows_eq (learn_rows _ _ _) fun _ _ hw => hw
    | exact hws.of_rows_eq (dispatchRaw_rows _ _ _ _ _) fun _ _ hw => hw
    | exact hws.of_rows_eq rfl fun _ _ hw => hw

/-- Each message is there once in every state of a run, exactly when each step of
the run keeps it so. -/
theorem always_kept_iff (acts : List (PageAct ChatTask ChatEvent ChatAnswer)) :
    Always (chatScript web).step (fun p => Kept p.shared) chatInit acts ↔
      Along (chatScript web).step (Script.Within KeepsOnce) chatInit acts := by
  apply always_iff_along (J := fun p => Stored p.shared p.waiting)
  · intro p a p' hj hstep
    rcases Script.step_cases hstep with ⟨e, s, ts, rfl, hs, rfl⟩ | ⟨t, b, s, ts, rfl, ht, hs, rfl⟩
    · exact stored_start hj hs
    · have hj' : Stored p.shared (t :: p.waiting.erase t) :=
        hj.of_rows_eq rfl fun _ _ hmem => (List.perm_cons_erase ht).mem_iff.mpr hmem
      exact stored_resume web hj' hs
  · intro p a p' hj hk hstep
    rcases Script.step_cases hstep with ⟨e, s, ts, rfl, hs, rfl⟩ | ⟨t, b, s, ts, rfl, ht, hs, rfl⟩
    · exact kept_start p.waiting hk hs
    · have hj' : Stored p.shared (t :: p.waiting.erase t) :=
        hj.of_rows_eq rfl fun _ _ hmem => (List.perm_cons_erase ht).mem_iff.mpr hmem
      exact kept_resume web hk hj' hs
  · exact ⟨List.nodup_nil, fun _ _ h => absurd h List.not_mem_nil⟩
  · exact fun _ => ⟨List.nodup_nil, fun _ h => absurd h List.not_mem_nil⟩

/-- No call of `sendMessage` or `loadMessages` waits. -/
def CallsDone (ws : List ChatTask) : Prop :=
  ∀ t ∈ ws, match t with
    | .event _ _ => True
    | _ => False

/-- Ids are unique; when no call waits every known message is in its list once. -/
def EachOnce (p : Page ChatState ChatTask) : Prop :=
  (∀ space, (ids (p.shared.messages space)).Nodup) ∧
    (CallsDone p.waiting → ∀ space id, (space, id) ∈ p.shared.known →
      (ids (p.shared.messages space)).count (.uuid id) = 1)

theorem Kept.eachOnce {p : Page ChatState ChatTask} (h : Kept p.shared) : EachOnce p := by
  refine ⟨fun space => (h space).1, ?_⟩
  intro _ space id hid
  exact List.count_eq_one_of_mem (h space).1 ((h space).2 id hid)

/-- In a run in which every answer and event meets `KeepsOnce`, each message of a space is
there once. -/
theorem messages_once (acts : List (PageAct ChatTask ChatEvent ChatAnswer))
    (h : Along (chatScript web).step (Script.Within KeepsOnce) chatInit acts) :
    Always (chatScript web).step EachOnce chatInit acts := by
  have hkept := (always_kept_iff web acts).mpr h
  exact hkept.mono fun _ hk => hk.eachOnce

end Run

/-- A list is loaded, a message sent and another received. -/
def sentAndReceived : List (PageAct ChatTask ChatEvent ChatAnswer) :=
  [.start (.loadMessages 1 50),
    .resume (.load 1 50) .taken,
    .resume (.history 1 []) .taken,
    .start (.sendMessage 1 "hi".toList "text".toList "a".toList),
    .resume (.send 1 "a".toList "hi".toList "text".toList) (.accepted 7 "t".toList .sent),
    .start (.received 1 8 "text".toList "hello".toList),
    .resume (.reply 1 "a".toList (some ⟨7, 1, "text".toList, "hi".toList, "t".toList, .sent⟩)) .taken,
    .resume (.event 1 ⟨7, 1, "text".toList, "hi".toList, "t".toList, .sent⟩) .taken]

theorem messages_once_example :
    Always (chatScript true).step EachOnce chatInit sentAndReceived :=
  messages_once true sentAndReceived (by decide)

/-- The server's own event comes before its answer. -/
def eventBeforeReply : List (PageAct ChatTask ChatEvent ChatAnswer) :=
  [.start (.sendMessage 1 "hi".toList "text".toList "a".toList),
    .resume (.send 1 "a".toList "hi".toList "text".toList) (.accepted 7 "t".toList .sent),
    .resume (.event 1 ⟨7, 1, "text".toList, "hi".toList, "t".toList, .sent⟩) .taken,
    .resume (.reply 1 "a".toList (some ⟨7, 1, "text".toList, "hi".toList, "t".toList, .sent⟩)) .taken]

/-- The message is there twice, under one id. -/
theorem message_doubled : ¬ Always (chatScript true).step EachOnce chatInit eventBeforeReply :=
  not_always_of_run (Q := fun p => (ids (p.shared.messages 1)).Nodup) (fun _ h => h.1 1)
    (by decide)

end HomeTier.ChatStore
