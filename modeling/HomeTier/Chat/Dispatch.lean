import HomeTier.Chat.Sign
import HomeTier.Space.Ports

/-! # What the front end does with a message

`dispatchRaw` of `src/services/realtime.ts` takes the messages that the listener
emits. Signals go to the handlers of `src/services/signal.ts`, the others to the
list of a space in `src/stores/chatStore.ts` and to a notification. The space is
in all three the one that is written in the message.

The nickname that `signal.ts` looks up for its handlers is left out, as none of
them takes it, and so is the preview that a notification shows.
-/

namespace HomeTier.Realtime

open Lib

/-! ## The store -/

inductive MessageType where
  | text
  | image
  | system
deriving DecidableEq

structure Message where
  id : Uuid
  spaceId : Uuid
  senderId : Uuid
  senderName : Str
  msgType : MessageType
  content : Str
  timestamp : Int
  status : Str
deriving DecidableEq

def messageType (msgType : Str) : MessageType :=
  if msgType = "image".toList then .image
  else if msgType = "system".toList then .system
  else .text

def toMessage (raw : ChatMessage) : Message where
  id := raw.id
  spaceId := raw.spaceId
  senderId := raw.senderId
  senderName := raw.senderName
  msgType := messageType raw.msgType
  content := raw.content
  timestamp := raw.timestamp
  status := "sent".toList

/-- The lists of `chatStore.ts`, by space. -/
abbrev Messages := Uuid → List Message

def addMessage (spaceId : Uuid) (message : Message) (messages : Messages) : Messages :=
  if (messages spaceId).any (·.id = message.id) then messages
  else Function.update messages spaceId (messages spaceId ++ [message])

/-- The message is there, or one of its id. -/
theorem exists_mem_addMessage (spaceId : Uuid) (message : Message) (messages : Messages) :
    ∃ x ∈ addMessage spaceId message messages spaceId, x.id = message.id := by
  unfold addMessage
  split
  · rename_i hold
    rcases List.any_eq_true.1 hold with ⟨x, hx, hid⟩
    exact ⟨x, hx, of_decide_eq_true hid⟩
  · rw [Function.update_self]
    exact ⟨message, List.mem_append_right _ List.mem_cons_self, rfl⟩

theorem addMessage_of_ne {spaceId other : Uuid} (h : other ≠ spaceId) (message : Message)
    (messages : Messages) : addMessage spaceId message messages other = messages other := by
  unfold addMessage
  split
  · rfl
  · exact Function.update_of_ne h _ _

/-! ## Signals -/

/-- Only `kind` is checked when an envelope is read. -/
structure SignalEnvelope where
  kind : Str
  type : Option Json
  fromIp : Option Json
  toIp : Option Json
  data : Option Json

def readEnvelope (J : JsonText) (payload : Str) : Option SignalEnvelope := do
  let env ← J.parse payload
  let kind ← (env.get "kind".toList).bind Json.asStr
  return { kind, type := env.get "type".toList, fromIp := env.get "from".toList,
           toIp := env.get "to".toList, data := env.get "data".toList }

/-- What counts as true in a condition. -/
def truthy : Option Json → Bool
  | none | some .null => false
  | some (.bool b) => b
  | some (.int n) => n ≠ 0
  | some (.float t) => (t.takeWhile (· ∉ ['e', 'E'])).any fun c => c.isDigit && c ≠ '0'
  | some (.str s) => s ≠ []
  | some (.arr _) | some (.obj _) => true

/-- A registered handler. The hubs for voice and screen go by the space they are
in; the one for files takes every space. -/
structure Handler where
  kind : Str
  hub : Option Uuid
deriving DecidableEq

/-- `if (sp !== this.spaceId) return;` -/
def Handler.handles (h : Handler) (spaceId : Uuid) : Bool := h.hub.all (spaceId = ·)

/-- What `spaceStore.ts` holds of a space. -/
structure SpaceView where
  id : Uuid
  virtualIp : Option Str

structure FrontEnd where
  messages : Messages
  spaces : List SpaceView
  /-- In the order of registration. -/
  handlers : List Handler
  activeChatSpace : Option Uuid
  focused : Bool
  granted : Bool

/-- A handler is called. -/
structure Call where
  spaceId : Uuid
  handler : Handler
  env : SignalEnvelope

namespace FrontEnd

variable (f : FrontEnd)

def selfVirtualIp (spaceId : Uuid) : Option Str :=
  (f.spaces.find? (·.id = spaceId)).bind (·.virtualIp)

/-- Neither from the node itself nor for somebody else. -/
def addressed (spaceId : Uuid) (env : SignalEnvelope) : Bool :=
  match f.selfVirtualIp spaceId with
  | none | some [] => true
  | some ip => env.fromIp.bind Json.asStr ≠ some ip &&
      (!truthy env.toIp || env.toIp.bind Json.asStr = some ip)

/-- The handler that `signal.ts` registers with `realtime.ts`. -/
def onSignal (J : JsonText) (spaceId : Uuid) (payload : Str) : List Call :=
  match readEnvelope J payload with
  | none => []
  | some env =>
    if f.addressed spaceId env then
      (f.handlers.filter (·.kind = env.kind)).map fun h => ⟨spaceId, h, env⟩
    else []

/-- `maybeNotify`: not while the space is looked at. -/
def notifies (raw : ChatMessage) : Bool :=
  !(f.activeChatSpace = some raw.spaceId && f.focused) && f.granted

end FrontEnd

/-! ## Dispatch -/

/-- What a message does. -/
structure Reaction where
  messages : Messages
  calls : List Call
  notified : Bool

def dispatchRaw (J : JsonText) (f : FrontEnd) (raw : ChatMessage) : Reaction :=
  if raw.msgType = "signal".toList then
    { messages := f.messages, calls := f.onSignal J raw.spaceId raw.content, notified := false }
  else
    let message := toMessage raw
    if message.msgType = .text ∨ message.msgType = .image then
      { messages := addMessage raw.spaceId message f.messages, calls := [],
        notified := f.notifies raw }
    else
      { messages := f.messages, calls := [], notified := false }

/-! ## Landing in a space -/

/-- Neither a signal nor a system message; an unknown type is shown as text. -/
def IsChat (m : ChatMessage) : Prop :=
  m.msgType ≠ "signal".toList ∧ m.msgType ≠ "system".toList

/-- `m` was shown and handled as a message of `space`: a chat message is in its
list, a signal has reached the handlers of its kind, and nothing is under
another space. -/
structure LandsIn (J : JsonText) (space : Uuid) (f : FrontEnd) (m : ChatMessage) (r : Reaction) :
    Prop where
  shown : IsChat m → ∃ x ∈ r.messages space, x.id = m.id
  reached : m.msgType = "signal".toList → ∀ env, readEnvelope J m.content = some env →
    f.addressed space env = true → ∀ h ∈ f.handlers, h.kind = env.kind →
    h.handles space = true → ⟨space, h, env⟩ ∈ r.calls
  unshown : ∀ other, other ≠ space → r.messages other = f.messages other
  uncalled : ∀ c ∈ r.calls, c.spaceId = space

variable {J : JsonText} {f : FrontEnd}

theorem messageType_of_isChat {m : ChatMessage} (h : IsChat m) :
    messageType m.msgType = .text ∨ messageType m.msgType = .image := by
  unfold messageType
  rw [if_neg h.2]
  split
  · exact .inr rfl
  · exact .inl rfl

theorem mem_onSignal {spaceId : Uuid} {payload : Str} {env : SignalEnvelope} {h : Handler}
    (henv : readEnvelope J payload = some env) (haddressed : f.addressed spaceId env = true)
    (hh : h ∈ f.handlers) (hkind : h.kind = env.kind) :
    ⟨spaceId, h, env⟩ ∈ f.onSignal J spaceId payload := by
  simp only [FrontEnd.onSignal, henv, if_pos haddressed]
  apply List.mem_map.2
  exact ⟨h, List.mem_filter.2 ⟨hh, decide_eq_true hkind⟩, rfl⟩

theorem spaceId_of_mem_onSignal {spaceId : Uuid} {payload : Str} {c : Call}
    (h : c ∈ f.onSignal J spaceId payload) : c.spaceId = spaceId := by
  unfold FrontEnd.onSignal at h
  split at h
  · cases h
  · split at h
    · rcases List.mem_map.1 h with ⟨-, -, rfl⟩
      rfl
    · cases h

/-- A message lands in the space that is written in it. -/
theorem landsIn_dispatchRaw (J : JsonText) (f : FrontEnd) (m : ChatMessage) :
    LandsIn J m.spaceId f m (dispatchRaw J f m) := by
  unfold dispatchRaw
  split
  · -- a signal
    rename_i hsignal
    constructor
    · intro hchat
      exact absurd hsignal hchat.1
    · intro _ env henv haddressed h hh hkind _
      exact mem_onSignal henv haddressed hh hkind
    · intro _ _
      rfl
    · intro c hc
      exact spaceId_of_mem_onSignal hc
  · rename_i hsignal
    dsimp only
    split
    · -- a message that is shown
      constructor
      · intro _
        exact exists_mem_addMessage m.spaceId (toMessage m) f.messages
      · intro h
        exact absurd h hsignal
      · intro other hother
        exact addMessage_of_ne hother _ _
      · intro c hc
        cases hc
    · -- a system message
      rename_i hsystem
      constructor
      · intro hchat
        exact absurd (messageType_of_isChat hchat) hsystem
      · intro h
        exact absurd h hsignal
      · intro _ _
        rfl
      · intro c hc
        cases hc

end HomeTier.Realtime
