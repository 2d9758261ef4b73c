import HomeTier.Chat.Server
import HomeTier.Lib.Lines
import HomeTier.Lib.Trace

/-! # Signals of voice and screen servers

`VoiceServer` of `src-tauri/src/voice/server.rs` and `ScreenShareSignalServer` of
`src-tauri/src/screen/server.rs` read a connection once and look for a signal in what
they got. The voice servers of all spaces push it to the one queue of
`src-tauri/src/voice/signal.rs`; the screen servers post it on to port 18200 of the same
machine, whatever listens there. `poll_signal` takes the first message with a path and
does not look at the space. The ports are those of `src-tauri/src/space/manager.rs`.

A run interleaves posts from outside, the one read of each connection and polls. A
signal is known by its place among the posted ones, a number that the program does not
have.
-/

namespace HomeTier.Signalling

open Lib

/-! ## Requests -/

inductive SignalPath where
  | offer
  | answer
  | ice
deriving DecidableEq

def SignalPath.text : SignalPath → Str
  | .offer => "/signal/offer".toList
  | .answer => "/signal/answer".toList
  | .ice => "/signal/ice".toList

/-- The `match path` of both servers. -/
def SignalPath.parse (path : Str) : Option SignalPath :=
  if path = SignalPath.offer.text then some .offer
  else if path = SignalPath.answer.text then some .answer
  else if path = SignalPath.ice.text then some .ice
  else none

theorem SignalPath.parse_text (p : SignalPath) : parse p.text = some p := by
  cases p <;> decide

structure SignalMessage where
  path : SignalPath
  body : Str
deriving DecidableEq

/-- The header lines a client writes. -/
structure Headers where
  lines : List Str
  line_ne_nil : ∀ l ∈ lines, l ≠ []
  notMem_line : ∀ l ∈ lines, '\r' ∉ l

def SignalPath.requestLine (p : SignalPath) : Str :=
  "POST".toList ++ ' ' :: (p.text ++ ' ' :: "HTTP/1.1".toList)

/-- The head of `send_offer`, `send_answer` and `send_ice`. -/
def signalHead (p : SignalPath) (headers : Headers) : RequestHead where
  lines := p.requestLine :: headers.lines
  lines_ne_nil := List.cons_ne_nil _ _
  line_ne_nil := by
    intro l hl
    rcases List.mem_cons.1 hl with rfl | hl
    · exact List.cons_ne_nil _ _
    · exact headers.line_ne_nil l hl
  notMem_line := by
    intro l hl
    rcases List.mem_cons.1 hl with rfl | hl
    · cases p <;> decide
    · exact headers.notMem_line l hl

/-! ## The servers -/

/-- What the two `handle_connection` differ in. -/
structure Handler where
  size : Nat
  accepted : Str
  malformed : Option Str

def voiceHandler : Handler where
  size := 16384
  accepted := "HTTP/1.1 200 OK\r\nContent-Length: 0\r\n\r\n".toList
  malformed := some "HTTP/1.1 400 Bad Request\r\nContent-Length: 0\r\n\r\n".toList

def screenHandler : Handler where
  size := 8192
  accepted := "HTTP/1.1 204 No Content\r\nContent-Length: 0\r\n\r\n".toList
  malformed := none

def notFoundResponse : Str := "HTTP/1.1 404 Not Found\r\nContent-Length: 0\r\n\r\n".toList

/-- The answer and the signal found in what the socket holds when it is read. -/
def handleConnection (h : Handler) (received : Bytes) : Option Str × Option SignalMessage :=
  let bytes := received.take h.size
  if bytes = [] then (none, none)
  else
    let request := fromUtf8Lossy bytes
    match splitOnce blankLine request with
    | none => (h.malformed, none)
    | some (_, body) =>
      match SignalPath.parse ((splitWhitespace request)[1]?.getD ['/']) with
      | some path => (some h.accepted, some ⟨path, body⟩)
      | none => (some notFoundResponse, none)

inductive Kind where
  | voice
  | screen
deriving DecidableEq

def Kind.handler : Kind → Handler
  | .voice => voiceHandler
  | .screen => screenHandler

structure Server where
  kind : Kind
  space : Uuid
deriving DecidableEq

/-- `start_voice_server` and `start_screen_share_server`. -/
def Server.port (s : Server) : Nat :=
  match s.kind with
  | .voice => 18100 + s.space.toNat % 1000
  | .screen => 18200 + s.space.toNat % 1000

/-- The port `SignalHandler` is given by the screen servers. -/
def forwardPort : Nat := 18200

/-- The running servers of a machine. A port that is taken cannot be bound again. -/
structure Machine where
  servers : List Server
  nodup : (servers.map Server.port).Nodup

def Machine.at (m : Machine) (port : Nat) : Option Server := m.servers.find? (·.port = port)

theorem Machine.at_port {m : Machine} {s : Server} (h : s ∈ m.servers) : m.at s.port = some s := by
  cases hfind : m.at s.port with
  | none =>
    rw [Machine.at, List.find?_eq_none] at hfind
    exact absurd (hfind s h) (by simp)
  | some t =>
    have ht : t ∈ m.servers := List.mem_of_find?_eq_some hfind
    have hport : t.port = s.port := by simpa using List.find?_some hfind
    rw [List.inj_on_of_nodup_map m.nodup ht h hport]

/-! ## Runs -/

structure Posted where
  server : Server
  message : SignalMessage
deriving DecidableEq

/-- A request that has not been read yet. -/
structure Request where
  signal : Nat
  port : Nat
  message : SignalMessage
  headers : Headers

def Request.bytes (r : Request) : Bytes :=
  (signalHead r.message.path r.headers).request r.message.body

structure Queued where
  signal : Nat
  message : SignalMessage
deriving DecidableEq

structure State where
  posted : List Posted
  requests : List Request
  /-- The signal behind each request the servers have made. -/
  caused : List Nat
  queue : List Queued
  /-- The messages taken from the queue, with the space that took them. -/
  consumed : List (Uuid × Queued)

def init : State := ⟨[], [], [], [], []⟩

inductive Event where
  | post (server : Server) (message : SignalMessage) (headers : Headers)
  /-- A connection is read when `available` bytes of the request are there. `headers`
  are those of a request made in turn. -/
  | read (i available : Nat) (headers : Headers)
  | poll (space : Uuid) (path : SignalPath)

/-- The first message that `poll_signal` finds. -/
def found (s : State) (path : SignalPath) : Option Queued :=
  s.queue.find? (·.message.path = path)

def serve (m : Machine) (s : State) (r : Request) (available : Nat) (headers : Headers) : State :=
  match m.at r.port with
  | none => s
  | some server =>
    match (handleConnection server.kind.handler (r.bytes.take available)).2 with
    | none => s
    | some message =>
      match server.kind with
      | .voice => { s with queue := s.queue ++ [⟨r.signal, message⟩] }
      | .screen =>
        { s with
          requests := s.requests ++ [⟨r.signal, forwardPort, message, headers⟩]
          caused := s.caused ++ [r.signal] }

def step (m : Machine) (s : State) : Event → Option State
  | .post server message headers =>
    if server ∈ m.servers then
      some { s with
        posted := s.posted ++ [⟨server, message⟩]
        requests := s.requests ++ [⟨s.posted.length, server.port, message, headers⟩] }
    else none
  | .read i available headers =>
    match s.requests[i]? with
    | none => none
    | some r => some (serve m { s with requests := s.requests.eraseIdx i } r available headers)
  | .poll space path =>
    match found s path with
    | none => some s
    | some q =>
      some { s with
        queue := s.queue.eraseP (·.message.path = path)
        consumed := s.consumed ++ [(space, q)] }

/-! ## What is expected -/

/-- Where a signal is. -/
def copies (s : State) (n : Nat) : Nat :=
  s.requests.countP (·.signal = n) + s.queue.countP (·.signal = n) +
    s.consumed.countP (·.2.signal = n)

def IsPosted (s : State) (q : Queued) : Prop :=
  ∃ p, s.posted[q.signal]? = some p ∧ q.message = p.message

structure Good (s : State) : Prop where
  /-- A signal causes one more request at the most. -/
  ends : ∀ n, s.caused.count n ≤ 1
  /-- A signal is on its way, or it has been queued once. -/
  once : ∀ n < s.posted.length, copies s n = 1
  queued : ∀ q ∈ s.queue, IsPosted s q
  consumed : ∀ c ∈ s.consumed, ∃ p, s.posted[c.2.signal]? = some p ∧
    c.2.message = p.message ∧ p.server.space = c.1

def Machine.voiceAt (m : Machine) (port : Nat) : Prop :=
  ((m.at port).map (·.kind)) = some .voice

instance (m : Machine) (port : Nat) : Decidable (m.voiceAt port) :=
  inferInstanceAs (Decidable (_ = _))

/-- A step that keeps signals whole and apart. -/
def Sound (m : Machine) (s : State) : Event → Prop
  | .post server _ _ => server.kind = .screen → m.voiceAt forwardPort
  | .read i available _ =>
    ∀ r ∈ s.requests[i]?, ∀ server ∈ m.at r.port,
      r.bytes.length ≤ available ∧ r.bytes.length ≤ server.kind.handler.size
  | .poll space path =>
    ∀ q ∈ found s path, ∀ p ∈ s.posted[q.signal]?, p.server.space = space

instance (m : Machine) (s : State) : ∀ e, Decidable (Sound m s e)
  | .post server _ _ => inferInstanceAs (Decidable (server.kind = .screen → m.voiceAt forwardPort))
  | .read i available _ =>
    inferInstanceAs (Decidable (∀ r ∈ s.requests[i]?, ∀ server ∈ m.at r.port,
      r.bytes.length ≤ available ∧ r.bytes.length ≤ server.kind.handler.size))
  | .poll space path =>
    inferInstanceAs (Decidable (∀ q ∈ found s path, ∀ p ∈ s.posted[q.signal]?,
      p.server.space = space))

/-! ## One read -/

/-- A request that is read as a whole gives its signal. -/
theorem handleConnection_whole {h : Handler} {r : Request} {available : Nat}
    (havailable : r.bytes.length ≤ available) (hsize : r.bytes.length ≤ h.size) :
    handleConnection h (r.bytes.take available) = (some h.accepted, some r.message) := by
  have hbytes : (r.bytes.take available).take h.size = r.bytes := by
    rw [List.take_of_length_le havailable, List.take_of_length_le hsize]
  have htext : fromUtf8Lossy r.bytes =
      (signalHead r.message.path r.headers).text ++ r.message.body := fromUtf8Lossy_utf8 _
  have hstart : (signalHead r.message.path r.headers).text ++ r.message.body =
      "POST".toList ++ ' ' :: (r.message.path.text ++ ' ' :: ("HTTP/1.1".toList ++ crlf ++
        (r.headers.lines.flatMap fun l => l ++ crlf) ++ crlf ++ r.message.body)) := by
    simp [RequestHead.text, signalHead, SignalPath.requestLine]
  have hne : r.bytes ≠ [] := by
    intro hnil
    rw [hnil] at htext
    rw [hstart] at htext
    cases htext
  have hpath : (splitWhitespace (fromUtf8Lossy r.bytes))[1]?.getD ['/'] = r.message.path.text := by
    rw [htext, hstart, splitWhitespace_append (by decide) (forall_mem_of_all (by decide)),
      splitWhitespace_append]
    · rfl
    · cases r.message.path <;> decide
    · cases r.message.path <;> exact forall_mem_of_all (by decide)
  rcases (signalHead r.message.path r.headers).splitOnce_text r.message.body with ⟨before, hsplit⟩
  rw [← htext] at hsplit
  simp only [handleConnection, hbytes, if_neg hne, hsplit, hpath, SignalPath.parse_text]

/-! ## Every run -/

/-- A request goes to the server it was posted to, or from a screen server on to a voice
server. -/
def OnItsWay (m : Machine) (s : State) (p : Posted) (r : Request) : Prop :=
  (p.server ∈ m.servers ∧ r.port = p.server.port ∧ s.caused.count r.signal = 0 ∧
    (p.server.kind = .screen → m.voiceAt forwardPort)) ∨
  (r.port = forwardPort ∧ m.voiceAt forwardPort)

structure Inv (m : Machine) (s : State) : Prop where
  good : Good s
  requests : ∀ r ∈ s.requests, ∃ p, s.posted[r.signal]? = some p ∧ r.message = p.message ∧
    OnItsWay m s p r
  known : ∀ n ∈ s.caused, n < s.posted.length

theorem inv_init (m : Machine) : Inv m init where
  good := by
    refine ⟨fun n => Nat.zero_le _, ?_, ?_, ?_⟩
    · intro n hn
      cases hn
    · intro q hq
      cases hq
    · intro c hc
      cases hc
  requests := by
    intro r hr
    cases hr
  known := by
    intro n hn
    cases hn

variable {m : Machine} {s s' : State}

theorem lt_of_posted {n : Nat} {p : Posted} (h : s.posted[n]? = some p) : n < s.posted.length :=
  (List.getElem?_eq_some_iff.1 h).1

/-- A number that is not given out yet is nowhere. -/
theorem copies_fresh (h : Inv m s) : copies s s.posted.length = 0 := by
  have hrequests : s.requests.countP (·.signal = s.posted.length) = 0 := by
    rw [List.countP_eq_zero]
    intro r hr
    rcases h.requests r hr with ⟨p, hp, -⟩
    have hlt := lt_of_posted hp
    simp only [decide_eq_true_eq]
    omega
  have hqueue : s.queue.countP (·.signal = s.posted.length) = 0 := by
    rw [List.countP_eq_zero]
    intro q hq
    rcases h.good.queued q hq with ⟨p, hp, -⟩
    have hlt := lt_of_posted hp
    simp only [decide_eq_true_eq]
    omega
  have hconsumed : s.consumed.countP (·.2.signal = s.posted.length) = 0 := by
    rw [List.countP_eq_zero]
    intro c hc
    rcases h.good.consumed c hc with ⟨p, hp, -⟩
    have hlt := lt_of_posted hp
    simp only [decide_eq_true_eq]
    omega
  rw [copies, hrequests, hqueue, hconsumed]

theorem inv_post (h : Inv m s) {server : Server} {message : SignalMessage} {headers : Headers}
    (hsound : Sound m s (.post server message headers))
    (hs : step m s (.post server message headers) = some s') : Inv m s' := by
  rw [step] at hs
  split at hs
  · rename_i hmem
    cases hs
    -- a post is appended, so the numbers of the others stay
    have hkeep : ∀ {n : Nat} {p : Posted}, s.posted[n]? = some p →
        (s.posted ++ [⟨server, message⟩])[n]? = some p := by
      intro n p hp
      rw [List.getElem?_append_left (lt_of_posted hp)]
      exact hp
    constructor
    · constructor
      · exact h.good.ends
      · intro n hn
        rw [List.length_append, List.length_singleton] at hn
        -- the new one is on its way once; of the others the count is the same
        by_cases hnew : n = s.posted.length
        · have hfresh := copies_fresh h
          subst hnew
          simp only [copies, List.countP_append, List.countP_singleton, decide_true,
            if_true] at hfresh ⊢
          omega
        · have honce := h.good.once n (by omega)
          simp only [copies, List.countP_append, List.countP_singleton] at honce ⊢
          rw [if_neg (by simpa using Ne.symm hnew)]
          omega
      · intro q hq
        rcases h.good.queued q hq with ⟨p, hp, hq⟩
        exact ⟨p, hkeep hp, hq⟩
      · intro c hc
        rcases h.good.consumed c hc with ⟨p, hp, hc⟩
        exact ⟨p, hkeep hp, hc⟩
    · intro r hr
      rcases List.mem_append.1 hr with hr | hr
      · rcases h.requests r hr with ⟨p, hp, hr⟩
        exact ⟨p, hkeep hp, hr⟩
      · rw [List.mem_singleton] at hr
        subst hr
        have hnone : s.caused.count s.posted.length = 0 := by
          rw [List.count_eq_zero]
          intro hin
          exact absurd (h.known _ hin) (Nat.lt_irrefl _)
        exact ⟨⟨server, message⟩, by simp, rfl, Or.inl ⟨hmem, rfl, hnone, hsound⟩⟩
    · intro n hn
      rw [List.length_append]
      exact Nat.lt_of_lt_of_le (h.known n hn) (Nat.le_add_right _ _)
  · cases hs

theorem inv_poll (h : Inv m s) {space : Uuid} {path : SignalPath}
    (hsound : Sound m s (.poll space path)) (hs : step m s (.poll space path) = some s') :
    Inv m s' := by
  rw [step] at hs
  cases hfound : found s path with
  | none =>
    rw [hfound] at hs
    cases hs
    exact h
  | some q =>
    rw [hfound] at hs
    cases hs
    rcases List.find?_eq_some_iff_append.1 hfound with ⟨hpath, front, back, hqueue, hfront⟩
    have hpath : q.message.path = path := by simpa using hpath
    have herase : s.queue.eraseP (·.message.path = path) = front ++ back := by
      rw [hqueue, List.eraseP_append_right]
      · simp [hpath]
      · intro x hx
        simpa using hfront x hx
    rcases h.good.queued q (by simp [hqueue]) with ⟨p, hp, hmessage⟩
    constructor
    · constructor
      · exact h.good.ends
      · intro n hn
        -- the message moves from the queue to the consumer
        have honce := h.good.once n hn
        simp only [copies, herase, List.countP_append, List.countP_cons, List.countP_nil]
        simp only [copies, hqueue, List.countP_append, List.countP_cons] at honce
        omega
      · intro x hx
        rw [herase] at hx
        apply h.good.queued x
        rw [hqueue]
        rcases List.mem_append.1 hx with hx | hx
        · exact List.mem_append_left _ hx
        · exact List.mem_append_right _ (List.mem_cons_of_mem _ hx)
      · intro c hc
        rcases List.mem_append.1 hc with hc | hc
        · exact h.good.consumed c hc
        · rw [List.mem_singleton] at hc
          subst hc
          exact ⟨p, hp, hmessage, hsound q hfound p hp⟩
    · exact h.requests
    · exact h.known

/-- A request that is read reaches a server, and a voice server if it has been posted on. -/
theorem server_of_onItsWay {p : Posted} {r : Request} (h : OnItsWay m s p r) :
    ∃ server, m.at r.port = some server ∧ (server.kind = .screen →
      m.voiceAt forwardPort ∧ s.caused.count r.signal = 0) := by
  rcases h with ⟨hmem, hport, hnone, hvoice⟩ | ⟨hport, hvoice⟩
  · refine ⟨p.server, ?_, fun hscreen => ⟨hvoice hscreen, hnone⟩⟩
    rw [hport]
    exact Machine.at_port hmem
  · rw [Machine.voiceAt, Option.map_eq_some_iff] at hvoice
    rcases hvoice with ⟨server, hat, hkind⟩
    refine ⟨server, hport ▸ hat, fun hscreen => ?_⟩
    rw [hkind] at hscreen
    cases hscreen

theorem inv_read (h : Inv m s) {i available : Nat} {headers : Headers}
    (hsound : Sound m s (.read i available headers))
    (hs : step m s (.read i available headers) = some s') : Inv m s' := by
  rw [step] at hs
  cases hr : s.requests[i]? with
  | none =>
    rw [hr] at hs
    cases hs
  | some r =>
    rw [hr] at hs
    cases hs
    have hmem : r ∈ s.requests := List.mem_of_getElem? hr
    have hperm : s.requests.Perm (r :: s.requests.eraseIdx i) := by
      rcases List.getElem?_eq_some_iff.1 hr with ⟨hlt, rfl⟩
      exact (List.getElem_cons_eraseIdx_perm hlt).symm
    have hcount : ∀ n, s.requests.countP (·.signal = n) =
        (s.requests.eraseIdx i).countP (·.signal = n) + if r.signal = n then 1 else 0 := by
      intro n
      rw [hperm.countP_eq, List.countP_cons]
      simp
    have hrest : ∀ x ∈ s.requests.eraseIdx i, x ∈ s.requests := fun x hx => List.mem_of_mem_eraseIdx hx
    rcases h.requests r hmem with ⟨p, hp, hmessage, hway⟩
    rcases server_of_onItsWay hway with ⟨server, hat, hscreen⟩
    rcases hsound r hr server hat with ⟨havailable, hsize⟩
    have hhandled := handleConnection_whole havailable hsize
    simp only [serve, hat, hhandled]
    cases hkind : server.kind with
    | voice =>
      constructor
      · constructor
        · exact h.good.ends
        · intro n hn
          have honce := h.good.once n hn
          simp only [copies, hcount n, List.countP_append, List.countP_singleton,
            decide_eq_true_eq] at honce ⊢
          omega
        · intro q hq
          rcases List.mem_append.1 hq with hq | hq
          · exact h.good.queued q hq
          · rw [List.mem_singleton] at hq
            subst hq
            exact ⟨p, hp, hmessage⟩
        · exact h.good.consumed
      · exact fun x hx => h.requests x (hrest x hx)
      · exact h.known
    | screen =>
      rcases hscreen hkind with ⟨hvoice, hnone⟩
      -- no other request carries this signal
      have halone : ∀ x ∈ s.requests.eraseIdx i, x.signal ≠ r.signal := by
        intro x hx heq
        have honce := h.good.once r.signal (lt_of_posted hp)
        have hpos : 0 < (s.requests.eraseIdx i).countP (·.signal = r.signal) :=
          List.countP_pos_iff.2 ⟨x, hx, by simpa using heq⟩
        rw [copies, hcount, if_pos rfl] at honce
        omega
      constructor
      · constructor
        · intro n
          rw [List.count_append, List.count_singleton]
          by_cases heq : r.signal = n
          · rw [← heq, hnone]
            simp
          · simpa [heq] using h.good.ends n
        · intro n hn
          have honce := h.good.once n hn
          simp only [copies, hcount n, List.countP_append, List.countP_singleton,
            decide_eq_true_eq] at honce ⊢
          omega
        · exact h.good.queued
        · exact h.good.consumed
      · intro x hx
        rcases List.mem_append.1 hx with hx | hx
        · rcases h.requests x (hrest x hx) with ⟨px, hpx, hmx, hwx⟩
          refine ⟨px, hpx, hmx, ?_⟩
          rcases hwx with ⟨hin, hport, hzero, hfwd⟩ | hfwd
          · refine Or.inl ⟨hin, hport, ?_, hfwd⟩
            rw [List.count_append, hzero, List.count_singleton]
            simp [Ne.symm (halone x hx)]
          · exact Or.inr hfwd
        · rw [List.mem_singleton] at hx
          subst hx
          exact ⟨p, hp, hmessage, Or.inr ⟨rfl, hvoice⟩⟩
      · intro n hn
        rcases List.mem_append.1 hn with hn | hn
        · exact h.known n hn
        · rw [List.mem_singleton.1 hn]
          exact lt_of_posted hp

theorem inv_step {e : Event} (h : Inv m s) (hsound : Sound m s e) (hs : step m s e = some s') :
    Inv m s' := by
  cases e with
  | post server message headers => exact inv_post h hsound hs
  | read i available headers => exact inv_read h hsound hs
  | poll space path => exact inv_poll h hsound hs

/-- Signals are queued once, as they were posted, and stay in their space, in every run
that reads whole requests, forwards to a voice server and polls in the right order. -/
theorem signals_stay (m : Machine) (events : List Event)
    (hsound : Along (step m) (Sound m) init events) : Always (step m) Good init events := by
  apply always_of_along (fun s (h : Inv m s) => h.good) _ (inv_init m) hsound
  intro s e s' h hsound hs
  exact inv_step h hsound hs

theorem noHeaders_ne_nil : ∀ l ∈ ([] : List Str), l ≠ [] := fun _ h => absurd h List.not_mem_nil

theorem noHeaders_notMem : ∀ l ∈ ([] : List Str), '\r' ∉ l := fun _ h => absurd h List.not_mem_nil

def noHeaders : Headers := ⟨[], noHeaders_ne_nil, noHeaders_notMem⟩

def twoServers : List Server := [⟨.voice, 1⟩, ⟨.screen, 1⟩, ⟨.voice, 100⟩, ⟨.screen, 100⟩]

theorem twoServers_nodup : (twoServers.map Server.port).Nodup := by decide

/-- The voice server of the second space has the port that screen servers post to. -/
def twoSpaces : Machine := ⟨twoServers, twoServers_nodup⟩

def answerMessage : SignalMessage := ⟨.answer, "{}".toList⟩

theorem signals_stay_forwarded : Always (step twoSpaces) Good init
    [.post ⟨.screen, 1⟩ answerMessage noHeaders, .read 0 100 noHeaders, .read 0 100 noHeaders,
      .poll 1 .answer] :=
  signals_stay twoSpaces _ (by decide)

/-- The answer posted to one space is taken by the other. -/
theorem taken_by_another_space : ¬ Always (step twoSpaces) Good init
    [.post ⟨.voice, 1⟩ answerMessage noHeaders, .read 0 100 noHeaders, .poll 100 .answer] :=
  not_always_of_run
    (Q := fun s => ∀ c ∈ s.consumed, ∀ p ∈ s.posted[c.2.signal]?, p.server.space = c.1)
    (fun s h c hc p hp => by
      rcases h.consumed c hc with ⟨p', hp', -, hspace⟩
      obtain rfl : p' = p := Option.some.inj (hp'.symm.trans hp)
      exact hspace)
    (by decide)

end HomeTier.Signalling
