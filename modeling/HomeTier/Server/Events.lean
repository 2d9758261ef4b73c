import HomeTier.Lib.Feed
import HomeTier.Lib.Json
import HomeTier.Lib.Trace

/-! # Events for the clients of the server

Without a window, pages are told what happens over WebSockets. Every task of
`src-tauri/src/server/routes.rs`, the chat listener of `src-tauri/src/lib.rs`
and the clients themselves broadcast to one bus (`src-tauri/src/server/event.rs`);
a socket (`src-tauri/src/server/ws.rs`) is sent the events of its space, or all
of them.

A broadcast takes two locks after each other, so a task may be between them
while others go on (`St.busy`). While the second one is held an event is put
into the queues of all subscribers, which is one step here, as every queue is
emptied by its own socket alone. What is read from a socket is a text and what
`serde_json` makes of it; whether a frame can still be sent is up to the run.
-/

namespace HomeTier.Events

open Lib

/-! ## Events and frames -/

inductive EventType where
  | spaceCreated
  | spaceDeleted
  | spaceUpdated
  | memberJoined
  | memberLeft
  | messageSent
  | fileShared
  | screenShareStarted
  | screenShareStopped
  | voiceCallStarted
  | voiceCallStopped
  | peerConnected
  | peerDisconnected
  | configChanged
  | systemLog
  | custom (name : Str)

structure ServerEvent where
  eventType : EventType
  spaceId : Option Str
  payload : Json
  timestamp : Int

inductive WsMessage where
  | subscribe (spaceId : Str)
  | unsubscribe (spaceId : Str)
  | signal (spaceId : Str) (payload : Json) (target : Option Str)
  | heartbeat
  | event (event : ServerEvent)
  | connected (spaceId : Str)
  | error (message : Str)

/-- What a client is sent. -/
inductive Frame where
  | json (m : WsMessage)
  | pong

def Frame.event? : Frame → Option ServerEvent
  | .json (.event e) => some e
  | _ => none

/-- What comes from a client. -/
inductive Incoming where
  | text (t : Str)
  | close
  | error
  | ended
  | other

/-- The event that a signal becomes. Nobody asks whether the client is in the space. -/
def signalEvent (spaceId : Str) (payload : Json) (target : Option Str) (now : Int) :
    ServerEvent where
  eventType := .custom "signal".toList
  spaceId := some spaceId
  payload := .obj [("payload".toList, payload),
    ("target".toList, match target with
      | none => .null
      | some t => .str t)]
  timestamp := now

/-! ## Sockets -/

/-- One call of `handle_socket`. -/
structure Socket where
  spaceId : Option Str
  subscribed : Bool
  /-- The queue of the subscription, until the task that empties it has ended. -/
  rx : Option (List ServerEvent)
  /-- The task that reads from the client. -/
  reading : Bool
  sent : List Frame
  /-- How many events had been delivered when it subscribed. -/
  since : Nat
  /-- How many had been when the task that sends ended. -/
  endedAt : Option Nat

/-- `space_id.is_none() || event.space_id.as_deref() == space_id.as_deref()` -/
def wants (spaceId : Option Str) (e : ServerEvent) : Bool :=
  spaceId.isNone || e.spaceId = spaceId

namespace Socket

/-- The events that the client was sent. -/
def events (k : Socket) : List ServerEvent := k.sent.filterMap Frame.event?

/-- Only the endpoint of one space confirms the connection. -/
def opened (spaceId : Option Str) (ok : Bool) : Socket where
  spaceId := spaceId
  subscribed := false
  rx := none
  reading := false
  sent := match spaceId with
    | some sid => if ok then [.json (.connected sid)] else []
    | none => []
  since := 0
  endedAt := none

def subscribe (now : Nat) (k : Socket) : Socket :=
  { k with subscribed := true, rx := some [], reading := true, since := now }

/-- `tx.send` -/
def push (e : ServerEvent) (k : Socket) : Socket := { k with rx := k.rx.map (· ++ [e]) }

/-- One round of the task that sends. It ends when a frame cannot be sent. -/
def recv (now : Nat) (ok : Bool) (k : Socket) : Option Socket :=
  match k.rx with
  | some (e :: q) =>
    if wants k.spaceId e then
      if ok then some { k with rx := some q, sent := k.sent ++ [.json (.event e)] }
      else some { k with rx := none, endedAt := some now }
    else some { k with rx := some q }
  | _ => none

end Socket

/-! ## The bus -/

/-- Who broadcasts: a task of the server, or the reader of a socket. -/
inductive Caller where
  | task (n : Nat)
  | reader (i : Nat)
deriving DecidableEq

structure St where
  recent : List ServerEvent
  subscribers : List Nat
  sockets : Nat → Option Socket
  /-- The event a caller has remembered and not yet delivered. -/
  busy : Caller → Option ServerEvent
  /-- All that was remembered. -/
  remembered : List (Caller × ServerEvent)
  /-- All that was delivered. -/
  log : List (Caller × ServerEvent)

def init : St where
  recent := []
  subscribers := []
  sockets := fun _ => none
  busy := fun _ => none
  remembered := []
  log := []

namespace St

variable (s : St)

def put (i : Nat) (k : Socket) : St := { s with sockets := Function.update s.sockets i (some k) }

/-- The first half of `broadcast`. -/
def remember (maxRecent : Nat) (c : Caller) (e : ServerEvent) : St :=
  let recent := s.recent ++ [e]
  { s with
    recent := if maxRecent < recent.length then recent.tail else recent
    busy := Function.update s.busy c (some e)
    remembered := s.remembered ++ [(c, e)] }

/-- The second half. A subscriber whose queue is gone is dropped. -/
def deliver (c : Caller) (e : ServerEvent) : St :=
  { s with
    sockets := fun i => if i ∈ s.subscribers then (s.sockets i).map (·.push e) else s.sockets i
    subscribers := s.subscribers.filter fun i => (s.sockets i).any (·.rx.isSome)
    busy := Function.update s.busy c none
    log := s.log ++ [(c, e)] }

def subscribe (i : Nat) (k : Socket) : St :=
  { s.put i (k.subscribe s.log.length) with subscribers := s.subscribers ++ [i] }

/-- One round of the task that reads. `Subscribe` and the rest do nothing. -/
def receive (parse : Str → Option WsMessage) (maxRecent i : Nat) (k : Socket) (now : Int)
    (ok : Bool) : Incoming → St
  | .text t =>
    match parse t with
    | some (.signal spaceId payload target) =>
      s.remember maxRecent (.reader i) (signalEvent spaceId payload target now)
    | some .heartbeat => s.put i { k with sent := if ok then k.sent ++ [.pong] else k.sent }
    | _ => s
  | .close | .error | .ended => s.put i { k with reading := false }
  | .other => s

end St

inductive Act where
  | connect (i : Nat) (spaceId : Option Str) (ok : Bool)
  | subscribe (i : Nat)
  | broadcast (n : Nat) (e : ServerEvent)
  | deliver (c : Caller)
  | recv (i : Nat) (ok : Bool)
  | receive (i : Nat) (m : Incoming) (now : Int) (ok : Bool)

/-- A reader waits for its broadcast before it reads on. -/
def step (parse : Str → Option WsMessage) (maxRecent : Nat) (s : St) : Act → Option St
  | .connect i spaceId ok =>
    match s.sockets i with
    | none => some (s.put i (.opened spaceId ok))
    | some _ => none
  | .subscribe i => do
    let k ← s.sockets i
    if k.subscribed then none else some (s.subscribe i k)
  | .broadcast n e =>
    match s.busy (.task n) with
    | none => some (s.remember maxRecent (.task n) e)
    | some _ => none
  | .deliver c => (s.busy c).map (s.deliver c)
  | .recv i ok => do
    let k ← s.sockets i
    (k.recv s.log.length ok).map (s.put i)
  | .receive i m now ok => do
    let k ← s.sockets i
    if k.reading ∧ (s.busy (.reader i)).isNone then some (s.receive parse maxRecent i k now ok m)
    else none

/-! ## What a step does -/

/-- A step changes one socket, remembers an event or delivers one. -/
inductive Effect (maxRecent : Nat) (s : St) : Act → St → Prop
  | opened {i : Nat} {spaceId : Option Str} {ok : Bool} (hfree : s.sockets i = none) :
      Effect maxRecent s (.connect i spaceId ok) (s.put i (.opened spaceId ok))
  | subscribed {i : Nat} {k : Socket} (hk : s.sockets i = some k) (hnew : k.subscribed = false) :
      Effect maxRecent s (.subscribe i) (s.subscribe i k)
  | remembered {a : Act} {c : Caller} {e : ServerEvent} (hidle : s.busy c = none) :
      Effect maxRecent s a (s.remember maxRecent c e)
  | delivered {c : Caller} {e : ServerEvent} (hbusy : s.busy c = some e) :
      Effect maxRecent s (.deliver c) (s.deliver c e)
  | sent {i : Nat} {ok : Bool} {k k' : Socket} (hk : s.sockets i = some k)
      (hrecv : k.recv s.log.length ok = some k') : Effect maxRecent s (.recv i ok) (s.put i k')
  | read {a : Act} {i : Nat} {k k' : Socket} (hk : s.sockets i = some k)
      (hsame : k' = { k with reading := k'.reading, sent := k'.sent })
      (hevents : k'.events = k.events) : Effect maxRecent s a (s.put i k')
  | unchanged {a : Act} : Effect maxRecent s a s

variable {parse : Str → Option WsMessage} {maxRecent : Nat} {s s' : St} {a : Act}

variable {k k' : Socket} {i : Nat}

theorem effect_receive (hk : s.sockets i = some k)
    (hidle : s.busy (.reader i) = none) (now : Int) (ok : Bool) (m : Incoming) :
    Effect maxRecent s a (s.receive parse maxRecent i k now ok m) := by
  have hstop : Effect maxRecent s a (s.put i { k with reading := false }) := .read hk rfl rfl
  cases m with
  | text t =>
    show Effect maxRecent s a (match parse t with
      | some (.signal spaceId payload target) =>
        s.remember maxRecent (.reader i) (signalEvent spaceId payload target now)
      | some .heartbeat => s.put i { k with sent := if ok then k.sent ++ [.pong] else k.sent }
      | _ => s)
    split
    · exact .remembered hidle
    · refine .read hk rfl ?_
      -- a pong is no event
      cases ok with
      | true => simp [Socket.events, Frame.event?]
      | false => rfl
    · exact .unchanged
  | close => exact hstop
  | error => exact hstop
  | ended => exact hstop
  | other => exact .unchanged

theorem step_cases (h : step parse maxRecent s a = some s') : Effect maxRecent s a s' := by
  cases a with
  | connect i spaceId ok =>
    simp only [step] at h
    split at h
    · rename_i hfree
      obtain rfl := Option.some.inj h
      exact .opened hfree
    · cases h
  | subscribe i =>
    rcases Option.bind_eq_some_iff.1 h with ⟨k, hk, h⟩
    split at h
    · cases h
    · rename_i hnew
      obtain rfl := Option.some.inj h
      exact .subscribed hk (Bool.eq_false_iff.2 hnew)
  | broadcast n e =>
    simp only [step] at h
    split at h
    · rename_i hidle
      obtain rfl := Option.some.inj h
      exact .remembered hidle
    · cases h
  | deliver c =>
    rcases Option.map_eq_some_iff.1 h with ⟨e, hbusy, rfl⟩
    exact .delivered hbusy
  | recv i ok =>
    rcases Option.bind_eq_some_iff.1 h with ⟨k, hk, h⟩
    rcases Option.map_eq_some_iff.1 h with ⟨k', hrecv, rfl⟩
    exact .sent hk hrecv
  | receive i m now ok =>
    rcases Option.bind_eq_some_iff.1 h with ⟨k, hk, h⟩
    split at h
    · rename_i hready
      obtain rfl := Option.some.inj h
      exact effect_receive hk (Option.isNone_iff_eq_none.1 hready.2) now ok m
    · cases h

/-! ## Callers -/

/-- What one caller has in a log. -/
def of (c : Caller) (l : List (Caller × ServerEvent)) : List ServerEvent :=
  (l.filter (·.1 = c)).map (·.2)

theorem of_concat (c c' : Caller) (e : ServerEvent) (l : List (Caller × ServerEvent)) :
    of c (l ++ [(c', e)]) = of c l ++ if c' = c then [e] else [] := by
  by_cases hc : c' = c
  · simp [of, hc]
  · simp [of, hc]

/-- The memory holds the last events, and each caller is at most one event behind. -/
structure Kept (maxRecent : Nat) (s : St) : Prop where
  recent : s.recent = (s.remembered.map (·.2)).rtake maxRecent
  behind : ∀ c, of c s.log ++ (s.busy c).toList = of c s.remembered

theorem kept_init : Kept maxRecent init where
  recent := List.rtake_nil maxRecent |>.symm
  behind _ := rfl

/-- One event more, and one less if there were enough. -/
theorem rtake_concat (l : List ServerEvent) (e : ServerEvent) (n : Nat) :
    (l ++ [e]).rtake n =
      if n < (l.rtake n ++ [e]).length then (l.rtake n ++ [e]).tail else l.rtake n ++ [e] := by
  have hevict : evict n (l.rtake n ++ [e]) = (l ++ [e]).rtake n := by
    rw [evict_eq_rtake, rtake_append, rtake_append l, rtake_rtake]
    congr 2
    simp only [List.length_cons, List.length_nil]
    omega
  rw [← hevict]
  have hlen : (l.rtake n).length ≤ n := by
    rw [length_rtake]
    exact Nat.min_le_left _ _
  split
  · rename_i hmore
    cases hl : l.rtake n ++ [e] with
    | nil => rfl
    | cons x rest =>
      have hlength : (l.rtake n).length + 1 = rest.length + 1 := by
        simpa using congrArg List.length hl
      rw [hl, List.length_cons] at hmore
      rw [evict, if_pos hmore, evict_eq_rtake, List.tail_cons]
      exact rtake_of_length_le (by omega)
  · rename_i hfits
    rw [evict_eq_rtake]
    exact rtake_of_length_le (Nat.le_of_not_lt hfits)

theorem kept_step (hkept : Kept maxRecent s) (h : step parse maxRecent s a = some s') :
    Kept maxRecent s' := by
  have hsame : ∀ i k, Kept maxRecent (s.put i k) := fun _ _ => ⟨hkept.recent, hkept.behind⟩
  cases step_cases h with
  | opened _ => exact hsame _ _
  | subscribed _ _ => exact ⟨hkept.recent, hkept.behind⟩
  | sent _ _ => exact hsame _ _
  | read _ _ _ => exact hsame _ _
  | unchanged => exact hkept
  | @remembered _ c e hidle =>
    constructor
    · show (if maxRecent < (s.recent ++ [e]).length then (s.recent ++ [e]).tail
        else s.recent ++ [e]) = ((s.remembered ++ [(c, e)]).map (·.2)).rtake maxRecent
      rw [List.map_append, List.map_singleton, rtake_concat, ← hkept.recent]
    · intro c'
      show of c' s.log ++ (Function.update s.busy c (some e) c').toList =
        of c' (s.remembered ++ [(c, e)])
      rw [of_concat, ← hkept.behind]
      by_cases hc : c = c'
      · subst hc
        rw [Function.update_self, if_pos rfl, hidle]
        simp
      · rw [Function.update_of_ne (Ne.symm hc), if_neg hc, List.append_nil]
  | @delivered c e hbusy =>
    refine ⟨hkept.recent, ?_⟩
    intro c'
    show of c' (s.log ++ [(c, e)]) ++ (Function.update s.busy c none c').toList = of c' s.remembered
    rw [of_concat]
    by_cases hc : c = c'
    · subst hc
      have hbehind := hkept.behind c
      rw [hbusy] at hbehind
      rw [Function.update_self, if_pos rfl, ← hbehind]
      simp
    · rw [Function.update_of_ne (Ne.symm hc), if_neg hc, List.append_nil]
      exact hkept.behind c'

/-- In every run the events of one caller are delivered in the order in which it broadcast
them, all but the one it is busy with, and the memory holds the last ones that were
broadcast, in this order. -/
theorem callers_in_order (as : List Act) (s : St)
    (hrun : run (step parse maxRecent) init as = some s) :
    s.recent = (s.remembered.map (·.2)).rtake maxRecent ∧
      ∀ c, of c s.log ++ (s.busy c).toList = of c s.remembered := by
  have hkept : Kept maxRecent s :=
    run_preserves (fun _ _ _ => kept_step) kept_init hrun
  exact ⟨hkept.recent, hkept.behind⟩

/-! ## Feeds -/

/-- What was delivered since the socket subscribed and is for its space. -/
def St.stream (s : St) (k : Socket) : List ServerEvent :=
  ((s.log.drop k.since).map (·.2)).filter (wants k.spaceId)

/-- What holds of a socket. -/
structure Fed (s : St) (i : Nat) (k : Socket) : Prop where
  early : k.subscribed = false →
    k.rx = none ∧ k.endedAt = none ∧ k.events = [] ∧ i ∉ s.subscribers
  since_le : k.since ≤ s.log.length
  whole : ∀ q, k.rx = some q → k.events ++ q.filter (wants k.spaceId) = s.stream k
  cut : k.events <+: s.stream k
  ended : k.subscribed = true → (k.rx = none ↔ k.endedAt.isSome = true)
  ended_le : ∀ n, k.endedAt = some n → n ≤ s.log.length
  held : k.subscribed = true → (i ∈ s.subscribers ↔
    k.endedAt = none ∨ k.endedAt = some s.log.length)

def Inv (s : St) : Prop :=
  (∀ i k, s.sockets i = some k → Fed s i k) ∧ ∀ i ∈ s.subscribers, ∃ k, s.sockets i = some k

theorem inv_init : Inv init := by
  constructor
  · intro i k hk
    cases hk
  · intro i hi
    cases hi

/-- A socket is fed from the log and from being subscribed. -/
theorem Fed.congr (h : Fed s i k) (hlog : s'.log = s.log)
    (hsub : i ∈ s'.subscribers ↔ i ∈ s.subscribers) : Fed s' i k where
  early hnew := by
    obtain ⟨hrx, hended, hevents, hmem⟩ := h.early hnew
    exact ⟨hrx, hended, hevents, fun hi => hmem (hsub.1 hi)⟩
  since_le := by
    rw [hlog]
    exact h.since_le
  whole q hq := by
    rw [h.whole q hq, St.stream, St.stream, hlog]
  cut := by
    have hcut := h.cut
    rwa [St.stream, ← hlog] at hcut
  ended := h.ended
  ended_le := by
    rw [hlog]
    exact h.ended_le
  held hk := by
    rw [hsub, hlog]
    exact h.held hk

/-- A step of one socket leaves the others alone. -/
theorem inv_put (hinv : Inv s) (hk : Fed s i k) : Inv (s.put i k) := by
  constructor
  · intro j k' hj
    have hj : Function.update s.sockets i (some k) j = some k' := hj
    by_cases hij : j = i
    · subst hij
      rw [Function.update_self] at hj
      obtain rfl := Option.some.inj hj
      exact hk.congr rfl Iff.rfl
    · rw [Function.update_of_ne hij] at hj
      exact (hinv.1 j k' hj).congr rfl Iff.rfl
  · intro j hj
    show ∃ k', Function.update s.sockets i (some k) j = some k'
    by_cases hij : j = i
    · subst hij
      exact ⟨k, Function.update_self ..⟩
    · rw [Function.update_of_ne hij]
      exact hinv.2 j hj

theorem fed_opened (hinv : Inv s) (hfree : s.sockets i = none) (spaceId : Option Str)
    (ok : Bool) : Fed s i (.opened spaceId ok) := by
  have hevents : (Socket.opened spaceId ok).events = [] := by
    cases spaceId with
    | none => rfl
    | some sid =>
      cases ok with
      | true => rfl
      | false => rfl
  constructor
  · intro _
    refine ⟨rfl, rfl, hevents, ?_⟩
    intro hi
    rcases hinv.2 i hi with ⟨k, hk⟩
    rw [hfree] at hk
    cases hk
  · exact Nat.zero_le _
  · intro q hq
    cases hq
  · rw [hevents]
    exact List.nil_prefix
  · intro hnew
    cases hnew
  · intro n hn
    cases hn
  · intro hnew
    cases hnew

theorem inv_subscribe (hinv : Inv s) (hk : s.sockets i = some k)
    (hnew : k.subscribed = false) : Inv (s.subscribe i k) := by
  obtain ⟨-, hended, hevents, -⟩ := (hinv.1 i k hk).early hnew
  have hevents : (k.subscribe s.log.length).events = [] := hevents
  -- nothing is sent behind the point where the client subscribes
  have hstream : (s.subscribe i k).stream (k.subscribe s.log.length) = [] := by
    show ((s.log.drop s.log.length).map _).filter _ = []
    rw [List.drop_length]
    rfl
  constructor
  · intro j k' hj
    have hj : Function.update s.sockets i (some (k.subscribe s.log.length)) j = some k' := hj
    -- the client that subscribes, and the others
    by_cases hij : j = i
    · subst hij
      rw [Function.update_self] at hj
      obtain rfl := Option.some.inj hj
      constructor
      · intro hfalse
        cases hfalse
      · exact Nat.le_refl _
      · intro q hq
        obtain rfl : [] = q := Option.some.inj hq
        rw [hevents, hstream]
        rfl
      · rw [hevents]
        exact List.nil_prefix
      · intro _
        refine iff_of_false (fun hrx => by cases hrx) ?_
        show ¬ k.endedAt.isSome = true
        rw [hended]
        exact Bool.false_ne_true
      · intro n hn
        have hn : k.endedAt = some n := hn
        rw [hended] at hn
        cases hn
      · intro _
        exact iff_of_true (List.mem_append_right _ List.mem_cons_self) (.inl hended)
    · rw [Function.update_of_ne hij] at hj
      refine (hinv.1 j k' hj).congr rfl ?_
      show j ∈ s.subscribers ++ [i] ↔ _
      simp [hij]
  · intro j hj
    have hj : j ∈ s.subscribers ++ [i] := hj
    show ∃ k', Function.update s.sockets i _ j = some k'
    by_cases hij : j = i
    · subst hij
      exact ⟨_, Function.update_self ..⟩
    · rw [Function.update_of_ne hij]
      refine hinv.2 j ?_
      simpa [hij] using hj

theorem stream_deliver (h : k.since ≤ s.log.length) (c : Caller) (e : ServerEvent) :
    (s.deliver c e).stream k = s.stream k ++ [e].filter (wants k.spaceId) := by
  show (((s.log ++ [(c, e)]).drop k.since).map (·.2)).filter _ = _
  rw [List.drop_append_of_le_length h, List.map_append, List.filter_append]
  rfl

/-- A subscriber is dropped if its task has ended. -/
theorem mem_subscribers_deliver (hk : s.sockets i = some k) (c : Caller) (e : ServerEvent) :
    i ∈ (s.deliver c e).subscribers ↔ i ∈ s.subscribers ∧ k.rx.isSome = true := by
  show i ∈ s.subscribers.filter (fun i => (s.sockets i).any (·.rx.isSome)) ↔ _
  rw [List.mem_filter, hk, Option.any_some]

theorem inv_deliver (hinv : Inv s) (c : Caller) (e : ServerEvent) : Inv (s.deliver c e) := by
  have hlength : (s.deliver c e).log.length = s.log.length + 1 := List.length_append
  constructor
  · intro i k' hi
    have hi : (if i ∈ s.subscribers then (s.sockets i).map (·.push e) else s.sockets i) =
      some k' := hi
    split at hi
    · -- a subscriber gets the event if its queue is there
      rename_i hmem
      rcases Option.map_eq_some_iff.1 hi with ⟨k, hk, rfl⟩
      have hfed := hinv.1 i k hk
      have hsub : k.subscribed = true := by
        by_contra hnew
        exact (hfed.early (Bool.eq_false_iff.2 hnew)).2.2.2 hmem
      have hstream : (s.deliver c e).stream (k.push e) =
          s.stream k ++ [e].filter (wants k.spaceId) := stream_deliver hfed.since_le c e
      constructor
      · intro hnew
        have hnew : k.subscribed = false := hnew
        rw [hsub] at hnew
        cases hnew
      · rw [hlength]
        exact Nat.le_succ_of_le hfed.since_le
      · intro q hq
        rcases Option.map_eq_some_iff.1 hq with ⟨q₀, hq₀, rfl⟩
        show k.events ++ (q₀ ++ [e]).filter (wants k.spaceId) = _
        rw [hstream, List.filter_append, ← List.append_assoc, hfed.whole q₀ hq₀]
      · rw [hstream]
        exact hfed.cut.trans (List.prefix_append _ _)
      · intro _
        show k.rx.map (· ++ [e]) = none ↔ _
        rw [Option.map_eq_none_iff]
        exact hfed.ended hsub
      · intro n hn
        rw [hlength]
        exact Nat.le_succ_of_le (hfed.ended_le n hn)
      · intro _
        rw [mem_subscribers_deliver hk, hlength]
        show _ ↔ k.endedAt = none ∨ k.endedAt = some (s.log.length + 1)
        have hended := hfed.ended hsub
        rcases (hfed.held hsub).1 hmem with hnone | hnow
        · rw [hnone] at hended ⊢
          have hrx : k.rx.isSome = true := by
            rw [Option.isSome_iff_ne_none]
            intro h
            exact Bool.false_ne_true (hended.1 h)
          exact iff_of_true ⟨hmem, hrx⟩ (.inl rfl)
        · -- its task has ended since the last delivery, which shows now
          rw [hnow] at hended ⊢
          have hrx : k.rx = none := hended.2 rfl
          refine iff_of_false ?_ ?_
          · rw [hrx]
            rintro ⟨-, h⟩
            cases h
          · rintro (h | h)
            · cases h
            · have := Option.some.inj h
              omega
    · -- who is no subscriber has nothing to lose
      rename_i hmem
      have hfed := hinv.1 i k' hi
      have hstream : (s.deliver c e).stream k' = s.stream k' ++ [e].filter (wants k'.spaceId) :=
        stream_deliver hfed.since_le c e
      have hgone : i ∉ (s.deliver c e).subscribers := fun h =>
        hmem ((mem_subscribers_deliver hi c e).1 h).1
      have hold : k'.subscribed = true → ∃ n, k'.endedAt = some n ∧ n ≠ s.log.length := by
        intro hsub
        have hnot := mt (hfed.held hsub).2 hmem
        rw [not_or] at hnot
        rcases Option.ne_none_iff_exists'.1 hnot.1 with ⟨n, hn⟩
        refine ⟨n, hn, ?_⟩
        rintro rfl
        exact hnot.2 hn
      constructor
      · intro hnew
        obtain ⟨hrx, hended, hevents, -⟩ := hfed.early hnew
        exact ⟨hrx, hended, hevents, hgone⟩
      · rw [hlength]
        exact Nat.le_succ_of_le hfed.since_le
      · intro q hq
        exfalso
        cases hsub : k'.subscribed with
        | false =>
          rw [(hfed.early hsub).1] at hq
          cases hq
        | true =>
          rcases hold hsub with ⟨n, hn, -⟩
          have hrx := (hfed.ended hsub).2 (by rw [hn]; rfl)
          rw [hrx] at hq
          cases hq
      · rw [hstream]
        exact hfed.cut.trans (List.prefix_append _ _)
      · exact hfed.ended
      · intro n hn
        rw [hlength]
        exact Nat.le_succ_of_le (hfed.ended_le n hn)
      · intro hsub
        rcases hold hsub with ⟨n, hn, -⟩
        refine iff_of_false hgone ?_
        rw [hn, hlength]
        rintro (h | h)
        · cases h
        · have heq := Option.some.inj h
          have hle := hfed.ended_le n hn
          omega
  · intro i hi
    have hold : i ∈ s.subscribers := List.mem_of_mem_filter hi
    rcases hinv.2 i hold with ⟨k, hk⟩
    refine ⟨k.push e, ?_⟩
    show (if i ∈ s.subscribers then (s.sockets i).map (·.push e) else s.sockets i) = _
    rw [if_pos hold, hk]
    rfl

/-- What a round of the task that sends does. -/
theorem recv_cases {now : Nat} {ok : Bool} (h : k.recv now ok = some k') :
    ∃ e q, k.rx = some (e :: q) ∧
      ((wants k.spaceId e = false ∧ k' = { k with rx := some q }) ∨
       (wants k.spaceId e = true ∧ ok = true ∧
         k' = { k with rx := some q, sent := k.sent ++ [.json (.event e)] }) ∨
       (wants k.spaceId e = true ∧ ok = false ∧
         k' = { k with rx := none, endedAt := some now })) := by
  unfold Socket.recv at h
  split at h
  · rename_i e q hrx
    refine ⟨e, q, hrx, ?_⟩
    split at h
    · rename_i hwants
      cases ok with
      | true => exact .inr (.inl ⟨hwants, rfl, (Option.some.inj h).symm⟩)
      | false => exact .inr (.inr ⟨hwants, rfl, (Option.some.inj h).symm⟩)
    · rename_i hwants
      exact .inl ⟨Bool.eq_false_iff.2 hwants, (Option.some.inj h).symm⟩
  · cases h

/-- A socket with a queue is subscribed. -/
theorem Fed.subscribed (hfed : Fed s i k) {q : List ServerEvent}
    (hq : k.rx = some q) : k.subscribed = true := by
  by_contra hnew
  rw [(hfed.early (Bool.eq_false_iff.2 hnew)).1] at hq
  cases hq

/-- What was sent and what waits is all that is there for it. -/
theorem fed_taken (hfed : Fed s i k) {p q : List ServerEvent}
    {sent : List Frame} (hrx : k.rx = some p)
    (hsame : sent.filterMap Frame.event? ++ q.filter (wants k.spaceId) =
      k.events ++ p.filter (wants k.spaceId)) :
    Fed s i { k with rx := some q, sent := sent } := by
  have hsub := hfed.subscribed hrx
  have hwhole := hfed.whole p hrx
  constructor
  · intro hnew
    have hnew : k.subscribed = false := hnew
    rw [hsub] at hnew
    cases hnew
  · exact hfed.since_le
  · intro q' hq
    obtain rfl : q = q' := Option.some.inj hq
    exact hsame.trans hwhole
  · refine ⟨q.filter (wants k.spaceId), ?_⟩
    exact hsame.trans hwhole
  · intro _
    have hended := hfed.ended hsub
    rw [hrx] at hended
    exact iff_of_false (fun h => by cases h) fun h => by cases hended.2 h
  · exact hfed.ended_le
  · exact hfed.held

theorem fed_recv {ok : Bool} (hfed : Fed s i k)
    (h : k.recv s.log.length ok = some k') : Fed s i k' := by
  rcases recv_cases h with ⟨e, q, hrx, ⟨hwants, rfl⟩ | ⟨hwants, -, rfl⟩ | ⟨-, -, rfl⟩⟩
  · -- an event of another space
    refine fed_taken hfed hrx ?_
    rw [List.filter_cons_of_neg (Bool.eq_false_iff.1 hwants)]
    rfl
  · refine fed_taken hfed hrx ?_
    rw [List.filter_cons_of_pos hwants, List.filterMap_append, List.append_assoc]
    rfl
  · -- the task has ended and its queue is gone
    have hsub := hfed.subscribed hrx
    constructor
    · intro hnew
      have hnew : k.subscribed = false := hnew
      rw [hsub] at hnew
      cases hnew
    · exact hfed.since_le
    · intro q' hq
      cases hq
    · exact hfed.cut
    · intro _
      exact iff_of_true rfl rfl
    · intro n hn
      obtain rfl : s.log.length = n := Option.some.inj hn
      exact Nat.le_refl _
    · intro _
      refine iff_of_true ?_ (.inr rfl)
      have hended := hfed.ended hsub
      rw [hrx] at hended
      refine (hfed.held hsub).2 (.inl ?_)
      by_contra hne
      cases hended.2 (Option.isSome_iff_ne_none.2 hne)

theorem fed_read (hfed : Fed s i k) (hsame : k' = { k with reading := k'.reading, sent := k'.sent })
    (hevents : k'.events = k.events) : Fed s i k' := by
  rw [hsame]
  have hevents : k'.sent.filterMap Frame.event? = k.events := hevents
  constructor
  · intro hnew
    obtain ⟨hrx, hended, hnone, hmem⟩ := hfed.early hnew
    exact ⟨hrx, hended, hevents.trans hnone, hmem⟩
  · exact hfed.since_le
  · intro q hq
    show k'.sent.filterMap Frame.event? ++ _ = _
    rw [hevents]
    exact hfed.whole q hq
  · show k'.sent.filterMap Frame.event? <+: _
    rw [hevents]
    exact hfed.cut
  · exact hfed.ended
  · exact hfed.ended_le
  · exact hfed.held

theorem inv_step (hinv : Inv s) (h : step parse maxRecent s a = some s') : Inv s' := by
  cases step_cases h with
  | opened hfree => exact inv_put hinv (fed_opened hinv hfree _ _)
  | subscribed hk hnew => exact inv_subscribe hinv hk hnew
  | remembered _ =>
    constructor
    · intro i k hk
      exact (hinv.1 i k hk).congr rfl Iff.rfl
    · exact hinv.2
  | delivered _ => exact inv_deliver hinv _ _
  | sent hk hrecv => exact inv_put hinv (fed_recv (hinv.1 _ _ hk) hrecv)
  | read hk hsame hevents => exact inv_put hinv (fed_read (hinv.1 _ _ hk) hsame hevents)
  | unchanged => exact hinv

theorem inv_run {as : List Act} {s : St} (hrun : run (step parse maxRecent) init as = some s) :
    Inv s :=
  run_preserves (fun _ _ _ => inv_step) inv_init hrun

/-! ## What clients see -/

/-- In every run a client is sent the events of its space that were delivered since it
subscribed, each once and in the order of delivery, and no other event; while its task
runs, all that it was not sent yet are waiting for it. -/
theorem sent_in_order (as : List Act) (s : St)
    (hrun : run (step parse maxRecent) init as = some s) (i : Nat) (k : Socket)
    (hk : s.sockets i = some k) :
    k.events <+: s.stream k ∧
      ∀ q, k.rx = some q → k.events ++ q.filter (wants k.spaceId) = s.stream k := by
  have hfed := (inv_run hrun).1 i k hk
  exact ⟨hfed.cut, hfed.whole⟩

/-- What both sockets want. -/
def both (k k' : Socket) (e : ServerEvent) : Bool := wants k.spaceId e && wants k'.spaceId e

/-- What `k` could have been sent before `k'` subscribed, of what both want. -/
def St.missed (s : St) (k k' : Socket) : List ServerEvent :=
  (((s.log.take k'.since).drop k.since).map (·.2)).filter (both k k')

theorem stream_filter (hsince : k.since ≤ k'.since) (hlog : k'.since ≤ s.log.length) :
    (s.stream k).filter (both k k') = s.missed k k' ++ (s.stream k').filter (both k k') := by
  have hfirst : ∀ e, (both k k' e && wants k.spaceId e) = both k k' e := by
    intro e
    simp only [both]
    cases wants k.spaceId e <;> cases wants k'.spaceId e <;> rfl
  have hsecond : ∀ e, (both k k' e && wants k'.spaceId e) = both k k' e := by
    intro e
    simp only [both]
    cases wants k.spaceId e <;> cases wants k'.spaceId e <;> rfl
  have hsplit : s.log.drop k.since = (s.log.take k'.since).drop k.since ++ s.log.drop k'.since := by
    rw [← List.drop_append_of_le_length (by rw [List.length_take]; omega),
      List.take_append_drop]
  rw [St.stream, List.filter_filter, List.filter_congr fun e _ => hfirst e, hsplit,
    List.map_append, List.filter_append, St.stream, List.filter_filter,
    List.filter_congr fun e _ => hsecond e]
  rfl

/-- No two clients see events in different orders: of what both want, one has been sent
the beginning of what the other has, from the time on when both were subscribed. -/
theorem same_order (as : List Act) (s : St)
    (hrun : run (step parse maxRecent) init as = some s) (i j : Nat) (k k' : Socket)
    (hk : s.sockets i = some k) (hk' : s.sockets j = some k') (hsince : k.since ≤ k'.since) :
    k.events.filter (both k k') <+: s.missed k k' ++ k'.events.filter (both k k') ∨
      s.missed k k' ++ k'.events.filter (both k k') <+: k.events.filter (both k k') := by
  have hfed := (inv_run hrun).1 i k hk
  have hfed' := (inv_run hrun).1 j k' hk'
  have hfirst : k.events.filter (both k k') <+:
      s.missed k k' ++ (s.stream k').filter (both k k') := by
    rw [← stream_filter hsince hfed'.since_le]
    exact hfed.cut.filter _
  have hsecond : s.missed k k' ++ k'.events.filter (both k k') <+:
      s.missed k k' ++ (s.stream k').filter (both k k') :=
    (List.prefix_append_right_inj _).2 (hfed'.cut.filter _)
  exact List.prefix_or_prefix_of_prefix hfirst hsecond

/-! ## Frames that fail -/

/-- The socket is about to send an event. -/
def St.Sending (s : St) (i : Nat) : Prop :=
  ∃ k e q, s.sockets i = some k ∧ k.rx = some (e :: q) ∧ wants k.spaceId e = true

/-- In the run, the frame of an event could not be sent to socket `i` when `n` events had
been delivered. -/
def FailedAt (parse : Str → Option WsMessage) (maxRecent : Nat) (as : List Act) (i n : Nat) :
    Prop :=
  ∃ front back s, as = front ++ .recv i false :: back ∧
    run (step parse maxRecent) init front = some s ∧ s.Sending i ∧ s.log.length = n

theorem failedAt_concat {as : List Act} {i n : Nat}
    (hrun : run (step parse maxRecent) init as = some s) :
    FailedAt parse maxRecent (as ++ [a]) i n ↔ FailedAt parse maxRecent as i n ∨
      (a = .recv i false ∧ s.Sending i ∧ s.log.length = n) := by
  constructor
  · rintro ⟨front, back, s₁, hsplit, hfront, hsending, hn⟩
    rcases List.eq_nil_or_concat back with rfl | ⟨back, b, rfl⟩
    · -- the last step
      obtain ⟨rfl, ha⟩ := List.append_inj' hsplit rfl
      obtain rfl : s = s₁ := Option.some.inj (hrun.symm.trans hfront)
      obtain rfl := List.singleton_inj.1 ha
      exact .inr ⟨rfl, hsending, hn⟩
    · have hsplit' : as ++ [a] = (front ++ .recv i false :: back) ++ [b] := by simpa using hsplit
      obtain ⟨rfl, -⟩ := List.append_inj' hsplit' rfl
      exact .inl ⟨front, back, s₁, rfl, hfront, hsending, hn⟩
  · rintro (⟨front, back, s₁, rfl, hfront, hsending, hn⟩ | ⟨rfl, hsending, hn⟩)
    · exact ⟨front, back ++ [a], s₁, by simp, hfront, hsending, hn⟩
    · exact ⟨as, [], s, rfl, hrun, hsending, hn⟩

/-- The task that sends to the socket ended when `n` events had been delivered. -/
def St.Ended (s : St) (i n : Nat) : Prop := ∃ k, s.sockets i = some k ∧ k.endedAt = some n

theorem ended_put {i j n : Nat} :
    (s.put i k).Ended j n ↔ if j = i then k.endedAt = some n else s.Ended j n := by
  show (∃ k', Function.update s.sockets i (some k) j = some k' ∧ _) ↔ _
  split
  · next hij =>
    subst hij
    rw [Function.update_self]
    simp
  · next hij =>
    rw [Function.update_of_ne hij]
    rfl

/-- Nothing but a round of that task ends it. -/
theorem ended_other {i n : Nat} (h : step parse maxRecent s a = some s')
    (hother : ∀ j ok, a ≠ .recv j ok) : s'.Ended i n ↔ s.Ended i n := by
  have hput : ∀ j k k', s.sockets j = some k → k'.endedAt = k.endedAt →
      ((s.put j k').Ended i n ↔ s.Ended i n) := by
    intro j k k' hk hsame
    rw [ended_put]
    split
    · next hij =>
      rw [hsame, hij, St.Ended, hk]
      simp
    · rfl
  cases step_cases h with
  | @opened j _ _ hfree =>
    rw [ended_put]
    split
    · next hij =>
      -- a new socket
      rw [hij, St.Ended, hfree]
      simp [Socket.opened]
    · rfl
  | subscribed hk _ => exact hput _ _ _ hk rfl
  | remembered _ => rfl
  | @delivered c e _ =>
    show (∃ k, (if i ∈ s.subscribers then (s.sockets i).map (·.push e) else s.sockets i) =
      some k ∧ k.endedAt = some n) ↔ s.Ended i n
    split
    · constructor
      · rintro ⟨k', hk', hn⟩
        rcases Option.map_eq_some_iff.1 hk' with ⟨k, hk, rfl⟩
        exact ⟨k, hk, hn⟩
      · rintro ⟨k, hk, hn⟩
        exact ⟨k.push e, by rw [hk]; rfl, hn⟩
    · rfl
  | sent _ _ => exact absurd rfl (hother _ _)
  | read hk hsame _ => exact hput _ _ _ hk (by rw [hsame])
  | unchanged => rfl

/-- A round of the task that sends ends it exactly where the frame of an event fails. -/
theorem endedAt_recv {ok : Bool} (hfed : Fed s i k)
    (hk : s.sockets i = some k) (h : k.recv s.log.length ok = some k') (n : Nat) :
    k'.endedAt = some n ↔ k.endedAt = some n ∨
      (ok = false ∧ s.Sending i ∧ s.log.length = n) := by
  rcases recv_cases h with ⟨e, q, hrx, hcase⟩
  have hnone : k.endedAt = none := by
    have hended := hfed.ended (hfed.subscribed hrx)
    rw [hrx] at hended
    by_contra hne
    cases hended.2 (Option.isSome_iff_ne_none.2 hne)
  have hhead : s.Sending i ↔ wants k.spaceId e = true := by
    constructor
    · rintro ⟨k₁, e₁, q₁, hk₁, hrx₁, hwants⟩
      obtain rfl : k = k₁ := Option.some.inj (hk.symm.trans hk₁)
      obtain ⟨rfl, -⟩ := List.cons.inj (Option.some.inj (hrx.symm.trans hrx₁))
      exact hwants
    · exact fun hwants => ⟨k, e, q, hk, hrx, hwants⟩
  rw [hhead, hnone]
  rcases hcase with ⟨hwants, rfl⟩ | ⟨hwants, rfl, rfl⟩ | ⟨hwants, rfl, rfl⟩
  · show k.endedAt = some n ↔ _
    simp [hnone, hwants]
  · show k.endedAt = some n ↔ _
    simp [hnone]
  · simp [hwants]

theorem ended_step (hinv : Inv s) (h : step parse maxRecent s a = some s') (i n : Nat) :
    s'.Ended i n ↔ s.Ended i n ∨ (a = .recv i false ∧ s.Sending i ∧ s.log.length = n) := by
  cases a with
  | recv j ok =>
    rcases Option.bind_eq_some_iff.1 h with ⟨k, hk, hrecv⟩
    rcases Option.map_eq_some_iff.1 hrecv with ⟨k', hk', rfl⟩
    rw [ended_put]
    split
    · next hij =>
      subst hij
      rw [endedAt_recv (hinv.1 _ _ hk) hk hk', St.Ended, hk]
      simp
    · next hij => simp [Ne.symm hij]
  | connect | subscribe | broadcast | deliver | receive =>
    rw [ended_other h (by simp)]
    simp

/-- In every run a task that sends has ended exactly where the frame of an event failed. -/
theorem ended_run {as : List Act} {s : St} (hrun : run (step parse maxRecent) init as = some s)
    (i n : Nat) : s.Ended i n ↔ FailedAt parse maxRecent as i n := by
  have hstep : ∀ (as : List Act) (s : St) (a : Act) (s' : St),
      (run (step parse maxRecent) init as = some s ∧
        ∀ i n, s.Ended i n ↔ FailedAt parse maxRecent as i n) → True →
      step parse maxRecent s a = some s' →
      run (step parse maxRecent) init (as ++ [a]) = some s' ∧
        ∀ i n, s'.Ended i n ↔ FailedAt parse maxRecent (as ++ [a]) i n := by
    rintro as s a s' ⟨hrun, hended⟩ - hs
    refine ⟨run_concat hrun hs, fun i n => ?_⟩
    rw [ended_step (inv_run hrun) hs, failedAt_concat hrun, hended]
  have hinit : run (step parse maxRecent) init [] = some init ∧
      ∀ i n, init.Ended i n ↔ FailedAt parse maxRecent [] i n := by
    refine ⟨rfl, fun i n => iff_of_false ?_ ?_⟩
    · rintro ⟨k, hk, -⟩
      cases hk
    · rintro ⟨front, back, s, hsplit, -⟩
      simp at hsplit
  exact (run_invariant _ hstep hinit (along_of_forall (fun _ _ => trivial) _ _) hrun).2 i n

/-- In every run the bus holds a subscription until the first delivery after the frame of an
event could not be sent, whatever the client has said and also when it has closed. -/
theorem subscribed_iff (as : List Act) (s : St)
    (hrun : run (step parse maxRecent) init as = some s) (i : Nat) (k : Socket)
    (hk : s.sockets i = some k) (hsub : k.subscribed = true) :
    i ∈ s.subscribers ↔ ∀ n, FailedAt parse maxRecent as i n → n = s.log.length := by
  have hended : ∀ n, FailedAt parse maxRecent as i n ↔ k.endedAt = some n := by
    intro n
    rw [← ended_run hrun, St.Ended, hk]
    simp
  rw [((inv_run hrun).1 i k hk).held hsub]
  simp only [hended]
  cases k.endedAt with
  | none => simp
  | some m => simp

/-! ## Two clients -/

def home : Str := "home".toList

def chatEvent (spaceId : Str) : ServerEvent := ⟨.messageSent, some spaceId, .null, 0⟩

/-- A page that wants all and a client of one space. The client signals, leaves, and is
still subscribed. -/
def twoClients : List Act := [
  .connect 0 none true, .subscribe 0, .connect 1 (some home) true, .subscribe 1,
  .broadcast 0 (chatEvent home), .receive 1 (.text []) 5 true, .deliver (.reader 1),
  .deliver (.task 0), .recv 0 true, .recv 0 true, .recv 1 true, .receive 1 .close 6 true,
  .broadcast 0 (chatEvent "office".toList), .deliver (.task 0), .recv 1 false]

def signalled : Str → Option WsMessage := fun _ => some (.signal home .null none)

def twoClientsEnd : St := (run (step signalled 2) init twoClients).getD init

theorem run_twoClients : run (step signalled 2) init twoClients = some twoClientsEnd := by
  have hsome : (run (step signalled 2) init twoClients).isSome = true := by
    decide +kernel
  rcases Option.isSome_iff_exists.1 hsome with ⟨s, hs⟩
  rw [twoClientsEnd, hs, Option.getD_some]

def page : Socket where
  spaceId := none
  subscribed := true
  rx := some [chatEvent "office".toList]
  reading := true
  sent := [.json (.event (signalEvent home .null none 5)), .json (.event (chatEvent home))]
  since := 0
  endedAt := none

/-- It was not sent the second event of its space. -/
def client : Socket where
  spaceId := some home
  subscribed := true
  rx := none
  reading := false
  sent := [.json (.connected home), .json (.event (signalEvent home .null none 5))]
  since := 0
  endedAt := some 3

theorem page_twoClients : twoClientsEnd.sockets 0 = some page := rfl

theorem client_twoClients : twoClientsEnd.sockets 1 = some client := rfl

theorem callers_in_order_two :
    twoClientsEnd.recent = (twoClientsEnd.remembered.map (·.2)).rtake 2 ∧
      ∀ c, of c twoClientsEnd.log ++ (twoClientsEnd.busy c).toList =
        of c twoClientsEnd.remembered :=
  callers_in_order twoClients twoClientsEnd run_twoClients

theorem sent_in_order_two :
    page.events <+: twoClientsEnd.stream page ∧
      ∀ q, page.rx = some q → page.events ++ q.filter (wants page.spaceId) =
        twoClientsEnd.stream page :=
  sent_in_order twoClients twoClientsEnd run_twoClients 0 page page_twoClients

theorem same_order_two :
    page.events.filter (both page client) <+:
        twoClientsEnd.missed page client ++ client.events.filter (both page client) ∨
      twoClientsEnd.missed page client ++ client.events.filter (both page client) <+:
        page.events.filter (both page client) :=
  same_order twoClients twoClientsEnd run_twoClients 0 1 page client page_twoClients
    client_twoClients (Nat.le_refl _)

theorem subscribed_iff_two :
    1 ∈ twoClientsEnd.subscribers ↔
      ∀ n, FailedAt signalled 2 twoClients 1 n → n = twoClientsEnd.log.length :=
  subscribed_iff twoClients twoClientsEnd run_twoClients 1 client client_twoClients rfl

end HomeTier.Events
