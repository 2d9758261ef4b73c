import HomeTier.Lib.Trace
import HomeTier.Lib.Frame

/-! # The shared IPC connection

`IpcClient::send` of `src-tauri/src/daemon/client.rs` against the connection
loop of `daemon/mod.rs`. All callers share one stream behind a lock; a call
takes the lock, connects if there is no stream, writes its request as a frame
and reads one frame back, and every error on the way drops the stream. The
daemon reads a frame, handles it and writes a frame, over and over. Responses
carry no identifier.

Bytes on their way to the daemon are marked with the call that wrote them, so
that a response belongs to the call whose bytes made up the request. A call may
be dropped at every point where it waits; then the lock is released and the
stream stays. Pairing holds along every run in which no call is dropped between
its first written and its last read byte and no length overflows its four bytes
(`paired_of_undisturbed`); a call dropped while it waits for its response
leaves it to the next call (`dropped_call_mispairs`).
-/

namespace HomeTier

open Lib

namespace IpcClient

abbrev CallId := Nat

/-- Requests and responses longer than this are refused by their reader. -/
def maxLen : Nat := 10 * 1024 * 1024

/-- The connection loop of the daemon; the marks say who wrote the bytes. -/
inductive DaemonPhase where
  | readLen
  | readBody (marks : List CallId) (len : Nat)
  | handling (marks : List CallId)
  | writing (rest : Bytes)
  | gone
deriving DecidableEq, Repr

/-- A connection: bytes in flight both ways and the daemon's side. -/
structure Conn where
  toDaemon : List (CallId × UInt8)
  toClient : Bytes
  daemon : DaemonPhase
deriving DecidableEq, Repr

/-- Where the call that holds the lock stands. -/
inductive Phase where
  | locked (json : Option Bytes)
  | writing (json : Bytes) (sent rest : Bytes)
  | readLen (got : Bytes)
  | readBody (head : Bytes) (got : Bytes)
deriving DecidableEq, Repr

/-- The shared stream, the holder of the lock, the calls so far, the daemon's
responses with the calls they answer, and what the calls returned (`none` is an
error). Connections that were given up are not kept. -/
structure St (Resp : Type) where
  stream : Option Conn
  holder : Option (CallId × Phase)
  calls : List CallId
  answered : List (CallId × Resp)
  returned : List (CallId × Option Resp)

/-- Steps of the callers and of the daemon. -/
inductive Act (Resp : Type) where
  | acquire (n : CallId) (json : Option Bytes)
  | connect (ok : Bool)
  | start
  | write (k : Nat)
  | writeFail
  | read (k : Nat)
  | readFail
  | complete
  | drop
  | daemonLen
  | daemonBody
  | respond (r : Resp)
  | daemonWrite (k : Nat)
  | daemonClose

/-- JSON of a response, and how the client reads it. -/
structure RespCodec (Resp : Type) where
  toJson : Resp → Option Bytes
  fromJson : Bytes → Option Resp

def init {Resp : Type} : St Resp where
  stream := none
  holder := none
  calls := []
  answered := []
  returned := []

/-- The call all marks name, if there is one. -/
def owner : List CallId → Option CallId
  | [] => none
  | n :: ns => if ns.all (· = n) then some n else none

def mark (n : CallId) (bs : Bytes) : List (CallId × UInt8) := bs.map fun b => (n, b)

section Step

variable {Resp : Type}

/-- Release the lock and return from the call. -/
def finish (s : St Resp) (n : CallId) (result : Option Resp) : St Resp :=
  { s with holder := none, returned := (n, result) :: s.returned }

/-- An error on the stream: it is dropped with the return. -/
def reset (s : St Resp) (n : CallId) : St Resp :=
  { finish s n none with stream := none }

/-- Steps of the call `n` that holds the lock. -/
def callStep (C : RespCodec Resp) (s : St Resp) (n : CallId) : Phase → Act Resp → Option (St Resp)
  | .locked json, .connect ok =>
    match s.stream with
    | none =>
      if ok then
        some { s with
          stream := some ⟨[], [], .readLen⟩
          holder := some (n, .locked json) }
      else some (finish s n none)
    | some _ => none
  | .locked json, .start =>
    match s.stream, json with
    | some _, some json => some { s with holder := some (n, .writing json [] (frame json)) }
    | some _, none => some (finish s n none)
    | none, _ => none
  | .writing json sent rest, .write k =>
    match s.stream with
    | some c =>
      if 0 < k ∧ k ≤ rest.length then
        some { s with
          stream := some { c with toDaemon := c.toDaemon ++ mark n (rest.take k) }
          holder := some (n, if rest.drop k = [] then .readLen []
            else .writing json (sent ++ rest.take k) (rest.drop k)) }
      else none
    | none => none
  | .writing _ _ _, .writeFail => some (reset s n)
  | .readLen got, .read k =>
    match s.stream with
    | some c =>
      if 0 < k ∧ k ≤ c.toClient.length ∧ (got ++ c.toClient.take k).length ≤ 4 then
        let got := got ++ c.toClient.take k
        if got.length < 4 then
          some { s with
            stream := some { c with toClient := c.toClient.drop k }
            holder := some (n, .readLen got) }
        else if maxLen < fromLe32 got then some (reset s n)
        else
          some { s with
            stream := some { c with toClient := c.toClient.drop k }
            holder := some (n, .readBody got []) }
      else none
    | none => none
  | .readLen _, .readFail => some (reset s n)
  | .readBody head got, .read k =>
    match s.stream with
    | some c =>
      if 0 < k ∧ k ≤ c.toClient.length ∧ (got ++ c.toClient.take k).length ≤ fromLe32 head then
        some { s with
          stream := some { c with toClient := c.toClient.drop k }
          holder := some (n, .readBody head (got ++ c.toClient.take k)) }
      else none
    | none => none
  | .readBody _ _, .readFail => some (reset s n)
  | .readBody head got, .complete =>
    -- a response that does not parse is an error that keeps the stream
    if got.length = fromLe32 head then some (finish s n (C.fromJson got)) else none
  | _, .drop => some { s with holder := none }
  | _, _ => none

/-- Steps of the daemon on the shared connection. -/
def daemonStep (C : RespCodec Resp) (s : St Resp) (c : Conn) : Act Resp → Option (St Resp)
  | .daemonLen =>
    if c.daemon = .readLen ∧ 4 ≤ c.toDaemon.length then
      let len := fromLe32 ((c.toDaemon.take 4).map fun e => e.2)
      some { s with stream := some { c with
        toDaemon := c.toDaemon.drop 4
        daemon := if maxLen < len then .gone
          else .readBody ((c.toDaemon.take 4).map fun e => e.1) len } }
    else none
  | .daemonBody =>
    match c.daemon with
    | .readBody marks len =>
      if len ≤ c.toDaemon.length then
        some { s with stream := some { c with
          toDaemon := c.toDaemon.drop len
          daemon := .handling (marks ++ (c.toDaemon.take len).map fun e => e.1) } }
      else none
    | _ => none
  | .respond r =>
    match c.daemon with
    | .handling marks =>
      some { s with
        answered := (match owner marks with
          | some n => (n, r) :: s.answered
          | none => s.answered)
        stream := some { c with daemon := match C.toJson r with
          | some msg => .writing (frame msg)
          | none => .readLen } }
    | _ => none
  | .daemonWrite k =>
    match c.daemon with
    | .writing rest =>
      if 0 < k ∧ k ≤ rest.length then
        some { s with stream := some { c with
          toClient := c.toClient ++ rest.take k
          daemon := if rest.drop k = [] then .readLen else .writing (rest.drop k) } }
      else none
    | _ => none
  | .daemonClose => some { s with stream := some { c with daemon := .gone } }
  | _ => none

/-- One step of a caller or of the daemon. -/
def step (C : RespCodec Resp) (s : St Resp) (a : Act Resp) : Option (St Resp) :=
  match a with
  | .acquire n json =>
    if s.holder = none ∧ n ∉ s.calls then
      some { s with holder := some (n, .locked json), calls := n :: s.calls }
    else none
  | .daemonLen | .daemonBody | .respond _ | .daemonWrite _ | .daemonClose =>
    match s.stream with
    | some c => daemonStep C s c a
    | none => none
  | _ =>
    match s.holder with
    | some (n, phase) => callStep C s n phase a
    | none => none

/-- Every call that returned a response returned what the daemon answered to
its own request. -/
def Paired (C : RespCodec Resp) (s : St Resp) : Prop :=
  ∀ n v, (n, some v) ∈ s.returned →
    ∃ r msg, (n, r) ∈ s.answered ∧ C.toJson r = some msg ∧ C.fromJson msg = some v

/-- A call dropped here leaves nothing of an exchange behind. -/
def Phase.quiet : Phase → Bool
  | .locked _ => true
  | .writing _ sent _ => sent = []
  | .readLen _ => false
  | .readBody head got => got.length = fromLe32 head

/-- The length of the request fits its four bytes. -/
def Phase.fits : Phase → Bool
  | .locked (some json) => json.length < 2 ^ 32
  | _ => true

/-- No call is dropped between its first written and its last read byte, and no
length overflows. -/
def Undisturbed (C : RespCodec Resp) (s : St Resp) : Act Resp → Prop
  | .start => ∀ e ∈ s.holder, e.2.fits
  | .drop => ∀ e ∈ s.holder, e.2.quiet
  | .respond r => ∀ msg ∈ C.toJson r, msg.length < 2 ^ 32
  | _ => True

instance decidableUndisturbed (C : RespCodec Resp) (s : St Resp) :
    ∀ a, Decidable (Undisturbed C s a)
  | .start => inferInstanceAs (Decidable (∀ e ∈ s.holder, e.2.fits))
  | .drop => inferInstanceAs (Decidable (∀ e ∈ s.holder, e.2.quiet))
  | .respond r => inferInstanceAs (Decidable (∀ msg ∈ C.toJson r, msg.length < 2 ^ 32))
  | .acquire _ _ | .connect _ | .write _ | .writeFail | .read _ | .readFail | .complete
  | .daemonLen | .daemonBody | .daemonWrite _ | .daemonClose => .isTrue trivial

end Step

/-! ## The connection during an exchange -/

section Link

variable {Resp : Type} (C : RespCodec Resp)

/-- Nothing of an exchange is left on the connection. -/
structure Clean (c : Conn) : Prop where
  toClient : c.toClient = []
  daemon : c.daemon = .gone ∨ (c.daemon = .readLen ∧ c.toDaemon = [])

/-- The connection while call `n` has written `sent` of its request `json` and
read `seen` of the response. -/
inductive Link (answered : List (CallId × Resp)) (n : CallId) (json : Bytes) :
    Bytes → Bytes → Conn → Prop where
  | closed {sent : Bytes} {c : Conn} (hd : c.daemon = .gone) (hcl : c.toClient = []) :
      Link answered n json sent [] c
  | len {sent : Bytes} {c : Conn} (hpre : sent <+: frame json) (hd : c.daemon = .readLen)
      (hto : c.toDaemon = mark n sent) (hcl : c.toClient = []) : Link answered n json sent [] c
  | body {b : Bytes} {c : Conn} (hpre : b <+: json)
      (hd : c.daemon = .readBody (List.replicate 4 n) json.length)
      (hto : c.toDaemon = mark n b) (hcl : c.toClient = []) :
      Link answered n json (le32 json.length ++ b) [] c
  | handling {marks : List CallId} {c : Conn} (hd : c.daemon = .handling marks)
      (howner : owner marks = some n) (hto : c.toDaemon = []) (hcl : c.toClient = []) :
      Link answered n json (frame json) [] c
  | unanswered {c : Conn} (hd : c.daemon = .readLen) (hto : c.toDaemon = [])
      (hcl : c.toClient = []) : Link answered n json (frame json) [] c
  | reply {r : Resp} {msg seen tail : Bytes} {c : Conn} (hans : (n, r) ∈ answered)
      (hmsg : C.toJson r = some msg) (hlen : msg.length < 2 ^ 32)
      (hseen : seen ++ c.toClient ++ tail = frame msg)
      (hd : c.daemon = .gone ∨ (c.toDaemon = [] ∧
        ((c.daemon = .writing tail ∧ tail ≠ []) ∨ (c.daemon = .readLen ∧ tail = [])))) :
      Link answered n json (frame json) seen c

variable {C} {answered : List (CallId × Resp)} {n : CallId} {json sent seen : Bytes} {c : Conn}

theorem mark_fst (n : CallId) (bs : Bytes) :
    (mark n bs).map (fun e => e.1) = List.replicate bs.length n := by
  induction bs with
  | nil => rfl
  | cons b bs ih =>
    simp only [mark, List.map_cons, List.length_cons, List.replicate_succ] at ih ⊢
    rw [ih]

theorem mark_snd (n : CallId) (bs : Bytes) : (mark n bs).map (fun e => e.2) = bs := by
  simp [mark, Function.comp_def]

theorem owner_replicate (n : CallId) (k : Nat) : owner (List.replicate (k + 1) n) = some n := by
  simp [List.replicate_succ, owner]

/-- The daemon reads the length of a request. -/
theorem Link.daemonLen (hjson : json.length < 2 ^ 32) (h : Link C answered n json sent seen c)
    (hd : c.daemon = .readLen) (hlen : 4 ≤ c.toDaemon.length) :
    Link C answered n json sent seen { c with
      toDaemon := c.toDaemon.drop 4
      daemon := if maxLen < fromLe32 ((c.toDaemon.take 4).map fun e => e.2) then .gone
        else .readBody ((c.toDaemon.take 4).map fun e => e.1)
          (fromLe32 ((c.toDaemon.take 4).map fun e => e.2)) } := by
  cases h with
  | closed hd' _ => simp [hd'] at hd
  | len hpre _ hto hcl =>
    have hsent : 4 ≤ sent.length := by simpa [hto, mark] using hlen
    have hcut := take_of_prefix_frame hpre hsent
    have hpart : sent.drop 4 <+: json := by
      rw [hcut] at hpre
      exact (List.prefix_append_right_inj _).1 hpre
    have htake : c.toDaemon.take 4 = mark n (le32 json.length) := by
      rw [hto, hcut, mark, List.map_append]
      exact List.take_left' (by simp)
    have hdrop : c.toDaemon.drop 4 = mark n (sent.drop 4) := by
      rw [hto, mark, ← List.map_drop]
      rfl
    simp only [htake, hdrop, mark_fst, mark_snd, fromLe32_le32 hjson, le32_length]
    split
    · exact .closed rfl hcl
    · rw [hcut]
      exact .body hpart rfl rfl hcl
  | body _ hd' _ _ => simp [hd'] at hd
  | handling hd' _ _ _ => simp [hd'] at hd
  | unanswered _ hto _ => simp [hto] at hlen
  | reply _ _ _ _ hd' =>
    rcases hd' with hd' | ⟨hto, -⟩
    · simp [hd'] at hd
    · simp [hto] at hlen

/-- The daemon reads the content of a request. -/
theorem Link.daemonBody (h : Link C answered n json sent seen c) {marks : List CallId} {len : Nat}
    (hd : c.daemon = .readBody marks len) (hlen : len ≤ c.toDaemon.length) :
    Link C answered n json sent seen { c with
      toDaemon := c.toDaemon.drop len
      daemon := .handling (marks ++ (c.toDaemon.take len).map fun e => e.1) } := by
  cases h with
  | closed hd' _ => simp [hd'] at hd
  | len _ hd' _ _ => simp [hd'] at hd
  | @body b _ hpre hd' hto hcl =>
    obtain ⟨rfl, rfl⟩ : marks = List.replicate 4 n ∧ len = json.length := by
      rw [hd'] at hd
      exact ⟨(DaemonPhase.readBody.inj hd).1.symm, (DaemonPhase.readBody.inj hd).2.symm⟩
    have hb : b = json := by
      refine hpre.eq_of_length_le ?_
      simpa [hto, mark] using hlen
    subst hb
    have hall : c.toDaemon.length = b.length := by simp [hto, mark]
    refine .handling rfl ?_ (List.drop_eq_nil_of_le hall.le) hcl
    rw [List.take_of_length_le hall.le, hto, mark_fst, ← List.replicate_add]
    have hsucc : 4 + b.length = (3 + b.length) + 1 := by omega
    rw [hsucc, owner_replicate]
  | handling hd' _ _ _ => simp [hd'] at hd
  | unanswered hd' _ _ => simp [hd'] at hd
  | reply _ _ _ _ hd' =>
    rcases hd' with hd' | ⟨-, ⟨hd', -⟩ | ⟨hd', -⟩⟩ <;> simp [hd'] at hd

/-- The daemon answers the request it has read. -/
theorem Link.respond (h : Link C answered n json sent seen c) {marks : List CallId} {r : Resp}
    (hd : c.daemon = .handling marks)
    (hlen : ∀ msg, C.toJson r = some msg → msg.length < 2 ^ 32) :
    Link C (match owner marks with
        | some n => (n, r) :: answered
        | none => answered) n json sent seen { c with
      daemon := match C.toJson r with
        | some msg => .writing (frame msg)
        | none => .readLen } := by
  cases h with
  | closed hd' _ => simp [hd'] at hd
  | len _ hd' _ _ => simp [hd'] at hd
  | body _ hd' _ _ => simp [hd'] at hd
  | handling hd' howner hto hcl =>
    obtain rfl : _ = marks := DaemonPhase.handling.inj (hd'.symm.trans hd)
    rw [howner]
    cases hmsg : C.toJson r with
    | none => exact .unanswered rfl hto hcl
    | some msg =>
      have hseen : [] ++ c.toClient ++ frame msg = frame msg := by simp [hcl]
      exact .reply List.mem_cons_self hmsg (hlen msg hmsg) hseen
        (.inr ⟨hto, .inl ⟨rfl, frame_ne_nil msg⟩⟩)
  | unanswered hd' _ _ => simp [hd'] at hd
  | reply _ _ _ _ hd' =>
    rcases hd' with hd' | ⟨-, ⟨hd', -⟩ | ⟨hd', -⟩⟩ <;> simp [hd'] at hd

/-- The daemon writes a part of its response. -/
theorem Link.daemonWrite (h : Link C answered n json sent seen c) {rest : Bytes} (k : Nat)
    (hd : c.daemon = .writing rest) :
    Link C answered n json sent seen { c with
      toClient := c.toClient ++ rest.take k
      daemon := if rest.drop k = [] then .readLen else .writing (rest.drop k) } := by
  cases h with
  | closed hd' _ => simp [hd'] at hd
  | len _ hd' _ _ => simp [hd'] at hd
  | body _ hd' _ _ => simp [hd'] at hd
  | handling hd' _ _ _ => simp [hd'] at hd
  | unanswered hd' _ _ => simp [hd'] at hd
  | @reply r msg _ tail _ hans hmsg hlen hseen hd' =>
    rcases hd' with hd' | ⟨hto, ⟨hd', -⟩ | ⟨hd', -⟩⟩
    · simp [hd'] at hd
    · obtain rfl : tail = rest := DaemonPhase.writing.inj (hd'.symm.trans hd)
      have hseen' : seen ++ (c.toClient ++ tail.take k) ++ tail.drop k = frame msg := by
        rw [← hseen]
        simp
      refine .reply hans hmsg hlen hseen' (.inr ⟨hto, ?_⟩)
      by_cases hk : tail.drop k = []
      · exact .inr ⟨by simp [hk], hk⟩
      · exact .inl ⟨by simp [hk], hk⟩
    · simp [hd'] at hd

theorem Link.daemonClose (h : Link C answered n json sent seen c) :
    Link C answered n json sent seen { c with daemon := .gone } := by
  cases h with
  | closed _ hcl => exact .closed rfl hcl
  | len _ _ _ hcl => exact .closed rfl hcl
  | body _ _ _ hcl => exact .closed rfl hcl
  | handling _ _ _ hcl => exact .closed rfl hcl
  | unanswered _ _ hcl => exact .closed rfl hcl
  | reply hans hmsg hlen hseen _ => exact .reply hans hmsg hlen hseen (.inl rfl)

/-- The call writes a part of its request. -/
theorem Link.write {rest : Bytes} (hwhole : sent ++ rest = frame json) (hrest : rest ≠ [])
    (h : Link C answered n json sent seen c) (k : Nat) :
    Link C answered n json (sent ++ rest.take k) seen { c with
      toDaemon := c.toDaemon ++ mark n (rest.take k) } := by
  have hmore : frame json ++ rest ≠ frame json := by simpa using hrest
  have hpart : sent ++ rest.take k <+: frame json := by
    rw [← hwhole]
    exact (List.prefix_append_right_inj sent).2 (List.take_prefix k rest)
  cases h with
  | closed hd hcl => exact .closed hd hcl
  | len _ hd hto hcl =>
    refine .len hpart hd ?_ hcl
    simp [hto, mark]
  | body _ hd hto hcl =>
    rw [List.append_assoc] at hpart ⊢
    refine .body ((List.prefix_append_right_inj _).1 hpart) hd ?_ hcl
    simp [hto, mark]
  | handling _ _ _ _ => exact absurd hwhole hmore
  | unanswered _ _ _ => exact absurd hwhole hmore
  | reply _ _ _ _ _ => exact absurd hwhole hmore

/-- The call reads a part of its response. -/
theorem Link.read (h : Link C answered n json sent seen c) {k : Nat} (hk : 0 < k)
    (hle : k ≤ c.toClient.length) :
    Link C answered n json sent (seen ++ c.toClient.take k) { c with
      toClient := c.toClient.drop k } := by
  have hne : c.toClient ≠ [] := by
    intro hnil
    simp only [hnil, List.length_nil] at hle
    omega
  cases h with
  | closed _ hcl => exact absurd hcl hne
  | len _ _ _ hcl => exact absurd hcl hne
  | body _ _ _ hcl => exact absurd hcl hne
  | handling _ _ _ hcl => exact absurd hcl hne
  | unanswered _ _ hcl => exact absurd hcl hne
  | reply hans hmsg hlen hseen hd =>
    refine .reply hans hmsg hlen ?_ hd
    rw [← hseen]
    simp

/-- A clean connection is ready for the next call. -/
theorem Clean.link (h : Clean c) : Link C answered n json [] [] c := by
  rcases h.daemon with hd | ⟨hd, hto⟩
  · exact .closed hd h.toClient
  · exact .len List.nil_prefix hd hto h.toClient

/-- A call that has written nothing leaves the connection clean. -/
theorem Link.clean_of_unsent (h : Link C answered n json sent seen c) (hsent : sent = []) :
    Clean c := by
  cases h with
  | closed hd hcl => exact ⟨hcl, .inl hd⟩
  | len _ hd hto hcl => exact ⟨hcl, .inr ⟨hd, by rw [hto, hsent]; rfl⟩⟩
  | body _ _ _ _ => simp [le32] at hsent
  | handling _ _ _ _ => exact absurd hsent (frame_ne_nil json)
  | unanswered _ _ _ => exact absurd hsent (frame_ne_nil json)
  | reply _ _ _ _ _ => exact absurd hsent (frame_ne_nil json)

/-- A call that has read a whole frame has read the response to its request, and
leaves the connection clean. -/
theorem Link.complete {head got : Bytes} (h : Link C answered n json sent seen c)
    (hseen : seen = head ++ got) (hhead : head.length = 4) (hgot : got.length = fromLe32 head) :
    Clean c ∧ ∃ r, (n, r) ∈ answered ∧ C.toJson r = some got := by
  have hne : seen ≠ [] := by
    intro hnil
    simp only [hseen, List.append_eq_nil_iff] at hnil
    simp [hnil.1] at hhead
  cases h with
  | closed _ _ => exact absurd rfl hne
  | len _ _ _ _ => exact absurd rfl hne
  | body _ _ _ _ => exact absurd rfl hne
  | handling _ _ _ _ => exact absurd rfl hne
  | unanswered _ _ _ => exact absurd rfl hne
  | @reply r msg _ tail _ hans hmsg hlen hall hd =>
    rw [hseen, List.append_assoc, List.append_assoc, frame] at hall
    have hlens : head.length = (le32 msg.length).length := by simp [hhead]
    rcases List.append_inj hall hlens with ⟨rfl, hbody⟩
    rw [fromLe32_le32 hlen] at hgot
    -- the frame is used up, so nothing of it is in flight or unwritten
    rcases List.append_inj (hbody.trans (List.append_nil msg).symm) hgot with ⟨rfl, hrest⟩
    rcases List.append_eq_nil_iff.1 hrest with ⟨hcl, htail⟩
    refine ⟨⟨hcl, ?_⟩, r, hans, hmsg⟩
    rcases hd with hd | ⟨hto, ⟨-, hne'⟩ | ⟨hd, -⟩⟩
    · exact .inl hd
    · exact absurd htail hne'
    · exact .inr ⟨hd, hto⟩

end Link

/-! ## Steps -/

section Invariant

variable {Resp : Type} (C : RespCodec Resp)

/-- No exchange is under way. -/
def Idle (s : St Resp) : Prop := ∀ c, s.stream = some c → Clean c

/-- Call `n` has written `sent` of `json` and read `seen`. -/
def Busy (s : St Resp) (n : CallId) (json sent seen : Bytes) : Prop :=
  ∃ c, s.stream = some c ∧ json.length < 2 ^ 32 ∧ Link C s.answered n json sent seen c

/-- What the stream holds, by the phase of the holder of the lock. -/
def HolderOk (s : St Resp) : Option (CallId × Phase) → Prop
  | none => Idle s
  | some (_, .locked _) => Idle s
  | some (n, .writing json sent rest) =>
    sent ++ rest = frame json ∧ rest ≠ [] ∧ Busy C s n json sent []
  | some (n, .readLen got) => ∃ json, Busy C s n json (frame json) got
  | some (n, .readBody head got) =>
    head.length = 4 ∧ ∃ json, Busy C s n json (frame json) (head ++ got)

/-- The invariant of an undisturbed run. -/
structure Inv (s : St Resp) : Prop where
  holder : HolderOk C s s.holder
  paired : Paired C s

/-- What a step of the daemon keeps. -/
structure Served (s s' : St Resp) : Prop where
  holder : s'.holder = s.holder
  returned : s'.returned = s.returned
  answered : s.answered ⊆ s'.answered
  idle : Idle s → Idle s'
  busy : ∀ n json sent seen, Busy C s n json sent seen → Busy C s' n json sent seen

variable {C} {s s' : St Resp} {a : Act Resp} {c : Conn} {n : CallId}

/-- A step of the daemon replaces the connection and may add an answer. -/
theorem Served.of_conn (hstream : s.stream = some c) {c' : Conn}
    {answered' : List (CallId × Resp)} (hsub : s.answered ⊆ answered')
    (hclean : Clean c → Clean c')
    (hlink : ∀ n json sent seen, json.length < 2 ^ 32 →
      Link C s.answered n json sent seen c → Link C answered' n json sent seen c') :
    Served C s { s with answered := answered', stream := some c' } where
  holder := rfl
  returned := rfl
  answered := hsub
  idle hidle c₁ h₁ := by
    obtain rfl : c' = c₁ := by simpa using h₁
    exact hclean (hidle c hstream)
  busy n json sent seen := by
    rintro ⟨c₀, h₀, hlen, hl⟩
    obtain rfl : c₀ = c := by simpa [hstream] using h₀.symm
    exact ⟨c', rfl, hlen, hlink n json sent seen hlen hl⟩

/-- On a clean connection the daemon waits or is gone. -/
theorem Clean.waiting (h : Clean c) : c.daemon = .gone ∨ c.daemon = .readLen := by
  rcases h.daemon with hd | ⟨hd, -⟩
  · exact .inl hd
  · exact .inr hd

theorem subset_answered (answered : List (CallId × Resp)) (who : Option CallId) (r : Resp) :
    answered ⊆ (match who with
      | some n => (n, r) :: answered
      | none => answered) := by
  cases who with
  | none => exact List.Subset.refl _
  | some n => exact List.subset_cons_self _ _

theorem served_daemonStep (hstream : s.stream = some c) (hu : Undisturbed C s a)
    (hs : daemonStep C s c a = some s') : Served C s s' := by
  cases a with
  | daemonLen =>
    simp only [daemonStep, Option.ite_none_right_eq_some, Option.some.injEq] at hs
    rcases hs with ⟨⟨hd, hlen⟩, rfl⟩
    -- a clean connection has nothing to read for the daemon
    refine Served.of_conn hstream (List.Subset.refl _) ?_ ?_
    · intro hclean
      rcases hclean.daemon with hd' | ⟨-, hto⟩
      · simp [hd'] at hd
      · simp [hto] at hlen
    · intro n json sent seen hjson hl
      exact hl.daemonLen hjson hd hlen
  | daemonBody =>
    simp only [daemonStep] at hs
    cases hd : c.daemon with
    | readBody marks len =>
      simp only [hd, Option.ite_none_right_eq_some, Option.some.injEq] at hs
      rcases hs with ⟨hlen, rfl⟩
      refine Served.of_conn hstream (List.Subset.refl _) ?_ ?_
      · intro hclean
        rcases hclean.waiting with hd' | hd' <;> simp [hd'] at hd
      · intro n json sent seen _ hl
        exact hl.daemonBody hd hlen
    | readLen => simp [hd] at hs
    | handling _ => simp [hd] at hs
    | writing _ => simp [hd] at hs
    | gone => simp [hd] at hs
  | respond r =>
    simp only [daemonStep] at hs
    cases hd : c.daemon with
    | handling marks =>
      simp only [hd, Option.some.injEq] at hs
      subst hs
      -- the answer is of the request that is served, which is undisturbed
      refine Served.of_conn hstream (subset_answered _ _ r) ?_ ?_
      · intro hclean
        rcases hclean.waiting with hd' | hd' <;> simp [hd'] at hd
      · intro n json sent seen _ hl
        exact hl.respond hd hu
    | readLen => simp [hd] at hs
    | readBody _ _ => simp [hd] at hs
    | writing _ => simp [hd] at hs
    | gone => simp [hd] at hs
  | daemonWrite k =>
    simp only [daemonStep] at hs
    cases hd : c.daemon with
    | writing rest =>
      simp only [hd, Option.ite_none_right_eq_some, Option.some.injEq] at hs
      rcases hs with ⟨-, rfl⟩
      refine Served.of_conn hstream (List.Subset.refl _) ?_ ?_
      · intro hclean
        rcases hclean.waiting with hd' | hd' <;> simp [hd'] at hd
      · intro n json sent seen _ hl
        exact hl.daemonWrite k hd
    | readLen => simp [hd] at hs
    | readBody _ _ => simp [hd] at hs
    | handling _ => simp [hd] at hs
    | gone => simp [hd] at hs
  | daemonClose =>
    simp only [daemonStep, Option.some.injEq] at hs
    subst hs
    refine Served.of_conn hstream (List.Subset.refl _) ?_ ?_
    · intro hclean
      exact ⟨hclean.toClient, .inl rfl⟩
    · intro n json sent seen _ hl
      exact hl.daemonClose
  | _ => simp [daemonStep] at hs

/-- A step of the daemon keeps the invariant. -/
theorem Inv.of_served (h : Inv C s) (hserved : Served C s s') : Inv C s' := by
  constructor
  · rw [hserved.holder]
    have hholder := h.holder
    rcases hh : s.holder with - | ⟨n, json | ⟨json, sent, rest⟩ | got | ⟨head, got⟩⟩
    all_goals rw [hh] at hholder
    · exact hserved.idle hholder
    · exact hserved.idle hholder
    · rcases hholder with ⟨hwhole, hrest, hbusy⟩
      exact ⟨hwhole, hrest, hserved.busy _ _ _ _ hbusy⟩
    · rcases hholder with ⟨json, hbusy⟩
      exact ⟨json, hserved.busy _ _ _ _ hbusy⟩
    · rcases hholder with ⟨hhead, json, hbusy⟩
      exact ⟨hhead, json, hserved.busy _ _ _ _ hbusy⟩
  · intro n v hret
    rw [hserved.returned] at hret
    rcases h.paired n v hret with ⟨r, msg, hans, hmsg, hv⟩
    exact ⟨r, msg, hserved.answered hans, hmsg, hv⟩

/-- A call that returns an error, or the response to its request, keeps pairing. -/
theorem paired_finish (h : Paired C s) {result : Option Resp}
    (hres : ∀ v, result = some v →
      ∃ r msg, (n, r) ∈ s.answered ∧ C.toJson r = some msg ∧ C.fromJson msg = some v) :
    Paired C (finish s n result) := by
  intro m v hret
  rcases List.mem_cons.1 hret with heq | hmem
  · rcases Prod.mk.injEq .. ▸ heq with ⟨rfl, hv⟩
    exact hres v hv.symm
  · exact h m v hmem

theorem idle_of_clean (hstream : s.stream = some c) (hclean : Clean c) : Idle s := by
  intro c' hc'
  obtain rfl : c = c' := Option.some.inj (hstream.symm.trans hc')
  exact hclean

theorem inv_fail (h : Inv C s) (hidle : Idle s) : Inv C (finish s n none) where
  holder := hidle
  paired := paired_finish h.paired (by simp)

/-- An error on the stream leaves no connection behind. -/
theorem inv_reset (h : Inv C s) : Inv C (reset s n) where
  holder := by
    intro c hc
    simp [reset, finish] at hc
  paired := by
    have hfail : Paired C (finish s n none) := paired_finish h.paired (by simp)
    exact hfail

/-- Steps of a call before its first byte. -/
theorem inv_locked {json : Option Bytes} (h : Inv C s)
    (hholder : s.holder = some (n, .locked json)) (hu : Undisturbed C s a)
    (hs : callStep C s n (.locked json) a = some s') : Inv C s' := by
  have hidle : Idle s := by
    have hok := h.holder
    rwa [hholder] at hok
  cases a with
  | connect ok =>
    cases hstream : s.stream with
    | some c => simp [callStep, hstream] at hs
    | none =>
      cases ok with
      | false =>
        obtain rfl : finish s n none = s' := by simpa [callStep, hstream] using hs
        exact inv_fail h hidle
      | true =>
        simp only [callStep, hstream, if_true, Option.some.injEq] at hs
        subst hs
        refine ⟨?_, h.paired⟩
        intro c hc
        obtain rfl : _ = c := Option.some.inj hc
        exact ⟨rfl, .inr ⟨rfl, rfl⟩⟩
  | start =>
    cases hstream : s.stream with
    | none => simp [callStep, hstream] at hs
    | some c =>
      cases json with
      | none =>
        obtain rfl : finish s n none = s' := by simpa [callStep, hstream] using hs
        exact inv_fail h hidle
      | some json =>
        simp only [callStep, hstream, Option.some.injEq] at hs
        subst hs
        -- the length word holds the whole length
        have hlen : json.length < 2 ^ 32 := by simpa [Phase.fits] using hu _ hholder
        exact ⟨⟨rfl, frame_ne_nil json, c, rfl, hlen, (hidle c hstream).link⟩, h.paired⟩
  | drop =>
    simp only [callStep, Option.some.injEq] at hs
    subst hs
    exact ⟨hidle, h.paired⟩
  | _ => simp [callStep] at hs

/-- Steps of a call that writes its request. -/
theorem inv_writing {json sent rest : Bytes} (h : Inv C s)
    (hholder : s.holder = some (n, .writing json sent rest)) (hu : Undisturbed C s a)
    (hs : callStep C s n (.writing json sent rest) a = some s') : Inv C s' := by
  have hok := h.holder
  rw [hholder] at hok
  rcases hok with ⟨hwhole, hrest, c, hstream, hlen, hlink⟩
  cases a with
  | write k =>
    simp only [callStep, hstream, Option.ite_none_right_eq_some, Option.some.injEq] at hs
    rcases hs with ⟨-, rfl⟩
    have hlink' := hlink.write hwhole hrest k
    refine ⟨?_, h.paired⟩
    by_cases hdone : rest.drop k = []
    · have hall : rest.take k = rest := by simpa [hdone] using List.take_append_drop k rest
      rw [hall, hwhole] at hlink'
      simp only [hdone, hall, if_true]
      exact ⟨json, _, rfl, hlen, hlink'⟩
    · simp only [hdone, if_false]
      refine ⟨?_, hdone, _, rfl, hlen, hlink'⟩
      simpa using hwhole
  | writeFail =>
    obtain rfl : reset s n = s' := by simpa [callStep] using hs
    exact inv_reset h
  | drop =>
    simp only [callStep, Option.some.injEq] at hs
    subst hs
    have hsent : sent = [] := by simpa [Phase.quiet] using hu _ hholder
    exact ⟨idle_of_clean hstream (hlink.clean_of_unsent hsent), h.paired⟩
  | _ => simp [callStep] at hs

/-- Steps of a call that reads the length of its response. It may not be
dropped here. -/
theorem inv_readLen {got : Bytes} (h : Inv C s) (hholder : s.holder = some (n, .readLen got))
    (hu : Undisturbed C s a) (hs : callStep C s n (.readLen got) a = some s') : Inv C s' := by
  have hok := h.holder
  rw [hholder] at hok
  rcases hok with ⟨json, c, hstream, hlen, hlink⟩
  cases a with
  | read k =>
    simp only [callStep, hstream, Option.ite_none_right_eq_some] at hs
    rcases hs with ⟨⟨hk, hle, hfour⟩, hs⟩
    have hlink' := hlink.read hk hle
    split at hs
    · obtain rfl := Option.some.inj hs
      exact ⟨⟨json, _, rfl, hlen, hlink'⟩, h.paired⟩
    · next hfull =>
      split at hs
      · obtain rfl := Option.some.inj hs
        exact inv_reset h
      · obtain rfl := Option.some.inj hs
        refine ⟨⟨by omega, json, _, rfl, hlen, ?_⟩, h.paired⟩
        simpa using hlink'
  | readFail =>
    obtain rfl : reset s n = s' := by simpa [callStep] using hs
    exact inv_reset h
  | drop => simpa [Phase.quiet] using hu _ hholder
  | _ => simp [callStep] at hs

/-- Steps of a call that reads its response. -/
theorem inv_readBody {head got : Bytes} (h : Inv C s)
    (hholder : s.holder = some (n, .readBody head got)) (hu : Undisturbed C s a)
    (hs : callStep C s n (.readBody head got) a = some s') : Inv C s' := by
  have hok := h.holder
  rw [hholder] at hok
  rcases hok with ⟨hhead, json, c, hstream, hlen, hlink⟩
  cases a with
  | read k =>
    simp only [callStep, hstream, Option.ite_none_right_eq_some, Option.some.injEq] at hs
    rcases hs with ⟨⟨hk, hle, -⟩, rfl⟩
    have hlink' := hlink.read hk hle
    rw [List.append_assoc] at hlink'
    exact ⟨⟨hhead, json, _, rfl, hlen, hlink'⟩, h.paired⟩
  | readFail =>
    obtain rfl : reset s n = s' := by simpa [callStep] using hs
    exact inv_reset h
  | complete =>
    simp only [callStep, Option.ite_none_right_eq_some, Option.some.injEq] at hs
    rcases hs with ⟨hgot, rfl⟩
    rcases hlink.complete rfl hhead hgot with ⟨hclean, r, hans, hmsg⟩
    constructor
    · exact idle_of_clean hstream hclean
    · apply paired_finish h.paired
      intro v hv
      exact ⟨r, got, hans, hmsg, hv⟩
  | drop =>
    simp only [callStep, Option.some.injEq] at hs
    subst hs
    have hgot : got.length = fromLe32 head := by simpa [Phase.quiet] using hu _ hholder
    exact ⟨idle_of_clean hstream (hlink.complete rfl hhead hgot).1, h.paired⟩
  | _ => simp [callStep] at hs

theorem inv_callStep {phase : Phase} (h : Inv C s) (hholder : s.holder = some (n, phase))
    (hu : Undisturbed C s a) (hs : callStep C s n phase a = some s') : Inv C s' := by
  cases phase with
  | locked json => exact inv_locked h hholder hu hs
  | writing json sent rest => exact inv_writing h hholder hu hs
  | readLen got => exact inv_readLen h hholder hu hs
  | readBody head got => exact inv_readBody h hholder hu hs

/-- An undisturbed step keeps the invariant. -/
theorem inv_step (h : Inv C s) (hu : Undisturbed C s a) (hs : step C s a = some s') :
    Inv C s' := by
  have hcall : ∀ a, Undisturbed C s a →
      (match s.holder with
        | some (n, phase) => callStep C s n phase a
        | none => none) = some s' → Inv C s' := by
    intro a hu hs
    cases hholder : s.holder with
    | none => simp [hholder] at hs
    | some e =>
      rw [hholder] at hs
      exact inv_callStep h hholder hu hs
  have hdaemon : ∀ a, Undisturbed C s a →
      (match s.stream with
        | some c => daemonStep C s c a
        | none => none) = some s' → Inv C s' := by
    intro a hu hs
    cases hstream : s.stream with
    | none => simp [hstream] at hs
    | some c =>
      rw [hstream] at hs
      exact h.of_served (served_daemonStep hstream hu hs)
  cases a with
  | acquire n json =>
    simp only [step, Option.ite_none_right_eq_some, Option.some.injEq] at hs
    rcases hs with ⟨⟨hfree, -⟩, rfl⟩
    refine ⟨?_, h.paired⟩
    have hok := h.holder
    rwa [hfree] at hok
  | daemonLen => exact hdaemon _ hu hs
  | daemonBody => exact hdaemon _ hu hs
  | respond r => exact hdaemon _ hu hs
  | daemonWrite k => exact hdaemon _ hu hs
  | daemonClose => exact hdaemon _ hu hs
  | _ => exact hcall _ hu hs

theorem inv_init : Inv C (init : St Resp) where
  holder := by
    intro c hc
    simp [init] at hc
  paired := by
    intro n v hret
    simp [init] at hret

/-- **Pairing.** Whatever the interleaving of calls, failures, timeouts and steps
of the daemon: as long as no step disturbs an exchange, every call that returned
a response returned the response to its own request. -/
theorem paired_of_undisturbed {as : List (Act Resp)}
    (hquiet : Along (step C) (Undisturbed C) init as) :
    Always (step C) (Paired C) init as := by
  refine always_of_along (I := Inv C) ?_ ?_ inv_init hquiet
  · intro s h
    exact h.paired
  · intro s a s' h hu hs
    exact inv_step h hu hs

end Invariant

/-! ## Two calls -/

section Dropped

/-- `{"type":"Ping"}` and `{"type":"ListSpaces"}` -/
def pingJson : Bytes := utf8 "\x7b\"type\":\"Ping\"\x7d".toList

@[inherit_doc pingJson]
def listJson : Bytes := utf8 "\x7b\"type\":\"ListSpaces\"\x7d".toList

/-- `{"type":"Ok","data":null}` and `{"type":"Ok","data":[]}` -/
def pong : Bytes := utf8 "\x7b\"type\":\"Ok\",\"data\":null\x7d".toList

@[inherit_doc pong]
def noSpaces : Bytes := utf8 "\x7b\"type\":\"Ok\",\"data\":[]\x7d".toList

/-- The two responses, each standing for itself. -/
def sample : RespCodec Bytes where
  toJson r := some r
  fromJson bs := if bs = pong ∨ bs = noSpaces then some bs else none

/-- The daemon's part of an exchange. -/
def serve (r : Bytes) : List (Act Bytes) :=
  [.daemonLen, .daemonBody, .respond r, .daemonWrite 4, .daemonWrite r.length]

/-- A call from its first to its last byte. -/
def exchange (json r : Bytes) : List (Act Bytes) :=
  [.start, .write 4, .write json.length] ++ serve r ++ [.read 4, .read r.length, .complete]

/-- Two calls, the second of which is first dropped before it has written. -/
def quietRun : List (Act Bytes) :=
  [.acquire 1 (some pingJson), .connect true] ++ exchange pingJson pong ++
    [.acquire 2 (some listJson), .start, .drop, .acquire 3 (some listJson)] ++
    exchange listJson noSpaces

theorem quietRun_returns :
    Along (step sample) (Undisturbed sample) init quietRun ∧
      (run (step sample) init quietRun).map (fun s => s.returned) =
        some [(3, some noSpaces), (1, some pong)] := by
  decide

theorem paired_of_undisturbed_quiet :
    Along (step sample) (Undisturbed sample) init quietRun ∧
      Always (step sample) (Paired sample) init quietRun ∧
      (run (step sample) init quietRun).map (fun s => s.returned) =
        some [(3, some noSpaces), (1, some pong)] := by
  rcases quietRun_returns with ⟨hquiet, hreturned⟩
  exact ⟨hquiet, paired_of_undisturbed hquiet, hreturned⟩

/-- The first call is dropped while it waits for its response; the second call
takes over the stream. -/
def droppedRun : List (Act Bytes) :=
  [.acquire 1 (some pingJson), .connect true, .start, .write 4, .write pingJson.length, .drop] ++
    serve pong ++
    [.acquire 2 (some listJson), .start, .write 4, .write listJson.length, .read 4,
      .read pong.length, .complete]

/-- The second call returns the response to the first: the daemon has not even
read its request. -/
theorem dropped_call_mispairs :
    ∃ s, run (step sample) init droppedRun = some s ∧ s.returned = [(2, some pong)] ∧
      s.answered = [(1, pong)] ∧ ¬ Paired sample s := by
  have hret : (run (step sample) init droppedRun).map (fun s => (s.returned, s.answered)) =
      some ([(2, some pong)], [(1, pong)]) := by decide
  rcases Option.map_eq_some_iff.1 hret with ⟨s, hrun, hpair⟩
  rcases Prod.mk.injEq .. ▸ hpair with ⟨hreturned, hanswered⟩
  refine ⟨s, hrun, hreturned, hanswered, ?_⟩
  intro hpaired
  rcases hpaired 2 pong (by simp [hreturned]) with ⟨r, msg, hans, -, -⟩
  simp [hanswered] at hans

end Dropped

end IpcClient

end HomeTier
