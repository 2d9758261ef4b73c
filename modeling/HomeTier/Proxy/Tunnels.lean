import HomeTier.Lib.Decimal
import HomeTier.Lib.Settle

/-! # Tunnels between two ends

Two components of the proxy pass bytes between a client and an upstream, each with
a `tokio::io::copy` for either direction. `HttpsTunnelPlugin`
(`src-tauri/src/proxy/plugins/https_tunnel.rs`) waits with `join!` for both;
`bidirectional_copy` (`proxy/ws_proxy.rs`) shuts the other end down behind each,
waits with `select!` for the first and aborts the other. `connectTunnel` and
`bidirectionalCopy` are these two, and the runs below interleave the reads and
writes of the copies, of any size, with whatever the ends do.

A CONNECT request names its target by host and port (`parseHostPort`); a host that is
written like its port is asked for port 443 (`parseHostPort_eq_iff`).

1. A CONNECT tunnel passes everything on, unless a copy fails, and tells an end of
   the other's end only when both have ended (`tunnel_rests`).
2. A WebSocket relay passes everything on as long as neither has ended, and tells
   both as soon as one has (`relay_rests`).
3. What is then on its way in the other direction can be lost, and nothing else
   can (`relay_loses_iff`).
-/

namespace HomeTier.Tunnels

open Lib

/-! ## Where a tunnel leads -/

def isBracket (c : Char) : Bool := c == '[' || c == ']'

/-- `parse_host_port`, of the authority of the request line, else of the `host` header -/
def parseHostPort (authority hostHeader : Option Str) : Option (Str × UInt16) :=
  match authority.or hostHeader with
  | none => none
  | some authority =>
    let (host, port) :=
      match cutAtLast ':' authority with
      | none => (authority, 443)
      | some (host, portStr) =>
        -- meant for an authority without a colon
        if portStr = host then (host, 443) else (host, (parseU16 portStr).getD 443)
    let host := (host.dropWhile isBracket).rdropWhile isBracket
    if host = [] then none else some (host, port)

/-- The target is the one that is named, unless the host is written like the port. -/
theorem parseHostPort_eq_iff {host : Str}
    (hne : (host.dropWhile isBracket).rdropWhile isBracket ≠ []) (port : UInt16)
    (hostHeader : Option Str) :
    parseHostPort (some (host ++ ':' :: decimal port.toNat)) hostHeader =
        some ((host.dropWhile isBracket).rdropWhile isBracket, port) ↔
      decimal port.toNat ≠ host ∨ port = 443 := by
  have hcolon : ':' ∉ decimal port.toNat := by
    intro hmem
    have hdigit := isDigit_of_mem_decimal hmem
    revert hdigit
    decide
  have hcut := cutAtLast_append hcolon host
  unfold parseHostPort
  simp only [Option.some_or, hcut]
  by_cases hsame : decimal port.toNat = host
  · simp only [if_pos hsame, if_neg hne, Option.some.injEq, Prod.mk.injEq, true_and]
    constructor
    · exact fun h => .inr h.symm
    · exact fun h => (h.resolve_left (not_not_intro hsame)).symm
  · simp only [if_neg hsame, if_neg hne, parseU16_decimal, Option.getD_some, true_iff]
    exact .inl hsame

/-! ## The ends -/

inductive End where
  | client
  | upstream
deriving DecidableEq

def End.other : End → End
  | .client => .upstream
  | .upstream => .client

theorem End.eq_or_eq_other (d e : End) : d = e ∨ d = e.other := by
  cases d <;> cases e <;> simp [other]

/-! ## One direction -/

/-- `tokio::io::copy` of what an end sends. -/
inductive Task where
  | copying
  /-- It has returned after the last byte. -/
  | copied
  /-- It has returned with an error. -/
  | failed
  | aborted
deriving DecidableEq

structure Flow where
  /-- All that the end has sent. -/
  sent : Bytes
  /-- It sends nothing more. -/
  ended : Bool
  /-- Sent, and not read yet. -/
  wire : Bytes
  /-- Read, and not written yet. -/
  buf : Bytes
  /-- Written to the other end. -/
  given : Bytes
  task : Task
  /-- The `shutdown` behind the copy has returned. -/
  shut : Bool
deriving DecidableEq

/-- What an end does, and what its copy does. -/
inductive FlowAct where
  | send (bytes : Bytes)
  | finish
  | fail
  | read (n : Nat)
  | write (n : Nat)
  | complete
deriving DecidableEq

namespace FlowAct

/-- The steps that need nothing from outside. -/
def own : FlowAct → Bool
  | .read _ | .write _ | .complete => true
  | _ => false

end FlowAct

namespace Flow

/-- The buffer of `copy` -/
def room : Nat := 8192

variable (f : Flow)

/-- A read returns at least a byte and a write takes one, as many as the network likes. -/
def act : FlowAct → Option Flow
  | .send bytes =>
    if f.ended then none else some { f with sent := f.sent ++ bytes, wire := f.wire ++ bytes }
  | .finish => if f.ended then none else some { f with ended := true }
  | .fail => if f.task = .copying then some { f with task := .failed } else none
  | .read n =>
    if f.task = .copying ∧ f.wire ≠ [] ∧ f.buf.length < room then
      let k := min (n + 1) (room - f.buf.length)
      some { f with wire := f.wire.drop k, buf := f.buf ++ f.wire.take k }
    else none
  | .write n =>
    if f.task = .copying ∧ f.buf ≠ [] then
      some { f with buf := f.buf.drop (n + 1), given := f.given ++ f.buf.take (n + 1) }
    else none
  | .complete =>
    if f.task = .copying ∧ f.ended = true ∧ f.wire = [] ∧ f.buf = [] then
      some { f with task := .copied }
    else none

/-- Its copy does not wait for the end. -/
def Closing : Prop := f.ended = true ∨ f.task = .failed

/-- What is sent is given in order, and a copy that returns has given it all. -/
structure Kept : Prop where
  sent : f.sent = f.given ++ f.buf ++ f.wire
  copied : f.task = .copied → f.ended = true ∧ f.buf = [] ∧ f.wire = []

/-- Twice the bytes to be read, those to be written, and what is left of the task. -/
def work : Nat :=
  2 * f.wire.length + f.buf.length + (if f.task = .copying then 1 else 0) +
    (if f.shut ∨ f.task = .aborted then 0 else 1)

end Flow

section Flows

variable {f f' : Flow} {a : FlowAct}

/-- The steps of a flow, and what each needs. -/
inductive Flow.Moved (f : Flow) : FlowAct → Flow → Prop
  | sent {bytes} (h : f.ended = false) :
    Moved f (.send bytes) { f with sent := f.sent ++ bytes, wire := f.wire ++ bytes }
  | finished (h : f.ended = false) : Moved f .finish { f with ended := true }
  | failed (h : f.task = .copying) : Moved f .fail { f with task := .failed }
  | read {n k} (h : f.task = .copying) (hwire : f.wire ≠ []) (hk : 0 < k) :
    Moved f (.read n) { f with wire := f.wire.drop k, buf := f.buf ++ f.wire.take k }
  | wrote {n} (h : f.task = .copying) (hbuf : f.buf ≠ []) :
    Moved f (.write n) { f with buf := f.buf.drop (n + 1), given := f.given ++ f.buf.take (n + 1) }
  | completed (h : f.task = .copying) (hended : f.ended = true) (hwire : f.wire = [])
      (hbuf : f.buf = []) : Moved f .complete { f with task := .copied }

theorem Flow.act_moved (h : f.act a = some f') : f.Moved a f' := by
  cases a with
  | send bytes =>
    simp only [act] at h
    split at h
    · cases h
    · next hended =>
      obtain rfl := Option.some.inj h
      exact .sent (Bool.eq_false_iff.2 hended)
  | finish =>
    simp only [act] at h
    split at h
    · cases h
    · next hended =>
      obtain rfl := Option.some.inj h
      exact .finished (Bool.eq_false_iff.2 hended)
  | fail =>
    rcases Option.ite_none_right_eq_some.1 h with ⟨htask, hf'⟩
    obtain rfl := Option.some.inj hf'
    exact .failed htask
  | read n =>
    rcases Option.ite_none_right_eq_some.1 h with ⟨⟨htask, hwire, hroom⟩, hf'⟩
    obtain rfl := Option.some.inj hf'
    exact .read htask hwire (by omega)
  | write n =>
    rcases Option.ite_none_right_eq_some.1 h with ⟨⟨htask, hbuf⟩, hf'⟩
    obtain rfl := Option.some.inj hf'
    exact .wrote htask hbuf
  | complete =>
    rcases Option.ite_none_right_eq_some.1 h with ⟨⟨htask, hended, hwire, hbuf⟩, hf'⟩
    obtain rfl := Option.some.inj hf'
    exact .completed htask hended hwire hbuf

theorem Flow.kept_act (hkept : f.Kept) (h : f.act a = some f') : f'.Kept := by
  cases act_moved h with
  | sent hended =>
    refine ⟨?_, fun hcopied => ?_⟩
    · show f.sent ++ _ = f.given ++ f.buf ++ (f.wire ++ _)
      rw [hkept.sent, List.append_assoc]
    · rw [(hkept.copied hcopied).1] at hended
      cases hended
  | finished hended =>
    refine ⟨hkept.sent, fun hcopied => ?_⟩
    exact ⟨rfl, (hkept.copied hcopied).2⟩
  | failed => exact ⟨hkept.sent, fun hcopied => by cases hcopied⟩
  | @read n k htask =>
    refine ⟨?_, fun hcopied => ?_⟩
    · show f.sent = f.given ++ (f.buf ++ f.wire.take k) ++ f.wire.drop k
      rw [hkept.sent, ← List.append_assoc, List.append_assoc _ (f.wire.take k),
        List.take_append_drop]
    · rw [htask] at hcopied
      cases hcopied
  | @wrote n htask =>
    refine ⟨?_, fun hcopied => ?_⟩
    · show f.sent = f.given ++ f.buf.take (n + 1) ++ f.buf.drop (n + 1) ++ f.wire
      rw [hkept.sent, List.append_assoc f.given (f.buf.take _), List.take_append_drop]
    · rw [htask] at hcopied
      cases hcopied
  | completed _ hended hwire hbuf => exact ⟨hkept.sent, fun _ => ⟨hended, hbuf, hwire⟩⟩

theorem Flow.Kept.given_begins (hkept : f.Kept) : f.given <+: f.sent := by
  rw [hkept.sent, List.append_assoc]
  exact List.prefix_append _ _

theorem Flow.Kept.given_eq_iff (hkept : f.Kept) : f.given = f.sent ↔ f.buf = [] ∧ f.wire = [] := by
  rw [hkept.sent, List.append_assoc, List.self_eq_append_right, List.append_eq_nil_iff]

/-- What has come through stays so while the end sends nothing. -/
theorem Flow.given_act (hkept : f.Kept) (hown : a.own = true) (h : f.act a = some f')
    (hgiven : f.given = f.sent) : f'.given = f'.sent := by
  rcases hkept.given_eq_iff.1 hgiven with ⟨hbuf, hwire⟩
  cases act_moved h with
  | sent => cases hown
  | finished => cases hown
  | failed => cases hown
  | read _ hne => exact absurd hwire hne
  | wrote _ hne => exact absurd hbuf hne
  | completed => exact hgiven

theorem Flow.work_act (hown : a.own = true) (h : f.act a = some f') : f'.work < f.work := by
  cases act_moved h with
  | sent => cases hown
  | finished => cases hown
  | failed => cases hown
  | @read n k htask hwire hk =>
    have hlen : 0 < f.wire.length := List.length_pos_iff.2 hwire
    simp only [work, List.length_drop, List.length_append, List.length_take]
    omega
  | wrote htask hbuf =>
    have hlen : 0 < f.buf.length := List.length_pos_iff.2 hbuf
    simp only [work, List.length_drop]
    omega
  | completed htask =>
    simp [work, htask]

/-- A copy that cannot go on has given all there is, and waits for the end. -/
theorem Flow.stuck (hkept : f.Kept) (htask : f.task = .copying)
    (hsettled : ∀ a : FlowAct, a.own = true → f.act a = none) :
    f.given = f.sent ∧ f.ended = false := by
  have hbuf : f.buf = [] := by
    by_contra hne
    have hwrite := hsettled (.write 0) rfl
    rw [act, if_pos ⟨htask, hne⟩] at hwrite
    cases hwrite
  have hwire : f.wire = [] := by
    by_contra hne
    have hread := hsettled (.read 0) rfl
    rw [act, if_pos ⟨htask, hne, by rw [hbuf]; decide⟩] at hread
    cases hread
  refine ⟨hkept.given_eq_iff.2 ⟨hbuf, hwire⟩, ?_⟩
  rw [Bool.eq_false_iff]
  intro hended
  have hcomplete := hsettled .complete rfl
  rw [act, if_pos ⟨htask, hended, hwire, hbuf⟩] at hcomplete
  cases hcomplete

end Flows

/-! ## Both directions -/

structure St where
  /-- By the end that sends. -/
  flow : End → Flow
  /-- `join!` or `select!` has returned. -/
  returned : Bool

def init : St := ⟨fun _ => ⟨[], false, [], [], [], .copying, false⟩, false⟩

inductive Act where
  | flow (e : End) (a : FlowAct)
  | join
  | shutdown (e : End)
  | select (e : End)
  | abort (e : End)
deriving DecidableEq

def Act.own : Act → Bool
  | .flow _ a => a.own
  | _ => true

namespace St

variable (s : St)

def setFlow (e : End) (f : Flow) : St := { s with flow := Function.update s.flow e f }

def work : Nat := (s.flow .client).work + (s.flow .upstream).work + (!s.returned).toNat

end St

/-- The task that `handle` spawns for a tunnel. -/
def connectTunnel (s : St) : Act → Option St
  | .flow e a => ((s.flow e).act a).map (s.setFlow e)
  | .join =>
    if (s.flow .client).task ≠ .copying ∧ (s.flow .upstream).task ≠ .copying ∧
        s.returned = false then
      some { s with returned := true }
    else none
  | _ => none

def bidirectionalCopy (s : St) : Act → Option St
  | .flow e a => ((s.flow e).act a).map (s.setFlow e)
  | .join => none
  | .shutdown e =>
    if ((s.flow e).task = .copied ∨ (s.flow e).task = .failed) ∧ (s.flow e).shut = false then
      some (s.setFlow e { s.flow e with shut := true })
    else none
  | .select e =>
    if (s.flow e).shut = true ∧ s.returned = false then some { s with returned := true } else none
  | .abort e =>
    -- a task that has returned is not there to be aborted
    if s.returned = true ∧ (s.flow e).shut = false ∧ (s.flow e).task ≠ .aborted then
      some (s.setFlow e { s.flow e with task := .aborted })
    else none

section States

variable {s s' : St} {e : End}

@[simp] theorem St.setFlow_returned (s : St) (e : End) (f : Flow) :
    (s.setFlow e f).returned = s.returned := rfl

@[simp] theorem St.setFlow_self (s : St) (e : End) (f : Flow) : (s.setFlow e f).flow e = f :=
  Function.update_self ..

theorem St.setFlow_of_ne (s : St) (f : Flow) {d : End} (h : d ≠ e) :
    (s.setFlow e f).flow d = s.flow d :=
  Function.update_of_ne h ..

theorem St.setFlow_other (s : St) (e : End) (f : Flow) :
    (s.setFlow e f).flow e.other = s.flow e.other :=
  s.setFlow_of_ne f (by cases e <;> decide)

/-- What holds of the new flow and of the others. -/
theorem St.forall_setFlow {P : End → Flow → Prop} {f : Flow} (hf : P e f)
    (h : ∀ d, d ≠ e → P d (s.flow d)) (d : End) : P d ((s.setFlow e f).flow d) := by
  by_cases hd : d = e
  · subst hd
    rw [s.setFlow_self]
    exact hf
  · rw [s.setFlow_of_ne f hd]
    exact h d hd

theorem St.setFlow_at {P : Flow → Prop} {f : Flow} {d : End} (hf : e = d → P f)
    (h : P (s.flow d)) : P ((s.setFlow e f).flow d) := by
  by_cases hd : d = e
  · subst hd
    rw [s.setFlow_self]
    exact hf rfl
  · rw [s.setFlow_of_ne f hd]
    exact h

theorem St.work_setFlow {f : Flow} (h : f.work < (s.flow e).work) :
    (s.setFlow e f).work < s.work := by
  cases e with
  | client =>
    have hother : (s.setFlow .client f).flow .upstream = s.flow .upstream := s.setFlow_other ..
    simp only [work, s.setFlow_self, hother, s.setFlow_returned]
    omega
  | upstream =>
    have hother : (s.setFlow .upstream f).flow .client = s.flow .client := s.setFlow_other ..
    simp only [work, s.setFlow_self, hother, s.setFlow_returned]
    omega

theorem St.work_returned (h : s.returned = false) : { s with returned := true }.work < s.work := by
  simp [work, h]

end States

/-! ## A CONNECT tunnel -/

section Tunnel

variable {s s' : St} {a : Act}

/-- The steps of a tunnel. -/
inductive Tunnelled (s : St) : Act → St → Prop
  | flow {e a f} (h : (s.flow e).act a = some f) : Tunnelled s (.flow e a) (s.setFlow e f)
  | joined (hback : ∀ e, (s.flow e).task ≠ .copying) (hreturned : s.returned = false) :
    Tunnelled s .join { s with returned := true }

theorem tunnelled_step (h : connectTunnel s a = some s') : Tunnelled s a s' := by
  cases a with
  | flow e a =>
    rcases Option.map_eq_some_iff.1 h with ⟨f, hf, rfl⟩
    exact .flow hf
  | join =>
    rcases Option.ite_none_right_eq_some.1 h with ⟨⟨hclient, hupstream, hreturned⟩, hs'⟩
    obtain rfl := Option.some.inj hs'
    refine .joined (fun e => ?_) hreturned
    cases e with
    | client => exact hclient
    | upstream => exact hupstream
  | shutdown e => cases h
  | select e => cases h
  | abort e => cases h

/-- Nothing is aborted, and `join!` has waited for both. -/
structure TunnelKept (s : St) : Prop where
  flow : ∀ e, (s.flow e).Kept
  task : ∀ e, (s.flow e).task ≠ .aborted
  returned : s.returned = true → ∀ e, (s.flow e).task ≠ .copying

theorem Flow.task_act {f f' : Flow} {a : FlowAct} (h : f.act a = some f') :
    f'.task = f.task ∨ (f.task = .copying ∧ (f'.task = .copied ∨ f'.task = .failed)) := by
  cases act_moved h with
  | sent | finished | read | wrote => exact .inl rfl
  | failed htask => exact .inr ⟨htask, .inr rfl⟩
  | completed htask => exact .inr ⟨htask, .inl rfl⟩

theorem tunnelKept_init : TunnelKept init where
  flow _ := ⟨rfl, fun h => by cases h⟩
  task _ h := by cases h
  returned h := by cases h

theorem tunnelKept_step (hkept : TunnelKept s) (h : connectTunnel s a = some s') :
    TunnelKept s' := by
  cases tunnelled_step h with
  | @flow e a f hf =>
    have htask := Flow.task_act hf
    constructor
    · exact St.forall_setFlow (P := fun _ f => f.Kept) (Flow.kept_act (hkept.flow e) hf)
        fun d _ => hkept.flow d
    · refine St.forall_setFlow (P := fun _ f => f.task ≠ .aborted) ?_ fun d _ => hkept.task d
      rcases htask with heq | ⟨-, heq | heq⟩
      · exact heq ▸ hkept.task e
      · rw [heq]; decide
      · rw [heq]; decide
    · intro hreturned
      have hback := hkept.returned hreturned
      refine St.forall_setFlow (P := fun _ f => f.task ≠ .copying) ?_ fun d _ => hback d
      rcases htask with heq | ⟨hcopying, -⟩
      · exact heq ▸ hback e
      · exact absurd hcopying (hback e)
  | joined hback => exact ⟨hkept.flow, hkept.task, fun _ => hback⟩

theorem tunnelKept_run {as : List Act} (hrun : run connectTunnel init as = some s) :
    TunnelKept s :=
  run_preserves (fun _ _ _ => tunnelKept_step) tunnelKept_init hrun

theorem work_tunnel (hown : a.own = true) (h : connectTunnel s a = some s') :
    s'.work < s.work := by
  cases tunnelled_step h with
  | flow hf => exact St.work_setFlow (Flow.work_act hown hf)
  | joined _ hreturned => exact St.work_returned hreturned

/-- At rest, every flow has come through or failed, and `join!` has returned if neither
copy waits for its end. -/
theorem tunnel_settled (hkept : TunnelKept s)
    (hsettled : Settled connectTunnel (fun a => a.own = true) s) :
    (∀ e, (s.flow e).given = (s.flow e).sent ∨ (s.flow e).task = .failed) ∧
      (s.returned = true ↔ ∀ e, (s.flow e).Closing) := by
  have hflow : ∀ e, (s.flow e).task = .copying →
      (s.flow e).given = (s.flow e).sent ∧ (s.flow e).ended = false := by
    intro e htask
    refine Flow.stuck (hkept.flow e) htask fun a hown => ?_
    exact Option.map_eq_none_iff.1 (hsettled (.flow e a) hown)
  refine ⟨fun e => ?_, fun hreturned e => ?_, fun hall => ?_⟩
  · cases htask : (s.flow e).task with
    | copying => exact .inl (hflow e htask).1
    | copied => exact .inl ((hkept.flow e).given_eq_iff.2 ((hkept.flow e).copied htask).2)
    | failed => exact .inr rfl
    | aborted => exact absurd htask (hkept.task e)
  · cases htask : (s.flow e).task with
    | copying => exact absurd htask (hkept.returned hreturned e)
    | copied => exact .inl ((hkept.flow e).copied htask).1
    | failed => exact .inr htask
    | aborted => exact absurd htask (hkept.task e)
  · have hback : ∀ e, (s.flow e).task ≠ .copying := by
      intro e htask
      rcases hall e with hended | hfailed
      · rw [(hflow e htask).2] at hended
        cases hended
      · rw [htask] at hfailed
        cases hfailed
    by_contra hreturned
    have hjoin := hsettled .join rfl
    rw [connectTunnel, if_pos ⟨hback _, hback _, Bool.eq_false_iff.2 hreturned⟩] at hjoin
    cases hjoin

/-- In every run of a CONNECT tunnel each end is given the beginning of what the other sent.
Left to itself the tunnel comes to rest after at most `work` steps; then all that was sent is
given unless a copy failed, and the ends are told the end if both have ended or failed, and
not before. -/
theorem tunnel_rests (as : List Act) (s : St) (hrun : run connectTunnel init as = some s) :
    (∀ e, (s.flow e).given <+: (s.flow e).sent) ∧
      (∀ bs t, (∀ a ∈ bs, a.own = true) → run connectTunnel s bs = some t →
        bs.length ≤ s.work) ∧
      (Settled connectTunnel (fun a => a.own = true) s →
        (∀ e, (s.flow e).given = (s.flow e).sent ∨ (s.flow e).task = .failed) ∧
          (s.returned = true ↔ ∀ e, (s.flow e).Closing)) := by
  have hkept := tunnelKept_run hrun
  refine ⟨fun e => (hkept.flow e).given_begins, fun bs t hown hbs => ?_, tunnel_settled hkept⟩
  have hle : bs.length + t.work ≤ s.work := by
    refine length_add_work_le (I := TunnelKept) St.work ?_ ?_ hkept hown hbs
    · exact fun _ _ _ hkept _ h => tunnelKept_step hkept h
    · exact fun _ _ _ _ hown h => work_tunnel hown h
  omega

end Tunnel

/-! ## A WebSocket relay -/

namespace St

variable (s : St)

/-- The task of the flow has ended, and its halves of the sockets are dropped. -/
def gone (e : End) : Bool := (s.flow e).shut || decide ((s.flow e).task = .aborted)

/-- The end has been shut down, or its socket is closed. -/
def told (e : End) : Bool := (s.flow e.other).shut || (s.gone .client && s.gone .upstream)

end St

section Relay

variable {s s' : St} {a : Act}

/-- The steps of a relay. -/
inductive Relayed (s : St) : Act → St → Prop
  | flow {e a f} (h : (s.flow e).act a = some f) : Relayed s (.flow e a) (s.setFlow e f)
  | shut {e} (hback : (s.flow e).task = .copied ∨ (s.flow e).task = .failed)
      (hshut : (s.flow e).shut = false) :
    Relayed s (.shutdown e) (s.setFlow e { s.flow e with shut := true })
  | selected {e} (hshut : (s.flow e).shut = true) (hreturned : s.returned = false) :
    Relayed s (.select e) { s with returned := true }
  | aborted {e} (hreturned : s.returned = true) (hshut : (s.flow e).shut = false)
      (htask : (s.flow e).task ≠ .aborted) :
    Relayed s (.abort e) (s.setFlow e { s.flow e with task := .aborted })

theorem relayed_step (h : bidirectionalCopy s a = some s') : Relayed s a s' := by
  cases a with
  | flow e a =>
    rcases Option.map_eq_some_iff.1 h with ⟨f, hf, rfl⟩
    exact .flow hf
  | join => cases h
  | shutdown e =>
    rcases Option.ite_none_right_eq_some.1 h with ⟨⟨hback, hshut⟩, hs'⟩
    obtain rfl := Option.some.inj hs'
    exact .shut hback hshut
  | select e =>
    rcases Option.ite_none_right_eq_some.1 h with ⟨⟨hshut, hreturned⟩, hs'⟩
    obtain rfl := Option.some.inj hs'
    exact .selected hshut hreturned
  | abort e =>
    rcases Option.ite_none_right_eq_some.1 h with ⟨⟨hreturned, hshut, htask⟩, hs'⟩
    obtain rfl := Option.some.inj hs'
    exact .aborted hreturned hshut htask

/-- Only a copy that has returned shuts the other end down; `select!` waits for one that
has, and then the other is aborted. -/
structure RelayKept (s : St) : Prop where
  flow : ∀ e, (s.flow e).Kept
  shut : ∀ e, (s.flow e).shut = true → (s.flow e).task = .copied ∨ (s.flow e).task = .failed
  returned : s.returned = true → ∃ e, (s.flow e).shut = true
  aborted : ∀ e, (s.flow e).task = .aborted → s.returned = true

theorem Flow.shut_act {f f' : Flow} {a : FlowAct} (h : f.act a = some f') : f'.shut = f.shut := by
  cases act_moved h <;> rfl

theorem relayKept_init : RelayKept init where
  flow _ := ⟨rfl, fun h => by cases h⟩
  shut _ h := by cases h
  returned h := by cases h
  aborted _ h := by cases h

theorem relayKept_step (hkept : RelayKept s) (h : bidirectionalCopy s a = some s') :
    RelayKept s' := by
  cases relayed_step h with
  | @flow e a f hf =>
    -- a step of one direction: the other one is as it was
    have htask := Flow.task_act hf
    constructor
    · exact St.forall_setFlow (P := fun _ f => f.Kept) (Flow.kept_act (hkept.flow e) hf)
        fun d _ => hkept.flow d
    · refine St.forall_setFlow
        (P := fun _ f => f.shut = true → f.task = .copied ∨ f.task = .failed) ?_
        fun d _ => hkept.shut d
      intro hshut
      rw [Flow.shut_act hf] at hshut
      rcases htask with heq | ⟨-, hback⟩
      · exact heq ▸ hkept.shut e hshut
      · exact hback
    · intro hreturned
      rcases hkept.returned hreturned with ⟨d, hd⟩
      refine ⟨d, St.setFlow_at (P := fun f => f.shut = true) ?_ hd⟩
      rintro rfl
      rw [Flow.shut_act hf, hd]
    · refine St.forall_setFlow (P := fun _ f => f.task = .aborted → s.returned = true) ?_
        fun d _ => hkept.aborted d
      -- no step of its own aborts a direction
      intro haborted
      rcases htask with heq | ⟨-, heq | heq⟩
      · exact hkept.aborted e (heq ▸ haborted)
      · rw [heq] at haborted
        cases haborted
      · rw [heq] at haborted
        cases haborted
  | @shut e hback hshut =>
    constructor
    · refine St.forall_setFlow (P := fun _ f => f.Kept) ?_ fun d _ => hkept.flow d
      exact ⟨(hkept.flow e).sent, (hkept.flow e).copied⟩
    · exact St.forall_setFlow
        (P := fun _ f => f.shut = true → f.task = .copied ∨ f.task = .failed) (fun _ => hback)
        fun d _ => hkept.shut d
    · intro _
      refine ⟨e, ?_⟩
      rw [St.setFlow_self]
    · exact St.forall_setFlow (P := fun _ f => f.task = .aborted → s.returned = true)
        (hkept.aborted e) fun d _ => hkept.aborted d
  | @selected e hshut => exact ⟨hkept.flow, hkept.shut, fun _ => ⟨e, hshut⟩, fun _ _ => rfl⟩
  | @aborted e hreturned hshut =>
    constructor
    · refine St.forall_setFlow (P := fun _ f => f.Kept) ?_ fun d _ => hkept.flow d
      exact ⟨(hkept.flow e).sent, fun h => by cases h⟩
    · refine St.forall_setFlow
        (P := fun _ f => f.shut = true → f.task = .copied ∨ f.task = .failed) ?_
        fun d _ => hkept.shut d
      -- the direction that is aborted has not been shut
      intro h
      rw [hshut] at h
      cases h
    · intro _
      rcases hkept.returned hreturned with ⟨d, hd⟩
      refine ⟨d, ?_⟩
      rw [St.setFlow_of_ne _ _ fun hde => by rw [hde, hshut] at hd; cases hd]
      exact hd
    · exact fun _ _ => hreturned

theorem relayKept_run {as : List Act} (hrun : run bidirectionalCopy init as = some s) :
    RelayKept s :=
  run_preserves (fun _ _ _ => relayKept_step) relayKept_init hrun

theorem work_relay (hown : a.own = true)
    (h : bidirectionalCopy s a = some s') : s'.work < s.work := by
  cases relayed_step h with
  | flow hf => exact St.work_setFlow (Flow.work_act hown hf)
  | shut hback hshut =>
    refine St.work_setFlow ?_
    rcases hback with hback | hback <;> simp [Flow.work, hback, hshut]
  | selected _ hreturned => exact St.work_returned hreturned
  | @aborted e _ hshut htask =>
    refine St.work_setFlow ?_
    simp only [Flow.work, hshut, htask, reduceCtorEq, Bool.false_eq_true, or_false, or_true,
      if_true, if_false]
    omega

theorem closing_of_shut (hkept : RelayKept s) {e : End} (hshut : (s.flow e).shut = true) :
    (s.flow e).Closing := by
  rcases hkept.shut e hshut with hcopied | hfailed
  · exact .inl ((hkept.flow e).copied hcopied).1
  · exact .inr hfailed

theorem closing_of_returned (hkept : RelayKept s) (hreturned : s.returned = true) :
    ∃ e, (s.flow e).Closing := by
  rcases hkept.returned hreturned with ⟨e, hshut⟩
  exact ⟨e, closing_of_shut hkept hshut⟩

/-- What leads from the end of a flow to that of the relay. -/
def Act.finishes (e : End) : Act → Bool
  | .flow d a => a.own && decide (d = e)
  | .shutdown d | .select d => decide (d = e)
  | _ => false

theorem Act.own_of_finishes {e : End} (h : a.finishes e = true) : a.own = true := by
  cases a with
  | flow d a => exact (Bool.and_eq_true_iff.1 h).1
  | _ => rfl

theorem returned_of_closing (hkept : RelayKept s) {e : End}
    (hsettled : Settled bidirectionalCopy (fun a => a.finishes e = true) s)
    (hclosing : (s.flow e).Closing) : s.returned = true := by
  by_contra hreturned
  have hnot : ¬ (s.flow e).shut = true := by
    intro hshut
    have hselect := hsettled (.select e) (decide_eq_true rfl)
    rw [bidirectionalCopy, if_pos ⟨hshut, Bool.eq_false_iff.2 hreturned⟩] at hselect
    cases hselect
  have hback : ¬ ((s.flow e).task = .copied ∨ (s.flow e).task = .failed) := by
    intro hback
    have hshutdown := hsettled (.shutdown e) (decide_eq_true rfl)
    rw [bidirectionalCopy, if_pos ⟨hback, Bool.eq_false_iff.2 hnot⟩] at hshutdown
    cases hshutdown
  cases htask : (s.flow e).task with
  | copying =>
    have hstuck := Flow.stuck (hkept.flow e) htask fun a hown =>
      Option.map_eq_none_iff.1 (hsettled (.flow e a) (by simp [Act.finishes, hown]))
    rcases hclosing with hended | hfailed
    · rw [hstuck.2] at hended
      cases hended
    · rw [htask] at hfailed
      cases hfailed
  | copied => exact hback (.inl htask)
  | failed => exact hback (.inr htask)
  | aborted => exact hreturned (hkept.aborted e htask)

section Rest

variable (hkept : RelayKept s) (hsettled : Settled bidirectionalCopy (fun a => a.own = true) s)

include hsettled

theorem settled_finishes (e : End) :
    Settled bidirectionalCopy (fun a => a.finishes e = true) s :=
  fun a h => hsettled a (Act.own_of_finishes h)

theorem gone_of_returned (hreturned : s.returned = true) (e : End) : s.gone e = true := by
  rw [St.gone, Bool.or_eq_true, decide_eq_true_eq]
  by_contra hnot
  rw [not_or] at hnot
  have habort := hsettled (.abort e) rfl
  rw [bidirectionalCopy, if_pos ⟨hreturned, Bool.eq_false_iff.2 hnot.1, hnot.2⟩] at habort
  cases habort

include hkept

theorem given_of_not_returned (hreturned : s.returned = false) (e : End) :
    (s.flow e).given = (s.flow e).sent := by
  have hnot : ¬ (s.flow e).Closing := by
    intro hclosing
    rw [returned_of_closing hkept (settled_finishes hsettled e) hclosing] at hreturned
    cases hreturned
  cases htask : (s.flow e).task with
  | copying =>
    exact (Flow.stuck (hkept.flow e) htask fun a hown =>
      Option.map_eq_none_iff.1 (hsettled (.flow e a) hown)).1
  | copied => exact absurd (.inl ((hkept.flow e).copied htask).1) hnot
  | failed => exact absurd (.inr htask) hnot
  | aborted =>
    rw [hkept.aborted e htask] at hreturned
    cases hreturned

theorem relay_settled :
    (∀ e, s.told e = true ↔ ∃ d, (s.flow d).Closing) ∧
      ∀ e, (s.flow e).given = (s.flow e).sent ∨ ∃ d, (s.flow d).Closing := by
  refine ⟨fun e => ⟨fun htold => ?_, ?_⟩, fun e => ?_⟩
  · rw [St.told, Bool.or_eq_true, Bool.and_eq_true] at htold
    rcases htold with hshut | ⟨hgone, -⟩
    · exact ⟨e.other, closing_of_shut hkept hshut⟩
    · rw [St.gone, Bool.or_eq_true, decide_eq_true_eq] at hgone
      rcases hgone with hshut | haborted
      · exact ⟨.client, closing_of_shut hkept hshut⟩
      · exact closing_of_returned hkept (hkept.aborted _ haborted)
  · rintro ⟨d, hclosing⟩
    have hreturned := returned_of_closing hkept (settled_finishes hsettled d) hclosing
    rw [St.told, gone_of_returned hsettled hreturned, gone_of_returned hsettled hreturned,
      Bool.and_true, Bool.or_true]
  · cases hreturned : s.returned with
    | false => exact .inl (given_of_not_returned hkept hsettled hreturned e)
    | true => exact .inr (closing_of_returned hkept hreturned)

end Rest

/-- In every run of a WebSocket relay each end is given the beginning of what the other sent,
and all of it by a copy that returns. Left to itself the relay comes to rest after at most
`work` steps; then both ends are told the end if one of them has ended or a copy has failed,
and not before, and until then all that was sent is given. -/
theorem relay_rests (as : List Act) (s : St) (hrun : run bidirectionalCopy init as = some s) :
    (∀ e, (s.flow e).given <+: (s.flow e).sent ∧
        ((s.flow e).task = .copied → (s.flow e).given = (s.flow e).sent)) ∧
      (∀ bs t, (∀ a ∈ bs, a.own = true) → run bidirectionalCopy s bs = some t →
        bs.length ≤ s.work) ∧
      (Settled bidirectionalCopy (fun a => a.own = true) s →
        (∀ e, s.told e = true ↔ ∃ d, (s.flow d).Closing) ∧
          ∀ e, (s.flow e).given = (s.flow e).sent ∨ ∃ d, (s.flow d).Closing) := by
  have hkept := relayKept_run hrun
  refine ⟨fun e => ⟨(hkept.flow e).given_begins, fun hcopied => ?_⟩, fun bs t hown hbs => ?_,
    relay_settled hkept⟩
  · exact (hkept.flow e).given_eq_iff.2 ((hkept.flow e).copied hcopied).2
  · have hle : bs.length + t.work ≤ s.work := by
      refine length_add_work_le (I := RelayKept) St.work ?_ ?_ hkept hown hbs
      · exact fun _ _ _ hkept _ h => relayKept_step hkept h
      · exact fun _ _ _ _ hown h => work_relay hown h
    omega

/-! ### What a relay loses -/

/-- A flow that is given whole stays so. -/
theorem given_relay (hkept : RelayKept s) {e : End} (hgiven : (s.flow e).given = (s.flow e).sent)
    (hown : a.own = true) (h : bidirectionalCopy s a = some s') :
    (s'.flow e).given = (s'.flow e).sent := by
  cases relayed_step h with
  | @flow d a f hf =>
    refine St.setFlow_at (P := fun f => f.given = f.sent) ?_ hgiven
    rintro rfl
    exact Flow.given_act (hkept.flow d) hown hf hgiven
  | shut | aborted =>
    refine St.setFlow_at (P := fun f => f.given = f.sent) ?_ hgiven
    rintro rfl
    exact hgiven
  | selected => exact hgiven

theorem Flow.closing_act {f f' : Flow} {a : FlowAct} (hown : a.own = true)
    (h : f.act a = some f') : f'.Closing ↔ f.Closing := by
  cases act_moved h with
  | sent | finished | failed => cases hown
  | read | wrote => exact Iff.rfl
  | completed _ hended => exact iff_of_true (.inl hended) (.inl hended)

/-- While one end goes on, and its flow does not fail, the other's flow comes through. -/
structure Waits (e : End) (s : St) : Prop where
  kept : RelayKept s
  other : ¬ (s.flow e.other).Closing
  copying : ((s.flow e).task = .copying ∧ s.returned = false) ∨ (s.flow e).given = (s.flow e).sent

theorem waits_step {e : End} (h : Waits e s) (hown : a.own = true)
    (hstep : bidirectionalCopy s a = some s') : Waits e s' := by
  have hkept := h.kept
  refine ⟨relayKept_step hkept hstep, ?_, ?_⟩
  · cases relayed_step hstep with
    | @flow d a f hf =>
      refine St.setFlow_at (P := fun f => ¬ f.Closing) ?_ h.other
      rintro rfl
      rw [Flow.closing_act hown hf]
      exact h.other
    | shut =>
      refine St.setFlow_at (P := fun f => ¬ f.Closing) ?_ h.other
      rintro rfl
      exact h.other
    | selected => exact h.other
    | aborted =>
      refine St.setFlow_at (P := fun f => ¬ f.Closing) ?_ h.other
      rintro rfl (hended | hfailed)
      · exact h.other (.inl hended)
      · cases hfailed
  · rcases h.copying with ⟨htask, hreturned⟩ | hgiven
    · cases relayed_step hstep with
      | @flow d a f hf =>
        refine St.setFlow_at (P := fun f => (f.task = .copying ∧ s.returned = false) ∨
          f.given = f.sent) ?_ (.inl ⟨htask, hreturned⟩)
        rintro rfl
        cases Flow.act_moved hf with
        | sent | finished | failed => cases hown
        | read | wrote => exact .inl ⟨htask, hreturned⟩
        | completed _ _ hwire hbuf => exact .inr ((hkept.flow d).given_eq_iff.2 ⟨hbuf, hwire⟩)
      | @shut d hback =>
        refine St.setFlow_at (P := fun f => (f.task = .copying ∧ s.returned = false) ∨
          f.given = f.sent) ?_ (.inl ⟨htask, hreturned⟩)
        rintro rfl
        exact .inl ⟨htask, hreturned⟩
      | @selected d hshut =>
        -- neither copy has returned
        rcases End.eq_or_eq_other d e with rfl | rfl
        · rcases hkept.shut d hshut with hback | hback
          · rw [htask] at hback
            cases hback
          · rw [htask] at hback
            cases hback
        · exact absurd (closing_of_shut hkept hshut) h.other
      | aborted hreturned' =>
        rw [hreturned] at hreturned'
        cases hreturned'
    · exact .inr (given_relay hkept hgiven hown hstep)
/-- What is aborted or has failed passes nothing more on. -/
theorem lost_step {e : End} (h : RelayKept s ∧ (s.flow e).task ≠ .copying ∧
      (s.flow e).given ≠ (s.flow e).sent) (hown : a.own = true)
    (hstep : bidirectionalCopy s a = some s') :
    RelayKept s' ∧ (s'.flow e).task ≠ .copying ∧ (s'.flow e).given ≠ (s'.flow e).sent := by
  rcases h with ⟨hkept, hlost⟩
  refine ⟨relayKept_step hkept hstep, ?_⟩
  cases relayed_step hstep with
  | @flow d a f hf =>
    refine St.setFlow_at (P := fun f => f.task ≠ .copying ∧ f.given ≠ f.sent) ?_ hlost
    rintro rfl
    cases Flow.act_moved hf with
    | sent | finished | failed => cases hown
    | read htask | wrote htask | completed htask => exact absurd htask hlost.1
  | shut =>
    refine St.setFlow_at (P := fun f => f.task ≠ .copying ∧ f.given ≠ f.sent) ?_ hlost
    rintro rfl
    exact hlost
  | selected => exact hlost
  | aborted =>
    refine St.setFlow_at (P := fun f => f.task ≠ .copying ∧ f.given ≠ f.sent) ?_ hlost
    rintro rfl
    exact ⟨fun h => (by cases h), hlost.2⟩

theorem exists_settles_relay (hkept : RelayKept s) :
    ∃ t, Settles bidirectionalCopy (fun a => a.own = true) s t := by
  refine exists_settles (I := RelayKept) St.work ?_ ?_ hkept
  · exact fun _ _ _ hkept _ h => relayKept_step hkept h
  · exact fun _ _ _ _ hown h => work_relay hown h

theorem loses_of_lost (hkept : RelayKept s) {e : End} (htask : (s.flow e).task ≠ .copying)
    (hgiven : (s.flow e).given ≠ (s.flow e).sent) :
    ∃ t, Settles bidirectionalCopy (fun a => a.own = true) s t ∧
      (t.flow e).given ≠ (t.flow e).sent := by
  rcases exists_settles_relay hkept with ⟨t, ht⟩
  have hlost := ht.preserves (fun _ _ _ h hown hstep => lost_step h hown hstep)
    ⟨hkept, htask, hgiven⟩
  exact ⟨t, ht, hlost.2.2⟩

/-- The other flow comes to its end first, and this one has not moved. -/
structure Raced (s : St) (e : End) (t : St) : Prop where
  kept : RelayKept t
  flow : t.flow e = s.flow e
  closing : (t.flow e.other).Closing

theorem raced_step {t t' : St} {e : End} (h : Raced s e t) (hfinishes : a.finishes e.other = true)
    (hstep : bidirectionalCopy t a = some t') : Raced s e t' := by
  have hother : e ≠ e.other := by cases e <;> decide
  refine ⟨relayKept_step h.kept hstep, ?_, ?_⟩
  · cases relayed_step hstep with
    | flow =>
      obtain rfl := of_decide_eq_true (Bool.and_eq_true_iff.1 hfinishes).2
      exact (St.setFlow_of_ne _ _ hother).trans h.flow
    | shut =>
      obtain rfl := of_decide_eq_true hfinishes
      exact (St.setFlow_of_ne _ _ hother).trans h.flow
    | selected => exact h.flow
    | aborted => cases hfinishes
  · cases relayed_step hstep with
    | flow hf =>
      obtain ⟨hown, hd⟩ := Bool.and_eq_true_iff.1 hfinishes
      obtain rfl := of_decide_eq_true hd
      rw [St.setFlow_self, Flow.closing_act hown hf]
      exact h.closing
    | shut =>
      obtain rfl := of_decide_eq_true hfinishes
      rw [St.setFlow_self]
      exact h.closing
    | selected => exact h.closing
    | aborted => cases hfinishes

/-- The other flow is brought to its end, and this one is aborted where it is. -/
theorem loses_of_closing (hkept : RelayKept s) {e : End} (htask : (s.flow e).task = .copying)
    (hclosing : (s.flow e.other).Closing) (hgiven : (s.flow e).given ≠ (s.flow e).sent) :
    ∃ t, Settles bidirectionalCopy (fun a => a.own = true) s t ∧
      (t.flow e).given ≠ (t.flow e).sent := by
  have hends : ∃ t, Settles bidirectionalCopy (fun a => a.finishes e.other = true) s t := by
    refine exists_settles (I := RelayKept) St.work ?_ ?_ hkept
    · exact fun _ _ _ hkept _ h => relayKept_step hkept h
    · exact fun _ _ _ _ h hstep => work_relay (Act.own_of_finishes h) hstep
  rcases hends with ⟨t, ht⟩
  have hraced : Raced s e t :=
    ht.preserves (fun _ _ _ h hfinishes hstep => raced_step h hfinishes hstep)
      ⟨hkept, rfl, hclosing⟩
  rcases ht with ⟨as, has, hrun, hsettled⟩
  have hreturned := returned_of_closing hraced.kept hsettled hraced.closing
  have hcopying : (t.flow e).task = .copying := hraced.flow ▸ htask
  have hshut : (t.flow e).shut = false := by
    rw [Bool.eq_false_iff]
    intro hshut
    rcases hraced.kept.shut e hshut with hback | hback
    · rw [hcopying] at hback
      cases hback
    · rw [hcopying] at hback
      cases hback
  have habort : bidirectionalCopy t (.abort e) =
      some (t.setFlow e { t.flow e with task := .aborted }) := by
    rw [bidirectionalCopy, if_pos ⟨hreturned, hshut, by rw [hcopying]; decide⟩]
  have hlost : ∃ u, Settles bidirectionalCopy (fun a => a.own = true)
      (t.setFlow e { t.flow e with task := .aborted }) u ∧ (u.flow e).given ≠ (u.flow e).sent := by
    refine loses_of_lost (relayKept_step hraced.kept habort) ?_ ?_
    · rw [St.setFlow_self]
      exact fun h => by cases h
    · rw [St.setFlow_self, hraced.flow]
      exact hgiven
  rcases hlost with ⟨u, hu, hne⟩
  exact ⟨u, .after (fun a ha => Act.own_of_finishes (has a ha)) hrun (hu.head rfl habort), hne⟩

/-- In every run of a WebSocket relay, what one end has sent can still be lost, by the relay
alone, exactly if some of it is not given yet and its copy is not at work any more, or the
other end has ended or the other copy failed. -/
theorem relay_loses_iff (as : List Act) (s : St)
    (hrun : run bidirectionalCopy init as = some s) (e : End) :
    (∃ t, Settles bidirectionalCopy (fun a => a.own = true) s t ∧
        (t.flow e).given ≠ (t.flow e).sent) ↔
      (s.flow e).given ≠ (s.flow e).sent ∧
        ((s.flow e).task ≠ .copying ∨ (s.flow e.other).Closing) := by
  have hkept := relayKept_run hrun
  constructor
  · rintro ⟨t, ht, hne⟩
    have hgiven : (s.flow e).given ≠ (s.flow e).sent := by
      intro hgiven
      -- a direction that has passed on all there is loses nothing any more
      have hwhole := ht.preserves
        (I := fun s => RelayKept s ∧ (s.flow e).given = (s.flow e).sent)
        (fun _ _ _ h hown hstep =>
          ⟨relayKept_step h.1 hstep, given_relay h.1 h.2 hown hstep⟩) ⟨hkept, hgiven⟩
      exact hne hwhole.2
    refine ⟨hgiven, ?_⟩
    by_contra hnot
    rw [not_or, not_not] at hnot
    have hreturned : s.returned = false := by
      rw [Bool.eq_false_iff]
      intro hreturned
      rcases hkept.returned hreturned with ⟨d, hshut⟩
      rcases End.eq_or_eq_other d e with rfl | rfl
      · rcases hkept.shut d hshut with hback | hback
        · rw [hnot.1] at hback
          cases hback
        · rw [hnot.1] at hback
          cases hback
      · exact hnot.2 (closing_of_shut hkept hshut)
    -- so it still copies and nothing ends it: left to itself it writes all it has
    have hwaits := ht.preserves (fun _ _ _ h hown hstep => waits_step h hown hstep)
      ⟨hkept, hnot.2, .inl ⟨hnot.1, hreturned⟩⟩
    rcases ht with ⟨-, -, -, hsettled⟩
    rcases hwaits.copying with ⟨-, hreturned⟩ | hwhole
    · exact hne (given_of_not_returned hwaits.kept hsettled hreturned e)
    · exact hne hwhole
  · rintro ⟨hgiven, hback⟩
    by_cases htask : (s.flow e).task = .copying
    · exact loses_of_closing hkept htask (hback.resolve_left (not_not_intro htask)) hgiven
    · exact loses_of_lost hkept htask hgiven

end Relay

/-! ### A client that ends first -/

/-- The client ends its request; the upstream's answer has not been read. -/
def halfClosed : List Act := [
  .flow .client (.send [71]), .flow .client .finish, .flow .client (.read 0),
  .flow .client (.write 0), .flow .upstream (.send [50, 48]), .flow .client .complete]

def halfClosedEnd : St := (run bidirectionalCopy init halfClosed).getD init

theorem run_halfClosed : run bidirectionalCopy init halfClosed = some halfClosedEnd := rfl

/-- The answer can be lost. -/
theorem relay_loses_iff_halfClosed :
    ∃ t, Settles bidirectionalCopy (fun a => a.own = true) halfClosedEnd t ∧
      (t.flow .upstream).given ≠ (t.flow .upstream).sent :=
  (relay_loses_iff halfClosed halfClosedEnd run_halfClosed .upstream).2
    ⟨by decide, .inr (.inl rfl)⟩

/-- A CONNECT tunnel with the same client, whose upstream waits for the end of the request. -/
def waiting : List Act := [
  .flow .client (.send [71]), .flow .client .finish, .flow .client (.read 0),
  .flow .client (.write 0), .flow .client .complete]

def waitingEnd : St := (run connectTunnel init waiting).getD init

theorem run_waiting : run connectTunnel init waiting = some waitingEnd := rfl

theorem settled_waiting : Settled connectTunnel (fun a => a.own = true) waitingEnd := by
  intro a hown
  cases a with
  | flow e a =>
    cases e with
    | client => cases a <;> rfl
    | upstream => cases a <;> first | rfl | cases hown
  | _ => rfl

/-- The upstream is not told the end, and neither side goes on. -/
theorem tunnel_rests_waiting : ¬ (∀ e, (waitingEnd.flow e).Closing) ∧
    ∀ e, (waitingEnd.flow e).given = (waitingEnd.flow e).sent ∨
      (waitingEnd.flow e).task = .failed := by
  have hrests := (tunnel_rests waiting waitingEnd run_waiting).2.2 settled_waiting
  refine ⟨fun hall => ?_, hrests.1⟩
  have hreturned : waitingEnd.returned = true := hrests.2.2 hall
  cases hreturned

/-- A relay with the client that has stopped, left to itself. -/
def closed : List Act := halfClosed ++ [.shutdown .client, .select .client, .abort .upstream]

def closedEnd : St := (run bidirectionalCopy init closed).getD init

theorem run_closed : run bidirectionalCopy init closed = some closedEnd := rfl

theorem settled_closed : Settled bidirectionalCopy (fun a => a.own = true) closedEnd := by
  intro a hown
  cases a with
  | flow e a =>
    cases e with
    | client => cases a <;> rfl
    | upstream => cases a <;> first | rfl | cases hown
  | join => rfl
  | shutdown e | select e | abort e => cases e <;> rfl

/-- Both ends are told the end. -/
theorem relay_rests_closed : closedEnd.told .client = true ∧ closedEnd.told .upstream = true := by
  have hrests := ((relay_rests closed closedEnd run_closed).2.2 settled_closed).1
  have hclosing : ∃ d, (closedEnd.flow d).Closing := ⟨.client, .inl rfl⟩
  exact ⟨(hrests .client).2 hclosing, (hrests .upstream).2 hclosing⟩

end HomeTier.Tunnels
