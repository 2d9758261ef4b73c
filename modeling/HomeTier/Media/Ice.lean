import Mathlib.Logic.Function.Basic
import HomeTier.Lib.Tasks
import HomeTier.Lib.Text

/-! # The candidates of one negotiation

`onOffer`, `onAnswer`, `onIce` and `flushPendingIce` of `src/services/voice.ts`
and `src/services/screen.ts`, cut at their awaits, as they treat one remote
address during one negotiation: one offer or one answer comes, and candidates
come before it and after it. The side that offers has its connection from the
start; the other one makes it, for the offer or (in a call) for a join.

What a candidate is, and how its text is read, is left to `parse`. `delivered`
are the candidates that have come; `established` is the connection whose
descriptions are both set.
-/

namespace HomeTier.Ice

open Lib

inductive Service where
  | voice
  | screen
deriving DecidableEq

inductive Role where
  | offerer
  | answerer
deriving DecidableEq

structure IceState (ι : Type) where
  /-- The connection of `peers.get(remoteIp)`. -/
  entry : Option Nat
  next : Nat
  remoteDescription : Nat → Bool
  pendingIce : Nat → List ι
  /-- What `addIceCandidate` of the connection has been given. -/
  added : Nat → List ι
  /-- The offer or the answer has come. -/
  described : Bool
  delivered : List ι
  established : Option Nat

inductive IceTask (ι : Type) where
  /-- `await this.createPeer(remoteIp)`, for an offer or for a join. -/
  | created (pc : Nat) (offered : Bool)
  | setRemote (pc : Nat)
  | createAnswer (pc : Nat)
  | setLocal (pc : Nat)
  /-- The loop of `flushPendingIce`, with what is left of `pending`. -/
  | flushing (pc : Nat) (rest : List ι)
  /-- `sendSignal`, of the answer. -/
  | answering
deriving DecidableEq

inductive IceEvent where
  /-- The other one joins the call, or is a member found online. -/
  | join
  | offer
  | answer
  | ice (candidate : Option Str)

inductive IceAnswer where
  | done
  | failed

/-- `data?.candidate`, where there is one that can be read. -/
def readCandidate {ι : Type} (parse : Str → Option ι) : Option Str → Option ι
  | none => none
  | some text => if text.isEmpty then none else parse text

namespace IceState

variable {ι : Type}

def addIceCandidate (s : IceState ι) (pc : Nat) (init : ι) : IceState ι :=
  { s with added := Function.update s.added pc (init :: s.added pc) }

def deliver (s : IceState ι) (init : ι) : IceState ι :=
  { s with delivered := init :: s.delivered }

def onIce (s : IceState ι) (init : Option ι) : IceState ι :=
  match s.entry, init with
  | some pc, some init =>
    if s.remoteDescription pc then s.addIceCandidate pc init
    else { s with pendingIce := Function.update s.pendingIce pc (s.pendingIce pc ++ [init]) }
  | _, _ => s

/-- The loop of `flushPendingIce`, up to its next wait. What follows it is the
answer, on the side that answers. -/
def addNext (s : IceState ι) (role : Role) (pc : Nat) : List ι → IceState ι × List (IceTask ι)
  | [] => (s, if role = .answerer then [.answering] else [])
  | init :: rest => (s.addIceCandidate pc init, [.flushing pc rest])

def flushPendingIce (s : IceState ι) (role : Role) (pc : Nat) : IceState ι × List (IceTask ι) :=
  { s with established := some pc, pendingIce := Function.update s.pendingIce pc [] }.addNext role
    pc (s.pendingIce pc)

end IceState

/-! ## The steps -/

section Script

variable {ι : Type} (parse : Str → Option ι) (service : Service) (role : Role)

def startIce (s : IceState ι) : IceEvent → Option (IceState ι × List (IceTask ι))
  | .join =>
    if service = .screen then none
    else if s.entry.isSome then some (s, [])
    else some ({ s with next := s.next + 1 }, [.created s.next false])
  | .offer =>
    if role = .offerer ∨ s.described then none
    else
      match s.entry with
      | some pc => some ({ s with described := true }, [.setRemote pc])
      | none => some ({ s with described := true, next := s.next + 1 }, [.created s.next true])
  | .answer =>
    if role = .answerer ∨ s.described then none
    else
      match s.entry with
      | some pc => some ({ s with described := true }, [.setRemote pc])
      | none => some ({ s with described := true }, [])
  | .ice candidate =>
    match readCandidate parse candidate with
    | some init => some ((s.deliver init).onIce (some init), [])
    | none => some (s.onIce none, [])

def resumeIce (s : IceState ι) : IceTask ι → IceAnswer → Option (IceState ι × List (IceTask ι))
  | .created pc offered, .done =>
    some ({ s with entry := some pc }, if offered then [.setRemote pc] else [])
  | .setRemote pc, .done =>
    let s := { s with remoteDescription := Function.update s.remoteDescription pc true }
    match role, service with
    | .offerer, _ => some (s.flushPendingIce role pc)
    | .answerer, .voice => some (s, [.setLocal pc])
    | .answerer, .screen => some (s, [.createAnswer pc])
  | .createAnswer pc, .done => some (s, [.setLocal pc])
  | .setLocal pc, .done => some (s.flushPendingIce role pc)
  -- an error of `addIceCandidate` is logged, and the loop goes on
  | .flushing pc rest, _ => some (s.addNext role pc rest)
  | .answering, _ => some (s, [])
  | _, .failed => some (s, [])

def iceScript [DecidableEq ι] : Script (IceState ι) (IceTask ι) IceEvent IceAnswer where
  start := startIce parse service role
  resume := resumeIce service role

/-- The side that offers has sent its offer on connection 0. -/
def iceInit : Page (IceState ι) (IceTask ι) where
  shared :=
    { entry := if role = .offerer then some 0 else none
      next := 1
      remoteDescription := fun _ => false
      pendingIce := fun _ => []
      added := fun _ => []
      described := false
      delivered := []
      established := none }
  waiting := []

end Script

/-! ## No candidate is lost -/

section Candidates

variable {ι : Type}

/-- The connection a handler goes on with. -/
def IceTask.peer : IceTask ι → Option Nat
  | .created _ _ | .answering => none
  | .setRemote pc | .createAnswer pc | .setLocal pc | .flushing pc _ => some pc

/-- The connection holds no candidate, and no handler goes on with it. -/
structure Unused (s : IceState ι) (ws : List (IceTask ι)) (pc : Nat) : Prop where
  pending : s.pendingIce pc = []
  added : s.added pc = []
  established : s.established ≠ some pc
  handlers : ∀ t ∈ ws, t.peer ≠ some pc

instance [DecidableEq ι] (s : IceState ι) (ws : List (IceTask ι)) (pc : Nat) :
    Decidable (Unused s ws pc) :=
  decidable_of_iff (s.pendingIce pc = [] ∧ s.added pc = [] ∧ s.established ≠ some pc ∧
      ∀ t ∈ ws, t.peer ≠ some pc)
    ⟨fun ⟨h₁, h₂, h₃, h₄⟩ => ⟨h₁, h₂, h₃, h₄⟩, fun ⟨h₁, h₂, h₃, h₄⟩ => ⟨h₁, h₂, h₃, h₄⟩⟩

variable (parse : Str → Option ι)

/-- A candidate comes when there is a connection, and a connection that has been
made takes the place of none that is in use. -/
def CandidateKept (s : IceState ι) (ws : List (IceTask ι)) :
    PageAct (IceTask ι) IceEvent IceAnswer → Prop
  | .start (.ice candidate) => (readCandidate parse candidate).isSome → s.entry.isSome
  | .resume (.created _ _) .done => ∀ pc ∈ s.entry, Unused s ws pc
  | _ => True

instance [DecidableEq ι] (s : IceState ι) (ws : List (IceTask ι))
    (a : PageAct (IceTask ι) IceEvent IceAnswer) : Decidable (CandidateKept parse s ws a) := by
  unfold CandidateKept
  split
  all_goals infer_instance

variable {parse}

/-- Once no handler waits, what has come is added. -/
def AllAdded (p : Page (IceState ι) (IceTask ι)) : Prop :=
  p.waiting = [] → ∀ pc, p.shared.established = some pc →
    ∀ init ∈ p.shared.delivered, init ∈ p.shared.added pc

/-- Where a candidate that has come may be. -/
def Held (s : IceState ι) (ws : List (IceTask ι)) (pc : Nat) (init : ι) : Prop :=
  init ∈ s.added pc ∨ init ∈ s.pendingIce pc ∨ ∃ rest, .flushing pc rest ∈ ws ∧ init ∈ rest

structure Kept (s : IceState ι) (ws : List (IceTask ι)) : Prop where
  handlers : ∀ t ∈ ws, ∀ pc, t.peer = some pc → s.entry = some pc
  described : ∀ pc, .createAnswer pc ∈ ws ∨ .setLocal pc ∈ ws → s.remoteDescription pc
  established : ∀ pc, s.established = some pc →
    s.entry = some pc ∧ s.remoteDescription pc ∧ s.pendingIce pc = []
  held : ∀ init ∈ s.delivered, ∃ pc, s.entry = some pc ∧ Held s ws pc init

namespace Kept

variable {s s' : IceState ι} {ws ws' ts : List (IceTask ι)} {t : IceTask ι} {pc : Nat}

theorem perm (hw : ws.Perm ws') (h : Kept s ws) : Kept s ws' where
  handlers t ht := h.handlers t (hw.mem_iff.mpr ht)
  described pc hpc := h.described pc (by simpa only [hw.mem_iff] using hpc)
  established := h.established
  held init hi := by
    rcases h.held init hi with ⟨pc, he, hheld⟩
    exact ⟨pc, he, by simpa only [Held, hw.mem_iff] using hheld⟩

theorem of_some {x : IceState ι × List (IceTask ι)} (h : Kept x.1 (ws ++ x.2))
    (hs : some x = some (s', ts)) : Kept s' (ws ++ ts) := by
  obtain rfl := Option.some.inj hs
  exact h

/-- `Kept` does not read how many connections there have been. -/
theorem count (h : Kept s ws) (next : Nat) (described : Bool) :
    Kept { s with next := next, described := described } ws where
  handlers := h.handlers
  described := h.described
  established := h.established
  held := h.held

/-- A handler that is no loop of `flushPendingIce` holds no candidate. -/
theorem drop (h : Kept s (t :: ws)) (ht : ∀ pc rest, t ≠ .flushing pc rest) : Kept s ws where
  handlers t' ht' := h.handlers t' (List.mem_cons_of_mem _ ht')
  described pc hpc := h.described pc (hpc.imp (List.mem_cons_of_mem _) (List.mem_cons_of_mem _))
  established := h.established
  held init hi := by
    rcases h.held init hi with ⟨pc, he, ha | hp | ⟨rest, hrest, hmem⟩⟩
    · exact ⟨pc, he, .inl ha⟩
    · exact ⟨pc, he, .inr (.inl hp)⟩
    · rcases List.mem_cons.mp hrest with heq | hrest
      · exact absurd heq.symm (ht pc rest)
      · exact ⟨pc, he, .inr (.inr ⟨rest, hrest, hmem⟩)⟩

theorem append (h : Kept s ws) (hpeer : ∀ t ∈ ts, ∀ pc, t.peer = some pc → s.entry = some pc)
    (hdesc : ∀ pc, .createAnswer pc ∈ ts ∨ .setLocal pc ∈ ts → s.remoteDescription pc) :
    Kept s (ws ++ ts) where
  handlers t ht := by
    rcases List.mem_append.mp ht with ht | ht
    · exact h.handlers t ht
    · exact hpeer t ht
  described pc hpc := by
    simp only [List.mem_append] at hpc
    rcases hpc with (hc | hc) | (hl | hl)
    · exact h.described pc (.inl hc)
    · exact hdesc pc (.inl hc)
    · exact h.described pc (.inr hl)
    · exact hdesc pc (.inr hl)
  established := h.established
  held init hi := by
    rcases h.held init hi with ⟨pc, he, hheld⟩
    refine ⟨pc, he, hheld.imp_right (Or.imp_right ?_)⟩
    rintro ⟨rest, hrest, hmem⟩
    exact ⟨rest, List.mem_append_left _ hrest, hmem⟩

/-- A handler goes on with the same connection, or ends. -/
theorem goOn (h : Kept s (t :: ws)) (ht : ∀ pc rest, t ≠ .flushing pc rest)
    (hpeer : ∀ t' ∈ ts, t'.peer = none ∨ t'.peer = t.peer)
    (hdesc : ∀ pc, .createAnswer pc ∈ ts ∨ .setLocal pc ∈ ts → s.remoteDescription pc) :
    Kept s (ws ++ ts) := by
  refine (h.drop ht).append ?_ hdesc
  intro t' ht' pc hpc
  rcases hpeer t' ht' with hnone | hsame
  · rw [hnone] at hpc
    cases hpc
  · exact h.handlers t List.mem_cons_self pc (hsame ▸ hpc)

/-- `setRemoteDescription` is done. -/
theorem describe (h : Kept s ws) (pc : Nat) :
    Kept { s with remoteDescription := Function.update s.remoteDescription pc true } ws := by
  have hmono : ∀ k, s.remoteDescription k →
      Function.update s.remoteDescription pc true k = true := by
    intro k hk
    by_cases heq : k = pc
    · simp [heq]
    · simpa [heq] using hk
  constructor
  · exact h.handlers
  · exact fun k hk => hmono k (h.described k hk)
  · intro k hk
    rcases h.established k hk with ⟨he, hr, hp⟩
    exact ⟨he, hmono k hr, hp⟩
  · exact h.held

/-- The pending candidates go over to the loop. -/
theorem splice (h : Kept s ws) (he : s.entry = some pc) (hr : s.remoteDescription pc) :
    Kept { s with
        established := some pc
        pendingIce := Function.update s.pendingIce pc [] }
      (.flushing pc (s.pendingIce pc) :: ws) := by
  constructor
  · intro t ht k hk
    rcases List.mem_cons.mp ht with rfl | ht
    · exact (Option.some.inj hk) ▸ he
    · exact h.handlers t ht k hk
  · intro k hk
    exact h.described k (by simpa using hk)
  · intro k hk
    obtain rfl : pc = k := Option.some.inj hk
    exact ⟨he, hr, Function.update_self _ _ _⟩
  · intro init hi
    rcases h.held init hi with ⟨k, hk, hheld⟩
    obtain rfl : pc = k := Option.some.inj (he.symm.trans hk)
    refine ⟨pc, he, ?_⟩
    rcases hheld with ha | hp | ⟨rest, hrest, hmem⟩
    · exact .inl ha
    · exact .inr (.inr ⟨_, List.mem_cons_self, hp⟩)
    · exact .inr (.inr ⟨rest, List.mem_cons_of_mem _ hrest, hmem⟩)

/-- One round of the loop: the first of its candidates is added. -/
theorem addNext {l : List ι} (h : Kept s (.flushing pc l :: ws)) (role : Role) :
    Kept (s.addNext role pc l).1 (ws ++ (s.addNext role pc l).2) := by
  have he : s.entry = some pc := h.handlers _ List.mem_cons_self pc rfl
  cases l with
  | nil =>
    have hws : Kept s ws := by
      refine ⟨fun t ht => h.handlers t (List.mem_cons_of_mem _ ht), ?_, h.established, ?_⟩
      · exact fun k hk => h.described k (by simpa using hk)
      · intro init hi
        rcases h.held init hi with ⟨k, hk, ha | hp | ⟨rest, hrest, hmem⟩⟩
        · exact ⟨k, hk, .inl ha⟩
        · exact ⟨k, hk, .inr (.inl hp)⟩
        · rcases List.mem_cons.mp hrest with heq | hrest
          · cases heq
            cases hmem
          · exact ⟨k, hk, .inr (.inr ⟨rest, hrest, hmem⟩)⟩
    refine hws.append ?_ ?_
    · intro t ht k hk
      cases role with
      | offerer => cases ht
      | answerer =>
        obtain rfl := List.mem_singleton.mp ht
        cases hk
    · intro k hk
      cases role with
      | offerer => simp [IceState.addNext] at hk
      | answerer => simp [IceState.addNext] at hk
  | cons first rest =>
    constructor
    · intro t ht k hk
      rcases List.mem_append.mp ht with ht | ht
      · exact h.handlers t (List.mem_cons_of_mem _ ht) k hk
      · obtain rfl := List.mem_singleton.mp ht
        exact (Option.some.inj hk) ▸ he
    · intro k hk
      exact h.described k (by simpa [IceState.addNext] using hk)
    · exact h.established
    · intro init hi
      rcases h.held init hi with ⟨k, hk, hheld⟩
      obtain rfl : pc = k := Option.some.inj (he.symm.trans hk)
      refine ⟨pc, he, ?_⟩
      simp only [Held, IceState.addNext, IceState.addIceCandidate, Function.update_self,
        List.mem_cons, List.mem_append]
      rcases hheld with ha | hp | ⟨l, hl, hmem⟩
      · exact .inl (.inr ha)
      · exact .inr (.inl hp)
      · rcases List.mem_cons.mp hl with heq | hl
        · -- it was in this loop: added now, or left for the next round
          cases heq
          rcases List.mem_cons.mp hmem with rfl | hmem
          · exact .inl (.inl rfl)
          · exact .inr (.inr ⟨rest, .inr (by simp), hmem⟩)
        · exact .inr (.inr ⟨l, .inl hl, hmem⟩)

theorem flushPendingIce (h : Kept s ws) (he : s.entry = some pc) (hr : s.remoteDescription pc)
    (role : Role) : Kept (s.flushPendingIce role pc).1 (ws ++ (s.flushPendingIce role pc).2) :=
  (h.splice he hr).addNext role

/-- A candidate for a connection that is there. -/
theorem onIce (h : Kept s ws) (he : s.entry = some pc) (init : ι) :
    Kept ((s.deliver init).onIce (some init)) ws := by
  have hon : (s.deliver init).onIce (some init) =
      if s.remoteDescription pc then (s.deliver init).addIceCandidate pc init
      else { s.deliver init with
        pendingIce := Function.update s.pendingIce pc (s.pendingIce pc ++ [init]) } := by
    simp only [IceState.onIce, IceState.deliver, he]
  rw [hon]
  split
  · refine ⟨h.handlers, h.described, h.established, ?_⟩
    intro c hc
    refine ⟨pc, he, ?_⟩
    simp only [Held, IceState.addIceCandidate, Function.update_self, List.mem_cons]
    rcases List.mem_cons.mp hc with rfl | hc
    · exact .inl (.inl rfl)
    · rcases h.held c hc with ⟨k, hk, hheld⟩
      obtain rfl : pc = k := Option.some.inj (he.symm.trans hk)
      exact hheld.imp_left .inr
  · rename_i hr
    refine ⟨h.handlers, h.described, ?_, ?_⟩
    · intro k hk
      -- a connection that is established has its remote description
      rcases h.established k hk with ⟨hek, hrk, -⟩
      obtain rfl : pc = k := Option.some.inj (he.symm.trans hek)
      exact absurd hrk hr
    · intro c hc
      refine ⟨pc, he, ?_⟩
      simp only [Held, IceState.deliver, Function.update_self, List.mem_append]
      rcases List.mem_cons.mp hc with rfl | hc
      · exact .inr (.inl (.inr List.mem_cons_self))
      · rcases h.held c hc with ⟨k, hk, hheld⟩
        obtain rfl : pc = k := Option.some.inj (he.symm.trans hk)
        exact hheld.imp_right (Or.imp_left .inl)

/-- Where a connection takes the place of none in use, nothing has come yet. -/
theorem untouched (h : Kept s ws) (hk : ∀ pc ∈ s.entry, Unused s ws pc) :
    s.delivered = [] ∧ s.established = none ∧ ∀ t ∈ ws, t.peer = none := by
  refine ⟨?_, ?_, ?_⟩
  · rw [List.eq_nil_iff_forall_not_mem]
    intro init hi
    rcases h.held init hi with ⟨pc, he, hheld⟩
    have hun := hk pc he
    rcases hheld with ha | hp | ⟨rest, hrest, -⟩
    · rw [hun.added] at ha
      cases ha
    · rw [hun.pending] at hp
      cases hp
    · exact hun.handlers _ hrest rfl
  · rw [Option.eq_none_iff_forall_ne_some]
    intro pc hpc
    exact (hk pc (h.established pc hpc).1).established hpc
  · intro t ht
    rw [Option.eq_none_iff_forall_ne_some]
    intro pc hpc
    exact (hk pc (h.handlers t ht pc hpc)).handlers t ht hpc

/-- `this.peers.set(remoteIp, peer)` -/
theorem set (h : Kept s ws) (hk : ∀ pc ∈ s.entry, Unused s ws pc) (pc : Nat) :
    Kept { s with entry := some pc } ws := by
  rcases h.untouched hk with ⟨hdel, hest, hpeer⟩
  constructor
  · intro t ht k hk
    rw [hpeer t ht] at hk
    cases hk
  · exact h.described
  · intro k hk
    exact absurd (hest.symm.trans hk) (by simp)
  · intro init hi
    rw [show s.delivered = [] from hdel] at hi
    cases hi

end Kept

section Runs

variable (service : Service) (role : Role)

theorem keeps_start (s : IceState ι) (ws : List (IceTask ι)) (e : IceEvent) (s' : IceState ι)
    (ts : List (IceTask ι)) (h : Kept s ws) (hk : CandidateKept parse s ws (.start e))
    (hs : startIce parse service role s e = some (s', ts)) : Kept s' (ws ++ ts) := by
  cases e with
  | join =>
    simp only [startIce] at hs
    split_ifs at hs with hscreen hentry
    · cases hs
      simpa using h
    · cases hs
      exact (h.count _ _).append (by simp [IceTask.peer]) (by simp)
  | offer =>
    simp only [startIce] at hs
    split_ifs at hs
    split at hs
    · rename_i pc he
      cases hs
      exact (h.count _ _).append (by simp [IceTask.peer, he]) (by simp)
    · cases hs
      exact (h.count _ _).append (by simp [IceTask.peer]) (by simp)
  | answer =>
    simp only [startIce] at hs
    split_ifs at hs
    split at hs
    · rename_i pc he
      cases hs
      exact (h.count _ _).append (by simp [IceTask.peer, he]) (by simp)
    · cases hs
      simpa using h.count _ _
  | ice candidate =>
    simp only [startIce] at hs
    cases hc : readCandidate parse candidate with
    | none =>
      simp only [hc] at hs
      cases hs
      simpa [IceState.onIce] using h
    | some init =>
      simp only [hc] at hs
      cases hs
      rcases Option.isSome_iff_exists.mp (hk (by simp [hc])) with ⟨pc, he⟩
      simpa using h.onIce he init

theorem keeps_resume (s : IceState ι) (ws : List (IceTask ι)) (t : IceTask ι) (a : IceAnswer)
    (s' : IceState ι) (ts : List (IceTask ι)) (h : Kept s (t :: ws))
    (hk : CandidateKept parse s ws (.resume t a))
    (hs : resumeIce service role s t a = some (s', ts)) : Kept s' (ws ++ ts) := by
  cases t with
  | created pc offered =>
    have hws : Kept s ws := h.drop (by simp)
    cases a with
    | failed =>
      cases hs
      simpa using hws
    | done =>
      cases hs
      refine (hws.set hk pc).append ?_ ?_
      · cases offered <;> simp [IceTask.peer]
      · cases offered <;> simp
  | setRemote pc =>
    have he : s.entry = some pc := h.handlers _ List.mem_cons_self pc rfl
    have hws : Kept s ws := h.drop (by simp)
    cases a with
    | failed =>
      cases hs
      simpa using hws
    | done =>
      have hd := h.describe pc
      cases role with
      | offerer =>
        exact ((hws.describe pc).flushPendingIce he (Function.update_self _ _ _) .offerer).of_some hs
      | answerer =>
        -- the local description comes next, in a screen share after `createAnswer`
        cases service with
        | voice =>
          cases hs
          exact hd.goOn (by simp) (by simp [IceTask.peer]) (by simp)
        | screen =>
          cases hs
          exact hd.goOn (by simp) (by simp [IceTask.peer]) (by simp)
  | createAnswer pc =>
    have hr := h.described pc (.inl List.mem_cons_self)
    cases a with
    | failed =>
      cases hs
      simpa using h.drop (by simp)
    | done =>
      cases hs
      exact h.goOn (by simp) (by simp [IceTask.peer]) (by simpa using hr)
  | setLocal pc =>
    have he : s.entry = some pc := h.handlers _ List.mem_cons_self pc rfl
    have hr := h.described pc (.inr List.mem_cons_self)
    have hws : Kept s ws := h.drop (by simp)
    cases a with
    | failed =>
      cases hs
      simpa using hws
    | done =>
      exact (hws.flushPendingIce he hr role).of_some hs
  | flushing pc rest =>
    exact (h.addNext role).of_some hs
  | answering =>
    cases hs
    simpa using h.drop (by simp)

theorem kept_init :
    Kept (iceInit role : Page (IceState ι) (IceTask ι)).shared (iceInit role : Page _ _).waiting where
  handlers := by simp [iceInit]
  described := by simp [iceInit]
  established := by simp [iceInit]
  held := by simp [iceInit]

theorem allAdded_of_kept (p : Page (IceState ι) (IceTask ι)) (h : Kept p.shared p.waiting) :
    AllAdded p := by
  intro hw pc hest init hi
  rcases h.established pc hest with ⟨he, -, hpending⟩
  rcases h.held init hi with ⟨k, hk, ha | hp | ⟨rest, hrest, -⟩⟩
  · obtain rfl : pc = k := Option.some.inj (he.symm.trans hk)
    exact ha
  · obtain rfl : pc = k := Option.some.inj (he.symm.trans hk)
    rw [hpending] at hp
    cases hp
  · rw [hw] at hrest
    cases hrest

variable [DecidableEq ι]

theorem keeps : (iceScript parse service role).Keeps (CandidateKept parse) Kept where
  perm _ _ _ hw h := h.perm hw
  start := keeps_start service role
  resume := keeps_resume service role

/-- Where every candidate finds a connection, and no connection in use is
replaced, no candidate is lost. -/
theorem no_candidate_lost (as : List (PageAct (IceTask ι) IceEvent IceAnswer))
    (h : Along (iceScript parse service role).step (Script.Within (CandidateKept parse))
      (iceInit role) as) :
    Always (iceScript parse service role).step AllAdded (iceInit role) as :=
  (keeps service role).always allAdded_of_kept (kept_init role) h

end Runs

end Candidates

/-! ## The handlers come to their end -/

section Ends

variable {ι : Type} (service : Service) (role : Role)

/-- A bound for the answers that a handler still takes. -/
def IceTask.steps (s : IceState ι) : IceTask ι → Nat
  | .created pc _ => (s.pendingIce pc).length + 7
  | .setRemote pc => (s.pendingIce pc).length + 6
  | .createAnswer pc => (s.pendingIce pc).length + 5
  | .setLocal pc => (s.pendingIce pc).length + 4
  | .flushing _ rest => rest.length + 2
  | .answering => 1

theorem addNext_steps (s : IceState ι) (pc : Nat) (l : List ι) :
    (s.addNext role pc l).1.pendingIce = s.pendingIce ∧
      ((s.addNext role pc l).2.map (IceTask.steps (s.addNext role pc l).1)).sum
        < l.length + 2 := by
  cases l with
  | nil => cases role <;> simp [IceState.addNext, IceTask.steps]
  | cons init rest => simp [IceState.addNext, IceState.addIceCandidate, IceTask.steps]

/-- What may come to wait is bounded by the candidates that are pending. -/
theorem steps_le {s s' : IceState ι}
    (h : ∀ pc, (s'.pendingIce pc).length ≤ (s.pendingIce pc).length) (t : IceTask ι) :
    t.steps s' ≤ t.steps s := by
  cases t with
  | created pc _ => exact Nat.add_le_add_right (h pc) 7
  | setRemote pc => exact Nat.add_le_add_right (h pc) 6
  | createAnswer pc => exact Nat.add_le_add_right (h pc) 5
  | setLocal pc => exact Nat.add_le_add_right (h pc) 4
  | flushing pc rest => exact le_rfl
  | answering => exact le_rfl

theorem flushPendingIce_steps (s : IceState ι) (pc : Nat) :
    (∀ k, ((s.flushPendingIce role pc).1.pendingIce k).length ≤ (s.pendingIce k).length) ∧
      ((s.flushPendingIce role pc).2.map (IceTask.steps (s.flushPendingIce role pc).1)).sum
        < (s.pendingIce pc).length + 2 := by
  have hnext := addNext_steps role { s with
    established := some pc, pendingIce := Function.update s.pendingIce pc [] } pc (s.pendingIce pc)
  refine ⟨?_, hnext.2⟩
  intro k
  rw [show (s.flushPendingIce role pc).1.pendingIce = _ from hnext.1]
  by_cases hk : k = pc
  · simp [hk]
  · simp [hk]

theorem resumeIce_steps {s s' : IceState ι} {t : IceTask ι} {a : IceAnswer}
    {ts : List (IceTask ι)} (h : resumeIce service role s t a = some (s', ts)) :
    (∀ u : IceTask ι, u.steps s' ≤ u.steps s) ∧ (ts.map (IceTask.steps s')).sum < t.steps s := by
  have hsame : ∀ u : IceTask ι, u.steps s ≤ u.steps s := fun u => le_rfl
  -- the handler ends
  have hfailed (hpos : 0 < t.steps s) (h : some (s, []) = some (s', ts)) :
      (∀ u : IceTask ι, u.steps s' ≤ u.steps s) ∧ (ts.map (IceTask.steps s')).sum < t.steps s := by
    cases h
    exact ⟨hsame, hpos⟩
  have hflush : ∀ r : IceState ι, r.pendingIce = s.pendingIce → ∀ pc,
      some (r.flushPendingIce role pc) = some (s', ts) →
      (∀ u : IceTask ι, u.steps s' ≤ u.steps s) ∧
        (ts.map (IceTask.steps s')).sum < (s.pendingIce pc).length + 4 := by
    intro r hr pc heq
    obtain rfl := congrArg Prod.fst (Option.some.inj heq)
    obtain rfl := congrArg Prod.snd (Option.some.inj heq)
    have hsteps := flushPendingIce_steps role r pc
    rw [hr] at hsteps
    exact ⟨steps_le hsteps.1, by omega⟩
  cases t with
  | created pc offered =>
    cases a with
    | failed => exact hfailed (Nat.succ_pos _) h
    | done =>
      cases h
      refine ⟨steps_le fun _ => le_rfl, ?_⟩
      cases offered <;> simp [IceTask.steps]
  | setRemote pc =>
    cases a with
    | failed => exact hfailed (Nat.succ_pos _) h
    | done =>
      cases role with
      | offerer =>
        rcases hflush { s with remoteDescription := Function.update s.remoteDescription pc true }
          rfl pc h with ⟨hle, hlt⟩
        exact ⟨hle, by simp only [IceTask.steps]; omega⟩
      | answerer =>
        cases service with
        | voice =>
          cases h
          exact ⟨steps_le fun _ => le_rfl, by simp [IceTask.steps]⟩
        | screen =>
          cases h
          exact ⟨steps_le fun _ => le_rfl, by simp [IceTask.steps]⟩
  | createAnswer pc =>
    cases a with
    | failed => exact hfailed (Nat.succ_pos _) h
    | done =>
      cases h
      exact ⟨hsame, by simp [IceTask.steps]⟩
  | setLocal pc =>
    cases a with
    | failed => exact hfailed (Nat.succ_pos _) h
    | done => exact hflush s rfl pc h
  | flushing pc rest =>
    obtain rfl := congrArg Prod.fst (Option.some.inj h)
    obtain rfl := congrArg Prod.snd (Option.some.inj h)
    have hnext := addNext_steps role s pc rest
    refine ⟨steps_le fun k => ?_, hnext.2⟩
    rw [hnext.1]
  | answering => exact hfailed (Nat.succ_pos _) h

/-- When no more messages come, the handlers end after so many answers. -/
theorem handlers_end [DecidableEq ι] (parse : Str → Option ι)
    {p p' : Page (IceState ι) (IceTask ι)} {as : List (IceTask ι × IceAnswer)}
    (hrun : run (iceScript parse service role).step p (as.map fun x => .resume x.1 x.2) = some p') :
    as.length ≤ Script.steps IceTask.steps p :=
  Script.answers_length_le (fun _ _ _ _ _ h => resumeIce_steps service role h) hrun

end Ends

/-- The candidates come while the viewer answers: before the remote description
is set, after it, and in the loop. -/
def lateCandidates : List (PageAct (IceTask Str) IceEvent IceAnswer) :=
  [.start .offer, .resume (.created 1 true) .done, .start (.ice (some ['1'])),
    .start (.ice (some ['2'])), .resume (.setRemote 1) .done, .start (.ice (some ['3'])),
    .resume (.createAnswer 1) .done, .resume (.setLocal 1) .done, .start (.ice (some ['4'])),
    .resume (.flushing 1 [['2']]) .failed, .resume (.flushing 1 []) .done,
    .resume .answering .done]

theorem no_candidate_lost_example :
    Along (iceScript some .screen .answerer).step (Script.Within (CandidateKept some))
      (iceInit .answerer) lateCandidates ∧
    Always (iceScript some .screen .answerer).step AllAdded (iceInit .answerer)
      lateCandidates :=
  ⟨by decide, no_candidate_lost .screen .answerer lateCandidates (by decide)⟩

/-- A candidate comes before the offer that it belongs to. -/
def earlyCandidate : List (PageAct (IceTask Str) IceEvent IceAnswer) :=
  [.start (.ice (some ['\x7b', '\x7d'])), .start .offer, .resume (.created 1 true) .done,
    .resume (.setRemote 1) .done, .resume (.setLocal 1) .done, .resume .answering .done]

theorem candidate_lost : ¬ ∀ (service : Service) (role : Role)
    (as : List (PageAct (IceTask Str) IceEvent IceAnswer)),
    Always (iceScript some service role).step AllAdded (iceInit role) as := by
  intro h
  have hlost : ¬ Always (iceScript some .voice .answerer).step AllAdded (iceInit .answerer)
      earlyCandidate := by
    apply not_always_of_run (Q := fun p : Page (IceState Str) (IceTask Str) =>
      p.waiting = [] → ∀ pc ∈ p.shared.established,
        ∀ init ∈ p.shared.delivered, init ∈ p.shared.added pc)
    · exact fun p hp => hp
    · decide
  exact hlost (h .voice .answerer earlyCandidate)

end HomeTier.Ice
