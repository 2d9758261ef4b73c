import HomeTier.Proxy.HttpForward

/-! # Requests that are sent twice

`forward` and `passthrough` try a request again after a connection error, a
request error or a time-out, whatever its method. A time-out says nothing about
whether the upstream has the request, so `sent_once_iff` is about the outcomes
of the attempts: a POST or PATCH is received once only when no attempt gets
through after one that did.
-/

namespace HomeTier.HttpForward

open Lib

/-- The methods that must not be repeated. -/
def NonIdempotent (req : ClientRequest) : Prop :=
  req.method = "POST".toList ∨ req.method = "PATCH".toList

/-- The upstream receives a POST or PATCH at most once. -/
def SentOnce (C : ForwardCrates) (job : Job) (req : ClientRequest) (net : Nat → Outcome) : Prop :=
  NonIdempotent req → (exchange C job req net).received.length ≤ 1

/-- Of the attempts that are made, none reaches the upstream after another. An
attempt is made when every earlier one failed with an error that is tried again. -/
def LoneDelivery (net : Nat → Outcome) : Prop :=
  ∀ i j, i < j → j ≤ maxRetries → (∀ k < j, (net k).isRetriable = true) →
    (net i).delivered = true → (net j).delivered = false

section

variable {C : ForwardCrates} {job : Job} {req : ClientRequest} {net : Nat → Outcome}

theorem length_received :
    (exchange C job req net).received.length =
      ((attempts C job net).1.filter Outcome.delivered).length := by
  rw [exchange, List.length_map]

/-- What cannot be built is never sent. -/
theorem length_received_of_error (req : ClientRequest) (net : Nat → Outcome) {text : Str}
    (h : C.buildError job.url = some text) :
    (exchange C job req net).received.length = 0 := by
  rw [length_received, attempts, h]
  rfl

theorem length_received_le_one (h : C.buildError job.url = none) :
    (exchange C job req net).received.length ≤ 1 ↔ LoneDelivery net := by
  rw [length_received, attempts, h]
  show ((tried Outcome.isRetriable net maxRetries 0).filter Outcome.delivered).length ≤ 1 ↔ _
  rw [filter_tried_length_le_one]
  unfold LoneDelivery Reached
  constructor
  · intro hall i j hij hle hagain
    exact hall i j hij ⟨hle, hagain⟩
  · rintro hall i j hij ⟨hle, hagain⟩
    exact hall i j hij hle hagain

end

/-- A POST or PATCH is received at most once exactly when no attempt reaches the
upstream after an earlier one that did, and that failed like all before it. -/
theorem sent_once_iff (C : ForwardCrates) (job : Job) (req : ClientRequest)
    (net : Nat → Outcome) :
    SentOnce C job req net ↔
      (NonIdempotent req → C.buildError job.url = none → LoneDelivery net) := by
  refine forall_congr' fun _ => ?_
  cases hbuild : C.buildError job.url with
  | some text =>
    have hzero := length_received_of_error req net hbuild
    constructor
    · intro _ hnone
      cases hnone
    · intro _
      omega
  | none =>
    rw [length_received_le_one hbuild]
    exact ⟨fun h _ => h, fun h => h rfl⟩

/-! ## A time-out behind the delivery -/

def payRequest : ClientRequest where
  method := "POST".toList
  path := "/__proxy__0a1b2c3d4e5f/api/pay".toList
  headers := [("host".toList, headerBytes "127.0.0.1:7890".toList)]
  body := ⟨utf8 "amount=1".toList, none⟩

/-- The upstream has the request, but does not answer in time; then it answers. -/
def slowUpstream : Nat → Outcome
  | 0 => .failed ⟨false, true, true, false, "operation timed out".toList⟩ true
  | _ => .response ⟨200, [], ⟨[], none⟩, by decide⟩

theorem pay_sent_twice : ¬ SentOnce plainCrates nasJob payRequest slowUpstream := by
  intro h
  have hlone := (length_received_le_one rfl).1 (h (.inl rfl))
  have hagain : ∀ k < 1, (slowUpstream k).isRetriable = true := by
    intro k hk
    obtain rfl : k = 0 := by omega
    rfl
  have hsecond := hlone 0 1 (by omega) (by decide) hagain rfl
  cases hsecond

end HomeTier.HttpForward
