import HomeTier.Proxy.HttpForward

/-! # Bodies that break off

What `forward` and `passthrough` make of a body they cannot read to its end. A
stream passes the error on, and the client sees that the response broke off.
Everything that is collected first (`unwrap_or_default`) becomes an empty body
of the right length: the request, a page that is rewritten and a download, whose
empty file is saved and queued. `no_cut_off_iff` says when none of it shows.
-/

namespace HomeTier.HttpForward

open Lib

/-- The upstream's body as it would be read whole. -/
def wholeBody (C : ForwardCrates) (w : Wire) : Option Bytes :=
  (undoAll C.decode (undone w.headers) ⟨w.body.complete, true⟩).collect

/-- Reading the upstream's body fails. -/
def ReadFails (C : ForwardCrates) (w : Wire) : Prop := (bytesStream C w).whole = false

def IsSuccess (status : Nat) : Prop := 200 ≤ status ∧ status < 300

/-- The body a client is to get for the complete body `b`. -/
def shown (C : ForwardCrates) (job : Job) (req : ClientRequest) (w : Wire) (b : Bytes) : Bytes :=
  match branch job req w with
  | .rewrite r => (rewritten C r b).1
  | _ => b

/-- No body that broke off looks complete. -/
structure NoCutOff (C : ForwardCrates) (job : Job) (req : ClientRequest) (net : Nat → Outcome) :
    Prop where
  request : req.body.cut ≠ none →
    ∀ u ∈ (exchange C job req net).received, u.body = req.body.complete
  response : ∀ w, EndsWith C job net w → ReadFails C w →
    IsSuccess (exchange C job req net).response.status →
    (exchange C job req net).response.body.read.whole = true →
      ∃ b, wholeBody C w = some b ∧
        (exchange C job req net).response.body.read.bytes = shown C job req w b
  download : ∀ w, EndsWith C job net w → ReadFails C w →
    ∀ d, (exchange C job req net).download = some d → wholeBody C w = some d.content

/-- The bodies that break off are empty all the same, or are not collected. -/
structure CutIsHarmless (C : ForwardCrates) (job : Job) (req : ClientRequest)
    (net : Nat → Outcome) : Prop where
  request : req.body.cut ≠ none → Delivered C job net → req.body.complete = []
  rewrite : ∀ w, EndsWith C job net w → ReadFails C w →
    ∀ r, branch job req w = .rewrite r → IsSuccess w.status →
      ∃ b, wholeBody C w = some b ∧ (rewritten C r []).1 = (rewritten C r b).1
  download : ∀ w, EndsWith C job net w → ReadFails C w →
    ∀ dir, branch job req w = .download dir → (IsSuccess w.status ∨ dir ≠ none) →
      wholeBody C w = some []

section

variable {C : ForwardCrates} {job : Job} {req : ClientRequest} {net : Nat → Outcome} {w : Wire}

/-- A request body that breaks off is sent empty, or not sent at all. -/
theorem outgoing_body_of_cut (h : req.body.cut ≠ none) : (outgoing C job req).body = [] := by
  simp only [outgoing, Transfer.collect_arrived_of_cut h]
  split <;> rfl

theorem collect_of_readFails (h : ReadFails C w) : (bytesStream C w).collect = none := by
  unfold ReadFails at h
  rw [Stream.collect, h]
  rfl

/-- There is nothing to break off where the status has no body. -/
theorem readable_of_bodyless (h : branch job req w = .bodyless) : ¬ ReadFails C w := by
  intro hfails
  unfold ReadFails bytesStream at hfails
  rw [bodyless_of_branch h] at hfails
  have hempty := undoAll_empty C.decode (undone w.headers)
  rw [show (⟨[], none⟩ : Transfer).arrived = ⟨[], true⟩ from rfl, hempty] at hfails
  cases hfails

/-- What the client sees of a body that broke off: a stream breaks off too. -/
theorem respond_of_readFails (hfails : ReadFails C w)
    (hsuccess : IsSuccess (respond C job req (.response w)).1.status)
    (hwhole : (respond C job req (.response w)).1.body.read.whole = true) :
    (∃ r, branch job req w = .rewrite r ∧ IsSuccess w.status ∧
      (respond C job req (.response w)).1.body.read.bytes = (rewritten C r []).1) ∨
    (∃ dir, branch job req w = .download dir ∧ IsSuccess w.status ∧
      (respond C job req (.response w)).1.body.read.bytes = []) := by
  have hplaced : branch job req w ≠ .misplaced := by
    intro hbranch
    rw [respond_misplaced hbranch] at hsuccess
    exact absurd hsuccess.2 (by decide)
  rw [respond_status hplaced] at hsuccess
  have hbody := respond_body (C := C) hplaced
  rw [collect_of_readFails hfails] at hbody
  cases hbranch : branch job req w with
  | rewrite r =>
    left
    rw [hbranch] at hbody
    exact ⟨r, rfl, hsuccess, by rw [hbody]; rfl⟩
  | download dir =>
    right
    rw [hbranch] at hbody
    exact ⟨dir, rfl, hsuccess, by rw [hbody]; rfl⟩
  | bodyless => exact absurd hfails (readable_of_bodyless hbranch)
  | stream =>
    rw [hbranch] at hbody
    rw [hbody] at hwhole
    unfold ReadFails at hfails
    rw [show (Body.stream (bytesStream C w)).read = bytesStream C w from rfl, hfails] at hwhole
    cases hwhole
  | misplaced => exact absurd hbranch hplaced

end

/-- What broke off never looks complete exactly when it is empty all the same,
or streamed: the request body that is sent on, the page whose rewriting is that
of the empty page, the download. -/
theorem no_cut_off_iff (C : ForwardCrates) (job : Job) (req : ClientRequest)
    (net : Nat → Outcome) :
    NoCutOff C job req net ↔ CutIsHarmless C job req net := by
  constructor
  · intro h
    constructor
    · intro hcut hdelivered
      have hbody := h.request hcut _ (mem_received.2 ⟨hdelivered, rfl⟩)
      rw [← hbody, outgoing_body_of_cut hcut]
    · intro w hend hfails r hbranch hsuccess
      have hplaced : branch job req w ≠ .misplaced := by simp [hbranch]
      have hbody := respond_body (C := C) hplaced
      rw [hbranch, collect_of_readFails hfails] at hbody
      have hresponse := h.response w hend hfails
      rw [(exchange_of_response hend).1, respond_status hplaced, hbody] at hresponse
      rcases hresponse hsuccess rfl with ⟨b, hb, heq⟩
      refine ⟨b, hb, ?_⟩
      unfold shown at heq
      rw [hbranch] at heq
      exact heq
    · intro w hend hfails dir hbranch hshown
      have hplaced : branch job req w ≠ .misplaced := by simp [hbranch]
      rcases hshown with hsuccess | hdir
      · -- the client is shown an empty body
        have hbody := respond_body (C := C) hplaced
        rw [hbranch, collect_of_readFails hfails] at hbody
        have hresponse := h.response w hend hfails
        rw [(exchange_of_response hend).1, respond_status hplaced, hbody] at hresponse
        rcases hresponse hsuccess rfl with ⟨b, hb, heq⟩
        unfold shown at heq
        rw [hbranch] at heq
        exact hb.trans (congrArg some heq.symm)
      · -- an empty file is saved
        rcases Option.ne_none_iff_exists'.1 hdir with ⟨dir, rfl⟩
        have hsaved : (respond C job req (.response w)).2 = _ := respond_download
        rw [hbranch, collect_of_readFails hfails] at hsaved
        have hdownload := h.download w hend hfails
        rw [(exchange_of_response hend).2, hsaved] at hdownload
        exact hdownload _ rfl
  · intro h
    constructor
    · intro hcut u hu
      rcases mem_received.1 hu with ⟨hdelivered, rfl⟩
      rw [outgoing_body_of_cut hcut, h.request hcut hdelivered]
    · intro w hend hfails hsuccess hwhole
      rw [(exchange_of_response hend).1] at hsuccess hwhole ⊢
      rcases respond_of_readFails hfails hsuccess hwhole with
        ⟨r, hbranch, hstatus, hbytes⟩ | ⟨dir, hbranch, hstatus, hbytes⟩
      · rcases h.rewrite w hend hfails r hbranch hstatus with ⟨b, hb, heq⟩
        refine ⟨b, hb, ?_⟩
        rw [hbytes, shown, hbranch]
        exact heq
      · refine ⟨[], h.download w hend hfails dir hbranch (.inl hstatus), ?_⟩
        rw [hbytes, shown, hbranch]
    · intro w hend hfails d hd
      rw [(exchange_of_response hend).2, respond_download] at hd
      cases hbranch : branch job req w with
      | download dir =>
        rw [hbranch, collect_of_readFails hfails] at hd
        rcases Option.map_eq_some_iff.1 hd with ⟨path, hpath, rfl⟩
        exact h.download w hend hfails dir hbranch (.inr (by simp [hpath]))
      | rewrite r => simp [hbranch] at hd
      | bodyless => simp [hbranch] at hd
      | stream => simp [hbranch] at hd
      | misplaced => simp [hbranch] at hd

/-! ## A download that breaks off -/

def zipRequest : ClientRequest where
  method := "GET".toList
  path := "/__proxy__0a1b2c3d4e5f/photos.zip".toList
  headers := [("host".toList, headerBytes "127.0.0.1:7890".toList)]
  body := ⟨[], none⟩

/-- The connection breaks after four bytes. -/
def cutZip : Wire where
  status := 200
  headers := [("content-type".toList, headerBytes "application/zip".toList)]
  body := ⟨utf8 "PK archive".toList, some 4⟩
  bodyless := by decide

theorem zip_branch : branch nasJob zipRequest cutZip = .download none := by decide

theorem zip_looks_complete :
    ¬ NoCutOff plainCrates nasJob zipRequest fun _ => .response cutZip := by
  intro h
  have hend : EndsWith plainCrates nasJob (fun _ => .response cutZip) cutZip := rfl
  have hresponse := h.response cutZip hend rfl
  rw [(exchange_of_response hend).1, respond_status (by simp [zip_branch]),
    respond_body (by simp [zip_branch]), zip_branch] at hresponse
  rcases hresponse ⟨by decide, by decide⟩ rfl with ⟨b, hb, hempty⟩
  have hzip : wholeBody plainCrates cutZip = some (utf8 "PK archive".toList) := by decide
  rw [hzip] at hb
  have hb' : utf8 "PK archive".toList = b := Option.some.inj hb
  rw [shown, zip_branch, ← hb'] at hempty
  revert hempty
  decide

end HomeTier.HttpForward
