import HomeTier.Proxy.HttpForward

/-! # What forwarding changes

A request is to reach the upstream as the client sent it, but for the headers
that are replaced on purpose, and the client is to decode a response to the
bytes that the upstream means. Each goes through a table of its own: unknown
methods are sent as GET, bodies are sent with three methods only, a header value
outside visible ASCII is left out, and `content-encoding` is dropped though
reqwest undoes gzip and br only. `transparent_iff` says which exchanges come
through all of them unchanged.
-/

namespace HomeTier.HttpForward

open Lib

/-! ## Transparency -/

/-- Headers that are replaced on purpose. -/
def isReplaced (mobile : Bool) (name : Str) : Bool :=
  isDropped name || name = "cookie".toList || (mobile && name = "user-agent".toList)

def endToEnd (mobile : Bool) (h : HeaderMap) : HeaderMap := h.filter fun e => !isReplaced mobile e.1

/-- The bytes a body decodes to under the codings of its headers. -/
def decoded (C : ForwardCrates) (h : HeaderMap) (s : Stream) : Option Bytes :=
  (undoAll C.decode (contentCodings h) s).collect

/-- The response is written by the proxy. -/
def IsRewritten (job : Job) (req : ClientRequest) (w : Wire) : Prop :=
  (∃ r, branch job req w = .rewrite r) ∨ branch job req w = .misplaced

structure Transparent (C : ForwardCrates) (job : Job) (req : ClientRequest) (net : Nat → Outcome) :
    Prop where
  request : ∀ u ∈ (exchange C job req net).received,
    u.method = req.method ∧ u.body = req.body.complete ∧
      endToEnd job.mobile u.headers = endToEnd job.mobile req.headers
  response : ∀ w, EndsWith C job net w → ¬ IsRewritten job req w →
    decoded C (exchange C job req net).response.headers
        (exchange C job req net).response.body.read =
      decoded C w.headers w.body.arrived

/-! ## What comes through -/

/-- What the codings of a response make of its body is what the one coding that
reqwest undoes makes of it; a download that cannot be read counts as empty. -/
def DecodedAlike (C : ForwardCrates) (job : Job) (req : ClientRequest) (w : Wire) : Prop :=
  match branch job req w with
  | .stream => decoded C w.headers w.body.arrived = (bytesStream C w).collect
  | .download _ => decoded C w.headers w.body.arrived = some ((bytesStream C w).collect.getD [])
  | _ => True

structure Plain (C : ForwardCrates) (job : Job) (req : ClientRequest) (net : Nat → Outcome) :
    Prop where
  method : Delivered C job net → knownMethods.contains req.method = true
  body : Delivered C job net →
    req.body.complete = [] ∨ (bodyMethods.contains req.method = true ∧ req.body.cut = none)
  values : Delivered C job net →
    ∀ e ∈ req.headers, isReplaced job.mobile e.1 = false → (toStr e.2).isSome = true
  added : Delivered C job net → endToEnd job.mobile (C.credentials job.url) = [] ∧
    endToEnd job.mobile (C.defaults (givenHeaders job req)) = []
  codings : ∀ w, EndsWith C job net w → DecodedAlike C job req w

/-! ## Requests -/

/-- What is sent on of the headers: the readable ones, as they were. -/
theorem headersToForward_bytes (h : HeaderMap) :
    (headersToForward h).map (fun e => (e.1, headerBytes e.2)) =
      h.filter fun e => !isDropped e.1 && (toStr e.2).isSome := by
  induction h with
  | nil => rfl
  | cons e h ih =>
    unfold headersToForward at ih ⊢
    rw [List.filterMap_cons]
    cases hdrop : isDropped e.1 with
    | true => simp [hdrop, ih]
    | false =>
      cases hvalue : toStr e.2 with
      | none => simp [hdrop, hvalue, ih]
      | some v => simp [hdrop, hvalue, ih, headerBytes_of_toStr hvalue]

section Headers

variable (mobile : Bool)

theorem endToEnd_append (h h' : HeaderMap) :
    endToEnd mobile (h ++ h') = endToEnd mobile h ++ endToEnd mobile h' :=
  List.filter_append ..

theorem isReplaced_cookie : isReplaced mobile "cookie".toList = true := by
  simp [isReplaced]

theorem isReplaced_userAgent : isReplaced true "user-agent".toList = true := by
  simp [isReplaced]

/-- Header texts that are not replaced. -/
def keptText (h : List (Str × Str)) : List (Str × Str) := h.filter fun e => !isReplaced mobile e.1

theorem endToEnd_bytes (h : List (Str × Str)) :
    endToEnd mobile (h.map fun e => (e.1, headerBytes e.2)) =
      (keptText mobile h).map fun e => (e.1, headerBytes e.2) := by
  rw [endToEnd, List.filter_map]
  rfl

theorem keptText_push {name : Str} (hname : isReplaced mobile name = true)
    (h : List (Str × Str)) (v : Str) : keptText mobile (h ++ [(name, v)]) = keptText mobile h := by
  simp [keptText, List.filter_append, hname]

/-- The cookies are replaced. -/
theorem keptText_mergeCookie (jarCookie : Option Str) (h : List (Str × Str)) :
    keptText mobile (mergeCookie jarCookie h) = keptText mobile h := by
  cases jarCookie with
  | none => rfl
  | some jc =>
    rw [mergeCookie, keptText_push mobile (isReplaced_cookie mobile), keptText, keptText,
      List.filter_filter]
    refine List.filter_congr fun e _ => ?_
    cases hkept : isReplaced mobile e.1 with
    | true => rfl
    | false =>
      have hname : e.1 ≠ "cookie".toList := by
        intro hname
        rw [hname, isReplaced_cookie] at hkept
        cases hkept
      exact decide_eq_true hname

/-- So is the user agent of a mobile. -/
theorem keptText_setUserAgent (job : Job) (h : List (Str × Str)) :
    keptText job.mobile (setUserAgent job h) = keptText job.mobile h := by
  have hpush : keptText true (h ++ [("user-agent".toList, mobileUa)]) = keptText true h :=
    keptText_push true isReplaced_userAgent h _
  have hreplace : keptText true (h.map fun e =>
      if e.1 = "user-agent".toList then (e.1, mobileUa) else e) = keptText true h := by
    induction h with
    | nil => rfl
    | cons e h ih =>
      have hih := ih (keptText_push true isReplaced_userAgent h _)
      unfold keptText at hih ⊢
      rw [List.map_cons, List.filter_cons, List.filter_cons, hih]
      by_cases hname : e.1 = "user-agent".toList
      · simp only [hname, if_true, isReplaced_userAgent]
        rfl
      · rw [if_neg hname]
  unfold setUserAgent
  cases job.mobile with
  | false => rfl
  | true =>
    cases job.mode with
    | passthrough => exact hpush
    | forward sourceUrl key shouldRewrite jarCookie downloadDir =>
      show keptText true (if _ then _ else _) = _
      split
      · exact hreplace
      · exact hpush

/-- Of the client's end-to-end headers, the readable ones are sent on. -/
theorem endToEnd_givenHeaders (job : Job) (req : ClientRequest) :
    endToEnd job.mobile (givenHeaders job req) =
      (endToEnd job.mobile req.headers).filter fun e => (toStr e.2).isSome := by
  rw [givenHeaders, endToEnd_bytes, keptText_mergeCookie, keptText_setUserAgent,
    ← endToEnd_bytes, headersToForward_bytes, endToEnd, endToEnd, List.filter_filter,
    List.filter_filter]
  refine List.filter_congr fun e _ => ?_
  cases hdrop : isDropped e.1 with
  | true => simp [isReplaced, hdrop]
  | false =>
    rw [Bool.not_false, Bool.true_and, Bool.and_comm]

end Headers

section

variable {C : ForwardCrates} {job : Job} {req : ClientRequest} {net : Nat → Outcome} {w : Wire}

theorem outgoing_method :
    (outgoing C job req).method = req.method ↔ knownMethods.contains req.method = true := by
  cases hknown : knownMethods.contains req.method with
  | true => simp only [outgoing, hknown, if_true]
  | false =>
    simp only [outgoing, hknown, Bool.false_eq_true, if_false, iff_false]
    intro hget
    rw [← hget] at hknown
    revert hknown
    decide

theorem outgoing_body :
    (outgoing C job req).body = req.body.complete ↔
      req.body.complete = [] ∨ (bodyMethods.contains req.method = true ∧ req.body.cut = none) := by
  by_cases hcut : req.body.cut = none
  · cases hbody : bodyMethods.contains req.method with
    | true =>
      simp only [outgoing, hbody, Transfer.collect_arrived_of_whole hcut, hcut, if_true,
        Option.getD_some, and_self, or_true]
    | false =>
      simp only [outgoing, hbody, Bool.false_eq_true, if_false, false_and, or_false]
      exact eq_comm
  · have hempty : (outgoing C job req).body = [] := by
      simp only [outgoing, Transfer.collect_arrived_of_cut hcut]
      split <;> rfl
    rw [hempty]
    simp only [hcut, and_false, or_false]
    exact eq_comm

/-- The end-to-end headers stay the same when all are readable and reqwest adds
none; what it adds is readable, so it cannot stand in for one that is left out. -/
theorem outgoing_headers :
    endToEnd job.mobile (outgoing C job req).headers = endToEnd job.mobile req.headers ↔
      (∀ e ∈ req.headers, isReplaced job.mobile e.1 = false → (toStr e.2).isSome = true) ∧
        endToEnd job.mobile (C.credentials job.url) = [] ∧
          endToEnd job.mobile (C.defaults (givenHeaders job req)) = [] := by
  have hsplit : endToEnd job.mobile (outgoing C job req).headers =
      endToEnd job.mobile (C.credentials job.url) ++
        (endToEnd job.mobile req.headers).filter (fun e => (toStr e.2).isSome) ++
          endToEnd job.mobile (C.defaults (givenHeaders job req)) := by
    rw [outgoing, endToEnd_append, endToEnd_append, endToEnd_givenHeaders]
  have hvalues : (endToEnd job.mobile req.headers).filter (fun e => (toStr e.2).isSome) =
      endToEnd job.mobile req.headers ↔
        ∀ e ∈ req.headers, isReplaced job.mobile e.1 = false → (toStr e.2).isSome = true := by
    rw [List.filter_eq_self]
    constructor
    · intro h e he hkept
      exact h e (List.mem_filter.2 ⟨he, by simp [hkept]⟩)
    · intro h e he
      rcases List.mem_filter.1 he with ⟨he, hkept⟩
      exact h e he (by simpa using hkept)
  have hvisible : ∀ h : HeaderMap, (∀ e ∈ h, (toStr e.2).isSome = true) →
      (endToEnd job.mobile h).filter (fun e => (toStr e.2).isSome) = endToEnd job.mobile h := by
    intro h hall
    rw [List.filter_eq_self]
    exact fun e he => hall e (List.mem_of_mem_filter he)
  rw [hsplit]
  constructor
  · intro h
    -- of the readable ones both sides hold as many, so nothing has been added
    have hreadable := congrArg (List.filter fun e => (toStr e.2).isSome) h
    rw [List.filter_append, List.filter_append, List.filter_filter,
      hvisible _ (C.credentials_visible job.url),
      hvisible _ (C.defaults_visible (givenHeaders job req))] at hreadable
    simp only [Bool.and_self] at hreadable
    have hlength := congrArg List.length hreadable
    rw [List.length_append, List.length_append] at hlength
    have hcredentials : endToEnd job.mobile (C.credentials job.url) = [] :=
      List.length_eq_zero_iff.1 (by omega)
    have hdefaults : endToEnd job.mobile (C.defaults (givenHeaders job req)) = [] :=
      List.length_eq_zero_iff.1 (by omega)
    rw [hcredentials, hdefaults, List.nil_append, List.append_nil] at h
    exact ⟨hvalues.1 h, hcredentials, hdefaults⟩
  · rintro ⟨hall, hcredentials, hdefaults⟩
    rw [hcredentials, hdefaults, List.nil_append, List.append_nil]
    exact hvalues.2 hall

/-! ## Responses -/

theorem contentCodings_eq_nil {h : HeaderMap} (hno : ∀ e ∈ h, e.1 ≠ "content-encoding".toList) :
    contentCodings h = [] := by
  have hnone : (h.filter fun e => e.1 = "content-encoding".toList) = [] := by
    rw [List.filter_eq_nil_iff]
    intro e he hname
    exact hno e he (of_decide_eq_true hname)
  rw [contentCodings, hnone]
  rfl

/-- No response says how its body is coded. -/
theorem respond_headers (h : ¬ IsRewritten job req w) :
    contentCodings (respond C job req (.response w)).1.headers = [] := by
  -- neither filter lets a Content-Encoding through
  have hforward : ∀ pre key, ∀ e ∈ w.headers.filterMap (forwardHeader job.url key pre),
      e.1 ≠ "content-encoding".toList := by
    intro pre key e he hname
    rcases List.mem_filterMap.1 he with ⟨e', -, heq⟩
    unfold forwardHeader at heq
    split at heq
    · cases heq
    · rename_i hkept
      have hsame : e.1 = e'.1 := by
        repeat' split at heq
        all_goals rw [← Option.some.inj heq]
      exact hkept (.inr (.inr (.inl (hsame ▸ hname))))
  have hpass : ∀ e ∈ w.headers.filterMap passHeader, e.1 ≠ "content-encoding".toList := by
    intro e he hname
    rcases List.mem_filterMap.1 he with ⟨e', -, heq⟩
    unfold passHeader at heq
    split at heq
    · cases heq
    · rename_i hkept
      rw [Option.some.inj heq] at hkept
      exact hkept (.inr (.inr hname))
  have hlength : ∀ b, ∀ e ∈ contentLength b, e.1 ≠ "content-encoding".toList := by
    intro b e he
    rw [List.mem_singleton.1 he]
    show "content-length".toList ≠ "content-encoding".toList
    decide
  cases hmode : job.mode with
  | forward sourceUrl key shouldRewrite jarCookie downloadDir =>
    -- the response is not rewritten, so what is left is how the headers are copied
    have hrewrite : needsRewrite shouldRewrite req w = false := by
      by_contra hneeds
      refine h (.inl ⟨rewriteJob job sourceUrl key req w, ?_⟩)
      simp only [branch, hmode, Bool.not_eq_false _ ▸ hneeds, if_true]
    simp only [respond, hmode, forwardResponse, hrewrite, Bool.false_eq_true, if_false]
    split
    · exact contentCodings_eq_nil (hforward _ _)
    · split
      · apply contentCodings_eq_nil
        intro e he
        rcases List.mem_append.1 he with he | he
        · exact hforward _ _ e he
        · exact hlength _ e he
      · exact contentCodings_eq_nil (hforward _ _)
  | passthrough =>
    simp only [respond, hmode, passResponse]
    split
    · exact contentCodings_eq_nil hpass
    · rename_i hstatus
      split
      · rename_i hmisplaced
        refine absurd (.inr ?_) h
        simp only [branch, hmode, if_neg hstatus, if_pos hmisplaced]
      · exact contentCodings_eq_nil hpass

/-- What the client decodes is the body it is handed. -/
theorem decoded_respond (h : ¬ IsRewritten job req w) :
    decoded C (respond C job req (.response w)).1.headers
        (respond C job req (.response w)).1.body.read =
      decoded C w.headers w.body.arrived ↔ DecodedAlike C job req w := by
  have hplaced : branch job req w ≠ .misplaced := fun hbranch => h (.inr hbranch)
  rw [decoded, respond_headers h, respond_body hplaced]
  unfold DecodedAlike
  cases hbranch : branch job req w with
  | rewrite r => exact absurd (.inl ⟨r, hbranch⟩) h
  | misplaced => exact absurd hbranch hplaced
  | bodyless =>
    -- an empty body decodes to itself
    rw [decoded, bodyless_of_branch hbranch,
      show (⟨[], none⟩ : Transfer).arrived = ⟨[], true⟩ from rfl, undoAll_empty]
    exact iff_of_true rfl trivial
  | download dir => exact eq_comm
  | stream => exact eq_comm

end

/-- Forwarding is transparent exactly when the method is one of the seven, the
body is empty or that of a POST, PUT or PATCH and read whole, the end-to-end
headers are visible ASCII and reqwest adds none, and the response has no coding
but the one that reqwest undoes. -/
theorem transparent_iff (C : ForwardCrates) (job : Job) (req : ClientRequest)
    (net : Nat → Outcome) :
    Transparent C job req net ↔ Plain C job req net := by
  constructor
  · intro h
    have hsent : Delivered C job net → _ := fun hdelivered =>
      h.request _ (mem_received.2 ⟨hdelivered, rfl⟩)
    constructor
    · exact fun hd => outgoing_method.1 (hsent hd).1
    · exact fun hd => outgoing_body.1 (hsent hd).2.1
    · exact fun hd => (outgoing_headers.1 (hsent hd).2.2).1
    · exact fun hd => (outgoing_headers.1 (hsent hd).2.2).2
    · intro w hend
      by_cases hrewritten : IsRewritten job req w
      · unfold DecodedAlike
        rcases hrewritten with ⟨r, hbranch⟩ | hbranch
        · rw [hbranch]
          trivial
        · rw [hbranch]
          trivial
      · have hresponse := h.response w hend hrewritten
        rw [(exchange_of_response hend).1] at hresponse
        exact (decoded_respond hrewritten).1 hresponse
  · intro h
    constructor
    · intro u hu
      rcases mem_received.1 hu with ⟨hdelivered, rfl⟩
      exact ⟨outgoing_method.2 (h.method hdelivered), outgoing_body.2 (h.body hdelivered),
        outgoing_headers.2 ⟨h.values hdelivered, h.added hdelivered⟩⟩
    · intro w hend hrewritten
      rw [(exchange_of_response hend).1]
      exact (decoded_respond hrewritten).2 (h.codings w hend)

/-! ## A method of WebDAV -/

def propfind : ClientRequest where
  method := "PROPFIND".toList
  path := "/__proxy__0a1b2c3d4e5f/dav/".toList
  headers := [("host".toList, headerBytes "127.0.0.1:7890".toList),
    ("depth".toList, headerBytes "1".toList)]
  body := ⟨[], none⟩

def multiStatus : Wire where
  status := 207
  headers := []
  body := ⟨[], none⟩
  bodyless := by decide

theorem propfind_sent_as_get :
    ¬ Transparent plainCrates nasJob propfind fun _ => .response multiStatus := by
  intro h
  have hdelivered : Delivered plainCrates nasJob fun _ => .response multiStatus :=
    ⟨.response multiStatus, List.mem_cons_self, rfl⟩
  have hsame := (h.request _ (mem_received.2 ⟨hdelivered, rfl⟩)).1
  revert hsame
  decide

end HomeTier.HttpForward
