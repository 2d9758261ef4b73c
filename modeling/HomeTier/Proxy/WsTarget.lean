import HomeTier.Proxy.WsRoundTrip

/-! # Where a WebSocket URL leads

`resolveTarget` cuts the address it is given and, when the host has no dot, goes
by the `Origin` header, which names the proxy, and then by the source of the key.
`ws_codec_iff` puts this together with the encoding: a URL arrives as it is
written in the `WsExact` cases only.
-/

namespace HomeTier.WsCodec

open Lib

/-! ## Addresses -/

theorem cutAtLast_of_notMem {c : Char} {s : Str} (h : c ∉ s) : cutAtLast c s = none := by
  rw [cutAtLast, cutAt_of_notMem (by simpa using h)]

/-- A text with a character that is no digit is no number. -/
theorem parseU16_eq_none {s : Str} {c : Char} (hmem : c ∈ s) (hdigit : c.isDigit = false)
    (hplus : c ≠ '+') : parseU16 s = none := by
  rw [parseU16, Option.map_eq_none_iff, Option.eq_none_iff_forall_ne_some]
  intro n hn
  rw [parseUnsigned_eq_some] at hn
  have hrest : c ∈ dropPlus s := by
    unfold dropPlus
    split
    · rcases List.mem_cons.1 hmem with h | h
      · exact absurd h hplus
      · exact h
    · exact hmem
  have hnone : parseDigits (dropPlus s) = none := by
    rw [parseDigits, if_neg]
    rintro ⟨-, hall⟩
    rw [List.all_eq_true] at hall
    rw [hall c hrest] at hdigit
    cases hdigit
  rw [hnone] at hn
  cases hn.1

/-- The last colon stands in front of the port. -/
def Address.Readable (a : Address) : Prop := a.port = none → ':' ∉ a.host

/-- Host and port as the decoder cuts them, with a default port. -/
def cutPort (authority : Str) (default : UInt16) : Str × UInt16 :=
  match cutAtLast ':' authority with
  | some (host, port) => (host, (parseU16 port).getD default)
  | none => (authority, default)

theorem cutAtLast_readable {a : Address} (h : a.Readable) :
    cutAtLast ':' a.text = a.port.map fun p => (a.host, decimal p.toNat) := by
  cases hport : a.port with
  | some p =>
    have htext : a.text = a.host ++ ':' :: decimal p.toNat := by
      rw [Address.text, hport]
      rfl
    rw [htext, cutAtLast_append]
    · rfl
    · exact fun hmem => digit_plain (isDigit_of_mem_decimal hmem) ':' (by decide) rfl
  | none =>
    have htext : a.text = a.host := by
      rw [Address.text, hport]
      exact List.append_nil _
    rw [htext, cutAtLast_of_notMem (h hport)]
    rfl

theorem cutPort_readable {a : Address} (h : a.Readable) (default : UInt16) :
    cutPort a.text default = (a.host, a.port.getD default) := by
  rw [cutPort, cutAtLast_readable h]
  cases hport : a.port with
  | some p => simp only [Option.map_some, parseU16_decimal, Option.getD_some]
  | none =>
    have htext : a.text = a.host := by
      rw [Address.text, hport]
      exact List.append_nil _
    simp only [Option.map_none, Option.getD_none, htext]

/-- The last colon of an unreadable address is in its brackets. -/
theorem cutAtLast_unreadable {a : Address} (h : ¬ a.Readable) :
    ∃ front back, cutAtLast ':' a.text = some (front, back) ∧ parseU16 back = none ∧
      front.length < a.host.length := by
  unfold Address.Readable at h
  push Not at h
  rcases h with ⟨hport, hcolon⟩
  have htext : a.text = a.host := by
    rw [Address.text, hport]
    exact List.append_nil _
  have hbracket : a.host.getLast? = some ']' := by
    rcases a.host_colon with hno | hlast
    · exact absurd hcolon hno
    · exact hlast
  -- the colon nearest to the end
  rcases List.eq_append_cons_of_mem (List.mem_reverse.2 hcolon) with ⟨x, y, hxy, hx⟩
  have hhost : a.host = y.reverse ++ ':' :: x.reverse := by
    have hrev := congrArg List.reverse hxy
    simpa using hrev
  refine ⟨y.reverse, x.reverse, ?_, ?_, ?_⟩
  · rw [htext, hhost, cutAtLast_append (by simpa using hx)]
  · have hmem : ']' ∈ x.reverse := by
      cases hback : x.reverse with
      | nil =>
        rw [hhost, hback] at hbracket
        simp at hbracket
      | cons c back =>
        have hne := List.cons_ne_nil c back
        rw [hhost, hback, List.getLast?_append, List.getLast?_cons,
          List.getLast?_eq_some_getLast hne] at hbracket
        have hlast : (c :: back).getLast hne = ']' := Option.some.inj hbracket
        rw [← hlast]
        exact List.getLast_mem hne
    exact parseU16_eq_none hmem (by decide) (by decide)
  · rw [hhost]
    simp

theorem readable_of_text {a b : Address} (h : a.text = b.text) (ha : a.Readable) : b.Readable := by
  by_contra hb
  rcases cutAtLast_unreadable hb with ⟨front, back, hcut, hnone, -⟩
  rw [← h, cutAtLast_readable ha] at hcut
  rcases Option.map_eq_some_iff.1 hcut with ⟨p, -, heq⟩
  rw [← (Prod.mk.inj heq).2, parseU16_decimal] at hnone
  cases hnone

/-- A readable address is written in one way. -/
theorem address_eq_of_text {a b : Address} (h : a.text = b.text) (ha : a.Readable) :
    a.host = b.host ∧ a.port = b.port := by
  have hb := readable_of_text h ha
  have hcut : ∀ d, (a.host, a.port.getD d) = (b.host, b.port.getD d) := by
    intro d
    rw [← cutPort_readable ha d, ← cutPort_readable hb d, h]
  have hfirst := hcut 0
  have hsecond := hcut 1
  refine ⟨(Prod.mk.inj hfirst).1, ?_⟩
  have hzero := (Prod.mk.inj hfirst).2
  have hone := (Prod.mk.inj hsecond).2
  cases hpa : a.port with
  | none =>
    cases hpb : b.port with
    | none => rfl
    | some q =>
      rw [hpa, hpb] at hzero hone
      simp only [Option.getD_none, Option.getD_some] at hzero hone
      rw [← hone] at hzero
      exact absurd hzero (by decide)
  | some p =>
    cases hpb : b.port with
    | none =>
      rw [hpa, hpb] at hzero hone
      simp only [Option.getD_none, Option.getD_some] at hzero hone
      rw [hone] at hzero
      exact absurd hzero (by decide)
    | some q =>
      rw [hpa, hpb] at hzero
      exact congrArg some hzero

/-! ## The named target -/

theorem namedTarget_eq (req : UpgradeRequest) :
    namedTarget req =
      let cut := cutPort (cutAt '/' req.target).1 (if req.scheme = .wss then 443 else 80)
      ⟨cut.1, cut.2, req.scheme, match (cutAt '/' req.target).2 with
        | some p => '/' :: p
        | none => "/".toList⟩ := by
  unfold namedTarget cutPort
  dsimp only
  cases cutAtLast ':' (cutAt '/' req.target).1 with
  | none => rfl
  | some r => rfl

theorem namedTarget_path (req : UpgradeRequest) :
    (namedTarget req).path = "/".toList ∨ (namedTarget req).path <:+ req.target := by
  have hjoin := cutAt_join '/' req.target
  rw [namedTarget_eq]
  cases hcut : (cutAt '/' req.target).2 with
  | none => exact .inl rfl
  | some p =>
    rw [hcut] at hjoin
    exact .inr ⟨_, hjoin⟩

/-- A path stands between the address and a query. -/
def WsUrl.Rooted (U : WsUrl) : Prop := U.path = [] → U.query = none

theorem WsUrl.requestPath_head (U : WsUrl) : ∃ p, U.requestPath = '/' :: p := by
  unfold WsUrl.requestPath
  split
  · exact ⟨_, rfl⟩
  · rename_i hne
    rcases U.path_rooted with hnil | hhead
    · exact absurd hnil hne
    · cases hpath : U.path with
      | nil => exact absurd hpath hne
      | cons c p =>
        rw [hpath] at hhead
        obtain rfl : c = '/' := Option.some.inj hhead
        exact ⟨_, rfl⟩

theorem WsUrl.payload_rooted {U : WsUrl} (h : U.Rooted) :
    U.payload = U.address.text ++ U.requestPath := by
  unfold WsUrl.payload WsUrl.requestPath WsUrl.tail
  by_cases hpath : U.path = []
  · rw [hpath, h hpath]
    rfl
  · rw [if_neg hpath, if_neg (fun h => hpath (List.append_eq_nil_iff.1 h).1)]

section

variable {front : Front} {cookie keyOrigin : Option Str} {U : WsUrl}

theorem defaultPort_scheme :
    (if U.scheme = .wss then 443 else 80 : UInt16) = defaultPort U.secure := by
  unfold WsUrl.scheme defaultPort
  cases U.secure with
  | false => rfl
  | true => rfl

/-- The path is read as it is; host and port as they are cut. -/
theorem namedTarget_rooted (h : U.Rooted) :
    namedTarget (readBack front cookie keyOrigin U) =
      ⟨(cutPort U.address.text (defaultPort U.secure)).1,
        (cutPort U.address.text (defaultPort U.secure)).2, U.scheme, U.requestPath⟩ := by
  rcases U.requestPath_head with ⟨p, hp⟩
  have hcut : cutAt '/' U.payload = (U.address.text, some p) := by
    rw [WsUrl.payload_rooted h, hp]
    exact cutAt_append (U.address.text_plain '/' (by simp)) p
  rw [namedTarget_eq, readBack]
  simp only [hcut, defaultPort_scheme, hp]

/-- A query in the place of a path loses its question mark. -/
theorem namedTarget_path_ne (h : ¬ U.Rooted) :
    (namedTarget (readBack front cookie keyOrigin U)).path ≠ U.requestPath := by
  unfold WsUrl.Rooted at h
  push Not at h
  rcases h with ⟨hpath, hquery⟩
  rcases Option.ne_none_iff_exists'.1 hquery with ⟨q, hq⟩
  have hrequest : U.requestPath = '/' :: '?' :: q := by
    rw [WsUrl.requestPath, hpath, hq]
    rfl
  have hpayload : U.payload = U.address.text ++ '?' :: q := by
    rw [WsUrl.payload, WsUrl.tail, hpath, hq]
    rfl
  intro heq
  rw [hrequest] at heq
  rcases namedTarget_path (readBack front cookie keyOrigin U) with hroot | hsuffix
  · rw [hroot] at heq
    cases heq
  · -- the slash would stand in front of the question mark
    rw [heq] at hsuffix
    have hslash : '/' :: '?' :: q <:+ '?' :: q := by
      rcases hsuffix with ⟨pre, hpre⟩
      rw [show (readBack front cookie keyOrigin U).target = U.payload from rfl, hpayload] at hpre
      rcases List.append_eq_append_iff.1 hpre with ⟨x, hx, hrest⟩ | ⟨x, hx, hrest⟩
      · cases x with
        | nil => simp at hrest
        | cons c x =>
          obtain rfl : '/' = c := (List.cons.inj hrest).1
          refine absurd ?_ (U.address.text_plain '/' (by simp))
          rw [hx]
          simp
      · exact ⟨x, hrest.symm⟩
    have hlength := hslash.length_le
    simp only [List.length_cons] at hlength
    omega

end

/-! ## The fallbacks -/

theorem source_authority (S : Source) :
    splitOnce "://".toList S.text = some (S.scheme, S.address.text ++ S.tail) :=
  splitOnce_append S.scheme_plain _

theorem source_secure (S : Source) : "https://".toList.isPrefixOf S.text = S.secure := by
  unfold Source.text Source.scheme
  cases S.secure with
  | false => rfl
  | true => rfl

/-- What `fromKeyOrigin` cuts out of a source. -/
def sourceAuthority (S : Source) : Str := S.address.text ++ S.tail.takeWhile (· ≠ '/')

theorem sourceAuthority_clean {S : Source} (h : S.Clean) : sourceAuthority S = S.address.text := by
  unfold sourceAuthority
  rcases h with htail | hhead
  · rw [htail]
    exact List.append_nil _
  · cases htail : S.tail with
    | nil => exact List.append_nil _
    | cons c tail =>
      rw [htail] at hhead
      obtain rfl : c = '/' := Option.some.inj hhead
      simp

/-- The target that the source names. -/
def ofSource (S : Source) (t : WsTarget) : WsTarget :=
  ⟨S.address.host, S.port, if S.secure then .wss else t.scheme, t.path⟩

theorem fromKeyOrigin_eq (S : Source) (t : WsTarget) :
    fromKeyOrigin t S.text =
      match cutAtLast ':' (sourceAuthority S) with
      | some (host, port) =>
        match parseU16 port with
        | some p => { t with host := host, port := p, scheme := if S.secure then .wss else t.scheme }
        | none => t
      | none =>
        { t with
          host := sourceAuthority S
          port := defaultPort S.secure
          scheme := if S.secure then .wss else t.scheme } := by
  have hcut : (cutAt '/' (S.address.text ++ S.tail)).1 = sourceAuthority S :=
    cutAt_fst_append (S.address.text_plain '/' (by simp)) S.tail
  unfold fromKeyOrigin
  simp only [source_authority, source_secure, hcut]
  rfl

theorem fromKeyOrigin_readable {S : Source} (hclean : S.Clean) (h : S.address.Readable)
    (t : WsTarget) : fromKeyOrigin t S.text = ofSource S t := by
  rw [fromKeyOrigin_eq, sourceAuthority_clean hclean, cutAtLast_readable h, ofSource, Source.port]
  cases hport : S.address.port with
  | some p => simp only [Option.map_some, parseU16_decimal, Option.getD_some]
  | none =>
    have htext : S.address.text = S.address.host := by
      rw [Address.text, hport]
      exact List.append_nil _
    simp only [Option.map_none, Option.getD_none, htext]

theorem fromKeyOrigin_unreadable {S : Source} (hclean : S.Clean) (h : ¬ S.address.Readable)
    (t : WsTarget) : fromKeyOrigin t S.text = t := by
  rcases cutAtLast_unreadable h with ⟨front, back, hcut, hnone, -⟩
  rw [fromKeyOrigin_eq, sourceAuthority_clean hclean, hcut]
  simp only [hnone]

/-- A query or fragment right behind the address goes into the host, or into a
port that is none. -/
theorem fromKeyOrigin_unclean {S : Source} (h : ¬ S.Clean) (t : WsTarget) :
    fromKeyOrigin t S.text = t ∨ (fromKeyOrigin t S.text).host ≠ S.address.host := by
  -- without a slash the authority runs into the query or fragment
  obtain ⟨c, hc, hmem⟩ : ∃ c ∈ ['?', '#'], c ∈ sourceAuthority S := by
    rcases S.tail_starts with htail | ⟨c, hc, hhead⟩
    · exact absurd (.inl htail) h
    · cases htail : S.tail with
      | nil => simp [htail] at hhead
      | cons d tail =>
        obtain rfl : d = c := by simpa [htail] using hhead
        have hslash : d ≠ '/' := by
          rintro rfl
          exact h (.inr (by rw [htail]; rfl))
        refine ⟨d, by simpa [hslash] using hc, ?_⟩
        rw [sourceAuthority, htail, List.takeWhile_cons_of_pos (by simpa using hslash)]
        simp
  have hnot : c ∉ S.address.host := S.address.host_plain c (List.mem_cons_of_mem _ hc)
  have hdigit : c.isDigit = false ∧ c ≠ '+' := by
    rcases List.mem_pair.1 hc with rfl | rfl
    · decide
    · decide
  have hcolon : c ≠ ':' := by
    rcases List.mem_pair.1 hc with rfl | rfl
    · decide
    · decide
  rw [fromKeyOrigin_eq]
  cases hcut : cutAtLast ':' (sourceAuthority S) with
  | none =>
    right
    intro heq
    rw [← heq] at hnot
    exact hnot hmem
  | some r =>
    rcases r with ⟨host, port⟩
    cases hparse : parseU16 port with
    | none =>
      left
      simp only [hparse]
    | some p =>
      right
      simp only [hparse]
      intro heq
      rw [cutAtLast_join hcut] at hmem
      -- in the host it is none of the source's; in the port it is no number
      rcases List.mem_append.1 hmem with hin | hin
      · exact hnot (heq ▸ hin)
      · rcases List.mem_cons.1 hin with hin | hin
        · exact hcolon hin
        · rw [parseU16_eq_none hin hdigit.1 hdigit.2] at hparse
          cases hparse

/-- A host that the proxy takes for one. -/
def LooksLikeHost (isIp : Str → Bool) (host : Str) : Prop := '.' ∈ host ∨ isIp host = true

/-- The target that the `Origin` header names: the proxy. -/
def onFront (front : Front) (t : WsTarget) : WsTarget :=
  { t with host := "127.0.0.1".toList, port := front.port }

theorem isSelf_onFront (front : Front) (t : WsTarget) :
    isSelf front.port (onFront front t) = true := by
  have hhost : (selfHosts.any fun host => host = "127.0.0.1".toList) = true := by decide
  unfold isSelf onFront
  rw [Bool.and_eq_true, decide_eq_true_eq]
  exact ⟨hhost, rfl⟩

theorem fromClientOrigin_front (front : Front) (t : WsTarget) :
    fromClientOrigin t ("http://".toList ++ front.location) = onFront front t := by
  have hdrop : ("http://".toList ++ front.location).dropPrefix? "http://".toList =
      some front.location := by
    rw [List.dropPrefix?_eq_some_iff]
    exact ⟨"http://".toList, rfl, by decide⟩
  have hcolon : ':' ∉ decimal front.port.toNat := fun hmem =>
    digit_plain (isDigit_of_mem_decimal hmem) ':' (by decide) rfl
  have hcut : cutAtLast ':' front.location =
      some ("127.0.0.1".toList, decimal front.port.toNat) :=
    cutAtLast_append hcolon "127.0.0.1".toList
  unfold fromClientOrigin
  simp only [hdrop, hcut, parseU16_decimal]
  rfl

/-- A target that is not the proxy itself. -/
def unlessSelf (front : Front) (t : WsTarget) : Option WsTarget :=
  if isSelf front.port t then none else some t

theorem unlessSelf_eq_some {front : Front} {t t' : WsTarget} :
    unlessSelf front t = some t' ↔ isSelf front.port t = false ∧ t = t' := by
  unfold unlessSelf
  cases isSelf front.port t with
  | true => simp
  | false => simp

section

variable {isIp : Str → Bool} {front : Front} {cookie : Option Str} {U : WsUrl} {S : Source}

theorem resolveTarget_bare :
    resolveTarget isIp front.port (readBack front cookie none U) =
      let named := namedTarget (readBack front cookie none U)
      unlessSelf front
        (if '.' ∈ named.host || isIp named.host then named else onFront front named) := by
  unfold resolveTarget unlessSelf
  simp only [readBack, fromClientOrigin_front]
  rfl

theorem resolveTarget_keyed :
    resolveTarget isIp front.port (readBack front cookie (some S.text) U) =
      let named := namedTarget (readBack front cookie (some S.text) U)
      let valid := '.' ∈ named.host || isIp named.host
      let t := if valid then named else onFront front named
      unlessSelf front (if isSelf front.port t || !valid then fromKeyOrigin t S.text else t) := by
  unfold resolveTarget unlessSelf
  simp only [readBack, fromClientOrigin_front]
  rfl

/-- Without the source, only what looks like a host is connected to. -/
theorem resolveTarget_bare_eq_some {t : WsTarget} :
    resolveTarget isIp front.port (readBack front cookie none U) = some t ↔
      LooksLikeHost isIp (namedTarget (readBack front cookie none U)).host ∧
        isSelf front.port (namedTarget (readBack front cookie none U)) = false ∧
        namedTarget (readBack front cookie none U) = t := by
  rw [resolveTarget_bare]
  generalize namedTarget (readBack front cookie none U) = named
  by_cases hvalid : LooksLikeHost isIp named.host
  · have hv : (decide ('.' ∈ named.host) || isIp named.host) = true := by
      simpa [LooksLikeHost] using hvalid
    simp only [hv, if_true, unlessSelf_eq_some, hvalid, true_and]
  · have hv : (decide ('.' ∈ named.host) || isIp named.host) = false := by
      simpa [LooksLikeHost] using hvalid
    simp only [hv, Bool.false_eq_true, if_false, unlessSelf_eq_some, isSelf_onFront, hvalid,
      false_and, reduceCtorEq]

variable (isIp) in
/-- With the source, a host that does not look like one and the proxy's own are replaced by it. -/
theorem resolveTarget_keyed_eq {named : WsTarget}
    (h : namedTarget (readBack front cookie (some S.text) U) = named) :
    (LooksLikeHost isIp named.host → isSelf front.port named = false →
      resolveTarget isIp front.port (readBack front cookie (some S.text) U) = some named) ∧
    (LooksLikeHost isIp named.host → isSelf front.port named = true →
      resolveTarget isIp front.port (readBack front cookie (some S.text) U) =
        unlessSelf front (fromKeyOrigin named S.text)) ∧
    (¬ LooksLikeHost isIp named.host →
      resolveTarget isIp front.port (readBack front cookie (some S.text) U) =
        unlessSelf front (fromKeyOrigin (onFront front named) S.text)) := by
  rw [resolveTarget_keyed, h]
  refine ⟨fun hvalid hself => ?_, fun hvalid hself => ?_, fun hvalid => ?_⟩
  · have hv : (decide ('.' ∈ named.host) || isIp named.host) = true := by
      simpa [LooksLikeHost] using hvalid
    simp only [hv, if_true, hself, Bool.not_true, Bool.or_false, Bool.false_eq_true, if_false,
      unlessSelf]
  · have hv : (decide ('.' ∈ named.host) || isIp named.host) = true := by
      simpa [LooksLikeHost] using hvalid
    simp only [hv, if_true, hself, Bool.true_or]
  · have hv : (decide ('.' ∈ named.host) || isIp named.host) = false := by
      simpa [LooksLikeHost] using hvalid
    simp only [hv, Bool.false_eq_true, if_false, Bool.not_false, Bool.or_true, if_true]

end

/-! ## URLs that are not rewritten -/

theorem length_utf8_le {s t : Str} (h : s <:+ t) : (utf8 s).length ≤ (utf8 t).length := by
  rcases h with ⟨pre, rfl⟩
  rw [utf8_append, List.length_append]
  omega

theorem resolveTarget_path {isIp : Str → Bool} {frontPort : UInt16} {req : UpgradeRequest}
    {t : WsTarget} (h : resolveTarget isIp frontPort req = some t) :
    t.path = (namedTarget req).path := by
  have hclient : ∀ t origin, (fromClientOrigin t origin).path = t.path := by
    intro t origin
    unfold fromClientOrigin
    dsimp only
    repeat' split
    all_goals rfl
  have hkey : ∀ t origin, (fromKeyOrigin t origin).path = t.path := by
    intro t origin
    unfold fromKeyOrigin
    dsimp only
    repeat' split
    all_goals rfl
  unfold resolveTarget at h
  rcases Option.ite_none_left_eq_some.1 h with ⟨-, heq⟩
  rw [← Option.some.inj heq]
  repeat' split
  all_goals simp only [hclient, hkey]

/-- What is read out of a path is shorter than it. -/
theorem parseUpgrade_length {km : KeyMap} {path : Str} {origin cookie : Option Str}
    {req : UpgradeRequest} (h : parseUpgrade km path origin cookie = .ok req) :
    '?' ∈ path ∧ (utf8 req.target).length < (utf8 path).length := by
  have hjoin := cutAt_join '?' path
  unfold parseUpgrade at h
  split at h
  · cases h
  · rename_i query hquery
    rw [hquery] at hjoin
    have hmem : '?' ∈ path := by
      rw [← hjoin]
      simp [withDelimiter]
    -- the target is decoded from a part of the query, and decoding makes nothing longer
    have hqs : ∀ pre encoded target, (cutAt '?' query).1.dropPrefix? pre = some encoded →
        percentDecode encoded = some target → (utf8 target).length < (utf8 path).length := by
      intro pre encoded target hdrop hdecode
      rw [List.dropPrefix?_eq_some_iff] at hdrop
      rcases hdrop with ⟨pre', heq, -⟩
      have hparts : path = (cutAt '?' path).1 ++ ['?'] ++ pre' ++ encoded ++
          withDelimiter '?' (cutAt '?' query).2 := by
        have hcut := cutAt_join '?' query
        rw [heq] at hcut
        refine hjoin.symm.trans ?_
        generalize (cutAt '?' query).2 = more at hcut ⊢
        rw [← hcut]
        simp [withDelimiter]
      have hlength := length_percentDecode_le hdecode
      have hquestion : (utf8 ['?']).length = 1 := by decide
      rw [hparts]
      simp only [utf8_append, List.length_append, hquestion]
      omega
    dsimp only at h
    split at h
    · rename_i encoded _ hdrop
      split at h
      · rename_i target hdecode
        rw [← Except.ok.inj h]
        exact ⟨hmem, hqs _ _ _ hdrop hdecode⟩
      · cases h
    · rename_i encoded hnone hdrop
      split at h
      · rename_i target hdecode
        rw [← Except.ok.inj h]
        exact ⟨hmem, hqs _ _ _ hdrop hdecode⟩
      · cases h
    · cases h

theorem resolveUpgrade_path_ne {isIp : Str → Bool} {front : Front} {km : KeyMap} {path : Str}
    {origin cookie : Option Str} {t : WsTarget}
    (h : resolveUpgrade isIp front km path origin cookie = .ok t) : t.path ≠ path := by
  unfold resolveUpgrade at h
  split at h
  · cases h
  · rename_i req hparse
    rcases parseUpgrade_length hparse with ⟨hquery, hlength⟩
    split at h
    · rename_i t' ht
      obtain rfl : t' = t := Except.ok.inj h
      intro heq
      have hpath := resolveTarget_path ht
      rw [heq] at hpath
      rcases namedTarget_path req with hroot | hsuffix
      · rw [hpath, hroot] at hquery
        revert hquery
        decide
      · rw [← hpath] at hsuffix
        have := length_utf8_le hsuffix
        omega
    · cases h

/-- A URL of the proxy, in its own words, comes to it as it is. -/
theorem upgradeLine_text {front : Front} {U : WsUrl} {path : Str}
    (h : upgradeLine front U.text = some path) : path = U.requestPath := by
  have hhash : '#' ∉ U.tail := by
    unfold WsUrl.tail
    rw [List.mem_append, not_or]
    refine ⟨U.path_plain '#' (by simp), ?_⟩
    cases hquery : U.query with
    | none => exact List.not_mem_nil
    | some q =>
      show '#' ∉ '?' :: q
      rw [List.mem_cons, not_or]
      exact ⟨by decide, U.query_plain q hquery '#' (by simp)⟩
  -- the text is cut where the URL was put together
  have hcut : cutAt '?' U.tail = (U.path, U.query) := by
    unfold WsUrl.tail
    have hplain := U.path_plain '?' (by simp)
    cases U.query with
    | none =>
      show cutAt '?' (U.path ++ []) = _
      rw [List.append_nil]
      exact cutAt_of_notMem hplain
    | some q => exact cutAt_append hplain q
  have hquery : U.query.map specialQuery = U.query := by
    cases hquery : U.query with
    | none => rfl
    | some q =>
      rw [Option.map_some, specialQuery_plain (U.query_plain q hquery _ (by simp))]
  have hspan := span_isAuthority U.address.text_isAuthority U.tail_starts
  unfold upgradeLine at h
  split at h
  · cases h
  · rename_i after hdrop
    rw [List.dropPrefix?_eq_some_iff] at hdrop
    rcases hdrop with ⟨pre, heq, hpre⟩
    obtain rfl : pre = "ws://".toList := by simpa using hpre
    have hafter : after = U.address.text ++ U.tail := by
      -- 'ws://' is no prefix of 'wss://'
      have hws : U.secure = false := by
        cases hsecure : U.secure with
        | false => rfl
        | true =>
          rw [WsUrl.text, WsUrl.schemeText, hsecure] at heq
          have hthird := congrArg (fun l => l.drop 2) heq
          simp at hthird
      rw [WsUrl.text, WsUrl.schemeText, hws] at heq
      exact (List.append_cancel_left heq).symm
    rw [hafter] at h
    simp only [hspan.1, hspan.2, cutAt_of_notMem hhash, hcut, hquery] at h
    split at h
    · rw [← Option.some.inj h]
      rfl
    · cases h

/-- A URL that the script leaves alone never arrives as it is written. -/
theorem leadsTo_path_ne {isIp : Str → Bool} {front : Front} {km : KeyMap} {key source : Str}
    {cookie : Option Str} {U : WsUrl} {t : WsTarget}
    (hproxied : containsText U.text "/__proxy__".toList = true)
    (h : leadsTo isIp front km key source cookie U.text = some t) : t.path ≠ U.requestPath := by
  unfold leadsTo at h
  rw [rWs_of_proxied hproxied] at h
  split at h
  · cases h
  · rename_i path hline
    rw [← upgradeLine_text hline]
    cases hconnect : resolveUpgrade isIp front km path (some ("http://".toList ++ front.location))
        cookie with
    | error e =>
      rw [hconnect] at h
      cases h
    | ok t' =>
      rw [hconnect] at h
      obtain rfl : t' = t := Option.some.inj h
      exact resolveUpgrade_path_ne hconnect

/-! ## The URLs that arrive -/

/-- The target that stands for the source. -/
def Source.target (S : Source) : WsTarget := ⟨S.address.host, S.port, .ws, []⟩

/-- Where a URL is meant to go: a URL of the proxy itself goes to the source,
by TLS when the page asks for it or the source is an https one. -/
def meantTarget (front : Front) (S : Source) (U : WsUrl) : WsTarget :=
  if U.address.text = front.location then
    ⟨S.address.host, S.port, if S.secure then .wss else U.scheme, U.requestPath⟩
  else U.target

/-- The target takes a connection, and for wss its host is a server name under
which the handshake succeeds. -/
def Network.Takes (net : Network) (t : WsTarget) : Prop :=
  net.tcp (upstreamAddr t) = .ok () ∧
    (t.scheme = .wss → net.serverName t.host = true ∧ net.tls (upstreamAddr t) = .ok ())

/-- The URLs that are resolved as they are written. -/
structure WsResolved (isIp : Str → Bool) (front : Front) (S : Source) (U : WsUrl) : Prop where
  rewritten : containsText U.text "/__proxy__".toList = false
  rooted : U.Rooted
  own : U.address.text = front.location →
    S.Clean ∧ S.address.Readable ∧ isSelf front.port S.target = false
  other : U.address.text ≠ front.location →
    U.address.Readable ∧ isSelf front.port U.target = false ∧
      (LooksLikeHost isIp U.address.host ∨
        (SameAddress S U ∧ (S.secure = true → U.secure = true) ∧
          (U.address.port = none → S.secure = U.secure)))

/-- The URLs that arrive as they are written. -/
structure WsExact (net : Network) (front : Front) (S : Source) (U : WsUrl) : Prop where
  resolved : WsResolved net.isIp front S U
  taken : net.Takes (meantTarget front S U)

/-- The address of the proxy. -/
def Front.address (front : Front) : Address where
  host := "127.0.0.1".toList
  port := some front.port
  host_ne := by decide
  host_plain := forall_mem_of_all (by decide)
  host_colon := by decide

section

variable {isIp : Str → Bool} {front : Front} {cookie : Option Str} {U : WsUrl} {S : Source}

theorem address_of_own (h : U.address.text = front.location) :
    U.address.host = "127.0.0.1".toList ∧ U.address.port = some front.port ∧
      U.address.Readable := by
  have hfront : front.address.Readable := by
    intro hport
    cases hport
  have htext : front.address.text = U.address.text := by
    have hsplit : "127.0.0.1:".toList = "127.0.0.1".toList ++ [':'] := by decide
    have hparts : front.address.text = "127.0.0.1".toList ++ ':' :: decimal front.port.toNat := by
      unfold Address.text Front.address
      simp only [Option.map_some, withDelimiter]
    have hlocation : front.location = "127.0.0.1".toList ++ ':' :: decimal front.port.toNat :=
      (congrArg (fun t => t ++ decimal front.port.toNat) hsplit).trans (List.append_assoc ..)
    exact hparts.trans (hlocation.symm.trans h.symm)
  rcases address_eq_of_text htext hfront with ⟨hhost, hport⟩
  exact ⟨hhost.symm, hport.symm, readable_of_text htext hfront⟩

/-- A URL of the proxy itself leads to the source. -/
theorem resolve_own (h : U.address.text = front.location) (hrooted : U.Rooted) :
    resolveTarget isIp front.port (readBack front cookie (some S.text) U) =
      unlessSelf front (fromKeyOrigin (onFront front U.target) S.text) := by
  rcases address_of_own h with ⟨hhost, hport, hreadable⟩
  have hnamed : namedTarget (readBack front cookie (some S.text) U) = onFront front U.target := by
    rw [namedTarget_rooted hrooted, cutPort_readable hreadable, hhost, hport]
    rfl
  have hdot : '.' ∈ "127.0.0.1".toList := by decide
  have hlooks : LooksLikeHost isIp (onFront front U.target).host := .inl hdot
  exact (resolveTarget_keyed_eq isIp hnamed).2.1 hlooks (isSelf_onFront front _)

theorem own_exact :
    (∃ t, unlessSelf front (fromKeyOrigin (onFront front U.target) S.text) = some t ∧
      t.host = S.address.host ∧ t.port = S.port ∧ t.path = U.requestPath) ↔
      S.Clean ∧ S.address.Readable ∧ isSelf front.port S.target = false := by
  constructor
  · rintro ⟨t, ht, hhost, hport, -⟩
    rw [unlessSelf_eq_some] at ht
    rcases ht with ⟨hself, rfl⟩
    have hclean : S.Clean := by
      by_contra hclean
      rcases fromKeyOrigin_unclean hclean (onFront front U.target) with hsame | hne
      · rw [hsame, isSelf_onFront] at hself
        cases hself
      · exact hne hhost
    have hreadable : S.address.Readable := by
      by_contra hreadable
      rw [fromKeyOrigin_unreadable hclean hreadable, isSelf_onFront] at hself
      cases hself
    refine ⟨hclean, hreadable, ?_⟩
    rw [fromKeyOrigin_readable hclean hreadable] at hself
    exact hself
  · rintro ⟨hclean, hreadable, hself⟩
    refine ⟨ofSource S (onFront front U.target), ?_, rfl, rfl, rfl⟩
    rw [unlessSelf_eq_some, fromKeyOrigin_readable hclean hreadable]
    exact ⟨hself, rfl⟩

/-- The source that a URL of the proxy leads to is the meant one. -/
theorem own_meant (h : U.address.text = front.location) (hclean : S.Clean)
    (hreadable : S.address.Readable) (hself : isSelf front.port S.target = false) :
    unlessSelf front (fromKeyOrigin (onFront front U.target) S.text) =
      some (meantTarget front S U) := by
  rw [unlessSelf_eq_some, fromKeyOrigin_readable hclean hreadable, meantTarget, if_pos h]
  exact ⟨hself, rfl⟩

variable (front cookie) in
theorem namedTarget_readable (keyOrigin : Option Str) (h : U.address.Readable) (hrooted : U.Rooted) :
    namedTarget (readBack front cookie keyOrigin U) = U.target := by
  rw [namedTarget_rooted hrooted, cutPort_readable h]
  rfl

variable (front cookie) in
/-- The host of an unreadable address is cut short. -/
theorem named_unreadable (keyOrigin : Option Str) (h : ¬ U.address.Readable) (hrooted : U.Rooted) :
    (namedTarget (readBack front cookie keyOrigin U)).host ≠ U.address.host ∧
      (namedTarget (readBack front cookie keyOrigin U)).port = defaultPort U.secure := by
  rcases cutAtLast_unreadable h with ⟨a, b, hcut, hnone, hlength⟩
  rw [namedTarget_rooted hrooted, cutPort, hcut]
  simp only [hnone, Option.getD_none, and_true]
  intro heq
  rw [heq] at hlength
  omega

theorem defaultPort_ne (front : Front) (secure : Bool) : defaultPort secure ≠ front.port := by
  intro h
  have hephemeral := front.ephemeral
  rw [← h] at hephemeral
  revert hephemeral
  cases secure with
  | false => decide
  | true => decide

theorem isSelf_default {t : WsTarget} {secure : Bool} (h : t.port = defaultPort secure) :
    isSelf front.port t = false := by
  unfold isSelf
  rw [h, decide_eq_false (defaultPort_ne front secure), Bool.and_false]

/-- A URL of another host that does not get the key. -/
theorem resolve_bare (hrooted : U.Rooted) :
    resolveTarget isIp front.port (readBack front cookie none U) = some U.target ↔
      U.address.Readable ∧ isSelf front.port U.target = false ∧
        LooksLikeHost isIp U.address.host := by
  rw [resolveTarget_bare_eq_some]
  by_cases hreadable : U.address.Readable
  · rw [namedTarget_readable front cookie none hreadable hrooted]
    constructor
    · rintro ⟨hlooks, hself, -⟩
      exact ⟨hreadable, hself, hlooks⟩
    · rintro ⟨-, hself, hlooks⟩
      exact ⟨hlooks, hself, rfl⟩
  · constructor
    · rintro ⟨-, -, heq⟩
      exact absurd (congrArg WsTarget.host heq)
        (named_unreadable front cookie none hreadable hrooted).1
    · rintro ⟨hr, -⟩
      exact absurd hr hreadable

/-- The source stands for its own host as long as scheme and default port agree. -/
theorem ofSource_eq_target (hsame : SameAddress S U) (h : U.address.Readable) (t : WsTarget)
    (hscheme : t.scheme = U.scheme) (hpath : t.path = U.requestPath) :
    ofSource S t = U.target ↔
      (S.secure = true → U.secure = true) ∧ (U.address.port = none → S.secure = U.secure) := by
  rcases address_eq_of_text hsame.1 h with ⟨hhost, hport⟩
  unfold ofSource WsUrl.target Source.port
  rw [← hhost, ← hport, hscheme, hpath]
  simp only [WsTarget.mk.injEq, true_and, and_true]
  cases hp : U.address.port with
  | some p =>
    simp only [Option.getD_some, true_and, reduceCtorEq, false_imp_iff, and_true]
    unfold WsUrl.scheme
    cases S.secure <;> cases U.secure <;> simp
  | none =>
    simp only [Option.getD_none, true_imp_iff]
    unfold WsUrl.scheme defaultPort
    cases S.secure <;> cases U.secure <;> simp

/-- A URL of the source's host. -/
theorem resolve_same (hsame : SameAddress S U) (hrooted : U.Rooted) :
    resolveTarget isIp front.port (readBack front cookie (some S.text) U) = some U.target ↔
      U.address.Readable ∧ isSelf front.port U.target = false ∧
        (LooksLikeHost isIp U.address.host ∨
          ((S.secure = true → U.secure = true) ∧
            (U.address.port = none → S.secure = U.secure))) := by
  by_cases hreadable : U.address.Readable
  · have hnamed := namedTarget_readable front cookie (some S.text) hreadable hrooted
    have hsource : S.address.Readable := readable_of_text hsame.1 hreadable
    rcases resolveTarget_keyed_eq isIp hnamed with ⟨hdirect, hself, hback⟩
    by_cases hlooks : LooksLikeHost isIp U.address.host
    · cases hown : isSelf front.port U.target with
      | false =>
        rw [hdirect hlooks hown]
        exact iff_of_true rfl ⟨hreadable, rfl, .inl hlooks⟩
      | true =>
        -- the source is the proxy, under the same port
        rw [hself hlooks hown, fromKeyOrigin_readable hsame.2 hsource]
        refine iff_of_false ?_ (by simp)
        have hport : U.address.port ≠ none := by
          intro hnone
          have hdefault : U.target.port = defaultPort U.secure := by
            rw [WsUrl.target, hnone]
            rfl
          rw [isSelf_default hdefault] at hown
          cases hown
        rcases Option.ne_none_iff_exists'.1 hport with ⟨p, hp⟩
        rcases address_eq_of_text hsame.1 hreadable with ⟨hhost, hsport⟩
        have hloop : isSelf front.port (ofSource S U.target) = isSelf front.port U.target := by
          unfold isSelf ofSource WsUrl.target Source.port
          rw [← hhost, ← hsport, hp]
          rfl
        rw [unlessSelf, hloop, hown]
        simp
    · rw [hback hlooks, fromKeyOrigin_readable hsame.2 hsource, unlessSelf_eq_some]
      have htarget := ofSource_eq_target hsame hreadable (onFront front U.target) rfl rfl
      constructor
      · rintro ⟨hown, heq⟩
        rw [heq] at hown
        exact ⟨hreadable, hown, .inr (htarget.1 heq)⟩
      · rintro ⟨-, hown, hcond⟩
        rcases hcond with hbad | hcond
        · exact absurd hbad hlooks
        · have heq := htarget.2 hcond
          exact ⟨heq ▸ hown, heq⟩
  · refine iff_of_false ?_ fun h => hreadable h.1
    have hsource : ¬ S.address.Readable := fun h =>
      hreadable (readable_of_text hsame.1.symm h)
    have hcut := named_unreadable front cookie (some S.text) hreadable hrooted
    have hnamed : namedTarget (readBack front cookie (some S.text) U) = _ := rfl
    rcases resolveTarget_keyed_eq isIp hnamed with ⟨hdirect, -, hback⟩
    by_cases hlooks : LooksLikeHost isIp
        (namedTarget (readBack front cookie (some S.text) U)).host
    · rw [hdirect hlooks (isSelf_default hcut.2)]
      intro heq
      exact hcut.1 (congrArg WsTarget.host (Option.some.inj heq))
    · rw [hback hlooks, fromKeyOrigin_unreadable hsame.2 hsource, unlessSelf,
        isSelf_onFront]
      simp

end

/-! ## Connections -/

theorem connectUpstream_eq_ok {net : Network} {t : WsTarget} :
    connectUpstream net t = .ok () ↔ net.Takes t := by
  unfold connectUpstream Network.Takes
  cases net.tcp (upstreamAddr t) with
  | error e =>
    cases e with
    | none => simp
    | some e => simp
  | ok u =>
    by_cases hwss : t.scheme = .wss
    · simp only [hwss, if_true, true_and, true_imp_iff]
      cases net.serverName t.host with
      | false => simp
      | true => cases net.tls (upstreamAddr t) <;> simp
    · simp [hwss]

/-- The proxy is connected to where the URL leads, if that target takes it. -/
theorem openSocket_eq_some {net : Network} {front : Front} {km : KeyMap} {key source : Str}
    {cookie : Option Str} {u : Str} {t : WsTarget} :
    openSocket net front km key source cookie u = some t ↔
      leadsTo net.isIp front km key source cookie u = some t ∧ net.Takes t := by
  unfold openSocket leadsTo
  cases upgradeLine front (rWs front.location key (baseOrigin source) u) with
  | none => simp
  | some path =>
    simp only [connectTo]
    cases resolveUpgrade net.isIp front km path (some ("http://".toList ++ front.location))
        cookie with
    | error e => simp [Except.toOption]
    | ok t' =>
      have hok := @connectUpstream_eq_ok net t'
      cases hconnect : connectUpstream net t' with
      | error e =>
        rw [hconnect] at hok
        have hnot : ¬ net.Takes t' := by simpa using hok
        simp only [hconnect, Except.toOption, reduceCtorEq, Option.some.injEq, false_iff, not_and]
        rintro rfl
        exact hnot
      | ok u =>
        rw [hconnect] at hok
        have htakes : net.Takes t' := by simpa using hok
        simp only [hconnect, Except.toOption, Option.some.injEq]
        constructor
        · rintro rfl
          exact ⟨rfl, htakes⟩
        · exact fun h => h.1

section

variable {isIp : Str → Bool} {front : Front} {km : KeyMap} {key : Str} {S : Source}
  {cookie : Option Str} {U : WsUrl}

/-- The query of a URL without a path is taken for a part of its host. -/
theorem not_leads_of_query (hkey : PlainKey key) (hne : key ≠ [])
    (hreg : km.get key = some S.text)
    (hproxied : containsText U.text "/__proxy__".toList = false) (hrooted : ¬ U.Rooted) :
    ¬ ∃ t, leadsTo isIp front km key S.text cookie U.text = some t ∧ AsWritten front S U t := by
  rintro ⟨t, ht, hexact⟩
  rcases leadsTo_eq isIp front cookie hkey hne hreg hproxied
    with ⟨hkeyed, hbare⟩
  have hpath : t.path = U.requestPath := by
    unfold AsWritten at hexact
    split at hexact
    · exact hexact.2.2
    · rw [hexact]
      rfl
  by_cases hk : Keyed front S U
  · rw [hkeyed hk] at ht
    exact namedTarget_path_ne hrooted ((resolveTarget_path ht).symm.trans hpath)
  · rw [hbare hk] at ht
    exact namedTarget_path_ne hrooted ((resolveTarget_path ht).symm.trans hpath)

/-- A URL leads where it says in the `WsResolved` cases, and in no other. -/
theorem leads_iff (hkey : PlainKey key) (hne : key ≠ []) (hreg : km.get key = some S.text) :
    (∃ t, leadsTo isIp front km key S.text cookie U.text = some t ∧ AsWritten front S U t) ↔
      WsResolved isIp front S U := by
  cases hproxied : containsText U.text "/__proxy__".toList with
  | true =>
    -- the script leaves it alone
    constructor
    · rintro ⟨t, ht, hexact⟩
      refine absurd ?_ (leadsTo_path_ne hproxied ht)
      unfold AsWritten at hexact
      split at hexact
      · exact hexact.2.2
      · rw [hexact]
        rfl
    · intro h
      rw [h.rewritten] at hproxied
      cases hproxied
  | false =>
    rcases leadsTo_eq isIp front cookie hkey hne hreg hproxied
      with ⟨hkeyed, hbare⟩
    by_cases hrooted : U.Rooted
    · by_cases hown : U.address.text = front.location
      · have hopen := (hkeyed (.inl hown)).trans (resolve_own hown hrooted)
        unfold AsWritten
        simp only [hopen, if_pos hown]
        rw [own_exact]
        constructor
        · intro h
          exact ⟨hproxied, hrooted, fun _ => h, fun hne => absurd hown hne⟩
        · exact fun h => h.own hown
      · have hopens : (∃ t, leadsTo isIp front km key S.text cookie U.text = some t ∧
            AsWritten front S U t) ↔
            leadsTo isIp front km key S.text cookie U.text = some U.target := by
          unfold AsWritten
          simp only [if_neg hown]
          constructor
          · rintro ⟨t, ht, rfl⟩
            exact ht
          · exact fun h => ⟨U.target, h, rfl⟩
        rw [hopens]
        by_cases hsame : SameAddress S U
        · rw [hkeyed (.inr hsame), resolve_same hsame hrooted]
          constructor
          · rintro ⟨hreadable, hself, hcond⟩
            refine ⟨hproxied, hrooted, fun h => absurd h hown, fun _ => ⟨hreadable, hself, ?_⟩⟩
            exact hcond.imp_right fun h => ⟨hsame, h⟩
          · intro h
            rcases h.other hown with ⟨hreadable, hself, hcond⟩
            exact ⟨hreadable, hself, hcond.imp_right fun h => h.2⟩
        · have hnot : ¬ Keyed front S U := fun h => h.elim hown hsame
          rw [hbare hnot, resolve_bare hrooted]
          constructor
          · rintro ⟨hreadable, hself, hlooks⟩
            exact ⟨hproxied, hrooted, fun h => absurd h hown,
              fun _ => ⟨hreadable, hself, .inl hlooks⟩⟩
          · intro h
            rcases h.other hown with ⟨hreadable, hself, hcond⟩
            exact ⟨hreadable, hself, hcond.resolve_right fun h => hsame h.1⟩
    · exact iff_of_false (not_leads_of_query hkey hne hreg hproxied hrooted)
        fun h => hrooted h.rooted

theorem leads_meant (hkey : PlainKey key) (hne : key ≠ []) (hreg : km.get key = some S.text)
    (h : WsResolved isIp front S U) :
    leadsTo isIp front km key S.text cookie U.text = some (meantTarget front S U) := by
  by_cases hown : U.address.text = front.location
  · rcases h.own hown with ⟨hclean, hreadable, hself⟩
    have hkeyed := (leadsTo_eq isIp front cookie hkey hne hreg h.rewritten).1 (.inl hown)
    exact hkeyed.trans ((resolve_own hown h.rooted).trans (own_meant hown hclean hreadable hself))
  · have hleads : ∃ t, leadsTo isIp front km key S.text cookie U.text = some t ∧
        AsWritten front S U t := (leads_iff hkey hne hreg).2 h
    rcases hleads with ⟨t, ht, hwritten⟩
    rw [AsWritten, if_neg hown] at hwritten
    rw [ht, hwritten, meantTarget, if_neg hown]

end

theorem nasHost_colon :
    ':' ∉ "nas.local".toList ∨ "nas.local".toList.getLast? = some ']' := by decide

def nasAddress : Address where
  host := "nas.local".toList
  port := some 8080
  host_ne := by decide
  host_plain := forall_mem_of_all (by decide)
  host_colon := nasHost_colon

def nasSource : Source where
  secure := false
  address := nasAddress
  tail := []
  tail_starts := .inl rfl

def nasFront : Front := ⟨7890, by decide⟩

def nasKeyMap : KeyMap := (registerProxyKey nasDigest ∅ nasSource.text).1

theorem nasKeyMap_registered :
    nasKeyMap.get (proxyKey nasDigest nasSource.text) = some nasSource.text :=
  Map.get_insert_self _ _ _

/-- `ws://nas.local:8080/events?from=0` -/
def nasEvents : WsUrl where
  secure := false
  address := nasAddress
  path := "/events".toList
  query := some "from=0".toList
  path_rooted := .inr (by decide)
  path_plain := forall_mem_of_all (by decide)
  query_plain := by
    intro q hq
    obtain rfl : "from=0".toList = q := Option.some.inj hq
    exact forall_mem_of_all (by decide)

def cameraAddress : Address where
  host := "cam.lan".toList
  port := none
  host_ne := by decide
  host_plain := forall_mem_of_all (by decide)
  host_colon := by decide

theorem rooted_nil : ([] : Str) = [] ∨ ([] : Str).head? = some '/' := .inl rfl

theorem plain_nil (cs : List Char) : ∀ c ∈ cs, c ∉ ([] : Str) := by simp

/-- `wss://cam.lan?token=1` -/
def camera : WsUrl where
  secure := true
  address := cameraAddress
  path := []
  query := some "token=1".toList
  path_rooted := rooted_nil
  path_plain := plain_nil _
  query_plain := by
    intro q hq
    obtain rfl : "token=1".toList = q := Option.some.inj hq
    exact forall_mem_of_all (by decide)

/-- Everything answers. Names of servers have no brackets. -/
def openNetwork : Network where
  isIp _ := false
  tcp _ := .ok ()
  serverName host := host.head? ≠ some '['
  tls _ := .ok ()

end HomeTier.WsCodec
