import HomeTier.Proxy.WsUrl

/-! # Which WebSocket URLs arrive

`leadsTo_eq`: a URL that the script rewrites reaches `resolveTarget` as the
page wrote it, with the source of the page when the host is the proxy's or that
of the source. A URL that it takes for one of the proxy already is not rewritten,
and never arrives. The rest is about what `resolveTarget` reads.
-/

namespace HomeTier.WsCodec

open Lib

/-! ## Authorities -/

theorem digit_plain {c : Char} (h : c.isDigit = true) : ∀ d ∈ ['/', '?', '#', ':', ']'], c ≠ d := by
  rintro d hd rfl
  have hnone := forall_mem_of_all (P := fun d : Char => d.isDigit = false)
    (l := ['/', '?', '#', ':', ']']) (by decide) c hd
  rw [h] at hnone
  cases hnone

/-- What a URL's address is made of. -/
theorem Address.mem_text {a : Address} {c : Char} (h : c ∈ a.text) :
    c ∈ a.host ∨ c = ':' ∨ c.isDigit = true := by
  rcases List.mem_append.1 h with h | h
  · exact .inl h
  · cases hport : a.port with
    | none =>
      rw [hport] at h
      cases h
    | some p =>
      rw [hport] at h
      rcases List.mem_cons.1 h with h | h
      · exact .inr (.inl h)
      · exact .inr (.inr (isDigit_of_mem_decimal h))

theorem Address.text_plain (a : Address) : ∀ c ∈ ['/', '?', '#'], c ∉ a.text := by
  intro c hc hmem
  rcases Address.mem_text hmem with h | rfl | h
  · exact a.host_plain c hc h
  · revert hc
    decide
  · exact digit_plain h c (List.mem_append_left [':', ']'] hc) rfl

theorem isAuthority_iff {c : Char} : isAuthority c = true ↔ c ∉ ['/', '?', '#'] := by
  simp [isAuthority, and_assoc]

theorem Address.text_isAuthority (a : Address) : ∀ c ∈ a.text, isAuthority c = true := by
  intro c hc
  rw [isAuthority_iff]
  exact fun hdel => a.text_plain c hdel hc

theorem Front.location_isAuthority (front : Front) :
    ∀ c ∈ front.location, isAuthority c = true := by
  intro c hc
  rcases List.mem_append.1 hc with hc | hc
  · exact forall_mem_of_all (P := fun c => isAuthority c = true) (by decide) c hc
  · rw [isAuthority_iff]
    intro hdel
    exact digit_plain (isDigit_of_mem_decimal hc) c (List.mem_append_left [':', ']'] hdel) rfl

/-- An authority ends at a slash, a question mark or a hash. -/
theorem span_isAuthority {h r : Str} (hh : ∀ c ∈ h, isAuthority c = true)
    (hr : r = [] ∨ ∃ c ∈ ['/', '?', '#'], r.head? = some c) :
    (h ++ r).takeWhile isAuthority = h ∧ (h ++ r).dropWhile isAuthority = r := by
  rw [List.takeWhile_append_of_pos hh, List.dropWhile_append_of_pos hh]
  rcases hr with rfl | ⟨c, hc, hhead⟩
  · simp
  · cases r with
    | nil => cases hhead
    | cons d r =>
      obtain rfl : d = c := Option.some.inj hhead
      have hstop : ¬ isAuthority d = true := by
        rw [isAuthority_iff]
        exact not_not_intro hc
      rw [List.takeWhile_cons_of_neg hstop, List.dropWhile_cons_of_neg hstop]
      exact ⟨List.append_nil h, rfl⟩

namespace WsUrl

variable (U : WsUrl)

theorem tail_starts : U.tail = [] ∨ ∃ c ∈ ['/', '?', '#'], U.tail.head? = some c := by
  unfold tail
  rcases U.path_rooted with hp | hp
  · rw [hp]
    cases U.query with
    | none => exact .inl rfl
    | some q => exact .inr ⟨'?', by simp, rfl⟩
  · cases hpath : U.path with
    | nil => simp [hpath] at hp
    | cons c p =>
      rw [hpath] at hp
      exact .inr ⟨'/', by simp, hp⟩

theorem wsMatch_text : wsMatch U.text = some (U.schemeText, U.address.text, U.tail) := by
  have hspan := span_isAuthority U.address.text_isAuthority U.tail_starts
  cases hsecure : U.secure with
  | false =>
    have htext : U.text = 'w' :: 's' :: ':' :: '/' :: '/' :: (U.address.text ++ U.tail) := by
      simp [text, schemeText, hsecure]
    rw [wsMatch, htext, if_pos (by rfl)]
    simp only [List.drop_succ_cons, List.drop_zero, hspan.1, hspan.2, schemeText, hsecure]
    rfl
  | true =>
    have htext : U.text =
        'w' :: 's' :: 's' :: ':' :: '/' :: '/' :: (U.address.text ++ U.tail) := by
      simp [text, schemeText, hsecure]
    rw [wsMatch, htext, if_neg (by simp [toAsciiLowercase]), if_pos (by rfl)]
    simp only [List.drop_succ_cons, List.drop_zero, hspan.1, hspan.2, schemeText, hsecure]
    rfl

end WsUrl

/-! ## What the script writes -/

/-- The source's address stands in front of a path. -/
def Source.Clean (S : Source) : Prop := S.tail = [] ∨ S.tail.head? = some '/'

theorem Source.scheme_plain (S : Source) : ':' ∉ S.scheme := by
  unfold Source.scheme
  cases S.secure with
  | false => decide
  | true => decide

theorem cutAt_fst_append {c : Char} {h : Str} (hh : c ∉ h) (r : Str) :
    (cutAt c (h ++ r)).1 = h ++ r.takeWhile (· ≠ c) := by
  have hall : ∀ a ∈ h, decide (a ≠ c) = true := by
    intro a ha
    have hne : a ≠ c := by
      rintro rfl
      exact hh ha
    simpa using hne
  rw [cutAt, List.takeWhile_append_of_pos hall]

/-- An origin ends at the first slash behind the scheme. -/
theorem baseOrigin_append {scheme : Str} (h : ':' ∉ scheme) (after : Str) :
    baseOrigin (scheme ++ "://".toList ++ after) =
      scheme ++ "://".toList ++ (cutAt '/' after).1 := by
  have hsplit : splitOnce "://".toList (scheme ++ "://".toList ++ after) = some (scheme, after) :=
    splitOnce_append h after
  have hjoin := cutAt_join '/' after
  rw [baseOrigin, hsplit]
  cases hcut : cutAt '/' after with
  | mk host rest =>
    cases rest with
    | some p => simp only [hcut]
    | none =>
      rw [hcut] at hjoin
      simp only [hcut]
      rw [← hjoin]
      exact congrArg _ (List.append_nil host)

/-- `O` of the script, and the host in it. -/
theorem originHost_source (S : Source) :
    originHost (baseOrigin S.text) = S.address.text ++ S.tail.takeWhile (· ≠ '/') := by
  have hfront := cutAt_fst_append (S.address.text_plain '/' (by simp)) S.tail
  have hnone : '/' ∉ S.address.text ++ S.tail.takeWhile (· ≠ '/') := by
    rw [← hfront]
    exact notMem_cutAt _ _
  have hsplit : ∀ after, splitOnce "://".toList (S.scheme ++ "://".toList ++ after) =
      some (S.scheme, after) := splitOnce_append S.scheme_plain
  have hbase : baseOrigin S.text =
      S.scheme ++ "://".toList ++ (S.address.text ++ S.tail.takeWhile (· ≠ '/')) := by
    rw [Source.text, baseOrigin_append S.scheme_plain, hfront]
  have hlast : splitOnce "://".toList (S.address.text ++ S.tail.takeWhile (· ≠ '/')) = none := by
    cases hagain : splitOnce "://".toList (S.address.text ++ S.tail.takeWhile (· ≠ '/')) with
    | none => rfl
    | some r =>
      rw [splitOnce_eq_some (a := r.1) (b := r.2) hagain] at hnone
      simp at hnone
  rw [hbase, originHost, hsplit]
  simp only [hlast, cutAt_of_notMem hnone]

/-- The host of a URL is that of the source. -/
def SameAddress (S : Source) (U : WsUrl) : Prop := U.address.text = S.address.text ∧ S.Clean

theorem address_eq_originHost {S : Source} {U : WsUrl} :
    U.address.text = originHost (baseOrigin S.text) ↔ SameAddress S U := by
  rw [originHost_source]
  constructor
  · intro h
    rcases S.tail_starts with htail | ⟨c, hc, hhead⟩
    · rw [htail, List.takeWhile_nil, List.append_nil] at h
      exact ⟨h, .inl htail⟩
    · cases htail : S.tail with
      | nil => simp [htail] at hhead
      | cons d tail =>
        obtain rfl : d = c := by simpa [htail] using hhead
        by_cases hslash : d = '/'
        · rw [htail, hslash] at h
          refine ⟨by simpa using h, .inr ?_⟩
          rw [htail, hslash]
          rfl
        · -- the query or fragment of the source is no part of a host
          refine absurd ?_ (U.address.text_plain d hc)
          rw [h, htail, List.takeWhile_cons_of_pos (by simpa using hslash)]
          simp
  · rintro ⟨h, hclean⟩
    rw [h]
    rcases hclean with htail | hhead
    · rw [htail, List.takeWhile_nil, List.append_nil]
    · cases htail : S.tail with
      | nil => simp [htail] at hhead
      | cons d tail =>
        obtain rfl : d = '/' := by simpa [htail] using hhead
        simp

theorem Address.text_ne_nil (a : Address) : a.text ≠ [] := by
  intro h
  exact a.host_ne (List.append_eq_nil_iff.1 h).1

/-- The key goes into the path. -/
def Keyed (front : Front) (S : Source) (U : WsUrl) : Prop :=
  U.address.text = front.location ∨ SameAddress S U

/-- Path and query of an encoded URL, as far as the query. -/
def keyPath (key : Str) : Str := "/__proxy__".toList ++ key

/-- The address and everything behind it, as it is encoded. -/
def WsUrl.payload (U : WsUrl) : Str := U.address.text ++ (if U.tail = [] then "/".toList else U.tail)

theorem rWs_of_proxied {location key origin u : Str}
    (h : containsText u "/__proxy__".toList = true) : rWs location key origin u = u := by
  unfold rWs
  simp only [h, if_true]

/-- The query of an encoded URL. -/
def WsUrl.param (U : WsUrl) : Str := U.schemeText ++ '=' :: encodeURIComponent U.payload

theorem keyed_iff {front : Front} {S : Source} {U : WsUrl} :
    (U.address.text = front.location ∨
      (originHost (baseOrigin S.text) ≠ [] ∧ U.address.text = originHost (baseOrigin S.text))) ↔
      Keyed front S U := by
  refine or_congr Iff.rfl ?_
  rw [address_eq_originHost, and_iff_right_iff_imp]
  intro _
  rw [originHost_source]
  simp [S.address.text_ne_nil]

theorem rWs_eq {location key origin : Str} {U : WsUrl}
    (h : containsText U.text "/__proxy__".toList = false) :
    rWs location key origin U.text =
      if U.address.text = location ∨ (originHost origin ≠ [] ∧ U.address.text = originHost origin)
      then "ws://".toList ++ (location ++ "/__proxy__".toList ++ key ++ '?' :: U.param)
      else "ws://".toList ++ (location ++ '?' :: U.param) := by
  unfold rWs
  simp only [h, Bool.false_eq_true, if_false, U.wsMatch_text]
  rfl

theorem rWs_keyed {front : Front} {key : Str} {S : Source} {U : WsUrl}
    (h : containsText U.text "/__proxy__".toList = false) (hkeyed : Keyed front S U) :
    rWs front.location key (baseOrigin S.text) U.text =
      "ws://".toList ++ (front.location ++ (keyPath key ++ '?' :: U.param)) := by
  rw [rWs_eq h, if_pos (keyed_iff.2 hkeyed), List.append_assoc, List.append_assoc]
  rfl

theorem rWs_bare {front : Front} {key : Str} {S : Source} {U : WsUrl}
    (h : containsText U.text "/__proxy__".toList = false) (hkeyed : ¬ Keyed front S U) :
    rWs front.location key (baseOrigin S.text) U.text =
      "ws://".toList ++ (front.location ++ '?' :: U.param) := by
  rw [rWs_eq h, if_neg fun hk => hkeyed (keyed_iff.1 hk)]

/-! ## What the proxy reads -/

/-- What the browser leaves as it is of an encoded query. -/
def keptInQuery (c : Char) : Bool := isUnreserved c && c ≠ Char.ofNat 39

theorem specialQuery_append (s t : Str) :
    specialQuery (s ++ t) = specialQuery s ++ specialQuery t := List.flatMap_append

/-- A text without an apostrophe stays. -/
theorem specialQuery_plain {s : Str} (h : Char.ofNat 39 ∉ s) : specialQuery s = s := by
  induction s with
  | nil => rfl
  | cons c s ih =>
    rw [List.mem_cons, not_or] at h
    show (if c = Char.ofNat 39 then _ else _) ++ specialQuery s = _
    rw [if_neg (Ne.symm h.1), ih h.2]
    rfl

/-- The browser's encoding joins that of the script. -/
theorem specialQuery_encode (s : Str) :
    specialQuery (encodeURIComponent s) = percentEncode keptInQuery s := by
  have hbyte : ∀ n < 256, specialQuery (escapeByte isUnreserved (UInt8.ofNat n)) =
      escapeByte keptInQuery (UInt8.ofNat n) := by decide +kernel
  unfold encodeURIComponent percentEncode specialQuery at *
  rw [List.flatMap_assoc]
  refine List.flatMap_congr fun b _ => ?_
  have hb := hbyte b.toNat b.toNat_lt
  rwa [UInt8.ofNat_toNat] at hb

/-- Delimiters are encoded. -/
theorem encode_plain (s : Str) : ∀ c ∈ ['?', '#'],
    c ∉ encodeURIComponent s ∧ c ∉ percentEncode keptInQuery s := by
  have hkeep : ∀ c ∈ ['?', '#'], isUnreserved c = false ∧ keptInQuery c = false ∧ c ≠ '%' ∧
      c ∉ upperHexDigits := forall_mem_of_all (by decide)
  intro c hc
  rcases hkeep c hc with ⟨hscript, hquery, hpercent, hdigit⟩
  constructor
  · intro hmem
    rcases mem_percentEncode hmem with h | h | h
    · rw [hscript] at h
      cases h
    · exact hpercent h
    · exact hdigit h
  · intro hmem
    rcases mem_percentEncode hmem with h | h | h
    · rw [hquery] at h
      cases h
    · exact hpercent h
    · exact hdigit h

namespace WsUrl

variable (U : WsUrl)

theorem schemeText_plain : ∀ c ∈ ['?', '#', '=', Char.ofNat 39], c ∉ U.schemeText := by
  unfold schemeText
  cases U.secure with
  | false => exact forall_mem_of_all (by decide)
  | true => exact forall_mem_of_all (by decide)

/-- The query as the browser sends it. -/
def sentParam : Str := U.schemeText ++ '=' :: percentEncode keptInQuery U.payload

theorem specialQuery_param : specialQuery U.param = U.sentParam := by
  have hplain : specialQuery U.schemeText = U.schemeText :=
    specialQuery_plain (U.schemeText_plain _ (by decide))
  rw [param, specialQuery_append, hplain, sentParam, ← specialQuery_encode]
  rfl

theorem param_plain : ∀ c ∈ ['?', '#'], c ∉ U.param ∧ c ∉ U.sentParam := by
  intro c hc
  have hscheme : c ∉ U.schemeText := U.schemeText_plain c (by
    rcases List.mem_pair.1 hc with rfl | rfl
    · decide
    · decide)
  have hequals : c ≠ '=' := by
    rcases List.mem_pair.1 hc with rfl | rfl
    · decide
    · decide
  have hencode := encode_plain U.payload c hc
  simp only [param, sentParam, List.mem_append, List.mem_cons, not_or]
  exact ⟨⟨hscheme, hequals, hencode.1⟩, hscheme, hequals, hencode.2⟩

end WsUrl

/-- The request line of an encoded URL. -/
theorem upgradeLine_encoded {front : Front} {U : WsUrl} {pre : Str}
    (hpre : pre = [] ∨ pre.head? = some '/') (hplain : ∀ c ∈ ['?', '#'], c ∉ pre) :
    upgradeLine front ("ws://".toList ++ (front.location ++ (pre ++ '?' :: U.param))) =
      some ((if pre = [] then "/".toList else pre) ++ '?' :: U.sentParam) := by
  have hdrop : ("ws://".toList ++ (front.location ++ (pre ++ '?' :: U.param))).dropPrefix?
      "ws://".toList = some (front.location ++ (pre ++ '?' :: U.param)) := by
    rw [List.dropPrefix?_eq_some_iff]
    exact ⟨"ws://".toList, rfl, by decide⟩
  have hstarts : pre ++ '?' :: U.param = [] ∨
      ∃ c ∈ ['/', '?', '#'], (pre ++ '?' :: U.param).head? = some c := by
    rcases hpre with rfl | hhead
    · exact .inr ⟨'?', by simp, rfl⟩
    · refine .inr ⟨'/', by simp, ?_⟩
      rw [List.head?_append, hhead]
      rfl
  have hspan := span_isAuthority front.location_isAuthority hstarts
  have hhash : '#' ∉ pre ++ '?' :: U.param := by
    rw [List.mem_append, List.mem_cons, not_or, not_or]
    exact ⟨hplain _ (by simp), by decide, (U.param_plain _ (by simp)).1⟩
  unfold upgradeLine
  simp only [hdrop, hspan.1, hspan.2, true_or, if_true, cutAt_of_notMem hhash,
    cutAt_append (hplain '?' (by simp)), Option.map_some, withDelimiter, U.specialQuery_param]

/-- The upgrade as it is read back. -/
def readBack (front : Front) (cookie keyOrigin : Option Str) (U : WsUrl) : UpgradeRequest :=
  ⟨U.scheme, U.payload, some ("http://".toList ++ front.location), cookie, keyOrigin⟩

/-- Behind any path, the query is read back. -/
theorem parseUpgrade_encoded {front : Front} {km : KeyMap} {cookie : Option Str} {U : WsUrl}
    {path : Str} (hpath : '?' ∉ path) :
    parseUpgrade km (path ++ '?' :: U.sentParam) (some ("http://".toList ++ front.location)) cookie =
      .ok (readBack front cookie (keyOrigin km path) U) := by
  have hkey : keyOrigin km (path ++ '?' :: U.sentParam) = keyOrigin km path := by
    rw [keyOrigin, keyOrigin, cutAt_append hpath, cutAt_of_notMem hpath]
  have hdecode : percentDecode (percentEncode keptInQuery U.payload) = some U.payload :=
    percentDecode_percentEncode (by decide) _
  have hquery : (cutAt '?' U.sentParam).1 = U.sentParam :=
    congrArg Prod.fst (cutAt_of_notMem (U.param_plain '?' (by simp)).2)
  unfold parseUpgrade
  simp only [cutAt_append hpath, hquery, hkey]
  cases hsecure : U.secure with
  | false =>
    have hws : U.sentParam.dropPrefix? "ws=".toList =
        some (percentEncode keptInQuery U.payload) := by
      rw [List.dropPrefix?_eq_some_iff]
      exact ⟨"ws=".toList, by simp [WsUrl.sentParam, WsUrl.schemeText, hsecure], by decide⟩
    simp only [hws, hdecode, readBack, WsUrl.scheme, hsecure]
    rfl
  | true =>
    have hws : U.sentParam.dropPrefix? "ws=".toList = none := by
      simp [WsUrl.sentParam, WsUrl.schemeText, hsecure, List.dropPrefix?]
    have hwss : U.sentParam.dropPrefix? "wss=".toList =
        some (percentEncode keptInQuery U.payload) := by
      rw [List.dropPrefix?_eq_some_iff]
      exact ⟨"wss=".toList, by simp [WsUrl.sentParam, WsUrl.schemeText, hsecure], by decide⟩
    simp only [hws, hwss, hdecode, readBack, WsUrl.scheme, hsecure]
    rfl

theorem keyPath_plain {key : Str} (hkey : PlainKey key) : ∀ c ∈ ['?', '#'], c ∉ keyPath key := by
  intro c hc h
  have hfront : ∀ c ∈ ['?', '#'], c ∉ "/__proxy__".toList := forall_mem_of_all (by decide)
  rcases List.mem_append.1 h with h | h
  · exact hfront c hc h
  · exact hkey c (List.mem_cons_of_mem _ hc) h

theorem keyOrigin_keyPath {km : KeyMap} {key : Str} (hkey : PlainKey key) (hne : key ≠ []) :
    keyOrigin km (keyPath key) = km.get key := by
  have hquery : '?' ∉ keyPath key := keyPath_plain hkey '?' (by simp)
  have hdrop : (keyPath key).dropPrefix? "/__proxy__".toList = some key := by
    rw [List.dropPrefix?_eq_some_iff]
    exact ⟨"/__proxy__".toList, rfl, by decide⟩
  unfold keyOrigin
  simp only [cutAt_of_notMem hquery, hdrop, cutAt_of_notMem (hkey '/' (by simp)), if_neg hne]

theorem leadsTo_of_line {isIp : Str → Bool} {front : Front} {km : KeyMap} {key source : Str}
    {cookie : Option Str} {u path : Str} {req : UpgradeRequest}
    (hline : upgradeLine front (rWs front.location key (baseOrigin source) u) = some path)
    (hparse : parseUpgrade km path (some ("http://".toList ++ front.location)) cookie = .ok req) :
    leadsTo isIp front km key source cookie u = resolveTarget isIp front.port req := by
  rw [leadsTo, hline]
  simp only [resolveUpgrade, hparse]
  cases resolveTarget isIp front.port req with
  | none => rfl
  | some t => rfl

/-- A rewritten URL reaches `resolveTarget` as the page wrote it, with the source
when the script took its host for that of the page. -/
theorem leadsTo_eq (isIp : Str → Bool) (front : Front) (cookie : Option Str) {km : KeyMap}
    {key : Str} {S : Source} {U : WsUrl} (hkey : PlainKey key) (hne : key ≠ [])
    (hreg : km.get key = some S.text) (h : containsText U.text "/__proxy__".toList = false) :
    (Keyed front S U → leadsTo isIp front km key S.text cookie U.text =
      resolveTarget isIp front.port (readBack front cookie (some S.text) U)) ∧
    (¬ Keyed front S U → leadsTo isIp front km key S.text cookie U.text =
      resolveTarget isIp front.port (readBack front cookie none U)) := by
  have hpath := keyPath_plain hkey
  constructor
  · intro hkeyed
    have hline : upgradeLine front (rWs front.location key (baseOrigin S.text) U.text) =
        some (keyPath key ++ '?' :: U.sentParam) := by
      have hhead : (keyPath key).head? = some '/' := rfl
      have hencoded := @upgradeLine_encoded front U _ (.inr hhead) hpath
      have hnonempty : keyPath key ≠ [] := by
        intro hnil
        rw [hnil] at hhead
        cases hhead
      rw [if_neg hnonempty] at hencoded
      rw [rWs_keyed h hkeyed]
      exact hencoded
    rw [leadsTo_of_line hline (parseUpgrade_encoded (hpath '?' (by simp))),
      keyOrigin_keyPath hkey hne, hreg]
  · intro hkeyed
    have hline : upgradeLine front (rWs front.location key (baseOrigin S.text) U.text) =
        some ("/".toList ++ '?' :: U.sentParam) := by
      rw [rWs_bare h hkeyed]
      exact @upgradeLine_encoded front U [] (.inl rfl) (by simp)
    rw [leadsTo_of_line hline (parseUpgrade_encoded (by decide))]
    rfl

end HomeTier.WsCodec
