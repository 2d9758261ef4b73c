import HomeTier.Proxy.Front

/-! # The upstream's answer to an upgrade

After the upgrade request `handle_raw_upgrade` of
`src-tauri/src/proxy/ws_proxy.rs` reads the upstream up to the first blank line,
into a buffer that grows by 4096 bytes (`readHead`). The head is taken for a
101 when `101` stands anywhere in it; it is cut into lines by `str::lines`,
lines of the listed headers are dropped, the others joined by CR LF. What was
read behind the head follows, and then what is copied from the upstream as long
as the client stays.

How many bytes have come when the proxy reads is up to the network (`reads`).
-/

namespace HomeTier.WsRelay

open Lib HttpForward

/-! ## Reading -/

/-- What the upstream does behind its last byte. -/
inductive Ending where
  | pending
  | eof
  | error (e : Str)
deriving DecidableEq

/-- What reading the head comes to. -/
inductive HeadRead where
  | waiting
  | error (message : Str)
  /-- The bytes in the buffer, those not read yet, and the reads still to come. -/
  | read (data stream : Bytes) (reads : List Nat)
deriving DecidableEq

/-- The loop over `upstream.read`: `len` is the length of the buffer, `data` what
is in it, and for each read `n + 1` bytes have come. A read that returns nothing
is the end of the stream. -/
def readHead (ending : Ending) : List Nat → Nat → Bytes → Bytes → HeadRead
  | [], _, _, _ => .waiting
  | n :: reads, len, data, stream =>
    let got := stream.take (min (len - data.length) (n + 1))
    if got = [] then
      match ending with
      | .pending => .waiting
      | .eof => .error "upstream response missing header terminator".toList
      | .error e => .error ("read upstream response failed: ".toList ++ e)
    else
      let data := data ++ got
      let stream := stream.drop got.length
      if (position blankBytes data).isSome then .read data stream reads
      else readHead ending reads (if data.length = len then len + 4096 else len) data stream

/-! ## The head -/

def stripRespHeaders : List Str :=
  ["content-encoding".toList, "content-length".toList, "transfer-encoding".toList, "vary".toList,
    "trailer".toList, "trailers".toList]

/-- A line of one of the listed headers. -/
def isStripped (line : Str) : Bool :=
  stripRespHeaders.any fun h => (h ++ ":".toList).isPrefixOf (toLowercase line)

def filteredHead (resp : Str) : Str :=
  joinLines ((lines resp).filter fun line => !isStripped line)

/-- What the client receives: nothing yet, a 502 with a message, or a head with
frames behind it; `left` are bytes still to be copied. -/
inductive Received where
  | waiting
  | badGateway (message : Str)
  | upgraded (head : Str) (frames left : Bytes)
deriving DecidableEq

/-- What a head is answered with. -/
def answer (head frames left : Bytes) : Received :=
  match fromUtf8 head with
  | none => .badGateway "upstream response header not utf-8".toList
  | some resp =>
    if containsText resp "101".toList then .upgraded (filteredHead resp) frames left
    else
      .badGateway ("upstream rejected upgrade: ".toList ++
        (lines resp).head?.getD "(empty)".toList)

/-- `handle_raw_upgrade` behind the upgrade request. -/
def relay (ending : Ending) (reads : List Nat) (stream : Bytes) : Received :=
  match readHead ending reads 4096 [] stream with
  | .waiting => .waiting
  | .error message => .badGateway message
  | .read data stream reads =>
    match position blankBytes data with
    | none => .badGateway "upstream response missing header terminator".toList
    | some eoh =>
      let (copied, left) := Front.copy (reads.map (· + 1)) stream
      answer (data.take eoh) (data.drop (eoh + 4) ++ copied) left

/-! ## What is meant -/

/-- The status line says 101. -/
def is101 (head : Str) : Bool :=
  match (crlfLines head).head? with
  | none => false
  | some line => "HTTP/".toList.isPrefixOf line && (line.splitOn ' ')[1]? = some "101".toList

/-- The head without the lines of the listed headers. -/
def strippedHead (head : Str) : Str :=
  joinLines ((crlfLines head).filter fun line => !isStripped line)

/-- The client receives what it should, whatever has come so far. -/
def Faithful (ending : Ending) (stream : Bytes) (reads : List Nat) : Prop :=
  match position blankBytes stream with
  | none => relay ending reads stream = .waiting ∨ ∃ m, relay ending reads stream = .badGateway m
  | some eoh =>
    let head := fromUtf8Lossy (stream.take eoh)
    match relay ending reads stream with
    | .waiting => reads.length < eoh + 4
    | .badGateway _ => is101 head = false
    | .upgraded sent frames left =>
      is101 head = true ∧ sent = strippedHead head ∧ frames ++ left = stream.drop (eoh + 4)

/-! ## Reading up to the blank line -/

/-- A read returns at least a byte, unless the stream is at its end, and the loop
goes on as long as there is no blank line in the buffer. -/
theorem readHead_spec (ending : Ending) (reads : List Nat) {len : Nat} {data : Bytes}
    (stream : Bytes) (hfree : data.length < len) (hnone : position blankBytes data = none) :
    match readHead ending reads len data stream with
    | .waiting => ∀ eoh, position blankBytes (data ++ stream) = some eoh →
        reads.length + data.length < eoh + 4
    | .error _ => position blankBytes (data ++ stream) = none
    | .read d s _ => d ++ s = data ++ stream ∧ (position blankBytes d).isSome := by
  induction reads generalizing len data stream with
  | nil =>
    intro eoh heoh
    by_contra hle
    have hfound := position_of_append heoh
      (by simp only [blankBytes, List.length_cons, List.length_nil] at hle ⊢; omega) (by decide)
    rw [hnone] at hfound
    cases hfound
  | cons n reads ih =>
    unfold readHead
    generalize hgot : stream.take (min (len - data.length) (n + 1)) = got
    by_cases hend : got = []
    · -- nothing more comes
      have hstream : stream = [] := by
        rw [hend, List.take_eq_nil_iff] at hgot
        rcases hgot with hgot | hgot
        · omega
        · exact hgot
      have hdata : data ++ stream = data := by rw [hstream, List.append_nil]
      simp only [if_pos hend, hdata]
      cases ending with
      | pending =>
        intro eoh heoh
        rw [hnone] at heoh
        cases heoh
      | eof => exact hnone
      | error e => exact hnone
    · have hsplit : data ++ got ++ stream.drop got.length = data ++ stream := by
        have hlen : got.length = min (min (len - data.length) (n + 1)) stream.length := by
          rw [← hgot, List.length_take]
        have hjoin : got ++ stream.drop got.length = stream := by
          have hdrop : stream.drop got.length =
              stream.drop (min (len - data.length) (n + 1)) := by
            rw [hlen, ← List.drop_eq_drop_min]
          rw [hdrop, ← hgot, List.take_append_drop]
        rw [List.append_assoc, hjoin]
      have hpos : 0 < got.length := List.length_pos_of_ne_nil hend
      have hroom : got.length ≤ len - data.length := by
        rw [← hgot, List.length_take]
        omega
      simp only [if_neg hend]
      by_cases hfound : (position blankBytes (data ++ got)).isSome
      · simp only [hfound, if_true]
        exact ⟨hsplit, trivial⟩
      · have hnone' : position blankBytes (data ++ got) = none := by simpa using hfound
        have hfree' : (data ++ got).length <
            if (data ++ got).length = len then len + 4096 else len := by
          rw [List.length_append]
          split
          · omega
          · omega
        have hrec := ih (stream.drop got.length) hfree' hnone'
        simp only [if_neg hfound]
        rw [hsplit] at hrec
        revert hrec
        cases readHead ending reads (if (data ++ got).length = len then len + 4096 else len)
            (data ++ got) (stream.drop got.length) with
        | waiting =>
          intro hrec eoh heoh
          have := hrec eoh heoh
          simp only [List.length_append, List.length_cons] at this ⊢
          omega
        | error m => exact fun hrec => hrec
        | read d s r => exact fun hrec => hrec

section Relay

variable {ending : Ending} {stream : Bytes} {eoh : Nat}

/-- Without a blank line there is no head. -/
theorem relay_of_none (h : position blankBytes stream = none) (reads : List Nat) :
    relay ending reads stream = .waiting ∨ ∃ m, relay ending reads stream = .badGateway m := by
  have hspec := @readHead_spec ending reads 4096 [] stream (by decide) rfl
  unfold relay
  cases hread : readHead ending reads 4096 [] stream with
  | waiting => exact .inl rfl
  | error m => exact .inr ⟨m, rfl⟩
  | read d s r =>
    rw [hread] at hspec
    rcases hspec with ⟨hjoin, hfound⟩
    rcases Option.isSome_iff_exists.1 hfound with ⟨p, hp⟩
    have hlonger := position_append hp s
    rw [hjoin, List.nil_append, h] at hlonger
    cases hlonger

/-- The head is answered when it has come, and every byte behind it is sent or
still to be copied. -/
theorem relay_of_some (h : position blankBytes stream = some eoh) (reads : List Nat) :
    (relay ending reads stream = .waiting ∧ reads.length < eoh + 4) ∨
      ∃ frames left, frames ++ left = stream.drop (eoh + 4) ∧
        relay ending reads stream = answer (stream.take eoh) frames left := by
  have hspec := @readHead_spec ending reads 4096 [] stream (by decide) rfl
  unfold relay
  cases hread : readHead ending reads 4096 [] stream with
  | waiting =>
    rw [hread] at hspec
    exact .inl ⟨rfl, by simpa using hspec eoh h⟩
  | error m =>
    rw [hread] at hspec
    simp only [List.nil_append, h] at hspec
    cases hspec
  | read d s r =>
    rw [hread] at hspec
    rcases hspec with ⟨hjoin, hfound⟩
    rw [List.nil_append] at hjoin
    rcases Option.isSome_iff_exists.1 hfound with ⟨p, hp⟩
    have hlonger := position_append hp s
    rw [hjoin, h] at hlonger
    obtain rfl : eoh = p := Option.some.inj hlonger
    have hlen := position_le hp
    simp only [blankBytes, List.length_cons, List.length_nil] at hlen
    right
    refine ⟨d.drop (eoh + 4) ++ (Front.copy (r.map (· + 1)) s).1,
      (Front.copy (r.map (· + 1)) s).2, ?_, ?_⟩
    · rw [List.append_assoc, Front.copy_append, ← hjoin, List.drop_append_of_le_length (by omega)]
    · simp only [hp]
      rw [← hjoin, List.take_append_of_le_length (by omega)]

end Relay

/-! ## Lines of the head -/

/-- What `str::lines` makes of a line: listed lines only of a listed one, and of
another one itself. -/
def ReadAs (l : Str) (read : List Str) : Prop :=
  if isStripped l then ∀ r ∈ read, isStripped r = true else read = [l]

/-- `str::lines` reads the lines between CR LF. -/
def CleanLines : List Str → Prop
  | [] => True
  | [l] => ReadAs l (lines l)
  | l :: l' :: ls => ReadAs l (lines (l ++ lineEnd)) ∧ CleanLines (l' :: ls)

theorem lines_append_crlf (l s : Str) :
    lines (l ++ '\r' :: '\n' :: s) = lines (l ++ lineEnd) ++ lines s := by
  have hl : ∀ t : Str, l ++ '\r' :: '\n' :: t = (l ++ ['\r']) ++ '\n' :: t := by simp
  rw [hl, lines_append, show l ++ lineEnd = _ from hl [], lines_append, lines_nil, List.append_nil]

theorem lines_crlf_of_notMem {l : Str} (h : '\n' ∉ l) : lines (l ++ lineEnd) = [l] := by
  have hno : '\n' ∉ l ++ ['\r'] := by simpa using h
  rw [show l ++ lineEnd = (l ++ ['\r']) ++ '\n' :: [] by simp [lineEnd], lines_append,
    List.splitOn_eq_singleton hno]
  simp [stripReturn]

/-- What is not stripped. -/
def keep (ls : List Str) : List Str := ls.filter fun line => !isStripped line

theorem keep_append (ls ls' : List Str) : keep (ls ++ ls') = keep ls ++ keep ls' :=
  List.filter_append ls ls'

theorem keep_singleton {l : Str} (h : isStripped l = false) : keep [l] = [l] := by
  simp [keep, h]

theorem keep_eq_nil {ls : List Str} : keep ls = [] ↔ ∀ l ∈ ls, isStripped l = true := by
  simp [keep]

theorem keep_cons_stripped {l : Str} {ls : List Str} (h : isStripped l = true) :
    keep (l :: ls) = keep ls := by
  simp [keep, h]

theorem keep_cons_kept {l : Str} {ls : List Str} (h : isStripped l = false) :
    keep (l :: ls) = l :: keep ls := by
  simp [keep, h]

/-- The lines read of a head are at least as many as those that it has. -/
theorem length_keep_le {ls : List Str} (hlast : ls.getLast? ≠ some [])
    (hnewline : ∀ l ∈ keep ls, '\n' ∉ l) :
    (keep ls).length ≤ (keep (lines (joinLines ls))).length := by
  induction ls with
  | nil => exact Nat.zero_le _
  | cons l ls ih =>
    cases ls with
    | nil =>
      by_cases hl : isStripped l = true
      · rw [keep_cons_stripped hl]
        exact Nat.zero_le _
      · have hl : isStripped l = false := by simpa using hl
        have hne : l ≠ [] := by simpa using hlast
        have hno := hnewline l (by rw [keep_singleton hl]; exact List.mem_singleton_self l)
        rw [keep_singleton hl, joinLines, lines_of_notMem hne hno, keep_singleton hl]
    | cons l' ls =>
      have hlast' : (l' :: ls).getLast? ≠ some [] := by simpa using hlast
      rw [joinLines, lines_append_crlf, keep_append, List.length_append]
      by_cases hl : isStripped l = true
      · rw [keep_cons_stripped hl] at hnewline ⊢
        have := ih hlast' hnewline
        omega
      · have hl : isStripped l = false := by simpa using hl
        rw [keep_cons_kept hl] at hnewline ⊢
        rw [List.forall_mem_cons] at hnewline
        have := ih hlast' hnewline.2
        rw [lines_crlf_of_notMem hnewline.1, keep_singleton hl]
        simp only [List.length_cons, List.length_nil]
        omega

/-- The same lines are kept exactly when `str::lines` reads the lines of the head. -/
theorem keep_lines_iff {ls : List Str} (hlast : ls.getLast? ≠ some []) :
    keep (lines (joinLines ls)) = keep ls ↔ CleanLines ls := by
  induction ls with
  | nil => simp [joinLines, CleanLines]
  | cons l ls ih =>
    cases ls with
    | nil =>
      rw [joinLines, CleanLines, ReadAs]
      by_cases hl : isStripped l = true
      · rw [keep_cons_stripped hl, if_pos hl]
        exact keep_eq_nil
      · have hl' : isStripped l = false := by simpa using hl
        have hne : l ≠ [] := by simpa using hlast
        rw [keep_singleton hl', if_neg hl]
        constructor
        · intro h
          have hmem : l ∈ keep (lines l) := by rw [h]; exact List.mem_singleton_self l
          have hno := newline_notMem_of_mem_lines (List.mem_of_mem_filter hmem)
          exact lines_of_notMem hne hno
        · intro h
          rw [h, keep_singleton hl']
    | cons l' ls =>
      have hlast' : (l' :: ls).getLast? ≠ some [] := by simpa using hlast
      have ih := ih hlast'
      rw [joinLines, lines_append_crlf, keep_append, CleanLines, ← ih, ReadAs]
      have hlf : ∀ r ∈ keep (lines (l ++ lineEnd)) ++ keep (lines (joinLines (l' :: ls))),
          '\n' ∉ r := by
        intro r hr
        rcases List.mem_append.1 hr with hr | hr
        · exact newline_notMem_of_mem_lines (List.mem_of_mem_filter hr)
        · exact newline_notMem_of_mem_lines (List.mem_of_mem_filter hr)
      by_cases hl : isStripped l = true
      · rw [keep_cons_stripped hl, if_pos hl]
        constructor
        · intro h
          -- as many lines are read as the head has, so none of this one
          rw [h] at hlf
          have hlen := length_keep_le hlast' hlf
          rw [← h, List.length_append] at hlen
          have hnil : keep (lines (l ++ lineEnd)) = [] := List.length_eq_zero_iff.1 (by omega)
          rw [hnil, List.nil_append] at h
          exact ⟨keep_eq_nil.1 hnil, h⟩
        · rintro ⟨hall, h⟩
          rw [keep_eq_nil.2 hall, List.nil_append, h]
      · have hl' : isStripped l = false := by simpa using hl
        rw [keep_cons_kept hl', if_neg hl]
        constructor
        · intro h
          rw [h] at hlf
          have hread := lines_crlf_of_notMem (hlf l List.mem_cons_self)
          rw [hread, keep_singleton hl'] at h
          exact ⟨hread, (List.cons.inj h).2⟩
        · rintro ⟨hread, h⟩
          rw [hread, keep_singleton hl', h, List.singleton_append]

/-! ## Heads that say 101 -/

/-- The first line, and that it starts like a status line. -/
theorem exists_statusLine {head : Str} (h : is101 head = true) :
    ∃ line ls, crlfLines head = line :: ls ∧ (∃ t, line = "HTTP/".toList ++ t) ∧
      (line.splitOn ' ')[1]? = some "101".toList := by
  unfold is101 at h
  cases hlines : crlfLines head with
  | nil => exact absurd hlines (crlfLines_ne_nil head)
  | cons line ls =>
    rw [hlines] at h
    simp only [List.head?_cons, Bool.and_eq_true, decide_eq_true_eq,
      List.isPrefixOf_iff_prefix] at h
    rcases h with ⟨⟨t, ht⟩, hcode⟩
    exact ⟨line, ls, rfl, ⟨t, ht.symm⟩, hcode⟩

/-- A status of 101 is text of the head. -/
theorem containsText_of_is101 {head : Str} (h : is101 head = true) :
    containsText head "101".toList = true := by
  rcases exists_statusLine h with ⟨line, ls, hlines, -, hcode⟩
  have hline : "101".toList <:+: line := infix_of_mem_splitOn (List.mem_of_getElem? hcode)
  have hhead : line <+: head := by
    rw [← joinLines_crlfLines head, hlines]
    cases ls with
    | nil => exact List.prefix_refl line
    | cons l ls => exact ⟨_, rfl⟩
  rcases hline.trans hhead.isInfix with ⟨a, b, hab⟩
  rw [← hab]
  exact containsText_of_append a _ b

theorem statusLine_kept {t : Str} : isStripped ("HTTP/".toList ++ t) = false := by
  rfl

/-- The blank line is the first one, so the head has no empty line at its end. -/
theorem getLast?_crlfLines_ne {stream : Bytes} {eoh : Nat} {head : Str}
    (hposition : position blankBytes stream = some eoh) (hhead : utf8 head = stream.take eoh)
    (h101 : is101 head = true) : (crlfLines head).getLast? ≠ some [] := by
  intro hlast
  rcases exists_statusLine h101 with ⟨line, ls, hlines, ⟨t, rfl⟩, -⟩
  have hend : ∃ text, head = text ++ ['\r', '\n'] := by
    rw [← joinLines_crlfLines head, hlines]
    rw [hlines] at hlast
    rcases List.eq_nil_or_concat' ls with rfl | ⟨init, last, rfl⟩
    · cases hlast
    · rw [← List.cons_append, List.getLast?_concat] at hlast
      rw [Option.some.inj hlast]
      exact joinLines_concat_nil init
  rcases hend with ⟨text, rfl⟩
  -- a blank line begins in front of that empty line
  rcases append_of_position hposition with ⟨rest, hrest⟩
  rw [← hhead, utf8_append] at hrest
  have hearlier := position_append_le (show blankBytes ≠ [] by decide) (utf8 text)
    (crlfBytes ++ rest)
  rw [show utf8 text ++ (blankBytes ++ (crlfBytes ++ rest)) = stream from by
    rw [hrest, List.append_assoc]
    rfl, hposition] at hearlier
  rcases hearlier with ⟨p, hp, hfound⟩
  obtain rfl : eoh = p := Option.some.inj hfound
  have hlen := congrArg List.length hhead
  have hin := position_le hposition
  rw [utf8_append, List.length_append, List.length_take] at hlen
  simp only [show (utf8 ['\r', '\n']).length = 2 from rfl] at hlen
  omega

/-- What is sent is the head without the listed lines exactly when `str::lines`
reads the lines of the head. -/
theorem filteredHead_iff {head : Str} (h101 : is101 head = true)
    (hlast : (crlfLines head).getLast? ≠ some []) :
    filteredHead head = strippedHead head ↔ CleanLines (crlfLines head) := by
  rw [← keep_lines_iff hlast, joinLines_crlfLines]
  show joinLines (keep (lines head)) = joinLines (keep (crlfLines head)) ↔ _
  constructor
  · intro h
    rcases exists_statusLine h101 with ⟨line, ls, hlines, ⟨t, rfl⟩, -⟩
    have hkept : keep (crlfLines head) = ("HTTP/".toList ++ t) :: keep ls := by
      rw [hlines, keep_cons_kept statusLine_kept]
    have hne : keep (lines head) ≠ [] := by
      intro hnil
      rw [hnil, hkept] at h
      cases hrest : keep ls <;> simp [joinLines, hrest] at h
    have hcrlf := congrArg crlfLines h
    rw [crlfLines_joinLines hne, crlfLines_joinLines (by rw [hkept]; simp)] at hcrlf
    · exact hcrlf
    · intro l hl
      exact crlfLines_of_mem (List.mem_of_mem_filter hl)
    · intro l hl
      exact crlfLines_of_notMem (newline_notMem_of_mem_lines (List.mem_of_mem_filter hl))
  · intro h
    rw [h]

/-! ## What the client receives -/

/-- A head that says 101 is UTF-8 and has only line ends of CR LF that matter,
and no other head has the digits 101 in it. -/
def Relayable (stream : Bytes) : Prop :=
  ∀ eoh, position blankBytes stream = some eoh →
    (is101 (fromUtf8Lossy (stream.take eoh)) = true →
      ∃ head, fromUtf8 (stream.take eoh) = some head ∧ CleanLines (crlfLines head)) ∧
    (is101 (fromUtf8Lossy (stream.take eoh)) = false →
      ∀ head, fromUtf8 (stream.take eoh) = some head →
        containsText head "101".toList = false)

/-- The answer to a head is the right one. -/
def Right (head : Bytes) : Received → Prop
  | .waiting => False
  | .badGateway _ => is101 (fromUtf8Lossy head) = false
  | .upgraded sent _ _ =>
    is101 (fromUtf8Lossy head) = true ∧ sent = strippedHead (fromUtf8Lossy head)

theorem answer_iff {stream : Bytes} {eoh : Nat} (hposition : position blankBytes stream = some eoh)
    (frames left : Bytes) :
    Right (stream.take eoh) (answer (stream.take eoh) frames left) ↔
      (is101 (fromUtf8Lossy (stream.take eoh)) = true →
        ∃ head, fromUtf8 (stream.take eoh) = some head ∧ CleanLines (crlfLines head)) ∧
      (is101 (fromUtf8Lossy (stream.take eoh)) = false →
        ∀ head, fromUtf8 (stream.take eoh) = some head →
          containsText head "101".toList = false) := by
  unfold answer
  cases hutf8 : fromUtf8 (stream.take eoh) with
  | none => simp [Right]
  | some head =>
    have hbytes := fromUtf8_eq_some.1 hutf8
    have hlossy : fromUtf8Lossy (stream.take eoh) = head := by
      rw [← hbytes, fromUtf8Lossy_utf8]
    have hclean : is101 head = true →
        (filteredHead head = strippedHead head ↔ CleanLines (crlfLines head)) := fun h101 =>
      filteredHead_iff h101 (getLast?_crlfLines_ne hposition hbytes h101)
    rw [hlossy]
    simp only [Option.some.injEq, exists_eq_left', forall_eq']
    by_cases hcontains : containsText head "101".toList = true
    · rw [if_pos hcontains, Right, hlossy, hcontains]
      cases h101 : is101 head with
      | true => simpa using hclean h101
      | false => simp
    · rw [if_neg hcontains, Right, hlossy]
      have hno : is101 head = false := by
        by_contra h101
        exact hcontains (containsText_of_is101 (by simpa using h101))
      simpa [hno] using hcontains

theorem answer_cases (head frames left : Bytes) :
    (∃ m, answer head frames left = .badGateway m) ∨
      ∃ sent, answer head frames left = .upgraded sent frames left := by
  unfold answer
  split
  · exact .inl ⟨_, rfl⟩
  · split
    · exact .inr ⟨_, rfl⟩
    · exact .inl ⟨_, rfl⟩

/-- When the head has come, what counts is the answer. -/
theorem faithful_of_answer {ending : Ending} {stream : Bytes} {reads : List Nat} {eoh : Nat}
    {frames left : Bytes} (hposition : position blankBytes stream = some eoh)
    (hjoin : frames ++ left = stream.drop (eoh + 4))
    (hrelay : relay ending reads stream = answer (stream.take eoh) frames left) :
    Faithful ending stream reads ↔
      Right (stream.take eoh) (answer (stream.take eoh) frames left) := by
  simp only [Faithful, hposition, hrelay]
  rcases answer_cases (stream.take eoh) frames left with ⟨m, hm⟩ | ⟨sent, hsent⟩
  · rw [hm, Right]
  · simp only [hsent, Right, hjoin, and_true]

/-- Who is upgraded is so by a status of 101. -/
theorem is101_of_faithful {ending : Ending} {stream : Bytes} {reads : List Nat} {eoh : Nat}
    {sent : Str} {frames left : Bytes} (h : Faithful ending stream reads)
    (hposition : position blankBytes stream = some eoh)
    (hrelay : relay ending reads stream = .upgraded sent frames left) :
    is101 (fromUtf8Lossy (stream.take eoh)) = true := by
  simp only [Faithful, hposition, hrelay] at h
  exact h.1

/-- A refusal with the digits 101 in a header. -/
def refusedHead : Str := "HTTP/1.1 403 Forbidden\r\nX-Id: 101".toList

def refusal : Bytes := utf8 refusedHead ++ blankBytes

theorem position_refusal : position blankBytes refusal = some 33 := by decide

theorem relay_refusal : relay .eof [100] refusal = .upgraded refusedHead [] [] := by
  decide

theorem is101_refusal : is101 (fromUtf8Lossy (refusal.take 33)) = false := by decide

end HomeTier.WsRelay
