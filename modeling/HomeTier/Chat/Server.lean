import HomeTier.Lib.Utf8
import HomeTier.EasyTier.Manager

/-! # Chat server

`handle_connection` of `src-tauri/src/chat/server.rs` reads once from the socket
into a buffer of 8192 bytes, takes what follows the first blank line as the body
and enqueues it when it is a message. It answers 200 whenever it has read
something.

Reading and writing messages is left to `serde_json` and given by a `ChatCodec`.
What is relied on for one message is `ChatCodec.Reads`: its text is an object
without surrounding blanks, is read back, and is refused when it is cut.
-/

namespace HomeTier

open Lib

structure ChatMessage where
  id : Uuid
  spaceId : Uuid
  senderId : Uuid
  senderName : Str
  msgType : Str
  content : Str
  /-- The instant of a `DateTime<Local>`, in nanoseconds of Unix time. -/
  timestamp : Int
  signature : Option Str
deriving DecidableEq

/-- `serde_json::to_string` and `serde_json::from_str` for `ChatMessage`. -/
structure ChatCodec where
  toString : ChatMessage → Except Str Str
  fromStr : Str → Option ChatMessage

/-- `body` is how `codec` writes `m`, and it reads `m` from it only as a whole. -/
structure ChatCodec.Reads (codec : ChatCodec) (m : ChatMessage) (body : Str) : Prop where
  written : codec.toString m = .ok body
  object : ∃ fields, body = '{' :: (fields ++ ['}'])
  read : codec.fromStr body = some m
  /-- A cut object is not closed, whatever became of the character at the cut. -/
  cut : ∀ t, t <+: body → t ≠ body →
    codec.fromStr t = none ∧ codec.fromStr (t ++ [replacementChar]) = none

/-! ## The request -/

def crlf : Str := ['\r', '\n']

def blankLine : Str := ['\r', '\n', '\r', '\n']

/-- Request line and headers, as an HTTP client writes them. -/
structure RequestHead where
  lines : List Str
  lines_ne_nil : lines ≠ []
  line_ne_nil : ∀ l ∈ lines, l ≠ []
  notMem_line : ∀ l ∈ lines, '\r' ∉ l

def RequestHead.text (head : RequestHead) : Str :=
  (head.lines.flatMap fun l => l ++ crlf) ++ crlf

def RequestHead.request (head : RequestHead) (body : Str) : Bytes := utf8 (head.text ++ body)

/-! ## The server -/

/-- `let mut buffer = [0u8; 8192]` -/
def bufferSize : Nat := 8192

def okResponse : Str := "HTTP/1.1 200 OK\r\nContent-Length: 2\r\n\r\nOK".toList

/-- The body of what was read, when it has one. -/
def requestBody (bytes : Bytes) : Option Str :=
  (splitOnce blankLine (fromUtf8Lossy bytes)).map (·.2)

/-- `received` is what the socket holds when it is read, empty when the
connection is closed or broken. Returns the answer and the queue. -/
def handleConnection (codec : ChatCodec) (received : Bytes) (queue : List ChatMessage) :
    Option Str × List ChatMessage :=
  let bytes := received.take bufferSize
  if bytes = [] then (none, queue)
  else
    match requestBody bytes with
    | none => (some okResponse, queue)
    | some body =>
      match codec.fromStr (trim body) with
      | none => (some okResponse, queue)
      | some msg => (some okResponse, queue ++ [msg])

variable {received : Bytes}

theorem take_bufferSize_ne_nil (h : received ≠ []) : received.take bufferSize ≠ [] := by
  cases received with
  | nil => exact absurd rfl h
  | cons b rest => simp [bufferSize]

variable {codec : ChatCodec}

theorem handleConnection_fst (h : received ≠ []) (queue : List ChatMessage) :
    (handleConnection codec received queue).1 = some okResponse := by
  simp only [handleConnection, if_neg (take_bufferSize_ne_nil h)]
  split
  · rfl
  · split <;> rfl

theorem ne_nil_of_answered {queue : List ChatMessage}
    {answer : Str} (h : (handleConnection codec received queue).1 = some answer) :
    received ≠ [] := by
  rintro rfl
  cases h

/-! ## Where the body starts -/

/-- Text without the first character of the separator is passed over. -/
theorem splitOnce_notMem_append {c : Char} {sep s : Str} (h : c ∉ s) (t : Str) :
    splitOnce (c :: sep) (s ++ t) = (splitOnce (c :: sep) t).map fun r => (s ++ r.1, r.2) := by
  induction s with
  | nil => simp
  | cons a s ih =>
    rw [List.mem_cons, not_or] at h
    have hd : (a :: (s ++ t)).dropPrefix? (c :: sep) = none := by
      simp [List.dropPrefix?, Ne.symm h.1]
    simp only [List.cons_append, splitOnce, hd, ih h.2, Option.map_map]
    rfl

/-- `split_once` cuts at the first occurrence. -/
theorem splitOnce_first {sep : Str} (hsep : sep ≠ []) (a b : Str) :
    ∃ a' b', splitOnce sep (a ++ sep ++ b) = some (a', b') ∧ a'.length ≤ a.length := by
  induction a with
  | nil =>
    obtain ⟨c, sep, rfl⟩ := List.exists_cons_of_ne_nil hsep
    have hd : (c :: (sep ++ b)).dropPrefix? (c :: sep) = some b := by
      rw [List.dropPrefix?_eq_some_iff]
      exact ⟨c :: sep, by simp, by simp⟩
    exact ⟨[], b, by simp only [List.nil_append, List.cons_append, splitOnce, hd], le_rfl⟩
  | cons x a ih =>
    rcases ih with ⟨a', b', hsplit, hlen⟩
    simp only [List.cons_append, splitOnce]
    split
    · exact ⟨[], _, rfl, Nat.zero_le _⟩
    · rw [hsplit]
      exact ⟨x :: a', b', rfl, Nat.succ_le_succ hlen⟩

/-- One line break before a line is passed over. -/
theorem splitOnce_crlf_cons {c : Char} (hc : c ≠ '\r') (t : Str) :
    splitOnce blankLine (crlf ++ c :: t) =
      (splitOnce blankLine (c :: t)).map fun r => (crlf ++ r.1, r.2) := by
  have h1 : ('\r' :: '\n' :: c :: t).dropPrefix? blankLine = none := by
    simp [List.dropPrefix?, blankLine, hc]
  have h2 : ('\n' :: c :: t).dropPrefix? blankLine = none := by
    simp [List.dropPrefix?, blankLine]
  show splitOnce blankLine ('\r' :: '\n' :: c :: t) = _
  rw [splitOnce, h1, splitOnce, h2, Option.map_map]
  rfl

theorem splitOnce_lines {lines : List Str} (hne : lines ≠ []) (hline : ∀ l ∈ lines, l ≠ [])
    (hcr : ∀ l ∈ lines, '\r' ∉ l) (body : Str) :
    ∃ before, splitOnce blankLine ((lines.flatMap fun l => l ++ crlf) ++ (crlf ++ body)) =
      some (before, body) := by
  induction lines with
  | nil => exact absurd rfl hne
  | cons l lines ih =>
    have hl : '\r' ∉ l := hcr l List.mem_cons_self
    rw [List.flatMap_cons, List.append_assoc, List.append_assoc]
    cases lines with
    | nil =>
      -- the last line: the blank line follows
      have hsplit : splitOnce blankLine (l ++ blankLine ++ body) = some (l, body) :=
        splitOnce_append hl body
      rw [List.append_assoc] at hsplit
      exact ⟨l, hsplit⟩
    | cons l' lines =>
      rcases ih (by simp) (fun x hx => hline x (List.mem_cons_of_mem _ hx))
        (fun x hx => hcr x (List.mem_cons_of_mem _ hx)) with ⟨before, hbefore⟩
      -- the next line starts with a character of its own
      have hstart : ∃ c t, c ≠ '\r' ∧
          ((l' :: lines).flatMap fun l => l ++ crlf) ++ (crlf ++ body) = c :: t := by
        obtain ⟨c, l'', rfl⟩ := List.exists_cons_of_ne_nil (hline l' (by simp))
        refine ⟨c, _, ?_, rfl⟩
        rintro rfl
        exact hcr _ (List.mem_cons_of_mem _ List.mem_cons_self) List.mem_cons_self
      rcases hstart with ⟨c, t, hc, hstart⟩
      rw [hstart] at hbefore ⊢
      refine ⟨l ++ (crlf ++ before), ?_⟩
      have hpass := splitOnce_crlf_cons hc t
      rw [hbefore] at hpass
      rw [blankLine, splitOnce_notMem_append hl, ← blankLine, hpass]
      rfl

theorem RequestHead.splitOnce_text (head : RequestHead) (body : Str) :
    ∃ before, splitOnce blankLine (head.text ++ body) = some (before, body) := by
  rw [RequestHead.text, List.append_assoc]
  exact splitOnce_lines head.lines_ne_nil head.line_ne_nil head.notMem_line body

/-- A head that is cut has no blank line yet. -/
theorem RequestHead.splitOnce_cut (head : RequestHead) {t rest : Str} (ht : t <+: head.text)
    (hcut : t ≠ head.text) (hrest : '\n' ∉ rest) : splitOnce blankLine (t ++ rest) = none := by
  cases hsplit : splitOnce blankLine (t ++ rest) with
  | none => rfl
  | some r =>
    exfalso
    have heq : t ++ rest = r.1 ++ blankLine ++ r.2 := splitOnce_eq_some hsplit
    -- the blank line ends before `rest`
    have hin : ∃ b, t = r.1 ++ blankLine ++ b := by
      rcases List.append_eq_append_iff.1 heq with ⟨u, hu, hrest'⟩ | ⟨u, hu, -⟩
      · rcases List.eq_nil_or_concat u with rfl | ⟨u', x, rfl⟩
        · exact ⟨[], by simpa using hu.symm⟩
        · have hlast := congrArg List.getLast? hu
          obtain rfl : '\n' = x := by simpa [blankLine] using hlast
          rw [hrest'] at hrest
          exact absurd (by simp) hrest
      · exact ⟨u, hu⟩
    rcases hin with ⟨b, hb⟩
    rcases ht with ⟨more, hmore⟩
    -- the first blank line of the head is its end
    rcases head.splitOnce_text [] with ⟨before, hbefore⟩
    have hend : (head.text ++ []).length = before.length + 4 := by
      rw [splitOnce_eq_some hbefore]
      simp [blankLine]
    have hfirst : ∃ a' b', splitOnce blankLine (head.text ++ []) = some (a', b') ∧
        a'.length ≤ r.1.length := by
      have hpos : head.text ++ [] = r.1 ++ blankLine ++ (b ++ more) := by
        rw [← hmore, hb]
        simp
      rw [hpos]
      exact splitOnce_first (by simp [blankLine]) r.1 (b ++ more)
    rcases hfirst with ⟨a', b', hfirst, hle⟩
    rw [hbefore] at hfirst
    obtain ⟨rfl, -⟩ := Prod.mk.inj (Option.some.inj hfirst)
    have hlen : t.length < head.text.length := by
      rw [← hmore, List.length_append]
      have hne : more ≠ [] := by
        rintro rfl
        exact hcut (by simpa using hmore)
      have := List.length_pos_of_ne_nil hne
      omega
    rw [hb] at hlen
    simp [blankLine] at hlen hend
    omega

/-! ## Whole and cut requests -/

variable {m : ChatMessage} {body : Str}

theorem trim_body (h : codec.Reads m body) : trim body = body := by
  rcases h.object with ⟨fields, rfl⟩
  have hopen : isWhitespace '{' = false := by decide
  have hclose : isWhitespace '}' = false := by decide
  rw [trim, List.dropWhile_cons_of_neg (by simp [hopen]), ← List.cons_append,
    List.rdropWhile_concat_neg _ _ _ (by simp [hclose])]

/-- What is left of a cut body is refused. -/
theorem fromStr_trim_cut (h : codec.Reads m body) {t : Str} (ht : t <+: body) (hcut : t ≠ body) :
    codec.fromStr (trim t) = none ∧ codec.fromStr (trim (t ++ [replacementChar])) = none := by
  have hopen : isWhitespace '{' = false := by decide
  have hrepl : isWhitespace replacementChar = false := by decide
  -- a cut body is empty or starts with the brace: no blanks in front
  have hstart : (t ++ [replacementChar]).dropWhile isWhitespace = t ++ [replacementChar] ∧
      t.dropWhile isWhitespace = t := by
    rcases h.object with ⟨fields, rfl⟩
    cases t with
    | nil => simp [hrepl]
    | cons c t =>
      obtain rfl : c = '{' := (List.cons_prefix_cons.1 ht).1
      simp [hopen]
  constructor
  · -- blanks at the end make the cut body shorter still
    have hpre : trim t <+: t := by
      rw [trim, hstart.2]
      exact List.rdropWhile_prefix _ _
    have hne : trim t ≠ body := by
      intro heq
      exact hcut (ht.eq_of_length_le (heq ▸ hpre.length_le))
    exact (h.cut _ (hpre.trans ht) hne).1
  · have hself : trim (t ++ [replacementChar]) = t ++ [replacementChar] := by
      rw [trim, hstart.1, List.rdropWhile_concat_neg _ _ _ (by simp [hrepl])]
    rw [hself]
    exact (h.cut t ht hcut).2

theorem RequestHead.requestBody_request (head : RequestHead) (body : Str) :
    requestBody (head.request body) = some body := by
  rcases head.splitOnce_text body with ⟨before, hsplit⟩
  rw [requestBody, RequestHead.request, fromUtf8Lossy_utf8, hsplit]
  rfl

/-- A request that fits the buffer and is there as a whole. -/
theorem handleConnection_request (head : RequestHead) (hread : codec.fromStr (trim body) = some m)
    (hlen : (head.request body).length ≤ bufferSize) (queue : List ChatMessage) :
    handleConnection codec (head.request body) queue = (some okResponse, queue ++ [m]) := by
  have hbody := head.requestBody_request body
  have hne : head.request body ≠ [] := by
    intro hnil
    rw [hnil] at hbody
    simp [requestBody, splitOnce, blankLine] at hbody
  simp only [handleConnection, List.take_of_length_le hlen, if_neg hne, hbody, hread]

theorem handleConnection_whole (h : codec.Reads m body) (head : RequestHead)
    (hlen : (head.request body).length ≤ bufferSize) (queue : List ChatMessage) :
    handleConnection codec (head.request body) queue = (some okResponse, queue ++ [m]) := by
  apply handleConnection_request head _ hlen
  rw [trim_body h]
  exact h.read

/-- A cut request is answered and nothing is enqueued. -/
theorem handleConnection_cut (h : codec.Reads m body) (head : RequestHead) (hne : received ≠ [])
    (hpre : received.take bufferSize <+: head.request body)
    (hcut : received.take bufferSize ≠ head.request body) (queue : List ChatMessage) :
    handleConnection codec received queue = (some okResponse, queue) := by
  have hnone : ∀ b, requestBody (received.take bufferSize) = some b →
      codec.fromStr (trim b) = none := by
    intro b hb
    rcases Option.map_eq_some_iff.1 hb with ⟨⟨a, b⟩, hsplit, rfl⟩
    rcases fromUtf8Lossy_of_prefix hpre hcut with ⟨t, ht, htne, hread⟩
    by_cases hhead : head.text <+: t
    · -- the cut is in the body
      rcases hhead with ⟨u, rfl⟩
      have hu : u <+: body := (List.prefix_append_right_inj _).1 ht
      have hune : u ≠ body := by
        rintro rfl
        exact htne rfl
      rcases hread with hread | hread
      · rcases head.splitOnce_text u with ⟨before, hbefore⟩
        rw [hread, hbefore] at hsplit
        obtain ⟨-, rfl⟩ := Prod.mk.inj (Option.some.inj hsplit)
        exact (fromStr_trim_cut h hu hune).1
      · rcases head.splitOnce_text (u ++ [replacementChar]) with ⟨before, hbefore⟩
        rw [hread, List.append_assoc, hbefore] at hsplit
        obtain ⟨-, rfl⟩ := Prod.mk.inj (Option.some.inj hsplit)
        exact (fromStr_trim_cut h hu hune).2
    · -- the cut is in the head, and no body is found
      have hpre' : t <+: head.text := by
        rcases List.prefix_or_prefix_of_prefix ht (List.prefix_append _ body) with hp | hp
        · exact hp
        · exact absurd hp hhead
      have hne' : t ≠ head.text := by
        rintro rfl
        exact hhead (List.prefix_refl _)
      rcases hread with hread | hread
      · have hno : splitOnce blankLine (t ++ []) = none :=
          head.splitOnce_cut hpre' hne' (by simp)
        rw [List.append_nil] at hno
        rw [hread, hno] at hsplit
        cases hsplit
      · have hno : splitOnce blankLine (t ++ [replacementChar]) = none :=
          head.splitOnce_cut hpre' hne' (by decide)
        rw [hread, hno] at hsplit
        cases hsplit
  simp only [handleConnection, if_neg (take_bufferSize_ne_nil hne)]
  split
  · rfl
  · rename_i b hb
    rw [hnone b hb]

end HomeTier
