import HomeTier.Lib.JsonText
import HomeTier.Lib.Uuid
import HomeTier.Chat.Server
import HomeTier.Server.Auth

/-! # Signed chat messages

`sign` and `verify` of `src-tauri/src/chat/message.rs` compute an HMAC over the
id, the sender's id, the content and the timestamp as it is displayed, one
behind the other. A message travels as JSON, with the timestamp in RFC 3339;
the receiver keeps the instant and shows it in its own time zone.

So a message verifies at the receiver exactly when the zones agree about the
instant (`verifies_iff_same_offset`), and a signature tells two messages apart
exactly when the unsigned fields do not differ and no content reaches into the
timestamp (`bound_iff`).

Reading and writing dates is left to `chrono` and given by a `ChatChrono`.
-/

namespace HomeTier

open Lib

/-- The offset of local time in seconds, at an instant. -/
abbrev Zone := Int → Int

/-- An offset as RFC 3339 writes it: rounded to whole minutes, half up in size. -/
def wholeMinutes (o : Int) : Int := if 0 ≤ o then (o + 30) / 60 * 60 else -((-o + 30) / 60 * 60)

/-- What an instant becomes whose offset is written in whole minutes. -/
def shifted (t o : Int) : Int := t + (o - wholeMinutes o) * 10 ^ 9

/-- `chrono` on an instant, in nanoseconds, and an offset. -/
structure ChatChrono where
  /-- `Display` of `DateTime<Local>` -/
  display : Int → Int → Str
  /-- How `serde` writes a `DateTime<Local>`. -/
  toRfc3339 : Int → Int → Str
  /-- The instant that is read. -/
  fromRfc3339 : Str → Option Int
  /-- The date, the time and the offset are shown in full. -/
  display_inj : ∀ t o t' o', display t o = display t' o' → t = t' ∧ o = o'
  fromRfc3339_to : ∀ t o, fromRfc3339 (toRfc3339 t o) = some (shifted t o)

theorem shifted_eq_self {t o : Int} : shifted t o = t ↔ o % 60 = 0 := by
  unfold shifted wholeMinutes
  split <;> omega

namespace ChatMessage

/-! ## JSON -/

section Json

variable (C : ChatChrono)

/-- The fields in the order of the record. -/
def fields (zone : Zone) (m : ChatMessage) : List (Str × Json) :=
  [("id".toList, .str (uuidText m.id)),
   ("space_id".toList, .str (uuidText m.spaceId)),
   ("sender_id".toList, .str (uuidText m.senderId)),
   ("sender_name".toList, .str m.senderName),
   ("msg_type".toList, .str m.msgType),
   ("content".toList, .str m.content),
   ("timestamp".toList, .str (C.toRfc3339 m.timestamp (zone m.timestamp))),
   ("signature".toList, match m.signature with | some s => .str s | none => .null)]

/-- `Serialize` -/
def toJson (zone : Zone) (m : ChatMessage) : Json := .obj (insertEntries (m.fields C zone) [])

/-- `Option<String>`, where an absent field is `None`. -/
def readSignature : Option Json → Option (Option Str)
  | none => some none
  | some .null => some none
  | some v => v.asStr.map some

/-- `Deserialize` from the fields of an object. -/
def ofFields (get : Str → Option Json) : Option ChatMessage := do
  let id ← (get "id".toList).bind Json.asStr |>.bind parseUuid
  let spaceId ← (get "space_id".toList).bind Json.asStr |>.bind parseUuid
  let senderId ← (get "sender_id".toList).bind Json.asStr |>.bind parseUuid
  let senderName ← (get "sender_name".toList).bind Json.asStr
  let msgType ← (get "msg_type".toList).bind Json.asStr
  let content ← (get "content".toList).bind Json.asStr
  let timestamp ← (get "timestamp".toList).bind Json.asStr |>.bind C.fromRfc3339
  let signature ← readSignature (get "signature".toList)
  return { id, spaceId, senderId, senderName, msgType, content, timestamp, signature }

/-- `Deserialize`; an array is read as the fields in order. -/
def ofJson : Json → Option ChatMessage
  | .obj kvs => ofFields C fun key => kvs.lookup key
  | .arr [i, sp, se, n, ty, c, ts, sig] =>
    ofFields C fun key =>
      [("id".toList, i), ("space_id".toList, sp), ("sender_id".toList, se),
        ("sender_name".toList, n), ("msg_type".toList, ty), ("content".toList, c),
        ("timestamp".toList, ts), ("signature".toList, sig)].lookup key
  | _ => none

theorem nodup_fields (zone : Zone) (m : ChatMessage) : ((m.fields C zone).map (·.1)).Nodup := by
  show ["id".toList, "space_id".toList, "sender_id".toList, "sender_name".toList,
    "msg_type".toList, "content".toList, "timestamp".toList, "signature".toList].Nodup
  decide

theorem valid_toJson (zone : Zone) (m : ChatMessage) :
    (m.toJson C zone).Valid Json.nestingLimit := by
  apply Json.valid_insertEntries
  · intro e he
    simp only [fields, List.mem_cons, List.not_mem_nil, or_false] at he
    rcases he with rfl | rfl | rfl | rfl | rfl | rfl | rfl | rfl
    case inr.inr.inr.inr.inr.inr.inr =>
      cases m.signature with
      | none => exact .null
      | some s => exact .str s
    all_goals exact .str _
  · exact .obj sorted_nil (by simp)

/-- A message comes back with the instant that its timestamp denotes. -/
theorem ofJson_toJson (zone : Zone) (m : ChatMessage) :
    ofJson C (m.toJson C zone) =
      some { m with timestamp := shifted m.timestamp (zone m.timestamp) } := by
  have hget : ∀ key v, (key, v) ∈ m.fields C zone →
      (insertEntries (m.fields C zone) []).lookup key = some v := by
    intro key v hmem
    exact lookup_insertEntries_nil (m.nodup_fields C zone) hmem
  have hid := hget "id".toList _ (.head _)
  have hspace := hget "space_id".toList _ (.tail _ (.head _))
  have hsender := hget "sender_id".toList _ (.tail _ (.tail _ (.head _)))
  have hname := hget "sender_name".toList _ (.tail _ (.tail _ (.tail _ (.head _))))
  have htype := hget "msg_type".toList _ (.tail _ (.tail _ (.tail _ (.tail _ (.head _)))))
  have hcontent := hget "content".toList _
    (.tail _ (.tail _ (.tail _ (.tail _ (.tail _ (.head _))))))
  have htime := hget "timestamp".toList _
    (.tail _ (.tail _ (.tail _ (.tail _ (.tail _ (.tail _ (.head _)))))))
  have hsig := hget "signature".toList _
    (.tail _ (.tail _ (.tail _ (.tail _ (.tail _ (.tail _ (.tail _ (.head _))))))))
  have hread : readSignature (some (match m.signature with
      | some s => Json.str s | none => .null)) = some m.signature := by
    cases m.signature with
    | none => rfl
    | some s => rfl
  simp only [toJson, ofJson, ofFields, hid, hspace, hsender, hname, htype, hcontent, htime, hsig,
    Option.bind_some, Json.asStr, parseUuid_uuidText, C.fromRfc3339_to, hread,
    Option.bind_eq_bind, Option.pure_def]

end Json

/-! ## Signatures -/

section Sign

variable (P : Primitives) (C : ChatChrono)

/-- `format!("{}{}{}{}", id, sender_id, content, timestamp)` -/
def signedText (zone : Zone) (m : ChatMessage) : Str :=
  uuidText m.id ++ uuidText m.senderId ++ m.content ++ C.display m.timestamp (zone m.timestamp)

def sign (zone : Zone) (secret : Str) (m : ChatMessage) : ChatMessage :=
  { m with signature := some (hmacSha256 P secret (utf8 (m.signedText C zone))) }

/-- `crypto::verify_hmac` -/
def verifyHmac (secret : Str) (data : Bytes) (signature : Str) : Bool :=
  hmacSha256 P secret data == signature

def verify (zone : Zone) (secret : Str) (m : ChatMessage) : Bool :=
  match m.signature with
  | some sig => verifyHmac P secret (utf8 (m.signedText C zone)) sig
  | none => false

theorem hmacSha256_inj {P : Primitives} {secret : Str} {a b : Bytes} :
    hmacSha256 P secret a = hmacSha256 P secret b ↔
      P.hmac (utf8 secret) a = P.hmac (utf8 secret) b := by
  constructor
  · intro h
    have hdecode := congrArg hexDecode h
    simpa [hmacSha256] using hdecode
  · intro h
    rw [hmacSha256, hmacSha256, h]

theorem verify_eq_true {P : Primitives} {C : ChatChrono} {zone : Zone} {secret : Str}
    {m : ChatMessage} :
    m.verify P C zone secret = true ↔
      m.signature = some (hmacSha256 P secret (utf8 (m.signedText C zone))) := by
  unfold verify verifyHmac
  cases m.signature with
  | none => simp
  | some sig =>
    show (_ == sig) = true ↔ some sig = some _
    rw [beq_iff_eq, Option.some.injEq]
    exact eq_comm

/-- A message verifies where it was signed. -/
theorem verify_sign (zone : Zone) (secret : Str) (m : ChatMessage) :
    (m.sign P C zone secret).verify P C zone secret = true :=
  verify_eq_true.2 rfl

/-- The texts of one message at two times and places are the same only there. -/
theorem signedText_eq_iff {C : ChatChrono} {zone zone' : Zone} {m : ChatMessage} {t : Int} :
    ({ m with timestamp := t } : ChatMessage).signedText C zone' = m.signedText C zone ↔
      t = m.timestamp ∧ zone' t = zone m.timestamp := by
  constructor
  · intro h
    have hdisplay : C.display t (zone' t) = C.display m.timestamp (zone m.timestamp) :=
      List.append_cancel_left h
    exact C.display_inj _ _ _ _ hdisplay
  · rintro ⟨rfl, h⟩
    rw [signedText, h]
    rfl

/-! ## Transport -/

/-- The message as the receiver reads it: `to_string`, then `from_str`. -/
def transported (J : JsonText) (zone : Zone) (m : ChatMessage) : Option ChatMessage :=
  (J.parse (J.print (m.toJson C zone))).bind (ofJson C)

theorem transported_eq (J : JsonText) (zone : Zone) (m : ChatMessage) :
    m.transported C J zone =
      some { m with timestamp := shifted m.timestamp (zone m.timestamp) } := by
  rw [transported, J.parse_print _ (m.valid_toJson C zone), Option.bind_some, m.ofJson_toJson]

/-- Two different texts with one HMAC. -/
def Collide (secret a b : Str) : Prop :=
  a ≠ b ∧ P.hmac (utf8 secret) (utf8 a) = P.hmac (utf8 secret) (utf8 b)

/-- The message that was signed is verified by its receiver. -/
def Survives (J : JsonText) (sender receiver : Zone) (secret : Str) (m : ChatMessage) : Prop :=
  ∃ r, (m.sign P C sender secret).transported C J sender = some r ∧
    r.verify P C receiver secret = true

/-- Sender and receiver show the timestamp alike: RFC 3339 keeps the sender's
offset, and the receiver's offset is the same. -/
def SameOffset (sender receiver : Zone) (t : Int) : Prop :=
  sender t % 60 = 0 ∧ receiver t = sender t

/-- Verification compares the MACs of the text at the sender and at the receiver. -/
theorem survives_iff {J : JsonText} {sender receiver : Zone} {secret : Str} {m : ChatMessage} :
    m.Survives P C J sender receiver secret ↔
      P.hmac (utf8 secret) (utf8 (signedText C receiver
        { m with timestamp := shifted m.timestamp (sender m.timestamp) })) =
      P.hmac (utf8 secret) (utf8 (m.signedText C sender)) := by
  rw [Survives, transported_eq]
  constructor
  · rintro ⟨r, hr, hok⟩
    obtain rfl := Option.some.inj hr
    rw [verify_eq_true] at hok
    exact (hmacSha256_inj.1 (Option.some.inj hok)).symm
  · intro h
    refine ⟨_, rfl, ?_⟩
    rw [verify_eq_true]
    exact congrArg some (hmacSha256_inj.2 h.symm)

theorem sameOffset_iff {sender receiver : Zone} {m : ChatMessage} :
    SameOffset sender receiver m.timestamp ↔
      signedText C receiver { m with timestamp := shifted m.timestamp (sender m.timestamp) } =
        m.signedText C sender := by
  rw [signedText_eq_iff, shifted_eq_self, SameOffset]
  constructor
  · rintro ⟨hwhole, hsame⟩
    rw [shifted_eq_self.2 hwhole]
    exact ⟨hwhole, hsame⟩
  · rintro ⟨hwhole, hsame⟩
    rw [shifted_eq_self.2 hwhole] at hsame
    exact ⟨hwhole, hsame⟩

end Sign

/-! ## One message in two places -/

/-- Midnight of 1 May 2024, UTC. -/
def mayDay : Int := 1714521600 * 10 ^ 9

def shanghai : Zone := fun _ => 28800

def greenwich : Zone := fun _ => 0

/-- An instant and an offset, written as numbers. -/
def plainTime (t o : Int) : Str := '@' :: (decimalInt t ++ ' ' :: decimalInt o)

def readPlainTime (s : Str) : Option Int :=
  match cutAt ' ' s.tail with
  | (t, some o) => do
    let t ← Json.readInt t
    let o ← Json.readInt o
    return shifted t o
  | (_, none) => none

/-- `chrono` on midnight of 1 May 2024 in the two zones, and plain numbers elsewhere. -/
def recordedDisplay (t o : Int) : Str :=
  if t = mayDay ∧ o = 28800 then "2024-05-01 08:00:00 +08:00".toList
  else if t = mayDay ∧ o = 0 then "2024-05-01 00:00:00 +00:00".toList
  else plainTime t o

def recordedRfc3339 (t o : Int) : Str :=
  if t = mayDay ∧ o = 28800 then "2024-05-01T08:00:00+08:00".toList
  else if t = mayDay ∧ o = 0 then "2024-05-01T00:00:00Z".toList
  else plainTime t o

def readRecorded (s : Str) : Option Int :=
  if s = "2024-05-01T08:00:00+08:00".toList ∨ s = "2024-05-01T00:00:00Z".toList then some mayDay
  else readPlainTime s

theorem blank_notMem_decimalInt (n : Int) : ' ' ∉ decimalInt n := by
  intro h
  exact absurd (Json.isNumberChar_of_mem_decimalInt h) (by decide)

theorem plainTime_inj {t o t' o' : Int} (h : plainTime t o = plainTime t' o') :
    t = t' ∧ o = o' := by
  have hcut := congrArg (cutAt ' ') (List.cons.inj h).2
  rw [cutAt_append (blank_notMem_decimalInt t), cutAt_append (blank_notMem_decimalInt t')] at hcut
  obtain ⟨ht, ho⟩ := Prod.mk.inj hcut
  have ht := congrArg Json.readInt ht
  have ho := congrArg Json.readInt (Option.some.inj ho)
  rw [Json.readInt_decimalInt, Json.readInt_decimalInt] at ht ho
  exact ⟨Option.some.inj ht, Option.some.inj ho⟩

theorem readPlainTime_plainTime (t o : Int) : readPlainTime (plainTime t o) = some (shifted t o) := by
  show (match cutAt ' ' (decimalInt t ++ ' ' :: decimalInt o) with
    | (t, some o) => _ | (_, none) => _) = _
  rw [cutAt_append (blank_notMem_decimalInt t)]
  simp only [Json.readInt_decimalInt, Option.bind_eq_bind, Option.bind_some, Option.pure_def]

theorem recordedDisplay_inj (t o t' o' : Int) (h : recordedDisplay t o = recordedDisplay t' o') :
    t = t' ∧ o = o' := by
  -- a recorded text starts with a digit, a plain one with an at sign
  have hplain : ∀ t o, (plainTime t o).head? = some '@' := fun _ _ => rfl
  unfold recordedDisplay at h
  split at h
  · split at h
    · omega
    · split at h
      · exact absurd h (by decide)
      · exact absurd ((congrArg List.head? h).trans (hplain t' o')) (by decide)
  · split at h
    · split at h
      · exact absurd h (by decide)
      · split at h
        · omega
        · exact absurd ((congrArg List.head? h).trans (hplain t' o')) (by decide)
    · split at h
      · exact absurd ((congrArg List.head? h).symm.trans (hplain t o)) (by decide)
      · split at h
        · exact absurd ((congrArg List.head? h).symm.trans (hplain t o)) (by decide)
        · exact plainTime_inj h

theorem readRecorded_recordedRfc3339 (t o : Int) :
    readRecorded (recordedRfc3339 t o) = some (shifted t o) := by
  unfold recordedRfc3339
  split
  · next h =>
    obtain ⟨rfl, rfl⟩ := h
    decide
  · split
    · next h =>
      obtain ⟨rfl, rfl⟩ := h
      decide
    · have hne : ¬ (plainTime t o = "2024-05-01T08:00:00+08:00".toList ∨
          plainTime t o = "2024-05-01T00:00:00Z".toList) := by
        rintro (h | h)
        · exact absurd (congrArg List.head? h) (by simp [plainTime])
        · exact absurd (congrArg List.head? h) (by simp [plainTime])
      rw [readRecorded, if_neg hne, readPlainTime_plainTime]

def recordedChrono : ChatChrono where
  display := recordedDisplay
  toRfc3339 := recordedRfc3339
  fromRfc3339 := readRecorded
  display_inj := recordedDisplay_inj
  fromRfc3339_to := readRecorded_recordedRfc3339

def greeting : ChatMessage where
  id := 1
  spaceId := 2
  senderId := 3
  senderName := "alice".toList
  msgType := "text".toList
  content := "hi".toList
  timestamp := mayDay
  signature := none

/-- The MACs of the greeting under `home-secret`, shown in the two zones. -/
def greetingMac : Bytes :=
  (hexDecode "9b3fcce77b58d7b8ddbf64be50be8b55b43c50c9b344d22e37a75c972ac191fe".toList).getD []

def greetingMacGreenwich : Bytes :=
  (hexDecode "5ca5db5ed3528a0eaa294425e329d7582eaf6b084a6a662c4da37f544fbf4f30".toList).getD []

/-- HMAC-SHA256 under `home-secret` on the greeting; no two texts share a value. -/
def greetingHmac (data : Bytes) : Bytes :=
  if data = utf8 (greeting.signedText recordedChrono shanghai) then greetingMac
  else if data = utf8 (greeting.signedText recordedChrono greenwich) then greetingMacGreenwich
  else 0 :: data

def greetingPrimitives : Primitives where
  sha256 := fun _ => []
  hmac := fun _ => greetingHmac

theorem greetingHmac_cases (data : Bytes) :
    (data = utf8 (greeting.signedText recordedChrono shanghai) ∧
        greetingHmac data = greetingMac) ∨
      (data = utf8 (greeting.signedText recordedChrono greenwich) ∧
        greetingHmac data = greetingMacGreenwich) ∨
      greetingHmac data = 0 :: data := by
  unfold greetingHmac
  split
  · next h => exact .inl ⟨h, rfl⟩
  · split
    · next h => exact .inr (.inl ⟨h, rfl⟩)
    · exact .inr (.inr rfl)

theorem greetingHmac_injective : Function.Injective greetingHmac := by
  -- the recorded MACs start with bytes of their own
  have hmac : greetingMac.head? = some 0x9b := by decide
  have hmac' : greetingMacGreenwich.head? = some 0x5c := by decide
  intro a b h
  have hhead := congrArg List.head? h
  rcases greetingHmac_cases a with ⟨ha, ha'⟩ | ⟨ha, ha'⟩ | ha' <;>
    rcases greetingHmac_cases b with ⟨hb, hb'⟩ | ⟨hb, hb'⟩ | hb' <;>
    rw [ha', hb'] at h hhead
  · rw [ha, hb]
  · exact absurd (hmac.symm.trans (hhead.trans hmac')) (by decide)
  · exact absurd (hmac.symm.trans hhead) (by simp)
  · exact absurd (hmac.symm.trans (hhead.symm.trans hmac')) (by decide)
  · rw [ha, hb]
  · exact absurd (hmac'.symm.trans hhead) (by simp)
  · exact absurd (hmac.symm.trans hhead.symm) (by simp)
  · exact absurd (hmac'.symm.trans hhead.symm) (by simp)
  · exact (List.cons.inj h).2

/-! ## What the receiver verifies -/

section Verified

variable (P : Primitives) (C : ChatChrono)

/-- A signed message is verified by its receiver exactly when both have the
same offset at its timestamp, but for collisions of the HMAC. -/
theorem verifies_iff_same_offset (J : JsonText) (sender receiver : Zone) (secret : Str)
    (m : ChatMessage) :
    m.Survives P C J sender receiver secret ↔
      SameOffset sender receiver m.timestamp ∨
        Collide P secret
          (signedText C receiver
            { m with timestamp := shifted m.timestamp (sender m.timestamp) })
          (m.signedText C sender) := by
  rw [survives_iff, sameOffset_iff C]
  constructor
  · intro h
    by_cases heq : signedText C receiver
        { m with timestamp := shifted m.timestamp (sender m.timestamp) } = m.signedText C sender
    · exact .inl heq
    · exact .inr ⟨heq, h⟩
  · rintro (heq | ⟨-, h⟩)
    · rw [heq]
    · exact h

/-- Signed in Shanghai and read in Greenwich. -/
theorem greeting_refused_abroad : ¬ greeting.Survives greetingPrimitives recordedChrono
    JsonText.compact shanghai greenwich "home-secret".toList := by
  have hshift : shifted greeting.timestamp (shanghai greeting.timestamp) = greeting.timestamp := by
    rw [shifted_eq_self]
    rfl
  rw [survives_iff, hshift]
  show ¬ greetingHmac (utf8 (greeting.signedText recordedChrono greenwich)) =
    greetingHmac (utf8 (greeting.signedText recordedChrono shanghai))
  intro h
  have htext : greeting.signedText recordedChrono greenwich =
      greeting.signedText recordedChrono shanghai :=
    utf8_injective (greetingHmac_injective h)
  exact absurd (List.append_cancel_left htext) (by decide)

/-! ## What a signature binds -/

/-- Two messages that verify with one signature are the same message exactly
when they agree in the fields that are not signed and their contents are
equally long; the contents are not separated from the timestamps. -/
theorem bound_iff (hfree : ∀ key, Function.Injective (P.hmac key)) {zone zone' : Zone}
    {secret : Str} {m m' : ChatMessage} (hm : m.verify P C zone secret = true)
    (hm' : m'.verify P C zone' secret = true) (hsig : m.signature = m'.signature) :
    m = m' ↔ (m.spaceId = m'.spaceId ∧ m.senderName = m'.senderName ∧ m.msgType = m'.msgType) ∧
      m.content.length = m'.content.length := by
  constructor
  · rintro rfl
    exact ⟨⟨rfl, rfl, rfl⟩, rfl⟩
  · rintro ⟨⟨hspace, hname, htype⟩, hlen⟩
    have htext : m.signedText C zone = m'.signedText C zone' := by
      rw [verify_eq_true] at hm hm'
      rw [hm, hm'] at hsig
      exact utf8_injective (hfree _ (hmacSha256_inj.1 (Option.some.inj hsig)))
    -- the ids have a fixed length, and so have the contents here
    have hids : (uuidText m.id ++ uuidText m.senderId ++ m.content).length =
        (uuidText m'.id ++ uuidText m'.senderId ++ m'.content).length := by
      simp [hlen]
    rcases List.append_inj htext hids with ⟨hfront, hdisplay⟩
    rcases List.append_inj hfront (by simp) with ⟨hfront, hcontent⟩
    rcases List.append_inj hfront (by simp) with ⟨hid, hsender⟩
    have hid := uuidText_injective hid
    have hsender := uuidText_injective hsender
    have htime := (C.display_inj _ _ _ _ hdisplay).1
    cases m
    cases m'
    rw [ChatMessage.mk.injEq]
    exact ⟨hid, hspace, hsender, hname, htype, hcontent, htime, hsig⟩

end Verified

/-- The greeting under another name. -/
def renamed : ChatMessage :=
  { greeting.sign greetingPrimitives recordedChrono shanghai "home-secret".toList with
    senderName := "mallory".toList }

theorem verify_renamed :
    renamed.verify greetingPrimitives recordedChrono shanghai "home-secret".toList = true :=
  verify_eq_true.2 rfl

theorem bound_greeting :
    greeting.sign greetingPrimitives recordedChrono shanghai "home-secret".toList = renamed ↔
      ((2 : Uuid) = 2 ∧ "alice".toList = "mallory".toList ∧ "text".toList = "text".toList) ∧
        "hi".toList.length = "hi".toList.length :=
  bound_iff greetingPrimitives recordedChrono (fun _ => greetingHmac_injective)
    (verify_sign greetingPrimitives recordedChrono shanghai "home-secret".toList greeting)
    verify_renamed rfl

/-- The sender's name is not signed. -/
theorem renamed_verifies :
    (∀ key, Function.Injective (greetingPrimitives.hmac key)) ∧
      (greeting.sign greetingPrimitives recordedChrono shanghai "home-secret".toList).verify
        greetingPrimitives recordedChrono shanghai "home-secret".toList = true ∧
      renamed.verify greetingPrimitives recordedChrono shanghai "home-secret".toList = true ∧
      (greeting.sign greetingPrimitives recordedChrono shanghai "home-secret".toList).signature =
        renamed.signature ∧
      (greeting.sign greetingPrimitives recordedChrono shanghai "home-secret".toList).senderName ≠
        renamed.senderName :=
  ⟨fun _ => greetingHmac_injective, verify_sign _ _ _ _ _, verify_renamed, rfl, by decide⟩

end ChatMessage

end HomeTier
