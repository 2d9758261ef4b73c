import HomeTier.Space.Share

/-! # Truncated share payloads

`read_string` and `decode_share_binary` of `src-tauri/src/space/share.rs` with every
index and every slice they take. A slice beyond the end is a panic, not an error.

* The checks in front of each of them suffice (`decodeShareBinary_eq`).
* What the encoder writes is refused when its end is missing (`truncated_rejected`).
-/

namespace HomeTier.ShareCursor

open Lib

/-- How a call ends that gives no value. -/
inductive Fault where
  | err (e : Str)
  | outOfBounds
deriving DecidableEq

/-! ## Slices -/

/-- `data[i]` -/
def indexAt (data : Bytes) (i : Nat) : Except Fault UInt8 :=
  match data[i]? with
  | some b => .ok b
  | none => .error .outOfBounds

/-- `&data[i..]` -/
def sliceFrom (data : Bytes) (i : Nat) : Except Fault Bytes :=
  if i ≤ data.length then .ok (data.drop i) else .error .outOfBounds

/-- `&data[..i]` -/
def sliceTo (data : Bytes) (i : Nat) : Except Fault Bytes :=
  if i ≤ data.length then .ok (data.take i) else .error .outOfBounds

/-! ## Decoder -/

/-- The byte at the cursor, behind a check that there is one. -/
def nextByte (missing : Str) (cur : Bytes) : Except Fault (UInt8 × Bytes) :=
  if cur = [] then .error (.err missing)
  else do
    let b ← indexAt cur 0
    let cur ← sliceFrom cur 1
    pure (b, cur)

/-- `read_string` -/
def readString (input : Bytes) : Except Fault (Str × Bytes) := do
  let (len, input) ← nextByte "分享数据截断: 缺少长度字节".toList input
  if input.length < len.toNat then .error (.err "分享数据截断: 字符串长度不匹配".toList)
  else do
    let front ← sliceTo input len.toNat
    match fromUtf8 front with
    | none => .error (.err "分享数据损坏: 字符串非 UTF-8".toList)
    | some s => do
      let input ← sliceFrom input len.toNat
      pure (s, input)

def readDhcp (input : Bytes) : Except Fault (Bool × Bytes) := do
  let (b, input) ← nextByte "分享数据截断: 缺少 dhcp 值".toList input
  if b = 0 then .ok (false, input)
  else if b = 1 then .ok (true, input)
  else .error (.err ("非法 dhcp 值: 0x".toList ++ hexEncode [b]))

/-- A count and its strings. -/
def readList (missing : Str) (input : Bytes) : Except Fault (List Str × Bytes) := do
  let (count, input) ← nextByte missing input
  readMany readString count.toNat input

/-- What follows the flags. -/
def readFields (flags : UInt8) (cur : Bytes) : Except Fault (ShareInfo × Bytes) := do
  let (networkName, cur) ← readString cur
  let (networkSecret, cur) ← readString cur
  let (name, cur) ← readOption readString (flags &&& flagName != 0) cur
  let (hostHint, cur) ← readOption readString (flags &&& flagHostHint != 0) cur
  let (virtualIp, cur) ← readOption readString (flags &&& flagVirtualIp != 0) cur
  let (dhcp, cur) ← readOption readDhcp (flags &&& flagDhcp != 0) cur
  let (peerUrls, cur) ← readList "分享数据截断: 缺少 peer_count".toList cur
  let (listenerUrls, cur) ← readList "分享数据截断: 缺少 listener_count".toList cur
  pure ({ name, networkName, networkSecret, hostHint, virtualIp, dhcp, peerUrls, listenerUrls }, cur)

/-- `decode_share_binary` -/
def decodeShareBinary (data : Bytes) : Except Fault ShareInfo := do
  let (version, cur) ← nextByte "分享数据为空".toList data
  if version ≠ payloadVersion then
    .error (.err ("不支持的分享载荷版本: ".toList ++ decimal version.toNat))
  else do
    let (flags, cur) ← nextByte "分享数据截断: 缺少 flags".toList cur
    let (info, _) ← readFields flags cur
    pure info

/-! ## No index is out of bounds -/

section Lift

variable {α β : Type}

/-- A result without panics. -/
def lift (x : Except Str α) : Except Fault α := x.mapError .err

@[simp] theorem lift_ok (a : α) : lift (.ok a) = .ok a := rfl

@[simp] theorem lift_error (e : Str) : lift (.error e : Except Str α) = .error (.err e) := rfl

theorem lift_bind (x : Except Str α) (f : α → Except Str β) :
    lift (x >>= f) = lift x >>= fun a => lift (f a) := by
  cases x with
  | error e => rfl
  | ok a => rfl

variable {r : Bytes → Except Str (α × Bytes)} {r' : Bytes → Except Fault (α × Bytes)}

theorem readMany_eq (h : ∀ b, r' b = lift (r b)) (n : Nat) (b : Bytes) :
    readMany r' n b = lift (readMany r n b) := by
  induction n generalizing b with
  | zero => rfl
  | succ n ih =>
    simp only [readMany, lift_bind, h, ih]
    rfl

theorem readOption_eq (h : ∀ b, r' b = lift (r b)) (present : Bool) (b : Bytes) :
    readOption r' present b = lift (readOption r present b) := by
  cases present with
  | false => rfl
  | true =>
    simp only [readOption, if_true, lift_bind, h]
    rfl

end Lift

theorem nextByte_eq (missing : Str) (cur : Bytes) :
    nextByte missing cur = lift (readByte missing cur) := by
  cases cur with
  | nil => rfl
  | cons b cur => simp [nextByte, indexAt, sliceFrom, readByte, bind, Except.bind, pure, Except.pure]

theorem readString_eq (input : Bytes) : readString input = lift (HomeTier.readString input) := by
  simp only [readString, HomeTier.readString, lift_bind, nextByte_eq]
  congr 1
  funext out
  rcases out with ⟨len, input⟩
  dsimp only
  split
  · rfl
  · next hlen =>
    -- the length has been compared with what is left
    have hle : len.toNat ≤ input.length := Nat.le_of_not_lt hlen
    rw [sliceTo, if_pos hle]
    show (match fromUtf8 (input.take len.toNat) with
      | none => _
      | some s => _) = _
    cases fromUtf8 (input.take len.toNat) with
    | none => rfl
    | some s =>
      rw [sliceFrom, if_pos hle]
      rfl

theorem readDhcp_eq (input : Bytes) : readDhcp input = lift (HomeTier.readDhcp input) := by
  simp only [readDhcp, HomeTier.readDhcp, lift_bind, nextByte_eq]
  congr 1
  funext out
  rcases out with ⟨b, input⟩
  dsimp only
  split
  · rfl
  · split
    · rfl
    · rfl

theorem readList_eq (missing : Str) (input : Bytes) :
    readList missing input = lift (HomeTier.readList missing input) := by
  simp only [readList, HomeTier.readList, lift_bind, nextByte_eq, readMany_eq readString_eq]

theorem readFields_eq (flags : UInt8) (cur : Bytes) :
    readFields flags cur = lift (HomeTier.readFields flags cur) := by
  simp only [readFields, HomeTier.readFields, lift_bind, readString_eq,
    readOption_eq readString_eq, readOption_eq readDhcp_eq, readList_eq]
  rfl

/-- The decoder never panics, and is the one without indices. -/
theorem decodeShareBinary_eq (data : Bytes) :
    decodeShareBinary data = lift (HomeTier.decodeShareBinary data) := by
  simp only [decodeShareBinary, HomeTier.decodeShareBinary, lift_bind, nextByte_eq]
  congr 1
  funext out
  rcases out with ⟨version, cur⟩
  dsimp only
  split
  · rfl
  · simp only [lift_bind, readFields_eq]
    rfl

theorem lift_ne_outOfBounds {α : Type} (x : Except Str α) : lift x ≠ .error .outOfBounds := by
  cases x with
  | error e => simp
  | ok a => simp

/-! ## A payload whose end is missing -/

theorem decode_cut {info : ShareInfo} {b p : Bytes} (henc : encodeShareBinary info = .ok b)
    (hp : p <+: b) (hne : p ≠ b) : ∃ e, HomeTier.decodeShareBinary p = .error e := by
  rcases encodeShareBinary_eq_ok.1 henc with ⟨hfits, rfl⟩
  have hannounces : Announces (shareFlags info) info := announces_iff.2 (shareFlags_mask info)
  rcases p with _ | ⟨version, _ | ⟨flags, q⟩⟩
  · exact ⟨_, rfl⟩
  · -- only the version is left
    rw [List.cons_prefix_cons] at hp
    obtain ⟨rfl, -⟩ := hp
    exact ⟨_, rfl⟩
  · rw [List.cons_prefix_cons, List.cons_prefix_cons] at hp
    obtain ⟨rfl, rfl, hq⟩ := hp
    have hcut : q ≠ info.fieldBytes := by
      rintro rfl
      exact hne rfl
    rcases (exact_readFields (shareFlags info)).error_of_cut ⟨hfits, hannounces⟩ hq hcut with
      ⟨e, he⟩
    refine ⟨e, ?_⟩
    simp only [HomeTier.decodeShareBinary, readByte, bind, Except.bind]
    rw [if_neg (not_not.2 rfl), he]

/-- A proper prefix of an encoding is an error, and no input makes the decoder index
beyond the end. -/
theorem truncated_rejected :
    (∀ info b p, encodeShareBinary info = .ok b → p <+: b → p ≠ b →
      ∃ e, decodeShareBinary p = .error (.err e)) ∧
    ∀ data, decodeShareBinary data ≠ .error .outOfBounds := by
  constructor
  · intro info b p henc hp hne
    rcases decode_cut henc hp hne with ⟨e, he⟩
    exact ⟨e, by rw [decodeShareBinary_eq, he, lift_error]⟩
  · intro data
    rw [decodeShareBinary_eq]
    exact lift_ne_outOfBounds _

end HomeTier.ShareCursor
