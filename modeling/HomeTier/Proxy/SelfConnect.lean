import HomeTier.Proxy.WsRequest
import HomeTier.Vpn.Address

/-! # Connections of the proxy to itself

Before it connects, `handle_raw_upgrade` of `src-tauri/src/proxy/ws_proxy.rs`
compares the target with its own port and four spellings of the local machine
(`isSelf`). What it connects to is what the system resolves the host to
(`Resolver`): other spellings of the local machine are let through.
-/

namespace HomeTier.SelfConnect

open Lib WsCodec WsRequest

/-! ## Addresses -/

inductive IpAddr where
  | v4 (n : BitVec 32)
  | v6 (n : BitVec 128)
deriving DecidableEq

/-- 127.0.0.0/8, and the unspecified address, which connects to the local machine. -/
def isLocal4 (n : Nat) : Bool := n / 2 ^ 24 = 127 || n = 0

/-- An address of the local machine: also `::1`, `::` and addresses of IPv4 that
are mapped into IPv6. -/
def IpAddr.isLocal : IpAddr → Bool
  | .v4 n => isLocal4 n.toNat
  | .v6 n => n = 0 || n = 1 || (n.toNat / 2 ^ 32 = 0xFFFF && isLocal4 (n.toNat % 2 ^ 32))

/-- `to_socket_addrs` of a host: addresses as they are written, and names as the
system knows them. `localhost` is the local machine in any case of its letters. -/
structure Resolver where
  resolve : Str → List IpAddr
  resolve_ipv4 : ∀ s n, Vpn.parseIpv4 s = some n → .v4 (BitVec.ofNat 32 n) ∈ resolve s
  resolve_localhost : ∀ s, toAsciiLowercase s = "localhost".toList →
    ∃ addr ∈ resolve s, addr.isLocal = true

/-- The host is, or may be, the local machine. -/
def Resolver.Local (R : Resolver) (host : Str) : Prop :=
  ∃ addr ∈ R.resolve host, addr.isLocal = true

/-! ## Targets -/

/-- The target before it is compared with the proxy itself. -/
def chosenTarget (isIp : Str → Bool) (frontPort : UInt16) (req : UpgradeRequest) : WsTarget :=
  let named := namedTarget req
  let valid := '.' ∈ named.host || isIp named.host
  let t := match req.clientOrigin with
    | some origin => if valid then named else fromClientOrigin named origin
    | none => named
  match req.keyOrigin with
  | some origin => if isSelf frontPort t || !valid then fromKeyOrigin t origin else t
  | none => t

theorem resolveTarget_eq (isIp : Str → Bool) (frontPort : UInt16) (req : UpgradeRequest) :
    resolveTarget isIp frontPort req =
      if isSelf frontPort (chosenTarget isIp frontPort req) then none
      else some (chosenTarget isIp frontPort req) := rfl

/-- The upgrade that is asked for, when its head can be read. -/
def asked (P : Proxy) (head : Str) : Option UpgradeRequest :=
  match lines head with
  | [] => none
  | requestLine :: headerLines =>
    match splitWhitespace requestLine with
    | _ :: path :: _ =>
      let h := readHeaders headerLines
      (parseUpgrade P.keys path h.clientOrigin h.clientCookie).toOption
    | _ => none

def chosen (P : Proxy) (head : Str) : Option WsTarget :=
  (asked P head).map (chosenTarget P.isIp P.front.port)

/-- The query names a host: it has a dot, or is an address. -/
def NamesHost (P : Proxy) (req : UpgradeRequest) : Prop :=
  '.' ∈ (namedTarget req).host ∨ P.isIp (namedTarget req).host = true

/-- What the `Origin` header puts in the place of a query that names no host. -/
def headerTarget (req : UpgradeRequest) : WsTarget :=
  match req.clientOrigin with
  | some origin => fromClientOrigin (namedTarget req) origin
  | none => namedTarget req

/-- Where the target comes from: the query, the `Origin` header, or the source URL of the key. -/
inductive Comes (P : Proxy) (req : UpgradeRequest) : WsTarget → Prop where
  /-- The query names a host, and there is no key, or the host is not the proxy itself. -/
  | query (hhost : NamesHost P req)
      (hkey : req.keyOrigin = none ∨ isSelf P.front.port (namedTarget req) = false) :
      Comes P req (namedTarget req)
  | header (hhost : ¬ NamesHost P req) (hkey : req.keyOrigin = none) : Comes P req (headerTarget req)
  /-- The query names the proxy itself. -/
  | key {origin} (hhost : NamesHost P req)
      (hself : isSelf P.front.port (namedTarget req) = true) (hkey : req.keyOrigin = some origin) :
      Comes P req (fromKeyOrigin (namedTarget req) origin)
  | unnamed {origin} (hhost : ¬ NamesHost P req) (hkey : req.keyOrigin = some origin) :
      Comes P req (fromKeyOrigin (headerTarget req) origin)

theorem chosenTarget_named {P : Proxy} {req : UpgradeRequest} (hhost : NamesHost P req) :
    chosenTarget P.isIp P.front.port req =
      match req.keyOrigin with
      | some origin =>
        if isSelf P.front.port (namedTarget req) = true then fromKeyOrigin (namedTarget req) origin
        else namedTarget req
      | none => namedTarget req := by
  have hvalid : (decide ('.' ∈ (namedTarget req).host) || P.isIp (namedTarget req).host) = true := by
    simpa [NamesHost] using hhost
  unfold chosenTarget
  cases req.clientOrigin <;> simp [hvalid]

theorem chosenTarget_unnamed {P : Proxy} {req : UpgradeRequest} (hhost : ¬ NamesHost P req) :
    chosenTarget P.isIp P.front.port req =
      match req.keyOrigin with
      | some origin => fromKeyOrigin (headerTarget req) origin
      | none => headerTarget req := by
  have hvalid : (decide ('.' ∈ (namedTarget req).host) || P.isIp (namedTarget req).host) = false := by
    simpa [NamesHost] using hhost
  unfold chosenTarget headerTarget
  cases req.clientOrigin <;> simp [hvalid]

theorem comes_iff {P : Proxy} {req : UpgradeRequest} {t : WsTarget} :
    Comes P req t ↔ chosenTarget P.isIp P.front.port req = t := by
  constructor
  · rintro (⟨hhost, hkey⟩ | ⟨hhost, hkey⟩ | ⟨hhost, hself, hkey⟩ | ⟨hhost, hkey⟩)
    · rw [chosenTarget_named hhost]
      rcases hkey with hkey | hself
      · rw [hkey]
      · rw [hself]
        cases req.keyOrigin <;> rfl
    · rw [chosenTarget_unnamed hhost, hkey]
    · rw [chosenTarget_named hhost, hkey]
      exact if_pos hself
    · rw [chosenTarget_unnamed hhost, hkey]
  · rintro rfl
    by_cases hhost : NamesHost P req
    · rw [chosenTarget_named hhost]
      cases hkey : req.keyOrigin with
      | none => exact .query hhost (.inl hkey)
      | some origin =>
        cases hself : isSelf P.front.port (namedTarget req) with
        | true => exact .key hhost hself hkey
        | false => exact .query hhost (.inr hself)
    · rw [chosenTarget_unnamed hhost]
      cases hkey : req.keyOrigin with
      | none => exact .header hhost hkey
      | some origin => exact .unnamed hhost hkey

/-- The proxy goes on to connect with every target that is not itself. -/
theorem readUpgrade_iff {P : Proxy} {head : Str} {t : WsTarget} :
    (∃ h, readUpgrade P head = .ok (t, h)) ↔
      chosen P head = some t ∧ isSelf P.front.port t = false := by
  unfold readUpgrade chosen asked
  cases lines head with
  | nil => simp
  | cons requestLine headerLines =>
    simp only
    rcases splitWhitespace requestLine with _ | ⟨method, _ | ⟨path, rest⟩⟩
    · simp
    · simp
    · simp only
      cases parseUpgrade P.keys path (readHeaders headerLines).clientOrigin
          (readHeaders headerLines).clientCookie with
      | error e => simp [Except.toOption]
      | ok req =>
        simp only [resolveTarget_eq, Except.toOption, Option.map_some]
        by_cases hself : isSelf P.front.port (chosenTarget P.isIp P.front.port req) = true
        · simp only [if_pos hself, reduceCtorEq, exists_false, Option.some.injEq, false_iff,
            not_and]
          rintro rfl
          simp [hself]
        · simp only [if_neg hself, Except.ok.injEq, Prod.mk.injEq, exists_eq_right',
            Option.some.injEq]
          constructor
          · rintro rfl
            exact ⟨rfl, by simpa using hself⟩
          · exact fun h => h.1

/-! ## Local spellings -/

/-- No upgrade connects to the port of the proxy on the local machine. -/
def NoSelfLoop (R : Resolver) (P : Proxy) (head : Str) : Prop :=
  ∀ t h, readUpgrade P head = .ok (t, h) → ¬ (t.port = P.front.port ∧ R.Local t.host)

/-- Where query, `Origin` header or key source name the proxy's port on the local machine, they
do it with one of the four spellings. -/
def Recognised (R : Resolver) (P : Proxy) (head : Str) : Prop :=
  ∀ req t, asked P head = some req → Comes P req t → t.port = P.front.port → R.Local t.host →
    t.host ∈ selfHosts

theorem recognised_iff (R : Resolver) (P : Proxy) (head : Str) :
    Recognised R P head ↔
      ∀ t, chosen P head = some t → t.port = P.front.port → R.Local t.host → t.host ∈ selfHosts := by
  simp only [Recognised, comes_iff, chosen, Option.map_eq_some_iff]
  constructor
  · rintro h t ⟨req, hasked, ht⟩
    exact h req t hasked ht
  · intro h req t hasked ht
    exact h t ⟨req, hasked, ht⟩

/-- An address of 127.0.0.0/8, or 0.0.0.0, as it is written. -/
theorem Resolver.local_ipv4 (R : Resolver) {s : Str} {n : Nat} (h : Vpn.parseIpv4 s = some n)
    (hlocal : isLocal4 (n % 2 ^ 32) = true) : R.Local s :=
  ⟨_, R.resolve_ipv4 s n h, by simpa [IpAddr.isLocal] using hlocal⟩

/-- The proxy never connects to itself exactly when it recognises the target. -/
theorem noSelfLoop_iff (R : Resolver) (P : Proxy) (head : Str) :
    NoSelfLoop R P head ↔ Recognised R P head := by
  rw [recognised_iff]
  constructor
  · intro h t ht hport hlocal
    by_contra hhost
    have hself : isSelf P.front.port t = false := by
      have hnone : selfHosts.any (fun host => host = t.host) = false := by
        rw [List.any_eq_false]
        intro host hmem heq
        exact hhost (of_decide_eq_true heq ▸ hmem)
      rw [isSelf, hnone, Bool.false_and]
    rcases readUpgrade_iff.2 ⟨ht, hself⟩ with ⟨headers, hread⟩
    exact h t headers hread ⟨hport, hlocal⟩
  · rintro h t headers hread ⟨hport, hlocal⟩
    rcases readUpgrade_iff.1 ⟨headers, hread⟩ with ⟨ht, hself⟩
    have hhost := h t ht hport hlocal
    have hany : selfHosts.any (fun host => host = t.host) = true :=
      List.any_eq_true.2 ⟨t.host, hhost, decide_eq_true rfl⟩
    rw [isSelf, hany, hport] at hself
    simp at hself

/-- Written addresses of IPv4 and `localhost`. -/
def hostsFile : Resolver where
  resolve s :=
    ((Vpn.parseIpv4 s).map fun n => .v4 (BitVec.ofNat 32 n)).toList ++
      if toAsciiLowercase s = "localhost".toList then [.v4 0x7F000001] else []
  resolve_ipv4 := by
    intro s n h
    rw [h]
    exact List.mem_append_left _ List.mem_cons_self
  resolve_localhost := by
    intro s h
    rw [if_pos h]
    exact ⟨_, List.mem_append_right _ List.mem_cons_self, rfl⟩

/-- The unspecified address, at the port of the proxy. -/
def unspecified : Str := "GET /?ws=0.0.0.0:8080/ HTTP/1.1\r\n".toList ++ handshake

theorem chosen_unspecified :
    chosen plainProxy unspecified = some ⟨"0.0.0.0".toList, 8080, .ws, "/".toList⟩ := by
  decide

theorem connects_to_itself :
    ¬ ∀ (R : Resolver) (P : Proxy) (head : Str), NoSelfLoop R P head := by
  intro h
  rcases readUpgrade_iff.2 ⟨chosen_unspecified, rfl⟩ with ⟨headers, hread⟩
  have hlocal : hostsFile.Local "0.0.0.0".toList :=
    hostsFile.local_ipv4 (n := 0) (by decide) (by decide)
  exact h hostsFile plainProxy unspecified _ headers hread ⟨rfl, hlocal⟩

end HomeTier.SelfConnect
