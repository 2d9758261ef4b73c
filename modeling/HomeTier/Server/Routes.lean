import HomeTier.Lib.Router
import HomeTier.Server.Auth

/-! # The command router and what the authentication layer covers

`cmd_router` of `src-tauri/src/server/routes.rs`, nested under `/api/cmd` by
`start_server`. Every request passes `auth_layer` before the router sees it,
and `is_static_resource` decides from the path alone whether the cookie is
looked at. The two readings of the path are compared here: a path that is
dispatched to a command handler is guarded by the cookie exactly when it
carries no static extension and the public base does not uncover it
(`cmd_guarded_iff`).
-/

namespace HomeTier

open Lib

/-- Request methods the routes distinguish. -/
inductive Method where
  | get
  | head
  | post
  | delete
  | other
deriving DecidableEq, Repr

/-- The handlers of `cmd_router`. -/
inductive Handler where
  | pingHandler
  | createSpaceHandler
  | joinSpaceHandler
  | listSpacesHandler
  | getSpaceHandler
  | deleteSpaceHandler
  | leaveSpaceHandler
  | connectSpaceHandler
  | disconnectSpaceHandler
  | spaceStatusHandler
  | listMembersHandler
  | getSpaceConfigHandler
  | updateSpaceConfigHandler
  | patchSpaceConfigHandler
  | generateShareLinkHandler
  | parseQrHandler
  | parseShareDataHandler
  | sendSignalHandler
  | getAclRulesHandler
  | createAclRuleHandler
  | updateAclRuleHandler
  | deleteAclRuleHandler
  | getPortForwardRulesHandler
  | createPortForwardRuleHandler
  | updatePortForwardRuleHandler
  | deletePortForwardRuleHandler
  | listAppsHandler
  | addAppHandler
  | shareAppHandler
  | updateAppHandler
  | deleteAppHandler
  | getSystemAppsHandler
  | getMessageHistoryHandler
  | sendMessageHandler
  | getNetworkStatsHandler
  | getSpacePeersHandler
  | getMeshRoutesHandler
  | getLogsHandler
  | getSpaceLogsHandler
  | clearLogsHandler
  | queryLogsHandler
  | getLogModulesHandler
  | clearLogsFilteredHandler
  | exportLogsHandler
  | getSystemConfigHandler
  | setSystemConfigHandler
  | getAppConfigHandler
  | setAppConfigHandler
  | getConfigPathHandler
  | getConfigTemplatePathHandler
  | getConfigVersionHandler
  | downloadConfigHandler
  | uploadConfigHandler
  | getRemoteConfigVersionHandler
  | downloadRemoteConfigHandler
  | getAppVersionHandler
  | checkEasytierBinaryHandler
  | checkAppUpdateHandler
  | upgradeAppHandler
  | getProxyUrlHandler
  | getProxyStatusHandler
  | registerProxyKeyHandler
  | setProxySourceHandler
  | setDeviceModeHandler
  | getPendingDownloadsHandler
  | checkEasytierUpdateHandler
  | upgradeEasytierHandler
  | sendFileHandler
  | receiveFileHandler
  | recordReceivedFileHandler
  | deleteFileHandler
  | listFilesHandler
  | getTransferProgressHandler
  | wsHandler
  | wsEventsHandler
deriving DecidableEq, Repr

/-- The routes of `cmd_router`, relative to its mount point. -/
def cmdRoutes : List (String × List (Method × Handler)) :=
  [
   ("/ping", [(.get, .pingHandler)]),
   ("/space/create", [(.post, .createSpaceHandler)]),
   ("/space/join", [(.post, .joinSpaceHandler)]),
   ("/space/list", [(.get, .listSpacesHandler)]),
   ("/space/{space_id}", [(.get, .getSpaceHandler), (.delete, .deleteSpaceHandler)]),
   ("/space/{space_id}/leave", [(.post, .leaveSpaceHandler)]),
   ("/space/{space_id}/connect", [(.post, .connectSpaceHandler)]),
   ("/space/{space_id}/disconnect", [(.post, .disconnectSpaceHandler)]),
   ("/space/{space_id}/status", [(.get, .spaceStatusHandler)]),
   ("/space/{space_id}/members", [(.get, .listMembersHandler)]),
   ("/space/{space_id}/config", [(.get, .getSpaceConfigHandler), (.post, .updateSpaceConfigHandler)]),
   ("/space/{space_id}/config/patch", [(.post, .patchSpaceConfigHandler)]),
   ("/space/{space_id}/share", [(.post, .generateShareLinkHandler)]),
   ("/qr/parse", [(.post, .parseQrHandler)]),
   ("/space/share/parse-data", [(.post, .parseShareDataHandler)]),
   ("/space/{space_id}/signal", [(.post, .sendSignalHandler)]),
   ("/space/{space_id}/acl", [(.get, .getAclRulesHandler), (.post, .createAclRuleHandler)]),
   ("/space/{space_id}/acl/update", [(.post, .updateAclRuleHandler)]),
   ("/space/{space_id}/acl/delete", [(.post, .deleteAclRuleHandler)]),
   ("/space/{space_id}/port-forwards", [(.get, .getPortForwardRulesHandler), (.post, .createPortForwardRuleHandler)]),
   ("/space/{space_id}/port-forwards/update", [(.post, .updatePortForwardRuleHandler)]),
   ("/space/{space_id}/port-forwards/delete", [(.post, .deletePortForwardRuleHandler)]),
   ("/space/{space_id}/apps", [(.get, .listAppsHandler), (.post, .addAppHandler)]),
   ("/space/{space_id}/apps/share", [(.post, .shareAppHandler)]),
   ("/space/{space_id}/apps/update", [(.post, .updateAppHandler)]),
   ("/space/{space_id}/apps/delete", [(.post, .deleteAppHandler)]),
   ("/system/apps", [(.get, .getSystemAppsHandler)]),
   ("/chat/{space_id}/history", [(.get, .getMessageHistoryHandler)]),
   ("/chat/{space_id}/send", [(.post, .sendMessageHandler)]),
   ("/network/{space_id}/stats", [(.get, .getNetworkStatsHandler)]),
   ("/network/{space_id}/peers", [(.get, .getSpacePeersHandler)]),
   ("/network/{space_id}/mesh_routes", [(.get, .getMeshRoutesHandler)]),
   ("/log/list", [(.get, .getLogsHandler)]),
   ("/log/space/{space_id}", [(.get, .getSpaceLogsHandler)]),
   ("/log/clear", [(.post, .clearLogsHandler)]),
   ("/log/query", [(.get, .queryLogsHandler)]),
   ("/log/modules", [(.get, .getLogModulesHandler)]),
   ("/log/clear-filtered", [(.post, .clearLogsFilteredHandler)]),
   ("/log/export", [(.get, .exportLogsHandler)]),
   ("/config/system", [(.get, .getSystemConfigHandler), (.post, .setSystemConfigHandler)]),
   ("/config/app", [(.get, .getAppConfigHandler), (.post, .setAppConfigHandler)]),
   ("/config/path", [(.get, .getConfigPathHandler)]),
   ("/config/template-path", [(.get, .getConfigTemplatePathHandler)]),
   ("/config-store/{name}/version", [(.get, .getConfigVersionHandler)]),
   ("/config-store/{name}/download", [(.get, .downloadConfigHandler)]),
   ("/config-store/upload", [(.post, .uploadConfigHandler)]),
   ("/config-store/remote/version", [(.get, .getRemoteConfigVersionHandler)]),
   ("/config-store/remote/download", [(.get, .downloadRemoteConfigHandler)]),
   ("/system/version", [(.get, .getAppVersionHandler)]),
   ("/system/binary-check", [(.get, .checkEasytierBinaryHandler)]),
   ("/system/check-update", [(.get, .checkAppUpdateHandler)]),
   ("/system/upgrade-app", [(.post, .upgradeAppHandler)]),
   ("/proxy/url", [(.get, .getProxyUrlHandler)]),
   ("/proxy/status", [(.get, .getProxyStatusHandler)]),
   ("/proxy/register", [(.post, .registerProxyKeyHandler)]),
   ("/proxy/source", [(.post, .setProxySourceHandler)]),
   ("/proxy/device", [(.post, .setDeviceModeHandler)]),
   ("/proxy/downloads", [(.get, .getPendingDownloadsHandler)]),
   ("/easytier/check-update", [(.get, .checkEasytierUpdateHandler)]),
   ("/easytier/upgrade", [(.post, .upgradeEasytierHandler)]),
   ("/file/send", [(.post, .sendFileHandler)]),
   ("/file/{space_id}/download/{file_id}", [(.get, .receiveFileHandler)]),
   ("/file/record", [(.post, .recordReceivedFileHandler)]),
   ("/file/delete", [(.post, .deleteFileHandler)]),
   ("/space/{space_id}/file/list", [(.get, .listFilesHandler)]),
   ("/file/progress", [(.get, .getTransferProgressHandler)]),
   ("/ws/signal/{space_id}", [(.get, .wsHandler)]),
   ("/ws/events", [(.get, .wsEventsHandler)])]

/-- `nest("/api/cmd", cmd_router)` -/
def cmdRouter : List (List Seg × List (Method × Handler)) :=
  cmdRoutes.map fun r =>
    (parsePattern "/api/cmd".toList ++ parsePattern r.1.toList, r.2)

/-- Where the router sends a request. -/
inductive Target where
  | cmd (h : Handler)
  | methodNotAllowed
  | fallback
deriving DecidableEq, Repr

/-- A `get` route also answers `HEAD`. -/
def Method.serves (route m : Method) : Bool := route = m || (route = .get && m = .head)

def dispatch (m : Method) (path : Str) : Target :=
  match path with
  | '/' :: rest =>
    match matchRoute cmdRouter (rest.splitOn '/') with
    | some methods =>
      match methods.find? fun e => e.1.serves m with
      | some e => .cmd e.2
      | none => .methodNotAllowed
    | none => .fallback
  | _ => .fallback

/-! ## Paths of command handlers -/

/-- Every route of the command router starts with `api` and `cmd`. -/
theorem cmdRouter_pattern {pat : List Seg} {ms : List (Method × Handler)}
    (h : (pat, ms) ∈ cmdRouter) :
    ∃ rest, pat = .lit "api".toList :: .lit "cmd".toList :: rest := by
  simp only [cmdRouter, List.mem_map, Prod.mk.injEq] at h
  obtain ⟨r, -, rfl, -⟩ := h
  exact ⟨parsePattern r.1.toList, rfl⟩

/-- A path that reaches a command handler starts with `/api/`. -/
theorem api_prefix_of_dispatch {m : Method} {path : Str} {h : Handler}
    (hd : dispatch m path = .cmd h) : "/api/".toList <+: path := by
  unfold dispatch at hd
  split at hd
  · rename_i rest
    cases hm : matchRoute cmdRouter (rest.splitOn '/') with
    | none => simp [hm] at hd
    | some methods =>
      obtain ⟨pat, hmem, hacc⟩ := matchRoute_sound hm
      obtain ⟨tail, rfl⟩ := cmdRouter_pattern hmem
      -- the first two segments of the path are the two literals
      generalize hsegs : rest.splitOn '/' = segs at hacc
      cases hacc with
      | cons h₁ hacc =>
        cases hacc with
        | @cons _ s₂ _ ss h₂ _ =>
          have hrest : ['/'].intercalate (rest.splitOn '/') = rest := List.intercalate_splitOn '/'
          rw [hsegs, h₁, h₂] at hrest
          refine ⟨['/'].intercalate (s₂ :: ss) , ?_⟩
          rw [h₂, ← hrest]
          simp [List.intercalate]
  · simp at hd

/-! ## Paths the cookie guards -/

/-- The cookie is checked for `path` under the public base `base`. -/
structure Guarded (P : Primitives) (path base : Str) : Prop where
  notStatic : isStaticResource path base = false
  onlyVerified : ∀ (cfg : AuthConfig) (nonce : Nonce) (req : Request),
    cfg.publicBase = base → req.path = path →
      authLayer P cfg nonce req = .next → verifyRequest P req.headers cfg.secret = true

/-- The public base ends at a segment boundary of the path, in front of `rest`. -/
def BaseCut (path base rest : Str) : Prop :=
  path = trimEndMatches '/' base ++ rest ∧ (rest = [] ∨ rest.head? = some '/')

/-- What is left of a path is still recognised as an interface path. -/
def KeptBack (rest : Str) : Prop :=
  "/api/".toList <+: rest ∨ "/ws/".toList <+: rest ∨
    ('.' ∈ rest ∧ ∀ p ∈ specialPrefixes, ¬ p <+: rest)

instance (rest : Str) : Decidable (KeptBack rest) := inferInstanceAs (Decidable (_ ∨ _ ∨ _))

/-- No static extension, and the public base does not uncover the path. -/
def NotExempt (path base : Str) : Prop :=
  (∀ ext ∈ staticExtensions, ¬ ext <:+ path) ∧ ∀ rest, BaseCut path base rest → KeptBack rest

theorem guarded_iff (P : Primitives) (path base : Str) :
    Guarded P path base ↔ isStaticResource path base = false := by
  constructor
  · exact fun h => h.notStatic
  · intro h
    refine ⟨h, ?_⟩
    rintro cfg nonce req rfl rfl hnext
    rcases (authLayer_next_iff P cfg nonce req).1 hnext with hs | hv
    · simp [h] at hs
    · exact hv

/-- An interface path has none of the special prefixes. -/
theorem not_special_of_prefix {path p : Str} (hp : p ∈ specialPrefixes)
    (h : "/api/".toList <+: path ∨ "/ws/".toList <+: path) : ¬ p <+: path := by
  have hclash : ∀ q ∈ ["/api/".toList, "/ws/".toList], ∀ p ∈ specialPrefixes,
      ¬ q <+: p ∧ ¬ p <+: q := by decide
  intro hpp
  have hq : ∃ q ∈ ["/api/".toList, "/ws/".toList], q <+: path := by
    rcases h with h | h
    · exact ⟨_, by simp, h⟩
    · exact ⟨_, by simp, h⟩
  obtain ⟨q, hq, hqp⟩ := hq
  rcases List.prefix_or_prefix_of_prefix hqp hpp with hle | hle
  · exact (hclash q hq p hp).1 hle
  · exact (hclash q hq p hp).2 hle

theorem isStaticPath_eq_false_iff (path : Str) :
    isStaticPath path = false ↔ (∀ ext ∈ staticExtensions, ¬ ext <:+ path) ∧ KeptBack path := by
  have hspecial : (specialPrefixes.any fun p => p.isPrefixOf path) = true ↔
      ∃ p ∈ specialPrefixes, p <+: path := by
    simp only [List.any_eq_true, List.isPrefixOf_iff_prefix]
  have hext : (staticExtensions.any fun e => e.isSuffixOf path) = true ↔
      ∃ e ∈ staticExtensions, e <:+ path := by
    simp only [List.any_eq_true, List.isSuffixOf_iff_suffix]
  unfold isStaticPath KeptBack
  by_cases hroot : path = ['/'] ∨ path = []
  · -- the root page has neither a dot nor an interface prefix
    rw [if_pos hroot]
    rcases hroot with rfl | rfl <;> decide
  · rw [if_neg hroot]
    by_cases hs : ∃ p ∈ specialPrefixes, p <+: path
    · rw [if_pos (hspecial.2 hs)]
      obtain ⟨p, hp, hpp⟩ := hs
      have hno : ∀ hq : "/api/".toList <+: path ∨ "/ws/".toList <+: path, False :=
        fun hq => not_special_of_prefix hp hq hpp
      constructor
      · intro h
        simp at h
      · rintro ⟨-, h | h | ⟨-, h⟩⟩
        · exact (hno (.inl h)).elim
        · exact (hno (.inr h)).elim
        · exact (h p hp hpp).elim
    · rw [if_neg (fun h => hs (hspecial.1 h))]
      by_cases he : ∃ e ∈ staticExtensions, e <:+ path
      · rw [if_pos (hext.2 he)]
        obtain ⟨e, he, hep⟩ := he
        constructor
        · intro h
          simp at h
        · rintro ⟨h, -⟩
          exact (h e he hep).elim
      · rw [if_neg (fun h => he (hext.1 h))]
        push Not at hs he
        by_cases hspa : '.' ∉ path ∧ ¬ "/api/".toList <+: path ∧ ¬ "/ws/".toList <+: path
        · rw [if_pos hspa]
          constructor
          · intro h
            simp at h
          · rintro ⟨-, h | h | ⟨h, -⟩⟩
            · exact (hspa.2.1 h).elim
            · exact (hspa.2.2 h).elim
            · exact (hspa.1 h).elim
        · rw [if_neg hspa]
          refine ⟨fun _ => ⟨he, ?_⟩, fun _ => rfl⟩
          by_cases hdot : '.' ∈ path
          · exact .inr (.inr ⟨hdot, hs⟩)
          · by_cases hapi : "/api/".toList <+: path
            · exact .inl hapi
            · by_cases hws : "/ws/".toList <+: path
              · exact .inr (.inl hws)
              · exact (hspa ⟨hdot, hapi, hws⟩).elim

/-- The cut of a path by the public base is unique. -/
theorem BaseCut.unique {path base r₁ r₂ : Str} (h₁ : BaseCut path base r₁)
    (h₂ : BaseCut path base r₂) : r₁ = r₂ :=
  List.append_cancel_left (h₁.1.symm.trans h₂.1)

/-- `strip_public_base` on an absolute path: the rest of the cut (the root page
when nothing is left), or the whole path. -/
theorem stripPublicBase_eq {path : Str} (base : Str) (habs : path.head? = some '/') :
    (∃ rest, BaseCut path base rest ∧
      stripPublicBase path base = if rest = [] then ['/'] else rest) ∨
    ((∀ rest, ¬ BaseCut path base rest) ∧ stripPublicBase path base = path) := by
  have hne : path ≠ [] := by
    rintro rfl
    simp at habs
  unfold stripPublicBase
  by_cases hb : base = [] ∨ base = ['/']
  · have htrim : trimEndMatches '/' base = [] := by
      rcases hb with rfl | rfl <;> decide
    exact .inl ⟨path, ⟨by rw [htrim, List.nil_append], .inr habs⟩, by simp [hb, hne]⟩
  · simp only [if_neg hb]
    by_cases heq : path = trimEndMatches '/' base
    · exact .inl ⟨[], ⟨by simpa using heq, .inl rfl⟩, by simp [← heq]⟩
    · rw [if_neg heq]
      cases hd : path.dropPrefix? (trimEndMatches '/' base) with
      | none =>
        right
        refine ⟨?_, rfl⟩
        rintro rest ⟨hcut, -⟩
        have hsome : path.dropPrefix? (trimEndMatches '/' base) = some rest := by
          rw [List.dropPrefix?_eq_some_iff]
          exact ⟨_, hcut, by simp⟩
        simp [hd] at hsome
      | some rest =>
        obtain ⟨p', hpath, hp'⟩ := List.dropPrefix?_eq_some_iff.1 hd
        obtain rfl : p' = trimEndMatches '/' base := by simpa using hp'
        have hrest : rest ≠ [] := by
          rintro rfl
          exact heq (by simpa using hpath)
        -- '/basement' begins with '/base' too, and is not below it
        by_cases hslash : rest.head? = some '/'
        · exact .inl ⟨rest, ⟨hpath, .inr hslash⟩, by simp [hrest, hslash]⟩
        · right
          refine ⟨?_, by simp [hrest, hslash]⟩
          rintro r ⟨hcut, hr⟩
          obtain rfl : r = rest := List.append_cancel_left (hcut.symm.trans hpath)
          rcases hr with h | h
          · exact hrest h
          · exact hslash h

/-- A static extension lies within the last segment, so cutting a base off in
front of a slash does not change whether the path has it. -/
theorem suffix_rest_iff {ext b rest : Str} (hext : '/' ∉ ext) (hslash : rest.head? = some '/') :
    ext <:+ rest ↔ ext <:+ b ++ rest := by
  have hrest : rest <:+ b ++ rest := List.suffix_append b rest
  constructor
  · intro h
    exact h.trans hrest
  · intro h
    rcases List.suffix_or_suffix_of_suffix h hrest with h' | h'
    · exact h'
    · exact (hext (h'.subset (List.mem_of_mem_head? hslash))).elim

/-- A path dispatched to a command handler is guarded by the cookie exactly
when it has no static extension and the public base does not uncover it. -/
theorem cmd_guarded_iff (P : Primitives) (m : Method) (path base : Str) (h : Handler)
    (hd : dispatch m path = .cmd h) : Guarded P path base ↔ NotExempt path base := by
  have hapi : "/api/".toList <+: path := api_prefix_of_dispatch hd
  have habs : path.head? = some '/' := by
    obtain ⟨t, rfl⟩ := hapi
    rfl
  rw [guarded_iff, isStaticResource, isStaticPath_eq_false_iff]
  rcases stripPublicBase_eq base habs with ⟨rest, hcut, hstrip⟩ | ⟨hno, hstrip⟩
  · rw [hstrip]
    by_cases hrest : rest = []
    · -- the path is the base itself and is taken for the root page
      subst hrest
      constructor
      · rintro ⟨-, hk⟩
        exact absurd hk (by decide)
      · rintro ⟨-, hk⟩
        exact absurd (hk [] hcut) (by decide)
    · have hslash : rest.head? = some '/' := hcut.2.resolve_left hrest
      have hexts : ∀ ext ∈ staticExtensions, '/' ∉ ext := by decide
      rw [if_neg hrest, NotExempt]
      have hsuf : (∀ ext ∈ staticExtensions, ¬ ext <:+ rest) ↔
          ∀ ext ∈ staticExtensions, ¬ ext <:+ path := by
        refine forall₂_congr fun ext he => not_congr ?_
        rw [hcut.1]
        exact suffix_rest_iff (hexts ext he) hslash
      rw [hsuf]
      refine and_congr_right fun _ => ⟨?_, fun hk => hk rest hcut⟩
      intro hk r hr
      rwa [hr.unique hcut]
  · rw [hstrip, NotExempt]
    refine and_congr_right fun _ => ⟨fun _ r hr => (hno r hr).elim, fun _ => .inl hapi⟩

theorem ping_guarded :
    dispatch .get "/api/cmd/ping".toList = .cmd .pingHandler ∧
      Guarded ⟨id, fun _ => id⟩ "/api/cmd/ping".toList "/".toList := by
  refine ⟨by decide, ?_⟩
  refine (cmd_guarded_iff _ .get _ _ .pingHandler (by decide)).2 ⟨by decide, ?_⟩
  rintro rest ⟨hcut, -⟩
  have hrest : rest = "/api/cmd/ping".toList := hcut.symm
  rw [hrest]
  decide

/-- A free path parameter that ends like a file name is not guarded: the logs of
a space are served without a cookie. -/
theorem static_extension_unguarded :
    dispatch .get "/api/cmd/log/space/x.js".toList = .cmd .getSpaceLogsHandler ∧
      ¬ Guarded ⟨id, fun _ => id⟩ "/api/cmd/log/space/x.js".toList "/".toList := by
  refine ⟨by decide, ?_⟩
  intro h
  have hs := h.notStatic
  revert hs
  decide

end HomeTier
