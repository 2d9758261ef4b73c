import HomeTier.Lib.Trace
import HomeTier.Lib.JsonText
import HomeTier.EasyTier.ConfigJson

/-! # Patching a stored configuration

`SpaceManager::patch_config` of `src-tauri/src/space/manager.rs` and what
`get_effective_config` makes of the column it writes. The patch is merged into
the stored JSON without looking at types and is saved before the daemon is
asked; every outcome of the database and of the daemon is an input of the call.

A column that can be read stays so, and keeps its text where the call fails,
exactly along the calls whose patch has the types of `NetworkConfig` and that
change nothing when the daemon refuses (`kept_iff_harmless`).
-/

namespace HomeTier

open Lib ConfigJson

namespace SpacePatch

/-- What comes back from `ipc_client.patch_config`. -/
inductive IpcReply where
  | ok
  | error (message : Str)
  | failed (message : Str)
deriving DecidableEq, Repr

/-- A call, with whether the row can be read and written. -/
structure PatchCall where
  patch : Json
  valid : patch.Valid Json.nestingLimit
  dbRead : Bool
  dbWrite : Bool
  reply : IpcReply

/-- The entries of the patch replace those of the configuration. -/
def mergePatch : Json → Json → Json
  | .obj kvs, .obj entries => .obj (insertEntries entries kvs)
  | config, _ => config

/-- The part of `patch_config` before the daemon is asked; `none` is a column
without a text. -/
def savePatch (J : JsonText) (stored : Option Str) (call : PatchCall) : Option Str :=
  if call.dbRead then
    match stored with
    | none => none
    | some existing =>
      match J.parse existing with
      | none => stored
      | some config =>
        if call.dbWrite then some (J.print (mergePatch config call.patch)) else stored
  else stored

def replyResult : IpcReply → Except Str Unit
  | .ok => .ok ()
  | .error message => .error message
  | .failed message => .error message

/-- `SpaceManager::patch_config` -/
def patchConfig (J : JsonText) (stored : Option Str) (call : PatchCall) :
    Option Str × Except Str Unit :=
  (savePatch J stored call, replyResult call.reply)

def step (J : JsonText) (stored : Option Str) (call : PatchCall) : Option (Option Str) :=
  some (patchConfig J stored call).1

theorem step_eq (J : JsonText) (stored : Option Str) (call : PatchCall) :
    step J stored call = some (savePatch J stored call) := rfl

/-! ## `get_effective_config` -/

/-- What a space adds to its configuration. -/
structure Identity where
  networkName : Str
  networkSecret : Str
deriving DecidableEq, Repr

/-- A text that takes the place of an empty one. -/
def fillEmpty (s : Str) : ConfigData → ConfigData
  | .str [] => .str s
  | d => d

def fillIdentity (space : Identity) (cfg : ConfigData) : ConfigData :=
  modifyField "network_secret".toList (fillEmpty space.networkSecret)
    (modifyField "network_name".toList (fillEmpty space.networkName) cfg)

/-- The configuration of a space that has none. -/
def fallbackConfig (fresh : Str) (space : Identity) : ConfigData :=
  modifyField "dhcp".toList (fun _ => .bool true)
    (modifyField "network_secret".toList (fun _ => .str space.networkSecret)
      (modifyField "network_name".toList (fun _ => .str space.networkName) (defaultConfig fresh)))

inductive Effective where
  | ok (cfg : ConfigData)
  | error (message : Str)
  | panic

/-- `get_effective_config` of a space, if it is there, and its column, if the
database gives it. -/
def getEffectiveConfig (J : JsonText) (fresh : Str) (space : Option Identity)
    (column : Except Str (Option Str)) : Effective :=
  match space, column with
  | none, _ => .error "Space not found".toList
  | some _, .error e => .error ("读取空间配置失败: ".toList ++ e)
  | some space, .ok none => .ok (fallbackConfig fresh space)
  | some space, .ok (some json) =>
    match fromConfigJson J fresh json with
    | .ok cfg => .ok (fillIdentity space cfg)
    | .error => .ok (fallbackConfig fresh space)
    | .panic => .panic

/-! ## Readable columns -/

variable {J : JsonText}

/-- The column can be read, whatever id `Default` draws. -/
def Readable (J : JsonText) (text : Str) : Prop :=
  ∀ fresh, ∃ cfg, fromConfigJson J fresh text = .ok cfg

/-- The column can be read, and the effective configuration of every space is
what is read. -/
def Kept (J : JsonText) (stored : Option Str) : Prop :=
  ∃ text, stored = some text ∧ ∀ fresh, ∃ cfg, fromConfigJson J fresh text = .ok cfg ∧
    ∀ space, getEffectiveConfig J fresh (some space) (.ok stored) = .ok (fillIdentity space cfg)

theorem kept_iff {stored : Option Str} :
    Kept J stored ↔ ∃ text, stored = some text ∧ Readable J text := by
  constructor
  · rintro ⟨text, hstored, h⟩
    refine ⟨text, hstored, ?_⟩
    intro fresh
    rcases h fresh with ⟨cfg, hcfg, -⟩
    exact ⟨cfg, hcfg⟩
  · rintro ⟨text, rfl, h⟩
    refine ⟨text, rfl, ?_⟩
    intro fresh
    rcases h fresh with ⟨cfg, hcfg⟩
    refine ⟨cfg, hcfg, ?_⟩
    intro space
    simp only [getEffectiveConfig, hcfg]

theorem readable_iff_of_parse {text : Str} {v : Json} (h : J.parse text = some v) :
    Readable J text ↔ ∀ fresh, (readConfig fresh v).isSome = true := by
  apply forall_congr'
  intro fresh
  simp only [fromConfigJson_eq_ok_iff h, Option.isSome_iff_exists]

/-! ## One call -/

theorem valid_mergePatch {d : Nat} {config patch : Json} (hconfig : config.Valid d)
    (hpatch : patch.Valid d) : (mergePatch config patch).Valid d := by
  cases hconfig with
  | obj hsorted h =>
    cases hpatch with
    | obj hsorted' h' => exact Json.valid_insertEntries h' (Json.Valid.obj hsorted h)
    | _ => exact Json.Valid.obj hsorted h
  | null => exact Json.Valid.null
  | bool b => exact Json.Valid.bool b
  | int h => exact Json.Valid.int h
  | float h => exact Json.Valid.float h
  | str s => exact Json.Valid.str s
  | arr h => exact Json.Valid.arr h

/-- The row is read and written. -/
def PatchCall.Saves (call : PatchCall) : Prop := call.dbRead = true ∧ call.dbWrite = true

/-- Either nothing is saved, or the merged value is. -/
theorem savePatch_cases (text : Str) (call : PatchCall) :
    ((¬ call.Saves ∨ J.parse text = none) ∧ savePatch J (some text) call = some text) ∨
      ∃ config, call.Saves ∧ J.parse text = some config ∧
        savePatch J (some text) call = some (J.print (mergePatch config call.patch)) := by
  cases hread : call.dbRead with
  | false => exact Or.inl ⟨Or.inl (by simp [PatchCall.Saves, hread]), by simp [savePatch, hread]⟩
  | true =>
    cases hconfig : J.parse text with
    | none => exact Or.inl ⟨Or.inr rfl, by simp [savePatch, hread, hconfig]⟩
    | some config =>
      cases hwrite : call.dbWrite with
      | false =>
        exact Or.inl ⟨Or.inl (by simp [PatchCall.Saves, hwrite]),
          by simp [savePatch, hread, hconfig, hwrite]⟩
      | true =>
        exact Or.inr ⟨config, ⟨hread, hwrite⟩, rfl, by simp [savePatch, hread, hconfig, hwrite]⟩

/-- Where the patch is merged, each entry for a field has the type of the field. -/
def Fits (J : JsonText) (stored : Option Str) (call : PatchCall) : Prop :=
  call.Saves → ∀ text kvs entries, stored = some text → J.parse text = some (.obj kvs) →
    call.patch = .obj entries →
      ∀ e ∈ entries, ∀ p ∈ configTypes, p.1 = e.1 → (p.2.read e.2).isSome = true

/-- A value that can be read is still read after the merge exactly if the
entries have their types. -/
theorem mergePatch_read_iff {kvs entries : List (Str × Json)} (hentries : Sorted entries)
    (hread : ∀ fresh, (readConfig fresh (.obj kvs)).isSome = true) :
    (∀ fresh, (readConfig fresh (.obj (insertEntries entries kvs))).isSome = true) ↔
      ∀ e ∈ entries, ∀ p ∈ configTypes, p.1 = e.1 → (p.2.read e.2).isSome = true := by
  simp only [readConfig_obj_isSome_iff] at hread ⊢
  constructor
  · intro h e he p hp hname
    apply h [] p hp
    rw [lookup_insertEntries hentries.nodup, hname, lookup_of_mem hentries.nodup he]
    rfl
  · intro h fresh p hp v hv
    rw [lookup_insertEntries hentries.nodup] at hv
    cases hentry : entries.lookup p.1 with
    | none =>
      rw [hentry] at hv
      exact hread fresh p hp v hv
    | some v' =>
      rw [hentry] at hv
      cases hv
      exact h (p.1, v) (mem_of_lookup hentry) p hp rfl

theorem readable_print_iff {v : Json} (hv : v.Valid Json.nestingLimit) :
    Readable J (J.print v) ↔ ∀ fresh, (readConfig fresh v).isSome = true :=
  readable_iff_of_parse (J.parse_print v hv)

/-- Step lemma: a column that can be read stays so exactly if the patch fits. -/
theorem kept_savePatch_iff {stored : Option Str} (h : Kept J stored) (call : PatchCall) :
    Kept J (savePatch J stored call) ↔ Fits J stored call := by
  rcases kept_iff.1 h with ⟨text, rfl, hread⟩
  rcases savePatch_cases (J := J) text call with ⟨hnot, hsame⟩ | ⟨config, hsaves, hconfig, hsaved⟩
  · -- nothing is saved
    rw [hsame]
    refine ⟨fun _ => ?_, fun _ => h⟩
    intro hsaves text' kvs entries htext hkvs
    cases htext
    rcases hnot with hnot | hnone
    · exact absurd hsaves hnot
    · rw [hnone] at hkvs
      cases hkvs
  · have hvalid := J.parse_valid text config hconfig
    have hmerged : Kept J (savePatch J (some text) call) ↔
        ∀ fresh, (readConfig fresh (mergePatch config call.patch)).isSome = true := by
      rw [hsaved, kept_iff, ← readable_print_iff (J := J) (valid_mergePatch hvalid call.valid)]
      simp
    rw [hmerged]
    have hbefore := (readable_iff_of_parse hconfig).1 hread
    by_cases hobj : ∃ kvs entries, config = .obj kvs ∧ call.patch = .obj entries
    · rcases hobj with ⟨kvs, entries, rfl, hpatch⟩
      have hentries : Sorted entries := by
        have := call.valid
        rw [hpatch] at this
        exact Json.sorted_of_valid this
      rw [hpatch]
      show (∀ fresh, (readConfig fresh (.obj (insertEntries entries kvs))).isSome = true) ↔ _
      rw [mergePatch_read_iff hentries hbefore]
      constructor
      · intro hfits _ text' kvs' entries' htext hkvs hpatch'
        rw [hpatch] at hpatch'
        cases hpatch'
        exact hfits
      · intro hfits
        exact hfits hsaves text kvs entries rfl hconfig hpatch
    · -- the merge changes nothing
      have hsame : mergePatch config call.patch = config := by
        cases config <;> cases hpatch : call.patch <;> try rfl
        exact absurd ⟨_, _, rfl, hpatch⟩ hobj
      rw [hsame]
      refine ⟨fun _ => ?_, fun _ => hbefore⟩
      intro _ text' kvs entries htext hkvs hpatch
      cases htext
      rw [hconfig] at hkvs
      cases hkvs
      exact absurd ⟨kvs, entries, rfl, hpatch⟩ hobj

/-- Where the call fails, the patch is not saved or is in the stored text
already, which is as it would be printed. -/
def Quiet (J : JsonText) (stored : Option Str) (call : PatchCall) : Prop :=
  call.reply = .ok ∨ ¬ call.Saves ∨
    ∀ text config, stored = some text → J.parse text = some config →
      text = J.print config ∧
        ∀ kvs entries, config = .obj kvs → call.patch = .obj entries →
          ∀ e ∈ entries, kvs.lookup e.1 = some e.2

/-- A call that fails leaves the column as it is. -/
def FailureKeeps (J : JsonText) (stored : Option Str) (call : PatchCall) : Prop :=
  ∀ message, (patchConfig J stored call).2 = .error message →
    (patchConfig J stored call).1 = stored

theorem mergePatch_eq_self_iff {d : Nat} {config patch : Json} (hconfig : config.Valid d)
    (hpatch : patch.Valid d) :
    mergePatch config patch = config ↔
      ∀ kvs entries, config = .obj kvs → patch = .obj entries →
        ∀ e ∈ entries, kvs.lookup e.1 = some e.2 := by
  by_cases hobj : ∃ kvs entries, config = .obj kvs ∧ patch = .obj entries
  · rcases hobj with ⟨kvs, entries, rfl, rfl⟩
    have hself := insertEntries_eq_self_iff (Json.sorted_of_valid hpatch).nodup
      (Json.sorted_of_valid hconfig)
    constructor
    · intro h kvs' entries' hkvs hentries
      cases hkvs
      cases hentries
      exact hself.1 (Json.obj.inj h)
    · intro h
      show Json.obj _ = _
      rw [hself.2 (h kvs entries rfl rfl)]
  · constructor
    · intro _ kvs entries hkvs hentries
      exact absurd ⟨kvs, entries, hkvs, hentries⟩ hobj
    · intro _
      cases config <;> cases patch <;> try rfl
      exact absurd ⟨_, _, rfl, rfl⟩ hobj

theorem savePatch_eq_self_iff {text : Str} {config : Json} {call : PatchCall}
    (hsaves : call.Saves) (hconfig : J.parse text = some config) :
    savePatch J (some text) call = some text ↔
      text = J.print config ∧ mergePatch config call.patch = config := by
  rcases savePatch_cases (J := J) text call with ⟨hnot, -⟩ | ⟨config', -, hconfig', hsaved⟩
  · rcases hnot with hnot | hnone
    · exact absurd hsaves hnot
    · rw [hconfig] at hnone
      cases hnone
  · rw [hconfig] at hconfig'
    cases hconfig'
    have hvalid := J.parse_valid text config hconfig
    rw [hsaved, Option.some_inj]
    constructor
    · intro htext
      -- the text is read as what was printed
      have hread := J.parse_print _ (valid_mergePatch hvalid call.valid)
      rw [htext, hconfig, Option.some_inj] at hread
      rw [← hread] at htext
      exact ⟨htext.symm, hread.symm⟩
    · rintro ⟨htext, hmerge⟩
      rw [hmerge]
      exact htext.symm

theorem replyResult_eq_error_iff {reply : IpcReply} :
    (∃ message, replyResult reply = .error message) ↔ reply ≠ .ok := by
  cases reply <;> simp [replyResult]

theorem savePatch_eq_stored_iff {stored : Option Str} {call : PatchCall} :
    savePatch J stored call = stored ↔ ¬ call.Saves ∨
      ∀ text config, stored = some text → J.parse text = some config →
        text = J.print config ∧
          ∀ kvs entries, config = .obj kvs → call.patch = .obj entries →
            ∀ e ∈ entries, kvs.lookup e.1 = some e.2 := by
  constructor
  · intro h
    by_cases hsaves : call.Saves
    · right
      rintro text config rfl hconfig
      rcases (savePatch_eq_self_iff hsaves hconfig).1 h with ⟨htext, hmerge⟩
      exact ⟨htext,
        (mergePatch_eq_self_iff (J.parse_valid text config hconfig) call.valid).1 hmerge⟩
    · exact Or.inl hsaves
  · intro h
    cases stored with
    | none => simp [savePatch]
    | some text =>
      rcases savePatch_cases (J := J) text call with ⟨-, hsame⟩ | ⟨config, hsaves, hconfig, -⟩
      · exact hsame
      · rcases h with hnot | hall
        · exact absurd hsaves hnot
        · rcases hall text config rfl hconfig with ⟨htext, hentries⟩
          exact (savePatch_eq_self_iff hsaves hconfig).2 ⟨htext,
            (mergePatch_eq_self_iff (J.parse_valid text config hconfig) call.valid).2 hentries⟩

/-- Step lemma: a call that fails leaves the column exactly if it is quiet. -/
theorem failureKeeps_iff {stored : Option Str} {call : PatchCall} :
    FailureKeeps J stored call ↔ Quiet J stored call := by
  have hfails : FailureKeeps J stored call ↔
      (call.reply ≠ .ok → savePatch J stored call = stored) := by
    rw [← replyResult_eq_error_iff]
    simp [FailureKeeps, patchConfig]
  rw [hfails, Quiet, savePatch_eq_stored_iff]
  exact Classical.or_iff_not_imp_left.symm

/-! ## Runs -/

/-- The patch fits, and nothing changes where the call fails. -/
def Harmless (J : JsonText) (stored : Option Str) (call : PatchCall) : Prop :=
  Fits J stored call ∧ Quiet J stored call

/-- Along a run the column can always be read and calls that fail keep it,
exactly if every call is harmless where it is made. -/
theorem kept_iff_harmless {J : JsonText} {stored : Option Str} (h : Kept J stored)
    (calls : List PatchCall) :
    (Always (step J) (Kept J) stored calls ∧ Along (step J) (FailureKeeps J) stored calls) ↔
      Along (step J) (Harmless J) stored calls := by
  have hkept : Always (step J) (Kept J) stored calls ↔ Along (step J) (Fits J) stored calls := by
    apply always_iff_along (J := fun _ => True)
    · intro _ _ _ _ _
      trivial
    · intro s call s' _ hs hstep
      cases hstep
      exact kept_savePatch_iff hs call
    · trivial
    · exact h
  have hfails : FailureKeeps J = Quiet J := by
    funext s call
    exact propext failureKeeps_iff
  rw [hkept, hfails]
  exact along_and.symm

theorem valid_singleton {d : Nat} {key : Str} {v : Json} (h : v.Valid d) :
    (Json.obj [(key, v)]).Valid (d + 1) :=
  Json.Valid.obj (by simp [Sorted]) (by simpa using h)

theorem valid_empty : (Json.obj []).Valid Json.nestingLimit :=
  Json.Valid.obj sorted_nil (by simp)

theorem valid_setPatch {key : Str} {v : Json} (h : v.Valid 126) :
    (Json.obj [(key, v)]).Valid Json.nestingLimit :=
  valid_singleton h

/-- A call that sets one key. -/
def setCall (key : Str) (v : Json) (h : v.Valid 126) (reply : IpcReply) : PatchCall :=
  ⟨.obj [(key, v)], valid_setPatch h, true, true, reply⟩

/-- A column with an empty object. -/
def emptyColumn : Option Str := some "\x7b\x7d".toList

theorem parse_emptyColumn : JsonText.compact.parse "\x7b\x7d".toList = some (.obj []) :=
  JsonText.compact.parse_print (.obj []) valid_empty

theorem kept_emptyColumn : Kept JsonText.compact emptyColumn := by
  rw [kept_iff]
  refine ⟨_, rfl, (readable_iff_of_parse parse_emptyColumn).2 ?_⟩
  intro fresh
  rw [readConfig_obj_isSome_iff]
  simp

theorem fits_setCall {stored : Option Str} {key : Str} {v : Json} {hv : v.Valid 126}
    {reply : IpcReply} (h : ∀ p ∈ configTypes, p.1 = key → (p.2.read v).isSome = true) :
    Fits J stored (setCall key v hv reply) := by
  intro _ text kvs entries _ _ hpatch e he p hp hname
  cases hpatch
  obtain rfl : e = (key, v) := by simpa using he
  exact h p hp hname

/-- DHCP is switched off, and once more by a call that fails. -/
theorem kept_iff_harmless_dhcp :
    let off := setCall "dhcp".toList (.bool false) (.bool false)
    let calls := [off .ok, off (.failed "timeout".toList)]
    Kept JsonText.compact emptyColumn ∧
      Always (step JsonText.compact) (Kept JsonText.compact) emptyColumn calls ∧
      Along (step JsonText.compact) (FailureKeeps JsonText.compact) emptyColumn calls := by
  have hfits : ∀ p ∈ configTypes, p.1 = "dhcp".toList → (p.2.read (.bool false)).isSome = true :=
    forall_mem_of_all (by decide)
  have hsaved : savePatch JsonText.compact emptyColumn
      (setCall "dhcp".toList (.bool false) (.bool false) .ok) =
      some (JsonText.compact.print (.obj [("dhcp".toList, .bool false)])) := by
    simp only [savePatch, emptyColumn, setCall, if_true, parse_emptyColumn]
    rfl
  refine ⟨kept_emptyColumn, (kept_iff_harmless kept_emptyColumn _).2 ?_⟩
  rw [along_cons (step_eq _ _ _), along_cons (step_eq _ _ _), hsaved]
  refine ⟨⟨fits_setCall hfits, Or.inl rfl⟩, ⟨fits_setCall hfits, Or.inr (Or.inr ?_)⟩, trivial⟩
  -- what the second call sets is there already
  intro text config htext hconfig
  cases htext
  rw [JsonText.compact.parse_print _ (valid_singleton (.bool false))] at hconfig
  cases hconfig
  refine ⟨rfl, ?_⟩
  intro kvs entries hkvs hentries e he
  cases hkvs
  cases hentries
  obtain rfl : e = ("dhcp".toList, .bool false) := by simpa using he
  simp

/-- A text for `dhcp` makes the column unreadable, and a call that fails has
saved its patch. -/
theorem patched_column_is_unreadable :
    Kept JsonText.compact emptyColumn ∧
      ¬ Always (step JsonText.compact) (Kept JsonText.compact) emptyColumn
        [setCall "dhcp".toList (.str "on".toList) (.str _) .ok] ∧
      ¬ Along (step JsonText.compact) (FailureKeeps JsonText.compact) emptyColumn
        [setCall "hostname".toList (.str "home".toList) (.str _) (.failed "timeout".toList)] := by
  refine ⟨kept_emptyColumn, ?_, ?_⟩
  · intro h
    have hkept := always_head ((always_cons (step_eq _ _ _) _).1 h).2
    have hfits := (kept_savePatch_iff kept_emptyColumn _).1 hkept
    have hread := hfits ⟨rfl, rfl⟩ _ _ _ rfl parse_emptyColumn rfl _ List.mem_cons_self
      ("dhcp".toList, .scalar .bool) (by decide) rfl
    cases hread
  · intro h
    have hquiet := failureKeeps_iff.1 ((along_cons (step_eq _ _ _) _).1 h).1
    rcases hquiet with hok | hnot | hthere
    · cases hok
    · exact hnot ⟨rfl, rfl⟩
    · have hlookup := (hthere _ _ rfl parse_emptyColumn).2 _ _ rfl rfl _ List.mem_cons_self
      cases hlookup

end SpacePatch

end HomeTier
