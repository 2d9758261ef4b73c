import HomeTier.Space.Identity
import HomeTier.Space.PatchAgreement

/-! # Without the JSON copy

Where the JSON copy of a configuration is missing, `read_network_config` of
`src-tauri/src/easytier/mod.rs` looks through the TOML text for the identity. It passes
over the lines before `[network_identity]` and takes the lines from there on while they
do not begin with `[`. The header is the first of these lines and ends the search.

So the fallback finds the identity of a network only where it is the one of
`NetworkConfig::default()` (`fallback_recovers_iff`).
-/

namespace HomeTier

open Lib ConfigJson

namespace SpacePatch

/-- `generate_config` writes the text, which can be read again. -/
structure DaemonEnv.Keeps (env : DaemonEnv) (toml : Str) : Prop where
  dumped : env.dumped = .ok toml
  createDir : env.createDirError = none
  writeToml : env.writeTomlError = none
  writeJson : env.writeJsonError = none
  readToml : env.tomlReadError = none

/-- Without the JSON copy the configuration that was written is read with its name and
its secret. -/
def Recovers (env : DaemonEnv) (files : Files) (cfg : ConfigData) : Prop :=
  ∃ found, readNetworkConfig env ⟨none, (generateConfig env files cfg).1.toml⟩ = .ok found ∧
    identityOf found = identityOf cfg

/-- The identity of `NetworkConfig::default()`. -/
def defaultIdentity : Identity where
  networkName := libraryName
  networkSecret := []

variable {env : DaemonEnv} {toml : Str}

theorem identityOf_defaultConfig (fresh : Str) :
    identityOf (defaultConfig fresh) = defaultIdentity := by
  rw [identityOf, textField_eq (getField_default_name fresh),
    textField_eq (getField_default_secret fresh)]
  rfl

/-- Whatever the text is, the fallback reads the default configuration. -/
theorem readNetworkConfig_toml (h : env.tomlReadError = none) (toml : Str) :
    readNetworkConfig env ⟨none, some toml⟩ = .ok (defaultConfig env.fresh) := by
  rw [readNetworkConfig]
  simp only [h, identityLines_eq_nil, List.foldl_nil]

theorem generateConfig_toml (h : env.Keeps toml) (files : Files) (cfg : ConfigData) :
    (generateConfig env files cfg).1.toml = some toml := by
  rw [generateConfig, h.dumped, h.createDir, h.writeToml, h.writeJson]

/-- The fallback recovers the identity of a network exactly when that is the default
one. -/
theorem fallback_recovers_iff (h : env.Keeps toml) (files : Files) (cfg : ConfigData) :
    Recovers env files cfg ↔ identityOf cfg = defaultIdentity := by
  rw [Recovers, generateConfig_toml h, readNetworkConfig_toml h.readToml,
    ← identityOf_defaultConfig env.fresh]
  constructor
  · rintro ⟨found, hfound, hidentity⟩
    cases hfound
    exact hidentity.symm
  · intro hidentity
    exact ⟨_, rfl, hidentity.symm⟩

/-- The text of a network called `home`. -/
def homeToml : Str :=
  "instance_name = \"default\"\n\n[network_identity]\nnetwork_name = \"home\"\nnetwork_secret = \"pass\"\n".toList

def homeEnv : DaemonEnv where
  fresh := []
  jsonReadError := none
  serdeError := []
  tomlPath := "home.toml".toList
  tomlReadError := none
  dumped := .ok homeToml
  createDirError := none
  writeTomlError := none
  writeJsonError := none
  runError := none

theorem homeEnv_keeps : homeEnv.Keeps homeToml := ⟨rfl, rfl, rfl, rfl, rfl⟩

/-- A static address in the default network. -/
def addressedConfig : ConfigData :=
  modifyField "virtual_ipv4".toList (fun _ => .str "10.126.126.2".toList) (defaultConfig [])

/-- The default network is the one that is found, also behind another configuration. -/
theorem addressed_recovered :
    (Recovers homeEnv ⟨some .broken, some []⟩ addressedConfig ↔
      identityOf addressedConfig = defaultIdentity) ∧ identityOf addressedConfig = defaultIdentity :=
  ⟨fallback_recovers_iff homeEnv_keeps ⟨some .broken, some []⟩ addressedConfig, rfl⟩

/-- The network `home` is read as the default network. -/
theorem home_not_recovered : ¬ ∀ (env : DaemonEnv) (toml : Str), env.Keeps toml →
    ∀ (files : Files) (cfg : ConfigData), Recovers env files cfg := by
  intro hall
  rcases hall homeEnv homeToml homeEnv_keeps ⟨none, none⟩
    (fallbackConfig [] ⟨"home".toList, "pass".toList⟩) with ⟨found, hfound, hidentity⟩
  rw [generateConfig_toml homeEnv_keeps, readNetworkConfig_toml rfl] at hfound
  cases hfound
  rw [identityOf_defaultConfig, identityOf_fallbackConfig] at hidentity
  have hname : libraryName = "home".toList := congrArg Identity.networkName hidentity
  exact absurd hname (by decide)

end SpacePatch

end HomeTier
