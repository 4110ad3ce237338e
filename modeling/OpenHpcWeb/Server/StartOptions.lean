/-
  What a start asks of the options, one by one.

  `startup` reads the options in turn, parses them and hands the configurations to the
  integrations. Where the files are in order it succeeds exactly when each option of an
  enabled integration can be read and has a value that `startAccepts`, and the bind DNs go
  with their passwords (`Starts`).

  * `startup_isOk_iff`: this characterisation.
-/
import OpenHpcWeb.Lib.Checks
import OpenHpcWeb.Server.Startup

namespace OpenHpcWeb.Server

open OpenHpcWeb.Go OpenHpcWeb.Lib OpenHpcWeb.Platform

/-! ## Integrations -/

section Integrations

variable {m : Machine}

theorem validateDN_required_iff {name value : String} :
    (validateDN m name value true).isOk = true ↔ value ≠ "" ∧ m.parseDN value = true := by
  unfold validateDN
  split
  · next hempty => simp [hempty]
  · next hvalue =>
    rw [isOk_check_iff]
    simp [hvalue]

theorem validateDN_optional_iff {name value : String} :
    (validateDN m name value false).isOk = true ↔ value = "" ∨ m.parseDN value = true := by
  unfold validateDN
  split
  · next hempty => simp [hempty]
  · next hvalue =>
    rw [isOk_check_iff]
    simp [hvalue]

theorem directoryNew_isOk_iff (config : DirectoryConfig) :
    (directoryNew m config).isOk = true ↔ (validateDirectoryConfig m config).isOk = true := by
  simp [directoryNew, isOk_then_iff]

theorem validateAddress_trim {address : String} (h : (validateAddress address).isOk = true) :
    address ≠ "" ∧ trimSpace address = address := by
  rw [validateAddress, isOk_check_iff] at h
  simp only [not_or, not_not] at h
  exact ⟨h.1.1, h.1.2.1⟩

theorem terminalNew_isOk_iff (config : TerminalConfig) :
    (terminalNew config).isOk = true ↔ (validateAddress config.address).isOk = true ∧
      (config.timeout = 0 ∨ second ≤ config.timeout ∧ config.timeout ≤ minute) := by
  have htimeout : ¬ ((if config.timeout = 0 then defaultTerminalTimeout else config.timeout) <
        second ∨
      (if config.timeout = 0 then defaultTerminalTimeout else config.timeout) > minute) ↔
      config.timeout = 0 ∨ second ≤ config.timeout ∧ config.timeout ≤ minute := by
    split <;> simp only [defaultTerminalTimeout, minute, second] <;> omega
  simp only [terminalNew, isOk_then_iff, isOk_check_iff, htimeout, isOk_ok, and_true]

variable (hfiles : m.FilesValid)
include hfiles

theorem slurmNew_isOk_iff (config : SlurmConfig) :
    (slurmNew m config).isOk = true ↔ absoluteClean config.binaryDir = true ∧
      (0 < config.timeout ∧ config.timeout ≤ 30 * second) ∧
      (0 < config.maxOutputBytes.val ∧ config.maxOutputBytes.val ≤ maxOutputBytes) ∧
      0 ≤ config.cacheTTL ∧ config.cacheTTL ≤ minute := by
  have hcommands : (slurmCommands.forM fun command =>
      m.slurmExecutable (cleanPath (config.binaryDir ++ "/" ++ command))).isOk = true :=
    isOk_forM_iff.mpr fun command _ => by rw [hfiles.1]; rfl
  have httl : ¬ ((if config.cacheTTL = 0 then defaultCacheTTL else config.cacheTTL) < 0 ∨
      (if config.cacheTTL = 0 then defaultCacheTTL else config.cacheTTL) > maxCacheTTL) ↔
      0 ≤ config.cacheTTL ∧ config.cacheTTL ≤ minute := by
    split <;> simp only [defaultCacheTTL, maxCacheTTL, minute, second] <;> omega
  simp only [slurmNew, isOk_check_iff, isOk_then_iff, hcommands, isOk_ok, httl, maxCommandTimeout,
    not_not, not_or, not_le, gt_iff_lt, not_lt, and_true]

theorem validateRoots_isOk_iff {config : DirectoryConfig} :
    (validateRoots m config).isOk = true ↔
      config.caFile = "" ∨ absoluteClean config.caFile = true := by
  unfold validateRoots
  split
  · next hempty => simp [hempty]
  · next hfile => simp [isOk_check_iff, hfiles.2.1, hfiles.2.2, hfile]

theorem validateDirectoryConfig_isOk_iff (config : DirectoryConfig) :
    (validateDirectoryConfig m config).isOk = true ↔
      validEndpoint m config.allowInsecure config.url = true ∧
      (config.baseDN ≠ "" ∧ m.parseDN config.baseDN = true) ∧
      (config.userBaseDN = "" ∨ m.parseDN config.userBaseDN = true) ∧
      (config.groupBaseDN = "" ∨ m.parseDN config.groupBaseDN = true) ∧
      (config.bindDN = "" ∨ m.parseDN config.bindDN = true) ∧
      (config.provisionBindDN = "" ∨ m.parseDN config.provisionBindDN = true) ∧
      (config.bindDN = "" ↔ config.bindPassword = "") ∧
      (config.provisionBindDN = "" ↔ config.provisionBindPassword = "") ∧
      (0 < config.timeout ∧ config.timeout ≤ 30 * second) ∧
      (0 < config.maxResults.val ∧ config.maxResults.val ≤ maxLDAPResults) ∧
      ((m.parseURL config.url).map URL.scheme ≠ some "ldap" →
        config.caFile = "" ∨ absoluteClean config.caFile = true) := by
  have hroots : (if (m.parseURL config.url).map URL.scheme = some "ldap" then .ok ()
      else validateRoots m config : Except String Unit).isOk = true ↔
      ((m.parseURL config.url).map URL.scheme ≠ some "ldap" →
        config.caFile = "" ∨ absoluteClean config.caFile = true) := by
    split
    · next hldap => simp [hldap]
    · next hldap => simp [hldap, validateRoots_isOk_iff hfiles]
  simp only [validateDirectoryConfig, isOk_check_iff, isOk_then_iff,
    validateDN_required_iff, validateDN_optional_iff, hroots, not_not, ne_eq, eq_iff_iff, not_or,
    not_le, gt_iff_lt, not_lt, maxLDAPTimeout]

end Integrations

/-! ## Options -/

def slurmOptions : List String :=
  ["OPENHPC_SLURM_BIN_DIR", "OPENHPC_SLURM_TIMEOUT", "OPENHPC_SLURM_MAX_OUTPUT",
    "OPENHPC_SLURM_CACHE_TTL"]

def ldapOptions : List String :=
  ["OPENHPC_LDAP_URL", "OPENHPC_LDAP_BASE_DN", "OPENHPC_LDAP_USER_BASE_DN",
    "OPENHPC_LDAP_GROUP_BASE_DN", "OPENHPC_LDAP_BIND_DN", "OPENHPC_LDAP_BIND_PASSWORD",
    "OPENHPC_LDAP_PROVISION_BIND_DN", "OPENHPC_LDAP_PROVISION_BIND_PASSWORD",
    "OPENHPC_LDAP_CA_FILE", "OPENHPC_LDAP_TIMEOUT", "OPENHPC_LDAP_MAX_RESULTS"]

def terminalOptions : List String := ["OPENHPC_TERMINAL_SSH_ADDRESS", "OPENHPC_TERMINAL_TIMEOUT"]

/-- The defaults of main. -/
def settingDefaults : List (String × String) :=
  [("OPENHPC_SLURM_BIN_DIR", "/usr/local/bin"), ("OPENHPC_SLURM_TIMEOUT", "3s"),
    ("OPENHPC_SLURM_MAX_OUTPUT", "2097152"), ("OPENHPC_SLURM_CACHE_TTL", "10s"),
    ("OPENHPC_LDAP_TIMEOUT", "3s"), ("OPENHPC_LDAP_MAX_RESULTS", "200"),
    ("OPENHPC_TERMINAL_TIMEOUT", "10s")]

/-- The value of an option without the database. -/
def fallback (m : Machine) (key : String) : String :=
  envOr m key ((settingDefaults.lookup key).getD "")

/-- The value of an option at a start. -/
def effective (m : Machine) (cipher : Cipher) (store : SettingsStore) (key : String) :
    Except String String :=
  settingValue cipher store key (fallback m key)

/-- The value of an option that is no secret. -/
def plainValue (m : Machine) (store : SettingsStore) (key : String) : String :=
  match store.rows key with
  | none => fallback m key
  | some raw => textOf raw

/-! ## Reading -/

section Reading

variable {m : Machine} {cipher : Cipher} {store : SettingsStore}

/-- An option that is no secret can be read. -/
theorem effective_plain {key : String} (hkey : (key, false) ∈ settingSchema) :
    effective m cipher store key = .ok (plainValue m store key) := by
  have hvalid : validateSettingKey key = .ok () := validateSettingKey_schema _ hkey
  have hplain : ∀ entry ∈ settingSchema, isSecretSetting entry.1 = entry.2 := by decide +kernel
  have hsecret : isSecretSetting key = false := hplain _ hkey
  cases hrow : store.rows key with
  | none =>
    simp [effective, settingValue, SettingsStore.get, hvalid, hrow, plainValue, bind, Except.bind]
  | some raw =>
    simp [effective, settingValue, SettingsStore.get, hvalid, hrow, hsecret, plainValue, bind,
      Except.bind]

theorem envOr_empty (key : String) : envOr m key "" = m.getenv key := by
  unfold envOr
  split
  · rfl
  · next h => exact (not_not.mp h).symm

/-- Without a default the environment alone is behind the database. -/
theorem settingValue_getenv {key : String} (hkey : settingDefaults.lookup key = none) :
    settingValue cipher store key (m.getenv key) = effective m cipher store key := by
  rw [effective, fallback, hkey, Option.getD_none, envOr_empty]

theorem settingValue_envOr {key alt : String} (hkey : settingDefaults.lookup key = some alt) :
    settingValue cipher store key (envOr m key alt) = effective m cipher store key := by
  rw [effective, fallback, hkey, Option.getD_some]

theorem parseIntOption_eq_ok {key v : String} {n : GoInt} :
    parseIntOption key v = .ok n ↔ parseInt v = some n := by
  unfold parseIntOption
  cases parseInt v with
  | none => simp
  | some n' => simp

theorem makeIntegration_isOk_iff {α β : Type} {name : String} {new : α → Except String β}
    {config : Option α} : (makeIntegration name new config).isOk = true ↔
      ∀ c, config = some c → (new c).isOk = true := by
  cases config with
  | none => simp [makeIntegration]
  | some c =>
    simp only [makeIntegration, Option.some.injEq, forall_eq']
    cases new c <;> rfl

end Reading

/-! ## Acceptance -/

variable [Fractions] (m : Machine)

/-- A start accepts the value of an option. The CA file is one of an `ldaps` URL. -/
def startAccepts (key value : String) : Bool :=
  if key ∈ ["OPENHPC_SLURM_TIMEOUT", "OPENHPC_LDAP_TIMEOUT"] then
    (parseDuration value).any fun d => 0 < d ∧ d ≤ 30 * second
  else if key = "OPENHPC_SLURM_CACHE_TTL" then
    (parseDuration value).any fun d => 0 ≤ d ∧ d ≤ minute
  else if key = "OPENHPC_TERMINAL_TIMEOUT" then
    (parseDuration (trimSpace value)).any fun d => d = 0 ∨ second ≤ d ∧ d ≤ minute
  else if key = "OPENHPC_SLURM_MAX_OUTPUT" then
    (parseInt value).any fun n => 0 < n.val ∧ n.val ≤ maxOutputBytes
  else if key = "OPENHPC_LDAP_MAX_RESULTS" then
    (parseInt value).any fun n => 0 < n.val ∧ n.val ≤ maxLDAPResults
  else if key = "OPENHPC_SLURM_BIN_DIR" then absoluteClean value
  else if key = "OPENHPC_LDAP_URL" then
    trimSpace value ≠ "" && validEndpoint m (allowInsecureLDAP m) (trimSpace value)
  else if key = "OPENHPC_LDAP_BASE_DN" then trimSpace value ≠ "" && m.parseDN (trimSpace value)
  else if key ∈ ["OPENHPC_LDAP_USER_BASE_DN", "OPENHPC_LDAP_GROUP_BASE_DN",
      "OPENHPC_LDAP_BIND_DN", "OPENHPC_LDAP_PROVISION_BIND_DN"] then
    trimSpace value = "" || m.parseDN (trimSpace value)
  else if key = "OPENHPC_LDAP_CA_FILE" then
    trimSpace value = "" || absoluteClean (trimSpace value)
  else if key = "OPENHPC_TERMINAL_SSH_ADDRESS" then (validateAddress (trimSpace value)).isOk
  else true

variable (value : String → Except String String)

/-- The URL is an `ldap` URL: the CA file is not looked at. -/
def PlainLDAP : Prop :=
  ∃ url, value "OPENHPC_LDAP_URL" = .ok url ∧
    (m.parseURL (trimSpace url)).map URL.scheme = some "ldap"

/-- A start comes to the check of an option of an enabled integration. -/
def Comes (key : String) : Prop := key = "OPENHPC_LDAP_CA_FILE" → ¬ PlainLDAP m value

/-- A start reads an option, and accepts it if it comes to its check. -/
def Accepted (key : String) : Prop :=
  ∃ v, value key = .ok v ∧ (Comes m value key → startAccepts m key v = true)

/-- A bind DN is there if and only if its password is. -/
def BindPair (dnKey passwordKey : String) : Prop :=
  ∃ dn password, value dnKey = .ok dn ∧ value passwordKey = .ok password ∧
    (trimSpace dn = "" ↔ password = "")

/-- A start succeeds on these values of the options. -/
structure Starts : Prop where
  slurm : value "OPENHPC_SLURM_ENABLED" = .ok "true" → ∀ key ∈ slurmOptions, Accepted m value key
  ldap : value "OPENHPC_LDAP_ENABLED" = .ok "true" → ∀ key ∈ ldapOptions, Accepted m value key
  bind : value "OPENHPC_LDAP_ENABLED" = .ok "true" →
    BindPair value "OPENHPC_LDAP_BIND_DN" "OPENHPC_LDAP_BIND_PASSWORD"
  provisionBind : value "OPENHPC_LDAP_ENABLED" = .ok "true" →
    BindPair value "OPENHPC_LDAP_PROVISION_BIND_DN" "OPENHPC_LDAP_PROVISION_BIND_PASSWORD"
  terminal : value "OPENHPC_TERMINAL_ENABLED" = .ok "true" →
    ∀ key ∈ terminalOptions, Accepted m value key

/-! ## The start -/

section Start

variable {m : Machine} {cipher : Cipher} {store : SettingsStore}
  {value : String → Except String String}

theorem accepted_ok_iff {key v : String} (hv : value key = .ok v) :
    Accepted m value key ↔ (Comes m value key → startAccepts m key v = true) := by
  constructor
  · rintro ⟨v', hv', h⟩
    obtain rfl : v = v' := Except.ok.inj (hv.symm.trans hv')
    exact h
  · exact fun h => ⟨v, hv, h⟩

theorem accepted_iff {key v : String} (hkey : key ≠ "OPENHPC_LDAP_CA_FILE")
    (hv : value key = .ok v) : Accepted m value key ↔ startAccepts m key v = true := by
  have hcomes : Comes m value key := fun hca => absurd hca hkey
  rw [accepted_ok_iff hv, forall_prop_of_true hcomes]

theorem parseDurationOption_eq_ok {key v : String} {d : Int} :
    parseDurationOption key v = .ok d ↔ parseDuration v = some d := by
  unfold parseDurationOption
  cases parseDuration v with
  | none => simp
  | some d' => simp

theorem accepted_plain {key : String} (hkey : (key, false) ∈ settingSchema)
    (hca : key ≠ "OPENHPC_LDAP_CA_FILE") : Accepted m (effective m cipher store) key ↔
      startAccepts m key (plainValue m store key) = true :=
  accepted_iff hca (effective_plain hkey)

theorem slurm_starts_iff (hfiles : m.FilesValid) {name : String} :
    (parseSlurmConfigFromStore m cipher store >>= makeIntegration name (slurmNew m)).isOk = true ↔
      (effective m cipher store "OPENHPC_SLURM_ENABLED" = .ok "true" →
        ∀ key ∈ slurmOptions, Accepted m (effective m cipher store) key) := by
  unfold parseSlurmConfigFromStore
  simp (disch := decide +kernel) only [settingValue_getenv, settingValue_envOr, effective_plain,
    ok_bind]
  by_cases hon : plainValue m store "OPENHPC_SLURM_ENABLED" = "true"
  · have haccepted : (∀ key ∈ slurmOptions, Accepted m (effective m cipher store) key) ↔
        absoluteClean (plainValue m store "OPENHPC_SLURM_BIN_DIR") = true ∧
          (∃ d, parseDuration (plainValue m store "OPENHPC_SLURM_TIMEOUT") = some d ∧
            0 < d ∧ d ≤ 30 * second) ∧
          (∃ n, parseInt (plainValue m store "OPENHPC_SLURM_MAX_OUTPUT") = some n ∧
            0 < n.val ∧ n.val ≤ maxOutputBytes) ∧
          ∃ d, parseDuration (plainValue m store "OPENHPC_SLURM_CACHE_TTL") = some d ∧
            0 ≤ d ∧ d ≤ minute := by
      simp (disch := decide +kernel) only [slurmOptions, List.forall_mem_cons, accepted_plain]
      simp [startAccepts, Option.any_eq_true]
    have hnew : ∀ t n c, (makeIntegration name (slurmNew m)
          (some ⟨plainValue m store "OPENHPC_SLURM_BIN_DIR", t, n, c⟩)).isOk = true ↔
        absoluteClean (plainValue m store "OPENHPC_SLURM_BIN_DIR") = true ∧
          (0 < t ∧ t ≤ 30 * second) ∧ (0 < n.val ∧ n.val ≤ maxOutputBytes) ∧
          0 ≤ c ∧ c ≤ minute := by
      intro t n c
      simp [makeIntegration_isOk_iff, slurmNew_isOk_iff hfiles]
    rw [if_neg (not_not.mpr hon), hon, haccepted]
    simp only [bind_assoc, isOk_bind_iff, parseDurationOption_eq_ok, parseIntOption_eq_ok, ok_bind,
      hnew, forall_const]
    constructor
    · rintro ⟨t, ht, n, hn, c, hc, hdir, htime, hmax, httl⟩
      exact ⟨hdir, ⟨t, ht, htime⟩, ⟨n, hn, hmax⟩, ⟨c, hc, httl⟩⟩
    · rintro ⟨hdir, ⟨t, ht, htime⟩, ⟨n, hn, hmax⟩, ⟨c, hc, httl⟩⟩
      exact ⟨t, ht, n, hn, c, hc, hdir, htime, hmax, httl⟩
  · rw [if_pos hon]
    simp [makeIntegration, hon]

theorem terminal_starts_iff {name : String} :
    (parseTerminalConfigFromStore m cipher store >>= makeIntegration name terminalNew).isOk =
        true ↔
      (effective m cipher store "OPENHPC_TERMINAL_ENABLED" = .ok "true" →
        ∀ key ∈ terminalOptions, Accepted m (effective m cipher store) key) := by
  unfold parseTerminalConfigFromStore
  simp (disch := decide +kernel) only [settingValue_getenv, settingValue_envOr, effective_plain,
    ok_bind]
  by_cases hon : plainValue m store "OPENHPC_TERMINAL_ENABLED" = "true"
  · have haccepted : (∀ key ∈ terminalOptions, Accepted m (effective m cipher store) key) ↔
        (validateAddress (trimSpace (plainValue m store "OPENHPC_TERMINAL_SSH_ADDRESS"))).isOk =
            true ∧
          ∃ d, parseDuration (trimSpace (plainValue m store "OPENHPC_TERMINAL_TIMEOUT")) = some d ∧
            (d = 0 ∨ second ≤ d ∧ d ≤ minute) := by
      simp (disch := decide +kernel) only [terminalOptions, List.forall_mem_cons, accepted_plain]
      simp [startAccepts, Option.any_eq_true]
    rw [if_neg (not_not.mpr hon), hon, haccepted]
    simp only [bind_assoc, isOk_bind_iff, parseDurationOption_eq_ok, ok_bind, forall_const,
      makeIntegration_isOk_iff, Option.some.injEq, forall_eq', terminalNew_isOk_iff]
    constructor
    · rintro ⟨d, hd, haddress, htime⟩
      exact ⟨haddress, d, hd, htime⟩
    · rintro ⟨haddress, d, hd, htime⟩
      exact ⟨d, hd, haddress, htime⟩
  · rw [if_pos hon]
    simp [makeIntegration, hon]

omit [Fractions] in
theorem checked_starts_iff {name : String} {config : DirectoryConfig} :
    (∃ c, checkedDirectoryConfig m config = .ok c ∧
      (makeIntegration name (directoryNew m) c).isOk = true) ↔
      (validateDirectoryConfig m config).isOk = true := by
  unfold checkedDirectoryConfig
  cases hvalid : validateDirectoryConfig m config with
  | error err => simp
  | ok _ => simp [makeIntegration_isOk_iff, directoryNew_isOk_iff, hvalid]

/-- The LDAP options that are no secret and have no default. -/
def plainLDAPOptions : List String :=
  ["OPENHPC_LDAP_ENABLED", "OPENHPC_LDAP_URL", "OPENHPC_LDAP_BASE_DN",
    "OPENHPC_LDAP_USER_BASE_DN", "OPENHPC_LDAP_GROUP_BASE_DN", "OPENHPC_LDAP_BIND_DN",
    "OPENHPC_LDAP_PROVISION_BIND_DN", "OPENHPC_LDAP_CA_FILE"]

omit [Fractions] in
theorem settingValue_plainLDAP : ∀ key ∈ plainLDAPOptions,
    settingValue cipher store key (m.getenv key) = .ok (plainValue m store key) := by
  intro key hkey
  have hschema : ∀ key ∈ plainLDAPOptions,
      (key, false) ∈ settingSchema ∧ settingDefaults.lookup key = none := by decide +kernel
  obtain ⟨hsetting, hdefault⟩ := hschema key hkey
  rw [settingValue_getenv hdefault, effective_plain hsetting]

/-- The configuration that is parsed, from the values that may fail to be read or to parse. -/
def directoryConfig (m : Machine) (store : SettingsStore) (timeout : Int) (maxResults : GoInt)
    (password provisionPassword : String) : DirectoryConfig where
  url := trimSpace (plainValue m store "OPENHPC_LDAP_URL")
  baseDN := trimSpace (plainValue m store "OPENHPC_LDAP_BASE_DN")
  userBaseDN := trimSpace (plainValue m store "OPENHPC_LDAP_USER_BASE_DN")
  groupBaseDN := trimSpace (plainValue m store "OPENHPC_LDAP_GROUP_BASE_DN")
  bindDN := trimSpace (plainValue m store "OPENHPC_LDAP_BIND_DN")
  bindPassword := password
  provisionBindDN := trimSpace (plainValue m store "OPENHPC_LDAP_PROVISION_BIND_DN")
  provisionBindPassword := provisionPassword
  caFile := trimSpace (plainValue m store "OPENHPC_LDAP_CA_FILE")
  timeout := timeout
  maxResults := maxResults
  allowInsecure := allowInsecureLDAP m

theorem parseLDAP_isOk_iff {name : String}
    (hon : plainValue m store "OPENHPC_LDAP_ENABLED" = "true") :
    (parseLDAPConfigFromStore m cipher store >>= makeIntegration name (directoryNew m)).isOk =
        true ↔
      trimSpace (plainValue m store "OPENHPC_LDAP_URL") ≠ "" ∧
      trimSpace (plainValue m store "OPENHPC_LDAP_BASE_DN") ≠ "" ∧
      ∃ timeout, parseDuration (plainValue m store "OPENHPC_LDAP_TIMEOUT") = some timeout ∧
      ∃ maxResults, parseInt (plainValue m store "OPENHPC_LDAP_MAX_RESULTS") = some maxResults ∧
      ∃ password, effective m cipher store "OPENHPC_LDAP_BIND_PASSWORD" = .ok password ∧
      ∃ provisionPassword,
        effective m cipher store "OPENHPC_LDAP_PROVISION_BIND_PASSWORD" = .ok provisionPassword ∧
      (validateDirectoryConfig m
        (directoryConfig m store timeout maxResults password provisionPassword)).isOk = true := by
  have hplain : ∀ key ∈ plainLDAPOptions,
      settingValue cipher store key (m.getenv key) = .ok (plainValue m store key) :=
    settingValue_plainLDAP
  simp only [plainLDAPOptions, List.forall_mem_cons] at hplain
  obtain ⟨h1, h2, h3, h4, h5, h6, h7, h8, -⟩ := hplain
  unfold parseLDAPConfigFromStore
  simp only [h1, h2, h3, h4, h5, h6, h7, h8, ok_bind]
  rw [if_neg (not_not.mpr hon), settingValue_envOr (by decide), settingValue_envOr (by decide),
    settingValue_getenv (by decide), settingValue_getenv (by decide), effective_plain (by decide),
    effective_plain (by decide), check_bind, isOk_check_iff, not_or]
  simp only [ok_bind, bind_assoc, isOk_bind_iff, parseDurationOption_eq_ok, parseIntOption_eq_ok,
    checked_starts_iff, and_assoc]
  rfl

theorem accepted_caFile_iff : Accepted m (effective m cipher store) "OPENHPC_LDAP_CA_FILE" ↔
    ((m.parseURL (trimSpace (plainValue m store "OPENHPC_LDAP_URL"))).map URL.scheme ≠
        some "ldap" →
      trimSpace (plainValue m store "OPENHPC_LDAP_CA_FILE") = "" ∨
        absoluteClean (trimSpace (plainValue m store "OPENHPC_LDAP_CA_FILE")) = true) := by
  have hcomes : Comes m (effective m cipher store) "OPENHPC_LDAP_CA_FILE" ↔
      (m.parseURL (trimSpace (plainValue m store "OPENHPC_LDAP_URL"))).map URL.scheme ≠
        some "ldap" := by
    have hurl : effective m cipher store "OPENHPC_LDAP_URL" =
        .ok (plainValue m store "OPENHPC_LDAP_URL") := effective_plain (by decide)
    simp [Comes, PlainLDAP, hurl]
  rw [Accepted, hcomes, effective_plain (by decide)]
  simp [startAccepts]

theorem accepted_secret_iff {key : String} (hkey : (key, true) ∈ settingSchema) :
    Accepted m (effective m cipher store) key ↔
      ∃ password, effective m cipher store key = .ok password := by
  have haccepts : ∀ v, startAccepts m key v = true := by
    intro v
    obtain rfl | rfl : key = "OPENHPC_LDAP_BIND_PASSWORD" ∨
        key = "OPENHPC_LDAP_PROVISION_BIND_PASSWORD" := by
      simpa [settingSchema] using hkey
    · simp [startAccepts]
    · simp [startAccepts]
  exact ⟨fun ⟨v, hv, _⟩ => ⟨v, hv⟩, fun ⟨v, hv⟩ => ⟨v, hv, fun _ => haccepts v⟩⟩

theorem ldap_accepted_iff :
    (∀ key ∈ ldapOptions, Accepted m (effective m cipher store) key) ↔
      (trimSpace (plainValue m store "OPENHPC_LDAP_URL") ≠ "" ∧
        validEndpoint m (allowInsecureLDAP m)
          (trimSpace (plainValue m store "OPENHPC_LDAP_URL")) = true) ∧
      (trimSpace (plainValue m store "OPENHPC_LDAP_BASE_DN") ≠ "" ∧
        m.parseDN (trimSpace (plainValue m store "OPENHPC_LDAP_BASE_DN")) = true) ∧
      (trimSpace (plainValue m store "OPENHPC_LDAP_USER_BASE_DN") = "" ∨
        m.parseDN (trimSpace (plainValue m store "OPENHPC_LDAP_USER_BASE_DN")) = true) ∧
      (trimSpace (plainValue m store "OPENHPC_LDAP_GROUP_BASE_DN") = "" ∨
        m.parseDN (trimSpace (plainValue m store "OPENHPC_LDAP_GROUP_BASE_DN")) = true) ∧
      (trimSpace (plainValue m store "OPENHPC_LDAP_BIND_DN") = "" ∨
        m.parseDN (trimSpace (plainValue m store "OPENHPC_LDAP_BIND_DN")) = true) ∧
      (∃ password, effective m cipher store "OPENHPC_LDAP_BIND_PASSWORD" = .ok password) ∧
      (trimSpace (plainValue m store "OPENHPC_LDAP_PROVISION_BIND_DN") = "" ∨
        m.parseDN (trimSpace (plainValue m store "OPENHPC_LDAP_PROVISION_BIND_DN")) = true) ∧
      (∃ password,
        effective m cipher store "OPENHPC_LDAP_PROVISION_BIND_PASSWORD" = .ok password) ∧
      ((m.parseURL (trimSpace (plainValue m store "OPENHPC_LDAP_URL"))).map URL.scheme ≠
          some "ldap" →
        trimSpace (plainValue m store "OPENHPC_LDAP_CA_FILE") = "" ∨
          absoluteClean (trimSpace (plainValue m store "OPENHPC_LDAP_CA_FILE")) = true) ∧
      (∃ d, parseDuration (plainValue m store "OPENHPC_LDAP_TIMEOUT") = some d ∧
        0 < d ∧ d ≤ 30 * second) ∧
      ∃ n, parseInt (plainValue m store "OPENHPC_LDAP_MAX_RESULTS") = some n ∧
        0 < n.val ∧ n.val ≤ maxLDAPResults := by
  have hpassword : Accepted m (effective m cipher store) "OPENHPC_LDAP_BIND_PASSWORD" ↔ _ :=
    accepted_secret_iff (by decide)
  have hprovision :
      Accepted m (effective m cipher store) "OPENHPC_LDAP_PROVISION_BIND_PASSWORD" ↔ _ :=
    accepted_secret_iff (by decide)
  simp only [ldapOptions, List.forall_mem_cons, accepted_caFile_iff, hpassword, hprovision]
  rw [accepted_plain (by decide) (by decide), accepted_plain (by decide) (by decide),
    accepted_plain (by decide) (by decide), accepted_plain (by decide) (by decide),
    accepted_plain (by decide) (by decide), accepted_plain (by decide) (by decide),
    accepted_plain (by decide) (by decide), accepted_plain (by decide) (by decide)]
  simp [startAccepts, Option.any_eq_true]

omit [Fractions] in
theorem bindPair_iff {dnKey passwordKey : String} (hdn : (dnKey, false) ∈ settingSchema) :
    BindPair (effective m cipher store) dnKey passwordKey ↔
      ∃ password, effective m cipher store passwordKey = .ok password ∧
        (trimSpace (plainValue m store dnKey) = "" ↔ password = "") := by
  simp [BindPair, effective_plain hdn]

theorem ldap_starts_iff (hfiles : m.FilesValid) {name : String} :
    (parseLDAPConfigFromStore m cipher store >>= makeIntegration name (directoryNew m)).isOk =
        true ↔
      (effective m cipher store "OPENHPC_LDAP_ENABLED" = .ok "true" →
        (∀ key ∈ ldapOptions, Accepted m (effective m cipher store) key) ∧
          BindPair (effective m cipher store) "OPENHPC_LDAP_BIND_DN"
            "OPENHPC_LDAP_BIND_PASSWORD" ∧
          BindPair (effective m cipher store) "OPENHPC_LDAP_PROVISION_BIND_DN"
            "OPENHPC_LDAP_PROVISION_BIND_PASSWORD") := by
  rw [effective_plain (by decide)]
  by_cases hon : plainValue m store "OPENHPC_LDAP_ENABLED" = "true"
  · rw [parseLDAP_isOk_iff hon, hon, ldap_accepted_iff, bindPair_iff (by decide),
      bindPair_iff (by decide)]
    simp only [forall_const, validateDirectoryConfig_isOk_iff hfiles, directoryConfig]
    constructor
    · rintro ⟨hurl, hbase, t, ht, n, hn, password, hp, provision, hpp, hendpoint, hbaseDN, huser,
        hgroup, hbindDN, hprovisionDN, hbind, hprovision, htime, hmax, hca⟩
      exact ⟨⟨⟨hurl, hendpoint⟩, hbaseDN, huser, hgroup, hbindDN, ⟨password, hp⟩, hprovisionDN,
        ⟨provision, hpp⟩, hca, ⟨t, ht, htime⟩, ⟨n, hn, hmax⟩⟩, ⟨password, hp, hbind⟩,
        ⟨provision, hpp, hprovision⟩⟩
    · rintro ⟨⟨⟨hurl, hendpoint⟩, hbaseDN, huser, hgroup, hbindDN, -, hprovisionDN, -, hca,
        ⟨t, ht, htime⟩, ⟨n, hn, hmax⟩⟩, ⟨password, hp, hbind⟩, ⟨provision, hpp, hprovision⟩⟩
      exact ⟨hurl, hbaseDN.1, t, ht, n, hn, password, hp, provision, hpp, hendpoint, hbaseDN,
        huser, hgroup, hbindDN, hprovisionDN, hbind, hprovision, htime, hmax, hca⟩
  · have hplain : settingValue cipher store "OPENHPC_LDAP_ENABLED"
        (m.getenv "OPENHPC_LDAP_ENABLED") = .ok (plainValue m store "OPENHPC_LDAP_ENABLED") :=
      settingValue_plainLDAP _ (by decide)
    unfold parseLDAPConfigFromStore
    rw [hplain, ok_bind, if_pos hon]
    simp [makeIntegration, hon]

/-- Where the files are in order a start succeeds exactly when it accepts the options of the
    integrations that are enabled. -/
theorem startup_isOk_iff (hfiles : m.FilesValid) :
    (startup m cipher store).isOk = true ↔ Starts m (effective m cipher store) := by
  have hparts : (startup m cipher store).isOk = true ↔
      (parseSlurmConfigFromStore m cipher store >>=
        makeIntegration "Slurm integration" (slurmNew m)).isOk = true ∧
      (parseLDAPConfigFromStore m cipher store >>=
        makeIntegration "LDAP integration" (directoryNew m)).isOk = true ∧
      (parseTerminalConfigFromStore m cipher store >>=
        makeIntegration "SSH terminal" terminalNew).isOk = true := by
    simp only [startup, isOk_bind_iff, isOk_ok, and_true, ← isOk_iff_exists]
    constructor
    · rintro ⟨sc, hsc, lc, hlc, tc, htc, s, hs, l, hl, ht⟩
      exact ⟨⟨sc, hsc, isOk_iff_exists.mpr ⟨s, hs⟩⟩, ⟨lc, hlc, isOk_iff_exists.mpr ⟨l, hl⟩⟩,
        ⟨tc, htc, ht⟩⟩
    · rintro ⟨⟨sc, hsc, hs⟩, ⟨lc, hlc, hl⟩, ⟨tc, htc, ht⟩⟩
      obtain ⟨s, hs⟩ := isOk_iff_exists.mp hs
      obtain ⟨l, hl⟩ := isOk_iff_exists.mp hl
      exact ⟨sc, hsc, lc, hlc, tc, htc, s, hs, l, hl, ht⟩
  rw [hparts, slurm_starts_iff hfiles, ldap_starts_iff hfiles, terminal_starts_iff]
  constructor
  · rintro ⟨hslurm, hldap, hterminal⟩
    exact ⟨hslurm, fun h => (hldap h).1, fun h => (hldap h).2.1, fun h => (hldap h).2.2, hterminal⟩
  · intro h
    exact ⟨h.slurm, fun hon => ⟨h.ldap hon, h.bind hon, h.provisionBind hon⟩, h.terminal⟩

end Start

end OpenHpcWeb.Server
