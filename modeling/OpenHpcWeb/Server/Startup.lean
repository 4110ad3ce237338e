/-
  The configuration that main (cmd/server/main.go) loads when the server starts: for each
  option the value of the database, or else of the environment, or else a default.

  A start is one that the database answers. The integrations are made after all three
  configurations are parsed; a disabled one is `none`.
-/
import OpenHpcWeb.Platform.Settings
import OpenHpcWeb.Server.Integrations

namespace OpenHpcWeb.Server

open OpenHpcWeb.Go OpenHpcWeb.Platform

variable [Fractions] (m : Machine) (cipher : Cipher) (store : SettingsStore)

def envOr (name fallback : String) : String :=
  if m.getenv name ≠ "" then m.getenv name else fallback

def settingValue (key fallback : String) : Except String String :=
  match store.get cipher none key with
  | .error err => .error ("read " ++ key ++ ": " ++ err)
  | .ok (some value) => .ok value
  | .ok none => .ok fallback

/-- `time.ParseDuration` of an option. -/
def parseDurationOption (key value : String) : Except String Int :=
  match parseDuration value with
  | none => .error ("parse " ++ key ++ ": time: invalid duration")
  | some d => .ok d

/-- `strconv.Atoi` of an option. -/
def parseIntOption (key value : String) : Except String GoInt :=
  match parseInt value with
  | none => .error ("parse " ++ key ++ ": strconv.Atoi: invalid syntax")
  | some n => .ok n

def parseSlurmConfigFromStore : Except String (Option SlurmConfig) := do
  let enabled ← settingValue cipher store "OPENHPC_SLURM_ENABLED"
    (m.getenv "OPENHPC_SLURM_ENABLED")
  if enabled ≠ "true" then .ok none
  else
    let binaryDir ← settingValue cipher store "OPENHPC_SLURM_BIN_DIR"
      (envOr m "OPENHPC_SLURM_BIN_DIR" "/usr/local/bin")
    let timeoutValue ← settingValue cipher store "OPENHPC_SLURM_TIMEOUT"
      (envOr m "OPENHPC_SLURM_TIMEOUT" "3s")
    let timeout ← parseDurationOption "OPENHPC_SLURM_TIMEOUT" timeoutValue
    let maxOutputValue ← settingValue cipher store "OPENHPC_SLURM_MAX_OUTPUT"
      (envOr m "OPENHPC_SLURM_MAX_OUTPUT" "2097152")
    let maxOutput ← parseIntOption "OPENHPC_SLURM_MAX_OUTPUT" maxOutputValue
    let cacheTTLValue ← settingValue cipher store "OPENHPC_SLURM_CACHE_TTL"
      (envOr m "OPENHPC_SLURM_CACHE_TTL" "10s")
    let cacheTTL ← parseDurationOption "OPENHPC_SLURM_CACHE_TTL" cacheTTLValue
    .ok (some ⟨binaryDir, timeout, maxOutput, cacheTTL⟩)

def parseTerminalConfigFromStore : Except String (Option TerminalConfig) := do
  let enabled ← settingValue cipher store "OPENHPC_TERMINAL_ENABLED"
    (m.getenv "OPENHPC_TERMINAL_ENABLED")
  if enabled ≠ "true" then .ok none
  else
    let address ← settingValue cipher store "OPENHPC_TERMINAL_SSH_ADDRESS"
      (m.getenv "OPENHPC_TERMINAL_SSH_ADDRESS")
    let timeoutValue ← settingValue cipher store "OPENHPC_TERMINAL_TIMEOUT"
      (envOr m "OPENHPC_TERMINAL_TIMEOUT" "10s")
    let timeout ← parseDurationOption "OPENHPC_TERMINAL_TIMEOUT" (trimSpace timeoutValue)
    .ok (some ⟨trimSpace address, timeout⟩)

/-- The environment allows `ldap` URLs. -/
def allowInsecureLDAP : Bool :=
  equalFold (trimSpace (m.getenv "OPENHPC_LDAP_ALLOW_INSECURE")) "true"

/-- `ldapdirectory.ValidateConfig`, at the end of `parseLDAPConfigFromStore`. -/
def checkedDirectoryConfig (m : Machine) (config : DirectoryConfig) :
    Except String (Option DirectoryConfig) :=
  match validateDirectoryConfig m config with
  | .error err => .error ("validate LDAP configuration: " ++ err)
  | .ok _ => .ok (some config)

def parseLDAPConfigFromStore : Except String (Option DirectoryConfig) := do
  let enabled ← settingValue cipher store "OPENHPC_LDAP_ENABLED" (m.getenv "OPENHPC_LDAP_ENABLED")
  if enabled ≠ "true" then .ok none
  else
    let endpointValue ← settingValue cipher store "OPENHPC_LDAP_URL" (m.getenv "OPENHPC_LDAP_URL")
    let endpoint := trimSpace endpointValue
    let baseDNValue ← settingValue cipher store "OPENHPC_LDAP_BASE_DN"
      (m.getenv "OPENHPC_LDAP_BASE_DN")
    let baseDN := trimSpace baseDNValue
    if endpoint = "" ∨ baseDN = "" then
      .error "OPENHPC_LDAP_URL and OPENHPC_LDAP_BASE_DN are required"
    else
      let timeoutValue ← settingValue cipher store "OPENHPC_LDAP_TIMEOUT"
        (envOr m "OPENHPC_LDAP_TIMEOUT" "3s")
      let timeout ← parseDurationOption "OPENHPC_LDAP_TIMEOUT" timeoutValue
      let maxResultsValue ← settingValue cipher store "OPENHPC_LDAP_MAX_RESULTS"
        (envOr m "OPENHPC_LDAP_MAX_RESULTS" "200")
      let maxResults ← parseIntOption "OPENHPC_LDAP_MAX_RESULTS" maxResultsValue
      -- the loop over the other options; the passwords are not trimmed
      let read (key : String) : Except String String :=
        settingValue cipher store key (m.getenv key)
      let userBaseDN ← read "OPENHPC_LDAP_USER_BASE_DN"
      let groupBaseDN ← read "OPENHPC_LDAP_GROUP_BASE_DN"
      let bindDN ← read "OPENHPC_LDAP_BIND_DN"
      let bindPassword ← read "OPENHPC_LDAP_BIND_PASSWORD"
      let provisionBindDN ← read "OPENHPC_LDAP_PROVISION_BIND_DN"
      let provisionBindPassword ← read "OPENHPC_LDAP_PROVISION_BIND_PASSWORD"
      let caFile ← read "OPENHPC_LDAP_CA_FILE"
      let config : DirectoryConfig :=
        { url := endpoint
          baseDN := baseDN
          userBaseDN := trimSpace userBaseDN
          groupBaseDN := trimSpace groupBaseDN
          bindDN := trimSpace bindDN
          bindPassword := bindPassword
          provisionBindDN := trimSpace provisionBindDN
          provisionBindPassword := provisionBindPassword
          caFile := trimSpace caFile
          timeout := timeout
          maxResults := maxResults
          allowInsecure := allowInsecureLDAP m }
      checkedDirectoryConfig m config

/-- An integration that is not enabled is not made. -/
def makeIntegration {α β : Type} (name : String) (new : α → Except String β) :
    Option α → Except String (Option β)
  | none => .ok none
  | some config =>
    match new config with
    | .error err => .error ("initialize " ++ name ++ ": " ++ err)
    | .ok client => .ok (some client)

structure Integrations where
  slurm : Option SlurmConfig
  directory : Option DirectoryConfig
  terminal : Option TerminalConfig
  deriving DecidableEq

/-- The part of main from the settings store to the integrations. -/
def startup : Except String Integrations := do
  let slurmConfig ← parseSlurmConfigFromStore m cipher store
  let ldapConfig ← parseLDAPConfigFromStore m cipher store
  let terminalConfig ← parseTerminalConfigFromStore m cipher store
  let slurm ← makeIntegration "Slurm integration" (slurmNew m) slurmConfig
  let directory ← makeIntegration "LDAP integration" (directoryNew m) ldapConfig
  let terminal ← makeIntegration "SSH terminal" terminalNew terminalConfig
  .ok ⟨slurm, directory, terminal⟩

end OpenHpcWeb.Server
