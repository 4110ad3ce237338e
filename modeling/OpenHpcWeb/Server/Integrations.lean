/-
  What the integrations ask of their configurations when the server starts: `New` of
  internal/slurm, internal/ldapdirectory and internal/terminal.

  `Machine` is what a configuration meets outside the database: the environment, the files
  that it names, and the parsers of `net/url` and go-ldap. Nothing is assumed of the parsers.
-/
import OpenHpcWeb.Go.Duration
import OpenHpcWeb.Go.Net
import OpenHpcWeb.Go.Path
import OpenHpcWeb.Go.Strconv

namespace OpenHpcWeb.Server

open OpenHpcWeb.Go

structure Machine where
  /-- `os.Getenv`; unset is empty -/
  getenv : String → String
  /-- `url.Parse`; `none` is an error -/
  parseURL : String → Option URL
  /-- `ldap.ParseDN` accepts -/
  parseDN : String → Bool
  /-- `validateSlurmExecutable` -/
  slurmExecutable : String → Except String Unit
  /-- `validateRootOwnedCAFile` -/
  caFile : String → Except String Unit
  /-- `ReadFile` and `AppendCertsFromPEM` find certificates -/
  certificates : String → Bool

/-- The files that configurations name are present and valid. -/
def Machine.FilesValid (m : Machine) : Prop :=
  (∀ path, m.slurmExecutable path = .ok ()) ∧ (∀ path, m.caFile path = .ok ()) ∧
    ∀ path, m.certificates path = true

def absoluteClean (path : String) : Bool := isAbs path && cleanPath path = path

/-! ## Slurm -/

structure SlurmConfig where
  binaryDir : String
  timeout : Int
  maxOutputBytes : GoInt
  cacheTTL : Int
  deriving DecidableEq

def maxCommandTimeout : Int := 30 * second

def maxOutputBytes : Int := 8 * 2 ^ 20

def defaultCacheTTL : Int := 10 * second

def maxCacheTTL : Int := minute

def slurmCommands : List String :=
  ["sinfo", "squeue", "sacct", "sacctmgr", "sstat", "scontrol", "scancel"]

/-- `slurm.New` without a runner of its own; the client keeps the configuration. -/
def slurmNew (m : Machine) (config : SlurmConfig) : Except String SlurmConfig :=
  if ¬ absoluteClean config.binaryDir then
    .error "Slurm binary directory must be an absolute clean path"
  else if config.timeout ≤ 0 ∨ config.timeout > maxCommandTimeout then
    .error "Slurm command timeout must be positive"
  else if config.maxOutputBytes.val ≤ 0 ∨ config.maxOutputBytes.val > maxOutputBytes then
    .error "Slurm output limit must be positive"
  else
    let cacheTTL := if config.cacheTTL = 0 then defaultCacheTTL else config.cacheTTL
    if cacheTTL < 0 ∨ cacheTTL > maxCacheTTL then
      .error "Slurm cache TTL must be between zero and one minute"
    else do
      slurmCommands.forM fun command =>
        m.slurmExecutable (cleanPath (config.binaryDir ++ "/" ++ command))
      .ok { config with cacheTTL := cacheTTL }

/-! ## LDAP -/

structure DirectoryConfig where
  url : String
  baseDN : String
  userBaseDN : String
  groupBaseDN : String
  bindDN : String
  bindPassword : String
  provisionBindDN : String
  provisionBindPassword : String
  caFile : String
  timeout : Int
  maxResults : GoInt
  allowInsecure : Bool
  deriving DecidableEq

def maxLDAPTimeout : Int := 30 * second

def maxLDAPResults : Int := 500

/-- The check of a URL that `validateConfig` and the settings form both make. -/
def validEndpoint (m : Machine) (allowInsecure : Bool) (value : String) : Bool :=
  match m.parseURL value with
  | none => false
  | some endpoint =>
    (endpoint.scheme = "ldaps" || (endpoint.scheme = "ldap" && allowInsecure)) &&
      endpoint.host ≠ "" && ! endpoint.user && endpoint.rawQuery = "" &&
      endpoint.fragment = "" && (endpoint.path = "" || endpoint.path = "/")

/-- The check of one DN; only the base DN is required. -/
def validateDN (m : Machine) (name value : String) (required : Bool) : Except String Unit :=
  if value = "" then if required then .error "LDAP base DN is required" else .ok ()
  else if ¬ m.parseDN value then .error ("LDAP " ++ name ++ " is invalid")
  else .ok ()

/-- The checks of the CA file, which an `ldap` URL does not come to. -/
def validateRoots (m : Machine) (config : DirectoryConfig) : Except String Unit :=
  if config.caFile = "" then .ok ()
  else if ¬ absoluteClean config.caFile then
    .error "LDAP CA file must be an absolute clean path"
  else
    match m.caFile config.caFile with
    | .error _ => .error "LDAP CA file must be a non-writable regular file"
    | .ok _ =>
      if ¬ m.certificates config.caFile then
        .error "LDAP CA file does not contain a valid certificate"
      else .ok ()

/-- `ldapdirectory.validateConfig`. -/
def validateDirectoryConfig (m : Machine) (config : DirectoryConfig) : Except String Unit := do
  if ¬ validEndpoint m config.allowInsecure config.url then
    .error ("LDAP URL must be an ldaps URL, or ldap when explicitly enabled, " ++
      "without credentials, query or fragment")
  else
    validateDN m "base DN" config.baseDN true
    validateDN m "user base DN" config.userBaseDN false
    validateDN m "group base DN" config.groupBaseDN false
    validateDN m "bind DN" config.bindDN false
    validateDN m "provision bind DN" config.provisionBindDN false
    if (config.bindDN = "") ≠ (config.bindPassword = "") then
      .error "LDAP bind DN and password must be configured together"
    else if (config.provisionBindDN = "") ≠ (config.provisionBindPassword = "") then
      .error "LDAP provision bind DN and password must be configured together"
    else if config.timeout ≤ 0 ∨ config.timeout > maxLDAPTimeout then
      .error "LDAP timeout must be between zero and 30 seconds"
    else if config.maxResults.val ≤ 0 ∨ config.maxResults.val > maxLDAPResults then
      .error "LDAP result limit must be between 1 and 500"
    else if (m.parseURL config.url).map URL.scheme = some "ldap" then .ok ()
    else validateRoots m config

/-- `ldapdirectory.New`, with `normalizeConfig`. -/
def directoryNew (m : Machine) (config : DirectoryConfig) : Except String DirectoryConfig := do
  validateDirectoryConfig m config
  .ok { config with
    userBaseDN := if config.userBaseDN = "" then config.baseDN else config.userBaseDN
    groupBaseDN := if config.groupBaseDN = "" then config.baseDN else config.groupBaseDN }

/-! ## The terminal -/

structure TerminalConfig where
  address : String
  timeout : Int
  deriving DecidableEq

def defaultTerminalTimeout : Int := 10 * second

/-- `terminal.validateAddress`. -/
def validateAddress (address : String) : Except String Unit :=
  if address = "" ∨ trimSpace address ≠ address ∨ byteLen address > 320 ∨
      containsAny address "\x00" then
    .error "SSH login node address is invalid"
  else
    match splitHostPort address with
    | none => .error "SSH login node address must be host:port"
    | some (host, port) =>
      if host = "" ∨ containsAny host " \t\r\n" then
        .error "SSH login node address must be host:port"
      else
        match parseInt port with
        | none => .error "SSH login node port is invalid"
        | some portNumber =>
          if portNumber.val < 1 ∨ portNumber.val > 65535 then
            .error "SSH login node port is invalid"
          else .ok ()

/-- `terminal.New`; the client keeps the configuration. -/
def terminalNew (config : TerminalConfig) : Except String TerminalConfig := do
  validateAddress config.address
  let timeout := if config.timeout = 0 then defaultTerminalTimeout else config.timeout
  if timeout < second ∨ timeout > minute then
    .error "SSH terminal timeout must be between one second and one minute"
  else .ok { config with timeout := timeout }

end OpenHpcWeb.Server
