/-
  The pages of the LDAP directory: internal/web/ldap.go, and what else of internal/web runs
  under `directorySlots`: the connectivity test of settings.go, and the page of the accounts
  and the creation of LDAP accounts in platform_users.go.

  A handler is a program that asks: for a slot, the directory provider, the audit store, the
  other stores, the health of Slurm. Handlers run together, and only the slots are shared. An
  error of the directory provider comes with the zero value, as ldapdirectory.Client returns
  it. The template package is left out: a page is its view.

  * `handler_bracketed`: every handler takes at most one slot at a time, gives it back, and
    calls the provider only while it holds one.
  * `directory_slots`: so in every run the taken slots are those of the handlers at work on the
    provider, of which there are at most four, and no handler waits for another.
-/
import OpenHpcWeb.Ldap.Provisioning
import OpenHpcWeb.Ldap.Search
import OpenHpcWeb.Lib.Semaphore
import OpenHpcWeb.Web.DirectoryKeys
import OpenHpcWeb.Web.SettingsPage

namespace OpenHpcWeb.Web

open OpenHpcWeb.Go OpenHpcWeb.Lib OpenHpcWeb.Ldap OpenHpcWeb.Platform
open OpenHpcWeb.Lib.Program (other lift withSlot Bracketed)

def maxConcurrentDirectoryReads : Nat := 4

def maxDirectoryWebQuery : Nat := 64

/-! ## Questions -/

inductive DirectoryQuestion where
  /-- the calls of `directoryProvider` -/
  | search (query : String)
  | user (uid : String)
  | group (name : String)
  | createUser (request : UserCreateRequest)
  /-- `audit.Record` -/
  | audit (event : AuditEvent)
  /-- `platformUsers.Get` and `List` -/
  | platformUser (username : String)
  | platformUsers
  /-- `settingsStore.List` -/
  | settings
  /-- `metricsProvider.Snapshot` -/
  | snapshot

/-- The answers; that of `audit` and of `snapshot` is whether there was no error. -/
@[reducible] def DirectoryAnswer : DirectoryQuestion → Type
  | .search _ => Except String Directory.Page
  | .user _ => Except String (Option Directory.User)
  | .group _ => Except String (Option Directory.Group)
  | .createUser _ => Except String Unit
  | .audit _ => Bool
  | .platformUser _ => Except String (Option PlatformUser)
  | .platformUsers => Except String (List PlatformUser)
  | .settings => Except String (List Setting)
  | .snapshot => Bool

/-- The questions that go to the directory server. -/
def toProvider : DirectoryQuestion → Bool
  | .search _ | .user _ | .group _ | .createUser _ => true
  | .audit _ | .platformUser _ | .platformUsers | .settings | .snapshot => false

/-- A handler at work. -/
abbrev DirectoryProgram (α : Type) := SlotProgram DirectoryQuestion DirectoryAnswer α

/-- A question outside the slots. -/
def inquire (q : DirectoryQuestion) : DirectoryProgram (DirectoryAnswer q) := other q

/-- A call of the provider, which runs under a slot. -/
abbrev ProviderCall (α : Type) := Program DirectoryQuestion DirectoryAnswer (Except String α)

/-! ## The application and a request -/

/-- What a `directory.Provider` implements beside its own interface: `UserCreator`, and where
    it implements them `UserProvisioningStatus` and `UserProvisioningSupport` with what they
    report. -/
structure DirectoryProvider where
  userCreator : Bool
  userProvisioningAvailable : Option Bool
  userProvisioningSupported : Option Bool

structure DirectoryApplication where
  directoryProvider : Option DirectoryProvider
  settingsStore : Bool
  settingsDefaults : String → String
  metricsAvailable : Bool
  metricsProvider : Bool
  /-- `CreatedAt.Local().Format("2006-01-02 15:04")` -/
  formatLocal : Time → String

structure DirectoryRequest extends PageContext where
  now : Time
  queryParam : String → String
  formValue : String → String
  /-- `:uid` or `:name` in the path -/
  param : List UInt8

/-! ## Views -/

structure LdapUserRow extends Directory.User where
  key : List UInt8

structure LdapGroupRow extends Directory.Group where
  key : List UInt8

structure LdapView extends AppChrome where
  module_ : ModuleLink
  page : Directory.Page
  users : List LdapUserRow
  groups : List LdapGroupRow
  query : String
  ldapAvailable : Bool

structure LdapUserView extends AppChrome where
  module_ : ModuleLink
  user : Directory.User
  ldapAvailable : Bool

structure LdapGroupView extends AppChrome where
  module_ : ModuleLink
  group : Directory.Group
  ldapAvailable : Bool

structure PlatformUserRow where
  username : String
  role : String
  phone : String
  organization : String
  email : String
  enabled : Bool
  canCreateLDAP : Bool
  createdAt : String

structure PlatformUsersView extends AppChrome where
  users : List PlatformUserRow
  totalCount : Nat
  activeCount : Nat
  disabledCount : Nat
  confirmDisableUsername : String
  openCreate : Bool
  ldapProvisioning : Bool
  ldapCreateUsername : String
  ldapCreateHome : String
  ldapGroups : List Directory.Group
  ldapGroupsAvailable : Bool
  error : String
  success : String

inductive DirectoryPage where
  | directory (view : LdapView)
  | user (view : LdapUserView)
  | group (view : LdapGroupView)
  | settings (view : SettingsView)
  | platformUsers (view : PlatformUsersView)

inductive DirectoryReply where
  | httpError (status : Nat)
  | redirect (location : String)
  | page (status : Nat) (view : DirectoryPage)

variable (a : DirectoryApplication) (c : DirectoryRequest)

/-! ## What the handlers share -/

/-- `slurmHealth` -/
def slurmHealth : DirectoryProgram Bool :=
  if a.metricsProvider then inquire .snapshot else pure a.metricsAvailable

/-- `recordDirectoryAudit`: whether the event was recorded. -/
def recordDirectoryAudit (action outcome : String) : DirectoryProgram Bool :=
  inquire (.audit ⟨c.principal.username, action, outcome, c.now⟩)

inductive DirectoryError where
  | busy
  | failed (err : String)

def withDirectorySlot {α : Type} (operation : ProviderCall α) :
    DirectoryProgram (Except DirectoryError α) := do
  match ← operation.withSlot with
  | none => pure (.error .busy)
  | some (.error err) => pure (.error (.failed err))
  | some (.ok answer) => pure (.ok answer)

/-- The branches that record an event and answer with an error. -/
def refuse (action outcome : String) (status : Nat) : DirectoryProgram DirectoryReply := do
  if ← recordDirectoryAudit c action outcome then pure (.httpError status)
  else pure (.httpError 503)

/-- The part of `searchLDAPDirectory`, `ldapUser` and `ldapGroup` after their checks: a read
    under a slot, the event, and the page. `none` is not found; without an answer the page
    shows the zero value. -/
def readDirectory {α : Type} (action : String) (read : ProviderCall (Option α)) (zero : α)
    (render : α → Bool → DirectoryProgram DirectoryReply) : DirectoryProgram DirectoryReply := do
  let show_ (outcome : String) (value : α) (available : Bool) :
      DirectoryProgram DirectoryReply := do
    if ← recordDirectoryAudit c action outcome then render value available
    else pure (.httpError 503)
  match a.directoryProvider with
  | none => show_ "unavailable" zero false
  | some _ =>
    match ← withDirectorySlot read with
    | .error .busy => refuse c action "rate_limited" 429
    | .error (.failed _) => show_ "unavailable" zero false
    | .ok none => refuse c action "denied" 404
    | .ok (some value) => show_ "success" value true

/-! ## ldap.go -/

structure LdapCopy where
  description : String
  refresh : String
  userDetails : String
  groupDetails : String

/-- The texts of `ldapCopyFor` that the views hold. -/
def ldapCopyFor (language : String) : LdapCopy :=
  if language = "en" then
    ⟨"Read-only RFC2307 identity directory", "Refresh", "User details", "Group details"⟩
  else ⟨"只读 RFC2307 身份目录", "刷新", "用户详情", "组详情"⟩

def renderLDAPDirectory (query : String) (page : Directory.Page) (available : Bool) :
    DirectoryProgram DirectoryReply := do
  let labels := ldapCopyFor c.language
  let currentModule := moduleByPath "/ldap" c.language
  let health ← slurmHealth a
  pure (.page 200 (.directory
    { newAppChrome c.toPageContext currentModule.path health
        ⟨"OPENHPC / LDAP", currentModule.label, labels.description, "/ldap", labels.refresh⟩ with
      module_ := currentModule
      page := page
      users := page.users.map fun user => ⟨user, encodeDirectoryKey user.uid⟩
      groups := page.groups.map fun group => ⟨group, encodeDirectoryKey group.name⟩
      query := query
      ldapAvailable := available }))

def renderLDAPUser (user : Directory.User) (available : Bool) :
    DirectoryProgram DirectoryReply := do
  let labels := ldapCopyFor c.language
  let currentModule := moduleByPath "/ldap" c.language
  let health ← slurmHealth a
  pure (.page 200 (.user
    { newAppChrome c.toPageContext currentModule.path health
        ⟨"OPENHPC / LDAP", labels.userDetails, user.uid, "", ""⟩ with
      module_ := currentModule
      user := user
      ldapAvailable := available }))

def renderLDAPGroup (group : Directory.Group) (available : Bool) :
    DirectoryProgram DirectoryReply := do
  let labels := ldapCopyFor c.language
  let currentModule := moduleByPath "/ldap" c.language
  let health ← slurmHealth a
  pure (.page 200 (.group
    { newAppChrome c.toPageContext currentModule.path health
        ⟨"OPENHPC / LDAP", labels.groupDetails, group.name, "", ""⟩ with
      module_ := currentModule
      group := group
      ldapAvailable := available }))

/-- The zero values. -/
def noPage : Directory.Page := ⟨[], [], false⟩

def noNumber : GoInt := wrap64 0

def noUser : Directory.User := ⟨"", "", "", noNumber, noNumber, "", ""⟩

def noGroup : Directory.Group := ⟨"", "", noNumber, [], false⟩

/-- One call of the provider. -/
def call (q : DirectoryQuestion) : Program DirectoryQuestion DirectoryAnswer (DirectoryAnswer q) :=
  Program.question q

/-- The page of a search, which is always there. -/
def searchCall (query : String) : ProviderCall (Option Directory.Page) :=
  .ask (.search query) fun page => .done (page.map some)

def searchLDAPDirectory (query : String) : DirectoryProgram DirectoryReply :=
  readDirectory a c "ldap.search" (searchCall query) noPage (renderLDAPDirectory a c query)

def ldapDirectory : DirectoryProgram DirectoryReply :=
  if c.queryParam "q" ≠ "" then refuse c "ldap.search" "denied" 400
  else searchLDAPDirectory a c ""

def normalizeDirectoryQuery (value : String) : Except String String :=
  let value := trimSpace value
  if byteLen value > maxDirectoryWebQuery then .error "directory query is invalid"
  else if value.toList.any isControl then
    .error "directory query contains control characters"
  else .ok value

def ldapDirectorySearch : DirectoryProgram DirectoryReply :=
  match normalizeDirectoryQuery (c.formValue "q") with
  | .error _ => refuse c "ldap.search" "denied" 400
  | .ok query => searchLDAPDirectory a c query

def ldapUser : DirectoryProgram DirectoryReply :=
  match decodeDirectoryKey c.param with
  | .error _ => refuse c "ldap.user.read" "denied" 400
  | .ok uid => readDirectory a c "ldap.user.read" (call (.user uid)) noUser (renderLDAPUser a c)

def ldapGroup : DirectoryProgram DirectoryReply :=
  match decodeDirectoryKey c.param with
  | .error _ => refuse c "ldap.group.read" "denied" 400
  | .ok name =>
    readDirectory a c "ldap.group.read" (call (.group name)) noGroup (renderLDAPGroup a c)

/-! ## The connectivity test of settings.go -/

/-- The entries of the settings store, if there is one. -/
def listSettings : DirectoryProgram (Except String (List Setting)) :=
  if a.settingsStore then inquire .settings else pure (.ok [])

/-- `settingsView`; `none` is the error of `List`. -/
def askSettingsView (success errorMessage : String) : DirectoryProgram (Option SettingsView) := do
  match ← listSettings a with
  | .error _ => pure none
  | .ok entries =>
    let health ← slurmHealth a
    pure (some (settingsView c.toPageContext health a.settingsDefaults entries false success
      errorMessage))

/-- The settings page with a message. -/
def settingsReply (status : Nat) (success errorMessage : String) :
    DirectoryProgram DirectoryReply := do
  match ← askSettingsView a c success errorMessage with
  | none => pure (.httpError 503)
  | some view => pure (.page status (.settings view))

def testLDAPConnectivity : DirectoryProgram DirectoryReply := do
  match a.directoryProvider with
  | none => settingsReply a c 503 "" "LDAP 未启用或服务尚未重启加载配置。"
  | some _ =>
    match ← withDirectorySlot (call (.search "")) with
    | .error _ =>
      settingsReply a c 502 "" "LDAP 连通性测试失败，请检查地址、证书、Bind 凭据和基础 DN。"
    | .ok _ => settingsReply a c 200 "LDAP 连通性测试成功。" ""

/-! ## platform_users.go -/

def ldapUserProvisioningAvailable : Option DirectoryProvider → Bool
  | none => false
  | some provider => provider.userCreator && provider.userProvisioningAvailable.getD true

def ldapUserProvisioningVisible : Option DirectoryProvider → Bool
  | none => false
  | some provider => provider.userCreator && provider.userProvisioningSupported.getD true

def platformUserSuccessFor (language result : String) : String :=
  if language = "en" then
    match result with
    | "created" => "Platform user created."
    | "updated" => "Platform user status updated."
    | "ldap-created" => "LDAP user created for the platform account."
    | _ => ""
  else
    match result with
    | "created" => "平台用户已创建。"
    | "updated" => "平台用户状态已更新。"
    | "ldap-created" => "已为平台账号创建 LDAP 用户。"
    | _ => ""

def platformUserErrorFor (language result : String) : String :=
  if language = "en" then
    match result with
    | "duplicate" => "A platform user with this username already exists."
    | "invalid" => "The submitted platform user details are invalid."
    | "error" => "The platform user could not be saved."
    | "ldap-invalid" =>
      "The LDAP user details are invalid or the platform account is unavailable."
    | "ldap-unavailable" => "LDAP user provisioning is unavailable."
    | "ldap-error" => "The LDAP user could not be created."
    | _ => ""
  else
    match result with
    | "duplicate" => "同名平台用户已存在。"
    | "invalid" => "提交的平台用户信息无效。"
    | "error" => "无法保存平台用户。"
    | "ldap-invalid" => "LDAP 用户信息无效，或平台账号不可用。"
    | "ldap-unavailable" => "LDAP 用户创建当前不可用。"
    | "ldap-error" => "无法创建 LDAP 用户。"
    | _ => ""

/-- The row of an account. -/
def platformUserRow (ldapProvisioning : Bool) (user : PlatformUser) : PlatformUserRow where
  username := user.username
  role :=
    if c.language = "en" then
      if user.role = .admin then "Administrator" else "Platform user"
    else if user.role = .admin then "管理员" else "普通用户"
  phone := user.phone
  organization := user.organization
  email := user.email
  enabled := user.enabled
  canCreateLDAP := ldapProvisioning && user.enabled
  createdAt := a.formatLocal user.createdAt

/-- The account that the page asks to confirm the disabling of: the last one that matches. -/
def confirmDisableUsername (users : List PlatformUser) : String :=
  users.foldl (fun confirmed user =>
    if c.queryParam "confirm" = "disable" ∧ c.queryParam "username" = user.username ∧
        user.enabled ∧ user.username ≠ c.principal.username then user.username
    else confirmed) ""

/-- The account that the page offers to create an LDAP account for. -/
def ldapCreateUsername (rows : List PlatformUserRow) : String :=
  let candidate := c.queryParam "ldap_user"
  if validateUsername candidate = .ok () ∧
      rows.any fun row => row.username = candidate && row.canCreateLDAP then candidate
  else ""

/-- The groups that can be the primary group of an account. -/
def primaryGroups (page : Directory.Page) : List Directory.Group :=
  page.groups.filter fun group => 1000 ≤ group.gidNumber.val

/-- The search for the groups, where accounts can be created. -/
def searchGroups : DirectoryProgram (Except DirectoryError Directory.Page) :=
  if ldapUserProvisioningVisible a.directoryProvider then withDirectorySlot (call (.search ""))
  else pure (.ok noPage)

def platformUsersView (users : List PlatformUser)
    (groupPage : Except DirectoryError Directory.Page) (health : Bool) : PlatformUsersView :=
  let ldapProvisioning := ldapUserProvisioningVisible a.directoryProvider
  let rows := users.map (platformUserRow a c ldapProvisioning)
  let createUsername := ldapCreateUsername c rows
  let result := c.queryParam "result"
  { newAppChrome c.toPageContext "/platform/users" health
      { eyebrow := "OPENHPC / IDENTITY"
        title := if c.language = "en" then "Platform users" else "平台用户"
        description :=
          if c.language = "en" then "Manage local platform accounts" else "管理平台本地账号"
        refreshPath := ""
        refreshLabel := "" } with
    users := rows
    totalCount := rows.length
    activeCount := users.countP PlatformUser.enabled
    disabledCount := rows.length - users.countP PlatformUser.enabled
    confirmDisableUsername := confirmDisableUsername c users
    openCreate := decide (c.queryParam "create" = "1")
    ldapProvisioning := ldapProvisioning
    ldapCreateUsername := createUsername
    ldapCreateHome := "/home/" ++ createUsername
    ldapGroups := (groupPage.map primaryGroups).toOption.getD []
    ldapGroupsAvailable := ldapProvisioning && groupPage.isOk
    success := platformUserSuccessFor c.language result
    error := platformUserErrorFor c.language result }

def platformUsersPage : DirectoryProgram DirectoryReply := do
  match ← inquire .platformUsers with
  | .error _ => pure (.httpError 503)
  | .ok users =>
    let groupPage ← searchGroups a
    let health ← slurmHealth a
    pure (.page 200 (.platformUsers (platformUsersView a c users groupPage health)))

/-- `redirectPlatformUsers` -/
def redirectPlatformUsers (result : String) : DirectoryReply :=
  .redirect ("/platform/users?result=" ++ result)

/-- `recordLDAPUserCreateAudit` and the redirect: the answer does not wait for the record. -/
def endLDAPUserCreate (outcome result : String) : DirectoryProgram DirectoryReply := do
  let _ ← recordDirectoryAudit c "ldap.user.create" outcome
  pure (redirectPlatformUsers result)

/-- The request of the form, if both numbers can be read. -/
def userCreateRequest : Option UserCreateRequest := do
  let uidNumber ← parseInt (c.formValue "uid_number")
  let gidNumber ← parseInt (c.formValue "gid_number")
  some
    { uid := trimSpace (c.formValue "username")
      uidNumber := uidNumber
      gidNumber := gidNumber
      homeDirectory := trimSpace (c.formValue "home_directory")
      loginShell := trimSpace (c.formValue "login_shell")
      password := c.formValue "password" }

def createLinkedLDAPUser : DirectoryProgram DirectoryReply := do
  if ¬ ldapUserProvisioningAvailable a.directoryProvider then
    endLDAPUserCreate c "unavailable" "ldap-unavailable"
  else
    match userCreateRequest c with
    | none => endLDAPUserCreate c "invalid_request" "ldap-invalid"
    | some request =>
      match validateUserCreateRequest request with
      | .error _ => endLDAPUserCreate c "invalid_request" "ldap-invalid"
      | .ok () =>
        match ← inquire (.platformUser request.uid) with
        | .ok (some user) =>
          if ¬ user.enabled then endLDAPUserCreate c "denied" "ldap-invalid"
          else
            match ← withDirectorySlot (call (.createUser request)) with
            | .error _ => endLDAPUserCreate c "failure" "ldap-error"
            | .ok () => endLDAPUserCreate c "success" "ldap-created"
        | _ => endLDAPUserCreate c "denied" "ldap-invalid"

/-! ## The server -/

inductive DirectoryRoute where
  | ldapDirectory
  | ldapDirectorySearch
  | ldapUser
  | ldapGroup
  | testLDAPConnectivity
  | platformUsersPage
  | createLinkedLDAPUser
  deriving DecidableEq

def handler : DirectoryRoute → DirectoryProgram DirectoryReply
  | .ldapDirectory => ldapDirectory a c
  | .ldapDirectorySearch => ldapDirectorySearch a c
  | .ldapUser => ldapUser a c
  | .ldapGroup => ldapGroup a c
  | .testLDAPConnectivity => testLDAPConnectivity a c
  | .platformUsersPage => platformUsersPage a c
  | .createLinkedLDAPUser => createLinkedLDAPUser a c

/-- A handler at work on its request. -/
abbrev DirectoryHandler :=
  Client (DirectoryRoute × DirectoryRequest) DirectoryQuestion DirectoryAnswer DirectoryReply

/-- What a step brings: a request, or an answer for a handler. -/
abbrev DirectoryAction :=
  PoolAction (DirectoryRoute × DirectoryRequest) ((q : DirectoryQuestion) → DirectoryAnswer q)

def directoryHandler (a : DirectoryApplication) (r : DirectoryRoute × DirectoryRequest) :
    DirectoryProgram DirectoryReply :=
  handler a r.2 r.1

/-- Requests arrive, and their handlers take their steps. -/
def directoryStep (a : DirectoryApplication) :
    Pool DirectoryHandler → DirectoryAction → Option (Pool DirectoryHandler) :=
  clientStep maxConcurrentDirectoryReads (directoryHandler a)

/-! ## Slots -/

section Slots

variable {a : DirectoryApplication} {c : DirectoryRequest} {α : Type}

/-- From no slot to no slot, and the provider is called under one. -/
abbrev Disciplined (p : DirectoryProgram α) : Prop := p.Bracketed toProvider false false

theorem disciplined_pure (x : α) : Disciplined (pure x) := Program.bracketed_done x

theorem disciplined_inquire (q : DirectoryQuestion) {f : DirectoryAnswer q → DirectoryProgram α}
    (hq : toProvider q = false) (hf : ∀ r, Disciplined (f r)) : Disciplined (inquire q >>= f) :=
  Program.bracketed_other (fun h => absurd (hq.symm.trans h) Bool.false_ne_true) hf

theorem disciplined_bind {β : Type} {p : DirectoryProgram β} {f : β → DirectoryProgram α}
    (hp : Disciplined p) (hf : ∀ r, Disciplined (f r)) : Disciplined (p >>= f) :=
  Program.bracketed_bind hp hf

theorem disciplined_slot (operation : ProviderCall α) :
    Disciplined (withDirectorySlot operation) := by
  apply disciplined_bind (Program.bracketed_withSlot operation)
  intro r
  split <;> exact disciplined_pure _

theorem disciplined_slurmHealth : Disciplined (slurmHealth a) := by
  unfold slurmHealth
  split
  · exact Program.bracketed_other (fun h => nomatch h) fun r => Program.bracketed_done r
  · exact disciplined_pure _

theorem disciplined_refuse (action outcome : String) (status : Nat) :
    Disciplined (refuse c action outcome status) := by
  apply disciplined_inquire (.audit _) rfl
  intro r
  split <;> exact disciplined_pure _

theorem disciplined_readDirectory {action : String} {read : ProviderCall (Option α)} {zero : α}
    {render : α → Bool → DirectoryProgram DirectoryReply}
    (hrender : ∀ value available, Disciplined (render value available)) :
    Disciplined (readDirectory a c action read zero render) := by
  have hshow : ∀ outcome value available, Disciplined (do
      if ← recordDirectoryAudit c action outcome then render value available
      else pure (.httpError 503)) := by
    intro outcome value available
    apply disciplined_inquire (.audit _) rfl
    intro r
    split
    · exact hrender value available
    · exact disciplined_pure _
  unfold readDirectory
  split
  · exact hshow _ _ _
  · apply disciplined_bind (disciplined_slot read)
    intro r
    split
    · exact disciplined_refuse _ _ _
    · exact hshow _ _ _
    · exact disciplined_refuse _ _ _
    · exact hshow _ _ _

theorem disciplined_page {f : Bool → DirectoryReply} :
    Disciplined (slurmHealth a >>= fun health => pure (f health)) :=
  disciplined_bind disciplined_slurmHealth fun _ => disciplined_pure _

theorem disciplined_search (query : String) : Disciplined (searchLDAPDirectory a c query) :=
  disciplined_readDirectory fun _ _ => disciplined_page

theorem disciplined_settingsReply (status : Nat) (success errorMessage : String) :
    Disciplined (settingsReply a c status success errorMessage) := by
  apply disciplined_bind
  · apply disciplined_bind
    · unfold listSettings
      split
      · exact Program.bracketed_other (fun h => nomatch h) fun r => Program.bracketed_done r
      · exact disciplined_pure _
    · intro entries
      split
      · exact disciplined_pure _
      · exact disciplined_bind disciplined_slurmHealth fun _ => disciplined_pure _
  · intro view
    split <;> exact disciplined_pure _

theorem disciplined_endLDAPUserCreate (outcome result : String) :
    Disciplined (endLDAPUserCreate c outcome result) :=
  disciplined_inquire (.audit _) rfl fun _ => disciplined_pure _

theorem disciplined_createLinkedLDAPUser : Disciplined (createLinkedLDAPUser a c) := by
  unfold createLinkedLDAPUser
  split
  · exact disciplined_endLDAPUserCreate _ _
  split
  · exact disciplined_endLDAPUserCreate _ _
  split
  · exact disciplined_endLDAPUserCreate _ _
  apply disciplined_inquire (.platformUser _) rfl
  intro found
  split
  · split
    · exact disciplined_endLDAPUserCreate _ _
    · apply disciplined_bind (disciplined_slot _)
      intro r
      split <;> exact disciplined_endLDAPUserCreate _ _
  · exact disciplined_endLDAPUserCreate _ _

theorem disciplined_platformUsersPage : Disciplined (platformUsersPage a c) := by
  apply disciplined_inquire .platformUsers rfl
  intro users
  split
  · exact disciplined_pure _
  · apply disciplined_bind
    · unfold searchGroups
      split
      · exact disciplined_slot _
      · exact disciplined_pure _
    · exact fun _ => disciplined_page

theorem handler_bracketed (route : DirectoryRoute) : Disciplined (handler a c route) := by
  cases route with
  | ldapDirectory =>
    simp only [handler, ldapDirectory]
    split
    · exact disciplined_refuse _ _ _
    · exact disciplined_search _
  | ldapDirectorySearch =>
    simp only [handler, ldapDirectorySearch]
    split
    · exact disciplined_refuse _ _ _
    · exact disciplined_search _
  | ldapUser =>
    simp only [handler, ldapUser]
    split
    · exact disciplined_refuse _ _ _
    · exact disciplined_readDirectory fun _ _ => disciplined_page
  | ldapGroup =>
    simp only [handler, ldapGroup]
    split
    · exact disciplined_refuse _ _ _
    · exact disciplined_readDirectory fun _ _ => disciplined_page
  | testLDAPConnectivity =>
    simp only [handler, testLDAPConnectivity]
    split
    · exact disciplined_settingsReply _ _ _
    · apply disciplined_bind (disciplined_slot _)
      intro r
      split <;> exact disciplined_settingsReply _ _ _
  | platformUsersPage => exact disciplined_platformUsersPage
  | createLinkedLDAPUser => exact disciplined_createLinkedLDAPUser

theorem directoryHandler_bracketed (r : DirectoryRoute × DirectoryRequest) :
    Disciplined (directoryHandler a r) :=
  handler_bracketed r.1

/-! ## Runs -/

/-- A handler waits for the provider. -/
abbrev atProvider (h : DirectoryHandler) : Bool := h.asking toProvider

/-- A handler holds a slot. -/
abbrev inSlot (h : DirectoryHandler) : Bool := holding h.history

theorem directory_reachable {acts : List DirectoryAction} {s : Pool DirectoryHandler}
    (hrun : Run (directoryStep a) (fun _ _ => True) Pool.empty acts s) :
    ClientsOk (directoryHandler a) toProvider maxConcurrentDirectoryReads s :=
  clients_reachable directoryHandler_bracketed hrun

/-- For every interleaving of any requests, and whatever the provider and the stores answer: the
    taken slots are those of the handlers that hold one, at most four, so at most four handlers
    wait for the provider at a time, each of them in a slot; a handler that has answered holds
    none; a handler that asks for a slot gets it exactly if fewer than four are held, and is
    turned away otherwise; and a handler that has not answered can take its next step, whatever
    the others do. -/
theorem directory_slots (a : DirectoryApplication) {acts : List DirectoryAction}
    {s : Pool DirectoryHandler}
    (hrun : Run (directoryStep a) (fun _ _ => True) Pool.empty acts s) :
    s.tokens = s.parties.countP inSlot ∧ s.tokens ≤ 4 ∧
      s.parties.countP atProvider ≤ 4 ∧
      (∀ h ∈ s.parties, atProvider h = true → inSlot h = true) ∧
      (∀ h ∈ s.parties, ∀ reply, h.result = some reply → inSlot h = false) ∧
      (∀ i h next answers s', s.parties[i]? = some h → h.rest = .ask .enter next →
        directoryStep a s (.move i answers) = some s' →
        s'.parties[i]? = some (h.told ⟨.enter, decide (s.parties.countP inSlot < 4)⟩
          (next (decide (s.parties.countP inSlot < 4))))) ∧
      (∀ i h, s.parties[i]? = some h → h.result = none →
        ∀ answers, (directoryStep a s (.move i answers)).isSome) := by
  have hs := directory_reachable hrun
  refine ⟨hs.tokens_eq, hs.bound, hs.asking_le, ?_, ?_, ?_, ?_⟩
  · exact fun h hh => (hs.parties h hh).asking_holds
  · exact fun h hh reply hreply => (hs.parties h hh).done_free (Client.result_eq_some hreply)
  · intro i h next answers s' hi hrest hstep
    exact clientStep_enter hs hi hrest hstep
  · intro i h hi hnone answers
    have hrest : ∀ reply, h.rest ≠ .done reply := by
      intro reply hdone
      simp [Client.result, hdone] at hnone
    have hmove := clientMove_enabled hs (List.mem_of_getElem? hi) hrest answers
    obtain ⟨moved, hmoved⟩ := Option.isSome_iff_exists.mp hmove
    simp [directoryStep, clientStep, poolStep, hi, hmoved]

/-! ## A run of a search -/

def directoryApplication : DirectoryApplication where
  directoryProvider := some ⟨true, some true, some true⟩
  settingsStore := true
  settingsDefaults _ := ""
  metricsAvailable := true
  metricsProvider := true
  formatLocal _ := ""

/-- A request for the first page, which is also a valid form of a new account. -/
def directoryRequest : DirectoryRequest where
  toPageContext := adminContext
  now := 0
  queryParam _ := ""
  formValue
    | "username" => "alice"
    | "uid_number" => "20001"
    | "gid_number" => "10000"
    | "home_directory" => "/home/alice"
    | "login_shell" => "/bin/bash"
    | "password" => "correct horse"
    | _ => ""
  param := []

/-- Everything is found, and everything is recorded. -/
def directoryAnswers : (q : DirectoryQuestion) → DirectoryAnswer q
  | .search _ => .ok noPage
  | .user _ => .ok (some noUser)
  | .group _ => .ok (some noGroup)
  | .createUser _ => .ok ()
  | .audit _ => true
  | .platformUser username => .ok (some ⟨username, "", .user, "", "", "", true, 0⟩)
  | .platformUsers => .ok []
  | .settings => .ok []
  | .snapshot => true

/-- A search that has taken its slot, beside one that has not started. -/
def searchActs : List DirectoryAction :=
  [.join (.ldapDirectory, directoryRequest), .join (.ldapDirectorySearch, directoryRequest),
    .move 0 directoryAnswers]

theorem searchActs_run :
    (exec (directoryStep directoryApplication) (fun _ _ => true) Pool.empty searchActs).isSome := by
  decide +kernel

theorem directory_slots_search :
    let s := (exec (directoryStep directoryApplication) (fun _ _ => true) Pool.empty searchActs).get
      searchActs_run
    s.tokens = 1 ∧ s.parties.countP inSlot = 1 ∧ s.parties.countP atProvider = 1 ∧
      s.tokens = s.parties.countP inSlot ∧ s.tokens ≤ 4 ∧ s.parties.countP atProvider ≤ 4 := by
  have h := directory_slots directoryApplication
    ((run_exec_get searchActs_run).mono fun _ _ _ => trivial)
  exact ⟨by decide +kernel, by decide +kernel, by decide +kernel, h.1, h.2.1, h.2.2.1⟩

end Slots

end OpenHpcWeb.Web
