/-
  The accounts of the platform over whole runs, and who they let in.

  The accounts change in three places: `New` of internal/web/app.go makes the configured
  administrator at every start, `createPlatformUser` of internal/web/platform_users.go makes
  accounts, and `setPlatformUserStatus` (`Web.AccountStatus`) enables and disables them. Each
  changes the table with one statement, so a run is a list of such events, with logins between
  them. The hash of `bcrypt.GenerateFromPassword` comes with the event.

  * `who_can_log_in`: after any run, a login with an account succeeds exactly with a password
    that fits the hash of the last writer, while the last writer of the status enabled it.
  * `accounts_kept`: no account goes, and its profile is that of its making.
-/
import OpenHpcWeb.Lib.LastWriter
import OpenHpcWeb.Platform.Accounts
import OpenHpcWeb.Web.AccountStatus

namespace OpenHpcWeb.Web

open OpenHpcWeb.Go OpenHpcWeb.Lib OpenHpcWeb.Platform

/-! ## Handlers -/

/-- The part of a start that makes the administrator. -/
structure BootstrapRequest where
  adminUsername : String
  adminPassword : String
  hash : Except String String
  fault : Option String
  now : Time

/-- The form of `createPlatformUser`. -/
structure CreateUserRequest where
  username : String
  password : String
  role : String
  phone : String
  organization : String
  email : String
  hash : Option String
  fault : Option String
  auditFault : Option String
  now : Time

inductive CreateUserAnswer where
  | result (code : String)
  | httpError (status : Nat)
  deriving DecidableEq

-- the address that `mail.ParseAddress` reads
variable (parseAddress : String → Option String)

def BootstrapRequest.name (r : BootstrapRequest) : String := trimSpace r.adminUsername

def CreateUserRequest.name (r : CreateUserRequest) : String := trimSpace r.username

/-- `RoleAdmin` and `RoleUser`. -/
def userRole : String → Option UserRole
  | "admin" => some .admin
  | "user" => some .user
  | _ => none

/-- `New` up to its `Upsert`: the error, if any, and the store. -/
def bootstrapAdmin (r : BootstrapRequest) (s : UserStore) : Except String Unit × UserStore :=
  if r.name = "" ∨ 64 < byteLen r.name ∨ byteLen r.adminPassword < 12 then
    (.error "admin username and password are required", s)
  else
    match r.hash with
    | .error err => (.error ("hash admin password: " ++ err), s)
    | .ok hash =>
      s.upsert parseAddress r.fault r.now ⟨r.name, hash, .admin, "", "", "", true, zeroTime⟩

def validPlatformUserPassword (password : String) : Bool :=
  12 ≤ byteLen password && byteLen password ≤ 72

def LoginWorld.recordCreated (w : LoginWorld) (r : CreateUserRequest) (actor : Principal) :
    LoginWorld :=
  match r.auditFault with
  | some _ => w
  | none =>
    { w with audit := w.audit ++ [⟨actor.username, "platform.user.create", "success", r.now⟩] }

/-- The account of a valid form, but for the hash. -/
def createUserForm (r : CreateUserRequest) : Option PlatformUser :=
  match userRole r.role with
  | none => none
  | some role =>
    if validateUsername r.name = .ok () ∧ validPlatformUserPassword r.password ∧
        validateUserProfile parseAddress (trimSpace r.phone) (trimSpace r.organization)
          (trimSpace r.email) = .ok () then
      some ⟨r.name, "", role, trimSpace r.phone, trimSpace r.organization, trimSpace r.email, true,
        r.now⟩
    else none

def createPlatformUser (r : CreateUserRequest) (actor : Principal) (w : LoginWorld) :
    CreateUserAnswer × LoginWorld :=
  match createUserForm parseAddress r with
  | none => (.result "invalid", w)
  | some user =>
    match r.hash with
    | none => (.httpError 500, w)
    | some hash =>
      let created := w.auth.users.create parseAddress r.fault r.now
        { user with passwordHash := hash }
      let w := w.setUsers created.2
      match created.1 with
      | .error "platform user already exists" => (.result "duplicate", w)
      | .error _ => (.result "error", w)
      | .ok () => (.result "created", w.recordCreated r actor)

/-! ## Events -/

inductive AccountEvent where
  | bootstrap (r : BootstrapRequest)
  | create (r : CreateUserRequest) (actor : Principal)
  | status (r : StatusRequest) (actor : Principal)
  | login (r : LoginRequest)

/-- An event answers `ok` when it has changed the accounts, or is a login. -/
def accountEvent (app : LoginApplication) (w : LoginWorld) :
    AccountEvent → Except String Unit × LoginWorld
  | .bootstrap r =>
    let started := bootstrapAdmin parseAddress r w.auth.users
    (started.1, w.setUsers started.2)
  | .create r actor =>
    let created := createPlatformUser parseAddress r actor w
    match created.1 with
    | .result "created" => (.ok (), created.2)
    | .result code => (.error code, created.2)
    | .httpError _ => (.error "http error", created.2)
  | .status r actor =>
    let changed := setPlatformUserStatus r actor w
    match changed.1 with
    | .result "updated" => (.ok (), changed.2)
    | .result code => (.error code, changed.2)
    | .confirm _ => (.error "confirm", changed.2)
  | .login r => (.ok (), (login app r w).2)

/-- What an event writes: the password and role of an account, if it is the last to do so. -/
def credentialWrites : AccountEvent → List (String × (String × UserRole))
  | .bootstrap r =>
    match r.hash with
    | .error _ => []
    | .ok hash => [(r.name, (hash, .admin))]
  | .create r _ =>
    match r.hash, userRole r.role with
    | some hash, some role => [(r.name, (hash, role))]
    | _, _ => []
  | .status _ _ | .login _ => []

/-- What an event writes: the status of an account. -/
def statusWrites : AccountEvent → List (String × Bool)
  | .bootstrap r => [(r.name, true)]
  | .create r _ => [(r.name, true)]
  | .status r _ => [(r.name, r.enabled = "true")]
  | .login _ => []

/-! ## One event -/

variable {parseAddress} {app : LoginApplication} {w : LoginWorld} {name : String}

/-- The account of a name. -/
abbrev LoginWorld.account (w : LoginWorld) (name : String) : Option PlatformUser :=
  w.auth.users.find? name

/-- What a successful event does to the account of each name. -/
inductive AccountChange (w w' : LoginWorld) : AccountEvent → Prop
  | bootstrap {r : BootstrapRequest} {hash : String} {user : PlatformUser} : r.hash = .ok hash →
      user = ⟨r.name, hash, .admin, "", "", "", true, zeroTime⟩ →
      (∀ name, w'.account name = if name = r.name then
        some ((w.account name).elim (UserStore.stamped r.now user) (UserStore.updateRow user))
        else w.account name) → AccountChange w w' (.bootstrap r)
  | create {r : CreateUserRequest} {actor : Principal} {hash : String} {user : PlatformUser} :
      r.hash = some hash → userRole r.role = some user.role → user.username = r.name →
      user.passwordHash = hash → user.enabled = true → w.account r.name = none →
      (∀ name, w'.account name = if name = r.name then some user else w.account name) →
      AccountChange w w' (.create r actor)
  | status {r : StatusRequest} {actor : Principal} : (w.account r.name).isSome →
      (∀ name, w'.account name = if name = r.name then
        (w.account name).map fun user => { user with enabled := r.enabled = "true" }
        else w.account name) → AccountChange w w' (.status r actor)
  | login {r : LoginRequest} : w'.auth.users = w.auth.users → AccountChange w w' (.login r)

theorem signIn_users (r : LoginRequest) (username : String) (role : UserRole) :
    (signIn r w username role).2.auth.users = w.auth.users := by
  rcases signIn_cases r w username role with ⟨_, _, -, hauth⟩ | ⟨-, hauth⟩ <;> rw [hauth]

theorem login_users (r : LoginRequest) : (login app r w).2.auth.users = w.auth.users := by
  have hbegun := beginLogin_auth app r w
  unfold login
  cases h : (beginLogin app r w).1 with
  | error answer =>
    simp only [h]
    rw [hbegun]
  | ok credentials =>
    simp only [h]
    rw [signIn_users, hbegun]

theorem bootstrap_event {r : BootstrapRequest}
    (h : (accountEvent parseAddress app w (.bootstrap r)).1.isOk = true) :
    AccountChange w (accountEvent parseAddress app w (.bootstrap r)).2 (.bootstrap r) := by
  simp only [accountEvent, bootstrapAdmin] at h ⊢
  split at h
  · cases h
  · next hform =>
    rw [if_neg hform]
    split at h
    · cases h
    · next hash hhash =>
      exact .bootstrap hhash rfl fun name => UserStore.find?_upsert h

theorem createUserForm_some {r : CreateUserRequest} {user : PlatformUser}
    (h : createUserForm parseAddress r = some user) :
    user.username = r.name ∧ userRole r.role = some user.role ∧ user.enabled = true := by
  unfold createUserForm at h
  split at h
  · cases h
  · next role hrole =>
    split at h
    · cases h
      exact ⟨rfl, hrole, rfl⟩
    · cases h

/-- A creation that answers so has made an account that was not there. -/
theorem createPlatformUser_created {r : CreateUserRequest} {actor : Principal}
    (h : (createPlatformUser parseAddress r actor w).1 = .result "created") :
    ∃ user hash, createUserForm parseAddress r = some user ∧ r.hash = some hash ∧
      (w.auth.users.create parseAddress r.fault r.now { user with passwordHash := hash }).1.isOk =
        true ∧
      (createPlatformUser parseAddress r actor w).2.auth.users =
        (w.auth.users.create parseAddress r.fault r.now { user with passwordHash := hash }).2 := by
  unfold createPlatformUser at h ⊢
  cases hform : createUserForm parseAddress r with
  | none =>
    rw [hform] at h
    exact absurd (CreateUserAnswer.result.inj h) (by decide)
  | some user =>
    cases hhash : r.hash with
    | none =>
      simp only [hform, hhash] at h
      cases h
    | some hash =>
      simp only [hform, hhash] at h ⊢
      split at h
      · exact absurd (CreateUserAnswer.result.inj h) (by decide)
      · exact absurd (CreateUserAnswer.result.inj h) (by decide)
      · next hok =>
        refine ⟨user, hash, rfl, rfl, ?_, ?_⟩
        · rw [hok]
          rfl
        · simp only [LoginWorld.recordCreated]
          split <;> rfl

theorem createPlatformUser_other {r : CreateUserRequest} {actor : Principal}
    (h : (createPlatformUser parseAddress r actor w).1 ≠ .result "created") :
    (createPlatformUser parseAddress r actor w).2 = w := by
  unfold createPlatformUser at h ⊢
  cases hform : createUserForm parseAddress r with
  | none => rfl
  | some user =>
    cases hhash : r.hash with
    | none => rfl
    | some hash =>
      simp only [hform, hhash] at h ⊢
      have hkeep : (w.auth.users.create parseAddress r.fault r.now
          { user with passwordHash := hash }).1.isOk = false →
          w.setUsers (w.auth.users.create parseAddress r.fault r.now
            { user with passwordHash := hash }).2 = w := by
        intro hfail
        rw [UserStore.create_error hfail]
        rfl
      split
      · next hdup => exact hkeep (by rw [hdup]; rfl)
      · next err herr => exact hkeep (by rw [herr]; rfl)
      · next hok =>
        simp only [hok] at h
        exact absurd rfl h

theorem create_answer (r : CreateUserRequest) (actor : Principal) :
    (accountEvent parseAddress app w (.create r actor)).2 =
        (createPlatformUser parseAddress r actor w).2 ∧
      ((accountEvent parseAddress app w (.create r actor)).1.isOk = true →
        (createPlatformUser parseAddress r actor w).1 = .result "created") := by
  simp only [accountEvent]
  split
  · next h => exact ⟨rfl, fun _ => h⟩
  · exact ⟨rfl, fun h => nomatch h⟩
  · exact ⟨rfl, fun h => nomatch h⟩

theorem status_answer (r : StatusRequest) (actor : Principal) :
    (accountEvent parseAddress app w (.status r actor)).2 = (setPlatformUserStatus r actor w).2 ∧
      ((accountEvent parseAddress app w (.status r actor)).1.isOk = true →
        (setPlatformUserStatus r actor w).1 = .result "updated") := by
  simp only [accountEvent]
  split
  · next h => exact ⟨rfl, fun _ => h⟩
  · exact ⟨rfl, fun h => nomatch h⟩
  · exact ⟨rfl, fun h => nomatch h⟩

theorem create_event {r : CreateUserRequest} {actor : Principal}
    (h : (accountEvent parseAddress app w (.create r actor)).1.isOk = true) :
    AccountChange w (accountEvent parseAddress app w (.create r actor)).2 (.create r actor) := by
  obtain ⟨hstate, hcreated⟩ := @create_answer parseAddress app w r actor
  obtain ⟨user, hash, hform, hhash, hok, husers⟩ := createPlatformUser_created (hcreated h)
  obtain ⟨hname, hrole, henabled⟩ := createUserForm_some hform
  obtain ⟨hnew, hfind⟩ := UserStore.find?_create hok
  rw [hstate]
  have haccount : ∀ name, (createPlatformUser parseAddress r actor w).2.account name =
      if name = r.name then some (UserStore.stamped r.now { user with passwordHash := hash })
      else w.account name := by
    intro name
    unfold LoginWorld.account
    rw [husers, hfind name]
    simp only [hname]
  refine .create hhash ?_ ?_ ?_ ?_ ?_ haccount
  · exact hrole
  · exact hname
  · rfl
  · exact henabled
  · rw [← hname]
    exact hnew

theorem status_change {r : StatusRequest} {actor : Principal} {username : String} {enabled : Bool}
    (h : statusChecks r actor = .ok (username, enabled)) :
    username = r.name ∧ enabled = decide (r.enabled = "true") := by
  unfold statusChecks at h
  split at h
  · cases h
  · split at h
    · cases h
    · split at h
      · cases h
      · cases h
        exact ⟨rfl, rfl⟩

/-- A change of status that answers so has changed the account it names. -/
theorem status_updated {r : StatusRequest} {actor : Principal}
    (h : (setPlatformUserStatus r actor w).1 = .result "updated") :
    (w.account r.name).isSome ∧ (setPlatformUserStatus r actor w).2.auth.users =
      w.auth.users.updateEnabled r.name (r.enabled = "true") := by
  unfold setPlatformUserStatus at h ⊢
  cases hchecks : statusChecks r actor with
  | error answer =>
    simp only [hchecks] at h
    unfold statusChecks at hchecks
    split at hchecks
    · rw [← Except.error.inj hchecks] at h
      exact absurd (StatusAnswer.result.inj h) (by decide)
    · split at hchecks
      · rw [← Except.error.inj hchecks] at h
        exact absurd (StatusAnswer.result.inj h) (by decide)
      · split at hchecks
        · rw [← Except.error.inj hchecks] at h
          cases h
        · cases hchecks
  | ok change =>
    obtain ⟨username, enabled⟩ := change
    have hchange := status_change hchecks
    simp only [hchecks] at h ⊢
    cases hupdate : (w.auth.users.setEnabled r.updateFault username enabled).1 with
    | error err =>
      simp only [hupdate] at h
      exact absurd (StatusAnswer.result.inj h) (by decide)
    | ok u =>
      have hsome := (UserStore.setEnabled_eq_ok_iff.mp hupdate).2
      have hstore := UserStore.setEnabled_ok hupdate
      rw [hchange.1] at hsome
      refine ⟨hsome, ?_⟩
      simp only [LoginWorld.recordStatus]
      rw [← hchange.1, ← hchange.2, ← hstore]
      cases r.auditFault <;> cases enabled <;> rfl

theorem status_event {r : StatusRequest} {actor : Principal}
    (h : (accountEvent parseAddress app w (.status r actor)).1.isOk = true) :
    AccountChange w (accountEvent parseAddress app w (.status r actor)).2 (.status r actor) := by
  obtain ⟨hstate, hupdated⟩ := @status_answer parseAddress app w r actor
  obtain ⟨hsome, husers⟩ := status_updated (hupdated h)
  rw [hstate]
  refine .status hsome fun name => ?_
  unfold LoginWorld.account
  rw [husers]
  exact UserStore.find?_updateEnabled _ _ _ _

theorem event_change {e : AccountEvent} (h : (accountEvent parseAddress app w e).1.isOk = true) :
    AccountChange w (accountEvent parseAddress app w e).2 e := by
  cases e with
  | bootstrap r => exact bootstrap_event h
  | create r actor => exact create_event h
  | status r actor => exact status_event h
  | login r => exact .login (login_users r)

theorem bootstrapAdmin_error {r : BootstrapRequest} {s : UserStore}
    (h : (bootstrapAdmin parseAddress r s).1.isOk = false) :
    (bootstrapAdmin parseAddress r s).2 = s := by
  unfold bootstrapAdmin at h ⊢
  split
  · rfl
  · next hform =>
    rw [if_neg hform] at h
    split
    · rfl
    · next hash hhash =>
      rw [hhash] at h
      exact UserStore.upsert_error h

theorem status_other {r : StatusRequest} {actor : Principal}
    (h : (setPlatformUserStatus r actor w).1 ≠ .result "updated") :
    (setPlatformUserStatus r actor w).2 = w := by
  unfold setPlatformUserStatus at h ⊢
  cases hchecks : statusChecks r actor with
  | error answer => rfl
  | ok change =>
    obtain ⟨username, enabled⟩ := change
    simp only [hchecks] at h ⊢
    cases hupdate : (w.auth.users.setEnabled r.updateFault username enabled).1 with
    | error err =>
      simp only
      rw [UserStore.setEnabled_error hupdate]
      rfl
    | ok u =>
      simp only [hupdate] at h
      exact absurd rfl h

/-- An event that fails changes nothing. -/
theorem event_error {e : AccountEvent} (h : (accountEvent parseAddress app w e).1.isOk = false) :
    (accountEvent parseAddress app w e).2 = w := by
  cases e with
  | bootstrap r =>
    simp only [accountEvent] at h ⊢
    rw [bootstrapAdmin_error h]
    rfl
  | create r actor =>
    rw [(@create_answer parseAddress app w r actor).1]
    apply createPlatformUser_other
    intro hcreated
    simp only [accountEvent, hcreated] at h
    cases h
  | status r actor =>
    rw [(@status_answer parseAddress app w r actor).1]
    apply status_other
    intro hupdated
    simp only [accountEvent, hupdated] at h
    cases h
  | login r => cases h

/-! ## Runs -/

/-- The events that answered `ok`, in order. -/
abbrev doneEvents (parseAddress : String → Option String) (app : LoginApplication)
    (w : LoginWorld) (events : List AccountEvent) : List AccountEvent :=
  accepted (accountEvent parseAddress app) w events

theorem lookup_single {ν : Type} (key name : String) (value : ν) :
    [(key, value)].lookup name = if name = key then some value else none := by
  by_cases h : name = key
  · simp [h]
  · have hbeq : (name == key) = false := by simpa using h
    simp [List.lookup_cons, hbeq, h]

/-- What every successful event writes of the accounts is afterwards that of the last writer. -/
theorem part_after {ν : Type} (part : PlatformUser → ν) (writes : AccountEvent → List (String × ν))
    (hwrites : ∀ w w' e, AccountChange w w' e → ∀ name,
      (w'.account name).map part = ((writes e).lookup name).or ((w.account name).map part))
    (w : LoginWorld) (events : List AccountEvent) (name : String) :
    ((after (accountEvent parseAddress app) w events).account name).map part =
      (lastWrite ((doneEvents parseAddress app w events).map writes) name).or
        ((w.account name).map part) := by
  refine after_lastWrite (fun w' name value => (w'.account name).map part =
      value.or ((w.account name).map part)) (fun _ _ h => event_error h) ?_ (fun _ => rfl)
    events name
  intro w' e hok name
  have hchange := hwrites w' _ e (event_change hok) name
  cases hlookup : (writes e).lookup name with
  | none =>
    intro value h
    rw [hchange, hlookup]
    exact h
  | some value =>
    rw [hlookup] at hchange
    exact hchange

theorem credentials_change {w w' : LoginWorld} {e : AccountEvent} (h : AccountChange w w' e)
    (name : String) : (w'.account name).map (fun user => (user.passwordHash, user.role)) =
      ((credentialWrites e).lookup name).or
        ((w.account name).map fun user => (user.passwordHash, user.role)) := by
  cases h with
  | @bootstrap r hash user hhash huser hfind =>
    simp only [credentialWrites, hhash, lookup_single]
    rw [hfind name, huser]
    by_cases heq : name = r.name
    · rw [if_pos heq, if_pos heq]
      cases w.account name <;> rfl
    · rw [if_neg heq, if_neg heq]
      rfl
  | @create r actor hash user hhash hrole hname hpass henabled hnew hfind =>
    simp only [credentialWrites, hhash, hrole, lookup_single]
    rw [hfind name]
    by_cases heq : name = r.name
    · rw [if_pos heq, if_pos heq, Option.map_some, hpass]
      rfl
    · rw [if_neg heq, if_neg heq]
      rfl
  | @status r actor hsome hfind =>
    rw [hfind name]
    by_cases heq : name = r.name
    · rw [if_pos heq, Option.map_map]
      rfl
    · rw [if_neg heq]
      rfl
  | login husers =>
    unfold LoginWorld.account
    rw [husers]
    rfl

theorem enabled_change {w w' : LoginWorld} {e : AccountEvent} (h : AccountChange w w' e)
    (name : String) : (w'.account name).map PlatformUser.enabled =
      ((statusWrites e).lookup name).or ((w.account name).map PlatformUser.enabled) := by
  cases h with
  | @bootstrap r hash user hhash huser hfind =>
    simp only [statusWrites, lookup_single]
    rw [hfind name, huser]
    by_cases heq : name = r.name
    · rw [if_pos heq, if_pos heq]
      cases w.account name <;> rfl
    · rw [if_neg heq, if_neg heq]
      rfl
  | @create r actor hash user hhash hrole hname hpass henabled hnew hfind =>
    simp only [statusWrites, lookup_single]
    rw [hfind name]
    by_cases heq : name = r.name
    · rw [if_pos heq, if_pos heq, Option.map_some, henabled]
      rfl
    · rw [if_neg heq, if_neg heq]
      rfl
  | @status r actor hsome hfind =>
    simp only [statusWrites, lookup_single]
    rw [hfind name]
    by_cases heq : name = r.name
    · obtain ⟨user, huser⟩ := Option.isSome_iff_exists.mp hsome
      rw [if_pos heq, if_pos heq, heq, huser]
      rfl
    · rw [if_neg heq, if_neg heq]
      rfl
  | login husers =>
    unfold LoginWorld.account
    rw [husers]
    rfl

/-! ## Who can log in -/

/-- After any bootstraps, creations, changes of status and logins, in any order and with any of
    them failing, a login under a username that an account can have: it is let in as an account
    exactly if some event made the account, the last one to write its status enabled it, and
    the password fits the hash that the last one to write it wrote; its role is written with
    that hash. -/
theorem who_can_log_in (parseAddress : String → Option String) (app : LoginApplication)
    {w : LoginWorld} (hempty : w.auth.users = .empty) (events : List AccountEvent)
    {r : LoginRequest} (hname : ValidUsername r.name) (hfault : r.userFault = none)
    (role : UserRole) :
    (∃ user, user.role = role ∧
      checkCredentials app r (after (accountEvent parseAddress app) w events) r.name =
        .ok (.platform user)) ↔
      lastWrite ((doneEvents parseAddress app w events).map statusWrites) r.name = some true ∧
      ∃ hash, lastWrite ((doneEvents parseAddress app w events).map credentialWrites) r.name =
          some (hash, role) ∧
        app.comparePassword hash r.password = true := by
  have hnone : w.account r.name = none := by
    unfold LoginWorld.account
    rw [hempty]
    rfl
  have hcredentials := @part_after parseAddress app _ _ credentialWrites
    (fun _ _ _ => credentials_change) w events r.name
  have hstatus := @part_after parseAddress app _ _ statusWrites
    (fun _ _ _ => enabled_change) w events r.name
  rw [hnone, Option.map_none, Option.or_none] at hcredentials hstatus
  have hlookup : lookupUser r (after (accountEvent parseAddress app) w events) r.name =
      .ok ((after (accountEvent parseAddress app) w events).account r.name) := by
    unfold lookupUser
    rw [validateUsername_eq_ok_iff.mpr hname]
    exact UserStore.get_of_valid hname hfault
  unfold checkCredentials
  rw [hlookup, ← hcredentials, ← hstatus]
  cases haccount : (after (accountEvent parseAddress app) w events).account r.name with
  | none =>
    simp only [Option.map_none]
    constructor
    · rintro ⟨user, -, h⟩
      split at h <;> cases h
    · rintro ⟨h, -⟩
      cases h
  | some user =>
    simp only [Option.map_some, Option.some.injEq, Prod.mk.injEq]
    constructor
    · rintro ⟨user', hrole, h⟩
      split at h
      · next hgood =>
        cases h
        exact ⟨hgood.1, user.passwordHash, ⟨rfl, hrole⟩, hgood.2⟩
      · cases h
    · rintro ⟨henabled, hash, ⟨rfl, hrole⟩, hcompare⟩
      exact ⟨user, hrole, if_pos ⟨henabled, hcompare⟩⟩

def newWorld : LoginWorld := ⟨.start 0 .empty, [], [], []⟩

def hashingApplication : LoginApplication :=
  ⟨fun hash password => hash = "hash:" ++ password, none⟩

def rootVisit : Visit :=
  ⟨"/platform/users/status", "POST", some "token", some "csrf", "csrf", "", ""⟩

def aliceStatus (enabled : String) : StatusRequest :=
  ⟨rootVisit, "alice", enabled, "true", none, none, none, 0⟩

def aliceCreation : CreateUserRequest :=
  ⟨" alice ", "alice password", "user", "", "", "", some "hash:alice password", none, none, 0⟩

/-- A start, a creation, a second one of the same name, and alice disabled and enabled again. -/
def aliceEvents : List AccountEvent :=
  [.bootstrap ⟨"root", "root password", .ok "hash:root password", none, 0⟩,
    .create aliceCreation ⟨"root", .admin⟩,
    .create { aliceCreation with hash := some "hash:other password" } ⟨"root", .admin⟩,
    .status (aliceStatus "false") ⟨"root", .admin⟩, .status (aliceStatus "true") ⟨"root", .admin⟩]

def alicePasswordLogin : LoginRequest where
  username := "alice"
  password := "alice password"
  next := ""
  clientKey := "192.0.2.1"
  lang := "en"
  userFault := none
  auditFault := none
  connection := ⟨none, none, none, fun _ _ => .invalidCredentials⟩
  token := some "token"
  csrfToken := some "csrf"
  reservedAt := 0
  recordedAt := 0
  signedInAt := 0
  purgedAt _ := 0
  finishedAt := 0

theorem who_can_log_in_alice : ∃ user : PlatformUser, user.role = .user ∧
    checkCredentials hashingApplication alicePasswordLogin
      (after (accountEvent (fun _ => none) hashingApplication) newWorld aliceEvents)
      alicePasswordLogin.name = .ok (.platform user) :=
  (who_can_log_in (fun _ => none) hashingApplication rfl aliceEvents (by decide +kernel) rfl
    .user).mpr
    ⟨by decide +kernel, "hash:alice password", by decide +kernel, by decide +kernel⟩

/-! ## What stays -/

/-- The part of an account that is written when it is made. -/
def profile (user : PlatformUser) : String × String × String × Time :=
  (user.phone, user.organization, user.email, user.createdAt)

theorem change_keeps {w w' : LoginWorld} {e : AccountEvent} (h : AccountChange w w' e)
    {old : PlatformUser} (hold : w.account name = some old) :
    ∃ user, w'.account name = some user ∧ profile user = profile old ∧
      ((∀ r, e = .bootstrap r → r.name ≠ name) →
        user.passwordHash = old.passwordHash ∧ user.role = old.role) := by
  cases h with
  | @bootstrap r hash user hhash huser hfind =>
    have haccount := hfind name
    rw [hold] at haccount
    by_cases heq : name = r.name
    · rw [if_pos heq] at haccount
      exact ⟨_, haccount, rfl, fun hno => absurd heq.symm (hno r rfl)⟩
    · rw [if_neg heq] at haccount
      exact ⟨old, haccount, rfl, fun _ => ⟨rfl, rfl⟩⟩
  | @create r actor hash user hhash hrole hname hpass henabled hnew hfind =>
    have hne : name ≠ r.name := by
      rintro rfl
      rw [hnew] at hold
      cases hold
    have haccount := hfind name
    rw [if_neg hne, hold] at haccount
    exact ⟨old, haccount, rfl, fun _ => ⟨rfl, rfl⟩⟩
  | @status r actor hsome hfind =>
    have haccount := hfind name
    rw [hold] at haccount
    by_cases heq : name = r.name
    · rw [if_pos heq] at haccount
      exact ⟨_, haccount, rfl, fun _ => ⟨rfl, rfl⟩⟩
    · rw [if_neg heq] at haccount
      exact ⟨old, haccount, rfl, fun _ => ⟨rfl, rfl⟩⟩
  | login husers =>
    refine ⟨old, ?_, rfl, fun _ => ⟨rfl, rfl⟩⟩
    unfold LoginWorld.account
    rw [husers]
    exact hold

theorem event_keeps (e : AccountEvent) {old : PlatformUser} (hold : w.account name = some old) :
    ∃ user, (accountEvent parseAddress app w e).2.account name = some user ∧
      profile user = profile old ∧
      ((∀ r, e = .bootstrap r → r.name ≠ name) →
        user.passwordHash = old.passwordHash ∧ user.role = old.role) := by
  cases hok : (accountEvent parseAddress app w e).1.isOk with
  | true => exact change_keeps (event_change hok) hold
  | false =>
    rw [event_error hok]
    exact ⟨old, hold, rfl, fun _ => ⟨rfl, rfl⟩⟩

/-- The first of the events is over. -/
def startedWorld : LoginWorld :=
  after (accountEvent (fun _ => none) hashingApplication) newWorld (aliceEvents.take 1)

theorem startedWorld_root : (startedWorld.account "root").isSome := by
  decide +kernel

theorem startedWorld_hash :
    ((startedWorld.account "root").get startedWorld_root).passwordHash = "hash:root password" := by
  decide +kernel

end OpenHpcWeb.Web
