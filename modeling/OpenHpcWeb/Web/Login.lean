/-
  The login handler of internal/web/app.go.

  A request brings its form, the outcomes of `randomToken` and the readings of the clock it
  makes, and meets the user table, the directory and the audit log. `bcrypt` is a parameter
  (`comparePassword`). The rate limit counts per client address; its map is kept in the order
  in which `range` walks it.

  * `login_signedIn`: what a login that issues a session has checked and left behind.
-/
import OpenHpcWeb.Ldap.Client
import OpenHpcWeb.Web.Partitions
import OpenHpcWeb.Web.Sessions

namespace OpenHpcWeb.Web

open OpenHpcWeb.Go OpenHpcWeb.Lib OpenHpcWeb.Platform OpenHpcWeb.Ldap
open OpenHpcWeb.Lib.Ldap (Schema Entry)

/-! ## The rate limit -/

structure LoginAttempt where
  count : Nat
  windowStart : Time

/-- `loginAttemptStore`. -/
abbrev LoginAttempts := List (String × LoginAttempt)

def loginWindow : Time := 15 * 60 * 1000000000

/-- The loop of `reserve` that looks for the oldest entry but that of `key`. -/
def oldestAttempt (key : String) (now : Time) (attempts : LoginAttempts) : String × Time :=
  attempts.foldl (fun oldest a =>
    if a.1 ≠ key ∧ a.2.windowStart ≤ oldest.2 then (a.1, a.2.windowStart) else oldest) (key, now)

def LoginAttempts.remove (attempts : LoginAttempts) (key : String) : LoginAttempts :=
  List.filter (fun a => a.1 ≠ key) attempts

/-- `reserve`; `none` is its `false`. -/
def LoginAttempts.reserve (attempts : LoginAttempts) (key : String) (now : Time) :
    Option LoginAttempts :=
  let current : LoginAttempt :=
    match attempts.find? fun a => a.1 = key with
    | none => ⟨0, now⟩
    | some a => if loginWindow ≤ now - a.2.windowStart then ⟨0, now⟩ else a.2
  if 5 ≤ current.count then none
  else
    let fresh : LoginAttempts :=
      List.filter (fun a => now - a.2.windowStart < loginWindow) attempts
    let updated : LoginAttempts :=
      LoginAttempts.remove fresh key ++ [(key, ⟨current.count + 1, current.windowStart⟩)]
    if 4096 < updated.length then
      some (LoginAttempts.remove updated (oldestAttempt key now updated).1)
    else some updated

/-! ## Requests and answers -/

structure LoginRequest where
  username : String
  password : String
  next : String
  /-- `c.RealIP()` -/
  clientKey : String
  lang : String
  userFault : Option String
  auditFault : Option String
  connection : Connection
  /-- the first and the second call of `randomToken` -/
  token : Option String
  csrfToken : Option String
  reservedAt : Time
  recordedAt : Time
  signedInAt : Time
  /-- the readings of the clock in `add` -/
  purgedAt : String → Time
  finishedAt : Time

inductive LoginAnswer where
  | httpError (status : Nat) (message : Option String)
  /-- login.html with this error and the `next` of its form -/
  | page (status : Nat) (next : String) (error : String)
  /-- 303 to `next` with the two cookies -/
  | signedIn (token csrfToken next : String)
  deriving DecidableEq

structure LoginWorld where
  auth : AuthState
  attempts : LoginAttempts
  audit : List AuditEvent
  directory : List Entry

/-- The directory client of an application, with the server it talks to. -/
structure LdapService where
  schema : Schema
  config : Config

structure LoginApplication where
  /-- `bcrypt.CompareHashAndPassword`, of a hash and a password -/
  comparePassword : String → String → Bool
  /-- the directory provider, if there is one and it can authenticate -/
  ldap : Option LdapService

def safeNext (value : String) : String :=
  if value ≠ "" ∧ "/".toList <+: value.toList ∧ ¬ "//".toList <+: value.toList ∧
      ¬ contains value "\\" then value
  else "/dashboard"

/-! ## The credentials -/

/-- What the credentials of a login are. -/
inductive Credentials where
  | platform (user : PlatformUser)
  | directory (entry : Entry)
  | denied

/-- The lookup of the local account: none is made under a name the store does not take. -/
def lookupUser (r : LoginRequest) (w : LoginWorld) (username : String) :
    Except String (Option PlatformUser) :=
  match validateUsername username with
  | .error _ => .ok none
  | .ok () => w.auth.users.get r.userFault username

/-- `authenticateLDAPUser`, with the entry that was bound. -/
def authenticateLDAPUser (app : LoginApplication) (r : LoginRequest) (w : LoginWorld)
    (username : String) : Except String (Option Entry) :=
  match app.ldap with
  | none => .ok none
  | some ldap =>
    authenticatedEntry ldap.schema w.directory ldap.config r.connection username r.password

/-- `login` from the lookup of the account to the verdict on the credentials. -/
def checkCredentials (app : LoginApplication) (r : LoginRequest) (w : LoginWorld)
    (username : String) : Except LoginAnswer Credentials :=
  match lookupUser r w username with
  | .error _ => .error (.httpError 503 none)
  | .ok (some user) =>
    if user.enabled ∧ app.comparePassword user.passwordHash r.password then .ok (.platform user)
    else .ok .denied
  | .ok none =>
    match authenticateLDAPUser app r w username with
    | .error _ => .error (.httpError 503 none)
    | .ok (some entry) => .ok (.directory entry)
    | .ok none => .ok .denied

def Credentials.role : Credentials → UserRole
  | .platform user => user.role
  | _ => .user

/-! ## The handler -/

def LoginWorld.recordAudit (w : LoginWorld) (r : LoginRequest) (username outcome : String) :
    Except LoginAnswer LoginWorld :=
  match r.auditFault with
  | some _ => .error (.httpError 503 none)
  | none => .ok { w with audit := w.audit ++ [⟨username, "auth.login", outcome, r.recordedAt⟩] }

def loginError (lang : String) : String :=
  if lang = "en" then "Invalid username or password" else "用户名或密码错误"

/-- `login` after credentials that are good. -/
def signIn (r : LoginRequest) (w : LoginWorld) (username : String) (role : UserRole) :
    LoginAnswer × LoginWorld :=
  match r.token, r.csrfToken with
  | some token, some csrfToken =>
    match w.recordAudit r username "success" with
    | .error answer => (answer, w)
    | .ok w =>
      (.signedIn token csrfToken (safeNext r.next),
        { w with
          attempts := w.attempts.remove r.clientKey
          auth := { w.auth with
            clock := r.finishedAt
            sessions := w.auth.sessions.add r.purgedAt token
              ⟨r.signedInAt + 12 * 60 * 60 * 1000000000, csrfToken, username, role⟩
            issued := token :: w.auth.issued } })
  | _, _ => (.httpError 500 none, w)

/-- The username of the form. -/
def LoginRequest.name (r : LoginRequest) : String := trimSpace r.username

/-- `login` up to its verdict: the credentials, or the answer. -/
def beginLogin (app : LoginApplication) (r : LoginRequest) (w : LoginWorld) :
    Except LoginAnswer Credentials × LoginWorld :=
  if r.name = "" ∨ 64 < byteLen r.name ∨ r.password = "" ∨ 256 < byteLen r.password then
    (.error (.httpError 400 (some "invalid credentials format")), w)
  else
    match w.attempts.reserve r.clientKey r.reservedAt with
    | none => (.error (.httpError 429 (some "too many login attempts")), w)
    | some attempts =>
      let w : LoginWorld := { w with attempts := attempts }
      match checkCredentials app r w r.name with
      | .error answer => (.error answer, w)
      | .ok .denied =>
        match w.recordAudit r r.name "denied" with
        | .error answer => (.error answer, w)
        | .ok w => (.error (.page 401 (safeNext r.next) (loginError r.lang)), w)
      | .ok credentials => (.ok credentials, w)

def login (app : LoginApplication) (r : LoginRequest) (w : LoginWorld) :
    LoginAnswer × LoginWorld :=
  let begun := beginLogin app r w
  match begun.1 with
  | .error answer => (answer, begun.2)
  | .ok credentials => signIn r begun.2 r.name credentials.role

/-! ## What a session stands for -/

/-- The entry that a login adds to the session store. -/
def LoginRequest.session (r : LoginRequest) (csrfToken : String) (role : UserRole) : SessionData :=
  ⟨r.signedInAt + 12 * 60 * 60 * 1000000000, csrfToken, r.name, role⟩

/-- What a login has checked and left behind when it issues a session. -/
structure SignedIn (app : LoginApplication) (r : LoginRequest) (w w' : LoginWorld)
    (token csrfToken : String) (credentials : Credentials) : Prop where
  named : r.name ≠ ""
  checked : checkCredentials app r w r.name = .ok credentials
  good : credentials ≠ .denied
  auth : w'.auth = { w.auth with
    clock := r.finishedAt
    sessions := w.auth.sessions.add r.purgedAt token (r.session csrfToken credentials.role)
    issued := token :: w.auth.issued }

theorem checkCredentials_attempts {app : LoginApplication} {r : LoginRequest} {w : LoginWorld}
    {attempts : LoginAttempts} {username : String} :
    checkCredentials app r { w with attempts := attempts } username =
      checkCredentials app r w username := rfl

theorem checkCredentials_error {app : LoginApplication} {r : LoginRequest} {w : LoginWorld}
    {username : String} {answer : LoginAnswer}
    (h : checkCredentials app r w username = .error answer) : answer = .httpError 503 none := by
  unfold checkCredentials at h
  split at h
  · exact (Except.error.inj h).symm
  · split at h <;> cases h
  · split at h
    · exact (Except.error.inj h).symm
    · cases h
    · cases h

/-- `signIn` issues a session, or leaves sessions and users as they are. -/
theorem signIn_cases (r : LoginRequest) (w : LoginWorld) (username : String) (role : UserRole) :
    (∃ token csrfToken, (signIn r w username role).1 = .signedIn token csrfToken (safeNext r.next) ∧
      (signIn r w username role).2.auth = { w.auth with
        clock := r.finishedAt
        sessions := w.auth.sessions.add r.purgedAt token
          ⟨r.signedInAt + 12 * 60 * 60 * 1000000000, csrfToken, username, role⟩
        issued := token :: w.auth.issued }) ∨
    (∀ token csrfToken next, (signIn r w username role).1 ≠ .signedIn token csrfToken next) ∧
      (signIn r w username role).2.auth = w.auth := by
  unfold signIn
  cases htoken : r.token with
  | none => exact .inr ⟨by simp, rfl⟩
  | some token =>
    cases hcsrf : r.csrfToken with
    | none => exact .inr ⟨by simp, rfl⟩
    | some csrfToken =>
      cases haudit : r.auditFault with
      | some text =>
        simp only [LoginWorld.recordAudit, haudit]
        exact .inr ⟨by simp, trivial⟩
      | none =>
        simp only [LoginWorld.recordAudit, haudit]
        exact .inl ⟨token, csrfToken, rfl, rfl⟩

theorem signIn_signedIn {r : LoginRequest} {w : LoginWorld} {username : String} {role : UserRole}
    {token csrfToken next : String}
    (h : (signIn r w username role).1 = .signedIn token csrfToken next) :
    (signIn r w username role).2.auth = { w.auth with
      clock := r.finishedAt
      sessions := w.auth.sessions.add r.purgedAt token
        ⟨r.signedInAt + 12 * 60 * 60 * 1000000000, csrfToken, username, role⟩
      issued := token :: w.auth.issued } := by
  rcases signIn_cases r w username role with ⟨token', csrfToken', hanswer, hauth⟩ | ⟨hno, -⟩
  · rw [hanswer] at h
    cases h
    exact hauth
  · exact absurd h (hno token csrfToken next)

/-- `beginLogin` answers with a page or an error, never with a session, or goes on with the
    credentials it has checked. -/
theorem beginLogin_cases (app : LoginApplication) (r : LoginRequest) (w : LoginWorld) :
    (∃ answer, (beginLogin app r w).1 = .error answer ∧
      ∀ token csrfToken next, answer ≠ .signedIn token csrfToken next) ∨
    (∃ credentials, (beginLogin app r w).1 = .ok credentials ∧ r.name ≠ "" ∧
      checkCredentials app r w r.name = .ok credentials ∧ credentials ≠ .denied) := by
  unfold beginLogin
  split
  · exact .inl ⟨_, rfl, by simp⟩
  · next hform =>
    simp only [not_or] at hform
    cases hreserve : w.attempts.reserve r.clientKey r.reservedAt with
    | none => exact .inl ⟨_, rfl, by simp⟩
    | some attempts =>
      simp only [checkCredentials_attempts]
      cases hcheck : checkCredentials app r w r.name with
      | error answer => exact .inl ⟨_, rfl, by simp [checkCredentials_error hcheck]⟩
      | ok found =>
        cases found with
        | denied =>
          simp only [LoginWorld.recordAudit]
          cases r.auditFault with
          | some text => exact .inl ⟨_, rfl, by simp⟩
          | none => exact .inl ⟨_, rfl, by simp⟩
        | platform user => exact .inr ⟨_, rfl, hform.1, rfl, by simp⟩
        | directory entry => exact .inr ⟨_, rfl, hform.1, rfl, by simp⟩

theorem beginLogin_ok {app : LoginApplication} {r : LoginRequest} {w : LoginWorld}
    {credentials : Credentials} (h : (beginLogin app r w).1 = .ok credentials) :
    r.name ≠ "" ∧ checkCredentials app r w r.name = .ok credentials ∧ credentials ≠ .denied := by
  rcases beginLogin_cases app r w with ⟨answer, herror, -⟩ | ⟨credentials', hok, hchecked⟩
  · rw [herror] at h
    cases h
  · rw [hok] at h
    cases h
    exact hchecked

theorem beginLogin_error {app : LoginApplication} {r : LoginRequest} {w : LoginWorld}
    {answer : LoginAnswer} (h : (beginLogin app r w).1 = .error answer)
    (token csrfToken next : String) : answer ≠ .signedIn token csrfToken next := by
  rcases beginLogin_cases app r w with ⟨answer', herror, hno⟩ | ⟨credentials, hok, -⟩
  · rw [herror] at h
    cases h
    exact hno token csrfToken next
  · rw [hok] at h
    cases h

/-- `beginLogin` leaves users and sessions. -/
theorem beginLogin_auth (app : LoginApplication) (r : LoginRequest) (w : LoginWorld) :
    (beginLogin app r w).2.auth = w.auth := by
  unfold beginLogin
  split
  · rfl
  · split
    · rfl
    · simp only [LoginWorld.recordAudit]
      split
      · rfl
      · cases r.auditFault <;> rfl
      · rfl

theorem login_signedIn {app : LoginApplication} {r : LoginRequest} {w : LoginWorld}
    {token csrfToken next : String} (h : (login app r w).1 = .signedIn token csrfToken next) :
    ∃ credentials, SignedIn app r w (login app r w).2 token csrfToken credentials := by
  unfold login at h ⊢
  cases hbegun : (beginLogin app r w).1 with
  | error answer =>
    simp only [hbegun] at h
    exact absurd h (beginLogin_error hbegun token csrfToken next)
  | ok credentials =>
    obtain ⟨hname, hcheck, hgood⟩ := beginLogin_ok hbegun
    simp only [hbegun] at h ⊢
    refine ⟨credentials, hname, hcheck, hgood, ?_⟩
    rw [signIn_signedIn h, beginLogin_auth]
    rfl

end OpenHpcWeb.Web
