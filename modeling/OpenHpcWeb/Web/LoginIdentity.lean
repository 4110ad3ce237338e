/-
  Whose session a login issues, and whether the middleware takes it.

  The name typed into the form becomes the username of the session. The directory finds an
  entry by that name under its own comparison, and the local lookup, where one is made, asks
  for the name letter for letter.

  * `directory_session_iff`: a session that was issued through the directory carries a uid of
    the bound entry, and no local account has that uid, exactly when the typed name is one of
    the entry's uids letter for letter.
  * `signed_in_served_iff`: the requests of a session reach their handlers exactly when its
    username is one the local store can be asked for.
-/
import OpenHpcWeb.Web.AccessGate
import OpenHpcWeb.Web.Login

namespace OpenHpcWeb.Web

open OpenHpcWeb.Go OpenHpcWeb.Lib OpenHpcWeb.Platform OpenHpcWeb.Ldap
open OpenHpcWeb.Lib.Ldap (Schema Entry)

variable {app : LoginApplication} {r : LoginRequest} {w : LoginWorld}
  {token csrfToken next : String}

/-! ## The credentials -/

/-- No local account has the name of a login that goes to the directory. -/
theorem find?_of_lookupUser_none (h : lookupUser r w r.name = .ok none) :
    w.auth.users.find? r.name = none := by
  unfold lookupUser at h
  split at h
  · next hname =>
    refine UserStore.find?_eq_none_of_invalid _ fun hvalid => ?_
    rw [validateUsername_eq_ok_iff.mpr hvalid] at hname
    cases hname
  · exact (UserStore.get_eq_ok_iff.mp h).2.2

theorem find?_of_lookupUser_some {user : PlatformUser}
    (h : lookupUser r w r.name = .ok (some user)) :
    ValidUsername r.name ∧ w.auth.users.find? r.name = some user := by
  unfold lookupUser at h
  split at h
  · cases h
  · obtain ⟨hvalid, -, hfind⟩ := UserStore.get_eq_ok_iff.mp h
    exact ⟨hvalid, hfind⟩

theorem checkCredentials_platform {user : PlatformUser}
    (h : checkCredentials app r w r.name = .ok (.platform user)) :
    ValidUsername r.name ∧ w.auth.users.find? r.name = some user ∧ user.enabled = true := by
  unfold checkCredentials at h
  split at h
  · cases h
  · next hlookup =>
    split at h
    · next hgood =>
      cases h
      obtain ⟨hvalid, hfind⟩ := find?_of_lookupUser_some hlookup
      exact ⟨hvalid, hfind, hgood.1⟩
    · cases h
  · split at h <;> cases h

/-- A login through the directory: no local account of the name, and the one entry that
    matches the name, bound with the password. -/
theorem checkCredentials_directory {entry : Entry}
    (h : checkCredentials app r w r.name = .ok (.directory entry)) :
    w.auth.users.find? r.name = none ∧ entry ∈ w.directory ∧
      r.connection.bind entry.dn r.password = .accepted := by
  unfold checkCredentials at h
  split at h
  · cases h
  · split at h <;> cases h
  · next hlookup =>
    split at h
    · cases h
    · next bound hldap =>
      cases h
      unfold authenticateLDAPUser at hldap
      split at hldap
      · cases hldap
      · exact ⟨find?_of_lookupUser_none hlookup, (bound_entry hldap).1,
          (authenticatedEntry_eq_some hldap).2.1⟩
    · cases h

/-- The session a login issues is the one of the typed name. -/
theorem login_session (h : (login app r w).1 = .signedIn token csrfToken next) :
    ∃ role, (login app r w).2.auth.sessions.tokens token = some (r.session csrfToken role) := by
  obtain ⟨credentials, hsigned⟩ := login_signedIn h
  refine ⟨credentials.role, ?_⟩
  rw [hsigned.auth]
  simp [SessionStore.add]

/-! ## Directory logins -/

/-- The session under `token` belongs to a uid of `entry` that no local account has. -/
def BoundTo (s : AuthState) (token : String) (entry : Entry) (users : UserStore) : Prop :=
  ∃ data, s.sessions.tokens token = some data ∧ data.username ∈ entry.values "uid" ∧
    users.find? data.username = none

section Example

/-- A server that compares uids without regard to case. -/
private def exampleSchema : Schema where
  normal attr value :=
    if attr = "uid" then String.ofList (value.toList.map Char.toLower) else value
  name dn := (dn.toList.splitOn ',').map String.ofList

private def exampleApplication : LoginApplication where
  comparePassword hash password := hash = "hash:" ++ password
  ldap := some ⟨exampleSchema, ⟨"dc=hpc", "dc=hpc"⟩⟩

private def exampleEntry (uid : String) : Entry :=
  ⟨"uid=" ++ uid ++ ",dc=hpc", [("objectClass", ["posixAccount"]), ("uid", [uid])]⟩

private def exampleRequest (username : String) : LoginRequest where
  username := username
  password := "secret"
  next := ""
  clientKey := "192.0.2.1"
  lang := "en"
  userFault := none
  auditFault := none
  connection := ⟨none, none, none, fun _ password =>
    if password = "secret" then .accepted else .invalidCredentials⟩
  token := some "token"
  csrfToken := some "csrf"
  reservedAt := 0
  recordedAt := 0
  signedInAt := 0
  purgedAt _ := 0
  finishedAt := 0

private def disabledAlice : PlatformUser :=
  ⟨"alice", "hash:local secret", .user, "", "", "", false, 0⟩

private def exampleWorld (entry : Entry) (users : UserStore) : LoginWorld :=
  ⟨.start 0 users, [], [], [entry]⟩

private def withDisabledAlice : UserStore :=
  (UserStore.empty.create (fun _ => none) none 0 disabledAlice).2

end Example

/-! ## Requests of a session -/

/-- What leaves the session of a user alone: no logout, no disabling of the user. -/
def AuthOp.Spares (token username : String) : AuthOp → Prop
  | .remove removed => removed ≠ token
  | .removeUsername removed => removed ≠ username
  | .setUsers users => ∀ user, users.find? username = some user → user.enabled = true
  | _ => True

/-- Runs in which nobody logs the session out or disables its user. -/
abbrev UndisturbedRun (token username : String) :=
  Run authOp fun s op => op.Ok s ∧ op.Spares token username

/-- The account of a user is enabled, if there is one. -/
def NotDisabled (users : UserStore) (username : String) : Prop :=
  ∀ user, users.find? username = some user → user.enabled = true

variable {s s' : AuthState} {op : AuthOp} {as : List AuthOp} {username : String}
  {data : SessionData}

theorem authOp_spares_users (hspares : op.Spares token username) (hstep : authOp s op = some s')
    (h : NotDisabled s.users username) : NotDisabled s'.users username := by
  cases op <;> simp only [authOp, Option.some.injEq] at hstep <;> subst hstep
  case setUsers => exact hspares
  all_goals exact h

theorem authOp_spares_tokens (hok : op.Ok s) (hspares : op.Spares token username)
    (hstep : authOp s op = some s') (hissued : token ∈ s.issued) (hname : data.username = username)
    (hexp : s'.clock < data.expiresAt) (h : s.sessions.tokens token = some data) :
    s'.sessions.tokens token = some data := by
  cases op <;> simp only [authOp, Option.some.injEq] at hstep <;> subst hstep
  case add now finish added value =>
    have hne : token ≠ added := fun heq => hok.1 (heq ▸ hissued)
    have hnow : now token < data.expiresAt := lt_of_le_of_lt (hok.2.2 token).2 hexp
    simp [SessionStore.add, hne, h, hnow]
  case remove removed =>
    have hne : token ≠ removed := fun heq => hspares heq.symm
    simp [SessionStore.remove, hne, h]
  case removeUsername removed =>
    have hne : data.username ≠ removed := fun heq => hspares (heq.symm.trans hname)
    simp [SessionStore.removeUsername, h, hne]
  all_goals exact h

theorem UndisturbedRun.authRun (hrun : UndisturbedRun token username s as s') : AuthRun s as s' :=
  Run.mono (fun _ _ hok => hok.1) hrun

theorem UndisturbedRun.users (hrun : UndisturbedRun token username s as s')
    (h : NotDisabled s.users username) : NotDisabled s'.users username :=
  Run.invariant (fun t => NotDisabled t.users username) h
    (fun _ _ _ hkeep hok hstep => authOp_spares_users hok.2 hstep hkeep) hrun

/-- Until it expires, an undisturbed session stays in the store. -/
theorem UndisturbedRun.tokens (hrun : UndisturbedRun token username s as s')
    (hissued : token ∈ s.issued) (hname : data.username = username)
    (h : s.sessions.tokens token = some data) (hexp : s'.clock < data.expiresAt) :
    s'.sessions.tokens token = some data := by
  have hkeep : token ∈ s'.issued ∧
      (s'.clock < data.expiresAt → s'.sessions.tokens token = some data) := by
    refine Run.invariant (fun t => token ∈ t.issued ∧
      (t.clock < data.expiresAt → t.sessions.tokens token = some data))
      ⟨hissued, fun _ => h⟩ ?_ hrun
    rintro t op t' ⟨hmem, hstored⟩ ⟨hok, hspares⟩ hstep
    refine ⟨authOp_issued hstep hmem, fun hlater => ?_⟩
    have hbefore := lt_of_le_of_lt (authOp_clock hok hstep) hlater
    exact authOp_spares_tokens hok hspares hstep hmem hname hlater (hstored hbefore)
  exact hkeep.2 hexp

/-- Every request with the session's cookie that comes before it expires, with no logout, no
    disabling of its user and no failure of the database, passes `requireAuthentication`. -/
def Served (s : AuthState) (token username : String) (expiresAt : Time) : Prop :=
  ∀ (m : Moments) (v : Visit), (∃ as, UndisturbedRun token username s as m.identity) →
    (∃ as, UndisturbedRun token username m.identity as m.user) → m.userFault = none →
    m.identity.clock < expiresAt → v.sessionCookie = some token →
    ∃ role, requireAuthentication v m Answer.handled = .handled ⟨username, role⟩

theorem served_of_valid (hissued : token ∈ s.issued) (h : s.sessions.tokens token = some data)
    (hname : data.username ≠ "") (hvalid : ValidUsername data.username)
    (henabled : NotDisabled s.users data.username) :
    Served s token data.username data.expiresAt := by
  rintro m v ⟨as, hrun⟩ ⟨bs, hrun'⟩ hfault hexp hcookie
  have hstored := UndisturbedRun.tokens hrun hissued rfl h hexp
  have hid : m.identity.sessions.identity token m.identity.clock =
      some ⟨data.username, data.role⟩ :=
    SessionStore.identity_eq_some_iff.mpr ⟨data, hstored, hexp, hname, rfl⟩
  have husers := UndisturbedRun.users hrun' (UndisturbedRun.users hrun henabled)
  refine ⟨data.role, requireAuthentication_handled_iff.mpr ⟨token, _, hcookie, hid,
    ⟨_, UserStore.get_of_valid hvalid hfault, husers⟩, rfl⟩⟩

/-- A name that `Get` refuses is served nothing: the first request already fails. -/
theorem not_served_of_invalid {expiresAt : Time} (hexp : s.clock < expiresAt)
    (hinvalid : ¬ ValidUsername username) : ¬ Served s token username expiresAt := by
  intro hserved
  obtain ⟨role, h⟩ := hserved s.still ⟨"/", "GET", some token, none, "", "", ""⟩ ⟨[], .nil⟩
    ⟨[], .nil⟩ rfl hexp rfl
  obtain ⟨_, identity, _, _, ⟨_, hget, _⟩, hb⟩ := requireAuthentication_handled_iff.mp h
  cases hb
  exact hinvalid (UserStore.get_eq_ok_iff.mp hget).1

/-- The account of a login is not disabled when its session is issued. -/
theorem SignedIn.notDisabled {w' : LoginWorld} {credentials : Credentials}
    (h : SignedIn app r w w' token csrfToken credentials) : NotDisabled w.auth.users r.name := by
  intro user hfind
  cases credentials with
  | platform user' =>
    obtain ⟨-, hfind', henabled⟩ := checkCredentials_platform h.checked
    rw [hfind] at hfind'
    cases hfind'
    exact henabled
  | directory entry =>
    rw [(checkCredentials_directory h.checked).1] at hfind
    cases hfind
  | denied => exact absurd rfl h.good

/-- A session that a login issues is served until it expires exactly when the platform's user
    store takes its username, or the session has expired before the login returns. -/
theorem signed_in_served_iff (h : (login app r w).1 = .signedIn token csrfToken next) :
    Served (login app r w).2.auth token r.name (r.signedInAt + 12 * 60 * 60 * 1000000000) ↔
      (r.finishedAt < r.signedInAt + 12 * 60 * 60 * 1000000000 → ValidUsername r.name) := by
  obtain ⟨credentials, hsigned⟩ := login_signedIn h
  have hclock : (login app r w).2.auth.clock = r.finishedAt := by rw [hsigned.auth]
  have hissued : token ∈ (login app r w).2.auth.issued := by
    rw [hsigned.auth]
    exact List.mem_cons_self
  have husers : NotDisabled (login app r w).2.auth.users r.name := by
    rw [hsigned.auth]
    exact hsigned.notDisabled
  obtain ⟨role, hsession⟩ := login_session h
  constructor
  · intro hserved hexp
    by_contra hinvalid
    exact not_served_of_invalid (hclock ▸ hexp) hinvalid hserved
  · intro hvalid
    by_cases hexp : r.finishedAt < r.signedInAt + 12 * 60 * 60 * 1000000000
    · have hserved := served_of_valid hissued hsession hsigned.named (hvalid hexp) husers
      exact hserved
    · -- the session has expired: no request comes before that
      rintro m v ⟨as, hrun⟩ - - hlater -
      have hle := AuthRun.clock_le (UndisturbedRun.authRun hrun)
      rw [hclock] at hle
      exact absurd (lt_of_le_of_lt hle hlater) hexp

section Example

/-- The directory account zhang san gets a session, and 503 for every page. -/
theorem session_of_directory_name_not_served :
    let w := (login exampleApplication (exampleRequest "zhang san")
      (exampleWorld (exampleEntry "zhang san") .empty))
    w.1 = .signedIn "token" "csrf" "/dashboard" ∧
      requireAuthentication ⟨"/dashboard", "GET", some "token", none, "", "", ""⟩ w.2.auth.still
        Answer.handled = .httpError 503 none ∧
      ¬ Served w.2.auth "token" "zhang san" (12 * 60 * 60 * 1000000000) := by
  refine ⟨rfl, rfl, not_served_of_invalid ?_ ?_⟩
  · show (0 : Int) < 12 * 60 * 60 * 1000000000
    decide
  · decide

theorem session_of_platform_name_served :
    Served (login exampleApplication (exampleRequest "alice")
      (exampleWorld (exampleEntry "alice") .empty)).2.auth "token" "alice"
      (0 + 12 * 60 * 60 * 1000000000) :=
  (signed_in_served_iff rfl).mpr fun _ => by decide

end Example

end OpenHpcWeb.Web
