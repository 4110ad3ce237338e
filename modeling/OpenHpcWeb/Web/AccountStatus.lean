/-
  Enabling and disabling accounts: `setPlatformUserStatus` of internal/web/platform_users.go,
  and the server on which such requests and logins run at the same time.

  Nothing holds a lock across a request, so a request is a sequence of atomic steps: a login
  checks its credentials and later issues its session; a change of status passes the
  middleware, makes its checks, updates the table, and takes the sessions of a disabled
  account away. `accountStep` lets any request take its next step.

  History, which the code does not hold: which login made the session of a token, the
  disablings of its user that updated the table after its check, and the disablings that have
  taken the sessions away. What a disabling does to terminals is not part of this state.

  * `status_alone`: the steps of one request, taken without pause, are the handler.
-/
import Mathlib.Logic.Function.Basic
import OpenHpcWeb.Web.Login

namespace OpenHpcWeb.Web

open OpenHpcWeb.Go OpenHpcWeb.Lib OpenHpcWeb.Platform

/-! ## The handler -/

structure StatusRequest where
  visit : Visit
  username : String
  enabled : String
  confirmed : String
  /-- the fate of the `SELECT` of the middleware and of the `UPDATE` -/
  userFault : Option String
  updateFault : Option String
  auditFault : Option String
  now : Time

inductive StatusAnswer where
  /-- to the list of users with this result -/
  | result (code : String)
  /-- to the list of users, to confirm that this user is to be disabled -/
  | confirm (username : String)
  deriving DecidableEq

/-- The username of the form. -/
def StatusRequest.name (r : StatusRequest) : String := trimSpace r.username

/-- `setPlatformUserStatus` up to the store: the account and its new status, or the answer. -/
def statusChecks (r : StatusRequest) (actor : Principal) : Except StatusAnswer (String × Bool) :=
  if r.name = actor.username then .error (.result "invalid")
  else if r.enabled ≠ "true" ∧ r.enabled ≠ "false" then .error (.result "invalid")
  else if r.enabled ≠ "true" ∧ r.confirmed ≠ "true" then .error (.confirm r.name)
  else .ok (r.name, r.enabled = "true")

def LoginWorld.recordStatus (w : LoginWorld) (r : StatusRequest) (actor : Principal) :
    LoginWorld :=
  match r.auditFault with
  | some _ => w
  | none =>
    { w with audit := w.audit ++ [⟨actor.username, "platform.user.status", "success", r.now⟩] }

def LoginWorld.setUsers (w : LoginWorld) (users : UserStore) : LoginWorld :=
  { w with auth := { w.auth with users := users } }

def LoginWorld.setSessions (w : LoginWorld) (sessions : SessionStore) : LoginWorld :=
  { w with auth := { w.auth with sessions := sessions } }

def setPlatformUserStatus (r : StatusRequest) (actor : Principal) (w : LoginWorld) :
    StatusAnswer × LoginWorld :=
  match statusChecks r actor with
  | .error answer => (answer, w)
  | .ok (username, enabled) =>
    let updated := w.auth.users.setEnabled r.updateFault username enabled
    let w := w.setUsers updated.2
    match updated.1 with
    | .error _ => (.result "error", w)
    | .ok () =>
      let w := if enabled then w else w.setSessions (w.auth.sessions.removeUsername username)
      (.result "updated", w.recordStatus r actor)

/-! ## Steps of one request -/

/-- Where a change of status stands: what it does next. -/
inductive StatusPc where
  | start
  | authenticated (actor : Principal)
  | toUpdate (actor : Principal) (username : String) (enabled : Bool)
  | toRevoke (actor : Principal) (username : String)
  | toRecord (actor : Principal)
  | finished (answer : Answer StatusAnswer)

/-- The middleware of the route, at one moment. -/
def statusAuthentication (r : StatusRequest) (w : LoginWorld) : StatusPc × LoginWorld :=
  let m : Moments := { w.auth.still with userFault := r.userFault }
  match gate r.visit m true id with
  | .handled actor => (.authenticated actor, w)
  | .httpError status message => (.finished (.httpError status message), w)
  | .loginRedirect next =>
    (.finished (.loginRedirect next),
      match authenticationRemoves r.visit m with
      | none => w
      | some token => w.setSessions (w.auth.sessions.remove token))

/-- The next step of a change of status. -/
def advanceStatus (r : StatusRequest) (w : LoginWorld) : StatusPc → Option (StatusPc × LoginWorld)
  | .start => some (statusAuthentication r w)
  | .authenticated actor =>
    match statusChecks r actor with
    | .error answer => some (.finished (.handled answer), w)
    | .ok (username, enabled) => some (.toUpdate actor username enabled, w)
  | .toUpdate actor username enabled =>
    let updated := w.auth.users.setEnabled r.updateFault username enabled
    match updated.1 with
    | .error _ => some (.finished (.handled (.result "error")), w.setUsers updated.2)
    | .ok () =>
      some (if enabled then .toRecord actor else .toRevoke actor username, w.setUsers updated.2)
  | .toRevoke actor username =>
    some (.toRecord actor, w.setSessions (w.auth.sessions.removeUsername username))
  | .toRecord actor => some (.finished (.handled (.result "updated")), w.recordStatus r actor)
  | .finished _ => none

/-- Where a login stands. -/
inductive LoginPc where
  | start
  | checked (credentials : Credentials)
  | finished (answer : LoginAnswer)

/-- The next step of a login. -/
def advanceLogin (app : LoginApplication) (r : LoginRequest) (w : LoginWorld) :
    LoginPc → Option (LoginPc × LoginWorld)
  | .start =>
    let begun := beginLogin app r w
    match begun.1 with
    | .error answer => some (.finished answer, begun.2)
    | .ok credentials => some (.checked credentials, begun.2)
  | .checked credentials =>
    let signed := signIn r w r.name credentials.role
    some (.finished signed.1, signed.2)
  | .finished _ => none

/-- The steps of a change of status without pause. -/
def finishStatus (r : StatusRequest) : Nat → StatusPc × LoginWorld → StatusPc × LoginWorld
  | 0, at_ => at_
  | n + 1, at_ =>
    match advanceStatus r at_.2 at_.1 with
    | none => at_
    | some next => finishStatus r n next

/-- An authenticated request that nobody interrupts is the handler. -/
theorem status_alone (r : StatusRequest) (actor : Principal) (w : LoginWorld) :
    finishStatus r 4 (.authenticated actor, w) =
      (.finished (.handled (setPlatformUserStatus r actor w).1),
        (setPlatformUserStatus r actor w).2) := by
  unfold setPlatformUserStatus
  cases hchecks : statusChecks r actor with
  | error answer => simp [finishStatus, advanceStatus, hchecks]
  | ok change =>
    obtain ⟨username, enabled⟩ := change
    cases hupdate : (w.auth.users.setEnabled r.updateFault username enabled).1 with
    | error err => simp [finishStatus, advanceStatus, hchecks, hupdate]
    | ok u => cases enabled <;> simp [finishStatus, advanceStatus, hchecks, hupdate]

/-! ## The server -/

variable {L J : Type}

/-- The requests a server gets. -/
structure AccountRequests (L J : Type) where
  app : LoginApplication
  logins : L → LoginRequest
  statuses : J → StatusRequest

structure AccountState (L J : Type) where
  world : LoginWorld
  login : L → LoginPc
  status : J → StatusPc
  /-- history: the login that made the session of a token -/
  maker : String → Option L
  /-- history: the disablings of the login's user that updated the table after its check -/
  since : L → List J
  /-- history: the disablings that have taken the sessions of their user away -/
  revoked : J → Bool

inductive AccountAction (L J : Type) where
  | login (i : L)
  | status (j : J)
  /-- a logout, or the middleware on the session of a disabled account -/
  | drop (token : String)

def AccountState.start (world : LoginWorld) : AccountState L J :=
  ⟨world, fun _ => .start, fun _ => .start, fun _ => none, fun _ => [], fun _ => false⟩

/-- The login has made its check. -/
def LoginPc.begun : LoginPc → Bool
  | .start => false
  | _ => true

section Step

variable [DecidableEq L] [DecidableEq J] (q : AccountRequests L J)

/-- What a step of the login `i` to `pc` adds to the history. -/
def AccountState.afterLogin (s : AccountState L J) (i : L) (pc : LoginPc) (w : LoginWorld) :
    AccountState L J :=
  { s with
    world := w
    login := Function.update s.login i pc
    maker := match pc with
      | .finished (.signedIn token _ _) => Function.update s.maker token (some i)
      | _ => s.maker }

/-- What a step of the change `j` from `old` to `pc` adds to the history. -/
def AccountState.afterStatus (s : AccountState L J) (j : J) (old pc : StatusPc) (w : LoginWorld) :
    AccountState L J :=
  { s with
    world := w
    status := Function.update s.status j pc
    since := match pc with
      | .toRevoke _ username => fun i =>
          if (s.login i).begun ∧ (q.logins i).name = username then j :: s.since i else s.since i
      | _ => s.since
    revoked := match old with
      | .toRevoke _ _ => Function.update s.revoked j true
      | _ => s.revoked }

def accountStep (s : AccountState L J) : AccountAction L J → Option (AccountState L J)
  | .login i =>
    (advanceLogin q.app (q.logins i) s.world (s.login i)).map fun next =>
      s.afterLogin i next.1 next.2
  | .status j =>
    (advanceStatus (q.statuses j) s.world (s.status j)).map fun next =>
      s.afterStatus q j (s.status j) next.1 next.2
  | .drop token => some { s with world := s.world.setSessions (s.world.auth.sessions.remove token) }

end Step

/-! ## What a step does -/

/-- A change of status, step by step: the state it is in and the one it leaves. -/
theorem advanceStatus_cases {r : StatusRequest} {w w' : LoginWorld} {pc pc' : StatusPc}
    (h : advanceStatus r w pc = some (pc', w')) :
    (pc = .start ∧ (pc', w') = statusAuthentication r w) ∨
    (∃ actor answer, pc = .authenticated actor ∧ statusChecks r actor = .error answer ∧
      pc' = .finished (.handled answer) ∧ w' = w) ∨
    (∃ actor username enabled, pc = .authenticated actor ∧
      statusChecks r actor = .ok (username, enabled) ∧ pc' = .toUpdate actor username enabled ∧
      w' = w) ∨
    (∃ actor username enabled, pc = .toUpdate actor username enabled ∧
      ((∃ answer, pc' = .finished answer) ∧ w' = w ∨
        pc' = (if enabled then .toRecord actor else .toRevoke actor username) ∧
          w' = w.setUsers (w.auth.users.updateEnabled username enabled) ∧
          (w.auth.users.setEnabled r.updateFault username enabled).1 = .ok ())) ∨
    (∃ actor username, pc = .toRevoke actor username ∧ pc' = .toRecord actor ∧
      w' = w.setSessions (w.auth.sessions.removeUsername username)) ∨
    (∃ actor, pc = .toRecord actor ∧ (∃ answer, pc' = .finished answer) ∧
      w' = w.recordStatus r actor) := by
  cases pc with
  | start =>
    left
    simp only [advanceStatus, Option.some.injEq] at h
    exact ⟨rfl, h.symm⟩
  | authenticated actor =>
    right
    simp only [advanceStatus] at h
    cases hchecks : statusChecks r actor with
    | error answer =>
      rw [hchecks] at h
      cases h
      exact .inl ⟨actor, answer, rfl, hchecks, rfl, rfl⟩
    | ok change =>
      rw [hchecks] at h
      cases h
      exact .inr (.inl ⟨actor, change.1, change.2, rfl, hchecks, rfl, rfl⟩)
  | toUpdate actor username enabled =>
    right; right; right; left
    refine ⟨actor, username, enabled, rfl, ?_⟩
    simp only [advanceStatus] at h
    cases hupdate : (w.auth.users.setEnabled r.updateFault username enabled).1 with
    | error err =>
      rw [hupdate] at h
      cases h
      rw [UserStore.setEnabled_error hupdate]
      exact .inl ⟨⟨_, rfl⟩, rfl⟩
    | ok u =>
      rw [hupdate] at h
      cases h
      rw [UserStore.setEnabled_ok hupdate]
      exact .inr ⟨rfl, rfl, rfl⟩
  | toRevoke actor username =>
    right; right; right; right; left
    cases h
    exact ⟨actor, username, rfl, rfl, rfl⟩
  | toRecord actor =>
    right; right; right; right; right
    cases h
    exact ⟨actor, rfl, ⟨_, rfl⟩, rfl⟩
  | finished answer => cases h

/-- The middleware leaves the users, and of the sessions at most one fewer. -/
theorem statusAuthentication_spec {r : StatusRequest} {w w' : LoginWorld} {pc : StatusPc}
    (h : (pc, w') = statusAuthentication r w) :
    ((∃ actor, pc = .authenticated actor) ∨ ∃ answer, pc = .finished answer) ∧
      w'.auth.users = w.auth.users ∧
      (w'.auth.sessions = w.auth.sessions ∨
        ∃ token, w'.auth.sessions = w.auth.sessions.remove token) := by
  unfold statusAuthentication at h
  simp only at h
  split at h
  · next actor _ =>
    cases h
    exact ⟨.inl ⟨actor, rfl⟩, rfl, .inl rfl⟩
  · cases h
    exact ⟨.inr ⟨_, rfl⟩, rfl, .inl rfl⟩
  · cases h
    split
    · exact ⟨.inr ⟨_, rfl⟩, rfl, .inl rfl⟩
    · next token _ => exact ⟨.inr ⟨_, rfl⟩, rfl, .inr ⟨token, rfl⟩⟩

/-- What `statusChecks` lets through is the account of the form, and not the actor's. -/
theorem statusChecks_ok {r : StatusRequest} {actor : Principal} {username : String} {enabled : Bool}
    (h : statusChecks r actor = .ok (username, enabled)) :
    username = r.name ∧ username ≠ actor.username := by
  unfold statusChecks at h
  split at h
  · cases h
  · next hself =>
    split at h
    · cases h
    · split at h
      · cases h
      · cases h
        exact ⟨rfl, hself⟩

/-- A login, step by step. -/
theorem advanceLogin_cases {app : LoginApplication} {r : LoginRequest} {w w' : LoginWorld}
    {pc pc' : LoginPc} (h : advanceLogin app r w pc = some (pc', w')) :
    (pc = .start ∧ w'.auth = w.auth ∧
      ((∃ credentials, pc' = .checked credentials) ∨ ∃ answer, pc' = .finished answer ∧
        ∀ token csrfToken next, answer ≠ .signedIn token csrfToken next)) ∨
    (∃ credentials, pc = .checked credentials ∧
      pc' = .finished (signIn r w r.name credentials.role).1 ∧
      w' = (signIn r w r.name credentials.role).2) := by
  cases pc with
  | start =>
    left
    simp only [advanceLogin] at h
    cases hbegun : (beginLogin app r w).1 with
    | error answer =>
      rw [hbegun] at h
      cases h
      exact ⟨rfl, beginLogin_auth app r w, .inr ⟨answer, rfl, beginLogin_error hbegun⟩⟩
    | ok credentials =>
      rw [hbegun] at h
      cases h
      exact ⟨rfl, beginLogin_auth app r w, .inl ⟨credentials, rfl⟩⟩
  | checked credentials =>
    right
    cases h
    exact ⟨credentials, rfl, rfl, rfl⟩
  | finished answer => cases h

/-! ## What a step of the server does -/

variable {q : AccountRequests L J} {s s' : AccountState L J} {i : L} {j : J}

/-- The account a change of status is about is the one of its form, and not its actor's. -/
def AccountState.Targets (q : AccountRequests L J) (s : AccountState L J) : Prop :=
  ∀ j actor username, (s.status j = .toRevoke actor username ∨
    ∃ enabled, s.status j = .toUpdate actor username enabled) →
    username = (q.statuses j).name ∧ username ≠ actor.username

theorem targets_start (q : AccountRequests L J) (world : LoginWorld) :
    (AccountState.start world : AccountState L J).Targets q := by
  rintro j actor username (h | ⟨enabled, h⟩) <;> cases h

section Status

variable [DecidableEq J]

/-- How a step of a change of status moves its pc, the users, the sessions and the history. -/
inductive StatusMove (q : AccountRequests L J) (s s' : AccountState L J) (j : J) : Prop
  | authenticate (pc : s.status j = .start)
      (pc' : (∃ actor, s'.status j = .authenticated actor) ∨ ∃ answer, s'.status j = .finished answer)
      (users : s'.world.auth.users = s.world.auth.users)
      (sessions : s'.world.auth.sessions = s.world.auth.sessions ∨
        ∃ token, s'.world.auth.sessions = s.world.auth.sessions.remove token)
      (since : s'.since = s.since) (revoked : s'.revoked = s.revoked)
  | check (actor : Principal) (username : String) (enabled : Bool)
      (pc : s.status j = .authenticated actor)
      (checks : statusChecks (q.statuses j) actor = .ok (username, enabled))
      (pc' : s'.status j = .toUpdate actor username enabled) (auth : s'.world.auth = s.world.auth)
      (since : s'.since = s.since) (revoked : s'.revoked = s.revoked)
  /-- an answer that changes nothing, or the one after the record of the change -/
  | answer (pc : ∀ actor username, s.status j ≠ .toRevoke actor username)
      (pc' : ∃ answer, s'.status j = .finished answer) (auth : s'.world.auth = s.world.auth)
      (since : s'.since = s.since) (revoked : s'.revoked = s.revoked)
  | update (actor : Principal) (username : String) (enabled : Bool)
      (pc : s.status j = .toUpdate actor username enabled)
      (pc' : s'.status j = if enabled then .toRecord actor else .toRevoke actor username)
      (ok : (s.world.auth.users.setEnabled (q.statuses j).updateFault username enabled).1 = .ok ())
      (users : s'.world.auth.users = s.world.auth.users.updateEnabled username enabled)
      (sessions : s'.world.auth.sessions = s.world.auth.sessions)
      (since : ∀ i, s'.since i = if enabled = false ∧ (s.login i).begun ∧
          (q.logins i).name = username then j :: s.since i else s.since i)
      (revoked : s'.revoked = s.revoked)
  | revoke (actor : Principal) (username : String) (pc : s.status j = .toRevoke actor username)
      (pc' : s'.status j = .toRecord actor) (users : s'.world.auth.users = s.world.auth.users)
      (sessions : s'.world.auth.sessions = s.world.auth.sessions.removeUsername username)
      (since : s'.since = s.since) (revoked : s'.revoked = Function.update s.revoked j true)

theorem AccountState.Targets.status (h : s.Targets q) (hmove : StatusMove q s s' j)
    (hothers : ∀ j', j' ≠ j → s'.status j' = s.status j') : s'.Targets q := by
  intro j' actor username hat
  by_cases hj : j' = j
  · subst hj
    cases hmove with
    | authenticate _ hpc =>
      rcases hpc with ⟨actor', hpc⟩ | ⟨answer, hpc⟩ <;> rw [hpc] at hat <;> simp at hat
    | check actor' username' enabled _ hchecks hpc =>
      rw [hpc] at hat
      rcases hat with hat | ⟨enabled', hat⟩ <;> cases hat
      exact statusChecks_ok hchecks
    | answer _ hpc =>
      obtain ⟨answer, hpc⟩ := hpc
      rw [hpc] at hat
      simp at hat
    | update actor' username' enabled hpc hpc' =>
      have hbefore := h j' actor' username' (.inr ⟨enabled, hpc⟩)
      rw [hpc'] at hat
      cases enabled with
      | true => simp at hat
      | false =>
        simp only [Bool.false_eq_true, if_false, StatusPc.toRevoke.injEq, reduceCtorEq,
          exists_const, or_false] at hat
        obtain ⟨rfl, rfl⟩ := hat
        exact hbefore
    | revoke actor' username' hpc hpc' =>
      rw [hpc'] at hat
      simp at hat
  · rw [hothers j' hj] at hat
    exact h j' actor username hat

end Status

section Step

variable [DecidableEq L] [DecidableEq J]

theorem accountStep_login (h : accountStep q s (.login i) = some s') :
    s'.status = s.status ∧ s'.since = s.since ∧ s'.revoked = s.revoked ∧
    s'.world.auth.users = s.world.auth.users ∧
    (s'.world.auth.sessions = s.world.auth.sessions ∧ s'.maker = s.maker ∨
      ∃ credentials token data, s.login i = .checked credentials ∧
        data.username = (q.logins i).name ∧
        s'.world.auth.sessions = s.world.auth.sessions.add (q.logins i).purgedAt token data ∧
        s'.maker = Function.update s.maker token (some i)) := by
  obtain ⟨next, hnext, rfl⟩ := Option.map_eq_some_iff.mp h
  obtain ⟨pc, w⟩ := next
  refine ⟨rfl, rfl, rfl, ?_⟩
  rcases advanceLogin_cases hnext with ⟨-, hauth, hpc⟩ | ⟨credentials, hchecked, rfl, rfl⟩
  · refine ⟨congrArg AuthState.users hauth, .inl ⟨congrArg AuthState.sessions hauth, ?_⟩⟩
    rcases hpc with ⟨credentials, rfl⟩ | ⟨answer, rfl, hanswer⟩
    · rfl
    · cases answer with
      | signedIn token csrfToken next => exact absurd rfl (hanswer token csrfToken next)
      | httpError status message => rfl
      | page status next error => rfl
  · rcases signIn_cases (q.logins i) s.world (q.logins i).name credentials.role with
      ⟨token, csrfToken, hanswer, hauth⟩ | ⟨hanswer, hauth⟩
    · have husers := congrArg AuthState.users hauth
      have hsessions := congrArg AuthState.sessions hauth
      refine ⟨husers, .inr ⟨credentials, token, (q.logins i).session csrfToken credentials.role,
        hchecked, rfl, hsessions, ?_⟩⟩
      simp only [AccountState.afterLogin, hanswer]
    · refine ⟨congrArg AuthState.users hauth, .inl ⟨congrArg AuthState.sessions hauth, ?_⟩⟩
      cases hsigned : (signIn (q.logins i) s.world (q.logins i).name credentials.role).1 with
      | signedIn token csrfToken next => exact absurd hsigned (hanswer token csrfToken next)
      | httpError status message => rfl
      | page status next error => rfl

theorem accountStep_status (h : accountStep q s (.status j) = some s') :
    s'.login = s.login ∧ s'.maker = s.maker ∧ (∀ j', j' ≠ j → s'.status j' = s.status j') ∧
      StatusMove q s s' j := by
  obtain ⟨next, hnext, rfl⟩ := Option.map_eq_some_iff.mp h
  obtain ⟨pc, w⟩ := next
  refine ⟨rfl, rfl, fun j' hj => Function.update_of_ne hj _ _, ?_⟩
  have hpc : (s.afterStatus q j (s.status j) pc w).status j = pc := Function.update_self _ _ _
  rcases advanceStatus_cases hnext with ⟨hat, hauth⟩ | ⟨actor, answer, hat, -, rfl, rfl⟩ |
    ⟨actor, username, enabled, hat, hchecks, rfl, rfl⟩ | ⟨actor, username, enabled, hat, hupdate⟩ |
    ⟨actor, username, hat, rfl, rfl⟩ | ⟨actor, hat, ⟨answer, rfl⟩, rfl⟩
  · obtain ⟨hkind, husers, hsessions⟩ := statusAuthentication_spec hauth
    refine .authenticate hat (by rwa [hpc]) husers hsessions ?_ ?_
    · rcases hkind with ⟨actor, rfl⟩ | ⟨answer, rfl⟩ <;> rfl
    · rw [hat]
      rfl
  · refine .answer (by simp [hat]) ⟨_, hpc⟩ rfl rfl ?_
    rw [hat]
    rfl
  · refine .check actor username enabled hat hchecks hpc rfl rfl ?_
    rw [hat]
    rfl
  · rcases hupdate with ⟨⟨answer, rfl⟩, rfl⟩ | ⟨rfl, rfl, hok⟩
    · refine .answer (by simp [hat]) ⟨_, hpc⟩ rfl rfl ?_
      rw [hat]
      rfl
    · refine .update actor username enabled hat hpc hok rfl rfl ?_ ?_
      · intro i
        cases enabled <;> simp [AccountState.afterStatus]
      · rw [hat]
        rfl
  · refine .revoke actor username hat hpc rfl rfl rfl ?_
    rw [hat]
    rfl
  · refine .answer (by simp [hat]) ⟨_, hpc⟩ ?_ rfl ?_
    · unfold LoginWorld.recordStatus
      cases (q.statuses j).auditFault <;> rfl
    · rw [hat]
      rfl

theorem AccountState.Targets.step {a : AccountAction L J} (h : s.Targets q)
    (hstep : accountStep q s a = some s') : s'.Targets q := by
  cases a with
  | login i =>
    obtain ⟨hstatus, -⟩ := accountStep_login hstep
    unfold AccountState.Targets
    rw [hstatus]
    exact h
  | status j =>
    obtain ⟨-, -, hothers, hmove⟩ := accountStep_status hstep
    exact h.status hmove hothers
  | drop token =>
    obtain rfl := Option.some.inj hstep
    exact h

end Step

end OpenHpcWeb.Web
