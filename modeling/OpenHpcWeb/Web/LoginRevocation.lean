/-
  Disabling an account against logins in flight.

  A login checks its credentials and adds its session in a later step. A disabling updates the
  table and takes the sessions of the account away in a later step. The login whose check the
  update comes after can add its session when the sessions have been taken away already.
  While the account is disabled the session is refused, and after it is enabled again it is
  accepted.

  * `logins_revoked`: in every run in which no session is added so late, no session of a login
    is accepted once a disabling that came after the login's check has completed.
  * `late_login_stays`: a session that is added late stays behind.
-/
import OpenHpcWeb.Lib.Revocation
import OpenHpcWeb.Web.AccountStatus

namespace OpenHpcWeb.Web

open OpenHpcWeb.Go OpenHpcWeb.Lib OpenHpcWeb.Platform

variable {L J : Type}

/-! ## The property -/

/-- A request with the cookie `token` that finds the sessions of `s` passes the middleware. -/
def AccountState.Accepts (s : AccountState L J) (token : String) : Prop :=
  ∃ (v : Visit) (m : Moments) (identity : Principal), v.sessionCookie = some token ∧
    m.identity = s.world.auth ∧ requireAuthentication v m Answer.handled = .handled identity

/-- Once a disabling has completed, no session of a login of its user that had made its check
    before is accepted. -/
def AccountState.LoginsRevoked (s : AccountState L J) : Prop :=
  ∀ i j, j ∈ s.since i → (∃ answer, s.status j = .finished answer) →
    ∀ token, s.maker token = some i → ¬ s.Accepts token

/-- The login adds its session before any of the disablings that came after its check has
    taken the sessions away. -/
def IssuesInTime (s : AccountState L J) : AccountAction L J → Prop
  | .login i => ∀ j ∈ s.since i, s.revoked j = false
  | _ => True

/-! ## Logins and disablings as workers and revocations -/

/-- A login holds the sessions it made. -/
def AccountState.revocable (s : AccountState L J) : Revocable L J where
  held i := ∃ token data, s.world.auth.sessions.tokens token = some data ∧ s.maker token = some i
  since i j := j ∈ s.since i
  purged j := s.revoked j = true

/-- A change of status is about the user of a login. -/
def AccountRequests.covers (q : AccountRequests L J) (j : J) (i : L) : Prop :=
  (q.statuses j).name = (q.logins i).name

/-- Where a disabling stands when it has taken the sessions away. -/
def StatusPc.Settled (pc : StatusPc) : Prop :=
  (∃ actor, pc = .toRecord actor) ∨ ∃ answer, pc = .finished answer

/-- The history says what it stands for. -/
structure AccountState.History (q : AccountRequests L J) (s : AccountState L J) : Prop where
  targets : s.Targets q
  named : ∀ token data i, s.world.auth.sessions.tokens token = some data →
    s.maker token = some i → data.username = (q.logins i).name
  revoked : ∀ j, s.revoked j = true → (s.status j).Settled
  since : ∀ i j, j ∈ s.since i → q.covers j i ∧
    ((∃ actor username, s.status j = .toRevoke actor username) ∨ s.revoked j = true)

variable {q : AccountRequests L J} {s s' : AccountState L J} {i : L} {j : J}

theorem history_start (q : AccountRequests L J) (world : LoginWorld) :
    (AccountState.start world : AccountState L J).History q where
  targets := targets_start q world
  named := by
    intro token data i _ hmaker
    cases hmaker
  revoked := by
    intro j hrevoked
    cases hrevoked
  since := by
    intro i j hsince
    cases hsince

/-- A disabling whose request is answered has taken the sessions away. -/
theorem AccountState.History.revoked_of_finished (h : s.History q) (hsince : j ∈ s.since i)
    (hdone : ∃ answer, s.status j = .finished answer) : s.revoked j = true := by
  obtain ⟨answer, hdone⟩ := hdone
  rcases (h.since i j hsince).2 with ⟨actor, username, hpc⟩ | hrevoked
  · rw [hdone] at hpc
    cases hpc
  · exact hrevoked

/-- A request passes the middleware with a token that is in the store only. -/
theorem AccountState.Accepts.stored {token : String} (h : s.Accepts token) :
    ∃ data, s.world.auth.sessions.tokens token = some data := by
  obtain ⟨v, m, identity, hcookie, hm, hhandled⟩ := h
  obtain ⟨token', identity', hcookie', hid, -⟩ := requireAuthentication_handled_iff.mp hhandled
  rw [hcookie] at hcookie'
  cases hcookie'
  obtain ⟨data, hstored, -⟩ := SessionStore.identity_eq_some_iff.mp hid
  exact ⟨data, hm ▸ hstored⟩

section Status

variable [DecidableEq J]

/-- A change of status adds no session. -/
theorem StatusMove.tokens (hmove : StatusMove q s s' j) {token : String} {data : SessionData}
    (h : s'.world.auth.sessions.tokens token = some data) :
    s.world.auth.sessions.tokens token = some data := by
  cases hmove with
  | authenticate _ _ _ hsessions =>
    rcases hsessions with hsessions | ⟨removed, hsessions⟩
    · rw [hsessions] at h
      exact h
    · rw [hsessions] at h
      exact (SessionStore.tokens_remove h).1
  | check _ _ _ _ _ _ hauth =>
    rw [hauth] at h
    exact h
  | answer _ _ hauth =>
    rw [hauth] at h
    exact h
  | update _ _ _ _ _ _ _ hsessions =>
    rw [hsessions] at h
    exact h
  | revoke _ username _ _ _ hsessions =>
    rw [hsessions] at h
    exact (SessionStore.tokens_removeUsername h).1

theorem StatusMove.settled (hmove : StatusMove q s s' j) (h : (s.status j).Settled) :
    (s'.status j).Settled := by
  cases hmove with
  | authenticate hpc => simp [StatusPc.Settled, hpc] at h
  | check _ _ _ hpc => simp [StatusPc.Settled, hpc] at h
  | answer _ hpc' => exact .inr hpc'
  | update _ _ _ hpc => simp [StatusPc.Settled, hpc] at h
  | revoke actor _ _ hpc' => exact .inl ⟨actor, hpc'⟩

theorem StatusMove.revoked_cases (hmove : StatusMove q s s' j) {j' : J}
    (h : s'.revoked j' = true) : s.revoked j' = true ∨
      j' = j ∧ (∃ actor username, s.status j = .toRevoke actor username) ∧
        (s'.status j).Settled := by
  cases hmove with
  | authenticate _ _ _ _ _ hsame => exact .inl (hsame ▸ h)
  | check _ _ _ _ _ _ _ _ hsame => exact .inl (hsame ▸ h)
  | answer _ _ _ _ hsame => exact .inl (hsame ▸ h)
  | update _ _ _ _ _ _ _ _ _ hsame => exact .inl (hsame ▸ h)
  | revoke actor username hpc hpc' _ _ _ hrevoked =>
    by_cases hj : j' = j
    · exact .inr ⟨hj, ⟨actor, username, hpc⟩, .inl ⟨actor, hpc'⟩⟩
    · rw [hrevoked, Function.update_of_ne hj] at h
      exact .inl h

theorem StatusMove.since_cases (hmove : StatusMove q s s' j) {j' : J} (h : j' ∈ s'.since i) :
    j' ∈ s.since i ∨ j' = j ∧ ∃ actor username enabled,
      s.status j = .toUpdate actor username enabled ∧ s'.status j = .toRevoke actor username ∧
      s'.revoked = s.revoked ∧ (q.logins i).name = username := by
  cases hmove with
  | authenticate _ _ _ _ hsame => exact .inl (hsame ▸ h)
  | check _ _ _ _ _ _ _ hsame => exact .inl (hsame ▸ h)
  | answer _ _ _ hsame => exact .inl (hsame ▸ h)
  | revoke _ _ _ _ _ _ hsame => exact .inl (hsame ▸ h)
  | update actor username enabled hpc hpc' _ _ _ hsince hrevoked =>
    rw [hsince i] at h
    split at h
    · next hnew =>
      rcases List.mem_cons.mp h with rfl | hbefore
      · rw [hnew.1] at hpc'
        exact .inr ⟨rfl, actor, username, enabled, hpc, hpc', hrevoked, hnew.2.2⟩
      · exact .inl hbefore
    · exact .inl h

theorem StatusMove.revoked_mono (hmove : StatusMove q s s' j) {j' : J}
    (h : s.revoked j' = true) : s'.revoked j' = true := by
  cases hmove with
  | authenticate _ _ _ _ _ hsame => exact hsame ▸ h
  | check _ _ _ _ _ _ _ _ hsame => exact hsame ▸ h
  | answer _ _ _ _ hsame => exact hsame ▸ h
  | update _ _ _ _ _ _ _ _ _ hsame => exact hsame ▸ h
  | revoke _ _ _ _ _ _ _ hrevoked =>
    rw [hrevoked]
    by_cases hj : j' = j
    · rw [hj, Function.update_self]
    · rwa [Function.update_of_ne hj]

/-- From `toRevoke` a disabling goes on by taking the sessions away. -/
theorem StatusMove.revokes (hmove : StatusMove q s s' j) {actor : Principal} {username : String}
    (hat : s.status j = .toRevoke actor username) : s'.revoked j = true := by
  cases hmove with
  | authenticate hpc => simp [hat] at hpc
  | check _ _ _ hpc => simp [hat] at hpc
  | answer hpc => exact absurd hat (hpc actor username)
  | update _ _ _ hpc => simp [hat] at hpc
  | revoke _ _ _ _ _ _ _ hrevoked => rw [hrevoked, Function.update_self]

theorem AccountState.History.status (h : s.History q) (hmove : StatusMove q s s' j)
    (hmaker : s'.maker = s.maker) (hothers : ∀ j', j' ≠ j → s'.status j' = s.status j') :
    s'.History q where
  targets := h.targets.status hmove hothers
  named := by
    intro token data i hstored hmade
    rw [hmaker] at hmade
    exact h.named token data i (hmove.tokens hstored) hmade
  revoked := by
    intro j' hrevoked
    rcases hmove.revoked_cases hrevoked with hbefore | ⟨rfl, -, hsettled⟩
    · by_cases hj : j' = j
      · subst hj
        exact hmove.settled (h.revoked j' hbefore)
      · rw [hothers j' hj]
        exact h.revoked j' hbefore
    · exact hsettled
  since := by
    intro i j' hsince
    rcases hmove.since_cases hsince with hbefore | ⟨rfl, actor, username, enabled, hpc, hpc', -, hname⟩
    · obtain ⟨hcovers, hrevoking⟩ := h.since i j' hbefore
      refine ⟨hcovers, ?_⟩
      rcases hrevoking with ⟨actor, username, hpc⟩ | hrevoked
      · by_cases hj : j' = j
        · subst hj
          exact .inr (hmove.revokes hpc)
        · rw [hothers j' hj]
          exact .inl ⟨actor, username, hpc⟩
      · exact .inr (hmove.revoked_mono hrevoked)
    · have htarget := (h.targets j' actor username (.inr ⟨enabled, hpc⟩)).1
      exact ⟨(hname.trans htarget).symm, .inl ⟨actor, username, hpc'⟩⟩

/-- What a change of status does to the sessions of the logins. -/
theorem StatusMove.move (hmove : StatusMove q s s' j) (h : s.History q)
    (hmaker : s'.maker = s.maker) :
    Revocable.Move q.covers s.revocable s'.revocable := by
  have hheld : ∀ i, s'.revocable.held i → s.revocable.held i := by
    rintro i ⟨token, data, hstored, hmade⟩
    rw [hmaker] at hmade
    exact ⟨token, data, hmove.tokens hstored, hmade⟩
  by_cases hrevoking : ∃ actor username, s.status j = .toRevoke actor username
  · obtain ⟨actor, username, hat⟩ := hrevoking
    have htarget := (h.targets j actor username (.inl hat)).1
    cases hmove with
    | authenticate hpc => simp [hat] at hpc
    | check _ _ _ hpc => simp [hat] at hpc
    | answer hpc => exact absurd hat (hpc actor username)
    | update _ _ _ hpc => simp [hat] at hpc
    | revoke actor' username' hpc _ _ hsessions hsince hrevoked =>
      rw [hat] at hpc
      cases hpc
      refine .purge j ?_ ?_ ?_
      · rintro i hi
        refine ⟨hheld i hi, fun hcovers => ?_⟩
        obtain ⟨token, data, hstored, hmade⟩ := hi
        rw [hsessions] at hstored
        rw [hmaker] at hmade
        obtain ⟨hbefore, hne⟩ := SessionStore.tokens_removeUsername hstored
        have hname := h.named token data i hbefore hmade
        exact hne (hname.trans (hcovers.symm.trans htarget.symm))
      · intro i j' hi
        simpa [AccountState.revocable, hsince] using hi
      · intro j' hj'
        by_cases hj : j' = j
        · exact .inl hj
        · refine .inr ?_
          simpa [AccountState.revocable, hrevoked, hj] using hj'
  · refine .keep hheld ?_ ?_
    · intro i j' hi
      rcases hmove.since_cases hi with hbefore | ⟨rfl, actor, username, enabled, hpc, -, hsame, -⟩
      · exact .inl hbefore
      · refine .inr fun hrevoked => ?_
        have hsettled := h.revoked j' (by rwa [← hsame])
        simp [StatusPc.Settled, hpc] at hsettled
    · intro j' hj'
      rcases hmove.revoked_cases hj' with hbefore | ⟨rfl, hat, -⟩
      · exact hbefore
      · exact absurd hat hrevoking

end Status

/-! ## Runs -/

section Step

variable [DecidableEq L] [DecidableEq J]

/-- A login and its new session, or a login that adds none. -/
theorem login_move (hintime : IssuesInTime s (.login i))
    (hstep : accountStep q s (.login i) = some s') (h : s.History q) :
    s'.History q ∧ Revocable.Move q.covers s.revocable s'.revocable := by
  have htargets := h.targets.step hstep
  obtain ⟨hstatus, hsince, hrevoked, -, hquiet | ⟨credentials, token, data, -, hname, hadd, hmaker⟩⟩ :=
    accountStep_login hstep
  · obtain ⟨hsessions, hmaker⟩ := hquiet
    refine ⟨⟨htargets, ?_, ?_, ?_⟩, .keep ?_ ?_ ?_⟩
    · rw [hsessions, hmaker]
      exact h.named
    · rw [hstatus, hrevoked]
      exact h.revoked
    · rw [hstatus, hrevoked, hsince]
      exact h.since
    · simp [AccountState.revocable, hsessions, hmaker]
    · intro i' j' hi
      exact .inl (by simpa [AccountState.revocable, hsince] using hi)
    · simp [AccountState.revocable, hrevoked]
  · have hmade : ∀ key i', s'.maker key = some i' → key = token ∧ i' = i ∨
        key ≠ token ∧ s.maker key = some i' := by
      intro key i' hkey
      rw [hmaker] at hkey
      by_cases heq : key = token
      · subst heq
        rw [Function.update_self] at hkey
        exact .inl ⟨rfl, (Option.some.inj hkey).symm⟩
      · rw [Function.update_of_ne heq] at hkey
        exact .inr ⟨heq, hkey⟩
    refine ⟨⟨htargets, ?_, ?_, ?_⟩, .insert i ?_ ?_ ?_ ?_⟩
    · intro key value i' hstored hkey
      rw [hadd] at hstored
      rcases SessionStore.tokens_add hstored with ⟨rfl, rfl⟩ | ⟨hne, hstored⟩
      · rcases hmade _ _ hkey with ⟨-, rfl⟩ | ⟨hne, -⟩
        · exact hname
        · exact absurd rfl hne
      · rcases hmade _ _ hkey with ⟨heq, -⟩ | ⟨-, hbefore⟩
        · exact absurd heq hne
        · exact h.named key value i' hstored hbefore
    · rw [hstatus, hrevoked]
      exact h.revoked
    · rw [hstatus, hrevoked, hsince]
      exact h.since
    · intro j hi hj _
      simp [AccountState.revocable, hintime j hi] at hj
    · rintro i' ⟨key, value, hstored, hkey⟩
      rcases hmade key i' hkey with ⟨-, rfl⟩ | ⟨hne, hbefore⟩
      · exact .inl rfl
      · rw [hadd] at hstored
        rcases SessionStore.tokens_add hstored with ⟨heq, -⟩ | ⟨-, hstored⟩
        · exact absurd heq hne
        · exact .inr ⟨key, value, hstored, hbefore⟩
    · intro i' j' hi
      simpa [AccountState.revocable, hsince] using hi
    · simp [AccountState.revocable, hrevoked]

theorem account_step {a : AccountAction L J} (hintime : IssuesInTime s a)
    (hstep : accountStep q s a = some s') (h : s.History q) :
    s'.History q ∧ Revocable.Move q.covers s.revocable s'.revocable := by
  cases a with
  | login i => exact login_move hintime hstep h
  | status j =>
    obtain ⟨-, hmaker, hothers, hmove⟩ := accountStep_status hstep
    exact ⟨h.status hmove hmaker hothers, hmove.move h hmaker⟩
  | drop token =>
    obtain rfl := Option.some.inj hstep
    refine ⟨⟨h.targets, ?_, h.revoked, h.since⟩, .keep ?_ (fun _ _ => .inl) (fun _ => id)⟩
    · intro key data i hstored hmade
      exact h.named key data i (SessionStore.tokens_remove hstored).1 hmade
    · rintro i ⟨key, data, hstored, hmade⟩
      exact ⟨key, data, (SessionStore.tokens_remove hstored).1, hmade⟩

theorem account_run {world : LoginWorld} {as : List (AccountAction L J)}
    (hrun : Run (accountStep q) IssuesInTime (.start world) as s) :
    s.History q ∧ s.revocable.Inv q.covers := by
  refine Run.invariant (fun t => t.History q ∧ t.revocable.Inv q.covers) ?_ ?_ hrun
  · refine ⟨history_start q world, ?_⟩
    rintro i j hsince
    cases hsince
  · rintro t a t' ⟨hhistory, hinv⟩ hintime hstep
    obtain ⟨hhistory', hmove⟩ := account_step hintime hstep hhistory
    exact ⟨hhistory', hinv.move hmove⟩

/-- In every run in which logins add their sessions in time, whatever the order of the steps of
    any number of logins and changes of status: once a disabling has completed, no session of
    a login of the same user whose check came before is accepted, in any later state. -/
theorem logins_revoked {world : LoginWorld} {as : List (AccountAction L J)}
    (hrun : Run (accountStep q) IssuesInTime (.start world) as s) : s.LoginsRevoked := by
  obtain ⟨hhistory, hinv⟩ := account_run hrun
  intro i j hsince hdone token hmade haccepts
  obtain ⟨data, hstored⟩ := haccepts.stored
  exact hinv i j hsince (hhistory.revoked_of_finished hsince hdone)
    (hhistory.since i j hsince).1 ⟨token, data, hstored, hmade⟩

/-- A login that is late leaves sessions that a disabling should have taken away. -/
theorem late_login_stays (hhistory : s.History q) (hlate : ¬ IssuesInTime s (.login i))
    (hstep : accountStep q s (.login i) = some s') {token : String} {data : SessionData}
    (hstored : s'.world.auth.sessions.tokens token = some data)
    (hmade : s'.maker token = some i) : ¬ s'.revocable.Inv q.covers := by
  obtain ⟨-, hsince, hrevoked, -⟩ := accountStep_login hstep
  refine Revocable.not_inv_of_late (i := i) (s := s.revocable) (fun hintime => hlate ?_)
    ⟨token, data, hstored, hmade⟩ (fun j hj => ?_) fun j hj => ?_
  · intro j hj
    by_contra hrevoked
    exact hintime j hj (Bool.eq_true_of_not_eq_false hrevoked) (hhistory.since i j hj).1
  · simpa [AccountState.revocable, hsince] using hj
  · simpa [AccountState.revocable, hrevoked] using hj

end Step

section Example

private def raceAlice : PlatformUser := ⟨"alice", "hash:secret", .user, "", "", "", true, 0⟩

private def raceBoss : PlatformUser := ⟨"boss", "hash:secret", .admin, "", "", "", true, 0⟩

private theorem raceKeyed : ([raceAlice, raceBoss].map PlatformUser.username).Nodup := by decide

private theorem raceValid : ∀ user ∈ [raceAlice, raceBoss], ValidUsername user.username := by
  decide

private def raceWorld : LoginWorld where
  auth := ⟨0, ⟨fun token => if token = "boss" then some ⟨100, "csrf", "boss", .admin⟩ else none⟩,
    ⟨[raceAlice, raceBoss], raceKeyed, raceValid⟩, ["boss"]⟩
  attempts := []
  audit := []
  directory := []

private def raceLogin : LoginRequest where
  username := "alice"
  password := "secret"
  next := ""
  clientKey := "192.0.2.1"
  lang := "en"
  userFault := none
  auditFault := none
  connection := ⟨none, none, none, fun _ _ => .invalidCredentials⟩
  token := some "token"
  csrfToken := some "csrf"
  reservedAt := 0
  recordedAt := 0
  signedInAt := 0
  purgedAt _ := 0
  finishedAt := 0

private def raceStatus (enabled : String) : StatusRequest where
  visit := ⟨"/settings/users/status", "POST", some "boss", some "csrf", "csrf", "", ""⟩
  username := "alice"
  enabled := enabled
  confirmed := "true"
  userFault := none
  updateFault := none
  auditFault := none
  now := 0

/-- One login of alice, a disabling of alice (`false`) and her enabling (`true`). -/
private def raceRequests : AccountRequests Unit Bool where
  app := ⟨fun hash password => hash = "hash:" ++ password, none⟩
  logins _ := raceLogin
  statuses enable := raceStatus (if enable then "true" else "false")

/-- The check of the login, the whole disabling, the session of the login, the enabling. -/
private def raceActions : List (AccountAction Unit Bool) :=
  [.login (), .status false, .status false, .status false, .status false, .status false,
    .login (), .status true, .status true, .status true, .status true]

private def raceEnd : Option (AccountState Unit Bool) :=
  exec (accountStep raceRequests) (fun _ _ => true) (.start raceWorld) raceActions

private def raceVisit : Visit := ⟨"/dashboard", "GET", some "token", none, "", "", ""⟩

private def StatusPc.isFinished : StatusPc → Bool
  | .finished _ => true
  | _ => false

private theorem isFinished_iff {pc : StatusPc} :
    pc.isFinished = true ↔ ∃ answer, pc = .finished answer := by
  cases pc <;> simp [StatusPc.isFinished]

private def raceLost (s : AccountState Unit Bool) : Bool :=
  decide (false ∈ s.since ()) && (s.status false).isFinished && s.maker "token" == some () &&
    match requireAuthentication raceVisit s.world.auth.still Answer.handled with
    | .handled _ => true
    | _ => false

private theorem raceEnd_lost : raceEnd.any raceLost = true := by decide +kernel

/-- Alice's login has made its check, alice is disabled, the login adds its session, alice is
    enabled again: the session is accepted. -/
theorem late_login_accepted : ∃ s,
    Run (accountStep raceRequests) (fun _ _ => True) (.start raceWorld) raceActions s ∧
      ¬ s.LoginsRevoked := by
  obtain ⟨s, hs, hlost⟩ := (Option.any_eq_true _ _).mp raceEnd_lost
  refine ⟨s, Run.mono (fun _ _ _ => trivial) (run_of_exec hs), fun hrevoked => ?_⟩
  simp only [raceLost, Bool.and_eq_true, decide_eq_true_eq, beq_iff_eq] at hlost
  obtain ⟨⟨⟨hsince, hdone⟩, hmade⟩, haccepts⟩ := hlost
  refine hrevoked () false hsince (isFinished_iff.mp hdone) "token" hmade ?_
  · cases hanswer : requireAuthentication raceVisit s.world.auth.still Answer.handled with
    | handled identity => exact ⟨raceVisit, s.world.auth.still, identity, rfl, rfl, hanswer⟩
    | loginRedirect next => simp [hanswer] at haccepts
    | httpError status message => simp [hanswer] at haccepts

private def timelyActions : List (AccountAction Unit Bool) :=
  [.login (), .status false, .status false, .status false, .login (), .status false,
    .status false, .status true, .status true, .status true, .status true]

private def timely (s : AccountState Unit Bool) : AccountAction Unit Bool → Bool
  | .login i => (s.since i).all fun j => !s.revoked j
  | _ => true

private theorem issuesInTime_of_timely (s : AccountState Unit Bool) (a : AccountAction Unit Bool)
    (h : timely s a = true) : IssuesInTime s a := by
  cases a with
  | login i => simpa [timely, IssuesInTime] using h
  | status j => trivial
  | drop token => trivial

private def timelyEnd : Option (AccountState Unit Bool) :=
  exec (accountStep raceRequests) timely (.start raceWorld) timelyActions

private theorem timelyEnd_disabled : (timelyEnd.any fun s => decide (false ∈ s.since ()) &&
    (s.status false).isFinished && s.maker "token" == some ()) = true := by decide +kernel

/-- The same requests, with the session added before the disabling takes the sessions away. -/
theorem timely_login_revoked : ∃ s,
    Run (accountStep raceRequests) IssuesInTime (.start raceWorld) timelyActions s ∧
      s.maker "token" = some () ∧ ¬ s.Accepts "token" := by
  obtain ⟨s, hs, hend⟩ := (Option.any_eq_true _ _).mp timelyEnd_disabled
  simp only [Bool.and_eq_true, decide_eq_true_eq, beq_iff_eq] at hend
  obtain ⟨⟨hsince, hdone⟩, hmade⟩ := hend
  have hrun := Run.mono issuesInTime_of_timely (run_of_exec hs)
  exact ⟨s, hrun, hmade,
    logins_revoked hrun () false hsince (isFinished_iff.mp hdone) "token" hmade⟩

end Example

end OpenHpcWeb.Web
