/-
  The access gate over whole runs of the session store.

  A token is given to `add` once, so an entry of the store never changes while it is there
  and never comes back when it is gone (`AuthRun.tokens_of_issued`).

  * `access_gate`: what holds when a request reaches its handler, and that a token which was
    removed or has expired never brings a request to a handler again.
-/
import OpenHpcWeb.Web.Sessions

namespace OpenHpcWeb.Web

open OpenHpcWeb.Go OpenHpcWeb.Lib OpenHpcWeb.Platform

variable {s s' : AuthState} {op : AuthOp} {as : List AuthOp}

/-- Every token of the store was issued. -/
def AuthState.Inv (s : AuthState) : Prop :=
  ∀ token data, s.sessions.tokens token = some data → token ∈ s.issued

theorem AuthState.inv_start (clock : Time) (users : UserStore) : (AuthState.start clock users).Inv := by
  intro token data h
  cases h

/-! ## One step -/

theorem authOp_issued (hstep : authOp s op = some s') {token : String}
    (h : token ∈ s.issued) : token ∈ s'.issued := by
  cases op <;> simp only [authOp, Option.some.injEq] at hstep <;> subst hstep
  case add => exact List.mem_cons_of_mem _ h
  all_goals exact h

theorem authOp_clock (hok : op.Ok s) (hstep : authOp s op = some s') : s.clock ≤ s'.clock := by
  cases op <;> simp only [authOp, Option.some.injEq] at hstep <;> subst hstep
  case add => exact hok.2.1
  case tick => exact hok
  all_goals exact le_refl _

/-- A step neither changes nor brings back the entry of an issued token. -/
theorem authOp_tokens_of_issued (hok : op.Ok s) (hstep : authOp s op = some s')
    {token : String} (hissued : token ∈ s.issued) {data : SessionData}
    (h : s'.sessions.tokens token = some data) : s.sessions.tokens token = some data := by
  cases op <;> simp only [authOp, Option.some.injEq] at hstep <;> subst hstep
  case add now finish added value =>
    rcases SessionStore.tokens_add h with ⟨rfl, -⟩ | ⟨-, h⟩
    · exact absurd hissued hok.1
    · exact h
  case remove => exact (SessionStore.tokens_remove h).1
  case removeUsername => exact (SessionStore.tokens_removeUsername h).1
  all_goals exact h

theorem authOp_inv (hstep : authOp s op = some s') (hinv : s.Inv) : s'.Inv := by
  intro token data h
  cases op <;> simp only [authOp, Option.some.injEq] at hstep <;> subst hstep
  case add now finish added value =>
    rcases SessionStore.tokens_add h with ⟨rfl, -⟩ | ⟨-, h⟩
    · exact List.mem_cons_self
    · exact List.mem_cons_of_mem _ (hinv token data h)
  case remove => exact hinv token data (SessionStore.tokens_remove h).1
  case removeUsername => exact hinv token data (SessionStore.tokens_removeUsername h).1
  all_goals exact hinv token data h

/-! ## Runs -/

theorem AuthRun.inv (hrun : AuthRun s as s') (hinv : s.Inv) : s'.Inv :=
  hrun.invariant AuthState.Inv hinv fun _ _ _ hinv _ hstep => authOp_inv hstep hinv

theorem AuthRun.issued (hrun : AuthRun s as s') {token : String} (h : token ∈ s.issued) :
    token ∈ s'.issued :=
  hrun.invariant (fun t => token ∈ t.issued) h fun _ _ _ hmem _ hstep => authOp_issued hstep hmem

theorem AuthRun.clock_le (hrun : AuthRun s as s') : s.clock ≤ s'.clock :=
  hrun.invariant (fun t => s.clock ≤ t.clock) (le_refl _) fun _ _ _ hle hok hstep =>
    le_trans hle (authOp_clock hok hstep)

/-- The entry of an issued token is the one it had before, as long as it has one. -/
theorem AuthRun.tokens_of_issued (hrun : AuthRun s as s') {token : String}
    (hissued : token ∈ s.issued) {data : SessionData}
    (h : s'.sessions.tokens token = some data) : s.sessions.tokens token = some data := by
  have hkeep : token ∈ s'.issued ∧
      (s'.sessions.tokens token = some data → s.sessions.tokens token = some data) := by
    refine hrun.invariant (fun t => token ∈ t.issued ∧
      (t.sessions.tokens token = some data → s.sessions.tokens token = some data))
      ⟨hissued, id⟩ ?_
    rintro t op t' ⟨hmem, hback⟩ hok hstep
    exact ⟨authOp_issued hstep hmem,
      fun h => hback (authOp_tokens_of_issued hok hstep hmem h)⟩
  exact hkeep.2 h

/-- Once an issued token is not valid it is never valid again. -/
theorem AuthRun.not_valid (hrun : AuthRun s as s') {token : String}
    (hissued : token ∈ s.issued) (h : s.sessions.valid token s.clock = false) :
    s'.sessions.valid token s'.clock = false := by
  by_contra hvalid
  obtain ⟨data, htoken, hnow⟩ :=
    SessionStore.valid_eq_true_iff.mp (Bool.eq_true_of_not_eq_false hvalid)
  have hbefore := hrun.tokens_of_issued hissued htoken
  have hclock := hrun.clock_le
  rw [SessionStore.valid_eq_true_iff.mpr ⟨data, hbefore, lt_of_le_of_lt hclock hnow⟩] at h
  cases h

/-- The moments of a request are reached from `s`, one after the other. -/
structure Moments.After (s : AuthState) (m : Moments) : Prop where
  identity : ∃ as, AuthRun s as m.identity
  user : ∃ as, AuthRun m.identity as m.user
  csrf : ∃ as, AuthRun m.user as m.csrf

theorem AuthState.after_still (s : AuthState) : s.still.After s :=
  ⟨⟨[], .nil⟩, ⟨[], .nil⟩, ⟨[], .nil⟩⟩

variable {β : Type}

/-- A request that reaches its handler does so with the one session of its token. -/
theorem handled_session {m : Moments} (hinv : s.Inv) (hafter : m.After s) {v : Visit}
    {admin : Bool} {handler : Principal → β} {b : β} (h : gate v m admin handler = .handled b) :
    ∃ token data, Admitted v m admin token data ∧ handler ⟨data.username, data.role⟩ = b ∧
      (¬ v.safeMethod → m.csrf.sessions.tokens token = some data ∧ m.csrf.clock < data.expiresAt ∧
        v.csrfCookie = some data.csrfToken ∧ v.formToken = data.csrfToken) := by
  obtain ⟨token, data, hadm, hb⟩ := gate_handled_iff.mp h
  refine ⟨token, data, hadm, hb, fun hunsafe => ?_⟩
  obtain ⟨as₁, hrun₁⟩ := hafter.identity
  obtain ⟨as₂, hrun₂⟩ := hafter.user
  obtain ⟨as₃, hrun₃⟩ := hafter.csrf
  obtain ⟨data', hstored, hexp, hcookie, hform⟩ := hadm.csrf.resolve_left hunsafe
  have hissued := hrun₁.inv hinv token data hadm.stored
  have hsame := AuthRun.tokens_of_issued (hrun₂.append hrun₃) hissued hstored
  obtain rfl : data = data' := Option.some.inj (hadm.stored.symm.trans hsame)
  exact ⟨hstored, hexp, hcookie, hform⟩

/-- No request with a token that is no longer valid reaches a handler. -/
theorem not_handled_of_not_valid {m : Moments} {token : String} (hissued : token ∈ s.issued)
    (hvalid : s.sessions.valid token s.clock = false) (hafter : m.After s) {v : Visit}
    (hcookie : v.sessionCookie = some token) {admin : Bool} {handler : Principal → β} {b : β} :
    gate v m admin handler ≠ .handled b := by
  intro h
  obtain ⟨token', data, hadm, -⟩ := gate_handled_iff.mp h
  obtain rfl : token = token' := Option.some.inj (hcookie.symm.trans hadm.cookie)
  obtain ⟨as, hrun⟩ := hafter.identity
  have hnot := hrun.not_valid hissued hvalid
  rw [SessionStore.valid_eq_true_iff.mpr ⟨data, hadm.stored, hadm.unexpired⟩] at hnot
  cases hnot

/-- In every state that the server reaches: a request reaches its handler only with a stored,
    unexpired session that has a username, whose local account is enabled if there is one,
    with that session's CSRF token in its cookie and its form unless the method is safe, and
    as an administrator where the route asks for one; and a session that was stored and is
    gone or expired in a later state brings no request to a handler from then on. -/
theorem access_gate {clock : Time} {users : UserStore}
    (hrun : AuthRun (.start clock users) as s) :
    (∀ (v : Visit) (m : Moments) (admin : Bool) (handler : Principal → β) (b : β), m.After s →
      gate v m admin handler = .handled b →
      ∃ token data, v.sessionCookie = some token ∧
        m.identity.sessions.tokens token = some data ∧ m.identity.clock < data.expiresAt ∧
        data.username ≠ "" ∧
        (∀ localUser, m.user.users.find? data.username = some localUser →
          localUser.enabled = true) ∧
        (¬ v.safeMethod → m.csrf.sessions.tokens token = some data ∧
          m.csrf.clock < data.expiresAt ∧ v.csrfCookie = some data.csrfToken ∧
          v.formToken = data.csrfToken) ∧
        (admin = true → data.role = .admin) ∧ b = handler ⟨data.username, data.role⟩) ∧
    (∀ (token : String) (data : SessionData) (bs : List AuthOp) (s' : AuthState),
      s.sessions.tokens token = some data → AuthRun s bs s' →
      (s'.sessions.tokens token = none ∨ data.expiresAt ≤ s'.clock) →
      ∀ (v : Visit) (m : Moments) (admin : Bool) (handler : Principal → β) (b : β), m.After s' →
        v.sessionCookie = some token → gate v m admin handler ≠ .handled b) := by
  have hinv := AuthRun.inv hrun (AuthState.inv_start clock users)
  constructor
  · intro v m admin handler b hafter h
    obtain ⟨token, data, hadm, hb, hcsrf⟩ := handled_session hinv hafter h
    exact ⟨token, data, hadm.cookie, hadm.stored, hadm.unexpired, hadm.named, hadm.enabled, hcsrf,
      hadm.admin, hb.symm⟩
  · intro token data bs s' hstored hrun' hgone v m admin handler b hafter hcookie
    have hissued := hinv token data hstored
    have hvalid : s'.sessions.valid token s'.clock = false := by
      by_contra hv
      obtain ⟨data', hstored', hnow⟩ :=
        SessionStore.valid_eq_true_iff.mp (Bool.eq_true_of_not_eq_false hv)
      rcases hgone with hnone | hexp
      · rw [hnone] at hstored'
        cases hstored'
      · have hsame := AuthRun.tokens_of_issued hrun' hissued hstored'
        obtain rfl : data = data' := Option.some.inj (hstored.symm.trans hsame)
        exact absurd hnow (not_lt.mpr hexp)
    exact not_handled_of_not_valid (AuthRun.issued hrun' hissued) hvalid hafter hcookie

section Example

private def aliceSession : SessionData := ⟨100, "csrf", "alice", .user⟩

private def signedInOps : List AuthOp := [.add (fun _ => 0) 0 "token" aliceSession, .tick 10]

private def signedIn : AuthState :=
  ⟨10, SessionStore.add ⟨fun _ => none⟩ (fun _ => 0) "token" aliceSession, .empty, ["token"]⟩

private theorem signedIn_run : AuthRun (.start 0 .empty) signedInOps signedIn := by
  have hadd : AuthRun (.start 0 .empty) [.add (fun _ => 0) 0 "token" aliceSession]
      { signedIn with clock := 0 } :=
    Run.one ⟨List.not_mem_nil, le_refl _, fun _ => ⟨le_refl _, le_refl _⟩⟩ rfl
  have htick : (0 : Int) ≤ 10 := by decide
  exact hadd.snoc htick rfl

private def dashboard : Visit := ⟨"/dashboard", "GET", some "token", none, "", "", ""⟩

/-- The session of alice opens the dashboard, and no page once it has been removed. -/
theorem access_gate_signed_in :
    (∃ token data, dashboard.sessionCookie = some token ∧
      signedIn.sessions.tokens token = some data ∧ signedIn.clock < data.expiresAt ∧
      data.username ≠ "") ∧
    gate dashboard { signedIn with sessions := signedIn.sessions.remove "token" }.still false
      (fun p => p.username) ≠ .handled "alice" := by
  have hgate := access_gate (β := String) signedIn_run
  constructor
  · obtain ⟨token, data, hcookie, hstored, hexp, hname, -⟩ :=
      hgate.1 dashboard signedIn.still false (fun p => p.username) "alice" signedIn.after_still rfl
    exact ⟨token, data, hcookie, hstored, hexp, hname⟩
  · exact hgate.2 "token" aliceSession [.remove "token"] _ rfl (Run.one trivial rfl) (.inl rfl)
      _ _ _ _ _ (AuthState.after_still _) rfl

end Example

end OpenHpcWeb.Web
