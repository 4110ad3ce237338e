/-
  The sessions of internal/web/app.go and the middleware that every protected route passes:
  `requireAuthentication`, then `requireCSRF`, then `requireAdmin` on the routes of the
  administrators.

  The map of the session store is a function from tokens. Each method holds the lock from
  its first line to its last, so it is one step of the server; between the lookups of one
  request other requests take theirs. A request is therefore answered from the moments at
  which it reads (`Moments`), each a later state of the server than the one before. `add`
  asks the clock again at every entry it copies (`now`).

  The tokens of `randomToken` are assumed fresh: `add` is never given a token it was given
  before.

  * `gate_handled_iff`: when a request reaches its handler.
-/
import OpenHpcWeb.Lib.Run
import OpenHpcWeb.Platform.Users

namespace OpenHpcWeb.Web

open OpenHpcWeb.Go OpenHpcWeb.Lib OpenHpcWeb.Platform

/-! ## The session store -/

structure SessionData where
  expiresAt : Time
  csrfToken : String
  username : String
  role : UserRole
  deriving DecidableEq

structure Principal where
  username : String
  role : UserRole
  deriving DecidableEq

/-- `sessionStore`: its map from tokens. -/
structure SessionStore where
  tokens : String → Option SessionData

namespace SessionStore

/-- `add`: the entries that have expired when the copy meets them are left behind. -/
def add (s : SessionStore) (now : String → Time) (token : String) (data : SessionData) :
    SessionStore where
  tokens key :=
    if key = token then some data
    else (s.tokens key).filter fun value => now key < value.expiresAt

def remove (s : SessionStore) (token : String) : SessionStore where
  tokens key := if key = token then none else s.tokens key

def removeUsername (s : SessionStore) (username : String) : SessionStore where
  tokens key := (s.tokens key).filter fun value => value.username ≠ username

def valid (s : SessionStore) (token : String) (now : Time) : Bool :=
  (s.tokens token).any fun data => now < data.expiresAt

/-- `identity`; `none` is its `false`. -/
def identity (s : SessionStore) (token : String) (now : Time) : Option Principal :=
  match s.tokens token with
  | none => none
  | some data =>
    if ¬ now < data.expiresAt ∨ data.username = "" then none
    else some ⟨data.username, data.role⟩

/-- `csrf`: the token, and whether the session is there and unexpired. -/
def csrf (s : SessionStore) (token : String) (now : Time) : String × Bool :=
  match s.tokens token with
  | none => ("", false)
  | some data => (data.csrfToken, now < data.expiresAt)

theorem identity_eq_some_iff {s : SessionStore} {token : String} {now : Time} {p : Principal} :
    s.identity token now = some p ↔ ∃ data, s.tokens token = some data ∧ now < data.expiresAt ∧
      data.username ≠ "" ∧ p = ⟨data.username, data.role⟩ := by
  unfold identity
  cases s.tokens token with
  | none => simp
  | some data =>
    simp only [Option.some.injEq, exists_eq_left']
    split
    · next hbad =>
      constructor
      · intro h
        cases h
      · rintro ⟨hnow, hname, -⟩
        exact hbad.elim (fun h => absurd hnow h) fun h => absurd h hname
    · next hgood =>
      simp only [not_or, not_not] at hgood
      rw [Option.some.injEq]
      exact ⟨fun h => ⟨hgood.1, hgood.2, h.symm⟩, fun h => h.2.2.symm⟩

theorem valid_eq_true_iff {s : SessionStore} {token : String} {now : Time} :
    s.valid token now = true ↔ ∃ data, s.tokens token = some data ∧ now < data.expiresAt := by
  unfold valid
  cases s.tokens token with
  | none => simp
  | some data => simp

/-- What the operations leave of an entry was there before, except the one that is added. -/
theorem tokens_add {s : SessionStore} {now : String → Time} {token key : String}
    {data value : SessionData} (h : (s.add now token data).tokens key = some value) :
    (key = token ∧ value = data) ∨ (key ≠ token ∧ s.tokens key = some value) := by
  simp only [add] at h
  split at h
  · next hkey => exact .inl ⟨hkey, (Option.some.inj h).symm⟩
  · next hkey => exact .inr ⟨hkey, Option.eq_some_of_filter_eq_some h⟩

theorem tokens_remove {s : SessionStore} {token key : String} {value : SessionData}
    (h : (s.remove token).tokens key = some value) : s.tokens key = some value ∧ key ≠ token := by
  simp only [remove] at h
  split at h
  · cases h
  · next hkey => exact ⟨h, hkey⟩

theorem tokens_removeUsername {s : SessionStore} {username key : String} {value : SessionData}
    (h : (s.removeUsername username).tokens key = some value) :
    s.tokens key = some value ∧ value.username ≠ username := by
  have hvalue := Option.filter_eq_some_iff.mp h
  exact ⟨hvalue.1, by simpa using hvalue.2⟩

end SessionStore

/-- `constantTimeEqual`. Strings with the same bytes are the same. -/
def constantTimeEqual (left right : String) : Bool := decide (left = right)

/-! ## The server -/

/-- The state that the middleware reads. -/
structure AuthState where
  clock : Time
  sessions : SessionStore
  users : UserStore
  /-- history: the tokens that `add` was given -/
  issued : List String

/-- What other requests and time do to the server. -/
inductive AuthOp where
  /-- an `add` that returns at `finish` -/
  | add (now : String → Time) (finish : Time) (token : String) (data : SessionData)
  | remove (token : String)
  | removeUsername (username : String)
  /-- a lookup: `valid`, `identity` or `csrf` -/
  | lookup (token : String)
  | tick (now : Time)
  /-- a statement of another request that leaves the user table as `users` -/
  | setUsers (users : UserStore)

def authOp (s : AuthState) : AuthOp → Option AuthState
  | .add now finish token data =>
    some { s with
      clock := finish
      sessions := s.sessions.add now token data
      issued := token :: s.issued }
  | .remove token => some { s with sessions := s.sessions.remove token }
  | .removeUsername username => some { s with sessions := s.sessions.removeUsername username }
  | .lookup _ => some s
  | .tick now => some { s with clock := now }
  | .setUsers users => some { s with users := users }

/-- The clock does not go back, and tokens are fresh. -/
def AuthOp.Ok (s : AuthState) : AuthOp → Prop
  | .add now finish token _ =>
    token ∉ s.issued ∧ s.clock ≤ finish ∧ ∀ key, s.clock ≤ now key ∧ now key ≤ finish
  | .tick now => s.clock ≤ now
  | _ => True

/-- A server that has just started: `New` makes an empty store. -/
def AuthState.start (clock : Time) (users : UserStore) : AuthState :=
  ⟨clock, ⟨fun _ => none⟩, users, []⟩

abbrev AuthRun := Run authOp AuthOp.Ok

/-! ## The middleware -/

/-- What the middleware reads of a request. -/
structure Visit where
  path : String
  method : String
  sessionCookie : Option String
  csrfCookie : Option String
  /-- the header X-CSRF-Token -/
  csrfHeader : String
  contentType : String
  /-- `c.FormValue("_csrf")` -/
  csrfForm : String

/-- The states of the server in which the middleware reads, and the fate of the `SELECT`. -/
structure Moments where
  identity : AuthState
  user : AuthState
  csrf : AuthState
  userFault : Option String

/-- A request that meets the same server at each of its lookups. -/
def AuthState.still (s : AuthState) : Moments := ⟨s, s, s, none⟩

/-- How a request to a protected route is answered. -/
inductive Answer (β : Type) where
  /-- 302 to the login page with this `next` -/
  | loginRedirect (next : String)
  | httpError (status : Nat) (message : Option String)
  /-- what the handler of the route answers -/
  | handled (answer : β)

variable {β : Type}

/-- `requireAuthentication`. On the way of a disabled account to the login page the session
    is removed (`authenticationRemoves`). -/
def requireAuthentication (v : Visit) (m : Moments) (next : Principal → Answer β) : Answer β :=
  match v.sessionCookie with
  | none => .loginRedirect v.path
  | some token =>
    match m.identity.sessions.identity token m.identity.clock with
    | none => .loginRedirect v.path
    | some identity =>
      match m.user.users.get m.userFault identity.username with
      | .error _ => .httpError 503 none
      | .ok found =>
        if found.any fun localUser => !localUser.enabled then .loginRedirect v.path
        else next identity

/-- The token that `requireAuthentication` takes out of the store. -/
def authenticationRemoves (v : Visit) (m : Moments) : Option String :=
  v.sessionCookie.filter fun token =>
    (m.identity.sessions.identity token m.identity.clock).any fun identity =>
      match m.user.users.get m.userFault identity.username with
      | .error _ => false
      | .ok found => found.any fun localUser => !localUser.enabled

/-- The token that the request submits. -/
def Visit.formToken (v : Visit) : String :=
  if v.csrfHeader = "" ∧ ¬ "multipart/form-data".toList <+: v.contentType.toList then v.csrfForm
  else v.csrfHeader

/-- The methods that `requireCSRF` lets through. -/
def Visit.safeMethod (v : Visit) : Prop :=
  v.method = "GET" ∨ v.method = "HEAD" ∨ v.method = "OPTIONS"

instance (v : Visit) : Decidable v.safeMethod := inferInstanceAs (Decidable (_ ∨ _ ∨ _))

def requireCSRF (v : Visit) (m : Moments) (next : Answer β) : Answer β :=
  if v.safeMethod then next
  else
    match v.sessionCookie, v.csrfCookie with
    | some session, some csrf =>
      let stored := m.csrf.sessions.csrf session m.csrf.clock
      if ¬ stored.2 ∨ ¬ constantTimeEqual stored.1 csrf ∨
          ¬ constantTimeEqual stored.1 v.formToken then
        .httpError 403 (some "invalid CSRF token")
      else next
    | _, _ => .httpError 403 (some "invalid CSRF token")

def requireAdmin (identity : Principal) (next : Answer β) : Answer β :=
  if identity.role ≠ .admin then .httpError 403 none else next

/-- A protected route: the group's middleware, `requireAdmin` on the routes that have it, and
    the handler. -/
def gate (v : Visit) (m : Moments) (admin : Bool) (handler : Principal → β) : Answer β :=
  requireAuthentication v m fun identity =>
    requireCSRF v m <|
      if admin then requireAdmin identity (.handled (handler identity))
      else .handled (handler identity)

/-! ## What reaches a handler -/

theorem requireAuthentication_handled_iff {v : Visit} {m : Moments}
    {next : Principal → Answer β} {b : β} :
    requireAuthentication v m next = .handled b ↔
      ∃ token identity, v.sessionCookie = some token ∧
        m.identity.sessions.identity token m.identity.clock = some identity ∧
        (∃ found, m.user.users.get m.userFault identity.username = .ok found ∧
          ∀ localUser, found = some localUser → localUser.enabled = true) ∧
        next identity = .handled b := by
  unfold requireAuthentication
  cases v.sessionCookie with
  | none => simp
  | some token =>
    cases hid : m.identity.sessions.identity token m.identity.clock with
    | none => simp [hid]
    | some identity =>
      cases hget : m.user.users.get m.userFault identity.username with
      | error err => simp [hid, hget]
      | ok found =>
        cases found with
        | none => simp [hid, hget]
        | some localUser =>
          cases henabled : localUser.enabled with
          | false => simp [hid, hget, henabled]
          | true => simp [hid, hget, henabled]

theorem requireCSRF_handled_iff {v : Visit} {m : Moments} {next : Answer β} {b : β} :
    requireCSRF v m next = .handled b ↔
      next = .handled b ∧ (v.safeMethod ∨ ∃ session data, v.sessionCookie = some session ∧
        m.csrf.sessions.tokens session = some data ∧ m.csrf.clock < data.expiresAt ∧
        v.csrfCookie = some data.csrfToken ∧ v.formToken = data.csrfToken) := by
  unfold requireCSRF
  by_cases hsafe : v.safeMethod
  · simp [hsafe]
  · rw [if_neg hsafe]
    cases hsession : v.sessionCookie with
    | none => simp [hsafe]
    | some session =>
      cases hcookie : v.csrfCookie with
      | none => simp [hsafe]
      | some cookie =>
        cases htoken : m.csrf.sessions.tokens session with
        | none => simp [SessionStore.csrf, htoken, hsafe]
        | some data =>
          simp only [SessionStore.csrf, htoken, constantTimeEqual, decide_eq_true_eq]
          split
          · next hbad =>
            constructor
            · intro h
              cases h
            · rintro ⟨-, hsafe' | ⟨_, data', hs, hdata, hexp, hcsrf, hform⟩⟩
              · exact absurd hsafe' hsafe
              · obtain rfl := Option.some.inj hs
                obtain rfl := Option.some.inj (htoken.symm.trans hdata)
                simp [hexp, hform, Option.some.inj hcsrf] at hbad
          · next hgood =>
            simp only [not_or, not_not] at hgood
            obtain ⟨hexp, hcsrf, hform⟩ := hgood
            refine ⟨fun h => ⟨h, .inr ⟨session, data, rfl, htoken, hexp, ?_, hform.symm⟩⟩, And.left⟩
            rw [hcsrf]

theorem requireAdmin_handled_iff {identity : Principal} {next : Answer β} {b : β} :
    requireAdmin identity next = .handled b ↔ identity.role = .admin ∧ next = .handled b := by
  unfold requireAdmin
  by_cases h : identity.role = .admin <;> simp [h]

/-- What must hold for a request to reach its handler, at the moments at which it is read. -/
structure Admitted (v : Visit) (m : Moments) (admin : Bool) (token : String) (data : SessionData) :
    Prop where
  cookie : v.sessionCookie = some token
  stored : m.identity.sessions.tokens token = some data
  unexpired : m.identity.clock < data.expiresAt
  named : data.username ≠ ""
  readable : ∃ found, m.user.users.get m.userFault data.username = .ok found
  enabled : ∀ localUser, m.user.users.find? data.username = some localUser →
    localUser.enabled = true
  csrf : v.safeMethod ∨ ∃ data', m.csrf.sessions.tokens token = some data' ∧
    m.csrf.clock < data'.expiresAt ∧ v.csrfCookie = some data'.csrfToken ∧
    v.formToken = data'.csrfToken
  admin : admin = true → data.role = .admin

theorem gate_handled_iff {v : Visit} {m : Moments} {admin : Bool} {handler : Principal → β} {b : β} :
    gate v m admin handler = .handled b ↔ ∃ token data, Admitted v m admin token data ∧
      handler ⟨data.username, data.role⟩ = b := by
  have hadmin : ∀ identity : Principal,
      (if admin then requireAdmin identity (.handled (handler identity))
        else .handled (handler identity)) = .handled b ↔
      (admin = true → identity.role = .admin) ∧ handler identity = b := by
    intro identity
    cases admin with
    | false => simp
    | true => simp [requireAdmin_handled_iff]
  unfold gate
  simp only [requireAuthentication_handled_iff, requireCSRF_handled_iff, hadmin]
  constructor
  · rintro ⟨token, identity, hcookie, hid, ⟨found, hget, henabled⟩, ⟨hrole, hb⟩, hcsrf⟩
    obtain ⟨data, hstored, hexp, hname, rfl⟩ := SessionStore.identity_eq_some_iff.mp hid
    refine ⟨token, data, ⟨hcookie, hstored, hexp, hname, ⟨found, hget⟩, ?_, ?_, hrole⟩, hb⟩
    · intro localUser hfind
      exact henabled localUser ((UserStore.get_eq_ok_iff.mp hget).2.2.symm.trans hfind)
    · refine hcsrf.imp_right ?_
      rintro ⟨session, data', hsession, hcsrf⟩
      obtain rfl : token = session := Option.some.inj (hcookie.symm.trans hsession)
      exact ⟨data', hcsrf⟩
  · rintro ⟨token, data, h, hb⟩
    obtain ⟨found, hget⟩ := h.readable
    refine ⟨token, ⟨data.username, data.role⟩, h.cookie,
      SessionStore.identity_eq_some_iff.mpr ⟨data, h.stored, h.unexpired, h.named, rfl⟩,
      ⟨found, hget, ?_⟩, ⟨h.admin, hb⟩, ?_⟩
    · intro localUser hfound
      exact h.enabled localUser ((UserStore.get_eq_ok_iff.mp hget).2.2.trans hfound)
    · refine h.csrf.imp_right ?_
      rintro ⟨data', hcsrf⟩
      exact ⟨token, data', h.cookie, hcsrf⟩

end OpenHpcWeb.Web
