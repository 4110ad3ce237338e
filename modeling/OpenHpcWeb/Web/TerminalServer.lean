/-
  Opening SSH terminals, and what is to close them: `createTerminalSession` of
  internal/web/terminal.go, `logout` of app.go, `setPlatformUserStatus` of platform_users.go
  with its terminals, and the closing of the store at shutdown.

  A create passes the middleware, opens its SSH session, adds it to the store and records it;
  each of these is a step, and the SSH connection takes its time. A cleanup takes the sessions
  out of the store in one section under the lock and then closes them one by one, in the order
  in which `range` walked the map. `terminalServerStep` lets any of them take its next step.
  Timers and streaming handlers only close sessions, and are left to `TerminalCalls`.

  History, which the code does not hold: whose session an id stands for, the owner of each
  create, what each cleanup has taken out, and the cleanups that had not completed when a
  create was authenticated.
-/
import OpenHpcWeb.Web.AccountStatus
import OpenHpcWeb.Web.TerminalStore

namespace OpenHpcWeb.Web

open OpenHpcWeb.Go OpenHpcWeb.Lib OpenHpcWeb.Platform

/-! ## Requests -/

structure TerminalRequest where
  visit : Visit
  userFault : Option String
  /-- `terminalCredentials` reads the form -/
  credentials : Bool
  /-- the error of `Open`, if it fails -/
  openErr : Option String
  /-- the outcome of `randomToken` -/
  token : Except String String
  auditFault : Option String
  now : Time

inductive TerminalAnswer where
  | httpError (status : Nat)
  | error (status : Nat) (text : String)
  | created (id : String)
  deriving DecidableEq

structure LogoutRequest where
  visit : Visit
  userFault : Option String
  auditFault : Option String
  now : Time

inductive LogoutAnswer where
  | httpError (status : Nat)
  | redirect (path : String)
  deriving DecidableEq

inductive CleanupRequest where
  | status (r : StatusRequest)
  | logout (r : LogoutRequest)
  | shutdown

def LoginWorld.recordEvent (w : LoginWorld) (fault : Option String) (event : AuditEvent) :
    LoginWorld :=
  match fault with
  | some _ => w
  | none => { w with audit := w.audit ++ [event] }

/-- `recordTerminalAudit`. -/
def recordTerminalAudit (w : LoginWorld) (r : TerminalRequest) (username outcome : String) :
    LoginWorld :=
  w.recordEvent r.auditFault ⟨username, "terminal.session", outcome, r.now⟩

/-! ## Where requests stand -/

inductive CreateTerminalPc where
  | start
  | authenticated (identity : Principal)
  /-- the SSH session is open -/
  | opened (identity : Principal)
  /-- `Add` has failed: the SSH session is closed next -/
  | refused (identity : Principal)
  | added (identity : Principal) (id : String)
  /-- there is no record: the session is released next -/
  | unrecorded (id : String)
  /-- out of the store, if it was there: it is closed next -/
  | releasing (ids : List String)
  | finished (answer : Answer TerminalAnswer)

inductive CleanupPc where
  | start
  /-- a change of status, in front of its terminals or behind them -/
  | status (pc : StatusPc)
  /-- `CloseUsername` of this user, or `Close`, is next -/
  | toTake (actor : Option Principal) (target : Option String)
  | closing (actor : Option Principal) (ids : List String)
  | toRemove (actor : Principal)
  | toRecord (actor : Principal)
  | left (answer : Answer LogoutAnswer)
  | shut

/-- The cleanup has completed. -/
def CleanupPc.completed : CleanupPc → Bool
  | .status (.finished _) | .left _ | .shut => true
  | _ => false

variable {I J : Type}

structure TerminalRequests (I J : Type) where
  /-- there is an SSH client -/
  terminalClient : Bool
  creates : I → TerminalRequest
  cleanups : J → CleanupRequest

structure TerminalServer (I J : Type) where
  world : LoginWorld
  store : TerminalSessionStore
  create : I → CreateTerminalPc
  cleanup : J → CleanupPc
  /-- the SSH session of the create is open -/
  isOpen : I → Bool
  /-- history: the create that added the session -/
  maker : String → Option I
  /-- history: the user the create was authenticated as -/
  owner : I → Option String
  /-- history: the cleanups that had not completed when the create was authenticated -/
  since : I → J → Bool
  /-- history: what the cleanup has taken out, the sessions of a user or all -/
  target : J → Option (Option String)

inductive TerminalServerAction (I J : Type) where
  | create (i : I)
  | cleanup (j : J)
  /-- the cleanup closes one of the sessions it has taken out -/
  | close (j : J) (id : String)
  /-- other requests, and time -/
  | other (op : AuthOp)

def TerminalServer.start (q : TerminalRequests I J) (world : LoginWorld) : TerminalServer I J where
  world := world
  store := .empty
  create _ := .start
  cleanup j :=
    match q.cleanups j with
    | .status _ => .status .start
    | _ => .start
  isOpen _ := false
  maker _ := none
  owner _ := none
  since _ _ := false
  target _ := none

/-! ## Steps -/

section Step

variable [DecidableEq I] [DecidableEq J]

def TerminalServer.setCreate (s : TerminalServer I J) (i : I) (pc : CreateTerminalPc) :
    TerminalServer I J :=
  { s with create := Function.update s.create i pc }

def TerminalServer.setCleanup (s : TerminalServer I J) (j : J) (pc : CleanupPc) :
    TerminalServer I J :=
  { s with cleanup := Function.update s.cleanup j pc }

/-- The session of an id is closed. -/
def TerminalServer.closeSession (s : TerminalServer I J) (id : String) : TerminalServer I J :=
  match s.maker id with
  | none => s
  | some i => { s with isOpen := Function.update s.isOpen i false }

/-- The middleware on the way to a create. -/
def authenticateTerminal (s : TerminalServer I J) (i : I) (r : TerminalRequest) :
    TerminalServer I J :=
  let m : Moments := { s.world.auth.still with userFault := r.userFault }
  match gate r.visit m false id with
  | .handled identity =>
    { s.setCreate i (.authenticated identity) with
      owner := Function.update s.owner i (some identity.username)
      since := Function.update s.since i fun j => !(s.cleanup j).completed }
  | .httpError status message => s.setCreate i (.finished (.httpError status message))
  | .loginRedirect next =>
    let s := s.setCreate i (.finished (.loginRedirect next))
    match authenticationRemoves r.visit m with
    | none => s
    | some token => { s with world := s.world.setSessions (s.world.auth.sessions.remove token) }

/-- `createTerminalSession` from its first line to `Open`. -/
def openTerminal (available : Bool) (s : TerminalServer I J) (i : I) (r : TerminalRequest)
    (identity : Principal) : TerminalServer I J :=
  if ¬ available then s.setCreate i (.finished (.handled (.httpError 503)))
  else if ¬ r.credentials then
    s.setCreate i (.finished (.handled (.error 400
      "SSH credentials are invalid; select a private key file and try again")))
  else
    match r.openErr with
    | some err =>
      { s.setCreate i (.finished (.handled (.error 502 err))) with
        world := recordTerminalAudit s.world r identity.username "denied" }
    | none => { s.setCreate i (.opened identity) with isOpen := Function.update s.isOpen i true }

/-- `Add`. -/
def addTerminal (s : TerminalServer I J) (i : I) (r : TerminalRequest) (identity : Principal) :
    TerminalServer I J :=
  let called := s.store.add identity.username r.token
  match called.1 with
  | .error _ => s.setCreate i (.refused identity)
  | .ok id =>
    { s.setCreate i (.added identity id) with
      store := called.2
      maker := Function.update s.maker id (some i) }

/-- The next step of a create. -/
def createStep (available : Bool) (s : TerminalServer I J) (i : I) (r : TerminalRequest) :
    Option (TerminalServer I J) :=
  match s.create i with
  | .start => some (authenticateTerminal s i r)
  | .authenticated identity => some (openTerminal available s i r identity)
  | .opened identity => some (addTerminal s i r identity)
  | .refused identity =>
    some { s.setCreate i (.finished (.handled (.error 429
        "Terminal session limit reached; close an existing session and try again"))) with
      isOpen := Function.update s.isOpen i false
      world := recordTerminalAudit s.world r identity.username "rate_limited" }
  | .added identity id =>
    match r.auditFault with
    | some _ => some (s.setCreate i (.unrecorded id))
    | none =>
      some { s.setCreate i (.finished (.handled (.created id))) with
        world := recordTerminalAudit s.world r identity.username "success" }
  | .unrecorded id =>
    let taken := s.store.release id
    some { s.setCreate i (.releasing taken.1) with store := taken.2 }
  | .releasing ids =>
    some ((ids.foldl TerminalServer.closeSession s).setCreate i
      (.finished (.handled (.httpError 503))))
  | .finished _ => none

/-- The middleware on the way to a logout. -/
def authenticateLogout (s : TerminalServer I J) (j : J) (r : LogoutRequest) :
    TerminalServer I J :=
  let m : Moments := { s.world.auth.still with userFault := r.userFault }
  match gate r.visit m false id with
  | .handled actor => s.setCleanup j (.toTake (some actor) (some actor.username))
  | .httpError status message => s.setCleanup j (.left (.httpError status message))
  | .loginRedirect next =>
    let s := s.setCleanup j (.left (.loginRedirect next))
    match authenticationRemoves r.visit m with
    | none => s
    | some token => { s with world := s.world.setSessions (s.world.auth.sessions.remove token) }

/-- A change of status; behind `removeUsername` of its sessions come its terminals. -/
def statusStep (s : TerminalServer I J) (j : J) (r : StatusRequest) (pc : StatusPc) :
    Option (TerminalServer I J) :=
  (advanceStatus r s.world pc).map fun next =>
    match pc with
    | .toRevoke actor username =>
      { s.setCleanup j (.toTake (some actor) (some username)) with world := next.2 }
    | _ => { s.setCleanup j (.status next.1) with world := next.2 }

/-- `CloseUsername` or `Close` under the lock. -/
def takeTerminals (s : TerminalServer I J) (j : J) (actor : Option Principal)
    (target : Option String) : TerminalServer I J :=
  let taken :=
    match target with
    | some username => s.store.closeUsername username
    | none => s.store.close
  { s.setCleanup j (.closing actor taken.1) with
    store := taken.2
    target := Function.update s.target j (some target) }

/-- Where a cleanup goes on when its terminals are closed. -/
def afterClosing (request : CleanupRequest) (actor : Option Principal) : CleanupPc :=
  match request, actor with
  | .status _, some actor => .status (.toRecord actor)
  | .logout _, some actor => .toRemove actor
  | _, _ => .shut

/-- The next step of a cleanup, but for the closing of sessions. -/
def cleanupStep (s : TerminalServer I J) (j : J) (request : CleanupRequest) :
    Option (TerminalServer I J) :=
  match s.cleanup j, request with
  | .start, .logout r => some (authenticateLogout s j r)
  | .start, .shutdown => some (s.setCleanup j (.toTake none none))
  | .status pc, .status r => statusStep s j r pc
  | .toTake actor target, _ => some (takeTerminals s j actor target)
  | .closing actor [], request => some (s.setCleanup j (afterClosing request actor))
  | .toRemove actor, .logout r =>
    let s := s.setCleanup j (.toRecord actor)
    match r.visit.sessionCookie with
    | none => some s
    | some token =>
      some { s with world := s.world.setSessions (s.world.auth.sessions.remove token) }
  | .toRecord actor, .logout r =>
    some { s.setCleanup j (.left (.handled (match r.auditFault with
        | some _ => .httpError 503
        | none => .redirect "/login"))) with
      world := s.world.recordEvent r.auditFault ⟨actor.username, "auth.logout", "success", r.now⟩ }
  | _, _ => none

def terminalServerStep (q : TerminalRequests I J) (s : TerminalServer I J) :
    TerminalServerAction I J → Option (TerminalServer I J)
  | .create i => createStep q.terminalClient s i (q.creates i)
  | .cleanup j => cleanupStep s j (q.cleanups j)
  | .close j id =>
    match s.cleanup j with
    | .closing actor ids =>
      if id ∈ ids then some ((s.closeSession id).setCleanup j (.closing actor (ids.erase id)))
      else none
    | _ => none
  | .other op =>
    (authOp s.world.auth op).map fun auth => { s with world := { s.world with auth := auth } }

end Step

end OpenHpcWeb.Web
