/-
  The methods of the directory client, internal/ldapdirectory/client.go, with all that they do
  to a connection.

  A method is a program that asks: for the connection, the goroutine of `closeOnContext`, binds,
  searches, the context, the hash of a password. A search is one question with the entries of
  its answer; the context is asked after them.

  * `keeps_withConnection`: what opens a connection stops the goroutine and closes it, in this
    order, and sends nothing on it before or after.
  * `keeps_method`: so does every method.
-/
import OpenHpcWeb.Ldap.Provisioning
import OpenHpcWeb.Ldap.Search
import OpenHpcWeb.Lib.Protocol

namespace OpenHpcWeb.Ldap

open OpenHpcWeb.Go OpenHpcWeb.Lib OpenHpcWeb.Lib.Ldap
open OpenHpcWeb.Lib.Program (question keeps_bind keeps_move)

/-! ## Questions -/

inductive CallQuestion where
  | dial
  | setTimeout (timeout : Int)
  /-- `closeOnContext` -/
  | watch
  | bind (dn password : String)
  | search (request : SearchRequest)
  /-- `ctx.Err()` -/
  | contextErr
  | sshaPassword (password : String)
  | add (entry : Entry)
  /-- the function that `closeOnContext` returned -/
  | stopCancellation
  | close

/-- The answers; those of `dial` and `add` are the error. -/
@[reducible] def CallAnswer : CallQuestion → Type
  | .dial => Option String
  | .bind _ _ => BindResult
  | .search _ => Response
  | .contextErr => Option String
  | .sshaPassword _ => Option String
  | .add _ => Option String
  | .setTimeout _ | .watch | .stopCancellation | .close => Unit

abbrev CallProgram (α : Type) := Program CallQuestion CallAnswer α

def perform (q : CallQuestion) : CallProgram (CallAnswer q) := question q

/-- The text of the error of a bind. -/
def bindError : BindResult → Option String
  | .accepted => none
  | .invalidCredentials => some "LDAP Result Code 49"
  | .failed err => some err

/-- The client, with the rest of its configuration. -/
structure DirectoryClient extends Provisioning where
  timeout : Int
  maxResults : Nat
  bindDN : String
  bindPassword : String
  escapeFilter : String → String

def DirectoryClient.searchConfig (c : DirectoryClient) : SearchConfig where
  toConfig := c.config.toConfig
  timeout := c.timeout
  maxResults := c.maxResults

/-! ## Opening -/

/-- What `openWithBind` does before it returns an error. -/
def giveUp (error : CallProgram String) : CallProgram (Except String Unit) := do
  perform .stopCancellation
  perform .close
  return .error (← error)

/-- The end of `openWithBind`. The error of a context does not change, so it is asked once. -/
def checkContext : CallProgram (Except String Unit) := do
  match ← perform .contextErr with
  | some err => giveUp (return err)
  | none => return .ok ()

/-- The end of `openWithBind` after a bind that failed. -/
def bindFailed (err : String) : CallProgram (Except String Unit) :=
  giveUp do return (← perform .contextErr).getD ("bind LDAP directory: " ++ err)

/-- `boundedSearch` on the connection: the context is asked when all entries are read. -/
def searchOn (request : SearchRequest) : CallProgram (Except String (List Entry × Bool)) := do
  let response ← perform (.search request)
  match response.entries.foldlM (readEntry request.sizeLimit) ⟨[], 0⟩ with
  | .error early => return early
  | .ok _ =>
    let cancelled ← perform .contextErr
    return boundedSearch request.sizeLimit cancelled response

/-- A method after its checks: the deferred calls come after its body, the last one first. -/
def withConnection {α : Type} (opening : CallProgram (Except String Unit))
    (body : CallProgram (Except String α)) : CallProgram (Except String α) := do
  match ← opening with
  | .error err => return .error err
  | .ok () =>
    let result ← body
    perform .stopCancellation
    perform .close
    return result

namespace DirectoryClient

variable (c : DirectoryClient)

/-- The connection and the function that stops the goroutine are what the later questions are
    about. -/
def openWithBind (bindDN bindPassword : String) : CallProgram (Except String Unit) := do
  match ← perform .dial with
  | some err => return .error err
  | none =>
    perform (.setTimeout c.timeout)
    perform .watch
    if bindDN ≠ "" then
      match bindError (← perform (.bind bindDN bindPassword)) with
      | some err => bindFailed err
      | none => checkContext
    else checkContext

def open_ : CallProgram (Except String Unit) := c.openWithBind c.bindDN c.bindPassword

/-! ## The methods -/

/-- The body of `Search`. -/
def searchBody (query : String) : CallProgram (Except String Directory.Page) := do
  match ← searchOn (userSearch c.escapeFilter c.searchConfig query) with
  | .error err => return .error ("search LDAP users: " ++ err)
  | .ok (userEntries, userServerTruncated) =>
    match ← searchOn (groupSearch c.escapeFilter c.searchConfig query) with
    | .error err => return .error ("search LDAP groups: " ++ err)
    | .ok (groupEntries, groupServerTruncated) =>
      return do
        let (users, userTruncated) ← parseUsers userEntries c.maxResults
        let (groups, groupTruncated) ← parseGroups groupEntries c.maxResults
        .ok ⟨users, groups,
          userServerTruncated || groupServerTruncated || userTruncated || groupTruncated⟩

def search (query : String) : CallProgram (Except String Directory.Page) :=
  match validateQuery query with
  | .error err => return .error err
  | .ok () => withConnection c.open_ (c.searchBody query)

/-- The search for the entries of a class with a value of an attribute, of which two do. -/
def entryRequest (baseDN class_ attr value : String) (attributes : List String) : SearchRequest :=
  searchRequest c.searchConfig baseDN
    ("(&(objectClass=" ++ class_ ++ ")(" ++ attr ++ "=" ++ value ++ "))") attributes 2

def accountRequest (uid : String) : SearchRequest :=
  c.entryRequest c.config.userBaseDN "posixAccount" "uid" (c.escapeFilter uid) userAttributes

def groupRequest (name : String) : SearchRequest :=
  c.entryRequest c.config.groupBaseDN "posixGroup" "cn" (c.escapeFilter name) groupAttributes

/-- What `User` and `Group` make of the entries that they find. -/
def theEntry {α : Type} (parse : Entry → Except String α) (failure ambiguous : String) :
    Except String (List Entry × Bool) → Except String (Option α)
  | .error err => .error (failure ++ err)
  | .ok ([], _) => .ok none
  | .ok ([entry], false) => (parse entry).map some
  | .ok _ => .error ambiguous

def user (uid : String) : CallProgram (Except String (Option Directory.User)) :=
  match validateDirectoryName uid with
  | .error err => return .error err
  | .ok () =>
    withConnection c.open_ do
      return theEntry parseUser "read LDAP user: " "LDAP user identifier is not unique"
        (← searchOn (c.accountRequest uid))

def group (name : String) : CallProgram (Except String (Option Directory.Group)) :=
  match validateDirectoryName name with
  | .error err => return .error err
  | .ok () =>
    withConnection c.open_ do
      return theEntry parseGroup "read LDAP group: " "LDAP group identifier is not unique"
        (← searchOn (c.groupRequest name))

/-- The body of `Authenticate`. -/
def authenticateBody (uid password : String) : CallProgram (Except String Bool) := do
  match ← searchOn (c.accountRequest uid) with
  | .error err => return .error ("authenticate LDAP user: " ++ err)
  | .ok ([], _) => return .ok false
  | .ok ([entry], false) =>
    match ← perform (.bind entry.dn password) with
    | .accepted => return .ok true
    | .invalidCredentials => return .ok false
    | .failed err => return .error ("authenticate LDAP user: " ++ err)
  | .ok _ => return .error "LDAP user identifier is not unique"

def authenticate (uid password : String) : CallProgram (Except String Bool) :=
  match validateDirectoryName uid with
  | .error err => return .error err
  | .ok () => withConnection c.open_ (c.authenticateBody uid password)

/-- A check of `ensureUserIdentityAvailable`. -/
def checkIdentity (attr value taken : String) : CallProgram (Except String Unit) := do
  match ← searchOn (c.entryRequest c.config.userBaseDN "posixAccount" attr value ["uid"]) with
  | .error err => return .error ("verify LDAP user identity: " ++ err)
  | .ok (entries, truncated) =>
    return if truncated ∨ entries.length ≠ 0 then .error taken else .ok ()

def checkPrimaryGroup (gidNumber : GoInt) : CallProgram (Except String Unit) := do
  match ← searchOn (c.entryRequest c.config.groupBaseDN "posixGroup" "gidNumber"
      (formatInt gidNumber) ["gidNumber"]) with
  | .error err => return .error ("verify LDAP primary group: " ++ err)
  | .ok (entries, truncated) =>
    return if truncated ∨ entries.length ≠ 1 then
        .error "LDAP primary group does not exist or is not unique"
      else .ok ()

def ensureUserIdentityAvailable (request : UserCreateRequest) :
    CallProgram (Except String Unit) := do
  match ← c.checkIdentity "uid" (c.escapeFilter request.uid) "LDAP username already exists" with
  | .error err => return .error err
  | .ok () =>
    match ← c.checkIdentity "uidNumber" (formatInt request.uidNumber)
        "LDAP UID already exists" with
    | .error err => return .error err
    | .ok () => c.checkPrimaryGroup request.gidNumber

/-- The body of `CreateUser`. -/
def createUserBody (request : UserCreateRequest) : CallProgram (Except String Unit) := do
  match ← c.ensureUserIdentityAvailable request with
  | .error err => return .error err
  | .ok () =>
    match ← perform (.sshaPassword request.password) with
    | none => return .error "generate LDAP password hash"
    | some password =>
      match ← perform (.add (newAccount c.toProvisioning request password)) with
      | some err => return .error ("create LDAP user: " ++ err)
      | none => return .ok ()

def createUser (request : UserCreateRequest) : CallProgram (Except String Unit) :=
  match validateUserCreateRequest request with
  | .error err => return .error err
  | .ok () =>
    if ¬ userProvisioningAvailable c.toProvisioning then
      return .error "LDAP user provisioning is unavailable"
    else
      withConnection
        (c.openWithBind c.config.provisionBindDN c.config.provisionBindPassword)
        (c.createUserBody request)

end DirectoryClient

/-! ## What a method does to its connection -/

/-- Where a method stands with its connection. -/
inductive CallStage where
  | fresh
  /-- there is no connection -/
  | refused
  | dialed
  /-- at work -/
  | watched
  | stopped
  | closed
  deriving DecidableEq

/-- What a method may ask where it stands. -/
def callProtocol : Protocol CallQuestion CallAnswer CallStage
  | .fresh, ⟨.dial, none⟩ => some .dialed
  | .fresh, ⟨.dial, some _⟩ => some .refused
  | .dialed, ⟨.setTimeout _, _⟩ => some .dialed
  | .dialed, ⟨.watch, _⟩ => some .watched
  | .watched, ⟨.bind _ _, _⟩ | .watched, ⟨.search _, _⟩ | .watched, ⟨.add _, _⟩
    | .watched, ⟨.contextErr, _⟩ | .watched, ⟨.sshaPassword _, _⟩ => some .watched
  | .watched, ⟨.stopCancellation, _⟩ => some .stopped
  | .stopped, ⟨.close, _⟩ => some .closed
  | .closed, ⟨.contextErr, _⟩ => some .closed
  | _, _ => none

/-- What a method asks while it is at work. -/
def atWork : CallQuestion → Bool
  | .bind _ _ | .search _ | .add _ | .contextErr | .sshaPassword _ => true
  | .dial | .setTimeout _ | .watch | .stopCancellation | .close => false

/-- The steps of the protocol. -/
inductive CallMove : CallStage → Exchange CallQuestion CallAnswer → CallStage → Prop
  | dialed : CallMove .fresh ⟨.dial, none⟩ .dialed
  | refused (err : String) : CallMove .fresh ⟨.dial, some err⟩ .refused
  | setTimeout (timeout : Int) : CallMove .dialed ⟨.setTimeout timeout, ()⟩ .dialed
  | watch : CallMove .dialed ⟨.watch, ()⟩ .watched
  | work {q : CallQuestion} (r : CallAnswer q) : atWork q = true →
      CallMove .watched ⟨q, r⟩ .watched
  | stop : CallMove .watched ⟨.stopCancellation, ()⟩ .stopped
  | close : CallMove .stopped ⟨.close, ()⟩ .closed
  | late (r : Option String) : CallMove .closed ⟨.contextErr, r⟩ .closed

theorem callProtocol_move {stage stage' : CallStage} {x : Exchange CallQuestion CallAnswer}
    (h : callProtocol stage x = some stage') : CallMove stage x stage' := by
  unfold callProtocol at h
  split at h
  all_goals cases h
  · exact .dialed
  · exact .refused _
  · exact .setTimeout _
  · exact .watch
  · exact .work _ rfl
  · exact .work _ rfl
  · exact .work _ rfl
  · exact .work _ rfl
  · exact .work _ rfl
  · exact .stop
  · exact .close
  · exact .late _

/-- A method that asks for its work is at work, or only for the context after its end. -/
theorem stage_atWork {α : Type} {stage : CallStage} {q : CallQuestion}
    {next : CallAnswer q → CallProgram α} {post : CallStage → α → Prop} (hq : atWork q = true)
    (h : (Program.ask q next).Keeps callProtocol stage post) :
    stage = .watched ∨ stage = .closed := by
  obtain ⟨r⟩ : Nonempty (CallAnswer q) := by
    cases q with
    | bind _ _ => exact ⟨.accepted⟩
    | search _ => exact ⟨⟨[], none⟩⟩
    | add _ | contextErr | sshaPassword _ => exact ⟨none⟩
    | dial | setTimeout _ | watch | stopCancellation | close => cases hq
  obtain ⟨stage', hstage', -⟩ := h.answer r
  cases callProtocol_move hstage' with
  | work => exact .inl rfl
  | late => exact .inr rfl
  | _ => cases hq

/-- Where a method may end. -/
def CallStage.Over (stage : CallStage) : Prop :=
  stage = .fresh ∨ stage = .refused ∨ stage = .closed

variable {α β : Type}

theorem keeps_perform {q : CallQuestion} {f : CallAnswer q → CallProgram α} {stage next : CallStage}
    {post : CallStage → α → Prop} (hq : ∀ r, callProtocol stage ⟨q, r⟩ = some next)
    (hf : ∀ r, (f r).Keeps callProtocol next post) :
    (perform q >>= f).Keeps callProtocol stage post := keeps_move hq hf

/-- A part of a method that works on the connection. -/
def Works (p : CallProgram α) : Prop :=
  p.Keeps callProtocol .watched fun stage _ => stage = .watched

theorem works_return (a : α) : Works (return a) := rfl

theorem works_bind {p : CallProgram α} {f : α → CallProgram β} (hp : Works p)
    (hf : ∀ a, Works (f a)) : Works (p >>= f) := by
  refine keeps_bind.mpr (hp.imp fun stage a hstage => ?_)
  rw [hstage]
  exact hf a

theorem works_ask {q : CallQuestion} (hq : ∀ r, callProtocol .watched ⟨q, r⟩ = some .watched)
    {f : CallAnswer q → CallProgram α} (hf : ∀ r, Works (f r)) : Works (perform q >>= f) :=
  keeps_perform hq hf

theorem works_searchOn (request : SearchRequest) : Works (searchOn request) := by
  refine works_ask (fun _ => rfl) fun response => ?_
  split
  · exact works_return _
  · exact works_ask (fun _ => rfl) fun _ => works_return _

/-- What a method is, from its start to its end. -/
def KeepsCall (p : CallProgram α) : Prop := p.Keeps callProtocol .fresh fun stage _ => stage.Over

theorem keepsCall_return (a : α) : KeepsCall (return a) := .inl rfl

/-- An opening leaves a connection to work on, or none. -/
def Opens (p : CallProgram (Except String Unit)) : Prop :=
  p.Keeps callProtocol .fresh fun stage r =>
    match r with
    | .ok () => stage = .watched
    | .error _ => stage.Over

theorem keepsCall_withConnection {opening : CallProgram (Except String Unit)}
    {body : CallProgram (Except String α)} (hopening : Opens opening) (hbody : Works body) :
    KeepsCall (withConnection opening body) := by
  refine keeps_bind.mpr (hopening.imp fun stage r hstage => ?_)
  split
  · exact hstage
  · rw [hstage]
    refine keeps_bind.mpr (hbody.imp fun stage result hstage => ?_)
    rw [hstage]
    refine keeps_perform (fun _ => rfl) fun _ => keeps_perform (fun _ => rfl) fun _ => ?_
    exact .inr (.inr rfl)

namespace DirectoryClient

variable (c : DirectoryClient)

theorem opens_openWithBind (bindDN bindPassword : String) :
    Opens (c.openWithBind bindDN bindPassword) := by
  have hgiveUp : ∀ error : CallProgram String, (error.Keeps callProtocol .closed fun stage _ =>
      stage = .closed) → (giveUp error).Keeps callProtocol .watched fun stage r =>
        match r with
        | .ok () => stage = .watched
        | .error _ => stage.Over := by
    intro error herror
    refine keeps_perform (fun _ => rfl) fun _ => keeps_perform (fun _ => rfl) fun _ => ?_
    exact keeps_bind.mpr (herror.imp fun _ _ hstage => .inr (.inr hstage))
  have hcheck : checkContext.Keeps callProtocol .watched fun stage r =>
      match r with
      | .ok () => stage = .watched
      | .error _ => stage.Over := by
    refine keeps_perform (fun _ => rfl) fun ended => ?_
    split
    · exact hgiveUp _ rfl
    · rfl
  intro refused
  cases refused with
  | some err => exact ⟨.refused, rfl, .inr (.inl rfl)⟩
  | none =>
    refine ⟨.dialed, rfl, ?_⟩
    refine keeps_perform (fun _ => rfl) fun _ => keeps_perform (fun _ => rfl) fun _ => ?_
    split
    · refine keeps_perform (fun _ => rfl) fun result => ?_
      split
      · exact hgiveUp _ (keeps_perform (fun _ => rfl) fun _ => rfl)
      · exact hcheck
    · exact hcheck

theorem opens_open : Opens c.open_ := c.opens_openWithBind _ _

theorem works_searchBody (query : String) : Works (c.searchBody query) := by
  refine works_bind (works_searchOn _) fun users => ?_
  split
  · exact works_return _
  · refine works_bind (works_searchOn _) fun groups => ?_
    split <;> exact works_return _

theorem works_authenticateBody (uid password : String) :
    Works (c.authenticateBody uid password) := by
  refine works_bind (works_searchOn _) fun found => ?_
  split
  · exact works_return _
  · exact works_return _
  · refine works_ask (fun _ => rfl) fun result => ?_
    split <;> exact works_return _
  · exact works_return _

theorem works_checkIdentity (attr value taken : String) :
    Works (c.checkIdentity attr value taken) := by
  refine works_bind (works_searchOn _) fun found => ?_
  split <;> exact works_return _

theorem works_checkPrimaryGroup (gidNumber : GoInt) : Works (c.checkPrimaryGroup gidNumber) := by
  refine works_bind (works_searchOn _) fun found => ?_
  split <;> exact works_return _

theorem works_createUserBody (request : UserCreateRequest) : Works (c.createUserBody request) := by
  have hensure : Works (c.ensureUserIdentityAvailable request) := by
    refine works_bind (works_checkIdentity c _ _ _) fun r => ?_
    split
    · exact works_return _
    · refine works_bind (works_checkIdentity c _ _ _) fun r => ?_
      split
      · exact works_return _
      · exact works_checkPrimaryGroup c _
  refine works_bind hensure fun r => ?_
  split
  · exact works_return _
  · refine works_ask (fun _ => rfl) fun hash => ?_
    split
    · exact works_return _
    · refine works_ask (fun _ => rfl) fun fault => ?_
      split <;> exact works_return _

theorem keeps_search (query : String) : KeepsCall (c.search query) := by
  unfold DirectoryClient.search
  split
  · exact keepsCall_return _
  · exact keepsCall_withConnection c.opens_open (c.works_searchBody query)

theorem keeps_user (uid : String) : KeepsCall (c.user uid) := by
  unfold user
  split
  · exact keepsCall_return _
  · exact keepsCall_withConnection c.opens_open
      (works_bind (works_searchOn _) fun _ => works_return _)

theorem keeps_group (name : String) : KeepsCall (c.group name) := by
  unfold group
  split
  · exact keepsCall_return _
  · exact keepsCall_withConnection c.opens_open
      (works_bind (works_searchOn _) fun _ => works_return _)

theorem keeps_authenticate (uid password : String) : KeepsCall (c.authenticate uid password) := by
  unfold DirectoryClient.authenticate
  split
  · exact keepsCall_return _
  · exact keepsCall_withConnection c.opens_open (c.works_authenticateBody uid password)

theorem keeps_createUser (request : UserCreateRequest) : KeepsCall (c.createUser request) := by
  unfold DirectoryClient.createUser
  split
  · exact keepsCall_return _
  · split
    · exact keepsCall_return _
    · exact keepsCall_withConnection (c.opens_openWithBind _ _) (c.works_createUserBody request)

end DirectoryClient

/-- A call of one of the methods, with what it returns. -/
inductive MethodCall : Type → Type 1 where
  | search (query : String) : MethodCall (Except String Directory.Page)
  | user (uid : String) : MethodCall (Except String (Option Directory.User))
  | group (name : String) : MethodCall (Except String (Option Directory.Group))
  | authenticate (uid password : String) : MethodCall (Except String Bool)
  | createUser (request : UserCreateRequest) : MethodCall (Except String Unit)

def MethodCall.program (c : DirectoryClient) : {α : Type} → MethodCall α → CallProgram α
  | _, .search query => c.search query
  | _, .user uid => c.user uid
  | _, .group name => c.group name
  | _, .authenticate uid password => c.authenticate uid password
  | _, .createUser request => c.createUser request

theorem keeps_method (c : DirectoryClient) (call : MethodCall α) : KeepsCall (call.program c) := by
  cases call with
  | search query => exact c.keeps_search query
  | user uid => exact c.keeps_user uid
  | group name => exact c.keeps_group name
  | authenticate uid password => exact c.keeps_authenticate uid password
  | createUser request => exact c.keeps_createUser request

end OpenHpcWeb.Ldap
