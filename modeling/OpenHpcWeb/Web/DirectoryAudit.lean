/-
  What the directory handlers record, ask and answer.

  The handlers run as in `Web.DirectoryServer`. The results are about every handler that has
  answered in any run, by the whole history of what it asked.

  * `directory_reads_audited`: a read records one event and answers by its outcome; it gives
    directory data only after the success is recorded, the answer of its one provider call.
  * `ldap_creation_audited`: an LDAP account is created at most once for a request, only for an
    enabled platform account with a valid request, and the redirect says how it ended.
-/
import OpenHpcWeb.Web.DirectoryServer

namespace OpenHpcWeb.Web

open OpenHpcWeb.Go OpenHpcWeb.Lib OpenHpcWeb.Ldap OpenHpcWeb.Platform
open OpenHpcWeb.Lib.Program (liftHistory ensures_bind ensures_withSlot)

/-! ## Histories -/

abbrev DirectoryHistory := SlotHistory DirectoryQuestion DirectoryAnswer

abbrev DirectoryExchange := Exchange (Slotted DirectoryQuestion) (Slotted.Answer DirectoryAnswer)

/-- Directory content that a page can show. -/
inductive DirectoryData where
  | page (page : Directory.Page)
  | user (user : Directory.User)
  | group (group : Directory.Group)

def auditOf : DirectoryExchange → Option (AuditEvent × Bool)
  | ⟨.other (.audit event), recorded⟩ => some (event, recorded)
  | _ => none

def callOf : DirectoryExchange → Option DirectoryQuestion
  | ⟨.other q, _⟩ => if toProvider q then some q else none
  | _ => none

def contentOf : DirectoryExchange → Option DirectoryData
  | ⟨.other (.search _), .ok page⟩ => some (.page page)
  | ⟨.other (.user _), .ok (some user)⟩ => some (.user user)
  | ⟨.other (.group _), .ok (some group)⟩ => some (.group group)
  | _ => none

/-- The events that were to be recorded, with whether they were. -/
def audits (h : DirectoryHistory) : List (AuditEvent × Bool) := h.filterMap auditOf

/-- The calls of the provider. -/
def calls (h : DirectoryHistory) : List DirectoryQuestion := h.filterMap callOf

/-- The content that the provider answered with. -/
def contents (h : DirectoryHistory) : List DirectoryData := h.filterMap contentOf

@[simp] theorem audits_append (h h' : DirectoryHistory) :
    audits (h ++ h') = audits h ++ audits h' := List.filterMap_append

@[simp] theorem calls_append (h h' : DirectoryHistory) :
    calls (h ++ h') = calls h ++ calls h' := List.filterMap_append

@[simp] theorem contents_append (h h' : DirectoryHistory) :
    contents (h ++ h') = contents h ++ contents h' := List.filterMap_append

/-- The directory content that a reply shows. -/
def DirectoryReply.data : DirectoryReply → Option DirectoryData
  | .page _ (.directory view) => if view.ldapAvailable then some (.page view.page) else none
  | .page _ (.user view) => if view.ldapAvailable then some (.user view.user) else none
  | .page _ (.group view) => if view.ldapAvailable then some (.group view.group) else none
  | _ => none

/-- A history with nothing of the directory in it. -/
structure Quiet (h : DirectoryHistory) : Prop where
  audits : audits h = []
  calls : calls h = []
  contents : contents h = []

theorem Quiet.nil : Quiet [] := ⟨rfl, rfl, rfl⟩

theorem Quiet.snapshot (answer : Bool) : Quiet [⟨.other .snapshot, answer⟩] := ⟨rfl, rfl, rfl⟩

variable {a : DirectoryApplication} {c : DirectoryRequest} {α : Type}

theorem ensures_page {f : Bool → DirectoryReply}
    {post : DirectoryHistory → DirectoryReply → Prop}
    (hpost : ∀ h health, Quiet h → post h (f health)) :
    (slurmHealth a >>= fun health => pure (f health) : DirectoryProgram DirectoryReply).Ensures
      post := by
  unfold slurmHealth
  split
  · intro answer
    exact hpost _ answer (.snapshot answer)
  · exact hpost [] _ .nil

/-! ## One read -/

section Read

variable {q : DirectoryQuestion} {data : α → DirectoryData}

/-- The calls of a read under a slot. -/
def readCalls (q : DirectoryQuestion) :
    Except DirectoryError (Option α) → List DirectoryQuestion
  | .error .busy => []
  | .error (.failed _) | .ok _ => [q]

/-- The content that it was answered with. -/
def readContents (data : α → DirectoryData) :
    Except DirectoryError (Option α) → List DirectoryData
  | .ok (some value) => [data value]
  | .ok none | .error _ => []

/-- The read is one call of the provider. -/
def ReadsOnce (q : DirectoryQuestion) (data : α → DirectoryData)
    (read : ProviderCall (Option α)) : Prop :=
  read.Ensures fun h r => audits (liftHistory h) = [] ∧ calls (liftHistory h) = [q] ∧
    contents (liftHistory h) = readContents data (r.mapError .failed)

theorem ensures_slot {read : ProviderCall (Option α)} (hread : ReadsOnce q data read) :
    (withDirectorySlot read).Ensures fun h r =>
      audits h = [] ∧ calls h = readCalls q r ∧ contents h = readContents data r := by
  refine ensures_bind.mpr (ensures_withSlot.mpr ⟨⟨rfl, rfl, rfl⟩, hread.imp fun h r hr => ?_⟩)
  -- the slot is taken before the call and given back after it
  have htaken : Quiet [⟨.enter, true⟩] := ⟨rfl, rfl, rfl⟩
  have hgiven : Quiet [⟨.leave, ()⟩] := ⟨rfl, rfl, rfl⟩
  have hbracket : audits (⟨.enter, true⟩ :: liftHistory h ++ [⟨.leave, ()⟩]) = [] ∧
      calls (⟨.enter, true⟩ :: liftHistory h ++ [⟨.leave, ()⟩]) = [q] ∧
      contents (⟨.enter, true⟩ :: liftHistory h ++ [⟨.leave, ()⟩]) =
        readContents data (r.mapError .failed) := by
    rw [← List.singleton_append, audits_append, audits_append, calls_append, calls_append,
      contents_append, contents_append, htaken.audits, htaken.calls, htaken.contents,
      hgiven.audits, hgiven.calls, hgiven.contents, hr.1, hr.2.1, hr.2.2]
    exact ⟨rfl, rfl, by simp⟩
  cases r with
  | error err => simpa [readCalls, readContents, Except.mapError] using hbracket
  | ok value =>
    cases value with
    | none => simpa [readCalls, readContents, Except.mapError] using hbracket
    | some value => simpa [readCalls, readContents, Except.mapError] using hbracket

/-! ## What a read answers -/

/-- The answer of a read by the outcome that it recorded. -/
inductive ReadReply (q : Option DirectoryQuestion) (h : DirectoryHistory) (reply : DirectoryReply) :
    String → Bool → Prop
  | unrecorded {outcome : String} : reply = .httpError 503 → ReadReply q h reply outcome false
  | invalid : q = none → reply = .httpError 400 → ReadReply q h reply "denied" true
  | missing : calls h = q.toList → contents h = [] → reply = .httpError 404 →
      ReadReply q h reply "denied" true
  | limited : calls h = [] → reply = .httpError 429 → ReadReply q h reply "rate_limited" true
  | unavailable {view : DirectoryPage} : contents h = [] → reply = .page 200 view →
      reply.data = none → ReadReply q h reply "unavailable" true
  | success {view : DirectoryPage} {content : DirectoryData} : calls h = q.toList →
      contents h = [content] → reply = .page 200 view → reply.data = some content →
      ReadReply q h reply "success" true

/-- What a read has done when it answers: it recorded one event, and asked the provider at most
    once, for what its request names (`q`; an invalid request names nothing). -/
def ReadAudited (c : DirectoryRequest) (action : String) (q : Option DirectoryQuestion)
    (h : DirectoryHistory) (reply : DirectoryReply) : Prop :=
  ∃ outcome recorded, audits h = [(⟨c.principal.username, action, outcome, c.now⟩, recorded)] ∧
    (calls h = [] ∨ calls h = q.toList) ∧ ReadReply q h reply outcome recorded

theorem ensures_refuse {action outcome : String} {status : Nat}
    {post : DirectoryHistory → DirectoryReply → Prop}
    (hpost : ∀ recorded : Bool, post
      [⟨.other (.audit ⟨c.principal.username, action, outcome, c.now⟩), recorded⟩]
      (if recorded then .httpError status else .httpError 503)) :
    (refuse c action outcome status).Ensures post := by
  intro recorded
  have h := hpost recorded
  cases recorded with
  | true => exact h
  | false => exact h

/-- A page shows the value that it is rendered with, or nothing. -/
def Shows (data : α → DirectoryData) (render : α → Bool → DirectoryProgram DirectoryReply) : Prop :=
  ∀ value available, (render value available).Ensures fun h reply =>
    Quiet h ∧ (∃ view, reply = .page 200 view) ∧
      reply.data = if available then some (data value) else none

/-- A branch that records and then shows a page, after the history `h`. -/
theorem ensures_show {render : α → Bool → DirectoryProgram DirectoryReply}
    (hrender : Shows data render) {action outcome : String} {value : α} {available : Bool}
    {h : DirectoryHistory} (haudits : audits h = []) (hcalls : calls h = [] ∨ calls h = [q])
    (hreply : ∀ h' reply view, calls h' = calls h → contents h' = contents h →
      reply = .page 200 view → reply.data = (if available then some (data value) else none) →
      ReadReply (some q) h' reply outcome true) :
    (recordDirectoryAudit c action outcome >>= fun recorded =>
      if recorded then render value available else pure (.httpError 503) :
      DirectoryProgram DirectoryReply).Ensures
      fun h' reply => ReadAudited c action (some q) (h ++ h') reply := by
  intro recorded
  cases recorded with
  | false =>
    refine ⟨outcome, false, ?_, ?_, .unrecorded rfl⟩
    · rw [audits_append, haudits]
      rfl
    · rw [calls_append]
      simpa [calls, callOf, toProvider] using hcalls
  | true =>
    refine (hrender value available).imp fun h' reply hpage => ?_
    obtain ⟨hquiet, ⟨view, hview⟩, hdata⟩ := hpage
    have hsplit : ∀ x : DirectoryExchange, h ++ x :: h' = h ++ ([x] ++ h') := fun _ => rfl
    have hcalls' : calls (h ++ ⟨.other (.audit ⟨c.principal.username, action, outcome, c.now⟩),
        true⟩ :: h') = calls h := by
      rw [hsplit, calls_append, calls_append, hquiet.calls]
      exact List.append_nil _
    have hcontents' : contents (h ++ ⟨.other
        (.audit ⟨c.principal.username, action, outcome, c.now⟩), true⟩ :: h') = contents h := by
      rw [hsplit, contents_append, contents_append, hquiet.contents]
      exact List.append_nil _
    refine ⟨outcome, true, ?_, ?_, hreply _ reply view hcalls' hcontents' hview hdata⟩
    · rw [hsplit, audits_append, audits_append, haudits, hquiet.audits]
      rfl
    · rw [hcalls']
      exact hcalls

/-- A branch that records and refuses, after the history `h`. -/
theorem ensures_refused {q : Option DirectoryQuestion} {action outcome : String} {status : Nat}
    {h : DirectoryHistory} (haudits : audits h = []) (hcalls : calls h = [] ∨ calls h = q.toList)
    (hreply : ∀ h', calls h' = calls h → contents h' = contents h →
      ReadReply q h' (.httpError status) outcome true) :
    (refuse c action outcome status).Ensures fun h' reply =>
      ReadAudited c action q (h ++ h') reply := by
  refine ensures_refuse fun recorded => ⟨outcome, recorded, ?_, ?_, ?_⟩
  · rw [audits_append, haudits]
    rfl
  · rw [calls_append]
    simpa [calls, callOf, toProvider] using hcalls
  · cases recorded with
    | false => exact .unrecorded rfl
    | true =>
      apply hreply
      · rw [calls_append]
        exact List.append_nil _
      · rw [contents_append]
        exact List.append_nil _

theorem readDirectory_audited {action : String} {read : ProviderCall (Option α)} {zero : α}
    {render : α → Bool → DirectoryProgram DirectoryReply} (hread : ReadsOnce q data read)
    (hrender : Shows data render) :
    (readDirectory a c action read zero render).Ensures (ReadAudited c action (some q)) := by
  unfold readDirectory
  split
  · -- no directory is configured
    refine ensures_show (h := []) hrender rfl (.inl rfl)
      fun h' reply view _ hcontents hview hdata => ?_
    exact .unavailable hcontents hview hdata
  · refine ensures_bind.mpr ((ensures_slot hread).imp fun h r hr => ?_)
    obtain ⟨haudits, hcalls, hcontents⟩ := hr
    split
    · refine ensures_refused haudits (.inl hcalls) fun h' hcalls' _ => ?_
      exact .limited (hcalls'.trans hcalls) rfl
    · refine ensures_show hrender haudits (.inr hcalls)
        fun h' reply view _ hcontents' hview hdata => ?_
      exact .unavailable (hcontents'.trans hcontents) hview hdata
    · refine ensures_refused haudits (.inr hcalls) fun h' hcalls' hcontents' => ?_
      exact .missing (hcalls'.trans hcalls) (hcontents'.trans hcontents) rfl
    · refine ensures_show hrender haudits (.inr hcalls)
        fun h' reply view hcalls' hcontents' hview hdata => ?_
      exact .success (hcalls'.trans hcalls) (hcontents'.trans hcontents) hview hdata

end Read

/-! ## The reads -/

/-- The action that a read records. -/
def readAction : DirectoryRoute → Option String
  | .ldapDirectory | .ldapDirectorySearch => some "ldap.search"
  | .ldapUser => some "ldap.user.read"
  | .ldapGroup => some "ldap.group.read"
  | .testLDAPConnectivity | .platformUsersPage | .createLinkedLDAPUser => none

/-- What the request of a read asks the directory for, if it is valid. -/
def readQuestion (c : DirectoryRequest) : DirectoryRoute → Option DirectoryQuestion
  | .ldapDirectory => if c.queryParam "q" = "" then some (.search "") else none
  | .ldapDirectorySearch =>
    (normalizeDirectoryQuery (c.formValue "q")).toOption.map DirectoryQuestion.search
  | .ldapUser => (decodeDirectoryKey c.param).toOption.map DirectoryQuestion.user
  | .ldapGroup => (decodeDirectoryKey c.param).toOption.map DirectoryQuestion.group
  | .testLDAPConnectivity | .platformUsersPage | .createLinkedLDAPUser => none

theorem shows_directory (query : String) :
    Shows DirectoryData.page (renderLDAPDirectory a c query) := fun _ _ =>
  ensures_page fun _ _ hquiet => ⟨hquiet, ⟨_, rfl⟩, rfl⟩

theorem shows_user : Shows DirectoryData.user (renderLDAPUser a c) := fun _ _ =>
  ensures_page fun _ _ hquiet => ⟨hquiet, ⟨_, rfl⟩, rfl⟩

theorem shows_group : Shows DirectoryData.group (renderLDAPGroup a c) := fun _ _ =>
  ensures_page fun _ _ hquiet => ⟨hquiet, ⟨_, rfl⟩, rfl⟩

theorem search_reads (query : String) :
    ReadsOnce (.search query) DirectoryData.page (searchCall query) := by
  intro r
  cases r <;> exact ⟨rfl, rfl, rfl⟩

theorem user_reads (uid : String) :
    ReadsOnce (.user uid) DirectoryData.user (call (.user uid)) := by
  intro r
  rcases r with err | _ | user <;> exact ⟨rfl, rfl, rfl⟩

theorem group_reads (name : String) :
    ReadsOnce (.group name) DirectoryData.group (call (.group name)) := by
  intro r
  rcases r with err | _ | group <;> exact ⟨rfl, rfl, rfl⟩

theorem refused_invalid (action : String) :
    (refuse c action "denied" 400).Ensures (ReadAudited c action none) :=
  ensures_refused (h := []) rfl (.inl rfl) fun _ _ _ => .invalid rfl rfl

theorem read_ensures {route : DirectoryRoute} {action : String}
    (haction : readAction route = some action) :
    (handler a c route).Ensures (ReadAudited c action (readQuestion c route)) := by
  cases route with
  | ldapDirectory =>
    cases haction
    simp only [handler, ldapDirectory, readQuestion]
    by_cases hq : c.queryParam "q" = ""
    · rw [if_neg (not_not.mpr hq), if_pos hq]
      exact readDirectory_audited (search_reads "") (shows_directory "")
    · rw [if_pos hq, if_neg hq]
      exact refused_invalid _
  | ldapDirectorySearch =>
    cases haction
    simp only [handler, ldapDirectorySearch, readQuestion]
    cases normalizeDirectoryQuery (c.formValue "q") with
    | error err => exact refused_invalid _
    | ok query => exact readDirectory_audited (search_reads query) (shows_directory query)
  | ldapUser =>
    cases haction
    simp only [handler, ldapUser, readQuestion]
    cases decodeDirectoryKey c.param with
    | error err => exact refused_invalid _
    | ok uid => exact readDirectory_audited (user_reads uid) shows_user
  | ldapGroup =>
    cases haction
    simp only [handler, ldapGroup, readQuestion]
    cases decodeDirectoryKey c.param with
    | error err => exact refused_invalid _
    | ok name => exact readDirectory_audited (group_reads name) shows_group
  | testLDAPConnectivity => cases haction
  | platformUsersPage => cases haction
  | createLinkedLDAPUser => cases haction

/-- In every run of the directory handlers, every read of the directory that has answered: it
    attempted one audit record, asked the provider at most once and only for what the request
    names; without the record it answered 503; directory content is in the answer exactly when
    a success was recorded, and is then what the provider answered. -/
theorem directory_reads_audited (a : DirectoryApplication) {acts : List DirectoryAction}
    {s : Pool DirectoryHandler}
    (hrun : Run (directoryStep a) (fun _ _ => True) Pool.empty acts s)
    {h : DirectoryHandler} (hh : h ∈ s.parties) {action : String}
    (haction : readAction h.request.1 = some action) {reply : DirectoryReply}
    (hreply : h.result = some reply) :
    ReadAudited h.request.2 action (readQuestion h.request.2 h.request.1) h.history reply :=
  ((directory_reachable hrun).parties h hh).ensures (read_ensures haction) hreply

/-- The handler of a search that has run alone to its end. -/
def searchedActs : List DirectoryAction :=
  .join (.ldapDirectory, directoryRequest) :: List.replicate 5 (.move 0 directoryAnswers)

theorem searchedActs_run :
    (exec (directoryStep directoryApplication) (fun _ _ => true) Pool.empty
      searchedActs).isSome := by
  decide +kernel

theorem searched_parties : (((exec (directoryStep directoryApplication) (fun _ _ => true) Pool.empty
    searchedActs).get searchedActs_run).parties) ≠ [] := by
  decide +kernel

def searchedHandler : DirectoryHandler :=
  ((exec (directoryStep directoryApplication) (fun _ _ => true) Pool.empty searchedActs).get
    searchedActs_run).parties.head searched_parties

theorem searchedHandler_answered : searchedHandler.result.isSome := by
  decide +kernel

theorem directory_reads_audited_search :
    ReadAudited directoryRequest "ldap.search" (some (.search "")) searchedHandler.history
      (searchedHandler.result.get searchedHandler_answered) :=
  directory_reads_audited directoryApplication
    ((run_exec_get searchedActs_run).mono fun _ _ _ => trivial)
    (List.head_mem searched_parties) rfl (Option.some_get _).symm

/-! ## The creation of accounts -/

/-- The request may go to the directory: accounts can be created, the form is valid, and the
    platform account was found enabled. -/
def MayCreate (a : DirectoryApplication) (c : DirectoryRequest) (h : DirectoryHistory)
    (request : UserCreateRequest) : Prop :=
  ldapUserProvisioningAvailable a.directoryProvider = true ∧
    userCreateRequest c = some request ∧ validateUserCreateRequest request = .ok () ∧
    ∃ user : PlatformUser, user.enabled = true ∧
      ⟨.other (.platformUser request.uid), .ok (some user)⟩ ∈ h

/-- How the creation of an account ends, by the outcome that it tried to record. -/
inductive CreateReply (a : DirectoryApplication) (c : DirectoryRequest) (h : DirectoryHistory) :
    String → String → Prop
  | unavailable : ldapUserProvisioningAvailable a.directoryProvider = false → calls h = [] →
      CreateReply a c h "unavailable" "ldap-unavailable"
  | invalid : (∀ request ∈ userCreateRequest c, validateUserCreateRequest request ≠ .ok ()) →
      calls h = [] → CreateReply a c h "invalid_request" "ldap-invalid"
  | denied : calls h = [] → CreateReply a c h "denied" "ldap-invalid"
  | busy {request : UserCreateRequest} : MayCreate a c h request → calls h = [] →
      CreateReply a c h "failure" "ldap-error"
  | failed {request : UserCreateRequest} {err : String} : MayCreate a c h request →
      calls h = [.createUser request] → ⟨.other (.createUser request), .error err⟩ ∈ h →
      CreateReply a c h "failure" "ldap-error"
  | created {request : UserCreateRequest} : MayCreate a c h request →
      calls h = [.createUser request] → ⟨.other (.createUser request), .ok ()⟩ ∈ h →
      CreateReply a c h "success" "ldap-created"

/-- What the creation has done when it answers: one attempt to record the outcome, on which the
    answer does not wait. -/
def CreateAudited (a : DirectoryApplication) (c : DirectoryRequest) (h : DirectoryHistory)
    (reply : DirectoryReply) : Prop :=
  ∃ outcome result recorded,
    audits h = [(⟨c.principal.username, "ldap.user.create", outcome, c.now⟩, recorded)] ∧
    reply = redirectPlatformUsers result ∧ CreateReply a c h outcome result

/-- The end of a branch, after the history `h`. -/
theorem ensures_endCreate {outcome result : String} {h : DirectoryHistory} (haudits : audits h = [])
    (hreply : ∀ h', h <+: h' → calls h' = calls h → CreateReply a c h' outcome result) :
    (endLDAPUserCreate c outcome result).Ensures fun h' reply =>
      CreateAudited a c (h ++ h') reply := by
  intro recorded
  refine ⟨outcome, result, recorded, ?_, rfl, hreply _ (List.prefix_append _ _) ?_⟩
  · rw [audits_append, haudits]
    rfl
  · rw [calls_append]
    exact List.append_nil _

theorem MayCreate.mono {h h' : DirectoryHistory} {request : UserCreateRequest}
    (hmay : MayCreate a c h request) (hgrown : h <+: h') : MayCreate a c h' request := by
  obtain ⟨havailable, hform, hvalid, user, henabled, hmem⟩ := hmay
  exact ⟨havailable, hform, hvalid, user, henabled, hgrown.subset hmem⟩

/-- The creation under a slot: the call, if a slot was free. -/
theorem ensures_createUser (request : UserCreateRequest) :
    (withDirectorySlot (call (.createUser request))).Ensures fun h r =>
      audits h = [] ∧
        match r with
        | .error .busy => calls h = []
        | .error (.failed err) => calls h = [.createUser request] ∧
            ⟨.other (.createUser request), .error err⟩ ∈ h
        | .ok () => calls h = [.createUser request] ∧
            ⟨.other (.createUser request), .ok ()⟩ ∈ h := by
  refine ensures_bind.mpr (ensures_withSlot.mpr ⟨⟨rfl, rfl⟩, fun r => ?_⟩)
  cases r with
  | error err => exact ⟨rfl, rfl, .tail _ (.head _)⟩
  | ok u => exact ⟨rfl, rfl, .tail _ (.head _)⟩

theorem create_ensures : (createLinkedLDAPUser a c).Ensures (CreateAudited a c) := by
  have hend : ∀ {outcome result : String},
      (∀ h', calls h' = [] → CreateReply a c h' outcome result) →
      (endLDAPUserCreate c outcome result).Ensures (CreateAudited a c) :=
    fun hreply => ensures_endCreate (h := []) rfl fun h' _ hcalls => hreply h' hcalls
  unfold createLinkedLDAPUser
  split
  · next havailable =>
    exact hend fun h' hcalls => .unavailable (by simpa using havailable) hcalls
  next havailable =>
  split
  · next hform =>
    refine hend fun h' hcalls => .invalid (fun request hrequest => ?_) hcalls
    rw [hform] at hrequest
    cases hrequest
  next request hform =>
  split
  · next err hinvalid =>
    refine hend fun h' hcalls => .invalid (fun request' hrequest => ?_) hcalls
    obtain rfl : request' = request := by simpa [hform] using hrequest.symm
    rw [hinvalid]
    exact fun hok => nomatch hok
  next hvalid =>
  intro found
  -- the account of the platform has been read
  have hdenied : (endLDAPUserCreate c "denied" "ldap-invalid").Ensures fun h reply =>
      CreateAudited a c (⟨.other (.platformUser request.uid), found⟩ :: h) reply :=
    ensures_endCreate (h := [⟨.other (.platformUser request.uid), found⟩]) rfl
      fun h' _ hcalls => .denied hcalls
  rcases found with err | _ | user
  · exact hdenied
  · exact hdenied
  · simp only [Program.bind]
    split
    · exact hdenied
    next henabled =>
    have hmay : MayCreate a c [⟨.other (.platformUser request.uid), .ok (some user)⟩] request :=
      ⟨by simpa using havailable, hform, hvalid, user, by simpa using henabled, .head _⟩
    refine ensures_bind.mpr ((ensures_createUser request).imp fun h r hr => ?_)
    obtain ⟨haudits, hcalls⟩ := hr
    have hbefore : [⟨.other (.platformUser request.uid), .ok (some user)⟩] <+:
        (⟨.other (.platformUser request.uid), .ok (some user)⟩ :: h : DirectoryHistory) :=
      ⟨h, rfl⟩
    split
    · next err =>
      refine ensures_endCreate (h := ⟨.other (.platformUser request.uid), .ok (some user)⟩ :: h)
        haudits fun h' hgrown hcalls' => ?_
      cases err with
      | busy => exact .busy (hmay.mono (hbefore.trans hgrown)) (hcalls'.trans hcalls)
      | failed err =>
        exact .failed (hmay.mono (hbefore.trans hgrown)) (hcalls'.trans hcalls.1)
          (hgrown.subset (.tail _ hcalls.2))
    · refine ensures_endCreate (h := ⟨.other (.platformUser request.uid), .ok (some user)⟩ :: h)
        haudits fun h' hgrown hcalls' => ?_
      exact .created (hmay.mono (hbefore.trans hgrown)) (hcalls'.trans hcalls.1)
        (hgrown.subset (.tail _ hcalls.2))

/-- In every run of the directory handlers, every creation of an LDAP account that has answered:
    it attempted one audit record and the redirect carries the same outcome; the directory was
    asked to create at most one account, the one of a valid form whose platform account was found
    enabled, and the redirect says that it was created exactly when the directory did so. -/
theorem ldap_creation_audited (a : DirectoryApplication) {acts : List DirectoryAction}
    {s : Pool DirectoryHandler}
    (hrun : Run (directoryStep a) (fun _ _ => True) Pool.empty acts s)
    {h : DirectoryHandler} (hh : h ∈ s.parties) (hroute : h.request.1 = .createLinkedLDAPUser)
    {reply : DirectoryReply} (hreply : h.result = some reply) :
    CreateAudited a h.request.2 h.history reply := by
  refine ((directory_reachable hrun).parties h hh).ensures ?_ hreply
  show (handler a h.request.2 h.request.1).Ensures _
  rw [hroute]
  exact create_ensures

/-- The handler of a creation that has run alone to its end. -/
def createdActs : List DirectoryAction :=
  .join (.createLinkedLDAPUser, directoryRequest) :: List.replicate 5 (.move 0 directoryAnswers)

theorem createdActs_run :
    (exec (directoryStep directoryApplication) (fun _ _ => true) Pool.empty
      createdActs).isSome := by
  decide +kernel

theorem created_parties : (((exec (directoryStep directoryApplication) (fun _ _ => true) Pool.empty
    createdActs).get createdActs_run).parties) ≠ [] := by
  decide +kernel

def createdHandler : DirectoryHandler :=
  ((exec (directoryStep directoryApplication) (fun _ _ => true) Pool.empty createdActs).get
    createdActs_run).parties.head created_parties

theorem createdHandler_answered : createdHandler.result.isSome := by
  decide +kernel

theorem ldap_creation_audited_alice :
    (calls createdHandler.history).length = 1 ∧
      CreateAudited directoryApplication directoryRequest createdHandler.history
        (createdHandler.result.get createdHandler_answered) :=
  ⟨by decide +kernel,
    ldap_creation_audited directoryApplication
      ((run_exec_get createdActs_run).mono fun _ _ _ => trivial)
      (List.head_mem created_parties) rfl (Option.some_get _).symm⟩

end OpenHpcWeb.Web
