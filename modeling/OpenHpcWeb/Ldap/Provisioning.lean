/-
  Account creation: `ValidateUserCreateRequest` of internal/directory/directory.go and
  `CreateUser` of internal/ldapdirectory/client.go, one call alone and any number of calls at
  the same time.

  A call sends one message after the other to the server: three searches and an add. Between
  them other calls send theirs. The password hash is an outcome the call brings
  (`sshaPassword`). `ldap.EscapeDN` is a parameter.

  History, which neither side holds: the accounts added since the search of a call for its
  uidNumber.

  * `create_alone`: the steps of one call, taken without pause, are `CreateUser`.
  * `uidNumbers_distinct_iff`: a run keeps the uidNumbers distinct exactly when each account is
    added while no account outside the user base has its number and none with its number
    has been added since the call's search.
-/
import Mathlib.Logic.Function.Basic
import OpenHpcWeb.Go.Path
import OpenHpcWeb.Go.Strconv
import OpenHpcWeb.Ldap.Client
import OpenHpcWeb.Lib.CheckThenAdd
import OpenHpcWeb.Lib.Run

namespace OpenHpcWeb.Ldap

open OpenHpcWeb.Go OpenHpcWeb.Lib OpenHpcWeb.Lib.Ldap OpenHpcWeb.Lib.CheckThenAdd

/-! ## Requests -/

structure UserCreateRequest where
  uid : String
  uidNumber : GoInt
  gidNumber : GoInt
  homeDirectory : String
  loginShell : String
  password : String

def validPOSIXUsername (value : String) : Bool :=
  byteLen value ≠ 0 && byteLen value ≤ 64 &&
    value.toList.all (fun c => ('a' ≤ c && c ≤ 'z') || ('A' ≤ c && c ≤ 'Z') ||
      ('0' ≤ c && c ≤ '9') || c = '.' || c = '_' || c = '-') &&
    value ≠ "." && value ≠ ".."

def validAbsolutePath (value : String) : Bool :=
  1 < byteLen value && byteLen value ≤ 1024 && isAbs value && cleanPath value = value

def validPOSIXID (n : GoInt) : Bool := 1000 ≤ n.val && n.val ≤ 2147483647

def validateUserCreateRequest (r : UserCreateRequest) : Except String Unit :=
  if ¬ validPOSIXUsername r.uid then .error "LDAP username is invalid"
  else if ¬ validPOSIXID r.uidNumber ∨ ¬ validPOSIXID r.gidNumber then
    .error "LDAP UID or GID is invalid"
  else if ¬ validAbsolutePath r.homeDirectory ∨ ¬ validAbsolutePath r.loginShell then
    .error "LDAP home directory or shell is invalid"
  else if byteLen r.password < 12 ∨ 72 < byteLen r.password then .error "LDAP password is invalid"
  else .ok ()

/-! ## The client -/

structure ProvisionConfig extends Config where
  /-- the scheme of the URL, if `url.Parse` reads it -/
  scheme : Option String
  allowInsecure : Bool
  provisionBindDN : String
  provisionBindPassword : String

/-- The client with the server it talks to. -/
structure Provisioning where
  schema : Schema
  config : ProvisionConfig
  escapeDN : String → String

/-- One call of `CreateUser`: its request, and what it meets. -/
structure CreateCall where
  request : UserCreateRequest
  /-- the connection at the opening and at each of the three searches -/
  atOpen : Connection
  atUid : Connection
  atNumber : Connection
  atGroup : Connection
  /-- the hash of the password, or no random salt -/
  sshaPassword : Option String
  addFault : Option String

variable (P : Provisioning)

def userProvisioningSupported : Bool :=
  P.config.scheme = some "ldaps" || (P.config.scheme = some "ldap" && P.config.allowInsecure)

def userProvisioningAvailable : Bool :=
  userProvisioningSupported P && P.config.provisionBindDN ≠ "" &&
    P.config.provisionBindPassword ≠ ""

/-- A check of `ensureUserIdentityAvailable`: nothing is found. -/
def searchIdentity (directory : List Entry) (c : Connection) (attr value taken : String) :
    Except String Unit :=
  match c.search P.schema directory ⟨P.config.userBaseDN, accountFilter attr value, 2⟩ with
  | .error err => .error ("verify LDAP user identity: " ++ err)
  | .ok (entries, more) => if more ∨ entries.length ≠ 0 then .error taken else .ok ()

def searchUid (call : CreateCall) (directory : List Entry) : Except String Unit :=
  searchIdentity P directory call.atUid "uid" call.request.uid "LDAP username already exists"

def searchNumber (call : CreateCall) (directory : List Entry) : Except String Unit :=
  searchIdentity P directory call.atNumber "uidNumber" (formatInt call.request.uidNumber)
    "LDAP UID already exists"

/-- The last check: the primary group is there once. -/
def searchGroup (call : CreateCall) (directory : List Entry) : Except String Unit :=
  match call.atGroup.search P.schema directory ⟨P.config.groupBaseDN,
      .both (.equals "objectClass" "posixGroup")
        (.equals "gidNumber" (formatInt call.request.gidNumber)), 2⟩ with
  | .error err => .error ("verify LDAP primary group: " ++ err)
  | .ok (entries, more) =>
    if more ∨ entries.length ≠ 1 then
      .error "LDAP primary group does not exist or is not unique"
    else .ok ()

/-- The account of an add. -/
def newAccount (r : UserCreateRequest) (password : String) : Entry where
  dn := "uid=" ++ P.escapeDN r.uid ++ "," ++ P.config.userBaseDN
  attributes := [("objectClass", ["top", "posixAccount", "inetOrgPerson"]), ("uid", [r.uid]),
    ("cn", [r.uid]), ("sn", [r.uid]), ("uidNumber", [formatInt r.uidNumber]),
    ("gidNumber", [formatInt r.gidNumber]), ("homeDirectory", [r.homeDirectory]),
    ("loginShell", [r.loginShell]), ("userPassword", [password])]

/-- `CreateUser` up to its first search. -/
def openProvisioning (call : CreateCall) : Except String Unit := do
  validateUserCreateRequest call.request
  if ¬ userProvisioningAvailable P then .error "LDAP user provisioning is unavailable"
  else
    match call.atOpen.openFault with
    | some err => .error err
    | none => .ok ()

/-- `CreateUser` after its last search, with the directory it leaves. -/
def addAccount (call : CreateCall) (directory : List Entry) : Except String Unit × List Entry :=
  match call.sshaPassword with
  | none => (.error "generate LDAP password hash", directory)
  | some password =>
    match call.addFault with
    | some err => (.error ("create LDAP user: " ++ err), directory)
    | none =>
      match add P.schema directory (newAccount P call.request password) with
      | none => (.error "create LDAP user: LDAP Result Code 68", directory)
      | some directory' => (.ok (), directory')

def createUser (call : CreateCall) (directory : List Entry) : Except String Unit × List Entry :=
  match openProvisioning P call with
  | .error err => (.error err, directory)
  | .ok () =>
    match searchUid P call directory with
    | .error err => (.error err, directory)
    | .ok () =>
      match searchNumber P call directory with
      | .error err => (.error err, directory)
      | .ok () =>
        match searchGroup P call directory with
        | .error err => (.error err, directory)
        | .ok () => addAccount P call directory

/-! ## Steps -/

/-- Where a call stands: which message it sends next. -/
inductive CreatePc where
  | start
  | toSearchUid
  | toSearchNumber
  | toSearchGroup
  | toAdd
  | finished (result : Except String Unit)

/-- To the next message, or to the end of the call. -/
def CreatePc.next (pc : CreatePc) : Except String Unit → CreatePc
  | .ok () => pc
  | .error err => .finished (.error err)

def advanceCreate (call : CreateCall) (directory : List Entry) :
    CreatePc → Option (CreatePc × List Entry)
  | .start => some (CreatePc.next .toSearchUid (openProvisioning P call), directory)
  | .toSearchUid => some (CreatePc.next .toSearchNumber (searchUid P call directory), directory)
  | .toSearchNumber => some (CreatePc.next .toSearchGroup (searchNumber P call directory), directory)
  | .toSearchGroup => some (CreatePc.next .toAdd (searchGroup P call directory), directory)
  | .toAdd => some (.finished (addAccount P call directory).1, (addAccount P call directory).2)
  | .finished _ => none

/-- The steps of a call without pause. -/
def finishCreate (call : CreateCall) : Nat → CreatePc × List Entry → CreatePc × List Entry
  | 0, at_ => at_
  | n + 1, at_ =>
    match advanceCreate P call at_.2 at_.1 with
    | none => at_
    | some next => finishCreate call n next

/-- A call that nobody interrupts is `CreateUser`. -/
theorem create_alone (call : CreateCall) (directory : List Entry) :
    finishCreate P call 5 (.start, directory) =
      (.finished (createUser P call directory).1, (createUser P call directory).2) := by
  unfold createUser
  cases hopen : openProvisioning P call with
  | error err => simp [finishCreate, advanceCreate, hopen, CreatePc.next]
  | ok u =>
    cases huid : searchUid P call directory with
    | error err => simp [finishCreate, advanceCreate, hopen, huid, CreatePc.next]
    | ok u =>
      cases hnumber : searchNumber P call directory with
      | error err => simp [finishCreate, advanceCreate, hopen, huid, hnumber, CreatePc.next]
      | ok u =>
        cases hgroup : searchGroup P call directory with
        | error err =>
          simp [finishCreate, advanceCreate, hopen, huid, hnumber, hgroup, CreatePc.next]
        | ok u => simp [finishCreate, advanceCreate, hopen, huid, hnumber, hgroup, CreatePc.next]

/-! ## Concurrent calls -/

variable {I : Type}

structure ProvisionState (I : Type) where
  directory : List Entry
  pc : I → CreatePc
  /-- history: the accounts added since the call's search for its uidNumber, once it made it -/
  later : I → Option (List Entry)

def ProvisionState.start (directory : List Entry) : ProvisionState I :=
  ⟨directory, fun _ => .start, fun _ => none⟩

section Step

variable [DecidableEq I] (calls : I → CreateCall)

def ProvisionState.after (s : ProvisionState I) (i : I) (pc : CreatePc) (directory : List Entry) :
    ProvisionState I where
  directory := directory
  pc := Function.update s.pc i pc
  later :=
    match pc with
    | .toSearchGroup => Function.update s.later i (some [])
    | _ => fun i' => (s.later i').map fun added => added ++ directory.drop s.directory.length

/-- The next step of the call `i`. -/
def provisionStep (s : ProvisionState I) (i : I) : Option (ProvisionState I) :=
  (advanceCreate P (calls i) s.directory (s.pc i)).map fun next => s.after i next.1 next.2

end Step

/-! ## uidNumbers -/

/-- Two accounts of one uidNumber, as the server compares. -/
def SameNumber (S : Schema) (x y : Entry) : Prop :=
  x.has S "objectClass" "posixAccount" = true ∧ y.has S "objectClass" "posixAccount" = true ∧
    ∃ number, x.has S "uidNumber" number = true ∧ y.has S "uidNumber" number = true

/-- No two accounts of the directory have the same uidNumber. -/
def DistinctNumbers (S : Schema) (directory : List Entry) : Prop := Clean (SameNumber S) directory

/-- The account a call adds. -/
def CreateCall.account (call : CreateCall) : Entry :=
  newAccount P call.request (call.sshaPassword.getD "")

/-- The client has a password hash, and the server takes the add. -/
def CreateCall.Accepted (call : CreateCall) (directory : List Entry) : Prop :=
  call.sshaPassword.isSome ∧ call.addFault = none ∧
    ∀ x ∈ directory, P.schema.name x.dn ≠ P.schema.name (call.account P).dn

/-- An account is added while no account outside the user base has its uidNumber, and none with
    its uidNumber has been added since the call's search for it. An add that fails adds none. -/
def NumberFree (calls : I → CreateCall) (s : ProvisionState I) (i : I) : Prop :=
  s.pc i = .toAdd → (calls i).Accepted P s.directory →
    (∀ x ∈ s.directory, under P.schema P.config.userBaseDN x.dn = false →
      ¬ SameNumber P.schema x ((calls i).account P)) ∧
    ∀ added, s.later i = some added → ∀ x ∈ added,
      ¬ SameNumber P.schema x ((calls i).account P)

/-- The directory as a table to which calls add after their check. -/
def ProvisionState.table (s : ProvisionState I) : Table I Entry := ⟨s.directory, s.later⟩

variable {P} {calls : I → CreateCall} {s s' : ProvisionState I} {i : I} {x : Entry}

theorem sameNumber_account_iff {call : CreateCall} : SameNumber P.schema x (call.account P) ↔
    x.has P.schema "objectClass" "posixAccount" = true ∧
      x.has P.schema "uidNumber" (formatInt call.request.uidNumber) = true := by
  have hclass : (call.account P).has P.schema "objectClass" "posixAccount" = true := by
    simp [CreateCall.account, newAccount, has_iff, Entry.values]
  have hnumber : ∀ number, (call.account P).has P.schema "uidNumber" number = true ↔
      P.schema.normal "uidNumber" (formatInt call.request.uidNumber) =
        P.schema.normal "uidNumber" number := by
    intro number
    simp [CreateCall.account, newAccount, has_iff, Entry.values]
  simp only [SameNumber, hclass, hnumber, true_and, and_congr_right_iff]
  intro _
  constructor
  · rintro ⟨number, hx, heq⟩
    obtain ⟨v, hv, hvnumber⟩ := has_iff.mp hx
    exact has_iff.mpr ⟨v, hv, hvnumber.trans heq.symm⟩
  · intro hx
    exact ⟨_, hx, rfl⟩

/-- A search of `ensureUserIdentityAvailable` that lets the call go on has found nothing. -/
theorem searchIdentity_ok {directory : List Entry} {c : Connection} {attr value taken : String}
    (h : searchIdentity P directory c attr value taken = .ok ()) :
    found P.schema directory ⟨P.config.userBaseDN, accountFilter attr value, 2⟩ = [] := by
  unfold searchIdentity at h
  split at h
  · cases h
  · next entries more hsearch =>
    split at h
    · cases h
    · next hnone =>
      simp only [not_or, Bool.not_eq_true, ne_eq, not_not, List.length_eq_zero_iff] at hnone
      obtain ⟨hmore, rfl⟩ := hnone
      obtain ⟨hall, herr⟩ := (boundedSearch_eq_ok hsearch).2 hmore
      exact (respond_of_no_error herr).symm.trans hall.symm

theorem searchNumber_ok {call : CreateCall} {directory : List Entry}
    (h : searchNumber P call directory = .ok ()) (hx : x ∈ directory)
    (hunder : under P.schema P.config.userBaseDN x.dn = true) :
    ¬ SameNumber P.schema x (call.account P) := by
  intro hsame
  obtain ⟨hclass, hnumber⟩ := sameNumber_account_iff.mp hsame
  have hmem : x ∈ found P.schema directory ⟨P.config.userBaseDN,
      accountFilter "uidNumber" (formatInt call.request.uidNumber), 2⟩ := by
    refine mem_found_iff.mpr ⟨hx, by simpa [under] using hunder, ?_⟩
    simp [accountFilter, Filter.holds, hclass, hnumber]
  rw [searchIdentity_ok h] at hmem
  cases hmem

/-- The last step of `CreateUser` adds the account, or leaves the directory as it is. -/
theorem addAccount_cases (call : CreateCall) (directory : List Entry) :
    call.Accepted P directory ∧ (addAccount P call directory).2 = directory ++ [call.account P] ∨
    ¬ call.Accepted P directory ∧ (addAccount P call directory).2 = directory := by
  unfold CreateCall.Accepted CreateCall.account addAccount
  cases call.sshaPassword with
  | none => exact .inr ⟨by simp, rfl⟩
  | some password =>
    cases call.addFault with
    | some err => exact .inr ⟨by simp, rfl⟩
    | none =>
      cases hadd : add P.schema directory (newAccount P call.request password) with
      | none =>
        refine .inr ⟨?_, by simp only [hadd]⟩
        rintro ⟨-, -, hfree⟩
        rw [Option.getD_some] at hfree
        rw [add_eq_some_iff.mpr ⟨hfree, rfl⟩] at hadd
        cases hadd
      | some directory' =>
        obtain ⟨hfree, rfl⟩ := add_eq_some_iff.mp hadd
        exact .inl ⟨⟨rfl, rfl, hfree⟩, by simp only [hadd, Option.getD_some]⟩

/-- What stands of a call past its search for the number. -/
structure ProvisionState.Searched (P : Provisioning) (calls : I → CreateCall)
    (s : ProvisionState I) : Prop where
  table : s.table.Inv (SameNumber P.schema)
    (fun x => under P.schema P.config.userBaseDN x.dn = true) (fun i => (calls i).account P)
  made : ∀ i, s.pc i = .toSearchGroup ∨ s.pc i = .toAdd → ∃ added, s.later i = some added

theorem searched_start (P : Provisioning) (calls : I → CreateCall) (directory : List Entry) :
    (ProvisionState.start directory).Searched P calls where
  table := by
    constructor
    · intro i added hlater
      cases hlater
    · intro i added hlater
      cases hlater
  made := by
    rintro i (h | h) <;> cases h

theorem numberFree_iff (haccepted : s.pc i = .toAdd ∧ (calls i).Accepted P s.directory) :
    NumberFree P calls s i ↔ s.table.Free (SameNumber P.schema)
      (fun x => under P.schema P.config.userBaseDN x.dn = true) (fun i => (calls i).account P) i := by
  simp [NumberFree, Table.Free, ProvisionState.table, haccepted.1, haccepted.2]

section Step

variable [DecidableEq I]

/-- What a step does to the directory and to the history. -/
inductive ProvisionMove (P : Provisioning) (calls : I → CreateCall) (s s' : ProvisionState I)
    (i : I) : Prop
  | quiet (directory : s'.directory = s.directory) (later : s'.later = s.later)
      (pc : s'.pc i ≠ .toSearchGroup) (toAdd : s'.pc i = .toAdd → s.pc i = .toSearchGroup)
      (notAccepted : s.pc i = .toAdd → ¬ (calls i).Accepted P s.directory)
  | search (pc : s.pc i = .toSearchNumber) (ok : searchNumber P (calls i) s.directory = .ok ())
      (pc' : s'.pc i = .toSearchGroup) (directory : s'.directory = s.directory)
      (later : s'.later = Function.update s.later i (some []))
  | add (pc : s.pc i = .toAdd) (accepted : (calls i).Accepted P s.directory)
      (pc' : ∃ result, s'.pc i = .finished result)
      (directory : s'.directory = s.directory ++ [(calls i).account P])
      (later : ∀ i', s'.later i' = (s.later i').map fun added => added ++ [(calls i).account P])

/-- A step that neither finds the number free nor adds an account. -/
theorem provision_quiet {pc : CreatePc} (hpc : pc ≠ .toSearchGroup)
    (hadd : pc = .toAdd → s.pc i = .toSearchGroup)
    (hnot : s.pc i = .toAdd → ¬ (calls i).Accepted P s.directory) :
    ProvisionMove P calls s (s.after i pc s.directory) i := by
  have hsame : (fun i' => (s.later i').map fun added =>
      added ++ s.directory.drop s.directory.length) = s.later := by
    funext i'
    simp
  have hself : (s.after i pc s.directory).pc i = pc := Function.update_self _ _ _
  refine .quiet rfl ?_ (by rwa [hself]) (by rwa [hself]) hnot
  cases pc with
  | toSearchGroup => exact absurd rfl hpc
  | _ => exact hsame

theorem provisionStep_cases (hstep : provisionStep P calls s i = some s') :
    (∀ i', i' ≠ i → s'.pc i' = s.pc i') ∧ ProvisionMove P calls s s' i := by
  obtain ⟨⟨pc, directory⟩, hnext, rfl⟩ := Option.map_eq_some_iff.mp hstep
  refine ⟨fun i' hi => Function.update_of_ne hi _ _, ?_⟩
  cases hpc : s.pc i with
  | start =>
    rw [hpc] at hnext
    cases hnext
    apply provision_quiet
    all_goals cases openProvisioning P (calls i) <;> simp [CreatePc.next, hpc]
  | toSearchUid =>
    rw [hpc] at hnext
    cases hnext
    apply provision_quiet
    all_goals cases searchUid P (calls i) s.directory <;> simp [CreatePc.next, hpc]
  | toSearchNumber =>
    rw [hpc] at hnext
    cases hnext
    cases hsearch : searchNumber P (calls i) s.directory with
    | error err => apply provision_quiet <;> simp [CreatePc.next, hpc]
    | ok u => exact .search hpc hsearch (Function.update_self _ _ _) rfl rfl
  | toSearchGroup =>
    rw [hpc] at hnext
    cases hnext
    apply provision_quiet
    all_goals cases searchGroup P (calls i) s.directory <;> simp [CreatePc.next, hpc]
  | toAdd =>
    rw [hpc] at hnext
    cases hnext
    rcases addAccount_cases (P := P) (calls i) s.directory with ⟨haccepted, hadd⟩ | ⟨hnot, hsame⟩
    · rw [hadd]
      refine .add hpc haccepted ⟨_, Function.update_self _ _ _⟩ rfl fun i' => ?_
      simp [ProvisionState.after]
    · rw [hsame]
      apply provision_quiet
      · simp
      · simp
      · exact fun _ => hnot
  | finished result =>
    rw [hpc] at hnext
    cases hnext

/-- A step is a step of the table. -/
theorem ProvisionMove.move (h : ProvisionMove P calls s s' i) :
    Table.Move (SameNumber P.schema) (fun x => under P.schema P.config.userBaseDN x.dn = true)
      (fun i => (calls i).account P) s.table s'.table := by
  cases h with
  | quiet directory later => exact .keep directory later
  | search _ ok _ directory later =>
    refine .check i (fun x hx hunder => searchNumber_ok ok hx hunder) directory ?_ fun i' hi => ?_
    · show s'.later i = some []
      rw [later, Function.update_self]
    · show s'.later i' = s.later i'
      rw [later, Function.update_of_ne hi]
  | add _ _ _ directory later => exact .add _ directory later

theorem ProvisionState.Searched.step (h : s.Searched P calls)
    (hstep : provisionStep P calls s i = some s') : s'.Searched P calls := by
  obtain ⟨hothers, hmove⟩ := provisionStep_cases hstep
  refine ⟨h.table.move hmove.move, fun i' hi' => ?_⟩
  have hbefore : i' ≠ i → ∃ added, s.later i' = some added := by
    intro hi
    rw [hothers i' hi] at hi'
    exact h.made i' hi'
  cases hmove with
  | quiet directory later pc toAdd =>
    rw [later]
    by_cases hi : i' = i
    · subst hi
      rcases hi' with hi' | hi'
      · exact absurd hi' pc
      · exact h.made i' (.inl (toAdd hi'))
    · exact hbefore hi
  | search _ _ _ _ later =>
    rw [later]
    by_cases hi : i' = i
    · subst hi
      exact ⟨[], Function.update_self _ _ _⟩
    · rw [Function.update_of_ne hi]
      exact hbefore hi
  | add hpc _ hpc' _ later =>
    rw [later i']
    by_cases hi : i' = i
    · subst hi
      obtain ⟨added, hadded⟩ := h.made i' (.inr hpc)
      exact ⟨_, by rw [hadded]; rfl⟩
    · obtain ⟨added, hadded⟩ := hbefore hi
      exact ⟨_, by rw [hadded]; rfl⟩

/-- One step keeps the numbers distinct exactly when the account it adds has a free one. -/
theorem distinctNumbers_step_iff (hsearched : s.Searched P calls)
    (hdistinct : DistinctNumbers P.schema s.directory)
    (hstep : provisionStep P calls s i = some s') :
    DistinctNumbers P.schema s'.directory ↔ NumberFree P calls s i := by
  obtain ⟨-, hmove⟩ := provisionStep_cases hstep
  cases hmove with
  | quiet directory _ _ _ notAccepted =>
    rw [directory]
    exact ⟨fun _ hpc haccepted => absurd haccepted (notAccepted hpc), fun _ => hdistinct⟩
  | search hpc _ _ directory =>
    rw [directory]
    refine ⟨fun _ hadd => ?_, fun _ => hdistinct⟩
    rw [hpc] at hadd
    cases hadd
  | add hpc haccepted _ directory =>
    obtain ⟨added, hlater⟩ := hsearched.made i (.inr hpc)
    rw [directory, numberFree_iff ⟨hpc, haccepted⟩]
    exact hsearched.table.clean_add_iff hlater hdistinct

/-- Accounts are never removed. -/
theorem directory_grows (hstep : provisionStep P calls s i = some s') :
    s.directory <+: s'.directory := by
  obtain ⟨-, hmove⟩ := provisionStep_cases hstep
  cases hmove with
  | quiet directory => rw [directory]
  | search _ _ _ directory => rw [directory]
  | add _ _ _ directory =>
    rw [directory]
    exact List.prefix_append _ _

/-- From a directory whose accounts have distinct uidNumbers, whatever the order of the messages
    of any number of calls: the accounts have distinct uidNumbers at the end exactly when each
    account is added while its number is free outside the user base, and none with the number
    has been added since the call's search for it. -/
theorem uidNumbers_distinct_iff {directory : List Entry} {is : List I}
    (hdistinct : DistinctNumbers P.schema directory)
    (hrun : Run (provisionStep P calls) (fun _ _ => True) (.start directory) is s) :
    DistinctNumbers P.schema s.directory ↔
      Run (provisionStep P calls) (NumberFree P calls) (.start directory) is s := by
  refine run_last_iff (ProvisionState.Searched P calls)
    (fun t => DistinctNumbers P.schema t.directory) (searched_start P calls directory) hdistinct
    (fun _ _ _ hsearched hstep => hsearched.step hstep) ?_
    (fun _ _ _ hsearched hdistinct hstep => distinctNumbers_step_iff hsearched hdistinct hstep) hrun
  intro t i t' hstep hafter
  exact List.Pairwise.sublist (directory_grows hstep).sublist hafter

end Step

section Example

private def plainSchema : Schema where
  normal _ value := value
  name dn := (dn.toList.splitOn ',').map String.ofList

private def users : Entry :=
  ⟨"cn=users,ou=groups,dc=hpc", [("objectClass", ["posixGroup"]), ("gidNumber", ["1000"])]⟩

private def exampleClient : Provisioning where
  schema := plainSchema
  config :=
    { userBaseDN := "ou=people,dc=hpc"
      groupBaseDN := "ou=groups,dc=hpc"
      scheme := some "ldaps"
      allowInsecure := false
      provisionBindDN := "cn=writer,dc=hpc"
      provisionBindPassword := "secret" }
  escapeDN := id

private def sound : Connection := ⟨none, none, none, fun _ _ => .accepted⟩

private def exampleCall (uid : String) : CreateCall where
  request := ⟨uid, ⟨2000, by decide⟩, ⟨1000, by decide⟩, "/home/" ++ uid, "/bin/bash",
    "correct horse battery"⟩
  atOpen := sound
  atUid := sound
  atNumber := sound
  atGroup := sound
  sshaPassword := some ("SSHA:" ++ uid)
  addFault := none

/-- Ann (`true`) and bob (`false`) are to get the same uidNumber. -/
private def exampleCalls (ann : Bool) : CreateCall := exampleCall (if ann then "ann" else "bob")

/-- Both calls make their searches, then both add. -/
private def crossed : List Bool :=
  [true, true, true, true, false, false, false, false, true, false]

private def crossedEnd : Option (ProvisionState Bool) :=
  exec (provisionStep exampleClient exampleCalls) (fun _ _ => true) (.start [users]) crossed

private theorem crossedEnd_directory : (crossedEnd.any fun s => decide (s.directory =
    [users, (exampleCalls true).account exampleClient, (exampleCalls false).account exampleClient]))
    = true := by decide +kernel

private theorem users_distinct : DistinctNumbers exampleClient.schema [users] :=
  List.pairwise_singleton _ _

private theorem ann_bob_same : SameNumber exampleClient.schema
    ((exampleCalls true).account exampleClient) ((exampleCalls false).account exampleClient) :=
  sameNumber_account_iff.mpr ⟨by decide +kernel, by decide +kernel⟩

private theorem crossed_same {s : ProvisionState Bool} (h : s.directory =
    [users, (exampleCalls true).account exampleClient, (exampleCalls false).account exampleClient]) :
    ¬ DistinctNumbers exampleClient.schema s.directory := by
  intro hdistinct
  rw [h] at hdistinct
  have htail := (List.pairwise_cons.mp hdistinct).2
  exact (List.pairwise_cons.mp htail).1 _ (List.mem_singleton_self _) ann_bob_same

/-- Two calls with one uidNumber both find it free, and both add their account. -/
theorem uidNumber_added_twice : DistinctNumbers exampleClient.schema [users] ∧ ∃ s,
    Run (provisionStep exampleClient exampleCalls) (fun _ _ => True) (.start [users]) crossed s ∧
      ¬ DistinctNumbers exampleClient.schema s.directory := by
  obtain ⟨s, hs, hend⟩ := (Option.any_eq_true _ _).mp crossedEnd_directory
  exact ⟨users_distinct, s, Run.mono (fun _ _ _ => trivial) (run_of_exec hs),
    crossed_same (by simpa using hend)⟩

/-- The second add is one too late. -/
theorem crossed_run_not_free : ∃ s,
    Run (provisionStep exampleClient exampleCalls) (fun _ _ => True) (.start [users]) crossed s ∧
      ¬ Run (provisionStep exampleClient exampleCalls) (NumberFree exampleClient exampleCalls)
        (.start [users]) crossed s := by
  obtain ⟨s, hs, hend⟩ := (Option.any_eq_true _ _).mp crossedEnd_directory
  have hrun : Run (provisionStep exampleClient exampleCalls) (fun _ _ => True) (.start [users])
      crossed s := Run.mono (fun _ _ _ => trivial) (run_of_exec hs)
  refine ⟨s, hrun, fun hfree => crossed_same (by simpa using hend) ?_⟩
  exact (uidNumbers_distinct_iff users_distinct hrun).mpr hfree

end Example

end OpenHpcWeb.Ldap
