/-
  From a row of the directory page to the page of the user or group: `Search`, `User` and `Group`
  of internal/ldapdirectory/client.go with the keys and handlers of internal/web/ldap.go.

  A row is made of the first value of `uid` or `cn`. The server compares a name with all values
  of all entries, and as its schema says.

  * `run_search`: the method is the search of `Ldap.Search`.
  * `theEntry_eq_some_iff`: when a lookup finds the entry that a row was made of.
  * `listed_row_opens`: what the link of a row leads to.
-/
import OpenHpcWeb.Ldap.Calls
import OpenHpcWeb.Web.DirectoryAudit

namespace OpenHpcWeb.Web

open OpenHpcWeb.Go OpenHpcWeb.Lib OpenHpcWeb.Lib.Ldap OpenHpcWeb.Ldap
open OpenHpcWeb.Lib.Program (run_ask run_bind run_done ensures_bind ensures_withSlot)

/-! ## The client on a server that answers -/

/-- The connection is made, and the context does not end. -/
structure Serves (client : DirectoryClient) (answers : (q : CallQuestion) → CallAnswer q) :
    Prop where
  dial : answers .dial = none
  bind : answers (.bind client.bindDN client.bindPassword) = .accepted
  contextErr : answers .contextErr = none

section Client

variable {client : DirectoryClient} {answers : (q : CallQuestion) → CallAnswer q} {α : Type}

theorem run_perform (q : CallQuestion) : (perform q).run answers = answers q := rfl

theorem run_open (h : Serves client answers) : client.open_.run answers = .ok () := by
  have hcheck : checkContext.run answers = .ok () := by
    unfold checkContext
    rw [run_bind, run_perform, h.contextErr]
    rfl
  unfold DirectoryClient.open_ DirectoryClient.openWithBind
  rw [run_bind, run_perform, h.dial]
  dsimp only
  rw [run_bind, run_bind]
  split
  · rw [run_bind, run_perform, h.bind]
    exact hcheck
  · exact hcheck

theorem run_withConnection (h : Serves client answers)
    (body : CallProgram (Except String α)) :
    (withConnection client.open_ body).run answers = body.run answers := by
  unfold withConnection
  rw [run_bind, run_open h]
  dsimp only
  rw [run_bind, run_bind, run_bind]
  rfl

theorem run_searchOn (h : Serves client answers) (request : SearchRequest) :
    (searchOn request).run answers =
      boundedSearch request.sizeLimit none (answers (.search request)) := by
  unfold searchOn
  rw [run_bind, run_perform]
  cases hfold : (answers (.search request)).entries.foldlM (readEntry request.sizeLimit)
      ⟨[], 0⟩ with
  | error early =>
    simp only [boundedSearch, hfold]
    rfl
  | ok r =>
    dsimp only
    rw [run_bind, run_perform, h.contextErr]
    rfl

/-- What the searches meet. -/
def session (answers : (q : CallQuestion) → CallAnswer q) : SearchSession where
  openFault := none
  users request := ⟨none, answers (.search request)⟩
  groups request := ⟨none, answers (.search request)⟩

theorem run_searchBody (h : Serves client answers) {query : String}
    (hquery : validateQuery query = .ok ()) : (client.searchBody query).run answers =
      Ldap.search client.escapeFilter client.searchConfig query (session answers) := by
  have hreply (request : SearchRequest) : ((session answers).users request).search request =
      boundedSearch request.sizeLimit none (answers (.search request)) := rfl
  have hreply' (request : SearchRequest) : ((session answers).groups request).search request =
      boundedSearch request.sizeLimit none (answers (.search request)) := rfl
  unfold DirectoryClient.searchBody Ldap.search
  rw [hquery, run_bind, run_searchOn h]
  simp only [session, Except.bind, bind] at hreply hreply' ⊢
  rw [hreply, hreply']
  cases boundedSearch _ none (answers (.search (userSearch client.escapeFilter client.searchConfig
    query))) with
  | error err => rfl
  | ok users =>
    obtain ⟨userEntries, userServerTruncated⟩ := users
    simp only [Except.mapError]
    refine (run_bind answers (searchOn _) _).trans ?_
    rw [run_searchOn h]
    cases boundedSearch _ none (answers (.search (groupSearch client.escapeFilter
      client.searchConfig query))) with
    | error err => rfl
    | ok groups => rfl

theorem run_search (h : Serves client answers) (query : String) :
    (client.search query).run answers =
      Ldap.search client.escapeFilter client.searchConfig query (session answers) := by
  unfold DirectoryClient.search
  cases hquery : validateQuery query with
  | error err =>
    unfold Ldap.search
    rw [hquery]
    rfl
  | ok u => exact (run_withConnection h _).trans (run_searchBody h hquery)

theorem run_user (h : Serves client answers) {uid : String}
    (hname : validateDirectoryName uid = .ok ()) : (client.user uid).run answers =
      DirectoryClient.theEntry parseUser "read LDAP user: " "LDAP user identifier is not unique"
        (boundedSearch 2 none (answers (.search (client.accountRequest uid)))) := by
  unfold DirectoryClient.user
  rw [hname]
  refine (run_withConnection h _).trans ?_
  rw [run_bind, run_searchOn h]
  rfl

theorem run_group (h : Serves client answers) {name : String}
    (hname : validateDirectoryName name = .ok ()) : (client.group name).run answers =
      DirectoryClient.theEntry parseGroup "read LDAP group: " "LDAP group identifier is not unique"
        (boundedSearch 2 none (answers (.search (client.groupRequest name)))) := by
  unfold DirectoryClient.group
  rw [hname]
  refine (run_withConnection h _).trans ?_
  rw [run_bind, run_searchOn h]
  rfl

end Client

/-! ## Lookups -/

section Lookup

variable {S : Schema} {directory : List Entry} {q : Search} {α : Type}
  {parse : Entry → Except String α} {name : α → String} {failure ambiguous : String}
  {entry : Entry} {a : α}

/-- Of more than one entry neither is taken. -/
theorem theEntry_error {r : Except String (List Entry × Bool)}
    (h : ∀ entries more, r = .ok (entries, more) → 2 ≤ entries.length) :
    ∃ err, DirectoryClient.theEntry parse failure ambiguous r = .error err := by
  cases r with
  | error err => exact ⟨_, rfl⟩
  | ok result =>
    obtain ⟨entries, more⟩ := result
    have hlength := h entries more rfl
    match entries, hlength with
    | _ :: _ :: _, _ => exact ⟨ambiguous, by cases more <;> rfl⟩

/-- An entry that could be read is found if it is the only one. -/
theorem theEntry_eq (hlimit : q.sizeLimit = 2) (hmem : entry ∈ found S directory q)
    (hcost : entryCost entry ≤ maxLDAPSearchBytes) (hparse : parse entry = .ok a) :
    let r := DirectoryClient.theEntry parse failure ambiguous
      (boundedSearch 2 none (respond S directory none q))
    if (found S directory q).length = 1 then r = .ok (some a) else ∃ err, r = .error err := by
  have hrespond : respond S directory none q =
      if 2 < (found S directory q).length then
        ⟨(found S directory q).take 2, some .sizeLimitExceeded⟩
      else ⟨found S directory q, none⟩ := by
    unfold respond
    rw [hlimit]
    simp
  have hpos := List.length_pos_of_mem hmem
  split
  · next hone =>
    obtain ⟨entry', hfound⟩ := List.length_eq_one_iff.mp hone
    rw [hfound, List.mem_singleton] at hmem
    subst hmem
    have hsearch : boundedSearch 2 none (respond S directory none q) = .ok ([entry], false) := by
      rw [hrespond, if_neg (by omega), hfound, boundedSearch_eq_ok_iff (by decide)]
      refine ⟨rfl, by simp, ?_, .inr ⟨rfl, .inl rfl⟩⟩
      simpa [searchCost] using hcost
    rw [hsearch]
    show (parse entry).map some = .ok (some a)
    rw [hparse]
    rfl
  · next hmany =>
    refine theEntry_error fun entries more hsearch => ?_
    obtain ⟨rfl, -⟩ := (boundedSearch_eq_ok_iff (by decide)).mp hsearch
    rw [hrespond, List.length_take]
    split
    · rw [List.length_take]
      omega
    · exact Nat.le_min.mpr ⟨Nat.le_refl _, by dsimp only; omega⟩

theorem parsed_mem {entries : List Entry} {all : List α} (h : Parsed parse entries all)
    (ha : a ∈ all) : ∃ entry ∈ entries, parse entry = .ok a := by
  induction h with
  | nil => cases ha
  | @cons entry x entries all hx _ ih =>
    rcases List.mem_cons.mp ha with rfl | ha
    · exact ⟨entry, List.mem_cons_self, hx⟩
    · obtain ⟨entry', hmem, hparse⟩ := ih ha
      exact ⟨entry', List.mem_cons_of_mem _ hmem, hparse⟩

theorem entryCost_le {entries : List Entry} (h : entry ∈ entries) :
    entryCost entry ≤ searchCost entries :=
  List.single_le_sum (fun _ _ => Nat.zero_le _) _ (List.mem_map_of_mem h)

/-- What a page lists was read from an entry of the answer. -/
theorem listed_entry {response : Lib.Ldap.Response} {entries : List Entry} {more truncated : Bool}
    {limit : Nat} {duplicated : String} {listed : List α}
    (hsearch : boundedSearch (limit + 1) none response = .ok (entries, more))
    (hlist : parseEntries parse name duplicated entries limit = .ok (listed, truncated))
    (ha : a ∈ listed) : ∃ entry ∈ response.entries, parse entry = .ok a ∧
      entryCost entry ≤ maxLDAPSearchBytes := by
  obtain ⟨rfl, -, hcost, -⟩ := (boundedSearch_eq_ok_iff (Nat.succ_pos limit)).mp hsearch
  obtain ⟨all, hparsed, -, rfl, -⟩ := parseEntries_eq_ok_iff.mp hlist
  have hall : a ∈ all := (sortSlice_perm _ all).mem_iff.mp (List.mem_of_mem_take ha)
  obtain ⟨entry, hmem, hparse⟩ := parsed_mem hparsed hall
  exact ⟨entry, List.mem_of_mem_take hmem, hparse, (entryCost_le hmem).trans hcost⟩

/-- An entry has the first of its values. -/
theorem has_attributeValue {attr : String}
    (h : validateDirectoryName (attributeValue entry attr) = .ok ()) :
    entry.has S attr (attributeValue entry attr) = true := by
  rw [has_iff]
  unfold attributeValue at h ⊢
  cases hvalues : entry.values attr with
  | nil =>
    rw [hvalues] at h
    exact absurd rfl (validateDirectoryName_ok_iff.mp h).1
  | cons v values => exact ⟨v, List.mem_cons_self, rfl⟩

theorem parseUser_uid {user : Directory.User} (h : parseUser entry = .ok user) :
    user.uid = attributeValue entry "uid" ∧ validateDirectoryName user.uid = .ok () := by
  unfold parseUser at h
  simp only [bind_eq_ok_iff, mapError_eq_ok_iff] at h
  obtain ⟨_, hname, _, _, _, _, _, _, h⟩ := h
  cases h
  exact ⟨rfl, hname⟩

theorem parseGroup_name {group : Directory.Group} (h : parseGroup entry = .ok group) :
    group.name = attributeValue entry "cn" ∧ validateDirectoryName group.name = .ok () := by
  unfold parseGroup at h
  simp only [bind_eq_ok_iff, mapError_eq_ok_iff] at h
  obtain ⟨_, hname, _, _, _, _, _, _, h⟩ := h
  cases h
  exact ⟨rfl, hname⟩

end Lookup

/-! ## Reads -/

section Reads

variable {a : DirectoryApplication} {c : DirectoryRequest} {α : Type} {data : α → DirectoryData}
  {render : α → Bool → DirectoryProgram DirectoryReply} {action outcome : String}

/-- What a read answers when the provider has answered. -/
def ShowsData (data : α → DirectoryData) (reply : DirectoryReply) :
    Except String (Option α) → Prop
  | .error _ => (∃ view, reply = .page 200 view) ∧ reply.data = none
  | .ok none => reply = .httpError 404
  | .ok (some value) => (∃ view, reply = .page 200 view) ∧ reply.data = some (data value)

/-- The event is recorded, and then the page is shown. -/
theorem ensures_recorded (hrender : Shows data render) (value : α) (available : Bool) :
    (recordDirectoryAudit c action outcome >>= fun recorded =>
      if recorded then render value available else pure (.httpError 503) :
      DirectoryProgram DirectoryReply).Ensures fun _ reply => reply = .httpError 503 ∨
        (∃ view, reply = .page 200 view) ∧
          reply.data = if available then some (data value) else none := by
  intro recorded
  cases recorded with
  | false => exact .inl rfl
  | true => exact (hrender value available).imp fun h reply hpage => .inr hpage.2

theorem ensures_slot_answer {read : ProviderCall α}
    {P : List (Exchange DirectoryQuestion DirectoryAnswer) → Except String α → Prop}
    (hread : read.Ensures P) : (withDirectorySlot read).Ensures fun h r => r = .error .busy ∨
      ∃ h' answer, P h' answer ∧ (∀ x ∈ Program.liftHistory h', x ∈ h) ∧
        r = answer.mapError .failed := by
  refine ensures_bind.mpr (ensures_withSlot.mpr ⟨.inl rfl, hread.imp fun h answer hanswer => ?_⟩)
  have hin : ∀ x ∈ Program.liftHistory h,
      x ∈ (⟨.enter, true⟩ :: Program.liftHistory h ++ [⟨.leave, ()⟩] : DirectoryHistory) ++ [] := by
    intro x hx
    simp [hx]
  cases answer with
  | error err => exact .inr ⟨h, _, hanswer, hin, rfl⟩
  | ok value => exact .inr ⟨h, _, hanswer, hin, rfl⟩

/-- A read of the directory shows what its call was answered, or has failed before or after. -/
theorem readDirectory_shows {read : ProviderCall (Option α)} {zero : α}
    {P : List (Exchange DirectoryQuestion DirectoryAnswer) → Except String (Option α) → Prop}
    (hprovider : a.directoryProvider.isSome = true) (hread : read.Ensures P)
    (hrender : Shows data render) :
    (readDirectory a c action read zero render).Ensures fun h reply =>
      reply = .httpError 503 ∨ reply = .httpError 429 ∨
        ∃ h' r, P h' r ∧ (∀ x ∈ Program.liftHistory h', x ∈ h) ∧ ShowsData data reply r := by
  obtain ⟨provider, hsome⟩ := Option.isSome_iff_exists.mp hprovider
  unfold readDirectory
  rw [hsome]
  refine ensures_bind.mpr ((ensures_slot_answer hread).imp fun h r hr => ?_)
  rcases hr with rfl | ⟨h', answer, hanswer, hin, rfl⟩
  · -- no slot is free
    refine ensures_refuse fun recorded => ?_
    cases recorded with
    | true => exact .inr (.inl rfl)
    | false => exact .inl rfl
  · have hin' : ∀ (h'' : DirectoryHistory), ∀ x ∈ Program.liftHistory h', x ∈ h ++ h'' :=
      fun h'' x hx => List.mem_append_left _ (hin x hx)
    rcases answer with err | _ | value
    · refine (ensures_recorded hrender zero false).imp fun h'' reply hreply => ?_
      exact hreply.imp id fun hpage => .inr ⟨h', _, hanswer, hin' h'', hpage⟩
    · refine ensures_refuse fun recorded => ?_
      cases recorded with
      | true => exact .inr (.inr ⟨h', _, hanswer, hin' _, rfl⟩)
      | false => exact .inl rfl
    · refine (ensures_recorded hrender value true).imp fun h'' reply hreply => ?_
      exact hreply.imp id fun hpage => .inr ⟨h', _, hanswer, hin' h'', hpage⟩

end Reads

/-! ## From the row to its page -/

section Rows

variable {client : DirectoryClient} {directory : List Entry} {query : String}
  {answers : (q : CallQuestion) → CallAnswer q}

/-- The search of `User`, by what its filter means. -/
def accountLookup (client : DirectoryClient) (uid : String) : Search :=
  ⟨client.config.userBaseDN, accountFilter "uid" uid, 2⟩

/-- The search of `Group`. -/
def groupLookup (client : DirectoryClient) (name : String) : Search :=
  ⟨client.config.groupBaseDN,
    .both (.equals "objectClass" "posixGroup") (.equals "cn" name), 2⟩

/-- The server has the directory, and answers the searches of a page from it. -/
structure ListsFrom (client : DirectoryClient) (directory : List Entry) (query : String)
    (answers : (q : CallQuestion) → CallAnswer q) : Prop where
  serves : Serves client answers
  users : ∀ entry ∈ (answers (.search
      (userSearch client.escapeFilter client.searchConfig query))).entries,
    entry ∈ found client.schema directory
      ⟨client.config.userBaseDN, .equals "objectClass" "posixAccount", 0⟩
  groups : ∀ entry ∈ (answers (.search
      (groupSearch client.escapeFilter client.searchConfig query))).entries,
    entry ∈ found client.schema directory
      ⟨client.config.groupBaseDN, .equals "objectClass" "posixGroup", 0⟩

/-- An entry that is listed is found by its first name. -/
theorem found_by_name {S : Schema} {entry : Entry} {base class_ attr : String} {n : Nat}
    (hlisted : entry ∈ found S directory ⟨base, .equals "objectClass" class_, n⟩)
    (hname : validateDirectoryName (attributeValue entry attr) = .ok ()) :
    entry ∈ found S directory ⟨base,
      .both (.equals "objectClass" class_) (.equals attr (attributeValue entry attr)), 2⟩ := by
  obtain ⟨hmem, hunder, hclass⟩ := mem_found_iff.mp hlisted
  have hclass : entry.has S "objectClass" class_ = true := hclass
  refine mem_found_iff.mpr ⟨hmem, hunder, ?_⟩
  show (entry.has S "objectClass" class_ && entry.has S attr (attributeValue entry attr)) = true
  rw [hclass, has_attributeValue hname]
  rfl

/-- What `User` finds for a user of a page. -/
theorem listed_user (h : ListsFrom client directory query answers) {page : Directory.Page}
    (hpage : (client.search query).run answers = .ok page) {user : Directory.User}
    (huser : user ∈ page.users) (hlookup : answers (.search (client.accountRequest user.uid)) =
      respond client.schema directory none (accountLookup client user.uid)) :
    validateDirectoryName user.uid = .ok () ∧
      if (found client.schema directory (accountLookup client user.uid)).length = 1 then
        (client.user user.uid).run answers = .ok (some user)
      else ∃ err, (client.user user.uid).run answers = .error err := by
  rw [run_search h.serves] at hpage
  obtain ⟨-, -, _, _, _, _, _, _, husers, -, hparse, -⟩ := search_eq_ok_iff.mp hpage
  obtain ⟨entry, hmem, hentry, hcost⟩ := listed_entry husers hparse huser
  obtain ⟨huid, hname⟩ := parseUser_uid hentry
  refine ⟨hname, ?_⟩
  have hfound : entry ∈ found client.schema directory (accountLookup client user.uid) := by
    rw [huid] at hname ⊢
    exact found_by_name (h.users entry hmem) hname
  rw [run_user h.serves hname, hlookup]
  exact theEntry_eq rfl hfound hcost hentry

theorem listed_group (h : ListsFrom client directory query answers) {page : Directory.Page}
    (hpage : (client.search query).run answers = .ok page) {group : Directory.Group}
    (hgroup : group ∈ page.groups) (hlookup : answers (.search (client.groupRequest group.name)) =
      respond client.schema directory none (groupLookup client group.name)) :
    validateDirectoryName group.name = .ok () ∧
      if (found client.schema directory (groupLookup client group.name)).length = 1 then
        (client.group group.name).run answers = .ok (some group)
      else ∃ err, (client.group group.name).run answers = .error err := by
  rw [run_search h.serves] at hpage
  obtain ⟨-, -, _, _, _, _, _, _, -, hgroups, -, hparse, -⟩ := search_eq_ok_iff.mp hpage
  obtain ⟨entry, hmem, hentry, hcost⟩ := listed_entry hgroups hparse hgroup
  obtain ⟨hcn, hname⟩ := parseGroup_name hentry
  refine ⟨hname, ?_⟩
  have hfound : entry ∈ found client.schema directory (groupLookup client group.name) := by
    rw [hcn] at hname ⊢
    exact found_by_name (h.groups entry hmem) hname
  rw [run_group h.serves hname, hlookup]
  exact theEntry_eq rfl hfound hcost hentry

/-- The provider of a handler is the client. -/
structure ProvidedBy (client : DirectoryClient) (answers : (q : CallQuestion) → CallAnswer q)
    (h : DirectoryHistory) : Prop where
  user : ∀ uid r, ⟨.other (.user uid), r⟩ ∈ h → r = (client.user uid).run answers
  group : ∀ name r, ⟨.other (.group name), r⟩ ∈ h → r = (client.group name).run answers

/-- What the page of a row shows: all of the row, or that the directory is unavailable. -/
def RowPage (unique : Prop) [Decidable unique] (content : DirectoryData)
    (reply : DirectoryReply) : Prop :=
  reply = .httpError 503 ∨ reply = .httpError 429 ∨
    (∃ view, reply = .page 200 view) ∧ reply.data = if unique then some content else none

theorem rowPage_of_shown {α : Type} {unique : Prop} [Decidable unique]
    {data : α → DirectoryData} {answer : Except String (Option α)} {value : α}
    {reply : DirectoryReply}
    (hanswer : if unique then answer = .ok (some value) else ∃ err, answer = .error err)
    (hreply : reply = .httpError 503 ∨ reply = .httpError 429 ∨ ShowsData data reply answer) :
    RowPage unique (data value) reply := by
  refine hreply.imp id (Or.imp id fun hshown => ?_)
  split at hanswer
  · next hunique =>
    rw [hanswer] at hshown
    rw [if_pos hunique]
    exact hshown
  · next hmany =>
    obtain ⟨err, hanswer⟩ := hanswer
    rw [hanswer] at hshown
    rw [if_neg hmany]
    exact hshown

/-- The link of a listed user or group, for every directory and every query: whatever its handler
    meets, it refuses (busy, or without its record), or it shows what the row was made of if the
    entry is the only one that the server finds by the name, and nothing otherwise. It never
    answers that there is no such user or group. -/
theorem listed_row_opens (h : ListsFrom client directory query answers) {page : Directory.Page}
    (hpage : (client.search query).run answers = .ok page) (a : DirectoryApplication)
    (hprovider : a.directoryProvider.isSome = true) (c : DirectoryRequest) :
    (∀ user ∈ page.users, answers (.search (client.accountRequest user.uid)) =
        respond client.schema directory none (accountLookup client user.uid) →
      c.param = encodeDirectoryKey user.uid →
      (ldapUser a c).Ensures fun history reply => ProvidedBy client answers history →
        RowPage ((found client.schema directory (accountLookup client user.uid)).length = 1)
          (.user user) reply) ∧
      (∀ group ∈ page.groups, answers (.search (client.groupRequest group.name)) =
          respond client.schema directory none (groupLookup client group.name) →
        c.param = encodeDirectoryKey group.name →
        (ldapGroup a c).Ensures fun history reply => ProvidedBy client answers history →
          RowPage ((found client.schema directory (groupLookup client group.name)).length = 1)
            (.group group) reply) := by
  have hcall : ∀ q, (call q).Ensures fun h r => h = [⟨q, r⟩] := fun q r => rfl
  constructor
  · intro user huser hlookup hparam
    obtain ⟨hname, hfound⟩ := listed_user h hpage huser hlookup
    unfold ldapUser
    rw [hparam, decodeDirectoryKey_encode hname]
    refine (readDirectory_shows hprovider (hcall (.user user.uid)) shows_user).imp ?_
    intro history reply hreply hprovided
    refine rowPage_of_shown hfound (hreply.imp id (Or.imp id ?_))
    rintro ⟨h', r, rfl, hin, hshown⟩
    rw [← hprovided.user user.uid r (hin _ List.mem_cons_self)]
    exact hshown
  · intro group hgroup hlookup hparam
    obtain ⟨hname, hfound⟩ := listed_group h hpage hgroup hlookup
    unfold ldapGroup
    rw [hparam, decodeDirectoryKey_encode hname]
    refine (readDirectory_shows hprovider (hcall (.group group.name)) shows_group).imp ?_
    intro history reply hreply hprovided
    refine rowPage_of_shown hfound (hreply.imp id (Or.imp id ?_))
    rintro ⟨h', r, rfl, hin, hshown⟩
    rw [← hprovided.group group.name r (hin _ List.mem_cons_self)]
    exact hshown

def rowsClient : DirectoryClient where
  schema := ⟨fun _ value => value, fun dn => (dn.toList.splitOn ',').map String.ofList⟩
  config :=
    { userBaseDN := "dc=hpc"
      groupBaseDN := "dc=hpc"
      scheme := some "ldaps"
      allowInsecure := false
      provisionBindDN := ""
      provisionBindPassword := "" }
  escapeDN := id
  timeout := 3000000000
  maxResults := 20
  bindDN := ""
  bindPassword := ""
  escapeFilter := id

def rowsEntry : Entry :=
  ⟨"uid=alice,dc=hpc", [("objectClass", ["posixAccount"]), ("uid", ["alice"]),
    ("uidNumber", ["2000"]), ("gidNumber", ["1000"])]⟩

/-- A server with one account. -/
def rowsServer : (q : CallQuestion) → CallAnswer q
  | .bind _ _ => .accepted
  | .search request =>
    if request.sizeLimit = 2 then
      respond rowsClient.schema [rowsEntry] none (accountLookup rowsClient "alice")
    else if request.attributes = userAttributes then ⟨[rowsEntry], none⟩
    else ⟨[], none⟩
  | .dial | .contextErr | .add _ | .sshaPassword _ => none
  | .setTimeout _ | .watch | .stopCancellation | .close => ()

def rowsUser : Directory.User := ⟨"alice", "alice", "", wrap64 2000, wrap64 1000, "", ""⟩

theorem rowsServer_lists : ListsFrom rowsClient [rowsEntry] "" rowsServer where
  serves := ⟨rfl, rfl, rfl⟩
  users := by
    intro entry hmem
    have hentry : entry ∈ [rowsEntry] := hmem
    rw [List.mem_singleton.mp hentry]
    refine mem_found_iff.mpr ⟨List.mem_cons_self, ?_, ?_⟩ <;> decide +kernel
  groups := by
    intro entry hmem
    have hentry : entry ∈ ([] : List Entry) := hmem
    cases hentry

theorem listed_row_opens_alice :
    (ldapUser directoryApplication
      { directoryRequest with param := encodeDirectoryKey "alice" }).Ensures
        fun history reply => ProvidedBy rowsClient rowsServer history →
          RowPage ((found rowsClient.schema [rowsEntry]
            (accountLookup rowsClient "alice")).length = 1) (.user rowsUser) reply := by
  have hpage : (rowsClient.search "").run rowsServer = .ok ⟨[rowsUser], [], false⟩ := by
    rfl
  exact (listed_row_opens rowsServer_lists hpage directoryApplication (by decide) _).1 rowsUser
    List.mem_cons_self rfl rfl

end Rows

end OpenHpcWeb.Web
