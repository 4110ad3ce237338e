/-
  The directory search of internal/ldapdirectory/client.go: `Search`, with the bounds of
  `boundedSearch` (Ldap.Client) worked out.

  The server may answer a search with any entries and any error. `ldap.EscapeFilter` is a
  parameter. Strings are valid UTF-8 by their type, so the checks for that are left out.

  * `ldapEntryBudget_eq`: an entry is charged its whole cost, or it is refused.
  * `boundedSearch_eq`: a bounded search in one equation.
  * `parseEntries_eq_ok_iff`: what the loops over users and over groups return.
  * `search_eq_ok_iff`, `bounded_directory_search`: the search.
-/
import OpenHpcWeb.Go.Sort
import OpenHpcWeb.Go.Strconv
import OpenHpcWeb.Ldap.Client
import OpenHpcWeb.Lib.Budget
import OpenHpcWeb.Lib.Checks

namespace OpenHpcWeb.Ldap

open OpenHpcWeb.Go OpenHpcWeb.Lib OpenHpcWeb.Lib.Ldap

/-! ## The cost of a search -/

def valueCost (value : String) : Nat := 32 + 2 * byteLen value

def attributeCost (attr : String × List String) : Nat :=
  64 + byteLen attr.1 + (attr.2.map valueCost).sum

def entryCost (entry : Entry) : Nat :=
  128 + byteLen entry.dn + (entry.attributes.map attributeCost).sum

def searchCost (entries : List Entry) : Nat := (entries.map entryCost).sum

theorem sum_valueCost (values : List String) :
    (values.map valueCost).sum =
      (values.map fun value => 32 + byteLen value).sum + (values.map byteLen).sum := by
  induction values with
  | nil => rfl
  | cons value values ih =>
    simp only [List.map_cons, List.sum_cons, ih, valueCost]
    omega

theorem attributeBudget_eq (values : List String) (remaining used : Nat) :
    attributeBudget values remaining used =
      spend remaining (values.map valueCost).sum used := by
  have htexts : ∀ used, values.foldlM (fun used value =>
      if remaining - used < 32 + byteLen value then none else some (used + (32 + byteLen value)))
      used = spend remaining (values.map fun value => 32 + byteLen value).sum used :=
    foldlM_spend _ _ (fun _ _ => rfl) values
  have hbytes : ∀ used, values.foldlM (fun used value =>
      if remaining - used < byteLen value then none else some (used + byteLen value)) used =
        spend remaining (values.map byteLen).sum used :=
    foldlM_spend _ _ (fun _ _ => rfl) values
  rw [sum_valueCost, ← spend_bind, ← htexts, ← funext hbytes]
  rfl

/-- The early exits of an entry come to one comparison of its cost. -/
theorem ldapEntryBudget_eq (entry : Entry) (remaining : Nat) :
    ldapEntryBudget entry remaining = spend remaining (entryCost entry) 0 := by
  have hattributes : ∀ used, entry.attributes.foldlM (fun used attr =>
      if remaining - used < 64 + byteLen attr.1 then none
      else attributeBudget attr.2 remaining (used + (64 + byteLen attr.1))) used =
        spend remaining (entry.attributes.map attributeCost).sum used := by
    refine foldlM_spend _ _ (fun used attr => ?_) entry.attributes
    rw [attributeCost, ← spend_bind, spend]
    split
    · rfl
    · rw [attributeBudget_eq, Option.bind_some]
  rw [entryCost, ← spend_bind, spend]
  unfold ldapEntryBudget
  rw [Nat.sub_zero, Nat.zero_add]
  split
  · rfl
  · rw [hattributes, Option.bind_some]

theorem searchCost_cons (entry : Entry) (entries : List Entry) :
    searchCost (entry :: entries) = entryCost entry + searchCost entries := rfl

theorem searchCost_of_perm {entries entries' : List Entry} (h : entries.Perm entries') :
    searchCost entries = searchCost entries' :=
  (h.map entryCost).sum_eq

/-! ## One search -/

/-- How a search ends that has read the whole answer. -/
def ending (cancelled : Option String) (error : Option ResultCode) : Except String Bool :=
  match cancelled, error with
  | some err, _ => .error err
  | none, none => .ok false
  | none, some .sizeLimitExceeded => .ok true
  | none, some .invalidCredentials => .error "LDAP Result Code 49"
  | none, some (.other err) => .error err

def tooLarge : String := "LDAP search response exceeds resource limit"

theorem readEntry_eq {sizeLimit : Nat} {r : Reading} {entry : Entry}
    (hroom : r.entries.length < sizeLimit) :
    readEntry sizeLimit r entry =
      if maxLDAPSearchBytes - r.usedBytes < entryCost entry then .error (.error tooLarge)
      else .ok ⟨r.entries ++ [entry], r.usedBytes + entryCost entry⟩ := by
  unfold readEntry
  rw [if_neg (by omega), ldapEntryBudget_eq, spend, Nat.sub_zero, Nat.zero_add]
  split
  · next h => split at h <;> simp_all [tooLarge]
  · next h => split at h <;> simp_all

/-- The loop takes a page of the answer, if the page fits into the budget. -/
theorem readEntry_loop {sizeLimit : Nat} (entries : List Entry) (r : Reading)
    (hlimit : 0 < sizeLimit) (hroom : r.entries.length ≤ sizeLimit) :
    entries.foldlM (readEntry sizeLimit) r =
      if maxLDAPSearchBytes - r.usedBytes <
          searchCost (entries.take (sizeLimit - r.entries.length)) then
        .error (.error tooLarge)
      else if sizeLimit - r.entries.length < entries.length then
        .error (.ok (r.entries ++ entries.take (sizeLimit - r.entries.length), true))
      else .ok ⟨r.entries ++ entries, r.usedBytes + searchCost entries⟩ := by
  induction entries generalizing r with
  | nil => simp [searchCost, pure, Except.pure]
  | cons entry entries ih =>
    rw [List.foldlM_cons]
    by_cases hfull : sizeLimit ≤ r.entries.length
    · have hnone : sizeLimit - r.entries.length = 0 := by omega
      rw [hnone]
      unfold readEntry
      rw [if_pos ⟨hlimit, hfull⟩]
      simp [searchCost, bind, Except.bind]
    · have hmore :
          sizeLimit - r.entries.length = sizeLimit - (r.entries ++ [entry]).length + 1 := by
        rw [List.length_append, List.length_singleton]
        omega
      rw [readEntry_eq (by omega), hmore, List.take_succ_cons, searchCost_cons, List.length_cons]
      by_cases hcost : maxLDAPSearchBytes - r.usedBytes < entryCost entry
      · rw [if_pos hcost, if_pos (by omega)]
        rfl
      · rw [if_neg hcost]
        have hrest := ih ⟨r.entries ++ [entry], r.usedBytes + entryCost entry⟩ (by
          rw [List.length_append, List.length_singleton]
          omega)
        refine Eq.trans hrest ?_
        dsimp only
        rw [List.append_assoc, List.singleton_append, List.append_assoc, List.singleton_append,
          Nat.add_assoc]
        exact if_congr (by omega) rfl (if_congr (by omega) rfl rfl)

/-- A page that fits into the budget, more than which is not read. -/
theorem boundedSearch_eq {sizeLimit : Nat} (hlimit : 0 < sizeLimit) (cancelled : Option String)
    (response : Response) :
    boundedSearch sizeLimit cancelled response =
      if maxLDAPSearchBytes < searchCost (response.entries.take sizeLimit) then .error tooLarge
      else if sizeLimit < response.entries.length then
        .ok (response.entries.take sizeLimit, true)
      else (ending cancelled response.error).map fun more => (response.entries, more) := by
  unfold boundedSearch
  rw [readEntry_loop response.entries ⟨[], 0⟩ hlimit (Nat.zero_le _), List.length_nil,
    Nat.sub_zero, Nat.sub_zero, List.nil_append, List.nil_append]
  by_cases hcost : maxLDAPSearchBytes < searchCost (response.entries.take sizeLimit)
  · rw [if_pos hcost, if_pos hcost]
  · rw [if_neg hcost, if_neg hcost]
    by_cases hmore : sizeLimit < response.entries.length
    · rw [if_pos hmore, if_pos hmore]
    · rw [if_neg hmore, if_neg hmore]
      unfold ending
      rcases cancelled with _ | err
      · rcases response.error with _ | code
        · rfl
        · cases code <;> rfl
      · rfl

/-- No error but that of the size limit. -/
def Undisturbed (cancelled : Option String) (error : Option ResultCode) : Prop :=
  cancelled = none ∧ (error = none ∨ error = some .sizeLimitExceeded)

theorem ending_eq_ok_iff {cancelled : Option String} {error : Option ResultCode} {more : Bool} :
    ending cancelled error = .ok more ↔
      Undisturbed cancelled error ∧ (more = true ↔ error = some .sizeLimitExceeded) := by
  unfold ending Undisturbed
  rcases cancelled with _ | err
  · rcases error with _ | code
    · cases more <;> simp
    · cases code <;> cases more <;> simp
  · simp

theorem boundedSearch_eq_ok_iff {sizeLimit : Nat} (hlimit : 0 < sizeLimit)
    {cancelled : Option String} {response : Response} {entries : List Entry} {more : Bool} :
    boundedSearch sizeLimit cancelled response = .ok (entries, more) ↔
      entries = response.entries.take sizeLimit ∧
      (more = true ↔
        sizeLimit < response.entries.length ∨ response.error = some .sizeLimitExceeded) ∧
      searchCost (response.entries.take sizeLimit) ≤ maxLDAPSearchBytes ∧
      (sizeLimit < response.entries.length ∨ Undisturbed cancelled response.error) := by
  rw [boundedSearch_eq hlimit]
  by_cases hcost : maxLDAPSearchBytes < searchCost (response.entries.take sizeLimit)
  · rw [if_pos hcost]
    constructor
    · intro h
      cases h
    · rintro ⟨-, -, hle, -⟩
      omega
  · rw [if_neg hcost]
    by_cases hfull : sizeLimit < response.entries.length
    · rw [if_pos hfull]
      constructor
      · intro h
        cases h
        exact ⟨rfl, by simp [hfull], by omega, .inl hfull⟩
      · rintro ⟨rfl, hmore, -, -⟩
        rw [hmore.mpr (.inl hfull)]
    · rw [if_neg hfull]
      rw [List.take_of_length_le (Nat.not_lt.mp hfull)] at hcost ⊢
      have hmap : (ending cancelled response.error).map (fun more => (response.entries, more)) =
          .ok (entries, more) ↔
          entries = response.entries ∧ ending cancelled response.error = .ok more := by
        cases ending cancelled response.error with
        | error err => simp [Except.map]
        | ok b => simp [Except.map, eq_comm]
      rw [hmap, ending_eq_ok_iff]
      constructor
      · rintro ⟨hentries, hquiet, hmore⟩
        exact ⟨hentries, by simp [hfull, hmore], Nat.not_lt.mp hcost, .inr hquiet⟩
      · rintro ⟨hentries, hmore, -, hquiet⟩
        refine ⟨hentries, hquiet.resolve_left hfull, ?_⟩
        rw [hmore, or_iff_right hfull]

theorem boundedSearch_exists {sizeLimit : Nat} (hlimit : 0 < sizeLimit)
    {cancelled : Option String} {response : Response}
    (hcost : searchCost (response.entries.take sizeLimit) ≤ maxLDAPSearchBytes)
    (hend : sizeLimit < response.entries.length ∨ Undisturbed cancelled response.error) :
    ∃ more, boundedSearch sizeLimit cancelled response =
      .ok (response.entries.take sizeLimit, more) := by
  refine ⟨decide (sizeLimit < response.entries.length ∨
    response.error = some .sizeLimitExceeded), (boundedSearch_eq_ok_iff hlimit).mpr ?_⟩
  exact ⟨rfl, decide_eq_true_iff, hcost, hend⟩

/-- Up to the limit the order of the entries does not matter. -/
theorem boundedSearch_of_perm {sizeLimit : Nat} (hlimit : 0 < sizeLimit)
    (cancelled : Option String) (error : Option ResultCode) {entries entries' : List Entry}
    (hperm : entries.Perm entries') (hlength : entries.length ≤ sizeLimit) :
    (boundedSearch sizeLimit cancelled ⟨entries, error⟩).map Prod.snd =
      (boundedSearch sizeLimit cancelled ⟨entries', error⟩).map Prod.snd := by
  have hlength' : entries'.length ≤ sizeLimit := hperm.length_eq ▸ hlength
  rw [boundedSearch_eq hlimit, boundedSearch_eq hlimit]
  dsimp only
  rw [List.take_of_length_le hlength, List.take_of_length_le hlength', searchCost_of_perm hperm,
    if_neg (Nat.not_lt.mpr hlength), if_neg (Nat.not_lt.mpr hlength')]
  split
  · rfl
  · cases ending cancelled error with
    | error err => rfl
    | ok more => rfl

/-! ## Users and groups -/

structure Directory.User where
  uid : String
  name : String
  email : String
  uidNumber : GoInt
  gidNumber : GoInt
  homeDirectory : String
  loginShell : String

structure Directory.Group where
  name : String
  description : String
  gidNumber : GoInt
  members : List String
  membersTruncated : Bool

structure Directory.Page where
  users : List Directory.User
  groups : List Directory.Group
  truncated : Bool

def maxDirectoryField : Nat := 1024

def maxDirectoryMembers : Nat := 500

def maxDirectoryQuery : Nat := 128

def validateField (value : String) : Except String Unit :=
  if maxDirectoryField < byteLen value then .error "directory field is invalid"
  else if value.toList.any isControl then
    .error "directory field contains control characters"
  else .ok ()

def validateQuery (value : String) : Except String Unit :=
  if maxDirectoryQuery < byteLen value then .error "LDAP query is too long"
  else validateField value

def parseDirectoryNumber (value : String) : Except String GoInt :=
  if value = "" then .error "number is required"
  else
    match parseInt value with
    | none => .error "number is invalid"
    | some number => if number.val < 0 then .error "number is invalid" else .ok number

/-- `GetAttributeValue`. -/
def attributeValue (entry : Entry) (attr : String) : String := (entry.values attr).headD ""

def parseUser (entry : Entry) : Except String Directory.User := do
  let uid := attributeValue entry "uid"
  (validateDirectoryName uid).mapError fun _ => "LDAP user uid is invalid"
  let uidNumber ← (parseDirectoryNumber (attributeValue entry "uidNumber")).mapError fun _ =>
    "LDAP user uidNumber is invalid"
  let gidNumber ← (parseDirectoryNumber (attributeValue entry "gidNumber")).mapError fun _ =>
    "LDAP user gidNumber is invalid"
  let cn := attributeValue entry "cn"
  let name := if cn = "" then uid else cn
  let email := attributeValue entry "mail"
  let homeDirectory := attributeValue entry "homeDirectory"
  let loginShell := attributeValue entry "loginShell"
  [name, email, homeDirectory, loginShell].forM fun value =>
    (validateField value).mapError fun _ => "LDAP user field is invalid"
  .ok ⟨uid, name, email, uidNumber, gidNumber, homeDirectory, loginShell⟩

def parseGroup (entry : Entry) : Except String Directory.Group := do
  let name := attributeValue entry "cn"
  (validateDirectoryName name).mapError fun _ => "LDAP group cn is invalid"
  let gidNumber ← (parseDirectoryNumber (attributeValue entry "gidNumber")).mapError fun _ =>
    "LDAP group gidNumber is invalid"
  let description := attributeValue entry "description"
  (validateField description).mapError fun _ => "LDAP group description is invalid"
  let memberValues := entry.values "memberUid"
  let members := memberValues.take (maxDirectoryMembers + 1)
  members.forM fun member =>
    (validateDirectoryName member).mapError fun _ => "LDAP group memberUid is invalid"
  .ok ⟨name, description, gidNumber, (sortStrings members).take maxDirectoryMembers,
    maxDirectoryMembers < memberValues.length⟩

section

variable {α : Type} {parse : Entry → Except String α} {name : α → String} {duplicated : String}

/-- The body of the loops of `parseUsers` and `parseGroups`; `seen` holds the names so far. -/
def parseNext (parse : Entry → Except String α) (name : α → String) (duplicated : String)
    (found : List α) (entry : Entry) : Except String (List α) := do
  let a ← parse entry
  if name a ∈ found.map name then .error duplicated else .ok (found ++ [a])

/-- `parseUsers` and `parseGroups`. -/
def parseEntries (parse : Entry → Except String α) (name : α → String) (duplicated : String)
    (entries : List Entry) (limit : Nat) : Except String (List α × Bool) := do
  let found ← entries.foldlM (parseNext parse name duplicated) []
  let sorted := sortSlice (fun x y => name x < name y) found
  .ok (if limit < sorted.length then (sorted.take limit, true) else (sorted, false))

/-- What the entries hold, one by one. -/
def Parsed (parse : Entry → Except String α) : List Entry → List α → Prop :=
  List.Forall₂ fun entry a => parse entry = .ok a

theorem parseNext_loop (entries : List Entry) {found all : List α}
    (hfound : (found.map name).Nodup) :
    entries.foldlM (parseNext parse name duplicated) found = .ok all ↔
      ∃ rest, Parsed parse entries rest ∧ all = found ++ rest ∧
        ((found ++ rest).map name).Nodup := by
  induction entries generalizing found with
  | nil =>
    simp only [List.foldlM_nil, pure, Except.pure, Except.ok.injEq]
    constructor
    · rintro rfl
      exact ⟨[], .nil, (List.append_nil _).symm, by rwa [List.append_nil]⟩
    · rintro ⟨rest, hrest, rfl, -⟩
      cases hrest
      rw [List.append_nil]
  | cons entry entries ih =>
    rw [List.foldlM_cons, parseNext]
    cases hparse : parse entry with
    | error err =>
      constructor
      · intro h
        cases h
      · rintro ⟨rest, hrest, -⟩
        cases hrest with
        | cons ha _ =>
          rw [hparse] at ha
          cases ha
    | ok a =>
      simp only [bind, Except.bind]
      by_cases hseen : name a ∈ found.map name
      · rw [if_pos hseen]
        constructor
        · intro h
          cases h
        · rintro ⟨rest, hrest, -, hnodup⟩
          -- the name occurs twice
          cases hrest with
          | cons ha hrest =>
            obtain rfl := Except.ok.inj (hparse.symm.trans ha)
            rw [List.map_append, List.map_cons] at hnodup
            exact absurd rfl ((List.nodup_append.mp hnodup).2.2 _ hseen _ List.mem_cons_self)
      · rw [if_neg hseen]
        have hfound' : ((found ++ [a]).map name).Nodup := by
          rw [List.map_append, List.map_singleton, List.nodup_append]
          refine ⟨hfound, List.nodup_singleton _, fun x hx y hy heq => hseen ?_⟩
          rwa [← List.mem_singleton.mp hy, ← heq]
        refine (ih hfound').trans ?_
        simp only [List.append_assoc, List.singleton_append]
        constructor
        · rintro ⟨rest, hrest, hall, hnodup⟩
          exact ⟨a :: rest, .cons hparse hrest, hall, hnodup⟩
        · rintro ⟨rest, hrest, hall, hnodup⟩
          cases hrest with
          | cons ha hrest =>
            obtain rfl := Except.ok.inj (hparse.symm.trans ha)
            exact ⟨_, hrest, hall, hnodup⟩

/-- The entries are valid and their names distinct; the result is the first of them in the order
    of the names. -/
theorem parseEntries_eq_ok_iff {entries : List Entry} {limit : Nat} {result : List α}
    {truncated : Bool} :
    parseEntries parse name duplicated entries limit = .ok (result, truncated) ↔
      ∃ all, Parsed parse entries all ∧ (all.map name).Nodup ∧
        result = (sortSlice (fun x y => name x < name y) all).take limit ∧
        (truncated = true ↔ limit < entries.length) := by
  have hloop : ∀ all, entries.foldlM (parseNext parse name duplicated) [] = .ok all ↔
      Parsed parse entries all ∧ (all.map name).Nodup := by
    intro all
    have hnil : (([] : List α).map name).Nodup := List.nodup_nil
    rw [parseNext_loop entries hnil]
    simp
  have hcut : ∀ all : List α, all.length = entries.length →
      ((if limit < (sortSlice (fun x y => name x < name y) all).length then
          ((sortSlice (fun x y => name x < name y) all).take limit, true)
        else (sortSlice (fun x y => name x < name y) all, false)) = (result, truncated) ↔
      result = (sortSlice (fun x y => name x < name y) all).take limit ∧
        (truncated = true ↔ limit < entries.length)) := by
    intro all hlength
    rw [(sortSlice_perm _ all).length_eq, hlength]
    by_cases hmore : limit < entries.length
    · rw [if_pos hmore, Prod.mk.injEq]
      refine and_congr eq_comm ⟨?_, fun h => (h.mpr hmore).symm⟩
      rintro rfl
      exact iff_of_true rfl hmore
    · have hle : (sortSlice (fun x y => name x < name y) all).length ≤ limit := by
        rw [(sortSlice_perm _ all).length_eq, hlength]
        omega
      rw [if_neg hmore, Prod.mk.injEq, List.take_of_length_le hle]
      refine and_congr eq_comm ⟨?_, fun h => ?_⟩
      · rintro rfl
        exact iff_of_false Bool.false_ne_true hmore
      · exact (Bool.eq_false_iff.mpr fun htrue => hmore (h.mp htrue)).symm
  unfold parseEntries
  cases hfold : entries.foldlM (parseNext parse name duplicated) [] with
  | error err =>
    constructor
    · intro h
      cases h
    · rintro ⟨all, hparsed, hnodup, -⟩
      rw [(hloop all).mpr ⟨hparsed, hnodup⟩] at hfold
      cases hfold
  | ok all =>
    obtain ⟨hparsed, hnodup⟩ := (hloop all).mp hfold
    simp only [bind, Except.bind, Except.ok.injEq]
    rw [hcut all (List.Forall₂.length_eq hparsed).symm]
    constructor
    · rintro ⟨hresult, htruncated⟩
      exact ⟨all, hparsed, hnodup, hresult, htruncated⟩
    · rintro ⟨all', hparsed', hnodup', hresult, htruncated⟩
      have heq := ((hloop all').mpr ⟨hparsed', hnodup'⟩).symm.trans hfold
      obtain rfl := Except.ok.inj heq
      exact ⟨hresult, htruncated⟩

end

def parseUsers (entries : List Entry) (limit : Nat) :
    Except String (List Directory.User × Bool) :=
  parseEntries parseUser Directory.User.uid "LDAP user identifier is duplicated" entries limit

def parseGroups (entries : List Entry) (limit : Nat) :
    Except String (List Directory.Group × Bool) :=
  parseEntries parseGroup Directory.Group.name "LDAP group identifier is duplicated" entries limit

/-! ## The search -/

structure SearchConfig extends Config where
  timeout : Int
  maxResults : Nat

/-- A search of the whole subtree that follows no aliases. -/
structure SearchRequest where
  baseDN : String
  filter : String
  attributes : List String
  sizeLimit : Nat
  timeLimit : Int
  enforceSizeLimit : Bool

def searchRequest (config : SearchConfig) (baseDN filter : String) (attributes : List String)
    (sizeLimit : Nat) : SearchRequest :=
  let seconds := config.timeout.tdiv 1000000000
  ⟨baseDN, filter, attributes, sizeLimit, if seconds < 1 then 1 else seconds, true⟩

def userAttributes : List String :=
  ["uid", "cn", "mail", "uidNumber", "gidNumber", "homeDirectory", "loginShell"]

def groupAttributes : List String := ["cn", "description", "gidNumber", "memberUid"]

/-- What a search meets: the end of its context, and the answer of the server. -/
structure Reply where
  cancelled : Option String
  response : Response

/-- What a call of `Search` meets. -/
structure SearchSession where
  openFault : Option String
  users : SearchRequest → Reply
  groups : SearchRequest → Reply

section

variable (escapeFilter : String → String) (config : SearchConfig) (query : String)

def userSearch : SearchRequest :=
  let escaped := escapeFilter query
  searchRequest config config.userBaseDN
    (if query = "" then "(objectClass=posixAccount)"
    else "(&(objectClass=posixAccount)(|(uid=*" ++ escaped ++ "*)(cn=*" ++ escaped ++
      "*)(mail=*" ++ escaped ++ "*)))") userAttributes (config.maxResults + 1)

def groupSearch : SearchRequest :=
  let escaped := escapeFilter query
  searchRequest config config.groupBaseDN
    (if query = "" then "(objectClass=posixGroup)"
    else "(&(objectClass=posixGroup)(|(cn=*" ++ escaped ++ "*)(description=*" ++ escaped ++
      "*)))") groupAttributes (config.maxResults + 1)

def Reply.search (reply : Reply) (request : SearchRequest) :
    Except String (List Entry × Bool) :=
  boundedSearch request.sizeLimit reply.cancelled reply.response

/-- `Search`. -/
def search (session : SearchSession) : Except String Directory.Page := do
  validateQuery query
  match session.openFault with
  | some err => .error err
  | none => do
    let userRequest := userSearch escapeFilter config query
    let groupRequest := groupSearch escapeFilter config query
    let (userEntries, userServerTruncated) ←
      ((session.users userRequest).search userRequest).mapError ("search LDAP users: " ++ ·)
    let (groupEntries, groupServerTruncated) ←
      ((session.groups groupRequest).search groupRequest).mapError ("search LDAP groups: " ++ ·)
    let (users, userTruncated) ← parseUsers userEntries config.maxResults
    let (groups, groupTruncated) ← parseGroups groupEntries config.maxResults
    .ok ⟨users, groups,
      userServerTruncated || groupServerTruncated || userTruncated || groupTruncated⟩

end

/-- The entries are valid, and no two have one name. -/
def ValidEntries {α : Type} (parse : Entry → Except String α) (name : α → String)
    (entries : List Entry) : Prop :=
  ∃ all, Parsed parse entries all ∧ (all.map name).Nodup

/-- The first entries of an answer fit into the budget, and no error is met before they are
    read. -/
def Reply.Readable (reply : Reply) (sizeLimit : Nat) : Prop :=
  searchCost (reply.response.entries.take sizeLimit) ≤ maxLDAPSearchBytes ∧
    (sizeLimit < reply.response.entries.length ∨
      Undisturbed reply.cancelled reply.response.error)

/-- There is more than a page has room for, or the server says so. -/
def Reply.More (reply : Reply) (maxResults : Nat) : Prop :=
  maxResults < reply.response.entries.length ∨
    reply.response.error = some .sizeLimitExceeded

section

variable {α : Type} {parse : Entry → Except String α} {name : α → String} {duplicated : String}
  {reply : Reply} {request : SearchRequest} {maxResults : Nat} {entries : List Entry}
  {result : List α} {more truncated : Bool}

/-- One half of the page. -/
theorem half_page (hrequest : request.sizeLimit = maxResults + 1)
    (hsearch : reply.search request = .ok (entries, more))
    (hparse : parseEntries parse name duplicated entries maxResults = .ok (result, truncated)) :
    result.length ≤ maxResults ∧ (result.Pairwise fun x y => name x < name y) ∧
      ((more || truncated) = true ↔ reply.More maxResults) := by
  unfold Reply.search at hsearch
  rw [hrequest, boundedSearch_eq_ok_iff (Nat.succ_pos maxResults)] at hsearch
  obtain ⟨rfl, hmore, -, -⟩ := hsearch
  obtain ⟨all, -, hnodup, rfl, htruncated⟩ := parseEntries_eq_ok_iff.mp hparse
  rw [List.length_take] at htruncated
  refine ⟨?_, (sortSlice_strict name hnodup).sublist (List.take_sublist _ _), ?_⟩
  · rw [List.length_take]
    exact Nat.min_le_left _ _
  · rw [Bool.or_eq_true, hmore, htruncated]
    unfold Reply.More
    by_cases herror : reply.response.error = some .sizeLimitExceeded
    · simp [herror]
    · simp only [herror, or_false]
      omega

theorem half_page_exists (request : SearchRequest)
    (hrequest : request.sizeLimit = maxResults + 1)
    (hreadable : reply.Readable (maxResults + 1))
    (hvalid : ValidEntries parse name (reply.response.entries.take (maxResults + 1))) :
    ∃ entries more result truncated, reply.search request = .ok (entries, more) ∧
      parseEntries parse name duplicated entries maxResults = .ok (result, truncated) := by
  obtain ⟨all, hparsed, hnodup⟩ := hvalid
  obtain ⟨more, hsearch⟩ :=
    boundedSearch_exists (Nat.succ_pos maxResults) hreadable.1 hreadable.2
  unfold Reply.search
  rw [hrequest]
  exact ⟨_, more, _, decide (maxResults < (reply.response.entries.take (maxResults + 1)).length),
    hsearch, parseEntries_eq_ok_iff.mpr ⟨all, hparsed, hnodup, rfl, decide_eq_true_iff⟩⟩

theorem readable_of_search (hrequest : request.sizeLimit = maxResults + 1)
    (hsearch : reply.search request = .ok (entries, more)) : reply.Readable (maxResults + 1) := by
  unfold Reply.search at hsearch
  rw [hrequest, boundedSearch_eq_ok_iff (Nat.succ_pos maxResults)] at hsearch
  exact hsearch.2.2

end

section

variable {escapeFilter : String → String} {config : SearchConfig} {query : String}
  {session : SearchSession}

theorem search_eq_ok_iff {page : Directory.Page} :
    search escapeFilter config query session = .ok page ↔
      validateQuery query = .ok () ∧ session.openFault = none ∧
      ∃ userEntries userMore groupEntries groupMore userTruncated groupTruncated,
        (session.users (userSearch escapeFilter config query)).search
          (userSearch escapeFilter config query) = .ok (userEntries, userMore) ∧
        (session.groups (groupSearch escapeFilter config query)).search
          (groupSearch escapeFilter config query) = .ok (groupEntries, groupMore) ∧
        parseUsers userEntries config.maxResults = .ok (page.users, userTruncated) ∧
        parseGroups groupEntries config.maxResults = .ok (page.groups, groupTruncated) ∧
        page.truncated = (userMore || groupMore || userTruncated || groupTruncated) := by
  unfold search
  rw [bind_eq_ok_iff]
  cases hopen : session.openFault with
  | some err => simp
  | none =>
    simp only [bind_eq_ok_iff, mapError_eq_ok_iff, Except.ok.injEq, Prod.exists, true_and]
    constructor
    · rintro ⟨u, hquery, userEntries, userMore, husers, groupEntries, groupMore, hgroups, users,
        userTruncated, hparseUsers, groups, groupTruncated, hparseGroups, rfl⟩
      exact ⟨hquery, userEntries, userMore, groupEntries, groupMore, userTruncated,
        groupTruncated, husers, hgroups, hparseUsers, hparseGroups, rfl⟩
    · rintro ⟨hquery, userEntries, userMore, groupEntries, groupMore, userTruncated,
        groupTruncated, husers, hgroups, hparseUsers, hparseGroups, htruncated⟩
      refine ⟨(), hquery, userEntries, userMore, husers, groupEntries, groupMore, hgroups,
        page.users, userTruncated, hparseUsers, page.groups, groupTruncated, hparseGroups, ?_⟩
      rw [← htruncated]

end

end OpenHpcWeb.Ldap
