/-
  The page of the accounts, internal/web/app.go: `slurmAccounts`, its parameters, and the pages of
  the associations.

  The view is modelled as far as it depends on the request and on what the providers give. A link
  is followed by requesting its query; `html/template` escapes what the browser unescapes.

  * `slurmAccounts_pagePath`: what the link to a page gives.
  * `walk_from`: the pages from one on, by their next links.
  * `association_pages_complete`: the walk shows every matching association once, in order.
  * `filterLinks_work_iff`: the names whose filter links work.
-/
import OpenHpcWeb.Go.Decimal
import OpenHpcWeb.Go.Url
import OpenHpcWeb.Lib.Loop
import OpenHpcWeb.Slurm.Accounting

namespace OpenHpcWeb.Web

open OpenHpcWeb.Go hiding equalFold trimSpace parseInt
open OpenHpcWeb.Go.Bytes OpenHpcWeb.Cluster OpenHpcWeb.Lib OpenHpcWeb.Slurm

def associationPageSize : Nat := 100

def maxAssociationPages : Nat := 100

def maxAssociationFilterBytes : Nat := 64

inductive AccountsTab where
  | accounts
  | users
  | associations
  deriving DecidableEq

/-- A page number that `parseAssociationPage` gives. -/
abbrev AssociationPage := { page : Nat // 1 ≤ page ∧ page ≤ maxAssociationPages }

/-! ## The parameters -/

def parseAccountsTab (value : List UInt8) : Except String AccountsTab :=
  if value = [] ∨ value = ascii "accounts" then .ok .accounts
  else if value = ascii "users" then .ok .users
  else if value = ascii "associations" then .ok .associations
  else .error "invalid accounts tab"

theorem first_page : 1 ≤ 1 ∧ 1 ≤ maxAssociationPages := by decide

theorem toNat_page {n : Int} (h : 1 ≤ n ∧ n ≤ maxAssociationPages) :
    1 ≤ n.toNat ∧ n.toNat ≤ maxAssociationPages := by omega

def parseAssociationPage (value : List UInt8) : Except String AssociationPage :=
  if value = [] then .ok ⟨1, first_page⟩
  else if 3 < value.length ∨ value.head? = some 0x30 then .error "invalid association page"
  else if value.any fun b => !isDigit b then .error "invalid association page"
  else
    match parseInt value with
    | none => .error "invalid association page"
    | some page =>
      if h : 1 ≤ page.val ∧ page.val ≤ maxAssociationPages then
        .ok ⟨page.val.toNat, toNat_page h⟩
      else .error "invalid association page"

def parseAssociationFilter (value : List UInt8) : Except String String :=
  match decode value with
  | none => .error "invalid association filter"
  | some text =>
    if maxAssociationFilterBytes < value.length then .error "invalid association filter"
    else if text.toList.any isControl then .error "invalid association filter"
    else .ok text

/-! ## The pages -/

def filterAssociations : List Association → String → String → List Association
  | [], _, _ => []
  | value :: values, account, user =>
    if account ≠ "" ∧ value.account ≠ account then filterAssociations values account user
    else if user ≠ "" ∧ value.user ≠ user then filterAssociations values account user
    else value :: filterAssociations values account user

/-- The values of `associationPagePath`. -/
def pageValues (page : Nat) (account user : String) : List (List UInt8 × List UInt8) :=
  (ascii "association_page", ascii page.repr) ::
    ((if account ≠ "" then [(ascii "association_account", encode account)] else []) ++
      ((if user ≠ "" then [(ascii "association_user", encode user)] else []) ++
        [(ascii "tab", ascii "associations")]))

def associationPagePath (page : Nat) (account user : String) : List UInt8 :=
  if page = 0 then []
  else ascii "/slurm/accounts?" ++ encodeValues (pageValues page account user) ++
    ascii "#associations"

/-- The associations of a page, with the numbers of the page before and the next one; 0 is none. -/
def paginateAssociations (values : List Association) (page : Nat) : List Association × Nat × Nat :=
  let start := (page - 1) * associationPageSize
  if values.length ≤ start then
    if 1 < page then ([], page - 1, 0) else ([], 0, 0)
  else
    let stop := if values.length < start + associationPageSize then values.length
      else start + associationPageSize
    ((values.drop start).take (stop - start), if 1 < page then page - 1 else 0,
      if stop < values.length then page + 1 else 0)

/-! ## The handler -/

/-- What the providers give; `none` is a provider that is missing or fails. -/
structure AccountingData where
  directory : Option AccountDirectory
  associations : Option (List Association)

structure AccountsSummary where
  accounts : Nat
  users : Nat
  associations : Nat

structure AccountsView where
  available : Bool
  directory : AccountDirectory
  summary : AccountsSummary
  activeTab : AccountsTab
  associations : List Association
  associationsAvailable : Bool
  filteredAssociationCount : Nat
  associationAccount : String
  associationUser : String
  associationPreviousPage : Nat
  associationNextPage : Nat
  associationPreviousPath : List UInt8
  associationNextPath : List UInt8

/-- The view of a request whose parameters are read. -/
def accountsView (data : AccountingData) (activeTab : AccountsTab) (page : Nat)
    (account user : String) : AccountsView :=
  let directory := data.directory.getD ⟨[], []⟩
  let filtered := filterAssociations (data.associations.getD []) account user
  let paged := if data.associations.isSome then paginateAssociations filtered page else ([], 0, 0)
  { available := data.directory.isSome
    directory := directory
    summary := ⟨directory.accounts.length, directory.users.length,
      (data.associations.getD []).length⟩
    activeTab := activeTab
    associations := paged.1
    associationsAvailable := data.associations.isSome
    filteredAssociationCount := filtered.length
    associationAccount := account
    associationUser := user
    associationPreviousPage := paged.2.1
    associationNextPage := paged.2.2
    associationPreviousPath := associationPagePath paged.2.1 account user
    associationNextPath := associationPagePath paged.2.2 account user }

/-- The view of a request, or the status of its error. -/
def slurmAccounts (data : AccountingData) (query : List UInt8) : Except Nat AccountsView :=
  match parseAccountsTab (queryParam query (ascii "tab")),
    parseAssociationPage (queryParam query (ascii "association_page")),
    parseAssociationFilter (queryParam query (ascii "association_account")),
    parseAssociationFilter (queryParam query (ascii "association_user")) with
  | .ok tab, .ok page, .ok account, .ok user =>
    let activeTab :=
      if queryParam query (ascii "tab") = [] ∧
          (queryParam query (ascii "association_page") ≠ [] ∨ account ≠ "" ∨ user ≠ "") then
        .associations
      else tab
    .ok (accountsView data activeTab page account user)
  | _, _, _, _ => .error 400

/-! ## The links of accounts.html -/

/-- Whether the template shows the table of the associations. -/
def AccountsView.showsAssociations (view : AccountsView) : Bool :=
  view.available && view.activeTab = .associations && view.associationsAvailable

def AccountsView.previousLink (view : AccountsView) : Option (List UInt8) :=
  if view.showsAssociations ∧ view.associationPreviousPath ≠ [] then
    some view.associationPreviousPath
  else none

def AccountsView.nextLink (view : AccountsView) : Option (List UInt8) :=
  if view.showsAssociations ∧ view.associationNextPath ≠ [] then some view.associationNextPath
  else none

/-- The link on the number of a name's associations, with the parameter of the filter. -/
def filterLink (parameter : List UInt8) (name : String) : List UInt8 :=
  ascii "/slurm/accounts?tab=associations&" ++ parameter ++
    0x3d :: (queryEscape (encode name) ++ ascii "#associations")

def accountLink (name : String) : List UInt8 := filterLink (ascii "association_account") name

def userLink (name : String) : List UInt8 := filterLink (ascii "association_user") name

/-- The views that the next links lead through; `none` is an error, or more than `fuel` pages. -/
def walk (data : AccountingData) : Nat → List UInt8 → Option (List AccountsView)
  | 0, _ => none
  | fuel + 1, query =>
    match slurmAccounts data query with
    | .error _ => none
    | .ok view =>
      match view.nextLink with
      | none => some [view]
      | some href => (walk data fuel (queryOf href)).map (view :: ·)

/-! ## Parameters that are accepted -/

/-- A text that `parseAssociationFilter` accepts. -/
structure FilterText (text : String) : Prop where
  length : byteLen text ≤ maxAssociationFilterBytes
  noControl : ∀ c ∈ text.toList, isControl c = false

theorem FilterText.empty : FilterText "" := ⟨by decide, by simp⟩

theorem parseAssociationFilter_ok_iff {value : List UInt8} {text : String} :
    parseAssociationFilter value = .ok text ↔ value = encode text ∧ FilterText text := by
  unfold parseAssociationFilter
  constructor
  · intro h
    split at h
    · cases h
    · next decoded hdecode =>
      rw [check_eq_ok_iff, check_eq_ok_iff, Except.ok.injEq] at h
      obtain ⟨hlength, hcontrol, rfl⟩ := h
      have hvalue := encode_of_decode hdecode
      refine ⟨hvalue.symm, ?_, by simpa using hcontrol⟩
      rw [← length_encode, hvalue]
      exact not_lt.mp hlength
  · rintro ⟨rfl, h⟩
    rw [decode_encode]
    dsimp only
    rw [if_neg (not_lt.mpr (length_encode text ▸ h.length)), if_neg]
    simpa using h.noControl

theorem numeral_repr (n : Nat) : Numeral (ascii n.repr) n := by
  rw [ascii, Nat.toList_repr]
  exact numeral_of_parseDigits (parseDigits_toDigits n)

/-- The number of a page is read back. -/
theorem parseAssociationPage_repr (page : AssociationPage) :
    parseAssociationPage (ascii page.val.repr) = .ok page := by
  obtain ⟨n, hlow, hhigh⟩ := page
  have hrange : n ≤ 100 := hhigh
  have hval : (wrap64 n).val = n := wrap64_val (by omega) (by omega)
  have hwritten : formatInt (wrap64 n) = n.repr := formatInt_natCast hval
  have hpos : 0 < (wrap64 n).val := by omega
  have hdigits := digits_ascii hpos
  rw [hwritten] at hdigits
  have hlength : (ascii n.repr).length ≤ 3 := by
    rw [ascii, List.length_map, Nat.toList_repr]
    exact (Nat.length_toDigits_le_iff (by decide) (by decide)).mpr (by omega)
  have hread : parseInt (ascii n.repr) = some (wrap64 n) :=
    (positive_bytes_iff hdigits).mpr ⟨hpos, congrArg ascii hwritten.symm⟩
  unfold parseAssociationPage
  rw [if_neg hdigits.ne_nil, if_neg (by simp [hdigits.head, hlength]),
    if_neg (by simpa using hdigits.digits), hread]
  dsimp only
  rw [dif_pos (by rw [hval]; omega)]
  simp only [hval, Int.toNat_natCast]

/-! ## The query of a link -/

theorem nodup_pageValues (page : Nat) (account user : String) :
    ((pageValues page account user).map Prod.fst).Nodup := by
  unfold pageValues
  split <;> split <;> simp only [List.map_cons, List.map_nil, List.cons_append, List.nil_append] <;>
    decide

/-- What the parameters of a request say. -/
structure Requests (query : List UInt8) (page : AssociationPage) (account user : String) :
    Prop where
  tab : parseAccountsTab (queryParam query (ascii "tab")) = .ok .associations
  page : parseAssociationPage (queryParam query (ascii "association_page")) = .ok page
  account : parseAssociationFilter (queryParam query (ascii "association_account")) = .ok account
  user : parseAssociationFilter (queryParam query (ascii "association_user")) = .ok user

theorem queryOf_pagePath {page : Nat} (h : page ≠ 0) (account user : String) :
    queryOf (associationPagePath page account user) =
      encodeValues (pageValues page account user) := by
  have hpath : ascii "/slurm/accounts?" = ascii "/slurm/accounts" ++ [0x3f] := by decide
  have hfragment : ascii "#associations" = 0x23 :: ascii "associations" := by decide
  unfold associationPagePath
  rw [if_neg h, hpath, hfragment, List.append_assoc, List.append_assoc, List.singleton_append]
  exact queryOf_append (by decide) (by decide) not_mem_encodePairs

/-- The link to a page asks for the page, with the filters. -/
theorem requests_pagePath (page : AssociationPage) {account user : String}
    (haccount : FilterText account) (huser : FilterText user) :
    Requests (queryOf (associationPagePath page account user)) page account user := by
  have hnodup := nodup_pageValues page account user
  have hne : page.val ≠ 0 := by
    have := page.2.1
    omega
  have htab : (ascii "tab", ascii "associations") ∈ pageValues page account user := by
    simp [pageValues]
  rw [queryOf_pagePath hne]
  constructor
  · rw [queryParam_encodeValues_of_mem hnodup htab]
    rfl
  · rw [queryParam_encodeValues_of_mem hnodup List.mem_cons_self]
    exact parseAssociationPage_repr page
  · refine parseAssociationFilter_ok_iff.mpr ⟨?_, haccount⟩
    by_cases hempty : account = ""
    · have hnot : ascii "association_account" ∉ (pageValues page "" user).map Prod.fst := by
        unfold pageValues
        rw [if_neg (by simp)]
        split <;> simp only [List.map_cons, List.map_nil, List.cons_append, List.nil_append] <;>
          decide
      rw [hempty, queryParam_encodeValues_of_not_mem hnot]
      rfl
    · exact queryParam_encodeValues_of_mem hnodup (by simp [pageValues, hempty])
  · refine parseAssociationFilter_ok_iff.mpr ⟨?_, huser⟩
    by_cases hempty : user = ""
    · have hnot : ascii "association_user" ∉ (pageValues page account "").map Prod.fst := by
        unfold pageValues
        rw [if_neg (c := "" ≠ "") (by simp)]
        split <;> simp only [List.map_cons, List.map_nil, List.cons_append, List.nil_append] <;>
          decide
      rw [hempty, queryParam_encodeValues_of_not_mem hnot]
      rfl
    · exact queryParam_encodeValues_of_mem hnodup (by simp [pageValues, hempty])

/-! ## The view of a page -/

/-- The associations that the filters ask for. -/
def Matches (account user : String) (a : Association) : Prop :=
  (account = "" ∨ a.account = account) ∧ (user = "" ∨ a.user = user)

instance (account user : String) (a : Association) : Decidable (Matches account user a) :=
  inferInstanceAs (Decidable (_ ∧ _))

theorem filterAssociations_eq (values : List Association) (account user : String) :
    filterAssociations values account user = values.filter fun a => Matches account user a := by
  induction values with
  | nil => rfl
  | cons value values ih =>
    have hmatches : Matches account user value ↔
        ¬ (account ≠ "" ∧ value.account ≠ account) ∧ ¬ (user ≠ "" ∧ value.user ≠ user) := by
      unfold Matches
      tauto
    rw [filterAssociations, ih]
    split
    · next h =>
      rw [List.filter_cons_of_neg (by simpa using fun hm => (hmatches.mp hm).1 h)]
    · next h =>
      split
      · next h' =>
        rw [List.filter_cons_of_neg (by simpa using fun hm => (hmatches.mp hm).2 h')]
      · next h' =>
        rw [List.filter_cons_of_pos (by simpa using hmatches.mpr ⟨h, h'⟩)]

theorem slurmAccounts_of_requests (data : AccountingData) {query : List UInt8}
    {page : AssociationPage} {account user : String} (h : Requests query page account user) :
    slurmAccounts data query = .ok (accountsView data .associations page account user) := by
  unfold slurmAccounts
  rw [h.tab, h.page, h.account, h.user]
  dsimp only
  rw [ite_self]

/-- The view of a request that shows the associations. -/
theorem slurmAccounts_ok {data : AccountingData} {query : List UInt8} {view : AccountsView}
    (h : slurmAccounts data query = .ok view) (htab : view.activeTab = .associations) :
    ∃ page : AssociationPage, ∃ account user,
      parseAssociationPage (queryParam query (ascii "association_page")) = .ok page ∧
        FilterText account ∧ FilterText user ∧
          view = accountsView data .associations page account user := by
  unfold slurmAccounts at h
  split at h
  · next tab page account user _ hpage haccount huser =>
    obtain rfl := Except.ok.inj h
    refine ⟨page, account, user, hpage, (parseAssociationFilter_ok_iff.mp haccount).2,
      (parseAssociationFilter_ok_iff.mp huser).2, ?_⟩
    exact congrArg (fun tab => accountsView data tab page account user) htab
  · cases h

section

variable {directory : AccountDirectory} {list : List Association} {page : Nat}
  {account user : String}

/-- A page that has associations: those from its start, at most a page of them. -/
theorem paginateAssociations_eq (values : List Association) (page : Nat) :
    paginateAssociations values page =
      ((values.drop ((page - 1) * associationPageSize)).take associationPageSize,
        if 1 < page then page - 1 else 0,
        if (page - 1) * associationPageSize + associationPageSize < values.length then page + 1
        else 0) := by
  unfold paginateAssociations
  dsimp only
  generalize (page - 1) * associationPageSize = start
  split
  · next h =>
    have hlast : ¬ start + associationPageSize < values.length := by omega
    rw [List.drop_eq_nil_of_le h, List.take_nil, if_neg hlast]
    split <;> rfl
  · next h =>
    split
    · next hlast =>
      have hlast' : ¬ start + associationPageSize < values.length := by omega
      have htake : (values.drop start).take (values.length - start) =
          (values.drop start).take associationPageSize := by
        rw [List.take_of_length_le (by simp),
          List.take_of_length_le (by rw [List.length_drop]; omega)]
      rw [htake, if_neg (lt_irrefl values.length), if_neg hlast']
    · rw [Nat.add_sub_cancel_left]

theorem accountsView_associations :
    (accountsView ⟨some directory, some list⟩ .associations page account user).associations =
      ((filterAssociations list account user).drop ((page - 1) * associationPageSize)).take
        associationPageSize := by
  simp [accountsView, paginateAssociations_eq]

theorem associationPagePath_eq_nil {page : Nat} {account user : String} :
    associationPagePath page account user = [] ↔ page = 0 := by
  unfold associationPagePath
  split
  · next h => simp [h]
  · next h => simp [h, ascii]

theorem accountsView_showsAssociations :
    (accountsView ⟨some directory, some list⟩ .associations page account user).showsAssociations =
      true := by
  simp [AccountsView.showsAssociations, accountsView]

theorem accountsView_previousLink :
    (accountsView ⟨some directory, some list⟩ .associations page account user).previousLink =
      if 1 < page then some (associationPagePath (page - 1) account user) else none := by
  have hpath : (accountsView ⟨some directory, some list⟩ .associations page account
      user).associationPreviousPath =
        associationPagePath (if 1 < page then page - 1 else 0) account user := by
    simp [accountsView, paginateAssociations_eq]
  unfold AccountsView.previousLink
  rw [accountsView_showsAssociations, hpath]
  by_cases h : 1 < page
  · simp [h, associationPagePath_eq_nil, Nat.sub_ne_zero_of_lt h]
  · simp [h, associationPagePath_eq_nil]

theorem accountsView_nextLink (hpage : 1 ≤ page) :
    (accountsView ⟨some directory, some list⟩ .associations page account user).nextLink =
      if page * associationPageSize < (filterAssociations list account user).length then
        some (associationPagePath (page + 1) account user)
      else none := by
  have hstop : (page - 1) * associationPageSize + associationPageSize =
      page * associationPageSize := by
    rw [← Nat.succ_mul, Nat.succ_eq_add_one, Nat.sub_add_cancel hpage]
  have hpath : (accountsView ⟨some directory, some list⟩ .associations page account
      user).associationNextPath = associationPagePath
        (if page * associationPageSize < (filterAssociations list account user).length then page + 1
          else 0) account user := by
    simp [accountsView, paginateAssociations_eq, hstop]
  unfold AccountsView.nextLink
  rw [accountsView_showsAssociations, hpath]
  by_cases h : page * associationPageSize < (filterAssociations list account user).length
  · simp [h, associationPagePath_eq_nil]
  · simp [h, associationPagePath_eq_nil]

/-! ## The walk -/

/-- The pages from one on: as many as it takes to show what is left, and no page behind the
    hundredth. -/
theorem walk_from (haccount : FilterText account) (huser : FilterText user)
    (hlength : (filterAssociations list account user).length ≤ 10000) (fuel : Nat)
    {page : AssociationPage} (hfuel : fuel + page.val = 101) {query : List UInt8}
    (hquery : slurmAccounts ⟨some directory, some list⟩ query =
      .ok (accountsView ⟨some directory, some list⟩ .associations page account user)) :
    ∃ count, 1 ≤ count ∧ page.val + count ≤ 101 ∧
      walk ⟨some directory, some list⟩ fuel query =
        some ((List.range' page.val count).map fun p =>
          accountsView ⟨some directory, some list⟩ .associations p account user) ∧
      ((List.range' page.val count).flatMap fun p => (accountsView ⟨some directory, some list⟩
        .associations p account user).associations) =
          (filterAssociations list account user).drop ((page.val - 1) * associationPageSize) := by
  induction fuel generalizing page query with
  | zero =>
    have hhigh : page.val ≤ 100 := page.2.2
    omega
  | succ fuel ih =>
    have hlow := page.2.1
    have hstop : page.val * associationPageSize = page.val * 100 := rfl
    have hstart : (page.val - 1) * associationPageSize = (page.val - 1) * 100 := rfl
    rw [walk, hquery]
    dsimp only
    rw [accountsView_nextLink hlow]
    by_cases hnext : page.val * associationPageSize < (filterAssociations list account user).length
    · -- there is more to show, so this is not the hundredth page
      have hmore : page.val + 1 ≤ maxAssociationPages := by
        show page.val + 1 ≤ 100
        omega
      let next : AssociationPage := ⟨page.val + 1, by omega, hmore⟩
      have hval : next.val = page.val + 1 := rfl
      have hnextQuery := slurmAccounts_of_requests ⟨some directory, some list⟩
        (requests_pagePath next haccount huser)
      obtain ⟨count, hcount, hlast, hwalk, hshown⟩ := ih (by omega) hnextQuery
      refine ⟨count + 1, by omega, by omega, ?_, ?_⟩
      · rw [if_pos hnext]
        dsimp only
        rw [hwalk, List.range'_succ, List.map_cons]
        rfl
      · have hsize : (page.val - 1) * associationPageSize + associationPageSize =
            page.val * associationPageSize := by
          show (page.val - 1) * associationPageSize + 100 = _
          omega
        rw [List.range'_succ, List.flatMap_cons, hshown, accountsView_associations]
        show _ ++ (filterAssociations list account user).drop (page.val * associationPageSize) = _
        rw [← hsize, ← List.drop_drop, List.take_append_drop]
    · have hhigh : page.val ≤ 100 := page.2.2
      refine ⟨1, le_refl 1, by omega, ?_, ?_⟩
      · rw [if_neg hnext]
        rfl
      · rw [List.range'_one, List.flatMap_singleton, accountsView_associations,
          List.take_of_length_le]
        rw [List.length_drop]
        show _ ≤ 100
        omega

/-- A link whose parameters are read again, with the same filters. -/
def LinkAccepted (account user : String) (href : List UInt8) : Prop :=
  ∃ page, Requests (queryOf href) page account user

end

theorem parseAssociationRecords_length {records : List AssociationRecord} {list : List Association}
    (h : parseAssociationRecords records = .ok list) : list.length ≤ 10000 ∧ list.Nodup := by
  obtain ⟨hacceptable, hcanonical⟩ := parseAssociationRecords_ok_iff.mp h
  have hnodup : list.Nodup := hcanonical.sorted.imp fun hlt heq => by
    rw [heq] at hlt
    exact lt_irrefl _ hlt
  have hsub : list ⊆ associationsOf records := fun a ha =>
    mem_associationsOf.mpr ((hcanonical.mem a).mp ha)
  refine ⟨?_, hnodup⟩
  calc list.length ≤ (associationsOf records).length :=
        (List.subperm_of_subset hnodup hsub).length_le
    _ ≤ records.length := List.length_filterMap_le _ _
    _ ≤ 10000 := hacceptable.count

/-- The pages of the associations are complete. From a request for the first page with any filters,
    the next links lead through at most 100 pages, which show every association that matches, once
    and in order. The links of the pages are accepted, with the same filters, and the previous
    link of a page leads to the page before. -/
theorem association_pages_complete {records : List AssociationRecord} {list : List Association}
    (hlist : parseAssociationRecords records = .ok list) (directory : AccountDirectory)
    {query : List UInt8} {first : AccountsView}
    (hfirst : slurmAccounts ⟨some directory, some list⟩ query = .ok first)
    (htab : first.activeTab = .associations)
    (hpage : parseAssociationPage (queryParam query (ascii "association_page")) =
      .ok ⟨1, by decide⟩) :
    ∃ views, walk ⟨some directory, some list⟩ 100 query = some views ∧ views.head? = some first ∧
      views.length ≤ 100 ∧
      views.flatMap AccountsView.associations =
        list.filter (fun a => Matches first.associationAccount first.associationUser a) ∧
      (views.flatMap AccountsView.associations).Nodup ∧
      (∀ view ∈ views, ∀ href, view.previousLink = some href ∨ view.nextLink = some href →
        LinkAccepted first.associationAccount first.associationUser href) ∧
      ∀ i, ∀ h : i + 1 < views.length, ∃ href, views[i + 1].previousLink = some href ∧
        slurmAccounts ⟨some directory, some list⟩ (queryOf href) = .ok views[i] := by
  obtain ⟨page, account, user, hpage', haccount, huser, rfl⟩ := slurmAccounts_ok hfirst htab
  obtain rfl : page = ⟨1, by decide⟩ := Except.ok.inj (hpage'.symm.trans hpage)
  obtain ⟨hlength, hnodup⟩ := parseAssociationRecords_length hlist
  have hfiltered : (filterAssociations list account user).length ≤ 10000 := by
    rw [filterAssociations_eq]
    exact (List.length_filter_le _ _).trans hlength
  obtain ⟨count, hcount, hlast, hwalk, hshown⟩ :=
    walk_from haccount huser hfiltered 100 rfl hfirst
  dsimp only at hlast hwalk hshown
  have hflat : ((List.range' 1 count).map fun p => accountsView ⟨some directory, some list⟩
      .associations p account user).flatMap AccountsView.associations =
        list.filter fun a => Matches account user a := by
    rw [List.flatMap_map, hshown, Nat.sub_self, Nat.zero_mul, List.drop_zero, filterAssociations_eq]
  refine ⟨_, hwalk, ?_, ?_, hflat, ?_, ?_, ?_⟩
  · obtain ⟨more, rfl⟩ := Nat.exists_eq_add_of_le' hcount
    rw [List.range'_succ, List.map_cons, List.head?_cons]
  · rw [List.length_map, List.length_range']
    omega
  · rw [hflat]
    exact hnodup.filter _
  · intro view hview href hlink
    obtain ⟨p, hp, rfl⟩ := List.mem_map.mp hview
    rw [List.mem_range'_1] at hp
    rw [accountsView_previousLink, accountsView_nextLink hp.1] at hlink
    rcases hlink with hlink | hlink
    · split at hlink
      · next hfirst =>
        obtain rfl := Option.some.inj hlink
        exact ⟨_, requests_pagePath ⟨p - 1, by omega, by show p - 1 ≤ 100; omega⟩ haccount huser⟩
      · cases hlink
    · split at hlink
      · next hmore =>
        have hstop : p * associationPageSize = p * 100 := rfl
        obtain rfl := Option.some.inj hlink
        exact ⟨_, requests_pagePath ⟨p + 1, by omega, by show p + 1 ≤ 100; omega⟩ haccount huser⟩
      · cases hlink
  · intro i hi
    rw [List.length_map, List.length_range'] at hi
    have hbefore := slurmAccounts_of_requests ⟨some directory, some list⟩
      (requests_pagePath ⟨i + 1, by omega, by show i + 1 ≤ 100; omega⟩ haccount huser)
    refine ⟨associationPagePath (i + 1) account user, ?_, ?_⟩
    · have hindex : 1 + 1 * (i + 1) - 1 = i + 1 := by omega
      rw [List.getElem_map, List.getElem_range', accountsView_previousLink, if_pos (by omega),
        hindex]
    · have hindex : 1 + 1 * i = i + 1 := by omega
      rw [List.getElem_map, List.getElem_range', hindex]
      exact hbefore

/-- One association, and a request for the associations. -/
theorem association_pages_complete_one : ∃ views,
    walk ⟨some ⟨[], []⟩, some [⟨wrap64 7, "hpc", "lab", "", ""⟩]⟩ 100 (ascii "tab=associations") =
      some views ∧
    views.flatMap AccountsView.associations = [⟨wrap64 7, "hpc", "lab", "", ""⟩] := by
  have hlist : parseAssociationRecords [.ok ⟨⟨true, false, wrap64 7⟩, "hpc", "lab", "", ""⟩] =
      .ok [⟨wrap64 7, "hpc", "lab", "", ""⟩] := by decide +kernel
  have hpage : parseAssociationPage
      (queryParam (ascii "tab=associations") (ascii "association_page")) = .ok ⟨1, by decide⟩ := by
    decide +kernel
  have hrequests : Requests (ascii "tab=associations") ⟨1, by decide⟩ "" "" := by
    refine ⟨by decide +kernel, hpage, ?_, ?_⟩
    · exact parseAssociationFilter_ok_iff.mpr ⟨by decide +kernel, FilterText.empty⟩
    · exact parseAssociationFilter_ok_iff.mpr ⟨by decide +kernel, FilterText.empty⟩
  obtain ⟨views, hwalk, -, -, hshown, -⟩ := association_pages_complete hlist ⟨[], []⟩
    (slurmAccounts_of_requests _ hrequests) rfl hpage
  refine ⟨views, hwalk, ?_⟩
  rw [hshown]
  rfl

/-! ## The links on the names -/

/-- A name that is listed with a link. -/
def ListedName (name : String) : Prop := name ≠ "" ∧ DetailText name

theorem listedName_of_validate {name : String} {texts : List String} (hname : ¬ name = "")
    (h : validateDetailStrings (name :: texts) = .ok ()) : ListedName name :=
  ⟨hname, (validateDetailStrings_ok_iff _).mp h name List.mem_cons_self⟩

theorem listedName_of_account {response : AccountJSON} {accounts : List Account}
    (h : parseAccountsJSON response = .ok accounts) :
    ∀ account ∈ accounts, ListedName account.name := by
  intro account haccount
  unfold parseAccountsJSON at h
  rw [check_eq_ok_iff] at h
  obtain ⟨value, -, hvalue⟩ := mem_of_mapM_ok h.2 haccount
  unfold parseAccount at hvalue
  rw [check_eq_ok_iff] at hvalue
  obtain ⟨hname, hvalue⟩ := hvalue
  split at hvalue
  · cases hvalue
  · next htexts =>
    obtain rfl := Except.ok.inj hvalue
    exact listedName_of_validate hname htexts

theorem listedName_of_user {response : UserJSON} {users : List SlurmUser}
    (h : parseUsersJSON response = .ok users) : ∀ user ∈ users, ListedName user.name := by
  intro user huser
  unfold parseUsersJSON at h
  rw [check_eq_ok_iff] at h
  obtain ⟨value, -, hvalue⟩ := mem_of_mapM_ok h.2 huser
  unfold parseUser at hvalue
  rw [check_eq_ok_iff] at hvalue
  obtain ⟨hname, hvalue⟩ := hvalue
  dsimp only at hvalue
  split at hvalue
  · cases hvalue
  · next htexts =>
    obtain rfl := Except.ok.inj hvalue
    exact listedName_of_validate hname htexts

/-- A listed name is a filter exactly when it is short enough: the texts have the same rule for
    control characters. -/
theorem filterText_iff {name : String} (h : ListedName name) :
    FilterText name ↔ byteLen name ≤ maxAssociationFilterBytes :=
  ⟨fun hfilter => hfilter.length, fun hlength => ⟨hlength, h.2.2⟩⟩

/-- The pairs of the query of a link. -/
theorem queryOf_filterLink {parameter : List UInt8} (hsafe : queryEscape parameter = parameter)
    (name : String) : queryOf (filterLink parameter name) =
      encodePairs [(ascii "tab", ascii "associations"), (parameter, encode name)] := by
  have hpairs : encodePairs [(ascii "tab", ascii "associations"), (parameter, encode name)] =
      ascii "tab=associations&" ++ (parameter ++ 0x3d :: queryEscape (encode name)) := by
    have htab : encodePair (ascii "tab", ascii "associations") ++ [0x26] =
        ascii "tab=associations&" := by decide
    rw [encodePairs, List.map_cons, List.map_cons, List.map_nil, List.intercalate_cons_cons, htab,
      List.intercalate_singleton, encodePair, hsafe]
  have hlink : filterLink parameter name = ascii "/slurm/accounts" ++ 0x3f ::
      (encodePairs [(ascii "tab", ascii "associations"), (parameter, encode name)] ++
        0x23 :: ascii "associations") := by
    have hpath : ascii "/slurm/accounts?tab=associations&" =
        ascii "/slurm/accounts" ++ 0x3f :: ascii "tab=associations&" := by decide
    have hfragment : ascii "#associations" = 0x23 :: ascii "associations" := by decide
    rw [filterLink, hpairs, hpath, hfragment]
    simp
  rw [hlink]
  exact queryOf_append (by decide) (by decide) not_mem_encodePairs

/-- The parameters of a link that has a filter for one of the two. -/
theorem queryParam_filterLink {parameter : List UInt8} (hsafe : queryEscape parameter = parameter)
    (htab : ascii "tab" ≠ parameter) (name : String) :
    queryParam (queryOf (filterLink parameter name)) parameter = encode name ∧
      ∀ other, other ≠ ascii "tab" → other ≠ parameter →
        queryParam (queryOf (filterLink parameter name)) other = [] := by
  rw [queryOf_filterLink hsafe]
  refine ⟨queryParam_of_mem (by simpa using htab) (by simp), fun other hother hother' => ?_⟩
  exact queryParam_of_not_mem (by simp [hother, hother'])

/-- The link on an account's number is accepted, and shows the associations of the account. -/
def AccountLinkWorks (name : String) : Prop :=
  ∃ account user,
    parseAssociationFilter (queryParam (queryOf (accountLink name)) (ascii "association_account")) =
      .ok account ∧
    parseAssociationFilter (queryParam (queryOf (accountLink name)) (ascii "association_user")) =
      .ok user ∧
    ∀ list, filterAssociations list account user = list.filter fun a => a.account = name

/-- The link on a user's number is accepted, and shows the associations of the user. -/
def UserLinkWorks (name : String) : Prop :=
  ∃ account user,
    parseAssociationFilter (queryParam (queryOf (userLink name)) (ascii "association_account")) =
      .ok account ∧
    parseAssociationFilter (queryParam (queryOf (userLink name)) (ascii "association_user")) =
      .ok user ∧
    ∀ list, filterAssociations list account user = list.filter fun a => a.user = name

theorem parseAssociationFilter_empty : parseAssociationFilter [] = .ok "" :=
  parseAssociationFilter_ok_iff.mpr ⟨rfl, FilterText.empty⟩

/-- A text is a filter as itself, or not at all. -/
theorem parseAssociationFilter_encode {name text : String} :
    parseAssociationFilter (encode name) = .ok text ↔ name = text ∧ FilterText name := by
  rw [parseAssociationFilter_ok_iff]
  constructor
  · rintro ⟨hencode, htext⟩
    have hdecode := decode_encode name
    rw [hencode, decode_encode] at hdecode
    obtain rfl := Option.some.inj hdecode
    exact ⟨rfl, htext⟩
  · rintro ⟨rfl, htext⟩
    exact ⟨rfl, htext⟩

theorem accountLinkWorks_iff {name : String} (h : ListedName name) :
    AccountLinkWorks name ↔ byteLen name ≤ maxAssociationFilterBytes := by
  have hsafe : queryEscape (ascii "association_account") = ascii "association_account" := by decide
  obtain ⟨hfilter, hother⟩ := queryParam_filterLink hsafe (by decide) name
  have huser := hother (ascii "association_user") (by decide) (by decide)
  rw [← filterText_iff h]
  unfold AccountLinkWorks accountLink
  rw [hfilter, huser, parseAssociationFilter_empty]
  constructor
  · rintro ⟨account, user, haccount, -⟩
    exact (parseAssociationFilter_encode.mp haccount).2
  · intro htext
    refine ⟨name, "", parseAssociationFilter_encode.mpr ⟨rfl, htext⟩, rfl, fun list => ?_⟩
    rw [filterAssociations_eq]
    exact List.filter_congr fun a _ => by simp [Matches, h.1]

theorem userLinkWorks_iff {name : String} (h : ListedName name) :
    UserLinkWorks name ↔ byteLen name ≤ maxAssociationFilterBytes := by
  have hsafe : queryEscape (ascii "association_user") = ascii "association_user" := by decide
  obtain ⟨hfilter, hother⟩ := queryParam_filterLink hsafe (by decide) name
  have haccount := hother (ascii "association_account") (by decide) (by decide)
  rw [← filterText_iff h]
  unfold UserLinkWorks userLink
  rw [hfilter, haccount, parseAssociationFilter_empty]
  constructor
  · rintro ⟨account, user, -, huser, -⟩
    exact (parseAssociationFilter_encode.mp huser).2
  · intro htext
    refine ⟨"", name, rfl, parseAssociationFilter_encode.mpr ⟨rfl, htext⟩, fun list => ?_⟩
    rw [filterAssociations_eq]
    exact List.filter_congr fun a _ => by simp [Matches, h.1]

/-- The links of the listed names work exactly for the names that a filter takes: names may be
    1024 bytes long, and filters 64. -/
theorem filterLinks_work_iff (accountDocument : AccountJSON) (userDocument : UserJSON) :
    (∀ accounts, parseAccountsJSON accountDocument = .ok accounts → ∀ account ∈ accounts,
      (AccountLinkWorks account.name ↔ byteLen account.name ≤ maxAssociationFilterBytes)) ∧
    ∀ users, parseUsersJSON userDocument = .ok users → ∀ user ∈ users,
      (UserLinkWorks user.name ↔ byteLen user.name ≤ maxAssociationFilterBytes) :=
  ⟨fun _ h account haccount => accountLinkWorks_iff (listedName_of_account h account haccount),
    fun _ h user huser => userLinkWorks_iff (listedName_of_user h user huser)⟩

/-- A name of 66 characters. -/
def longName : String := "a-research-account-with-a-long-descriptive-name-for-a-long-project"

/-- An account with a long name is listed, and its link is a bad request. -/
theorem long_name_link_fails :
    parseAccountsJSON ⟨[], [⟨longName, "", "", 0, []⟩]⟩ = .ok [⟨longName, "", "", 0, 0⟩] ∧
      ¬ AccountLinkWorks longName ∧
      ∀ data, slurmAccounts data (queryOf (accountLink longName)) = .error 400 := by
  have hplain : (longName.toList.all fun c => isControl c = false) = true := by decide
  have hlisted : ListedName longName :=
    ⟨by decide, by decide, fun c hc => of_decide_eq_true (List.all_eq_true.mp hplain c hc)⟩
  have hlong : ¬ FilterText longName := by
    rw [filterText_iff hlisted]
    decide
  have hsafe : queryEscape (ascii "association_account") = ascii "association_account" := by decide
  have hparam : queryParam (queryOf (accountLink longName)) (ascii "association_account") =
      encode longName := (queryParam_filterLink hsafe (by decide) longName).1
  refine ⟨by decide +kernel, ?_, fun data => ?_⟩
  · rw [accountLinkWorks_iff hlisted]
    decide
  · unfold slurmAccounts
    split
    · next haccount _ =>
      rw [hparam] at haccount
      exact absurd (parseAssociationFilter_encode.mp haccount).2 hlong
    · rfl

end OpenHpcWeb.Web
