/-
  The accounts, users and associations of internal/slurm/accounting.go.

  The documents of sacctmgr are modelled from the point where `json.Unmarshal` has decoded them.
  The items of an association list stay raw: a record is what decoding it gives, or its error.

  * `parseAssociationRecords_ok_iff`: when the records are accepted, and the one result.
  * `parseAssociationRecords_canonical`: the order of the records does not matter, nor does a
    record that is there twice.
-/
import Mathlib.Data.Prod.Lex
import Mathlib.Data.String.Basic
import OpenHpcWeb.Cluster.Accounting
import OpenHpcWeb.Go.Sort
import OpenHpcWeb.Go.Strconv
import OpenHpcWeb.Lib.Checks
import OpenHpcWeb.Lib.Unique
import OpenHpcWeb.Slurm.Details

namespace OpenHpcWeb.Slurm

open OpenHpcWeb.Go OpenHpcWeb.Cluster OpenHpcWeb.Lib

/-! ## The documents -/

structure SlurmNumber where
  set : Bool
  infinite : Bool
  number : GoInt

structure AssociationJSON where
  id : SlurmNumber
  cluster : String
  account : String
  user : String
  partition : String

/-- A `json.RawMessage`, as far as it is used: what decoding it gives. -/
abbrev AssociationRecord := Except String AssociationJSON

/-- An account; of its coordinators only the length is read. -/
structure AccountRecord where
  name : String
  description : String
  organization : String
  coordinators : Nat
  associations : List AssociationRecord

structure AccountJSON where
  errors : List String
  accounts : List AccountRecord

structure UserRecord where
  name : String
  administratorLevel : List String
  defaultAccount : String
  defaultWCKey : String
  associations : List AssociationRecord

structure UserJSON where
  errors : List String
  users : List UserRecord

/-! ## Accounts and users -/

def parseAccount (value : AccountRecord) : Except String Account :=
  if value.name = "" then .error "account name is required"
  else
    match validateDetailStrings [value.name, value.description, value.organization] with
    | .error err => .error err
    | .ok () => .ok ⟨value.name, value.description, value.organization, value.coordinators,
        value.associations.length⟩

def parseAccountsJSON (response : AccountJSON) : Except String (List Account) :=
  if 0 < response.errors.length then
    .error ("account JSON reported " ++ response.errors.length.repr ++ " errors")
  else response.accounts.mapM parseAccount

def parseUser (value : UserRecord) : Except String SlurmUser :=
  if value.name = "" then .error "user name is required"
  else
    let adminLevel := join value.administratorLevel ", "
    match validateDetailStrings
      [value.name, adminLevel, value.defaultAccount, value.defaultWCKey] with
    | .error err => .error err
    | .ok () => .ok ⟨value.name, adminLevel, value.defaultAccount, value.defaultWCKey,
        value.associations.length⟩

def parseUsersJSON (response : UserJSON) : Except String (List SlurmUser) :=
  if 0 < response.errors.length then
    .error ("user JSON reported " ++ response.errors.length.repr ++ " errors")
  else response.users.mapM parseUser

/-! ## Associations -/

def maxAssociationRecords : Nat := 10000

/-- The association of a record: the first part of the loop's body. -/
def parseAssociationRecord (record : AssociationRecord) : Except String Association :=
  match record with
  | .error err => .error ("decode association JSON: " ++ err)
  | .ok value =>
    if value.id.set = false ∨ value.id.infinite ∨ value.id.number.val ≤ 0 ∨ value.cluster = "" ∨
        value.account = "" then
      .error "association ID, cluster, and account are required"
    else
      match validateDetailStrings [value.cluster, value.account, value.user, value.partition] with
      | .error err => .error err
      | .ok () =>
        .ok ⟨value.id.number, value.cluster, value.account, value.user, value.partition⟩

/-- The body of the loop over the records. -/
def addAssociation (byID : AList fun _ : GoInt => Association) (record : AssociationRecord) :
    Except String (AList fun _ : GoInt => Association) := do
  let association ← parseAssociationRecord record
  if (byID.lookup association.id).any (· ≠ association) then
    .error ("association ID " ++ formatInt association.id ++ " has conflicting records")
  else .ok (byID.insert association.id association)

/-- The comparison of `sort.Slice`. -/
def associationLess (first second : Association) : Bool :=
  if first.cluster ≠ second.cluster then decide (first.cluster < second.cluster)
  else if first.account ≠ second.account then decide (first.account < second.account)
  else if first.user ≠ second.user then decide (first.user < second.user)
  else if first.partition ≠ second.partition then decide (first.partition < second.partition)
  else decide (first.id.val < second.id.val)

def parseAssociationRecords (records : List AssociationRecord) :
    Except String (List Association) :=
  if maxAssociationRecords < records.length then .error "too many Slurm association records"
  else do
    let byID ← records.foldlM addAssociation ∅
    .ok (sortSlice associationLess (byID.entries.map fun entry => entry.2))

/-- One of the two loops of `validateCombinedAssociationCount`, from the total so far. -/
def addCounts (total : Nat) (counts : List Nat) : Except String Nat :=
  counts.foldlM (fun total count =>
    if maxAssociationRecords < total + count then .error "too many Slurm association records"
    else .ok (total + count)) total

def validateCombinedAssociationCount (accounts : AccountJSON) (users : UserJSON) :
    Except String Unit := do
  let total ← addCounts 0 (accounts.accounts.map fun account => account.associations.length)
  let _ ← addCounts total (users.users.map fun user => user.associations.length)
  .ok ()

/-- The records of both documents. -/
def combinedAssociations (accounts : AccountJSON) (users : UserJSON) : List AssociationRecord :=
  accounts.accounts.flatMap (·.associations) ++ users.users.flatMap (·.associations)

def parseAssociationsJSON (accounts : AccountJSON) (users : UserJSON) :
    Except String (List Association) := do
  validateCombinedAssociationCount accounts users
  parseAssociationRecords (combinedAssociations accounts users)

/-! ## One record -/

/-- What a valid record says of its association. -/
structure RecordOf (value : AssociationJSON) (association : Association) : Prop where
  set : value.id.set = true
  finite : value.id.infinite = false
  positive : 0 < value.id.number.val
  cluster : value.cluster ≠ ""
  account : value.account ≠ ""
  texts : ∀ text ∈ [value.cluster, value.account, value.user, value.partition], DetailText text
  association : association =
    ⟨value.id.number, value.cluster, value.account, value.user, value.partition⟩

/-- A record that is decoded and valid, and its association. -/
def AssociationOf (record : AssociationRecord) (association : Association) : Prop :=
  ∃ value, record = .ok value ∧ RecordOf value association

theorem parseAssociationRecord_ok_iff {record : AssociationRecord} {association : Association} :
    parseAssociationRecord record = .ok association ↔ AssociationOf record association := by
  unfold parseAssociationRecord AssociationOf
  cases record with
  | error err => simp
  | ok value =>
    dsimp only
    rw [check_eq_ok_iff]
    simp only [not_or, Bool.not_eq_false, Bool.not_eq_true, not_le]
    constructor
    · rintro ⟨⟨hset, hfinite, hpositive, hcluster, haccount⟩, h⟩
      split at h
      · cases h
      · next htexts =>
        exact ⟨value, rfl, hset, hfinite, hpositive, hcluster, haccount,
          (validateDetailStrings_ok_iff _).mp htexts, (Except.ok.inj h).symm⟩
    · rintro ⟨_, hvalue, h⟩
      obtain rfl := Except.ok.inj hvalue
      refine ⟨⟨h.set, h.finite, h.positive, h.cluster, h.account⟩, ?_⟩
      rw [(validateDetailStrings_ok_iff _).mpr h.texts, h.association]

/-- A record has one association at most. -/
theorem AssociationOf.unique {record : AssociationRecord} {a b : Association}
    (ha : AssociationOf record a) (hb : AssociationOf record b) : a = b := by
  rw [← parseAssociationRecord_ok_iff] at ha hb
  rw [ha] at hb
  exact Except.ok.inj hb

/-! ## The order -/

/-- The five keys of an association, in the order of their weight. -/
def associationKey (a : Association) : String ×ₗ String ×ₗ String ×ₗ String ×ₗ ℤ :=
  toLex (a.cluster, toLex (a.account, toLex (a.user, toLex (a.partition, a.id.val))))

theorem associationKey_injective : Function.Injective associationKey := by
  intro a b h
  simp only [associationKey, toLex_inj, Prod.mk.injEq] at h
  obtain ⟨hcluster, haccount, huser, hpartition, hid⟩ := h
  exact Association.ext (Subtype.ext hid) hcluster haccount huser hpartition

/-- One comparison of the chain. -/
theorem less_step {κ : Type} [LinearOrder κ] {x y : κ} {rest : Bool} :
    (if x ≠ y then decide (x < y) else rest) = true ↔ x < y ∨ x = y ∧ rest = true := by
  split
  · next hne => simp [hne]
  · next heq => simp [not_not.mp heq]

theorem associationLess_iff (a b : Association) :
    associationLess a b = true ↔ associationKey a < associationKey b := by
  unfold associationLess associationKey
  simp only [less_step, Prod.Lex.toLex_lt_toLex, decide_eq_true_eq]

/-- The sorted associations, strictly sorted where no two are equal. -/
theorem sortSlice_associationLess {l : List Association} (h : l.Nodup) :
    (sortSlice associationLess l).Pairwise fun a b => associationKey a < associationKey b := by
  have hless : associationLess = fun a b => decide (associationKey a < associationKey b) := by
    funext a b
    rw [Bool.eq_iff_iff, associationLess_iff, decide_eq_true_iff]
  rw [hless]
  exact sortSlice_strict associationKey (h.map associationKey_injective)

/-! ## The records -/

/-- The records are decoded and valid, and those of one ID have one association. -/
structure Acceptable (records : List AssociationRecord) : Prop where
  count : records.length ≤ maxAssociationRecords
  valid : ∀ record ∈ records, ∃ association, AssociationOf record association
  consistent : ∀ record ∈ records, ∀ record' ∈ records, ∀ a b, AssociationOf record a →
    AssociationOf record' b → a.id = b.id → a = b

/-- The associations of the records, in the canonical order. -/
structure Canonical (records : List AssociationRecord) (result : List Association) : Prop where
  mem : ∀ a, a ∈ result ↔ ∃ record ∈ records, AssociationOf record a
  sorted : result.Pairwise fun a b => associationKey a < associationKey b

/-- The associations of the records, one for each. -/
def associationsOf (records : List AssociationRecord) : List Association :=
  records.filterMap fun record => (parseAssociationRecord record).toOption

theorem mem_associationsOf {records : List AssociationRecord} {a : Association} :
    a ∈ associationsOf records ↔ ∃ record ∈ records, AssociationOf record a := by
  unfold associationsOf
  rw [List.mem_filterMap]
  refine exists_congr fun record => and_congr_right fun _ => ?_
  rw [← parseAssociationRecord_ok_iff]
  cases parseAssociationRecord record with
  | error err => simp [Except.toOption]
  | ok b => simp [Except.toOption]

theorem associationsOf_concat {records : List AssociationRecord} {record : AssociationRecord}
    {a : Association} (h : AssociationOf record a) :
    associationsOf (records ++ [record]) = associationsOf records ++ [a] := by
  have hone : associationsOf [record] = [a] := by
    unfold associationsOf
    rw [List.filterMap_cons_some (by rw [parseAssociationRecord_ok_iff.mpr h]; rfl)]
    rfl
  rw [← hone]
  exact List.filterMap_append

theorem addAssociation_ok_iff {byID next : AList fun _ : GoInt => Association}
    {record : AssociationRecord} :
    addAssociation byID record = .ok next ↔ ∃ a, AssociationOf record a ∧
      (∀ existing, byID.lookup a.id = some existing → existing = a) ∧
        next = byID.insert a.id a := by
  unfold addAssociation
  rw [bind_eq_ok_iff]
  refine exists_congr fun a => and_congr parseAssociationRecord_ok_iff ?_
  rw [check_eq_ok_iff, Except.ok.injEq, eq_comm (a := next)]
  refine and_congr_left fun _ => ?_
  cases byID.lookup a.id with
  | none => simp
  | some existing => simp

/-- A loop that gets to the end has the associations of valid records. -/
theorem addAssociations_ok {records : List AssociationRecord}
    {byID : AList fun _ : GoInt => Association} (h : records.foldlM addAssociation ∅ = .ok byID) :
    (∀ record ∈ records, ∃ a, AssociationOf record a) ∧
      Unique.Holds Association.id (associationsOf records) byID := by
  refine foldlM_ok_invariant (fun done byID => (∀ record ∈ done, ∃ a, AssociationOf record a) ∧
    Unique.Holds Association.id (associationsOf done) byID) ?_ ⟨by simp, Unique.Holds.nil⟩ h
  rintro done byID record next ⟨hvalid, hholds⟩ hstep
  obtain ⟨a, ha, hfree, rfl⟩ := addAssociation_ok_iff.mp hstep
  constructor
  · intro r hr
    rcases List.mem_append.mp hr with hr | hr
    · exact hvalid r hr
    · exact ⟨a, List.mem_singleton.mp hr ▸ ha⟩
  · rw [associationsOf_concat ha]
    exact hholds.put hfree

/-- Valid records without a conflict take the loop to the end. -/
theorem addAssociations_total {records : List AssociationRecord}
    (hvalid : ∀ record ∈ records, ∃ a, AssociationOf record a)
    (hconsistent : Unique.Consistent Association.id (associationsOf records)) :
    ∃ byID, records.foldlM addAssociation ∅ = .ok byID := by
  have hstep : ∀ done record rest byID, records = done ++ record :: rest →
      Unique.Holds Association.id (associationsOf done) byID →
        ∃ next, addAssociation byID record = .ok next ∧
          Unique.Holds Association.id (associationsOf (done ++ [record])) next := by
    intro done record rest byID hl hholds
    obtain ⟨a, ha⟩ := hvalid record (by rw [hl]; simp)
    have hfree : ∀ existing, byID.lookup a.id = some existing → existing = a := by
      intro existing hexisting
      by_contra hne
      refine Unique.exists_conflict hholds hexisting hne ?_
      rw [← associationsOf_concat ha]
      have hsub : ∀ x ∈ associationsOf (done ++ [record]), x ∈ associationsOf records := by
        intro x hx
        obtain ⟨r, hr, hx⟩ := mem_associationsOf.mp hx
        refine mem_associationsOf.mpr ⟨r, ?_, hx⟩
        rw [hl, List.append_cons]
        exact List.mem_append_left rest hr
      exact fun x hx y hy => hconsistent x (hsub x hx) y (hsub y hy)
    refine ⟨_, addAssociation_ok_iff.mpr ⟨a, ha, hfree, rfl⟩, ?_⟩
    rw [associationsOf_concat ha]
    exact hholds.put hfree
  obtain ⟨byID, hloop, -⟩ := foldlM_total _ hstep Unique.Holds.nil
  exact ⟨byID, hloop⟩

theorem Acceptable.consistent_associationsOf {records : List AssociationRecord}
    (h : Acceptable records) : Unique.Consistent Association.id (associationsOf records) := by
  intro a ha b hb hid
  obtain ⟨record, hrecord, ha⟩ := mem_associationsOf.mp ha
  obtain ⟨record', hrecord', hb⟩ := mem_associationsOf.mp hb
  exact h.consistent record hrecord record' hrecord' a b ha hb hid

/-- There is one canonical result. -/
theorem Canonical.unique {records : List AssociationRecord} {result result' : List Association}
    (h : Canonical records result) (h' : Canonical records result') : result = result' :=
  pairwise_ext (fun _ _ hab hba => lt_asymm hab hba) h.sorted h'.sorted
    fun a => (h.mem a).trans (h'.mem a).symm

/-- The values that the loop collects, sorted. -/
theorem canonical_of_holds {records : List AssociationRecord}
    {byID : AList fun _ : GoInt => Association}
    (h : Unique.Holds Association.id (associationsOf records) byID) :
    Canonical records (sortSlice associationLess (byID.entries.map fun entry => entry.2)) := by
  constructor
  · intro a
    rw [mem_sortSlice, h.mem_values, mem_associationsOf]
  · exact sortSlice_associationLess (List.Nodup.of_map _ h.nodup_keys)

/-- Which records are accepted, and their result. -/
theorem parseAssociationRecords_ok_iff {records : List AssociationRecord}
    {result : List Association} :
    parseAssociationRecords records = .ok result ↔
      Acceptable records ∧ Canonical records result := by
  unfold parseAssociationRecords
  rw [check_eq_ok_iff, bind_eq_ok_iff, not_lt]
  constructor
  · rintro ⟨hcount, byID, hloop, hresult⟩
    obtain rfl := Except.ok.inj hresult
    obtain ⟨hvalid, hholds⟩ := addAssociations_ok hloop
    refine ⟨⟨hcount, hvalid, ?_⟩, canonical_of_holds hholds⟩
    intro record hrecord record' hrecord' a b ha hb hid
    exact hholds.consistent a (mem_associationsOf.mpr ⟨record, hrecord, ha⟩) b
      (mem_associationsOf.mpr ⟨record', hrecord', hb⟩) hid
  · rintro ⟨hacceptable, hcanonical⟩
    obtain ⟨byID, hloop⟩ :=
      addAssociations_total hacceptable.valid hacceptable.consistent_associationsOf
    have hresult := canonical_of_holds (addAssociations_ok hloop).2
    exact ⟨hacceptable.count, byID, hloop, congrArg Except.ok (hresult.unique hcanonical)⟩

/-- Acceptable records have a result. -/
theorem Acceptable.exists_result {records : List AssociationRecord} (h : Acceptable records) :
    ∃ result, parseAssociationRecords records = .ok result := by
  obtain ⟨byID, hloop⟩ := addAssociations_total h.valid h.consistent_associationsOf
  exact ⟨_, parseAssociationRecords_ok_iff.mpr
    ⟨h, canonical_of_holds (addAssociations_ok hloop).2⟩⟩

/-- Only the set of the records matters, and that there are not too many. -/
theorem parseAssociationRecords_congr {records records' : List AssociationRecord}
    (hmem : ∀ record, record ∈ records ↔ record ∈ records')
    (hcount : records.length ≤ maxAssociationRecords ↔ records'.length ≤ maxAssociationRecords)
    (result : List Association) :
    parseAssociationRecords records = .ok result ↔
      parseAssociationRecords records' = .ok result := by
  have hacceptable : Acceptable records ↔ Acceptable records' := by
    constructor
    · intro h
      refine ⟨hcount.mp h.count, fun r hr => h.valid r ((hmem r).mpr hr), ?_⟩
      exact fun r hr r' hr' => h.consistent r ((hmem r).mpr hr) r' ((hmem r').mpr hr')
    · intro h
      refine ⟨hcount.mpr h.count, fun r hr => h.valid r ((hmem r).mp hr), ?_⟩
      exact fun r hr r' hr' => h.consistent r ((hmem r).mp hr) r' ((hmem r').mp hr')
  have hcanonical : Canonical records result ↔ Canonical records' result := by
    constructor
    · intro h
      exact ⟨fun a => by simp only [h.mem a, hmem], h.sorted⟩
    · intro h
      exact ⟨fun a => by simp only [h.mem a, hmem], h.sorted⟩
  rw [parseAssociationRecords_ok_iff, parseAssociationRecords_ok_iff, hacceptable, hcanonical]

/-! ## Both documents -/

theorem addCounts_ok_iff {counts : List Nat} {total n : Nat} (h : total ≤ maxAssociationRecords) :
    addCounts total counts = .ok n ↔
      total + counts.sum ≤ maxAssociationRecords ∧ n = total + counts.sum := by
  unfold addCounts
  induction counts generalizing total with
  | nil =>
    rw [List.foldlM_nil, List.sum_nil]
    constructor
    · intro hok
      exact ⟨h, (Except.ok.inj hok).symm⟩
    · rintro ⟨-, rfl⟩
      rfl
  | cons count counts ih =>
    rw [List.foldlM_cons, bind_eq_ok_iff, List.sum_cons]
    simp only [check_eq_ok_iff, Except.ok.injEq, not_lt]
    constructor
    · rintro ⟨_, ⟨hle, rfl⟩, hrest⟩
      obtain ⟨hsum, rfl⟩ := (ih hle).mp hrest
      exact ⟨by omega, by omega⟩
    · rintro ⟨hsum, rfl⟩
      exact ⟨_, ⟨by omega, rfl⟩, (ih (by omega)).mpr ⟨by omega, by omega⟩⟩

theorem length_combinedAssociations (accounts : AccountJSON) (users : UserJSON) :
    (combinedAssociations accounts users).length =
      (accounts.accounts.map fun account => account.associations.length).sum +
        (users.users.map fun user => user.associations.length).sum := by
  rw [combinedAssociations, List.length_append, List.length_flatMap, List.length_flatMap]

theorem validateCombinedAssociationCount_ok_iff (accounts : AccountJSON) (users : UserJSON) :
    validateCombinedAssociationCount accounts users = .ok () ↔
      (combinedAssociations accounts users).length ≤ maxAssociationRecords := by
  rw [length_combinedAssociations]
  unfold validateCombinedAssociationCount
  simp only [bind_eq_ok_iff, addCounts_ok_iff (Nat.zero_le _)]
  constructor
  · rintro ⟨total, ⟨hle, rfl⟩, n, hn, -⟩
    have h := ((addCounts_ok_iff (by omega)).mp hn).1
    omega
  · intro h
    exact ⟨_, ⟨by omega, rfl⟩, _, (addCounts_ok_iff (by omega)).mpr ⟨by omega, rfl⟩, trivial⟩

/-- The first count accepts what the second one does. -/
theorem parseAssociationsJSON_ok_iff (accounts : AccountJSON) (users : UserJSON)
    (result : List Association) :
    parseAssociationsJSON accounts users = .ok result ↔
      parseAssociationRecords (combinedAssociations accounts users) = .ok result := by
  unfold parseAssociationsJSON
  rw [bind_eq_ok_iff]
  constructor
  · rintro ⟨-, -, h⟩
    exact h
  · intro h
    have hcount := (parseAssociationRecords_ok_iff.mp h).1.count
    exact ⟨(), (validateCombinedAssociationCount_ok_iff accounts users).mpr hcount, h⟩

/-- The records are refused exactly where there are too many, one is not valid, or two of one ID
    differ. Otherwise the result has the associations of the records, one for each ID, in their
    strict order. Neither the order of the records matters, nor in which of the documents they
    are, nor that one is there again. -/
theorem parseAssociationRecords_canonical :
    (∀ records, (∀ result, parseAssociationRecords records ≠ .ok result) ↔
      maxAssociationRecords < records.length ∨
        (∃ record ∈ records, ∀ a, ¬ AssociationOf record a) ∨
        ∃ record ∈ records, ∃ record' ∈ records, ∃ a b, AssociationOf record a ∧
          AssociationOf record' b ∧ a.id = b.id ∧ a ≠ b) ∧
    (∀ records result, parseAssociationRecords records = .ok result →
      (∀ a, a ∈ result ↔ ∃ record ∈ records, AssociationOf record a) ∧
        (result.map Association.id).Nodup ∧
        result.Pairwise fun a b => associationKey a < associationKey b) ∧
    (∀ records records' : List AssociationRecord, records.Perm records' → ∀ result,
      parseAssociationRecords records = .ok result ↔
        parseAssociationRecords records' = .ok result) ∧
    (∀ accounts users accounts' users',
      (combinedAssociations accounts users).Perm (combinedAssociations accounts' users') →
        ∀ result, parseAssociationsJSON accounts users = .ok result ↔
          parseAssociationsJSON accounts' users' = .ok result) ∧
    ∀ records : List AssociationRecord, ∀ record ∈ records,
      records.length < maxAssociationRecords → ∀ result,
        parseAssociationRecords (record :: records) = .ok result ↔
          parseAssociationRecords records = .ok result := by
  have hperm : ∀ records records' : List AssociationRecord, records.Perm records' → ∀ result,
      parseAssociationRecords records = .ok result ↔
        parseAssociationRecords records' = .ok result := by
    intro records records' h
    exact parseAssociationRecords_congr (fun record => h.mem_iff) (by rw [h.length_eq])
  refine ⟨fun records => ?_, fun records result h => ?_, hperm, ?_, ?_⟩
  · constructor
    · intro hfails
      by_contra hno
      simp only [not_or, not_lt, not_exists, not_and, not_forall, not_not] at hno
      obtain ⟨hcount, hvalid, hconsistent⟩ := hno
      have hacceptable : Acceptable records := by
        refine ⟨hcount, fun record hrecord => ?_, fun record hrecord record' hrecord' a b => ?_⟩
        · exact hvalid record hrecord
        · exact hconsistent record hrecord record' hrecord' a b
      obtain ⟨result, hresult⟩ := hacceptable.exists_result
      exact hfails result hresult
    · intro hbad result hresult
      have hacceptable := (parseAssociationRecords_ok_iff.mp hresult).1
      rcases hbad with hcount | ⟨record, hrecord, hinvalid⟩ |
        ⟨r, hr, r', hr', a, b, ha, hb, hid, hne⟩
      · exact absurd hacceptable.count (not_le.mpr hcount)
      · obtain ⟨a, ha⟩ := hacceptable.valid record hrecord
        exact hinvalid a ha
      · exact hne (hacceptable.consistent r hr r' hr' a b ha hb hid)
  · obtain ⟨hacceptable, hcanonical⟩ := parseAssociationRecords_ok_iff.mp h
    refine ⟨hcanonical.mem, ?_, hcanonical.sorted⟩
    -- two associations of one ID would be equal, and the order is strict
    rw [List.nodup_iff_pairwise_ne, List.pairwise_map]
    refine hcanonical.sorted.imp_of_mem fun ha hb hlt hid => ?_
    obtain ⟨record, hrecord, ha⟩ := (hcanonical.mem _).mp ha
    obtain ⟨record', hrecord', hb⟩ := (hcanonical.mem _).mp hb
    have heq := hacceptable.consistent record hrecord record' hrecord' _ _ ha hb hid
    rw [heq] at hlt
    exact lt_irrefl _ hlt
  · intro accounts users accounts' users' h result
    rw [parseAssociationsJSON_ok_iff, parseAssociationsJSON_ok_iff]
    exact hperm _ _ h result
  · intro records record hrecord hlt result
    refine parseAssociationRecords_congr (fun r => ?_) ?_ result
    · rw [List.mem_cons]
      constructor
      · rintro (rfl | hr)
        · exact hrecord
        · exact hr
      · exact .inr
    · rw [List.length_cons]
      constructor <;> intro <;> omega

end OpenHpcWeb.Slurm
