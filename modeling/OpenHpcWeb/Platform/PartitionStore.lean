/-
  What the methods of the partition store do.

  * `upsert_ok`, `upsert_of_accepts`: a save succeeds exactly on an accepted spec
    (`Accepts`), and then it changes one row (`upserted`).
  * `deleteManaged_ok`: a delete removes one managed row.
  * `PartitionStore`: the tables with their invariant; the methods keep it.
  * `partition_store_invariant`: the tables after any calls, with any faults.
-/
import Mathlib.Logic.Function.Basic
import OpenHpcWeb.Platform.PartitionTables

namespace OpenHpcWeb.Platform

open OpenHpcWeb.Go OpenHpcWeb.Lib

variable {t t' : Tables} {name : String} {ns : List String} {now : Time}
  {source : PartitionSource} {faults : Faults} {spec : PartitionSpec}

/-! ## Reading -/

theorem loadPartition_steady (name : String) : (loadPartition name).Steady := by
  refine .bind (.query _ _) fun r => ?_
  cases r with
  | none => exact .pure _
  | some r => exact .bind (.bind (.bind (.query _ _) fun _ => .lift _) fun _ => .pure _) fun _ => .pure _

theorem listPartitions_steady (source : Option PartitionSource) :
    (listPartitions source).Steady := by
  refine .bind (.query _ _) fun records => ?_
  induction records with
  | nil => exact .pure _
  | cons r records ih =>
    exact .bind (.bind (.bind (.query _ _) fun _ => .lift _) fun _ => .pure _) fun _ =>
      .bind ih fun _ => .pure _

/-- `Get` answers with the row of a valid name, or fails. -/
theorem get_ok (h : t.Inv) {found : Option PartitionSpec}
    (hget : Platform.get faults name t = .ok found) :
    validPartitionIdentifier name = true ∧ found = (t.row name).map fun p => p.spec name := by
  unfold Platform.get at hget
  cases hv : validatePartitionName name with
  | error e => rw [hv] at hget; cases hget
  | ok u =>
    rw [hv] at hget
    refine ⟨(validatePartitionName_ok_iff name).mp hv, ?_⟩
    have hok := congrArg Prod.fst (transaction_ok (loadPartition_steady name)
      (show transaction (loadPartition name) faults t = (.ok found, _) from Prod.ext hget rfl))
    unfold transaction at hok
    rw [loadPartition_nil h] at hok
    exact (Except.ok.inj hok).symm

/-! ## Saving -/

/-- The row after an `upsert` of the normalized nodes `ns`. -/
def upserted (now : Time) (source : PartitionSource) (ns : List String) :
    Option StoredPartition → StoredPartition
  | none => ⟨source, ns, now, now⟩
  | some p => if p.nodes = ns then p else { p with nodes := ns, updatedAt := now }

/-- The specs `upsert` accepts. -/
structure Accepts (spec : PartitionSpec) (source : PartitionSource) (t : Tables) : Prop where
  name : validPartitionIdentifier spec.name = true
  nonempty : spec.nodes ≠ []
  nodes : ∀ n ∈ spec.nodes, validPartitionIdentifier (trimSpace n) = true
  unique : (spec.nodes.map trimSpace).Nodup
  source : ∀ p, t.row spec.name = some p → p.source = source

/-- The node list stored for a spec. -/
def storedNodes (spec : PartitionSpec) : List String := sortStrings (spec.nodes.map trimSpace)

theorem upsertTx_steady (now : Time) (name : String) (ns : List String)
    (source : PartitionSource) : (upsertTx now name ns source).Steady := by
  have hinsert : ∀ wrap, (insertNodes wrap name ns).Steady := fun wrap =>
    .forM (fun _ => .exec _ _) _
  refine .bind (.exec _ _) fun _ => .bind (loadPartition_steady name) fun existing => ?_
  cases existing with
  | none =>
    exact .bind (.exec _ _) fun _ => .bind (hinsert _) fun _ => .bind (.exec _ _) fun _ => .pure _
  | some existing =>
    simp only
    split
    · split <;> exact .fail _
    · split
      · exact .bind (.exec _ _) fun _ => .pure _
      · exact .bind (.exec _ _) fun _ =>
          .bind (.bind (.exec _ _) fun _ => hinsert _) fun _ =>
          .bind (.exec _ _) fun _ => .pure _

/-- Storing a new partition: one statement each to begin, look, insert and commit, and one
    for each node. -/
theorem upsertTx_new (h : t.Inv) (hno : t.row name = none) (hns : ns.Nodup) :
    Tx.Runs (upsertTx now name ns source) t (ns.length + 4)
      ⟨⟨name, ns, decide (source = .managed), now, now⟩, true, false, ⟨[], []⟩⟩
      (t.inserted name ⟨source, ns, now, now⟩) := by
  have hinsert : Tables.insertPartition ⟨name, source, now, now⟩ t =
      .ok { t with partitions := t.partitions ++ [⟨name, source, now, now⟩] } := by
    unfold Tables.insertPartition
    rw [if_neg (row_eq_none_iff.mp hno)]
  have hnodes := insertNodes_runs "save partition: insert partition node" name
    { t with partitions := t.partitions ++ [⟨name, source, now, now⟩] } (by simp) hns
    (noRows_of_absent h hno)
  have hload : Tx.Runs (loadPartition name) t 1 none t := by
    have hsel : t.selectPartition name = none := by rw [selectPartition_eq, hno]; rfl
    have hquery := Tx.Runs.query "read partition" (fun t : Tables => t.selectPartition name) t
    unfold loadPartition
    rw [show (1 : Nat) = 1 + 0 from rfl]
    refine Tx.Runs.bind hquery ?_
    rw [hsel]
    exact .pure none t
  have hlen : ns.length + 4 = 1 + (1 + (1 + (ns.length + (1 + 0)))) := by omega
  rw [hlen]
  unfold upsertTx
  refine Tx.Runs.bind (.exec rfl) (Tx.Runs.bind hload ?_)
  exact .bind (.exec hinsert) (.bind hnodes (.bind (.exec rfl) (.pure _ _)))

theorem upsertTx_conflict (h : t.Inv) {p : StoredPartition} (hp : t.row name = some p)
    (hne : p.source ≠ source) : upsertTx now name ns source t [] =
      .error (if source = .managed then "partition " ++ name ++ " is read-only"
        else "partition " ++ name ++ " is already managed by the platform") := by
  have hmanaged : decide (p.source = .managed) ≠ decide (source = .managed) := by
    revert hne
    cases p.source <;> cases source <;> simp
  unfold upsertTx begin
  simp only [Tx.bind_apply, Tx.exec_nil, loadPartition_nil h, hp, Option.map_some,
    StoredPartition.spec]
  rw [if_pos hmanaged]
  cases source <;> rfl

theorem upsertTx_same (h : t.Inv) {p : StoredPartition} (hp : t.row name = some p)
    (hsrc : p.source = source) (hns : p.nodes = ns) : upsertTx now name ns source t [] =
      .ok (⟨p.spec name, false, false, ⟨[], []⟩⟩, t, []) := by
  subst hsrc hns
  have hsorted := (row_ok h hp).2.sorted
  unfold upsertTx begin
  simp only [Tx.bind_apply, Tx.exec_nil, loadPartition_nil h, hp, Option.map_some,
    StoredPartition.spec]
  rw [if_neg (fun hne => hne rfl), if_pos ((diffPartitionNodes_eq_nil_iff hsorted hsorted).mpr rfl)]
  rfl

theorem upsertTx_changed (h : t.Inv) {p : StoredPartition} (hp : t.row name = some p)
    (hsrc : p.source = source) (hns : NodesOk ns) (hne : p.nodes ≠ ns) :
    upsertTx now name ns source t [] =
      .ok (⟨⟨name, ns, decide (source = .managed), p.createdAt, now⟩, false, true,
        ⟨(diffPartitionNodes p.nodes ns).1, (diffPartitionNodes p.nodes ns).2⟩⟩,
        t.replaced name source now ns, []) := by
  subst hsrc
  have hsorted := (row_ok h hp).2.sorted
  have hdiff : ¬((diffPartitionNodes p.nodes ns).1 = [] ∧ (diffPartitionNodes p.nodes ns).2 = []) := by
    rw [diffPartitionNodes_eq_nil_iff hsorted hns.sorted]
    exact hne
  set cleared : Tables :=
    { partitions := t.partitions.map fun r =>
        if r.name = name then { r with source := p.source, updatedAt := now } else r
      nodes := t.nodes.filter fun n => n.partitionName ≠ name } with hcleared
  have hmem : name ∈ cleared.partitions.map PartitionRow.name := by
    rw [show cleared.partitions.map PartitionRow.name = t.partitions.map PartitionRow.name from
      names_replaced name p.source now ns]
    by_contra hno
    rw [row_eq_none_iff.mpr hno] at hp
    cases hp
  have hnodes := (insertNodes_runs "save partition: add partition node" name cleared hmem
    hns.nodup fun n hn => by simpa using (List.mem_filter.mp hn).2).nil
  unfold upsertTx begin
  simp only [Tx.bind_apply, Tx.exec_nil, loadPartition_nil h, hp, Option.map_some,
    StoredPartition.spec]
  rw [if_neg (fun hne => hne rfl), if_neg hdiff]
  simp only [Tx.bind_apply, Tx.exec_nil, Tables.updatePartition, replacePartitionNodes,
    Tables.deleteNodes, ← hcleared, hnodes, commit, Tx.pure_apply]
  rfl

/-- A successful save: the spec was accepted, the invariant is kept and one row is set. -/
structure Saved (now : Time) (spec : PartitionSpec) (source : PartitionSource) (t : Tables)
    (change : PartitionChange) (t' : Tables) : Prop where
  accepts : Accepts spec source t
  inv : t'.Inv
  row : t'.row = Function.update t.row spec.name
    (some (upserted now source (storedNodes spec) (t.row spec.name)))
  created : change.created = decide (t.row spec.name = none)
  updated : change.updated = decide (∃ p, t.row spec.name = some p ∧ p.nodes ≠ storedNodes spec)

/-- A spec that passes the checks gets to the transaction. -/
theorem upsert_eq (now : Time) (faults : Faults) (source : PartitionSource) (t : Tables)
    (hname : validPartitionIdentifier spec.name = true) (hne : spec.nodes ≠ [])
    (hnodes : ∀ n ∈ spec.nodes, validPartitionIdentifier (trimSpace n) = true)
    (hunique : (spec.nodes.map trimSpace).Nodup) : upsert now faults spec source t =
      transaction (upsertTx now spec.name (storedNodes spec) source) faults t := by
  unfold upsert
  rw [(validatePartitionName_ok_iff _).mpr hname]
  simp only
  rw [if_neg hne, (normalizePartitionNodes_ok_iff _ _).mpr ⟨hnodes, hunique, rfl⟩]
  rfl

/-- A spec passes the checks, or it is refused before the transaction. -/
theorem upsert_cases (now : Time) (faults : Faults) (spec : PartitionSpec)
    (source : PartitionSource) (t : Tables) :
    (∃ e, upsert now faults spec source t = (.error e, t)) ∨
    (validPartitionIdentifier spec.name = true ∧ spec.nodes ≠ [] ∧
      (∀ n ∈ spec.nodes, validPartitionIdentifier (trimSpace n) = true) ∧
      (spec.nodes.map trimSpace).Nodup) := by
  unfold upsert
  cases hv : validatePartitionName spec.name with
  | error e => exact Or.inl ⟨e, rfl⟩
  | ok u =>
    simp only
    split
    · exact Or.inl ⟨_, rfl⟩
    · next hne =>
      cases hnorm : normalizePartitionNodes spec.nodes with
      | error e => exact Or.inl ⟨e, rfl⟩
      | ok ns =>
        obtain ⟨hnodes, hunique, -⟩ := (normalizePartitionNodes_ok_iff _ _).mp hnorm
        exact Or.inr ⟨(validatePartitionName_ok_iff _).mp hv, hne, hnodes, hunique⟩

theorem nodesOk_storedNodes (ha : Accepts spec source t) : NodesOk (storedNodes spec) :=
  nodesOk_of_normalize ha.nonempty
    ((normalizePartitionNodes_ok_iff _ _).mpr ⟨ha.nodes, ha.unique, rfl⟩)

/-- Without faults a save of an accepted spec succeeds. -/
theorem upsert_of_accepts (now : Time) (h : t.Inv) (ha : Accepts spec source t) :
    ∃ change t', upsert now [] spec source t = (.ok change, t') ∧
      Saved now spec source t change t' := by
  have hns := nodesOk_storedNodes ha
  rw [upsert_eq now [] source t ha.name ha.nonempty ha.nodes ha.unique]
  unfold transaction
  cases hp : t.row spec.name with
  | none =>
    rw [(upsertTx_new h hp hns.nodup).nil]
    refine ⟨_, _, rfl, ha, inv_inserted h ha.name hp hns, ?_, ?_, ?_⟩
    · rw [row_inserted h hp, hp]
      rfl
    · simp [hp]
    · simp [hp]
  | some p =>
    have hsrc := ha.source p hp
    by_cases hsame : p.nodes = storedNodes spec
    · rw [upsertTx_same h hp hsrc hsame]
      refine ⟨_, _, rfl, ha, h, ?_, ?_, ?_⟩
      · rw [hp, upserted, if_pos hsame, ← hp, Function.update_eq_self]
      · simp [hp]
      · simp [hp, hsame]
    · rw [upsertTx_changed h hp hsrc hns hsame]
      have hne : t.row spec.name ≠ none := by
        rw [hp]
        exact Option.some_ne_none p
      refine ⟨_, _, rfl, ha, inv_replaced h source now hne hns, ?_, ?_, ?_⟩
      · rw [← hsrc, row_replaced now hp, hp, upserted, if_neg hsame]
      · simp [hp]
      · simp [hp, hsame]

/-- A save that succeeds, whatever the faults, has done what it does without faults. -/
theorem upsert_ok (h : t.Inv) {change : PartitionChange}
    (hup : upsert now faults spec source t = (.ok change, t')) :
    Saved now spec source t change t' := by
  rcases upsert_cases now faults spec source t with ⟨e, he⟩ | ⟨hname, hne, hnodes, hunique⟩
  · rw [he] at hup
    cases hup
  · rw [upsert_eq now faults source t hname hne hnodes hunique] at hup
    have hnil := transaction_ok (upsertTx_steady _ _ _ _) hup
    have ha : Accepts spec source t := by
      refine ⟨hname, hne, hnodes, hunique, fun p hp => ?_⟩
      by_contra hsrc
      unfold transaction at hnil
      rw [upsertTx_conflict h hp hsrc] at hnil
      cases hnil
    obtain ⟨change', t'', hup', hsaved⟩ := upsert_of_accepts now h ha
    rw [upsert_eq now [] source t hname hne hnodes hunique, hnil] at hup'
    cases hup'
    exact hsaved

/-- A new partition is stored exactly when its statements are spared. -/
theorem upsert_absent_isOk_iff (now : Time) (faults : Faults) (h : t.Inv) (ha : Accepts spec source t)
    (hno : t.row spec.name = none) :
    (∃ change, (upsert now faults spec source t).1 = .ok change) ↔
      Tx.Spared (spec.nodes.length + 4) faults := by
  have hlen : (storedNodes spec).length = spec.nodes.length := by
    rw [storedNodes, (sortStrings_perm _).length_eq, List.length_map]
  rw [upsert_eq now faults source t ha.name ha.nonempty ha.nodes ha.unique, ← hlen]
  exact transaction_isOk_iff (upsertTx_new h hno (nodesOk_storedNodes ha).nodup)

/-- A save that fails leaves the tables as they were. -/
theorem upsert_error {e : String} (hup : upsert now faults spec source t = (.error e, t')) :
    t' = t := by
  rcases upsert_cases now faults spec source t with ⟨e', he⟩ | ⟨hname, hne, hnodes, hunique⟩
  · rw [he] at hup
    cases hup
    rfl
  · rw [upsert_eq now faults source t hname hne hnodes hunique] at hup
    exact transaction_error hup

theorem inv_upsert (h : t.Inv) : (upsert now faults spec source t).2.Inv := by
  cases hup : upsert now faults spec source t with
  | mk result t' =>
    cases result with
    | error e => rw [upsert_error hup]; exact h
    | ok change => exact (upsert_ok h hup).inv

/-- A save that succeeds, in terms of the rows. -/
theorem upsert_row {change : PartitionChange} (h : t.Inv)
    (hup : (upsert now faults spec source t).1 = .ok change) : Accepts spec source t ∧
    (upsert now faults spec source t).2.row = Function.update t.row spec.name
      (some (upserted now source (storedNodes spec) (t.row spec.name))) := by
  have hsaved := upsert_ok h (show upsert now faults spec source t =
    (.ok change, (upsert now faults spec source t).2) from Prod.ext hup rfl)
  exact ⟨hsaved.accepts, hsaved.row⟩

theorem upsert_row_error {e : String} (hup : (upsert now faults spec source t).1 = .error e) :
    (upsert now faults spec source t).2.row = t.row :=
  congrArg Tables.row (upsert_error (show upsert now faults spec source t =
    (.error e, (upsert now faults spec source t).2) from Prod.ext hup rfl))

/-! ## Deleting -/

theorem deleteManagedTx_steady (name : String) : (deleteManagedTx name).Steady := by
  refine .bind (.exec _ _) fun _ => .bind (loadPartition_steady name) fun existing => ?_
  cases existing with
  | none => exact .pure _
  | some existing =>
    simp only
    split
    · exact .fail _
    · exact .bind (.exec _ _) fun _ => .exec _ _

/-- A delete without faults: a managed row goes, an absent one stays absent, a system row
    is refused. -/
theorem deleteManaged_nil (h : t.Inv) (hname : validPartitionIdentifier name = true) :
    deleteManaged [] name t =
      match t.row name with
      | none => (.ok (), t)
      | some p =>
        if p.source = .managed then (.ok (), t.deleted name)
        else (.error ("partition " ++ name ++ " is read-only"), t) := by
  unfold deleteManaged transaction
  rw [(validatePartitionName_ok_iff _).mpr hname]
  unfold deleteManagedTx begin
  simp only [Tx.bind_apply, Tx.exec_nil, loadPartition_nil h]
  cases hp : t.row name with
  | none => rfl
  | some p =>
    cases hs : p.source with
    | managed =>
      simp only [Option.map_some, StoredPartition.spec, hs, decide_true]
      rfl
    | system =>
      simp only [Option.map_some, StoredPartition.spec, hs]
      rfl

theorem deleteManaged_error {e : String} (hdel : deleteManaged faults name t = (.error e, t')) :
    t' = t := by
  unfold deleteManaged at hdel
  split at hdel
  · cases hdel; rfl
  · exact transaction_error hdel

/-- A delete that succeeds: the partition was not a system one, and its row is gone. -/
theorem deleteManaged_ok (h : t.Inv) (hdel : deleteManaged faults name t = (.ok (), t')) :
    t'.Inv ∧ (∀ p, t.row name = some p → p.source = .managed) ∧
      t'.row = Function.update t.row name none := by
  have hname : validPartitionIdentifier name = true := by
    rw [← validatePartitionName_ok_iff]
    unfold deleteManaged at hdel
    split at hdel
    · cases hdel
    · next hv => exact hv
  have hnil : deleteManaged [] name t = (.ok (), t') := by
    unfold deleteManaged at hdel ⊢
    rw [(validatePartitionName_ok_iff _).mpr hname] at hdel ⊢
    exact transaction_ok (deleteManagedTx_steady name) hdel
  rw [deleteManaged_nil h hname] at hnil
  cases hp : t.row name with
  | none =>
    rw [hp] at hnil
    cases hnil
    refine ⟨h, fun p hp' => (nomatch hp'), ?_⟩
    rw [← hp, Function.update_eq_self]
  | some p =>
    simp only [hp] at hnil
    split at hnil
    · next hs =>
      cases hnil
      refine ⟨inv_deleted h name, fun p' hp' => ?_, row_deleted name⟩
      cases hp'
      exact hs
    · cases hnil

theorem inv_deleteManaged (h : t.Inv) : (deleteManaged faults name t).2.Inv := by
  cases hdel : deleteManaged faults name t with
  | mk result t' =>
    cases result with
    | error e => rw [deleteManaged_error hdel]; exact h
    | ok u => exact (deleteManaged_ok h hdel).1

/-! ## The store -/

/-- The tables of a reachable store. -/
structure PartitionStore where
  tables : Tables
  inv : tables.Inv

namespace PartitionStore

/-- The store of a new database. -/
def empty : PartitionStore := ⟨.empty, Tables.inv_empty⟩

/-- The partition stored under a name. -/
def row (s : PartitionStore) : String → Option StoredPartition := s.tables.row

/-- `PartitionStore.Upsert`. -/
def upsert (s : PartitionStore) (now : Time) (faults : Faults) (spec : PartitionSpec) :
    Except String PartitionChange × PartitionStore :=
  ((upsertManaged now faults spec s.tables).1,
    ⟨(upsertManaged now faults spec s.tables).2, inv_upsert s.inv⟩)

/-- `PartitionStore.ImportSystem`. -/
def importSystem (s : PartitionStore) (now : Time) (faults : Faults) (spec : PartitionSpec) :
    Except String PartitionChange × PartitionStore :=
  ((Platform.importSystem now faults spec s.tables).1,
    ⟨(Platform.importSystem now faults spec s.tables).2, inv_upsert s.inv⟩)

/-- `PartitionStore.DeleteManaged`. -/
def deleteManaged (s : PartitionStore) (faults : Faults) (name : String) :
    Except String Unit × PartitionStore :=
  ((Platform.deleteManaged faults name s.tables).1,
    ⟨(Platform.deleteManaged faults name s.tables).2, inv_deleteManaged s.inv⟩)

/-- `PartitionStore.Get`. -/
def get (s : PartitionStore) (faults : Faults) (name : String) :
    Except String (Option PartitionSpec) :=
  Platform.get faults name s.tables

/-- `PartitionStore.ListSystem`. -/
def listSystem (s : PartitionStore) (faults : Faults) : Except String (List PartitionSpec) :=
  Platform.listSystem faults s.tables

/-- `PartitionStore.ListManaged`. -/
def listManaged (s : PartitionStore) (faults : Faults) : Except String (List PartitionSpec) :=
  Platform.listManaged faults s.tables

theorem upsert_ok {s : PartitionStore} {change : PartitionChange}
    (h : (s.upsert now faults spec).1 = .ok change) : Accepts spec .managed s.tables ∧
    (s.upsert now faults spec).2.row = Function.update s.row spec.name
      (some (upserted now .managed (storedNodes spec) (s.row spec.name))) :=
  upsert_row s.inv h

theorem upsert_error {s : PartitionStore} {e : String}
    (h : (s.upsert now faults spec).1 = .error e) : (s.upsert now faults spec).2.row = s.row :=
  upsert_row_error h

/-- A delete that succeeds, in terms of the rows. -/
theorem deleteManaged_ok {s : PartitionStore} (h : (s.deleteManaged faults name).1 = .ok ()) :
    (∀ p, s.row name = some p → p.source = .managed) ∧
    (s.deleteManaged faults name).2.row = Function.update s.row name none :=
  (Platform.deleteManaged_ok s.inv (Prod.ext h rfl)).2

theorem deleteManaged_error {s : PartitionStore} {e : String}
    (h : (s.deleteManaged faults name).1 = .error e) :
    (s.deleteManaged faults name).2.row = s.row :=
  congrArg Tables.row (Platform.deleteManaged_error (show Platform.deleteManaged faults name
    s.tables = (.error e, (Platform.deleteManaged faults name s.tables).2) from Prod.ext h rfl))

/-- Without faults `ListManaged` gives the managed rows, ordered by name. -/
theorem listManaged_nil (s : PartitionStore) : ∃ specs, s.listManaged [] = .ok specs ∧
    (specs.map PartitionSpec.name).Pairwise (· < ·) ∧
    ∀ spec, spec ∈ specs ↔ ∃ p, s.row spec.name = some p ∧ p.source = .managed ∧
      spec = p.spec spec.name := by
  obtain ⟨specs, hlist, hrest⟩ := listPartitions_nil s.inv .managed
  refine ⟨specs, ?_, hrest⟩
  unfold PartitionStore.listManaged Platform.listManaged transaction
  rw [hlist]

/-- A list that `ListManaged` gives under faults is the one it gives without. -/
theorem listManaged_ok {s : PartitionStore} {specs : List PartitionSpec}
    (h : s.listManaged faults = .ok specs) : s.listManaged [] = .ok specs :=
  congrArg Prod.fst (transaction_ok (listPartitions_steady _)
    (show transaction (listPartitions (some .managed)) faults s.tables = (.ok specs, _) from
      Prod.ext h rfl))

theorem importSystem_ok {s : PartitionStore} {change : PartitionChange}
    (h : (s.importSystem now faults spec).1 = .ok change) : Accepts spec .system s.tables ∧
    (s.importSystem now faults spec).2.row = Function.update s.row spec.name
      (some (upserted now .system (storedNodes spec) (s.row spec.name))) :=
  upsert_row s.inv h

theorem importSystem_error {s : PartitionStore} {e : String}
    (h : (s.importSystem now faults spec).1 = .error e) :
    (s.importSystem now faults spec).2.row = s.row :=
  upsert_row_error h

/-- Without faults the specs `ImportSystem` rejects are those it does not accept. -/
theorem importSystem_isOk_iff (s : PartitionStore) (now : Time) (spec : PartitionSpec) :
    (∃ change, (s.importSystem now [] spec).1 = .ok change) ↔ Accepts spec .system s.tables := by
  constructor
  · rintro ⟨change, h⟩
    exact (importSystem_ok h).1
  · intro ha
    obtain ⟨change, t', hup, -⟩ := upsert_of_accepts now s.inv ha
    exact ⟨change, congrArg Prod.fst hup⟩

end PartitionStore

@[simp] theorem upserted_nodes (p : Option StoredPartition) :
    (upserted now source ns p).nodes = ns := by
  cases p with
  | none => rfl
  | some q =>
    unfold upserted
    simp only
    split
    · next h => exact h
    · rfl

/-! ## Runs -/

/-- One call of a writing method, with its clock reading and the faults it meets. -/
inductive Call where
  | upsert (now : Time) (faults : Faults) (spec : PartitionSpec)
  | importSystem (now : Time) (faults : Faults) (spec : PartitionSpec)
  | deleteManaged (faults : Faults) (name : String)

/-- The partition a call is about. -/
def Call.partition : Call → String
  | .upsert _ _ spec => spec.name
  | .importSystem _ _ spec => spec.name
  | .deleteManaged _ name => name

/-- The error a call returns, if any, and the tables after it. -/
def Call.run (t : Tables) : Call → Except String Unit × Tables
  | .upsert now faults spec =>
    ((upsertManaged now faults spec t).1.map fun _ => (), (upsertManaged now faults spec t).2)
  | .importSystem now faults spec =>
    ((Platform.importSystem now faults spec t).1.map fun _ => (),
      (Platform.importSystem now faults spec t).2)
  | .deleteManaged faults name => Platform.deleteManaged faults name t

/-- The tables after a sequence of calls. -/
def runCalls (t : Tables) (calls : List Call) : Tables :=
  calls.foldl (fun t call => (call.run t).2) t

/-- The source of the rows a call may write. -/
def Call.writes : Call → PartitionSource
  | .importSystem _ _ _ => .system
  | _ => .managed

/-- What one call may do to the tables. -/
structure CallOk (call : Call) (t : Tables) : Prop where
  inv : (call.run t).2.Inv
  /-- a row keeps its source -/
  source : ∀ name p p', t.row name = some p → (call.run t).2.row name = some p' →
    p'.source = p.source
  /-- rows of the other source are neither created, altered nor removed -/
  foreign : ∀ name p, p.source ≠ call.writes →
    ((call.run t).2.row name = some p ↔ t.row name = some p)
  frame : ∀ name, name ≠ call.partition → (call.run t).2.row name = t.row name
  error : ∀ e, (call.run t).1 = .error e → (call.run t).2 = t

theorem upserted_source {p : Option StoredPartition} (h : ∀ q, p = some q → q.source = source) :
    (upserted now source ns p).source = source := by
  cases p with
  | none => rfl
  | some q =>
    unfold upserted
    simp only
    split
    · exact h q rfl
    · exact h q rfl

/-- An update of one row, absent or of source `source`, to a row of that source or to none. -/
theorem update_ok {row : String → Option StoredPartition} (name : String)
    (new : Option StoredPartition) (hold : ∀ p, row name = some p → p.source = source)
    (hnew : ∀ p, new = some p → p.source = source) :
    (∀ q p p', row q = some p → Function.update row name new q = some p' →
      p'.source = p.source) ∧
    (∀ q p, p.source ≠ source → (Function.update row name new q = some p ↔ row q = some p)) ∧
    ∀ q, q ≠ name → Function.update row name new q = row q := by
  have hne : ∀ q, q ≠ name → Function.update row name new q = row q :=
    fun q hq => Function.update_of_ne hq new row
  refine ⟨fun q p p' hp hp' => ?_, fun q p hsrc => ?_, hne⟩
  · by_cases hq : q = name
    · subst hq
      rw [Function.update_self] at hp'
      rw [hold p hp, hnew p' hp']
    · rw [hne q hq, hp] at hp'
      cases hp'
      rfl
  · by_cases hq : q = name
    · subst hq
      rw [Function.update_self]
      exact ⟨fun h => absurd (hnew p h) hsrc, fun h => absurd (hold p h) hsrc⟩
    · rw [hne q hq]

theorem callOk_of_eq {call : Call} (h : t.Inv) (heq : (call.run t).2 = t) : CallOk call t where
  inv := by rw [heq]; exact h
  source name p p' hp hp' := by
    rw [heq, hp] at hp'
    cases hp'
    rfl
  foreign name p _ := by rw [heq]
  frame name _ := by rw [heq]
  error _ _ := heq

theorem upsert_callOk {call : Call} (h : t.Inv) (hwrites : call.writes = source)
    (hname : call.partition = spec.name)
    (hrun : call.run t =
      ((upsert now faults spec source t).1.map fun _ => (), (upsert now faults spec source t).2)) :
    CallOk call t := by
  cases hup : upsert now faults spec source t with
  | mk result t' =>
    rw [hup] at hrun
    cases result with
    | error e =>
      obtain rfl := upsert_error hup
      exact callOk_of_eq h (by rw [hrun])
    | ok change =>
      have hsaved := upsert_ok h hup
      have hnew : ∀ p, some (upserted now source (storedNodes spec) (t.row spec.name)) = some p →
          p.source = source := fun p hp => by
        cases hp
        exact upserted_source hsaved.accepts.source
      obtain ⟨hsource, hforeign, hframe⟩ := update_ok spec.name _ hsaved.accepts.source hnew
      refine ⟨by rw [hrun]; exact hsaved.inv, ?_, ?_, ?_, fun e he => ?_⟩
      · rw [hrun, hsaved.row]; exact hsource
      · rw [hrun, hsaved.row, hwrites]; exact hforeign
      · rw [hrun, hsaved.row, hname]; exact hframe
      · rw [hrun] at he; cases he

theorem call_ok (h : t.Inv) (call : Call) : CallOk call t := by
  cases call with
  | upsert now faults spec => exact upsert_callOk h rfl rfl rfl
  | importSystem now faults spec => exact upsert_callOk h rfl rfl rfl
  | deleteManaged faults name =>
    cases hdel : Platform.deleteManaged faults name t with
    | mk result t' =>
      have hrun : (Call.deleteManaged faults name).run t = (result, t') := hdel
      cases result with
      | error e =>
        obtain rfl := deleteManaged_error hdel
        exact callOk_of_eq h (by rw [hrun])
      | ok u =>
        obtain ⟨hinv, hsrc, hrow⟩ := deleteManaged_ok h hdel
        obtain ⟨hsource, hforeign, hframe⟩ := update_ok name none hsrc fun p hp => (nomatch hp)
        refine ⟨by rw [hrun]; exact hinv, ?_, ?_, ?_, fun e he => ?_⟩
        · rw [hrun, hrow]; exact hsource
        · rw [hrun, hrow]; exact hforeign
        · rw [hrun, hrow]; exact hframe
        · rw [hrun] at he; cases he

theorem inv_runCalls (h : t.Inv) (calls : List Call) : (runCalls t calls).Inv :=
  List.foldlRecOn calls _ h fun _ ht call _ => (call_ok ht call).inv

/-- A row keeps its source for as long as it exists. -/
theorem runCalls_source (h : t.Inv) {calls : List Call} {p p' : StoredPartition}
    (hp : t.row name = some p) (hthere : ∀ k, (runCalls t (calls.take k)).row name ≠ none)
    (hp' : (runCalls t calls).row name = some p') : p'.source = p.source := by
  induction calls generalizing t p with
  | nil =>
    have hp' : t.row name = some p' := hp'
    rw [hp] at hp'
    cases hp'
    rfl
  | cons call calls ih =>
    have hcall := call_ok h call
    obtain ⟨p₁, hp₁⟩ := Option.ne_none_iff_exists'.mp (hthere 1)
    have hp₁ : (call.run t).2.row name = some p₁ := by simpa [runCalls] using hp₁
    rw [ih hcall.inv hp₁ (fun k => hthere (k + 1)) hp']
    exact hcall.source name p p₁ hp hp₁

/-- Whatever calls are made on a new store, and whatever statements fail, the tables are in
    step, every call keeps to its own partition and its own kind of rows, and a call that
    fails changes nothing. -/
theorem partition_store_invariant (calls : List Call) :
    ((runCalls .empty calls).partitions.map PartitionRow.name).Nodup ∧
    (∀ r ∈ (runCalls .empty calls).partitions, validPartitionIdentifier r.name = true ∧
      NodesOk ((runCalls .empty calls).selectNodes r.name) ∧
      ((runCalls .empty calls).selectNodes r.name).Nodup) ∧
    (∀ n ∈ (runCalls .empty calls).nodes,
      n.partitionName ∈ (runCalls .empty calls).partitions.map PartitionRow.name) ∧
    (∀ call, CallOk call (runCalls .empty calls) ∧ ∀ name, name ≠ call.partition →
      (call.run (runCalls .empty calls)).2.selectPartition name =
        (runCalls .empty calls).selectPartition name ∧
      (call.run (runCalls .empty calls)).2.nodeRows name =
        (runCalls .empty calls).nodeRows name) ∧
    ∀ later name p p', (runCalls .empty calls).row name = some p →
      (∀ k, (runCalls (runCalls .empty calls) (later.take k)).row name ≠ none) →
      (runCalls (runCalls .empty calls) later).row name = some p' → p'.source = p.source := by
  have h : (runCalls .empty calls).Inv := inv_runCalls Tables.inv_empty calls
  refine ⟨h.unique, fun r hr => ?_, h.child, fun call => ?_, fun later name p p' hp hthere hp' => ?_⟩
  · obtain ⟨ns, hns, hrows⟩ := h.nodes r hr
    rw [selectNodes_of_rows hrows]
    exact ⟨h.valid r hr, hns, hns.nodup⟩
  · have hcall := call_ok h call
    refine ⟨hcall, fun name hname => ?_⟩
    have hrow := hcall.frame name hname
    rw [selectPartition_eq, selectPartition_eq, nodeRows_eq hcall.inv, nodeRows_eq h, hrow]
    exact ⟨rfl, rfl⟩
  · exact runCalls_source h hp hthere hp'

end OpenHpcWeb.Platform
