/-
  The tables of the partition store.

  * `NodesOk`: the node lists the store keeps, and `normalizePartitionNodes_ok_iff` for
    the lists it accepts.
  * `Tables.Inv`: what holds of the tables of every reachable store.
  * `Tables.row`: one partition as the tables have it. This is the abstract store: a map
    from names to partitions, and each kind of write is an update of it at one name
    (`row_inserted`, `row_replaced`, `row_deleted`).
-/
import OpenHpcWeb.Platform.Partitions

namespace OpenHpcWeb.Platform

open OpenHpcWeb.Go OpenHpcWeb.Lib

/-! ## Names and node lists -/

/-- The node lists the store keeps: not empty, strictly sorted, of valid names. -/
structure NodesOk (nodes : List String) : Prop where
  ne_nil : nodes ≠ []
  sorted : nodes.Pairwise (· < ·)
  valid : ∀ n ∈ nodes, validPartitionIdentifier n = true

theorem NodesOk.nodup {nodes : List String} (h : NodesOk nodes) : nodes.Nodup :=
  h.sorted.imp ne_of_lt

theorem trimSpace_of_valid {value : String} (h : validPartitionIdentifier value = true) :
    trimSpace value = value := by
  unfold validPartitionIdentifier at h
  split at h
  · cases h
  · next hno =>
    by_contra hne
    exact hno (Or.inr (Or.inr (Or.inr (Or.inr hne))))

theorem validatePartitionName_ok_iff (name : String) :
    validatePartitionName name = .ok () ↔ validPartitionIdentifier name = true := by
  unfold validatePartitionName
  split
  · next hv => exact ⟨fun _ => hv, fun _ => rfl⟩
  · next hv => exact ⟨fun h => (nomatch h), fun h => absurd h hv⟩

theorem normalizeNode_ok_iff (acc : List String) (node : String) (acc' : List String) :
    normalizeNode acc node = .ok acc' ↔ validPartitionIdentifier (trimSpace node) = true ∧
      trimSpace node ∉ acc ∧ acc' = acc ++ [trimSpace node] := by
  unfold normalizeNode validatePartitionNodeName
  split
  · next hv =>
    simp only [bind, Except.bind, hv, true_and]
    split
    · next hmem => simp [hmem]
    · next hmem => simp [hmem, pure, Except.pure, eq_comm]
  · next hv => simp [bind, Except.bind, hv]

theorem foldlM_normalizeNode_ok_iff (nodes acc acc' : List String) (hacc : acc.Nodup) :
    nodes.foldlM normalizeNode acc = .ok acc' ↔
      (∀ n ∈ nodes, validPartitionIdentifier (trimSpace n) = true) ∧
      (acc ++ nodes.map trimSpace).Nodup ∧ acc' = acc ++ nodes.map trimSpace := by
  induction nodes generalizing acc with
  | nil =>
    rw [List.foldlM_nil, List.map_nil, List.append_nil]
    constructor
    · intro h
      cases h
      exact ⟨fun _ hn => (nomatch hn), hacc, rfl⟩
    · rintro ⟨-, -, rfl⟩
      rfl
  | cons node nodes ih =>
    have happ : acc ++ (node :: nodes).map trimSpace =
        (acc ++ [trimSpace node]) ++ nodes.map trimSpace := by simp
    rw [List.foldlM_cons, happ, List.forall_mem_cons]
    cases hn : normalizeNode acc node with
    | error e =>
      constructor
      · intro h; cases h
      · rintro ⟨⟨hv, -⟩, hnd, -⟩
        have hmem : trimSpace node ∉ acc := by
          have := (List.nodup_append'.mp hnd).1
          simpa using (List.nodup_append'.mp this).2.2
        rw [(normalizeNode_ok_iff acc node _).mpr ⟨hv, hmem, rfl⟩] at hn
        cases hn
    | ok acc₁ =>
      obtain ⟨hv, hmem, rfl⟩ := (normalizeNode_ok_iff acc node acc₁).mp hn
      have hacc₁ : (acc ++ [trimSpace node]).Nodup :=
        hacc.append (List.nodup_singleton _) (by simpa using hmem)
      show nodes.foldlM normalizeNode (acc ++ [trimSpace node]) = .ok acc' ↔ _
      rw [ih _ hacc₁]
      simp [hv]

theorem normalizePartitionNodes_ok_iff (nodes ns : List String) :
    normalizePartitionNodes nodes = .ok ns ↔
      (∀ n ∈ nodes, validPartitionIdentifier (trimSpace n) = true) ∧
      (nodes.map trimSpace).Nodup ∧ ns = sortStrings (nodes.map trimSpace) := by
  unfold normalizePartitionNodes
  cases hf : nodes.foldlM normalizeNode [] with
  | error e =>
    constructor
    · intro h; cases h
    · rintro ⟨hv, hnd, -⟩
      rw [(foldlM_normalizeNode_ok_iff nodes [] _ List.nodup_nil).mpr ⟨hv, hnd, rfl⟩] at hf
      cases hf
  | ok acc =>
    obtain ⟨hv, hnd, rfl⟩ := (foldlM_normalizeNode_ok_iff nodes [] acc List.nodup_nil).mp hf
    rw [List.nil_append] at hnd ⊢
    constructor
    · intro h
      cases h
      exact ⟨hv, hnd, rfl⟩
    · rintro ⟨-, -, rfl⟩
      rfl

theorem nodesOk_of_normalize {nodes ns : List String} (hne : nodes ≠ [])
    (h : normalizePartitionNodes nodes = .ok ns) : NodesOk ns := by
  obtain ⟨hv, hnd, rfl⟩ := (normalizePartitionNodes_ok_iff nodes ns).mp h
  refine ⟨fun hnil => hne ?_, sortStrings_strict hnd, fun n hn => ?_⟩
  · have hlen := (sortStrings_perm (nodes.map trimSpace)).length_eq
    rw [hnil] at hlen
    simpa [eq_comm] using hlen
  · obtain ⟨m, hm, rfl⟩ := List.mem_map.mp (mem_sortStrings.mp hn)
    exact hv m hm

/-- The store reads back the node lists it keeps. -/
theorem normalizePartitionNodes_of_ok {ns : List String} (h : NodesOk ns) :
    normalizePartitionNodes ns = .ok ns := by
  have hmap : ns.map trimSpace = ns := by
    refine (List.map_congr_left fun n hn => ?_).trans (List.map_id ns)
    exact trimSpace_of_valid (h.valid n hn)
  rw [normalizePartitionNodes_ok_iff, hmap]
  refine ⟨fun n hn => ?_, h.nodup, (sortStrings_of_strict h.sorted).symm⟩
  rw [trimSpace_of_valid (h.valid n hn)]
  exact h.valid n hn

theorem diffPartitionNodes_eq_nil_iff {existing desired : List String}
    (he : existing.Pairwise (· < ·)) (hd : desired.Pairwise (· < ·)) :
    ((diffPartitionNodes existing desired).1 = [] ∧ (diffPartitionNodes existing desired).2 = []) ↔
      existing = desired := by
  simp only [diffPartitionNodes, List.filter_eq_nil_iff, decide_eq_true_eq, not_not]
  constructor
  · rintro ⟨hadd, hrem⟩
    exact strict_ext he hd fun s => ⟨hrem s, hadd s⟩
  · rintro rfl
    exact ⟨fun _ h => h, fun _ h => h⟩

/-! ## The tables of a store -/

/-- The node rows that hold `ns`. -/
def rowsOf (name : String) (ns : List String) : List NodeRow :=
  ns.zipIdx.map fun n => ⟨name, n.1, n.2⟩

namespace Tables

/-- What holds of the tables of every reachable store. -/
structure Inv (t : Tables) : Prop where
  unique : (t.partitions.map PartitionRow.name).Nodup
  valid : ∀ r ∈ t.partitions, validPartitionIdentifier r.name = true
  nodes : ∀ r ∈ t.partitions, ∃ ns, NodesOk ns ∧ t.nodeRows r.name = rowsOf r.name ns
  child : ∀ n ∈ t.nodes, n.partitionName ∈ t.partitions.map PartitionRow.name

theorem inv_empty : Inv empty where
  unique := List.nodup_nil
  valid _ h := nomatch h
  nodes _ h := nomatch h
  child _ h := nomatch h

end Tables

/-- One partition as the tables have it. -/
structure StoredPartition where
  source : PartitionSource
  nodes : List String
  createdAt : Time
  updatedAt : Time
  deriving DecidableEq

def StoredPartition.spec (p : StoredPartition) (name : String) : PartitionSpec :=
  ⟨name, p.nodes, decide (p.source = .managed), p.createdAt, p.updatedAt⟩

@[simp] theorem StoredPartition.spec_name (p : StoredPartition) (name : String) :
    (p.spec name).name = name := rfl

def Tables.row (t : Tables) (name : String) : Option StoredPartition :=
  (t.selectPartition name).map fun r => ⟨r.source, t.selectNodes name, r.createdAt, r.updatedAt⟩

theorem zipIdx_pairwise (ns : List String) (k : Nat) :
    (ns.zipIdx k).Pairwise fun a b => a.2 < b.2 := by
  induction ns generalizing k with
  | nil => exact List.Pairwise.nil
  | cons n ns ih =>
    rw [List.zipIdx_cons, List.pairwise_cons]
    refine ⟨fun x hx => ?_, ih (k + 1)⟩
    have := List.le_snd_of_mem_zipIdx hx
    simp only
    omega

/-- Reading the node rows of `ns` in order gives `ns`. -/
theorem selectNodes_of_rows {t : Tables} {name : String} {ns : List String}
    (h : t.nodeRows name = rowsOf name ns) : t.selectNodes name = ns := by
  unfold Tables.selectNodes
  rw [h, List.Pairwise.insertionSort_eq]
  · simp [rowsOf, Function.comp_def]
  · refine List.pairwise_map.mpr ((zipIdx_pairwise ns 0).imp fun hab => ?_)
    exact Or.inl hab

theorem selectPartition_some {t : Tables} {name : String} {r : PartitionRow}
    (h : t.selectPartition name = some r) : r ∈ t.partitions ∧ r.name = name := by
  unfold Tables.selectPartition at h
  exact ⟨List.mem_of_find?_eq_some h, by simpa using List.find?_some h⟩

theorem selectPartition_eq_none_iff {t : Tables} {name : String} :
    t.selectPartition name = none ↔ name ∉ t.partitions.map PartitionRow.name := by
  simp [Tables.selectPartition]

theorem row_eq_none_iff {t : Tables} {name : String} :
    t.row name = none ↔ name ∉ t.partitions.map PartitionRow.name := by
  rw [← selectPartition_eq_none_iff, Tables.row, Option.map_eq_none_iff]

/-- A stored partition has a valid name and a node list in the store's form. -/
theorem row_ok {t : Tables} (h : t.Inv) {name : String} {p : StoredPartition}
    (hp : t.row name = some p) : validPartitionIdentifier name = true ∧ NodesOk p.nodes := by
  obtain ⟨r, hr, rfl⟩ := Option.map_eq_some_iff.mp hp
  obtain ⟨hmem, rfl⟩ := selectPartition_some hr
  obtain ⟨ns, hns, hrows⟩ := h.nodes r hmem
  refine ⟨h.valid r hmem, ?_⟩
  show NodesOk (t.selectNodes r.name)
  rw [selectNodes_of_rows hrows]
  exact hns

/-- The two tables hold nothing about a partition but its row. -/
theorem selectPartition_eq (t : Tables) (name : String) : t.selectPartition name =
    (t.row name).map fun p => ⟨name, p.source, p.createdAt, p.updatedAt⟩ := by
  unfold Tables.row
  cases hs : t.selectPartition name with
  | none => rfl
  | some r =>
    obtain ⟨-, rfl⟩ := selectPartition_some hs
    rfl

theorem nodeRows_eq {t : Tables} (h : t.Inv) (name : String) : t.nodeRows name =
    ((t.row name).map fun p => rowsOf name p.nodes).getD [] := by
  cases hs : t.selectPartition name with
  | none =>
    have hno : name ∉ t.partitions.map PartitionRow.name := selectPartition_eq_none_iff.mp hs
    rw [row_eq_none_iff.mpr hno, Option.map_none, Option.getD_none]
    refine List.filter_eq_nil_iff.mpr fun n hn hname => hno ?_
    simp only [decide_eq_true_eq] at hname
    rw [← hname]
    exact h.child n hn
  | some r =>
    obtain ⟨hmem, rfl⟩ := selectPartition_some hs
    obtain ⟨ns, -, hrows⟩ := h.nodes r hmem
    simp [Tables.row, hs, selectNodes_of_rows hrows, hrows]

theorem selectPartition_of_mem {t : Tables} (h : t.Inv) {r : PartitionRow}
    (hr : r ∈ t.partitions) : t.selectPartition r.name = some r := by
  cases hs : t.selectPartition r.name with
  | none => exact absurd (List.mem_map.mpr ⟨r, hr, rfl⟩) (selectPartition_eq_none_iff.mp hs)
  | some r' =>
    obtain ⟨hmem, hname⟩ := selectPartition_some hs
    rw [List.inj_on_of_nodup_map h.unique hmem hr hname]

/-- The row of a partition as the loading functions report it. -/
def Tables.specOf (t : Tables) (r : PartitionRow) : PartitionSpec :=
  ⟨r.name, t.selectNodes r.name, decide (r.source = .managed), r.createdAt, r.updatedAt⟩

theorem loadPartitionByMetadata_nil {t : Tables} (h : t.Inv) {r : PartitionRow}
    (hr : r ∈ t.partitions) : loadPartitionByMetadata r t [] = .ok (t.specOf r, t, []) := by
  obtain ⟨ns, hns, hrows⟩ := h.nodes r hr
  simp [loadPartitionByMetadata, partitionNodes, Tx.bind_apply, Tx.query_nil, Tx.lift,
    Tx.pure_apply, selectNodes_of_rows hrows, normalizePartitionNodes_of_ok hns, Tables.specOf]

/-- Loading a partition of a store gives its row. -/
theorem loadPartition_nil {t : Tables} (h : t.Inv) (name : String) :
    loadPartition name t [] = .ok ((t.row name).map fun p => p.spec name, t, []) := by
  unfold loadPartition
  rw [Tx.bind_apply, Tx.query_nil]
  cases hr : t.selectPartition name with
  | none => simp [Tx.pure_apply, Tables.row, hr]
  | some r =>
    obtain ⟨hmem, rfl⟩ := selectPartition_some hr
    simp [Tx.bind_apply, loadPartitionByMetadata_nil h hmem, Tx.pure_apply, Tables.row, hr,
      StoredPartition.spec, Tables.specOf]

theorem loadPartitions_nil {t : Tables} (h : t.Inv) {records : List PartitionRow}
    (hrecords : ∀ r ∈ records, r ∈ t.partitions) :
    loadPartitions records t [] = .ok (records.map t.specOf, t, []) := by
  induction records with
  | nil => rfl
  | cons r records ih =>
    rw [List.forall_mem_cons] at hrecords
    unfold loadPartitions
    rw [Tx.bind_apply, loadPartitionByMetadata_nil h hrecords.1]
    simp only
    rw [Tx.bind_apply, ih hrecords.2]
    rfl

/-- The partitions of one source, ordered by name. -/
theorem listPartitions_nil {t : Tables} (h : t.Inv) (source : PartitionSource) :
    ∃ specs, listPartitions (some source) t [] = .ok (specs, t, []) ∧
      (specs.map PartitionSpec.name).Pairwise (· < ·) ∧
      ∀ spec, spec ∈ specs ↔ ∃ p, t.row spec.name = some p ∧ p.source = source ∧
        spec = p.spec spec.name := by
  set records := t.selectPartitions (some source) with hrecords
  have hmem : ∀ r, r ∈ records ↔ r ∈ t.partitions ∧ source = r.source := by
    intro r
    rw [hrecords, Tables.selectPartitions, List.mem_insertionSort, List.mem_filter]
    simp
  have hload := loadPartitions_nil h fun r hr => ((hmem r).mp hr).1
  refine ⟨records.map t.specOf, ?_, ?_, fun spec => ?_⟩
  · unfold listPartitions
    rw [Tx.bind_apply, Tx.query_nil]
    exact hload
  · have hnames : (records.map t.specOf).map PartitionSpec.name = records.map PartitionRow.name := by
      rw [List.map_map]
      rfl
    set filtered := t.partitions.filter fun r => some source = none ∨ some source = some r.source
    have hperm : records.Perm filtered := List.perm_insertionSort _ _
    have hnd : (records.map PartitionRow.name).Nodup :=
      (hperm.map _).nodup_iff.mpr (h.unique.sublist (List.filter_sublist.map _))
    have hle : records.Pairwise fun a b => a.name ≤ b.name := List.pairwise_insertionSort _ _
    rw [hnames]
    exact (List.pairwise_map.mpr hle).imp₂ (fun _ _ hle hne => lt_of_le_of_ne hle hne) hnd
  · rw [List.mem_map]
    constructor
    · rintro ⟨r, hr, rfl⟩
      obtain ⟨hrt, hsrc⟩ := (hmem r).mp hr
      have hrow : t.row r.name =
          some ⟨r.source, t.selectNodes r.name, r.createdAt, r.updatedAt⟩ := by
        rw [Tables.row, selectPartition_of_mem h hrt]
        rfl
      exact ⟨_, hrow, hsrc.symm, rfl⟩
    · rintro ⟨p, hp, hsrc, hspec⟩
      obtain ⟨r, hr, rfl⟩ := Option.map_eq_some_iff.mp hp
      obtain ⟨hrt, hname⟩ := selectPartition_some hr
      refine ⟨r, (hmem r).mpr ⟨hrt, hsrc.symm⟩, ?_⟩
      rw [hspec, ← hname]
      rfl

/-! ## Writes -/

namespace Tables

def inserted (t : Tables) (name : String) (p : StoredPartition) : Tables where
  partitions := t.partitions ++ [⟨name, p.source, p.createdAt, p.updatedAt⟩]
  nodes := t.nodes ++ rowsOf name p.nodes

def replaced (t : Tables) (name : String) (source : PartitionSource) (now : Time)
    (ns : List String) : Tables where
  partitions := t.partitions.map fun r =>
    if r.name = name then { r with source := source, updatedAt := now } else r
  nodes := (t.nodes.filter fun n => n.partitionName ≠ name) ++ rowsOf name ns

def deleted (t : Tables) (name : String) : Tables where
  partitions := t.partitions.filter fun r => r.name ≠ name
  nodes := t.nodes.filter fun n => n.partitionName ≠ name

end Tables

/-- The loop of inserts goes through when the partition is there and none of the nodes is. -/
theorem forM_insertNode (wrap name : String) (l : List (String × Nat)) (t : Tables)
    (hp : name ∈ t.partitions.map PartitionRow.name) (hnd : (l.map Prod.fst).Nodup)
    (hfresh : ∀ x ∈ l, ∀ n ∈ t.nodes, n.partitionName = name → n.nodeName ≠ x.1) :
    Tx.Runs (l.forM fun n => Tx.exec wrap (Tables.insertNode ⟨name, n.1, n.2⟩)) t l.length ()
      { t with nodes := t.nodes ++ l.map fun n => ⟨name, n.1, n.2⟩ } := by
  induction l generalizing t with
  | nil =>
    rw [List.map_nil, List.append_nil]
    exact .pure () t
  | cons x l ih =>
    have hins : Tables.insertNode ⟨name, x.1, x.2⟩ t =
        .ok { t with nodes := t.nodes ++ [⟨name, x.1, x.2⟩] } := by
      unfold Tables.insertNode
      rw [if_neg, if_neg]
      · exact fun hno => hno hp
      · rintro ⟨n, hn, hpn, hnn⟩
        exact hfresh x List.mem_cons_self n hn hpn hnn
    rw [List.map_cons, List.nodup_cons] at hnd
    have hrest := ih { t with nodes := t.nodes ++ [⟨name, x.1, x.2⟩] } hp hnd.2 (by
      intro y hy n hn hpn
      rcases List.mem_append.mp hn with hn | hn
      · exact hfresh y (List.mem_cons_of_mem _ hy) n hn hpn
      · rw [List.mem_singleton.mp hn]
        intro hxy
        exact hnd.1 (List.mem_map.mpr ⟨y, hy, hxy.symm⟩))
    rw [List.length_cons, Nat.add_comm, List.map_cons, List.append_cons]
    exact .bind (.exec hins) hrest

theorem insertNodes_runs (wrap name : String) {ns : List String} (t : Tables)
    (hp : name ∈ t.partitions.map PartitionRow.name) (hnd : ns.Nodup)
    (hfresh : ∀ n ∈ t.nodes, n.partitionName ≠ name) :
    Tx.Runs (insertNodes wrap name ns) t ns.length ()
      { t with nodes := t.nodes ++ rowsOf name ns } := by
  have hloop := forM_insertNode wrap name ns.zipIdx t hp (by rw [List.zipIdx_map_fst]; exact hnd)
    fun x _ n hn hpn => absurd hpn (hfresh n hn)
  rw [List.length_zipIdx] at hloop
  exact hloop

theorem mem_rowsOf {name : String} {ns : List String} {n : NodeRow} (h : n ∈ rowsOf name ns) :
    n.partitionName = name := by
  obtain ⟨x, -, rfl⟩ := List.mem_map.mp h
  rfl

theorem filter_rowsOf (name q : String) (ns : List String) :
    (rowsOf name ns).filter (fun n => n.partitionName = q) =
      if name = q then rowsOf name ns else [] := by
  split
  · next h =>
    rw [List.filter_eq_self]
    intro n hn
    simpa [mem_rowsOf hn] using h
  · next h =>
    rw [List.filter_eq_nil_iff]
    intro n hn
    simpa [mem_rowsOf hn] using h

/-! ### The tables after each kind of write -/

section Written

variable {t : Tables}

theorem row_congr {t t' : Tables} {q : String} (hsel : t'.selectPartition q = t.selectPartition q)
    (hnodes : t'.nodeRows q = t.nodeRows q) : t'.row q = t.row q := by
  simp only [Tables.row, Tables.selectNodes, hsel, hnodes]

theorem noRows_of_absent (h : t.Inv) {name : String} (hno : t.row name = none) :
    ∀ n ∈ t.nodes, n.partitionName ≠ name := by
  rintro n hn rfl
  exact row_eq_none_iff.mp hno (h.child n hn)

theorem nodeRows_inserted (h : t.Inv) {name : String} (hno : t.row name = none)
    (p : StoredPartition) (q : String) : (t.inserted name p).nodeRows q =
      if q = name then rowsOf name p.nodes else t.nodeRows q := by
  unfold Tables.nodeRows Tables.inserted
  rw [List.filter_append, filter_rowsOf]
  by_cases hq : q = name
  · subst hq
    rw [if_pos rfl, if_pos rfl, List.filter_eq_nil_iff.mpr, List.nil_append]
    intro n hn
    simpa using noRows_of_absent h hno n hn
  · rw [if_neg (Ne.symm hq), if_neg hq, List.append_nil]

theorem inv_inserted (h : t.Inv) {name : String} (hname : validPartitionIdentifier name = true)
    (hno : t.row name = none) {p : StoredPartition} (hp : NodesOk p.nodes) :
    (t.inserted name p).Inv where
  unique := by
    have hmem := row_eq_none_iff.mp hno
    simp only [Tables.inserted, List.map_append]
    exact h.unique.append (List.nodup_singleton _) (by simpa using hmem)
  valid r hr := by
    rcases List.mem_append.mp hr with hr | hr
    · exact h.valid r hr
    · rw [List.mem_singleton.mp hr]; exact hname
  nodes r hr := by
    rw [nodeRows_inserted h hno p]
    rcases List.mem_append.mp hr with hr | hr
    · rw [if_neg]
      · exact h.nodes r hr
      · intro hrn
        exact row_eq_none_iff.mp hno (List.mem_map.mpr ⟨r, hr, hrn⟩)
    · rw [List.mem_singleton.mp hr, if_pos rfl]
      exact ⟨p.nodes, hp, rfl⟩
  child n hn := by
    simp only [Tables.inserted, List.map_append, List.mem_append]
    rcases List.mem_append.mp hn with hn | hn
    · exact Or.inl (h.child n hn)
    · exact Or.inr (by simp [mem_rowsOf hn])

theorem row_inserted (h : t.Inv) {name : String} (hno : t.row name = none) (p : StoredPartition) :
    (t.inserted name p).row = Function.update t.row name (some p) := by
  funext q
  by_cases hq : q = name
  · subst hq
    rw [Function.update_self]
    have hsel : (t.inserted q p).selectPartition q =
        some ⟨q, p.source, p.createdAt, p.updatedAt⟩ := by
      have hnone : t.selectPartition q = none := by
        rw [selectPartition_eq_none_iff]; exact row_eq_none_iff.mp hno
      unfold Tables.selectPartition Tables.inserted at *
      rw [List.find?_append, hnone]
      simp
    have hrows := nodeRows_inserted h hno p q
    rw [if_pos rfl] at hrows
    simp [Tables.row, hsel, selectNodes_of_rows hrows]
  · rw [Function.update_of_ne hq]
    refine row_congr ?_ (by rw [nodeRows_inserted h hno p q, if_neg hq])
    unfold Tables.selectPartition Tables.inserted
    rw [List.find?_append]
    simp [Ne.symm hq]

theorem nodeRows_replaced (name : String) (source : PartitionSource) (now : Time)
    (ns : List String) (q : String) : (t.replaced name source now ns).nodeRows q =
      if q = name then rowsOf name ns else t.nodeRows q := by
  unfold Tables.nodeRows Tables.replaced
  rw [List.filter_append, filter_rowsOf, List.filter_filter]
  by_cases hq : q = name
  · subst hq
    rw [if_pos rfl, if_pos rfl, List.filter_eq_nil_iff.mpr, List.nil_append]
    intro n _
    simp
  · rw [if_neg (Ne.symm hq), if_neg hq, List.append_nil]
    refine List.filter_congr fun n _ => ?_
    by_cases hn : n.partitionName = q
    · simp [hn, hq]
    · simp [hn]

theorem names_replaced (name : String) (source : PartitionSource) (now : Time)
    (ns : List String) : (t.replaced name source now ns).partitions.map PartitionRow.name =
      t.partitions.map PartitionRow.name := by
  unfold Tables.replaced
  rw [List.map_map]
  refine List.map_congr_left fun r _ => ?_
  simp only [Function.comp_apply]
  split <;> rfl

theorem inv_replaced (h : t.Inv) {name : String} (source : PartitionSource) (now : Time)
    {ns : List String} (hsome : t.row name ≠ none) (hns : NodesOk ns) :
    (t.replaced name source now ns).Inv where
  unique := by rw [names_replaced]; exact h.unique
  valid r hr := by
    obtain ⟨r', hr', rfl⟩ := List.mem_map.mp hr
    have := h.valid r' hr'
    split <;> exact this
  nodes r hr := by
    rw [nodeRows_replaced]
    obtain ⟨r', hr', rfl⟩ := List.mem_map.mp hr
    by_cases hn : r'.name = name
    · simp only [hn, if_true]
      exact ⟨ns, hns, rfl⟩
    · simp only [hn, if_false]
      exact h.nodes r' hr'
  child n hn := by
    rw [names_replaced]
    rcases List.mem_append.mp hn with hn | hn
    · exact h.child n (List.mem_filter.mp hn).1
    · rw [mem_rowsOf hn]
      by_contra hno
      exact hsome (row_eq_none_iff.mpr hno)

theorem selectPartition_replaced (name : String) (source : PartitionSource) (now : Time)
    (ns : List String) (q : String) : (t.replaced name source now ns).selectPartition q =
      (t.selectPartition q).map fun r =>
        if r.name = name then { r with source := source, updatedAt := now } else r := by
  unfold Tables.selectPartition Tables.replaced
  rw [List.find?_map]
  congr 1
  congr 1
  funext r
  simp only [Function.comp_apply]
  split <;> rfl

theorem row_replaced {name : String} {p : StoredPartition} (now : Time)
    {ns : List String} (hp : t.row name = some p) :
    (t.replaced name p.source now ns).row =
      Function.update t.row name (some { p with nodes := ns, updatedAt := now }) := by
  funext q
  have hrows := nodeRows_replaced (t := t) name p.source now ns q
  obtain ⟨r, hr, rfl⟩ := Option.map_eq_some_iff.mp hp
  by_cases hq : q = name
  · subst hq
    rw [if_pos rfl] at hrows
    rw [Function.update_self, Tables.row, selectPartition_replaced, hr]
    simp [(selectPartition_some hr).2, selectNodes_of_rows hrows]
  · rw [if_neg hq] at hrows
    rw [Function.update_of_ne hq]
    refine row_congr ?_ hrows
    rw [selectPartition_replaced]
    cases hs : t.selectPartition q with
    | none => rfl
    | some r' =>
      have hr' := (selectPartition_some hs).2
      simp [hr', hq]

theorem nodeRows_deleted (name q : String) : (t.deleted name).nodeRows q =
    if q = name then [] else t.nodeRows q := by
  unfold Tables.nodeRows Tables.deleted
  rw [List.filter_filter]
  by_cases hq : q = name
  · subst hq
    rw [if_pos rfl, List.filter_eq_nil_iff]
    intro n _
    simp
  · rw [if_neg hq]
    refine List.filter_congr fun n _ => ?_
    by_cases hn : n.partitionName = q
    · simp [hn, hq]
    · simp [hn]

theorem inv_deleted (h : t.Inv) (name : String) : (t.deleted name).Inv where
  unique := h.unique.sublist (List.filter_sublist.map _)
  valid r hr := h.valid r (List.mem_filter.mp hr).1
  nodes r hr := by
    obtain ⟨hmem, hne⟩ := List.mem_filter.mp hr
    rw [nodeRows_deleted, if_neg (by simpa using hne)]
    exact h.nodes r hmem
  child n hn := by
    obtain ⟨hmem, hne⟩ := List.mem_filter.mp hn
    obtain ⟨r, hr, hrn⟩ := List.mem_map.mp (h.child n hmem)
    refine List.mem_map.mpr ⟨r, List.mem_filter.mpr ⟨hr, ?_⟩, hrn⟩
    rw [hrn]
    exact hne

theorem row_deleted (name : String) : (t.deleted name).row = Function.update t.row name none := by
  funext q
  by_cases hq : q = name
  · subst hq
    rw [Function.update_self, row_eq_none_iff]
    simp [Tables.deleted]
  · rw [Function.update_of_ne hq]
    refine row_congr ?_ (by rw [nodeRows_deleted, if_neg hq])
    unfold Tables.selectPartition Tables.deleted
    rw [List.find?_filter]
    congr 1
    funext r
    by_cases hr : r.name = q
    · simp [hr, hq]
    · simp [hr]

end Written

end OpenHpcWeb.Platform
