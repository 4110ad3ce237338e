/-
  The managed partitions of the partition page, compared with the live nodes
  (internal/web/partitions.go).

  `partitionManagedRowsView` groups the live nodes by their partition field, which joins the
  partitions of a node that is in several. A stored name holds no space, so it is never such
  a join: the comparison sees the nodes of a partition that are in no other.

  * `mem_liveNodes`: the live nodes that a stored partition is compared with.
  * `managed_row_exact_iff`: the comparison is exact if and only if no node of the partition
    is in another one.
-/
import OpenHpcWeb.Web.PartitionSpecs

namespace OpenHpcWeb.Web

open OpenHpcWeb.Go OpenHpcWeb.Cluster OpenHpcWeb.Slurm OpenHpcWeb.Lib OpenHpcWeb.Platform

/-! ## The rows -/

/-- The texts of `partitionCopy` that a row takes its status from. -/
structure PartitionCopy where
  unavailable : String
  matched : String
  patched : String

def partitionCopyFor (language : String) : PartitionCopy :=
  if language = "en" then ⟨"Partition data is temporarily unavailable", "Matched", "Patched"⟩
  else ⟨"分区数据暂不可用", "一致", "已更新"⟩

structure PartitionManagedRowView where
  name : String
  nodes : String
  status : String
  addedNodes : String
  removedNodes : String
  updatedAt : String

/-- The body of the loop over the live nodes. -/
def addLiveNode (liveByPartition : AList fun _ : String => List String) (node : Node) :
    AList fun _ : String => List String :=
  liveByPartition.insert node.partition
    ((liveByPartition.lookup node.partition).getD [] ++ [node.name])

/-- `liveByPartition[name]`, of a nil slice where there is none. -/
def liveNodesForPartition (liveNodes : List Node) (name : String) : List String :=
  ((liveNodes.foldl addLiveNode ∅).lookup name).getD []

/-- `added` and `removed` of one partition. The package's `diffPartitionNodes` is the one of
    internal/platform, written out again. -/
def managedRowDiff (partition : PartitionSpec) (liveNodes : List Node) :
    List String × List String :=
  diffPartitionNodes partition.nodes (liveNodesForPartition liveNodes partition.name)

/-- The body of the loop over the partitions. `format` is the time as
    `Local().Format("2006-01-02 15:04")` writes it, in the zone of the server. -/
def partitionManagedRow (format : Time → String) (labels : PartitionCopy) (liveNodes : List Node)
    (nodesAvailable : Bool) (partition : PartitionSpec) : PartitionManagedRowView :=
  let diff := if nodesAvailable then managedRowDiff partition liveNodes else ([], [])
  let status :=
    if nodesAvailable = false then labels.unavailable
    else if diff.1 ≠ [] ∨ diff.2 ≠ [] then labels.patched
    else labels.matched
  { name := partition.name
    nodes := join partition.nodes ", "
    status := status
    addedNodes := join diff.1 ", "
    removedNodes := join diff.2 ", "
    updatedAt := format partition.updatedAt }

def partitionManagedRowsView (format : Time → String) (partitions : List PartitionSpec)
    (liveNodes : List Node) (nodesAvailable : Bool) (labels : PartitionCopy) :
    List PartitionManagedRowView :=
  partitions.map (partitionManagedRow format labels liveNodes nodesAvailable)

/-! ## The live nodes of a partition -/

theorem liveNodesForPartition_eq (liveNodes : List Node) (name : String) :
    liveNodesForPartition liveNodes name = nodesIn liveNodes name := by
  have hfold : ∀ m : AList fun _ : String => List String,
      ((liveNodes.foldl addLiveNode m).lookup name).getD [] =
        (m.lookup name).getD [] ++ nodesIn liveNodes name := by
    induction liveNodes with
    | nil => intro m; simp [nodesIn]
    | cons node liveNodes ih =>
      intro m
      rw [List.foldl_cons, ih]
      unfold addLiveNode
      by_cases hn : node.partition = name
      · have hcons : nodesIn (node :: liveNodes) name = node.name :: nodesIn liveNodes name := by
          simp [nodesIn, hn]
        rw [hcons, hn, AList.lookup_insert, Option.getD_some, List.append_assoc,
          List.singleton_append]
      · have hcons : nodesIn (node :: liveNodes) name = nodesIn liveNodes name := by
          simp [nodesIn, hn]
        rw [hcons, AList.lookup_insert_ne (Ne.symm hn)]
  have hstart := hfold ∅
  rw [AList.lookup_empty, Option.getD_none, List.nil_append] at hstart
  exact hstart

/-- A stored name is not a join of names. -/
theorem not_contains_of_valid {name : String} (h : validPartitionIdentifier name = true) :
    contains name ", " = false := by
  cases hc : contains name ", " with
  | false => rfl
  | true =>
    obtain ⟨a, b, hab⟩ := (contains_iff name ", ").mp hc
    have hspace : ' ' ∈ name.toList := by
      rw [← hab]
      simp
    unfold validPartitionIdentifier at h
    split at h
    · cases h
    · have hnone := (containsAny_eq_false_iff name _).mp (by simpa using h) ' ' hspace
      exact absurd (by decide) hnone

section Comparison

variable [UnicodeCase] {doc : SinfoJSON} {snapshot : NodeSnapshot}

/-- The live nodes that a partition is compared with: those that the document lists in it and
    in no other. -/
theorem mem_liveNodes (h : SnapshotOf doc snapshot) {name n : String}
    (hname : validPartitionIdentifier name = true) :
    n ∈ liveNodesForPartition snapshot.nodes name ↔
      doc.Occurs n name ∧ ∀ q, doc.Occurs n q → q = name := by
  rw [liveNodesForPartition_eq, mem_nodesIn_of_doc h]
  constructor
  · intro hn
    obtain ⟨ps, hps, hjoin⟩ := hn
    have hone : ∀ p q, doc.Occurs n p → doc.Occurs n q → p = q := by
      intro p q hp hq
      by_contra hne
      have htwo := join_of_two hps hp hq hne
      rw [← hjoin, not_contains_of_valid hname] at htwo
      cases htwo
    obtain ⟨p, hp⟩ := List.exists_mem_of_ne_nil ps hps.ne_nil
    have hocc := (hps.mem p).mp hp
    have hsingle := hps.unique (lists_singleton hocc fun q hq => hone q p hq hocc)
    rw [hsingle, join_singleton] at hjoin
    subst hjoin
    exact ⟨hocc, fun q hq => hone q name hq hocc⟩
  · intro hn
    exact ⟨[name], lists_singleton hn.1 hn.2, (join_singleton name ", ").symm⟩

/-- The row of a partition compares its nodes with the nodes that the document lists in it. -/
structure ComparisonExact (doc : SinfoJSON) (partition : PartitionSpec) (liveNodes : List Node)
    (labels : PartitionCopy) (row : PartitionManagedRowView) : Prop where
  matched : row.status = labels.matched ↔
    ∀ n, n ∈ partition.nodes ↔ doc.Occurs n partition.name
  added : ∀ n, n ∈ (managedRowDiff partition liveNodes).1 ↔
    doc.Occurs n partition.name ∧ n ∉ partition.nodes
  removed : ∀ n, n ∈ (managedRowDiff partition liveNodes).2 ↔
    n ∈ partition.nodes ∧ ¬doc.Occurs n partition.name
  texts : row.addedNodes = join (managedRowDiff partition liveNodes).1 ", " ∧
    row.removedNodes = join (managedRowDiff partition liveNodes).2 ", "

omit [UnicodeCase] in
/-- The status of a row tells whether its two differences are empty. -/
theorem status_matched_iff (format : Time → String) (language : String) (liveNodes : List Node)
    (partition : PartitionSpec) :
    (partitionManagedRow format (partitionCopyFor language) liveNodes true partition).status =
        (partitionCopyFor language).matched ↔
      (managedRowDiff partition liveNodes).1 = [] ∧ (managedRowDiff partition liveNodes).2 = [] := by
  have hlabels : (partitionCopyFor language).patched ≠ (partitionCopyFor language).matched := by
    unfold partitionCopyFor
    split
    · decide
    · decide
  simp only [partitionManagedRow, if_true, Bool.true_eq_false, if_false]
  split
  · next hdiff => exact iff_of_false hlabels (by tauto)
  · next hdiff => exact iff_of_true rfl (by tauto)

/-- The comparison of a stored partition is exact if and only if no node that the document
    lists in it is in another one. -/
theorem managed_row_exact_iff (hparse : parseNodesJSON doc = .ok snapshot)
    {store : PartitionStore} {faults : Faults} {partitions : List PartitionSpec}
    (hlist : store.listManaged faults = .ok partitions) (format : Time → String)
    (language : String) (partition : PartitionSpec) (hmem : partition ∈ partitions) :
    partitionManagedRow format (partitionCopyFor language) snapshot.nodes true partition ∈
      partitionManagedRowsView format partitions snapshot.nodes true (partitionCopyFor language) ∧
    (ComparisonExact doc partition snapshot.nodes (partitionCopyFor language)
        (partitionManagedRow format (partitionCopyFor language) snapshot.nodes true partition) ↔
      ∀ n, doc.Occurs n partition.name → ∀ q, doc.Occurs n q → q = partition.name) := by
  refine ⟨List.mem_map.mpr ⟨partition, hmem, rfl⟩, ?_⟩
  obtain ⟨specs, hspecs, -, hrows⟩ := store.listManaged_nil
  obtain rfl : specs = partitions := by
    rw [PartitionStore.listManaged_ok hlist] at hspecs
    exact (Except.ok.inj hspecs).symm
  obtain ⟨p, hrow, -, -⟩ := (hrows partition).mp hmem
  have hlive := fun n => mem_liveNodes (n := n) (parseNodesJSON_spec hparse)
    (row_ok store.inv hrow).1
  have hadded : ∀ n, n ∈ (managedRowDiff partition snapshot.nodes).1 ↔
      n ∈ liveNodesForPartition snapshot.nodes partition.name ∧ n ∉ partition.nodes := by
    intro n
    simp [managedRowDiff, diffPartitionNodes]
  have hremoved : ∀ n, n ∈ (managedRowDiff partition snapshot.nodes).2 ↔
      n ∈ partition.nodes ∧ n ∉ liveNodesForPartition snapshot.nodes partition.name := by
    intro n
    simp [managedRowDiff, diffPartitionNodes]
  constructor
  · intro hexact n hn q hq
    by_contra hne
    have hnot : n ∉ liveNodesForPartition snapshot.nodes partition.name := fun hmem =>
      hne (((hlive n).mp hmem).2 q hq)
    by_cases hstored : n ∈ partition.nodes
    · exact ((hexact.removed n).mp ((hremoved n).mpr ⟨hstored, hnot⟩)).2 hn
    · exact hnot ((hadded n).mp ((hexact.added n).mpr ⟨hn, hstored⟩)).1
  · intro hone
    have hsame : ∀ n, n ∈ liveNodesForPartition snapshot.nodes partition.name ↔
        doc.Occurs n partition.name := fun n =>
      (hlive n).trans (and_iff_left_of_imp (hone n))
    refine ⟨?_, fun n => ?_, fun n => ?_, rfl, rfl⟩
    · rw [status_matched_iff, List.eq_nil_iff_forall_not_mem, List.eq_nil_iff_forall_not_mem]
      constructor
      · intro hnil n
        have hna := hnil.1 n
        have hnr := hnil.2 n
        rw [hadded, hsame] at hna
        rw [hremoved, hsame] at hnr
        tauto
      · intro hall
        refine ⟨fun n => ?_, fun n => ?_⟩
        · rw [hadded, hsame, hall]
          tauto
        · rw [hremoved, hsame, hall]
          tauto
    · rw [hadded, hsame]
    · rw [hremoved, hsame]

end Comparison

section Example

open Ascii

/-- A store with one managed partition. -/
def gpuStore (nodes : List String) : PartitionStore :=
  (PartitionStore.empty.upsert 0 [] ⟨"gpu", nodes, true, 0, 0⟩).2

theorem managed_row_exact_disjoint : ∃ snapshot, parseNodesJSON disjointDoc = .ok snapshot ∧
    ComparisonExact disjointDoc ⟨"gpu", ["n3"], true, 0, 0⟩ snapshot.nodes (partitionCopyFor "en")
      (partitionManagedRow (fun _ => "") (partitionCopyFor "en") snapshot.nodes true
        ⟨"gpu", ["n3"], true, 0, 0⟩) := by
  obtain ⟨snapshot, hparse⟩ :=
    exists_ok_of_isOk (show (parseNodesJSON disjointDoc).isOk = true by decide)
  have hlist : (gpuStore ["n3"]).listManaged [] = .ok [⟨"gpu", ["n3"], true, 0, 0⟩] := by rfl
  refine ⟨snapshot, hparse, (managed_row_exact_iff hparse hlist (fun _ => "") "en"
    ⟨"gpu", ["n3"], true, 0, 0⟩ (by decide)).2.mpr ?_⟩
  intro n hn q hq
  obtain ⟨r, hr, hrp, hnr⟩ := hn
  obtain ⟨r', hr', rfl, hnr'⟩ := hq
  simp only [disjointDoc, List.mem_cons, List.not_mem_nil, or_false] at hr hr'
  rcases hr with rfl | rfl <;> rcases hr' with rfl | rfl <;>
    simp_all [idleRecord]

/-- The only node of the stored partition "gpu" is one that Slurm lists in it, and in "cpu" too:
    it is reported as removed. -/
theorem shared_node_reported_removed : ¬ ∀ (doc : SinfoJSON) (snapshot : NodeSnapshot)
    (store : PartitionStore) (partitions : List PartitionSpec) (partition : PartitionSpec),
    parseNodesJSON doc = .ok snapshot → store.listManaged [] = .ok partitions →
    partition ∈ partitions →
    ComparisonExact doc partition snapshot.nodes (partitionCopyFor "en")
      (partitionManagedRow (fun _ => "") (partitionCopyFor "en") snapshot.nodes true
        partition) := by
  intro h
  obtain ⟨snapshot, hparse⟩ :=
    exists_ok_of_isOk (show (parseNodesJSON sharedDoc).isOk = true by decide)
  have hlist : (gpuStore ["n1"]).listManaged [] = .ok [⟨"gpu", ["n1"], true, 0, 0⟩] := by rfl
  have hexact := h sharedDoc snapshot (gpuStore ["n1"]) _ _ hparse hlist List.mem_cons_self
  have hcpu : sharedDoc.Occurs "n1" "cpu" :=
    ⟨idleRecord "cpu" ["n1", "n2"], by simp [sharedDoc], rfl, by decide⟩
  have hgpu : sharedDoc.Occurs "n1" "gpu" :=
    ⟨idleRecord "gpu" ["n1"], by simp [sharedDoc], rfl, by decide⟩
  have hnot : "n1" ∉ liveNodesForPartition snapshot.nodes "gpu" := by
    intro hmem
    have hone := (mem_liveNodes (parseNodesJSON_spec hparse) (by decide)).mp hmem
    exact absurd (hone.2 "cpu" hcpu) (by decide)
  have hremoved : "n1" ∈
      (managedRowDiff ⟨"gpu", ["n1"], true, 0, 0⟩ snapshot.nodes).2 := by
    simp [managedRowDiff, diffPartitionNodes, hnot]
  exact ((hexact.removed "n1").mp hremoved).2 hgpu

end Example

end OpenHpcWeb.Web
