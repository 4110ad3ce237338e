/-
  The node page and the partition page show the same document.

  Both are made from one sinfo document: `parseNodesJSON` joins the partitions of each node,
  `aggregatePartitions` adds up the nodes of each partition. Every check of the second is one
  that the first has made, but for the name of a node: `parseNodesJSON` asks for a list of
  names, `aggregatePartitions` for a name. So a document with an empty node name has a node
  page and no partition page.

  * `partitionTable_ok_iff`: the partition page takes the nodes of an accepted document
    exactly when none of the names is empty.
  * `viewsAgree`: then the partitions are the sums over the nodes of the node page.
  * `partition_page_agrees_iff`: when the two agree.
-/
import OpenHpcWeb.Slurm.Partitions

namespace OpenHpcWeb.Slurm

open OpenHpcWeb.Go OpenHpcWeb.Cluster OpenHpcWeb.Lib

/-! ## The nodes of a document -/

instance (doc : SinfoJSON) (n p : String) : Decidable (doc.Occurs n p) :=
  inferInstanceAs (Decidable (∃ r ∈ doc.sinfo, r.partition = p ∧ n ∈ r.nodes))

/-- What `validate` has checked of a record. -/
structure ValidRecord (record : SinfoRecord) : Prop where
  partition : record.partition ≠ ""
  totalCPUs : 0 < record.totalCPUs.val
  allocatedCPUs : 0 ≤ record.allocatedCPUs.val ∧
    record.allocatedCPUs.val ≤ record.totalCPUs.val
  maximumMemory : 0 ≤ record.maximumMemory.val
  texts : ∀ text ∈ [record.partition, record.gresTotal] ++ record.nodes ++ record.state,
    DetailText text

theorem validRecord {record : SinfoRecord} (h : record.validate = .ok ()) :
    ValidRecord record := by
  unfold SinfoRecord.validate at h
  split at h
  · cases h
  next hrequired =>
  split at h
  · cases h
  next hcpus =>
  split at h
  · cases h
  next hmemory =>
  exact ⟨fun hp => hrequired (.inr (.inl hp)), by omega, by omega, by omega,
    (validateDetailStrings_ok_iff _).mp h⟩

section Views

variable [UnicodeCase] {doc : SinfoJSON} {snapshot : NodeSnapshot}

theorem mem_partitionNodes (h : SnapshotOf doc snapshot) {x : Node} :
    x ∈ snapshot.partitionNodes ↔ ∃ r ∈ doc.sinfo, ∃ n ∈ r.nodes, x = r.node n := by
  rw [h.partitionNodes, List.mem_map]
  constructor
  · intro hx
    obtain ⟨e, he, rfl⟩ := hx
    obtain ⟨r, hr, hm⟩ := List.mem_flatMap.mp he
    obtain ⟨n, hn, rfl⟩ := List.mem_map.mp hm
    exact ⟨r, hr, n, hn, rfl⟩
  · intro hx
    obtain ⟨r, hr, n, hn, rfl⟩ := hx
    exact ⟨(r, n), List.mem_flatMap.mpr ⟨r, hr, List.mem_map.mpr ⟨n, hn, rfl⟩⟩, rfl⟩

omit [UnicodeCase] in
theorem node_ext {x y : Node} (hdetails : nodeDetails x = nodeDetails y)
    (hpartition : x.partition = y.partition) : x = y := by
  cases x
  cases y
  simp only [nodeDetails, Node.mk.injEq, true_and] at hdetails hpartition ⊢
  exact ⟨hdetails.1, hpartition, hdetails.2⟩

/-- The records of one node agree but for the partition. -/
theorem partitionNodes_same (h : SnapshotOf doc snapshot) {x y : Node}
    (hx : x ∈ snapshot.partitionNodes) (hy : y ∈ snapshot.partitionNodes)
    (hpartition : x.partition = y.partition) (hname : x.name = y.name) : x = y := by
  obtain ⟨r, hr, n, hn, rfl⟩ := (mem_partitionNodes h).mp hx
  obtain ⟨r', hr', n', hn', rfl⟩ := (mem_partitionNodes h).mp hy
  obtain rfl : n = n' := hname
  obtain ⟨node, hnode, hnn⟩ := List.mem_map.mp ((h.names n).mpr ⟨r.partition, r, hr, rfl, hn⟩)
  subst hnn
  exact node_ext ((h.details node hnode r hr hn).symm.trans (h.details node hnode r' hr' hn'))
    hpartition

/-- A node of an accepted document lacks nothing but, maybe, a name. -/
theorem soundNode (h : SnapshotOf doc snapshot) {x : Node} (hx : x ∈ snapshot.partitionNodes)
    (hname : x.name ≠ "") : SoundNode x := by
  obtain ⟨r, hr, n, hn, rfl⟩ := (mem_partitionNodes h).mp hx
  have hvalid := validRecord (h.valid r hr)
  refine ⟨hname, hvalid.partition, hvalid.totalCPUs.le, hvalid.allocatedCPUs,
    hvalid.maximumMemory, ?_⟩
  intro text htext
  apply hvalid.texts text
  simp only [List.mem_cons, List.not_mem_nil, or_false] at htext
  rcases htext with htext | htext
  · simp [htext, SinfoRecord.node]
  · simp [htext, SinfoRecord.node, hn]

theorem nodeResources (h : SnapshotOf doc snapshot) {x : Node}
    (hx : x ∈ snapshot.partitionNodes) : NodeResources x := by
  obtain ⟨r, hr, n, hn, rfl⟩ := (mem_partitionNodes h).mp hx
  have hvalid := validRecord (h.valid r hr)
  exact ⟨hvalid.totalCPUs, hvalid.allocatedCPUs.1, hvalid.maximumMemory⟩

/-- Some record of the document lists a node without a name. -/
def ListsEmptyName (doc : SinfoJSON) : Prop := ∃ r ∈ doc.sinfo, "" ∈ r.nodes

/-- The first loop takes the nodes of an accepted document exactly when all of them have a
    name. -/
theorem partitionTable_ok_iff (h : SnapshotOf doc snapshot) :
    (∃ t, partitionTable snapshot.partitionNodes = .ok t) ↔ ¬ListsEmptyName doc := by
  constructor
  · intro hok hempty
    obtain ⟨t, ht⟩ := hok
    obtain ⟨r, hr, hn⟩ := hempty
    have hall := foldlM_ok_invariant
      (fun es t => (∀ x ∈ es, SoundNode x) ∧ TableInv es t)
      (fun es t x t' hes hadd => by
        obtain ⟨hsound, hinv⟩ := addPartitionNode_ok hes.2 hadd
        refine ⟨fun y hy => ?_, hinv⟩
        rcases List.mem_append.mp hy with hy | hy
        · exact hes.1 y hy
        · rw [List.mem_singleton.mp hy]
          exact hsound)
      ⟨fun x hx => absurd hx List.not_mem_nil, tableInv_nil⟩ ht
    have hmem : r.node "" ∈ snapshot.partitionNodes :=
      (mem_partitionNodes h).mpr ⟨r, hr, "", hn, rfl⟩
    exact (hall.1 _ hmem).name rfl
  · intro hnames
    have hsound : ∀ x ∈ snapshot.partitionNodes, SoundNode x := by
      intro x hx
      apply soundNode h hx
      intro hname
      obtain ⟨r, hr, n, hn, rfl⟩ := (mem_partitionNodes h).mp hx
      obtain rfl : n = "" := hname
      exact hnames ⟨r, hr, hn⟩
    obtain ⟨t, ht, -⟩ := foldlM_total (l := snapshot.partitionNodes) TableInv
      (fun done x rest t hl hinv => by
        have hmem : x ∈ snapshot.partitionNodes := by rw [hl]; simp
        apply addPartitionNode_isOk hinv (hsound x hmem)
        intro y hy hpartition hname
        have hy : y ∈ snapshot.partitionNodes := by rw [hl]; simp [hy]
        exact partitionNodes_same h hy hmem hpartition hname)
      tableInv_nil
    exact ⟨t, ht⟩

omit [UnicodeCase] in
theorem partitionTable_inv {nodes : List Node} {t : PartitionTable}
    (ht : partitionTable nodes = .ok t) : TableInv nodes t :=
  foldlM_ok_invariant TableInv (fun _ _ _ _ hes hadd => (addPartitionNode_ok hes hadd).2)
    tableInv_nil ht

/-- The nodes of the node page that occur with the partition. -/
def nodesOf (doc : SinfoJSON) (snapshot : NodeSnapshot) (p : String) : List Node :=
  snapshot.nodes.filter fun node => doc.Occurs node.name p

/-- Some partition's sum over its nodes leaves the range of an `int64`. -/
def SumOverflows (doc : SinfoJSON) (snapshot : NodeSnapshot) : Prop :=
  ∃ p, ¬SumsFit (nodesOf doc snapshot p)

/-- The (node, partition) pairs that the partition page counts. -/
def countedPairs (t : PartitionTable) : List (String × String) :=
  t.entries.flatMap fun entry => entry.2.keys.map fun n => (n, entry.1)

section Table

variable {t : PartitionTable}

/-- Under a partition and a name stands a node exactly when the document lists it there. -/
theorem table_lookup (h : SnapshotOf doc snapshot) (ht : TableInv snapshot.partitionNodes t)
    (p n : String) : n ∈ (t.lookup p).getD ∅ ↔ doc.Occurs n p := by
  rw [← AList.lookup_isSome, ht.lookup, List.find?_isSome]
  constructor
  · intro hx
    obtain ⟨x, hx, hkey⟩ := hx
    obtain ⟨r, hr, m, hm, rfl⟩ := (mem_partitionNodes h).mp hx
    obtain ⟨rfl, rfl⟩ : r.partition = p ∧ m = n := by simpa [SinfoRecord.node] using hkey
    exact ⟨r, hr, rfl, hm⟩
  · intro hocc
    obtain ⟨r, hr, rfl, hn⟩ := hocc
    exact ⟨r.node n, (mem_partitionNodes h).mpr ⟨r, hr, n, hn, rfl⟩, by simp [SinfoRecord.node]⟩

theorem mem_countedPairs (h : SnapshotOf doc snapshot) (ht : TableInv snapshot.partitionNodes t)
    (n p : String) : (n, p) ∈ countedPairs t ↔ doc.Occurs n p := by
  rw [← table_lookup h ht, countedPairs, List.mem_flatMap]
  constructor
  · intro hmem
    obtain ⟨⟨q, partitionNodes⟩, hentry, hpair⟩ := hmem
    obtain ⟨m, hm, heq⟩ := List.mem_map.mp hpair
    obtain ⟨rfl, rfl⟩ := Prod.mk.inj heq
    rw [AList.mem_lookup_iff.mpr hentry, Option.getD_some]
    exact AList.mem_keys.mp hm
  · intro hmem
    cases hp : t.lookup p with
    | none =>
      rw [hp] at hmem
      exact absurd hmem (AList.notMem_empty n)
    | some partitionNodes =>
      rw [hp, Option.getD_some] at hmem
      exact ⟨⟨p, partitionNodes⟩, AList.mem_lookup_iff.mp hp,
        List.mem_map.mpr ⟨n, AList.mem_keys.mpr hmem, rfl⟩⟩

/-- The nodes under a partition are the nodes of the node page that occur with it, but for
    the partition field. -/
theorem details_perm (h : SnapshotOf doc snapshot) (ht : TableInv snapshot.partitionNodes t)
    {p : String} {partitionNodes : AList fun _ : String => Node}
    (hp : t.lookup p = some partitionNodes) :
    ((partitionNodes.entries.map Sigma.snd).map nodeDetails).Perm
      ((nodesOf doc snapshot p).map nodeDetails) := by
  have hvalue : ∀ n x, partitionNodes.lookup n = some x →
      x ∈ snapshot.partitionNodes ∧ x.partition = p ∧ x.name = n := by
    intro n x hx
    have hfind := ht.lookup p n
    rw [hp, Option.getD_some, hx] at hfind
    have hkey : x.partition = p ∧ x.name = n := by simpa using List.find?_some hfind.symm
    exact ⟨List.mem_of_find?_eq_some hfind.symm, hkey⟩
  have hnames : (partitionNodes.entries.map Sigma.snd).map Node.name = partitionNodes.keys := by
    rw [List.map_map, AList.keys]
    apply List.map_congr_left
    intro entry hentry
    exact (hvalue entry.1 entry.2 (AList.mem_lookup_iff.mpr hentry)).2.2
  have hnodup : ((partitionNodes.entries.map Sigma.snd).map nodeDetails).Nodup := by
    apply List.Nodup.of_map Node.name
    rw [List.map_map]
    exact hnames ▸ partitionNodes.keys_nodup
  have hnodup' : ((nodesOf doc snapshot p).map nodeDetails).Nodup := by
    apply List.Nodup.of_map Node.name
    rw [List.map_map]
    exact (h.sorted.imp ne_of_lt).sublist (List.filter_sublist.map Node.name)
  rw [List.perm_ext_iff_of_nodup hnodup hnodup']
  intro x
  constructor
  · intro hx
    obtain ⟨y, hy, rfl⟩ := List.mem_map.mp hx
    obtain ⟨⟨n, y'⟩, hentry, rfl⟩ := List.mem_map.mp hy
    obtain ⟨hmem, hyp, hyn⟩ := hvalue n y' (AList.mem_lookup_iff.mpr hentry)
    obtain ⟨r, hr, m, hm, rfl⟩ := (mem_partitionNodes h).mp hmem
    have hocc : doc.Occurs m p := ⟨r, hr, hyp, hm⟩
    obtain ⟨node, hnode, rfl⟩ := List.mem_map.mp ((h.names m).mpr ⟨p, hocc⟩)
    exact List.mem_map.mpr ⟨node, List.mem_filter.mpr ⟨hnode, by simpa using hocc⟩,
      h.details node hnode r hr hm⟩
  · intro hx
    obtain ⟨node, hnode, rfl⟩ := List.mem_map.mp hx
    obtain ⟨hnode, hocc⟩ := List.mem_filter.mp hnode
    have hmem := (table_lookup h ht p node.name).mpr (by simpa using hocc)
    rw [hp, Option.getD_some] at hmem
    obtain ⟨y, hy⟩ := Option.isSome_iff_exists.mp (AList.lookup_isSome.mpr hmem)
    obtain ⟨hymem, hyp, hyn⟩ := hvalue node.name y hy
    obtain ⟨r, hr, m, hm, rfl⟩ := (mem_partitionNodes h).mp hymem
    obtain rfl : m = node.name := hyn
    exact List.mem_map.mpr ⟨_, List.mem_map.mpr ⟨_, AList.mem_lookup_iff.mp hy, rfl⟩,
      (h.details node hnode r hr hm).symm⟩

end Table

omit [UnicodeCase] in
/-- Sums do not see the partition field, nor the order of the nodes. -/
theorem sums_congr {nodes nodes' : List Node}
    (hperm : (nodes.map nodeDetails).Perm (nodes'.map nodeDetails)) :
    (∀ partition, SumsOf nodes partition ↔ SumsOf nodes' partition) ∧
      (SumsFit nodes ↔ SumsFit nodes') := by
  have hlength : nodes.length = nodes'.length := by simpa using hperm.length_eq
  have honline : (nodes.filter Node.online).length = (nodes'.filter Node.online).length := by
    have hcount := hperm.countP_eq Node.online
    rw [List.countP_map, List.countP_map] at hcount
    rw [← List.countP_eq_length_filter, ← List.countP_eq_length_filter]
    exact hcount
  have hsum : ∀ f : Node → GoInt, (∀ x, f (nodeDetails x) = f x) →
      resourceSum f nodes = resourceSum f nodes' := by
    intro f hf
    have heq := (hperm.map fun x => (f x).val).sum_eq
    simpa [resourceSum, Function.comp_def, hf] using heq
  have halloc := hsum Node.allocatedCPUs fun _ => rfl
  have htotal := hsum Node.totalCPUs fun _ => rfl
  have hmemory := hsum Node.memoryMB fun _ => rfl
  constructor
  · intro partition
    constructor
    · intro h
      exact ⟨hlength ▸ h.nodeCount, honline ▸ h.onlineNodes, halloc ▸ h.allocatedCPUs,
        htotal ▸ h.totalCPUs, hmemory ▸ h.memoryMB⟩
    · intro h
      exact ⟨hlength ▸ h.nodeCount, honline ▸ h.onlineNodes, halloc ▸ h.allocatedCPUs,
        htotal ▸ h.totalCPUs, hmemory ▸ h.memoryMB⟩
  · rw [SumsFit, SumsFit, halloc, htotal, hmemory]

/-! ## The two pages -/

variable [CPUPercent]

/-- The partition page of a document shows what its node page shows. -/
structure ViewsAgree (doc : SinfoJSON) (snapshot : NodeSnapshot) (partitions : List Partition) :
    Prop where
  sorted : (partitions.map Partition.name).Pairwise (· < ·)
  names : ∀ p, p ∈ partitions.map Partition.name ↔ ∃ n, doc.Occurs n p
  sums : ∀ partition ∈ partitions, SumsOf (nodesOf doc snapshot partition.name) partition
  /-- the pairs that were counted are the ones that the nodes' partition fields join -/
  pairs : ∃ t, partitionTable snapshot.partitionNodes = .ok t ∧
    (∀ node ∈ snapshot.nodes, ∃ ps : List String, ps.Pairwise (· < ·) ∧
      node.partition = join ps ", " ∧ ∀ p, p ∈ ps ↔ (node.name, p) ∈ countedPairs t) ∧
    ∀ n p, (n, p) ∈ countedPairs t → n ∈ snapshot.nodes.map Node.name

/-- The sums of one entry of the table. -/
theorem sumPartition_entry (h : SnapshotOf doc snapshot) {t : PartitionTable}
    (ht : TableInv snapshot.partitionNodes t)
    {entry : Sigma fun _ : String => AList fun _ : String => Node} (hentry : entry ∈ t.entries) :
    (∀ partition, sumPartition entry.1 entry.2 = .ok partition → partition.name = entry.1 ∧
      SumsOf (nodesOf doc snapshot entry.1) partition) ∧
    ((∃ partition, sumPartition entry.1 entry.2 = .ok partition) ↔
      SumsFit (nodesOf doc snapshot entry.1)) := by
  have hlookup := AList.mem_lookup_iff.mpr hentry
  have hresources : ∀ x ∈ entry.2.entries.map Sigma.snd, NodeResources x := by
    intro x hx
    obtain ⟨⟨n, x'⟩, hx', rfl⟩ := List.mem_map.mp hx
    have hfind := ht.lookup entry.1 n
    rw [hlookup, Option.getD_some, AList.mem_lookup_iff.mpr hx'] at hfind
    exact nodeResources h (List.mem_of_find?_eq_some hfind.symm)
  obtain ⟨hsums, hfits⟩ := sumPartition_ok_iff entry.1 hresources
  obtain ⟨hsame, hfitsame⟩ := sums_congr (details_perm h ht hlookup)
  refine ⟨fun partition hok => ?_, hfits.trans hfitsame⟩
  obtain ⟨hname, hof⟩ := hsums partition hok
  exact ⟨hname, (hsame partition).mp hof⟩

/-- A partition page that is shown agrees with the node page. -/
theorem viewsAgree (h : SnapshotOf doc snapshot) {partitions : List Partition}
    (hok : aggregatePartitions snapshot.partitionNodes = .ok partitions) :
    ViewsAgree doc snapshot partitions := by
  unfold aggregatePartitions at hok
  cases htable : partitionTable snapshot.partitionNodes with
  | error err => simp [htable, bind, Except.bind] at hok
  | ok t =>
    have ht := partitionTable_inv htable
    cases hmap : t.entries.mapM fun entry => sumPartition entry.1 entry.2 with
    | error err => simp [htable, hmap, bind, Except.bind] at hok
    | ok ps =>
      obtain rfl : sortSlice (fun x y => decide (x.name < y.name)) ps = partitions := by
        simpa [htable, hmap, bind, Except.bind, pure, Except.pure] using hok
      have hnames : ps.map Partition.name = t.keys :=
        map_of_mapM_ok hmap fun entry hentry partition hsum =>
          ((sumPartition_entry h ht hentry).1 partition hsum).1
      have hperm := sortSlice_perm (fun x y : Partition => decide (x.name < y.name)) ps
      have hkeys : ∀ p, p ∈ (sortSlice (fun x y : Partition => decide (x.name < y.name)) ps).map
          Partition.name ↔ p ∈ t := by
        intro p
        rw [(hperm.map Partition.name).mem_iff, hnames, AList.mem_keys]
      refine ⟨?_, ?_, ?_, t, htable, ?_, ?_⟩
      · rw [List.pairwise_map]
        exact sortSlice_strict Partition.name (hnames ▸ t.keys_nodup)
      · intro p
        rw [hkeys, ht.keys]
        constructor
        · intro hp
          obtain ⟨x, hx, rfl⟩ := hp
          obtain ⟨r, hr, n, hn, rfl⟩ := (mem_partitionNodes h).mp hx
          exact ⟨n, r, hr, rfl, hn⟩
        · intro hp
          obtain ⟨n, r, hr, rfl, hn⟩ := hp
          exact ⟨r.node n, (mem_partitionNodes h).mpr ⟨r, hr, n, hn, rfl⟩, rfl⟩
      · intro partition hpartition
        obtain ⟨entry, hentry, hsum⟩ := mem_of_mapM_ok hmap (hperm.mem_iff.mp hpartition)
        obtain ⟨hname, hof⟩ := (sumPartition_entry h ht hentry).1 partition hsum
        rw [hname]
        exact hof
      · intro node hnode
        obtain ⟨names, hsorted, hmem, hjoin⟩ := h.partition node hnode
        exact ⟨names, hsorted, hjoin, fun p => (hmem p).trans (mem_countedPairs h ht _ p).symm⟩
      · intro n p hmem
        exact (h.names n).mpr ⟨p, (mem_countedPairs h ht n p).mp hmem⟩

/-- Where every node has a name, only a sum keeps the partition page from being shown. -/
theorem aggregatePartitions_error (h : SnapshotOf doc snapshot) (hnames : ¬ListsEmptyName doc)
    {err : String} (herr : aggregatePartitions snapshot.partitionNodes = .error err) :
    SumOverflows doc snapshot := by
  obtain ⟨t, htable⟩ := (partitionTable_ok_iff h).mpr hnames
  have ht := partitionTable_inv htable
  by_contra hfit
  have hall : ∀ entry ∈ t.entries, ∃ partition, sumPartition entry.1 entry.2 = .ok partition := by
    intro entry hentry
    rw [(sumPartition_entry h ht hentry).2]
    by_contra hover
    exact hfit ⟨entry.1, hover⟩
  obtain ⟨ps, hps⟩ := mapM_isOk hall
  simp [aggregatePartitions, htable, hps, bind, Except.bind, pure, Except.pure] at herr

/-- The partition page of an accepted document fails only where a sum overflows, and agrees
    with the node page otherwise. -/
def PartitionPageAgrees (doc : SinfoJSON) (snapshot : NodeSnapshot) : Prop :=
  (∀ err, aggregatePartitions snapshot.partitionNodes = .error err →
    SumOverflows doc snapshot) ∧
  ∀ partitions, aggregatePartitions snapshot.partitionNodes = .ok partitions →
    ViewsAgree doc snapshot partitions

/-- The pages of an accepted document agree exactly when no record lists an empty node name,
    or a sum overflows. -/
theorem partition_page_agrees_iff (hparse : parseNodesJSON doc = .ok snapshot) :
    PartitionPageAgrees doc snapshot ↔ ¬ListsEmptyName doc ∨ SumOverflows doc snapshot := by
  have h := parseNodesJSON_spec hparse
  constructor
  · intro hagree
    by_contra hnot
    simp only [not_or, not_not] at hnot
    cases hrun : aggregatePartitions snapshot.partitionNodes with
    | error err => exact hnot.2 (hagree.1 err hrun)
    | ok partitions =>
      obtain ⟨t, htable, -⟩ := (hagree.2 partitions hrun).pairs
      exact (partitionTable_ok_iff h).mp ⟨t, htable⟩ hnot.1
  · intro hcond
    refine ⟨fun err herr => ?_, fun partitions hok => viewsAgree h hok⟩
    rcases hcond with hnames | hover
    · exact aggregatePartitions_error h hnames herr
    · exact hover

end Views

section Example

open Ascii CPUPercent

/-- The node that a record of one idle node describes. -/
def idleNode (name partition : String) : Node :=
  ⟨name, partition, "idle", wrap64 0, wrap64 8, wrap64 1024, "", true⟩

def oneNodeDoc (name : String) : SinfoJSON :=
  ⟨[], [⟨[name], "cpu", ["IDLE"], wrap64 0, wrap64 8, wrap64 1024, ""⟩]⟩

theorem partition_page_agrees_one_node :
    parseNodesJSON (oneNodeDoc "n1") = .ok ⟨[idleNode "n1" "cpu"], [idleNode "n1" "cpu"]⟩ ∧
    PartitionPageAgrees (oneNodeDoc "n1") ⟨[idleNode "n1" "cpu"], [idleNode "n1" "cpu"]⟩ := by
  have hparse : parseNodesJSON (oneNodeDoc "n1") =
      .ok ⟨[idleNode "n1" "cpu"], [idleNode "n1" "cpu"]⟩ := by rfl
  refine ⟨hparse, (partition_page_agrees_iff hparse).mpr (.inl ?_)⟩
  intro hempty
  obtain ⟨r, hr, hn⟩ := hempty
  obtain rfl := List.mem_singleton.mp hr
  revert hn
  decide

/-- A node without a name has a place on the node page, and no partition page. -/
theorem nameless_node_has_no_partition_page : ¬ ∀ (doc : SinfoJSON) (snapshot : NodeSnapshot),
    parseNodesJSON doc = .ok snapshot → PartitionPageAgrees doc snapshot := by
  intro h
  have hagree := h (oneNodeDoc "") ⟨[idleNode "" "cpu"], [idleNode "" "cpu"]⟩ (by rfl)
  obtain ⟨p, hover⟩ := hagree.1 "partition and node name are required" (by rfl)
  apply hover
  unfold nodesOf
  by_cases hp : (oneNodeDoc "").Occurs "" p
  · have hnodes : ([idleNode "" "cpu"].filter fun node => (oneNodeDoc "").Occurs node.name p) =
        [idleNode "" "cpu"] := by
      simpa [idleNode] using hp
    rw [hnodes]
    decide
  · have hnodes : ([idleNode "" "cpu"].filter fun node => (oneNodeDoc "").Occurs node.name p) =
        [] := by
      simpa [idleNode] using hp
    rw [hnodes]
    decide

end Example

end OpenHpcWeb.Slurm
