/-
  From the sinfo document to the specs that startup stores.

  `parseNodesJSON` gives a node that occurs in several partitions one record whose
  partition is the join of their names, and `partitionSpecsFromNodes` groups the nodes by
  that field as if it were one name.

  * `mem_partitionSpecs`, `partitionSpecs_sorted`: the specs of any list of nodes.
  * `mem_partitionSpecs_of_doc`: the specs of a document, by its records.
  * `membership_preserved_iff`: the specs are the partitions of the document exactly if
    every node is in one partition.
-/
import OpenHpcWeb.Slurm.Details
import OpenHpcWeb.Web.Partitions

namespace OpenHpcWeb.Web

open OpenHpcWeb.Go OpenHpcWeb.Cluster OpenHpcWeb.Lib OpenHpcWeb.Platform OpenHpcWeb.Slurm

/-! ## The specs of a list of nodes -/

/-- The names of the nodes whose partition field is `name`, in order. -/
def nodesIn (nodes : List Node) (name : String) : List String :=
  (nodes.filter fun node => node.partition = name).map Node.name

theorem mem_nodesIn {nodes : List Node} {name n : String} :
    n ∈ nodesIn nodes name ↔ ∃ node ∈ nodes, node.name = n ∧ node.partition = name := by
  unfold nodesIn
  simp only [List.mem_map, List.mem_filter, decide_eq_true_eq]
  constructor
  · rintro ⟨node, ⟨hmem, hp⟩, hn⟩
    exact ⟨node, hmem, hn, hp⟩
  · rintro ⟨node, hmem, hn, hp⟩
    exact ⟨node, ⟨hmem, hp⟩, hn⟩

/-- The grouping loop appends, for each name that is not blank, the nodes of that name. -/
theorem foldl_addPartitionNode (nodes : List Node) (m : AList fun _ : String => List String)
    (name : String) : (nodes.foldl addPartitionNode m).lookup name =
      if trimSpace name = "" ∨ nodesIn nodes name = [] then m.lookup name
      else some ((m.lookup name).getD [] ++ nodesIn nodes name) := by
  induction nodes generalizing m with
  | nil => simp [nodesIn]
  | cons node nodes ih =>
    rw [List.foldl_cons, ih]
    by_cases hn : node.partition = name
    · have hcons : nodesIn (node :: nodes) name = node.name :: nodesIn nodes name := by
        simp [nodesIn, hn]
      rw [hcons]
      unfold addPartitionNode
      rw [hn]
      by_cases hblank : trimSpace name = ""
      · simp [hblank]
      · simp only [hblank, if_false, AList.lookup_insert, Option.getD_some, false_or,
          List.cons_ne_nil]
        split
        · next hnil => rw [hnil]
        · rw [List.append_assoc]
          rfl
    · have hcons : nodesIn (node :: nodes) name = nodesIn nodes name := by simp [nodesIn, hn]
      have hlook : (addPartitionNode m node).lookup name = m.lookup name := by
        unfold addPartitionNode
        split
        · rfl
        · rw [AList.lookup_insert_ne (Ne.symm hn)]
      rw [hcons, hlook]

/-- The spec of a partition field. -/
def specFor (nodes : List Node) (name : String) : PartitionSpec :=
  ⟨name, nodesIn nodes name, false, zeroTime, zeroTime⟩

theorem mem_partitionSpecs {nodes : List Node} {spec : PartitionSpec} :
    spec ∈ partitionSpecsFromNodes nodes ↔
      trimSpace spec.name ≠ "" ∧ spec.nodes ≠ [] ∧ spec = specFor nodes spec.name := by
  have hlook := foldl_addPartitionNode nodes ∅
  unfold partitionSpecsFromNodes
  simp only [List.mem_insertionSort, List.mem_map]
  constructor
  · rintro ⟨e, he, rfl⟩
    have he' := AList.mem_lookup_iff.mpr he
    rw [Option.mem_def, hlook] at he'
    split at he'
    · cases he'
    · next hno =>
      obtain ⟨hblank, hnil⟩ := not_or.mp hno
      simp only [AList.lookup_empty, Option.getD_none, List.nil_append, Option.some.injEq] at he'
      refine ⟨hblank, ?_, ?_⟩
      · rw [← he']; exact hnil
      · rw [specFor, he']
  · rintro ⟨hblank, hne, hspec⟩
    have hnil : nodesIn nodes spec.name ≠ [] := by
      rw [hspec] at hne
      exact hne
    refine ⟨⟨spec.name, nodesIn nodes spec.name⟩, ?_, hspec.symm⟩
    apply AList.mem_lookup_iff.mp
    rw [Option.mem_def, hlook, if_neg (not_or.mpr ⟨hblank, hnil⟩)]
    simp

theorem partitionSpecs_sorted (nodes : List Node) :
    ((partitionSpecsFromNodes nodes).map PartitionSpec.name).Pairwise (· < ·) := by
  unfold partitionSpecsFromNodes
  set m := nodes.foldl addPartitionNode ∅ with hm
  set specs : List PartitionSpec :=
    m.entries.map fun e => ⟨e.1, e.2, false, zeroTime, zeroTime⟩ with hspecs
  have hperm := List.perm_insertionSort (fun a b : PartitionSpec => a.name ≤ b.name) specs
  have hnd : (specs.map PartitionSpec.name).Nodup := by
    rw [hspecs, List.map_map]
    exact m.nodupKeys
  have hle := List.pairwise_insertionSort (fun a b : PartitionSpec => a.name ≤ b.name) specs
  have hnd' := (hperm.map PartitionSpec.name).nodup_iff.mpr hnd
  exact (List.pairwise_map.mpr hle).imp₂ (fun _ _ hle hne => lt_of_le_of_ne hle hne) hnd'

/-! ## The specs of a document -/

/-- The partitions in which a node occurs, in order. -/
structure Lists (doc : SinfoJSON) (n : String) (ps : List String) : Prop where
  ne_nil : ps ≠ []
  sorted : ps.Pairwise (· < ·)
  mem : ∀ p, p ∈ ps ↔ doc.Occurs n p

theorem Lists.unique {doc : SinfoJSON} {n : String} {ps qs : List String}
    (hp : Lists doc n ps) (hq : Lists doc n qs) : ps = qs :=
  strict_ext hp.sorted hq.sorted fun p => (hp.mem p).trans (hq.mem p).symm

section Document

variable {doc : SinfoJSON} {snapshot : NodeSnapshot}

/-- The nodes of the snapshot are those of the document, under the join of their
    partitions. -/
theorem exists_node_iff [UnicodeCase] (h : SnapshotOf doc snapshot) {n k : String} :
    (∃ node ∈ snapshot.nodes, node.name = n ∧ node.partition = k) ↔
      ∃ ps, Lists doc n ps ∧ k = join ps ", " := by
  have hlists : ∀ node ∈ snapshot.nodes, ∃ ps, Lists doc node.name ps ∧
      node.partition = join ps ", " := by
    intro node hnode
    obtain ⟨ps, hsorted, hmem, hjoin⟩ := h.partition node hnode
    obtain ⟨p, hp⟩ := (h.names node.name).mp (List.mem_map.mpr ⟨node, hnode, rfl⟩)
    exact ⟨ps, ⟨List.ne_nil_of_mem ((hmem p).mpr hp), hsorted, hmem⟩, hjoin⟩
  constructor
  · rintro ⟨node, hnode, rfl, rfl⟩
    exact hlists node hnode
  · rintro ⟨ps, hps, rfl⟩
    obtain ⟨p, hp⟩ := List.exists_mem_of_ne_nil ps hps.ne_nil
    obtain ⟨node, hnode, rfl⟩ := List.mem_map.mp ((h.names n).mpr ⟨p, (hps.mem p).mp hp⟩)
    obtain ⟨qs, hqs, hjoin⟩ := hlists node hnode
    rw [hqs.unique hps] at hjoin
    exact ⟨node, hnode, rfl, hjoin⟩

theorem mem_nodesIn_of_doc [UnicodeCase] (h : SnapshotOf doc snapshot) {n k : String} :
    n ∈ nodesIn snapshot.nodes k ↔ ∃ ps, Lists doc n ps ∧ k = join ps ", " :=
  mem_nodesIn.trans (exists_node_iff h)

/-- The specs of a document: one for each join of partitions that is not blank. -/
theorem mem_partitionSpecs_of_doc [UnicodeCase] (h : SnapshotOf doc snapshot) {k : String} :
    k ∈ (partitionSpecsFromNodes snapshot.nodes).map PartitionSpec.name ↔
      trimSpace k ≠ "" ∧ ∃ n ps, Lists doc n ps ∧ k = join ps ", " := by
  rw [List.mem_map]
  constructor
  · rintro ⟨spec, hspec, rfl⟩
    obtain ⟨hblank, hne, heq⟩ := mem_partitionSpecs.mp hspec
    rw [heq] at hne
    obtain ⟨n, hn⟩ := List.exists_mem_of_ne_nil _ hne
    exact ⟨hblank, n, (mem_nodesIn_of_doc h).mp hn⟩
  · rintro ⟨hblank, n, hps⟩
    have hn : n ∈ nodesIn snapshot.nodes k := (mem_nodesIn_of_doc h).mpr hps
    exact ⟨specFor snapshot.nodes k,
      mem_partitionSpecs.mpr ⟨hblank, List.ne_nil_of_mem hn, rfl⟩, rfl⟩

/-- The join of several partitions is a text no partition of the document is allowed to be. -/
theorem join_of_two {n p q : String} {ps : List String} (hps : Lists doc n ps)
    (hp : doc.Occurs n p) (hq : doc.Occurs n q) (hne : p ≠ q) :
    contains (join ps ", ") ", " = true := by
  have hpm := (hps.mem p).mpr hp
  have hqm := (hps.mem q).mpr hq
  match ps, hpm, hqm with
  | [a], hpm, hqm =>
    exact absurd ((List.mem_singleton.mp hpm).trans (List.mem_singleton.mp hqm).symm) hne
  | a :: b :: rest, _, _ => exact contains_join a b rest ", "

theorem exists_lists [UnicodeCase] (h : SnapshotOf doc snapshot) {n p : String}
    (hp : doc.Occurs n p) : ∃ ps, Lists doc n ps := by
  obtain ⟨node, hnode, rfl⟩ := List.mem_map.mp ((h.names n).mpr ⟨p, hp⟩)
  obtain ⟨ps, hps, -⟩ := (exists_node_iff h).mp ⟨node, hnode, rfl, rfl⟩
  exact ⟨ps, hps⟩

theorem lists_singleton {n p : String} (hp : doc.Occurs n p)
    (hone : ∀ q, doc.Occurs n q → q = p) : Lists doc n [p] := by
  refine ⟨List.cons_ne_nil p [], List.pairwise_singleton _ p, fun q => ?_⟩
  rw [List.mem_singleton]
  constructor
  · rintro rfl
    exact hp
  · exact hone q

theorem not_blank_of_contains {s : String} (h : contains s ", " = true) : trimSpace s ≠ "" := by
  intro hblank
  obtain ⟨a, b, hab⟩ := (contains_iff s ", ").mp h
  have hcomma : ',' ∈ s.toList := by
    rw [← hab]
    simp
  have := (trimSpace_eq_empty_iff s).mp hblank ',' hcomma
  revert this
  decide

end Document

/-! ## Membership -/

/-- The specs are the partitions of the document: one each, with the nodes that occur in it. -/
def MembershipPreserved (doc : SinfoJSON) (specs : List PartitionSpec) : Prop :=
  (specs.map PartitionSpec.name).Nodup ∧
  (∀ p, p ∈ specs.map PartitionSpec.name ↔ ∃ n, doc.Occurs n p) ∧
  ∀ spec ∈ specs, ∀ n, n ∈ spec.nodes ↔ doc.Occurs n spec.name

/-- Startup imports the partitions of a document as they are exactly if no node of the
    document is in two of them. -/
theorem membership_preserved_iff [UnicodeCase] {doc : SinfoJSON} {snapshot : NodeSnapshot}
    (hparse : parseNodesJSON doc = .ok snapshot)
    (hnames : ∀ r ∈ doc.sinfo, trimSpace r.partition ≠ "" ∧ contains r.partition ", " = false) :
    MembershipPreserved doc (partitionSpecsFromNodes snapshot.nodes) ↔
      ∀ n p q, doc.Occurs n p → doc.Occurs n q → p = q := by
  have h := parseNodesJSON_spec hparse
  constructor
  · rintro ⟨-, hspecs, -⟩ n p q hp hq
    by_contra hne
    -- the join of the node's partitions is the name of a spec, but of no partition
    obtain ⟨ps, hps⟩ := exists_lists h hp
    have hjoin := join_of_two hps hp hq hne
    have hmem := (mem_partitionSpecs_of_doc h).mpr
      ⟨not_blank_of_contains hjoin, n, ps, hps, rfl⟩
    obtain ⟨m, r, hr, hrp, -⟩ := (hspecs _).mp hmem
    rw [← hrp, (hnames r hr).2] at hjoin
    cases hjoin
  · intro hone
    have hlists : ∀ n k, (∃ ps, Lists doc n ps ∧ k = join ps ", ") ↔ doc.Occurs n k := by
      intro n k
      constructor
      · rintro ⟨ps, hps, rfl⟩
        obtain ⟨p, hp⟩ := List.exists_mem_of_ne_nil ps hps.ne_nil
        have hocc := (hps.mem p).mp hp
        have hsingle := lists_singleton hocc fun q hq => hone n q p hq hocc
        rw [hps.unique hsingle, join_singleton]
        exact hocc
      · intro hk
        have hsingle := lists_singleton hk fun q hq => hone n q k hq hk
        exact ⟨[k], hsingle, (join_singleton k ", ").symm⟩
    have hsorted := partitionSpecs_sorted snapshot.nodes
    refine ⟨hsorted.imp ne_of_lt, fun p => ?_, fun spec hspec n => ?_⟩
    · rw [mem_partitionSpecs_of_doc h]
      constructor
      · rintro ⟨-, n, hps⟩
        exact ⟨n, (hlists n p).mp hps⟩
      · rintro ⟨n, hn⟩
        obtain ⟨r, hr, rfl, hnr⟩ := hn
        exact ⟨(hnames r hr).1, n, (hlists n _).mpr ⟨r, hr, rfl, hnr⟩⟩
    · obtain ⟨-, -, heq⟩ := mem_partitionSpecs.mp hspec
      rw [heq]
      exact (mem_nodesIn_of_doc h).trans (hlists n _)

section Example

open Ascii

/-- One record with one idle node. -/
def idleRecord (partition : String) (nodes : List String) : SinfoRecord :=
  ⟨nodes, partition, ["IDLE"], ⟨0, by decide⟩, ⟨8, by decide⟩, ⟨1024, by decide⟩, ""⟩

/-- Two partitions without a common node. -/
def disjointDoc : SinfoJSON := ⟨[], [idleRecord "cpu" ["n1", "n2"], idleRecord "gpu" ["n3"]]⟩

theorem membership_preserved_disjoint : ∃ snapshot,
    parseNodesJSON disjointDoc = .ok snapshot ∧
    (MembershipPreserved disjointDoc (partitionSpecsFromNodes snapshot.nodes) ↔
      ∀ n p q, disjointDoc.Occurs n p → disjointDoc.Occurs n q → p = q) := by
  obtain ⟨snapshot, hparse⟩ :=
    exists_ok_of_isOk (show (parseNodesJSON disjointDoc).isOk = true by decide)
  exact ⟨snapshot, hparse, membership_preserved_iff hparse (by decide)⟩

/-- A node that Slurm reports in two partitions. -/
def sharedDoc : SinfoJSON := ⟨[], [idleRecord "cpu" ["n1", "n2"], idleRecord "gpu" ["n1"]]⟩

/-- The specs of a document need not be its partitions: here the only spec of "n1" is named
    "cpu, gpu". -/
theorem shared_node_specs : ¬ ∀ (doc : SinfoJSON) (snapshot : NodeSnapshot),
    parseNodesJSON doc = .ok snapshot →
    (∀ r ∈ doc.sinfo, trimSpace r.partition ≠ "" ∧ contains r.partition ", " = false) →
    MembershipPreserved doc (partitionSpecsFromNodes snapshot.nodes) := by
  intro h
  obtain ⟨snapshot, hparse⟩ :=
    exists_ok_of_isOk (show (parseNodesJSON sharedDoc).isOk = true by decide)
  obtain ⟨-, hspecs, -⟩ := h sharedDoc snapshot hparse (by decide)
  have hgpu : "gpu" ∈ (partitionSpecsFromNodes snapshot.nodes).map PartitionSpec.name :=
    (hspecs "gpu").mpr ⟨"n1", idleRecord "gpu" ["n1"], by simp [sharedDoc], rfl, by decide⟩
  have hnames : ((parseNodesJSON sharedDoc).map fun snapshot =>
      (partitionSpecsFromNodes snapshot.nodes).map PartitionSpec.name) =
        .ok ["cpu", "cpu, gpu"] := by decide
  rw [hparse] at hnames
  simp only [Except.map, Except.ok.injEq] at hnames
  rw [hnames] at hgpu
  revert hgpu
  decide

end Example

end OpenHpcWeb.Web
