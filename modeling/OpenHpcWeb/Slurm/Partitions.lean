/-
  The partition page of internal/slurm/partitions.go.

  `aggregatePartitions` groups the nodes of the sinfo snapshot by partition, each node once,
  and adds their resources up with a guard on every sum. Go ranges over its maps in no fixed
  order; the model's `AList`s have one. The order decides which error is reported when more
  than one sum overflows, and nothing else.

  * `addPartitionNode_ok`, `addPartitionNode_isOk`: what the first loop keeps of a node, and
    which nodes it takes.
  * `sumPartition_ok_iff`: a partition has its sums exactly when they fit.
-/
import OpenHpcWeb.Go.Sort
import OpenHpcWeb.Lib.Tally
import OpenHpcWeb.Slurm.Details

namespace OpenHpcWeb.Slurm

open OpenHpcWeb.Go OpenHpcWeb.Cluster OpenHpcWeb.Lib

/-- `int(math.Round(float64(allocated) * 100 / float64(total)))`. The arithmetic of float64 is
    not embedded: the results hold for any function of the two sums. -/
class CPUPercent where
  percent : GoInt → GoInt → GoInt

namespace CPUPercent

/-- The percentage for sums that float64 holds exactly, rounded half up. -/
scoped instance exact : CPUPercent :=
  ⟨fun allocated total => wrap64 ((200 * allocated.val + total.val) / (2 * total.val))⟩

end CPUPercent

/-- The nodes of each partition, by name. -/
abbrev PartitionTable := AList fun _ : String => AList fun _ : String => Node

/-- The body of the loop over the nodes. -/
def addPartitionNode (byPartition : PartitionTable) (node : Node) : Except String PartitionTable :=
  if node.name = "" ∨ node.partition = "" then .error "partition and node name are required"
  else if node.totalCPUs.val < 0 ∨ node.allocatedCPUs.val < 0 ∨
      node.totalCPUs.val < node.allocatedCPUs.val ∨ node.memoryMB.val < 0 then
    .error ("node " ++ node.name ++ " has invalid partition resources")
  else
    match validateDetailStrings [node.partition, node.name] with
    | .error err => .error err
    | .ok () =>
      let partitionNodes := (byPartition.lookup node.partition).getD ∅
      match partitionNodes.lookup node.name with
      | some existing =>
        if existing ≠ node then
          .error ("partition " ++ node.partition ++ " node " ++ node.name ++
            " has conflicting records")
        else .ok byPartition
      | none => .ok (byPartition.insert node.partition (partitionNodes.insert node.name node))

def addPartitionResources (partition : Partition) (node : Node) : Except String Partition :=
  if (wrap64 (mathMaxInt64.val - partition.allocatedCPUs.val)).val < node.allocatedCPUs.val ∨
      (wrap64 (mathMaxInt64.val - partition.totalCPUs.val)).val < node.totalCPUs.val ∨
      (wrap64 (mathMaxInt64.val - partition.memoryMB.val)).val < node.memoryMB.val then
    .error ("partition " ++ partition.name ++ " resources exceed supported range")
  else .ok
    { partition with
      allocatedCPUs := wrap64 (partition.allocatedCPUs.val + node.allocatedCPUs.val)
      totalCPUs := wrap64 (partition.totalCPUs.val + node.totalCPUs.val)
      memoryMB := wrap64 (partition.memoryMB.val + node.memoryMB.val) }

/-- The body of the loop over the nodes of one partition. -/
def addToPartition (partition : Partition) (node : Node) : Except String Partition :=
  let partition :=
    if node.online then
      { partition with onlineNodes := wrap64 (partition.onlineNodes.val + 1) }
    else partition
  addPartitionResources partition node

variable [CPUPercent]

/-- The body of the loop over the partitions. -/
def sumPartition (name : String) (partitionNodes : AList fun _ : String => Node) :
    Except String Partition := do
  let zero := wrap64 0
  let partition ← (partitionNodes.entries.map Sigma.snd).foldlM addToPartition
    ⟨name, wrap64 partitionNodes.entries.length, zero, zero, zero, zero, zero⟩
  return if 0 < partition.totalCPUs.val then
    { partition with
      cpuUtilization := CPUPercent.percent partition.allocatedCPUs partition.totalCPUs }
  else partition

def partitionTable (nodes : List Node) : Except String PartitionTable :=
  nodes.foldlM addPartitionNode ∅

def aggregatePartitions (nodes : List Node) : Except String (List Partition) := do
  let byPartition ← partitionTable nodes
  let partitions ← byPartition.entries.mapM fun entry => sumPartition entry.1 entry.2
  return sortSlice (fun x y => decide (x.name < y.name)) partitions

omit [CPUPercent]

/-! ## The nodes of a partition -/

/-- A node with the resources and texts that the first loop asks for. -/
structure SoundNode (node : Node) : Prop where
  name : node.name ≠ ""
  partition : node.partition ≠ ""
  total : 0 ≤ node.totalCPUs.val
  allocated : 0 ≤ node.allocatedCPUs.val ∧ node.allocatedCPUs.val ≤ node.totalCPUs.val
  memory : 0 ≤ node.memoryMB.val
  texts : ∀ text ∈ [node.partition, node.name], DetailText text

/-- The table after the nodes `es`: under a partition and a name stands the first of them with
    both. -/
structure TableInv (es : List Node) (t : PartitionTable) : Prop where
  lookup : ∀ p n, ((t.lookup p).getD ∅).lookup n =
    es.find? fun x => decide (x.partition = p ∧ x.name = n)
  keys : ∀ p, p ∈ t ↔ ∃ x ∈ es, x.partition = p

theorem tableInv_nil : TableInv [] ∅ where
  lookup p n := by simp
  keys p := by simp

section Table

variable {es : List Node} {t t' : PartitionTable} {node : Node}

/-- A node that stands in the table already. -/
private theorem tableInv_known (h : TableInv es t)
    (hfind : es.find? (fun x => decide (x.partition = node.partition ∧ x.name = node.name)) =
      some node) : TableInv (es ++ [node]) t where
  lookup p n := by
    rw [h.lookup, List.find?_append]
    by_cases hkey : node.partition = p ∧ node.name = n
    · obtain ⟨rfl, rfl⟩ := hkey
      rw [hfind, Option.some_or]
    · simp [hkey]
  keys p := by
    rw [h.keys]
    constructor
    · intro hp
      obtain ⟨x, hx, hxp⟩ := hp
      exact ⟨x, List.mem_append_left _ hx, hxp⟩
    · intro hp
      obtain ⟨x, hx, hxp⟩ := hp
      rcases List.mem_append.mp hx with hx | hx
      · exact ⟨x, hx, hxp⟩
      · rw [List.mem_singleton.mp hx] at hxp
        exact ⟨node, List.mem_of_find?_eq_some hfind, hxp⟩

/-- A node that is new under its partition. -/
private theorem tableInv_new (h : TableInv es t)
    (hfind : es.find? (fun x => decide (x.partition = node.partition ∧ x.name = node.name)) =
      none) :
    TableInv (es ++ [node]) (t.insert node.partition
      (((t.lookup node.partition).getD ∅).insert node.name node)) where
  lookup p n := by
    rw [List.find?_append, ← h.lookup]
    by_cases hp : p = node.partition
    · subst hp
      rw [AList.lookup_insert, Option.getD_some]
      by_cases hn : n = node.name
      · subst hn
        rw [AList.lookup_insert, h.lookup, hfind]
        simp
      · rw [AList.lookup_insert_ne hn]
        simp [Ne.symm hn]
    · rw [AList.lookup_insert_ne hp]
      simp [Ne.symm hp]
  keys p := by
    rw [AList.mem_insert, h.keys]
    simp only [List.mem_append, List.mem_singleton, or_and_right, exists_or, exists_eq_left]
    rw [or_comm, eq_comm (a := p)]

/-- What the first loop keeps of a node that it takes. -/
theorem addPartitionNode_ok (h : TableInv es t) (hadd : addPartitionNode t node = .ok t') :
    SoundNode node ∧ TableInv (es ++ [node]) t' := by
  unfold addPartitionNode at hadd
  split at hadd
  · cases hadd
  next hnames =>
  split at hadd
  · cases hadd
  next hresources =>
  split at hadd
  · cases hadd
  next htexts =>
  have hsound : SoundNode node := by
    have htexts := (validateDetailStrings_ok_iff _).mp htexts
    exact ⟨fun hn => hnames (.inl hn), fun hp => hnames (.inr hp), by omega, by omega, by omega,
      htexts⟩
  refine ⟨hsound, ?_⟩
  dsimp only at hadd
  split at hadd
  · next existing hex =>
    split at hadd
    · cases hadd
    · next heq =>
      cases hadd
      rw [h.lookup, not_not.mp heq] at hex
      exact tableInv_known h hex
  · next hnew =>
    cases hadd
    rw [h.lookup] at hnew
    exact tableInv_new h hnew

/-- The first loop takes a sound node whose earlier records are the same. -/
theorem addPartitionNode_isOk (h : TableInv es t) (hsound : SoundNode node)
    (hsame : ∀ x ∈ es, x.partition = node.partition → x.name = node.name → x = node) :
    ∃ t', addPartitionNode t node = .ok t' ∧ TableInv (es ++ [node]) t' := by
  have hnames : ¬(node.name = "" ∨ node.partition = "") := by
    simp [hsound.name, hsound.partition]
  have hresources : ¬(node.totalCPUs.val < 0 ∨ node.allocatedCPUs.val < 0 ∨
      node.totalCPUs.val < node.allocatedCPUs.val ∨ node.memoryMB.val < 0) := by
    have htotal := hsound.total
    have hallocated := hsound.allocated
    have hmemory := hsound.memory
    omega
  have htexts := (validateDetailStrings_ok_iff _).mpr hsound.texts
  unfold addPartitionNode
  rw [if_neg hnames, if_neg hresources, htexts]
  dsimp only
  rw [h.lookup]
  cases hfind : es.find? fun x => decide (x.partition = node.partition ∧ x.name = node.name) with
  | none => exact ⟨_, rfl, tableInv_new h hfind⟩
  | some existing =>
    have hkey : existing.partition = node.partition ∧ existing.name = node.name := by
      simpa using List.find?_some hfind
    have heq := hsame existing (List.mem_of_find?_eq_some hfind) hkey.1 hkey.2
    rw [heq] at hfind
    refine ⟨t, ?_, tableInv_known h hfind⟩
    simp [heq]

end Table

/-! ## The sums of a partition -/

def resourceSum (f : Node → GoInt) (nodes : List Node) : Int :=
  (nodes.map fun node => (f node).val).sum

/-- The partition `s'` is `s` with the nodes added to its sums. -/
structure SumsFrom (s : Partition) (nodes : List Node) (s' : Partition) : Prop where
  name : s'.name = s.name
  nodeCount : s'.nodeCount = s.nodeCount
  onlineNodes : s'.onlineNodes.val = s.onlineNodes.val + ((nodes.filter Node.online).length : Nat)
  allocatedCPUs : s'.allocatedCPUs.val =
    s.allocatedCPUs.val + resourceSum Node.allocatedCPUs nodes
  totalCPUs : s'.totalCPUs.val = s.totalCPUs.val + resourceSum Node.totalCPUs nodes
  memoryMB : s'.memoryMB.val = s.memoryMB.val + resourceSum Node.memoryMB nodes

/-- Sums that are not negative, and not more online nodes than CPUs. -/
structure SumsNonneg (s : Partition) : Prop where
  onlineNodes : 0 ≤ s.onlineNodes.val ∧ s.onlineNodes.val ≤ s.totalCPUs.val
  allocatedCPUs : 0 ≤ s.allocatedCPUs.val
  memoryMB : 0 ≤ s.memoryMB.val

/-- The resources of a node that sinfo reports. -/
structure NodeResources (node : Node) : Prop where
  totalCPUs : 0 < node.totalCPUs.val
  allocatedCPUs : 0 ≤ node.allocatedCPUs.val
  memoryMB : 0 ≤ node.memoryMB.val

theorem resourceSum_cons (f : Node → GoInt) (node : Node) (nodes : List Node) :
    resourceSum f (node :: nodes) = (f node).val + resourceSum f nodes := by
  simp [resourceSum]

theorem resourceSum_singleton (f : Node → GoInt) (node : Node) :
    resourceSum f [node] = (f node).val := by
  simp [resourceSum]

theorem resourceSum_nonneg {f : Node → GoInt} {nodes : List Node}
    (h : ∀ node ∈ nodes, 0 ≤ (f node).val) : 0 ≤ resourceSum f nodes := by
  apply List.sum_nonneg
  intro x hx
  obtain ⟨node, hnode, rfl⟩ := List.mem_map.mp hx
  exact h node hnode

section Sums

variable {s s' : Partition} {node : Node}

/-- The guarded sums take a node exactly when they fit. -/
theorem addPartitionResources_ok_iff (hsalloc : 0 ≤ s.allocatedCPUs.val)
    (hstotal : 0 ≤ s.totalCPUs.val) (hsmemory : 0 ≤ s.memoryMB.val) (hn : NodeResources node) :
    (∀ s', addPartitionResources s node = .ok s' →
      s'.name = s.name ∧ s'.nodeCount = s.nodeCount ∧ s'.onlineNodes = s.onlineNodes ∧
        s'.allocatedCPUs.val = s.allocatedCPUs.val + node.allocatedCPUs.val ∧
        s'.totalCPUs.val = s.totalCPUs.val + node.totalCPUs.val ∧
        s'.memoryMB.val = s.memoryMB.val + node.memoryMB.val) ∧
    ((∃ s', addPartitionResources s node = .ok s') ↔
      s.allocatedCPUs.val + node.allocatedCPUs.val < 2 ^ 63 ∧
        s.totalCPUs.val + node.totalCPUs.val < 2 ^ 63 ∧
        s.memoryMB.val + node.memoryMB.val < 2 ^ 63) := by
  unfold addPartitionResources
  by_cases hover : 2 ^ 63 ≤ s.allocatedCPUs.val + node.allocatedCPUs.val ∨
      2 ^ 63 ≤ s.totalCPUs.val + node.totalCPUs.val ∨
      2 ^ 63 ≤ s.memoryMB.val + node.memoryMB.val
  · have hguard := hover
    rw [← maxInt64_sub_lt_iff hsalloc, ← maxInt64_sub_lt_iff hstotal,
      ← maxInt64_sub_lt_iff hsmemory] at hguard
    rw [if_pos hguard]
    constructor
    · intro s' h; cases h
    · refine iff_of_false ?_ (by omega)
      intro h
      obtain ⟨s', h⟩ := h
      cases h
  · have hguard := hover
    rw [← maxInt64_sub_lt_iff hsalloc, ← maxInt64_sub_lt_iff hstotal,
      ← maxInt64_sub_lt_iff hsmemory] at hguard
    rw [if_neg hguard]
    constructor
    · intro s' h
      cases h
      exact ⟨rfl, rfl, rfl,
        wrap64_add_val hsalloc hn.allocatedCPUs fun h => hover (.inl h),
        wrap64_add_val hstotal hn.totalCPUs.le fun h => hover (.inr (.inl h)),
        wrap64_add_val hsmemory hn.memoryMB fun h => hover (.inr (.inr h))⟩
    · exact iff_of_true ⟨_, rfl⟩ (by omega)

/-- Sums that a node was added to count it when it is online. -/
theorem sums_of_node (hs : SumsNonneg s) (hn : NodeResources node) (hname : s'.name = s.name)
    (hcount : s'.nodeCount = s.nodeCount)
    (hones : s'.onlineNodes.val = s.onlineNodes.val + (([node].filter Node.online).length : Nat))
    (hsalloc : s'.allocatedCPUs.val = s.allocatedCPUs.val + node.allocatedCPUs.val)
    (hstotal : s'.totalCPUs.val = s.totalCPUs.val + node.totalCPUs.val)
    (hsmemory : s'.memoryMB.val = s.memoryMB.val + node.memoryMB.val) :
    SumsFrom s [node] s' ∧ SumsNonneg s' := by
  have honline := hs.onlineNodes
  have hone : (([node].filter Node.online).length : Int) ≤ 1 := by
    have hle := List.length_filter_le Node.online [node]
    simp only [List.length_singleton] at hle
    omega
  refine ⟨⟨hname, hcount, hones, ?_, ?_, ?_⟩, ⟨?_, ?_⟩, ?_, ?_⟩
  · rw [resourceSum_singleton]
    exact hsalloc
  · rw [resourceSum_singleton]
    exact hstotal
  · rw [resourceSum_singleton]
    exact hsmemory
  · omega
  · have := hn.totalCPUs
    omega
  · rw [hsalloc]
    exact add_nonneg hs.allocatedCPUs hn.allocatedCPUs
  · rw [hsmemory]
    exact add_nonneg hs.memoryMB hn.memoryMB

/-- One node: the sums take it exactly when they fit. -/
theorem addToPartition_ok_iff (hs : SumsNonneg s) (hn : NodeResources node) :
    (∀ s', addToPartition s node = .ok s' →
      SumsFrom s [node] s' ∧ SumsNonneg s') ∧
    ((∃ s', addToPartition s node = .ok s') ↔
      s.allocatedCPUs.val + node.allocatedCPUs.val < 2 ^ 63 ∧
        s.totalCPUs.val + node.totalCPUs.val < 2 ^ 63 ∧
        s.memoryMB.val + node.memoryMB.val < 2 ^ 63) := by
  have honline := hs.onlineNodes
  have htotal : 0 ≤ s.totalCPUs.val := honline.1.trans honline.2
  unfold addToPartition
  by_cases hon : node.online = true
  · rw [if_pos hon]
    obtain ⟨hfrom, hfits⟩ := addPartitionResources_ok_iff
      (s := { s with onlineNodes := wrap64 (s.onlineNodes.val + 1) })
      hs.allocatedCPUs htotal hs.memoryMB hn
    refine ⟨?_, hfits⟩
    intro s' h
    obtain ⟨hname, hcount, hones, hsalloc, hstotal, hsmemory⟩ := hfrom s' h
    refine sums_of_node hs hn hname hcount ?_ hsalloc hstotal hsmemory
    -- the count of online nodes stays below the sum of the CPUs, which fits
    have hpos := hn.totalCPUs
    have hlt := s'.totalCPUs.2.2
    rw [hstotal] at hlt
    change s.totalCPUs.val + node.totalCPUs.val < 2 ^ 63 at hlt
    rw [hones, wrap64_val (by omega) (by omega)]
    simp [hon]
  · rw [if_neg hon]
    obtain ⟨hfrom, hfits⟩ := addPartitionResources_ok_iff hs.allocatedCPUs htotal hs.memoryMB hn
    refine ⟨?_, hfits⟩
    intro s' h
    obtain ⟨hname, hcount, hones, hsalloc, hstotal, hsmemory⟩ := hfrom s' h
    refine sums_of_node hs hn hname hcount ?_ hsalloc hstotal hsmemory
    rw [hones]
    simp [hon]

/-- The loop over the nodes of a partition. -/
theorem addToPartitions_ok_iff {nodes : List Node} (hs : SumsNonneg s)
    (hn : ∀ node ∈ nodes, NodeResources node) :
    (∀ s', nodes.foldlM addToPartition s = .ok s' → SumsFrom s nodes s') ∧
    ((∃ s', nodes.foldlM addToPartition s = .ok s') ↔
      s.allocatedCPUs.val + resourceSum Node.allocatedCPUs nodes < 2 ^ 63 ∧
        s.totalCPUs.val + resourceSum Node.totalCPUs nodes < 2 ^ 63 ∧
        s.memoryMB.val + resourceSum Node.memoryMB nodes < 2 ^ 63) := by
  induction nodes generalizing s with
  | nil =>
    have halloc := s.allocatedCPUs.2.2
    have htotal := s.totalCPUs.2.2
    have hmemory := s.memoryMB.2.2
    constructor
    · intro s' h
      obtain rfl : s = s' := by simpa [pure, Except.pure] using h
      exact ⟨rfl, rfl, by simp, by simp [resourceSum], by simp [resourceSum], by simp [resourceSum]⟩
    · refine iff_of_true ⟨s, rfl⟩ ?_
      simp only [resourceSum, List.map_nil, List.sum_nil, Int.add_zero]
      exact ⟨halloc, htotal, hmemory⟩
  | cons node nodes ih =>
    have hnode := hn node List.mem_cons_self
    have hrest : ∀ node' ∈ nodes, NodeResources node' := fun node' h =>
      hn node' (List.mem_cons_of_mem node h)
    obtain ⟨hfrom, hfits⟩ := addToPartition_ok_iff hs hnode
    have halloc := resourceSum_nonneg fun node' h => (hrest node' h).allocatedCPUs
    have htotal := resourceSum_nonneg fun node' h => (hrest node' h).totalCPUs.le
    have hmemory := resourceSum_nonneg fun node' h => (hrest node' h).memoryMB
    rw [List.foldlM_cons, resourceSum_cons, resourceSum_cons, resourceSum_cons]
    cases hadd : addToPartition s node with
    | error err =>
      constructor
      · intro s' h; cases h
      · refine iff_of_false ?_ ?_
        · intro h
          obtain ⟨s', h⟩ := h
          cases h
        · intro h
          obtain ⟨s', h⟩ := hfits.mpr (by omega)
          rw [hadd] at h
          cases h
    | ok s₁ =>
      obtain ⟨hone, hs₁⟩ := hfrom s₁ hadd
      obtain ⟨hall, hallfits⟩ := ih hs₁ hrest
      have h1 := hone.allocatedCPUs
      have h2 := hone.totalCPUs
      have h3 := hone.memoryMB
      rw [resourceSum_singleton] at h1 h2 h3
      constructor
      · intro s' h
        have hs' := hall s' h
        refine ⟨hs'.name.trans hone.name, hs'.nodeCount.trans hone.nodeCount, ?_, ?_, ?_, ?_⟩
        · rw [hs'.onlineNodes, hone.onlineNodes]
          have hlength : ((node :: nodes).filter Node.online).length =
              ([node].filter Node.online).length + (nodes.filter Node.online).length := by
            rw [← List.length_append, ← List.filter_append, List.singleton_append]
          omega
        · rw [hs'.allocatedCPUs, resourceSum_cons]
          omega
        · rw [hs'.totalCPUs, resourceSum_cons]
          omega
        · rw [hs'.memoryMB, resourceSum_cons]
          omega
      · have hsame : (∃ s', (Except.ok s₁ >>= fun s₁ => nodes.foldlM addToPartition s₁) = .ok s') ↔
            ∃ s', nodes.foldlM addToPartition s₁ = .ok s' := Iff.rfl
        rw [hsame, hallfits]
        omega

end Sums

/-- The partition holds the sums over the nodes. -/
structure SumsOf (nodes : List Node) (partition : Partition) : Prop where
  nodeCount : partition.nodeCount.val = (nodes.length : Nat)
  onlineNodes : partition.onlineNodes.val = ((nodes.filter Node.online).length : Nat)
  allocatedCPUs : partition.allocatedCPUs.val = resourceSum Node.allocatedCPUs nodes
  totalCPUs : partition.totalCPUs.val = resourceSum Node.totalCPUs nodes
  memoryMB : partition.memoryMB.val = resourceSum Node.memoryMB nodes

/-- No sum over the nodes leaves the range of an `int64`. -/
def SumsFit (nodes : List Node) : Prop :=
  resourceSum Node.allocatedCPUs nodes < 2 ^ 63 ∧ resourceSum Node.totalCPUs nodes < 2 ^ 63 ∧
    resourceSum Node.memoryMB nodes < 2 ^ 63

instance (nodes : List Node) : Decidable (SumsFit nodes) :=
  inferInstanceAs (Decidable (_ ∧ _ ∧ _))

/-- Every node has a CPU, so there are not more nodes than CPUs. -/
theorem length_le_resourceSum {nodes : List Node} (h : ∀ node ∈ nodes, NodeResources node) :
    (nodes.length : Int) ≤ resourceSum Node.totalCPUs nodes := by
  induction nodes with
  | nil => simp [resourceSum]
  | cons node nodes ih =>
    have hnode := (h node List.mem_cons_self).totalCPUs
    have hrest := ih fun node' h' => h node' (List.mem_cons_of_mem node h')
    rw [resourceSum_cons, List.length_cons]
    push_cast
    omega

/-- A partition has its sums exactly when they fit. -/
theorem sumPartition_ok_iff [CPUPercent] (name : String)
    {partitionNodes : AList fun _ : String => Node}
    (hn : ∀ node ∈ partitionNodes.entries.map Sigma.snd, NodeResources node) :
    (∀ partition, sumPartition name partitionNodes = .ok partition →
      partition.name = name ∧ SumsOf (partitionNodes.entries.map Sigma.snd) partition) ∧
    ((∃ partition, sumPartition name partitionNodes = .ok partition) ↔
      SumsFit (partitionNodes.entries.map Sigma.snd)) := by
  set nodes := partitionNodes.entries.map Sigma.snd with hnodes
  set s₀ : Partition :=
    ⟨name, wrap64 partitionNodes.entries.length, wrap64 0, wrap64 0, wrap64 0, wrap64 0, wrap64 0⟩
    with hs₀
  have h0 : (wrap64 0).val = 0 := wrap64_val (by omega) (by omega)
  have hnonneg : SumsNonneg s₀ := ⟨⟨h0.ge, le_refl _⟩, h0.ge, h0.ge⟩
  obtain ⟨hfrom, hfits⟩ := addToPartitions_ok_iff hnonneg hn
  have hfits' : (∃ s', nodes.foldlM addToPartition s₀ = .ok s') ↔ SumsFit nodes := by
    rw [hfits]
    show (wrap64 0).val + _ < _ ∧ (wrap64 0).val + _ < _ ∧ (wrap64 0).val + _ < _ ↔ _
    rw [h0, Int.zero_add, Int.zero_add, Int.zero_add]
    exact Iff.rfl
  have hrun : sumPartition name partitionNodes = nodes.foldlM addToPartition s₀ >>= fun s' =>
      pure (if 0 < s'.totalCPUs.val then
        { s' with cpuUtilization := CPUPercent.percent s'.allocatedCPUs s'.totalCPUs } else s') :=
    rfl
  rw [hrun]
  cases hfold : nodes.foldlM addToPartition s₀ with
  | error err =>
    constructor
    · intro partition h; cases h
    · rw [← hfits', hfold]
      constructor
      · intro h
        obtain ⟨partition, h⟩ := h
        cases h
      · intro h
        obtain ⟨s', h⟩ := h
        cases h
  | ok s' =>
    have hs' := hfrom s' hfold
    have hfit : SumsFit nodes := hfits'.mp ⟨s', hfold⟩
    refine ⟨?_, iff_of_true ⟨_, rfl⟩ hfit⟩
    intro partition h
    have hlen := length_le_resourceSum hn
    have hlength : partitionNodes.entries.length = nodes.length := by rw [hnodes, List.length_map]
    have hcount : s'.nodeCount.val = (nodes.length : Nat) := by
      have htotal := hfit.2.1
      rw [hs'.nodeCount, ← hlength]
      exact wrap64_val (by omega) (by omega)
    have hsums : SumsOf nodes s' := by
      refine ⟨hcount, ?_, ?_, ?_, ?_⟩
      · rw [hs'.onlineNodes]
        show (wrap64 0).val + _ = _
        rw [h0, Int.zero_add]
      · rw [hs'.allocatedCPUs]
        show (wrap64 0).val + _ = _
        rw [h0, Int.zero_add]
      · rw [hs'.totalCPUs]
        show (wrap64 0).val + _ = _
        rw [h0, Int.zero_add]
      · rw [hs'.memoryMB]
        show (wrap64 0).val + _ = _
        rw [h0, Int.zero_add]
    simp only [bind, Except.bind, pure, Except.pure, Except.ok.injEq] at h
    subst h
    split
    · exact ⟨hs'.name, hsums.nodeCount, hsums.onlineNodes, hsums.allocatedCPUs, hsums.totalCPUs,
        hsums.memoryMB⟩
    · exact ⟨hs'.name, hsums⟩

end OpenHpcWeb.Slurm
