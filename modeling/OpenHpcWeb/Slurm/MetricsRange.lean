/-
  The range of the cluster metrics (internal/slurm/client.go).

  `parseNodesJSON` admits every node's CPU counts up to the largest int; `aggregateMetrics` adds
  them up and multiplies by 100 without a guard. `metricsSums` lists the results of its additions
  and multiplications before they are cut to 64 bits.

  * `onlineSums_fit_iff`: the loop over the nodes stays in range exactly when its last sum does.
  * `noWrap_iff`: so does the function, when its last product does too.
  * `cpuUsage_of_fits`: then the percentage is exact, rounded half up, for every order.
-/
import Mathlib.Data.Rat.Floor
import Mathlib.Tactic.FieldSimp
import OpenHpcWeb.Slurm.Metrics
import OpenHpcWeb.Slurm.Partitions

namespace OpenHpcWeb.Slurm

open OpenHpcWeb.Go OpenHpcWeb.Cluster OpenHpcWeb.Lib

/-! ## The results before they are cut -/

def FitsInt (n : Int) : Prop := -2 ^ 63 ≤ n ∧ n < 2 ^ 63

/-- The additions of the loop over the unique nodes. -/
def onlineSums : OnlineTotals → List Node → List Int
  | _, [] => []
  | t, node :: nodes =>
    (if node.online then
      [t.onlineNodes.val + 1, t.totalOnlineCPUs.val + node.totalCPUs.val,
        t.allocatedOnlineCPUs.val + node.allocatedCPUs.val]
    else []) ++ onlineSums (addOnline t node) nodes

/-- The product and the sum of the percentage. -/
def usageSums (t : OnlineTotals) : List Int :=
  if 0 < t.totalOnlineCPUs.val then
    [t.allocatedOnlineCPUs.val * 100,
      (wrap64 (t.allocatedOnlineCPUs.val * 100)).val + t.totalOnlineCPUs.val.tdiv 2]
  else []

/-- The additions of the loop over the jobs. -/
def jobSums : Metrics → List Job → List Int
  | _, [] => []
  | metrics, job :: jobs =>
    (if toUpper job.state = "RUNNING" then [metrics.runningJobs.val + 1]
    else if toUpper job.state = "PENDING" then [metrics.queuedJobs.val + 1]
    else []) ++ jobSums (addJob metrics job) jobs

def zeroTotals : OnlineTotals := ⟨wrap64 0, wrap64 0, wrap64 0⟩

/-- The results of the additions and multiplications of `aggregateMetrics`. -/
def metricsSums (nodes : List Node) (jobs : List Job) : List Int :=
  match nodes.foldlM addUniqueNode ∅ with
  | .error _ => []
  | .ok uniqueNodes =>
    let unique := uniqueNodes.entries.map Sigma.snd
    let totals := unique.foldl addOnline zeroTotals
    onlineSums zeroTotals unique ++ usageSums totals ++
      jobSums ⟨totals.onlineNodes, wrap64 0, wrap64 0, wrap64 0⟩ jobs

/-- No addition or multiplication of `aggregateMetrics` wraps around. -/
def NoWrap (nodes : List Node) (jobs : List Job) : Prop := ∀ n ∈ metricsSums nodes jobs, FitsInt n

/-! ## The loop over the nodes -/

/-- The sum of a count over the online nodes. -/
def onlineSum (f : Node → GoInt) (nodes : List Node) : Int :=
  resourceSum f (nodes.filter Node.online)

/-- The counts of a node that sinfo reports. -/
structure NodeCounts (node : Node) : Prop where
  total : 0 < node.totalCPUs.val
  allocated : 0 ≤ node.allocatedCPUs.val ∧ node.allocatedCPUs.val ≤ node.totalCPUs.val

/-- Totals of nodes with such counts. -/
structure Counted (t : OnlineTotals) : Prop where
  online : 0 ≤ t.onlineNodes.val ∧ t.onlineNodes.val ≤ t.totalOnlineCPUs.val
  allocated : 0 ≤ t.allocatedOnlineCPUs.val ∧
    t.allocatedOnlineCPUs.val ≤ t.totalOnlineCPUs.val

theorem counted_zero : Counted zeroTotals := by
  have h0 : (wrap64 0).val = 0 := wrap64_val (by omega) (by omega)
  constructor
  · simp [zeroTotals, h0]
  · simp [zeroTotals, h0]

theorem onlineSum_cons (f : Node → GoInt) (node : Node) (nodes : List Node) :
    onlineSum f (node :: nodes) =
      (if node.online then (f node).val else 0) + onlineSum f nodes := by
  unfold onlineSum
  by_cases h : node.online = true
  · rw [List.filter_cons_of_pos h, resourceSum_cons, if_pos h]
  · rw [List.filter_cons_of_neg h, if_neg h, Int.zero_add]

theorem onlineSum_nonneg {f : Node → GoInt} {nodes : List Node}
    (h : ∀ node ∈ nodes, 0 ≤ (f node).val) : 0 ≤ onlineSum f nodes :=
  resourceSum_nonneg fun node hnode => h node (List.mem_filter.mp hnode).1

theorem onlineSum_perm (f : Node → GoInt) {nodes nodes' : List Node} (h : nodes'.Perm nodes) :
    onlineSum f nodes' = onlineSum f nodes := by
  unfold onlineSum resourceSum
  exact ((h.filter _).map _).sum_eq

/-- An online node whose CPUs still fit is added exactly. -/
theorem addOnline_exact {t : OnlineTotals} {node : Node} (ht : Counted t) (hn : NodeCounts node)
    (hfits : t.totalOnlineCPUs.val + (if node.online then node.totalCPUs.val else 0) < 2 ^ 63) :
    Counted (addOnline t node) ∧
      (addOnline t node).totalOnlineCPUs.val =
        t.totalOnlineCPUs.val + (if node.online then node.totalCPUs.val else 0) ∧
      (addOnline t node).allocatedOnlineCPUs.val =
        t.allocatedOnlineCPUs.val + (if node.online then node.allocatedCPUs.val else 0) := by
  obtain ⟨hone, honle⟩ := ht.online
  obtain ⟨halloc, hallocle⟩ := ht.allocated
  obtain ⟨hnalloc, hnallocle⟩ := hn.allocated
  have hntotal := hn.total
  unfold addOnline
  by_cases hon : node.online = true
  · simp only [hon, if_true] at hfits ⊢
    have hv1 : (wrap64 (t.onlineNodes.val + 1)).val = t.onlineNodes.val + 1 :=
      wrap64_val (by omega) (by omega)
    have hv2 := wrap64_add_val (x := t.totalOnlineCPUs) (y := node.totalCPUs) (by omega) (by omega)
      (by omega)
    have hv3 := wrap64_add_val (x := t.allocatedOnlineCPUs) (y := node.allocatedCPUs) (by omega)
      (by omega) (by omega)
    refine ⟨⟨⟨?_, ?_⟩, ?_, ?_⟩, hv2, hv3⟩
    all_goals
      dsimp only
      omega
  · simp only [hon, Bool.false_eq_true, if_false, Int.add_zero]
    exact ⟨ht, trivial, trivial⟩

/-- The loop stays in range exactly when the CPUs of the online nodes fit together, and then its
    totals are exact. -/
theorem onlineSums_fit_iff {t : OnlineTotals} {nodes : List Node} (ht : Counted t)
    (hn : ∀ node ∈ nodes, NodeCounts node) :
    ((∀ n ∈ onlineSums t nodes, FitsInt n) ↔
      t.totalOnlineCPUs.val + onlineSum Node.totalCPUs nodes < 2 ^ 63) ∧
    (t.totalOnlineCPUs.val + onlineSum Node.totalCPUs nodes < 2 ^ 63 →
      (nodes.foldl addOnline t).totalOnlineCPUs.val =
        t.totalOnlineCPUs.val + onlineSum Node.totalCPUs nodes ∧
      (nodes.foldl addOnline t).allocatedOnlineCPUs.val =
        t.allocatedOnlineCPUs.val + onlineSum Node.allocatedCPUs nodes) := by
  induction nodes generalizing t with
  | nil =>
    have hlt := t.totalOnlineCPUs.2.2
    have hsum : ∀ f, onlineSum f [] = 0 := fun f => by simp [onlineSum, resourceSum]
    simp only [hsum, Int.add_zero]
    exact ⟨iff_of_true (fun n hmem => by cases hmem) hlt, fun _ => ⟨rfl, rfl⟩⟩
  | cons node nodes ih =>
    have hnode := hn node List.mem_cons_self
    have hrest : ∀ node' ∈ nodes, NodeCounts node' := fun node' h =>
      hn node' (List.mem_cons_of_mem node h)
    have hsum := onlineSum_nonneg fun node' h => (hrest node' h).total.le
    rw [onlineSum_cons, onlineSum_cons]
    by_cases hfits :
        t.totalOnlineCPUs.val + (if node.online then node.totalCPUs.val else 0) < 2 ^ 63
    · obtain ⟨ht', htotal, halloc⟩ := addOnline_exact ht hnode hfits
      obtain ⟨hiff, hexact⟩ := ih ht' hrest
      have hhead : node.online = true → FitsInt (t.onlineNodes.val + 1) ∧
          FitsInt (t.totalOnlineCPUs.val + node.totalCPUs.val) ∧
          FitsInt (t.allocatedOnlineCPUs.val + node.allocatedCPUs.val) := by
        intro hon
        rw [if_pos hon] at hfits
        have hone := ht.online
        have halloc := ht.allocated
        have htotal := hnode.total
        have hnalloc := hnode.allocated
        refine ⟨⟨?_, ?_⟩, ⟨?_, ?_⟩, ?_, ?_⟩ <;> omega
      rw [htotal, Int.add_assoc] at hiff hexact
      rw [halloc, Int.add_assoc] at hexact
      refine ⟨?_, hexact⟩
      rw [← hiff, onlineSums]
      by_cases hon : node.online = true
      · obtain ⟨h1, h2, h3⟩ := hhead hon
        simp [hon, h1, h2, h3]
      · simp [hon]
    · have hon : node.online = true := by
        by_contra hoff
        rw [if_neg hoff, Int.add_zero] at hfits
        exact hfits t.totalOnlineCPUs.2.2
      rw [if_pos hon] at hfits ⊢
      refine ⟨iff_of_false ?_ (by omega), fun h => absurd h (by omega)⟩
      intro h
      have htotal := h (t.totalOnlineCPUs.val + node.totalCPUs.val) (by simp [onlineSums, hon])
      exact hfits htotal.2

/-! ## The unique nodes -/

/-- Nodes with distinct names are all unique. -/
theorem addUniqueNode_nodup {nodes : List Node} {t : AList fun _ : String => Node}
    (hnd : (nodes.map Node.name).Nodup) (hnew : ∀ node ∈ nodes, node.name ∉ t) :
    ∃ t', nodes.foldlM addUniqueNode t = .ok t' ∧
      t'.entries.map Sigma.snd = nodes.reverse ++ t.entries.map Sigma.snd := by
  induction nodes generalizing t with
  | nil => exact ⟨t, rfl, by simp⟩
  | cons node nodes ih =>
    obtain ⟨hfresh, hnd'⟩ := List.nodup_cons.mp hnd
    have hnode : node.name ∉ t := hnew node List.mem_cons_self
    have hadd : addUniqueNode t node = .ok (t.insert node.name node) := by
      unfold addUniqueNode
      rw [AList.lookup_eq_none.mpr hnode]
    have hrest : ∀ node' ∈ nodes, node'.name ∉ t.insert node.name node := by
      intro node' h
      rw [AList.mem_insert, not_or]
      refine ⟨?_, hnew node' (List.mem_cons_of_mem _ h)⟩
      intro hname
      exact hfresh (List.mem_map.mpr ⟨node', h, hname⟩)
    obtain ⟨t', hfold, hentries⟩ := ih hnd' hrest
    refine ⟨t', ?_, ?_⟩
    · rw [List.foldlM_cons, hadd]
      exact hfold
    · rw [hentries, AList.entries_insert_of_notMem hnode]
      simp

/-! ## The percentage -/

/-- The division of the source rounds half up. -/
theorem percent_rounded {allocated total : Int} (htotal : 0 < total) :
    (allocated * 100 + total / 2) / total =
      ⌊(100 * allocated : ℚ) / total + 1 / 2⌋ := by
  symm
  have hpos : (0 : ℚ) < total := by exact_mod_cast htotal
  set q := (allocated * 100 + total / 2) / total with hq
  have hlow : q * total ≤ allocated * 100 + total / 2 := Int.ediv_mul_le _ htotal.ne'
  have hhigh : allocated * 100 + total / 2 < (q + 1) * total :=
    Int.lt_ediv_add_one_mul_self _ htotal
  rw [Int.floor_eq_iff]
  constructor
  · rw [div_add_div _ _ hpos.ne' two_ne_zero, le_div_iff₀ (by positivity)]
    have h : q * (total * 2) ≤ 100 * allocated * 2 + total * 1 := by
      calc q * (total * 2) = 2 * (q * total) := by ring
        _ ≤ 2 * (allocated * 100 + total / 2) := by omega
        _ ≤ 100 * allocated * 2 + total * 1 := by omega
    exact_mod_cast h
  · rw [div_add_div _ _ hpos.ne' two_ne_zero, div_lt_iff₀ (by positivity)]
    have h : 100 * allocated * 2 + total * 1 < (q + 1) * (total * 2) := by
      calc 100 * allocated * 2 + total * 1 < 2 * (allocated * 100 + total / 2 + 1) := by omega
        _ ≤ 2 * ((q + 1) * total) := by omega
        _ = (q + 1) * (total * 2) := by ring
    exact_mod_cast h

/-! ## The jobs -/

/-- Counting jobs leaves the percentage. -/
theorem cpuUsage_addJobs (metrics : Metrics) (jobs : List Job) :
    (jobs.foldl addJob metrics).cpuUsage = metrics.cpuUsage := by
  induction jobs generalizing metrics with
  | nil => rfl
  | cons job jobs ih =>
    rw [List.foldl_cons, ih]
    unfold addJob
    split
    · rfl
    · split <;> rfl

/-- No count of jobs comes to the end of the range before the list does. -/
theorem jobSums_fit {metrics : Metrics} {jobs : List Job} (hr : 0 ≤ metrics.runningJobs.val)
    (hq : 0 ≤ metrics.queuedJobs.val) (hrle : metrics.runningJobs.val + jobs.length < 2 ^ 63)
    (hqle : metrics.queuedJobs.val + jobs.length < 2 ^ 63) :
    ∀ n ∈ jobSums metrics jobs, FitsInt n := by
  induction jobs generalizing metrics with
  | nil => intro n hn; cases hn
  | cons job jobs ih =>
    rw [List.length_cons, Nat.cast_add, Nat.cast_one] at hrle hqle
    have hrun : (wrap64 (metrics.runningJobs.val + 1)).val = metrics.runningJobs.val + 1 :=
      wrap64_val (by omega) (by omega)
    have hqueue : (wrap64 (metrics.queuedJobs.val + 1)).val = metrics.queuedJobs.val + 1 :=
      wrap64_val (by omega) (by omega)
    intro n hn
    rw [jobSums, List.mem_append] at hn
    rcases hn with hn | hn
    · split_ifs at hn
      · rw [List.mem_singleton.mp hn]
        constructor <;> omega
      · rw [List.mem_singleton.mp hn]
        constructor <;> omega
      · cases hn
    · revert n
      unfold addJob
      split_ifs
      · exact ih (by rw [hrun]; omega) hq (by rw [hrun]; omega) (by dsimp only; omega)
      · exact ih hr (by rw [hqueue]; omega) (by dsimp only; omega) (by rw [hqueue]; omega)
      · exact ih hr hq (by omega) (by omega)

/-! ## The metrics of a node list -/

/-- The CPUs of the online nodes, and the dividend of their percentage, fit an `int`. -/
def CountsFit (nodes : List Node) : Prop :=
  onlineSum Node.totalCPUs nodes < 2 ^ 63 ∧
    onlineSum Node.allocatedCPUs nodes * 100 + onlineSum Node.totalCPUs nodes / 2 < 2 ^ 63

/-- A list of nodes as `parseNodesJSON` returns it. -/
structure NodeList (nodes : List Node) : Prop where
  nodup : (nodes.map Node.name).Nodup
  counts : ∀ node ∈ nodes, NodeCounts node

section Metrics

variable {nodes nodes' : List Node} {jobs : List Job}

theorem NodeList.perm (h : NodeList nodes) (hp : nodes'.Perm nodes) : NodeList nodes' where
  nodup := (hp.map Node.name).nodup_iff.mpr h.nodup
  counts node hnode := h.counts node (hp.subset hnode)

theorem CountsFit.perm (h : CountsFit nodes) (hp : nodes'.Perm nodes) : CountsFit nodes' := by
  unfold CountsFit
  rw [onlineSum_perm _ hp, onlineSum_perm _ hp]
  exact h

/-- The totals of the loop over the nodes. -/
def totalsOf (nodes : List Node) : OnlineTotals := nodes.reverse.foldl addOnline zeroTotals

theorem unique_nodes (h : NodeList nodes) :
    ∃ t, nodes.foldlM addUniqueNode ∅ = .ok t ∧ t.entries.map Sigma.snd = nodes.reverse := by
  obtain ⟨t, hfold, hentries⟩ := addUniqueNode_nodup (t := ∅) h.nodup fun node _ => by simp
  exact ⟨t, hfold, by simpa using hentries⟩

/-- The percentage as the source computes it. -/
def usageOf (t : OnlineTotals) : GoInt :=
  if 0 < t.totalOnlineCPUs.val then
    wrap64 ((wrap64 ((wrap64 (t.allocatedOnlineCPUs.val * 100)).val +
      t.totalOnlineCPUs.val.tdiv 2)).val.tdiv t.totalOnlineCPUs.val)
  else wrap64 0

theorem aggregateMetrics_ok (h : NodeList nodes) (jobs : List Job) :
    ∃ metrics, aggregateMetrics nodes jobs = .ok metrics ∧
      metrics.cpuUsage = usageOf (totalsOf nodes) := by
  obtain ⟨t, hfold, hentries⟩ := unique_nodes h
  refine ⟨_, ?_, cpuUsage_addJobs ⟨(totalsOf nodes).onlineNodes, wrap64 0, wrap64 0,
    usageOf (totalsOf nodes)⟩ jobs⟩
  unfold aggregateMetrics
  rw [hfold]
  simp only [bind, Except.bind, pure, Except.pure, hentries]
  rfl

theorem metricsSums_eq (h : NodeList nodes) (jobs : List Job) :
    metricsSums nodes jobs = onlineSums zeroTotals nodes.reverse ++ usageSums (totalsOf nodes) ++
      jobSums ⟨(totalsOf nodes).onlineNodes, wrap64 0, wrap64 0, wrap64 0⟩ jobs := by
  obtain ⟨t, hfold, hentries⟩ := unique_nodes h
  unfold metricsSums
  rw [hfold]
  simp only [hentries]
  rfl

/-- The loop over the nodes, in the order of the map. -/
theorem totals_fit_iff (h : NodeList nodes) :
    ((∀ n ∈ onlineSums zeroTotals nodes.reverse, FitsInt n) ↔
      onlineSum Node.totalCPUs nodes < 2 ^ 63) ∧
    (onlineSum Node.totalCPUs nodes < 2 ^ 63 →
      (totalsOf nodes).totalOnlineCPUs.val = onlineSum Node.totalCPUs nodes ∧
      (totalsOf nodes).allocatedOnlineCPUs.val = onlineSum Node.allocatedCPUs nodes) := by
  have h0 : (wrap64 0).val = 0 := wrap64_val (by omega) (by omega)
  have hcounts := (h.perm (List.reverse_perm nodes)).counts
  have hall := onlineSums_fit_iff counted_zero hcounts
  simp only [zeroTotals, h0, Int.zero_add, onlineSum_perm _ (List.reverse_perm nodes)] at hall
  exact hall

theorem onlineSum_le (h : NodeList nodes) :
    0 ≤ onlineSum Node.allocatedCPUs nodes ∧
      onlineSum Node.allocatedCPUs nodes ≤ onlineSum Node.totalCPUs nodes := by
  refine ⟨onlineSum_nonneg fun node hnode => (h.counts node hnode).allocated.1, ?_⟩
  apply List.sum_le_sum
  intro node hnode
  exact (h.counts node (List.mem_filter.mp hnode).1).allocated.2

theorem noWrap_iff (h : NodeList nodes) (hjobs : jobs.length < 2 ^ 63) :
    NoWrap nodes jobs ↔ CountsFit nodes := by
  obtain ⟨hiff, hexact⟩ := totals_fit_iff h
  obtain ⟨hnonneg, hle⟩ := onlineSum_le h
  have h0 : (wrap64 0).val = 0 := wrap64_val (by omega) (by omega)
  have hjobs' : ∀ n ∈ jobSums ⟨(totalsOf nodes).onlineNodes, wrap64 0, wrap64 0, wrap64 0⟩ jobs,
      FitsInt n :=
    jobSums_fit h0.ge h0.ge (by dsimp only; omega) (by dsimp only; omega)
  have hsplit : NoWrap nodes jobs ↔ (∀ n ∈ onlineSums zeroTotals nodes.reverse, FitsInt n) ∧
      ∀ n ∈ usageSums (totalsOf nodes), FitsInt n := by
    unfold NoWrap
    rw [metricsSums_eq h]
    simp only [List.forall_mem_append]
    exact and_iff_left hjobs'
  rw [hsplit, hiff, CountsFit]
  refine and_congr_right fun hfits => ?_
  obtain ⟨htotal, halloc⟩ := hexact hfits
  unfold usageSums
  rw [htotal, halloc, Int.tdiv_eq_ediv_of_nonneg (by omega)]
  split
  · simp only [List.forall_mem_cons, List.not_mem_nil, false_imp_iff, implies_true, and_true]
    constructor
    · intro hall
      obtain ⟨hproduct, hsum⟩ := hall
      rw [wrap64_val hproduct.1 hproduct.2] at hsum
      exact hsum.2
    · intro hlt
      rw [wrap64_val (by omega) (by omega)]
      refine ⟨⟨?_, ?_⟩, ?_, ?_⟩ <;> omega
  · exact iff_of_true (fun n hn => by cases hn) (by omega)

/-- The percentage of the online nodes' CPUs that are allocated, rounded half up; 0 where there
    are none. -/
def onlinePercent (nodes : List Node) : Int :=
  ⌊(100 * onlineSum Node.allocatedCPUs nodes : ℚ) / onlineSum Node.totalCPUs nodes + 1 / 2⌋

theorem onlinePercent_eq (h : NodeList nodes) :
    onlinePercent nodes =
      if 0 < onlineSum Node.totalCPUs nodes then
        (onlineSum Node.allocatedCPUs nodes * 100 + onlineSum Node.totalCPUs nodes / 2) /
          onlineSum Node.totalCPUs nodes
      else 0 := by
  obtain ⟨hnonneg, hle⟩ := onlineSum_le h
  split
  · next hpos => exact (percent_rounded hpos).symm
  · next hzero =>
    have htotal : onlineSum Node.totalCPUs nodes = 0 := by omega
    rw [onlinePercent, htotal, Int.cast_zero, div_zero, zero_add]
    norm_num

theorem onlinePercent_range (h : NodeList nodes) :
    0 ≤ onlinePercent nodes ∧ onlinePercent nodes ≤ 100 := by
  obtain ⟨hnonneg, hle⟩ := onlineSum_le h
  rw [onlinePercent_eq h]
  split
  · next hpos =>
    constructor
    · exact Int.ediv_nonneg (by omega) hpos.le
    · exact Int.lt_add_one_iff.mp (Int.ediv_lt_of_lt_mul hpos (by omega))
  · omega

theorem onlinePercent_perm (hp : nodes'.Perm nodes) :
    onlinePercent nodes' = onlinePercent nodes := by
  unfold onlinePercent
  rw [onlineSum_perm _ hp, onlineSum_perm _ hp]

/-- Where the counts fit, the source's percentage is the exact one. -/
theorem usageOf_totals (h : NodeList nodes) (hfits : CountsFit nodes) :
    (usageOf (totalsOf nodes)).val = onlinePercent nodes := by
  obtain ⟨htotal, halloc⟩ := (totals_fit_iff h).2 hfits.1
  obtain ⟨hnonneg, hle⟩ := onlineSum_le h
  have hrange := onlinePercent_range h
  have hlt := hfits.2
  rw [onlinePercent_eq h] at hrange ⊢
  unfold usageOf
  rw [htotal, halloc]
  split
  · next hpos =>
    rw [if_pos hpos] at hrange
    have hhalf : (onlineSum Node.totalCPUs nodes).tdiv 2 = onlineSum Node.totalCPUs nodes / 2 :=
      Int.tdiv_eq_ediv_of_nonneg (by omega)
    have hproduct : (wrap64 (onlineSum Node.allocatedCPUs nodes * 100)).val =
        onlineSum Node.allocatedCPUs nodes * 100 := wrap64_val (by omega) (by omega)
    have hsum : (wrap64 (onlineSum Node.allocatedCPUs nodes * 100 +
        onlineSum Node.totalCPUs nodes / 2)).val =
        onlineSum Node.allocatedCPUs nodes * 100 + onlineSum Node.totalCPUs nodes / 2 :=
      wrap64_val (by omega) (by omega)
    rw [hhalf, hproduct, hsum, Int.tdiv_eq_ediv_of_nonneg (by omega)]
    exact wrap64_val (by omega) (by omega)
  · exact wrap64_val (by omega) (by omega)

/-- Metrics whose CPU usage is exact, in range and the same for every order of the nodes, computed
    without a wrap in any of these orders. -/
structure UsageExact (nodes : List Node) (jobs : List Job) (metrics : Metrics) : Prop where
  exact : metrics.cpuUsage.val = onlinePercent nodes
  range : 0 ≤ metrics.cpuUsage.val ∧ metrics.cpuUsage.val ≤ 100
  order : ∀ nodes', nodes'.Perm nodes → ∃ metrics', aggregateMetrics nodes' jobs = .ok metrics' ∧
    metrics'.cpuUsage = metrics.cpuUsage
  noWrap : ∀ nodes', nodes'.Perm nodes → NoWrap nodes' jobs

theorem usageExact_iff (h : NodeList nodes) (hjobs : jobs.length < 2 ^ 63) :
    (∀ metrics, aggregateMetrics nodes jobs = .ok metrics → UsageExact nodes jobs metrics) ↔
      CountsFit nodes := by
  obtain ⟨metrics, hok, husage⟩ := aggregateMetrics_ok h jobs
  constructor
  · intro hall
    exact (noWrap_iff h hjobs).mp ((hall metrics hok).noWrap nodes (.refl nodes))
  · intro hfits metrics' hok'
    rw [hok] at hok'
    cases hok'
    have hexact : metrics.cpuUsage.val = onlinePercent nodes := by
      rw [husage]
      exact usageOf_totals h hfits
    refine ⟨hexact, ?_, ?_, ?_⟩
    · rw [hexact]
      exact onlinePercent_range h
    · intro nodes' hp
      obtain ⟨metrics', hok', husage'⟩ := aggregateMetrics_ok (h.perm hp) jobs
      refine ⟨metrics', hok', Subtype.ext ?_⟩
      rw [husage', usageOf_totals (h.perm hp) (hfits.perm hp), onlinePercent_perm hp, hexact]
    · intro nodes' hp
      exact (noWrap_iff (h.perm hp) hjobs).mpr (hfits.perm hp)

end Metrics

/-! ## The nodes of a sinfo document -/

theorem nodeList_of_snapshot [UnicodeCase] {doc : SinfoJSON} {snapshot : NodeSnapshot}
    (h : SnapshotOf doc snapshot) : NodeList snapshot.nodes where
  nodup := h.sorted.imp ne_of_lt
  counts node hnode := by
    obtain ⟨p, r, hr, -, hname⟩ := (h.names node.name).mp (List.mem_map.mpr ⟨node, hnode, rfl⟩)
    have hdetails := h.details node hnode r hr hname
    have htotal : node.totalCPUs = r.totalCPUs := congrArg Node.totalCPUs hdetails
    have halloc : node.allocatedCPUs = r.allocatedCPUs := congrArg Node.allocatedCPUs hdetails
    have hvalid := h.valid r hr
    unfold SinfoRecord.validate at hvalid
    split_ifs at hvalid with h1 h2 h3
    constructor
    · rw [htotal]
      omega
    · rw [htotal, halloc]
      omega

/-- The metrics of a node list that sinfo gives stay in range exactly when its counts fit. -/
theorem metrics_in_range_iff [UnicodeCase] (doc : SinfoJSON) (snapshot : NodeSnapshot)
    (jobs : List Job) (h : parseNodesJSON doc = .ok snapshot) (hjobs : jobs.length < 2 ^ 63) :
    (∀ metrics, aggregateMetrics snapshot.nodes jobs = .ok metrics →
      UsageExact snapshot.nodes jobs metrics) ↔ CountsFit snapshot.nodes :=
  usageExact_iff (nodeList_of_snapshot (parseNodesJSON_spec h)) hjobs

section Example

open Ascii

private def busyDoc (cpus : GoInt) : SinfoJSON :=
  ⟨[], [⟨["n1"], "cpu", ["ALLOCATED"], cpus, cpus, wrap64 1024, ""⟩]⟩

private def busyNode (cpus : GoInt) : Node :=
  ⟨"n1", "cpu", "allocated", cpus, cpus, wrap64 1024, "", true⟩

theorem metrics_in_range_busy :
    parseNodesJSON (busyDoc (wrap64 8)) = .ok ⟨[busyNode (wrap64 8)], [busyNode (wrap64 8)]⟩ ∧
    ((∀ metrics, aggregateMetrics [busyNode (wrap64 8)] [] = .ok metrics →
      UsageExact [busyNode (wrap64 8)] [] metrics) ↔ CountsFit [busyNode (wrap64 8)]) := by
  have hparse : parseNodesJSON (busyDoc (wrap64 8)) =
      .ok ⟨[busyNode (wrap64 8)], [busyNode (wrap64 8)]⟩ := by rfl
  exact ⟨hparse, metrics_in_range_iff _ _ [] hparse (by decide)⟩

/-- A node that is wholly allocated, shown as idle. -/
theorem large_node_shown_idle : ¬ ∀ (doc : SinfoJSON) (snapshot : NodeSnapshot) (jobs : List Job),
    parseNodesJSON doc = .ok snapshot → ∀ metrics,
      aggregateMetrics snapshot.nodes jobs = .ok metrics →
        UsageExact snapshot.nodes jobs metrics := by
  intro h
  have hparse : parseNodesJSON (busyDoc mathMaxInt64) =
      .ok ⟨[busyNode mathMaxInt64], [busyNode mathMaxInt64]⟩ := by rfl
  have hzero := (h _ _ [] hparse ⟨wrap64 1, wrap64 0, wrap64 0, wrap64 0⟩ (by rfl)).exact
  have hhundred : onlinePercent [busyNode mathMaxInt64] = 100 := by
    have hlist : NodeList [busyNode mathMaxInt64] :=
      nodeList_of_snapshot (parseNodesJSON_spec hparse)
    rw [onlinePercent_eq hlist]
    decide
  rw [hhundred] at hzero
  revert hzero
  decide

end Example

end OpenHpcWeb.Slurm
