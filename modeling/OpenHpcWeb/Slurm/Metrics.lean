/-
  The cluster metrics of internal/slurm/client.go.

  `aggregateMetrics` counts a node once however often it is listed. The Go map of the nodes
  is an `AList`; the loop over it only adds up, so its order does not matter. Sums are Go
  `int`s and wrap around.
-/
import Mathlib.Data.List.AList
import OpenHpcWeb.Cluster.Types

namespace OpenHpcWeb.Slurm

open OpenHpcWeb.Go OpenHpcWeb.Cluster

def zeroMetrics : Metrics := ⟨wrap64 0, wrap64 0, wrap64 0, wrap64 0⟩

/-- The body of the loop over the node list. -/
def addUniqueNode (uniqueNodes : AList fun _ : String => Node) (node : Node) :
    Except String (AList fun _ : String => Node) :=
  match uniqueNodes.lookup node.name with
  | some existing =>
    if existing.state ≠ node.state ∨ existing.allocatedCPUs ≠ node.allocatedCPUs ∨
        existing.totalCPUs ≠ node.totalCPUs ∨ existing.online ≠ node.online then
      .error ("node " ++ node.name ++ " has conflicting JSON records")
    else .ok uniqueNodes
  | none => .ok (uniqueNodes.insert node.name node)

/-- What the loop over the unique nodes adds up. -/
structure OnlineTotals where
  onlineNodes : GoInt
  totalOnlineCPUs : GoInt
  allocatedOnlineCPUs : GoInt

/-- The body of the loop over the unique nodes. -/
def addOnline (t : OnlineTotals) (node : Node) : OnlineTotals :=
  if node.online then
    ⟨wrap64 (t.onlineNodes.val + 1), wrap64 (t.totalOnlineCPUs.val + node.totalCPUs.val),
      wrap64 (t.allocatedOnlineCPUs.val + node.allocatedCPUs.val)⟩
  else t

/-- The body of the loop over the jobs. -/
def addJob (metrics : Metrics) (job : Job) : Metrics :=
  if toUpper job.state = "RUNNING" then
    { metrics with runningJobs := wrap64 (metrics.runningJobs.val + 1) }
  else if toUpper job.state = "PENDING" then
    { metrics with queuedJobs := wrap64 (metrics.queuedJobs.val + 1) }
  else metrics

def aggregateMetrics (nodes : List Node) (jobs : List Job) : Except String Metrics := do
  let uniqueNodes ← nodes.foldlM addUniqueNode ∅
  let totals := (uniqueNodes.entries.map Sigma.snd).foldl addOnline ⟨wrap64 0, wrap64 0, wrap64 0⟩
  let total := totals.totalOnlineCPUs.val
  let cpuUsage :=
    if 0 < total then
      wrap64 ((wrap64 ((wrap64 (totals.allocatedOnlineCPUs.val * 100)).val + total.tdiv 2)).val.tdiv
        total)
    else wrap64 0
  return jobs.foldl addJob ⟨totals.onlineNodes, wrap64 0, wrap64 0, cpuUsage⟩

end OpenHpcWeb.Slurm
