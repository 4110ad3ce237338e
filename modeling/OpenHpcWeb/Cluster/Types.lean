/-
  The records of internal/cluster that the Slurm client hands to the web layer, and the
  interfaces through which the web layer changes partitions.

  A context is not part of the interfaces: a call that its context ends is a call that
  fails, and the state `τ` of the implementation decides which calls do.
-/
import OpenHpcWeb.Go.Std

namespace OpenHpcWeb.Cluster

open OpenHpcWeb.Go

structure Node where
  name : String
  partition : String
  state : String
  allocatedCPUs : GoInt
  totalCPUs : GoInt
  memoryMB : GoInt
  gres : String
  online : Bool
  deriving DecidableEq

structure Job where
  id : String
  name : String
  user : String
  userID : GoInt
  groupID : GoInt
  account : String
  partition : String
  state : String
  cpuCount : GoInt
  elapsed : String
  timeLimit : String
  nodeCount : GoInt
  nodes : String
  nodesOrReason : String
  submitTime : String
  eligibleTime : String
  startTime : String
  endTime : String
  workDir : String
  stdOut : String
  stdErr : String
  command : String
  deriving DecidableEq

structure JobResourceStep where
  step : String
  aveCPU : String
  aveCPUSeconds : GoInt
  totalCPU : String
  totalCPUSeconds : GoInt
  aveRSS : String
  aveRSSBytes : GoInt
  maxRSS : String
  maxRSSBytes : GoInt
  aveVMSize : String
  aveVMSizeBytes : GoInt
  maxVMSize : String
  maxVMSizeBytes : GoInt
  deriving DecidableEq

structure JobResourceUsage where
  jobID : String
  sampledAt : String
  totalCPUSeconds : GoInt
  maxRSSBytes : GoInt
  steps : List JobResourceStep
  deriving DecidableEq

structure Partition where
  name : String
  nodeCount : GoInt
  onlineNodes : GoInt
  allocatedCPUs : GoInt
  totalCPUs : GoInt
  memoryMB : GoInt
  cpuUtilization : GoInt
  deriving DecidableEq

structure Metrics where
  onlineNodes : GoInt
  runningJobs : GoInt
  queuedJobs : GoInt
  cpuUsage : GoInt
  deriving DecidableEq

/-- `NodeState`; any other string is refused by `validateNodeState`. -/
inductive NodeState where
  | down
  | drain
  | resume
  | other (state : String)
  deriving DecidableEq

/-- `PartitionAdmin`: each method returns its error, if any, and the state after it. -/
structure PartitionAdmin (τ : Type) where
  applyPartition : String → List String → τ → Except String Unit × τ
  deletePartition : String → τ → Except String Unit × τ

end OpenHpcWeb.Cluster
