/-
  The partition handlers of internal/web/partitions.go, and the two synchronisations that
  `New` (app.go) runs at startup.

  The model is of an application with a partition store. `Request` is what a request brings
  and what it meets: the form, the answer of the node provider, the clock, and the fate of
  the store's statements; a cancelled context is a request whose later statements fail.
  A redirect is its query parameters, before escaping. Audit records are written in order;
  whether one is lost changes nothing else in these handlers.

  `savePartition` and `deletePartition` are cut where they touch the store or Slurm
  (`saveChecks`, `saveOutcome`, ..).
-/
import Mathlib.Data.List.AList
import OpenHpcWeb.Cluster.Types
import OpenHpcWeb.Lib.Loop
import OpenHpcWeb.Platform.PartitionStore

namespace OpenHpcWeb.Web

open OpenHpcWeb.Go OpenHpcWeb.Cluster OpenHpcWeb.Lib OpenHpcWeb.Platform

/-! ## Requests and answers -/

structure Form where
  name : String
  nodes : List String

structure Request where
  actor : String
  lang : String
  /-- `none` is a body that `ParseForm` refuses -/
  form : Option Form
  /-- the answer of the node provider, if there is one -/
  nodes : Option (Except String (List Node))
  now : Time
  readFaults : Faults
  writeFaults : Faults
  restoreFaults : Faults

inductive Response where
  | httpError (status : Nat)
  /-- `/slurm/partitions` with these query parameters -/
  | redirect (query : List (String × String))
  deriving DecidableEq

/-- `platform.AuditEvent`; the store numbers the events. -/
structure AuditEvent where
  actor : String
  action : String
  outcome : String
  createdAt : Time
  deriving DecidableEq

/-- What the handlers read and change. -/
structure World (τ : Type) where
  store : PartitionStore
  admin : τ
  audit : List AuditEvent

structure Application (τ : Type) where
  partitionAdmin : Option (PartitionAdmin τ)

variable {τ : Type}

def World.recordAudit (w : World τ) (r : Request) (action outcome : String) : World τ :=
  { w with audit := w.audit ++ [⟨r.actor, action, outcome, r.now⟩] }

def partitionErrorFor (language code name : String) : String :=
  if code = "readonly" then
    if language = "en" then "Partition " ++ name ++ " is read-only."
    else "分区 " ++ name ++ " 为只读。"
  else if code = "save_failed" then
    if language = "en" then "Partition " ++ name ++ " could not be saved."
    else "分区 " ++ name ++ " 保存失败。"
  else if code = "sync_failed" then
    if language = "en" then "Partition " ++ name ++ " could not be synced to Slurm."
    else "分区 " ++ name ++ " 无法同步到 Slurm。"
  else if code = "delete_failed" then
    if language = "en" then "Partition " ++ name ++ " could not be deleted."
    else "分区 " ++ name ++ " 删除失败。"
  else ""

/-- The redirect that reports an error. -/
def errorRedirect (language code name : String) : Response :=
  .redirect [("error", partitionErrorFor language code name), ("name", name)]

/-! ## Nodes -/

/-- The keys of the map of `partitionNodeNames`. -/
def partitionNodeNames (r : Request) : Option (List String) :=
  match r.nodes with
  | some (.ok nodes) => some (nodes.map Node.name)
  | _ => none

/-- The zero `time.Time`, as nanoseconds since 1970. -/
def zeroTime : Time := -62135596800000000000

/-- The body of the loop of `partitionSpecsFromNodes`. -/
def addPartitionNode (byPartition : AList fun _ : String => List String) (node : Node) :
    AList fun _ : String => List String :=
  if trimSpace node.partition = "" then byPartition
  else
    byPartition.insert node.partition
      ((byPartition.lookup node.partition).getD [] ++ [node.name])

def partitionSpecsFromNodes (nodes : List Node) : List PartitionSpec :=
  let byPartition := nodes.foldl addPartitionNode ∅
  let partitions : List PartitionSpec :=
    byPartition.entries.map fun e => ⟨e.1, e.2, false, zeroTime, zeroTime⟩
  partitions.insertionSort fun a b => a.name ≤ b.name

/-! ## Saving -/

/-- `savePartition` up to the store: the name and the nodes to save, or the answer. -/
def saveChecks (r : Request) : Except Response (String × List String) :=
  match r.form with
  | none => .error (.httpError 400)
  | some form =>
    match partitionNodeNames r with
    | none => .error (.httpError 503)
    | some liveNodes =>
      if trimSpace form.name = "" then .error (.httpError 400)
      else if form.nodes = [] then .error (.httpError 400)
      else if ∃ node ∈ form.nodes, node ∉ liveNodes then .error (.httpError 400)
      else .ok (trimSpace form.name, form.nodes)

/-- The spec `savePartition` hands to `Upsert`. -/
def saveSpec (name : String) (selected : List String) : PartitionSpec :=
  ⟨name, selected, true, zeroTime, zeroTime⟩

/-- The answer to an `Upsert` that failed. -/
def saveFailed (r : Request) (name err : String) : Response :=
  errorRedirect r.lang (if contains err "read-only" then "readonly" else "save_failed") name

/-- The answer to a save that went through. -/
def saveDone (change : PartitionChange) (name : String) : Response :=
  let saved :=
    if change.created then "created" else if ¬ change.updated then "unchanged" else "updated"
  .redirect [("saved", saved), ("name", name)]

/-- `a.partitionAdmin.ApplyPartition`, if there is a partition admin. -/
def Application.applyPartition (app : Application τ) (name : String) (nodes : List String)
    (w : World τ) : Except String Unit × World τ :=
  match app.partitionAdmin with
  | none => (.ok (), w)
  | some admin =>
    let applied := admin.applyPartition name nodes w.admin
    (applied.1, { w with admin := applied.2 })

/-- `savePartition` from the answer of the store on. -/
def saveSync (app : Application τ) (r : Request) (name : String) (selected : List String)
    (saved : Except String PartitionChange) (w : World τ) : Response × World τ :=
  match saved with
  | .error err => (saveFailed r name err, w.recordAudit r "slurm.partition.save" "failed")
  | .ok change =>
    let applied := app.applyPartition name selected w
    match applied.1 with
    | .error _ =>
      (errorRedirect r.lang "sync_failed" name,
        applied.2.recordAudit r "slurm.partition.sync" "failed")
    | .ok () =>
      (saveDone change name, applied.2.recordAudit r "slurm.partition.save" "success")

def savePartition (app : Application τ) (r : Request) (w : World τ) : Response × World τ :=
  match saveChecks r with
  | .error answer => (answer, w)
  | .ok (name, selected) =>
    let saved := w.store.upsert r.now r.writeFaults (saveSpec name selected)
    saveSync app r name selected saved.1 { w with store := saved.2 }

/-! ## Deleting -/

/-- `deletePartition` up to the lookup: the name, or the answer. -/
def deleteChecks (r : Request) : Except Response String :=
  match r.form with
  | none => .error (.httpError 400)
  | some form =>
    if trimSpace form.name = "" then .error (.httpError 400) else .ok (trimSpace form.name)

/-- `deletePartition` after the lookup: the managed partition to delete, or the answer. -/
def deleteFound (r : Request) (name : String) (found : Except String (Option PartitionSpec)) :
    Except Response PartitionSpec :=
  match found with
  | .error _ => .error (.httpError 400)
  | .ok none => .error (.redirect [("saved", "deleted")])
  | .ok (some spec) =>
    if spec.managed = false then .error (errorRedirect r.lang "readonly" name) else .ok spec

/-- `a.partitionAdmin.DeletePartition`, if there is a partition admin. -/
def Application.deletePartition (app : Application τ) (name : String) (w : World τ) :
    Except String Unit × World τ :=
  match app.partitionAdmin with
  | none => (.ok (), w)
  | some admin =>
    let deleted := admin.deletePartition name w.admin
    (deleted.1, { w with admin := deleted.2 })

/-- `deletePartition` from the store's delete on. Slurm's refusal puts the partition back. -/
def deleteSync (app : Application τ) (r : Request) (name : String) (spec : PartitionSpec)
    (deleted : Except String Unit) (w : World τ) : Response × World τ :=
  match deleted with
  | .error _ =>
    (errorRedirect r.lang "delete_failed" name, w.recordAudit r "slurm.partition.delete" "failed")
  | .ok () =>
    let synced := app.deletePartition name w
    match synced.1 with
    | .error _ =>
      let restored := synced.2.store.upsert r.now r.restoreFaults spec
      let restoredWorld : World τ := { synced.2 with store := restored.2 }
      (errorRedirect r.lang "sync_failed" name,
        restoredWorld.recordAudit r "slurm.partition.sync" "failed")
    | .ok () =>
      (.redirect [("saved", "deleted")], synced.2.recordAudit r "slurm.partition.delete" "success")

def deletePartition (app : Application τ) (r : Request) (w : World τ) : Response × World τ :=
  match deleteChecks r with
  | .error answer => (answer, w)
  | .ok name =>
    match deleteFound r name (w.store.get r.readFaults name) with
    | .error answer => (answer, w)
    | .ok spec =>
      let deleted := w.store.deleteManaged r.writeFaults name
      deleteSync app r name spec deleted.1 { w with store := deleted.2 }

/-! ## Startup -/

/-- What the synchronisations meet: the node provider's answer, and the clock and the faults
    of each import, by the name of its partition. -/
structure Startup where
  nodes : Option (Except String (List Node))
  importAt : String → Time
  importFaults : String → Faults
  listFaults : Faults

/-- The body of the loop of `syncSystemPartitions`. -/
def importPartition (env : Startup) (spec : PartitionSpec) (store : PartitionStore) :
    Except String Unit × PartitionStore :=
  let imported := store.importSystem (env.importAt spec.name) (env.importFaults spec.name) spec
  (imported.1.map fun _ => (), imported.2)

def syncSystemPartitions (env : Startup) (store : PartitionStore) :
    Except String Unit × PartitionStore :=
  match env.nodes with
  | none => (.ok (), store)
  | some (.error err) => (.error err, store)
  | some (.ok nodes) => forEach (importPartition env) (partitionSpecsFromNodes nodes) store

def syncStoredPartitions (app : Application τ) (env : Startup) (w : World τ) :
    Except String Unit × World τ :=
  match app.partitionAdmin with
  | none => (.ok (), w)
  | some _ =>
    match w.store.listManaged env.listFaults with
    | .error err => (.error err, w)
    | .ok partitions =>
      forEach (fun partition => app.applyPartition partition.name partition.nodes) partitions w

/-- The synchronisations of `New`, which logs their errors and goes on. -/
def start (app : Application τ) (env : Startup) (w : World τ) : World τ :=
  (syncStoredPartitions app env { w with store := (syncSystemPartitions env w.store).2 }).2

end OpenHpcWeb.Web
