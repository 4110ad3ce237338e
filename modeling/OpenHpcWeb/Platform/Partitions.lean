/-
  The partition store of internal/platform/partitions.go.

  The database is its two tables (`Tables`), and every method is a transaction over them,
  statement by statement (`Tx`): which statements fail is a parameter of the call. The
  schema is part of the statements: primary keys and the foreign key refuse a row, and
  deleting a partition row deletes its node rows. A `time.Time` is its nanoseconds; the
  text of `time.RFC3339Nano` keeps them, so the two timestamp columns hold times.

  `PartitionTables` says what the statements do to the tables of a store, and
  `PartitionStore` what the methods do.
-/
import OpenHpcWeb.Go.Std
import OpenHpcWeb.Lib.Tx

namespace OpenHpcWeb.Platform

open OpenHpcWeb.Go OpenHpcWeb.Lib

abbrev Time := Int

/-- The `source` column. -/
inductive PartitionSource where
  | managed
  | system
  deriving DecidableEq

structure PartitionSpec where
  name : String
  nodes : List String
  managed : Bool
  createdAt : Time
  updatedAt : Time
  deriving DecidableEq

structure PartitionPatch where
  addedNodes : List String
  removedNodes : List String
  deriving DecidableEq

structure PartitionChange where
  spec : PartitionSpec
  created : Bool
  updated : Bool
  patch : PartitionPatch
  deriving DecidableEq

/-! ## Names -/

def validPartitionIdentifier (value : String) : Bool :=
  if value = "" ∨ 64 < byteLen value ∨ value = "." ∨ value = ".." ∨ trimSpace value ≠ value then
    false
  else !containsAny value "/\\\x00\r\n\t "

def validatePartitionName (name : String) : Except String Unit :=
  if validPartitionIdentifier name then .ok () else .error "invalid partition name"

def validatePartitionNodeName (name : String) : Except String Unit :=
  if validPartitionIdentifier name then .ok () else .error "invalid partition node name"

/-- The body of the loop of `normalizePartitionNodes`. -/
def normalizeNode (normalized : List String) (node : String) : Except String (List String) := do
  validatePartitionNodeName (trimSpace node)
  if trimSpace node ∈ normalized then
    .error "partition nodes must be unique"
  else
    return normalized ++ [trimSpace node]

def normalizePartitionNodes (nodes : List String) : Except String (List String) := do
  let normalized ← nodes.foldlM normalizeNode []
  return sortStrings normalized

def diffPartitionNodes (existing desired : List String) : List String × List String :=
  (desired.filter (· ∉ existing), existing.filter (· ∉ desired))

/-! ## Tables -/

/-- A row of `slurm_partitions`. -/
structure PartitionRow where
  name : String
  source : PartitionSource
  createdAt : Time
  updatedAt : Time
  deriving DecidableEq

/-- A row of `slurm_partition_nodes`. -/
structure NodeRow where
  partitionName : String
  nodeName : String
  nodeOrder : Nat
  deriving DecidableEq

structure Tables where
  partitions : List PartitionRow
  nodes : List NodeRow
  deriving DecidableEq

namespace Tables

/-- The store of a new database. -/
def empty : Tables := ⟨[], []⟩

/-- `SELECT .. FROM slurm_partitions WHERE name = ?`. -/
def selectPartition (t : Tables) (name : String) : Option PartitionRow :=
  t.partitions.find? fun r => r.name = name

/-- The node rows of a partition. -/
def nodeRows (t : Tables) (name : String) : List NodeRow :=
  t.nodes.filter fun n => n.partitionName = name

/-- `SELECT node_name .. WHERE partition_name = ? ORDER BY node_order, node_name`. -/
def selectNodes (t : Tables) (name : String) : List String :=
  ((t.nodeRows name).insertionSort fun a b =>
    a.nodeOrder < b.nodeOrder ∨ (a.nodeOrder = b.nodeOrder ∧ a.nodeName ≤ b.nodeName)).map
    NodeRow.nodeName

/-- `SELECT .. FROM slurm_partitions [WHERE source = ?] ORDER BY name`. -/
def selectPartitions (t : Tables) (source : Option PartitionSource) : List PartitionRow :=
  (t.partitions.filter fun r => source = none ∨ source = some r.source).insertionSort
    fun a b => a.name ≤ b.name

/-- `INSERT INTO slurm_partitions`: `name` is the primary key. -/
def insertPartition (row : PartitionRow) (t : Tables) : Except String Tables :=
  if row.name ∈ t.partitions.map PartitionRow.name then
    .error "UNIQUE constraint failed: slurm_partitions.name"
  else .ok { t with partitions := t.partitions ++ [row] }

/-- `INSERT INTO slurm_partition_nodes`: the primary key is the pair of names, and the
    partition row must exist. -/
def insertNode (row : NodeRow) (t : Tables) : Except String Tables :=
  if ∃ n ∈ t.nodes, n.partitionName = row.partitionName ∧ n.nodeName = row.nodeName then
    .error "UNIQUE constraint failed: slurm_partition_nodes"
  else if row.partitionName ∉ t.partitions.map PartitionRow.name then
    .error "FOREIGN KEY constraint failed"
  else .ok { t with nodes := t.nodes ++ [row] }

/-- `UPDATE slurm_partitions SET source = ?, updated_at = ? WHERE name = ?`. -/
def updatePartition (name : String) (source : PartitionSource) (now : Time) (t : Tables) :
    Except String Tables :=
  .ok { t with
    partitions := t.partitions.map fun r =>
      if r.name = name then { r with source := source, updatedAt := now } else r }

/-- `DELETE FROM slurm_partition_nodes WHERE partition_name = ?`. -/
def deleteNodes (name : String) (t : Tables) : Except String Tables :=
  .ok { t with nodes := t.nodes.filter fun n => n.partitionName ≠ name }

/-- `DELETE FROM slurm_partitions WHERE name = ?`, with `ON DELETE CASCADE`. -/
def deletePartition (name : String) (t : Tables) : Except String Tables :=
  .ok {
    partitions := t.partitions.filter fun r => r.name ≠ name
    nodes := t.nodes.filter fun n => n.partitionName ≠ name }

end Tables

/-! ## Reading -/

def partitionNodes (name : String) : Tx Tables (List String) := do
  let nodes ← Tx.query "list partition nodes" fun t => t.selectNodes name
  Tx.lift (normalizePartitionNodes nodes)

def loadPartitionByMetadata (r : PartitionRow) : Tx Tables PartitionSpec := do
  let nodes ← partitionNodes r.name
  return ⟨r.name, nodes, decide (r.source = .managed), r.createdAt, r.updatedAt⟩

def loadPartition (name : String) : Tx Tables (Option PartitionSpec) := do
  match ← Tx.query "read partition" fun t => t.selectPartition name with
  | none => return none
  | some r => do
    let spec ← loadPartitionByMetadata r
    return some spec

/-- The loop of `listPartitions` over the records read. -/
def loadPartitions : List PartitionRow → Tx Tables (List PartitionSpec)
  | [] => return []
  | r :: rest => do
    let spec ← loadPartitionByMetadata r
    let specs ← loadPartitions rest
    return spec :: specs

def listPartitions (source : Option PartitionSource) : Tx Tables (List PartitionSpec) := do
  let records ← Tx.query "list partitions" fun t => t.selectPartitions source
  loadPartitions records

/-! ## Writing -/

def begin (wrap : String) : Tx Tables Unit := Tx.exec wrap .ok

def commit (wrap : String) : Tx Tables Unit := Tx.exec wrap .ok

/-- The loop that inserts the node rows of a partition. -/
def insertNodes (wrap name : String) (nodes : List String) : Tx Tables Unit :=
  nodes.zipIdx.forM fun n => Tx.exec wrap (Tables.insertNode ⟨name, n.1, n.2⟩)

def replacePartitionNodes (name : String) (nodes : List String) : Tx Tables Unit := do
  Tx.exec "save partition: clear partition nodes" (Tables.deleteNodes name)
  insertNodes "save partition: add partition node" name nodes

/-- The transaction of `upsert`, after the checks on the spec. -/
def upsertTx (now : Time) (name : String) (nodes : List String) (source : PartitionSource) :
    Tx Tables PartitionChange := do
  begin "save partition: begin transaction"
  let managed := decide (source = .managed)
  match ← loadPartition name with
  | some existing =>
    if existing.managed ≠ managed then
      if managed then
        Tx.fail ("partition " ++ name ++ " is read-only")
      else
        Tx.fail ("partition " ++ name ++ " is already managed by the platform")
    else
      let diff := diffPartitionNodes existing.nodes nodes
      if diff.1 = [] ∧ diff.2 = [] then do
        commit "save partition: commit"
        return ⟨existing, false, false, ⟨[], []⟩⟩
      else do
        Tx.exec "save partition: update partition" (Tables.updatePartition name source now)
        replacePartitionNodes name nodes
        commit "save partition: commit"
        return ⟨⟨name, nodes, managed, existing.createdAt, now⟩, false, true, ⟨diff.1, diff.2⟩⟩
  | none => do
    Tx.exec "save partition: insert partition" (Tables.insertPartition ⟨name, source, now, now⟩)
    insertNodes "save partition: insert partition node" name nodes
    commit "save partition: commit"
    return ⟨⟨name, nodes, managed, now, now⟩, true, false, ⟨[], []⟩⟩

/-- `PartitionStore.upsert`: `now` is the clock, `faults` the fate of the statements. -/
def upsert (now : Time) (faults : Faults) (spec : PartitionSpec) (source : PartitionSource)
    (t : Tables) : Except String PartitionChange × Tables :=
  match validatePartitionName spec.name with
  | .error e => (.error e, t)
  | .ok () =>
    if spec.nodes = [] then (.error "partition must include at least one node", t)
    else
      match normalizePartitionNodes spec.nodes with
      | .error e => (.error e, t)
      | .ok nodes => transaction (upsertTx now spec.name nodes source) faults t

def deleteManagedTx (name : String) : Tx Tables Unit := do
  begin "delete partition: begin transaction"
  match ← loadPartition name with
  | none => return ()
  | some existing =>
    if existing.managed = false then
      Tx.fail ("partition " ++ name ++ " is read-only")
    else do
      Tx.exec "delete partition: delete row" (Tables.deletePartition name)
      commit "delete partition: commit"

/-! ## The methods of `PartitionStore` -/

/-- `PartitionStore.Upsert`. -/
def upsertManaged (now : Time) (faults : Faults) (spec : PartitionSpec) (t : Tables) :
    Except String PartitionChange × Tables :=
  upsert now faults spec .managed t

/-- `PartitionStore.ImportSystem`. -/
def importSystem (now : Time) (faults : Faults) (spec : PartitionSpec) (t : Tables) :
    Except String PartitionChange × Tables :=
  upsert now faults spec .system t

/-- `PartitionStore.DeleteManaged`. -/
def deleteManaged (faults : Faults) (name : String) (t : Tables) : Except String Unit × Tables :=
  match validatePartitionName name with
  | .error e => (.error e, t)
  | .ok () => transaction (deleteManagedTx name) faults t

/-- `PartitionStore.Get`. -/
def get (faults : Faults) (name : String) (t : Tables) : Except String (Option PartitionSpec) :=
  match validatePartitionName name with
  | .error e => .error e
  | .ok () => (transaction (loadPartition name) faults t).1

/-- `PartitionStore.ListSystem`. -/
def listSystem (faults : Faults) (t : Tables) : Except String (List PartitionSpec) :=
  (transaction (listPartitions (some .system)) faults t).1

/-- `PartitionStore.ListManaged`. -/
def listManaged (faults : Faults) (t : Tables) : Except String (List PartitionSpec) :=
  (transaction (listPartitions (some .managed)) faults t).1

end OpenHpcWeb.Platform
