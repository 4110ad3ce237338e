/-
  The partition store of internal/platform/partitions.go with the columns as they are: texts.

  `Platform.Partitions` has the source as a type and the timestamps as times. Here a row holds
  what is written, `time.RFC3339Nano` of the clock, and a partition that is read parses it. The
  clock reads a year of four digits, as nanoseconds in 63 bits do until 2262.

  * `upsert_texts`, `deleteManaged_texts`, `get_texts`: on tables that are written by the store
    the methods answer as those over times do, and leave the texts of the same tables.
  * `runTexts_written`: so do any calls on a new store.
-/
import OpenHpcWeb.Go.Time
import OpenHpcWeb.Platform.PartitionStore

namespace OpenHpcWeb.Platform

open OpenHpcWeb.Go OpenHpcWeb.Lib

/-- What the clock reads. -/
abbrev ClockTime := { t : Time // FourDigitYear t }

/-- `partitionSourceManaged` and `partitionSourceSystem` -/
def PartitionSource.text : PartitionSource → String
  | .managed => "managed"
  | .system => "system"

/-! ## Tables of texts -/

/-- A row of `slurm_partitions`. -/
structure TextRow where
  name : String
  source : String
  createdAt : String
  updatedAt : String
  deriving DecidableEq

structure TextTables where
  partitions : List TextRow
  nodes : List NodeRow
  deriving DecidableEq

namespace TextTables

/-- The store of a new database. -/
def empty : TextTables := ⟨[], []⟩

/-- `SELECT .. FROM slurm_partitions WHERE name = ?`. -/
def selectPartition (t : TextTables) (name : String) : Option TextRow :=
  t.partitions.find? fun r => r.name = name

/-- `SELECT node_name .. WHERE partition_name = ? ORDER BY node_order, node_name`. -/
def selectNodes (t : TextTables) (name : String) : List String :=
  ((t.nodes.filter fun n => n.partitionName = name).insertionSort fun a b =>
    a.nodeOrder < b.nodeOrder ∨ (a.nodeOrder = b.nodeOrder ∧ a.nodeName ≤ b.nodeName)).map
    NodeRow.nodeName

/-- `INSERT INTO slurm_partitions`: `name` is the primary key. -/
def insertPartition (row : TextRow) (t : TextTables) : Except String TextTables :=
  if row.name ∈ t.partitions.map TextRow.name then
    .error "UNIQUE constraint failed: slurm_partitions.name"
  else .ok { t with partitions := t.partitions ++ [row] }

/-- `INSERT INTO slurm_partition_nodes`. -/
def insertNode (row : NodeRow) (t : TextTables) : Except String TextTables :=
  if ∃ n ∈ t.nodes, n.partitionName = row.partitionName ∧ n.nodeName = row.nodeName then
    .error "UNIQUE constraint failed: slurm_partition_nodes"
  else if row.partitionName ∉ t.partitions.map TextRow.name then
    .error "FOREIGN KEY constraint failed"
  else .ok { t with nodes := t.nodes ++ [row] }

/-- `UPDATE slurm_partitions SET source = ?, updated_at = ? WHERE name = ?`. -/
def updatePartition (name source updatedAt : String) (t : TextTables) : Except String TextTables :=
  .ok { t with
    partitions := t.partitions.map fun r =>
      if r.name = name then { r with source := source, updatedAt := updatedAt } else r }

/-- `DELETE FROM slurm_partition_nodes WHERE partition_name = ?`. -/
def deleteNodes (name : String) (t : TextTables) : Except String TextTables :=
  .ok { t with nodes := t.nodes.filter fun n => n.partitionName ≠ name }

/-- `DELETE FROM slurm_partitions WHERE name = ?`, with `ON DELETE CASCADE`. -/
def deletePartition (name : String) (t : TextTables) : Except String TextTables :=
  .ok {
    partitions := t.partitions.filter fun r => r.name ≠ name
    nodes := t.nodes.filter fun n => n.partitionName ≠ name }

end TextTables

/-! ## The methods -/

namespace TextStore

def partitionNodes (name : String) : Tx TextTables (List String) := do
  let nodes ← Tx.query "list partition nodes" fun t => t.selectNodes name
  Tx.lift (normalizePartitionNodes nodes)

/-- `time.Parse` of a column; its own words are left out of the error. -/
def parseTimestamp (column : String) : Except String Time :=
  match parseRFC3339Nano column with
  | none => .error "parse partition timestamp"
  | some t => .ok t

def loadPartitionByMetadata (r : TextRow) : Tx TextTables PartitionSpec := do
  let nodes ← partitionNodes r.name
  let created ← Tx.lift (parseTimestamp r.createdAt)
  let updated ← Tx.lift (parseTimestamp r.updatedAt)
  return ⟨r.name, nodes, decide (r.source = PartitionSource.managed.text), created, updated⟩

def loadPartition (name : String) : Tx TextTables (Option PartitionSpec) := do
  match ← Tx.query "read partition" fun t => t.selectPartition name with
  | none => return none
  | some r => do
    let spec ← loadPartitionByMetadata r
    return some spec

def begin (wrap : String) : Tx TextTables Unit := Tx.exec wrap .ok

def commit (wrap : String) : Tx TextTables Unit := Tx.exec wrap .ok

/-- The loop that inserts the node rows of a partition. -/
def insertNodes (wrap name : String) (nodes : List String) : Tx TextTables Unit :=
  nodes.zipIdx.forM fun n => Tx.exec wrap (TextTables.insertNode ⟨name, n.1, n.2⟩)

def replacePartitionNodes (name : String) (nodes : List String) : Tx TextTables Unit := do
  Tx.exec "save partition: clear partition nodes" (TextTables.deleteNodes name)
  insertNodes "save partition: add partition node" name nodes

/-- The transaction of `upsert`, after the checks on the spec. -/
def upsertTx (now : Time) (name : String) (nodes : List String) (source : PartitionSource) :
    Tx TextTables PartitionChange := do
  begin "save partition: begin transaction"
  let managed := decide (source.text = PartitionSource.managed.text)
  match ← loadPartition name with
  | some existing =>
    if existing.managed ≠ managed then
      if managed then
        Tx.fail ("partition " ++ name ++ " is read-only")
      else
        Tx.fail ("partition " ++ name ++ " is already managed by the platform")
    else
      let diff := diffPartitionNodes existing.nodes nodes
      if diff.1 = [] ∧ diff.2 = [] then do
        commit "save partition: commit"
        return ⟨existing, false, false, ⟨[], []⟩⟩
      else do
        Tx.exec "save partition: update partition"
          (TextTables.updatePartition name source.text (formatRFC3339Nano now))
        replacePartitionNodes name nodes
        commit "save partition: commit"
        return ⟨⟨name, nodes, managed, existing.createdAt, now⟩, false, true, ⟨diff.1, diff.2⟩⟩
  | none => do
    let timestamp := formatRFC3339Nano now
    Tx.exec "save partition: insert partition"
      (TextTables.insertPartition ⟨name, source.text, timestamp, timestamp⟩)
    insertNodes "save partition: insert partition node" name nodes
    commit "save partition: commit"
    return ⟨⟨name, nodes, managed, now, now⟩, true, false, ⟨[], []⟩⟩

/-- `PartitionStore.upsert`. -/
def upsert (now : Time) (faults : Faults) (spec : PartitionSpec) (source : PartitionSource)
    (t : TextTables) : Except String PartitionChange × TextTables :=
  match validatePartitionName spec.name with
  | .error e => (.error e, t)
  | .ok () =>
    if spec.nodes = [] then (.error "partition must include at least one node", t)
    else
      match normalizePartitionNodes spec.nodes with
      | .error e => (.error e, t)
      | .ok nodes => transaction (upsertTx now spec.name nodes source) faults t

def deleteManagedTx (name : String) : Tx TextTables Unit := do
  begin "delete partition: begin transaction"
  match ← loadPartition name with
  | none => return ()
  | some existing =>
    if existing.managed = false then
      Tx.fail ("partition " ++ name ++ " is read-only")
    else do
      Tx.exec "delete partition: delete row" (TextTables.deletePartition name)
      commit "delete partition: commit"

/-- `PartitionStore.DeleteManaged`. -/
def deleteManaged (faults : Faults) (name : String) (t : TextTables) :
    Except String Unit × TextTables :=
  match validatePartitionName name with
  | .error e => (.error e, t)
  | .ok () => transaction (deleteManagedTx name) faults t

/-- `PartitionStore.Get`. -/
def get (faults : Faults) (name : String) (t : TextTables) :
    Except String (Option PartitionSpec) :=
  match validatePartitionName name with
  | .error e => .error e
  | .ok () => (transaction (loadPartition name) faults t).1

end TextStore

/-! ## The texts of tables -/

/-- The row as it is written. -/
def PartitionRow.texts (r : PartitionRow) : TextRow :=
  ⟨r.name, r.source.text, formatRFC3339Nano r.createdAt, formatRFC3339Nano r.updatedAt⟩

def Tables.texts (t : Tables) : TextTables := ⟨t.partitions.map PartitionRow.texts, t.nodes⟩

/-- The times of the tables come from the clock. -/
def Tables.Clocked (t : Tables) : Prop :=
  ∀ r ∈ t.partitions, FourDigitYear r.createdAt ∧ FourDigitYear r.updatedAt

/-- The text tables are those of tables whose times come from the clock. -/
def WrittenAs (t : Tables) (u : TextTables) : Prop := u = t.texts ∧ t.Clocked

/-! ## Statement by statement -/

theorem PartitionSource.text_eq_managed_iff (source : PartitionSource) :
    source.text = PartitionSource.managed.text ↔ source = .managed := by
  cases source <;> decide

theorem selectPartition_texts (t : Tables) (name : String) :
    t.texts.selectPartition name = (t.selectPartition name).map PartitionRow.texts := by
  unfold TextTables.selectPartition Tables.selectPartition Tables.texts
  exact List.find?_map

theorem names_texts (t : Tables) :
    t.texts.partitions.map TextRow.name = t.partitions.map PartitionRow.name := by
  unfold Tables.texts
  rw [List.map_map]
  rfl

theorem parseTimestamp_format {now : Time} (h : FourDigitYear now) :
    TextStore.parseTimestamp (formatRFC3339Nano now) = .ok now := by
  unfold TextStore.parseTimestamp
  rw [parse_format h]

theorem insertPartition_texts (row : PartitionRow)
    (hrow : FourDigitYear row.createdAt ∧ FourDigitYear row.updatedAt) (wrap : String) :
    Tx.Sim WrittenAs Eq (Tx.exec wrap (Tables.insertPartition row))
      (Tx.exec wrap (TextTables.insertPartition row.texts)) := by
  refine .exec fun t u hu => ?_
  obtain ⟨rfl, hclocked⟩ := hu
  have hname : row.texts.name = row.name := rfl
  unfold Tables.insertPartition TextTables.insertPartition
  rw [names_texts, hname]
  by_cases hmem : row.name ∈ t.partitions.map PartitionRow.name
  · rw [if_pos hmem, if_pos hmem]
    exact .inl ⟨_, rfl, rfl⟩
  · rw [if_neg hmem, if_neg hmem]
    refine .inr ⟨_, _, rfl, rfl, ?_, ?_⟩
    · simp [Tables.texts]
    · intro r hr
      rcases List.mem_append.mp hr with hr | hr
      · exact hclocked r hr
      · rw [List.mem_singleton.mp hr]
        exact hrow

theorem insertNode_texts (row : NodeRow) (wrap : String) :
    Tx.Sim WrittenAs Eq (Tx.exec wrap (Tables.insertNode row))
      (Tx.exec wrap (TextTables.insertNode row)) := by
  refine .exec fun t u hu => ?_
  obtain ⟨rfl, hclocked⟩ := hu
  have hnodes : t.texts.nodes = t.nodes := rfl
  unfold Tables.insertNode TextTables.insertNode
  rw [names_texts, hnodes]
  by_cases hdup : ∃ n ∈ t.nodes, n.partitionName = row.partitionName ∧ n.nodeName = row.nodeName
  · rw [if_pos hdup, if_pos hdup]
    exact .inl ⟨_, rfl, rfl⟩
  · rw [if_neg hdup, if_neg hdup]
    by_cases hmem : row.partitionName ∉ t.partitions.map PartitionRow.name
    · rw [if_pos hmem, if_pos hmem]
      exact .inl ⟨_, rfl, rfl⟩
    · rw [if_neg hmem, if_neg hmem]
      exact .inr ⟨_, _, rfl, rfl, rfl, hclocked⟩

theorem updatePartition_texts (name : String) (source : PartitionSource) {now : Time}
    (hnow : FourDigitYear now) (wrap : String) :
    Tx.Sim WrittenAs Eq (Tx.exec wrap (Tables.updatePartition name source now))
      (Tx.exec wrap (TextTables.updatePartition name source.text (formatRFC3339Nano now))) := by
  refine .exec fun t u hu => ?_
  obtain ⟨rfl, hclocked⟩ := hu
  refine .inr ⟨_, _, rfl, rfl, ?_, ?_⟩
  · simp only [Tables.texts, List.map_map, TextTables.mk.injEq, and_true]
    refine List.map_congr_left fun r _ => ?_
    simp only [Function.comp_apply]
    by_cases hname : r.name = name
    · rw [if_pos hname, if_pos (show r.texts.name = name from hname)]
      rfl
    · rw [if_neg hname, if_neg (show ¬ r.texts.name = name from hname)]
  · intro r hr
    obtain ⟨old, hold, rfl⟩ := List.mem_map.mp hr
    by_cases hname : old.name = name
    · rw [if_pos hname]
      exact ⟨(hclocked old hold).1, hnow⟩
    · rw [if_neg hname]
      exact hclocked old hold

theorem deleteNodes_texts (name wrap : String) :
    Tx.Sim WrittenAs Eq (Tx.exec wrap (Tables.deleteNodes name))
      (Tx.exec wrap (TextTables.deleteNodes name)) := by
  refine .exec fun t u hu => ?_
  obtain ⟨rfl, hclocked⟩ := hu
  exact .inr ⟨_, _, rfl, rfl, rfl, hclocked⟩

theorem deletePartition_texts (name wrap : String) :
    Tx.Sim WrittenAs Eq (Tx.exec wrap (Tables.deletePartition name))
      (Tx.exec wrap (TextTables.deletePartition name)) := by
  refine .exec fun t u hu => ?_
  obtain ⟨rfl, hclocked⟩ := hu
  refine .inr ⟨_, _, rfl, rfl, ?_, fun r hr => hclocked r (List.mem_filter.mp hr).1⟩
  simp only [Tables.texts, List.filter_map, TextTables.mk.injEq, and_true]
  rfl

/-- A statement that only opens or closes the transaction. -/
theorem begin_texts (wrap : String) :
    Tx.Sim WrittenAs Eq (begin wrap) (TextStore.begin wrap) :=
  .exec fun _ _ hu => .inr ⟨_, _, rfl, rfl, hu⟩

/-! ## Method by method -/

theorem partitionNodes_texts (name : String) :
    Tx.Sim WrittenAs Eq (partitionNodes name) (TextStore.partitionNodes name) := by
  refine .bind (Q := Eq) (.query ?_) ?_
  · rintro t u ⟨rfl, -⟩
    rfl
  · rintro nodes _ rfl
    refine .lift ?_
    cases hn : normalizePartitionNodes nodes with
    | error e => exact .inl ⟨e, rfl, rfl⟩
    | ok ns => exact .inr ⟨ns, ns, rfl, rfl, rfl⟩

/-- Both columns parse, so the loaded partition is the one of the times. -/
theorem loadPartitionByMetadata_texts {r : PartitionRow}
    (hr : FourDigitYear r.createdAt ∧ FourDigitYear r.updatedAt) :
    Tx.Sim WrittenAs Eq (loadPartitionByMetadata r)
      (TextStore.loadPartitionByMetadata r.texts) := by
  unfold loadPartitionByMetadata TextStore.loadPartitionByMetadata
  refine .bind (partitionNodes_texts r.name) ?_
  rintro nodes _ rfl
  have hcreated : TextStore.parseTimestamp r.texts.createdAt = .ok r.createdAt :=
    parseTimestamp_format hr.1
  have hupdated : TextStore.parseTimestamp r.texts.updatedAt = .ok r.updatedAt :=
    parseTimestamp_format hr.2
  have hmanaged : decide (r.texts.source = PartitionSource.managed.text) =
      decide (r.source = .managed) := decide_eq_decide.mpr r.source.text_eq_managed_iff
  rw [hcreated, hupdated, hmanaged]
  exact .pure rfl

theorem loadPartition_texts (name : String) :
    Tx.Sim WrittenAs Eq (loadPartition name) (TextStore.loadPartition name) := by
  unfold loadPartition TextStore.loadPartition
  refine .bind (Q := fun a b => b = a.map PartitionRow.texts ∧
    ∀ r, a = some r → FourDigitYear r.createdAt ∧ FourDigitYear r.updatedAt) (.query ?_) ?_
  · rintro t u ⟨rfl, hclocked⟩
    exact ⟨selectPartition_texts t name, fun r hr => hclocked r (selectPartition_some hr).1⟩
  · rintro a _ ⟨rfl, hclocked⟩
    cases a with
    | none => exact .pure rfl
    | some r =>
      refine .bind (loadPartitionByMetadata_texts (hclocked r rfl)) ?_
      rintro spec _ rfl
      exact .pure rfl

theorem insertNodes_texts (wrap name : String) (nodes : List String) :
    Tx.Sim WrittenAs Eq (insertNodes wrap name nodes) (TextStore.insertNodes wrap name nodes) := by
  unfold insertNodes TextStore.insertNodes
  have hrow : ∀ n : String × Nat, Tx.Sim WrittenAs Eq
      (Tx.exec wrap (Tables.insertNode ⟨name, n.1, n.2⟩))
      (Tx.exec wrap (TextTables.insertNode ⟨name, n.1, n.2⟩)) :=
    fun n => insertNode_texts ⟨name, n.1, n.2⟩ wrap
  exact .forM hrow nodes.zipIdx

theorem replacePartitionNodes_texts (name : String) (nodes : List String) :
    Tx.Sim WrittenAs Eq (replacePartitionNodes name nodes)
      (TextStore.replacePartitionNodes name nodes) :=
  .bind (deleteNodes_texts name _) fun _ _ _ => insertNodes_texts _ name nodes

theorem upsertTx_texts {now : Time} (hnow : FourDigitYear now) (name : String)
    (nodes : List String) (source : PartitionSource) :
    Tx.Sim WrittenAs Eq (upsertTx now name nodes source)
      (TextStore.upsertTx now name nodes source) := by
  have hmanaged : decide (source.text = PartitionSource.managed.text) =
      decide (source = .managed) := decide_eq_decide.mpr source.text_eq_managed_iff
  unfold upsertTx TextStore.upsertTx
  rw [hmanaged]
  refine .bind (begin_texts _) fun _ _ _ => .bind (loadPartition_texts name) ?_
  rintro existing _ rfl
  cases existing with
  | none =>
    refine .bind (insertPartition_texts ⟨name, source, now, now⟩ ⟨hnow, hnow⟩ _) ?_
    exact fun _ _ _ => .bind (insertNodes_texts _ name nodes) fun _ _ _ =>
      .bind (begin_texts _) fun _ _ _ => .pure rfl
  | some existing =>
    simp only
    split
    · split
      · exact .fail _
      · exact .fail _
    · split
      · exact .bind (begin_texts _) fun _ _ _ => .pure rfl
      · exact .bind (updatePartition_texts name source hnow _) fun _ _ _ =>
          .bind (replacePartitionNodes_texts name nodes) fun _ _ _ =>
            .bind (begin_texts _) fun _ _ _ => .pure rfl

theorem deleteManagedTx_texts (name : String) :
    Tx.Sim WrittenAs Eq (deleteManagedTx name) (TextStore.deleteManagedTx name) := by
  unfold deleteManagedTx TextStore.deleteManagedTx
  refine .bind (begin_texts _) fun _ _ _ => .bind (loadPartition_texts name) ?_
  rintro existing _ rfl
  cases existing with
  | none => exact .pure rfl
  | some existing =>
    simp only
    split
    · exact .fail _
    · exact .bind (deletePartition_texts name _) fun _ _ _ => begin_texts _

/-! ## Calls -/

/-- A method that answers, with the tables it leaves: as the one over times does. -/
def Answered {α : Type} (times : Except String α × Tables) (texts : Except String α × TextTables) :
    Prop :=
  texts.1 = times.1 ∧ WrittenAs times.2 texts.2

theorem transaction_texts {α : Type} {x : Tx Tables α} {y : Tx TextTables α}
    (h : Tx.Sim WrittenAs Eq x y) (faults : Faults) {t : Tables} {u : TextTables}
    (hu : WrittenAs t u) : Answered (transaction x faults t) (transaction y faults u) := by
  rcases transaction_sim h faults hu with ⟨e, hx, hy⟩ | ⟨a, _, t', u', hx, hy, rfl, hu'⟩
  · rw [hx, hy]
    exact ⟨rfl, hu⟩
  · rw [hx, hy]
    exact ⟨rfl, hu'⟩

theorem upsert_texts {now : Time} (hnow : FourDigitYear now) (faults : Faults)
    (spec : PartitionSpec) (source : PartitionSource) {t : Tables} {u : TextTables}
    (hu : WrittenAs t u) :
    Answered (upsert now faults spec source t) (TextStore.upsert now faults spec source u) := by
  unfold upsert TextStore.upsert
  cases validatePartitionName spec.name with
  | error e => exact ⟨rfl, hu⟩
  | ok v =>
    simp only
    split
    · exact ⟨rfl, hu⟩
    · cases normalizePartitionNodes spec.nodes with
      | error e => exact ⟨rfl, hu⟩
      | ok nodes => exact transaction_texts (upsertTx_texts hnow spec.name nodes source) faults hu

theorem deleteManaged_texts (faults : Faults) (name : String) {t : Tables} {u : TextTables}
    (hu : WrittenAs t u) :
    Answered (deleteManaged faults name t) (TextStore.deleteManaged faults name u) := by
  unfold deleteManaged TextStore.deleteManaged
  cases validatePartitionName name with
  | error e => exact ⟨rfl, hu⟩
  | ok v => exact transaction_texts (deleteManagedTx_texts name) faults hu

theorem get_texts (faults : Faults) (name : String) {t : Tables} {u : TextTables}
    (hu : WrittenAs t u) : TextStore.get faults name u = get faults name t := by
  unfold get TextStore.get
  cases validatePartitionName name with
  | error e => rfl
  | ok v => exact (transaction_texts (loadPartition_texts name) faults hu).1

/-! ## Runs -/

/-- One call of a writing method, at a time of the clock. -/
inductive TextCall where
  | upsert (now : ClockTime) (faults : Faults) (spec : PartitionSpec)
  | importSystem (now : ClockTime) (faults : Faults) (spec : PartitionSpec)
  | deleteManaged (faults : Faults) (name : String)

namespace TextCall

/-- `Upsert`, `ImportSystem` and `DeleteManaged` on the tables. -/
def run (u : TextTables) : TextCall → TextTables
  | upsert now faults spec => (TextStore.upsert now.val faults spec .managed u).2
  | importSystem now faults spec => (TextStore.upsert now.val faults spec .system u).2
  | deleteManaged faults name => (TextStore.deleteManaged faults name u).2

/-- The call of the store over times. -/
def call : TextCall → Call
  | upsert now faults spec => .upsert now.val faults spec
  | importSystem now faults spec => .importSystem now.val faults spec
  | deleteManaged faults name => .deleteManaged faults name

end TextCall

/-- The tables after calls on a new store. -/
def runTexts (calls : List TextCall) : TextTables := calls.foldl TextCall.run .empty

theorem run_texts (call : TextCall) {t : Tables} {u : TextTables} (hu : WrittenAs t u) :
    WrittenAs (call.call.run t).2 (call.run u) := by
  cases call with
  | upsert now faults spec => exact (upsert_texts now.property faults spec .managed hu).2
  | importSystem now faults spec => exact (upsert_texts now.property faults spec .system hu).2
  | deleteManaged faults name => exact (deleteManaged_texts faults name hu).2

/-- The texts of a store are those of the same calls over times. -/
theorem runTexts_written (calls : List TextCall) :
    WrittenAs (runCalls .empty (calls.map TextCall.call)) (runTexts calls) := by
  have hrun : ∀ (calls : List TextCall) (t : Tables) (u : TextTables), WrittenAs t u →
      WrittenAs (runCalls t (calls.map TextCall.call)) (calls.foldl TextCall.run u) := by
    intro calls
    induction calls with
    | nil => exact fun t u hu => hu
    | cons call calls ih => exact fun t u hu => ih _ _ (run_texts call hu)
  exact hrun calls .empty .empty ⟨rfl, fun r hr => absurd hr List.not_mem_nil⟩

end OpenHpcWeb.Platform
