/-
  The sinfo snapshot of internal/slurm/details.go.

  `parseNodesJSON` is modelled from the point where `json.Unmarshal` has decoded the
  document into `sinfoJSON`, so a document is a value of `SinfoJSON`; of the error list
  only the length is read. The Go maps of the loop are `AList`s, which keep the order of
  insertion; the source orders their keys by sorting.

  * `parseNodesJSON_spec`: what an accepted document says of the parsed nodes, by the
    records of the document (`SinfoJSON.Occurs`).
-/
import Mathlib.Data.List.AList
import OpenHpcWeb.Cluster.Types
import OpenHpcWeb.Lib.Loop

namespace OpenHpcWeb.Slurm

open OpenHpcWeb.Go OpenHpcWeb.Cluster OpenHpcWeb.Lib

/-! ## The text of a field -/

def maxDetailFieldLength : Nat := 1024

def validateDetailStrings : List String → Except String Unit
  | [] => .ok ()
  | value :: values =>
    if maxDetailFieldLength < byteLen value then
      .error "Slurm detail field exceeds maximum length"
    else if value.toList.any isControl then
      .error "Slurm detail field contains control characters"
    else validateDetailStrings values

/-- A text `validateDetailStrings` accepts. -/
def DetailText (value : String) : Prop :=
  byteLen value ≤ maxDetailFieldLength ∧ ∀ c ∈ value.toList, isControl c = false

theorem validateDetailStrings_ok_iff (values : List String) :
    validateDetailStrings values = .ok () ↔ ∀ value ∈ values, DetailText value := by
  induction values with
  | nil => simp [validateDetailStrings]
  | cons value values ih =>
    rw [validateDetailStrings, List.forall_mem_cons, ← ih]
    unfold DetailText
    split
    · next hlen => simp [Nat.not_le.mpr hlen]
    · next hlen =>
      split
      · next hctl =>
        obtain ⟨c, hc, hcc⟩ := List.any_eq_true.mp hctl
        constructor
        · intro h; cases h
        · intro h
          rw [h.1.2 c hc] at hcc
          cases hcc
      · next hctl =>
        simp only [Bool.not_eq_true, List.any_eq_false] at hctl
        constructor
        · intro h
          exact ⟨⟨Nat.le_of_not_lt hlen, fun c hc => by simpa using hctl c hc⟩, h⟩
        · exact fun h => h.2

/-! ## sinfo -/

structure SinfoRecord where
  nodes : List String
  partition : String
  state : List String
  allocatedCPUs : GoInt
  totalCPUs : GoInt
  maximumMemory : GoInt
  gresTotal : String

structure SinfoJSON where
  errors : List String
  sinfo : List SinfoRecord

structure NodeSnapshot where
  nodes : List Node
  partitionNodes : List Node

/-- The maps and the list that the loop over the records fills. -/
structure NodeTables where
  nodesByName : AList fun _ : String => Node
  partitionsByNode : AList fun _ : String => List String
  partitionNodes : List Node

/-- `strings.HasPrefix`. -/
def hasPrefix (s pre : String) : Bool := pre.toList.isPrefixOf s.toList

def jsonNodeOnline [UnicodeCase] (states : List String) : Bool :=
  !states.any fun value =>
    ["down", "fail", "unknown", "future", "powered_down", "power_down", "powering_down",
      "no_respond"].any fun pre => hasPrefix (toLower value) pre

def nodeDetails (node : Node) : Node := { node with partition := "" }

/-- The node one record describes under one of its names. -/
def SinfoRecord.node [UnicodeCase] (record : SinfoRecord) (name : String) : Node where
  name := name
  partition := record.partition
  state := toLower (record.state.headD "")
  allocatedCPUs := record.allocatedCPUs
  totalCPUs := record.totalCPUs
  memoryMB := record.maximumMemory
  gres := record.gresTotal
  online := jsonNodeOnline record.state

def SinfoRecord.validate (record : SinfoRecord) : Except String Unit :=
  if record.nodes = [] ∨ record.partition = "" ∨ record.state = [] then
    .error "node name, partition and state are required"
  else if record.totalCPUs.val ≤ 0 ∨ record.allocatedCPUs.val < 0 ∨
      record.totalCPUs.val < record.allocatedCPUs.val then
    .error "node CPU allocation must not exceed a positive total"
  else if record.maximumMemory.val < 0 then
    .error "node memory must be non-negative"
  else
    validateDetailStrings ([record.partition, record.gresTotal] ++ record.nodes ++ record.state)

/-- The body of the loop over the names of one record. -/
def addNode [UnicodeCase] (record : SinfoRecord) (t : NodeTables) (name : String) :
    Except String NodeTables :=
  let node := record.node name
  let partitions := (t.partitionsByNode.lookup name).getD []
  let t' : NodeTables :=
    { t with
      partitionNodes := t.partitionNodes ++ [node]
      partitionsByNode := t.partitionsByNode.insert name
        (if record.partition ∈ partitions then partitions else partitions ++ [record.partition]) }
  match t.nodesByName.lookup name with
  | some existing =>
    if nodeDetails existing ≠ nodeDetails node then
      .error ("node " ++ name ++ " has conflicting records")
    else .ok t'
  | none => .ok { t' with nodesByName := t.nodesByName.insert name node }

/-- The body of the loop over the records. -/
def addRecord [UnicodeCase] (t : NodeTables) (record : SinfoRecord) : Except String NodeTables := do
  record.validate
  record.nodes.foldlM (addNode record) t

def sortedNodePartitions (partitions : List String) : List String := sortStrings partitions

/-- The merged node: its partitions in one string. -/
def NodeTables.merge (t : NodeTables) (name : String) : Option Node :=
  (t.nodesByName.lookup name).map fun node =>
    { node with
      partition :=
        join (sortedNodePartitions ((t.partitionsByNode.lookup name).getD [])) ", " }

def parseNodesJSON [UnicodeCase] (response : SinfoJSON) : Except String NodeSnapshot :=
  if response.errors ≠ [] then
    .error ("sinfo JSON reported " ++ toString response.errors.length ++ " errors")
  else do
    let t ← response.sinfo.foldlM addRecord ⟨∅, ∅, []⟩
    let names := sortStrings t.nodesByName.keys
    return ⟨names.filterMap t.merge, t.partitionNodes⟩

/-! ## What an accepted document says -/

/-- Node `name` occurs in some record of the document with partition `p`. -/
def SinfoJSON.Occurs (doc : SinfoJSON) (name p : String) : Prop :=
  ∃ r ∈ doc.sinfo, r.partition = p ∧ name ∈ r.nodes

/-- The (record, name) pairs of the loop, in its order. -/
def entries (records : List SinfoRecord) : List (SinfoRecord × String) :=
  records.flatMap fun r => r.nodes.map fun name => (r, name)

theorem exists_mem_entries (doc : SinfoJSON) (name p : String) :
    (∃ e ∈ entries doc.sinfo, e.2 = name ∧ e.1.partition = p) ↔ doc.Occurs name p := by
  unfold SinfoJSON.Occurs entries
  constructor
  · rintro ⟨e, he, rfl, rfl⟩
    obtain ⟨r, hr, hm⟩ := List.mem_flatMap.mp he
    obtain ⟨n, hn, rfl⟩ := List.mem_map.mp hm
    exact ⟨r, hr, rfl, hn⟩
  · rintro ⟨r, hr, rfl, hn⟩
    exact ⟨(r, name), List.mem_flatMap.mpr ⟨r, hr, List.mem_map.mpr ⟨name, hn, rfl⟩⟩, rfl, rfl⟩

section Spec

variable [UnicodeCase]

/-- The tables after the pairs `es`. -/
structure TablesInv (es : List (SinfoRecord × String)) (t : NodeTables) : Prop where
  names : ∀ n, n ∈ t.nodesByName ↔ ∃ e ∈ es, e.2 = n
  details : ∀ n x, t.nodesByName.lookup n = some x → x.name = n ∧
    ∀ e ∈ es, e.2 = n → nodeDetails x = nodeDetails (e.1.node n)
  partitions : ∀ n p, p ∈ (t.partitionsByNode.lookup n).getD [] ↔
    ∃ e ∈ es, e.2 = n ∧ e.1.partition = p
  nodup : ∀ n, ((t.partitionsByNode.lookup n).getD []).Nodup
  partitionNodes : t.partitionNodes = es.map fun e => e.1.node e.2

theorem tablesInv_empty : TablesInv [] ⟨∅, ∅, []⟩ where
  names n := by simp
  details n x h := by simp at h
  partitions n p := by simp
  nodup n := by simp
  partitionNodes := rfl

omit [UnicodeCase] in
/-- The partition set of `name` after one more record that names it. -/
private theorem lookup_insertPartition (t : NodeTables) (name n q : String) (ps : List String)
    (hps : ps = (t.partitionsByNode.lookup name).getD []) :
    ((t.partitionsByNode.insert name (if q ∈ ps then ps else ps ++ [q])).lookup n).getD [] =
      if n = name then (if q ∈ ps then ps else ps ++ [q])
      else (t.partitionsByNode.lookup n).getD [] := by
  by_cases hn : n = name
  · subst hn; rw [AList.lookup_insert, if_pos rfl, Option.getD_some]
  · rw [AList.lookup_insert_ne hn, if_neg hn]

/-- The partition sets after one more record that names `name` hold its partition too. -/
private theorem partitions_snoc {es : List (SinfoRecord × String)} {t : NodeTables}
    (h : TablesInv es t) (record : SinfoRecord) (name : String) {ps : List String}
    (hps : ps = (t.partitionsByNode.lookup name).getD []) (n p : String) :
    p ∈ ((t.partitionsByNode.insert name (if record.partition ∈ ps then ps
      else ps ++ [record.partition])).lookup n).getD [] ↔
      ∃ e ∈ es ++ [(record, name)], e.2 = n ∧ e.1.partition = p := by
  rw [lookup_insertPartition t name n record.partition ps hps]
  simp only [List.mem_append, List.mem_singleton, or_and_right, exists_or, exists_eq_left]
  by_cases hn : n = name
  · subst hn
    rw [if_pos rfl, ← h.partitions, ← hps]
    split
    · next hmem =>
      constructor
      · exact fun hp => Or.inl hp
      · rintro (hp | ⟨-, rfl⟩)
        · exact hp
        · exact hmem
    · simp [eq_comm]
  · rw [if_neg hn, h.partitions]
    simp [Ne.symm hn]

private theorem nodup_snoc {es : List (SinfoRecord × String)} {t : NodeTables}
    (h : TablesInv es t) (record : SinfoRecord) (name : String) {ps : List String}
    (hps : ps = (t.partitionsByNode.lookup name).getD []) (n : String) :
    (((t.partitionsByNode.insert name (if record.partition ∈ ps then ps
      else ps ++ [record.partition])).lookup n).getD []).Nodup := by
  rw [lookup_insertPartition t name n record.partition ps hps]
  have hnd : ps.Nodup := by
    rw [hps]
    exact h.nodup name
  by_cases hn : n = name
  · subst hn
    rw [if_pos rfl]
    split
    · exact hnd
    · next hmem => exact hnd.append (List.nodup_singleton _) (by simpa using hmem)
  · rw [if_neg hn]
    exact h.nodup n

/-- A node that is known, with the details the record gives it. -/
private theorem known_snoc {es : List (SinfoRecord × String)} {t : NodeTables}
    (h : TablesInv es t) {record : SinfoRecord} {name : String} {existing : Node}
    (hex : t.nodesByName.lookup name = some existing)
    (hsame : nodeDetails existing = nodeDetails (record.node name)) :
    (∀ n, n ∈ t.nodesByName ↔ ∃ e ∈ es ++ [(record, name)], e.2 = n) ∧
    ∀ n x, t.nodesByName.lookup n = some x → x.name = n ∧
      ∀ e ∈ es ++ [(record, name)], e.2 = n → nodeDetails x = nodeDetails (e.1.node n) := by
  refine ⟨fun n => ?_, fun n x hx => ?_⟩
  · rw [h.names]
    constructor
    · rintro ⟨e, he, rfl⟩
      exact ⟨e, List.mem_append_left _ he, rfl⟩
    · rintro ⟨e, he, rfl⟩
      rcases List.mem_append.mp he with he | he
      · exact ⟨e, he, rfl⟩
      · obtain rfl := List.mem_singleton.mp he
        exact (h.names name).mp (AList.lookup_isSome.mp (by rw [hex]; rfl))
  · obtain ⟨hname, hdet⟩ := h.details n x hx
    refine ⟨hname, fun e he hen => ?_⟩
    rcases List.mem_append.mp he with he | he
    · exact hdet e he hen
    · obtain rfl := List.mem_singleton.mp he
      obtain rfl : name = n := hen
      obtain rfl : existing = x := by
        rw [hex] at hx
        exact Option.some.inj hx
      exact hsame

/-- A node that is new. -/
private theorem new_snoc {es : List (SinfoRecord × String)} {t : NodeTables}
    (h : TablesInv es t) (record : SinfoRecord) {name : String}
    (hnew : t.nodesByName.lookup name = none) :
    (∀ n, n ∈ t.nodesByName.insert name (record.node name) ↔
      ∃ e ∈ es ++ [(record, name)], e.2 = n) ∧
    ∀ n x, (t.nodesByName.insert name (record.node name)).lookup n = some x → x.name = n ∧
      ∀ e ∈ es ++ [(record, name)], e.2 = n → nodeDetails x = nodeDetails (e.1.node n) := by
  have hfresh : ¬ ∃ e ∈ es, e.2 = name := by
    rw [← h.names, ← AList.lookup_isSome, hnew]
    simp
  refine ⟨fun n => ?_, fun n x hx => ?_⟩
  · rw [AList.mem_insert, h.names]
    simp only [List.mem_append, List.mem_singleton, or_and_right, exists_or, exists_eq_left]
    constructor
    · rintro (rfl | hn)
      · exact Or.inr rfl
      · exact Or.inl hn
    · rintro (hn | rfl)
      · exact Or.inr hn
      · exact Or.inl rfl
  · by_cases hn : n = name
    · subst hn
      rw [AList.lookup_insert] at hx
      cases hx
      refine ⟨rfl, fun e he hen => ?_⟩
      rcases List.mem_append.mp he with he | he
      · exact absurd ⟨e, he, hen⟩ hfresh
      · obtain rfl := List.mem_singleton.mp he
        rfl
    · rw [AList.lookup_insert_ne hn] at hx
      obtain ⟨hname, hdet⟩ := h.details n x hx
      refine ⟨hname, fun e he hen => ?_⟩
      rcases List.mem_append.mp he with he | he
      · exact hdet e he hen
      · obtain rfl := List.mem_singleton.mp he
        exact absurd hen.symm hn

theorem addNode_inv {es : List (SinfoRecord × String)} {t t' : NodeTables} {record : SinfoRecord}
    {name : String} (h : TablesInv es t) (hadd : addNode record t name = .ok t') :
    TablesInv (es ++ [(record, name)]) t' := by
  have hlist : t.partitionNodes ++ [record.node name] =
      (es ++ [(record, name)]).map fun e => e.1.node e.2 := by
    rw [List.map_append, ← h.partitionNodes]
    rfl
  have hpart := partitions_snoc h record name rfl
  have hnodup := nodup_snoc h record name rfl
  unfold addNode at hadd
  simp only at hadd
  split at hadd
  · next existing hex =>
    split at hadd
    · cases hadd
    · next hsame =>
      cases hadd
      obtain ⟨hnames, hdetails⟩ := known_snoc h hex (not_not.mp hsame)
      exact ⟨hnames, hdetails, hpart, hnodup, hlist⟩
  · next hnew =>
    cases hadd
    obtain ⟨hnames, hdetails⟩ := new_snoc h record hnew
    exact ⟨hnames, hdetails, hpart, hnodup, hlist⟩

/-- The body of the outer loop accepts the record and adds its pairs. -/
theorem addRecord_inv {es : List (SinfoRecord × String)} {t t' : NodeTables}
    {record : SinfoRecord} (h : TablesInv es t) (hadd : addRecord t record = .ok t') :
    record.validate = .ok () ∧ TablesInv (es ++ entries [record]) t' := by
  unfold addRecord at hadd
  cases hv : record.validate with
  | error e => simp [hv, bind, Except.bind] at hadd
  | ok u =>
    refine ⟨rfl, ?_⟩
    have hfold : record.nodes.foldlM (addNode record) t = .ok t' := by
      simpa [hv, bind, Except.bind] using hadd
    have hinv := foldlM_ok_invariant
      (fun names t => TablesInv (es ++ names.map fun name => (record, name)) t)
      (fun names t name t' ht hstep => by simpa using addNode_inv ht hstep)
      (by simpa using h) hfold
    simpa [entries] using hinv

/-- The loop over the records. -/
theorem foldlM_addRecord_inv {records : List SinfoRecord} {t : NodeTables}
    (h : records.foldlM addRecord ⟨∅, ∅, []⟩ = .ok t) :
    (∀ r ∈ records, r.validate = .ok ()) ∧ TablesInv (entries records) t := by
  refine foldlM_ok_invariant
    (fun rs t => (∀ r ∈ rs, r.validate = .ok ()) ∧ TablesInv (entries rs) t)
    (fun rs t r t' hrs hstep => ?_) ⟨fun r hr => (nomatch hr), tablesInv_empty⟩ h
  obtain ⟨hv, hinv⟩ := addRecord_inv hrs.2 hstep
  refine ⟨fun r' hr' => ?_, by simpa [entries] using hinv⟩
  rcases List.mem_append.mp hr' with hr' | hr'
  · exact hrs.1 r' hr'
  · rw [List.mem_singleton.mp hr']
    exact hv

theorem merge_name {es : List (SinfoRecord × String)} {t : NodeTables} (h : TablesInv es t)
    {n : String} {node : Node} (hn : t.merge n = some node) : node.name = n := by
  obtain ⟨x, hx, rfl⟩ := Option.map_eq_some_iff.mp hn
  exact (h.details n x hx).1

/-- Every name has one merged node, in the order of the names. -/
theorem map_name_merge {es : List (SinfoRecord × String)} {t : NodeTables} (h : TablesInv es t) :
    ((sortStrings t.nodesByName.keys).filterMap t.merge).map Node.name =
      sortStrings t.nodesByName.keys := by
  have hsome : ∀ n ∈ sortStrings t.nodesByName.keys, (t.merge n).map Node.name = some n := by
    intro n hn
    rw [mem_sortStrings, ← AList.mem_keys, ← AList.lookup_isSome] at hn
    obtain ⟨x, hx⟩ := Option.isSome_iff_exists.mp hn
    have hmerge : t.merge n ≠ none := by simp [NodeTables.merge, hx]
    obtain ⟨node, hnode⟩ := Option.ne_none_iff_exists'.mp hmerge
    rw [hnode, Option.map_some, merge_name h hnode]
  rw [List.map_filterMap, List.filterMap_congr hsome, List.filterMap_some]

/-- What the snapshot says of the document it was parsed from. -/
structure SnapshotOf (doc : SinfoJSON) (snapshot : NodeSnapshot) : Prop where
  valid : ∀ r ∈ doc.sinfo, r.validate = .ok ()
  sorted : (snapshot.nodes.map Node.name).Pairwise (· < ·)
  names : ∀ n, n ∈ snapshot.nodes.map Node.name ↔ ∃ p, doc.Occurs n p
  /-- a node's partition field joins, in order, the partitions it occurs with -/
  partition : ∀ node ∈ snapshot.nodes, ∃ ps : List String, ps.Pairwise (· < ·) ∧
    (∀ p, p ∈ ps ↔ doc.Occurs node.name p) ∧ node.partition = join ps ", "
  details : ∀ node ∈ snapshot.nodes, ∀ r ∈ doc.sinfo, node.name ∈ r.nodes →
    nodeDetails node = nodeDetails (r.node node.name)
  partitionNodes : snapshot.partitionNodes =
    (entries doc.sinfo).map fun e => e.1.node e.2

theorem parseNodesJSON_spec {doc : SinfoJSON} {snapshot : NodeSnapshot}
    (h : parseNodesJSON doc = .ok snapshot) : SnapshotOf doc snapshot := by
  unfold parseNodesJSON at h
  split at h
  · cases h
  cases hf : doc.sinfo.foldlM addRecord ⟨∅, ∅, []⟩ with
  | error e => simp [hf, bind, Except.bind] at h
  | ok t =>
    obtain rfl : snapshot =
        ⟨(sortStrings t.nodesByName.keys).filterMap t.merge, t.partitionNodes⟩ := by
      simpa [hf, bind, Except.bind, pure, Except.pure, eq_comm] using h
    obtain ⟨hvalid, ht⟩ := foldlM_addRecord_inv hf
    have hmap := map_name_merge ht
    have hocc : ∀ n p, p ∈ (t.partitionsByNode.lookup n).getD [] ↔ doc.Occurs n p := by
      intro n p
      rw [ht.partitions, exists_mem_entries]
    have hmerged : ∀ node ∈ (sortStrings t.nodesByName.keys).filterMap t.merge, ∃ x,
        t.nodesByName.lookup node.name = some x ∧ node = { x with
          partition := join (sortedNodePartitions
            ((t.partitionsByNode.lookup node.name).getD [])) ", " } := by
      intro node hnode
      obtain ⟨n, -, hn⟩ := List.mem_filterMap.mp hnode
      obtain rfl := merge_name ht hn
      obtain ⟨x, hx, hxn⟩ := Option.map_eq_some_iff.mp hn
      exact ⟨x, hx, hxn.symm⟩
    refine ⟨hvalid, ?_, fun n => ?_, fun node hnode => ?_, fun node hnode r hr hnr => ?_,
      ht.partitionNodes⟩
    · rw [hmap]
      exact sortStrings_strict t.nodesByName.keys_nodup
    · rw [hmap, mem_sortStrings, ← AList.mem_keys, ht.names]
      constructor
      · rintro ⟨e, he, rfl⟩
        exact ⟨e.1.partition, (exists_mem_entries doc _ _).mp ⟨e, he, rfl, rfl⟩⟩
      · rintro ⟨p, hp⟩
        obtain ⟨e, he, hn, -⟩ := (exists_mem_entries doc _ _).mpr hp
        exact ⟨e, he, hn⟩
    · obtain ⟨x, -, hnx⟩ := hmerged node hnode
      refine ⟨sortedNodePartitions ((t.partitionsByNode.lookup node.name).getD []),
        sortStrings_strict (ht.nodup _), fun p => ?_, congrArg Node.partition hnx⟩
      rw [sortedNodePartitions, mem_sortStrings, hocc]
    · obtain ⟨x, hx, hnx⟩ := hmerged node hnode
      have hdet := (ht.details _ x hx).2 (r, node.name)
        (List.mem_flatMap.mpr ⟨r, hr, List.mem_map.mpr ⟨_, hnr, rfl⟩⟩) rfl
      have hsame := congrArg nodeDetails hnx
      rw [← hdet]
      exact hsame

end Spec

end OpenHpcWeb.Slurm
