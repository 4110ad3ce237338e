/-
  The editor of a managed partition, from the page to the store: `slurmPartitions` and
  `savePartition` of internal/web/partitions.go, templates/partitions.html, and the part of
  static/app.js that opens the editor of a row.

  The page for `?name=` has an editor of its own, with the nodes of the partition checked. The
  script fills the editor in the browser, from the attributes of the row; it looks the nodes up
  in an object, which also has the members of `Object.prototype`. Texts of a page have no control
  characters here, so attributes are read as they were written.

  * `splitNodes_join`: the script reads the nodes that the row has written.
  * `opened_editor`, `opened_page`: what the two editors check.
  * `partition_resaved`: what becomes of a partition whose editor is sent as it was opened.
-/
import OpenHpcWeb.Web.FormBody
import OpenHpcWeb.Web.PartitionRows
import OpenHpcWeb.Web.RequestCases

namespace OpenHpcWeb.Web

open OpenHpcWeb.Go OpenHpcWeb.Cluster OpenHpcWeb.Slurm OpenHpcWeb.Lib
open OpenHpcWeb.Platform

/-! ## The page -/

structure PartitionNodeView where
  name : String
  partition : String
  state : String
  selected : Bool

structure PartitionSystemRowView where
  name : String
  nodes : String
  importedAt : String

/-- The query of a request for the page, and what the page meets. -/
structure PartitionsRequest where
  lang : String
  name : String
  saved : String
  error : String
  modal : String
  nodes : Option (Except String (List Node))
  systemFaults : Faults
  managedFaults : Faults

structure PartitionsView where
  nodes : List PartitionNodeView
  systemPartitions : List PartitionSystemRowView
  platformPartitions : List PartitionManagedRowView
  nodesAvailable : Bool
  partitionsAvailable : Bool
  success : String
  error : String
  selectedName : String
  openEditor : Bool

def loadPartitionNodes (r : PartitionsRequest) : List Node × Bool :=
  match r.nodes with
  | some (.ok nodes) => (nodes, true)
  | _ => ([], false)

def loadPartitionRecords (store : PartitionStore) (r : PartitionsRequest) :
    List PartitionSpec × List PartitionSpec × Bool :=
  match store.listSystem r.systemFaults with
  | .error _ => ([], [], false)
  | .ok systemPartitions =>
    match store.listManaged r.managedFaults with
    | .error _ => ([], [], false)
    | .ok managedPartitions => (systemPartitions, managedPartitions, true)

def partitionSelection (systemPartitions managedPartitions : List PartitionSpec)
    (selectedName : String) : PartitionSpec × Bool :=
  match managedPartitions.find? fun partition => partition.name = selectedName with
  | some partition => (partition, true)
  | none =>
    match systemPartitions.find? fun partition => partition.name = selectedName with
    | some partition => (partition, false)
    | none => (⟨"", [], false, zeroTime, zeroTime⟩, false)

def partitionNodesView (nodes : List Node) (selected : List String) : List PartitionNodeView :=
  nodes.map fun node => ⟨node.name, node.partition, node.state, decide (node.name ∈ selected)⟩

def partitionSystemRowsView (format : Time → String) (partitions : List PartitionSpec) :
    List PartitionSystemRowView :=
  partitions.map fun partition =>
    ⟨partition.name, join partition.nodes ", ", format partition.updatedAt⟩

def partitionSuccessFor (language saved name : String) : String :=
  if saved = "deleted" then
    if language = "en" then "Partition deleted." else "分区已删除。"
  else if saved = "" ∨ name = "" then ""
  else if saved = "created" then
    if language = "en" then "Partition " ++ name ++ " created." else "分区 " ++ name ++ " 已创建。"
  else if saved = "updated" then
    if language = "en" then "Partition " ++ name ++ " patched." else "分区 " ++ name ++ " 已更新。"
  else if saved = "unchanged" then
    if language = "en" then "Partition " ++ name ++ " is unchanged."
    else "分区 " ++ name ++ " 无变化。"
  else ""

/-- `format` is the time as the rows show it. -/
def slurmPartitions (format : Time → String) (store : PartitionStore) (r : PartitionsRequest) :
    PartitionsView :=
  let labels := partitionCopyFor r.lang
  let (liveNodes, nodesAvailable) := loadPartitionNodes r
  let (systemPartitions, managedPartitions, partitionsAvailable) := loadPartitionRecords store r
  let selectedName := trimSpace r.name
  let (selectedSpec, selectedManaged) :=
    partitionSelection systemPartitions managedPartitions selectedName
  { nodes := partitionNodesView liveNodes (if selectedManaged then selectedSpec.nodes else [])
    systemPartitions := partitionSystemRowsView format systemPartitions
    platformPartitions :=
      partitionManagedRowsView format managedPartitions liveNodes nodesAvailable labels
    nodesAvailable := nodesAvailable
    partitionsAvailable := partitionsAvailable
    success := partitionSuccessFor r.lang r.saved selectedName
    error := partitionErrorFor r.lang r.error selectedName
    selectedName := if selectedManaged then selectedName else ""
    openEditor := decide (r.modal = "create") || (selectedManaged && decide (r.saved = "")) }

/-! ## The editor in the browser -/

/-- The input and the checkboxes of the editor's form. -/
structure PartitionEditor where
  name : String
  nodes : List (String × Bool)

/-- The form as the page brings it. -/
def PartitionsView.editor (view : PartitionsView) : PartitionEditor :=
  ⟨view.selectedName, view.nodes.map fun node => (node.name, node.selected)⟩

/-- The members of `Object.prototype`; the value of each counts as true. -/
def objectPrototype : List String :=
  ["constructor", "hasOwnProperty", "isPrototypeOf", "propertyIsEnumerable", "toLocaleString",
    "toString", "valueOf", "__defineGetter__", "__defineSetter__", "__lookupGetter__",
    "__lookupSetter__", "__proto__"]

def setPartitionEditor (editor : PartitionEditor) (name : String) (nodeNames : List String) :
    PartitionEditor :=
  ⟨name, editor.nodes.map fun node =>
    (node.1, decide (node.1 ∈ nodeNames ∨ node.1 ∈ objectPrototype))⟩

/-- The loop of `split(', ')`: `piece` is what has been read of a piece. -/
def splitAtComma : List Char → List Char → List (List Char)
  | piece, [] => [piece]
  | piece, ',' :: ' ' :: rest => piece :: splitAtComma [] rest
  | piece, c :: rest => splitAtComma (piece ++ [c]) rest

/-- `split(', ').filter(Boolean)` -/
def splitNodes (nodes : String) : List String :=
  ((splitAtComma [] nodes.toList).map String.ofList).filter (· ≠ "")

/-- A click on the edit button of a row. -/
def PartitionEditor.edit (editor : PartitionEditor) (row : PartitionManagedRowView) :
    PartitionEditor :=
  setPartitionEditor editor row.name (splitNodes row.nodes)

def PartitionEditor.checked (editor : PartitionEditor) : List String :=
  (editor.nodes.filter Prod.snd).map Prod.fst

/-- The fields of the form, in the order of the page. -/
def PartitionEditor.fields (editor : PartitionEditor) (csrfToken : String) :
    List (String × String) :=
  ("_csrf", csrfToken) :: ("name", editor.name) :: editor.checked.map fun node => ("nodes", node)

/-- What `savePartition` reads of a form. -/
def Form.ofFields (fields : List (String × String)) : Form :=
  ⟨formValue fields "name", postForm fields "nodes"⟩

/-- The form is sent, in the session of an administrator whose token it has. -/
def PartitionEditor.submit {τ : Type} (editor : PartitionEditor) (csrfToken : String)
    (app : Application τ) (r : Request) (w : World τ) : Response × World τ :=
  let body := formBody (editor.fields csrfToken)
  match requestBodyLimit body with
  | some status => (.httpError status, w)
  | none => savePartition app { r with form := (readFields body).map Form.ofFields } w

/-! ## The nodes of a row -/

theorem splitAtComma_append {l : List Char} (hspace : ' ' ∉ l) (piece rest : List Char) :
    splitAtComma piece (l ++ ',' :: ' ' :: rest) = (piece ++ l) :: splitAtComma [] rest := by
  induction l generalizing piece with
  | nil => rw [List.append_nil, List.nil_append, splitAtComma]
  | cons c l ih =>
    rw [List.mem_cons, not_or] at hspace
    have hnext : ∀ tail, c = ',' → l ++ ',' :: ' ' :: rest = ' ' :: tail → False := by
      intro tail _ heq
      cases l with
      | nil => cases heq
      | cons d l =>
        rw [List.cons_append, List.cons.injEq] at heq
        exact hspace.2 (heq.1 ▸ List.mem_cons_self)
    rw [List.cons_append, splitAtComma.eq_3 _ _ _ hnext, ih hspace.2, List.append_assoc,
      List.singleton_append]

theorem splitAtComma_of_no_space {l : List Char} (hspace : ' ' ∉ l) (piece : List Char) :
    splitAtComma piece l = [piece ++ l] := by
  induction l generalizing piece with
  | nil => rw [List.append_nil, splitAtComma]
  | cons c l ih =>
    rw [List.mem_cons, not_or] at hspace
    have hnext : ∀ tail, c = ',' → l = ' ' :: tail → False := by
      rintro tail - rfl
      exact hspace.2 List.mem_cons_self
    rw [splitAtComma.eq_3 _ _ _ hnext, ih hspace.2, List.append_assoc, List.singleton_append]

/-- A join of texts without spaces is split into them. -/
theorem splitAtComma_intercalate {pieces : List (List Char)} (hne : pieces ≠ [])
    (hspace : ∀ piece ∈ pieces, ' ' ∉ piece) :
    splitAtComma [] ([',', ' '].intercalate pieces) = pieces := by
  induction pieces with
  | nil => exact absurd rfl hne
  | cons piece pieces ih =>
    have hpiece := hspace piece List.mem_cons_self
    cases pieces with
    | nil => simpa using splitAtComma_of_no_space hpiece []
    | cons next pieces =>
      have hjoin : [',', ' '].intercalate (piece :: next :: pieces) =
          piece ++ ',' :: ' ' :: [',', ' '].intercalate (next :: pieces) := by
        simp [List.intercalate]
      rw [hjoin, splitAtComma_append hpiece, List.nil_append,
        ih (List.cons_ne_nil _ _) fun p hp => hspace p (List.mem_cons_of_mem _ hp)]

theorem no_space_of_valid {name : String} (h : validPartitionIdentifier name = true) :
    ' ' ∉ name.toList ∧ OneLine name ∧ name ≠ "" := by
  unfold validPartitionIdentifier at h
  split at h
  · cases h
  · next hno =>
    have hnone := (containsAny_eq_false_iff name _).mp (by simpa using h)
    refine ⟨fun hc => hnone _ hc (by decide), ⟨fun hc => hnone _ hc (by decide),
      fun hc => hnone _ hc (by decide)⟩, fun hempty => hno (.inl hempty)⟩

theorem splitNodes_join {nodes : List String} (hne : nodes ≠ [])
    (hvalid : ∀ n ∈ nodes, validPartitionIdentifier n = true) :
    splitNodes (join nodes ", ") = nodes := by
  have hspace : ∀ piece ∈ nodes.map String.toList, ' ' ∉ piece := by
    intro piece hpiece
    obtain ⟨n, hn, rfl⟩ := List.mem_map.mp hpiece
    exact (no_space_of_valid (hvalid n hn)).1
  have hsplit : (splitAtComma [] (join nodes ", ").toList).map String.ofList = nodes := by
    rw [join, String.toList_intercalate]
    refine (congrArg _ (splitAtComma_intercalate (by simpa using hne) hspace)).trans ?_
    rw [List.map_map]
    simp [Function.comp_def]
  unfold splitNodes
  rw [hsplit, List.filter_eq_self]
  exact fun n hn => by simpa using (no_space_of_valid (hvalid n hn)).2.2

/-! ## What the editors check -/

section Editors

variable {format : Time → String} {store : PartitionStore} {page : PartitionsRequest}
  {nodes : List Node}

/-- A row of the page is a managed partition of the store. -/
theorem row_of_page {row : PartitionManagedRowView}
    (hrow : row ∈ (slurmPartitions format store page).platformPartitions) :
    ∃ systemPartitions managedPartitions p,
      loadPartitionRecords store page = (systemPartitions, managedPartitions, true) ∧
      store.row row.name = some p ∧ p.source = .managed ∧ p.spec row.name ∈ managedPartitions ∧
      (managedPartitions.map PartitionSpec.name).Nodup ∧ row.nodes = join p.nodes ", " := by
  have hrecords : ∃ systemPartitions managedPartitions,
      loadPartitionRecords store page = (systemPartitions, managedPartitions, true) ∧
      store.listManaged page.managedFaults = .ok managedPartitions ∧
      row ∈ partitionManagedRowsView format managedPartitions (loadPartitionNodes page).1
        (loadPartitionNodes page).2 (partitionCopyFor page.lang) := by
    unfold slurmPartitions at hrow
    dsimp only at hrow
    unfold loadPartitionRecords at hrow ⊢
    cases hsystem : store.listSystem page.systemFaults with
    | error err =>
      rw [hsystem] at hrow
      cases hrow
    | ok systemPartitions =>
      cases hmanaged : store.listManaged page.managedFaults with
      | error err =>
        rw [hsystem, hmanaged] at hrow
        cases hrow
      | ok managedPartitions =>
        rw [hsystem, hmanaged] at hrow
        exact ⟨systemPartitions, managedPartitions, rfl, rfl, hrow⟩
  obtain ⟨systemPartitions, managedPartitions, hload, hlist, hview⟩ := hrecords
  obtain ⟨specs, hspecs, hsorted, hmem⟩ := store.listManaged_nil
  obtain rfl : specs = managedPartitions := by
    rw [PartitionStore.listManaged_ok hlist] at hspecs
    exact (Except.ok.inj hspecs).symm
  obtain ⟨spec, hspec, rfl⟩ := List.mem_map.mp hview
  obtain ⟨p, hp, hsource, heq⟩ := (hmem spec).mp hspec
  refine ⟨systemPartitions, specs, p, hload, hp, hsource, ?_, hsorted.imp ne_of_lt, ?_⟩
  · show p.spec spec.name ∈ specs
    rw [← heq]
    exact hspec
  · show join spec.nodes ", " = _
    rw [heq]
    rfl

/-- An editor of the live nodes: its name, and what it checks. -/
structure PartitionEditor.Chooses (editor : PartitionEditor) (name : String) (nodes : List Node)
    (chosen : List String) : Prop where
  name : editor.name = name
  checked : editor.checked = (nodes.map Node.name).filter (· ∈ chosen)

theorem chooses_of_nodes {name : String} {chosen : List String} {boxes : List (String × Bool)}
    (hboxes : boxes = nodes.map fun node => (node.name, decide (node.name ∈ chosen))) :
    (PartitionEditor.mk name boxes).Chooses name nodes chosen where
  name := rfl
  checked := by
    unfold PartitionEditor.checked
    dsimp only
    rw [hboxes, List.filter_map, List.map_map, List.filter_map]
    rfl

/-- The editor of a row checks the nodes of the partition, and those with the name of a member
    of every object. -/
theorem opened_editor (hpage : page.nodes = some (.ok nodes)) {row : PartitionManagedRowView}
    {p : StoredPartition} (hp : NodesOk p.nodes) (hrow : row.nodes = join p.nodes ", ") :
    ((slurmPartitions format store page).editor.edit row).Chooses row.name nodes
      (p.nodes ++ objectPrototype) := by
  refine chooses_of_nodes ?_
  rw [hrow, splitNodes_join hp.ne_nil hp.valid]
  unfold PartitionsView.editor slurmPartitions loadPartitionNodes partitionNodesView
  rw [hpage]
  simp [Function.comp_def]

/-- The editor of the page for a managed partition checks the nodes of the partition. -/
theorem opened_page (hpage : page.nodes = some (.ok nodes)) {row : PartitionManagedRowView}
    {p : StoredPartition} (hname : validPartitionIdentifier row.name = true)
    {systemPartitions managedPartitions : List PartitionSpec}
    (hload : loadPartitionRecords store page = (systemPartitions, managedPartitions, true))
    (hmem : p.spec row.name ∈ managedPartitions)
    (hnodup : (managedPartitions.map PartitionSpec.name).Nodup) :
    (slurmPartitions format store { page with name := row.name }).editor.Chooses row.name nodes
      p.nodes := by
  have hfind : managedPartitions.find? (fun partition => partition.name = row.name) =
      some (p.spec row.name) := by
    cases hfound : managedPartitions.find? fun partition => partition.name = row.name with
    | none =>
      rw [List.find?_eq_none] at hfound
      exact absurd (hfound _ hmem) (by simp)
    | some spec =>
      have hspec := List.find?_some hfound
      rw [List.inj_on_of_nodup_map hnodup (List.mem_of_find?_eq_some hfound) hmem
        (by simpa using hspec)]
  have hselect : partitionSelection systemPartitions managedPartitions row.name =
      (p.spec row.name, true) := by
    unfold partitionSelection
    rw [hfind]
  have hload' : loadPartitionRecords store { page with name := row.name } =
      (systemPartitions, managedPartitions, true) := hload
  unfold PartitionsView.editor slurmPartitions loadPartitionNodes partitionNodesView
  dsimp only
  rw [hload', hpage, trimSpace_of_valid hname]
  dsimp only
  rw [hselect]
  exact chooses_of_nodes (by simp [StoredPartition.spec])

end Editors

/-! ## What is sent -/

section Submit

variable {τ : Type} {editor : PartitionEditor} {name csrfToken : String} {nodes : List Node}
  {chosen : List String} {app : Application τ} {r : Request} {w : World τ}

theorem form_fields (hname : OneLine editor.name) (hcsrf : OneLine csrfToken)
    (hchecked : ∀ n ∈ editor.checked, OneLine n) :
    (readFields (formBody (editor.fields csrfToken))).map Form.ofFields =
      some ⟨editor.name, editor.checked⟩ := by
  have hplain : OneLine "_csrf" ∧ OneLine "name" ∧ OneLine "nodes" := by
    unfold OneLine
    decide
  have hne : editor.fields csrfToken ≠ [] := List.cons_ne_nil _ _
  rw [readFields_formBody hne]
  · unfold PartitionEditor.fields Form.ofFields formValue postForm
    simp [List.filter_map, Function.comp_def]
  · intro field hfield
    unfold PartitionEditor.fields at hfield
    simp only [List.mem_cons, List.mem_map] at hfield
    rcases hfield with rfl | rfl | ⟨n, hn, rfl⟩
    · exact ⟨hplain.1, hcsrf⟩
    · exact ⟨hplain.2.1, hname⟩
    · exact ⟨hplain.2.2, hchecked n hn⟩

/-- What a browser sends of an editor, and what the handler makes of it where the nodes are still
    the live ones. -/
theorem submit_eq (hchooses : editor.Chooses name nodes chosen)
    (hname : validPartitionIdentifier name = true) (hcsrf : OneLine csrfToken)
    (hchosen : ∀ n ∈ chosen, validPartitionIdentifier n = true)
    (hlive : r.nodes = some (.ok nodes)) :
    editor.submit csrfToken app r w =
      if 16384 < (formBody (editor.fields csrfToken)).length then (.httpError 413, w)
      else if editor.checked = [] then (.httpError 400, w)
      else
        let saved := w.store.upsert r.now r.writeFaults (saveSpec name editor.checked)
        saveSync app { r with form := some ⟨name, editor.checked⟩ } name editor.checked saved.1
          { w with store := saved.2 } := by
  have hchecked : ∀ n ∈ editor.checked, n ∈ nodes.map Node.name ∧ n ∈ chosen := by
    intro n hn
    rw [hchooses.checked, List.mem_filter] at hn
    exact ⟨hn.1, by simpa using hn.2⟩
  have hline : OneLine editor.name := by
    rw [hchooses.name]
    exact (no_space_of_valid hname).2.1
  have hform := form_fields hline hcsrf fun n hn =>
    (no_space_of_valid (hchosen n (hchecked n hn).2)).2.1
  rw [hchooses.name] at hform
  unfold PartitionEditor.submit requestBodyLimit
  dsimp only
  split
  · next hlimit =>
    split at hlimit
    · next hlong =>
      rw [if_pos hlong]
      cases hlimit
      rfl
    · cases hlimit
  · next hlimit =>
    split at hlimit
    · cases hlimit
    · next hfits =>
      rw [if_neg hfits, hform]
      have htrim := trimSpace_of_valid hname
      have hnonempty := (no_space_of_valid hname).2.2
      have hallowed : ¬∃ node ∈ editor.checked, node ∉ nodes.map Node.name := by
        rintro ⟨n, hn, hnot⟩
        exact hnot (hchecked n hn).1
      split
      · next hnil =>
        unfold savePartition saveChecks partitionNodeNames
        dsimp only
        rw [hlive]
        dsimp only
        rw [htrim, if_neg hnonempty, if_pos hnil]
      · next hsome =>
        unfold savePartition saveChecks partitionNodeNames
        dsimp only
        rw [hlive]
        dsimp only
        rw [htrim, if_neg hnonempty, if_neg hsome, if_neg hallowed]

/-- What becomes of the partition `p` when an editor that chooses `chosen` is sent as it was
    opened: a form that is too long or empty is refused, and else the partition has the nodes
    that the editor checks, in the store and in Slurm. -/
structure Resaved (app : Application τ) (r : Request) (w : World τ) (csrfToken name : String)
    (p : StoredPartition) (nodes : List Node) (chosen : List String) (editor : PartitionEditor) :
    Prop where
  chooses : editor.Chooses name nodes chosen
  tooLong : 16384 < (formBody (editor.fields csrfToken)).length →
    editor.submit csrfToken app r w = (.httpError 413, w)
  empty : (formBody (editor.fields csrfToken)).length ≤ 16384 → editor.checked = [] →
    editor.submit csrfToken app r w = (.httpError 400, w)
  stored : (formBody (editor.fields csrfToken)).length ≤ 16384 → editor.checked ≠ [] →
    (editor.submit csrfToken app r w).2.store.row = Function.update w.store.row name
        (some (upserted r.now .managed editor.checked (some p))) ∧
      (editor.submit csrfToken app r w).2.admin =
        (app.applyPartition name editor.checked w).2.admin
  kept : (editor.submit csrfToken app r w).2.store.row name = some p ↔
    16384 < (formBody (editor.fields csrfToken)).length ∨ editor.checked = [] ∨
      (∀ n ∈ p.nodes, n ∈ nodes.map Node.name) ∧
        ∀ n ∈ nodes.map Node.name, n ∈ chosen → n ∈ p.nodes

theorem applyPartition_admin (app : Application τ) (name : String) (selected : List String)
    (w : World τ) (store : PartitionStore) :
    (app.applyPartition name selected { w with store := store }).2.admin =
      (app.applyPartition name selected w).2.admin := by
  unfold Application.applyPartition
  cases app.partitionAdmin <;> rfl

/-- An upsert that leaves a row as it was has been given its nodes. -/
theorem upserted_eq_iff {now : Time} {p : StoredPartition} {ns : List String} :
    upserted now .managed ns (some p) = p ↔ p.nodes = ns := by
  constructor
  · intro h
    have hnodes : (upserted now .managed ns (some p)).nodes = ns := upserted_nodes (some p)
    rw [h] at hnodes
    exact hnodes
  · intro h
    unfold upserted
    exact if_pos h

theorem PartitionEditor.Chooses.mem_checked (h : editor.Chooses name nodes chosen) {n : String} :
    n ∈ editor.checked ↔ n ∈ nodes.map Node.name ∧ n ∈ chosen := by
  rw [h.checked, List.mem_filter]
  simp

/-- A form that goes through gives the partition the nodes that it has. -/
theorem submit_stores {p : StoredPartition} (hchooses : editor.Chooses name nodes chosen)
    (hname : validPartitionIdentifier name = true) (hcsrf : OneLine csrfToken)
    (hchosen : ∀ n ∈ chosen, validPartitionIdentifier n = true)
    (hlive : r.nodes = some (.ok nodes)) (hstrict : editor.checked.Pairwise (· < ·))
    (hfaults : r.writeFaults = []) (hrow : w.store.row name = some p)
    (hsource : p.source = .managed)
    (hfits : (formBody (editor.fields csrfToken)).length ≤ 16384) (hsome : editor.checked ≠ []) :
    (editor.submit csrfToken app r w).2.store.row = Function.update w.store.row name
        (some (upserted r.now .managed editor.checked (some p))) ∧
      (editor.submit csrfToken app r w).2.admin =
        (app.applyPartition name editor.checked w).2.admin := by
  have hvalid : ∀ n ∈ editor.checked, validPartitionIdentifier n = true :=
    fun n hn => hchosen n (hchooses.mem_checked.mp hn).2
  have htrim : editor.checked.map trimSpace = editor.checked := by
    conv_rhs => rw [← List.map_id editor.checked]
    exact List.map_congr_left fun n hn => trimSpace_of_valid (hvalid n hn)
  have hnodes : storedNodes (saveSpec name editor.checked) = editor.checked := by
    show sortStrings (editor.checked.map trimSpace) = _
    rw [htrim, sortStrings_of_strict hstrict]
  have haccepts : Accepts (saveSpec name editor.checked) .managed w.store.tables := by
    refine ⟨hname, hsome, fun n hn => ?_, ?_, fun q hq => ?_⟩
    · rw [trimSpace_of_valid (hvalid n hn)]
      exact hvalid n hn
    · show (editor.checked.map trimSpace).Nodup
      rw [htrim]
      exact hstrict.imp ne_of_lt
    · have hsame : w.store.row name = some q := hq
      rw [hrow] at hsame
      cases hsame
      exact hsource
  obtain ⟨change, tables, hup, -⟩ := upsert_of_accepts r.now w.store.inv haccepts
  have hok : (w.store.upsert r.now r.writeFaults (saveSpec name editor.checked)).1 =
      .ok change := by
    rw [hfaults]
    exact congrArg Prod.fst hup
  have hafter : (w.store.upsert r.now r.writeFaults (saveSpec name editor.checked)).2.row =
      Function.update w.store.row name
        (some (upserted r.now .managed editor.checked (w.store.row name))) := by
    have h := (PartitionStore.upsert_ok hok).2
    rw [hnodes] at h
    exact h
  rw [submit_eq hchooses hname hcsrf hchosen hlive, if_neg (Nat.not_lt.mpr hfits), if_neg hsome]
  dsimp only
  rw [hok]
  obtain ⟨hstore, hadmin, -⟩ := saveSync_ok app
    { r with form := some ⟨name, editor.checked⟩ } name editor.checked change
    { w with store := (w.store.upsert r.now r.writeFaults (saveSpec name editor.checked)).2 }
  rw [hstore, hadmin, applyPartition_admin]
  dsimp only
  rw [hafter, hrow]
  exact ⟨rfl, rfl⟩

/-- The editor checks the nodes of the partition, no less and no more. -/
theorem nodes_eq_checked_iff {p : StoredPartition} (hchooses : editor.Chooses name nodes chosen)
    (hstrict : editor.checked.Pairwise (· < ·)) (hp : NodesOk p.nodes)
    (hsub : ∀ n ∈ p.nodes, n ∈ chosen) :
    p.nodes = editor.checked ↔ (∀ n ∈ p.nodes, n ∈ nodes.map Node.name) ∧
      ∀ n ∈ nodes.map Node.name, n ∈ chosen → n ∈ p.nodes := by
  constructor
  · intro heq
    refine ⟨fun n hn => (hchooses.mem_checked.mp (heq ▸ hn)).1, fun n hn hn' => ?_⟩
    rw [heq]
    exact hchooses.mem_checked.mpr ⟨hn, hn'⟩
  · intro hall
    refine strict_ext hp.sorted hstrict fun n => ?_
    rw [hchooses.mem_checked]
    exact ⟨fun hn => ⟨hall.1 n hn, hsub n hn⟩, fun hn => hall.2 n hn.1 hn.2⟩

theorem resaved {p : StoredPartition} (hchooses : editor.Chooses name nodes chosen)
    (hname : validPartitionIdentifier name = true) (hcsrf : OneLine csrfToken)
    (hchosen : ∀ n ∈ chosen, validPartitionIdentifier n = true)
    (hlive : r.nodes = some (.ok nodes)) (hsorted : (nodes.map Node.name).Pairwise (· < ·))
    (hfaults : r.writeFaults = []) (hrow : w.store.row name = some p)
    (hsource : p.source = .managed) (hp : NodesOk p.nodes) (hsub : ∀ n ∈ p.nodes, n ∈ chosen) :
    Resaved app r w csrfToken name p nodes chosen editor := by
  have heq := @submit_eq τ editor name csrfToken nodes chosen app r w hchooses hname hcsrf
    hchosen hlive
  have hstrict : editor.checked.Pairwise (· < ·) := by
    rw [hchooses.checked]
    exact hsorted.filter _
  have hstored := @submit_stores τ editor name csrfToken nodes chosen app r w p hchooses hname
    hcsrf hchosen hlive hstrict hfaults hrow hsource
  refine ⟨hchooses, fun hlong => ?_, fun hfits hempty => ?_, hstored, ?_⟩
  · rw [heq, if_pos hlong]
  · rw [heq, if_neg (Nat.not_lt.mpr hfits), if_pos hempty]
  · by_cases hlong : 16384 < (formBody (editor.fields csrfToken)).length
    · rw [heq, if_pos hlong]
      exact iff_of_true hrow (.inl hlong)
    · by_cases hempty : editor.checked = []
      · rw [heq, if_neg hlong, if_pos hempty]
        exact iff_of_true hrow (.inr (.inl hempty))
      · rw [(hstored (Nat.not_lt.mp hlong) hempty).1, Function.update_self, Option.some_inj,
          upserted_eq_iff, nodes_eq_checked_iff hchooses hstrict hp hsub]
        exact ⟨fun h => .inr (.inr h), fun h => (h.resolve_left hlong).resolve_left hempty⟩

end Submit

/-! ## The round trip -/

theorem objectPrototype_valid : ∀ n ∈ objectPrototype, validPartitionIdentifier n = true := by
  decide +kernel

/-- A managed partition on the page, opened in either editor and sent as it is, while its row
    and the live nodes are as the page has shown them. A form of more than 16384 bytes is
    refused, and so is one in which no node is checked. Otherwise the partition loses the nodes
    that are no longer live; the editor of the row adds the live nodes that are named as a member
    of `Object.prototype`. So it is kept if and only if there are none of either. -/
theorem partition_resaved {τ : Type} [UnicodeCase] {doc : SinfoJSON} {snapshot : NodeSnapshot}
    (hparse : parseNodesJSON doc = .ok snapshot) {format : Time → String}
    {store : PartitionStore} {page : PartitionsRequest}
    (hpage : page.nodes = some (.ok snapshot.nodes)) {row : PartitionManagedRowView}
    (hrow : row ∈ (slurmPartitions format store page).platformPartitions) {csrfToken : String}
    (hcsrf : OneLine csrfToken) (app : Application τ) {r : Request}
    (hlive : r.nodes = some (.ok snapshot.nodes)) (hfaults : r.writeFaults = []) {w : World τ}
    (hsame : w.store.row row.name = store.row row.name) :
    ∃ p, store.row row.name = some p ∧ p.source = .managed ∧
      Resaved app r w csrfToken row.name p snapshot.nodes p.nodes
        (slurmPartitions format store { page with name := row.name }).editor ∧
      Resaved app r w csrfToken row.name p snapshot.nodes (p.nodes ++ objectPrototype)
        ((slurmPartitions format store page).editor.edit row) := by
  obtain ⟨systemPartitions, managedPartitions, p, hload, hp, hsource, hmem, hnodup, hnodes⟩ :=
    row_of_page hrow
  have hsorted := (parseNodesJSON_spec hparse).sorted
  obtain ⟨hname, hok⟩ := row_ok store.inv hp
  have hstored : w.store.row row.name = some p := hsame.trans hp
  refine ⟨p, hp, hsource, ?_, ?_⟩
  · exact resaved (opened_page hpage hname hload hmem hnodup) hname hcsrf hok.valid hlive hsorted
      hfaults hstored hsource hok fun n hn => hn
  · refine resaved (opened_editor hpage hok hnodes) hname hcsrf (fun n hn => ?_) hlive hsorted
      hfaults hstored hsource hok fun n hn => List.mem_append_left _ hn
    rcases List.mem_append.mp hn with hn | hn
    · exact hok.valid n hn
    · exact objectPrototype_valid n hn

section Example

open Ascii

/-- A save of the editor, with the nodes of the page. -/
def editorRequest (nodes : List Node) : Request :=
  ⟨"root", "en", none, some (.ok nodes), 0, [], [], []⟩

def editorPage (nodes : List Node) : PartitionsRequest :=
  ⟨"en", "", "", "", "", some (.ok nodes), [], []⟩

/-- Of the nodes of the partition, n9 is no longer live. -/
theorem partition_resaved_gpu : ∃ snapshot, parseNodesJSON disjointDoc = .ok snapshot ∧
    ∃ p, (gpuStore ["n3", "n9"]).row "gpu" = some p ∧ p.source = .managed ∧
      Resaved (⟨none⟩ : Application Unit) (editorRequest snapshot.nodes)
        ⟨gpuStore ["n3", "n9"], (), []⟩ "token" "gpu" p snapshot.nodes p.nodes
        (slurmPartitions (fun _ => "") (gpuStore ["n3", "n9"])
          { editorPage snapshot.nodes with name := "gpu" }).editor ∧
      Resaved (⟨none⟩ : Application Unit) (editorRequest snapshot.nodes)
        ⟨gpuStore ["n3", "n9"], (), []⟩ "token" "gpu" p snapshot.nodes
        (p.nodes ++ objectPrototype)
        ((slurmPartitions (fun _ => "") (gpuStore ["n3", "n9"])
          (editorPage snapshot.nodes)).editor.edit
            (partitionManagedRow (fun _ => "") (partitionCopyFor "en") snapshot.nodes true
              ⟨"gpu", ["n3", "n9"], true, 0, 0⟩)) := by
  obtain ⟨snapshot, hparse⟩ :=
    exists_ok_of_isOk (show (parseNodesJSON disjointDoc).isOk = true by decide)
  have hrow : partitionManagedRow (fun _ => "") (partitionCopyFor "en") snapshot.nodes true
      ⟨"gpu", ["n3", "n9"], true, 0, 0⟩ ∈ (slurmPartitions (fun _ => "")
        (gpuStore ["n3", "n9"]) (editorPage snapshot.nodes)).platformPartitions :=
    List.mem_cons_self
  have hline : OneLine "token" := by
    unfold OneLine
    decide
  exact ⟨snapshot, hparse, partition_resaved hparse rfl hrow hline ⟨none⟩ rfl rfl rfl⟩

end Example

end OpenHpcWeb.Web
