/-
  System partitions over whole runs of the platform.

  A partition of the startup snapshot that the platform does not manage is meant to be read
  only. What protects it is its system row in the store: `Upsert` refuses to write over it,
  and `deletePartition` to take it away. Startup writes that row only if the import gets to
  the partition, and a partition without the row can be saved through the platform, where
  the failed `scontrol create` is followed by a `scontrol update`.

  * `ReadOnly`: no run overwrites or deletes the partition in Slurm.
  * `readOnly_iff`: which partitions of a snapshot are read only.
-/
import OpenHpcWeb.Web.RequestCases
import OpenHpcWeb.Web.StartupSync
import OpenHpcWeb.Web.Validators

namespace OpenHpcWeb.Web

open OpenHpcWeb.Go OpenHpcWeb.Cluster OpenHpcWeb.Lib OpenHpcWeb.Platform OpenHpcWeb.Slurm

variable {σ : Type}

/-! ## Runs of requests -/

inductive PartitionRequest where
  | save (r : Request)
  | delete (r : Request)

/-- The application over a Slurm client. -/
def application (c : Client σ) : Application (Scheduler σ) := ⟨some c.partitionAdmin⟩

theorem application_applyPartition (c : Client σ) (name : String) (nodes : List String)
    (w : World (Scheduler σ)) : (application c).applyPartition name nodes w =
      ((applyPartition c name nodes w.admin).1,
        { w with admin := (applyPartition c name nodes w.admin).2 }) := rfl

theorem application_deletePartition (c : Client σ) (name : String) (w : World (Scheduler σ)) :
    (application c).deletePartition name w =
      ((Slurm.deletePartition c name w.admin).1,
        { w with admin := (Slurm.deletePartition c name w.admin).2 }) := rfl

theorem application_applyPartition_admin (c : Client σ) (name : String) (nodes : List String)
    (w : World (Scheduler σ)) : ((application c).applyPartition name nodes w).2.admin =
      (applyPartition c name nodes w.admin).2 := by
  rw [application_applyPartition]

theorem application_deletePartition_admin (c : Client σ) (name : String)
    (w : World (Scheduler σ)) : ((application c).deletePartition name w).2.admin =
      (Slurm.deletePartition c name w.admin).2 := by
  rw [application_deletePartition]

def handle (c : Client σ) (w : World (Scheduler σ)) : PartitionRequest → World (Scheduler σ)
  | .save r => (savePartition (application c) r w).2
  | .delete r => (deletePartition (application c) r w).2

/-- The requests one after the other. -/
def serve (c : Client σ) (w : World (Scheduler σ)) (requests : List PartitionRequest) :
    World (Scheduler σ) :=
  requests.foldl (handle c) w

theorem handle_save (c : Client σ) (w : World (Scheduler σ)) (r : Request) :
    handle c w (.save r) = (savePartition (application c) r w).2 := rfl

theorem serve_singleton (c : Client σ) (w : World (Scheduler σ)) (request : PartitionRequest) :
    serve c w [request] = handle c w request := rfl

/-- `scontrol update` or `scontrol delete` with `p` as the partition argument. -/
def Overwrites (p : String) (command : Command) : Prop :=
  command.name = "scontrol" ∧ ∃ rest, command.args = "update" :: ("partitionname=" ++ p) :: rest ∨
    command.args = "delete" :: ("partitionname=" ++ p) :: rest

/-- Startup and any requests after it leave the partition alone in Slurm. -/
def ReadOnly (c : Client σ) (env : Startup) (store : PartitionStore) (s : σ) (p : String) : Prop :=
  ∀ requests, ∀ command ∈
    (serve c (start (application c) env ⟨store, ⟨s, []⟩, []⟩) requests).admin.executed,
    ¬ Overwrites p command

/-- What is assumed of scontrol about the partitions `live` in Slurm: `create` fails on one
    that exists, and only deleting a partition makes it go away. -/
structure KeepsPartitions (c : Client σ) (live : σ → String → Prop) : Prop where
  create : ∀ s p rest, live s p → ∃ e,
    (c.runner.run ⟨"scontrol", "create" :: ("partitionname=" ++ p) :: rest⟩ s).1 = .error e
  keeps : ∀ s p command, live s p → ¬ Overwrites p command → live (c.runner.run command s).2 p

theorem partitionArg_inj {p q : String} (h : "partitionname=" ++ p = "partitionname=" ++ q) :
    p = q :=
  (String.append_right_inj _).mp h

theorem not_overwrites_create (p name : String) (nodes : List String) :
    ¬ Overwrites p (createCommand name nodes) := by
  rintro ⟨-, rest, h | h⟩
  all_goals simp [createCommand] at h

theorem overwrites_update {p name : String} {nodes : List String} :
    Overwrites p (updateCommand name nodes) ↔ name = p := by
  constructor
  · rintro ⟨-, rest, h | h⟩
    · simp only [updateCommand, List.cons.injEq, true_and] at h
      exact partitionArg_inj h.1
    · simp [updateCommand] at h
  · rintro rfl
    exact ⟨rfl, _, Or.inl rfl⟩

theorem overwrites_delete {p name : String} (h : Overwrites p (deleteCommand name)) : name = p := by
  obtain ⟨-, rest, h | h⟩ := h
  · simp [deleteCommand] at h
  · simp only [deleteCommand, List.cons.injEq, true_and] at h
    exact partitionArg_inj h.1

/-! ## What protects a partition -/

/-- A name that the store and the Slurm client both take. -/
def Usable (p : String) : Prop := validPartitionIdentifier p = true ∧ Plain p

/-- No command of the scheduler's history overwrites `p`. -/
def Untouched (p : String) (w : Scheduler σ) : Prop :=
  ∀ command ∈ w.executed, ¬ Overwrites p command

theorem untouched_append {p : String} {w w' : Scheduler σ} {commands : List Command}
    (h : Untouched p w) (hw : w'.executed = w.executed ++ commands)
    (hnew : ∀ command ∈ commands, ¬ Overwrites p command) : Untouched p w' := by
  intro command hmem
  rw [hw] at hmem
  rcases List.mem_append.mp hmem with hmem | hmem
  · exact h command hmem
  · exact hnew command hmem

/-- `ApplyPartition` overwrites only the partition it is called for, and only if the client
    takes its name. -/
theorem applyPartition_untouched (c : Client σ) {p name : String} {nodes : List String}
    {w : Scheduler σ} (h : Untouched p w)
    (hname : name = p → validatePartitionDefinition name nodes ≠ .ok ()) :
    Untouched p (applyPartition c name nodes w).2 := by
  rcases applyPartition_cases c name nodes w with ⟨-, -, hw⟩ | ⟨-, -, -, hw⟩ | ⟨hv, hw⟩
  · rw [hw]
    exact h
  · refine untouched_append h hw fun command hc => ?_
    rw [List.mem_singleton.mp hc]
    exact not_overwrites_create p name nodes
  · refine untouched_append h hw fun command hc hover => ?_
    rcases List.mem_cons.mp hc with rfl | hc
    · exact not_overwrites_create p name nodes hover
    · rw [List.mem_singleton.mp hc] at hover
      exact hname (overwrites_update.mp hover) hv

theorem run_live {c : Client σ} {live : σ → String → Prop} (hc : KeepsPartitions c live)
    {p command : String} {args : List String} {w : Scheduler σ} (h : live w.state p)
    (hno : ¬ Overwrites p ⟨command, args⟩) : live (c.run command args w).2.state p := by
  rw [run_state]
  exact hc.keeps w.state p ⟨command, args⟩ h hno

theorem applyPartition_live {c : Client σ} {live : σ → String → Prop} (hc : KeepsPartitions c live)
    {p name : String} (hne : name ≠ p) (nodes : List String) {w : Scheduler σ}
    (h : live w.state p) : live (applyPartition c name nodes w).2.state p := by
  have hcreated := run_live hc h (not_overwrites_create p name nodes)
  have hupdated := run_live hc hcreated fun hover : Overwrites p (updateCommand name nodes) =>
    hne (overwrites_update.mp hover)
  unfold applyPartition
  split
  · exact h
  · simp only
    split
    · exact hcreated
    · split
      · exact hupdated
      · exact hupdated

theorem deletePartition_untouched (c : Client σ) {p name : String} {w : Scheduler σ}
    (h : Untouched p w) (hname : name = p → validatePartitionDeletion name ≠ .ok ()) :
    Untouched p (Slurm.deletePartition c name w).2 := by
  rcases Slurm.deletePartition_cases c name w with ⟨-, -, hw⟩ | ⟨hv, hw⟩
  · rw [hw]
    exact h
  · refine untouched_append h hw fun command hc hover => ?_
    rw [List.mem_singleton.mp hc] at hover
    exact hname (overwrites_delete hover) hv

/-- The partition is out of reach: it has a system row, or its name is refused somewhere. -/
structure Protected (p : String) (w : World (Scheduler σ)) : Prop where
  row : Usable p → ∃ q, w.store.row p = some q ∧ q.source = .system
  untouched : Untouched p w.admin

theorem definition_of_usable {p : String} {nodes : List String} (hno : ¬ Usable p)
    (hvalid : validPartitionIdentifier p = true) :
    validatePartitionDefinition p nodes ≠ .ok () := by
  intro h
  rw [validatePartitionDefinition_ok_iff] at h
  exact hno ⟨hvalid, (argText_iff hvalid).mp (h.2.2.1 p List.mem_cons_self)⟩

theorem deletion_of_usable {p : String} (hno : ¬ Usable p)
    (hvalid : validPartitionIdentifier p = true) : validatePartitionDeletion p ≠ .ok () := by
  rw [ne_eq, deletion_ok_iff hvalid]
  exact fun h => hno ⟨hvalid, h⟩

theorem protected_save {c : Client σ} {p : String} {w : World (Scheduler σ)} (h : Protected p w)
    (r : Request) : Protected p (savePartition (application c) r w).2 := by
  rcases savePartition_cases (application c) r w with ⟨answer, -, hw⟩ |
    ⟨name, selected, err, -, -, -, hrow, hadmin⟩ |
    ⟨name, selected, change, -, hup, hstore, hadmin, -⟩
  · rw [hw]
    exact h
  · exact ⟨by rw [hrow]; exact h.row, by rw [hadmin]; exact h.untouched⟩
  · obtain ⟨haccepts, hrow⟩ := PartitionStore.upsert_ok hup
    have hvalid : validPartitionIdentifier name = true := haccepts.name
    -- a save of `p` itself gets through only if Slurm's client refuses the name
    have hname : name = p → ¬ Usable p := by
      rintro rfl husable
      obtain ⟨q, hq, hsys⟩ := h.row husable
      rw [haccepts.source q hq] at hsys
      cases hsys
    refine ⟨fun husable => ?_, ?_⟩
    · have hne : p ≠ name := fun heq => hname heq.symm husable
      have hframe : (savedWorld r name selected w).store.row p = w.store.row p := by
        rw [savedWorld, hrow]
        exact Function.update_of_ne hne _ _
      rw [hstore, hframe]
      exact h.row husable
    · rw [hadmin, application_applyPartition_admin, savedWorld_admin]
      refine applyPartition_untouched c h.untouched fun heq => ?_
      subst heq
      exact definition_of_usable (hname rfl) hvalid

theorem protected_delete {c : Client σ} {p : String} {w : World (Scheduler σ)}
    (h : Protected p w) (r : Request) :
    Protected p (deletePartition (application c) r w).2 := by
  rcases deletePartition_cases (application c) r w with ⟨answer, hw, -⟩ |
    ⟨name, err, -, hdel, -, hstore, hadmin⟩ | ⟨name, spec, -, hfound, hdel, hadmin, hend⟩
  · rw [hw]
    exact h
  · have hrow := PartitionStore.deleteManaged_error hdel
    exact ⟨by rw [hstore, deletedWorld, hrow]; exact h.row, by rw [hadmin]; exact h.untouched⟩
  · obtain ⟨hvalid, q, hq, hmanaged, rfl⟩ := deleteFound_ok hfound
    have hname : name = p → ¬ Usable p := by
      rintro rfl husable
      obtain ⟨q', hq', hsys⟩ := h.row husable
      rw [hq] at hq'
      cases hq'
      rw [hmanaged] at hsys
      cases hsys
    refine ⟨fun husable => ?_, ?_⟩
    · have hne : p ≠ name := fun heq => hname heq.symm husable
      have hframe : (deletedWorld r name w).store.row p = w.store.row p := by
        rw [deletedWorld, (PartitionStore.deleteManaged_ok hdel).2]
        exact Function.update_of_ne hne _ _
      rcases hend with ⟨-, -, hstore⟩ | ⟨-, -, hstore⟩
      · rw [hstore, hframe]
        exact h.row husable
      · rw [hstore]
        cases hup : ((deletedWorld r name w).store.upsert r.now r.restoreFaults
            (q.spec name)).1 with
        | error e =>
          rw [PartitionStore.upsert_error hup, hframe]
          exact h.row husable
        | ok change =>
          rw [(PartitionStore.upsert_ok hup).2, StoredPartition.spec_name,
            Function.update_of_ne hne, hframe]
          exact h.row husable
    · rw [hadmin, application_deletePartition_admin, deletedWorld_admin]
      refine deletePartition_untouched c h.untouched fun heq => ?_
      subst heq
      exact deletion_of_usable (hname rfl) hvalid

theorem protected_serve {c : Client σ} {p : String} {w : World (Scheduler σ)}
    (h : Protected p w) (requests : List PartitionRequest) :
    Protected p (serve c w requests) :=
  List.foldlRecOn requests _ h fun w hw request _ => by
    cases request with
    | save r => exact protected_save hw r
    | delete r => exact protected_delete hw r

/-! ## Startup -/

/-- What startup has done when requests are first served. -/
theorem start_facts {c : Client σ} {env : Startup} {nodes : List Node}
    (hnodes : env.nodes = some (.ok nodes)) (hdb : ∀ name, env.importFaults name = [])
    {store : PartitionStore} {s : σ} {p : String}
    (hmanaged : ∀ q, store.row p = some q → q.source ≠ .managed) :
    (start (application c) env ⟨store, ⟨s, []⟩, []⟩).store = (syncSystemPartitions env store).2 ∧
    Untouched p (start (application c) env ⟨store, ⟨s, []⟩, []⟩).admin ∧
    ∀ live, KeepsPartitions c live → live s p →
      live (start (application c) env ⟨store, ⟨s, []⟩, []⟩).admin.state p := by
  set w : World (Scheduler σ) := ⟨(syncSystemPartitions env store).2, ⟨s, []⟩, []⟩ with hw
  have hstart : start (application c) env ⟨store, ⟨s, []⟩, []⟩ =
      (syncStoredPartitions (application c) env w).2 := rfl
  rw [hstart]
  have hunmanaged : ∀ q, w.store.row p = some q → q.source ≠ .managed := by
    intro q hq hsrc
    exact hmanaged q ((syncSystemPartitions_managed hnodes hdb store p q hsrc).mp hq) hsrc
  cases hlist : w.store.listManaged env.listFaults with
  | error err =>
    have hsync : syncStoredPartitions (application c) env w = (.error err, w) := by
      unfold syncStoredPartitions application
      simp only [hlist]
    rw [hsync]
    exact ⟨rfl, fun command h => (nomatch h), fun live _ hlive => hlive⟩
  | ok specs =>
    have hsync : syncStoredPartitions (application c) env w =
        forEach (fun spec => (application c).applyPartition spec.name spec.nodes) specs w := by
      unfold syncStoredPartitions
      rw [hlist]
      rfl
    rw [hsync]
    obtain ⟨specs', hspecs, -, hmem⟩ := PartitionStore.listManaged_nil w.store
    rw [PartitionStore.listManaged_ok hlist] at hspecs
    cases hspecs
    -- only managed partitions are sent to Slurm, and `p` is none of them
    refine forEach_keeps (fun w' : World (Scheduler σ) => w'.store = w.store ∧
      Untouched p w'.admin ∧ ∀ live, KeepsPartitions c live → live s p → live w'.admin.state p)
      (fun spec hspec w' hw' => ?_)
      ⟨rfl, fun command h => (nomatch h), fun live _ hlive => hlive⟩
    obtain ⟨q, hq, hsrc, -⟩ := (hmem spec).mp hspec
    have hne : spec.name ≠ p := by
      rintro rfl
      exact hunmanaged q hq hsrc
    rw [applyPartition_store, application_applyPartition_admin]
    refine ⟨hw'.1, ?_, fun live hlive hs => ?_⟩
    · exact applyPartition_untouched c hw'.2.1 fun heq => absurd heq hne
    · exact applyPartition_live hlive hne spec.nodes (hw'.2.2 live hlive hs)

/-! ## What the import gets to -/

/-- The records of the document let the import get to `p`: some node is in `p` only, and up
    to `p` in the order of the names every node that is not in a blank partition is in one
    partition, whose name and node names the store takes and which it does not manage. -/
structure Importable (doc : SinfoJSON) (store : PartitionStore) (p : String) : Prop where
  alone : ∃ n, Lists doc n [p]
  ahead : ∀ n ps, Lists doc n ps → trimSpace (join ps ", ") ≠ "" → join ps ", " ≤ p →
    ∃ q, ps = [q] ∧ validPartitionIdentifier q = true ∧
      ∀ x, store.row q = some x → x.source = .system
  nodes : ∀ n q, Lists doc n [q] → trimSpace q ≠ "" → q ≤ p →
    validPartitionIdentifier (trimSpace n) = true
  distinct : ∀ n m q, Lists doc n [q] → Lists doc m [q] → trimSpace q ≠ "" → q ≤ p →
    trimSpace n = trimSpace m → n = m

/-- A join that the store takes as a name is a join of one partition. -/
theorem singleton_of_valid {doc : SinfoJSON} {n : String} {ps : List String}
    (hps : Lists doc n ps) (h : validPartitionIdentifier (join ps ", ") = true) :
    ∃ q, ps = [q] := by
  match ps, hps.ne_nil with
  | [q], _ => exact ⟨q, rfl⟩
  | a :: b :: rest, _ =>
    obtain ⟨l, m, hlm⟩ := (contains_iff _ _).mp (contains_join a b rest ", ")
    have hspace : ' ' ∈ (join (a :: b :: rest) ", ").toList := by
      rw [← hlm]
      simp
    exact absurd rfl ((identifier_facts h).2.2 ' ' hspace).2.2.2

section Import

variable [UnicodeCase] {doc : SinfoJSON} {snapshot : NodeSnapshot} {store : PartitionStore}
  {p : String}

theorem nodesIn_nodup (h : SnapshotOf doc snapshot) (k : String) :
    (nodesIn snapshot.nodes k).Nodup :=
  (h.sorted.imp ne_of_lt).sublist (List.filter_sublist.map _)

theorem importable_iff (h : SnapshotOf doc snapshot) (hvalid : validPartitionIdentifier p = true) :
    Importable doc store p ↔
      p ∈ (partitionSpecsFromNodes snapshot.nodes).map PartitionSpec.name ∧
      ∀ spec ∈ partitionSpecsFromNodes snapshot.nodes, spec.name ≤ p →
        Accepts spec .system store.tables := by
  constructor
  · intro himp
    obtain ⟨n, hn⟩ := himp.alone
    refine ⟨(mem_partitionSpecs_of_doc h).mpr ⟨trimSpace_ne_empty hvalid, n, [p], hn,
      (join_singleton p ", ").symm⟩, fun spec hspec hle => ?_⟩
    obtain ⟨hblank, hne, heq⟩ := mem_partitionSpecs.mp hspec
    -- every node of the spec is in the partition of that name only
    have hnodes : ∀ m ∈ spec.nodes, Lists doc m [spec.name] ∧
        validPartitionIdentifier spec.name = true ∧
        ∀ x, store.row spec.name = some x → x.source = .system := by
      intro m hm
      rw [heq] at hm
      obtain ⟨ps, hps, hjoin⟩ := (mem_nodesIn_of_doc h).mp hm
      obtain ⟨q, rfl, hq, hsys⟩ := himp.ahead m ps hps (by rw [← hjoin]; exact hblank)
        (by rw [← hjoin]; exact hle)
      rw [join_singleton] at hjoin
      rw [hjoin]
      exact ⟨hps, hq, hsys⟩
    obtain ⟨m, hm⟩ := List.exists_mem_of_ne_nil _ hne
    refine ⟨(hnodes m hm).2.1, hne, fun k hk => ?_, ?_, (hnodes m hm).2.2⟩
    · exact himp.nodes k spec.name (hnodes k hk).1 hblank hle
    · have hnd : spec.nodes.Nodup := by
        rw [heq]
        exact nodesIn_nodup h spec.name
      rw [List.nodup_map_iff_inj_on hnd]
      intro k hk l hl hkl
      exact himp.distinct k l spec.name (hnodes k hk).1 (hnodes l hl).1 hblank hle hkl
  · rintro ⟨hp, haccepts⟩
    have hspec : ∀ n ps, Lists doc n ps → trimSpace (join ps ", ") ≠ "" → join ps ", " ≤ p →
        Accepts (specFor snapshot.nodes (join ps ", ")) .system store.tables ∧
          n ∈ (specFor snapshot.nodes (join ps ", ")).nodes := by
      intro n ps hps hblank hle
      have hn : n ∈ nodesIn snapshot.nodes (join ps ", ") :=
        (mem_nodesIn_of_doc h).mpr ⟨ps, hps, rfl⟩
      refine ⟨haccepts _ (mem_partitionSpecs.mpr ⟨hblank, List.ne_nil_of_mem hn, rfl⟩) hle, hn⟩
    have hone : ∀ n q, Lists doc n [q] → trimSpace q ≠ "" → q ≤ p →
        Accepts (specFor snapshot.nodes q) .system store.tables ∧
          n ∈ (specFor snapshot.nodes q).nodes := by
      intro n q hq hblank hle
      have := hspec n [q] hq (by rw [join_singleton]; exact hblank)
        (by rw [join_singleton]; exact hle)
      rw [join_singleton] at this
      exact this
    refine ⟨?_, fun n ps hps hblank hle => ?_, fun n q hq hblank hle => ?_,
      fun n m q hn hm hblank hle hnm => ?_⟩
    · obtain ⟨-, n, ps, hps, hjoin⟩ := (mem_partitionSpecs_of_doc h).mp hp
      obtain ⟨q, rfl⟩ := singleton_of_valid hps (by rw [← hjoin]; exact hvalid)
      rw [join_singleton] at hjoin
      exact ⟨n, by rw [hjoin]; exact hps⟩
    · obtain ⟨ha, -⟩ := hspec n ps hps hblank hle
      obtain ⟨q, rfl⟩ := singleton_of_valid hps ha.name
      rw [join_singleton] at ha
      exact ⟨q, rfl, ha.name, ha.source⟩
    · obtain ⟨ha, hn⟩ := hone n q hq hblank hle
      exact ha.nodes n hn
    · obtain ⟨ha, hnin⟩ := hone n q hn hblank hle
      obtain ⟨-, hmin⟩ := hone m q hm hblank hle
      exact (List.nodup_map_iff_inj_on (nodesIn_nodup h q)).mp ha.unique n hnin m hmin hnm

/-- After the import the partition has a row if it had one or the import got to it. -/
theorem row_after_import_iff (h : SnapshotOf doc snapshot) {env : Startup}
    (hnodes : env.nodes = some (.ok snapshot.nodes)) (hdb : ∀ name, env.importFaults name = [])
    (hvalid : validPartitionIdentifier p = true) :
    (∃ q, (syncSystemPartitions env store).2.row p = some q) ↔
      (∃ q, store.row p = some q) ∨ Importable doc store p := by
  obtain ⟨done, rest, hsplit, himp, hstop⟩ := syncSystemPartitions_rows hnodes hdb store
  have hsorted := partitionSpecs_sorted snapshot.nodes
  have hmem : ∀ spec, spec ∈ partitionSpecsFromNodes snapshot.nodes ↔
      spec ∈ done ∨ spec ∈ rest := by
    intro spec
    rw [hsplit, List.mem_append]
  rw [importable_iff h hvalid]
  by_cases hp : p ∈ done.map PartitionSpec.name
  · obtain ⟨spec, hspec, rfl⟩ := List.mem_map.mp hp
    refine iff_of_true ⟨_, himp.rows spec hspec⟩ (Or.inr ⟨?_, fun other ho hle => ?_⟩)
    · exact List.mem_map.mpr ⟨spec, (hmem spec).mpr (Or.inl hspec), rfl⟩
    · rcases (hmem other).mp ho with ho | ho
      · exact himp.accepts other ho
      · rw [hsplit, List.map_append, List.pairwise_append] at hsorted
        exact absurd hle (not_le_of_gt (hsorted.2.2 _ hp _ (List.mem_map.mpr ⟨other, ho, rfl⟩)))
  · rw [himp.frame p hp]
    refine ⟨Or.inl, fun hor => hor.resolve_right fun ⟨hpm, haccepts⟩ => ?_⟩
    -- the loop has stopped at a rejected spec that is not after `p`
    obtain ⟨spec, hspec, rfl⟩ := List.mem_map.mp hpm
    have hrst : spec ∈ rest := ((hmem spec).mp hspec).resolve_left fun hd =>
      hp (List.mem_map.mpr ⟨spec, hd, rfl⟩)
    match rest, hrst, hstop, hmem, hsplit with
    | first :: rest', hrst, hstop, hmem, hsplit =>
      refine hstop first rest' rfl
        (haccepts first ((hmem first).mpr (Or.inr List.mem_cons_self)) ?_)
      rcases List.mem_cons.mp hrst with rfl | hrst
      · exact le_refl _
      · rw [hsplit, List.map_append, List.pairwise_append, List.map_cons,
          List.pairwise_cons] at hsorted
        exact le_of_lt (hsorted.2.1.1 _ (List.mem_map.mpr ⟨spec, hrst, rfl⟩))

end Import

/-! ## The exact protection -/

/-- A request of the partition `name` with the one live node "n1". -/
def saveRequest (name : String) : Request where
  actor := "admin"
  lang := "en"
  form := some ⟨name, ["n1"]⟩
  nodes := some (.ok [idleNode "n1" name])
  now := 0
  readFaults := []
  writeFaults := []
  restoreFaults := []

/-- Saving a partition that is in Slurm but not in the store ends in `scontrol update`. -/
theorem save_overwrites {c : Client σ} {live : σ → String → Prop} (hc : KeepsPartitions c live)
    {w : World (Scheduler σ)} {p : String} (husable : Usable p) (hno : w.store.row p = none)
    (hlive : live w.admin.state p) :
    ∃ command ∈ (savePartition (application c) (saveRequest p) w).2.admin.executed,
      Overwrites p command := by
  obtain ⟨hvalid, hplain⟩ := husable
  have htrim := trimSpace_of_valid hvalid
  have hchecks : saveChecks (saveRequest p) = .ok (p, ["n1"]) := by
    have hne := (identifier_facts hvalid).1
    unfold saveChecks saveRequest partitionNodeNames
    simp [htrim, hne, idleNode]
  have hnames : ∀ n ∈ ["n1"], validPartitionIdentifier (trimSpace n) = true := by decide
  have hunique : (["n1"].map trimSpace).Nodup := by decide
  have haccepts : Accepts (saveSpec p ["n1"]) .managed w.store.tables := by
    refine ⟨hvalid, List.cons_ne_nil _ _, hnames, hunique, fun q hq => ?_⟩
    have hq : w.store.row p = some q := hq
    rw [hno] at hq
    cases hq
  obtain ⟨change, t', hup, -⟩ := upsert_of_accepts 0 w.store.inv haccepts
  have hup' : (w.store.upsert (saveRequest p).now (saveRequest p).writeFaults
      (saveSpec p ["n1"])).1 = .ok change := congrArg Prod.fst hup
  rcases savePartition_cases (application c) (saveRequest p) w with ⟨answer, hno', -⟩ |
    ⟨name, selected, err, hc', herr, -⟩ | ⟨name, selected, change', hc', -, -, hadmin, -⟩
  · rw [hchecks] at hno'
    cases hno'
  · rw [hchecks] at hc'
    cases hc'
    rw [hup'] at herr
    cases herr
  · rw [hchecks] at hc'
    cases hc'
    rw [hadmin, application_applyPartition_admin, savedWorld_admin]
    have hdef : validatePartitionDefinition p ["n1"] = .ok () := by
      rw [definition_ok_iff hvalid ⟨List.cons_ne_nil _ _, by decide, by decide⟩]
      intro value hv
      rcases List.mem_cons.mp hv with rfl | hv
      · exact hplain
      · rw [List.mem_singleton.mp hv]
        decide
    rcases applyPartition_cases c p ["n1"] w.admin with
      ⟨hno', -⟩ | ⟨-, ⟨output, hout⟩, -⟩ | ⟨-, hex⟩
    · exact absurd hdef hno'
    · obtain ⟨e, he⟩ := hc.create w.admin.state p ["nodes=" ++ join ["n1"] ","] hlive
      have herr : (c.run "scontrol" (createCommand p ["n1"]).args w.admin).1 =
        .error ("run " ++ "scontrol" ++ ": " ++ e) := run_error c he
      rw [herr] at hout
      cases hout
    · refine ⟨updateCommand p ["n1"], ?_, overwrites_update.mpr rfl⟩
      rw [hex]
      simp

/-- A partition of the startup snapshot that the platform does not manage is read only in
    every run exactly if its name is refused somewhere, or it already has a system row, or
    the import gets to it. -/
theorem readOnly_iff [UnicodeCase] {c : Client σ} {live : σ → String → Prop}
    (hc : KeepsPartitions c live) {doc : SinfoJSON} {snapshot : NodeSnapshot} (hparse : parseNodesJSON doc = .ok snapshot)
    {env : Startup} (hnodes : env.nodes = some (.ok snapshot.nodes))
    (hdb : ∀ name, env.importFaults name = []) {store : PartitionStore} {s : σ} {p : String}
    (hlive : live s p) (hmanaged : ∀ q, store.row p = some q → q.source ≠ .managed) :
    ReadOnly c env store s p ↔
      ¬ Usable p ∨ (∃ q, store.row p = some q) ∨ Importable doc store p := by
  obtain ⟨hstore, huntouched, hkeeps⟩ := start_facts (c := c) hnodes hdb (s := s) hmanaged
  have hafter (hvalid : validPartitionIdentifier p = true) :
      (∃ q, (syncSystemPartitions env store).2.row p = some q) ↔
        (∃ q, store.row p = some q) ∨ Importable doc store p :=
    row_after_import_iff (parseNodesJSON_spec hparse) hnodes hdb hvalid
  constructor
  · intro hro
    by_contra hno
    obtain ⟨husable, hrow⟩ := not_or.mp hno
    rw [not_not] at husable
    rw [← hafter husable.1] at hrow
    obtain ⟨command, hmem, hover⟩ := save_overwrites hc husable
      (by rw [hstore, Option.eq_none_iff_forall_not_mem]; exact fun q hq => hrow ⟨q, hq⟩)
      (hkeeps live hc hlive)
    refine hro [.save (saveRequest p)] command ?_ hover
    rw [serve_singleton, handle_save]
    exact hmem
  · intro h requests
    refine (protected_serve ⟨fun husable => ?_, huntouched⟩ requests).untouched
    obtain ⟨q, hq⟩ := (hafter husable.1).mpr (h.resolve_left (not_not.mpr husable))
    rw [hstore]
    refine ⟨q, hq, ?_⟩
    cases hsrc : q.source with
    | system => rfl
    | managed =>
      exact absurd hsrc
        (hmanaged q ((syncSystemPartitions_managed hnodes hdb store p q hsrc).mp hq))

/-! ### A scontrol -/

section Example

open Ascii

/-- A scontrol that keeps the partition arguments of the partitions that exist. -/
def scontrolRun (command : Command) (s : List String) : Except String String × List String :=
  if command.name ≠ "scontrol" then (.ok "", s)
  else
    match command.args with
    | "create" :: arg :: _ =>
      if arg ∈ s then (.error "partition already exists", s) else (.ok "", s ++ [arg])
    | "delete" :: arg :: _ => (.ok "", s.filter fun other => other ≠ arg)
    | _ => (.ok "", s)

def scontrolClient : Client (List String) := ⟨⟨scontrolRun⟩, 1024⟩

def scontrolLive (s : List String) (p : String) : Prop := "partitionname=" ++ p ∈ s

theorem scontrol_keeps : KeepsPartitions scontrolClient scontrolLive where
  create s p rest h := by
    refine ⟨"partition already exists", ?_⟩
    show (scontrolRun _ s).1 = _
    unfold scontrolRun
    simp only
    rw [if_neg (fun hno => hno rfl), if_pos (show "partitionname=" ++ p ∈ s from h)]
  keeps s p command h hno := by
    show scontrolLive (scontrolRun command s).2 p
    unfold scontrolRun
    split
    · exact h
    · next hname =>
      split
      · split
        · exact h
        · exact List.mem_append_left _ h
      · next arg rest heq =>
        have hne : "partitionname=" ++ p ≠ arg := by
          rintro rfl
          exact hno ⟨not_not.mp hname, rest, Or.inr heq⟩
        exact List.mem_filter.mpr ⟨h, by simpa using hne⟩
      · exact h

/-- Startup with the nodes of a document. -/
def docStartup (doc : SinfoJSON) : Startup where
  nodes := some ((parseNodesJSON doc).map NodeSnapshot.nodes)
  importAt _ := 0
  importFaults _ := []
  listFaults := []

theorem docStartup_nodes {doc : SinfoJSON} {snapshot : NodeSnapshot}
    (h : parseNodesJSON doc = .ok snapshot) :
    (docStartup doc).nodes = some (.ok snapshot.nodes) := by
  unfold docStartup
  rw [h]
  rfl

theorem readOnly_disjoint :
    ReadOnly scontrolClient (docStartup disjointDoc) .empty ["partitionname=gpu"] "gpu" ↔
      ¬ Usable "gpu" ∨ (∃ q, PartitionStore.empty.row "gpu" = some q) ∨
        Importable disjointDoc .empty "gpu" := by
  obtain ⟨snapshot, hparse⟩ :=
    exists_ok_of_isOk (show (parseNodesJSON disjointDoc).isOk = true by decide)
  exact readOnly_iff scontrol_keeps hparse (docStartup_nodes hparse) (fun _ => rfl)
    (by show "partitionname=" ++ "gpu" ∈ ["partitionname=gpu"]; decide)
    (fun q hq => (nomatch hq))

/-- The partition "gpu" of the document whose only "gpu" node is also in "cpu" can be
    overwritten. -/
theorem shared_node_overwritten : ¬ ∀ (c : Client (List String))
    (live : List String → String → Prop) (doc : SinfoJSON) (snapshot : NodeSnapshot) (env : Startup) (store : PartitionStore)
    (s : List String) (p : String), KeepsPartitions c live → parseNodesJSON doc = .ok snapshot →
    env.nodes = some (.ok snapshot.nodes) → (∀ name, env.importFaults name = []) →
    (∃ n, doc.Occurs n p) → (∀ p, (∃ n, doc.Occurs n p) → live s p) →
    (∀ q, store.row p = some q → q.source ≠ .managed) → ReadOnly c env store s p := by
  intro h
  obtain ⟨snapshot, hparse⟩ :=
    exists_ok_of_isOk (show (parseNodesJSON sharedDoc).isOk = true by decide)
  have hgpu : sharedDoc.Occurs "n1" "gpu" :=
    ⟨idleRecord "gpu" ["n1"], by simp [sharedDoc], rfl, by decide⟩
  have hlive : ∀ p, (∃ n, sharedDoc.Occurs n p) →
      scontrolLive ["partitionname=cpu", "partitionname=gpu"] p := by
    rintro p ⟨n, r, hr, rfl, -⟩
    have hparts : ∀ r ∈ sharedDoc.sinfo, "partitionname=" ++ r.partition ∈
        ["partitionname=cpu", "partitionname=gpu"] := by decide
    exact hparts r hr
  have hro := h scontrolClient scontrolLive sharedDoc snapshot (docStartup sharedDoc) .empty
    ["partitionname=cpu", "partitionname=gpu"] "gpu" scontrol_keeps hparse
    (docStartup_nodes hparse) (fun _ => rfl) ⟨"n1", hgpu⟩ hlive (fun q hq => by cases hq)
  refine hro [.save (saveRequest "gpu")] (updateCommand "gpu" ["n1"]) ?_
    (overwrites_update.mpr rfl)
  decide

end Example

end OpenHpcWeb.Web
