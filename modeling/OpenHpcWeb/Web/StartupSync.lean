/-
  The two loops of startup and the partitions behind the first one that fails.

  `syncSystemPartitions` imports the specs of the live nodes in the order of their names
  and `syncStoredPartitions` sends the managed partitions to Slurm in the same order; both
  return at the first error, which `New` only logs.

  * `syncSystemPartitions_rows`: the import is carried out up to the first spec that the
    store rejects.
  * `syncStoredPartitions_applied`: likewise for the managed partitions.
  * `startup_isolated_iff`: when no partition keeps another from being imported or applied.
-/
import OpenHpcWeb.Web.PartitionSpecs
import OpenHpcWeb.Web.RequestCases

namespace OpenHpcWeb.Web

open OpenHpcWeb.Go OpenHpcWeb.Cluster OpenHpcWeb.Lib OpenHpcWeb.Platform

variable {τ : Type}

/-! ## The import of the live partitions -/

theorem accepts_congr {spec : PartitionSpec} {source : PartitionSource} {t t' : Tables}
    (hrow : t'.row spec.name = t.row spec.name) (h : Accepts spec source t) :
    Accepts spec source t' :=
  ⟨h.name, h.nonempty, h.nodes, h.unique, fun p hp => h.source p (by rw [← hrow]; exact hp)⟩

/-- The store after the imports of `done`, all of them accepted. -/
structure Imported (env : Startup) (store : PartitionStore) (done : List PartitionSpec)
    (store' : PartitionStore) : Prop where
  accepts : ∀ spec ∈ done, Accepts spec .system store.tables
  rows : ∀ spec ∈ done, store'.row spec.name =
    some (upserted (env.importAt spec.name) .system (storedNodes spec) (store.row spec.name))
  frame : ∀ name, name ∉ done.map PartitionSpec.name → store'.row name = store.row name

theorem imported_nil (env : Startup) (store : PartitionStore) : Imported env store [] store where
  accepts _ h := nomatch h
  rows _ h := nomatch h
  frame _ _ := rfl

theorem imported_snoc {env : Startup} {store store' : PartitionStore} {done : List PartitionSpec}
    {spec : PartitionSpec} (h : Imported env store done store')
    (hnew : spec.name ∉ done.map PartitionSpec.name)
    (hok : (importPartition env spec store').1 = .ok ()) :
    Imported env store (done ++ [spec]) (importPartition env spec store').2 := by
  have hsame := h.frame spec.name hnew
  unfold importPartition at hok ⊢
  simp only at hok ⊢
  cases himp : (store'.importSystem (env.importAt spec.name) (env.importFaults spec.name) spec).1 with
  | error e => rw [himp] at hok; cases hok
  | ok change =>
    obtain ⟨haccepts, hrow⟩ := PartitionStore.importSystem_ok himp
    rw [hsame] at hrow
    refine ⟨fun other ho => ?_, fun other ho => ?_, fun name hname => ?_⟩
    · rcases List.mem_append.mp ho with ho | ho
      · exact h.accepts other ho
      · rw [List.mem_singleton.mp ho]
        exact accepts_congr hsame.symm haccepts
    · rw [hrow]
      rcases List.mem_append.mp ho with ho | ho
      · have hne : other.name ≠ spec.name := fun heq =>
          hnew (List.mem_map.mpr ⟨other, ho, heq⟩)
        rw [Function.update_of_ne hne]
        exact h.rows other ho
      · rw [List.mem_singleton.mp ho, Function.update_self]
    · rw [List.map_append, List.mem_append, not_or] at hname
      have hne : name ≠ spec.name := fun heq => hname.2 (by simp [heq])
      rw [hrow, Function.update_of_ne hne]
      exact h.frame name hname.1

/-- Over a reliable database the import is carried out for the specs before the first one
    that the store rejects, and for no other. -/
theorem syncSystemPartitions_rows {env : Startup} {nodes : List Node}
    (hnodes : env.nodes = some (.ok nodes)) (hdb : ∀ name, env.importFaults name = [])
    (store : PartitionStore) : ∃ done rest, partitionSpecsFromNodes nodes = done ++ rest ∧
      Imported env store done (syncSystemPartitions env store).2 ∧
      ∀ spec rest', rest = spec :: rest' → ¬ Accepts spec .system store.tables := by
  have hsync : syncSystemPartitions env store =
      forEach (importPartition env) (partitionSpecsFromNodes nodes) store := by
    unfold syncSystemPartitions
    rw [hnodes]
  have hnd : ((partitionSpecsFromNodes nodes).map PartitionSpec.name).Nodup :=
    (partitionSpecs_sorted nodes).imp ne_of_lt
  have hfresh : ∀ done spec rest, partitionSpecsFromNodes nodes = done ++ spec :: rest →
      spec.name ∉ done.map PartitionSpec.name := by
    intro done spec rest hsplit hmem
    rw [hsplit, List.map_append, List.map_cons] at hnd
    exact (List.nodup_append'.mp hnd).2.2 hmem List.mem_cons_self
  have hrule := forEach_rule (l := partitionSpecsFromNodes nodes) (Imported env store)
    (fun done spec rest s hsplit h hok => imported_snoc h (hfresh done spec rest hsplit) hok)
    (imported_nil env store)
  rw [hsync]
  rcases hrule with ⟨-, hall⟩ | ⟨done, spec, rest, s, e, hsplit, hdone, hfail, -⟩
  · exact ⟨_, [], (List.append_nil _).symm, hall, fun spec rest' h => (nomatch h)⟩
  · have himp : (s.importSystem (env.importAt spec.name) [] spec).1.map (fun _ => ()) = .error e ∧
        (s.importSystem (env.importAt spec.name) [] spec).2 =
          (forEach (importPartition env) (partitionSpecsFromNodes nodes) store).2 := by
      unfold importPartition at hfail
      rw [hdb] at hfail
      exact ⟨congrArg Prod.fst hfail, congrArg Prod.snd hfail⟩
    have herr : ∃ e', (s.importSystem (env.importAt spec.name) [] spec).1 = .error e' := by
      cases hcase : (s.importSystem (env.importAt spec.name) [] spec).1 with
      | error e' => exact ⟨e', rfl⟩
      | ok change => rw [hcase] at himp; exact absurd himp.1 (by simp [Except.map])
    obtain ⟨e', he'⟩ := herr
    have hrow := PartitionStore.importSystem_error he'
    rw [himp.2] at hrow
    refine ⟨done, spec :: rest, hsplit, ⟨hdone.accepts, ?_, ?_⟩, fun spec' rest' h haccepts => ?_⟩
    · rw [hrow]; exact hdone.rows
    · rw [hrow]; exact hdone.frame
    · cases h
      have hs : Accepts spec .system s.tables :=
        accepts_congr (hdone.frame spec.name (hfresh done spec rest hsplit)) haccepts
      obtain ⟨change, hchange⟩ :=
        (PartitionStore.importSystem_isOk_iff s (env.importAt spec.name) spec).mpr hs
      rw [he'] at hchange
      cases hchange

/-- `ImportSystem` rejects the spec. -/
def Rejects (store : PartitionStore) (spec : PartitionSpec) : Prop :=
  ∀ now change, (store.importSystem now [] spec).1 ≠ .ok change

theorem not_rejects_iff (store : PartitionStore) (spec : PartitionSpec) :
    ¬ Rejects store spec ↔ Accepts spec .system store.tables := by
  unfold Rejects
  constructor
  · intro h
    by_contra hno
    refine h fun now change hok => hno ?_
    exact (PartitionStore.importSystem_isOk_iff store now spec).mp ⟨change, hok⟩
  · intro ha h
    obtain ⟨change, hok⟩ := (PartitionStore.importSystem_isOk_iff store 0 spec).mpr ha
    exact h 0 change hok

/-- Every spec that the store does not reject is stored as a system partition with the
    nodes of the snapshot. -/
def ImportsIsolated (nodes : List Node) (store store' : PartitionStore) : Prop :=
  ∀ spec ∈ partitionSpecsFromNodes nodes, ¬ Rejects store spec →
    ∃ p, store'.row spec.name = some p ∧ p.source = .system ∧ ∀ n, n ∈ p.nodes ↔ n ∈ spec.nodes

/-- No spec comes after a rejected one unless it is already stored as it is, and no node name
    has white space around it. -/
def ImportsInOrder (nodes : List Node) (store : PartitionStore) : Prop :=
  ∀ spec ∈ partitionSpecsFromNodes nodes, ¬ Rejects store spec →
    (∀ n ∈ spec.nodes, trimSpace n = n) ∧
    ((∀ other ∈ partitionSpecsFromNodes nodes, other.name < spec.name → ¬ Rejects store other) ∨
      ∃ p, store.row spec.name = some p ∧ ∀ n, n ∈ p.nodes ↔ n ∈ spec.nodes)

theorem mem_storedNodes {spec : PartitionSpec} {n : String} :
    n ∈ storedNodes spec ↔ ∃ m ∈ spec.nodes, trimSpace m = n := by
  simp [storedNodes]

theorem importsIsolated_iff {env : Startup} {nodes : List Node}
    (hnodes : env.nodes = some (.ok nodes)) (hdb : ∀ name, env.importFaults name = [])
    (store : PartitionStore) :
    ImportsIsolated nodes store (syncSystemPartitions env store).2 ↔
      ImportsInOrder nodes store := by
  obtain ⟨done, rest, hsplit, himp, hstop⟩ := syncSystemPartitions_rows hnodes hdb store
  have hsorted := partitionSpecs_sorted nodes
  rw [hsplit, List.map_append, List.pairwise_append] at hsorted
  obtain ⟨-, hrest, hbefore⟩ := hsorted
  have hmem : ∀ spec, spec ∈ partitionSpecsFromNodes nodes ↔ spec ∈ done ∨ spec ∈ rest := by
    intro spec
    rw [hsplit, List.mem_append]
  -- what the import leaves of a spec it did not get to
  have hframe : ∀ spec ∈ rest, (syncSystemPartitions env store).2.row spec.name =
      store.row spec.name := by
    intro spec hspec
    apply himp.frame
    intro hname
    exact lt_irrefl _ (hbefore _ hname _ (List.mem_map.mpr ⟨spec, hspec, rfl⟩))
  constructor
  · intro h spec hspec hok
    obtain ⟨p, hp, -, hns⟩ := h spec hspec hok
    rcases (hmem spec).mp hspec with hdone | hrst
    · rw [himp.rows spec hdone] at hp
      cases hp
      refine ⟨fun n hn => ?_, Or.inl fun other ho hlt => ?_⟩
      · rw [← hns, upserted_nodes, mem_storedNodes] at hn
        obtain ⟨m, -, rfl⟩ := hn
        exact trimSpace_trimSpace m
      · rcases (hmem other).mp ho with ho | ho
        · exact (not_rejects_iff store other).mpr (himp.accepts other ho)
        · exact absurd hlt (lt_asymm (hbefore _ (List.mem_map.mpr ⟨spec, hdone, rfl⟩) _
            (List.mem_map.mpr ⟨other, ho, rfl⟩)))
    · rw [hframe spec hrst] at hp
      refine ⟨fun n hn => ?_, Or.inr ⟨p, hp, hns⟩⟩
      exact trimSpace_of_valid ((row_ok store.inv hp).2.valid n ((hns n).mpr hn))
  · intro h spec hspec hok
    obtain ⟨htrim, horder⟩ := h spec hspec hok
    have haccepts := (not_rejects_iff store spec).mp hok
    rcases (hmem spec).mp hspec with hdone | hrst
    · refine ⟨_, himp.rows spec hdone, upserted_source haccepts.source, fun n => ?_⟩
      rw [upserted_nodes, mem_storedNodes]
      constructor
      · rintro ⟨m, hm, rfl⟩
        rw [htrim m hm]
        exact hm
      · exact fun hn => ⟨n, hn, htrim n hn⟩
    · -- the loop has stopped at a rejected spec before this one
      have hstored : ∃ p, store.row spec.name = some p ∧ ∀ n, n ∈ p.nodes ↔ n ∈ spec.nodes := by
        refine horder.resolve_left fun hall => ?_
        match rest, hrst, hrest, hstop, hmem with
        | first :: rest', hrst, hrest, hstop, hmem =>
          have hfirst := hstop first rest' rfl
          rcases List.mem_cons.mp hrst with rfl | hrst
          · exact hfirst haccepts
          · rw [List.map_cons, List.pairwise_cons] at hrest
            have hlt := hrest.1 spec.name (List.mem_map.mpr ⟨spec, hrst, rfl⟩)
            have hin := (hmem first).mpr (Or.inr List.mem_cons_self)
            exact hfirst ((not_rejects_iff store first).mp (hall first hin hlt))
      obtain ⟨p, hp, hns⟩ := hstored
      exact ⟨p, by rw [hframe spec hrst]; exact hp, haccepts.source p hp, hns⟩

/-- The import leaves the managed partitions alone. -/
theorem syncSystemPartitions_managed {env : Startup} {nodes : List Node}
    (hnodes : env.nodes = some (.ok nodes)) (hdb : ∀ name, env.importFaults name = [])
    (store : PartitionStore) (name : String) (p : StoredPartition) (hp : p.source = .managed) :
    (syncSystemPartitions env store).2.row name = some p ↔ store.row name = some p := by
  obtain ⟨done, rest, -, himp, -⟩ := syncSystemPartitions_rows hnodes hdb store
  by_cases hname : name ∈ done.map PartitionSpec.name
  · obtain ⟨spec, hspec, rfl⟩ := List.mem_map.mp hname
    have hsource := (himp.accepts spec hspec).source
    rw [himp.rows spec hspec, Option.some.injEq]
    constructor
    · rintro rfl
      have hsys : PartitionSource.managed = .system := hp.symm.trans (upserted_source hsource)
      cases hsys
    · intro hrow
      rw [hsource p hrow] at hp
      cases hp
  · rw [himp.frame name hname]

/-! ## The managed partitions at startup -/

/-- A partition admin that records the partitions it has applied. -/
def recorded (admin : PartitionAdmin τ) : PartitionAdmin (τ × List (String × List String)) where
  applyPartition name nodes s :=
    let applied := admin.applyPartition name nodes s.1
    match applied.1 with
    | .error err => (.error err, (applied.2, s.2))
    | .ok () => (.ok (), (applied.2, s.2 ++ [(name, nodes)]))
  deletePartition name s :=
    let deleted := admin.deletePartition name s.1
    (deleted.1, (deleted.2, s.2))

/-- Every managed partition whose application does not fail has been applied. -/
def AppliesIsolated (fails : String → Prop) (store : PartitionStore)
    (applied : List (String × List String)) : Prop :=
  ∀ name p, store.row name = some p → p.source = .managed → ¬ fails name →
    (name, p.nodes) ∈ applied

/-- The managed partitions that fail come last. -/
def AppliesInOrder (fails : String → Prop) (store : PartitionStore) : Prop :=
  ∀ name p name' p', store.row name = some p → p.source = .managed → fails name →
    store.row name' = some p' → p'.source = .managed → ¬ fails name' → name' < name

section Applies

variable {admin : PartitionAdmin τ} {fails : String → Prop}

/-- One application is recorded if it does not fail, and leaves no trace else. -/
theorem recorded_applyPartition
    (hfails : ∀ name nodes s, (∃ e, (admin.applyPartition name nodes s).1 = .error e) ↔ fails name)
    (spec : PartitionSpec) (w : World (τ × List (String × List String))) :
    let applied := Application.applyPartition ⟨some (recorded admin)⟩ spec.name spec.nodes w
    (applied.1 = .ok () ∧ ¬ fails spec.name ∧
      applied.2.admin.2 = w.admin.2 ++ [(spec.name, spec.nodes)]) ∨
    ((∃ e, applied.1 = .error e) ∧ fails spec.name ∧ applied.2.admin.2 = w.admin.2) := by
  have hiff := hfails spec.name spec.nodes w.admin.1
  unfold Application.applyPartition
  simp only [recorded]
  cases ha : (admin.applyPartition spec.name spec.nodes w.admin.1).1 with
  | error e => exact Or.inr ⟨⟨e, rfl⟩, hiff.mp ⟨e, ha⟩, rfl⟩
  | ok u =>
    refine Or.inl ⟨rfl, fun hf => ?_, rfl⟩
    obtain ⟨e, he⟩ := hiff.mpr hf
    rw [ha] at he
    cases he

/-- The managed partitions before the first one that fails are applied, in order. -/
theorem syncStoredPartitions_applied
    (hfails : ∀ name nodes s, (∃ e, (admin.applyPartition name nodes s).1 = .error e) ↔ fails name)
    {env : Startup} (hlist : env.listFaults = [])
    (w : World (τ × List (String × List String))) :
    (syncStoredPartitions ⟨some (recorded admin)⟩ env w).2.store = w.store ∧
    ∃ done rest, w.store.listManaged [] = .ok (done ++ rest) ∧
      (∀ spec ∈ done, ¬ fails spec.name) ∧
      (∀ spec rest', rest = spec :: rest' → fails spec.name) ∧
      (syncStoredPartitions ⟨some (recorded admin)⟩ env w).2.admin.2 =
        w.admin.2 ++ done.map fun spec => (spec.name, spec.nodes) := by
  obtain ⟨specs, hspecs, -⟩ := PartitionStore.listManaged_nil w.store
  set app : Application (τ × List (String × List String)) := ⟨some (recorded admin)⟩
  have hsync : syncStoredPartitions app env w =
      forEach (fun spec => app.applyPartition spec.name spec.nodes) specs w := by
    unfold syncStoredPartitions
    rw [hlist, hspecs]
  have hrule := forEach_rule (l := specs) (s := w)
    (f := fun spec => app.applyPartition spec.name spec.nodes)
    (fun done w' => w'.store = w.store ∧ (∀ spec ∈ done, ¬ fails spec.name) ∧
      w'.admin.2 = w.admin.2 ++ done.map fun spec => (spec.name, spec.nodes))
    (fun done spec rest w' _ h hok => by
      obtain ⟨hstore, hdone, happlied⟩ := h
      rcases recorded_applyPartition hfails spec w' with ⟨-, hnf, hlog⟩ | ⟨⟨e, he⟩, -⟩
      · refine ⟨by rw [applyPartition_store, hstore], fun other ho => ?_, ?_⟩
        · rcases List.mem_append.mp ho with ho | ho
          · exact hdone other ho
          · rw [List.mem_singleton.mp ho]; exact hnf
        · rw [hlog, happlied, List.map_append, List.append_assoc]
          rfl
      · rw [he] at hok
        cases hok)
    ⟨rfl, fun _ h => (nomatch h), by simp⟩
  rw [hsync]
  rcases hrule with ⟨-, hstore, hdone, hlog⟩ | ⟨done, spec, rest, w', e, hsplit, hp, hfail, -⟩
  · exact ⟨hstore, specs, [], by rw [List.append_nil]; exact hspecs, hdone,
      fun spec rest' h => (nomatch h), hlog⟩
  · obtain ⟨hstore, hdone, hlog⟩ := hp
    have hend : (app.applyPartition spec.name spec.nodes w').2 =
        (forEach (fun spec => app.applyPartition spec.name spec.nodes) specs w).2 := by
      rw [hfail]
    rcases recorded_applyPartition hfails spec w' with ⟨hok, -⟩ | ⟨-, hf, hsame⟩
    · rw [congrArg Prod.fst hfail] at hok
      cases hok
    · refine ⟨?_, done, spec :: rest, by rw [← hsplit]; exact hspecs, hdone,
        fun spec' rest' h => ?_, ?_⟩
      · rw [← hend, applyPartition_store, hstore]
      · cases h
        exact hf
      · rw [← hend, hsame, hlog]

theorem appliesIsolated_iff
    (hfails : ∀ name nodes s, (∃ e, (admin.applyPartition name nodes s).1 = .error e) ↔ fails name)
    {env : Startup} (hlist : env.listFaults = [])
    (w : World (τ × List (String × List String))) (hnone : w.admin.2 = []) :
    AppliesIsolated fails w.store
        (syncStoredPartitions ⟨some (recorded admin)⟩ env w).2.admin.2 ↔
      AppliesInOrder fails w.store := by
  obtain ⟨-, done, rest, hspecs, hdone, hstop, hlog⟩ :=
    syncStoredPartitions_applied hfails hlist w
  obtain ⟨specs, hspecs', hsorted, hmem⟩ := PartitionStore.listManaged_nil w.store
  rw [hspecs] at hspecs'
  cases hspecs'
  rw [hnone, List.nil_append] at hlog
  rw [hlog]
  rw [List.map_append, List.pairwise_append] at hsorted
  obtain ⟨-, hrest, hbefore⟩ := hsorted
  have hin : ∀ name p, w.store.row name = some p → p.source = .managed →
      p.spec name ∈ done ∨ p.spec name ∈ rest := by
    intro name p hp hsrc
    rw [← List.mem_append]
    exact (hmem _).mpr ⟨p, hp, hsrc, rfl⟩
  constructor
  · intro h name p name' p' hp hsrc hf hp' hsrc' hf'
    obtain ⟨spec, hspec, heq⟩ := List.mem_map.mp (h name' p' hp' hsrc' hf')
    obtain ⟨rfl, -⟩ := Prod.mk.inj heq
    rcases hin name p hp hsrc with hd | hr
    · exact absurd hf (hdone _ hd)
    · exact hbefore _ (List.mem_map.mpr ⟨spec, hspec, rfl⟩) _ (List.mem_map.mpr ⟨_, hr, rfl⟩)
  · intro h name p hp hsrc hf
    rcases hin name p hp hsrc with hd | hr
    · exact List.mem_map.mpr ⟨_, hd, rfl⟩
    · -- the first failing partition comes before this one
      exfalso
      match rest, hr, hrest, hstop, hmem with
      | first :: rest', hr, hrest, hstop, hmem =>
        have hfirst := hstop first rest' rfl
        rcases List.mem_cons.mp hr with rfl | hr
        · exact hf hfirst
        · obtain ⟨q, hq, hqsrc, -⟩ :=
            (hmem first).mp (List.mem_append.mpr (Or.inr List.mem_cons_self))
          rw [List.map_cons, List.pairwise_cons] at hrest
          have hlt := hrest.1 name (List.mem_map.mpr ⟨_, hr, rfl⟩)
          exact lt_asymm hlt (h first.name q name p hq hqsrc hfirst hp hsrc hf)

/-! ## Startup -/

/-- At startup, over a reliable database, every healthy partition is imported and every
    healthy managed partition is applied exactly if none of them comes after a failing one
    in the order of the names (or needed no import), and the live node names are trimmed. -/
theorem startup_isolated_iff
    (hfails : ∀ name nodes s, (∃ e, (admin.applyPartition name nodes s).1 = .error e) ↔ fails name)
    {env : Startup} {nodes : List Node} (hnodes : env.nodes = some (.ok nodes))
    (hdb : ∀ name, env.importFaults name = []) (hlist : env.listFaults = [])
    (store : PartitionStore) (s : τ) :
    (ImportsIsolated nodes store
        (start ⟨some (recorded admin)⟩ env ⟨store, (s, []), []⟩).store ↔
      ImportsInOrder nodes store) ∧
    (AppliesIsolated fails store
        (start ⟨some (recorded admin)⟩ env ⟨store, (s, []), []⟩).admin.2 ↔
      AppliesInOrder fails store) := by
  set w : World (τ × List (String × List String)) :=
    ⟨(syncSystemPartitions env store).2, (s, []), []⟩ with hw
  have hstart : start ⟨some (recorded admin)⟩ env ⟨store, (s, []), []⟩ =
      (syncStoredPartitions ⟨some (recorded admin)⟩ env w).2 := rfl
  have hmanaged : ∀ name p, p.source = .managed →
      (w.store.row name = some p ↔ store.row name = some p) :=
    syncSystemPartitions_managed hnodes hdb store
  rw [hstart]
  constructor
  · rw [(syncStoredPartitions_applied hfails hlist w).1]
    exact importsIsolated_iff hnodes hdb store
  · have hiff := appliesIsolated_iff hfails hlist w rfl
    have hleft : AppliesIsolated fails store
        (syncStoredPartitions ⟨some (recorded admin)⟩ env w).2.admin.2 ↔
        AppliesIsolated fails w.store
          (syncStoredPartitions ⟨some (recorded admin)⟩ env w).2.admin.2 :=
      ⟨fun h name p hp hsrc => h name p ((hmanaged name p hsrc).mp hp) hsrc,
        fun h name p hp hsrc => h name p ((hmanaged name p hsrc).mpr hp) hsrc⟩
    have hright : AppliesInOrder fails store ↔ AppliesInOrder fails w.store :=
      ⟨fun h name p name' p' hp hsrc hf hp' hsrc' => h name p name' p'
          ((hmanaged name p hsrc).mp hp) hsrc hf ((hmanaged name' p' hsrc').mp hp') hsrc',
        fun h name p name' p' hp hsrc hf hp' hsrc' => h name p name' p'
          ((hmanaged name p hsrc).mpr hp) hsrc hf ((hmanaged name' p' hsrc').mpr hp') hsrc'⟩
    exact hleft.trans (hiff.trans hright.symm)

end Applies

/-- A Slurm that applies everything. -/
def applying : PartitionAdmin Unit where
  applyPartition _ _ s := (.ok (), s)
  deletePartition _ s := (.ok (), s)

theorem applying_fails (name : String) (nodes : List String) (s : Unit) :
    (∃ e, (applying.applyPartition name nodes s).1 = .error e) ↔ False := by
  constructor
  · rintro ⟨e, he⟩
    cases he
  · exact False.elim

/-- An idle node of a partition. -/
def idleNode (name partition : String) : Node :=
  ⟨name, partition, "idle", wrap64 0, wrap64 8, wrap64 1024, "", true⟩

/-- Live nodes of the partitions "a" and "b". -/
def abNodes : List Node := [idleNode "n1" "a", idleNode "n2" "b"]

/-- Startup with these nodes over a reliable database. -/
def abStartup : Startup := ⟨some (.ok abNodes), fun _ => 9, fun _ => [], []⟩

/-- The store once the partition "a" has been created through the platform. -/
def managedStore : PartitionStore :=
  (PartitionStore.empty.upsert 5 [] ⟨"a", ["n1"], true, zeroTime, zeroTime⟩).2

theorem startup_isolated_empty :
    (ImportsIsolated abNodes .empty
        (start ⟨some (recorded applying)⟩ abStartup ⟨.empty, ((), []), []⟩).store ↔
      ImportsInOrder abNodes .empty) ∧
    (AppliesIsolated (fun _ => False) .empty
        (start ⟨some (recorded applying)⟩ abStartup ⟨.empty, ((), []), []⟩).admin.2 ↔
      AppliesInOrder (fun _ => False) .empty) :=
  startup_isolated_iff applying_fails rfl (fun _ => rfl) rfl .empty ()

/-- The live managed partition "a" keeps the live partition "b" from being imported. -/
theorem managed_partition_stops_import : ¬ ∀ (admin : PartitionAdmin Unit) (fails : String → Prop)
    (env : Startup) (nodes : List Node) (store : PartitionStore),
    (∀ name nodes s, (∃ e, (admin.applyPartition name nodes s).1 = .error e) ↔ fails name) →
    env.nodes = some (.ok nodes) → (∀ name, env.importFaults name = []) → env.listFaults = [] →
    ImportsIsolated nodes store
      (start ⟨some (recorded admin)⟩ env ⟨store, ((), []), []⟩).store ∧
    AppliesIsolated fails store
      (start ⟨some (recorded admin)⟩ env ⟨store, ((), []), []⟩).admin.2 := by
  intro h
  have himports := (h applying (fun _ => False) abStartup abNodes managedStore applying_fails rfl
    (fun _ => rfl) rfl).1
  have hb : ¬ Rejects managedStore (specFor abNodes "b") := fun hno =>
    hno 9 ⟨⟨"b", ["n2"], false, 9, 9⟩, true, false, ⟨[], []⟩⟩ (by decide)
  obtain ⟨p, hp, -⟩ := himports (specFor abNodes "b") (by decide) hb
  have hnone : (start ⟨some (recorded applying)⟩ abStartup
      ⟨managedStore, ((), []), []⟩).store.row "b" = none := by decide
  rw [show (specFor abNodes "b").name = "b" from rfl, hnone] at hp
  cases hp

end OpenHpcWeb.Web
