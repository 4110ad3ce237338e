/-
  The store and Slurm after concurrent partition requests.

  A request writes the store first and tells Slurm afterwards, and the two orders can
  differ: a save and a delete of one partition, or two saves, can cross between the steps.
  Then the store keeps the one and Slurm the other, and both requests report success.

  * `inSync_of_inOrder`: the two agree once all requests are through if the commands reach
    Slurm in the order of the store writes (`keepsOrder`).
  * `behind_not_inSync`: a command that falls behind leaves them apart.
  * `crossing_not_inSync`: two saves and a delete after which only Slurm has the partition.
-/
import OpenHpcWeb.Lib.Run
import OpenHpcWeb.Web.Concurrent

namespace OpenHpcWeb.Web

open OpenHpcWeb.Go OpenHpcWeb.Cluster OpenHpcWeb.Lib OpenHpcWeb.Platform OpenHpcWeb.Slurm

variable {σ R : Type}

/-! ## Agreement -/

/-- The row of a partition against what Slurm was last told about it. -/
def Agrees : Option StoredPartition → Option (List String) → Prop
  | none, none => True
  | none, some _ => False
  | some q, none => q.source ≠ .managed
  | some q, some nodes =>
    q.source = .managed ∧ (∀ n ∈ q.nodes, n ∈ nodes) ∧ ∀ n ∈ nodes, n ∈ q.nodes

instance : ∀ row effect, Decidable (Agrees row effect)
  | none, none => isTrue trivial
  | none, some _ => isFalse id
  | some q, none => inferInstanceAs (Decidable (q.source ≠ .managed))
  | some q, some nodes => inferInstanceAs (Decidable (q.source = .managed ∧
      (∀ n ∈ q.nodes, n ∈ nodes) ∧ ∀ n ∈ nodes, n ∈ q.nodes))

/-- Every partition that was touched is stored as managed exactly if Slurm was last told to
    create or update it, and then with the nodes Slurm was told. -/
def InSync (s : Server σ R) : Prop :=
  ∀ p, s.writer p ≠ none ∨ s.told p ≠ none → ∃ effect, s.told p = some effect ∧
    ((∃ q, s.world.store.row p = some q ∧ q.source = .managed) ↔ effect ≠ none) ∧
    ∀ nodes q, effect = some nodes → s.world.store.row p = some q →
      ∀ n, n ∈ q.nodes ↔ n ∈ nodes

theorem agrees_iff (row : Option StoredPartition) (effect : Option (List String)) :
    Agrees row effect ↔ ((∃ q, row = some q ∧ q.source = .managed) ↔ effect ≠ none) ∧
      ∀ nodes q, effect = some nodes → row = some q → ∀ n, n ∈ q.nodes ↔ n ∈ nodes := by
  cases row with
  | none => cases effect <;> simp [Agrees]
  | some q =>
    cases effect with
    | none => simp [Agrees]
    | some nodes =>
      simp only [Agrees, Option.some.injEq, exists_eq_left', ne_eq, reduceCtorEq,
        not_false_eq_true, iff_true]
      refine and_congr_right fun _ => ⟨?_, fun h => ?_⟩
      · rintro ⟨hsub, hsup⟩ nodes' q' rfl rfl n
        exact ⟨hsub n, hsup n⟩
      · exact ⟨fun n => (h nodes q rfl rfl n).mp, fun n => (h nodes q rfl rfl n).mpr⟩

/-! ## Order -/

/-- The command a request still has to get through to Slurm. -/
def RequestPc.tells : RequestPc → Option (String × Option (List String))
  | .toCreate name selected _ => some (name, some selected)
  | .toUpdate name selected _ => some (name, some selected)
  | .toRemove name _ => some (name, none)
  | _ => none

theorem tells_of_finished {pc : RequestPc} (h : pc.isFinished = true) : pc.tells = none := by
  cases pc with
  | finished answer => rfl
  | _ => cases h

/-- The store as first copy and Slurm as second. -/
def Server.ledger (s : Server σ R) : Ledger R String (Option StoredPartition)
    (Option (List String)) where
  first := s.world.store.row
  second := s.told
  writer := s.writer
  owes i := (s.pc i).tells

/-- The store write or the scontrol command of the next step of `i` succeeds; a create may
    fail, an update is next then. -/
def succeeds (c : Client σ) (request : R → PartitionRequest) (s : Server σ R) (i : R) : Bool :=
  match request i, s.pc i with
  | .save r, .toStore name selected =>
    (s.world.store.upsert r.now r.writeFaults (saveSpec name selected)).1.isOk
  | .save _, .toUpdate name selected _ =>
    (c.run "scontrol" (updateCommand name selected).args s.world.admin).1.isOk
  | .delete r, .toDelete name _ => (s.world.store.deleteManaged r.writeFaults name).1.isOk
  | .delete _, .toRemove name _ =>
    !(validatePartitionDeletion name).isOk ||
      (c.run "scontrol" (deleteCommand name).args s.world.admin).1.isOk
  | _, _ => true

/-- A create succeeds as well. -/
def createSucceeds (c : Client σ) (request : R → PartitionRequest) (s : Server σ R) (i : R) :
    Bool :=
  match request i, s.pc i with
  | .save _, .toCreate name selected _ =>
    !(validatePartitionDefinition name selected).isOk ||
      (c.run "scontrol" (createCommand name selected).args s.world.admin).1.isOk
  | _, _ => true

variable [DecidableEq R]

/-- The next step of `i` does not part the store from Slurm: node names to store are free of
    surrounding white space, and a definition to send is one the client takes and does not
    fall behind the store. -/
def keepsOrder (c : Client σ) (request : R → PartitionRequest) (s : Server σ R) (i : R) : Bool :=
  match request i, s.pc i with
  | .save _, .toStore _ selected => selected.all fun n => decide (trimSpace n = n)
  | .save _, .toCreate name selected _ =>
    (validatePartitionDefinition name selected).isOk &&
      (!(c.run "scontrol" (createCommand name selected).args s.world.admin).1.isOk ||
        decide (s.ledger.InOrder Agrees i name (some selected)))
  | .save _, .toUpdate name selected _ => decide (s.ledger.InOrder Agrees i name (some selected))
  | .delete _, .toRemove name _ =>
    (validatePartitionDeletion name).isOk && decide (s.ledger.InOrder Agrees i name none)
  | _, _ => true

/-! ## The handlers write the ledger -/

theorem owes_after (s : Server σ R) (i : R) (m : Advanced σ) :
    (s.after i m).ledger.owes = Function.update s.ledger.owes i m.pc.tells :=
  Function.comp_update RequestPc.tells s.pc i m.pc

theorem ledger_skip {s : Server σ R} {i : R} {m : Advanced σ} (hnote : m.note = none)
    (hrow : m.world.store.row = s.world.store.row) (htells : m.pc.tells = (s.pc i).tells) :
    (s.after i m).ledger = s.ledger := by
  have howes : (s.after i m).ledger.owes = s.ledger.owes := by
    rw [owes_after, htells]
    exact Function.update_eq_self i s.ledger.owes
  unfold Server.ledger Server.after Server.record at *
  simp only [hnote] at howes ⊢
  rw [hrow, howes]

theorem ledger_write {s : Server σ R} {i : R} {m : Advanced σ} {p : String}
    {a : Option StoredPartition} {b : Option (List String)} (hnote : m.note = some (.wrote p))
    (hrow : m.world.store.row = Function.update s.world.store.row p a)
    (htells : m.pc.tells = some (p, b)) : (s.after i m).ledger = s.ledger.write i p a b := by
  have howes := owes_after s i m
  rw [htells] at howes
  unfold Ledger.write
  rw [← howes]
  unfold Server.ledger Server.after Server.record
  simp only [hnote, hrow]

theorem ledger_tell {s : Server σ R} {i : R} {m : Advanced σ} {p : String}
    {b : Option (List String)} (hnote : m.note = some (.told p b))
    (hrow : m.world.store.row = s.world.store.row) (htells : m.pc.tells = none) :
    (s.after i m).ledger = s.ledger.tell i p b := by
  have howes := owes_after s i m
  rw [htells] at howes
  unfold Ledger.tell
  rw [← howes]
  unfold Server.ledger Server.after Server.record
  simp only [hnote, hrow]

/-- The row of a partition that was saved with clean node names agrees with the save. -/
theorem agrees_saved {store : PartitionStore} {now : Time} {faults : Faults} {name : String}
    {selected : List String} {change : PartitionChange}
    (h : (store.upsert now faults (saveSpec name selected)).1 = .ok change)
    (hclean : ∀ n ∈ selected, trimSpace n = n) :
    (store.upsert now faults (saveSpec name selected)).2.row = Function.update store.row name
      (some (upserted now .managed (storedNodes (saveSpec name selected)) (store.row name))) ∧
    Agrees (some (upserted now .managed (storedNodes (saveSpec name selected)) (store.row name)))
      (some selected) := by
  obtain ⟨haccepts, hrow⟩ := PartitionStore.upsert_ok h
  refine ⟨hrow, upserted_source haccepts.source, fun n hn => ?_, fun n hn => ?_⟩
  · rw [upserted_nodes, mem_storedNodes] at hn
    obtain ⟨m, hm, rfl⟩ := hn
    rw [hclean m hm]
    exact hm
  · rw [upserted_nodes, mem_storedNodes]
    exact ⟨n, hn, hclean n hn⟩

theorem move_save {c : Client σ} {request : R → PartitionRequest} {s : Server σ R} {i : R}
    {r : Request} (hr : request i = .save r) {m : Advanced σ}
    (hstep : advanceSave c r s.world (s.pc i) = some m) (hok : succeeds c request s i = true)
    (horder : keepsOrder c request s i = true) :
    s.ledger.Move Agrees (s.after i m).ledger ∧ ∀ n spec, m.pc ≠ .toRestore n spec := by
  unfold succeeds at hok
  unfold keepsOrder at horder
  rw [hr] at hok horder
  have howes : s.ledger.owes i = (s.pc i).tells := rfl
  cases hpc : s.pc i with
  | start =>
    rw [hpc] at hstep
    simp only [advanceSave] at hstep
    split at hstep
    all_goals
      cases hstep
      rw [ledger_skip rfl rfl (by rw [hpc]; rfl)]
      exact ⟨.skip, by simp⟩
  | toStore name selected =>
    rw [hpc] at hstep hok horder howes
    obtain ⟨change, hup⟩ := exists_ok_of_isOk hok
    simp only [advanceSave, hup, Option.some.injEq] at hstep
    subst hstep
    obtain ⟨hrow, hagrees⟩ := agrees_saved hup (by simpa using horder)
    rw [ledger_write rfl hrow rfl]
    exact ⟨.write howes hagrees, by simp⟩
  | toCreate name selected change =>
    rw [hpc] at hstep horder howes
    obtain ⟨hv, horder⟩ := Bool.and_eq_true_iff.mp horder
    obtain ⟨⟨⟩, hv⟩ := exists_ok_of_isOk hv
    simp only [advanceSave, hv] at hstep
    cases hcreate : (c.run "scontrol" (createCommand name selected).args s.world.admin).1 with
    | error e =>
      -- the update is next, and owed just as the create was
      simp only [hcreate, Option.some.injEq] at hstep
      subst hstep
      rw [ledger_skip rfl rfl (by rw [hpc]; rfl)]
      exact ⟨.skip, by simp⟩
    | ok output =>
      simp only [hcreate, Option.some.injEq] at hstep
      subst hstep
      rw [ledger_tell rfl rfl rfl]
      exact ⟨.tell howes (by simpa [hcreate, Except.isOk, Except.toBool] using horder), by simp⟩
  | toUpdate name selected change =>
    rw [hpc] at hstep hok horder howes
    obtain ⟨output, hupdate⟩ := exists_ok_of_isOk hok
    simp only [advanceSave, hupdate, Option.some.injEq] at hstep
    subst hstep
    rw [ledger_tell rfl rfl rfl]
    exact ⟨.tell howes (of_decide_eq_true horder), by simp⟩
  | _ =>
    rw [hpc] at hstep
    cases hstep

theorem move_delete {c : Client σ} {request : R → PartitionRequest} {s : Server σ R} {i : R}
    {r : Request} (hr : request i = .delete r) {m : Advanced σ}
    (hstep : advanceDelete c r s.world (s.pc i) = some m) (hno : ∀ n spec, s.pc i ≠ .toRestore n spec)
    (hok : succeeds c request s i = true) (horder : keepsOrder c request s i = true) :
    s.ledger.Move Agrees (s.after i m).ledger ∧ ∀ n spec, m.pc ≠ .toRestore n spec := by
  unfold succeeds at hok
  unfold keepsOrder at horder
  rw [hr] at hok horder
  have howes : s.ledger.owes i = (s.pc i).tells := rfl
  cases hpc : s.pc i with
  | start =>
    rw [hpc] at hstep
    simp only [advanceDelete] at hstep
    split at hstep
    · cases hstep
      rw [ledger_skip rfl rfl (by rw [hpc]; rfl)]
      exact ⟨.skip, by simp⟩
    · split at hstep
      all_goals
        cases hstep
        rw [ledger_skip rfl rfl (by rw [hpc]; rfl)]
        exact ⟨.skip, by simp⟩
  | toDelete name spec =>
    rw [hpc] at hstep hok howes
    obtain ⟨⟨⟩, hdel⟩ := exists_ok_of_isOk hok
    simp only [advanceDelete, hdel, Option.some.injEq] at hstep
    subst hstep
    rw [ledger_write rfl (PartitionStore.deleteManaged_ok hdel).2 rfl]
    exact ⟨.write howes trivial, by simp⟩
  | toRemove name spec =>
    rw [hpc] at hstep hok horder howes
    obtain ⟨hv, horder⟩ := Bool.and_eq_true_iff.mp horder
    obtain ⟨⟨⟩, hv⟩ := exists_ok_of_isOk hv
    obtain ⟨output, hremove⟩ := exists_ok_of_isOk (r := (c.run "scontrol" (deleteCommand name).args
      s.world.admin).1) (by simpa [hv, Except.isOk, Except.toBool] using hok)
    simp only [advanceDelete, hv, hremove, Option.some.injEq] at hstep
    subst hstep
    rw [ledger_tell rfl rfl rfl]
    exact ⟨.tell howes (of_decide_eq_true horder), by simp⟩
  | toRestore name spec => exact absurd hpc (hno name spec)
  | _ =>
    rw [hpc] at hstep
    cases hstep

/-! ## Runs -/

/-- The ledger's invariant, and no delete has been refused. -/
structure Kept (s : Server σ R) : Prop where
  ledger : s.ledger.Inv Agrees
  noRestore : ∀ i n spec, s.pc i ≠ .toRestore n spec

omit [DecidableEq R] in
theorem kept_init (w : World (Scheduler σ)) : Kept (Server.init w : Server σ R) where
  ledger := Ledger.inv_init
  noRestore _ _ _ h := nomatch h

theorem kept_step {c : Client σ} {request : R → PartitionRequest} {s s' : Server σ R} {i : R}
    (h : Kept s) (hok : succeeds c request s i = true) (horder : keepsOrder c request s i = true)
    (hstep : serverStep c request s i = some s') : Kept s' := by
  obtain ⟨m, hm, rfl⟩ := Option.map_eq_some_iff.mp hstep
  have hmove : s.ledger.Move Agrees (s.after i m).ledger ∧ ∀ n spec, m.pc ≠ .toRestore n spec := by
    unfold advance at hm
    cases hr : request i with
    | save r =>
      rw [hr] at hm
      exact move_save hr hm hok horder
    | delete r =>
      rw [hr] at hm
      exact move_delete hr hm (h.noRestore i) hok horder
  refine ⟨Ledger.inv_move h.ledger hmove.1, fun j n spec hpc => ?_⟩
  have hpc : Function.update s.pc i m.pc j = .toRestore n spec := hpc
  by_cases hj : j = i
  · subst hj
    rw [Function.update_self] at hpc
    exact hmove.2 n spec hpc
  · rw [Function.update_of_ne hj] at hpc
    exact h.noRestore j n spec hpc

omit [DecidableEq R] in
/-- Whoever is finished owes Slurm nothing. -/
theorem inSync_of_settled {s : Server σ R} (h : s.ledger.Inv Agrees)
    (hdone : ∀ i, (s.pc i).isFinished) : InSync s := by
  intro p hp
  obtain ⟨effect, htold, hagrees⟩ := h.settled (fun i => tells_of_finished (hdone i)) hp
  exact ⟨effect, htold, (agrees_iff _ _).mp hagrees⟩

/-- In every run in which the store writes and the scontrol commands succeed and no step
    parts the two, the store and Slurm agree once all requests are through. -/
theorem inSync_of_inOrder (c : Client σ) (request : R → PartitionRequest)
    (w : World (Scheduler σ)) {trace : List R} {s : Server σ R}
    (h : Run (serverStep c request) (fun s i => succeeds c request s i ∧ keepsOrder c request s i)
      (Server.init w) trace s)
    (hdone : ∀ i, (s.pc i).isFinished) : InSync s := by
  have hkept : Kept s := h.invariant Kept (kept_init w) fun s i s' hs hok hstep =>
    kept_step hs hok.1 hok.2 hstep
  exact inSync_of_settled hkept.ledger hdone

omit [DecidableEq R] in
/-- A step that tells Slurm changes no row, and ends its request. -/
theorem advance_told {c : Client σ} {request : PartitionRequest} {w : World (Scheduler σ)}
    {pc : RequestPc} {m : Advanced σ} {p : String} {b : Option (List String)}
    (h : advance c request w pc = some m) (hnote : m.note = some (.told p b)) :
    m.world.store.row = w.store.row ∧ m.pc.tells = none := by
  cases request with
  | save r =>
    unfold advance advanceSave at h
    cases pc with
    | start =>
      simp only at h
      split at h
      all_goals
        cases h
        cases hnote
    | toStore name selected =>
      simp only at h
      split at h
      all_goals
        cases h
        cases hnote
    | toCreate name selected change =>
      simp only at h
      split at h
      · cases h
        cases hnote
      · split at h
        · cases h
          cases hnote
        · cases h
          exact ⟨rfl, rfl⟩
    | toUpdate name selected change =>
      simp only at h
      split at h
      · cases h
        cases hnote
      · cases h
        exact ⟨rfl, rfl⟩
    | _ => cases h
  | delete r =>
    unfold advance advanceDelete at h
    cases pc with
    | start =>
      simp only at h
      split at h
      · cases h
        cases hnote
      · split at h
        all_goals
          cases h
          cases hnote
    | toDelete name spec =>
      simp only at h
      split at h
      all_goals
        cases h
        cases hnote
    | toRemove name spec =>
      simp only at h
      split at h
      · cases h
        cases hnote
      · split at h
        · cases h
          cases hnote
        · cases h
          exact ⟨rfl, rfl⟩
    | toRestore name spec =>
      simp only [Option.some.injEq] at h
      subst h
      simp only at hnote
      split at hnote
      all_goals cases hnote
    | _ => cases h

/-- The condition is exact where the order is concerned: a command that falls behind the
    store leaves a disagreement. -/
theorem behind_not_inSync {c : Client σ} {request : R → PartitionRequest} {s : Server σ R} {i : R}
    {m : Advanced σ} {p : String} {b : Option (List String)}
    (h : advance c (request i) s.world (s.pc i) = some m) (hnote : m.note = some (.told p b))
    (hbehind : ¬ s.ledger.InOrder Agrees i p b) : ¬ InSync (s.after i m) := by
  obtain ⟨hrow, htells⟩ := advance_told h hnote
  have hledger := ledger_tell (s := s) (i := i) hnote hrow htells
  obtain ⟨htold, hdisagree, -⟩ := Ledger.tell_behind hbehind
  rw [← hledger] at htold hdisagree
  intro hsync
  have hp : (s.after i m).told p = some b := htold
  obtain ⟨effect, heffect, hagrees⟩ := hsync p (Or.inr (by rw [hp]; exact Option.some_ne_none b))
  rw [hp] at heffect
  cases heffect
  exact hdisagree ((agrees_iff _ _).mpr hagrees)

/-! ### Saves and deletes that cross -/

/-- Three requests for one partition: two saves and a delete. -/
def crossingRequests : Fin 3 → PartitionRequest
  | 0 => .save (saveRequest "gpu")
  | 1 => .save (saveRequest "gpu")
  | 2 => .delete (saveRequest "gpu")

/-- An empty store and a Slurm without partitions. -/
def emptyWorld : World (Scheduler (List String)) := ⟨.empty, ⟨[], []⟩, []⟩

theorem sequential_isSome : (exec (serverStep scontrolClient crossingRequests)
    (fun s i => succeeds scontrolClient crossingRequests s i &&
      keepsOrder scontrolClient crossingRequests s i)
    (Server.init emptyWorld) [0, 0, 0, 2, 2, 2, 1, 1, 1]).isSome := by
  decide

/-- `inSync_of_inOrder` with the requests served one after the other. -/
theorem inSync_sequential : ∃ s : Server (List String) (Fin 3),
    s.told "gpu" = some (some ["n1"]) ∧ InSync s :=
  ⟨_, by decide, inSync_of_inOrder scontrolClient crossingRequests emptyWorld
    ((run_exec_get sequential_isSome).mono fun _ _ h => Bool.and_eq_true_iff.mp h) (by decide)⟩

theorem crossing_isSome : (exec (serverStep scontrolClient crossingRequests)
    (fun s i => succeeds scontrolClient crossingRequests s i &&
      createSucceeds scontrolClient crossingRequests s i)
    (Server.init emptyWorld) [0, 0, 1, 1, 0, 2, 2, 2, 1]).isSome := by
  decide

/-- Without the condition the two can end apart: the second save has stored the partition
    when the delete takes it away, and reaches Slurm after the delete. -/
theorem crossing_not_inSync : ¬ ∀ (c : Client (List String)) (request : Fin 3 → PartitionRequest)
    (w : World (Scheduler (List String))) (trace : List (Fin 3)) (s : Server (List String) (Fin 3)),
    Run (serverStep c request) (fun s i => succeeds c request s i ∧ createSucceeds c request s i)
      (Server.init w) trace s →
    (∀ i, (s.pc i).isFinished) → InSync s := by
  intro h
  have hsync := h scontrolClient crossingRequests emptyWorld _ _
    ((run_exec_get crossing_isSome).mono fun _ _ h => Bool.and_eq_true_iff.mp h) (by decide)
  obtain ⟨effect, htold, hiff, -⟩ := hsync "gpu" (Or.inr (by decide))
  have hgpu : ((exec (serverStep scontrolClient crossingRequests) _ (Server.init emptyWorld)
      [0, 0, 1, 1, 0, 2, 2, 2, 1]).get crossing_isSome).told "gpu" = some (some ["n1"]) := by decide
  rw [hgpu] at htold
  cases htold
  obtain ⟨q, hq, -⟩ := hiff.mpr (by simp)
  have hnone : ((exec (serverStep scontrolClient crossingRequests) _ (Server.init emptyWorld)
      [0, 0, 1, 1, 0, 2, 2, 2, 1]).get crossing_isSome).world.store.row "gpu" = none := by decide
  rw [hnone] at hq
  cases hq

end OpenHpcWeb.Web
