/-
  What the partition store holds after Slurm has refused a request.

  `savePartition` writes to the store and then to Slurm, and keeps what it wrote when Slurm
  refuses. `deletePartition` saves the partition again, which gives it new times and fails
  if the context of the request is what made Slurm fail.

  * `SyncFailed`: the answer of a request that Slurm has refused.
  * `failed_sync_restores_iff`: when the store is as it was before the request.
-/
import OpenHpcWeb.Web.RequestCases

namespace OpenHpcWeb.Web

open OpenHpcWeb.Go OpenHpcWeb.Cluster OpenHpcWeb.Lib OpenHpcWeb.Platform

variable {τ : Type}

/-! ## Which answers say that Slurm refused -/

theorem partitionErrorFor_ne {language code name : String}
    (hcode : code = "readonly" ∨ code = "save_failed" ∨ code = "delete_failed") :
    partitionErrorFor language code name ≠ partitionErrorFor language "sync_failed" name := by
  unfold partitionErrorFor
  by_cases hl : language = "en"
  · rcases hcode with rfl | rfl | rfl
    all_goals simp [hl]
  · rcases hcode with rfl | rfl | rfl
    all_goals simp [hl]

theorem errorRedirect_ne {language code name name' : String}
    (hcode : code = "readonly" ∨ code = "save_failed" ∨ code = "delete_failed") :
    errorRedirect language code name ≠ errorRedirect language "sync_failed" name' := by
  intro h
  simp only [errorRedirect, Response.redirect.injEq, List.cons.injEq, Prod.mk.injEq, and_true,
    true_and] at h
  obtain ⟨herr, rfl⟩ := h
  exact partitionErrorFor_ne hcode herr

/-- The answer says that Slurm refused. -/
def SyncFailed (r : Request) (answer : Response) : Prop :=
  ∃ name, answer = errorRedirect r.lang "sync_failed" name

theorem not_syncFailed_errorRedirect {r : Request} {code name : String}
    (hcode : code = "readonly" ∨ code = "save_failed" ∨ code = "delete_failed") :
    ¬ SyncFailed r (errorRedirect r.lang code name) := by
  rintro ⟨name', h⟩
  exact errorRedirect_ne hcode h

theorem not_syncFailed_httpError {r : Request} (status : Nat) :
    ¬ SyncFailed r (.httpError status) := by
  rintro ⟨name, h⟩
  cases h

theorem not_syncFailed_saved {r : Request} {value : String} {rest : List (String × String)} :
    ¬ SyncFailed r (.redirect (("saved", value) :: rest)) := by
  rintro ⟨name, h⟩
  simp [errorRedirect] at h

/-- The checks before the store answer with a status. -/
theorem saveChecks_error {r : Request} {answer : Response} (h : saveChecks r = .error answer) :
    ∃ status, answer = .httpError status := by
  unfold saveChecks at h
  split at h
  · cases h; exact ⟨400, rfl⟩
  · split at h
    · cases h; exact ⟨503, rfl⟩
    · split at h
      · cases h; exact ⟨400, rfl⟩
      · split at h
        · cases h; exact ⟨400, rfl⟩
        · split at h
          · cases h; exact ⟨400, rfl⟩
          · cases h

theorem not_syncFailed_deleteChecks {r : Request} {answer : Response}
    (h : deleteChecks r = .error answer) : ¬ SyncFailed r answer := by
  unfold deleteChecks at h
  split at h
  · cases h; exact not_syncFailed_httpError 400
  · split at h
    · cases h; exact not_syncFailed_httpError 400
    · cases h

theorem not_syncFailed_deleteFound {r : Request} {name : String}
    {found : Except String (Option PartitionSpec)} {answer : Response}
    (h : deleteFound r name found = .error answer) : ¬ SyncFailed r answer := by
  unfold deleteFound at h
  split at h
  · cases h; exact not_syncFailed_httpError 400
  · cases h; exact not_syncFailed_saved
  · split at h
    · cases h; exact not_syncFailed_errorRedirect (Or.inl rfl)
    · cases h

/-! ## The store after a refusal -/

/-- Saving over a row leaves it as it is exactly if the nodes are the same. -/
theorem update_upserted_eq_iff {row : String → Option StoredPartition} {name : String}
    {now : Time} {source : PartitionSource} {ns : List String} :
    Function.update row name (some (upserted now source ns (row name))) = row ↔
      ∃ p, row name = some p ∧ p.nodes = ns := by
  rw [Function.update_eq_self_iff]
  cases hp : row name with
  | none => simp
  | some p =>
    rw [Option.some.injEq]
    constructor
    · intro h
      refine ⟨p, rfl, ?_⟩
      rw [← h, upserted_nodes]
    · rintro ⟨q, hq, hns⟩
      cases hq
      rw [upserted, if_pos hns]

theorem failed_save_restores_iff {app : Application τ} {r : Request} {w : World τ}
    (hf : SyncFailed r (savePartition app r w).1) :
    (savePartition app r w).2.store.row = w.store.row ↔
      ∃ name selected p, saveChecks r = .ok (name, selected) ∧ w.store.row name = some p ∧
        p.nodes = storedNodes (saveSpec name selected) := by
  rcases savePartition_cases app r w with ⟨answer, hc, hsave⟩ | ⟨name, selected, err, -, -, hans, -⟩ |
    ⟨name, selected, change, hc, hup, hstore, -, -⟩
  · obtain ⟨status, rfl⟩ := saveChecks_error hc
    rw [hsave] at hf
    exact absurd hf (not_syncFailed_httpError status)
  · rw [hans, saveFailed] at hf
    refine absurd hf (not_syncFailed_errorRedirect ?_)
    split
    · exact Or.inl rfl
    · exact Or.inr (Or.inl rfl)
  · obtain ⟨-, hrow⟩ := PartitionStore.upsert_ok hup
    rw [hstore, savedWorld, hrow]
    refine update_upserted_eq_iff.trans ?_
    constructor
    · rintro ⟨p, hp⟩
      exact ⟨name, selected, p, hc, hp⟩
    · rintro ⟨name', selected', p, hc', hp⟩
      rw [hc] at hc'
      cases hc'
      exact ⟨p, hp⟩

/-- A stored partition is a spec that the store accepts again once it is gone. -/
theorem accepts_spec {t t' : Tables} (h : t.Inv) {name : String} {p : StoredPartition}
    (hp : t.row name = some p) (hno : t'.row name = none) :
    Accepts (p.spec name) .managed t' ∧ storedNodes (p.spec name) = p.nodes := by
  obtain ⟨hname, hnodes⟩ := row_ok h hp
  obtain ⟨hvalid, hnd, hsorted⟩ :=
    (normalizePartitionNodes_ok_iff _ _).mp (normalizePartitionNodes_of_ok hnodes)
  refine ⟨⟨hname, hnodes.ne_nil, hvalid, hnd, fun q hq => ?_⟩, hsorted.symm⟩
  have hq : t'.row name = some q := hq
  rw [hno] at hq
  cases hq

/-- The repair after a delete gives the row back exactly if its statements are spared and the
    row had the times of the repair. -/
theorem repair_restores_iff {store store₁ : PartitionStore} {name : String} {p : StoredPartition}
    (hp : store.row name = some p) (hsrc : p.source = .managed)
    (hrow₁ : store₁.row = Function.update store.row name none) (now : Time) (faults : Faults) :
    (store₁.upsert now faults (p.spec name)).2.row = store.row ↔
      p.createdAt = now ∧ p.updatedAt = now ∧ Tx.Spared (p.nodes.length + 4) faults := by
  have hno : store₁.row name = none := by rw [hrow₁, Function.update_self]
  obtain ⟨haccepts, hnodes⟩ := accepts_spec store.inv hp hno
  have hok : (∃ change, (store₁.upsert now faults (p.spec name)).1 = .ok change) ↔
      Tx.Spared (p.nodes.length + 4) faults :=
    upsert_absent_isOk_iff now faults store₁.inv haccepts hno
  cases hup : (store₁.upsert now faults (p.spec name)).1 with
  | error e =>
    -- the partition is gone
    rw [PartitionStore.upsert_error hup, hrow₁]
    constructor
    · intro h
      have hgone := congrFun h name
      rw [Function.update_self, hp] at hgone
      cases hgone
    · rintro ⟨-, -, hspared⟩
      obtain ⟨change, hchange⟩ := hok.mpr hspared
      rw [hup] at hchange
      cases hchange
  | ok change =>
    have hrow : (p.spec name).name = name := rfl
    rw [(PartitionStore.upsert_ok hup).2, hrow, hno, hrow₁, Function.update_idem, hnodes,
      Function.update_eq_self_iff, hp, Option.some.injEq, upserted]
    constructor
    · intro h
      rw [← h]
      exact ⟨rfl, rfl, hok.mp ⟨change, hup⟩⟩
    · rintro ⟨hcreated, hupdated, -⟩
      obtain ⟨source, nodes, createdAt, updatedAt⟩ := p
      simp only at hsrc hcreated hupdated
      rw [hsrc, hcreated, hupdated]

theorem failed_delete_restores_iff {app : Application τ} {r : Request} {w : World τ}
    (hf : SyncFailed r (deletePartition app r w).1) :
    (deletePartition app r w).2.store.row = w.store.row ↔
      ∃ name p, deleteChecks r = .ok name ∧ w.store.row name = some p ∧
        p.createdAt = r.now ∧ p.updatedAt = r.now ∧
        Tx.Spared (p.nodes.length + 4) r.restoreFaults := by
  rcases deletePartition_cases app r w with ⟨answer, hans, hwhy⟩ | ⟨name, err, -, -, hans, -⟩ |
    ⟨name, spec, hc, hfound, hdel, -, ⟨-, hans, -⟩ | ⟨-, -, hstore⟩⟩
  · rw [hans] at hf
    rcases hwhy with hwhy | ⟨name, -, hwhy⟩
    · exact absurd hf (not_syncFailed_deleteChecks hwhy)
    · exact absurd hf (not_syncFailed_deleteFound hwhy)
  · rw [hans] at hf
    exact absurd hf (not_syncFailed_errorRedirect (Or.inr (Or.inr rfl)))
  · rw [hans] at hf
    exact absurd hf not_syncFailed_saved
  · obtain ⟨-, p, hp, hsrc, rfl⟩ := deleteFound_ok hfound
    have hrow : (deletedWorld r name w).store.row = Function.update w.store.row name none :=
      (PartitionStore.deleteManaged_ok hdel).2
    rw [hstore, repair_restores_iff hp hsrc hrow]
    constructor
    · exact fun hrest => ⟨name, p, hc, hp, hrest⟩
    · rintro ⟨name', p', hc', hp', hrest⟩
      rw [hc] at hc'
      cases hc'
      rw [hp] at hp'
      cases hp'
      exact hrest

/-- A request that Slurm refuses leaves the store as it was exactly in these cases: a save
    of what was already stored, and a delete whose repair gets through and gives the
    partition the times it had. -/
theorem failed_sync_restores_iff (app : Application τ) (r : Request) (w : World τ) :
    (SyncFailed r (savePartition app r w).1 →
      ((savePartition app r w).2.store.row = w.store.row ↔
        ∃ name selected p, saveChecks r = .ok (name, selected) ∧ w.store.row name = some p ∧
          p.nodes = storedNodes (saveSpec name selected))) ∧
    (SyncFailed r (deletePartition app r w).1 →
      ((deletePartition app r w).2.store.row = w.store.row ↔
        ∃ name p, deleteChecks r = .ok name ∧ w.store.row name = some p ∧
          p.createdAt = r.now ∧ p.updatedAt = r.now ∧
          Tx.Spared (p.nodes.length + 4) r.restoreFaults)) :=
  ⟨failed_save_restores_iff, failed_delete_restores_iff⟩

/-- A Slurm that refuses everything. -/
def refusing : Application Unit where
  partitionAdmin := some {
    applyPartition := fun _ _ w => (.error "scontrol failed", w)
    deletePartition := fun _ w => (.error "scontrol failed", w) }

/-- A request for the partition "gpu" of the one live node "n1". -/
def gpuRequest : Request where
  actor := "admin"
  lang := "en"
  form := some ⟨"gpu", ["n1"]⟩
  nodes := some (.ok [⟨"n1", "cpu", "idle", wrap64 0, wrap64 8, wrap64 1024, "", true⟩])
  now := 7
  readFaults := []
  writeFaults := []
  restoreFaults := []

theorem failed_sync_restores_gpu :
    (savePartition refusing gpuRequest ⟨.empty, (), []⟩).2.store.row = PartitionStore.empty.row ↔
      ∃ name selected p, saveChecks gpuRequest = .ok (name, selected) ∧
        PartitionStore.empty.row name = some p ∧
        p.nodes = storedNodes (saveSpec name selected) :=
  (failed_sync_restores_iff refusing gpuRequest ⟨.empty, (), []⟩).1 ⟨"gpu", by decide⟩

/-- A new partition stays in the store although Slurm has refused it. -/
theorem failed_save_kept : ¬ ∀ (app : Application Unit) (r : Request) (w : World Unit),
    (SyncFailed r (savePartition app r w).1 →
      (savePartition app r w).2.store.row = w.store.row) ∧
    (SyncFailed r (deletePartition app r w).1 →
      (deletePartition app r w).2.store.row = w.store.row) := by
  intro h
  have hrow := congrFun ((h refusing gpuRequest ⟨.empty, (), []⟩).1 ⟨"gpu", by decide⟩) "gpu"
  revert hrow
  decide

end OpenHpcWeb.Web
