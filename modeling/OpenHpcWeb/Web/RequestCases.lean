/-
  What one partition request can do to the store and to Slurm.

  * `savePartition_cases`: a save is answered before the store, by the store, or after Slurm.
  * `deletePartition_cases`: a delete likewise.
-/
import OpenHpcWeb.Web.Partitions

namespace OpenHpcWeb.Web

open OpenHpcWeb.Go OpenHpcWeb.Cluster OpenHpcWeb.Lib OpenHpcWeb.Platform

variable {τ : Type}

@[simp] theorem applyPartition_store (app : Application τ) (name : String) (nodes : List String)
    (w : World τ) : (app.applyPartition name nodes w).2.store = w.store := by
  unfold Application.applyPartition
  split <;> rfl

@[simp] theorem deletePartition_store (app : Application τ) (name : String) (w : World τ) :
    (app.deletePartition name w).2.store = w.store := by
  unfold Application.deletePartition
  split <;> rfl

/-- A save that the store has accepted goes to Slurm, and the answer tells which way it went. -/
theorem saveSync_ok (app : Application τ) (r : Request) (name : String) (selected : List String)
    (change : PartitionChange) (w : World τ) :
    (saveSync app r name selected (.ok change) w).2.store = w.store ∧
    (saveSync app r name selected (.ok change) w).2.admin =
      (app.applyPartition name selected w).2.admin ∧
    (((app.applyPartition name selected w).1 = .ok () ∧
        (saveSync app r name selected (.ok change) w).1 = saveDone change name) ∨
      ((∃ err, (app.applyPartition name selected w).1 = .error err) ∧
        (saveSync app r name selected (.ok change) w).1 =
          errorRedirect r.lang "sync_failed" name)) := by
  unfold saveSync
  cases ha : (app.applyPartition name selected w).1 with
  | error err =>
    simp only [ha]
    exact ⟨applyPartition_store _ _ _ _, rfl, Or.inr ⟨⟨err, rfl⟩, trivial⟩⟩
  | ok u =>
    simp only [ha]
    exact ⟨applyPartition_store _ _ _ _, rfl, Or.inl ⟨trivial, trivial⟩⟩

/-- A delete that the store has carried out goes to Slurm; a refusal puts the partition back. -/
theorem deleteSync_ok (app : Application τ) (r : Request) (name : String) (spec : PartitionSpec)
    (w : World τ) :
    (deleteSync app r name spec (.ok ()) w).2.admin = (app.deletePartition name w).2.admin ∧
    (((app.deletePartition name w).1 = .ok () ∧
        (deleteSync app r name spec (.ok ()) w).1 = .redirect [("saved", "deleted")] ∧
        (deleteSync app r name spec (.ok ()) w).2.store = w.store) ∨
      ((∃ err, (app.deletePartition name w).1 = .error err) ∧
        (deleteSync app r name spec (.ok ()) w).1 = errorRedirect r.lang "sync_failed" name ∧
        (deleteSync app r name spec (.ok ()) w).2.store =
          (w.store.upsert r.now r.restoreFaults spec).2)) := by
  unfold deleteSync
  cases ha : (app.deletePartition name w).1 with
  | error err =>
    simp only [ha, World.recordAudit, deletePartition_store]
    exact ⟨trivial, Or.inr ⟨⟨err, rfl⟩, trivial, trivial⟩⟩
  | ok u =>
    simp only [ha]
    exact ⟨rfl, Or.inl ⟨trivial, trivial, deletePartition_store _ _ _⟩⟩

/-- The world of `saveSync` after a save that the store accepted. -/
def savedWorld (r : Request) (name : String) (selected : List String) (w : World τ) : World τ :=
  { w with store := (w.store.upsert r.now r.writeFaults (saveSpec name selected)).2 }

@[simp] theorem savedWorld_admin (r : Request) (name : String) (selected : List String)
    (w : World τ) : (savedWorld r name selected w).admin = w.admin := rfl

/-- A save is answered before the store, by the store, or after Slurm. -/
theorem savePartition_cases (app : Application τ) (r : Request) (w : World τ) :
    (∃ answer, saveChecks r = .error answer ∧ savePartition app r w = (answer, w)) ∨
    (∃ name selected err, saveChecks r = .ok (name, selected) ∧
      (w.store.upsert r.now r.writeFaults (saveSpec name selected)).1 = .error err ∧
      (savePartition app r w).1 = saveFailed r name err ∧
      (savePartition app r w).2.store.row = w.store.row ∧
      (savePartition app r w).2.admin = w.admin) ∨
    (∃ name selected change, saveChecks r = .ok (name, selected) ∧
      (w.store.upsert r.now r.writeFaults (saveSpec name selected)).1 = .ok change ∧
      (savePartition app r w).2.store = (savedWorld r name selected w).store ∧
      (savePartition app r w).2.admin =
        (app.applyPartition name selected (savedWorld r name selected w)).2.admin ∧
      (((app.applyPartition name selected (savedWorld r name selected w)).1 = .ok () ∧
          (savePartition app r w).1 = saveDone change name) ∨
        ((∃ err, (app.applyPartition name selected (savedWorld r name selected w)).1 = .error err) ∧
          (savePartition app r w).1 = errorRedirect r.lang "sync_failed" name))) := by
  unfold savePartition
  cases hc : saveChecks r with
  | error answer => exact Or.inl ⟨answer, rfl, rfl⟩
  | ok spec =>
    obtain ⟨name, selected⟩ := spec
    right
    simp only
    cases hs : (w.store.upsert r.now r.writeFaults (saveSpec name selected)).1 with
    | error err =>
      exact Or.inl ⟨name, selected, err, rfl, hs, rfl, PartitionStore.upsert_error hs, rfl⟩
    | ok change =>
      right
      exact ⟨name, selected, change, rfl, hs,
        saveSync_ok app r name selected change (savedWorld r name selected w)⟩

/-- The world of `deleteSync` after the store has deleted. -/
def deletedWorld (r : Request) (name : String) (w : World τ) : World τ :=
  { w with store := (w.store.deleteManaged r.writeFaults name).2 }

@[simp] theorem deletedWorld_admin (r : Request) (name : String) (w : World τ) :
    (deletedWorld r name w).admin = w.admin := rfl

/-- A delete is answered before the store deletes, by the store, or after Slurm. -/
theorem deletePartition_cases (app : Application τ) (r : Request) (w : World τ) :
    (∃ answer, (deletePartition app r w) = (answer, w) ∧
      (deleteChecks r = .error answer ∨ ∃ name, deleteChecks r = .ok name ∧
        deleteFound r name (w.store.get r.readFaults name) = .error answer)) ∨
    (∃ name err, deleteChecks r = .ok name ∧
      (w.store.deleteManaged r.writeFaults name).1 = .error err ∧
      (deletePartition app r w).1 = errorRedirect r.lang "delete_failed" name ∧
      (deletePartition app r w).2.store = (deletedWorld r name w).store ∧
      (deletePartition app r w).2.admin = w.admin) ∨
    (∃ name spec, deleteChecks r = .ok name ∧
      deleteFound r name (w.store.get r.readFaults name) = .ok spec ∧
      (w.store.deleteManaged r.writeFaults name).1 = .ok () ∧
      (deletePartition app r w).2.admin =
        (app.deletePartition name (deletedWorld r name w)).2.admin ∧
      (((app.deletePartition name (deletedWorld r name w)).1 = .ok () ∧
          (deletePartition app r w).1 = .redirect [("saved", "deleted")] ∧
          (deletePartition app r w).2.store = (deletedWorld r name w).store) ∨
        ((∃ err, (app.deletePartition name (deletedWorld r name w)).1 = .error err) ∧
          (deletePartition app r w).1 = errorRedirect r.lang "sync_failed" name ∧
          (deletePartition app r w).2.store =
            ((deletedWorld r name w).store.upsert r.now r.restoreFaults spec).2))) := by
  unfold deletePartition
  cases hc : deleteChecks r with
  | error answer => exact Or.inl ⟨answer, rfl, Or.inl rfl⟩
  | ok name =>
    simp only
    cases hf : deleteFound r name (w.store.get r.readFaults name) with
    | error answer => exact Or.inl ⟨answer, rfl, Or.inr ⟨name, rfl, hf⟩⟩
    | ok spec =>
      right
      cases hd : (w.store.deleteManaged r.writeFaults name).1 with
      | error err => exact Or.inl ⟨name, err, rfl, hd, rfl, rfl, rfl⟩
      | ok u =>
        exact Or.inr ⟨name, spec, rfl, hf, hd, deleteSync_ok app r name spec (deletedWorld r name w)⟩

/-- The lookup of a delete has found the row of a managed partition. -/
theorem deleteFound_ok {r : Request} {name : String} {store : PartitionStore}
    {spec : PartitionSpec}
    (h : deleteFound r name (store.get r.readFaults name) = .ok spec) :
    validPartitionIdentifier name = true ∧ ∃ p, store.row name = some p ∧
      p.source = .managed ∧ spec = p.spec name := by
  unfold deleteFound at h
  split at h
  · cases h
  · cases h
  · next found hget =>
    split at h
    · cases h
    · next hmanaged =>
      cases h
      obtain ⟨hname, hfound⟩ := get_ok store.inv hget
      obtain ⟨p, hp, rfl⟩ := Option.map_eq_some_iff.mp hfound.symm
      refine ⟨hname, p, hp, ?_, rfl⟩
      simpa [StoredPartition.spec] using hmanaged

end OpenHpcWeb.Web
