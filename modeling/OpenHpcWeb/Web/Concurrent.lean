/-
  The partition handlers in steps, for requests that are served at the same time.

  Nothing holds a lock across the store and Slurm, so a request is a sequence of atomic
  steps: its checks with the node lookup (or the store read of a delete), its transaction on
  the store, and each of its scontrol commands. `advance` is one step of one request;
  `serverStep` lets any request of a server take its next step.

  History, which the code does not hold: the request that last wrote the row of a partition,
  and what Slurm was last told about it by a command that succeeded.

  * `save_completes`, `delete_completes`: a request that runs alone is `savePartition` or
    `deletePartition`.
-/
import OpenHpcWeb.Lib.DualWrite
import OpenHpcWeb.Web.SystemPartitions

namespace OpenHpcWeb.Web

open OpenHpcWeb.Go OpenHpcWeb.Cluster OpenHpcWeb.Lib OpenHpcWeb.Platform OpenHpcWeb.Slurm

variable {σ R : Type}

/-! ## One request -/

/-- Where a request stands: what it does next. -/
inductive RequestPc where
  | start
  | toStore (name : String) (selected : List String)
  | toCreate (name : String) (selected : List String) (change : PartitionChange)
  | toUpdate (name : String) (selected : List String) (change : PartitionChange)
  | toDelete (name : String) (spec : PartitionSpec)
  | toRemove (name : String) (spec : PartitionSpec)
  | toRestore (name : String) (spec : PartitionSpec)
  | finished (answer : Response)

def RequestPc.isFinished : RequestPc → Bool
  | .finished _ => true
  | _ => false

/-- What a step did to a partition in the store or in Slurm; `told p none` is a delete. -/
inductive Note where
  | wrote (p : String)
  | told (p : String) (effect : Option (List String))

/-- A request after one step, and the world. -/
structure Advanced (σ : Type) where
  pc : RequestPc
  world : World (Scheduler σ)
  note : Option Note

/-- The next step of a save. -/
def advanceSave (c : Client σ) (r : Request) (w : World (Scheduler σ)) :
    RequestPc → Option (Advanced σ)
  | .start =>
    match saveChecks r with
    | .error answer => some ⟨.finished answer, w, none⟩
    | .ok (name, selected) => some ⟨.toStore name selected, w, none⟩
  | .toStore name selected =>
    let saved := w.store.upsert r.now r.writeFaults (saveSpec name selected)
    let w' : World (Scheduler σ) := { w with store := saved.2 }
    match saved.1 with
    | .error err =>
      some ⟨.finished (saveFailed r name err), w'.recordAudit r "slurm.partition.save" "failed", none⟩
    | .ok change => some ⟨.toCreate name selected change, w', some (.wrote name)⟩
  | .toCreate name selected change =>
    match validatePartitionDefinition name selected with
    | .error _ =>
      some ⟨.finished (errorRedirect r.lang "sync_failed" name),
        w.recordAudit r "slurm.partition.sync" "failed", none⟩
    | .ok () =>
      let created := c.run "scontrol" (createCommand name selected).args w.admin
      let w' : World (Scheduler σ) := { w with admin := created.2 }
      match created.1 with
      | .error _ => some ⟨.toUpdate name selected change, w', none⟩
      | .ok _ =>
        some ⟨.finished (saveDone change name), w'.recordAudit r "slurm.partition.save" "success",
          some (.told name (some selected))⟩
  | .toUpdate name selected change =>
    let updated := c.run "scontrol" (updateCommand name selected).args w.admin
    let w' : World (Scheduler σ) := { w with admin := updated.2 }
    match updated.1 with
    | .error _ =>
      some ⟨.finished (errorRedirect r.lang "sync_failed" name),
        w'.recordAudit r "slurm.partition.sync" "failed", none⟩
    | .ok _ =>
      some ⟨.finished (saveDone change name), w'.recordAudit r "slurm.partition.save" "success",
        some (.told name (some selected))⟩
  | _ => none

/-- The next step of a delete. -/
def advanceDelete (c : Client σ) (r : Request) (w : World (Scheduler σ)) :
    RequestPc → Option (Advanced σ)
  | .start =>
    match deleteChecks r with
    | .error answer => some ⟨.finished answer, w, none⟩
    | .ok name =>
      match deleteFound r name (w.store.get r.readFaults name) with
      | .error answer => some ⟨.finished answer, w, none⟩
      | .ok spec => some ⟨.toDelete name spec, w, none⟩
  | .toDelete name spec =>
    let deleted := w.store.deleteManaged r.writeFaults name
    let w' : World (Scheduler σ) := { w with store := deleted.2 }
    match deleted.1 with
    | .error _ =>
      some ⟨.finished (errorRedirect r.lang "delete_failed" name),
        w'.recordAudit r "slurm.partition.delete" "failed", none⟩
    | .ok () => some ⟨.toRemove name spec, w', some (.wrote name)⟩
  | .toRemove name spec =>
    match validatePartitionDeletion name with
    | .error _ => some ⟨.toRestore name spec, w, none⟩
    | .ok () =>
      let removed := c.run "scontrol" (deleteCommand name).args w.admin
      let w' : World (Scheduler σ) := { w with admin := removed.2 }
      match removed.1 with
      | .error _ => some ⟨.toRestore name spec, w', none⟩
      | .ok _ =>
        some ⟨.finished (.redirect [("saved", "deleted")]),
          w'.recordAudit r "slurm.partition.delete" "success", some (.told name none)⟩
  | .toRestore name spec =>
    let restored := w.store.upsert r.now r.restoreFaults spec
    let w' : World (Scheduler σ) := { w with store := restored.2 }
    some ⟨.finished (errorRedirect r.lang "sync_failed" name),
      w'.recordAudit r "slurm.partition.sync" "failed",
      match restored.1 with
      | .error _ => none
      | .ok _ => some (.wrote name)⟩
  | _ => none

def advance (c : Client σ) (request : PartitionRequest) (w : World (Scheduler σ))
    (pc : RequestPc) : Option (Advanced σ) :=
  match request with
  | .save r => advanceSave c r w pc
  | .delete r => advanceDelete c r w pc

/-! ### A request alone -/

/-- The request gets from `pc` to its answer, nobody else being there. -/
inductive Completes (c : Client σ) (request : PartitionRequest) :
    RequestPc → World (Scheduler σ) → Response × World (Scheduler σ) → Prop
  | done {answer w} : Completes c request (.finished answer) w (answer, w)
  | step {pc w m result} (hstep : advance c request w pc = some m)
      (hrest : Completes c request m.pc m.world result) : Completes c request pc w result

/-- A step after which the request is finished completes it. -/
theorem Completes.last {c : Client σ} {request : PartitionRequest} {pc : RequestPc}
    {w w' : World (Scheduler σ)} {answer : Response} (note : Option Note)
    (hstep : advance c request w pc = some ⟨.finished answer, w', note⟩) :
    Completes c request pc w (answer, w') :=
  .step hstep .done

theorem sync_completes (c : Client σ) (r : Request) (name : String) (selected : List String)
    (change : PartitionChange) (w : World (Scheduler σ)) :
    Completes c (.save r) (.toCreate name selected change) w
      (saveSync (application c) r name selected (.ok change) w) := by
  unfold saveSync
  simp only [application_applyPartition]
  unfold applyPartition
  cases hv : validatePartitionDefinition name selected with
  | error e => exact .last none (by simp [advance, advanceSave, hv])
  | ok u =>
    simp only
    cases hcreate : (c.run "scontrol"
        ["create", "partitionname=" ++ name, "nodes=" ++ join selected ","] w.admin).1 with
    | ok output =>
      exact .last (some (.told name (some selected)))
        (by simp [advance, advanceSave, hv, createCommand, hcreate])
    | error e =>
      refine .step (by simp [advance, advanceSave, hv, createCommand, hcreate]; rfl) ?_
      simp only
      cases hupdate : (c.run "scontrol"
          ["update", "partitionname=" ++ name, "nodes=" ++ join selected ","]
          (c.run "scontrol" ["create", "partitionname=" ++ name, "nodes=" ++ join selected ","]
            w.admin).2).1 with
      | ok output =>
        exact .last (some (.told name (some selected)))
          (by simp [advance, advanceSave, updateCommand, hupdate])
      | error e => exact .last none (by simp [advance, advanceSave, updateCommand, hupdate])

theorem save_completes (c : Client σ) (r : Request) (w : World (Scheduler σ)) :
    Completes c (.save r) .start w (savePartition (application c) r w) := by
  unfold savePartition
  cases hc : saveChecks r with
  | error answer => exact .last none (by simp [advance, advanceSave, hc])
  | ok checked =>
    obtain ⟨name, selected⟩ := checked
    refine .step (by simp [advance, advanceSave, hc]; rfl) ?_
    simp only
    cases hs : (w.store.upsert r.now r.writeFaults (saveSpec name selected)).1 with
    | error err => exact .last none (by simp [advance, advanceSave, hs])
    | ok change =>
      exact .step (by simp [advance, advanceSave, hs]; rfl)
        (sync_completes c r name selected change _)

theorem unsync_completes (c : Client σ) (r : Request) (name : String) (spec : PartitionSpec)
    (w : World (Scheduler σ)) :
    Completes c (.delete r) (.toRemove name spec) w
      (deleteSync (application c) r name spec (.ok ()) w) := by
  unfold deleteSync
  simp only [application_deletePartition]
  unfold Slurm.deletePartition
  cases hv : validatePartitionDeletion name with
  | error e =>
    refine .step (by simp [advance, advanceDelete, hv]; rfl) ?_
    exact .last _ rfl
  | ok u =>
    simp only
    cases hdelete : (c.run "scontrol" ["delete", "partitionname=" ++ name] w.admin).1 with
    | ok output =>
      exact .last (some (.told name none)) (by simp [advance, advanceDelete, hv, deleteCommand, hdelete])
    | error e =>
      refine .step (by simp [advance, advanceDelete, hv, deleteCommand, hdelete]; rfl) ?_
      exact .last _ rfl

theorem delete_completes (c : Client σ) (r : Request) (w : World (Scheduler σ)) :
    Completes c (.delete r) .start w (deletePartition (application c) r w) := by
  unfold deletePartition
  cases hc : deleteChecks r with
  | error answer => exact .last none (by simp [advance, advanceDelete, hc])
  | ok name =>
    simp only
    cases hf : deleteFound r name (w.store.get r.readFaults name) with
    | error answer => exact .last none (by simp [advance, advanceDelete, hc, hf])
    | ok spec =>
      refine .step (by simp [advance, advanceDelete, hc, hf]; rfl) ?_
      simp only
      cases hd : (w.store.deleteManaged r.writeFaults name).1 with
      | error err => exact .last none (by simp [advance, advanceDelete, hd])
      | ok u =>
        exact .step (by simp [advance, advanceDelete, hd]; rfl)
          (unsync_completes c r name spec _)

/-! ## The server -/

/-- Requests `R` in progress, and what is remembered of their steps. -/
structure Server (σ R : Type) where
  world : World (Scheduler σ)
  pc : R → RequestPc
  writer : String → Option R
  told : String → Option (Option (List String))

/-- The requests have come in, none has done anything yet. -/
def Server.init (w : World (Scheduler σ)) : Server σ R := ⟨w, fun _ => .start, fun _ => none,
  fun _ => none⟩

variable [DecidableEq R]

/-- The history after a step of the request `i`. -/
def Server.record (s : Server σ R) (i : R) : Option Note → Server σ R
  | none => s
  | some (.wrote p) => { s with writer := Function.update s.writer p (some i) }
  | some (.told p effect) => { s with told := Function.update s.told p (some effect) }

/-- The request `i` has taken the step `m`. -/
def Server.after (s : Server σ R) (i : R) (m : Advanced σ) : Server σ R :=
  { s.record i m.note with world := m.world, pc := Function.update s.pc i m.pc }

/-- The request `i` takes its next step. -/
def serverStep (c : Client σ) (request : R → PartitionRequest) (s : Server σ R) (i : R) :
    Option (Server σ R) :=
  (advance c (request i) s.world (s.pc i)).map (s.after i)

end OpenHpcWeb.Web
