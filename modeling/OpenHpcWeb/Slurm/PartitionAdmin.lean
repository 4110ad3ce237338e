/-
  Partition administration of internal/slurm/partition_admin.go over the command runner of
  internal/slurm/client.go.

  The Slurm commands are outside of the program: a `Runner` answers each of them from a
  state of its own, which also decides whether the context of the call ends before the
  command does. `executed` is history: every command started, in order.

  * `validatePartitionDefinition_ok_iff`: the definitions the client accepts.
  * `applyPartition_cases`, `deletePartition_cases`: what a call does, by the commands it
    runs.
-/
import OpenHpcWeb.Slurm.Details

namespace OpenHpcWeb.Slurm

open OpenHpcWeb.Go OpenHpcWeb.Cluster

/-! ## Commands -/

structure Command where
  name : String
  args : List String
  deriving DecidableEq

/-- `Runner`: the output of a command or its error. -/
structure Runner (σ : Type) where
  run : Command → σ → Except String String × σ

/-- The fields of `Client` that running a command reads. -/
structure Client (σ : Type) where
  runner : Runner σ
  maxOutputBytes : Nat

/-- The scheduler as the client's commands find it. -/
structure Scheduler (σ : Type) where
  state : σ
  executed : List Command

variable {σ : Type}

/-- `Client.run`. -/
def Client.run (c : Client σ) (command : String) (args : List String) (w : Scheduler σ) :
    Except String String × Scheduler σ :=
  let answer := c.runner.run ⟨command, args⟩ w.state
  let w' : Scheduler σ := ⟨answer.2, w.executed ++ [⟨command, args⟩]⟩
  match answer.1 with
  | .error err => (.error ("run " ++ command ++ ": " ++ err), w')
  | .ok output =>
    if c.maxOutputBytes < byteLen output then
      (.error ("run " ++ command ++ ": Slurm command output exceeded configured limit"), w')
    else (.ok output, w')

theorem run_executed (c : Client σ) (command : String) (args : List String) (w : Scheduler σ) :
    (c.run command args w).2.executed = w.executed ++ [⟨command, args⟩] := by
  unfold Client.run
  simp only
  split
  · rfl
  · split <;> rfl

theorem run_state (c : Client σ) (command : String) (args : List String) (w : Scheduler σ) :
    (c.run command args w).2.state = (c.runner.run ⟨command, args⟩ w.state).2 := by
  unfold Client.run
  simp only
  split
  · rfl
  · split <;> rfl

/-- A command the runner fails is a command that fails. -/
theorem run_error (c : Client σ) {command : String} {args : List String} {w : Scheduler σ}
    {err : String} (h : (c.runner.run ⟨command, args⟩ w.state).1 = .error err) :
    (c.run command args w).1 = .error ("run " ++ command ++ ": " ++ err) := by
  unfold Client.run
  simp only [h]

/-! ## Validation -/

/-- The loop of `validatePartitionDefinition` over name and nodes. -/
def validateNoSeparators : List String → Except String Unit
  | [] => .ok ()
  | value :: values =>
    if containsAny value ", \t\r\n" then
      .error "partition name and nodes must not contain commas or whitespace"
    else validateNoSeparators values

/-- The loop of `validatePartitionDefinition` over the nodes. -/
def validateUnique (seen : List String) : List String → Except String Unit
  | [] => .ok ()
  | node :: nodes =>
    if node ∈ seen then .error "partition nodes must be unique"
    else validateUnique (node :: seen) nodes

def validatePartitionDefinition (name : String) (nodes : List String) : Except String Unit :=
  if trimSpace name = "" ∨ nodes = [] then .error "partition name and nodes are required"
  else do
    validateDetailStrings (name :: nodes)
    validateNoSeparators (name :: nodes)
    validateUnique [] nodes

/-- The checks of `DeletePartition`. -/
def validatePartitionDeletion (name : String) : Except String Unit :=
  if trimSpace name = "" then .error "partition name is required"
  else do
    validateDetailStrings [name]
    if containsAny name ", \t\r\n" then
      .error "partition name must not contain commas or whitespace"
    else .ok ()

theorem validateNoSeparators_ok_iff (values : List String) :
    validateNoSeparators values = .ok () ↔
      ∀ value ∈ values, containsAny value ", \t\r\n" = false := by
  induction values with
  | nil => simp [validateNoSeparators]
  | cons value values ih =>
    rw [validateNoSeparators, List.forall_mem_cons]
    split
    · next h => simp [h]
    · next h => simp [h, ih]

theorem validateUnique_ok_iff (seen nodes : List String) :
    validateUnique seen nodes = .ok () ↔ nodes.Nodup ∧ ∀ n ∈ nodes, n ∉ seen := by
  induction nodes generalizing seen with
  | nil => simp [validateUnique]
  | cons node nodes ih =>
    rw [validateUnique]
    split
    · next h => simp [h]
    · next h =>
      rw [ih, List.nodup_cons, List.forall_mem_cons]
      constructor
      · rintro ⟨hnd, hseen⟩
        refine ⟨⟨fun hmem => ?_, hnd⟩, h, fun n hn hns => ?_⟩
        · exact hseen node hmem List.mem_cons_self
        · exact hseen n hn (List.mem_cons_of_mem _ hns)
      · rintro ⟨⟨hmem, hnd⟩, -, hseen⟩
        refine ⟨hnd, fun n hn hns => ?_⟩
        rcases List.mem_cons.mp hns with rfl | hns
        · exact hmem hn
        · exact hseen n hn hns

/-- A name the client puts on a command line. -/
def ArgText (value : String) : Prop :=
  DetailText value ∧ containsAny value ", \t\r\n" = false

theorem validatePartitionDefinition_ok_iff (name : String) (nodes : List String) :
    validatePartitionDefinition name nodes = .ok () ↔
      trimSpace name ≠ "" ∧ nodes ≠ [] ∧ (∀ value ∈ name :: nodes, ArgText value) ∧
        nodes.Nodup := by
  unfold validatePartitionDefinition
  split
  · next h =>
    constructor
    · intro hno; cases hno
    · rintro ⟨hname, hnodes, -⟩
      exact absurd h (not_or.mpr ⟨hname, hnodes⟩)
  · next h =>
    obtain ⟨hname, hnodes⟩ := not_or.mp h
    have hunique := validateUnique_ok_iff [] nodes
    simp only [List.not_mem_nil, not_false_eq_true, implies_true, and_true] at hunique
    have hand : (∀ value ∈ name :: nodes, ArgText value) ↔
        validateDetailStrings (name :: nodes) = .ok () ∧
          validateNoSeparators (name :: nodes) = .ok () := by
      rw [validateDetailStrings_ok_iff, validateNoSeparators_ok_iff, ← forall₂_and]
      exact Iff.rfl
    rw [hand, ← hunique]
    cases hd : validateDetailStrings (name :: nodes) with
    | error e => simp [bind, Except.bind]
    | ok u =>
      cases hs : validateNoSeparators (name :: nodes) with
      | error e => simp [bind, Except.bind]
      | ok u => simp [bind, Except.bind, hname, hnodes]

theorem validatePartitionDeletion_ok_iff (name : String) :
    validatePartitionDeletion name = .ok () ↔ trimSpace name ≠ "" ∧ ArgText name := by
  unfold validatePartitionDeletion ArgText
  have hdetail := validateDetailStrings_ok_iff [name]
  simp only [List.mem_singleton, forall_eq] at hdetail
  rw [← hdetail]
  split
  · next h => simp [h]
  · next h =>
    cases hd : validateDetailStrings [name] with
    | error e => simp [bind, Except.bind]
    | ok u => simp [bind, Except.bind, h]

/-! ## The methods -/

/-- `Client.ApplyPartition`: create the partition, and update it if that fails. -/
def applyPartition (c : Client σ) (name : String) (nodes : List String) (w : Scheduler σ) :
    Except String Unit × Scheduler σ :=
  match validatePartitionDefinition name nodes with
  | .error err => (.error err, w)
  | .ok () =>
    let partitionArg := "partitionname=" ++ name
    let nodeArg := "nodes=" ++ join nodes ","
    let created := c.run "scontrol" ["create", partitionArg, nodeArg] w
    match created.1 with
    | .ok _ => (.ok (), created.2)
    | .error err =>
      let updated := c.run "scontrol" ["update", partitionArg, nodeArg] created.2
      match updated.1 with
      | .ok _ => (.ok (), updated.2)
      | .error updateErr =>
        (.error ("apply Slurm partition " ++ name ++ ": create: " ++ err ++ "; update: " ++
          updateErr), updated.2)

/-- `Client.DeletePartition`. -/
def deletePartition (c : Client σ) (name : String) (w : Scheduler σ) :
    Except String Unit × Scheduler σ :=
  match validatePartitionDeletion name with
  | .error err => (.error err, w)
  | .ok () =>
    let deleted := c.run "scontrol" ["delete", "partitionname=" ++ name] w
    match deleted.1 with
    | .ok _ => (.ok (), deleted.2)
    | .error err => (.error ("delete Slurm partition " ++ name ++ ": " ++ err), deleted.2)

def createCommand (name : String) (nodes : List String) : Command :=
  ⟨"scontrol", ["create", "partitionname=" ++ name, "nodes=" ++ join nodes ","]⟩

def updateCommand (name : String) (nodes : List String) : Command :=
  ⟨"scontrol", ["update", "partitionname=" ++ name, "nodes=" ++ join nodes ","]⟩

def deleteCommand (name : String) : Command :=
  ⟨"scontrol", ["delete", "partitionname=" ++ name]⟩

/-- What `ApplyPartition` does: refuse, create, or try to create and then update. -/
theorem applyPartition_cases (c : Client σ) (name : String) (nodes : List String)
    (w : Scheduler σ) :
    (validatePartitionDefinition name nodes ≠ .ok () ∧
      (∃ e, (applyPartition c name nodes w).1 = .error e) ∧
      (applyPartition c name nodes w).2 = w) ∨
    (validatePartitionDefinition name nodes = .ok () ∧
      (∃ output, (c.run "scontrol" (createCommand name nodes).args w).1 = .ok output) ∧
      (applyPartition c name nodes w).1 = .ok () ∧
      (applyPartition c name nodes w).2.executed = w.executed ++ [createCommand name nodes]) ∨
    (validatePartitionDefinition name nodes = .ok () ∧
      (applyPartition c name nodes w).2.executed =
        w.executed ++ [createCommand name nodes, updateCommand name nodes]) := by
  unfold applyPartition
  cases hv : validatePartitionDefinition name nodes with
  | error e => exact Or.inl ⟨by simp, ⟨e, rfl⟩, rfl⟩
  | ok u =>
    right
    simp only
    cases hc : (c.run "scontrol" ["create", "partitionname=" ++ name, "nodes=" ++ join nodes ","]
        w).1 with
    | ok output => exact Or.inl ⟨trivial, ⟨output, hc⟩, rfl, run_executed _ _ _ _⟩
    | error err =>
      right
      refine ⟨trivial, ?_⟩
      simp only
      split
      · rw [run_executed, run_executed, List.append_assoc]
        rfl
      · rw [run_executed, run_executed, List.append_assoc]
        rfl

/-- What `DeletePartition` does: refuse, or run one command. -/
theorem deletePartition_cases (c : Client σ) (name : String) (w : Scheduler σ) :
    (validatePartitionDeletion name ≠ .ok () ∧ (∃ e, (deletePartition c name w).1 = .error e) ∧
      (deletePartition c name w).2 = w) ∨
    (validatePartitionDeletion name = .ok () ∧
      (deletePartition c name w).2.executed = w.executed ++ [deleteCommand name]) := by
  unfold deletePartition
  cases hv : validatePartitionDeletion name with
  | error e => exact Or.inl ⟨by simp, ⟨e, rfl⟩, rfl⟩
  | ok u =>
    right
    refine ⟨rfl, ?_⟩
    simp only
    split
    · exact run_executed _ _ _ _
    · exact run_executed _ _ _ _

/-- The client as the web layer's `cluster.PartitionAdmin`. -/
def Client.partitionAdmin (c : Client σ) : PartitionAdmin (Scheduler σ) where
  applyPartition := applyPartition c
  deletePartition := deletePartition c

end OpenHpcWeb.Slurm
