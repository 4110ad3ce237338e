/-
  The Slurm client in sequential use: its reading methods above the caches of nodes, jobs
  and cluster metrics, and its mutating methods (client.go, details.go, partitions.go,
  job_admin.go and partition_admin.go of internal/slurm).

  When no two calls overlap nobody waits, and `valueCache.get` is `get` below: a lookup, the
  loader, a store. `Client.Snapshot` has the same loop over fields of its own. `clock n` is
  the n-th reading of the clock, and `ctx n` the error of a context after n readings.

  Outside of the model are the decoding of the sinfo document, the parser of the squeue
  document and `aggregatePartitions`; they are fields of `ClientConfig`.

  History, which the code does not hold: the origin of every kept value (`Origin`) and the
  events of the session.
-/
import OpenHpcWeb.Lib.Provenance
import OpenHpcWeb.Slurm.Metrics
import OpenHpcWeb.Slurm.PartitionAdmin

namespace OpenHpcWeb.Slurm

open OpenHpcWeb.Go OpenHpcWeb.Cluster OpenHpcWeb.Lib

/-! ## The client -/

/-- What a mutating method changes in Slurm: jobs, or nodes and partitions. -/
inductive Effect where
  | job
  | node
  deriving DecidableEq

/-- The reading methods. -/
inductive Reader where
  | snapshot
  | nodes
  | jobs
  | partitions
  deriving DecidableEq

def Effect.affects : Effect → Reader → Bool
  | _, .snapshot => true
  | .job, .jobs => true
  | .node, .nodes => true
  | .node, .partitions => true
  | _, _ => false

/-- A cache: the fields of `valueCache` that matter without overlap. -/
structure Entry (T : Type) where
  lastAttempt : Option Nat
  value : T
  err : Option String
  origin : Origin Effect

/-- What a reading method or a loader returns. -/
structure Answer (T : Type) where
  value : T
  err : Option String
  origin : Origin Effect

structure ClientConfig (σ P : Type) where
  client : Client σ
  cacheTTL : Nat
  clock : Nat → Nat
  decodeSinfo : String → Except String SinfoJSON
  parseJobsJSON : String → Nat → Except String (List Job)
  aggregatePartitions : List Node → Except String P

/-- The client and the scheduler between two calls. -/
structure Session (σ : Type) where
  scheduler : Scheduler σ
  readings : Nat
  nodesCache : Entry NodeSnapshot
  jobsCache : Entry (List Job)
  snapshotCache : Entry Metrics
  history : List (Event Effect Reader)

/-- `Err` of a context, by the number of clock readings so far. -/
abbrev Ctx := Nat → Option String

variable {σ P T : Type}

/-- A new client. -/
def Session.init (s : σ) : Session σ where
  scheduler := ⟨s, []⟩
  readings := 0
  nodesCache := ⟨none, ⟨[], []⟩, none, ⟨[], []⟩⟩
  jobsCache := ⟨none, [], none, ⟨[], []⟩⟩
  snapshotCache := ⟨none, zeroMetrics, none, ⟨[], []⟩⟩
  history := []

/-- A cache of the session. -/
structure Slot (σ T : Type) where
  get : Session σ → Entry T
  set : Entry T → Session σ → Session σ

def nodesSlot : Slot σ NodeSnapshot := ⟨Session.nodesCache, fun e w => { w with nodesCache := e }⟩

def jobsSlot : Slot σ (List Job) := ⟨Session.jobsCache, fun e w => { w with jobsCache := e }⟩

def snapshotSlot : Slot σ Metrics :=
  ⟨Session.snapshotCache, fun e w => { w with snapshotCache := e }⟩

/-! ## Reading -/

/-- `!c.lastAttempt.IsZero() && time.Since(c.lastAttempt) < c.ttl`. -/
def Entry.fresh (e : Entry T) (ttl now : Nat) : Bool :=
  match e.lastAttempt with
  | none => false
  | some t => now - t < ttl

def Session.tick (w : Session σ) : Session σ := { w with readings := w.readings + 1 }

/-- The lookup reads the clock only if there is something to compare it with. -/
def Session.looked (w : Session σ) (e : Entry T) : Session σ :=
  if e.lastAttempt.isSome then w.tick else w

def ctxError (zero : T) (err : String) : Answer T := ⟨zero, some err, ⟨[], []⟩⟩

/-- The end of `get`, after the loader: the result is stored if the context is live, and
    returned if it still is. -/
def keep (cfg : ClientConfig σ P) (slot : Slot σ T) (zero : T) (ctx : Ctx)
    (loaded : Answer T × Session σ) : Answer T × Session σ :=
  let w := loaded.2
  match ctx w.readings with
  | some err => (ctxError zero err, w)
  | none =>
    let e : Entry T :=
      ⟨some (cfg.clock w.readings), loaded.1.value, loaded.1.err, loaded.1.origin⟩
    let w' := slot.set e w.tick
    match ctx (w.readings + 1) with
    | some err => (ctxError zero err, w')
    | none => (loaded.1, w')

/-- `valueCache.get`. -/
def get (cfg : ClientConfig σ P) (slot : Slot σ T) (zero : T) (ctx : Ctx)
    (load : Session σ → Answer T × Session σ) (w : Session σ) : Answer T × Session σ :=
  let e := slot.get w
  if e.fresh cfg.cacheTTL (cfg.clock w.readings) then (⟨e.value, e.err, e.origin⟩, w.looked e)
  else keep cfg slot zero ctx (load (w.looked e))

/-- The loader of `loadNodeSnapshot`. -/
def loadNodes [UnicodeCase] (cfg : ClientConfig σ P) (w : Session σ) :
    Answer NodeSnapshot × Session σ :=
  let ran := cfg.client.run "sinfo" ["--Node", "--json"] w.scheduler
  let w' : Session σ := { w with scheduler := ran.2 }
  let origin : Origin Effect := ⟨[w.scheduler.executed.length], []⟩
  match ran.1 with
  | .error err => (⟨⟨[], []⟩, some ("read Slurm nodes: " ++ err), origin⟩, w')
  | .ok output =>
    match cfg.decodeSinfo output with
    | .error err => (⟨⟨[], []⟩, some ("parse Slurm nodes: decode sinfo JSON: " ++ err), origin⟩, w')
    | .ok response =>
      match parseNodesJSON response with
      | .error err => (⟨⟨[], []⟩, some ("parse Slurm nodes: " ++ err), origin⟩, w')
      | .ok snapshot => (⟨snapshot, none, origin⟩, w')

def loadNodeSnapshot [UnicodeCase] (cfg : ClientConfig σ P) (ctx : Ctx) (w : Session σ) :
    Answer NodeSnapshot × Session σ :=
  get cfg nodesSlot ⟨[], []⟩ ctx (loadNodes cfg) w

/-- The loader of `Jobs`, which reads the clock for the elapsed times. -/
def loadJobs (cfg : ClientConfig σ P) (w : Session σ) : Answer (List Job) × Session σ :=
  let ran := cfg.client.run "squeue" ["--json"] w.scheduler
  let w' : Session σ := { w with scheduler := ran.2 }
  let origin : Origin Effect := ⟨[w.scheduler.executed.length], []⟩
  match ran.1 with
  | .error err => (⟨[], some ("read Slurm jobs: " ++ err), origin⟩, w')
  | .ok output =>
    match cfg.parseJobsJSON output (cfg.clock w'.readings) with
    | .error err => (⟨[], some ("parse Slurm jobs: " ++ err), origin⟩, w'.tick)
    | .ok jobs => (⟨jobs, none, origin⟩, w'.tick)

/-- `Client.Jobs`. -/
def jobs (cfg : ClientConfig σ P) (ctx : Ctx) (w : Session σ) : Answer (List Job) × Session σ :=
  get cfg jobsSlot [] ctx (loadJobs cfg) w

/-- `Client.snapshot`, with the derived context. `Nodes` is `loadNodeSnapshot` and returns
    the merged nodes. -/
def loadSnapshot [UnicodeCase] (cfg : ClientConfig σ P) (ctx : Ctx) (w : Session σ) :
    Answer Metrics × Session σ :=
  let nodes := loadNodeSnapshot cfg ctx w
  match nodes.1.err with
  | some err => (⟨zeroMetrics, some ("read node snapshot: " ++ err), nodes.1.origin⟩, nodes.2)
  | none =>
    let jobs := jobs cfg ctx nodes.2
    let origin := nodes.1.origin.join jobs.1.origin
    match jobs.1.err with
    | some err => (⟨zeroMetrics, some ("read job snapshot: " ++ err), origin⟩, jobs.2)
    | none =>
      match aggregateMetrics nodes.1.value.nodes jobs.1.value with
      | .error err => (⟨zeroMetrics, some err, origin⟩, jobs.2)
      | .ok metrics => (⟨metrics, none, origin⟩, jobs.2)

/-- The context `snapshot` derives: `timeout` is its own deadline. -/
def derived (ctx timeout : Ctx) : Ctx := fun n => (ctx n).or (timeout n)

/-- `Client.Snapshot`. -/
def snapshot [UnicodeCase] (cfg : ClientConfig σ P) (ctx timeout : Ctx) (w : Session σ) :
    Answer Metrics × Session σ :=
  get cfg snapshotSlot zeroMetrics ctx (loadSnapshot cfg (derived ctx timeout)) w

/-- `Client.Partitions`. -/
def partitions [UnicodeCase] (cfg : ClientConfig σ P) (ctx : Ctx) (w : Session σ) :
    Except String (P × Origin Effect) × Session σ :=
  let nodes := loadNodeSnapshot cfg ctx w
  match nodes.1.err with
  | some err => (.error ("read partition node snapshot: " ++ err), nodes.2)
  | none =>
    ((cfg.aggregatePartitions nodes.1.value.partitionNodes).map fun p => (p, nodes.1.origin),
      nodes.2)

/-! ## Mutating -/

/-- `valueCache.invalidate`. -/
def Entry.invalidate (e : Entry T) : Entry T := { e with lastAttempt := none }

/-- `Client.CancelJob`. -/
def cancelJob (cfg : ClientConfig σ P) (id : GoInt) (w : Session σ) :
    Except String Unit × Session σ :=
  if id.val ≤ 0 then (.error "job ID must be positive", w)
  else
    let jobID := toString id.val
    let ran := cfg.client.run "scancel" [jobID] w.scheduler
    let w' : Session σ := { w with scheduler := ran.2 }
    match ran.1 with
    | .error err => (.error ("cancel Slurm job " ++ jobID ++ ": " ++ err), w')
    | .ok _ => (.ok (), { w' with jobsCache := w'.jobsCache.invalidate })

def maxNodeReasonLength : Nat := 256

/-- The text of a `cluster.NodeState`. -/
def nodeStateText : NodeState → String
  | .down => "down"
  | .drain => "drain"
  | .resume => "resume"
  | .other state => state

def validateNodeState (state : NodeState) (reason : String) : Except String Unit :=
  match state with
  | .resume =>
    if reason ≠ "" then .error "node state reason is not allowed for resume" else .ok ()
  | .other _ => .error "invalid node state"
  | _ =>
    if reason = "" then .error "node state reason is required"
    else if maxNodeReasonLength < byteLen reason then
      .error "node state reason exceeds maximum length"
    else validateDetailStrings [reason]

def validateNodeName (name : String) : Except String Unit :=
  if trimSpace name = "" then .error "node name is required"
  else do
    validateDetailStrings [name]
    if containsAny name ", \t\r\n" then
      .error "node name must not contain commas or whitespace"
    else .ok ()

/-- `Client.SetNodeState`. -/
def setNodeState (cfg : ClientConfig σ P) (name : String) (state : NodeState) (reason : String)
    (w : Session σ) : Except String Unit × Session σ :=
  match validateNodeName name with
  | .error err => (.error err, w)
  | .ok () =>
    let reason := trimSpace reason
    match validateNodeState state reason with
    | .error err => (.error err, w)
    | .ok () =>
      let args := ["update", "nodename=" ++ name, "state=" ++ nodeStateText state]
      let args := if reason ≠ "" then args ++ ["reason=" ++ reason] else args
      let ran := cfg.client.run "scontrol" args w.scheduler
      let w' : Session σ := { w with scheduler := ran.2 }
      match ran.1 with
      | .error err => (.error ("set Slurm node " ++ name ++ " state: " ++ err), w')
      | .ok _ => (.ok (), { w' with nodesCache := w'.nodesCache.invalidate })

/-- `Client.ApplyPartition`, which touches no cache. -/
def Session.applyPartition (cfg : ClientConfig σ P) (name : String) (nodes : List String)
    (w : Session σ) : Except String Unit × Session σ :=
  let applied := Slurm.applyPartition cfg.client name nodes w.scheduler
  (applied.1, { w with scheduler := applied.2 })

/-- `Client.DeletePartition`, which touches no cache. -/
def Session.deletePartition (cfg : ClientConfig σ P) (name : String) (w : Session σ) :
    Except String Unit × Session σ :=
  let deleted := Slurm.deletePartition cfg.client name w.scheduler
  (deleted.1, { w with scheduler := deleted.2 })

/-! ## Calls -/

inductive ClientCall where
  | snapshot (ctx timeout : Ctx)
  | nodes (ctx : Ctx)
  | jobs (ctx : Ctx)
  | partitions (ctx : Ctx)
  | cancelJob (id : GoInt)
  | setNodeState (name : String) (state : NodeState) (reason : String)
  | applyPartition (name : String) (nodes : List String)
  | deletePartition (name : String)

/-- How a call ends: with a value, with a mutation carried out, or with an error. -/
inductive CallOutcome where
  | value (reader : Reader) (origin : Origin Effect)
  | changed (effect : Effect)
  | failed

def Answer.outcome (a : Answer T) (reader : Reader) : CallOutcome :=
  match a.err with
  | none => .value reader a.origin
  | some _ => .failed

def mutationOutcome (effect : Effect) : Except String Unit → CallOutcome
  | .ok () => .changed effect
  | .error _ => .failed

/-- A call and the session after it, before it is recorded. -/
def answer [UnicodeCase] (cfg : ClientConfig σ P) (w : Session σ) :
    ClientCall → CallOutcome × Session σ
  | .snapshot ctx timeout =>
    let a := snapshot cfg ctx timeout w
    (a.1.outcome .snapshot, a.2)
  | .nodes ctx =>
    let a := loadNodeSnapshot cfg ctx w
    (a.1.outcome .nodes, a.2)
  | .jobs ctx =>
    let a := jobs cfg ctx w
    (a.1.outcome .jobs, a.2)
  | .partitions ctx =>
    let a := partitions cfg ctx w
    (match a.1 with
      | .ok (_, origin) => .value .partitions origin
      | .error _ => .failed, a.2)
  | .cancelJob id =>
    let a := cancelJob cfg id w
    (mutationOutcome .job a.1, a.2)
  | .setNodeState name state reason =>
    let a := setNodeState cfg name state reason w
    (mutationOutcome .node a.1, a.2)
  | .applyPartition name nodes =>
    let a := w.applyPartition cfg name nodes
    (mutationOutcome .node a.1, a.2)
  | .deletePartition name =>
    let a := w.deletePartition cfg name
    (mutationOutcome .node a.1, a.2)

/-- A mutation carried out by the commands so far. -/
def Session.outdate (w : Session σ) (effect : Effect) : Session σ :=
  { w with
    nodesCache := { w.nodesCache with origin := w.nodesCache.origin.outdate effect }
    jobsCache := { w.jobsCache with origin := w.jobsCache.origin.outdate effect }
    snapshotCache := { w.snapshotCache with origin := w.snapshotCache.origin.outdate effect }
    history := .changed effect w.scheduler.executed.length :: w.history }

def Session.record (w : Session σ) : CallOutcome → Session σ
  | .value reader origin => { w with history := .returned reader origin.commands :: w.history }
  | .changed effect => w.outdate effect
  | .failed => w

/-- One call. -/
def clientCall [UnicodeCase] (cfg : ClientConfig σ P) (w : Session σ) (call : ClientCall) :
    Option (Session σ) :=
  some ((answer cfg w call).2.record (answer cfg w call).1)

end OpenHpcWeb.Slurm
