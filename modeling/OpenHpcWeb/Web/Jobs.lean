/-
  The handlers of the jobs: the list of app.go, job_resources.go, job_output.go and
  job_cancel.go.

  The provider of the jobs is the Slurm client: one request reads one list of jobs (`Queue`),
  in which `Client.Job` looks a job up. What else a request meets stands in `JobRequest` as
  functions of what the handler asks for: the answers of sstat, scancel and the output reader,
  the failures of the audit store, the context. A handler answers with what it has done
  (`JobEffect`) in the order it did it, and with the slots that are taken after it.

  `readJobOutputAsUser` and the template package are parameters; so is whether the context
  ends before the reader is done (`waitContext`). A reader that outlives its handler keeps the
  slot: it is still taken after the answer.
-/
import OpenHpcWeb.Go.Path
import OpenHpcWeb.Go.Strconv
import OpenHpcWeb.Web.Partitions
import OpenHpcWeb.Web.View

namespace OpenHpcWeb.Web

open OpenHpcWeb.Go OpenHpcWeb.Cluster OpenHpcWeb.Platform

/-! ## Requests and answers -/

/-- What `Client.Jobs` answers. -/
abbrev Queue := Except String (List Job)

/-- `Client.Job`; `none` is not found. -/
def Queue.job (queue : Queue) (id : GoInt) : Except String (Option Job) :=
  match queue with
  | .error err => .error err
  | .ok jobs => .ok (jobs.find? fun job => job.id = formatInt id)

/-- `context.Canceled` and `context.DeadlineExceeded`. -/
inductive ContextError where
  | canceled
  | deadlineExceeded
  deriving DecidableEq

inductive ReadError where
  | context (err : ContextError)
  | other (reason : String)
  deriving DecidableEq

structure JobView where
  job : Job
  canCancel : Bool
  deriving DecidableEq

structure JobModalView where
  job : Job
  endTime : String
  deriving DecidableEq

structure JobsView extends AppChrome where
  module_ : ModuleLink
  jobs : List JobView
  jobDetails : List JobModalView
  deriving DecidableEq

structure JobRequest extends PageContext where
  now : Time
  /-- the error of the audit store for an event -/
  auditFault : AuditEvent → Option String
  jobResourceUsage : GoInt → Except String JobResourceUsage
  cancelJob : GoInt → Except String Unit
  readJobOutputAsUser : GoInt → GoInt → String → Except ReadError (List UInt8 × Bool)
  /-- the context when the reader starts -/
  readerContext : Option ContextError
  /-- `none`: the reader is done first -/
  waitContext : Option ContextError
  executeTemplate : String → JobsView → Except String String

/-- The application's interfaces that may be nil. -/
structure JobApplication where
  jobCanceler : Bool
  jobResourceProvider : Bool

inductive Body where
  | text (content : String)
  | html (content : String)
  | error (content : String)
  | usage (usage : JobResourceUsage)
  | blob (content : List UInt8)
  | empty
  deriving DecidableEq

structure Reply where
  status : Nat
  headers : List (String × String)
  body : Body
  deriving DecidableEq

inductive JobEffect where
  | scancel (id : GoInt)
  | sstat (id : GoInt)
  | readJobOutput (job : Job) (stream : String)
  | audit (event : AuditEvent)
  deriving DecidableEq

/-- How many tokens are in `jobOutputSlots` and `jobResourceSlots`. -/
structure JobSlots where
  output : Nat
  resource : Nat
  deriving DecidableEq

structure JobOutcome where
  reply : Reply
  effects : List JobEffect
  slots : JobSlots
  deriving DecidableEq

/-- `echo.NewHTTPError`, as `errorHandler` answers it. -/
def httpError (r : JobRequest) (status : Nat) : Reply :=
  ⟨status, [], .text (publicErrorMessage status r.language)⟩

/-- `c.JSON` with a map of one error. -/
def jsonError (status : Nat) (err : String) : Reply := ⟨status, [], .error err⟩

/-! ## Ownership -/

def filterJobsForPrincipal (jobs : List Job) (identity : Principal) : List Job :=
  if identity.role = .admin then jobs
  else jobs.filter fun job => job.user = identity.username

def canAccessJob (identity : Principal) (job : Job) : Bool :=
  identity.role = .admin || job.user = identity.username

def canCancelJob (identity : Principal) (job : Job) : Bool :=
  identity.role = .admin || job.user = identity.username

/-! ## The list -/

/-- The end time of a job's details: "Unknown" is translated. -/
def detailEndTime (lang : String) (job : Job) : String :=
  if lang ≠ "en" ∧ equalFold job.endTime "Unknown" then "未知" else job.endTime

def slurmJobsView (a : JobApplication) (r : JobRequest) (queue : Option Queue) : JobsView :=
  let (jobs, available) : List Job × Bool :=
    match queue with
    | some (.ok liveJobs) => (filterJobsForPrincipal liveJobs r.principal, true)
    | _ => ([], false)
  let currentModule := moduleByPath "/slurm/jobs" r.language
  { newAppChrome r.toPageContext currentModule.path available
      { eyebrow := "OPENHPC / SLURM"
        title := currentModule.label
        description := if r.language = "en" then "Live Slurm data" else "Slurm 实时数据"
        refreshPath := currentModule.path
        refreshLabel := if r.language = "en" then "Refresh" else "刷新" } with
    module_ := currentModule
    jobs := jobs.map fun job => ⟨job, a.jobCanceler && canCancelJob r.principal job⟩
    jobDetails := jobs.map fun job => ⟨job, detailEndTime r.language job⟩ }

def slurmJobs (a : JobApplication) (r : JobRequest) (queue : Option Queue) (slots : JobSlots) :
    JobOutcome :=
  match r.executeTemplate "jobs.html" (slurmJobsView a r queue) with
  | .error _ => ⟨httpError r 500, [], slots⟩
  | .ok page => ⟨⟨200, [], .html page⟩, [], slots⟩

/-! ## Job IDs -/

def parsePositiveJobID (value : String) : Except String GoInt :=
  if value = "" ∨ byteLen value > 19 ∨ value.toList.head? = some '0' then .error "invalid job ID"
  else if value.toList.any fun character => character < '0' || character > '9' then
    .error "invalid job ID"
  else
    match parseInt value with
    | none => .error "invalid job ID"
    | some id => if id.val ≤ 0 then .error "invalid job ID" else .ok id

/-! ## Resources -/

def maxConcurrentJobResourceReads : Nat := 4

def slurmJobResources (a : JobApplication) (r : JobRequest) (queue : Option Queue)
    (slots : JobSlots) (id : String) : JobOutcome :=
  let fail (status : Nat) (err : String) (effects : List JobEffect) : JobOutcome :=
    ⟨jsonError status err, effects, slots⟩
  match parsePositiveJobID id with
  | .error _ => fail 400 "invalid job ID" []
  | .ok jobID =>
    match queue, a.jobResourceProvider with
    | some queue, true =>
      match queue.job jobID with
      | .error _ => fail 503 "job resources unavailable" []
      | .ok none => fail 404 "job not found" []
      | .ok (some job) =>
        if job.id ≠ formatInt jobID then fail 404 "job not found" []
        else if ¬ canAccessJob r.principal job then fail 404 "job not found" []
        -- the slot is taken here and given back on return
        else if slots.resource ≥ maxConcurrentJobResourceReads then
          fail 429 "too many resource requests" []
        else
          match r.jobResourceUsage jobID with
          | .error _ => fail 503 "job resources unavailable" [.sstat jobID]
          | .ok usage =>
            if usage.jobID ≠ formatInt jobID then
              fail 503 "job resources unavailable" [.sstat jobID]
            else ⟨⟨200, [("Cache-Control", "no-store")], .usage usage⟩, [.sstat jobID], slots⟩
    | _, _ => fail 503 "job resources unavailable" []

/-! ## Output -/

def maxConcurrentJobOutputReads : Nat := 4

/-- `recordJobOutputAuditEvent`, and the answer of the branch that records: without the
    record it is 503. -/
def recordJobOutput (r : JobRequest) (action outcome : String) (reply : Reply)
    (effects : List JobEffect) (slots : JobSlots) : JobOutcome :=
  let event : AuditEvent := ⟨r.principal.username, action, outcome, r.now⟩
  { reply := if (r.auditFault event).isSome then httpError r 503 else reply
    effects := effects ++ [.audit event]
    slots := slots }

/-- The action of `recordJobOutputAudit`. -/
def jobOutputAction (jobID : GoInt) (stream : String) : String :=
  "slurm.job_output." ++ stream ++ ":" ++ formatInt jobID

def validJobOutputPath (path : String) : Bool :=
  isAbs path && cleanPath path = path && path ≠ "/"

def readJobOutput (r : JobRequest) (job : Job) (stream : String) :
    Except ReadError (List UInt8 × Bool) :=
  match r.readerContext with
  | some err => .error (.context err)
  | none =>
    let path := if stream = "stderr" then job.stdErr else job.stdOut
    if ¬ validJobOutputPath path then .error (.other "job output unavailable")
    else r.readJobOutputAsUser job.userID job.groupID path

/-- The outcome and the status of an ended context. -/
def contextOutcome : ContextError → String × Nat
  | .canceled => ("cancelled", 408)
  | .deadlineExceeded => ("timeout", 504)

/-- `slurmJobOutput` from the reader's start to the answer. -/
def answerJobOutput (r : JobRequest) (slots : JobSlots) (jobID : GoInt) (job : Job)
    (stream : String) : JobOutcome :=
  let record (outcome : String) (reply : Reply) (slots : JobSlots) : JobOutcome :=
    recordJobOutput r (jobOutputAction jobID stream) outcome reply [.readJobOutput job stream]
      slots
  match r.waitContext with
  | some err =>
    record (contextOutcome err).1 (httpError r (contextOutcome err).2)
      { slots with output := slots.output + 1 }
  | none =>
    match readJobOutput r job stream with
    | .error (.context err) => record (contextOutcome err).1 (httpError r (contextOutcome err).2) slots
    | .error (.other _) => record "denied" (httpError r 404) slots
    | .ok (content, truncated) =>
      record "success"
        ⟨200, (if truncated then [("X-Content-Truncated", "true")] else []) ++
          [("Content-Type", "text/plain; charset=utf-8")], .blob content⟩ slots

def slurmJobOutput (r : JobRequest) (queue : Option Queue) (slots : JobSlots)
    (id stream : String) : JobOutcome :=
  let invalid : JobOutcome :=
    recordJobOutput r "slurm.job_output.invalid_request" "denied" (httpError r 400) [] slots
  match parsePositiveJobID id with
  | .error _ => invalid
  | .ok jobID =>
    if stream ≠ "stdout" ∧ stream ≠ "stderr" then invalid
    else
      let record (outcome : String) (status : Nat) : JobOutcome :=
        recordJobOutput r (jobOutputAction jobID stream) outcome (httpError r status) [] slots
      match queue with
      | none => record "unavailable" 503
      | some queue =>
        if slots.output ≥ maxConcurrentJobOutputReads then record "rate_limited" 429
        else
          match queue.job jobID with
          | .error _ => record "unavailable" 503
          | .ok none => record "denied" 404
          | .ok (some job) =>
            if job.id ≠ formatInt jobID then record "denied" 404
            else if ¬ canAccessJob r.principal job then record "denied" 404
            else answerJobOutput r slots jobID job stream

/-! ## Cancelling -/

/-- `recordJobCancelAudit`; whether the record is lost changes nothing else. -/
def recordJobCancelAudit (r : JobRequest) (jobID : Int) (outcome : String) : JobEffect :=
  .audit ⟨r.principal.username, "slurm.job.cancel:" ++ toString jobID, outcome, r.now⟩

def slurmJobCancel (a : JobApplication) (r : JobRequest) (queue : Option Queue)
    (slots : JobSlots) (id : String) : JobOutcome :=
  match parsePositiveJobID id with
  | .error _ =>
    ⟨jsonError 400 "invalid job ID", [recordJobCancelAudit r 0 "invalid_request"], slots⟩
  | .ok jobID =>
    let record (outcome : String) := recordJobCancelAudit r jobID.val outcome
    let unavailable := jsonError 503 "job cancellation unavailable"
    match queue, a.jobCanceler with
    | some queue, true =>
      match queue.job jobID with
      | .error _ => ⟨unavailable, [record "unavailable"], slots⟩
      | .ok none => ⟨jsonError 404 "job not found", [record "denied"], slots⟩
      | .ok (some job) =>
        if job.id ≠ formatInt jobID ∨ ¬ canCancelJob r.principal job then
          ⟨jsonError 404 "job not found", [record "denied"], slots⟩
        else
          match r.cancelJob jobID with
          | .error _ => ⟨unavailable, [.scancel jobID, record "failed"], slots⟩
          | .ok _ =>
            ⟨⟨303, [("Location", "/slurm/jobs")], .empty⟩, [.scancel jobID, record "success"],
              slots⟩
    | _, _ => ⟨unavailable, [record "unavailable"], slots⟩

/-! ## The routes -/

/-- The routes of the jobs, with the parameters of their paths. -/
inductive JobRoute where
  | jobs
  | resources (id : String)
  | output (id stream : String)
  | cancel (id : String)
  deriving DecidableEq

def serveJobs (a : JobApplication) (r : JobRequest) (queue : Option Queue) (slots : JobSlots) :
    JobRoute → JobOutcome
  | .jobs => slurmJobs a r queue slots
  | .resources id => slurmJobResources a r queue slots id
  | .output id stream => slurmJobOutput r queue slots id stream
  | .cancel id => slurmJobCancel a r queue slots id

end OpenHpcWeb.Web
