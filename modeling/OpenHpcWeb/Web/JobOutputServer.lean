/-
  `slurmJobOutput` of internal/web/job_output.go step by step, for requests that run together.

  A party of the pool is one request with its reader goroutine. The steps of a handler are cut
  where it meets something that is shared: the select on `jobOutputSlots`, the hand-off to the
  reader, the result channel, the audit store, the deferred release and the response. The
  tokens of the pool are those in `jobOutputSlots`; a receive needs one. What a request meets
  outside (the provider, the context, the file, the audit store) stands in the call.

  * `partyMove_step`: what a step of a request can do (`OutputStep`).

  That a request by itself is the function `slurmJobOutput` is shown in `Web.JobOutputAudit`
  (`slurmJobOutput_eq`, `answered_alone`).
-/
import OpenHpcWeb.Lib.Tokens
import OpenHpcWeb.Web.Jobs

namespace OpenHpcWeb.Web

open OpenHpcWeb.Go OpenHpcWeb.Cluster OpenHpcWeb.Platform OpenHpcWeb.Lib

/-! ## Requests -/

/-- What `jobProvider.Job` answers; `none` is not found. -/
abbrev JobLookup := GoInt → Except String (Option Job)

/-- A request: its parameters, and what it meets. -/
structure OutputCall where
  r : JobRequest
  provider : Option JobLookup
  id : String
  stream : String

/-- The event that a branch records, and its answer if the record is made. -/
structure Recording where
  action : String
  outcome : String
  reply : Reply

inductive HandlerPc where
  | start
  | lookup (jobID : GoInt) (job : JobLookup)
  | waiting (jobID : GoInt)
  | recording (rec : Recording) (slotOwnedByHandler : Bool)
  | returning (reply : Reply) (slotOwnedByHandler : Bool)
  | responding (reply : Reply)
  | done

/-- The reader goroutine: before it starts, at work, after it has sent its result, and after
    its deferred release. The channel has room for the result. -/
inductive ReaderPc where
  | idle
  | reading (job : Job)
  | sent (result : Except ReadError (List UInt8 × Bool))
  | finished (result : Except ReadError (List UInt8 × Bool))

/-- What is in `resultChannel`. -/
def ReaderPc.result : ReaderPc → Option (Except ReadError (List UInt8 × Bool))
  | .idle | .reading _ => none
  | .sent result | .finished result => some result

inductive OutputEvent where
  | acquire
  | release
  | audit (event : AuditEvent) (recorded : Bool)
  | respond (reply : Reply)
  deriving DecidableEq

structure OutputParty where
  call : OutputCall
  handler : HandlerPc
  reader : ReaderPc
  events : List OutputEvent

inductive OutputActor where
  | handler
  | reader
  deriving DecidableEq

/-! ## The branches of the handler -/

namespace OutputCall

/-- The event and the error of a branch that knows the job ID. -/
def refusal (call : OutputCall) (jobID : GoInt) (outcome : String) (status : Nat) : Recording :=
  ⟨jobOutputAction jobID call.stream, outcome, httpError call.r status⟩

/-- The checks before the slot. -/
def accept (call : OutputCall) : Except Recording (GoInt × JobLookup) :=
  let invalid : Recording :=
    ⟨"slurm.job_output.invalid_request", "denied", httpError call.r 400⟩
  match parsePositiveJobID call.id with
  | .error _ => .error invalid
  | .ok jobID =>
    if call.stream ≠ "stdout" ∧ call.stream ≠ "stderr" then .error invalid
    else
      match call.provider with
      | none => .error (call.refusal jobID "unavailable" 503)
      | some job => .ok (jobID, job)

/-- The lookup and the checks of its answer. -/
def findJob (call : OutputCall) (jobID : GoInt) (job : JobLookup) : Except Recording Job :=
  match job jobID with
  | .error _ => .error (call.refusal jobID "unavailable" 503)
  | .ok none => .error (call.refusal jobID "denied" 404)
  | .ok (some job) =>
    if job.id ≠ formatInt jobID then .error (call.refusal jobID "denied" 404)
    else if ¬ canAccessJob call.r.principal job then .error (call.refusal jobID "denied" 404)
    else .ok job

/-- An ended context. -/
def ended (call : OutputCall) (jobID : GoInt) (err : ContextError) : Recording :=
  call.refusal jobID (contextOutcome err).1 (contextOutcome err).2

/-- The answer with the content. -/
def outputReply (content : List UInt8) (truncated : Bool) : Reply :=
  ⟨200, (if truncated then [("X-Content-Truncated", "true")] else []) ++
    [("Content-Type", "text/plain; charset=utf-8")], .blob content⟩

/-- What the handler makes of the reader's result. -/
def answer (call : OutputCall) (jobID : GoInt) :
    Except ReadError (List UInt8 × Bool) → Recording
  | .error (.context err) => call.ended jobID err
  | .error (.other _) => call.refusal jobID "denied" 404
  | .ok (content, truncated) =>
    ⟨jobOutputAction jobID call.stream, "success", outputReply content truncated⟩

/-- `recordJobOutputAuditEvent` -/
def event (call : OutputCall) (rec : Recording) : AuditEvent :=
  ⟨call.r.principal.username, rec.action, rec.outcome, call.r.now⟩

def recorded (call : OutputCall) (rec : Recording) : Bool :=
  (call.r.auditFault (call.event rec)).isNone

end OutputCall

/-! ## The steps -/

namespace OutputParty

/-- A request arrives. -/
def arrive (call : OutputCall) : OutputParty := ⟨call, .start, .idle, []⟩

def record (p : OutputParty) (rec : Recording) (slotOwnedByHandler : Bool) : OutputParty :=
  { p with handler := .recording rec slotOwnedByHandler }

/-- The handler's attempt to record: without the record the answer is 503. -/
def audited (p : OutputParty) (rec : Recording) (slotOwnedByHandler : Bool) : OutputParty :=
  { p with
    handler := .returning (if p.call.recorded rec then rec.reply else httpError p.call.r 503)
      slotOwnedByHandler
    events := p.events ++ [.audit (p.call.event rec) (p.call.recorded rec)] }

def handlerMove (p : OutputParty) (taken : Nat) : Option (OutputParty × Nat) :=
  match p.handler with
  | .start =>
    match p.call.accept with
    | .error rec => some (p.record rec false, taken)
    | .ok (jobID, job) =>
      if taken < maxConcurrentJobOutputReads then
        some ({ p with handler := .lookup jobID job, events := p.events ++ [.acquire] }, taken + 1)
      else some (p.record (p.call.refusal jobID "rate_limited" 429) false, taken)
  | .lookup jobID job =>
    match p.call.findJob jobID job with
    | .error rec => some (p.record rec true, taken)
    | .ok job => some ({ p with handler := .waiting jobID, reader := .reading job }, taken)
  | .waiting jobID =>
    match p.call.r.waitContext with
    | some err => some (p.record (p.call.ended jobID err) false, taken)
    | none =>
      match p.reader.result with
      | none => none
      | some result => some (p.record (p.call.answer jobID result) false, taken)
  | .recording rec owned => some (p.audited rec owned, taken)
  | .returning reply true =>
    if taken = 0 then none
    else some ({ p with handler := .responding reply, events := p.events ++ [.release] }, taken - 1)
  | .returning reply false => some ({ p with handler := .responding reply }, taken)
  | .responding reply =>
    some ({ p with handler := .done, events := p.events ++ [.respond reply] }, taken)
  | .done => none

def readerMove (p : OutputParty) (taken : Nat) : Option (OutputParty × Nat) :=
  match p.reader with
  | .idle => none
  | .reading job =>
    some ({ p with reader := .sent (readJobOutput p.call.r job p.call.stream) }, taken)
  | .sent result =>
    if taken = 0 then none
    else some ({ p with reader := .finished result, events := p.events ++ [.release] }, taken - 1)
  | .finished _ => none

end OutputParty

def partyMove : OutputActor → OutputParty → Nat → Option (OutputParty × Nat)
  | .handler => OutputParty.handlerMove
  | .reader => OutputParty.readerMove

/-- The server: requests arrive, and handlers and readers take their steps. -/
def outputStep : Pool OutputParty → PoolAction OutputCall OutputActor → Option (Pool OutputParty) :=
  poolStep OutputParty.arrive partyMove

/-! ## What a step can do -/

/-- The steps of a request when `taken` slots are taken. -/
inductive OutputStep (p : OutputParty) (taken : Nat) : OutputParty → Nat → Prop
  | refuse {rec : Recording} : p.handler = .start → p.call.accept = .error rec →
      OutputStep p taken (p.record rec false) taken
  | limit {jobID : GoInt} {job : JobLookup} : p.handler = .start →
      p.call.accept = .ok (jobID, job) → maxConcurrentJobOutputReads ≤ taken →
      OutputStep p taken (p.record (p.call.refusal jobID "rate_limited" 429) false) taken
  | acquire {jobID : GoInt} {job : JobLookup} : p.handler = .start →
      p.call.accept = .ok (jobID, job) → taken < maxConcurrentJobOutputReads →
      OutputStep p taken { p with handler := .lookup jobID job, events := p.events ++ [.acquire] }
        (taken + 1)
  | hide {jobID : GoInt} {job : JobLookup} {rec : Recording} : p.handler = .lookup jobID job →
      p.call.findJob jobID job = .error rec → OutputStep p taken (p.record rec true) taken
  | handOff {jobID : GoInt} {lookup : JobLookup} {job : Job} : p.handler = .lookup jobID lookup →
      p.call.findJob jobID lookup = .ok job →
      OutputStep p taken { p with handler := .waiting jobID, reader := .reading job } taken
  | expire {jobID : GoInt} {err : ContextError} : p.handler = .waiting jobID →
      p.call.r.waitContext = some err →
      OutputStep p taken (p.record (p.call.ended jobID err) false) taken
  | receive {jobID : GoInt} {result : Except ReadError (List UInt8 × Bool)} :
      p.handler = .waiting jobID → p.call.r.waitContext = none → p.reader.result = some result →
      OutputStep p taken (p.record (p.call.answer jobID result) false) taken
  | audit {rec : Recording} {owned : Bool} : p.handler = .recording rec owned →
      OutputStep p taken (p.audited rec owned) taken
  | release {reply : Reply} : p.handler = .returning reply true → 0 < taken →
      OutputStep p taken { p with handler := .responding reply, events := p.events ++ [.release] }
        (taken - 1)
  | leave {reply : Reply} : p.handler = .returning reply false →
      OutputStep p taken { p with handler := .responding reply } taken
  | respond {reply : Reply} : p.handler = .responding reply →
      OutputStep p taken { p with handler := .done, events := p.events ++ [.respond reply] } taken
  | read {job : Job} : p.reader = .reading job →
      OutputStep p taken { p with reader := .sent (readJobOutput p.call.r job p.call.stream) } taken
  | finish {result : Except ReadError (List UInt8 × Bool)} : p.reader = .sent result → 0 < taken →
      OutputStep p taken { p with reader := .finished result, events := p.events ++ [.release] }
        (taken - 1)

theorem handlerMove_step {p p' : OutputParty} {taken taken' : Nat}
    (h : p.handlerMove taken = some (p', taken')) : OutputStep p taken p' taken' := by
  unfold OutputParty.handlerMove at h
  split at h
  · next hpc =>
    split at h
    · next haccept => cases h; exact .refuse hpc haccept
    · next haccept =>
      split at h
      · next htaken => cases h; exact .acquire hpc haccept htaken
      · next htaken => cases h; exact .limit hpc haccept (Nat.le_of_not_lt htaken)
  · next hpc =>
    split at h
    · next hfind => cases h; exact .hide hpc hfind
    · next hfind => cases h; exact .handOff hpc hfind
  · next hpc =>
    split at h
    · next hwait => cases h; exact .expire hpc hwait
    · next hwait =>
      split at h
      · cases h
      · next hresult => cases h; exact .receive hpc hwait hresult
  · next hpc => cases h; exact .audit hpc
  · next hpc =>
    split at h
    · cases h
    · next htaken => cases h; exact .release hpc (Nat.pos_of_ne_zero htaken)
  · next hpc => cases h; exact .leave hpc
  · next hpc => cases h; exact .respond hpc
  · cases h

theorem readerMove_step {p p' : OutputParty} {taken taken' : Nat}
    (h : p.readerMove taken = some (p', taken')) : OutputStep p taken p' taken' := by
  unfold OutputParty.readerMove at h
  split at h
  · cases h
  · next hpc => cases h; exact .read hpc
  · next hpc =>
    split at h
    · cases h
    · next htaken => cases h; exact .finish hpc (Nat.pos_of_ne_zero htaken)
  · cases h

theorem partyMove_step {m : OutputActor} {p p' : OutputParty} {taken taken' : Nat}
    (h : partyMove m p taken = some (p', taken')) : OutputStep p taken p' taken' := by
  cases m with
  | handler => exact handlerMove_step h
  | reader => exact readerMove_step h

end OpenHpcWeb.Web
