/-
  Job output is served only under audit (internal/web/job_output.go).

  `Decided` lists the branches of the handler with the event that each records and its answer.
  The log of a request (`served`) is its attempts to record and its answers, in order.

  * `slurmJobOutput_eq`: the branches put together are the function `slurmJobOutput`.
  * `outputStep_auditOk`: what every step keeps.
  * `job_output_audited`: an answered request has attempted to record once, before its answer;
    the content is in the answer only if a success was recorded and the user may see the job.
-/
import OpenHpcWeb.Web.JobOutputSlots

namespace OpenHpcWeb.Web

open OpenHpcWeb.Go OpenHpcWeb.Cluster OpenHpcWeb.Platform OpenHpcWeb.Lib

/-! ## The branches -/

/-- The branches of the handler: what it records, and its answer after the record. -/
inductive Decided (call : OutputCall) : Recording → Prop
  | refused {rec : Recording} : call.accept = .error rec → Decided call rec
  | limited {jobID : GoInt} {lookup : JobLookup} : call.accept = .ok (jobID, lookup) →
      Decided call (call.refusal jobID "rate_limited" 429)
  | hidden {jobID : GoInt} {lookup : JobLookup} {rec : Recording} :
      call.accept = .ok (jobID, lookup) → call.findJob jobID lookup = .error rec → Decided call rec
  | ended {jobID : GoInt} {lookup : JobLookup} {job : Job} {err : ContextError} :
      call.accept = .ok (jobID, lookup) → call.findJob jobID lookup = .ok job →
      call.r.waitContext = some err → Decided call (call.ended jobID err)
  | answered {jobID : GoInt} {lookup : JobLookup} {job : Job} :
      call.accept = .ok (jobID, lookup) → call.findJob jobID lookup = .ok job →
      call.r.waitContext = none →
      Decided call (call.answer jobID (readJobOutput call.r job call.stream))

namespace OutputCall

variable {call : OutputCall}

/-- The call's job: the one that the provider has for the ID, which the user may access. -/
def Found (call : OutputCall) (jobID : GoInt) (job : Job) : Prop :=
  ∃ lookup, call.accept = .ok (jobID, lookup) ∧ call.findJob jobID lookup = .ok job

theorem accept_ok {jobID : GoInt} {lookup : JobLookup} (h : call.accept = .ok (jobID, lookup)) :
    parsePositiveJobID call.id = .ok jobID ∧ (call.stream = "stdout" ∨ call.stream = "stderr") ∧
      call.provider = some lookup := by
  unfold accept at h
  dsimp only at h
  cases hid : parsePositiveJobID call.id with
  | error err => rw [hid] at h; cases h
  | ok id =>
    rw [hid] at h
    dsimp only at h
    split at h
    · cases h
    next hstream =>
    cases hprovider : call.provider with
    | none => rw [hprovider] at h; cases h
    | some job =>
      rw [hprovider] at h
      cases h
      refine ⟨rfl, ?_, rfl⟩
      by_contra hno
      exact hstream (not_or.mp hno)

theorem findJob_ok {jobID : GoInt} {lookup : JobLookup} {job : Job}
    (h : call.findJob jobID lookup = .ok job) :
    lookup jobID = .ok (some job) ∧ job.id = formatInt jobID ∧
      canAccessJob call.r.principal job = true := by
  unfold findJob at h
  cases hlookup : lookup jobID with
  | error err => rw [hlookup] at h; cases h
  | ok found =>
    cases found with
    | none => rw [hlookup] at h; cases h
    | some job' =>
      rw [hlookup] at h
      dsimp only at h
      split at h
      · cases h
      next hid =>
      split at h
      · cases h
      next haccess =>
      cases h
      exact ⟨rfl, not_not.mp hid, not_not.mp haccess⟩

/-- A branch that refuses: neither a success nor an answer with status 200. -/
def Refuses (call : OutputCall) (rec : Recording) : Prop :=
  rec.outcome ≠ "success" ∧ ∃ status, status ≠ 200 ∧ rec.reply = httpError call.r status

theorem refuses_refusal (jobID : GoInt) {outcome : String} {status : Nat}
    (houtcome : outcome ≠ "success") (hstatus : status ≠ 200) :
    call.Refuses (call.refusal jobID outcome status) :=
  ⟨houtcome, status, hstatus, rfl⟩

theorem accept_error {rec : Recording} (h : call.accept = .error rec) : call.Refuses rec := by
  unfold accept at h
  dsimp only at h
  split at h
  · cases h
    exact ⟨by simp, 400, by decide, rfl⟩
  split at h
  · cases h
    exact ⟨by simp, 400, by decide, rfl⟩
  split at h
  · cases h
    exact refuses_refusal _ (by simp) (by decide)
  · cases h

theorem findJob_error {jobID : GoInt} {lookup : JobLookup} {rec : Recording}
    (h : call.findJob jobID lookup = .error rec) : call.Refuses rec := by
  unfold findJob at h
  split at h
  · cases h
    exact refuses_refusal _ (by simp) (by decide)
  · cases h
    exact refuses_refusal _ (by simp) (by decide)
  split at h
  · cases h
    exact refuses_refusal _ (by simp) (by decide)
  split at h
  · cases h
    exact refuses_refusal _ (by simp) (by decide)
  · cases h

theorem refuses_ended (jobID : GoInt) (err : ContextError) :
    call.Refuses (call.ended jobID err) := by
  cases err with
  | canceled => exact refuses_refusal _ (by simp [contextOutcome]) (by decide)
  | deadlineExceeded => exact refuses_refusal _ (by simp [contextOutcome]) (by decide)

/-- A branch that serves: a success, and the content that the reader has of a job which the user
    may access. -/
def Serves (call : OutputCall) (rec : Recording) : Prop :=
  rec.outcome = "success" ∧ ∃ jobID job content truncated, call.Found jobID job ∧
    readJobOutput call.r job call.stream = .ok (content, truncated) ∧
    rec.reply = outputReply content truncated

/-- The log entry of the attempt to record. -/
def auditOf (call : OutputCall) (rec : Recording) : OutputEvent :=
  .audit (call.event rec) (call.recorded rec)

/-- The answer of a branch: without the record it is 503. -/
def replyOf (call : OutputCall) (rec : Recording) : Reply :=
  if call.recorded rec then rec.reply else httpError call.r 503

end OutputCall

open OutputCall

theorem Decided.verdict {call : OutputCall} {rec : Recording} (h : Decided call rec) :
    call.Refuses rec ∨ call.Serves rec := by
  cases h with
  | refused haccept => exact .inl (accept_error haccept)
  | limited _ => exact .inl (refuses_refusal _ (by simp) (by decide))
  | hidden _ hfind => exact .inl (findJob_error hfind)
  | ended _ _ _ => exact .inl (refuses_ended _ _)
  | @answered jobID lookup job haccept hfind _ =>
    cases hread : readJobOutput call.r job call.stream with
    | error err =>
      cases err with
      | context err => exact .inl (refuses_ended _ _)
      | other reason => exact .inl (refuses_refusal _ (by simp) (by decide))
    | ok result =>
      obtain ⟨content, truncated⟩ := result
      exact .inr ⟨rfl, jobID, job, content, truncated, ⟨lookup, haccept, hfind⟩, hread, rfl⟩

/-- What `slurmJobOutput` makes of a branch. -/
def Recording.outcomeOf (rec : Recording) (r : JobRequest) (effects : List JobEffect)
    (slots : JobSlots) : JobOutcome :=
  recordJobOutput r rec.action rec.outcome rec.reply effects slots

theorem replyOf_eq (call : OutputCall) (rec : Recording) (effects : List JobEffect)
    (slots : JobSlots) :
    call.replyOf rec = (rec.outcomeOf call.r effects slots).reply := by
  show (if (call.r.auditFault (call.event rec)).isNone then rec.reply else httpError call.r 503) =
    if (call.r.auditFault (call.event rec)).isSome then httpError call.r 503 else rec.reply
  cases call.r.auditFault (call.event rec) <;> rfl

/-- The function of one request is the branches put together. -/
theorem slurmJobOutput_eq (call : OutputCall) {queue : Option Queue}
    (hqueue : call.provider = queue.map Queue.job) (slots : JobSlots) :
    slurmJobOutput call.r queue slots call.id call.stream =
      match call.accept with
      | .error rec => rec.outcomeOf call.r [] slots
      | .ok (jobID, lookup) =>
        if slots.output ≥ maxConcurrentJobOutputReads then
          (call.refusal jobID "rate_limited" 429).outcomeOf call.r [] slots
        else
          match call.findJob jobID lookup with
          | .error rec => rec.outcomeOf call.r [] slots
          | .ok job =>
            match call.r.waitContext with
            | some err => (call.ended jobID err).outcomeOf call.r
                [.readJobOutput job call.stream] { slots with output := slots.output + 1 }
            | none => (call.answer jobID (readJobOutput call.r job call.stream)).outcomeOf call.r
                [.readJobOutput job call.stream] slots := by
  unfold slurmJobOutput accept
  dsimp only
  cases parsePositiveJobID call.id with
  | error err => rfl
  | ok jobID =>
    dsimp only
    by_cases hstream : call.stream ≠ "stdout" ∧ call.stream ≠ "stderr"
    · rw [if_pos hstream, if_pos hstream]
      rfl
    rw [if_neg hstream, if_neg hstream, hqueue]
    cases queue with
    | none => rfl
    | some queue =>
      dsimp only [Option.map_some]
      by_cases hslots : slots.output ≥ maxConcurrentJobOutputReads
      · rw [if_pos hslots, if_pos hslots]
        rfl
      rw [if_neg hslots, if_neg hslots]
      unfold findJob
      cases queue.job jobID with
      | error err => rfl
      | ok found =>
        cases found with
        | none => rfl
        | some job =>
          dsimp only
          by_cases hid : job.id ≠ formatInt jobID
          · rw [if_pos hid, if_pos hid]
            rfl
          rw [if_neg hid, if_neg hid]
          by_cases haccess : ¬ canAccessJob call.r.principal job
          · rw [if_pos haccess, if_pos haccess]
            rfl
          rw [if_neg haccess, if_neg haccess]
          unfold answerJobOutput
          dsimp only
          cases call.r.waitContext with
          | some err => rfl
          | none =>
            dsimp only
            cases readJobOutput call.r job call.stream with
            | ok result => rfl
            | error err => cases err <;> rfl

/-- Each branch is the one that the function takes for some number of taken slots. -/
theorem Decided.alone {call : OutputCall} {rec : Recording} (h : Decided call rec)
    {queue : Option Queue} (hqueue : call.provider = queue.map Queue.job) :
    ∃ slots effects slots', slurmJobOutput call.r queue slots call.id call.stream =
      rec.outcomeOf call.r effects slots' := by
  cases h with
  | refused haccept =>
    exact ⟨⟨0, 0⟩, [], ⟨0, 0⟩, by rw [slurmJobOutput_eq call hqueue, haccept]⟩
  | @limited jobID lookup haccept =>
    refine ⟨⟨4, 0⟩, [], ⟨4, 0⟩, ?_⟩
    rw [slurmJobOutput_eq call hqueue, haccept]
    rfl
  | hidden haccept hfind =>
    refine ⟨⟨0, 0⟩, [], ⟨0, 0⟩, ?_⟩
    simp only [slurmJobOutput_eq call hqueue, haccept, hfind]
    rfl
  | @ended jobID lookup job err haccept hfind hwait =>
    refine ⟨⟨0, 0⟩, [.readJobOutput job call.stream], ⟨1, 0⟩, ?_⟩
    simp only [slurmJobOutput_eq call hqueue, haccept, hfind, hwait]
    rfl
  | @answered jobID lookup job haccept hfind hwait =>
    refine ⟨⟨0, 0⟩, [.readJobOutput job call.stream], ⟨0, 0⟩, ?_⟩
    simp only [slurmJobOutput_eq call hqueue, haccept, hfind, hwait]
    rfl

/-! ## The log of a request -/

/-- Attempts to record, and answers. -/
def OutputEvent.isServed : OutputEvent → Bool
  | .audit _ _ | .respond _ => true
  | .acquire | .release => false

namespace OutputParty

def served (p : OutputParty) : List OutputEvent := p.events.filter OutputEvent.isServed

end OutputParty

open OutputParty

/-- Where a handler is, and what stands in the log so far. -/
def HandlerPc.AuditOk (p : OutputParty) : HandlerPc → Prop
  | .start => p.served = []
  | .lookup jobID find => p.served = [] ∧ p.call.accept = .ok (jobID, find)
  | .waiting jobID => p.served = [] ∧ ∃ job, p.call.Found jobID job
  | .recording rec _ => p.served = [] ∧ Decided p.call rec
  | .returning reply _ | .responding reply =>
    ∃ rec, Decided p.call rec ∧ p.served = [p.call.auditOf rec] ∧ reply = p.call.replyOf rec
  | .done =>
    ∃ rec, Decided p.call rec ∧ p.served = [p.call.auditOf rec, .respond (p.call.replyOf rec)]

/-- What a reader reads and sends. -/
def ReaderPc.ReadOk (call : OutputCall) : ReaderPc → Prop
  | .idle => True
  | .reading job => ∃ jobID, call.Found jobID job
  | .sent result | .finished result =>
    ∃ jobID job, call.Found jobID job ∧ result = readJobOutput call.r job call.stream

structure OutputParty.AuditOk (p : OutputParty) : Prop where
  handler : p.handler.AuditOk p
  reader : p.reader.ReadOk p.call

theorem auditOk_arrive (call : OutputCall) : (arrive call).AuditOk where
  handler := rfl
  reader := trivial

theorem served_concat (p : OutputParty) (handler : HandlerPc) (e : OutputEvent) :
    served { p with handler := handler, events := p.events ++ [e] } =
      p.served ++ [e].filter OutputEvent.isServed :=
  List.filter_append _ _

/-- The handler decides while nothing is in the log. -/
theorem OutputParty.AuditOk.record {p : OutputParty} (h : p.AuditOk) (hserved : p.served = [])
    {rec : Recording} (hdecided : Decided p.call rec) (owned : Bool) :
    (p.record rec owned).AuditOk where
  handler := ⟨hserved, hdecided⟩
  reader := h.reader

/-- The handler's part looks at the call and the log alone. -/
theorem HandlerPc.AuditOk.congr {p p' : OutputParty} {pc : HandlerPc} (h : pc.AuditOk p)
    (hcall : p'.call = p.call) (hserved : p'.served = p.served) : pc.AuditOk p' := by
  cases pc with
  | start => exact hserved.trans h
  | lookup jobID find => exact ⟨hserved.trans h.1, by rw [hcall]; exact h.2⟩
  | waiting jobID => exact ⟨hserved.trans h.1, by rw [hcall]; exact h.2⟩
  | recording rec owned => exact ⟨hserved.trans h.1, by rw [hcall]; exact h.2⟩
  | returning reply owned =>
    obtain ⟨rec, hdecided, hlog, hreply⟩ := h
    exact ⟨rec, hcall ▸ hdecided, by rw [hserved, hcall]; exact hlog, by rw [hcall]; exact hreply⟩
  | responding reply =>
    obtain ⟨rec, hdecided, hlog, hreply⟩ := h
    exact ⟨rec, hcall ▸ hdecided, by rw [hserved, hcall]; exact hlog, by rw [hcall]; exact hreply⟩
  | done =>
    obtain ⟨rec, hdecided, hlog⟩ := h
    exact ⟨rec, hcall ▸ hdecided, by rw [hserved, hcall]; exact hlog⟩

/-- What is in the channel is what the reader read. -/
theorem ReaderPc.ReadOk.result {call : OutputCall} {pc : ReaderPc}
    {result : Except ReadError (List UInt8 × Bool)} (h : pc.ReadOk call)
    (hresult : pc.result = some result) :
    ∃ jobID job, call.Found jobID job ∧ result = readJobOutput call.r job call.stream := by
  cases pc with
  | idle => cases hresult
  | reading job => cases hresult
  | sent sent => cases hresult; exact h
  | finished sent => cases hresult; exact h

/-- One step keeps the order of the log. -/
theorem outputStep_auditOk {p p' : OutputParty} {taken taken' : Nat}
    (h : OutputStep p taken p' taken') (hp : p.AuditOk) : p'.AuditOk := by
  have hhandler := hp.handler
  cases h with
  | refuse hpc haccept =>
    rw [hpc] at hhandler
    exact hp.record hhandler (.refused haccept) false
  | limit hpc haccept _ =>
    rw [hpc] at hhandler
    exact hp.record hhandler (.limited haccept) false
  | @acquire jobID job hpc haccept _ =>
    rw [hpc] at hhandler
    exact ⟨⟨(served_concat p _ _).trans (by rw [hhandler]; rfl), haccept⟩, hp.reader⟩
  | hide hpc hfind =>
    rw [hpc] at hhandler
    exact hp.record hhandler.1 (.hidden hhandler.2 hfind) true
  | @handOff jobID lookup job hpc hfind =>
    rw [hpc] at hhandler
    have hfound : p.call.Found jobID job := ⟨lookup, hhandler.2, hfind⟩
    exact ⟨⟨hhandler.1, job, hfound⟩, ⟨jobID, hfound⟩⟩
  | expire hpc hwait =>
    rw [hpc] at hhandler
    obtain ⟨hserved, job, lookup, haccept, hfind⟩ := hhandler
    exact hp.record hserved (.ended haccept hfind hwait) false
  | @receive jobID result hpc hwait hresult =>
    rw [hpc] at hhandler
    obtain ⟨hserved, job', lookup', haccept', -⟩ := hhandler
    obtain ⟨jobID', job, ⟨lookup, haccept, hfind⟩, rfl⟩ := hp.reader.result hresult
    -- the reader read for the ID that the handler waits with
    have hsame : jobID' = jobID := by
      rw [haccept] at haccept'
      cases haccept'
      rfl
    subst hsame
    exact hp.record hserved (.answered haccept hfind hwait) false
  | @audit rec owned hpc =>
    rw [hpc] at hhandler
    obtain ⟨hserved, hdecided⟩ := hhandler
    refine ⟨⟨rec, hdecided, ?_, rfl⟩, hp.reader⟩
    exact (served_concat p _ _).trans (by rw [hserved]; rfl)
  | @release reply hpc _ =>
    rw [hpc] at hhandler
    obtain ⟨rec, hdecided, hserved, hreply⟩ := hhandler
    refine ⟨⟨rec, hdecided, ?_, hreply⟩, hp.reader⟩
    exact (served_concat p _ _).trans (by rw [hserved]; rfl)
  | leave hpc =>
    rw [hpc] at hhandler
    exact ⟨hhandler, hp.reader⟩
  | @respond reply hpc =>
    rw [hpc] at hhandler
    obtain ⟨rec, hdecided, hserved, hreply⟩ := hhandler
    refine ⟨⟨rec, hdecided, ?_⟩, hp.reader⟩
    exact (served_concat p _ _).trans (by rw [hserved, hreply]; rfl)
  | @read job hpc =>
    have hreader := hp.reader
    rw [hpc] at hreader
    obtain ⟨jobID, hfound⟩ := hreader
    exact ⟨hhandler.congr rfl rfl, ⟨jobID, job, hfound, rfl⟩⟩
  | @finish result hpc _ =>
    have hreader := hp.reader
    rw [hpc] at hreader
    refine ⟨hhandler.congr rfl ?_, hreader⟩
    exact (List.filter_append _ _).trans (List.append_nil _)

theorem auditOk_reachable {acts : List (PoolAction OutputCall OutputActor)}
    {s : Pool OutputParty} (hrun : Run outputStep (fun _ _ => True) Pool.empty acts s) :
    ∀ p ∈ s.parties, p.AuditOk := by
  have haccounts : Accounts arrive partyMove (fun p => p.SlotOk ∧ p.AuditOk) held
      maxConcurrentJobOutputReads := by
    constructor
    · intro call
      exact ⟨⟨slotOk_arrive call, auditOk_arrive call⟩, rfl⟩
    · intro m p taken p' taken' hp _ hcap h
      obtain ⟨hslot, htokens⟩ := outputStep_slotOk (partyMove_step h) hp.1 hcap
      exact ⟨⟨hslot, outputStep_auditOk (partyMove_step h) hp.2⟩, htokens⟩
  intro p hp
  exact ((haccounts.reachable hrun).parties p hp).2

/-- Before its answer a request has attempted to record at most once. -/
theorem OutputParty.AuditOk.pending {p : OutputParty} (h : p.AuditOk) (hdone : p.handler ≠ .done) :
    p.served = [] ∨ ∃ event recorded, p.served = [.audit event recorded] := by
  have hhandler := h.handler
  cases hpc : p.handler with
  | start => rw [hpc] at hhandler; exact .inl hhandler
  | lookup jobID find => rw [hpc] at hhandler; exact .inl hhandler.1
  | waiting jobID => rw [hpc] at hhandler; exact .inl hhandler.1
  | recording rec owned => rw [hpc] at hhandler; exact .inl hhandler.1
  | returning reply owned =>
    rw [hpc] at hhandler
    obtain ⟨rec, -, hserved, -⟩ := hhandler
    exact .inr ⟨_, _, hserved⟩
  | responding reply =>
    rw [hpc] at hhandler
    obtain ⟨rec, -, hserved, -⟩ := hhandler
    exact .inr ⟨_, _, hserved⟩
  | done => exact absurd hpc hdone

/-- The answer has the content, or its status is 200. -/
def Reply.HasContent (reply : Reply) : Prop :=
  reply.status = 200 ∨ ∃ content, reply.body = .blob content

theorem httpError_hasContent {r : JobRequest} {status : Nat} (h : status ≠ 200) :
    ¬ (httpError r status).HasContent := by
  rintro (hstatus | ⟨content, hbody⟩)
  · exact h hstatus
  · cases hbody

/-- In every run of requests, whatever each of them meets: a request that has not answered has
    attempted to record at most once, and one that has answered exactly once, before its answer.
    The answer has content or status 200 only if an event with the outcome success was recorded;
    then it is the content of a job that the provider has for the ID and the user may access.
    With any other answer the recorded event has another outcome, and without a record the
    answer is an error without content. -/
theorem job_output_audited {acts : List (PoolAction OutputCall OutputActor)}
    {s : Pool OutputParty} (hrun : Run outputStep (fun _ _ => True) Pool.empty acts s)
    {p : OutputParty} (hp : p ∈ s.parties) :
    (p.handler ≠ .done →
      p.served = [] ∨ ∃ event recorded, p.served = [.audit event recorded]) ∧
    (p.handler = .done → ∃ event recorded reply,
      p.served = [.audit event recorded, .respond reply] ∧
      event.actor = p.call.r.principal.username ∧
      (reply.HasContent → recorded = true ∧ event.outcome = "success" ∧ reply.status = 200 ∧
        ∃ jobID lookup job content truncated, parsePositiveJobID p.call.id = .ok jobID ∧
          p.call.provider = some lookup ∧ lookup jobID = .ok (some job) ∧
          (p.call.r.principal.role = .admin ∨ job.user = p.call.r.principal.username) ∧
          readJobOutput p.call.r job p.call.stream = .ok (content, truncated) ∧
          reply.body = .blob content) ∧
      (recorded = true → ¬ reply.HasContent → event.outcome ≠ "success") ∧
      (recorded = false → reply = httpError p.call.r 503 ∧ ¬ reply.HasContent)) := by
  have hok := auditOk_reachable hrun p hp
  refine ⟨hok.pending, fun hdone => ?_⟩
  have hhandler := hok.handler
  rw [hdone] at hhandler
  obtain ⟨rec, hdecided, hserved⟩ := hhandler
  refine ⟨p.call.event rec, p.call.recorded rec, p.call.replyOf rec, hserved, rfl, ?_⟩
  have hunrecorded : ¬ (httpError p.call.r 503).HasContent := httpError_hasContent (by decide)
  unfold replyOf
  cases hrecorded : p.call.recorded rec with
  | false =>
    rw [if_neg (by decide)]
    exact ⟨fun hcontent => absurd hcontent hunrecorded, fun h => absurd h (by decide),
      fun _ => ⟨rfl, hunrecorded⟩⟩
  | true =>
    rw [if_pos rfl]
    rcases hdecided.verdict with hrefuses | hserves
    · obtain ⟨houtcome, status, hstatus, hreply⟩ := hrefuses
      have hno : ¬ rec.reply.HasContent := by
        rw [hreply]
        exact httpError_hasContent hstatus
      exact ⟨fun hcontent => absurd hcontent hno, fun _ _ => houtcome,
        fun h => absurd h (by decide)⟩
    · obtain ⟨houtcome, jobID, job, content, truncated, ⟨lookup, haccept, hfind⟩, hread, hreply⟩ :=
        hserves
      obtain ⟨hid, -, hprovider⟩ := accept_ok haccept
      obtain ⟨hlookup, -, haccess⟩ := findJob_ok hfind
      have hmay : p.call.r.principal.role = .admin ∨
          job.user = p.call.r.principal.username := by
        simpa [canAccessJob] using haccess
      have hstatus : rec.reply.status = 200 := by
        rw [hreply]
        rfl
      have hbody : rec.reply.body = .blob content := by
        rw [hreply]
        rfl
      exact ⟨fun _ => ⟨rfl, houtcome, hstatus, jobID, lookup, job, content, truncated, hid,
          hprovider, hlookup, hmay, hread, hbody⟩,
        fun _ hno => absurd (.inl hstatus) hno, fun h => absurd h (by decide)⟩

/-- With the Slurm client as the provider a request answers as `slurmJobOutput` does, whatever
    runs beside it. -/
theorem answered_alone {acts : List (PoolAction OutputCall OutputActor)} {s : Pool OutputParty}
    (hrun : Run outputStep (fun _ _ => True) Pool.empty acts s) {p : OutputParty}
    (hp : p ∈ s.parties) (hdone : p.handler = .done) {queue : Option Queue}
    (hqueue : p.call.provider = queue.map Queue.job) : ∃ slots event recorded effects,
      let outcome := slurmJobOutput p.call.r queue slots p.call.id p.call.stream
      p.served = [.audit event recorded, .respond outcome.reply] ∧
        outcome.effects = effects ++ [.audit event] := by
  have hhandler := (auditOk_reachable hrun p hp).handler
  rw [hdone] at hhandler
  obtain ⟨rec, hdecided, hserved⟩ := hhandler
  obtain ⟨slots, effects, slots', halone⟩ := hdecided.alone hqueue
  refine ⟨slots, p.call.event rec, p.call.recorded rec, effects, ?_⟩
  dsimp only
  rw [halone, ← replyOf_eq]
  exact ⟨hserved, rfl⟩

/-- Alice reads the output of her job. -/
def aliceOutputCall : OutputCall where
  r := { aliceRequest with readJobOutputAsUser := fun _ _ _ => .ok ([104, 105], false) }
  provider := some fun _ => .ok (some (plainJob "7" "alice"))
  id := "7"
  stream := "stdout"

/-- The handler waits for the reader, then records and answers. -/
def aliceOutputActs : List (PoolAction OutputCall OutputActor) :=
  [.join aliceOutputCall, .move 0 .handler, .move 0 .handler, .move 0 .reader, .move 0 .handler,
    .move 0 .handler, .move 0 .handler, .move 0 .handler]

theorem aliceOutputActs_run :
    (exec outputStep (fun _ _ => true) Pool.empty aliceOutputActs).isSome := by
  decide +kernel

theorem job_output_audited_alice :
    let s := (exec outputStep (fun _ _ => true) Pool.empty aliceOutputActs).get aliceOutputActs_run
    ∃ p ∈ s.parties, p.handler = .done ∧ ∃ event recorded reply,
      p.served = [.audit event recorded, .respond reply] ∧
      (reply.HasContent → recorded = true ∧ event.outcome = "success" ∧ reply.status = 200) := by
  intro s
  have hlength : 0 < s.parties.length := by decide +kernel
  have hmem : s.parties[0] ∈ s.parties := List.getElem_mem hlength
  have h := job_output_audited ((run_exec_get aliceOutputActs_run).mono fun _ _ _ => trivial) hmem
  have hdone : s.parties[0].handler = .done := rfl
  obtain ⟨event, recorded, reply, hserved, -, hcontent, -⟩ := h.2 hdone
  refine ⟨s.parties[0], hmem, hdone, event, recorded, reply, hserved, fun hc => ?_⟩
  obtain ⟨hrecorded, houtcome, hstatus, -⟩ := hcontent hc
  exact ⟨hrecorded, houtcome, hstatus⟩

end OpenHpcWeb.Web
