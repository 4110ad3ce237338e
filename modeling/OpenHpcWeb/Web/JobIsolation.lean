/-
  What a user who is no administrator learns about the jobs of others: nothing.

  A request reads one queue. Two queues look the same to a user (`SameOwnJobs`) when both fail
  or both hold the same jobs of that user in the same order. Each handler but the list asks
  for one job, and for such queues the two answers are the same job of the user, or two that
  the handler does not tell apart (`SameAnswer`): it has one answer, one record and one slot
  account for a job that does not exist and a job of somebody else.

  * `jobs_isolated`: on two queues that look the same to the user a request has the same
    outcome; the jobs that its effects name are the user's.
  * `visits_isolated`: so have requests one after the other, each with its own two queues.
-/
import Mathlib.Data.List.Forall2
import OpenHpcWeb.Web.Jobs

namespace OpenHpcWeb.Web

open OpenHpcWeb.Go OpenHpcWeb.Cluster OpenHpcWeb.Platform

/-! ## Queues -/

/-- The jobs that a queue holds: none, if it failed or there is no provider. -/
def queueJobs : Option Queue → List Job
  | some (.ok jobs) => jobs
  | _ => []

def UniqueJobIDs (queue : Option Queue) : Prop := ((queueJobs queue).map Job.id).Nodup

instance (queue : Option Queue) : Decidable (UniqueJobIDs queue) :=
  inferInstanceAs (Decidable (List.Nodup _))

/-- The part of a queue that is a user's: whether there is a provider, whether it answers, and
    the user's jobs. -/
def ownQueue (username : String) (queue : Option Queue) : Option (Option (List Job)) :=
  queue.map fun
    | .error _ => none
    | .ok jobs => some (jobs.filter fun job => job.user = username)

def SameOwnJobs (username : String) (queue queue' : Option Queue) : Prop :=
  ownQueue username queue = ownQueue username queue'

instance (username : String) (queue queue' : Option Queue) :
    Decidable (SameOwnJobs username queue queue') :=
  inferInstanceAs (Decidable (_ = _))

theorem SameOwnJobs.cases {username : String} {queue queue' : Option Queue}
    (h : SameOwnJobs username queue queue') :
    (queue = none ∧ queue' = none) ∨
      (∃ err err', queue = some (.error err) ∧ queue' = some (.error err')) ∨
      ∃ jobs jobs', queue = some (.ok jobs) ∧ queue' = some (.ok jobs') ∧
        jobs.filter (fun job => job.user = username) =
          jobs'.filter fun job => job.user = username := by
  obtain _ | err | jobs := queue <;> obtain _ | err' | jobs' := queue' <;>
    simp_all [SameOwnJobs, ownQueue]

/-! ## One job -/

/-- Of a list in which `key` is unique, the member with one key is found among those that pass
    a test exactly when it passes the test. -/
theorem find?_filter_of_nodup {α β : Type} [DecidableEq β] (key : α → β) (b : β)
    (p : α → Bool) {l : List α} (h : (l.map key).Nodup) :
    (l.filter p).find? (fun x => key x = b) = (l.find? fun x => key x = b).filter p := by
  induction l with
  | nil => rfl
  | cons x l ih =>
    obtain ⟨hx, hl⟩ := List.nodup_cons.mp h
    by_cases hkey : key x = b
    · -- no later member has this key
      have hlater : (l.filter p).find? (fun y => key y = b) = none := by
        rw [List.find?_eq_none]
        intro y hy hyb
        have hyb' : key y = b := of_decide_eq_true hyb
        exact hx (List.mem_map.mpr ⟨y, (List.mem_filter.mp hy).1, hyb'.trans hkey.symm⟩)
      cases hp : p x with
      | false =>
        rw [List.filter_cons_of_neg (by simp [hp]), hlater]
        simp [hkey, Option.filter_some, hp]
      | true => simp [hkey, Option.filter_some, hp]
    · cases hp : p x <;> simp [hp, hkey, ih hl]

theorem canAccessJob_iff {identity : Principal} {job : Job} (h : identity.role ≠ .admin) :
    canAccessJob identity job = true ↔ job.user = identity.username := by
  simp [canAccessJob, h]

/-- Two answers of `Queue.job` that a user cannot tell apart: both fail, both are no job that
    the user may access, or both are one job that the user may. -/
inductive SameAnswer (identity : Principal) :
    Except String (Option Job) → Except String (Option Job) → Prop
  | failed (err err' : String) : SameAnswer identity (.error err) (.error err')
  | hidden {found found' : Option Job} : found.all (fun job => !canAccessJob identity job) →
      found'.all (fun job => !canAccessJob identity job) →
      SameAnswer identity (.ok found) (.ok found')
  | own {job : Job} : canAccessJob identity job = true →
      SameAnswer identity (.ok (some job)) (.ok (some job))

theorem sameAnswer_of_filter_eq {identity : Principal} {found found' : Option Job}
    (h : found.filter (canAccessJob identity) = found'.filter (canAccessJob identity)) :
    SameAnswer identity (.ok found) (.ok found') := by
  cases hown : found.filter (canAccessJob identity) with
  | none =>
    refine .hidden ?_ ?_
    · simpa [Option.all_eq_true, Option.filter_eq_none_iff] using hown
    · simpa [Option.all_eq_true, Option.filter_eq_none_iff] using h.symm.trans hown
  | some job =>
    obtain ⟨hfound, haccess⟩ := Option.filter_eq_some_iff.mp hown
    obtain ⟨hfound', -⟩ := Option.filter_eq_some_iff.mp (h.symm.trans hown)
    rw [hfound, hfound']
    exact .own haccess

/-- Lookups in two queues that look the same to a user. -/
theorem sameAnswer_of_filter {identity : Principal} (hrole : identity.role ≠ .admin)
    {jobs jobs' : List Job} (hunique : (jobs.map Job.id).Nodup)
    (hunique' : (jobs'.map Job.id).Nodup)
    (hsame : jobs.filter (fun job => job.user = identity.username) =
      jobs'.filter fun job => job.user = identity.username) (id : GoInt) :
    SameAnswer identity (Queue.job (.ok jobs) id) (Queue.job (.ok jobs') id) := by
  have hfilter : ∀ l : List Job, l.filter (canAccessJob identity) =
      l.filter fun job => job.user = identity.username := by
    intro l
    refine List.filter_congr fun job _ => ?_
    rw [Bool.eq_iff_iff, canAccessJob_iff hrole, decide_eq_true_iff]
  refine sameAnswer_of_filter_eq ?_
  rw [← find?_filter_of_nodup Job.id (formatInt id) (canAccessJob identity) hunique,
    ← find?_filter_of_nodup Job.id (formatInt id) (canAccessJob identity) hunique', hfilter,
    hfilter, hsame]

theorem SameOwnJobs.answers {identity : Principal} {queue queue' : Option Queue}
    (hrole : identity.role ≠ .admin) (hunique : UniqueJobIDs queue)
    (hunique' : UniqueJobIDs queue') (h : SameOwnJobs identity.username queue queue') :
    (queue = none ∧ queue' = none) ∨ ∃ q q', queue = some q ∧ queue' = some q' ∧
      ∀ id, SameAnswer identity (q.job id) (q'.job id) := by
  obtain hnone | ⟨err, err', rfl, rfl⟩ | ⟨jobs, jobs', rfl, rfl, hown⟩ := h.cases
  · exact .inl hnone
  · exact .inr ⟨_, _, rfl, rfl, fun _ => .failed err err'⟩
  · exact .inr ⟨_, _, rfl, rfl, sameAnswer_of_filter hrole hunique hunique' hown⟩

/-! ## Two runs of a handler -/

section TwoRuns

variable {a : JobApplication} {r : JobRequest} {slots : JobSlots} {queue queue' : Queue}

theorem slurmJobs_same {queue queue' : Option Queue} (hrole : r.principal.role ≠ .admin)
    (h : SameOwnJobs r.principal.username queue queue') :
    slurmJobs a r queue slots = slurmJobs a r queue' slots := by
  have hview : slurmJobsView a r queue = slurmJobsView a r queue' := by
    obtain ⟨rfl, rfl⟩ | ⟨err, err', rfl, rfl⟩ | ⟨jobs, jobs', rfl, rfl, hown⟩ := h.cases
    · rfl
    · rfl
    · simp only [slurmJobsView, filterJobsForPrincipal, if_neg hrole, hown]
  rw [slurmJobs, slurmJobs, hview]

variable (hans : ∀ id, SameAnswer r.principal (queue.job id) (queue'.job id))
include hans

theorem slurmJobResources_same (id : String) :
    slurmJobResources a r (some queue) slots id = slurmJobResources a r (some queue') slots id := by
  unfold slurmJobResources
  cases parsePositiveJobID id with
  | error _ => rfl
  | ok jobID =>
    cases a.jobResourceProvider with
    | false => rfl
    | true =>
      have h := hans jobID
      dsimp only
      generalize queue.job jobID = answer at h ⊢
      generalize queue'.job jobID = answer' at h ⊢
      cases h with
      | failed => rfl
      | own => rfl
      | @hidden found found' hf hf' =>
        cases found <;> cases found' <;> simp_all

theorem slurmJobOutput_same (id stream : String) :
    slurmJobOutput r (some queue) slots id stream =
      slurmJobOutput r (some queue') slots id stream := by
  unfold slurmJobOutput
  cases parsePositiveJobID id with
  | error _ => rfl
  | ok jobID =>
    have h := hans jobID
    dsimp only
    generalize queue.job jobID = answer at h ⊢
    generalize queue'.job jobID = answer' at h ⊢
    cases h with
    | failed => rfl
    | own => rfl
    | @hidden found found' hf hf' =>
      cases found <;> cases found' <;> simp_all

theorem slurmJobCancel_same (id : String) :
    slurmJobCancel a r (some queue) slots id = slurmJobCancel a r (some queue') slots id := by
  unfold slurmJobCancel
  cases parsePositiveJobID id with
  | error _ => rfl
  | ok jobID =>
    cases a.jobCanceler with
    | false => rfl
    | true =>
      have h := hans jobID
      dsimp only
      generalize queue.job jobID = answer at h ⊢
      generalize queue'.job jobID = answer' at h ⊢
      cases h with
      | failed => rfl
      | own => rfl
      | @hidden found found' hf hf' =>
        cases found <;> cases found' <;> simp_all [canAccessJob, canCancelJob]

end TwoRuns

/-- A request on two queues that look the same to its user. -/
theorem serveJobs_same {a : JobApplication} {r : JobRequest} {queue queue' : Option Queue}
    (hrole : r.principal.role ≠ .admin) (hunique : UniqueJobIDs queue)
    (hunique' : UniqueJobIDs queue') (hsame : SameOwnJobs r.principal.username queue queue')
    (slots : JobSlots) (route : JobRoute) :
    serveJobs a r queue slots route = serveJobs a r queue' slots route := by
  obtain ⟨rfl, rfl⟩ | ⟨q, q', rfl, rfl, hans⟩ := hsame.answers hrole hunique hunique'
  · rfl
  · cases route with
    | jobs => exact slurmJobs_same hrole hsame
    | resources id => exact slurmJobResources_same hans id
    | output id stream => exact slurmJobOutput_same hans id stream
    | cancel id => exact slurmJobCancel_same hans id

/-! ## The jobs that effects name -/

/-- The effect is on this job of the queue. -/
def JobEffect.Names (queue : Option Queue) (job : Job) : JobEffect → Prop
  | .scancel id | .sstat id => job ∈ queueJobs queue ∧ job.id = formatInt id
  | .readJobOutput read _ => job = read
  | .audit _ => False

/-- An audit record, or an effect on a job that the identity may access. -/
def JobEffect.Allowed (queue : Option Queue) (identity : Principal) (e : JobEffect) : Prop :=
  (∃ event, e = .audit event) ∨
    ∃ job ∈ queueJobs queue, canAccessJob identity job = true ∧ e.Names queue job

theorem queueJob_eq_some {queue : Queue} {id : GoInt} {job : Job}
    (h : queue.job id = .ok (some job)) :
    job ∈ queueJobs (some queue) ∧ job.id = formatInt id := by
  cases queue with
  | error err => simp [Queue.job] at h
  | ok jobs =>
    have hfind : jobs.find? (fun job => job.id = formatInt id) = some job := Except.ok.inj h
    have hid : decide (job.id = formatInt id) = true := by
      simpa using List.find?_some hfind
    exact ⟨List.mem_of_find?_eq_some hfind, of_decide_eq_true hid⟩

section Effects

variable {a : JobApplication} {r : JobRequest} {slots : JobSlots} {queue : Option Queue}
  {e : JobEffect}

theorem mem_recordJobOutput {action outcome : String} {reply : Reply} {before : List JobEffect}
    (h : e ∈ (recordJobOutput r action outcome reply before slots).effects) :
    (∃ event, e = .audit event) ∨ e ∈ before := by
  obtain h | h := List.mem_append.mp h
  · exact .inr h
  · exact .inl ⟨_, List.mem_singleton.mp h⟩

theorem slurmJobResources_allowed {id : String}
    (h : e ∈ (slurmJobResources a r queue slots id).effects) : e.Allowed queue r.principal := by
  unfold slurmJobResources at h
  split at h
  · simp at h
  next jobID _ =>
  split at h
  · next queue _ =>
    split at h
    · simp at h
    · simp at h
    · next job hfound =>
      have hjob := queueJob_eq_some hfound
      split at h
      · simp at h
      split at h
      · simp at h
      next haccess =>
      split at h
      · simp at h
      have hsstat : e = .sstat jobID := by
        split at h
        · exact List.mem_singleton.mp h
        · split at h <;> exact List.mem_singleton.mp h
      exact .inr ⟨job, hjob.1, not_not.mp haccess, hsstat ▸ hjob⟩
  · simp at h

theorem answerJobOutput_effect {jobID : GoInt} {job : Job} {stream : String}
    (h : e ∈ (answerJobOutput r slots jobID job stream).effects) :
    (∃ event, e = .audit event) ∨ e = .readJobOutput job stream := by
  unfold answerJobOutput at h
  dsimp only at h
  split at h
  · exact (mem_recordJobOutput h).imp_right List.mem_singleton.mp
  · split at h <;> exact (mem_recordJobOutput h).imp_right List.mem_singleton.mp

theorem slurmJobOutput_allowed {id stream : String}
    (h : e ∈ (slurmJobOutput r queue slots id stream).effects) : e.Allowed queue r.principal := by
  have hrecord : ∀ {action outcome : String} {reply : Reply},
      e ∈ (recordJobOutput r action outcome reply [] slots).effects →
        e.Allowed queue r.principal :=
    fun h => (mem_recordJobOutput h).elim .inl fun h => absurd h List.not_mem_nil
  unfold slurmJobOutput at h
  dsimp only at h
  split at h
  · exact hrecord h
  split at h
  · exact hrecord h
  split at h
  · exact hrecord h
  split at h
  · exact hrecord h
  split at h
  · exact hrecord h
  · exact hrecord h
  · next job hfound =>
    split at h
    · exact hrecord h
    split at h
    · exact hrecord h
    next haccess =>
    obtain he | he := answerJobOutput_effect h
    · exact .inl he
    · exact .inr ⟨job, (queueJob_eq_some hfound).1, not_not.mp haccess, he ▸ rfl⟩

theorem slurmJobCancel_allowed {id : String}
    (h : e ∈ (slurmJobCancel a r queue slots id).effects) : e.Allowed queue r.principal := by
  unfold slurmJobCancel at h
  dsimp only at h
  split at h
  · exact .inl ⟨_, List.mem_singleton.mp h⟩
  next jobID _ =>
  split at h
  · split at h
    · exact .inl ⟨_, List.mem_singleton.mp h⟩
    · exact .inl ⟨_, List.mem_singleton.mp h⟩
    · next job hfound =>
      have hjob := queueJob_eq_some hfound
      split at h
      · exact .inl ⟨_, List.mem_singleton.mp h⟩
      next hdenied =>
      have haccess : canCancelJob r.principal job = true := not_not.mp (not_or.mp hdenied).2
      have hcancel : e = .scancel jobID ∨ ∃ event, e = .audit event := by
        split at h <;>
          exact (List.mem_cons.mp h).imp_right fun h => ⟨_, List.mem_singleton.mp h⟩
      obtain he | he := hcancel
      · exact .inr ⟨job, hjob.1, haccess, he ▸ hjob⟩
      · exact .inl he
  · exact .inl ⟨_, List.mem_singleton.mp h⟩

theorem serveJobs_allowed {route : JobRoute} (h : e ∈ (serveJobs a r queue slots route).effects) :
    e.Allowed queue r.principal := by
  cases route with
  | jobs =>
    simp only [serveJobs, slurmJobs] at h
    split at h <;> simp at h
  | resources id => exact slurmJobResources_allowed h
  | output id stream => exact slurmJobOutput_allowed h
  | cancel id => exact slurmJobCancel_allowed h

/-- Where job IDs are unique an effect names one job. -/
theorem JobEffect.names_unique (hunique : UniqueJobIDs queue) {job job' : Job}
    (hjob : e.Names queue job) (hjob' : e.Names queue job') : job = job' := by
  have hinj : ∀ {x y : Job}, x ∈ queueJobs queue → y ∈ queueJobs queue → x.id = y.id → x = y :=
    fun hx hy hid => List.inj_on_of_nodup_map hunique hx hy hid
  cases e with
  | scancel id => exact hinj hjob.1 hjob'.1 (hjob.2.trans hjob'.2.symm)
  | sstat id => exact hinj hjob.1 hjob'.1 (hjob.2.trans hjob'.2.symm)
  | readJobOutput read _ => exact hjob.trans hjob'.symm
  | audit _ => exact hjob.elim

end Effects

/-! ## Isolation -/

/-- For a user who is no administrator, two queues with unique job IDs that agree on the jobs
    of that user (and on whether there is a provider and whether it fails) give a request the
    same outcome: the answer, the effects and the slots. Its effects are on jobs of the user. -/
theorem jobs_isolated (a : JobApplication) (r : JobRequest) (slots : JobSlots)
    (route : JobRoute) (queue queue' : Option Queue) (hrole : r.principal.role ≠ .admin)
    (hunique : UniqueJobIDs queue) (hunique' : UniqueJobIDs queue')
    (hsame : SameOwnJobs r.principal.username queue queue') :
    serveJobs a r queue slots route = serveJobs a r queue' slots route ∧
      ∀ e ∈ (serveJobs a r queue slots route).effects, ∀ job, e.Names queue job →
        job.user = r.principal.username := by
  refine ⟨serveJobs_same hrole hunique hunique' hsame slots route, ?_⟩
  intro e he job hnames
  obtain ⟨event, rfl⟩ | ⟨own, -, haccess, hown⟩ := serveJobs_allowed he
  · exact hnames.elim
  · rw [JobEffect.names_unique hunique hnames hown]
    exact (canAccessJob_iff hrole).mp haccess

/-- A job of which only the ID, the owner and the output matter here. -/
def plainJob (id user : String) : Job where
  id := id
  name := "run"
  user := user
  userID := wrap64 1001
  groupID := wrap64 1001
  account := "lab"
  partition := "batch"
  state := "RUNNING"
  cpuCount := wrap64 1
  elapsed := "00:01:00"
  timeLimit := "01:00:00"
  nodeCount := wrap64 1
  nodes := "n1"
  nodesOrReason := "n1"
  submitTime := "—"
  eligibleTime := "—"
  startTime := "—"
  endTime := "Unknown"
  workDir := "/home"
  stdOut := "/home/out"
  stdErr := "/home/err"
  command := "—"

/-- A request of alice on a healthy system. -/
def aliceRequest : JobRequest where
  language := "en"
  theme := "research-red"
  principal := ⟨"alice", .user⟩
  csrfToken := "token"
  now := 0
  auditFault _ := none
  jobResourceUsage id := .ok ⟨formatInt id, "", wrap64 0, wrap64 0, []⟩
  cancelJob _ := .ok ()
  readJobOutputAsUser _ _ _ := .ok ([], false)
  readerContext := none
  waitContext := none
  executeTemplate _ _ := .ok ""

/-- Bob's jobs change; alice cancels her own. -/
theorem jobs_isolated_alice :
    let queue : Option Queue := some (.ok [plainJob "7" "alice", plainJob "8" "bob"])
    let queue' : Option Queue := some (.ok [plainJob "9" "bob", plainJob "7" "alice"])
    serveJobs ⟨true, true⟩ aliceRequest queue ⟨0, 0⟩ (.cancel "7") =
        serveJobs ⟨true, true⟩ aliceRequest queue' ⟨0, 0⟩ (.cancel "7") ∧
      ∀ e ∈ (serveJobs ⟨true, true⟩ aliceRequest queue ⟨0, 0⟩ (.cancel "7")).effects, ∀ job,
        e.Names queue job → job.user = "alice" :=
  jobs_isolated ⟨true, true⟩ aliceRequest ⟨0, 0⟩ (.cancel "7") _ _ (by decide) (by decide +kernel)
    (by decide +kernel) (by decide +kernel)

example :
    let queue : Option Queue := some (.ok [plainJob "7" "alice", plainJob "8" "bob"])
    (serveJobs ⟨true, true⟩ aliceRequest queue ⟨0, 0⟩ (.cancel "7")).reply.status = 303 ∧
      (serveJobs ⟨true, true⟩ aliceRequest queue ⟨0, 0⟩ (.cancel "8")).reply.status = 404 := by
  decide +kernel

/-! ## One request after the other -/

structure JobVisit where
  request : JobRequest
  route : JobRoute
  queue : Option Queue

/-- The outcomes of requests that follow each other; each meets the slots that the one before
    it has left. -/
def serveVisits (a : JobApplication) (slots : JobSlots) : List JobVisit → List JobOutcome
  | [] => []
  | v :: visits =>
    let outcome := serveJobs a v.request v.queue slots v.route
    outcome :: serveVisits a outcome.slots visits

/-- One request of this identity, on queues that look the same to it. -/
structure SameVisit (identity : Principal) (v v' : JobVisit) : Prop where
  request : v.request = v'.request
  principal : v.request.principal = identity
  route : v.route = v'.route
  unique : UniqueJobIDs v.queue
  unique' : UniqueJobIDs v'.queue
  same : SameOwnJobs identity.username v.queue v'.queue

/-- Whatever the jobs of others do between the requests of a user, the user's outcomes are the
    same. -/
theorem visits_isolated {identity : Principal} (hrole : identity.role ≠ .admin)
    (a : JobApplication) {visits visits' : List JobVisit}
    (h : List.Forall₂ (SameVisit identity) visits visits') (slots : JobSlots) :
    serveVisits a slots visits = serveVisits a slots visits' := by
  induction h generalizing slots with
  | nil => rfl
  | @cons v v' visits visits' hv _ ih =>
    have hstep : serveJobs a v.request v.queue slots v.route =
        serveJobs a v'.request v'.queue slots v'.route := by
      rw [← hv.request, ← hv.route]
      exact serveJobs_same (hv.principal ▸ hrole) hv.unique hv.unique' (hv.principal ▸ hv.same)
        slots v.route
    simp only [serveVisits, hstep]
    rw [ih]

end OpenHpcWeb.Web
