/-
  The dialog of a job's resources, internal/web/static/app.js: `pollResourceUsage`,
  `cancelResourcePolling` and `renderResourceUsage` with the handlers of the dialog.

  The variables of the script (`resourceRequestID` and the others, without their prefix) are a
  state, and each callback of the browser is a step. A request goes through its chain of `then`
  and `catch` one callback at a time, with anything in between. The `close` event of the dialog
  comes some time after `close()`.

  History, which the script does not keep: the request that a sample came with and its job, and
  whether a request was made before the last cancellation (`stale`).

  * `poll_ok`, `cancel_ok`: what a cancellation leaves, with a new request or without.
  * `Ok.step`: the invariant.
  * `resource_polling`: one request or one timer, and samples of one job.
-/
import Mathlib.Data.List.Nodup
import Mathlib.Logic.Function.Basic
import OpenHpcWeb.Lib.Run

namespace OpenHpcWeb.Web

open OpenHpcWeb.Lib

/-! ## The state -/

/-- The body of an answer. `time` is the parsed `sampled_at`, or the clock where that fails. -/
structure ResourceSample where
  totalCPUSeconds : Int
  maxRSSBytes : Int
  time : Int
  steps : List (List String)
  deriving DecidableEq

/-- An entry of `resourceHistory`. -/
structure HistorySample where
  cpu : Int
  memory : Int
  time : Int
  request : Nat
  job : String
  deriving DecidableEq

/-- Where the chain of a request stands. -/
inductive RequestPhase where
  | fetching
  | reading
  | parsed (usage : ResourceSample)
  /-- rejected, with an `AbortError` or another error -/
  | failed (abort : Bool)
  /-- only the last `then` is left -/
  | settled
  deriving DecidableEq

structure ResourceRequest where
  job : String
  aborted : Bool
  stale : Bool
  phase : RequestPhase
  deriving DecidableEq

inductive ResourceStatus where
  | initial
  | loading
  | summary (usage : ResourceSample)
  | empty
  | error
  deriving DecidableEq

structure ResourcePage where
  requestID : Nat
  timer : Option Nat
  /-- the request whose controller it is -/
  controller : Option Nat
  jobID : String
  history : List HistorySample
  status : ResourceStatus
  contentHidden : Bool
  /-- the sample whose texts are in the dialog -/
  usage : Option ResourceSample
  /-- `resourceModal.open` -/
  isOpen : Bool
  /-- the `close` events to come -/
  closing : Nat
  /-- the timers of the browser that have not fired -/
  armed : List Nat
  nextTimer : Nat
  /-- the requests by their `requestID` whose chain has not ended -/
  requests : Nat → Option ResourceRequest

namespace ResourcePage

def start : ResourcePage where
  requestID := 0
  timer := none
  controller := none
  jobID := ""
  history := []
  status := .initial
  contentHidden := true
  usage := none
  isOpen := false
  closing := 0
  armed := []
  nextTimer := 1
  requests _ := none

/-! ## The script -/

def cancelResourcePolling (s : ResourcePage) : ResourcePage :=
  { s with
    requestID := s.requestID + 1
    armed := s.armed.filter fun t => s.timer ≠ some t
    requests := fun id => (s.requests id).map fun r =>
      { r with aborted := r.aborted || s.controller = some id, stale := true }
    timer := none
    controller := none }

def clearHistory (s : ResourcePage) : ResourcePage := { s with history := [] }

def setRequest (s : ResourcePage) (id : Nat) (r : Option ResourceRequest) : ResourcePage :=
  { s with requests := Function.update s.requests id r }

/-- Puts the request `id` of the current job under way. -/
def fetch (s : ResourcePage) : ResourcePage :=
  { s with controller := some s.requestID }.setRequest s.requestID
    (some ⟨s.jobID, false, false, .fetching⟩)

def pollResourceUsage (s : ResourcePage) : ResourcePage := s.cancelResourcePolling.fetch

/-- How `renderResourceUsage` ends: well, or with an exception before or after it has changed
    the history. -/
inductive Rendering where
  | done
  | early
  | late
  deriving DecidableEq

/-- `slice(-24)` -/
def lastSamples (history : List HistorySample) : List HistorySample :=
  history.drop (history.length - 24)

def renderResourceUsage (s : ResourcePage) (id : Nat) (job : String) (usage : ResourceSample)
    (rendering : Rendering) : ResourcePage :=
  let sample : HistorySample := ⟨usage.totalCPUSeconds, usage.maxRSSBytes, usage.time, id, job⟩
  match rendering with
  | .early => s
  | .late => { s with history := lastSamples (s.history ++ [sample]), usage := some usage }
  | .done =>
    { s with
      history := lastSamples (s.history ++ [sample])
      usage := some usage
      status := if usage.steps = [] then .empty else .summary usage
      contentHidden := false }

/-- The guard of the callbacks. -/
def Current (s : ResourcePage) (id : Nat) : Prop := id = s.requestID ∧ s.isOpen = true

instance (s : ResourcePage) (id : Nat) : Decidable (s.Current id) :=
  inferInstanceAs (Decidable (_ ∧ _))

end ResourcePage

inductive ResourceAction where
  /-- a click on the trigger of a job -/
  | openDialog (job : String)
  /-- `resourceModal.close()` -/
  | closeDialog
  /-- the `close` event -/
  | closeEvent
  | headers (id : Nat) (ok : Bool)
  | body (id : Nat) (usage : ResourceSample)
  | reject (id : Nat) (abort : Bool)
  /-- the callback that renders -/
  | deliver (id : Nat) (rendering : ResourcePage.Rendering)
  /-- the callback of `catch` -/
  | recover (id : Nat)
  /-- the last callback -/
  | finish (id : Nat)
  | fire (timer : Nat)

namespace ResourcePage

/-- One callback of the chain of a request. -/
def chainStep (s : ResourcePage) (id : Nat) (r : ResourceRequest) :
    ResourceAction → Option ResourcePage
  | .headers _ ok =>
    if r.phase = .fetching then
      some (s.setRequest id (some { r with phase := if ok then .reading else .failed false }))
    else none
  | .body _ usage =>
    if r.phase = .reading then some (s.setRequest id (some { r with phase := .parsed usage }))
    else none
  | .reject _ abort =>
    if r.phase = .fetching ∨ r.phase = .reading then
      some (s.setRequest id (some { r with phase := .failed abort }))
    else none
  | .deliver _ rendering =>
    match r.phase with
    | .parsed usage =>
      if s.Current id then
        some ((s.renderResourceUsage id r.job usage rendering).setRequest id
          (some { r with phase := if rendering = .done then .settled else .failed false }))
      else some (s.setRequest id (some { r with phase := .settled }))
    | _ => none
  | .recover _ =>
    match r.phase with
    | .failed abort =>
      let s := if abort = true ∨ ¬ s.Current id then s else { s with status := .error }
      some (s.setRequest id (some { r with phase := .settled }))
    | _ => none
  | .finish _ =>
    if r.phase = .settled then
      let s := if s.Current id then
          { s with
            controller := none
            timer := some s.nextTimer
            armed := s.armed ++ [s.nextTimer]
            nextTimer := s.nextTimer + 1 }
        else s
      some (s.setRequest id none)
    else none
  | _ => none

end ResourcePage

/-- The request whose callback it is. -/
def ResourceAction.request : ResourceAction → Option Nat
  | .headers id _ => some id
  | .body id _ => some id
  | .reject id _ => some id
  | .deliver id _ => some id
  | .recover id => some id
  | .finish id => some id
  | _ => none

namespace ResourcePage

def step (s : ResourcePage) (a : ResourceAction) : Option ResourcePage :=
  match a with
  | .openDialog job =>
    some { s with
      jobID := job
      history := []
      contentHidden := true
      status := .loading
      isOpen := true }.pollResourceUsage
  | .closeDialog =>
    some (if s.isOpen then { s with isOpen := false, closing := s.closing + 1 } else s)
  | .closeEvent =>
    if 0 < s.closing then
      some { s with closing := s.closing - 1 }.cancelResourcePolling.clearHistory
    else none
  | .fire timer =>
    if timer ∈ s.armed then
      some { s with armed := s.armed.erase timer }.pollResourceUsage
    else none
  | a =>
    match a.request with
    | some id => (s.requests id).bind fun r => s.chainStep id r a
    | none => none

end ResourcePage

/-! ## What is shown -/

/-- What the dialog shows; the charts are drawn from the history. -/
structure Shown where
  isOpen : Bool
  jobID : String
  status : ResourceStatus
  contentHidden : Bool
  usage : Option ResourceSample
  history : List HistorySample
  deriving DecidableEq

/-- The chain is past the callback that renders. -/
def RequestPhase.Over : RequestPhase → Prop
  | .failed _ => True
  | .settled => True
  | _ => False

namespace ResourcePage

def shown (s : ResourcePage) : Shown :=
  ⟨s.isOpen, s.jobID, s.status, s.contentHidden, s.usage, s.history⟩

@[simp] theorem setRequest_shown (s : ResourcePage) (id : Nat) (r : Option ResourceRequest) :
    (s.setRequest id r).shown = s.shown := rfl

@[simp] theorem setRequest_self (s : ResourcePage) (id : Nat) (r : Option ResourceRequest) :
    (s.setRequest id r).requests id = r := Function.update_self ..

theorem setRequest_of_ne (s : ResourcePage) {id id' : Nat} (r : Option ResourceRequest)
    (h : id' ≠ id) : (s.setRequest id r).requests id' = s.requests id' :=
  Function.update_of_ne h ..

/-- A request is the one that was set, or it was there before. -/
theorem setRequest_cases {s : ResourcePage} {id id' : Nat} {o : Option ResourceRequest}
    {r : ResourceRequest} (h : (s.setRequest id o).requests id' = some r) :
    (id' = id ∧ o = some r) ∨ s.requests id' = some r := by
  by_cases heq : id' = id
  · subst heq
    rw [setRequest_self] at h
    exact .inl ⟨rfl, h⟩
  · rw [setRequest_of_ne s o heq] at h
    exact .inr h

/-! ## The invariant -/

/-- What a cancellation starts from. -/
structure Base (s : ResourcePage) : Prop where
  ids : ∀ id r, s.requests id = some r → id ≤ s.requestID
  live : ∀ id r, s.requests id = some r → r.aborted = false →
    id = s.requestID ∧ s.controller = some id
  timers : ∀ t ∈ s.armed, s.timer = some t
  seen : ∀ x ∈ s.history, x.request ≤ s.requestID

structure Samples (s : ResourcePage) : Prop where
  jobs : ∀ x ∈ s.history, x.job = s.jobID
  order : s.history.Pairwise fun x y => x.request < y.request

/-- What a cancellation leaves. -/
structure Cleared (s : ResourcePage) : Prop where
  ids : ∀ id r, s.requests id = some r → id < s.requestID
  aborted : ∀ id r, s.requests id = some r → r.aborted = true
  armed : s.armed = []
  seen : ∀ x ∈ s.history, x.request < s.requestID

structure Ok (s : ResourcePage) : Prop extends Base s, Samples s where
  stale : ∀ id r, s.requests id = some r → r.stale = true → id < s.requestID
  current : ∀ r, s.requests s.requestID = some r → r.job = s.jobID
  /-- a timer waits only when the request of the last cancellation is over -/
  quiet : s.armed = [] ∨ (∃ t, s.armed = [t]) ∧ s.requests s.requestID = none
  /-- a request renders at most once -/
  once : ∀ x ∈ s.history, x.request = s.requestID →
    ∀ r, s.requests s.requestID = some r → r.phase.Over

theorem ok_start : Ok start where
  ids _ _ h := nomatch h
  live _ _ h := nomatch h
  timers _ h := nomatch h
  seen _ h := nomatch h
  jobs _ h := nomatch h
  order := .nil
  stale _ _ h := nomatch h
  current _ h := nomatch h
  quiet := .inl rfl
  once _ h := nomatch h

variable {s s' : ResourcePage} {id : Nat} {r : ResourceRequest}

/-! ## Cancellation -/

theorem cancel_cleared (h : Base s) : Cleared s.cancelResourcePolling where
  ids id r hr := by
    obtain ⟨r₀, hr₀, -⟩ := Option.map_eq_some_iff.mp hr
    exact Nat.lt_succ_of_le (h.ids id r₀ hr₀)
  aborted id r hr := by
    obtain ⟨r₀, hr₀, rfl⟩ := Option.map_eq_some_iff.mp hr
    -- a request that nobody had aborted is the one of the controller
    cases haborted : r₀.aborted with
    | true => simp only [Bool.true_or]
    | false => simp only [(h.live id r₀ hr₀ haborted).2, decide_true, Bool.or_true]
  armed := by
    refine List.filter_eq_nil_iff.mpr fun t ht => ?_
    simp [h.timers t ht]
  seen x hx := Nat.lt_succ_of_le (h.seen x hx)

theorem Cleared.no_request (h : Cleared s) : s.requests s.requestID = none := by
  cases hr : s.requests s.requestID with
  | none => rfl
  | some r => exact absurd (h.ids _ _ hr) (Nat.lt_irrefl _)

theorem Cleared.ok (h : Cleared s) (hs : Samples s) : Ok s where
  ids id r hr := Nat.le_of_lt (h.ids id r hr)
  live id r hr haborted := by
    rw [h.aborted id r hr] at haborted
    cases haborted
  timers t ht := by
    rw [h.armed] at ht
    cases ht
  seen x hx := Nat.le_of_lt (h.seen x hx)
  toSamples := hs
  stale id r hr _ := h.ids id r hr
  current r hr := by
    rw [h.no_request] at hr
    cases hr
  quiet := .inl h.armed
  once x hx heq := absurd heq (Nat.ne_of_lt (h.seen x hx))

theorem Cleared.fetch (h : Cleared s) (hs : Samples s) : Ok s.fetch where
  ids id r hr := by
    rcases setRequest_cases hr with ⟨rfl, -⟩ | hold
    · exact Nat.le_refl _
    · exact Nat.le_of_lt (h.ids id r hold)
  live id r hr haborted := by
    rcases setRequest_cases hr with ⟨rfl, -⟩ | hold
    · exact ⟨rfl, rfl⟩
    · rw [h.aborted id r hold] at haborted
      cases haborted
  timers t ht := by
    have harmed : t ∈ s.armed := ht
    rw [h.armed] at harmed
    cases harmed
  seen x hx := Nat.le_of_lt (h.seen x hx)
  jobs := hs.jobs
  order := hs.order
  stale id r hr hstale := by
    rcases setRequest_cases hr with ⟨-, heq⟩ | hold
    · cases heq
      cases hstale
    · exact h.ids id r hold
  current r hr := by
    obtain rfl := Option.some.inj ((setRequest_self ..).symm.trans hr)
    rfl
  quiet := .inl h.armed
  once x hx heq := absurd heq (Nat.ne_of_lt (h.seen x hx))

theorem poll_ok (h : Base s) (hs : Samples s) : Ok s.pollResourceUsage :=
  (cancel_cleared h).fetch ⟨hs.jobs, hs.order⟩

theorem cancel_ok (h : Base s) : Ok s.cancelResourcePolling.clearHistory := by
  have hc := cancel_cleared h
  have hcleared : Cleared s.cancelResourcePolling.clearHistory :=
    ⟨hc.ids, hc.aborted, hc.armed, fun _ hx => nomatch hx⟩
  exact hcleared.ok ⟨fun _ hx => (nomatch hx), .nil⟩

/-! ## The chain of a request -/

/-- Nothing of the invariant is about the rest of what is shown. -/
theorem Ok.frame (h : Ok s) (status : ResourceStatus) (contentHidden : Bool)
    (usage : Option ResourceSample) (isOpen : Bool) (closing nextTimer : Nat) :
    Ok { s with
      status := status
      contentHidden := contentHidden
      usage := usage
      isOpen := isOpen
      closing := closing
      nextTimer := nextTimer } where
  ids := h.ids
  live := h.live
  timers := h.timers
  seen := h.seen
  jobs := h.jobs
  order := h.order
  stale := h.stale
  current := h.current
  quiet := h.quiet
  once := h.once

theorem Ok.phase (h : Ok s) (hr : s.requests id = some r) {phase : RequestPhase}
    (hphase : r.phase.Over → phase.Over) :
    Ok (s.setRequest id (some { r with phase := phase })) where
  ids id' r' hr' := by
    rcases setRequest_cases hr' with ⟨rfl, -⟩ | hold
    · exact h.ids id' r hr
    · exact h.ids id' r' hold
  live id' r' hr' haborted := by
    rcases setRequest_cases hr' with ⟨rfl, heq⟩ | hold
    · cases heq
      exact h.live id' r hr haborted
    · exact h.live id' r' hold haborted
  timers := h.timers
  seen := h.seen
  jobs := h.jobs
  order := h.order
  stale id' r' hr' hstale := by
    rcases setRequest_cases hr' with ⟨rfl, heq⟩ | hold
    · cases heq
      exact h.stale id' r hr hstale
    · exact h.stale id' r' hold hstale
  current r' hr' := by
    rcases setRequest_cases hr' with ⟨hid, heq⟩ | hold
    · cases heq
      have hid : s.requestID = id := hid
      exact h.current r (hid ▸ hr)
    · exact h.current r' hold
  quiet := by
    rcases h.quiet with harmed | ⟨harmed, hnone⟩
    · exact .inl harmed
    · have hne : s.requestID ≠ id := by
        rintro rfl
        rw [hnone] at hr
        cases hr
      exact .inr ⟨harmed, (setRequest_of_ne s _ hne).trans hnone⟩
  once x hx hreq r' hr' := by
    rcases setRequest_cases hr' with ⟨hid, heq⟩ | hold
    · cases heq
      have hid : s.requestID = id := hid
      exact hphase (h.once x hx hreq r (hid ▸ hr))
    · exact h.once x hx hreq r' hold

/-- The end of a chain. -/
theorem Ok.forget (h : Ok s) (id : Nat) : Ok (s.setRequest id none) := by
  have hold : ∀ id' r', (s.setRequest id none).requests id' = some r' →
      s.requests id' = some r' := by
    intro id' r' hr'
    rcases setRequest_cases hr' with ⟨-, heq⟩ | hold
    · cases heq
    · exact hold
  refine
    { ids := fun id' r' hr' => h.ids id' r' (hold id' r' hr')
      live := fun id' r' hr' => h.live id' r' (hold id' r' hr')
      timers := h.timers
      seen := h.seen
      jobs := h.jobs
      order := h.order
      stale := fun id' r' hr' => h.stale id' r' (hold id' r' hr')
      current := fun r' hr' => h.current r' (hold _ r' hr')
      quiet := ?_
      once := fun x hx hreq r' hr' => h.once x hx hreq r' (hold _ r' hr') }
  rcases h.quiet with harmed | ⟨harmed, hnone⟩
  · exact .inl harmed
  · refine .inr ⟨harmed, Option.eq_none_iff_forall_ne_some.mpr fun r hr => ?_⟩
    have hsome := hold s.requestID r hr
    rw [hnone] at hsome
    cases hsome

/-- Setting the timer once the chain has ended. -/
theorem Ok.arm (h : Ok s) (hnone : s.requests s.requestID = none) (harmed : s.armed = []) :
    Ok { s with
      controller := none
      timer := some s.nextTimer
      armed := s.armed ++ [s.nextTimer]
      nextTimer := s.nextTimer + 1 } where
  ids := h.ids
  live id r hr haborted := by
    have hid := (h.live id r hr haborted).1
    have hsome : s.requests s.requestID = some r := hid ▸ hr
    rw [hnone] at hsome
    cases hsome
  timers t ht := by
    rw [harmed] at ht
    rw [List.mem_singleton.mp ht]
  seen := h.seen
  jobs := h.jobs
  order := h.order
  stale := h.stale
  current := h.current
  quiet := by
    refine .inr ⟨⟨s.nextTimer, ?_⟩, hnone⟩
    rw [harmed, List.nil_append]
  once := h.once

theorem lastSamples_sublist (history : List HistorySample) :
    (lastSamples history).Sublist history := List.drop_sublist ..

/-- A sample of the current request, after those of earlier ones. -/
theorem Ok.record (h : Ok s) (hr : s.requests s.requestID = some r) (hover : r.phase.Over)
    (hbefore : ∀ x ∈ s.history, x.request < s.requestID) {sample : HistorySample}
    (hsample : sample.request = s.requestID ∧ sample.job = r.job) :
    Ok { s with history := lastSamples (s.history ++ [sample]) } := by
  have hmem : ∀ x ∈ lastSamples (s.history ++ [sample]), x ∈ s.history ∨ x = sample := by
    intro x hx
    rcases List.mem_append.mp ((lastSamples_sublist _).subset hx) with hx | hx
    · exact .inl hx
    · exact .inr (List.mem_singleton.mp hx)
  have horder : (s.history ++ [sample]).Pairwise fun x y => x.request < y.request := by
    refine List.pairwise_append.mpr ⟨h.order, List.pairwise_singleton .., fun x hx y hy => ?_⟩
    rw [List.mem_singleton.mp hy, hsample.1]
    exact hbefore x hx
  exact
    { ids := h.ids
      live := h.live
      timers := h.timers
      seen := by
        intro x hx
        rcases hmem x hx with hx | rfl
        · exact h.seen x hx
        · exact Nat.le_of_eq hsample.1
      jobs := by
        intro x hx
        rcases hmem x hx with hx | rfl
        · exact h.jobs x hx
        · exact hsample.2.trans (h.current r hr)
      order := horder.sublist (lastSamples_sublist _)
      stale := h.stale
      current := h.current
      quiet := h.quiet
      once := by
        intro x hx hreq r' hr'
        obtain rfl := Option.some.inj (hr.symm.trans hr')
        exact hover }

/-- A request that has not rendered is later than every sample. -/
theorem Ok.before (h : Ok s) (hr : s.requests s.requestID = some r) (hover : ¬ r.phase.Over) :
    ∀ x ∈ s.history, x.request < s.requestID := by
  intro x hx
  refine Nat.lt_of_le_of_ne (h.seen x hx) fun heq => ?_
  exact hover (h.once x hx heq r hr)

/-- The callback that renders, in time. -/
theorem Ok.deliver (h : Ok s) (hr : s.requests s.requestID = some r) {usage : ResourceSample}
    (hphase : r.phase = .parsed usage) (rendering : Rendering) :
    Ok ((s.renderResourceUsage s.requestID r.job usage rendering).setRequest s.requestID
      (some { r with phase := if rendering = .done then .settled else .failed false })) := by
  have hnot : ¬ r.phase.Over := by
    rw [hphase]
    exact not_false
  have hbefore := h.before hr hnot
  -- the render and the end of the callback are one step, the phase may come first
  cases rendering with
  | early => exact h.phase hr fun hover => absurd hover hnot
  | late =>
    have hset : Ok (s.setRequest s.requestID (some { r with phase := .failed false })) :=
      h.phase hr fun hover => absurd hover hnot
    exact (hset.record (setRequest_self ..) trivial hbefore ⟨rfl, rfl⟩).frame _ _ _ _ _ _
  | done =>
    have hset : Ok (s.setRequest s.requestID (some { r with phase := .settled })) :=
      h.phase hr fun hover => absurd hover hnot
    exact (hset.record (setRequest_self ..) trivial hbefore ⟨rfl, rfl⟩).frame _ _ _ _ _ _

/-- The last callback, in time. -/
theorem Ok.finish (h : Ok s) (hr : s.requests s.requestID = some r) :
    Ok ({ s with
      controller := none
      timer := some s.nextTimer
      armed := s.armed ++ [s.nextTimer]
      nextTimer := s.nextTimer + 1 }.setRequest s.requestID none) := by
  have harmed : s.armed = [] := by
    rcases h.quiet with harmed | ⟨-, hnone⟩
    · exact harmed
    · rw [hnone] at hr
      cases hr
  exact (h.forget s.requestID).arm (setRequest_self ..) harmed

/-- What a callback of the chain of a request can do. -/
inductive Callback (s : ResourcePage) (id : Nat) (r : ResourceRequest) : ResourcePage → Prop
  | phase {phase : RequestPhase} (h : r.phase.Over → phase.Over) :
      Callback s id r (s.setRequest id (some { r with phase := phase }))
  | render {usage : ResourceSample} (rendering : Rendering) (h : r.phase = .parsed usage)
      (hcurrent : s.Current id) :
      Callback s id r ((s.renderResourceUsage id r.job usage rendering).setRequest id
        (some { r with phase := if rendering = .done then .settled else .failed false }))
  | error (hcurrent : s.Current id) :
      Callback s id r ({ s with status := .error }.setRequest id
        (some { r with phase := .settled }))
  | forget : Callback s id r (s.setRequest id none)
  | arm (hcurrent : s.Current id) :
      Callback s id r ({ s with
        controller := none
        timer := some s.nextTimer
        armed := s.armed ++ [s.nextTimer]
        nextTimer := s.nextTimer + 1 }.setRequest id none)

variable {a : ResourceAction}

theorem chainStep_callback (hs : s.chainStep id r a = some s') : Callback s id r s' := by
  cases a with
  | headers _ ok =>
    obtain ⟨hphase, heq⟩ := Option.ite_none_right_eq_some.mp hs
    rw [← Option.some.inj heq]
    refine .phase fun hover => ?_
    rw [hphase] at hover
    exact hover.elim
  | body _ usage =>
    obtain ⟨hphase, heq⟩ := Option.ite_none_right_eq_some.mp hs
    rw [← Option.some.inj heq]
    refine .phase fun hover => ?_
    rw [hphase] at hover
    exact hover.elim
  | reject _ abort =>
    obtain ⟨-, heq⟩ := Option.ite_none_right_eq_some.mp hs
    rw [← Option.some.inj heq]
    exact .phase fun _ => trivial
  | deliver _ rendering =>
    cases hphase : r.phase with
    | parsed usage =>
      simp only [chainStep, hphase] at hs
      by_cases hcurrent : s.Current id
      · rw [if_pos hcurrent] at hs
        rw [← Option.some.inj hs]
        exact .render rendering hphase hcurrent
      · rw [if_neg hcurrent] at hs
        rw [← Option.some.inj hs]
        exact .phase fun _ => trivial
    | _ => simp only [chainStep, hphase, reduceCtorEq] at hs
  | recover _ =>
    cases hphase : r.phase with
    | failed abort =>
      simp only [chainStep, hphase] at hs
      rw [← Option.some.inj hs]
      by_cases hquit : abort = true ∨ ¬ s.Current id
      · rw [if_pos hquit]
        exact .phase fun _ => trivial
      · rw [if_neg hquit]
        exact .error (not_not.mp (not_or.mp hquit).2)
    | _ => simp only [chainStep, hphase, reduceCtorEq] at hs
  | finish _ =>
    obtain ⟨-, heq⟩ := Option.ite_none_right_eq_some.mp hs
    rw [← Option.some.inj heq]
    by_cases hcurrent : s.Current id
    · rw [if_pos hcurrent]
      exact .arm hcurrent
    · rw [if_neg hcurrent]
      exact .forget
  | _ => cases hs

theorem Ok.callback (h : Ok s) (hr : s.requests id = some r) (hs : Callback s id r s') :
    Ok s' := by
  cases hs with
  | phase hphase => exact h.phase hr hphase
  | render rendering hphase hcurrent =>
    obtain ⟨rfl, -⟩ := hcurrent
    exact h.deliver hr hphase rendering
  | error hcurrent =>
    have hset : Ok (s.setRequest id (some { r with phase := .settled })) :=
      h.phase hr fun _ => trivial
    exact hset.frame _ _ _ _ _ _
  | forget => exact h.forget id
  | arm hcurrent =>
    obtain ⟨rfl, -⟩ := hcurrent
    exact h.finish hr

/-- The guard of the callbacks: late ones change nothing of what is shown. -/
theorem Callback.shown (hs : Callback s id r s') (hlate : id < s.requestID) :
    s'.shown = s.shown := by
  have hnot : ¬ s.Current id := fun hcurrent => absurd hcurrent.1 (Nat.ne_of_lt hlate)
  cases hs with
  | phase => rfl
  | render _ _ hcurrent => exact absurd hcurrent hnot
  | error hcurrent => exact absurd hcurrent hnot
  | forget => rfl
  | arm hcurrent => exact absurd hcurrent hnot

/-- The callbacks of requests are those of their chains. -/
theorem step_request (ha : a.request = some id) :
    s.step a = (s.requests id).bind fun r => s.chainStep id r a := by
  cases a with
  | openDialog | closeDialog | closeEvent | fire => cases ha
  | _ => obtain rfl := Option.some.inj ha; rfl

/-! ## Every run -/

theorem Ok.step (h : Ok s) (hs : s.step a = some s') : Ok s' := by
  cases ha : a.request with
  | some id =>
    rw [step_request ha] at hs
    obtain ⟨r, hr, hchain⟩ := Option.bind_eq_some_iff.mp hs
    exact h.callback hr (chainStep_callback hchain)
  | none =>
    cases a with
    | openDialog job =>
      rw [← Option.some.inj hs]
      exact poll_ok ⟨h.ids, h.live, h.timers, fun _ hx => nomatch hx⟩
        ⟨fun _ hx => (nomatch hx), .nil⟩
    | closeDialog =>
      rw [← Option.some.inj hs]
      split
      · exact h.frame _ _ _ _ _ _
      · exact h
    | closeEvent =>
      obtain ⟨-, heq⟩ := Option.ite_none_right_eq_some.mp hs
      rw [← Option.some.inj heq]
      exact cancel_ok ⟨h.ids, h.live, h.timers, h.seen⟩
    | fire timer =>
      obtain ⟨-, heq⟩ := Option.ite_none_right_eq_some.mp hs
      rw [← Option.some.inj heq]
      have htimers : ∀ t ∈ s.armed.erase timer, s.timer = some t :=
        fun t ht => h.timers t (List.mem_of_mem_erase ht)
      exact poll_ok ⟨h.ids, h.live, htimers, h.seen⟩ ⟨h.jobs, h.order⟩
    | _ => cases ha

/-- A dialog is opened only while none is open. -/
def opensClosed (s : ResourcePage) : ResourceAction → Bool
  | .openDialog _ => !s.isOpen
  | _ => true

theorem run_ok {actions : List ResourceAction}
    (h : Run step (fun s a => opensClosed s a) start actions s) : Ok s :=
  h.invariant Ok ok_start fun _ _ _ hok _ hs => hok.step hs

/-- In every state of every run: at most one request that is not aborted is under way, or one
    timer is armed, and not both; no callback of a request made before the last cancellation
    changes what is shown; and the history has only samples of the job that is shown, in the
    order of their requests. -/
theorem resource_polling {actions : List ResourceAction} {s : ResourcePage}
    (h : Run step (fun s a => opensClosed s a) start actions s) :
    (∀ id₁ id₂ r₁ r₂, s.requests id₁ = some r₁ → s.requests id₂ = some r₂ →
      r₁.aborted = false → r₂.aborted = false → id₁ = id₂) ∧
    s.armed.length ≤ 1 ∧
    ((∃ id r, s.requests id = some r ∧ r.aborted = false) → s.armed = []) ∧
    (∀ id r a s', s.requests id = some r → r.stale = true → a.request = some id →
      s.step a = some s' → s'.shown = s.shown) ∧
    (∀ x ∈ s.history, x.job = s.jobID) ∧
    s.history.Pairwise fun x y => x.request < y.request := by
  have hok := run_ok h
  refine ⟨?_, ?_, ?_, ?_, hok.jobs, hok.order⟩
  · intro id₁ id₂ r₁ r₂ hr₁ hr₂ hlive₁ hlive₂
    exact (hok.live id₁ r₁ hr₁ hlive₁).1.trans (hok.live id₂ r₂ hr₂ hlive₂).1.symm
  · rcases hok.quiet with harmed | ⟨⟨t, harmed⟩, -⟩
    · rw [harmed]
      exact Nat.zero_le 1
    · rw [harmed]
      exact Nat.le_refl 1
  · rintro ⟨id, r, hr, hlive⟩
    rcases hok.quiet with harmed | ⟨-, hnone⟩
    · exact harmed
    · rw [← (hok.live id r hr hlive).1, hr] at hnone
      cases hnone
  · intro id r a s' hr hstale ha hs
    rw [step_request ha] at hs
    obtain ⟨r', hr', hchain⟩ := Option.bind_eq_some_iff.mp hs
    exact (chainStep_callback hchain).shown (hok.stale id r hr hstale)

/-- Two jobs one after the other; the answer for the first comes after the second is open. -/
def reopened : List ResourceAction :=
  [.openDialog "7", .headers 1 true, .closeDialog, .openDialog "8", .headers 2 true,
    .body 2 ⟨3, 4096, 1000, [["batch"]]⟩, .deliver 2 .done,
    .body 1 ⟨5, 2048, 900, []⟩, .deliver 1 .done, .finish 2]

theorem resource_polling_reopened :
    ∃ s, Run step (fun s a => opensClosed s a) start reopened s ∧
      s.history = [⟨3, 4096, 1000, 2, "8"⟩] ∧ s.armed = [1] ∧
      ∀ x ∈ s.history, x.job = s.jobID := by
  have hrun : Run step (fun s a => opensClosed s a) start reopened _ := run_exec_get rfl
  exact ⟨_, hrun, rfl, rfl, (resource_polling hrun).2.2.2.2.1⟩

end ResourcePage

end OpenHpcWeb.Web
