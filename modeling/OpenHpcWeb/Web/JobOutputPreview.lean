/-
  The output preview in the dialog of a job, internal/web/static/app.js: `cancelOutputRequest`,
  `normalizeOutputLineEndings` and `renderLazyLog` with the handlers of the dialog.

  The variables of the script are a state and each callback of the browser is a step, as in the
  dialog of the resources. A request keeps the panel it was made in, since opening another job
  puts a new panel into the dialog. A panel scrolls through the log that was put there last, as
  long as nothing else is put there: a new request does not take the log away.

  * `Ok.step`: the invariant, whatever is scrolled.
  * `preview_shows_last_asked`: when the panel shows the output that was asked for last.
-/
import Mathlib.Logic.Function.Basic
import OpenHpcWeb.Lib.Run

namespace OpenHpcWeb.Web

open OpenHpcWeb.Lib

/-! ## The log -/

/-- `normalizeOutputLineEndings` -/
def normalizeOutputLineEndings : List Char → List Char
  | [] => []
  | '\r' :: '\n' :: rest => '\n' :: normalizeOutputLineEndings rest
  | '\r' :: rest => '\n' :: normalizeOutputLineEndings rest
  | c :: rest => c :: normalizeOutputLineEndings rest

example : normalizeOutputLineEndings "a\r\n\rb\n".toList = "a\n\nb\n".toList := by decide

/-- The lines that `renderLazyLog` shows of an output. -/
def outputLines (content : List Char) : List (List Char) :=
  (normalizeOutputLineEndings content).splitOn '\n'

/-- `join('\n')` -/
def joinLines (lines : List (List Char)) : List Char := ['\n'].intercalate lines

theorem joinLines_outputLines (content : List Char) :
    joinLines (outputLines content) = normalizeOutputLineEndings content :=
  List.intercalate_splitOn '\n'

theorem outputLines_ne_nil (content : List Char) : outputLines content ≠ [] :=
  List.splitOn_ne_nil '\n' _

theorem newline_mem_joinLines {lines : List (List Char)} (h : 2 ≤ lines.length) :
    '\n' ∈ joinLines lines := by
  match lines, h with
  | first :: second :: rest, _ =>
    unfold joinLines
    rw [List.intercalate_cons_cons]
    simp

/-- What the handler of `onscroll` holds. `request` is the request whose output it is, which the
    script does not keep. -/
structure OutputLog where
  lines : List (List Char)
  rendered : Nat
  request : Nat
  deriving DecidableEq

def batchSize : Nat := 220

/-- `rendered` after `renderNextBatch` -/
def OutputLog.next (log : OutputLog) : OutputLog :=
  { log with rendered := min (log.rendered + batchSize) log.lines.length }

def OutputLog.text (log : OutputLog) : List Char := joinLines (log.lines.take log.rendered)

def OutputLog.loadStatus (log : OutputLog) : String :=
  if log.rendered < log.lines.length then
    toString log.rendered ++ " / " ++ toString log.lines.length ++ " lines loaded"
  else toString log.lines.length ++ " lines loaded"

/-! ## The panel -/

/-- The texts of `detailCopyFor` that the dialog shows with an output. -/
structure OutputTexts where
  stdOut : String
  stdErr : String
  outputLoading : String
  outputError : String
  outputTruncated : String

def detailCopyFor (language : String) : OutputTexts :=
  if language = "en" then
    { stdOut := "Standard output"
      stdErr := "Standard error"
      outputLoading := "Loading output..."
      outputError := "Output could not be loaded"
      outputTruncated := "latest 256 KiB only" }
  else
    { stdOut := "标准输出"
      stdErr := "标准错误"
      outputLoading := "正在加载输出..."
      outputError := "无法加载输出内容"
      outputTruncated := "仅显示末尾 256 KiB" }

/-- The two buttons of job_modal.html. -/
inductive OutputButton where
  | stdOut
  | stdErr
  deriving DecidableEq

/-- `data-output-label` -/
def OutputButton.label (t : OutputTexts) : OutputButton → String
  | .stdOut => t.stdOut
  | .stdErr => t.stdErr

/-- A copy of job_modal.html in the dialog, as far as the preview goes. -/
structure OutputPanel where
  job : String
  disabled : OutputButton → Bool
  hidden : Bool
  title : String
  content : List Char
  status : String
  onscroll : Option OutputLog

namespace OutputPanel

def new (job : String) : OutputPanel where
  job := job
  disabled _ := false
  hidden := true
  title := ""
  content := []
  status := ""
  onscroll := none

def setDisabled (p : OutputPanel) (button : OutputButton) (value : Bool) : OutputPanel :=
  { p with disabled := Function.update p.disabled button value }

/-- `renderNextBatch` -/
def renderNextBatch (p : OutputPanel) (log : OutputLog) : OutputPanel :=
  { p with
    content := log.next.text
    status := log.next.loadStatus
    onscroll := some log.next }

def renderLazyLog (p : OutputPanel) (content : List Char) (request : Nat) : OutputPanel :=
  p.renderNextBatch ⟨outputLines content, 0, request⟩

/-- The handler of `onscroll`; `near` is whether fewer than 80 pixels are left. -/
def scroll (p : OutputPanel) (near : Bool) : OutputPanel :=
  match p.onscroll with
  | some log => if log.rendered < log.lines.length ∧ near = true then p.renderNextBatch log else p
  | none => p

/-- A request is under way. -/
def showLoading (t : OutputTexts) (p : OutputPanel) (button : OutputButton) : OutputPanel :=
  { p with
    hidden := false
    title := button.label t
    content := t.outputLoading.toList
    status := "" }

/-- An answer is rendered. -/
def showOutput (t : OutputTexts) (content : List Char) (truncated : Bool) (request : Nat)
    (p : OutputPanel) : OutputPanel :=
  { p with
    title := if truncated then p.title ++ " · " ++ t.outputTruncated else p.title }.renderLazyLog
    content request

def showError (t : OutputTexts) (p : OutputPanel) : OutputPanel :=
  { p with content := t.outputError.toList, status := "" }

end OutputPanel

/-! ## The dialog -/

/-- What the callbacks made of an answer. -/
inductive OutputOutcome where
  | shown (content : List Char) (truncated : Bool)
  | error
  /-- It came too late. -/
  | ignored
  deriving DecidableEq

/-- Where the chain of a request stands. -/
inductive OutputPhase where
  | fetching
  | reading (truncated : Bool)
  | parsed (content : List Char) (truncated : Bool)
  | failed
  | settled (outcome : OutputOutcome)
  deriving DecidableEq

structure OutputRequest where
  /-- the panel whose elements it holds -/
  panel : Nat
  job : String
  button : OutputButton
  aborted : Bool
  phase : OutputPhase
  /-- its last callback has run -/
  ended : Bool
  deriving DecidableEq

structure OutputPage where
  requestID : Nat
  /-- the request whose controller `outputAbortController` is -/
  controller : Option Nat
  /-- `jobModal.open` -/
  isOpen : Bool
  /-- the `close` events to come -/
  closing : Nat
  /-- how many panels have been put into the dialog -/
  panels : Nat
  panel : OutputPanel
  /-- the request that was made last in the panel -/
  last : Option Nat
  requests : Nat → Option OutputRequest

inductive OutputAction where
  /-- a click on the trigger of a job -/
  | openDialog (job : String)
  | askOutput (button : OutputButton)
  /-- a `scroll` event -/
  | scroll (near : Bool)
  /-- `jobModal.close()` -/
  | closeDialog
  /-- the `close` event -/
  | closeEvent
  | headers (id : Nat) (ok truncated : Bool)
  | body (id : Nat) (content : List Char)
  | reject (id : Nat)
  /-- the callback that renders -/
  | deliver (id : Nat)
  /-- the callback of `catch` -/
  | recover (id : Nat)
  /-- the last callback -/
  | finish (id : Nat)

namespace OutputPage

def start : OutputPage where
  requestID := 0
  controller := none
  isOpen := false
  closing := 0
  panels := 0
  panel := .new ""
  last := none
  requests _ := none

def cancelOutputRequest (s : OutputPage) : OutputPage :=
  { s with
    requestID := s.requestID + 1
    requests := fun id => (s.requests id).map fun r =>
      { r with aborted := r.aborted || s.controller = some id }
    controller := none }

def setRequest (s : OutputPage) (id : Nat) (r : OutputRequest) : OutputPage :=
  { s with requests := Function.update s.requests id (some r) }

/-- Something done to the elements a request holds; nobody sees those of an earlier panel. -/
def onPanel (s : OutputPage) (r : OutputRequest) (f : OutputPanel → OutputPanel) : OutputPage :=
  if r.panel = s.panels then { s with panel := f s.panel } else s

/-- The guard of the callbacks. -/
def Current (s : OutputPage) (id : Nat) : Prop := id = s.requestID ∧ s.isOpen = true

instance (s : OutputPage) (id : Nat) : Decidable (s.Current id) :=
  inferInstanceAs (Decidable (_ ∧ _))

/-- A new copy of the template for the job. -/
def openDialog (s : OutputPage) (job : String) : OutputPage :=
  { s.cancelOutputRequest with
    panels := s.panels + 1
    panel := .new job
    last := none
    isOpen := true }

def askOutput (t : OutputTexts) (s : OutputPage) (button : OutputButton) : OutputPage :=
  let s := s.cancelOutputRequest
  { s with
    controller := some s.requestID
    last := some s.requestID
    panel := (s.panel.setDisabled button true).showLoading t button }.setRequest s.requestID
    ⟨s.panels, s.panel.job, button, false, .fetching, false⟩

/-- One callback of the chain of a request. -/
def chainStep (t : OutputTexts) (s : OutputPage) (id : Nat) (r : OutputRequest) :
    OutputAction → Option OutputPage
  | .headers _ ok truncated =>
    if r.phase = .fetching then
      some (s.setRequest id { r with phase := if ok then .reading truncated else .failed })
    else none
  | .body _ content =>
    match r.phase with
    | .reading truncated => some (s.setRequest id { r with phase := .parsed content truncated })
    | _ => none
  | .reject _ =>
    match r.phase with
    | .fetching | .reading _ => some (s.setRequest id { r with phase := .failed })
    | _ => none
  | .deliver _ =>
    match r.phase with
    | .parsed content truncated =>
      if s.Current id then
        some ((s.onPanel r (·.showOutput t content truncated id)).setRequest id
          { r with phase := .settled (.shown content truncated) })
      else some (s.setRequest id { r with phase := .settled .ignored })
    | _ => none
  | .recover _ =>
    match r.phase with
    | .failed =>
      if s.Current id then
        some ((s.onPanel r (·.showError t)).setRequest id { r with phase := .settled .error })
      else some (s.setRequest id { r with phase := .settled .ignored })
    | _ => none
  | .finish _ =>
    match r.phase with
    | .settled _ =>
      if r.ended then none
      else
        let s := s.onPanel r fun p => p.setDisabled r.button false
        let s := if id = s.requestID then { s with controller := none } else s
        some (s.setRequest id { r with ended := true })
    | _ => none
  | _ => none

end OutputPage

/-- The request whose callback it is. -/
def OutputAction.request : OutputAction → Option Nat
  | .headers id _ _ => some id
  | .body id _ => some id
  | .reject id => some id
  | .deliver id => some id
  | .recover id => some id
  | .finish id => some id
  | _ => none

namespace OutputPage

def step (t : OutputTexts) (s : OutputPage) (a : OutputAction) : Option OutputPage :=
  match a with
  | .openDialog job => some (s.openDialog job)
  | .askOutput button =>
    if s.isOpen = true ∧ s.panel.disabled button = false then some (s.askOutput t button) else none
  | .scroll near => some { s with panel := s.panel.scroll near }
  | .closeDialog =>
    some (if s.isOpen then { s with isOpen := false, closing := s.closing + 1 } else s)
  | .closeEvent =>
    if 0 < s.closing then some { s with closing := s.closing - 1 }.cancelOutputRequest else none
  | a =>
    match a.request with
    | some id => (s.requests id).bind fun r => s.chainStep t id r a
    | none => none

end OutputPage

/-! ## The preview -/

/-- A request as far as the preview goes; one that is under way has no outcome yet. -/
structure AskedOutput where
  panel : Nat
  job : String
  button : OutputButton
  outcome : Option OutputOutcome
  deriving DecidableEq

def OutputPhase.outcome : OutputPhase → Option OutputOutcome
  | .settled outcome => some outcome
  | _ => none

def OutputRequest.asked (r : OutputRequest) : AskedOutput :=
  ⟨r.panel, r.job, r.button, r.phase.outcome⟩

/-- What is shown and what was asked for, without the buttons and the chains. -/
structure Preview where
  requestID : Nat
  panels : Nat
  panel : OutputPanel
  last : Option Nat
  asked : Nat → Option AskedOutput

def OutputPanel.enabled (p : OutputPanel) : OutputPanel := { p with disabled := fun _ => false }

def OutputPage.preview (s : OutputPage) : Preview where
  requestID := s.requestID
  panels := s.panels
  panel := s.panel.enabled
  last := s.last
  asked id := (s.requests id).map OutputRequest.asked

namespace Preview

def ask (v : Preview) (id : Nat) (q : AskedOutput) : Preview :=
  { v with asked := Function.update v.asked id (some q) }

def onPanel (v : Preview) (q : AskedOutput) (f : OutputPanel → OutputPanel) : Preview :=
  if q.panel = v.panels then { v with panel := f v.panel } else v

/-- What a step does to the preview. -/
inductive Step (t : OutputTexts) (v : Preview) : OutputAction → Preview → Prop
  | quiet {a : OutputAction} (h : ∀ near, a ≠ .scroll near) : Step t v a v
  | cancel : Step t v .closeEvent { v with requestID := v.requestID + 1 }
  | openDialog (job : String) : Step t v (.openDialog job)
      { v with
        requestID := v.requestID + 1
        panels := v.panels + 1
        panel := .new job
        last := none }
  | askOutput (button : OutputButton) : Step t v (.askOutput button)
      ({ v with
        requestID := v.requestID + 1
        panel := v.panel.showLoading t button
        last := some (v.requestID + 1) }.ask (v.requestID + 1)
        ⟨v.panels, v.panel.job, button, none⟩)
  | scroll (near : Bool) : Step t v (.scroll near) { v with panel := v.panel.scroll near }
  | deliver {q : AskedOutput} (content : List Char) (truncated : Bool)
      (hasked : v.asked v.requestID = some q) (hnone : q.outcome = none) :
      Step t v (.deliver v.requestID)
        ((v.onPanel q (·.showOutput t content truncated v.requestID)).ask v.requestID
          { q with outcome := some (.shown content truncated) })
  | error {q : AskedOutput} (hasked : v.asked v.requestID = some q) (hnone : q.outcome = none) :
      Step t v (.recover v.requestID)
        ((v.onPanel q (·.showError t)).ask v.requestID { q with outcome := some .error })
  | ignore {a : OutputAction} {id : Nat} {q : AskedOutput} (ha : a.request = some id)
      (hasked : v.asked id = some q) (hnone : q.outcome = none) :
      Step t v a (v.ask id { q with outcome := some .ignored })

end Preview

namespace OutputPage

variable {t : OutputTexts} {s s' : OutputPage} {a : OutputAction} {id : Nat} {r : OutputRequest}

theorem scroll_enabled (p : OutputPanel) (near : Bool) :
    (p.scroll near).enabled = p.enabled.scroll near := by
  unfold OutputPanel.scroll OutputPanel.enabled
  dsimp only
  split
  · split <;> rfl
  · rfl

theorem preview_cancel (s : OutputPage) :
    s.cancelOutputRequest.preview = { s.preview with requestID := s.requestID + 1 } := by
  have hasked : s.cancelOutputRequest.preview.asked = s.preview.asked := by
    funext id
    exact Option.map_map ..
  unfold preview at hasked ⊢
  exact congrArg (Preview.mk _ _ _ _) hasked

theorem preview_setRequest (s : OutputPage) (id : Nat) (r : OutputRequest) :
    (s.setRequest id r).preview = s.preview.ask id r.asked := by
  have hasked : (s.setRequest id r).preview.asked = (s.preview.ask id r.asked).asked := by
    funext id'
    by_cases hid : id' = id
    · subst hid
      unfold preview setRequest Preview.ask
      dsimp only
      rw [Function.update_self, Function.update_self, Option.map_some]
    · unfold preview setRequest Preview.ask
      dsimp only
      rw [Function.update_of_ne hid, Function.update_of_ne hid]
  unfold preview at hasked ⊢
  exact congrArg (Preview.mk _ _ _ _) hasked

/-- A request that goes on is asked for as before. -/
theorem preview_setRequest_same (hr : s.requests id = some r) {r' : OutputRequest}
    (h : r'.asked = r.asked) : (s.setRequest id r').preview = s.preview := by
  have hasked : s.preview.asked id = some r.asked := congrArg (Option.map _) hr
  rw [preview_setRequest, h]
  unfold Preview.ask
  rw [← hasked, Function.update_eq_self]

theorem preview_onPanel (s : OutputPage) (r : OutputRequest) {f : OutputPanel → OutputPanel}
    (g : OutputPanel → OutputPanel) (h : ∀ p, (f p).enabled = g p.enabled) :
    (s.onPanel r f).preview = s.preview.onPanel r.asked g := by
  unfold onPanel Preview.onPanel
  by_cases hpanel : r.panel = s.panels
  · rw [if_pos hpanel, if_pos (show r.asked.panel = s.preview.panels from hpanel)]
    unfold preview
    rw [← h]
  · rw [if_neg hpanel, if_neg (show ¬ r.asked.panel = s.preview.panels from hpanel)]

/-- The last callback gives the button back. -/
theorem preview_finish (hr : s.requests id = some r) :
    let s₁ := s.onPanel r (·.setDisabled r.button false)
    ((if id = s₁.requestID then { s₁ with controller := none } else s₁).setRequest id
      { r with ended := true }).preview = s.preview := by
  intro s₁
  have hpanel : s₁.preview = s.preview := by
    have h := preview_onPanel s r (f := (·.setDisabled r.button false)) (fun p => p) fun p => rfl
    unfold Preview.onPanel at h
    rw [ite_self] at h
    exact h
  have hrequests : s₁.requests id = some r := by
    unfold s₁ onPanel
    split <;> exact hr
  have hasked : ({ r with ended := true } : OutputRequest).asked = r.asked := rfl
  split
  · exact (preview_setRequest_same (s := { s₁ with controller := none }) hrequests hasked).trans
      hpanel
  · exact (preview_setRequest_same hrequests hasked).trans hpanel

theorem chainStep_preview (hr : s.requests id = some r) (ha : a.request = some id)
    (h : chainStep t s id r a = some s') : Preview.Step t s.preview a s'.preview := by
  have hasked : s.preview.asked id = some r.asked := congrArg (Option.map _) hr
  have hquiet : ∀ near, a ≠ .scroll near := fun near hnear => by
    subst hnear
    cases ha
  have hgo : ∀ phase, phase.outcome = r.phase.outcome →
      Preview.Step t s.preview a (s.setRequest id { r with phase := phase }).preview := by
    intro phase hphase
    rw [preview_setRequest_same hr (by unfold OutputRequest.asked; rw [hphase])]
    exact .quiet hquiet
  have hignore : r.phase.outcome = none →
      Preview.Step t s.preview a
        (s.setRequest id { r with phase := .settled .ignored }).preview := by
    intro hnone
    rw [preview_setRequest]
    exact .ignore ha hasked hnone
  unfold chainStep at h
  split at h
  next _ ok truncated =>
    split at h
    · next hphase =>
      obtain rfl := Option.some.inj h
      exact hgo _ (by rw [hphase]; cases ok <;> rfl)
    · cases h
  next _ content =>
    split at h
    · next truncated hphase =>
      obtain rfl := Option.some.inj h
      exact hgo _ (by rw [hphase]; rfl)
    · cases h
  next =>
    split at h
    · next hphase =>
      obtain rfl := Option.some.inj h
      exact hgo _ (by rw [hphase]; rfl)
    · next truncated hphase =>
      obtain rfl := Option.some.inj h
      exact hgo _ (by rw [hphase]; rfl)
    · cases h
  next =>
    obtain rfl := Option.some.inj ha
    split at h
    · next content truncated hphase =>
      split at h
      · next hcurrent =>
        obtain rfl := Option.some.inj h
        obtain rfl := hcurrent.1
        rw [preview_setRequest, preview_onPanel s r
          (·.showOutput t content truncated s.requestID) fun p => rfl]
        exact .deliver content truncated hasked (by rw [OutputRequest.asked, hphase]; rfl)
      · obtain rfl := Option.some.inj h
        exact hignore (by rw [hphase]; rfl)
    · cases h
  next =>
    obtain rfl := Option.some.inj ha
    split at h
    · next hphase =>
      split at h
      · next hcurrent =>
        obtain rfl := Option.some.inj h
        obtain rfl := hcurrent.1
        rw [preview_setRequest, preview_onPanel s r (·.showError t) fun p => rfl]
        exact .error hasked (by rw [OutputRequest.asked, hphase]; rfl)
      · obtain rfl := Option.some.inj h
        exact hignore (by rw [hphase]; rfl)
    · cases h
  next =>
    split at h
    · next outcome hphase =>
      split at h
      · cases h
      · obtain rfl := Option.some.inj h
        rw [preview_finish hr]
        exact .quiet hquiet
    · cases h
  next => cases h

/-- Every step of the page does to the preview what it can do. -/
theorem step_preview (h : step t s a = some s') : Preview.Step t s.preview a s'.preview := by
  unfold step at h
  split at h
  next job =>
    obtain rfl := Option.some.inj h
    have hcancel := preview_cancel s
    have hpreview : (s.openDialog job).preview =
        { s.cancelOutputRequest.preview with
          panels := s.panels + 1
          panel := .new job
          last := none } := rfl
    rw [hpreview, hcancel]
    exact .openDialog job
  next button =>
    split at h
    · obtain rfl := Option.some.inj h
      unfold askOutput
      rw [preview_setRequest]
      have hcancel := preview_cancel s
      show Preview.Step t s.preview _ (Preview.ask { s.cancelOutputRequest.preview with
        panel := s.panel.enabled.showLoading t button
        last := some (s.requestID + 1) } _ _)
      rw [hcancel]
      exact .askOutput button
    · cases h
  next near =>
    obtain rfl := Option.some.inj h
    have hpreview : { s with panel := s.panel.scroll near }.preview =
        { s.preview with panel := (s.panel.scroll near).enabled } := rfl
    rw [hpreview, scroll_enabled]
    exact .scroll near
  next =>
    obtain rfl := Option.some.inj h
    split <;> exact .quiet fun near hnear => nomatch hnear
  next =>
    split at h
    · obtain rfl := Option.some.inj h
      rw [preview_cancel]
      exact .cancel
    · cases h
  next a _ _ _ _ _ =>
    split at h
    · next id ha =>
      obtain ⟨r, hr, hchain⟩ := Option.bind_eq_some_iff.mp h
      exact chainStep_preview hr ha hchain
    · cases h

end OutputPage

/-! ## What is shown -/

/-- The panel shows what has come of the request. -/
def OutputPanel.Shows (t : OutputTexts) (p : OutputPanel) (id : Nat) (q : AskedOutput) : Prop :=
  match q.outcome with
  | some (.shown content truncated) =>
    p.title = (if truncated then q.button.label t ++ " · " ++ t.outputTruncated
      else q.button.label t) ∧
      ∃ log, p.onscroll = some log ∧ log.request = id ∧ log.lines = outputLines content ∧
        p.content = log.text ∧ p.status = log.loadStatus
  | some .error => p.title = q.button.label t ∧ p.content = t.outputError.toList ∧ p.status = ""
  | _ => p.title = q.button.label t ∧ p.content = t.outputLoading.toList ∧ p.status = ""

namespace Preview

/-- The panel is hidden, or it shows the output of its job that was asked for last. -/
structure ShowsLast (t : OutputTexts) (v : Preview) : Prop where
  hidden : v.last = none → v.panel.hidden = true
  shows : ∀ id, v.last = some id → v.panel.hidden = false ∧
    ∃ q, v.asked id = some q ∧ q.job = v.panel.job ∧ v.panel.Shows t id q

/-! ## The invariant -/

structure Ok (v : Preview) : Prop where
  ids : ∀ id q, v.asked id = some q → id ≤ v.requestID
  /-- the callbacks that are in time are those of the last request of the panel -/
  current : ∀ q, v.asked v.requestID = some q → v.last = some v.requestID
  last : ∀ id, v.last = some id → v.panel.hidden = false ∧
    ∃ q, v.asked id = some q ∧ q.panel = v.panels ∧ q.job = v.panel.job
  new : v.last = none → v.panel.hidden = true ∧ v.panel.onscroll = none
  rendered : ∀ log, v.panel.onscroll = some log → 0 < log.rendered
  owner : ∀ log, v.panel.onscroll = some log → ∃ q content truncated,
    v.asked log.request = some q ∧ q.outcome = some (.shown content truncated)

variable {t : OutputTexts} {v v' : Preview} {a : OutputAction} {id id' : Nat}
  {q q' : AskedOutput}

theorem ok_start : Ok OutputPage.start.preview where
  ids _ _ h := nomatch h
  current _ h := nomatch h
  last _ h := nomatch h
  new _ := ⟨rfl, rfl⟩
  rendered _ h := nomatch h
  owner _ h := nomatch h

theorem ask_self (v : Preview) (id : Nat) (q : AskedOutput) : (v.ask id q).asked id = some q :=
  Function.update_self ..

theorem ask_of_ne (v : Preview) (q : AskedOutput) (h : id' ≠ id) :
    (v.ask id q).asked id' = v.asked id' := Function.update_of_ne h ..

theorem ask_cases (h : (v.ask id q').asked id' = some q) :
    (id' = id ∧ q = q') ∨ (id' ≠ id ∧ v.asked id' = some q) := by
  by_cases hid : id' = id
  · subst hid
    rw [ask_self] at h
    exact .inl ⟨rfl, (Option.some.inj h).symm⟩
  · rw [ask_of_ne v q' hid] at h
    exact .inr ⟨hid, h⟩

theorem scroll_cases (p : OutputPanel) (near : Bool) :
    (∀ log, p.onscroll = some log → log.rendered < log.lines.length → near = false) ∧
        p.scroll near = p ∨
      near = true ∧ ∃ log, p.onscroll = some log ∧ log.rendered < log.lines.length ∧
        p.scroll near = p.renderNextBatch log := by
  unfold OutputPanel.scroll
  split
  · next log hlog =>
    split
    · next h => exact .inr ⟨h.2, log, hlog, h.1, rfl⟩
    · next h =>
      refine .inl ⟨fun log' hlog' hmore => ?_, rfl⟩
      obtain rfl := Option.some.inj (hlog.symm.trans hlog')
      exact Bool.eq_false_iff.mpr fun hnear => h ⟨hmore, hnear⟩
  · next hnone =>
    refine .inl ⟨fun log' hlog' => ?_, rfl⟩
    rw [hnone] at hlog'
    cases hlog'

theorem next_rendered {log : OutputLog} (h : log.lines ≠ []) : 0 < log.next.rendered := by
  have hlength := List.length_pos_iff.mpr h
  unfold OutputLog.next batchSize
  dsimp only
  omega

/-- A request comes to something. -/
theorem Ok.ask (h : Ok v) (hasked : v.asked id = some q) (hpanel : q'.panel = q.panel)
    (hjob : q'.job = q.job) (hnone : q.outcome = none) : Ok (v.ask id q') where
  ids id' q₁ hq := by
    rcases ask_cases hq with ⟨rfl, -⟩ | ⟨-, hold⟩
    · exact h.ids id' q hasked
    · exact h.ids id' q₁ hold
  current q₁ hq := by
    rcases ask_cases hq with ⟨hid, -⟩ | ⟨-, hold⟩
    · have hid : v.requestID = id := hid
      exact h.current q (hid ▸ hasked)
    · exact h.current q₁ hold
  last id' hlast := by
    obtain ⟨hhidden, q₁, hq, hpanel₁, hjob₁⟩ := h.last id' hlast
    refine ⟨hhidden, ?_⟩
    by_cases hid : id' = id
    · subst hid
      obtain rfl := Option.some.inj (hasked.symm.trans hq)
      exact ⟨q', ask_self v id' q', hpanel.trans hpanel₁, hjob.trans hjob₁⟩
    · exact ⟨q₁, (ask_of_ne v q' hid).trans hq, hpanel₁, hjob₁⟩
  new := h.new
  rendered := h.rendered
  owner log hlog := by
    obtain ⟨q₁, content, truncated, hq, houtcome⟩ := h.owner log hlog
    -- the log is that of a request that had come to something before
    have hne : log.request ≠ id := by
      rintro rfl
      obtain rfl := Option.some.inj (hasked.symm.trans hq)
      rw [hnone] at houtcome
      cases houtcome
    exact ⟨q₁, content, truncated, (ask_of_ne v q' hne).trans hq, houtcome⟩

/-- Only the texts of the panel change. -/
theorem Ok.texts (h : Ok v) (title : String) (content : List Char) (status : String) :
    Ok { v with panel := { v.panel with title := title, content := content, status := status } } :=
  ⟨h.ids, h.current, h.last, h.new, h.rendered, h.owner⟩

/-- Another log, of a request that has been shown. -/
theorem Ok.render (h : Ok v) {log : OutputLog} (hlines : log.lines ≠ []) (hlast : v.last ≠ none)
    (howner : ∃ q content truncated, v.asked log.request = some q ∧
      q.outcome = some (.shown content truncated)) :
    Ok { v with panel := v.panel.renderNextBatch log } where
  ids := h.ids
  current := h.current
  last := h.last
  new hnone := absurd hnone hlast
  rendered log' hlog' := by
    obtain rfl := Option.some.inj hlog'
    exact next_rendered hlines
  owner log' hlog' := by
    obtain rfl := Option.some.inj hlog'
    exact howner

/-- A request that is in time is the last one of the panel. -/
theorem Ok.in_time (h : Ok v) (hasked : v.asked v.requestID = some q) :
    v.last = some v.requestID ∧ v.panel.hidden = false ∧ q.panel = v.panels ∧
      q.job = v.panel.job := by
  have hlast := h.current q hasked
  obtain ⟨hhidden, q', hq', hpanel, hjob⟩ := h.last _ hlast
  obtain rfl := Option.some.inj (hasked.symm.trans hq')
  exact ⟨hlast, hhidden, hpanel, hjob⟩

theorem Ok.fresh (h : Ok v) (hid : v.requestID < id) : v.asked id = none := by
  cases hq : v.asked id with
  | none => rfl
  | some q => exact absurd (h.ids id q hq) (Nat.not_le.mpr hid)

theorem Ok.step (h : Ok v) (hstep : Step t v a v') : Ok v' := by
  cases hstep with
  | quiet => exact h
  | cancel =>
    refine ⟨fun id q hq => Nat.le_succ_of_le (h.ids id q hq), fun q hq => ?_, h.last, h.new,
      h.rendered, h.owner⟩
    cases (h.fresh (Nat.lt_succ_self _)).symm.trans hq
  | openDialog job =>
    refine ⟨fun id q hq => Nat.le_succ_of_le (h.ids id q hq), fun q hq => ?_,
      fun _ hlast => (nomatch hlast), fun _ => ⟨rfl, rfl⟩, fun _ hlog => (nomatch hlog),
      fun _ hlog => (nomatch hlog)⟩
    cases (h.fresh (Nat.lt_succ_self _)).symm.trans hq
  | askOutput button =>
    refine ⟨fun id q hq => ?_, fun q hq => rfl, fun id hlast => ?_,
      fun hlast => (nomatch hlast), h.rendered, fun log hlog => ?_⟩
    · rcases ask_cases hq with ⟨rfl, -⟩ | ⟨-, hold⟩
      · exact Nat.le_refl _
      · exact Nat.le_succ_of_le (h.ids id q hold)
    · obtain rfl := Option.some.inj hlast
      exact ⟨rfl, _, ask_self _ _ _, rfl, rfl⟩
    · obtain ⟨q, content, truncated, hq, houtcome⟩ := h.owner log hlog
      have hne : log.request ≠ v.requestID + 1 :=
        Nat.ne_of_lt (Nat.lt_succ_of_le (h.ids _ q hq))
      exact ⟨q, content, truncated, (ask_of_ne _ _ hne).trans hq, houtcome⟩
  | scroll near =>
    rcases scroll_cases v.panel near with ⟨-, heq⟩ | ⟨-, log, hlog, hmore, heq⟩
    · rw [heq]
      exact h
    · rw [heq]
      refine h.render ?_ (fun hnone => ?_) (h.owner log hlog)
      · rintro hnil
        rw [hnil] at hmore
        cases hmore
      · rw [(h.new hnone).2] at hlog
        cases hlog
  | @deliver q content truncated hasked hnone =>
    obtain ⟨hlast, -, hpanel, -⟩ := h.in_time hasked
    have hask : Ok (v.ask v.requestID { q with outcome := some (.shown content truncated) }) :=
      h.ask hasked rfl rfl hnone
    unfold onPanel
    rw [if_pos hpanel]
    refine (hask.texts (if truncated then v.panel.title ++ " · " ++ t.outputTruncated
      else v.panel.title) v.panel.content v.panel.status).render (outputLines_ne_nil content)
      (fun hno => ?_) ⟨_, content, truncated, ask_self _ _ _, rfl⟩
    cases hlast.symm.trans hno
  | @error q hasked hnone =>
    obtain ⟨hlast, -, hpanel, -⟩ := h.in_time hasked
    have hask : Ok (v.ask v.requestID { q with outcome := some .error }) :=
      h.ask hasked rfl rfl hnone
    unfold onPanel
    rw [if_pos hpanel]
    exact hask.texts v.panel.title t.outputError.toList ""
  | ignore ha hasked hnone => exact h.ask hasked rfl rfl hnone

/-! ## Steps -/

/-- A log that is scrolled on is that of the last request. -/
def LogOfLast (v : Preview) : OutputAction → Prop
  | .scroll true => ∀ log ∈ v.panel.onscroll, log.rendered < log.lines.length →
    v.last = some log.request
  | _ => True

instance (v : Preview) : (a : OutputAction) → Decidable (v.LogOfLast a)
  | .scroll true => inferInstanceAs (Decidable (∀ log ∈ v.panel.onscroll,
      log.rendered < log.lines.length → v.last = some log.request))
  | .scroll false | .openDialog _ | .askOutput _ | .closeDialog | .closeEvent | .headers _ _ _
  | .body _ _ | .reject _ | .deliver _ | .recover _ | .finish _ => isTrue trivial

theorem logOfLast_of_not_scroll (h : ∀ near, a ≠ .scroll near) : v.LogOfLast a := by
  unfold LogOfLast
  split
  · exact absurd rfl (h true)
  · trivial

theorem newline_mem_next {log : OutputLog} (hpos : 0 < log.rendered)
    (hmore : log.rendered < log.lines.length) : '\n' ∈ log.next.text := by
  refine newline_mem_joinLines ?_
  rw [List.length_take]
  unfold OutputLog.next batchSize
  dsimp only
  omega

/-- The outcome of the last request comes to the panel. -/
theorem ShowsLast.ask (h : Ok v) {p : OutputPanel} (hlast : v.last = some id)
    (hasked : v.asked id = some q) (hq' : q'.job = q.job) (hhidden : p.hidden = v.panel.hidden)
    (hjob : p.job = v.panel.job) (hshows : p.Shows t id q') :
    ShowsLast t ({ v with panel := p }.ask id q') := by
  obtain ⟨hopen, q₁, hq₁, -, hjob₁⟩ := h.last id hlast
  obtain rfl := Option.some.inj (hasked.symm.trans hq₁)
  refine ⟨fun hnone => ?_, fun id' hid' => ?_⟩
  · cases hlast.symm.trans hnone
  · obtain rfl := Option.some.inj (hlast.symm.trans hid')
    exact ⟨hhidden.trans hopen, q', ask_self _ _ _, hq'.trans (hjob₁.trans hjob.symm), hshows⟩

/-- The last request of the panel has come to nothing yet. -/
theorem ShowsLast.waiting (hs : ShowsLast t v) (hlast : v.last = some id)
    (hasked : v.asked id = some q) (hnone : q.outcome = none) :
    v.panel.title = q.button.label t ∧ v.panel.content = t.outputLoading.toList ∧
      v.panel.status = "" := by
  obtain ⟨-, q', hq', -, hshows⟩ := hs.shows id hlast
  obtain rfl := Option.some.inj (hasked.symm.trans hq')
  unfold OutputPanel.Shows at hshows
  rw [hnone] at hshows
  exact hshows

/-- What a step that scrolls nothing shows. -/
theorem ShowsLast.step (h : Ok v) (hs : ShowsLast t v) (hstep : Step t v a v')
    (ha : ∀ near, a ≠ .scroll near) : ShowsLast t v' := by
  cases hstep with
  | quiet => exact hs
  | cancel => exact ⟨hs.hidden, hs.shows⟩
  | openDialog job => exact ⟨fun _ => rfl, fun _ hlast => (nomatch hlast)⟩
  | askOutput button =>
    refine ⟨fun hlast => (nomatch hlast), fun id hlast => ?_⟩
    obtain rfl := Option.some.inj hlast
    exact ⟨rfl, _, ask_self _ _ _, rfl, rfl, rfl, rfl⟩
  | scroll near => exact absurd rfl (ha near)
  | @deliver q content truncated hasked hnone =>
    obtain ⟨hlast, -, hpanel, -⟩ := h.in_time hasked
    obtain ⟨htitle, -, -⟩ := hs.waiting hlast hasked hnone
    unfold onPanel
    rw [if_pos hpanel]
    refine ShowsLast.ask h hlast hasked rfl rfl rfl ⟨?_, _, rfl, rfl, rfl, rfl, rfl⟩
    show (if truncated then v.panel.title ++ " · " ++ t.outputTruncated else v.panel.title) = _
    rw [htitle]
  | @error q hasked hnone =>
    obtain ⟨hlast, -, hpanel, -⟩ := h.in_time hasked
    obtain ⟨htitle, -, -⟩ := hs.waiting hlast hasked hnone
    unfold onPanel
    rw [if_pos hpanel]
    exact ShowsLast.ask h hlast hasked rfl rfl rfl ⟨htitle, rfl, rfl⟩
  | @ignore _ id q _ hasked hnone =>
    by_cases hlast : v.last = some id
    · have hwaiting := hs.waiting hlast hasked hnone
      exact ShowsLast.ask h hlast hasked rfl rfl rfl hwaiting
    · refine ⟨hs.hidden, fun id' hid' => ?_⟩
      have hne : id' ≠ id := by
        rintro rfl
        exact hlast hid'
      obtain ⟨hopen, q', hq', hshows⟩ := hs.shows id' hid'
      exact ⟨hopen, q', (ask_of_ne v _ hne).trans hq', hshows⟩

/-- A batch of an old log is never what the panel should show. -/
theorem ShowsLast.scroll_iff (hloading : '\n' ∉ t.outputLoading.toList)
    (herror : '\n' ∉ t.outputError.toList) (h : Ok v) (hs : ShowsLast t v) {log : OutputLog}
    (hlog : v.panel.onscroll = some log) (hmore : log.rendered < log.lines.length) :
    ShowsLast t { v with panel := v.panel.renderNextBatch log } ↔ v.last = some log.request := by
  have hnewline := newline_mem_next (h.rendered log hlog) hmore
  constructor
  · intro hs'
    cases hlast : v.last with
    | none =>
      rw [(h.new hlast).2] at hlog
      cases hlog
    | some id =>
      obtain ⟨-, q, hq, -, hshows⟩ := hs'.shows id hlast
      unfold OutputPanel.Shows at hshows
      split at hshows
      · obtain ⟨-, log', hlog', hrequest, -⟩ := hshows
        obtain rfl := Option.some.inj hlog'
        exact congrArg some hrequest.symm
      · exact absurd (hshows.2.1 ▸ hnewline) herror
      · exact absurd (hshows.2.1 ▸ hnewline) hloading
  · intro hlast
    obtain ⟨q, content, truncated, hq, houtcome⟩ := h.owner log hlog
    refine ⟨fun hnone => ?_, fun id hid => ?_⟩
    · cases hlast.symm.trans hnone
    · obtain rfl := Option.some.inj (hlast.symm.trans hid)
      obtain ⟨hopen, q', hq', hjob, hshows⟩ := hs.shows log.request hlast
      obtain rfl := Option.some.inj (hq.symm.trans hq')
      refine ⟨hopen, q, hq, hjob, ?_⟩
      unfold OutputPanel.Shows at hshows ⊢
      rw [houtcome] at hshows ⊢
      obtain ⟨htitle, log', hlog', -, hlines, -⟩ := hshows
      obtain rfl := Option.some.inj (hlog.symm.trans hlog')
      exact ⟨htitle, log.next, rfl, rfl, hlines, rfl, rfl⟩

theorem ShowsLast.step_iff (hloading : '\n' ∉ t.outputLoading.toList)
    (herror : '\n' ∉ t.outputError.toList) (h : Ok v) (hs : ShowsLast t v)
    (hstep : Step t v a v') : ShowsLast t v' ↔ v.LogOfLast a := by
  by_cases ha : ∀ near, a ≠ .scroll near
  · exact iff_of_true (hs.step h hstep ha) (logOfLast_of_not_scroll ha)
  · cases hstep with
    | scroll near =>
      rcases scroll_cases v.panel near with ⟨hquiet, heq⟩ | ⟨rfl, log, hlog, hmore, heq⟩
      · rw [heq]
        refine iff_of_true hs ?_
        cases near with
        | false => trivial
        | true => exact fun log hlog hmore => nomatch hquiet log hlog hmore
      · rw [heq, hs.scroll_iff hloading herror h hlog hmore]
        refine ⟨fun hlast log' hlog' _ => ?_, fun hall => hall log hlog hmore⟩
        obtain rfl := Option.some.inj (hlog.symm.trans hlog')
        exact hlast
    | quiet hquiet => exact absurd hquiet ha
    | ignore hrequest =>
      refine absurd (fun near hnear => ?_) ha
      subst hnear
      cases hrequest
    | _ => exact absurd (fun near hnear => nomatch hnear) ha

end Preview

/-! ## Runs -/

theorem detailCopyFor_loading (language : String) :
    '\n' ∉ (detailCopyFor language).outputLoading.toList := by
  unfold detailCopyFor
  split <;> decide

theorem detailCopyFor_error (language : String) :
    '\n' ∉ (detailCopyFor language).outputError.toList := by
  unfold detailCopyFor
  split <;> decide

/-- Whatever is clicked and scrolled and whatever comes from the server, in any order: at all
    times the panel shows what has come of the output that was asked for last in it, exactly if
    no log of an earlier request is scrolled on. -/
theorem preview_shows_last_asked (language : String) {as : List OutputAction} {s : OutputPage}
    (h : Run (OutputPage.step (detailCopyFor language)) (fun _ _ => True) .start as s) :
    (∀ bs u, bs <+: as →
        Run (OutputPage.step (detailCopyFor language)) (fun _ _ => True) .start bs u →
        u.preview.ShowsLast (detailCopyFor language)) ↔
      Run (OutputPage.step (detailCopyFor language)) (fun u a => u.preview.LogOfLast a) .start
        as s :=
  run_safe_iff (fun u => u.preview.Ok) (fun u => u.preview.ShowsLast (detailCopyFor language))
    Preview.ok_start ⟨fun _ => rfl, fun _ hlast => (nomatch hlast)⟩
    (fun _ _ _ hok hstep => hok.step (OutputPage.step_preview hstep))
    (fun _ _ _ hok hs hstep => hs.step_iff (detailCopyFor_loading language)
      (detailCopyFor_error language) hok (OutputPage.step_preview hstep)) h

/-- An output of 300 lines arrives, with 220 of them shown. -/
def outputActs : List OutputAction :=
  [.openDialog "7", .askOutput .stdOut, .headers 2 true false,
    .body 2 (List.replicate 299 '\n'), .deliver 2, .finish 2]

def scrolledActs : List OutputAction :=
  outputActs ++ [.scroll true, .askOutput .stdErr, .scroll true]

theorem scrolledActs_run : (exec (OutputPage.step (detailCopyFor "en"))
    (fun u a => u.preview.LogOfLast a) .start scrolledActs).isSome := by
  decide +kernel

theorem preview_shows_last_standard_error :
    ((exec (OutputPage.step (detailCopyFor "en")) (fun u a => u.preview.LogOfLast a) .start
      scrolledActs).get scrolledActs_run).preview.ShowsLast (detailCopyFor "en") := by
  have hrun : Run (OutputPage.step (detailCopyFor "en")) (fun u a => u.preview.LogOfLast a) .start
      scrolledActs _ :=
    (run_exec_get scrolledActs_run).mono fun _ _ h => of_decide_eq_true h
  have hany : Run (OutputPage.step (detailCopyFor "en")) (fun _ _ => True) .start scrolledActs _ :=
    hrun.mono fun _ _ _ => trivial
  exact (preview_shows_last_asked "en" hany).mpr hrun scrolledActs _ (List.prefix_refl _) hany

/-- Not scrolled to its end, the old log comes back under the new title. -/
example : (exec (OutputPage.step (detailCopyFor "en")) (fun _ _ => true) .start
      (outputActs ++ [.askOutput .stdErr, .scroll true])).map
        (fun s => (s.panel.title, s.panel.content)) =
    some ("Standard error", List.replicate 299 '\n') := by
  decide +kernel

/-- Scrolling near the end goes on to the next batch, until there is none. -/
theorem scroll_near {p : OutputPanel} {log : OutputLog} (hlog : p.onscroll = some log)
    (htext : p.content = log.text) : ∃ log', (p.scroll true).onscroll = some log' ∧
      (p.scroll true).content = log'.text ∧ log'.lines = log.lines ∧
      min (log.rendered + batchSize) log.lines.length ≤ log'.rendered := by
  rcases Preview.scroll_cases p true with ⟨hquiet, heq⟩ | ⟨-, log', hlog', -, heq⟩
  · rw [heq]
    refine ⟨log, hlog, htext, rfl, ?_⟩
    have hall : ¬ log.rendered < log.lines.length := fun hmore => nomatch hquiet log hlog hmore
    omega
  · obtain rfl := Option.some.inj (hlog.symm.trans hlog')
    rw [heq]
    exact ⟨log.next, rfl, rfl, rfl, Nat.le_refl _⟩

theorem scrolled_whole (t : OutputTexts) {s : OutputPage} {log : OutputLog} {k : Nat}
    (hlog : s.panel.onscroll = some log) (htext : s.panel.content = log.text)
    (hk : log.lines.length ≤ log.rendered + batchSize * k) :
    ∃ s', Run (OutputPage.step t) (fun _ _ => True) s (List.replicate k (.scroll true)) s' ∧
      s'.panel.content = joinLines log.lines := by
  induction k generalizing s log with
  | zero =>
    refine ⟨s, .nil, ?_⟩
    rw [htext, OutputLog.text, List.take_of_length_le (by omega)]
  | succ k ih =>
    obtain ⟨log', hlog', htext', hlines, hrendered⟩ := scroll_near hlog htext
    obtain ⟨s', hrun, hwhole⟩ := ih (s := { s with panel := s.panel.scroll true }) hlog' htext' (by
      rw [hlines]
      rw [Nat.mul_succ] at hk
      omega)
    have hone : Run (OutputPage.step t) (fun _ _ => True) s [.scroll true]
        { s with panel := s.panel.scroll true } := .one trivial rfl
    exact ⟨s', hone.append hrun, hlines ▸ hwhole⟩

/-- An output that is shown can be read to its end by scrolling: all of it, with its line ends
    made one. -/
theorem whole_output_shown (language : String) {as : List OutputAction} {s : OutputPage}
    (h : Run (OutputPage.step (detailCopyFor language)) (fun u a => u.preview.LogOfLast a) .start
      as s) {id : Nat} (hlast : s.last = some id) {q : AskedOutput}
    (hasked : s.preview.asked id = some q) {content : List Char} {truncated : Bool}
    (hshown : q.outcome = some (.shown content truncated)) :
    ∃ k s', Run (OutputPage.step (detailCopyFor language)) (fun _ _ => True) s
        (List.replicate k (.scroll true)) s' ∧
      s'.panel.content = normalizeOutputLineEndings content := by
  obtain ⟨hok, hs⟩ := h.invariant
    (fun u => u.preview.Ok ∧ u.preview.ShowsLast (detailCopyFor language))
    ⟨Preview.ok_start, fun _ => rfl, fun _ hlast => (nomatch hlast)⟩
    fun u a u' ⟨hok, hs⟩ ha hstep => ⟨hok.step (OutputPage.step_preview hstep),
      (hs.step_iff (detailCopyFor_loading language) (detailCopyFor_error language) hok
        (OutputPage.step_preview hstep)).mpr ha⟩
  obtain ⟨-, q', hq', -, hshows⟩ := hs.shows id hlast
  obtain rfl := Option.some.inj (hasked.symm.trans hq')
  unfold OutputPanel.Shows at hshows
  rw [hshown] at hshows
  obtain ⟨-, log, hlog, -, hlines, htext, -⟩ := hshows
  have hk : log.lines.length ≤ log.rendered + batchSize * log.lines.length := by
    unfold batchSize
    omega
  obtain ⟨s', hrun, hwhole⟩ := scrolled_whole (detailCopyFor language) hlog htext hk
  exact ⟨_, s', hrun, hwhole.trans (hlines ▸ joinLines_outputLines content)⟩

theorem outputActs_run : (exec (OutputPage.step (detailCopyFor "en"))
    (fun u a => u.preview.LogOfLast a) .start outputActs).isSome := by
  decide +kernel

theorem whole_output_shown_lines :
    ∃ k s', Run (OutputPage.step (detailCopyFor "en")) (fun _ _ => True)
        ((exec (OutputPage.step (detailCopyFor "en")) (fun u a => u.preview.LogOfLast a) .start
          outputActs).get outputActs_run) (List.replicate k (.scroll true)) s' ∧
      s'.panel.content = normalizeOutputLineEndings (List.replicate 299 '\n') := by
  have hlast : ((exec (OutputPage.step (detailCopyFor "en")) (fun u a => u.preview.LogOfLast a)
      .start outputActs).get outputActs_run).last = some 2 := by
    decide +kernel
  have hasked : ((exec (OutputPage.step (detailCopyFor "en")) (fun u a => u.preview.LogOfLast a)
      .start outputActs).get outputActs_run).preview.asked 2 =
        some ⟨1, "7", .stdOut, some (.shown (List.replicate 299 '\n') false)⟩ := by
    decide +kernel
  exact whole_output_shown "en"
    ((run_exec_get outputActs_run).mono fun _ _ h => of_decide_eq_true h) hlast hasked rfl

end OpenHpcWeb.Web
