/-
  The confirmation dialog of internal/web/static/app.js, which asks before a form with
  `data-confirm` is sent (templates/data_chrome.html).

  The variables of the script are a state and each event is a step. The dialog is modal: while it
  is open nothing else on the page can be clicked. Its `close` event comes later than `close()`,
  and the page stays until the browser has the answer to a form, so events may follow a sending.

  A form that a click sends has the field of its button. One that `requestSubmit()` or `submit()`
  sends has none: no button is given to them.

  History, which the script does not keep: the forms that were sent, each with the question whose
  acceptance sent it.

  * `confirm_sent`: what is sent, in every run.
-/
import Mathlib.Tactic.Common
import OpenHpcWeb.Lib.Run

namespace OpenHpcWeb.Web

open OpenHpcWeb.Lib

/-! ## The script -/

structure ConfirmForm where
  /-- the hidden inputs -/
  fields : List (String × String)
  /-- name and value of the button that submits the form, where it has a name -/
  button : Option (String × String)
  /-- `data-confirm` -/
  question : Option String

structure ConfirmSent where
  form : Nat
  fields : List (String × String)
  /-- the message of the dialog that sent it -/
  accepted : Option String
  deriving DecidableEq

structure ConfirmPage where
  opened : Bool
  message : String
  pendingForm : Option Nat
  /-- the forms with `data-confirmed`, which have the input "confirmed" -/
  confirmed : List Nat
  /-- `close` events to come -/
  closing : Nat
  sent : List ConfirmSent
  deriving DecidableEq

inductive ConfirmAction where
  /-- a click on the button of a form -/
  | click (form : Nat)
  | accept
  /-- the dialog is closed without an answer -/
  | dismiss
  /-- the `close` event -/
  | closed
  deriving DecidableEq

/-- The input that `appendConfirmedInput` adds. -/
def confirmedInput : String × String := ("confirmed", "true")

namespace ConfirmPage

def start : ConfirmPage := ⟨false, "", none, [], 0, []⟩

/-- The fields of a form that a click sends. -/
def clickFields (s : ConfirmPage) (i : Nat) (f : ConfirmForm) : List (String × String) :=
  f.fields ++ f.button.toList ++ if i ∈ s.confirmed then [confirmedInput] else []

/-- The `submit` event of a form whose button was clicked. -/
def submitEvent (s : ConfirmPage) (i : Nat) (f : ConfirmForm) : ConfirmPage :=
  match f.question with
  | some question =>
    if i ∈ s.confirmed then { s with sent := s.sent ++ [⟨i, s.clickFields i f, none⟩] }
    else { s with pendingForm := some i, message := question, opened := true }
  | none => { s with sent := s.sent ++ [⟨i, s.clickFields i f, none⟩] }

/-- `close()` -/
def close (s : ConfirmPage) : ConfirmPage :=
  { s with opened := false, closing := s.closing + 1 }

/-- A click on the button that accepts. -/
def acceptEvent (forms : List ConfirmForm) (s : ConfirmPage) : ConfirmPage :=
  match s.pendingForm with
  | none => s
  | some i =>
    match forms[i]? with
    | none => s
    | some f =>
      let s := { s with confirmed := i :: s.confirmed }.close
      { s with sent := s.sent ++ [⟨i, f.fields ++ [confirmedInput], some s.message⟩] }

def step (forms : List ConfirmForm) (s : ConfirmPage) : ConfirmAction → Option ConfirmPage
  | .click i =>
    match s.opened, forms[i]? with
    | false, some f => some (s.submitEvent i f)
    | _, _ => none
  | .accept => if s.opened then some (s.acceptEvent forms) else none
  | .dismiss => if s.opened then some s.close else none
  | .closed =>
    if s.closing = 0 then none
    else some { s with closing := s.closing - 1, pendingForm := none }

/-! ## What is sent -/

variable {forms : List ConfirmForm} {s s' : ConfirmPage}

/-- One sending: of a form without a question by a click, of a form with one by its acceptance,
    or, once that has been given, by a click. -/
inductive Sends (forms : List ConfirmForm) (earlier : List ConfirmSent) (m : ConfirmSent) : Prop
  | plain (f : ConfirmForm) (hform : forms[m.form]? = some f) (hquestion : f.question = none)
      (hfields : m.fields = f.fields ++ f.button.toList) (haccepted : m.accepted = none)
  | accepted (f : ConfirmForm) (question : String) (hform : forms[m.form]? = some f)
      (hquestion : f.question = some question) (hfields : m.fields = f.fields ++ [confirmedInput])
      (haccepted : m.accepted = some question)
  | again (f : ConfirmForm) (question : String) (hform : forms[m.form]? = some f)
      (hquestion : f.question = some question)
      (hfields : m.fields = f.fields ++ f.button.toList ++ [confirmedInput])
      (haccepted : m.accepted = none)
      (hbefore : ∃ m' ∈ earlier, m'.form = m.form ∧ m'.accepted = some question)

/-- The dialog shows the question of the form that waits, and a form is confirmed once its
    question has been accepted. -/
structure Ok (forms : List ConfirmForm) (s : ConfirmPage) : Prop where
  pending : ∀ i, s.pendingForm = some i → ∃ f question, forms[i]? = some f ∧
    f.question = some question ∧ s.message = question
  confirmed : ∀ i ∈ s.confirmed, ∃ f question, forms[i]? = some f ∧ f.question = some question ∧
    ∃ m ∈ s.sent, m.form = i ∧ m.accepted = some question
  sent : ∀ before m after, s.sent = before ++ m :: after → Sends forms before m

theorem ok_start : Ok forms start where
  pending i h := by cases h
  confirmed i h := by cases h
  sent before m after h := by cases before <;> cases h

/-- A sending more. -/
theorem Ok.sent_snoc (h : Ok forms s) {m : ConfirmSent} (hm : Sends forms s.sent m) :
    ∀ before m' after, s.sent ++ [m] = before ++ m' :: after → Sends forms before m' := by
  intro before m' after heq
  rcases List.eq_nil_or_concat' after with rfl | ⟨after, last, rfl⟩
  · obtain ⟨rfl, hlast⟩ := List.append_inj' heq rfl
    cases hlast
    exact hm
  · have heq : s.sent ++ [m] = (before ++ m' :: after) ++ [last] := by
      rw [heq, List.append_assoc, List.cons_append]
    exact h.sent before m' after (List.append_inj' heq rfl).1

theorem Ok.confirmed_snoc (h : Ok forms s) (m : ConfirmSent) :
    ∀ i ∈ s.confirmed, ∃ f question, forms[i]? = some f ∧ f.question = some question ∧
      ∃ m' ∈ s.sent ++ [m], m'.form = i ∧ m'.accepted = some question := by
  intro i hi
  obtain ⟨f, question, hform, hquestion, m', hm', heq⟩ := h.confirmed i hi
  exact ⟨f, question, hform, hquestion, m', List.mem_append_left _ hm', heq⟩

theorem Ok.submitEvent (h : Ok forms s) {i : Nat} {f : ConfirmForm} (hf : forms[i]? = some f) :
    Ok forms (s.submitEvent i f) := by
  unfold ConfirmPage.submitEvent clickFields
  split
  · next question hquestion =>
    split
    · next hi =>
      refine ⟨h.pending, h.confirmed_snoc _, h.sent_snoc ?_⟩
      obtain ⟨f', question', hform, hquestion', m, hm, hmi, haccepted⟩ := h.confirmed i hi
      rw [hf] at hform
      cases hform
      rw [hquestion] at hquestion'
      cases hquestion'
      exact .again f question hf hquestion rfl rfl ⟨m, hm, hmi, haccepted⟩
    · refine ⟨?_, h.confirmed, h.sent⟩
      rintro j hj
      cases hj
      exact ⟨f, question, hf, hquestion, rfl⟩
  · next hquestion =>
    refine ⟨h.pending, h.confirmed_snoc _, h.sent_snoc ?_⟩
    refine .plain f hf hquestion ?_ rfl
    -- a form without a question is never confirmed
    rw [if_neg, List.append_nil]
    intro hi
    obtain ⟨f', question, hform, hquestion', -⟩ := h.confirmed i hi
    rw [hf] at hform
    cases hform
    rw [hquestion] at hquestion'
    cases hquestion'

theorem Ok.acceptEvent (h : Ok forms s) : Ok forms (s.acceptEvent forms) := by
  unfold ConfirmPage.acceptEvent
  split
  · exact h
  · next i hpending =>
    obtain ⟨f, question, hf, hquestion, hmessage⟩ := h.pending i hpending
    rw [hf]
    refine ⟨h.pending, ?_, h.sent_snoc (.accepted f question hf hquestion rfl ?_)⟩
    · intro j hj
      rcases List.mem_cons.mp hj with rfl | hj
      · exact ⟨f, question, hf, hquestion, _, List.mem_append_right _ List.mem_cons_self, rfl,
          congrArg some hmessage⟩
      · exact h.confirmed_snoc _ j hj
    · exact congrArg some hmessage

theorem Ok.step (h : Ok forms s) {a : ConfirmAction} (hstep : step forms s a = some s') :
    Ok forms s' := by
  cases a with
  | click i =>
    simp only [ConfirmPage.step] at hstep
    split at hstep
    · next f _ hf =>
      cases hstep
      exact h.submitEvent hf
    · cases hstep
  | accept =>
    simp only [ConfirmPage.step] at hstep
    split at hstep
    · cases hstep
      exact h.acceptEvent
    · cases hstep
  | dismiss =>
    simp only [ConfirmPage.step] at hstep
    split at hstep
    · cases hstep
      exact ⟨h.pending, h.confirmed, h.sent⟩
    · cases hstep
  | closed =>
    simp only [ConfirmPage.step] at hstep
    split at hstep
    · cases hstep
    · cases hstep
      exact ⟨fun i hi => (nomatch hi), h.confirmed, h.sent⟩

/-- In every run of a page: a form with a question is sent by the acceptance of its question,
    without the field of its button; only then a click sends it too, with that field and
    without being asked. -/
theorem confirm_sent {acts : List ConfirmAction}
    (hrun : Run (ConfirmPage.step forms) (fun _ _ => True) start acts s) :
    ∀ before m after, s.sent = before ++ m :: after → Sends forms before m :=
  (hrun.invariant (Ok forms) ok_start fun _ _ _ hs _ hstep => hs.step hstep).sent

end ConfirmPage

end OpenHpcWeb.Web
