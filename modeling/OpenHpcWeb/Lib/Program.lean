/-
  Programs that ask their environment.

  A program is done, or it asks a question and goes on with the answer. What it has asked so
  far, with the answers, is its history; the environment may answer anything.

  * `Leads.ensures`, `Program.ensures_done`: a postcondition on the whole history and the result
    holds of every history that leads to the end.
  * `ensures_bind`: the postcondition of a sequence.
-/
namespace OpenHpcWeb.Lib

variable {Q : Type} {A : Q → Type} {α β : Type}

/-- A program: it is done, or it asks and goes on with the answer. -/
inductive Program (Q : Type) (A : Q → Type) (α : Type) where
  | done (a : α)
  | ask (q : Q) (next : A q → Program Q A α)

/-- A question with its answer. -/
abbrev Exchange (Q : Type) (A : Q → Type) := Σ q, A q

namespace Program

def bind : Program Q A α → (α → Program Q A β) → Program Q A β
  | .done a, f => f a
  | .ask q next, f => .ask q fun r => (next r).bind f

instance : Monad (Program Q A) where
  pure := .done
  bind := bind

/-- The program that asks one question. -/
def question (q : Q) : Program Q A (A q) := .ask q .done

@[simp] theorem done_bind (a : α) (f : α → Program Q A β) : (Program.done a >>= f) = f a := rfl

@[simp] theorem ask_bind (q : Q) (next : A q → Program Q A α) (f : α → Program Q A β) :
    (Program.ask q next >>= f) = .ask q fun r => next r >>= f := rfl

@[simp] theorem pure_eq (a : α) : (pure a : Program Q A α) = .done a := rfl

@[simp] theorem question_bind (q : Q) (f : A q → Program Q A β) :
    (question q >>= f) = .ask q f := rfl

/-- The result in an environment that always gives the same answers. -/
def run (answers : (q : Q) → A q) : Program Q A α → α
  | .done a => a
  | .ask q next => (next (answers q)).run answers

@[simp] theorem run_done (answers : (q : Q) → A q) (a : α) :
    (Program.done a : Program Q A α).run answers = a := rfl

@[simp] theorem run_ask (answers : (q : Q) → A q) (q : Q) (next : A q → Program Q A α) :
    (Program.ask q next).run answers = (next (answers q)).run answers := rfl

@[simp] theorem run_bind (answers : (q : Q) → A q) (p : Program Q A α) (f : α → Program Q A β) :
    (p >>= f).run answers = (f (p.run answers)).run answers := by
  induction p with
  | done a => rfl
  | ask q next ih => exact ih (answers q)

/-- Whatever the environment answers, the history and the result are as `post` says. -/
def Ensures : Program Q A α → (List (Exchange Q A) → α → Prop) → Prop
  | .done a, post => post [] a
  | .ask q next, post => ∀ r, (next r).Ensures fun h a => post (⟨q, r⟩ :: h) a

@[simp] theorem ensures_done (a : α) (post : List (Exchange Q A) → α → Prop) :
    (Program.done a).Ensures post ↔ post [] a := Iff.rfl

@[simp] theorem ensures_ask (q : Q) (next : A q → Program Q A α)
    (post : List (Exchange Q A) → α → Prop) :
    (Program.ask q next).Ensures post ↔
      ∀ r, (next r).Ensures fun h a => post (⟨q, r⟩ :: h) a := Iff.rfl

theorem Ensures.imp {p : Program Q A α} {post post' : List (Exchange Q A) → α → Prop}
    (h : p.Ensures post) (himp : ∀ h a, post h a → post' h a) : p.Ensures post' := by
  induction p generalizing post post' with
  | done a => exact himp [] a h
  | ask q next ih =>
    intro r
    exact ih r (h r) fun h a => himp (⟨q, r⟩ :: h) a

theorem ensures_bind {p : Program Q A α} {f : α → Program Q A β}
    {post : List (Exchange Q A) → β → Prop} :
    (p >>= f).Ensures post ↔
      p.Ensures fun h a => (f a).Ensures fun h' b => post (h ++ h') b := by
  induction p generalizing post with
  | done a => rfl
  | ask q next ih =>
    rw [ask_bind, ensures_ask, ensures_ask]
    exact forall_congr' fun r => ih r

end Program

/-- The program that is left after a history. -/
inductive Leads (p : Program Q A α) : List (Exchange Q A) → Program Q A α → Prop
  | nil : Leads p [] p
  | snoc {h : List (Exchange Q A)} {q : Q} {next : A q → Program Q A α} (r : A q) :
      Leads p h (.ask q next) → Leads p (h ++ [⟨q, r⟩]) (next r)

namespace Leads

variable {p p' : Program Q A α} {h : List (Exchange Q A)}

theorem ensures {post : List (Exchange Q A) → α → Prop} (hleads : Leads p h p')
    (hpost : p.Ensures post) : p'.Ensures fun h' a => post (h ++ h') a := by
  induction hleads with
  | nil => exact hpost
  | snoc r _ ih =>
    simp only [List.append_assoc, List.singleton_append]
    exact (Program.ensures_ask _ _ _).mp ih r

/-- The postcondition, at the end. -/
theorem ensures_done {post : List (Exchange Q A) → α → Prop} {a : α}
    (hleads : Leads p h (.done a)) (hpost : p.Ensures post) : post h a := by
  have hend := hleads.ensures hpost
  rwa [Program.ensures_done, List.append_nil] at hend

end Leads

end OpenHpcWeb.Lib
