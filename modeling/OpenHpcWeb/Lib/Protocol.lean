/-
  Programs that keep a protocol.

  A protocol is a partial step on states: which question may come in a state, and where its
  answer leads. A program keeps it from a state if it never asks what the protocol does not
  allow, whatever it is answered.

  * `keeps_bind`: a sequence, by what holds between its parts.
  * `Keeps.answer`: a program that is answered goes on keeping the protocol.
-/
import OpenHpcWeb.Lib.Program

namespace OpenHpcWeb.Lib

variable {Q : Type} {A : Q → Type} {α β σ : Type}

/-- The step of a protocol; `none` is a question that is not allowed. -/
abbrev Protocol (Q : Type) (A : Q → Type) (σ : Type) := σ → Exchange Q A → Option σ

/-- The state after a history of the protocol. -/
def Protocol.after (δ : Protocol Q A σ) (s : σ) (h : List (Exchange Q A)) : Option σ :=
  h.foldlM δ s

theorem Protocol.after_snoc (δ : Protocol Q A σ) (s : σ) (h : List (Exchange Q A))
    (x : Exchange Q A) : δ.after s (h ++ [x]) = (δ.after s h).bind fun t => δ t x := by
  unfold Protocol.after
  rw [List.foldlM_append]
  simp

namespace Program

variable {δ : Protocol Q A σ}

/-- From `s` on the program keeps the protocol, and it ends in a state as `post` says. -/
def Keeps (δ : Protocol Q A σ) : Program Q A α → σ → (σ → α → Prop) → Prop
  | .done a, s, post => post s a
  | .ask q next, s, post => ∀ r, ∃ s', δ s ⟨q, r⟩ = some s' ∧ (next r).Keeps δ s' post

@[simp] theorem keeps_done (a : α) (s : σ) (post : σ → α → Prop) :
    (Program.done a : Program Q A α).Keeps δ s post ↔ post s a := Iff.rfl

@[simp] theorem keeps_ask (q : Q) (next : A q → Program Q A α) (s : σ) (post : σ → α → Prop) :
    (Program.ask q next).Keeps δ s post ↔
      ∀ r, ∃ s', δ s ⟨q, r⟩ = some s' ∧ (next r).Keeps δ s' post := Iff.rfl

theorem Keeps.imp {p : Program Q A α} {s : σ} {post post' : σ → α → Prop}
    (h : p.Keeps δ s post) (himp : ∀ t a, post t a → post' t a) : p.Keeps δ s post' := by
  induction p generalizing s with
  | done a => exact himp s a h
  | ask q next ih =>
    intro r
    obtain ⟨s', hs', hnext⟩ := h r
    exact ⟨s', hs', ih r hnext⟩

theorem keeps_bind {p : Program Q A α} {f : α → Program Q A β} {s : σ} {post : σ → β → Prop} :
    (p >>= f).Keeps δ s post ↔ p.Keeps δ s fun t a => (f a).Keeps δ t post := by
  induction p generalizing s with
  | done a => rfl
  | ask q next ih =>
    rw [ask_bind, keeps_ask, keeps_ask]
    refine forall_congr' fun r => exists_congr fun s' => and_congr_right fun _ => ih r

/-- A question whose answer does not matter for the protocol. -/
theorem keeps_move {q : Q} {next : A q → Program Q A α} {s t : σ} {post : σ → α → Prop}
    (hq : ∀ r, δ s ⟨q, r⟩ = some t) (hnext : ∀ r, (next r).Keeps δ t post) :
    (Program.ask q next).Keeps δ s post := fun r => ⟨t, hq r, hnext r⟩

theorem Keeps.answer {q : Q} {next : A q → Program Q A α} {s : σ} {post : σ → α → Prop}
    (h : (Program.ask q next).Keeps δ s post) (r : A q) :
    ∃ s', δ s ⟨q, r⟩ = some s' ∧ (next r).Keeps δ s' post := h r

end Program

end OpenHpcWeb.Lib
