/-
  Programs in `Except` that are checks one after the other: they succeed exactly when every
  check passes. The rules rewrite `isOk` of such a program into the conjunction of its checks.
-/
import Mathlib.Data.List.Basic
import Mathlib.Tactic.Common

namespace OpenHpcWeb.Lib

variable {α β ε : Type}

theorem isOk_iff_exists {x : Except ε α} : x.isOk = true ↔ ∃ a, x = .ok a := by
  cases x with
  | error e => simp [Except.isOk, Except.toBool]
  | ok a => simp [Except.isOk, Except.toBool]

@[simp] theorem isOk_ok (a : α) : (.ok a : Except ε α).isOk = true := rfl

@[simp] theorem isOk_error (e : ε) : (.error e : Except ε α).isOk = false := rfl

@[simp] theorem ok_bind (a : α) (f : α → Except ε β) : (.ok a >>= f) = f a := rfl

/-- The rule of sequence. -/
theorem isOk_bind_iff {x : Except ε α} {f : α → Except ε β} :
    (x >>= f).isOk = true ↔ ∃ a, x = .ok a ∧ (f a).isOk = true := by
  cases x with
  | error e => simp [bind, Except.bind]
  | ok a => simp [bind, Except.bind]

/-- The result of a sequence. -/
theorem bind_eq_ok_iff {x : Except ε α} {f : α → Except ε β} {b : β} :
    (x >>= f) = .ok b ↔ ∃ a, x = .ok a ∧ f a = .ok b := by
  cases x with
  | error e => simp [bind, Except.bind]
  | ok a => simp [bind, Except.bind]

/-- Another text for the error. -/
theorem mapError_eq_ok_iff {ε' : Type} {x : Except ε α} {f : ε → ε'} {a : α} :
    x.mapError f = .ok a ↔ x = .ok a := by
  cases x with
  | error e => simp [Except.mapError]
  | ok b => simp [Except.mapError]

/-- The result of a check and what comes after it. -/
theorem check_eq_ok_iff {p : Prop} [Decidable p] {e : ε} {x : Except ε α} {a : α} :
    (if p then .error e else x) = .ok a ↔ ¬ p ∧ x = .ok a := by
  split
  · next hp => simp [hp]
  · next hp => simp [hp]

/-- A sequence after a check that returns nothing. -/
theorem isOk_then_iff {x : Except ε Unit} {y : Except ε β} :
    (x >>= fun _ => y).isOk = true ↔ x.isOk = true ∧ y.isOk = true := by
  rw [isOk_bind_iff, exists_and_right, ← isOk_iff_exists]

/-- The rule of a check that returns an error. -/
theorem isOk_check_iff {p : Prop} [Decidable p] {e : ε} {x : Except ε α} :
    (if p then .error e else x).isOk = true ↔ ¬ p ∧ x.isOk = true := by
  split
  · next hp => simp [hp]
  · next hp => simp [hp]

theorem check_bind {p : Prop} [Decidable p] {e : ε} {x : Except ε α} {f : α → Except ε β} :
    ((if p then .error e else x) >>= f) = if p then .error e else x >>= f := by
  split <;> rfl

/-- The rule of a loop over checks. -/
theorem isOk_forM_iff {f : α → Except ε Unit} {l : List α} :
    (l.forM f).isOk = true ↔ ∀ a ∈ l, (f a).isOk = true := by
  induction l with
  | nil => simp [pure, Except.pure]
  | cons a l ih =>
    rw [List.forall_mem_cons, ← ih]
    exact isOk_then_iff

end OpenHpcWeb.Lib
