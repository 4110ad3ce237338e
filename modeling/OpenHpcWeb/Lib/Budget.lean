/-
  Spending a budget: each cost is charged when it fits into what is left of the limit, and
  refused otherwise.

  * `spend_bind`: two charges one after the other are one charge of their sum.
  * `foldlM_spend`: so a loop that charges an element at a time charges the sum.
-/
import Mathlib.Algebra.BigOperators.Group.List.Basic
import Mathlib.Algebra.Order.Ring.Nat
import Mathlib.Tactic.Common

namespace OpenHpcWeb.Lib

variable {limit : Nat}

/-- What is used after a charge; `none` is a charge that does not fit. -/
def spend (limit cost used : Nat) : Option Nat :=
  if limit - used < cost then none else some (used + cost)

@[simp] theorem spend_zero (used : Nat) : spend limit 0 used = some used := by
  simp [spend]

theorem spend_bind (a b used : Nat) :
    (spend limit a used).bind (spend limit b) = spend limit (a + b) used := by
  unfold spend
  by_cases ha : limit - used < a
  · rw [if_pos ha, if_pos (by omega), Option.bind_none]
  · rw [if_neg ha, Option.bind_some]
    by_cases hb : limit - (used + a) < b
    · rw [if_pos hb, if_pos (by omega)]
    · rw [if_neg hb, if_neg (by omega), Nat.add_assoc]

theorem foldlM_spend {α : Type} (step : Nat → α → Option Nat) (cost : α → Nat)
    (h : ∀ used a, step used a = spend limit (cost a) used) (l : List α) (used : Nat) :
    l.foldlM step used = spend limit (l.map cost).sum used := by
  induction l generalizing used with
  | nil => exact (spend_zero used).symm
  | cons a l ih =>
    rw [List.foldlM_cons, h, List.map_cons, List.sum_cons, ← spend_bind]
    exact congrArg _ (funext ih)

end OpenHpcWeb.Lib
