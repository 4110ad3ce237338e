/-
  Things inserted after a check, and revocations that remove them.

  A worker passes a check, and some time later inserts its thing into a collection. A
  revocation removes everything it covers from the collection in one step. It counts against
  the workers whose check it was not yet over at (`since`), and against each of them the
  removal may come too early: the worker inserts its thing behind it. `InTime` says of an
  insertion that it does not.

  * `Inv.move`: if insertions are in time, nothing that a revocation counts against is held
    once it has removed what it covers.
  * `not_inv_of_late`: after an insertion that is not in time something is.
-/
import Mathlib.Logic.Basic
import Mathlib.Tactic.Common

namespace OpenHpcWeb.Lib

/-- What the workers `I` hold, and what the revocations `J` have removed. -/
structure Revocable (I J : Type) where
  /-- the thing of the worker is in the collection -/
  held : I → Prop
  /-- the revocation counts against the worker -/
  since : I → J → Prop
  /-- the revocation has removed what it covers -/
  purged : J → Prop

namespace Revocable

variable {I J : Type} (covers : J → I → Prop) {s s' : Revocable I J}

/-- No revocation that counts against the worker has removed its kind already. -/
def InTime (s : Revocable I J) (i : I) : Prop :=
  ∀ j, s.since i j → s.purged j → ¬ covers j i

/-- Nothing is held that a revocation counts against and has removed. -/
def Inv (s : Revocable I J) : Prop :=
  ∀ i j, s.since i j → s.purged j → covers j i → ¬ s.held i

/-- The steps in which insertions are in time. -/
inductive Move (s s' : Revocable I J) : Prop
  /-- nothing new is held or removed; revocations that have removed nothing may begin -/
  | keep (held : ∀ i, s'.held i → s.held i)
      (since : ∀ i j, s'.since i j → s.since i j ∨ ¬ s'.purged j)
      (purged : ∀ j, s'.purged j → s.purged j)
  /-- a worker that holds nothing passes its check -/
  | check (i : I) (new : ¬ s'.held i) (held : ∀ i, s'.held i → s.held i)
      (since : ∀ i' j, i' ≠ i → s'.since i' j → s.since i' j)
      (purged : ∀ j, s'.purged j → s.purged j)
  | insert (i : I) (inTime : s.InTime covers i) (held : ∀ i', s'.held i' → i' = i ∨ s.held i')
      (since : ∀ i' j, s'.since i' j → s.since i' j) (purged : ∀ j, s'.purged j → s.purged j)
  | purge (j : J) (held : ∀ i, s'.held i → s.held i ∧ ¬ covers j i)
      (since : ∀ i' j, s'.since i' j → s.since i' j)
      (purged : ∀ j', s'.purged j' → j' = j ∨ s.purged j')

variable {covers}

theorem Inv.move (h : s.Inv covers) (hmove : Move covers s s') : s'.Inv covers := by
  intro i j hsince hpurged hcovers hheld
  cases hmove with
  | keep held since purged =>
    rcases since i j hsince with hsince | hno
    · exact h i j hsince (purged j hpurged) hcovers (held i hheld)
    · exact hno hpurged
  | check i₀ new held since purged =>
    by_cases hi : i = i₀
    · subst hi
      exact new hheld
    · exact h i j (since i j hi hsince) (purged j hpurged) hcovers (held i hheld)
  | insert i₀ inTime held since purged =>
    rcases held i hheld with rfl | hheld
    · exact inTime j (since i j hsince) (purged j hpurged) hcovers
    · exact h i j (since i j hsince) (purged j hpurged) hcovers hheld
  | purge j₀ held since purged =>
    obtain ⟨hheld, hnot⟩ := held i hheld
    rcases purged j hpurged with rfl | hpurged
    · exact hnot hcovers
    · exact h i j (since i j hsince) hpurged hcovers hheld

/-- An insertion that is not in time breaks the invariant. -/
theorem not_inv_of_late {i : I} (hlate : ¬ s.InTime covers i) (hheld : s'.held i)
    (since : ∀ j, s.since i j → s'.since i j) (purged : ∀ j, s.purged j → s'.purged j) :
    ¬ s'.Inv covers := by
  intro hinv
  refine hlate fun j hsince hpurged hcovers => ?_
  exact hinv i j (since j hsince) (purged j hpurged) hcovers hheld

end Revocable

end OpenHpcWeb.Lib
