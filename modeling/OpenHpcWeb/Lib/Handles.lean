/-
  Handles that are acquired and released: what is held after some events, where nothing is
  acquired that is held already and nothing is released that is not.

  * `heldAfter_append`: events one after the other.
  * `heldAfter_nodup`: no handle is held twice.
  * `heldAfter_count`: each handle is released as often as it is acquired, but for those that
    are held at the end.
-/
import Mathlib.Data.List.Count
import Mathlib.Data.List.Nodup
import Mathlib.Tactic.Common

namespace OpenHpcWeb.Lib

inductive HandleEvent (η : Type) where
  | acquire (handle : η)
  | release (handle : η)
  deriving DecidableEq

variable {η : Type} [DecidableEq η]

/-- What is held after one event; `none` is an event that cannot be. -/
def HandleEvent.apply (held : List η) : HandleEvent η → Option (List η)
  | .acquire handle => if handle ∈ held then none else some (handle :: held)
  | .release handle => if handle ∈ held then some (held.erase handle) else none

def heldAfter (held : List η) (events : List (HandleEvent η)) : Option (List η) :=
  events.foldlM HandleEvent.apply held

theorem heldAfter_append (held : List η) (events events' : List (HandleEvent η)) :
    heldAfter held (events ++ events') =
      (heldAfter held events).bind fun held' => heldAfter held' events' :=
  List.foldlM_append

/-- No handle is held twice. -/
theorem heldAfter_nodup {held left : List η} {events : List (HandleEvent η)} (hheld : held.Nodup)
    (h : heldAfter held events = some left) : left.Nodup := by
  induction events generalizing held with
  | nil =>
    obtain rfl := Option.some.inj h
    exact hheld
  | cons event events ih =>
    rw [heldAfter, List.foldlM_cons] at h
    obtain ⟨next, hevent, hrest⟩ := Option.bind_eq_some_iff.mp h
    refine ih ?_ hrest
    unfold HandleEvent.apply at hevent
    cases event with
    | acquire x =>
      dsimp only at hevent
      split at hevent
      · cases hevent
      · next hfree =>
        obtain rfl := Option.some.inj hevent
        exact List.nodup_cons.mpr ⟨hfree, hheld⟩
    | release x =>
      dsimp only at hevent
      split at hevent
      · obtain rfl := Option.some.inj hevent
        exact hheld.erase x
      · cases hevent

/-- Every handle is released as often as it is acquired, or held. -/
theorem heldAfter_count {held left : List η} {events : List (HandleEvent η)}
    (h : heldAfter held events = some left) (handle : η) :
    held.count handle + events.count (.acquire handle) =
      events.count (.release handle) + left.count handle := by
  induction events generalizing held with
  | nil =>
    obtain rfl := Option.some.inj h
    simp
  | cons event events ih =>
    rw [heldAfter, List.foldlM_cons] at h
    obtain ⟨next, hevent, hrest⟩ := Option.bind_eq_some_iff.mp h
    have hcount := ih hrest
    unfold HandleEvent.apply at hevent
    cases event with
    | acquire x =>
      dsimp only at hevent
      split at hevent
      · cases hevent
      · obtain rfl := Option.some.inj hevent
        rw [List.count_cons] at hcount
        simp only [List.count_cons, beq_iff_eq, HandleEvent.acquire.injEq, reduceCtorEq,
          if_false] at hcount ⊢
        omega
    | release x =>
      dsimp only at hevent
      split at hevent
      · next hmem =>
        obtain rfl := Option.some.inj hevent
        have hpos := List.count_pos_iff.mpr hmem
        rw [List.count_erase] at hcount
        simp only [List.count_cons, beq_iff_eq, HandleEvent.release.injEq, reduceCtorEq,
          if_false] at hcount ⊢
        split at hcount
        · next heq =>
          subst heq
          rw [if_pos rfl]
          omega
        · next hne =>
          rw [if_neg hne]
          omega
      · cases hevent

end OpenHpcWeb.Lib
