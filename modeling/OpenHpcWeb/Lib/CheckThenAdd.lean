/-
  Items added after a check that nothing in the way is there.

  A worker looks for items that clash with its own, in a part of the collection (`scope`), and
  some time later adds its item without looking again. `later` is what has been added since
  the check of each worker. What the check has found to be free can be taken by the time of
  the add, and what lies outside the scope the check has not seen: `Free` says that neither
  has happened.

  * `Inv.move`: whatever clashes with the item of a checked worker, within the scope, has been
    added since its check.
  * `clean_add_iff`: an add keeps the collection free of clashes exactly when its item is free.
-/
import Mathlib.Data.List.Pairwise
import Mathlib.Tactic.Common

namespace OpenHpcWeb.Lib.CheckThenAdd

variable {I E : Type}

/-- The collection, and what has been added since the checks of the workers that made one. -/
structure Table (I E : Type) where
  items : List E
  later : I → Option (List E)

variable (clash : E → E → Prop) (scope : E → Prop) (item : I → E) {t t' : Table I E} {i : I}

/-- No two items clash. -/
def Clean (items : List E) : Prop := items.Pairwise fun x y => ¬ clash x y

namespace Table

structure Inv (t : Table I E) : Prop where
  seen : ∀ i added, t.later i = some added → ∀ x ∈ t.items, scope x → clash x (item i) → x ∈ added
  kept : ∀ i added, t.later i = some added → ∀ x ∈ added, x ∈ t.items

/-- Nothing outside the scope clashes with the item of the worker, and nothing that was added
    since its check. -/
def Free (t : Table I E) (i : I) : Prop :=
  (∀ x ∈ t.items, ¬ scope x → ¬ clash x (item i)) ∧
    ∀ added, t.later i = some added → ∀ x ∈ added, ¬ clash x (item i)

/-- The steps of the workers. -/
inductive Move (t t' : Table I E) : Prop
  | keep (items : t'.items = t.items) (later : t'.later = t.later)
  /-- a check that finds nothing in the way -/
  | check (i : I) (clear : ∀ x ∈ t.items, scope x → ¬ clash x (item i)) (items : t'.items = t.items)
      (own : t'.later i = some []) (others : ∀ i', i' ≠ i → t'.later i' = t.later i')
  | add (x : E) (items : t'.items = t.items ++ [x])
      (later : ∀ i, t'.later i = (t.later i).map fun added => added ++ [x])

variable {clash scope item}

theorem Inv.move (h : t.Inv clash scope item) (hmove : Move clash scope item t t') :
    t'.Inv clash scope item := by
  cases hmove with
  | keep items later =>
    constructor
    · rw [items, later]
      exact h.seen
    · rw [items, later]
      exact h.kept
  | check i₀ clear items own others =>
    constructor
    · intro i added hlater x hx hscope hclash
      rw [items] at hx
      by_cases hi : i = i₀
      · subst hi
        exact absurd hclash (clear x hx hscope)
      · rw [others i hi] at hlater
        exact h.seen i added hlater x hx hscope hclash
    · intro i added hlater x hx
      rw [items]
      by_cases hi : i = i₀
      · subst hi
        rw [own] at hlater
        cases hlater
        cases hx
      · rw [others i hi] at hlater
        exact h.kept i added hlater x hx
  | add y items later =>
    constructor
    · intro i added hlater x hx hscope hclash
      rw [later i] at hlater
      obtain ⟨before, hbefore, rfl⟩ := Option.map_eq_some_iff.mp hlater
      rw [items, List.mem_append] at hx
      rw [List.mem_append]
      exact hx.imp_left fun hx => h.seen i before hbefore x hx hscope hclash
    · intro i added hlater x hx
      rw [later i] at hlater
      obtain ⟨before, hbefore, rfl⟩ := Option.map_eq_some_iff.mp hlater
      rw [List.mem_append] at hx
      rw [items, List.mem_append]
      exact hx.imp_left (h.kept i before hbefore x)

/-- With the invariant, freedom from clashes is what `Free` asks for. -/
theorem Inv.free_iff (h : t.Inv clash scope item) {added : List E} (hlater : t.later i = some added) :
    t.Free clash scope item i ↔ ∀ x ∈ t.items, ¬ clash x (item i) := by
  constructor
  · rintro ⟨houtside, hsince⟩ x hx hclash
    by_cases hscope : scope x
    · exact hsince added hlater x (h.seen i added hlater x hx hscope hclash) hclash
    · exact houtside x hx hscope hclash
  · intro hfree
    refine ⟨fun x hx _ => hfree x hx, fun added' hlater' x hx => ?_⟩
    exact hfree x (h.kept i added' hlater' x hx)

theorem Inv.clean_add_iff (h : t.Inv clash scope item) {added : List E}
    (hlater : t.later i = some added) (hclean : Clean clash t.items) :
    Clean clash (t.items ++ [item i]) ↔ t.Free clash scope item i := by
  rw [h.free_iff hlater]
  unfold Clean at hclean ⊢
  rw [List.pairwise_append]
  simp [hclean]

end Table

end OpenHpcWeb.Lib.CheckThenAdd
