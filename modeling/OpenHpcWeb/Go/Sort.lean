/-
  `sort.Slice`. It is not stable: where `less` leaves two elements tied, Go may place them
  either way. The model is an insertion sort, so a result about it is one about the source
  where no two elements are tied, which is what the callers here prove.

  * `sortSlice_pairwise`: the result is sorted.
  * `sortSlice_strict`: strictly, by a key that no two elements share.
  * `pairwise_ext`: a list that is strictly sorted is determined by its members.
-/
import Mathlib.Data.List.Sort

namespace OpenHpcWeb.Go

variable {α : Type}

/-- `sort.Slice` with the comparison as a function of the two elements. -/
def sortSlice (less : α → α → Bool) (l : List α) : List α :=
  l.insertionSort fun x y => less y x = false

theorem sortSlice_perm (less : α → α → Bool) (l : List α) : (sortSlice less l).Perm l :=
  List.perm_insertionSort _ l

@[simp] theorem mem_sortSlice {less : α → α → Bool} {l : List α} {a : α} :
    a ∈ sortSlice less l ↔ a ∈ l :=
  (sortSlice_perm less l).mem_iff

theorem sortSlice_pairwise (less : α → α → Bool) (hasymm : ∀ x y, less x y → less y x = false)
    (htrans : ∀ x y z, less y x = false → less z y = false → less z x = false) (l : List α) :
    (sortSlice less l).Pairwise fun x y => less y x = false := by
  have htotal : ∀ x y, less y x = false ∨ less x y = false := by
    intro x y
    cases h : less y x with
    | false => exact .inl rfl
    | true => exact .inr (hasymm y x h)
  have : Std.Total fun x y => less y x = false := ⟨htotal⟩
  have : IsTrans α fun x y => less y x = false := ⟨fun x y z => htrans x y z⟩
  exact List.pairwise_insertionSort _ l

/-- A list sorted by a key that no two of its elements share. -/
theorem sortSlice_strict {κ : Type} [LinearOrder κ] (key : α → κ) {l : List α}
    (h : (l.map key).Nodup) :
    (sortSlice (fun x y => key x < key y) l).Pairwise fun x y => key x < key y := by
  have hsorted := sortSlice_pairwise (fun x y => decide (key x < key y))
    (fun x y hxy => decide_eq_false (lt_asymm (of_decide_eq_true hxy)))
    (fun x y z hxy hyz => decide_eq_false (not_lt.mpr
      (le_trans (not_lt.mp (of_decide_eq_false hxy)) (not_lt.mp (of_decide_eq_false hyz))))) l
  have hkeys : ((sortSlice (fun x y => key x < key y) l).map key).Nodup :=
    ((sortSlice_perm _ l).map key).nodup_iff.mpr h
  refine hsorted.imp₂ (fun x y hle hne => ?_) (List.pairwise_map.mp hkeys)
  exact lt_of_le_of_ne (not_lt.mp (of_decide_eq_false hle)) hne

/-- Strictly sorted lists with the same members are equal. -/
theorem pairwise_ext {r : α → α → Prop} (hasymm : ∀ x y, r x y → ¬r y x) {l m : List α}
    (hl : l.Pairwise r) (hm : m.Pairwise r) (h : ∀ a, a ∈ l ↔ a ∈ m) : l = m := by
  have hne : ∀ {x y}, r x y → x ≠ y := by
    intro x y hxy heq
    rw [heq] at hxy
    exact hasymm y y hxy hxy
  have hp : l.Perm m := (List.perm_ext_iff_of_nodup (hl.imp hne) (hm.imp hne)).mpr h
  exact List.Perm.eq_of_pairwise (fun a b _ _ hab hba => absurd hba (hasymm a b hab)) hl hm hp

end OpenHpcWeb.Go
