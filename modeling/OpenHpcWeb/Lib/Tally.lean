/-
  Sums of weights over the elements of a list, kept apart by a key.

  `tally key w l k` is what a map filled by the loop `m[key(a)] += w(a)` over `l` holds at
  `k`.

  * `tally_le_sum`: with weights that are not negative, no entry is above the sum over the
    whole list; so where the whole sum fits a machine integer, every entry does.
  * `sum_tally`: the entries of keys that cover the list add up to the whole sum.
  * `tally_perm`: the order of the list does not matter.
-/
import Mathlib.Algebra.Order.BigOperators.Group.List
import Mathlib.Data.List.Perm.Basic

namespace OpenHpcWeb.Lib

variable {α κ M : Type} [DecidableEq κ]

/-- The sum of the weights of the elements under one key. -/
def tally [AddMonoid M] (key : α → κ) (w : α → M) (l : List α) (k : κ) : M :=
  ((l.filter fun a => key a = k).map w).sum

section Sums

variable [AddCommMonoid M] (key : α → κ) (w : α → M)

@[simp] theorem tally_nil (k : κ) : tally key w [] k = 0 := rfl

theorem tally_cons (a : α) (l : List α) (k : κ) :
    tally key w (a :: l) k = (if key a = k then w a else 0) + tally key w l k := by
  unfold tally
  rw [List.filter_cons]
  by_cases h : key a = k
  · simp [h]
  · simp [h]

theorem tally_append (l m : List α) (k : κ) :
    tally key w (l ++ m) k = tally key w l k + tally key w m k := by
  simp [tally]

/-- One element more. -/
theorem tally_concat (l : List α) (a : α) (k : κ) :
    tally key w (l ++ [a]) k = tally key w l k + if key a = k then w a else 0 := by
  rw [tally_append, tally_cons, tally_nil, add_zero]

theorem tally_perm {l m : List α} (h : l.Perm m) (k : κ) : tally key w l k = tally key w m k :=
  ((h.filter _).map w).sum_eq

variable {key w}

theorem tally_eq_zero {l : List α} {k : κ} (h : ∀ a ∈ l, key a = k → w a = 0) :
    tally key w l k = 0 := by
  apply List.sum_eq_zero
  intro x hx
  obtain ⟨a, ha, rfl⟩ := List.mem_map.mp hx
  obtain ⟨hal, hk⟩ := List.mem_filter.mp ha
  exact h a hal (by simpa using hk)

/-- A weight that is 0 off `p` is a sum over the elements with `p`. -/
theorem sum_map_guard (p : α → Prop) [DecidablePred p] (l : List α) :
    (l.map fun a => if p a then w a else 0).sum = ((l.filter fun a => p a).map w).sum := by
  induction l with
  | nil => rfl
  | cons a l ih =>
    rw [List.map_cons, List.sum_cons, ih]
    by_cases h : p a
    · simp [h]
    · simp [h]

theorem tally_guard (p : α → Prop) [DecidablePred p] (l : List α) (k : κ) :
    tally key (fun a => if p a then w a else 0) l k =
      tally key w (l.filter fun a => p a) k := by
  rw [tally, tally, sum_map_guard, List.filter_filter, List.filter_filter]
  simp only [Bool.and_comm]

theorem tally_congr {w' : α → M} {l : List α} (h : ∀ a ∈ l, w a = w' a) (k : κ) :
    tally key w l k = tally key w' l k := by
  unfold tally
  rw [List.map_congr_left fun a ha => h a (List.mem_filter.mp ha).1]

/-- Weights that are sums of two give tallies that are. -/
theorem tally_add {w₁ w₂ : α → M} {l : List α} (h : ∀ a ∈ l, w a = w₁ a + w₂ a) (k : κ) :
    tally key w l k = tally key w₁ l k + tally key w₂ l k := by
  unfold tally
  rw [← List.sum_map_add]
  have hcongr : (l.filter fun a => key a = k).map w =
      (l.filter fun a => key a = k).map fun a => w₁ a + w₂ a :=
    List.map_congr_left fun a ha => h a (List.mem_filter.mp ha).1
  rw [hcongr]

/-- Over a list of distinct keys, the one that is `k` is the only one to count. -/
private theorem sum_map_ite {ks : List κ} (hnd : ks.Nodup) (k : κ) (x : M) :
    (ks.map fun k' => if k = k' then x else 0).sum = if k ∈ ks then x else 0 := by
  induction ks with
  | nil => simp
  | cons k' ks ih =>
    have hk' : k' ∉ ks := (List.nodup_cons.mp hnd).1
    rw [List.map_cons, List.sum_cons, ih (List.nodup_cons.mp hnd).2]
    by_cases h : k = k'
    · simp [h, hk']
    · simp [h]

/-- Keys without repetition that cover every element of some weight split the whole sum. -/
theorem sum_tally {ks : List κ} (hnd : ks.Nodup) {l : List α}
    (hcover : ∀ a ∈ l, w a ≠ 0 → key a ∈ ks) :
    (ks.map (tally key w l)).sum = (l.map w).sum := by
  induction l with
  | nil =>
    apply List.sum_eq_zero
    intro x hx
    obtain ⟨k, -, rfl⟩ := List.mem_map.mp hx
    rfl
  | cons a l ih =>
    have hrest := ih fun b hb => hcover b (List.mem_cons_of_mem a hb)
    have hsplit : ks.map (tally key w (a :: l)) =
        ks.map fun k => (if key a = k then w a else 0) + tally key w l k :=
      List.map_congr_left fun k _ => tally_cons key w a l k
    have ha : (if key a ∈ ks then w a else 0) = w a := by
      by_cases hw : w a = 0
      · simp [hw]
      · rw [if_pos (hcover a List.mem_cons_self hw)]
    calc (ks.map (tally key w (a :: l))).sum
        = (ks.map fun k => if key a = k then w a else 0).sum + (ks.map (tally key w l)).sum := by
          rw [hsplit, List.sum_map_add]
      _ = w a + (l.map w).sum := by rw [sum_map_ite hnd, ha, hrest]
      _ = ((a :: l).map w).sum := by rw [List.map_cons, List.sum_cons]

end Sums

section Order

variable [AddCommMonoid M] [PartialOrder M] [IsOrderedAddMonoid M] {key : α → κ} {w : α → M}

theorem tally_nonneg {l : List α} (h : ∀ a ∈ l, 0 ≤ w a) (k : κ) : 0 ≤ tally key w l k := by
  apply List.sum_nonneg
  intro x hx
  obtain ⟨a, ha, rfl⟩ := List.mem_map.mp hx
  exact h a (List.mem_filter.mp ha).1

theorem tally_le_sum {l : List α} (h : ∀ a ∈ l, 0 ≤ w a) (k : κ) :
    tally key w l k ≤ (l.map w).sum := by
  apply List.Sublist.sum_le_sum
  · exact List.filter_sublist.map w
  · intro x hx
    obtain ⟨a, ha, rfl⟩ := List.mem_map.mp hx
    exact h a ha

end Order

end OpenHpcWeb.Lib
