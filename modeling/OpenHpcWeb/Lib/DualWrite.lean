/-
  Two copies of a table, written one after the other by concurrent writers.

  A writer changes the entry of a key in the first copy and from then on owes the second
  copy a write of the same key; nothing keeps the writes of others out in between. `InOrder`
  says of a write to the second copy that it does not fall behind: the key's last writer is
  the one who writes, or still owes its own write, or the first copy already has an entry
  that agrees.

  * `Ledger.Inv`: what every step keeps if the writes to the second copy are in order.
  * `Ledger.Inv.settled`: when nobody owes anything the two copies agree.
  * `Ledger.tell_behind`: a write that is not in order leaves them apart.
-/
import Mathlib.Logic.Function.Basic
import Mathlib.Tactic.Common

namespace OpenHpcWeb.Lib

/-- The two copies, with the last writer of each key and what each writer still owes. -/
structure Ledger (R K A B : Type) where
  first : K → A
  second : K → Option B
  writer : K → Option R
  owes : R → Option (K × B)

variable {R K A B : Type}

namespace Ledger

/-- The writer `j` still owes a write of `k`. -/
def Owes (s : Ledger R K A B) (j : R) (k : K) : Prop := (s.owes j).map Prod.fst = some k

/-- Writing `b` under `k` to the second copy does not fall behind the first. -/
def InOrder (agree : A → B → Prop) (s : Ledger R K A B) (i : R) (k : K) (b : B) : Prop :=
  s.writer k = some i ∨ (∃ j, s.writer k = some j ∧ s.Owes j k) ∨ agree (s.first k) b

instance [DecidableEq R] [DecidableEq K] (agree : A → B → Prop) [∀ a b, Decidable (agree a b)]
    (s : Ledger R K A B) (i : R) (k : K) (b : B) : Decidable (s.InOrder agree i k b) :=
  have : Decidable (∃ j, s.writer k = some j ∧ s.Owes j k) :=
    match _h : s.writer k with
    | none => isFalse fun ⟨_, hj, _⟩ => nomatch hj
    | some j => decidable_of_iff ((s.owes j).map Prod.fst = some k)
        ⟨fun hj => ⟨j, rfl, hj⟩, fun ⟨_, hj, howes⟩ => Option.some.inj hj ▸ howes⟩
  inferInstanceAs (Decidable (_ ∨ _ ∨ _))

structure Inv (agree : A → B → Prop) (s : Ledger R K A B) : Prop where
  owned : ∀ i k, s.Owes i k → s.writer k ≠ none
  told : ∀ k, s.second k ≠ none → s.writer k ≠ none
  /-- what the last writer of a key owes agrees with its entry -/
  last : ∀ k j b, s.writer k = some j → s.owes j = some (k, b) → agree (s.first k) b
  done : ∀ k j, s.writer k = some j → ¬ s.Owes j k →
    ∃ b, s.second k = some b ∧ agree (s.first k) b

variable {agree : A → B → Prop} {s s' : Ledger R K A B}

theorem inv_init {first : K → A} :
    Inv agree ⟨first, fun _ => none, fun _ => none, fun _ : R => none⟩ where
  owned _ _ h := nomatch h
  told _ h := absurd rfl h
  last _ _ _ h := nomatch h
  done _ _ h := nomatch h

theorem owes_iff {j : R} {k : K} : s.Owes j k ↔ ∃ b, s.owes j = some (k, b) := by
  unfold Owes
  rw [Option.map_eq_some_iff]
  constructor
  · rintro ⟨⟨k', b⟩, h, rfl⟩
    exact ⟨b, h⟩
  · rintro ⟨b, h⟩
    exact ⟨(k, b), h, rfl⟩

theorem not_owes_of_none {j : R} {k : K} (h : s.owes j = none) : ¬ s.Owes j k := by
  unfold Owes
  rw [h]
  exact fun hno => nomatch hno

/-- When nobody owes anything, the last write to the second copy agrees with the first. -/
theorem Inv.settled (h : Inv agree s) (hdone : ∀ j, s.owes j = none) {k : K}
    (hk : s.writer k ≠ none ∨ s.second k ≠ none) :
    ∃ b, s.second k = some b ∧ agree (s.first k) b := by
  obtain ⟨j, hj⟩ := Option.ne_none_iff_exists'.mp (hk.elim id (h.told k))
  exact h.done k j hj (not_owes_of_none (hdone j))

/-! ## Steps -/

section Steps

variable [DecidableEq R] [DecidableEq K]

def write (s : Ledger R K A B) (i : R) (k : K) (a : A) (b : B) : Ledger R K A B :=
  { s with
    first := Function.update s.first k a
    writer := Function.update s.writer k (some i)
    owes := Function.update s.owes i (some (k, b)) }

def tell (s : Ledger R K A B) (i : R) (k : K) (b : B) : Ledger R K A B :=
  { s with
    second := Function.update s.second k (some b)
    owes := Function.update s.owes i none }

/-- The steps in which writes to the second copy are in order. -/
inductive Move (agree : A → B → Prop) (s : Ledger R K A B) : Ledger R K A B → Prop
  | skip : Move agree s s
  | write {i k a b} (howes : s.owes i = none) (hab : agree a b) : Move agree s (s.write i k a b)
  | tell {i k b} (howes : s.owes i = some (k, b)) (horder : s.InOrder agree i k b) :
      Move agree s (s.tell i k b)

omit [DecidableEq K] in
/-- A writer with a new debt owes just that. -/
theorem owes_update {i j : R} {k : K} {debt : Option (K × B)} {t : Ledger R K A B}
    (ht : t.owes = Function.update s.owes i debt) :
    t.Owes j k ↔ (j = i ∧ debt.map Prod.fst = some k) ∨ (j ≠ i ∧ s.Owes j k) := by
  unfold Owes
  rw [ht]
  by_cases hj : j = i
  · subst hj
    simp
  · simp [hj]

theorem inv_write (h : Inv agree s) {i : R} {k : K} {a : A} {b : B} (howes : s.owes i = none)
    (hab : agree a b) : Inv agree (s.write i k a b) := by
  have hdebt : ∀ j q, (s.write i k a b).Owes j q ↔ (j = i ∧ k = q) ∨ (j ≠ i ∧ s.Owes j q) := by
    intro j q
    rw [owes_update (t := s.write i k a b) rfl]
    simp
  have hself : (s.write i k a b).writer k = some i := Function.update_self ..
  have hother : ∀ q, q ≠ k → (s.write i k a b).writer q = s.writer q :=
    fun q hq => Function.update_of_ne hq _ _
  have hfirst : ∀ q, q ≠ k → (s.write i k a b).first q = s.first q :=
    fun q hq => Function.update_of_ne hq _ _
  refine ⟨fun j q hj => ?_, fun q hq => ?_, fun q j b' hw hb => ?_, fun q j hw hj => ?_⟩
  · by_cases hqk : q = k
    · rw [hqk, hself]
      exact Option.some_ne_none i
    · rw [hother q hqk]
      rcases (hdebt j q).mp hj with ⟨-, hkq⟩ | ⟨-, hj⟩
      · exact absurd hkq.symm hqk
      · exact h.owned j q hj
  · by_cases hqk : q = k
    · rw [hqk, hself]
      exact Option.some_ne_none i
    · rw [hother q hqk]
      exact h.told q hq
  · by_cases hqk : q = k
    · subst hqk
      obtain rfl : i = j := Option.some.inj (hself.symm.trans hw)
      have hnew : (s.write i q a b).owes i = some (q, b) := Function.update_self ..
      rw [hnew] at hb
      cases hb
      show agree (Function.update s.first q a q) b
      rw [Function.update_self]
      exact hab
    · rw [hother q hqk] at hw
      have hji : j ≠ i := by
        rintro rfl
        have hnew : (s.write j k a b).owes j = some (k, b) := Function.update_self ..
        rw [hnew] at hb
        cases hb
        exact hqk rfl
      rw [hfirst q hqk]
      refine h.last q j b' hw ?_
      rw [← hb]
      exact (Function.update_of_ne hji _ _).symm
  · have hqk : q ≠ k := by
      rintro rfl
      obtain rfl : i = j := Option.some.inj (hself.symm.trans hw)
      exact hj ((hdebt i q).mpr (Or.inl ⟨rfl, rfl⟩))
    rw [hother q hqk] at hw
    rw [hfirst q hqk]
    refine h.done q j hw fun hold => ?_
    by_cases hji : j = i
    · subst hji
      exact not_owes_of_none howes hold
    · exact hj ((hdebt j q).mpr (Or.inr ⟨hji, hold⟩))

theorem inv_tell (h : Inv agree s) {i : R} {k : K} {b : B} (howes : s.owes i = some (k, b))
    (horder : s.InOrder agree i k b) : Inv agree (s.tell i k b) := by
  have hdebt : ∀ j q, (s.tell i k b).Owes j q ↔ j ≠ i ∧ s.Owes j q := by
    intro j q
    rw [owes_update (t := s.tell i k b) rfl]
    simp
  have hi : s.Owes i k := owes_iff.mpr ⟨b, howes⟩
  have hself : (s.tell i k b).second k = some b := Function.update_self ..
  have hother : ∀ q, q ≠ k → (s.tell i k b).second q = s.second q :=
    fun q hq => Function.update_of_ne hq _ _
  refine ⟨fun j q hj => h.owned j q ((hdebt j q).mp hj).2, fun q hq => ?_,
    fun q j b' hw hb => ?_, fun q j hw hj => ?_⟩
  · by_cases hqk : q = k
    · rw [hqk]
      exact h.owned i k hi
    · rw [hother q hqk] at hq
      exact h.told q hq
  · have hji : j ≠ i := ((hdebt j q).mp (owes_iff.mpr ⟨b', hb⟩)).1
    refine h.last q j b' hw ?_
    rw [← hb]
    exact (Function.update_of_ne hji _ _).symm
  · by_cases hqk : q = k
    · subst hqk
      refine ⟨b, hself, ?_⟩
      -- the writer is `i`, or owed nothing before this step either
      rcases horder with hwi | ⟨j', hwj, howj⟩ | hagree
      · exact h.last q i b hwi howes
      · obtain rfl : j' = j := Option.some.inj (hwj.symm.trans hw)
        by_cases hji : j' = i
        · subst hji
          exact h.last q j' b hw howes
        · exact absurd ((hdebt j' q).mpr ⟨hji, howj⟩) hj
      · exact hagree
    · rw [hother q hqk]
      refine h.done q j hw fun hold => ?_
      by_cases hji : j = i
      · subst hji
        obtain ⟨b', hb'⟩ := owes_iff.mp hold
        rw [howes] at hb'
        cases hb'
        exact hqk rfl
      · exact hj ((hdebt j q).mpr ⟨hji, hold⟩)

/-- Every step keeps the invariant. -/
theorem inv_move (h : Inv agree s) (hm : Move agree s s') : Inv agree s' := by
  cases hm with
  | skip => exact h
  | write howes hab => exact inv_write h howes hab
  | tell howes horder => exact inv_tell h howes horder

/-- A write that falls behind leaves the copies apart, with nobody left who has to write
    the key again. -/
theorem tell_behind {i : R} {k : K} {b : B} (hno : ¬ s.InOrder agree i k b) :
    (s.tell i k b).second k = some b ∧ ¬ agree ((s.tell i k b).first k) b ∧
      ∀ j, s.writer k = some j → ¬ (s.tell i k b).Owes j k := by
  unfold InOrder at hno
  refine ⟨Function.update_self .., fun h => hno (Or.inr (Or.inr h)), fun j hj howes => ?_⟩
  rw [owes_update (t := s.tell i k b) rfl] at howes
  rcases howes with ⟨-, hnone⟩ | ⟨-, howes⟩
  · cases hnone
  · exact hno (Or.inr (Or.inl ⟨j, hj, howes⟩))

end Steps

end Ledger

end OpenHpcWeb.Lib
