/-
  Elements collected in a map by their keys, where two elements of one key must be equal.

  * `Holds.put`: an element that agrees with what its key has is added.
  * `Holds.consistent`: a map that holds a list shows that no two of its elements conflict.
  * `exists_conflict`: a key that has another element is a conflict.
-/
import Mathlib.Data.List.AList

namespace OpenHpcWeb.Lib.Unique

variable {α κ : Type}

/-- Elements of one key are equal. -/
def Consistent (key : α → κ) (as : List α) : Prop :=
  ∀ a ∈ as, ∀ b ∈ as, key a = key b → a = b

variable [DecidableEq κ] {key : α → κ} {as : List α} {m : AList fun _ : κ => α}

/-- The map has the elements of the list, each under its key, and no other. -/
def Holds (key : α → κ) (as : List α) (m : AList fun _ : κ => α) : Prop :=
  ∀ k a, m.lookup k = some a ↔ a ∈ as ∧ key a = k

theorem Holds.nil : Holds key [] ∅ := by
  intro k a
  simp

theorem Holds.put (h : Holds key as m) {a : α} (hfree : ∀ b, m.lookup (key a) = some b → b = a) :
    Holds key (as ++ [a]) (m.insert (key a) a) := by
  intro k b
  rw [List.mem_append, List.mem_singleton]
  by_cases hk : k = key a
  · subst hk
    rw [AList.lookup_insert, Option.some.injEq]
    constructor
    · rintro rfl
      exact ⟨.inr rfl, rfl⟩
    · rintro ⟨hb | rfl, hkey⟩
      · exact (hfree b ((h _ b).mpr ⟨hb, hkey⟩)).symm
      · rfl
  · rw [AList.lookup_insert_ne hk, h k b]
    constructor
    · rintro ⟨hb, hkey⟩
      exact ⟨.inl hb, hkey⟩
    · rintro ⟨hb | rfl, hkey⟩
      · exact ⟨hb, hkey⟩
      · exact absurd hkey.symm hk

theorem Holds.consistent (h : Holds key as m) : Consistent key as := by
  intro a ha b hb hkey
  have hlookup := (h (key a) a).mpr ⟨ha, rfl⟩
  rw [(h (key a) b).mpr ⟨hb, hkey.symm⟩] at hlookup
  exact (Option.some.inj hlookup).symm

/-- A key that has another element is a conflict. -/
theorem exists_conflict (h : Holds key as m) {a b : α} (hlookup : m.lookup (key a) = some b)
    (hne : b ≠ a) : ¬ Consistent key (as ++ [a]) := by
  intro hconsistent
  obtain ⟨hb, hkey⟩ := (h (key a) b).mp hlookup
  exact hne (hconsistent b (by simp [hb]) a (by simp) hkey)

/-- The values of the map are the elements of the list. -/
theorem Holds.mem_values (h : Holds key as m) {a : α} :
    a ∈ m.entries.map (fun entry => entry.2) ↔ a ∈ as := by
  rw [List.mem_map]
  constructor
  · rintro ⟨entry, hentry, rfl⟩
    exact ((h entry.1 entry.2).mp (AList.mem_lookup_iff.mpr hentry)).1
  · intro ha
    exact ⟨⟨key a, a⟩, AList.mem_lookup_iff.mp ((h (key a) a).mpr ⟨ha, rfl⟩), rfl⟩

/-- No two values of the map have one key. -/
theorem Holds.nodup_keys (h : Holds key as m) :
    ((m.entries.map fun entry => entry.2).map key).Nodup := by
  have hkeys : (m.entries.map fun entry => entry.2).map key = m.keys := by
    rw [List.map_map]
    refine List.map_congr_left fun entry hentry => ?_
    exact ((h entry.1 entry.2).mp (AList.mem_lookup_iff.mpr hentry)).2
  rw [hkeys]
  exact m.keys_nodup

end OpenHpcWeb.Lib.Unique
