/-
  Read-your-writes for values that are computed from the output of numbered commands and
  kept for later readers.

  `ε` is the type of the kinds of changes, `κ` of the kinds of readers. A change of kind `e`
  stamped `n` comes after the commands numbered below `n` and before all others. An `Origin`
  says which commands a kept value is from and which changes have been made since and have
  left it in place (`outdate`).

  * `Origin.Sound`: `since` tells exactly which changes the commands do not show.
  * `readYourWrites_returned_iff`: returning a value keeps the law exactly if no change that
    affects the reader has been made since.
-/
import Mathlib.Data.List.Basic
import Mathlib.Tactic.Common

namespace OpenHpcWeb.Lib

variable {ε κ : Type}

structure Origin (ε : Type) where
  commands : List Nat
  since : List ε
  deriving DecidableEq

inductive Event (ε κ : Type) where
  | changed (e : ε) (stamp : Nat)
  | returned (reader : κ) (commands : List Nat)
  deriving DecidableEq

/-- Every value returned is from commands after all earlier changes that affect its reader.
    The newest event comes first. -/
def ReadYourWrites (affects : ε → κ → Bool) : List (Event ε κ) → Prop
  | [] => True
  | .changed _ _ :: earlier => ReadYourWrites affects earlier
  | .returned reader commands :: earlier =>
    (∀ e stamp, .changed e stamp ∈ earlier → affects e reader = true →
      ∀ i ∈ commands, stamp ≤ i) ∧ ReadYourWrites affects earlier

/-- A change that leaves the value in place; a value from no command shows no change. -/
def Origin.outdate (e : ε) (o : Origin ε) : Origin ε :=
  { o with since := if o.commands = [] then [] else e :: o.since }

/-- The origin of a value made of two. -/
def Origin.join (o o' : Origin ε) : Origin ε := ⟨o.commands ++ o'.commands, o.since ++ o'.since⟩

/-- `o` is right about the changes of `history`, `n` commands having been started. -/
structure Origin.Sound (history : List (Event ε κ)) (n : Nat) (o : Origin ε) : Prop where
  past : ∀ i ∈ o.commands, i < n
  covers : ∀ e stamp, .changed e stamp ∈ history → e ∈ o.since ∨ ∀ i ∈ o.commands, stamp ≤ i
  exact : ∀ e ∈ o.since, ∃ stamp, .changed e stamp ∈ history ∧ ∃ i ∈ o.commands, i < stamp

variable {history : List (Event ε κ)} {n : Nat} {o o' : Origin ε}

/-- A value from nothing. -/
theorem sound_nil : Origin.Sound history n ⟨[], []⟩ where
  past _ h := nomatch h
  covers _ _ _ := Or.inr fun _ h => nomatch h
  exact _ h := nomatch h

/-- A value from the command started last. -/
theorem sound_new (hstamps : ∀ e stamp, .changed e stamp ∈ history → stamp ≤ n) :
    Origin.Sound history (n + 1) ⟨[n], []⟩ where
  past i hi := by
    rw [List.mem_singleton.mp hi]
    exact Nat.lt_succ_self n
  covers e stamp h := Or.inr fun i hi => by
    rw [List.mem_singleton.mp hi]
    exact hstamps e stamp h
  exact _ h := nomatch h

theorem Origin.Sound.mono {m : Nat} (h : o.Sound history n) (hle : n ≤ m) : o.Sound history m :=
  ⟨fun i hi => Nat.lt_of_lt_of_le (h.past i hi) hle, h.covers, h.exact⟩

theorem Origin.Sound.join (h : o.Sound history n) (h' : o'.Sound history n) :
    (o.join o').Sound history n where
  past i hi := (List.mem_append.mp hi).elim (h.past i) (h'.past i)
  covers e stamp hmem := by
    rcases h.covers e stamp hmem with hsince | hall
    · exact Or.inl (List.mem_append_left _ hsince)
    · rcases h'.covers e stamp hmem with hsince | hall'
      · exact Or.inl (List.mem_append_right _ hsince)
      · exact Or.inr fun i hi => (List.mem_append.mp hi).elim (hall i) (hall' i)
  exact e he := by
    rcases List.mem_append.mp he with he | he
    · obtain ⟨stamp, hmem, i, hi, hlt⟩ := h.exact e he
      exact ⟨stamp, hmem, i, List.mem_append_left _ hi, hlt⟩
    · obtain ⟨stamp, hmem, i, hi, hlt⟩ := h'.exact e he
      exact ⟨stamp, hmem, i, List.mem_append_right _ hi, hlt⟩

/-- A change stamped now is one since the value was made. -/
theorem Origin.Sound.outdate (h : o.Sound history n) (e : ε) :
    (o.outdate e).Sound (.changed e n :: history) n := by
  unfold Origin.outdate
  by_cases hnil : o.commands = []
  · rw [if_pos hnil]
    refine ⟨h.past, fun _ _ _ => Or.inr fun i hi => ?_, fun _ he => nomatch he⟩
    simp only [hnil] at hi
    cases hi
  · rw [if_neg hnil]
    refine ⟨h.past, fun e' stamp hmem => ?_, fun e' he' => ?_⟩
    · rcases List.mem_cons.mp hmem with heq | hmem
      · cases heq
        exact Or.inl List.mem_cons_self
      · exact (h.covers e' stamp hmem).imp_left (List.mem_cons_of_mem _)
    · rcases List.mem_cons.mp he' with rfl | he'
      · obtain ⟨i, hi⟩ := List.exists_mem_of_ne_nil _ hnil
        exact ⟨n, List.mem_cons_self, i, hi, h.past i hi⟩
      · obtain ⟨stamp, hmem, hi⟩ := h.exact e' he'
        exact ⟨stamp, List.mem_cons_of_mem _ hmem, hi⟩

/-- A value returned is no change. -/
theorem Origin.Sound.returned (h : o.Sound history n) (reader : κ) (commands : List Nat) :
    o.Sound (.returned reader commands :: history) n where
  past := h.past
  covers e stamp hmem := h.covers e stamp (by simpa using hmem)
  exact e he := by
    obtain ⟨stamp, hmem, hi⟩ := h.exact e he
    exact ⟨stamp, List.mem_cons_of_mem _ hmem, hi⟩

/-- Returning a value keeps the law exactly if no change that affects the reader has been
    made since. -/
theorem readYourWrites_returned_iff {affects : ε → κ → Bool} (h : o.Sound history n)
    (reader : κ) : ReadYourWrites affects (.returned reader o.commands :: history) ↔
      (∀ e ∈ o.since, affects e reader = false) ∧ ReadYourWrites affects history := by
  refine and_congr_left fun _ => ⟨fun hall e he => ?_, fun hno e stamp hmem haff => ?_⟩
  · obtain ⟨stamp, hmem, i, hi, hlt⟩ := h.exact e he
    by_contra haff
    rw [Bool.not_eq_false] at haff
    exact absurd (hall e stamp hmem haff i hi) (Nat.not_le_of_lt hlt)
  · refine (h.covers e stamp hmem).resolve_left fun he => ?_
    rw [hno e he] at haff
    cases haff

end OpenHpcWeb.Lib
