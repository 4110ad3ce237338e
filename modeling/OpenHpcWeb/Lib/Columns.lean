/-
  Tables that get the columns a new version of a program expects, one statement after the other.

  A migration looks which columns there are and adds those that are missing, each with a value
  for the rows that exist. Its statements commit one by one: what fails or is cut off leaves
  the table between two versions.

  * `complete`: the table with all columns, and the values that the missing ones would get.
  * `ensureColumns_complete`: no attempt, wherever it ends, changes `complete`.
  * `ensureColumns_ok`: an attempt that succeeds leaves `complete`.
-/
import Mathlib.Logic.Function.Basic
import OpenHpcWeb.Lib.Tx

namespace OpenHpcWeb.Lib

variable {V : Type}

/-- A table: every row has a value in every column. -/
structure Table (V : Type) where
  columns : List String
  rows : List (String → Option V)
  filled : ∀ row ∈ rows, ∀ c, row c ≠ none ↔ c ∈ columns

namespace Table

@[ext] theorem ext {t t' : Table V} (hcolumns : t.columns = t'.columns) (hrows : t.rows = t'.rows) :
    t = t' := by
  cases t
  cases t'
  simp_all

/-- A table without rows. -/
def empty (columns : List String) : Table V := ⟨columns, [], fun _ h => absurd h List.not_mem_nil⟩

theorem eq_none {t : Table V} {row : String → Option V} (hrow : row ∈ t.rows) {c : String}
    (hc : c ∉ t.columns) : row c = none := by
  by_contra hne
  exact hc ((t.filled row hrow c).mp hne)

/-- `ALTER TABLE .. ADD COLUMN`, with the value for the rows there are. -/
def addColumn (c : String) (v : V) (t : Table V) : Table V where
  columns := t.columns ++ [c]
  rows := t.rows.map fun row => Function.update row c (some v)
  filled := by
    intro row hrow c'
    obtain ⟨old, hold, rfl⟩ := List.mem_map.mp hrow
    by_cases h : c' = c
    · simp [h]
    · simp [h, t.filled old hold c']

/-! ## All columns at once -/

/-- The columns of `specs` that are missing. -/
def missing (specs : List (String × V)) (t : Table V) : List (String × V) :=
  specs.filter fun spec => spec.1 ∉ t.columns

/-- The table with every column of `specs`. -/
def complete (specs : List (String × V)) (t : Table V) : Table V where
  columns := t.columns ++ (t.missing specs).map Prod.fst
  rows := t.rows.map fun row c => (row c).or (specs.lookup c)
  filled := by
    intro row hrow c
    obtain ⟨old, hold, rfl⟩ := List.mem_map.mp hrow
    have hlookup : specs.lookup c ≠ none ↔ c ∈ specs.map Prod.fst := by
      rw [Ne, List.lookup_eq_none_iff]
      simp only [List.mem_map]
      grind
    have hmissing : c ∈ (t.missing specs).map Prod.fst ↔
        c ∈ specs.map Prod.fst ∧ c ∉ t.columns := by
      simp only [missing, List.mem_map, List.mem_filter]
      grind
    have hor : (old c).or (specs.lookup c) ≠ none ↔ old c ≠ none ∨ specs.lookup c ≠ none := by
      cases old c <;> simp
    rw [hor, t.filled old hold c, hlookup, List.mem_append, hmissing]
    grind

variable {specs : List (String × V)} {spec : String × V} {t : Table V}

/-- What a column that is there would get does not matter. -/
theorem complete_cons_of_mem (h : spec.1 ∈ t.columns) :
    t.complete (spec :: specs) = t.complete specs := by
  apply Table.ext
  · simp [complete, missing, h]
  · show t.rows.map _ = t.rows.map _
    apply List.map_congr_left
    intro row hrow
    funext c
    show (row c).or ((spec :: specs).lookup c) = (row c).or (specs.lookup c)
    by_cases hc : c = spec.1
    · have hsome := (t.filled row hrow c).mpr (by rw [hc]; exact h)
      obtain ⟨v, hv⟩ := Option.ne_none_iff_exists'.mp hsome
      rw [hv]
      rfl
    · have hbeq : (c == spec.1) = false := by simpa using hc
      rw [List.lookup_cons, hbeq]

/-- A missing column can be added first. -/
theorem complete_cons_of_not_mem (h : spec.1 ∉ t.columns) (hspecs : spec.1 ∉ specs.map Prod.fst) :
    t.complete (spec :: specs) = (t.addColumn spec.1 spec.2).complete specs := by
  have hmissing : (t.addColumn spec.1 spec.2).missing specs = t.missing specs := by
    apply List.filter_congr
    intro other hother
    have hne : other.1 ≠ spec.1 := fun heq => hspecs (heq ▸ List.mem_map_of_mem hother)
    simp [addColumn, hne]
  apply Table.ext
  · show t.columns ++ (t.missing (spec :: specs)).map Prod.fst =
      (t.columns ++ [spec.1]) ++ ((t.addColumn spec.1 spec.2).missing specs).map Prod.fst
    rw [hmissing]
    simp [missing, h]
  · show t.rows.map _ = (t.rows.map _).map _
    rw [List.map_map]
    apply List.map_congr_left
    intro row hrow
    funext c
    rw [List.lookup_cons]
    by_cases hc : c = spec.1
    · simp [hc, eq_none hrow h]
    · have hbeq : (c == spec.1) = false := by simpa using hc
      simp [hc, hbeq]

theorem complete_nil : t.complete [] = t := by
  apply Table.ext
  · simp [complete, missing]
  · simp [complete]

/-- A completed table lacks nothing. -/
theorem mem_complete (t : Table V) (specs : List (String × V)) :
    ∀ spec ∈ specs, spec.1 ∈ (t.complete specs).columns := by
  intro spec hspec
  by_cases h : spec.1 ∈ t.columns
  · exact List.mem_append_left _ h
  · have hmissing : spec ∈ t.missing specs := List.mem_filter.mpr ⟨hspec, by simpa using h⟩
    exact List.mem_append_right _ (List.mem_map_of_mem hmissing)

theorem complete_complete (t : Table V) (specs : List (String × V)) :
    (t.complete specs).complete specs = t.complete specs := by
  have hdone : ∀ specs' : List (String × V),
      (∀ spec ∈ specs', spec.1 ∈ (t.complete specs).columns) →
      (t.complete specs).complete specs' = t.complete specs := by
    intro specs' h
    induction specs' with
    | nil => exact complete_nil
    | cons spec specs' ih =>
      rw [complete_cons_of_mem (h spec List.mem_cons_self)]
      exact ih fun other hother => h other (List.mem_cons_of_mem _ hother)
  exact hdone specs (mem_complete t specs)

end Table

/-! ## The migration -/

/-- The statements that add the columns not in `present`. -/
def addMissing (wrap : String → String) (present : List String) :
    List (String × V) → Table V → Faults → Except String Unit × Table V
  | [], t, _ => (.ok (), t)
  | spec :: specs, t, fs =>
    if spec.1 ∈ present then addMissing wrap present specs t fs
    else
      match fs.headD none with
      | some text => (.error (wrap text), t)
      | none =>
        if spec.1 ∈ t.columns then (.error (wrap ("duplicate column name: " ++ spec.1)), t)
        else addMissing wrap present specs (t.addColumn spec.1 spec.2) fs.tail

/-- Look which columns there are, and add the others. -/
def ensureColumns (inspect wrap : String → String) (specs : List (String × V)) (t : Table V)
    (fs : Faults) : Except String Unit × Table V :=
  match fs.headD none with
  | some text => (.error (inspect text), t)
  | none => addMissing wrap t.columns specs t fs.tail

variable {specs : List (String × V)} {inspect wrap : String → String}

/-- `present` is what the table has of the columns still to be looked at. -/
theorem addMissing_spec {present : List String} {t : Table V} {fs : Faults}
    (hspecs : (specs.map Prod.fst).Nodup)
    (hpresent : ∀ spec ∈ specs, spec.1 ∈ present ↔ spec.1 ∈ t.columns) :
    t.columns ⊆ (addMissing wrap present specs t fs).2.columns ∧
      (addMissing wrap present specs t fs).2.complete specs = t.complete specs ∧
      ((addMissing wrap present specs t fs).1 = .ok () →
        (addMissing wrap present specs t fs).2 = t.complete specs) := by
  induction specs generalizing t fs with
  | nil => exact ⟨List.Subset.refl _, rfl, fun _ => Table.complete_nil.symm⟩
  | cons spec specs ih =>
    obtain ⟨hnew, hnodup⟩ := List.nodup_cons.mp hspecs
    have hhead := hpresent spec List.mem_cons_self
    have htail := fun other hother => hpresent other (List.mem_cons_of_mem spec hother)
    simp only [addMissing]
    by_cases hmem : spec.1 ∈ t.columns
    · rw [if_pos (hhead.mpr hmem), Table.complete_cons_of_mem hmem]
      obtain ⟨hgrow, hcomplete, hok⟩ := @ih t fs hnodup htail
      refine ⟨hgrow, ?_, hok⟩
      rw [Table.complete_cons_of_mem (hgrow hmem)]
      exact hcomplete
    · rw [if_neg fun h => hmem (hhead.mp h)]
      cases fs.headD none with
      | some text => exact ⟨List.Subset.refl _, rfl, fun h => nomatch h⟩
      | none =>
        simp only [if_neg hmem]
        have hadded : ∀ other ∈ specs, other.1 ∈ present ↔
            other.1 ∈ (t.addColumn spec.1 spec.2).columns := by
          intro other hother
          have hne : other.1 ≠ spec.1 := fun heq => hnew (heq ▸ List.mem_map_of_mem hother)
          rw [htail other hother]
          simp [Table.addColumn, hne]
        obtain ⟨hgrow, hcomplete, hok⟩ := @ih (t.addColumn spec.1 spec.2) fs.tail hnodup hadded
        have hthere : spec.1 ∈ (t.addColumn spec.1 spec.2).columns :=
          List.mem_append_right _ List.mem_cons_self
        rw [Table.complete_cons_of_not_mem hmem hnew]
        refine ⟨fun c hc => hgrow (List.mem_append_left _ hc), ?_, hok⟩
        rw [Table.complete_cons_of_mem (hgrow hthere)]
        exact hcomplete

/-- Wherever an attempt ends, the table completes to the same one. -/
theorem ensureColumns_complete (hspecs : (specs.map Prod.fst).Nodup) (t : Table V) (fs : Faults) :
    (ensureColumns inspect wrap specs t fs).2.complete specs = t.complete specs := by
  unfold ensureColumns
  cases fs.headD none with
  | some text => rfl
  | none => exact (addMissing_spec hspecs fun _ _ => Iff.rfl).2.1

/-- An attempt that succeeds completes the table. -/
theorem ensureColumns_ok (hspecs : (specs.map Prod.fst).Nodup) {t : Table V} {fs : Faults}
    (h : (ensureColumns inspect wrap specs t fs).1 = .ok ()) :
    (ensureColumns inspect wrap specs t fs).2 = t.complete specs := by
  unfold ensureColumns at h ⊢
  cases hfs : fs.headD none with
  | some text =>
    rw [hfs] at h
    cases h
  | none =>
    rw [hfs] at h
    exact (addMissing_spec hspecs fun _ _ => Iff.rfl).2.2 h

/-- A complete table is left as it is. -/
theorem ensureColumns_of_complete (t : Table V) (fs : Faults) :
    (ensureColumns inspect wrap specs (t.complete specs) fs).2 = t.complete specs := by
  have hskip : ∀ specs' : List (String × V),
      (∀ spec ∈ specs', spec.1 ∈ (t.complete specs).columns) →
      (addMissing wrap (t.complete specs).columns specs' (t.complete specs) fs.tail).2 =
        t.complete specs := by
    intro specs' h
    induction specs' with
    | nil => rfl
    | cons spec specs' ih =>
      rw [addMissing, if_pos (h spec List.mem_cons_self)]
      exact ih fun other hother => h other (List.mem_cons_of_mem _ hother)
  unfold ensureColumns
  cases fs.headD none with
  | some text => rfl
  | none => exact hskip specs (t.mem_complete specs)

end OpenHpcWeb.Lib
