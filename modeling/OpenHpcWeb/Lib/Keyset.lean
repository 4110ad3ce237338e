/-
  Reading a changing collection page by page, newest first, by the key of the last row seen.

  `key` orders the rows. A page starts where the one before stopped (`Position`) and holds the
  greatest keys that are still ahead; between two pages rows with greater keys may appear and
  any row may go. `Reading` is one page with the rows that were there when it was read, and
  `Paging reads p` a sequence of them that has come to `p`.

  * `Reading.ok_of_take`: the first rows in descending order, with one more looked at, are a
    page (`Reading.Ok`).
  * `Paging.sorted`: the pages together are in strictly descending order.
  * `Paging.existed`: they hold rows of the first page's moment only.
  * `Paging.countP_covers`: every key that is not ahead falls on exactly one of them.
  * `Paging.length_le`: their number is bounded by the rows of the first page's moment.
-/
import Mathlib.Data.List.Nodup
import Mathlib.Data.List.Perm.Subperm
import Mathlib.Order.Lattice

namespace OpenHpcWeb.Lib

variable {α κ : Type} [LinearOrder κ]

/-- Where a reader is: before the newest row, below a key, or past the oldest row. -/
inductive Position (κ : Type) where
  | newest
  | below (c : κ)
  | done

/-- The keys a reader has ahead. -/
def Position.Ahead : Position κ → κ → Prop
  | newest, _ => True
  | below c, k => k < c
  | done, _ => False

instance (p : Position κ) (k : κ) : Decidable (p.Ahead k) :=
  match p with
  | .newest => isTrue trivial
  | .below c => inferInstanceAs (Decidable (k < c))
  | .done => isFalse id

theorem Position.Ahead.of_lt {p : Position κ} {k l : κ} (h : p.Ahead l) (hlt : k < l) :
    p.Ahead k := by
  cases p with
  | newest => trivial
  | below c => exact lt_trans hlt h
  | done => exact h

/-- One page: the rows that were there, where it starts, its rows and where it stops. -/
structure Reading (α κ : Type) where
  rows : List α
  start : Position κ
  items : List α
  stop : Position κ

namespace Reading

/-- The keys between the start and the stop of a page. -/
def Covers (r : Reading α κ) (k : κ) : Prop := r.start.Ahead k ∧ ¬ r.stop.Ahead k

instance (r : Reading α κ) (k : κ) : Decidable (r.Covers k) :=
  inferInstanceAs (Decidable (_ ∧ _))

/-- The page holds its keys' rows, newest first, and stops below its last row if and only if
    there is an older one. -/
structure Ok (key : α → κ) (r : Reading α κ) : Prop where
  sorted : (r.items.map key).Pairwise (· > ·)
  mem : ∀ a, a ∈ r.items ↔ a ∈ r.rows ∧ r.Covers (key a)
  more : (∃ last, r.items.getLast? = some last ∧ r.stop = .below (key last) ∧
      ∃ a ∈ r.rows, key a < key last) ∨
    (r.stop = .done ∧ ∀ last, r.items.getLast? = some last → ∀ a ∈ r.rows, ¬ key a < key last)

variable {key : α → κ} {r : Reading α κ}

theorem Ok.mem_rows (h : r.Ok key) {a : α} (ha : a ∈ r.items) : a ∈ r.rows := ((h.mem a).mp ha).1

/-- A page only moves on. -/
theorem Ok.ahead_start (h : r.Ok key) {k : κ} (hk : r.stop.Ahead k) : r.start.Ahead k := by
  rcases h.more with ⟨last, hlast, hstop, -⟩ | ⟨hstop, -⟩
  · rw [hstop] at hk
    have hmem : last ∈ r.items := List.mem_of_getLast? hlast
    exact ((h.mem last).mp hmem).2.1.of_lt hk
  · rw [hstop] at hk
    exact hk.elim

/-- The last of rows in descending order has the least key. -/
theorem le_of_getLast? {l : List α} (hl : (l.map key).Pairwise (· > ·)) {last a : α}
    (hlast : l.getLast? = some last) (ha : a ∈ l) : key last ≤ key a := by
  obtain ⟨init, rfl⟩ := List.getLast?_eq_some_iff.mp hlast
  rw [List.map_append, List.pairwise_append] at hl
  rcases List.mem_append.mp ha with ha | ha
  · exact le_of_lt (hl.2.2 (key a) (List.mem_map_of_mem ha) (key last) (by simp))
  · rw [List.mem_singleton.mp ha]

/-- Where a page of at most `limit` of the rows ahead stops. -/
def stopAfter (key : α → κ) (limit : Nat) (ahead : List α) : Position κ :=
  match (ahead.take limit).getLast? with
  | some last => if limit < ahead.length then .below (key last) else .done
  | none => .done

/-- The first `limit` rows ahead, newest first, and below the last of them if there are more. -/
theorem ok_of_take {rows ahead : List α} {start : Position κ} {limit : Nat} (hlimit : 0 < limit)
    (hsorted : (ahead.map key).Pairwise (· > ·))
    (hahead : ∀ a, a ∈ ahead ↔ a ∈ rows ∧ start.Ahead (key a)) :
    Ok key ⟨rows, start, ahead.take limit, stopAfter key limit ahead⟩ := by
  have htake : ((ahead.take limit).map key).Pairwise (· > ·) :=
    hsorted.sublist ((List.take_sublist limit ahead).map key)
  by_cases hmore : limit < ahead.length
  · have hne : ahead.take limit ≠ [] := by
      intro hnil
      have hlength := congrArg List.length hnil
      rw [List.length_take, List.length_nil] at hlength
      omega
    have hlast := List.getLast?_eq_some_getLast hne
    set last := (ahead.take limit).getLast hne with hdef
    have hlastmem : last ∈ ahead := List.mem_of_mem_take (List.getLast_mem hne)
    -- the rows that are left are below the last one taken
    have hrest : ∀ a ∈ ahead.drop limit, key a < key last := by
      intro a ha
      have hsplit := hsorted
      rw [← List.take_append_drop limit ahead, List.map_append, List.pairwise_append] at hsplit
      exact hsplit.2.2 (key last) (List.mem_map_of_mem (List.getLast_mem hne)) (key a)
        (List.mem_map_of_mem ha)
    have hstop : stopAfter key limit ahead = .below (key last) := by
      unfold stopAfter
      rw [hlast]
      exact if_pos hmore
    rw [hstop]
    refine ⟨htake, fun a => ?_, .inl ⟨last, hlast, rfl, ?_⟩⟩
    · constructor
      · intro ha
        obtain ⟨hrow, hstart⟩ := (hahead a).mp (List.mem_of_mem_take ha)
        exact ⟨hrow, hstart, not_lt.mpr (le_of_getLast? htake hlast ha)⟩
      · rintro ⟨hrow, hstart, hstop⟩
        have ha : a ∈ ahead := (hahead a).mpr ⟨hrow, hstart⟩
        rw [← List.take_append_drop limit ahead] at ha
        rcases List.mem_append.mp ha with ha | ha
        · exact ha
        · exact absurd (hrest a ha) hstop
    · have hdrop : ahead.drop limit ≠ [] := by
        intro hnil
        have hlength := congrArg List.length hnil
        rw [List.length_drop, List.length_nil] at hlength
        omega
      obtain ⟨a, ha⟩ := List.exists_mem_of_ne_nil _ hdrop
      exact ⟨a, ((hahead a).mp (List.mem_of_mem_drop ha)).1, hrest a ha⟩
  · have hall : ahead.take limit = ahead := List.take_of_length_le (Nat.not_lt.mp hmore)
    have hdone : stopAfter key limit ahead = .done := by
      unfold stopAfter
      cases (ahead.take limit).getLast? with
      | none => rfl
      | some last => exact if_neg hmore
    rw [hall, hdone]
    refine ⟨hsorted, fun a => ?_, .inr ⟨rfl, ?_⟩⟩
    · rw [hahead a]
      exact ⟨fun h => ⟨h.1, h.2, id⟩, fun h => ⟨h.1, h.2.1⟩⟩
    · intro last hlast a ha hlt
      have hstart := ((hahead last).mp (List.mem_of_getLast? hlast)).2.of_lt hlt
      exact absurd hlt (not_lt.mpr (le_of_getLast? hsorted hlast ((hahead a).mpr ⟨ha, hstart⟩)))

end Reading

/-! ## Pages one after another -/

/-- Pages of which each starts where the one before stopped. What is ahead of a page was
    there when the first one was read: new rows have greater keys. -/
inductive Paging (key : α → κ) : List (Reading α κ) → Position κ → Prop
  | start : Paging key [] .newest
  | read {reads : List (Reading α κ)} {r : Reading α κ} (h : Paging key reads r.start)
      (hstart : r.start ≠ .done) (ok : r.Ok key)
      (old : ∀ first, reads.head? = some first → ∀ a ∈ r.rows, r.start.Ahead (key a) →
        a ∈ first.rows) :
      Paging key (reads ++ [r]) r.stop

/-- The rows of the pages, in the order they were read. -/
def visited (reads : List (Reading α κ)) : List α := reads.flatMap Reading.items

omit [LinearOrder κ] in
theorem visited_snoc (reads : List (Reading α κ)) (r : Reading α κ) :
    visited (reads ++ [r]) = visited reads ++ r.items := by
  unfold visited
  rw [List.flatMap_append, List.flatMap_singleton]

namespace Paging

variable {key : α → κ} {reads : List (Reading α κ)} {p : Position κ}

theorem ok (h : Paging key reads p) : ∀ r ∈ reads, r.Ok key := by
  induction h with
  | start => exact fun r hr => absurd hr List.not_mem_nil
  | read _ _ hok _ ih =>
    intro r hr
    rcases List.mem_append.mp hr with hr | hr
    · exact ih r hr
    · rw [List.mem_singleton.mp hr]
      exact hok

/-- What was read is no longer ahead. -/
theorem not_ahead (h : Paging key reads p) : ∀ a ∈ visited reads, ¬ p.Ahead (key a) := by
  induction h with
  | start => exact fun a ha => absurd ha List.not_mem_nil
  | read _ _ hok _ ih =>
    intro a ha hahead
    rw [visited_snoc] at ha
    rcases List.mem_append.mp ha with ha | ha
    · exact ih a ha (hok.ahead_start hahead)
    · exact ((hok.mem a).mp ha).2.2 hahead

/-- The pages together are in strictly descending order. -/
theorem sorted (h : Paging key reads p) : ((visited reads).map key).Pairwise (· > ·) := by
  induction h with
  | start => exact List.Pairwise.nil
  | read hreads _ hok _ ih =>
    rw [visited_snoc, List.map_append, List.pairwise_append]
    refine ⟨ih, hok.sorted, ?_⟩
    intro k hk l hl
    obtain ⟨a, ha, rfl⟩ := List.mem_map.mp hk
    obtain ⟨b, hb, rfl⟩ := List.mem_map.mp hl
    by_contra hle
    have hahead := ((hok.mem b).mp hb).2.1
    rcases lt_or_eq_of_le (not_lt.mp hle) with hlt | heq
    · exact hreads.not_ahead a ha (hahead.of_lt hlt)
    · exact hreads.not_ahead a ha (heq ▸ hahead)

/-- A row that was read was there when the first page was. -/
theorem existed (h : Paging key reads p) {first : Reading α κ} (hfirst : reads.head? = some first) :
    ∀ a ∈ visited reads, a ∈ first.rows := by
  induction h with
  | start => cases hfirst
  | @read reads r hreads _ hok hold ih =>
    intro a ha
    rw [visited_snoc] at ha
    cases reads with
    | nil =>
      cases hfirst
      exact hok.mem_rows ha
    | cons first' reads =>
      rcases List.mem_append.mp ha with ha | ha
      · exact ih hfirst a ha
      · exact hold first hfirst a (hok.mem_rows ha) ((hok.mem a).mp ha).2.1

/-- A key that is ahead is on no page yet, and every other key on exactly one. -/
theorem countP_covers (h : Paging key reads p) (k : κ) :
    reads.countP (fun r => r.Covers k) = if p.Ahead k then 0 else 1 := by
  induction h with
  | start => exact (if_pos trivial).symm
  | @read reads r hreads _ hok _ ih =>
    rw [List.countP_append, ih, List.countP_singleton]
    by_cases hstop : r.stop.Ahead k
    · have hno : ¬ r.Covers k := fun hcovers => hcovers.2 hstop
      rw [if_pos hstop, if_pos (hok.ahead_start hstop), if_neg (by simpa using hno)]
    · by_cases hstart : r.start.Ahead k
      · have hcovers : r.Covers k := ⟨hstart, hstop⟩
        rw [if_neg hstop, if_pos hstart, if_pos (by simpa using hcovers)]
      · have hno : ¬ r.Covers k := fun hcovers => hstart hcovers.1
        rw [if_neg hstop, if_neg hstart, if_neg (by simpa using hno)]

/-- A row is read if and only if it is there when the page of its key is read. -/
theorem mem_visited_iff (h : Paging key reads p) (a : α) :
    a ∈ visited reads ↔ ∃ r ∈ reads, r.Covers (key a) ∧ a ∈ r.rows := by
  unfold visited
  rw [List.mem_flatMap]
  constructor
  · rintro ⟨r, hr, ha⟩
    obtain ⟨hrow, hcovers⟩ := ((h.ok r hr).mem a).mp ha
    exact ⟨r, hr, hcovers, hrow⟩
  · rintro ⟨r, hr, hcovers, hrow⟩
    exact ⟨r, hr, ((h.ok r hr).mem a).mpr ⟨hrow, hcovers⟩⟩

/-- After a page the reader is no longer before the newest row. -/
theorem eq_nil (h : Paging key reads p) (hp : p = .newest) : reads = [] := by
  cases h with
  | start => rfl
  | read _ _ hok _ =>
    rcases hok.more with ⟨last, -, hstop, -⟩ | ⟨hstop, -⟩
    · rw [hstop] at hp
      cases hp
    · rw [hstop] at hp
      cases hp

/-- Where the reader waits below a key, it is that of a row of the first page's moment. -/
theorem cursor_mem (h : Paging key reads p) {c : κ} (hp : p = .below c) :
    ∃ a ∈ visited reads, key a = c := by
  cases h with
  | start => cases hp
  | read _ _ hok _ =>
    rw [visited_snoc]
    rcases hok.more with ⟨last, hlast, hstop, -⟩ | ⟨hstop, -⟩
    · rw [hstop] at hp
      cases hp
      exact ⟨last, List.mem_append_right _ (List.mem_of_getLast? hlast), rfl⟩
    · rw [hstop] at hp
      cases hp

/-- Every page but the last has a row. -/
theorem length_le_visited (h : Paging key reads p) :
    reads.length ≤ (visited reads).length + 1 ∧
      (p ≠ .done → reads.length ≤ (visited reads).length) := by
  induction h with
  | start => exact ⟨Nat.zero_le _, fun _ => Nat.zero_le _⟩
  | @read reads r _ hstart hok _ ih =>
    have hreads := ih.2 hstart
    rw [visited_snoc, List.length_append, List.length_append, List.length_singleton]
    refine ⟨by omega, fun hgoes => ?_⟩
    rcases hok.more with ⟨last, hlast, -, -⟩ | ⟨hstop, -⟩
    · have hpos : 0 < r.items.length := List.length_pos_of_mem (List.mem_of_getLast? hlast)
      omega
    · exact absurd hstop hgoes

/-- The pages end: there are at most as many as rows at the first page's moment, and one. -/
theorem length_le (h : Paging key reads p) {first : Reading α κ}
    (hfirst : reads.head? = some first) : reads.length ≤ first.rows.length + 1 := by
  have hnodup : (visited reads).Nodup :=
    List.Nodup.of_map key (h.sorted.imp fun hgt => ne_of_gt hgt)
  have hsub := (List.Nodup.subperm hnodup (h.existed hfirst)).length_le
  have hlength := h.length_le_visited.1
  omega

end Paging

end OpenHpcWeb.Lib
