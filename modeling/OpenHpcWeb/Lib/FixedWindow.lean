/-
  Counting in fixed windows: a limit for each window of time, where a window opens with its
  first event and the next one does not open before it is over.

  An event is its time and the start of the window that it was counted in.

  * `Windowed.snoc_open`, `Windowed.snoc_new`: one event more, in the last window or in one that
    it opens.
  * `Windowed.interval_le`: any interval as long as a window meets two windows at most, so it
    holds twice the limit.
-/
import Mathlib.Algebra.Order.Monoid.Defs
import Mathlib.Data.List.Basic
import Mathlib.Tactic.Common

namespace OpenHpcWeb.Lib

variable {τ : Type} [AddCommMonoid τ] [LinearOrder τ] {window : τ} {limit : Nat}

/-- The events of a window. -/
def inWindow (start : τ) (events : List (τ × τ)) : List (τ × τ) :=
  events.filter fun e => e.2 = start

/-- Events that are counted in windows of one length, up to a limit. -/
structure Windowed (window : τ) (limit : Nat) (events : List (τ × τ)) : Prop where
  inside : ∀ e ∈ events, e.2 ≤ e.1 ∧ e.1 < e.2 + window
  apart : ∀ e ∈ events, ∀ e' ∈ events, e.2 ≠ e'.2 → e.2 + window ≤ e'.2 ∨ e'.2 + window ≤ e.2
  bounded : ∀ start, (inWindow start events).length ≤ limit

theorem Windowed.nil : Windowed window limit ([] : List (τ × τ)) :=
  ⟨(fun _ h => nomatch h), (fun _ h => nomatch h), fun _ => Nat.zero_le _⟩

omit [AddCommMonoid τ] in
theorem inWindow_snoc (start : τ) (events : List (τ × τ)) (e : τ × τ) :
    (inWindow start (events ++ [e])).length =
      (inWindow start events).length + if e.2 = start then 1 else 0 := by
  unfold inWindow
  rw [List.filter_append, List.length_append]
  by_cases h : e.2 = start
  · simp [h]
  · simp [h]

/-- One event more, which the limit of its window allows. -/
theorem Windowed.snoc {events : List (τ × τ)} {e : τ × τ} (h : Windowed window limit events)
    (hinside : e.2 ≤ e.1 ∧ e.1 < e.2 + window)
    (hapart : ∀ e' ∈ events, e.2 ≠ e'.2 → e.2 + window ≤ e'.2 ∨ e'.2 + window ≤ e.2)
    (hroom : (inWindow e.2 events).length < limit) : Windowed window limit (events ++ [e]) := by
  constructor
  · intro x hx
    rcases List.mem_append.mp hx with hx | hx
    · exact h.inside x hx
    · rw [List.mem_singleton.mp hx]
      exact hinside
  · intro x hx y hy hne
    rcases List.mem_append.mp hx with hx | hx <;> rcases List.mem_append.mp hy with hy | hy
    · exact h.apart x hx y hy hne
    · rw [List.mem_singleton.mp hy] at hne ⊢
      exact (hapart x hx hne.symm).symm
    · rw [List.mem_singleton.mp hx] at hne ⊢
      exact hapart y hy hne
    · rw [List.mem_singleton.mp hx, List.mem_singleton.mp hy] at hne
      exact absurd rfl hne
  · intro start
    rw [inWindow_snoc]
    split
    · next heq =>
      rw [← heq]
      omega
    · exact h.bounded start

/-- One event more in a window that is open. -/
theorem Windowed.snoc_open {events : List (τ × τ)} {e last : τ × τ}
    (h : Windowed window limit events) (hlast : last ∈ events) (heq : e.2 = last.2)
    (hinside : e.2 ≤ e.1 ∧ e.1 < e.2 + window) (hroom : (inWindow e.2 events).length < limit) :
    Windowed window limit (events ++ [e]) := by
  refine h.snoc hinside (fun e' he' hne => ?_) hroom
  rw [heq] at hne ⊢
  exact h.apart last hlast e' he' hne

/-- No window opens where the windows so far are over. -/
theorem inWindow_of_over {events : List (τ × τ)} {now : τ} (hwindow : now < now + window)
    (hover : ∀ e ∈ events, e.2 + window ≤ now) : inWindow now events = [] := by
  rw [inWindow, List.filter_eq_nil_iff]
  intro e he heq
  have hend := hover e he
  rw [of_decide_eq_true heq] at hend
  exact absurd hwindow (not_lt.mpr hend)

/-- An event that opens a window, when all windows before it are over. -/
theorem Windowed.snoc_new {events : List (τ × τ)} {now : τ} (h : Windowed window limit events)
    (hwindow : now < now + window) (hlimit : 0 < limit)
    (hover : ∀ e ∈ events, e.2 + window ≤ now) :
    Windowed window limit (events ++ [(now, now)]) := by
  refine h.snoc ⟨le_refl now, hwindow⟩ (fun e' he' _ => .inr (hover e' he')) ?_
  rw [inWindow_of_over hwindow hover]
  exact hlimit

/-! ## Intervals -/

/-- The events of the interval of one window from `t` on, its end included. -/
def inInterval (window t : τ) (events : List (τ × τ)) : List (τ × τ) :=
  events.filter fun e => t ≤ e.1 ∧ e.1 ≤ t + window

variable [IsOrderedCancelAddMonoid τ]

/-- The interval does not reach from one window over the next to a third. -/
theorem not_three_windows {t : τ} {a b c : τ × τ} (ha : a.1 < a.2 + window) (hta : t ≤ a.1)
    (hc : c.2 ≤ c.1) (hct : c.1 ≤ t + window) (hab : a.2 + window ≤ b.2)
    (hbc : b.2 + window ≤ c.2) : False := by
  have hbt : b.2 + window ≤ t + window :=
    calc b.2 + window ≤ c.2 := hbc
      _ ≤ c.1 := hc
      _ ≤ t + window := hct
  have htb : t < b.2 :=
    calc t ≤ a.1 := hta
      _ < a.2 + window := ha
      _ ≤ b.2 := hab
  exact absurd (le_of_add_le_add_right hbt) (not_le.mpr htb)

/-- So its events are of two windows. -/
theorem Windowed.two_windows {events : List (τ × τ)} (h : Windowed window limit events) {t : τ}
    {a b c : τ × τ} (ha : a ∈ inInterval window t events) (hb : b ∈ inInterval window t events)
    (hc : c ∈ inInterval window t events) (hab : a.2 ≠ b.2) : c.2 = a.2 ∨ c.2 = b.2 := by
  obtain ⟨hea, hia⟩ := List.mem_filter.mp ha
  obtain ⟨heb, hib⟩ := List.mem_filter.mp hb
  obtain ⟨hec, hic⟩ := List.mem_filter.mp hc
  rw [decide_eq_true_eq] at hia hib hic
  have hina := h.inside a hea
  have hinb := h.inside b heb
  have hinc := h.inside c hec
  by_contra hthird
  rw [not_or] at hthird
  -- two of the three orders of `a`, `b` and `c` meet in the middle
  rcases h.apart a hea b heb hab with hab | hba
  · rcases h.apart c hec a hea hthird.1 with hca | hac
    · exact not_three_windows hinc.2 hic.1 hinb.1 hib.2 hca hab
    · rcases h.apart c hec b heb hthird.2 with hcb | hbc
      · exact not_three_windows hina.2 hia.1 hinb.1 hib.2 hac hcb
      · exact not_three_windows hina.2 hia.1 hinc.1 hic.2 hab hbc
  · rcases h.apart c hec b heb hthird.2 with hcb | hbc
    · exact not_three_windows hinc.2 hic.1 hina.1 hia.2 hcb hba
    · rcases h.apart c hec a hea hthird.1 with hca | hac
      · exact not_three_windows hinb.2 hib.1 hina.1 hia.2 hbc hca
      · exact not_three_windows hinb.2 hib.1 hinc.1 hic.2 hba hac

theorem length_filter_le_add {α : Type} {p q r : α → Bool} {l : List α}
    (h : ∀ a ∈ l, p a = true → q a = true ∨ r a = true) :
    (l.filter p).length ≤ (l.filter q).length + (l.filter r).length := by
  induction l with
  | nil => exact Nat.le_refl 0
  | cons a l ih =>
    have hrest := ih fun b hb => h b (List.mem_cons_of_mem a hb)
    have ha := h a List.mem_cons_self
    cases hp : p a with
    | false =>
      have hq := ((List.sublist_cons_self a l).filter q).length_le
      have hr := ((List.sublist_cons_self a l).filter r).length_le
      rw [List.filter_cons_of_neg (by simp [hp])]
      omega
    | true =>
      rw [List.filter_cons_of_pos hp, List.filter_cons, List.filter_cons, List.length_cons]
      rcases ha hp with hq | hr
      · rw [if_pos hq]
        split <;> simp only [List.length_cons] <;> omega
      · rw [if_pos hr]
        split <;> simp only [List.length_cons] <;> omega

/-- An interval of the length of a window holds twice the limit at most. -/
theorem Windowed.interval_le {events : List (τ × τ)} (h : Windowed window limit events) (t : τ) :
    (inInterval window t events).length ≤ 2 * limit := by
  cases hevents : inInterval window t events with
  | nil => exact Nat.zero_le _
  | cons a rest =>
    rw [← hevents]
    have ha : a ∈ inInterval window t events := by
      rw [hevents]
      exact List.mem_cons_self
    by_cases hone : ∀ c ∈ inInterval window t events, c.2 = a.2
    · have hle := length_filter_le_add (l := events)
        (p := fun e => decide (t ≤ e.1 ∧ e.1 ≤ t + window)) (q := fun e => decide (e.2 = a.2))
        (r := fun e => decide (e.2 = a.2))
        fun c hc hin => .inl (decide_eq_true (hone c (List.mem_filter.mpr ⟨hc, hin⟩)))
      have hbound := h.bounded a.2
      unfold inWindow at hbound
      unfold inInterval
      omega
    · push Not at hone
      obtain ⟨b, hb, hne⟩ := hone
      have hle := length_filter_le_add (l := events)
        (p := fun e => decide (t ≤ e.1 ∧ e.1 ≤ t + window)) (q := fun e => decide (e.2 = a.2))
        (r := fun e => decide (e.2 = b.2)) fun c hc hin => by
          rcases h.two_windows ha hb (List.mem_filter.mpr ⟨hc, hin⟩) hne.symm with hc | hc
          · exact .inl (decide_eq_true hc)
          · exact .inr (decide_eq_true hc)
      have hbounda := h.bounded a.2
      have hboundb := h.bounded b.2
      unfold inWindow at hbounda hboundb
      unfold inInterval
      omega

end OpenHpcWeb.Lib
