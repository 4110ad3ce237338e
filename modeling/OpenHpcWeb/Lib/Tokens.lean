/-
  Parties that take and give back tokens of one pool.

  Parties join the pool, and each move is a move of one party: it changes the party and the
  count of the tokens that are taken. `held` says how many tokens a party accounts for.

  * `Accounts.reachable`: if each move changes the count as it changes what the party accounts
    for, the count of every run is the sum over the parties, and stays within a bound that each
    move keeps; what each move keeps of its party holds of all parties.
  * `moves_le`: if each move lowers the rank of its party, the moves that are still to
    come are at most the sum of the ranks.
-/
import Mathlib.Algebra.Order.Ring.Nat
import Mathlib.Algebra.Order.BigOperators.Group.List
import OpenHpcWeb.Lib.Run

namespace OpenHpcWeb.Lib

variable {α κ ι : Type}

/-- The parties, and how many tokens are taken. -/
structure Pool (α : Type) where
  parties : List α
  tokens : Nat

def Pool.empty : Pool α := ⟨[], 0⟩

inductive PoolAction (κ ι : Type) where
  | join (k : κ)
  | move (i : Nat) (m : ι)

/-- A party joins, or the party at a position moves. -/
def poolStep (init : κ → α) (move : ι → α → Nat → Option (α × Nat)) (s : Pool α) :
    PoolAction κ ι → Option (Pool α)
  | .join k => some { s with parties := s.parties ++ [init k] }
  | .move i m =>
    match s.parties[i]? with
    | none => none
    | some a => (move m a s.tokens).map fun moved => ⟨s.parties.set i moved.1, moved.2⟩

variable {init : κ → α} {move : ι → α → Nat → Option (α × Nat)} {s s' : Pool α}

theorem poolStep_move {i : Nat} {m : ι} (h : poolStep init move s (.move i m) = some s') :
    ∃ a a' n, s.parties[i]? = some a ∧ move m a s.tokens = some (a', n) ∧
      s' = ⟨s.parties.set i a', n⟩ := by
  cases ha : s.parties[i]? with
  | none => simp [poolStep, ha] at h
  | some a =>
    simp only [poolStep, ha] at h
    obtain ⟨moved, hmoved, rfl⟩ := Option.map_eq_some_iff.mp h
    exact ⟨a, moved.1, moved.2, rfl, hmoved, rfl⟩

/-! ## Sums over the parties -/

theorem sum_map_set (w : α → Nat) {l : List α} {i : Nat} {a : α} (h : l[i]? = some a) (b : α) :
    ((l.set i b).map w).sum + w a = (l.map w).sum + w b := by
  induction l generalizing i with
  | nil => simp at h
  | cons x l ih =>
    cases i with
    | zero =>
      obtain rfl : x = a := by simpa using h
      rw [List.set_cons_zero, List.map_cons, List.map_cons, List.sum_cons, List.sum_cons]
      omega
    | succ i =>
      have hrest := ih (i := i) (by simpa using h)
      rw [List.set_cons_succ, List.map_cons, List.map_cons, List.sum_cons, List.sum_cons]
      omega

theorem le_sum_map (w : α → Nat) {l : List α} {a : α} (h : a ∈ l) : w a ≤ (l.map w).sum :=
  List.le_sum_of_mem (List.mem_map_of_mem h)

/-- Counting two properties is summing over the elements. -/
theorem countP_add_countP (p q : α → Bool) (l : List α) :
    l.countP p + l.countP q = (l.map fun a => (p a).toNat + (q a).toNat).sum := by
  induction l with
  | nil => rfl
  | cons a l ih =>
    rw [List.countP_cons, List.countP_cons, List.map_cons, List.sum_cons, ← ih]
    cases p a <;> cases q a <;> simp <;> omega

/-! ## Runs -/

/-- The moves of a party, seen from its side: what it accounts for and the count change alike. -/
structure Accounts (init : κ → α) (move : ι → α → Nat → Option (α × Nat)) (P : α → Prop)
    (held : α → Nat) (cap : Nat) : Prop where
  init : ∀ k, P (init k) ∧ held (init k) = 0
  move : ∀ m a n a' n', P a → held a ≤ n → n ≤ cap → move m a n = some (a', n') →
    P a' ∧ n' + held a = n + held a' ∧ n' ≤ cap

/-- The tokens that are taken are those the parties account for. -/
structure Pool.Balanced (P : α → Prop) (held : α → Nat) (cap : Nat) (s : Pool α) : Prop where
  parties : ∀ a ∈ s.parties, P a
  tokens : s.tokens = (s.parties.map held).sum
  bound : s.tokens ≤ cap

namespace Accounts

variable {P : α → Prop} {held : α → Nat} {cap : Nat}

theorem step (h : Accounts init move P held cap) {act : PoolAction κ ι}
    (hs : s.Balanced P held cap) (hstep : poolStep init move s act = some s') :
    s'.Balanced P held cap := by
  cases act with
  | join k =>
    obtain ⟨hparty, hheld⟩ := h.init k
    cases hstep
    constructor
    · intro a ha
      rcases List.mem_append.mp ha with ha | ha
      · exact hs.parties a ha
      · rw [List.mem_singleton.mp ha]
        exact hparty
    · simp [hs.tokens, hheld]
    · exact hs.bound
  | move i m =>
    obtain ⟨a, a', n, ha, hmove, rfl⟩ := poolStep_move hstep
    have hmem := List.mem_of_getElem? ha
    have hle : held a ≤ s.tokens := by
      rw [hs.tokens]
      exact le_sum_map held hmem
    obtain ⟨hparty, hcount, hbound⟩ :=
      h.move m a s.tokens a' n (hs.parties a hmem) hle hs.bound hmove
    constructor
    · intro b hb
      rcases List.mem_or_eq_of_mem_set hb with hb | rfl
      · exact hs.parties b hb
      · exact hparty
    · have hsum := sum_map_set held ha a'
      have htokens := hs.tokens
      show n = ((s.parties.set i a').map held).sum
      omega
    · exact hbound

theorem reachable (h : Accounts init move P held cap) {acts : List (PoolAction κ ι)}
    (hrun : Run (poolStep init move) (fun _ _ => True) Pool.empty acts s) :
    s.Balanced P held cap := by
  apply hrun.invariant (Pool.Balanced P held cap)
  · exact ⟨fun a ha => absurd ha List.not_mem_nil, rfl, Nat.zero_le _⟩
  · intro s act s' hs _ hstep
    exact h.step hs hstep

end Accounts

/-- No party joins. -/
def PoolAction.IsMove : PoolAction κ ι → Prop
  | .join _ => False
  | .move _ _ => True

/-- Moves that lower the rank of their party come to an end. -/
theorem moves_le (rank : α → Nat)
    (hrank : ∀ m a n a' n', move m a n = some (a', n') → rank a' < rank a)
    {acts : List (PoolAction κ ι)}
    (hrun : Run (poolStep init move) (fun _ act => act.IsMove) s acts s') :
    acts.length + (s'.parties.map rank).sum ≤ (s.parties.map rank).sum := by
  induction hrun with
  | nil => simp
  | @snoc acts s₁ s₂ act _ hmove hstep ih =>
    cases act with
    | join k => cases hmove
    | move i m =>
      obtain ⟨a, a', n, ha, hmoved, rfl⟩ := poolStep_move hstep
      have hlower := hrank m a s₁.tokens a' n hmoved
      have hsum := sum_map_set rank ha a'
      rw [List.length_append, List.length_singleton]
      show acts.length + 1 + ((s₁.parties.set i a').map rank).sum ≤ _
      omega

end OpenHpcWeb.Lib
