/-
  Attempts on a store, and the map that the last writer of each key leaves.

  An attempt answers and leaves a state. `after` is the state after a list of attempts,
  `accepted` those that answered without an error.

  * `after_lastWrite`: a relation between the store and the value of each key, which a successful
    batch establishes for the keys it names and keeps for the others, holds of the last value
    that was written to each key.
  * `after_sim`: a store that answers as another one does, attempt for attempt, has the same
    successful attempts and is its image at the end.
-/
import Mathlib.Data.List.Induction
import Mathlib.Tactic.Common

namespace OpenHpcWeb.Lib

variable {σ τ α ε κ ν : Type}

/-! ## Attempts -/

/-- The state after the attempts. -/
def after (attempt : σ → α → Except ε Unit × σ) (s : σ) (as : List α) : σ :=
  as.foldl (fun s a => (attempt s a).2) s

/-- The attempts that succeed, in order. -/
def accepted (attempt : σ → α → Except ε Unit × σ) : σ → List α → List α
  | _, [] => []
  | s, a :: as =>
    if (attempt s a).1.isOk then a :: accepted attempt (attempt s a).2 as
    else accepted attempt (attempt s a).2 as

@[simp] theorem after_nil (attempt : σ → α → Except ε Unit × σ) (s : σ) :
    after attempt s [] = s := rfl

@[simp] theorem after_cons (attempt : σ → α → Except ε Unit × σ) (s : σ) (a : α) (as : List α) :
    after attempt s (a :: as) = after attempt (attempt s a).2 as := rfl

theorem after_concat (attempt : σ → α → Except ε Unit × σ) (s : σ) (as : List α) (a : α) :
    after attempt s (as ++ [a]) = (attempt (after attempt s as) a).2 := by
  rw [after, List.foldl_append]
  rfl

theorem accepted_concat (attempt : σ → α → Except ε Unit × σ) (s : σ) (as : List α) (a : α) :
    accepted attempt s (as ++ [a]) = accepted attempt s as ++
      if (attempt (after attempt s as) a).1.isOk then [a] else [] := by
  induction as generalizing s with
  | nil =>
    rw [List.nil_append, accepted, after_nil]
    rfl
  | cons b as ih =>
    rw [List.cons_append, accepted, accepted, after_cons, ih]
    split <;> rfl

/-- What every attempt keeps holds afterwards. -/
theorem after_keeps {attempt : σ → α → Except ε Unit × σ} (I : σ → Prop)
    (hkeep : ∀ s a, I s → I (attempt s a).2) {s : σ} (hs : I s) (as : List α) :
    I (after attempt s as) := by
  induction as generalizing s with
  | nil => exact hs
  | cons a as ih => exact ih (hkeep s a hs)

/-- Two stores that answer alike stay related. -/
theorem after_sim (attempt : σ → α → Except ε Unit × σ) (attempt' : τ → α → Except ε Unit × τ)
    (image : σ → τ)
    (hok : ∀ s a, (attempt s a).1.isOk = (attempt' (image s) a).1.isOk)
    (hstate : ∀ s a, image (attempt s a).2 = (attempt' (image s) a).2) (s : σ) (as : List α) :
    image (after attempt s as) = after attempt' (image s) as ∧
      accepted attempt s as = accepted attempt' (image s) as := by
  induction as generalizing s with
  | nil => exact ⟨rfl, rfl⟩
  | cons a as ih =>
    obtain ⟨hafter, haccepted⟩ := ih (attempt s a).2
    rw [hstate] at hafter haccepted
    rw [after_cons, after_cons, accepted, accepted, hok, haccepted]
    exact ⟨hafter, rfl⟩

/-! ## The last writer -/

variable [BEq κ]

/-- What the latest batch that names the key gives it. -/
def lastWrite (batches : List (List (κ × ν))) (key : κ) : Option ν :=
  batches.reverse.findSome? fun batch => batch.lookup key

@[simp] theorem lastWrite_nil (key : κ) : lastWrite ([] : List (List (κ × ν))) key = none := rfl

theorem lastWrite_concat (batches : List (List (κ × ν))) (batch : List (κ × ν)) (key : κ) :
    lastWrite (batches ++ [batch]) key =
      match batch.lookup key with
      | none => lastWrite batches key
      | some value => some value := by
  rw [lastWrite, List.reverse_append, List.reverse_singleton, List.singleton_append,
    List.findSome?_cons]
  cases batch.lookup key <;> rfl

/-- The rule of the last writer. -/
theorem after_lastWrite {attempt : σ → α → Except ε Unit × σ} {batch : α → List (κ × ν)}
    (Holds : σ → κ → Option ν → Prop)
    (herror : ∀ s a, (attempt s a).1.isOk = false → (attempt s a).2 = s)
    (hok : ∀ s a, (attempt s a).1.isOk = true → ∀ key,
      match (batch a).lookup key with
      | none => ∀ value, Holds s key value → Holds (attempt s a).2 key value
      | some value => Holds (attempt s a).2 key (some value))
    {s : σ} (hs : ∀ key, Holds s key none) (as : List α) (key : κ) :
    Holds (after attempt s as) key (lastWrite ((accepted attempt s as).map batch) key) := by
  induction as using List.reverseRecOn with
  | nil => exact hs key
  | append_singleton as a ih =>
    rw [after_concat, accepted_concat]
    cases hanswer : (attempt (after attempt s as) a).1.isOk with
    | false =>
      rw [herror _ a hanswer]
      simpa using ih
    | true =>
      have hwrite := hok _ a hanswer key
      rw [if_pos rfl, List.map_append, List.map_singleton, lastWrite_concat]
      cases hbatch : (batch a).lookup key with
      | none =>
        rw [hbatch] at hwrite
        exact hwrite _ ih
      | some value =>
        rw [hbatch] at hwrite
        exact hwrite

end OpenHpcWeb.Lib
