/-
  Runs of a transition system whose step is a computable partial function.

  `Run step ok s₀ as s`: the actions `as`, taken one after the other from `s₀`, lead to
  `s`, and `ok` holds of each action in the state it is taken in. `ok` is how a theorem
  restricts the runs it is about (`fun _ _ => True` restricts nothing).

  * `Run.invariant`: what the start has and every step keeps holds at the end.
  * `Run.mono`: a run with a stronger side condition is a run with a weaker one.
  * `run_snoc_iff`, `Run.unique`: the last step of a run, and that a run has one end.
  * `run_safe_iff`: where one step keeps a property exactly under a condition, a run keeps it in
    all its states exactly when each of its steps meets the condition.
    `run_last_iff` is the same of a property that never comes back.
  * `exec`: the executable run, and `run_of_exec` from it to `Run`.
-/
import Mathlib.Logic.Basic
import Mathlib.Data.List.Basic
import Mathlib.Tactic.Cases

namespace OpenHpcWeb.Lib

variable {σ α : Type}

/-- Runs whose every action satisfies `ok` in the state it is taken in. -/
inductive Run (step : σ → α → Option σ) (ok : σ → α → Prop) (s₀ : σ) : List α → σ → Prop
  | nil : Run step ok s₀ [] s₀
  | snoc {as : List α} {s s' : σ} {a : α} : Run step ok s₀ as s → ok s a →
      step s a = some s' → Run step ok s₀ (as ++ [a]) s'

variable {step : σ → α → Option σ} {ok : σ → α → Prop} {s₀ s s' : σ} {as : List α}

/-- The induction rule for invariants. -/
theorem Run.invariant (I : σ → Prop) (h0 : I s₀)
    (hstep : ∀ s a s', I s → ok s a → step s a = some s' → I s')
    (h : Run step ok s₀ as s) : I s := by
  induction h with
  | nil => exact h0
  | snoc _ hok hs ih => exact hstep _ _ _ ih hok hs

theorem Run.mono {ok' : σ → α → Prop} (hok : ∀ s a, ok s a → ok' s a)
    (h : Run step ok s₀ as s) : Run step ok' s₀ as s := by
  induction h with
  | nil => exact .nil
  | snoc _ h1 hs ih => exact .snoc ih (hok _ _ h1) hs

theorem Run.append {bs : List α} {s'' : σ} (h : Run step ok s₀ as s)
    (h' : Run step ok s bs s'') : Run step ok s₀ (as ++ bs) s'' := by
  induction h' with
  | nil => rwa [List.append_nil]
  | snoc _ hok hs ih =>
    rw [← List.append_assoc]
    exact ih.snoc hok hs

theorem Run.one {a : α} (hok : ok s₀ a) (hs : step s₀ a = some s) : Run step ok s₀ [a] s := by
  have h : Run step ok s₀ ([] ++ [a]) s := Run.nil.snoc hok hs
  rwa [List.nil_append] at h

/-- The last step of a run. -/
theorem run_snoc_iff {a : α} : Run step ok s₀ (as ++ [a]) s' ↔
    ∃ s, Run step ok s₀ as s ∧ ok s a ∧ step s a = some s' := by
  constructor
  · intro h
    generalize hbs : as ++ [a] = bs at h
    cases h with
    | nil => simp at hbs
    | snoc hrun hok hs =>
      obtain ⟨rfl, heq⟩ := List.append_inj' hbs rfl
      cases heq
      exact ⟨_, hrun, hok, hs⟩
  · rintro ⟨s, hrun, hok, hs⟩
    exact hrun.snoc hok hs

/-- The actions determine the state. -/
theorem Run.unique {ok' : σ → α → Prop} (h : Run step ok s₀ as s) (h' : Run step ok' s₀ as s') :
    s = s' := by
  induction h generalizing s' with
  | nil =>
    generalize hbs : ([] : List α) = bs at h'
    cases h' with
    | nil => rfl
    | snoc _ _ _ => simp at hbs
  | snoc _ _ hs ih =>
    obtain ⟨t, hrun, -, ht⟩ := run_snoc_iff.mp h'
    rw [← ih hrun, hs] at ht
    exact Option.some.inj ht

/-- The runs all of whose states have `I` are those all of whose steps meet `ok'`, if that is so
    of one step from a state with the invariant `K`. -/
theorem run_safe_iff {ok' : σ → α → Prop} (K I : σ → Prop) (hK : K s₀) (hI : I s₀)
    (hkeep : ∀ s a s', K s → step s a = some s' → K s')
    (hstep : ∀ s a s', K s → I s → step s a = some s' → (I s' ↔ ok' s a))
    (h : Run step (fun _ _ => True) s₀ as s) :
    (∀ bs t, bs <+: as → Run step (fun _ _ => True) s₀ bs t → I t) ↔ Run step ok' s₀ as s := by
  induction h with
  | nil =>
    refine ⟨fun _ => .nil, fun _ bs t hbs ht => ?_⟩
    rw [List.prefix_nil.mp hbs] at ht
    have hnil : Run step (fun _ _ => True) s₀ [] s₀ := .nil
    rw [ht.unique hnil]
    exact hI
  | @snoc as s s' a hrun _ hs ih =>
    have hKs : K s := hrun.invariant K hK fun t b t' hk _ hb => hkeep t b t' hk hb
    constructor
    · intro hall
      have hbefore := ih.mp fun bs t hbs => hall bs t (hbs.trans (List.prefix_append as [a]))
      have hIs := hall as s (List.prefix_append as [a]) hrun
      have hIs' := hall (as ++ [a]) s' (List.prefix_refl _) (hrun.snoc trivial hs)
      exact hbefore.snoc ((hstep s a s' hKs hIs hs).mp hIs') hs
    · intro hrun' bs t hbs ht
      obtain ⟨s₁, hbefore, hok, -⟩ := run_snoc_iff.mp hrun'
      obtain rfl := hbefore.unique hrun
      have hall := ih.mpr hbefore
      rcases List.prefix_concat_iff.mp hbs with rfl | hbs
      · rw [ht.unique hrun']
        exact (hstep s₁ a s' hKs (hall as s₁ (List.prefix_refl _) hrun) hs).mpr hok
      · exact hall bs t hbs ht

/-- The same of a property that no step brings back: it holds at the end exactly when each step
    meets the condition. -/
theorem run_last_iff {ok' : σ → α → Prop} (K I : σ → Prop) (hK : K s₀) (hI : I s₀)
    (hkeep : ∀ s a s', K s → step s a = some s' → K s')
    (hback : ∀ s a s', step s a = some s' → I s' → I s)
    (hstep : ∀ s a s', K s → I s → step s a = some s' → (I s' ↔ ok' s a))
    (h : Run step (fun _ _ => True) s₀ as s) : I s ↔ Run step ok' s₀ as s := by
  induction h with
  | nil => exact ⟨fun _ => .nil, fun _ => hI⟩
  | @snoc as s s' a hrun _ hs ih =>
    have hKs : K s := hrun.invariant K hK fun t b t' hk _ hb => hkeep t b t' hk hb
    constructor
    · intro hIs'
      have hIs := hback s a s' hs hIs'
      exact (ih.mp hIs).snoc ((hstep s a s' hKs hIs hs).mp hIs') hs
    · intro hrun'
      obtain ⟨s₁, hbefore, hok, -⟩ := run_snoc_iff.mp hrun'
      obtain rfl := hbefore.unique hrun
      exact (hstep s₁ a s' hKs (ih.mpr hbefore) hs).mpr hok

/-- The state after the actions `as`, if each can be taken and satisfies `ok` where it is
    taken. -/
def exec (step : σ → α → Option σ) (ok : σ → α → Bool) (s : σ) : List α → Option σ
  | [] => some s
  | a :: as => if ok s a then (step s a).bind fun s' => exec step ok s' as else none

theorem run_exec_from {ok : σ → α → Bool} {s₁ : σ} {bs : List α}
    (h : Run step (fun s a => ok s a) s₀ as s₁) (he : exec step ok s₁ bs = some s) :
    Run step (fun s a => ok s a) s₀ (as ++ bs) s := by
  induction bs generalizing as s₁ with
  | nil =>
    obtain rfl : s₁ = s := by simpa [exec] using he
    simpa using h
  | cons b bs ih =>
    rw [exec] at he
    split at he
    · next hok =>
      obtain ⟨s₂, hs, he'⟩ := Option.bind_eq_some_iff.mp he
      have := ih (h.snoc hok hs) he'
      simpa using this
    · cases he

/-- An executed run is a run. -/
theorem run_of_exec {ok : σ → α → Bool} (h : exec step ok s₀ as = some s) :
    Run step (fun s a => ok s a) s₀ as s :=
  run_exec_from .nil h

/-- An execution that gets through has a run to its last state. -/
theorem run_exec_get {ok : σ → α → Bool} (h : (exec step ok s₀ as).isSome) :
    Run step (fun s a => ok s a) s₀ as ((exec step ok s₀ as).get h) :=
  run_of_exec (Option.some_get h).symm

end OpenHpcWeb.Lib
