/-
  Loops that stop at the first error.

  * `foldlM_ok_invariant`: the invariant rule for a fold in `Except`; the invariant may
    speak of the elements already consumed.
  * `foldlM_total`: the rule for a fold that no element stops.
  * `mapM_ok_iff`: a traversal in `Except`, element by element; `mem_of_mapM_ok`,
    `map_of_mapM_ok` and `mapM_isOk` are what its callers use.
  * `forEach`: `for _, a := range as { if err := f(a); err != nil { return err } }` over a
    state that a body which fails may have changed too. `forEach_rule` is its invariant
    rule: the loop gets to the end, or to the first element whose body fails. `forEach_keeps`
    is the rule for what no body changes.
-/
import Mathlib.Data.List.Basic
import Mathlib.Data.List.Forall2
import Mathlib.Tactic.Common

namespace OpenHpcWeb.Lib

variable {α β σ ε : Type}

private theorem foldlM_ok_from {f : β → α → Except ε β} (P : List α → β → Prop)
    (hstep : ∀ es b a b', P es b → f b a = .ok b' → P (es ++ [a]) b') {l es : List α} {b b' : β}
    (h0 : P es b) (h : l.foldlM f b = .ok b') : P (es ++ l) b' := by
  induction l generalizing es b with
  | nil =>
    obtain rfl : b = b' := by simpa [pure, Except.pure] using h
    simpa using h0
  | cons a l ih =>
    rw [List.foldlM_cons] at h
    cases hf : f b a with
    | error e => simp [hf, bind, Except.bind] at h
    | ok b₁ =>
      have h' : l.foldlM f b₁ = .ok b' := by simpa [hf, bind, Except.bind] using h
      have := ih (hstep es b a b₁ h0 hf) h'
      simpa using this

theorem foldlM_ok_invariant {f : β → α → Except ε β} (P : List α → β → Prop)
    (hstep : ∀ es b a b', P es b → f b a = .ok b' → P (es ++ [a]) b') {l : List α} {b b' : β}
    (h0 : P [] b) (h : l.foldlM f b = .ok b') : P l b' := by
  simpa using foldlM_ok_from P hstep h0 h

private theorem foldlM_total_from {f : β → α → Except ε β} {l : List α} (P : List α → β → Prop)
    (hstep : ∀ done a rest b, l = done ++ a :: rest → P done b → ∃ b', f b a = .ok b' ∧
      P (done ++ [a]) b') {done as : List α} {b : β} (hl : l = done ++ as) (h0 : P done b) :
    ∃ b', as.foldlM f b = .ok b' ∧ P l b' := by
  induction as generalizing done b with
  | nil =>
    rw [List.append_nil] at hl
    exact ⟨b, rfl, hl ▸ h0⟩
  | cons a as ih =>
    obtain ⟨b₁, hf, h1⟩ := hstep done a as b hl h0
    obtain ⟨b', hrest, hend⟩ := ih (by rw [hl, List.append_cons]) h1
    refine ⟨b', ?_, hend⟩
    rw [List.foldlM_cons, hf]
    exact hrest

/-- A fold whose body succeeds at every element gets to the end. -/
theorem foldlM_total {f : β → α → Except ε β} {l : List α} (P : List α → β → Prop)
    (hstep : ∀ done a rest b, l = done ++ a :: rest → P done b → ∃ b', f b a = .ok b' ∧
      P (done ++ [a]) b') {b : β} (h0 : P [] b) : ∃ b', l.foldlM f b = .ok b' ∧ P l b' :=
  foldlM_total_from P hstep rfl h0

theorem mapM_ok_iff (f : α → Except ε β) (l : List α) (bs : List β) :
    l.mapM f = .ok bs ↔ List.Forall₂ (fun a b => f a = .ok b) l bs := by
  induction l generalizing bs with
  | nil =>
    rw [List.mapM_nil, List.forall₂_nil_left_iff]
    simp [pure, Except.pure, eq_comm]
  | cons a l ih =>
    rw [List.mapM_cons, List.forall₂_cons_left_iff]
    simp only [← ih]
    cases hf : f a with
    | error e => simp [bind, Except.bind]
    | ok b =>
      cases hl : l.mapM f with
      | error e => simp [bind, Except.bind]
      | ok bs' => simp [bind, Except.bind, pure, Except.pure, eq_comm]

theorem mem_of_mapM_ok {f : α → Except ε β} {l : List α} {bs : List β} (h : l.mapM f = .ok bs)
    {b : β} (hb : b ∈ bs) : ∃ a ∈ l, f a = .ok b := by
  rw [mapM_ok_iff] at h
  induction h with
  | nil => cases hb
  | @cons a b' l bs hab _ ih =>
    rcases List.mem_cons.mp hb with rfl | hb
    · exact ⟨a, List.mem_cons_self, hab⟩
    · obtain ⟨a', ha', hab'⟩ := ih hb
      exact ⟨a', List.mem_cons_of_mem a ha', hab'⟩

/-- What every result says of its element, the results say of the list. -/
theorem map_of_mapM_ok {γ : Type} {f : α → Except ε β} {l : List α} {bs : List β}
    (h : l.mapM f = .ok bs) {g : β → γ} {k : α → γ}
    (hg : ∀ a ∈ l, ∀ b, f a = .ok b → g b = k a) : bs.map g = l.map k := by
  rw [mapM_ok_iff] at h
  induction h with
  | nil => rfl
  | @cons a b l bs hab _ ih =>
    rw [List.map_cons, List.map_cons, hg a List.mem_cons_self b hab,
      ih fun a' ha' => hg a' (List.mem_cons_of_mem a ha')]

/-- A traversal fails only at an element that does. -/
theorem mapM_isOk {f : α → Except ε β} {l : List α} (h : ∀ a ∈ l, ∃ b, f a = .ok b) :
    ∃ bs, l.mapM f = .ok bs := by
  induction l with
  | nil => exact ⟨[], rfl⟩
  | cons a l ih =>
    obtain ⟨b, hb⟩ := h a List.mem_cons_self
    obtain ⟨bs, hbs⟩ := ih fun a' ha' => h a' (List.mem_cons_of_mem a ha')
    refine ⟨b :: bs, ?_⟩
    rw [mapM_ok_iff] at hbs ⊢
    exact .cons hb hbs

theorem exists_ok_of_isOk {r : Except ε α} (h : r.isOk = true) : ∃ a, r = .ok a := by
  cases r with
  | error e => cases h
  | ok a => exact ⟨a, rfl⟩

/-- The loop over the elements, with the state after it. -/
def forEach (f : α → σ → Except ε Unit × σ) : List α → σ → Except ε Unit × σ
  | [], s => (.ok (), s)
  | a :: as, s =>
    match (f a s).1 with
    | .error e => (.error e, (f a s).2)
    | .ok () => forEach f as (f a s).2

/-- How a loop ends: after all of `as`, or at an element whose body fails. -/
inductive LoopEnd (f : α → σ → Except ε Unit × σ) (P : List α → σ → Prop) (as : List α)
    (result : Except ε Unit × σ) : Prop
  | all (hok : result.1 = .ok ()) (hp : P as result.2)
  | stopped (done : List α) (a : α) (rest : List α) (s : σ) (e : ε) (has : as = done ++ a :: rest)
      (hp : P done s) (hf : f a s = (.error e, result.2)) (he : result.1 = .error e)

private theorem forEach_from {f : α → σ → Except ε Unit × σ} {l : List α}
    (P : List α → σ → Prop)
    (hstep : ∀ done a rest s, l = done ++ a :: rest → P done s → (f a s).1 = .ok () →
      P (done ++ [a]) (f a s).2)
    {done as : List α} {s : σ} (hl : l = done ++ as) (h0 : P done s) :
    LoopEnd f P l (forEach f as s) := by
  induction as generalizing done s with
  | nil =>
    rw [List.append_nil] at hl
    rw [hl]
    exact .all rfl h0
  | cons a as ih =>
    cases hf : (f a s).1 with
    | error e =>
      have hend : forEach f (a :: as) s = (.error e, (f a s).2) := by rw [forEach, hf]
      rw [hend]
      exact .stopped done a as s e hl h0 (Prod.ext hf rfl) rfl
    | ok u =>
      have hend : forEach f (a :: as) s = forEach f as (f a s).2 := by rw [forEach, hf]
      rw [hend]
      exact ih (by rw [hl, List.append_cons]) (hstep done a as s hl h0 hf)

/-- The rule for the loop over `l`: what holds at the start, and of one element more after
    each body that succeeds, holds of the elements before the end. -/
theorem forEach_rule {f : α → σ → Except ε Unit × σ} {l : List α} (P : List α → σ → Prop)
    (hstep : ∀ done a rest s, l = done ++ a :: rest → P done s → (f a s).1 = .ok () →
      P (done ++ [a]) (f a s).2)
    {s : σ} (h0 : P [] s) : LoopEnd f P l (forEach f l s) :=
  forEach_from P hstep rfl h0

/-- What every body keeps, also when it fails, the loop keeps. -/
theorem forEach_keeps {f : α → σ → Except ε Unit × σ} {l : List α} (I : σ → Prop)
    (hstep : ∀ a ∈ l, ∀ s, I s → I (f a s).2) {s : σ} (h0 : I s) : I (forEach f l s).2 := by
  have hrule := forEach_rule (f := f) (l := l) (fun _ s => I s)
    (fun done a rest s hl hs _ => hstep a (by rw [hl]; simp) s hs) h0
  rcases hrule with ⟨-, hall⟩ | ⟨done, a, rest, s', e, hl, hs, hf, -⟩
  · exact hall
  · have hlast := hstep a (by rw [hl]; simp) s' hs
    rw [hf] at hlast
    exact hlast

end OpenHpcWeb.Lib
