/-
  Transactions over a database of type `σ`, statement by statement.

  A statement either takes effect or fails with the text the driver reports. Which of the
  coming statements fail is a schedule `Faults`: a cancelled context, a locked file and a
  full disk are all schedules, and `[]` is the schedule without faults. A transaction that
  ends in an error leaves the database as it was (`transaction_error`); this is what
  atomicity of the database provides.

  * `Steady`: a fault can turn a result into an error, but not into another result. Every
    program built from statements is steady (`Steady.bind`, `Steady.exec`, ..).
  * `Runs`: a program with a result that takes `k` statements has it under every schedule
    that spares these `k`, and fails under every other one.
  * `transaction_ok`: a successful transaction did what it does without faults.
  * `Sim`: two programs over two related databases run alike, statement by statement;
    `transaction_sim`: so do their transactions.
-/
import Mathlib.Data.List.Basic
import Mathlib.Tactic.Common

namespace OpenHpcWeb.Lib

variable {σ τ α β : Type}

/-- The fate of the coming statements: `some text` fails with that text. -/
abbrev Faults := List (Option String)

/-- A program over the database that may fail, with the faults still to come. -/
def Tx (σ α : Type) := σ → Faults → Except String (α × σ × Faults)

namespace Tx

instance : Monad (Tx σ) where
  pure a := fun db fs => .ok (a, db, fs)
  bind x f := fun db fs =>
    match x db fs with
    | .error e => .error e
    | .ok (a, db', fs') => f a db' fs'

/-- The error return of the program itself. -/
def fail (text : String) : Tx σ α := fun _ _ => .error text

/-- A statement that changes the database; the driver may refuse it (a constraint). -/
def exec (wrap : String) (f : σ → Except String σ) : Tx σ Unit := fun db fs =>
  match fs.headD none with
  | some text => .error (wrap ++ ": " ++ text)
  | none =>
    match f db with
    | .error text => .error (wrap ++ ": " ++ text)
    | .ok db' => .ok ((), db', fs.tail)

/-- A statement that reads. -/
def query (wrap : String) (f : σ → α) : Tx σ α := fun db fs =>
  match fs.headD none with
  | some text => .error (wrap ++ ": " ++ text)
  | none => .ok (f db, db, fs.tail)

/-- A result of the program that needs no statement. -/
def lift (r : Except String α) : Tx σ α := fun db fs =>
  match r with
  | .error e => .error e
  | .ok a => .ok (a, db, fs)

theorem pure_apply (a : α) (db : σ) (fs : Faults) :
    (pure a : Tx σ α) db fs = .ok (a, db, fs) := rfl

theorem bind_apply (x : Tx σ α) (f : α → Tx σ β) (db : σ) (fs : Faults) :
    (x >>= f) db fs = match x db fs with
      | .error e => .error e
      | .ok (a, db', fs') => f a db' fs' := rfl

theorem exec_nil (wrap : String) (f : σ → Except String σ) (db : σ) :
    exec wrap f db [] = match f db with
      | .error text => .error (wrap ++ ": " ++ text)
      | .ok db' => .ok ((), db', []) := rfl

theorem query_nil (wrap : String) (f : σ → α) (db : σ) :
    query wrap f db [] = .ok (f db, db, []) := rfl

/-! ## Faults only turn results into errors -/

/-- A result under some faults is the result without faults. -/
def Steady (x : Tx σ α) : Prop :=
  ∀ db fs a db' fs', x db fs = .ok (a, db', fs') → x db [] = .ok (a, db', [])

namespace Steady

theorem pure (a : α) : Steady (Pure.pure a : Tx σ α) := by
  intro db fs b db' fs' h
  simp only [pure_apply, Except.ok.injEq, Prod.mk.injEq] at h ⊢
  exact ⟨h.1, h.2.1, trivial⟩

theorem bind {x : Tx σ α} {f : α → Tx σ β} (hx : Steady x) (hf : ∀ a, Steady (f a)) :
    Steady (x >>= f) := by
  intro db fs b db' fs' h
  rw [bind_apply] at h
  cases hxe : x db fs with
  | error e => rw [hxe] at h; cases h
  | ok r =>
    obtain ⟨a, db₁, fs₁⟩ := r
    rw [hxe] at h
    rw [bind_apply, hx db fs a db₁ fs₁ hxe]
    exact hf a db₁ fs₁ b db' fs' h

theorem fail (text : String) : Steady (fail text : Tx σ α) := by
  intro db fs b db' fs' h
  cases h

theorem lift (r : Except String α) : Steady (lift r : Tx σ α) := by
  intro db fs b db' fs' h
  cases r with
  | error e => cases h
  | ok a => cases h; rfl

theorem exec (wrap : String) (f : σ → Except String σ) : Steady (exec wrap f) := by
  intro db fs b db' fs' h
  unfold Tx.exec at h
  cases hfs : fs.headD none with
  | some text => rw [hfs] at h; cases h
  | none =>
    rw [hfs] at h
    rw [exec_nil]
    cases hf : f db with
    | error text => simp [hf] at h
    | ok db₁ => simp only [hf, Except.ok.injEq, Prod.mk.injEq] at h ⊢; simp [h.2.1]

theorem query (wrap : String) (f : σ → α) : Steady (query wrap f) := by
  intro db fs b db' fs' h
  unfold Tx.query at h
  cases hfs : fs.headD none with
  | some text => rw [hfs] at h; cases h
  | none =>
    rw [hfs] at h
    simp only [Except.ok.injEq, Prod.mk.injEq] at h
    rw [query_nil, h.1, h.2.1]

theorem forM {f : α → Tx σ PUnit} (hf : ∀ a, Steady (f a)) (as : List α) :
    Steady (as.forM f) := by
  induction as with
  | nil => exact pure _
  | cons a as ih =>
    show Steady (f a >>= fun _ => as.forM f)
    exact bind (hf a) fun _ => ih

end Steady

/-! ## Which faults a program meets -/

/-- The first `k` statements do not fail. -/
def Spared (k : Nat) (fs : Faults) : Prop := ∀ f ∈ fs.take k, f = none

theorem spared_nil (k : Nat) : Spared k [] := by
  unfold Spared
  simp

theorem spared_add {k l : Nat} {fs : Faults} :
    Spared (k + l) fs ↔ Spared k fs ∧ Spared l (fs.drop k) := by
  unfold Spared
  rw [List.take_add]
  simp only [List.mem_append]
  exact ⟨fun h => ⟨fun f hf => h f (Or.inl hf), fun f hf => h f (Or.inr hf)⟩,
    fun h f hf => hf.elim (h.1 f) (h.2 f)⟩

theorem spared_one {fs : Faults} : Spared 1 fs ↔ fs.headD none = none := by
  unfold Spared
  cases fs <;> simp

/-- From `db` the program takes `k` statements to the result `a` and the database `db'`. -/
structure Runs (x : Tx σ α) (db : σ) (k : Nat) (a : α) (db' : σ) : Prop where
  ok : ∀ fs, Spared k fs → x db fs = .ok (a, db', fs.drop k)
  error : ∀ fs, ¬ Spared k fs → ∃ e, x db fs = .error e

namespace Runs

variable {x : Tx σ α} {db db' db'' : σ} {k l : Nat} {a : α} {b : β}

theorem nil (h : Runs x db k a db') : x db [] = .ok (a, db', []) := by
  rw [h.ok [] (spared_nil k), List.drop_nil]

theorem pure (a : α) (db : σ) : Runs (Pure.pure a : Tx σ α) db 0 a db where
  ok _ _ := rfl
  error fs h := absurd (fun f hf => by simp at hf) h

theorem bind {f : α → Tx σ β} (hx : Runs x db k a db') (hf : Runs (f a) db' l b db'') :
    Runs (x >>= f) db (k + l) b db'' where
  ok fs h := by
    obtain ⟨hk, hl⟩ := spared_add.mp h
    rw [bind_apply, hx.ok fs hk]
    simp only
    rw [hf.ok _ hl, List.drop_drop]
  error fs h := by
    rw [bind_apply]
    by_cases hk : Spared k fs
    · obtain ⟨e, he⟩ := hf.error (fs.drop k) fun hl => h (spared_add.mpr ⟨hk, hl⟩)
      rw [hx.ok fs hk]
      exact ⟨e, he⟩
    · obtain ⟨e, he⟩ := hx.error fs hk
      rw [he]
      exact ⟨e, rfl⟩

theorem exec {wrap : String} {f : σ → Except String σ} (hf : f db = .ok db') :
    Runs (exec wrap f) db 1 () db' where
  ok fs h := by
    unfold Tx.exec
    rw [spared_one.mp h, hf]
    cases fs <;> rfl
  error fs h := by
    unfold Tx.exec
    cases hh : fs.headD none with
    | none => exact absurd (spared_one.mpr hh) h
    | some text => exact ⟨_, rfl⟩

theorem query (wrap : String) (f : σ → α) (db : σ) : Runs (query wrap f) db 1 (f db) db where
  ok fs h := by
    unfold Tx.query
    rw [spared_one.mp h]
    cases fs <;> rfl
  error fs h := by
    unfold Tx.query
    cases hh : fs.headD none with
    | none => exact absurd (spared_one.mpr hh) h
    | some text => exact ⟨_, rfl⟩

/-- Statements of which none is refused, one for each element. -/
theorem forM_exec (wrap : String) (f : β → σ → σ) (bs : List β) (db : σ) :
    Runs (bs.forM fun b => Tx.exec wrap fun s => .ok (f b s)) db bs.length ⟨⟩
      (bs.foldl (fun s b => f b s) db) := by
  induction bs generalizing db with
  | nil => exact Runs.pure _ db
  | cons b bs ih =>
    have hfirst : Runs (Tx.exec wrap fun s => .ok (f b s)) db 1 () (f b db) := Runs.exec rfl
    have hall := hfirst.bind (f := fun _ => bs.forM fun b => Tx.exec wrap fun s => .ok (f b s))
      (ih (f b db))
    rw [Nat.add_comm] at hall
    exact hall

end Runs

/-! ## Programs over two databases -/

/-- Two runs fail alike, or end with related results and databases and the same faults to come. -/
inductive Agree (R : σ → τ → Prop) (Q : α → β → Prop) :
    Except String (α × σ × Faults) → Except String (β × τ × Faults) → Prop
  | error (e : String) : Agree R Q (.error e) (.error e)
  | ok {a : α} {b : β} {s : σ} {t : τ} {fs : Faults} (hab : Q a b) (hst : R s t) :
      Agree R Q (.ok (a, s, fs)) (.ok (b, t, fs))

theorem Agree.cases {R : σ → τ → Prop} {Q : α → β → Prop}
    {r : Except String (α × σ × Faults)} {r' : Except String (β × τ × Faults)}
    (h : Agree R Q r r') : (∃ e, r = .error e ∧ r' = .error e) ∨
      ∃ a b s t fs, r = .ok (a, s, fs) ∧ r' = .ok (b, t, fs) ∧ Q a b ∧ R s t := by
  cases h with
  | error e => exact .inl ⟨e, rfl, rfl⟩
  | ok hab hst => exact .inr ⟨_, _, _, _, _, rfl, rfl, hab, hst⟩

/-- From related databases the two programs run alike. -/
def Sim (R : σ → τ → Prop) (Q : α → β → Prop) (x : Tx σ α) (y : Tx τ β) : Prop :=
  ∀ s t fs, R s t → Agree R Q (x s fs) (y t fs)

namespace Sim

variable {R : σ → τ → Prop} {Q : α → β → Prop}

theorem pure {a : α} {b : β} (hab : Q a b) :
    Sim R Q (Pure.pure a : Tx σ α) (Pure.pure b : Tx τ β) :=
  fun _ _ _ hst => .ok hab hst

theorem fail (text : String) : Sim R Q (Tx.fail text) (Tx.fail text) := fun _ _ _ _ => .error text

theorem bind {γ δ : Type} {Q' : γ → δ → Prop} {x : Tx σ α} {y : Tx τ β} {f : α → Tx σ γ}
    {g : β → Tx τ δ} (hxy : Sim R Q x y) (hfg : ∀ a b, Q a b → Sim R Q' (f a) (g b)) :
    Sim R Q' (x >>= f) (y >>= g) := by
  intro s t fs hst
  rw [bind_apply, bind_apply]
  rcases (hxy s t fs hst).cases with ⟨e, hx, hy⟩ | ⟨a, b, s', t', fs', hx, hy, hab, hst'⟩
  · rw [hx, hy]
    exact .error e
  · rw [hx, hy]
    exact hfg a b hab s' t' fs' hst'

theorem lift {r : Except String α} {r' : Except String β}
    (h : (∃ e, r = .error e ∧ r' = .error e) ∨ ∃ a b, r = .ok a ∧ r' = .ok b ∧ Q a b) :
    Sim R Q (Tx.lift r) (Tx.lift r') := by
  intro s t fs hst
  rcases h with ⟨e, rfl, rfl⟩ | ⟨a, b, rfl, rfl, hab⟩
  · exact .error e
  · exact .ok hab hst

theorem query {wrap : String} {f : σ → α} {g : τ → β} (h : ∀ s t, R s t → Q (f s) (g t)) :
    Sim R Q (Tx.query wrap f) (Tx.query wrap g) := by
  intro s t fs hst
  unfold Tx.query
  cases fs.headD none with
  | some text => exact .error _
  | none => exact .ok (h s t hst) hst

theorem exec {wrap : String} {f : σ → Except String σ} {g : τ → Except String τ}
    (h : ∀ s t, R s t → (∃ e, f s = .error e ∧ g t = .error e) ∨
      ∃ s' t', f s = .ok s' ∧ g t = .ok t' ∧ R s' t') :
    Sim R Eq (Tx.exec wrap f) (Tx.exec wrap g) := by
  intro s t fs hst
  unfold Tx.exec
  cases fs.headD none with
  | some text => exact .error _
  | none =>
    rcases h s t hst with ⟨e, hf, hg⟩ | ⟨s', t', hf, hg, hst'⟩
    · simp only [hf, hg]
      exact .error _
    · simp only [hf, hg]
      exact .ok rfl hst'

theorem forM {f : α → Tx σ PUnit} {g : α → Tx τ PUnit} (h : ∀ a, Sim R Eq (f a) (g a))
    (as : List α) : Sim R Eq (as.forM f) (as.forM g) := by
  induction as with
  | nil => exact pure rfl
  | cons a as ih => exact bind (h a) fun _ _ _ => ih

end Sim

end Tx

/-! ## Commit and rollback -/

/-- Run a program as one transaction: its writes are kept if it succeeds, else none is. -/
def transaction (x : Tx σ α) (faults : Faults) (db : σ) : Except String α × σ :=
  match x db faults with
  | .error e => (.error e, db)
  | .ok (a, db', _) => (.ok a, db')

theorem transaction_error {x : Tx σ α} {faults : Faults} {db db' : σ} {e : String}
    (h : transaction x faults db = (.error e, db')) : db' = db := by
  unfold transaction at h
  split at h
  · cases h; rfl
  · cases h

theorem transaction_ok {x : Tx σ α} (hx : x.Steady) {faults : Faults} {db db' : σ} {a : α}
    (h : transaction x faults db = (.ok a, db')) : transaction x [] db = (.ok a, db') := by
  unfold transaction at h ⊢
  split at h
  · cases h
  · next b db₁ fs₁ he =>
    cases h
    rw [hx db faults a db' fs₁ he]

/-- A transaction whose statements are spared keeps the writes. -/
theorem transaction_spared {x : Tx σ α} {db db' : σ} {k : Nat} {a : α}
    (h : Tx.Runs x db k a db') {faults : Faults} (hs : Tx.Spared k faults) :
    transaction x faults db = (.ok a, db') := by
  unfold transaction
  rw [h.ok faults hs]

/-- One that meets a fault keeps none. -/
theorem transaction_not_spared {x : Tx σ α} {db db' : σ} {k : Nat} {a : α}
    (h : Tx.Runs x db k a db') {faults : Faults} (hs : ¬ Tx.Spared k faults) :
    ∃ e, transaction x faults db = (.error e, db) := by
  obtain ⟨e, he⟩ := h.error faults hs
  refine ⟨e, ?_⟩
  unfold transaction
  rw [he]

/-- Transactions of programs that run alike answer alike and leave related databases. -/
theorem transaction_sim {R : σ → τ → Prop} {Q : α → β → Prop} {x : Tx σ α} {y : Tx τ β}
    (h : Tx.Sim R Q x y) (faults : Faults) {s : σ} {t : τ} (hst : R s t) :
    (∃ e, transaction x faults s = (.error e, s) ∧ transaction y faults t = (.error e, t)) ∨
    ∃ a b s' t', transaction x faults s = (.ok a, s') ∧ transaction y faults t = (.ok b, t') ∧
      Q a b ∧ R s' t' := by
  unfold transaction
  rcases (h s t faults hst).cases with ⟨e, hx, hy⟩ | ⟨a, b, s', t', fs', hx, hy, hab, hst'⟩
  · rw [hx, hy]
    exact .inl ⟨e, rfl, rfl⟩
  · rw [hx, hy]
    exact .inr ⟨a, b, s', t', rfl, rfl, hab, hst'⟩

/-- A transaction with a result succeeds exactly when its statements are spared. -/
theorem transaction_isOk_iff {x : Tx σ α} {db db' : σ} {k : Nat} {a : α}
    (h : Tx.Runs x db k a db') {faults : Faults} :
    (∃ b, (transaction x faults db).1 = .ok b) ↔ Tx.Spared k faults := by
  unfold transaction
  constructor
  · rintro ⟨b, hb⟩
    by_contra hno
    obtain ⟨e, he⟩ := h.error faults hno
    rw [he] at hb
    cases hb
  · intro hs
    rw [h.ok faults hs]
    exact ⟨a, rfl⟩

end OpenHpcWeb.Lib
