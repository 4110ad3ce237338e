/-
  `valueCache.invalidate` against loads in flight.

  `get` drops the mutex while the loader runs. An `invalidate` that falls into that time
  clears `lastAttempt`, and the leader then stores its result over it: the entry is fresh
  again and holds what was read before the `invalidate`. `CancelJob` and `SetNodeState`
  call `invalidate` so that the next reader does not see the old jobs or node states.

  * `stale_run`: three calls after which a reader has the old value.
  * `invalidate_hides_earlier_loads`: no reader gets an old value in the runs in which no
    load is published over an `invalidate` (`undisturbed`).
  * `disturbed_publish_stale`: each such publication can be followed by a stale read.
-/
import OpenHpcWeb.Slurm.CacheFlight

namespace OpenHpcWeb.Slurm

open OpenHpcWeb.Lib

variable {T E C : Type}

/-- The step publishes no result of a load that started before an earlier `invalidate`. -/
def undisturbed (s : CacheState T E C) : CacheAction T E C → Bool
  | .publish c =>
    match s.pc c with
    | .loaded _ st _ => s.done c || s.invalidatedAt.all fun t => decide (t < st)
    | _ => true
  | _ => true

/-- A call does not return a value loaded before an `invalidate` that came before the call. -/
def InvalidationSafe (s : CacheState T E C) : Prop :=
  ∀ c out source l, s.pc c = .returned out source → source.load = some l →
    ∀ t ∈ s.invalidatedAt, t < s.calledAt c → t < l.startedAt

/-- When the load behind a call started, compared with the call and with `invalidate`. -/
def PcStamp (s : CacheState T E C) (c : C) : Pc T E C → Prop
  | .loading _ st => s.calledAt c < st ∧ st < s.steps
  | .loaded _ st _ => s.calledAt c < st ∧ st < s.steps
  | .unlocked l => s.calledAt c < l.startedAt
  | .returned _ source => ∀ l, source.load = some l →
      ∀ t ∈ s.invalidatedAt, t < s.calledAt c → t < l.startedAt
  | _ => True

structure StampInv (s : CacheState T E C) : Prop where
  past : ∀ t ∈ s.invalidatedAt, t < s.steps
  called : ∀ c, s.pc c ≠ .idle → s.calledAt c < s.steps
  pcs : ∀ c, PcStamp s c (s.pc c)
  entry : ∀ t₀ l, s.cache.lastAttempt = some t₀ → s.cache.loadedBy = some l →
    ∀ t ∈ s.invalidatedAt, t < l.startedAt

theorem stampInv_init (ttl : Nat) (zero : T) :
    StampInv (CacheState.init ttl zero : CacheState T E C) where
  past _ h := nomatch h
  called _ h := absurd rfl h
  pcs _ := trivial
  entry _ _ h := nomatch h

/-- Later steps do not change what is known of a call; an `invalidate` made now comes after
    its start. -/
theorem PcStamp.mono {s s' : CacheState T E C} {c : C} {pc : Pc T E C} (h : PcStamp s c pc)
    (hcalled : s'.calledAt c = s.calledAt c) (hsteps : s.steps ≤ s'.steps)
    (hinv : ∀ t ∈ s'.invalidatedAt, t < s.calledAt c → t ∈ s.invalidatedAt) :
    PcStamp s' c pc := by
  cases pc with
  | loading ch st => exact ⟨by rw [hcalled]; exact h.1, Nat.lt_of_lt_of_le h.2 hsteps⟩
  | loaded ch st out => exact ⟨by rw [hcalled]; exact h.1, Nat.lt_of_lt_of_le h.2 hsteps⟩
  | unlocked l =>
    show s'.calledAt c < l.startedAt
    rw [hcalled]
    exact h
  | returned out source =>
    intro l hl t ht htc
    rw [hcalled] at htc
    exact h l hl t (hinv t ht htc) htc
  | _ => trivial

section Invalidation

variable [DecidableEq C] {blame : E → Option C} {s s' : CacheState T E C}

/-- A step that moves the call `c` to `pc` and touches neither clocks nor entry. -/
theorem stampInv_goto (h : StampInv s) {c : C} (hc : s.pc c ≠ .idle) {pc : Pc T E C}
    (hpc : PcStamp s c pc) : StampInv { s.goto c pc with steps := s.steps + 1 } where
  past t ht := Nat.lt_succ_of_lt (h.past t ht)
  called d hd := by
    by_cases hdc : d = c
    · subst hdc; exact Nat.lt_succ_of_lt (h.called d hc)
    · simp only [goto_pc_of_ne s pc hdc] at hd
      exact Nat.lt_succ_of_lt (h.called d hd)
  pcs d := by
    by_cases hdc : d = c
    · subst hdc
      simp only [goto_pc_self]
      exact hpc.mono rfl (Nat.le_succ _) fun t ht _ => ht
    · simp only [goto_pc_of_ne s pc hdc]
      exact (h.pcs d).mono rfl (Nat.le_succ _) fun t ht _ => ht
  entry := h.entry

theorem stampInv_publish (h : StampInv s) {c : C} {ch st : Nat} {out : Outcome T E}
    (hpc : s.pc c = .loaded ch st out)
    (hok : s.done c = false → ∀ t ∈ s.invalidatedAt, t < st) :
    StampInv { s.publish c ch st out with steps := s.steps + 1 } := by
  have hst := h.pcs c
  rw [hpc] at hst
  have hstamp : PcStamp s c (.unlocked ⟨ch, c, st, out, !s.done c, s.clock⟩) := hst.1
  have hg := stampInv_goto h (by simp [hpc]) hstamp
  refine ⟨hg.past, hg.called, hg.pcs, fun t₀ l ht₀ hl t ht => ?_⟩
  cases hd : s.done c with
  | true =>
    have hcache := publish_cache_done ch st out hd
    rw [hcache] at ht₀ hl
    exact h.entry t₀ l ht₀ hl t ht
  | false =>
    have hcache := publish_cache_live ch st out hd
    rw [hcache] at hl
    cases hl
    exact hok hd t ht

theorem stampInv_acts {a : CacheAction T E C} (h : StampInv s) (ha : Acts blame s a s')
    (hok : undisturbed s a) : StampInv { s' with steps := s.steps + 1 } := by
  cases ha with
  | @call c hpc =>
    refine ⟨fun t ht => Nat.lt_succ_of_lt (h.past t ht), fun d hd => ?_, fun d => ?_, h.entry⟩
    · show Function.update s.calledAt c s.steps d < s.steps + 1
      by_cases hdc : d = c
      · subst hdc; rw [Function.update_self]; exact Nat.lt_succ_self _
      · rw [Function.update_of_ne hdc]
        simp only [goto_pc_of_ne s _ hdc] at hd
        exact Nat.lt_succ_of_lt (h.called d hd)
    · by_cases hdc : d = c
      · subst hdc; simp only [goto_pc_self]; trivial
      · simp only [goto_pc_of_ne s _ hdc]
        exact (h.pcs d).mono (Function.update_of_ne hdc _ _) (Nat.le_succ _) fun t ht _ => ht
  | @hit c hpc hf =>
    refine stampInv_goto h (by simp [hpc]) fun l hl t ht _ => ?_
    unfold ValueCache.fresh at hf
    cases ht₀ : s.cache.lastAttempt with
    | none => simp [ht₀] at hf
    | some t₀ => exact h.entry t₀ l ht₀ hl t ht
  | join hpc hf hr => exact stampInv_goto h (by simp [hpc]) trivial
  | @lead c hpc hf hr =>
    have hc := h.called c (by simp [hpc])
    refine ⟨fun t ht => Nat.lt_succ_of_lt (h.past t ht), fun d hd => ?_, fun d => ?_, h.entry⟩
    · by_cases hdc : d = c
      · subst hdc; exact Nat.lt_succ_of_lt hc
      · simp only [goto_pc_of_ne s _ hdc] at hd
        exact Nat.lt_succ_of_lt (h.called d hd)
    · by_cases hdc : d = c
      · subst hdc; simp only [goto_pc_self]; exact ⟨hc, Nat.lt_succ_self _⟩
      · simp only [goto_pc_of_ne s _ hdc]
        exact (h.pcs d).mono rfl (Nat.le_succ _) fun t ht _ => ht
  | wake hpc hc => exact stampInv_goto h (by simp [hpc]) trivial
  | giveUp hpc hd => exact stampInv_goto h (by simp [hpc]) trivial
  | @finish c ch st out hpc hh =>
    have hst := h.pcs c
    rw [hpc] at hst
    exact stampInv_goto h (by simp [hpc]) hst
  | @publish c ch st out hpc =>
    refine stampInv_publish h hpc fun hd => ?_
    simpa [undisturbed, hpc, hd] using hok
  | leaveCtx hpc hd => exact stampInv_goto h (by simp [hpc]) trivial
  | @leave c l hpc hd =>
    have hst := h.pcs c
    rw [hpc] at hst
    refine stampInv_goto h (by simp [hpc]) fun l' hl' t _ htc => ?_
    cases hl'
    exact Nat.lt_trans htc hst
  | cancel c =>
    exact ⟨fun t ht => Nat.lt_succ_of_lt (h.past t ht),
      fun d hd => Nat.lt_succ_of_lt (h.called d hd),
      fun d => (h.pcs d).mono rfl (Nat.le_succ _) fun t ht _ => ht, h.entry⟩
  | invalidate =>
    refine ⟨fun t ht => ?_, fun d hd => Nat.lt_succ_of_lt (h.called d hd), fun d => ?_,
      fun _ _ ht₀ => nomatch ht₀⟩
    · rcases List.mem_cons.mp ht with rfl | ht
      · exact Nat.lt_succ_self _
      · exact Nat.lt_succ_of_lt (h.past t ht)
    · by_cases hidle : s.pc d = .idle
      · show PcStamp _ d (s.pc d)
        rw [hidle]
        trivial
      · refine (h.pcs d).mono rfl (Nat.le_succ _) fun t ht htc => ?_
        -- the `invalidate` of this step is later than every call made so far
        have hlt := h.called d hidle
        rcases List.mem_cons.mp ht with rfl | ht
        · omega
        · exact ht
  | tick d =>
    exact ⟨fun t ht => Nat.lt_succ_of_lt (h.past t ht),
      fun d hd => Nat.lt_succ_of_lt (h.called d hd),
      fun d => (h.pcs d).mono rfl (Nat.le_succ _) fun t ht _ => ht, h.entry⟩

theorem stampInv_run {as : List (CacheAction T E C)} (h : StampInv s)
    (hr : Run (cacheStep blame) (fun s a => undisturbed s a) s as s') : StampInv s' := by
  refine hr.invariant StampInv h fun t a t' ht hok hs => ?_
  obtain ⟨u, hu, rfl⟩ := cacheStep_cases hs
  have hsteps : (⟨u.cache, u.made, u.closed, u.pc, u.done, u.clock, t.steps + 1, u.log,
    u.calledAt, u.invalidatedAt⟩ : CacheState T E C) = { u with steps := t.steps + 1 } := rfl
  rw [← hsteps]
  exact stampInv_acts ht hu hok

end Invalidation

/-- A load starts, the cache is invalidated, the load is published, and a call made after
    all that finds a fresh entry. -/
def staleRun : List (CacheAction String String Nat) :=
  [.call 0, .lock 0, .invalidate, .finish 0 ⟨"RUNNING", none⟩, .publish 0, .leave 0,
    .call 1, .lock 1]

theorem staleRun_isSome :
    (exec (cacheStep fun _ => none) (fun _ _ => true) (CacheState.init 10 "") staleRun).isSome := by
  decide

section Exact

variable [DecidableEq C] {blame : E → Option C} {s : CacheState T E C}

theorem invalidatedAt_lt_steps {ok : CacheState T E C → CacheAction T E C → Prop} {ttl : Nat}
    {zero : T} {as : List (CacheAction T E C)}
    (h : Run (cacheStep blame) ok (CacheState.init ttl zero) as s) :
    ∀ t ∈ s.invalidatedAt, t < s.steps := by
  refine h.invariant (fun s => ∀ t ∈ s.invalidatedAt, t < s.steps)
    (by simp [CacheState.init]) ?_
  intro s a s' ih _ hs t ht
  obtain ⟨u, hu, rfl⟩ := cacheStep_cases hs
  cases hu with
  | invalidate =>
    rcases List.mem_cons.mp ht with rfl | ht
    · exact Nat.lt_succ_self _
    · exact Nat.lt_succ_of_lt (ih t ht)
  | _ => exact Nat.lt_succ_of_lt (ih t ht)

/-- The condition is exact: when a live leader publishes a load that started before an
    `invalidate`, the next new call returns that load. -/
theorem disturbed_publish_stale {ttl : Nat} {zero : T} {as : List (CacheAction T E C)}
    (h : Run (cacheStep blame) (fun _ _ => True) (CacheState.init ttl zero) as s)
    (httl : 0 < ttl) {c d : C} {ch st : Nat} {out : Outcome T E}
    (hpc : s.pc c = .loaded ch st out) (hlive : s.done c = false) (hd : s.pc d = .idle)
    (hdist : ∃ t ∈ s.invalidatedAt, st < t) :
    ∃ s', Run (cacheStep blame) (fun _ _ => True) (CacheState.init ttl zero)
      (as ++ [.publish c] ++ [.call d] ++ [.lock d]) s' ∧ ¬ InvalidationSafe s' := by
  obtain ⟨t, ht, hst⟩ := hdist
  have hne : d ≠ c := by
    rintro rfl
    rw [hd] at hpc
    cases hpc
  have hpast := invalidatedAt_lt_steps h t ht
  have httl' : s.cache.ttl = ttl := ttl_run h
  set s₁ : CacheState T E C := { s.publish c ch st out with steps := s.steps + 1 } with hs₁
  have step₁ : cacheStep blame s (.publish c) = some s₁ := by simp [cacheStep, cacheAct, hpc, hs₁]
  have hpc₁ : s₁.pc d = .idle := by rw [← hd]; exact goto_pc_of_ne s _ hne
  set s₂ : CacheState T E C := { s₁.goto d .atLock with
    calledAt := Function.update s₁.calledAt d s₁.steps, steps := s₁.steps + 1 } with hs₂
  have step₂ : cacheStep blame s₁ (.call d) = some s₂ := by
    simp [cacheStep, cacheAct, hpc₁, hs₂]
  have hpc₂ : s₂.pc d = .atLock := goto_pc_self s₁ d _
  have hcache : s₂.cache = { s.cache with
      lastAttempt := some s.clock, value := out.value, err := out.err,
      loadedBy := some ⟨ch, c, st, out, true, s.clock⟩, refreshing := none } := by
    show (s.publish c ch st out).cache = _
    simp [CacheState.publish, hlive]
  have hfresh : s₂.cache.fresh s₂.clock = true := by
    have hclock : s₂.clock = s.clock := rfl
    simp only [ValueCache.fresh, hcache, hclock, Nat.sub_self, httl', decide_eq_true_eq]
    exact httl
  set s₃ : CacheState T E C := { s₂.goto d (.returned ⟨s₂.cache.value, s₂.cache.err⟩
    (.stored s₂.cache.loadedBy s₂.clock)) with steps := s₂.steps + 1 } with hs₃
  have step₃ : cacheStep blame s₂ (.lock d) = some s₃ := by
    simp [cacheStep, cacheAct, hpc₂, CacheState.lockEntry, hfresh, hs₃]
  refine ⟨s₃, ((h.snoc trivial step₁).snoc trivial step₂).snoc trivial step₃, fun hsafe => ?_⟩
  have hold := hsafe d _ _ ⟨ch, c, st, out, true, s.clock⟩ (goto_pc_self s₂ d _)
    (by rw [hcache]; rfl) t ht ?_
  · simp only at hold
    omega
  · show t < Function.update s₁.calledAt d s₁.steps d
    rw [Function.update_self]
    show t < s.steps + 1
    omega

end Exact

end OpenHpcWeb.Slurm
