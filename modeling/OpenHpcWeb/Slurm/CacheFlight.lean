/-
  Single flight of `valueCache.get`, over every interleaving of its callers.

  `Inv` is the invariant: `refreshing` is set exactly while one call leads, every channel
  whose load is over is closed once, and whatever a call has returned is the result of a
  load in `log`. `SingleFlight` is what follows for a reader of the cache;
  `get_single_flight` says that every state of every run has it.
-/
import OpenHpcWeb.Slurm.Cache

namespace OpenHpcWeb.Slurm

open OpenHpcWeb.Lib

variable {T E C : Type}

/-! ## The invariant of every run -/

/-- What is known of a call from where it stands. -/
def PcOk (blame : E → Option C) (s : CacheState T E C) (c : C) : Pc T E C → Prop
  | .idle => True
  | .atLock => True
  | .waiting ch => ch < s.made
  | .loading ch _ => s.cache.refreshing = some ch
  | .loaded ch _ out => s.cache.refreshing = some ch ∧
      ∀ e k, out.err = some e → blame e = some k → k = c ∧ s.done c = true
  | .unlocked l => l ∈ s.log ∧ l.caller = c ∧ (l.live = false → s.done c = true)
  | .returned out (.own l) => l ∈ s.log ∧ l.caller = c ∧ l.live = true ∧ l.out = out
  | .returned out (.stored l? readAt) => ∃ l, l? = some l ∧ l ∈ s.log ∧ l.live = true ∧
      l.out = out ∧ l.endedAt ≤ readAt ∧ readAt - l.endedAt < s.cache.ttl
  | .returnedCtxErr => s.done c = true

structure Inv (blame : E → Option C) (s : CacheState T E C) : Prop where
  pcs : ∀ c, PcOk blame s c (s.pc c)
  /-- at most one leader -/
  one : ∀ c d, (s.pc c).Leads → (s.pc d).Leads → c = d
  /-- `refreshing` is set only by a call that is still there to clear it -/
  led : s.cache.refreshing ≠ none → ∃ c, (s.pc c).Leads
  chan : ∀ ch, s.cache.refreshing = some ch → ch < s.made
  closed : ∀ ch, s.closed ch = if ch < s.made ∧ s.cache.refreshing ≠ some ch then 1 else 0
  entry : ∀ t, s.cache.lastAttempt = some t → t ≤ s.clock ∧ ∃ l, s.cache.loadedBy = some l ∧
      l ∈ s.log ∧ l.live = true ∧ l.out = ⟨s.cache.value, s.cache.err⟩ ∧ l.endedAt = t
  log : ∀ l ∈ s.log, l.live = true → ∀ e, l.out.err = some e → blame e = none
  ended : ∀ l ∈ s.log, l.chan < s.made ∧ s.cache.refreshing ≠ some l.chan

theorem inv_init (blame : E → Option C) (ttl : Nat) (zero : T) :
    Inv blame (CacheState.init ttl zero : CacheState T E C) where
  pcs _ := trivial
  one _ _ h := absurd h id
  led h := absurd rfl h
  chan _ h := nomatch h
  closed ch := by simp [CacheState.init]
  entry _ h := nomatch h
  log _ h := nomatch h
  ended _ h := nomatch h

/-- What is known of a call survives steps of others: history and channels grow, contexts
    stay ended, and `refreshing` does not change under a leader. -/
theorem PcOk.mono {blame : E → Option C} {s s' : CacheState T E C} {c : C} {pc : Pc T E C}
    (h : PcOk blame s c pc) (hmade : s.made ≤ s'.made) (hlog : s.log ⊆ s'.log)
    (hdone : s.done c = true → s'.done c = true) (httl : s'.cache.ttl = s.cache.ttl)
    (href : pc.Leads → s'.cache.refreshing = s.cache.refreshing) : PcOk blame s' c pc := by
  cases pc with
  | idle => trivial
  | atLock => trivial
  | waiting ch => exact Nat.lt_of_lt_of_le h hmade
  | loading ch st => exact (href trivial).trans h
  | loaded ch st out =>
    refine ⟨(href trivial).trans h.1, fun e k he hk => ?_⟩
    obtain ⟨hkc, hd⟩ := h.2 e k he hk
    exact ⟨hkc, hdone hd⟩
  | unlocked l => exact ⟨hlog h.1, h.2.1, fun hl => hdone (h.2.2 hl)⟩
  | returned out source =>
    cases source with
    | own l => exact ⟨hlog h.1, h.2⟩
    | stored l? readAt =>
      obtain ⟨l, hl, hmem, hrest⟩ := h
      exact ⟨l, hl, hlog hmem, by rw [httl]; exact hrest⟩
  | returnedCtxErr => exact hdone h

section Step

variable [DecidableEq C] {blame : E → Option C} {s s' : CacheState T E C}

/-- A step that only moves one call, which neither becomes nor stops being the leader. -/
theorem inv_goto (h : Inv blame s) (c : C) {pc : Pc T E C} (hpc : PcOk blame s c pc)
    (hlead : pc.Leads ↔ (s.pc c).Leads) : Inv blame (s.goto c pc) := by
  have hl : ∀ d, ((s.goto c pc).pc d).Leads ↔ (s.pc d).Leads := by
    intro d
    by_cases hd : d = c
    · subst hd; rw [goto_pc_self]; exact hlead
    · rw [goto_pc_of_ne s pc hd]
  refine ⟨fun d => ?_, ?_, ?_, h.chan, h.closed, h.entry, h.log, h.ended⟩
  · by_cases hd : d = c
    · subst hd; rw [goto_pc_self]; exact hpc.mono (Nat.le_refl _) (List.Subset.refl _) id rfl fun _ => rfl
    · rw [goto_pc_of_ne s pc hd]
      exact (h.pcs d).mono (Nat.le_refl _) (List.Subset.refl _) id rfl fun _ => rfl
  · intro d d' hd hd'
    exact h.one d d' ((hl d).mp hd) ((hl d').mp hd')
  · intro hr
    obtain ⟨d, hd⟩ := h.led hr
    exact ⟨d, (hl d).mpr hd⟩

omit [DecidableEq C] in
/-- Nobody leads while `refreshing` is not set. -/
theorem no_leader (h : Inv blame s) (hr : s.cache.refreshing = none) (c : C) :
    ¬ (s.pc c).Leads := by
  intro hc
  have hok := h.pcs c
  cases hpc : s.pc c with
  | loading ch st => rw [hpc, PcOk, hr] at hok; cases hok
  | loaded ch st out => rw [hpc, PcOk, hr] at hok; cases hok.1
  | _ => rw [hpc] at hc; exact hc

/-- Becoming the leader: a new channel in `refreshing`. -/
theorem inv_lead (h : Inv blame s) (c : C) (hr : s.cache.refreshing = none) :
    Inv blame { s.goto c (.loading s.made s.steps) with
      cache := { s.cache with refreshing := some s.made }, made := s.made + 1 } := by
  have hnot := no_leader h hr
  refine ⟨fun d => ?_, ?_, fun _ => ⟨c, ?_⟩, ?_, fun ch => ?_, h.entry, h.log, fun l hl => ?_⟩
  · by_cases hd : d = c
    · subst hd; simp only [goto_pc_self]; rfl
    · simp only [goto_pc_of_ne s _ hd]
      exact (h.pcs d).mono (Nat.le_succ _) (List.Subset.refl _) id rfl
        fun hl => absurd hl (hnot d)
  · have only : ∀ d, ((s.goto c (.loading s.made s.steps)).pc d).Leads → d = c := by
      intro d hd
      by_contra hne
      rw [goto_pc_of_ne s _ hne] at hd
      exact hnot d hd
    intro d d' hd hd'
    rw [only d hd, only d' hd']
  · simp only [goto_pc_self]; trivial
  · intro ch hch
    simp only [Option.some.injEq] at hch
    simp only
    omega
  · have hcl := h.closed ch
    simp only [hr, ne_eq, reduceCtorEq, not_false_eq_true, and_true] at hcl
    simp only [ne_eq, Option.some.injEq]
    show s.closed ch = _
    rw [hcl]
    split <;> split <;> omega
  · have hlt := (h.ended l hl).1
    refine ⟨Nat.lt_succ_of_lt hlt, fun he => ?_⟩
    simp only [Option.some.injEq] at he
    omega

/-- A channel is closed by the call that made it, and by no other. -/
theorem closed_publish (h : Inv blame s) {c : C} {ch st : Nat} {out : Outcome T E}
    (href : s.cache.refreshing = some ch) (ch' : Nat) : (s.publish c ch st out).closed ch' =
      if ch' < (s.publish c ch st out).made ∧
        (s.publish c ch st out).cache.refreshing ≠ some ch' then 1 else 0 := by
  have hcl := h.closed ch'
  have hlt := h.chan ch href
  show Function.update s.closed ch (s.closed ch + 1) ch' = _
  by_cases hc : ch' = ch
  · subst hc
    rw [Function.update_self, hcl]
    simp only [href, ne_eq, not_true_eq_false, and_false, if_false, CacheState.publish,
      reduceCtorEq, not_false_eq_true, and_true]
    exact (if_pos hlt).symm
  · rw [Function.update_of_ne hc, hcl, href]
    have hne : ¬ ch = ch' := fun e => hc e.symm
    simp only [CacheState.publish, ne_eq, Option.some.injEq, hne, reduceCtorEq,
      not_false_eq_true, and_true]
    rfl

/-- Once the leader has published, nobody leads. -/
theorem no_leader_publish (h : Inv blame s) {c : C} (hlead : (s.pc c).Leads) (ch st : Nat)
    (out : Outcome T E) (d : C) : ¬ ((s.publish c ch st out).pc d).Leads := by
  intro hd
  by_cases hdc : d = c
  · subst hdc
    rw [publish_pc_self] at hd
    exact hd
  · rw [publish_pc_of_ne s ch st out hdc] at hd
    exact hdc (h.one d c hd hlead)

/-- Publishing a result: the entry is replaced if the context is live, the mark is cleared
    and its channel closed. -/
theorem inv_publish (h : Inv blame s) {c : C} {ch st : Nat} {out : Outcome T E}
    (hpc : s.pc c = .loaded ch st out) : Inv blame (s.publish c ch st out) := by
  have hok := h.pcs c
  rw [hpc] at hok
  obtain ⟨href, hblame⟩ := hok
  have hlead : (s.pc c).Leads := by rw [hpc]; trivial
  have hsub : s.log ⊆ (s.publish c ch st out).log := fun _ hl => List.mem_cons_of_mem _ hl
  refine ⟨fun d => ?_, fun d d' hd => absurd hd (no_leader_publish h hlead ch st out d),
    fun hr => absurd rfl hr, fun ch' hch' => (nomatch hch'), closed_publish h href,
    fun t ht => ?_, ?_, fun l hl => ⟨?_, fun hr => nomatch hr⟩⟩
  · by_cases hd : d = c
    · subst hd
      rw [publish_pc_self]
      refine ⟨List.mem_cons_self, rfl, fun hl => ?_⟩
      show s.done d = true
      simpa using hl
    · rw [publish_pc_of_ne s ch st out hd]
      exact (h.pcs d).mono (Nat.le_refl _) hsub id (publish_ttl s c ch st out)
        fun hl => absurd (h.one d c hl hlead) hd
  · -- the entry is the old one when the context has ended, the new one otherwise
    cases hd : s.done c with
    | true =>
      rw [publish_cache_done ch st out hd] at ht ⊢
      obtain ⟨hle, l, h1, h2, h3⟩ := h.entry t ht
      exact ⟨hle, l, h1, hsub h2, h3⟩
    | false =>
      rw [publish_cache_live ch st out hd] at ht ⊢
      simp only [Option.some.injEq] at ht
      refine ⟨ht ▸ Nat.le_refl _, _, rfl, ?_, rfl, rfl, ht⟩
      simp [CacheState.publish, hd]
  · intro l hl hlive e he
    rcases List.mem_cons.mp hl with rfl | hl
    · -- a result published by a live caller is blamed on nobody
      have hd : s.done c = false := by simpa using hlive
      cases hb : blame e with
      | none => rfl
      | some k =>
        obtain ⟨-, hd'⟩ := hblame e k he hb
        rw [hd] at hd'
        cases hd'
    · exact h.log l hl hlive e he
  · rcases List.mem_cons.mp hl with rfl | hl
    · exact h.chan ch href
    · exact (h.ended l hl).1

theorem inv_cancel (h : Inv blame s) (c : C) :
    Inv blame { s with done := Function.update s.done c true } := by
  refine ⟨fun d => ?_, h.one, h.led, h.chan, h.closed, h.entry, h.log, h.ended⟩
  refine (h.pcs d).mono (Nat.le_refl _) (List.Subset.refl _) (fun hd => ?_) rfl fun _ => rfl
  show Function.update s.done c true d = true
  by_cases hdc : d = c
  · subst hdc; exact Function.update_self ..
  · rw [Function.update_of_ne hdc]; exact hd

omit [DecidableEq C] in
theorem inv_tick (h : Inv blame s) (d : Nat) : Inv blame { s with clock := s.clock + d } := by
  refine ⟨h.pcs, h.one, h.led, h.chan, h.closed, fun t ht => ?_, h.log, h.ended⟩
  obtain ⟨hle, hrest⟩ := h.entry t ht
  exact ⟨Nat.le_trans hle (Nat.le_add_right _ _), hrest⟩

omit [DecidableEq C] in
theorem inv_invalidate (h : Inv blame s) (ts : List Nat) :
    Inv blame { s with
      cache := { s.cache with lastAttempt := none }, invalidatedAt := ts } :=
  ⟨h.pcs, h.one, h.led, h.chan, h.closed, fun _ ht => (nomatch ht), h.log, h.ended⟩

theorem inv_acts {a : CacheAction T E C} (h : Inv blame s) (ha : Acts blame s a s') :
    Inv blame s' := by
  cases ha with
  | @call c hpc =>
    have hok : PcOk blame s c .atLock := trivial
    have := inv_goto h c hok (by rw [hpc]; exact Iff.rfl)
    exact ⟨this.pcs, this.one, this.led, this.chan, this.closed, this.entry, this.log,
      this.ended⟩
  | @hit c hpc hf =>
    refine inv_goto h c ?_ (by rw [hpc]; exact Iff.rfl)
    unfold ValueCache.fresh at hf
    cases ht : s.cache.lastAttempt with
    | none => simp [ht] at hf
    | some t =>
      simp only [ht, decide_eq_true_eq] at hf
      obtain ⟨hle, l, h1, h2, h3, h4, h5⟩ := h.entry t ht
      exact ⟨l, h1, h2, h3, h4, h5 ▸ hle, by rw [h5]; exact hf⟩
  | join hpc hf hr => exact inv_goto h _ (h.chan _ hr) (by rw [hpc]; exact Iff.rfl)
  | lead hpc hf hr => exact inv_lead h _ hr
  | wake hpc hc => exact inv_goto h _ trivial (by rw [hpc]; exact Iff.rfl)
  | giveUp hpc hd => exact inv_goto h _ hd (by rw [hpc]; exact Iff.rfl)
  | @finish c ch st out hpc hh =>
    have hok := h.pcs c
    rw [hpc] at hok
    refine inv_goto h c ⟨hok, fun e k he hk => ?_⟩ (by rw [hpc]; exact Iff.rfl)
    simpa [honest, he, hk] using hh
  | publish hpc => exact inv_publish h hpc
  | leaveCtx hpc hd => exact inv_goto h _ hd (by rw [hpc]; exact Iff.rfl)
  | @leave c l hpc hd =>
    have hok := h.pcs c
    rw [hpc] at hok
    obtain ⟨hmem, hcaller, hlive⟩ := hok
    refine inv_goto h c ⟨hmem, hcaller, ?_, rfl⟩ (by rw [hpc]; exact Iff.rfl)
    cases hl : l.live with
    | true => rfl
    | false => rw [hlive hl] at hd; cases hd
  | cancel c => exact inv_cancel h c
  | invalidate => exact inv_invalidate h _
  | tick d => exact inv_tick h d

theorem inv_step {a : CacheAction T E C} (h : Inv blame s)
    (hs : cacheStep blame s a = some s') : Inv blame s' := by
  obtain ⟨t, ha, rfl⟩ := cacheStep_cases hs
  have := inv_acts h ha
  exact ⟨this.pcs, this.one, this.led, this.chan, this.closed, this.entry, this.log, this.ended⟩

/-- Every run keeps the invariant. -/
theorem inv_run {ok : CacheState T E C → CacheAction T E C → Prop} {as : List (CacheAction T E C)}
    (h : Inv blame s) (hr : Run (cacheStep blame) ok s as s') : Inv blame s' :=
  hr.invariant (Inv blame) h fun _ _ _ hi _ hs => inv_step hi hs

end Step

/-! ## Single flight -/

/-- Single flight with cancellation isolation, as a property of a state. -/
structure SingleFlight (blame : E → Option C) (ttl : Nat) (s : CacheState T E C) : Prop where
  /-- at most one loader runs -/
  oneLoader : ∀ c d ch st ch' st', s.pc c = .loading ch st → s.pc d = .loading ch' st' → c = d
  /-- a call with a live context does not fail for the cancellation of anyone's context -/
  isolated : ∀ c, s.done c = false → s.pc c ≠ .returnedCtxErr ∧
    ∀ out source e, s.pc c = .returned out source → out.err = some e → blame e = none
  /-- a value from the caller's own load -/
  own : ∀ c out l, s.pc c = .returned out (.own l) →
    l ∈ s.log ∧ l.caller = c ∧ l.live = true ∧ l.out = out
  /-- a stored value, younger than the TTL when it was read -/
  stored : ∀ c out l? readAt, s.pc c = .returned out (.stored l? readAt) →
    ∃ l ∈ s.log, l? = some l ∧ l.live = true ∧ l.out = out ∧
      l.endedAt ≤ readAt ∧ readAt - l.endedAt < ttl
  ctxErr : ∀ c, s.pc c = .returnedCtxErr → s.done c = true
  /-- an ended load has cleared its mark and closed its channel, once -/
  ended : ∀ l ∈ s.log, s.cache.refreshing ≠ some l.chan ∧ s.closed l.chan = 1
  /-- no channel is closed twice, and none while its load is in flight -/
  closedOnce : ∀ ch, s.closed ch ≤ 1 ∧ (s.cache.refreshing = some ch → s.closed ch = 0)
  /-- the mark is always the mark of a call that will clear it -/
  held : s.cache.refreshing ≠ none → ∃ c, (s.pc c).Leads

/-- No error that a call has returned from a load is due to a cancellation. -/
theorem returned_blame {blame : E → Option C} {s : CacheState T E C} (h : Inv blame s) {c : C}
    {out : Outcome T E} {source : Source T E C} {e : E} (hpc : s.pc c = .returned out source)
    (he : out.err = some e) : blame e = none := by
  have hok := h.pcs c
  rw [hpc] at hok
  cases source with
  | own l =>
    obtain ⟨hmem, -, hlive, rfl⟩ := hok
    exact h.log l hmem hlive e he
  | stored l? readAt =>
    obtain ⟨l, -, hmem, hlive, rfl, -⟩ := hok
    exact h.log l hmem hlive e he

theorem singleFlight_of_inv {blame : E → Option C} {s : CacheState T E C}
    (h : Inv blame s) : SingleFlight blame s.cache.ttl s where
  oneLoader c d ch st ch' st' hc hd :=
    h.one c d (by rw [hc]; trivial) (by rw [hd]; trivial)
  isolated c hd := by
    refine ⟨fun hpc => ?_, fun out source e hpc he => returned_blame h hpc he⟩
    have hok := h.pcs c
    rw [hpc, PcOk, hd] at hok
    cases hok
  own c out l hpc := by
    have hok := h.pcs c
    rw [hpc] at hok
    exact hok
  stored c out l? readAt hpc := by
    have hok := h.pcs c
    rw [hpc] at hok
    obtain ⟨l, hl, hmem, hrest⟩ := hok
    exact ⟨l, hmem, hl, hrest⟩
  ctxErr c hpc := by
    have hok := h.pcs c
    rw [hpc] at hok
    exact hok
  ended l hl := by
    obtain ⟨hlt, hr⟩ := h.ended l hl
    exact ⟨hr, by rw [h.closed, if_pos ⟨hlt, hr⟩]⟩
  closedOnce ch := by
    rw [h.closed ch]
    refine ⟨by split <;> omega, fun hr => ?_⟩
    rw [if_neg]
    exact fun hn => hn.2 hr
  held := h.led

section Runs

variable [DecidableEq C] {blame : E → Option C} {s s' : CacheState T E C}

theorem acts_ttl {a : CacheAction T E C} (h : Acts blame s a s') :
    s'.cache.ttl = s.cache.ttl := by
  cases h with
  | publish hpc => exact publish_ttl s _ _ _ _
  | _ => rfl

theorem cacheStep_ttl {a : CacheAction T E C} (h : cacheStep blame s a = some s') :
    s'.cache.ttl = s.cache.ttl := by
  obtain ⟨t, ht, rfl⟩ := cacheStep_cases h
  have httl := acts_ttl ht
  exact httl

theorem ttl_run {ok : CacheState T E C → CacheAction T E C → Prop} {as : List (CacheAction T E C)}
    (h : Run (cacheStep blame) ok s as s') : s'.cache.ttl = s.cache.ttl :=
  h.invariant (fun t => t.cache.ttl = s.cache.ttl) rfl fun _ _ _ ht _ hs =>
    (cacheStep_ttl hs).trans ht

/-- Every state of every run of one cache is single flight. -/
theorem get_single_flight {ok : CacheState T E C → CacheAction T E C → Prop} (ttl : Nat)
    (zero : T) {as : List (CacheAction T E C)}
    (h : Run (cacheStep blame) ok (CacheState.init ttl zero) as s) :
    SingleFlight blame ttl s := by
  have hinv := singleFlight_of_inv (inv_run (inv_init blame ttl zero) h)
  rwa [ttl_run h] at hinv

/-- A load that has ended can be published, which clears the mark it set and closes its
    channel. -/
theorem publish_clears {c : C} {ch st : Nat} {out : Outcome T E}
    (hpc : s.pc c = .loaded ch st out) : ∃ s', cacheStep blame s (.publish c) = some s' ∧
      s'.cache.refreshing = none ∧ s'.closed ch = s.closed ch + 1 := by
  refine ⟨{ s.publish c ch st out with steps := s.steps + 1 }, by simp [cacheStep, cacheAct, hpc],
    rfl, ?_⟩
  exact Function.update_self ch _ s.closed

/-- Once the mark is cleared, the next call that finds the entry expired loads. -/
theorem lock_loads {c : C} (hpc : s.pc c = .atLock) (hr : s.cache.refreshing = none)
    (hf : s.cache.fresh s.clock = false) : ∃ s', cacheStep blame s (.lock c) = some s' ∧
      s'.pc c = .loading s.made s.steps := by
  refine ⟨_, by simp [cacheStep, cacheAct, hpc, CacheState.lockEntry, hr, hf]; rfl, ?_⟩
  exact goto_pc_self s c _

end Runs

end OpenHpcWeb.Slurm
