/-
  `valueCache.get` without overlap is a run of the cache with one caller.

  `Session` has `get` as a function, for calls that do not overlap; `Cache` has it as steps
  that those of other callers may come between. `get_alone` leads from the one to the other:
  what `get` returns and stores, the machine returns and holds after the steps of a caller
  who is alone. `nodes_alone`, `jobs_alone` and `snapshot_alone` are the three caches.
-/
import Mathlib.Order.Monotone.Defs
import OpenHpcWeb.Slurm.Cache
import OpenHpcWeb.Slurm.Session

namespace OpenHpcWeb.Slurm

open OpenHpcWeb.Go OpenHpcWeb.Cluster OpenHpcWeb.Lib

variable {σ P T E C : Type} [DecidableEq C]

/-! ## One caller of the machine -/

/-- The machine gets from `s` to `s'`. -/
def Goes (s s' : CacheState T E C) : Prop :=
  ∃ as, Run (cacheStep fun _ => none) (fun _ _ => True) s as s'

theorem Goes.trans {s s' s'' : CacheState T E C} (h : Goes s s') (h' : Goes s' s'') :
    Goes s s'' := by
  obtain ⟨as, has⟩ := h
  obtain ⟨bs, hbs⟩ := h'
  exact ⟨as ++ bs, has.append hbs⟩

theorem Goes.step {s t : CacheState T E C} {a : CacheAction T E C}
    (h : cacheAct (fun _ => none) s a = some t) : Goes s { t with steps := s.steps + 1 } :=
  ⟨_, Run.nil.snoc trivial (by unfold cacheStep; rw [h]; rfl)⟩

/-- What the caller `c` finds: where it stands, the cache, the clock and its context. -/
structure At (s : CacheState T E C) (c : C) (pc : Pc T E C) (v : ValueCache T E C) (t : Nat)
    (done : Bool) : Prop where
  pc : s.pc c = pc
  cache : s.cache = v
  clock : s.clock = t
  done : s.done c = done

section Steps

variable {s : CacheState T E C} {c : C} {pc : Pc T E C} {v : ValueCache T E C} {t : Nat}
  {done : Bool}

theorem At.tick (h : At s c pc v t done) (d : Nat) : ∃ s', Goes s s' ∧ At s' c pc v (t + d) done :=
  ⟨_, .step (a := .tick d) rfl, h.pc, h.cache, congrArg (· + d) h.clock, h.done⟩

theorem At.cancel (h : At s c pc v t done) : ∃ s', Goes s s' ∧ At s' c pc v t true :=
  ⟨_, .step (a := .cancel c) rfl, h.pc, h.cache, h.clock, Function.update_self ..⟩

theorem At.call (h : At s c .idle v t done) : ∃ s', Goes s s' ∧ At s' c .atLock v t done := by
  have hact : cacheAct (fun _ => none) s (.call c) =
      some { s.goto c .atLock with calledAt := Function.update s.calledAt c s.steps } := by
    simp only [cacheAct, h.pc]
  exact ⟨_, .step hact, goto_pc_self s c _, h.cache, h.clock, h.done⟩

theorem At.hit (h : At s c .atLock v t done) (hf : v.fresh t = true) :
    ∃ s', Goes s s' ∧ At s' c (.returned ⟨v.value, v.err⟩ (.stored v.loadedBy t)) v t done := by
  have hact : cacheAct (fun _ => none) s (.lock c) =
      some (s.goto c (.returned ⟨v.value, v.err⟩ (.stored v.loadedBy t))) := by
    simp only [cacheAct, h.pc, CacheState.lockEntry, h.cache, h.clock, hf, if_true]
  exact ⟨_, .step hact, goto_pc_self s c _, h.cache, h.clock, h.done⟩

theorem At.lead (h : At s c .atLock v t done) (hf : v.fresh t = false)
    (hr : v.refreshing = none) :
    ∃ s' ch st, Goes s s' ∧ At s' c (.loading ch st) { v with refreshing := some ch } t done := by
  have hact : cacheAct (fun _ => none) s (.lock c) =
      some { s.goto c (.loading s.made s.steps) with
        cache := { v with refreshing := some s.made }, made := s.made + 1 } := by
    simp only [cacheAct, h.pc, CacheState.lockEntry, h.cache, h.clock, hf, hr, Bool.false_eq_true,
      if_false]
  exact ⟨_, s.made, s.steps, .step hact, goto_pc_self s c _, rfl, h.clock, h.done⟩

theorem At.finish {ch st : Nat} (h : At s c (.loading ch st) v t done) (out : Outcome T E) :
    ∃ s', Goes s s' ∧ At s' c (.loaded ch st out) v t done := by
  have hhonest : honest (fun _ => none) s c out = true := by
    unfold honest
    cases out.err <;> rfl
  have hact : cacheAct (fun _ => none) s (.finish c out) = some (s.goto c (.loaded ch st out)) := by
    simp only [cacheAct, h.pc, hhonest, if_true]
  exact ⟨_, .step hact, goto_pc_self s c _, h.cache, h.clock, h.done⟩

theorem At.publish {ch st : Nat} {out : Outcome T E}
    (h : At s c (.loaded ch st out) v t done) : ∃ s', Goes s s' ∧
      At s' c (.unlocked ⟨ch, c, st, out, !done, t⟩)
        (if done then { v with refreshing := none }
          else { v with
            lastAttempt := some t, value := out.value, err := out.err
            loadedBy := some ⟨ch, c, st, out, true, t⟩, refreshing := none }) t done := by
  have hact : cacheAct (fun _ => none) s (.publish c) = some (s.publish c ch st out) := by
    simp only [cacheAct, h.pc]
  refine ⟨_, .step hact, ?_, ?_, h.clock, h.done⟩
  · show (s.publish c ch st out).pc c = _
    rw [publish_pc_self, h.done, h.clock]
  · show (s.publish c ch st out).cache = _
    cases done with
    | true => rw [publish_cache_done ch st out h.done, h.cache, if_pos rfl]
    | false =>
      rw [publish_cache_live ch st out h.done, h.cache, h.clock, if_neg Bool.false_ne_true]

theorem At.leave {l : Load T E C} (h : At s c (.unlocked l) v t done) : ∃ s', Goes s s' ∧
    At s' c (if done then .returnedCtxErr else .returned l.out (.own l)) v t done := by
  have hact : cacheAct (fun _ => none) s (.leave c) =
      some (s.goto c (if done then .returnedCtxErr else .returned l.out (.own l))) := by
    simp only [cacheAct, h.pc, h.done]
  exact ⟨_, .step hact, goto_pc_self s c _, h.cache, h.clock, h.done⟩

end Steps

/-! ## The caller who is alone -/

/-- The two models hold the same entry, and nobody leads. -/
structure Held (v : ValueCache T String C) (e : Entry T) (ttl : Nat) : Prop where
  ttl : v.ttl = ttl
  attempt : v.lastAttempt = e.lastAttempt
  value : v.value = e.value
  err : v.err = e.err
  idle : v.refreshing = none

omit [DecidableEq C] in
theorem Held.fresh_eq {v : ValueCache T String C} {e : Entry T} {ttl : Nat} (h : Held v e ttl)
    (now : Nat) : v.fresh now = e.fresh ttl now := by
  cases hattempt : e.lastAttempt with
  | none => simp [ValueCache.fresh, Entry.fresh, h.attempt, hattempt]
  | some t => simp [ValueCache.fresh, Entry.fresh, h.attempt, h.ttl, hattempt]

/-- The machine has returned what the function has. -/
inductive Returned (zero : T) : Pc T String C → Answer T → Prop
  | value {a : Answer T} {source : Source T String C} :
      Returned zero (.returned ⟨a.value, a.err⟩ source) a
  | ctxErr {err : String} : Returned zero .returnedCtxErr (ctxError zero err)

/-- The machine gets from `s` to where `c` has returned `ran.1`, the cache holds the entry
    of `ran.2` and the clock stands at its last reading. -/
def Ends (cfg : ClientConfig σ P) (slot : Slot σ T) (zero : T) (s : CacheState T String C) (c : C)
    (ran : Answer T × Session σ) : Prop :=
  ∃ s' pc v done, Goes s s' ∧ At s' c pc v (cfg.clock ran.2.readings) done ∧
    Held v (slot.get ran.2) cfg.cacheTTL ∧ Returned zero pc ran.1

/-- What a slot does to the readings of the clock, and the clock to a slot. -/
structure Slot.Timed (slot : Slot σ T) : Prop where
  get_set : ∀ e w, slot.get (slot.set e w) = e
  readings_set : ∀ e w, (slot.set e w).readings = w.readings
  get_tick : ∀ w, slot.get w.tick = slot.get w

theorem timed_nodes : (nodesSlot : Slot σ NodeSnapshot).Timed :=
  ⟨fun _ _ => rfl, fun _ _ => rfl, fun _ => rfl⟩

theorem timed_jobs : (jobsSlot : Slot σ (List Job)).Timed :=
  ⟨fun _ _ => rfl, fun _ _ => rfl, fun _ => rfl⟩

theorem timed_snapshot : (snapshotSlot : Slot σ Metrics).Timed :=
  ⟨fun _ _ => rfl, fun _ _ => rfl, fun _ => rfl⟩

/-- A loader reads the clock and leaves the slot alone. -/
structure Loads (slot : Slot σ T) (load : Session σ → Answer T × Session σ) : Prop where
  readings : ∀ w, w.readings ≤ (load w).2.readings
  slot : ∀ w, slot.get (load w).2 = slot.get w

theorem readings_looked (w : Session σ) (e : Entry T) : w.readings ≤ (w.looked e).readings := by
  unfold Session.looked
  split
  · exact Nat.le_succ _
  · exact Nat.le_refl _

theorem Slot.Timed.get_looked {slot : Slot σ T} (hslot : slot.Timed) (w : Session σ) {U : Type}
    (e : Entry U) : slot.get (w.looked e) = slot.get w := by
  unfold Session.looked
  split
  · exact hslot.get_tick w
  · rfl

section Alone

variable {cfg : ClientConfig σ P} {slot : Slot σ T} {zero : T} {ctx : Ctx}
  {s : CacheState T String C} {c : C} {v : ValueCache T String C} {t : Nat}

theorem At.wait {pc : Pc T String C} {done : Bool} (h : At s c pc v t done) {t' : Nat}
    (hle : t ≤ t') : ∃ s', Goes s s' ∧ At s' c pc v t' done := by
  obtain ⟨s', hgoes, hat⟩ := h.tick (t' - t)
  rw [Nat.add_sub_cancel' hle] at hat
  exact ⟨s', hgoes, hat⟩

/-- From the end of the loader. -/
theorem keep_alone (hslot : slot.Timed) (hclock : Monotone cfg.clock) {ch st : Nat}
    {loaded : Answer T × Session σ}
    (h : At s c (.loaded ch st ⟨loaded.1.value, loaded.1.err⟩) v (cfg.clock loaded.2.readings)
      false)
    (hheld : Held { v with refreshing := none } (slot.get loaded.2) cfg.cacheTTL) :
    Ends cfg slot zero s c (keep cfg slot zero ctx loaded) := by
  unfold keep
  dsimp only
  cases hctx : ctx loaded.2.readings with
  | some err =>
    obtain ⟨s₁, hgoes₁, hat₁⟩ := h.cancel
    obtain ⟨s₂, hgoes₂, hat₂⟩ := hat₁.publish
    obtain ⟨s₃, hgoes₃, hat₃⟩ := hat₂.leave
    exact ⟨s₃, _, _, _, (hgoes₁.trans hgoes₂).trans hgoes₃, hat₃, hheld, .ctxErr⟩
  | none =>
    obtain ⟨s₁, hgoes₁, hat₁⟩ := h.publish
    have hstored : Held
        { v with
          lastAttempt := some (cfg.clock loaded.2.readings)
          value := loaded.1.value
          err := loaded.1.err
          loadedBy := some ⟨ch, c, st, ⟨loaded.1.value, loaded.1.err⟩, true,
            cfg.clock loaded.2.readings⟩
          refreshing := none }
        (slot.get (slot.set ⟨some (cfg.clock loaded.2.readings), loaded.1.value, loaded.1.err,
          loaded.1.origin⟩ loaded.2.tick)) cfg.cacheTTL := by
      rw [hslot.get_set]
      exact ⟨hheld.ttl, rfl, rfl, rfl, rfl⟩
    have hle : cfg.clock loaded.2.readings ≤ cfg.clock (slot.set
        ⟨some (cfg.clock loaded.2.readings), loaded.1.value, loaded.1.err, loaded.1.origin⟩
        loaded.2.tick).readings := by
      rw [hslot.readings_set]
      exact hclock (Nat.le_succ _)
    obtain ⟨s₂, hgoes₂, hat₂⟩ := hat₁.wait hle
    cases hctx' : ctx (loaded.2.readings + 1) with
    | some err =>
      obtain ⟨s₃, hgoes₃, hat₃⟩ := hat₂.cancel
      obtain ⟨s₄, hgoes₄, hat₄⟩ := hat₃.leave
      exact ⟨s₄, _, _, _, ((hgoes₁.trans hgoes₂).trans hgoes₃).trans hgoes₄, hat₄, hstored,
        .ctxErr⟩
    | none =>
      obtain ⟨s₃, hgoes₃, hat₃⟩ := hat₂.leave
      exact ⟨s₃, _, _, _, (hgoes₁.trans hgoes₂).trans hgoes₃, hat₃, hstored, .value⟩

/-- `get` without overlap, as a run of the machine. -/
theorem get_alone (hslot : slot.Timed) (hclock : Monotone cfg.clock)
    {load : Session σ → Answer T × Session σ} (hload : Loads slot load) {w : Session σ}
    (h : At s c .idle v (cfg.clock w.readings) false)
    (hheld : Held v (slot.get w) cfg.cacheTTL) :
    Ends cfg slot zero s c (get cfg slot zero ctx load w) := by
  obtain ⟨s₁, hgoes₁, hat₁⟩ := h.call
  have hfresh := hheld.fresh_eq (cfg.clock w.readings)
  unfold get
  dsimp only
  cases hf : (slot.get w).fresh cfg.cacheTTL (cfg.clock w.readings) with
  | true =>
    rw [if_pos rfl]
    obtain ⟨s₂, hgoes₂, hat₂⟩ := hat₁.hit (hfresh.trans hf)
    obtain ⟨s₃, hgoes₃, hat₃⟩ := hat₂.wait (hclock (readings_looked w (slot.get w)))
    rw [hheld.value, hheld.err] at hat₃
    refine ⟨s₃, _, v, false, (hgoes₁.trans hgoes₂).trans hgoes₃, hat₃, ?_,
      .value (a := ⟨(slot.get w).value, (slot.get w).err, (slot.get w).origin⟩)⟩
    dsimp only
    rwa [hslot.get_looked]
  | false =>
    rw [if_neg Bool.false_ne_true]
    obtain ⟨s₂, ch, st, hgoes₂, hat₂⟩ := hat₁.lead (hfresh.trans hf) hheld.idle
    -- the loader takes its time
    have hle := (readings_looked w (slot.get w)).trans (hload.readings _)
    obtain ⟨s₃, hgoes₃, hat₃⟩ := hat₂.wait (hclock hle)
    obtain ⟨s₄, hgoes₄, hat₄⟩ := hat₃.finish ⟨_, _⟩
    have hkept : Held { v with refreshing := none }
        (slot.get (load (w.looked (slot.get w))).2) cfg.cacheTTL := by
      rw [hload.slot, hslot.get_looked]
      exact ⟨hheld.ttl, hheld.attempt, hheld.value, hheld.err, rfl⟩
    obtain ⟨s₅, pc, v', done, hgoes₅, hend⟩ := keep_alone hslot hclock hat₄ hkept
    exact ⟨s₅, pc, v', done,
      (((hgoes₁.trans hgoes₂).trans hgoes₃).trans hgoes₄).trans hgoes₅, hend⟩

end Alone

/-! ## The three caches -/

theorem readings_keep {slot : Slot σ T} (hslot : slot.Timed) (cfg : ClientConfig σ P) (zero : T)
    (ctx : Ctx) (loaded : Answer T × Session σ) :
    loaded.2.readings ≤ (keep cfg slot zero ctx loaded).2.readings := by
  unfold keep
  dsimp only
  split
  · exact Nat.le_refl _
  · split <;>
    · dsimp only
      rw [hslot.readings_set]
      exact Nat.le_succ _

theorem readings_get {slot : Slot σ T} (hslot : slot.Timed) (cfg : ClientConfig σ P) (zero : T)
    (ctx : Ctx) {load : Session σ → Answer T × Session σ}
    (hload : ∀ w, w.readings ≤ (load w).2.readings) (w : Session σ) :
    w.readings ≤ (get cfg slot zero ctx load w).2.readings := by
  unfold get
  dsimp only
  split
  · exact readings_looked w _
  · exact ((readings_looked w _).trans (hload _)).trans (readings_keep hslot cfg zero ctx _)

/-- `get` over one slot leaves another alone. -/
theorem get_apart {U : Type} {slot : Slot σ T} {other : Slot σ U} (hother : other.Timed)
    (hset : ∀ e w, other.get (slot.set e w) = other.get w) (cfg : ClientConfig σ P) (zero : T)
    (ctx : Ctx) {load : Session σ → Answer T × Session σ}
    (hload : ∀ w, other.get (load w).2 = other.get w) (w : Session σ) :
    other.get (get cfg slot zero ctx load w).2 = other.get w := by
  have hkeep : ∀ loaded : Answer T × Session σ,
      other.get (keep cfg slot zero ctx loaded).2 = other.get loaded.2 := by
    intro loaded
    unfold keep
    dsimp only
    split
    · rfl
    · split <;>
      · dsimp only
        rw [hset, hother.get_tick]
  unfold get
  dsimp only
  split
  · exact hother.get_looked w _
  · rw [hkeep, hload, hother.get_looked]

theorem loadNodes_readings [UnicodeCase] (cfg : ClientConfig σ P) (w : Session σ) :
    (loadNodes cfg w).2.readings = w.readings := by
  unfold loadNodes
  dsimp only
  repeat' split
  all_goals rfl

theorem loadNodes_apart [UnicodeCase] {U : Type} {slot : Slot σ U}
    (hslot : ∀ (w : Session σ) scheduler, slot.get { w with scheduler := scheduler } = slot.get w)
    (cfg : ClientConfig σ P) (w : Session σ) : slot.get (loadNodes cfg w).2 = slot.get w := by
  unfold loadNodes
  dsimp only
  repeat' split
  all_goals exact hslot _ _

theorem loadJobs_readings (cfg : ClientConfig σ P) (w : Session σ) :
    w.readings ≤ (loadJobs cfg w).2.readings := by
  unfold loadJobs
  dsimp only
  repeat' split
  · exact Nat.le_refl _
  · exact Nat.le_succ _
  · exact Nat.le_succ _

theorem loadJobs_apart {U : Type} {slot : Slot σ U} (htimed : slot.Timed)
    (hslot : ∀ (w : Session σ) scheduler, slot.get { w with scheduler := scheduler } = slot.get w)
    (cfg : ClientConfig σ P) (w : Session σ) : slot.get (loadJobs cfg w).2 = slot.get w := by
  unfold loadJobs
  dsimp only
  repeat' split
  · exact hslot _ _
  · exact (htimed.get_tick _).trans (hslot _ _)
  · exact (htimed.get_tick _).trans (hslot _ _)

theorem loads_nodes [UnicodeCase] (cfg : ClientConfig σ P) : Loads nodesSlot (loadNodes cfg) where
  readings w := (loadNodes_readings cfg w).ge
  slot := loadNodes_apart (fun _ _ => rfl) cfg

theorem loads_jobs (cfg : ClientConfig σ P) : Loads jobsSlot (loadJobs cfg) where
  readings := loadJobs_readings cfg
  slot := loadJobs_apart timed_jobs (fun _ _ => rfl) cfg

theorem loads_snapshot [UnicodeCase] (cfg : ClientConfig σ P) (ctx : Ctx) :
    Loads snapshotSlot (loadSnapshot cfg ctx) := by
  have hnodes : ∀ w, w.readings ≤ (loadNodeSnapshot cfg ctx w).2.readings :=
    readings_get timed_nodes cfg _ ctx (loads_nodes cfg).readings
  have hjobs : ∀ w, w.readings ≤ (jobs cfg ctx w).2.readings :=
    readings_get timed_jobs cfg _ ctx (loads_jobs cfg).readings
  have hnodesApart : ∀ w, snapshotSlot.get (loadNodeSnapshot cfg ctx w).2 = snapshotSlot.get w :=
    get_apart timed_snapshot (fun _ _ => rfl) cfg _ ctx (loadNodes_apart (fun _ _ => rfl) cfg)
  have hjobsApart : ∀ w, snapshotSlot.get (jobs cfg ctx w).2 = snapshotSlot.get w :=
    get_apart timed_snapshot (fun _ _ => rfl) cfg _ ctx
      (loadJobs_apart timed_snapshot (fun _ _ => rfl) cfg)
  constructor
  · intro w
    unfold loadSnapshot
    dsimp only
    repeat' split
    · exact hnodes w
    all_goals exact (hnodes w).trans (hjobs _)
  · intro w
    unfold loadSnapshot
    dsimp only
    repeat' split
    · exact hnodesApart w
    all_goals exact (hjobsApart _).trans (hnodesApart w)

section Caches

variable {cfg : ClientConfig σ P} {ctx : Ctx} {w : Session σ} {c : C}

theorem nodes_alone [UnicodeCase] (hclock : Monotone cfg.clock)
    {s : CacheState NodeSnapshot String C} {v : ValueCache NodeSnapshot String C} (h : At s c .idle v (cfg.clock w.readings) false)
    (hheld : Held v w.nodesCache cfg.cacheTTL) :
    Ends cfg nodesSlot ⟨[], []⟩ s c (loadNodeSnapshot cfg ctx w) :=
  get_alone timed_nodes hclock (loads_nodes cfg) h hheld

theorem jobs_alone (hclock : Monotone cfg.clock) {s : CacheState (List Job) String C}
    {v : ValueCache (List Job) String C} (h : At s c .idle v (cfg.clock w.readings) false)
    (hheld : Held v w.jobsCache cfg.cacheTTL) :
    Ends cfg jobsSlot [] s c (jobs cfg ctx w) :=
  get_alone timed_jobs hclock (loads_jobs cfg) h hheld

theorem snapshot_alone [UnicodeCase] (hclock : Monotone cfg.clock) {timeout : Ctx}
    {s : CacheState Metrics String C} {v : ValueCache Metrics String C}
    (h : At s c .idle v (cfg.clock w.readings) false)
    (hheld : Held v w.snapshotCache cfg.cacheTTL) :
    Ends cfg snapshotSlot zeroMetrics s c (snapshot cfg ctx timeout w) :=
  get_alone timed_snapshot hclock (loads_snapshot cfg _) h hheld

end Caches

end OpenHpcWeb.Slurm
