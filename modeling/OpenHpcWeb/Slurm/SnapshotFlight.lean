/-
  `Client.Snapshot` above the node and job caches, over every interleaving of the client's
  callers.

  `Snapshot` runs the loop of `valueCache.get` over fields of the client, and its loader
  calls `Nodes` and then `Jobs` with a context derived from its caller's, which ends with
  that context or at its own deadline. So there are three machines of the kind of `Cache`;
  `ClientState` runs them side by side. A caller is one call of the client, of some kind
  (`Partitions` is a call of `Nodes`, `Job` one of `Jobs`); the leader of a Snapshot load is
  also the caller of the two inner calls. Only the two inner loaders are arbitrary:
  `snapshotOutcome` is what the outer one makes of them.

  * `honest_snapshot`: an error of the outer loader is not due to anybody else's
    cancellation, because those of the inner calls are not.
  * `clientInv_run`: the invariants of all three hold in every run.
  * `single_flight`: the result for every `valueCache` and for the client.
-/
import OpenHpcWeb.Slurm.CacheFlight
import OpenHpcWeb.Slurm.Details
import OpenHpcWeb.Slurm.Metrics

namespace OpenHpcWeb.Slurm

open OpenHpcWeb.Cluster OpenHpcWeb.Lib

/-! ## The three machines -/

/-- Which method of the client a caller has called. -/
inductive CallKind where
  | snapshot
  | nodes
  | jobs
  deriving DecidableEq

/-- The errors of `Client.snapshot`: of a load of the inner caches, of its own derived context
    (`none` is the deadline, `some c` the cancellation of `c`), or of `aggregateMetrics`. -/
inductive SnapshotErr (E C : Type) where
  | nodes (e : E)
  | nodesCtx (cause : Option C)
  | jobs (e : E)
  | jobsCtx (cause : Option C)
  | conflict (text : String)
  deriving DecidableEq

structure ClientState (E C : Type) where
  snap : CacheState Metrics (SnapshotErr E C) C
  nodes : CacheState NodeSnapshot E C
  jobs : CacheState (List Job) E C
  /-- the derived context of a Snapshot load has met its deadline first -/
  timedOut : C → Bool

inductive ClientAction (E C : Type) where
  /-- a step of a `Snapshot` call outside of its loader -/
  | snap (a : CacheAction Metrics (SnapshotErr E C) C)
  | nodes (a : CacheAction NodeSnapshot E C)
  | jobs (a : CacheAction (List Job) E C)
  /-- the loader of `Snapshot` calls `Nodes` -/
  | askNodes (c : C)
  | askJobs (c : C)
  | finishSnapshot (c : C)
  | cancel (c : C)
  | timeout (c : C)
  | tick (d : Nat)

variable {T E C : Type}

/-- Whose cancellation, if anybody's, an error of a Snapshot load is due to. -/
def snapshotBlame (blame : E → Option C) : SnapshotErr E C → Option C
  | .nodes e => blame e
  | .nodesCtx cause => cause
  | .jobs e => blame e
  | .jobsCtx cause => cause
  | .conflict _ => none

def ClientState.init (ttl : Nat) : ClientState E C where
  snap := CacheState.init ttl zeroMetrics
  nodes := CacheState.init ttl ⟨[], []⟩
  jobs := CacheState.init ttl []
  timedOut _ := false

/-- What ended the derived context of the Snapshot load of `c`. -/
def ClientState.cause (s : ClientState E C) (c : C) : Option C :=
  if s.timedOut c then none else some c

/-- The return values of `Client.snapshot`, called by `c`, once it has got that far. -/
def snapshotOutcome (s : ClientState E C) (c : C) : Option (Outcome Metrics (SnapshotErr E C)) :=
  match s.nodes.pc c with
  | .returnedCtxErr => some ⟨zeroMetrics, some (.nodesCtx (s.cause c))⟩
  | .returned nodes _ =>
    match nodes.err with
    | some e => some ⟨zeroMetrics, some (.nodes e)⟩
    | none =>
      match s.jobs.pc c with
      | .returnedCtxErr => some ⟨zeroMetrics, some (.jobsCtx (s.cause c))⟩
      | .returned jobs _ =>
        match jobs.err with
        | some e => some ⟨zeroMetrics, some (.jobs e)⟩
        | none =>
          match aggregateMetrics nodes.value.nodes jobs.value with
          | .error text => some ⟨zeroMetrics, some (.conflict text)⟩
          | .ok metrics => some ⟨metrics, none⟩
      | _ => none
  | _ => none

/-- The steps of a `Snapshot` call that are its own: its loader is no free choice, contexts
    and the clock are shared, and nothing invalidates the snapshot. -/
def snapAllowed (kind : C → CallKind) : CacheAction Metrics (SnapshotErr E C) C → Bool
  | .call c => decide (kind c = .snapshot)
  | .finish _ _ => false
  | .cancel _ => false
  | .invalidate => false
  | .tick _ => false
  | _ => true

/-- The steps of the calls of `Nodes` or `Jobs` (`own`), their loaders included. -/
def cacheAllowed (kind : C → CallKind) (own : CallKind) : CacheAction T E C → Bool
  | .call c => decide (kind c = own)
  | .cancel _ => false
  | .tick _ => false
  | _ => true

section Step

variable [DecidableEq C]

/-- One atomic step of the client. -/
def clientStep (kind : C → CallKind) (blame : E → Option C) (s : ClientState E C) :
    ClientAction E C → Option (ClientState E C)
  | .snap a =>
    if snapAllowed kind a then (cacheStep (fun _ => none) s.snap a).map fun t => { s with snap := t }
    else none
  | .nodes a =>
    if cacheAllowed kind .nodes a then (cacheStep blame s.nodes a).map fun t => { s with nodes := t }
    else none
  | .jobs a =>
    if cacheAllowed kind .jobs a then (cacheStep blame s.jobs a).map fun t => { s with jobs := t }
    else none
  | .askNodes c =>
    match s.snap.pc c with
    | .loading _ _ => (cacheStep blame s.nodes (.call c)).map fun t => { s with nodes := t }
    | _ => none
  | .askJobs c =>
    match s.snap.pc c, s.nodes.pc c with
    | .loading _ _, .returned ⟨_, none⟩ _ =>
      (cacheStep blame s.jobs (.call c)).map fun t => { s with jobs := t }
    | _, _ => none
  | .finishSnapshot c =>
    (snapshotOutcome s c).bind fun out =>
      (cacheStep (fun _ => none) s.snap (.finish c out)).map fun t => { s with snap := t }
  | .cancel c => do
    let snap ← cacheStep (fun _ => none) s.snap (.cancel c)
    let nodes ← cacheStep blame s.nodes (.cancel c)
    let jobs ← cacheStep blame s.jobs (.cancel c)
    return { s with snap, nodes, jobs }
  | .timeout c =>
    match s.snap.pc c with
    | .loading _ _ => do
      let nodes ← cacheStep blame s.nodes (.cancel c)
      let jobs ← cacheStep blame s.jobs (.cancel c)
      return { s with
        nodes, jobs
        timedOut := if s.snap.done c then s.timedOut else Function.update s.timedOut c true }
    | _ => none
  | .tick d => do
    let snap ← cacheStep (fun _ => none) s.snap (.tick d)
    let nodes ← cacheStep blame s.nodes (.tick d)
    let jobs ← cacheStep blame s.jobs (.tick d)
    return { s with snap, nodes, jobs }

end Step

/-! ## Steps of one machine -/

section Machine

variable [DecidableEq C] {blame : E → Option C}

/-- A step that no blame forbids is a step with a blame that the loader respects. -/
theorem cacheStep_of_honest {s s' : CacheState T E C} {a : CacheAction T E C}
    (h : cacheStep (fun _ => none) s a = some s')
    (hh : ∀ c out, a = .finish c out → honest blame s c out = true) :
    cacheStep blame s a = some s' := by
  cases a with
  | finish c out =>
    have hhonest := hh c out rfl
    have hnone : honest (fun _ => none) s c out = true := by
      unfold honest
      cases out.err <;> rfl
    simpa [cacheStep, cacheAct, hhonest, hnone] using h
  | _ => exact h

theorem cacheStep_done {s s' : CacheState T E C} {a : CacheAction T E C}
    (h : cacheStep blame s a = some s') (hne : ∀ c, a ≠ .cancel c) : s'.done = s.done := by
  obtain ⟨t, ht, rfl⟩ := cacheStep_cases h
  cases ht with
  | cancel c => exact absurd rfl (hne c)
  | _ => rfl

end Machine

/-! ## The invariant of every run -/

structure ClientInv (blame : E → Option C) (ttl : Nat) (s : ClientState E C) : Prop where
  snap : Inv (snapshotBlame blame) s.snap
  nodes : Inv blame s.nodes
  jobs : Inv blame s.jobs
  snapTtl : s.snap.cache.ttl = ttl
  nodesTtl : s.nodes.cache.ttl = ttl
  jobsTtl : s.jobs.cache.ttl = ttl
  /-- a derived context ends by its deadline or with the context of its caller -/
  nodesDone : ∀ c, s.nodes.done c = true → s.timedOut c = true ∨ s.snap.done c = true
  jobsDone : ∀ c, s.jobs.done c = true → s.timedOut c = true ∨ s.snap.done c = true

theorem clientInv_init (blame : E → Option C) (ttl : Nat) :
    ClientInv blame ttl (ClientState.init ttl) where
  snap := inv_init _ _ _
  nodes := inv_init _ _ _
  jobs := inv_init _ _ _
  snapTtl := rfl
  nodesTtl := rfl
  jobsTtl := rfl
  nodesDone _ h := nomatch h
  jobsDone _ h := nomatch h

section Invariant

variable [DecidableEq C] {kind : C → CallKind} {blame : E → Option C} {ttl : Nat}
  {s s' : ClientState E C}

/-- The error of a Snapshot load is nobody's cancellation but that of its own caller. -/
theorem honest_snapshot (h : ClientInv blame ttl s) {c : C}
    {out : Outcome Metrics (SnapshotErr E C)} (hout : snapshotOutcome s c = some out) :
    honest (snapshotBlame blame) s.snap c out = true := by
  have hcause : s.timedOut c = true ∨ s.snap.done c = true → ∀ value err,
      snapshotBlame blame err = s.cause c →
      honest (snapshotBlame blame) s.snap c ⟨value, some err⟩ = true := by
    intro hdone value err herr
    unfold ClientState.cause at herr
    by_cases ht : s.timedOut c = true
    · rw [if_pos ht] at herr
      simp [honest, herr]
    · rw [if_neg ht] at herr
      simp [honest, herr, hdone.resolve_left ht]
  have hload : ∀ value err, snapshotBlame blame err = none →
      honest (snapshotBlame blame) s.snap c ⟨value, some err⟩ = true := by
    intro value err herr
    simp [honest, herr]
  unfold snapshotOutcome at hout
  split at hout
  · next hpc =>
    cases hout
    have hok := h.nodes.pcs c
    rw [hpc] at hok
    exact hcause (h.nodesDone c hok) _ _ rfl
  · next nodes source hpc =>
    split at hout
    · next e he =>
      cases hout
      exact hload _ _ (returned_blame h.nodes hpc he)
    · split at hout
      · next hpc' =>
        cases hout
        have hok := h.jobs.pcs c
        rw [hpc'] at hok
        exact hcause (h.jobsDone c hok) _ _ rfl
      · next jobs source' hpc' =>
        split at hout
        · next e he =>
          cases hout
          exact hload _ _ (returned_blame h.jobs hpc' he)
        · split at hout
          · cases hout
            exact hload _ _ rfl
          · cases hout
            rfl
      · cases hout
  · cases hout

/-- A step of the outer machine alone. -/
theorem clientInv_snap (h : ClientInv blame ttl s)
    {a : CacheAction Metrics (SnapshotErr E C) C} {t : CacheState Metrics (SnapshotErr E C) C}
    (hstep : cacheStep (fun _ => none) s.snap a = some t) (hne : ∀ c, a ≠ .cancel c)
    (hh : ∀ c out, a = .finish c out → honest (snapshotBlame blame) s.snap c out = true) :
    ClientInv blame ttl { s with snap := t } := by
  have hdone := cacheStep_done hstep hne
  have hhonest := cacheStep_of_honest hstep hh
  exact ⟨inv_step h.snap hhonest, h.nodes, h.jobs, (cacheStep_ttl hstep).trans h.snapTtl,
    h.nodesTtl, h.jobsTtl, by rw [hdone]; exact h.nodesDone, by rw [hdone]; exact h.jobsDone⟩

theorem clientInv_nodes (h : ClientInv blame ttl s) {a : CacheAction NodeSnapshot E C}
    {t : CacheState NodeSnapshot E C} (hstep : cacheStep blame s.nodes a = some t)
    (hne : ∀ c, a ≠ .cancel c) : ClientInv blame ttl { s with nodes := t } := by
  have hdone := cacheStep_done hstep hne
  exact ⟨h.snap, inv_step h.nodes hstep, h.jobs, h.snapTtl, (cacheStep_ttl hstep).trans h.nodesTtl,
    h.jobsTtl, by rw [hdone]; exact h.nodesDone, h.jobsDone⟩

theorem clientInv_jobs (h : ClientInv blame ttl s) {a : CacheAction (List Job) E C}
    {t : CacheState (List Job) E C} (hstep : cacheStep blame s.jobs a = some t)
    (hne : ∀ c, a ≠ .cancel c) : ClientInv blame ttl { s with jobs := t } := by
  have hdone := cacheStep_done hstep hne
  exact ⟨h.snap, h.nodes, inv_step h.jobs hstep, h.snapTtl, h.nodesTtl,
    (cacheStep_ttl hstep).trans h.jobsTtl, h.nodesDone, by rw [hdone]; exact h.jobsDone⟩

theorem update_mono {f : C → Bool} {c d : C} (h : f d = true) :
    Function.update f c true d = true := by
  by_cases hdc : d = c
  · subst hdc
    exact Function.update_self ..
  · rw [Function.update_of_ne hdc]
    exact h

/-- What holds of all that have ended holds after `c` has ended too if it holds of `c`. -/
theorem of_update_done {f : C → Bool} {c : C} {P : C → Prop} (hc : P c)
    (h : ∀ d, f d = true → P d) : ∀ d, Function.update f c true d = true → P d := by
  intro d hd
  by_cases hdc : d = c
  · subst hdc
    exact hc
  · rw [Function.update_of_ne hdc] at hd
    exact h d hd

theorem clientInv_step {a : ClientAction E C} (h : ClientInv blame ttl s)
    (hstep : clientStep kind blame s a = some s') : ClientInv blame ttl s' := by
  cases a with
  | snap a =>
    simp only [clientStep] at hstep
    split at hstep
    · next hok =>
      obtain ⟨t, ht, rfl⟩ := Option.map_eq_some_iff.mp hstep
      refine clientInv_snap h ht ?_ ?_
      · rintro c rfl
        cases hok
      · rintro c out rfl
        cases hok
    · cases hstep
  | nodes a =>
    simp only [clientStep] at hstep
    split at hstep
    · next hok =>
      obtain ⟨t, ht, rfl⟩ := Option.map_eq_some_iff.mp hstep
      refine clientInv_nodes h ht ?_
      rintro c rfl
      cases hok
    · cases hstep
  | jobs a =>
    simp only [clientStep] at hstep
    split at hstep
    · next hok =>
      obtain ⟨t, ht, rfl⟩ := Option.map_eq_some_iff.mp hstep
      refine clientInv_jobs h ht ?_
      rintro c rfl
      cases hok
    · cases hstep
  | askNodes c =>
    simp only [clientStep] at hstep
    split at hstep
    · obtain ⟨t, ht, rfl⟩ := Option.map_eq_some_iff.mp hstep
      exact clientInv_nodes h ht fun _ hc => nomatch hc
    · cases hstep
  | askJobs c =>
    simp only [clientStep] at hstep
    split at hstep
    · obtain ⟨t, ht, rfl⟩ := Option.map_eq_some_iff.mp hstep
      exact clientInv_jobs h ht fun _ hc => nomatch hc
    · cases hstep
  | finishSnapshot c =>
    obtain ⟨out, hout, hstep⟩ := Option.bind_eq_some_iff.mp hstep
    obtain ⟨t, ht, rfl⟩ := Option.map_eq_some_iff.mp hstep
    refine clientInv_snap h ht (fun _ hc => nomatch hc) ?_
    rintro c' out' heq
    cases heq
    exact honest_snapshot h hout
  | cancel c =>
    cases hstep
    have hself : Function.update s.snap.done c true c = true := Function.update_self ..
    exact ⟨inv_step (a := .cancel c) h.snap rfl, inv_step (a := .cancel c) h.nodes rfl,
      inv_step (a := .cancel c) h.jobs rfl, h.snapTtl, h.nodesTtl, h.jobsTtl,
      of_update_done (Or.inr hself) fun d hd => (h.nodesDone d hd).imp_right update_mono,
      of_update_done (Or.inr hself) fun d hd => (h.jobsDone d hd).imp_right update_mono⟩
  | timeout c =>
    simp only [clientStep] at hstep
    split at hstep
    · cases hstep
      set timedOut := if s.snap.done c = true then s.timedOut else Function.update s.timedOut c true
        with htimedOut
      have hgrow : ∀ d, s.timedOut d = true → timedOut d = true := by
        intro d hd
        rw [htimedOut]
        split
        · exact hd
        · exact update_mono hd
      have hself : timedOut c = true ∨ s.snap.done c = true := by
        rw [htimedOut]
        split
        · next hd => exact Or.inr hd
        · exact Or.inl (Function.update_self ..)
      exact ⟨h.snap, inv_step (a := .cancel c) h.nodes rfl, inv_step (a := .cancel c) h.jobs rfl,
        h.snapTtl, h.nodesTtl, h.jobsTtl,
        of_update_done hself fun d hd => (h.nodesDone d hd).imp_left (hgrow d),
        of_update_done hself fun d hd => (h.jobsDone d hd).imp_left (hgrow d)⟩
    · cases hstep
  | tick d =>
    cases hstep
    exact ⟨inv_step (a := .tick d) h.snap rfl, inv_step (a := .tick d) h.nodes rfl,
      inv_step (a := .tick d) h.jobs rfl, h.snapTtl, h.nodesTtl, h.jobsTtl, h.nodesDone, h.jobsDone⟩

theorem clientInv_run {ok : ClientState E C → ClientAction E C → Prop}
    {as : List (ClientAction E C)} (h : Run (clientStep kind blame) ok (ClientState.init ttl) as s) :
    ClientInv blame ttl s :=
  h.invariant (ClientInv blame ttl) (clientInv_init blame ttl) fun _ _ _ hi _ hs =>
    clientInv_step hi hs

end Invariant

/-! ## Single flight -/

section Flight

variable [DecidableEq C] {blame : E → Option C}

/-- A loader that has ended can always clear its mark and close its channel, for the first
    time; and without a mark the next call that finds no fresh entry loads. -/
structure Released (blame : E → Option C) (s : CacheState T E C) : Prop where
  clears : ∀ c ch st out, s.pc c = .loaded ch st out →
    ∃ s', cacheStep blame s (.publish c) = some s' ∧ s'.cache.refreshing = none ∧
      s'.closed ch = 1
  loads : ∀ c, s.pc c = .atLock → s.cache.refreshing = none → s.cache.fresh s.clock = false →
    ∃ s', cacheStep blame s (.lock c) = some s' ∧ s'.pc c = .loading s.made s.steps

theorem released_of_inv {s : CacheState T E C} (h : Inv blame s) : Released blame s where
  clears c ch st out hpc := by
    obtain ⟨s', hs', hclear, hclosed⟩ : ∃ s', cacheStep blame s (.publish c) = some s' ∧
      s'.cache.refreshing = none ∧ s'.closed ch = s.closed ch + 1 := publish_clears hpc
    refine ⟨s', hs', hclear, ?_⟩
    have hok := h.pcs c
    rw [hpc] at hok
    rw [hclosed, (singleFlight_of_inv h).closedOnce ch |>.2 hok.1]
  loads _ hpc hr hf := lock_loads hpc hr hf

omit [DecidableEq C] in
/-- The invariant makes each of the three machines single flight. -/
theorem singleFlight_of_clientInv {ttl : Nat} {s : ClientState E C} (h : ClientInv blame ttl s) :
    SingleFlight (snapshotBlame blame) ttl s.snap ∧ SingleFlight blame ttl s.nodes ∧
      SingleFlight blame ttl s.jobs := by
  have hsnap := singleFlight_of_inv h.snap
  have hnodes := singleFlight_of_inv h.nodes
  have hjobs := singleFlight_of_inv h.jobs
  rw [h.snapTtl] at hsnap
  rw [h.nodesTtl] at hnodes
  rw [h.jobsTtl] at hjobs
  exact ⟨hsnap, hnodes, hjobs⟩

end Flight

/-- Single flight with cancellation isolation, for the callers of one cache with arbitrary
    loaders, and for the callers of the client with `Snapshot` above the node and job caches. -/
theorem single_flight :
    (∀ (T E C : Type) [DecidableEq C] (blame : E → Option C) (ttl : Nat) (zero : T)
      (as : List (CacheAction T E C)) (s : CacheState T E C),
      Run (cacheStep blame) (fun _ _ => True) (CacheState.init ttl zero) as s →
      SingleFlight blame ttl s ∧ Released blame s) ∧
    ∀ (E C : Type) [DecidableEq C] (kind : C → CallKind) (blame : E → Option C) (ttl : Nat)
      (as : List (ClientAction E C)) (s : ClientState E C),
      Run (clientStep kind blame) (fun _ _ => True) (ClientState.init ttl) as s →
      (SingleFlight (snapshotBlame blame) ttl s.snap ∧ SingleFlight blame ttl s.nodes ∧
        SingleFlight blame ttl s.jobs) ∧
      Released (snapshotBlame blame) s.snap ∧ Released blame s.nodes ∧ Released blame s.jobs := by
  constructor
  · intro T E C _ blame ttl zero as s h
    exact ⟨get_single_flight ttl zero h, released_of_inv (inv_run (inv_init blame ttl zero) h)⟩
  · intro E C _ kind blame ttl as s h
    have hinv := clientInv_run h
    exact ⟨singleFlight_of_clientInv hinv, released_of_inv hinv.snap, released_of_inv hinv.nodes,
      released_of_inv hinv.jobs⟩

/-- The leader of a Snapshot load is cancelled while its `sinfo` runs; the follower wakes,
    leads, and loads the metrics itself. -/
def cancelledLeader : List (ClientAction (Option Nat) Nat) :=
  [.snap (.call 0), .snap (.lock 0), .snap (.call 1), .snap (.lock 1), .askNodes 0,
    .nodes (.lock 0), .cancel 0, .nodes (.finish 0 ⟨⟨[], []⟩, some (some 0)⟩),
    .nodes (.publish 0), .nodes (.leave 0), .finishSnapshot 0, .snap (.publish 0),
    .snap (.leave 0), .snap (.wake 1), .snap (.lock 1), .askNodes 1, .nodes (.lock 1),
    .nodes (.finish 1 ⟨⟨[], []⟩, none⟩), .nodes (.publish 1), .nodes (.leave 1), .askJobs 1,
    .jobs (.lock 1), .jobs (.finish 1 ⟨[], none⟩), .jobs (.publish 1), .jobs (.leave 1),
    .finishSnapshot 1, .snap (.publish 1), .snap (.leave 1)]

theorem cancelledLeader_isSome :
    (exec (clientStep (fun _ => .snapshot) id) (fun _ _ => true) (ClientState.init 10)
      cancelledLeader).isSome := by
  decide

/-- `single_flight` in a run in which the leader is cancelled and the follower is not harmed. -/
theorem single_flight_cancelled_leader : ∃ s : ClientState (Option Nat) Nat,
    s.snap.pc 0 = .returnedCtxErr ∧
    s.snap.pc 1 = .returned ⟨zeroMetrics, none⟩ (.own ⟨1, 1, 9, ⟨zeroMetrics, none⟩, true, 0⟩) ∧
    SingleFlight (snapshotBlame id) 10 s.snap :=
  ⟨_, by decide, by decide, (single_flight.2 (Option Nat) Nat (fun _ => .snapshot) id 10
    cancelledLeader _ ((run_exec_get cancelledLeader_isSome).mono fun _ _ _ => trivial)).1.1⟩

end OpenHpcWeb.Slurm
