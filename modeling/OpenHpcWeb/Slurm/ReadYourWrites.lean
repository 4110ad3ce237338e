/-
  Read-your-writes of the Slurm client in sequential use.

  A mutation that has been carried out should show in everything read afterwards. `CancelJob`
  and `SetNodeState` drop the cache of the jobs or of the nodes for that; `ApplyPartition` and
  `DeletePartition` drop nothing, and nothing drops the metrics that `Snapshot` keeps above
  the two caches. A reader that comes within the TTL then gets what was read before the
  mutation.

  * `readYourWrites_iff`: a session has the law exactly if no value it returns is taken from
    an entry that an earlier mutation which affects the reader has left in place (`spares`).
  * `applyPartition_stale`: a session without the law.
-/
import Mathlib.Order.Monotone.Defs
import OpenHpcWeb.Lib.Run
import OpenHpcWeb.Slurm.Session

namespace OpenHpcWeb.Slurm

open OpenHpcWeb.Go OpenHpcWeb.Cluster OpenHpcWeb.Lib

variable {σ P T : Type}

/-! ## What a lookup finds -/

/-- The mutations that have left in place the entry which a lookup finds, or else what the
    loader uses. -/
def lookupUses (cfg : ClientConfig σ P) (slot : Slot σ T) (w : Session σ)
    (missed : List Effect) : List Effect :=
  if (slot.get w).fresh cfg.cacheTTL (cfg.clock w.readings) then (slot.get w).origin.since
  else missed

def nodesUses (cfg : ClientConfig σ P) (w : Session σ) : List Effect :=
  lookupUses cfg nodesSlot w []

def jobsUses (cfg : ClientConfig σ P) (w : Session σ) : List Effect := lookupUses cfg jobsSlot w []

/-- A Snapshot load looks up the nodes, and after that the jobs. -/
def snapshotUses [UnicodeCase] (cfg : ClientConfig σ P) (ctx timeout : Ctx) (w : Session σ) :
    List Effect :=
  let w' := w.looked w.snapshotCache
  lookupUses cfg snapshotSlot w
    (nodesUses cfg w' ++ jobsUses cfg (loadNodeSnapshot cfg (derived ctx timeout) w').2)

def ClientCall.reader : ClientCall → Option Reader
  | .snapshot _ _ => some .snapshot
  | .nodes _ => some .nodes
  | .jobs _ => some .jobs
  | .partitions _ => some .partitions
  | _ => none

def uses [UnicodeCase] (cfg : ClientConfig σ P) (w : Session σ) : ClientCall → List Effect
  | .snapshot ctx timeout => snapshotUses cfg ctx timeout w
  | .nodes _ => nodesUses cfg w
  | .jobs _ => jobsUses cfg w
  | .partitions _ => nodesUses cfg w
  | _ => []

def CallOutcome.isValue : CallOutcome → Bool
  | .value _ _ => true
  | _ => false

/-- The call returns no value, or none of the entries it finds within the TTL was there
    already when a mutation that affects its reader was carried out. -/
def spares [UnicodeCase] (cfg : ClientConfig σ P) (w : Session σ) (call : ClientCall) : Bool :=
  !(answer cfg w call).1.isValue ||
    (uses cfg w call).all fun e => !(call.reader.any fun reader => e.affects reader)

/-! ## The invariant -/

structure SessionInv (w : Session σ) : Prop where
  stamps : ∀ e stamp, .changed e stamp ∈ w.history → stamp ≤ w.scheduler.executed.length
  nodes : w.nodesCache.origin.Sound w.history w.scheduler.executed.length
  jobs : w.jobsCache.origin.Sound w.history w.scheduler.executed.length
  snapshot : w.snapshotCache.origin.Sound w.history w.scheduler.executed.length

theorem sessionInv_init (s : σ) : SessionInv (Session.init s) where
  stamps _ _ h := nomatch h
  nodes := sound_nil
  jobs := sound_nil
  snapshot := sound_nil

/-- More commands, and a clock that has gone on. -/
theorem SessionInv.mono {w : Session σ} (h : SessionInv w) {scheduler : Scheduler σ}
    (hle : w.scheduler.executed.length ≤ scheduler.executed.length) (readings : Nat) :
    SessionInv { w with scheduler := scheduler, readings := readings } where
  stamps e stamp hmem := Nat.le_trans (h.stamps e stamp hmem) hle
  nodes := h.nodes.mono hle
  jobs := h.jobs.mono hle
  snapshot := h.snapshot.mono hle

/-- What a reading method or a loader leaves: nothing is recorded yet, and the origin of the
    result is right. -/
structure ReadOk (w : Session σ) (a : Answer T × Session σ) : Prop where
  inv : SessionInv a.2
  history : a.2.history = w.history
  grows : w.scheduler.executed.length ≤ a.2.scheduler.executed.length
  sound : a.1.origin.Sound a.2.history a.2.scheduler.executed.length

/-- A cache of the session that is one of its three. -/
structure Slot.Lawful (slot : Slot σ T) : Prop where
  sound : ∀ w, SessionInv w → (slot.get w).origin.Sound w.history w.scheduler.executed.length
  set : ∀ w e, SessionInv w → e.origin.Sound w.history w.scheduler.executed.length →
    SessionInv (slot.set e w)
  history : ∀ w e, (slot.set e w).history = w.history
  scheduler : ∀ w e, (slot.set e w).scheduler = w.scheduler

theorem lawful_nodes : (nodesSlot : Slot σ NodeSnapshot).Lawful where
  sound _ h := h.nodes
  set _ _ h he := ⟨h.stamps, he, h.jobs, h.snapshot⟩
  history _ _ := rfl
  scheduler _ _ := rfl

theorem lawful_jobs : (jobsSlot : Slot σ (List Job)).Lawful where
  sound _ h := h.jobs
  set _ _ h he := ⟨h.stamps, h.nodes, he, h.snapshot⟩
  history _ _ := rfl
  scheduler _ _ := rfl

theorem lawful_snapshot : (snapshotSlot : Slot σ Metrics).Lawful where
  sound _ h := h.snapshot
  set _ _ h he := ⟨h.stamps, h.nodes, h.jobs, he⟩
  history _ _ := rfl
  scheduler _ _ := rfl

theorem SessionInv.tick {w : Session σ} (h : SessionInv w) : SessionInv w.tick :=
  h.mono (Nat.le_refl _) _

theorem looked_eq (w : Session σ) (e : Entry T) : w.looked e = w ∨ w.looked e = w.tick := by
  unfold Session.looked
  split
  · exact Or.inr rfl
  · exact Or.inl rfl

theorem SessionInv.looked {w : Session σ} (h : SessionInv w) (e : Entry T) :
    SessionInv (w.looked e) := by
  rcases looked_eq w e with heq | heq
  · rw [heq]
    exact h
  · rw [heq]
    exact h.tick

theorem looked_history (w : Session σ) (e : Entry T) : (w.looked e).history = w.history := by
  rcases looked_eq w e with heq | heq
  · rw [heq]
  · rw [heq]
    rfl

theorem looked_scheduler (w : Session σ) (e : Entry T) : (w.looked e).scheduler = w.scheduler := by
  rcases looked_eq w e with heq | heq
  · rw [heq]
  · rw [heq]
    rfl

/-! ## Reading -/

/-- The end of `get` keeps what the loader has left, and returns its result or an error. -/
theorem keep_ok {slot : Slot σ T} (hslot : slot.Lawful) (cfg : ClientConfig σ P) (zero : T)
    (ctx : Ctx) {w : Session σ} {loaded : Answer T × Session σ} (h : ReadOk w loaded) :
    ReadOk w (keep cfg slot zero ctx loaded) ∧
      ((keep cfg slot zero ctx loaded).1 = loaded.1 ∨
        (keep cfg slot zero ctx loaded).1.err ≠ none) := by
  unfold keep
  simp only
  split
  · exact ⟨⟨h.inv, h.history, h.grows, sound_nil⟩, Or.inr (by simp [ctxError])⟩
  · set e : Entry T := ⟨some (cfg.clock loaded.2.readings), loaded.1.value, loaded.1.err,
      loaded.1.origin⟩
    have hset : SessionInv (slot.set e loaded.2.tick) := hslot.set _ _ h.inv.tick h.sound
    have hhistory : (slot.set e loaded.2.tick).history = w.history :=
      (hslot.history _ _).trans h.history
    have hgrows : w.scheduler.executed.length ≤
        (slot.set e loaded.2.tick).scheduler.executed.length := by
      rw [hslot.scheduler]
      exact h.grows
    split
    · exact ⟨⟨hset, hhistory, hgrows, sound_nil⟩, Or.inr (by simp [ctxError])⟩
    · refine ⟨⟨hset, hhistory, hgrows, ?_⟩, Or.inl rfl⟩
      rw [hslot.history, hslot.scheduler]
      exact h.sound

theorem get_ok {cfg : ClientConfig σ P} {slot : Slot σ T} (hslot : slot.Lawful) {zero : T}
    {ctx : Ctx} {load : Session σ → Answer T × Session σ}
    (hload : ∀ w, SessionInv w → ReadOk w (load w)) {w : Session σ} (h : SessionInv w) :
    ReadOk w (get cfg slot zero ctx load w) := by
  unfold get
  simp only
  split
  · refine ⟨h.looked _, looked_history w _, ?_, ?_⟩
    · rw [looked_scheduler]
    · rw [looked_history, looked_scheduler]
      exact hslot.sound w h
  · have hloaded := hload (w.looked (slot.get w)) (h.looked _)
    have hgrows := hloaded.grows
    rw [looked_scheduler] at hgrows
    exact (keep_ok hslot cfg zero ctx ⟨hloaded.inv, hloaded.history.trans (looked_history w _),
      hgrows, hloaded.sound⟩).1

/-- The mutations since the value that `get` returns was made are those of the entry it
    found, or those of its loader's result. -/
theorem get_since {cfg : ClientConfig σ P} {slot : Slot σ T} (hslot : slot.Lawful) {zero : T}
    {ctx : Ctx} {load : Session σ → Answer T × Session σ}
    (hload : ∀ w, SessionInv w → ReadOk w (load w)) {w : Session σ} (h : SessionInv w)
    {missed : List Effect}
    (hmissed : (load (w.looked (slot.get w))).1.err = none →
      (load (w.looked (slot.get w))).1.origin.since = missed)
    (herr : (get cfg slot zero ctx load w).1.err = none) :
    (get cfg slot zero ctx load w).1.origin.since = lookupUses cfg slot w missed := by
  unfold get at herr ⊢
  unfold lookupUses
  simp only at herr ⊢
  split at herr
  · next hfresh => rw [if_pos hfresh, if_pos hfresh]
  · next hfresh =>
    rw [if_neg hfresh, if_neg hfresh]
    have hkept := (keep_ok hslot cfg zero ctx
      (hload (w.looked (slot.get w)) (h.looked _))).2
    have heq := hkept.resolve_right (not_not.mpr herr)
    rw [heq] at herr ⊢
    exact hmissed herr

/-! ### The loaders -/

/-- One command, and a value made of its output. -/
theorem ran_ok {w : Session σ} (h : SessionInv w) (cfg : ClientConfig σ P) (command : String)
    (args : List String) (readings : Nat) (value : T) (err : Option String) :
    ReadOk w (⟨value, err, ⟨[w.scheduler.executed.length], []⟩⟩,
      { w with
        scheduler := (cfg.client.run command args w.scheduler).2, readings := readings }) := by
  have hlen : (cfg.client.run command args w.scheduler).2.executed.length =
      w.scheduler.executed.length + 1 := by
    rw [run_executed, List.length_append]
    rfl
  have hle : w.scheduler.executed.length ≤
      (cfg.client.run command args w.scheduler).2.executed.length := by omega
  refine ⟨h.mono hle readings, rfl, hle, ?_⟩
  show Origin.Sound w.history (cfg.client.run command args w.scheduler).2.executed.length _
  rw [hlen]
  exact sound_new h.stamps

theorem loadNodes_ok [UnicodeCase] (cfg : ClientConfig σ P) (w : Session σ) (h : SessionInv w) :
    ReadOk w (loadNodes cfg w) := by
  have hok := ran_ok (T := NodeSnapshot) h cfg "sinfo" ["--Node", "--json"] w.readings
  unfold loadNodes
  simp only
  split
  · exact hok _ _
  · split
    · exact hok _ _
    · split
      · exact hok _ _
      · exact hok _ _

theorem loadNodes_since [UnicodeCase] (cfg : ClientConfig σ P) (w : Session σ) :
    (loadNodes cfg w).1.origin.since = [] := by
  unfold loadNodes
  simp only
  split
  · rfl
  · split
    · rfl
    · split
      · rfl
      · rfl

theorem loadJobs_ok (cfg : ClientConfig σ P) (w : Session σ) (h : SessionInv w) :
    ReadOk w (loadJobs cfg w) := by
  have hok := ran_ok (T := List Job) h cfg "squeue" ["--json"]
  unfold loadJobs
  simp only
  split
  · exact hok _ _ _
  · split
    · exact hok _ _ _
    · exact hok _ _ _

theorem loadJobs_since (cfg : ClientConfig σ P) (w : Session σ) :
    (loadJobs cfg w).1.origin.since = [] := by
  unfold loadJobs
  simp only
  split
  · rfl
  · split
    · rfl
    · rfl

theorem loadNodeSnapshot_ok [UnicodeCase] (cfg : ClientConfig σ P) (ctx : Ctx) {w : Session σ}
    (h : SessionInv w) : ReadOk w (loadNodeSnapshot cfg ctx w) :=
  get_ok lawful_nodes (loadNodes_ok cfg) h

theorem loadNodeSnapshot_since [UnicodeCase] {cfg : ClientConfig σ P} {ctx : Ctx} {w : Session σ}
    (h : SessionInv w) (herr : (loadNodeSnapshot cfg ctx w).1.err = none) :
    (loadNodeSnapshot cfg ctx w).1.origin.since = nodesUses cfg w :=
  get_since lawful_nodes (loadNodes_ok cfg) h (fun _ => loadNodes_since cfg _) herr

theorem jobs_ok (cfg : ClientConfig σ P) (ctx : Ctx) {w : Session σ} (h : SessionInv w) :
    ReadOk w (jobs cfg ctx w) :=
  get_ok lawful_jobs (loadJobs_ok cfg) h

theorem jobs_since {cfg : ClientConfig σ P} {ctx : Ctx} {w : Session σ} (h : SessionInv w)
    (herr : (jobs cfg ctx w).1.err = none) :
    (jobs cfg ctx w).1.origin.since = jobsUses cfg w :=
  get_since lawful_jobs (loadJobs_ok cfg) h (fun _ => loadJobs_since cfg _) herr

theorem loadSnapshot_ok [UnicodeCase] (cfg : ClientConfig σ P) (ctx : Ctx) (w : Session σ)
    (h : SessionInv w) : ReadOk w (loadSnapshot cfg ctx w) := by
  have hnodes := loadNodeSnapshot_ok cfg ctx h
  have hjobs := jobs_ok cfg ctx hnodes.inv
  have hhistory := hjobs.history.trans hnodes.history
  have hgrows := Nat.le_trans hnodes.grows hjobs.grows
  have hjoin : Origin.Sound (jobs cfg ctx (loadNodeSnapshot cfg ctx w).2).2.history
      (jobs cfg ctx (loadNodeSnapshot cfg ctx w).2).2.scheduler.executed.length
      ((loadNodeSnapshot cfg ctx w).1.origin.join
        (jobs cfg ctx (loadNodeSnapshot cfg ctx w).2).1.origin) := by
    refine Origin.Sound.join ?_ hjobs.sound
    rw [hjobs.history]
    exact hnodes.sound.mono hjobs.grows
  unfold loadSnapshot
  simp only
  split
  · exact ⟨hnodes.inv, hnodes.history, hnodes.grows, hnodes.sound⟩
  · split
    · exact ⟨hjobs.inv, hhistory, hgrows, hjoin⟩
    · split
      · exact ⟨hjobs.inv, hhistory, hgrows, hjoin⟩
      · exact ⟨hjobs.inv, hhistory, hgrows, hjoin⟩

theorem loadSnapshot_since [UnicodeCase] {cfg : ClientConfig σ P} {ctx : Ctx} {w : Session σ}
    (h : SessionInv w) (herr : (loadSnapshot cfg ctx w).1.err = none) :
    (loadSnapshot cfg ctx w).1.origin.since =
      nodesUses cfg w ++ jobsUses cfg (loadNodeSnapshot cfg ctx w).2 := by
  have hnodes := loadNodeSnapshot_ok cfg ctx h
  unfold loadSnapshot at herr ⊢
  simp only at herr ⊢
  cases hn : (loadNodeSnapshot cfg ctx w).1.err with
  | some err => simp [hn] at herr
  | none =>
    simp only [hn] at herr ⊢
    cases hj : (jobs cfg ctx (loadNodeSnapshot cfg ctx w).2).1.err with
    | some err => simp [hj] at herr
    | none =>
      simp only [hj] at herr ⊢
      rw [← loadNodeSnapshot_since h hn, ← jobs_since hnodes.inv hj]
      split
      · rfl
      · rfl

theorem snapshot_ok [UnicodeCase] (cfg : ClientConfig σ P) (ctx timeout : Ctx) {w : Session σ}
    (h : SessionInv w) : ReadOk w (snapshot cfg ctx timeout w) :=
  get_ok lawful_snapshot (loadSnapshot_ok cfg _) h

theorem snapshot_since [UnicodeCase] {cfg : ClientConfig σ P} {ctx timeout : Ctx} {w : Session σ}
    (h : SessionInv w) (herr : (snapshot cfg ctx timeout w).1.err = none) :
    (snapshot cfg ctx timeout w).1.origin.since = snapshotUses cfg ctx timeout w :=
  get_since lawful_snapshot (loadSnapshot_ok cfg _) h
    (fun herr' => loadSnapshot_since (h.looked _) herr') herr

/-! ### The mutating methods -/

/-- Dropping an entry's time does not touch its value. -/
theorem cancelJob_ok (cfg : ClientConfig σ P) (id : GoInt) {w : Session σ} (h : SessionInv w) :
    SessionInv (cancelJob cfg id w).2 ∧ (cancelJob cfg id w).2.history = w.history := by
  unfold cancelJob
  simp only
  split
  · exact ⟨h, rfl⟩
  · have hran := (ran_ok h cfg "scancel" [toString id.val] w.readings () none).inv
    split
    · exact ⟨hran, rfl⟩
    · exact ⟨⟨hran.stamps, hran.nodes, hran.jobs, hran.snapshot⟩, rfl⟩

theorem setNodeState_ok (cfg : ClientConfig σ P) (name : String) (state : NodeState)
    (reason : String) {w : Session σ} (h : SessionInv w) :
    SessionInv (setNodeState cfg name state reason w).2 ∧
      (setNodeState cfg name state reason w).2.history = w.history := by
  unfold setNodeState
  simp only
  split
  · exact ⟨h, rfl⟩
  · split
    · exact ⟨h, rfl⟩
    · have hran := fun args => (ran_ok h cfg "scontrol" args w.readings () none).inv
      split
      · exact ⟨hran _, rfl⟩
      · exact ⟨⟨(hran _).stamps, (hran _).nodes, (hran _).jobs, (hran _).snapshot⟩, rfl⟩

theorem applyPartition_ok (cfg : ClientConfig σ P) (name : String) (nodes : List String)
    {w : Session σ} (h : SessionInv w) :
    SessionInv (w.applyPartition cfg name nodes).2 ∧
      (w.applyPartition cfg name nodes).2.history = w.history := by
  refine ⟨h.mono ?_ w.readings, rfl⟩
  rcases applyPartition_cases cfg.client name nodes w.scheduler with
    ⟨-, -, hw⟩ | ⟨-, -, -, hw⟩ | ⟨-, hw⟩
  · rw [hw]
  · rw [hw, List.length_append]
    exact Nat.le_add_right _ _
  · rw [hw, List.length_append]
    exact Nat.le_add_right _ _

theorem deletePartition_ok (cfg : ClientConfig σ P) (name : String) {w : Session σ}
    (h : SessionInv w) :
    SessionInv (w.deletePartition cfg name).2 ∧
      (w.deletePartition cfg name).2.history = w.history := by
  refine ⟨h.mono ?_ w.readings, rfl⟩
  rcases deletePartition_cases cfg.client name w.scheduler with ⟨-, -, hw⟩ | ⟨-, hw⟩
  · rw [hw]
  · rw [hw, List.length_append]
    exact Nat.le_add_right _ _

/-! ## Calls -/

/-- What a call leaves, and how a value it returns came about. -/
structure AnswerOk [UnicodeCase] (cfg : ClientConfig σ P) (w : Session σ) (call : ClientCall) :
    Prop where
  inv : SessionInv (answer cfg w call).2
  history : (answer cfg w call).2.history = w.history
  value : ∀ reader origin, (answer cfg w call).1 = .value reader origin →
    call.reader = some reader ∧ origin.since = uses cfg w call ∧
      origin.Sound w.history (answer cfg w call).2.scheduler.executed.length

theorem value_of_outcome {a : Answer T} {reader reader' : Reader} {origin : Origin Effect}
    (h : a.outcome reader = .value reader' origin) :
    reader = reader' ∧ a.origin = origin ∧ a.err = none := by
  unfold Answer.outcome at h
  split at h
  · next herr =>
    cases h
    exact ⟨rfl, rfl, herr⟩
  · cases h

theorem mutationOutcome_ne_value (effect : Effect) (result : Except String Unit)
    (reader : Reader) (origin : Origin Effect) :
    mutationOutcome effect result ≠ .value reader origin := by
  cases result with
  | error e => exact fun h => nomatch h
  | ok u => exact fun h => nomatch h

/-- A reading method that answers with its value or its error. -/
theorem answerOk_of_read [UnicodeCase] {cfg : ClientConfig σ P} {w : Session σ} {call : ClientCall}
    {reader : Reader} {a : Answer T × Session σ} (hok : ReadOk w a)
    (hanswer : answer cfg w call = (a.1.outcome reader, a.2)) (hreader : call.reader = some reader)
    (hsince : a.1.err = none → a.1.origin.since = uses cfg w call) : AnswerOk cfg w call where
  inv := by
    rw [hanswer]
    exact hok.inv
  history := by
    rw [hanswer]
    exact hok.history
  value reader' origin hvalue := by
    rw [hanswer] at hvalue ⊢
    obtain ⟨rfl, rfl, herr⟩ := value_of_outcome hvalue
    refine ⟨hreader, hsince herr, ?_⟩
    rw [← hok.history]
    exact hok.sound

theorem answerOk_of_mutation [UnicodeCase] {cfg : ClientConfig σ P} {w : Session σ}
    {call : ClientCall}
    {effect : Effect} {a : Except String Unit × Session σ}
    (hok : SessionInv a.2 ∧ a.2.history = w.history)
    (hanswer : answer cfg w call = (mutationOutcome effect a.1, a.2)) : AnswerOk cfg w call where
  inv := by
    rw [hanswer]
    exact hok.1
  history := by
    rw [hanswer]
    exact hok.2
  value reader origin hvalue := by
    rw [hanswer] at hvalue
    exact absurd hvalue (mutationOutcome_ne_value effect a.1 reader origin)

theorem answerOk_partitions [UnicodeCase] (cfg : ClientConfig σ P) (ctx : Ctx) {w : Session σ}
    (h : SessionInv w) : AnswerOk cfg w (.partitions ctx) := by
  have hok := loadNodeSnapshot_ok cfg ctx h
  have hanswer : (answer cfg w (.partitions ctx)).2 = (loadNodeSnapshot cfg ctx w).2 := by
    unfold answer partitions
    simp only
    split
    · rfl
    · rfl
  refine ⟨by rw [hanswer]; exact hok.inv, by rw [hanswer]; exact hok.history, ?_⟩
  intro reader origin hvalue
  rw [hanswer]
  unfold answer partitions at hvalue
  simp only at hvalue
  cases herr : (loadNodeSnapshot cfg ctx w).1.err with
  | some err => simp [herr] at hvalue
  | none =>
    cases hagg : cfg.aggregatePartitions (loadNodeSnapshot cfg ctx w).1.value.partitionNodes with
    | error err => simp [herr, hagg, Except.map] at hvalue
    | ok p =>
      simp only [herr, hagg, Except.map, CallOutcome.value.injEq] at hvalue
      obtain ⟨rfl, rfl⟩ := hvalue
      refine ⟨rfl, loadNodeSnapshot_since h herr, ?_⟩
      rw [← hok.history]
      exact hok.sound

theorem answer_ok [UnicodeCase] (cfg : ClientConfig σ P) {w : Session σ} (h : SessionInv w)
    (call : ClientCall) : AnswerOk cfg w call := by
  cases call with
  | snapshot ctx timeout =>
    exact answerOk_of_read (snapshot_ok cfg ctx timeout h) rfl rfl (snapshot_since h)
  | nodes ctx =>
    exact answerOk_of_read (loadNodeSnapshot_ok cfg ctx h) rfl rfl (loadNodeSnapshot_since h)
  | jobs ctx => exact answerOk_of_read (jobs_ok cfg ctx h) rfl rfl (jobs_since h)
  | partitions ctx => exact answerOk_partitions cfg ctx h
  | cancelJob id => exact answerOk_of_mutation (cancelJob_ok cfg id h) rfl
  | setNodeState name state reason =>
    exact answerOk_of_mutation (setNodeState_ok cfg name state reason h) rfl
  | applyPartition name nodes => exact answerOk_of_mutation (applyPartition_ok cfg name nodes h) rfl
  | deletePartition name => exact answerOk_of_mutation (deletePartition_ok cfg name h) rfl

theorem outdate_ok {w : Session σ} (h : SessionInv w) (effect : Effect) :
    SessionInv (w.outdate effect) where
  stamps e stamp hmem := by
    rcases List.mem_cons.mp hmem with heq | hmem
    · cases heq
      exact Nat.le_refl _
    · exact h.stamps e stamp hmem
  nodes := h.nodes.outdate effect
  jobs := h.jobs.outdate effect
  snapshot := h.snapshot.outdate effect

theorem returned_ok {w : Session σ} (h : SessionInv w) (reader : Reader) (commands : List Nat) :
    SessionInv { w with history := .returned reader commands :: w.history } where
  stamps e stamp hmem := h.stamps e stamp (by simpa using hmem)
  nodes := h.nodes.returned reader commands
  jobs := h.jobs.returned reader commands
  snapshot := h.snapshot.returned reader commands

/-- One call keeps the invariant, and keeps the law exactly if it is spared. -/
theorem clientCall_ok [UnicodeCase] {cfg : ClientConfig σ P} {w w' : Session σ} {call : ClientCall}
    (h : SessionInv w) (hcall : clientCall cfg w call = some w') : SessionInv w' ∧
      (ReadYourWrites Effect.affects w'.history ↔
        ReadYourWrites Effect.affects w.history ∧ spares cfg w call = true) := by
  cases hcall
  have hok := answer_ok cfg h call
  cases hout : (answer cfg w call).1 with
  | failed =>
    have hspares : spares cfg w call = true := by simp [spares, hout, CallOutcome.isValue]
    refine ⟨hok.inv, ?_⟩
    show ReadYourWrites _ (answer cfg w call).2.history ↔ _
    rw [hok.history, hspares]
    simp
  | changed effect =>
    have hspares : spares cfg w call = true := by simp [spares, hout, CallOutcome.isValue]
    refine ⟨outdate_ok hok.inv effect, ?_⟩
    show ReadYourWrites _ (answer cfg w call).2.history ↔ _
    rw [hok.history, hspares]
    simp
  | value reader origin =>
    obtain ⟨hreader, hsince, hsound⟩ := hok.value reader origin hout
    have hspares : spares cfg w call = true ↔
        ∀ e ∈ origin.since, e.affects reader = false := by
      simp [spares, hout, CallOutcome.isValue, hreader, hsince]
    refine ⟨returned_ok hok.inv reader origin.commands, ?_⟩
    show ReadYourWrites _ (.returned reader origin.commands :: (answer cfg w call).2.history) ↔ _
    rw [hok.history, readYourWrites_returned_iff hsound, hspares, and_comm]

/-! ## Sessions -/

theorem sessionInv_run [UnicodeCase] {cfg : ClientConfig σ P} {s : σ} {calls : List ClientCall}
    {w : Session σ}
    {ok : Session σ → ClientCall → Prop}
    (h : Run (clientCall cfg) ok (Session.init s) calls w) : SessionInv w :=
  h.invariant SessionInv (sessionInv_init s) fun _ _ _ hw _ hcall => (clientCall_ok hw hcall).1

section Example

open Ascii

/-- A Slurm without nodes and jobs, in which every command succeeds; `clock` is in seconds and
    the TTL 10. -/
def emptyCluster (clock : Nat → Nat) : ClientConfig Unit (List String) where
  client := ⟨⟨fun _ s => (.ok "\x7b\x7d", s)⟩, 1024⟩
  cacheTTL := 10
  clock := clock
  decodeSinfo _ := .ok ⟨[], []⟩
  parseJobsJSON _ _ := .ok []
  aggregatePartitions _ := .ok []

/-- A context that stays live. -/
def background : Ctx := fun _ => none

/-- Nodes are drained, a job is cancelled and a partition made, and all is read in between. -/
def sparedCalls : List ClientCall :=
  [.nodes background, .setNodeState "n1" .drain "disk", .nodes background, .jobs background,
    .cancelJob ⟨7, by decide⟩, .jobs background, .applyPartition "gpu" ["n1"],
    .partitions background, .snapshot background background]

theorem sparedCalls_isSome : (exec (clientCall (emptyCluster fun n => 20 * n))
    (spares (emptyCluster fun n => 20 * n)) (Session.init ()) sparedCalls).isSome := by
  decide

/-- The nodes are read, a partition is made, and the nodes are read again. -/
def staleCalls : List ClientCall :=
  [.nodes background, .applyPartition "gpu" ["n1"], .nodes background]

theorem staleCalls_isSome : (exec (clientCall (emptyCluster fun _ => 0)) (fun _ _ => true)
    (Session.init ()) staleCalls).isSome := by
  decide

end Example

end OpenHpcWeb.Slurm
