/-
  A method of the directory client with the goroutine of `closeOnContext`, of
  internal/ldapdirectory/client.go.

  The method goes on with each answer, the context may end at any time, and the goroutine waits
  for that or for the channel `done`; where both are ready it takes either. A context that
  cannot end has no goroutine. What the server answers is free.

  * `Ok.step`: how the goroutine and the channel go with where the method stands.
  * `ldap_call_cleans_up`: what a method leaves behind, and that an end of the context reaches it.
-/
import OpenHpcWeb.Ldap.Calls
import OpenHpcWeb.Lib.Run

namespace OpenHpcWeb.Ldap

open OpenHpcWeb.Lib

/-! ## The system -/

/-- Where the goroutine stands. -/
inductive WatcherPc where
  | absent
  | waiting
  | closing
  | ended
  deriving DecidableEq

structure CancellableCall (α : Type) where
  caller : CallProgram α
  history : List (Exchange CallQuestion CallAnswer)
  /-- the error of the context -/
  ctx : Option String
  watcher : WatcherPc
  /-- connections that were made, and how often the method and the goroutine closed one -/
  dials : Nat
  closes : Nat
  watcherCloses : Nat
  /-- how often `done` was closed; the second time is a panic -/
  stops : Nat

inductive CallAction where
  /-- the method goes on, with the answer to what it asks -/
  | answer (answers : (q : CallQuestion) → CallAnswer q)
  | cancel (err : String)
  /-- the goroutine goes on, for the context or for `done` -/
  | wake (cancelled : Bool)
  | watcherClose

namespace CancellableCall

variable {α : Type}

def start (program : CallProgram α) : CancellableCall α where
  caller := program
  history := []
  ctx := none
  watcher := .absent
  dials := 0
  closes := 0
  watcherCloses := 0
  stops := 0

/-- The context answers for itself. -/
def reply (s : CancellableCall α) (answers : (q : CallQuestion) → CallAnswer q) :
    (q : CallQuestion) → CallAnswer q
  | .contextErr => s.ctx
  | q => answers q

-- whether the context can end, that is whether it has a `Done` channel
variable (cancellable : Bool)

/-- What an answered question does. -/
def effect (s : CancellableCall α) : Exchange CallQuestion CallAnswer → CancellableCall α
  | ⟨.dial, none⟩ => { s with dials := s.dials + 1 }
  | ⟨.watch, _⟩ => if cancellable then { s with watcher := .waiting } else s
  | ⟨.stopCancellation, _⟩ => if cancellable then { s with stops := s.stops + 1 } else s
  | ⟨.close, _⟩ => { s with closes := s.closes + 1 }
  | _ => s

def step (s : CancellableCall α) : CallAction → Option (CancellableCall α)
  | .answer answers =>
    match s.caller with
    | .done _ => none
    | .ask q next =>
      let x : Exchange CallQuestion CallAnswer := ⟨q, s.reply answers q⟩
      some { s.effect cancellable x with caller := next x.2, history := s.history ++ [x] }
  | .cancel err => if cancellable ∧ s.ctx = none then some { s with ctx := some err } else none
  | .wake true =>
    if s.watcher = .waiting ∧ s.ctx.isSome then some { s with watcher := .closing } else none
  | .wake false =>
    if s.watcher = .waiting ∧ 0 < s.stops then some { s with watcher := .ended } else none
  | .watcherClose =>
    if s.watcher = .closing then
      some { s with watcher := .ended, watcherCloses := s.watcherCloses + 1 }
    else none

/-- A step of the goroutine. -/
def byWatcher : CallAction → Bool
  | .wake _ | .watcherClose => true
  | .answer _ | .cancel _ => false

end CancellableCall

/-! ## The invariant -/

/-- How often a method has made a connection, closed it, and called the function that stops the
    goroutine. -/
def CallStage.counts : CallStage → Nat × Nat × Nat
  | .fresh | .refused => (0, 0, 0)
  | .dialed | .watched => (1, 0, 0)
  | .stopped => (1, 0, 1)
  | .closed => (1, 1, 1)

/-- The method has come to `closeOnContext`. -/
def CallStage.started : CallStage → Bool
  | .fresh | .refused | .dialed => false
  | .watched | .stopped | .closed => true

namespace CancellableCall

variable {α : Type} {cancellable : Bool} {s s' : CancellableCall α} {a : CallAction}

/-- What has been done where the method stands. -/
structure At (cancellable : Bool) (s : CancellableCall α) (stage : CallStage) : Prop where
  dials : s.dials = stage.counts.1
  closes : s.closes = stage.counts.2.1
  stops : s.stops = if cancellable then stage.counts.2.2 else 0
  absent : s.watcher = .absent ↔ (cancellable && stage.started) = false

/-- What the goroutine does has a reason. -/
structure Watched (cancellable : Bool) (s : CancellableCall α) : Prop where
  context : s.ctx.isSome = true → cancellable = true
  closing : s.watcher = .closing → s.ctx.isSome = true
  closed : 0 < s.watcherCloses → s.ctx.isSome = true ∧ s.watcher = .ended
  ended : s.watcher = .ended → 0 < s.stops ∨ 0 < s.watcherCloses

structure Ok (cancellable : Bool) (s : CancellableCall α) : Prop where
  stands : ∃ stage, callProtocol.after .fresh s.history = some stage ∧
    s.caller.Keeps callProtocol stage (fun t _ => t.Over) ∧ s.At cancellable stage
  watched : s.Watched cancellable

theorem ok_start {program : CallProgram α} (h : KeepsCall program) :
    Ok cancellable (start program) where
  stands := ⟨.fresh, rfl, h, rfl, rfl, by cases cancellable <;> rfl,
    by simp [start, CallStage.started]⟩
  watched := ⟨nofun, nofun, nofun, nofun⟩

/-- An answer that the protocol allows. -/
theorem At.effect {stage stage' : CallStage} {x : Exchange CallQuestion CallAnswer}
    (h : s.At cancellable stage) (hmove : CallMove stage x stage') :
    (s.effect cancellable x).At cancellable stage' := by
  obtain ⟨hdials, hcloses, hstops, habsent⟩ := h
  cases hmove with
  | dialed => exact ⟨congrArg (· + 1) hdials, hcloses, hstops, habsent⟩
  | refused err => exact ⟨hdials, hcloses, hstops, habsent⟩
  | setTimeout timeout => exact ⟨hdials, hcloses, hstops, habsent⟩
  | watch =>
    cases cancellable with
    | true => exact ⟨hdials, hcloses, hstops, by simp [CancellableCall.effect, CallStage.started]⟩
    | false => exact ⟨hdials, hcloses, hstops, habsent⟩
  | @work q r hq =>
    cases q with
    | bind _ _ | search _ | add _ | contextErr | sshaPassword _ =>
      exact ⟨hdials, hcloses, hstops, habsent⟩
    | dial | setTimeout _ | watch | stopCancellation | close => cases hq
  | stop =>
    cases cancellable with
    | true => exact ⟨hdials, hcloses, congrArg (· + 1) hstops, habsent⟩
    | false => exact ⟨hdials, hcloses, hstops, habsent⟩
  | close => exact ⟨hdials, congrArg (· + 1) hcloses, hstops, habsent⟩
  | late r => exact ⟨hdials, hcloses, hstops, habsent⟩

/-- What an answer does that concerns the goroutine: it can start it, or close `done`. -/
theorem Watched.effect {stage stage' : CallStage} {x : Exchange CallQuestion CallAnswer}
    (h : s.Watched cancellable) (hat : s.At cancellable stage) (hmove : CallMove stage x stage') :
    (s.effect cancellable x).Watched cancellable := by
  obtain ⟨hcontext, hclosing, hclosed, hended⟩ := h
  cases hmove with
  | dialed | refused _ | setTimeout _ | close | late _ =>
    exact ⟨hcontext, hclosing, hclosed, hended⟩
  | watch =>
    cases cancellable with
    | true =>
      -- there was no goroutine before
      have habsent : s.watcher = .absent := hat.absent.mpr rfl
      refine ⟨fun _ => rfl, nofun, fun hcloses => ?_, nofun⟩
      cases habsent.symm.trans (hclosed hcloses).2
    | false => exact ⟨hcontext, hclosing, hclosed, hended⟩
  | @work q r hq =>
    cases q with
    | bind _ _ | search _ | add _ | contextErr | sshaPassword _ =>
      exact ⟨hcontext, hclosing, hclosed, hended⟩
    | dial | setTimeout _ | watch | stopCancellation | close => cases hq
  | stop =>
    cases cancellable with
    | true => exact ⟨hcontext, hclosing, hclosed, fun _ => .inl (Nat.succ_pos _)⟩
    | false => exact ⟨hcontext, hclosing, hclosed, hended⟩

theorem Ok.step (h : Ok cancellable s) (hstep : step cancellable s a = some s') :
    Ok cancellable s' := by
  obtain ⟨⟨stage, hafter, hkeeps, hat⟩, hwatched⟩ := h
  unfold CancellableCall.step at hstep
  split at hstep
  next answers =>
    split at hstep
    · cases hstep
    · next q next hcaller =>
      obtain rfl := Option.some.inj hstep
      rw [hcaller] at hkeeps
      obtain ⟨stage', hstage', hnext⟩ := hkeeps.answer (s.reply answers q)
      have hmove := callProtocol_move hstage'
      have hat' := hat.effect hmove
      have hwatched' := hwatched.effect hat hmove
      refine ⟨⟨stage', ?_, hnext, hat'.dials, hat'.closes, hat'.stops, hat'.absent⟩,
        hwatched'.context, hwatched'.closing, hwatched'.closed, hwatched'.ended⟩
      rw [Protocol.after_snoc, hafter, Option.bind_some, hstage']
  next err =>
    obtain ⟨⟨hcancellable, hnone⟩, ⟨⟩⟩ := Option.ite_none_right_eq_some.mp hstep
    refine ⟨⟨stage, hafter, hkeeps, hat.dials, hat.closes, hat.stops, hat.absent⟩,
      fun _ => hcancellable, fun _ => rfl, fun hcloses => ⟨rfl, (hwatched.closed hcloses).2⟩,
      hwatched.ended⟩
  next =>
    obtain ⟨⟨hwaiting, hctx⟩, ⟨⟩⟩ := Option.ite_none_right_eq_some.mp hstep
    refine ⟨⟨stage, hafter, hkeeps, hat.dials, hat.closes, hat.stops, ?_⟩, hwatched.context,
      fun _ => hctx, fun hcloses => ?_, nofun⟩
    · rw [← hat.absent, hwaiting]
      exact ⟨nofun, nofun⟩
    · cases hwaiting.symm.trans (hwatched.closed hcloses).2
  next =>
    obtain ⟨⟨hwaiting, hstops⟩, ⟨⟩⟩ := Option.ite_none_right_eq_some.mp hstep
    refine ⟨⟨stage, hafter, hkeeps, hat.dials, hat.closes, hat.stops, ?_⟩, hwatched.context,
      nofun, fun hcloses => ⟨(hwatched.closed hcloses).1, rfl⟩, fun _ => .inl hstops⟩
    rw [← hat.absent, hwaiting]
    exact ⟨nofun, nofun⟩
  next =>
    obtain ⟨hclosing, ⟨⟩⟩ := Option.ite_none_right_eq_some.mp hstep
    have hctx := hwatched.closing hclosing
    refine ⟨⟨stage, hafter, hkeeps, hat.dials, hat.closes, hat.stops, ?_⟩, hwatched.context,
      nofun, fun _ => ⟨hctx, rfl⟩, fun _ => .inr (Nat.succ_pos _)⟩
    rw [← hat.absent, hclosing]
    exact ⟨nofun, nofun⟩

/-! ## What the goroutine can always do -/

/-- The goroutine alone goes on from `s` to `s'`. -/
def WatcherRun (cancellable : Bool) (s s' : CancellableCall α) : Prop :=
  ∃ acts, (∀ a ∈ acts, byWatcher a = true) ∧ acts.length ≤ 2 ∧
    Run (CancellableCall.step cancellable) (fun _ _ => True) s acts s'

/-- There is no goroutine, or it has ended. -/
def Quiet (s : CancellableCall α) : Prop := s.watcher = .absent ∨ s.watcher = .ended

/-- Once the context has ended the goroutine closes the connection, unless it ended before. -/
theorem watcher_closes (hctx : s.ctx.isSome = true)
    (h : s.watcher = .waiting ∨ s.watcher = .closing) :
    ∃ s', WatcherRun cancellable s s' ∧ 0 < s'.watcherCloses ∧ s'.Quiet := by
  rcases h with h | h
  · have hwake : step cancellable s (.wake true) = some { s with watcher := .closing } :=
      if_pos ⟨h, hctx⟩
    let closed : CancellableCall α :=
      { s with watcher := .ended, watcherCloses := s.watcherCloses + 1 }
    have hclose : step cancellable { s with watcher := .closing } .watcherClose = some closed := rfl
    refine ⟨closed, ⟨[.wake true, .watcherClose], by decide, Nat.le_refl _, ?_⟩, Nat.succ_pos _,
      .inr rfl⟩
    exact (Run.one trivial hwake).append (.one trivial hclose)
  · have hclose : step cancellable s .watcherClose =
        some { s with watcher := .ended, watcherCloses := s.watcherCloses + 1 } := if_pos h
    exact ⟨_, ⟨[.watcherClose], by decide, by decide, .one trivial hclose⟩, Nat.succ_pos _,
      .inr rfl⟩

/-- A goroutine whose `done` is closed can end. -/
theorem watcher_ends (h : s.Watched cancellable) (hstops : s.watcher ≠ .absent → 0 < s.stops) :
    ∃ s', WatcherRun cancellable s s' ∧ s'.Quiet := by
  have hnone : WatcherRun cancellable s s := ⟨[], by simp, by simp, .nil⟩
  cases hwatcher : s.watcher with
  | absent => exact ⟨s, hnone, .inl hwatcher⟩
  | ended => exact ⟨s, hnone, .inr hwatcher⟩
  | waiting =>
    have hwake : step cancellable s (.wake false) = some { s with watcher := .ended } :=
      if_pos ⟨hwatcher, hstops (by rw [hwatcher]; decide)⟩
    exact ⟨_, ⟨[.wake false], by decide, by decide, .one trivial hwake⟩, .inr rfl⟩
  | closing =>
    obtain ⟨s', hrun, -, hquiet⟩ := watcher_closes (h.closing hwatcher) (.inr hwatcher)
    exact ⟨s', hrun, hquiet⟩

end CancellableCall

/-! ## Runs -/

open CancellableCall

variable {α : Type}

theorem call_reachable {c : DirectoryClient} {call : MethodCall α} {cancellable : Bool}
    {acts : List CallAction} {s : CancellableCall α}
    (hrun : Run (step cancellable) (fun _ _ => True) (.start (call.program c)) acts s) :
    Ok cancellable s :=
  hrun.invariant (Ok cancellable) (ok_start (keeps_method c call)) fun _ _ _ hs _ hstep =>
    hs.step hstep

/-- For every method, whatever the server answers and in whatever order the method, the goroutine
    and the end of the context come: the method asks in the order of the protocol, so on an open
    connection; `done` is closed at most once; only for a context that has ended the goroutine
    closes the connection. When the method returns it has closed each connection that it made,
    once, and a goroutine that is left can end. If the context ends while the method waits for
    the server, the goroutine has closed the connection or can close it. -/
theorem ldap_call_cleans_up (c : DirectoryClient) (call : MethodCall α) {cancellable : Bool}
    {acts : List CallAction} {s : CancellableCall α}
    (hrun : Run (step cancellable) (fun _ _ => True) (.start (call.program c)) acts s) :
    (callProtocol.after .fresh s.history).isSome ∧ s.stops ≤ 1 ∧
      (0 < s.watcherCloses → s.ctx.isSome = true) ∧
      (∀ result, s.caller = .done result → s.closes = s.dials ∧
        ∃ s', WatcherRun cancellable s s' ∧ s'.Quiet) ∧
      (∀ q next, s.caller = .ask q next → atWork q = true → s.closes = 0 →
        s.ctx.isSome = true → ∃ s', WatcherRun cancellable s s' ∧ 0 < s'.watcherCloses) := by
  have hok := call_reachable hrun
  obtain ⟨stage, hafter, hkeeps, hat⟩ := hok.stands
  have hwatched := hok.watched
  refine ⟨by rw [hafter]; rfl, ?_, fun hcloses => (hwatched.closed hcloses).1,
    fun result hdone => ?_, fun q next hask hq hcloses hctx => ?_⟩
  · rw [hat.stops]
    split
    · cases stage <;> decide
    · exact Nat.zero_le _
  · rw [hdone] at hkeeps
    have hover : stage.Over := hkeeps
    refine ⟨?_, watcher_ends hwatched fun hpresent => ?_⟩
    · rw [hat.closes, hat.dials]
      rcases hover with rfl | rfl | rfl <;> rfl
    · -- a goroutine that has been started has been stopped
      have hstarted := mt hat.absent.mpr hpresent
      rw [Bool.not_eq_false, Bool.and_eq_true] at hstarted
      rw [hat.stops, if_pos hstarted.1]
      rcases hover with rfl | rfl | rfl
      · cases hstarted.2
      · cases hstarted.2
      · decide
  · rw [hask] at hkeeps
    have hstarted : stage.started = true ∧ stage.counts.2.2 = 0 := by
      rcases stage_atWork hq hkeeps with rfl | rfl
      · exact ⟨rfl, rfl⟩
      · cases hat.closes.symm.trans hcloses
    have hcancellable := hwatched.context hctx
    have hpresent : s.watcher ≠ .absent := by
      rw [ne_eq, hat.absent, hcancellable, hstarted.1]
      decide
    cases hwatcher : s.watcher with
    | absent => exact absurd hwatcher hpresent
    | waiting =>
      obtain ⟨s', hrun', hcloses', -⟩ := watcher_closes hctx (.inl hwatcher)
      exact ⟨s', hrun', hcloses'⟩
    | closing =>
      obtain ⟨s', hrun', hcloses', -⟩ := watcher_closes hctx (.inr hwatcher)
      exact ⟨s', hrun', hcloses'⟩
    | ended =>
      -- `done` is open, so it has ended for the context
      have hstops : s.stops = 0 := by
        rw [hat.stops, hstarted.2, ite_self]
      refine ⟨s, ⟨[], by simp, by simp, .nil⟩, ?_⟩
      rcases hwatched.ended hwatcher with h | h
      · omega
      · exact h

def lookupClient : DirectoryClient where
  schema := ⟨fun _ value => value, fun dn => [dn]⟩
  config :=
    { userBaseDN := "ou=people,dc=hpc"
      groupBaseDN := "ou=groups,dc=hpc"
      scheme := some "ldaps"
      allowInsecure := false
      provisionBindDN := ""
      provisionBindPassword := "" }
  escapeDN := id
  timeout := 3000000000
  maxResults := 20
  bindDN := "cn=reader,dc=hpc"
  bindPassword := "secret"
  escapeFilter := id

/-- A server that finds nothing. -/
def emptyServer : (q : CallQuestion) → CallAnswer q
  | .bind _ _ => .accepted
  | .search _ => ⟨[], none⟩
  | .sshaPassword _ => none
  | .dial | .contextErr | .add _ => none
  | .setTimeout _ | .watch | .stopCancellation | .close => ()

/-- The context ends while the method waits for its search. -/
def cutOffActs : List CallAction :=
  List.replicate 5 (.answer emptyServer) ++
    [.cancel "context canceled", .wake true, .watcherClose] ++
    List.replicate 4 (.answer emptyServer)

theorem cutOffActs_run : (exec (step true) (fun _ _ => true)
    (.start ((MethodCall.user "alice").program lookupClient)) cutOffActs).isSome := by
  decide +kernel

theorem ldap_call_cleans_up_cut_off :
    let s := (exec (step true) (fun _ _ => true)
      (.start ((MethodCall.user "alice").program lookupClient)) cutOffActs).get cutOffActs_run
    s.stops = 1 ∧ 0 < s.watcherCloses ∧ s.dials = 1 ∧ s.closes = s.dials := by
  have h := ldap_call_cleans_up lookupClient (.user "alice")
    ((run_exec_get cutOffActs_run).mono fun _ _ _ => trivial)
  have hdone : ((exec (step true) (fun _ _ => true)
      (.start ((MethodCall.user "alice").program lookupClient)) cutOffActs).get
        cutOffActs_run).caller = .done (.error "read LDAP user: context canceled") := by
    rfl
  exact ⟨by decide +kernel, by decide +kernel, by decide +kernel, (h.2.2.2.1 _ hdone).1⟩

end OpenHpcWeb.Ldap
