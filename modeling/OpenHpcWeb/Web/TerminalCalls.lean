/-
  The calls of the terminal store, the timers of its sessions and the handlers that stream them,
  all at the same time.

  What `Release`, `CloseUsername` and `Close` have taken out under the lock they then go
  through, without it, in the order in which `range` walked the map: they stop the timer of a
  session and close it. The timer runs `Release`, and the handler that streams a session closes
  it too. `terminalStep` lets any of these calls take its next step.

  The tokens of `randomToken` are assumed fresh (`FreshTokens`), as those of the logins are.

  History, which the code does not hold: the sessions that were added, with their owners, the
  claims that succeeded, and how often an operation of the store has closed a session.

  * `terminalStep_move`: what a step does to the store, to the sessions and to the history.
-/
import Mathlib.Logic.Function.Basic
import OpenHpcWeb.Lib.Run
import OpenHpcWeb.Web.TerminalStore

namespace OpenHpcWeb.Web

open OpenHpcWeb.Lib

/-! ## Calls and their steps -/

inductive TerminalCall where
  | add (owner : String) (token : Except String String)
  | claim (id owner : String)
  | release (id : String)
  | closeUsername (username : String)
  | close
  /-- the function of the session's timer -/
  | timer (id : String)
  /-- the handler that streams a session, when it closes it -/
  | stream (id : String)

/-- Where a call stands. -/
inductive CallPc where
  | start
  /-- the timer has fired -/
  | fired
  | added (result : Except String String)
  | claimed (ok : Bool)
  /-- these are to be closed; of `stopped` the timer is stopped, and it is closed next -/
  | closing (ids : List String) (stopped : Option String)
  | streamed

/-- The call has returned. -/
def CallPc.Finished : CallPc → Prop
  | .added _ | .claimed _ | .streamed => True
  | .closing ids stopped => ids = [] ∧ stopped = none
  | .start | .fired => False

/-- The call is still to close the session. -/
def CallPc.Closes (pc : CallPc) (id : String) : Prop :=
  match pc with
  | .closing ids stopped => id ∈ ids ∨ stopped = some id
  | _ => False

/-- The end of one session: its `sync.Once`, and how often its SSH session has been closed. -/
structure SessionEnd where
  once : Bool
  sshCloses : Nat
  /-- history: how often an operation of the store has closed it -/
  storeCloses : Nat

/-- `managedTerminalSession.Close`. -/
def SessionEnd.close (e : SessionEnd) : SessionEnd :=
  if e.once then e else { e with once := true, sshCloses := e.sshCloses + 1 }

/-- The same by an operation of the store. -/
def SessionEnd.storeClose (e : SessionEnd) : SessionEnd :=
  { e.close with storeCloses := e.storeCloses + 1 }

@[simp] theorem SessionEnd.close_once (e : SessionEnd) : e.close.once = true := by
  unfold SessionEnd.close
  split
  · assumption
  · rfl

@[simp] theorem SessionEnd.close_storeCloses (e : SessionEnd) :
    e.close.storeCloses = e.storeCloses := by
  unfold SessionEnd.close
  split <;> rfl

/-- The first close closes the SSH session, and no other does. -/
theorem SessionEnd.close_sshCloses {e : SessionEnd} (h : e.sshCloses = if e.once then 1 else 0) :
    e.close.sshCloses = 1 := by
  unfold SessionEnd.close
  split
  · next honce =>
    rw [h, if_pos honce]
  · next honce =>
    simp [h, honce]

structure TerminalState (T : Type) where
  store : TerminalSessionStore
  pc : T → CallPc
  /-- the timers that will fire -/
  timers : List String
  ends : String → SessionEnd
  /-- history: the sessions that were added, with their owners -/
  added : List (String × String)
  /-- history: the claims that succeeded, with their callers -/
  claims : List (String × String)

variable {T : Type}

def TerminalState.start : TerminalState T :=
  ⟨.empty, fun _ => .start, [], fun _ => ⟨false, 0, 0⟩, [], []⟩

inductive TerminalAction (T : Type) where
  /-- the section of the call under the lock -/
  | lock (t : T)
  /-- the timer fires -/
  | fire (t : T)
  | stop (t : T) (id : String)
  | close (t : T)
  | stream (t : T)

section Step

variable [DecidableEq T] (calls : T → TerminalCall)

def TerminalState.setPc (s : TerminalState T) (t : T) (pc : CallPc) : TerminalState T :=
  { s with pc := Function.update s.pc t pc }

/-- A call has taken sessions out of the store and goes on to close them. -/
def TerminalState.take (s : TerminalState T) (t : T)
    (taken : List String × TerminalSessionStore) : TerminalState T :=
  { s.setPc t (.closing taken.1 none) with store := taken.2 }

/-- `Add`, which arms the timer of the session. -/
def TerminalState.add (s : TerminalState T) (t : T) (owner : String)
    (token : Except String String) : TerminalState T :=
  let called := s.store.add owner token
  match called.1 with
  | .error err => s.setPc t (.added (.error err))
  | .ok id =>
    { s.setPc t (.added (.ok id)) with
      store := called.2
      timers := id :: s.timers
      added := s.added ++ [(id, owner)] }

def TerminalState.claim (s : TerminalState T) (t : T) (id owner : String) : TerminalState T :=
  let called := s.store.claim id owner
  { s.setPc t (.claimed called.1) with
    store := called.2
    claims := if called.1 then s.claims ++ [(id, owner)] else s.claims }

def terminalStep (s : TerminalState T) : TerminalAction T → Option (TerminalState T)
  | .lock t =>
    match s.pc t, calls t with
    | .start, .add owner token => some (s.add t owner token)
    | .start, .claim id owner => some (s.claim t id owner)
    | .start, .release id => some (s.take t (s.store.release id))
    | .start, .closeUsername username => some (s.take t (s.store.closeUsername username))
    | .start, .close => some (s.take t s.store.close)
    | .fired, .timer id => some (s.take t (s.store.release id))
    | _, _ => none
  | .fire t =>
    match s.pc t, calls t with
    | .start, .timer id =>
      if id ∈ s.timers then some { s.setPc t .fired with timers := s.timers.filter (· ≠ id) }
      else none
    | _, _ => none
  | .stop t id =>
    match s.pc t with
    | .closing ids none =>
      if id ∈ ids then
        some { s.setPc t (.closing (ids.erase id) (some id)) with
          timers := s.timers.filter (· ≠ id) }
      else none
    | _ => none
  | .close t =>
    match s.pc t with
    | .closing ids (some id) =>
      some { s.setPc t (.closing ids none) with
        ends := Function.update s.ends id (s.ends id).storeClose }
    | _ => none
  | .stream t =>
    match s.pc t, calls t with
    | .start, .stream id =>
      if id ∈ s.claims.map Prod.fst then
        some { s.setPc t .streamed with ends := Function.update s.ends id (s.ends id).close }
      else none
    | _, _ => none

/-- The tokens of `randomToken` are fresh. -/
def FreshTokens (s : TerminalState T) : TerminalAction T → Prop
  | .lock t => ∀ owner id, calls t = .add owner (.ok id) → id ∉ s.added.map Prod.fst
  | _ => True

end Step

/-! ## What a step does -/

/-- Some call is still to close the session. -/
def TerminalState.Pending (s : TerminalState T) (id : String) : Prop := ∃ t, (s.pc t).Closes id

variable {s s' : TerminalState T}

/-- What a step does to the store, to the sessions and to the history. -/
inductive TerminalMove (s s' : TerminalState T) : Prop
  | quiet (store : s'.store = s.store) (ends : s'.ends = s.ends) (added : s'.added = s.added)
      (claims : s'.claims = s.claims) (pending : ∀ id, s'.Pending id ↔ s.Pending id)
  | add (id owner : String) (fresh : id ∉ s.added.map Prod.fst)
      (room : s.store.sessions.length < maxTerminalSessions)
      (userRoom : s.store.userSessions owner < maxTerminalSessionsPerUser)
      (store : s'.store = s.store.set id ⟨owner, false⟩) (ends : s'.ends = s.ends)
      (added : s'.added = s.added ++ [(id, owner)]) (claims : s'.claims = s.claims)
      (pending : ∀ id, s'.Pending id ↔ s.Pending id)
  | claim (id owner : String) (unclaimed : (id, ⟨owner, false⟩) ∈ s.store.sessions)
      (store : s'.store = (s.store.claim id owner).2) (ends : s'.ends = s.ends)
      (added : s'.added = s.added) (claims : s'.claims = s.claims ++ [(id, owner)])
      (pending : ∀ id, s'.Pending id ↔ s.Pending id)
  | take (p : String × ManagedTerminalSession → Bool) (store : s'.store = s.store.without p)
      (ends : s'.ends = s.ends) (added : s'.added = s.added) (claims : s'.claims = s.claims)
      (pending : ∀ id, s'.Pending id ↔ s.Pending id ∨ id ∈ (s.store.takeOut p).1)
  | close (id : String) (was : s.Pending id) (store : s'.store = s.store)
      (ends : s'.ends = Function.update s.ends id (s.ends id).storeClose)
      (added : s'.added = s.added) (claims : s'.claims = s.claims)
      (fewer : ∀ id', s'.Pending id' → s.Pending id')
      (others : ∀ id', s.Pending id' → s'.Pending id' ∨ id' = id)
  | stream (id : String) (claimed : id ∈ s.claims.map Prod.fst) (store : s'.store = s.store)
      (ends : s'.ends = Function.update s.ends id (s.ends id).close) (added : s'.added = s.added)
      (claims : s'.claims = s.claims) (pending : ∀ id, s'.Pending id ↔ s.Pending id)

/-- Claims stay recorded. -/
theorem TerminalMove.claims_mono (hmove : TerminalMove s s') : s.claims ⊆ s'.claims := by
  cases hmove with
  | quiet _ _ _ claims => rw [claims]; exact List.Subset.refl _
  | add _ _ _ _ _ _ _ _ claims => rw [claims]; exact List.Subset.refl _
  | claim _ _ _ _ _ _ claims => rw [claims]; exact List.subset_append_left _ _
  | take _ _ _ _ claims => rw [claims]; exact List.Subset.refl _
  | close _ _ _ _ _ claims => rw [claims]; exact List.Subset.refl _
  | stream _ _ _ _ _ claims => rw [claims]; exact List.Subset.refl _

section Step

variable [DecidableEq T] {calls : T → TerminalCall} {s s' : TerminalState T} {t : T} {id : String}

/-- Who closes what, after the call `t` has moved on. -/
theorem pending_iff (hpc : ∀ t', t' ≠ t → s'.pc t' = s.pc t') : s'.Pending id ↔
    (s'.pc t).Closes id ∨ ∃ t', t' ≠ t ∧ (s.pc t').Closes id := by
  constructor
  · rintro ⟨t', h⟩
    by_cases ht : t' = t
    · exact .inl (ht ▸ h)
    · exact .inr ⟨t', ht, hpc t' ht ▸ h⟩
  · rintro (h | ⟨t', ht, h⟩)
    · exact ⟨t, h⟩
    · exact ⟨t', (hpc t' ht).symm ▸ h⟩

/-- A call that closes nothing before and after its step leaves the others to close theirs. -/
theorem pending_same (hpc : ∀ t', t' ≠ t → s'.pc t' = s.pc t')
    (hclosing : (s'.pc t).Closes id ↔ (s.pc t).Closes id) : s'.Pending id ↔ s.Pending id := by
  rw [pending_iff hpc, pending_iff (fun _ _ => rfl), hclosing]

theorem setPc_others (s : TerminalState T) (t : T) (pc : CallPc) :
    ∀ t', t' ≠ t → (s.setPc t pc).pc t' = s.pc t' := fun _ ht => Function.update_of_ne ht _ _

theorem setPc_self (s : TerminalState T) (t : T) (pc : CallPc) : (s.setPc t pc).pc t = pc :=
  Function.update_self _ _ _

theorem take_move {p : String × ManagedTerminalSession → Bool} {pc : CallPc} (hpc : s.pc t = pc)
    (hnone : ∀ id, ¬ pc.Closes id) : TerminalMove s (s.take t (s.store.takeOut p)) := by
  refine .take p rfl rfl rfl rfl fun id => ?_
  have hothers : ∀ t', t' ≠ t → (s.take t (s.store.takeOut p)).pc t' = s.pc t' :=
    setPc_others s t _
  have hself : ((s.take t (s.store.takeOut p)).pc t).Closes id ↔ id ∈ (s.store.takeOut p).1 := by
    simp [TerminalState.take, setPc_self, CallPc.Closes]
  have hbefore : s.Pending id ↔ (s.pc t).Closes id ∨ ∃ t', t' ≠ t ∧ (s.pc t').Closes id :=
    pending_iff fun _ _ => rfl
  rw [pending_iff hothers, hself, hbefore, hpc, or_comm]
  simp [hnone id]

theorem add_move {owner : String} {token : Except String String} (hpc : s.pc t = .start)
    (hfresh : ∀ id, token = .ok id → id ∉ s.added.map Prod.fst) :
    TerminalMove s (s.add t owner token) := by
  have hpending : ∀ result id, (s.setPc t (.added result)).Pending id ↔ s.Pending id := by
    intro result id
    refine pending_same (setPc_others s t _) ?_
    simp [setPc_self, hpc, CallPc.Closes]
  unfold TerminalState.add
  cases hadd : (s.store.add owner token).1 with
  | error err =>
    simp only [hadd]
    exact .quiet rfl rfl rfl rfl (hpending _)
  | ok id =>
    obtain ⟨htoken, hroom, huser, hstore⟩ := TerminalSessionStore.add_ok hadd
    simp only [hadd]
    exact .add id owner (hfresh id htoken) hroom huser hstore rfl rfl rfl (hpending _)

theorem claim_move {owner : String} (hpc : s.pc t = .start) :
    TerminalMove s (s.claim t id owner) := by
  have hpending : ∀ ok id, (s.setPc t (.claimed ok)).Pending id ↔ s.Pending id := by
    intro ok id
    refine pending_same (setPc_others s t _) ?_
    simp [setPc_self, hpc, CallPc.Closes]
  unfold TerminalState.claim
  cases hclaim : (s.store.claim id owner).1 with
  | false =>
    simp only [hclaim]
    exact .quiet (TerminalSessionStore.claim_false hclaim) rfl rfl rfl (hpending _)
  | true =>
    simp only [hclaim]
    exact .claim id owner (TerminalSessionStore.claim_eq_true_iff.mp hclaim) rfl rfl rfl rfl
      (hpending _)

theorem close_move {ids : List String} (hpc : s.pc t = .closing ids (some id)) :
    TerminalMove s { s.setPc t (.closing ids none) with
      ends := Function.update s.ends id (s.ends id).storeClose } := by
  have hbefore : ∀ id', (s.pc t).Closes id' ↔ id' ∈ ids ∨ id' = id := by
    intro id'
    rw [hpc]
    simp [CallPc.Closes, eq_comm]
  have hafter : ∀ id', ((s.setPc t (.closing ids none)).pc t).Closes id' ↔ id' ∈ ids := by
    intro id'
    simp [setPc_self, CallPc.Closes]
  have hothers := setPc_others s t (.closing ids none)
  refine .close id ⟨t, (hbefore id).mpr (.inr rfl)⟩ rfl rfl rfl rfl ?_ ?_
  · intro id' h
    rcases (pending_iff hothers).mp h with h | ⟨t', -, h⟩
    · exact ⟨t, (hbefore id').mpr (.inl ((hafter id').mp h))⟩
    · exact ⟨t', h⟩
  · intro id' h
    rcases (pending_iff (fun _ _ => rfl)).mp h with h | ⟨t', ht, h⟩
    · refine ((hbefore id').mp h).imp_left fun hmem => ⟨t, (hafter id').mpr hmem⟩
    · exact .inl ((pending_iff hothers).mpr (.inr ⟨t', ht, h⟩))

theorem terminalStep_move {a : TerminalAction T} (hok : FreshTokens calls s a)
    (hstep : terminalStep calls s a = some s') : TerminalMove s s' := by
  cases a with
  | lock t =>
    simp only [terminalStep] at hstep
    split at hstep
    · next owner token hpc hcall =>
      cases hstep
      exact add_move hpc fun id htoken => hok owner id (by rw [hcall, htoken])
    · next id owner hpc _ =>
      cases hstep
      exact claim_move hpc
    · next id hpc _ =>
      cases hstep
      exact take_move hpc fun _ h => h
    · next username hpc _ =>
      cases hstep
      exact take_move hpc fun _ h => h
    · next hpc _ =>
      cases hstep
      exact take_move hpc fun _ h => h
    · next id hpc _ =>
      cases hstep
      exact take_move hpc fun _ h => h
    · cases hstep
  | fire t =>
    simp only [terminalStep] at hstep
    split at hstep
    · next id hpc _ =>
      split at hstep
      · cases hstep
        refine .quiet rfl rfl rfl rfl fun id' => pending_same (setPc_others s t .fired) ?_
        simp [setPc_self, hpc, CallPc.Closes]
      · cases hstep
    · cases hstep
  | stop t id =>
    simp only [terminalStep] at hstep
    split at hstep
    · next ids hpc =>
      split at hstep
      · next hmem =>
        cases hstep
        refine .quiet rfl rfl rfl rfl fun id' => pending_same (setPc_others s t _) ?_
        rw [setPc_self, hpc]
        simp only [CallPc.Closes, Option.some.injEq, reduceCtorEq, or_false]
        by_cases hid : id' = id
        · simp [hid, hmem]
        · simp [List.mem_erase_of_ne hid, Ne.symm hid]
      · cases hstep
    · cases hstep
  | close t =>
    simp only [terminalStep] at hstep
    split at hstep
    · next ids id hpc =>
      cases hstep
      exact close_move hpc
    · cases hstep
  | stream t =>
    simp only [terminalStep] at hstep
    split at hstep
    · next id hpc _ =>
      split at hstep
      · next hclaimed =>
        cases hstep
        refine .stream id hclaimed rfl rfl rfl rfl fun id' =>
          pending_same (setPc_others s t .streamed) ?_
        simp [setPc_self, hpc, CallPc.Closes]
      · cases hstep
    · cases hstep

end Step

end OpenHpcWeb.Web
