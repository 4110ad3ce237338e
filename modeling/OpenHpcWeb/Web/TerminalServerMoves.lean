/-
  What a step of the terminal server does.

  * `TerminalServerMove`: the steps, each with what it changes and what it leaves.
  * `terminalServerStep_move`: every step is one of them.
-/
import OpenHpcWeb.Web.TerminalServer

namespace OpenHpcWeb.Web

open OpenHpcWeb.Go OpenHpcWeb.Lib OpenHpcWeb.Platform

variable {I J : Type}

/-! ## What a request has in hand -/

namespace CreateTerminalPc

def identity : CreateTerminalPc → Option Principal
  | .authenticated identity | .opened identity | .refused identity | .added identity _ =>
    some identity
  | _ => none

/-- The handler has an SSH session that is not in the store. -/
def holds : CreateTerminalPc → Bool
  | .opened _ | .refused _ => true
  | _ => false

/-- `Add` is behind it, or the request is answered. -/
def past : CreateTerminalPc → Bool
  | .added _ _ | .unrecorded _ | .releasing _ | .finished _ => true
  | _ => false

/-- The session it has added, as long as it deals with it. -/
def ids : CreateTerminalPc → List String
  | .added _ id | .unrecorded id => [id]
  | .releasing ids => ids
  | _ => []

/-- The sessions it is to close next. -/
def closing : CreateTerminalPc → List String
  | .releasing ids => ids
  | _ => []

end CreateTerminalPc

def CleanupPc.ids : CleanupPc → List String
  | .closing _ ids => ids
  | _ => []

/-- What the cleanup has taken out covers the user. -/
def Covers (target : Option String) (username : String) : Prop :=
  target = none ∨ target = some username

/-- The tokens of `randomToken` are fresh. -/
def FreshIds (q : TerminalRequests I J) (s : TerminalServer I J) :
    TerminalServerAction I J → Prop
  | .create i => ∀ identity id, s.create i = .opened identity → (q.creates i).token = .ok id →
      s.maker id = none
  | _ => True

/-! ## What a step does -/

/-- The history and the store stay. -/
structure TerminalServer.Same (s s' : TerminalServer I J) : Prop where
  store : s'.store = s.store
  maker : s'.maker = s.maker
  owner : s'.owner = s.owner
  since : s'.since = s.since
  target : s'.target = s.target

theorem TerminalServer.Same.trans {s₁ s₂ s₃ : TerminalServer I J}
    (h : s₁.Same s₂)
    (h' : s₂.Same s₃) : s₁.Same s₃ :=
  ⟨h'.store.trans h.store, h'.maker.trans h.maker, h'.owner.trans h.owner,
    h'.since.trans h.since, h'.target.trans h.target⟩

section Close

variable [DecidableEq I]

theorem closeSession_same (s : TerminalServer I J) (id : String) :
    s.Same (s.closeSession id) ∧ (s.closeSession id).create = s.create ∧
      (s.closeSession id).cleanup = s.cleanup := by
  unfold TerminalServer.closeSession
  cases s.maker id with
  | none => exact ⟨⟨rfl, rfl, rfl, rfl, rfl⟩, rfl, rfl⟩
  | some k => exact ⟨⟨rfl, rfl, rfl, rfl, rfl⟩, rfl, rfl⟩

theorem closeSession_isOpen (s : TerminalServer I J) (id : String) (k : I)
    (h : (s.closeSession id).isOpen k = true) : s.isOpen k = true ∧ s.maker id ≠ some k := by
  unfold TerminalServer.closeSession at h
  cases hmaker : s.maker id with
  | none =>
    rw [hmaker] at h
    exact ⟨h, by simp⟩
  | some k' =>
    simp only [hmaker] at h
    by_cases hk : k = k'
    · rw [hk, Function.update_self] at h
      cases h
    · rw [Function.update_of_ne hk] at h
      exact ⟨h, fun heq => hk (Option.some.inj heq).symm⟩

/-- The loop over the sessions that a create releases. -/
theorem closeSessions_spec (ids : List String) (s : TerminalServer I J) :
    s.Same (ids.foldl TerminalServer.closeSession s) ∧
    (ids.foldl TerminalServer.closeSession s).create = s.create ∧
    (ids.foldl TerminalServer.closeSession s).cleanup = s.cleanup ∧
    ∀ k, (ids.foldl TerminalServer.closeSession s).isOpen k = true →
      s.isOpen k = true ∧ ∀ id ∈ ids, s.maker id ≠ some k := by
  induction ids generalizing s with
  | nil => exact ⟨⟨rfl, rfl, rfl, rfl, rfl⟩, rfl, rfl, fun k h => ⟨h, by simp⟩⟩
  | cons id ids ih =>
    obtain ⟨hsame, hcreate, hcleanup⟩ := closeSession_same s id
    obtain ⟨hsame', hcreate', hcleanup', hopen⟩ := ih (s.closeSession id)
    refine ⟨hsame.trans hsame', hcreate'.trans hcreate, hcleanup'.trans hcleanup, fun k hk => ?_⟩
    obtain ⟨hbefore, hothers⟩ := hopen k hk
    obtain ⟨hwas, hne⟩ := closeSession_isOpen s id k hbefore
    refine ⟨hwas, fun id' hid' => ?_⟩
    rcases List.mem_cons.mp hid' with rfl | hid'
    · exact hne
    · have hmaker := hothers id' hid'
      rwa [hsame.maker] at hmaker

end Close

section Step

variable [DecidableEq I] [DecidableEq J]

/-- What a step does, to whom. -/
inductive TerminalServerMove (q : TerminalRequests I J) (a : TerminalServerAction I J)
    (s s' : TerminalServer I J) : Prop
  /-- a cleanup on its way, or another request -/
  | pass (same : s.Same s') (create : s'.create = s.create) (isOpen : s'.isOpen = s.isOpen)
      (ids : ∀ j, (s'.cleanup j).ids = (s.cleanup j).ids)
  | authenticate (i : I) (identity : Principal) (pc : s.create i = .start)
      (store : s'.store = s.store) (maker : s'.maker = s.maker) (target : s'.target = s.target)
      (owner : s'.owner = Function.update s.owner i (some identity.username))
      (since : ∀ k, k ≠ i → s'.since k = s.since k)
      (create : s'.create = Function.update s.create i (.authenticated identity))
      (cleanup : s'.cleanup = s.cleanup) (isOpen : s'.isOpen = s.isOpen)
  /-- a create that goes on with what it has in hand, or is refused before it has anything -/
  | proceed (i : I) (pc : CreateTerminalPc) (same : s.Same s')
      (create : s'.create = Function.update s.create i pc) (cleanup : s'.cleanup = s.cleanup)
      (isOpen : s'.isOpen = s.isOpen) (past : (s.create i).past = true → pc.past = true)
      (identity : ∀ p, pc.identity = some p → (s.create i).identity = some p)
      (holds : (s.create i).holds = true → pc.holds = true)
      (ids : ∀ id, id ∈ pc.ids → id ∈ (s.create i).ids)
      (closing : pc.closing = [] ∧ (s.create i).closing = [])
  | connect (i : I) (identity : Principal) (pc : s.create i = .authenticated identity)
      (same : s.Same s') (create : s'.create = Function.update s.create i (.opened identity))
      (cleanup : s'.cleanup = s.cleanup) (isOpen : s'.isOpen = Function.update s.isOpen i true)
  | add (i : I) (identity : Principal) (id : String) (action : a = .create i)
      (pc : s.create i = .opened identity)
      (token : (q.creates i).token = .ok id) (fresh : s.maker id = none)
      (room : s.store.sessions.length < maxTerminalSessions)
      (userRoom : s.store.userSessions identity.username < maxTerminalSessionsPerUser)
      (store : s'.store = s.store.set id ⟨identity.username, false⟩)
      (maker : s'.maker = Function.update s.maker id (some i)) (owner : s'.owner = s.owner)
      (since : s'.since = s.since) (target : s'.target = s.target)
      (create : s'.create = Function.update s.create i (.added identity id))
      (cleanup : s'.cleanup = s.cleanup) (isOpen : s'.isOpen = s.isOpen)
  | refuse (i : I) (identity : Principal) (answer : Answer TerminalAnswer)
      (pc : s.create i = .refused identity) (same : s.Same s')
      (create : s'.create = Function.update s.create i (.finished answer))
      (cleanup : s'.cleanup = s.cleanup) (isOpen : s'.isOpen = Function.update s.isOpen i false)
  | release (i : I) (id : String) (pc : s.create i = .unrecorded id)
      (store : s'.store = s.store.without fun entry => entry.1 = id) (maker : s'.maker = s.maker)
      (owner : s'.owner = s.owner) (since : s'.since = s.since) (target : s'.target = s.target)
      (create : s'.create = Function.update s.create i
        (.releasing (s.store.takeOut fun entry => entry.1 = id).1))
      (cleanup : s'.cleanup = s.cleanup) (isOpen : s'.isOpen = s.isOpen)
  | released (i : I) (ids : List String) (answer : Answer TerminalAnswer)
      (pc : s.create i = .releasing ids) (same : s.Same s')
      (create : s'.create = Function.update s.create i (.finished answer))
      (cleanup : s'.cleanup = s.cleanup)
      (isOpen : ∀ k, s'.isOpen k = true → s.isOpen k = true ∧ ∀ id ∈ ids, s.maker id ≠ some k)
  | take (j : J) (actor : Option Principal) (target : Option String)
      (p : String × ManagedTerminalSession → Bool)
      (covers : ∀ entry, p entry = false → ¬ Covers target entry.2.owner)
      (pc : (s.cleanup j).ids = []) (store : s'.store = s.store.without p)
      (maker : s'.maker = s.maker) (owner : s'.owner = s.owner) (since : s'.since = s.since)
      (targets : s'.target = Function.update s.target j (some target))
      (create : s'.create = s.create)
      (cleanup : s'.cleanup = Function.update s.cleanup j (.closing actor (s.store.takeOut p).1))
      (isOpen : s'.isOpen = s.isOpen)
  | close (j : J) (actor : Option Principal) (ids : List String) (id : String)
      (pc : s.cleanup j = .closing actor ids) (same : s.Same s') (create : s'.create = s.create)
      (cleanup : s'.cleanup = Function.update s.cleanup j (.closing actor (ids.erase id)))
      (isOpen : ∀ k, s'.isOpen k = true → s.isOpen k = true ∧ s.maker id ≠ some k)

variable {q : TerminalRequests I J} {a : TerminalServerAction I J} {s s' : TerminalServer I J}

/-- A step that leaves the history, the store and the sessions is one of a create alone. -/
theorem proceed_move (i : I) (pc : CreateTerminalPc) (world : LoginWorld)
    (past : (s.create i).past = true → pc.past = true)
    (identity : ∀ p, pc.identity = some p → (s.create i).identity = some p)
    (holds : (s.create i).holds = true → pc.holds = true)
    (ids : ∀ id, id ∈ pc.ids → id ∈ (s.create i).ids)
    (closing : pc.closing = [] ∧ (s.create i).closing = []) :
    TerminalServerMove q a s { s.setCreate i pc with world := world } :=
  .proceed i pc ⟨rfl, rfl, rfl, rfl, rfl⟩ rfl rfl rfl past identity holds ids closing

/-- A create that is answered before it has an SSH session. -/
theorem reject_move (i : I) (answer : Answer TerminalAnswer) (world : LoginWorld)
    (hpc : s.create i = .start ∨ ∃ identity, s.create i = .authenticated identity) :
    TerminalServerMove q a s { s.setCreate i (.finished answer) with world := world } := by
  apply proceed_move
  · intro _
    rfl
  · intro p h
    cases h
  · rcases hpc with hpc | ⟨identity, hpc⟩ <;> simp [hpc, CreateTerminalPc.holds]
  · intro id h
    cases h
  · rcases hpc with hpc | ⟨identity, hpc⟩ <;> simp [hpc, CreateTerminalPc.closing]

theorem authenticate_move {i : I} (hpc : s.create i = .start) (r : TerminalRequest) :
    TerminalServerMove q a s (authenticateTerminal s i r) := by
  unfold authenticateTerminal
  simp only
  split
  · next identity _ =>
    exact .authenticate i identity hpc rfl rfl rfl rfl
      (fun k hk => Function.update_of_ne hk _ _) rfl rfl rfl
  · exact reject_move i _ s.world (.inl hpc)
  · split
    · exact reject_move i _ s.world (.inl hpc)
    · exact reject_move i _ _ (.inl hpc)

theorem open_move {i : I} {identity : Principal} (hpc : s.create i = .authenticated identity)
    (available : Bool) (r : TerminalRequest) :
    TerminalServerMove q a s (openTerminal available s i r identity) := by
  unfold openTerminal
  split
  · exact reject_move i _ s.world (.inr ⟨identity, hpc⟩)
  · split
    · exact reject_move i _ s.world (.inr ⟨identity, hpc⟩)
    · cases r.openErr with
      | some err => exact reject_move i _ _ (.inr ⟨identity, hpc⟩)
      | none => exact .connect i identity hpc ⟨rfl, rfl, rfl, rfl, rfl⟩ rfl rfl rfl

theorem addTerminal_move {i : I} {identity : Principal} (hpc : s.create i = .opened identity)
    (hfresh : FreshIds q s (.create i)) :
    TerminalServerMove q (.create i) s (addTerminal s i (q.creates i) identity) := by
  unfold addTerminal
  cases hadd : (s.store.add identity.username (q.creates i).token).1 with
  | error err =>
    simp only [hadd]
    refine proceed_move i (.refused identity) s.world ?_ ?_ ?_ ?_ ?_
    · simp [hpc, CreateTerminalPc.past]
    · simp [hpc, CreateTerminalPc.identity]
    · simp [CreateTerminalPc.holds]
    · simp [CreateTerminalPc.ids]
    · simp [hpc, CreateTerminalPc.closing]
  | ok id =>
    obtain ⟨htoken, hroom, huser, hstore⟩ := TerminalSessionStore.add_ok hadd
    simp only [hadd]
    exact .add i identity id rfl hpc htoken (hfresh identity id hpc htoken) hroom huser hstore
      rfl rfl rfl rfl rfl rfl rfl

theorem createStep_move {i : I} (hfresh : FreshIds q s (.create i))
    (hstep : createStep q.terminalClient s i (q.creates i) = some s') :
    TerminalServerMove q (.create i) s s' := by
  cases hpc : s.create i with
  | start =>
    simp only [createStep, hpc, Option.some.injEq] at hstep
    subst hstep
    exact authenticate_move hpc _
  | authenticated identity =>
    simp only [createStep, hpc, Option.some.injEq] at hstep
    subst hstep
    exact open_move hpc _ _
  | opened identity =>
    simp only [createStep, hpc, Option.some.injEq] at hstep
    subst hstep
    exact addTerminal_move hpc hfresh
  | refused identity =>
    simp only [createStep, hpc, Option.some.injEq] at hstep
    subst hstep
    exact .refuse i identity _ hpc ⟨rfl, rfl, rfl, rfl, rfl⟩ rfl rfl rfl
  | added identity id =>
    simp only [createStep, hpc] at hstep
    cases haudit : (q.creates i).auditFault with
    | some err =>
      simp only [haudit, Option.some.injEq] at hstep
      subst hstep
      refine proceed_move i (.unrecorded id) s.world ?_ ?_ ?_ ?_ ?_
      · simp [CreateTerminalPc.past]
      · simp [CreateTerminalPc.identity]
      · simp [hpc, CreateTerminalPc.holds]
      · simp [hpc, CreateTerminalPc.ids]
      · simp [hpc, CreateTerminalPc.closing]
    | none =>
      simp only [haudit, Option.some.injEq] at hstep
      subst hstep
      refine proceed_move i (.finished _) _ ?_ ?_ ?_ ?_ ?_
      · simp [CreateTerminalPc.past]
      · simp [CreateTerminalPc.identity]
      · simp [hpc, CreateTerminalPc.holds]
      · simp [CreateTerminalPc.ids]
      · simp [hpc, CreateTerminalPc.closing]
  | unrecorded id =>
    simp only [createStep, hpc, Option.some.injEq] at hstep
    subst hstep
    exact .release i id hpc rfl rfl rfl rfl rfl rfl rfl rfl
  | releasing ids =>
    simp only [createStep, hpc, Option.some.injEq] at hstep
    subst hstep
    obtain ⟨hsame, hcreate, hcleanup, hopen⟩ := closeSessions_spec ids s
    refine .released i ids (.handled (.httpError 503)) hpc
      ⟨hsame.store, hsame.maker, hsame.owner, hsame.since, hsame.target⟩ ?_ hcleanup hopen
    simp only [TerminalServer.setCreate, hcreate]
  | finished answer =>
    simp only [createStep, hpc] at hstep
    cases hstep

/-- A cleanup that goes on without sessions in hand, before and after. -/
theorem pass_move {j : J} (pc : CleanupPc) (world : LoginWorld) (hbefore : (s.cleanup j).ids = [])
    (hafter : pc.ids = []) :
    TerminalServerMove q a s { s.setCleanup j pc with world := world } := by
  refine .pass ⟨rfl, rfl, rfl, rfl, rfl⟩ rfl rfl fun k => ?_
  by_cases hk : k = j
  · rw [hk, hbefore]
    simp [TerminalServer.setCleanup, hafter]
  · simp [TerminalServer.setCleanup, hk]

theorem logout_move {j : J} (hpc : s.cleanup j = .start) (r : LogoutRequest) :
    TerminalServerMove q a s (authenticateLogout s j r) := by
  have hbefore : (s.cleanup j).ids = [] := by rw [hpc]; rfl
  unfold authenticateLogout
  simp only
  split
  · exact pass_move _ s.world hbefore rfl
  · exact pass_move _ s.world hbefore rfl
  · split
    · exact pass_move _ s.world hbefore rfl
    · exact pass_move _ _ hbefore rfl

theorem status_move {j : J} {r : StatusRequest} {pc : StatusPc} (hpc : s.cleanup j = .status pc)
    (hstep : statusStep s j r pc = some s') : TerminalServerMove q a s s' := by
  have hbefore : (s.cleanup j).ids = [] := by rw [hpc]; rfl
  obtain ⟨next, -, rfl⟩ := Option.map_eq_some_iff.mp hstep
  cases pc with
  | toRevoke actor username => exact pass_move _ _ hbefore rfl
  | _ => exact pass_move _ _ hbefore rfl

/-- What `CloseUsername` and `Close` leave in the store is of other users. -/
theorem takeTerminals_move {j : J} {actor : Option Principal} {target : Option String}
    (hpc : s.cleanup j = .toTake actor target) :
    TerminalServerMove q a s (takeTerminals s j actor target) := by
  have hbefore : (s.cleanup j).ids = [] := by rw [hpc]; rfl
  unfold takeTerminals
  cases target with
  | none =>
    refine .take j actor none (fun _ => true) ?_ hbefore rfl rfl rfl rfl rfl rfl rfl rfl
    intro entry h
    cases h
  | some username =>
    refine .take j actor (some username) (fun entry => entry.2.owner = username) ?_ hbefore rfl rfl
      rfl rfl rfl rfl rfl rfl
    rintro entry h (hnone | hsome)
    · cases hnone
    · cases hsome
      simp at h

theorem cleanupStep_move {j : J} (hstep : cleanupStep s j (q.cleanups j) = some s') :
    TerminalServerMove q a s s' := by
  unfold cleanupStep at hstep
  split at hstep
  · next hpc _ =>
    cases hstep
    exact logout_move hpc _
  · next hpc _ =>
    cases hstep
    exact pass_move _ s.world (by rw [hpc]; rfl) rfl
  · next hpc _ => exact status_move hpc hstep
  · next hpc =>
    cases hstep
    exact takeTerminals_move hpc
  · next hpc =>
    cases hstep
    refine pass_move _ s.world (by rw [hpc]; rfl) ?_
    unfold afterClosing
    split <;> rfl
  · next hpc _ =>
    simp only at hstep
    split at hstep
    · cases hstep
      exact pass_move _ s.world (by rw [hpc]; rfl) rfl
    · cases hstep
      exact pass_move _ _ (by rw [hpc]; rfl) rfl
  · next hpc _ =>
    cases hstep
    exact pass_move _ _ (by rw [hpc]; rfl) rfl
  · cases hstep

theorem terminalServerStep_move (hfresh : FreshIds q s a)
    (hstep : terminalServerStep q s a = some s') : TerminalServerMove q a s s' := by
  cases a with
  | create i => exact createStep_move hfresh hstep
  | cleanup j => exact cleanupStep_move hstep
  | close j id =>
    simp only [terminalServerStep] at hstep
    split at hstep
    · next actor ids hpc =>
      split at hstep
      · cases hstep
        obtain ⟨hsame, hcreate, hcleanup⟩ := closeSession_same s id
        refine .close j actor ids id hpc ⟨hsame.store, hsame.maker, hsame.owner, hsame.since,
          hsame.target⟩ hcreate ?_ (closeSession_isOpen s id)
        simp only [TerminalServer.setCleanup, hcleanup]
      · cases hstep
    · cases hstep
  | other op =>
    obtain ⟨auth, -, rfl⟩ := Option.map_eq_some_iff.mp hstep
    exact .pass ⟨rfl, rfl, rfl, rfl, rfl⟩ rfl rfl fun _ => rfl

end Step

end OpenHpcWeb.Web
