/-
  Terminals against logouts, disablings and the shutdown.

  Between its authentication and its `Add` a create opens an SSH connection. A cleanup that
  takes the sessions out of the store in between finds nothing of this create, and the create
  then adds its session behind it.

  * `no_terminal_survives`: in every run in which no session is added so late, the SSH session
    of a create is closed once the cleanup has completed and the create has finished, unless
    another cleanup has taken it out and is still to close it.
  * `late_terminal_stays`: a session that is added late stays in the store.
-/
import OpenHpcWeb.Lib.Revocation
import OpenHpcWeb.Web.TerminalServerMoves

namespace OpenHpcWeb.Web

open OpenHpcWeb.Go OpenHpcWeb.Lib OpenHpcWeb.Platform

variable {I J : Type}

/-! ## The property -/

/-- The create adds its session before any of the cleanups of its user that had not completed
    when it was authenticated has taken the sessions out. -/
def AddsInTime (q : TerminalRequests I J) (s : TerminalServer I J) :
    TerminalServerAction I J → Prop
  | .create i => ∀ identity id, s.create i = .opened identity → (q.creates i).token = .ok id →
      s.store.sessions.length < maxTerminalSessions →
      s.store.userSessions identity.username < maxTerminalSessionsPerUser →
      ∀ j target, s.since i j = true → s.target j = some target →
        ¬ Covers target identity.username
  | _ => True

/-- Somebody has taken the session out of the store and is still to close it. -/
def TerminalServer.Pending (s : TerminalServer I J) (id : String) : Prop :=
  (∃ i, id ∈ (s.create i).closing) ∨ ∃ j, id ∈ (s.cleanup j).ids

def TerminalServer.Stored (s : TerminalServer I J) (id : String) : Prop :=
  id ∈ s.store.sessions.map Prod.fst

/-! ## What holds in every state -/

/-- Creates know their sessions, the store knows its owners, and an open SSH session is in
    somebody's hands. -/
structure TerminalServer.Sound (s : TerminalServer I J) : Prop where
  made : ∀ id i, s.maker id = some i → (s.create i).past = true
  own : ∀ i id, id ∈ (s.create i).ids → s.maker id = some i
  identity : ∀ i p, (s.create i).identity = some p → s.owner i = some p.username
  owned : ∀ entry ∈ s.store.sessions,
    ∃ i, s.maker entry.1 = some i ∧ s.owner i = some entry.2.owner
  isOpen : ∀ i, s.isOpen i = true → (s.create i).holds = true ∨
    ∃ id, s.maker id = some i ∧ (s.Stored id ∨ s.Pending id)

variable {q : TerminalRequests I J} {a : TerminalServerAction I J} {s s' : TerminalServer I J}
  {i : I} {j : J} {id : String}

theorem sound_start (q : TerminalRequests I J) (world : LoginWorld) :
    (TerminalServer.start q world).Sound where
  made := by
    intro id i h
    cases h
  own := by
    intro i id h
    cases h
  identity := by
    intro i p h
    cases h
  owned := by
    intro entry h
    cases h
  isOpen := by
    intro i h
    cases h

/-- What a cleanup or a create does not take out stays, and what it takes out it has in hand. -/
theorem TerminalServer.Stored.without {p : String × ManagedTerminalSession → Bool}
    (h : s.Stored id) (store : s'.store = s.store.without p) :
    s'.Stored id ∨ id ∈ (s.store.takeOut p).1 := by
  obtain ⟨entry, hentry, rfl⟩ := List.mem_map.mp h
  by_cases hp : p entry = true
  · exact .inr (List.mem_map_of_mem (List.mem_filter.mpr ⟨hentry, hp⟩))
  · refine .inl (List.mem_map_of_mem ?_)
    rw [store, TerminalSessionStore.mem_without]
    exact ⟨hentry, by simpa using hp⟩

/-- A fact about the pc of every create, after one of them has moved on. -/
theorem create_update [DecidableEq I] {P : I → CreateTerminalPc → Prop} {pc : CreateTerminalPc}
    (create : s'.create = Function.update s.create i pc) (hself : P i pc)
    (hothers : ∀ k, k ≠ i → P k (s.create k)) (k : I) : P k (s'.create k) := by
  rw [create]
  by_cases heq : k = i
  · subst heq
    rwa [Function.update_self]
  · rw [Function.update_of_ne heq]
    exact hothers k heq

/-- A create that has moved on stays pending for what it has still in hand. -/
theorem TerminalServer.Pending.update_create [DecidableEq I] {pc : CreateTerminalPc}
    (h : s.Pending id) (create : s'.create = Function.update s.create i pc)
    (cleanup : s'.cleanup = s.cleanup)
    (hkeep : id ∈ (s.create i).closing → id ∈ pc.closing) : s'.Pending id := by
  rcases h with ⟨k, hk⟩ | ⟨j, hj⟩
  · refine .inl ⟨k, ?_⟩
    revert hk
    exact create_update (P := fun k pc => id ∈ (s.create k).closing → id ∈ pc.closing) create
      hkeep (fun _ _ hk => hk) k
  · exact .inr ⟨j, by rwa [cleanup]⟩

theorem TerminalServer.Pending.update_cleanup [DecidableEq J] {pc : CleanupPc}
    (h : s.Pending id) (create : s'.create = s.create)
    (cleanup : s'.cleanup = Function.update s.cleanup j pc)
    (hkeep : id ∈ (s.cleanup j).ids → id ∈ pc.ids) : s'.Pending id := by
  rcases h with ⟨k, hk⟩ | ⟨k, hk⟩
  · exact .inl ⟨k, by rwa [create]⟩
  · refine .inr ⟨k, ?_⟩
    rw [cleanup]
    by_cases heq : k = j
    · subst heq
      rw [Function.update_self]
      exact hkeep hk
    · rwa [Function.update_of_ne heq]

section Step

variable [DecidableEq I] [DecidableEq J]

namespace TerminalServerMove

/-- No create goes back behind its `Add`. -/
theorem past (hmove : TerminalServerMove q a s s') (k : I) (h : (s.create k).past = true) :
    (s'.create k).past = true := by
  have hupdate : ∀ {i pc}, s'.create = Function.update s.create i pc →
      ((s.create i).past = true → pc.past = true) → (s'.create k).past = true := by
    intro i pc create hself
    have hall := create_update (P := fun k pc => (s.create k).past = true → pc.past = true) create
      hself (fun _ _ h => h) k
    exact hall h
  cases hmove with
  | pass _ create => exact create ▸ h
  | authenticate _ _ pc _ _ _ _ _ create =>
    exact hupdate create (by simp [pc, CreateTerminalPc.past])
  | proceed _ _ _ create _ _ past => exact hupdate create past
  | connect _ _ pc _ create => exact hupdate create (by simp [pc, CreateTerminalPc.past])
  | add _ _ _ _ _ _ _ _ _ _ _ _ _ _ create => exact hupdate create fun _ => rfl
  | refuse _ _ _ _ _ create => exact hupdate create fun _ => rfl
  | release _ _ _ _ _ _ _ _ create => exact hupdate create fun _ => rfl
  | released _ _ _ _ _ create => exact hupdate create fun _ => rfl
  | take _ _ _ _ _ _ _ _ _ _ _ create => exact create ▸ h
  | close _ _ _ _ _ _ create => exact create ▸ h

/-- What has been added stays added by the same create. -/
theorem maker (hmove : TerminalServerMove q a s s') {k : I} (h : s.maker id = some k) :
    s'.maker id = some k := by
  cases hmove with
  | pass same => rwa [same.maker]
  | authenticate _ _ _ _ maker => rwa [maker]
  | proceed _ _ same => rwa [same.maker]
  | connect _ _ _ same => rwa [same.maker]
  | add i identity id' _ _ _ fresh _ _ _ maker =>
    have hne : id ≠ id' := by
      rintro rfl
      rw [fresh] at h
      cases h
    rwa [maker, Function.update_of_ne hne]
  | refuse _ _ _ _ same => rwa [same.maker]
  | release _ _ _ _ maker => rwa [maker]
  | released _ _ _ _ same => rwa [same.maker]
  | take _ _ _ _ _ _ _ maker => rwa [maker]
  | close _ _ _ _ _ same => rwa [same.maker]

/-- A create that adds a session is past its `Add` then. -/
theorem made (hmove : TerminalServerMove q a s s') {k : I} (h : s'.maker id = some k) :
    s.maker id = some k ∨ (s'.create k).past = true := by
  cases hmove with
  | pass same => exact .inl (by rwa [same.maker] at h)
  | authenticate _ _ _ _ maker => exact .inl (by rwa [maker] at h)
  | proceed _ _ same => exact .inl (by rwa [same.maker] at h)
  | connect _ _ _ same => exact .inl (by rwa [same.maker] at h)
  | add i identity id' _ _ _ _ _ _ _ maker _ _ _ create =>
    rw [maker] at h
    by_cases hid : id = id'
    · rw [hid, Function.update_self] at h
      cases h
      right
      rw [create, Function.update_self]
      rfl
    · rw [Function.update_of_ne hid] at h
      exact .inl h
  | refuse _ _ _ _ same => exact .inl (by rwa [same.maker] at h)
  | release _ _ _ _ maker => exact .inl (by rwa [maker] at h)
  | released _ _ _ _ same => exact .inl (by rwa [same.maker] at h)
  | take _ _ _ _ _ _ _ maker => exact .inl (by rwa [maker] at h)
  | close _ _ _ _ _ same => exact .inl (by rwa [same.maker] at h)

/-- What a create has in hand it had in hand, or has just added. -/
theorem ids (hmove : TerminalServerMove q a s s') {k : I} (hown : ∀ id, id ∈ (s.create k).ids →
    s.maker id = some k) (h : id ∈ (s'.create k).ids) : s'.maker id = some k := by
  have hupdate : ∀ {i pc}, s'.create = Function.update s.create i pc →
      (k = i → id ∈ pc.ids → s'.maker id = some k) → s'.maker id = some k := by
    intro i pc create hself
    rw [create] at h
    by_cases heq : k = i
    · subst heq
      rw [Function.update_self] at h
      exact hself rfl h
    · rw [Function.update_of_ne heq] at h
      exact hmove.maker (hown id h)
  have hsame : s'.create = s.create → s'.maker id = some k := by
    intro create
    rw [create] at h
    exact hmove.maker (hown id h)
  cases hmove with
  | pass _ create => exact hsame create
  | authenticate _ _ _ _ _ _ _ _ create => exact hupdate create (by simp [CreateTerminalPc.ids])
  | proceed i pc same create _ _ _ _ _ ids =>
    refine hupdate create ?_
    rintro rfl h
    rw [same.maker]
    exact hown id (ids id h)
  | connect _ _ _ _ create => exact hupdate create (by simp [CreateTerminalPc.ids])
  | add i _ id' _ _ _ _ _ _ _ maker _ _ _ create =>
    refine hupdate create ?_
    rintro rfl h
    rw [maker, List.mem_singleton.mp h, Function.update_self]
  | refuse _ _ _ _ _ create => exact hupdate create (by simp [CreateTerminalPc.ids])
  | release i id' pc _ maker _ _ _ create =>
    refine hupdate create ?_
    rintro rfl h
    obtain ⟨entry, hentry, rfl⟩ := List.mem_map.mp h
    have hid : entry.1 = id' := by simpa using (List.mem_filter.mp hentry).2
    rw [maker, hid]
    refine hown id' ?_
    rw [pc]
    exact List.mem_singleton_self id'
  | released _ _ _ _ _ create => exact hupdate create (by simp [CreateTerminalPc.ids])
  | take _ _ _ _ _ _ _ _ _ _ _ create => exact hsame create
  | close _ _ _ _ _ _ create => exact hsame create

/-- A create stays with the user it was authenticated as. -/
theorem identity (hmove : TerminalServerMove q a s s') {k : I} {p : Principal}
    (howner : ∀ p, (s.create k).identity = some p → s.owner k = some p.username)
    (h : (s'.create k).identity = some p) : s'.owner k = some p.username := by
  have hupdate : ∀ {i pc}, s'.owner = s.owner → s'.create = Function.update s.create i pc →
      (∀ p, pc.identity = some p → (s.create i).identity = some p) →
      s'.owner k = some p.username := by
    intro i pc owner create hself
    rw [create] at h
    rw [owner]
    by_cases heq : k = i
    · subst heq
      rw [Function.update_self] at h
      exact howner p (hself p h)
    · rw [Function.update_of_ne heq] at h
      exact howner p h
  have hsame : s'.owner = s.owner → s'.create = s.create → s'.owner k = some p.username := by
    intro owner create
    rw [create] at h
    rw [owner]
    exact howner p h
  cases hmove with
  | pass same create => exact hsame same.owner create
  | authenticate i identity pc _ _ _ owner _ create =>
    rw [create] at h
    rw [owner]
    by_cases heq : k = i
    · subst heq
      rw [Function.update_self] at h ⊢
      cases h
      rfl
    · rw [Function.update_of_ne heq] at h ⊢
      exact howner p h
  | proceed _ _ same create _ _ _ identity => exact hupdate same.owner create identity
  | connect _ _ pc same create =>
    exact hupdate same.owner create (by simp [pc, CreateTerminalPc.identity])
  | add _ _ _ _ pc _ _ _ _ _ _ owner _ _ create =>
    exact hupdate owner create (by simp [pc, CreateTerminalPc.identity])
  | refuse _ _ _ _ same create =>
    exact hupdate same.owner create (by simp [CreateTerminalPc.identity])
  | release _ _ _ _ _ owner _ _ create =>
    exact hupdate owner create (by simp [CreateTerminalPc.identity])
  | released _ _ _ _ same create =>
    exact hupdate same.owner create (by simp [CreateTerminalPc.identity])
  | take _ _ _ _ _ _ _ _ owner _ _ create => exact hsame owner create
  | close _ _ _ _ _ same create => exact hsame same.owner create

/-- The owner of a create is fixed when it is authenticated. -/
theorem owner (hmove : TerminalServerMove q a s s') {k : I} (hpast : (s.create k).past = true) :
    s'.owner k = s.owner k := by
  cases hmove with
  | pass same => rw [same.owner]
  | authenticate i _ pc _ _ _ owner =>
    have hne : k ≠ i := by
      rintro rfl
      rw [pc] at hpast
      cases hpast
    rw [owner, Function.update_of_ne hne]
  | proceed _ _ same => rw [same.owner]
  | connect _ _ _ same => rw [same.owner]
  | add _ _ _ _ _ _ _ _ _ _ _ owner => rw [owner]
  | refuse _ _ _ _ same => rw [same.owner]
  | release _ _ _ _ _ owner => rw [owner]
  | released _ _ _ _ same => rw [same.owner]
  | take _ _ _ _ _ _ _ _ owner => rw [owner]
  | close _ _ _ _ _ same => rw [same.owner]

/-- An entry of the store was there before, or has just been added. -/
theorem stored (hmove : TerminalServerMove q a s s') {entry : String × ManagedTerminalSession}
    (h : entry ∈ s'.store.sessions) : entry ∈ s.store.sessions ∨
      ∃ i identity, s.create i = .opened identity ∧ entry.2.owner = identity.username ∧
        s'.owner = s.owner ∧ s'.maker entry.1 = some i := by
  cases hmove with
  | pass same => exact .inl (by rwa [same.store] at h)
  | authenticate _ _ _ store => exact .inl (by rwa [store] at h)
  | proceed _ _ same => exact .inl (by rwa [same.store] at h)
  | connect _ _ _ same => exact .inl (by rwa [same.store] at h)
  | add i identity id _ pc _ _ _ _ store maker owner =>
    rw [store, TerminalSessionStore.mem_set] at h
    rcases h with ⟨hbefore, -⟩ | rfl
    · exact .inl hbefore
    · exact .inr ⟨i, identity, pc, rfl, owner, by rw [maker, Function.update_self]⟩
  | refuse _ _ _ _ same => exact .inl (by rwa [same.store] at h)
  | release _ _ _ store =>
    rw [store, TerminalSessionStore.mem_without] at h
    exact .inl h.1
  | released _ _ _ _ same => exact .inl (by rwa [same.store] at h)
  | take _ _ _ _ _ _ store =>
    rw [store, TerminalSessionStore.mem_without] at h
    exact .inl h.1
  | close _ _ _ _ _ same => exact .inl (by rwa [same.store] at h)

/-- A session that leaves the store is pending then, and a pending one stays so until it is
    closed. -/
theorem inHand (hmove : TerminalServerMove q a s s') {k : I} (hmaker : s.maker id = some k)
    (hopen : s'.isOpen k = true) (h : s.Stored id ∨ s.Pending id) :
    s'.Stored id ∨ s'.Pending id := by
  have hcreate : ∀ {i pc}, s'.store = s.store → s'.create = Function.update s.create i pc →
      s'.cleanup = s.cleanup → (id ∈ (s.create i).closing → id ∈ pc.closing) →
      s'.Stored id ∨ s'.Pending id := by
    intro i pc store create cleanup hkeep
    refine h.imp (fun hstored => ?_) fun hpending => hpending.update_create create cleanup hkeep
    unfold TerminalServer.Stored
    rwa [store]
  cases hmove with
  | pass same create _ ids =>
    refine h.imp (fun hstored => ?_) fun hpending => ?_
    · unfold TerminalServer.Stored
      rwa [same.store]
    · refine hpending.imp (fun ⟨i, hi⟩ => ⟨i, by rwa [create]⟩) fun ⟨j, hj⟩ => ⟨j, by rwa [ids]⟩
  | authenticate _ _ pc store _ _ _ _ create cleanup =>
    exact hcreate store create cleanup (by simp [pc, CreateTerminalPc.closing])
  | proceed _ _ same create cleanup _ _ _ _ _ closing =>
    exact hcreate same.store create cleanup (by simp [closing.2])
  | connect _ _ pc same create cleanup =>
    exact hcreate same.store create cleanup (by simp [pc, CreateTerminalPc.closing])
  | add i _ id' _ pc _ fresh _ _ store _ _ _ _ create cleanup =>
    refine h.imp (fun hstored => ?_) fun hpending =>
      hpending.update_create create cleanup (by simp [pc, CreateTerminalPc.closing])
    obtain ⟨entry, hentry, rfl⟩ := List.mem_map.mp hstored
    refine List.mem_map_of_mem ?_
    rw [store, TerminalSessionStore.mem_set]
    refine .inl ⟨hentry, ?_⟩
    rintro rfl
    rw [fresh] at hmaker
    cases hmaker
  | refuse _ _ _ pc same create cleanup =>
    exact hcreate same.store create cleanup (by simp [pc, CreateTerminalPc.closing])
  | release i id' pc store _ _ _ _ create cleanup =>
    rcases h with hstored | hpending
    · refine (hstored.without store).imp_right fun hid => .inl ⟨i, ?_⟩
      rw [create, Function.update_self]
      exact hid
    · exact .inr (hpending.update_create create cleanup (by simp [pc, CreateTerminalPc.closing]))
  | released i ids _ pc same create cleanup isOpen =>
    refine hcreate same.store create cleanup fun hid => ?_
    rw [pc] at hid
    exact absurd hmaker ((isOpen k hopen).2 id hid)
  | take j _ _ p _ pc store _ _ _ _ create cleanup =>
    rcases h with hstored | hpending
    · refine (hstored.without store).imp_right fun hid => .inr ⟨j, ?_⟩
      rw [cleanup, Function.update_self]
      exact hid
    · exact .inr (hpending.update_cleanup create cleanup (by simp [pc]))
  | close j _ ids id' pc same create cleanup isOpen =>
    refine h.imp (fun hstored => ?_) fun hpending =>
      hpending.update_cleanup create cleanup fun hid => ?_
    · unfold TerminalServer.Stored
      rwa [same.store]
    · rw [pc] at hid
      have hne : id ≠ id' := by
        rintro rfl
        exact (isOpen k hopen).2 hmaker
      exact (List.mem_erase_of_ne hne).mpr hid

/-- An SSH session that is open is in the hands of its handler, or was open before; and if its
    handler had it in hand before, it has just added it. -/
theorem isOpen (hmove : TerminalServerMove q a s s') {k : I} (h : s'.isOpen k = true) :
    (s'.create k).holds = true ∨ s.isOpen k = true ∧
      ((s.create k).holds = true → ∃ id, s'.maker id = some k ∧ s'.Stored id) := by
  have hsame : s'.create k = s.create k → s.isOpen k = true → (s'.create k).holds = true ∨
      s.isOpen k = true ∧
        ((s.create k).holds = true → ∃ id, s'.maker id = some k ∧ s'.Stored id) := by
    intro create hbefore
    rw [create]
    cases hholds : (s.create k).holds with
    | true => exact .inl rfl
    | false => exact .inr ⟨hbefore, by simp⟩
  have hupdate : ∀ {i pc}, s'.create = Function.update s.create i pc → s.isOpen k = true →
      ((s.create i).holds = true → pc.holds = true) → (s'.create k).holds = true ∨
      s.isOpen k = true ∧
        ((s.create k).holds = true → ∃ id, s'.maker id = some k ∧ s'.Stored id) := by
    intro i pc create hbefore hself
    by_cases heq : k = i
    · subst heq
      rw [create, Function.update_self]
      cases hholds : (s.create k).holds with
      | true => exact .inl (hself hholds)
      | false => exact .inr ⟨hbefore, by simp⟩
    · exact hsame (by rw [create, Function.update_of_ne heq]) hbefore
  cases hmove with
  | pass _ create isOpen => exact hsame (congrFun create k) (by rwa [isOpen] at h)
  | authenticate _ _ pc _ _ _ _ _ create _ isOpen =>
    exact hupdate create (by rwa [isOpen] at h) (by simp [pc, CreateTerminalPc.holds])
  | proceed _ _ _ create _ isOpen _ _ holds => exact hupdate create (by rwa [isOpen] at h) holds
  | connect i _ _ _ create _ isOpen =>
    by_cases heq : k = i
    · subst heq
      rw [create, Function.update_self]
      exact .inl rfl
    · rw [isOpen, Function.update_of_ne heq] at h
      exact hsame (by rw [create, Function.update_of_ne heq]) h
  | add i _ id _ _ _ _ _ _ store maker _ _ _ create _ isOpen =>
    rw [isOpen] at h
    by_cases heq : k = i
    · subst heq
      refine .inr ⟨h, fun _ => ⟨id, by rw [maker, Function.update_self], ?_⟩⟩
      unfold TerminalServer.Stored
      rw [store]
      exact List.mem_map_of_mem (TerminalSessionStore.mem_set.mpr (.inr rfl))
    · exact hsame (by rw [create, Function.update_of_ne heq]) h
  | refuse i _ _ _ _ create _ isOpen =>
    by_cases heq : k = i
    · rw [isOpen, heq, Function.update_self] at h
      cases h
    · rw [isOpen, Function.update_of_ne heq] at h
      exact hsame (by rw [create, Function.update_of_ne heq]) h
  | release _ _ pc _ _ _ _ _ create _ isOpen =>
    exact hupdate create (by rwa [isOpen] at h) (by simp [pc, CreateTerminalPc.holds])
  | released _ _ _ pc _ create _ isOpen =>
    exact hupdate create (isOpen k h).1 (by simp [pc, CreateTerminalPc.holds])
  | take _ _ _ _ _ _ _ _ _ _ _ create _ isOpen =>
    exact hsame (congrFun create k) (by rwa [isOpen] at h)
  | close _ _ _ _ _ _ create _ isOpen => exact hsame (congrFun create k) (isOpen k h).1

end TerminalServerMove

theorem TerminalServer.Sound.move (h : s.Sound) (hmove : TerminalServerMove q a s s') : s'.Sound where
  made := by
    intro id k hmaker
    rcases hmove.made hmaker with hbefore | hpast
    · exact hmove.past k (h.made id k hbefore)
    · exact hpast
  own := by
    intro k id hid
    exact hmove.ids (h.own k) hid
  identity := by
    intro k p hp
    exact hmove.identity (h.identity k) hp
  owned := by
    intro entry hentry
    rcases hmove.stored hentry with hbefore | ⟨i, identity, hpc, hname, howner, hmaker⟩
    · obtain ⟨i, hmaker, howner⟩ := h.owned entry hbefore
      exact ⟨i, hmove.maker hmaker, by rw [hmove.owner (h.made _ i hmaker), howner]⟩
    · refine ⟨i, hmaker, ?_⟩
      rw [howner, hname]
      exact h.identity i identity (by rw [hpc]; rfl)
  isOpen := by
    intro k hopen
    rcases hmove.isOpen hopen with hholds | ⟨hbefore, hadded⟩
    · exact .inl hholds
    · right
      rcases h.isOpen k hbefore with hholds | ⟨id, hmaker, hhand⟩
      · obtain ⟨id, hmaker, hstored⟩ := hadded hholds
        exact ⟨id, hmaker, .inl hstored⟩
      · exact ⟨id, hmove.maker hmaker, hmove.inHand hmaker hopen hhand⟩

/-! ## Creates and cleanups as workers and revocations -/

/-- A create with its user holds the sessions it has added, and a cleanup with its target has
    taken those of the target out. -/
def TerminalServer.revocable (s : TerminalServer I J) :
    Revocable (I × String) (J × Option String) where
  held w := ∃ entry ∈ s.store.sessions, s.maker entry.1 = some w.1 ∧ entry.2.owner = w.2
  since w c := s.since w.1 c.1 = true ∧ s.owner w.1 = some w.2
  purged c := s.target c.1 = some c.2

/-- A cleanup of these sessions is about this user. -/
def coversUser (c : J × Option String) (w : I × String) : Prop := Covers c.2 w.2

omit [DecidableEq I] [DecidableEq J] in
/-- Sessions that leave the store are a step that keeps the rest. -/
theorem revocable_keep (store : ∀ entry ∈ s'.store.sessions, entry ∈ s.store.sessions)
    (maker : s'.maker = s.maker) (owner : s'.owner = s.owner) (since : s'.since = s.since)
    (target : s'.target = s.target) :
    Revocable.Move (coversUser (I := I) (J := J)) s.revocable s'.revocable := by
  refine .keep ?_ ?_ ?_
  · rintro w ⟨entry, hentry, hmaker, hname⟩
    exact ⟨entry, store entry hentry, by rwa [maker] at hmaker, hname⟩
  · rintro w c ⟨hsince, howner⟩
    exact .inl ⟨by rwa [since] at hsince, by rwa [owner] at howner⟩
  · intro c hc
    simpa [TerminalServer.revocable, target] using hc

/-- A step is a step of the workers and the revocations. -/
theorem TerminalServerMove.revocable (hmove : TerminalServerMove q a s s') (h : s.Sound)
    (hintime : AddsInTime q s a) : Revocable.Move coversUser s.revocable s'.revocable := by
  cases hmove with
  | pass same =>
    exact revocable_keep (fun _ h => same.store ▸ h) same.maker same.owner same.since same.target
  | authenticate i identity pc store maker target owner since =>
    refine .check (i, identity.username) ?_ ?_ ?_ ?_
    · rintro ⟨entry, -, hmaker, -⟩
      rw [maker] at hmaker
      have hpast := h.made _ i hmaker
      rw [pc] at hpast
      cases hpast
    · rintro w ⟨entry, hentry, hmaker, hname⟩
      exact ⟨entry, by rwa [store] at hentry, by rwa [maker] at hmaker, hname⟩
    · rintro ⟨k, name⟩ c hne ⟨hsince, howner⟩
      simp only at hsince howner
      by_cases hk : k = i
      · subst hk
        rw [owner, Function.update_self] at howner
        exact absurd (by rw [Option.some.inj howner]) hne
      · rw [since k hk] at hsince
        rw [owner, Function.update_of_ne hk] at howner
        exact ⟨hsince, howner⟩
    · intro c hc
      simpa [TerminalServer.revocable, target] using hc
  | proceed _ _ same =>
    exact revocable_keep (fun _ h => same.store ▸ h) same.maker same.owner same.since same.target
  | connect _ _ _ same =>
    exact revocable_keep (fun _ h => same.store ▸ h) same.maker same.owner same.since same.target
  | add i identity id action pc token fresh room userRoom store maker owner since target =>
    subst action
    refine .insert (i, identity.username) ?_ ?_ ?_ ?_
    · rintro c ⟨hsince, -⟩ hpurged
      exact hintime identity id pc token room userRoom c.1 c.2 hsince hpurged
    · rintro ⟨k, name⟩ ⟨entry, hentry, hmaker, hname⟩
      simp only at hmaker hname
      rw [store, TerminalSessionStore.mem_set] at hentry
      rcases hentry with ⟨hbefore, hne⟩ | rfl
      · rw [maker, Function.update_of_ne hne] at hmaker
        exact .inr ⟨entry, hbefore, hmaker, hname⟩
      · rw [maker, Function.update_self] at hmaker
        exact .inl (by rw [← Option.some.inj hmaker, ← hname])
    · rintro w c ⟨hsince, howner⟩
      exact ⟨by rwa [since] at hsince, by rwa [owner] at howner⟩
    · intro c hc
      simpa [TerminalServer.revocable, target] using hc
  | refuse _ _ _ _ same =>
    exact revocable_keep (fun _ h => same.store ▸ h) same.maker same.owner same.since same.target
  | release _ _ _ store maker owner since target =>
    refine revocable_keep (fun entry hentry => ?_) maker owner since target
    rw [store, TerminalSessionStore.mem_without] at hentry
    exact hentry.1
  | released _ _ _ _ same =>
    exact revocable_keep (fun _ h => same.store ▸ h) same.maker same.owner same.since same.target
  | take j actor target p covers _ store maker owner since targets =>
    refine .purge (j, target) ?_ ?_ ?_
    · rintro w ⟨entry, hentry, hmaker, hname⟩
      rw [store, TerminalSessionStore.mem_without] at hentry
      refine ⟨⟨entry, hentry.1, by rwa [maker] at hmaker, hname⟩, ?_⟩
      unfold coversUser
      rw [← hname]
      exact covers entry hentry.2
    · rintro w c ⟨hsince, howner⟩
      exact ⟨by rwa [since] at hsince, by rwa [owner] at howner⟩
    · rintro ⟨k, taken⟩ hc
      simp only [TerminalServer.revocable, targets] at hc ⊢
      by_cases hk : k = j
      · subst hk
        rw [Function.update_self] at hc
        exact .inl (by rw [Option.some.inj hc])
      · rw [Function.update_of_ne hk] at hc
        exact .inr hc
  | close _ _ _ _ _ same =>
    exact revocable_keep (fun _ h => same.store ▸ h) same.maker same.owner same.since same.target

/-! ## Runs -/

/-- Once a cleanup has completed and a create that was authenticated before has finished, the
    create's SSH session is closed, if the cleanup was about its user and no other cleanup has
    taken the session out and is still to close it. -/
def TerminalServer.TerminalsClosed (s : TerminalServer I J) : Prop :=
  ∀ i j name target, s.owner i = some name → s.since i j = true → s.target j = some target →
    Covers target name → (s.cleanup j).completed = true →
    (∃ answer, s.create i = .finished answer) →
    (∀ j' id, s.maker id = some i → id ∉ (s.cleanup j').ids) → s.isOpen i = false

theorem terminal_run {world : LoginWorld} {as : List (TerminalServerAction I J)}
    (hrun : Run (terminalServerStep q) (fun s a => FreshIds q s a ∧ AddsInTime q s a)
      (.start q world) as s) : s.Sound ∧ s.revocable.Inv coversUser := by
  refine Run.invariant (fun t => t.Sound ∧ t.revocable.Inv coversUser) ?_ ?_ hrun
  · refine ⟨sound_start q world, ?_⟩
    rintro w c - hpurged
    cases hpurged
  · rintro t a t' ⟨hsound, hinv⟩ ⟨hfresh, hintime⟩ hstep
    have hmove := terminalServerStep_move hfresh hstep
    exact ⟨hsound.move hmove, hinv.move (hmove.revocable hsound hintime)⟩

/-- In every run in which creates add their sessions in time, whatever the order of the steps of
    any number of creates, logouts, changes of status and shutdowns: no SSH terminal survives
    the cleanups that had not completed when it was authenticated. -/
theorem no_terminal_survives {world : LoginWorld} {as : List (TerminalServerAction I J)}
    (hrun : Run (terminalServerStep q) (fun s a => FreshIds q s a ∧ AddsInTime q s a)
      (.start q world) as s) : s.TerminalsClosed := by
  obtain ⟨hsound, hinv⟩ := terminal_run hrun
  intro i j name target howner hsince htarget hcovers hdone hfinished hnone
  obtain ⟨answer, hfinished⟩ := hfinished
  by_contra hopen
  rcases hsound.isOpen i (Bool.eq_true_of_not_eq_false hopen) with hholds | ⟨id, hmaker, hhand⟩
  · rw [hfinished] at hholds
    cases hholds
  · rcases hhand with hstored | ⟨k, hk⟩ | ⟨j', hj'⟩
    · obtain ⟨entry, hentry, rfl⟩ := List.mem_map.mp hstored
      obtain ⟨i', hmaker', howner'⟩ := hsound.owned entry hentry
      rw [hmaker] at hmaker'
      obtain rfl := Option.some.inj hmaker'
      rw [howner] at howner'
      exact hinv (i, name) (j, target) ⟨hsince, howner⟩ htarget hcovers
        ⟨entry, hentry, hmaker, (Option.some.inj howner').symm⟩
    · -- what a create is still to close it has added itself
      have hids : id ∈ (s.create k).ids := by
        cases hpc : s.create k <;> simp [hpc, CreateTerminalPc.closing] at hk
        simpa [hpc, CreateTerminalPc.ids] using hk
      have hown := hsound.own k id hids
      rw [hmaker] at hown
      obtain rfl := Option.some.inj hown
      rw [hfinished] at hk
      cases hk
    · exact hnone j' id hmaker hj'

/-- A session that is added late stays in the store, behind the cleanup of its user. -/
theorem late_terminal_stays (hsound : s.Sound) (hlate : ¬ AddsInTime q s (.create i))
    (hstep : terminalServerStep q s (.create i) = some s') : ¬ s'.revocable.Inv coversUser := by
  simp only [AddsInTime, not_forall, not_not] at hlate
  obtain ⟨identity, id, hpc, htoken, hroom, huser, j, target, hsince, htarget, hcovers⟩ := hlate
  have hadd : s.store.add identity.username (.ok id) = (.ok id, s.store.set id _) :=
    TerminalSessionStore.add_of_room hroom huser
  simp only [terminalServerStep, createStep, hpc, addTerminal, htoken, hadd,
    Option.some.injEq] at hstep
  subst hstep
  have howner := hsound.identity i identity (by rw [hpc]; rfl)
  refine Revocable.not_inv_of_late (s := s.revocable) (i := (i, identity.username))
    (fun hintime => hintime (j, target) ⟨hsince, howner⟩ htarget hcovers) ?_ (fun _ h => h)
    (fun _ h => h)
  exact ⟨(id, ⟨identity.username, false⟩), TerminalSessionStore.mem_set.mpr (.inr rfl),
    Function.update_self _ _ _, rfl⟩

end Step

section Example

private def leavingWorld : LoginWorld where
  auth := ⟨0, ⟨fun token => if token = "token" then some ⟨100, "csrf", "alice", .user⟩ else none⟩,
    .empty, ["token"]⟩
  attempts := []
  audit := []
  directory := []

private def leavingVisit (path : String) : Visit :=
  ⟨path, "POST", some "token", some "csrf", "csrf", "", ""⟩

/-- Alice opens a terminal and logs out. -/
private def leavingRequests : TerminalRequests Unit Unit where
  terminalClient := true
  creates _ :=
    { visit := leavingVisit "/terminal/sessions"
      userFault := none
      credentials := true
      openErr := none
      token := .ok "id"
      auditFault := none
      now := 0 }
  cleanups _ := .logout ⟨leavingVisit "/logout", none, none, 0⟩

/-- The logout comes between the connection and the `Add`. -/
private def leavingActions : List (TerminalServerAction Unit Unit) :=
  [.create (), .create (), .cleanup (), .cleanup (), .cleanup (), .cleanup (), .cleanup (),
    .create (), .create ()]

private def leavingEnd : Option (TerminalServer Unit Unit) :=
  exec (terminalServerStep leavingRequests) (fun _ _ => true)
    (.start leavingRequests leavingWorld) leavingActions

private def CreateTerminalPc.isFinished : CreateTerminalPc → Bool
  | .finished _ => true
  | _ => false

private theorem createTerminalPc_finished {pc : CreateTerminalPc} (h : pc.isFinished = true) :
    ∃ answer, pc = .finished answer := by
  cases pc <;> simp [CreateTerminalPc.isFinished] at h ⊢

/-- The logout has completed, the create has finished, and nothing is pending. -/
private def settled (s : TerminalServer Unit Unit) : Bool :=
  decide (s.owner () = some "alice") && s.since () () && decide (s.target () = some (some "alice")) &&
    (s.cleanup ()).completed && (s.create ()).isFinished && decide ((s.cleanup ()).ids = [])

private theorem leavingEnd_open :
    (leavingEnd.any fun s => settled s && s.isOpen ()) = true := by decide +kernel

/-- Alice's terminal is connected, alice logs out, the terminal is added: it stays open. -/
theorem terminal_survives_logout : ∃ s,
    Run (terminalServerStep leavingRequests) (fun _ _ => True)
      (.start leavingRequests leavingWorld) leavingActions s ∧ ¬ s.TerminalsClosed := by
  obtain ⟨s, hs, hend⟩ := (Option.any_eq_true _ _).mp leavingEnd_open
  refine ⟨s, Run.mono (fun _ _ _ => trivial) (run_of_exec hs), fun hclosed => ?_⟩
  simp only [settled, Bool.and_eq_true, decide_eq_true_eq] at hend
  obtain ⟨⟨⟨⟨⟨⟨howner, hsince⟩, htarget⟩, hdone⟩, hfinished⟩, hids⟩, hopen⟩ := hend
  have hshut := hclosed () () "alice" (some "alice") howner hsince htarget (.inr rfl) hdone
    (createTerminalPc_finished hfinished) (fun _ _ _ => by simp [hids])
  rw [hshut] at hopen
  cases hopen

/-- The logout comes behind the `Add`. -/
private def orderlyActions : List (TerminalServerAction Unit Unit) :=
  [.create (), .create (), .create (), .create (), .cleanup (), .cleanup (), .close () "id",
    .cleanup (), .cleanup (), .cleanup ()]

private def orderly (s : TerminalServer Unit Unit) : TerminalServerAction Unit Unit → Bool
  | .create _ =>
    match s.create () with
    | .opened _ => (s.maker "id").isNone && (s.target ()).isNone
    | _ => true
  | _ => true

private theorem inTime_of_orderly (s : TerminalServer Unit Unit)
    (a : TerminalServerAction Unit Unit) (h : orderly s a = true) :
    FreshIds leavingRequests s a ∧ AddsInTime leavingRequests s a := by
  cases a with
  | create i =>
    constructor
    · intro identity id hpc htoken
      cases htoken
      simp [orderly, hpc] at h
      exact h.1
    · intro identity id hpc _ _ _ j target _ htarget
      simp [orderly, hpc] at h
      rw [h.2] at htarget
      cases htarget
  | _ => exact ⟨trivial, trivial⟩

private def orderlyEnd : Option (TerminalServer Unit Unit) :=
  exec (terminalServerStep leavingRequests) orderly (.start leavingRequests leavingWorld)
    orderlyActions

private theorem orderlyEnd_settled : orderlyEnd.any settled = true := by decide +kernel

/-- Alice's terminal is added before she logs out, and is closed. -/
theorem terminal_closed_at_logout : ∃ s,
    Run (terminalServerStep leavingRequests)
      (fun s a => FreshIds leavingRequests s a ∧ AddsInTime leavingRequests s a)
      (.start leavingRequests leavingWorld) orderlyActions s ∧ s.isOpen () = false := by
  obtain ⟨s, hs, hend⟩ := (Option.any_eq_true _ _).mp orderlyEnd_settled
  simp only [settled, Bool.and_eq_true, decide_eq_true_eq] at hend
  obtain ⟨⟨⟨⟨⟨howner, hsince⟩, htarget⟩, hdone⟩, hfinished⟩, hids⟩ := hend
  have hrun := Run.mono inTime_of_orderly (run_of_exec hs)
  exact ⟨s, hrun, no_terminal_survives hrun () () "alice" (some "alice") howner hsince htarget
    (.inr rfl) hdone (createTerminalPc_finished hfinished) fun _ _ _ => by simp [hids]⟩

end Example

end OpenHpcWeb.Web
