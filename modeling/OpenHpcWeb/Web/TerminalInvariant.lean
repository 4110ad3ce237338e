/-
  What holds of the terminal store in every state of every run of its calls.

  * `TerminalState.Inv.move`: the invariant of the store, its calls and its sessions.
  * `TerminalState.Claimed.step`: the claims that have succeeded.
  * `terminal_store`: the limits, the claims, and that each session is closed once.
-/
import OpenHpcWeb.Web.TerminalCalls

namespace OpenHpcWeb.Web

open OpenHpcWeb.Lib

variable {T : Type}

/-! ## The invariant -/

/-- The session is in the store. -/
def TerminalState.Stored (s : TerminalState T) (id : String) : Prop :=
  id ∈ s.store.sessions.map Prod.fst

/-- The session was added. -/
def TerminalState.Added (s : TerminalState T) (id : String) : Prop := id ∈ s.added.map Prod.fst

structure TerminalState.Inv (s : TerminalState T) : Prop where
  limit : s.store.sessions.length ≤ maxTerminalSessions
  userLimit : ∀ owner, s.store.userSessions owner ≤ maxTerminalSessionsPerUser
  addedOnce : (s.added.map Prod.fst).Nodup
  stored : ∀ entry ∈ s.store.sessions, (entry.1, entry.2.owner) ∈ s.added
  pending : ∀ id, s.Pending id → s.Added id ∧ ¬ s.Stored id
  gone : ∀ id, s.Added id → ¬ s.Stored id → s.Pending id ∨ (s.ends id).once = true
  untouched : ∀ id, s.Stored id ∨ ¬ s.Added id → (s.ends id).storeCloses = 0
  once : ∀ id, (s.ends id).sshCloses = if (s.ends id).once then 1 else 0
  claims : ∀ claim ∈ s.claims, claim ∈ s.added
  unclaimed : ∀ entry ∈ s.store.sessions, entry.2.claimed = false →
    entry.1 ∉ s.claims.map Prod.fst

variable {s s' : TerminalState T} {id : String}

theorem inv_start : (TerminalState.start : TerminalState T).Inv where
  limit := Nat.zero_le _
  userLimit _ := Nat.zero_le _
  addedOnce := List.nodup_nil
  stored := by
    intro entry h
    cases h
  pending := by
    rintro id ⟨t, h⟩
    cases h
  gone := by
    intro id h
    cases h
  untouched _ _ := rfl
  once _ := rfl
  claims := by
    intro claim h
    cases h
  unclaimed := by
    intro entry h
    cases h

namespace TerminalState.Inv

theorem added_of_stored (h : s.Inv) (hid : s.Stored id) : s.Added id := by
  obtain ⟨entry, hentry, rfl⟩ := List.mem_map.mp hid
  exact List.mem_map.mpr ⟨_, h.stored entry hentry, rfl⟩

theorem quiet (h : s.Inv) (store : s'.store = s.store) (ends : s'.ends = s.ends)
    (added : s'.added = s.added) (claims : s'.claims = s.claims)
    (pending : ∀ id, s'.Pending id ↔ s.Pending id) : s'.Inv := by
  have hstored : s'.Stored = s.Stored := by
    unfold TerminalState.Stored
    rw [store]
  have hadded : s'.Added = s.Added := by
    unfold TerminalState.Added
    rw [added]
  constructor
  · rw [store]
    exact h.limit
  · rw [store]
    exact h.userLimit
  · rw [added]
    exact h.addedOnce
  · rw [store, added]
    exact h.stored
  · intro id hid
    rw [hadded, hstored]
    exact h.pending id ((pending id).mp hid)
  · intro id
    rw [hadded, hstored, pending, ends]
    exact h.gone id
  · rw [hstored, hadded, ends]
    exact h.untouched
  · rw [ends]
    exact h.once
  · rw [claims, added]
    exact h.claims
  · rw [store, claims]
    exact h.unclaimed

theorem add {owner : String} (h : s.Inv) (fresh : ¬ s.Added id)
    (room : s.store.sessions.length < maxTerminalSessions)
    (userRoom : s.store.userSessions owner < maxTerminalSessionsPerUser)
    (store : s'.store = s.store.set id ⟨owner, false⟩) (ends : s'.ends = s.ends)
    (added : s'.added = s.added ++ [(id, owner)]) (claims : s'.claims = s.claims)
    (pending : ∀ id, s'.Pending id ↔ s.Pending id) : s'.Inv := by
  have hentry : ∀ entry, entry ∈ s'.store.sessions ↔
      entry ∈ s.store.sessions ∨ entry = (id, ⟨owner, false⟩) := by
    intro entry
    rw [store, TerminalSessionStore.mem_set]
    refine or_congr_left ⟨And.left, fun hentry => ⟨hentry, ?_⟩⟩
    rintro rfl
    exact fresh (h.added_of_stored (List.mem_map_of_mem hentry))
  have hstored : ∀ id', s'.Stored id' ↔ s.Stored id' ∨ id' = id := by
    intro id'
    simp only [TerminalState.Stored, List.mem_map, hentry]
    constructor
    · rintro ⟨entry, hmem | rfl, rfl⟩
      · exact .inl ⟨entry, hmem, rfl⟩
      · exact .inr rfl
    · rintro (⟨entry, hmem, rfl⟩ | rfl)
      · exact ⟨entry, .inl hmem, rfl⟩
      · exact ⟨_, .inr rfl, rfl⟩
  have hadded : ∀ id', s'.Added id' ↔ s.Added id' ∨ id' = id := by
    intro id'
    simp [TerminalState.Added, added]
  constructor
  · rw [store]
    have hle := TerminalSessionStore.length_set_le s.store id ⟨owner, false⟩
    omega
  · intro owner'
    rw [store]
    have hle := TerminalSessionStore.userSessions_set_le s.store id ⟨owner, false⟩ owner'
    have hbefore := h.userLimit owner'
    by_cases howner : owner = owner'
    · subst howner
      simp only [if_true] at hle
      omega
    · simp only [howner, if_false] at hle
      omega
  · rw [added, List.map_append, List.nodup_append]
    refine ⟨h.addedOnce, by simp, ?_⟩
    rintro key hkey _ hid rfl
    simp only [List.map_cons, List.map_nil, List.mem_singleton] at hid
    exact fresh (hid ▸ hkey)
  · intro entry hmem
    rw [added, List.mem_append]
    rcases (hentry entry).mp hmem with hmem | rfl
    · exact .inl (h.stored entry hmem)
    · exact .inr (List.mem_singleton_self _)
  · intro id' hid
    obtain ⟨hwas, hnot⟩ := h.pending id' ((pending id').mp hid)
    rw [hadded, hstored]
    refine ⟨.inl hwas, ?_⟩
    rintro (hstill | rfl)
    · exact hnot hstill
    · exact fresh hwas
  · intro id' hwas hnot
    rw [hadded] at hwas
    rw [hstored, not_or] at hnot
    rw [pending, ends]
    exact h.gone id' (hwas.resolve_right hnot.2) hnot.1
  · intro id' hid
    rw [ends]
    rw [hstored, hadded, not_or] at hid
    rcases hid with (hstill | rfl) | ⟨hnot, -⟩
    · exact h.untouched id' (.inl hstill)
    · exact h.untouched id' (.inr fresh)
    · exact h.untouched id' (.inr hnot)
  · rw [ends]
    exact h.once
  · intro claim hclaim
    rw [claims] at hclaim
    rw [added, List.mem_append]
    exact .inl (h.claims claim hclaim)
  · intro entry hmem hunclaimed
    rw [claims]
    rcases (hentry entry).mp hmem with hmem | rfl
    · exact h.unclaimed entry hmem hunclaimed
    · intro hclaimed
      obtain ⟨claim, hclaim, hid⟩ := List.mem_map.mp hclaimed
      exact fresh (List.mem_map.mpr ⟨claim, h.claims claim hclaim, hid⟩)

theorem claim {owner : String} (h : s.Inv) (unclaimed : (id, ⟨owner, false⟩) ∈ s.store.sessions)
    (store : s'.store = (s.store.claim id owner).2) (ends : s'.ends = s.ends)
    (added : s'.added = s.added) (claims : s'.claims = s.claims ++ [(id, owner)])
    (pending : ∀ id, s'.Pending id ↔ s.Pending id) : s'.Inv := by
  have hstored : s'.Stored = s.Stored := by
    unfold TerminalState.Stored
    rw [store, TerminalSessionStore.keys_claim]
  have hadded : s'.Added = s.Added := by
    unfold TerminalState.Added
    rw [added]
  constructor
  · rw [store, TerminalSessionStore.length_claim]
    exact h.limit
  · intro owner'
    rw [store, TerminalSessionStore.userSessions_claim]
    exact h.userLimit owner'
  · rw [added]
    exact h.addedOnce
  · intro entry hmem
    rw [store] at hmem
    obtain ⟨before, hbefore, hkey, howner, -⟩ := TerminalSessionStore.mem_claim hmem
    rw [added, hkey, howner]
    exact h.stored before hbefore
  · intro id hid
    rw [hadded, hstored]
    exact h.pending id ((pending id).mp hid)
  · intro id
    rw [hadded, hstored, pending, ends]
    exact h.gone id
  · rw [hstored, hadded, ends]
    exact h.untouched
  · rw [ends]
    exact h.once
  · intro claim hclaim
    rw [added]
    rw [claims, List.mem_append] at hclaim
    rcases hclaim with hclaim | hclaim
    · exact h.claims claim hclaim
    · rw [List.mem_singleton.mp hclaim]
      exact h.stored _ unclaimed
  · intro entry hmem hfalse
    rw [store] at hmem
    obtain ⟨before, hbefore, -, -, hsame⟩ := TerminalSessionStore.mem_claim hmem
    obtain ⟨rfl, hno⟩ := hsame hfalse
    rw [claims, List.map_append, List.mem_append, not_or]
    refine ⟨h.unclaimed entry hbefore hfalse, fun hid => ?_⟩
    simp only [List.map_cons, List.map_nil, List.mem_singleton] at hid
    -- the entry under `id` is the one that has just been claimed
    have heq := List.inj_on_of_nodup_map s.store.keyed hbefore unclaimed hid
    rw [heq] at hno
    simp [TerminalSessionStore.claimable] at hno

theorem take {p : String × ManagedTerminalSession → Bool} (h : s.Inv)
    (store : s'.store = s.store.without p) (ends : s'.ends = s.ends) (added : s'.added = s.added)
    (claims : s'.claims = s.claims)
    (pending : ∀ id, s'.Pending id ↔ s.Pending id ∨ id ∈ (s.store.takeOut p).1) : s'.Inv := by
  have hentry : ∀ entry, entry ∈ s'.store.sessions ↔
      entry ∈ s.store.sessions ∧ p entry = false := by
    intro entry
    rw [store, TerminalSessionStore.mem_without]
  have hadded : s'.Added = s.Added := by
    unfold TerminalState.Added
    rw [added]
  have hstored : ∀ id, s'.Stored id → s.Stored id := by
    intro id hid
    obtain ⟨entry, hmem, rfl⟩ := List.mem_map.mp hid
    exact List.mem_map_of_mem ((hentry entry).mp hmem).1
  have htaken : ∀ id, id ∈ (s.store.takeOut p).1 ↔
      ∃ entry ∈ s.store.sessions, p entry = true ∧ entry.1 = id := by
    intro id
    simp [TerminalSessionStore.takeOut, and_assoc]
  constructor
  · rw [store]
    exact Nat.le_trans (TerminalSessionStore.length_without_le _ _) h.limit
  · intro owner
    rw [store]
    exact Nat.le_trans (TerminalSessionStore.userSessions_without_le _ _ _) (h.userLimit owner)
  · rw [added]
    exact h.addedOnce
  · intro entry hmem
    rw [added]
    exact h.stored entry ((hentry entry).mp hmem).1
  · intro id hid
    rw [hadded]
    rcases (pending id).mp hid with hid | hid
    · obtain ⟨hwas, hnot⟩ := h.pending id hid
      exact ⟨hwas, fun hstill => hnot (hstored id hstill)⟩
    · obtain ⟨entry, hmem, hp, rfl⟩ := (htaken id).mp hid
      refine ⟨h.added_of_stored (List.mem_map_of_mem hmem), fun hstill => ?_⟩
      obtain ⟨other, hother, hkey⟩ := List.mem_map.mp hstill
      obtain ⟨hother, hnot⟩ := (hentry other).mp hother
      rw [List.inj_on_of_nodup_map s.store.keyed hother hmem hkey, hp] at hnot
      cases hnot
  · intro id hwas hnot
    rw [hadded] at hwas
    rw [pending, ends]
    by_cases hstill : s.Stored id
    · obtain ⟨entry, hmem, rfl⟩ := List.mem_map.mp hstill
      refine .inl (.inr ((htaken _).mpr ⟨entry, hmem, ?_, rfl⟩))
      by_contra hp
      exact hnot (List.mem_map_of_mem ((hentry entry).mpr ⟨hmem, by simpa using hp⟩))
    · exact (h.gone id hwas hstill).imp_left .inl
  · intro id hid
    rw [ends]
    rw [hadded] at hid
    exact h.untouched id (hid.imp_left (hstored id))
  · rw [ends]
    exact h.once
  · rw [claims, added]
    exact h.claims
  · intro entry hmem hfalse
    rw [claims]
    exact h.unclaimed entry ((hentry entry).mp hmem).1 hfalse

/-- A session that is closed, by whom it may be. -/
theorem ended {e : SessionEnd} (h : s.Inv) (store : s'.store = s.store)
    (ends : s'.ends = Function.update s.ends id e) (added : s'.added = s.added)
    (claims : s'.claims = s.claims) (once : e.once = true) (sshCloses : e.sshCloses = 1)
    (storeCloses : s.Stored id ∨ ¬ s.Added id → e.storeCloses = 0)
    (fewer : ∀ id', s'.Pending id' → s.Pending id')
    (others : ∀ id', s.Pending id' → s'.Pending id' ∨ id' = id) : s'.Inv := by
  have hstored : s'.Stored = s.Stored := by
    unfold TerminalState.Stored
    rw [store]
  have hadded : s'.Added = s.Added := by
    unfold TerminalState.Added
    rw [added]
  have hself : s'.ends id = e := by rw [ends, Function.update_self]
  have hother : ∀ id', id' ≠ id → s'.ends id' = s.ends id' := by
    intro id' hid
    rw [ends, Function.update_of_ne hid]
  constructor
  · rw [store]
    exact h.limit
  · rw [store]
    exact h.userLimit
  · rw [added]
    exact h.addedOnce
  · rw [store, added]
    exact h.stored
  · intro id' hid
    rw [hadded, hstored]
    exact h.pending id' (fewer id' hid)
  · intro id' hwas hnot
    rw [hadded] at hwas
    rw [hstored] at hnot
    by_cases hid : id' = id
    · rw [hid, hself]
      exact .inr once
    · rw [hother id' hid]
      refine (h.gone id' hwas hnot).imp_left fun hpending => ?_
      exact (others id' hpending).resolve_right hid
  · intro id' hfree
    rw [hstored, hadded] at hfree
    by_cases hid : id' = id
    · subst hid
      rw [hself]
      exact storeCloses hfree
    · rw [hother id' hid]
      exact h.untouched id' hfree
  · intro id'
    by_cases hid : id' = id
    · rw [hid, hself, once, sshCloses]
      rfl
    · rw [hother id' hid]
      exact h.once id'
  · rw [claims, added]
    exact h.claims
  · rw [store, claims]
    exact h.unclaimed

theorem move (h : s.Inv) (hmove : TerminalMove s s') : s'.Inv := by
  cases hmove with
  | quiet store ends added claims pending => exact h.quiet store ends added claims pending
  | add id owner fresh room userRoom store ends added claims pending =>
    exact h.add fresh room userRoom store ends added claims pending
  | claim id owner unclaimed store ends added claims pending =>
    exact h.claim unclaimed store ends added claims pending
  | take p store ends added claims pending => exact h.take store ends added claims pending
  | close id was store ends added claims fewer others =>
    obtain ⟨hwas, hnot⟩ := h.pending id was
    refine h.ended store ends added claims ?_ ?_ ?_ fewer others
    · simp [SessionEnd.storeClose]
    · exact SessionEnd.close_sshCloses (h.once id)
    · rintro (hstill | hnever)
      · exact absurd hstill hnot
      · exact absurd hwas hnever
  | stream id claimed store ends added claims pending =>
    refine h.ended store ends added claims (SessionEnd.close_once _)
      (SessionEnd.close_sshCloses (h.once id)) ?_ (fun id' => (pending id').mp)
      (fun id' hid => .inl ((pending id').mpr hid))
    intro hfree
    rw [SessionEnd.close_storeCloses]
    exact h.untouched id hfree

end TerminalState.Inv

/-- When every call that has begun has returned, none is still to close a session. -/
theorem not_pending_of_finished (h : ∀ t, s.pc t = .start ∨ (s.pc t).Finished) (id : String) :
    ¬ s.Pending id := by
  rintro ⟨t, hcloses⟩
  rcases h t with hstart | hfinished
  · rw [hstart] at hcloses
    exact hcloses
  · cases hpc : s.pc t with
    | closing ids stopped =>
      rw [hpc] at hcloses hfinished
      obtain ⟨rfl, rfl⟩ := hfinished
      simp [CallPc.Closes] at hcloses
    | _ =>
      rw [hpc] at hcloses
      exact hcloses

/-! ## Runs -/

section Run

variable [DecidableEq T] {calls : T → TerminalCall} {as : List (TerminalAction T)}

abbrev TerminalRun (calls : T → TerminalCall) := Run (terminalStep calls) (FreshTokens calls) .start

theorem TerminalRun.inv (hrun : TerminalRun calls as s) : s.Inv :=
  Run.invariant TerminalState.Inv inv_start
    (fun _ _ _ hinv hok hstep => hinv.move (terminalStep_move hok hstep)) hrun

/-- A failing `Add` changes nothing but where its call stands. -/
theorem add_fails {t : T} {err : String} {owner : String} {token : Except String String}
    (hcall : calls t = .add owner token) (hstep : terminalStep calls s (.lock t) = some s')
    (hfails : s'.pc t = .added (.error err)) : s' = s.setPc t (.added (.error err)) := by
  cases hpc : s.pc t with
  | start =>
    simp only [terminalStep, hpc, hcall, Option.some.injEq] at hstep
    subst hstep
    unfold TerminalState.add at hfails ⊢
    cases hadd : (s.store.add owner token).1 with
    | error err' =>
      simp only [hadd, setPc_self] at hfails ⊢
      rw [hfails]
    | ok id =>
      simp only [hadd, setPc_self] at hfails
      cases hfails
  | _ =>
    simp only [terminalStep, hpc, hcall] at hstep
    cases hstep

/-- A call that has claimed after a step has done so before, or does so in the step. -/
theorem setPc_claimed {t t' : T} {pc : CallPc} (h : (s.setPc t pc).pc t' = .claimed true) :
    s.pc t' = .claimed true ∨ t' = t ∧ pc = .claimed true := by
  by_cases ht : t' = t
  · subst ht
    rw [setPc_self] at h
    exact .inr ⟨rfl, h⟩
  · rw [setPc_others s t pc t' ht] at h
    exact .inl h

theorem claimed_of_setPc {t t' : T} {pc : CallPc} (hpc : pc ≠ .claimed true)
    (h : (s.setPc t pc).pc t' = .claimed true) : s.pc t' = .claimed true :=
  (setPc_claimed h).resolve_right fun hnew => hpc hnew.2

theorem add_claimed {t t' : T} {owner : String} {token : Except String String}
    (h : (s.add t owner token).pc t' = .claimed true) : s.pc t' = .claimed true := by
  unfold TerminalState.add at h
  cases hadd : (s.store.add owner token).1 with
  | error err =>
    simp only [hadd] at h
    exact claimed_of_setPc (by simp) h
  | ok id =>
    simp only [hadd] at h
    exact claimed_of_setPc (by simp) h

/-- A claim that has succeeded has done so before, or does so now and is recorded. -/
theorem claimed_cases {a : TerminalAction T} {t : T} (hstep : terminalStep calls s a = some s')
    (hclaimed : s'.pc t = .claimed true) : s.pc t = .claimed true ∨
      ∃ id owner, calls t = .claim id owner ∧ (∀ t', s'.pc t' = .claimed true →
        s.pc t' = .claimed true ∨ t' = t) ∧
        (id, ⟨owner, false⟩) ∈ s.store.sessions ∧ s'.claims = s.claims ++ [(id, owner)] := by
  cases a with
  | lock t₀ =>
    simp only [terminalStep] at hstep
    split at hstep
    · cases hstep
      exact .inl (add_claimed hclaimed)
    · next id owner hpc hcall =>
      cases hstep
      rcases setPc_claimed hclaimed with hbefore | ⟨rfl, hok⟩
      · exact .inl hbefore
      · rw [CallPc.claimed.injEq] at hok
        refine .inr ⟨id, owner, hcall, fun t' ht' => (setPc_claimed ht').imp_right And.left,
          TerminalSessionStore.claim_eq_true_iff.mp hok, ?_⟩
        simp [TerminalState.claim, hok]
    iterate 4
      cases hstep
      exact .inl (claimed_of_setPc (by simp) hclaimed)
    · cases hstep
  | fire t₀ =>
    simp only [terminalStep] at hstep
    split at hstep
    · split at hstep
      · cases hstep
        exact .inl (claimed_of_setPc (by simp) hclaimed)
      · cases hstep
    · cases hstep
  | stop t₀ id =>
    simp only [terminalStep] at hstep
    split at hstep
    · split at hstep
      · cases hstep
        exact .inl (claimed_of_setPc (by simp) hclaimed)
      · cases hstep
    · cases hstep
  | close t₀ =>
    simp only [terminalStep] at hstep
    split at hstep
    · cases hstep
      exact .inl (claimed_of_setPc (by simp) hclaimed)
    · cases hstep
  | stream t₀ =>
    simp only [terminalStep] at hstep
    split at hstep
    · split at hstep
      · cases hstep
        exact .inl (claimed_of_setPc (by simp) hclaimed)
      · cases hstep
    · cases hstep

/-- The claims that have succeeded are recorded, each session's once. -/
structure TerminalState.Claimed (calls : T → TerminalCall) (s : TerminalState T) : Prop where
  recorded : ∀ t id owner, calls t = .claim id owner → s.pc t = .claimed true →
    (id, owner) ∈ s.claims
  once : ∀ t t' id owner owner', calls t = .claim id owner → calls t' = .claim id owner' →
    s.pc t = .claimed true → s.pc t' = .claimed true → t = t'

theorem TerminalState.Claimed.step {a : TerminalAction T} (h : s.Claimed calls) (hinv : s.Inv)
    (hok : FreshTokens calls s a) (hstep : terminalStep calls s a = some s') :
    s'.Claimed calls := by
  have hmono := (terminalStep_move hok hstep).claims_mono
  -- a claim that succeeds now is of a session that no recorded claim is about
  have hnew : ∀ t id owner, calls t = .claim id owner → s'.pc t = .claimed true →
      s.pc t = .claimed true ∨ (id, owner) ∈ s'.claims ∧ id ∉ s.claims.map Prod.fst ∧
        ∀ t', s'.pc t' = .claimed true → s.pc t' = .claimed true ∨ t' = t := by
    intro t id owner hcall hclaimed
    rcases claimed_cases hstep hclaimed with hbefore | ⟨id', owner', hcall', hothers, hentry, hadd⟩
    · exact .inl hbefore
    · rw [hcall'] at hcall
      cases hcall
      refine .inr ⟨?_, hinv.unclaimed _ hentry rfl, hothers⟩
      rw [hadd]
      simp
  constructor
  · intro t id owner hcall hclaimed
    rcases hnew t id owner hcall hclaimed with hbefore | ⟨hmem, -⟩
    · exact hmono (h.recorded t id owner hcall hbefore)
    · exact hmem
  · intro t t' id owner owner' hcall hcall' hclaimed hclaimed'
    rcases hnew t id owner hcall hclaimed with hbefore | ⟨-, hnone, hothers⟩
    · rcases hnew t' id owner' hcall' hclaimed' with hbefore' | ⟨-, hnone, -⟩
      · exact h.once t t' id owner owner' hcall hcall' hbefore hbefore'
      · exact absurd (List.mem_map_of_mem (h.recorded t id owner hcall hbefore)) hnone
    · rcases hothers t' hclaimed' with hbefore' | rfl
      · exact absurd (List.mem_map_of_mem (h.recorded t' id owner' hcall' hbefore')) hnone
      · rfl

theorem TerminalRun.claimed (hrun : TerminalRun calls as s) : s.Claimed calls := by
  have hboth : s.Inv ∧ s.Claimed calls := by
    refine Run.invariant (fun u => u.Inv ∧ u.Claimed calls) ⟨inv_start, ?_⟩ ?_ hrun
    · constructor
      · rintro t id owner - hclaimed
        cases hclaimed
      · rintro t t' id owner owner' - - hclaimed
        cases hclaimed
    · rintro u a u' ⟨hinv, hclaimed⟩ hok hstep
      exact ⟨hinv.move (terminalStep_move hok hstep), hclaimed.step hinv hok hstep⟩
  exact hboth.2

/-- In every state of every run of any calls of the store, the timers and the streaming handlers:
    the store holds at most eight sessions, and at most two of one user; of the claims of a
    session at most one succeeds, and it is one of its owner's; no operation of the store has
    closed a session that is in the store; when every call that has begun has returned, each
    session that left the store has been closed exactly once; and an `Add` that fails leaves
    the store as it was. -/
theorem terminal_store (hrun : TerminalRun calls as s) :
    (s.store.sessions.length ≤ 8 ∧ ∀ owner, s.store.userSessions owner ≤ 2) ∧
    (∀ t t' id owner owner', calls t = .claim id owner → calls t' = .claim id owner' →
      s.pc t = .claimed true → s.pc t' = .claimed true → t = t') ∧
    (∀ t id owner, calls t = .claim id owner → s.pc t = .claimed true →
      ∀ owner', (id, owner') ∈ s.added ↔ owner' = owner) ∧
    (∀ id, s.Stored id → (s.ends id).storeCloses = 0) ∧
    ((∀ t, s.pc t = .start ∨ (s.pc t).Finished) → ∀ id, s.Added id → ¬ s.Stored id →
      (s.ends id).sshCloses = 1) ∧
    (∀ t owner token err s', calls t = .add owner token →
      terminalStep calls s (.lock t) = some s' → s'.pc t = .added (.error err) →
      s'.store = s.store) := by
  have hinv := TerminalRun.inv hrun
  have hclaims := TerminalRun.claimed hrun
  refine ⟨⟨hinv.limit, hinv.userLimit⟩, hclaims.once, ?_,
    fun id hid => hinv.untouched id (.inl hid), ?_, ?_⟩
  · intro t id owner hcall hclaimed owner'
    have hadded := hinv.claims _ (hclaims.recorded t id owner hcall hclaimed)
    constructor
    · intro hadded'
      exact congrArg Prod.snd (List.inj_on_of_nodup_map hinv.addedOnce hadded' hadded rfl)
    · rintro rfl
      exact hadded
  · intro hfinished id hadded hgone
    have honce := (hinv.gone id hadded hgone).resolve_left (not_pending_of_finished hfinished id)
    rw [hinv.once id, if_pos honce]
  · intro t owner token err s' hcall hstep hfails
    rw [add_fails hcall hstep hfails]
    rfl

end Run

section Example

/-- Alice opens a terminal (`add`), claims it, streams it and closes it; its timer fires at the
    same time. -/
private def aliceCalls : Fin 5 → TerminalCall
  | 0 => .add "alice" (.ok "id")
  | 1 => .claim "id" "alice"
  | 2 => .stream "id"
  | 3 => .timer "id"
  | 4 => .closeUsername "alice"

private def aliceActions : List (TerminalAction (Fin 5)) :=
  [.lock 0, .lock 1, .fire 3, .lock 4, .stream 2, .lock 3, .stop 4 "id", .close 4]

private def freshToken (s : TerminalState (Fin 5)) : TerminalAction (Fin 5) → Bool
  | .lock 0 => decide ("id" ∉ s.added.map Prod.fst)
  | _ => true

private theorem freshTokens_of_freshToken (s : TerminalState (Fin 5))
    (a : TerminalAction (Fin 5)) (h : freshToken s a = true) : FreshTokens aliceCalls s a := by
  cases a with
  | lock t =>
    intro owner id hcall
    match t with
    | 0 =>
      cases hcall
      simpa [freshToken] using h
    | 1 | 2 | 3 | 4 => cases hcall
  | _ => trivial

private def aliceEnd : Option (TerminalState (Fin 5)) :=
  exec (terminalStep aliceCalls) freshToken .start aliceActions

private def CallPc.isFinished : CallPc → Bool
  | .added _ | .claimed _ | .streamed => true
  | .closing ids stopped => ids = [] && stopped.isNone
  | .start | .fired => false

private theorem callPc_finished {pc : CallPc} (h : pc.isFinished = true) : pc.Finished := by
  cases pc with
  | closing ids stopped => simpa [CallPc.isFinished, CallPc.Finished] using h
  | start => cases h
  | fired => cases h
  | _ => trivial

private theorem aliceEnd_finished : (aliceEnd.any fun s =>
    decide (∀ t, (s.pc t).isFinished = true) && decide ("id" ∈ s.added.map Prod.fst) &&
      decide ("id" ∉ s.store.sessions.map Prod.fst)) = true := by decide +kernel

/-- The terminal of alice is closed once, by whichever of the three comes first. -/
theorem terminal_store_alice : ∃ s, TerminalRun aliceCalls aliceActions s ∧
    (s.ends "id").sshCloses = 1 := by
  obtain ⟨s, hs, hend⟩ := (Option.any_eq_true _ _).mp aliceEnd_finished
  simp only [Bool.and_eq_true, decide_eq_true_eq] at hend
  obtain ⟨⟨hfinished, hadded⟩, hgone⟩ := hend
  have hrun : TerminalRun aliceCalls aliceActions s :=
    Run.mono freshTokens_of_freshToken (run_of_exec hs)
  obtain ⟨-, -, -, -, hclosed, -⟩ := terminal_store hrun
  exact ⟨s, hrun, hclosed (fun t => .inr (callPc_finished (hfinished t))) "id" hadded hgone⟩

end Example

end OpenHpcWeb.Web
