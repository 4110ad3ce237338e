/-
  The store of SSH terminals: `terminalSessionStore` of internal/web/terminal.go.

  `Add` and `Claim` hold the lock from their first line to their last. `Release`,
  `CloseUsername` and `Close` take sessions out of the map under the lock (`takeOut`) and close
  them without it; the store has no part in that.

  A session has the id under which it was added.
-/
import Mathlib.Data.List.Nodup

namespace OpenHpcWeb.Web

/-! ## The store -/

def maxTerminalSessions : Nat := 8

def maxTerminalSessionsPerUser : Nat := 2

/-- `managedTerminalSession` as far as the lock protects it. -/
structure ManagedTerminalSession where
  owner : String
  claimed : Bool
  deriving DecidableEq

/-- The map of the store. -/
structure TerminalSessionStore where
  sessions : List (String × ManagedTerminalSession)
  keyed : (sessions.map Prod.fst).Nodup

namespace TerminalSessionStore

def empty : TerminalSessionStore := ⟨[], List.nodup_nil⟩

/-- The sessions of one user. -/
def userSessions (s : TerminalSessionStore) (owner : String) : Nat :=
  s.sessions.countP fun entry => entry.2.owner = owner

/-- The map without the entries that satisfy `p`. -/
def without (p : String × ManagedTerminalSession → Bool) (s : TerminalSessionStore) :
    TerminalSessionStore where
  sessions := s.sessions.filter fun entry => !p entry
  keyed := (List.filter_sublist.map Prod.fst).nodup s.keyed

/-- `s.sessions[id] = managed`. -/
def set (id : String) (managed : ManagedTerminalSession) (s : TerminalSessionStore) :
    TerminalSessionStore where
  sessions := (s.without fun entry => entry.1 = id).sessions ++ [(id, managed)]
  keyed := by
    rw [List.map_append, List.nodup_append]
    refine ⟨(s.without _).keyed, List.nodup_singleton _, ?_⟩
    rintro key hkey _ hid rfl
    obtain ⟨entry, hentry, rfl⟩ := List.mem_map.mp hkey
    simp [without] at hentry hid
    exact hentry.2 hid

/-- `Add`: the id, if there is one, and the store. `token` is the outcome of `randomToken`. -/
def add (owner : String) (token : Except String String) (s : TerminalSessionStore) :
    Except String String × TerminalSessionStore :=
  if maxTerminalSessions ≤ s.sessions.length then (.error "terminal session limit reached", s)
  else if maxTerminalSessionsPerUser ≤ s.userSessions owner then
    (.error "terminal session limit reached", s)
  else
    match token with
    | .error err => (.error err, s)
    | .ok id => (.ok id, s.set id ⟨owner, false⟩)

/-- The entry `Claim` looks for: under this id, not yet claimed, of this owner. -/
def claimable (id owner : String) (entry : String × ManagedTerminalSession) : Bool :=
  entry.1 = id && !entry.2.claimed && entry.2.owner = owner

/-- `Claim`: whether it succeeds, and the store. -/
def claim (id owner : String) (s : TerminalSessionStore) : Bool × TerminalSessionStore :=
  (s.sessions.any (claimable id owner),
    { sessions := s.sessions.map fun entry =>
        if claimable id owner entry then (entry.1, { entry.2 with claimed := true }) else entry
      keyed := by
        have hkeys : (Prod.fst ∘ fun entry : String × ManagedTerminalSession =>
            if claimable id owner entry then (entry.1, { entry.2 with claimed := true })
            else entry) = Prod.fst := by
          funext entry
          simp only [Function.comp]
          split <;> rfl
        rw [List.map_map, hkeys]
        exact s.keyed })

/-- A section under the lock that takes entries out: their ids, and the store without them. -/
def takeOut (p : String × ManagedTerminalSession → Bool) (s : TerminalSessionStore) :
    List String × TerminalSessionStore :=
  ((s.sessions.filter p).map Prod.fst, s.without p)

/-- `Release` under the lock. -/
def release (id : String) : TerminalSessionStore → List String × TerminalSessionStore :=
  takeOut fun entry => entry.1 = id

/-- `CloseUsername` under the lock. -/
def closeUsername (username : String) : TerminalSessionStore → List String × TerminalSessionStore :=
  takeOut fun entry => entry.2.owner = username

/-- `Close` under the lock. -/
def close : TerminalSessionStore → List String × TerminalSessionStore :=
  takeOut fun _ => true

/-! ### What the operations leave -/

variable {s : TerminalSessionStore} {id owner : String} {entry : String × ManagedTerminalSession}

/-- What `Add` has checked when it adds. -/
theorem add_ok {token : Except String String} (h : (s.add owner token).1 = .ok id) :
    token = .ok id ∧ s.sessions.length < maxTerminalSessions ∧
      s.userSessions owner < maxTerminalSessionsPerUser ∧
      (s.add owner token).2 = s.set id ⟨owner, false⟩ := by
  unfold add at h ⊢
  split at h
  · cases h
  · next hlimit =>
    split at h
    · cases h
    · next huser =>
      cases token with
      | error err => cases h
      | ok id' =>
        cases h
        rw [if_neg hlimit, if_neg huser]
        exact ⟨rfl, by omega, by omega, rfl⟩

/-- `Add` adds where there is room. -/
theorem add_of_room (hroom : s.sessions.length < maxTerminalSessions)
    (huser : s.userSessions owner < maxTerminalSessionsPerUser) :
    s.add owner (.ok id) = (.ok id, s.set id ⟨owner, false⟩) := by
  unfold add
  rw [if_neg (by omega), if_neg (by omega)]

theorem mem_without {p : String × ManagedTerminalSession → Bool} :
    entry ∈ (s.without p).sessions ↔ entry ∈ s.sessions ∧ p entry = false := by
  simp [without]

theorem mem_set {managed : ManagedTerminalSession} : entry ∈ (s.set id managed).sessions ↔
    entry ∈ s.sessions ∧ entry.1 ≠ id ∨ entry = (id, managed) := by
  simp [set, mem_without]

theorem length_set_le (s : TerminalSessionStore) (id : String) (managed : ManagedTerminalSession) :
    (s.set id managed).sessions.length ≤ s.sessions.length + 1 := by
  have hle := List.length_filter_le (fun entry => !decide (entry.1 = id)) s.sessions
  simpa [set, without] using hle

theorem userSessions_set_le (s : TerminalSessionStore) (id : String)
    (managed : ManagedTerminalSession) (owner : String) :
    (s.set id managed).userSessions owner ≤
      s.userSessions owner + if managed.owner = owner then 1 else 0 := by
  have hle : (s.sessions.filter fun entry => !decide (entry.1 = id)).countP
      (fun entry => entry.2.owner = owner) ≤ s.sessions.countP fun entry => entry.2.owner = owner :=
    List.filter_sublist.countP_le
  simp only [userSessions, set, without, List.countP_append, List.countP_singleton,
    decide_eq_true_eq]
  omega

theorem length_without_le (s : TerminalSessionStore)
    (p : String × ManagedTerminalSession → Bool) :
    (s.without p).sessions.length ≤ s.sessions.length := List.length_filter_le _ _

theorem userSessions_without_le (s : TerminalSessionStore)
    (p : String × ManagedTerminalSession → Bool) (owner : String) :
    (s.without p).userSessions owner ≤ s.userSessions owner :=
  List.filter_sublist.countP_le

theorem claim_eq_true_iff : (s.claim id owner).1 = true ↔ (id, ⟨owner, false⟩) ∈ s.sessions := by
  simp only [claim, List.any_eq_true, claimable, Bool.and_eq_true, decide_eq_true_eq,
    Bool.not_eq_true']
  constructor
  · rintro ⟨⟨key, managed⟩, hmem, ⟨rfl, hclaimed⟩, rfl⟩
    obtain ⟨owner', claimed⟩ := managed
    obtain rfl : claimed = false := hclaimed
    exact hmem
  · intro hmem
    exact ⟨_, hmem, ⟨rfl, rfl⟩, rfl⟩

theorem claim_false (h : (s.claim id owner).1 = false) : (s.claim id owner).2 = s := by
  have hnone : ∀ entry ∈ s.sessions, claimable id owner entry = false := by
    simpa [claim] using h
  have hsame : (s.claim id owner).2.sessions = s.sessions := by
    refine (List.map_congr_left fun entry hentry => ?_).trans (List.map_id _)
    rw [hnone entry hentry]
    rfl
  cases hs : s.claim id owner with
  | mk ok s' =>
    rw [hs] at hsame
    cases s
    cases s'
    simp only at hsame
    subst hsame
    rfl

/-- Claiming changes no key and no owner. -/
theorem mem_claim (h : entry ∈ (s.claim id owner).2.sessions) :
    ∃ before ∈ s.sessions, entry.1 = before.1 ∧ entry.2.owner = before.2.owner ∧
      (entry.2.claimed = false → entry = before ∧ claimable id owner before = false) := by
  obtain ⟨before, hbefore, rfl⟩ := List.mem_map.mp h
  refine ⟨before, hbefore, ?_⟩
  split
  · exact ⟨rfl, rfl, fun hno => nomatch hno⟩
  · next hno => exact ⟨rfl, rfl, fun _ => ⟨rfl, by simpa using hno⟩⟩

theorem keys_claim (s : TerminalSessionStore) (id owner : String) :
    (s.claim id owner).2.sessions.map Prod.fst = s.sessions.map Prod.fst := by
  simp only [claim, List.map_map]
  refine List.map_congr_left fun entry _ => ?_
  simp only [Function.comp]
  split <;> rfl

theorem length_claim (s : TerminalSessionStore) (id owner : String) :
    (s.claim id owner).2.sessions.length = s.sessions.length := List.length_map _

theorem userSessions_claim (s : TerminalSessionStore) (id owner owner' : String) :
    (s.claim id owner).2.userSessions owner' = s.userSessions owner' := by
  simp only [userSessions, claim, List.countP_map]
  refine List.countP_congr fun entry _ => ?_
  simp only [Function.comp]
  split <;> simp

end TerminalSessionStore

end OpenHpcWeb.Web
