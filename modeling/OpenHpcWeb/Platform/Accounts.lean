/-
  The other operations of the store of platform users: `Upsert` and `List` of
  internal/platform/users.go.

  * `find?_upsert`: a successful `Upsert` makes the account, or gives the one there is its
    password, role and status, and leaves the rest of it and all others.
  * `list_ok`: `List` has every account once, ordered by username.
-/
import OpenHpcWeb.Platform.Users

namespace OpenHpcWeb.Platform.UserStore

open OpenHpcWeb.Go

variable {s : UserStore} {user : PlatformUser} {name : String}

/-! ## `Upsert` -/

/-- `ON CONFLICT(username) DO UPDATE SET password_hash, role, enabled`. -/
def updateRow (user row : PlatformUser) : PlatformUser :=
  { row with passwordHash := user.passwordHash, role := user.role, enabled := user.enabled }

def updateCredentials (user : PlatformUser) (s : UserStore) : UserStore where
  rows := s.rows.map fun row => if row.username = user.username then updateRow user row else row
  keyed := by
    have hname : (PlatformUser.username ∘ fun row : PlatformUser =>
        if row.username = user.username then updateRow user row else row) =
        PlatformUser.username := by
      funext row
      simp only [Function.comp]
      split <;> rfl
    rw [List.map_map, hname]
    exact s.keyed
  valid := by
    intro row hrow
    obtain ⟨old, hold, rfl⟩ := List.mem_map.mp hrow
    have hvalid := s.valid old hold
    split <;> exact hvalid

/-- The row that an account is inserted with. -/
def stamped (now : Time) (user : PlatformUser) : PlatformUser :=
  { user with createdAt := if isZeroTime user.createdAt then now else user.createdAt }

/-- `Upsert`: its error, if any, and the store. -/
def upsert (parseAddress : String → Option String) (fault : Option String) (now : Time)
    (user : PlatformUser) (s : UserStore) : Except String Unit × UserStore :=
  if hvalid : ValidUsername user.username then
    match validateUserProfile parseAddress user.phone user.organization user.email with
    | .error err => (.error err, s)
    | .ok () =>
      if trimSpace user.passwordHash = "" then (.error "password hash is required", s)
      else
        match fault with
        | some text => (.error ("save platform user: " ++ text), s)
        | none =>
          if hnew : s.find? user.username = none then
            (.ok (), s.insert (stamped now user) hnew hvalid)
          else (.ok (), s.updateCredentials user)
  else (validateUsername user.username, s)

theorem find?_insert (user : PlatformUser) (hnew : s.find? user.username = none)
    (hvalid : ValidUsername user.username) (name : String) :
    (s.insert user hnew hvalid).find? name =
      if name = user.username then some user else s.find? name := by
  unfold find? at hnew ⊢
  unfold insert
  rw [List.find?_append]
  by_cases heq : name = user.username
  · rw [if_pos heq, heq, hnew]
    simp
  · have hne : user.username ≠ name := fun h => heq h.symm
    rw [if_neg heq]
    simp [hne]

theorem find?_updateCredentials : (s.updateCredentials user).find? name =
    if name = user.username then (s.find? name).map (updateRow user) else s.find? name := by
  unfold find? updateCredentials
  rw [List.find?_map]
  have hpred : ((fun row : PlatformUser => decide (row.username = name)) ∘ fun row : PlatformUser =>
      if row.username = user.username then updateRow user row else row) =
      fun row : PlatformUser => decide (row.username = name) := by
    funext row
    simp only [Function.comp]
    split <;> rfl
  rw [hpred]
  cases hfind : s.rows.find? fun row => decide (row.username = name) with
  | none => simp
  | some row =>
    have hname : row.username = name := by simpa using List.find?_some hfind
    by_cases heq : name = user.username
    · simp [hname, heq]
    · have hne : row.username ≠ user.username := by rw [hname]; exact heq
      simp [hne, heq]

variable {parseAddress : String → Option String} {fault : Option String} {now : Time}

theorem upsert_error (h : (s.upsert parseAddress fault now user).1.isOk = false) :
    (s.upsert parseAddress fault now user).2 = s := by
  unfold upsert at h ⊢
  split
  · next hvalid =>
    rw [dif_pos hvalid] at h
    split
    · rfl
    · next hprofile =>
      rw [hprofile] at h
      split
      · rfl
      · next hhash =>
        simp only [if_neg hhash] at h
        cases fault with
        | some text => rfl
        | none =>
          simp only at h
          split at h <;> cases h
  · rfl

/-- A successful `Upsert` makes the account it names, or updates it. -/
theorem find?_upsert (h : (s.upsert parseAddress fault now user).1.isOk = true) :
    (s.upsert parseAddress fault now user).2.find? name =
      if name = user.username then
        some ((s.find? name).elim (stamped now user) (updateRow user))
      else s.find? name := by
  unfold upsert at h ⊢
  split
  · next hvalid =>
    rw [dif_pos hvalid] at h
    split
    · next err hprofile =>
      rw [hprofile] at h
      cases h
    · next hprofile =>
      rw [hprofile] at h
      split
      · next hhash =>
        simp only [if_pos hhash] at h
        cases h
      · next hhash =>
        simp only [if_neg hhash] at h
        cases fault with
        | some text => cases h
        | none =>
          simp only
          split
          · next hnew =>
            rw [find?_insert (stamped now user) hnew hvalid name]
            by_cases heq : name = user.username
            · rw [heq, hnew]
              rfl
            · rw [if_neg heq]
              exact if_neg heq
          · next hthere =>
            rw [find?_updateCredentials]
            by_cases heq : name = user.username
            · obtain ⟨row, hrow⟩ := Option.ne_none_iff_exists'.mp hthere
              rw [if_pos heq, if_pos heq, heq, hrow]
              rfl
            · rw [if_neg heq, if_neg heq]
  · next hinvalid =>
    rw [dif_neg hinvalid] at h
    obtain ⟨err, herr⟩ := validateUsername_ne_ok hinvalid
    rw [herr] at h
    cases h

/-! ## `Create` -/

theorem create_error (h : (s.create parseAddress fault now user).1.isOk = false) :
    (s.create parseAddress fault now user).2 = s := by
  unfold create at h ⊢
  split
  · next hvalid =>
    rw [dif_pos hvalid] at h
    split
    · rfl
    · next hprofile =>
      rw [hprofile] at h
      split
      · rfl
      · next hhash =>
        simp only [if_neg hhash] at h
        cases fault with
        | some text => rfl
        | none =>
          simp only at h ⊢
          split
          · next hnew =>
            rw [dif_pos hnew] at h
            cases h
          · rfl
  · rfl

/-- A successful `Create` makes an account that was not there. -/
theorem find?_create (h : (s.create parseAddress fault now user).1.isOk = true) :
    s.find? user.username = none ∧ ∀ name, (s.create parseAddress fault now user).2.find? name =
      if name = user.username then some (stamped now user) else s.find? name := by
  unfold create at h ⊢
  split
  · next hvalid =>
    rw [dif_pos hvalid] at h
    split
    · next err hprofile =>
      rw [hprofile] at h
      cases h
    · next hprofile =>
      rw [hprofile] at h
      split
      · next hhash =>
        simp only [if_pos hhash] at h
        cases h
      · next hhash =>
        simp only [if_neg hhash] at h
        cases fault with
        | some text => cases h
        | none =>
          simp only at h ⊢
          split
          · next hnew => exact ⟨hnew, find?_insert (stamped now user) hnew hvalid⟩
          · next hthere =>
            rw [dif_neg hthere] at h
            cases h
  · next hinvalid =>
    rw [dif_neg hinvalid] at h
    obtain ⟨err, herr⟩ := validateUsername_ne_ok hinvalid
    rw [herr] at h
    cases h

/-! ## `List` -/

/-- `List`. A fault is the text of its error: that of the query is wrapped, that of a row is
    not. -/
def list (fault : Option String) (s : UserStore) : Except String (List PlatformUser) :=
  match fault with
  | some text => .error text
  | none => .ok (s.rows.insertionSort fun a b => a.username ≤ b.username)

/-- `List` has every account once, ordered by username. -/
theorem list_ok {users : List PlatformUser} (h : s.list none = .ok users) :
    (users.map PlatformUser.username).Pairwise (· < ·) ∧
      ∀ user, user ∈ users ↔ s.find? user.username = some user := by
  have husers : users = s.rows.insertionSort fun a b => a.username ≤ b.username :=
    (Except.ok.inj h).symm
  have hperm : users.Perm s.rows := husers ▸ List.perm_insertionSort _ s.rows
  have hnodup : (users.map PlatformUser.username).Nodup :=
    (hperm.map PlatformUser.username).nodup_iff.mpr s.keyed
  constructor
  · have hsorted : users.Pairwise fun a b => a.username ≤ b.username :=
      husers ▸ List.pairwise_insertionSort _ s.rows
    have hle : (users.map PlatformUser.username).Pairwise (· ≤ ·) := List.pairwise_map.mpr hsorted
    exact hle.imp₂ (fun _ _ hle hne => lt_of_le_of_ne hle hne) hnodup
  · intro user
    rw [hperm.mem_iff]
    refine ⟨fun hmem => ?_, fun hfind => mem_of_find? hfind⟩
    cases hfind : s.find? user.username with
    | none =>
      have hno := List.find?_eq_none.mp hfind user hmem
      simp at hno
    | some other =>
      have hother : other ∈ s.rows := mem_of_find? hfind
      have hname : other.username = user.username := find?_username hfind
      exact congrArg some (List.inj_on_of_nodup_map s.keyed hother hmem hname)

end OpenHpcWeb.Platform.UserStore
