/-
  The platform users of internal/platform/users.go.

  The table `platform_users` is a list of rows. Its primary key and the checks of `Create`
  and `Upsert` are fields of `UserStore`, so every store has distinct, valid usernames. A
  statement that fails does so with the text of the driver (`fault`) and changes nothing;
  the text of `created_at` keeps the time, so parsing it back does not fail.

  * `validateUsername_eq_ok_iff`: the usernames the store takes.
  * `find?_setEnabled`: what `SetEnabled` does to each account.
-/
import OpenHpcWeb.Platform.Partitions

namespace OpenHpcWeb.Platform

open OpenHpcWeb.Go

/-- `UserRole`; the table's CHECK admits no other text. -/
inductive UserRole where
  | admin
  | user
  deriving DecidableEq

structure PlatformUser where
  username : String
  passwordHash : String
  role : UserRole
  phone : String
  organization : String
  email : String
  enabled : Bool
  createdAt : Time
  deriving DecidableEq

/-! ## Usernames -/

/-- The characters of `platformUsernamePattern`. -/
def usernameChar (c : Char) : Bool :=
  c.isAlphanum || c = '.' || c = '_' || c = '-'

/-- `platformUsernamePattern.MatchString`: one to 64 of its characters. -/
def matchesUsernamePattern (username : String) : Bool :=
  decide (username.toList ≠ []) && decide (username.toList.length ≤ 64) &&
    username.toList.all usernameChar

def validateUsername (username : String) : Except String Unit :=
  if ¬ matchesUsernamePattern username ∨ username = "." ∨ username = ".." then
    .error "username must be 1-64 letters, digits, dot, underscore, or hyphen"
  else .ok ()

/-- The usernames of the platform. -/
def ValidUsername (username : String) : Prop :=
  matchesUsernamePattern username = true ∧ username ≠ "." ∧ username ≠ ".."

instance (username : String) : Decidable (ValidUsername username) :=
  inferInstanceAs (Decidable (_ ∧ _))

theorem validateUsername_eq_ok_iff {username : String} :
    validateUsername username = .ok () ↔ ValidUsername username := by
  unfold validateUsername ValidUsername
  split
  · next h =>
    constructor
    · intro hok
      cases hok
    · rintro ⟨hpattern, hdot, hdots⟩
      simp [hpattern, hdot, hdots] at h
  · next h =>
    simp only [not_or, not_not] at h
    exact ⟨fun _ => h, fun _ => rfl⟩

theorem validateUsername_ne_ok {username : String} (h : ¬ ValidUsername username) :
    ∃ err, validateUsername username = .error err := by
  cases herr : validateUsername username with
  | error err => exact ⟨err, rfl⟩
  | ok u => exact absurd (validateUsername_eq_ok_iff.mp herr) h

/-! ## Profiles -/

/-- `ValidateUserProfile`; `parseAddress` is the address that `mail.ParseAddress` reads. -/
def validateUserProfile (parseAddress : String → Option String)
    (phone organization email : String) : Except String Unit :=
  if 64 < byteLen phone then .error "phone must not exceed 64 bytes"
  else if 200 < byteLen organization then .error "organization must not exceed 200 bytes"
  else if 254 < byteLen email then .error "email must not exceed 254 bytes"
  else if email ≠ "" ∧ parseAddress email ≠ some email then
    .error "email must be a valid address"
  else .ok ()

/-! ## The store -/

/-- `platform_users`. -/
structure UserStore where
  rows : List PlatformUser
  /-- the primary key -/
  keyed : (rows.map PlatformUser.username).Nodup
  /-- `Create` and `Upsert` validate before they insert -/
  valid : ∀ user ∈ rows, ValidUsername user.username

namespace UserStore

/-- `SELECT .. WHERE username = ?`. The comparison is SQLite's BINARY collation. -/
def find? (s : UserStore) (username : String) : Option PlatformUser :=
  s.rows.find? fun user => user.username = username

/-- `Get`: the account, if there is one, or the error. -/
def get (fault : Option String) (s : UserStore) (username : String) :
    Except String (Option PlatformUser) := do
  validateUsername username
  match fault with
  | some text => .error ("read platform user: " ++ text)
  | none => .ok (s.find? username)

def empty : UserStore := ⟨[], List.nodup_nil, fun _ h => absurd h List.not_mem_nil⟩

/-- The table after an `INSERT` that neither the key nor the checks of `Create` refuse. -/
def insert (user : PlatformUser) (s : UserStore) (hnew : s.find? user.username = none)
    (hvalid : ValidUsername user.username) : UserStore where
  rows := s.rows ++ [user]
  keyed := by
    rw [List.map_append, List.nodup_append]
    refine ⟨s.keyed, List.nodup_singleton _, ?_⟩
    rintro name hname _ hsingle rfl
    obtain ⟨row, hrow, rfl⟩ := List.mem_map.mp hname
    have hno := List.find?_eq_none.mp hnew row hrow
    exact hno (by simpa using hsingle)
  valid := by
    intro row hrow
    rcases List.mem_append.mp hrow with hrow | hrow
    · exact s.valid row hrow
    · rw [List.mem_singleton.mp hrow]
      exact hvalid

/-- The zero `time.Time`, in nanoseconds. -/
def isZeroTime (t : Time) : Bool := t = -62135596800000000000

/-- `Create`: its error, if any, and the store. The role is valid by its type. -/
def create (parseAddress : String → Option String) (fault : Option String) (now : Time)
    (user : PlatformUser) (s : UserStore) : Except String Unit × UserStore :=
  if hvalid : ValidUsername user.username then
    match validateUserProfile parseAddress user.phone user.organization user.email with
    | .error err => (.error err, s)
    | .ok () =>
      if trimSpace user.passwordHash = "" then (.error "password hash is required", s)
      else
        match fault with
        | some text => (.error ("create platform user: " ++ text), s)
        | none =>
          if hnew : s.find? user.username = none then
            (.ok (), s.insert
              { user with createdAt := if isZeroTime user.createdAt then now else user.createdAt }
              hnew hvalid)
          else (.error "platform user already exists", s)
  else (validateUsername user.username, s)

/-- The table after `UPDATE platform_users SET enabled = ? WHERE username = ?`. -/
def updateEnabled (username : String) (enabled : Bool) (s : UserStore) : UserStore where
  rows := s.rows.map fun user =>
    if user.username = username then { user with enabled := enabled } else user
  keyed := by
    have hname : (PlatformUser.username ∘ fun user : PlatformUser =>
        if user.username = username then { user with enabled := enabled } else user) =
        PlatformUser.username := by
      funext user
      simp only [Function.comp]
      split <;> rfl
    rw [List.map_map, hname]
    exact s.keyed
  valid := by
    intro user huser
    obtain ⟨row, hrow, rfl⟩ := List.mem_map.mp huser
    have := s.valid row hrow
    split <;> exact this

/-- `SetEnabled`: its error, if any, and the store. -/
def setEnabled (fault : Option String) (username : String) (enabled : Bool) (s : UserStore) :
    Except String Unit × UserStore :=
  match validateUsername username with
  | .error err => (.error err, s)
  | .ok () =>
    match fault with
    | some text => (.error ("update platform user: " ++ text), s)
    | none =>
      if (s.find? username).isSome then (.ok (), s.updateEnabled username enabled)
      else (.error "sql: no rows in result set", s)

/-- An enabled administrator account. -/
def EnabledAdmin (s : UserStore) (username : String) : Prop :=
  ∃ user, s.find? username = some user ∧ user.enabled = true ∧ user.role = .admin

instance (s : UserStore) (username : String) : Decidable (s.EnabledAdmin username) :=
  match h : s.find? username with
  | none => isFalse (by rintro ⟨user, hfind, -⟩; rw [h] at hfind; cases hfind)
  | some user => decidable_of_iff (user.enabled = true ∧ user.role = .admin) (by
      unfold EnabledAdmin
      rw [h]
      simp)

theorem find?_username {s : UserStore} {username : String} {user : PlatformUser}
    (h : s.find? username = some user) : user.username = username := by
  have := List.find?_some h
  simpa using this

theorem mem_of_find? {s : UserStore} {username : String} {user : PlatformUser}
    (h : s.find? username = some user) : user ∈ s.rows :=
  List.mem_of_find?_eq_some h

/-- No account has a name that `Create` refuses. -/
theorem find?_eq_none_of_invalid (s : UserStore) {username : String}
    (h : ¬ ValidUsername username) : s.find? username = none := by
  cases hfind : s.find? username with
  | none => rfl
  | some user =>
    have hvalid := s.valid user (mem_of_find? hfind)
    rw [find?_username hfind] at hvalid
    exact absurd hvalid h

theorem get_of_valid {fault : Option String} {s : UserStore} {username : String}
    (h : ValidUsername username) (hfault : fault = none) :
    s.get fault username = .ok (s.find? username) := by
  unfold get
  rw [validateUsername_eq_ok_iff.mpr h, hfault]
  rfl

theorem get_eq_ok_iff {fault : Option String} {s : UserStore} {username : String}
    {found : Option PlatformUser} : s.get fault username = .ok found ↔
      ValidUsername username ∧ fault = none ∧ s.find? username = found := by
  by_cases hvalid : ValidUsername username
  · cases fault with
    | none =>
      rw [get_of_valid hvalid rfl, Except.ok.injEq]
      simp [hvalid]
    | some text =>
      unfold get
      rw [validateUsername_eq_ok_iff.mpr hvalid]
      simp [bind, Except.bind]
  · obtain ⟨err, herr⟩ := validateUsername_ne_ok hvalid
    unfold get
    rw [herr]
    simp [hvalid, bind, Except.bind]

/-- `SetEnabled` changes the one account it names. -/
theorem find?_updateEnabled (s : UserStore) (username : String) (enabled : Bool)
    (name : String) : (s.updateEnabled username enabled).find? name =
      if name = username then (s.find? name).map fun user => { user with enabled := enabled }
      else s.find? name := by
  unfold find? updateEnabled
  rw [List.find?_map]
  have hpred : ((fun user : PlatformUser => decide (user.username = name)) ∘
      fun user : PlatformUser =>
        if user.username = username then { user with enabled := enabled } else user) =
      fun user : PlatformUser => decide (user.username = name) := by
    funext user
    simp only [Function.comp]
    split <;> rfl
  rw [hpred]
  cases hfind : s.rows.find? fun user => decide (user.username = name) with
  | none => simp
  | some user =>
    have hname : user.username = name := by simpa using List.find?_some hfind
    by_cases hcase : name = username
    · simp [hname, hcase]
    · have hne : user.username ≠ username := by rw [hname]; exact hcase
      simp [hne, hcase]

/-- `SetEnabled` succeeds on the accounts it finds. -/
theorem setEnabled_eq_ok_iff {fault : Option String} {username : String} {enabled : Bool}
    {s : UserStore} : (s.setEnabled fault username enabled).1 = .ok () ↔
      fault = none ∧ (s.find? username).isSome := by
  unfold setEnabled
  by_cases hvalid : ValidUsername username
  · rw [validateUsername_eq_ok_iff.mpr hvalid]
    cases fault with
    | some text => simp
    | none =>
      simp only [true_and]
      split
      · next hsome => simp [hsome]
      · next hnone => simp [hnone]
  · obtain ⟨err, herr⟩ := validateUsername_ne_ok hvalid
    rw [herr, find?_eq_none_of_invalid s hvalid]
    simp

theorem setEnabled_ok {fault : Option String} {username : String} {enabled : Bool}
    {s : UserStore} (h : (s.setEnabled fault username enabled).1 = .ok ()) :
    (s.setEnabled fault username enabled).2 = s.updateEnabled username enabled := by
  unfold setEnabled at h ⊢
  cases hname : validateUsername username with
  | error err => rw [hname] at h; cases h
  | ok u =>
    rw [hname] at h
    cases fault with
    | some text => cases h
    | none =>
      simp only at h ⊢
      split at h
      · next hsome => rw [if_pos hsome]
      · cases h

theorem setEnabled_error {fault : Option String} {username : String} {enabled : Bool}
    {s : UserStore} {err : String} (h : (s.setEnabled fault username enabled).1 = .error err) :
    (s.setEnabled fault username enabled).2 = s := by
  unfold setEnabled at h ⊢
  cases hname : validateUsername username with
  | error err' => rfl
  | ok u =>
    rw [hname] at h
    cases fault with
    | some text => rfl
    | none =>
      simp only at h ⊢
      split at h
      · cases h
      · next hnone => rw [if_neg hnone]

/-! ## Administrators -/

theorem enabledAdmin_updateEnabled_of_ne {s : UserStore} {username name : String} {enabled : Bool}
    (h : name ≠ username) :
    (s.updateEnabled username enabled).EnabledAdmin name ↔ s.EnabledAdmin name := by
  unfold EnabledAdmin
  rw [find?_updateEnabled, if_neg h]

theorem not_enabledAdmin_disabled (s : UserStore) (username : String) :
    ¬ (s.updateEnabled username false).EnabledAdmin username := by
  rintro ⟨user, hfind, henabled, -⟩
  rw [find?_updateEnabled, if_pos rfl] at hfind
  obtain ⟨before, -, rfl⟩ := Option.map_eq_some_iff.mp hfind
  cases henabled

/-- Enabling an account disables none. -/
theorem EnabledAdmin.enable {s : UserStore} {name : String} (h : s.EnabledAdmin name)
    (username : String) : (s.updateEnabled username true).EnabledAdmin name := by
  by_cases heq : name = username
  · obtain ⟨user, hfind, -, hrole⟩ := h
    refine ⟨{ user with enabled := true }, ?_, rfl, hrole⟩
    rw [find?_updateEnabled, if_pos heq, hfind]
    rfl
  · exact (enabledAdmin_updateEnabled_of_ne heq).mpr h

end UserStore

end OpenHpcWeb.Platform
