/-
  The directory client of internal/ldapdirectory/client.go as far as logins and account
  creation use it.

  A call meets a directory and a connection: opening it (the dial and the bind of the
  configuration) may fail, its searches may be cut off, and its context may end. The filter
  strings are kept as what they denote; `ldap.EscapeFilter` sees to that for any value.

  * `boundedSearch_eq_ok`: what a search leaves behind when it is not refused.
  * `authenticatedEntry_eq_some`: the entry that `Authenticate` binds as.
-/
import OpenHpcWeb.Go.Std
import OpenHpcWeb.Lib.Ldap

namespace OpenHpcWeb.Ldap

open OpenHpcWeb.Go OpenHpcWeb.Lib.Ldap

def maxLDAPSearchBytes : Nat := 4 * 2 ^ 20

/-! ## Searches -/

/-- The loop of `ldapEntryBudget` over the values of one attribute. A value is counted as text
    (`Values`) and as bytes (`ByteValues`). -/
def attributeBudget (values : List String) (remaining used : Nat) : Option Nat := do
  let used ← values.foldlM (fun used value =>
    if remaining - used < 32 + byteLen value then none else some (used + (32 + byteLen value))) used
  values.foldlM (fun used value =>
    if remaining - used < byteLen value then none else some (used + byteLen value)) used

/-- `ldapEntryBudget`: the bytes the entry counts for, if they are within the limit. -/
def ldapEntryBudget (entry : Entry) (remaining : Nat) : Option Nat :=
  if remaining < 128 + byteLen entry.dn then none
  else
    entry.attributes.foldlM (fun used attr =>
      if remaining - used < 64 + byteLen attr.1 then none
      else attributeBudget attr.2 remaining (used + (64 + byteLen attr.1)))
      (128 + byteLen entry.dn)

/-- What the loop of `boundedSearch` has read, or how it returns early. -/
structure Reading where
  entries : List Entry
  usedBytes : Nat

/-- The body of the loop of `boundedSearch`. -/
def readEntry (sizeLimit : Nat) (r : Reading) (entry : Entry) :
    Except (Except String (List Entry × Bool)) Reading :=
  if 0 < sizeLimit ∧ sizeLimit ≤ r.entries.length then .error (.ok (r.entries, true))
  else
    match ldapEntryBudget entry (maxLDAPSearchBytes - r.usedBytes) with
    | none => .error (.error "LDAP search response exceeds resource limit")
    | some entryBytes => .ok ⟨r.entries ++ [entry], r.usedBytes + entryBytes⟩

/-- `boundedSearch`: the entries, and whether there are more. `cancelled` is the error of a
    context that has ended. -/
def boundedSearch (sizeLimit : Nat) (cancelled : Option String) (response : Response) :
    Except String (List Entry × Bool) :=
  match response.entries.foldlM (readEntry sizeLimit) ⟨[], 0⟩ with
  | .error early => early
  | .ok r =>
    match cancelled, response.error with
    | some err, _ => .error err
    | none, none => .ok (r.entries, false)
    | none, some .sizeLimitExceeded => .ok (r.entries, true)
    | none, some .invalidCredentials => .error "LDAP Result Code 49"
    | none, some (.other err) => .error err

theorem readEntry_fold {sizeLimit : Nat} {entries : List Entry} {r r' : Reading}
    (h : entries.foldlM (readEntry sizeLimit) r = .ok r') : r'.entries = r.entries ++ entries := by
  induction entries generalizing r with
  | nil =>
    cases h
    rw [List.append_nil]
  | cons entry entries ih =>
    rw [List.foldlM_cons] at h
    unfold readEntry at h
    split at h
    · cases h
    · split at h
      · cases h
      · have := ih h
        rw [this, List.append_assoc, List.singleton_append]

/-- A loop that stops early with a result has read a full page. -/
theorem readEntry_early {sizeLimit : Nat} {entries kept : List Entry} {r : Reading} {more : Bool}
    (h : entries.foldlM (readEntry sizeLimit) r = .error (.ok (kept, more))) :
    more = true ∧ ∃ read, kept = r.entries ++ read ∧ read <+: entries := by
  induction entries generalizing r with
  | nil => cases h
  | cons entry entries ih =>
    rw [List.foldlM_cons] at h
    unfold readEntry at h
    split at h
    · cases h
      exact ⟨rfl, [], (List.append_nil _).symm, List.nil_prefix⟩
    · split at h
      · cases h
      · obtain ⟨hmore, read, hkept, hprefix⟩ := ih h
        refine ⟨hmore, entry :: read, ?_, ?_⟩
        · rw [hkept, List.append_assoc, List.singleton_append]
        · exact List.cons_prefix_cons.mpr ⟨rfl, hprefix⟩

/-- The entries of a search are among those of the answer, and all of it when the search does
    not report more. -/
theorem boundedSearch_eq_ok {sizeLimit : Nat} {cancelled : Option String} {response : Response}
    {entries : List Entry} {more : Bool}
    (h : boundedSearch sizeLimit cancelled response = .ok (entries, more)) :
    entries <+: response.entries ∧
      (more = false → entries = response.entries ∧ response.error = none) := by
  unfold boundedSearch at h
  cases hfold : response.entries.foldlM (readEntry sizeLimit) ⟨[], 0⟩ with
  | error early =>
    rw [hfold] at h
    simp only at h
    rw [h] at hfold
    obtain ⟨hmore, read, hread, hprefix⟩ := readEntry_early hfold
    rw [List.nil_append] at hread
    refine ⟨hread ▸ hprefix, fun hno => ?_⟩
    rw [hmore] at hno
    cases hno
  | ok r =>
    rw [hfold] at h
    have hall := readEntry_fold hfold
    rw [List.nil_append] at hall
    simp only at h
    split at h
    · cases h
    · next herr =>
      cases h
      exact ⟨hall ▸ List.prefix_refl _, fun _ => ⟨hall, herr⟩⟩
    · cases h
      exact ⟨hall ▸ List.prefix_refl _, fun hno => nomatch hno⟩
    · cases h
    · cases h

/-! ## Authentication -/

/-- `validateDirectoryName`. -/
def validateDirectoryName (value : String) : Except String Unit :=
  if byteLen value = 0 ∨ 128 < byteLen value then .error "directory identifier is invalid"
  else if value.toList.any isControl then .error "directory identifier is invalid"
  else .ok ()

/-- How the server answers a bind. -/
inductive BindResult where
  | accepted
  | invalidCredentials
  | failed (err : String)

/-- The part of the configuration that the calls use. -/
structure Config where
  userBaseDN : String
  groupBaseDN : String

/-- A connection to the server: what goes wrong on it, and how it answers binds. -/
structure Connection where
  openFault : Option String
  /-- the fate of each coming search: entries delivered before the error -/
  searchFault : Option (Nat × String)
  cancelled : Option String
  bind : String → String → BindResult

/-- `(&(objectClass=posixAccount)(attr=value))` -/
def accountFilter (attr value : String) : Filter :=
  .both (.equals "objectClass" "posixAccount") (.equals attr value)

variable (S : Schema) (directory : List Entry)

/-- One bounded search on the connection. -/
def Connection.search (c : Connection) (q : Search) : Except String (List Entry × Bool) :=
  boundedSearch q.sizeLimit c.cancelled (respond S directory c.searchFault q)

/-- `Authenticate`, with the entry it has bound as instead of `true`. -/
def authenticatedEntry (config : Config) (c : Connection) (uid password : String) :
    Except String (Option Entry) := do
  validateDirectoryName uid
  match c.openFault with
  | some err => .error err
  | none =>
    match c.search S directory ⟨config.userBaseDN, accountFilter "uid" uid, 2⟩ with
    | .error err => .error ("authenticate LDAP user: " ++ err)
    | .ok ([], _) => .ok none
    | .ok ([entry], false) =>
      match c.bind entry.dn password with
      | .accepted => .ok (some entry)
      | .invalidCredentials => .ok none
      | .failed err => .error ("authenticate LDAP user: " ++ err)
    | .ok _ => .error "LDAP user identifier is not unique"

/-- `Authenticate`. -/
def authenticate (config : Config) (c : Connection) (uid password : String) :
    Except String Bool :=
  (authenticatedEntry S directory config c uid password).map Option.isSome

variable {S directory} {config : Config} {c : Connection} {uid password : String} {entry : Entry}

/-- The bound entry is the one account of the user base that matches the name. -/
theorem authenticatedEntry_eq_some
    (h : authenticatedEntry S directory config c uid password = .ok (some entry)) :
    validateDirectoryName uid = .ok () ∧ c.bind entry.dn password = .accepted ∧
      found S directory ⟨config.userBaseDN, accountFilter "uid" uid, 2⟩ = [entry] := by
  unfold authenticatedEntry at h
  cases hname : validateDirectoryName uid with
  | error err => rw [hname] at h; cases h
  | ok u =>
    rw [hname] at h
    cases hopen : c.openFault with
    | some err => rw [hopen] at h; cases h
    | none =>
      rw [hopen] at h
      simp only [bind, Except.bind] at h
      split at h
      · cases h
      · cases h
      · next found hsearch =>
        cases hbind : c.bind found.dn password with
        | accepted =>
          rw [hbind] at h
          cases h
          obtain ⟨hall, herr⟩ := (boundedSearch_eq_ok hsearch).2 rfl
          exact ⟨rfl, hbind, (respond_of_no_error herr).symm.trans hall.symm⟩
        | invalidCredentials => rw [hbind] at h; cases h
        | failed err => rw [hbind] at h; cases h
      · cases h

/-- It is an account of the directory that has the name as a uid, as the server compares. -/
theorem bound_entry (h : authenticatedEntry S directory config c uid password = .ok (some entry)) :
    entry ∈ directory ∧ entry.has S "objectClass" "posixAccount" = true ∧
      entry.has S "uid" uid = true := by
  obtain ⟨-, -, hfound⟩ := authenticatedEntry_eq_some h
  have hmem : entry ∈ found S directory ⟨config.userBaseDN, accountFilter "uid" uid, 2⟩ := by
    rw [hfound]
    exact List.mem_singleton_self entry
  obtain ⟨hdir, -, hfilter⟩ := mem_found_iff.mp hmem
  simp only [accountFilter, Filter.holds, Bool.and_eq_true] at hfilter
  exact ⟨hdir, hfilter.1, hfilter.2⟩

end OpenHpcWeb.Ldap
