/-
  The opening of the stores that have grown columns: `OpenUserStore` and
  `migratePlatformUserProfile` of internal/platform/users.go, `OpenPartitionStore` and
  `ensurePartitionSourceColumn` of internal/platform/partitions.go.

  Both open their database in the same way, with other texts and columns. The statements commit
  one by one, and the database is what the file holds after the last of them: none, or the
  table in any version. A text of a fault while the columns are read begins with the place
  where it occurred, if the source names it. The permission warnings are left out.

  * `migrations_resume`: openings that fail or are cut off anywhere lose nothing, and the
    first that succeeds ends where a single one would have.
-/
import OpenHpcWeb.Lib.Columns

namespace OpenHpcWeb.Platform

open OpenHpcWeb.Lib

/-- A value in a table. -/
inductive SqlValue where
  | text (value : String)
  | integer (value : Int)
  deriving DecidableEq

/-- What `os.Lstat` says of a file. -/
inductive Lstat where
  | missing
  | file
  | link
  | failed (text : String)

/-- What a store opens, with the texts of its errors. -/
structure StoreSchema where
  /-- the columns of `CREATE TABLE` -/
  created : List String
  /-- the columns that older versions lack, with their defaults -/
  added : List (String × SqlValue)
  linked : String
  inspectFile : String
  openDatabase : String
  migrate : String
  inspectColumns : String
  addColumn : String

/-- `OpenUserStore` -/
def userSchema : StoreSchema where
  created := ["username", "password_hash", "role", "phone", "organization", "email", "enabled",
    "created_at"]
  added := [("phone", .text ""), ("organization", .text ""), ("email", .text "")]
  linked := "platform user database files must not be symbolic links"
  inspectFile := "inspect platform user database file: "
  openDatabase := "open platform user database: "
  migrate := "migrate platform users: "
  inspectColumns := "migrate platform user profile: "
  addColumn := "migrate platform user profile: "

/-- `OpenPartitionStore` -/
def partitionSchema : StoreSchema where
  created := ["name", "source", "created_at", "updated_at"]
  added := [("source", .text "managed")]
  linked := "partition database files must not be symbolic links"
  inspectFile := "inspect partition database file: "
  openDatabase := "open partition database: "
  migrate := "migrate partition database: "
  inspectColumns := "inspect partition schema: "
  addColumn := "migrate partition database: add source column: "

variable (schema : StoreSchema)

/-- The check of `databaseFiles`; there are none for `:memory:`. -/
def inspectFiles : List Lstat → Except String Unit
  | [] => .ok ()
  | .link :: _ => .error schema.linked
  | .failed text :: _ => .error (schema.inspectFile ++ text)
  | .missing :: files | .file :: files => inspectFiles files

/-- A database of the store, if the file has the table. -/
abbrev StoreDatabase := Option (Table SqlValue)

/-- The table after `CREATE TABLE IF NOT EXISTS`. -/
def createdTable (db : StoreDatabase) : Table SqlValue := db.getD (Table.empty schema.created)

/-- Open the store: `sql.Open`, the tables, and the columns. -/
def openStore (files : List Lstat) (fs : Faults) (db : StoreDatabase) :
    Except String Unit × StoreDatabase :=
  match inspectFiles schema files with
  | .error err => (.error err, db)
  | .ok () =>
    match fs.headD none with
    | some text => (.error (schema.openDatabase ++ text), db)
    | none =>
      match fs.tail.headD none with
      | some text => (.error (schema.migrate ++ text), db)
      | none =>
        let opened := ensureColumns (schema.inspectColumns ++ ·) (schema.addColumn ++ ·)
          schema.added (createdTable schema db) fs.tail.tail
        (opened.1, some opened.2)

/-- The table as the current version of the program reads it. -/
def current (db : StoreDatabase) : Table SqlValue := (createdTable schema db).complete schema.added

/-- An opening: what it finds of the files, and which of its statements fail. Where the process
    ends within it, all statements fail from there on. -/
abbrev Opening := List Lstat × Faults

/-- The database after openings, one after the other. -/
def reopened (db : StoreDatabase) (openings : List Opening) : StoreDatabase :=
  openings.foldl (fun db opening => (openStore schema opening.1 opening.2 db).2) db

/-! ## One opening -/

section Opening

variable {schema}

theorem openStore_current (hschema : (schema.added.map Prod.fst).Nodup) (files : List Lstat)
    (fs : Faults) (db : StoreDatabase) :
    current schema (openStore schema files fs db).2 = current schema db := by
  unfold openStore
  cases inspectFiles schema files with
  | error err => rfl
  | ok u =>
    cases fs.headD none with
    | some text => rfl
    | none =>
      cases fs.tail.headD none with
      | some text => rfl
      | none => exact ensureColumns_complete hschema (createdTable schema db) fs.tail.tail

theorem openStore_ok (hschema : (schema.added.map Prod.fst).Nodup) {files : List Lstat}
    {fs : Faults} {db : StoreDatabase} (h : (openStore schema files fs db).1 = .ok ()) :
    (openStore schema files fs db).2 = some (current schema db) := by
  unfold openStore at h ⊢
  cases hfiles : inspectFiles schema files with
  | error err =>
    rw [hfiles] at h
    cases h
  | ok u =>
    rw [hfiles] at h
    cases hopen : fs.headD none with
    | some text =>
      rw [hopen] at h
      cases h
    | none =>
      rw [hopen] at h
      cases hcreate : fs.tail.headD none with
      | some text =>
        rw [hcreate] at h
        cases h
      | none =>
        rw [hcreate] at h
        exact congrArg some (ensureColumns_ok hschema h)

theorem openStore_of_current (files : List Lstat) (fs : Faults) (db : StoreDatabase) :
    (openStore schema files fs (some (current schema db))).2 = some (current schema db) := by
  unfold openStore
  cases inspectFiles schema files with
  | error err => rfl
  | ok u =>
    cases fs.headD none with
    | some text => rfl
    | none =>
      cases fs.tail.headD none with
      | some text => rfl
      | none =>
        exact congrArg some (ensureColumns_of_complete (createdTable schema db) fs.tail.tail)

/-! ## Openings -/

theorem reopened_current (hschema : (schema.added.map Prod.fst).Nodup) (db : StoreDatabase)
    (openings : List Opening) :
    current schema (reopened schema db openings) = current schema db := by
  induction openings generalizing db with
  | nil => rfl
  | cons opening openings ih => exact (ih _).trans (openStore_current hschema _ _ db)

theorem reopened_of_current (db : StoreDatabase) (openings : List Opening) :
    reopened schema (some (current schema db)) openings = some (current schema db) := by
  induction openings with
  | nil => rfl
  | cons opening openings ih =>
    show reopened schema (openStore schema opening.1 opening.2 _).2 openings = _
    rw [openStore_of_current]
    exact ih

end Opening

/-- The rows of an old version, as the current version reads them. -/
structure KeepsRows (old new : Table SqlValue) : Prop where
  length : new.rows.length = old.rows.length
  cells : ∀ (i : Nat) (row : String → Option SqlValue), old.rows[i]? = some row →
    ∃ row' : String → Option SqlValue, new.rows[i]? = some row' ∧
      (∀ c ∈ old.columns, row' c = row c) ∧
      ∀ c v, c ∉ old.columns → schema.added.lookup c = some v → row' c = some v

theorem keepsRows_current (old : Table SqlValue) :
    KeepsRows schema old (current schema (some old)) := by
  refine ⟨List.length_map _, fun i row hrow => ?_⟩
  have hmem : row ∈ old.rows := List.mem_of_getElem? hrow
  refine ⟨fun c => (row c).or (schema.added.lookup c), ?_, fun c hc => ?_, fun c v hc hv => ?_⟩
  · show (old.rows.map _)[i]? = _
    rw [List.getElem?_map, hrow]
    rfl
  · obtain ⟨v, hv⟩ := Option.ne_none_iff_exists'.mp ((old.filled row hmem c).mpr hc)
    show (row c).or _ = _
    rw [hv]
    rfl
  · show (row c).or (schema.added.lookup c) = _
    rw [Table.eq_none hmem hc, hv]
    rfl

/-- Let a store be opened any number of times from a database of any version, each time failing or
    being cut off at any statement, or not. Then what the current version reads of the database
    stays the same: every row with its cells, and the defaults in the columns it lacked. An
    opening that succeeds leaves exactly that table, and from then on no opening changes it. -/
theorem migrations_resume (hschema : schema = userSchema ∨ schema = partitionSchema)
    (db : StoreDatabase) (openings : List Opening) :
    current schema (reopened schema db openings) = current schema db ∧
      (∀ old, db = some old → KeepsRows schema old (current schema db)) ∧
      (∀ files fs, (openStore schema files fs (reopened schema db openings)).1 = .ok () →
        (openStore schema files fs (reopened schema db openings)).2 = some (current schema db)) ∧
      ∀ before opening after, openings = before ++ opening :: after →
        (openStore schema opening.1 opening.2 (reopened schema db before)).1 = .ok () →
        reopened schema db openings = some (current schema db) := by
  have hnodup : (schema.added.map Prod.fst).Nodup := by
    rcases hschema with rfl | rfl <;> decide
  refine ⟨reopened_current hnodup db openings, ?_, fun files fs hok => ?_, ?_⟩
  · rintro old rfl
    exact keepsRows_current schema old
  · rw [openStore_ok hnodup hok, reopened_current hnodup]
  · rintro before opening after rfl hok
    have hopened := openStore_ok hnodup hok
    rw [reopened_current hnodup] at hopened
    have hsplit : reopened schema db (before ++ opening :: after) =
        reopened schema
          (openStore schema opening.1 opening.2 (reopened schema db before)).2 after := by
      unfold reopened
      rw [List.foldl_append, List.foldl_cons]
    rw [hsplit, hopened]
    exact reopened_of_current db after

/-- An administrator of a version without the profile. -/
def oldAccount : String → Option SqlValue
  | "username" => some (.text "root")
  | "password_hash" => some (.text "hash")
  | "role" => some (.text "admin")
  | "enabled" => some (.integer 1)
  | _ => none

theorem oldAccount_filled : ∀ row ∈ [oldAccount], ∀ c,
    row c ≠ none ↔ c ∈ ["username", "password_hash", "role", "enabled"] := by
  intro row hrow c
  rw [List.mem_singleton.mp hrow]
  unfold oldAccount
  split <;> simp_all

def oldAccounts : Table SqlValue :=
  ⟨["username", "password_hash", "role", "enabled"], [oldAccount], oldAccount_filled⟩

/-- The first opening ends when it has added one of the columns. -/
def resumedOpenings : List Opening :=
  [([.file, .missing, .missing], [none, none, none, none, some "disk full"]), ([.file], [])]

theorem migrations_resume_accounts :
    (reopened userSchema (some oldAccounts) resumedOpenings.dropLast).map Table.columns =
        some ["username", "password_hash", "role", "enabled", "phone"] ∧
      reopened userSchema (some oldAccounts) resumedOpenings =
        some (current userSchema (some oldAccounts)) :=
  ⟨by decide, (migrations_resume userSchema (.inl rfl) (some oldAccounts) resumedOpenings).2.2.2
    [([.file, .missing, .missing], [none, none, none, none, some "disk full"])] ([.file], []) []
    rfl rfl⟩

end OpenHpcWeb.Platform
