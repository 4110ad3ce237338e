/-
  The table under the settings store of internal/platform/settings.go, and `List`.

  `Platform.Settings` has the rows as a function from the keys. Here they are the rows of the
  table `app_settings`, with its primary key as a field of the type. The column updated_at is
  left out: nothing reads it. `SetMany` walks two maps; the first walk is the order of `values`,
  the second (`walk`) any order of what is prepared.

  * `get_eq`: `Get` answers from the table as `SettingsStore.get` does from the rows.
  * `setMany_refines`: `SetMany` succeeds for the calls for which `SettingsStore.setMany` does,
    and leaves the same rows; `setMany_error`: one that fails changes nothing.
  * `list_ok`: what `List` answers.
-/
import OpenHpcWeb.Platform.Settings

namespace OpenHpcWeb.Platform

open OpenHpcWeb.Go OpenHpcWeb.Lib

/-! ## The table -/

/-- A row of `app_settings`. -/
structure SettingRow where
  key : String
  value : Bytes
  secret : Bool
  deriving DecidableEq

/-- `app_settings`; the key is the primary key. -/
structure SettingsTable where
  rows : List SettingRow
  nodup : (rows.map SettingRow.key).Nodup

namespace SettingsTable

def empty : SettingsTable := ⟨[], List.nodup_nil⟩

/-- `WHERE key = ?` -/
def find (t : SettingsTable) (key : String) : Option SettingRow :=
  t.rows.find? fun row => row.key = key

/-- `DELETE FROM app_settings WHERE key = ?` -/
def delete (t : SettingsTable) (key : String) : SettingsTable where
  rows := t.rows.filter fun row => row.key ≠ key
  nodup := t.nodup.sublist (List.filter_sublist.map _)

/-- The rows after an insert that updates the row with the same key, if there is one. -/
def upserted (rows : List SettingRow) (row : SettingRow) : List SettingRow :=
  if row.key ∈ rows.map SettingRow.key then rows.map fun r => if r.key = row.key then row else r
  else rows ++ [row]

theorem nodup_upserted {rows : List SettingRow} (h : (rows.map SettingRow.key).Nodup)
    (row : SettingRow) : ((upserted rows row).map SettingRow.key).Nodup := by
  unfold upserted
  split
  · have hkeys : (rows.map fun r => if r.key = row.key then row else r).map SettingRow.key =
        rows.map SettingRow.key := by
      rw [List.map_map]
      apply List.map_congr_left
      intro r _
      by_cases hr : r.key = row.key
      · simp [hr]
      · simp [hr]
    rwa [hkeys]
  · next hno =>
    rw [List.map_append, List.map_singleton, List.nodup_append]
    refine ⟨h, List.nodup_singleton _, fun key hkey other hother heq => ?_⟩
    rw [List.mem_singleton] at hother
    rw [heq, hother] at hkey
    exact hno hkey

/-- `INSERT INTO app_settings … ON CONFLICT(key) DO UPDATE` -/
def upsert (t : SettingsTable) (row : SettingRow) : SettingsTable :=
  ⟨upserted t.rows row, nodup_upserted t.nodup row⟩

/-- The rows as a function from the keys. -/
def view (t : SettingsTable) (key : String) : Option Bytes := (t.find key).map SettingRow.value

theorem find_key {t : SettingsTable} {key : String} {row : SettingRow}
    (h : t.find key = some row) : row.key = key := by
  have := List.find?_some h
  simpa using this

/-- A row is the one that its key selects. -/
theorem find_of_mem {t : SettingsTable} {row : SettingRow} (h : row ∈ t.rows) :
    t.find row.key = some row := by
  obtain ⟨rows, hnodup⟩ := t
  show rows.find? (fun r => r.key = row.key) = some row
  replace h : row ∈ rows := h
  induction rows with
  | nil => cases h
  | cons r rows ih =>
    obtain ⟨hr, hrows⟩ := List.nodup_cons.mp hnodup
    rcases List.mem_cons.mp h with rfl | h
    · simp
    · have hne : r.key ≠ row.key := fun heq => hr (heq ▸ List.mem_map_of_mem h)
      rw [List.find?_cons_of_neg (by simpa using hne)]
      exact ih hrows h

theorem mem_of_find {t : SettingsTable} {key : String} {row : SettingRow}
    (h : t.find key = some row) : row ∈ t.rows :=
  List.mem_of_find?_eq_some h

theorem view_of_mem {t : SettingsTable} {row : SettingRow} (h : row ∈ t.rows) :
    t.view row.key = some row.value := by
  rw [view, find_of_mem h]
  rfl

@[simp] theorem view_empty : empty.view = fun _ => none := rfl

theorem view_delete (t : SettingsTable) (key : String) :
    (t.delete key).view = Function.update t.view key none := by
  funext other
  unfold view find delete
  rw [List.find?_filter]
  by_cases h : other = key
  · simp [h]
  · rw [Function.update_of_ne h]
    congr 2
    funext row
    by_cases hrow : row.key = other
    · have hne : row.key ≠ key := fun heq => h (hrow.symm.trans heq)
      simp [hrow, h]
    · simp [hrow]

/-- Replacing the row with the key of `row`, seen from a key. -/
theorem find?_replace (rows : List SettingRow) (row : SettingRow) (other : String) :
    ((rows.map fun r => if r.key = row.key then row else r).find? fun r => r.key = other) =
      if other = row.key ∧ other ∈ rows.map SettingRow.key then some row
      else rows.find? fun r => r.key = other := by
  induction rows with
  | nil => simp
  | cons r rows ih =>
    rw [List.map_cons, List.map_cons]
    by_cases hr : r.key = row.key
    · by_cases hother : other = row.key
      · simp [hr, hother]
      · have hne : row.key ≠ other := Ne.symm hother
        rw [if_pos hr, List.find?_cons_of_neg (by simpa using hne), ih,
          List.find?_cons_of_neg (by simpa [hr] using hne)]
        simp [hother]
    · by_cases hother : r.key = other
      · have hne : other ≠ row.key := hother ▸ hr
        simp [hother, hne]
      · rw [if_neg hr, List.find?_cons_of_neg (by simpa using hother), ih,
          List.find?_cons_of_neg (by simpa using hother)]
        simp [Ne.symm hother]

theorem find?_upserted (rows : List SettingRow) (row : SettingRow) (other : String) :
    ((upserted rows row).find? fun r => r.key = other) =
      if other = row.key then some row else rows.find? fun r => r.key = other := by
  unfold upserted
  by_cases hmem : row.key ∈ rows.map SettingRow.key
  · rw [if_pos hmem, find?_replace]
    by_cases hother : other = row.key
    · rw [if_pos ⟨hother, hother ▸ hmem⟩, if_pos hother]
    · rw [if_neg (fun h => hother h.1), if_neg hother]
  · rw [if_neg hmem, List.find?_append]
    by_cases hother : other = row.key
    · have hnone : (rows.find? fun r => r.key = other) = none := by
        rw [List.find?_eq_none]
        intro r hr hkey
        have hkey : r.key = other := by simpa using hkey
        exact hmem (List.mem_map.mpr ⟨r, hr, hkey.trans hother⟩)
      rw [hnone, if_pos hother]
      simp [hother]
    · rw [if_neg hother]
      simp [Ne.symm hother]

theorem view_upsert (t : SettingsTable) (row : SettingRow) :
    (t.upsert row).view = Function.update t.view row.key (some row.value) := by
  funext other
  have hfind : (t.upsert row).find other = if other = row.key then some row else t.find other :=
    find?_upserted t.rows row other
  unfold view
  rw [hfind]
  by_cases hother : other = row.key
  · simp [hother]
  · rw [if_neg hother, Function.update_of_ne hother]

/-- What `SetMany` does for one key. -/
def save (t : SettingsTable) (entry : String × Bytes) : SettingsTable :=
  if entry.2.length = 0 then t.delete entry.1
  else t.upsert ⟨entry.1, entry.2, isSecretSetting entry.1⟩

theorem view_save (t : SettingsTable) (entry : String × Bytes) :
    (t.save entry).view = SettingsStore.saveRow t.view entry.1 entry.2 := by
  unfold save SettingsStore.saveRow SettingsStore.savedRow
  split
  · exact view_delete t entry.1
  · exact view_upsert t _

theorem view_foldl_save (prepared : List (String × Bytes)) (t : SettingsTable) :
    (prepared.foldl save t).view =
      prepared.foldl (fun rows entry => SettingsStore.saveRow rows entry.1 entry.2) t.view := by
  induction prepared generalizing t with
  | nil => rfl
  | cons entry prepared ih => rw [List.foldl_cons, List.foldl_cons, ih, view_save]

/-- `ORDER BY key` -/
def ordered (t : SettingsTable) : List SettingRow :=
  t.rows.insertionSort fun row other => row.key ≤ other.key

theorem mem_ordered {t : SettingsTable} {row : SettingRow} : row ∈ t.ordered ↔ row ∈ t.rows :=
  (List.perm_insertionSort _ _).mem_iff

theorem ordered_strict (t : SettingsTable) :
    (t.ordered.map SettingRow.key).Pairwise (· < ·) := by
  have htotal : Std.Total fun row other : SettingRow => row.key ≤ other.key :=
    ⟨fun row other => le_total row.key other.key⟩
  have htrans : IsTrans SettingRow fun row other => row.key ≤ other.key :=
    ⟨fun _ _ _ h h' => le_trans h h'⟩
  have hsorted : (t.ordered.map SettingRow.key).Pairwise (· ≤ ·) :=
    List.pairwise_map.mpr (List.pairwise_insertionSort _ t.rows)
  have hperm : (t.ordered.map SettingRow.key).Perm (t.rows.map SettingRow.key) :=
    (List.perm_insertionSort _ _).map _
  have hnodup : (t.ordered.map SettingRow.key).Nodup := hperm.nodup_iff.mpr t.nodup
  exact hsorted.imp₂ (fun _ _ hle hne => lt_of_le_of_ne hle hne) hnodup

end SettingsTable

/-! ## The store over the table -/

/-- The database and the encryption key that `OpenSettingsStore` keeps. -/
structure SettingsDatabase where
  db : SettingsTable
  key : Bytes
  key_length : key.length = 0 ∨ key.length = 32

/-- A call of `SetMany`, with what it meets: the order of its second loop, the nonces that can
    be read, and the statements that fail. -/
structure SetManyCall where
  values : List (String × String)
  nodup : (values.map Prod.fst).Nodup
  walk : List (String × Bytes) → List (String × Bytes)
  walk_perm : ∀ prepared, (walk prepared).Perm prepared
  nonces : String → Option Nonce
  faults : Faults

/-- `Setting` -/
structure Setting where
  key : String
  value : String
  secret : Bool
  configured : Bool
  deriving DecidableEq

/-- The end of `OpenSettingsStore`, after the checks of the files. -/
def openSettingsStore (db : SettingsTable) (key : Bytes) : Except String SettingsDatabase :=
  if h : key.length = 0 ∨ key.length = 32 then .ok ⟨db, key, h⟩
  else .error "settings encryption key must be 32 bytes"

namespace SettingsDatabase

/-- The store that the table refines. -/
def store (s : SettingsDatabase) : SettingsStore := ⟨s.db.view, s.key, s.key_length⟩

/-- `Get` -/
def get (cipher : Cipher) (fault : Option String) (s : SettingsDatabase) (key : String) :
    Except String (Option String) := do
  validateSettingKey key
  match fault with
  | some text => .error ("read setting: " ++ text)
  | none =>
    match s.db.find key with
    | none => .ok none
    | some row =>
      if isSecretSetting key then (s.store.decrypt cipher key row.value).map some
      else .ok (some (textOf row.value))

/-- `keys` selects a key: an empty map selects all. -/
def selects (keys : List (String × Bool)) (key : String) : Bool :=
  ¬ (keys.length > 0 ∧ ¬ (keys.lookup key).getD false)

/-- The entry for a row: the schema decides what is secret, not the row. -/
def settingOf (row : SettingRow) : Setting where
  key := row.key
  value := if isSecretSetting row.key then "" else textOf row.value
  secret := isSecretSetting row.key
  configured := true

/-- The loop of `List` over the rows. -/
def scanSettings (keys : List (String × Bool)) (result : List Setting) :
    List SettingRow → Tx SettingsTable (List Setting)
  | [] => do
    Tx.query "list settings" fun _ => ()
    pure result
  | row :: rows => do
    Tx.query "scan setting" fun _ => ()
    if selects keys row.key then scanSettings keys (result ++ [settingOf row]) rows
    else scanSettings keys result rows

/-- `List` -/
def list (faults : Faults) (s : SettingsDatabase) (keys : List (String × Bool)) :
    Except String (List Setting) :=
  (transaction (do
    let rows ← Tx.query "list settings" SettingsTable.ordered
    scanSettings keys [] rows) faults s.db).1

/-- The transaction of `SetMany`. -/
def saveAll (prepared : List (String × Bytes)) : Tx SettingsTable PUnit := do
  Tx.query "save settings: begin transaction" fun _ => ()
  prepared.forM fun entry => Tx.exec "save setting" fun t => .ok (t.save entry)
  Tx.query "save settings: commit" fun _ => ()

/-- `SetMany`: its error, if any, and the database. -/
def setMany (cipher : Cipher) (s : SettingsDatabase) (call : SetManyCall) :
    Except String Unit × SettingsDatabase :=
  match call.values.mapM fun e =>
      (s.store.prepare cipher call.nonces e.1 e.2).map fun raw => (e.1, raw) with
  | .error err => (.error err, s)
  | .ok prepared =>
    match transaction (saveAll (call.walk prepared)) call.faults s.db with
    | (.error err, db) => (.error err, { s with db := db })
    | (.ok _, db) => (.ok (), { s with db := db })

/-! ## The refinement -/

theorem get_eq (cipher : Cipher) (fault : Option String) (s : SettingsDatabase) (key : String) :
    s.get cipher fault key = s.store.get cipher fault key := by
  have hrow : s.store.rows key = (s.db.find key).map SettingRow.value := rfl
  unfold get SettingsStore.get
  rw [hrow]
  cases s.db.find key <;> rfl

/-- The statements of `SetMany`'s transaction, over the table. -/
theorem saveAll_runs (prepared : List (String × Bytes)) (t : SettingsTable) :
    Tx.Runs (saveAll prepared) t (1 + (prepared.length + 1)) ⟨⟩
      (prepared.foldl SettingsTable.save t) :=
  (Tx.Runs.query _ _ _).bind
    ((Tx.Runs.forM_exec _ (fun entry t => t.save entry) prepared t).bind (Tx.Runs.query _ _ _))

/-- The same over the rows. -/
theorem saveRows_runs (prepared : List (String × Bytes)) (rows : String → Option Bytes) :
    Tx.Runs (SettingsStore.saveRows prepared) rows (1 + (prepared.length + 1)) ⟨⟩
      (prepared.foldl (fun rows entry => SettingsStore.saveRow rows entry.1 entry.2) rows) :=
  (Tx.Runs.query _ _ _).bind
    ((Tx.Runs.forM_exec _ (fun entry rows => SettingsStore.saveRow rows entry.1 entry.2)
      prepared rows).bind (Tx.Runs.query _ _ _))

/-- Rows with different keys may be saved in any order. -/
theorem foldl_saveRow_perm {prepared walked : List (String × Bytes)}
    (hperm : walked.Perm prepared) (hnodup : (prepared.map Prod.fst).Nodup)
    (rows : String → Option Bytes) :
    walked.foldl (fun rows entry => SettingsStore.saveRow rows entry.1 entry.2) rows =
      prepared.foldl (fun rows entry => SettingsStore.saveRow rows entry.1 entry.2) rows := by
  apply hperm.foldl_eq'
  intro x hx y hy z
  by_cases hkey : x.1 = y.1
  · have hxy : x = y := List.inj_on_of_nodup_map hnodup (hperm.mem_iff.mp hx) (hperm.mem_iff.mp hy)
      hkey
    rw [hxy]
  · show Function.update (Function.update z x.1 _) y.1 _ = Function.update (Function.update z y.1 _)
      x.1 _
    exact Function.update_comm hkey _ _ z

/-- `SetMany` over the table succeeds and fails as over the rows, and leaves the same. -/
theorem setMany_refines (cipher : Cipher) (s : SettingsDatabase) (call : SetManyCall) :
    (s.setMany cipher call).1.isOk =
        (s.store.setMany cipher call.nonces call.faults call.values).1.isOk ∧
      (s.setMany cipher call).2.store =
        (s.store.setMany cipher call.nonces call.faults call.values).2 := by
  unfold setMany SettingsStore.setMany
  cases hprepared : call.values.mapM fun e =>
      (s.store.prepare cipher call.nonces e.1 e.2).map fun raw => (e.1, raw) with
  | error err => exact ⟨rfl, rfl⟩
  | ok prepared =>
    have hperm := call.walk_perm prepared
    have hnodup : (prepared.map Prod.fst).Nodup := by
      rw [(SettingsStore.lookup_prepared hprepared).1]
      exact call.nodup
    have htable := saveAll_runs (call.walk prepared) s.db
    have hrows := saveRows_runs prepared s.store.rows
    rw [hperm.length_eq] at htable
    by_cases hspared : Tx.Spared (1 + (prepared.length + 1)) call.faults
    · have hview : ((call.walk prepared).foldl SettingsTable.save s.db).view =
          prepared.foldl (fun rows entry => SettingsStore.saveRow rows entry.1 entry.2)
            s.store.rows := by
        rw [SettingsTable.view_foldl_save]
        exact foldl_saveRow_perm hperm hnodup _
      simp only [transaction_spared htable hspared, transaction_spared hrows hspared]
      rw [← hview]
      exact ⟨trivial, rfl⟩
    · obtain ⟨e, he⟩ := transaction_not_spared htable hspared
      obtain ⟨e', he'⟩ := transaction_not_spared hrows hspared
      simp only [he, he']
      exact ⟨rfl, trivial⟩

/-- A `SetMany` that fails changes nothing. -/
theorem setMany_error {cipher : Cipher} {s : SettingsDatabase} {call : SetManyCall}
    (h : (s.setMany cipher call).1.isOk = false) : (s.setMany cipher call).2 = s := by
  unfold setMany at h ⊢
  split
  · rfl
  next prepared hprepared =>
  rw [hprepared] at h
  cases htx : transaction (saveAll (call.walk prepared)) call.faults s.db with
  | mk answer db =>
    cases answer with
    | error err =>
      simp only
      rw [transaction_error htx]
    | ok u =>
      simp only [htx] at h
      cases h

theorem setMany_key (cipher : Cipher) (s : SettingsDatabase) (call : SetManyCall) :
    (s.setMany cipher call).2.key = s.key := by
  unfold setMany
  split
  · rfl
  · split <;> rfl

/-! ## What `List` answers -/

theorem scanSettings_steady (keys : List (String × Bool)) (result : List Setting)
    (rows : List SettingRow) : (scanSettings keys result rows).Steady := by
  induction rows generalizing result with
  | nil => exact .bind (.query _ _) fun _ => .pure _
  | cons row rows ih =>
    refine .bind (.query _ _) fun _ => ?_
    show (if selects keys row.key then scanSettings keys (result ++ [settingOf row]) rows
      else scanSettings keys result rows).Steady
    split
    · exact ih _
    · exact ih _

theorem scanSettings_nil (keys : List (String × Bool)) (result : List Setting)
    (rows : List SettingRow) (t : SettingsTable) :
    scanSettings keys result rows t [] =
      .ok (result ++ (rows.filter fun row => selects keys row.key).map settingOf, t, []) := by
  induction rows generalizing result with
  | nil => simp [scanSettings, Tx.bind_apply, Tx.query_nil, Tx.pure_apply]
  | cons row rows ih =>
    rw [scanSettings, Tx.bind_apply, Tx.query_nil]
    simp only
    by_cases hrow : selects keys row.key
    · rw [if_pos hrow, ih]
      simp [hrow]
    · rw [if_neg hrow, ih]
      simp [hrow]

/-- The entries of the selected rows, in the order of their keys. -/
def listed (s : SettingsDatabase) (keys : List (String × Bool)) : List Setting :=
  (s.db.ordered.filter fun row => selects keys row.key).map settingOf

theorem list_nil (s : SettingsDatabase) (keys : List (String × Bool)) :
    s.list [] keys = .ok (s.listed keys) := by
  simp only [list, transaction, Tx.bind_apply, Tx.query_nil, scanSettings_nil]
  rfl

/-- `List` answers with these entries or fails. -/
theorem list_ok {s : SettingsDatabase} {keys : List (String × Bool)} {faults : Faults}
    {result : List Setting} (h : s.list faults keys = .ok result) : result = s.listed keys := by
  have hsteady : Tx.Steady (do
      let rows ← Tx.query "list settings" SettingsTable.ordered
      scanSettings keys [] rows) :=
    .bind (.query _ _) fun rows => scanSettings_steady keys [] rows
  have hnil := transaction_ok hsteady (Prod.ext h rfl)
  have hlist := list_nil s keys
  rw [list, hnil] at hlist
  exact Except.ok.inj hlist

theorem mem_listed {s : SettingsDatabase} {keys : List (String × Bool)} {entry : Setting} :
    entry ∈ s.listed keys ↔
      ∃ row ∈ s.db.rows, selects keys row.key = true ∧ settingOf row = entry := by
  simp only [listed, List.mem_map, List.mem_filter, SettingsTable.mem_ordered, and_assoc]

theorem listed_strict (s : SettingsDatabase) (keys : List (String × Bool)) :
    ((s.listed keys).map Setting.key).Pairwise (· < ·) := by
  have hkeys : (s.listed keys).map Setting.key =
      (s.db.ordered.filter fun row => selects keys row.key).map SettingRow.key := by
    rw [listed, List.map_map]
    rfl
  rw [hkeys]
  exact s.db.ordered_strict.sublist (List.filter_sublist.map _)

end SettingsDatabase

end OpenHpcWeb.Platform
