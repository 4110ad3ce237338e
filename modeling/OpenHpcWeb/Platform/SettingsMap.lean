/-
  The settings store as a map in which the last writer wins (internal/platform/settings.go).

  The map is `currentValue`: the value that the last successful `SetMany` gave a key, if it is
  not empty. A run is a list of calls on the database of a new file; a store that is opened
  again with the same key goes on from the database that the calls before left.

  * `after_stored`: after every run each key has the row that its current value asks for.
  * `settings_last_writer`: what `Get`, a failed `SetMany`, the rows of secrets and `List` show
    of it.
-/
import OpenHpcWeb.Lib.LastWriter
import OpenHpcWeb.Platform.SettingsTable

namespace OpenHpcWeb.Platform

open OpenHpcWeb.Go OpenHpcWeb.Lib

/-- What is sealed under one additional data does not open under another. -/
def Cipher.Binds (cipher : Cipher) : Prop :=
  ∀ key nonce text data data', key.length = 32 → nonce.length = nonceSize → data ≠ data' →
    cipher.openBytes key nonce (cipher.sealBytes key nonce text data) data' = none

/-- An empty value is no value. -/
def nonEmpty (last : Option String) : Option String := last.filter fun value => value ≠ ""

@[simp] theorem nonEmpty_none : nonEmpty none = none := rfl

@[simp] theorem nonEmpty_empty : nonEmpty (some "") = none := rfl

theorem nonEmpty_some {value : String} (h : value ≠ "") : nonEmpty (some value) = some value := by
  simp [nonEmpty, Option.filter, h]

/-- The value of a key after the batches that were set. -/
def currentValue (batches : List (List (String × String))) (key : String) : Option String :=
  nonEmpty (lastWrite batches key)

theorem bytesOf_injective {s t : String} (h : bytesOf s = bytesOf t) : s = t := by
  rw [← textOf_bytesOf s, h, textOf_bytesOf]

namespace SettingsStore

variable {cipher : Cipher}

/-! ## What is stored for a value -/

/-- The bytes of a value: a secret only sealed, under the name of its key. -/
def StoredAs (cipher : Cipher) (s : SettingsStore) (key value : String) (raw : Bytes) : Prop :=
  if isSecretSetting key then s.key.length = 32 ∧ ∃ nonce, raw = s.encrypt cipher nonce key value
  else raw = bytesOf value

/-- The row of a key has what was last written to it. -/
def Stored (cipher : Cipher) (s : SettingsStore) (key : String) (last : Option String) : Prop :=
  match nonEmpty last with
  | none => s.rows key = none
  | some value => validateSettingKey key = .ok () ∧
      ∃ raw, s.rows key = some raw ∧ StoredAs cipher s key value raw

theorem stored_prepared {nonces : String → Option Nonce} {s s' : SettingsStore}
    {key value : String} {raw : Bytes} (hkey : s'.key = s.key)
    (hraw : s.prepare cipher nonces key value = .ok raw) (hrow : s'.rows key = savedRow raw) :
    Stored cipher s' key (some value) := by
  obtain ⟨hvalid, ⟨hsecret, rfl⟩ | ⟨hsecret, rfl, rfl⟩ | ⟨hsecret, hvalue, hlength, nonce, rfl⟩⟩ :=
    prepare_ok hraw
  · by_cases hvalue : value = ""
    · simp [Stored, hrow, savedRow, hvalue]
    · simp [Stored, StoredAs, hrow, savedRow, nonEmpty_some hvalue, hvalue, hvalid, hsecret]
  · simp [Stored, hrow, savedRow]
  · have hne : (s.encrypt cipher nonce key value).length ≠ 0 := by
      have hsize : 0 < nonceSize := by decide
      rw [encrypt, List.length_append, nonce.property]
      omega
    have hsame : s'.encrypt cipher nonce key value = s.encrypt cipher nonce key value := by
      rw [encrypt, encrypt, hkey]
    have hstored : StoredAs cipher s' key value (s.encrypt cipher nonce key value) := by
      rw [StoredAs, if_pos hsecret, hkey]
      exact ⟨hlength, nonce, hsame.symm⟩
    simp only [Stored, nonEmpty_some hvalue, hrow, savedRow, if_neg hne]
    exact ⟨hvalid, _, rfl, hstored⟩

theorem stored_congr {s s' : SettingsStore} {key : String} (hkey : s'.key = s.key)
    (hrow : s'.rows key = s.rows key) (last : Option String) (h : Stored cipher s key last) :
    Stored cipher s' key last := by
  have hsame : ∀ nonce value, s'.encrypt cipher nonce key value =
      s.encrypt cipher nonce key value := by
    intro nonce value
    rw [encrypt, encrypt, hkey]
  simpa only [Stored, StoredAs, hsame, hkey, hrow] using h

/-- What one `SetMany` does to the rows. -/
theorem setMany_stored {nonces : String → Option Nonce} {faults : Faults} {s : SettingsStore}
    {values : List (String × String)} (hnodup : (values.map Prod.fst).Nodup)
    (hok : (s.setMany cipher nonces faults values).1.isOk = true) (key : String) :
    match values.lookup key with
    | none => ∀ last, Stored cipher s key last →
        Stored cipher (s.setMany cipher nonces faults values).2 key last
    | some value => Stored cipher (s.setMany cipher nonces faults values).2 key (some value) := by
  cases hcall : s.setMany cipher nonces faults values with
  | mk answer s' =>
    rw [hcall] at hok
    cases answer with
    | error err => cases hok
    | ok u =>
      obtain ⟨hkey, hrows⟩ := setMany_ok hnodup hcall
      have hrow := hrows key
      cases hvalue : values.lookup key with
      | none =>
        simp only [hvalue] at hrow
        exact stored_congr hkey hrow
      | some value =>
        simp only [hvalue] at hrow
        obtain ⟨raw, hraw, hsaved⟩ := hrow
        exact stored_prepared hkey hraw hsaved

/-- What `Get` answers from the row. -/
theorem get_stored (hlawful : cipher.Lawful) {s : SettingsStore} {key : String}
    {last : Option String} (hvalid : validateSettingKey key = .ok ())
    (h : Stored cipher s key last) :
    s.get cipher none key = .ok (nonEmpty last) := by
  unfold Stored at h
  cases hlast : nonEmpty last with
  | none =>
    simp only [hlast] at h
    simp only [get, hvalid, h]
    rfl
  | some value =>
    simp only [hlast] at h
    obtain ⟨-, raw, hrow, hraw⟩ := h
    unfold StoredAs at hraw
    cases hsecret : isSecretSetting key with
    | false =>
      rw [hsecret, if_neg (by decide)] at hraw
      simp [get, hvalid, hrow, hsecret, hraw, bind, Except.bind]
    | true =>
      rw [hsecret, if_pos rfl] at hraw
      obtain ⟨hlength, nonce, rfl⟩ := hraw
      have hopen := decrypt_encrypt hlawful hlength nonce key value
      simp [get, hvalid, hrow, hsecret, hopen, bind, Except.bind, Except.map]

/-- A sealed value that is moved to another key does not decrypt there. -/
theorem decrypt_moved (hbinds : cipher.Binds) {s : SettingsStore} (hkey : s.key.length = 32)
    (nonce : Nonce) {key other : String} (hother : other ≠ key) (value : String) :
    s.decrypt cipher other (s.encrypt cipher nonce key value) =
      .error "cannot decrypt setting" := by
  have hdata : bytesOf key ≠ bytesOf other := fun h => hother (bytesOf_injective h).symm
  rw [decrypt_sealed cipher hkey,
    hbinds s.key nonce.val _ _ _ hkey nonce.property hdata]

theorem setMany_error {nonces : String → Option Nonce} {faults : Faults} {s : SettingsStore}
    {values : List (String × String)}
    (h : (s.setMany cipher nonces faults values).1.isOk = false) :
    (s.setMany cipher nonces faults values).2 = s := by
  unfold setMany at h ⊢
  split
  · rfl
  next prepared hprepared =>
  rw [hprepared] at h
  split
  · rfl
  next u rows hsaved =>
  simp only [hsaved] at h
  cases h

/-- A call on the rows. -/
def answer (cipher : Cipher) (s : SettingsStore) (call : SetManyCall) :
    Except String Unit × SettingsStore :=
  s.setMany cipher call.nonces call.faults call.values

/-- After any calls on a store without rows each key has the row of what was last written. -/
theorem after_stored {s : SettingsStore} (hempty : s.rows = fun _ => none)
    (calls : List SetManyCall) (key : String) :
    Stored cipher (after (answer cipher) s calls) key
      (lastWrite ((accepted (answer cipher) s calls).map SetManyCall.values) key) := by
  apply after_lastWrite (Stored cipher)
  · intro s call h
    exact setMany_error h
  · intro s call h key
    have hstored := setMany_stored call.nodup h key
    cases hvalue : call.values.lookup key with
    | none =>
      simp only [hvalue] at hstored
      exact hstored
    | some value =>
      simp only [hvalue] at hstored
      exact hstored
  · intro key
    rw [Stored, nonEmpty_none, hempty]

end SettingsStore

/-! ## Runs of the database -/

namespace SettingsDatabase

variable {cipher : Cipher}

/-- The batches of the calls that succeeded. -/
def savedBatches (cipher : Cipher) (s : SettingsDatabase) (calls : List SetManyCall) :
    List (List (String × String)) :=
  (accepted (setMany cipher) s calls).map SetManyCall.values

theorem after_stored (cipher : Cipher) {s : SettingsDatabase} (hempty : s.db = SettingsTable.empty)
    (calls : List SetManyCall) (key : String) :
    (after (setMany cipher) s calls).store.Stored cipher key
      (lastWrite (savedBatches cipher s calls) key) := by
  have hrows : s.store.rows = fun _ => none := by
    rw [store, hempty]
    rfl
  have hsim := after_sim (setMany cipher) (SettingsStore.answer cipher) store
    (fun s call => (setMany_refines cipher s call).1)
    (fun s call => (setMany_refines cipher s call).2) s calls
  rw [savedBatches, hsim.1, hsim.2]
  exact SettingsStore.after_stored hrows calls key

theorem after_key (cipher : Cipher) (s : SettingsDatabase) (calls : List SetManyCall) :
    (after (setMany cipher) s calls).key = s.key :=
  after_keeps (fun s' : SettingsDatabase => s'.key = s.key)
    (fun s' call h => (setMany_key cipher s' call).trans h) rfl calls

/-- A row is the one its key's current value asks for. -/
theorem row_stored {s : SettingsDatabase} {row : SettingRow} {last : Option String}
    (hrow : row ∈ s.db.rows) (h : s.store.Stored cipher row.key last) :
    ∃ value, nonEmpty last = some value ∧
      s.store.StoredAs cipher row.key value row.value := by
  have hview : s.store.rows row.key = some row.value := SettingsTable.view_of_mem hrow
  unfold SettingsStore.Stored at h
  cases hlast : nonEmpty last with
  | none =>
    simp only [hlast, hview] at h
    cases h
  | some value =>
    simp only [hlast, hview] at h
    obtain ⟨-, raw, hraw, hstored⟩ := h
    rw [← Option.some.inj hraw] at hstored
    exact ⟨value, rfl, hstored⟩

/-- And a current value has a row. -/
theorem stored_row {s : SettingsDatabase} {key value : String} {last : Option String}
    (h : s.store.Stored cipher key last) (hlast : nonEmpty last = some value) :
    ∃ row ∈ s.db.rows, row.key = key := by
  simp only [SettingsStore.Stored, hlast] at h
  obtain ⟨-, raw, hraw, -⟩ := h
  have hfind : (s.db.find key).map SettingRow.value = some raw := hraw
  obtain ⟨row, hrow, -⟩ := Option.map_eq_some_iff.mp hfind
  exact ⟨row, SettingsTable.mem_of_find hrow, SettingsTable.find_key hrow⟩

/-- The entry that `List` has for a key with a value. -/
def settingFor (key value : String) : Setting where
  key := key
  value := if isSecretSetting key then "" else value
  secret := isSecretSetting key
  configured := true

theorem settingOf_stored {s : SettingsDatabase} {row : SettingRow} {value : String}
    (h : s.store.StoredAs cipher row.key value row.value) :
    settingOf row = settingFor row.key value := by
  unfold settingOf settingFor
  cases hsecret : isSecretSetting row.key with
  | true => rfl
  | false =>
    rw [SettingsStore.StoredAs, hsecret, if_neg (by decide)] at h
    simp [h]

theorem mem_listed_iff {s : SettingsDatabase} {last : String → Option String}
    (h : ∀ key, s.store.Stored cipher key (last key)) (keys : List (String × Bool))
    (entry : Setting) : entry ∈ s.listed keys ↔
      ∃ value, nonEmpty (last entry.key) = some value ∧ selects keys entry.key = true ∧
        entry = settingFor entry.key value := by
  rw [mem_listed]
  constructor
  · rintro ⟨row, hrow, hselects, rfl⟩
    obtain ⟨value, hlast, hstored⟩ := row_stored hrow (h row.key)
    exact ⟨value, hlast, hselects, settingOf_stored hstored⟩
  · rintro ⟨value, hlast, hselects, hentry⟩
    obtain ⟨row, hrow, hkey⟩ := stored_row (h entry.key) hlast
    obtain ⟨value', hlast', hstored⟩ := row_stored hrow (h row.key)
    rw [hkey, hlast] at hlast'
    obtain rfl := Option.some.inj hlast'
    refine ⟨row, hrow, hkey ▸ hselects, ?_⟩
    rw [settingOf_stored hstored, hentry, hkey]

/-- The store is a map in which the last writer wins: after any calls of `SetMany` on a new store
    that was opened with a key, `Get` of a known key answers its current value; a call that fails
    changes nothing; a secret has only its sealed form in the table, which does not decrypt under
    the name of another key; and `List` has one entry for each selected key with a value, in the
    order of the keys, with the value of no secret. -/
theorem settings_last_writer (hlawful : cipher.Lawful) (hbinds : cipher.Binds) (key : Bytes)
    (hkey : key ≠ []) (start : SettingsDatabase)
    (hopen : openSettingsStore SettingsTable.empty key = .ok start) (calls : List SetManyCall) :
    (∀ name ∈ settingSchema.map Prod.fst,
      (after (setMany cipher) start calls).get cipher none name =
        .ok (currentValue (savedBatches cipher start calls) name)) ∧
    (∀ call, ((after (setMany cipher) start calls).setMany cipher call).1.isOk = false →
      ((after (setMany cipher) start calls).setMany cipher call).2 =
        after (setMany cipher) start calls) ∧
    (∀ row ∈ (after (setMany cipher) start calls).db.rows, isSecretSetting row.key = true →
      (∃ (nonce : Nonce) (value : String),
        currentValue (savedBatches cipher start calls) row.key = some value ∧
        row.value = nonce.val ++
          cipher.sealBytes key nonce.val (bytesOf value) (bytesOf row.key)) ∧
      ∀ other, other ≠ row.key →
        (after (setMany cipher) start calls).store.decrypt cipher other row.value =
          .error "cannot decrypt setting") ∧
    (∀ keys, ∃ result, (after (setMany cipher) start calls).list [] keys = .ok result ∧
      (∀ faults answer, (after (setMany cipher) start calls).list faults keys = .ok answer →
        answer = result) ∧
      (result.map Setting.key).Pairwise (· < ·) ∧
      ∀ entry, entry ∈ result ↔
        ∃ value, currentValue (savedBatches cipher start calls) entry.key = some value ∧
          selects keys entry.key = true ∧ entry = settingFor entry.key value) := by
  have hstart : start.db = SettingsTable.empty ∧ start.key = key := by
    unfold openSettingsStore at hopen
    split at hopen
    · rw [← Except.ok.inj hopen]
      exact ⟨rfl, rfl⟩
    · cases hopen
  have hafter := after_key cipher start calls
  have hstored := after_stored cipher hstart.1 calls
  generalize after (setMany cipher) start calls = s at hafter hstored ⊢
  rw [hstart.2] at hafter
  have hlength : s.key.length = 32 := by
    apply s.key_length.resolve_left
    rw [hafter]
    exact fun h => hkey (List.length_eq_zero_iff.mp h)
  refine ⟨fun name hname => ?_, fun call h => setMany_error h, fun row hrow hsecret => ?_,
    fun keys => ⟨s.listed keys, list_nil s keys, fun faults answer h => list_ok h,
      listed_strict s keys, mem_listed_iff hstored keys⟩⟩
  · obtain ⟨entry, hentry, rfl⟩ := List.mem_map.mp hname
    rw [get_eq]
    exact SettingsStore.get_stored hlawful (validateSettingKey_schema entry hentry)
      (hstored entry.1)
  · obtain ⟨value, hvalue, hraw⟩ := row_stored hrow (hstored row.key)
    rw [SettingsStore.StoredAs, if_pos hsecret] at hraw
    obtain ⟨-, nonce, hraw⟩ := hraw
    refine ⟨⟨nonce, value, hvalue, ?_⟩, fun other hother => ?_⟩
    · rw [hraw, SettingsStore.encrypt, ← hafter]
      rfl
    · rw [hraw]
      exact SettingsStore.decrypt_moved hbinds hlength nonce hother value

/-! ## A run with a cipher that marks the additional data -/

/-- The additional data, each byte after a mark, and the text. -/
def sealMarked (text : Bytes) : Bytes → Bytes
  | [] => 0 :: text
  | b :: data => 1 :: b :: sealMarked text data

def openMarked : Bytes → Bytes → Option Bytes
  | raw, [] => if raw.head? = some 0 then some raw.tail else none
  | raw, b :: data => if raw.take 2 = [1, b] then openMarked (raw.drop 2) data else none

theorem openMarked_sealMarked (text data data' : Bytes) :
    openMarked (sealMarked text data) data' = if data = data' then some text else none := by
  induction data generalizing data' with
  | nil =>
    cases data' with
    | nil => rfl
    | cons d data' => cases text <;> simp [sealMarked, openMarked]
  | cons b data ih =>
    cases data' with
    | nil => simp [sealMarked, openMarked]
    | cons d data' =>
      by_cases hbyte : b = d
      · simp [sealMarked, openMarked, ih, hbyte]
      · simp [sealMarked, openMarked, hbyte]

def markedCipher : Cipher where
  sealBytes _ _ text data := sealMarked text data
  openBytes _ _ raw data := openMarked raw data

theorem markedCipher_lawful : markedCipher.Lawful := by
  intro key nonce text data _ _
  exact (openMarked_sealMarked text data data).trans (if_pos rfl)

theorem markedCipher_binds : markedCipher.Binds := by
  intro key nonce text data data' _ _ hdata
  exact (openMarked_sealMarked text data data').trans (if_neg hdata)

/-- A database with a key of zeros. -/
def zeroKeyDatabase : SettingsDatabase where
  db := .empty
  key := List.replicate 32 0
  key_length := .inr rfl

/-- A call that walks the map in its own order and meets no fault. -/
def plainCall (values : List (String × String)) (nodup : (values.map Prod.fst).Nodup) :
    SetManyCall where
  values := values
  nodup := nodup
  walk := id
  walk_perm _ := .refl _
  nonces _ := some ⟨List.replicate 12 0, rfl⟩
  faults := []

/-- A password and an address are set, then the address is emptied, then an unknown key is
    refused. -/
def ldapCalls : List SetManyCall :=
  [plainCall [("OPENHPC_LDAP_BIND_PASSWORD", "pw"), ("OPENHPC_LDAP_URL", "ldaps://h")]
      (by decide),
    plainCall [("OPENHPC_LDAP_URL", "")] (by decide),
    plainCall [("OPENHPC_LDAP_BIND_PASSWORD", "x"), ("UNKNOWN", "y")] (by decide)]

theorem settings_last_writer_ldap :
    (after (setMany markedCipher) zeroKeyDatabase ldapCalls).get markedCipher none
        "OPENHPC_LDAP_BIND_PASSWORD" = .ok (some "pw") ∧
      (after (setMany markedCipher) zeroKeyDatabase ldapCalls).get markedCipher none
        "OPENHPC_LDAP_URL" = .ok none := by
  have hrun := (settings_last_writer markedCipher_lawful markedCipher_binds (List.replicate 32 0)
    (by decide) zeroKeyDatabase rfl ldapCalls).1
  have hpassword : currentValue (savedBatches markedCipher zeroKeyDatabase ldapCalls)
      "OPENHPC_LDAP_BIND_PASSWORD" = some "pw" := by decide +kernel
  have hurl : currentValue (savedBatches markedCipher zeroKeyDatabase ldapCalls)
      "OPENHPC_LDAP_URL" = none := by decide +kernel
  have h := hrun "OPENHPC_LDAP_BIND_PASSWORD" (by decide)
  have h' := hrun "OPENHPC_LDAP_URL" (by decide)
  rw [hpassword] at h
  rw [hurl] at h'
  exact ⟨h, h'⟩

end SettingsDatabase

end OpenHpcWeb.Platform
