/-
  The settings store of internal/platform/settings.go.

  The table is a function from keys to the bytes of their rows. `SetMany` is given a map: a
  list of keys and values in which no key occurs twice, in the order in which it is walked.
  Its writes are one transaction (`Lib.Tx`). AES-GCM is a parameter (`Cipher`); what is
  assumed of it stands in `Cipher.Lawful`.

  * `get_setMany`: after a successful `SetMany` a key has the value that was set, if that was
    not empty, none if it was, and what it had before if it was not set.
-/
import OpenHpcWeb.Go.Std
import OpenHpcWeb.Lib.Tx
import Mathlib.Logic.Function.Basic

namespace OpenHpcWeb.Platform

open OpenHpcWeb.Go OpenHpcWeb.Lib

/-! ## Bytes -/

abbrev Bytes := List UInt8

/-- The conversion to `[]byte`. -/
def bytesOf (s : String) : Bytes := s.toByteArray.data.toList

/-- The conversion to a string; bytes that are not UTF-8 are no text of the model. -/
def textOf (b : Bytes) : String := (String.fromUTF8? ⟨b.toArray⟩).getD ""

@[simp] theorem textOf_bytesOf (s : String) : textOf (bytesOf s) = s := by
  have hbytes : (⟨(bytesOf s).toArray⟩ : ByteArray) = s.toByteArray := rfl
  have hvalid : s.toByteArray.IsValidUTF8 := s.isValidUTF8
  rw [textOf, hbytes, String.fromUTF8?, dif_pos hvalid]
  rfl

@[simp] theorem bytesOf_eq_nil_iff {s : String} : bytesOf s = [] ↔ s = "" := by
  constructor
  · intro h
    rw [← textOf_bytesOf s, h]
    rfl
  · rintro rfl
    rfl

/-! ## Encryption -/

def nonceSize : Nat := 12

/-- What `io.ReadFull` reads for one value. -/
abbrev Nonce := { b : Bytes // b.length = nonceSize }

/-- AES-GCM: the key, the nonce, the text and the additional data. -/
structure Cipher where
  sealBytes : Bytes → Bytes → Bytes → Bytes → Bytes
  openBytes : Bytes → Bytes → Bytes → Bytes → Option Bytes

/-- What is sealed opens again. -/
def Cipher.Lawful (cipher : Cipher) : Prop :=
  ∀ key nonce text data, key.length = 32 → nonce.length = nonceSize →
    cipher.openBytes key nonce (cipher.sealBytes key nonce text data) data = some text

/-! ## The store -/

def maxSettingValueBytes : Nat := 8192

def errSettingsKeyRequired : String := "settings encryption key is required"

/-- `settingSchema`: the keys, and whether they are secret. -/
def settingSchema : List (String × Bool) :=
  [("OPENHPC_SLURM_ENABLED", false), ("OPENHPC_SLURM_BIN_DIR", false),
    ("OPENHPC_SLURM_TIMEOUT", false), ("OPENHPC_SLURM_MAX_OUTPUT", false),
    ("OPENHPC_SLURM_CACHE_TTL", false), ("OPENHPC_LDAP_ENABLED", false),
    ("OPENHPC_LDAP_URL", false), ("OPENHPC_LDAP_BASE_DN", false),
    ("OPENHPC_LDAP_USER_BASE_DN", false), ("OPENHPC_LDAP_GROUP_BASE_DN", false),
    ("OPENHPC_LDAP_BIND_DN", false), ("OPENHPC_LDAP_BIND_PASSWORD", true),
    ("OPENHPC_LDAP_PROVISION_BIND_DN", false), ("OPENHPC_LDAP_PROVISION_BIND_PASSWORD", true),
    ("OPENHPC_LDAP_CA_FILE", false), ("OPENHPC_LDAP_TIMEOUT", false),
    ("OPENHPC_LDAP_MAX_RESULTS", false), ("OPENHPC_TERMINAL_ENABLED", false),
    ("OPENHPC_TERMINAL_SSH_ADDRESS", false), ("OPENHPC_TERMINAL_TIMEOUT", false)]

def isSecretSetting (key : String) : Bool := (settingSchema.lookup key).getD false

def validateSettingKey (key : String) : Except String Unit :=
  if settingSchema.lookup key = none then .error "unknown setting key"
  else if trimSpace key = "" ∨ byteLen key > 128 ∨ trimSpace key ≠ key then
    .error "invalid setting key"
  else .ok ()

/-- The schema has no invalid key. -/
theorem validateSettingKey_schema :
    ∀ entry ∈ settingSchema, validateSettingKey entry.1 = .ok () := by
  decide +kernel

/-- `SettingsStore`; `OpenSettingsStore` admits no key of another length. -/
structure SettingsStore where
  rows : String → Option Bytes
  key : Bytes
  key_length : key.length = 0 ∨ key.length = 32

namespace SettingsStore

def encrypt (cipher : Cipher) (s : SettingsStore) (nonce : Nonce) (key value : String) : Bytes :=
  nonce.val ++ cipher.sealBytes s.key nonce.val (bytesOf value) (bytesOf key)

def decrypt (cipher : Cipher) (s : SettingsStore) (key : String) (raw : Bytes) :
    Except String String :=
  if s.key.length = 0 then .error errSettingsKeyRequired
  else if raw.length < nonceSize then .error "invalid encrypted setting"
  else
    match cipher.openBytes s.key (raw.take nonceSize) (raw.drop nonceSize) (bytesOf key) with
    | none => .error "cannot decrypt setting"
    | some value => .ok (textOf value)

/-- `Get`; `none` is not found. -/
def get (cipher : Cipher) (fault : Option String) (s : SettingsStore) (key : String) :
    Except String (Option String) := do
  validateSettingKey key
  match fault with
  | some text => .error ("read setting: " ++ text)
  | none =>
    match s.rows key with
    | none => .ok none
    | some raw =>
      if isSecretSetting key then (s.decrypt cipher key raw).map some else .ok (some (textOf raw))

/-- The bytes that `SetMany` prepares for a value. A nonce is `none` if it cannot be read. -/
def prepare (cipher : Cipher) (nonces : String → Option Nonce) (s : SettingsStore)
    (key value : String) : Except String Bytes := do
  validateSettingKey key
  if byteLen value > maxSettingValueBytes then .error "setting value is too long"
  else if ¬ isSecretSetting key then .ok (bytesOf value)
  else if value = "" then .ok []
  else if s.key.length = 0 then .error errSettingsKeyRequired
  else
    match nonces key with
    | none => .error "generate settings encryption nonce"
    | some nonce => .ok (s.encrypt cipher nonce key value)

/-- The row of a key after its bytes are saved: no bytes delete it. -/
def savedRow (raw : Bytes) : Option Bytes := if raw.length = 0 then none else some raw

def saveRow (rows : String → Option Bytes) (key : String) (raw : Bytes) : String → Option Bytes :=
  Function.update rows key (savedRow raw)

/-- The transaction of `SetMany`. -/
def saveRows (prepared : List (String × Bytes)) : Tx (String → Option Bytes) PUnit := do
  Tx.query "save settings: begin transaction" fun _ => ()
  prepared.forM fun entry => Tx.exec "save setting" fun rows => .ok (saveRow rows entry.1 entry.2)
  Tx.query "save settings: commit" fun _ => ()

/-- `SetMany`: its error, if any, and the store. -/
def setMany (cipher : Cipher) (nonces : String → Option Nonce) (faults : Faults)
    (s : SettingsStore) (values : List (String × String)) : Except String Unit × SettingsStore :=
  match values.mapM fun e => (s.prepare cipher nonces e.1 e.2).map fun raw => (e.1, raw) with
  | .error err => (.error err, s)
  | .ok prepared =>
    match transaction (saveRows prepared) faults s.rows with
    | (.error err, _) => (.error err, s)
    | (.ok _, rows) => (.ok (), { s with rows := rows })

/-! ## What a successful `SetMany` leaves -/

/-- The transaction writes the rows in order. -/
theorem saveRows_ok {prepared : List (String × Bytes)} {faults : Faults}
    {rows rows' : String → Option Bytes} {u : PUnit}
    (h : transaction (saveRows prepared) faults rows = (.ok u, rows')) :
    rows' = prepared.foldl (fun rows entry => saveRow rows entry.1 entry.2) rows := by
  have hforM : ∀ (l : List (String × Bytes)) (rows : String → Option Bytes),
      (l.forM fun entry => Tx.exec "save setting" fun rows =>
        .ok (saveRow rows entry.1 entry.2)) rows [] =
      .ok (⟨⟩, l.foldl (fun rows entry => saveRow rows entry.1 entry.2) rows, []) := by
    intro l
    induction l with
    | nil => intro rows; rfl
    | cons e l ih => intro rows; exact ih _
  have hsteady : (saveRows prepared).Steady :=
    .bind (.query _ _) fun _ => .bind (.forM (fun _ => .exec _ _) _) fun _ => .query _ _
  have hok := transaction_ok hsteady h
  simp only [transaction, saveRows, Tx.bind_apply, Tx.query_nil, hforM, Prod.mk.injEq] at hok
  exact hok.2.symm

/-- The row of a key after keys that differ are saved. -/
theorem foldl_saveRow {prepared : List (String × Bytes)}
    (hnodup : (prepared.map Prod.fst).Nodup) (rows : String → Option Bytes) (key : String) :
    prepared.foldl (fun rows entry => saveRow rows entry.1 entry.2) rows key =
      match prepared.lookup key with
      | none => rows key
      | some raw => savedRow raw := by
  induction prepared generalizing rows with
  | nil => rfl
  | cons entry prepared ih =>
    obtain ⟨hentry, hprepared⟩ := List.nodup_cons.mp hnodup
    rw [List.foldl_cons, ih hprepared, List.lookup_cons]
    by_cases hkey : key = entry.1
    · -- the later entries leave the key alone
      have hlater : prepared.lookup key = none := by
        rw [List.lookup_eq_none_iff]
        intro e he
        have hne : key ≠ e.1 := fun heq => hentry (List.mem_map.mpr ⟨e, he, by rw [← heq, hkey]⟩)
        simpa using hne
      rw [hlater, hkey]
      simp [saveRow]
    · have hrow : saveRow rows entry.1 entry.2 key = rows key := Function.update_of_ne hkey _ _
      rw [hrow, beq_eq_false_iff_ne.mpr hkey]

/-- The bytes that are prepared for the keys of a map. -/
theorem lookup_prepared {cipher : Cipher} {nonces : String → Option Nonce} {s : SettingsStore}
    {values : List (String × String)} {prepared : List (String × Bytes)}
    (h : (values.mapM fun e => (s.prepare cipher nonces e.1 e.2).map fun raw => (e.1, raw)) =
      .ok prepared) :
    prepared.map Prod.fst = values.map Prod.fst ∧ ∀ key,
      match values.lookup key with
      | none => prepared.lookup key = none
      | some value => ∃ raw, prepared.lookup key = some raw ∧
          s.prepare cipher nonces key value = .ok raw := by
  induction values generalizing prepared with
  | nil => cases h; simp
  | cons e values ih =>
    rw [List.mapM_cons] at h
    cases hraw : s.prepare cipher nonces e.1 e.2 with
    | error err => rw [hraw] at h; cases h
    | ok raw =>
      cases hrest : values.mapM fun e =>
          (s.prepare cipher nonces e.1 e.2).map fun raw => (e.1, raw) with
      | error err => rw [hraw, hrest] at h; cases h
      | ok rest =>
        rw [hraw, hrest] at h
        cases h
        obtain ⟨hkeys, hlookup⟩ := ih hrest
        refine ⟨by simp [hkeys], fun key => ?_⟩
        rw [List.lookup_cons]
        by_cases hkey : key = e.1
        · subst hkey
          simp [hraw]
        · have := hlookup key
          simp only [List.lookup_cons, beq_eq_false_iff_ne.mpr hkey]
          exact this

theorem prepare_ok {cipher : Cipher} {nonces : String → Option Nonce} {s : SettingsStore}
    {key value : String} {raw : Bytes} (h : s.prepare cipher nonces key value = .ok raw) :
    validateSettingKey key = .ok () ∧
      ((isSecretSetting key = false ∧ raw = bytesOf value) ∨
        (isSecretSetting key = true ∧ value = "" ∧ raw = []) ∨
        (isSecretSetting key = true ∧ value ≠ "" ∧ s.key.length = 32 ∧
          ∃ nonce, raw = s.encrypt cipher nonce key value)) := by
  unfold prepare at h
  cases hkey : validateSettingKey key with
  | error err => rw [hkey] at h; cases h
  | ok _ =>
    rw [hkey] at h
    refine ⟨rfl, ?_⟩
    replace h : (if byteLen value > maxSettingValueBytes then _ else _ : Except String Bytes) =
      .ok raw := h
    split at h
    · cases h
    split at h
    · next hsecret => exact .inl ⟨by simpa using hsecret, (Except.ok.inj h).symm⟩
    next hsecret =>
    replace hsecret : isSecretSetting key = true := by simpa using hsecret
    split at h
    · next hempty => exact .inr (.inl ⟨hsecret, hempty, (Except.ok.inj h).symm⟩)
    next hvalue =>
    split at h
    · cases h
    next hlength =>
    split at h
    · cases h
    next nonce _ =>
    exact .inr (.inr ⟨hsecret, hvalue, s.key_length.resolve_left hlength, nonce,
      (Except.ok.inj h).symm⟩)

/-- What `decrypt` makes of an encrypted value, under the name of any key. -/
theorem decrypt_sealed (cipher : Cipher) {s : SettingsStore} (hkey : s.key.length = 32)
    (nonce : Nonce) (key other value : String) :
    s.decrypt cipher other (s.encrypt cipher nonce key value) =
      match cipher.openBytes s.key nonce.val
        (cipher.sealBytes s.key nonce.val (bytesOf value) (bytesOf key)) (bytesOf other) with
      | none => .error "cannot decrypt setting"
      | some value => .ok (textOf value) := by
  have hlength : ¬ (s.encrypt cipher nonce key value).length < nonceSize := by
    rw [encrypt, List.length_append, nonce.property]
    omega
  have htake : (s.encrypt cipher nonce key value).take nonceSize = nonce.val := by
    rw [encrypt, List.take_left' nonce.property]
  have hdrop : (s.encrypt cipher nonce key value).drop nonceSize =
      cipher.sealBytes s.key nonce.val (bytesOf value) (bytesOf key) := by
    rw [encrypt, List.drop_left' nonce.property]
  rw [decrypt, if_neg (by omega), if_neg hlength, htake, hdrop]

/-- What is encrypted is decrypted. -/
theorem decrypt_encrypt {cipher : Cipher} (hcipher : cipher.Lawful) {s : SettingsStore}
    (hkey : s.key.length = 32) (nonce : Nonce) (key value : String) :
    s.decrypt cipher key (s.encrypt cipher nonce key value) = .ok value := by
  rw [decrypt_sealed cipher hkey, hcipher s.key nonce.val _ _ hkey nonce.property]
  simp

/-- What `Get` answers after one value is saved. -/
theorem get_of_saved {cipher : Cipher} (hcipher : cipher.Lawful) {nonces : String → Option Nonce}
    {s s' : SettingsStore} {key value : String} {raw : Bytes} (hkey : s'.key = s.key)
    (hraw : s.prepare cipher nonces key value = .ok raw) (hrow : s'.rows key = savedRow raw) :
    s'.get cipher none key = .ok (if value = "" then none else some value) := by
  obtain ⟨hvalid, ⟨hsecret, rfl⟩ | ⟨hsecret, rfl, rfl⟩ | ⟨hsecret, hvalue, hlength, nonce, rfl⟩⟩ :=
    prepare_ok hraw
  · by_cases hvalue : value = ""
    · have hnone : s'.rows key = none := by simp [hrow, savedRow, hvalue]
      simp only [get, hvalid, hnone, hvalue]
      rfl
    · have hsome : s'.rows key = some (bytesOf value) := by simp [hrow, savedRow, hvalue]
      simp [get, hvalid, hsome, hsecret, hvalue, bind, Except.bind]
  · have hnone : s'.rows key = none := by simp [hrow, savedRow]
    simp only [get, hvalid, hnone]
    rfl
  · have hsome : s'.rows key = some (s.encrypt cipher nonce key value) := by
      have hne : (s.encrypt cipher nonce key value).length ≠ 0 := by
        rw [encrypt, List.length_append, nonce.property]
        have hsize : 0 < nonceSize := by decide
        omega
      rw [hrow, savedRow, if_neg hne]
    have hopen := decrypt_encrypt hcipher hlength nonce key value
    have hsame : s'.decrypt cipher key (s.encrypt cipher nonce key value) = .ok value := by
      rw [← hopen, decrypt, decrypt, hkey]
    simp [get, hvalid, hsome, hsecret, hsame, hvalue, bind, Except.bind, Except.map]

/-- The rows that a successful `SetMany` leaves: for a key that is set what is prepared for it,
    and for any other key what was there. -/
theorem setMany_ok {cipher : Cipher} {nonces : String → Option Nonce} {faults : Faults}
    {s s' : SettingsStore} {values : List (String × String)}
    (hnodup : (values.map Prod.fst).Nodup)
    (h : s.setMany cipher nonces faults values = (.ok (), s')) :
    s'.key = s.key ∧ ∀ key,
      match values.lookup key with
      | none => s'.rows key = s.rows key
      | some value => ∃ raw, s.prepare cipher nonces key value = .ok raw ∧
          s'.rows key = savedRow raw := by
  unfold setMany at h
  split at h
  · cases h
  next prepared hprepared =>
  obtain ⟨hkeys, hlookup⟩ := lookup_prepared hprepared
  split at h
  · cases h
  next u rows hsaved =>
  cases h
  refine ⟨rfl, fun key => ?_⟩
  have hrows := saveRows_ok hsaved
  have hrow := foldl_saveRow (hkeys ▸ hnodup) s.rows key
  rw [← hrows] at hrow
  have hkey := hlookup key
  cases hvalue : values.lookup key with
  | none =>
    simp only [hvalue] at hkey
    simp only [hkey] at hrow
    exact hrow
  | some value =>
    simp only [hvalue] at hkey
    obtain ⟨raw, hraw, hprepare⟩ := hkey
    simp only [hraw] at hrow
    exact ⟨raw, hprepare, hrow⟩

/-- After a successful `SetMany` a key has the value that was set for it, if it was not empty,
    no value if it was, and otherwise what it had before. -/
theorem get_setMany {cipher : Cipher} (hcipher : cipher.Lawful) {nonces : String → Option Nonce}
    {faults : Faults} {s s' : SettingsStore} {values : List (String × String)}
    (hnodup : (values.map Prod.fst).Nodup)
    (h : s.setMany cipher nonces faults values = (.ok (), s')) (key : String) :
    s'.get cipher none key =
      match values.lookup key with
      | none => s.get cipher none key
      | some value => .ok (if value = "" then none else some value) := by
  obtain ⟨hsame, hrows⟩ := setMany_ok hnodup h
  have hrow := hrows key
  cases hvalue : values.lookup key with
  | none =>
    simp only [hvalue] at hrow
    simp only [get, decrypt, hrow, hsame]
  | some value =>
    simp only [hvalue] at hrow
    obtain ⟨raw, hprepare, hraw⟩ := hrow
    exact get_of_saved hcipher hsame hprepare hraw

end SettingsStore

end OpenHpcWeb.Platform
