/-
  The settings page: `settingsView` of internal/web/settings.go, and `settingsDefaultsFromEnv`
  of main, whose values the page shows where the database has none.

  The page is rendered from the entries of `SettingsStore.List`. Its form sends every field
  back (templates/settings.html): a checkbox sends "true" when it is checked, and always the
  "false" of a hidden input after it; a secret field is empty and not cleared.

  * `settings_page_shows_start`: a field that is no secret shows the value that the next start
    reads, and says whether it comes from the database.
  * `settings_page_hides_secrets`: two databases and environments that agree on the options
    that are no secret, and on which secrets are there, give the same page.
  * `saved_unchanged_starts_alike`: the form of the page, sent back as it is and accepted,
    leaves the next start as it was.
-/
import OpenHpcWeb.Platform.SettingsMap
import OpenHpcWeb.Web.SettingsStart
import OpenHpcWeb.Web.View

namespace OpenHpcWeb.Web

open OpenHpcWeb.Go OpenHpcWeb.Lib OpenHpcWeb.Platform OpenHpcWeb.Server
open OpenHpcWeb.Platform.SettingsDatabase
  (markedCipher markedCipher_lawful plainCall zeroKeyDatabase)

/-! ## The texts of the fields -/

/-- The texts of a `settingsSpec`. -/
structure SettingsText where
  groupZH : String
  groupEN : String
  labelZH : String
  labelEN : String
  placeholderZH : String
  placeholderEN : String
  deriving DecidableEq

/-- A text whose group and placeholder are the same in both languages. -/
def settingsText (group labelZH labelEN placeholder : String) : SettingsText :=
  ⟨group, group, labelZH, labelEN, placeholder, placeholder⟩

def settingsTexts : List SettingsText :=
  [settingsText "Slurm" "启用 Slurm" "Enable Slurm" "",
    settingsText "Slurm" "Slurm 二进制目录" "Slurm binary directory" "/usr/local/bin",
    settingsText "Slurm" "Slurm 超时" "Slurm timeout" "3s",
    settingsText "Slurm" "最大输出字节数" "Maximum output bytes" "2097152",
    settingsText "Slurm" "缓存 TTL" "Cache TTL" "10s",
    settingsText "LDAP" "启用 LDAP" "Enable LDAP" "",
    settingsText "LDAP" "LDAP 地址" "LDAP URL" "ldaps://ldap.example.com:636",
    settingsText "LDAP" "基础 DN" "Base DN" "dc=example,dc=com",
    settingsText "LDAP" "用户基础 DN" "User base DN" "ou=People,dc=example,dc=com",
    settingsText "LDAP" "组基础 DN" "Group base DN" "ou=Groups,dc=example,dc=com",
    settingsText "LDAP" "只读 Bind DN" "Read-only bind DN"
      "cn=openhpc-web,ou=Service Accounts,dc=example,dc=com",
    { settingsText "LDAP" "Bind 密码" "Bind password" "输入 Bind 密码" with
      placeholderEN := "Enter Bind password" },
    settingsText "LDAP" "创建用户 Bind DN" "Provisioning bind DN"
      "cn=openhpc-provision,ou=Service Accounts,dc=example,dc=com",
    { settingsText "LDAP" "创建用户 Bind 密码" "Provisioning bind password" "输入 Bind 密码" with
      placeholderEN := "Enter Bind password" },
    settingsText "LDAP" "CA 文件" "CA file" "/etc/pki/ca-trust/source/anchors/ldap-ca.pem",
    settingsText "LDAP" "LDAP 超时" "LDAP timeout" "3s",
    settingsText "LDAP" "最大结果数" "Maximum results" "200",
    ⟨"终端", "Terminal", "启用 SSH 终端", "Enable SSH terminal", "", ""⟩,
    ⟨"终端", "Terminal", "SSH 登录节点", "SSH login node", "login.example.com:22",
      "login.example.com:22"⟩,
    ⟨"终端", "Terminal", "SSH 连接超时", "SSH connection timeout", "10s", "10s"⟩]

/-- `settingsSpecs` with the texts. -/
def settingsFields : List (SettingsSpec × SettingsText) := settingsSpecs.zip settingsTexts

theorem settingsFields_specs : settingsFields.map Prod.fst = settingsSpecs := rfl

/-! ## The view -/

structure SettingFieldView where
  key : String
  label : String
  group : String
  value : String
  source : String
  placeholder : String
  inputType : String
  secret : Bool
  configured : Bool
  deriving DecidableEq

structure SettingsGroupView where
  name : String
  fields : List SettingFieldView
  deriving DecidableEq

structure SettingsView extends AppChrome where
  groups : List SettingsGroupView
  groupCount : Nat
  fieldCount : Nat
  configuredCount : Nat
  secretCount : Nat
  error : String
  success : String
  deriving DecidableEq

/-- `overrides[key]`: the entries of `List` in a map. -/
def settingOverride (entries : List Setting) (key : String) : Option Setting :=
  (entries.filter fun entry => entry.key = key).getLast?

/-- The body of the loop over `settingsSpecs`. -/
def settingField (lang : String) (defaults : String → String) (entries : List Setting)
    (field : SettingsSpec × SettingsText) : SettingFieldView :=
  let (spec, text) := field
  let found := settingOverride entries spec.key
  let value := if spec.secret then "" else (found.map Setting.value).getD (defaults spec.key)
  { key := spec.key
    label := if lang = "en" then text.labelEN else text.labelZH
    group := if lang = "en" then text.groupEN else text.groupZH
    value := value
    source :=
      if found.isSome then "SQLite override" else if lang = "en" then "Environment" else "环境变量"
    placeholder := if lang = "en" then text.placeholderEN else text.placeholderZH
    inputType := spec.inputType
    secret := spec.secret
    configured := found.isSome || trimSpace (defaults spec.key) ≠ "" }

/-- The loop that puts the fields into groups: a field of the last group's name joins it. -/
def addToGroups (groups : List SettingsGroupView) (field : SettingFieldView) :
    List SettingsGroupView :=
  match groups.getLast? with
  | none => [⟨field.group, [field]⟩]
  | some last =>
    if last.name ≠ field.group then groups ++ [⟨field.group, [field]⟩]
    else groups.dropLast ++ [{ last with fields := last.fields ++ [field] }]

def groupFields (fields : List SettingFieldView) : List SettingsGroupView :=
  fields.foldl addToGroups []

def savedText (lang : String) : String :=
  if lang = "en" then "Settings saved. Restart the service to apply changes."
  else "设置已保存，重启服务后生效。"

/-- `settingsView`, from the entries of `List` and the answer of `slurmHealth`. -/
def settingsView (c : PageContext) (slurmHealth : Bool) (defaults : String → String)
    (entries : List Setting) (updated : Bool) (success errorMessage : String) : SettingsView :=
  let fields := settingsFields.map (settingField c.language defaults entries)
  let groups := groupFields fields
  { newAppChrome c "/settings" slurmHealth
      { eyebrow := "OPENHPC / SYSTEM"
        title := if c.language = "en" then "System settings" else "系统设置"
        description :=
          if c.language = "en" then "Edit persisted Slurm and LDAP overrides"
          else "编辑持久化的 Slurm 与 LDAP 覆盖配置"
        refreshPath := ""
        refreshLabel := "" } with
    groups := groups
    groupCount := groups.length
    fieldCount := fields.length
    configuredCount := fields.countP SettingFieldView.configured
    secretCount := fields.countP SettingFieldView.secret
    error := errorMessage
    success := if updated ∧ success = "" then savedText c.language else success }

/-- The fields of a page, in order. -/
def SettingsView.fields (view : SettingsView) : List SettingFieldView :=
  view.groups.flatMap SettingsGroupView.fields

/-- `settingsDefaultsFromEnv`; a map has "" for a key that it does not hold. -/
def settingsDefaultsFromEnv (m : Machine) (key : String) : String :=
  if key ∉ settingSchema.map Prod.fst then ""
  else if m.getenv key = "" then (settingDefaults.lookup key).getD "" else m.getenv key

/-! ## The groups hold the fields -/

theorem flatMap_addToGroups (groups : List SettingsGroupView) (field : SettingFieldView) :
    (addToGroups groups field).flatMap SettingsGroupView.fields =
      groups.flatMap SettingsGroupView.fields ++ [field] := by
  unfold addToGroups
  split
  · next hnone =>
    rw [List.getLast?_eq_none_iff.mp hnone]
    rfl
  · next last hlast =>
    split
    · simp
    · rw [List.flatMap_append]
      have hsplit : groups = groups.dropLast ++ [last] :=
        (List.dropLast_append_getLast? last hlast).symm
      conv_rhs => rw [hsplit]
      simp

theorem flatMap_groupFields (fields : List SettingFieldView) :
    (groupFields fields).flatMap SettingsGroupView.fields = fields := by
  have hfold : ∀ groups, (fields.foldl addToGroups groups).flatMap SettingsGroupView.fields =
      groups.flatMap SettingsGroupView.fields ++ fields := by
    induction fields with
    | nil => intro groups; simp
    | cons field fields ih =>
      intro groups
      rw [List.foldl_cons, ih, flatMap_addToGroups, List.append_assoc, List.singleton_append]
  rw [groupFields, hfold]
  rfl

theorem settingsView_fields (c : PageContext) (slurmHealth : Bool) (defaults : String → String)
    (entries : List Setting) (updated : Bool) (success errorMessage : String) :
    (settingsView c slurmHealth defaults entries updated success errorMessage).fields =
      settingsFields.map (settingField c.language defaults entries) :=
  flatMap_groupFields _

/-! ## What a field shows -/

section Shown

variable {m : Machine} {cipher : Cipher} {s : SettingsDatabase}

/-- The keys that `settingsView` asks `List` for. -/
def settingsKeys : List (String × Bool) := settingsSpecs.map fun spec => (spec.key, true)

theorem selects_settingsKeys : ∀ spec ∈ settingsSpecs,
    SettingsDatabase.selects settingsKeys spec.key = true := by decide +kernel

theorem settingOverride_listed {key : String}
    (hkey : SettingsDatabase.selects settingsKeys key = true) :
    settingOverride (s.listed settingsKeys) key =
      (s.db.find key).map SettingsDatabase.settingOf := by
  have hrows : (s.listed settingsKeys).filter (fun entry => entry.key = key) =
      ((s.db.ordered.filter fun row => row.key = key).map SettingsDatabase.settingOf) := by
    rw [SettingsDatabase.listed, List.filter_map, List.filter_filter]
    congr 1
    refine List.filter_congr fun row _ => ?_
    by_cases hrow : row.key = key
    · simp [SettingsDatabase.settingOf, hrow, hkey]
    · simp [SettingsDatabase.settingOf, hrow]
  have hunique : ∀ row ∈ s.db.ordered.filter fun row => row.key = key,
      s.db.find key = some row := by
    intro row hrow
    obtain ⟨hmem, hname⟩ := List.mem_filter.mp hrow
    have hfind := SettingsTable.find_of_mem (SettingsTable.mem_ordered.mp hmem)
    rwa [of_decide_eq_true hname] at hfind
  rw [settingOverride, hrows, List.getLast?_map]
  cases hlast : (s.db.ordered.filter fun row => row.key = key).getLast? with
  | some row => rw [hunique row (List.mem_of_getLast? hlast)]
  | none =>
    cases hfind : s.db.find key with
    | none => rfl
    | some row =>
      have hmem := SettingsTable.mem_ordered.mpr (SettingsTable.mem_of_find hfind)
      have hrow : row ∈ s.db.ordered.filter fun row => row.key = key :=
        List.mem_filter.mpr ⟨hmem, decide_eq_true (SettingsTable.find_key hfind)⟩
      rw [List.getLast?_eq_none_iff.mp hlast] at hrow
      cases hrow

theorem settingsDefaultsFromEnv_eq {key : String} (hkey : key ∈ settingSchema.map Prod.fst) :
    settingsDefaultsFromEnv m key = fallback m key := by
  unfold settingsDefaultsFromEnv fallback envOr
  rw [if_neg (not_not.mpr hkey)]
  split
  · next hempty => rw [if_neg (not_not.mpr hempty)]
  · rfl

theorem isSecretSetting_schema :
    ∀ entry ∈ settingSchema, isSecretSetting entry.1 = entry.2 := by decide +kernel

theorem settingsSpecs_plain : ∀ spec ∈ settingsSpecs, (spec.key, spec.secret) ∈ settingSchema := by
  decide +kernel

/-- The field of an option: its value at a start, unless it is a secret. -/
theorem settingField_eq (lang : String) {field : SettingsSpec × SettingsText}
    (hspec : field.1 ∈ settingsSpecs) :
    let view := settingField lang (settingsDefaultsFromEnv m) (s.listed settingsKeys) field
    view.value = (if field.1.secret then "" else plainValue m s.store field.1.key) ∧
      (view.source = "SQLite override" ↔ (s.store.rows field.1.key).isSome) ∧
      (view.configured = true ↔
        (s.store.rows field.1.key).isSome ∨ trimSpace (fallback m field.1.key) ≠ "") := by
  intro view
  obtain ⟨spec, text⟩ := field
  have hschema := settingsSpecs_plain spec hspec
  have hdefault := settingsDefaultsFromEnv_eq (m := m) (List.mem_map_of_mem hschema)
  have hoverride := settingOverride_listed (s := s) (selects_settingsKeys spec hspec)
  have hrows : s.store.rows spec.key = (s.db.find spec.key).map SettingRow.value := rfl
  have hsource : ∀ lang' : String,
      (if lang' = "en" then "Environment" else "环境变量") ≠ "SQLite override" := by
    intro lang'
    split <;> decide +kernel
  simp only [view, settingField, hoverride, hdefault, plainValue, hrows]
  cases hfind : s.db.find spec.key with
  | none =>
    refine ⟨rfl, ?_, ?_⟩
    · simpa using hsource lang
    · simp
  | some row =>
    have hkey := SettingsTable.find_key hfind
    have hsecret : isSecretSetting row.key = spec.secret := by
      rw [hkey]
      exact isSecretSetting_schema _ hschema
    refine ⟨?_, by simp, by simp⟩
    cases hcase : spec.secret with
    | true => rfl
    | false => simp [SettingsDatabase.settingOf, hsecret, hcase]

theorem savedKeys_nodup (password : String) : ([("OPENHPC_LDAP_BIND_PASSWORD", password),
    ("OPENHPC_SLURM_TIMEOUT", "20s")].map Prod.fst).Nodup := by
  simp

/-- A database in which a bind password and a timeout were saved. -/
def savedDatabase (password : String) : SettingsDatabase :=
  after (SettingsDatabase.setMany markedCipher) zeroKeyDatabase
    [plainCall _ (savedKeys_nodup password)]

def adminContext : PageContext := ⟨"en", "light", ⟨"admin", .admin⟩, "token"⟩

/-- The page shows what the next start reads: its fields are the settings in their order, and
    each that is no secret has the value of its option, with the place it comes from. -/
theorem settings_page_shows_start (m : Machine) (cipher : Cipher) (s : SettingsDatabase)
    (c : PageContext) (slurmHealth updated : Bool) (success errorMessage : String)
    (faults : Faults) (entries : List Setting)
    (hlist : s.list faults settingsKeys = .ok entries) :
    let view := settingsView c slurmHealth (settingsDefaultsFromEnv m) entries updated success
      errorMessage
    view.fields.map SettingFieldView.key = settingSchema.map Prod.fst ∧
      ∀ field ∈ view.fields, field.secret = false →
        effective m cipher s.store field.key = .ok field.value ∧
        (field.source = "SQLite override" ↔ (s.store.rows field.key).isSome) ∧
        (field.configured = true ↔
          (s.store.rows field.key).isSome ∨ trimSpace (fallback m field.key) ≠ "") := by
  intro view
  have hfields : view.fields = settingsFields.map
      (settingField c.language (settingsDefaultsFromEnv m) (s.listed settingsKeys)) := by
    rw [← SettingsDatabase.list_ok hlist]
    exact settingsView_fields _ _ _ _ _ _ _
  constructor
  · rw [hfields, List.map_map]
    rfl
  · intro field hfield hplain
    rw [hfields] at hfield
    obtain ⟨spec, hmem, rfl⟩ := List.mem_map.mp hfield
    have hspec : spec.1 ∈ settingsSpecs := settingsFields_specs ▸ List.mem_map_of_mem hmem
    obtain ⟨hvalue, hsource, hconfigured⟩ := settingField_eq (m := m) (s := s) c.language hspec
    have hsecret : spec.1.secret = false := hplain
    have hschema := settingsSpecs_plain spec.1 hspec
    rw [hsecret] at hschema
    rw [hvalue, hsecret]
    exact ⟨effective_plain hschema, hsource, hconfigured⟩

theorem settings_page_shows_twenty :
    let view := settingsView adminContext true (settingsDefaultsFromEnv slurmMachine)
      ((savedDatabase "pw").listed settingsKeys) false "" ""
    view.fields.map SettingFieldView.key = settingSchema.map Prod.fst ∧
      ∀ field ∈ view.fields, field.secret = false →
        effective slurmMachine markedCipher (savedDatabase "pw").store field.key =
          .ok field.value ∧
        (field.source = "SQLite override" ↔ ((savedDatabase "pw").store.rows field.key).isSome) ∧
        (field.configured = true ↔ ((savedDatabase "pw").store.rows field.key).isSome ∨
          trimSpace (fallback slurmMachine field.key) ≠ "") :=
  settings_page_shows_start slurmMachine markedCipher (savedDatabase "pw") adminContext true false
    "" "" [] _ ((savedDatabase "pw").list_nil settingsKeys)

/-! ## Secrets -/

/-- Two starts and databases that look alike to someone who may see no secret: the options that
    are no secret are the same, and the same secrets are there. -/
structure AlikeButSecrets (m m' : Machine) (s s' : SettingsDatabase) : Prop where
  plain : ∀ key, (key, false) ∈ settingSchema →
    s.store.rows key = s'.store.rows key ∧ fallback m key = fallback m' key
  secret : ∀ key, (key, true) ∈ settingSchema →
    ((s.store.rows key).isSome ↔ (s'.store.rows key).isSome) ∧
      (trimSpace (fallback m key) = "" ↔ trimSpace (fallback m' key) = "")

theorem settingField_alike {m m' : Machine} {s s' : SettingsDatabase}
    (h : AlikeButSecrets m m' s s') (lang : String) {field : SettingsSpec × SettingsText}
    (hspec : field.1 ∈ settingsSpecs) :
    settingField lang (settingsDefaultsFromEnv m) (s.listed settingsKeys) field =
      settingField lang (settingsDefaultsFromEnv m') (s'.listed settingsKeys) field := by
  have hschema := settingsSpecs_plain field.1 hspec
  obtain ⟨hvalue, -, hconfigured⟩ := settingField_eq (m := m) (s := s) lang hspec
  obtain ⟨hvalue', -, hconfigured'⟩ := settingField_eq (m := m') (s := s') lang hspec
  have hthere : (s.store.rows field.1.key).isSome = (s'.store.rows field.1.key).isSome ∧
      (trimSpace (fallback m field.1.key) = "" ↔ trimSpace (fallback m' field.1.key) = "") := by
    cases hcase : field.1.secret with
    | true =>
      obtain ⟨hrows, hdefault⟩ := h.secret field.1.key (hcase ▸ hschema)
      exact ⟨Bool.eq_iff_iff.mpr hrows, hdefault⟩
    | false =>
      obtain ⟨hrows, hdefault⟩ := h.plain field.1.key (hcase ▸ hschema)
      rw [hrows, hdefault]
      exact ⟨rfl, Iff.rfl⟩
  have hshown : (if field.1.secret then "" else plainValue m s.store field.1.key) =
      if field.1.secret then "" else plainValue m' s'.store field.1.key := by
    cases hcase : field.1.secret with
    | true => rfl
    | false =>
      obtain ⟨hrows, hdefault⟩ := h.plain field.1.key (hcase ▸ hschema)
      simp only [plainValue, hrows, hdefault]
  have hoverride := settingOverride_listed (s := s) (selects_settingsKeys field.1 hspec)
  have hoverride' := settingOverride_listed (s := s') (selects_settingsKeys field.1 hspec)
  have hsource : (settingOverride (s.listed settingsKeys) field.1.key).isSome =
      (settingOverride (s'.listed settingsKeys) field.1.key).isSome := by
    have hrows : ∀ t : SettingsDatabase, (t.store.rows field.1.key).isSome =
        (t.db.find field.1.key).isSome := fun t => Option.isSome_map
    rw [hoverride, hoverride', Option.isSome_map, Option.isSome_map, ← hrows, ← hrows]
    exact hthere.1
  have hset : (settingField lang (settingsDefaultsFromEnv m) (s.listed settingsKeys)
      field).configured = (settingField lang (settingsDefaultsFromEnv m')
        (s'.listed settingsKeys) field).configured := by
    rw [Bool.eq_iff_iff, hconfigured, hconfigured', hthere.1, ne_eq, ne_eq, hthere.2]
  refine SettingFieldView.mk.injEq .. |>.mpr ⟨rfl, rfl, rfl, ?_, ?_, rfl, rfl, rfl, hset⟩
  · exact hvalue.trans (hshown.trans hvalue'.symm)
  · simp only [hsource]

/-- The page tells nothing of a secret beyond its being there. -/
theorem settings_page_hides_secrets {m m' : Machine} {s s' : SettingsDatabase}
    (halike : AlikeButSecrets m m' s s') (c : PageContext) (slurmHealth updated : Bool)
    (success errorMessage : String) {faults faults' : Faults} {entries entries' : List Setting}
    (hlist : s.list faults settingsKeys = .ok entries)
    (hlist' : s'.list faults' settingsKeys = .ok entries') :
    settingsView c slurmHealth (settingsDefaultsFromEnv m) entries updated success errorMessage =
      settingsView c slurmHealth (settingsDefaultsFromEnv m') entries' updated success
        errorMessage := by
  have hfields : settingsFields.map
      (settingField c.language (settingsDefaultsFromEnv m) (s.listed settingsKeys)) =
      settingsFields.map
        (settingField c.language (settingsDefaultsFromEnv m') (s'.listed settingsKeys)) := by
    refine List.map_congr_left fun field hfield => settingField_alike halike c.language ?_
    exact settingsFields_specs ▸ List.mem_map_of_mem hfield
  rw [SettingsDatabase.list_ok hlist, SettingsDatabase.list_ok hlist']
  unfold settingsView
  rw [hfields]

/-- It is enough to look at each entry of the schema. -/
theorem alikeButSecrets_of_schema {m m' : Machine} {s s' : SettingsDatabase}
    (h : ∀ entry ∈ settingSchema,
      if entry.2 then
        ((s.store.rows entry.1).isSome ↔ (s'.store.rows entry.1).isSome) ∧
          (trimSpace (fallback m entry.1) = "" ↔ trimSpace (fallback m' entry.1) = "")
      else s.store.rows entry.1 = s'.store.rows entry.1 ∧
        fallback m entry.1 = fallback m' entry.1) : AlikeButSecrets m m' s s' := by
  constructor
  · intro key hkey
    have hentry := h _ hkey
    rwa [if_neg Bool.false_ne_true] at hentry
  · intro key hkey
    have hentry := h _ hkey
    rwa [if_pos rfl] at hentry

theorem settings_page_hides_password :
    settingsView adminContext true (settingsDefaultsFromEnv slurmMachine)
        ((savedDatabase "pw").listed settingsKeys) false "" "" =
      settingsView adminContext true (settingsDefaultsFromEnv slurmMachine)
        ((savedDatabase "secret").listed settingsKeys) false "" "" :=
  have halike : AlikeButSecrets slurmMachine slurmMachine (savedDatabase "pw")
      (savedDatabase "secret") := alikeButSecrets_of_schema (by decide +kernel)
  settings_page_hides_secrets halike adminContext true false "" ""
    ((savedDatabase "pw").list_nil settingsKeys) ((savedDatabase "secret").list_nil settingsKeys)

end Shown

/-! ## The form of the page -/

/-- What a browser sends for a field: the hidden input of a checkbox comes after the box. -/
def fieldInputs (field : SettingFieldView) : List (String × String) :=
  if field.inputType = "checkbox" then
    (if field.value = "true" then [(field.key, "true")] else []) ++ [(field.key, "false")]
  else [(field.key, if field.secret then "" else field.value)]

/-- The form of the page, sent back as it was rendered. -/
def SettingsView.form (view : SettingsView) : SettingsForm :=
  ⟨("_csrf", view.csrfToken) :: view.fields.flatMap fieldInputs, []⟩

/-- The value that `FormValue` finds for a field. -/
def sentValue (field : SettingFieldView) : String :=
  if field.inputType = "checkbox" then if field.value = "true" then "true" else "false"
  else if field.secret then "" else field.value

theorem lookup_fieldInputs (field : SettingFieldView) (key : String) :
    (fieldInputs field).lookup key = if field.key = key then some (sentValue field) else none := by
  unfold fieldInputs sentValue
  by_cases hkey : field.key = key
  · rw [if_pos hkey, hkey]
    split
    · split <;> simp
    · simp
  · have hne : (key == field.key) = false := beq_eq_false_iff_ne.mpr fun h => hkey h.symm
    rw [if_neg hkey]
    split
    · split <;> simp [List.lookup_cons, hne]
    · simp [List.lookup_cons, hne]

theorem lookup_inputs (fields : List SettingFieldView) (key : String) :
    (fields.flatMap fieldInputs).lookup key =
      (fields.find? fun field => field.key = key).map sentValue := by
  induction fields with
  | nil => rfl
  | cons field fields ih =>
    rw [List.flatMap_cons, List.lookup_append, lookup_fieldInputs, ih, List.find?_cons]
    by_cases hkey : field.key = key
    · simp [hkey]
    · simp [hkey]

/-- The fields have different keys. -/
theorem find_settingsFields : ∀ field ∈ settingsFields,
    settingsFields.find? (fun other => other.1.key = field.1.key) = some field ∧
      settingsFields.find? (fun other => other.1.key = "clear_" ++ field.1.key) = none ∧
      field.1.key ≠ "_csrf" ∧ "clear_" ++ field.1.key ≠ "_csrf" := by
  decide +kernel

theorem find_settingsSpecs : ∀ spec ∈ settingsSpecs,
    settingsSpecs.find? (fun other => other.key = spec.key) = some spec ∧
      (spec.inputType = "checkbox" → spec.secret = false) := by
  decide +kernel

section Unchanged

variable {m : Machine} {cipher : Cipher} {s : SettingsDatabase}

/-- The form of the page of a database. -/
def pageForm (m : Machine) (s : SettingsDatabase) (c : PageContext) (slurmHealth updated : Bool)
    (success errorMessage : String) : SettingsForm :=
  (settingsView c slurmHealth (settingsDefaultsFromEnv m) (s.listed settingsKeys) updated success
    errorMessage).form

variable {c : PageContext} {slurmHealth updated : Bool} {success errorMessage : String}

theorem lookup_pageForm {key : String} (hkey : key ≠ "_csrf") :
    (pageForm m s c slurmHealth updated success errorMessage).body.lookup key =
      (settingsFields.find? fun field => field.1.key = key).map fun field => sentValue
        (settingField c.language (settingsDefaultsFromEnv m) (s.listed settingsKeys) field) := by
  have hne : (key == "_csrf") = false := beq_eq_false_iff_ne.mpr hkey
  rw [pageForm, SettingsView.form, List.lookup_cons, hne]
  show List.lookup key (List.flatMap fieldInputs _) = _
  rw [lookup_inputs, settingsView_fields, List.find?_map, Option.map_map]
  rfl

/-- The form leaves the secrets alone, and sends the value of each other option. -/
theorem pageForm_setting {spec : SettingsSpec} (hspec : spec ∈ settingsSpecs) :
    (pageForm m s c slurmHealth updated success errorMessage).setting spec.key =
      if spec.secret then none
      else if spec.inputType = "checkbox" then
        some (if plainValue m s.store spec.key = "true" then "true" else "false")
      else some (plainValue m s.store spec.key) := by
  obtain ⟨field, hfield, rfl⟩ : ∃ field ∈ settingsFields, field.1 = spec := by
    rw [← settingsFields_specs] at hspec
    exact List.mem_map.mp hspec
  obtain ⟨hfind, hclear, hcsrf, hclearCsrf⟩ := find_settingsFields field hfield
  obtain ⟨hfirst, hcheckbox⟩ := find_settingsSpecs field.1 hspec
  obtain ⟨hvalue, -, -⟩ := settingField_eq (m := m) (s := s) c.language hspec
  have hbody : (pageForm m s c slurmHealth updated success errorMessage).body.lookup field.1.key =
      _ := lookup_pageForm hcsrf
  have hcleared : (pageForm m s c slurmHealth updated success errorMessage).body.lookup
      ("clear_" ++ field.1.key) = _ := lookup_pageForm hclearCsrf
  rw [hfind, Option.map_some] at hbody
  rw [hclear, Option.map_none] at hcleared
  have hsent : sentValue (settingField c.language (settingsDefaultsFromEnv m)
      (s.listed settingsKeys) field) = if field.1.inputType = "checkbox" then
        if plainValue m s.store field.1.key = "true" then "true" else "false"
      else if field.1.secret then "" else plainValue m s.store field.1.key := by
    unfold sentValue
    rw [hvalue]
    show (if field.1.inputType = "checkbox" then _ else if field.1.secret = true then _ else _) = _
    by_cases hbox : field.1.inputType = "checkbox"
    · simp [hbox, hcheckbox hbox]
    · cases field.1.secret <;> simp [hbox]
  rw [hsent] at hbody
  have hquery : (pageForm m s c slurmHealth updated success errorMessage).query = [] := rfl
  rw [SettingsForm.setting, hfirst, Option.bind_some, SettingsForm.submitted, SettingsForm.clears,
    SettingsForm.value, SettingsForm.value, SettingsForm.posts, hquery, List.append_nil, hbody,
    hcleared]
  cases hsecret : field.1.secret with
  | true =>
    have hbox : field.1.inputType ≠ "checkbox" := by
      intro hbox
      rw [hcheckbox hbox] at hsecret
      cases hsecret
    simp [hbox]
  | false =>
    by_cases hbox : field.1.inputType = "checkbox"
    · by_cases hon : plainValue m s.store field.1.key = "true"
      · simp [hbox, hon]
      · simp [hbox, hon]
    · simp [hbox]

/-! ## The start after an unchanged save -/

/-- The options that enable an integration. -/
def enabledKeys : List String :=
  ["OPENHPC_SLURM_ENABLED", "OPENHPC_LDAP_ENABLED", "OPENHPC_TERMINAL_ENABLED"]

theorem enabled_bind {α : Type} {store store' : SettingsStore} {key : String}
    (hkey : (key, false) ∈ settingSchema)
    (h : effective m cipher store' key = .ok "true" ↔ effective m cipher store key = .ok "true")
    (x y : Except String α) :
    (effective m cipher store' key >>= fun enabled => if enabled ≠ "true" then x else y) =
      effective m cipher store key >>= fun enabled => if enabled ≠ "true" then x else y := by
  simp only [effective_plain hkey, Except.ok.injEq] at h
  rw [effective_plain hkey, effective_plain hkey, ok_bind, ok_bind]
  by_cases hon : plainValue m store key = "true"
  · rw [if_neg (not_not.mpr (h.mpr hon)), if_neg (not_not.mpr hon)]
  · rw [if_pos (mt h.mp hon), if_pos hon]

/-- A start reads the options only to see which integrations are enabled, and for the values of
    their other options. -/
theorem startup_congr [Fractions] {store store' : SettingsStore}
    (hvalues : ∀ key ∈ settingSchema.map Prod.fst, key ∉ enabledKeys →
      effective m cipher store' key = effective m cipher store key)
    (henabled : ∀ key ∈ enabledKeys,
      (effective m cipher store' key = .ok "true" ↔ effective m cipher store key = .ok "true")) :
    startup m cipher store' = startup m cipher store := by
  have hslurm : parseSlurmConfigFromStore m cipher store' =
      parseSlurmConfigFromStore m cipher store := by
    unfold parseSlurmConfigFromStore
    simp (disch := decide +kernel) only [settingValue_getenv, settingValue_envOr, hvalues]
    exact enabled_bind (by decide +kernel) (henabled "OPENHPC_SLURM_ENABLED" (by decide)) _ _
  have hldap : parseLDAPConfigFromStore m cipher store' =
      parseLDAPConfigFromStore m cipher store := by
    unfold parseLDAPConfigFromStore
    simp (disch := decide +kernel) only [settingValue_getenv, settingValue_envOr, hvalues]
    exact enabled_bind (by decide +kernel) (henabled "OPENHPC_LDAP_ENABLED" (by decide)) _ _
  have hterminal : parseTerminalConfigFromStore m cipher store' =
      parseTerminalConfigFromStore m cipher store := by
    unfold parseTerminalConfigFromStore
    simp (disch := decide +kernel) only [settingValue_getenv, settingValue_envOr, hvalues]
    exact enabled_bind (by decide +kernel) (henabled "OPENHPC_TERMINAL_ENABLED" (by decide)) _ _
  rw [startup, hslurm, hldap, hterminal]
  rfl

/-- An option that a form does not hold keeps its value, and an option whose form value is its
    value keeps it too: an empty value is that of the environment. -/
theorem merged_kept {store : SettingsStore} {form : SettingsForm} {key : String}
    (hkey : (key, false) ∈ settingSchema)
    (hrows : ∀ raw, store.rows key = some raw → textOf raw ≠ "")
    (hform : form.setting key = some (plainValue m store key)) :
    merged m cipher store form key = effective m cipher store key := by
  rw [merged, hform, effective_plain hkey]
  show Except.ok (if plainValue m store key = "" then fallback m key
    else plainValue m store key) = _
  split
  · next hempty =>
    have hnone : store.rows key = none := by
      cases hrow : store.rows key with
      | none => rfl
      | some raw =>
        rw [plainValue, hrow] at hempty
        exact absurd hempty (hrows raw hrow)
    rw [plainValue, hnone]
  · rfl

/-- A database that calls of `SetMany` on a new one lead to. -/
def Reached (cipher : Cipher) (s : SettingsDatabase) : Prop :=
  ∃ (start : SettingsDatabase) (calls : List SetManyCall), start.db = SettingsTable.empty ∧
    s = after (SettingsDatabase.setMany cipher) start calls

/-- No call of `SetMany` stores an empty text. -/
theorem Reached.rows (h : Reached cipher s) {key : String} {raw : Bytes}
    (hkey : (key, false) ∈ settingSchema) (hrow : s.store.rows key = some raw) :
    textOf raw ≠ "" := by
  obtain ⟨start, calls, hempty, rfl⟩ := h
  have hstored := SettingsDatabase.after_stored cipher hempty calls key
  unfold SettingsStore.Stored at hstored
  cases hlast : nonEmpty (lastWrite (SettingsDatabase.savedBatches cipher start calls) key) with
  | none =>
    simp only [hlast, hrow] at hstored
    cases hstored
  | some value =>
    simp only [hlast, hrow] at hstored
    obtain ⟨-, raw', hraw, htext⟩ := hstored
    rw [SettingsStore.StoredAs, isSecretSetting_schema _ hkey, if_neg Bool.false_ne_true] at htext
    rw [Option.some.inj hraw, htext, textOf_bytesOf]
    simpa using (Option.filter_eq_some_iff.mp hlast).2

/-- The page is safe to send back: after any calls of `SetMany` on a new database, an accepted
    save of the page's own form leaves the next start as it was, whether that is an error or
    the integrations with all their options. -/
theorem saved_unchanged_starts_alike [Fractions] (m : Machine) (hcipher : cipher.Lawful)
    (hreached : Reached cipher s) (c : PageContext) (slurmHealth updated : Bool)
    (success errorMessage : String) {faults : Faults} {entries : List Setting}
    (hlist : s.list faults settingsKeys = .ok entries) {r : SettingsRequest} {location : String}
    (hform : r.form = some (settingsView c slurmHealth (settingsDefaultsFromEnv m) entries updated
      success errorMessage).form)
    (hsave : (saveSettings m cipher r s.store).reply = .redirect location) :
    startup m cipher (saveSettings m cipher r s.store).store = startup m cipher s.store := by
  rw [SettingsDatabase.list_ok hlist] at hform
  have hsaved := effective_saved hcipher hform hsave
  have hspec : ∀ key ∈ settingSchema.map Prod.fst, ∃ spec ∈ settingsSpecs, spec.key = key := by
    decide +kernel
  have hboxes : ∀ spec ∈ settingsSpecs, spec.inputType = "checkbox" ↔ spec.key ∈ enabledKeys := by
    decide +kernel
  have hknown : ∀ key ∈ enabledKeys, key ∈ settingSchema.map Prod.fst := by decide +kernel
  apply startup_congr
  · intro key hkey henabled
    obtain ⟨spec, hmem, rfl⟩ := hspec key hkey
    have hsetting : (pageForm m s c slurmHealth updated success errorMessage).setting spec.key =
        _ := pageForm_setting hmem
    have hschema := settingsSpecs_plain spec hmem
    rw [if_neg (mt (hboxes spec hmem).mp henabled)] at hsetting
    rw [hsaved]
    cases hsecret : spec.secret with
    | true =>
      rw [hsecret, if_pos rfl] at hsetting
      rw [merged, ← pageForm, hsetting]
    | false =>
      rw [hsecret] at hsetting hschema
      exact merged_kept hschema (fun _ hraw => hreached.rows hschema hraw) hsetting
  · -- a box that is not checked sends "false", whatever kept the integration off before
    intro key hkey
    obtain ⟨spec, hmem, rfl⟩ := hspec key (hknown key hkey)
    have hsetting : (pageForm m s c slurmHealth updated success errorMessage).setting spec.key =
        _ := pageForm_setting hmem
    have hbox := (hboxes spec hmem).mpr hkey
    have hschema := settingsSpecs_plain spec hmem
    rw [(find_settingsSpecs spec hmem).2 hbox] at hsetting hschema
    rw [if_neg (by decide), if_pos hbox] at hsetting
    rw [hsaved, merged, ← pageForm, hsetting, effective_plain hschema]
    by_cases hon : plainValue m s.store spec.key = "true"
    · simp [hon]
    · simp [hon]

section Example
open scoped Exact

/-- The page of the saved database, sent back. -/
def unchangedRequest : SettingsRequest where
  actor := "admin"
  lang := "en"
  now := 0
  form := some (settingsView adminContext true (settingsDefaultsFromEnv slurmMachine)
    ((savedDatabase "pw").listed settingsKeys) false "" "").form
  listFault := none
  saveFaults := []
  nonces := fun _ => none

theorem saved_unchanged_starts_twenty :
    startup slurmMachine markedCipher (saveSettings slurmMachine markedCipher unchangedRequest
        (savedDatabase "pw").store).store =
      startup slurmMachine markedCipher (savedDatabase "pw").store :=
  have hsave : (saveSettings slurmMachine markedCipher unchangedRequest
      (savedDatabase "pw").store).reply = .redirect "/settings?updated=1" := by decide +kernel
  saved_unchanged_starts_alike slurmMachine markedCipher_lawful ⟨_, _, rfl, rfl⟩ adminContext true
    false "" "" ((savedDatabase "pw").list_nil settingsKeys) rfl hsave

end Example

end Unchanged

end OpenHpcWeb.Web
