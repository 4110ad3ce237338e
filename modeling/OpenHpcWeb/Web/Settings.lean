/-
  Saving the settings: `saveSettings` of internal/web/settings.go.

  A form is its body and the query of its URL, pairs in order; `FormValue` prefers the body. A
  request comes with the fate of its database work. The error page of the settings is its
  message; the fields that it shows again are not modelled.

  Whether the audit record is lost changes nothing else.
-/
import OpenHpcWeb.Lib.Checks
import OpenHpcWeb.Server.Startup
import OpenHpcWeb.Web.Partitions

namespace OpenHpcWeb.Web

open OpenHpcWeb.Go OpenHpcWeb.Lib OpenHpcWeb.Platform OpenHpcWeb.Server

/-! ## Fields -/

structure SettingsSpec where
  key : String
  inputType : String
  secret : Bool
  deriving DecidableEq

def settingsSpecs : List SettingsSpec :=
  [⟨"OPENHPC_SLURM_ENABLED", "checkbox", false⟩, ⟨"OPENHPC_SLURM_BIN_DIR", "text", false⟩,
    ⟨"OPENHPC_SLURM_TIMEOUT", "text", false⟩, ⟨"OPENHPC_SLURM_MAX_OUTPUT", "number", false⟩,
    ⟨"OPENHPC_SLURM_CACHE_TTL", "text", false⟩, ⟨"OPENHPC_LDAP_ENABLED", "checkbox", false⟩,
    ⟨"OPENHPC_LDAP_URL", "url", false⟩, ⟨"OPENHPC_LDAP_BASE_DN", "text", false⟩,
    ⟨"OPENHPC_LDAP_USER_BASE_DN", "text", false⟩, ⟨"OPENHPC_LDAP_GROUP_BASE_DN", "text", false⟩,
    ⟨"OPENHPC_LDAP_BIND_DN", "text", false⟩, ⟨"OPENHPC_LDAP_BIND_PASSWORD", "password", true⟩,
    ⟨"OPENHPC_LDAP_PROVISION_BIND_DN", "text", false⟩,
    ⟨"OPENHPC_LDAP_PROVISION_BIND_PASSWORD", "password", true⟩,
    ⟨"OPENHPC_LDAP_CA_FILE", "text", false⟩, ⟨"OPENHPC_LDAP_TIMEOUT", "text", false⟩,
    ⟨"OPENHPC_LDAP_MAX_RESULTS", "number", false⟩,
    ⟨"OPENHPC_TERMINAL_ENABLED", "checkbox", false⟩,
    ⟨"OPENHPC_TERMINAL_SSH_ADDRESS", "text", false⟩, ⟨"OPENHPC_TERMINAL_TIMEOUT", "text", false⟩]

/-- The fields are the settings that the store knows, and agree with it on what is secret. -/
theorem settingsSpecs_schema :
    settingsSpecs.map (fun spec => (spec.key, spec.secret)) = settingSchema := rfl

def isTerminalSetting (key : String) : Bool :=
  key = "OPENHPC_TERMINAL_ENABLED" || key = "OPENHPC_TERMINAL_SSH_ADDRESS" ||
    key = "OPENHPC_TERMINAL_TIMEOUT"

/-! ## Forms -/

structure SettingsForm where
  body : List (String × String)
  query : List (String × String)

/-- `FormValue`. -/
def SettingsForm.value (form : SettingsForm) (key : String) : String :=
  ((form.body ++ form.query).lookup key).getD ""

/-- The key is in `PostForm`. -/
def SettingsForm.posts (form : SettingsForm) (key : String) : Bool :=
  (form.body.lookup key).isSome

/-- A key that the loop over `PostForm` lets through. -/
def knownFormKey (key : String) : Bool :=
  if key = "_csrf" then true
  else if "clear_".toList.isPrefixOf key.toList then
    settingsSpecs.any fun spec => "clear_" ++ spec.key = key
  else settingsSpecs.any fun spec => spec.key = key

def SettingsForm.clears (form : SettingsForm) (spec : SettingsSpec) : Bool :=
  spec.secret && form.value ("clear_" ++ spec.key) = "1"

/-- What a form says of a field: nothing (`none`), or its value, which is empty for a secret
    that is cleared. -/
def SettingsForm.submitted (form : SettingsForm) (spec : SettingsSpec) : Option String :=
  if spec.secret then
    if form.clears spec then some ""
    else if form.value spec.key = "" then none
    else some (form.value spec.key)
  else if ¬ form.posts spec.key then none
  else if spec.inputType = "checkbox" ∧ form.value spec.key = "" then some "false"
  else some (form.value spec.key)

/-! ## Checks -/

section
variable [Fractions] (m : Machine)

def validateSettingFormValue (key value : String) : Except String Unit :=
  if byteLen value > 8192 ∨ containsAny value "\x00\r\n" then .error "invalid setting value"
  else if key ∈ ["OPENHPC_SLURM_ENABLED", "OPENHPC_LDAP_ENABLED", "OPENHPC_TERMINAL_ENABLED"] then
    if value ≠ "true" ∧ value ≠ "false" then .error "invalid boolean" else .ok ()
  else if key ∈ ["OPENHPC_SLURM_TIMEOUT", "OPENHPC_SLURM_CACHE_TTL", "OPENHPC_LDAP_TIMEOUT",
      "OPENHPC_TERMINAL_TIMEOUT"] then
    match parseDuration value with
    | none => .error "invalid duration"
    | some duration =>
      if duration ≤ 0 ∨ duration > 60 * second then .error "invalid duration" else .ok ()
  else if key = "OPENHPC_SLURM_MAX_OUTPUT" then
    match parseInt value with
    | none => .error "invalid output limit"
    | some n =>
      if n.val < 1 ∨ n.val > 8 * 2 ^ 20 then .error "invalid output limit" else .ok ()
  else if key = "OPENHPC_LDAP_MAX_RESULTS" then
    match parseInt value with
    | none => .error "invalid result limit"
    | some n => if n.val < 1 ∨ n.val > 500 then .error "invalid result limit" else .ok ()
  else if key = "OPENHPC_LDAP_URL" then
    if value ≠ "" ∧ ¬ validEndpoint m (allowInsecureLDAP m) value then .error "invalid LDAP URL"
    else .ok ()
  else if key ∈ ["OPENHPC_LDAP_BASE_DN", "OPENHPC_LDAP_USER_BASE_DN",
      "OPENHPC_LDAP_GROUP_BASE_DN", "OPENHPC_LDAP_BIND_DN", "OPENHPC_LDAP_PROVISION_BIND_DN"] then
    if value ≠ "" ∧ ¬ m.parseDN value then .error "invalid DN" else .ok ()
  else if key ∈ ["OPENHPC_SLURM_BIN_DIR", "OPENHPC_LDAP_CA_FILE"] then
    if value ≠ "" ∧ ¬ absoluteClean value then .error "invalid path"
    else if key = "OPENHPC_LDAP_CA_FILE" ∧ value ≠ "" then
      match m.caFile value with
      | .error _ => .error "invalid CA file"
      | .ok _ => .ok ()
    else .ok ()
  else if key = "OPENHPC_TERMINAL_SSH_ADDRESS" then
    if value ≠ "" then validateAddress value else .ok ()
  else .ok ()

/-- The values that a form stores, in the order of the fields. -/
abbrev SettingValues := List (String × String)

def SettingValues.value (values : SettingValues) (key : String) : String :=
  (values.lookup key).getD ""

def validateEnabledTerminalSettings (values : SettingValues) : Except String Unit :=
  if values.value "OPENHPC_TERMINAL_ENABLED" ≠ "true" then .ok ()
  else
    match parseDuration (values.value "OPENHPC_TERMINAL_TIMEOUT") with
    | none => .error "time: invalid duration"
    | some timeout =>
      (terminalNew ⟨values.value "OPENHPC_TERMINAL_SSH_ADDRESS", timeout⟩).map fun _ => ()

/-- The body of the loop over the fields; an error is the key of the field at fault. -/
def collectSetting (form : SettingsForm) (values : SettingValues) (spec : SettingsSpec) :
    Except String SettingValues :=
  match form.submitted spec with
  | none => .ok values
  | some value =>
    if form.clears spec then .ok (values ++ [(spec.key, value)])
    else
      match validateSettingFormValue m spec.key value with
      | .error _ => .error spec.key
      | .ok _ => .ok (values ++ [(spec.key, value)])

def collectSettings (form : SettingsForm) : Except String SettingValues :=
  settingsSpecs.foldlM (collectSetting m form) []

end

/-! ## The handler -/

structure SettingsRequest where
  actor : String
  lang : String
  now : Time
  /-- `none` is a form that `ParseForm` refuses -/
  form : Option SettingsForm
  /-- the error of listing the settings for an error page -/
  listFault : Option String
  saveFaults : Faults
  nonces : String → Option Nonce

inductive SettingsReply where
  | httpError (status : Nat)
  /-- the settings page with an error message -/
  | page (status : Nat) (message : String)
  | redirect (location : String)
  deriving DecidableEq

structure SettingsOutcome where
  reply : SettingsReply
  store : SettingsStore
  audit : List AuditEvent

/-- The settings page, if the settings can be listed. -/
def settingsErrorPage (r : SettingsRequest) (status : Nat) (zh en : String) : SettingsReply :=
  if r.listFault.isSome then .httpError 503
  else .page status (if r.lang = "en" then en else zh)

def renderTerminalSettingsError (r : SettingsRequest) : SettingsReply :=
  settingsErrorPage r 400 "SSH 终端配置无效。登录节点必须使用 host:port；连接超时必须为 1 到 60 秒。"
    ("SSH terminal configuration is invalid. Use host:port for the login node and a timeout " ++
      "from 1 to 60 seconds.")

/-- `saveSettings` on an application with a settings store. -/
def saveSettings [Fractions] (m : Machine) (cipher : Cipher) (r : SettingsRequest)
    (store : SettingsStore) : SettingsOutcome :=
  match r.form with
  | none => ⟨.httpError 400, store, []⟩
  | some form =>
    if ¬ form.body.all fun field => knownFormKey field.1 then ⟨.httpError 400, store, []⟩
    else
      match collectSettings m form with
      | .error key =>
        ⟨if isTerminalSetting key then renderTerminalSettingsError r else .httpError 400, store, []⟩
      | .ok values =>
        match validateEnabledTerminalSettings values with
        | .error _ => ⟨renderTerminalSettingsError r, store, []⟩
        | .ok _ =>
          let record (outcome : String) : List AuditEvent :=
            [⟨r.actor, "settings.update", outcome, r.now⟩]
          match store.setMany cipher r.nonces r.saveFaults values with
          | (.error err, store) =>
            ⟨if err = errSettingsKeyRequired then
                settingsErrorPage r 503 "保存秘密字段前必须配置 OPENHPC_SETTINGS_KEY。"
                  "Configure OPENHPC_SETTINGS_KEY before saving secret fields."
              else .httpError 503, store, record "failed"⟩
          | (.ok _, store) => ⟨.redirect "/settings?updated=1", store, record "success"⟩

/-! ## What an accepted form stores -/

/-- The value that a form has for a key of the settings. -/
def SettingsForm.setting (form : SettingsForm) (key : String) : Option String :=
  (settingsSpecs.find? fun spec => spec.key = key).bind form.submitted

section
variable [Fractions] {m : Machine} {form : SettingsForm}

/-- A field adds its value, and that is valid unless the field is cleared. -/
theorem collectSetting_ok {values values' : SettingValues} {spec : SettingsSpec}
    (h : collectSetting m form values spec = .ok values') :
    values' = values ++ ((form.submitted spec).map (Prod.mk spec.key)).toList ∧
      ∀ v, form.submitted spec = some v → v ≠ "" →
        (validateSettingFormValue m spec.key v).isOk = true := by
  unfold collectSetting at h
  split at h
  · next hnone => simp_all
  next v hv =>
  split at h
  · next hclears =>
    have hempty : v = "" := by
      have hsecret : spec.secret = true := by
        rw [SettingsForm.clears, Bool.and_eq_true] at hclears
        exact hclears.1
      rw [SettingsForm.submitted, if_pos hsecret, if_pos hclears] at hv
      exact (Option.some.inj hv).symm
    cases h
    refine ⟨by simp [hv], fun v' hv' hne => ?_⟩
    rw [hv] at hv'
    exact absurd (Option.some.inj hv' ▸ hempty) hne
  split at h
  · cases h
  next hvalid =>
  cases h
  refine ⟨by simp [hv], fun v' hv' _ => ?_⟩
  rw [hv] at hv'
  rw [← Option.some.inj hv', hvalid, isOk_ok]

theorem foldlM_collectSetting_ok {specs : List SettingsSpec} {values values' : SettingValues}
    (h : specs.foldlM (collectSetting m form) values = .ok values') :
    values' = values ++
        specs.filterMap (fun spec => (form.submitted spec).map (Prod.mk spec.key)) ∧
      ∀ spec ∈ specs, ∀ v, form.submitted spec = some v → v ≠ "" →
        (validateSettingFormValue m spec.key v).isOk = true := by
  induction specs generalizing values with
  | nil =>
    cases h
    simp
  | cons spec specs ih =>
    rw [List.foldlM_cons] at h
    cases hspec : collectSetting m form values spec with
    | error err =>
      rw [hspec] at h
      cases h
    | ok next =>
      rw [hspec, ok_bind] at h
      obtain ⟨hvalues, hvalid⟩ := collectSetting_ok hspec
      obtain ⟨hrest, hlater⟩ := ih h
      refine ⟨?_, List.forall_mem_cons.mpr ⟨hvalid, hlater⟩⟩
      rw [hrest, hvalues, List.append_assoc, List.filterMap_cons]
      cases form.submitted spec <;> rfl

omit [Fractions] in
/-- No field occurs twice, so that the values of a form are a map. -/
theorem lookup_submitted {specs : List SettingsSpec}
    (hnodup : (specs.map SettingsSpec.key).Nodup) (key : String) :
    (specs.filterMap fun spec => (form.submitted spec).map (Prod.mk spec.key)).lookup key =
      (specs.find? fun spec => spec.key = key).bind form.submitted := by
  induction specs with
  | nil => rfl
  | cons spec specs ih =>
    obtain ⟨hspec, hspecs⟩ := List.nodup_cons.mp hnodup
    rw [List.filterMap_cons, List.find?_cons]
    by_cases hkey : spec.key = key
    · -- no later field has the key
      have hlater : specs.find? (fun spec => spec.key = key) = none := by
        rw [List.find?_eq_none]
        intro other hother heq
        have hsame : other.key = spec.key := (of_decide_eq_true heq).trans hkey.symm
        exact hspec (hsame ▸ List.mem_map_of_mem hother)
      have hrest := ih hspecs
      rw [hlater] at hrest
      cases hv : form.submitted spec with
      | none => simpa [hkey, hv] using hrest
      | some v => simp [hkey, hv]
    · have hne : (key == spec.key) = false := beq_eq_false_iff_ne.mpr fun h => hkey h.symm
      cases hv : form.submitted spec with
      | none => simpa [hkey, hv] using ih hspecs
      | some v => simpa [hkey, hv, hne, List.lookup_cons] using ih hspecs

omit [Fractions] in
theorem keys_submitted_nodup {specs : List SettingsSpec}
    (hnodup : (specs.map SettingsSpec.key).Nodup) :
    ((specs.filterMap fun spec => (form.submitted spec).map (Prod.mk spec.key)).map
      Prod.fst).Nodup := by
  have hsub : ((specs.filterMap fun spec => (form.submitted spec).map (Prod.mk spec.key)).map
      Prod.fst).Sublist (specs.map SettingsSpec.key) := by
    induction specs with
    | nil => exact List.Sublist.refl _
    | cons spec specs ih =>
      have hrest := ih (List.nodup_cons.mp hnodup).2
      cases hv : form.submitted spec with
      | none => simpa [hv] using hrest.cons spec.key
      | some v => simpa [hv] using hrest.cons_cons spec.key
  exact hsub.nodup hnodup

/-- The values of an accepted form: a map with the form's settings, each of them valid. -/
theorem collectSettings_ok {values : SettingValues} (h : collectSettings m form = .ok values) :
    (values.map Prod.fst).Nodup ∧ (∀ key, values.lookup key = form.setting key) ∧
      ∀ key v, form.setting key = some v → v ≠ "" →
        (validateSettingFormValue m key v).isOk = true := by
  have hnodup : (settingsSpecs.map SettingsSpec.key).Nodup := by decide +kernel
  obtain ⟨hvalues, hvalid⟩ := foldlM_collectSetting_ok h
  rw [List.nil_append] at hvalues
  subst hvalues
  refine ⟨keys_submitted_nodup hnodup, lookup_submitted hnodup, fun key v hv hne => ?_⟩
  obtain ⟨spec, hspec, hsubmitted⟩ := Option.bind_eq_some_iff.mp hv
  obtain rfl : spec.key = key := by simpa using List.find?_some hspec
  exact hvalid spec (List.mem_of_find?_eq_some hspec) v hsubmitted hne

/-- A form that enables the terminal has a configuration that `terminal.New` takes. -/
theorem validateEnabledTerminalSettings_ok {values : SettingValues}
    (h : (validateEnabledTerminalSettings values).isOk = true)
    (hon : values.value "OPENHPC_TERMINAL_ENABLED" = "true") :
    ∃ timeout, parseDuration (values.value "OPENHPC_TERMINAL_TIMEOUT") = some timeout ∧
      (terminalNew ⟨values.value "OPENHPC_TERMINAL_SSH_ADDRESS", timeout⟩).isOk = true := by
  unfold validateEnabledTerminalSettings at h
  rw [if_neg (not_not.mpr hon)] at h
  split at h
  · cases h
  next timeout htimeout =>
  refine ⟨timeout, htimeout, ?_⟩
  cases hnew : terminalNew ⟨values.value "OPENHPC_TERMINAL_SSH_ADDRESS", timeout⟩ with
  | error err =>
    rw [hnew] at h
    cases h
  | ok _ => rfl

/-- What stands behind a redirect. -/
theorem saveSettings_accepted {cipher : Cipher} {r : SettingsRequest} {store : SettingsStore}
    {location : String} (hform : r.form = some form)
    (hsave : (saveSettings m cipher r store).reply = .redirect location) :
    ∃ values, collectSettings m form = .ok values ∧
      (validateEnabledTerminalSettings values).isOk = true ∧
      store.setMany cipher r.nonces r.saveFaults values =
        (.ok (), (saveSettings m cipher r store).store) := by
  have hpage : ∀ status zh en, settingsErrorPage r status zh en ≠ .redirect location := by
    intro status zh en
    unfold settingsErrorPage
    split <;> simp
  simp only [saveSettings, hform] at hsave ⊢
  split at hsave
  · cases hsave
  next hknown =>
  rw [if_neg hknown]
  split at hsave
  · split at hsave
    · exact absurd hsave (hpage _ _ _)
    · cases hsave
  next values hvalues =>
  simp only [hvalues]
  split at hsave
  · exact absurd hsave (hpage _ _ _)
  next hterminal =>
  split at hsave
  · split at hsave
    · exact absurd hsave (hpage _ _ _)
    · cases hsave
  next saved hset =>
  exact ⟨values, rfl, by rw [hterminal, isOk_ok], by simp [hset]⟩

omit [Fractions] in
theorem setMany_error {cipher : Cipher} {nonces : String → Option Nonce} {faults : Faults}
    {store store' : SettingsStore} {values : SettingValues} {err : String}
    (h : store.setMany cipher nonces faults values = (.error err, store')) : store' = store := by
  unfold SettingsStore.setMany at h
  split at h
  · cases h
    rfl
  split at h
  · cases h
    rfl
  · cases h

/-- A save that is not accepted stores nothing. -/
theorem saveSettings_refused {cipher : Cipher} {r : SettingsRequest} {store : SettingsStore}
    (hsave : (saveSettings m cipher r store).reply ≠ .redirect "/settings?updated=1") :
    (saveSettings m cipher r store).store = store := by
  unfold saveSettings at hsave ⊢
  split
  · rfl
  next form hform =>
  simp only [hform] at hsave
  split
  · rfl
  next hknown =>
  rw [if_neg hknown] at hsave
  split
  · rfl
  next values hvalues =>
  simp only [hvalues] at hsave
  split
  · rfl
  next hterminal =>
  simp only [hterminal] at hsave
  split
  · next hset => exact setMany_error hset
  next hset =>
  simp only [hset] at hsave
  exact absurd rfl hsave

end

end OpenHpcWeb.Web
