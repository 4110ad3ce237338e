/-
  Whether the server starts again after its settings were saved.

  A form is checked one field at a time, a start checks the merged options. After an accepted
  save the value of an option is the form's, or the environment's where the form empties it,
  or the one before (`merged`). The two sides differ: the form lets timeouts through that the
  integrations refuse, it does not trim, an emptied field brings back a value of the
  environment, and an integration that was off has options that no start has looked at.

  * `accepted_settings_start_iff`: the exact condition (`StaysStartable`) under which a server
    that starts, starts again after an accepted save.
  * `saves_start_iff`: a whole run of saves, each accepted one under its condition.
-/
import OpenHpcWeb.Lib.Run
import OpenHpcWeb.Server.StartOptions
import OpenHpcWeb.Web.Settings

namespace OpenHpcWeb.Web

open OpenHpcWeb.Go OpenHpcWeb.Lib OpenHpcWeb.Platform OpenHpcWeb.Server

/-! ## The options after a save -/

section Merged

variable (m : Machine) (cipher : Cipher) (store : SettingsStore) (form : SettingsForm)

/-- The value of an option at the start after a save. -/
def merged (key : String) : Except String String :=
  match form.setting key with
  | none => effective m cipher store key
  | some v => .ok (if v = "" then fallback m key else v)

end Merged

section Forms

variable [Fractions] {m : Machine} {cipher : Cipher} {store : SettingsStore}
  {form : SettingsForm} {r : SettingsRequest}

theorem effective_saved (hcipher : cipher.Lawful) {location : String} (hform : r.form = some form)
    (hsave : (saveSettings m cipher r store).reply = .redirect location) :
    effective m cipher (saveSettings m cipher r store).store = merged m cipher store form := by
  obtain ⟨values, hvalues, -, hset⟩ := saveSettings_accepted hform hsave
  obtain ⟨hnodup, hlookup, -⟩ := collectSettings_ok hvalues
  funext key
  have hget := SettingsStore.get_setMany hcipher hnodup hset key
  rw [hlookup] at hget
  rw [effective, settingValue, hget, merged]
  cases form.setting key with
  | none => rfl
  | some v =>
    by_cases hv : v = ""
    · simp [hv]
    · simp [hv]

end Forms

/-! ## What the form leaves to the start -/

section Condition

variable [Fractions] (m : Machine) (cipher : Cipher) (store : SettingsStore)
  (form : SettingsForm)

/-- What a start asks of a value beyond the check of the form. -/
def StartLimit (key v : String) : Prop :=
  if key ∈ ["OPENHPC_SLURM_TIMEOUT", "OPENHPC_LDAP_TIMEOUT"] then
    ∀ d ∈ parseDuration v, d ≤ 30 * second
  else if key = "OPENHPC_TERMINAL_TIMEOUT" then ∀ d ∈ parseDuration v, second ≤ d
  else trimSpace v = v ∨ startAccepts m key v = true

/-- The start before the save has checked the option. -/
def CheckedAtStart (enabledKey key : String) : Prop :=
  effective m cipher store enabledKey = .ok "true" ∧ Comes m (effective m cipher store) key

/-- The next start accepts an option: one that the form leaves out was checked at the start
    before, one that it empties has a valid value in the environment, and one that it sets
    keeps the limit of the start. -/
def Allowed (enabledKey key : String) : Prop :=
  match form.setting key with
  | none =>
    CheckedAtStart m cipher store enabledKey key ∨ Accepted m (merged m cipher store form) key
  | some v =>
    Comes m (merged m cipher store form) key →
      if v = "" then startAccepts m key (fallback m key) = true else StartLimit m key v

/-- When the server starts again after the form is saved. A form that enables the terminal
    was checked as the start checks it. -/
structure StaysStartable : Prop where
  slurm : merged m cipher store form "OPENHPC_SLURM_ENABLED" = .ok "true" →
    ∀ key ∈ slurmOptions, Allowed m cipher store form "OPENHPC_SLURM_ENABLED" key
  ldap : merged m cipher store form "OPENHPC_LDAP_ENABLED" = .ok "true" →
    ∀ key ∈ ldapOptions, Allowed m cipher store form "OPENHPC_LDAP_ENABLED" key
  bind : merged m cipher store form "OPENHPC_LDAP_ENABLED" = .ok "true" →
    BindPair (merged m cipher store form) "OPENHPC_LDAP_BIND_DN" "OPENHPC_LDAP_BIND_PASSWORD"
  provisionBind : merged m cipher store form "OPENHPC_LDAP_ENABLED" = .ok "true" →
    BindPair (merged m cipher store form) "OPENHPC_LDAP_PROVISION_BIND_DN"
      "OPENHPC_LDAP_PROVISION_BIND_PASSWORD"
  terminal : form.setting "OPENHPC_TERMINAL_ENABLED" = none →
    merged m cipher store form "OPENHPC_TERMINAL_ENABLED" = .ok "true" →
    ∀ key ∈ terminalOptions, Allowed m cipher store form "OPENHPC_TERMINAL_ENABLED" key

end Condition

/-! ## The two checks of a value -/

section Checks

variable [Fractions] {m : Machine}

/-- The form's check of a duration. -/
theorem formDuration {key v : String}
    (hkey : key ∈ ["OPENHPC_SLURM_TIMEOUT", "OPENHPC_SLURM_CACHE_TTL", "OPENHPC_LDAP_TIMEOUT",
      "OPENHPC_TERMINAL_TIMEOUT"])
    (hvalid : (validateSettingFormValue m key v).isOk = true) :
    ∃ d, parseDuration v = some d ∧ 0 < d ∧ d ≤ minute := by
  have hbool : ∀ key ∈ ["OPENHPC_SLURM_TIMEOUT", "OPENHPC_SLURM_CACHE_TTL",
      "OPENHPC_LDAP_TIMEOUT", "OPENHPC_TERMINAL_TIMEOUT"],
      key ∉ ["OPENHPC_SLURM_ENABLED", "OPENHPC_LDAP_ENABLED", "OPENHPC_TERMINAL_ENABLED"] := by
    decide
  rw [validateSettingFormValue, isOk_check_iff, if_neg (hbool key hkey), if_pos hkey] at hvalid
  obtain ⟨-, hduration⟩ := hvalid
  split at hduration
  · cases hduration
  next d hd =>
  rw [isOk_check_iff] at hduration
  refine ⟨d, hd, ?_⟩
  have hrange := hduration.1
  simp only [minute, second] at hrange ⊢
  omega

omit [Fractions] in
/-- The form's check of a number. -/
theorem formInt {v err : String} {bound : Int}
    (hvalid : (match parseInt v with
      | none => .error err
      | some n =>
        if n.val < 1 ∨ n.val > bound then .error err else .ok () : Except String Unit).isOk =
      true) :
    ∃ n, parseInt v = some n ∧ 0 < n.val ∧ n.val ≤ bound := by
  split at hvalid
  · cases hvalid
  next n hn =>
  rw [isOk_check_iff] at hvalid
  have hrange := hvalid.1
  exact ⟨n, hn, by omega, by omega⟩

/-- A value without blanks around it that the form accepts is one that a start accepts, but
    for the timeouts. -/
theorem startAccepts_of_form {key v : String}
    (hkey : key ∈ slurmOptions ++ ldapOptions ++ terminalOptions)
    (hloose : key ∉ ["OPENHPC_SLURM_TIMEOUT", "OPENHPC_LDAP_TIMEOUT", "OPENHPC_TERMINAL_TIMEOUT"])
    (hv : v ≠ "") (htrim : trimSpace v = v)
    (hvalid : (validateSettingFormValue m key v).isOk = true) : startAccepts m key v = true := by
  rcases eq_or_ne key "OPENHPC_SLURM_CACHE_TTL" with rfl | hcache
  · obtain ⟨d, hd, hpos, hle⟩ := formDuration (by simp) hvalid
    simp [startAccepts, hd, hpos.le, hle]
  rw [validateSettingFormValue, isOk_check_iff] at hvalid
  replace hvalid := hvalid.2
  rcases eq_or_ne key "OPENHPC_SLURM_MAX_OUTPUT" with rfl | houtput
  · obtain ⟨n, hn, hpos, hle⟩ := formInt hvalid
    simp [startAccepts, hn, maxOutputBytes, hpos]
    omega
  rcases eq_or_ne key "OPENHPC_LDAP_MAX_RESULTS" with rfl | hresults
  · obtain ⟨n, hn, hpos, hle⟩ := formInt hvalid
    simp [startAccepts, hn, maxLDAPResults, hpos, hle]
  -- the other options are texts, with the same check on both sides
  simp only [List.mem_cons, List.not_mem_nil, or_false, not_or] at hloose
  simp only [slurmOptions, ldapOptions, terminalOptions, List.cons_append, List.nil_append,
    List.mem_cons, List.not_mem_nil, hcache, houtput, hresults, hloose, false_or, or_false] at hkey
  rcases hkey with rfl | rfl | rfl | rfl | rfl | rfl | rfl | rfl | rfl | rfl | rfl
  all_goals
    simp [hv, isOk_check_iff] at hvalid
    simp [startAccepts, hv, htrim, hvalid]

/-- Beyond the form's check a start asks for `StartLimit`. -/
theorem startAccepts_iff_startLimit {key v : String}
    (hkey : key ∈ slurmOptions ++ ldapOptions ++ terminalOptions) (hv : v ≠ "")
    (hvalid : (validateSettingFormValue m key v).isOk = true) :
    startAccepts m key v = true ↔ StartLimit m key v := by
  by_cases hshort : key ∈ ["OPENHPC_SLURM_TIMEOUT", "OPENHPC_LDAP_TIMEOUT"]
  · have hkeys : ∀ key ∈ ["OPENHPC_SLURM_TIMEOUT", "OPENHPC_LDAP_TIMEOUT"],
        key ∈ ["OPENHPC_SLURM_TIMEOUT", "OPENHPC_SLURM_CACHE_TTL", "OPENHPC_LDAP_TIMEOUT",
          "OPENHPC_TERMINAL_TIMEOUT"] := by decide
    obtain ⟨d, hd, hpos, -⟩ := formDuration (hkeys key hshort) hvalid
    rw [startAccepts, if_pos hshort, StartLimit, if_pos hshort]
    simp [hd, hpos]
  by_cases hterminal : key = "OPENHPC_TERMINAL_TIMEOUT"
  · obtain ⟨d, hd, hpos, hle⟩ := formDuration (by simp [hterminal]) hvalid
    have htrim : trimSpace v = v := trimSpace_of_parseDuration hd
    have hzero : d ≠ 0 := by omega
    subst hterminal
    simp [startAccepts, StartLimit, htrim, hd, hzero, hle]
  have hloose : key ∉ ["OPENHPC_SLURM_TIMEOUT", "OPENHPC_LDAP_TIMEOUT",
      "OPENHPC_TERMINAL_TIMEOUT"] := by
    simp_all
  rw [StartLimit, if_neg hshort, if_neg hterminal]
  exact ⟨Or.inr, fun h => h.elim (fun htrim => startAccepts_of_form hkey hloose hv htrim hvalid) id⟩

end Checks

/-! ## Options and forms -/

section Options

variable [Fractions] {m : Machine} {cipher : Cipher} {store : SettingsStore}
  {form : SettingsForm}

/-- After an accepted save a start accepts an option exactly when it is `Allowed`. -/
theorem accepted_merged_iff {enabledKey key : String}
    (hkey : key ∈ slurmOptions ++ ldapOptions ++ terminalOptions)
    (hbefore : effective m cipher store enabledKey = .ok "true" →
      Accepted m (effective m cipher store) key)
    (hvalid : ∀ v, form.setting key = some v → v ≠ "" →
      (validateSettingFormValue m key v).isOk = true) :
    Accepted m (merged m cipher store form) key ↔ Allowed m cipher store form enabledKey key := by
  unfold Allowed
  cases hset : form.setting key with
  | none =>
    have hsame : merged m cipher store form key = effective m cipher store key := by
      rw [merged, hset]
    refine ⟨Or.inr, fun h => h.elim (fun hchecked => ?_) id⟩
    obtain ⟨hon, hcomes⟩ := hchecked
    obtain ⟨v, hv, haccepts⟩ := hbefore hon
    exact ⟨v, hsame.trans hv, fun _ => haccepts hcomes⟩
  | some v =>
    have hmerged : merged m cipher store form key = .ok (if v = "" then fallback m key else v) := by
      rw [merged, hset]
    rw [accepted_ok_iff hmerged]
    refine imp_congr_right fun _ => ?_
    by_cases hv : v = ""
    · rw [if_pos hv, if_pos hv]
    · rw [if_neg hv, if_neg hv]
      exact startAccepts_iff_startLimit hkey hv (hvalid v hset hv)

omit [Fractions] in
/-- A checkbox of a form is never empty. -/
theorem setting_terminalEnabled {v : String}
    (h : form.setting "OPENHPC_TERMINAL_ENABLED" = some v) : v ≠ "" := by
  have hspec : form.setting "OPENHPC_TERMINAL_ENABLED" =
      form.submitted ⟨"OPENHPC_TERMINAL_ENABLED", "checkbox", false⟩ := by
    simp [SettingsForm.setting, settingsSpecs]
  rw [hspec, SettingsForm.submitted, if_neg (by decide)] at h
  split at h
  · cases h
  split at h
  · cases h
    decide
  next hnot =>
  have hne : form.value "OPENHPC_TERMINAL_ENABLED" ≠ "" := by simpa using hnot
  exact Option.some.inj h ▸ hne

/-- A form that enables the terminal sets its options to values that a start accepts. -/
theorem terminal_accepted {values : SettingValues}
    (hlookup : ∀ key, values.lookup key = form.setting key)
    (hterminal : (validateEnabledTerminalSettings values).isOk = true)
    (hon : form.setting "OPENHPC_TERMINAL_ENABLED" = some "true") :
    ∀ key ∈ terminalOptions, Accepted m (merged m cipher store form) key := by
  have hvalue : ∀ key, values.value key = (form.setting key).getD "" := fun key => by
    rw [SettingValues.value, hlookup]
  have hmerged : ∀ key, values.value key ≠ "" →
      merged m cipher store form key = .ok (values.value key) := by
    intro key hne
    rw [hvalue] at hne ⊢
    cases hset : form.setting key with
    | none => simp [hset] at hne
    | some v =>
      rw [hset, Option.getD_some] at hne
      rw [merged, hset]
      simp [hne]
  have htrue : values.value "OPENHPC_TERMINAL_ENABLED" = "true" := by
    rw [hvalue, hon, Option.getD_some]
  obtain ⟨timeout, htimeout, hnew⟩ := validateEnabledTerminalSettings_ok hterminal htrue
  obtain ⟨haddress, hrange⟩ := (terminalNew_isOk_iff _).mp hnew
  obtain ⟨hne, htrim⟩ := validateAddress_trim haddress
  have htimeoutTrim := trimSpace_of_parseDuration htimeout
  have htimeoutNe : values.value "OPENHPC_TERMINAL_TIMEOUT" ≠ "" := by
    intro hempty
    rw [hempty] at htimeout
    simp [parseDuration, leadingSign] at htimeout
  intro key hkey
  simp only [terminalOptions, List.mem_cons, List.not_mem_nil, or_false] at hkey
  rcases hkey with rfl | rfl
  · rw [accepted_iff (by decide) (hmerged _ hne)]
    simp [startAccepts, htrim, haddress]
  · rw [accepted_iff (by decide) (hmerged _ htimeoutNe)]
    simpa [startAccepts, htimeoutTrim, htimeout] using hrange

end Options

/-! ## The start after a save -/

section Start

variable [Fractions] {m : Machine} {cipher : Cipher} {store : SettingsStore}
  {form : SettingsForm} {r : SettingsRequest}

/-- A server that starts, starts again after an accepted save exactly when the form, the
    environment and the settings before are `StaysStartable`. -/
theorem accepted_settings_start_iff (hcipher : cipher.Lawful) (hfiles : m.FilesValid)
    (hform : r.form = some form) (hstart : (startup m cipher store).isOk = true)
    (hsave : (saveSettings m cipher r store).reply = .redirect "/settings?updated=1") :
    (startup m cipher (saveSettings m cipher r store).store).isOk = true ↔
      StaysStartable m cipher store form := by
  obtain ⟨values, hvalues, hterminal, -⟩ := saveSettings_accepted hform hsave
  obtain ⟨-, hlookup, hvalid⟩ := collectSettings_ok hvalues
  have hbefore := (startup_isOk_iff hfiles).mp hstart
  rw [startup_isOk_iff hfiles, effective_saved hcipher hform hsave]
  have hslurm : ∀ key ∈ slurmOptions, Accepted m (merged m cipher store form) key ↔
      Allowed m cipher store form "OPENHPC_SLURM_ENABLED" key := fun key hkey =>
    accepted_merged_iff (by simp [hkey]) (fun hon => hbefore.slurm hon key hkey) (hvalid key)
  have hldap : ∀ key ∈ ldapOptions, Accepted m (merged m cipher store form) key ↔
      Allowed m cipher store form "OPENHPC_LDAP_ENABLED" key := fun key hkey =>
    accepted_merged_iff (by simp [hkey]) (fun hon => hbefore.ldap hon key hkey) (hvalid key)
  have hterm : ∀ key ∈ terminalOptions, Accepted m (merged m cipher store form) key ↔
      Allowed m cipher store form "OPENHPC_TERMINAL_ENABLED" key := fun key hkey =>
    accepted_merged_iff (by simp [hkey]) (fun hon => hbefore.terminal hon key hkey) (hvalid key)
  constructor
  · intro h
    exact ⟨fun hon key hkey => (hslurm key hkey).mp (h.slurm hon key hkey),
      fun hon key hkey => (hldap key hkey).mp (h.ldap hon key hkey), h.bind, h.provisionBind,
      fun _ hon key hkey => (hterm key hkey).mp (h.terminal hon key hkey)⟩
  · intro h
    refine ⟨fun hon key hkey => (hslurm key hkey).mpr (h.slurm hon key hkey),
      fun hon key hkey => (hldap key hkey).mpr (h.ldap hon key hkey), h.bind, h.provisionBind,
      fun hon => ?_⟩
    cases hset : form.setting "OPENHPC_TERMINAL_ENABLED" with
    | none => exact fun key hkey => (hterm key hkey).mpr (h.terminal hset hon key hkey)
    | some v =>
      -- the form enables the terminal
      rw [merged, hset] at hon
      simp only [setting_terminalEnabled hset, if_false, Except.ok.injEq] at hon
      exact terminal_accepted hlookup hterminal (hon ▸ hset)

end Start

section Example
open scoped Exact

/-- Slurm is enabled in the environment; there are no other values in it. -/
def slurmMachine : Machine where
  getenv := fun key => if key = "OPENHPC_SLURM_ENABLED" then "true" else ""
  parseURL := fun _ => none
  parseDN := fun _ => false
  slurmExecutable := fun _ => .ok ()
  caFile := fun _ => .ok ()
  certificates := fun _ => true

def noSettings : SettingsStore := ⟨fun _ => none, [], .inl rfl⟩

/-- Without a key nothing is encrypted. -/
def idleCipher : Cipher := ⟨fun _ _ text _ => text, fun _ _ text _ => some text⟩

def slurmTimeoutForm (timeout : String) : SettingsForm :=
  ⟨[("OPENHPC_SLURM_TIMEOUT", timeout)], []⟩

def slurmTimeoutRequest (timeout : String) : SettingsRequest where
  actor := "admin"
  lang := "en"
  now := 0
  form := some (slurmTimeoutForm timeout)
  listFault := none
  saveFaults := []
  nonces := fun _ => none

theorem idleCipher_lawful : idleCipher.Lawful := fun _ _ _ _ _ _ => rfl

theorem slurmMachine_filesValid : slurmMachine.FilesValid :=
  ⟨fun _ => rfl, fun _ => rfl, fun _ => rfl⟩

/-- Twenty seconds keep the limit of the start. -/
theorem accepted_settings_start_twenty :
    StaysStartable slurmMachine idleCipher noSettings (slurmTimeoutForm "20s") :=
  (accepted_settings_start_iff (r := slurmTimeoutRequest "20s") idleCipher_lawful
    slurmMachine_filesValid rfl (by decide +kernel) (by decide +kernel)).mp (by decide +kernel)

/-- Forty-five seconds pass the form and stop the next start. -/
theorem slow_timeout_stops_start :
    slurmMachine.FilesValid ∧ idleCipher.Lawful ∧
      (startup slurmMachine idleCipher noSettings).isOk = true ∧
      (saveSettings slurmMachine idleCipher (slurmTimeoutRequest "45s") noSettings).reply =
        .redirect "/settings?updated=1" ∧
      startup slurmMachine idleCipher
          (saveSettings slurmMachine idleCipher (slurmTimeoutRequest "45s") noSettings).store =
        .error "initialize Slurm integration: Slurm command timeout must be positive" :=
  ⟨slurmMachine_filesValid, idleCipher_lawful, by decide +kernel, by decide +kernel,
    by decide +kernel⟩

end Example

/-! ## Runs of saves -/

section Runs

variable [Fractions] {m : Machine} {cipher : Cipher} {store : SettingsStore}

/-- Saves one after the other. -/
def saveStep (m : Machine) (cipher : Cipher) (store : SettingsStore) (r : SettingsRequest) :
    Option SettingsStore :=
  some (saveSettings m cipher r store).store

/-- The condition on one save: nothing is asked of one that is not accepted. -/
def KeepsStartable (m : Machine) (cipher : Cipher) (store : SettingsStore) (r : SettingsRequest) :
    Prop :=
  (saveSettings m cipher r store).reply = .redirect "/settings?updated=1" →
    ∀ form, r.form = some form → StaysStartable m cipher store form

/-- A run of saves leaves the server startable all the way exactly when each of them meets the
    condition. -/
theorem saves_start_iff {rs : List SettingsRequest} {store' : SettingsStore}
    (hcipher : cipher.Lawful) (hfiles : m.FilesValid)
    (hstart : (startup m cipher store).isOk = true)
    (hrun : Run (saveStep m cipher) (fun _ _ => True) store rs store') :
    (∀ rs' t, rs' <+: rs → Run (saveStep m cipher) (fun _ _ => True) store rs' t →
      (startup m cipher t).isOk = true) ↔
      Run (saveStep m cipher) (KeepsStartable m cipher) store rs store' := by
  refine run_safe_iff (fun _ => True) (fun t => (startup m cipher t).isOk = true) trivial hstart
    (fun _ _ _ _ _ => trivial) (fun s r s' _ hs hstep => ?_) hrun
  obtain rfl : (saveSettings m cipher r s).store = s' := Option.some.inj hstep
  by_cases hsave : (saveSettings m cipher r s).reply = .redirect "/settings?updated=1"
  · have hform : ∃ form, r.form = some form := by
      cases hform : r.form with
      | none => simp [saveSettings, hform] at hsave
      | some form => exact ⟨form, rfl⟩
    obtain ⟨form, hform⟩ := hform
    rw [accepted_settings_start_iff hcipher hfiles hform hs hsave]
    exact ⟨fun h _ form' hform' => Option.some.inj (hform.symm.trans hform') ▸ h,
      fun h => h hsave form hform⟩
  · -- a save that is not accepted leaves the store as it was
    rw [saveSettings_refused hsave, hs]
    exact iff_of_true rfl fun haccepted => absurd haccepted hsave

end Runs

end OpenHpcWeb.Web
