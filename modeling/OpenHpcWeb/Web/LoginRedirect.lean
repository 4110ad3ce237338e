/-
  Where a login redirects to (internal/web/app.go).

  `safeNext` looks at the text that was submitted. A browser takes tabs, line feeds and carriage
  returns out of a Location before it parses it (`browserURL`), so one of them between two
  slashes hides the second from `safeNext` and not from the browser.

  * `staysOnOrigin_safeNext_iff`: the texts that hide a second slash so, and no others, leave the
    origin.
-/
import OpenHpcWeb.Web.Login

namespace OpenHpcWeb.Web

open OpenHpcWeb.Go OpenHpcWeb.Lib OpenHpcWeb.Platform OpenHpcWeb.Ldap
open OpenHpcWeb.Lib.Ldap (Schema Entry)

/-- The characters that a URL parser strips. -/
def isStripped (c : Char) : Bool := c = '\t' || c = '\n' || c = '\r'

/-- What a browser parses of a Location. -/
def browserURL (location : String) : List Char := location.toList.filter fun c => !isStripped c

/-- One slash, and behind it neither a slash nor a backslash: no authority. -/
def StaysOnOrigin (location : String) : Prop :=
  ∃ rest, browserURL location = '/' :: rest ∧ rest.head? ≠ some '/' ∧ rest.head? ≠ some '\\'

/-- Two slashes with nothing but stripped characters between them, and no backslash. -/
def HidesSlash (value : String) : Prop :=
  ∃ gap rest, gap ≠ [] ∧ (∀ c ∈ gap, isStripped c = true) ∧ '\\' ∉ rest ∧
    value.toList = '/' :: (gap ++ '/' :: rest)

/-- What `safeNext` checks. -/
def NextAccepted (value : String) : Prop :=
  ∃ rest, value.toList = '/' :: rest ∧ rest.head? ≠ some '/' ∧ '\\' ∉ rest

theorem contains_backslash_iff (value : String) :
    contains value "\\" = true ↔ '\\' ∈ value.toList := by
  rw [contains_iff]
  exact List.singleton_infix_iff _ _

theorem safeNext_of_accepted {value : String} (h : NextAccepted value) :
    safeNext value = value := by
  obtain ⟨rest, hvalue, hslash, hback⟩ := h
  unfold safeNext
  rw [if_pos]
  refine ⟨?_, ?_, ?_, ?_⟩
  · intro hempty
    rw [hempty] at hvalue
    cases hvalue
  · rw [hvalue]
    exact ⟨rest, rfl⟩
  · rw [hvalue]
    intro hpre
    obtain ⟨tail, htail⟩ := hpre
    have hrest : '/' :: tail = rest := (List.cons.inj htail).2
    rw [← hrest] at hslash
    exact hslash rfl
  · rw [contains_backslash_iff, hvalue, List.mem_cons, not_or]
    exact ⟨by decide, hback⟩

theorem safeNext_of_not_accepted {value : String} (h : ¬ NextAccepted value) :
    safeNext value = "/dashboard" := by
  unfold safeNext
  rw [if_neg]
  intro hchecks
  obtain ⟨-, hslash, hdouble, hback⟩ := hchecks
  obtain ⟨rest, hrest⟩ := hslash
  refine h ⟨rest, hrest.symm, ?_, ?_⟩
  · intro hhead
    obtain ⟨tail, htail⟩ := List.head?_eq_some_iff.mp hhead
    refine hdouble ⟨tail, ?_⟩
    rw [← hrest, htail]
    rfl
  · intro hmem
    rw [contains_backslash_iff, ← hrest] at hback
    exact hback (List.mem_cons_of_mem _ hmem)

theorem staysOnOrigin_dashboard : StaysOnOrigin "/dashboard" :=
  ⟨"dashboard".toList, by decide, by decide, by decide⟩

/-- Stripping stops at the first character that is kept. -/
theorem filter_head? (l : List Char) :
    (l.filter fun c => !isStripped c).head? = (l.dropWhile isStripped).head? := by
  induction l with
  | nil => rfl
  | cons c l ih =>
    cases h : isStripped c with
    | true => simpa [h] using ih
    | false => simp [h]

/-- An accepted text leaves the origin exactly when its first kept characters are two slashes. -/
theorem staysOnOrigin_of_accepted {value : String} (h : NextAccepted value) :
    StaysOnOrigin value ↔ ¬ HidesSlash value := by
  obtain ⟨rest, hvalue, hslash, hback⟩ := h
  have hbrowser : browserURL value = '/' :: rest.filter fun c => !isStripped c := by
    rw [browserURL, hvalue]
    rfl
  constructor
  · intro hstays hhides
    obtain ⟨rest', hrest', hslash', -⟩ := hstays
    obtain ⟨gap, tail, -, hgap, -, hsplit⟩ := hhides
    obtain rfl : rest = gap ++ '/' :: tail := by
      rw [hvalue] at hsplit
      exact (List.cons.inj hsplit).2
    obtain rfl : (gap ++ '/' :: tail).filter (fun c => !isStripped c) = rest' := by
      rw [hbrowser] at hrest'
      exact (List.cons.inj hrest').2
    rw [filter_head?, List.dropWhile_append_of_pos hgap] at hslash'
    exact hslash' rfl
  · intro hhides
    refine ⟨_, hbrowser, ?_, ?_⟩
    · rw [filter_head?]
      intro hhead
      obtain ⟨tail, htail⟩ := List.head?_eq_some_iff.mp hhead
      have hsplit : rest.takeWhile isStripped ++ '/' :: tail = rest := by
        rw [← htail]
        exact List.takeWhile_append_dropWhile
      refine hhides ⟨rest.takeWhile isStripped, tail, ?_, ?_, ?_, ?_⟩
      · intro hgap
        rw [hgap] at hsplit
        rw [← hsplit] at hslash
        exact hslash rfl
      · exact fun c hc => List.mem_takeWhile_imp hc
      · intro hmem
        refine hback ?_
        rw [← hsplit]
        exact List.mem_append_right _ (List.mem_cons_of_mem _ hmem)
      · rw [hsplit]
        exact hvalue
    · rw [filter_head?]
      intro hhead
      have hmem : '\\' ∈ rest.dropWhile isStripped := List.mem_of_mem_head? hhead
      exact hback ((List.dropWhile_suffix _).subset hmem)

/-- Every text that hides a slash passes the checks. -/
theorem HidesSlash.accepted {value : String} (h : HidesSlash value) : NextAccepted value := by
  obtain ⟨gap, rest, hne, hgap, hback, hvalue⟩ := h
  have hstripped : isStripped '/' = false ∧ isStripped '\\' = false := by decide
  refine ⟨gap ++ '/' :: rest, hvalue, ?_, ?_⟩
  · intro hhead
    rw [List.head?_append_of_ne_nil _ hne] at hhead
    have hslash := hgap '/' (List.mem_of_mem_head? hhead)
    rw [hstripped.1] at hslash
    cases hslash
  · intro hmem
    rcases List.mem_append.mp hmem with hmem | hmem
    · have hbackslash := hgap '\\' hmem
      rw [hstripped.2] at hbackslash
      cases hbackslash
    · rcases List.mem_cons.mp hmem with heq | hmem
      · exact absurd heq (by decide)
      · exact hback hmem

theorem staysOnOrigin_safeNext_iff (value : String) :
    StaysOnOrigin (safeNext value) ↔ ¬ HidesSlash value := by
  by_cases h : NextAccepted value
  · rw [safeNext_of_accepted h]
    exact staysOnOrigin_of_accepted h
  · rw [safeNext_of_not_accepted h]
    exact iff_of_true staysOnOrigin_dashboard fun hhides => h hhides.accepted

/-! ## The Location of a login -/

/-- A login redirects to what `safeNext` makes of the submitted text. -/
theorem login_location {app : LoginApplication} {r : LoginRequest} {w : LoginWorld}
    {token csrfToken next : String} (h : (login app r w).1 = .signedIn token csrfToken next) :
    next = safeNext r.next := by
  unfold login at h
  cases hbegun : (beginLogin app r w).1 with
  | error answer =>
    simp only [hbegun] at h
    exact absurd h (beginLogin_error hbegun token csrfToken next)
  | ok credentials =>
    simp only [hbegun] at h
    rcases signIn_cases r (beginLogin app r w).2 r.name credentials.role with
      ⟨token', csrfToken', hanswer, -⟩ | ⟨hno, -⟩
    · rw [hanswer] at h
      cases h
      rfl
    · exact absurd h (hno token csrfToken next)

/-- A login sends the browser away from the origin exactly when the submitted text hides a
    second slash behind the first. -/
theorem login_stays_on_origin_iff (app : LoginApplication) (r : LoginRequest) (w : LoginWorld)
    (token csrfToken next : String) (h : (login app r w).1 = .signedIn token csrfToken next) :
    StaysOnOrigin next ↔ ¬ HidesSlash r.next := by
  rw [login_location h]
  exact staysOnOrigin_safeNext_iff r.next

section Example

private def onlyAlice : UserStore :=
  (UserStore.empty.create (fun _ => none) none 0
    ⟨"alice", "hash", .user, "", "", "", true, 0⟩).2

private def aliceApplication : LoginApplication where
  comparePassword _ _ := true
  ldap := none

private def aliceLogin (next : String) : LoginRequest where
  username := "alice"
  password := "secret"
  next := next
  clientKey := "192.0.2.1"
  lang := "en"
  userFault := none
  auditFault := none
  connection := ⟨none, none, none, fun _ _ => .invalidCredentials⟩
  token := some "token"
  csrfToken := some "csrf"
  reservedAt := 0
  recordedAt := 0
  signedInAt := 0
  purgedAt _ := 0
  finishedAt := 0

private def aliceWorld : LoginWorld := ⟨.start 0 onlyAlice, [], [], []⟩

theorem login_stays_on_origin_jobs :
    StaysOnOrigin "/slurm/jobs" ↔ ¬ HidesSlash "/slurm/jobs" :=
  login_stays_on_origin_iff aliceApplication (aliceLogin "/slurm/jobs") aliceWorld "token" "csrf"
    "/slurm/jobs" rfl

/-- The Location that sends alice to evil.example. -/
theorem login_leaves_origin :
    ¬ ∀ (app : LoginApplication) (r : LoginRequest) (w : LoginWorld) (token csrfToken next : String),
      (login app r w).1 = .signedIn token csrfToken next → StaysOnOrigin next := by
  intro h
  obtain ⟨rest, hrest, hslash, -⟩ := h aliceApplication (aliceLogin "/\t/evil.example/steal")
    aliceWorld "token" "csrf" "/\t/evil.example/steal" rfl
  have hbrowser : browserURL "/\t/evil.example/steal" = "//evil.example/steal".toList := by decide
  rw [hbrowser] at hrest
  rw [← (List.cons.inj hrest).2] at hslash
  exact hslash rfl

end Example

end OpenHpcWeb.Web
