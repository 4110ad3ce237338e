/-
  Opening a job's output without following a link, internal/web/job_output.go:
  `openAbsoluteFileNoFollow`, `openRelativeFileNoFollow` and `walkOpenNoFollow`.

  The kernel decides each call by what has happened before (`Kernel`), in any way but one: it
  hands out no descriptor that is open. The calls are kept as a trace.

  * `pathComponents_proper`: the components of a valid path are one step down each.
  * `walk_calls`: the walk opens them one in the other.
  * `walk_held`, `relative_held`: it holds one descriptor at a time.
  * `no_symlink_walk`: the calls of `openAbsoluteFileNoFollow`, and that it leaves nothing open
    but the file.
-/
import OpenHpcWeb.Go.Path
import OpenHpcWeb.Lib.Handles
import OpenHpcWeb.Web.Jobs

namespace OpenHpcWeb.Web

open OpenHpcWeb.Go OpenHpcWeb.Lib

/-! ## Calls -/

/-- Flags besides `O_RDONLY`. -/
structure OpenFlags where
  directory : Bool
  cloexec : Bool
  nofollow : Bool
  nonblock : Bool
  deriving DecidableEq

/-- `unix.Stat_t`: whether the type bits of the mode are `S_IFREG`, and the size. -/
structure FileStat where
  regular : Bool
  size : Int
  deriving DecidableEq

abbrev Descriptor := Nat

inductive Syscall where
  /-- of the root directory -/
  | open (flags : OpenFlags) (result : Except String Descriptor)
  | dup (fd : Descriptor) (result : Except String Descriptor)
  | openat (dir : Descriptor) (component : String) (flags : OpenFlags)
      (result : Except String Descriptor)
  | fstat (fd : Descriptor) (result : Except String FileStat)
  /-- the descriptor is closed whatever the call returns -/
  | close (fd : Descriptor)

/-- What a call does to the open descriptors. -/
def Syscall.handle : Syscall → Option (HandleEvent Descriptor)
  | .open _ (.ok fd) => some (.acquire fd)
  | .dup _ (.ok fd) => some (.acquire fd)
  | .openat _ _ _ (.ok fd) => some (.acquire fd)
  | .close fd => some (.release fd)
  | _ => none

def handles (trace : List Syscall) : List (HandleEvent Descriptor) :=
  trace.filterMap Syscall.handle

/-- How the kernel answers after some calls. -/
structure Kernel where
  descriptor : List Syscall → Except String Descriptor
  stat : List Syscall → Except String FileStat

/-- A descriptor that is handed out is not open. -/
def Kernel.Fresh (k : Kernel) : Prop :=
  ∀ trace held fd, heldAfter [] (handles trace) = some held → k.descriptor trace = .ok fd →
    fd ∉ held

/-! ## The code -/

def outputUnavailable : String := "job output unavailable"

/-- The flags of `walkOpenNoFollow`. -/
def walkFlags (directory : Bool) : OpenFlags := ⟨directory, true, true, true⟩

/-- The loop of `walkOpenNoFollow` over the components. -/
def walkComponents (k : Kernel) (finalDirectory : Bool) :
    List String → Descriptor → List Syscall → Except String Descriptor × List Syscall
  | [], currentFD, trace => (.ok currentFD, trace)
  | component :: rest, currentFD, trace =>
    if component = "" ∨ component = "." ∨ component = ".." then
      (.error outputUnavailable, trace ++ [.close currentFD])
    else
      let flags := walkFlags (rest ≠ [] || finalDirectory)
      let result := k.descriptor trace
      let trace := trace ++ [.openat currentFD component flags result, .close currentFD]
      match result with
      | .error err => (.error err, trace)
      | .ok nextFD => walkComponents k finalDirectory rest nextFD trace

/-- `strings.Split` at slashes. -/
def splitComponents (relativePath : String) : List String :=
  (relativePath.toList.splitOn '/').map String.ofList

def walkOpenNoFollow (k : Kernel) (startFD : Descriptor) (relativePath : String)
    (finalDirectory : Bool) (trace : List Syscall) : Except String Descriptor × List Syscall :=
  walkComponents k finalDirectory (splitComponents relativePath) startFD trace

/-- `openRelativeFileNoFollow`. -/
def openRelativeFileNoFollow (k : Kernel) (rootFD : Descriptor) (relativePath : String)
    (trace : List Syscall) : Except String (Descriptor × FileStat) × List Syscall :=
  let result := k.descriptor trace
  let trace := trace ++ [.dup rootFD result]
  match result with
  | .error err => (.error err, trace)
  | .ok duplicate =>
    match walkOpenNoFollow k duplicate relativePath false trace with
    | (.error err, trace) => (.error err, trace)
    | (.ok fileFD, trace) =>
      let result := k.stat trace
      let trace := trace ++ [.fstat fileFD result]
      match result with
      | .error _ => (.error outputUnavailable, trace ++ [.close fileFD])
      | .ok stat =>
        if stat.regular then (.ok (fileFD, stat), trace)
        else (.error outputUnavailable, trace ++ [.close fileFD])

/-- `strings.TrimPrefix` of a slash. -/
def trimSlash (path : String) : String :=
  match path.toList with
  | '/' :: rest => String.ofList rest
  | _ => path

/-- `openAbsoluteFileNoFollow`, with its calls. -/
def openAbsoluteFileNoFollow (k : Kernel) (path : String) :
    Except String (Descriptor × FileStat) × List Syscall :=
  if validJobOutputPath path = false then (.error outputUnavailable, [])
  else
    let result := k.descriptor []
    let trace := [.open ⟨true, true, false, false⟩ result]
    match result with
    | .error err => (.error err, trace)
    | .ok rootFD =>
      match openRelativeFileNoFollow k rootFD (trimSlash path) trace with
      | (opened, trace) => (opened, trace ++ [.close rootFD])

/-! ## Components -/

def pathComponents (path : String) : List String := splitComponents (trimSlash path)

def Proper (component : String) : Prop := component ≠ "" ∧ component ≠ "." ∧ component ≠ ".."

theorem trimSlash_toList {path : String} {rest : List Char} (h : path.toList = '/' :: rest) :
    (trimSlash path).toList = rest := by
  unfold trimSlash
  rw [h]
  exact String.toList_ofList

/-- The walk's check of the components never fails on a valid path. -/
theorem pathComponents_proper {path : String} (h : validJobOutputPath path = true) :
    pathComponents path ≠ [] ∧ ∀ component ∈ pathComponents path, Proper component := by
  unfold validJobOutputPath at h
  rw [Bool.and_eq_true, Bool.and_eq_true, decide_eq_true_eq, decide_eq_true_eq] at h
  obtain ⟨components, hchars, hne, hproper⟩ := clean_components h.1.1 h.1.2 h.2
  have hsplit : pathComponents path = components.map String.ofList := by
    unfold pathComponents splitComponents
    rw [trimSlash_toList hchars,
      List.splitOn_intercalate '/' (fun c hc => (hproper c hc).noSlash) hne]
  rw [hsplit]
  refine ⟨by simpa using hne, fun component hcomponent => ?_⟩
  obtain ⟨c, hc, rfl⟩ := List.mem_map.mp hcomponent
  have hc' := hproper c hc
  refine ⟨fun h => hc'.nonempty ?_, fun h => hc'.notDot ?_, fun h => hc'.notDotDot ?_⟩
  all_goals
    rw [← String.toList_inj, String.toList_ofList] at h
    exact h

/-! ## The walk -/

/-- An `openat` of the walk. -/
structure Opened where
  dir : Descriptor
  component : String
  flags : OpenFlags
  result : Except String Descriptor

/-- An `openat`, after which its directory is closed. -/
def Opened.calls (step : Opened) : List Syscall :=
  [.openat step.dir step.component step.flags step.result, .close step.dir]

/-- The steps from a directory along some components: each one in the directory that the step
    before it has opened, to the end or to the first failure. -/
inductive Walk (finalDirectory : Bool) :
    Descriptor → List String → List Opened → Except String Descriptor → Prop
  | done (fd : Descriptor) : Walk finalDirectory fd [] [] (.ok fd)
  | failed (fd : Descriptor) (component : String) (rest : List String) (err : String) :
      Walk finalDirectory fd (component :: rest)
        [⟨fd, component, walkFlags (rest ≠ [] || finalDirectory), .error err⟩] (.error err)
  | next {fd next : Descriptor} {component : String} {rest : List String} {steps : List Opened}
      {result : Except String Descriptor} : Walk finalDirectory next rest steps result →
      Walk finalDirectory fd (component :: rest)
        (⟨fd, component, walkFlags (rest ≠ [] || finalDirectory), .ok next⟩ :: steps) result

theorem Walk.components {finalDirectory : Bool} {fd : Descriptor} {components : List String}
    {steps : List Opened} {result : Except String Descriptor}
    (h : Walk finalDirectory fd components steps result) :
    steps.map Opened.component <+: components := by
  induction h with
  | done fd => exact List.nil_prefix
  | failed fd component rest err =>
    exact List.cons_prefix_cons.mpr ⟨rfl, List.nil_prefix⟩
  | next _ ih => exact List.cons_prefix_cons.mpr ⟨rfl, ih⟩

theorem Walk.nofollow {finalDirectory : Bool} {fd : Descriptor} {components : List String}
    {steps : List Opened} {result : Except String Descriptor}
    (h : Walk finalDirectory fd components steps result) :
    ∀ step ∈ steps, step.flags.nofollow = true := by
  induction h with
  | done fd =>
    intro step hstep
    cases hstep
  | failed fd component rest err =>
    intro step hstep
    rw [List.mem_singleton.mp hstep]
    rfl
  | next _ ih =>
    intro step hstep
    rcases List.mem_cons.mp hstep with rfl | hstep
    · rfl
    · exact ih step hstep

theorem walk_calls (k : Kernel) (finalDirectory : Bool) {components : List String}
    (hproper : ∀ component ∈ components, Proper component) (fd : Descriptor)
    (trace : List Syscall) :
    ∃ steps, (walkComponents k finalDirectory components fd trace).2 =
        trace ++ steps.flatMap Opened.calls ∧
      Walk finalDirectory fd components steps
        (walkComponents k finalDirectory components fd trace).1 := by
  induction components generalizing fd trace with
  | nil => exact ⟨[], by simp [walkComponents], .done fd⟩
  | cons component rest ih =>
    have hcomponent := hproper component List.mem_cons_self
    unfold walkComponents
    rw [if_neg (by
      rintro (h | h | h)
      · exact hcomponent.1 h
      · exact hcomponent.2.1 h
      · exact hcomponent.2.2 h)]
    dsimp only
    cases hresult : k.descriptor trace with
    | error err => exact ⟨[_], by simp [Opened.calls], .failed fd component rest err⟩
    | ok next =>
      obtain ⟨steps, htrace, hwalk⟩ :=
        ih (fun c hc => hproper c (List.mem_cons_of_mem component hc)) next (trace ++
          [.openat fd component (walkFlags (rest ≠ [] || finalDirectory)) (.ok next), .close fd])
      refine ⟨_ :: steps, ?_, hwalk.next⟩
      dsimp only
      rw [htrace, List.flatMap_cons, List.append_assoc]
      rfl

/-! ## Descriptors -/

/-- What is open after the calls. -/
def Holds (trace : List Syscall) (held : List Descriptor) : Prop :=
  heldAfter [] (handles trace) = some held

theorem Holds.nodup {trace : List Syscall} {held : List Descriptor} (h : Holds trace held) :
    held.Nodup :=
  heldAfter_nodup List.nodup_nil h

theorem Holds.append {trace calls : List Syscall} {held held' : List Descriptor}
    (h : Holds trace held) (hcalls : heldAfter held (handles calls) = some held') :
    Holds (trace ++ calls) held' := by
  unfold Holds handles at *
  rw [List.filterMap_append, heldAfter_append, h]
  exact hcalls

/-- A call that fails, or that opens and closes nothing. -/
theorem Holds.idle {trace : List Syscall} {held : List Descriptor} (h : Holds trace held)
    (call : Syscall) (hcall : call.handle = none) : Holds (trace ++ [call]) held := by
  refine h.append ?_
  unfold handles
  rw [List.filterMap_cons_none hcall]
  rfl

theorem Holds.acquire {k : Kernel} (hfresh : k.Fresh) {trace : List Syscall}
    {held : List Descriptor} (h : Holds trace held) {fd : Descriptor}
    (hfd : k.descriptor trace = .ok fd) (call : Syscall)
    (hcall : call.handle = some (.acquire fd)) :
    Holds (trace ++ [call]) (fd :: held) := by
  refine h.append ?_
  unfold handles
  rw [List.filterMap_cons_some hcall]
  exact congrArg (Option.bind · _) (if_neg (hfresh trace held fd h hfd))

theorem Holds.close {trace : List Syscall} {held : List Descriptor} (h : Holds trace held)
    {fd : Descriptor} (hfd : fd ∈ held) : Holds (trace ++ [.close fd]) (held.erase fd) := by
  refine h.append ?_
  exact congrArg (Option.bind · _) (if_pos hfd)

theorem Holds.close_head {trace : List Syscall} {fd : Descriptor} {held : List Descriptor}
    (h : Holds trace (fd :: held)) : Holds (trace ++ [.close fd]) held := by
  have hclosed := h.close List.mem_cons_self
  rwa [List.erase_cons_head] at hclosed

/-- The descriptor that an answer hands on. -/
def leftOpen {α : Type} (descriptor : α → Descriptor) : Except String α → List Descriptor
  | .ok a => [descriptor a]
  | .error _ => []

/-- Of the descriptors of the walk one is open at a time, and the last one at its end. -/
theorem walk_held {k : Kernel} (hfresh : k.Fresh) (finalDirectory : Bool)
    (components : List String) {fd : Descriptor} {held : List Descriptor} {trace : List Syscall}
    (h : Holds trace (fd :: held)) :
    Holds (walkComponents k finalDirectory components fd trace).2
      (leftOpen id (walkComponents k finalDirectory components fd trace).1 ++ held) := by
  induction components generalizing fd trace with
  | nil => exact h
  | cons component rest ih =>
    unfold walkComponents
    split
    · exact h.close_head
    · cases hresult : k.descriptor trace with
      | error err =>
        have hclosed := (h.idle (.openat fd component
          (walkFlags (rest ≠ [] || finalDirectory)) (.error err)) rfl).close_head
        rw [List.append_assoc] at hclosed
        exact hclosed
      | ok next =>
        have hopened := h.acquire hfresh hresult (.openat fd component
          (walkFlags (rest ≠ [] || finalDirectory)) (.ok next)) rfl
        have hne : next ≠ fd := by
          have hnodup := hopened.nodup
          rw [List.nodup_cons, List.mem_cons, not_or] at hnodup
          exact hnodup.1.1
        have hclosed := hopened.close (List.mem_cons_of_mem next List.mem_cons_self)
        rw [List.erase_cons_tail (by simpa using hne), List.erase_cons_head,
          List.append_assoc] at hclosed
        exact ih hclosed

/-! ## The file -/

/-- The `openat` calls of a trace. -/
def openats (trace : List Syscall) : List Opened :=
  trace.filterMap fun call =>
    match call with
    | .openat dir component flags result => some ⟨dir, component, flags, result⟩
    | _ => none

theorem openats_append (trace trace' : List Syscall) :
    openats (trace ++ trace') = openats trace ++ openats trace' :=
  List.filterMap_append

theorem openats_flatMap (steps : List Opened) : openats (steps.flatMap Opened.calls) = steps := by
  induction steps with
  | nil => rfl
  | cons step steps ih =>
    rw [List.flatMap_cons, openats, List.filterMap_append]
    exact congrArg (step :: ·) ih

/-- What `openRelativeFileNoFollow` does: it gets no descriptor of its own, or it walks. -/
theorem relative_calls (k : Kernel) {relativePath : String}
    (hproper : ∀ component ∈ splitComponents relativePath, Proper component)
    (rootFD : Descriptor) (trace : List Syscall) :
    (∃ err, openRelativeFileNoFollow k rootFD relativePath trace =
      (.error err, trace ++ [.dup rootFD (.error err)])) ∨
    ∃ start steps ended last, Walk false start (splitComponents relativePath) steps ended ∧
      (openRelativeFileNoFollow k rootFD relativePath trace).2 =
        trace ++ .dup rootFD (.ok start) :: steps.flatMap Opened.calls ++ last ∧
      openats last = [] ∧
      ∀ fd stat, (openRelativeFileNoFollow k rootFD relativePath trace).1 = .ok (fd, stat) →
        ended = .ok fd ∧ stat.regular = true := by
  unfold openRelativeFileNoFollow
  dsimp only
  cases hdup : k.descriptor trace with
  | error err => exact .inl ⟨err, rfl⟩
  | ok start =>
    right
    obtain ⟨steps, htrace, hwalk⟩ :=
      walk_calls k false hproper start (trace ++ [.dup rootFD (.ok start)])
    have hcalls : trace ++ [Syscall.dup rootFD (.ok start)] ++ steps.flatMap Opened.calls =
        trace ++ .dup rootFD (.ok start) :: steps.flatMap Opened.calls := by
      rw [List.append_assoc, List.singleton_append]
    rw [hcalls] at htrace
    unfold walkOpenNoFollow
    dsimp only
    generalize walkComponents k false (splitComponents relativePath) start
      (trace ++ [.dup rootFD (.ok start)]) = walked at htrace hwalk ⊢
    obtain ⟨ended, walkTrace⟩ := walked
    dsimp only at htrace hwalk ⊢
    subst htrace
    cases ended with
    | error err =>
      refine ⟨start, steps, .error err, [], hwalk, (List.append_nil _).symm, rfl, ?_⟩
      intro fd stat h
      cases h
    | ok fileFD =>
      dsimp only
      cases k.stat (trace ++ .dup rootFD (.ok start) :: steps.flatMap Opened.calls) with
      | error err =>
        refine ⟨start, steps, .ok fileFD, [.fstat fileFD (.error err), .close fileFD], hwalk,
          by rw [List.append_assoc]; rfl, rfl, ?_⟩
        intro fd stat h
        cases h
      | ok stat =>
        dsimp only
        split
        · next hregular =>
          refine ⟨start, steps, .ok fileFD, [.fstat fileFD (.ok stat)], hwalk, rfl, rfl, ?_⟩
          intro fd stat' h
          cases h
          exact ⟨rfl, hregular⟩
        · refine ⟨start, steps, .ok fileFD, [.fstat fileFD (.ok stat), .close fileFD], hwalk,
            by rw [List.append_assoc]; rfl, rfl, ?_⟩
          intro fd stat' h
          cases h

/-- It leaves the file open when it succeeds, and nothing otherwise. -/
theorem relative_held {k : Kernel} (hfresh : k.Fresh) (rootFD : Descriptor)
    (relativePath : String) {held : List Descriptor} {trace : List Syscall} (h : Holds trace held) :
    Holds (openRelativeFileNoFollow k rootFD relativePath trace).2
      (leftOpen Prod.fst (openRelativeFileNoFollow k rootFD relativePath trace).1 ++ held) := by
  unfold openRelativeFileNoFollow
  dsimp only
  cases hdup : k.descriptor trace with
  | error err => exact h.idle _ rfl
  | ok start =>
    have hstart := h.acquire hfresh hdup (.dup rootFD (.ok start)) rfl
    have hwalk := walk_held hfresh false (splitComponents relativePath) hstart
    unfold walkOpenNoFollow
    dsimp only
    generalize walkComponents k false (splitComponents relativePath) start
      (trace ++ [.dup rootFD (.ok start)]) = walked at hwalk ⊢
    obtain ⟨ended, walkTrace⟩ := walked
    cases ended with
    | error err => exact hwalk
    | ok fileFD =>
      have hfile : Holds walkTrace (fileFD :: held) := hwalk
      dsimp only
      cases k.stat walkTrace with
      | error err =>
        dsimp only
        exact (hfile.idle _ rfl).close_head
      | ok stat =>
        dsimp only
        split
        · exact hfile.idle _ rfl
        · exact (hfile.idle _ rfl).close_head

/-- What `openAbsoluteFileNoFollow` does with the descriptors: each one that it has got is
    closed once, but for the file's. -/
theorem absolute_held {k : Kernel} (hfresh : k.Fresh) (path : String) :
    Holds (openAbsoluteFileNoFollow k path).2
      (leftOpen Prod.fst (openAbsoluteFileNoFollow k path).1) := by
  have hempty : Holds [] [] := rfl
  unfold openAbsoluteFileNoFollow
  split
  · exact hempty
  · dsimp only
    cases hroot : k.descriptor [] with
    | error err => exact hempty.idle _ rfl
    | ok rootFD =>
      have hopen := hempty.acquire hfresh hroot (.open ⟨true, true, false, false⟩ (.ok rootFD)) rfl
      rw [List.nil_append] at hopen
      have hrelative := relative_held hfresh rootFD (trimSlash path) hopen
      dsimp only
      generalize openRelativeFileNoFollow k rootFD (trimSlash path)
        [.open ⟨true, true, false, false⟩ (.ok rootFD)] = opened at hrelative ⊢
      obtain ⟨result, trace⟩ := opened
      cases result with
      | error err => exact hrelative.close_head
      | ok file =>
        have hfile : Holds trace [file.1, rootFD] := hrelative
        have hne : file.1 ≠ rootFD := by
          have hnodup := hfile.nodup
          rw [List.nodup_cons, List.mem_singleton] at hnodup
          exact hnodup.1
        have hclosed := hfile.close (List.mem_cons_of_mem file.1 List.mem_cons_self)
        rwa [List.erase_cons_tail (by simpa using hne), List.erase_cons_head] at hclosed

/-- How the file of a path is looked for: the root is opened and duplicated, and the components
    are walked from there. -/
theorem absolute_calls (k : Kernel) {path : String} (hpath : validJobOutputPath path = true) :
    (openats (openAbsoluteFileNoFollow k path).2 = [] ∧
      ∃ err, (openAbsoluteFileNoFollow k path).1 = .error err) ∨
    ∃ rootFD start ended rest,
      (openAbsoluteFileNoFollow k path).2 =
        .open ⟨true, true, false, false⟩ (.ok rootFD) :: .dup rootFD (.ok start) :: rest ∧
      Walk false start (pathComponents path) (openats (openAbsoluteFileNoFollow k path).2)
        ended ∧
      ∀ fd stat, (openAbsoluteFileNoFollow k path).1 = .ok (fd, stat) →
        ended = .ok fd ∧ stat.regular = true := by
  unfold openAbsoluteFileNoFollow
  rw [if_neg (by simp [hpath])]
  dsimp only
  cases hroot : k.descriptor [] with
  | error err => exact .inl ⟨rfl, err, rfl⟩
  | ok rootFD =>
    rcases relative_calls k (pathComponents_proper hpath).2 rootFD
      [.open ⟨true, true, false, false⟩ (.ok rootFD)] with
      ⟨err, heq⟩ | ⟨start, steps, ended, last, hwalk, htrace, hlast, hresult⟩
    · left
      dsimp only
      rw [heq]
      exact ⟨rfl, err, rfl⟩
    · right
      refine ⟨rootFD, start, ended, steps.flatMap Opened.calls ++ last ++ [.close rootFD], ?_, ?_,
        hresult⟩
      · dsimp only
        rw [htrace]
        simp
      · have hsteps : openats ((openRelativeFileNoFollow k rootFD (trimSlash path)
            [.open ⟨true, true, false, false⟩ (.ok rootFD)]).2 ++ [.close rootFD]) = steps := by
          rw [htrace, openats_append, openats_append, hlast, List.append_nil]
          exact (List.append_nil _).trans (openats_flatMap steps)
        dsimp only
        rw [hsteps]
        exact hwalk

section Example

/-- A kernel that opens nothing. -/
private def closedKernel : Kernel := ⟨fun _ => .error "permission denied", fun _ => .error ""⟩

private theorem closedKernel_fresh : closedKernel.Fresh := by
  intro trace held fd _ h
  cases h

end Example

end OpenHpcWeb.Web
