/-
  Down, drain and resume of a node, from the node page to Slurm: `setNodeAvailability` of
  internal/web/app.go over `SetNodeState` of internal/slurm, with templates/nodes.html and the
  dialogs of static/app.js.

  Down and drain have a dialog with a form of its own. Resume is a form for each node, which has
  its state in its button and asks with the dialog of `ConfirmDialog` first.

  * `setNodeAvailability_executed`: what the handler asks of Slurm.
  * `Ok.step`: the dialog shows the node and the state that its form has.
  * `node_actions`: what comes of a form that the page has sent, in every run.
-/
import OpenHpcWeb.Go.RuneBytes
import OpenHpcWeb.Slurm.ReadYourWrites
import OpenHpcWeb.Web.ConfirmDialog
import OpenHpcWeb.Web.FormBody
import OpenHpcWeb.Web.Partitions

namespace OpenHpcWeb.Web

open OpenHpcWeb.Go OpenHpcWeb.Cluster OpenHpcWeb.Slurm OpenHpcWeb.Lib OpenHpcWeb.Platform

/-! ## The handler -/

/-- `cluster.NodeState` of a text. -/
def nodeStateOf (text : String) : NodeState :=
  if text = "down" then .down
  else if text = "drain" then .drain
  else if text = "resume" then .resume
  else .other text

def validNodeState : NodeState → Bool
  | .down | .drain | .resume => true
  | .other _ => false

def requiresNodeReason : NodeState → Bool
  | .down | .drain => true
  | _ => false

def nodeStateAuditAction (state : NodeState) : String := "slurm.node.state." ++ nodeStateText state

/-- What a request brings and meets, besides its form. -/
structure AvailabilityRequest where
  actor : String
  nodes : Except String (List Node)
  auditFault : Option String
  now : Time

inductive AvailabilityAnswer where
  | httpError (status : Nat)
  /-- to /slurm/nodes, with this query -/
  | nodes (key value : String)
  deriving DecidableEq

structure AvailabilityWorld (σ : Type) where
  slurm : Session σ
  audit : List AuditEvent

variable {σ P : Type}

def AvailabilityWorld.recordAudit (w : AvailabilityWorld σ) (r : AvailabilityRequest)
    (action outcome : String) : AvailabilityWorld σ :=
  match r.auditFault with
  | some _ => w
  | none => { w with audit := w.audit ++ [⟨r.actor, action, outcome, r.now⟩] }

/-- `setNodeAvailability` from Slurm's answer on. -/
def availabilityDone (r : AvailabilityRequest) (state : NodeState)
    (updated : Except String Unit × Session σ) (w : AvailabilityWorld σ) :
    AvailabilityAnswer × AvailabilityWorld σ :=
  let w := { w with slurm := updated.2 }
  match updated.1 with
  | .error _ =>
    (.nodes "error" "update_failed", w.recordAudit r (nodeStateAuditAction state) "failed")
  | .ok () =>
    (.nodes "saved" (nodeStateText state), w.recordAudit r (nodeStateAuditAction state) "success")

/-- `fields` is `none` where `ParseForm` refuses. -/
def setNodeAvailability (cfg : ClientConfig σ P) (r : AvailabilityRequest)
    (fields : Option (List (String × String))) (w : AvailabilityWorld σ) :
    AvailabilityAnswer × AvailabilityWorld σ :=
  match fields with
  | none => (.httpError 400, w)
  | some fields =>
    let name := trimSpace (formValue fields "name")
    let state := nodeStateOf (trimSpace (formValue fields "state"))
    let reason := trimSpace (formValue fields "reason")
    if name = "" ∨ validNodeState state = false then (.httpError 400, w)
    else if requiresNodeReason state = true ∧ reason = "" then
      (.nodes "error" "reason_required", w)
    else
      let reason := if state = .resume then "" else reason
      match r.nodes with
      | .error _ => (.httpError 503, w)
      | .ok nodes =>
        if name ∉ nodes.map Node.name then (.httpError 400, w)
        else availabilityDone r state (setNodeState cfg name state reason w.slurm) w

/-- The route, in the session of an administrator whose token the form has. -/
def postNodeState (cfg : ClientConfig σ P) (r : AvailabilityRequest) (body : List UInt8)
    (w : AvailabilityWorld σ) : AvailabilityAnswer × AvailabilityWorld σ :=
  match requestBodyLimit body with
  | some status => (.httpError status, w)
  | none => setNodeAvailability cfg r (readFields body) w

/-! ## What Slurm is asked -/

/-- The command of `SetNodeState`. -/
def nodeCommand (name : String) (state : NodeState) (reason : String) : Command :=
  ⟨"scontrol", ["update", "nodename=" ++ name, "state=" ++ nodeStateText state] ++
    if reason ≠ "" then ["reason=" ++ reason] else []⟩

/-- A reason that goes with a state. -/
def ReasonFor (state : NodeState) (reason : String) : Prop :=
  if state = .resume then reason = ""
  else reason ≠ "" ∧ byteLen reason ≤ maxNodeReasonLength ∧ DetailText reason

/-- A request that is passed on: the node is live and its name can be a word of a command, and
    the reason is a short line. -/
structure Orderly (r : AvailabilityRequest) (name : String) (state : NodeState)
    (reason : String) : Prop where
  live : ∃ nodes, r.nodes = .ok nodes ∧ name ∈ nodes.map Node.name
  name : trimSpace name ≠ "" ∧ ArgText name
  reason : ReasonFor state reason

theorem validateNodeName_ok_iff (name : String) :
    validateNodeName name = .ok () ↔ trimSpace name ≠ "" ∧ ArgText name := by
  unfold validateNodeName ArgText
  have hdetail := validateDetailStrings_ok_iff [name]
  simp only [List.mem_singleton, forall_eq] at hdetail
  rw [← hdetail]
  split
  · next h => simp [h]
  · next h =>
    cases hd : validateDetailStrings [name] with
    | error e => simp [bind, Except.bind]
    | ok u => simp [bind, Except.bind, h]

theorem validateNodeState_ok_iff {state : NodeState} (hstate : validNodeState state = true)
    (reason : String) : validateNodeState state reason = .ok () ↔ ReasonFor state reason := by
  have hdetail := validateDetailStrings_ok_iff [reason]
  simp only [List.mem_singleton, forall_eq] at hdetail
  have hreason : (if reason = "" then .error "node state reason is required"
      else if maxNodeReasonLength < byteLen reason then
        .error "node state reason exceeds maximum length"
      else validateDetailStrings [reason] : Except String Unit) = .ok () ↔
      reason ≠ "" ∧ byteLen reason ≤ maxNodeReasonLength ∧ DetailText reason := by
    rw [← hdetail]
    split
    · next h => simp [h]
    · next h =>
      split
      · next hlen => simp [Nat.not_le.mpr hlen]
      · next hlen => simp [h, Nat.not_lt.mp hlen]
  unfold ReasonFor
  cases state with
  | down =>
    rw [if_neg (by decide)]
    exact hreason
  | drain =>
    rw [if_neg (by decide)]
    exact hreason
  | resume =>
    rw [if_pos rfl]
    unfold validateNodeState
    dsimp only
    split
    · next h => simp [h]
    · next h => simpa using h
  | other text => cases hstate

/-- `SetNodeState` refuses, or it runs one command. -/
theorem setNodeState_cases (cfg : ClientConfig σ P) (name : String) {state : NodeState}
    (hstate : validNodeState state = true) {reason : String} (htrim : trimSpace reason = reason)
    (w : Session σ) :
    ((trimSpace name ≠ "" ∧ ArgText name) ∧ ReasonFor state reason ∧
      (setNodeState cfg name state reason w).2.scheduler.executed =
        w.scheduler.executed ++ [nodeCommand name state reason]) ∨
    (¬((trimSpace name ≠ "" ∧ ArgText name) ∧ ReasonFor state reason) ∧
      (∃ err, (setNodeState cfg name state reason w).1 = .error err) ∧
      (setNodeState cfg name state reason w).2 = w) := by
  rw [← validateNodeName_ok_iff, ← validateNodeState_ok_iff hstate]
  unfold setNodeState
  rw [htrim]
  cases hname : validateNodeName name with
  | error err => exact .inr ⟨fun h => (nomatch h.1), ⟨err, rfl⟩, rfl⟩
  | ok u =>
    dsimp only
    cases hvalid : validateNodeState state reason with
    | error err => exact .inr ⟨fun h => (nomatch h.2), ⟨err, rfl⟩, rfl⟩
    | ok u =>
      have hargs : (if reason ≠ "" then
          ["update", "nodename=" ++ name, "state=" ++ nodeStateText state] ++ ["reason=" ++ reason]
        else ["update", "nodename=" ++ name, "state=" ++ nodeStateText state]) =
          (nodeCommand name state reason).args := by
        unfold nodeCommand
        split <;> simp
      refine .inl ⟨rfl, rfl, ?_⟩
      dsimp only
      rw [hargs]
      have hexecuted := run_executed cfg.client "scontrol" (nodeCommand name state reason).args
        w.scheduler
      split
      · exact hexecuted
      · exact hexecuted

/-- What the handler has done when it answers: it has passed on an orderly request; of any other
    it has asked Slurm for nothing, and does not say that the node has the state. -/
def Asked (r : AvailabilityRequest) (w : AvailabilityWorld σ) (name : String) (state : NodeState)
    (reason : String) (result : AvailabilityAnswer × AvailabilityWorld σ) : Prop :=
  (Orderly r name state reason ∧ result.2.slurm.scheduler.executed =
    w.slurm.scheduler.executed ++ [nodeCommand name state reason]) ∨
  (¬Orderly r name state reason ∧ result.2.slurm = w.slurm ∧
    result.1 ≠ .nodes "saved" (nodeStateText state))

theorem setNodeAvailability_executed (cfg : ClientConfig σ P) (r : AvailabilityRequest)
    {fields : List (String × String)} (w : AvailabilityWorld σ) {name reason : String}
    {state : NodeState} (hname : trimSpace (formValue fields "name") = name)
    (hstate : nodeStateOf (trimSpace (formValue fields "state")) = state)
    (hvalid : validNodeState state = true)
    (hreason : (if state = .resume then "" else trimSpace (formValue fields "reason")) = reason) :
    Asked r w name state reason (setNodeAvailability cfg r (some fields) w) := by
  have hnotrim : name = "" → trimSpace name = "" := by
    rintro rfl
    rfl
  unfold setNodeAvailability Asked
  dsimp only
  rw [hname, hstate]
  split
  · next hbad =>
    have hempty : name = "" := hbad.resolve_right (by simp [hvalid])
    exact .inr ⟨fun h => h.name.1 (hnotrim hempty), rfl, by simp⟩
  · split
    · next hmissing =>
      refine .inr ⟨fun h => ?_, rfl, by simp⟩
      have hstate' : state ≠ .resume := by
        rintro rfl
        cases hmissing.1
      rw [if_neg hstate', hmissing.2] at hreason
      have hfor := h.reason
      unfold ReasonFor at hfor
      rw [if_neg hstate'] at hfor
      exact hfor.1 hreason.symm
    · rw [hreason]
      cases hnodes : r.nodes with
      | error err =>
        refine .inr ⟨fun h => ?_, rfl, by simp⟩
        obtain ⟨nodes, hlive, -⟩ := h.live
        rw [hnodes] at hlive
        cases hlive
      | ok nodes =>
        dsimp only
        split
        · next hmissing =>
          refine .inr ⟨fun h => ?_, rfl, by simp⟩
          obtain ⟨nodes', hlive, hmem⟩ := h.live
          rw [hnodes] at hlive
          cases hlive
          exact hmissing hmem
        · next hlive =>
          have htrim : trimSpace reason = reason := by
            rw [← hreason]
            split
            · rfl
            · exact trimSpace_trimSpace _
          rcases setNodeState_cases cfg name hvalid htrim w.slurm with
            ⟨hname', hfor, hexecuted⟩ | ⟨hno, ⟨err, herr⟩, hsame⟩
          · refine .inl ⟨⟨⟨nodes, hnodes, not_not.mp hlive⟩, hname', hfor⟩, ?_⟩
            rw [← hexecuted]
            unfold availabilityDone AvailabilityWorld.recordAudit
            split <;> split <;> rfl
          · refine .inr ⟨fun h => hno ⟨h.name, h.reason⟩, ?_, ?_⟩
            · unfold availabilityDone AvailabilityWorld.recordAudit
              rw [herr]
              dsimp only
              split <;> exact hsame
            · unfold availabilityDone
              rw [herr]
              simp

/-- A form without a state is refused. -/
theorem setNodeAvailability_no_state (cfg : ClientConfig σ P) (r : AvailabilityRequest)
    {fields : List (String × String)} (w : AvailabilityWorld σ)
    (hstate : formValue fields "state" = "") :
    setNodeAvailability cfg r (some fields) w = (.httpError 400, w) := by
  unfold setNodeAvailability
  dsimp only
  rw [hstate, if_pos (.inr rfl)]

/-! ## The page -/

/-- What the page is made with. -/
structure NodesPage where
  language : String
  csrfToken : String
  names : List String

/-- The states that the dialog is for. -/
inductive DialogState where
  | down
  | drain
  deriving DecidableEq

def DialogState.state : DialogState → NodeState
  | .down => .down
  | .drain => .drain

/-- `data-node-action-label`: the texts `DownNode` and `DrainNode` of `detailCopyFor`. -/
def NodesPage.actionLabel (page : NodesPage) : DialogState → String
  | .down => if page.language = "en" then "Down" else "下线Down"
  | .drain => if page.language = "en" then "Drain" else "维护Drain"

/-- `data-confirm` of the form that resumes a node. -/
def NodesPage.resumeQuestion (page : NodesPage) (name : String) : String :=
  if page.language = "en" then "Resume " ++ name ++ " and return it to service?"
  else "确认恢复 " ++ name ++ " 并重新投入服务？"

/-- The forms that resume a node, one for each row. -/
def NodesPage.resumeForms (page : NodesPage) : List ConfirmForm :=
  page.names.map fun name =>
    { fields := [("_csrf", page.csrfToken), ("name", name)]
      button := some ("state", "resume")
      question := some (page.resumeQuestion name) }

structure DialogSent where
  /-- what the title of the dialog said -/
  title : String
  fields : List (String × String)
  deriving DecidableEq

structure NodesPageState where
  confirm : ConfirmPage
  opened : Bool
  title : String
  /-- the inputs of the dialog's form -/
  name : String
  state : String
  reason : String
  /-- `close` events to come -/
  closing : Nat
  sent : List DialogSent
  deriving DecidableEq

inductive NodesAction where
  | confirm (action : ConfirmAction)
  /-- a click on the button of a row that opens the dialog -/
  | trigger (row : Nat) (state : DialogState)
  | type (reason : String)
  | close
  /-- the `close` event -/
  | closed
  | submit
  deriving DecidableEq

/-- The length of a text in a browser. -/
def utf16Length (s : String) : Nat :=
  (s.toList.map fun c => if c.toNat < 0x10000 then 1 else 2).sum

namespace NodesPageState

def start : NodesPageState := ⟨.start, false, "", "", "", "", 0, []⟩

/-- While one of the dialogs is open, only that one can be used. The browser takes one line of
    at most 256 units as a reason, and does not send the form without one. -/
def step (page : NodesPage) (s : NodesPageState) : NodesAction → Option NodesPageState
  | .confirm action =>
    if s.opened = true ∧ action ≠ .closed then none
    else (ConfirmPage.step page.resumeForms s.confirm action).map fun confirm =>
      { s with confirm := confirm }
  | .trigger row state =>
    match page.names[row]? with
    | none => none
    | some name =>
      if s.opened = true ∨ s.confirm.opened = true then none
      else some { s with
        opened := true
        title := page.actionLabel state ++ ": " ++ name
        name := name
        state := nodeStateText state.state
        reason := "" }
  | .type reason =>
    if s.opened = true ∧ utf16Length reason ≤ 256 ∧ '\r' ∉ reason.toList ∧
        '\n' ∉ reason.toList then
      some { s with reason := reason }
    else none
  | .close =>
    if s.opened = true then some { s with opened := false, closing := s.closing + 1 } else none
  | .closed =>
    if s.closing = 0 then none else some { s with closing := s.closing - 1, reason := "" }
  | .submit =>
    if s.opened = true ∧ s.reason ≠ "" then
      some { s with sent := s.sent ++ [⟨s.title, [("_csrf", page.csrfToken), ("name", s.name),
        ("state", s.state), ("reason", s.reason)]⟩] }
    else none

/-! ## What the page sends -/

variable {page : NodesPage} {s s' : NodesPageState}

/-- The reasons that can be in the input. -/
def Typed (reason : String) : Prop := utf16Length reason ≤ 256 ∧ OneLine reason

/-- A form of the dialog says what its title says. -/
structure DialogSends (page : NodesPage) (m : DialogSent) : Prop where
  sends : ∃ name ∈ page.names, ∃ state : DialogState, ∃ reason, reason ≠ "" ∧ Typed reason ∧
    m.title = page.actionLabel state ++ ": " ++ name ∧
    m.fields = [("_csrf", page.csrfToken), ("name", name),
      ("state", nodeStateText state.state), ("reason", reason)]

structure Ok (page : NodesPage) (s : NodesPageState) : Prop where
  confirm : ConfirmPage.Ok page.resumeForms s.confirm
  dialog : s.opened = true → ∃ name ∈ page.names, ∃ state : DialogState, s.name = name ∧
    s.state = nodeStateText state.state ∧ s.title = page.actionLabel state ++ ": " ++ name
  typed : Typed s.reason
  sent : ∀ m ∈ s.sent, DialogSends page m

theorem typed_empty : Typed "" := by
  refine ⟨by decide, ?_⟩
  unfold OneLine
  decide

theorem ok_start : Ok page start where
  confirm := ConfirmPage.ok_start
  dialog h := by cases h
  typed := typed_empty
  sent m h := by cases h

theorem Ok.step (h : Ok page s) {a : NodesAction} (hstep : step page s a = some s') :
    Ok page s' := by
  cases a with
  | confirm action =>
    simp only [NodesPageState.step] at hstep
    split at hstep
    · cases hstep
    · obtain ⟨confirm, hconfirm, rfl⟩ := Option.map_eq_some_iff.mp hstep
      exact ⟨h.confirm.step hconfirm, h.dialog, h.typed, h.sent⟩
  | trigger row state =>
    simp only [NodesPageState.step] at hstep
    split at hstep
    · cases hstep
    · next name hname =>
      split at hstep
      · cases hstep
      · cases hstep
        exact ⟨h.confirm, fun _ => ⟨name, List.mem_of_getElem? hname, state, rfl, rfl, rfl⟩,
          typed_empty, h.sent⟩
  | type reason =>
    simp only [NodesPageState.step] at hstep
    split at hstep
    · next hreason =>
      cases hstep
      exact ⟨h.confirm, h.dialog, hreason.2, h.sent⟩
    · cases hstep
  | close =>
    simp only [NodesPageState.step] at hstep
    split at hstep
    · cases hstep
      exact ⟨h.confirm, fun hopened => (nomatch hopened), h.typed, h.sent⟩
    · cases hstep
  | closed =>
    simp only [NodesPageState.step] at hstep
    split at hstep
    · cases hstep
    · cases hstep
      exact ⟨h.confirm, h.dialog, typed_empty, h.sent⟩
  | submit =>
    simp only [NodesPageState.step] at hstep
    split at hstep
    · next hready =>
      cases hstep
      refine ⟨h.confirm, h.dialog, h.typed, fun m hm => ?_⟩
      rcases List.mem_append.mp hm with hm | hm
      · exact h.sent m hm
      · rw [List.mem_singleton.mp hm]
        obtain ⟨name, hname, state, heq, hstate, htitle⟩ := h.dialog hready.1
        refine ⟨name, hname, state, s.reason, hready.2, h.typed, htitle, ?_⟩
        rw [heq, hstate]
    · cases hstep

end NodesPageState

/-! ## From the page to Slurm -/

theorem byteLen_le_utf16Length (s : String) : byteLen s ≤ 3 * utf16Length s := by
  have hchar : ∀ c : Char, (String.utf8EncodeChar c).length ≤
      3 * if c.toNat < 0x10000 then 1 else 2 := by
    intro c
    rw [String.length_utf8EncodeChar]
    split
    · next hlt =>
      have hfour : c.utf8Size ≠ 4 := by
        rw [ne_eq, Char.utf8Size_eq_four_iff, UInt32.lt_iff_toNat_lt]
        exact Nat.not_lt.mpr (Nat.le_of_lt_succ hlt)
      have hle := Char.utf8Size_le_four c
      omega
    · exact (Char.utf8Size_le_four c).trans (by decide)
  rw [← Bytes.length_encode, ← String.ofList_toList (s := s), Bytes.encode_ofList]
  unfold utf16Length
  rw [String.toList_ofList]
  induction s.toList with
  | nil => exact Nat.zero_le _
  | cons c rest ih =>
    rw [List.flatMap_cons, List.length_append, List.map_cons, List.sum_cons]
    have := hchar c
    omega

theorem oneLine_of_detailText {s : String} (h : DetailText s) : OneLine s :=
  ⟨fun hc => absurd (h.2 _ hc) (by decide), fun hc => absurd (h.2 _ hc) (by decide)⟩

section EndToEnd

variable {page : NodesPage}

/-- A form with these inputs comes to the handler as it is: it fits into the limit. -/
theorem postNodeState_eq (cfg : ClientConfig σ P) (r : AvailabilityRequest)
    (w : AvailabilityWorld σ) {fields : List (String × String)} (hne : fields ≠ [])
    (hlines : ∀ field ∈ fields, OneLine field.1 ∧ OneLine field.2)
    (hfits : (fields.map fun field => 3 * byteLen field.1 + 3 * byteLen field.2 + 2).sum ≤ 16384) :
    postNodeState cfg r (formBody fields) w = setNodeAvailability cfg r (some fields) w := by
  unfold postNodeState requestBodyLimit
  rw [if_neg (Nat.not_lt.mpr ((length_formBody_le hlines).trans hfits)),
    readFields_formBody hne hlines]

theorem oneLine_keys : OneLine "_csrf" ∧ OneLine "name" ∧ OneLine "state" ∧ OneLine "reason" ∧
    OneLine "confirmed" ∧ OneLine "true" ∧ OneLine "down" ∧ OneLine "drain" ∧ OneLine "resume" := by
  unfold OneLine
  decide

/-- What the dialog sends. -/
theorem dialog_asked (cfg : ClientConfig σ P) (r : AvailabilityRequest)
    (w : AvailabilityWorld σ) {csrfToken name reason : String} {state : DialogState}
    (hcsrf : OneLine csrfToken ∧ byteLen csrfToken ≤ 64) (hname : DetailText name)
    (hreason : NodesPageState.Typed reason) :
    Asked r w (trimSpace name) state.state (trimSpace reason)
      (postNodeState cfg r (formBody [("_csrf", csrfToken), ("name", name),
        ("state", nodeStateText state.state), ("reason", reason)]) w) := by
  have hkeys := oneLine_keys
  have hstate : OneLine (nodeStateText state.state) ∧ byteLen (nodeStateText state.state) ≤ 5 ∧
      nodeStateOf (trimSpace (nodeStateText state.state)) = state.state ∧
      validNodeState state.state = true ∧ state.state ≠ .resume := by
    cases state
    · exact ⟨hkeys.2.2.2.2.2.2.1, by decide, by decide +kernel, rfl, by decide⟩
    · exact ⟨hkeys.2.2.2.2.2.2.2.1, by decide, by decide +kernel, rfl, by decide⟩
  have hlength := byteLen_le_utf16Length reason
  have hshort : byteLen name ≤ 1024 := hname.1
  rw [postNodeState_eq cfg r w (List.cons_ne_nil _ _)]
  · refine setNodeAvailability_executed cfg r w rfl ?_ hstate.2.2.2.1 ?_
    · exact hstate.2.2.1
    · rw [if_neg hstate.2.2.2.2]
      rfl
  · intro field hfield
    simp only [List.mem_cons, List.not_mem_nil, or_false] at hfield
    rcases hfield with rfl | rfl | rfl | rfl
    · exact ⟨hkeys.1, hcsrf.1⟩
    · exact ⟨hkeys.2.1, oneLine_of_detailText hname⟩
    · exact ⟨hkeys.2.2.1, hstate.1⟩
    · exact ⟨hkeys.2.2.2.1, hreason.2⟩
  · have hunits := hreason.1
    have h5 : byteLen "_csrf" = 5 ∧ byteLen "name" = 4 ∧ byteLen "state" = 5 ∧
        byteLen "reason" = 6 := by decide
    simp only [List.map_cons, List.map_nil, List.sum_cons, List.sum_nil, h5.1, h5.2.1, h5.2.2.1,
      h5.2.2.2]
    omega

/-- What a form to resume a node sends when its question is accepted. -/
theorem accepted_refused (cfg : ClientConfig σ P) (r : AvailabilityRequest)
    (w : AvailabilityWorld σ) {csrfToken name : String}
    (hcsrf : OneLine csrfToken ∧ byteLen csrfToken ≤ 64) (hname : DetailText name) :
    postNodeState cfg r (formBody [("_csrf", csrfToken), ("name", name), confirmedInput]) w =
      (.httpError 400, w) := by
  have hkeys := oneLine_keys
  have hshort : byteLen name ≤ 1024 := hname.1
  rw [postNodeState_eq cfg r w (List.cons_ne_nil _ _)]
  · exact setNodeAvailability_no_state cfg r w rfl
  · intro field hfield
    simp only [List.mem_cons, List.not_mem_nil, or_false] at hfield
    rcases hfield with rfl | rfl | rfl
    · exact ⟨hkeys.1, hcsrf.1⟩
    · exact ⟨hkeys.2.1, oneLine_of_detailText hname⟩
    · exact ⟨hkeys.2.2.2.2.1, hkeys.2.2.2.2.2.1⟩
  · have hsizes : byteLen "_csrf" = 5 ∧ byteLen "name" = 4 ∧ byteLen confirmedInput.1 = 9 ∧
        byteLen confirmedInput.2 = 4 := by decide
    simp only [List.map_cons, List.map_nil, List.sum_cons, List.sum_nil, hsizes.1, hsizes.2.1,
      hsizes.2.2.1, hsizes.2.2.2]
    omega

/-- What it sends when it is clicked again. -/
theorem again_asked (cfg : ClientConfig σ P) (r : AvailabilityRequest)
    (w : AvailabilityWorld σ) {csrfToken name : String}
    (hcsrf : OneLine csrfToken ∧ byteLen csrfToken ≤ 64) (hname : DetailText name) :
    Asked r w (trimSpace name) .resume "" (postNodeState cfg r (formBody
      [("_csrf", csrfToken), ("name", name), ("state", "resume"), confirmedInput]) w) := by
  have hkeys := oneLine_keys
  have hshort : byteLen name ≤ 1024 := hname.1
  rw [postNodeState_eq cfg r w (List.cons_ne_nil _ _)]
  · refine setNodeAvailability_executed cfg r w rfl ?_ rfl (if_pos rfl)
    show nodeStateOf (trimSpace "resume") = .resume
    decide +kernel
  · intro field hfield
    simp only [List.mem_cons, List.not_mem_nil, or_false] at hfield
    rcases hfield with rfl | rfl | rfl | rfl
    · exact ⟨hkeys.1, hcsrf.1⟩
    · exact ⟨hkeys.2.1, oneLine_of_detailText hname⟩
    · exact ⟨hkeys.2.2.1, hkeys.2.2.2.2.2.2.2.2⟩
    · exact ⟨hkeys.2.2.2.2.1, hkeys.2.2.2.2.2.1⟩
  · have hsizes : byteLen "_csrf" = 5 ∧ byteLen "name" = 4 ∧ byteLen "state" = 5 ∧
        byteLen "resume" = 6 ∧ byteLen confirmedInput.1 = 9 ∧ byteLen confirmedInput.2 = 4 := by
      decide
    simp only [List.map_cons, List.map_nil, List.sum_cons, List.sum_nil, hsizes.1, hsizes.2.1,
      hsizes.2.2.1, hsizes.2.2.2.1, hsizes.2.2.2.2.1, hsizes.2.2.2.2.2]
    omega

/-- The form of a row. -/
theorem resumeForms_get {i : Nat} {f : ConfirmForm} (h : page.resumeForms[i]? = some f) :
    ∃ name ∈ page.names, f.fields = [("_csrf", page.csrfToken), ("name", name)] ∧
      f.button = some ("state", "resume") ∧ f.question = some (page.resumeQuestion name) := by
  unfold NodesPage.resumeForms at h
  rw [List.getElem?_map] at h
  obtain ⟨name, hname, rfl⟩ := Option.map_eq_some_iff.mp h
  exact ⟨name, List.mem_of_getElem? hname, rfl, rfl, rfl⟩

/-- Whatever is done on the node page, in any order, and whatever the server is like when a form
    comes. A form of the dialog names the node and the state that its title showed, and Slurm is
    asked for just that, if the request is orderly. A form that resumes a node is sent when its
    question is accepted, and then it is always refused: it has no state. Only a click on it after
    that asks Slurm to resume the node, without a question. -/
theorem node_actions (hcsrf : OneLine page.csrfToken ∧ byteLen page.csrfToken ≤ 64)
    (hnames : ∀ name ∈ page.names, DetailText name) {acts : List NodesAction}
    {s : NodesPageState} (hrun : Run (NodesPageState.step page) (fun _ _ => True) .start acts s)
    (cfg : ClientConfig σ P) (r : AvailabilityRequest) (w : AvailabilityWorld σ) :
    (∀ m ∈ s.sent, ∃ name ∈ page.names, ∃ state : DialogState, ∃ reason, reason ≠ "" ∧
      m.title = page.actionLabel state ++ ": " ++ name ∧
      Asked r w (trimSpace name) state.state (trimSpace reason)
        (postNodeState cfg r (formBody m.fields) w)) ∧
    ∀ before m after, s.confirm.sent = before ++ m :: after → ∃ name ∈ page.names,
      (m.accepted = some (page.resumeQuestion name) ∧
        postNodeState cfg r (formBody m.fields) w = (.httpError 400, w)) ∨
      (m.accepted = none ∧
        (∃ m' ∈ before, m'.form = m.form ∧ m'.accepted = some (page.resumeQuestion name)) ∧
        Asked r w (trimSpace name) .resume "" (postNodeState cfg r (formBody m.fields) w)) := by
  have hok : NodesPageState.Ok page s := hrun.invariant (NodesPageState.Ok page)
    NodesPageState.ok_start fun _ _ _ hs _ hstep => hs.step hstep
  constructor
  · intro m hm
    obtain ⟨name, hname, state, reason, hreason, htyped, htitle, hfields⟩ := (hok.sent m hm).sends
    refine ⟨name, hname, state, reason, hreason, htitle, ?_⟩
    rw [hfields]
    exact dialog_asked cfg r w hcsrf (hnames name hname) htyped
  · intro before m after heq
    cases hok.confirm.sent before m after heq with
    | plain f hform hquestion hfields haccepted =>
      obtain ⟨name, -, -, -, hasks⟩ := resumeForms_get hform
      rw [hquestion] at hasks
      cases hasks
    | accepted f question hform hquestion hfields haccepted =>
      obtain ⟨name, hname, hhidden, -, hasks⟩ := resumeForms_get hform
      rw [hquestion] at hasks
      cases hasks
      refine ⟨name, hname, .inl ⟨haccepted, ?_⟩⟩
      rw [hfields, hhidden]
      exact accepted_refused cfg r w hcsrf (hnames name hname)
    | again f question hform hquestion hfields haccepted hbefore =>
      obtain ⟨name, hname, hhidden, hbutton, hasks⟩ := resumeForms_get hform
      rw [hquestion] at hasks
      cases hasks
      refine ⟨name, hname, .inr ⟨haccepted, hbefore, ?_⟩⟩
      rw [hfields, hhidden, hbutton]
      exact again_asked cfg r w hcsrf (hnames name hname)

end EndToEnd

section Example

def exampleNodes : NodesPage := ⟨"en", "token", ["n1"]⟩

/-- n1 is drained, and resumed; the button that resumes it is clicked once more. -/
def resumeActs : List NodesAction :=
  [.trigger 0 .drain, .type "disk", .submit, .close, .closed, .confirm (.click 0),
    .confirm .accept, .confirm .closed, .confirm (.click 0)]

theorem resumeActs_run : (exec (NodesPageState.step exampleNodes) (fun _ _ => true) .start
    resumeActs).isSome := by
  decide +kernel

def availabilityRequest : AvailabilityRequest where
  actor := "root"
  nodes := .ok [⟨"n1", "cpu", "idle", wrap64 0, wrap64 4, wrap64 8, "", true⟩]
  auditFault := none
  now := 0

def resumeAccepted : ConfirmSent :=
  ⟨0, [("_csrf", "token"), ("name", "n1"), confirmedInput],
    some "Resume n1 and return it to service?"⟩

def resumeAgain : ConfirmSent :=
  ⟨0, [("_csrf", "token"), ("name", "n1"), ("state", "resume"), confirmedInput], none⟩

theorem node_actions_resume :
    let s := (exec (NodesPageState.step exampleNodes) (fun _ _ => true) .start resumeActs).get
      resumeActs_run
    s.confirm.sent = [resumeAccepted, resumeAgain] ∧
      postNodeState (emptyCluster fun _ => 0) availabilityRequest (formBody resumeAccepted.fields)
        ⟨.init (), []⟩ = (.httpError 400, ⟨.init (), []⟩) ∧
      Asked availabilityRequest ⟨.init (), []⟩ "n1" .resume ""
        (postNodeState (emptyCluster fun _ => 0) availabilityRequest
          (formBody resumeAgain.fields) ⟨.init (), []⟩) := by
  have hcsrf : OneLine exampleNodes.csrfToken ∧ byteLen exampleNodes.csrfToken ≤ 64 := by
    unfold OneLine
    decide
  have hnames : ∀ name ∈ exampleNodes.names, DetailText name := by
    intro name hname
    have hplain : "n1".toList.all (!isControl ·) := by decide
    rw [List.mem_singleton.mp hname]
    exact ⟨by decide, fun c hc => by simpa using List.all_eq_true.mp hplain c hc⟩
  have h := (node_actions hcsrf hnames ((run_exec_get resumeActs_run).mono fun _ _ _ => trivial)
    (emptyCluster fun _ => 0) availabilityRequest ⟨.init (), []⟩).2
  refine ⟨by decide +kernel, ?_, ?_⟩
  · obtain ⟨name, -, ⟨-, hrefused⟩ | ⟨haccepted, -⟩⟩ :=
      h [] resumeAccepted [resumeAgain] (by decide +kernel)
    · exact hrefused
    · cases haccepted
  · obtain ⟨name, hname, ⟨haccepted, -⟩ | ⟨-, -, hasked⟩⟩ :=
      h [resumeAccepted] resumeAgain [] (by decide +kernel)
    · cases haccepted
    · rw [List.mem_singleton.mp hname] at hasked
      have htrim : trimSpace "n1" = "n1" := by decide +kernel
      rw [htrim] at hasked
      exact hasked

end Example

end OpenHpcWeb.Web
