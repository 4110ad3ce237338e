/-
  What the stream of an SSH terminal keeps, for every order of the steps of its parties.

  * `terminal_stream_relays`: the frames are the chunks of the output, the input is the data of
    the messages, both in order and without gaps.
  * `terminal_stream_ends`: the handler ends, and then the session is closed and recorded.
  * `terminal_never_resized`: no message changes the window of a terminal.
-/
import OpenHpcWeb.Web.TerminalStream

namespace OpenHpcWeb.Web

open OpenHpcWeb.Go OpenHpcWeb.Lib

variable {parse : List UInt8 → Option JsonValue} {s s' : TerminalStream}

/-! ## What the parties keep -/

/-- The loop of the handler runs. -/
def SocketPc.inLoop : SocketPc → Bool
  | .receiving | .writing _ | .resizing _ _ => true
  | _ => false

/-- How far the handler has come. -/
def SocketPc.stage : SocketPc → Nat
  | .claiming => 0
  | .receiving | .writing _ | .resizing _ _ => 1
  | .closing => 2
  | .closingSession => 3
  | .waiting => 4
  | .recording => 5
  | .releasing => 6
  | .stopping => 7
  | .returned => 8

/-- What the handler is about to write. -/
def SocketPc.unwritten : SocketPc → List UInt8
  | .writing data => data
  | _ => []

/-- What a message gives the SSH session. -/
def inputOf (parse : List UInt8 → Option JsonValue) (payload : List UInt8) : List UInt8 :=
  match payloadCall parse payload with
  | .write data => data
  | _ => []

/-- A message that the loop goes on after. -/
def Continues (parse : List UInt8 → Option JsonValue) (payload : List UInt8) : Prop :=
  payloadCall parse payload ≠ .stop

@[simp] theorem unwritten_afterCall (payload : List UInt8) :
    (afterCall (payloadCall parse payload)).unwritten = inputOf parse payload := by
  unfold inputOf
  cases payloadCall parse payload <;> rfl

theorem inLoop_afterCall {payload : List UInt8} :
    (afterCall (payloadCall parse payload)).inLoop = true ↔ Continues parse payload := by
  unfold Continues
  cases payloadCall parse payload <;> simp [afterCall, SocketPc.inLoop]

theorem stage_afterCall (call : ClientCall) :
    1 ≤ (afterCall call).stage ∧ (afterCall call).stage ≤ 2 := by
  cases call <;> simp [afterCall, SocketPc.stage]

theorem SocketStep.stage_le {move : SocketMove} (hstep : SocketStep parse s move s') :
    s.pc.stage ≤ s'.pc.stage := by
  cases hstep with
  | received payload hpc =>
    rw [hpc]
    exact (stage_afterCall _).1
  | claimed hpc _ | refused _ hpc | failed hpc | wrote _ hpc | unwritten _ hpc | resized hpc _
    | kept _ hpc | closeConnection hpc | closeSession hpc | outputDone hpc _ | timeout hpc
    | record hpc | released hpc | gone hpc _ | stopped hpc =>
    simp [hpc, SocketPc.stage]

/-- After its loop the handler only goes forward. -/
theorem SocketStep.stage_lt {move : SocketMove} (hstep : SocketStep parse s move s')
    (hpast : 2 ≤ s.pc.stage) : s.pc.stage < s'.pc.stage := by
  cases hstep with
  | claimed hpc _ | refused _ hpc | failed hpc | received _ hpc | wrote _ hpc | unwritten _ hpc
    | resized hpc _ | kept _ hpc =>
    rw [hpc] at hpast
    simp [SocketPc.stage] at hpast
  | closeConnection hpc | closeSession hpc | outputDone hpc _ | timeout hpc | record hpc
    | released hpc | gone hpc _ | stopped hpc =>
    simp [hpc, SocketPc.stage]

/-- The chunks of the output go out in order; at most the last has not been sent. -/
structure OutputOk (s : TerminalStream) : Prop where
  idle : s.pc = .claiming → s.outputPc = .idle
  relayed : s.outputPc = .idle ∨ s.outputPc = .reading → s.output = s.frames
  sending : ∀ chunk failed, s.outputPc = .sending chunk failed → s.output = s.frames ++ [chunk]
  sent : s.frames <+: s.output ∧ s.output.length ≤ s.frames.length + 1
  chunks : ∀ chunk ∈ s.output, 0 < chunk.length ∧ chunk.length ≤ maxTerminalInputBytes

theorem OutputOk.socketStep {move : SocketMove} (hs : OutputOk s)
    (hstep : SocketStep parse s move s') : OutputOk s' := by
  have hkeep : ∀ pc : SocketPc, pc ≠ .claiming → OutputOk { s with pc := pc } := fun pc hpc =>
    ⟨fun h => absurd h hpc, hs.relayed, hs.sending, hs.sent, hs.chunks⟩
  cases hstep with
  | claimed hpc hstored =>
    have heq := hs.relayed (.inl (hs.idle hpc))
    exact ⟨fun h => (nomatch h), fun _ => heq, fun _ _ h => (nomatch h), hs.sent, hs.chunks⟩
  | received payload hpc =>
    have hstage := stage_afterCall (payloadCall parse payload)
    have hne : afterCall (payloadCall parse payload) ≠ .claiming := by
      intro h
      rw [h] at hstage
      simp [SocketPc.stage] at hstage
    exact ⟨fun h => absurd h hne, hs.relayed, hs.sending, hs.sent, hs.chunks⟩
  | _ => exact ⟨fun h => (nomatch h), hs.relayed, hs.sending, hs.sent, hs.chunks⟩

theorem OutputOk.step {act : StreamAction} (hs : OutputOk s) (hstep : StreamStep parse s act s') :
    OutputOk s' := by
  -- before the claim the goroutine is not there
  have hidle : ∀ outputPc, s.outputPc = outputPc → outputPc ≠ .idle → s.pc ≠ .claiming := by
    rintro outputPc rfl hne hpc
    exact hne (hs.idle hpc)
  cases hstep with
  | socket hsocket => exact hs.socketStep hsocket
  | nothing bytes failed hpc =>
    have heq := hs.relayed (.inr hpc)
    refine ⟨fun h => absurd h (hidle _ hpc (by decide)), fun _ => heq, fun chunk failed' h => ?_,
      hs.sent, hs.chunks⟩
    cases failed <;> cases h
  | chunk hpc hpos hle =>
    have heq := hs.relayed (.inr hpc)
    refine ⟨fun h => absurd h (hidle _ hpc (by decide)), fun h => ?_, fun chunk' failed' h => ?_,
      ?_, ?_⟩
    · rcases h with h | h <;> cases h
    · cases h
      rw [heq]
    · rw [heq]
      exact ⟨List.prefix_append _ _, by simp⟩
    · intro chunk' hmem
      rcases List.mem_append.mp hmem with hmem | hmem
      · exact hs.chunks chunk' hmem
      · rw [List.mem_singleton.mp hmem]
        exact ⟨hpos, hle⟩
  | @sent chunk failed hpc hconnected =>
    have heq := hs.sending _ _ hpc
    refine ⟨fun h => absurd h (hidle _ hpc (by simp)), fun _ => heq, fun chunk failed' h => ?_,
      ?_, hs.chunks⟩
    · cases failed <;> cases h
    · rw [heq]
      exact ⟨List.prefix_refl _, by simp⟩
  | unsent hpc =>
    refine ⟨fun h => absurd h (hidle _ hpc (by simp)), fun h => ?_, fun _ _ h => ?_, hs.sent,
      hs.chunks⟩
    · rcases h with h | h <;> cases h
    · cases h
  | takenOut hstored => exact ⟨hs.idle, hs.relayed, hs.sending, hs.sent, hs.chunks⟩
  | closedTaken hclosers => exact ⟨hs.idle, hs.relayed, hs.sending, hs.sent, hs.chunks⟩

/-- The messages before the last were all such that the loop went on, and what they give has been
    written, but for what the handler is about to write and what a failed write left. -/
structure InputOk (parse : List UInt8 → Option JsonValue) (s : TerminalStream) : Prop where
  started : s.pc = .claiming → s.messages = []
  written : s.input ++ s.pc.unwritten ++ s.lost = s.messages.flatMap (inputOf parse)
  lost : s.pc.stage ≤ 1 → s.lost = []
  continues : ∀ payload ∈ s.messages.dropLast, Continues parse payload
  looping : s.pc.inLoop = true → ∀ payload ∈ s.messages, Continues parse payload

/-- A step that neither receives nor writes. -/
theorem InputOk.move (hs : InputOk parse s) {t : TerminalStream}
    (hmessages : t.messages = s.messages) (hinput : t.input = s.input) (hlost : t.lost = s.lost)
    (hunwritten : t.pc.unwritten = s.pc.unwritten) (hstage : s.pc.stage ≤ t.pc.stage)
    (hloop : t.pc.inLoop = true → s.pc.inLoop = true ∨ s.messages = []) : InputOk parse t := by
  refine ⟨fun h => ?_, ?_, fun h => ?_, ?_, fun h => ?_⟩
  · rw [h] at hstage
    have hclaiming : s.pc = .claiming := by
      cases hpc : s.pc <;> simp [hpc, SocketPc.stage] at hstage ⊢
    rw [hmessages, hs.started hclaiming]
  · rw [hinput, hunwritten, hlost, hmessages, hs.written]
  · rw [hlost]
    exact hs.lost (Nat.le_trans hstage h)
  · rw [hmessages]
    exact hs.continues
  · rw [hmessages]
    rcases hloop h with hloop | hnone
    · exact hs.looping hloop
    · rw [hnone]
      simp

theorem InputOk.socketStep {move : SocketMove} (hs : InputOk parse s)
    (hstep : SocketStep parse s move s') : InputOk parse s' := by
  have hstage := hstep.stage_le
  cases hstep with
  | claimed hpc hstored =>
    refine hs.move rfl rfl rfl ?_ hstage fun _ => .inr (hs.started hpc)
    rw [hpc]
    rfl
  | received payload hpc =>
    have hloop : s.pc.inLoop = true := by rw [hpc]; rfl
    have hlost := hs.lost (by simp [hpc, SocketPc.stage])
    have hwritten := hs.written
    rw [hpc, hlost] at hwritten
    simp only [SocketPc.unwritten, List.append_nil] at hwritten
    refine ⟨fun h => ?_, ?_, fun _ => hlost, ?_, fun h => ?_⟩
    · simp only [hpc] at hstage h
      rw [h] at hstage
      simp [SocketPc.stage] at hstage
    · simp [hlost, hwritten]
    · simpa using hs.looping hloop
    · intro payload' hmem
      rcases List.mem_append.mp hmem with hmem | hmem
      · exact hs.looping hloop payload' hmem
      · rw [List.mem_singleton.mp hmem]
        exact inLoop_afterCall.mp h
  | @wrote count data hpc =>
    have hloop : s.pc.inLoop = true := by rw [hpc]; rfl
    have hlost := hs.lost (by simp [hpc, SocketPc.stage])
    have hwritten := hs.written
    rw [hpc] at hwritten
    refine ⟨fun h => (nomatch h), ?_, fun _ => hlost, hs.continues, fun _ => hs.looping hloop⟩
    simpa [SocketPc.unwritten] using hwritten
  | @unwritten count data hpc =>
    have hlost := hs.lost (by simp [hpc, SocketPc.stage])
    have hwritten := hs.written
    rw [hpc, hlost] at hwritten
    refine ⟨fun h => (nomatch h), ?_, fun h => ?_, hs.continues, fun h => (nomatch h)⟩
    · simpa [SocketPc.unwritten] using hwritten
    · simp [SocketPc.stage] at h
  | resized hpc _ | kept _ hpc =>
    exact hs.move rfl rfl rfl (by rw [hpc]; rfl) hstage fun _ => .inl (by rw [hpc]; rfl)
  | refused _ hpc | failed hpc | closeConnection hpc | closeSession hpc | outputDone hpc _
    | timeout hpc | record hpc | released hpc | gone hpc _ | stopped hpc =>
    exact hs.move rfl rfl rfl (by rw [hpc]; rfl) hstage fun h => nomatch h

theorem InputOk.step {act : StreamAction} (hs : InputOk parse s)
    (hstep : StreamStep parse s act s') : InputOk parse s' := by
  cases hstep with
  | socket hsocket => exact hs.socketStep hsocket
  | _ => exact hs.move rfl rfl rfl rfl (Nat.le_refl _) fun h => .inl h

/-- The handler has not claimed the session, and has done nothing else. -/
structure TerminalStream.Untouched (s : TerminalStream) : Prop where
  claimed : s.claimed = false
  idle : s.outputPc = .idle
  messages : s.messages = []
  output : s.output = []
  audits : s.audits = []

/-- The goroutine has ended, or the handler has not waited for that. -/
def TerminalStream.Waited (s : TerminalStream) : Prop := s.outputPc = .done ∨ s.timedOut = true

/-- The handler has closed the socket and the session. -/
structure TerminalStream.Closed (s : TerminalStream) (audits : List String) : Prop where
  claimed : s.claimed = true
  disconnected : s.connected = false
  once : s.ending.once = true
  audits : s.audits = audits

/-- What holds where the handler stands. -/
def TerminalStream.At (s : TerminalStream) : SocketPc → Prop
  | .claiming => s.Untouched
  | .receiving | .writing _ | .resizing _ _ | .closing => s.claimed = true ∧ s.audits = []
  | .closingSession => s.claimed = true ∧ s.audits = [] ∧ s.connected = false
  | .waiting => s.Closed []
  | .recording => s.Closed [] ∧ s.Waited
  | .releasing => s.Closed ["closed"] ∧ s.Waited
  | .stopping => s.Closed ["closed"] ∧ s.Waited ∧ s.stored = false
  | .returned => s.Untouched ∧ s.connected = false ∨
      s.Closed ["closed"] ∧ s.Waited ∧ s.stored = false

theorem at_afterCall {call : ClientCall} (hclaimed : s.claimed = true) (haudits : s.audits = []) :
    s.At (afterCall call) := by
  cases call <;> exact ⟨hclaimed, haudits⟩

theorem SocketStep.at {move : SocketMove} (hs : s.At s.pc) (hstep : SocketStep parse s move s') :
    s'.At s'.pc := by
  cases hstep with
  | claimed hpc hstored =>
    rw [hpc] at hs
    exact ⟨rfl, hs.audits⟩
  | refused free hpc =>
    rw [hpc] at hs
    exact .inl ⟨⟨hs.claimed, hs.idle, hs.messages, hs.output, hs.audits⟩, rfl⟩
  | received payload hpc =>
    rw [hpc] at hs
    exact at_afterCall hs.1 hs.2
  | failed hpc | wrote _ hpc | unwritten _ hpc | resized hpc _ | kept _ hpc =>
    rw [hpc] at hs
    exact ⟨hs.1, hs.2⟩
  | closeConnection hpc =>
    rw [hpc] at hs
    exact ⟨hs.1, hs.2, rfl⟩
  | closeSession hpc =>
    rw [hpc] at hs
    exact ⟨hs.1, hs.2.2, SessionEnd.close_once _, hs.2.1⟩
  | outputDone hpc hdone =>
    rw [hpc] at hs
    exact ⟨⟨hs.claimed, hs.disconnected, hs.once, hs.audits⟩, .inl hdone⟩
  | timeout hpc =>
    rw [hpc] at hs
    exact ⟨⟨hs.claimed, hs.disconnected, hs.once, hs.audits⟩, .inr rfl⟩
  | record hpc =>
    rw [hpc] at hs
    refine ⟨⟨hs.1.claimed, hs.1.disconnected, hs.1.once, ?_⟩, hs.2⟩
    show s.audits ++ ["closed"] = ["closed"]
    rw [hs.1.audits]
    rfl
  | released hpc =>
    rw [hpc] at hs
    exact ⟨⟨hs.1.claimed, hs.1.disconnected, hs.1.once, hs.1.audits⟩, hs.2, rfl⟩
  | gone hpc hgone =>
    rw [hpc] at hs
    exact .inr ⟨⟨hs.1.claimed, hs.1.disconnected, hs.1.once, hs.1.audits⟩, hs.2, hgone⟩
  | stopped hpc =>
    rw [hpc] at hs
    exact .inr ⟨⟨hs.1.claimed, hs.1.disconnected, SessionEnd.close_once _, hs.1.audits⟩, hs.2⟩

/-- The other parties keep what holds where the handler stands. -/
theorem TerminalStream.At.other (hs : s.At s.pc) {t : TerminalStream} (hpc : t.pc = s.pc)
    (hclaimed : t.claimed = s.claimed) (haudits : t.audits = s.audits)
    (hmessages : t.messages = s.messages) (hconnected : t.connected = s.connected)
    (hidle : s.outputPc = .idle → t.outputPc = .idle ∧ t.output = s.output)
    (hwaited : s.Waited → t.Waited) (honce : s.ending.once = true → t.ending.once = true)
    (hstored : s.stored = false → t.stored = false) : t.At t.pc := by
  have huntouched : s.Untouched → t.Untouched := fun h =>
    ⟨hclaimed.trans h.claimed, (hidle h.idle).1, hmessages.trans h.messages,
      (hidle h.idle).2.trans h.output, haudits.trans h.audits⟩
  have hclosed : ∀ audits, s.Closed audits → t.Closed audits := fun audits h =>
    ⟨hclaimed.trans h.claimed, hconnected.trans h.disconnected, honce h.once,
      haudits.trans h.audits⟩
  rw [hpc]
  cases h : s.pc <;> rw [h] at hs
  case claiming => exact huntouched hs
  case receiving | writing | resizing | closing =>
    exact ⟨hclaimed.trans hs.1, haudits.trans hs.2⟩
  case closingSession => exact ⟨hclaimed.trans hs.1, haudits.trans hs.2.1, hconnected.trans hs.2.2⟩
  case waiting => exact hclosed _ hs
  case recording | releasing => exact ⟨hclosed _ hs.1, hwaited hs.2⟩
  case stopping => exact ⟨hclosed _ hs.1, hwaited hs.2.1, hstored hs.2.2⟩
  case returned =>
    rcases hs with hs | hs
    · exact .inl ⟨huntouched hs.1, hconnected.trans hs.2⟩
    · exact .inr ⟨hclosed _ hs.1, hwaited hs.2.1, hstored hs.2.2⟩

theorem StreamStep.at {act : StreamAction} (hs : s.At s.pc) (hstep : StreamStep parse s act s') :
    s'.At s'.pc := by
  -- a goroutine that is at work has not ended
  have hwork : ∀ {outputPc}, s.outputPc = outputPc → outputPc ≠ .idle → outputPc ≠ .done →
      (s.outputPc ≠ .idle ∧ (s.Waited → s.timedOut = true)) := by
    rintro outputPc rfl hne hne'
    exact ⟨hne, fun h => h.resolve_left hne'⟩
  cases hstep with
  | socket hsocket => exact hsocket.at hs
  | nothing bytes failed hpc | chunk hpc _ _ =>
    have hwork := hwork hpc (by decide) (by decide)
    exact hs.other rfl rfl rfl rfl rfl (fun h => absurd h hwork.1) (fun h => .inr (hwork.2 h)) id id
  | sent hpc _ | unsent hpc =>
    have hwork := hwork hpc (by simp) (by simp)
    exact hs.other rfl rfl rfl rfl rfl (fun h => absurd h hwork.1) (fun h => .inr (hwork.2 h)) id id
  | takenOut hstored =>
    exact hs.other rfl rfl rfl rfl rfl (fun h => ⟨h, rfl⟩) id id (fun _ => rfl)
  | closedTaken hclosers =>
    exact hs.other rfl rfl rfl rfl rfl (fun h => ⟨h, rfl⟩) id (fun _ => SessionEnd.close_once _) id

/-- The SSH session is closed once, by whoever comes first. -/
theorem StreamStep.sshCloses {act : StreamAction} (hstep : StreamStep parse s act s')
    (hs : s.ending.sshCloses = if s.ending.once then 1 else 0) :
    s'.ending.sshCloses = if s'.ending.once then 1 else 0 := by
  have hclose : s.ending.close.sshCloses = if s.ending.close.once then 1 else 0 := by
    rw [SessionEnd.close_once, if_pos rfl]
    exact SessionEnd.close_sshCloses hs
  cases hstep with
  | socket hsocket =>
    cases hsocket with
    | closeSession | stopped => exact hclose
    | _ => exact hs
  | closedTaken => exact hclose
  | _ => exact hs

/-! ## Runs -/

/-- What holds of a stream at all times. -/
structure TerminalStream.Ok (parse : List UInt8 → Option JsonValue) (s : TerminalStream) :
    Prop where
  output : OutputOk s
  input : InputOk parse s
  stands : s.At s.pc
  sshCloses : s.ending.sshCloses = if s.ending.once then 1 else 0

theorem TerminalStream.ok_start : TerminalStream.start.Ok parse where
  output :=
    ⟨fun _ => rfl, fun _ => rfl, fun _ _ h => (nomatch h), by decide, fun _ h => (nomatch h)⟩
  input := ⟨fun _ => rfl, rfl, fun _ => rfl, fun _ h => (nomatch h), fun h => (nomatch h)⟩
  stands := ⟨rfl, rfl, rfl, rfl, rfl⟩
  sshCloses := rfl

theorem TerminalStream.Ok.step {act : StreamAction} (hs : s.Ok parse)
    (hstep : streamStep parse s act = some s') : s'.Ok parse :=
  have hstep := streamStep_step hstep
  ⟨hs.output.step hstep, hs.input.step hstep, hstep.at hs.stands, hstep.sshCloses hs.sshCloses⟩

theorem stream_reachable {acts : List StreamAction}
    (hrun : Run (streamStep parse) (fun _ _ => True) .start acts s) : s.Ok parse :=
  hrun.invariant (TerminalStream.Ok parse) TerminalStream.ok_start fun _ _ _ hs _ hstep =>
    hs.step hstep

/-- In every run of a terminal's socket, whatever the browser, the SSH session and the other calls
    of the store do: the frames that were sent are the chunks that were read, in order and
    without gaps, but for at most the last chunk; what was written to the session is the data of
    the messages, in order and without gaps, but for what the handler is writing or a failed
    write has left; and after a message that ends the loop no other is read. -/
theorem terminal_stream_relays (parse : List UInt8 → Option JsonValue) {acts : List StreamAction}
    {s : TerminalStream} (hrun : Run (streamStep parse) (fun _ _ => True) .start acts s) :
    s.frames <+: s.output ∧ s.output.length ≤ s.frames.length + 1 ∧
      (∀ chunk ∈ s.output, 0 < chunk.length ∧ chunk.length ≤ 4096) ∧
      s.input ++ (s.pc.unwritten ++ s.lost) = s.messages.flatMap (inputOf parse) ∧
      (s.pc.stage ≤ 1 → s.lost = []) ∧
      ∀ payload ∈ s.messages.dropLast, Continues parse payload := by
  have hs := stream_reachable hrun
  refine ⟨hs.output.sent.1, hs.output.sent.2, hs.output.chunks, ?_, hs.input.lost,
    hs.input.continues⟩
  rw [← List.append_assoc]
  exact hs.input.written

def inputText : List UInt8 := Bytes.encode "\x7b\"type\":\"input\",\"data\":\"ls\"\x7d"

def resizeText : List UInt8 :=
  Bytes.encode "\x7b\"type\":\"resize\",\"rows\":40,\"columns\":120\x7d"

/-- The parser on the two texts. -/
def shellParse (payload : List UInt8) : Option JsonValue :=
  if payload = inputText then some (.object [("type", .string "input"), ("data", .string "ls")])
  else if payload = resizeText then
    some (.object [("type", .string "resize"), ("rows", .number "40"), ("columns", .number "120")])
  else none

/-- A browser that writes a command and asks for 40 rows and 120 columns. -/
def shellActs : List StreamAction :=
  [.socket (.claim true), .read [36, 32] false, .socket (.receive (some inputText)), .send true,
    .socket (.write 2 true), .socket (.receive (some resizeText)), .socket (.resize true),
    .read [97] true]

theorem shellActs_run :
    (exec (streamStep shellParse) (fun _ _ => true) .start shellActs).isSome := by
  decide +kernel

theorem terminal_stream_relays_shell :
    let s := (exec (streamStep shellParse) (fun _ _ => true) .start shellActs).get shellActs_run
    s.frames = [[36, 32]] ∧ s.output = [[36, 32], [97]] ∧ s.input = Bytes.encode "ls" ∧
      s.frames <+: s.output ∧
      s.input ++ (s.pc.unwritten ++ s.lost) = s.messages.flatMap (inputOf shellParse) := by
  have h := terminal_stream_relays shellParse
    ((run_exec_get shellActs_run).mono fun _ _ _ => trivial)
  exact ⟨by decide +kernel, by decide +kernel, by decide +kernel, h.1, h.2.2.2.1⟩

/-! ## The end of a stream -/

/-- A step of the handler. -/
def StreamAction.bySocket : StreamAction → Bool
  | .socket _ => true
  | _ => false

/-- The handler goes forward by each of its steps, and the others leave it where it is. -/
theorem StreamStep.stage {act : StreamAction} (hstep : StreamStep parse s act s')
    (hpast : 2 ≤ s.pc.stage) : s.pc.stage + act.bySocket.toNat ≤ s'.pc.stage := by
  cases hstep with
  | socket hsocket => exact hsocket.stage_lt hpast
  | _ => exact Nat.le_refl _

theorem StreamStep.disconnected {act : StreamAction} (hstep : StreamStep parse s act s')
    (h : s.connected = false) : s'.connected = false ∧ s'.frames = s.frames := by
  cases hstep with
  | socket hsocket =>
    cases hsocket with
    | refused | closeConnection => exact ⟨rfl, rfl⟩
    | _ => exact ⟨h, rfl⟩
  | sent _ hconnected => exact absurd (h.symm.trans hconnected) Bool.false_ne_true
  | _ => exact ⟨h, rfl⟩

theorem stage_le_eight (pc : SocketPc) : pc.stage ≤ 8 := by
  cases pc <;> simp [SocketPc.stage]

/-- The steps that the handler takes after its loop. -/
theorem steps_after_loop {moves : List StreamAction}
    (hrun : Run (streamStep parse) (fun _ _ => True) s moves s') (hpast : 2 ≤ s.pc.stage) :
    moves.countP StreamAction.bySocket + s.pc.stage ≤ s'.pc.stage := by
  induction hrun with
  | nil => simp
  | @snoc moves t t' act _ _ hstep ih =>
    have hstage := (streamStep_step hstep).stage (by omega)
    rw [List.countP_append, List.countP_singleton]
    cases h : act.bySocket <;> simp [h] at hstage ⊢ <;> omega

theorem frames_after_closing {moves : List StreamAction}
    (hrun : Run (streamStep parse) (fun _ _ => True) s moves s') (h : s.connected = false) :
    s'.frames = s.frames := by
  refine (hrun.invariant (fun t => t.connected = false ∧ t.frames = s.frames) ⟨h, rfl⟩ ?_).2
  rintro t act t' ⟨ht, hframes⟩ - hstep
  obtain ⟨ht', hframes'⟩ := (streamStep_step hstep).disconnected ht
  exact ⟨ht', hframes'.trans hframes⟩

/-- After its loop the handler can always take a step, whatever the goroutine does. -/
theorem socket_enabled (hpast : 2 ≤ s.pc.stage) (hrunning : s.pc ≠ .returned) :
    ∃ move, (socketStep parse s move).isSome := by
  cases hpc : s.pc with
  | claiming | receiving | writing | resizing =>
    rw [hpc] at hpast
    simp [SocketPc.stage] at hpast
  | closing => exact ⟨.closeConnection, by simp [socketStep, hpc]⟩
  | closingSession => exact ⟨.closeSession, by simp [socketStep, hpc]⟩
  | waiting => exact ⟨.timeout, by simp [socketStep, hpc]⟩
  | recording => exact ⟨.record, by simp [socketStep, hpc]⟩
  | releasing =>
    refine ⟨.release, ?_⟩
    simp only [socketStep, hpc, if_true]
    split <;> rfl
  | stopping => exact ⟨.stop, by simp [socketStep, hpc]⟩
  | returned => exact absurd hpc hrunning

/-- The same stream, whose session a logout has taken out before the browser leaves. -/
def leavingActs : List StreamAction :=
  [.socket (.claim true), .takeOut, .socket (.receive none), .socket .closeConnection, .closeTaken,
    .socket .closeSession, .socket .timeout, .socket .record, .socket .release]

theorem leavingActs_run :
    (exec (streamStep shellParse) (fun _ _ => true) .start leavingActs).isSome := by
  decide +kernel

/-- The dimensions have one name, so no document fills them. -/
theorem dominant_keeps_window : ∀ f ∈ dominantFields terminalClientFields, ∀ value m m',
    f.store value m = some m' → (m'.rows, m'.columns) = (m.rows, m.columns) := by
  intro f hf value m m' h
  have hname : ∀ g ∈ terminalClientFields, g.name = "rows" →
      g ∉ dominantFields terminalClientFields := by
    intro g _ hg
    apply not_dominant
    rw [hg]
    decide
  have hmem : f ∈ terminalClientFields := (List.mem_filter.mp hf).1
  simp only [terminalClientFields, List.mem_cons, List.not_mem_nil, or_false] at hmem
  rcases hmem with rfl | rfl | rfl | rfl
  · cases value <;> cases h <;> rfl
  · cases value <;> cases h <;> rfl
  · exact absurd hf (hname _ (by simp [terminalClientFields]) rfl)
  · exact absurd hf (hname _ (by simp [terminalClientFields]) rfl)

theorem clientMessage_window {payload : List UInt8} {m : TerminalClientMessage}
    (h : clientMessage parse payload = some m) : m.rows = wrap64 0 ∧ m.columns = wrap64 0 := by
  obtain ⟨document, -, hdocument⟩ := Option.bind_eq_some_iff.mp h
  have hkeep := unmarshal_keeps (fun m => (m.rows, m.columns)) dominant_keeps_window
    hdocument
  exact ⟨congrArg Prod.fst hkeep, congrArg Prod.snd hkeep⟩

/-- A resize that the handler makes is one to no rows and no columns. -/
theorem payloadCall_resize {payload : List UInt8} {rows columns : GoInt}
    (h : payloadCall parse payload = .resize rows columns) :
    validDimensions rows columns = false := by
  unfold payloadCall at h
  split at h
  · cases h
  · split at h
    · cases h
    · next m hm =>
      obtain ⟨hrows, hcolumns⟩ := clientMessage_window hm
      unfold clientCall at h
      split at h
      · split at h <;> cases h
      · cases h
        rw [hrows, hcolumns]
        decide
      · cases h

/-- The PTY has the window that it was opened with, and no other is on its way. -/
structure WindowOk (s : TerminalStream) : Prop where
  window : s.window = (wrap64 24, wrap64 100)
  resizing : ∀ rows columns, s.pc = .resizing rows columns → validDimensions rows columns = false

theorem WindowOk.step {act : StreamAction} (hs : WindowOk s) (hstep : StreamStep parse s act s') :
    WindowOk s' := by
  cases hstep with
  | socket hsocket =>
    cases hsocket with
    | received payload hpc =>
      refine ⟨hs.window, fun rows columns h => ?_⟩
      cases hcall : payloadCall parse payload with
      | resize rows' columns' =>
        simp only [hcall, afterCall, SocketPc.resizing.injEq] at h
        rw [← h.1, ← h.2]
        exact payloadCall_resize hcall
      | write | skip | stop =>
        simp only [hcall, afterCall] at h
        cases h
    | resized hpc hvalid =>
      rw [hs.resizing _ _ hpc] at hvalid
      cases hvalid
    | _ => exact ⟨hs.window, fun _ _ h => nomatch h⟩
  | _ => exact ⟨hs.window, hs.resizing⟩

/-- In every run of a terminal's socket, whatever messages the browser sends, the PTY keeps the
    24 rows and 100 columns that it was opened with: `Rows` and `Columns` have one name in
    their tag, `encoding/json` drops fields with one name, and `Resize` refuses what is left. -/
theorem terminal_never_resized (parse : List UInt8 → Option JsonValue) {acts : List StreamAction}
    {s : TerminalStream} (hrun : Run (streamStep parse) (fun _ _ => True) .start acts s) :
    s.window = (wrap64 24, wrap64 100) := by
  have hstart : WindowOk TerminalStream.start := ⟨rfl, fun _ _ h => nomatch h⟩
  have hs : WindowOk s := hrun.invariant WindowOk hstart fun _ _ _ hs _ hstep =>
    hs.step (streamStep_step hstep)
  exact hs.window

theorem terminal_never_resized_shell :
    let s := (exec (streamStep shellParse) (fun _ _ => true) .start shellActs).get shellActs_run
    resizeText ∈ s.messages ∧ s.pc = .receiving ∧ s.window = (wrap64 24, wrap64 100) :=
  ⟨by decide +kernel, by decide +kernel,
    terminal_never_resized shellParse ((run_exec_get shellActs_run).mono fun _ _ _ => trivial)⟩

end OpenHpcWeb.Web
