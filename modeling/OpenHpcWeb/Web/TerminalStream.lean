/-
  The stream of an SSH terminal: `terminalSocket` and `streamTerminal` of
  internal/web/terminal.go, with the messages of the client.

  Three parties take their steps in any order: the handler of the socket, its goroutine that
  sends the output, and the calls of the store that end the session from outside (its timer, a
  logout, a disabling, the shutdown; `Web.TerminalCalls`). What the SSH session, the socket and
  the audit store answer comes with the steps. A message is a value of JSON as soon as it has
  been parsed; the parser is a parameter.

  * `streamStep_step`: what a step of each party does.
-/
import OpenHpcWeb.Go.Bytes
import OpenHpcWeb.Go.Json
import OpenHpcWeb.Web.TerminalCalls

namespace OpenHpcWeb.Web

open OpenHpcWeb.Go OpenHpcWeb.Lib

/-! ## The messages of the client -/

def maxTerminalInputBytes : Nat := 4096

structure TerminalClientMessage where
  type : String
  data : String
  rows : GoInt
  columns : GoInt

/-- The fields with the names of their tags: the tag of `Rows, Columns` is that of both. -/
def terminalClientFields : List (JsonField TerminalClientMessage) :=
  [.text "type" fun value m => { m with type := value },
    .text "data" fun value m => { m with data := value },
    .int "rows" fun value m => { m with rows := value },
    .int "rows" fun value m => { m with columns := value }]

def emptyMessage : TerminalClientMessage := ⟨"", "", wrap64 0, wrap64 0⟩

-- the parser of JSON
variable (parse : List UInt8 → Option JsonValue)

/-- `json.Unmarshal` into the message. -/
def clientMessage (payload : List UInt8) : Option TerminalClientMessage :=
  (parse payload).bind (unmarshal terminalClientFields emptyMessage)

/-- The call of the session that `handleTerminalClientMessage` makes for a message. -/
inductive ClientCall where
  | write (data : List UInt8)
  | resize (rows columns : GoInt)
  /-- none, and the loop goes on -/
  | skip
  /-- none, and the loop ends -/
  | stop

def clientCall (message : TerminalClientMessage) : ClientCall :=
  match message.type with
  | "input" =>
    if byteLen message.data = 0 ∨ maxTerminalInputBytes < byteLen message.data then .skip
    else .write (Bytes.encode message.data)
  | "resize" => .resize message.rows message.columns
  | _ => .stop

/-- The same for what `Receive` returns; an error of any kind ends the loop. -/
def payloadCall (payload : List UInt8) : ClientCall :=
  if payload.length = 0 ∨ maxTerminalInputBytes < payload.length then .stop
  else
    match clientMessage parse payload with
    | none => .stop
    | some message => clientCall message

/-- The check of `sshSession.Resize`. -/
def validDimensions (rows columns : GoInt) : Bool :=
  1 ≤ rows.val && rows.val ≤ 200 && 1 ≤ columns.val && columns.val ≤ 500

/-! ## The parties -/

/-- Where the goroutine of the output stands. -/
inductive OutputPc where
  | idle
  | reading
  /-- `failed`: the read that brought the chunk returned an error too -/
  | sending (chunk : List UInt8) (failed : Bool)
  | done
  deriving DecidableEq

/-- Where the handler stands. -/
inductive SocketPc where
  | claiming
  | receiving
  | writing (data : List UInt8)
  | resizing (rows columns : GoInt)
  /-- the loop has ended -/
  | closing
  | closingSession
  | waiting
  | recording
  /-- the deferred `Release`, before its lock -/
  | releasing
  /-- it has taken the session out of the store -/
  | stopping
  | returned
  deriving DecidableEq

structure TerminalStream where
  pc : SocketPc
  outputPc : OutputPc
  /-- the handler has not closed the socket -/
  connected : Bool
  /-- the session is in the store -/
  stored : Bool
  /-- calls that took it out of the store and are still to close it -/
  closers : Nat
  ending : SessionEnd
  /-- the rows and columns of the PTY -/
  window : GoInt × GoInt
  /-- history: `Claim` succeeded, and the wait for the goroutine timed out -/
  claimed : Bool
  timedOut : Bool
  /-- history: the chunks that were read, those that were sent, the messages, what was written
      to the SSH session and what a failed write did not write -/
  output : List (List UInt8)
  frames : List (List UInt8)
  messages : List (List UInt8)
  input : List UInt8
  lost : List UInt8
  /-- history: the outcomes that were to be recorded -/
  audits : List String

namespace TerminalStream

/-- The session is in the store with the window of `createTerminalSession`. -/
def start : TerminalStream where
  pc := .claiming
  outputPc := .idle
  connected := true
  stored := true
  closers := 0
  ending := ⟨false, 0, 0⟩
  window := (wrap64 24, wrap64 100)
  claimed := false
  timedOut := false
  output := []
  frames := []
  messages := []
  input := []
  lost := []
  audits := []

end TerminalStream

/-- A step of the handler, with what it is answered. -/
inductive SocketMove where
  /-- whether nobody else has claimed the session -/
  | claim (free : Bool)
  /-- `none` is an error -/
  | receive (payload : Option (List UInt8))
  /-- the bytes that were written, and whether without an error -/
  | write (count : Nat) (ok : Bool)
  | resize (ok : Bool)
  | closeConnection
  | closeSession
  | outputDone
  | timeout
  | record
  | release
  | stop
  deriving DecidableEq

inductive StreamAction where
  | socket (move : SocketMove)
  /-- what `Read` returns -/
  | read (bytes : List UInt8) (failed : Bool)
  | send (ok : Bool)
  /-- a call of the store takes the session out, and closes it -/
  | takeOut
  | closeTaken

/-- The handler makes a call of the session. -/
def afterCall : ClientCall → SocketPc
  | .write data => .writing data
  | .resize rows columns => .resizing rows columns
  | .skip => .receiving
  | .stop => .closing

/-- A step of the handler. -/
def socketStep (s : TerminalStream) : SocketMove → Option TerminalStream
  | .claim free =>
    if s.pc = .claiming then
      if free ∧ s.stored then
        some { s with pc := .receiving, outputPc := .reading, claimed := true }
      else some { s with pc := .returned, connected := false }
    else none
  | .receive payload =>
    if s.pc = .receiving then
      match payload with
      | none => some { s with pc := .closing }
      | some payload =>
        some { s with
          pc := afterCall (payloadCall parse payload)
          messages := s.messages ++ [payload] }
    else none
  | .write count ok =>
    match s.pc with
    | .writing data =>
      if ok then some { s with pc := .receiving, input := s.input ++ data }
      else
        some { s with pc := .closing, input := s.input ++ data.take count, lost := data.drop count }
    | _ => none
  | .resize ok =>
    match s.pc with
    | .resizing rows columns =>
      if ok ∧ validDimensions rows columns then
        some { s with pc := .receiving, window := (rows, columns) }
      else some { s with pc := .receiving }
    | _ => none
  | .closeConnection =>
    if s.pc = .closing then some { s with pc := .closingSession, connected := false } else none
  | .closeSession =>
    if s.pc = .closingSession then some { s with pc := .waiting, ending := s.ending.close }
    else none
  | .outputDone =>
    if s.pc = .waiting ∧ s.outputPc = .done then some { s with pc := .recording } else none
  | .timeout =>
    if s.pc = .waiting then some { s with pc := .recording, timedOut := true } else none
  | .record =>
    if s.pc = .recording then some { s with pc := .releasing, audits := s.audits ++ ["closed"] }
    else none
  | .release =>
    if s.pc = .releasing then
      if s.stored then some { s with pc := .stopping, stored := false }
      else some { s with pc := .returned }
    else none
  | .stop =>
    if s.pc = .stopping then some { s with pc := .returned, ending := s.ending.storeClose }
    else none

/-- The goroutine goes on after a chunk. -/
def afterChunk (failed : Bool) : OutputPc := if failed then .done else .reading

/-- A step of any party. On a socket that the handler has closed nothing is sent. -/
def streamStep (s : TerminalStream) : StreamAction → Option TerminalStream
  | .socket move => socketStep parse s move
  | .read bytes failed =>
    if s.outputPc = .reading then
      let chunk := bytes.take maxTerminalInputBytes
      if chunk = [] then some { s with outputPc := afterChunk failed }
      else some { s with outputPc := .sending chunk failed, output := s.output ++ [chunk] }
    else none
  | .send ok =>
    match s.outputPc with
    | .sending chunk failed =>
      if ok then
        if s.connected then
          some { s with outputPc := afterChunk failed, frames := s.frames ++ [chunk] }
        else none
      else some { s with outputPc := .done }
    | _ => none
  | .takeOut =>
    if s.stored then some { s with stored := false, closers := s.closers + 1 } else none
  | .closeTaken =>
    if s.closers = 0 then none
    else some { s with closers := s.closers - 1, ending := s.ending.storeClose }

/-! ## What a step does -/

variable {parse} {s s' : TerminalStream}

inductive SocketStep (parse : List UInt8 → Option JsonValue) (s : TerminalStream) :
    SocketMove → TerminalStream → Prop
  | claimed : s.pc = .claiming → s.stored = true → SocketStep parse s (.claim true)
      { s with pc := .receiving, outputPc := .reading, claimed := true }
  | refused (free : Bool) : s.pc = .claiming → SocketStep parse s (.claim free)
      { s with pc := .returned, connected := false }
  | failed : s.pc = .receiving → SocketStep parse s (.receive none) { s with pc := .closing }
  | received (payload : List UInt8) : s.pc = .receiving →
      SocketStep parse s (.receive (some payload))
        { s with
          pc := afterCall (payloadCall parse payload)
          messages := s.messages ++ [payload] }
  | wrote (count : Nat) {data : List UInt8} : s.pc = .writing data →
      SocketStep parse s (.write count true) { s with pc := .receiving, input := s.input ++ data }
  | unwritten (count : Nat) {data : List UInt8} : s.pc = .writing data →
      SocketStep parse s (.write count false)
        { s with pc := .closing, input := s.input ++ data.take count, lost := data.drop count }
  | resized {rows columns : GoInt} : s.pc = .resizing rows columns →
      validDimensions rows columns = true →
      SocketStep parse s (.resize true) { s with pc := .receiving, window := (rows, columns) }
  | kept (ok : Bool) {rows columns : GoInt} : s.pc = .resizing rows columns →
      SocketStep parse s (.resize ok) { s with pc := .receiving }
  | closeConnection : s.pc = .closing →
      SocketStep parse s .closeConnection { s with pc := .closingSession, connected := false }
  | closeSession : s.pc = .closingSession →
      SocketStep parse s .closeSession { s with pc := .waiting, ending := s.ending.close }
  | outputDone : s.pc = .waiting → s.outputPc = .done →
      SocketStep parse s .outputDone { s with pc := .recording }
  | timeout : s.pc = .waiting →
      SocketStep parse s .timeout { s with pc := .recording, timedOut := true }
  | record : s.pc = .recording →
      SocketStep parse s .record { s with pc := .releasing, audits := s.audits ++ ["closed"] }
  | released : s.pc = .releasing →
      SocketStep parse s .release { s with pc := .stopping, stored := false }
  | gone : s.pc = .releasing → s.stored = false →
      SocketStep parse s .release { s with pc := .returned }
  | stopped : s.pc = .stopping →
      SocketStep parse s .stop { s with pc := .returned, ending := s.ending.storeClose }

inductive StreamStep (parse : List UInt8 → Option JsonValue) (s : TerminalStream) :
    StreamAction → TerminalStream → Prop
  | socket {move : SocketMove} {s' : TerminalStream} : SocketStep parse s move s' →
      StreamStep parse s (.socket move) s'
  | nothing (bytes : List UInt8) (failed : Bool) : s.outputPc = .reading →
      StreamStep parse s (.read bytes failed) { s with outputPc := afterChunk failed }
  | chunk {bytes chunk : List UInt8} {failed : Bool} : s.outputPc = .reading →
      0 < chunk.length → chunk.length ≤ maxTerminalInputBytes →
      StreamStep parse s (.read bytes failed)
        { s with outputPc := .sending chunk failed, output := s.output ++ [chunk] }
  | sent {chunk : List UInt8} {failed : Bool} : s.outputPc = .sending chunk failed →
      s.connected = true → StreamStep parse s (.send true)
        { s with outputPc := afterChunk failed, frames := s.frames ++ [chunk] }
  | unsent {chunk : List UInt8} {failed : Bool} : s.outputPc = .sending chunk failed →
      StreamStep parse s (.send false) { s with outputPc := .done }
  | takenOut : s.stored = true → StreamStep parse s .takeOut
      { s with stored := false, closers := s.closers + 1 }
  | closedTaken : 0 < s.closers → StreamStep parse s .closeTaken
      { s with closers := s.closers - 1, ending := s.ending.storeClose }

theorem socketStep_step {move : SocketMove} (h : socketStep parse s move = some s') :
    SocketStep parse s move s' := by
  cases move with
  | claim free =>
    simp only [socketStep] at h
    split at h
    · next hpc =>
      split at h
      · next hfree =>
        cases h
        rw [hfree.1]
        exact .claimed hpc hfree.2
      · cases h
        exact .refused free hpc
    · cases h
  | receive payload =>
    simp only [socketStep] at h
    split at h
    · next hpc =>
      cases payload with
      | none => cases h; exact .failed hpc
      | some payload => cases h; exact .received payload hpc
    · cases h
  | write count ok =>
    simp only [socketStep] at h
    split at h
    · next data hpc =>
      cases ok with
      | true => cases h; exact .wrote count hpc
      | false => cases h; exact .unwritten count hpc
    · cases h
  | resize ok =>
    simp only [socketStep] at h
    split at h
    · next rows columns hpc =>
      split at h
      · next hok =>
        cases h
        rw [hok.1]
        exact .resized hpc hok.2
      · cases h
        exact .kept ok hpc
    · cases h
  | closeConnection =>
    obtain ⟨hpc, ⟨⟩⟩ := Option.ite_none_right_eq_some.mp h
    exact .closeConnection hpc
  | closeSession =>
    obtain ⟨hpc, ⟨⟩⟩ := Option.ite_none_right_eq_some.mp h
    exact .closeSession hpc
  | outputDone =>
    obtain ⟨hpc, ⟨⟩⟩ := Option.ite_none_right_eq_some.mp h
    exact .outputDone hpc.1 hpc.2
  | timeout =>
    obtain ⟨hpc, ⟨⟩⟩ := Option.ite_none_right_eq_some.mp h
    exact .timeout hpc
  | record =>
    obtain ⟨hpc, ⟨⟩⟩ := Option.ite_none_right_eq_some.mp h
    exact .record hpc
  | release =>
    simp only [socketStep] at h
    split at h
    · next hpc =>
      split at h
      · cases h; exact .released hpc
      · next hstored => cases h; exact .gone hpc (Bool.eq_false_of_not_eq_true hstored)
    · cases h
  | stop =>
    obtain ⟨hpc, ⟨⟩⟩ := Option.ite_none_right_eq_some.mp h
    exact .stopped hpc

theorem streamStep_step {act : StreamAction} (h : streamStep parse s act = some s') :
    StreamStep parse s act s' := by
  cases act with
  | socket move => exact .socket (socketStep_step h)
  | read bytes failed =>
    simp only [streamStep] at h
    split at h
    · next hpc =>
      split at h
      · cases h; exact .nothing bytes failed hpc
      · next hne =>
        cases h
        exact .chunk hpc (List.length_pos_iff.mpr hne) (List.length_take_le _ _)
    · cases h
  | send ok =>
    simp only [streamStep] at h
    split at h
    · next chunk failed hpc =>
      cases ok with
      | true =>
        obtain ⟨hconnected, ⟨⟩⟩ := Option.ite_none_right_eq_some.mp h
        exact .sent hpc hconnected
      | false => cases h; exact .unsent hpc
    · cases h
  | takeOut =>
    obtain ⟨hstored, ⟨⟩⟩ := Option.ite_none_right_eq_some.mp h
    exact .takenOut hstored
  | closeTaken =>
    obtain ⟨hclosers, ⟨⟩⟩ := Option.ite_none_left_eq_some.mp h
    exact .closedTaken (Nat.pos_of_ne_zero hclosers)

end OpenHpcWeb.Web
