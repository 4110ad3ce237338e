/-
  The page of the SSH terminal, internal/web/static/app.js: the form that opens a session and
  its socket, with the emulator.

  The variables of the script are a state and each callback of the browser is a step; the
  sockets are numbered in the order they are made. `close()` only begins to close a socket: its
  `close` event comes later, whatever the page does until then. Between `close()` and that event
  the browser hands no message on. When a connection fails the `error` and the `close` event are
  one step, as they are one task of the browser.

  History, which the script does not keep: what was sent and received on each socket, and the
  socket that the emulator shows since it was reset.

  * `pageStep_step`: what a step does.
  * `Ok.step`: one socket is in use, and the screen is what it received.
  * `terminal_page_ready`: when an open socket can be typed on.
-/
import OpenHpcWeb.Go.JsonText
import OpenHpcWeb.Lib.Run

namespace OpenHpcWeb.Web

open OpenHpcWeb.Go OpenHpcWeb.Lib

/-! ## The state -/

/-- What the page sends on a socket. -/
inductive PageMessage where
  | input (data : String)
  | resize (rows columns : Nat)
  deriving DecidableEq

def PageMessage.value : PageMessage → JsonValue
  | .input data => .object [("type", .string "input"), ("data", .string data)]
  | .resize rows columns =>
    .object [("type", .string "resize"), ("rows", .number rows.repr),
      ("columns", .number columns.repr)]

/-- `JSON.stringify` of the message. -/
def PageMessage.text (m : PageMessage) : String := String.ofList (stringify m.value)

inductive ReadyState where
  | connecting
  | opened
  | closing
  | closed
  deriving DecidableEq

structure PageSocket where
  /-- `payload.session_id` -/
  session : String
  readyState : ReadyState
  sent : List PageMessage
  got : List String
  deriving DecidableEq

inductive TerminalStatus where
  | blank
  /-- xterm.js could not be loaded -/
  | missing
  | connecting
  | connected
  | disconnected
  /-- the terminal channel could not be opened -/
  | channelFailed
  | failed (message : String)
  deriving DecidableEq

/-- Where the chain of the form stands. -/
inductive ConnectPhase where
  | fetching
  | reading (ok : Bool) (status : Nat)
  | received (session : Option String)
  | failed (message : String)
  /-- only the last `then` is left -/
  | settled
  deriving DecidableEq

structure TerminalPage where
  sockets : List PageSocket
  terminalSocket : Option Nat
  /-- `terminalEmulator.options.disableStdin` -/
  disableStdin : Bool
  status : TerminalStatus
  /-- `terminalOpen.disabled` -/
  openDisabled : Bool
  chain : Option ConnectPhase
  /-- what the emulator was given since it was reset -/
  screen : List String
  screenSocket : Option Nat
  deriving DecidableEq

inductive PageAction where
  | submit
  | response (ok : Bool) (status : Nat)
  /-- the body; one that is no JSON has neither field -/
  | payload (error session : Option String)
  | reject (message : String)
  /-- the callback that makes the socket, with the exception of its constructor -/
  | connect (thrown : Option String)
  /-- the callback of `catch` -/
  | recover
  /-- the last callback -/
  | settle
  /-- the `open` event, with the size where there is one to send -/
  | opened (socket : Nat) (size : Option (Nat × Nat))
  | message (socket : Nat) (data : String)
  /-- the `close` event, after an `error` event or not -/
  | closed (socket : Nat) (failed : Bool)
  /-- `onData` of the emulator -/
  | type (data : String)
  /-- `resizeTerminal` in a frame -/
  | resize (rows columns : Nat)
  /-- `beforeunload` -/
  | leave
  deriving DecidableEq

namespace TerminalPage

def start : TerminalPage where
  sockets := []
  terminalSocket := none
  disableStdin := true
  status := .blank
  openDisabled := false
  chain := none
  screen := []
  screenSocket := none

/-! ## The script -/

def modifySocket (s : TerminalPage) (i : Nat) (f : PageSocket → PageSocket) : TerminalPage :=
  { s with sockets := s.sockets.modify i f }

end TerminalPage

/-- `close()` -/
def PageSocket.close (socket : PageSocket) : PageSocket :=
  match socket.readyState with
  | .connecting | .opened => { socket with readyState := .closing }
  | .closing | .closed => socket

/-- `send`, after the check of `readyState` -/
def PageSocket.send (m : PageMessage) (socket : PageSocket) : PageSocket :=
  if socket.readyState = .opened then { socket with sent := socket.sent ++ [m] } else socket

def PageSocket.receive (data : String) (socket : PageSocket) : PageSocket :=
  { socket with got := socket.got ++ [data] }

def PageSocket.setState (state : ReadyState) (socket : PageSocket) : PageSocket :=
  { socket with readyState := state }

namespace TerminalPage

def closeTerminal (s : TerminalPage) : TerminalPage :=
  let s := match s.terminalSocket with
    | some i => s.modifySocket i PageSocket.close
    | none => s
  { s with terminalSocket := none, disableStdin := true }

def send (s : TerminalPage) (m : PageMessage) : TerminalPage :=
  match s.terminalSocket with
  | some i => s.modifySocket i (·.send m)
  | none => s

/-- `payload.error || ('Server returned HTTP ' + response.status)` -/
def serverError (error : Option String) (status : Nat) : String :=
  if error.getD "" = "" then "Server returned HTTP " ++ toString status else error.getD ""

/-- The socket of the session; without a session identifier it is that of "undefined". -/
def newSocket (s : TerminalPage) (session : Option String) : TerminalPage :=
  { s with
    sockets := s.sockets ++ [⟨session.getD "undefined", .connecting, [], []⟩]
    terminalSocket := some s.sockets.length
    screenSocket := some s.sockets.length }

/-- The handler of the `open` event. -/
def onOpen (s : TerminalPage) (size : Option (Nat × Nat)) : TerminalPage :=
  let s := { s with disableStdin := false }
  let s := match size with
    | some (rows, columns) => s.send (.resize rows columns)
    | none => s
  { s with status := .connected }

def onError (s : TerminalPage) : TerminalPage := { s with status := .channelFailed }

def onClose (s : TerminalPage) : TerminalPage :=
  { s with disableStdin := true, status := .disconnected }

variable (xterm : Bool)

/-- A callback of the chain of the form. -/
def chainStep (s : TerminalPage) (phase : ConnectPhase) : PageAction → Option TerminalPage
  | .response ok status =>
    if phase = .fetching then some { s with chain := some (.reading ok status) } else none
  | .payload error session =>
    match phase with
    | .reading true _ => some { s with chain := some (.received session) }
    | .reading false status => some { s with chain := some (.failed (serverError error status)) }
    | _ => none
  | .reject message =>
    if phase = .fetching then some { s with chain := some (.failed message) } else none
  | .connect thrown =>
    match phase, thrown with
    | .received session, none => some { s.newSocket session with chain := some .settled }
    | .received _, some message => some { s with chain := some (.failed message) }
    | _, _ => none
  | .recover =>
    match phase with
    | .failed message => some { s with status := .failed message, chain := some .settled }
    | _ => none
  | .settle =>
    if phase = .settled then some { s with openDisabled := false, chain := none } else none
  | _ => none

/-- An event of a socket. -/
def socketEvent (s : TerminalPage) (socket : PageSocket) : PageAction → Option TerminalPage
  | .opened i size =>
    if socket.readyState = .connecting then
      some ((s.modifySocket i (·.setState .opened)).onOpen size)
    else none
  | .message i data =>
    if socket.readyState = .opened then
      some { s.modifySocket i (·.receive data) with screen := s.screen ++ [data] }
    else none
  | .closed i failed =>
    if socket.readyState = .closed then none
    else
      let s := s.modifySocket i (·.setState .closed)
      some (if failed then s.onError else s).onClose
  | _ => none

def step (s : TerminalPage) (a : PageAction) : Option TerminalPage :=
  match a with
  | .submit =>
    if s.openDisabled then none
    else if xterm then
      some { s.closeTerminal with
        screen := []
        screenSocket := none
        openDisabled := true
        status := .connecting
        chain := some .fetching }
    else some { s.closeTerminal with status := .missing }
  | .opened i _ | .message i _ | .closed i _ =>
    (s.sockets[i]?).bind fun socket => s.socketEvent socket a
  | .type data => if s.disableStdin then none else some (s.send (.input data))
  | .resize rows columns => some (s.send (.resize rows columns))
  | .leave => some s.closeTerminal
  | a => s.chain.bind fun phase => s.chainStep phase a

end TerminalPage

/-! ## What a step does -/

inductive PageStep (s : TerminalPage) : PageAction → TerminalPage → Prop
  | submit (h : s.openDisabled = false) : PageStep s .submit
      { s.closeTerminal with
        screen := []
        screenSocket := none
        openDisabled := true
        status := .connecting
        chain := some .fetching }
  | missing : PageStep s .submit { s.closeTerminal with status := .missing }
  | advance {a : PageAction} {phase phase' : ConnectPhase} (hphase : s.chain = some phase)
      (hbefore : phase ≠ .settled) (hafter : phase' ≠ .settled)
      (ha : ∀ i data, a ≠ .message i data) (ha' : ∀ i failed, a ≠ .closed i failed) :
      PageStep s a { s with chain := some phase' }
  | connect {session : Option String} (hphase : s.chain = some (.received session)) :
      PageStep s (.connect none) { s.newSocket session with chain := some .settled }
  | recover {message : String} (hphase : s.chain = some (.failed message)) :
      PageStep s .recover { s with status := .failed message, chain := some .settled }
  | settle (hphase : s.chain = some .settled) :
      PageStep s .settle { s with openDisabled := false, chain := none }
  | opened {i : Nat} (size : Option (Nat × Nat)) {socket : PageSocket}
      (hsocket : s.sockets[i]? = some socket) (hstate : socket.readyState = .connecting) :
      PageStep s (.opened i size) ((s.modifySocket i (·.setState .opened)).onOpen size)
  | message {i : Nat} (data : String) {socket : PageSocket} (hsocket : s.sockets[i]? = some socket)
      (hstate : socket.readyState = .opened) : PageStep s (.message i data)
      { s.modifySocket i (·.receive data) with screen := s.screen ++ [data] }
  | closed {i : Nat} (failed : Bool) {socket : PageSocket} (hsocket : s.sockets[i]? = some socket)
      (hstate : socket.readyState ≠ .closed) :
      PageStep s (.closed i failed) (s.modifySocket i (·.setState .closed)).onClose
  | type (data : String) (h : s.disableStdin = false) :
      PageStep s (.type data) (s.send (.input data))
  | resize (rows columns : Nat) : PageStep s (.resize rows columns) (s.send (.resize rows columns))
  | leave : PageStep s .leave s.closeTerminal

section Step

variable {xterm : Bool} {s s' : TerminalPage} {a : PageAction}

open TerminalPage

theorem chainStep_step {phase : ConnectPhase} (hphase : s.chain = some phase)
    (h : s.chainStep phase a = some s') : PageStep s a s' := by
  unfold chainStep at h
  split at h
  next ok status =>
    split at h
    · next heq =>
      subst heq
      obtain rfl := Option.some.inj h
      exact .advance hphase nofun nofun nofun nofun
    · cases h
  next error session =>
    split at h
    · obtain rfl := Option.some.inj h
      exact .advance hphase nofun nofun nofun nofun
    · obtain rfl := Option.some.inj h
      exact .advance hphase nofun nofun nofun nofun
    · cases h
  next message =>
    split at h
    · next heq =>
      subst heq
      obtain rfl := Option.some.inj h
      exact .advance hphase nofun nofun nofun nofun
    · cases h
  next thrown =>
    split at h
    · obtain rfl := Option.some.inj h
      exact .connect hphase
    · obtain rfl := Option.some.inj h
      exact .advance hphase nofun nofun nofun nofun
    · cases h
  next =>
    split at h
    · obtain rfl := Option.some.inj h
      exact .recover hphase
    · cases h
  next =>
    split at h
    · next heq =>
      subst heq
      obtain rfl := Option.some.inj h
      exact .settle hphase
    · cases h
  next => cases h

theorem pageStep_step (h : step xterm s a = some s') : PageStep s a s' := by
  unfold step at h
  split at h
  next =>
    split at h
    · cases h
    · next henabled =>
      split at h
      · obtain rfl := Option.some.inj h
        exact .submit (Bool.eq_false_iff.mpr henabled)
      · obtain rfl := Option.some.inj h
        exact .missing
  next i size =>
    obtain ⟨socket, hsocket, hevent⟩ := Option.bind_eq_some_iff.mp h
    dsimp only [socketEvent] at hevent
    split at hevent
    · next hstate =>
      obtain rfl := Option.some.inj hevent
      exact .opened size hsocket hstate
    · cases hevent
  next i data =>
    obtain ⟨socket, hsocket, hevent⟩ := Option.bind_eq_some_iff.mp h
    dsimp only [socketEvent] at hevent
    split at hevent
    · next hstate =>
      obtain rfl := Option.some.inj hevent
      exact .message data hsocket hstate
    · cases hevent
  next i failed =>
    obtain ⟨socket, hsocket, hevent⟩ := Option.bind_eq_some_iff.mp h
    dsimp only [socketEvent] at hevent
    split at hevent
    · cases hevent
    · next hstate =>
      obtain rfl := Option.some.inj hevent
      -- the handler of `close` writes over what the handler of `error` wrote
      cases failed <;> exact .closed _ hsocket hstate
  next data =>
    split at h
    · cases h
    · next henabled =>
      obtain rfl := Option.some.inj h
      exact .type data (Bool.eq_false_iff.mpr henabled)
  next rows columns =>
    obtain rfl := Option.some.inj h
    exact .resize rows columns
  next =>
    obtain rfl := Option.some.inj h
    exact .leave
  next =>
    obtain ⟨phase, hphase, hchain⟩ := Option.bind_eq_some_iff.mp h
    exact chainStep_step hphase hchain

end Step

/-! ## The invariant -/

/-- A socket that nobody has begun to close. -/
def PageSocket.Live (socket : PageSocket) : Prop :=
  socket.readyState = .connecting ∨ socket.readyState = .opened

namespace TerminalPage

/-- What the socket received that the emulator shows. -/
def shown (s : TerminalPage) : List String :=
  (s.screenSocket.bind fun i => (s.sockets[i]?).map PageSocket.got).getD []

structure Ok (s : TerminalPage) : Prop where
  live : ∀ i socket, s.sockets[i]? = some socket → socket.Live → s.terminalSocket = some i
  screenSocket : ∀ i, s.terminalSocket = some i → s.screenSocket = some i
  stdin : s.disableStdin = false → ∃ i socket, s.terminalSocket = some i ∧
    s.sockets[i]? = some socket ∧ socket.readyState = .opened
  screen : s.screen = s.shown
  /-- while a session is asked for, no socket is in use and nothing is shown -/
  chain : ∀ phase, s.chain = some phase → phase ≠ .settled →
    s.terminalSocket = none ∧ s.screenSocket = none
  busy : s.openDisabled = s.chain.isSome

theorem ok_start : Ok start where
  live _ _ h := nomatch h
  screenSocket _ h := nomatch h
  stdin h := nomatch h
  screen := rfl
  chain _ h := nomatch h
  busy := rfl

variable {s s' : TerminalPage} {a : PageAction} {i j : Nat} {socket : PageSocket}

theorem getElem?_modifySocket (s : TerminalPage) (i j : Nat) (f : PageSocket → PageSocket) :
    (s.modifySocket i f).sockets[j]? =
      (s.sockets[j]?).map fun socket => if i = j then f socket else socket := by
  unfold modifySocket
  rw [List.getElem?_modify]
  rfl

theorem modifySocket_cases {f : PageSocket → PageSocket}
    (h : (s.modifySocket i f).sockets[j]? = some socket) :
    ∃ old, s.sockets[j]? = some old ∧ socket = if i = j then f old else old := by
  rw [getElem?_modifySocket] at h
  obtain ⟨old, hold, rfl⟩ := Option.map_eq_some_iff.mp h
  exact ⟨old, hold, rfl⟩

/-- A change of a socket that receives nothing. -/
theorem shown_modifySocket {f : PageSocket → PageSocket}
    (hf : ∀ socket, (f socket).got = socket.got) : (s.modifySocket i f).shown = s.shown := by
  unfold shown
  show (Option.bind s.screenSocket _).getD [] = _
  congr 1
  refine Option.bind_congr fun j _ => ?_
  rw [getElem?_modifySocket, Option.map_map]
  congr 1
  funext socket
  show (if i = j then f socket else socket).got = socket.got
  split
  · exact hf socket
  · rfl

theorem close_got (socket : PageSocket) : socket.close.got = socket.got := by
  unfold PageSocket.close
  split <;> rfl

theorem close_not_live (socket : PageSocket) : ¬ socket.close.Live := by
  unfold PageSocket.close PageSocket.Live
  cases hstate : socket.readyState <;> simp [hstate]

theorem send_got (m : PageMessage) (socket : PageSocket) : (socket.send m).got = socket.got := by
  unfold PageSocket.send
  split <;> rfl

theorem send_readyState (m : PageMessage) (socket : PageSocket) :
    (socket.send m).readyState = socket.readyState := by
  unfold PageSocket.send
  split <;> rfl

/-- After `closeTerminal` no socket is in use. -/
theorem closeTerminal_not_live (h : Ok s) (hsocket : s.closeTerminal.sockets[i]? = some socket) :
    ¬ socket.Live := by
  unfold closeTerminal at hsocket
  cases hterminal : s.terminalSocket with
  | none =>
    rw [hterminal] at hsocket
    intro hlive
    cases hterminal.symm.trans (h.live i socket hsocket hlive)
  | some j =>
    rw [hterminal] at hsocket
    obtain ⟨old, hold, rfl⟩ := modifySocket_cases hsocket
    split
    · exact close_not_live old
    · next hne =>
      intro hlive
      exact hne (Option.some.inj (hterminal.symm.trans (h.live i old hold hlive)))

theorem shown_closeTerminal (s : TerminalPage) : s.closeTerminal.shown = s.shown := by
  unfold closeTerminal
  split
  · next i _ =>
    show (s.modifySocket i PageSocket.close).shown = s.shown
    exact shown_modifySocket close_got
  · rfl

theorem closeTerminal_fields (s : TerminalPage) : s.closeTerminal.screen = s.screen ∧
    s.closeTerminal.screenSocket = s.screenSocket ∧ s.closeTerminal.chain = s.chain ∧
      s.closeTerminal.openDisabled = s.openDisabled := by
  unfold closeTerminal
  split <;> exact ⟨rfl, rfl, rfl, rfl⟩

theorem Ok.closeTerminal (h : Ok s) : Ok s.closeTerminal := by
  obtain ⟨hscreen, hscreenSocket, hchain, hbusy⟩ := closeTerminal_fields s
  refine ⟨fun i socket hsocket hlive => absurd hlive (closeTerminal_not_live h hsocket),
    fun i hi => (nomatch hi), fun hstdin => (nomatch hstdin), ?_, fun phase hphase hne => ?_, ?_⟩
  · rw [hscreen, shown_closeTerminal]
    exact h.screen
  · rw [hchain] at hphase
    exact ⟨rfl, hscreenSocket.trans (h.chain phase hphase hne).2⟩
  · rw [hbusy, hchain]
    exact h.busy

/-- Sending is for the socket in use. -/
theorem getElem?_send (s : TerminalPage) (m : PageMessage) (i : Nat) :
    (s.send m).sockets[i]? = (s.sockets[i]?).map fun socket =>
      if s.terminalSocket = some i then socket.send m else socket := by
  unfold TerminalPage.send
  cases s.terminalSocket with
  | none => simp
  | some j => simp [getElem?_modifySocket]

theorem send_fields (s : TerminalPage) (m : PageMessage) :
    (s.send m).terminalSocket = s.terminalSocket ∧ (s.send m).disableStdin = s.disableStdin ∧
      (s.send m).status = s.status ∧ (s.send m).screen = s.screen ∧
      (s.send m).screenSocket = s.screenSocket ∧ (s.send m).chain = s.chain ∧
      (s.send m).openDisabled = s.openDisabled ∧ (s.send m).shown = s.shown := by
  unfold TerminalPage.send
  split
  · exact ⟨rfl, rfl, rfl, rfl, rfl, rfl, rfl, shown_modifySocket (send_got m)⟩
  · exact ⟨rfl, rfl, rfl, rfl, rfl, rfl, rfl, rfl⟩

theorem Ok.send (h : Ok s) (m : PageMessage) : Ok (s.send m) := by
  obtain ⟨hterminal, hstdin, -, hscreen, hsocket, hchain, hbusy, hshown⟩ := send_fields s m
  have hstate : ∀ socket : PageSocket, ∀ i,
      (if s.terminalSocket = some i then socket.send m else socket).readyState =
        socket.readyState := by
    intro socket i
    split
    · exact send_readyState m socket
    · rfl
  refine ⟨fun i socket hi hlive => ?_, ?_, fun hfalse => ?_, ?_, ?_, ?_⟩
  · rw [getElem?_send] at hi
    obtain ⟨old, hold, rfl⟩ := Option.map_eq_some_iff.mp hi
    unfold PageSocket.Live at hlive
    rw [hstate] at hlive
    exact hterminal.trans (h.live i old hold hlive)
  · rw [hterminal, hsocket]
    exact h.screenSocket
  · obtain ⟨i, socket, hi, hat, hopened⟩ := h.stdin (hstdin ▸ hfalse)
    refine ⟨i, _, hterminal.trans hi, ?_, (hstate socket i).trans hopened⟩
    rw [getElem?_send, hat]
    rfl
  · rw [hscreen, hshown]
    exact h.screen
  · rw [hchain, hterminal, hsocket]
    exact h.chain
  · rw [hbusy, hchain]
    exact h.busy

/-- The screen is that of the socket in use. -/
theorem shown_of_terminal (h : Ok s) (hlive : socket.Live) (hsocket : s.sockets[i]? = some socket) :
    s.screenSocket = some i ∧ s.shown = socket.got := by
  have hscreen := h.screenSocket i (h.live i socket hsocket hlive)
  refine ⟨hscreen, ?_⟩
  unfold shown
  rw [hscreen, Option.bind_some, hsocket]
  rfl

/-- A live socket opens. -/
theorem Ok.setOpened (h : Ok s) (hsocket : s.sockets[i]? = some socket) (hlive : socket.Live) :
    Ok { s.modifySocket i (·.setState .opened) with disableStdin := false } := by
  have hterminal := h.live i socket hsocket hlive
  refine ⟨fun j socket' hj hlive' => ?_, h.screenSocket, fun _ => ⟨i, socket.setState .opened,
    hterminal, ?_, rfl⟩, ?_, h.chain, h.busy⟩
  · obtain ⟨old, hold, rfl⟩ := modifySocket_cases hj
    split at hlive'
    · next heq => exact heq ▸ hterminal
    · exact h.live j old hold hlive'
  · show (s.modifySocket i _).sockets[i]? = _
    rw [getElem?_modifySocket, hsocket, Option.map_some, if_pos rfl]
  · have hshown : (s.modifySocket i (·.setState .opened)).shown = s.shown :=
      shown_modifySocket fun _ => rfl
    exact h.screen.trans hshown.symm

theorem Ok.receive (h : Ok s) (data : String) (hsocket : s.sockets[i]? = some socket)
    (hstate : socket.readyState = .opened) :
    Ok { s.modifySocket i (·.receive data) with screen := s.screen ++ [data] } := by
  have hat : (s.modifySocket i (·.receive data)).sockets[i]? = some (socket.receive data) := by
    rw [getElem?_modifySocket, hsocket, Option.map_some, if_pos rfl]
  obtain ⟨hscreen, hshown⟩ := shown_of_terminal h (.inr hstate) hsocket
  have hstates : ∀ (j : Nat) (socket' : PageSocket),
      (s.modifySocket i (·.receive data)).sockets[j]? = some socket' →
        ∃ old, s.sockets[j]? = some old ∧ socket'.readyState = old.readyState := by
    intro j socket' hj
    obtain ⟨old, hold, rfl⟩ := modifySocket_cases hj
    refine ⟨old, hold, ?_⟩
    split <;> rfl
  refine ⟨fun j socket' hj hlive => ?_, h.screenSocket, fun hfalse => ?_, ?_, h.chain, h.busy⟩
  · obtain ⟨old, hold, heq⟩ := hstates j socket' hj
    unfold PageSocket.Live at hlive
    rw [heq] at hlive
    exact h.live j old hold hlive
  · exact ⟨i, socket.receive data, h.live i socket hsocket (.inr hstate), hat, hstate⟩
  · show s.screen ++ [data] = (s.modifySocket i (·.receive data)).shown
    have hnew : (s.modifySocket i (·.receive data)).shown = (socket.receive data).got := by
      unfold shown
      show ((s.screenSocket.bind _).getD []) = _
      rw [hscreen, Option.bind_some, hat]
      rfl
    rw [hnew, h.screen, hshown]
    rfl

theorem Ok.setClosed (h : Ok s) (i : Nat) :
    Ok (s.modifySocket i (·.setState .closed)).onClose := by
  refine ⟨fun j socket hj hlive => ?_, h.screenSocket, fun hfalse => (nomatch hfalse), ?_, h.chain,
    h.busy⟩
  · obtain ⟨old, hold, rfl⟩ := modifySocket_cases hj
    split at hlive
    · rcases hlive with hlive | hlive <;> cases hlive
    · exact h.live j old hold hlive
  · have hshown : (s.modifySocket i (·.setState .closed)).shown = s.shown :=
      shown_modifySocket fun _ => rfl
    exact h.screen.trans hshown.symm

theorem newSocket_cases {session : Option String}
    (h : (s.newSocket session).sockets[i]? = some socket) : s.sockets[i]? = some socket ∨
      i = s.sockets.length ∧ socket = ⟨session.getD "undefined", .connecting, [], []⟩ := by
  have h : (s.sockets ++ [_])[i]? = some socket := h
  rw [List.getElem?_append] at h
  split at h
  · exact .inl h
  · rw [List.getElem?_singleton] at h
    split at h
    · next hlength hzero => exact .inr ⟨by omega, (Option.some.inj h).symm⟩
    · cases h

theorem Ok.newSocket (h : Ok s) {session : Option String}
    (hphase : s.chain = some (.received session)) :
    Ok { s.newSocket session with chain := some .settled } := by
  obtain ⟨hterminal, hblank⟩ := h.chain _ hphase nofun
  refine ⟨fun i socket hi hlive => ?_, fun i hi => hi, fun hfalse => ?_, ?_, ?_, ?_⟩
  · rcases newSocket_cases hi with hold | ⟨rfl, -⟩
    · cases hterminal.symm.trans (h.live i socket hold hlive)
    · rfl
  · obtain ⟨i, socket, hi, -⟩ := h.stdin hfalse
    cases hterminal.symm.trans hi
  · have hscreen : s.screen = [] := by
      rw [h.screen]
      unfold shown
      rw [hblank]
      rfl
    show s.screen = (s.newSocket session).shown
    rw [hscreen]
    unfold shown TerminalPage.newSocket
    simp
  · rintro phase hchain hne
    exact absurd (Option.some.inj hchain).symm hne
  · show s.openDisabled = true
    rw [h.busy, hphase]
    rfl

theorem Ok.step (h : Ok s) (hstep : PageStep s a s') : Ok s' := by
  cases hstep with
  | submit henabled =>
    have hclosed := h.closeTerminal
    exact ⟨hclosed.live, fun i hi => (nomatch hi), fun hfalse => (nomatch hfalse), rfl,
      fun _ _ _ => ⟨rfl, rfl⟩, rfl⟩
  | missing =>
    have hclosed := h.closeTerminal
    exact ⟨hclosed.live, hclosed.screenSocket, hclosed.stdin, hclosed.screen, hclosed.chain,
      hclosed.busy⟩
  | @advance _ phase phase' hphase hbefore =>
    refine ⟨h.live, h.screenSocket, h.stdin, h.screen, fun _ _ _ => h.chain phase hphase hbefore,
      ?_⟩
    show s.openDisabled = true
    rw [h.busy, hphase]
    rfl
  | connect hphase => exact h.newSocket hphase
  | recover hphase =>
    refine ⟨h.live, h.screenSocket, h.stdin, h.screen, fun phase hchain hne => ?_, ?_⟩
    · exact absurd (Option.some.inj hchain).symm hne
    · show s.openDisabled = true
      rw [h.busy, hphase]
      rfl
  | settle hphase =>
    exact ⟨h.live, h.screenSocket, h.stdin, h.screen, fun _ hchain => (nomatch hchain), rfl⟩
  | @opened i size socket hsocket hstate =>
    have hopened := h.setOpened hsocket (.inl hstate)
    unfold onOpen
    cases size with
    | none =>
      exact ⟨hopened.live, hopened.screenSocket, hopened.stdin, hopened.screen, hopened.chain,
        hopened.busy⟩
    | some size =>
      have hsent := hopened.send (.resize size.1 size.2)
      exact ⟨hsent.live, hsent.screenSocket, hsent.stdin, hsent.screen, hsent.chain, hsent.busy⟩
  | message data hsocket hstate => exact h.receive data hsocket hstate
  | closed failed hsocket hstate => exact h.setClosed _
  | type data henabled => exact h.send (.input data)
  | resize rows columns => exact h.send (.resize rows columns)
  | leave => exact h.closeTerminal

/-! ## Typing -/

/-- An open socket can be typed on, and the page says that it is connected. -/
def Ready (s : TerminalPage) : Prop := ∀ i socket, s.terminalSocket = some i →
  s.sockets[i]? = some socket → socket.readyState = .opened →
    s.disableStdin = false ∧ s.status = .connected

/-- While a socket is open, no other one is done with closing. -/
def NoLateClose (s : TerminalPage) : PageAction → Prop
  | .closed j _ => ∀ i socket, s.terminalSocket = some i → s.sockets[i]? = some socket →
    socket.readyState = .opened → j = i
  | _ => True

/-- A change that leaves the page ready, or not. -/
theorem ready_of_eq (hterminal : s'.terminalSocket = s.terminalSocket)
    (hstates : ∀ (i : Nat) (socket' : PageSocket), s'.sockets[i]? = some socket' →
      ∃ socket : PageSocket, s.sockets[i]? = some socket ∧
        (socket'.readyState = .opened → socket.readyState = .opened))
    (hstdin : s'.disableStdin = s.disableStdin) (hstatus : s'.status = s.status) (h : Ready s) :
    Ready s' := by
  intro i socket' hi hsocket' hopened
  obtain ⟨socket, hsocket, hsame⟩ := hstates i socket' hsocket'
  rw [hstdin, hstatus]
  exact h i socket (hterminal ▸ hi) hsocket (hsame hopened)

theorem ready_of_no_socket (h : s.terminalSocket = none) : Ready s := by
  intro i socket hi
  cases h.symm.trans hi

theorem Ready.send (h : Ready s) (m : PageMessage) : Ready (s.send m) := by
  obtain ⟨hterminal, hstdin, hstatus, -⟩ := send_fields s m
  refine ready_of_eq hterminal (fun i socket' hi => ?_) hstdin hstatus h
  rw [getElem?_send] at hi
  obtain ⟨socket, hsocket, rfl⟩ := Option.map_eq_some_iff.mp hi
  refine ⟨socket, hsocket, fun hopened => ?_⟩
  split at hopened
  · rwa [send_readyState] at hopened
  · exact hopened

theorem ready_step_iff (h : Ok s) (hs : Ready s) (hstep : PageStep s a s') :
    Ready s' ↔ s.NoLateClose a := by
  cases hstep with
  | submit => exact iff_of_true (ready_of_no_socket rfl) trivial
  | missing => exact iff_of_true (ready_of_no_socket rfl) trivial
  | advance hphase hbefore hafter ha ha' =>
    have hready := ready_of_no_socket (h.chain _ hphase hbefore).1
    refine iff_of_true hready ?_
    unfold NoLateClose
    split
    · next j failed => exact absurd rfl (ha' j failed)
    · trivial
  | @connect session hphase =>
    refine iff_of_true (fun i socket hi hsocket hopened => ?_) trivial
    obtain rfl := Option.some.inj hi
    rcases newSocket_cases hsocket with hold | ⟨-, rfl⟩
    · cases (h.chain _ hphase nofun).1.symm.trans (h.live _ socket hold (.inr hopened))
    · cases hopened
  | recover hphase =>
    have hterminal := (h.chain _ hphase nofun).1
    exact iff_of_true (ready_of_no_socket hterminal) trivial
  | settle hphase =>
    exact iff_of_true (ready_of_eq rfl (fun i socket hi => ⟨socket, hi, id⟩) rfl rfl hs) trivial
  | @opened i size socket hsocket hstate =>
    refine iff_of_true (fun j socket' hj hsocket' hopened => ⟨?_, rfl⟩) trivial
    unfold onOpen
    cases size with
    | none => rfl
    | some size => exact (send_fields _ _).2.1
  | @message i data socket hsocket hstate =>
    refine iff_of_true (ready_of_eq (s := s) rfl (fun j socket' hj => ?_) rfl rfl hs) trivial
    obtain ⟨old, hold, rfl⟩ := modifySocket_cases hj
    refine ⟨old, hold, fun hopened => ?_⟩
    split at hopened <;> exact hopened
  | @closed i failed socket hsocket hstate =>
    constructor
    · intro hready k socket' hk hsocket' hopened
      by_contra hne
      have hat : (s.modifySocket i (·.setState .closed)).sockets[k]? = some socket' := by
        rw [getElem?_modifySocket, hsocket', Option.map_some, if_neg hne]
      -- the handler of the other socket has disabled the input
      exact nomatch (hready k socket' hk hat hopened).1
    · intro hnone k socket' hk hsocket' hopened
      obtain ⟨old, hold, rfl⟩ := modifySocket_cases hsocket'
      split at hopened
      · cases hopened
      · next hne => exact absurd (hnone k old hk hold hopened) hne
  | type data henabled => exact iff_of_true (hs.send _) trivial
  | resize rows columns => exact iff_of_true (hs.send _) trivial
  | leave => exact iff_of_true (ready_of_no_socket rfl) trivial

/-- The text for a channel that could not be opened does not stay. -/
theorem status_step (h : s.status ≠ .channelFailed) (hstep : PageStep s a s') :
    s'.status ≠ .channelFailed := by
  cases hstep with
  | submit => exact nofun
  | missing => exact nofun
  | advance => exact h
  | connect => exact h
  | recover => exact nofun
  | settle => exact h
  | opened => exact nofun
  | message => exact h
  | closed => exact nofun
  | type data => rwa [(send_fields s _).2.2.1]
  | resize => rwa [(send_fields s _).2.2.1]
  | leave =>
    unfold closeTerminal
    split <;> exact h

/-! ## What the sockets carry -/

/-- What a step adds to a socket: what is sent grows, and only a message is received. -/
def Grows (a : PageAction) (i : Nat) (old new : PageSocket) : Prop :=
  old.sent <+: new.sent ∧
    (new.got = old.got ∨ ∃ data, a = .message i data ∧ new.got = old.got ++ [data])

theorem grows_modifySocket {f : PageSocket → PageSocket}
    (hf : ∀ socket, Grows a i socket (f socket)) {j : Nat}
    (h : (s.modifySocket i f).sockets[j]? = some socket) :
    ∃ old, s.sockets[j]? = some old ∧ Grows a j old socket := by
  obtain ⟨old, hold, rfl⟩ := modifySocket_cases h
  refine ⟨old, hold, ?_⟩
  split
  · next heq => exact heq ▸ hf old
  · exact ⟨List.prefix_refl _, .inl rfl⟩

theorem grows_send (m : PageMessage) (h : (s.send m).sockets[i]? = some socket) :
    ∃ old, s.sockets[i]? = some old ∧ Grows a i old socket := by
  rw [getElem?_send] at h
  obtain ⟨old, hold, rfl⟩ := Option.map_eq_some_iff.mp h
  refine ⟨old, hold, ?_⟩
  split
  · refine ⟨?_, .inl (send_got m old)⟩
    unfold PageSocket.send
    split
    · exact List.prefix_append ..
    · exact List.prefix_refl _
  · exact ⟨List.prefix_refl _, .inl rfl⟩

theorem grows_closeTerminal (h : s.closeTerminal.sockets[i]? = some socket) :
    ∃ old, s.sockets[i]? = some old ∧ Grows a i old socket := by
  unfold closeTerminal at h
  split at h
  · refine grows_modifySocket (fun socket => ?_) h
    refine ⟨?_, .inl (close_got socket)⟩
    unfold PageSocket.close
    split <;> exact List.prefix_refl _
  · exact ⟨socket, h, List.prefix_refl _, .inl rfl⟩

/-- A socket after a step was there before, or it is new. -/
theorem sockets_step (hstep : PageStep s a s') (h : s'.sockets[i]? = some socket) :
    (∃ old, s.sockets[i]? = some old ∧ Grows a i old socket) ∨
      i = s.sockets.length ∧ socket.sent = [] ∧ socket.got = [] := by
  have hstate : ∀ (state : ReadyState) (socket : PageSocket) (j : Nat),
      Grows a j socket (socket.setState state) :=
    fun _ _ _ => ⟨List.prefix_refl _, .inl rfl⟩
  cases hstep with
  | submit => exact .inl (grows_closeTerminal h)
  | missing => exact .inl (grows_closeTerminal h)
  | advance => exact .inl ⟨socket, h, List.prefix_refl _, .inl rfl⟩
  | connect hphase =>
    rcases newSocket_cases h with hold | ⟨hi, rfl⟩
    · exact .inl ⟨socket, hold, List.prefix_refl _, .inl rfl⟩
    · exact .inr ⟨hi, rfl, rfl⟩
  | recover => exact .inl ⟨socket, h, List.prefix_refl _, .inl rfl⟩
  | settle => exact .inl ⟨socket, h, List.prefix_refl _, .inl rfl⟩
  | @opened j size old hold hopened =>
    left
    cases size with
    | none => exact grows_modifySocket (hstate .opened · j) h
    | some size =>
      obtain ⟨mid, hmid, hsent⟩ := grows_send (a := .opened j (some size)) _ h
      obtain ⟨old, hold, hgrows⟩ := grows_modifySocket (hstate .opened · j) hmid
      refine ⟨old, hold, hgrows.1.trans hsent.1, ?_⟩
      rcases hsent.2 with hgot | ⟨data, ha, -⟩
      · rcases hgrows.2 with hgot' | ⟨data, ha, -⟩
        · exact .inl (hgot.trans hgot')
        · cases ha
      · cases ha
  | @message j data old hold hopened =>
    left
    obtain ⟨old, hold, rfl⟩ := modifySocket_cases h
    refine ⟨old, hold, ?_⟩
    split
    · next heq => exact ⟨List.prefix_refl _, .inr ⟨data, by rw [heq], rfl⟩⟩
    · exact ⟨List.prefix_refl _, .inl rfl⟩
  | @closed j failed old hold hopened => exact .inl (grows_modifySocket (hstate .closed · j) h)
  | type data => exact .inl (grows_send _ h)
  | resize rows columns => exact .inl (grows_send _ h)
  | leave => exact .inl (grows_closeTerminal h)

/-- No socket is forgotten. -/
theorem sockets_length (hstep : PageStep s a s') : s.sockets.length ≤ s'.sockets.length := by
  have hmodify (t : TerminalPage) (j : Nat) (f : PageSocket → PageSocket) :
      (t.modifySocket j f).sockets.length = t.sockets.length := List.length_modify ..
  have hsend (t : TerminalPage) (m : PageMessage) :
      (t.send m).sockets.length = t.sockets.length := by
    unfold TerminalPage.send
    split
    · exact hmodify ..
    · rfl
  have hclose : s.closeTerminal.sockets.length = s.sockets.length := by
    unfold closeTerminal
    split
    · exact hmodify ..
    · rfl
  cases hstep with
  | submit => exact Nat.le_of_eq hclose.symm
  | missing => exact Nat.le_of_eq hclose.symm
  | advance => exact Nat.le_refl _
  | connect => simp [TerminalPage.newSocket]
  | recover => exact Nat.le_refl _
  | settle => exact Nat.le_refl _
  | @opened j size =>
    cases size with
    | none => exact Nat.le_of_eq (hmodify ..).symm
    | some size =>
      have hsent := hsend { s.modifySocket j (·.setState .opened) with disableStdin := false }
        (.resize size.1 size.2)
      exact Nat.le_of_eq (hsent.trans (hmodify ..)).symm
  | message => exact Nat.le_of_eq (hmodify ..).symm
  | closed => exact Nat.le_of_eq (hmodify ..).symm
  | type => exact Nat.le_of_eq (hsend ..).symm
  | resize => exact Nat.le_of_eq (hsend ..).symm
  | leave => exact Nat.le_of_eq hclose.symm

end TerminalPage

/-! ## Runs -/

variable {xterm : Bool} {s : TerminalPage} {acts : List PageAction}

theorem page_reachable (h : Run (TerminalPage.step xterm) (fun _ _ => True) .start acts s) : s.Ok :=
  h.invariant TerminalPage.Ok TerminalPage.ok_start fun _ _ _ hok _ hstep =>
    hok.step (pageStep_step hstep)

/-- A session whose socket opens, and then another one. -/
def reconnectActs : List PageAction :=
  [.submit, .response true 201, .payload none (some "a"), .connect none, .settle,
    .opened 0 (some (24, 100)), .type "ls", .submit, .response true 201,
    .payload none (some "b"), .connect none, .settle, .opened 1 none]

theorem reconnectActs_run :
    (exec (TerminalPage.step true) (fun _ _ => true) .start reconnectActs).isSome := by
  decide +kernel

/-- The first socket is done with closing after the second one has opened. -/
example : ((exec (TerminalPage.step true) (fun _ _ => true) .start
      (reconnectActs ++ [.closed 0 false])).map fun s =>
        (s.terminalSocket, s.sockets.map PageSocket.readyState, s.disableStdin, s.status)) =
    some (some 1, [.closed, .opened], true, .disconnected) := by
  decide +kernel

end OpenHpcWeb.Web
