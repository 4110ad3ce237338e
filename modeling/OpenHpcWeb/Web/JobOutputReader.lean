/-
  The parent of the process that reads a job's output as its user
  (internal/web/job_output_fsuid_linux.go).

  `exec.Cmd.Run` copies what the child writes into `boundedJobOutputResponse` with `io.Copy`.
  The type overrides `Write` of the `bytes.Buffer` that it embeds; `ReadFrom` is promoted from
  the buffer, so that is what `io.Copy` calls, and it does not look at the limit.

  * `deliver_bounded_iff`: the bound holds exactly for the streams that are within it.
  * `write_bounded`: with `Write` alone it would hold for all of them.
-/
import OpenHpcWeb.Go.Bytes
import OpenHpcWeb.Go.Io
import OpenHpcWeb.Web.Jobs

namespace OpenHpcWeb.Web

open OpenHpcWeb.Go

/-! ## The response -/

structure BoundedJobOutputResponse extends Buffer where
  limit : Int
  exceeded : Bool

namespace BoundedJobOutputResponse

def empty (limit : Int) : BoundedJobOutputResponse := ⟨⟨[]⟩, limit, false⟩

/-- The override of `Write`. -/
def write (content : List UInt8) (response : BoundedJobOutputResponse) :
    Nat × Option String × BoundedJobOutputResponse :=
  let originalLength := content.length
  let room := response.limit - response.len
  let exceeded := response.exceeded || room < content.length
  let content := if room < content.length then content.take (max room 0).toNat else content
  match response.toBuffer.write content with
  | (_, err, buffer) => (originalLength, err, ⟨buffer, response.limit, exceeded⟩)

/-- The method set: `ReadFrom` is that of the embedded buffer. -/
def writer : Writer BoundedJobOutputResponse where
  write := write
  readFrom := some fun chunk response =>
    { response with toBuffer := response.toBuffer.readFrom chunk }

end BoundedJobOutputResponse

/-- The response after a child has written `chunks` to it. -/
def deliver (limit : Int) (chunks : List (List UInt8)) : BoundedJobOutputResponse :=
  (ioCopy BoundedJobOutputResponse.writer chunks (.empty limit)).2

/-! ## `readJobOutputAsUser` -/

inductive ReaderError where
  | unavailable
  | context (err : ContextError)
  /-- the text that the child wrote to stderr -/
  | reader (detail : List UInt8)
  | start (err : String)
  deriving DecidableEq

structure ReaderHost where
  geteuid : Int
  /-- the error of `os.Executable` -/
  executable : Option String
  readAtCurrentIdentity : String → Except ReaderError (List UInt8 × Bool)

/-- What a run of the child does: its streams as the pipes deliver them, the error of the process
    and of the context. The copies of the streams end without an error (`deliver_eq`). -/
structure ReaderChild where
  stdout : List (List UInt8)
  stderr : List (List UInt8)
  exit : Option String
  ctxErr : Option ContextError

def maxJobOutputBytes : Int := 256 * 2 ^ 10

def outputLimit : Int := maxJobOutputBytes + 1

def diagnosticsLimit : Int := 1024

def validJobOutputUserID (userID : GoInt) : Bool := 0 < userID.val && userID.val < 2 ^ 32

def validJobOutputGroupID (groupID : GoInt) : Bool := 0 < groupID.val && groupID.val < 2 ^ 32

/-- `readJobOutputAsUser` after `command.Run`. -/
def readerResult (child : ReaderChild) (output diagnostics : BoundedJobOutputResponse) :
    Except ReaderError (List UInt8 × Bool) :=
  match child.exit with
  | some err =>
    match child.ctxErr with
    | some contextErr => .error (.context contextErr)
    | none =>
      let detail := Bytes.trimSpace diagnostics.bytes
      if detail ≠ [] then .error (.reader detail) else .error (.start err)
  | none =>
    if output.exceeded then .error .unavailable
    else
      match output.bytes with
      | [] => .error .unavailable
      | first :: content =>
        if first ≠ 0 ∧ first ≠ 1 then .error .unavailable else .ok (content, first = 1)

def readJobOutputAsUser (host : ReaderHost) (userID groupID : GoInt) (path : String)
    (child : ReaderChild) : Except ReaderError (List UInt8 × Bool) :=
  if validJobOutputUserID userID = false then .error .unavailable
  else if host.geteuid = userID.val then host.readAtCurrentIdentity path
  else if validJobOutputGroupID groupID = false then .error .unavailable
  else if host.executable.isSome then .error .unavailable
  else
    readerResult child (deliver outputLimit child.stdout) (deliver diagnosticsLimit child.stderr)

/-! ## The bound -/

/-- The response keeps what it is given, within the limit or not. -/
theorem deliver_eq (limit : Int) (chunks : List (List UInt8)) :
    ioCopy BoundedJobOutputResponse.writer chunks (.empty limit) =
      (none, ⟨⟨chunks.flatten⟩, limit, false⟩) := by
  have hkeeps : BoundedJobOutputResponse.writer.Keeps
      fun data response => response = ⟨⟨data⟩, limit, false⟩ := by
    intro data response chunk hresponse
    rw [hresponse]
    rfl
  obtain ⟨herr, hstate⟩ := ioCopy_invariant hkeeps (s := .empty limit) rfl chunks
  exact Prod.ext herr hstate

/-- A response that never holds more than its limit, and reports exactly the streams that are
    longer. -/
structure Bounded (limit : Int) (chunks : List (List UInt8)) : Prop where
  /-- after every read of the stream -/
  held : ∀ reads, ((deliver limit (chunks.take reads)).bytes.length : Int) ≤ limit
  exceeded : (deliver limit chunks).exceeded = true ↔ limit < chunks.flatten.length

theorem deliver_bounded_iff (limit : Int) (chunks : List (List UInt8)) :
    Bounded limit chunks ↔ (chunks.flatten.length : Int) ≤ limit := by
  constructor
  · intro h
    have hall := h.held chunks.length
    rwa [List.take_length, deliver, deliver_eq] at hall
  · intro hle
    constructor
    · intro reads
      have hpre := (List.take_prefix reads chunks).flatten.length_le
      rw [deliver, deliver_eq]
      show ((chunks.take reads).flatten.length : Int) ≤ limit
      omega
    · rw [deliver, deliver_eq]
      exact iff_of_false Bool.false_ne_true (by omega)

/-- `Write` on a response that holds the start of `data`. -/
theorem write_take (limit : Nat) (data content : List UInt8) :
    BoundedJobOutputResponse.write content ⟨⟨data.take limit⟩, limit, limit < data.length⟩ =
      (content.length, none,
        ⟨⟨(data ++ content).take limit⟩, limit, limit < (data ++ content).length⟩) := by
  have hlen : (data.take limit).length = min limit data.length := List.length_take
  have hroom : (max ((limit : Int) - (min limit data.length : Nat)) 0).toNat =
      limit - data.length := by omega
  simp only [BoundedJobOutputResponse.write, Buffer.len, Buffer.write, hlen, hroom,
    List.take_append, List.length_append, Prod.mk.injEq, true_and,
    BoundedJobOutputResponse.mk.injEq, Buffer.mk.injEq, List.append_cancel_left_eq]
  constructor
  · split
    · rfl
    · next hfits =>
      exact (List.take_of_length_le (by omega)).symm
  · rw [Bool.eq_iff_iff]
    simp only [Bool.or_eq_true, decide_eq_true_eq]
    omega

/-- Where `io.Copy` calls `Write`, the response holds the start of the stream and knows whether
    there was more. -/
theorem write_bounded (limit : Nat) (chunks : List (List UInt8)) :
    (ioCopy { BoundedJobOutputResponse.writer with readFrom := none } chunks (.empty limit)).2 =
      ⟨⟨chunks.flatten.take limit⟩, limit, limit < chunks.flatten.length⟩ := by
  have hkeeps : Writer.Keeps { BoundedJobOutputResponse.writer with readFrom := none }
      fun data response => response = ⟨⟨data.take limit⟩, limit, limit < data.length⟩ := by
    intro data response chunk hresponse
    rw [hresponse]
    exact ⟨_, write_take limit data chunk, rfl⟩
  have hempty : BoundedJobOutputResponse.empty limit =
      ⟨⟨([] : List UInt8).take limit⟩, limit, limit < ([] : List UInt8).length⟩ := by
    simp [BoundedJobOutputResponse.empty]
  exact (ioCopy_invariant hkeeps hempty chunks).2

/-! ## What the reader's parent gives out -/

/-- Both responses are bounded, and no content comes of a longer output. -/
structure OutputBounded (host : ReaderHost) (userID groupID : GoInt) (path : String)
    (child : ReaderChild) : Prop where
  stdout : Bounded outputLimit child.stdout
  stderr : Bounded diagnosticsLimit child.stderr
  refused : outputLimit < child.stdout.flatten.length → ∀ content truncated,
    readJobOutputAsUser host userID groupID path child ≠ .ok (content, truncated)

/-- The bound holds exactly for a child that stays within it on its own. -/
theorem output_bounded_iff (host : ReaderHost) (userID groupID : GoInt) (path : String)
    (child : ReaderChild) :
    OutputBounded host userID groupID path child ↔
      (child.stdout.flatten.length : Int) ≤ outputLimit ∧
        (child.stderr.flatten.length : Int) ≤ diagnosticsLimit := by
  constructor
  · intro h
    exact ⟨(deliver_bounded_iff _ _).mp h.stdout, (deliver_bounded_iff _ _).mp h.stderr⟩
  · intro h
    refine ⟨(deliver_bounded_iff _ _).mpr h.1, (deliver_bounded_iff _ _).mpr h.2, ?_⟩
    intro hlonger
    exact absurd h.1 (not_le.mpr hlonger)

/-- A child that ends well is believed, however much it has written. -/
theorem readJobOutputAsUser_any_length {host : ReaderHost} {userID groupID : GoInt} {path : String}
    {child : ReaderChild} {content : List UInt8} (huser : validJobOutputUserID userID = true)
    (hother : host.geteuid ≠ userID.val) (hgroup : validJobOutputGroupID groupID = true)
    (hexecutable : host.executable = none) (hexit : child.exit = none)
    (hstdout : child.stdout.flatten = 0 :: content) :
    readJobOutputAsUser host userID groupID path child = .ok (content, false) := by
  unfold readJobOutputAsUser
  rw [if_neg (by simp [huser]), if_neg hother, if_neg (by simp [hgroup]),
    if_neg (by simp [hexecutable])]
  simp [readerResult, hexit, deliver, deliver_eq, hstdout]

section Example

private def rootHost : ReaderHost where
  geteuid := 0
  executable := none
  readAtCurrentIdentity _ := .error .unavailable

/-- A child that writes zeros to stdout. -/
private def zeros (count : Nat) : ReaderChild := ⟨[List.replicate count 0], [], none, none⟩

private theorem zeros_stdout (count : Nat) :
    (zeros count).stdout.flatten = List.replicate count 0 := by
  simp [zeros]

/-- One byte above the limit is held and shown. -/
theorem longer_output_shown :
    ¬ ∀ (host : ReaderHost) (userID groupID : GoInt) (path : String) (child : ReaderChild),
      OutputBounded host userID groupID path child := by
  intro h
  have hstdout : ((zeros (262145 + 1)).stdout.flatten.length : Int) = outputLimit + 1 := by
    rw [zeros_stdout, List.length_replicate]
    rfl
  have hshown : readJobOutputAsUser rootHost (wrap64 1000) (wrap64 1000) "/home/alice/job.out"
      (zeros (262145 + 1)) = .ok (List.replicate 262145 0, false) :=
    readJobOutputAsUser_any_length (by decide) (by decide) (by decide) rfl rfl
      (by rw [zeros_stdout, List.replicate_succ])
  exact (h rootHost _ _ _ (zeros (262145 + 1))).refused (by omega) _ _ hshown

end Example

end OpenHpcWeb.Web
