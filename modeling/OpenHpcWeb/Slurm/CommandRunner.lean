/-
  The command runner of internal/slurm/runner.go.

  The two streams of a command are one writer, so `os/exec` makes one pipe of them and one
  goroutine copies it into `limitedBuffer`. The type has no `ReadFrom` (its buffer is a field),
  so `io.Copy` calls `Write`. The process is outside of the program: `Execution` says what
  became of it.

  * `written_eq`: the buffer after any writes, by their concatenation alone.
  * `run_eq`: what `Run` returns, by the length of what was read from the pipe.
  * `limited_output_complete`: a command's output that was cut is not returned.
-/
import OpenHpcWeb.Go.Io

namespace OpenHpcWeb.Slurm

open OpenHpcWeb.Go

/-! ## The buffer -/

/-- `limitedBuffer`. `cancelled` is whether `cancel` has been called. -/
structure LimitedBuffer where
  buffer : Buffer
  limit : Int
  exceeded : Bool
  cancelled : Bool

namespace LimitedBuffer

def empty (limit : Int) : LimitedBuffer := ⟨⟨[]⟩, limit, false, false⟩

def write (value : List UInt8) (b : LimitedBuffer) : Nat × Option String × LimitedBuffer :=
  let remaining := b.limit - b.buffer.len
  let buffer :=
    if 0 < remaining then
      let writeLength := if remaining < value.length then remaining.toNat else value.length
      (b.buffer.write (value.take writeLength)).2.2
    else b.buffer
  let exceeds := decide (remaining < value.length)
  (value.length, none, ⟨buffer, b.limit, b.exceeded || exceeds, b.cancelled || exceeds⟩)

def writer : Writer LimitedBuffer := ⟨write, none⟩

/-- The buffer that has been given `data`, in any number of writes. -/
def holding (limit : Nat) (data : List UInt8) : LimitedBuffer :=
  ⟨⟨data.take limit⟩, limit, limit < data.length, limit < data.length⟩

theorem empty_eq (limit : Nat) : empty limit = holding limit [] := by
  simp [empty, holding]

theorem write_holding (limit : Nat) (data value : List UInt8) :
    write value (holding limit data) = (value.length, none, holding limit (data ++ value)) := by
  have hlen : (data.take limit).length = min limit data.length := List.length_take
  have hover : ((limit : Int) - (min limit data.length : Nat) < value.length ∨
      limit < data.length) ↔ limit < (data ++ value).length := by
    rw [List.length_append]
    omega
  have hbytes : (if 0 < (limit : Int) - (min limit data.length : Nat) then
        data.take limit ++ value.take
          (if (limit : Int) - (min limit data.length : Nat) < value.length then
            ((limit : Int) - (min limit data.length : Nat)).toNat else value.length)
      else data.take limit) = (data ++ value).take limit := by
    rw [List.take_append]
    split
    · next hroom =>
      congr 1
      split
      · congr 1
        omega
      · rw [List.take_of_length_le le_rfl, List.take_of_length_le (by omega)]
    · next hfull =>
      have hzero : limit - data.length = 0 := by omega
      rw [hzero, List.take_zero, List.append_nil]
  have hflag : (decide (limit < data.length) ||
      decide ((limit : Int) - (min limit data.length : Nat) < value.length)) =
        decide (limit < (data ++ value).length) := by
    rw [Bool.eq_iff_iff]
    simp only [Bool.or_eq_true, decide_eq_true_eq]
    rw [← hover]
    exact or_comm
  unfold write holding
  simp only [Buffer.len, Buffer.write, hlen, hflag, Prod.mk.injEq, LimitedBuffer.mk.injEq,
    true_and, and_true]
  rw [← hbytes]
  split <;> rfl

end LimitedBuffer

/-- The buffer after a sequence of writes. -/
def written (limit : Int) (writes : List (List UInt8)) : LimitedBuffer :=
  writes.foldl (fun b value => (b.write value).2.2) (.empty limit)

theorem written_from (limit : Nat) (data : List UInt8) (writes : List (List UInt8)) :
    writes.foldl (fun b value => (LimitedBuffer.write value b).2.2) (.holding limit data) =
      .holding limit (data ++ writes.flatten) := by
  induction writes generalizing data with
  | nil => rw [List.flatten_nil, List.append_nil, List.foldl_nil]
  | cons value writes ih =>
    rw [List.foldl_cons, LimitedBuffer.write_holding, ih, List.flatten_cons, List.append_assoc]

/-- The buffer depends on the writes only through what they write. -/
theorem written_eq (limit : Nat) (writes : List (List UInt8)) :
    written limit writes = .holding limit writes.flatten := by
  have h := written_from limit [] writes
  rw [List.nil_append] at h
  unfold written
  rw [LimitedBuffer.empty_eq]
  exact h

/-! ## `CommandRunner` -/

structure CommandRunner where
  maxOutputBytes : GoInt
  environment : List String

/-- A command as `os/exec` is given it. -/
structure Invocation where
  path : String
  args : List String
  environment : List String

/-- What became of a command that was run. -/
structure Execution where
  /-- all that the command has written -/
  output : List UInt8
  /-- what the reads of the pipe return, and the error that they end with if not with EOF -/
  reads : List (List UInt8)
  readError : Option String
  /-- the error of starting the command, or of its exit -/
  exit : Option String
  /-- `ctx.Err()` of the caller's context once the command is done -/
  ctxErr : Option String
  /-- a pipe that is read to EOF gives what was written to it -/
  complete : exit = none → readError = none → reads.flatten = output

/-- `command.Run`: its error, and the writer of its streams. -/
def Execution.run {σ : Type} (e : Execution) (w : Writer σ) (s : σ) : Option String × σ :=
  match ioCopy w e.reads s with
  | (copyErr, s) => (e.exit <|> copyErr <|> e.readError, s)

def cleanEnvironment (environment : List String) : List String :=
  environment.filter fun entry =>
    let name := entry.toList.takeWhile (· ≠ '=')
    decide ('=' ∈ entry.toList ∧ name ≠ "LC_ALL".toList ∧ name ≠ "LANG".toList ∧
      ¬ "OPENHPC_".toList <+: name)

def CommandRunner.invocation (r : CommandRunner) (path : String) (args : List String) :
    Invocation :=
  ⟨path, args, cleanEnvironment r.environment ++ ["LC_ALL=C", "LANG=C"]⟩

/-- `Run`. -/
def CommandRunner.run (r : CommandRunner) (execute : Invocation → Execution) (path : String)
    (args : List String) : Except String (List UInt8) :=
  if r.maxOutputBytes.val ≤ 0 then .error "command output limit must be positive"
  else
    let execution := execute (r.invocation path args)
    match execution.run LimitedBuffer.writer (.empty r.maxOutputBytes.val) with
    | (err, output) =>
      if output.exceeded then .error "Slurm command output exceeded configured limit"
      else
        match execution.ctxErr, err with
        | some err, _ => .error err
        | none, some err => .error ("command failed: " ++ err)
        | none, none => .ok output.buffer.bytes

/-- `io.Copy` into the buffer does not fail, and the buffer has been given all that was read. -/
theorem ioCopy_limited (limit : Nat) (reads : List (List UInt8)) :
    ioCopy LimitedBuffer.writer reads (.empty limit) =
      (none, .holding limit reads.flatten) := by
  have hkeeps : LimitedBuffer.writer.Keeps fun data b => b = .holding limit data := by
    intro data b value hb
    rw [hb]
    exact ⟨_, LimitedBuffer.write_holding limit data value, rfl⟩
  obtain ⟨herr, hstate⟩ := ioCopy_invariant hkeeps (LimitedBuffer.empty_eq limit) reads
  exact Prod.ext herr hstate

variable {r : CommandRunner} {execute : Invocation → Execution} {path : String}
  {args : List String}

/-- What `Run` returns with a limit that it takes. -/
theorem run_eq {limit : Nat} (hlimit : r.maxOutputBytes.val = limit) (hpos : 0 < limit) :
    r.run execute path args =
      let execution := execute (r.invocation path args)
      if limit < execution.reads.flatten.length then
        .error "Slurm command output exceeded configured limit"
      else
        match execution.ctxErr, execution.exit <|> execution.readError with
        | some err, _ => .error err
        | none, some err => .error ("command failed: " ++ err)
        | none, none => .ok execution.reads.flatten := by
  unfold CommandRunner.run Execution.run
  rw [hlimit, if_neg (by omega)]
  by_cases hover : limit < (execute (r.invocation path args)).reads.flatten.length
  · simp only [ioCopy_limited, LimitedBuffer.holding, hover, decide_true, if_true]
  · have hall := List.take_of_length_le (Nat.not_lt.mp hover)
    simp only [ioCopy_limited, LimitedBuffer.holding, hover, hall, decide_false,
      Bool.false_eq_true, if_false]
    rfl

/-- What `Run` returns without an error is all that the command has written. -/
theorem run_complete {bytes : List UInt8} (h : r.run execute path args = .ok bytes) :
    bytes = (execute (r.invocation path args)).output := by
  by_cases hlimit : r.maxOutputBytes.val ≤ 0
  · unfold CommandRunner.run at h
    rw [if_pos hlimit] at h
    cases h
  · obtain ⟨limit, hval⟩ := Int.eq_ofNat_of_zero_le (show 0 ≤ r.maxOutputBytes.val by omega)
    rw [run_eq hval (by omega)] at h
    dsimp only at h
    split at h
    · cases h
    · split at h
      · cases h
      · cases h
      · next hctx hfault =>
        obtain ⟨hexit, hread⟩ : _ = none ∧ _ = none := by simpa using hfault
        rw [← (execute (r.invocation path args)).complete hexit hread]
        exact (Except.ok.inj h).symm

/-- The buffer holds the start of what is written and marks what was cut, however it is written;
    so the output that `Run` returns is never cut. -/
theorem limited_output_complete :
    (∀ (b : LimitedBuffer) (value : List UInt8),
      ∃ b', b.write value = (value.length, none, b')) ∧
    (∀ (limit : Nat) (writes : List (List UInt8)),
      (written limit writes).buffer.bytes <+: writes.flatten ∧
      (written limit writes).buffer.bytes.length = min limit writes.flatten.length ∧
      ((written limit writes).exceeded = true ↔ limit < writes.flatten.length)) ∧
    (∀ (limit : Nat) (writes writes' : List (List UInt8)), writes.flatten = writes'.flatten →
      written limit writes = written limit writes') ∧
    ∀ (r : CommandRunner) (execute : Invocation → Execution) (path : String) (args : List String)
      (bytes : List UInt8), r.run execute path args = .ok bytes →
        bytes = (execute (r.invocation path args)).output := by
  refine ⟨fun b value => ⟨_, rfl⟩, fun limit writes => ?_, fun limit writes writes' h => ?_,
    fun r execute path args bytes h => run_complete h⟩
  · rw [written_eq]
    exact ⟨List.take_prefix _ _, List.length_take, decide_eq_true_iff⟩
  · rw [written_eq, written_eq, h]

end OpenHpcWeb.Slurm
