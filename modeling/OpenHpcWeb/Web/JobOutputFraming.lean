/-
  The two ends of the reader process: `runJobOutputReader` of
  internal/web/job_output_fsuid_linux.go in the child, `readJobOutputAsUser`
  (Web.JobOutputReader) in the parent.

  The child writes one byte for the flag and the content after it. The parent gets the bytes in
  pieces of any lengths.

  * `readOpenOutput_length`: no answer is longer than the limit, also when the file changes
    while it is read.
  * `runJobOutputReader_ok`: what a child that ends well has written.
  * `job_output_framing`: the parent gets what the child has read.
-/
import OpenHpcWeb.Web.JobOutputTail

namespace OpenHpcWeb.Web

open OpenHpcWeb.Go

/-! ## The child -/

def jobOutputReaderArgument : String := "--openhpc-job-output-reader"

/-- `command.Args` without the executable. -/
def readerArguments (userID groupID : GoInt) : List String :=
  [jobOutputReaderArgument, formatInt userID, formatInt groupID]

/-- What the child meets. -/
structure ReaderProcess where
  geteuid : Int
  getegid : Int
  /-- standard input, or the error of a read from it -/
  input : Except String String
  /-- `openAbsoluteFileNoFollow` -/
  opened : String → Except String OutputFile
  /-- the error of the write, after some bytes -/
  writeFault : Option (Nat × String)

def ReadError.text : ReadError → String
  | .context .canceled => "context canceled"
  | .context .deadlineExceeded => "context deadline exceeded"
  | .other reason => reason

/-- The one `Write` of the child: the error, and the bytes that reach the pipe. -/
def ReaderProcess.write (p : ReaderProcess) (encoded : List UInt8) :
    Except String Unit × List UInt8 :=
  match p.writeFault with
  | some (written, err) => (.error err, encoded.take written)
  | none => (.ok (), encoded)

/-- The header byte of an answer. -/
def outputPrefix (truncated : Bool) : UInt8 := if truncated then 1 else 0

/-- `runJobOutputReader`, with what it has written. -/
def runJobOutputReader (arguments : List String) (p : ReaderProcess) :
    Except String Unit × List UInt8 :=
  match arguments with
  | [_, user, group] =>
    match parseInt user, parseInt group with
    | some userID, some groupID =>
      if validJobOutputUserID userID = false ∨ validJobOutputGroupID groupID = false ∨
          p.geteuid ≠ userID.val ∨ p.getegid ≠ groupID.val then
        (.error "reader identity mismatch", [])
      else
        match p.input with
        | .error _ => (.error "invalid reader input", [])
        | .ok path =>
          if 2 ^ 20 < byteLen path then (.error "invalid reader input", [])
          else if byteLen path = 0 ∨ '\x00' ∈ path.toList then (.error "invalid output path", [])
          else if validJobOutputPath path = false then (.error "invalid output path", [])
          else
            match readJobOutputAtCurrentIdentity none path (p.opened path) with
            | .error err => (.error err.text, [])
            | .ok (content, truncated) => p.write (outputPrefix truncated :: content)
    | _, _ => (.error "reader identity mismatch", [])
  | _ => (.error "invalid reader invocation", [])

/-! ## What it writes -/

theorem readOpenOutput_length {file : OutputFile} {content : List UInt8} {truncated : Bool}
    (h : readOpenOutput file = .ok (content, truncated)) :
    (content.length : Int) ≤ maxJobOutputBytes := by
  have hpos : 0 ≤ maxJobOutputBytes := by decide
  unfold readOpenOutput at h
  dsimp only at h
  split at h
  · cases h
  · split at h
    · cases h
    · cases h
    · next read hread =>
      split at h
      · next hlong =>
        rw [← (Prod.mk.inj (Except.ok.inj h)).1]
        have hle := Bytes.fromRune_length (Bytes.toValidUTF8 read (Bytes.encode "\ufffd"))
          ((Bytes.toValidUTF8 read (Bytes.encode "\ufffd")).length - maxJobOutputBytes).toNat
        omega
      · next hfits =>
        rw [← (Prod.mk.inj (Except.ok.inj h)).1]
        exact not_lt.mp hfits

theorem answer_length {ctxErr : Option ContextError} {path : String}
    {opened : Except String OutputFile} {content : List UInt8} {truncated : Bool}
    (h : readJobOutputAtCurrentIdentity ctxErr path opened = .ok (content, truncated)) :
    (content.length : Int) ≤ maxJobOutputBytes := by
  cases opened with
  | ok file => exact readOpenOutput_length (readJobOutputAtCurrentIdentity_eq_ok_iff.mp h).2.2
  | error err =>
    unfold readJobOutputAtCurrentIdentity at h
    split at h
    · cases h
    · split at h
      · cases h
      · cases h

/-- A child that ends well has written what it has read. -/
theorem runJobOutputReader_ok {arguments : List String} {p : ReaderProcess}
    {encoded : List UInt8} (h : runJobOutputReader arguments p = (.ok (), encoded)) :
    ∃ path content truncated, p.input = .ok path ∧
      readJobOutputAtCurrentIdentity none path (p.opened path) = .ok (content, truncated) ∧
      encoded = outputPrefix truncated :: content := by
  unfold runJobOutputReader at h
  split at h
  · split at h
    · split at h
      · cases h
      · cases hinput : p.input with
        | error err => rw [hinput] at h; cases h
        | ok path =>
          rw [hinput] at h
          dsimp only at h
          split at h
          · cases h
          · split at h
            · cases h
            · split at h
              · cases h
              · split at h
                · cases h
                · next content truncated hread =>
                  refine ⟨path, content, truncated, rfl, hread, ?_⟩
                  unfold ReaderProcess.write at h
                  split at h
                  · cases h
                  · exact (Prod.mk.inj h).2.symm
    · cases h
  · cases h

/-- What a child needs to get to the write and through it. -/
structure ReaderProcess.Serves (p : ReaderProcess) (userID groupID : GoInt) (path : String) :
    Prop where
  user : validJobOutputUserID userID = true
  group : validJobOutputGroupID groupID = true
  euid : p.geteuid = userID.val
  egid : p.getegid = groupID.val
  input : p.input = .ok path
  length : byteLen path ≤ 2 ^ 20
  noNul : '\x00' ∉ path.toList
  written : p.writeFault = none

/-- Every answer of the child is written. -/
theorem runJobOutputReader_serves {p : ReaderProcess} {userID groupID : GoInt} {path : String}
    {content : List UInt8} {truncated : Bool} (hserves : p.Serves userID groupID path)
    (hread : readJobOutputAtCurrentIdentity none path (p.opened path) =
      .ok (content, truncated)) :
    runJobOutputReader (readerArguments userID groupID) p =
      (.ok (), outputPrefix truncated :: content) := by
  have huser : 0 ≤ userID.val := by
    have := hserves.user
    rw [validJobOutputUserID, Bool.and_eq_true, decide_eq_true_eq] at this
    omega
  have hgroup : 0 ≤ groupID.val := by
    have := hserves.group
    rw [validJobOutputGroupID, Bool.and_eq_true, decide_eq_true_eq] at this
    omega
  have hpath : validJobOutputPath path = true := by
    by_contra hinvalid
    unfold readJobOutputAtCurrentIdentity at hread
    rw [Bool.not_eq_true] at hinvalid
    simp [hinvalid] at hread
  have hnonempty : byteLen path ≠ 0 := by
    intro hzero
    rw [String.utf8ByteSize_eq_zero_iff.mp hzero] at hpath
    revert hpath
    decide +kernel
  unfold runJobOutputReader readerArguments
  dsimp only
  rw [parseInt_formatInt huser, parseInt_formatInt hgroup]
  dsimp only
  rw [if_neg (by simp [hserves.user, hserves.group, hserves.euid, hserves.egid]), hserves.input]
  dsimp only
  rw [if_neg (not_lt.mpr hserves.length), if_neg (not_or.mpr ⟨hnonempty, hserves.noNul⟩),
    if_neg (by simp [hpath]), hread]
  dsimp only
  rw [ReaderProcess.write, hserves.written]

/-! ## Both ends -/

/-- The parent starts a child. -/
structure Spawns (host : ReaderHost) (userID groupID : GoInt) : Prop where
  user : validJobOutputUserID userID = true
  other : host.geteuid ≠ userID.val
  group : validJobOutputGroupID groupID = true
  executable : host.executable = none

theorem readJobOutputAsUser_of_spawns {host : ReaderHost} {userID groupID : GoInt}
    (h : Spawns host userID groupID) {path : String} {child : ReaderChild}
    (hexit : child.exit = none) :
    readJobOutputAsUser host userID groupID path child =
      match child.stdout.flatten with
      | [] => .error .unavailable
      | first :: content =>
        if first ≠ 0 ∧ first ≠ 1 then .error .unavailable else .ok (content, first = 1) := by
  unfold readJobOutputAsUser
  rw [if_neg (by simp [h.user]), if_neg h.other, if_neg (by simp [h.group]),
    if_neg (by simp [h.executable])]
  unfold readerResult deliver
  rw [hexit, deliver_eq outputLimit]
  cases child.stdout.flatten with
  | nil => exact if_neg Bool.false_ne_true
  | cons first content => exact if_neg Bool.false_ne_true

/-- The parent of a child that ends well gets the content and the flag that the child has read,
    whatever the pieces of the stream, and its limit is not exceeded; a stream without a header
    gives no content. Every answer of the child gets to its end of the stream. -/
theorem job_output_framing {host : ReaderHost} {userID groupID : GoInt}
    (hspawns : Spawns host userID groupID) (path : String) {child : ReaderChild}
    (hexit : child.exit = none) :
    (∀ arguments p, runJobOutputReader arguments p = (.ok (), child.stdout.flatten) →
      ∃ sent content truncated, p.input = .ok sent ∧
        readJobOutputAtCurrentIdentity none sent (p.opened sent) = .ok (content, truncated) ∧
        readJobOutputAsUser host userID groupID path child = .ok (content, truncated) ∧
        Bounded outputLimit child.stdout ∧
        (deliver outputLimit child.stdout).exceeded = false) ∧
    (∀ p content truncated, p.Serves userID groupID path →
      readJobOutputAtCurrentIdentity none path (p.opened path) = .ok (content, truncated) →
      runJobOutputReader (readerArguments userID groupID) p =
        (.ok (), outputPrefix truncated :: content)) ∧
    ((∀ first ∈ child.stdout.flatten.head?, first ≠ 0 ∧ first ≠ 1) →
      readJobOutputAsUser host userID groupID path child = .error .unavailable) := by
  refine ⟨fun arguments p hrun => ?_, fun p content truncated => runJobOutputReader_serves,
    fun hheader => ?_⟩
  · obtain ⟨sent, content, truncated, hinput, hread, hstream⟩ := runJobOutputReader_ok hrun
    have hlength : (child.stdout.flatten.length : Int) ≤ outputLimit := by
      have hcontent := answer_length hread
      rw [hstream, List.length_cons, outputLimit]
      omega
    have hbounded := (deliver_bounded_iff outputLimit child.stdout).mpr hlength
    refine ⟨sent, content, truncated, hinput, hread, ?_, hbounded, ?_⟩
    · rw [readJobOutputAsUser_of_spawns hspawns hexit, hstream]
      cases truncated <;> rfl
    · rw [Bool.eq_false_iff, ne_eq, hbounded.exceeded]
      exact not_lt.mpr hlength
  · rw [readJobOutputAsUser_of_spawns hspawns hexit]
    cases hstream : child.stdout.flatten with
    | nil => rfl
    | cons first content =>
      rw [hstream] at hheader
      exact if_pos (hheader first rfl)

section Example

private def parentHost : ReaderHost where
  geteuid := 0
  executable := none
  readAtCurrentIdentity _ := .error .unavailable

theorem job_output_framing_empty :
    readJobOutputAsUser parentHost (wrap64 1000) (wrap64 1000) "/job.out" ⟨[], [], none, none⟩ =
      .error .unavailable :=
  (job_output_framing ⟨by decide, by decide, by decide, rfl⟩ "/job.out" rfl).2.2
    fun _ h => nomatch h

end Example

end OpenHpcWeb.Web
