/-
  The tail of a job's output, internal/web/job_output.go: `readJobOutputAtCurrentIdentity` and
  its loop `readBoundedOutput`.

  The file that the path leads to is given (`openAbsoluteFileNoFollow`), with what its coming
  reads do: a read delivers any number of the bytes that are left, but one at least, or it
  fails. `os.File.Read` reports the end of the file when no byte is left.

  * `readBoundedOutput_ok`: what the loop has read when it ends well.
  * `readBoundedOutput_calls`: it ends after no more reads than there are bytes.
  * `job_output_tail`: the answer is the end of the repaired tail, cut where a rune starts.
-/
import OpenHpcWeb.Go.RuneBytes
import OpenHpcWeb.Web.JobOutputReader

namespace OpenHpcWeb.Web

open OpenHpcWeb.Go

/-! ## Files -/

/-- What a read of a file meets. -/
structure ReadCall where
  /-- the state of the context before the read -/
  ctxErr : Option ContextError
  fault : Option String
  /-- the bytes it delivers at most, besides the first -/
  short : Nat

inductive FileError where
  | eof
  | other (err : String)

structure OutputFile where
  content : List UInt8
  /-- `stat.Size` -/
  size : Int
  seekFault : Option String
  offset : Nat
  /-- the number of reads so far, and what each read meets -/
  made : Nat
  calls : Nat → ReadCall

namespace OutputFile

def call (file : OutputFile) : ReadCall := file.calls file.made

/-- `file.Read` into a buffer of some length. -/
def read (file : OutputFile) (buffer : Nat) : List UInt8 × Option FileError × OutputFile :=
  match file.call.fault with
  | some err => ([], some (.other err), { file with made := file.made + 1 })
  | none =>
    let bytes := (file.content.drop file.offset).take (min buffer (file.call.short + 1))
    if bytes = [] then ([], some .eof, { file with made := file.made + 1 })
    else (bytes, none, { file with
      offset := file.offset + bytes.length
      made := file.made + 1 })

/-- `file.Seek` from the start. -/
def seek (file : OutputFile) (offset : Int) : Except String OutputFile :=
  match file.seekFault with
  | some err => .error err
  | none => .ok { file with offset := offset.toNat }

end OutputFile

/-! ## The code -/

/-- The loop of `readBoundedOutput`: the bytes so far and the length of the buffer. -/
def readBounded (result : List UInt8) (buffer : Nat) (file : OutputFile) :
    Except ReadError (List UInt8) × OutputFile :=
  if _hless : result.length < maxJobOutputBytes then
    match file.call.ctxErr with
    | some err => (.error (.context err), file)
    | none =>
      let remaining := (maxJobOutputBytes - result.length).toNat
      let buffer := if remaining < buffer then remaining else buffer
      match file.read buffer with
      | (bytes, some .eof, file) => (.ok (result ++ bytes), file)
      | (_, some (.other err), file) => (.error (.other err), file)
      | (bytes, none, file) =>
        if _hbytes : bytes = [] then (.ok (result ++ bytes), file)
        else readBounded (result ++ bytes) buffer file
  else (.ok result, file)
termination_by (maxJobOutputBytes - result.length).toNat
decreasing_by
  have hpos := List.length_pos_of_ne_nil _hbytes
  rw [List.length_append]
  omega

def readBoundedOutput (file : OutputFile) : Except ReadError (List UInt8) × OutputFile :=
  readBounded [] (32 * 2 ^ 10) file

/-- `readJobOutputAtCurrentIdentity` from the open file on. -/
def readOpenOutput (file : OutputFile) : Except ReadError (List UInt8 × Bool) :=
  let offset := file.size - maxJobOutputBytes
  let truncated := decide (0 < offset)
  let offset := if offset < 0 then 0 else offset
  match file.seek offset with
  | .error err => .error (.other ("seek output file: " ++ err))
  | .ok file =>
    match (readBoundedOutput file).1 with
    | .error (.context err) => .error (.context err)
    | .error (.other err) => .error (.other ("read output file: " ++ err))
    | .ok content =>
      let content := Bytes.toValidUTF8 content (Bytes.encode "\ufffd")
      if maxJobOutputBytes < content.length then
        let start := (content.length - maxJobOutputBytes).toNat
        .ok (Bytes.fromRune content start, true)
      else .ok (content, truncated)

/-- `readJobOutputAtCurrentIdentity`; `opened` is what `openAbsoluteFileNoFollow` gives. -/
def readJobOutputAtCurrentIdentity (ctxErr : Option ContextError) (path : String)
    (opened : Except String OutputFile) : Except ReadError (List UInt8 × Bool) :=
  match ctxErr with
  | some err => .error (.context err)
  | none =>
    if validJobOutputPath path = false then .error (.other "job output unavailable")
    else
      match opened with
      | .error err => .error (.other ("open output file: " ++ err))
      | .ok file => readOpenOutput file

/-! ## The loop -/

/-- What one read does. -/
structure ReadDone (file : OutputFile) (buffer : Nat) (bytes : List UInt8)
    (err : Option FileError) (file' : OutputFile) : Prop where
  made : file'.made = file.made + 1
  calls : file'.calls = file.calls
  content : file'.content = file.content
  rest : file.content.drop file.offset = bytes ++ file.content.drop file'.offset
  length : bytes.length ≤ buffer
  more : err = none → bytes ≠ []
  last : err = some .eof → bytes = [] ∧ file.content.drop file.offset = []
  fault : ∀ text, err = some (.other text) → file.call.fault = some text

theorem OutputFile.read_done {file file' : OutputFile} {buffer : Nat} {bytes : List UInt8}
    {err : Option FileError} (hbuffer : 0 < buffer)
    (h : file.read buffer = (bytes, err, file')) : ReadDone file buffer bytes err file' := by
  unfold OutputFile.read at h
  cases hfault : file.call.fault with
  | some text =>
    rw [hfault] at h
    cases h
    refine ⟨rfl, rfl, rfl, rfl, Nat.zero_le _, (fun h => nomatch h), (fun h => nomatch h), ?_⟩
    rintro _ ⟨⟩
    exact hfault
  | none =>
    rw [hfault] at h
    dsimp only at h
    by_cases hend : file.content.drop file.offset = []
    · rw [hend, List.take_nil, if_pos rfl] at h
      cases h
      exact ⟨rfl, rfl, rfl, rfl, Nat.zero_le _, (fun h => nomatch h), fun _ => ⟨rfl, hend⟩,
        fun _ h => nomatch h⟩
    · have hcount : 0 < min buffer (file.call.short + 1) := by omega
      have hne : (file.content.drop file.offset).take (min buffer (file.call.short + 1)) ≠ [] := by
        rw [ne_eq, List.take_eq_nil_iff, not_or]
        exact ⟨hcount.ne', hend⟩
      rw [if_neg hne] at h
      cases h
      refine ⟨rfl, rfl, rfl, ?_, ?_, fun _ => hne, (fun h => nomatch h), fun _ h => nomatch h⟩
      · -- what is read and what is left are the two parts of the rest
        dsimp only
        rw [← List.drop_drop, List.length_take]
        conv_lhs => rw [← List.take_append_drop (min buffer (file.call.short + 1))
          (file.content.drop file.offset)]
        rw [List.append_cancel_left_eq]
        rcases Nat.le_total (min buffer (file.call.short + 1))
          (file.content.drop file.offset).length with hle | hle
        · rw [Nat.min_eq_left hle]
        · rw [Nat.min_eq_right hle, List.drop_of_length_le hle, List.drop_length]
      · rw [List.length_take]
        omega

theorem buffer_pos {result : List UInt8} {buffer : Nat} (hbuffer : 0 < buffer)
    (hless : result.length < maxJobOutputBytes) :
    0 < (if (maxJobOutputBytes - result.length).toNat < buffer then
      (maxJobOutputBytes - result.length).toNat else buffer) := by
  split <;> omega

theorem buffer_le {result : List UInt8} {buffer : Nat} :
    (if (maxJobOutputBytes - result.length).toNat < buffer then
      (maxJobOutputBytes - result.length).toNat else buffer) ≤
      (maxJobOutputBytes - result.length).toNat := by
  split <;> omega

/-- What the loop has read when it ends well, and how often it reads. -/
theorem readBounded_spec (result : List UInt8) (buffer : Nat) (file : OutputFile)
    (hbuffer : 0 < buffer) :
    (readBounded result buffer file).2.made ≤
        file.made + (maxJobOutputBytes - result.length).toNat ∧
      ∀ content, (readBounded result buffer file).1 = .ok content →
        content = result ++ (file.content.drop file.offset).take
          (maxJobOutputBytes - result.length).toNat := by
  fun_induction readBounded result buffer file with
  | case1 result buffer file hless err hctx =>
    exact ⟨by simp, fun _ h => nomatch h⟩
  | case2 result buffer file hless hctx remaining buffer' bytes file' hread =>
    have hdone := OutputFile.read_done (buffer_pos hbuffer hless) hread
    obtain ⟨hnil, hend⟩ := hdone.last rfl
    refine ⟨?_, fun content h => ?_⟩
    · rw [hdone.made]
      omega
    · rw [← Except.ok.inj h, hnil, hend, List.take_nil]
  | case3 result buffer file hless hctx remaining buffer' bytes err file' hread =>
    have hdone := OutputFile.read_done (buffer_pos hbuffer hless) hread
    refine ⟨?_, fun _ h => nomatch h⟩
    rw [hdone.made]
    omega
  | case4 result buffer file hless hctx remaining buffer' file' hread =>
    have hdone := OutputFile.read_done (buffer_pos hbuffer hless) hread
    exact absurd rfl (hdone.more rfl)
  | case5 result buffer file hless hctx remaining buffer' bytes file' hread hne ih =>
    have hpos := buffer_pos hbuffer hless
    have hdone := OutputFile.read_done hpos hread
    obtain ⟨hmade, hcontent⟩ := ih hpos
    have hbytes := List.length_pos_of_ne_nil hne
    have hle : bytes.length ≤ (maxJobOutputBytes - result.length).toNat :=
      hdone.length.trans buffer_le
    have hrest : (maxJobOutputBytes - result.length).toNat =
        bytes.length + (maxJobOutputBytes - (result ++ bytes).length).toNat := by
      rw [List.length_append]
      omega
    refine ⟨?_, fun content h => ?_⟩
    · rw [hdone.made] at hmade
      omega
    · rw [hcontent content h, hdone.content, hdone.rest, hrest, List.take_length_add_append,
        List.append_assoc]
  | case6 result buffer file hless =>
    refine ⟨by simp, fun content h => ?_⟩
    have hzero : (maxJobOutputBytes - (result.length : Int)).toNat = 0 := by omega
    rw [← Except.ok.inj h, hzero, List.take_zero, List.append_nil]

/-- No fault, and a context that does not end. -/
def OutputFile.Quiet (file : OutputFile) : Prop :=
  ∀ k, (file.calls k).ctxErr = none ∧ (file.calls k).fault = none

theorem readBounded_quiet (result : List UInt8) (buffer : Nat) (file : OutputFile)
    (hbuffer : 0 < buffer) (hquiet : file.Quiet) :
    ∃ content, (readBounded result buffer file).1 = .ok content := by
  fun_induction readBounded result buffer file with
  | case1 result buffer file hless err hctx =>
    have hnone := (hquiet file.made).1
    rw [OutputFile.call, hnone] at hctx
    cases hctx
  | case2 => exact ⟨_, rfl⟩
  | case3 result buffer file hless hctx remaining buffer' bytes err file' hread =>
    have hdone := OutputFile.read_done (buffer_pos hbuffer hless) hread
    have hfault := hdone.fault err rfl
    rw [OutputFile.call, (hquiet file.made).2] at hfault
    cases hfault
  | case4 => exact ⟨_, rfl⟩
  | case5 result buffer file hless hctx remaining buffer' bytes file' hread hne ih =>
    have hpos := buffer_pos hbuffer hless
    have hdone := OutputFile.read_done hpos hread
    refine ih hpos fun k => ?_
    rw [hdone.calls]
    exact hquiet k
  | case6 => exact ⟨_, rfl⟩

/-! ## The answer -/

namespace OutputFile

/-- The last bytes of the file. -/
def tail (file : OutputFile) : List UInt8 :=
  file.content.drop (file.content.length - maxJobOutputBytes.toNat)

/-- The last bytes as text. -/
def repaired (file : OutputFile) : List UInt8 :=
  Bytes.toValidUTF8 file.tail (Bytes.encode "\ufffd")

/-- What an answer has to do with the file. -/
structure TailOf (file : OutputFile) (content : List UInt8) (truncated : Bool) : Prop where
  text : ∃ text, content = Bytes.encode text
  length : content.length ≤ maxJobOutputBytes
  suffix : content <:+ file.repaired
  /-- less than a rune is missing that the limit does not cut off -/
  missing : file.repaired.length - content.length ≤
    (file.repaired.length - maxJobOutputBytes.toNat) + 3
  truncated_iff : truncated = true ↔ maxJobOutputBytes < file.content.length ∨
    maxJobOutputBytes < file.repaired.length

theorem tailOf_fits {file : OutputFile} (h : file.repaired.length ≤ maxJobOutputBytes) :
    file.TailOf file.repaired (decide (0 < (file.content.length : Int) - maxJobOutputBytes)) where
  text := ⟨_, Bytes.encode_toValidUTF8 file.tail⟩
  length := h
  suffix := List.suffix_refl _
  missing := by omega
  truncated_iff := by
    rw [decide_eq_true_eq]
    omega

theorem tailOf_cut {file : OutputFile} (h : maxJobOutputBytes < file.repaired.length) :
    file.TailOf
      (Bytes.fromRune file.repaired (file.repaired.length - maxJobOutputBytes).toNat) true := by
  have hpos : 0 ≤ maxJobOutputBytes := by decide
  have hrepaired : file.repaired = Bytes.encode (String.ofList (toValidUTF8 file.tail)) :=
    Bytes.encode_toValidUTF8 file.tail
  obtain ⟨rest, hcut, hsuffix, hless⟩ := Bytes.fromRune_encode
    (String.ofList (toValidUTF8 file.tail)) (file.repaired.length - maxJobOutputBytes).toNat
  rw [← hrepaired] at hcut hsuffix hless
  have hle := Bytes.fromRune_length file.repaired
    (file.repaired.length - maxJobOutputBytes).toNat
  constructor
  · exact ⟨rest, hcut⟩
  · omega
  · rw [hcut]
    exact hsuffix
  · rw [hcut]
    omega
  · exact iff_of_true rfl (.inr h)

end OutputFile

/-- From the offset that `Seek` sets, the loop reads the last bytes of the file. -/
theorem readBoundedOutput_tail {file sought : OutputFile} (hsize : file.size = file.content.length)
    (hseek : file.seek (if file.size - maxJobOutputBytes < 0 then 0
      else file.size - maxJobOutputBytes) = .ok sought) {content : List UInt8}
    (h : (readBoundedOutput sought).1 = .ok content) : content = file.tail := by
  have hpos : 0 ≤ maxJobOutputBytes := by decide
  have hoffset : (if file.size - maxJobOutputBytes < 0 then 0
      else file.size - maxJobOutputBytes).toNat =
      file.content.length - maxJobOutputBytes.toNat := by
    rw [hsize]
    split <;> omega
  unfold OutputFile.seek at hseek
  rw [hoffset] at hseek
  split at hseek
  · cases hseek
  · cases hseek
    have hspec := (readBounded_spec _ _ _ (by decide)).2 content h
    rw [hspec, List.nil_append, List.length_nil]
    refine List.take_of_length_le ?_
    rw [List.length_drop]
    dsimp only
    omega

theorem readOpenOutput_tail {file : OutputFile} (hsize : file.size = file.content.length)
    {content : List UInt8} {truncated : Bool}
    (h : readOpenOutput file = .ok (content, truncated)) : file.TailOf content truncated := by
  unfold readOpenOutput at h
  dsimp only at h
  split at h
  · cases h
  · next sought hseek =>
    split at h
    · cases h
    · cases h
    · next read hread =>
      have hrepaired : Bytes.toValidUTF8 file.tail (Bytes.encode "\ufffd") = file.repaired := rfl
      rw [readBoundedOutput_tail hsize hseek hread, hrepaired] at h
      split at h
      · next hlong =>
        obtain ⟨hcontent, htruncated⟩ := Prod.mk.inj (Except.ok.inj h)
        rw [← hcontent, ← htruncated]
        exact OutputFile.tailOf_cut hlong
      · next hfits =>
        obtain ⟨hcontent, htruncated⟩ := Prod.mk.inj (Except.ok.inj h)
        rw [← hcontent, ← htruncated, hsize]
        exact OutputFile.tailOf_fits (not_lt.mp hfits)

theorem OutputFile.seek_quiet {file : OutputFile} (hseek : file.seekFault = none)
    (hquiet : file.Quiet) (offset : Int) :
    ∃ sought, file.seek offset = .ok sought ∧ sought.Quiet := by
  unfold OutputFile.seek
  rw [hseek]
  exact ⟨_, rfl, hquiet⟩

theorem readOpenOutput_quiet {file : OutputFile} (hseek : file.seekFault = none)
    (hquiet : file.Quiet) :
    ∃ content truncated, readOpenOutput file = .ok (content, truncated) := by
  obtain ⟨sought, hsought, hquiet'⟩ := OutputFile.seek_quiet hseek hquiet
    (if file.size - maxJobOutputBytes < 0 then 0 else file.size - maxJobOutputBytes)
  obtain ⟨read, hread⟩ := readBounded_quiet [] (32 * 2 ^ 10) sought (by decide) hquiet'
  unfold readOpenOutput readBoundedOutput
  dsimp only
  rw [hsought]
  dsimp only
  rw [hread]
  dsimp only
  split
  · exact ⟨_, _, rfl⟩
  · exact ⟨_, _, rfl⟩

theorem readBoundedOutput_calls (file : OutputFile) :
    ((readBoundedOutput file).2.made : Int) ≤ file.made + maxJobOutputBytes := by
  have hpos : 0 ≤ maxJobOutputBytes := by decide
  have hmade := (readBounded_spec [] (32 * 2 ^ 10) file (by decide)).1
  rw [List.length_nil] at hmade
  unfold readBoundedOutput
  omega

theorem readJobOutputAtCurrentIdentity_eq_ok_iff {ctxErr : Option ContextError} {path : String}
    {file : OutputFile} {answer : List UInt8 × Bool} :
    readJobOutputAtCurrentIdentity ctxErr path (.ok file) = .ok answer ↔
      ctxErr = none ∧ validJobOutputPath path = true ∧ readOpenOutput file = .ok answer := by
  unfold readJobOutputAtCurrentIdentity
  rcases ctxErr with _ | err
  · cases hpath : validJobOutputPath path <;> simp
  · simp

/-- An answer is the end of the repaired tail of the file, within the limit and cut at the start
    of a rune. Without a fault there is one, and the loop makes no more reads than the limit has
    bytes. -/
theorem job_output_tail (ctxErr : Option ContextError) (path : String) (file : OutputFile)
    (hsize : file.size = file.content.length) :
    (∀ content truncated,
      readJobOutputAtCurrentIdentity ctxErr path (.ok file) = .ok (content, truncated) →
        file.TailOf content truncated) ∧
    (ctxErr = none → validJobOutputPath path = true → file.seekFault = none → file.Quiet →
      ∃ content truncated,
        readJobOutputAtCurrentIdentity ctxErr path (.ok file) = .ok (content, truncated)) ∧
    ∀ sought : OutputFile, ((readBoundedOutput sought).2.made : Int) ≤
      sought.made + maxJobOutputBytes := by
  refine ⟨fun content truncated h => ?_, fun hctx hpath hseek hquiet => ?_,
    readBoundedOutput_calls⟩
  · exact readOpenOutput_tail hsize (readJobOutputAtCurrentIdentity_eq_ok_iff.mp h).2.2
  · obtain ⟨content, truncated, h⟩ := readOpenOutput_quiet hseek hquiet
    exact ⟨content, truncated,
      readJobOutputAtCurrentIdentity_eq_ok_iff.mpr ⟨hctx, hpath, h⟩⟩

section Example

private def oneByte : OutputFile where
  content := [0x61]
  size := 1
  seekFault := none
  offset := 0
  made := 0
  calls _ := ⟨none, none, 0⟩

theorem job_output_tail_one : ∃ content truncated,
    readJobOutputAtCurrentIdentity none "/job.out" (.ok oneByte) = .ok (content, truncated) :=
  (job_output_tail none "/job.out" oneByte rfl).2.1 rfl (by decide +kernel) rfl
    fun _ => ⟨rfl, rfl⟩

end Example

end OpenHpcWeb.Web
