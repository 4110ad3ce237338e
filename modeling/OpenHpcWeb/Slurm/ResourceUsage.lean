/-
  The output of sstat, internal/slurm/resource_usage.go: `parseSstat`.

  The texts of a step are bytes, since the output of a command need not be UTF-8.

  * `sstatStep_ok_iff`: what a line says of its step (`StepOf`).
  * `parseSstat_all_or_nothing`: all lines become steps, or none does, and the totals are exact.
  * `stepNames_distinct_iff`: names differ unless there is the job and the step of its number.
-/
import OpenHpcWeb.Go.Io
import OpenHpcWeb.Lib.Checks
import OpenHpcWeb.Slurm.Details
import OpenHpcWeb.Slurm.SstatValues

namespace OpenHpcWeb.Slurm

open OpenHpcWeb.Go hiding equalFold trimSpace parseInt
open OpenHpcWeb.Go.Bytes OpenHpcWeb.Lib

def maxSstatSteps : Nat := 1024

def maxSstatLineLength : Nat := 8 * maxDetailFieldLength

/-- `cluster.JobResourceStep` with its texts as bytes. -/
structure SstatStep where
  step : List UInt8
  aveCPU : List UInt8
  aveCPUSeconds : GoInt
  totalCPU : List UInt8
  totalCPUSeconds : GoInt
  aveRSS : List UInt8
  aveRSSBytes : GoInt
  maxRSS : List UInt8
  maxRSSBytes : GoInt
  aveVMSize : List UInt8
  aveVMSizeBytes : GoInt
  maxVMSize : List UInt8
  maxVMSizeBytes : GoInt

/-- `cluster.JobResourceUsage`. -/
structure SstatUsage where
  jobID : List UInt8
  sampledAt : String
  totalCPUSeconds : GoInt
  maxRSSBytes : GoInt
  steps : List SstatStep

/-- The columns that `--format` asks for. -/
structure SstatFields where
  jobID : List UInt8
  aveCPU : List UInt8
  aveRSS : List UInt8
  maxRSS : List UInt8
  aveVMSize : List UInt8
  maxVMSize : List UInt8
  tresUsageInTot : List UInt8

/-- The fields of a row; `none` is another count. -/
def sstatFields (line : List UInt8) : Option SstatFields :=
  match split (trimSuffix line 0x0d) 0x7c with
  | [jobID, aveCPU, aveRSS, maxRSS, aveVMSize, maxVMSize, tresUsageInTot] =>
    some ⟨jobID, aveCPU, aveRSS, maxRSS, aveVMSize, maxVMSize, tresUsageInTot⟩
  | _ => none

/-- The loop over the items of a TRES list. -/
def sstatTRESItem : List (List UInt8) → Except String (List UInt8)
  | [] => .error "sstat TRES usage does not include CPU time"
  | item :: items =>
    match cut (trimSpace item) 0x3d with
    | some (name, amount) =>
      if name = ascii "cpu" then .ok (trimSpace amount) else sstatTRESItem items
    | none => sstatTRESItem items

def parseSstatTRESCPU (value : List UInt8) : Except String (List UInt8) :=
  let value := trimSpace value
  if isUnavailableSstatValue value then .ok value
  else if maxDetailFieldLength < value.length then
    .error "sstat TRES usage exceeds maximum length"
  else sstatTRESItem (split value 0x2c)

/-- The step's name: what is behind the job ID, or "job". -/
def sstatStepName (jobID stepID : List UInt8) : List UInt8 :=
  let stepName := trimPrefix stepID (jobID ++ [0x2e])
  if stepName = jobID then ascii "job" else stepName

section

variable [Int64Conversion]

/-- The step of a row. -/
def sstatStep (jobID line : List UInt8) : Except String SstatStep :=
  match sstatFields line with
  | none => .error "sstat row has unexpected field count"
  | some fields =>
    let stepID := trimSpace fields.jobID
    if stepID ≠ jobID ∧ Bytes.hasPrefix stepID (jobID ++ [0x2e]) = false then
      .error "sstat row does not match requested job"
    else
      let stepName := sstatStepName jobID stepID
      if stepName = [] ∨ maxDetailFieldLength < stepName.length then
        .error "sstat step name is invalid"
      else do
        let aveCPUSeconds ← parseSstatDuration fields.aveCPU
        let totalCPU ← parseSstatTRESCPU fields.tresUsageInTot
        let totalCPUSeconds ← parseSstatDuration totalCPU
        let aveRSSBytes ← parseSstatSize fields.aveRSS
        let maxRSSBytes ← parseSstatSize fields.maxRSS
        let aveVMSizeBytes ← parseSstatSize fields.aveVMSize
        let maxVMSizeBytes ← parseSstatSize fields.maxVMSize
        .ok ⟨stepName, trimSpace fields.aveCPU, aveCPUSeconds, totalCPU, totalCPUSeconds,
          trimSpace fields.aveRSS, aveRSSBytes, trimSpace fields.maxRSS, maxRSSBytes,
          trimSpace fields.aveVMSize, aveVMSizeBytes, trimSpace fields.maxVMSize, maxVMSizeBytes⟩

/-- The usage with one step more. -/
def SstatUsage.add (usage : SstatUsage) (step : SstatStep) : SstatUsage :=
  { usage with
    totalCPUSeconds := wrap64 (usage.totalCPUSeconds.val + step.totalCPUSeconds.val)
    maxRSSBytes :=
      if usage.maxRSSBytes.val < step.maxRSSBytes.val then step.maxRSSBytes else usage.maxRSSBytes
    steps := usage.steps ++ [step] }

/-- The body of the loop over the rows. -/
def sstatRow (jobID : List UInt8) (usage : SstatUsage) (line : List UInt8) :
    Except String SstatUsage :=
  if usage.steps.length = maxSstatSteps then .error "sstat step count exceeds maximum"
  else do
    let step ← sstatStep jobID line
    if (wrap64 (mathMaxInt64.val - usage.totalCPUSeconds.val)).val < step.totalCPUSeconds.val then
      .error "sstat CPU time exceeds supported range"
    else .ok (usage.add step)

def parseSstat (output : List UInt8) (id : GoInt) (sampledAt : Int) : Except String SstatUsage := do
  let jobID := ascii (formatInt id)
  let scanned := scanLines maxSstatLineLength output
  let usage ← scanned.1.foldlM (sstatRow jobID)
    ⟨jobID, formatRFC3339 sampledAt, wrap64 0, wrap64 0, []⟩
  match scanned.2 with
  | some err => .error ("scan sstat output: " ++ err)
  | none => .ok usage

/-! ## A row -/

/-- What the fields of a row say of a step. -/
structure StepOf (jobID : List UInt8) (fields : SstatFields) (step : SstatStep) : Prop where
  ofJob : trimSpace fields.jobID = jobID ∨
    Bytes.hasPrefix (trimSpace fields.jobID) (jobID ++ [0x2e]) = true
  name : step.step = sstatStepName jobID (trimSpace fields.jobID)
  nameLength : step.step ≠ [] ∧ step.step.length ≤ maxDetailFieldLength
  aveCPU : step.aveCPU = trimSpace fields.aveCPU
  aveCPUSeconds : parseSstatDuration fields.aveCPU = .ok step.aveCPUSeconds
  totalCPU : parseSstatTRESCPU fields.tresUsageInTot = .ok step.totalCPU
  totalCPUSeconds : parseSstatDuration step.totalCPU = .ok step.totalCPUSeconds
  aveRSS : step.aveRSS = trimSpace fields.aveRSS
  aveRSSBytes : parseSstatSize fields.aveRSS = .ok step.aveRSSBytes
  maxRSS : step.maxRSS = trimSpace fields.maxRSS
  maxRSSBytes : parseSstatSize fields.maxRSS = .ok step.maxRSSBytes
  aveVMSize : step.aveVMSize = trimSpace fields.aveVMSize
  aveVMSizeBytes : parseSstatSize fields.aveVMSize = .ok step.aveVMSizeBytes
  maxVMSize : step.maxVMSize = trimSpace fields.maxVMSize
  maxVMSizeBytes : parseSstatSize fields.maxVMSize = .ok step.maxVMSizeBytes

/-- A row and its step. -/
def StepRow (jobID line : List UInt8) (step : SstatStep) : Prop :=
  ∃ fields, sstatFields line = some fields ∧ StepOf jobID fields step

theorem sstatStep_ok_iff {jobID line : List UInt8} {step : SstatStep} :
    sstatStep jobID line = .ok step ↔ StepRow jobID line step := by
  unfold sstatStep StepRow
  cases hfields : sstatFields line with
  | none => simp
  | some fields =>
    dsimp only
    simp only [check_eq_ok_iff, bind_eq_ok_iff, Except.ok.injEq, Option.some.injEq,
      exists_eq_left', not_and, not_or, not_lt]
    constructor
    · rintro ⟨hjob, ⟨hne, hlength⟩, aveCPUSeconds, haveCPU, totalCPU, htotalCPU, totalCPUSeconds,
        htotal, aveRSSBytes, haveRSS, maxRSSBytes, hmaxRSS, aveVMSizeBytes, haveVMSize,
        maxVMSizeBytes, hmaxVMSize, rfl⟩
      refine ⟨?_, rfl, ⟨hne, hlength⟩, rfl, haveCPU, htotalCPU, htotal, rfl, haveRSS, rfl, hmaxRSS,
        rfl, haveVMSize, rfl, hmaxVMSize⟩
      by_cases heq : trimSpace fields.jobID = jobID
      · exact .inl heq
      · exact .inr (by simpa using hjob heq)
    · rintro h
      refine ⟨?_, ?_, _, h.aveCPUSeconds, _, h.totalCPU, _, h.totalCPUSeconds, _, h.aveRSSBytes, _,
        h.maxRSSBytes, _, h.aveVMSizeBytes, _, h.maxVMSizeBytes, ?_⟩
      · intro hne
        rcases h.ofJob with heq | hpre
        · exact absurd heq hne
        · simp [hpre]
      · rw [← h.name]
        exact h.nameLength
      · rw [← h.name, ← h.aveCPU, ← h.aveRSS, ← h.maxRSS, ← h.aveVMSize, ← h.maxVMSize]

omit [Int64Conversion] in
theorem parseSstatDuration_nonneg {value : List UInt8} {n : GoInt}
    (h : parseSstatDuration value = .ok n) : 0 ≤ n.val := by
  rcases (parseSstatDurationWith_ok_iff wrap64_exactInRange value n).mp h with
    ⟨-, hn⟩ | ⟨total, -, hn⟩
  · omega
  · omega

theorem StepRow.totalCPUSeconds_nonneg {jobID line : List UInt8} {step : SstatStep}
    (h : StepRow jobID line step) : 0 ≤ step.totalCPUSeconds.val := by
  obtain ⟨fields, -, hstep⟩ := h
  exact parseSstatDuration_nonneg hstep.totalCPUSeconds

theorem totalCPUSeconds_sum_nonneg {jobID : List UInt8} {rows : List (List UInt8)}
    {steps : List SstatStep} (h : List.Forall₂ (StepRow jobID) rows steps) :
    0 ≤ (steps.map fun step => step.totalCPUSeconds.val).sum := by
  induction h with
  | nil => simp
  | cons hstep _ ih =>
    rw [List.map_cons, List.sum_cons]
    exact add_nonneg hstep.totalCPUSeconds_nonneg ih

/-! ## The rows -/

theorem sstatRow_ok_iff {jobID line : List UInt8} {usage next : SstatUsage}
    (hnonneg : 0 ≤ usage.totalCPUSeconds.val) :
    sstatRow jobID usage line = .ok next ↔ usage.steps.length ≠ maxSstatSteps ∧
      ∃ step, StepRow jobID line step ∧
        usage.totalCPUSeconds.val + step.totalCPUSeconds.val < 2 ^ 63 ∧ next = usage.add step := by
  unfold sstatRow
  simp only [check_eq_ok_iff, bind_eq_ok_iff, sstatStep_ok_iff, maxInt64_sub_lt_iff hnonneg,
    not_le, Except.ok.injEq, eq_comm (a := usage.add _)]

/-- What the steps of the rows add to a usage. -/
structure Gathered (usage : SstatUsage) (more : List SstatStep) (total : SstatUsage) : Prop where
  jobID : total.jobID = usage.jobID
  sampledAt : total.sampledAt = usage.sampledAt
  steps : total.steps = usage.steps ++ more
  count : total.steps.length ≤ maxSstatSteps
  totalCPUSeconds : total.totalCPUSeconds.val =
    usage.totalCPUSeconds.val + (more.map fun step => step.totalCPUSeconds.val).sum
  maxRSSBytes : total.maxRSSBytes.val =
    (more.map fun step => step.maxRSSBytes.val).foldl max usage.maxRSSBytes.val

omit [Int64Conversion] in
theorem SstatUsage.add_maxRSSBytes (usage : SstatUsage) (step : SstatStep) :
    (usage.add step).maxRSSBytes.val = max usage.maxRSSBytes.val step.maxRSSBytes.val := by
  unfold SstatUsage.add
  dsimp only
  split
  · next h => exact (max_eq_right h.le).symm
  · next h => exact (max_eq_left (not_lt.mp h)).symm

omit [Int64Conversion] in
theorem SstatUsage.add_totalCPUSeconds {usage : SstatUsage} {step : SstatStep}
    (husage : 0 ≤ usage.totalCPUSeconds.val) (hstep : 0 ≤ step.totalCPUSeconds.val)
    (hfits : usage.totalCPUSeconds.val + step.totalCPUSeconds.val < 2 ^ 63) :
    (usage.add step).totalCPUSeconds.val =
      usage.totalCPUSeconds.val + step.totalCPUSeconds.val :=
  wrap64_add_val husage hstep (not_le.mpr hfits)

/-- The loop takes every row or fails. -/
theorem sstatRows_ok_iff {jobID : List UInt8} {rows : List (List UInt8)}
    {usage total : SstatUsage} (hnonneg : 0 ≤ usage.totalCPUSeconds.val)
    (hcount : usage.steps.length ≤ maxSstatSteps) :
    rows.foldlM (sstatRow jobID) usage = .ok total ↔
      ∃ steps, List.Forall₂ (StepRow jobID) rows steps ∧ Gathered usage steps total := by
  induction rows generalizing usage with
  | nil =>
    rw [List.foldlM_nil]
    constructor
    · intro h
      obtain rfl := Except.ok.inj h
      exact ⟨[], .nil, rfl, rfl, by simp, hcount, by simp, by simp⟩
    · rintro ⟨steps, hrows, h⟩
      obtain rfl := List.forall₂_nil_left_iff.mp hrows
      obtain ⟨hjob, hsampled, hsteps, -, htotal, hmax⟩ := h
      cases usage
      cases total
      simp only [List.map_nil, List.sum_nil, List.foldl_nil, add_zero, List.append_nil]
        at hjob hsampled hsteps htotal hmax
      rw [hjob, hsampled, hsteps, Subtype.ext htotal, Subtype.ext hmax]
      rfl
  | cons line rows ih =>
    rw [List.foldlM_cons, bind_eq_ok_iff]
    simp only [sstatRow_ok_iff hnonneg]
    constructor
    · rintro ⟨next, ⟨hroom, step, hstep, hfits, rfl⟩, hrest⟩
      have hsum := SstatUsage.add_totalCPUSeconds hnonneg hstep.totalCPUSeconds_nonneg hfits
      have hstep0 := hstep.totalCPUSeconds_nonneg
      have hlength : (usage.add step).steps.length = usage.steps.length + 1 := by
        simp [SstatUsage.add]
      obtain ⟨steps, hrows, h⟩ := (ih (by omega) (by omega)).mp hrest
      refine ⟨step :: steps, .cons hstep hrows, h.jobID, h.sampledAt, ?_, h.count, ?_, ?_⟩
      · rw [h.steps]
        simp [SstatUsage.add]
      · rw [h.totalCPUSeconds, hsum, List.map_cons, List.sum_cons, add_assoc]
      · rw [h.maxRSSBytes, SstatUsage.add_maxRSSBytes, List.map_cons, List.foldl_cons]
    · rintro ⟨all, hrows, h⟩
      obtain ⟨step, steps, hstep, hmore, rfl⟩ := List.forall₂_cons_left_iff.mp hrows
      have hstep0 := hstep.totalCPUSeconds_nonneg
      have htotal := h.totalCPUSeconds
      rw [List.map_cons, List.sum_cons] at htotal
      -- what the rows behind add is not negative
      have hrest := totalCPUSeconds_sum_nonneg hmore
      have hlt := total.totalCPUSeconds.2.2
      have hfits : usage.totalCPUSeconds.val + step.totalCPUSeconds.val < 2 ^ 63 := by omega
      have hsum := SstatUsage.add_totalCPUSeconds hnonneg hstep0 hfits
      have hlength := congrArg List.length h.steps
      rw [List.length_append, List.length_cons] at hlength
      have hcount' := h.count
      refine ⟨usage.add step, ⟨by omega, step, hstep, hfits, rfl⟩, ?_⟩
      refine (ih (by omega) (by simp [SstatUsage.add]; omega)).mpr ⟨steps, hmore, h.jobID,
        h.sampledAt, ?_, h.count, ?_, ?_⟩
      · rw [h.steps]
        simp [SstatUsage.add]
      · rw [hsum, htotal, add_assoc]
      · rw [h.maxRSSBytes, SstatUsage.add_maxRSSBytes, List.map_cons, List.foldl_cons]

/-! ## The output -/

/-- What an accepted output says of the usage: every line fits and is the row of one step. -/
structure UsageOf (output : List UInt8) (id : GoInt) (sampledAt : Int) (usage : SstatUsage) :
    Prop where
  fits : ∀ line ∈ rawLines output, line.length < maxSstatLineLength
  jobID : usage.jobID = ascii (formatInt id)
  sampledAt : usage.sampledAt = formatRFC3339 sampledAt
  steps : List.Forall₂ (StepRow usage.jobID) (lines output) usage.steps
  count : usage.steps.length ≤ maxSstatSteps
  totalCPUSeconds : usage.totalCPUSeconds.val =
    (usage.steps.map fun step => step.totalCPUSeconds.val).sum
  maxRSSBytes : usage.maxRSSBytes.val =
    (usage.steps.map fun step => step.maxRSSBytes.val).foldl max 0

/-- The usage of an output that is accepted. -/
theorem parseSstat_ok_iff (output : List UInt8) (id : GoInt) (sampledAt : Int)
    (usage : SstatUsage) :
    parseSstat output id sampledAt = .ok usage ↔ UsageOf output id sampledAt usage := by
  have hzero : (wrap64 0).val = 0 := wrap64_val (by omega) (by omega)
  let start : SstatUsage :=
    ⟨ascii (formatInt id), formatRFC3339 sampledAt, wrap64 0, wrap64 0, []⟩
  have hrows : (scanLines maxSstatLineLength output).1.foldlM (sstatRow start.jobID) start =
      .ok usage ↔ ∃ steps, List.Forall₂ (StepRow start.jobID)
        (scanLines maxSstatLineLength output).1 steps ∧ Gathered start steps usage :=
    sstatRows_ok_iff hzero.ge (Nat.zero_le _)
  unfold parseSstat
  dsimp only
  rw [bind_eq_ok_iff]
  constructor
  · rintro ⟨total, hloop, hend⟩
    split at hend
    · cases hend
    · next hscan =>
      obtain rfl := Except.ok.inj hend
      obtain ⟨steps, hsteps, h⟩ := hrows.mp hloop
      obtain rfl : total.steps = steps := h.steps
      rw [scanLines_of_none hscan] at hsteps
      have htotal := h.totalCPUSeconds
      have hmax := h.maxRSSBytes
      rw [hzero] at hmax
      rw [hzero, zero_add] at htotal
      exact ⟨(scanLines_eq_none_iff.mp hscan), h.jobID, h.sampledAt, h.jobID ▸ hsteps, h.count,
        htotal, hmax⟩
  · intro h
    have hscan := scanLines_eq_none_iff.mpr h.fits
    have hsteps := h.steps
    rw [h.jobID, ← scanLines_of_none hscan] at hsteps
    refine ⟨usage, hrows.mpr ⟨usage.steps, hsteps, h.jobID, h.sampledAt, rfl, h.count, ?_, ?_⟩, ?_⟩
    · rw [hzero, zero_add]
      exact h.totalCPUSeconds
    · rw [hzero]
      exact h.maxRSSBytes
    · rw [hscan]

/-- A suffix that Slurm gives to a step. -/
def StepSuffix (suffix : List UInt8) : Prop :=
  suffix ∈ [ascii "batch", ascii "extern", ascii "interactive"] ∨
    suffix ≠ [] ∧ ∀ b ∈ suffix, isDigit b = true

/-- A step ID: that of the job, or of a step. -/
inductive StepID (jobID : List UInt8) : List UInt8 → Prop
  | job : StepID jobID jobID
  | step (suffix : List UInt8) (h : StepSuffix suffix) : StepID jobID (jobID ++ 0x2e :: suffix)

/-- The step IDs of the rows. -/
def stepIDs (output : List UInt8) : List (List UInt8) :=
  (lines output).filterMap fun line => (sstatFields line).map fun fields => trimSpace fields.jobID

/-- Rows with different step IDs have different names. -/
def NamesDistinct (jobID : List UInt8) (ids : List (List UInt8)) (steps : List SstatStep) : Prop :=
  ∀ a ∈ ids.zip steps, ∀ b ∈ ids.zip steps, StepID jobID a.1 → StepID jobID b.1 → a.1 ≠ b.1 →
    a.2.step ≠ b.2.step

section

omit [Int64Conversion]

theorem StepSuffix.ne_job {suffix : List UInt8} (h : StepSuffix suffix) : suffix ≠ ascii "job" := by
  rintro rfl
  rcases h with h | ⟨-, h⟩
  · exact absurd h (by decide)
  · exact absurd (h 0x6a (by decide)) (by decide)

theorem sstatStepName_job (jobID : List UInt8) : sstatStepName jobID jobID = ascii "job" := by
  have hpre : Bytes.hasPrefix jobID (jobID ++ [0x2e]) = false := by
    rw [Bytes.hasPrefix, Bool.eq_false_iff, ne_eq, List.isPrefixOf_iff_prefix]
    intro h
    have hlength := h.length_le
    rw [List.length_append, List.length_singleton] at hlength
    omega
  unfold sstatStepName trimPrefix
  simp [hpre]

theorem sstatStepName_step (jobID suffix : List UInt8) :
    sstatStepName jobID (jobID ++ 0x2e :: suffix) =
      if suffix = jobID then ascii "job" else suffix := by
  have hpre : Bytes.hasPrefix (jobID ++ 0x2e :: suffix) (jobID ++ [0x2e]) = true := by
    rw [Bytes.hasPrefix, List.isPrefixOf_iff_prefix]
    exact ⟨suffix, by simp⟩
  have hdrop : (jobID ++ 0x2e :: suffix).drop (jobID ++ [0x2e]).length = suffix := by
    rw [List.append_cons jobID 0x2e suffix, List.drop_left]
  unfold sstatStepName trimPrefix
  rw [hpre, if_pos rfl, hdrop]

/-- The only two step IDs with one name are the job and the step that has its number. -/
theorem sstatStepName_eq {jobID a b : List UInt8} (ha : StepID jobID a) (hb : StepID jobID b)
    (hne : a ≠ b) (h : sstatStepName jobID a = sstatStepName jobID b) :
    StepSuffix jobID ∧ (a = jobID ∧ b = jobID ++ 0x2e :: jobID ∨
      b = jobID ∧ a = jobID ++ 0x2e :: jobID) := by
  cases ha with
  | job =>
    cases hb with
    | job => exact absurd rfl hne
    | step suffix hsuffix =>
      rw [sstatStepName_job, sstatStepName_step] at h
      split at h
      · next heq => exact ⟨heq ▸ hsuffix, .inl ⟨rfl, by rw [heq]⟩⟩
      · exact absurd h.symm hsuffix.ne_job
  | step suffix hsuffix =>
    cases hb with
    | job =>
      rw [sstatStepName_job, sstatStepName_step] at h
      split at h
      · next heq => exact ⟨heq ▸ hsuffix, .inr ⟨rfl, by rw [heq]⟩⟩
      · exact absurd h hsuffix.ne_job
    | step suffix' hsuffix' =>
      have hne' : suffix ≠ suffix' := fun heq => hne (by rw [heq])
      rw [sstatStepName_step, sstatStepName_step] at h
      split at h
      · next heq =>
        rw [if_neg (fun heq' => hne' (heq.trans heq'.symm))] at h
        exact absurd h.symm hsuffix'.ne_job
      · split at h
        · exact absurd h hsuffix.ne_job
        · exact absurd h hne'

/-- A job ID can be the number of a step unless it is negative. -/
theorem stepSuffix_formatInt_iff (id : GoInt) : StepSuffix (ascii (formatInt id)) ↔ 0 ≤ id.val := by
  constructor
  · intro h
    by_contra hneg
    have hhead : (ascii (formatInt id)).head? = some 0x2d := by
      obtain ⟨m, hm⟩ := Int.eq_negSucc_of_lt_zero (not_le.mp hneg)
      have hsign : toString (Int.negSucc m) = "-" ++ (m + 1).repr := rfl
      rw [formatInt, ascii, hm, hsign, String.toList_append]
      rfl
    rcases h with h | ⟨-, h⟩
    · have hwords : ∀ word ∈ [ascii "batch", ascii "extern", ascii "interactive"],
          word.head? ≠ some 0x2d := by decide
      exact hwords _ h hhead
    · exact absurd (h 0x2d (List.mem_of_mem_head? hhead)) (by decide)
  · intro h
    obtain ⟨n, hn⟩ := Int.eq_ofNat_of_zero_le h
    have hdigits : ascii (formatInt id) =
        (Nat.toDigits 10 n).map fun c => UInt8.ofNat c.toNat := by
      rw [formatInt_natCast hn, ascii, Nat.toList_repr]
    refine .inr ⟨?_, fun b hb => ?_⟩
    · rw [hdigits, ne_eq, List.map_eq_nil_iff]
      exact Nat.toDigits_ne_nil
    · rw [hdigits, List.mem_map] at hb
      obtain ⟨c, hc, rfl⟩ := hb
      exact isDigit_ofNat (isDigit_toDigits c hc)

end

/-- The names of the steps are those of the step IDs. -/
theorem steps_of_stepIDs {jobID : List UInt8} {rows : List (List UInt8)} {steps : List SstatStep}
    (h : List.Forall₂ (StepRow jobID) rows steps) :
    List.Forall₂ (fun id step => step.step = sstatStepName jobID id)
      (rows.filterMap fun line => (sstatFields line).map fun fields => trimSpace fields.jobID)
      steps := by
  induction h with
  | nil => exact .nil
  | cons hstep _ ih =>
    obtain ⟨fields, hfields, hstep⟩ := hstep
    rw [List.filterMap_cons_some (by rw [hfields]; rfl)]
    exact .cons hstep.name ih

/-- Rows that differ in their step IDs have different names, unless there are both the row of the
    job and that of the step with the number of the job: both are named "job". -/
theorem stepNames_distinct_iff {output : List UInt8} {id : GoInt} {sampledAt : Int}
    {usage : SstatUsage} (h : parseSstat output id sampledAt = .ok usage) :
    NamesDistinct usage.jobID (stepIDs output) usage.steps ↔
      ¬ (0 ≤ id.val ∧ usage.jobID ∈ stepIDs output ∧
        usage.jobID ++ 0x2e :: usage.jobID ∈ stepIDs output) := by
  have husage := (parseSstat_ok_iff output id sampledAt usage).mp h
  have hnames : List.Forall₂ (fun id step => step.step = sstatStepName usage.jobID id)
      (stepIDs output) usage.steps := steps_of_stepIDs husage.steps
  have hname : ∀ a ∈ (stepIDs output).zip usage.steps,
      a.2.step = sstatStepName usage.jobID a.1 := by
    intro a ha
    exact (List.forall₂_iff_zip.mp hnames).2 ha
  have hsuffix := stepSuffix_formatInt_iff id
  rw [← husage.jobID] at hsuffix
  constructor
  · rintro hdistinct ⟨hid, hjob, hstep⟩
    have hpair : ∀ stepID ∈ stepIDs output,
        ∃ step, (stepID, step) ∈ (stepIDs output).zip usage.steps := by
      intro stepID hmem
      obtain ⟨i, hi, rfl⟩ := List.getElem_of_mem hmem
      have hi' : i < usage.steps.length := hnames.length_eq ▸ hi
      have hzip : i < ((stepIDs output).zip usage.steps).length := by
        rw [List.length_zip]
        omega
      refine ⟨usage.steps[i], ?_⟩
      rw [← List.getElem_zip]
      exact List.getElem_mem hzip
    obtain ⟨step, hjob⟩ := hpair _ hjob
    obtain ⟨step', hstep⟩ := hpair _ hstep
    refine hdistinct _ hjob _ hstep .job (.step _ (hsuffix.mpr hid)) ?_ ?_
    · intro heq
      have hlength : usage.jobID.length = (usage.jobID ++ 0x2e :: usage.jobID).length :=
        congrArg List.length heq
      rw [List.length_append, List.length_cons] at hlength
      omega
    · rw [hname _ hjob, hname _ hstep, sstatStepName_job, sstatStepName_step, if_pos rfl]
  · intro hno a ha b hb hida hidb hne heq
    rw [hname a ha, hname b hb] at heq
    have hmem : ∀ c ∈ (stepIDs output).zip usage.steps, c.1 ∈ stepIDs output :=
      fun c hc => (List.of_mem_zip hc).1
    obtain ⟨hnumber, ⟨hja, hjb⟩ | ⟨hjb, hja⟩⟩ := sstatStepName_eq hida hidb hne heq
    · exact hno ⟨hsuffix.mp hnumber, hja ▸ hmem a ha, hjb ▸ hmem b hb⟩
    · exact hno ⟨hsuffix.mp hnumber, hjb ▸ hmem b hb, hja ▸ hmem a ha⟩

end

open scoped Amd64

/-- Rows of job 1: its batch step and its step 1. -/
def batchOutput : List UInt8 :=
  ascii "1.batch|00:01|0|0|0|0|cpu=00:01\n1.1|00:01|0|0|0|0|cpu=00:02\n"

theorem stepNames_distinct_batch : ∃ usage, parseSstat batchOutput (wrap64 1) 0 = .ok usage ∧
    (NamesDistinct usage.jobID (stepIDs batchOutput) usage.steps ↔
      ¬ (0 ≤ (wrap64 1).val ∧ usage.jobID ∈ stepIDs batchOutput ∧
        usage.jobID ++ 0x2e :: usage.jobID ∈ stepIDs batchOutput)) := by
  have hok : (parseSstat batchOutput (wrap64 1) 0).isOk = true := by decide +kernel
  obtain ⟨usage, husage⟩ := isOk_iff_exists.mp hok
  exact ⟨usage, husage, stepNames_distinct_iff husage⟩

/-- Rows of job 1: the job and its step 1. -/
def numberedOutput : List UInt8 :=
  ascii "1|00:01|0|0|0|0|cpu=00:01\n1.1|00:01|0|0|0|0|cpu=00:02\n"

/-- The job and the step with its number are both named "job". -/
theorem numbered_step_named_job : stepIDs numberedOutput = [ascii "1", ascii "1.1"] ∧
    ∃ usage, parseSstat numberedOutput (wrap64 1) 0 = .ok usage ∧
      usage.steps.map SstatStep.step = [ascii "job", ascii "job"] ∧
      ¬ NamesDistinct usage.jobID (stepIDs numberedOutput) usage.steps := by
  have hids : stepIDs numberedOutput = [ascii "1", ascii "1.1"] := by decide +kernel
  have hrun : (parseSstat numberedOutput (wrap64 1) 0).toOption.map
      (fun usage => (usage.jobID, usage.steps.map SstatStep.step)) =
        some (ascii "1", [ascii "job", ascii "job"]) := by decide +kernel
  cases husage : parseSstat numberedOutput (wrap64 1) 0 with
  | error e => rw [husage] at hrun; cases hrun
  | ok usage =>
    rw [husage] at hrun
    obtain ⟨hjob, hnames⟩ := Prod.mk.inj (Option.some.inj hrun)
    refine ⟨hids, usage, rfl, hnames, fun hdistinct => ?_⟩
    obtain ⟨first, rest, hsteps, hfirst, hrest⟩ := List.map_eq_cons_iff.mp hnames
    obtain ⟨second, rest', rfl, hsecond, -⟩ := List.map_eq_cons_iff.mp hrest
    rw [hids, hjob, hsteps] at hdistinct
    refine hdistinct (ascii "1", first) (by simp) (ascii "1.1", second) (by simp) .job
      (.step (ascii "1") (.inr ⟨by decide, List.all_eq_true.mp (by decide)⟩))
      (show ascii "1" ≠ ascii "1.1" by decide) ?_
    rw [hfirst, hsecond]

end OpenHpcWeb.Slurm
