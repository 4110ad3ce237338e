/-
  The core-hour report of internal/slurm/core_hours.go.

  `parseCoreHoursJSON` is modelled from the point where `json.Unmarshal` has decoded the
  answer of sacct into `coreHoursJSON`; of the error list only the length is read. A window
  is its two Unix times. The two maps of groups are `AList`s; the source orders their
  values by sorting.

  What a job counts for is stated over the integers: `overlap` is the time of its interval
  inside the window, `Counted` the test that it is counted at all, `cpus` the CPUs of its
  allocation, and `charge` the core seconds that it adds.

  * `allocatedCPUs_ok_iff`: the CPU entries are accepted when none is negative and they fit.
  * `addCoreHourJob_ok_iff`: one job is, when its strings, its entries, its product and the
    new total are sound; and the totals after it.
  * `addCoreHourJobs_ok_iff`: the same for the loop, where only the whole sum has to fit: no
    job takes anything away.
-/
import OpenHpcWeb.Go.Sort
import OpenHpcWeb.Lib.Tally
import OpenHpcWeb.Slurm.Details

namespace OpenHpcWeb.Slurm

open OpenHpcWeb.Go OpenHpcWeb.Cluster OpenHpcWeb.Lib

/-! ## The answer of sacct -/

/-- One entry of `tres.allocated`. -/
structure TRESCount where
  type : String
  count : GoInt

structure CoreHourJob where
  account : String
  user : String
  partition : String
  timeStart : GoInt
  timeEnd : GoInt
  state : List String
  allocated : List TRESCount

structure CoreHoursJSON where
  errors : List String
  jobs : List CoreHourJob

/-! ## The report -/

structure CoreHourGroup where
  name : String
  coreSeconds : GoInt
  allocationCount : GoInt
  deriving DecidableEq

structure CoreHourSummary where
  fromUnix : GoInt
  toUnix : GoInt
  coreSeconds : GoInt
  allocationCount : GoInt
  accounts : List CoreHourGroup
  users : List CoreHourGroup
  deriving DecidableEq

def minInt64 (left right : GoInt) : GoInt := if left.val < right.val then left else right

def maxInt64 (left right : GoInt) : GoInt := if right.val < left.val then left else right

def containsFold (values : List String) (target : String) : Bool :=
  values.any fun value => equalFold value target

def TRESCount.isCPU (value : TRESCount) : Bool := equalFold value.type "cpu"

/-- The body of the loop of `allocatedCPUs`. -/
def addCPUs (result : GoInt) (value : TRESCount) : Except String GoInt :=
  if value.isCPU = false then .ok result
  else if value.count.val < 0 then .error "allocated CPU count must not be negative"
  else if (wrap64 (mathMaxInt64.val - value.count.val)).val < result.val then
    .error "allocated CPU count overflow"
  else .ok (wrap64 (result.val + value.count.val))

def allocatedCPUs (values : List TRESCount) : Except String GoInt :=
  values.foldlM addCPUs (wrap64 0)

def groupName (name : String) : String := if name = "" then "—" else name

def addCoreHourGroup (groups : AList fun _ : String => CoreHourGroup) (name : String)
    (coreSeconds : GoInt) : AList fun _ : String => CoreHourGroup :=
  let name := groupName name
  let group := (groups.lookup name).getD ⟨"", wrap64 0, wrap64 0⟩
  groups.insert name
    { name := name
      coreSeconds := wrap64 (group.coreSeconds.val + coreSeconds.val)
      allocationCount := wrap64 (group.allocationCount.val + 1) }

/-- The comparison of `sortedCoreHourGroups`. -/
def CoreHourGroup.less (x y : CoreHourGroup) : Bool :=
  if x.coreSeconds.val = y.coreSeconds.val then decide (x.name < y.name)
  else decide (y.coreSeconds.val < x.coreSeconds.val)

def sortedCoreHourGroups (groups : AList fun _ : String => CoreHourGroup) : List CoreHourGroup :=
  sortSlice CoreHourGroup.less (groups.entries.map fun group => group.2)

/-- What the loop over the jobs accumulates. -/
structure CoreHourTotals where
  coreSeconds : GoInt
  allocationCount : GoInt
  accounts : AList fun _ : String => CoreHourGroup
  users : AList fun _ : String => CoreHourGroup

/-- The end of the loop's body: the core seconds of one job enter the report. -/
def CoreHourTotals.add (s : CoreHourTotals) (job : CoreHourJob) (coreSeconds : GoInt) :
    CoreHourTotals where
  coreSeconds := wrap64 (s.coreSeconds.val + coreSeconds.val)
  allocationCount := wrap64 (s.allocationCount.val + 1)
  accounts := addCoreHourGroup s.accounts job.account coreSeconds
  users := addCoreHourGroup s.users job.user coreSeconds

/-- The rest of the loop's body, for a job with `seconds` inside the window. -/
def addCoreSeconds (s : CoreHourTotals) (job : CoreHourJob) (seconds : GoInt) :
    Except String CoreHourTotals :=
  match allocatedCPUs job.allocated with
  | .error err => .error err
  | .ok cpus =>
    if cpus.val = 0 then .ok s
    else if mathMaxInt64.val.tdiv seconds.val < cpus.val then
      .error "core-hour allocation overflow"
    else
      let coreSeconds := wrap64 (cpus.val * seconds.val)
      if (wrap64 (mathMaxInt64.val - coreSeconds.val)).val < s.coreSeconds.val then
        .error "core-hour total overflow"
      else .ok (s.add job coreSeconds)

/-- The body of the loop over the jobs. -/
def addCoreHourJob (fromUnix toUnix : GoInt) (s : CoreHourTotals) (job : CoreHourJob) :
    Except String CoreHourTotals :=
  match validateDetailStrings [job.account, job.user, job.partition] with
  | .error err => .error err
  | .ok () =>
    if job.timeStart.val ≤ 0 then .ok s
    else if job.timeEnd.val = 0 ∧ containsFold job.state "RUNNING" = false then .ok s
    else
      let timeEnd := if job.timeEnd.val = 0 then toUnix else job.timeEnd
      let start := maxInt64 job.timeStart fromUnix
      let timeEnd := minInt64 timeEnd toUnix
      if timeEnd.val ≤ start.val then .ok s
      else addCoreSeconds s job (wrap64 (timeEnd.val - start.val))

def parseCoreHoursJSON (response : CoreHoursJSON) (fromUnix toUnix : GoInt) :
    Except String CoreHourSummary :=
  if response.errors ≠ [] then
    .error ("core-hour JSON reported " ++ toString response.errors.length ++ " errors")
  else if toUnix.val ≤ fromUnix.val then .error "invalid core-hour window"
  else do
    let s ← response.jobs.foldlM (addCoreHourJob fromUnix toUnix) ⟨wrap64 0, wrap64 0, ∅, ∅⟩
    return ⟨fromUnix, toUnix, s.coreSeconds, s.allocationCount,
      sortedCoreHourGroups s.accounts, sortedCoreHourGroups s.users⟩

/-! ## What a job counts for -/

/-- The CPU entries of an allocation. -/
def cpuCounts (values : List TRESCount) : List Int :=
  (values.filter TRESCount.isCPU).map fun value => value.count.val

namespace CoreHourJob

/-- The seconds of the job inside the window, not above 0 where the two do not meet. A job
    without an end runs to the end of the window. -/
def overlap (job : CoreHourJob) (fromUnix toUnix : Int) : Int :=
  min (if job.timeEnd.val = 0 then toUnix else job.timeEnd.val) toUnix -
    max job.timeStart.val fromUnix

/-- The job has started, has ended or is running, and meets the window. -/
def Counted (job : CoreHourJob) (fromUnix toUnix : Int) : Prop :=
  0 < job.timeStart.val ∧ (job.timeEnd.val ≠ 0 ∨ containsFold job.state "RUNNING" = true) ∧
    0 < job.overlap fromUnix toUnix

instance (job : CoreHourJob) (fromUnix toUnix : Int) : Decidable (job.Counted fromUnix toUnix) :=
  inferInstanceAs (Decidable (_ ∧ _ ∧ _))

def cpus (job : CoreHourJob) : Int := (cpuCounts job.allocated).sum

/-- Allocated CPUs times overlap seconds. -/
def coreSeconds (job : CoreHourJob) (fromUnix toUnix : Int) : Int :=
  job.cpus * job.overlap fromUnix toUnix

/-- What the job adds to the report. -/
def charge (job : CoreHourJob) (fromUnix toUnix : Int) : Int :=
  if job.Counted fromUnix toUnix then job.coreSeconds fromUnix toUnix else 0

/-- The checks of the loop's body that read the job alone. -/
structure Fits (job : CoreHourJob) (fromUnix toUnix : Int) : Prop where
  strings : ∀ text ∈ [job.account, job.user, job.partition], DetailText text
  nonneg : job.Counted fromUnix toUnix → ∀ c ∈ cpuCounts job.allocated, 0 ≤ c
  cpus_lt : job.Counted fromUnix toUnix → job.cpus < 2 ^ 63
  coreSeconds_lt : job.Counted fromUnix toUnix → job.coreSeconds fromUnix toUnix < 2 ^ 63

theorem Fits.cpus_nonneg {job : CoreHourJob} {a b : Int} (h : job.Fits a b)
    (hc : job.Counted a b) : 0 ≤ job.cpus :=
  List.sum_nonneg (h.nonneg hc)

theorem Fits.charge_nonneg {job : CoreHourJob} {a b : Int} (h : job.Fits a b) :
    0 ≤ job.charge a b := by
  unfold charge
  split
  · next hc => exact Int.mul_nonneg (h.cpus_nonneg hc) hc.2.2.le
  · exact le_refl 0

theorem Fits.charge_lt {job : CoreHourJob} {a b : Int} (h : job.Fits a b) :
    job.charge a b < 2 ^ 63 := by
  unfold charge
  split
  · next hc => exact h.coreSeconds_lt hc
  · norm_num

theorem charge_of_not_counted {job : CoreHourJob} {a b : Int} (h : ¬job.Counted a b) :
    job.charge a b = 0 := by
  simp [charge, h]

/-- A job that is not counted is only checked for its strings. -/
theorem fits_of_not_counted {job : CoreHourJob} {a b : Int} (h : ¬job.Counted a b)
    (hs : ∀ text ∈ [job.account, job.user, job.partition], DetailText text) : job.Fits a b :=
  ⟨hs, fun hc => absurd hc h, fun hc => absurd hc h, fun hc => absurd hc h⟩

end CoreHourJob

/-! ## The CPUs of an allocation -/

private theorem addCPUs_ok_iff (values : List TRESCount) {r : GoInt} (hr : 0 ≤ r.val) (n : GoInt) :
    values.foldlM addCPUs r = .ok n ↔
      (∀ c ∈ cpuCounts values, 0 ≤ c) ∧ r.val + (cpuCounts values).sum = n.val := by
  induction values generalizing r with
  | nil =>
    have hval : r = n ↔ r.val = n.val := Subtype.ext_iff
    simpa [cpuCounts, pure, Except.pure] using hval
  | cons value values ih =>
    rw [List.foldlM_cons]
    have hcount := value.count.2
    by_cases hcpu : value.isCPU = true
    · have hcounts : cpuCounts (value :: values) = value.count.val :: cpuCounts values := by
        simp [cpuCounts, hcpu]
      rw [hcounts, List.forall_mem_cons, List.sum_cons]
      by_cases hneg : value.count.val < 0
      · have herr : addCPUs r value = .error "allocated CPU count must not be negative" := by
          simp [addCPUs, hcpu, hneg]
        rw [herr]
        simp [bind, Except.bind]
        omega
      · have hguard := maxInt64_sub_lt_iff (x := value.count) (y := r) (by omega)
        by_cases hover : (wrap64 (mathMaxInt64.val - value.count.val)).val < r.val
        · have herr : addCPUs r value = .error "allocated CPU count overflow" := by
            simp [addCPUs, hcpu, hneg, hover]
          rw [herr]
          constructor
          · intro h; cases h
          · intro h
            have htail : 0 ≤ (cpuCounts values).sum := List.sum_nonneg h.1.2
            have hn := n.2
            omega
        · have hok : addCPUs r value = .ok (wrap64 (r.val + value.count.val)) := by
            simp [addCPUs, hcpu, hneg, hover]
          have hval := wrap64_add_val (x := r) (y := value.count) hr (by omega) (by omega)
          have hbind : (addCPUs r value >>= fun r' => values.foldlM addCPUs r') =
              values.foldlM addCPUs (wrap64 (r.val + value.count.val)) := by
            rw [hok]; rfl
          rw [hbind, ih (by omega), hval]
          constructor
          · intro h
            exact ⟨⟨by omega, h.1⟩, by omega⟩
          · intro h
            exact ⟨h.1.2, by omega⟩
    · have hskip : addCPUs r value = .ok r := by simp [addCPUs, hcpu]
      have hcounts : cpuCounts (value :: values) = cpuCounts values := by
        simp [cpuCounts, hcpu]
      have hbind : (addCPUs r value >>= fun r' => values.foldlM addCPUs r') =
          values.foldlM addCPUs r := by
        rw [hskip]; rfl
      rw [hbind, hcounts, ih hr]

/-- The entries are counted exactly when none is negative and their sum fits. -/
theorem allocatedCPUs_ok_iff (values : List TRESCount) (n : GoInt) :
    allocatedCPUs values = .ok n ↔
      (∀ c ∈ cpuCounts values, 0 ≤ c) ∧ (cpuCounts values).sum = n.val := by
  have h0 : (wrap64 0).val = 0 := wrap64_val (by omega) (by omega)
  have h := addCPUs_ok_iff values (r := wrap64 0) (by omega) n
  rw [h0, Int.zero_add] at h
  exact h

/-! ## One job -/

@[simp] theorem minInt64_val (x y : GoInt) : (minInt64 x y).val = min x.val y.val := by
  unfold minInt64
  split
  · next h => exact (min_eq_left h.le).symm
  · next h => exact (min_eq_right (not_lt.mp h)).symm

@[simp] theorem maxInt64_val (x y : GoInt) : (maxInt64 x y).val = max x.val y.val := by
  unfold maxInt64
  split
  · next h => exact (max_eq_left h.le).symm
  · next h => exact (max_eq_right (not_lt.mp h)).symm

/-- The totals after a job that passes the checks. -/
def CoreHourTotals.after (s : CoreHourTotals) (job : CoreHourJob) (fromUnix toUnix : Int) :
    CoreHourTotals :=
  if job.charge fromUnix toUnix = 0 then s
  else s.add job (wrap64 (job.charge fromUnix toUnix))

/-- The division that guards the product: neither factor is negative. -/
private theorem tdiv_lt_iff {cpus seconds : Int} (hs : 0 < seconds) :
    mathMaxInt64.val.tdiv seconds < cpus ↔ 2 ^ 63 ≤ cpus * seconds := by
  have hmax := mathMaxInt64_val
  rw [Int.tdiv_eq_ediv_of_nonneg (by omega), Int.ediv_lt_iff_lt_mul hs]
  omega

section Job

variable {fromUnix toUnix : GoInt} {s s' : CoreHourTotals} {job : CoreHourJob}

/-- A job that adds nothing leaves the totals as they are. -/
private theorem skip_ok_iff (hs : s.coreSeconds.val < 2 ^ 63)
    (hfits : job.Fits fromUnix.val toUnix.val) (hcharge : job.charge fromUnix.val toUnix.val = 0) :
    (Except.ok s : Except String CoreHourTotals) = .ok s' ↔
      job.Fits fromUnix.val toUnix.val ∧
        s.coreSeconds.val + job.charge fromUnix.val toUnix.val < 2 ^ 63 ∧
        s' = s.after job fromUnix.val toUnix.val := by
  have hafter : s.after job fromUnix.val toUnix.val = s := by
    simp [CoreHourTotals.after, hcharge]
  rw [hcharge, hafter, Int.add_zero, Except.ok.injEq]
  constructor
  · intro h
    exact ⟨hfits, hs, h.symm⟩
  · intro h
    exact h.2.2.symm

/-- The guard on the total: the core seconds of a job enter exactly when the sum fits. -/
private theorem addTotal_ok_iff {coreSeconds : GoInt} (hnonneg : 0 ≤ coreSeconds.val) :
    (if (wrap64 (mathMaxInt64.val - coreSeconds.val)).val < s.coreSeconds.val then
        (.error "core-hour total overflow" : Except String CoreHourTotals)
      else .ok (s.add job coreSeconds)) = .ok s' ↔
      s.coreSeconds.val + coreSeconds.val < 2 ^ 63 ∧ s' = s.add job coreSeconds := by
  have hguard := maxInt64_sub_lt_iff (x := coreSeconds) (y := s.coreSeconds) hnonneg
  split
  · next htotal =>
    rw [hguard] at htotal
    constructor
    · intro h; cases h
    · intro h
      omega
  · next htotal =>
    rw [hguard] at htotal
    rw [Except.ok.injEq]
    constructor
    · intro h
      exact ⟨by omega, h.symm⟩
    · intro h
      exact h.2.symm

/-- A job with sound strings is refused exactly when its CPU entries, its product or the total
    do not fit. -/
private theorem addCoreSeconds_ok_iff {seconds : GoInt}
    (hstrings : ∀ text ∈ [job.account, job.user, job.partition], DetailText text)
    (hcounted : job.Counted fromUnix.val toUnix.val)
    (hseconds : seconds.val = job.overlap fromUnix.val toUnix.val) :
    addCoreSeconds s job seconds = .ok s' ↔
      job.Fits fromUnix.val toUnix.val ∧
        s.coreSeconds.val + job.charge fromUnix.val toUnix.val < 2 ^ 63 ∧
        s' = s.after job fromUnix.val toUnix.val := by
  have hslt := s.coreSeconds.2.2
  have hpos : 0 < seconds.val := by
    rw [hseconds]
    exact hcounted.2.2
  have hcharge : job.charge fromUnix.val toUnix.val = job.cpus * seconds.val := by
    rw [CoreHourJob.charge, if_pos hcounted, CoreHourJob.coreSeconds, hseconds]
  unfold addCoreSeconds
  split
  · next err herr =>
    constructor
    · intro h; cases h
    · intro h
      have hlt := h.1.cpus_lt hcounted
      have hnonneg := h.1.cpus_nonneg hcounted
      have hsum : job.cpus = (wrap64 job.cpus).val := (wrap64_val (by omega) hlt).symm
      have hcpus := (allocatedCPUs_ok_iff _ _).mpr ⟨h.1.nonneg hcounted, hsum⟩
      rw [herr] at hcpus
      cases hcpus
  next cpus hcpus =>
  obtain ⟨hnonneg, hsum⟩ := (allocatedCPUs_ok_iff _ _).mp hcpus
  have hcpus0 : 0 ≤ cpus.val := by
    rw [← hsum]
    exact List.sum_nonneg hnonneg
  have hmul : job.charge fromUnix.val toUnix.val = cpus.val * seconds.val := by
    rw [hcharge, CoreHourJob.cpus, hsum]
  have hfits : cpus.val * seconds.val < 2 ^ 63 → job.Fits fromUnix.val toUnix.val := by
    intro hlt
    refine ⟨hstrings, fun _ => hnonneg, fun _ => ?_, fun hc => ?_⟩
    · rw [CoreHourJob.cpus, hsum]
      exact cpus.2.2
    · rw [← hmul, CoreHourJob.charge, if_pos hc] at hlt
      exact hlt
  split
  · next hzero =>
    have hcharge0 : cpus.val * seconds.val = 0 := by rw [hzero, Int.zero_mul]
    exact skip_ok_iff hslt (hfits (by omega)) (by rw [hmul, hcharge0])
  next hzero =>
  have hmulpos : 0 < cpus.val * seconds.val := Int.mul_pos (by omega) hpos
  split
  · next hover =>
    rw [tdiv_lt_iff hpos] at hover
    constructor
    · intro h; cases h
    · intro h
      have hlt := h.1.charge_lt
      omega
  next hover =>
  rw [tdiv_lt_iff hpos] at hover
  have hproduct : (wrap64 (cpus.val * seconds.val)).val = cpus.val * seconds.val :=
    wrap64_val (by omega) (by omega)
  have hafter : s.after job fromUnix.val toUnix.val =
      s.add job (wrap64 (cpus.val * seconds.val)) := by
    rw [CoreHourTotals.after, hmul, if_neg (by omega)]
  rw [addTotal_ok_iff (by omega), hproduct, hafter, hmul]
  constructor
  · intro h
    exact ⟨hfits (by omega), h⟩
  · intro h
    exact h.2

/-- The interval of a job, clipped as the loop clips it. -/
private theorem clip_eq (job : CoreHourJob) (fromUnix toUnix : GoInt) :
    (minInt64 (if job.timeEnd.val = 0 then toUnix else job.timeEnd) toUnix).val -
        (maxInt64 job.timeStart fromUnix).val =
      job.overlap fromUnix.val toUnix.val := by
  rw [minInt64_val, maxInt64_val, CoreHourJob.overlap, apply_ite Subtype.val]

/-- What the loop does of one job: the checks, and the totals after it. -/
theorem addCoreHourJob_ok_iff :
    addCoreHourJob fromUnix toUnix s job = .ok s' ↔
      job.Fits fromUnix.val toUnix.val ∧
        s.coreSeconds.val + job.charge fromUnix.val toUnix.val < 2 ^ 63 ∧
        s' = s.after job fromUnix.val toUnix.val := by
  have hskip : (∀ text ∈ [job.account, job.user, job.partition], DetailText text) →
      ¬job.Counted fromUnix.val toUnix.val →
      ((Except.ok s : Except String CoreHourTotals) = .ok s' ↔ _) := fun hstrings hc =>
    skip_ok_iff s.coreSeconds.2.2 (CoreHourJob.fits_of_not_counted hc hstrings)
      (CoreHourJob.charge_of_not_counted hc)
  unfold addCoreHourJob
  split
  · next err herr =>
    constructor
    · intro h; cases h
    · intro h
      have hok := (validateDetailStrings_ok_iff _).mpr h.1.strings
      rw [herr] at hok
      cases hok
  next hok =>
  have hstrings := (validateDetailStrings_ok_iff _).mp hok
  split
  · next hstart => exact hskip hstrings fun hc => absurd hc.1 (by omega)
  next hstart =>
  split
  · next hrun =>
    apply hskip hstrings
    intro hc
    rcases hc.2.1 with hne | hrunning
    · exact hne hrun.1
    · rw [hrun.2] at hrunning
      cases hrunning
  next hrun =>
  have hclip := clip_eq job fromUnix toUnix
  dsimp only
  generalize minInt64 (if job.timeEnd.val = 0 then toUnix else job.timeEnd) toUnix = timeEnd
    at hclip ⊢
  have hend := timeEnd.2.2
  split
  · next hle => exact hskip hstrings fun hc => absurd hc.2.2 (by omega)
  next hle =>
  have hcounted : job.Counted fromUnix.val toUnix.val := by
    refine ⟨by omega, ?_, by omega⟩
    by_cases hzero : job.timeEnd.val = 0
    · right
      simpa [hzero] using hrun
    · exact .inl hzero
  -- The start is positive, so the difference of the two bounds does not leave the range.
  have hstart' : 0 < (maxInt64 job.timeStart fromUnix).val := by
    rw [maxInt64_val]
    exact lt_of_lt_of_le (by omega) (le_max_left _ _)
  apply addCoreSeconds_ok_iff hstrings hcounted
  rw [wrap64_val (by omega) (by omega), hclip]

end Job

/-! ## The loop -/

/-- The core seconds that the jobs add. -/
def chargeTotal (jobs : List CoreHourJob) (fromUnix toUnix : Int) : Int :=
  (jobs.map fun job => job.charge fromUnix toUnix).sum

theorem chargeTotal_cons (job : CoreHourJob) (jobs : List CoreHourJob) (a b : Int) :
    chargeTotal (job :: jobs) a b = job.charge a b + chargeTotal jobs a b := by
  simp [chargeTotal]

theorem chargeTotal_nonneg {jobs : List CoreHourJob} {a b : Int}
    (h : ∀ job ∈ jobs, job.Fits a b) : 0 ≤ chargeTotal jobs a b := by
  apply List.sum_nonneg
  intro x hx
  obtain ⟨job, hjob, rfl⟩ := List.mem_map.mp hx
  exact (h job hjob).charge_nonneg

/-- The totals after a list of jobs that passes the checks. -/
def totalsAfter (s : CoreHourTotals) (jobs : List CoreHourJob) (fromUnix toUnix : Int) :
    CoreHourTotals :=
  jobs.foldl (fun s job => s.after job fromUnix toUnix) s

theorem after_coreSeconds {s : CoreHourTotals} {job : CoreHourJob} {a b : Int}
    (hs : 0 ≤ s.coreSeconds.val) (hj : job.Fits a b)
    (hlt : s.coreSeconds.val + job.charge a b < 2 ^ 63) :
    (s.after job a b).coreSeconds.val = s.coreSeconds.val + job.charge a b := by
  have hcharge := hj.charge_nonneg
  unfold CoreHourTotals.after
  split
  · next hzero => rw [hzero, Int.add_zero]
  · next hzero =>
    rw [CoreHourTotals.add, wrap64_val (by omega) hj.charge_lt]
    exact wrap64_val (by omega) hlt

/-- What the loop does of the jobs: every job is checked, and the whole sum has to fit. -/
theorem addCoreHourJobs_ok_iff (fromUnix toUnix : GoInt) (jobs : List CoreHourJob)
    {s : CoreHourTotals} (s' : CoreHourTotals) (hs : 0 ≤ s.coreSeconds.val) :
    jobs.foldlM (addCoreHourJob fromUnix toUnix) s = .ok s' ↔
      (∀ job ∈ jobs, job.Fits fromUnix.val toUnix.val) ∧
        s.coreSeconds.val + chargeTotal jobs fromUnix.val toUnix.val < 2 ^ 63 ∧
        s' = totalsAfter s jobs fromUnix.val toUnix.val := by
  induction jobs generalizing s with
  | nil =>
    have hlt := s.coreSeconds.2.2
    have hsum : s.coreSeconds.val + chargeTotal [] fromUnix.val toUnix.val < 2 ^ 63 := by
      simpa [chargeTotal] using hlt
    simp only [List.foldlM_nil, pure, Except.pure, Except.ok.injEq, totalsAfter, List.foldl_nil]
    constructor
    · intro h
      exact ⟨fun job hjob => absurd hjob List.not_mem_nil, hsum, h.symm⟩
    · intro h
      exact h.2.2.symm
  | cons job jobs ih =>
    rw [List.foldlM_cons, List.forall_mem_cons, chargeTotal_cons]
    cases hrun : addCoreHourJob fromUnix toUnix s job with
    | error err =>
      constructor
      · intro h; cases h
      · intro h
        have htail := chargeTotal_nonneg h.1.2
        have hok := (addCoreHourJob_ok_iff (s := s)).mpr ⟨h.1.1, by omega, rfl⟩
        rw [hrun] at hok
        cases hok
    | ok s₁ =>
      obtain ⟨hfits, hlt, rfl⟩ := addCoreHourJob_ok_iff.mp hrun
      have hval := after_coreSeconds hs hfits hlt
      have hcharge := hfits.charge_nonneg
      have hbind : (Except.ok (s.after job fromUnix.val toUnix.val) >>= fun s₁ =>
          jobs.foldlM (addCoreHourJob fromUnix toUnix) s₁) =
            jobs.foldlM (addCoreHourJob fromUnix toUnix) (s.after job fromUnix.val toUnix.val) :=
        rfl
      rw [hbind, ih (by omega), hval]
      constructor
      · intro h
        exact ⟨⟨hfits, h.1⟩, by omega, h.2.2⟩
      · intro h
        exact ⟨h.1.2, by omega, h.2.2⟩

end OpenHpcWeb.Slurm
