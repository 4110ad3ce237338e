/-
  Core-hour windows are additive.

  The interval of a job meets two adjacent windows in as many seconds as it meets the two
  together: `window` is the length of an interval inside a window, and `window_add` the
  arithmetic of it. A job without an end has another end in each window; it meets each as
  if it never ended.

  * `charge_add`: what a job adds to the report splits at the middle.
  * `fits_left`, `fits_right`: a job that the whole window accepts is accepted by both parts.
  * `parseCoreHoursJSON_windows`: the three reports.
-/
import OpenHpcWeb.Slurm.CoreHourReport

namespace OpenHpcWeb.Slurm

open OpenHpcWeb.Go OpenHpcWeb.Cluster OpenHpcWeb.Lib

/-! ## Intervals -/

/-- The length of `[s, e)` inside `[a, b)`. -/
def window (s e a b : Int) : Int := max 0 (min e b - max s a)

theorem window_add {s e a m b : Int} (ham : a ≤ m) (hmb : m ≤ b) :
    window s e a b = window s e a m + window s e m b := by
  unfold window
  omega

/-! ## One job -/

namespace CoreHourJob

variable {job : CoreHourJob} {a m b : Int}

/-- The job has started, and has ended or is running: what the test of a counted job asks
    before it looks at the window. -/
def Started (job : CoreHourJob) : Prop :=
  0 < job.timeStart.val ∧ (job.timeEnd.val ≠ 0 ∨ containsFold job.state "RUNNING" = true)

/-- The end of the job, for a job without one any time from `b` on. -/
def endBefore (job : CoreHourJob) (b : Int) : Int :=
  if job.timeEnd.val = 0 then b else job.timeEnd.val

theorem overlap_eq {c : Int} (hbc : b ≤ c) :
    job.overlap a b = min (job.endBefore c) b - max job.timeStart.val a := by
  unfold overlap endBefore
  split
  · rw [min_self, min_eq_right hbc]
  · rfl

theorem counted_iff : job.Counted a b ↔ job.Started ∧ 0 < job.overlap a b :=
  and_assoc.symm

/-- What a started job adds, as CPUs times the part of its interval in the window. -/
theorem charge_eq {c : Int} (hs : job.Started) (hbc : b ≤ c) :
    job.charge a b = job.cpus * window job.timeStart.val (job.endBefore c) a b := by
  have hwindow : window job.timeStart.val (job.endBefore c) a b = max 0 (job.overlap a b) := by
    rw [window, overlap_eq hbc]
  rw [hwindow, charge]
  split
  · next hc =>
    have hpos := hc.2.2
    rw [coreSeconds, max_eq_right hpos.le]
  · next hc =>
    have hle : job.overlap a b ≤ 0 := by
      by_contra hlt
      exact hc (counted_iff.mpr ⟨hs, by omega⟩)
    rw [max_eq_left hle, Int.mul_zero]

/-- What a job adds to the report splits at the middle. -/
theorem charge_add (job : CoreHourJob) (ham : a ≤ m) (hmb : m ≤ b) :
    job.charge a b = job.charge a m + job.charge m b := by
  by_cases hs : job.Started
  · rw [charge_eq hs (le_refl b), charge_eq hs hmb, charge_eq hs (le_refl b), ← Int.mul_add,
      window_add ham hmb]
  · have hnot : ∀ x y, ¬job.Counted x y := fun x y hc => hs (counted_iff.mp hc).1
    rw [charge_of_not_counted (hnot a b), charge_of_not_counted (hnot a m),
      charge_of_not_counted (hnot m b), Int.add_zero]

/-- A job that meets a part of the window meets the window, for no less. -/
theorem Counted.of_part {a' b' : Int} (h : job.Counted a' b') (ha : a ≤ a') (hb : b' ≤ b) :
    job.Counted a b ∧ job.overlap a' b' ≤ job.overlap a b := by
  have hle : job.overlap a' b' ≤ job.overlap a b := by
    rw [overlap_eq hb, overlap_eq (le_refl b)]
    omega
  exact ⟨⟨h.1, h.2.1, lt_of_lt_of_le h.2.2 hle⟩, hle⟩

/-- A job that the whole window accepts is accepted by every part of it. -/
theorem Fits.of_part {a' b' : Int} (h : job.Fits a b) (ha : a ≤ a') (hb : b' ≤ b) :
    job.Fits a' b' where
  strings := h.strings
  nonneg hc := h.nonneg (hc.of_part ha hb).1
  cpus_lt hc := h.cpus_lt (hc.of_part ha hb).1
  coreSeconds_lt hc := by
    obtain ⟨hwhole, hle⟩ := hc.of_part ha hb
    calc job.coreSeconds a' b' ≤ job.coreSeconds a b :=
          Int.mul_le_mul_of_nonneg_left hle (h.cpus_nonneg hwhole)
      _ < 2 ^ 63 := h.coreSeconds_lt hwhole

end CoreHourJob

/-! ## The reports -/

/-- The core seconds of a group of the report, 0 where it has none of that name. -/
def groupCoreSeconds (groups : List CoreHourGroup) (name : String) : Int :=
  match groups.find? fun g => g.name = name with
  | some g => g.coreSeconds.val
  | none => 0

/-- A group that is missing is one of jobs that add nothing. -/
theorem groupCoreSeconds_eq {name : CoreHourJob → String} {jobs : List CoreHourJob} {a b : Int}
    {groups : AList fun _ : String => CoreHourGroup} (h : GroupsInv name jobs a b groups)
    (n : String) :
    groupCoreSeconds (sortedCoreHourGroups groups) n =
      tally (fun job => groupName (name job)) (fun job => job.charge a b) jobs n := by
  unfold groupCoreSeconds
  split
  · next g hg =>
    have hname : g.name = n := by simpa using List.find?_some hg
    have hmem := (mem_sortedCoreHourGroups h g).mp (List.mem_of_find?_eq_some hg)
    rw [hmem.2.1, hname]
  · next hnone =>
    symm
    apply tally_eq_zero
    intro job hjob hname
    by_contra hne
    obtain ⟨g, hg⟩ := Option.isSome_iff_exists.mp
      (AList.lookup_isSome.mpr ((h.mem n).mpr ⟨job, hjob, hne, hname⟩))
    obtain ⟨hgname, hsums⟩ := h.group n g hg
    have hmem : g ∈ sortedCoreHourGroups groups := by
      rw [mem_sortedCoreHourGroups h, hgname]
      exact ⟨⟨job, hjob, hne, hname⟩, hsums⟩
    have hfind := List.find?_eq_none.mp hnone g hmem
    exact hfind (by simpa using hgname)

/-- A whole window that is accepted has two parts that are, and its sums are theirs. -/
theorem parseCoreHoursJSON_windows (jobs : List CoreHourJob) (fromUnix midUnix toUnix : GoInt)
    (hfm : fromUnix.val < midUnix.val) (hmt : midUnix.val < toUnix.val)
    (whole : CoreHourSummary)
    (hwhole : parseCoreHoursJSON ⟨[], jobs⟩ fromUnix toUnix = .ok whole) :
    ∃ left right, parseCoreHoursJSON ⟨[], jobs⟩ fromUnix midUnix = .ok left ∧
      parseCoreHoursJSON ⟨[], jobs⟩ midUnix toUnix = .ok right ∧
      whole.coreSeconds.val = left.coreSeconds.val + right.coreSeconds.val ∧
      (∀ account, groupCoreSeconds whole.accounts account =
        groupCoreSeconds left.accounts account + groupCoreSeconds right.accounts account) ∧
      ∀ user, groupCoreSeconds whole.users user =
        groupCoreSeconds left.users user + groupCoreSeconds right.users user := by
  obtain ⟨hfits, hlt, rfl⟩ := (parseCoreHoursJSON_ok_iff (by omega) whole).mp hwhole
  have hleft : ∀ job ∈ jobs, job.Fits fromUnix.val midUnix.val := fun job hjob =>
    (hfits job hjob).of_part (le_refl _) hmt.le
  have hright : ∀ job ∈ jobs, job.Fits midUnix.val toUnix.val := fun job hjob =>
    (hfits job hjob).of_part hfm.le (le_refl _)
  have hcharge : ∀ job ∈ jobs, job.charge fromUnix.val toUnix.val =
      job.charge fromUnix.val midUnix.val + job.charge midUnix.val toUnix.val := fun job _ =>
    job.charge_add hfm.le hmt.le
  have htotal : chargeTotal jobs fromUnix.val toUnix.val =
      chargeTotal jobs fromUnix.val midUnix.val + chargeTotal jobs midUnix.val toUnix.val := by
    rw [chargeTotal, chargeTotal, chargeTotal, ← List.sum_map_add, List.map_congr_left hcharge]
  have hleft0 := chargeTotal_nonneg hleft
  have hright0 := chargeTotal_nonneg hright
  have hinv := totalsInv_totalsAfter hfits hlt
  have hinvLeft := totalsInv_totalsAfter hleft (by omega)
  have hinvRight := totalsInv_totalsAfter hright (by omega)
  refine ⟨coreHourReport jobs fromUnix midUnix, coreHourReport jobs midUnix toUnix,
    (parseCoreHoursJSON_ok_iff hfm _).mpr ⟨hleft, by omega, rfl⟩,
    (parseCoreHoursJSON_ok_iff hmt _).mpr ⟨hright, by omega, rfl⟩, ?_, ?_, ?_⟩
  · show (totalsAfter _ jobs _ _).coreSeconds.val =
      (totalsAfter _ jobs _ _).coreSeconds.val + (totalsAfter _ jobs _ _).coreSeconds.val
    rw [hinv.coreSeconds, hinvLeft.coreSeconds, hinvRight.coreSeconds, htotal]
  · intro account
    show groupCoreSeconds (sortedCoreHourGroups _) account = _
    rw [groupCoreSeconds_eq hinv.accounts, tally_add hcharge]
    exact congrArg₂ _ (groupCoreSeconds_eq hinvLeft.accounts account).symm
      (groupCoreSeconds_eq hinvRight.accounts account).symm
  · intro user
    show groupCoreSeconds (sortedCoreHourGroups _) user = _
    rw [groupCoreSeconds_eq hinv.users, tally_add hcharge]
    exact congrArg₂ _ (groupCoreSeconds_eq hinvLeft.users user).symm
      (groupCoreSeconds_eq hinvRight.users user).symm

/-- A running job that crosses the middle. -/
theorem parseCoreHoursJSON_windows_running :
    ∃ left right, parseCoreHoursJSON ⟨[], [runningJob]⟩ (wrap64 0) (wrap64 7) = .ok left ∧
      parseCoreHoursJSON ⟨[], [runningJob]⟩ (wrap64 7) (wrap64 10) = .ok right ∧
      12 = left.coreSeconds.val + right.coreSeconds.val := by
  obtain ⟨left, right, hleft, hright, hsum, -⟩ :=
    parseCoreHoursJSON_windows [runningJob] (wrap64 0) (wrap64 7) (wrap64 10) (by decide)
      (by decide) _ (by rfl)
  exact ⟨left, right, hleft, hright, hsum⟩

end OpenHpcWeb.Slurm
