/-
  The core-hour report is exact.

  The loop over the jobs fills a total, a count and two maps of groups without looking at
  the groups for an overflow. `TotalsInv` says what they hold after a list of jobs: the
  sums of the jobs' charges, over the integers. No group is above the total and no count
  is above the seconds it counts, so the guard on the total guards them all.

  * `groupsInv_concat`, `totalsInv_concat`: one job; `totalsInv_totalsAfter`: the loop.
  * `mem_sortedCoreHourGroups`: a group stands in the report exactly when it is the one of
    a job that adds something, with the sums of its name.
  * `parseCoreHoursJSON_exact`: when the answer is refused, and what the report holds.
-/
import OpenHpcWeb.Slurm.CoreHours

namespace OpenHpcWeb.Slurm

open OpenHpcWeb.Go OpenHpcWeb.Cluster OpenHpcWeb.Lib

/-! ## The groups -/

/-- How many of the report's allocations the job is: one if it adds something. -/
def CoreHourJob.allocations (job : CoreHourJob) (fromUnix toUnix : Int) : Int :=
  if job.charge fromUnix toUnix = 0 then 0 else 1

/-- The map of groups by `name` after `jobs`: one group for each name of a job that adds
    something, with the sums of the jobs of that name. -/
structure GroupsInv (name : CoreHourJob → String) (jobs : List CoreHourJob)
    (fromUnix toUnix : Int) (groups : AList fun _ : String => CoreHourGroup) : Prop where
  mem : ∀ n, n ∈ groups ↔ ∃ job ∈ jobs, job.charge fromUnix toUnix ≠ 0 ∧ groupName (name job) = n
  group : ∀ n g, groups.lookup n = some g → g.name = n ∧
    g.coreSeconds.val =
      tally (fun job => groupName (name job)) (fun job => job.charge fromUnix toUnix) jobs n ∧
    g.allocationCount.val =
      tally (fun job => groupName (name job)) (fun job => job.allocations fromUnix toUnix) jobs n

theorem groupsInv_nil (name : CoreHourJob → String) (a b : Int) : GroupsInv name [] a b ∅ where
  mem n := by simp
  group n g h := by simp at h

section Step

variable {name : CoreHourJob → String} {jobs : List CoreHourJob} {a b : Int}
  {groups : AList fun _ : String => CoreHourGroup} {job : CoreHourJob}

theorem CoreHourJob.allocations_nonneg (job : CoreHourJob) (a b : Int) :
    0 ≤ job.allocations a b := by
  unfold allocations
  split <;> omega

/-- A job that adds something adds a core second at least. -/
theorem CoreHourJob.Fits.allocations_le (h : job.Fits a b) :
    job.allocations a b ≤ job.charge a b := by
  have hcharge := h.charge_nonneg
  unfold allocations
  split <;> omega

/-- What the map holds under a name before a job of that name, also when that is nothing. -/
private theorem group_getD (h : GroupsInv name jobs a b groups) (n : String) :
    ((groups.lookup n).getD ⟨"", wrap64 0, wrap64 0⟩).coreSeconds.val =
        tally (fun job => groupName (name job)) (fun job => job.charge a b) jobs n ∧
      ((groups.lookup n).getD ⟨"", wrap64 0, wrap64 0⟩).allocationCount.val =
        tally (fun job => groupName (name job)) (fun job => job.allocations a b) jobs n := by
  cases hg : groups.lookup n with
  | some g => exact (h.group n g hg).2
  | none =>
    have hnone : ∀ job ∈ jobs, groupName (name job) = n → job.charge a b = 0 := by
      intro job hjob hname
      by_contra hcharge
      have hmem := (h.mem n).mpr ⟨job, hjob, hcharge, hname⟩
      exact AList.lookup_eq_none.mp hg hmem
    have h0 : (wrap64 0).val = 0 := wrap64_val (by omega) (by omega)
    have hcounts : ∀ job ∈ jobs, groupName (name job) = n → job.allocations a b = 0 :=
      fun job hjob hname => if_pos (hnone job hjob hname)
    constructor
    · rw [tally_eq_zero hnone]
      exact h0
    · rw [tally_eq_zero hcounts]
      exact h0

/-- No group is above the sum over all jobs, so none wraps where that fits. -/
private theorem tally_bounds (name : CoreHourJob → String)
    (hjobs : ∀ job ∈ jobs, job.Fits a b) (n : String) :
    (0 ≤ tally (fun job => groupName (name job)) (fun job => job.charge a b) jobs n ∧
      tally (fun job => groupName (name job)) (fun job => job.charge a b) jobs n ≤
        chargeTotal jobs a b) ∧
    0 ≤ tally (fun job => groupName (name job)) (fun job => job.allocations a b) jobs n ∧
      tally (fun job => groupName (name job)) (fun job => job.allocations a b) jobs n ≤
        chargeTotal jobs a b := by
  have hnonneg : ∀ job ∈ jobs, 0 ≤ job.charge a b := fun job hjob => (hjobs job hjob).charge_nonneg
  have hcounts : ∀ job ∈ jobs, 0 ≤ job.allocations a b := fun job _ => job.allocations_nonneg a b
  refine ⟨⟨tally_nonneg hnonneg n, tally_le_sum hnonneg n⟩, tally_nonneg hcounts n, ?_⟩
  calc tally (fun job => groupName (name job)) (fun job => job.allocations a b) jobs n
      ≤ (jobs.map fun job => job.allocations a b).sum := tally_le_sum hcounts n
    _ ≤ chargeTotal jobs a b := by
        apply List.sum_le_sum
        intro job hjob
        exact (hjobs job hjob).allocations_le

/-- A job that adds something: its group is the only one to change. -/
private theorem groupsInv_add (h : GroupsInv name jobs a b groups)
    (hjobs : ∀ job' ∈ jobs, job'.Fits a b) (hjob : job.Fits a b) (hne : job.charge a b ≠ 0)
    (hlt : chargeTotal jobs a b + job.charge a b < 2 ^ 63) :
    GroupsInv name (jobs ++ [job]) a b
      (addCoreHourGroup groups (name job) (wrap64 (job.charge a b))) := by
  obtain ⟨hsum, hcount⟩ := group_getD h (groupName (name job))
  obtain ⟨⟨hsum0, hsumle⟩, hcount0, hcountle⟩ := tally_bounds name hjobs
    (groupName (name job))
  have hcharge := hjob.charge_nonneg
  have hvalue : (wrap64 (job.charge a b)).val = job.charge a b :=
    wrap64_val (by omega) hjob.charge_lt
  have hone : job.allocations a b = 1 := if_neg hne
  constructor
  · intro n
    rw [addCoreHourGroup, AList.mem_insert, h.mem]
    constructor
    · intro hn
      rcases hn with rfl | ⟨job', hjob', hrest⟩
      · exact ⟨job, by simp, hne, rfl⟩
      · exact ⟨job', by simp [hjob'], hrest⟩
    · intro hn
      obtain ⟨job', hjob', hrest⟩ := hn
      rcases List.mem_append.mp hjob' with hold | hnew
      · exact .inr ⟨job', hold, hrest⟩
      · obtain rfl : job' = job := by simpa using hnew
        exact .inl hrest.2.symm
  · intro n g hg
    rw [tally_concat, tally_concat]
    by_cases hn : n = groupName (name job)
    · subst hn
      rw [addCoreHourGroup, AList.lookup_insert] at hg
      obtain rfl := Option.some.inj hg
      refine ⟨rfl, ?_, ?_⟩
      · rw [if_pos rfl, ← hsum]
        dsimp only
        rw [hvalue, hsum]
        exact wrap64_val (by omega) (by omega)
      · rw [if_pos rfl, hone, ← hcount]
        dsimp only
        rw [hcount]
        exact wrap64_val (by omega) (by omega)
    · rw [addCoreHourGroup, AList.lookup_insert_ne hn] at hg
      obtain ⟨hname, hgsum, hgcount⟩ := h.group n g hg
      rw [if_neg (Ne.symm hn), if_neg (Ne.symm hn), add_zero, add_zero]
      exact ⟨hname, hgsum, hgcount⟩

/-- One job more. -/
theorem groupsInv_concat (h : GroupsInv name jobs a b groups)
    (hjobs : ∀ job' ∈ jobs, job'.Fits a b) (hjob : job.Fits a b)
    (hlt : chargeTotal jobs a b + job.charge a b < 2 ^ 63) :
    GroupsInv name (jobs ++ [job]) a b
      (if job.charge a b = 0 then groups
        else addCoreHourGroup groups (name job) (wrap64 (job.charge a b))) := by
  split
  · next hzero =>
    constructor
    · intro n
      rw [h.mem]
      simp [hzero, or_and_right, exists_or]
    · intro n g hg
      obtain ⟨hname, hsum, hcount⟩ := h.group n g hg
      refine ⟨hname, ?_, ?_⟩
      · rw [hsum, tally_concat]
        simp [hzero]
      · rw [hcount, tally_concat]
        simp [CoreHourJob.allocations, hzero]
  · next hne => exact groupsInv_add h hjobs hjob hne hlt

end Step

/-- The totals of the loop after `jobs`. -/
structure TotalsInv (jobs : List CoreHourJob) (fromUnix toUnix : Int) (s : CoreHourTotals) :
    Prop where
  coreSeconds : s.coreSeconds.val = chargeTotal jobs fromUnix toUnix
  allocationCount : s.allocationCount.val =
    (jobs.map fun job => job.allocations fromUnix toUnix).sum
  accounts : GroupsInv CoreHourJob.account jobs fromUnix toUnix s.accounts
  users : GroupsInv CoreHourJob.user jobs fromUnix toUnix s.users

theorem totalsInv_nil (a b : Int) : TotalsInv [] a b ⟨wrap64 0, wrap64 0, ∅, ∅⟩ where
  coreSeconds := wrap64_val (by omega) (by omega)
  allocationCount := wrap64_val (by omega) (by omega)
  accounts := groupsInv_nil _ a b
  users := groupsInv_nil _ a b

theorem totalsInv_concat {jobs : List CoreHourJob} {a b : Int} {s : CoreHourTotals}
    (h : TotalsInv jobs a b s) {job : CoreHourJob} (hjobs : ∀ job' ∈ jobs, job'.Fits a b)
    (hjob : job.Fits a b) (hlt : chargeTotal jobs a b + job.charge a b < 2 ^ 63) :
    TotalsInv (jobs ++ [job]) a b (s.after job a b) := by
  have hnonneg := chargeTotal_nonneg hjobs
  have hcharge := hjob.charge_nonneg
  have hcount0 : 0 ≤ (jobs.map fun job => job.allocations a b).sum :=
    List.sum_nonneg fun x hx => by
      obtain ⟨job', -, rfl⟩ := List.mem_map.mp hx
      exact job'.allocations_nonneg a b
  have hcountle : (jobs.map fun job => job.allocations a b).sum ≤ chargeTotal jobs a b :=
    List.sum_le_sum fun job' hjob' => (hjobs job' hjob').allocations_le
  have haccounts := groupsInv_concat h.accounts hjobs hjob hlt
  have husers := groupsInv_concat h.users hjobs hjob hlt
  have hcore := after_coreSeconds (s := s) (by rw [h.coreSeconds]; exact hnonneg) hjob
    (by rw [h.coreSeconds]; exact hlt)
  constructor
  · rw [hcore, h.coreSeconds]
    simp [chargeTotal]
  · by_cases hzero : job.charge a b = 0
    · simp [CoreHourTotals.after, hzero, CoreHourJob.allocations, h.allocationCount]
    · have hval : (s.after job a b).allocationCount.val = s.allocationCount.val + 1 := by
        rw [CoreHourTotals.after, if_neg hzero, CoreHourTotals.add]
        have hcount := h.allocationCount
        exact wrap64_val (by omega) (by omega)
      rw [hval, h.allocationCount]
      simp [CoreHourJob.allocations, hzero]
  · rw [CoreHourTotals.after]
    split
    · next hzero =>
      rw [if_pos hzero] at haccounts
      exact haccounts
    · next hne =>
      rw [if_neg hne] at haccounts
      exact haccounts
  · rw [CoreHourTotals.after]
    split
    · next hzero =>
      rw [if_pos hzero] at husers
      exact husers
    · next hne =>
      rw [if_neg hne] at husers
      exact husers

theorem totalsInv_totalsAfter {jobs : List CoreHourJob} {a b : Int}
    (hjobs : ∀ job ∈ jobs, job.Fits a b) (hlt : chargeTotal jobs a b < 2 ^ 63) :
    TotalsInv jobs a b (totalsAfter ⟨wrap64 0, wrap64 0, ∅, ∅⟩ jobs a b) := by
  induction jobs using List.reverseRecOn with
  | nil => exact totalsInv_nil a b
  | append_singleton jobs job ih =>
    have hall : ∀ job' ∈ jobs, job'.Fits a b := fun job' h => hjobs job' (by simp [h])
    have hjob : job.Fits a b := hjobs job (by simp)
    have htotal : chargeTotal (jobs ++ [job]) a b = chargeTotal jobs a b + job.charge a b := by
      simp [chargeTotal]
    have hcharge := hjob.charge_nonneg
    have hafter : totalsAfter ⟨wrap64 0, wrap64 0, ∅, ∅⟩ (jobs ++ [job]) a b =
        (totalsAfter ⟨wrap64 0, wrap64 0, ∅, ∅⟩ jobs a b).after job a b := by
      simp [totalsAfter]
    rw [hafter]
    exact totalsInv_concat (ih hall (by omega)) hall hjob (by omega)

/-! ## The sorted groups -/

/-- The order of the groups in the report. -/
def CoreHourGroup.Before (x y : CoreHourGroup) : Prop :=
  y.coreSeconds.val < x.coreSeconds.val ∨
    x.coreSeconds.val = y.coreSeconds.val ∧ x.name < y.name

theorem CoreHourGroup.less_iff (x y : CoreHourGroup) : x.less y = true ↔ x.Before y := by
  unfold less Before
  split
  · next h => simp [h]
  · next h => simp [h]

theorem CoreHourGroup.before_asymm (x y : CoreHourGroup) (h : x.Before y) : ¬y.Before x := by
  intro h'
  rcases h with h | ⟨h, hname⟩ <;> rcases h' with h' | ⟨h', hname'⟩
  · omega
  · omega
  · omega
  · exact lt_asymm hname hname'

theorem CoreHourGroup.not_before_trans (x y z : CoreHourGroup) (hxy : ¬y.Before x)
    (hyz : ¬z.Before y) : ¬z.Before x := by
  simp only [Before, not_or, not_and, not_lt] at hxy hyz ⊢
  constructor
  · omega
  · intro h
    exact le_trans (hxy.2 (by omega)) (hyz.2 (by omega))

section Sorted

variable {name : CoreHourJob → String} {jobs jobs' : List CoreHourJob} {a b : Int}
  {groups groups' : AList fun _ : String => CoreHourGroup}

/-- A group stands in the report exactly when it is the one of a job that adds something, with
    the sums of its name. -/
theorem mem_sortedCoreHourGroups (h : GroupsInv name jobs a b groups) (g : CoreHourGroup) :
    g ∈ sortedCoreHourGroups groups ↔
      (∃ job ∈ jobs, job.charge a b ≠ 0 ∧ groupName (name job) = g.name) ∧
      g.coreSeconds.val =
        tally (fun job => groupName (name job)) (fun job => job.charge a b) jobs g.name ∧
      g.allocationCount.val =
        tally (fun job => groupName (name job)) (fun job => job.allocations a b) jobs g.name := by
  have hentry : g ∈ sortedCoreHourGroups groups ↔ ∃ n, groups.lookup n = some g := by
    rw [sortedCoreHourGroups, mem_sortSlice, List.mem_map]
    constructor
    · intro hg
      obtain ⟨⟨n, g'⟩, hmem, rfl⟩ := hg
      exact ⟨n, AList.mem_lookup_iff.mpr hmem⟩
    · intro hg
      obtain ⟨n, hn⟩ := hg
      exact ⟨⟨n, g⟩, AList.mem_lookup_iff.mp hn, rfl⟩
  rw [hentry, ← h.mem]
  constructor
  · intro hg
    obtain ⟨n, hn⟩ := hg
    obtain ⟨rfl, hsums⟩ := h.group n g hn
    exact ⟨AList.lookup_isSome.mp (by rw [hn]; rfl), hsums⟩
  · intro hg
    obtain ⟨hmem, hsum, hcount⟩ := hg
    obtain ⟨g', hg'⟩ := Option.isSome_iff_exists.mp (AList.lookup_isSome.mpr hmem)
    obtain ⟨hname, hsum', hcount'⟩ := h.group g.name g' hg'
    have heq : g' = g := by
      cases g
      cases g'
      simp only [CoreHourGroup.mk.injEq]
      exact ⟨hname, Subtype.ext (hsum'.trans hsum.symm), Subtype.ext (hcount'.trans hcount.symm)⟩
    exact ⟨g.name, heq ▸ hg'⟩

/-- Two groups of the report never have one name. -/
theorem sortedCoreHourGroups_names (h : GroupsInv name jobs a b groups) :
    ((sortedCoreHourGroups groups).map CoreHourGroup.name).Nodup := by
  have hkeys : ((groups.entries.map fun group => group.2).map CoreHourGroup.name) =
      groups.keys := by
    rw [List.map_map, AList.keys]
    apply List.map_congr_left
    intro entry hentry
    exact (h.group entry.1 entry.2 (AList.mem_lookup_iff.mpr hentry)).1
  have hperm := (sortSlice_perm CoreHourGroup.less
    (groups.entries.map fun group => group.2)).map CoreHourGroup.name
  rw [sortedCoreHourGroups, hperm.nodup_iff, hkeys]
  exact groups.keys_nodup

theorem sortedCoreHourGroups_pairwise (h : GroupsInv name jobs a b groups) :
    (sortedCoreHourGroups groups).Pairwise CoreHourGroup.Before := by
  have hless : ∀ x y : CoreHourGroup, x.less y = false ↔ ¬x.Before y := by
    intro x y
    rw [← CoreHourGroup.less_iff, Bool.not_eq_true]
  have hsorted := sortSlice_pairwise CoreHourGroup.less
    (fun x y hxy => (hless y x).mpr (CoreHourGroup.before_asymm x y ((x.less_iff y).mp hxy)))
    (fun x y z hxy hyz => (hless z x).mpr
      (CoreHourGroup.not_before_trans x y z ((hless y x).mp hxy) ((hless z y).mp hyz)))
    (groups.entries.map fun group => group.2)
  have hnames := List.pairwise_map.mp (sortedCoreHourGroups_names h)
  refine hsorted.imp₂ ?_ hnames
  intro x y hxy hname
  have hnot := (hless y x).mp hxy
  simp only [CoreHourGroup.Before, not_or, not_and, not_lt] at hnot ⊢
  by_cases heq : x.coreSeconds.val = y.coreSeconds.val
  · exact .inr ⟨heq, lt_of_le_of_ne (hnot.2 heq.symm) hname⟩
  · exact .inl (by omega)

/-- The report's groups do not depend on the order of the jobs. -/
theorem sortedCoreHourGroups_perm (h : GroupsInv name jobs a b groups)
    (h' : GroupsInv name jobs' a b groups') (hperm : jobs.Perm jobs') :
    sortedCoreHourGroups groups = sortedCoreHourGroups groups' := by
  apply pairwise_ext CoreHourGroup.before_asymm (sortedCoreHourGroups_pairwise h)
    (sortedCoreHourGroups_pairwise h')
  intro g
  rw [mem_sortedCoreHourGroups h, mem_sortedCoreHourGroups h', tally_perm _ _ hperm,
    tally_perm _ _ hperm]
  simp only [hperm.mem_iff]

/-- The groups add up to what the jobs add up to, in any weight that only a job that adds
    something has. -/
theorem sum_sortedCoreHourGroups (h : GroupsInv name jobs a b groups) (w : CoreHourJob → Int)
    (value : CoreHourGroup → Int) (hw : ∀ job, w job ≠ 0 → job.charge a b ≠ 0)
    (hvalue : ∀ g ∈ sortedCoreHourGroups groups,
      value g = tally (fun job => groupName (name job)) w jobs g.name) :
    ((sortedCoreHourGroups groups).map value).sum = (jobs.map w).sum := by
  have hcover : ∀ job ∈ jobs, w job ≠ 0 →
      groupName (name job) ∈ (sortedCoreHourGroups groups).map CoreHourGroup.name := by
    intro job hjob hne
    have hmem := (h.mem (groupName (name job))).mpr ⟨job, hjob, hw job hne, rfl⟩
    obtain ⟨g, hg⟩ := Option.isSome_iff_exists.mp (AList.lookup_isSome.mpr hmem)
    obtain ⟨hname, hsums⟩ := h.group _ g hg
    refine List.mem_map.mpr ⟨g, (mem_sortedCoreHourGroups h g).mpr ⟨?_, ?_⟩, hname⟩
    · exact ⟨job, hjob, hw job hne, hname.symm⟩
    · rw [hname]
      exact hsums
  have hmap : (sortedCoreHourGroups groups).map value =
      ((sortedCoreHourGroups groups).map CoreHourGroup.name).map
        (tally (fun job => groupName (name job)) w jobs) := by
    rw [List.map_map]
    exact List.map_congr_left hvalue
  rw [hmap, sum_tally (sortedCoreHourGroups_names h) hcover]

end Sorted

/-! ## The report -/

/-- The report that the loop's totals give. -/
def coreHourReport (jobs : List CoreHourJob) (fromUnix toUnix : GoInt) : CoreHourSummary :=
  let s := totalsAfter ⟨wrap64 0, wrap64 0, ∅, ∅⟩ jobs fromUnix.val toUnix.val
  ⟨fromUnix, toUnix, s.coreSeconds, s.allocationCount, sortedCoreHourGroups s.accounts,
    sortedCoreHourGroups s.users⟩

theorem parseCoreHoursJSON_ok_iff {jobs : List CoreHourJob} {fromUnix toUnix : GoInt}
    (hwindow : fromUnix.val < toUnix.val) (summary : CoreHourSummary) :
    parseCoreHoursJSON ⟨[], jobs⟩ fromUnix toUnix = .ok summary ↔
      (∀ job ∈ jobs, job.Fits fromUnix.val toUnix.val) ∧
        chargeTotal jobs fromUnix.val toUnix.val < 2 ^ 63 ∧
        summary = coreHourReport jobs fromUnix toUnix := by
  have h0 : (wrap64 0).val = 0 := wrap64_val (by omega) (by omega)
  have hloop := fun s' => addCoreHourJobs_ok_iff fromUnix toUnix jobs s'
    (s := ⟨wrap64 0, wrap64 0, ∅, ∅⟩) (by rw [h0])
  simp only [h0, Int.zero_add] at hloop
  have hnot : ¬toUnix.val ≤ fromUnix.val := by omega
  simp only [parseCoreHoursJSON, ne_eq, not_true_eq_false, if_false, hnot]
  cases hrun : jobs.foldlM (addCoreHourJob fromUnix toUnix) ⟨wrap64 0, wrap64 0, ∅, ∅⟩ with
  | error err =>
    constructor
    · intro h; cases h
    · intro h
      have hok := (hloop _).mpr ⟨h.1, h.2.1, rfl⟩
      rw [hrun] at hok
      cases hok
  | ok s =>
    obtain ⟨hfits, hlt, rfl⟩ := (hloop s).mp hrun
    show Except.ok (coreHourReport jobs fromUnix toUnix) = .ok summary ↔ _
    rw [Except.ok.injEq]
    constructor
    · intro h
      exact ⟨hfits, hlt, h.symm⟩
    · intro h
      exact h.2.2.symm

/-! ## What the report has to say -/

def countedJobs (jobs : List CoreHourJob) (fromUnix toUnix : Int) : List CoreHourJob :=
  jobs.filter fun job => job.Counted fromUnix toUnix

/-- The sum over the counted jobs of allocated CPUs times overlap seconds. -/
def countedCoreSeconds (jobs : List CoreHourJob) (fromUnix toUnix : Int) : Int :=
  ((countedJobs jobs fromUnix toUnix).map fun job => job.coreSeconds fromUnix toUnix).sum

theorem chargeTotal_eq (jobs : List CoreHourJob) (a b : Int) :
    chargeTotal jobs a b = countedCoreSeconds jobs a b :=
  sum_map_guard _ jobs

/-- Groups by `name`: one for each name of a counted job with CPUs, in order, each with the
    sums of the counted jobs of its name. -/
structure GroupsExact (name : CoreHourJob → String) (jobs : List CoreHourJob)
    (fromUnix toUnix : Int) (groups : List CoreHourGroup) : Prop where
  names_nodup : (groups.map CoreHourGroup.name).Nodup
  sorted : groups.Pairwise CoreHourGroup.Before
  mem_names : ∀ n, n ∈ groups.map CoreHourGroup.name ↔
    ∃ job ∈ countedJobs jobs fromUnix toUnix, 0 < job.cpus ∧ groupName (name job) = n
  coreSeconds : ∀ g ∈ groups, g.coreSeconds.val =
    tally (fun job => groupName (name job)) (fun job => job.coreSeconds fromUnix toUnix)
      (countedJobs jobs fromUnix toUnix) g.name
  allocationCount : ∀ g ∈ groups, g.allocationCount.val =
    tally (fun job => groupName (name job)) (fun job => if 0 < job.cpus then 1 else 0)
      (countedJobs jobs fromUnix toUnix) g.name

/-- The report of a list of jobs. -/
structure ReportExact (jobs : List CoreHourJob) (fromUnix toUnix : Int)
    (summary : CoreHourSummary) : Prop where
  coreSeconds : summary.coreSeconds.val = countedCoreSeconds jobs fromUnix toUnix
  accounts : GroupsExact CoreHourJob.account jobs fromUnix toUnix summary.accounts
  users : GroupsExact CoreHourJob.user jobs fromUnix toUnix summary.users
  accounts_total : (summary.accounts.map fun g => g.coreSeconds.val).sum = summary.coreSeconds.val
  users_total : (summary.users.map fun g => g.coreSeconds.val).sum = summary.coreSeconds.val
  accounts_allocations :
    (summary.accounts.map fun g => g.allocationCount.val).sum = summary.allocationCount.val
  users_allocations :
    (summary.users.map fun g => g.allocationCount.val).sum = summary.allocationCount.val

section Exact

variable {jobs : List CoreHourJob} {a b : Int}

/-- A sound job adds something exactly when it is counted and has CPUs. -/
theorem CoreHourJob.Fits.charge_ne_zero_iff {job : CoreHourJob} (h : job.Fits a b) :
    job.charge a b ≠ 0 ↔ job.Counted a b ∧ 0 < job.cpus := by
  unfold charge
  split
  · next hc =>
    have hcpus := h.cpus_nonneg hc
    have hoverlap := hc.2.2
    have hmul : job.coreSeconds a b ≠ 0 ↔ job.cpus ≠ 0 := by
      rw [coreSeconds, mul_ne_zero_iff]
      exact and_iff_left (by omega)
    rw [hmul]
    constructor
    · intro hne
      exact ⟨hc, by omega⟩
    · intro hpos
      omega
  · next hc => simp [hc]

theorem CoreHourJob.Fits.allocations_eq {job : CoreHourJob} (h : job.Fits a b) :
    job.allocations a b = if job.Counted a b then (if 0 < job.cpus then 1 else 0) else 0 := by
  unfold allocations
  have hiff := h.charge_ne_zero_iff
  by_cases hzero : job.charge a b = 0
  · have hnot : ¬(job.Counted a b ∧ 0 < job.cpus) := fun hc => hiff.mpr hc hzero
    rw [if_pos hzero]
    by_cases hc : job.Counted a b
    · rw [if_pos hc, if_neg fun hpos => hnot ⟨hc, hpos⟩]
    · rw [if_neg hc]
  · obtain ⟨hc, hpos⟩ := hiff.mp hzero
    rw [if_neg hzero, if_pos hc, if_pos hpos]

theorem groupsExact {name : CoreHourJob → String} {groups : AList fun _ : String => CoreHourGroup}
    (h : GroupsInv name jobs a b groups) (hjobs : ∀ job ∈ jobs, job.Fits a b) :
    GroupsExact name jobs a b (sortedCoreHourGroups groups) where
  names_nodup := sortedCoreHourGroups_names h
  sorted := sortedCoreHourGroups_pairwise h
  mem_names n := by
    have hcounted : (∃ job ∈ countedJobs jobs a b, 0 < job.cpus ∧ groupName (name job) = n) ↔
        ∃ job ∈ jobs, job.charge a b ≠ 0 ∧ groupName (name job) = n := by
      constructor
      · intro hn
        obtain ⟨job, hjob, hpos, hname⟩ := hn
        obtain ⟨hmem, hc⟩ := List.mem_filter.mp hjob
        have hne := (hjobs job hmem).charge_ne_zero_iff.mpr ⟨by simpa using hc, hpos⟩
        exact ⟨job, hmem, hne, hname⟩
      · intro hn
        obtain ⟨job, hmem, hne, hname⟩ := hn
        obtain ⟨hc, hpos⟩ := (hjobs job hmem).charge_ne_zero_iff.mp hne
        exact ⟨job, List.mem_filter.mpr ⟨hmem, by simpa using hc⟩, hpos, hname⟩
    rw [hcounted, List.mem_map]
    constructor
    · intro hn
      obtain ⟨g, hg, rfl⟩ := hn
      exact ((mem_sortedCoreHourGroups h g).mp hg).1
    · intro hn
      obtain ⟨g, hg⟩ := Option.isSome_iff_exists.mp (AList.lookup_isSome.mpr ((h.mem n).mpr hn))
      obtain ⟨hname, hsums⟩ := h.group n g hg
      refine ⟨g, (mem_sortedCoreHourGroups h g).mpr ?_, hname⟩
      rw [hname]
      exact ⟨hn, hsums⟩
  coreSeconds g hg := by
    rw [((mem_sortedCoreHourGroups h g).mp hg).2.1]
    exact tally_guard _ jobs g.name
  allocationCount g hg := by
    have hcongr : tally (fun job => groupName (name job)) (fun job => job.allocations a b) jobs
        g.name = tally (fun job => groupName (name job))
          (fun job => if job.Counted a b then (if 0 < job.cpus then 1 else 0) else 0) jobs g.name :=
      tally_congr (fun job hjob => (hjobs job hjob).allocations_eq) g.name
    rw [((mem_sortedCoreHourGroups h g).mp hg).2.2, hcongr]
    exact tally_guard _ jobs g.name

theorem reportExact {fromUnix toUnix : GoInt}
    (hjobs : ∀ job ∈ jobs, job.Fits fromUnix.val toUnix.val)
    (hlt : chargeTotal jobs fromUnix.val toUnix.val < 2 ^ 63) :
    ReportExact jobs fromUnix.val toUnix.val (coreHourReport jobs fromUnix toUnix) := by
  have hinv := totalsInv_totalsAfter hjobs hlt
  have hcounts : ∀ job : CoreHourJob, job.allocations fromUnix.val toUnix.val ≠ 0 →
      job.charge fromUnix.val toUnix.val ≠ 0 := by
    intro job hne hzero
    exact hne (if_pos hzero)
  exact
    { coreSeconds := hinv.coreSeconds.trans (chargeTotal_eq jobs _ _)
      accounts := groupsExact hinv.accounts hjobs
      users := groupsExact hinv.users hjobs
      accounts_total := (sum_sortedCoreHourGroups hinv.accounts _ _ (fun _ hne => hne)
        fun g hg => ((mem_sortedCoreHourGroups hinv.accounts g).mp hg).2.1).trans
          hinv.coreSeconds.symm
      users_total := (sum_sortedCoreHourGroups hinv.users _ _ (fun _ hne => hne)
        fun g hg => ((mem_sortedCoreHourGroups hinv.users g).mp hg).2.1).trans
          hinv.coreSeconds.symm
      accounts_allocations := (sum_sortedCoreHourGroups hinv.accounts _ _ hcounts
        fun g hg => ((mem_sortedCoreHourGroups hinv.accounts g).mp hg).2.2).trans
          hinv.allocationCount.symm
      users_allocations := (sum_sortedCoreHourGroups hinv.users _ _ hcounts
        fun g hg => ((mem_sortedCoreHourGroups hinv.users g).mp hg).2.2).trans
          hinv.allocationCount.symm }

/-- The report does not depend on the order of the jobs. -/
theorem coreHourReport_perm {jobs' : List CoreHourJob} {fromUnix toUnix : GoInt}
    (hperm : jobs.Perm jobs') (hjobs : ∀ job ∈ jobs, job.Fits fromUnix.val toUnix.val)
    (hlt : chargeTotal jobs fromUnix.val toUnix.val < 2 ^ 63) :
    coreHourReport jobs fromUnix toUnix = coreHourReport jobs' fromUnix toUnix := by
  have hsum : chargeTotal jobs fromUnix.val toUnix.val =
      chargeTotal jobs' fromUnix.val toUnix.val :=
    (hperm.map _).sum_eq
  have hinv := totalsInv_totalsAfter hjobs hlt
  have hinv' := totalsInv_totalsAfter (fun job hjob => hjobs job (hperm.mem_iff.mpr hjob))
    (hsum ▸ hlt)
  simp only [coreHourReport, CoreHourSummary.mk.injEq, true_and]
  refine ⟨Subtype.ext ?_, Subtype.ext ?_, sortedCoreHourGroups_perm hinv.accounts hinv'.accounts
    hperm, sortedCoreHourGroups_perm hinv.users hinv'.users hperm⟩
  · rw [hinv.coreSeconds, hinv'.coreSeconds, hsum]
  · rw [hinv.allocationCount, hinv'.allocationCount]
    exact (hperm.map _).sum_eq

/-- An answer is refused exactly when a job is unsound or the sum does not fit. -/
theorem parseCoreHoursJSON_error_iff {fromUnix toUnix : GoInt}
    (hwindow : fromUnix.val < toUnix.val) :
    (∃ err, parseCoreHoursJSON ⟨[], jobs⟩ fromUnix toUnix = .error err) ↔
      ¬((∀ job ∈ jobs, job.Fits fromUnix.val toUnix.val) ∧
        chargeTotal jobs fromUnix.val toUnix.val < 2 ^ 63) := by
  cases hrun : parseCoreHoursJSON ⟨[], jobs⟩ fromUnix toUnix with
  | error err =>
    refine iff_of_true ⟨err, rfl⟩ fun h => ?_
    have hok := (parseCoreHoursJSON_ok_iff hwindow _).mpr ⟨h.1, h.2, rfl⟩
    rw [hrun] at hok
    cases hok
  | ok summary =>
    have hok := (parseCoreHoursJSON_ok_iff hwindow summary).mp hrun
    refine iff_of_false ?_ (not_not.mpr ⟨hok.1, hok.2.1⟩)
    intro h
    obtain ⟨err, herr⟩ := h
    cases herr

end Exact

/-- Every answer and window: when the answer is refused, what the report holds otherwise, and
    that the order of the jobs does not matter. -/
theorem parseCoreHoursJSON_exact (jobs : List CoreHourJob) (fromUnix toUnix : GoInt)
    (hwindow : fromUnix.val < toUnix.val) :
    ((∃ err, parseCoreHoursJSON ⟨[], jobs⟩ fromUnix toUnix = .error err) ↔
      (∃ job ∈ jobs, ∃ text ∈ [job.account, job.user, job.partition], ¬DetailText text) ∨
      (∃ job ∈ countedJobs jobs fromUnix.val toUnix.val,
        (∃ c ∈ cpuCounts job.allocated, c < 0) ∨ 2 ^ 63 ≤ job.cpus ∨
          2 ^ 63 ≤ job.coreSeconds fromUnix.val toUnix.val) ∨
      2 ^ 63 ≤ countedCoreSeconds jobs fromUnix.val toUnix.val) ∧
    (∀ summary, parseCoreHoursJSON ⟨[], jobs⟩ fromUnix toUnix = .ok summary →
      ReportExact jobs fromUnix.val toUnix.val summary) ∧
    ∀ jobs', jobs.Perm jobs' → ∀ summary,
      parseCoreHoursJSON ⟨[], jobs⟩ fromUnix toUnix = .ok summary ↔
        parseCoreHoursJSON ⟨[], jobs'⟩ fromUnix toUnix = .ok summary := by
  refine ⟨?_, ?_, ?_⟩
  · rw [parseCoreHoursJSON_error_iff hwindow, ← chargeTotal_eq]
    constructor
    · intro h
      by_contra hall
      simp only [not_or, not_exists, not_and, not_lt, not_le, not_not] at hall
      obtain ⟨hstrings, hcounted, hlt⟩ := hall
      refine h ⟨fun job hjob => ?_, hlt⟩
      have hmem : job.Counted fromUnix.val toUnix.val →
          job ∈ countedJobs jobs fromUnix.val toUnix.val := fun hc =>
        List.mem_filter.mpr ⟨hjob, by simpa using hc⟩
      exact ⟨hstrings job hjob, fun hc => (hcounted job (hmem hc)).1,
        fun hc => (hcounted job (hmem hc)).2.1, fun hc => (hcounted job (hmem hc)).2.2⟩
    · intro h hall
      obtain ⟨hfits, hlt⟩ := hall
      rcases h with ⟨job, hjob, text, htext, hbad⟩ | ⟨job, hjob, hbad⟩ | hbad
      · exact hbad ((hfits job hjob).strings text htext)
      · obtain ⟨hmem, hc⟩ := List.mem_filter.mp hjob
        have hc : job.Counted fromUnix.val toUnix.val := by simpa using hc
        have hjob := hfits job hmem
        rcases hbad with ⟨c, hcpu, hneg⟩ | hcpus | hproduct
        · exact absurd (hjob.nonneg hc c hcpu) (by omega)
        · exact absurd (hjob.cpus_lt hc) (by omega)
        · exact absurd (hjob.coreSeconds_lt hc) (by omega)
      · omega
  · intro summary h
    obtain ⟨hfits, hlt, rfl⟩ := (parseCoreHoursJSON_ok_iff hwindow summary).mp h
    exact reportExact hfits hlt
  · intro jobs' hperm summary
    rw [parseCoreHoursJSON_ok_iff hwindow, parseCoreHoursJSON_ok_iff hwindow]
    have hsum : chargeTotal jobs fromUnix.val toUnix.val =
        chargeTotal jobs' fromUnix.val toUnix.val :=
      (hperm.map _).sum_eq
    constructor
    · intro h
      obtain ⟨hfits, hlt, hsummary⟩ := h
      exact ⟨fun job hjob => hfits job (hperm.mem_iff.mpr hjob), hsum ▸ hlt,
        hsummary.trans (coreHourReport_perm hperm hfits hlt)⟩
    · intro h
      obtain ⟨hfits, hlt, hsummary⟩ := h
      exact ⟨fun job hjob => hfits job (hperm.mem_iff.mp hjob), hsum ▸ hlt,
        hsummary.trans (coreHourReport_perm hperm.symm hfits hlt)⟩

/-- A running job of no account, with two CPUs from second 4 on. -/
def runningJob : CoreHourJob where
  account := ""
  user := "alice"
  partition := "cpu"
  timeStart := wrap64 4
  timeEnd := wrap64 0
  state := ["RUNNING"]
  allocated := [⟨"cpu", wrap64 2⟩, ⟨"mem", wrap64 512⟩]

theorem parseCoreHoursJSON_exact_running :
    parseCoreHoursJSON ⟨[], [runningJob]⟩ (wrap64 0) (wrap64 10) =
      .ok ⟨wrap64 0, wrap64 10, wrap64 12, wrap64 1, [⟨"—", wrap64 12, wrap64 1⟩],
        [⟨"alice", wrap64 12, wrap64 1⟩]⟩ ∧
    ReportExact [runningJob] 0 10
      ⟨wrap64 0, wrap64 10, wrap64 12, wrap64 1, [⟨"—", wrap64 12, wrap64 1⟩],
        [⟨"alice", wrap64 12, wrap64 1⟩]⟩ :=
  ⟨by rfl, (parseCoreHoursJSON_exact [runningJob] (wrap64 0) (wrap64 10) (by decide)).2.1 _
    (by rfl)⟩

end OpenHpcWeb.Slurm
