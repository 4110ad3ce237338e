/-
  What a save of a partition reports.

  * `upsert_reported`: the change of a successful save is a function of the row it found
    (`reported`), and `ExactReport` says what it tells of that row.
  * `upsert_again`: a save of the stored nodes changes nothing.
  * `partition_report_exact`: so on the texts of any store, where the report is also what a
    `Get` reads back.
-/
import Mathlib.Data.Finset.Disjoint
import Mathlib.Data.Finset.Lattice.Lemmas
import Mathlib.Data.Finset.SDiff
import OpenHpcWeb.Platform.PartitionTexts

namespace OpenHpcWeb.Platform

open OpenHpcWeb.Go OpenHpcWeb.Lib

variable {t t' : Tables} {now : Time} {faults : Faults} {spec : PartitionSpec}
  {source : PartitionSource} {change : PartitionChange}

/-! ## The patch -/

/-- The patch turns the old nodes into the new ones and does nothing else. -/
structure PatchOf (old new : List String) (patch : PartitionPatch) : Prop where
  result : (old.toFinset \ patch.removedNodes.toFinset) ∪ patch.addedNodes.toFinset =
    new.toFinset
  added : Disjoint patch.addedNodes.toFinset old.toFinset
  removed : patch.removedNodes.toFinset ⊆ old.toFinset

theorem patchOf_diff (old new : List String) :
    PatchOf old new ⟨(diffPartitionNodes old new).1, (diffPartitionNodes old new).2⟩ := by
  have hadded : ∀ n, n ∈ (diffPartitionNodes old new).1 ↔ n ∈ new ∧ n ∉ old := by
    intro n
    simp [diffPartitionNodes]
  have hremoved : ∀ n, n ∈ (diffPartitionNodes old new).2 ↔ n ∈ old ∧ n ∉ new := by
    intro n
    simp [diffPartitionNodes]
  refine ⟨?_, ?_, ?_⟩
  · ext n
    simp only [Finset.mem_union, Finset.mem_sdiff, List.mem_toFinset, hadded, hremoved]
    tauto
  · rw [Finset.disjoint_left]
    intro n hn
    rw [List.mem_toFinset] at hn ⊢
    exact ((hadded n).mp hn).2
  · intro n hn
    rw [List.mem_toFinset] at hn ⊢
    exact ((hremoved n).mp hn).1

/-- Sorted node lists are determined by their sets. -/
theorem toFinset_inj {old new : List String} (hold : NodesOk old) (hnew : NodesOk new) :
    old.toFinset = new.toFinset ↔ old = new := by
  constructor
  · intro h
    refine strict_ext hold.sorted hnew.sorted fun n => ?_
    rw [← List.mem_toFinset, h, List.mem_toFinset]
  · intro h
    rw [h]

/-! ## The report -/

/-- What a save of the nodes `ns` reports of the row it found. -/
def reported (now : Time) (source : PartitionSource) (name : String) (ns : List String) :
    Option StoredPartition → PartitionChange
  | none => ⟨⟨name, ns, decide (source = .managed), now, now⟩, true, false, ⟨[], []⟩⟩
  | some p =>
    if p.nodes = ns then ⟨p.spec name, false, false, ⟨[], []⟩⟩
    else
      ⟨⟨name, ns, decide (source = .managed), p.createdAt, now⟩, false, true,
        ⟨(diffPartitionNodes p.nodes ns).1, (diffPartitionNodes p.nodes ns).2⟩⟩

/-- A successful save reports its row, and leaves the tables alone if the nodes were there. -/
theorem upsert_reported (h : t.Inv) (hup : upsert now faults spec source t = (.ok change, t')) :
    change = reported now source spec.name (storedNodes spec) (t.row spec.name) ∧
      ((∃ p, t.row spec.name = some p ∧ p.nodes = storedNodes spec) → t' = t) := by
  have ha := (upsert_ok h hup).accepts
  have hns := nodesOk_storedNodes ha
  rw [upsert_eq now faults source t ha.name ha.nonempty ha.nodes ha.unique] at hup
  have hnil := transaction_ok (upsertTx_steady _ _ _ _) hup
  unfold transaction at hnil
  unfold reported
  cases hp : t.row spec.name with
  | none =>
    rw [(upsertTx_new h hp hns.nodup).nil] at hnil
    cases hnil
    refine ⟨rfl, ?_⟩
    rintro ⟨p, hp', -⟩
    cases hp'
  | some p =>
    by_cases hsame : p.nodes = storedNodes spec
    · rw [upsertTx_same h hp (ha.source p hp) hsame] at hnil
      cases hnil
      exact ⟨(if_pos hsame).symm, fun _ => rfl⟩
    · rw [upsertTx_changed h hp (ha.source p hp) hns hsame] at hnil
      cases hnil
      refine ⟨(if_neg hsame).symm, ?_⟩
      rintro ⟨q, hq, hqs⟩
      cases hq
      exact absurd hqs hsame

/-- The reported spec is the row that was stored. -/
theorem reported_spec {row : Option StoredPartition} {ns : List String}
    (hsource : ∀ p, row = some p → p.source = source) (name : String) :
    (reported now source name ns row).spec = (upserted now source ns row).spec name := by
  cases row with
  | none => rfl
  | some p =>
    have hp := hsource p rfl
    unfold reported upserted
    simp only
    by_cases hsame : p.nodes = ns
    · rw [if_pos hsame, if_pos hsame]
    · rw [if_neg hsame, if_neg hsame, ← hp]
      rfl

/-- The change tells what was there `before` and what the save made of it. -/
structure ExactReport (now : Time) (source : PartitionSource) (name : String)
    (new : List String) (before : Option PartitionSpec) (change : PartitionChange) : Prop where
  created : change.created = true ↔ before = none
  updated : change.updated = true ↔
    ∃ old, before = some old ∧ old.nodes.toFinset ≠ new.toFinset
  patch : change.updated = true → ∀ old, before = some old →
    PatchOf old.nodes new change.patch
  unpatched : change.updated = false → change.patch = ⟨[], []⟩
  name : change.spec.name = name
  nodes : change.spec.nodes = new
  managed : change.spec.managed = decide (source = .managed)
  createdAt : change.spec.createdAt = (before.map PartitionSpec.createdAt).getD now
  updatedAt : change.spec.updatedAt =
    if change.created ∨ change.updated then now
    else (before.map PartitionSpec.updatedAt).getD now

theorem exactReport_reported {row : Option StoredPartition} {ns : List String}
    (hsource : ∀ p, row = some p → p.source = source) (hrow : ∀ p, row = some p → NodesOk p.nodes)
    (hns : NodesOk ns) (name : String) :
    ExactReport now source name ns (row.map fun p => p.spec name)
      (reported now source name ns row) := by
  cases row with
  | none => constructor <;> simp [reported]
  | some p =>
    have hp := hsource p rfl
    have hsets : (p.spec name).nodes.toFinset ≠ ns.toFinset ↔ p.nodes ≠ ns :=
      not_congr (toFinset_inj (hrow p rfl) hns)
    by_cases hsame : p.nodes = ns
    · have hreported : reported now source name ns (some p) =
          ⟨p.spec name, false, false, ⟨[], []⟩⟩ := if_pos hsame
      rw [hreported]
      constructor <;> simp [StoredPartition.spec, hp, hsame]
    · have hreported : reported now source name ns (some p) =
          ⟨⟨name, ns, decide (source = .managed), p.createdAt, now⟩, false, true,
            ⟨(diffPartitionNodes p.nodes ns).1, (diffPartitionNodes p.nodes ns).2⟩⟩ :=
        if_neg hsame
      rw [hreported]
      refine ⟨by simp, ?_, ?_, by simp, rfl, rfl, rfl, rfl, rfl⟩
      · exact ⟨fun _ => ⟨_, rfl, hsets.mpr hsame⟩, fun _ => rfl⟩
      · rintro - old hold
        cases hold
        exact patchOf_diff p.nodes ns

/-! ## Saving the same nodes again -/

/-- Node lists with the same trimmed nodes are stored alike. -/
theorem storedNodes_congr {spec spec' : PartitionSpec}
    (hnodes : (spec'.nodes.map trimSpace).Perm (spec.nodes.map trimSpace))
    (hunique : (spec.nodes.map trimSpace).Nodup) : storedNodes spec' = storedNodes spec := by
  have hunique' : (spec'.nodes.map trimSpace).Nodup := hnodes.nodup_iff.mpr hunique
  refine strict_ext (sortStrings_strict hunique') (sortStrings_strict hunique) fun n => ?_
  rw [storedNodes, storedNodes, mem_sortStrings, mem_sortStrings]
  exact hnodes.mem_iff

/-- A spec of an accepted partition with the same trimmed nodes is accepted after the save. -/
theorem accepts_again {spec' : PartitionSpec} (ha : Accepts spec source t)
    (hrow : t'.row spec.name =
      some (upserted now source (storedNodes spec) (t.row spec.name)))
    (hname : spec'.name = spec.name)
    (hnodes : (spec'.nodes.map trimSpace).Perm (spec.nodes.map trimSpace)) :
    Accepts spec' source t' where
  name := by
    rw [hname]
    exact ha.name
  nonempty hnil := by
    rw [hnil, List.map_nil] at hnodes
    exact ha.nonempty (List.map_eq_nil_iff.mp hnodes.symm.eq_nil)
  nodes n hn := by
    obtain ⟨m, hm, hmn⟩ := List.mem_map.mp (hnodes.mem_iff.mp (List.mem_map_of_mem hn))
    rw [← hmn]
    exact ha.nodes m hm
  unique := hnodes.nodup_iff.mpr ha.unique
  source p hp := by
    rw [hname, hrow] at hp
    cases hp
    exact upserted_source ha.source

/-- What a second save does. -/
structure Unchanged (t : Tables) (result : Except String PartitionChange × Tables) : Prop where
  tables : result.2 = t
  report : ∀ change, result.1 = .ok change → change.created = false ∧ change.updated = false

theorem upsert_again {spec' : PartitionSpec} (hsaved : Saved now spec source t change t')
    (hname : spec'.name = spec.name)
    (hnodes : (spec'.nodes.map trimSpace).Perm (spec.nodes.map trimSpace)) (now' : Time)
    (faults' : Faults) :
    Unchanged t' (upsert now' faults' spec' source t') ∧
      ∃ change', (upsert now' [] spec' source t').1 = .ok change' := by
  have hrow : t'.row spec.name =
      some (upserted now source (storedNodes spec) (t.row spec.name)) := by
    rw [hsaved.row, Function.update_self]
  have ha := accepts_again hsaved.accepts hrow hname hnodes
  have hstored := storedNodes_congr hnodes hsaved.accepts.unique
  have hthere : ∃ p, t'.row spec'.name = some p ∧ p.nodes = storedNodes spec' := by
    refine ⟨_, by rw [hname, hrow], ?_⟩
    rw [upserted_nodes, hstored]
  refine ⟨?_, ?_⟩
  · cases hup : upsert now' faults' spec' source t' with
    | mk result t'' =>
      cases result with
      | error e => exact ⟨upsert_error hup, fun change' hc => nomatch hc⟩
      | ok change' =>
        obtain ⟨hreported, hsame⟩ := upsert_reported hsaved.inv hup
        refine ⟨hsame hthere, fun c hc => ?_⟩
        cases hc
        obtain ⟨p, hp, hns⟩ := hthere
        rw [hreported, hp]
        unfold reported
        simp only
        rw [if_pos hns]
        exact ⟨rfl, rfl⟩
  · obtain ⟨change', t'', hup, -⟩ := upsert_of_accepts now' hsaved.inv ha
    exact ⟨change', congrArg Prod.fst hup⟩

/-! ## On the texts of a store -/

/-- `Get` of a valid name without faults. -/
theorem get_nil (h : t.Inv) {name : String} (hname : validPartitionIdentifier name = true) :
    Platform.get [] name t = .ok ((t.row name).map fun p => p.spec name) := by
  unfold Platform.get transaction
  rw [(validatePartitionName_ok_iff name).mpr hname]
  simp only
  rw [loadPartition_nil h]

/-- Whatever calls made the store, a save that succeeds reports exactly what it found and did,
    a `Get` reads the reported spec back, and a save of the same nodes, in any order and with
    any space around them, finds nothing to do. -/
theorem partition_report_exact (calls : List TextCall) (now : ClockTime) (faults : Faults)
    (spec : PartitionSpec) (source : PartitionSource) (change : PartitionChange)
    (after : TextTables)
    (hup : TextStore.upsert now.val faults spec source (runTexts calls) = (.ok change, after)) :
    (∃ before, TextStore.get [] spec.name (runTexts calls) = .ok before ∧
      ExactReport now.val source spec.name (sortStrings (spec.nodes.map trimSpace)) before
        change) ∧
    TextStore.get [] spec.name after = .ok (some change.spec) ∧
    (∀ faults' found, TextStore.get faults' spec.name after = .ok found →
      found = some change.spec) ∧
    ∀ again : PartitionSpec, again.name = spec.name →
      (again.nodes.map trimSpace).Perm (spec.nodes.map trimSpace) → ∀ now' : ClockTime,
      (∃ change', TextStore.upsert now'.val [] again source after = (.ok change', after)) ∧
      ∀ faults' result after',
        TextStore.upsert now'.val faults' again source after = (result, after') →
        after' = after ∧
          ∀ change', result = .ok change' → change'.created = false ∧ change'.updated = false := by
  set t := runCalls .empty (calls.map TextCall.call) with ht
  have hwritten : WrittenAs t (runTexts calls) := runTexts_written calls
  have hinv : t.Inv := inv_runCalls Tables.inv_empty _
  obtain ⟨hanswer, hafter⟩ := upsert_texts now.property faults spec source hwritten
  rw [hup] at hanswer hafter
  set t' := (upsert now.val faults spec source t).2 with ht'
  have hsave : upsert now.val faults spec source t = (.ok change, t') := Prod.ext hanswer.symm rfl
  have hsaved := upsert_ok hinv hsave
  have ha := hsaved.accepts
  have hreported := (upsert_reported hinv hsave).1
  have hget : Platform.get [] spec.name t' = .ok (some change.spec) := by
    rw [get_nil hsaved.inv ha.name, hsaved.row, Function.update_self, hreported,
      reported_spec ha.source]
    rfl
  refine ⟨?_, ?_, ?_, ?_⟩
  · refine ⟨_, (get_texts [] spec.name hwritten).trans (get_nil hinv ha.name), ?_⟩
    rw [hreported]
    exact exactReport_reported ha.source (fun p hp => (row_ok hinv hp).2)
      (nodesOk_storedNodes ha) spec.name
  · rw [get_texts [] spec.name hafter, hget]
  · intro faults' found hfound
    rw [get_texts faults' spec.name hafter] at hfound
    rw [(get_ok hsaved.inv hfound).2, hsaved.row, Function.update_self, hreported,
      reported_spec ha.source]
    rfl
  · intro again hname hnodes now'
    have hagain : ∀ faults' result after',
        TextStore.upsert now'.val faults' again source after = (result, after') →
        after' = after ∧ ∀ change', result = .ok change' →
          change'.created = false ∧ change'.updated = false := by
      intro faults' result after' hresult
      obtain ⟨hsecond, hwritten'⟩ := upsert_texts now'.property faults' again source hafter
      rw [hresult] at hsecond hwritten'
      have hunchanged := (upsert_again hsaved hname hnodes now'.val faults').1
      rw [hunchanged.tables] at hwritten'
      refine ⟨hwritten'.1.trans hafter.1.symm, fun change' hc => ?_⟩
      exact hunchanged.report change' (hsecond.symm.trans hc)
    refine ⟨?_, hagain⟩
    obtain ⟨change', hok⟩ := (upsert_again hsaved hname hnodes now'.val []).2
    have hsecond := (upsert_texts now'.property [] again source hafter).1
    refine ⟨change', Prod.ext (hsecond.trans hok) ?_⟩
    exact (hagain [] _ _ rfl).1

theorem partition_report_exact_gpu :
    ∃ change after, TextStore.upsert 1709210097000000000 []
        ⟨"gpu", ["node02", " node01"], false, 0, 0⟩ .managed
        (runTexts [.upsert ⟨1709210096000500000, by decide +kernel⟩ []
          ⟨"gpu", ["node03", "node01"], false, 0, 0⟩]) = (.ok change, after) ∧
      change.updated = true ∧ change.patch = ⟨["node02"], ["node03"]⟩ ∧
      TextStore.get [] "gpu" after = .ok (some change.spec) := by
  have hup : TextStore.upsert 1709210097000000000 []
      ⟨"gpu", ["node02", " node01"], false, 0, 0⟩ .managed
      (runTexts [.upsert ⟨1709210096000500000, by decide +kernel⟩ []
        ⟨"gpu", ["node03", "node01"], false, 0, 0⟩]) =
      (.ok ⟨⟨"gpu", ["node01", "node02"], true, 1709210096000500000, 1709210097000000000⟩,
        false, true, ⟨["node02"], ["node03"]⟩⟩,
        ⟨[⟨"gpu", "managed", "2024-02-29T12:34:56.0005Z", "2024-02-29T12:34:57Z"⟩],
          [⟨"gpu", "node01", 0⟩, ⟨"gpu", "node02", 1⟩]⟩) := by
    decide +kernel
  exact ⟨_, _, hup, rfl, rfl, (partition_report_exact _ ⟨1709210097000000000, by decide +kernel⟩
    _ _ _ _ _ hup).2.1⟩

end OpenHpcWeb.Platform
