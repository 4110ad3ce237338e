/-
  The two validators a partition passes on its way to Slurm.

  `savePartition` stores a partition under the checks of `PartitionStore.upsert` and then
  sends it to Slurm under the checks of `ApplyPartition`; `syncStoredPartitions` sends it
  again at every start, and `deletePartition` takes it away under the checks of
  `DeletePartition`. The checks of the store are `validPartitionIdentifier`; those of the
  client also refuse commas and every control character.

  * `argText_iff`: what the client asks of a name beyond the store.
  * `stored_partition_sendable_iff`: the stored partitions both validators accept.
-/
import OpenHpcWeb.Platform.PartitionStore
import OpenHpcWeb.Slurm.PartitionAdmin

namespace OpenHpcWeb.Web

open OpenHpcWeb.Go OpenHpcWeb.Lib OpenHpcWeb.Platform OpenHpcWeb.Slurm

/-- No comma and no control character. -/
def Plain (value : String) : Prop := ∀ c ∈ value.toList, c ≠ ',' ∧ isControl c = false

instance (value : String) : Decidable (Plain value) :=
  List.decidableBAll (fun c => c ≠ ',' ∧ isControl c = false) value.toList

theorem identifier_facts {value : String} (h : validPartitionIdentifier value = true) :
    value ≠ "" ∧ byteLen value ≤ 64 ∧
      ∀ c ∈ value.toList, c ≠ '\t' ∧ c ≠ '\r' ∧ c ≠ '\n' ∧ c ≠ ' ' := by
  unfold validPartitionIdentifier at h
  split at h
  · cases h
  · next hno =>
    simp only [not_or] at hno
    obtain ⟨hne, hlen, -⟩ := hno
    refine ⟨hne, by omega, fun c hc => ?_⟩
    have hany : containsAny value "/\\\x00\r\n\t " = false := by simpa using h
    have hnot := (containsAny_eq_false_iff _ _).mp hany c hc
    refine ⟨?_, ?_, ?_, ?_⟩
    all_goals
      rintro rfl
      exact hnot (by decide)

/-- Of the names of the store the client takes those without comma and control character. -/
theorem argText_iff {value : String} (h : validPartitionIdentifier value = true) :
    ArgText value ↔ Plain value := by
  obtain ⟨-, hlen, hspace⟩ := identifier_facts h
  unfold ArgText DetailText maxDetailFieldLength Plain
  rw [containsAny_eq_false_iff]
  constructor
  · rintro ⟨⟨-, hctl⟩, hsep⟩ c hc
    refine ⟨?_, hctl c hc⟩
    rintro rfl
    exact hsep ',' hc (by decide)
  · intro hplain
    refine ⟨⟨by omega, fun c hc => (hplain c hc).2⟩, fun c hc hmem => ?_⟩
    obtain ⟨htab, hcr, hnl, hsp⟩ := hspace c hc
    have hchars : c = ',' ∨ c = ' ' ∨ c = '\t' ∨ c = '\r' ∨ c = '\n' := by simpa using hmem
    rcases hchars with hc' | hc' | hc' | hc' | hc'
    · exact (hplain c hc).1 hc'
    · exact hsp hc'
    · exact htab hc'
    · exact hcr hc'
    · exact hnl hc'

theorem trimSpace_ne_empty {value : String} (h : validPartitionIdentifier value = true) :
    trimSpace value ≠ "" := by
  rw [trimSpace_of_valid h]
  exact (identifier_facts h).1

/-- The client accepts a stored partition exactly if its name and its nodes are plain. -/
theorem definition_ok_iff {name : String} {nodes : List String}
    (hname : validPartitionIdentifier name = true) (hnodes : NodesOk nodes) :
    validatePartitionDefinition name nodes = .ok () ↔ ∀ value ∈ name :: nodes, Plain value := by
  have hall : (∀ value ∈ name :: nodes, ArgText value) ↔ ∀ value ∈ name :: nodes, Plain value := by
    refine forall₂_congr fun value hv => argText_iff ?_
    rcases List.mem_cons.mp hv with rfl | hv
    · exact hname
    · exact hnodes.valid value hv
  rw [validatePartitionDefinition_ok_iff, hall]
  exact ⟨fun h => h.2.2.1, fun h => ⟨trimSpace_ne_empty hname, hnodes.ne_nil, h, hnodes.nodup⟩⟩

theorem deletion_ok_iff {name : String} (hname : validPartitionIdentifier name = true) :
    validatePartitionDeletion name = .ok () ↔ Plain name := by
  rw [validatePartitionDeletion_ok_iff, argText_iff hname]
  exact ⟨fun h => h.2, fun h => ⟨trimSpace_ne_empty hname, h⟩⟩

/-- A partition that `Upsert` has stored can be sent to Slurm and deleted there exactly if
    its name and the trimmed names of its nodes hold no comma and no control character. -/
theorem stored_partition_sendable_iff {store : PartitionStore} {now : Time} {faults : Faults}
    {spec : PartitionSpec} {change : PartitionChange}
    (h : (store.upsert now faults spec).1 = .ok change) :
    ∃ p, (store.upsert now faults spec).2.row spec.name = some p ∧
      ((validatePartitionDefinition spec.name p.nodes = .ok () ∧
        validatePartitionDeletion spec.name = .ok ()) ↔
        ∀ value ∈ spec.name :: spec.nodes.map trimSpace, Plain value) := by
  obtain ⟨haccepts, hrow⟩ := PartitionStore.upsert_ok h
  refine ⟨_, by rw [hrow, Function.update_self], ?_⟩
  have hnorm := (normalizePartitionNodes_ok_iff _ _).mpr
    ⟨haccepts.nodes, haccepts.unique, (rfl : storedNodes spec = _)⟩
  rw [upserted_nodes, definition_ok_iff haccepts.name
    (nodesOk_of_normalize haccepts.nonempty hnorm), deletion_ok_iff haccepts.name]
  simp only [storedNodes, List.forall_mem_cons, mem_sortStrings]
  exact ⟨fun hall => hall.1, fun hall => ⟨hall, hall.1⟩⟩

theorem stored_partition_sendable_gpu :
    ∃ p, (PartitionStore.empty.upsert 0 [] ⟨"gpu", ["n2", " n1"], true, 0, 0⟩).2.row "gpu" =
        some p ∧
      ((validatePartitionDefinition "gpu" p.nodes = .ok () ∧
        validatePartitionDeletion "gpu" = .ok ()) ↔
        ∀ value ∈ "gpu" :: ["n2", " n1"].map trimSpace, Plain value) := by
  have h : (PartitionStore.empty.upsert 0 [] ⟨"gpu", ["n2", " n1"], true, 0, 0⟩).1 =
      .ok ⟨⟨"gpu", ["n1", "n2"], true, 0, 0⟩, true, false, ⟨[], []⟩⟩ := by decide
  exact stored_partition_sendable_iff h

/-- The store keeps a partition named with a comma, which Slurm's client never takes. -/
theorem comma_partition_stored : ¬ ∀ (store : PartitionStore) now faults spec change,
    (store.upsert now faults spec).1 = .ok change →
    ∃ p, (store.upsert now faults spec).2.row spec.name = some p ∧
      validatePartitionDefinition spec.name p.nodes = .ok () ∧
      validatePartitionDeletion spec.name = .ok () := by
  intro h
  obtain ⟨p, -, -, hdel⟩ := h .empty 0 [] ⟨"a,b", ["n1"], true, 0, 0⟩
    ⟨⟨"a,b", ["n1"], true, 0, 0⟩, true, false, ⟨[], []⟩⟩ (by decide)
  exact absurd hdel (by decide)

end OpenHpcWeb.Web
