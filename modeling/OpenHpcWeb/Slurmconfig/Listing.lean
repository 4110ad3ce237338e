/-
  The list of configuration files, internal/slurmconfig/provider.go: `LocalProvider.List` and
  `selectConfigEntries`.

  The operating system enumerates a directory in any order. Both functions cut the entries to
  `maxConfigFiles` in that order and sort what is left, so the cut decides which files are
  shown.

  * `sorted_collect_of_perm`: up to the limit the order does not matter.
  * `sorted_collect_reverse_ne`: above it, the reverse order gives another list.
  * `config_list_order_iff`: so the limit decides.
-/
import OpenHpcWeb.Go.Sort
import OpenHpcWeb.Slurmconfig.Provider

namespace OpenHpcWeb.Slurmconfig

open OpenHpcWeb.Go

def maxConfigFiles : Nat := 128

structure Entry where
  name : String
  size : GoInt
  deriving DecidableEq

/-- The type bits of a file mode. -/
inductive FileKind where
  | regular
  | directory
  | symlink
  | other
  deriving DecidableEq

/-- What `Readdir` gives of one file. -/
structure DirInfo where
  name : String
  size : GoInt
  kind : FileKind

/-- `fs.DirEntry`, with what its `Info` gives. -/
structure DirEntry where
  name : String
  kind : FileKind
  info : Except String DirInfo

/-- The entry of a file that `List` keeps. -/
def listedEntry (info : DirInfo) : Option Entry :=
  if validConfigName info.name = false ∨ info.kind = .symlink ∨ info.kind ≠ .regular then none
  else some ⟨info.name, info.size⟩

/-- The entry of a file that `selectConfigEntries` keeps. -/
def selectedEntry (entry : DirEntry) : Option Entry :=
  if validConfigName entry.name = false ∨ entry.kind = .symlink then none
  else
    match entry.info with
    | .error _ => none
    | .ok info =>
      if info.kind ≠ .regular ∨ info.kind = .symlink then none else some ⟨entry.name, info.size⟩

section

variable {α : Type}

/-- The loop of both functions over the entries of the directory. -/
def collect (select : α → Option Entry) (entries : List α) : List Entry :=
  entries.foldl (fun result entry =>
    if maxConfigFiles ≤ result.length then result
    else
      match select entry with
      | none => result
      | some e => result ++ [e]) []

def sortEntries (entries : List Entry) : List Entry :=
  sortSlice (fun first second => first.name < second.name) entries

end

/-- What can go wrong in a call of `List`. -/
structure ListCall where
  ctxErr : Option String
  openFault : Option String
  readFault : Option String

/-- `LocalProvider.List`, with the entries in the order in which `Readdir` gives them. -/
def LocalProvider.list (call : ListCall) (entries : List DirInfo) : Except String (List Entry) :=
  match call.ctxErr, call.openFault, call.readFault with
  | some err, _, _ => .error err
  | none, some err, _ => .error ("open Slurm config root for listing: " ++ err)
  | none, none, some err => .error err
  | none, none, none => .ok (sortEntries (collect listedEntry entries))

def selectConfigEntries (entries : List DirEntry) : List Entry :=
  sortEntries (collect selectedEntry entries)

/-! ## The cut -/

section

variable {α : Type} {select : α → Option Entry}

variable (select) in
private theorem collect_from (kept : List Entry) (hkept : kept.length ≤ maxConfigFiles)
    (entries : List α) :
    entries.foldl (fun result entry =>
      if maxConfigFiles ≤ result.length then result
      else
        match select entry with
        | none => result
        | some e => result ++ [e]) kept =
      (kept ++ entries.filterMap select).take maxConfigFiles := by
  induction entries generalizing kept with
  | nil =>
    rw [List.foldl_nil, List.filterMap_nil, List.append_nil, List.take_of_length_le hkept]
  | cons entry entries ih =>
    rw [List.foldl_cons]
    by_cases hfull : maxConfigFiles ≤ kept.length
    · have hlen : kept.length = maxConfigFiles := le_antisymm hkept hfull
      rw [if_pos hfull, ih kept hkept, ← hlen, List.take_left, List.take_left]
    · rw [if_neg hfull]
      cases hselect : select entry with
      | none => rw [ih kept hkept, List.filterMap_cons_none hselect]
      | some e =>
        have hroom : (kept ++ [e]).length ≤ maxConfigFiles := by
          rw [List.length_append, List.length_singleton]
          omega
        rw [ih _ hroom, List.filterMap_cons_some hselect, List.append_assoc,
          List.singleton_append]

/-- The loop keeps the first entries that are selected. -/
theorem collect_eq (entries : List α) :
    collect select entries = (entries.filterMap select).take maxConfigFiles := by
  have h := collect_from select [] (Nat.zero_le _) entries
  rwa [List.nil_append] at h

theorem sortEntries_strict {entries : List Entry} (h : (entries.map Entry.name).Nodup) :
    (sortEntries entries).Pairwise fun first second => first.name < second.name :=
  sortSlice_strict Entry.name h

/-- A sorted list of entries with distinct names depends on the entries alone. -/
theorem sortEntries_of_perm {entries entries' : List Entry} (hperm : entries.Perm entries')
    (h : (entries.map Entry.name).Nodup) : sortEntries entries = sortEntries entries' := by
  have h' : (entries'.map Entry.name).Nodup := (hperm.map Entry.name).nodup_iff.mp h
  refine pairwise_ext (fun first second hlt => not_lt_of_gt hlt) (sortEntries_strict h)
    (sortEntries_strict h') fun e => ?_
  unfold sortEntries
  rw [mem_sortSlice, mem_sortSlice]
  exact hperm.mem_iff

end

/-- A directory: its entries have distinct names. -/
structure Directory {α : Type} (name : α → String) where
  entries : List α
  distinct : (entries.map name).Nodup

section

variable {α : Type} {name : α → String} {select : α → Option Entry}

theorem Directory.selected_nodup (directory : Directory name)
    (hname : ∀ a e, select a = some e → e.name = name a) :
    ((directory.entries.filterMap select).map Entry.name).Nodup := by
  have hsub : ((directory.entries.filterMap select).map Entry.name).Sublist
      (directory.entries.map name) := by
    induction directory.entries with
    | nil => exact .slnil
    | cons a entries ih =>
      cases hselect : select a with
      | none =>
        rw [List.filterMap_cons_none hselect]
        exact ih.cons _
      | some e =>
        rw [List.filterMap_cons_some hselect, List.map_cons, List.map_cons, hname a e hselect]
        exact ih.cons_cons _
  exact directory.distinct.sublist hsub

/-- Where every selected entry is kept, the list does not depend on the order. -/
theorem sorted_collect_of_perm (directory : Directory name)
    (hname : ∀ a e, select a = some e → e.name = name a)
    (hlimit : (directory.entries.filterMap select).length ≤ maxConfigFiles) {order : List α}
    (horder : order.Perm directory.entries) :
    sortEntries (collect select order) =
      sortEntries (directory.entries.filterMap select) := by
  have hperm := horder.filterMap select
  rw [collect_eq, List.take_of_length_le (hperm.length_eq ▸ hlimit)]
  exact (sortEntries_of_perm hperm.symm (directory.selected_nodup hname)).symm

/-- Where one is cut off, it is the last one that is enumerated: the first one, in the reverse
    order. -/
theorem sorted_collect_reverse_ne (directory : Directory name)
    (hname : ∀ a e, select a = some e → e.name = name a)
    (hlimit : maxConfigFiles < (directory.entries.filterMap select).length) :
    sortEntries (collect select directory.entries) ≠
      sortEntries (collect select directory.entries.reverse) := by
  intro heq
  have hnodup := (directory.selected_nodup hname).of_map
  rw [collect_eq, collect_eq, List.filterMap_reverse] at heq
  cases hselected : directory.entries.filterMap select with
  | nil =>
    rw [hselected] at hlimit
    exact absurd hlimit (Nat.not_lt_zero _)
  | cons first rest =>
    rw [hselected] at heq hlimit hnodup
    have hfirst : first ∈ sortEntries ((first :: rest).take maxConfigFiles) :=
      mem_sortSlice.mpr (List.mem_cons_self (l := rest.take 127))
    rw [heq] at hfirst
    have hlast := mem_sortSlice.mp hfirst
    rw [List.length_cons] at hlimit
    rw [List.reverse_cons, List.take_append_of_le_length (by rw [List.length_reverse]; omega)]
      at hlast
    have hrest := List.mem_reverse.mp (List.mem_of_mem_take hlast)
    exact (List.nodup_cons.mp hnodup).1 hrest

theorem sorted_collect_order_iff (directory : Directory name)
    (hname : ∀ a e, select a = some e → e.name = name a) :
    (∀ order order' : List α, order.Perm directory.entries → order'.Perm directory.entries →
      sortEntries (collect select order) = sortEntries (collect select order')) ↔
    (directory.entries.filterMap select).length ≤ maxConfigFiles := by
  constructor
  · intro h
    by_contra hlimit
    exact sorted_collect_reverse_ne directory hname (Nat.lt_of_not_le hlimit)
      (h _ _ (List.Perm.refl _) (List.reverse_perm _))
  · intro hlimit order order' horder horder'
    rw [sorted_collect_of_perm directory hname hlimit horder,
      sorted_collect_of_perm directory hname hlimit horder']

end

theorem listedEntry_name {info : DirInfo} {e : Entry} (h : listedEntry info = some e) :
    e.name = info.name := by
  unfold listedEntry at h
  split at h
  · cases h
  · rw [← Option.some.inj h]

theorem selectedEntry_name {entry : DirEntry} {e : Entry} (h : selectedEntry entry = some e) :
    e.name = entry.name := by
  unfold selectedEntry at h
  split at h
  · cases h
  · split at h
    · cases h
    · split at h
      · cases h
      · rw [← Option.some.inj h]

/-- The list depends on the order of the enumeration exactly when a file is cut off. -/
theorem config_list_order_iff (files : Directory DirInfo.name)
    (entries : Directory DirEntry.name) :
    ((∀ call order order', order.Perm files.entries → order'.Perm files.entries →
        LocalProvider.list call order = LocalProvider.list call order') ↔
      (files.entries.filterMap listedEntry).length ≤ maxConfigFiles) ∧
    ((∀ order order', order.Perm entries.entries → order'.Perm entries.entries →
        selectConfigEntries order = selectConfigEntries order') ↔
      (entries.entries.filterMap selectedEntry).length ≤ maxConfigFiles) := by
  refine ⟨?_, sorted_collect_order_iff entries fun _ _ => selectedEntry_name⟩
  rw [← sorted_collect_order_iff files fun _ _ => listedEntry_name]
  constructor
  · intro h order order' horder horder'
    exact Except.ok.inj (h ⟨none, none, none⟩ order order' horder horder')
  · intro h call order order' horder horder'
    unfold LocalProvider.list
    rw [h order order' horder horder']

section Example

/-- `aa`, `ab`, .., `hp`. -/
private def fileNames : List String :=
  (List.range 128).map fun n =>
    String.ofList [Char.ofNat (97 + n / 16), Char.ofNat (97 + n % 16)]

private theorem nodup_names : ("slurm.conf" :: fileNames).Nodup := by
  -- sorted, with the configuration at the end, so a name is compared with the next one only
  have hchain : ((fileNames ++ ["slurm.conf"]).map String.toList).IsChain (· < ·) := by
    decide +kernel
  have hpair := List.isChain_iff_pairwise.mp hchain
  have hnodup : (fileNames ++ ["slurm.conf"]).Nodup :=
    List.Nodup.of_map String.toList (hpair.imp ne_of_lt)
  exact (List.perm_append_singleton _ _).nodup_iff.mp hnodup

/-- A directory of one more file than are listed. -/
private def fullDirectory : Directory DirInfo.name where
  entries := ("slurm.conf" :: fileNames).map fun name => ⟨name, wrap64 0, .regular⟩
  distinct := by
    rw [List.map_map]
    exact (List.map_id _).symm ▸ nodup_names

/-- The configuration is not listed when it is enumerated last. -/
theorem slurm_conf_not_listed :
    ¬ ∀ (files : Directory DirInfo.name) (call : ListCall) (order order' : List DirInfo),
      order.Perm files.entries → order'.Perm files.entries →
        LocalProvider.list call order = LocalProvider.list call order' := by
  intro h
  have heq := Except.ok.inj (h fullDirectory ⟨none, none, none⟩ _ _ (List.Perm.refl _)
    (List.reverse_perm _))
  have hselected : maxConfigFiles < (fullDirectory.entries.filterMap listedEntry).length := by
    decide +kernel
  exact sorted_collect_reverse_ne fullDirectory (fun _ _ => listedEntry_name) hselected heq

end Example

end OpenHpcWeb.Slurmconfig
