/-
  The parts of the Go standard library that the modelled packages call: `strings`,
  `unicode`, `sort` and the 64-bit `int`.

  A Go string is a Lean `String`, so its text is valid UTF-8; `len` counts bytes and
  `range` walks code points. `<` on Go strings compares bytes. On valid UTF-8 that is the
  order of the code points, which is Lean's `<`. `sort.Strings` is insertion sort: any
  sort of a list by a total order has the same result.
-/
import Mathlib.Data.List.Sort
import Mathlib.Data.List.DropRight
import Mathlib.Data.List.Infix
import Mathlib.Data.String.Basic
import Mathlib.Tactic.Linarith

namespace OpenHpcWeb.Go

/-! ## Integers -/

/-- A Go `int` or `int64` on the 64-bit targets the repository builds for. -/
abbrev GoInt := { n : Int // -2 ^ 63 ≤ n ∧ n < 2 ^ 63 }

/-- The `int` that an operation on the 64-bit targets leaves of a result: two's complement. -/
def wrap64 (n : Int) : GoInt :=
  ⟨n.bmod (2 ^ 64), by
    have hle := Int.le_bmod (x := n) (m := 2 ^ 64) (by norm_num)
    have hlt := Int.bmod_lt (x := n) (m := 2 ^ 64) (by norm_num)
    constructor
    · calc -2 ^ 63 = -((2 ^ 64 : Nat) / 2 : Int) := by norm_num
        _ ≤ _ := hle
    · calc n.bmod (2 ^ 64) < ((2 ^ 64 : Nat) + 1) / 2 := hlt
        _ = 2 ^ 63 := by norm_num⟩

/-- A result in the range is left as it is. -/
theorem wrap64_val {n : Int} (hle : -2 ^ 63 ≤ n) (hlt : n < 2 ^ 63) : (wrap64 n).val = n :=
  Int.bmod_eq_of_le (by norm_num; omega) (by norm_num; omega)

/-- `math.MaxInt64`. -/
def mathMaxInt64 : GoInt := wrap64 (2 ^ 63 - 1)

theorem mathMaxInt64_val : mathMaxInt64.val = 2 ^ 63 - 1 := wrap64_val (by omega) (by omega)

/-- The guard of an addition: `x` and `y` do not fit together. -/
theorem maxInt64_sub_lt_iff {x y : GoInt} (hx : 0 ≤ x.val) :
    (wrap64 (mathMaxInt64.val - x.val)).val < y.val ↔ 2 ^ 63 ≤ x.val + y.val := by
  have hmax := mathMaxInt64_val
  have hlt := x.2.2
  rw [wrap64_val (by omega) (by omega)]
  omega

/-- An addition that its guard lets through. -/
theorem wrap64_add_val {x y : GoInt} (hx : 0 ≤ x.val) (hy : 0 ≤ y.val)
    (hfits : ¬ 2 ^ 63 ≤ x.val + y.val) : (wrap64 (x.val + y.val)).val = x.val + y.val :=
  wrap64_val (by omega) (by omega)

/-! ## Characters -/

/-- `unicode.IsSpace`. -/
def isSpace (c : Char) : Bool :=
  (9 ≤ c.toNat && c.toNat ≤ 13) || c.toNat = 0x20 || c.toNat = 0x85 || c.toNat = 0xa0 ||
    c.toNat = 0x1680 || (0x2000 ≤ c.toNat && c.toNat ≤ 0x200a) || c.toNat = 0x2028 ||
    c.toNat = 0x2029 || c.toNat = 0x202f || c.toNat = 0x205f || c.toNat = 0x3000

/-- `unicode.IsControl`: the category Cc. -/
def isControl (c : Char) : Bool :=
  c.toNat < 0x20 || (0x7f ≤ c.toNat && c.toNat < 0xa0)

/-- `unicode.ToLower`. Its tables are not embedded: the results hold for any map of the code
    points. -/
class UnicodeCase where
  toLower : Char → Char

namespace Ascii

/-- The lower case of the ASCII letters alone, for texts that are ASCII. -/
scoped instance : UnicodeCase := ⟨Char.toLower⟩

end Ascii

/-! ## Strings -/

/-- `len` of a string: its bytes. -/
def byteLen (s : String) : Nat := s.utf8ByteSize

/-- `strings.TrimSpace`. -/
def trimSpace (s : String) : String :=
  String.ofList ((s.toList.dropWhile isSpace).rdropWhile isSpace)

/-- `strings.ContainsAny`. -/
def containsAny (s chars : String) : Bool :=
  s.toList.any fun c => decide (c ∈ chars.toList)

/-- `strings.Contains`. -/
def contains (s substr : String) : Bool :=
  decide (substr.toList <:+: s.toList)

/-- `strings.ToLower`. -/
def toLower [UnicodeCase] (s : String) : String :=
  String.ofList (s.toList.map UnicodeCase.toLower)

/-- `strings.ToUpper` as far as its results are ASCII: the dotless i and the long s are the
    only other characters that it maps there. -/
def toUpper (s : String) : String :=
  String.ofList (s.toList.map fun c =>
    if c = 'ı' then 'I' else if c = 'ſ' then 'S' else c.toUpper)

/-- `strings.EqualFold` with a text of ASCII letters: the Kelvin sign and the long s are the
    only other characters that fold to one. -/
def equalFold (s text : String) : Bool :=
  s.toList.map (fun c => if c = '\u212a' then 'k' else if c = 'ſ' then 's' else c.toLower) =
    text.toList.map Char.toLower

/-- `strings.Join`. -/
def join (elems : List String) (sep : String) : String := sep.intercalate elems

/-- `sort.Strings`. -/
def sortStrings (l : List String) : List String := l.insertionSort (· ≤ ·)

/-! ### `strings.TrimSpace` -/

/-- Trimming on the right keeps a first character that is not white space. -/
private theorem dropWhile_rdropWhile_dropWhile (p : Char → Bool) (l : List Char) :
    ((l.dropWhile p).rdropWhile p).dropWhile p = (l.dropWhile p).rdropWhile p := by
  set m := l.dropWhile p with hm
  rw [List.dropWhile_eq_self_iff]
  intro hlen
  obtain ⟨t, ht⟩ := List.rdropWhile_prefix p m
  have hne : m ≠ [] := by
    intro h
    rw [h] at hlen
    simp at hlen
  have hlen' : 0 < m.length := List.length_pos_of_ne_nil hne
  have hget : (m.rdropWhile p)[0] = m[0] := by
    rw [List.getElem_of_eq ht.symm, List.getElem_append_left hlen]
  have hfix : m.dropWhile p = m := by rw [hm, List.dropWhile_idempotent]
  rw [hget]
  exact List.dropWhile_eq_self_iff.mp hfix hlen'

@[simp] theorem trimSpace_trimSpace (s : String) : trimSpace (trimSpace s) = trimSpace s := by
  simp only [trimSpace, String.toList_ofList]
  rw [dropWhile_rdropWhile_dropWhile, List.rdropWhile_idempotent]

/-- A string is blank exactly when it has no character outside white space. -/
theorem trimSpace_eq_empty_iff (s : String) :
    trimSpace s = "" ↔ ∀ c ∈ s.toList, isSpace c = true := by
  have h : trimSpace s = "" ↔ (s.toList.dropWhile isSpace).rdropWhile isSpace = [] := by
    rw [trimSpace, ← String.toList_inj, String.toList_ofList]
    simp
  rw [h, List.rdropWhile_eq_nil_iff]
  constructor
  · intro hd c hc
    rw [← List.takeWhile_append_dropWhile (p := isSpace) (l := s.toList), List.mem_append] at hc
    rcases hc with hc | hc
    · exact List.mem_takeWhile_imp hc
    · exact hd c hc
  · intro hs c hc
    exact hs c ((List.dropWhile_suffix _).subset hc)

/-! ### `strings.ContainsAny` -/

theorem containsAny_eq_false_iff (s chars : String) :
    containsAny s chars = false ↔ ∀ c ∈ s.toList, c ∉ chars.toList := by
  simp [containsAny]

/-! ### `strings.Contains` and `strings.Join` -/

theorem contains_iff (s substr : String) :
    contains s substr = true ↔ substr.toList <:+: s.toList := by
  simp [contains]

@[simp] theorem join_singleton (p sep : String) : join [p] sep = p := by
  simp [join]

/-- A join of two strings or more contains the separator. -/
theorem contains_join (p q : String) (rest : List String) (sep : String) :
    contains (join (p :: q :: rest) sep) sep = true := by
  rw [contains_iff, join, String.toList_intercalate]
  refine ⟨p.toList, sep.toList.intercalate ((q :: rest).map String.toList), ?_⟩
  simp [List.intercalate]

/-! ### `strings.Split` -/

/-- The pieces of a split do not contain the separator. -/
theorem not_mem_of_mem_splitOn {α : Type} [BEq α] [LawfulBEq α] {s : α} {c l : List α}
    (h : l ∈ c.splitOn s) : s ∉ l := by
  induction hlen : c.length using Nat.strongRecOn generalizing c with
  | _ n ih =>
    by_cases hmem : s ∈ c
    · obtain ⟨a, rest, rfl, ha⟩ := List.eq_append_cons_of_mem hmem
      rw [List.splitOn_append_cons_self_of_not_mem ha] at h
      rcases List.mem_cons.mp h with rfl | h
      · exact ha
      · exact ih rest.length (by rw [← hlen]; simp; omega) h rfl
    · rw [List.splitOn_eq_singleton hmem, List.mem_singleton] at h
      rw [h]
      exact hmem

/-! ### `sort.Strings` -/

@[simp] theorem mem_sortStrings {l : List String} {s : String} :
    s ∈ sortStrings l ↔ s ∈ l := by
  simp [sortStrings]

theorem sortStrings_perm (l : List String) : (sortStrings l).Perm l :=
  List.perm_insertionSort _ l

theorem sortStrings_sorted (l : List String) : (sortStrings l).Pairwise (· ≤ ·) :=
  List.pairwise_insertionSort _ l

/-- Sorting strings without duplicates gives a strictly increasing list. -/
theorem sortStrings_strict {l : List String} (h : l.Nodup) :
    (sortStrings l).Pairwise (· < ·) := by
  have hnd : (sortStrings l).Nodup := (sortStrings_perm l).nodup_iff.mpr h
  exact (sortStrings_sorted l).imp₂ (fun _ _ hle hne => lt_of_le_of_ne hle hne) hnd

theorem sortStrings_of_strict {l : List String} (h : l.Pairwise (· < ·)) : sortStrings l = l :=
  List.Pairwise.insertionSort_eq (h.imp le_of_lt)

/-- Strictly increasing lists with the same members are equal. -/
theorem strict_ext {l m : List String} (hl : l.Pairwise (· < ·)) (hm : m.Pairwise (· < ·))
    (h : ∀ s, s ∈ l ↔ s ∈ m) : l = m := by
  have hp : l.Perm m :=
    (List.perm_ext_iff_of_nodup (hl.imp ne_of_lt) (hm.imp ne_of_lt)).mpr h
  exact List.Perm.eq_of_pairwise (fun a b _ _ hab hba => absurd hab (lt_asymm hba)) hl hm hp

end OpenHpcWeb.Go
