/-
  The package `strconv` to base 10 and 64 bits, as far as the modelled packages call it.

  * `parseInt_formatInt`: a number that is not negative is read back.
-/
import OpenHpcWeb.Go.Std

namespace OpenHpcWeb.Go

/-- `strconv.FormatInt` to base 10. -/
def formatInt (n : GoInt) : String := toString n.val

/-- The number that decimal digits write; `none` where there is none, or another character. -/
def parseDigits (digits : List Char) : Option Nat :=
  if digits ≠ [] ∧ digits.all Char.isDigit then
    some (digits.foldl (fun n c => 10 * n + (c.toNat - '0'.toNat)) 0)
  else none

/-- `none` is out of range. -/
def toGoInt (n : Int) : Option GoInt :=
  if h : -2 ^ 63 ≤ n ∧ n < 2 ^ 63 then some ⟨n, h⟩ else none

theorem toGoInt_eq_some_iff {n : Nat} {m : GoInt} : toGoInt n = some m ↔ m.val = n := by
  have hle := m.2.1
  have hlt := m.2.2
  unfold toGoInt
  split
  · next h =>
    rw [Option.some.injEq, Subtype.ext_iff]
    exact eq_comm
  · next h =>
    constructor
    · intro hsome; cases hsome
    · intro hm
      exact absurd ⟨by omega, by omega⟩ h

/-- `strconv.ParseInt` to base 10 and 64 bits, and `strconv.Atoi`; `none` is an error. -/
def parseInt (s : String) : Option GoInt :=
  match s.toList with
  | '-' :: digits => (parseDigits digits).bind fun n => toGoInt (-n)
  | '+' :: digits => (parseDigits digits).bind fun n => toGoInt n
  | digits => (parseDigits digits).bind fun n => toGoInt n

example : (parseInt "-042").map Subtype.val = some (-42) ∧ parseInt "9223372036854775808" = none := by
  decide +kernel

/-! ## A number written and read -/

theorem isDigit_toDigits {n : Nat} : ∀ c ∈ Nat.toDigits 10 n, c.isDigit = true :=
  fun _ hc => Nat.isDigit_of_mem_toDigits (by decide) (by decide) hc

theorem parseDigits_toDigits (n : Nat) : parseDigits (Nat.toDigits 10 n) = some n := by
  have hdigits : Nat.toDigits 10 n ≠ [] ∧ (Nat.toDigits 10 n).all Char.isDigit = true :=
    ⟨Nat.toDigits_ne_nil, List.all_eq_true.mpr isDigit_toDigits⟩
  unfold parseDigits
  rw [if_pos hdigits, ← Nat.ofDigitChars_eq_foldl, Nat.ofDigitChars_ten_toDigits]

/-- The digits of a number that is not zero start with another digit. -/
theorem head_toDigits {n : Nat} (h : 0 < n) : (Nat.toDigits 10 n).head? ≠ some '0' := by
  induction n using Nat.strongRecOn with
  | ind n ih =>
    rw [Nat.toDigits_eq_if (by decide)]
    by_cases hlt : n < 10
    · rw [if_pos hlt]
      have hchar : ∀ d < 10, 0 < d → [Nat.digitChar d].head? ≠ some '0' := by decide
      exact hchar n hlt h
    · have hdiv : 0 < n / 10 := by omega
      rw [if_neg hlt, List.head?_append_of_ne_nil _ Nat.toDigits_ne_nil]
      exact ih (n / 10) (by omega) hdiv

/-- Digits are one byte each. -/
theorem byteLen_repr (n : Nat) : byteLen n.repr = (Nat.toDigits 10 n).length := by
  have hsize : ∀ d < 10, (Nat.digitChar d).utf8Size = 1 := by decide
  unfold byteLen
  induction n using Nat.strongRecOn with
  | ind n ih =>
    by_cases hlt : n < 10
    · rw [Nat.repr_of_lt hlt, Nat.toDigits_of_lt_base hlt, String.utf8ByteSize_singleton,
        hsize n hlt, List.length_singleton]
    · have hmod : n % 10 < 10 := Nat.mod_lt n (by decide)
      rw [Nat.repr_of_ge (Nat.not_lt.mp hlt), Nat.toDigits_of_base_le (by decide) (Nat.not_lt.mp hlt),
        String.utf8ByteSize_append, ih (n / 10) (by omega), String.utf8ByteSize_singleton,
        hsize _ hmod, List.length_append, List.length_singleton]

theorem formatInt_natCast {c : GoInt} {n : Nat} (h : c.val = n) : formatInt c = n.repr := by
  unfold formatInt
  rw [h]
  rfl

/-- A number that is not negative is read back. -/
theorem parseInt_formatInt {c : GoInt} (h : 0 ≤ c.val) : parseInt (formatInt c) = some c := by
  obtain ⟨n, hn⟩ := Int.eq_ofNat_of_zero_le h
  have hparse := parseDigits_toDigits n
  have hrange : toGoInt (n : Int) = some c := by
    unfold toGoInt
    rw [dif_pos (by rw [← hn]; exact c.property)]
    exact congrArg some (Subtype.ext hn.symm)
  rw [formatInt_natCast hn]
  unfold parseInt
  rw [Nat.toList_repr]
  split
  · next digits hdigits =>
    have hminus := isDigit_toDigits (n := n) '-' (by rw [hdigits]; exact List.mem_cons_self)
    exact absurd hminus (by decide)
  · next digits hdigits =>
    have hplus := isDigit_toDigits (n := n) '+' (by rw [hdigits]; exact List.mem_cons_self)
    exact absurd hplus (by decide)
  · rw [hparse, Option.bind_some]
    exact hrange

end OpenHpcWeb.Go
