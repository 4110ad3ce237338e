/-
  The canonical decimal numerals: what `strconv.FormatInt` writes of a number above zero.

  * `toDigits_ofDigitChars`: digits that do not start with a zero are those of their number.
  * `positive_iff`: the texts of digits that `ParseInt` reads as a number above zero.
  * `positive_bytes_iff`: the same of texts that need not be UTF-8.
-/
import OpenHpcWeb.Go.Bytes

namespace OpenHpcWeb.Go

/-! ## Digits -/

theorem digitChar_of_isDigit {c : Char} (h : c.isDigit = true) :
    c.toNat - '0'.toNat < 10 ∧ Nat.digitChar (c.toNat - '0'.toNat) = c := by
  have hchars : ∀ n < 58, 48 ≤ n → n - '0'.toNat < 10 ∧
      Nat.digitChar (n - '0'.toNat) = Char.ofNat n := by decide
  simp only [Char.isDigit, ge_iff_le, Bool.and_eq_true, decide_eq_true_eq,
    UInt32.le_iff_toNat_le] at h
  have hlow : 48 ≤ c.toNat := h.1
  have hhigh : c.toNat ≤ 57 := h.2
  obtain ⟨hlt, hchar⟩ := hchars c.toNat (by omega) hlow
  rw [Char.ofNat_toNat] at hchar
  exact ⟨hlt, hchar⟩

/-- Digits that do not start with a zero are written back. -/
theorem toDigits_ofDigitChars {digits : List Char} (hne : digits ≠ [])
    (hhead : digits.head? ≠ some '0') (hdigits : ∀ c ∈ digits, c.isDigit = true) :
    Nat.toDigits 10 (Nat.ofDigitChars 10 digits 0) = digits := by
  induction digits using List.reverseRecOn with
  | nil => exact absurd rfl hne
  | append_singleton front d ih =>
    obtain ⟨hlt, hchar⟩ := digitChar_of_isDigit (hdigits d (by simp))
    set k := d.toNat - '0'.toNat with hk
    have hvalue : Nat.ofDigitChars 10 (front ++ [d]) 0 =
        10 * Nat.ofDigitChars 10 front 0 + k := by
      rw [Nat.ofDigitChars_append, Nat.ofDigitChars_cons, Nat.ofDigitChars_nil]
    by_cases hfront : front = []
    · rw [hvalue, hfront, Nat.ofDigitChars_nil, Nat.mul_zero, Nat.zero_add,
        Nat.toDigits_of_lt_base hlt, hchar, List.nil_append]
    · have hfirst : front.head? ≠ some '0' := by
        rwa [List.head?_append_of_ne_nil front hfront] at hhead
      have hback := ih hfront hfirst fun c hc => hdigits c (List.mem_append_left _ hc)
      have hpos : Nat.ofDigitChars 10 front 0 ≠ 0 := by
        intro hzero
        rw [hzero] at hback
        rw [← hback] at hfirst
        exact hfirst rfl
      rw [hvalue, Nat.toDigits_of_base_le (by decide) (by omega), Nat.mul_add_mod,
        Nat.mod_eq_of_lt hlt, hchar, Nat.mul_add_div (by decide), Nat.div_eq_of_lt hlt,
        Nat.add_zero, hback]

/-- What a numeral looks like to the parsers that take no other text. -/
structure Digits (value : String) : Prop where
  ne_empty : value ≠ ""
  head : value.toList.head? ≠ some '0'
  digits : ∀ c ∈ value.toList, c.isDigit = true

theorem digits_formatInt {n : GoInt} (h : 0 < n.val) : Digits (formatInt n) := by
  obtain ⟨m, hm⟩ := Int.eq_ofNat_of_zero_le (le_of_lt h)
  rw [formatInt_natCast hm]
  refine ⟨Nat.repr_ne_empty, ?_, ?_⟩
  · rw [Nat.toList_repr]
    exact head_toDigits (by omega)
  · rw [Nat.toList_repr]
    exact isDigit_toDigits

/-- A number of 64 bits has at most 19 digits. -/
theorem byteLen_formatInt {n : GoInt} (h : 0 ≤ n.val) : byteLen (formatInt n) ≤ 19 := by
  obtain ⟨m, hm⟩ := Int.eq_ofNat_of_zero_le h
  have hrange := n.property.2
  rw [formatInt_natCast hm, byteLen_repr]
  exact (Nat.length_toDigits_le_iff (by decide) (by decide)).mpr (by omega)

/-- Of the texts of digits, `ParseInt` reads the canonical numerals. -/
theorem positive_iff {value : String} (hvalue : Digits value) {n : GoInt} :
    parseInt value = some n ↔ 0 < n.val ∧ value = formatInt n := by
  constructor
  · intro h
    obtain ⟨hne, hhead, hdigits⟩ := hvalue
    have hlist : value.toList ≠ [] := fun hnil => hne (String.toList_inj.mp (by simpa using hnil))
    have hall : value.toList ≠ [] ∧ value.toList.all Char.isDigit = true :=
      ⟨hlist, List.all_eq_true.mpr hdigits⟩
    have hback := toDigits_ofDigitChars hlist hhead hdigits
    have hread : parseInt value = (parseDigits value.toList).bind fun n => toGoInt n := by
      unfold parseInt
      split
      · next hminus => exact absurd (hdigits '-' (by rw [hminus]; simp)) (by decide)
      · next hplus => exact absurd (hdigits '+' (by rw [hplus]; simp)) (by decide)
      · rfl
    rw [hread, parseDigits, if_pos hall, Option.bind_some, toGoInt_eq_some_iff,
      ← Nat.ofDigitChars_eq_foldl] at h
    constructor
    · by_contra hzero
      have hnat : Nat.ofDigitChars 10 value.toList 0 = 0 := by omega
      rw [hnat] at hback
      rw [← hback] at hhead
      exact hhead rfl
    · rw [formatInt_natCast h, ← String.toList_inj, Nat.toList_repr, hback]
  · rintro ⟨hpos, rfl⟩
    exact parseInt_formatInt (le_of_lt hpos)

/-! ## Texts of bytes -/

namespace Bytes

/-- `Digits` of a text that need not be UTF-8. -/
structure Digits (value : List UInt8) : Prop where
  ne_nil : value ≠ []
  head : value.head? ≠ some 0x30
  digits : ∀ b ∈ value, isDigit b = true

theorem ascii_latin1 (value : List UInt8) : ascii (latin1 value) = value := by
  unfold ascii latin1
  rw [String.toList_ofList, List.map_map]
  have hbyte : (fun c : Char => UInt8.ofNat c.toNat) ∘ (fun b : UInt8 => Char.ofNat b.toNat) = id :=
    funext fun b => by simp [toNat_latin1]
  rw [hbyte, List.map_id]

theorem latin1_ascii {text : String} (h : ∀ c ∈ text.toList, c.isDigit = true) :
    latin1 (ascii text) = text := by
  unfold ascii latin1
  rw [List.map_map, ← String.toList_inj, String.toList_ofList]
  exact (List.map_congr_left fun c hc => char_of_digit (h c hc)).trans (List.map_id _)

theorem Digits.latin1 {value : List UInt8} (h : Digits value) : Go.Digits (latin1 value) := by
  refine ⟨?_, ?_, ?_⟩
  · intro hempty
    have hback := ascii_latin1 value
    rw [hempty] at hback
    exact h.ne_nil hback.symm
  · rw [Bytes.latin1, String.toList_ofList, List.head?_map]
    intro hhead
    obtain ⟨b, hb, hzero⟩ := Option.map_eq_some_iff.mp hhead
    have hval := congrArg Char.toNat hzero
    rw [toNat_latin1] at hval
    exact h.head (hb.trans (congrArg some (UInt8.toNat_inj.mp hval)))
  · rw [Bytes.latin1, String.toList_ofList]
    intro c hc
    obtain ⟨b, hb, rfl⟩ := List.mem_map.mp hc
    rw [isDigit_latin1]
    exact h.digits b hb

theorem digits_ascii {n : GoInt} (h : 0 < n.val) : Digits (ascii (formatInt n)) := by
  obtain ⟨hne, hhead, hdigits⟩ := digits_formatInt h
  refine ⟨?_, ?_, ?_⟩
  · intro hnil
    exact hne (String.toList_inj.mp (List.map_eq_nil_iff.mp hnil))
  · rw [ascii, List.head?_map]
    intro hzero
    obtain ⟨c, hc, hbyte⟩ := Option.map_eq_some_iff.mp hzero
    have hback := char_of_digit (hdigits c (List.mem_of_mem_head? hc))
    rw [hbyte] at hback
    exact hhead (hc.trans (congrArg some hback.symm))
  · intro b hb
    obtain ⟨c, hc, rfl⟩ := List.mem_map.mp hb
    exact isDigit_ofNat (hdigits c hc)

theorem positive_bytes_iff {value : List UInt8} (hvalue : Digits value) {n : GoInt} :
    parseInt value = some n ↔ 0 < n.val ∧ value = ascii (formatInt n) := by
  rw [parseInt, positive_iff hvalue.latin1]
  refine and_congr_right fun hpos => ⟨fun h => ?_, fun h => ?_⟩
  · rw [← h, ascii_latin1]
  · rw [h, latin1_ascii (digits_formatInt hpos).digits]

theorem length_ascii_formatInt {n : GoInt} (h : 0 ≤ n.val) :
    (ascii (formatInt n)).length ≤ 19 := by
  obtain ⟨m, hm⟩ := Int.eq_ofNat_of_zero_le h
  have hlen := byteLen_formatInt h
  rw [formatInt_natCast hm, byteLen_repr] at hlen
  rw [formatInt_natCast hm, ascii, List.length_map, Nat.toList_repr]
  exact hlen

end Bytes

end OpenHpcWeb.Go
