/-
  UTF-8 as bytes: `bytes.ToValidUTF8`, `utf8.RuneStart`, and texts that are cut at a byte.

  * `encode_toValidUTF8`: the repair is the text of Go.Utf8, so it is valid.
  * `runeStart_encodeChar`: the first byte of a rune starts it, and three more at most follow.
  * `fromRune_encode`: a cut that is moved to the next start of a rune leaves a text.
-/
import OpenHpcWeb.Go.Bytes
import OpenHpcWeb.Go.Utf8

namespace OpenHpcWeb.Go

namespace Bytes

theorem encode_ofList (l : List Char) :
    encode (String.ofList l) = l.flatMap String.utf8EncodeChar := by
  show (List.toByteArray (l.flatMap String.utf8EncodeChar)).data.toList = _
  simp

/-! ## The repair -/

/-- The loop of `bytes.ToValidUTF8`: `skip` bytes belong to the rune before, and `invalid` says
    whether the byte before was replaced. -/
def toValidFrom (replacement : List UInt8) : Nat → Bool → List UInt8 → List UInt8
  | _, _, [] => []
  | skip + 1, invalid, b :: rest => b :: toValidFrom replacement skip invalid rest
  | 0, invalid, b :: rest =>
    if b < 0x80 then b :: toValidFrom replacement 0 false rest
    else
      match runeAfter b rest with
      | some (_, width) => b :: toValidFrom replacement width false rest
      | none => (if invalid then [] else replacement) ++ toValidFrom replacement 0 true rest

/-- `bytes.ToValidUTF8`. -/
def toValidUTF8 (s replacement : List UInt8) : List UInt8 := toValidFrom replacement 0 false s

theorem utf8EncodeChar_ascii {b : UInt8} (hb : b < 0x80) :
    String.utf8EncodeChar (Char.ofNat b.toNat) = [b] := by
  have hlt : b.toNat < 0x80 := by simpa [UInt8.lt_iff_toNat_lt] using hb
  have hval : (Char.ofNat b.toNat).val.toNat = b.toNat := toNat_ofNat_char (by omega)
  unfold String.utf8EncodeChar
  simp only [hval]
  rw [if_pos (by omega), UInt8.ofNat_toNat]

theorem ofNat_eq {n : Nat} {b : UInt8} (h : n = b.toNat) : UInt8.ofNat n = b := by
  rw [h, UInt8.ofNat_toNat]

/-- A rune that is decoded has the bytes that it was decoded from. -/
theorem utf8EncodeChar_runeAfter {b : UInt8} {a : List UInt8} {found : Char × Nat}
    (h : runeAfter b a = some found) :
    String.utf8EncodeChar found.1 = b :: a.take found.2 := by
  cases runeAfter_sequence h with
  | @two b1 rest hb h1 =>
    have h1 := isSecond_bounds h1
    have hval : (Char.ofNat ((b.toNat - 0xc0) * 64 + (b1.toNat - 0x80))).val.toNat = _ :=
      toNat_ofNat_char (by omega)
    unfold String.utf8EncodeChar
    simp only [hval]
    rw [if_neg (by omega), if_pos (by omega)]
    simp only [List.take_succ_cons, List.take_zero, List.cons.injEq, and_true]
    exact ⟨ofNat_eq (by omega), ofNat_eq (by omega)⟩
  | @three b1 b2 rest hb h1 h2 =>
    have h1 := isSecond_bounds h1
    have h2 := isTail_bounds h2
    have hval : (Char.ofNat ((b.toNat - 0xe0) * 4096 + (b1.toNat - 0x80) * 64 +
        (b2.toNat - 0x80))).val.toNat = _ := toNat_ofNat_char (by omega)
    unfold String.utf8EncodeChar
    simp only [hval]
    rw [if_neg (by omega), if_neg (by omega), if_pos (by omega)]
    simp only [List.take_succ_cons, List.take_zero, List.cons.injEq, and_true]
    exact ⟨ofNat_eq (by omega), ofNat_eq (by omega), ofNat_eq (by omega)⟩
  | @four b1 b2 b3 rest hb h1 h2 h3 =>
    have h1 := isSecond_bounds h1
    have h2 := isTail_bounds h2
    have h3 := isTail_bounds h3
    have hval : (Char.ofNat ((b.toNat - 0xf0) * 262144 + (b1.toNat - 0x80) * 4096 +
        (b2.toNat - 0x80) * 64 + (b3.toNat - 0x80))).val.toNat = _ :=
      toNat_ofNat_char (by omega)
    unfold String.utf8EncodeChar
    simp only [hval]
    rw [if_neg (by omega), if_neg (by omega), if_neg (by omega)]
    simp only [List.take_succ_cons, List.take_zero, List.cons.injEq, and_true]
    exact ⟨ofNat_eq (by omega), ofNat_eq (by omega), ofNat_eq (by omega),
      ofNat_eq (by omega)⟩

theorem toValidFrom_eq (skip : Nat) (invalid : Bool) (s : List UInt8) :
    toValidFrom (String.utf8EncodeChar runeError) skip invalid s =
      s.take skip ++ (Go.toValidFrom skip invalid s).flatMap String.utf8EncodeChar := by
  induction s generalizing skip invalid with
  | nil => simp [toValidFrom, Go.toValidFrom]
  | cons b s ih =>
    cases skip with
    | succ skip => simp [toValidFrom, Go.toValidFrom, ih]
    | zero =>
      rw [toValidFrom, Go.toValidFrom, List.take_zero, List.nil_append]
      by_cases hascii : b < 0x80
      · rw [if_pos hascii, if_pos hascii, ih, List.flatMap_cons, utf8EncodeChar_ascii hascii]
        simp
      · rw [if_neg hascii, if_neg hascii]
        cases hrune : runeAfter b s with
        | none =>
          simp only [ih, List.take_zero, List.nil_append, List.flatMap_append]
          cases invalid <;> simp
        | some found =>
          simp only [ih, List.flatMap_cons, utf8EncodeChar_runeAfter hrune, List.cons_append]

/-- The repair of bytes is a text. -/
theorem encode_toValidUTF8 (s : List UInt8) :
    toValidUTF8 s (encode "\ufffd") = encode (String.ofList (Go.toValidUTF8 s)) := by
  have hreplacement : encode "\ufffd" = String.utf8EncodeChar runeError := by decide +kernel
  rw [hreplacement, encode_ofList, toValidUTF8, toValidFrom_eq, List.take_zero, List.nil_append]
  rfl

/-! ## Cuts -/

/-- `utf8.RuneStart`. -/
def runeStart (b : UInt8) : Bool := b &&& 0xc0 ≠ 0x80

theorem runeStart_eq (b : UInt8) : runeStart b = !isTail b := by
  have hall : ∀ n < 256, runeStart (UInt8.ofNat n) = !isTail (UInt8.ofNat n) := by
    decide +kernel
  have hb := hall b.toNat b.toNat_lt
  rwa [UInt8.ofNat_toNat] at hb

theorem runeStart_ofNat {n : Nat} (h : n < 0x80 ∨ 0xbf < n ∧ n < 0x100) :
    runeStart (UInt8.ofNat n) = true := by
  rw [runeStart_eq, Bool.not_eq_true', Bool.eq_false_iff]
  intro htail
  have hbounds := isTail_bounds htail
  rw [UInt8.toNat_ofNat'] at hbounds
  omega

theorem runeStart_tail (n : Nat) : runeStart (UInt8.ofNat (n % 0x40 + 0x80)) = false := by
  rw [runeStart_eq, Bool.not_eq_false']
  simp only [isTail, Bool.and_eq_true, decide_eq_true_eq, UInt8.le_iff_toNat_le,
    UInt8.toNat_ofNat']
  have hlow : (0x80 : UInt8).toNat = 0x80 := rfl
  have hhigh : (0xbf : UInt8).toNat = 0xbf := rfl
  omega

/-- A rune has one byte that starts it, the first, and up to three more. -/
theorem runeStart_encodeChar (c : Char) :
    ∃ b rest, String.utf8EncodeChar c = b :: rest ∧ runeStart b = true ∧
      (∀ t ∈ rest, runeStart t = false) ∧ rest.length ≤ 3 := by
  unfold String.utf8EncodeChar
  dsimp only
  split
  · exact ⟨_, _, rfl, runeStart_ofNat (by omega), by simp, by simp⟩
  · split
    · refine ⟨_, _, rfl, runeStart_ofNat (by omega), ?_, by simp⟩
      simp only [List.forall_mem_singleton, runeStart_tail]
    · split
      · refine ⟨_, _, rfl, runeStart_ofNat (by omega), ?_, by simp⟩
        simp only [List.forall_mem_cons, runeStart_tail]
        simp
      · refine ⟨_, _, rfl, runeStart_ofNat (by omega), ?_, by simp⟩
        simp only [List.forall_mem_cons, runeStart_tail]
        simp

/-- The rest of a text from a byte on, moved to the next start of a rune. -/
def fromRune (s : List UInt8) (start : Nat) : List UInt8 :=
  (s.drop start).dropWhile fun b => !runeStart b

theorem fromRune_length (s : List UInt8) (start : Nat) :
    (fromRune s start).length ≤ s.length - start := by
  rw [← List.length_drop]
  exact (List.dropWhile_suffix _).length_le

theorem dropWhile_flatMap (l : List Char) :
    (l.flatMap String.utf8EncodeChar).dropWhile (fun b => !runeStart b) =
      l.flatMap String.utf8EncodeChar := by
  cases l with
  | nil => rfl
  | cons c l =>
    obtain ⟨b, rest, hc, hstart, -, -⟩ := runeStart_encodeChar c
    rw [List.flatMap_cons, hc, List.cons_append, List.dropWhile_cons_of_neg (by simp [hstart])]

/-- Less than a rune is lost between the cut and the start of the rest. -/
theorem fromRune_flatMap (l : List Char) (start : Nat) :
    ∃ rest, rest <:+ l ∧ fromRune (l.flatMap String.utf8EncodeChar) start =
        rest.flatMap String.utf8EncodeChar ∧
      (l.flatMap String.utf8EncodeChar).length - start ≤
        (rest.flatMap String.utf8EncodeChar).length + 3 := by
  induction l generalizing start with
  | nil => exact ⟨[], List.suffix_refl _, by simp [fromRune], by simp⟩
  | cons c l ih =>
    obtain ⟨b, tail, hc, hstart, htail, hlength⟩ := runeStart_encodeChar c
    cases start with
    | zero =>
      refine ⟨c :: l, List.suffix_refl _, ?_, by omega⟩
      unfold fromRune
      rw [List.drop_zero, dropWhile_flatMap]
    | succ start =>
      rw [List.flatMap_cons, hc, List.cons_append]
      by_cases hinside : start < tail.length
      · -- the cut is in the middle of `c`
        refine ⟨l, List.suffix_cons c l, ?_, ?_⟩
        · have hdrop : ∀ t ∈ tail.drop start, (!runeStart t) = true := by
            intro t ht
            rw [htail t (List.mem_of_mem_drop ht)]
            rfl
          unfold fromRune
          rw [List.drop_succ_cons, List.drop_append_of_le_length hinside.le,
            List.dropWhile_append_of_pos hdrop, dropWhile_flatMap]
        · rw [List.length_cons, List.length_append]
          omega
      · obtain ⟨rest, hrest, hcut, hless⟩ := ih (start - tail.length)
        refine ⟨rest, hrest.trans (List.suffix_cons c l), ?_, ?_⟩
        · rw [← hcut]
          unfold fromRune
          rw [List.drop_succ_cons, List.drop_append, List.drop_of_length_le (by omega),
            List.nil_append]
        · rw [List.length_cons, List.length_append]
          omega

/-- A text that is cut is a text, and a suffix of the whole one. -/
theorem fromRune_encode (s : String) (start : Nat) :
    ∃ rest, fromRune (encode s) start = encode rest ∧ encode rest <:+ encode s ∧
      (encode s).length - start ≤ (encode rest).length + 3 := by
  obtain ⟨rest, hrest, hcut, hless⟩ := fromRune_flatMap s.toList start
  have hs : encode s = s.toList.flatMap String.utf8EncodeChar := by
    rw [← encode_ofList, String.ofList_toList]
  refine ⟨String.ofList rest, ?_, ?_, ?_⟩
  · rw [hs, hcut, encode_ofList]
  · rw [encode_ofList, ← hcut, ← hs]
    exact (List.dropWhile_suffix _).trans (List.drop_suffix _ _)
  · rw [encode_ofList, hs]
    exact hless

end Bytes

end OpenHpcWeb.Go
