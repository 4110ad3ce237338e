/-
  `base64.RawURLEncoding` of encoding/base64: the alphabet of URLs, without padding. The decoder
  is not strict: it passes over line ends and over the bits behind the last byte.

  * `rawURLDecode_rawURLEncode`: what is encoded is read back.
  * `unreserved_rawURLEncode`: a URL takes the characters of the encoding as they are.
  * `length_rawURLEncode`: four characters for three bytes.
-/
import OpenHpcWeb.Go.Url

namespace OpenHpcWeb.Go

/-- A character of the alphabet. -/
def base64Char (n : Nat) : UInt8 :=
  UInt8.ofNat <|
    if n < 26 then 0x41 + n
    else if n < 52 then 0x61 + (n - 26)
    else if n < 62 then 0x30 + (n - 52)
    else if n = 62 then 0x2d
    else 0x5f

/-- `decodeMap`; `none` is its invalid index. -/
def base64Value (b : UInt8) : Option Nat :=
  if 0x41 ≤ b ∧ b ≤ 0x5a then some (b.toNat - 0x41)
  else if 0x61 ≤ b ∧ b ≤ 0x7a then some (b.toNat - 0x61 + 26)
  else if 0x30 ≤ b ∧ b ≤ 0x39 then some (b.toNat - 0x30 + 52)
  else if b = 0x2d then some 62
  else if b = 0x5f then some 63
  else none

/-- The four characters of 24 bits. -/
def base64Quantum (val : Nat) : List UInt8 :=
  [base64Char (val / 2 ^ 18 % 64), base64Char (val / 2 ^ 12 % 64), base64Char (val / 2 ^ 6 % 64),
    base64Char (val % 64)]

/-- `EncodeToString`. -/
def rawURLEncode : List UInt8 → List UInt8
  | [] => []
  | [a] => (base64Quantum (a.toNat * 2 ^ 16)).take 2
  | [a, b] => (base64Quantum (a.toNat * 2 ^ 16 + b.toNat * 2 ^ 8)).take 3
  | a :: b :: c :: rest =>
    base64Quantum (a.toNat * 2 ^ 16 + b.toNat * 2 ^ 8 + c.toNat) ++ rawURLEncode rest

/-- The three bytes of 24 bits. -/
def base64Bytes (val : Nat) : List UInt8 :=
  [UInt8.ofNat (val / 2 ^ 16), UInt8.ofNat (val / 2 ^ 8), UInt8.ofNat val]

/-- The bytes of the values of the characters; a character alone is an error. -/
def decodeQuanta : List Nat → Option (List UInt8)
  | [] => some []
  | [_] => none
  | [a, b] => some ((base64Bytes (a * 2 ^ 18 + b * 2 ^ 12)).take 1)
  | [a, b, c] => some ((base64Bytes (a * 2 ^ 18 + b * 2 ^ 12 + c * 2 ^ 6)).take 2)
  | a :: b :: c :: d :: rest =>
    (decodeQuanta rest).map (base64Bytes (a * 2 ^ 18 + b * 2 ^ 12 + c * 2 ^ 6 + d) ++ ·)

/-- `DecodeString`; `none` is an error. -/
def rawURLDecode (s : List UInt8) : Option (List UInt8) :=
  ((s.filter fun b => b ≠ 0x0a ∧ b ≠ 0x0d).mapM base64Value).bind decodeQuanta

example : rawURLEncode (Bytes.ascii "alice") = Bytes.ascii "YWxpY2U" ∧
    rawURLDecode (Bytes.ascii "YWxp\nY2V") = some (Bytes.ascii "alice") := by
  decide +kernel

/-! ## One character -/

theorem base64Value_char {n : Nat} (h : n < 64) : base64Value (base64Char n) = some n := by
  have hall : ∀ n < 64, base64Value (base64Char n) = some n := by decide
  exact hall n h

theorem base64Char_unreserved {n : Nat} (h : n < 64) : shouldEscape (base64Char n) = false := by
  have hall : ∀ n < 64, shouldEscape (base64Char n) = false := by decide
  exact hall n h

/-- A line end is not a character of the alphabet. -/
theorem base64Char_not_lineEnd {n : Nat} (h : n < 64) :
    base64Char n ≠ 0x0a ∧ base64Char n ≠ 0x0d := by
  have hall : ∀ n < 64, base64Char n ≠ 0x0a ∧ base64Char n ≠ 0x0d := by decide
  exact hall n h

/-! ## Texts -/

/-- The values that the characters of an encoding stand for. -/
def base64Values : List UInt8 → List Nat
  | [] => []
  | [a] => [a.toNat / 4, a.toNat % 4 * 16]
  | [a, b] => [a.toNat / 4, a.toNat % 4 * 16 + b.toNat / 16, b.toNat % 16 * 4]
  | a :: b :: c :: rest =>
    [a.toNat / 4, a.toNat % 4 * 16 + b.toNat / 16, b.toNat % 16 * 4 + c.toNat / 64,
      c.toNat % 64] ++ base64Values rest

theorem base64Values_lt (s : List UInt8) : ∀ n ∈ base64Values s, n < 64 := by
  induction s using base64Values.induct with
  | case1 => simp [base64Values]
  | case2 a =>
    have ha := a.toNat_lt
    simp only [base64Values, List.forall_mem_cons, List.not_mem_nil, false_implies, implies_true,
      and_true]
    omega
  | case3 a b =>
    have ha := a.toNat_lt
    have hb := b.toNat_lt
    simp only [base64Values, List.forall_mem_cons, List.not_mem_nil, false_implies, implies_true,
      and_true]
    omega
  | case4 a b c rest ih =>
    have ha := a.toNat_lt
    have hb := b.toNat_lt
    have hc := c.toNat_lt
    simp only [base64Values, List.forall_mem_cons, List.cons_append, List.nil_append]
    exact ⟨by omega, by omega, by omega, by omega, ih⟩

theorem rawURLEncode_eq (s : List UInt8) :
    rawURLEncode s = (base64Values s).map base64Char := by
  induction s using base64Values.induct with
  | case1 => rfl
  | case2 a =>
    have ha := a.toNat_lt
    have h0 : a.toNat * 2 ^ 16 / 2 ^ 18 % 64 = a.toNat / 4 := by omega
    have h1 : a.toNat * 2 ^ 16 / 2 ^ 12 % 64 = a.toNat % 4 * 16 := by omega
    simp only [rawURLEncode, base64Quantum, base64Values, h0, h1, List.take_succ_cons,
      List.take_zero, List.map_cons, List.map_nil]
  | case3 a b =>
    have ha := a.toNat_lt
    have hb := b.toNat_lt
    have h0 : (a.toNat * 2 ^ 16 + b.toNat * 2 ^ 8) / 2 ^ 18 % 64 = a.toNat / 4 := by omega
    have h1 : (a.toNat * 2 ^ 16 + b.toNat * 2 ^ 8) / 2 ^ 12 % 64 =
        a.toNat % 4 * 16 + b.toNat / 16 := by omega
    have h2 : (a.toNat * 2 ^ 16 + b.toNat * 2 ^ 8) / 2 ^ 6 % 64 = b.toNat % 16 * 4 := by omega
    simp only [rawURLEncode, base64Quantum, base64Values, h0, h1, h2, List.take_succ_cons,
      List.take_zero, List.map_cons, List.map_nil]
  | case4 a b c rest ih =>
    have ha := a.toNat_lt
    have hb := b.toNat_lt
    have hc := c.toNat_lt
    have h0 : (a.toNat * 2 ^ 16 + b.toNat * 2 ^ 8 + c.toNat) / 2 ^ 18 % 64 = a.toNat / 4 := by
      omega
    have h1 : (a.toNat * 2 ^ 16 + b.toNat * 2 ^ 8 + c.toNat) / 2 ^ 12 % 64 =
        a.toNat % 4 * 16 + b.toNat / 16 := by omega
    have h2 : (a.toNat * 2 ^ 16 + b.toNat * 2 ^ 8 + c.toNat) / 2 ^ 6 % 64 =
        b.toNat % 16 * 4 + c.toNat / 64 := by omega
    have h3 : (a.toNat * 2 ^ 16 + b.toNat * 2 ^ 8 + c.toNat) % 64 = c.toNat % 64 := by omega
    simp only [rawURLEncode, base64Quantum, base64Values, h0, h1, h2, h3, ih, List.map_append,
      List.map_cons, List.map_nil]

theorem decodeQuanta_values (s : List UInt8) : decodeQuanta (base64Values s) = some s := by
  have hbyte : ∀ (b : UInt8) (n : Nat), n % 256 = b.toNat → UInt8.ofNat n = b := by
    intro b n hn
    rw [← UInt8.toNat_inj, UInt8.toNat_ofNat', hn]
  induction s using base64Values.induct with
  | case1 => rfl
  | case2 a =>
    have ha := a.toNat_lt
    simp only [base64Values, decodeQuanta, base64Bytes, List.take_succ_cons, List.take_zero]
    rw [hbyte a _ (by omega)]
  | case3 a b =>
    have ha := a.toNat_lt
    have hb := b.toNat_lt
    simp only [base64Values, decodeQuanta, base64Bytes, List.take_succ_cons, List.take_zero]
    rw [hbyte a _ (by omega), hbyte b _ (by omega)]
  | case4 a b c rest ih =>
    have ha := a.toNat_lt
    have hb := b.toNat_lt
    have hc := c.toNat_lt
    simp only [base64Values, decodeQuanta, base64Bytes, List.cons_append, List.nil_append, ih,
      Option.map_some]
    rw [hbyte a _ (by omega), hbyte b _ (by omega), hbyte c _ (by omega)]

theorem mapM_base64Value {values : List Nat} (h : ∀ n ∈ values, n < 64) :
    (values.map base64Char).mapM base64Value = some values := by
  induction values with
  | nil => rfl
  | cons n values ih =>
    rw [List.map_cons, List.mapM_cons, base64Value_char (h n List.mem_cons_self),
      ih fun m hm => h m (List.mem_cons_of_mem n hm)]
    rfl

/-- What is encoded is read back. -/
theorem rawURLDecode_rawURLEncode (s : List UInt8) : rawURLDecode (rawURLEncode s) = some s := by
  have hlt := base64Values_lt s
  have hfilter : (rawURLEncode s).filter (fun b => b ≠ 0x0a ∧ b ≠ 0x0d) = rawURLEncode s := by
    rw [List.filter_eq_self, rawURLEncode_eq]
    intro b hb
    obtain ⟨n, hn, rfl⟩ := List.mem_map.mp hb
    exact decide_eq_true (base64Char_not_lineEnd (hlt n hn))
  have hvalues : (rawURLEncode s).mapM base64Value = some (base64Values s) := by
    rw [rawURLEncode_eq]
    exact mapM_base64Value hlt
  unfold rawURLDecode
  rw [hfilter, hvalues, Option.bind_some, decodeQuanta_values]

theorem rawURLEncode_injective : Function.Injective rawURLEncode := by
  intro s t h
  have hread := rawURLDecode_rawURLEncode s
  rw [h, rawURLDecode_rawURLEncode] at hread
  exact (Option.some.inj hread).symm

theorem unreserved_rawURLEncode (s : List UInt8) :
    ∀ b ∈ rawURLEncode s, shouldEscape b = false := by
  rw [rawURLEncode_eq]
  intro b hb
  obtain ⟨n, hn, rfl⟩ := List.mem_map.mp hb
  exact base64Char_unreserved (base64Values_lt s n hn)

theorem length_rawURLEncode (s : List UInt8) :
    (rawURLEncode s).length = s.length + (s.length + 2) / 3 := by
  rw [rawURLEncode_eq, List.length_map]
  induction s using base64Values.induct with
  | case1 => rfl
  | case2 a => simp [base64Values]
  | case3 a b => simp [base64Values]
  | case4 a b c rest ih =>
    rw [base64Values, List.length_append, ih]
    simp only [List.length_cons, List.length_nil]
    omega

end OpenHpcWeb.Go
