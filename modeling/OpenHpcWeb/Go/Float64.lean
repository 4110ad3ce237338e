/-
  float64, as far as the modelled packages compute with it: reading a number, a product, a
  comparison, and the conversion to an int64.

  A finite float64 is its value, a rational; there is one zero. An operation has the exact
  result, rounded to the nearest float64, and to even where two are as near.

  * `round_exact`: an integer of 53 bits times a power of two is a float64.
  * `readFloat_digits`: decimal digits are read as the number they write.
-/
import Mathlib.Data.Int.Log
import Mathlib.Data.Rat.Floor
import Mathlib.Tactic.FieldSimp
import OpenHpcWeb.Go.Bytes

namespace OpenHpcWeb.Go

open Bytes

inductive Float64 where
  | finite (value : ℚ)
  | inf (negative : Bool)
  | nan

/-- The nearest integer, and the even one of two. -/
def roundEven (q : ℚ) : ℤ :=
  if q - ⌊q⌋ < 1 / 2 ∨ (q - ⌊q⌋ = 1 / 2 ∧ ⌊q⌋ % 2 = 0) then ⌊q⌋ else ⌊q⌋ + 1

/-- The distance of the float64 numbers around `q` is 2 to this power. -/
def quantumExponent (q : ℚ) : ℤ := max (Int.log 2 |q| - 52) (-1074)

namespace Float64

/-- The float64 that stands for a rational. -/
def round (q : ℚ) : Float64 :=
  let value := roundEven (q / 2 ^ quantumExponent q) * (2 : ℚ) ^ quantumExponent q
  if 2 ^ 1024 ≤ |value| then .inf (q < 0) else .finite value

/-- The product, for numbers of which neither is infinite. -/
def mul : Float64 → Float64 → Float64
  | .finite x, .finite y => round (x * y)
  | _, _ => .nan

/-- `>` -/
def gt : Float64 → Float64 → Bool
  | .finite x, .finite y => y < x
  | .inf false, .finite _ => true
  | .inf false, .inf true => true
  | .finite _, .inf true => true
  | _, _ => false

@[simp] theorem mul_finite (x y : ℚ) : mul (.finite x) (.finite y) = round (x * y) := rfl

@[simp] theorem gt_finite (x y : ℚ) : gt (.finite x) (.finite y) = decide (y < x) := rfl

/-- `math.Round`: halves go away from zero. -/
def mathRound : Float64 → Float64
  | .finite q => .finite (if q < 0 then -(⌊-q + 1 / 2⌋ : ℚ) else (⌊q + 1 / 2⌋ : ℚ))
  | f => f

end Float64

/-- What `int64(f)` gives for an `f` that is out of range; Go leaves it to the processor. -/
class Int64Conversion where
  outOfRange : Float64 → GoInt

namespace Amd64

/-- CVTTSD2SQ gives the smallest int64. -/
scoped instance : Int64Conversion := ⟨fun _ => wrap64 (-2 ^ 63)⟩

end Amd64

/-- The integer part of a rational. -/
def truncate (q : ℚ) : ℤ := if q < 0 then -⌊-q⌋ else ⌊q⌋

/-- `int64(f)` -/
def Float64.toInt64 [Int64Conversion] (f : Float64) : GoInt :=
  match f with
  | .finite q => (toGoInt (truncate q)).getD (Int64Conversion.outOfRange f)
  | _ => Int64Conversion.outOfRange f

/-! ## `strconv.ParseFloat` -/

/-- The value of a digit to base 10 or 16. -/
def digitValue (base : Nat) (b : UInt8) : Option Nat :=
  if isDigit b then some (b.toNat - 0x30)
  else if base = 16 ∧ 0x61 ≤ lower b ∧ lower b ≤ 0x66 then some ((lower b).toNat - 0x57)
  else none

/-- The digits of a mantissa so far. -/
structure Mantissa where
  value : Nat
  sawDigits : Bool
  sawDot : Bool
  /-- how many digits are behind the point -/
  fraction : Nat

/-- The loop over the digits of the mantissa, with what it leaves. -/
def readMantissa (base : Nat) : Mantissa → List UInt8 → Mantissa × List UInt8
  | m, [] => (m, [])
  | m, b :: rest =>
    if b = 0x5f then readMantissa base m rest
    else if b = 0x2e then
      if m.sawDot then (m, b :: rest) else readMantissa base { m with sawDot := true } rest
    else
      match digitValue base b with
      | some v =>
        readMantissa base ⟨base * m.value + v, true, m.sawDot,
          if m.sawDot then m.fraction + 1 else m.fraction⟩ rest
      | none => (m, b :: rest)

/-- The digits of an exponent, to the end of the text; they stop counting at five. -/
def readExponentDigits (digits : List UInt8) : Option Nat :=
  if digits.head?.any isDigit ∧ digits.all (fun b => isDigit b || b = 0x5f) then
    some (digits.foldl (fun e b =>
      if b = 0x5f then e else if e < 10000 then 10 * e + (b.toNat - 0x30) else e) 0)
  else none

def readExponent : List UInt8 → Option Int
  | 0x2b :: digits => (readExponentDigits digits).map fun e => (e : Int)
  | 0x2d :: digits => (readExponentDigits digits).map fun e => -(e : Int)
  | digits => (readExponentDigits digits).map fun e => (e : Int)

/-- `underscoreOK` from the character before: an underscore stands between digits only. -/
def underscoresFrom (hex : Bool) : UInt8 → List UInt8 → Bool
  | saw, [] => saw ≠ 0x5f
  | saw, b :: rest =>
    if isDigit b ∨ (hex ∧ 0x61 ≤ lower b ∧ lower b ≤ 0x66) then underscoresFrom hex 0x30 rest
    else if b = 0x5f then saw = 0x30 && underscoresFrom hex 0x5f rest
    else saw ≠ 0x5f && underscoresFrom hex 0x21 rest

/-- `underscoreOK` without the sign; a prefix of the base counts as a digit. -/
def underscoreOK : List UInt8 → Bool
  | 0x30 :: b :: rest =>
    if lower b = 0x62 ∨ lower b = 0x6f ∨ lower b = 0x78 then
      underscoresFrom (lower b = 0x78) 0x30 rest
    else underscoresFrom false 0x5e (0x30 :: b :: rest)
  | s => underscoresFrom false 0x5e s

/-- Whether a number is negative, and the text without its sign. -/
def readSign : List UInt8 → Bool × List UInt8
  | 0x2b :: rest => (false, rest)
  | 0x2d :: rest => (true, rest)
  | s => (false, s)

/-- The base of a number, and the text without the prefix `0x`. -/
def readBase : List UInt8 → Nat × List UInt8
  | 0x30 :: b :: c :: rest =>
    if lower b = 0x78 then (16, c :: rest) else (10, 0x30 :: b :: c :: rest)
  | s => (10, s)

/-- `readFloat` without rounding: the number that a decimal or hexadecimal text writes. -/
def readFloat (s : List UInt8) : Option ℚ :=
  let signed := readSign s
  let based := readBase signed.2
  let read := readMantissa based.1 ⟨0, false, false, 0⟩ based.2
  let exponent : Option Int :=
    match read.2 with
    | [] => if based.1 = 16 then none else some 0
    | b :: rest =>
      if lower b = (if based.1 = 16 then 0x70 else 0x65) then readExponent rest else none
  if read.1.sawDigits = false then none
  else if 0x5f ∈ s ∧ underscoreOK signed.2 = false then none
  else
    exponent.map fun e =>
      (if signed.1 then -1 else 1) * (read.1.value / (based.1 : ℚ) ^ read.1.fraction) *
        (if based.1 = 16 then 2 else 10) ^ e

/-- The texts of the values that are not numbers. -/
def special (s : List UInt8) : Option Float64 :=
  let signed := readSign s
  if signed.2.map lower = ascii "inf" ∨ signed.2.map lower = ascii "infinity" then
    some (.inf signed.1)
  else if s.map lower = ascii "nan" then some .nan
  else none

/-- `strconv.ParseFloat` to 64 bits; `none` is an error. A number that is too large is one. -/
def parseFloat (s : List UInt8) : Option Float64 :=
  match readFloat s with
  | some q =>
    match Float64.round q with
    | .inf _ => none
    | f => some f
  | none => special s

/-! ## Rounding -/

@[simp] theorem roundEven_intCast (n : ℤ) : roundEven (n : ℚ) = n := by
  simp [roundEven]

theorem roundEven_le {q : ℚ} (h : q ≤ -1) : roundEven q ≤ -1 := by
  have hfloor : ⌊q⌋ ≤ -1 := by
    have hle : (⌊q⌋ : ℚ) ≤ -1 := (Int.floor_le q).trans h
    exact_mod_cast hle
  unfold roundEven
  split
  · exact hfloor
  · next hup =>
    -- only a number that is no integer is rounded up
    have hne : ⌊q⌋ ≠ -1 := by
      intro heq
      refine hup (.inl ?_)
      rw [heq]
      push_cast
      linarith
    omega

theorem quantum_pos (q : ℚ) : (0 : ℚ) < 2 ^ quantumExponent q := zpow_pos two_pos _

theorem quantumExponent_le {q : ℚ} {k : ℕ} (h : |q| < 2 ^ (53 + k)) : quantumExponent q ≤ k := by
  unfold quantumExponent
  have hlog : Int.log 2 |q| < (53 + k : ℕ) := by
    by_cases hq : q = 0
    · rw [hq, abs_zero, Int.log_zero_right]
      omega
    · rw [← Int.lt_zpow_iff_log_lt (by norm_num) (abs_pos.mpr hq), zpow_natCast]
      exact_mod_cast h
  rw [max_le_iff]
  push_cast at hlog
  constructor <;> omega

namespace Float64

/-- An integer of 53 bits times a power of two that is not too large is a float64. -/
theorem round_exact {m : ℤ} {k : ℕ} (hm : |m| < 2 ^ 53) (hk : k ≤ 900) :
    round (m * 2 ^ k) = .finite (m * 2 ^ k) := by
  have hm' : |(m : ℚ)| < 2 ^ 53 := by exact_mod_cast hm
  have habs : |(m : ℚ) * 2 ^ k| = |(m : ℚ)| * 2 ^ k := by rw [abs_mul, abs_pow, abs_two]
  have hlt : |(m : ℚ) * 2 ^ k| < 2 ^ (53 + k) := by
    rw [habs, pow_add]
    exact mul_lt_mul_of_pos_right hm' (by positivity)
  obtain ⟨j, hj⟩ := Int.le.dest (quantumExponent_le hlt)
  have hquotient : (m : ℚ) * 2 ^ k / 2 ^ quantumExponent (m * 2 ^ k) = ((m * 2 ^ j : ℤ) : ℚ) := by
    have hpower : (2 : ℚ) ^ k = 2 ^ j * 2 ^ quantumExponent (m * 2 ^ k) := by
      have hsplit : (2 : ℚ) ^ (k : ℤ) = 2 ^ (quantumExponent (m * 2 ^ k) + j) := by rw [hj]
      rw [zpow_natCast, zpow_add₀ two_ne_zero, zpow_natCast, mul_comm] at hsplit
      exact hsplit
    rw [div_eq_iff (quantum_pos _).ne', Int.cast_mul, Int.cast_pow, Int.cast_ofNat, mul_assoc,
      ← hpower]
  have hback : ((m * 2 ^ j : ℤ) : ℚ) * 2 ^ quantumExponent (m * 2 ^ k) = m * 2 ^ k := by
    rw [← hquotient, div_mul_cancel₀ _ (quantum_pos _).ne']
  unfold round
  rw [hquotient, roundEven_intCast, hback]
  have hsmall : |(m : ℚ) * 2 ^ k| < 2 ^ 1024 :=
    hlt.trans (pow_lt_pow_right₀ one_lt_two (by omega))
  exact if_neg (not_le.mpr hsmall)

/-- A number of -1 or less does not round to one that is not negative. -/
theorem round_negative {q : ℚ} (h : q ≤ -1) :
    (∃ value, round q = .finite value ∧ value < 0) ∨ ∃ negative, round q = .inf negative := by
  have hquantum : (2 : ℚ) ^ quantumExponent q ≤ -q := by
    have hone : 1 ≤ |q| := by rw [abs_of_neg (by linarith)]; linarith
    have hlog : (2 : ℚ) ^ Int.log 2 |q| ≤ |q| :=
      Int.zpow_log_le_self (by norm_num) (by linarith)
    have hlog0 : 0 ≤ Int.log 2 |q| := by
      rw [← Int.zpow_le_iff_le_log (by norm_num) (by linarith)]
      simpa using hone
    rw [← abs_of_neg (by linarith : q < 0)]
    exact (zpow_le_zpow_right₀ one_le_two (by unfold quantumExponent; omega)).trans hlog
  have hscaled : q / 2 ^ quantumExponent q ≤ -1 := by
    rw [div_le_iff₀ (quantum_pos q)]
    linarith
  have hround : (roundEven (q / 2 ^ quantumExponent q) : ℚ) < 0 := by
    have hle := roundEven_le hscaled
    exact_mod_cast (by omega : roundEven (q / 2 ^ quantumExponent q) < 0)
  unfold round
  dsimp only
  split
  · exact .inr ⟨_, rfl⟩
  · exact .inl ⟨_, rfl, mul_neg_of_neg_of_pos hround (quantum_pos q)⟩

/-- `math.MaxInt64` is not a float64: the constant is rounded up. -/
theorem round_maxInt64 : round (2 ^ 63 - 1) = .finite (2 ^ 63) := by
  have habs : |(2 ^ 63 - 1 : ℚ)| = ((2 ^ 63 - 1 : ℕ) : ℚ) := by norm_num
  have hlog : Int.log 2 |(2 ^ 63 - 1 : ℚ)| = 62 := by
    have hnat : Nat.log 2 (2 ^ 63 - 1) = 62 := by
      rw [Nat.log_eq_iff (.inl (by norm_num))]
      norm_num
    rw [habs, Int.log_natCast, hnat]
    rfl
  have hexponent : quantumExponent (2 ^ 63 - 1) = 10 := by
    rw [quantumExponent, hlog]
    norm_num
  have hfloor : ⌊(2 ^ 63 - 1 : ℚ) / 2 ^ (10 : ℤ)⌋ = 2 ^ 53 - 1 := by
    rw [Int.floor_eq_iff]
    norm_num
  have hvalue : roundEven ((2 ^ 63 - 1 : ℚ) / 2 ^ (10 : ℤ)) = 2 ^ 53 := by
    unfold roundEven
    rw [hfloor]
    norm_num
  have hsmall : ((2 ^ 53 : ℤ) : ℚ) * 2 ^ (10 : ℤ) = 2 ^ 63 := by norm_num
  unfold round
  rw [hexponent, hvalue, hsmall]
  refine if_neg (not_le.mpr ?_)
  rw [abs_of_pos (by norm_num)]
  exact pow_lt_pow_right₀ one_lt_two (by norm_num)

theorem mathRound_intCast {n : ℤ} (h : 0 ≤ n) : mathRound (.finite n) = .finite n := by
  have hfloor : ⌊(n : ℚ) + 1 / 2⌋ = n := by
    rw [Int.floor_intCast_add]
    norm_num
  unfold mathRound
  dsimp only
  rw [if_neg (by exact_mod_cast not_lt.mpr h), hfloor]

theorem truncate_intCast {n : ℤ} (h : 0 ≤ n) : truncate (n : ℚ) = n := by
  unfold truncate
  rw [if_neg (by exact_mod_cast not_lt.mpr h), Int.floor_intCast]

theorem toInt64_of_le [Int64Conversion] {n : ℤ} (h : 2 ^ 63 ≤ n) :
    toInt64 (.finite n) = Int64Conversion.outOfRange (.finite n) := by
  unfold toInt64
  dsimp only
  rw [truncate_intCast (by omega), toGoInt, dif_neg (by omega)]
  rfl

theorem toInt64_intCast [Int64Conversion] {n : ℤ} (h : 0 ≤ n) (hlt : n < 2 ^ 63) :
    (toInt64 (.finite n)).val = n := by
  unfold toInt64
  dsimp only
  rw [truncate_intCast h, toGoInt, dif_pos ⟨by omega, hlt⟩]
  rfl

end Float64

/-! ## Decimal digits -/

theorem readMantissa_digits {digits : List UInt8} (h : ∀ b ∈ digits, isDigit b = true)
    (m : Mantissa) (hdot : m.sawDot = false) :
    readMantissa 10 m digits =
      (⟨digits.foldl (fun n b => 10 * n + (b.toNat - 0x30)) m.value,
        m.sawDigits || !digits.isEmpty, false, m.fraction⟩, []) := by
  induction digits generalizing m with
  | nil =>
    cases m
    simp_all [readMantissa]
  | cons b digits ih =>
    have hb := h b List.mem_cons_self
    have hunderscore : b ≠ 0x5f := by rintro rfl; exact absurd hb (by decide)
    have hpoint : b ≠ 0x2e := by rintro rfl; exact absurd hb (by decide)
    have hvalue : digitValue 10 b = some (b.toNat - 0x30) := by rw [digitValue, if_pos hb]
    rw [readMantissa, if_neg hunderscore, if_neg hpoint, hvalue]
    dsimp only
    rw [ih (fun b' hb' => h b' (List.mem_cons_of_mem b hb'))
      ⟨10 * m.value + (b.toNat - 0x30), true, m.sawDot, _⟩ hdot]
    simp [hdot]

/-- Decimal digits are read as the number they write. -/
theorem readFloat_digits {digits : List UInt8} (hne : digits ≠ [])
    (h : ∀ b ∈ digits, isDigit b = true) : readFloat digits = some (digitsValue digits : ℚ) := by
  have hsign : readSign digits = (false, digits) := by
    unfold readSign
    split
    · next rest => exact absurd (h 0x2b List.mem_cons_self) (by decide)
    · next rest => exact absurd (h 0x2d List.mem_cons_self) (by decide)
    · rfl
  have hbase : readBase digits = (10, digits) := by
    unfold readBase
    split
    · next b c rest =>
      have hb := h b (by simp)
      rw [if_neg]
      intro hx
      rw [isDigit_lower hb] at hx
      rw [hx] at hb
      exact absurd hb (by decide)
    · rfl
  have hunderscore : (0x5f : UInt8) ∉ digits := by
    intro hmem
    exact absurd (h _ hmem) (by decide)
  unfold readFloat
  dsimp only
  rw [hsign, hbase, readMantissa_digits h _ rfl]
  simp [hunderscore, hne, digitsValue]

end OpenHpcWeb.Go
