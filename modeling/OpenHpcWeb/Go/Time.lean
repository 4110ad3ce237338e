/-
  `time.RFC3339Nano`: a time as text and back.

  A time is its nanoseconds since the Unix epoch, in UTC. `parseRFC3339Nano` is the reader that
  `time.Parse` uses for this layout; what it refuses is an error here. (`time.Parse` then tries
  a slower and more lenient reader, for texts that no time formats to.)

  * `parse_format`: a time of the years 0 to 9999 is read back.
-/
import OpenHpcWeb.Go.Calendar
import Mathlib.Algebra.Order.Ring.Nat
import Mathlib.Data.List.DropRight
import Mathlib.Data.List.Basic

namespace OpenHpcWeb.Go

/-! ## Digits -/

/-- The last `width` digits of a number. -/
def fixedDigits : Nat → Nat → List Char
  | 0, _ => []
  | width + 1, n => fixedDigits width (n / 10) ++ [Nat.digitChar (n % 10)]

@[simp] theorem length_fixedDigits (width n : Nat) : (fixedDigits width n).length = width := by
  induction width generalizing n with
  | zero => rfl
  | succ width ih => rw [fixedDigits, List.length_append, ih, List.length_singleton]

theorem isDigit_fixedDigits {width n : Nat} : ∀ c ∈ fixedDigits width n, c.isDigit = true := by
  induction width generalizing n with
  | zero => exact fun c hc => absurd hc List.not_mem_nil
  | succ width ih =>
    intro c hc
    rcases List.mem_append.mp hc with hc | hc
    · exact ih c hc
    · rw [List.mem_singleton.mp hc, Nat.isDigit_digitChar, decide_eq_true_eq]
      omega

theorem ofDigitChars_fixedDigits {width n : Nat} (h : n < 10 ^ width) :
    Nat.ofDigitChars 10 (fixedDigits width n) 0 = n := by
  induction width generalizing n with
  | zero =>
    have hzero : n = 0 := by simpa using h
    rw [hzero]
    rfl
  | succ width ih =>
    have hdiv : n / 10 < 10 ^ width := by
      rw [Nat.pow_succ] at h
      omega
    rw [fixedDigits, Nat.ofDigitChars_append, ih hdiv,
      Nat.ofDigitChars_cons_digitChar_of_lt_ten (by omega), Nat.ofDigitChars_nil]
    omega

/-- The number that digits write, if it lies between the bounds. -/
def parseUint (digits : List Char) (min max : Nat) : Option Nat :=
  if digits.all Char.isDigit ∧ min ≤ Nat.ofDigitChars 10 digits 0 ∧
      Nat.ofDigitChars 10 digits 0 ≤ max then
    some (Nat.ofDigitChars 10 digits 0)
  else none

theorem parseUint_fixedDigits {width n min max : Nat} (h : n < 10 ^ width) (hmin : min ≤ n)
    (hmax : n ≤ max) : parseUint (fixedDigits width n) min max = some n := by
  have hdigits : (fixedDigits width n).all Char.isDigit = true :=
    List.all_eq_true.mpr isDigit_fixedDigits
  unfold parseUint
  rw [ofDigitChars_fixedDigits h, if_pos ⟨hdigits, hmin, hmax⟩]

/-! ## Fractions of a second -/

/-- The digits of the nanoseconds without the zeros at the end. -/
def fractionDigits (nsec : Nat) : List Char :=
  (fixedDigits 9 nsec).rdropWhile fun c => c = '0'

/-- `.999999999` in a layout. -/
def formatFraction (nsec : Nat) : List Char :=
  if fractionDigits nsec = [] then [] else '.' :: fractionDigits nsec

/-- `parseNanoseconds` of digits; more than nine are cut. -/
def parseNanoseconds (digits : List Char) : Nat :=
  Nat.ofDigitChars 10 (digits.take 9) 0 * 10 ^ (9 - digits.length)

/-- The nanoseconds at the front of a text, and the rest. -/
def parseFraction (text : List Char) : Nat × List Char :=
  match text with
  | '.' :: rest =>
    let digits := rest.takeWhile Char.isDigit
    if digits = [] then (0, text) else (parseNanoseconds digits, rest.dropWhile Char.isDigit)
  | _ => (0, text)

theorem fractionDigits_append (nsec : Nat) :
    fixedDigits 9 nsec = fractionDigits nsec ++ List.replicate (9 - (fractionDigits nsec).length) '0' ∧
      (fractionDigits nsec).length ≤ 9 := by
  have hsplit := List.rdropWhile_append_rtakeWhile (p := fun c => c = '0') (l := fixedDigits 9 nsec)
  have hlength := congrArg List.length hsplit
  rw [List.length_append, length_fixedDigits] at hlength
  have hzeros : (fixedDigits 9 nsec).rtakeWhile (fun c => c = '0') =
      List.replicate (9 - (fractionDigits nsec).length) '0' := by
    rw [List.eq_replicate_iff]
    refine ⟨?_, fun c hc => by simpa using List.mem_rtakeWhile_imp hc⟩
    unfold fractionDigits
    omega
  refine ⟨?_, ?_⟩
  · rw [← hzeros]
    exact hsplit.symm
  · unfold fractionDigits
    omega

theorem isDigit_fractionDigits (nsec : Nat) : ∀ c ∈ fractionDigits nsec, c.isDigit = true := by
  intro c hc
  have hmem : c ∈ fixedDigits 9 nsec := by
    rw [(fractionDigits_append nsec).1]
    exact List.mem_append_left _ hc
  exact isDigit_fixedDigits c hmem

theorem parseNanoseconds_fractionDigits {nsec : Nat} (h : nsec < 10 ^ 9) :
    parseNanoseconds (fractionDigits nsec) = nsec := by
  obtain ⟨happend, hlength⟩ := fractionDigits_append nsec
  have hvalue := ofDigitChars_fixedDigits h
  rw [happend, Nat.ofDigitChars_append, Nat.ofDigitChars_replicate_zero] at hvalue
  unfold parseNanoseconds
  rw [List.take_of_length_le hlength, Nat.mul_comm]
  exact hvalue

/-- What follows the fraction in a formatted time: no digit. -/
theorem parseFraction_format {nsec : Nat} (h : nsec < 10 ^ 9) :
    parseFraction (formatFraction nsec ++ ['Z']) = (nsec, ['Z']) := by
  unfold formatFraction
  by_cases hnone : fractionDigits nsec = []
  · have hzero := parseNanoseconds_fractionDigits h
    rw [hnone] at hzero
    rw [if_pos hnone, ← hzero]
    rfl
  · have htake : (fractionDigits nsec ++ ['Z']).takeWhile Char.isDigit = fractionDigits nsec := by
      rw [List.takeWhile_append_of_pos (isDigit_fractionDigits nsec)]
      exact List.append_nil _
    have hdrop : (fractionDigits nsec ++ ['Z']).dropWhile Char.isDigit = ['Z'] := by
      rw [List.dropWhile_append_of_pos (isDigit_fractionDigits nsec)]
      rfl
    rw [if_neg hnone]
    simp only [parseFraction, List.cons_append]
    rw [htake, hdrop, if_neg hnone, parseNanoseconds_fractionDigits h]

/-! ## Times -/

/-- The day of the Unix epoch. -/
def unixDay : Int := 719162

example : civil unixDay = ⟨1970, 1, 1⟩ := by decide +kernel

/-- `time.Date` in UTC. -/
def dateTime (date : Date) (hour min sec nsec : Nat) : Int :=
  (((daysOf date - unixDay) * 86400 + hour * 3600 + min * 60 + sec) * 1000000000) + nsec

/-- The date of a time. -/
def dateOf (t : Int) : Date := civil (t / 1000000000 / 86400 + unixDay)

/-- The second of the day of a time. -/
def secondOfDay (t : Int) : Nat := (t / 1000000000 % 86400).toNat

def nanosecondOf (t : Int) : Nat := (t % 1000000000).toNat

theorem secondOfDay_lt (t : Int) : secondOfDay t < 86400 := by
  unfold secondOfDay
  omega

theorem nanosecondOf_lt (t : Int) : nanosecondOf t < 10 ^ 9 := by
  unfold nanosecondOf
  omega

/-- A time is the time of its date, hour, minute, second and nanosecond. -/
theorem dateTime_of (t : Int) : dateTime (dateOf t) (secondOfDay t / 3600)
    (secondOfDay t % 3600 / 60) (secondOfDay t % 60) (nanosecondOf t) = t := by
  unfold dateTime dateOf
  rw [daysOf_civil]
  unfold secondOfDay nanosecondOf
  omega

/-- `appendInt` -/
def appendInt (x : Int) (width : Nat) : List Char :=
  let digits :=
    if x.natAbs < 10 ^ width then fixedDigits width x.natAbs else Nat.toDigits 10 x.natAbs
  if x < 0 then '-' :: digits else digits

/-- `Format` with the layout `time.RFC3339Nano`, as its characters. -/
def rfc3339Nano (t : Int) : List Char :=
  appendInt (dateOf t).year 4 ++
    ('-' :: fixedDigits 2 (dateOf t).month ++
      ('-' :: fixedDigits 2 (dateOf t).day ++
        ('T' :: fixedDigits 2 (secondOfDay t / 3600) ++
          (':' :: fixedDigits 2 (secondOfDay t % 3600 / 60) ++
            (':' :: fixedDigits 2 (secondOfDay t % 60) ++
              (formatFraction (nanosecondOf t) ++ ['Z']))))))

def formatRFC3339Nano (t : Int) : String := String.ofList (rfc3339Nano t)

/-- `Format` with the layout `time.RFC3339`, which leaves the fraction of a second out. -/
def formatRFC3339 (t : Int) : String := formatRFC3339Nano (t / 1000000000 * 1000000000)

/-- The offset of a zone in seconds. -/
def parseZone : List Char → Option Int
  | ['Z'] => some 0
  | [sign, h, h', colon, m, m'] =>
    match parseUint [h, h'] 0 23, parseUint [m, m'] 0 59 with
    | some hour, some min =>
      if (sign = '+' ∨ sign = '-') ∧ colon = ':' then
        some ((if sign = '-' then -1 else 1) * ((hour * 60 + min) * 60))
      else none
    | _, _ => none
  | _ => none

/-- `time.Parse` with the layout `time.RFC3339Nano`; `none` is an error. -/
def parseRFC3339Nano (value : String) : Option Int := do
  let s := value.toList
  let year ← parseUint (s.take 4) 0 9999
  let month ← parseUint ((s.drop 5).take 2) 1 12
  let day ← parseUint ((s.drop 8).take 2) 1 (daysInMonth (isLeap year) month)
  let hour ← parseUint ((s.drop 11).take 2) 0 23
  let min ← parseUint ((s.drop 14).take 2) 0 59
  let sec ← parseUint ((s.drop 17).take 2) 0 59
  if 19 ≤ s.length ∧ s[4]? = some '-' ∧ s[7]? = some '-' ∧ s[10]? = some 'T' ∧
      s[13]? = some ':' ∧ s[16]? = some ':' then
    let fraction := parseFraction (s.drop 19)
    let zone ← parseZone fraction.2
    some (dateTime ⟨year, month, day⟩ hour min sec fraction.1 - zone * 1000000000)
  else none

example : formatRFC3339Nano 1709210096000500000 = "2024-02-29T12:34:56.0005Z" := by
  decide +kernel

/-- A year that RFC 3339 can write. -/
def FourDigitYear (t : Int) : Prop := 0 ≤ (dateOf t).year ∧ (dateOf t).year ≤ 9999

instance (t : Int) : Decidable (FourDigitYear t) := inferInstanceAs (Decidable (_ ∧ _))

/-- The fields of a text by their places. -/
structure Fields (s y m d h n c rest : List Char) : Prop where
  length : 19 ≤ s.length
  year : s.take 4 = y
  month : (s.drop 5).take 2 = m
  day : (s.drop 8).take 2 = d
  hour : (s.drop 11).take 2 = h
  min : (s.drop 14).take 2 = n
  sec : (s.drop 17).take 2 = c
  rest : s.drop 19 = rest
  marks : s[4]? = some '-' ∧ s[7]? = some '-' ∧ s[10]? = some 'T' ∧ s[13]? = some ':' ∧
    s[16]? = some ':'

theorem fields {y m d h n c : List Char} (hy : y.length = 4) (hm : m.length = 2)
    (hd : d.length = 2) (hh : h.length = 2) (hn : n.length = 2) (hc : c.length = 2)
    (rest : List Char) :
    Fields (y ++ ('-' :: m ++ ('-' :: d ++ ('T' :: h ++ (':' :: n ++ (':' :: c ++ rest))))))
      y m d h n c rest := by
  obtain ⟨m₁, m₂, rfl⟩ := List.length_eq_two.mp hm
  obtain ⟨d₁, d₂, rfl⟩ := List.length_eq_two.mp hd
  obtain ⟨h₁, h₂, rfl⟩ := List.length_eq_two.mp hh
  obtain ⟨n₁, n₂, rfl⟩ := List.length_eq_two.mp hn
  obtain ⟨c₁, c₂, rfl⟩ := List.length_eq_two.mp hc
  match y, hy with
  | [y₁, y₂, y₃, y₄], _ =>
    exact ⟨by simp, rfl, rfl, rfl, rfl, rfl, rfl, rfl, rfl, rfl, rfl, rfl, rfl⟩

theorem appendInt_year {x : Int} (h0 : 0 ≤ x) (h1 : x ≤ 9999) :
    appendInt x 4 = fixedDigits 4 x.toNat := by
  have hnat : x.natAbs = x.toNat := by omega
  have hlt : x.toNat < 10 ^ 4 := by omega
  have hneg : ¬ x < 0 := by omega
  unfold appendInt
  rw [hnat, if_pos hlt, if_neg hneg]

/-- The bounds of the fields of a time whose year has four digits. -/
structure Bounds (date : Date) (second : Nat) : Prop where
  year : date.year.toNat < 10 ^ 4
  month : date.month < 10 ^ 2
  day : date.day < 10 ^ 2
  hour : second / 3600 ≤ 23
  min : second % 3600 / 60 ≤ 59
  sec : second % 60 ≤ 59

theorem bounds_of {t : Int} (ht : FourDigitYear t) : Bounds (dateOf t) (secondOfDay t) := by
  have hvalid : (dateOf t).Valid := civil_valid _
  have hmonth := hvalid.month
  have hday := hvalid.day
  have hdays := daysInMonth_le (isLeap (dateOf t).year) (dateOf t).month (by omega)
  have hsecond := secondOfDay_lt t
  have hyear := ht.2
  constructor
  · omega
  · omega
  · omega
  · omega
  · omega
  · omega

/-- A time whose year has four digits is read back from its text. -/
theorem parse_format {t : Int} (ht : FourDigitYear t) :
    parseRFC3339Nano (formatRFC3339Nano t) = some t := by
  have hvalid : (dateOf t).Valid := civil_valid _
  have hbounds := bounds_of ht
  have hcast : ((dateOf t).year.toNat : Int) = (dateOf t).year := Int.toNat_of_nonneg ht.1
  have htext : (formatRFC3339Nano t).toList = rfc3339Nano t := String.toList_ofList
  have hfields := fields (length_fixedDigits 4 (dateOf t).year.toNat)
    (length_fixedDigits 2 (dateOf t).month)
    (length_fixedDigits 2 (dateOf t).day) (length_fixedDigits 2 (secondOfDay t / 3600))
    (length_fixedDigits 2 (secondOfDay t % 3600 / 60))
    (length_fixedDigits 2 (secondOfDay t % 60)) (formatFraction (nanosecondOf t) ++ ['Z'])
  have hlist : rfc3339Nano t = fixedDigits 4 (dateOf t).year.toNat ++
      ('-' :: fixedDigits 2 (dateOf t).month ++
        ('-' :: fixedDigits 2 (dateOf t).day ++
          ('T' :: fixedDigits 2 (secondOfDay t / 3600) ++
            (':' :: fixedDigits 2 (secondOfDay t % 3600 / 60) ++
              (':' :: fixedDigits 2 (secondOfDay t % 60) ++
                (formatFraction (nanosecondOf t) ++ ['Z'])))))) := by
    unfold rfc3339Nano
    rw [appendInt_year ht.1 ht.2]
  rw [← hlist] at hfields
  have hyear : parseUint (fixedDigits 4 (dateOf t).year.toNat) 0 9999 =
      some (dateOf t).year.toNat :=
    parseUint_fixedDigits hbounds.year (Nat.zero_le _) (by have := hbounds.year; omega)
  have hmonth : parseUint (fixedDigits 2 (dateOf t).month) 1 12 = some (dateOf t).month :=
    parseUint_fixedDigits hbounds.month hvalid.month.1 hvalid.month.2
  have hday : parseUint (fixedDigits 2 (dateOf t).day) 1
      (daysInMonth (isLeap (dateOf t).year) (dateOf t).month) = some (dateOf t).day :=
    parseUint_fixedDigits hbounds.day hvalid.day.1 hvalid.day.2
  have hhour : parseUint (fixedDigits 2 (secondOfDay t / 3600)) 0 23 =
      some (secondOfDay t / 3600) :=
    parseUint_fixedDigits (by have := hbounds.hour; omega) (Nat.zero_le _) hbounds.hour
  have hmin : parseUint (fixedDigits 2 (secondOfDay t % 3600 / 60)) 0 59 =
      some (secondOfDay t % 3600 / 60) :=
    parseUint_fixedDigits (by have := hbounds.min; omega) (Nat.zero_le _) hbounds.min
  have hsec : parseUint (fixedDigits 2 (secondOfDay t % 60)) 0 59 = some (secondOfDay t % 60) :=
    parseUint_fixedDigits (by have := hbounds.sec; omega) (Nat.zero_le _) hbounds.sec
  have hfraction := parseFraction_format (nanosecondOf_lt t)
  have htime := dateTime_of t
  unfold parseRFC3339Nano
  dsimp only
  rw [htext, hfields.year, hfields.month, hfields.day, hfields.hour, hfields.min, hfields.sec,
    hfields.rest, hyear, hmonth]
  simp only [Option.bind_eq_bind, Option.bind_some]
  rw [hcast, hday, hhour, hmin, hsec]
  simp only [Option.bind_some]
  rw [if_pos ⟨hfields.length, hfields.marks⟩, hfraction]
  simp only [parseZone, Option.bind_some]
  rw [htime]
  simp

end OpenHpcWeb.Go
