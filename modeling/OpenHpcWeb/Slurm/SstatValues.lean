/-
  The values of internal/slurm/resource_usage.go: the durations and the sizes that sstat writes,
  and `formatSlurmDuration` of details.go, which writes durations.

  * `sstatTotal_eq`: the sum of a duration does not overflow on the way.
  * `sstatDuration_exact`: the durations are the grammar `Duration`, with their exact total.
  * `sstatSize_exact_iff`: a size is exact unless it is 2^63, which the bound lets through.
-/
import Mathlib.Data.List.Basic
import OpenHpcWeb.Go.Float64
import OpenHpcWeb.Go.Time

namespace OpenHpcWeb.Slurm

open OpenHpcWeb.Go hiding equalFold trimSpace parseInt
open OpenHpcWeb.Go.Bytes

def isUnavailableSstatValue (value : List UInt8) : Bool :=
  value = [] || equalFold value (ascii "N/A") || equalFold value (ascii "Unknown")

/-! ## Durations -/

/-- A field of a duration: a number that is not negative. -/
def sstatField (part : List UInt8) : Option GoInt :=
  (parseInt part).filter fun n => 0 ≤ n.val

/-- The days, and the time of a day. -/
def sstatDays (value : List UInt8) : Option (GoInt × List UInt8) :=
  match split value 0x2d with
  | [timePart] => some (wrap64 0, timePart)
  | [dayPart, timePart] => (sstatField dayPart).map fun days => (days, timePart)
  | _ => none

/-- The hours, minutes and seconds. -/
def sstatClock (timePart : List UInt8) : Option (GoInt × GoInt × GoInt) :=
  match (split timePart 0x3a).mapM sstatField with
  | some [minutes, seconds] => some (wrap64 0, minutes, seconds)
  | some [hours, minutes, seconds] => some (hours, minutes, seconds)
  | _ => none

/-- The sum of the fields. What an int64 operation leaves of a result is a parameter. -/
def sstatTotal (int64 : Int → GoInt) (days hours minutes seconds : GoInt) : Except String GoInt :=
  if 60 ≤ minutes.val ∨ 60 ≤ seconds.val ∨ (2 ^ 63 - 1) / 86400 < days.val ∨
      (2 ^ 63 - 1) / 3600 < hours.val then
    .error "sstat CPU time is invalid"
  else
    let total := int64 (days.val * 86400)
    if (int64 (2 ^ 63 - 1 - total.val)).val < (int64 (hours.val * 3600)).val then
      .error "sstat CPU time exceeds supported range"
    else
      let total := int64 (total.val + (int64 (hours.val * 3600)).val)
      let room := int64 (2 ^ 63 - 1 - total.val)
      let minuteSeconds := int64 (minutes.val * 60)
      if (int64 (room.val.tdiv 60)).val < minutes.val ∨
          (int64 (room.val - minuteSeconds.val)).val < seconds.val then
        .error "sstat CPU time exceeds supported range"
      else .ok (int64 ((int64 (total.val + minuteSeconds.val)).val + seconds.val))

/-- `parseSstatDuration`, for any arithmetic. -/
def parseSstatDurationWith (int64 : Int → GoInt) (value : List UInt8) : Except String GoInt :=
  let value := trimSpace value
  if isUnavailableSstatValue value then .ok (wrap64 0)
  else
    match sstatDays value with
    | none => .error "sstat CPU time is invalid"
    | some (days, timePart) =>
      match sstatClock timePart with
      | none => .error "sstat CPU time is invalid"
      | some (hours, minutes, seconds) => sstatTotal int64 days hours minutes seconds

def parseSstatDuration (value : List UInt8) : Except String GoInt :=
  parseSstatDurationWith wrap64 value

/-- The verb `%02d`. -/
def sprintf02d (n : Int) : List Char :=
  if n < 0 then '-' :: Nat.toDigits 10 n.natAbs else (Nat.toDigits 10 n.natAbs).leftpad 2 '0'

/-- The verb `%d`. -/
def sprintfd (n : Int) : List Char :=
  if n < 0 then '-' :: Nat.toDigits 10 n.natAbs else Nat.toDigits 10 n.natAbs

/-- `formatSlurmDuration`, as its characters. -/
def slurmDuration (seconds : GoInt) : List Char :=
  let days := seconds.val.tdiv 86400
  let hours := (seconds.val.tmod 86400).tdiv 3600
  let minutes := (seconds.val.tmod 3600).tdiv 60
  let remainingSeconds := seconds.val.tmod 60
  if 0 < days then
    sprintfd days ++ '-' :: (sprintf02d hours ++ ':' :: (sprintf02d minutes ++
      ':' :: sprintf02d remainingSeconds))
  else if 0 < hours then
    sprintfd hours ++ ':' :: (sprintf02d minutes ++ ':' :: sprintf02d remainingSeconds)
  else sprintfd minutes ++ ':' :: sprintf02d remainingSeconds

def formatSlurmDuration (seconds : GoInt) : String := String.ofList (slurmDuration seconds)

example : (parseSstatDuration (ascii " 38-21:38:19 ")).toOption.map Subtype.val = some 3361099 ∧
    formatSlurmDuration (wrap64 3361099) = "38-21:38:19" := by
  decide +kernel

/-! ## Sizes -/

/-- The bytes that a size with a unit stands for, which are compared with the largest int64. -/
def sstatBytes (value : List UInt8) : Except String Float64 :=
  match value.getLast?.bind (ascii "KMGTPE").idxOf? with
  | none => .error "sstat memory size has an unsupported unit"
  | some index =>
    match parseFloat value.dropLast with
    | some (.finite number) =>
      if number < 0 then .error "sstat memory size is invalid"
      else
        let bytes := Float64.mul (.finite number) (.finite (1024 ^ (index + 1)))
        if bytes.gt (Float64.round (2 ^ 63 - 1)) then
          .error "sstat memory size exceeds supported range"
        else .ok bytes
    | _ => .error "sstat memory size is invalid"

def parseSstatSize [Int64Conversion] (value : List UInt8) : Except String GoInt :=
  let value := trimSpace value
  if value = ascii "0" ∨ isUnavailableSstatValue value then .ok (wrap64 0)
  else (sstatBytes value).map fun bytes => bytes.mathRound.toInt64

/-! ## The grammar of durations -/

/-- A field with the character behind it, which may be left out for zero. -/
def OptionalField (s : List UInt8) (sep : UInt8) (n : Nat) : Prop :=
  (s = [] ∧ n = 0) ∨ ∃ field, s = field ++ [sep] ∧ Numeral field n

/-- `[hours:]minutes:seconds` -/
def Clock (s : List UInt8) (hours minutes seconds : Nat) : Prop :=
  ∃ hourPart minutePart secondPart, s = hourPart ++ (minutePart ++ 0x3a :: secondPart) ∧
    OptionalField hourPart 0x3a hours ∧ Numeral minutePart minutes ∧ Numeral secondPart seconds

/-- `[days-][hours:]minutes:seconds`, and the seconds in all. -/
def Duration (s : List UInt8) (total : Nat) : Prop :=
  ∃ dayPart timePart days hours minutes seconds, s = dayPart ++ timePart ∧
    OptionalField dayPart 0x2d days ∧ Clock timePart hours minutes seconds ∧
    minutes < 60 ∧ seconds < 60 ∧ total = days * 86400 + hours * 3600 + minutes * 60 + seconds

/-- Results in the range of an int64 are left as they are. -/
def ExactInRange (int64 : Int → GoInt) : Prop :=
  ∀ n, -2 ^ 63 ≤ n → n < 2 ^ 63 → (int64 n).val = n

theorem wrap64_exactInRange : ExactInRange wrap64 := fun _ => wrap64_val

/-- The sum of the fields is exact, and no operation on the way leaves the range. -/
theorem sstatTotal_eq {int64 : Int → GoInt} (hexact : ExactInRange int64)
    {days hours minutes seconds : GoInt} (hdays : 0 ≤ days.val) (hhours : 0 ≤ hours.val)
    (hminutes : 0 ≤ minutes.val) (hseconds : 0 ≤ seconds.val) :
    sstatTotal int64 days hours minutes seconds =
      if 60 ≤ minutes.val ∨ 60 ≤ seconds.val ∨ (2 ^ 63 - 1) / 86400 < days.val ∨
          (2 ^ 63 - 1) / 3600 < hours.val then
        .error "sstat CPU time is invalid"
      else
        match toGoInt (days.val * 86400 + hours.val * 3600 + minutes.val * 60 + seconds.val) with
        | some total => .ok total
        | none => .error "sstat CPU time exceeds supported range" := by
  unfold sstatTotal
  split
  · rfl
  · next hin =>
    simp only [not_or, not_le, not_lt] at hin
    obtain ⟨hm, hs, hd, hh⟩ := hin
    have hdayTotal := hexact (days.val * 86400) (by omega) (by omega)
    have hhourTotal := hexact (hours.val * 3600) (by omega) (by omega)
    have hminuteTotal := hexact (minutes.val * 60) (by omega) (by omega)
    have hroom := hexact (2 ^ 63 - 1 - days.val * 86400) (by omega) (by omega)
    dsimp only
    rw [hdayTotal, hhourTotal, hroom]
    split
    · next hover =>
      rw [toGoInt, dif_neg (by omega)]
    · next hfits =>
      have htotal := hexact (days.val * 86400 + hours.val * 3600) (by omega) (by omega)
      have hrest := hexact (2 ^ 63 - 1 - (days.val * 86400 + hours.val * 3600)) (by omega)
        (by omega)
      have hquotient : (2 ^ 63 - 1 - (days.val * 86400 + hours.val * 3600)).tdiv 60 =
          (2 ^ 63 - 1 - (days.val * 86400 + hours.val * 3600)) / 60 :=
        Int.tdiv_eq_ediv_of_nonneg (by omega)
      have hminuteRoom := hexact ((2 ^ 63 - 1 - (days.val * 86400 + hours.val * 3600)) / 60)
        (by omega) (by omega)
      have hsecondRoom := hexact
        (2 ^ 63 - 1 - (days.val * 86400 + hours.val * 3600) - minutes.val * 60) (by omega)
        (by omega)
      rw [htotal, hrest, hquotient, hminuteRoom, hminuteTotal, hsecondRoom]
      split
      · next hover =>
        rw [toGoInt, dif_neg (by omega)]
      · next hfits' =>
        have hsum := hexact (days.val * 86400 + hours.val * 3600 + minutes.val * 60) (by omega)
          (by omega)
        have hall := hexact
          (days.val * 86400 + hours.val * 3600 + minutes.val * 60 + seconds.val) (by omega)
          (by omega)
        rw [hsum, toGoInt, dif_pos (by omega)]
        exact congrArg Except.ok (Subtype.ext hall)

theorem sstatTotal_ok_iff {int64 : Int → GoInt} (hexact : ExactInRange int64)
    {days hours minutes seconds n : GoInt} (hdays : 0 ≤ days.val) (hhours : 0 ≤ hours.val)
    (hminutes : 0 ≤ minutes.val) (hseconds : 0 ≤ seconds.val) :
    sstatTotal int64 days hours minutes seconds = .ok n ↔
      minutes.val < 60 ∧ seconds.val < 60 ∧
        n.val = days.val * 86400 + hours.val * 3600 + minutes.val * 60 + seconds.val := by
  have hle := n.2.1
  have hlt := n.2.2
  rw [sstatTotal_eq hexact hdays hhours hminutes hseconds]
  split
  · next hinvalid =>
    constructor
    · intro h; cases h
    · intro h
      omega
  · next hvalid =>
    unfold toGoInt
    split
    · next total htotal =>
      split at htotal
      · next hrange =>
        obtain rfl := Option.some.inj htotal
        rw [Except.ok.injEq, Subtype.ext_iff]
        constructor
        · exact fun h => ⟨by omega, by omega, h.symm⟩
        · exact fun h => h.2.2.symm
      · cases htotal
    · next htotal =>
      split at htotal
      · cases htotal
      · next hrange =>
        constructor
        · intro h; cases h
        · intro h
          omega

theorem sstatField_eq_some_iff {part : List UInt8} (hminus : (0x2d : UInt8) ∉ part) {n : GoInt} :
    sstatField part = some n ↔ ∃ m : Nat, Numeral part m ∧ n.val = m := by
  have hhead : part.head? ≠ some 0x2d := fun h => hminus (List.mem_of_mem_head? h)
  unfold sstatField
  rw [Option.filter_eq_some_iff, parseInt_eq_some_iff hhead]
  constructor
  · exact fun h => h.1
  · rintro ⟨m, hm, hn⟩
    exact ⟨⟨m, hm, hn⟩, by simp [hn]⟩

theorem minus_not_mem {part : List UInt8} {m : Nat} (h : Numeral part m) :
    (0x2d : UInt8) ∉ part := h.not_mem (by decide) (by decide)

theorem colon_not_mem {part : List UInt8} {m : Nat} (h : Numeral part m) :
    (0x3a : UInt8) ∉ part := h.not_mem (by decide) (by decide)

theorem sstatDays_eq_some_iff {value timePart : List UInt8} {days : GoInt} :
    sstatDays value = some (days, timePart) ↔ ∃ dayPart, ∃ d : Nat, value = dayPart ++ timePart ∧
      OptionalField dayPart 0x2d d ∧ (0x2d : UInt8) ∉ timePart ∧ days.val = d := by
  have hzero : (wrap64 0).val = ((0 : Nat) : Int) := wrap64_val (by omega) (by omega)
  unfold sstatDays
  constructor
  · intro h
    split at h
    · next part hsplit =>
      obtain ⟨rfl, rfl⟩ := Prod.mk.inj (Option.some.inj h)
      obtain ⟨-, hmem, hvalue⟩ := split_eq_iff.mp hsplit
      exact ⟨[], 0, by simpa [List.intercalate] using hvalue, .inl ⟨rfl, rfl⟩,
        hmem part List.mem_cons_self, hzero⟩
    · next dayPart part hsplit =>
      obtain ⟨n, hn, hpair⟩ := Option.map_eq_some_iff.mp h
      obtain ⟨rfl, rfl⟩ := Prod.mk.inj hpair
      obtain ⟨-, hmem, hvalue⟩ := split_eq_iff.mp hsplit
      obtain ⟨d, hd, hval⟩ := (sstatField_eq_some_iff (hmem dayPart (by simp))).mp hn
      exact ⟨dayPart ++ [0x2d], d, by simpa [List.intercalate] using hvalue, .inr ⟨_, rfl, hd⟩,
        hmem part (by simp), hval⟩
    · cases h
  · rintro ⟨dayPart, d, rfl, hday, htime, hval⟩
    rcases hday with ⟨rfl, rfl⟩ | ⟨field, rfl, hfield⟩
    · have hsplit : split ([] ++ timePart) 0x2d = [timePart] :=
        split_eq_iff.mpr ⟨List.cons_ne_nil _ _, by simpa using htime, by simp [List.intercalate]⟩
      rw [hsplit, Option.some.injEq, Prod.mk.injEq, Subtype.ext_iff]
      exact ⟨hzero.trans hval.symm, rfl⟩
    · have hsplit : split (field ++ [0x2d] ++ timePart) 0x2d = [field, timePart] :=
        split_eq_iff.mpr ⟨List.cons_ne_nil _ _, by simpa using ⟨minus_not_mem hfield, htime⟩,
          by simp [List.intercalate]⟩
      have hdays := (sstatField_eq_some_iff (minus_not_mem hfield)).mpr ⟨d, hfield, hval⟩
      rw [hsplit]
      dsimp only
      rw [hdays, Option.map_some]

/-- A field and its number. -/
def FieldOf (part : List UInt8) (n : GoInt) : Prop := ∃ m : Nat, Numeral part m ∧ n.val = m

theorem mapM_sstatField_iff {parts : List (List UInt8)} {fields : List GoInt}
    (hminus : ∀ part ∈ parts, (0x2d : UInt8) ∉ part) :
    parts.mapM sstatField = some fields ↔ List.Forall₂ FieldOf parts fields := by
  induction parts generalizing fields with
  | nil =>
    rw [List.mapM_nil, List.forall₂_nil_left_iff]
    exact ⟨fun h => (Option.some.inj h).symm, fun h => congrArg some h.symm⟩
  | cons part parts ih =>
    have hpart {n : GoInt} : sstatField part = some n ↔ FieldOf part n :=
      sstatField_eq_some_iff (hminus part List.mem_cons_self)
    simp only [List.mapM_cons, Option.bind_eq_bind, Option.bind_eq_some_iff,
      List.forall₂_cons_left_iff, hpart,
      ih fun other hother => hminus other (List.mem_cons_of_mem part hother)]
    constructor
    · rintro ⟨n, hn, rest, hrest, hfields⟩
      exact ⟨n, rest, hn, hrest, (Option.some.inj hfields).symm⟩
    · rintro ⟨n, rest, hn, hrest, rfl⟩
      exact ⟨n, hn, rest, hrest, rfl⟩

theorem sstatClock_eq_some_iff {timePart : List UInt8} (hminus : (0x2d : UInt8) ∉ timePart)
    {hours minutes seconds : GoInt} :
    sstatClock timePart = some (hours, minutes, seconds) ↔ ∃ h m s : Nat, Clock timePart h m s ∧
      hours.val = h ∧ minutes.val = m ∧ seconds.val = s := by
  have hzero : (wrap64 0).val = ((0 : Nat) : Int) := wrap64_val (by omega) (by omega)
  have hfields {fields : List GoInt} : (split timePart 0x3a).mapM sstatField = some fields ↔
      List.Forall₂ FieldOf (split timePart 0x3a) fields :=
    mapM_sstatField_iff fun part hpart hmem => hminus (mem_of_mem_split part hpart _ hmem)
  unfold sstatClock
  constructor
  · intro h
    split at h
    · next minutes' seconds' hread =>
      cases h
      obtain ⟨minutePart, _, ⟨m, hm, hmVal⟩, hrest, hsplit⟩ :=
        List.forall₂_cons_right_iff.mp (hfields.mp hread)
      obtain ⟨secondPart, _, ⟨s, hs, hsVal⟩, hnil, rfl⟩ := List.forall₂_cons_right_iff.mp hrest
      rw [List.forall₂_nil_right_iff.mp hnil] at hsplit
      obtain ⟨-, -, rfl⟩ := split_eq_iff.mp hsplit
      exact ⟨0, m, s, ⟨[], minutePart, secondPart, by simp [List.intercalate], .inl ⟨rfl, rfl⟩,
        hm, hs⟩, hzero, hmVal, hsVal⟩
    · next hours' minutes' seconds' hread =>
      cases h
      obtain ⟨hourPart, _, ⟨h, hh, hhVal⟩, hrest, hsplit⟩ :=
        List.forall₂_cons_right_iff.mp (hfields.mp hread)
      obtain ⟨minutePart, _, ⟨m, hm, hmVal⟩, hrest', rfl⟩ := List.forall₂_cons_right_iff.mp hrest
      obtain ⟨secondPart, _, ⟨s, hs, hsVal⟩, hnil, rfl⟩ := List.forall₂_cons_right_iff.mp hrest'
      rw [List.forall₂_nil_right_iff.mp hnil] at hsplit
      obtain ⟨-, -, rfl⟩ := split_eq_iff.mp hsplit
      exact ⟨h, m, s, ⟨hourPart ++ [0x3a], minutePart, secondPart, by simp [List.intercalate],
        .inr ⟨hourPart, rfl, hh⟩, hm, hs⟩, hhVal, hmVal, hsVal⟩
    · cases h
  · rintro ⟨h, m, s, ⟨hourPart, minutePart, secondPart, htime, hhour, hm, hs⟩, hhVal, hmVal, hsVal⟩
    rcases hhour with ⟨rfl, rfl⟩ | ⟨field, rfl, hfield⟩
    · have hsplit : split timePart 0x3a = [minutePart, secondPart] :=
        split_eq_iff.mpr ⟨List.cons_ne_nil _ _, by simpa using ⟨colon_not_mem hm, colon_not_mem hs⟩,
          by simpa [List.intercalate] using htime⟩
      have hread : (split timePart 0x3a).mapM sstatField = some [minutes, seconds] :=
        hfields.mpr (hsplit ▸ .cons ⟨m, hm, hmVal⟩ (.cons ⟨s, hs, hsVal⟩ .nil))
      rw [hread]
      dsimp only
      rw [Subtype.ext (hhVal.trans hzero.symm)]
    · have hsplit : split timePart 0x3a = [field, minutePart, secondPart] :=
        split_eq_iff.mpr ⟨List.cons_ne_nil _ _,
          by simpa using ⟨colon_not_mem hfield, colon_not_mem hm, colon_not_mem hs⟩,
          by simpa [List.intercalate] using htime⟩
      have hread : (split timePart 0x3a).mapM sstatField = some [hours, minutes, seconds] :=
        hfields.mpr (hsplit ▸
          .cons ⟨h, hfield, hhVal⟩ (.cons ⟨m, hm, hmVal⟩ (.cons ⟨s, hs, hsVal⟩ .nil)))
      rw [hread]

namespace Clock

variable {s : List UInt8} {hours minutes seconds : Nat}

theorem minus_not_mem (h : Clock s hours minutes seconds) : (0x2d : UInt8) ∉ s := by
  obtain ⟨hourPart, minutePart, secondPart, rfl, hhour, hm, hs⟩ := h
  have hhourPart : (0x2d : UInt8) ∉ hourPart := by
    rcases hhour with ⟨rfl, -⟩ | ⟨field, rfl, hfield⟩
    · exact List.not_mem_nil
    · simpa using Slurm.minus_not_mem hfield
  simpa using ⟨hhourPart, Slurm.minus_not_mem hm, Slurm.minus_not_mem hs⟩

end Clock

namespace Duration

variable {s : List UInt8} {total : Nat}

/-- A duration ends in a digit. -/
theorem exists_last (h : Duration s total) : ∃ front b, s = front ++ [b] ∧ isDigit b = true := by
  obtain ⟨dayPart, timePart, _, _, _, _, rfl, -, hclock, -⟩ := h
  obtain ⟨hourPart, minutePart, secondPart, rfl, -, -, hs⟩ := hclock
  obtain ⟨front, b, rfl, hb⟩ := hs.exists_last
  exact ⟨dayPart ++ (hourPart ++ (minutePart ++ 0x3a :: front)), b, by simp, hb⟩

/-- A duration starts with a digit or a sign. -/
theorem head_digit_or_plus (h : Duration s total) :
    ∀ b ∈ s.head?, isDigit b = true ∨ b = 0x2b := by
  have hnumeral {field rest : List UInt8} {n : Nat} (hfield : Numeral field n) :
      ∀ b ∈ (field ++ rest).head?, isDigit b = true ∨ b = 0x2b := by
    intro b hb
    rw [List.head?_append_of_ne_nil _ hfield.ne_nil] at hb
    exact hfield.digit_or_plus b (List.mem_of_mem_head? hb)
  obtain ⟨dayPart, timePart, _, _, _, _, rfl, hday, hclock, -⟩ := h
  obtain ⟨hourPart, minutePart, secondPart, rfl, hhour, hm, -⟩ := hclock
  rcases hday with ⟨rfl, -⟩ | ⟨field, rfl, hfield⟩
  · rcases hhour with ⟨rfl, -⟩ | ⟨field, rfl, hfield⟩
    · rw [List.nil_append, List.nil_append]
      exact hnumeral hm
    · rw [List.nil_append, List.append_assoc]
      exact hnumeral hfield
  · rw [List.append_assoc]
    exact hnumeral hfield

/-- A duration stands without white space. -/
theorem trimSpace_eq (h : Duration s total) : trimSpace s = s := by
  have hgraphic : ∀ {b : UInt8}, isDigit b = true ∨ b = 0x2b → isGraphic b = true := by
    rintro b (hb | rfl)
    · have hbounds := isDigit_bounds hb
      simp only [isGraphic, Bool.and_eq_true, decide_eq_true_eq, UInt8.le_iff_toNat_le]
      exact ⟨le_trans (by decide) hbounds.1, hbounds.2.trans (by decide)⟩
    · decide
  refine trimSpace_of_graphic (fun b hb => hgraphic (h.head_digit_or_plus b hb)) fun b hb => ?_
  obtain ⟨front, last, rfl, hlast⟩ := h.exists_last
  rw [List.getLast?_concat, Option.mem_some] at hb
  exact hgraphic (.inl (hb ▸ hlast))

end Duration

/-- A text that ends in an ASCII character other than those of the words is available. -/
theorem isUnavailableSstatValue_append (front : List UInt8) {b : UInt8} (hb : b < 0x80)
    (ha : lower b ≠ 0x61) (hn : lower b ≠ 0x6e) :
    isUnavailableSstatValue (front ++ [b]) = false := by
  have hword {text : List UInt8} {last : UInt8} (hlast : (text.map lower).getLast? = some last)
      (hne : lower b ≠ last) : equalFold (front ++ [b]) text = false := by
    rw [equalFold, fold_append front hb, decide_eq_false_iff_not]
    intro h
    rw [← h, List.getLast?_concat, Option.some.injEq] at hlast
    exact hne hlast
  have hna : equalFold (front ++ [b]) (ascii "N/A") = false := hword rfl ha
  have hunknown : equalFold (front ++ [b]) (ascii "Unknown") = false := hword rfl hn
  unfold isUnavailableSstatValue
  rw [hna, hunknown]
  simp

theorem isUnavailableSstatValue_duration {s : List UInt8} {total : Nat} (h : Duration s total) :
    isUnavailableSstatValue s = false := by
  obtain ⟨front, b, rfl, hb⟩ := h.exists_last
  have hbounds := isDigit_bounds hb
  have hlower : lower b = b := isDigit_lower hb
  refine isUnavailableSstatValue_append front ?_ ?_ ?_
  · exact UInt8.lt_iff_toNat_lt.mpr (lt_of_le_of_lt hbounds.2 (by decide))
  · rw [hlower]
    rintro rfl
    exact absurd hbounds.2 (by decide)
  · rw [hlower]
    rintro rfl
    exact absurd hbounds.2 (by decide)

/-- What is accepted, for any arithmetic that is exact in the range. -/
theorem parseSstatDurationWith_ok_iff {int64 : Int → GoInt} (hexact : ExactInRange int64)
    (value : List UInt8) (n : GoInt) :
    parseSstatDurationWith int64 value = .ok n ↔
      (isUnavailableSstatValue (trimSpace value) = true ∧ n.val = 0) ∨
        ∃ total, Duration (trimSpace value) total ∧ n.val = total := by
  have hzero : (wrap64 0).val = 0 := wrap64_val (by omega) (by omega)
  unfold parseSstatDurationWith
  dsimp only
  split
  · next hunavailable =>
    rw [Except.ok.injEq, Subtype.ext_iff, hzero]
    constructor
    · exact fun h => .inl ⟨hunavailable, h.symm⟩
    · rintro (⟨-, h⟩ | ⟨total, hduration, -⟩)
      · exact h.symm
      · rw [isUnavailableSstatValue_duration hduration] at hunavailable
        cases hunavailable
  · next havailable =>
    constructor
    · intro h
      refine .inr ?_
      split at h
      · cases h
      · next days timePart hdays =>
        split at h
        · cases h
        · next hours minutes seconds hclock =>
          obtain ⟨dayPart, d, hvalue, hday, hminus, hd⟩ := sstatDays_eq_some_iff.mp hdays
          obtain ⟨hh, m, s, hclock, hhv, hmv, hsv⟩ := (sstatClock_eq_some_iff hminus).mp hclock
          obtain ⟨hm, hs, hn⟩ := (sstatTotal_ok_iff hexact (by omega) (by omega) (by omega)
            (by omega)).mp h
          exact ⟨_, ⟨dayPart, timePart, d, hh, m, s, hvalue, hday, hclock, by omega, by omega,
            rfl⟩, by omega⟩
    · rintro (⟨hunavailable, -⟩ | ⟨total, hduration, hn⟩)
      · exact absurd hunavailable havailable
      · obtain ⟨dayPart, timePart, d, h, m, s, hvalue, hday, hclock, hm, hs, rfl⟩ := hduration
        have hle := n.2.2
        have hin {k : Nat} (hk : (k : Int) < 2 ^ 63) : (wrap64 k).val = k :=
          wrap64_val (by omega) hk
        have hdays : sstatDays (trimSpace value) = some (wrap64 d, timePart) :=
          sstatDays_eq_some_iff.mpr ⟨dayPart, d, hvalue, hday, hclock.minus_not_mem,
            hin (by omega)⟩
        have hfields : sstatClock timePart = some (wrap64 h, wrap64 m, wrap64 s) :=
          (sstatClock_eq_some_iff hclock.minus_not_mem).mpr ⟨h, m, s, hclock, hin (by omega),
            hin (by omega), hin (by omega)⟩
        rw [hdays]
        dsimp only
        rw [hfields]
        dsimp only
        rw [sstatTotal_ok_iff hexact (by rw [hin (by omega)]; omega) (by rw [hin (by omega)]; omega)
          (by rw [hin (by omega)]; omega) (by rw [hin (by omega)]; omega), hin (by omega),
          hin (by omega), hin (by omega), hin (by omega)]
        omega

/-! ## Durations that are written -/

theorem parseDigits_zeros (width : Nat) {digits : List Char} (hne : digits ≠ []) :
    parseDigits (List.replicate width '0' ++ digits) = parseDigits digits := by
  induction width with
  | zero => rfl
  | succ width ih =>
    have hne' : List.replicate width '0' ++ digits ≠ [] := by simp [hne]
    rw [← ih, List.replicate_succ, List.cons_append]
    unfold parseDigits
    simp [hne]

theorem numeral_sprintfd (n : Nat) :
    Numeral ((sprintfd n).map fun c => UInt8.ofNat c.toNat) n := by
  unfold sprintfd
  rw [if_neg (by omega), Int.natAbs_natCast]
  exact numeral_of_parseDigits (parseDigits_toDigits n)

theorem numeral_sprintf02d (n : Nat) :
    Numeral ((sprintf02d n).map fun c => UInt8.ofNat c.toNat) n := by
  unfold sprintf02d
  rw [if_neg (by omega), Int.natAbs_natCast, List.leftpad]
  refine numeral_of_parseDigits ?_
  rw [parseDigits_zeros _ Nat.toDigits_ne_nil, parseDigits_toDigits]

/-- A number of seconds that is not negative is written as a duration of so many seconds. -/
theorem duration_formatSlurmDuration {seconds : GoInt} {n : Nat} (h : seconds.val = n) :
    Duration (ascii (formatSlurmDuration seconds)) n := by
  have hdays : (n : Int).tdiv 86400 = (n / 86400 : Nat) := rfl
  have hhours : ((n : Int).tmod 86400).tdiv 3600 = (n % 86400 / 3600 : Nat) := rfl
  have hminutes : ((n : Int).tmod 3600).tdiv 60 = (n % 3600 / 60 : Nat) := rfl
  have hseconds : (n : Int).tmod 60 = (n % 60 : Nat) := rfl
  have hm : n % 3600 / 60 < 60 := by omega
  have hs : n % 60 < 60 := Nat.mod_lt n (by decide)
  unfold formatSlurmDuration ascii slurmDuration
  rw [h, hdays, hhours, hminutes, hseconds, String.toList_ofList]
  dsimp only
  split
  · refine ⟨_ ++ [0x2d], _, n / 86400, n % 86400 / 3600, n % 3600 / 60, n % 60, ?_,
      .inr ⟨_, rfl, numeral_sprintfd _⟩, ⟨_ ++ [0x3a], _, _, rfl,
        .inr ⟨_, rfl, numeral_sprintf02d _⟩, numeral_sprintf02d _, numeral_sprintf02d _⟩, hm, hs,
      by omega⟩
    simp
  · next hday =>
    split
    · refine ⟨[], _, 0, n % 86400 / 3600, n % 3600 / 60, n % 60, ?_, .inl ⟨rfl, rfl⟩,
        ⟨_ ++ [0x3a], _, _, rfl, .inr ⟨_, rfl, numeral_sprintfd _⟩, numeral_sprintf02d _,
          numeral_sprintf02d _⟩, hm, hs, by omega⟩
      simp
    · next hhour =>
      refine ⟨[], _, 0, 0, n % 3600 / 60, n % 60, ?_, .inl ⟨rfl, rfl⟩,
        ⟨[], _, _, rfl, .inl ⟨rfl, rfl⟩, numeral_sprintfd _, numeral_sprintf02d _⟩, hm, hs,
        by omega⟩
      simp

/-- The durations that are accepted are those of the grammar, with their exact total, and the
    words for an unavailable value, which count 0. The total is the same for any arithmetic that
    is exact in the range: nothing overflows on the way. What `formatSlurmDuration` writes is
    read back. -/
theorem sstatDuration_exact :
    (∀ value n, parseSstatDuration value = .ok n ↔
      (isUnavailableSstatValue (trimSpace value) = true ∧ n.val = 0) ∨
        ∃ total, Duration (trimSpace value) total ∧ n.val = total) ∧
    (∀ int64, ExactInRange int64 → parseSstatDurationWith int64 = parseSstatDuration) ∧
    ∀ n : GoInt, 0 ≤ n.val → parseSstatDuration (ascii (formatSlurmDuration n)) = .ok n := by
  refine ⟨fun value n => parseSstatDurationWith_ok_iff wrap64_exactInRange value n, ?_, ?_⟩
  · intro int64 hexact
    funext value
    unfold parseSstatDuration parseSstatDurationWith
    dsimp only
    split
    · rfl
    · split
      · rfl
      · next days timePart hdays =>
        split
        · rfl
        · next hours minutes seconds hclock =>
          obtain ⟨_, d, -, -, hminus, hd⟩ := sstatDays_eq_some_iff.mp hdays
          obtain ⟨h, m, s, -, hh, hm, hs⟩ := (sstatClock_eq_some_iff hminus).mp hclock
          rw [sstatTotal_eq hexact (by omega) (by omega) (by omega) (by omega),
            sstatTotal_eq wrap64_exactInRange (by omega) (by omega) (by omega) (by omega)]
  · intro n hn
    obtain ⟨k, hk⟩ := Int.eq_ofNat_of_zero_le hn
    have hduration := duration_formatSlurmDuration hk
    refine (parseSstatDurationWith_ok_iff wrap64_exactInRange _ n).mpr (.inr ⟨k, ?_, hk⟩)
    rw [hduration.trimSpace_eq]
    exact hduration

/-! ## Sizes that are exact -/

/-- What a size does: it is an error, or the exact number of bytes, which an int64 holds; and
    what is converted to an int64 is below 2^63. -/
structure SizeExact [Int64Conversion] (value : List UInt8) (size : ℤ) : Prop where
  exact : ∀ n, parseSstatSize value = .ok n → n.val = size ∧ 0 ≤ n.val
  converted : ∀ bytes, sstatBytes (trimSpace value) = .ok bytes →
    ∃ q : ℚ, bytes = .finite q ∧ q < 2 ^ 63

/-- The value of a unit: 1024 to the power of its place. -/
def UnitPower (unit : UInt8) (power : Nat) : Prop :=
  ∃ index, (ascii "KMGTPE").idxOf? unit = some index ∧ power = index + 1

theorem UnitPower.bounds {unit : UInt8} {power : Nat} (h : UnitPower unit power) :
    unit ∈ ascii "KMGTPE" ∧ 1 ≤ power ∧ power ≤ 6 := by
  obtain ⟨index, hindex, rfl⟩ := h
  obtain ⟨hlt, heq, -⟩ := List.idxOf?_eq_some_iff.mp hindex
  have hlength : (ascii "KMGTPE").length = 6 := rfl
  exact ⟨heq ▸ List.getElem_mem hlt, by omega, by omega⟩

/-- The product of a mantissa and a unit. -/
theorem sstatBytes_unit {front : List UInt8} {unit : UInt8} {power : Nat} {m : ℤ}
    (hunit : UnitPower unit power) (hread : readFloat front = some (m : ℚ)) (hlt : m < 2 ^ 53) :
    sstatBytes (front ++ [unit]) =
      if m < 0 then .error "sstat memory size is invalid"
      else if 2 ^ 63 < m * 1024 ^ power then .error "sstat memory size exceeds supported range"
      else .ok (.finite ((m * 1024 ^ power : ℤ) : ℚ)) := by
  have hpower := hunit.bounds.2.2
  obtain ⟨index, hindex, rfl⟩ := hunit
  unfold sstatBytes
  rw [List.getLast?_concat, Option.bind_some, hindex, List.dropLast_concat]
  dsimp only
  by_cases hneg : m < 0
  · rw [if_pos hneg]
    have hle : (m : ℚ) ≤ -1 := by exact_mod_cast (by omega : m ≤ -1)
    unfold parseFloat
    rw [hread]
    dsimp only
    rcases Float64.round_negative hle with ⟨q, hq, hnegative⟩ | ⟨negative, hinf⟩
    · rw [hq]
      dsimp only
      rw [if_pos hnegative]
    · rw [hinf]
  · rw [if_neg hneg]
    have hmantissa : |m| < 2 ^ 53 := by rw [abs_of_nonneg (by omega)]; exact hlt
    have hnumber : Float64.round (m : ℚ) = .finite m := by
      simpa using Float64.round_exact hmantissa (Nat.zero_le 900)
    have hparse : parseFloat front = some (.finite m) := by
      unfold parseFloat
      rw [hread]
      dsimp only
      rw [hnumber]
    -- a power of 1024 is one of two, so the product is exact
    have hunits : (1024 : ℚ) ^ (index + 1) = 2 ^ (10 * (index + 1)) := by
      rw [pow_mul]
      norm_num
    have hproduct : Float64.mul (.finite m) (.finite (1024 ^ (index + 1))) =
        .finite ((m * 1024 ^ (index + 1) : ℤ) : ℚ) := by
      rw [Float64.mul_finite, hunits, Float64.round_exact hmantissa (by omega)]
      push_cast
      rw [hunits]
    have hover : Float64.gt (.finite ((m * 1024 ^ (index + 1) : ℤ) : ℚ)) (.finite (2 ^ 63)) =
        decide (2 ^ 63 < m * 1024 ^ (index + 1)) := by
      rw [Float64.gt_finite]
      exact decide_eq_decide.mpr (by exact_mod_cast Iff.rfl)
    have hsign : ¬ (m : ℚ) < 0 := by exact_mod_cast hneg
    rw [hparse]
    dsimp only
    rw [if_neg hsign, hproduct, Float64.round_maxInt64, hover]
    simp only [decide_eq_true_eq]

section

variable [Int64Conversion]

/-- A size of a unit is not one of the words. -/
theorem parseSstatSize_unit {value front : List UInt8} {unit : UInt8} {power : Nat}
    (hvalue : trimSpace value = front ++ [unit]) (hunit : UnitPower unit power) :
    parseSstatSize value =
      (sstatBytes (front ++ [unit])).map fun bytes => bytes.mathRound.toInt64 := by
  have hmem := hunit.bounds.1
  have hletters : ((ascii "KMGTPE").all fun b =>
      decide (b < 0x80 ∧ lower b ≠ 0x61 ∧ lower b ≠ 0x6e ∧ b ≠ 0x30)) = true := by
    decide
  obtain ⟨hascii, ha, hn, hzero⟩ := of_decide_eq_true (List.all_eq_true.mp hletters unit hmem)
  have hne : front ++ [unit] ≠ ascii "0" := by
    intro h
    have hlast := congrArg List.getLast? h
    rw [List.getLast?_concat] at hlast
    exact hzero (Option.some.inj hlast)
  unfold parseSstatSize
  dsimp only
  rw [hvalue, if_neg]
  rintro (h | h)
  · exact hne h
  · rw [isUnavailableSstatValue_append front hascii ha hn] at h
    cases h

/-- A size with an integer mantissa of 53 bits is exact unless it is 2^63: the largest int64,
    which is compared with it, is rounded to that number, so the bound lets it through. -/
theorem sstatSize_exact_iff {value front : List UInt8} {unit : UInt8} {power : Nat} {m : ℤ}
    (hvalue : trimSpace value = front ++ [unit]) (hunit : UnitPower unit power)
    (hread : readFloat front = some (m : ℚ)) (hlt : m < 2 ^ 53) :
    SizeExact value (m * 1024 ^ power) ↔ m * 1024 ^ power ≠ 2 ^ 63 := by
  have hbytes := sstatBytes_unit hunit hread hlt
  constructor
  · intro h heq
    have hpos : ¬ m < 0 := by
      intro hneg
      have hpower : (0 : ℤ) < 1024 ^ power := by positivity
      nlinarith
    rw [if_neg hpos, if_neg (by omega), heq] at hbytes
    obtain ⟨q, hq, hlt⟩ := h.converted _ (hvalue ▸ hbytes)
    cases hq
    norm_num at hlt
  · intro hne
    constructor
    · intro n hn
      rw [parseSstatSize_unit hvalue hunit, hbytes] at hn
      split at hn
      · cases hn
      · next hneg =>
        split at hn
        · cases hn
        · next hfits =>
          have hnonneg : 0 ≤ m * 1024 ^ power := mul_nonneg (by omega) (by positivity)
          have hrange : m * 1024 ^ power < 2 ^ 63 := by omega
          have hvalue := Except.ok.inj hn
          dsimp only at hvalue
          rw [Float64.mathRound_intCast hnonneg] at hvalue
          rw [← hvalue, Float64.toInt64_intCast hnonneg hrange]
          exact ⟨rfl, hnonneg⟩
    · intro bytes hconverted
      rw [hvalue, hbytes] at hconverted
      split at hconverted
      · cases hconverted
      · split at hconverted
        · cases hconverted
        · next hfits =>
          refine ⟨_, (Except.ok.inj hconverted).symm, ?_⟩
          exact_mod_cast (by omega : m * 1024 ^ power < 2 ^ 63)

end

open scoped Amd64

theorem sstatSize_exact_kilobytes : (1024 : ℤ) * 1024 ^ 1 ≠ 2 ^ 63 ∧
    SizeExact (ascii "1024K") ((1024 : ℤ) * 1024 ^ 1) := by
  have hread : readFloat (ascii "1024") = some ((1024 : ℤ) : ℚ) := by
    rw [readFloat_digits (by decide) (List.all_eq_true.mp (by decide))]
    rfl
  exact ⟨by decide, (sstatSize_exact_iff (show trimSpace (ascii "1024K") = ascii "1024" ++ [0x4b]
    from by decide +kernel) ⟨0, rfl, rfl⟩ hread (by decide)).mpr (by decide)⟩

/-- Eight exbibytes are accepted, and amd64 makes the smallest int64 of them. -/
theorem eight_exbibytes_negative :
    parseSstatSize (ascii "8E") = .ok (wrap64 (-2 ^ 63)) ∧
      ¬ SizeExact (ascii "8E") (8 * 1024 ^ 6) := by
  have hvalue : trimSpace (ascii "8E") = ascii "8" ++ [0x45] := by decide +kernel
  have hunit : UnitPower 0x45 6 := ⟨5, rfl, rfl⟩
  have hread : readFloat (ascii "8") = some ((8 : ℤ) : ℚ) := by
    rw [readFloat_digits (by decide) (List.all_eq_true.mp (by decide))]
    rfl
  have hbytes := sstatBytes_unit hunit hread (by norm_num)
  have hsize : parseSstatSize (ascii "8E") = .ok (wrap64 (-2 ^ 63)) := by
    rw [parseSstatSize_unit hvalue hunit, hbytes, if_neg (by norm_num), if_neg (by norm_num)]
    refine congrArg Except.ok ?_
    dsimp only
    rw [Float64.mathRound_intCast (by norm_num), Float64.toInt64_of_le (by norm_num)]
    rfl
  refine ⟨hsize, fun h => ?_⟩
  have hval : (wrap64 (-2 ^ 63)).val = -2 ^ 63 := wrap64_val (by omega) (by omega)
  have hnonneg := (h.exact _ hsize).2
  rw [hval] at hnonneg
  omega

end OpenHpcWeb.Slurm
