/-
  `time.ParseDuration`. A duration is its nanoseconds.

  The source multiplies the fraction of a term with its unit in float64 (`Fractions`). What is
  proved of durations holds for every such product.

  * `parseDuration_noSpace`: a text that parses has no white space.
-/
import OpenHpcWeb.Go.Std

namespace OpenHpcWeb.Go

/-- `uint64(float64(f) * (float64(unit) / scale))`. -/
class Fractions where
  nanoseconds (f unit scale : Nat) : Nat

namespace Exact

/-- The product rounded down, for texts where the float64 is exact. -/
scoped instance : Fractions := ⟨fun f unit scale => f * unit / scale⟩

end Exact

def second : Int := 1000000000

def minute : Int := 60 * second

/-- `leadingInt`, from the value of the digits before. -/
def leadingInt (x : Nat) : List Char → Option (Nat × List Char)
  | [] => some (x, [])
  | c :: rest =>
    if ¬ c.isDigit then some (x, c :: rest)
    else if x > 2 ^ 63 / 10 then none
    else
      let y := 10 * x + (c.toNat - '0'.toNat)
      if y > 2 ^ 63 then none else leadingInt y rest

/-- `leadingFraction`, from the value and the scale of the digits before: digits after an
    overflow are dropped. -/
def leadingFraction (x scale : Nat) (overflow : Bool) : List Char → Nat × Nat × List Char
  | [] => (x, scale, [])
  | c :: rest =>
    if ¬ c.isDigit then (x, scale, c :: rest)
    else
      let y := 10 * x + (c.toNat - '0'.toNat)
      if overflow ∨ x > (2 ^ 63 - 1) / 10 ∨ y > 2 ^ 63 then leadingFraction x scale true rest
      else leadingFraction y (10 * scale) false rest

/-- `unitMap`, in nanoseconds. -/
def durationUnits : List (String × Nat) :=
  [("ns", 1), ("us", 1000), ("µs", 1000), ("μs", 1000), ("ms", 1000000), ("s", 1000000000),
    ("m", 60000000000), ("h", 3600000000000)]

/-- A character that ends the unit of a term. -/
def startsTerm (c : Char) : Bool := c = '.' || c.isDigit

/-- The optional fraction of a term: its digits, their scale, what follows, and whether there
    were digits. -/
def durationFraction : List Char → Nat × Nat × List Char × Bool
  | '.' :: digits =>
    let (f, scale, rest) := leadingFraction 0 1 false digits
    (f, scale, rest, rest.length ≠ digits.length)
  | rest => (0, 1, rest, false)

/-- One term of a duration: its value and what follows it. -/
def durationTerm [Fractions] (s : List Char) : Option (Nat × List Char) :=
  if ¬ s.head?.any startsTerm then none
  else
    match leadingInt 0 s with
    | none => none
    | some (v, rest) =>
      let (f, scale, after, post) := durationFraction rest
      if rest.length = s.length ∧ ¬ post then none
      else
        match durationUnits.lookup (String.ofList (after.takeWhile fun c => ! startsTerm c)) with
        | none => none
        | some unit =>
          let value :=
            if f > 0 then (v * unit + Fractions.nanoseconds f unit scale) % 2 ^ 64 else v * unit
          if v > 2 ^ 63 / unit ∨ value > 2 ^ 63 then none
          else some (value, after.dropWhile fun c => ! startsTerm c)

/-- The loop over the terms; `d` is a uint64 and wraps. -/
def durationTerms [Fractions] : Nat → List Char → Nat → Option Nat
  | _, [], d => some d
  | 0, _ :: _, _ => none
  | n + 1, c :: s, d =>
    match durationTerm (c :: s) with
    | none => none
    | some (v, rest) =>
      if (d + v) % 2 ^ 64 > 2 ^ 63 then none else durationTerms n rest ((d + v) % 2 ^ 64)

/-- The sign of a number and what follows it. -/
def leadingSign : List Char → Bool × List Char
  | '-' :: rest => (true, rest)
  | '+' :: rest => (false, rest)
  | rest => (false, rest)

/-- `time.ParseDuration`; `none` is an error. -/
def parseDuration [Fractions] (s : String) : Option Int :=
  let (neg, body) := leadingSign s.toList
  if body = ['0'] then some 0
  else if body = [] then none
  else
    -- every term has a character, so the length of the text bounds their number
    match durationTerms body.length body 0 with
    | none => none
    | some d => if neg then some (-d) else if d > 2 ^ 63 - 1 then none else some d

section
open scoped Exact

example : parseDuration "1m30.5s" = some (90 * second + 500000000) ∧
    parseDuration "-1.5h" = some (-90 * minute) ∧ parseDuration "10" = none ∧
    parseDuration ".s" = none ∧ parseDuration "" = none ∧ parseDuration "3s " = none := by
  decide +kernel

end

/-! ## White space -/

/-- No character is white space. -/
def NoSpace (s : List Char) : Prop := ∀ c ∈ s, isSpace c = false

theorem noSpace_cons {c : Char} {s : List Char} :
    NoSpace (c :: s) ↔ isSpace c = false ∧ NoSpace s :=
  List.forall_mem_cons

theorem noSpace_append {s t : List Char} : NoSpace (s ++ t) ↔ NoSpace s ∧ NoSpace t :=
  List.forall_mem_append

theorem trimSpace_of_noSpace {s : String} (h : NoSpace s.toList) : trimSpace s = s := by
  have hdrop : ∀ l : List Char, NoSpace l → l.dropWhile isSpace = l := by
    intro l hl
    cases l with
    | nil => rfl
    | cons c l => exact List.dropWhile_cons_of_neg (by simp [(noSpace_cons.mp hl).1])
  have hreverse : NoSpace s.toList.reverse := fun c hc => h c (List.mem_reverse.mp hc)
  rw [trimSpace, hdrop _ h, List.rdropWhile, hdrop _ hreverse, List.reverse_reverse,
    String.ofList_toList]

theorem isSpace_of_isDigit {c : Char} (h : c.isDigit = true) : isSpace c = false := by
  have hrange : 48 ≤ c.toNat ∧ c.toNat ≤ 57 := by
    simp only [Char.isDigit, Bool.and_eq_true, decide_eq_true_iff] at h
    exact ⟨UInt32.le_iff_toNat_le.mp h.1, UInt32.le_iff_toNat_le.mp h.2⟩
  simp only [isSpace, Bool.or_eq_false_iff, Bool.and_eq_false_iff, decide_eq_false_iff_not]
  omega

theorem leadingInt_noSpace {s rest : List Char} {x v : Nat}
    (h : leadingInt x s = some (v, rest)) (hrest : NoSpace rest) : NoSpace s := by
  induction s generalizing x with
  | nil => simp [NoSpace]
  | cons c s ih =>
    unfold leadingInt at h
    split at h
    · rw [Option.some.injEq, Prod.mk.injEq] at h
      rw [h.2]
      exact hrest
    next hdigit =>
    have hc : isSpace c = false := isSpace_of_isDigit (not_not.mp hdigit)
    split at h
    · cases h
    dsimp only at h
    split at h
    · cases h
    · exact noSpace_cons.mpr ⟨hc, ih h⟩

theorem leadingFraction_noSpace {s : List Char} {x scale : Nat} {overflow : Bool}
    (hrest : NoSpace (leadingFraction x scale overflow s).2.2) : NoSpace s := by
  induction s generalizing x scale overflow with
  | nil => simp [NoSpace]
  | cons c s ih =>
    unfold leadingFraction at hrest
    split at hrest
    · exact hrest
    next hdigit =>
    have hc : isSpace c = false := isSpace_of_isDigit (not_not.mp hdigit)
    dsimp only at hrest
    split at hrest
    · exact noSpace_cons.mpr ⟨hc, ih hrest⟩
    · exact noSpace_cons.mpr ⟨hc, ih hrest⟩

theorem durationFraction_noSpace {s : List Char} (hrest : NoSpace (durationFraction s).2.2.1) :
    NoSpace s := by
  unfold durationFraction at hrest
  split at hrest
  · exact noSpace_cons.mpr ⟨by decide, leadingFraction_noSpace hrest⟩
  · exact hrest

theorem unit_noSpace {name : List Char} {unit : Nat}
    (h : durationUnits.lookup (String.ofList name) = some unit) : NoSpace name := by
  have hunits : ∀ entry ∈ durationUnits, (entry.1.toList.all fun c => ! isSpace c) = true := by
    decide
  obtain ⟨_, _, hsplit, -⟩ := List.lookup_eq_some_iff.mp h
  have hmem : (String.ofList name, unit) ∈ durationUnits := by simp [hsplit]
  have hname := hunits _ hmem
  rw [String.toList_ofList] at hname
  simpa [NoSpace] using hname

variable [Fractions]

theorem durationTerm_noSpace {s rest : List Char} {v : Nat}
    (h : durationTerm s = some (v, rest)) (hrest : NoSpace rest) : NoSpace s := by
  unfold durationTerm at h
  split at h
  · cases h
  split at h
  · cases h
  next v' after hint =>
  dsimp only at h
  split at h
  · cases h
  split at h
  · cases h
  next unit hunit =>
  have hpair := (Option.ite_none_left_eq_some.mp h).2
  have hrest' : rest = (durationFraction after).2.2.1.dropWhile fun c => ! startsTerm c :=
    (Prod.mk.inj (Option.some.inj hpair)).2.symm
  refine leadingInt_noSpace hint (durationFraction_noSpace ?_)
  rw [← List.takeWhile_append_dropWhile (p := fun c => ! startsTerm c)
    (l := (durationFraction after).2.2.1), noSpace_append, ← hrest']
  exact ⟨unit_noSpace hunit, hrest⟩

theorem durationTerms_noSpace {n d total : Nat} {s : List Char}
    (h : durationTerms n s d = some total) : NoSpace s := by
  induction n generalizing s d with
  | zero =>
    cases s with
    | nil => simp [NoSpace]
    | cons c s => cases h
  | succ n ih =>
    cases s with
    | nil => simp [NoSpace]
    | cons c s =>
      unfold durationTerms at h
      split at h
      · cases h
      next v rest hterm =>
      split at h
      · cases h
      · exact durationTerm_noSpace hterm (ih h)

omit [Fractions] in
theorem leadingSign_noSpace {s : List Char} (h : NoSpace (leadingSign s).2) : NoSpace s := by
  unfold leadingSign at h
  split at h
  · exact noSpace_cons.mpr ⟨by decide, h⟩
  · exact noSpace_cons.mpr ⟨by decide, h⟩
  · exact h

theorem parseDuration_noSpace {s : String} {d : Int} (h : parseDuration s = some d) :
    NoSpace s.toList := by
  apply leadingSign_noSpace
  unfold parseDuration at h
  dsimp only at h
  split at h
  · next hzero =>
    rw [hzero]
    exact noSpace_cons.mpr ⟨by decide, List.forall_mem_nil _⟩
  split at h
  · cases h
  split at h
  · cases h
  · next hterms => exact durationTerms_noSpace hterms

theorem trimSpace_of_parseDuration {s : String} {d : Int} (h : parseDuration s = some d) :
    trimSpace s = s :=
  trimSpace_of_noSpace (parseDuration_noSpace h)

end OpenHpcWeb.Go
