/-
  UTF-8 text from bytes that need not be: `utf8.DecodeRune` and `strings.ToValidUTF8` with the
  replacement character.

  * `toValidUTF8_append`: an ASCII byte stands for itself wherever it is, also in the middle
    of a sequence that is cut short: the texts on its two sides do not see each other.
  * `mem_toValidUTF8`: an ASCII character of the text is a byte of the input.
  * `toValidUTF8_splitOn`: so splitting at an ASCII character splits the bytes.
-/
import Mathlib.Data.List.Basic
import Mathlib.Tactic.SplitIfs

namespace OpenHpcWeb.Go

/-- `utf8.RuneError`, and the text that stands for a run of bytes that are not UTF-8. -/
def runeError : Char := '\ufffd'

/-- The range of the second byte of a rune that starts with `b`. -/
def acceptRange (b : UInt8) : UInt8 × UInt8 :=
  if b = 0xe0 then (0xa0, 0xbf)
  else if b = 0xed then (0x80, 0x9f)
  else if b = 0xf0 then (0x90, 0xbf)
  else if b = 0xf4 then (0x80, 0x8f)
  else (0x80, 0xbf)

def isSecond (b b1 : UInt8) : Bool := (acceptRange b).1 ≤ b1 && b1 ≤ (acceptRange b).2

def isTail (b : UInt8) : Bool := 0x80 ≤ b && b ≤ 0xbf

/-- The rune that starts with a byte outside ASCII, with the number of bytes that follow the
    first. -/
def runeAfter (b : UInt8) (rest : List UInt8) : Option (Char × Nat) :=
  if 0xc2 ≤ b ∧ b ≤ 0xdf then
    match rest with
    | b1 :: _ =>
      if isSecond b b1 then
        some (Char.ofNat ((b.toNat - 0xc0) * 64 + (b1.toNat - 0x80)), 1)
      else none
    | _ => none
  else if 0xe0 ≤ b ∧ b ≤ 0xef then
    match rest with
    | b1 :: b2 :: _ =>
      if isSecond b b1 && isTail b2 then
        some (Char.ofNat ((b.toNat - 0xe0) * 4096 + (b1.toNat - 0x80) * 64 + (b2.toNat - 0x80)), 2)
      else none
    | _ => none
  else if 0xf0 ≤ b ∧ b ≤ 0xf4 then
    match rest with
    | b1 :: b2 :: b3 :: _ =>
      if isSecond b b1 && isTail b2 && isTail b3 then
        some (Char.ofNat ((b.toNat - 0xf0) * 262144 + (b1.toNat - 0x80) * 4096 +
          (b2.toNat - 0x80) * 64 + (b3.toNat - 0x80)), 3)
      else none
    | _ => none
  else none

/-- The loop of `strings.ToValidUTF8`: `skip` bytes belong to the rune before, and `invalid`
    says whether the byte before was replaced. -/
def toValidFrom : Nat → Bool → List UInt8 → List Char
  | _, _, [] => []
  | skip + 1, invalid, _ :: rest => toValidFrom skip invalid rest
  | 0, invalid, b :: rest =>
    if b < 0x80 then Char.ofNat b.toNat :: toValidFrom 0 false rest
    else
      match runeAfter b rest with
      | some (c, width) => c :: toValidFrom width false rest
      | none => (if invalid then [] else [runeError]) ++ toValidFrom 0 true rest

/-- `strings.ToValidUTF8(s, "\ufffd")`, which is the text itself where it is valid. -/
def toValidUTF8 (s : List UInt8) : List Char := toValidFrom 0 false s

/-! ## ASCII bytes -/

theorem not_isTail {s : UInt8} (hs : s < 0x80) : isTail s = false := by
  unfold isTail
  rw [Bool.and_eq_false_iff]
  left
  simpa using hs

theorem not_isSecond (b : UInt8) {s : UInt8} (hs : s < 0x80) : isSecond b s = false := by
  have hlow : 0x80 ≤ (acceptRange b).1 := by
    unfold acceptRange
    split_ifs <;> decide
  unfold isSecond
  rw [Bool.and_eq_false_iff]
  left
  simpa using UInt8.lt_of_lt_of_le hs hlow

/-- An ASCII byte ends a sequence: what is behind it is not looked at, and no byte less would
    have made a rune. -/
theorem runeAfter_append (b : UInt8) (a : List UInt8) {s : UInt8} (hs : s < 0x80)
    (rest : List UInt8) : runeAfter b (a ++ s :: rest) = runeAfter b a := by
  have hsecond := not_isSecond b hs
  have htail := not_isTail hs
  unfold runeAfter
  rcases a with _ | ⟨a1, _ | ⟨a2, _ | ⟨a3, a⟩⟩⟩
  · rcases rest with _ | ⟨r1, _ | ⟨r2, rest⟩⟩ <;> simp [hsecond]
  · rcases rest with _ | ⟨r1, rest⟩ <;> simp [htail]
  · simp [htail]
  · simp

/-- The second byte of a rune, with the bounds that keep it from being too short, a surrogate or
    too large. -/
theorem isSecond_bounds {b b1 : UInt8} (h : isSecond b b1 = true) :
    0x80 ≤ b1.toNat ∧ b1.toNat ≤ 0xbf ∧ (b.toNat = 0xe0 → 0xa0 ≤ b1.toNat) ∧
      (b.toNat = 0xed → b1.toNat ≤ 0x9f) ∧ (b.toNat = 0xf0 → 0x90 ≤ b1.toNat) ∧
      (b.toNat = 0xf4 → b1.toNat ≤ 0x8f) := by
  simp only [isSecond, acceptRange, Bool.and_eq_true, decide_eq_true_eq, UInt8.le_iff_toNat_le,
    ← UInt8.toNat_inj] at h
  split_ifs at h <;> simp at h <;> simp_all <;> omega

theorem isTail_bounds {b : UInt8} (h : isTail b = true) : 0x80 ≤ b.toNat ∧ b.toNat ≤ 0xbf := by
  simpa [isTail, UInt8.le_iff_toNat_le] using h

theorem toNat_ofNat_char {n : Nat} (h : n < 0xd800 ∨ 0xdfff < n ∧ n < 0x110000) :
    (Char.ofNat n).toNat = n := by
  have hvalid : n.isValidChar := h
  rw [Char.ofNat, dif_pos hvalid]
  rfl

/-- The sequences of bytes that make a rune. -/
inductive RuneSequence (b : UInt8) : List UInt8 → Char × Nat → Prop
  | two {b1 : UInt8} {rest : List UInt8} (hb : 0xc2 ≤ b.toNat ∧ b.toNat ≤ 0xdf)
      (h1 : isSecond b b1 = true) :
      RuneSequence b (b1 :: rest) (Char.ofNat ((b.toNat - 0xc0) * 64 + (b1.toNat - 0x80)), 1)
  | three {b1 b2 : UInt8} {rest : List UInt8} (hb : 0xe0 ≤ b.toNat ∧ b.toNat ≤ 0xef)
      (h1 : isSecond b b1 = true) (h2 : isTail b2 = true) :
      RuneSequence b (b1 :: b2 :: rest)
        (Char.ofNat ((b.toNat - 0xe0) * 4096 + (b1.toNat - 0x80) * 64 + (b2.toNat - 0x80)), 2)
  | four {b1 b2 b3 : UInt8} {rest : List UInt8} (hb : 0xf0 ≤ b.toNat ∧ b.toNat ≤ 0xf4)
      (h1 : isSecond b b1 = true) (h2 : isTail b2 = true) (h3 : isTail b3 = true) :
      RuneSequence b (b1 :: b2 :: b3 :: rest)
        (Char.ofNat ((b.toNat - 0xf0) * 262144 + (b1.toNat - 0x80) * 4096 +
          (b2.toNat - 0x80) * 64 + (b3.toNat - 0x80)), 3)

theorem runeAfter_sequence {b : UInt8} {a : List UInt8} {found : Char × Nat}
    (h : runeAfter b a = some found) : RuneSequence b a found := by
  unfold runeAfter at h
  simp only [UInt8.le_iff_toNat_le] at h
  split at h
  · next hb =>
    split at h
    · split at h
      · next hbytes =>
        rw [← Option.some.inj h]
        exact .two hb hbytes
      · cases h
    · cases h
  · split at h
    · next hb =>
      split at h
      · split at h
        · next hbytes =>
          rw [Bool.and_eq_true] at hbytes
          rw [← Option.some.inj h]
          exact .three hb hbytes.1 hbytes.2
        · cases h
      · cases h
    · split at h
      · next hb =>
        split at h
        · split at h
          · next hbytes =>
            rw [Bool.and_eq_true, Bool.and_eq_true] at hbytes
            rw [← Option.some.inj h]
            exact .four hb hbytes.1.1 hbytes.1.2 hbytes.2
          · cases h
        · cases h
      · cases h

/-- A rune that is found lies in the bytes that it was looked for in, and outside ASCII. -/
theorem runeAfter_some {b : UInt8} {a : List UInt8} {found : Char × Nat}
    (h : runeAfter b a = some found) : found.2 ≤ a.length ∧ 0x80 ≤ found.1.toNat := by
  cases runeAfter_sequence h with
  | two hb h1 =>
    have h1 := isSecond_bounds h1
    refine ⟨by simp, ?_⟩
    rw [toNat_ofNat_char (by omega)]
    omega
  | three hb h1 h2 =>
    have h1 := isSecond_bounds h1
    have h2 := isTail_bounds h2
    refine ⟨by simp, ?_⟩
    rw [toNat_ofNat_char (by omega)]
    omega
  | four hb h1 h2 h3 =>
    have h1 := isSecond_bounds h1
    have h2 := isTail_bounds h2
    have h3 := isTail_bounds h3
    refine ⟨by simp, ?_⟩
    rw [toNat_ofNat_char (by omega)]
    omega

private theorem toValidFrom_append {s : UInt8} (hs : s < 0x80) (a rest : List UInt8) (skip : Nat)
    (invalid : Bool) (hskip : skip ≤ a.length) :
    toValidFrom skip invalid (a ++ s :: rest) =
      toValidFrom skip invalid a ++ Char.ofNat s.toNat :: toValidFrom 0 false rest := by
  induction a generalizing skip invalid with
  | nil =>
    obtain rfl : skip = 0 := by simpa using hskip
    simp [toValidFrom, hs]
  | cons b a ih =>
    cases skip with
    | succ skip =>
      have hle : skip ≤ a.length := by simpa using hskip
      exact ih skip invalid hle
    | zero =>
      rw [List.cons_append, toValidFrom, toValidFrom, runeAfter_append b a hs rest]
      split
      · rw [ih 0 false (Nat.zero_le _), List.cons_append]
      · cases hrune : runeAfter b a with
        | none => rw [ih 0 true (Nat.zero_le _), List.append_assoc]
        | some found =>
          have htail := ih found.2 false (runeAfter_some hrune).1
          simp only [htail, List.cons_append]

/-- An ASCII byte stands for itself, and the texts on its two sides do not see each other. -/
theorem toValidUTF8_append {s : UInt8} (hs : s < 0x80) (a rest : List UInt8) :
    toValidUTF8 (a ++ s :: rest) = toValidUTF8 a ++ Char.ofNat s.toNat :: toValidUTF8 rest :=
  toValidFrom_append hs a rest 0 false (Nat.zero_le _)

private theorem mem_toValidFrom {c : Char} (hc : c.toNat < 0x80) (l : List UInt8) (skip : Nat)
    (invalid : Bool) (h : c ∈ toValidFrom skip invalid l) : ∃ s ∈ l, Char.ofNat s.toNat = c := by
  induction l generalizing skip invalid with
  | nil =>
    cases skip with
    | zero => cases h
    | succ skip => cases h
  | cons b l ih =>
    have hrest : ∀ skip invalid, c ∈ toValidFrom skip invalid l →
        ∃ s ∈ b :: l, Char.ofNat s.toNat = c := by
      intro skip invalid h
      obtain ⟨s, hs, hsc⟩ := ih skip invalid h
      exact ⟨s, List.mem_cons_of_mem b hs, hsc⟩
    cases skip with
    | succ skip => exact hrest skip invalid h
    | zero =>
      rw [toValidFrom] at h
      split at h
      · rcases List.mem_cons.mp h with rfl | h
        · exact ⟨b, List.mem_cons_self, rfl⟩
        · exact hrest 0 false h
      · cases hrune : runeAfter b l with
        | some found =>
          simp only [hrune] at h
          rcases List.mem_cons.mp h with rfl | h
          · have hlow := (runeAfter_some hrune).2
            omega
          · exact hrest found.2 false h
        | none =>
          simp only [hrune, List.mem_append] at h
          rcases h with h | h
          · split at h
            · cases h
            · rw [List.mem_singleton.mp h] at hc
              exact absurd hc (by decide)
          · exact hrest 0 true h

/-- An ASCII character of the text is a byte of the input. -/
theorem mem_toValidUTF8 {c : Char} (hc : c.toNat < 0x80) {l : List UInt8}
    (h : c ∈ toValidUTF8 l) : ∃ s ∈ l, Char.ofNat s.toNat = c :=
  mem_toValidFrom hc l 0 false h

theorem ofNat_toNat_of_lt {s : UInt8} (hs : s < 0x80) :
    (Char.ofNat s.toNat).toNat = s.toNat := by
  have hlt : s.toNat < 0x80 := UInt8.lt_iff_toNat_lt.mp hs
  exact toNat_ofNat_char (Or.inl (by omega))

/-- The ASCII character of a byte is in the text exactly when the byte is in the input. -/
theorem ascii_mem_toValidUTF8 {s : UInt8} (hs : s < 0x80) (l : List UInt8) :
    Char.ofNat s.toNat ∈ toValidUTF8 l ↔ s ∈ l := by
  have hlt : s.toNat < 0x80 := UInt8.lt_iff_toNat_lt.mp hs
  constructor
  · intro h
    obtain ⟨s', hs', heq⟩ := mem_toValidUTF8 (by rw [ofNat_toNat_of_lt hs]; exact hlt) h
    have hnat := congrArg Char.toNat heq
    have hbound := s'.toNat_lt
    rw [ofNat_toNat_of_lt hs, toNat_ofNat_char (Or.inl (by omega))] at hnat
    rw [← UInt8.toNat_inj.mp hnat]
    exact hs'
  · intro h
    obtain ⟨a, rest, rfl⟩ := List.append_of_mem h
    rw [toValidUTF8_append hs]
    simp

/-- Splitting the text at an ASCII character splits the bytes. -/
theorem toValidUTF8_splitOn {s : UInt8} (hs : s < 0x80) (l : List UInt8) :
    (toValidUTF8 l).splitOn (Char.ofNat s.toNat) = (l.splitOn s).map toValidUTF8 := by
  induction hlen : l.length using Nat.strongRecOn generalizing l with
  | _ n ih =>
    by_cases hmem : s ∈ l
    · obtain ⟨a, rest, rfl, ha⟩ := List.eq_append_cons_of_mem hmem
      have hrest := ih rest.length (by rw [← hlen]; simp; omega) rest rfl
      have hnot : Char.ofNat s.toNat ∉ toValidUTF8 a := fun h =>
        ha ((ascii_mem_toValidUTF8 hs a).mp h)
      rw [toValidUTF8_append hs, List.splitOn_append_cons_self_of_not_mem hnot,
        List.splitOn_append_cons_self_of_not_mem ha, hrest, List.map_cons]
    · have hnot : Char.ofNat s.toNat ∉ toValidUTF8 l := fun h =>
        hmem ((ascii_mem_toValidUTF8 hs l).mp h)
      rw [List.splitOn_eq_singleton hnot, List.splitOn_eq_singleton hmem, List.map_singleton]

end OpenHpcWeb.Go
