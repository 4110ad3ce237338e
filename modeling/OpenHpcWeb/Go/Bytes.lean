/-
  Go strings that need not be UTF-8: what `strings` does with the bytes that a command writes.

  White space and case are properties of runes. The runes that matter here have few encodings,
  so `TrimSpace` and `EqualFold` look for those, and leave other bytes as they are.

  * `trimSpace_of_graphic`: a text between two graphic ASCII characters is left as it is.
  * `split_eq_iff`: the pieces of a split, joined, are the text.
  * `parseInt_eq_some_iff`: what `strconv.ParseInt` reads are numerals.
-/
import OpenHpcWeb.Go.Strconv

namespace OpenHpcWeb.Go.Bytes

/-- The bytes of an ASCII text. -/
def ascii (s : String) : List UInt8 := s.toList.map fun c => UInt8.ofNat c.toNat

/-- The bytes of a text. -/
def encode (s : String) : List UInt8 := s.toUTF8.data.toList

/-- The text of the bytes; `none` where `utf8.ValidString` is false. -/
def decode (s : List UInt8) : Option String := String.fromUTF8? ⟨s.toArray⟩

theorem decode_encode (s : String) : decode (encode s) = some s := by
  have hbytes : (⟨(encode s).toArray⟩ : ByteArray) = s.toByteArray := rfl
  unfold decode String.fromUTF8?
  rw [hbytes, dif_pos s.isValidUTF8]
  rfl

theorem encode_of_decode {b : List UInt8} {s : String} (h : decode b = some s) : encode s = b := by
  unfold decode String.fromUTF8? at h
  split at h
  · cases h
    rfl
  · cases h

theorem length_encode (s : String) : (encode s).length = byteLen s := rfl

/-! ## `strings` -/

/-- The encodings of the runes that are white space. -/
def spaceRunes : List (List UInt8) :=
  [[0x09], [0x0a], [0x0b], [0x0c], [0x0d], [0x20], [0xc2, 0x85], [0xc2, 0xa0], [0xe1, 0x9a, 0x80],
    [0xe2, 0x80, 0x80], [0xe2, 0x80, 0x81], [0xe2, 0x80, 0x82], [0xe2, 0x80, 0x83],
    [0xe2, 0x80, 0x84], [0xe2, 0x80, 0x85], [0xe2, 0x80, 0x86], [0xe2, 0x80, 0x87],
    [0xe2, 0x80, 0x88], [0xe2, 0x80, 0x89], [0xe2, 0x80, 0x8a], [0xe2, 0x80, 0xa8],
    [0xe2, 0x80, 0xa9], [0xe2, 0x80, 0xaf], [0xe2, 0x81, 0x9f], [0xe3, 0x80, 0x80]]

/-- Takes runes off the front: `skip` bytes belong to the rune before. -/
def dropRunes (runes : List (List UInt8)) : Nat → List UInt8 → List UInt8
  | _, [] => []
  | skip + 1, _ :: rest => dropRunes runes skip rest
  | 0, b :: rest =>
    match runes.find? fun rune => rune.isPrefixOf (b :: rest) with
    | some rune => dropRunes runes (rune.length - 1) rest
    | none => b :: rest

/-- `strings.TrimSpace`; a rune at the end is read backwards. -/
def trimSpace (s : List UInt8) : List UInt8 :=
  (dropRunes (spaceRunes.map List.reverse) 0 (dropRunes spaceRunes 0 s).reverse).reverse

/-- `strings.HasPrefix`. -/
def hasPrefix (s pre : List UInt8) : Bool := pre.isPrefixOf s

/-- `strings.TrimPrefix`. -/
def trimPrefix (s pre : List UInt8) : List UInt8 :=
  if hasPrefix s pre then s.drop pre.length else s

/-- `strings.TrimSuffix` of one byte. -/
def trimSuffix (s : List UInt8) (suffix : UInt8) : List UInt8 :=
  if s.getLast? = some suffix then s.dropLast else s

/-- `strings.Split` at one byte. -/
def split (s : List UInt8) (sep : UInt8) : List (List UInt8) := s.splitOn sep

/-- `strings.Cut` at one byte; `none` is not found. -/
def cut (s : List UInt8) (sep : UInt8) : Option (List UInt8 × List UInt8) :=
  if sep ∈ s then some (s.takeWhile (· ≠ sep), (s.dropWhile (· ≠ sep)).drop 1) else none

def lower (b : UInt8) : UInt8 := if 0x41 ≤ b ∧ b ≤ 0x5a then b + 0x20 else b

/-- A text in lower case: the Kelvin sign and the long s are the only runes outside ASCII that
    fold to an ASCII letter. -/
def fold : List UInt8 → List UInt8
  | 0xe2 :: 0x84 :: 0xaa :: rest => 0x6b :: fold rest
  | 0xc5 :: 0xbf :: rest => 0x73 :: fold rest
  | b :: rest => lower b :: fold rest
  | [] => []

/-- `strings.EqualFold` with an ASCII text. -/
def equalFold (s text : List UInt8) : Bool := fold s = text.map lower

/-! ## `strconv` -/

def isDigit (b : UInt8) : Bool := 0x30 ≤ b && b ≤ 0x39

/-- The characters that have the bytes as code points. -/
def latin1 (s : List UInt8) : String := String.ofList (s.map fun b => Char.ofNat b.toNat)

/-- `strconv.ParseInt` to base 10 and 64 bits, which knows no character outside ASCII. -/
def parseInt (s : List UInt8) : Option GoInt := Go.parseInt (latin1 s)

/-- The number that decimal digits write. -/
def digitsValue (digits : List UInt8) : Nat := digits.foldl (fun n b => 10 * n + (b.toNat - 0x30)) 0

/-- A numeral to base 10 with an optional plus sign. -/
def Numeral (s : List UInt8) (n : Nat) : Prop :=
  ∃ digits, (s = digits ∨ s = 0x2b :: digits) ∧ digits ≠ [] ∧ (∀ b ∈ digits, isDigit b = true) ∧
    digitsValue digits = n

example : (parseInt (ascii "+042")).map Subtype.val = some 42 ∧
    trimSpace (ascii " \t1 2\r\n") = ascii "1 2" := by
  decide +kernel

/-! ## White space -/

/-- A printable character of ASCII other than the space. -/
def isGraphic (b : UInt8) : Bool := 0x21 ≤ b && b ≤ 0x7e

theorem dropRunes_of_graphic {runes : List (List UInt8)}
    (hrunes : ∀ rune ∈ runes, rune.head?.any (fun c => !isGraphic c) = true) {s : List UInt8}
    (hs : ∀ b ∈ s.head?, isGraphic b = true) : dropRunes runes 0 s = s := by
  cases s with
  | nil => rfl
  | cons b rest =>
    have hnone : (runes.find? fun rune => rune.isPrefixOf (b :: rest)) = none := by
      rw [List.find?_eq_none]
      intro rune hrune hpre
      have hc := hrunes rune hrune
      cases rune with
      | nil => cases hc
      | cons c tail =>
        rw [List.isPrefixOf_iff_prefix, List.cons_prefix_cons] at hpre
        rw [List.head?_cons, Option.any_some, hpre.1, hs b rfl] at hc
        cases hc
    rw [dropRunes, hnone]

theorem trimSpace_of_graphic {s : List UInt8} (hhead : ∀ b ∈ s.head?, isGraphic b = true)
    (hlast : ∀ b ∈ s.getLast?, isGraphic b = true) : trimSpace s = s := by
  have hfirst : dropRunes spaceRunes 0 s = s := dropRunes_of_graphic (by decide) hhead
  have hsecond : dropRunes (spaceRunes.map List.reverse) 0 s.reverse = s.reverse :=
    dropRunes_of_graphic (by decide) (by rwa [List.head?_reverse])
  rw [trimSpace, hfirst, hsecond, List.reverse_reverse]

/-! ## Pieces -/

theorem not_mem_of_mem_split {s : List UInt8} {sep : UInt8} :
    ∀ piece ∈ split s sep, sep ∉ piece := by
  unfold split
  induction s with
  | nil => simp
  | cons b rest ih =>
    rw [List.splitOn_cons_eq_if_modifyHead]
    split
    · simpa using ih
    · next hb =>
      cases h : rest.splitOn sep with
      | nil => exact absurd h (List.splitOn_ne_nil sep rest)
      | cons first others =>
        rw [h] at ih
        have hne : sep ≠ b := fun heq => hb (by simp [heq])
        simpa [hne] using ih

theorem mem_of_mem_split {s : List UInt8} {sep : UInt8} :
    ∀ piece ∈ split s sep, ∀ b ∈ piece, b ∈ s := by
  unfold split
  induction s with
  | nil => simp
  | cons c rest ih =>
    rw [List.splitOn_cons_eq_if_modifyHead]
    split
    · intro piece hpiece b hb
      rcases List.mem_cons.mp hpiece with rfl | hpiece
      · cases hb
      · exact List.mem_cons_of_mem c (ih piece hpiece b hb)
    · cases h : rest.splitOn sep with
      | nil => exact absurd h (List.splitOn_ne_nil sep rest)
      | cons first others =>
        rw [h] at ih
        intro piece hpiece b hb
        rcases List.mem_cons.mp hpiece with rfl | hpiece
        · rcases List.mem_cons.mp hb with rfl | hb
          · exact List.mem_cons_self
          · exact List.mem_cons_of_mem c (ih first List.mem_cons_self b hb)
        · exact List.mem_cons_of_mem c (ih piece (List.mem_cons_of_mem first hpiece) b hb)

/-- The pieces of a split do not have the separator; joined, they are the text. -/
theorem split_eq_iff {s : List UInt8} {sep : UInt8} {pieces : List (List UInt8)} :
    split s sep = pieces ↔
      pieces ≠ [] ∧ (∀ piece ∈ pieces, sep ∉ piece) ∧ s = [sep].intercalate pieces := by
  constructor
  · rintro rfl
    exact ⟨List.splitOn_ne_nil sep s, not_mem_of_mem_split, (List.intercalate_splitOn sep).symm⟩
  · rintro ⟨hne, hmem, rfl⟩
    exact List.splitOn_intercalate sep hmem hne

/-! ## Case -/

/-- Folding leaves an ASCII character at the end in lower case. -/
theorem fold_append (s : List UInt8) {b : UInt8} (hb : b < 0x80) :
    fold (s ++ [b]) = fold s ++ [lower b] := by
  induction s using fold.induct with
  | case1 rest ih => simp [fold, ih]
  | case2 rest ih => simp [fold, ih]
  | case3 c rest hkelvin hlong ih =>
    have hkelvin' : ∀ tail, c = 0xe2 → rest ++ [b] = 0x84 :: 0xaa :: tail → False := by
      intro tail hc htail
      rcases rest with _ | ⟨c₁, _ | ⟨c₂, more⟩⟩
      · simp at htail
      · have hlast : b = 0xaa := by
          simp at htail
          exact htail.2.1
        rw [hlast] at hb
        exact absurd hb (by decide)
      · simp only [List.cons_append, List.cons.injEq] at htail
        exact hkelvin more hc (by rw [htail.1, htail.2.1])
    have hlong' : ∀ tail, c = 0xc5 → rest ++ [b] = 0xbf :: tail → False := by
      intro tail hc htail
      rcases rest with _ | ⟨c₁, more⟩
      · have hlast : b = 0xbf := by
          simp at htail
          exact htail.1
        rw [hlast] at hb
        exact absurd hb (by decide)
      · simp only [List.cons_append, List.cons.injEq] at htail
        exact hlong more hc (by rw [htail.1])
    rw [List.cons_append, fold.eq_3 c (rest ++ [b]) hkelvin' hlong', fold.eq_3 c rest hkelvin hlong,
      ih, List.cons_append]
  | case4 =>
    rw [List.nil_append, fold.eq_3 b [] (by simp) (by simp)]
    rfl

/-! ## Numerals -/

theorem isDigit_bounds {b : UInt8} (h : isDigit b = true) : 0x30 ≤ b.toNat ∧ b.toNat ≤ 0x39 := by
  simpa [isDigit, UInt8.le_iff_toNat_le] using h

theorem isDigit_lower {b : UInt8} (h : isDigit b = true) : lower b = b := by
  have hbounds := isDigit_bounds h
  unfold lower
  rw [if_neg]
  rintro ⟨hupper, -⟩
  rw [UInt8.le_iff_toNat_le] at hupper
  exact absurd (hupper.trans hbounds.2) (by decide)

theorem toNat_latin1 (b : UInt8) : (Char.ofNat b.toNat).toNat = b.toNat := by
  have hlt := b.toNat_lt
  have hvalid : b.toNat.isValidChar := .inl (by omega)
  rw [Char.ofNat, dif_pos hvalid]
  rfl

theorem isDigit_latin1 (b : UInt8) : (Char.ofNat b.toNat).isDigit = isDigit b := by
  have hval : (Char.ofNat b.toNat).val.toNat = b.toNat := toNat_latin1 b
  simp [Char.isDigit, isDigit, UInt32.le_iff_toNat_le, UInt8.le_iff_toNat_le, hval]

theorem parseDigits_latin1 (digits : List UInt8) :
    parseDigits (digits.map fun b => Char.ofNat b.toNat) =
      if digits ≠ [] ∧ digits.all isDigit = true then some (digitsValue digits) else none := by
  have hfold : ∀ (l : List UInt8) (n : Nat),
      (l.map fun b => Char.ofNat b.toNat).foldl (fun n c => 10 * n + (c.toNat - '0'.toNat)) n =
        l.foldl (fun n b => 10 * n + (b.toNat - 0x30)) n := by
    intro l
    induction l with
    | nil => intro n; rfl
    | cons b l ih =>
      intro n
      rw [List.map_cons, List.foldl_cons, List.foldl_cons, ih, toNat_latin1]
      rfl
  have hall : ((digits.map fun b => Char.ofNat b.toNat).all Char.isDigit) = digits.all isDigit := by
    rw [List.all_map]
    exact congrArg digits.all (funext isDigit_latin1)
  unfold parseDigits digitsValue
  rw [hfold]
  simp only [ne_eq, List.map_eq_nil_iff, hall]

/-- What `ParseInt` reads without a minus sign are the numerals in range. -/
theorem parseInt_eq_some_iff {s : List UInt8} (hminus : s.head? ≠ some 0x2d) {n : GoInt} :
    parseInt s = some n ↔ ∃ m : Nat, Numeral s m ∧ n.val = m := by
  have hread : ∀ digits : List UInt8,
      ((parseDigits (digits.map fun b => Char.ofNat b.toNat)).bind fun m => toGoInt (m : Int)) =
        some n ↔ digits ≠ [] ∧ (∀ b ∈ digits, isDigit b = true) ∧ n.val = digitsValue digits := by
    intro digits
    rw [parseDigits_latin1]
    split
    · next h =>
      rw [Option.bind_some, toGoInt_eq_some_iff]
      exact ⟨fun hn => ⟨h.1, List.all_eq_true.mp h.2, hn⟩, fun hn => hn.2.2⟩
    · next h =>
      constructor
      · intro hn; cases hn
      · intro hn
        exact absurd ⟨hn.1, List.all_eq_true.mpr hn.2.1⟩ h
  have hchar : ∀ (b c : UInt8), Char.ofNat b.toNat = Char.ofNat c.toNat → b = c := by
    intro b c hc
    rw [← UInt8.toNat_inj, ← toNat_latin1 b, hc, toNat_latin1]
  unfold parseInt Go.parseInt latin1
  rw [String.toList_ofList]
  split
  · next chars hchars =>
    -- the minus sign
    obtain ⟨b, rest, rfl, hb, -⟩ := List.map_eq_cons_iff.mp hchars
    rw [hchar b 0x2d hb] at hminus
    exact absurd rfl hminus
  · next chars hchars =>
    obtain ⟨b, rest, rfl, hb, rfl⟩ := List.map_eq_cons_iff.mp hchars
    obtain rfl : b = 0x2b := hchar b 0x2b hb
    rw [hread]
    constructor
    · intro h
      exact ⟨_, ⟨rest, .inr rfl, h.1, h.2.1, rfl⟩, h.2.2⟩
    · intro h
      obtain ⟨m, ⟨digits, hs, hne, hdigits, rfl⟩, hn⟩ := h
      rcases hs with rfl | hs
      · exact absurd (hdigits 0x2b List.mem_cons_self) (by decide)
      · obtain rfl : rest = digits := (List.cons.inj hs).2
        exact ⟨hne, hdigits, hn⟩
  · next hno hplus =>
    rw [hread]
    constructor
    · intro h
      exact ⟨_, ⟨s, .inl rfl, h.1, h.2.1, rfl⟩, h.2.2⟩
    · intro h
      obtain ⟨m, ⟨digits, hs, hne, hdigits, rfl⟩, hn⟩ := h
      rcases hs with rfl | rfl
      · exact ⟨hne, hdigits, hn⟩
      · exact absurd rfl (hplus _)

theorem char_of_digit {c : Char} (h : c.isDigit = true) :
    Char.ofNat (UInt8.ofNat c.toNat).toNat = c := by
  have hlt : c.toNat < 256 := by
    simp only [Char.isDigit, Bool.and_eq_true, decide_eq_true_eq, UInt32.le_iff_toNat_le] at h
    exact lt_of_le_of_lt h.2 (by decide)
  rw [UInt8.toNat_ofNat_of_lt' hlt, Char.ofNat_toNat]

theorem isDigit_ofNat {c : Char} (h : c.isDigit = true) : isDigit (UInt8.ofNat c.toNat) = true := by
  rw [← isDigit_latin1, char_of_digit h]
  exact h

/-- Digits that are read are a numeral. -/
theorem numeral_of_parseDigits {chars : List Char} {n : Nat} (h : parseDigits chars = some n) :
    Numeral (chars.map fun c => UInt8.ofNat c.toNat) n := by
  have hdigits : ∀ c ∈ chars, c.isDigit = true := by
    unfold parseDigits at h
    split at h
    · next hchars => exact List.all_eq_true.mp hchars.2
    · cases h
  have hback : (chars.map fun c => UInt8.ofNat c.toNat).map (fun b => Char.ofNat b.toNat) =
      chars := by
    rw [List.map_map]
    exact (List.map_congr_left fun c hc => char_of_digit (hdigits c hc)).trans (List.map_id chars)
  rw [← hback, parseDigits_latin1] at h
  split at h
  · next hbytes =>
    exact ⟨_, .inl rfl, hbytes.1, List.all_eq_true.mp hbytes.2, Option.some.inj h⟩
  · cases h

namespace Numeral

variable {s : List UInt8} {n : Nat}

/-- The characters of a numeral are digits and the sign. -/
theorem digit_or_plus (h : Numeral s n) : ∀ b ∈ s, isDigit b = true ∨ b = 0x2b := by
  obtain ⟨digits, hs, -, hdigits, -⟩ := h
  intro b hb
  rcases hs with rfl | rfl
  · exact .inl (hdigits b hb)
  · rcases List.mem_cons.mp hb with rfl | hb
    · exact .inr rfl
    · exact .inl (hdigits b hb)

theorem not_mem (h : Numeral s n) {sep : UInt8} (hdigit : isDigit sep = false)
    (hplus : sep ≠ 0x2b) : sep ∉ s := by
  intro hmem
  rcases h.digit_or_plus sep hmem with hsep | hsep
  · rw [hdigit] at hsep
    cases hsep
  · exact hplus hsep

theorem ne_nil (h : Numeral s n) : s ≠ [] := by
  obtain ⟨digits, hs, hne, -, -⟩ := h
  rcases hs with rfl | rfl
  · exact hne
  · exact List.cons_ne_nil _ _

/-- A numeral ends in a digit. -/
theorem exists_last (h : Numeral s n) : ∃ front b, s = front ++ [b] ∧ isDigit b = true := by
  obtain ⟨digits, hs, hne, hdigits, -⟩ := h
  have hlast : digits = digits.dropLast ++ [digits.getLast hne] :=
    (List.dropLast_append_getLast hne).symm
  have hdigit := hdigits _ (List.getLast_mem hne)
  rcases hs with rfl | rfl
  · exact ⟨_, _, hlast, hdigit⟩
  · exact ⟨0x2b :: digits.dropLast, _, by rw [List.cons_append, ← hlast], hdigit⟩

end Numeral

end OpenHpcWeb.Go.Bytes
