/-
  The numbers of a request: `parsePositiveJobID`, `parseAuditCursor` and `parseAssociationPage`
  of internal/web take the canonical decimal numerals and no other text.

  The first two are modelled over texts that are UTF-8 (Web.Jobs, Web.AuditLog), which is what
  the handlers compare them with. A parameter of a request may be any bytes, so they are here
  over bytes too: `range` gives a replacement character for what is not UTF-8, and that is no
  digit.

  * `parsePositiveJobID_ok_iff`, `parseAuditCursor_ok_iff`, `parseAssociationPage_ok_iff`: what
    each of them accepts.
  * `decimals_canonical`: so each is the inverse of writing the number.
-/
import OpenHpcWeb.Go.Decimal
import OpenHpcWeb.Web.Associations
import OpenHpcWeb.Web.AuditLog
import OpenHpcWeb.Web.Jobs

namespace OpenHpcWeb.Web

open OpenHpcWeb.Go OpenHpcWeb.Lib
open OpenHpcWeb.Go.Bytes (ascii)

/-! ## Texts -/

theorem other_character_iff {value : String} :
    (value.toList.any fun character => character < '0' || character > '9') = true ↔
      ¬ ∀ c ∈ value.toList, c.isDigit = true := by
  rw [List.any_eq_true, not_forall]
  refine exists_congr fun c => ?_
  rw [Classical.not_imp, Char.isDigit]
  refine and_congr_right fun _ => ?_
  simp only [ge_iff_le, gt_iff_lt, Bool.or_eq_true, Bool.and_eq_true, decide_eq_true_eq,
    not_and_or, UInt32.not_le]
  exact Iff.rfl

theorem parsePositiveJobID_ok_iff {value : String} {id : GoInt} :
    parsePositiveJobID value = .ok id ↔ 0 < id.val ∧ value = formatInt id := by
  constructor
  · intro h
    unfold parsePositiveJobID at h
    split at h
    · cases h
    · next hshape =>
      simp only [not_or] at hshape
      split at h
      · cases h
      · next hdigits =>
        rw [other_character_iff, not_not] at hdigits
        split at h
        · cases h
        · next n hn =>
          split at h
          · cases h
          · cases h
            exact (positive_iff ⟨hshape.1, hshape.2.2, hdigits⟩).mp hn
  · rintro ⟨hpos, rfl⟩
    have hdigits := digits_formatInt hpos
    have hlen := byteLen_formatInt (le_of_lt hpos)
    unfold parsePositiveJobID
    rw [if_neg (by simp [hdigits.ne_empty, hdigits.head, hlen]),
      if_neg (by rw [other_character_iff, not_not]; exact hdigits.digits),
      parseInt_formatInt (le_of_lt hpos)]
    exact if_neg (not_le.mpr hpos)

/-- A cursor is read as a job ID is. -/
theorem parseAuditCursor_eq {value : String} (hne : value ≠ "") :
    parseAuditCursor value =
      (parsePositiveJobID value).mapError fun _ => "invalid audit cursor" := by
  have hany : (value.toList.any fun c => c < '0' ∨ '9' < c) =
      value.toList.any fun character => character < '0' || character > '9' := by
    congr 1
    funext c
    exact Bool.decide_or _ _
  unfold parseAuditCursor parsePositiveJobID
  rw [if_neg hne, hany]
  simp only [hne, false_or, gt_iff_lt]
  split
  · rfl
  · split
    · rfl
    · cases parseInt value with
      | none => rfl
      | some n =>
        dsimp only
        split <;> rfl

theorem parseAuditCursor_ok_iff {value : String} (hne : value ≠ "") {cursor : GoInt} :
    parseAuditCursor value = .ok cursor ↔ 0 < cursor.val ∧ value = formatInt cursor := by
  rw [parseAuditCursor_eq hne, ← parsePositiveJobID_ok_iff]
  cases parsePositiveJobID value with
  | error e => exact iff_of_false (fun h => nomatch h) fun h => nomatch h
  | ok n => exact Iff.rfl

/-! ## Parameters that need not be UTF-8 -/

/-- The body of the first two parsers, with the text of their error. -/
def parsePositive (err : String) (value : List UInt8) : Except String GoInt :=
  if value = [] ∨ 19 < value.length ∨ value.head? = some 0x30 then .error err
  else if value.any fun b => !Bytes.isDigit b then .error err
  else
    match Bytes.parseInt value with
    | none => .error err
    | some n => if n.val ≤ 0 then .error err else .ok n

/-- `parsePositiveJobID`. -/
def parsePositiveJobIDBytes (value : List UInt8) : Except String GoInt :=
  parsePositive "invalid job ID" value

/-- `parseAuditCursor`. -/
def parseAuditCursorBytes (value : List UInt8) : Except String GoInt :=
  if value = [] then .ok (wrap64 0) else parsePositive "invalid audit cursor" value

theorem other_byte_iff {value : List UInt8} :
    (value.any fun b => !Bytes.isDigit b) = true ↔ ¬ ∀ b ∈ value, Bytes.isDigit b = true := by
  simp

theorem parsePositive_ok_iff {err : String} {value : List UInt8} {n : GoInt} :
    parsePositive err value = .ok n ↔ 0 < n.val ∧ value = ascii (formatInt n) := by
  constructor
  · intro h
    unfold parsePositive at h
    split at h
    · cases h
    · next hshape =>
      simp only [not_or] at hshape
      split at h
      · cases h
      · next hdigits =>
        rw [other_byte_iff, not_not] at hdigits
        split at h
        · cases h
        · next m hm =>
          split at h
          · cases h
          · cases h
            exact (Bytes.positive_bytes_iff ⟨hshape.1, hshape.2.2, hdigits⟩).mp hm
  · rintro ⟨hpos, rfl⟩
    have hdigits := Bytes.digits_ascii hpos
    have hlen := Bytes.length_ascii_formatInt (le_of_lt hpos)
    unfold parsePositive
    rw [if_neg (by simp [hdigits.ne_nil, hdigits.head, hlen]),
      if_neg (by rw [other_byte_iff, not_not]; exact hdigits.digits),
      (Bytes.positive_bytes_iff hdigits).mpr ⟨hpos, rfl⟩]
    exact if_neg (not_le.mpr hpos)

theorem parseAssociationPage_ok_iff {value : List UInt8} (hne : value ≠ [])
    {page : AssociationPage} :
    parseAssociationPage value = .ok page ↔ value = ascii page.val.repr := by
  constructor
  · intro h
    unfold parseAssociationPage at h
    rw [if_neg hne] at h
    split at h
    · cases h
    · next hshape =>
      simp only [not_or] at hshape
      split at h
      · cases h
      · next hdigits =>
        rw [other_byte_iff, not_not] at hdigits
        split at h
        · cases h
        · next n hn =>
          split at h
          · next hrange =>
            cases h
            have hvalue := ((Bytes.positive_bytes_iff ⟨hne, hshape.2, hdigits⟩).mp hn).2
            have hnat : n.val = (n.val.toNat : Int) := by omega
            rwa [formatInt_natCast hnat] at hvalue
          · cases h
  · rintro rfl
    exact parseAssociationPage_repr page

/-! ## The numerals -/

/-- Of the texts that are not empty, `parse` accepts the numerals of `1..max`, as `write` writes
    them, and is the inverse of writing the number. -/
structure Canonical {τ ν : Type} (empty : τ) (write : Nat → τ) (parse : τ → Except String ν)
    (number : ν → Int) (max : Nat) : Prop where
  accepted : ∀ text ≠ empty,
    (∃ n, parse text = .ok n) ↔ ∃ k, 1 ≤ k ∧ k ≤ max ∧ text = write k
  parsed : ∀ k, 1 ≤ k → k ≤ max → ∃ n, parse (write k) = .ok n ∧ number n = k
  formatted : ∀ text ≠ empty, ∀ n, parse text = .ok n → write (number n).toNat = text
  injective : ∀ text ≠ empty, ∀ text' ≠ empty, ∀ n n', parse text = .ok n →
    parse text' = .ok n' → number n = number n' → text = text'

/-- What accepts exactly the numbers as they are written is canonical. -/
theorem canonical_of_iff {τ ν : Type} {empty : τ} {write : Nat → τ}
    {parse : τ → Except String ν} {number : ν → Int} {max : Nat}
    (hwrite : ∀ k, write k ≠ empty)
    (hparse : ∀ text ≠ empty, ∀ n, parse text = .ok n ↔
      1 ≤ number n ∧ number n ≤ max ∧ text = write (number n).toNat)
    (hnumber : ∀ k : Nat, 1 ≤ k → k ≤ max → ∃ n, number n = k) :
    Canonical empty write parse number max := by
  have hparsed : ∀ k, 1 ≤ k → k ≤ max → ∃ n, parse (write k) = .ok n ∧ number n = k := by
    intro k hlow hhigh
    obtain ⟨n, hn⟩ := hnumber k hlow hhigh
    refine ⟨n, (hparse _ (hwrite k) n).mpr ⟨by omega, by omega, ?_⟩, hn⟩
    rw [hn, Int.toNat_natCast]
  have hformatted : ∀ text ≠ empty, ∀ n, parse text = .ok n → write (number n).toNat = text :=
    fun text hne n h => ((hparse text hne n).mp h).2.2.symm
  refine ⟨fun text hne => ⟨?_, ?_⟩, hparsed, hformatted, ?_⟩
  · rintro ⟨n, hn⟩
    obtain ⟨hlow, hhigh, htext⟩ := (hparse text hne n).mp hn
    exact ⟨(number n).toNat, by omega, by omega, htext⟩
  · rintro ⟨k, hlow, hhigh, rfl⟩
    obtain ⟨n, hn, -⟩ := hparsed k hlow hhigh
    exact ⟨n, hn⟩
  · intro text hne text' hne' n n' hn hn' heq
    rw [← hformatted text hne n hn, ← hformatted text' hne' n' hn', heq]

/-- The numbers of 64 bits above zero, with a text that is that of `formatInt`. -/
theorem canonical_of_formatInt {τ : Type} {empty : τ} {write : Nat → τ}
    {parse : τ → Except String GoInt} (hwrite : ∀ k, write k ≠ empty)
    (hparse : ∀ text ≠ empty, ∀ n : GoInt, parse text = .ok n ↔
      0 < n.val ∧ text = write n.val.toNat) :
    Canonical empty write parse Subtype.val (2 ^ 63 - 1) := by
  refine canonical_of_iff hwrite (fun text hne n => ?_) fun k hlow hhigh => ?_
  · have hrange := n.property.2
    rw [hparse text hne n]
    exact ⟨fun h => ⟨by omega, by omega, h.2⟩, fun h => ⟨by omega, h.2.2⟩⟩
  · exact ⟨wrap64 k, wrap64_val (by omega) (by omega)⟩

theorem formatInt_toNat {n : GoInt} (h : 0 < n.val) : formatInt n = n.val.toNat.repr :=
  formatInt_natCast (by omega)

theorem ascii_repr_ne_nil (k : Nat) : ascii k.repr ≠ [] := (numeral_repr k).ne_nil

/-- Job IDs, audit cursors and pages are read from their canonical numerals alone. -/
theorem decimals_canonical :
    Canonical "" Nat.repr parsePositiveJobID Subtype.val (2 ^ 63 - 1) ∧
    Canonical "" Nat.repr parseAuditCursor Subtype.val (2 ^ 63 - 1) ∧
    Canonical [] (fun k => ascii k.repr) parsePositiveJobIDBytes Subtype.val (2 ^ 63 - 1) ∧
    Canonical [] (fun k => ascii k.repr) parseAuditCursorBytes Subtype.val (2 ^ 63 - 1) ∧
    Canonical [] (fun k => ascii k.repr) parseAssociationPage (fun page => page.val)
      maxAssociationPages ∧
    (∀ id, parsePositiveJobID "" ≠ .ok id) ∧ ∀ id, parsePositiveJobIDBytes [] ≠ .ok id := by
  have hrepr : ∀ k : Nat, k.repr ≠ "" := fun k => Nat.repr_ne_empty
  have hbytes : ∀ {err value} {n : GoInt}, parsePositive err value = .ok n ↔
      0 < n.val ∧ value = ascii n.val.toNat.repr := by
    intro err value n
    rw [parsePositive_ok_iff]
    exact and_congr_right fun hpos => by rw [formatInt_toNat hpos]
  refine ⟨canonical_of_formatInt hrepr fun text _ n => ?_,
    canonical_of_formatInt hrepr fun text hne n => ?_,
    canonical_of_formatInt ascii_repr_ne_nil fun text _ n => hbytes,
    canonical_of_formatInt ascii_repr_ne_nil fun text hne n => ?_,
    canonical_of_iff ascii_repr_ne_nil (fun text hne page => ?_) fun k hlow hhigh => ?_,
    fun id h => ?_, fun id h => ?_⟩
  · rw [parsePositiveJobID_ok_iff]
    exact and_congr_right fun hpos => by rw [formatInt_toNat hpos]
  · rw [parseAuditCursor_ok_iff hne]
    exact and_congr_right fun hpos => by rw [formatInt_toNat hpos]
  · rw [parseAuditCursorBytes, if_neg hne]
    exact hbytes
  · have hrange := page.property
    rw [parseAssociationPage_ok_iff hne, Int.toNat_natCast]
    exact ⟨fun h => ⟨by omega, by omega, h⟩, fun h => h.2.2⟩
  · exact ⟨⟨k, hlow, hhigh⟩, rfl⟩
  · cases h
  · cases h

end OpenHpcWeb.Web
