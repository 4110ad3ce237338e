/-
  What redaction hides.

  `redact` looks at the first `=` of a line: where the text before it contains a marker,
  everything after it goes. A secret behind another pair is left. Two contents that differ
  only in secrets agree up to the first `=` of every line (`beforeEq_eq`), so each of their
  lines is redacted in both or in neither.

  * `redactLine_eq_iff`: two such lines look the same afterwards exactly when they looked the
    same before, or are redacted.
  * `read_noninterfering_iff`: so do two files.
-/
import Mathlib.Data.List.Forall2
import OpenHpcWeb.Slurmconfig.Provider

namespace OpenHpcWeb.Slurmconfig

open OpenHpcWeb.Go

/-! ## Contents that differ in secrets -/

abbrev newline : UInt8 := 0x0a
abbrev space : UInt8 := 0x20
abbrev equalsSign : UInt8 := 0x3d

def textOf (b : List UInt8) : String := String.ofList (toValidUTF8 b)

section Relation

variable [UnicodeCase]

/-- Two fields of a line: the same, or pairs of one sensitive key. -/
def SameField (f f' : List UInt8) : Prop :=
  f = f' ∨ ∃ key value value', equalsSign ∉ key ∧ hasMarker (textOf key) = true ∧
    f = key ++ equalsSign :: value ∧ f' = key ++ equalsSign :: value'

/-- Lines of the same fields, which single spaces separate. -/
def SameLine (l l' : List UInt8) : Prop :=
  List.Forall₂ SameField (l.splitOn space) (l'.splitOn space)

/-- Contents that differ only in the values of key=value pairs with a sensitive key. -/
def DifferInSecrets (c c' : List UInt8) : Prop :=
  List.Forall₂ SameLine (c.splitOn newline) (c'.splitOn newline)

/-- A line that `redact` cuts at its first `=`. -/
def Redacted (line : String) : Prop :=
  '=' ∈ line.toList ∧ line.toList.takeWhile (· ≠ '=') ≠ [] ∧
    hasMarker (trimSpace (String.ofList (line.toList.takeWhile (· ≠ '=')))) = true

/-- Where the texts of two lines differ, the text before the first `=` contains a marker. -/
def Shielded (c c' : List UInt8) : Prop :=
  List.Forall₂ (fun l l' => textOf l = textOf l' ∨ Redacted (textOf l)) (c.splitOn newline)
    (c'.splitOn newline)

end Relation

/-! ## The first `=` of a line -/

/-- What stands before the first `=`, if there is one. -/
def beforeEq (l : List UInt8) : Option (List UInt8) :=
  if equalsSign ∈ l then some (l.takeWhile (· ≠ equalsSign)) else none

theorem takeWhile_ne {α : Type} [DecidableEq α] {s : α} {key : List α} (hkey : s ∉ key)
    (rest : List α) : (key ++ s :: rest).takeWhile (· ≠ s) = key := by
  have hall : ∀ a ∈ key, decide (a ≠ s) = true := by
    intro a ha
    rw [decide_eq_true_eq]
    intro heq
    exact hkey (heq ▸ ha)
  rw [List.takeWhile_append_of_pos hall]
  simp

theorem beforeEq_pair {key : List UInt8} (hkey : equalsSign ∉ key) (value : List UInt8) :
    beforeEq (key ++ equalsSign :: value) = some key := by
  rw [beforeEq, if_pos (by simp), takeWhile_ne hkey]

theorem beforeEq_append_of_mem {f : List UInt8} (hf : equalsSign ∈ f) (rest : List UInt8) :
    beforeEq (f ++ rest) = beforeEq f := by
  obtain ⟨key, value, rfl, hkey⟩ := List.eq_append_cons_of_mem hf
  rw [beforeEq_pair hkey, List.append_assoc, List.cons_append, beforeEq_pair hkey]

theorem beforeEq_append_of_not_mem {f : List UInt8} (hf : equalsSign ∉ f) (rest : List UInt8) :
    beforeEq (f ++ rest) = (beforeEq rest).map (f ++ ·) := by
  unfold beforeEq
  by_cases hrest : equalsSign ∈ rest
  · obtain ⟨key, value, rfl, hkey⟩ := List.eq_append_cons_of_mem hrest
    have hall : equalsSign ∉ f ++ key := by simp [hf, hkey]
    rw [if_pos (by simp), if_pos (by simp), ← List.append_assoc, takeWhile_ne hall,
      takeWhile_ne hkey, Option.map_some]
  · have hnot : equalsSign ∉ f ++ rest := by simp [hf, hrest]
    rw [if_neg hnot, if_neg hrest, Option.map_none]

section Lines

variable [UnicodeCase]

theorem SameField.beforeEq_eq {f f' : List UInt8} (h : SameField f f') :
    beforeEq f = beforeEq f' := by
  rcases h with rfl | ⟨key, value, value', hkey, -, rfl, rfl⟩
  · rfl
  · rw [beforeEq_pair hkey, beforeEq_pair hkey]

/-- A field without `=` is the same in both lines. -/
theorem SameField.eq_of_not_mem {f f' : List UInt8} (h : SameField f f') (hf : equalsSign ∉ f) :
    f = f' := by
  rcases h with rfl | ⟨key, value, value', -, -, rfl, -⟩
  · rfl
  · simp at hf

private theorem beforeEq_intercalate {fs fs' : List (List UInt8)}
    (h : List.Forall₂ SameField fs fs') :
    beforeEq ([space].intercalate fs) = beforeEq ([space].intercalate fs') := by
  induction h with
  | nil => rfl
  | @cons f f' fs fs' hf hfs ih =>
    cases hfs with
    | nil => simpa using hf.beforeEq_eq
    | @cons g g' gs gs' hg hgs =>
      rw [List.intercalate_cons_cons, List.intercalate_cons_cons]
      by_cases hmem : equalsSign ∈ f
      · have hmem' : equalsSign ∈ f' := by
          by_contra hnot
          have hsame := hf.beforeEq_eq
          rw [beforeEq, beforeEq, if_pos hmem, if_neg hnot] at hsame
          cases hsame
        rw [List.append_assoc, List.append_assoc, beforeEq_append_of_mem hmem,
          beforeEq_append_of_mem hmem', hf.beforeEq_eq]
      · have heq := hf.eq_of_not_mem hmem
        subst heq
        have hne : equalsSign ≠ space := by decide
        have hnot : equalsSign ∉ f ++ [space] := by simp [hmem, hne]
        rw [beforeEq_append_of_not_mem hnot, beforeEq_append_of_not_mem hnot, ih]

/-- Lines of the same fields agree up to their first `=`. -/
theorem SameLine.beforeEq_eq {l l' : List UInt8} (h : SameLine l l') :
    beforeEq l = beforeEq l' := by
  have hsame := beforeEq_intercalate h
  rwa [List.intercalate_splitOn, List.intercalate_splitOn] at hsame

/-! ## One line -/

omit [UnicodeCase] in
theorem equals_mem_iff (l : List UInt8) : '=' ∈ (textOf l).toList ↔ equalsSign ∈ l := by
  rw [textOf, String.toList_ofList]
  exact ascii_mem_toValidUTF8 (s := equalsSign) (by decide) l

omit [UnicodeCase] in
/-- The text before the first `=` is the text of the bytes before it. -/
theorem takeWhile_textOf {l key : List UInt8} (h : beforeEq l = some key) :
    (textOf l).toList.takeWhile (· ≠ '=') = toValidUTF8 key := by
  have hmem : equalsSign ∈ l := by
    by_contra hnot
    rw [beforeEq, if_neg hnot] at h
    cases h
  obtain ⟨key', value, rfl, hkey⟩ := List.eq_append_cons_of_mem hmem
  rw [beforeEq_pair hkey] at h
  obtain rfl : key' = key := Option.some.inj h
  have hnot : '=' ∉ toValidUTF8 key' := fun hin =>
    hkey ((ascii_mem_toValidUTF8 (s := equalsSign) (by decide) key').mp hin)
  rw [textOf, String.toList_ofList, toValidUTF8_append (by decide)]
  exact takeWhile_ne hnot _

theorem redactLine_of_redacted {line : String} (h : Redacted line) :
    redactLine line =
      String.ofList (line.toList.takeWhile (· ≠ '=') ++ '=' :: "REDACTED".toList) := by
  obtain ⟨hmem, hkey, hmarker⟩ := h
  have hcut : ¬('=' ∉ line.toList ∨ line.toList.takeWhile (· ≠ '=') = []) :=
    not_or.mpr ⟨not_not.mpr hmem, hkey⟩
  unfold redactLine
  rw [if_neg hcut, if_pos hmarker]

theorem redactLine_of_not_redacted {line : String} (h : ¬Redacted line) :
    redactLine line = line := by
  by_cases hcut : '=' ∉ line.toList ∨ line.toList.takeWhile (· ≠ '=') = []
  · exact if_pos hcut
  · obtain ⟨hmem, hkey⟩ := not_or.mp hcut
    exact (if_neg hcut).trans (if_neg fun hmarker => h ⟨not_not.mp hmem, hkey, hmarker⟩)

/-- Whether a line is redacted, and to what, is decided by the bytes before its first `=`. -/
theorem redacted_congr {l l' : List UInt8} (h : beforeEq l = beforeEq l') :
    (Redacted (textOf l) ↔ Redacted (textOf l')) ∧
      (Redacted (textOf l) → redactLine (textOf l) = redactLine (textOf l')) := by
  have hmem : '=' ∈ (textOf l).toList ↔ '=' ∈ (textOf l').toList := by
    rw [equals_mem_iff, equals_mem_iff]
    have hsome : ∀ l, equalsSign ∈ l ↔ (beforeEq l).isSome = true := by
      intro l
      unfold beforeEq
      split <;> simp_all
    rw [hsome, hsome, h]
  cases hkey : beforeEq l with
  | none =>
    have hnot : '=' ∉ (textOf l).toList := by
      rw [equals_mem_iff]
      intro hin
      rw [beforeEq, if_pos hin] at hkey
      cases hkey
    refine ⟨iff_of_false (fun hr => hnot hr.1) (fun hr => hnot (hmem.mpr hr.1)), fun hr => ?_⟩
    exact absurd hr.1 hnot
  | some key =>
    have hbefore := takeWhile_textOf hkey
    have hbefore' := takeWhile_textOf (h ▸ hkey)
    have hiff : Redacted (textOf l) ↔ Redacted (textOf l') := by
      rw [Redacted, Redacted, hmem, hbefore, hbefore']
    refine ⟨hiff, fun hr => ?_⟩
    rw [redactLine_of_redacted hr, redactLine_of_redacted (hiff.mp hr), hbefore, hbefore']

/-- Lines that agree up to their first `=` look the same afterwards exactly when they looked the
    same before, or are redacted. -/
theorem redactLine_eq_iff {l l' : List UInt8} (h : beforeEq l = beforeEq l') :
    redactLine (textOf l) = redactLine (textOf l') ↔
      textOf l = textOf l' ∨ Redacted (textOf l) := by
  obtain ⟨hiff, hsame⟩ := redacted_congr h
  by_cases hr : Redacted (textOf l)
  · exact iff_of_true (hsame hr) (.inr hr)
  · rw [redactLine_of_not_redacted hr, redactLine_of_not_redacted fun hr' => hr (hiff.mpr hr')]
    constructor
    · exact .inl
    · intro heq
      exact heq.resolve_right hr

/-! ## Whole contents -/

/-- Redaction brings no new line into a line. -/
theorem newline_not_mem_redactLine {l : List UInt8} (h : newline ∉ l) :
    '\n' ∉ (redactLine (textOf l)).toList := by
  have hnot : '\n' ∉ (textOf l).toList := by
    rw [textOf, String.toList_ofList]
    intro hin
    exact h ((ascii_mem_toValidUTF8 (s := newline) (by decide) l).mp hin)
  by_cases hr : Redacted (textOf l)
  · rw [redactLine_of_redacted hr, String.toList_ofList, List.mem_append]
    intro hin
    rcases hin with hin | hin
    · exact hnot ((List.takeWhile_sublist _).subset hin)
    · revert hin
      decide
  · rw [redactLine_of_not_redacted hr]
    exact hnot

/-- The redacted text of a file is its redacted lines. -/
theorem redact_textOf (c : List UInt8) :
    redact (textOf c) = join ((c.splitOn newline).map fun l => redactLine (textOf l)) "\n" := by
  have hsplit := toValidUTF8_splitOn (s := newline) (by decide) c
  have hlines : split (textOf c) '\n' = (c.splitOn newline).map textOf := by
    rw [split, textOf, String.toList_ofList]
    have hchar : Char.ofNat newline.toNat = '\n' := by decide
    rw [← hchar, hsplit, List.map_map]
    rfl
  rw [redact, hlines, List.map_map]
  rfl

omit [UnicodeCase] in
private theorem join_inj {ls ls' : List String} (hne : ls ≠ []) (hne' : ls' ≠ [])
    (h : ∀ l ∈ ls, '\n' ∉ l.toList) (h' : ∀ l ∈ ls', '\n' ∉ l.toList) :
    join ls "\n" = join ls' "\n" ↔ ls = ls' := by
  constructor
  · intro heq
    have hlists := congrArg String.toList heq
    rw [join, join, String.toList_intercalate, String.toList_intercalate] at hlists
    have hsplit : ∀ ls : List String, ls ≠ [] → (∀ l ∈ ls, '\n' ∉ l.toList) →
        ("\n".toList.intercalate (ls.map String.toList)).splitOn '\n' = ls.map String.toList := by
      intro ls hne h
      apply List.splitOn_intercalate
      · intro l hl
        obtain ⟨l', hl', rfl⟩ := List.mem_map.mp hl
        exact h l' hl'
      · simpa using hne
    have hmaps := congrArg (List.splitOn '\n') hlists
    rw [hsplit ls hne h, hsplit ls' hne' h'] at hmaps
    exact List.map_injective_iff.mpr (fun _ _ => String.toList_inj.mp) hmaps
  · intro heq
    rw [heq]

omit [UnicodeCase] in
private theorem forall₂_congr {α : Type} {r p q : α → α → Prop} {ls ls' : List α}
    (h : List.Forall₂ r ls ls') (hpq : ∀ l l', r l l' → (p l l' ↔ q l l')) :
    List.Forall₂ p ls ls' ↔ List.Forall₂ q ls ls' := by
  induction h with
  | nil => exact iff_of_true .nil .nil
  | cons hl _ ih => rw [List.forall₂_cons, List.forall₂_cons, hpq _ _ hl, ih]

/-- Contents that differ in secrets look the same afterwards exactly when every line in which
    they differ is redacted. -/
theorem redact_eq_iff {c c' : List UInt8} (h : DifferInSecrets c c') :
    redact (textOf c) = redact (textOf c') ↔ Shielded c c' := by
  have hlines : ∀ c : List UInt8, ∀ l ∈ (c.splitOn newline).map fun l => redactLine (textOf l),
      '\n' ∉ l.toList := by
    intro c l hl
    obtain ⟨l', hl', rfl⟩ := List.mem_map.mp hl
    exact newline_not_mem_redactLine (not_mem_of_mem_splitOn hl')
  rw [redact_textOf, redact_textOf, join_inj (by simp) (by simp) (hlines c) (hlines c'),
    ← List.forall₂_eq_eq_eq, List.forall₂_map_left_iff, List.forall₂_map_right_iff]
  exact forall₂_congr h fun l l' hl => redactLine_eq_iff hl.beforeEq_eq

/-! ## Reading -/

/-- What is shown of a file within the size limit. -/
theorem read_content (p : LocalProvider) {name : String} (hname : validConfigName name = true)
    {info : FileInfo} (hregular : info.regular = true) {c : List UInt8}
    (hopen : p.openat name = .ok ⟨some info, .ok c⟩) (hlimit : (c.length : Int) ≤ p.maxBytes.val) :
    (p.read none name).map File.content = .ok (redact (textOf c)) := by
  have hlimit' := p.limit
  have htake : c.take (p.maxBytes.val + 1).toNat = c := List.take_of_length_le (by omega)
  have htruncated : decide (p.maxBytes.val < c.length) = false := decide_eq_false (by omega)
  simp [LocalProvider.read, hname, hopen, hregular, htake, htruncated, Except.map, textOf]

/-- Two files whose contents differ in secrets are shown alike exactly when, on every line where
    their texts differ, the text before the first `=` contains a marker. -/
theorem read_noninterfering_iff (p p' : LocalProvider) {name : String}
    (hname : validConfigName name = true) {info info' : FileInfo} (hregular : info.regular = true)
    (hregular' : info'.regular = true) {c c' : List UInt8}
    (hopen : p.openat name = .ok ⟨some info, .ok c⟩)
    (hopen' : p'.openat name = .ok ⟨some info', .ok c'⟩)
    (hlimit : (c.length : Int) ≤ p.maxBytes.val) (hlimit' : (c'.length : Int) ≤ p'.maxBytes.val)
    (hdiffer : DifferInSecrets c c') :
    (p.read none name).map File.content = (p'.read none name).map File.content ↔
      Shielded c c' := by
  rw [read_content p hname hregular hopen hlimit, read_content p' hname hregular' hopen' hlimit',
    Except.ok.injEq]
  exact redact_eq_iff hdiffer

end Lines

section Example

open Ascii

/-- The bytes of an ASCII text. -/
def asciiBytes (s : String) : List UInt8 := s.toList.map fun c => UInt8.ofNat c.toNat

/-- A provider whose directory holds one file. -/
def oneFile (content : List UInt8) : LocalProvider where
  maxBytes := wrap64 1024
  limit := by decide
  openat _ := .ok ⟨some ⟨wrap64 content.length, true⟩, .ok content⟩

/-- A password that is the first pair of its line. -/
def passwordFirst (value : String) : List UInt8 := asciiBytes ("Password=" ++ value ++ " Port=22")

/-- A password behind the name of a node. -/
def passwordSecond (value : String) : List UInt8 := asciiBytes ("NodeName=a Password=" ++ value)

private theorem sameField_password :
    SameField (asciiBytes "Password=x") (asciiBytes "Password=y") :=
  .inr ⟨asciiBytes "Password", asciiBytes "x", asciiBytes "y", by decide, by decide +kernel,
    by decide, by decide⟩

private theorem splitOn_newline {l : List UInt8} (h : newline ∉ l) : l.splitOn newline = [l] :=
  List.splitOn_eq_singleton h

theorem read_noninterfering_first :
    ((oneFile (passwordFirst "x")).read none "slurm.conf").map File.content =
      ((oneFile (passwordFirst "y")).read none "slurm.conf").map File.content := by
  have hx : (passwordFirst "x").splitOn space =
      [asciiBytes "Password=x", asciiBytes "Port=22"] := by decide +kernel
  have hy : (passwordFirst "y").splitOn space =
      [asciiBytes "Password=y", asciiBytes "Port=22"] := by decide +kernel
  have hline : SameLine (passwordFirst "x") (passwordFirst "y") := by
    rw [SameLine, hx, hy]
    exact .cons sameField_password (.cons (.inl rfl) .nil)
  have hdiffer : DifferInSecrets (passwordFirst "x") (passwordFirst "y") := by
    rw [DifferInSecrets, splitOn_newline (by decide), splitOn_newline (by decide)]
    exact .cons hline .nil
  apply (read_noninterfering_iff (oneFile (passwordFirst "x")) (oneFile (passwordFirst "y"))
    (by decide) rfl rfl rfl rfl (by decide) (by decide) hdiffer).mpr
  rw [Shielded, splitOn_newline (by decide), splitOn_newline (by decide)]
  have hredacted : Redacted (textOf (passwordFirst "x")) :=
    ⟨by decide +kernel, by decide +kernel, by decide +kernel⟩
  exact .cons (.inr hredacted) .nil

/-- The password of a node is shown: `redact` takes the line's first key for its only one. -/
theorem second_secret_is_shown : ¬ ∀ (p p' : LocalProvider) (name : String) (info info' : FileInfo)
    (c c' : List UInt8), validConfigName name = true → info.regular = true →
    info'.regular = true → p.openat name = .ok ⟨some info, .ok c⟩ →
    p'.openat name = .ok ⟨some info', .ok c'⟩ → (c.length : Int) ≤ p.maxBytes.val →
    (c'.length : Int) ≤ p'.maxBytes.val → DifferInSecrets c c' →
    (p.read none name).map File.content = (p'.read none name).map File.content := by
  intro h
  have hx : (passwordSecond "x").splitOn space =
      [asciiBytes "NodeName=a", asciiBytes "Password=x"] := by decide +kernel
  have hy : (passwordSecond "y").splitOn space =
      [asciiBytes "NodeName=a", asciiBytes "Password=y"] := by decide +kernel
  have hline : SameLine (passwordSecond "x") (passwordSecond "y") := by
    rw [SameLine, hx, hy]
    exact .cons (.inl rfl) (.cons sameField_password .nil)
  have hdiffer : DifferInSecrets (passwordSecond "x") (passwordSecond "y") := by
    rw [DifferInSecrets, splitOn_newline (by decide), splitOn_newline (by decide)]
    exact .cons hline .nil
  have hsame := h (oneFile (passwordSecond "x")) (oneFile (passwordSecond "y")) "slurm.conf"
    _ _ _ _ (by decide) rfl rfl rfl rfl (by decide) (by decide) hdiffer
  rw [read_content _ (by decide) rfl rfl (by decide), read_content _ (by decide) rfl rfl (by decide),
    Except.ok.injEq] at hsame
  revert hsame
  decide +kernel

end Example

end OpenHpcWeb.Slurmconfig
