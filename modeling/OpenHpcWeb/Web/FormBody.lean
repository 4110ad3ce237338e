/-
  The form of a page on its way to a handler: the body that a browser sends, the middleware
  `requestBodyLimit` of internal/web/app.go, and `ParseForm` of net/http.

  * `parseForm_formBody`, `readFields_formBody`: the server reads the fields that the browser has
    sent.
  * `length_formBody_le`: how long a body is.
-/
import OpenHpcWeb.Go.Url

namespace OpenHpcWeb.Web

open OpenHpcWeb.Go OpenHpcWeb.Go.Bytes

/-! ## The browser -/

/-- The line ends of a value, as they are sent. -/
def crlf : List Char → List Char
  | [] => []
  | '\r' :: '\n' :: rest => '\r' :: '\n' :: crlf rest
  | c :: rest => if c = '\r' ∨ c = '\n' then '\r' :: '\n' :: crlf rest else c :: crlf rest

/-- A byte in application/x-www-form-urlencoded: other than `url.QueryEscape`, it leaves the
    asterisk as it is and escapes the tilde. -/
def formByte (b : UInt8) : List UInt8 :=
  if b = 0x2a then [b] else if b = 0x7e then [0x25, 0x37, 0x45] else escapeByte b

def formText (s : String) : List UInt8 :=
  (encode (String.ofList (crlf s.toList))).flatMap formByte

def formPair (field : String × String) : List UInt8 :=
  formText field.1 ++ 0x3d :: formText field.2

/-- The body of a form with these fields. -/
def formBody (fields : List (String × String)) : List UInt8 :=
  [0x26].intercalate (fields.map formPair)

/-! ## The server -/

/-- `requestBodyLimit(16 << 10)` for a body with its length: the status of the refusal. -/
def requestBodyLimit (body : List UInt8) : Option Nat :=
  if 16384 < body.length then some 413 else none

/-- `ParseForm`: the pairs of a body, or `none` where one cannot be read. -/
def parseForm (body : List UInt8) : Option (List (List UInt8 × List UInt8)) :=
  if ∃ pair ∈ split body 0x26, pair ≠ [] ∧ parsePair pair = none then none
  else some (parseQuery body)

def decodePair (pair : List UInt8 × List UInt8) : Option (String × String) := do
  let key ← decode pair.1
  let value ← decode pair.2
  return (key, value)

/-- The fields of a body; `none` is one that `ParseForm` refuses. A body that is not UTF-8, which
    no browser sends, is none here. -/
def readFields (body : List UInt8) : Option (List (String × String)) :=
  (parseForm body).bind fun pairs => pairs.mapM decodePair

/-- `FormValue`: the first value of the key. -/
def formValue (fields : List (String × String)) (key : String) : String :=
  ((fields.find? fun field => field.1 = key).map Prod.snd).getD ""

/-- `PostForm[key]` -/
def postForm (fields : List (String × String)) (key : String) : List String :=
  (fields.filter fun field => field.1 = key).map Prod.snd

/-! ## What is sent is read -/

/-- A value without line ends. -/
def OneLine (s : String) : Prop := '\r' ∉ s.toList ∧ '\n' ∉ s.toList

theorem crlf_of_plain {l : List Char} (hr : '\r' ∉ l) (hn : '\n' ∉ l) : crlf l = l := by
  induction l with
  | nil => rfl
  | cons c rest ih =>
    rw [List.mem_cons, not_or] at hr hn
    have hc : ¬(c = '\r' ∨ c = '\n') := by
      rintro (rfl | rfl)
      · exact hr.1 rfl
      · exact hn.1 rfl
    rw [crlf.eq_3 _ _ fun _ hcr _ => hr.1 hcr.symm, if_neg hc, ih hr.2 hn.2]

theorem formText_of_oneLine {s : String} (h : OneLine s) :
    formText s = (encode s).flatMap formByte := by
  unfold formText
  rw [crlf_of_plain h.1 h.2, String.ofList_toList]

theorem queryUnescape_formByte (b : UInt8) (rest : List UInt8) :
    queryUnescape (formByte b ++ rest) = (queryUnescape rest).map (b :: ·) := by
  unfold formByte
  split
  · next hstar =>
    rw [hstar, List.singleton_append, queryUnescape_cons (by decide), if_neg (by decide)]
  · split
    · next htilde =>
      subst htilde
      rfl
    · exact queryUnescape_escapeByte b rest

theorem queryUnescape_form (s : List UInt8) : queryUnescape (s.flatMap formByte) = some s := by
  induction s with
  | nil => rfl
  | cons b s ih => rw [List.flatMap_cons, queryUnescape_formByte, ih, Option.map_some]

/-- No character that separates is left. -/
theorem not_mem_formText {s : String} {b : UInt8} (hb : b = 0x26 ∨ b = 0x3b ∨ b = 0x3d) :
    b ∉ formText s := by
  have hescape : ∀ c : UInt8, b ∉ escapeByte c := by
    intro c hc
    have hmem : b ∈ queryEscape [c] := by
      unfold queryEscape
      rw [List.flatMap_cons, List.flatMap_nil, List.append_nil]
      exact hc
    rcases hb with rfl | rfl | rfl <;>
      exact not_mem_queryEscape (by decide) (by decide) (by decide) hmem
  intro h
  unfold formText at h
  obtain ⟨c, -, hc⟩ := List.mem_flatMap.mp h
  unfold formByte at hc
  split at hc
  · next hstar =>
    rw [List.mem_singleton.mp hc, hstar] at hb
    revert hb
    decide
  · split at hc
    · simp only [List.mem_cons, List.not_mem_nil, or_false] at hc
      rcases hb with rfl | rfl | rfl <;> revert hc <;> decide
    · exact hescape c hc

theorem parsePair_formPair {field : String × String} (hkey : OneLine field.1)
    (hvalue : OneLine field.2) :
    parsePair (formPair field) = some (encode field.1, encode field.2) := by
  unfold parsePair formPair
  rw [if_neg (by simp [not_mem_formText]), cut_append (not_mem_formText (by decide))]
  dsimp only [Option.getD_some]
  rw [formText_of_oneLine hkey, formText_of_oneLine hvalue, queryUnescape_form,
    queryUnescape_form]

theorem split_formBody {fields : List (String × String)} (hne : fields ≠ []) :
    split (formBody fields) 0x26 = fields.map formPair := by
  refine split_eq_iff.mpr ⟨by simpa using hne, ?_, rfl⟩
  intro piece hpiece
  obtain ⟨field, -, rfl⟩ := List.mem_map.mp hpiece
  simp [formPair, not_mem_formText]

theorem parseForm_formBody {fields : List (String × String)} (hne : fields ≠ [])
    (hlines : ∀ field ∈ fields, OneLine field.1 ∧ OneLine field.2) :
    parseForm (formBody fields) =
      some (fields.map fun field => (encode field.1, encode field.2)) := by
  have hread : ∀ field ∈ fields,
      parsePair (formPair field) = some (encode field.1, encode field.2) :=
    fun field hfield => parsePair_formPair (hlines field hfield).1 (hlines field hfield).2
  unfold parseForm parseQuery
  rw [split_formBody hne, if_neg, List.filterMap_map]
  · congr 1
    rw [← List.filterMap_eq_map]
    exact List.filterMap_congr hread
  · rintro ⟨pair, hpair, -, hnone⟩
    obtain ⟨field, hfield, rfl⟩ := List.mem_map.mp hpair
    rw [hread field hfield] at hnone
    cases hnone

theorem mapM_decodePair (fields : List (String × String)) :
    (fields.map fun field => (encode field.1, encode field.2)).mapM decodePair =
      some fields := by
  induction fields with
  | nil => rfl
  | cons field fields ih =>
    have hfield : decodePair (encode field.1, encode field.2) = some field := by
      unfold decodePair
      rw [decode_encode, decode_encode]
      rfl
    rw [List.map_cons, List.mapM_cons, hfield, ih]
    rfl

theorem readFields_formBody {fields : List (String × String)} (hne : fields ≠ [])
    (hlines : ∀ field ∈ fields, OneLine field.1 ∧ OneLine field.2) :
    readFields (formBody fields) = some fields := by
  unfold readFields
  rw [parseForm_formBody hne hlines, Option.bind_some, mapM_decodePair]

/-! ## Lengths -/

theorem length_formText_le {s : String} (h : OneLine s) :
    (formText s).length ≤ 3 * byteLen s := by
  have hbyte : ∀ b, (formByte b).length ≤ 3 := by
    intro b
    unfold formByte escapeByte
    split
    · simp
    · split
      · simp
      · split
        · simp
        · split <;> simp
  rw [formText_of_oneLine h, ← length_encode]
  induction encode s with
  | nil => exact Nat.zero_le _
  | cons b rest ih =>
    rw [List.flatMap_cons, List.length_append, List.length_cons]
    have := hbyte b
    omega

/-- A body has at most three bytes for each byte of its fields, and what separates them. -/
theorem length_formBody_le {fields : List (String × String)}
    (hlines : ∀ field ∈ fields, OneLine field.1 ∧ OneLine field.2) :
    (formBody fields).length ≤
      (fields.map fun field => 3 * byteLen field.1 + 3 * byteLen field.2 + 2).sum := by
  unfold formBody
  induction fields with
  | nil => exact Nat.zero_le _
  | cons field fields ih =>
    have hfield := hlines field List.mem_cons_self
    have hkey := length_formText_le hfield.1
    have hvalue := length_formText_le hfield.2
    have hrest := ih fun f hf => hlines f (List.mem_cons_of_mem _ hf)
    have hpair : (formPair field).length ≤ 3 * byteLen field.1 + 3 * byteLen field.2 + 1 := by
      unfold formPair
      rw [List.length_append, List.length_cons]
      omega
    cases fields with
    | nil =>
      simp only [List.map_cons, List.map_nil, List.intercalate_singleton, List.sum_cons,
        List.sum_nil]
      omega
    | cons next fields =>
      rw [List.map_cons, List.map_cons, List.intercalate_cons_cons, List.map_cons, List.sum_cons]
      rw [List.map_cons] at hrest
      simp only [List.length_append, List.length_singleton]
      omega

end OpenHpcWeb.Web
