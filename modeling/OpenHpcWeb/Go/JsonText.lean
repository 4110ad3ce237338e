/-
  The text of a value of JSON: how `encoding/json` reads it and how `JSON.stringify` of a
  browser writes it.

  Every call of the parser takes one from the fuel, so the length of the text is enough. The
  members of an object are kept in their order, with repetitions.

  * `stringBody_quote`: the characters of a string, whatever they are.
  * `parseValue_stringify`: a value is read as it was written, whatever follows it.
  * `parseJson_stringify`: the same of a whole text.
-/
import Mathlib.Tactic.IntervalCases
import OpenHpcWeb.Go.Bytes
import OpenHpcWeb.Go.Json

namespace OpenHpcWeb.Go

/-! ## Reading -/

def isJsonSpace (c : Char) : Bool := c = ' ' || c = '\t' || c = '\n' || c = '\r'

def skipSpace (s : List Char) : List Char := s.dropWhile isJsonSpace

def hexValue (c : Char) : Option Nat :=
  if '0' ≤ c ∧ c ≤ '9' then some (c.toNat - '0'.toNat)
  else if 'a' ≤ c ∧ c ≤ 'f' then some (c.toNat - 'a'.toNat + 10)
  else if 'A' ≤ c ∧ c ≤ 'F' then some (c.toNat - 'A'.toNat + 10)
  else none

/-- `getu4`: the four digits after `\u`. -/
def getu4 : List Char → Option (Nat × List Char)
  | a :: b :: c :: d :: rest => do
    let a ← hexValue a
    let b ← hexValue b
    let c ← hexValue c
    let d ← hexValue d
    some (((a * 16 + b) * 16 + c) * 16 + d, rest)
  | _ => none

/-- The low half of a pair of surrogates. -/
def lowSurrogate : List Char → Option (Nat × List Char)
  | '\\' :: 'u' :: rest => do
    let (n, rest) ← getu4 rest
    if 0xdc00 ≤ n ∧ n ≤ 0xdfff then some (n, rest) else none
  | _ => none

/-- The rune of a `\u` escape; half a pair is the replacement character. -/
def escapedRune (n : Nat) (rest : List Char) : Char × List Char :=
  if 0xd800 ≤ n ∧ n ≤ 0xdfff then
    match lowSurrogate rest with
    | some (low, rest') =>
      if n ≤ 0xdbff then (Char.ofNat (0x10000 + (n - 0xd800) * 0x400 + (low - 0xdc00)), rest')
      else ('\ufffd', rest)
    | none => ('\ufffd', rest)
  else (Char.ofNat n, rest)

/-- What follows a backslash. -/
def escaped : List Char → Option (Char × List Char)
  | '"' :: rest => some ('"', rest)
  | '\\' :: rest => some ('\\', rest)
  | '/' :: rest => some ('/', rest)
  | 'b' :: rest => some ('\x08', rest)
  | 'f' :: rest => some ('\x0c', rest)
  | 'n' :: rest => some ('\n', rest)
  | 'r' :: rest => some ('\r', rest)
  | 't' :: rest => some ('\t', rest)
  | 'u' :: rest => (getu4 rest).map fun (n, rest) => escapedRune n rest
  | _ => none

/-- One character of a string. -/
def stringUnit : List Char → Option (Char × List Char)
  | [] => none
  | c :: rest =>
    if c = '\\' then escaped rest else if c.toNat < 0x20 then none else some (c, rest)

/-- The characters up to the closing quote. -/
def stringBody : Nat → List Char → Option (List Char × List Char)
  | 0, _ => none
  | _ + 1, '"' :: rest => some ([], rest)
  | fuel + 1, s => do
    let (c, rest) ← stringUnit s
    let (text, rest) ← stringBody fuel rest
    some (c :: text, rest)

def signPart : List Char → List Char × List Char
  | '-' :: s => (['-'], s)
  | s => ([], s)

def integerPart : List Char → Option (List Char × List Char)
  | [] => none
  | c :: s =>
    if c = '0' then some (['0'], s)
    else if c.isDigit then some (c :: s.takeWhile Char.isDigit, s.dropWhile Char.isDigit)
    else none

/-- Digits, at least one. -/
def someDigits (s : List Char) : Option (List Char × List Char) :=
  if s.takeWhile Char.isDigit = [] then none
  else some (s.takeWhile Char.isDigit, s.dropWhile Char.isDigit)

def fractionPart : List Char → Option (List Char × List Char)
  | '.' :: s => (someDigits s).map fun (digits, s) => ('.' :: digits, s)
  | s => some ([], s)

def exponentPart : List Char → Option (List Char × List Char)
  | [] => some ([], [])
  | c :: s =>
    if c = 'e' ∨ c = 'E' then
      match s with
      | '+' :: s => (someDigits s).map fun (digits, s) => (c :: '+' :: digits, s)
      | '-' :: s => (someDigits s).map fun (digits, s) => (c :: '-' :: digits, s)
      | s => (someDigits s).map fun (digits, s) => (c :: digits, s)
    else some ([], c :: s)

def numberLiteral (s : List Char) : Option (List Char × List Char) := do
  let (sign, s) := signPart s
  let (integer, s) ← integerPart s
  let (fraction, s) ← fractionPart s
  let (exponent, s) ← exponentPart s
  some (sign ++ integer ++ fraction ++ exponent, s)

/-- A word that is a value. -/
def parseWord (word : String) (value : JsonValue) (s : List Char) :
    Option (JsonValue × List Char) :=
  if word.toList.isPrefixOf s then some (value, s.drop word.toList.length) else none

mutual

def parseValue : Nat → List Char → Option (JsonValue × List Char)
  | 0, _ => none
  | fuel + 1, s =>
    match skipSpace s with
    | [] => none
    | c :: rest =>
      if c = '"' then
        (stringBody fuel rest).map fun (text, rest) => (.string (String.ofList text), rest)
      else if c = '[' then
        match skipSpace rest with
        | ']' :: rest => some (.array [], rest)
        | rest => (parseElements fuel rest).map fun (elements, rest) => (.array elements, rest)
      else if c = '\x7b' then
        match skipSpace rest with
        | '\x7d' :: rest => some (.object [], rest)
        | rest => (parseMembers fuel rest).map fun (members, rest) => (.object members, rest)
      else if c = 't' then parseWord "true" (.bool true) (c :: rest)
      else if c = 'f' then parseWord "false" (.bool false) (c :: rest)
      else if c = 'n' then parseWord "null" .null (c :: rest)
      else
        (numberLiteral (c :: rest)).map fun (literal, rest) =>
          (.number (String.ofList literal), rest)

/-- The elements of an array, to its end. -/
def parseElements : Nat → List Char → Option (List JsonValue × List Char)
  | 0, _ => none
  | fuel + 1, s =>
    (parseValue fuel s).bind fun (value, rest) =>
      match skipSpace rest with
      | ']' :: rest => some ([value], rest)
      | ',' :: rest => (parseElements fuel rest).map fun (values, rest) => (value :: values, rest)
      | _ => none

/-- The members of an object, to its end. -/
def parseMembers : Nat → List Char → Option (List (String × JsonValue) × List Char)
  | 0, _ => none
  | fuel + 1, s =>
    match skipSpace s with
    | '"' :: rest =>
      (stringBody fuel rest).bind fun (key, rest) =>
        match skipSpace rest with
        | ':' :: rest =>
          (parseValue fuel rest).bind fun (value, rest) =>
            match skipSpace rest with
            | '\x7d' :: rest => some ([(String.ofList key, value)], rest)
            | ',' :: rest => (parseMembers fuel rest).map fun (members, rest) =>
              ((String.ofList key, value) :: members, rest)
            | _ => none
        | _ => none
    | _ => none

end

/-- The value of a text, which is nothing else but space. -/
def parseJson (s : List Char) : Option JsonValue :=
  (parseValue (s.length + 1) s).bind fun (value, rest) =>
    if skipSpace rest = [] then some value else none

/-! ## Writing -/

def hexChar (n : Nat) : Char := "0123456789abcdef".toList.getD n '0'

/-- One character of `QuoteJSONString`. -/
def quoteChar (c : Char) : List Char :=
  if c = '\x08' then ['\\', 'b']
  else if c = '\t' then ['\\', 't']
  else if c = '\n' then ['\\', 'n']
  else if c = '\x0c' then ['\\', 'f']
  else if c = '\r' then ['\\', 'r']
  else if c = '"' then ['\\', '"']
  else if c = '\\' then ['\\', '\\']
  else if c.toNat < 0x20 then ['\\', 'u', '0', '0', hexChar (c.toNat / 16), hexChar (c.toNat % 16)]
  else [c]

def quote (text : List Char) : List Char := '"' :: text.flatMap quoteChar ++ ['"']

mutual

/-- `JSON.stringify` -/
def stringify : JsonValue → List Char
  | .null => "null".toList
  | .bool true => "true".toList
  | .bool false => "false".toList
  | .number literal => literal.toList
  | .string value => quote value.toList
  | .array elements => '[' :: stringifyElements elements ++ [']']
  | .object members => '\x7b' :: stringifyMembers members ++ ['\x7d']

def stringifyElements : List JsonValue → List Char
  | [] => []
  | [value] => stringify value
  | value :: values => stringify value ++ ',' :: stringifyElements values

def stringifyMembers : List (String × JsonValue) → List Char
  | [] => []
  | [(key, value)] => quote key.toList ++ ':' :: stringify value
  | (key, value) :: members =>
    quote key.toList ++ ':' :: stringify value ++ ',' :: stringifyMembers members

end

example : String.ofList (stringify (.object [("type", .string "a\"\n"), ("n", .array [.null])])) =
    "\x7b\"type\":\"a\\\"\\n\",\"n\":[null]\x7d" := by
  decide +kernel

/-! ## Strings -/

theorem hexValue_hexChar {n : Nat} (h : n < 16) : hexValue (hexChar n) = some n := by
  interval_cases n <;> rfl

/-- An escaped control character. -/
theorem getu4_control {c : Char} (h : c.toNat < 0x20) (rest : List Char) :
    getu4 ('0' :: '0' :: hexChar (c.toNat / 16) :: hexChar (c.toNat % 16) :: rest) =
      some (c.toNat, rest) := by
  have hhigh : hexValue (hexChar (c.toNat / 16)) = some (c.toNat / 16) :=
    hexValue_hexChar (by omega)
  have hlow : hexValue (hexChar (c.toNat % 16)) = some (c.toNat % 16) :=
    hexValue_hexChar (by omega)
  have hzero : hexValue '0' = some 0 := rfl
  have hsum : ((0 * 16 + 0) * 16 + c.toNat / 16) * 16 + c.toNat % 16 = c.toNat := by omega
  simp only [getu4, hzero, hhigh, hlow, Option.bind_eq_bind, Option.bind_some, hsum]

theorem stringUnit_quoteChar (c : Char) (rest : List Char) :
    stringUnit (quoteChar c ++ rest) = some (c, rest) := by
  unfold quoteChar
  split_ifs with h1 h2 h3 h4 h5 h6 h7 h8
  · rw [h1]; rfl
  · rw [h2]; rfl
  · rw [h3]; rfl
  · rw [h4]; rfl
  · rw [h5]; rfl
  · rw [h6]; rfl
  · rw [h7]; rfl
  · have hrune : escapedRune c.toNat rest = (c, rest) := by
      unfold escapedRune
      rw [if_neg (by omega), Char.ofNat_toNat]
    show (getu4 (_ :: _ :: _ :: _ :: rest)).map _ = _
    rw [getu4_control h8]
    exact congrArg some hrune
  · show (if c = '\\' then _ else _) = _
    rw [if_neg h7, if_neg h8]
    rfl

theorem quoteChar_head (c : Char) : ∃ d t, quoteChar c = d :: t ∧ d ≠ '"' := by
  unfold quoteChar
  split_ifs <;> exact ⟨_, _, rfl, by first | decide | assumption⟩

theorem stringBody_quote (text rest : List Char) {fuel : Nat} (h : text.length < fuel) :
    stringBody fuel (text.flatMap quoteChar ++ '"' :: rest) = some (text, rest) := by
  induction text generalizing fuel with
  | nil =>
    cases fuel with
    | zero => exact absurd h (Nat.not_lt_zero _)
    | succ fuel => rfl
  | cons c text ih =>
    cases fuel with
    | zero => exact absurd h (Nat.not_lt_zero _)
    | succ fuel =>
      obtain ⟨d, t, hquote, hd⟩ := quoteChar_head c
      have hunit := stringUnit_quoteChar c (text.flatMap quoteChar ++ '"' :: rest)
      have hbody := ih (Nat.lt_of_succ_lt_succ h)
      rw [List.flatMap_cons, List.append_assoc]
      rw [hquote] at hunit ⊢
      rw [List.cons_append] at hunit ⊢
      rw [stringBody, hunit]
      · show (stringBody fuel _).bind _ = _
        rw [hbody]
        rfl
      · exact fun rest' heq => hd (List.cons.inj heq).1

theorem length_quote (text : List Char) : text.length + 2 ≤ (quote text).length := by
  have hflat : text.length ≤ (text.flatMap quoteChar).length := by
    induction text with
    | nil => exact Nat.le_refl _
    | cons c text ih =>
      obtain ⟨d, t, hquote, -⟩ := quoteChar_head c
      rw [List.flatMap_cons, List.length_append, hquote, List.length_cons, List.length_cons]
      omega
  unfold quote
  simp only [List.length_cons, List.length_append, List.length_nil]
  omega

/-! ## Numbers -/

/-- What may follow a number. -/
def Follows (rest : List Char) : Prop :=
  ∀ c ∈ rest.head?, c.isDigit = false ∧ c ≠ '.' ∧ c ≠ 'e' ∧ c ≠ 'E'

theorem follows_nil : Follows [] := fun _ h => nomatch h

theorem follows_cons {c : Char} (h : c.isDigit = false ∧ c ≠ '.' ∧ c ≠ 'e' ∧ c ≠ 'E')
    (rest : List Char) : Follows (c :: rest) := by
  intro d hd
  obtain rfl := Option.some.inj hd
  exact h

theorem takeWhile_digits {digits rest : List Char} (hdigits : ∀ c ∈ digits, c.isDigit = true)
    (hrest : Follows rest) : (digits ++ rest).takeWhile Char.isDigit = digits ∧
      (digits ++ rest).dropWhile Char.isDigit = rest := by
  induction digits with
  | nil =>
    cases rest with
    | nil => exact ⟨rfl, rfl⟩
    | cons c rest =>
      have hc := (hrest c rfl).1
      simp [hc]
  | cons c digits ih =>
    have hc := hdigits c List.mem_cons_self
    have hrec := ih fun d hd => hdigits d (List.mem_cons_of_mem c hd)
    simp [hc, hrec.1, hrec.2]

theorem fractionPart_follows {rest : List Char} (h : Follows rest) :
    fractionPart rest = some ([], rest) := by
  unfold fractionPart
  split
  · exact absurd rfl (h '.' rfl).2.1
  · rfl

theorem exponentPart_follows {rest : List Char} (h : Follows rest) :
    exponentPart rest = some ([], rest) := by
  cases rest with
  | nil => rfl
  | cons c rest =>
    obtain ⟨-, -, hlower, hupper⟩ := h c rfl
    have hnot : ¬ (c = 'e' ∨ c = 'E') := fun h => h.elim hlower hupper
    simp only [exponentPart, if_neg hnot]

/-- The sign and the first digit tell a number from the other values. -/
theorem toDigits_head (n : Nat) : ∃ c digits, Nat.toDigits 10 n = c :: digits ∧
    c.isDigit = true ∧ (∀ d ∈ digits, d.isDigit = true) ∧ (c = '0' → digits = []) := by
  have hall : ∀ c ∈ Nat.toDigits 10 n, c.isDigit = true := isDigit_toDigits
  cases hdigits : Nat.toDigits 10 n with
  | nil => exact absurd hdigits Nat.toDigits_ne_nil
  | cons c digits =>
    rw [hdigits] at hall
    refine ⟨c, digits, rfl, hall c List.mem_cons_self,
      fun d hd => hall d (List.mem_cons_of_mem c hd), ?_⟩
    rintro rfl
    rcases Nat.eq_zero_or_pos n with rfl | hpos
    · exact (List.cons.inj hdigits).2.symm
    · exact absurd (by rw [hdigits]; rfl) (head_toDigits hpos)

theorem numberLiteral_toDigits (n : Nat) {rest : List Char} (h : Follows rest) :
    numberLiteral (Nat.toDigits 10 n ++ rest) = some (Nat.toDigits 10 n, rest) := by
  obtain ⟨c, digits, heq, hc, hdigits, hzero⟩ := toDigits_head n
  have hsign : signPart (c :: (digits ++ rest)) = ([], c :: (digits ++ rest)) := by
    unfold signPart
    split
    · next hminus =>
      rw [(List.cons.inj hminus).1] at hc
      cases hc
    · rfl
  have hinteger : integerPart (c :: (digits ++ rest)) = some (c :: digits, rest) := by
    obtain ⟨htake, hdrop⟩ := takeWhile_digits hdigits h
    by_cases hc0 : c = '0'
    · rw [hzero hc0, hc0]
      rfl
    · simp only [integerPart, if_neg hc0, if_pos hc, htake, hdrop]
  rw [heq, List.cons_append]
  unfold numberLiteral
  rw [hsign]
  show (integerPart (c :: (digits ++ rest))).bind _ = _
  rw [hinteger]
  show (fractionPart rest).bind _ = _
  rw [fractionPart_follows h]
  show (exponentPart rest).bind _ = _
  rw [exponentPart_follows h]
  show some ([] ++ c :: digits ++ [] ++ [], rest) = _
  simp

/-! ## Values -/

mutual

/-- The numbers of the value are natural. -/
def Plain : JsonValue → Prop
  | .number literal => ∃ n : Nat, literal = n.repr
  | .array elements => PlainElements elements
  | .object members => PlainMembers members
  | _ => True

def PlainElements : List JsonValue → Prop
  | [] => True
  | value :: values => Plain value ∧ PlainElements values

def PlainMembers : List (String × JsonValue) → Prop
  | [] => True
  | (_, value) :: members => Plain value ∧ PlainMembers members

end

/-- A value starts with a character that no array or object ends with. -/
theorem stringify_head {v : JsonValue} (h : Plain v) : ∃ c t, stringify v = c :: t ∧
    isJsonSpace c = false ∧ c ≠ ']' := by
  cases v with
  | null => exact ⟨_, _, rfl, by decide, by decide⟩
  | bool b => cases b <;> exact ⟨_, _, rfl, by decide, by decide⟩
  | string value => exact ⟨_, _, rfl, by decide, by decide⟩
  | array elements => exact ⟨_, _, rfl, by decide, by decide⟩
  | object members => exact ⟨_, _, rfl, by decide, by decide⟩
  | number literal =>
    obtain ⟨n, rfl⟩ := h
    obtain ⟨c, digits, heq, hc, -, -⟩ := toDigits_head n
    refine ⟨c, digits, ?_, ?_, ?_⟩
    · rw [← heq]
      exact String.toList_ofList
    · unfold isJsonSpace
      simp only [Bool.or_eq_false_iff, decide_eq_false_iff_not]
      refine ⟨⟨⟨?_, ?_⟩, ?_⟩, ?_⟩ <;> rintro rfl <;> cases hc
    · rintro rfl
      cases hc

theorem skipSpace_cons {c : Char} (h : isJsonSpace c = false) (rest : List Char) :
    skipSpace (c :: rest) = c :: rest := by
  unfold skipSpace
  rw [List.dropWhile_cons, h]
  rfl

/-- A value that starts with a digit is a number. -/
theorem parseValue_number (n fuel : Nat) {rest : List Char} (h : Follows rest) :
    parseValue (fuel + 1) (Nat.toDigits 10 n ++ rest) =
      some (.number (String.ofList (Nat.toDigits 10 n)), rest) := by
  have hnumber := numberLiteral_toDigits n h
  obtain ⟨c, digits, heq, hc, -, -⟩ := toDigits_head n
  have hspace : isJsonSpace c = false := by
    unfold isJsonSpace
    simp only [Bool.or_eq_false_iff, decide_eq_false_iff_not]
    refine ⟨⟨⟨?_, ?_⟩, ?_⟩, ?_⟩ <;> rintro rfl <;> cases hc
  have hne : ∀ d : Char, d.isDigit = false → c ≠ d := by
    rintro d hd rfl
    rw [hc] at hd
    cases hd
  rw [heq, List.cons_append] at hnumber ⊢
  rw [parseValue, skipSpace_cons hspace]
  dsimp only
  rw [if_neg (hne _ rfl), if_neg (hne _ rfl), if_neg (hne _ rfl), if_neg (hne _ rfl),
    if_neg (hne _ rfl), if_neg (hne _ rfl), hnumber]
  rfl

theorem parseValue_array (fuel : Nat) {c : Char} (hspace : isJsonSpace c = false) (hc : c ≠ ']')
    (t : List Char) : parseValue (fuel + 1) ('[' :: c :: t) =
      (parseElements fuel (c :: t)).map fun (elements, rest) => (.array elements, rest) := by
  rw [parseValue, skipSpace_cons (by decide)]
  dsimp only
  rw [if_neg (by decide), if_pos rfl, skipSpace_cons hspace]
  split
  · next heq => exact absurd (List.cons.inj heq).1 hc
  · rfl

theorem parseValue_object (fuel : Nat) (t : List Char) :
    parseValue (fuel + 1) ('\x7b' :: '"' :: t) =
      (parseMembers fuel ('"' :: t)).map fun (members, rest) => (.object members, rest) := by
  rw [parseValue, skipSpace_cons (by decide)]
  dsimp only
  rw [if_neg (by decide), if_neg (by decide), if_pos rfl, skipSpace_cons (by decide)]
  rfl

theorem stringifyElements_head {value : JsonValue} (h : Plain value) (values : List JsonValue) :
    ∃ c t, stringifyElements (value :: values) = c :: t ∧ isJsonSpace c = false ∧ c ≠ ']' := by
  obtain ⟨c, t, heq, hspace, hc⟩ := stringify_head h
  cases values with
  | nil => exact ⟨c, t, heq, hspace, hc⟩
  | cons next values =>
    refine ⟨c, t ++ ',' :: stringifyElements (next :: values), ?_, hspace, hc⟩
    rw [stringifyElements, heq, List.cons_append]
    exact fun hnil => nomatch hnil

theorem quote_append (text rest : List Char) :
    quote text ++ rest = '"' :: (text.flatMap quoteChar ++ '"' :: rest) := by
  simp [quote]

/-- A member is its key, a colon and its value. -/
theorem parseMembers_quote (fuel : Nat) (key : String) (t : List Char)
    (hkey : key.toList.length < fuel) : parseMembers (fuel + 1) (quote key.toList ++ ':' :: t) =
      (parseValue fuel t).bind fun (value, rest) =>
        match skipSpace rest with
        | '\x7d' :: rest => some ([(key, value)], rest)
        | ',' :: rest => (parseMembers fuel rest).map fun (members, rest) =>
          ((key, value) :: members, rest)
        | _ => none := by
  rw [quote_append, parseMembers, skipSpace_cons (by decide)]
  show (stringBody fuel _).bind _ = _
  have hcolon : skipSpace (':' :: t) = ':' :: t := skipSpace_cons (by decide) t
  rw [stringBody_quote _ _ hkey]
  simp only [Option.bind_some, hcolon, String.ofList_toList]

mutual

/-- A value is read as it was written, with fuel for its length. -/
theorem parseValue_stringify (v : JsonValue) (h : Plain v) {fuel : Nat}
    (hfuel : (stringify v).length < fuel) {rest : List Char} (hrest : Follows rest) :
    parseValue fuel (stringify v ++ rest) = some (v, rest) := by
  match fuel, hfuel with
  | fuel + 1, hfuel =>
    match v with
    | .null => rfl
    | .bool true => rfl
    | .bool false => rfl
    | .number literal =>
      obtain ⟨n, rfl⟩ := h
      have htext : stringify (.number n.repr) = Nat.toDigits 10 n := String.toList_ofList
      rw [htext, parseValue_number n fuel hrest]
      rfl
    | .string value =>
      have hlength := length_quote value.toList
      have hfuel : (quote value.toList).length < fuel + 1 := hfuel
      show parseValue (fuel + 1) (quote value.toList ++ rest) = _
      rw [quote_append]
      show (stringBody fuel _).map _ = _
      rw [stringBody_quote _ _ (by omega)]
      show some (JsonValue.string (String.ofList value.toList), rest) = _
      rw [String.ofList_toList]
    | .array [] => rfl
    | .array (value :: values) =>
      have hplain : PlainElements (value :: values) := h
      have hfuel : ('[' :: stringifyElements (value :: values) ++ [']']).length < fuel + 1 := hfuel
      simp only [List.length_append, List.length_cons, List.length_nil] at hfuel
      have helements : parseElements fuel (stringifyElements (value :: values) ++ ']' :: rest) =
          some (value :: values, rest) :=
        parseElements_stringify value values hplain (by omega) rest
      obtain ⟨c, t, heq, hspace, hc⟩ := stringifyElements_head hplain.1 values
      show parseValue (fuel + 1) ('[' :: stringifyElements (value :: values) ++ [']'] ++ rest) = _
      rw [List.append_assoc, List.cons_append, List.singleton_append]
      rw [heq, List.cons_append] at helements ⊢
      rw [parseValue_array fuel hspace hc, helements]
      rfl
    | .object [] => rfl
    | .object ((key, value) :: members) =>
      have hplain : PlainMembers ((key, value) :: members) := h
      have hfuel : ('\x7b' :: stringifyMembers ((key, value) :: members) ++ ['\x7d']).length <
        fuel + 1 := hfuel
      simp only [List.length_append, List.length_cons, List.length_nil] at hfuel
      have hmembers : parseMembers fuel
          (stringifyMembers ((key, value) :: members) ++ '\x7d' :: rest) =
            some ((key, value) :: members, rest) :=
        parseMembers_stringify key value members hplain (by omega) rest
      have hquote : ∃ t, stringifyMembers ((key, value) :: members) ++ '\x7d' :: rest =
          '"' :: t := by
        cases members <;> exact ⟨_, rfl⟩
      obtain ⟨t, ht⟩ := hquote
      show parseValue (fuel + 1)
        ('\x7b' :: stringifyMembers ((key, value) :: members) ++ ['\x7d'] ++ rest) = _
      rw [List.append_assoc, List.cons_append, List.singleton_append]
      rw [ht] at hmembers ⊢
      rw [parseValue_object, hmembers]
      rfl

theorem parseElements_stringify (value : JsonValue) (values : List JsonValue)
    (h : PlainElements (value :: values)) {fuel : Nat}
    (hfuel : (stringifyElements (value :: values)).length + 1 < fuel) (rest : List Char) :
    parseElements fuel (stringifyElements (value :: values) ++ ']' :: rest) =
      some (value :: values, rest) := by
  match fuel, hfuel with
  | fuel + 1, hfuel =>
    match values with
    | [] =>
      have hfuel : (stringify value).length + 1 < fuel + 1 := hfuel
      have hvalue : parseValue fuel (stringify value ++ ']' :: rest) = some (value, ']' :: rest) :=
        parseValue_stringify value h.1 (by omega) (follows_cons (by decide) rest)
      show (parseValue fuel (stringify value ++ ']' :: rest)).bind _ = _
      rw [hvalue]
      rfl
    | next :: values =>
      have hfuel : (stringify value ++ ',' :: stringifyElements (next :: values)).length + 1 <
        fuel + 1 := hfuel
      rw [List.length_append, List.length_cons] at hfuel
      have hvalue : ∀ t, parseValue fuel (stringify value ++ ',' :: t) = some (value, ',' :: t) :=
        fun t => parseValue_stringify value h.1 (by omega) (follows_cons (by decide) t)
      have hvalues : parseElements fuel (stringifyElements (next :: values) ++ ']' :: rest) =
          some (next :: values, rest) :=
        parseElements_stringify next values h.2 (by omega) rest
      show (parseValue fuel (stringify value ++ ',' :: stringifyElements (next :: values) ++
        ']' :: rest)).bind _ = _
      rw [List.append_assoc, List.cons_append, hvalue]
      show (parseElements fuel _).map _ = _
      rw [hvalues]
      rfl

theorem parseMembers_stringify (key : String) (value : JsonValue)
    (members : List (String × JsonValue)) (h : PlainMembers ((key, value) :: members)) {fuel : Nat}
    (hfuel : (stringifyMembers ((key, value) :: members)).length + 1 < fuel) (rest : List Char) :
    parseMembers fuel (stringifyMembers ((key, value) :: members) ++ '\x7d' :: rest) =
      some ((key, value) :: members, rest) := by
  have hlength := length_quote key.toList
  match fuel, hfuel with
  | fuel + 1, hfuel =>
    match members with
    | [] =>
      have hfuel : (quote key.toList ++ ':' :: stringify value).length + 1 < fuel + 1 := hfuel
      rw [List.length_append, List.length_cons] at hfuel
      have hvalue : parseValue fuel (stringify value ++ '\x7d' :: rest) =
          some (value, '\x7d' :: rest) :=
        parseValue_stringify value h.1 (by omega) (follows_cons (by decide) rest)
      show parseMembers (fuel + 1)
        (quote key.toList ++ ':' :: stringify value ++ '\x7d' :: rest) = _
      rw [List.append_assoc, List.cons_append, parseMembers_quote fuel key _ (by omega), hvalue]
      rfl
    | (key', value') :: members =>
      have hfuel : (quote key.toList ++ ':' :: stringify value ++
        ',' :: stringifyMembers ((key', value') :: members)).length + 1 < fuel + 1 := hfuel
      simp only [List.length_append, List.length_cons] at hfuel
      have hvalue : ∀ t, parseValue fuel (stringify value ++ ',' :: t) = some (value, ',' :: t) :=
        fun t => parseValue_stringify value h.1 (by omega) (follows_cons (by decide) t)
      have hmembers : parseMembers fuel
          (stringifyMembers ((key', value') :: members) ++ '\x7d' :: rest) =
            some ((key', value') :: members, rest) :=
        parseMembers_stringify key' value' members h.2 (by omega) rest
      show parseMembers (fuel + 1) (quote key.toList ++ ':' :: stringify value ++
        ',' :: stringifyMembers ((key', value') :: members) ++ '\x7d' :: rest) = _
      rw [List.append_assoc, List.append_assoc, List.cons_append,
        parseMembers_quote fuel key _ (by omega), List.cons_append, hvalue]
      show (parseMembers fuel _).map _ = _
      rw [hmembers]
      rfl

end

/-- A text that `JSON.stringify` writes is read as its value. -/
theorem parseJson_stringify {v : JsonValue} (h : Plain v) : parseJson (stringify v) = some v := by
  have hvalue := parseValue_stringify v h (Nat.lt_succ_self _) follows_nil
  rw [List.append_nil] at hvalue
  unfold parseJson
  rw [hvalue]
  rfl

end OpenHpcWeb.Go
