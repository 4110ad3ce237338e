/-
  The query of a URL: `url.QueryEscape`, `url.ParseQuery` and `url.Values` of net/url, over bytes.

  * `queryUnescape_queryEscape`: what is escaped is read back.
  * `parseQuery_encodePairs`: a query that is written pair by pair is read back.
-/
import Mathlib.Data.List.Sort
import OpenHpcWeb.Go.Bytes

namespace OpenHpcWeb.Go

open Bytes

/-! ## Escaping -/

/-- The digit of "0123456789ABCDEF". -/
def upperhex (n : Nat) : UInt8 := UInt8.ofNat (if n < 10 then 0x30 + n else 0x37 + n)

def unhex (b : UInt8) : Option Nat :=
  if isDigit b then some (b.toNat - 0x30)
  else if 0x61 ≤ lower b ∧ lower b ≤ 0x66 then some ((lower b).toNat - 0x57)
  else none

/-- `shouldEscape` in a component of a query. -/
def shouldEscape (b : UInt8) : Bool :=
  !(isDigit b || (0x61 ≤ lower b && lower b ≤ 0x7a) || b = 0x2d || b = 0x5f || b = 0x2e || b = 0x7e)

def escapeByte (b : UInt8) : List UInt8 :=
  if b = 0x20 then [0x2b]
  else if shouldEscape b then [0x25, upperhex (b.toNat / 16), upperhex (b.toNat % 16)]
  else [b]

/-- `url.QueryEscape` -/
def queryEscape (s : List UInt8) : List UInt8 := s.flatMap escapeByte

/-- `shouldEscape` in a segment of a path. -/
def shouldEscapeSegment (b : UInt8) : Bool := shouldEscape b && !(ascii "$&+:=@").contains b

/-- `url.PathEscape` -/
def pathEscape (s : List UInt8) : List UInt8 :=
  s.flatMap fun b =>
    if shouldEscapeSegment b then [0x25, upperhex (b.toNat / 16), upperhex (b.toNat % 16)] else [b]

/-- `url.QueryUnescape`; `none` is an error. -/
def queryUnescape : List UInt8 → Option (List UInt8)
  | [] => some []
  | 0x25 :: a :: b :: rest =>
    match unhex a, unhex b with
    | some high, some low => (queryUnescape rest).map (UInt8.ofNat (16 * high + low) :: ·)
    | _, _ => none
  | b :: rest =>
    if b = 0x25 then none
    else (queryUnescape rest).map ((if b = 0x2b then 0x20 else b) :: ·)

/-- Unreserved characters stand in a path as they are. -/
theorem pathEscape_of_unreserved {s : List UInt8} (h : ∀ b ∈ s, shouldEscape b = false) :
    pathEscape s = s := by
  unfold pathEscape
  induction s with
  | nil => rfl
  | cons b s ih =>
    rw [List.flatMap_cons, ih fun c hc => h c (List.mem_cons_of_mem b hc), shouldEscapeSegment,
      h b List.mem_cons_self]
    rfl

/-! ## Queries -/

/-- One pair of `url.ParseQuery`; a pair that cannot be read is left out. -/
def parsePair (pair : List UInt8) : Option (List UInt8 × List UInt8) :=
  if 0x3b ∈ pair ∨ pair = [] then none
  else
    let parts := (cut pair 0x3d).getD (pair, [])
    match queryUnescape parts.1, queryUnescape parts.2 with
    | some key, some value => some (key, value)
    | _, _ => none

/-- The pairs of a query in their order: `URL.Query`, which does not look at the error. -/
def parseQuery (query : List UInt8) : List (List UInt8 × List UInt8) :=
  (split query 0x26).filterMap parsePair

/-- `QueryParam` of a request: the first value of the key, or the empty text. -/
def queryParam (query key : List UInt8) : List UInt8 :=
  (((parseQuery query).find? fun pair => pair.1 = key).map Prod.snd).getD []

def encodePair (pair : List UInt8 × List UInt8) : List UInt8 :=
  queryEscape pair.1 ++ 0x3d :: queryEscape pair.2

/-- Pairs as a query, in their order. -/
def encodePairs (pairs : List (List UInt8 × List UInt8)) : List UInt8 :=
  [0x26].intercalate (pairs.map encodePair)

/-- `Values.Encode` of values that have one value for each key: sorted by the keys. -/
def encodeValues (values : List (List UInt8 × List UInt8)) : List UInt8 :=
  encodePairs (values.insertionSort fun x y => x.1 ≤ y.1)

/-- The query of a reference: behind the question mark, and before the fragment. -/
def queryOf (href : List UInt8) : List UInt8 :=
  ((href.takeWhile (· ≠ 0x23)).dropWhile (· ≠ 0x3f)).drop 1

example : encodeValues [(ascii "tab", ascii "a b"), (ascii "page", ascii "1&2")] =
    ascii "page=1%262&tab=a+b" := by
  decide +kernel

/-! ## What is escaped is read back -/

theorem unhex_upperhex {n : Nat} (h : n < 16) : unhex (upperhex n) = some n := by
  have hall : ∀ n < 16, unhex (upperhex n) = some n := by decide
  exact hall n h

/-- The characters of an escaped text. -/
theorem mem_queryEscape {s : List UInt8} {b : UInt8} (h : b ∈ queryEscape s) :
    b = 0x2b ∨ b = 0x25 ∨ shouldEscape b = false := by
  have hhex : ∀ n < 16, shouldEscape (upperhex n) = false := by decide
  unfold queryEscape at h
  obtain ⟨c, -, hb⟩ := List.mem_flatMap.mp h
  unfold escapeByte at hb
  split at hb
  · exact .inl (List.mem_singleton.mp hb)
  · split at hb
    · have hlt := c.toNat_lt
      simp only [List.mem_cons, List.not_mem_nil, or_false] at hb
      rcases hb with rfl | rfl | rfl
      · exact .inr (.inl rfl)
      · exact .inr (.inr (hhex _ (by omega)))
      · exact .inr (.inr (hhex _ (by omega)))
    · next hsafe =>
      obtain rfl := List.mem_singleton.mp hb
      exact .inr (.inr (by simpa using hsafe))

/-- An escaped text has none of the characters that separate. -/
theorem not_mem_queryEscape {s : List UInt8} {b : UInt8} (hplus : b ≠ 0x2b) (hpercent : b ≠ 0x25)
    (hescape : shouldEscape b = true) : b ∉ queryEscape s := by
  intro h
  rcases mem_queryEscape h with h | h | h
  · exact hplus h
  · exact hpercent h
  · rw [hescape] at h
    cases h

theorem queryUnescape_cons {b : UInt8} (hb : b ≠ 0x25) (rest : List UInt8) :
    queryUnescape (b :: rest) =
      (queryUnescape rest).map ((if b = 0x2b then 0x20 else b) :: ·) := by
  rw [queryUnescape.eq_3 b rest fun _ _ _ h _ => hb h, if_neg hb]

theorem queryUnescape_escapeByte (b : UInt8) (rest : List UInt8) :
    queryUnescape (escapeByte b ++ rest) = (queryUnescape rest).map (b :: ·) := by
  unfold escapeByte
  split
  · next hspace =>
    rw [hspace, List.singleton_append, queryUnescape_cons (by decide), if_pos rfl]
  · split
    · have hlt := b.toNat_lt
      have hbyte : UInt8.ofNat (16 * (b.toNat / 16) + b.toNat % 16) = b := by
        rw [Nat.div_add_mod, UInt8.ofNat_toNat]
      rw [List.cons_append, List.cons_append, List.cons_append, List.nil_append, queryUnescape,
        unhex_upperhex (by omega), unhex_upperhex (by omega)]
      dsimp only
      rw [hbyte]
    · next hsafe =>
      have hpercent : b ≠ 0x25 := by rintro rfl; exact hsafe (by decide)
      have hplus : b ≠ 0x2b := by rintro rfl; exact hsafe (by decide)
      rw [List.singleton_append, queryUnescape_cons hpercent, if_neg hplus]

theorem queryUnescape_queryEscape (s : List UInt8) : queryUnescape (queryEscape s) = some s := by
  unfold queryEscape
  induction s with
  | nil => rfl
  | cons b s ih => rw [List.flatMap_cons, queryUnescape_escapeByte, ih, Option.map_some]

/-! ## Queries that are read back -/

theorem cut_append {a b : List UInt8} {sep : UInt8} (ha : sep ∉ a) :
    cut (a ++ sep :: b) sep = some (a, b) := by
  have hall : ∀ x ∈ a, decide (x ≠ sep) = true := by
    intro x hx
    simpa using fun heq : x = sep => ha (heq ▸ hx)
  unfold cut
  rw [if_pos (by simp), List.takeWhile_append_of_pos hall, List.dropWhile_append_of_pos hall,
    List.takeWhile_cons_of_neg (by simp), List.dropWhile_cons_of_neg (by simp), List.append_nil,
    List.drop_one, List.tail_cons]

theorem parsePair_encodePair (pair : List UInt8 × List UInt8) :
    parsePair (encodePair pair) = some pair := by
  have hsemicolon : ∀ s, (0x3b : UInt8) ∉ queryEscape s := fun _ =>
    not_mem_queryEscape (by decide) (by decide) (by decide)
  have hequals : ∀ s, (0x3d : UInt8) ∉ queryEscape s := fun _ =>
    not_mem_queryEscape (by decide) (by decide) (by decide)
  unfold parsePair encodePair
  rw [if_neg (by simp [hsemicolon]), cut_append (hequals pair.1)]
  dsimp only [Option.getD_some]
  rw [queryUnescape_queryEscape, queryUnescape_queryEscape]

/-- A query that is written pair by pair is read back. -/
theorem parseQuery_encodePairs (pairs : List (List UInt8 × List UInt8)) :
    parseQuery (encodePairs pairs) = pairs := by
  have hamp : ∀ s, (0x26 : UInt8) ∉ queryEscape s := fun _ =>
    not_mem_queryEscape (by decide) (by decide) (by decide)
  unfold parseQuery
  cases pairs with
  | nil => rfl
  | cons pair pairs =>
    have hsplit : split (encodePairs (pair :: pairs)) 0x26 = (pair :: pairs).map encodePair := by
      refine split_eq_iff.mpr ⟨List.cons_ne_nil _ _, ?_, rfl⟩
      intro piece hpiece
      obtain ⟨p, -, rfl⟩ := List.mem_map.mp hpiece
      simp [encodePair, hamp]
    have hread : parsePair ∘ encodePair = some := funext parsePair_encodePair
    rw [hsplit, List.filterMap_map, hread, List.filterMap_some]

/-- The value of a key that stands in the pairs once. -/
theorem queryParam_of_mem {pairs : List (List UInt8 × List UInt8)}
    (hnodup : (pairs.map Prod.fst).Nodup) {key value : List UInt8} (h : (key, value) ∈ pairs) :
    queryParam (encodePairs pairs) key = value := by
  have hfind : pairs.find? (fun pair => pair.1 = key) = some (key, value) := by
    induction pairs with
    | nil => cases h
    | cons pair pairs ih =>
      rw [List.map_cons, List.nodup_cons] at hnodup
      rcases List.mem_cons.mp h with rfl | h
      · rw [List.find?_cons_of_pos (by simp)]
      · have hne : pair.1 ≠ key := by
          rintro rfl
          exact hnodup.1 (List.mem_map.mpr ⟨_, h, rfl⟩)
        rw [List.find?_cons_of_neg (by simpa using hne)]
        exact ih hnodup.2 h
  unfold queryParam
  rw [parseQuery_encodePairs, hfind]
  rfl

theorem queryParam_of_not_mem {pairs : List (List UInt8 × List UInt8)} {key : List UInt8}
    (h : key ∉ pairs.map Prod.fst) : queryParam (encodePairs pairs) key = [] := by
  have hfind : pairs.find? (fun pair => pair.1 = key) = none := by
    rw [List.find?_eq_none]
    intro pair hpair
    simpa using fun heq : pair.1 = key => h (List.mem_map.mpr ⟨pair, hpair, heq⟩)
  unfold queryParam
  rw [parseQuery_encodePairs, hfind]
  rfl

/-- `Encode` writes the pairs in another order, which does not matter to a key that is there
    once. -/
theorem queryParam_encodeValues_of_mem {values : List (List UInt8 × List UInt8)}
    (hnodup : (values.map Prod.fst).Nodup) {key value : List UInt8} (h : (key, value) ∈ values) :
    queryParam (encodeValues values) key = value := by
  have hperm := List.perm_insertionSort (fun x y : List UInt8 × List UInt8 => x.1 ≤ y.1) values
  exact queryParam_of_mem ((hperm.map Prod.fst).nodup_iff.mpr hnodup) (hperm.mem_iff.mpr h)

theorem queryParam_encodeValues_of_not_mem {values : List (List UInt8 × List UInt8)}
    {key : List UInt8} (h : key ∉ values.map Prod.fst) :
    queryParam (encodeValues values) key = [] := by
  have hperm := List.perm_insertionSort (fun x y : List UInt8 × List UInt8 => x.1 ≤ y.1) values
  exact queryParam_of_not_mem fun hmem => h ((hperm.map Prod.fst).mem_iff.mp hmem)

/-! ## References -/

theorem queryOf_append {path query fragment : List UInt8} (hpath : (0x23 : UInt8) ∉ path)
    (hpath' : (0x3f : UInt8) ∉ path) (hquery : (0x23 : UInt8) ∉ query) :
    queryOf (path ++ 0x3f :: (query ++ 0x23 :: fragment)) = query := by
  have hbefore : ∀ b ∈ path ++ 0x3f :: query, decide (b ≠ 0x23) = true := by
    intro b hb
    rcases List.mem_append.mp hb with hb | hb
    · simpa using fun heq : b = 0x23 => hpath (heq ▸ hb)
    · rcases List.mem_cons.mp hb with rfl | hb
      · decide
      · simpa using fun heq : b = 0x23 => hquery (heq ▸ hb)
  have hfirst : ∀ b ∈ path, decide (b ≠ 0x3f) = true := by
    intro b hb
    simpa using fun heq : b = 0x3f => hpath' (heq ▸ hb)
  have hsplit : path ++ 0x3f :: (query ++ 0x23 :: fragment) =
      (path ++ 0x3f :: query) ++ 0x23 :: fragment := by simp
  unfold queryOf
  rw [hsplit, List.takeWhile_append_of_pos hbefore, List.takeWhile_cons_of_neg (by simp),
    List.append_nil, List.dropWhile_append_of_pos hfirst, List.dropWhile_cons_of_neg (by simp),
    List.drop_one, List.tail_cons]

theorem not_mem_encodePairs {pairs : List (List UInt8 × List UInt8)} :
    (0x23 : UInt8) ∉ encodePairs pairs := by
  have hescape : ∀ s, (0x23 : UInt8) ∉ queryEscape s := fun _ =>
    not_mem_queryEscape (by decide) (by decide) (by decide)
  have hpair : ∀ pair, (0x23 : UInt8) ∉ encodePair pair := by
    intro pair
    simp [encodePair, hescape]
  unfold encodePairs
  induction pairs with
  | nil => exact List.not_mem_nil
  | cons pair pairs ih =>
    cases pairs with
    | nil => simpa [List.intercalate] using hpair pair
    | cons next pairs =>
      rw [List.map_cons, List.map_cons, List.intercalate_cons_cons]
      rw [List.map_cons] at ih
      simpa using ⟨hpair pair, ih⟩

end OpenHpcWeb.Go
