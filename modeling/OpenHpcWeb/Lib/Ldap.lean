/-
  A directory server as its clients see it: entries, equality filters, searches of a subtree
  with a size limit, and adds that are refused only when the name is taken.

  Values are compared in the normal form of the equality rule of their attribute, names in
  the normal form of their components. Both forms are a parameter (`Schema`), so no result
  depends on a particular rule.

  * `mem_found_iff`: what a search finds.
  * `respond_of_no_error`: an answer without an error holds all of it.
  * `add_eq_some_iff`: what an add does.
-/
import Mathlib.Data.List.Basic
import Mathlib.Data.List.Infix
import Mathlib.Tactic.Common

namespace OpenHpcWeb.Lib.Ldap

/-- How the server compares. -/
structure Schema where
  /-- the normal form of a value of an attribute -/
  normal : String → String → String
  /-- the components of a distinguished name in normal form, the entry's own first -/
  name : String → List String

structure Entry where
  dn : String
  attributes : List (String × List String)
  deriving DecidableEq

inductive Filter where
  | equals (attr value : String)
  | both (f g : Filter)

structure Search where
  base : String
  filter : Filter
  sizeLimit : Nat

inductive ResultCode where
  | sizeLimitExceeded
  | invalidCredentials
  | other (text : String)
  deriving DecidableEq

/-- The entries of an answer, in the order they arrive, and how it ends. -/
structure Response where
  entries : List Entry
  error : Option ResultCode

def Entry.values (e : Entry) (attr : String) : List String :=
  ((e.attributes.find? fun a => a.1 = attr).map Prod.snd).getD []

variable (S : Schema)

/-- The equality match of an attribute. -/
def Entry.has (e : Entry) (attr value : String) : Bool :=
  (e.values attr).any fun v => S.normal attr v = S.normal attr value

def Filter.holds (e : Entry) : Filter → Bool
  | .equals attr value => e.has S attr value
  | .both f g => f.holds e && g.holds e

/-- `dn` is `base` or below it. -/
def under (base dn : String) : Bool := decide (S.name base <:+ S.name dn)

/-- What a search of the whole subtree finds. -/
def found (directory : List Entry) (q : Search) : List Entry :=
  directory.filter fun e => under S q.base e.dn && q.filter.holds S e

/-- The answer to a search. A `fault` ends it after some entries. -/
def respond (directory : List Entry) (fault : Option (Nat × String)) (q : Search) : Response :=
  match fault with
  | some (delivered, text) => ⟨(found S directory q).take delivered, some (.other text)⟩
  | none =>
    if q.sizeLimit ≠ 0 ∧ q.sizeLimit < (found S directory q).length then
      ⟨(found S directory q).take q.sizeLimit, some .sizeLimitExceeded⟩
    else ⟨found S directory q, none⟩

/-- The directory after an add; `none` is a name that is taken. -/
def add (directory : List Entry) (e : Entry) : Option (List Entry) :=
  if ∃ x ∈ directory, S.name x.dn = S.name e.dn then none else some (directory ++ [e])

variable {S} {directory directory' : List Entry} {q : Search} {e x : Entry}

theorem has_iff {attr value : String} : e.has S attr value = true ↔
    ∃ v ∈ e.values attr, S.normal attr v = S.normal attr value := by
  simp [Entry.has]

theorem mem_found_iff : x ∈ found S directory q ↔
    x ∈ directory ∧ S.name q.base <:+ S.name x.dn ∧ q.filter.holds S x = true := by
  simp [found, under]

theorem respond_of_no_error {fault : Option (Nat × String)}
    (h : (respond S directory fault q).error = none) :
    (respond S directory fault q).entries = found S directory q := by
  unfold respond at h ⊢
  split
  · cases h
  · next hnone =>
    simp only at h ⊢
    split
    · next hlimit =>
      rw [if_pos hlimit] at h
      cases h
    · rfl

theorem add_eq_some_iff : add S directory e = some directory' ↔
    (∀ x ∈ directory, S.name x.dn ≠ S.name e.dn) ∧ directory' = directory ++ [e] := by
  unfold add
  split
  · next htaken =>
    obtain ⟨x, hx, hname⟩ := htaken
    constructor
    · intro h
      cases h
    · rintro ⟨hfree, -⟩
      exact absurd hname (hfree x hx)
  · next hfree =>
    simp only [not_exists, not_and] at hfree
    rw [Option.some.injEq]
    exact ⟨fun h => ⟨hfree, h.symm⟩, fun h => h.2.symm⟩

end OpenHpcWeb.Lib.Ldap
