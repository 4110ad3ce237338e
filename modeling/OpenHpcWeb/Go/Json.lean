/-
  The package `encoding/json` as far as it fills structs, from the value that a text denotes.

  A struct is the list of its fields, each with the name of its tag. Of fields with one name,
  all of them tagged, the package keeps none (`dominantFields`).

  * `unmarshal_keeps`: what no field that is kept stores to, a document does not change.
-/
import OpenHpcWeb.Go.Strconv

namespace OpenHpcWeb.Go

/-- A value of JSON, a number by its literal. -/
inductive JsonValue where
  | null
  | bool (value : Bool)
  | number (literal : String)
  | string (value : String)
  | array (elements : List JsonValue)
  | object (members : List (String × JsonValue))

/-- A field of the struct `σ`; `store` is `none` for a value of another type. -/
structure JsonField (σ : Type) where
  name : String
  store : JsonValue → σ → Option σ

variable {σ τ : Type}

/-- A field of type `string`. -/
def JsonField.text (name : String) (set : String → σ → σ) : JsonField σ where
  name := name
  store
    | .null, s => some s
    | .string value, s => some (set value s)
    | _, _ => none

/-- A field of type `int`. -/
def JsonField.int (name : String) (set : GoInt → σ → σ) : JsonField σ where
  name := name
  store
    | .null, s => some s
    | .number literal, s => (parseInt literal).map fun n => set n s
    | _, _ => none

/-- The fields that have their name alone. -/
def dominantFields (fields : List (JsonField σ)) : List (JsonField σ) :=
  fields.filter fun f => fields.countP (fun g => g.name = f.name) = 1

/-- The field of a member: by its name, or else by its name in another case. -/
def fieldFor (fields : List (JsonField σ)) (key : String) : Option (JsonField σ) :=
  (fields.find? fun f => f.name = key).or (fields.find? fun f => equalFold key f.name)

/-- A member without a field is skipped. -/
def storeMember (fields : List (JsonField σ)) (s : σ) (member : String × JsonValue) : Option σ :=
  match fieldFor fields member.1 with
  | none => some s
  | some f => f.store member.2 s

/-- `json.Unmarshal` into the struct; `none` is an error. -/
def unmarshal (fields : List (JsonField σ)) (s : σ) : JsonValue → Option σ
  | .null => some s
  | .object members => members.foldlM (storeMember (dominantFields fields)) s
  | _ => none

/-! ## What a document leaves alone -/

theorem fieldFor_mem {fields : List (JsonField σ)} {key : String} {f : JsonField σ}
    (h : fieldFor fields key = some f) : f ∈ fields := by
  unfold fieldFor at h
  rcases Option.or_eq_some_iff.mp h with hname | ⟨-, hfold⟩
  · exact List.mem_of_find?_eq_some hname
  · exact List.mem_of_find?_eq_some hfold

theorem storeMember_keeps {fields : List (JsonField σ)} (part : σ → τ)
    (hfields : ∀ f ∈ fields, ∀ value s s', f.store value s = some s' → part s' = part s)
    {s s' : σ} {member : String × JsonValue} (h : storeMember fields s member = some s') :
    part s' = part s := by
  unfold storeMember at h
  split at h
  · rw [Option.some.inj h]
  · next f hf => exact hfields f (fieldFor_mem hf) member.2 s s' h

/-- A part of the struct that no dominant field stores to is the same after the document. -/
theorem unmarshal_keeps {fields : List (JsonField σ)} (part : σ → τ)
    (hfields : ∀ f ∈ dominantFields fields, ∀ value s s',
      f.store value s = some s' → part s' = part s)
    {s s' : σ} {document : JsonValue} (h : unmarshal fields s document = some s') :
    part s' = part s := by
  cases document with
  | null => rw [Option.some.inj h]
  | object members =>
    show part s' = part s
    change members.foldlM (storeMember (dominantFields fields)) s = some s' at h
    induction members generalizing s with
    | nil => rw [Option.some.inj h]
    | cons member members ih =>
      rw [List.foldlM_cons] at h
      obtain ⟨t, ht, hrest⟩ := Option.bind_eq_some_iff.mp h
      rw [ih hrest, storeMember_keeps part hfields ht]
  | bool _ => cases h
  | number _ => cases h
  | string _ => cases h
  | array _ => cases h

/-- Fields that share a name are not dominant. -/
theorem not_dominant {fields : List (JsonField σ)} {f : JsonField σ}
    (h : 1 < fields.countP fun g => g.name = f.name) : f ∉ dominantFields fields := by
  intro hmem
  have hone := (List.mem_filter.mp hmem).2
  simp only [decide_eq_true_eq] at hone
  omega

end OpenHpcWeb.Go
