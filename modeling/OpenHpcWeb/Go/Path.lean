/-
  The package `path`, and `path/filepath` on Linux, as far as the modelled packages call it.

  * `clean_components`: a clean absolute path is its components, none of which is empty or a dot
    or two dots.
-/
import OpenHpcWeb.Go.Std

namespace OpenHpcWeb.Go

/-- `path.IsAbs`. -/
def isAbs (p : String) : Bool := decide ("/".toList <+: p.toList)

/-- One component of a path against those before it, the last one first. -/
def cleanStep (rooted : Bool) (out : List (List Char)) (component : List Char) :
    List (List Char) :=
  if component = [] ∨ component = ['.'] then out
  else if component = ['.', '.'] then
    match out with
    | [] => if rooted then [] else [component]
    | last :: rest => if last = ['.', '.'] then component :: out else rest
  else component :: out

/-- `path.Clean`. -/
def cleanPath (p : String) : String :=
  let out := ((p.toList.splitOn '/').foldl (cleanStep (isAbs p)) []).reverse
  if isAbs p then String.ofList ('/' :: ['/'].intercalate out)
  else if out = [] then "."
  else String.ofList (['/'].intercalate out)

example : cleanPath "/a/./b//../c" = "/a/c" ∧ cleanPath "../a/.." = ".." := by decide +kernel

/-! ## Components -/

/-- A name that is one step down. -/
structure ProperComponent (component : List Char) : Prop where
  nonempty : component ≠ []
  notDot : component ≠ ['.']
  notDotDot : component ≠ ['.', '.']
  noSlash : '/' ∉ component

theorem cleanStep_proper {out : List (List Char)} {component : List Char}
    (hout : ∀ c ∈ out, ProperComponent c) (hslash : '/' ∉ component) :
    ∀ c ∈ cleanStep true out component, ProperComponent c := by
  unfold cleanStep
  split
  · exact hout
  · next hnot =>
    rw [not_or] at hnot
    split
    · cases out with
      | nil =>
        intro c hc
        cases hc
      | cons last rest =>
        dsimp only
        rw [if_neg (hout last List.mem_cons_self).notDotDot]
        exact fun c hc => hout c (List.mem_cons_of_mem last hc)
    · next hdots =>
      intro c hc
      rcases List.mem_cons.mp hc with rfl | hc
      · exact ⟨hnot.1, hnot.2, hdots, hslash⟩
      · exact hout c hc

theorem cleanStep_foldl_proper {components out : List (List Char)}
    (hslash : ∀ c ∈ components, '/' ∉ c) (hout : ∀ c ∈ out, ProperComponent c) :
    ∀ c ∈ components.foldl (cleanStep true) out, ProperComponent c := by
  induction components generalizing out with
  | nil => exact hout
  | cons component components ih =>
    exact ih (fun c hc => hslash c (List.mem_cons_of_mem component hc))
      (cleanStep_proper hout (hslash component List.mem_cons_self))

/-- What a clean absolute path is made of. -/
theorem clean_components {p : String} (habs : isAbs p = true) (hclean : cleanPath p = p)
    (hroot : p ≠ "/") : ∃ components, p.toList = '/' :: ['/'].intercalate components ∧
      components ≠ [] ∧ ∀ c ∈ components, ProperComponent c := by
  have hnil : ∀ c ∈ ([] : List (List Char)), ProperComponent c := fun _ h => nomatch h
  have hproper : ∀ c ∈ (p.toList.splitOn '/').foldl (cleanStep true) [], ProperComponent c :=
    cleanStep_foldl_proper (fun c hc => not_mem_of_mem_splitOn hc) hnil
  unfold cleanPath at hclean
  rw [habs] at hclean
  dsimp only at hclean
  rw [if_pos rfl] at hclean
  have hchars : p.toList = '/' :: ['/'].intercalate
      ((p.toList.splitOn '/').foldl (cleanStep true) []).reverse := by
    conv_lhs => rw [← hclean]
    rw [String.toList_ofList]
  refine ⟨_, hchars, fun hnil => hroot ?_, fun c hc => hproper c (List.mem_reverse.mp hc)⟩
  rw [hnil] at hchars
  rw [← String.toList_inj, hchars]
  rfl

end OpenHpcWeb.Go
