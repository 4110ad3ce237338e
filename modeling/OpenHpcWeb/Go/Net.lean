/-
  `net.SplitHostPort`, and the parts of a `url.URL` that the modelled packages read.
-/
import OpenHpcWeb.Go.Std

namespace OpenHpcWeb.Go

/-- What `url.Parse` returns. -/
structure URL where
  scheme : String
  host : String
  /-- `User` is not nil -/
  user : Bool
  path : String
  rawQuery : String
  fragment : String
  deriving DecidableEq

/-- The characters before the last colon and those behind it. -/
def splitLastColon (s : List Char) : Option (List Char × List Char) :=
  if ':' ∈ s then
    let port := s.reverse.takeWhile fun c => c ≠ ':'
    some (s.take (s.length - port.length - 1), port.reverse)
  else none

/-- `net.SplitHostPort`; `none` is an error. -/
def splitHostPort (hostport : String) : Option (String × String) :=
  match splitLastColon hostport.toList with
  | none => none
  | some ('[' :: before, port) =>
    -- the first `]` is the last character before the last colon
    match before.reverse with
    | ']' :: inner =>
      if ']' ∈ inner ∨ '[' ∈ inner ∨ '[' ∈ port ∨ ']' ∈ port then none
      else some (String.ofList inner.reverse, String.ofList port)
    | _ => none
  | some (host, port) =>
    if ':' ∈ host ∨ '[' ∈ host ++ port ∨ ']' ∈ host ++ port then none
    else some (String.ofList host, String.ofList port)

example : splitHostPort "[::1]:22" = some ("::1", "22") ∧ splitHostPort "::1" = none ∧
    splitHostPort "node:" = some ("node", "") ∧ splitHostPort "[a]b:1" = none := by
  decide +kernel

end OpenHpcWeb.Go
