/-
  The configuration provider of internal/slurmconfig/provider.go.

  The directory is what `openat` finds in it: for a name an error, or an open file with what
  `Stat` says and what reading it to the end gives. A file's contents are bytes; what is shown
  of them is text, `toValidUTF8` of them. `redact` works on that text, line by line.
-/
import OpenHpcWeb.Go.Std
import OpenHpcWeb.Go.Utf8

namespace OpenHpcWeb.Slurmconfig

open OpenHpcWeb.Go

def maxConfigBytesHard : Int := 4 * 2 ^ 20

structure File where
  name : String
  size : GoInt
  content : String
  truncated : Bool

structure FileInfo where
  size : GoInt
  regular : Bool

/-- An open file: what `Stat` gives, if anything, and what reading to the end gives. -/
structure OpenFile where
  stat : Option FileInfo
  bytes : Except String (List UInt8)

/-- A provider that `New` has made: its limit is in the range `New` asks for. -/
structure LocalProvider where
  maxBytes : GoInt
  limit : 0 < maxBytes.val ∧ maxBytes.val ≤ maxConfigBytesHard
  openat : String → Except String OpenFile

def isNameChar (c : Char) : Bool :=
  ('a' ≤ c && c ≤ 'z') || ('A' ≤ c && c ≤ 'Z') || ('0' ≤ c && c ≤ '9') || c = '.' || c = '_' ||
    c = '-'

/-- The set of characters is a raw string in the source: it ends in the letters of an escape. -/
def validConfigName (name : String) : Bool :=
  if name = "" ∨ 128 < byteLen name ∨ name = "." ∨ name = ".." ∨
      containsAny name "/\\\\\\x00" = true then false
  else name.toList.all isNameChar

/-! ## Redaction -/

def markers : List String :=
  ["password", "pass", "token", "secret", "privatekey", "authinfo", "jwt"]

/-- `strings.Split` with a separator of one ASCII character. -/
def split (s : String) (separator : Char) : List String :=
  (s.toList.splitOn separator).map String.ofList

section

variable [UnicodeCase]

/-- A key that contains one of the markers. -/
def hasMarker (key : String) : Bool :=
  markers.any fun marker => contains (toLower key) marker

/-- The body of the loop over the lines. -/
def redactLine (line : String) : String :=
  let key := line.toList.takeWhile (· ≠ '=')
  if '=' ∉ line.toList ∨ key = [] then line
  else if hasMarker (trimSpace (String.ofList key)) then
    String.ofList (key ++ '=' :: "REDACTED".toList)
  else line

def redact (content : String) : String := join ((split content '\n').map redactLine) "\n"

/-- `LocalProvider.Read`; `ctxErr` is the error of the context, if it has ended. -/
def LocalProvider.read (p : LocalProvider) (ctxErr : Option String) (name : String) :
    Except String File :=
  match ctxErr with
  | some err => .error err
  | none =>
    if validConfigName name = false then .error "invalid Slurm config file name"
    else
      match p.openat name with
      | .error err => .error err
      | .ok file =>
        match file.stat with
        | none => .error "Slurm config entry is not a regular file"
        | some info =>
          if info.regular = false then .error "Slurm config entry is not a regular file"
          else
            match file.bytes with
            | .error err => .error err
            | .ok bytes =>
              let read := bytes.take (p.maxBytes.val + 1).toNat
              let truncated := decide (p.maxBytes.val < read.length)
              let content := if truncated then read.take p.maxBytes.val.toNat else read
              .ok
                { name := name
                  size := info.size
                  content := redact (String.ofList (toValidUTF8 content))
                  truncated := truncated }

end

end OpenHpcWeb.Slurmconfig
