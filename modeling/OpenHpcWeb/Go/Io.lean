/-
  `io.Copy` into an `io.Writer`, `bytes.Buffer`, and `bufio.Scanner` over lines.

  A source is the list of what its reads return until EOF. `io.Copy` uses `ReadFrom` of the
  destination whenever its method set has one, and calls `Write` only where it has none.

  * `ioCopy_invariant`: what every call of the method that is used keeps, the copy keeps.
-/
import Mathlib.Data.List.Basic
import OpenHpcWeb.Go.Bytes

namespace OpenHpcWeb.Go

/-- The methods of a destination whose state is a `σ`. -/
structure Writer (σ : Type) where
  /-- `Write`: the count and the error that it returns, and the state after it -/
  write : List UInt8 → σ → Nat × Option String × σ
  /-- `ReadFrom`, if there is one: what it does with one read -/
  readFrom : Option (List UInt8 → σ → σ)

variable {σ : Type}

/-- The loop of `io.Copy` over `Write`, with the error that ends it. -/
def writeLoop (w : Writer σ) : List (List UInt8) → σ → Option String × σ
  | [], s => (none, s)
  | chunk :: chunks, s =>
    match w.write chunk s with
    | (_, some err, s) => (some err, s)
    | (written, none, s) =>
      if written = chunk.length then writeLoop w chunks s else (some "short write", s)

/-- `io.Copy` from a source that returns `chunks`. -/
def ioCopy (w : Writer σ) (chunks : List (List UInt8)) (s : σ) : Option String × σ :=
  match w.readFrom with
  | some readFrom => (none, chunks.foldl (fun s chunk => readFrom chunk s) s)
  | none => writeLoop w chunks s

/-- The method that `io.Copy` uses takes every chunk whole and keeps `P`, which relates the data
    so far to the state. -/
def Writer.Keeps (w : Writer σ) (P : List UInt8 → σ → Prop) : Prop :=
  match w.readFrom with
  | some readFrom => ∀ data s chunk, P data s → P (data ++ chunk) (readFrom chunk s)
  | none => ∀ data s chunk, P data s →
      ∃ s', w.write chunk s = (chunk.length, none, s') ∧ P (data ++ chunk) s'

private theorem foldl_keeps {step : List UInt8 → σ → σ} {P : List UInt8 → σ → Prop}
    (hstep : ∀ data s chunk, P data s → P (data ++ chunk) (step chunk s)) {data : List UInt8}
    {s : σ} (h0 : P data s) (chunks : List (List UInt8)) :
    P (data ++ chunks.flatten) (chunks.foldl (fun s chunk => step chunk s) s) := by
  induction chunks generalizing data s with
  | nil => simpa using h0
  | cons chunk chunks ih =>
    have h := ih (hstep data s chunk h0)
    rwa [List.append_assoc] at h

private theorem writeLoop_keeps {w : Writer σ} {P : List UInt8 → σ → Prop}
    (hstep : ∀ data s chunk, P data s →
      ∃ s', w.write chunk s = (chunk.length, none, s') ∧ P (data ++ chunk) s')
    {data : List UInt8} {s : σ} (h0 : P data s) (chunks : List (List UInt8)) :
    (writeLoop w chunks s).1 = none ∧ P (data ++ chunks.flatten) (writeLoop w chunks s).2 := by
  induction chunks generalizing data s with
  | nil => exact ⟨rfl, by simpa [writeLoop] using h0⟩
  | cons chunk chunks ih =>
    obtain ⟨s', hwrite, hs'⟩ := hstep data s chunk h0
    have h := ih hs'
    have hloop : writeLoop w (chunk :: chunks) s = writeLoop w chunks s' := by
      simp [writeLoop, hwrite]
    rw [List.append_assoc] at h
    rw [hloop]
    exact h

theorem ioCopy_invariant {w : Writer σ} {P : List UInt8 → σ → Prop} (hw : w.Keeps P) {s : σ}
    (h0 : P [] s) (chunks : List (List UInt8)) :
    (ioCopy w chunks s).1 = none ∧ P chunks.flatten (ioCopy w chunks s).2 := by
  unfold Writer.Keeps at hw
  unfold ioCopy
  cases hreadFrom : w.readFrom with
  | some readFrom =>
    rw [hreadFrom] at hw
    exact ⟨rfl, foldl_keeps hw h0 chunks⟩
  | none =>
    rw [hreadFrom] at hw
    exact writeLoop_keeps hw h0 chunks

/-! ## `bytes.Buffer` -/

/-- A buffer that is written and looked at, and never read from. Its memory is not bounded. -/
structure Buffer where
  bytes : List UInt8

namespace Buffer

def len (b : Buffer) : Nat := b.bytes.length

def write (content : List UInt8) (b : Buffer) : Nat × Option String × Buffer :=
  (content.length, none, ⟨b.bytes ++ content⟩)

/-- One read of the loop of `ReadFrom`, which goes into the free space of the buffer. -/
def readFrom (chunk : List UInt8) (b : Buffer) : Buffer := ⟨b.bytes ++ chunk⟩

end Buffer

/-! ## `bufio.Scanner` -/

/-- The lines of a text. A line feed at the end of the text starts no line. -/
def rawLines (data : List UInt8) : List (List UInt8) :=
  let pieces := Bytes.split data 0x0a
  if pieces.getLast? = some [] then pieces.dropLast else pieces

/-- What a scanner over the lines gives, without the carriage return that may end a line, and the
    error that it ends with: a line has to fit, with its line feed, in the buffer. -/
def scanLines (maxTokenSize : Nat) (data : List UInt8) : List (List UInt8) × Option String :=
  (((rawLines data).takeWhile (·.length < maxTokenSize)).map (Bytes.trimSuffix · 0x0d),
    if (rawLines data).all (·.length < maxTokenSize) then none
    else some "bufio.Scanner: token too long")

/-- The lines of a text without their ends. -/
def lines (data : List UInt8) : List (List UInt8) := (rawLines data).map (Bytes.trimSuffix · 0x0d)

example : lines (Bytes.ascii "a\r\n\nb") = [Bytes.ascii "a", [], Bytes.ascii "b"] := by
  decide +kernel

/-- A scanner has no error exactly when every line fits. -/
theorem scanLines_eq_none_iff {maxTokenSize : Nat} {data : List UInt8} :
    (scanLines maxTokenSize data).2 = none ↔
      ∀ line ∈ rawLines data, line.length < maxTokenSize := by
  unfold scanLines
  dsimp only
  split
  · next hall => simpa using hall
  · next hnot => simpa using hnot

theorem scanLines_of_none {maxTokenSize : Nat} {data : List UInt8}
    (h : (scanLines maxTokenSize data).2 = none) :
    (scanLines maxTokenSize data).1 = lines data := by
  have hall := scanLines_eq_none_iff.mp h
  unfold scanLines lines
  rw [List.takeWhile_eq_self_iff.mpr (by simpa using hall)]

end OpenHpcWeb.Go
