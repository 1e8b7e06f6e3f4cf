import FileFerry.Stream.Source
import FileFerry.Wire.Line

/-! The bytes a session has received and not used yet. Lines and raw bytes come from the same buffer:
what follows a line's newline, or was given back after a marker, is there for whatever is read
next. The length limit of lines looks at the buffer before more is read into it. -/

set_option autoImplicit false

namespace FileFerry

/-- With this many bytes and no newline among them a line is too long. -/
def maxLineBytes : Nat := 64 * 1024

/-- The most bytes read at once while a line is awaited. -/
def lineReadSize : Nat := 4 * 1024

structure InputBuffer where
  pending : Bytes
  deriving DecidableEq, Repr

namespace InputBuffer

def empty : InputBuffer := ⟨[]⟩

inductive LineSearch where
  | line (content : Text) (rest : InputBuffer)
  | tooLong
  | incomplete

def nextLine (b : InputBuffer) : LineSearch :=
  match cutAtNewline? b.pending with
  | some (before, after) => .line (Utf8.decodeLossy (dropCarriageReturn before)) ⟨after⟩
  | none => if maxLineBytes ≤ b.pending.length then .tooLong else .incomplete

def supply (b : InputBuffer) (chunk : Bytes) : InputBuffer := ⟨b.pending ++ chunk⟩

def takeRaw (n : Nat) (b : InputBuffer) : Bytes × InputBuffer :=
  (b.pending.take n, ⟨b.pending.drop n⟩)

def unread (b : InputBuffer) (bytes : Bytes) : InputBuffer := ⟨bytes ++ b.pending⟩

inductive LineResult where
  | line (content : Text)
  | ended
  | tooLong
  | failed (error : IoError)
  deriving DecidableEq, Repr

def readLine (b : InputBuffer) (src : Source) : LineResult × InputBuffer × Source :=
  match b.nextLine with
  | .line content rest => (.line content, rest, src)
  | .tooLong => (.tooLong, b, src)
  | .incomplete =>
    match _h : src.readAgain lineReadSize with
    | (.error e, rest) => (.failed e, b, rest)
    | (.ok [], rest) => (.ended, b, rest)
    | (.ok (c :: cs), rest) => readLine (b.supply (c :: cs)) rest
termination_by src.size
decreasing_by exact Source.size_readAgain_lt (by decide) _h

/-- Reads at most `n` raw bytes, from the stream only if the buffer is empty. -/
def readRaw (n : Nat) (b : InputBuffer) (src : Source) : ReadResult × InputBuffer × Source :=
  if b.pending = [] then
    let (result, rest) := src.readAgain n
    (result, b, rest)
  else
    let (taken, b) := b.takeRaw n
    (.ok taken, b, src)

theorem length_nextLine_lt {b rest : InputBuffer} {content : Text}
    (h : b.nextLine = .line content rest) : rest.pending.length < b.pending.length := by
  unfold nextLine at h
  split at h
  · rename_i before after hc
    obtain ⟨_, rfl⟩ : Utf8.decodeLossy (dropCarriageReturn before) = content ∧ ⟨after⟩ = rest := by
      simpa using h
    exact length_lt_of_cutAtNewline? hc
  · split at h <;> simp at h

end InputBuffer

end FileFerry
