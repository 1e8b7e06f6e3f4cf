import FileFerry.Stream.Writer
import FileFerry.Wire.Marker

/-! Receiving a file: payload bytes go to a sink until the end marker. When the sink fails the payload
is still taken in to its marker, so that what follows is found; the sink is then left alone. -/

set_option autoImplicit false

namespace FileFerry

structure Reception where
  scanner : Scanner
  /-- How many bytes are known to belong to the payload. -/
  received : Nat
  /-- The first failure of the sink. -/
  failure : Option IoError

namespace Reception

def fresh : Reception := ⟨.empty, 0, none⟩

variable {σ : Type} [Writer σ]

/-- Does something with a sink, unless it failed before. -/
def attempt (failure : Option IoError) (sink : σ) (operation : σ → Except IoError Unit × σ) :
    Option IoError × σ :=
  match failure with
  | some e => (some e, sink)
  | none =>
    match operation sink with
    | (.ok (), sink') => (none, sink')
    | (.error e, sink') => (some e, sink')

/-- Takes the next chunk. When the marker came the sink is flushed, and the bytes behind the marker
are given back. -/
def take (r : Reception) (sink : σ) (chunk : Bytes) : Option Bytes × Reception × σ :=
  match r.scanner.feed chunk with
  | (.pending payload, scanner) =>
    let (failure, sink) := attempt r.failure sink fun s => Writer.writeAll s payload
    (none, ⟨scanner, r.received + payload.length, failure⟩, sink)
  | (.complete payload trailing, scanner) =>
    let (failure, sink) := attempt r.failure sink fun s => Writer.writeAll s payload
    let (failure, sink) := attempt failure sink Writer.flush
    (some trailing, ⟨scanner, r.received + payload.length, failure⟩, sink)

theorem length_trailing_lt {r r' : Reception} {sink sink' : σ} {chunk trailing : Bytes}
    (h : r.take sink chunk = (some trailing, r', sink')) : trailing.length < chunk.length := by
  unfold take at h
  split at h
  · simp at h
  · rename_i payload t scanner hf
    obtain rfl : t = trailing := by
      have := congrArg Prod.fst h
      simpa using this
    exact Scanner.length_trailing_lt hf

end Reception

end FileFerry
