import FileFerry.Registry
import FileFerry.Stream.Source
import FileFerry.Wire.Line

/-! Cancellation requests as they arrive. A request is read up to a newline, the end of the stream or
its longest length, whichever comes first; whatever came with the newline belongs to it too. -/

set_option autoImplicit false

namespace FileFerry

/-- The most bytes of a request that are read. -/
def maxRequestBytes : Nat := 64

/-- Reads on from what was read of a request. -/
def readRequest (payload : Bytes) (src : Source) : ReadResult × Source :=
  if payload.length < maxRequestBytes ∧ newline ∉ payload then
    match _h : src.readAgain (maxRequestBytes - payload.length) with
    | (.error e, rest) => (.error e, rest)
    | (.ok [], rest) => (.ok payload, rest)
    | (.ok (b :: bs), rest) => readRequest (payload ++ b :: bs) rest
  else (.ok payload, src)
termination_by src.size
decreasing_by exact Source.size_readAgain_lt (by omega) _h

/-- Serves one connection on the cancellation port. A request that cannot be read, or names no
command, changes nothing; nothing is ever sent back. -/
def Registry.serve (r : Registry) (src : Source) : Registry :=
  match (readRequest [] src).1 with
  | .ok payload => r.obey payload
  | .error _ => r

end FileFerry
