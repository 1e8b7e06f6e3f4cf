import FileFerry.Stream.Source
import FileFerry.Stream.Writer
import FileFerry.Wire.Marker

/-! Sending a file: its bytes as they are read, then the end marker. The marker is also sent when the
file cannot be read to its end, so that the receiver finds its way back; it is not sent when some
of the bytes could not be. -/

set_option autoImplicit false

namespace FileFerry

/-- The most bytes of a transfer that are read at once. -/
def chunkSize : Nat := 8 * 1024

inductive Transmission where
  /-- All bytes and the marker were sent. -/
  | sent (count : Nat)
  /-- Reading failed; what was read and the marker were sent. -/
  | sourceFailed (error : IoError)
  | outputFailed (error : IoError)
  deriving DecidableEq, Repr

structure Sending where
  source : Source
  count : Nat

inductive SendingStep where
  | ended (outcome : Transmission)
  | more (rest : Sending)

namespace Sending

def ofSource (src : Source) : Sending := ⟨src, 0⟩

variable {ω : Type} [Writer ω]

/-- Sends the marker; `outcome` says how the transfer went until then. -/
def finish (outcome : Transmission) (w : ω) : SendingStep × ω :=
  match Writer.send w endMarker with
  | (.ok (), w') => (.ended outcome, w')
  | (.error e, w') => (.ended (.outputFailed e), w')

def step (s : Sending) (w : ω) : SendingStep × ω :=
  match s.source.readAgain chunkSize with
  | (.ok [], _) => finish (.sent s.count) w
  | (.error e, _) => finish (.sourceFailed e) w
  | (.ok (b :: bs), rest) =>
    match Writer.send w (b :: bs) with
    | (.ok (), w') => (.more ⟨rest, s.count + (b :: bs).length⟩, w')
    | (.error e, w') => (.ended (.outputFailed e), w')

theorem size_source_step_lt {s rest : Sending} {w w' : ω} (h : s.step w = (.more rest, w')) :
    rest.source.size < s.source.size := by
  unfold step at h
  split at h
  · unfold finish at h
    split at h <;> simp at h
  · unfold finish at h
    split at h <;> simp at h
  · rename_i hr
    split at h
    · obtain ⟨heq, _⟩ := Prod.mk.inj h
      cases heq
      exact Source.size_readAgain_lt (by decide) hr
    · simp at h

def run (s : Sending) (w : ω) : Transmission × ω :=
  match _h : s.step w with
  | (.ended outcome, w') => (outcome, w')
  | (.more rest, w') => run rest w'
termination_by s.source.size
decreasing_by exact size_source_step_lt _h

end Sending

def transmit {ω : Type} [Writer ω] (src : Source) (w : ω) : Transmission × ω :=
  (Sending.ofSource src).run w

end FileFerry
