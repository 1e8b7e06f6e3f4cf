import FileFerry.Text.Decimal
import FileFerry.Text.Utf8

/-! Cancellation requests. A request names a running command by its number; the number stands at a
fixed offset and ends at the first byte that is no digit. What precedes the offset is not looked at. -/

set_option autoImplicit false

namespace FileFerry

/-- The number of a command that can be cancelled. -/
structure CommandId where
  value : UInt64
  deriving DecidableEq, Repr

inductive CancellationError where
  | tooShort (length : Nat)
  | missingIdentifier
  | invalidIdentifier (reason : NumberError)
  deriving DecidableEq, Repr

namespace CancellationError

def message : CancellationError → Text
  | tooShort length =>
    text "cancellation payload of " ++ Decimal.ofNat length ++
      text " bytes is shorter than the identifier offset"
  | missingIdentifier => text "cancellation payload carries no command identifier"
  | invalidIdentifier reason => text "invalid command identifier: " ++ reason.message

end CancellationError

namespace CommandId

/-- What conventionally precedes the number. -/
def requestStart : Text := text "terminate "

/-- Where the number begins in a request. -/
def offset : Nat := requestStart.length

def toText (id : CommandId) : Text := Decimal.ofNat id.value.toNat

def request (id : CommandId) : Bytes := Utf8.encode (requestStart ++ id.toText ++ ['\n'])

def ofText (t : Text) : Except CancellationError CommandId :=
  match Decimal.readNat Decimal.maxUnsigned (Text.trim t) with
  | .ok n => .ok ⟨UInt64.ofNat n⟩
  | .error reason => .error (.invalidIdentifier reason)

def isDigit (b : UInt8) : Bool := 48 ≤ b && b ≤ 57

def ofRequest (payload : Bytes) : Except CancellationError CommandId :=
  if payload.length < offset then .error (.tooShort payload.length)
  else match (payload.drop offset).takeWhile isDigit with
    | [] => .error .missingIdentifier
    | digits => ofText (Utf8.decodeLossy digits)

end CommandId

end FileFerry
