import FileFerry.Text.Basic

/-! Whole numbers in decimal. Reading works from the left and stops at the first fault, so of a bad
digit and a value out of range the one met first is reported. A plus sign may lead; a minus sign
may only where negative numbers are read. -/

set_option autoImplicit false

namespace FileFerry

/-- Why a text is no number of the wanted range. -/
inductive NumberError where
  | empty
  | invalidDigit
  | tooLarge
  | tooSmall
  deriving DecidableEq, Repr

namespace NumberError

def message : NumberError → Text
  | empty => text "cannot parse integer from empty string"
  | invalidDigit => text "invalid digit found in string"
  | tooLarge => text "number too large to fit in target type"
  | tooSmall => text "number too small to fit in target type"

end NumberError

namespace Decimal

def digitChar (d : Nat) : Char := Char.ofNat (48 + d)

def digit? (c : Char) : Option Nat :=
  if 48 ≤ c.toNat ∧ c.toNat ≤ 57 then some (c.toNat - 48) else none

/-- The decimal digits of a number, without leading zeros. -/
def ofNat (n : Nat) : Text :=
  if n < 10 then [digitChar n] else ofNat (n / 10) ++ [digitChar (n % 10)]

def ofInt : Int → Text
  | .ofNat n => ofNat n
  | .negSucc n => '-' :: ofNat (n + 1)

/-- Continues the number `acc` with further digits; `excess` is the fault of a value above `limit`. -/
def readDigits (limit : Nat) (excess : NumberError) : Nat → Text → Except NumberError Nat
  | acc, [] => .ok acc
  | acc, c :: rest =>
    match digit? c with
    | none => .error .invalidDigit
    | some d =>
      if acc * 10 + d ≤ limit then readDigits limit excess (acc * 10 + d) rest else .error excess

/-- An unsigned number of at most `limit`; a plus sign may precede the digits. -/
def readNat (limit : Nat) : Text → Except NumberError Nat
  | [] => .error .empty
  | ['+'] => .error .invalidDigit
  | '+' :: digits => readDigits limit .tooLarge 0 digits
  | digits => readDigits limit .tooLarge 0 digits

def readInt (limit : Nat) : Text → Except NumberError Int
  | [] => .error .empty
  | ['+'] => .error .invalidDigit
  | ['-'] => .error .invalidDigit
  | '+' :: digits => (readDigits limit .tooLarge 0 digits).map Int.ofNat
  | '-' :: digits => (readDigits (limit + 1) .tooSmall 0 digits).map fun n => -(Int.ofNat n)
  | digits => (readDigits limit .tooLarge 0 digits).map Int.ofNat

/-- The largest number of 64 bits without a sign. -/
def maxUnsigned : Nat := 18446744073709551615

/-- The largest number of 64 bits with a sign. -/
def maxSigned : Nat := 9223372036854775807

end Decimal

end FileFerry
