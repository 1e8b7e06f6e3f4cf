import FileFerry.Failure.Basic
import FileFerry.Net.Address
import FileFerry.Path
import FileFerry.Text.Decimal

/-! What a program can be told when it is started: operands, which stand at a place, and options,
which have names. Each is told once, and what it is told changes the program's settings. -/

set_option autoImplicit false

namespace FileFerry

inductive ValueFault where
  | illFormed
  | missing
  | invalid (value : Text) (reason : Text)
  deriving DecidableEq, Repr

inductive Spelling where
  | operand (required : Bool)
  | option (name : Text) (letter : Option Char)
  deriving DecidableEq, Repr

structure Parameter (σ : Type) where
  spelling : Spelling
  valueName : Text
  environment : Option Text
  /-- The value if nothing gives one, as it is shown. -/
  fallback : Text
  meaning : Text
  set : Bytes → σ → Except ValueFault σ

namespace Parameter

variable {σ : Type}

def label (p : Parameter σ) : Text :=
  match p.spelling with
  | .operand true => '<' :: p.valueName ++ ['>']
  | .operand false => '[' :: p.valueName ++ [']']
  | .option name _ => text "--" ++ name ++ text " <" ++ p.valueName ++ ['>']

def isOperand (p : Parameter σ) : Bool :=
  match p.spelling with
  | .operand _ => true
  | .option _ _ => false

def isRequired (p : Parameter σ) : Bool := p.spelling == .operand true

def hasName (p : Parameter σ) (name : Text) : Bool :=
  match p.spelling with
  | .option n _ => n == name
  | .operand _ => false

def hasLetter (p : Parameter σ) (letter : Char) : Bool :=
  match p.spelling with
  | .option _ l => l == some letter
  | .operand _ => false

end Parameter

namespace Value

def ofText (b : Bytes) : Except ValueFault Text :=
  match Utf8.decode? b with
  | some t => .ok t
  | none => .error .illFormed

/-- A path is any bytes but none. -/
def ofPath (b : Bytes) : Except ValueFault Path := if b = [] then .error .missing else .ok ⟨b⟩

def maxPort : Nat := 65535

/-- A port is read as a signed number first, so that one out of range is told from one that is no
number. -/
def ofPort (b : Bytes) : Except ValueFault UInt16 := do
  let t ← ofText b
  match Decimal.readInt Decimal.maxSigned t with
  | .error reason => throw (.invalid t reason.message)
  | .ok n =>
    if 0 ≤ n ∧ n ≤ maxPort then return UInt16.ofNat n.toNat
    else throw (.invalid t (Decimal.ofInt n ++ text " is not in 0..=65535"))

def ofCount (b : Bytes) : Except ValueFault UInt64 := do
  let t ← ofText b
  match Decimal.readNat Decimal.maxUnsigned t with
  | .error reason => throw (.invalid t reason.message)
  | .ok n => return UInt64.ofNat n

end Value

end FileFerry
