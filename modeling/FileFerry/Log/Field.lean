import FileFerry.Log.Pattern.Reading

/-! Conditions on the fields of a span: the name of a field, or a name and behind an equals sign what
its value has to be. That is a truth value or a number, and if it is neither, a pattern. -/

set_option autoImplicit false

namespace FileFerry

namespace LogField

def dropSign : Text → Text
  | [] => []
  | c :: t => if c = '+' ∨ c = '-' then t else c :: t

def isDigits (t : Text) : Bool := t ≠ [] && t.all Char.isDigit

/-- Whether nothing or an exponent of ten is left of a number. -/
def endsNumber : Text → Bool
  | [] => true
  | c :: t => (c == 'e' || c == 'E') && isDigits (dropSign t)

def fraction : Text → Text × Text
  | [] => ([], [])
  | c :: t =>
    if c = '.' then (t.takeWhile Char.isDigit, t.dropWhile Char.isDigit) else ([], c :: t)

/-- Whether a text is a number: digits before or behind a point or both, perhaps with an exponent, or
one of the names for what is no finite number. -/
def isNumber (t : Text) : Bool :=
  let t := dropSign t
  let (behind, rest) := fraction (t.dropWhile Char.isDigit)
  [text "inf", text "infinity", text "nan"].contains (Text.lowerAscii t) ||
    (t.takeWhile Char.isDigit ≠ [] || behind ≠ []) && endsNumber rest

def isTruth (t : Text) : Bool := t = text "true" || t = text "false"

/-- Checks a condition; what follows a second equals sign does not count. -/
def check (t : Text) : Except PatternError Unit :=
  match Text.splitAt '=' t with
  | _ :: value :: _ => if isTruth value || isNumber value then .ok () else Pattern.check value
  | _ => .ok ()

end LogField

end FileFerry
