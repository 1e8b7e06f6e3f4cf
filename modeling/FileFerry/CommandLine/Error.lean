import FileFerry.CommandLine.Parameter
import FileFerry.Text.Terminal

/-! What is wrong with a command line, and how it is told. -/

set_option autoImplicit false

namespace FileFerry

inductive ArgumentError where
  | invalidValue (label value reason : Text)
  /-- No value, or an empty one, where there must be one. -/
  | missingValue (label : Text)
  | unexpected (argument : Text)
  | repeated (label : Text)
  | illFormed
  /-- A value for an option that takes none. -/
  | unexpectedValue (value option : Text)
  | missingOperands (labels : List Text)
  deriving DecidableEq, Repr

namespace ArgumentError

/-- What is wrong. What the user typed is shown without its control sequences, each piece by itself:
a sequence that it leaves open reaches no further. -/
def message (e : ArgumentError) : Text :=
  text "error: " ++ match e with
    | invalidValue label value reason =>
      text "invalid value '" ++ Text.withoutControls value ++ text "' for '" ++ label ++
        text "': " ++ reason
    | missingValue label =>
      text "a value is required for '" ++ label ++ text "' but none was supplied"
    | unexpected argument =>
      text "unexpected argument '" ++ Text.withoutControls argument ++ text "' found"
    | repeated label => text "the argument '" ++ label ++ text "' cannot be used multiple times"
    | illFormed => text "invalid UTF-8 was detected in one or more arguments"
    | unexpectedValue value option =>
      text "unexpected value '" ++ Text.withoutControls value ++ text "' for '" ++ option ++
        text "' found; no more were expected"
    | missingOperands labels =>
      text "the following required arguments were not provided:" ++
        labels.flatMap fun label => text "\n  " ++ label

def notice (e : ArgumentError) : Text :=
  e.message ++ text "\n\nFor more information, try '--help'.\n"

/-- The fault of a value given to the parameter called `label`. -/
def ofFault (label : Text) : ValueFault → ArgumentError
  | .illFormed => illFormed
  | .missing => missingValue label
  | .invalid value reason => invalidValue label value reason

end ArgumentError

end FileFerry
