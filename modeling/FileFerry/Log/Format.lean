import FileFerry.Text.Basic

/-! The two forms in which a server's log can be written. -/

set_option autoImplicit false

namespace FileFerry

inductive LogFormat where
  | json
  | compact
  deriving DecidableEq, Repr

namespace LogFormat

def name : LogFormat → Text
  | json => text "json"
  | compact => text "compact"

def ofName? (t : Text) : Option LogFormat :=
  [json, compact].find? fun f => f.name == Text.lowerAscii t

/-- What is said of a name that no form has. -/
def unknownName : Text := text "Matching variant not found"

@[simp] theorem ofName?_name (f : LogFormat) : ofName? f.name = some f := by
  cases f <;> decide

end LogFormat

end FileFerry
