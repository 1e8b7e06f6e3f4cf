import FileFerry.CommandLine.Reading

/-! The help and the version that a program shows when asked for them. -/

set_option autoImplicit false

namespace FileFerry

namespace Program

variable {σ : Type}

def usageLabel (p : Parameter σ) : Text :=
  match p.spelling with
  | .operand _ => p.label
  | .option _ none => text "    " ++ p.label
  | .option _ (some letter) => ['-', letter, ',', ' '] ++ p.label

/-- What the help says of a parameter behind its label. -/
def remark (p : Parameter σ) : Text :=
  p.meaning ++
    (match p.environment with
      | some name => text " [env: " ++ name ++ text "=]"
      | none => []) ++
    (if p.fallback = [] then [] else text " [default: " ++ p.fallback ++ [']'])

def padTo (width : Nat) (t : Text) : Text := t ++ List.replicate (width - t.length) ' '

def table (rows : List (Text × Text)) : Text :=
  let width := rows.foldl (fun w row => max w row.1.length) 0
  rows.flatMap fun (left, right) => text "  " ++ padTo (width + 2) left ++ right ++ ['\n']

def help (program : Program σ) : Text :=
  let row (p : Parameter σ) : Text × Text := (usageLabel p, remark p)
  let operands := program.parameters.filter Parameter.isOperand
  let options := program.parameters.filter fun p => !p.isOperand
  program.purpose ++ text "\n\nUsage: " ++ program.name ++ text " [OPTIONS]" ++
    (operands.flatMap fun p => ' ' :: p.label) ++ text "\n\nArguments:\n" ++
    table (operands.map row) ++ text "\nOptions:\n" ++
    table (options.map row ++
      [(text "-h, --help", text "Print help"), (text "-V, --version", text "Print version")])

def versionLine (program : Program σ) : Text := program.name ++ ' ' :: program.version ++ ['\n']

end Program

end FileFerry
