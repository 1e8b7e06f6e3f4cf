import FileFerry.CommandLine.Error

/-! Reading a command line from left to right. A value is only looked at when the next argument that
is no value arrives, so an unknown argument is reported rather than the bad value before it.
Arguments win over the environment, and that over the settings a program begins with. -/

set_option autoImplicit false

namespace FileFerry

structure Program (σ : Type) where
  name : Text
  version : Text
  purpose : Text
  parameters : List (Parameter σ)

inductive Refusal where
  | help
  | version
  | error (e : ArgumentError)
  deriving DecidableEq, Repr

structure Reading (σ : Type) where
  settings : σ
  /-- The parameters that were told, by label. -/
  told : List Text
  /-- The parameter met last and its value, which are still to be used. -/
  pending : Option (Parameter σ × Option Bytes)
  /-- The operands not met yet. -/
  operands : List (Parameter σ)
  operandsOnly : Bool

namespace Reading

variable {σ : Type}

def refuse {α : Type} (e : ArgumentError) : Except Refusal α := .error (.error e)

def tell (r : Reading σ) (p : Parameter σ) (value : Bytes) : Except Refusal (Reading σ) :=
  match p.set value r.settings with
  | .ok settings => .ok { r with settings, told := p.label :: r.told }
  | .error fault => refuse (.ofFault p.label fault)

/-- Tells an option its value, which can be done once. -/
def tellOnce (r : Reading σ) (p : Parameter σ) (value : Bytes) : Except Refusal (Reading σ) :=
  if p.label ∈ r.told then refuse (.repeated p.label) else r.tell p value

def settle (r : Reading σ) : Except Refusal (Reading σ) :=
  match r.pending with
  | none => .ok r
  | some (p, none) => refuse (.missingValue p.label)
  | some (p, some value) => { r with pending := none }.tellOnce p value

def meet (r : Reading σ) (p : Parameter σ) (attached : Option Bytes) : Except Refusal (Reading σ) := do
  let r ← r.settle
  match attached with
  | some value => r.tellOnce p value
  | none => return { r with pending := some (p, none) }

def stop (r : Reading σ) (reason : Refusal) : Except Refusal (Reading σ) := do
  let _ ← r.settle
  throw reason

def operand (r : Reading σ) (arg : Bytes) : Except Refusal (Reading σ) :=
  match r.operands with
  | [] => refuse (.unexpected (Utf8.decodeLossy arg))
  | p :: rest => do
    let r ← r.settle
    return { r with pending := some (p, some arg), operands := rest }

def dash : UInt8 := 0x2D

def equalsSign : UInt8 := 0x3D

/-- An argument without its two dashes, cut at the first equals sign. -/
def cutName (arg : Bytes) : Bytes × Option Bytes :=
  match arg.dropWhile (· ≠ equalsSign) with
  | [] => (arg, none)
  | _ :: value => (arg.takeWhile (· ≠ equalsSign), some value)

def named (program : Program σ) (r : Reading σ) (arg : Bytes) : Except Refusal (Reading σ) :=
  let (name, attached) := cutName arg
  let shown := text "--" ++ Utf8.decodeLossy name
  match Utf8.decode? name with
  | none => refuse (.unexpected shown)
  | some known =>
    match program.parameters.find? fun p => p.hasName known with
    | some p => r.meet p attached
    | none =>
      if known = text "help" ∨ known = text "version" then
        match attached with
        | some value => refuse (.unexpectedValue (Utf8.decodeLossy value) shown)
        | none => r.stop (if known = text "help" then .help else .version)
      else refuse (.unexpected shown)

/-- The value behind an option's letter; an equals sign before it does not belong to it. -/
def attachedValue : Bytes → Option Bytes
  | [] => none
  | b :: rest => some (if b = equalsSign then rest else b :: rest)

def letters (program : Program σ) (r : Reading σ) (arg : Bytes) : Except Refusal (Reading σ) :=
  match arg with
  | [] => .ok r
  | b :: rest =>
    match Utf8.unitAt b rest with
    | (none, _) => refuse (.unexpected ('-' :: Utf8.decodeLossy arg))
    | (some letter, size) =>
      match program.parameters.find? fun p => p.hasLetter letter with
      | some p => r.meet p (attachedValue (rest.drop size))
      | none =>
        if letter = 'h' then r.stop .help
        else if letter = 'V' then r.stop .version
        else refuse (.unexpected ['-', letter])

/-- An argument that names no option: the value of the option before it, or an operand. -/
def plain (r : Reading σ) (arg : Bytes) : Except Refusal (Reading σ) :=
  match r.pending with
  | some (p, none) => .ok { r with pending := some (p, some arg) }
  | _ => r.operand arg

/-- Takes one argument. A lone dash is an argument like any other. -/
def take (program : Program σ) (r : Reading σ) (arg : Bytes) : Except Refusal (Reading σ) :=
  if r.operandsOnly then r.operand arg
  else match arg with
    | a :: b :: rest =>
      if a ≠ dash then r.plain arg
      else if b ≠ dash then r.letters program (b :: rest)
      else if rest = [] then .ok { r with operandsOnly := true }
      else r.named program rest
    | _ => r.plain arg

def consult (environment : Text → Option Bytes) (r : Reading σ) (p : Parameter σ) :
    Except Refusal (Reading σ) :=
  if p.label ∈ r.told then .ok r
  else match p.environment.bind environment with
    | none => .ok r
    | some value => r.tell p value

end Reading

namespace Program

variable {σ : Type}

/-- Reads a command line that begins with the program's own name. -/
def read (program : Program σ) (settings : σ) (environment : Text → Option Bytes)
    (arguments : List Bytes) : Except Refusal σ := do
  let operands := program.parameters.filter Parameter.isOperand
  let r ← (arguments.drop 1).foldlM (Reading.take program) ⟨settings, [], none, operands, false⟩
  let r ← r.settle
  let r ← program.parameters.foldlM (Reading.consult environment) r
  match program.parameters.filter fun p => p.isRequired && p.label ∉ r.told with
  | [] => return r.settings
  | missing => Reading.refuse (.missingOperands (missing.map Parameter.label))

end Program

end FileFerry
