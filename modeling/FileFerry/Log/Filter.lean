import FileFerry.Log.Field
import FileFerry.Text.Decimal
import FileFerry.Text.Utf8

/-! Log filters: directives between commas, each of which names a target, a span with fields, a level,
or several of them, as in `server[request]=debug`. Only whether a filter is well formed matters
here. -/

set_option autoImplicit false

namespace FileFerry

inductive LogLevel where
  | off | error | warn | info | debug | trace
  deriving DecidableEq, Repr

inductive FilterError where
  | badDirective
  | badLevel
  | badField (reason : PatternError)
  deriving DecidableEq, Repr

namespace FilterError

def message : FilterError → Text
  | badDirective => text "invalid filter directive"
  | badLevel =>
    text "error parsing level filter: expected one of \"off\", \"error\", \"warn\", \"info\", \"debug\", \"trace\", or a number 0-5"
  | badField reason => text "invalid field filter: " ++ reason.message

end FilterError

namespace LogLevel

/-- The levels from none to all; a level's number is its place. -/
def all : List LogLevel := [off, error, warn, info, debug, trace]

def name : LogLevel → Text
  | off => text "off"
  | error => text "error"
  | warn => text "warn"
  | info => text "info"
  | debug => text "debug"
  | trace => text "trace"

/-- A level by its number or its name, in letters of either case; nothing is the level of errors. -/
def ofText? (t : Text) : Option LogLevel :=
  match Decimal.readNat Decimal.maxUnsigned t with
  | .ok n => all[n]?
  | .error _ =>
    if t = [] then some error else all.find? fun l => l.name == Text.lowerAscii t

end LogLevel

namespace LogFilter

inductive Progress where
  | start
  | levelOrTarget
  | span
  | field (start : Nat)
  | fields
  | target
  | level (start : Nat)
  deriving DecidableEq, Repr

def beginsName (c : Char) : Bool := Text.isAlphanumeric c || c == '-' || c == ':' || c == '_'

def slice (directive : Bytes) (start stop : Nat) : Text :=
  Utf8.decodeLossy ((directive.take stop).drop start)

def checkField (directive : Bytes) (start stop : Nat) : Except FilterError Unit :=
  if start = stop then .error .badDirective
  else (LogField.check (slice directive start stop)).mapError .badField

def Progress.next (directive : Bytes) (p : Progress) (c : Char) (begun stop : Nat) :
    Except FilterError Progress :=
  match p with
  | start =>
    if c = '[' then .ok span
    else if beginsName c then .ok levelOrTarget
    else .error .badDirective
  | levelOrTarget =>
    .ok (if c = '=' then level stop else if c = '[' then span else levelOrTarget)
  | span => .ok (if c = ']' then target else if c = '{' then field stop else span)
  | field first =>
    if c = '}' then (checkField directive first begun).map fun _ => fields else .ok (field first)
  | fields => if c = ']' then .ok target else .error .badDirective
  | target => if c = '=' then .ok (level stop) else .error .badDirective
  | level first => .ok (level first)

def readFrom (directive : Bytes) (p : Progress) (begun : Nat) : Text → Except FilterError Progress
  | [] => .ok p
  | c :: t => do
    let stop := begun + (Utf8.encodeChar c).length
    readFrom directive (← p.next directive c begun stop) stop t

/-- Checks a directive. Blanks around it are passed over, but a field or a level is looked up in the
directive with them, at the place where it stands without them. -/
def checkDirective (t : Text) : Except FilterError Unit := do
  let directive := Utf8.encode t
  match ← readFrom directive .start 0 (Text.trim t) with
  | .levelOrTarget | .target => .ok ()
  | .level first =>
    let named := slice directive first directive.length
    if named = [] ∨ (LogLevel.ofText? named).isSome then .ok () else .error .badLevel
  | _ => .error .badDirective

def check (t : Text) : Except FilterError Unit :=
  ((Text.splitAt ',' t).filter (· ≠ [])).forM checkDirective

end LogFilter

end FileFerry
