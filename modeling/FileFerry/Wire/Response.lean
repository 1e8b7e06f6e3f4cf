import FileFerry.Text.Basic

/-! The answer to a command: one line, either a status with a message or bare text. Reading a line
accepts any run of carriage returns and newlines at its end and any blanks after the colon. -/

set_option autoImplicit false

namespace FileFerry

inductive Status where
  | success
  | error
  deriving DecidableEq, Repr

def Status.name : Status → Text
  | success => text "SUCCESS"
  | error => text "ERROR"

inductive Response where
  /-- A line `STATUS: message`. -/
  | framed (status : Status) (message : Text)
  /-- A line that is the result itself, such as a listing. -/
  | bare (line : Text)
  deriving DecidableEq, Repr

namespace Response

def message : Response → Text
  | framed _ message => message
  | bare line => line

def isSuccess : Response → Bool
  | framed .success _ => true
  | _ => false

def render : Response → Text
  | framed status message => status.name ++ text ": " ++ message
  | bare line => line

def toLine (r : Response) : Text := r.render ++ ['\n']

def afterStatus? (status : Status) (line : Text) : Option Text :=
  Text.stripStart? (status.name ++ [':']) line

def ofLine (line : Text) : Response :=
  let line := Text.trimLineEnd line
  match afterStatus? .success line with
  | some rest => framed .success (Text.trimStart rest)
  | none =>
    match afterStatus? .error line with
    | some rest => framed .error (Text.trimStart rest)
    | none => bare line

end Response

end FileFerry
