import FileFerry.Failure.Kind
import FileFerry.Failure.OsText

/-! A failed operation: an error of the operating system, a bare kind, or a kind with a text of its
own. The kind decides how a failure is handled, the text how it is shown. -/

set_option autoImplicit false

namespace FileFerry

inductive IoError where
  /-- An operating system error, by number. -/
  | os (code : Int)
  /-- A failure known only by its kind. -/
  | plain (kind : ErrorKind)
  /-- A failure with its own text. -/
  | described (kind : ErrorKind) (message : Text)
  deriving DecidableEq, Repr

namespace IoError

def kind : IoError → ErrorKind
  | os code => .ofOs code
  | plain kind => kind
  | described kind _ => kind

def message : IoError → Text
  | os code => osErrorText code ++ text " (os error " ++ Decimal.ofInt code ++ text ")"
  | plain kind => kind.description
  | described _ message => message

/-- An interrupted operation did nothing and is to be tried again. -/
def isInterrupted (e : IoError) : Bool := e.kind = .interrupted

/-- What a writer that takes nothing is reported as. -/
def nothingWritten : IoError := .described .writeZero (text "failed to write whole buffer")

/-- A name with a NUL byte in it is no file name. -/
def nulInName : IoError := .described .invalidInput (text "file name contained an unexpected NUL byte")

end IoError

end FileFerry
