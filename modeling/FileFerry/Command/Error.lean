import FileFerry.Failure.Basic
import FileFerry.Wire.Response

/-! Why a command fails, and what the client is told. Every failure but a lost peer is answered with
an error line that carries its message. -/

set_option autoImplicit false

namespace FileFerry

inductive Target where
  | file
  | directory
  deriving DecidableEq, Repr

def Target.name : Target → Text
  | file => text "File"
  | directory => text "Directory"

inductive CommandError where
  | invalidArgument (target : Target)
  | notFound (target : Target)
  /-- A directory where a file was wanted, or the reverse. -/
  | wrongType (description : Text)
  | alreadyExists (target : Target)
  | permissionDenied
  /-- Any other failure, with what was being done. -/
  | io (context : Text) (source : IoError)
  | unknownCommand
  | disconnected
  deriving DecidableEq, Repr

namespace CommandError

def message : CommandError → Text
  | invalidArgument target => target.name ++ text " name not specified."
  | notFound target => text "404 - " ++ target.name ++ text " not found."
  | wrongType description => description
  | alreadyExists target => target.name ++ text " already exists."
  | permissionDenied => text "Permission denied."
  | io context source => context ++ text ": " ++ source.message ++ text "."
  | unknownCommand => text "Invalid command."
  | disconnected => text "connection closed by peer"

def notADirectory : CommandError := .wrongType (text "Not a directory.")

def isADirectory : CommandError := .wrongType (text "Is a directory.")

/-- The failure of a command whose operation on `target` failed. -/
def ofIo (source : IoError) (target : Target) (context : Text) : CommandError :=
  match source.kind with
  | .notFound => notFound target
  | .alreadyExists => alreadyExists target
  | .permissionDenied => permissionDenied
  | .notADirectory => notADirectory
  | .isADirectory => isADirectory
  | _ => io context source

def response (e : CommandError) : Response := .framed .error e.message

end CommandError

end FileFerry
