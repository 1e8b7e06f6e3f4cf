import FileFerry.Command.Basic
import FileFerry.Command.Error
import FileFerry.Gateway.Basic
import FileFerry.Registry
import FileFerry.Session.InputBuffer
import FileFerry.Wire.Reception
import FileFerry.Wire.Transmission

/-! One client's session: what it has received, what it is waiting for, its working directory, and
the files, registry and output it acts on. A session never waits: it is given the result of one
read after another and goes as far as that lets it. -/

set_option autoImplicit false

namespace FileFerry

def greeting : Text := text "Welcome to the FTP-Server! Command Away\n"

def transferStart : Text := text "FILE_TRANSFER_START"

def readyToReceive : Text := text "READY_TO_RECEIVE"

variable {γ ω : Type} [Gateway γ]

structure Upload (γ : Type) [Gateway γ] where
  path : Path
  handle : Gateway.Handle γ
  entry : Guard
  reception : Reception

/-- What a session is waiting for, or busy with. -/
inductive Phase (γ : Type) [Gateway γ] where
  | command
  /-- A download under way; nothing is read from the client meanwhile. -/
  | sending (entry : Guard) (file : Sending)
  | receiving (upload : Upload γ)
  | closed

structure Session (γ ω : Type) [Gateway γ] where
  gateway : γ
  registry : Registry
  output : ω
  cwd : Path
  input : InputBuffer
  phase : Phase γ

/-- What a command leaves to be said. -/
inductive Reply where
  | line (response : Response)
  /-- Nothing: the command said it itself, or will. -/
  | streamed
  /-- Nothing, and the session ends. -/
  | close

namespace Session

def isClosed (s : Session γ ω) : Bool :=
  match s.phase with
  | .closed => true
  | _ => false

def close (s : Session γ ω) : Session γ ω := { s with phase := .closed }

/-- How many bytes the next read may bring; none when the session has ended. -/
def wants (s : Session γ ω) : Nat :=
  match s.phase with
  | .command | .sending _ _ => lineReadSize
  | .receiving _ => chunkSize
  | .closed => 0

variable [Writer ω]

/-- Sends text. A failure to send is left for the next read to notice. -/
def sendText (s : Session γ ω) (t : Text) : Session γ ω :=
  { s with output := (Writer.send s.output (Utf8.encode t)).2 }

def sendResponse (s : Session γ ω) (r : Response) : Session γ ω := s.sendText r.toLine

/-- Ends the handling of a command. -/
def answer (s : Session γ ω) : Except CommandError Reply → Session γ ω
  | .ok (.line r) => s.sendResponse r
  | .ok .streamed => s
  | .ok .close => s.close
  | .error .disconnected => s.close
  | .error e => s.sendResponse e.response

end Session

/-- A name given to a command, which must not be empty. -/
def requireName (argument : Text) (target : Target) : Except CommandError Path :=
  if argument = [] then .error (.invalidArgument target) else .ok (.ofText argument)

namespace Session

def resolve (s : Session γ ω) (name : Path) : Path := s.cwd.join name

abbrev Handled (γ ω : Type) [Gateway γ] := Except CommandError Reply × Session γ ω

def succeed (s : Session γ ω) (message : Text) : Handled γ ω :=
  (.ok (.line (.framed .success message)), s)

def fail (s : Session γ ω) (e : CommandError) : Handled γ ω := (.error e, s)

/-- The failure of a command whose gateway call on `target` failed. -/
def refuse (s : Session γ ω) (e : IoError) (target : Target) (context : String) : Handled γ ω :=
  s.fail (.ofIo e target (text context))

end Session

end FileFerry
