import FileFerry.Client.Arguments
import FileFerry.Client.Run
import FileFerry.CommandLine.Exit

/-! The client as a program: it reads its command line, connects, and then runs until its commands or
its server come to an end. -/

set_option autoImplicit false

namespace FileFerry

/-- What becomes of an attempt to connect. One that is still under way is waited for; it ends without
telling why. -/
def awaited (e : IoError) : IoError :=
  if e = .os 115 then .described .other (text "no error set after POLLHUP") else e

/-- Connects to a host's port; `reach` is what connecting to an address comes to. -/
def dial (host : Text) (port : UInt16) (reach : SocketAddress → Except IoError Unit) :
    Except DialFailure SocketAddress :=
  match resolveHost host with
  | .error e => .error (.unresolved e)
  | .ok found =>
    match reach ⟨found, port⟩ with
    | .error e => .error (.unreachable (awaited e))
    | .ok () => .ok ⟨found, port⟩

/-- How a command line that cannot be used ends the client's program. -/
def clientRefused (refusal : Refusal) : Exit := .ofRefusal clientProgram 1 refusal

def ClientError.exit (e : ClientError) : Exit := .failure 1 (e.message ++ ['\n'])

def ClientSettings.dialServer (s : ClientSettings) (reach : SocketAddress → Except IoError Unit) :
    Except ClientError SocketAddress :=
  (dial s.host s.port reach).mapError (DialFailure.error (endpointText s.host s.port))

end FileFerry
