import FileFerry.CommandLine.Exit
import FileFerry.Log.Filter
import FileFerry.Server.Startup

/-! A server as a process. Its log is set up once, by the first launch that can; then the server
starts, serves until it is told to stop, and leaves. -/

set_option autoImplicit false

namespace FileFerry

inductive LaunchError where
  | logging (reason : FilterError)
  | server (reason : ServerError)
  | shutdown (source : IoError)
  deriving DecidableEq, Repr

namespace LaunchError

def message : LaunchError → Text
  | logging reason =>
    text "failed to initialise telemetry: invalid log filter: " ++ reason.message
  | server reason => text "server failed: " ++ reason.message
  | shutdown e =>
    text "failed to await shutdown signal: failed to install signal handlers: " ++ e.message

def exit (e : LaunchError) : Exit := .failure 1 (text "myftpserver: " ++ e.message ++ ['\n'])

end LaunchError

/-- How a command line that cannot be used ends the server's program. -/
def serverRefused (refusal : Refusal) : Exit := .ofRefusal serverProgram 2 refusal

structure ServerProcess where
  tree : FileTree
  network : Network
  logging : Bool

namespace ServerProcess

def setUpLog (process : ServerProcess) (filter : Text) : Except FilterError ServerProcess :=
  if process.logging then .ok process
  else match LogFilter.check filter with
    | .ok () => .ok { process with logging := true }
    | .error e => .error e

def start (process : ServerProcess) (settings : ServerSettings) :
    Except LaunchError Footing × ServerProcess :=
  match process.setUpLog settings.logFilter with
  | .error e => (.error (.logging e), process)
  | .ok process =>
    let (result, network) := Footing.gain process.tree process.network settings
    (result.mapError .server, { process with network })

/-- One launch; `stop` is how the wait for the signal to stop ends. A failed wait stops the server
too. -/
def launch (process : ServerProcess) (settings : ServerSettings) (stop : Except IoError Unit) :
    Except LaunchError Unit × ServerProcess :=
  match process.start settings with
  | (.error e, process) => (.error e, process)
  | (.ok footing, process) =>
    (stop.mapError .shutdown, { process with network := footing.leave process.network })

end ServerProcess

end FileFerry
