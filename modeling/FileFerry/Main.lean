import FileFerry.Client.Program
import FileFerry.FileTree.Edit
import FileFerry.Gateway.Local
import FileFerry.Server.Launch
import FileFerry.Server.Link

/-! The two programs, client and server, told apart by the first argument. No network is reached from
here: a server serves one client, at its standard input and output, from files that it holds in
memory, and a client finds nobody listening. -/

set_option autoImplicit false

namespace FileFerry

/-- Shows what a program leaves behind, and gives its exit code. -/
def Exit.leave (e : Exit) : IO UInt32 := do
  let output ← IO.getStdout
  let errors ← IO.getStderr
  output.putStr (String.ofList e.output)
  errors.putStr (String.ofList e.errors)
  return e.code.toUInt32

def Program.consult {σ : Type} (program : Program σ) : IO (Text → Option Bytes) := do
  let names := program.parameters.filterMap Parameter.environment
  let values ← names.filterMapM fun name => do
    let value ← IO.getEnv (String.ofList name)
    return value.map fun v => (name, v.toUTF8.toList)
  return fun name => values.lookup name

/-- Reads what the client sends and sends what the session writes, until the session ends. -/
partial def converse (input output : IO.FS.Stream) (s : Session LocalFiles Outbox) : IO Unit := do
  output.write ⟨s.output.sent⟩
  output.flush
  unless s.isClosed do
    let chunk ← input.read s.wants.toUSize
    converse input output ({ s with output := Outbox.fresh }.receive (.ok chunk.toList))

def runServer (arguments : List Bytes) : IO UInt32 := do
  let environment ← serverProgram.consult
  match serverProgram.read .default environment arguments with
  | .error refusal => (serverRefused refusal).leave
  | .ok settings =>
    let tree := FileTree.withDevices
    match ((⟨tree, .quiet, false⟩ : ServerProcess).start settings).1 with
    | .error e => e.exit.leave
    | .ok footing =>
      let input ← IO.getStdin
      let output ← IO.getStdout
      converse input output (Session.start (⟨tree, footing.home, []⟩ : LocalFiles) .empty Outbox.fresh)
      return 0

def runClient (arguments : List Bytes) : IO UInt32 := do
  let environment ← clientProgram.consult
  match clientProgram.read .unaddressed environment arguments with
  | .error refusal => (clientRefused refusal).leave
  | .ok settings =>
    match settings.dialServer fun _ => .error nobodyListens with
    | .error e => e.exit.leave
    | .ok _ => return 0

end FileFerry

open FileFerry in
def main (arguments : List String) : IO UInt32 :=
  let arguments := arguments.map fun a => a.toUTF8.toList
  if arguments.head? = some (Utf8.encode clientProgram.name) then runClient arguments
  else if arguments.head? = some (Utf8.encode serverProgram.name) then runServer arguments
  else runServer (Utf8.encode serverProgram.name :: arguments)
