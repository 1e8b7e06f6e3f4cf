import FileFerry.Failure.Basic
import FileFerry.Path
import FileFerry.Text.Decimal

/-! What can go wrong for a client, how it is shown, and which of it means that the connection to the
server is of no use any more. -/

set_option autoImplicit false

namespace FileFerry

inductive ClientError where
  /-- The server's name leads to no address. -/
  | resolve (endpoint : Text) (source : IoError)
  | connect (endpoint : Text) (source : IoError)
  | sendRequest (source : IoError)
  | readResponse (source : IoError)
  | disconnected
  | output (source : IoError)
  | input (source : IoError)
  | localFile (path : Path) (source : IoError)
  | commandId (reason : NumberError)
  deriving DecidableEq, Repr

namespace ClientError

def message : ClientError → Text
  | resolve endpoint e =>
    text "failed to resolve server address " ++ endpoint ++ text ": " ++ e.message
  | connect endpoint e =>
    text "failed to connect to server at " ++ endpoint ++ text ": " ++ e.message
  | sendRequest e => text "failed to send request to server: " ++ e.message
  | readResponse e => text "failed to read response from server: " ++ e.message
  | disconnected => text "server closed the connection"
  | output e => text "failed to write output: " ++ e.message
  | input e => text "failed to read input: " ++ e.message
  | localFile path e => text "local file " ++ path.display ++ text ": " ++ e.message
  | commandId reason => text "invalid command identifier: " ++ reason.message

def isFatal : ClientError → Bool
  | sendRequest _ | readResponse _ | disconnected | output _ => true
  | _ => false

end ClientError

end FileFerry
