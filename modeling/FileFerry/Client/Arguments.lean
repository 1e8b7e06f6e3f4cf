import FileFerry.Client.Basic
import FileFerry.CommandLine.Reading
import FileFerry.Net.Endpoint

/-! What a client is told when it is started. -/

set_option autoImplicit false

namespace FileFerry

namespace ClientSettings

/-- The settings before the host and the port are told, which they must be. -/
def unaddressed : ClientSettings := ⟨[], 0, defaultCancelPort, .ofText ['.']⟩

def parameters : List (Parameter ClientSettings) :=
  [{ spelling := .operand true
     valueName := text "HOST"
     environment := none
     fallback := []
     meaning := text "Server host name or address"
     set := fun b s => do return { s with host := ← Value.ofText b } },
   { spelling := .operand true
     valueName := text "PORT"
     environment := none
     fallback := []
     meaning := text "Server command port"
     set := fun b s => do return { s with port := ← Value.ofPort b } },
   { spelling := .option (text "cancel-port") none
     valueName := text "CANCEL_PORT"
     environment := none
     fallback := text "8081"
     meaning := text "Server cancellation port"
     set := fun b s => do return { s with cancelPort := ← Value.ofPort b } },
   { spelling := .option (text "local-dir") none
     valueName := text "DIR"
     environment := none
     fallback := text "."
     meaning := text "Local directory that get writes into and put reads from"
     set := fun b s => do return { s with localDir := ← Value.ofPath b } }]

end ClientSettings

def clientProgram : Program ClientSettings :=
  { name := text "myftp"
    version := text "0.1.0"
    purpose := text "Interactive myftp client"
    parameters := ClientSettings.parameters }

end FileFerry
