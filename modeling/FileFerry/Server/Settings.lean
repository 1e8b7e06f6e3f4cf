import FileFerry.CommandLine.Reading
import FileFerry.Log.Format
import FileFerry.Net.Endpoint

/-! What a server is told when it is started: where it listens, how many sessions it serves at once,
which directory, and how it logs. -/

set_option autoImplicit false

namespace FileFerry

structure ServerSettings where
  port : UInt16
  host : Text
  cancelPort : UInt16
  workers : UInt64
  root : Path
  logFilter : Text
  logFormat : LogFormat
  deriving DecidableEq, Repr

namespace ServerSettings

/-- The unspecified address of version 6 takes clients of either version. -/
def default : ServerSettings :=
  { port := 8080
    host := text "::"
    cancelPort := defaultCancelPort
    workers := 0
    root := .ofText ['.']
    logFilter := text "info"
    logFormat := .compact }

def endpoint (s : ServerSettings) : Endpoint := ⟨s.host, s.port⟩

def cancelEndpoint (s : ServerSettings) : Endpoint := ⟨s.host, s.cancelPort⟩

/-- How many sessions are served at once on a machine that can do `parallelism` things at a time. -/
def workerCount (s : ServerSettings) (parallelism : Nat) : Nat :=
  if s.workers = 0 then max 1 parallelism else s.workers.toNat

theorem workerCount_pos (s : ServerSettings) (parallelism : Nat) : 0 < s.workerCount parallelism := by
  unfold workerCount
  split
  · omega
  · rename_i h
    exact Nat.pos_of_ne_zero fun hz => h (UInt64.toNat_inj.mp hz)

def readLogFormat (b : Bytes) : Except ValueFault LogFormat := do
  let t ← Value.ofText b
  match LogFormat.ofName? t with
  | some f => return f
  | none => throw (.invalid t LogFormat.unknownName)

/-- An option whose variable is its name in capitals, with the program's name before it. -/
def parameter (name : String) (letter : Option Char) (fallback meaning : String)
    (set : Bytes → ServerSettings → Except ValueFault ServerSettings) : Parameter ServerSettings :=
  let capitals := name.toList.map fun c => if c = '-' then '_' else c.toUpper
  { spelling := .option name.toList letter
    valueName := capitals
    environment := some (text "MYFTP_" ++ capitals)
    fallback := fallback.toList
    meaning := meaning.toList
    set }

def parameters : List (Parameter ServerSettings) :=
  [{ spelling := .operand false
     valueName := text "PORT"
     environment := some (text "MYFTP_PORT")
     fallback := text "8080"
     meaning := text "Port of the command listener"
     set := fun b s => do return { s with port := ← Value.ofPort b } },
   parameter "host" none "::" "Host or address the listeners bind to"
     fun b s => do return { s with host := ← Value.ofText b },
   parameter "cancel-port" none "8081" "Port of the cancellation side-channel"
     fun b s => do return { s with cancelPort := ← Value.ofPort b },
   parameter "workers" (some 'w') "0" "Number of session workers; 0 selects the host parallelism"
     fun b s => do return { s with workers := ← Value.ofCount b },
   parameter "root" none "." "Directory served to clients"
     fun b s => do return { s with root := ← Value.ofPath b },
   parameter "log-filter" none "info" "Log filter expression"
     fun b s => do return { s with logFilter := ← Value.ofText b },
   parameter "log-format" none "compact" "Log output format: json or compact"
     fun b s => do return { s with logFormat := ← readLogFormat b }]

end ServerSettings

def serverProgram : Program ServerSettings :=
  { name := text "myftpserver"
    version := text "0.1.0"
    purpose := text "Serves a working directory to myftp clients over TCP"
    parameters := ServerSettings.parameters }

end FileFerry
