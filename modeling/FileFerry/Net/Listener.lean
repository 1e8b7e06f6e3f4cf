import FileFerry.Net.Endpoint

/-! Opening a listener. A host is turned into an address and a socket is made, prepared, bound and set
to listen; each of these can fail, and the first that does is reported. The network they happen on
holds the ports in use and the failures that calls will meet. -/

set_option autoImplicit false

namespace FileFerry

inductive SocketCall where
  | create
  /-- Let a version 6 socket take version 4 clients. -/
  | dualStack
  | reuseAddress
  | bind
  | listen
  | accept
  | localAddress
  deriving DecidableEq, Repr

inductive ListenerError where
  | resolve (host : Text) (port : UInt16) (source : IoError)
  | socket (address : SocketAddress) (source : IoError)
  | bind (address : SocketAddress) (source : IoError)
  | listen (address : SocketAddress) (source : IoError)
  | localAddress (source : IoError)
  deriving DecidableEq, Repr

namespace ListenerError

def message : ListenerError → Text
  | resolve host port e =>
    text "failed to resolve TCP address " ++ host ++ ':' :: Decimal.ofNat port.toNat ++ text ": " ++
      e.message
  | socket address e =>
    text "failed to configure socket for " ++ address.toText ++ text ": " ++ e.message
  | bind address e =>
    text "failed to bind TCP listener at " ++ address.toText ++ text ": " ++ e.message
  | listen address e => text "failed to listen on " ++ address.toText ++ text ": " ++ e.message
  | localAddress e => text "failed to read listener address: " ++ e.message

end ListenerError

structure Network where
  /-- The errors that the next calls of each kind meet, in order. -/
  faults : SocketCall → List Int
  used : List UInt16
  free : List UInt16

namespace Network

/-- The ports given out by a network that has given out none. -/
def ephemeralPorts : List UInt16 := (List.range 1024).map fun n => UInt16.ofNat (49152 + n)

def quiet : Network := ⟨fun _ => [], [], ephemeralPorts⟩

/-- One call; it uses up a failure of its kind if one is left. -/
def attempt (net : Network) (call : SocketCall) : Except IoError Unit × Network :=
  match net.faults call with
  | [] => (.ok (), net)
  | code :: rest =>
    (.error (.os code),
      { net with faults := fun c => if c = call then rest else net.faults c })

/-- Only the machine's own addresses can be listened at. -/
def isLocal (ip : IpAddress) : Bool := ip.isLoopback || ip.isUnspecified

def takePort (net : Network) (address : SocketAddress) : Except IoError UInt16 × Network :=
  if !isLocal address.host.ip then (.error (.os 99), net)
  else if address.port = 0 then
    match net.free with
    | [] => (.error (.os 98), net)
    | port :: free => (.ok port, { net with free, used := port :: net.used })
  else if address.port ∈ net.used then (.error (.os 98), net)
  else (.ok address.port, { net with used := address.port :: net.used })

def release (net : Network) (port : UInt16) : Network :=
  { net with used := net.used.filter (· ≠ port) }

def openSocket (net : Network) (ip : IpAddress) : Except IoError Unit × Network :=
  match net.attempt .create with
  | (.error e, net) => (.error e, net)
  | (.ok (), net) =>
    match (if ip.isV6 then net.attempt .dualStack else (.ok (), net)) with
    | (.error e, net) => (.error e, net)
    | (.ok (), net) => net.attempt .reuseAddress

def bind (net : Network) (address : SocketAddress) : Except IoError UInt16 × Network :=
  match net.attempt .bind with
  | (.error e, net) => (.error e, net)
  | (.ok (), net) => net.takePort address

def listen (net : Network) (host : Text) (port : UInt16) :
    Except ListenerError SocketAddress × Network :=
  match resolveHost host with
  | .error e => (.error (.resolve host port e), net)
  | .ok found =>
    let address : SocketAddress := ⟨found, port⟩
    match net.openSocket found.ip with
    | (.error e, net) => (.error (.socket address e), net)
    | (.ok (), net) =>
      match net.bind address with
      | (.error e, net) => (.error (.bind address e), net)
      | (.ok taken, net) =>
        match net.attempt .listen with
        | (.error e, net) => (.error (.listen address e), net.release taken)
        | (.ok (), net) => (.ok ⟨found, taken⟩, net)

def addressOf (net : Network) (address : SocketAddress) :
    Except ListenerError SocketAddress × Network :=
  match net.attempt .localAddress with
  | (.error e, net) => (.error (.localAddress e), net)
  | (.ok (), net) => (.ok address, net)

end Network

end FileFerry
