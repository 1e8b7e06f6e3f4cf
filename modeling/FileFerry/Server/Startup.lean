import FileFerry.FileTree.Walk
import FileFerry.Net.Listener
import FileFerry.Server.Settings

/-! Starting a server: its directory is found, its two listeners are opened, the one for commands
first, and their addresses are read back. -/

set_option autoImplicit false

namespace FileFerry

inductive ServerError where
  | root (path : Path) (source : IoError)
  | listener (reason : ListenerError)
  deriving DecidableEq, Repr

def ServerError.message : ServerError → Text
  | root path e =>
    text "failed to resolve served directory '" ++ path.display ++ text "': " ++ e.message
  | listener reason => reason.message

/-- What a started server stands on. -/
structure Footing where
  home : Path
  address : SocketAddress
  cancelAddress : SocketAddress
  deriving DecidableEq, Repr

namespace Footing

def listenBoth (net : Network) (settings : ServerSettings) :
    Except ListenerError (SocketAddress × SocketAddress) × Network :=
  match net.listen settings.host settings.port with
  | (.error e, net) => (.error e, net)
  | (.ok address, net) =>
    match net.listen settings.host settings.cancelPort with
    | (.error e, net) => (.error e, net.release address.port)
    | (.ok cancelAddress, net) => (.ok (address, cancelAddress), net)

def leave (footing : Footing) (net : Network) : Network :=
  (net.release footing.address.port).release footing.cancelAddress.port

/-- Starts a server; what serves its files does not matter yet. -/
def gain (tree : FileTree) (net : Network) (settings : ServerSettings) :
    Except ServerError Footing × Network :=
  match tree.canonical settings.root with
  | .error e => (.error (.root settings.root e), net)
  | .ok home =>
    match listenBoth net settings with
    | (.error e, net) => (.error (.listener e), net)
    | (.ok (address, cancelAddress), net) =>
      let footing : Footing := ⟨home, address, cancelAddress⟩
      match net.addressOf address with
      | (.error e, net) => (.error (.listener e), footing.leave net)
      | (.ok _, net) =>
        match net.addressOf cancelAddress with
        | (.error e, net) => (.error (.listener e), footing.leave net)
        | (.ok _, net) => (.ok footing, net)

end Footing

end FileFerry
