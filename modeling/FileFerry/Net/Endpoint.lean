import FileFerry.Net.Address

/-! Where a server listens, as it is configured: a host name and a port. -/

set_option autoImplicit false

namespace FileFerry

structure Endpoint where
  host : Text
  port : UInt16
  deriving DecidableEq, Repr

/-- The port that takes cancellation requests unless another is given. -/
def defaultCancelPort : UInt16 := 8081

/-- A host that holds a colon is set in brackets. -/
def Endpoint.toText (e : Endpoint) : Text :=
  let host := if e.host.contains ':' then '[' :: e.host ++ [']'] else e.host
  text "tcp://" ++ host ++ ':' :: Decimal.ofNat e.port.toNat

end FileFerry
