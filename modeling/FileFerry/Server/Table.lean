import FileFerry.Server.Link

/-! The sessions that a server runs. Each holds a ticket that names its connection, so that all of them
can be cut when the server stops. Once that was done no further session gets a ticket. -/

set_option autoImplicit false

namespace FileFerry

structure SessionTable where
  next : Ticket
  /-- The tickets given out and not given back, with their connections. -/
  tickets : List (Ticket × LinkId)
  closed : Bool
  deriving DecidableEq, Repr

namespace SessionTable

def empty : SessionTable := ⟨0, [], false⟩

def register (t : SessionTable) (link : LinkId) : Option (Ticket × SessionTable) :=
  if t.closed then none
  else some (t.next, { t with next := t.next + 1, tickets := t.tickets ++ [(t.next, link)] })

def giveBack (t : SessionTable) (ticket : Ticket) : SessionTable :=
  { t with tickets := t.tickets.filter fun entry => entry.1 ≠ ticket }

def close (t : SessionTable) : SessionTable := { t with closed := true }

def links (t : SessionTable) : List LinkId := t.tickets.map Prod.snd

def size (t : SessionTable) : Nat := t.tickets.length

end SessionTable

end FileFerry
