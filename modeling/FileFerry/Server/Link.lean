import FileFerry.Session.Run

/-! The server's side of a client's connection. It waits for a worker, gets a ticket, has a session, and
is closed; what the client sends meanwhile is kept until the session reads it. -/

set_option autoImplicit false

namespace FileFerry

/-- Where the bytes sent to a client go. Once the connection is cut every write fails. -/
structure Outbox where
  sent : Array UInt8
  cut : Bool
  deriving Repr

namespace Outbox

def fresh : Outbox := ⟨#[], false⟩

/-- The error of a write to a connection that is no more. -/
def brokenPipe : IoError := .os 32

def write (o : Outbox) (b : Bytes) : Except IoError Nat × Outbox :=
  if o.cut then (.error brokenPipe, o) else (.ok b.length, { o with sent := o.sent ++ b })

instance : Writer Outbox where
  write := write
  flush o := (.ok (), o)
  patience _ := 0
  patience_lt o b e he hi := by
    unfold write at he
    split at he
    · cases he; cases hi
    · cases he

end Outbox

/-- A connection by the order in which it came. -/
abbrev LinkId := Nat

/-- What a server proves a running session by. -/
abbrev Ticket := Nat

variable (γ : Type) [Gateway γ]

inductive LinkStage where
  /-- With the pool, queued or just taken. -/
  | waiting (outbox : Outbox)
  /-- With a worker and a ticket, before the greeting. -/
  | registered (ticket : Ticket) (outbox : Outbox)
  | serving (ticket : Ticket) (session : Session γ Outbox)
  | closed (outbox : Outbox)

structure Link where
  incoming : Source
  /-- Whether nothing more will come. -/
  ended : Bool
  stage : LinkStage γ

variable {γ}

namespace Link

def fresh : Link γ := ⟨[], false, .waiting .fresh⟩

def outbox (l : Link γ) : Outbox :=
  match l.stage with
  | .waiting o => o
  | .registered _ o => o
  | .serving _ s => s.output
  | .closed o => o

def setOutbox (l : Link γ) (o : Outbox) : Link γ :=
  match l.stage with
  | .waiting _ => { l with stage := .waiting o }
  | .registered t _ => { l with stage := .registered t o }
  | .serving t s => { l with stage := .serving t { s with output := o } }
  | .closed _ => { l with stage := .closed o }

def isWaiting (l : Link γ) : Bool :=
  match l.stage with
  | .waiting _ => true
  | _ => false

def isRegistered (l : Link γ) : Bool :=
  match l.stage with
  | .registered _ _ => true
  | _ => false

def isClosed (l : Link γ) : Bool :=
  match l.stage with
  | .closed _ => true
  | _ => false

def isOver (l : Link γ) : Bool :=
  match l.stage with
  | .serving _ s => s.isClosed
  | _ => false

/-- The result of a read of at most `n` bytes, and the connection after it; none while the client may
still send something and has not. -/
def read? (l : Link γ) (n : Nat) : Option (ReadResult × Link γ) :=
  match l.incoming.read n with
  | (.ok [], _) => if l.ended then some (.ok [], { l with incoming := [] }) else none
  | (result, rest) => some (result, { l with incoming := rest })

/-- Whether the session still has a use for what it has read. -/
def isWorking (l : Link γ) : Bool :=
  match l.stage with
  | .serving _ s => s.advance?.isSome
  | _ => false

def isReadable (l : Link γ) : Bool :=
  match l.stage with
  | .serving _ s => !s.isClosed && s.advance?.isNone && (l.read? s.wants).isSome
  | _ => false

/-- What the client sends arrives, unless it has said that it sends nothing more. -/
def arrive (l : Link γ) (a : Arrival) : Link γ :=
  if l.ended then l else { l with incoming := l.incoming ++ [a] }

/-- Cuts the connection: what arrived can still be read, nothing can be sent. -/
def cut (l : Link γ) : Link γ := { l with ended := true }.setOutbox { l.outbox with cut := true }

/-- A bound on how often something can still be done for the client, the chunks of files apart. -/
def weight (l : Link γ) : Nat :=
  2 * l.incoming.size +
    match l.stage with
    | .waiting _ => 5
    | .registered _ _ => 4
    | .serving _ s => s.unused + 2
    | .closed _ => 0

/-- A bound on the chunks that are still sent of a file. -/
def unsent (l : Link γ) : Nat :=
  match l.stage with
  | .serving _ s => s.unsent
  | _ => 0

end Link

end FileFerry
