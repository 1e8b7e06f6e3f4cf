import FileFerry.Pool.Basic
import FileFerry.Registry.Request
import FileFerry.Server.Table

/-! A running server: the files it serves, the commands that can be cancelled, its connections, and the
workers that serve them. Its steps are those that nothing can come between; any order that `step`
allows can happen. To stop, a server accepts no more connections, cuts those that have a session,
and then lets its workers go; a connection that is still waiting then is closed unserved. -/

set_option autoImplicit false

namespace FileFerry

inductive ServerPhase where
  | accepting
  | refusing
  | disconnected
  | stopping
  deriving DecidableEq, Repr

structure Server (γ : Type) [Gateway γ] where
  gateway : γ
  registry : Registry
  pool : Pool LinkId
  links : List (Link γ)
  table : SessionTable
  phase : ServerPhase

inductive ServerEvent where
  | connect
  /-- A client sends something, or its stream breaks. -/
  | arrive (link : LinkId) (arrival : Arrival)
  | hangUp (link : LinkId)
  | leave (link : LinkId)
  | cancel (request : Source)
  | notify (worker : Option Nat)
  | look (worker : Nat)
  | stir (worker : Nat)
  /-- A worker turns to the connection it took: this gets a ticket or is closed. -/
  | register (link : LinkId)
  /-- The session of a connection with a ticket begins, with the greeting. -/
  | greet (link : LinkId)
  /-- A session takes the result of a read. -/
  | read (link : LinkId)
  /-- A session goes a step further with what it has read. -/
  | work (link : LinkId)
  /-- A session that is over gives its ticket back, and its connection is closed. -/
  | part (link : LinkId)
  /-- A worker whose connection is closed is free again. -/
  | finish (worker : Nat)
  | refuse
  | disconnect
  | stopPool
  | alarm

namespace Server

variable {γ : Type} [Gateway γ]

def start (gateway : γ) (workers : Nat) : Server γ :=
  ⟨gateway, .empty, .start workers, [], .empty, .accepting⟩

def activeSessions (s : Server γ) : Nat := s.table.size

def setLink (s : Server γ) (i : LinkId) (l : Link γ) : Server γ :=
  { s with links := s.links.set i l }

def onLink (s : Server γ) (i : LinkId) (f : Link γ → Link γ) : Option (Server γ) :=
  (s.links[i]?).map fun l => s.setLink i (f l)

def onPool (s : Server γ) (e : PoolEvent LinkId) : Option (Server γ) :=
  (s.pool.step e).map fun pool => { s with pool }

def connect (s : Server γ) : Server γ :=
  match s.pool.submit s.links.length with
  | some pool => { s with pool, links := s.links ++ [.fresh] }
  | none => { s with links := s.links ++ [{ (.fresh : Link γ) with stage := .closed .fresh }] }

def register (s : Server γ) (i : LinkId) (l : Link γ) (outbox : Outbox) : Server γ :=
  match s.table.register i with
  | none => s.setLink i { l with stage := .closed outbox }
  | some (ticket, table) => { s with table }.setLink i { l with stage := .registered ticket outbox }

def greet (s : Server γ) (i : LinkId) (l : Link γ) (ticket : Ticket) (outbox : Outbox) : Server γ :=
  s.setLink i { l with stage := .serving ticket (Session.start s.gateway s.registry outbox) }

def keep (s : Server γ) (i : LinkId) (l : Link γ) (ticket : Ticket) (session : Session γ Outbox) :
    Server γ :=
  { s with gateway := session.gateway, registry := session.registry }.setLink i
    { l with stage := .serving ticket session }

/-- A session together with what it shares, as that is now. -/
def refresh (s : Server γ) (session : Session γ Outbox) : Session γ Outbox :=
  { session with gateway := s.gateway, registry := s.registry }

/-- A session reads when it can do nothing else. -/
def read (s : Server γ) (i : LinkId) (l : Link γ) (ticket : Ticket) (session : Session γ Outbox) :
    Option (Server γ) :=
  if session.isClosed || session.advance?.isSome then none
  else (l.read? session.wants).map fun (result, l) =>
    s.keep i l ticket ((s.refresh session).hear result)

def work (s : Server γ) (i : LinkId) (l : Link γ) (ticket : Ticket) (session : Session γ Outbox) :
    Option (Server γ) :=
  (s.refresh session).advance?.map (s.keep i l ticket)

def part (s : Server γ) (i : LinkId) (l : Link γ) (ticket : Ticket) (session : Session γ Outbox) :
    Option (Server γ) :=
  if session.isClosed then
    some ({ s with table := s.table.giveBack ticket }.setLink i
      { l with stage := .closed session.output })
  else none

/-- Cuts the connections of all running sessions, and lets no other session begin. -/
def disconnect (s : Server γ) : Server γ :=
  { s with
    table := s.table.close
    links := s.links.mapIdx fun i l => if i ∈ s.table.links then l.cut else l
    phase := .disconnected }

def isDone (s : Server γ) (w : Worker LinkId) : Bool :=
  match w.task? with
  | some i => (s.links[i]?).any Link.isClosed
  | none => false

/-- What is done for a connection that has a session. -/
def withSession (s : Server γ) (i : LinkId)
    (f : Link γ → Ticket → Session γ Outbox → Option (Server γ)) : Option (Server γ) :=
  match s.links[i]? with
  | some l =>
    match l.stage with
    | .serving ticket session => f l ticket session
    | _ => none
  | none => none

def step (s : Server γ) : ServerEvent → Option (Server γ)
  | .connect => if s.phase = .accepting then some s.connect else none
  | .arrive i a => s.onLink i fun l => l.arrive a
  | .hangUp i => s.onLink i fun l => { l with ended := true }
  | .leave i => s.onLink i Link.cut
  | .cancel request => some { s with registry := s.registry.serve request }
  | .notify worker => s.onPool (.notify worker)
  | .look worker => s.onPool (.look worker)
  | .stir worker => s.onPool (.stir worker)
  | .register i =>
    if i ∈ s.pool.running then
      match s.links[i]? with
      | some l =>
        match l.stage with
        | .waiting outbox => some (s.register i l outbox)
        | _ => none
      | none => none
    else none
  | .greet i =>
    match s.links[i]? with
    | some l =>
      match l.stage with
      | .registered ticket outbox => some (s.greet i l ticket outbox)
      | _ => none
    | none => none
  | .read i => s.withSession i (s.read i)
  | .work i => s.withSession i (s.work i)
  | .part i => s.withSession i (s.part i)
  | .finish worker =>
    if (s.pool.workers[worker]?).any s.isDone then s.onPool (.finish worker .returned) else none
  | .refuse => if s.phase = .accepting then some { s with phase := .refusing } else none
  | .disconnect => if s.phase = .refusing then some s.disconnect else none
  | .stopPool =>
    if s.phase = .disconnected then some { s with pool := s.pool.stop, phase := .stopping } else none
  | .alarm => s.onPool .alarm

def steps (s : Server γ) (events : List ServerEvent) : Option (Server γ) := events.foldlM step s

/-- Whether stopping has come to its end: all workers are gone. -/
def isStopped (s : Server γ) : Bool := s.phase == .stopping && s.pool.isOver

end Server

end FileFerry
