import FileFerry.Wire.Cancellation

/-! The running commands that can be cancelled. Each has a number, never given twice before the
numbers run out, and a flag that says whether it was cancelled. Cancelling only clears the flag
and takes the command off the table: nothing here stops a command. -/

set_option autoImplicit false

namespace FileFerry

/-- The place of a command's flag. -/
abbrev Flag := Nat

/-- What a running command holds: its number and its flag. -/
structure Guard where
  id : CommandId
  flag : Flag
  deriving DecidableEq, Repr

structure Registry where
  next : CommandId
  /-- The commands that can be cancelled, newest first, one entry to a number. -/
  entries : List (CommandId × Flag)
  /-- Every flag ever made; `true` while its command was not cancelled. -/
  flags : List Bool
  deriving Repr

namespace Registry

def empty : Registry := ⟨⟨1⟩, [], []⟩

def without (id : CommandId) (entries : List (CommandId × Flag)) : List (CommandId × Flag) :=
  entries.filter fun entry => entry.1 ≠ id

def allocate (r : Registry) : CommandId × Registry :=
  (r.next, { r with next := ⟨r.next.value + 1⟩ })

def insert (r : Registry) (id : CommandId) : Guard × Registry :=
  (⟨id, r.flags.length⟩,
    { r with entries := (id, r.flags.length) :: without id r.entries, flags := r.flags ++ [true] })

def start (r : Registry) : Guard × Registry :=
  let (id, r) := r.allocate
  r.insert id

def finish (r : Registry) (g : Guard) : Registry :=
  { r with entries := without g.id r.entries }

def flag? (r : Registry) (id : CommandId) : Option Flag := r.entries.lookup id

/-- Cancels a command; says whether it was on the table. -/
def cancel (r : Registry) (id : CommandId) : Bool × Registry :=
  match r.flag? id with
  | none => (false, r)
  | some flag => (true, { r with entries := without id r.entries, flags := r.flags.set flag false })

def contains (r : Registry) (id : CommandId) : Bool := (r.flag? id).isSome

def size (r : Registry) : Nat := r.entries.length

def isEmpty (r : Registry) : Bool := r.entries.isEmpty

/-- Whether the command that holds `g` was not cancelled. -/
def isRunning (r : Registry) (g : Guard) : Bool := r.flags[g.flag]?.getD true

/-- Obeys a cancellation request as it was read; an unreadable one changes nothing. -/
def obey (r : Registry) (payload : Bytes) : Registry :=
  match CommandId.ofRequest payload with
  | .ok id => (r.cancel id).2
  | .error _ => r

end Registry

end FileFerry
