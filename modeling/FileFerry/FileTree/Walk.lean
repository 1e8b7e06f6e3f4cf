import FileFerry.FileTree.Basic

/-! From a path to a place in the tree. Every symbolic link on the way is followed, at most forty in
one walk; a name that leads through something other than a directory, or that is too long, fails
where it is met. A path that ends in a slash asks for a directory, which the caller checks. -/

set_option autoImplicit false

namespace FileFerry

namespace Path

def dot : Bytes := [0x2E]

def dotDot : Bytes := [0x2E, 0x2E]

def pieces : Bytes → List Bytes
  | [] => [[]]
  | b :: rest =>
    if b = slash then [] :: pieces rest
    else match pieces rest with
      | [] => [[b]]
      | piece :: more => (b :: piece) :: more

def names (b : Bytes) : List Bytes := (pieces b).filter fun name => name ≠ []

def endsInSlash (b : Bytes) : Bool := b.getLast? = some slash

end Path

/-- The names from the top down to a node, innermost first, each with the node it stands for. -/
abbrev Trail := List (Bytes × NodeId)

namespace Trail

def node (trail : Trail) : NodeId :=
  match trail with
  | [] => FileTree.root
  | (_, id) :: _ => id

def path (trail : Trail) : Path :=
  match trail with
  | [] => ⟨[Path.slash]⟩
  | _ => ⟨trail.reverse.flatMap fun step => Path.slash :: step.1⟩

end Trail

inductive Place where
  | node (trail : Trail)
  | vacant (dir : Trail) (name : Bytes)

namespace FileTree

def maxName : Nat := 255

/-- Paths of this many bytes or more are refused. -/
def maxPath : Nat := 4096

/-- How many symbolic links one walk may follow. -/
def maxLinks : Nat := 40

inductive Purpose where
  | visit
  /-- To make a file there, if need be: a last name that is followed by a slash is refused unseen. -/
  | make
  deriving DecidableEq, Repr

/-- Walks from a node through further names. The flag tells whether the path, or the target of a
link that was its last name, ends in a slash. -/
def walk (t : FileTree) (purpose : Purpose) :
    Nat → Trail → List Bytes → Bool → Except IoError (Place × Bool)
  | _, trail, [], asDir => .ok (.node trail, asDir)
  | links, trail, name :: rest, asDir =>
    match t.entries? trail.node with
    | none => .error (.os 20)
    | some entries =>
      if purpose = .make ∧ asDir ∧ rest = [] then .error (.os 21)
      else if name = Path.dot then walk t purpose links trail rest asDir
      else if name = Path.dotDot then walk t purpose links trail.tail rest asDir
      else if maxName < name.length then .error (.os 36)
      else match entries.lookup name with
        | none => if rest = [] then .ok (.vacant trail name, asDir) else .error (.os 2)
        | some id =>
          match t.node? id with
          | some (.symlink target) =>
            match links with
            | 0 => .error (.os 40)
            | links + 1 =>
              walk t purpose links (if target.head? = some Path.slash then [] else trail)
                (Path.names target ++ rest)
                (if rest = [] then asDir || Path.endsInSlash target else asDir)
          | _ => walk t purpose links ((name, id) :: trail) rest asDir
termination_by links _ names _ => (links, names.length)

/-- Refuses what is no path at all. -/
def checkPath (p : Path) : Except IoError Unit :=
  if p.bytes.contains 0 then .error .nulInName
  else if p.bytes = [] then .error (.os 2)
  else .ok ()

def checkLength (p : Path) : Except IoError Unit :=
  if maxPath ≤ p.bytes.length then .error (.os 36) else .ok ()

def place (t : FileTree) (p : Path) (purpose : Purpose) : Except IoError (Place × Bool) := do
  checkPath p
  walk t purpose maxLinks [] (Path.names p.bytes) (Path.endsInSlash p.bytes)

/-- The node at a place, which must be a directory where the path asked for one. -/
def settle (t : FileTree) : Place × Bool → Except IoError Trail
  | (.vacant _ _, _) => .error (.os 2)
  | (.node trail, asDir) =>
    if asDir && !t.isDirectory trail.node then .error (.os 20) else .ok trail

def find (t : FileTree) (p : Path) : Except IoError Trail := do
  checkPath p
  checkLength p
  t.settle (← t.place p .visit)

/-- The path without links and dots of whatever is at a path. Only the result has to be short enough. -/
def canonical (t : FileTree) (p : Path) : Except IoError Path := do
  let found ← t.settle (← t.place p .visit)
  checkLength found.path
  .ok found.path

/-- The directory that holds, or would hold, the last name of a path, and that name. -/
def parent (t : FileTree) (p : Path) : Except IoError (Trail × Option Bytes) := do
  checkPath p
  checkLength p
  let names := Path.names p.bytes
  match ← walk t .visit maxLinks [] names.dropLast false with
  | (.vacant _ _, _) => .error (.os 2)
  | (.node trail, _) =>
    if t.isDirectory trail.node then .ok (trail, names.getLast?) else .error (.os 20)

end FileTree

end FileFerry
