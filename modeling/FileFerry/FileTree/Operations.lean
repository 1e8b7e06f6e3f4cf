import FileFerry.FileTree.Walk
import FileFerry.Stream.Source

/-! What programs do to the tree by path: look, make and remove, list, read, create and write. Each
operation fails with the error an operating system gives for it. -/

set_option autoImplicit false

namespace FileFerry

structure DirEntry where
  name : Text
  isDir : Bool
  deriving DecidableEq, Repr

namespace FileTree

def «exists» (t : FileTree) (p : Path) : Bool := (t.find p).isOk

/-- Makes one directory; whatever has the name already, even a link to nothing, is in the way. -/
def mkdir (t : FileTree) (p : Path) : Except IoError FileTree := do
  let (dir, last) ← t.parent p
  match last with
  | none => .error (.os 17)
  | some name =>
    if name = Path.dot ∨ name = Path.dotDot then .error (.os 17)
    else if maxName < name.length then .error (.os 36)
    else if ((t.entries? dir.node).getD []).any (fun e => e.1 = name) then .error (.os 17)
    else .ok (t.add dir.node name (.directory [])).2

/-- Removes the name of a file or of a link to one; directories are refused. -/
def remove (t : FileTree) (p : Path) : Except IoError FileTree := do
  let found ← t.find p
  if t.isDirectory found.node then .error (.plain .isADirectory)
  else
    let (dir, last) ← t.parent p
    match last with
    | none => .error (.os 21)
    | some name => .ok (t.unlink dir.node name)

def canonicalDir (t : FileTree) (p : Path) : Except IoError Path := do
  let path ← t.canonical p
  let found ← t.find path
  if t.isDirectory found.node then .ok path else .error (.plain .notADirectory)

/-- The order of byte strings. -/
def bytesLe (a b : Bytes) : Bool := decide (a ≤ b)

/-- The entries of a directory in the order of their names as shown. A link counts as what it
leads to. -/
def list (t : FileTree) (p : Path) : Except IoError (List DirEntry) := do
  let found ← t.find p
  match t.entries? found.node with
  | none => .error (.os 20)
  | some entries =>
    let shown := entries.map fun (name, _) =>
      (Utf8.decodeLossy name,
        match walk t .visit maxLinks found [name] false with
        | .ok (.node trail, _) => t.isDirectory trail.node
        | _ => false)
    let sorted := shown.mergeSort fun a b => bytesLe (Utf8.encode a.1) (Utf8.encode b.1)
    .ok (sorted.map fun (name, isDir) => ⟨name, isDir⟩)

/-- What reading a device brings. The devices that never end are read up to a bound, 32 MiB, far
beyond what a session sends. -/
def deviceSource : Device → Source
  | .null => []
  | .zero | .full => List.replicate 4096 (.bytes (List.replicate 8192 0))
  | .faulty => [.failure (.os 5)]

def sourceOf (t : FileTree) (id : NodeId) : Source :=
  match t.node? id with
  | some (.file content) => [.bytes content]
  | some (.device kind) => deviceSource kind
  | _ => []

/-- Opens a file for reading; directories are refused. -/
def openFile (t : FileTree) (p : Path) : Except IoError Source := do
  let found ← t.find p
  if t.isDirectory found.node then .error (.plain .isADirectory) else .ok (t.sourceOf found.node)

/-- Empties the file at a path, or makes one there. -/
def create (t : FileTree) (p : Path) : Except IoError (NodeId × FileTree) := do
  checkPath p
  checkLength p
  match ← t.place p .make with
  | (.vacant dir name, _) => .ok (t.add dir.node name (.file []))
  | (.node found, _) =>
    match t.node? found.node with
    | some (.file _) => .ok (found.node, t.setNode found.node (.file []))
    | some (.device _) => .ok (found.node, t)
    | _ => .error (.os 21)

def writeAt (t : FileTree) (id : NodeId) (offset : Nat) (data : Bytes) :
    Except IoError Nat × FileTree :=
  match t.node? id with
  | some (.file content) => (.ok data.length, t.setNode id (.file (patch content offset data)))
  | some (.device .null) | some (.device .zero) => (.ok data.length, t)
  | some (.device .full) => (if data = [] then .ok 0 else .error (.os 28), t)
  | some (.device .faulty) => (if data = [] then .ok 0 else .error (.os 5), t)
  | _ => (.error (.os 9), t)

theorem isInterrupted_of_writeAt_error {t t' : FileTree} {id : NodeId} {offset : Nat} {data : Bytes}
    {e : IoError} (h : t.writeAt id offset data = (.error e, t')) : e.isInterrupted = false := by
  have hcodes : e = .os 28 ∨ e = .os 5 ∨ e = .os 9 := by
    unfold writeAt at h
    by_cases hd : data = [] <;> split at h <;> simp_all
  rcases hcodes with rfl | rfl | rfl <;> rfl

end FileTree

end FileFerry
