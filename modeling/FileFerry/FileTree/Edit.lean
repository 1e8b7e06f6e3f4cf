import FileFerry.FileTree.Operations

/-! Changes to a tree from outside, by paths seen from a directory, and the inventory of a tree. A
change that cannot be made leaves the tree as it is. -/

set_option autoImplicit false

namespace FileFerry

inductive TreeEdit where
  | directory (path : Path)
  | file (path : Path) (content : Bytes)
  | symlink (path : Path) (target : Bytes)
  | remove (path : Path)

namespace FileTree

def makeDirs (t : FileTree) (p : Path) : FileTree :=
  let names := Path.names p.bytes
  (List.range names.length).foldl
    (fun t n =>
      let above : Path := ⟨(names.take (n + 1)).flatMap fun name => Path.slash :: name⟩
      match t.mkdir above with
      | .ok t => t
      | .error _ => t)
    t

def putFile (t : FileTree) (p : Path) (content : Bytes) : FileTree :=
  match t.create p with
  | .ok (id, t) => (t.writeAt id 0 content).2
  | .error _ => t

def putLink (t : FileTree) (p : Path) (target : Bytes) : FileTree :=
  match t.parent p with
  | .ok (dir, some name) => (t.add dir.node name (.symlink target)).2
  | _ => t

def removeAll (t : FileTree) (p : Path) : FileTree :=
  match t.parent p with
  | .ok (dir, some name) => t.unlink dir.node name
  | _ => t

/-- A tree after a change seen from the directory `dir`. -/
def edit (t : FileTree) (dir : Path) : TreeEdit → FileTree
  | .directory p => t.makeDirs (dir.join p)
  | .file p content => t.putFile (dir.join p) content
  | .symlink p target => t.putLink (dir.join p) target
  | .remove p => t.removeAll (dir.join p)

/-- The names below a directory with their nodes, to a depth of at most `depth`. -/
def below (t : FileTree) (depth : Nat) (dir : NodeId) (above : Bytes) : List (Bytes × Node) :=
  match depth with
  | 0 => []
  | depth + 1 =>
    ((t.entries? dir).getD []).flatMap fun (name, id) =>
      let path := if above = [] then name else above ++ Path.slash :: name
      match t.node? id with
      | none => []
      | some node => (path, node) :: below t depth id path

def inventory (t : FileTree) (p : Path) : List (Bytes × Node) :=
  match t.find p with
  | .error _ => []
  | .ok trail =>
    (t.below t.nodes.size trail.node []).mergeSort fun a b => bytesLe a.1 b.1

/-- A tree with the devices that paths like `/dev/null` lead to. -/
def withDevices : FileTree :=
  let t := (empty.makeDirs ⟨Utf8.encode (text "/dev")⟩).makeDirs ⟨Utf8.encode (text "/proc/self")⟩
  let put (t : FileTree) (p : String) (kind : Device) : FileTree :=
    match t.parent ⟨Utf8.encode (text p)⟩ with
    | .ok (dir, some name) => (t.add dir.node name (.device kind)).2
    | _ => t
  put (put (put (put t "/dev/null" .null) "/dev/zero" .zero) "/dev/full" .full) "/proc/self/mem" .faulty

end FileTree

end FileFerry
