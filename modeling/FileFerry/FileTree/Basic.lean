import FileFerry.Failure.Basic
import FileFerry.Path

/-! A tree of files kept in memory: directories, files, symbolic links and a few devices, each under
a number of its own. A removed node keeps its number, so a file that is still being written can
lose its name without losing its writer. -/

set_option autoImplicit false

namespace FileFerry

abbrev NodeId := Nat

/-- Files whose content is not stored. -/
inductive Device where
  /-- Takes every byte and is always at its end. -/
  | null
  /-- Takes every byte; reads as zeros. -/
  | zero
  /-- Has no room for any byte; reads as zeros. -/
  | full
  /-- Fails every read and every write of at least one byte. -/
  | faulty
  deriving DecidableEq, Repr

inductive Node where
  | directory (entries : List (Bytes × NodeId))
  | file (content : Bytes)
  | symlink (target : Bytes)
  | device (kind : Device)
  deriving Repr

structure FileTree where
  /-- All nodes by number; the first is the top directory. -/
  nodes : Array Node

namespace FileTree

def root : NodeId := 0

def empty : FileTree := ⟨#[.directory []]⟩

def node? (t : FileTree) (id : NodeId) : Option Node := t.nodes[id]?

def entries? (t : FileTree) (id : NodeId) : Option (List (Bytes × NodeId)) :=
  match t.node? id with
  | some (.directory entries) => some entries
  | _ => none

def isDirectory (t : FileTree) (id : NodeId) : Bool := (t.entries? id).isSome

def setNode (t : FileTree) (id : NodeId) (node : Node) : FileTree :=
  ⟨t.nodes.setIfInBounds id node⟩

def addNode (t : FileTree) (node : Node) : NodeId × FileTree :=
  (t.nodes.size, ⟨t.nodes.push node⟩)

def link (t : FileTree) (dir : NodeId) (name : Bytes) (id : NodeId) : FileTree :=
  match t.entries? dir with
  | none => t
  | some entries => t.setNode dir (.directory ((name, id) :: entries.filter fun e => e.1 ≠ name))

def unlink (t : FileTree) (dir : NodeId) (name : Bytes) : FileTree :=
  match t.entries? dir with
  | none => t
  | some entries => t.setNode dir (.directory (entries.filter fun e => e.1 ≠ name))

def add (t : FileTree) (dir : NodeId) (name : Bytes) (node : Node) : NodeId × FileTree :=
  let (id, t) := t.addNode node
  (id, t.link dir name id)

/-- The content of a file after `data` is written at `offset`; a gap is filled with zeros. -/
def patch (content : Bytes) (offset : Nat) (data : Bytes) : Bytes :=
  content.take offset ++ List.replicate (offset - content.length) 0 ++ data ++
    content.drop (offset + data.length)

end FileTree

end FileFerry
