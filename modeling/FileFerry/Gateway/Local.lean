import FileFerry.Gateway.Basic

/-! The gateway of a server: a tree of files of which one directory is served. Paths are not
confined to that directory; it is only where sessions begin. -/

set_option autoImplicit false

namespace FileFerry

/-- A file open for writing, and where its next byte goes. -/
structure OpenFile where
  node : NodeId
  offset : Nat

structure LocalFiles where
  tree : FileTree
  /-- The canonical path of the served directory. -/
  home : Path
  /-- Every file ever opened for writing, by handle. -/
  opened : List OpenFile

namespace LocalFiles

/-- The result of an operation that may change the tree. -/
def settle {α : Type} (f : LocalFiles) (result : Except IoError (α × FileTree)) :
    Except IoError α × LocalFiles :=
  match result with
  | .ok (a, tree) => (.ok a, { f with tree })
  | .error e => (.error e, f)

def create (f : LocalFiles) (p : Path) : Except IoError Nat × LocalFiles :=
  match f.tree.create p with
  | .ok (node, tree) =>
    (.ok f.opened.length, { f with tree, opened := f.opened ++ [⟨node, 0⟩] })
  | .error e => (.error e, f)

def write (f : LocalFiles) (handle : Nat) (b : Bytes) : Except IoError Nat × LocalFiles :=
  match f.opened[handle]? with
  | none => (.error (.os 9), f)
  | some file =>
    match f.tree.writeAt file.node file.offset b with
    | (.ok n, tree) =>
      (.ok n, { f with tree, opened := f.opened.set handle { file with offset := file.offset + n } })
    | (.error e, tree) => (.error e, { f with tree })

theorem isInterrupted_of_write_error {f : LocalFiles} {handle : Nat} {b : Bytes} {e : IoError}
    (h : (f.write handle b).1 = .error e) : e.isInterrupted = false := by
  unfold write at h
  split at h
  · cases h; rfl
  · split at h
    · simp at h
    · rename_i hw
      cases h
      exact FileTree.isInterrupted_of_writeAt_error hw

instance : Gateway LocalFiles where
  Handle := Nat
  home := home
  «exists» f p := (f.tree.exists p, f)
  mkdir f p := f.settle ((f.tree.mkdir p).map fun tree => ((), tree))
  remove f p := f.settle ((f.tree.remove p).map fun tree => ((), tree))
  chdir f p := (f.tree.canonicalDir p, f)
  list f p := (f.tree.list p, f)
  openFile f p := (f.tree.openFile p, f)
  create := create
  write := write
  flush f _ := (.ok (), f)
  close f _ := f
  patience _ _ := 0
  patience_lt f handle b e he hi := by
    rw [isInterrupted_of_write_error he] at hi
    cases hi

end LocalFiles

end FileFerry
