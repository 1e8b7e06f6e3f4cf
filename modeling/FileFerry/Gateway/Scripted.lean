import FileFerry.Gateway.Basic
import FileFerry.Stream.Scripted

/-! A gateway whose answers are laid down beforehand: each call takes the next answer of its kind, and
has a plain one when there is none left. Files being written are scripted writers. -/

set_option autoImplicit false

namespace FileFerry

structure ScriptedFiles where
  home : Path
  existing : List Bool
  making : List (Except IoError Unit)
  removing : List (Except IoError Unit)
  entering : List (Except IoError Path)
  listing : List (Except IoError (List DirEntry))
  opening : List (Except IoError Source)
  creating : List (Except IoError ScriptedWriter)
  created : List (Path × ScriptedWriter)

namespace ScriptedFiles

/-- The next answer of a list, or the plain one. -/
def next {α : Type} (answers : List α) (plain : α) : α × List α :=
  match answers with
  | [] => (plain, [])
  | a :: rest => (a, rest)

def create (f : ScriptedFiles) (p : Path) : Except IoError Nat × ScriptedFiles :=
  match next f.creating (.ok .accepting) with
  | (.ok writer, creating) =>
    (.ok f.created.length, { f with creating, created := f.created ++ [(p, writer)] })
  | (.error e, creating) => (.error e, { f with creating })

def writer? (f : ScriptedFiles) (handle : Nat) : Option ScriptedWriter :=
  f.created[handle]?.map Prod.snd

def setWriter (f : ScriptedFiles) (handle : Nat) (w : ScriptedWriter) : ScriptedFiles :=
  { f with created := f.created.modify handle fun file => (file.1, w) }

def write (f : ScriptedFiles) (handle : Nat) (b : Bytes) : Except IoError Nat × ScriptedFiles :=
  match f.writer? handle with
  | none => (.error (.os 9), f)
  | some w => ((w.write b).1, f.setWriter handle (w.write b).2)

def flush (f : ScriptedFiles) (handle : Nat) : Except IoError Unit × ScriptedFiles :=
  match f.writer? handle with
  | none => (.error (.os 9), f)
  | some w => (w.flush.1, f.setWriter handle w.flush.2)

def patience (f : ScriptedFiles) (handle : Nat) : Nat :=
  match f.writer? handle with
  | none => 0
  | some w => w.patience

theorem writer?_setWriter {f : ScriptedFiles} {handle : Nat} {v : ScriptedWriter}
    (h : f.writer? handle = some v) (w : ScriptedWriter) :
    (f.setWriter handle w).writer? handle = some w := by
  unfold writer? setWriter at *
  obtain ⟨file, hf, _⟩ := Option.map_eq_some_iff.mp h
  simp [hf]

instance : Gateway ScriptedFiles where
  Handle := Nat
  home := home
  «exists» f _ :=
    let (found, existing) := next f.existing false
    (found, { f with existing })
  mkdir f _ :=
    let (result, making) := next f.making (.ok ())
    (result, { f with making })
  remove f _ :=
    let (result, removing) := next f.removing (.ok ())
    (result, { f with removing })
  chdir f p :=
    let (result, entering) := next f.entering (.ok p)
    (result, { f with entering })
  list f _ :=
    let (result, listing) := next f.listing (.ok [])
    (result, { f with listing })
  openFile f _ :=
    let (result, opening) := next f.opening (.ok [])
    (result, { f with opening })
  create := create
  write := write
  flush := flush
  close f _ := f
  patience := patience
  patience_lt f handle b e he hi := by
    unfold write at *
    split at he
    · cases he
      cases hi
    · rename_i w hw
      have hlt : (w.write b).2.patience < w.patience := Writer.patience_lt w b e he hi
      simpa [patience, writer?_setWriter hw, hw] using hlt

end ScriptedFiles

end FileFerry
