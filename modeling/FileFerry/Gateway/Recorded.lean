import FileFerry.Gateway.Basic

/-! Any gateway together with the calls made on it, in order. Asking for the home directory, and
writing to a file that is open, are no calls. -/

set_option autoImplicit false

namespace FileFerry

inductive GatewayCall where
  | «exists» (path : Path)
  | mkdir (path : Path)
  | remove (path : Path)
  | chdir (path : Path)
  | list (path : Path)
  | openFile (path : Path)
  | create (path : Path)
  deriving DecidableEq, Repr

structure Recorded (γ : Type) where
  inner : γ
  calls : List GatewayCall

namespace Recorded

variable {γ : Type}

def note {α : Type} (g : Recorded γ) (call : GatewayCall) (outcome : α × γ) : α × Recorded γ :=
  (outcome.1, ⟨outcome.2, g.calls ++ [call]⟩)

instance [Gateway γ] : Gateway (Recorded γ) where
  Handle := Gateway.Handle γ
  home g := Gateway.home g.inner
  «exists» g p := g.note (.exists p) (Gateway.exists g.inner p)
  mkdir g p := g.note (.mkdir p) (Gateway.mkdir g.inner p)
  remove g p := g.note (.remove p) (Gateway.remove g.inner p)
  chdir g p := g.note (.chdir p) (Gateway.chdir g.inner p)
  list g p := g.note (.list p) (Gateway.list g.inner p)
  openFile g p := g.note (.openFile p) (Gateway.openFile g.inner p)
  create g p := g.note (.create p) (Gateway.create g.inner p)
  write g h b := ((Gateway.write g.inner h b).1, { g with inner := (Gateway.write g.inner h b).2 })
  flush g h := ((Gateway.flush g.inner h).1, { g with inner := (Gateway.flush g.inner h).2 })
  close g h := { g with inner := Gateway.close g.inner h }
  patience g h := Gateway.patience g.inner h
  patience_lt g h b e he hi := Gateway.patience_lt g.inner h b e he hi

end Recorded

end FileFerry
