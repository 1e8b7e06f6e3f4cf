import FileFerry.FileTree.Operations
import FileFerry.Stream.Writer

/-! The served files as a session sees them. A gateway answers each call and may change its own
state; what it answers is up to it. Files being uploaded are known by a handle of the gateway's
choice, so that a gateway can tie a handle to a file that lost its name. -/

set_option autoImplicit false

namespace FileFerry

class Gateway (γ : Type) where
  /-- What stands for a file being written. -/
  Handle : Type
  home : γ → Path
  «exists» : γ → Path → Bool × γ
  mkdir : γ → Path → Except IoError Unit × γ
  /-- Removes a file; directories are refused. -/
  remove : γ → Path → Except IoError Unit × γ
  /-- The canonical form of a directory's path. -/
  chdir : γ → Path → Except IoError Path × γ
  list : γ → Path → Except IoError (List DirEntry) × γ
  openFile : γ → Path → Except IoError Source × γ
  create : γ → Path → Except IoError Handle × γ
  write : γ → Handle → Bytes → Except IoError Nat × γ
  flush : γ → Handle → Except IoError Unit × γ
  close : γ → Handle → γ
  patience : γ → Handle → Nat
  patience_lt : ∀ (g : γ) (h : Handle) (b : Bytes) (e : IoError),
    (write g h b).1 = .error e → e.isInterrupted = true → patience (write g h b).2 h < patience g h

/-- A file being written, with the gateway it belongs to. -/
structure Sink (γ : Type) [Gateway γ] where
  gateway : γ
  handle : Gateway.Handle γ

namespace Sink

variable {γ : Type} [Gateway γ]

instance : Writer (Sink γ) where
  write s b :=
    let (result, g) := Gateway.write s.gateway s.handle b
    (result, { s with gateway := g })
  flush s :=
    let (result, g) := Gateway.flush s.gateway s.handle
    (result, { s with gateway := g })
  patience s := Gateway.patience s.gateway s.handle
  patience_lt s b e he hi := Gateway.patience_lt s.gateway s.handle b e he hi

end Sink

end FileFerry
