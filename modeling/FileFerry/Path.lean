import FileFerry.Text.Utf8

/-! File names as byte strings. Joining normalises nothing: an absolute name replaces the directory,
any other is appended with one slash between them unless the directory is empty or ends in one. -/

set_option autoImplicit false

namespace FileFerry

structure Path where
  bytes : Bytes
  deriving DecidableEq, Repr

namespace Path

def slash : UInt8 := 0x2F

def ofText (t : Text) : Path := ⟨Utf8.encode t⟩

/-- A name as it is shown: ill-formed parts are replaced. -/
def display (p : Path) : Text := Utf8.decodeLossy p.bytes

def isAbsolute (p : Path) : Bool := p.bytes.head? = some slash

/-- The name `p` seen from the directory `dir`. -/
def join (dir p : Path) : Path :=
  if p.isAbsolute then p
  else if dir.bytes = [] ∨ dir.bytes.getLast? = some slash then ⟨dir.bytes ++ p.bytes⟩
  else ⟨dir.bytes ++ slash :: p.bytes⟩

end Path

end FileFerry
