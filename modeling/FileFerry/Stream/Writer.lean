import FileFerry.Failure.Basic
import FileFerry.Text.Utf8

/-! Byte streams that are written. A writer may take part of what it is given, fail, or report that
it was interrupted; it can be interrupted only so often in a row, which is what makes writing
everything end. -/

set_option autoImplicit false

namespace FileFerry

/-- Something bytes can be written to; writing and flushing change its state. -/
class Writer (ω : Type) where
  write : ω → Bytes → Except IoError Nat × ω
  flush : ω → Except IoError Unit × ω
  /-- How often at most the next writes are interrupted. -/
  patience : ω → Nat
  patience_lt : ∀ (w : ω) (b : Bytes) (e : IoError),
    (write w b).1 = .error e → e.isInterrupted = true → patience (write w b).2 < patience w

namespace Writer

variable {ω : Type} [Writer ω]

set_option linter.unusedVariables false in
/-- Writes all bytes: goes on after a short write and after an interruption, and stops at any other
failure. Without bytes nothing is written. -/
def writeAll : ω → Bytes → Except IoError Unit × ω
  | w, [] => (.ok (), w)
  | w, c :: cs =>
    match h : write w (c :: cs) with
    | (.ok 0, w') => (.error .nothingWritten, w')
    | (.ok (n + 1), w') => writeAll w' (cs.drop n)
    | (.error e, w') => if e.isInterrupted then writeAll w' (c :: cs) else (.error e, w')
termination_by w b => (b.length, patience w)
decreasing_by
  · apply Prod.Lex.left
    simp only [List.length_drop, List.length_cons]
    omega
  · rename_i he
    apply Prod.Lex.right
    have := patience_lt w (c :: cs) e (by rw [h]) he
    rw [h] at this
    exact this

@[simp] theorem writeAll_nil (w : ω) : writeAll w [] = (.ok (), w) := by
  rw [writeAll]

/-- Writes all bytes and then flushes; a failed write is not flushed. -/
def send (w : ω) (b : Bytes) : Except IoError Unit × ω :=
  match writeAll w b with
  | (.ok (), w') => flush w'
  | (.error e, w') => (.error e, w')

end Writer

end FileFerry
