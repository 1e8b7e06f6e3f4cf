import FileFerry.Text.Decimal

/-! Names of hosts: labels of ASCII letters, digits, hyphens and underscores with dots between them.
A backslash stands before a character meant literally, or before its number in three digits. Whether
anyone knows a name is another matter; what is not such a name needs no asking. -/

set_option autoImplicit false

namespace FileFerry.HostName

def isNameChar (c : Char) : Bool := c.isAlphanum || c = '-' || c = '_'

def literal? (c : Char) : Option Char := if isNameChar c then some c else none

def unescape? : Text → Option Text
  | [] => some []
  | ['\\'] => none
  | ['\\', a] => if a.isDigit then none else (literal? a).map fun a => [a]
  | ['\\', a, b] => if a.isDigit then none else do some ((← literal? a) :: (← unescape? [b]))
  | '\\' :: a :: b :: c :: rest =>
    if a.isDigit then
      match Decimal.readNat 255 [a, b, c] with
      | .ok n => do some ((← literal? (Char.ofNat n)) :: (← unescape? rest))
      | .error _ => none
    else do some ((← literal? a) :: (← unescape? (b :: c :: rest)))
  | c :: rest => (unescape? rest).map fun rest => c :: rest

def isLabel (t : Text) : Bool := !t.isEmpty && t.length ≤ 63 && t.all isNameChar

/-- The labels of a name; a dot at the very end only says that the name is complete. -/
def labels (t : Text) : List Text :=
  let pieces := Text.splitAt '.' t
  if pieces.getLast? = some [] then pieces.dropLast else pieces

/-- The bytes that the labels take in a question: each is told its length first, and an empty one
ends them. -/
def askedSize (labels : List Text) : Nat := labels.foldr (fun label n => label.length + 1 + n) 1

/-- Whether a text is a name that one could ask for. A single dot names the root. -/
def isHostName (t : Text) : Bool :=
  t = ['.'] || match unescape? t with
    | none => false
    | some name =>
      let labels := labels name
      !labels.isEmpty && labels.all isLabel && name.head? != some '-' && askedSize labels ≤ 255

def own : Text := text "localhost"

def isOwn (t : Text) : Bool := t.lowerAscii = own

theorem isHostName_own : isHostName own = true := by decide

/-- Nothing longer than 255 bytes is asked for. -/
theorem askedSize_le {t name : Text} (ht : t ≠ ['.']) (h : isHostName t = true)
    (hn : unescape? t = some name) : askedSize (labels name) ≤ 255 := by
  simp only [isHostName, ht, decide_false, hn, Bool.false_or, Bool.and_eq_true,
    decide_eq_true_eq] at h
  exact h.2

end FileFerry.HostName
