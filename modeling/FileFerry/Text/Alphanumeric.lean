import FileFerry.Text.Alphabetic
import FileFerry.Text.Numeric

/-! Letters and numbers of all scripts. -/

set_option autoImplicit false

namespace FileFerry

namespace Text

def isAlphanumeric (c : Char) : Bool := isAlphabetic c || isNumeric c

theorem isAlphanumeric_of_isAlphanum {c : Char} (h : c.isAlphanum = true) :
    isAlphanumeric c = true := by
  delta Char.isAlphanum at h
  rcases (Bool.or_eq_true _ _).mp h with h | h
  · simp [isAlphanumeric, isAlphabetic_of_isAlpha h]
  · simp [isAlphanumeric, isNumeric_of_isDigit h]

end Text

end FileFerry
