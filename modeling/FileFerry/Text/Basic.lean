/-! Text as a list of characters, blanks, and the two ways a line is cut at blanks. A character is
blank exactly when it has the Unicode property White_Space; nothing else about Unicode is used.
Byte forms of text are in Text.Utf8, numbers in Text.Decimal. -/

set_option autoImplicit false

namespace FileFerry

/-- Text, character by character. -/
abbrev Text := List Char

abbrev text (s : String) : Text := s.toList

namespace Text

/-- The characters with the property White_Space. -/
def isBlank (c : Char) : Bool :=
  let n := c.toNat
  (9 ≤ n && n ≤ 13) || n == 0x20 || n == 0x85 || n == 0xA0 || n == 0x1680 ||
    (0x2000 ≤ n && n ≤ 0x200A) || n == 0x2028 || n == 0x2029 || n == 0x202F || n == 0x205F ||
    n == 0x3000

theorem isBlank_of_isWhitespace {c : Char} (h : c.isWhitespace = true) : isBlank c = true := by
  have hc : c = ' ' ∨ c = '\t' ∨ c = '\r' ∨ c = '\n' := by
    simpa [Char.isWhitespace, or_assoc] using h
  rcases hc with rfl | rfl | rfl | rfl <;> decide

/-- A text without its last characters that satisfy `p`. -/
def dropEndWhile (p : Char → Bool) (t : Text) : Text :=
  (t.reverse.dropWhile p).reverse

def trimStart (t : Text) : Text := t.dropWhile isBlank

def trimEnd (t : Text) : Text := dropEndWhile isBlank t

def trim (t : Text) : Text := trimEnd (trimStart t)

def firstWord (t : Text) : Text := t.takeWhile fun c => !isBlank c

/-- What follows the first word, without blanks at either end. -/
def afterFirstWord (t : Text) : Text := trim (t.dropWhile fun c => !isBlank c)

def isLineEnd (c : Char) : Bool := c == '\r' || c == '\n'

def trimLineEnd (t : Text) : Text := dropEndWhile isLineEnd t

def joinWith (sep : Text) : List Text → Text
  | [] => []
  | [t] => t
  | t :: u :: ts => t ++ sep ++ joinWith sep (u :: ts)

/-- The pieces of a text between the characters `c`; one piece more than there are such characters. -/
def splitAt (c : Char) : Text → List Text
  | [] => [[]]
  | x :: t =>
    if x = c then [] :: splitAt c t
    else match splitAt c t with
      | [] => [[x]]
      | piece :: pieces => (x :: piece) :: pieces

/-- The part before the first `c` and the part after it. -/
def cutAt? (c : Char) : Text → Option (Text × Text)
  | [] => none
  | x :: t => if x = c then some ([], t) else (cutAt? c t).map fun (before, after) => (x :: before, after)

theorem length_lt_of_cutAt? {c : Char} {t before after : Text} (h : cutAt? c t = some (before, after)) :
    after.length < t.length := by
  induction t generalizing before after with
  | nil => simp [cutAt?] at h
  | cons x t ih =>
    rw [cutAt?] at h
    split at h
    · simp only [Option.some.injEq, Prod.mk.injEq] at h
      simp [h.2]
    · obtain ⟨⟨b, a⟩, hcut, heq⟩ := Option.map_eq_some_iff.mp h
      simp only [Prod.mk.injEq] at heq
      have := ih hcut
      rw [heq.2] at this
      exact Nat.lt_succ_of_lt this

def stripStart? (start t : Text) : Option Text :=
  if start.isPrefixOf t then some (t.drop start.length) else none

def hexValue? (c : Char) : Option Nat :=
  if '0' ≤ c ∧ c ≤ '9' then some (c.toNat - 48)
  else if 'a' ≤ c ∧ c ≤ 'f' then some (c.toNat - 87)
  else if 'A' ≤ c ∧ c ≤ 'F' then some (c.toNat - 55)
  else none

def lowerAscii (t : Text) : Text := t.map Char.toLower

end Text

end FileFerry
