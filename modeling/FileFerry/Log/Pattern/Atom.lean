import FileFerry.Log.Pattern.Basic

/-! The smallest parts of a pattern: a character, or a backslash and what belongs to it. A backslash
lets every ASCII character that is no letter or digit stand for itself; letters have meanings of their
own, or none. Of the classes of characters only those of ASCII are known. -/

set_option autoImplicit false

namespace FileFerry

namespace Pattern

inductive Atom where
  /-- A character; `isByte` marks one that was written as the number of a byte. -/
  | char (c : Char) (isByte : Bool)
  | anyChar
  /-- The digits, blanks or characters of words, or all characters but those. -/
  | classOf (negated : Bool)
  | lineEdge
  | wordEdge
  deriving DecidableEq, Repr

namespace Atom

/-- Whether a character can be looked for: letters of both cases are known for bytes only, and a byte
outside ASCII is no character. -/
def fitsChar (m : Modes) (c : Char) (isByte : Bool) : Bool :=
  if m.allScripts then !m.anyCase else !isByte || c.toNat < 0x80

/-- What an atom comes to as a part of a pattern. -/
def part? (m : Modes) : Atom → Option Part
  | char c isByte => if fitsChar m c isByte then some .leaf else none
  | anyChar => if m.allScripts then some .leaf else none
  | classOf negated => if m.allScripts || negated then none else some .leaf
  | lineEdge => some .leaf
  | wordEdge => some { Part.leaf with seeksWordEdge := m.allScripts }

def isMember (m : Modes) : Atom → Bool
  | char c _ => fitsChar m c true
  | classOf negated => !m.allScripts && !negated
  | anyChar | lineEdge | wordEdge => false

end Atom

/-- How many digits in base sixteen follow a letter that begins the number of a character. -/
def hexLength? (c : Char) : Option Nat :=
  if c = 'x' then some 2 else if c = 'u' then some 4 else if c = 'U' then some 8 else none

def escaped? (c : Char) : Option Atom :=
  if c = 'd' ∨ c = 's' ∨ c = 'w' then some (.classOf false)
  else if c = 'D' ∨ c = 'S' ∨ c = 'W' then some (.classOf true)
  else if c = 'A' ∨ c = 'z' then some .lineEdge
  else if c = 'b' ∨ c = 'B' ∨ c = '<' ∨ c = '>' then some .wordEdge
  else if c = 'a' then some (.char '\x07' false)
  else if c = 'f' then some (.char '\x0c' false)
  else if c = 't' then some (.char '\t' false)
  else if c = 'n' then some (.char '\n' false)
  else if c = 'r' then some (.char '\r' false)
  else if c = 'v' then some (.char '\x0b' false)
  else if 0x80 ≤ c.toNat ∨ c.isAlphanum then none
  else some (.char c false)

def readHexDigits (m : Modes) : Nat → Nat → Text → Option (Nat × Text)
  | 0, value, t => some (value, t)
  | _ + 1, _, [] => none
  | n + 1, value, c :: t =>
    match Text.hexValue? c with
    | none => none
    | some digit => readHexDigits m n (value * 16 + digit) (skip m t)

def readEscaped (m : Modes) : Text → Option (Atom × Text)
  | [] => none
  | c :: t =>
    match hexLength? c with
    | none => (escaped? c).map fun atom => (atom, t)
    | some n =>
      match readHexDigits m n 0 (skip m t) with
      | none => none
      | some (value, rest) =>
        if value.isValidChar then some (.char (Char.ofNat value) (c = 'x'), rest) else none

def readMember (m : Modes) : Text → Option (Atom × Text)
  | [] => none
  | c :: t => if c = '\\' then readEscaped m t else some (.char c false, t)

theorem length_le_of_readHexDigits {m : Modes} {n value value' : Nat} {t rest : Text}
    (h : readHexDigits m n value t = some (value', rest)) : rest.length ≤ t.length := by
  induction n generalizing value t with
  | zero =>
    simp only [readHexDigits, Option.some.injEq, Prod.mk.injEq] at h
    simp [h.2]
  | succ n ih =>
    cases t with
    | nil => simp [readHexDigits] at h
    | cons c t =>
      simp only [readHexDigits] at h
      split at h
      · simp at h
      · have := ih h
        have := length_skip_le m t
        simp only [List.length_cons]
        omega

theorem length_lt_of_readEscaped {m : Modes} {t rest : Text} {atom : Atom}
    (h : readEscaped m t = some (atom, rest)) : rest.length < t.length := by
  cases t with
  | nil => simp [readEscaped] at h
  | cons c t =>
    simp only [readEscaped] at h
    split at h
    · obtain ⟨_, _, heq⟩ := Option.map_eq_some_iff.mp h
      simp only [Prod.mk.injEq] at heq
      simp [heq.2]
    · split at h
      · simp at h
      · rename_i hread
        have hle := length_le_of_readHexDigits hread
        have := length_skip_le m t
        split at h
        · simp only [Option.some.injEq, Prod.mk.injEq] at h
          simp only [← h.2, List.length_cons]
          omega
        · simp at h

theorem length_lt_of_readMember {m : Modes} {t rest : Text} {atom : Atom}
    (h : readMember m t = some (atom, rest)) : rest.length < t.length := by
  cases t with
  | nil => simp [readMember] at h
  | cons c t =>
    simp only [readMember] at h
    split at h
    · exact Nat.lt_succ_of_lt (length_lt_of_readEscaped h)
    · simp only [Option.some.injEq, Prod.mk.injEq] at h
      simp [← h.2]

end Pattern

end FileFerry
