import FileFerry.Text.Basic

/-! Patterns for the values of fields: regular expressions. Only whether a pattern can be used matters
here, so a pattern is read into what decides that: how deeply its parts nest, which of them may be
repeated, and whether one of them looks for the edge of a word. Which parts can be used depends on the
modes in force where they stand. -/

set_option autoImplicit false

namespace FileFerry

namespace Pattern

/-- The modes that decide what may stand in a pattern. -/
structure Modes where
  /-- Letters stand for themselves in either case. -/
  anyCase : Bool
  /-- The pattern is about characters of all scripts and not about bytes. -/
  allScripts : Bool
  spaced : Bool
  deriving DecidableEq, Repr

namespace Modes

def initial : Modes := ⟨false, true, false⟩

/-- The letters of all modes; most of them do not matter here. -/
def letters : Text := text "imsUuRx"

/-- A mode after some letters have been switched on and others off. -/
def switch (on off : Text) (letter : Char) (before : Bool) : Bool :=
  letter ∈ on || (before && !(letter ∈ off : Bool))

def change (m : Modes) (on off : Text) : Modes :=
  ⟨switch on off 'i' m.anyCase, switch on off 'u' m.allScripts, switch on off 'x' m.spaced⟩

end Modes

/-- What counts of a part of a pattern. -/
structure Part where
  /-- How many levels of parts it has below itself, its own included. -/
  depth : Nat
  isRepeatable : Bool
  seeksWordEdge : Bool
  deriving DecidableEq, Repr

namespace Part

def leaf : Part := ⟨0, true, false⟩

def nothing : Part := ⟨0, false, false⟩

def around (parts : List Part) : Part :=
  ⟨1 + (parts.map depth).foldl max 0, true, parts.any seeksWordEdge⟩

def sequence : List Part → Part
  | [] => nothing
  | [p] => p
  | parts => around parts

end Part

def maxDepth : Nat := 250

/-- A text without the blanks and comments it begins with; a comment lasts from a number sign to the
end of its line. -/
def dropSpacing : (inComment : Bool) → Text → Text
  | _, [] => []
  | true, c :: t => dropSpacing (c ≠ '\n') t
  | false, c :: t =>
    if Text.isBlank c then dropSpacing false t
    else if c = '#' then dropSpacing true t
    else c :: t

/-- Passes over what does not count. -/
def skip (m : Modes) (t : Text) : Text := if m.spaced then dropSpacing false t else t

theorem length_dropSpacing_le (inComment : Bool) (t : Text) :
    (dropSpacing inComment t).length ≤ t.length := by
  fun_induction dropSpacing inComment t with
  | case1 => simp
  | case2 c t ih => simp only [List.length_cons]; omega
  | case3 c t _ ih => simp only [List.length_cons]; omega
  | case4 t _ ih => simp only [List.length_cons]; omega
  | case5 => simp

theorem length_skip_le (m : Modes) (t : Text) : (skip m t).length ≤ t.length := by
  unfold skip
  split
  · exact length_dropSpacing_le false t
  · exact Nat.le_refl _

end Pattern

inductive PatternError where
  /-- It is no pattern, or asks for more than is known about characters. -/
  | unbuildable
  | wordEdge
  deriving DecidableEq, Repr

def PatternError.message : PatternError → Text
  | unbuildable => text "error building NFA"
  | wordEdge =>
    text "unsupported regex feature for DFAs: cannot build DFAs for regexes with Unicode word boundaries; switch to ASCII word boundaries, or heuristically enable Unicode word boundaries or use a different regex engine"

end FileFerry
