import FileFerry.Log.Pattern.Atom

/-! Classes of characters in brackets. A class has members one after another, some of them classes
themselves; two such rows may be joined by `&&`, `--` or `~~`, from left to right. A class of bytes
cannot be negated, since that would take in bytes that are no characters. -/

set_option autoImplicit false

namespace FileFerry

namespace Pattern

structure OpenClass where
  /-- The depth of the rows before the last operator. -/
  joined : Option Nat
  members : Nat
  /-- The depth of the deepest of them. -/
  deepest : Nat
  deriving DecidableEq, Repr

namespace OpenClass

def empty : OpenClass := ⟨none, 0, 0⟩

def add (k : OpenClass) (depth : Nat) : OpenClass :=
  { k with members := k.members + 1, deepest := max k.deepest depth }

def row (k : OpenClass) : Nat := if k.members ≤ 1 then k.deepest else k.deepest + 1

def rows (k : OpenClass) : Nat :=
  match k.joined with
  | none => k.row
  | some depth => 1 + max depth k.row

/-- An operator ends a row. -/
def join (k : OpenClass) : OpenClass := ⟨some k.rows, 0, 0⟩

def depth (k : OpenClass) : Nat := k.rows + 1

end OpenClass

/-- The classes of ASCII that have a name. -/
def classNames : List Text :=
  ["alnum", "alpha", "ascii", "blank", "cntrl", "digit", "graph", "lower", "print", "punct", "space",
    "upper", "word", "xdigit"].map String.toList

/-- A caret at the beginning negates. -/
def readCaret : Text → Bool × Text
  | [] => (false, [])
  | c :: t => if c = '^' then (true, t) else (false, c :: t)

/-- Reads a class by its name, such as `[:alpha:]`, behind the bracket; tells whether it is negated. -/
def readNamed? : Text → Option (Bool × Text)
  | [] => none
  | c :: t =>
    if c ≠ ':' then none
    else match Text.cutAt? ':' (readCaret t).2 with
      | none => none
      | some (name, rest) =>
        if classNames.contains name ∧ rest.head? = some ']' then some ((readCaret t).1, rest.tail) else none

def fitsNamed (m : Modes) (negated : Bool) : Bool := if m.allScripts then !m.anyCase else !negated

/-- Hyphens at the beginning of a class are members; tells how many there are. -/
def readHyphens (m : Modes) (t : Text) : Nat × Text :=
  match t with
  | [] => (0, [])
  | c :: t =>
    if c = '-' then
      let (count, rest) := readHyphens m (skip m t)
      (count + 1, rest)
    else (0, c :: t)
termination_by t.length
decreasing_by have := length_skip_le m t; simp only [List.length_cons]; omega

/-- A closing bracket right at the beginning is a member. -/
def readFirstBracket (m : Modes) : Text → Nat × Text
  | [] => (0, [])
  | c :: t => if c = ']' then (1, skip m t) else (0, c :: t)

/-- Counts the members at the beginning of a class that would mean something else further on. -/
def readFirstMembers (m : Modes) (t : Text) : Nat × Text :=
  match readHyphens m t with
  | (0, rest) => readFirstBracket m rest
  | counted => counted

def readOpening? (m : Modes) (t : Text) : Option (OpenClass × Text) :=
  let (negated, t₁) := readCaret (skip m t)
  let (members, rest) := readFirstMembers m (skip m t₁)
  if negated && !m.allScripts || members ≠ 0 && !Atom.fitsChar m '-' true then none
  else some (⟨none, members, 0⟩, rest)

/-- What stands behind a hyphen, blanks and one number sign passed over where they do not count. -/
def beyond (m : Modes) (signSeen : Bool) : Text → Option Char
  | [] => none
  | c :: t =>
    if m.spaced ∧ Text.isBlank c then beyond m signSeen t
    else if m.spaced ∧ c = '#' ∧ !signSeen then beyond m true t
    else some c

/-- Whether the text goes on to the end of a range: a hyphen that is neither the last member nor the
beginning of an operator. -/
def rangeFollows (m : Modes) : Text → Bool
  | [] => false
  | c :: t => c = '-' && beyond m false t ≠ some ']' && beyond m false t ≠ some '-'

def isRange : Atom → Atom → Bool
  | .char first _, .char last _ => first ≤ last
  | _, _ => false

def readRange (m : Modes) (t : Text) : Option Text :=
  match readMember m t with
  | none => none
  | some (first, t₁) =>
    if !first.isMember m then none
    else if rangeFollows m (skip m t₁) then
      match readMember m (skip m (skip m t₁).tail) with
      | none => none
      | some (last, rest) => if last.isMember m && isRange first last then some rest else none
    else some t₁

theorem length_readCaret_le (t : Text) : (readCaret t).2.length ≤ t.length := by
  cases t with
  | nil => simp [readCaret]
  | cons c t => by_cases h : c = '^' <;> simp [readCaret, h]

theorem length_lt_of_readNamed? {t rest : Text} {negated : Bool}
    (h : readNamed? t = some (negated, rest)) : rest.length < t.length := by
  cases t with
  | nil => simp [readNamed?] at h
  | cons c t =>
    simp only [readNamed?] at h
    split at h
    · simp at h
    · split at h
      · simp at h
      · rename_i name after hcut
        split at h
        · simp only [Option.some.injEq, Prod.mk.injEq] at h
          have h₁ := Text.length_lt_of_cutAt? hcut
          have h₂ := length_readCaret_le t
          have h₃ : after.tail.length ≤ after.length := by simp
          rw [← h.2, List.length_cons]
          omega
        · simp at h

theorem length_readHyphens_le (m : Modes) (t : Text) : (readHyphens m t).2.length ≤ t.length := by
  fun_induction readHyphens m t with
  | case1 => simp
  | case2 t count rest heq ih =>
    rw [heq] at ih
    exact Nat.le_succ_of_le (Nat.le_trans ih (length_skip_le m t))
  | case3 => simp

theorem length_readFirstBracket_le (m : Modes) (t : Text) :
    (readFirstBracket m t).2.length ≤ t.length := by
  cases t with
  | nil => simp [readFirstBracket]
  | cons c t =>
    rw [readFirstBracket]
    split
    · exact Nat.le_succ_of_le (length_skip_le m t)
    · exact Nat.le_refl _

theorem length_readFirstMembers_le (m : Modes) (t : Text) :
    (readFirstMembers m t).2.length ≤ t.length := by
  have hle := length_readHyphens_le m t
  unfold readFirstMembers
  split
  · rename_i rest heq
    rw [heq] at hle
    exact Nat.le_trans (length_readFirstBracket_le m rest) hle
  · exact hle

theorem length_le_of_readOpening? {m : Modes} {t rest : Text} {k : OpenClass}
    (h : readOpening? m t = some (k, rest)) : rest.length ≤ t.length := by
  simp only [readOpening?] at h
  split at h
  · simp at h
  · simp only [Option.some.injEq, Prod.mk.injEq] at h
    rw [← h.2]
    exact Nat.le_trans (length_readFirstMembers_le m _) <| Nat.le_trans (length_skip_le m _) <|
      Nat.le_trans (length_readCaret_le _) (length_skip_le m t)

theorem length_lt_of_readRange {m : Modes} {t rest : Text} (h : readRange m t = some rest) :
    rest.length < t.length := by
  unfold readRange at h
  split at h
  · simp at h
  · rename_i first t₁ hread
    have h₁ := length_lt_of_readMember hread
    split at h
    · simp at h
    · split at h
      · split at h
        · simp at h
        · rename_i last rest' hread'
          split at h
          · simp only [Option.some.injEq] at h
            have h₂ := length_lt_of_readMember hread'
            have h₃ := length_skip_le m (skip m t₁).tail
            have h₄ := length_skip_le m t₁
            have h₅ : (skip m t₁).tail.length ≤ (skip m t₁).length := by simp
            rw [← h]
            omega
          · simp at h
      · simp only [Option.some.injEq] at h
        rw [← h]
        exact h₁

def readClass (m : Modes) (k : OpenClass) (outer : List OpenClass) (t : Text) : Option (Nat × Text) :=
  match h : skip m t with
  | [] => none
  | c :: rest =>
    have hlt : rest.length < t.length := by
      have := length_skip_le m t
      rw [h] at this
      exact this
    if c = '[' then
      match hn : readNamed? rest with
      | some (negated, rest') =>
        have := length_lt_of_readNamed? hn
        if fitsNamed m negated then readClass m (k.add 0) outer rest' else none
      | none =>
        match ho : readOpening? m rest with
        | some (inner, rest') =>
          have := length_le_of_readOpening? ho
          readClass m inner (k :: outer) rest'
        | none => none
    else if c = ']' then
      match outer with
      | [] => some (k.depth, rest)
      | parent :: outer => readClass m (parent.add k.depth) outer rest
    else if (c = '&' ∨ c = '-' ∨ c = '~') ∧ rest.head? = some c then
      have : rest.tail.length ≤ rest.length := by simp
      readClass m k.join outer rest.tail
    else
      match hr : readRange m (c :: rest) with
      | some rest' =>
        have := Nat.le_of_lt_succ (length_lt_of_readRange hr)
        readClass m (k.add 0) outer rest'
      | none => none
termination_by t.length
decreasing_by all_goals omega

theorem length_le_of_readClass {m : Modes} {k : OpenClass} {outer : List OpenClass} {t rest : Text}
    {depth : Nat} (h : readClass m k outer t = some (depth, rest)) : rest.length ≤ t.length := by
  fun_induction readClass m k outer t with
  | case2 _ _ _ _ _ _ _ _ _ _ _ ih => exact Nat.le_trans (ih h) (by omega)
  | case4 _ _ _ _ _ _ _ _ _ _ _ ih => exact Nat.le_trans (ih h) (by omega)
  | case6 =>
    simp only [Option.some.injEq, Prod.mk.injEq] at h
    rw [← h.2]
    omega
  | case7 _ _ _ _ _ _ _ _ ih => exact Nat.le_trans (ih h) (by omega)
  | case8 _ _ _ _ _ _ _ _ _ _ _ ih => exact Nat.le_trans (ih h) (by omega)
  | case9 _ _ _ _ _ _ _ _ _ _ _ _ _ ih => exact Nat.le_trans (ih h) (by omega)
  | case1 | case3 | case5 | case10 => simp at h

def readBracketed (m : Modes) (t : Text) : Option (Nat × Text) :=
  match readOpening? m t with
  | none => none
  | some (k, rest) => readClass m k [] rest

theorem length_le_of_readBracketed {m : Modes} {t rest : Text} {depth : Nat}
    (h : readBracketed m t = some (depth, rest)) : rest.length ≤ t.length := by
  unfold readBracketed at h
  split at h
  · simp at h
  · rename_i hopen
    exact Nat.le_trans (length_le_of_readClass h) (length_le_of_readOpening? hopen)

end Pattern

end FileFerry
