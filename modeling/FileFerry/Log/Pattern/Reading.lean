import FileFerry.Log.Pattern.Bracket
import FileFerry.Text.Alphanumeric

/-! Reading a pattern as a whole: alternatives, repetitions, groups and changes of modes. A change of
modes lasts to the end of the group it stands in, over the alternatives that follow. The braces of a
count never close, since a field ends at the first closing brace; so an opening brace that is not
escaped makes no pattern. -/

set_option autoImplicit false

namespace FileFerry

namespace Pattern

structure Outer where
  modes : Modes
  alternatives : List Part
  parts : List Part

structure Draft where
  modes : Modes
  /-- The complete alternatives of the innermost open group. -/
  alternatives : List Part
  parts : List Part
  names : List Text
  outer : List Outer

namespace Draft

def start : Draft := ⟨.initial, [], [], [], []⟩

def add (r : Draft) (p : Part) : Draft := { r with parts := p :: r.parts }

def content (r : Draft) : Part :=
  match r.alternatives with
  | [] => Part.sequence r.parts
  | _ => Part.around (Part.sequence r.parts :: r.alternatives)

def endAlternative (r : Draft) : Draft :=
  { r with alternatives := Part.sequence r.parts :: r.alternatives, parts := [] }

def openGroup (r : Draft) (modes : Modes) (names : List Text) : Draft :=
  ⟨modes, [], [], names, ⟨r.modes, r.alternatives, r.parts⟩ :: r.outer⟩

def closeGroup? (r : Draft) : Option Draft :=
  match r.outer with
  | [] => none
  | o :: outer =>
    some ⟨o.modes, o.alternatives, Part.around [r.content] :: o.parts, r.names, outer⟩

def repeatLast? (r : Draft) : Option Draft :=
  match r.parts with
  | [] => none
  | p :: parts => if p.isRepeatable then some { r with parts := Part.around [p] :: parts } else none

def finish? (r : Draft) : Option Part :=
  match r.outer with
  | [] => some r.content
  | _ => none

end Draft

inductive Opening where
  /-- It only changes the modes and closes at once. -/
  | change (modes : Modes)
  | group (modes : Modes) (name : Option Text)

def beginsGroupName (c : Char) : Bool := c == '_' || Text.isAlphabetic c

def continuesGroupName (c : Char) : Bool :=
  c == '_' || c == '.' || c == '[' || c == ']' || Text.isAlphanumeric c

def isGroupName : Text → Bool
  | [] => false
  | c :: t => beginsGroupName c && t.all continuesGroupName

/-- Reads letters that switch modes on, or off behind a hyphen, up to a colon or a parenthesis. -/
def readModes (m : Modes) (on off : Text) (negated : Bool) : Text → Option (Opening × Text)
  | [] => none
  | c :: t =>
    if c = ':' ∨ c = ')' then
      if negated ∧ off = [] then none
      else if c = ':' then some (.group (m.change on off) none, t)
      else if on = [] ∧ off = [] then none
      else some (.change (m.change on off), t)
    else if c = '-' then if negated then none else readModes m on off true t
    else if c ∉ Modes.letters ∨ c ∈ on ∨ c ∈ off then none
    else if negated then readModes m on (c :: off) negated t
    else readModes m (c :: on) off negated t

def readName (m : Modes) (t : Text) : Option (Opening × Text) :=
  match Text.cutAt? '>' t with
  | none => none
  | some (name, rest) => if isGroupName name then some (.group m (some name), rest) else none

def readParenthesis (m : Modes) (t : Text) : Option (Opening × Text) :=
  match skip m t with
  | '?' :: 'P' :: '<' :: rest => readName m rest
  | '?' :: '<' :: rest => readName m rest
  | '?' :: rest => readModes m [] [] false rest
  | rest => some (.group m none, rest)

/-- A question mark behind a repetition only says which match to prefer. -/
def dropPreference : Text → Text
  | [] => []
  | c :: t => if c = '?' then t else c :: t

/-- Applies the opening of a parenthesis; two groups cannot have one name. -/
def Draft.enter? (r : Draft) : Opening → Option Draft
  | .change modes => some (Draft.add { r with modes } .nothing)
  | .group modes none => some (r.openGroup modes r.names)
  | .group modes (some name) =>
    if r.names.contains name then none else some (r.openGroup modes (name :: r.names))

def Draft.addAtom? (r : Draft) (atom : Atom) : Option Draft := (atom.part? r.modes).map r.add

def readPart (r : Draft) (c : Char) (rest : Text) : Option (Draft × Text) :=
  if c = '(' then
    match readParenthesis r.modes rest with
    | none => none
    | some (opening, rest) => (r.enter? opening).map fun r => (r, rest)
  else if c = '[' then
    match readBracketed r.modes rest with
    | none => none
    | some (depth, rest) => some (r.add { Part.leaf with depth }, rest)
  else if c = '\\' then
    match readEscaped r.modes rest with
    | none => none
    | some (atom, rest) => (r.addAtom? atom).map fun r => (r, rest)
  else if c = ')' then r.closeGroup?.map fun r => (r, rest)
  else if c = '|' then some (r.endAlternative, rest)
  else if c = '*' ∨ c = '+' ∨ c = '?' then r.repeatLast?.map fun r => (r, dropPreference rest)
  else if c = '{' then none
  else
    let atom := if c = '.' then .anyChar else if c = '^' ∨ c = '$' then .lineEdge else .char c false
    (r.addAtom? atom).map fun r => (r, rest)

theorem length_le_of_readModes {m : Modes} {on off t rest : Text} {negated : Bool} {o : Opening}
    (h : readModes m on off negated t = some (o, rest)) : rest.length ≤ t.length := by
  fun_induction readModes m on off negated t with
  | case3 | case5 =>
    simp only [Option.some.injEq, Prod.mk.injEq] at h
    simp [← h.2]
  | case7 _ _ _ _ _ _ ih => exact Nat.le_succ_of_le (ih h)
  | case9 _ _ _ _ _ _ _ ih => exact Nat.le_succ_of_le (ih h)
  | case10 _ _ _ _ _ _ _ _ _ ih => exact Nat.le_succ_of_le (ih h)
  | case1 | case2 | case4 | case6 | case8 => simp at h

theorem length_le_of_readName {m : Modes} {t rest : Text} {o : Opening}
    (h : readName m t = some (o, rest)) : rest.length ≤ t.length := by
  unfold readName at h
  split at h
  · simp at h
  · rename_i hcut
    split at h
    · simp only [Option.some.injEq, Prod.mk.injEq] at h
      rw [← h.2]
      exact Nat.le_of_lt (Text.length_lt_of_cutAt? hcut)
    · simp at h

theorem length_le_of_readParenthesis {m : Modes} {t rest : Text} {o : Opening}
    (h : readParenthesis m t = some (o, rest)) : rest.length ≤ t.length := by
  have hle := length_skip_le m t
  unfold readParenthesis at h
  split at h
  · rename_i heq
    rw [heq] at hle
    have := length_le_of_readName h
    simp only [List.length_cons] at hle
    omega
  · rename_i heq
    rw [heq] at hle
    have := length_le_of_readName h
    simp only [List.length_cons] at hle
    omega
  · rename_i heq
    rw [heq] at hle
    have := length_le_of_readModes h
    simp only [List.length_cons] at hle
    omega
  · simp only [Option.some.injEq, Prod.mk.injEq] at h
    rw [← h.2]
    exact hle

theorem length_dropPreference_le (t : Text) : (dropPreference t).length ≤ t.length := by
  cases t with
  | nil => simp [dropPreference]
  | cons c t => by_cases h : c = '?' <;> simp [dropPreference, h]

theorem eq_of_map_pair {r' : Draft} {o : Option Draft} {rest rest' : Text}
    (h : (o.map fun r => (r, rest)) = some (r', rest')) : rest' = rest := by
  obtain ⟨_, _, heq⟩ := Option.map_eq_some_iff.mp h
  exact (Prod.mk.inj heq).2.symm

theorem length_le_of_readPart {r r' : Draft} {c : Char} {rest rest' : Text}
    (h : readPart r c rest = some (r', rest')) : rest'.length ≤ rest.length := by
  unfold readPart at h
  split at h
  · split at h
    · simp at h
    · rename_i hread
      rw [eq_of_map_pair h]
      exact length_le_of_readParenthesis hread
  · split at h
    · split at h
      · simp at h
      · rename_i hread
        rw [← (Prod.mk.inj (Option.some.inj h)).2]
        exact length_le_of_readBracketed hread
    · split at h
      · split at h
        · simp at h
        · rename_i hread
          rw [eq_of_map_pair h]
          exact Nat.le_of_lt (length_lt_of_readEscaped hread)
      · split at h
        · exact Nat.le_of_eq (congrArg List.length (eq_of_map_pair h))
        · split at h
          · exact Nat.le_of_eq (congrArg List.length (Prod.mk.inj (Option.some.inj h)).2.symm)
          · split at h
            · rw [eq_of_map_pair h]
              exact length_dropPreference_le rest
            · split at h
              · simp at h
              · exact Nat.le_of_eq (congrArg List.length (eq_of_map_pair h))

def readFrom (r : Draft) (t : Text) : Option Part :=
  match h : skip r.modes t with
  | [] => r.finish?
  | c :: rest =>
    match hp : readPart r c rest with
    | none => none
    | some (r', rest') =>
      have : rest'.length < t.length := by
        have h₁ := length_le_of_readPart hp
        have h₂ := length_skip_le r.modes t
        rw [h, List.length_cons] at h₂
        omega
      readFrom r' rest'
termination_by t.length

def read? (t : Text) : Option Part := readFrom .start t

def check (t : Text) : Except PatternError Unit :=
  match read? t with
  | none => .error .unbuildable
  | some p =>
    if maxDepth < p.depth then .error .unbuildable
    else if p.seeksWordEdge then .error .wordEdge
    else .ok ()

end Pattern

end FileFerry
