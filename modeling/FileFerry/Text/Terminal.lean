import FileFerry.Text.Utf8

/-! Text that is safe to show on a terminal. Control characters are left out, tab and the line ends
apart, and so are whole control sequences: an escape and what it commands. Sequences are made of ASCII
characters; any other inside of one is passed over. -/

set_option autoImplicit false

namespace FileFerry

namespace Text

/-- Where in a control sequence a character stands. -/
inductive ControlState where
  | outside
  | escape
  /-- Behind an escape and one of the characters that call for another one. -/
  | escapeTail
  | parameters
  /-- In a string that a bell ends. -/
  | titleString
  /-- At the beginning of a string for a device. -/
  | deviceStart
  | deviceParameters
  /-- Behind its parameters, where its kind is told. -/
  | deviceKind
  /-- In a string that a string terminator ends. -/
  | deviceString
  deriving DecidableEq, Repr

def isShownControl (c : Char) : Bool := c == '\t' || c == '\n' || c == '\r' || c == '\x0c'

def isCancel (c : Char) : Bool := c == '\x18' || c == '\x1a'

/-- The byte that ends a string for a device. It is looked for byte by byte, so a character whose
UTF-8 form has this byte ends the string as well. -/
def stringTerminator : UInt8 := 0x9C

def ControlState.next (state : ControlState) (c : Char) : ControlState :=
  let n := c.toNat
  if c = '\x1b' then escape
  else if isCancel c then outside
  else if 0x80 ≤ n then
    if state = deviceString ∧ stringTerminator ∈ Utf8.encodeChar c then outside else state
  else if n < 0x20 ∨ n = 0x7f then
    if state = titleString ∧ n = 7 then outside else state
  else match state with
    | outside => outside
    | escape =>
      if n < 0x30 then escapeTail
      else if c = '[' then parameters
      else if c = ']' then titleString
      else if c = 'P' then deviceStart
      else if c = 'X' ∨ c = '^' ∨ c = '_' then deviceString
      else outside
    | escapeTail => if n < 0x30 then escapeTail else outside
    | parameters => if n < 0x40 then parameters else outside
    | titleString => titleString
    | deviceStart =>
      if n < 0x30 then deviceKind else if n < 0x40 then deviceParameters else deviceString
    | deviceParameters =>
      if n < 0x30 then deviceKind else if n < 0x3c then deviceParameters else deviceString
    | deviceKind => if n < 0x30 then deviceKind else deviceString
    | deviceString => deviceString

/-- Whether a character that stands at `state` is shown. A line end or a tab inside the parameters of
a sequence is. -/
def ControlState.shows (state : ControlState) (c : Char) : Bool :=
  match state with
  | outside => (0x20 ≤ c.toNat && c.toNat ≠ 0x7f) || isShownControl c
  | escape | escapeTail | parameters => isShownControl c
  | titleString | deviceStart | deviceParameters | deviceKind | deviceString => false

/-- The characters that are shown. One that is ends the sequence it stands in. -/
def shownFrom (state : ControlState) : Text → Text
  | [] => []
  | c :: t =>
    if state.shows c then c :: shownFrom .outside t else shownFrom (state.next c) t

def withoutControls (t : Text) : Text := shownFrom .outside t

theorem withoutControls_eq_self {t : Text} (h : ∀ c ∈ t, ControlState.outside.shows c = true) :
    withoutControls t = t := by
  unfold withoutControls
  induction t with
  | nil => rfl
  | cons c t ih =>
    rw [shownFrom, if_pos (h c (by simp)), ih fun x hx => h x (by simp [hx])]

end Text

end FileFerry
