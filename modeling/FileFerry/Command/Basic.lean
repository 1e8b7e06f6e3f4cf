import FileFerry.Text.Basic

/-! Command lines: a verb and an argument, and the verbs that are known. -/

set_option autoImplicit false

namespace FileFerry

/-- A command line taken apart. The argument may hold blanks inside and may be empty. -/
structure Command where
  name : Text
  argument : Text
  deriving DecidableEq, Repr

def Command.ofLine? (line : Text) : Option Command :=
  match Text.trim line with
  | [] => none
  | c :: cs => some ⟨Text.firstWord (c :: cs), Text.afterFirstWord (c :: cs)⟩

inductive Verb where
  | pwd
  | ls
  | cd
  | mkdir
  | delete
  | get
  | put
  | quit
  deriving DecidableEq, Repr

namespace Verb

def all : List Verb := [pwd, ls, cd, mkdir, delete, get, put, quit]

def name : Verb → Text
  | pwd => text "pwd"
  | ls => text "ls"
  | cd => text "cd"
  | mkdir => text "mkdir"
  | delete => text "delete"
  | get => text "get"
  | put => text "put"
  | quit => text "quit"

theorem mem_all (v : Verb) : v ∈ all := by cases v <;> decide

/-- The verb with exactly this name. -/
def ofName? (name : Text) : Option Verb := all.find? fun v => v.name = name

end Verb

end FileFerry
