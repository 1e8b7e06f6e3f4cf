import FileFerry.CommandLine.Help

/-! How a program that does not get to its work ends. -/

set_option autoImplicit false

namespace FileFerry

/-- What a program leaves behind: its exit code, and what it showed as output and as errors. -/
structure Exit where
  code : UInt8
  output : Text
  errors : Text
  deriving DecidableEq, Repr

namespace Exit

def success (output : Text) : Exit := ⟨0, output, []⟩

def failure (code : UInt8) (errors : Text) : Exit := ⟨code, [], errors⟩

/-- The end of a program that refuses its command line; `code` is for one that is wrong. -/
def ofRefusal {σ : Type} (program : Program σ) (code : UInt8) : Refusal → Exit
  | .help => success program.help
  | .version => success program.versionLine
  | .error e => failure code e.notice

end Exit

end FileFerry
