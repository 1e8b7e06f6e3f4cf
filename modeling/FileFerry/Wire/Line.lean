import FileFerry.Text.Utf8

/-! Lines in a byte stream: the cut at the first newline, and the carriage return before it. -/

set_option autoImplicit false

namespace FileFerry

def newline : UInt8 := 10

def carriageReturn : UInt8 := 13

def cutAtNewline? : Bytes → Option (Bytes × Bytes)
  | [] => none
  | b :: rest =>
    if b = newline then some ([], rest)
    else (cutAtNewline? rest).map fun (before, after) => (b :: before, after)

def dropCarriageReturn (line : Bytes) : Bytes :=
  if line.getLast? = some carriageReturn then line.dropLast else line

theorem length_lt_of_cutAtNewline? {b before after : Bytes} (h : cutAtNewline? b = some (before, after)) :
    after.length < b.length := by
  induction b generalizing before with
  | nil => simp [cutAtNewline?] at h
  | cons c cs ih =>
    simp only [cutAtNewline?] at h
    split at h
    · obtain ⟨rfl, rfl⟩ : [] = before ∧ cs = after := by simpa using h
      simp
    · obtain ⟨⟨p, q⟩, hpq, heq⟩ := Option.map_eq_some_iff.mp h
      obtain ⟨rfl, rfl⟩ : c :: p = before ∧ q = after := by simpa using heq
      have := ih hpq
      simp only [List.length_cons]
      omega

end FileFerry
