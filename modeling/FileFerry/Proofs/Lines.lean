import FileFerry.Proofs.Utf8
import FileFerry.Wire.Line

/-!
# Lines of bytes

The cut at the first newline, and what becomes of the line of a text on its way through bytes.
-/

set_option autoImplicit false

namespace FileFerry

theorem cutAtNewline?_eq_none_iff {b : Bytes} : cutAtNewline? b = none ↔ newline ∉ b := by
  induction b with
  | nil => simp [cutAtNewline?]
  | cons c b ih =>
    rw [cutAtNewline?]
    split
    · rename_i h
      simp [h]
    · rename_i h
      simp [ih, Ne.symm h]

theorem cutAtNewline?_line {line : Bytes} (h : newline ∉ line) (rest : Bytes) :
    cutAtNewline? (line ++ newline :: rest) = some (line, rest) := by
  induction line with
  | nil => simp [cutAtNewline?]
  | cons c line ih =>
    obtain ⟨hc, hline⟩ := not_or.mp (List.mem_cons.not.mp h)
    rw [List.cons_append, cutAtNewline?, if_neg (Ne.symm hc), ih hline]
    rfl

theorem cutAtNewline?_eq_some_iff {b line rest : Bytes} :
    cutAtNewline? b = some (line, rest) ↔ newline ∉ line ∧ b = line ++ newline :: rest := by
  constructor
  · intro h
    induction b generalizing line with
    | nil => cases h
    | cons c b ih =>
      rw [cutAtNewline?] at h
      split at h
      · rename_i hc
        obtain ⟨rfl, rfl⟩ := Prod.mk.inj (Option.some.inj h)
        simp [hc]
      · rename_i hc
        obtain ⟨⟨before, after⟩, hcut, heq⟩ := Option.map_eq_some_iff.mp h
        obtain ⟨rfl, rfl⟩ := Prod.mk.inj heq
        obtain ⟨hn, rfl⟩ := ih hcut
        exact ⟨by simp [hn, Ne.symm hc], rfl⟩
  · rintro ⟨hn, rfl⟩
    exact cutAtNewline?_line hn rest

/-- The first newline is where it is whatever follows. -/
theorem cutAtNewline?_append {b line after : Bytes} (h : cutAtNewline? b = some (line, after)) (rest : Bytes) :
    cutAtNewline? (b ++ rest) = some (line, after ++ rest) := by
  obtain ⟨hline, rfl⟩ := cutAtNewline?_eq_some_iff.mp h
  rw [List.append_assoc, List.cons_append]
  exact cutAtNewline?_line hline _

/-- Bytes without a newline belong to the line that follows. -/
theorem length_le_of_cutAtNewline? {start rest line after : Bytes} (hstart : newline ∉ start)
    (h : cutAtNewline? (start ++ rest) = some (line, after)) : start.length ≤ line.length := by
  obtain ⟨_, heq⟩ := cutAtNewline?_eq_some_iff.mp h
  rcases List.append_eq_append_iff.mp heq with ⟨more, rfl, _⟩ | ⟨more, rfl, hmore⟩
  · simp
  · cases more with
    | nil => simp
    | cons b more =>
      obtain rfl : newline = b := (List.cons.inj hmore).1
      simp at hstart

theorem dropCarriageReturn_encode {t : Text} (h : t.getLast? ≠ some '\r') :
    dropCarriageReturn (Utf8.encode t) = Utf8.encode t :=
  if_neg (Utf8.getLast?_encode_ne h)

/-! ## Lines of text -/

def lineBytes (line : Text) : Bytes := Utf8.encode (line ++ ['\n'])

theorem lineBytes_eq (line : Text) : lineBytes line = Utf8.encode line ++ [newline] :=
  Utf8.encode_append line ['\n']

theorem lineBytes_ne_nil (line : Text) : lineBytes line ≠ [] := by
  rw [lineBytes_eq]
  simp

theorem lineBytes_inj {line line' : Text} : lineBytes line = lineBytes line' ↔ line = line' := by
  constructor
  · intro h
    have htext := congrArg Utf8.decodeLossy h
    rw [lineBytes, lineBytes, Utf8.decodeLossy_encode, Utf8.decodeLossy_encode] at htext
    exact List.append_cancel_right htext
  · rintro rfl
    rfl

end FileFerry
