import FileFerry.Proofs.Commands
import FileFerry.Wire.Response

/-!
# Responses and their lines

A line is read as a framed response exactly if it begins with the name of a status and a colon. What is
read of a line is stable: it has nothing in it that writing and reading it once more would take away. So
reading a line normalises it once and for all, and the stable responses are those that a line
carries unchanged (`lines_carry_stable_responses`).
-/

set_option autoImplicit false

namespace FileFerry

namespace Text

/-- The text does not end in a carriage return or a newline. -/
def EndsOpen (t : Text) : Prop := t.getLast? ≠ some '\r' ∧ t.getLast? ≠ some '\n'

instance (t : Text) : Decidable (EndsOpen t) := inferInstanceAs (Decidable (_ ∧ _))

theorem endsOpen_iff {t : Text} : EndsOpen t ↔ ∀ c, t.getLast? = some c → isLineEnd c = false := by
  constructor
  · rintro ⟨hreturn, hnewline⟩ c hc
    rw [hc] at hreturn hnewline
    simpa [isLineEnd] using And.intro hreturn hnewline
  · intro h
    constructor
    · intro hlast
      exact absurd (h _ hlast) (by decide)
    · intro hlast
      exact absurd (h _ hlast) (by decide)

theorem trimLineEnd_concat_newline (t : Text) : trimLineEnd (t ++ ['\n']) = trimLineEnd t := by
  rw [trimLineEnd, trimLineEnd, dropEndWhile_eq, dropEndWhile_eq]
  exact List.rdropWhile_concat_pos isLineEnd t '\n' (by decide)

theorem trimLineEnd_eq_self {t : Text} (h : EndsOpen t) : trimLineEnd t = t := by
  rw [trimLineEnd, dropEndWhile_eq, List.rdropWhile_eq_self_iff]
  intro hne
  rw [endsOpen_iff.mp h _ (List.getLast?_eq_some_getLast hne)]
  decide

theorem endsOpen_trimLineEnd (t : Text) : EndsOpen (trimLineEnd t) := by
  rw [endsOpen_iff]
  intro c hc
  exact getLast?_dropEndWhile_not isLineEnd t hc

/-- The end of a text is that of what was put before it. -/
theorem EndsOpen.append {t : Text} (h : EndsOpen t) {start : Text} (hstart : EndsOpen start) :
    EndsOpen (start ++ t) := by
  rcases eq_or_ne t [] with rfl | hne
  · rwa [List.append_nil]
  · unfold EndsOpen
    rwa [List.getLast?_append_of_ne_nil start hne]

theorem EndsOpen.of_suffix {t whole : Text} (h : EndsOpen whole) (hsuffix : t <:+ whole) : EndsOpen t := by
  obtain ⟨start, rfl⟩ := hsuffix
  rcases eq_or_ne t [] with rfl | hne
  · exact ⟨by simp, by simp⟩
  · unfold EndsOpen at h
    rwa [List.getLast?_append_of_ne_nil start hne] at h

theorem trimStart_eq_self {t : Text} (h : ∀ c, t.head? = some c → isBlank c = false) : trimStart t = t := by
  cases t with
  | nil => rfl
  | cons c t => exact List.dropWhile_cons_of_neg (by simp [h c rfl])

end Text

namespace Response

/-- The beginning of a framed line. -/
def opening (status : Status) : Text := status.name ++ [':']

theorem afterStatus?_eq_some_iff {status : Status} {line rest : Text} :
    afterStatus? status line = some rest ↔ line = opening status ++ rest := by
  unfold afterStatus? Text.stripStart?
  rw [← opening]
  constructor
  · intro h
    split at h
    · rename_i hprefix
      obtain ⟨after, rfl⟩ := List.isPrefixOf_iff_prefix.mp hprefix
      rw [List.drop_left] at h
      rw [Option.some.inj h]
    · cases h
  · rintro rfl
    rw [if_pos (List.isPrefixOf_iff_prefix.mpr (List.prefix_append _ rest)), List.drop_left]

theorem afterStatus?_eq_none_iff {status : Status} {line : Text} :
    afterStatus? status line = none ↔ ¬ opening status <+: line := by
  rw [Option.eq_none_iff_forall_ne_some]
  constructor
  · rintro h ⟨rest, rfl⟩
    exact h rest (afterStatus?_eq_some_iff.mpr rfl)
  · intro h rest hrest
    exact h ⟨rest, (afterStatus?_eq_some_iff.mp hrest).symm⟩

/-- No line begins with both statuses. -/
theorem opening_unique {status status' : Status} {rest rest' : Text}
    (h : opening status ++ rest = opening status' ++ rest') : status = status' := by
  cases status <;> cases status'
  · rfl
  · exact absurd (List.cons.inj h).1 (by decide)
  · exact absurd (List.cons.inj h).1 (by decide)
  · rfl

/-! ## Reading -/

theorem ofLine_of_opening {line rest : Text} {status : Status}
    (h : Text.trimLineEnd line = opening status ++ rest) :
    ofLine line = .framed status (Text.trimStart rest) := by
  have hsome := afterStatus?_eq_some_iff.mpr h
  unfold ofLine
  dsimp only
  cases status with
  | success => rw [hsome]
  | error =>
    have hnone : afterStatus? .success (Text.trimLineEnd line) = none := by
      rw [afterStatus?_eq_none_iff]
      rintro ⟨rest', h'⟩
      exact absurd (opening_unique (h'.trans h)) (by decide)
    rw [hnone, hsome]

theorem ofLine_of_no_opening {line : Text} (h : ∀ status, ¬ opening status <+: Text.trimLineEnd line) :
    ofLine line = .bare (Text.trimLineEnd line) := by
  have hnone (status : Status) : afterStatus? status (Text.trimLineEnd line) = none :=
    afterStatus?_eq_none_iff.mpr (h status)
  unfold ofLine
  dsimp only
  rw [hnone .success, hnone .error]

/-- A response in which reading finds nothing to take away: neither blanks before the message nor the
end of a line behind it, and no status in front of a bare text. -/
def IsStable : Response → Prop
  | framed _ message => (∀ c, message.head? = some c → Text.isBlank c = false) ∧ Text.EndsOpen message
  | bare line => Text.EndsOpen line ∧ ¬ text "SUCCESS:" <+: line ∧ ¬ text "ERROR:" <+: line

theorem isStable_bare {line : Text} (h : Text.EndsOpen line) (hno : ∀ status, ¬ opening status <+: line) :
    IsStable (.bare line) := ⟨h, hno .success, hno .error⟩

/-- What is read of a line is stable. -/
theorem isStable_ofLine (line : Text) : IsStable (ofLine line) := by
  have hopen := Text.endsOpen_trimLineEnd line
  by_cases h : ∃ status, opening status <+: Text.trimLineEnd line
  · obtain ⟨status, rest, hrest⟩ := h
    rw [ofLine_of_opening hrest.symm]
    refine ⟨fun _ => Text.head?_trimStart_not_blank rest, hopen.of_suffix ?_⟩
    rw [← hrest]
    exact (List.dropWhile_suffix Text.isBlank).trans (List.suffix_append _ rest)
  · rw [not_exists] at h
    rw [ofLine_of_no_opening h]
    exact isStable_bare hopen h

/-- A stable response is read back from its line. -/
theorem ofLine_toLine_of_isStable {r : Response} (h : IsStable r) : ofLine r.toLine = r := by
  cases r with
  | framed status message =>
    obtain ⟨hhead, hopen⟩ := h
    have hrender : render (.framed status message) = opening status ++ (' ' :: message) := by
      simp only [render, opening, List.append_assoc]
      rfl
    have hstart : Text.EndsOpen (opening status ++ [' ']) := by cases status <;> decide
    have hline : Text.EndsOpen (opening status ++ (' ' :: message)) := by
      rw [List.append_cons]
      exact hopen.append hstart
    have htrim : Text.trimLineEnd (toLine (.framed status message)) = opening status ++ (' ' :: message) := by
      rw [toLine, Text.trimLineEnd_concat_newline, hrender, Text.trimLineEnd_eq_self hline]
    have hmessage : Text.trimStart (' ' :: message) = message := by
      rw [Text.trimStart, List.dropWhile_cons_of_pos (by decide)]
      exact Text.trimStart_eq_self hhead
    rw [ofLine_of_opening htrim, hmessage]
  | bare line =>
    obtain ⟨hopen, hsuccess, herror⟩ := h
    have htrim : Text.trimLineEnd (toLine (.bare line)) = line := by
      rw [toLine, render, Text.trimLineEnd_concat_newline, Text.trimLineEnd_eq_self hopen]
    have hno : ∀ status, ¬ opening status <+: Text.trimLineEnd (toLine (.bare line)) := by
      intro status
      rw [htrim]
      cases status with
      | success => exact hsuccess
      | error => exact herror
    rw [ofLine_of_no_opening hno, htrim]

/-- Reading normalises a line once and for all, and the responses that come back from their lines unchanged
are the stable ones. -/
theorem lines_carry_stable_responses :
    (∀ line : Text, ofLine (ofLine line).toLine = ofLine line) ∧
      ∀ r : Response, ofLine r.toLine = r ↔ r.IsStable := by
  constructor
  · intro line
    exact ofLine_toLine_of_isStable (isStable_ofLine line)
  · intro r
    constructor
    · intro h
      rw [← h]
      exact isStable_ofLine r.toLine
    · exact ofLine_toLine_of_isStable

end Response

end FileFerry
