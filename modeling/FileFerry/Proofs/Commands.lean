import FileFerry.Command.Basic
import FileFerry.Proofs.Lines
import Mathlib.Data.List.DropRight
import Mathlib.Data.List.TakeWhile

/-!
# Command lines

A trimmed text has no blank at either end. Trimming it again changes nothing, so both ends of a
connection take the same command from a line. A line is split into a name and an argument in the only way
in which it can be (`Command.ofLine?_eq_some_iff`).
-/

set_option autoImplicit false

namespace FileFerry

namespace Text

theorem dropEndWhile_eq (p : Char → Bool) (t : Text) : dropEndWhile p t = t.rdropWhile p := rfl

theorem head?_trimStart_not_blank (t : Text) {c : Char} (h : (trimStart t).head? = some c) :
    isBlank c = false := by
  have hnot := List.head?_dropWhile_not isBlank t
  rw [trimStart] at h
  rw [h] at hnot
  exact hnot

theorem getLast?_dropEndWhile_not (p : Char → Bool) (t : Text) {c : Char}
    (h : (dropEndWhile p t).getLast? = some c) : p c = false := by
  have hne : dropEndWhile p t ≠ [] := by
    intro hnil
    rw [hnil] at h
    cases h
  have hlast := List.rdropWhile_last_not p t hne
  have heq : (dropEndWhile p t).getLast hne = c := by
    rw [List.getLast?_eq_some_getLast hne] at h
    exact Option.some.inj h
  change ¬ p ((dropEndWhile p t).getLast hne) = true at hlast
  rw [heq] at hlast
  simpa using hlast

/-- Without its ends a text still has no blank in front. -/
theorem head?_trim_not_blank (t : Text) {c : Char} (h : (trim t).head? = some c) : isBlank c = false := by
  obtain ⟨blanks, hprefix⟩ : trim t <+: trimStart t := by
    rw [trim, trimEnd, dropEndWhile_eq]
    exact List.rdropWhile_prefix isBlank _
  have hhead : (trimStart t).head? = some c := by
    rw [← hprefix, List.head?_append, h]
    rfl
  exact head?_trimStart_not_blank t hhead

theorem getLast?_trim_not_blank (t : Text) {c : Char} (h : (trim t).getLast? = some c) :
    isBlank c = false :=
  getLast?_dropEndWhile_not isBlank (trimStart t) h

theorem trim_eq_self {t : Text} (hhead : ∀ c, t.head? = some c → isBlank c = false)
    (hlast : ∀ c, t.getLast? = some c → isBlank c = false) : trim t = t := by
  have hstart : trimStart t = t := by
    cases t with
    | nil => rfl
    | cons c t => simp [trimStart, hhead c rfl]
  rw [trim, hstart, trimEnd, dropEndWhile_eq, List.rdropWhile_eq_self_iff]
  intro hne
  rw [hlast _ (List.getLast?_eq_some_getLast hne)]
  decide

theorem trim_trim (t : Text) : trim (trim t) = trim t :=
  trim_eq_self (fun _ => head?_trim_not_blank t) (fun _ => getLast?_trim_not_blank t)

theorem getLast?_ne_of_trim_eq {t : Text} (h : trim t = t) {c : Char} (hc : isBlank c = true) :
    t.getLast? ≠ some c := by
  intro hlast
  rw [← h] at hlast
  rw [getLast?_trim_not_blank t hlast] at hc
  cases hc

theorem trim_isInfix (t : Text) : trim t <:+: t := by
  have hprefix : trim t <+: trimStart t := by
    rw [trim, trimEnd, dropEndWhile_eq]
    exact List.rdropWhile_prefix isBlank _
  exact hprefix.isInfix.trans (List.dropWhile_suffix isBlank).isInfix

theorem newline_not_mem_trim {t : Text} (h : '\n' ∉ t.dropLast) : '\n' ∉ trim t := by
  intro hmem
  obtain ⟨before, after, heq⟩ := trim_isInfix t
  have hne : trim t ≠ [] := List.ne_nil_of_mem hmem
  have hlast : (trim t).getLast hne ≠ '\n' := by
    intro hlast
    have hblank := getLast?_trim_not_blank t (List.getLast?_eq_some_getLast hne)
    rw [hlast] at hblank
    revert hblank
    decide
  have hinit : '\n' ∈ (trim t).dropLast := by
    rw [← List.dropLast_append_getLast hne] at hmem
    rcases List.mem_append.mp hmem with hinit | hend
    · exact hinit
    · exact absurd (List.mem_singleton.mp hend).symm hlast
  apply h
  rw [← heq]
  by_cases hafter : after = []
  · subst hafter
    rw [List.append_nil, List.dropLast_append_of_ne_nil hne]
    exact List.mem_append_right _ hinit
  · rw [List.dropLast_append_of_ne_nil hafter]
    exact List.mem_append_left _ (List.mem_append_right _ hmem)

theorem trim_blank_cons {c : Char} (hc : isBlank c = true) (t : Text) : trim (c :: t) = trim t := by
  simp [trim, trimStart, hc]

theorem trim_of_blank {t : Text} (h : ∀ c ∈ t, isBlank c = true) : trim t = [] := by
  have hstart : trimStart t = [] := List.dropWhile_eq_nil_iff.mpr h
  rw [trim, hstart]
  rfl

/-- A text of blanks alone. -/
def IsBlanks (t : Text) : Prop := ∀ c ∈ t, isBlank c = true

theorem IsBlanks.append {t u : Text} (ht : IsBlanks t) (hu : IsBlanks u) : IsBlanks (t ++ u) := by
  intro c hc
  rcases List.mem_append.mp hc with hc | hc
  · exact ht c hc
  · exact hu c hc

theorem exists_trimEnd_append (t : Text) : ∃ behind, IsBlanks behind ∧ t = trimEnd t ++ behind := by
  refine ⟨t.rtakeWhile isBlank, ?_, ?_⟩
  · intro c hc
    exact List.mem_rtakeWhile_imp hc
  · rw [trimEnd, dropEndWhile_eq]
    exact (List.rdropWhile_append_rtakeWhile).symm

/-- Trimming takes off blanks and nothing else. -/
theorem exists_trim_between (t : Text) :
    ∃ before behind, IsBlanks before ∧ IsBlanks behind ∧ t = before ++ (trim t ++ behind) := by
  obtain ⟨behind, hbehind, hstart⟩ := exists_trimEnd_append (trimStart t)
  refine ⟨t.takeWhile isBlank, behind, ?_, hbehind, ?_⟩
  · intro c hc
    exact List.mem_takeWhile_imp hc
  · rw [trim, ← hstart, trimStart, List.takeWhile_append_dropWhile]

/-- Trimming takes off all blanks at both ends. -/
theorem trim_between {before t behind : Text} (hbefore : IsBlanks before) (hbehind : IsBlanks behind)
    (ht : trim t = t) : trim (before ++ (t ++ behind)) = t := by
  have hends : trimEnd (t ++ behind) = trimEnd t := by
    have hall : ∀ c ∈ behind.reverse, isBlank c = true := fun c hc => hbehind c (List.mem_reverse.mp hc)
    rw [trimEnd, trimEnd, dropEndWhile, dropEndWhile, List.reverse_append, List.dropWhile_append_of_pos hall]
  rw [trim, trimStart, List.dropWhile_append_of_pos hbefore]
  cases t with
  | nil => exact trim_of_blank hbehind
  | cons c t =>
    have hc : isBlank c = false := by
      apply head?_trim_not_blank (c :: t)
      rw [ht]
      rfl
    have hstart (rest : Text) : (c :: rest).dropWhile isBlank = c :: rest :=
      List.dropWhile_cons_of_neg (by simp [hc])
    rw [List.cons_append, hstart, ← List.cons_append, hends]
    rwa [trim, trimStart, hstart] at ht

theorem trim_append_blanks (t : Text) {behind : Text} (h : IsBlanks behind) : trim (t ++ behind) = trim t := by
  obtain ⟨before, more, hbefore, hmore, ht⟩ := exists_trim_between t
  conv => lhs; rw [ht, List.append_assoc, List.append_assoc]
  exact trim_between hbefore (hmore.append h) (trim_trim t)

theorem trim_trimEnd (t : Text) : trim (trimEnd t) = trim t := by
  obtain ⟨behind, hbehind, ht⟩ := exists_trimEnd_append t
  conv => rhs; rw [ht]
  exact (trim_append_blanks (trimEnd t) hbehind).symm

/-- Blanks behind a word are taken off without it. -/
theorem trimEnd_append {word : Text} (hword : ∀ c ∈ word, isBlank c = false) (after : Text) :
    trimEnd (word ++ after) = word ++ trimEnd after := by
  have hkept : word.reverse.dropWhile isBlank = word.reverse := by
    rw [List.dropWhile_eq_self_iff]
    intro hpos
    have hmem : word.reverse[0] ∈ word := List.mem_reverse.mp (List.getElem_mem hpos)
    rw [hword _ hmem]
    decide
  rw [trimEnd, trimEnd, dropEndWhile, dropEndWhile, List.reverse_append, List.dropWhile_append, hkept]
  split
  · rename_i hblank
    rw [List.isEmpty_iff.mp hblank]
    simp
  · simp

theorem head?_trimEnd {t : Text} {c : Char} (h : (trimEnd t).head? = some c) : t.head? = some c := by
  obtain ⟨blanks, hprefix⟩ : trimEnd t <+: t := by
    rw [trimEnd, dropEndWhile_eq]
    exact List.rdropWhile_prefix isBlank _
  rw [← hprefix, List.head?_append, h]
  rfl

section Request

variable {verb argument : Text} (hverb : ∀ c ∈ verb, isBlank c = false)

include hverb

theorem firstWord_request : firstWord (verb ++ ' ' :: argument) = verb := by
  have hall : ∀ c ∈ verb, (!isBlank c) = true := by
    intro c hc
    rw [hverb c hc]
    rfl
  rw [firstWord, List.takeWhile_append_of_pos hall, List.takeWhile_cons_of_neg (by decide),
    List.append_nil]

theorem afterFirstWord_request (hargument : trim argument = argument) :
    afterFirstWord (verb ++ ' ' :: argument) = argument := by
  have hall : ∀ c ∈ verb, (!isBlank c) = true := by
    intro c hc
    rw [hverb c hc]
    rfl
  rw [afterFirstWord, List.dropWhile_append_of_pos hall, List.dropWhile_cons_of_neg (by decide),
    trim_blank_cons (by decide), hargument]

theorem trim_request (hne : verb ≠ []) (harg : argument ≠ []) (hargument : trim argument = argument) :
    trim (verb ++ ' ' :: argument) = verb ++ ' ' :: argument := by
  apply trim_eq_self
  · intro c hc
    obtain ⟨v, vs, rfl⟩ := List.exists_cons_of_ne_nil hne
    obtain rfl : v = c := Option.some.inj hc
    exact hverb v List.mem_cons_self
  · intro c hc
    rw [List.getLast?_append_of_ne_nil _ (by simp), List.getLast?_cons_of_ne_nil harg] at hc
    rw [← hargument] at hc
    exact getLast?_trim_not_blank argument hc

end Request

end Text

/-- A text that stays what it is when it is sent as a line. -/
structure IsRequest (line : Text) : Prop where
  oneLine : '\n' ∉ line
  last : line.getLast? ≠ some '\r'

theorem isRequest_of_trim {line : Text} (htrim : Text.trim line = line) (h : '\n' ∉ line) :
    IsRequest line := ⟨h, Text.getLast?_ne_of_trim_eq htrim (by decide)⟩

theorem isRequest_named {name : Text} (verb : Text) (hverb : '\n' ∉ verb) (hne : name ≠ [])
    (htrim : Text.trim name = name) (hname : '\n' ∉ name) : IsRequest (verb ++ name) := by
  constructor
  · rw [List.mem_append]
    exact not_or.mpr ⟨hverb, hname⟩
  · rw [List.getLast?_append_of_ne_nil verb hne]
    exact Text.getLast?_ne_of_trim_eq htrim (by decide)

namespace IsRequest

variable {line : Text}

theorem newline_not_mem (h : IsRequest line) : newline ∉ Utf8.encode line :=
  Utf8.newline_not_mem_encode h.oneLine

theorem decodeLossy (h : IsRequest line) :
    Utf8.decodeLossy (dropCarriageReturn (Utf8.encode line)) = line := by
  rw [dropCarriageReturn_encode h.last, Utf8.decodeLossy_encode]

end IsRequest

/-- A verb, a blank and a trimmed name are taken apart again. -/
theorem Command.ofLine?_request {verb argument : Text} (hverb : ∀ c ∈ verb, Text.isBlank c = false)
    (hne : verb ≠ []) (harg : argument ≠ []) (hargument : Text.trim argument = argument) :
    Command.ofLine? (verb ++ ' ' :: argument) = some ⟨verb, argument⟩ := by
  have htrim := Text.trim_request hverb hne harg hargument
  unfold Command.ofLine?
  split
  · rename_i hnil
    rw [htrim] at hnil
    simp at hnil
  · rename_i c cs hcons
    rw [← hcons, htrim, Text.firstWord_request hverb, Text.afterFirstWord_request hverb hargument]

theorem Command.ofLine?_blank {line : Text} (h : ∀ c ∈ line, Text.isBlank c = true) :
    Command.ofLine? line = none := by
  simp only [ofLine?, Text.trim_of_blank h]

/-- The first word of a line is the name of its command, and what comes behind it the argument. -/
theorem Command.ofLine?_words {before word after : Text} (hbefore : ∀ c ∈ before, Text.isBlank c = true)
    (hne : word ≠ []) (hword : ∀ c ∈ word, Text.isBlank c = false)
    (hafter : ∀ c, after.head? = some c → Text.isBlank c = true) :
    Command.ofLine? (before ++ word ++ after) = some ⟨word, Text.trim (Text.trimEnd after)⟩ := by
  obtain ⟨w, ws, rfl⟩ := List.exists_cons_of_ne_nil hne
  have hw : ¬ Text.isBlank w = true := by
    rw [hword w List.mem_cons_self]
    decide
  have htrim : Text.trim (before ++ (w :: ws) ++ after) = (w :: ws) ++ Text.trimEnd after := by
    rw [Text.trim, Text.trimStart, List.append_assoc, List.dropWhile_append_of_pos hbefore, List.cons_append,
      List.dropWhile_cons_of_neg hw, ← List.cons_append, Text.trimEnd_append hword]
  have hall : ∀ c ∈ w :: ws, (!Text.isBlank c) = true := by
    intro c hc
    rw [hword c hc]
    rfl
  have hhead : ∀ c, (Text.trimEnd after).head? = some c → ¬ (!Text.isBlank c) = true := by
    intro c hc
    rw [hafter c (Text.head?_trimEnd hc)]
    decide
  have hfirst : Text.firstWord ((w :: ws) ++ Text.trimEnd after) = w :: ws := by
    rw [Text.firstWord, List.takeWhile_append_of_pos hall]
    cases hend : Text.trimEnd after with
    | nil => simp
    | cons c cs => 
      have hblank := hhead c (by rw [hend]; rfl)
      rw [List.takeWhile_cons_of_neg (p := fun c => !Text.isBlank c) hblank, List.append_nil]
  have hrest : Text.afterFirstWord ((w :: ws) ++ Text.trimEnd after) = Text.trim (Text.trimEnd after) := by
    rw [Text.afterFirstWord, List.dropWhile_append_of_pos hall]
    cases hend : Text.trimEnd after with
    | nil => rfl
    | cons c cs => 
      have hblank := hhead c (by rw [hend]; rfl)
      rw [List.dropWhile_cons_of_neg (p := fun c => !Text.isBlank c) hblank]
  rw [ofLine?, htrim]
  have hparts : some (⟨Text.firstWord ((w :: ws) ++ Text.trimEnd after),
      Text.afterFirstWord ((w :: ws) ++ Text.trimEnd after)⟩ : Command) =
        some ⟨w :: ws, Text.trim (Text.trimEnd after)⟩ := by rw [hfirst, hrest]
  exact hparts

/-- The line is the name and the argument of the command with blanks before, between and behind them. -/
structure Command.Spells (command : Command) (line w₁ w₂ w₃ : Text) : Prop where
  parts : line = w₁ ++ command.name ++ (w₂ ++ command.argument ++ w₃)
  before : Text.IsBlanks w₁
  between : Text.IsBlanks w₂
  behind : Text.IsBlanks w₃
  name_ne : command.name ≠ []
  name : ∀ c ∈ command.name, Text.isBlank c = false
  head : ∀ c, command.argument.head? = some c → Text.isBlank c = false
  last : ∀ c, command.argument.getLast? = some c → Text.isBlank c = false
  parted : command.argument ≠ [] → w₂ ≠ []

namespace Command

variable {line w₁ w₂ w₃ : Text} {command : Command}

theorem Spells.ofLine? (h : command.Spells line w₁ w₂ w₃) : ofLine? line = some command := by
  have hargument : Text.trim command.argument = command.argument := Text.trim_eq_self h.head h.last
  have hafter : ∀ c, (w₂ ++ command.argument ++ w₃).head? = some c → Text.isBlank c = true := by
    intro c hc
    cases hbetween : w₂ with
    | cons b bs =>
      rw [hbetween] at hc
      obtain rfl : b = c := Option.some.inj hc
      apply h.between
      rw [hbetween]
      exact List.mem_cons_self
    | nil =>
      have hnone : command.argument = [] := Classical.not_not.mp fun hne => h.parted hne hbetween
      rw [hbetween, hnone] at hc
      exact h.behind c (List.mem_of_mem_head? hc)
  rw [h.parts, ofLine?_words h.before h.name_ne h.name hafter, Text.trim_trimEnd, List.append_assoc,
    Text.trim_between h.between h.behind hargument]

/-- What a line is split into spells it. -/
theorem exists_spells (h : ofLine? line = some command) :
    ∃ w₁ w₂ w₃, command.Spells line w₁ w₂ w₃ := by
  obtain ⟨before, behind, hbefore, hbehind, hline⟩ := Text.exists_trim_between line
  unfold ofLine? at h
  split at h
  · cases h
  · rename_i x xs htrim
    obtain rfl := Option.some.inj h
    generalize hrest : (x :: xs).dropWhile (fun c => !Text.isBlank c) = rest
    obtain ⟨between, more, hbetween, hmore, hparts⟩ := Text.exists_trim_between rest
    have hargument : Text.afterFirstWord (x :: xs) = Text.trim rest := congrArg Text.trim hrest
    have hwords : x :: xs = Text.firstWord (x :: xs) ++ rest := by
      rw [← hrest]
      exact List.takeWhile_append_dropWhile.symm
    have hx : Text.isBlank x = false := by
      apply Text.head?_trim_not_blank line
      rw [htrim]
      rfl
    refine ⟨before, between, more ++ behind, ?_, hbefore, hbetween, hmore.append hbehind, ?_, ?_, ?_, ?_, ?_⟩
    · rw [htrim, hwords] at hline
      dsimp only
      rw [hargument, hline]
      conv => lhs; rw [hparts]
      simp only [List.append_assoc]
    · simp [Text.firstWord, hx]
    · intro c hc
      simpa using List.mem_takeWhile_imp hc
    · intro c hc
      exact Text.head?_trim_not_blank _ hc
    · intro c hc
      exact Text.getLast?_trim_not_blank _ hc
    · -- the first word goes on until a blank
      rintro hne rfl
      dsimp only at hne
      rw [hargument] at hne
      obtain ⟨y, ys, hy⟩ := List.exists_cons_of_ne_nil hne
      have hblank : Text.isBlank y = false := Text.head?_trim_not_blank rest (by rw [hy]; rfl)
      have hnot := List.head?_dropWhile_not (fun c => !Text.isBlank c) (x :: xs)
      rw [hrest, hparts, hy] at hnot
      simp [hblank] at hnot

/-- A line is split in the only way in which it can be. -/
theorem ofLine?_eq_some_iff :
    ofLine? line = some command ↔ ∃ w₁ w₂ w₃, command.Spells line w₁ w₂ w₃ := by
  constructor
  · exact exists_spells
  · rintro ⟨w₁, w₂, w₃, h⟩
    exact h.ofLine?

theorem ofLine?_eq_none_iff : ofLine? line = none ↔ Text.IsBlanks line := by
  constructor
  · intro h
    obtain ⟨before, behind, hbefore, hbehind, hline⟩ := Text.exists_trim_between line
    unfold ofLine? at h
    split at h
    · rename_i htrim
      rw [hline, htrim]
      exact hbefore.append hbehind
    · cases h
  · exact ofLine?_blank

theorem ofLine?_eq_of_trim {line' : Text} (h : Text.trim line = Text.trim line') : ofLine? line = ofLine? line' := by
  unfold ofLine?
  rw [h]

end Command

theorem Verb.name_not_blank (v : Verb) : ∀ c ∈ v.name, Text.isBlank c = false := by
  have hall : v.name.all (fun c => !Text.isBlank c) = true := by cases v <;> rfl
  intro c hc
  simpa using List.all_eq_true.mp hall c hc

@[simp] theorem Verb.ofName?_name (v : Verb) : Verb.ofName? v.name = some v := by
  cases v <;> rfl

/-- No two verbs have one name. -/
theorem Verb.name_of_ofName? {name : Text} {v : Verb} (h : Verb.ofName? name = some v) : v.name = name := by
  simpa using List.find?_some h

end FileFerry
