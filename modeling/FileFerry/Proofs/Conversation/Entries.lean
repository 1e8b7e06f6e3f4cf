import FileFerry.Gateway.Scripted
import FileFerry.Proofs.Conversation.Basic
import FileFerry.Proofs.Registry.Table

/-!
# What a session leaves on the table

A step of a session either leaves the registry alone, begins one transfer or ends the one under way
(`Registering`). So wherever cancellations come, a session that waits has nothing of its own on
the table, and a transfer under way has its entry there until that is cancelled
(`session_leaves_no_entry`). Every way out of a transfer is such a step.
-/

set_option autoImplicit false

namespace FileFerry

variable {γ ω : Type} [Gateway γ]

namespace Session

/-- The gateway opens the file that is to be sent, or makes the one that is to be taken. -/
def Opens (s : Session γ ω) (verb : Verb) (argument : Text) : Prop :=
  argument ≠ [] ∧
    match verb with
    | .get => (Gateway.exists s.gateway (s.resolve (.ofText argument))).1 = true ∧
        ∃ src, (Gateway.openFile (Gateway.exists s.gateway (s.resolve (.ofText argument))).2
          (s.resolve (.ofText argument))).1 = .ok src
    | .put => ∃ handle, (Gateway.create s.gateway (s.resolve (.ofText argument))).1 = .ok handle
    | _ => False

/-- The line asks for a transfer, and the session takes it up. -/
def Accepts (s : Session γ ω) (line : Text) : Prop :=
  ∃ command verb, Command.ofLine? line = some command ∧ Verb.ofName? command.name = some verb ∧
    s.Opens verb command.argument

/-- What a step does to the registry. -/
inductive Registering (s t : Session γ ω) : Prop where
  | keeps (hregistry : t.registry = s.registry) (hentry : t.guard? = s.guard?)
  | begins {line : Text} {rest : InputBuffer} (hphase : s.phase = .command)
      (hline : s.input.nextLine = .line line rest) (haccepts : s.Accepts line)
      (hregistry : t.registry = s.registry.start.2) (hentry : t.guard? = some s.registry.start.1)
  | ends {g : Guard} (hbusy : s.guard? = some g) (hregistry : t.registry = s.registry.finish g)
      (hentry : t.guard? = none)

theorem registering_lose (s : Session γ ω) : s.Registering s.lose := by
  cases hp : s.phase with
  | closed =>
    simp only [lose, hp]
    exact .keeps rfl rfl
  | command =>
    simp only [lose, hp]
    exact .keeps rfl (by simp [guard?, close, hp])
  | sending entry file =>
    simp only [lose, hp]
    exact .ends (by simp [guard?, hp]) rfl rfl
  | receiving u =>
    simp only [lose, hp]
    exact .ends (by simp [guard?, hp]) rfl rfl

variable [Writer ω]

theorem registry_answer (s : Session γ ω) (outcome : Except CommandError Reply) :
    (s.answer outcome).registry = s.registry := by
  unfold answer
  split <;> rfl

theorem guard?_answer_of_none {s : Session γ ω} (h : s.guard? = none) (outcome : Except CommandError Reply) :
    (s.answer outcome).guard? = none := by
  unfold answer
  split
  · exact h
  · exact h
  · rfl
  · rfl
  · exact h

/-- A command that opens a file begins a transfer, and any other leaves the registry alone. -/
theorem execute_registering {s : Session γ ω} (hidle : s.guard? = none) (verb : Verb) (argument : Text) :
    (s.Opens verb argument ∧ (s.execute verb argument).1 = .ok .streamed ∧
        (s.execute verb argument).2.registry = s.registry.start.2 ∧
        (s.execute verb argument).2.guard? = some s.registry.start.1) ∨
      (¬ s.Opens verb argument ∧ (s.execute verb argument).2.registry = s.registry ∧
        (s.execute verb argument).2.guard? = none) := by
  cases verb
  case get =>
    simp only [execute, beginDownload]
    by_cases hname : argument = []
    · refine .inr ⟨fun h => h.1 hname, ?_⟩
      simp only [requireName, hname, if_true]
      exact ⟨rfl, hidle⟩
    · simp only [requireName, hname, if_false]
      split
      · rename_i g hexists
        exact .inr ⟨fun h => by simp [Opens, hexists] at h, rfl, hidle⟩
      · rename_i g hexists
        split
        · rename_i e g' hopen
          exact .inr ⟨fun h => by simp [Opens, hexists, hopen] at h, rfl, hidle⟩
        · rename_i src g' hopen
          exact .inl ⟨⟨hname, by simp [hexists, hopen]⟩, rfl, rfl, rfl⟩
  case put =>
    simp only [execute, beginUpload]
    by_cases hname : argument = []
    · refine .inr ⟨fun h => h.1 hname, ?_⟩
      simp only [requireName, hname, if_true]
      exact ⟨rfl, hidle⟩
    · simp only [requireName, hname, if_false]
      split
      · rename_i e g hcreate
        exact .inr ⟨fun h => by simp [Opens, hcreate] at h, rfl, hidle⟩
      · rename_i handle g hcreate
        exact .inl ⟨⟨hname, by simp [hcreate]⟩, rfl, rfl, rfl⟩
  all_goals refine .inr ⟨fun h => h.2, ?_⟩
  case ls =>
    simp only [execute, listDirectory]
    split <;> exact ⟨rfl, hidle⟩
  case cd =>
    simp only [execute, changeDirectory]
    repeat' split
    all_goals exact ⟨rfl, hidle⟩
  case mkdir =>
    simp only [execute, makeDirectory]
    repeat' split
    all_goals exact ⟨rfl, hidle⟩
  case delete =>
    simp only [execute, deleteFile]
    repeat' split
    all_goals exact ⟨rfl, hidle⟩
  all_goals exact ⟨rfl, hidle⟩

theorem handleLine_registering {s : Session γ ω} (hidle : s.guard? = none) (line : Text) :
    (s.Accepts line ∧ (s.handleLine line).registry = s.registry.start.2 ∧
        (s.handleLine line).guard? = some s.registry.start.1) ∨
      (¬ s.Accepts line ∧ (s.handleLine line).registry = s.registry ∧ (s.handleLine line).guard? = none) := by
  unfold handleLine
  split
  · rename_i hblank
    refine .inr ⟨?_, rfl, hidle⟩
    rintro ⟨_, _, hcommand, _⟩
    rw [hblank] at hcommand
    cases hcommand
  · rename_i command hcommand
    split
    · rename_i hunknown
      refine .inr ⟨?_, registry_answer s _, guard?_answer_of_none hidle _⟩
      rintro ⟨_, _, hcommand', hverb, _⟩
      rw [hcommand] at hcommand'
      obtain rfl := Option.some.inj hcommand'
      rw [hunknown] at hverb
      cases hverb
    · rename_i verb hverb
      rcases execute_registering hidle verb command.argument with
        ⟨hopens, houtcome, hregistry, hentry⟩ | ⟨hopens, hregistry, hentry⟩
      · refine .inl ⟨⟨command, verb, hcommand, hverb, hopens⟩, ?_⟩
        dsimp only
        rw [houtcome]
        exact ⟨hregistry, hentry⟩
      · refine .inr ⟨?_, ?_, guard?_answer_of_none hentry _⟩
        · rintro ⟨_, _, hcommand', hverb', hopens'⟩
          rw [hcommand] at hcommand'
          obtain rfl := Option.some.inj hcommand'
          rw [hverb] at hverb'
          obtain rfl := Option.some.inj hverb'
          exact hopens hopens'
        · rw [registry_answer, hregistry]

theorem registering_sendChunk {s : Session γ ω} {entry : Guard} {file : Sending}
    (hp : s.phase = .sending entry file) : s.Registering (s.sendChunk entry file) := by
  have hbusy : s.guard? = some entry := by simp [guard?, hp]
  unfold sendChunk
  split
  · exact .keeps rfl hbusy.symm
  · exact .ends hbusy rfl rfl

/-- The marker ends an upload, whatever became of the file. -/
theorem registering_receiveChunk {s : Session γ ω} {u : Upload γ} (hp : s.phase = .receiving u) :
    s.Registering (s.receiveChunk u) := by
  have hbusy : s.guard? = some u.entry := by simp [guard?, hp]
  simp only [receiveChunk]
  split
  · exact .keeps rfl hbusy.symm
  · rename_i reception _ _
    refine .ends hbusy ?_ (guard?_answer_of_none ?_ _)
    · rw [registry_answer]
      cases reception.failure <;> rfl
    · cases reception.failure <;> rfl

theorem registering_advance? {s t : Session γ ω} (h : s.advance? = some t) : s.Registering t := by
  unfold advance? at h
  split at h
  · cases h
  · rename_i hp
    have hidle : s.guard? = none := by simp [guard?, hp]
    split at h
    · rename_i line rest hline
      obtain rfl := Option.some.inj h
      have hidle' : ({ s with input := rest } : Session γ ω).guard? = none := hidle
      rcases handleLine_registering hidle' line with ⟨haccepts, hregistry, hentry⟩ | ⟨_, hregistry, hentry⟩
      · exact .begins hp hline haccepts hregistry hentry
      · exact .keeps hregistry (hentry.trans hidle.symm)
    · obtain rfl := Option.some.inj h
      exact .keeps rfl hidle.symm
    · cases h
  · rename_i hp
    obtain rfl := Option.some.inj h
    exact registering_sendChunk hp
  · rename_i hp
    split at h
    · cases h
    · obtain rfl := Option.some.inj h
      exact registering_receiveChunk hp

theorem registering_receive (s : Session γ ω) {result : ReadResult} (h : ∀ b bs, result ≠ .ok (b :: bs)) :
    s.Registering (s.receive result) := by
  unfold receive
  split
  · exact .keeps rfl rfl
  · split
    · split
      · exact .keeps rfl rfl
      · exact registering_lose s
    · exact registering_lose s
    · rename_i b bs
      exact absurd rfl (h b bs)

theorem registering_hear (s : Session γ ω) (result : ReadResult) : s.Registering (s.hear result) := by
  unfold hear
  split
  · exact .keeps rfl rfl
  · rename_i hother
    exact registering_receive s hother

end Session

namespace Registry

/-- The entries but for the numbers that are gone. -/
def remaining (entries : List (CommandId × Flag)) (gone : List CommandId) : List (CommandId × Flag) :=
  entries.filter fun entry => entry.1 ∉ gone

@[simp] theorem remaining_nil (entries : List (CommandId × Flag)) : remaining entries [] = entries := by
  simp [remaining]

theorem remaining_congr {gone gone' : List CommandId} (entries : List (CommandId × Flag))
    (h : ∀ entry ∈ entries, entry.1 ∈ gone ↔ entry.1 ∈ gone') :
    remaining entries gone = remaining entries gone' := by
  apply List.filter_congr
  intro entry hentry
  simp only [h entry hentry]

theorem remaining_remaining (entries : List (CommandId × Flag)) (gone more : List CommandId) :
    remaining (remaining entries gone) more = remaining entries (gone ++ more) := by
  unfold remaining
  rw [List.filter_filter]
  apply List.filter_congr
  intro entry _
  simp [Bool.and_comm]

theorem remaining_append (a b : List (CommandId × Flag)) (gone : List CommandId) :
    remaining (a ++ b) gone = remaining a gone ++ remaining b gone :=
  List.filter_append ..

/-- What is left of the one entry of a command that may have been cancelled before. -/
theorem remaining_own (g : Guard) (gone more : List CommandId) :
    remaining (if g.id ∈ gone then [] else [(g.id, g.flag)]) more =
      if g.id ∈ gone ++ more then [] else [(g.id, g.flag)] := by
  simp only [List.mem_append]
  by_cases hbefore : g.id ∈ gone
  · simp [hbefore, remaining]
  · by_cases hnow : g.id ∈ more <;> simp [hbefore, hnow, remaining]

theorem without_eq_remaining (id : CommandId) (entries : List (CommandId × Flag)) :
    without id entries = remaining entries [id] := by
  simp [without, remaining]

/-- Whether or not it finds the command, a cancellation leaves no entry of it. -/
theorem entries_cancel (r : Registry) (id : CommandId) : (r.cancel id).2.entries = remaining r.entries [id] := by
  rw [← without_eq_remaining]
  unfold cancel
  split
  · rename_i h
    exact (without_eq_self h).symm
  · rfl

theorem next_cancel (r : Registry) (id : CommandId) : (r.cancel id).2.next = r.next := by
  unfold cancel
  split <;> rfl

end Registry

namespace Conversation

open Registry

variable [Writer ω]

theorem registering_go (c : Conversation γ ω) : c.session.Registering c.go.session := by
  unfold go
  split
  · rename_i h
    exact Session.registering_advance? h
  · split
    · exact .keeps rfl rfl
    · exact Session.registering_hear ..

/-- The transfer `g` was begun by the step after `before` and is under way since. -/
structure UnderWay (c : Conversation γ ω) (g : Guard) (before during : List (Move γ)) : Prop where
  idle : (c.after before).session.guard? = none
  since : ∀ part, part <+: during → (c.after (before ++ .go :: part)).session.guard? = some g

/-- What the numbers given out and the table of the registry are after some moves. -/
structure Accounted (c : Conversation γ ω) (moves : List (Move γ)) : Prop where
  next : (c.after moves).session.registry.next.value =
    c.session.registry.next.value + UInt64.ofNat (c.begun moves).length
  numbers : (c.begun moves).map (fun g => g.id.value) =
    (List.range (c.begun moves).length).map fun k => c.session.registry.next.value + UInt64.ofNat k
  idle : (c.after moves).session.guard? = none → (c.after moves).session.registry.entries =
    remaining c.session.registry.entries (cancelled moves ++ (c.begun moves).map Guard.id)
  busy : ∀ g, (c.after moves).session.guard? = some g → g ∈ c.begun moves ∧
    ∃ before during, moves = before ++ .go :: during ∧ c.UnderWay g before during ∧
      (c.after moves).session.registry.entries =
        (if g.id ∈ cancelled during then [] else [(g.id, g.flag)]) ++
          remaining c.session.registry.entries (cancelled moves ++ (c.begun moves).map Guard.id)

variable {c : Conversation γ ω} {moves : List (Move γ)}

theorem accounted_nil (h : c.session.guard? = none) : c.Accounted [] := by
  constructor
  · simp [begun]
  · simp [begun]
  · intro _
    exact (remaining_nil _).symm
  · intro g hg
    simp [h] at hg

theorem UnderWay.concat {g : Guard} {before during : List (Move γ)} (h : c.UnderWay g before during)
    {m : Move γ} (hm : ((c.after (before ++ .go :: during)).move m).session.guard? = some g) :
    c.UnderWay g before (during ++ [m]) := by
  refine ⟨h.idle, fun part hpart => ?_⟩
  rcases List.prefix_concat_iff.mp hpart with rfl | hpart
  · rwa [← after_concat, List.append_assoc, List.cons_append] at hm
  · exact h.since part hpart

/-- A move that begins and ends nothing takes what it cancels off the table. -/
theorem Accounted.keep (h : c.Accounted moves) {m : Move γ} (hbegins : (c.after moves).begins m = none)
    (hentry : ((c.after moves).move m).session.guard? = (c.after moves).session.guard?)
    (hnext : ((c.after moves).move m).session.registry.next = (c.after moves).session.registry.next)
    (hentries : ((c.after moves).move m).session.registry.entries =
      remaining (c.after moves).session.registry.entries (cancelled [m])) :
    c.Accounted (moves ++ [m]) := by
  have hbegun : c.begun (moves ++ [m]) = c.begun moves := by
    rw [begun_concat, hbegins, Option.toList_none, List.append_nil]
  have hrest : remaining (remaining c.session.registry.entries
        (cancelled moves ++ (c.begun moves).map Guard.id)) (cancelled [m]) =
      remaining c.session.registry.entries
        (cancelled (moves ++ [m]) ++ (c.begun moves).map Guard.id) := by
    rw [remaining_remaining]
    apply remaining_congr
    intro entry _
    simp only [cancelled_append, List.mem_append]
    tauto
  constructor
  · rw [after_concat, hbegun, hnext]
    exact h.next
  · rw [hbegun]
    exact h.numbers
  · intro hidle
    rw [after_concat, hentry] at hidle
    rw [after_concat, hbegun, hentries, h.idle hidle, hrest]
  · intro g hg
    rw [after_concat, hentry] at hg
    obtain ⟨hmem, before, during, hmoves, hunder, htable⟩ := h.busy g hg
    rw [after_concat, hbegun]
    refine ⟨hmem, before, during ++ [m], ?_, ?_, ?_⟩
    · rw [hmoves, List.append_assoc, List.cons_append]
    · apply hunder.concat
      rw [← hmoves, hentry]
      exact hg
    · rw [hentries, htable, remaining_append, hrest, remaining_own, ← cancelled_append]

/-- A step that begins a transfer gives it the next number and puts it on the table. -/
theorem Accounted.begin (h : c.Accounted moves) (hidle : (c.after moves).session.guard? = none)
    (hregistry : (c.after moves).go.session.registry = (c.after moves).session.registry.start.2)
    (hentry : (c.after moves).go.session.guard? = some (c.after moves).session.registry.start.1) :
    c.Accounted (moves ++ [.go]) := by
  have hbegun : c.begun (moves ++ [.go]) = c.begun moves ++ [(c.after moves).session.registry.start.1] := by
    rw [begun_concat, begins, hidle]
    change _ ++ ((c.after moves).go.session.guard?).toList = _
    rw [hentry]
    rfl
  have hafter : c.after (moves ++ [.go]) = (c.after moves).go := after_concat ..
  have hlength : (c.begun (moves ++ [.go])).length = (c.begun moves).length + 1 := by
    rw [hbegun, List.length_append, List.length_singleton]
  constructor
  · rw [hafter, hregistry, hlength, UInt64.ofNat_add, ← UInt64.add_assoc, ← h.next]
    rfl
  · rw [hlength, List.range_succ, List.map_append, ← h.numbers, hbegun, List.map_append, List.map_singleton,
      List.map_singleton, ← h.next]
    rfl
  · intro hnone
    rw [hafter, hentry] at hnone
    cases hnone
  · intro g hg
    rw [hafter, hentry] at hg
    obtain rfl := Option.some.inj hg
    refine ⟨?_, moves, [], rfl, ⟨hidle, ?_⟩, ?_⟩
    · rw [hbegun]
      exact List.mem_append_right _ List.mem_cons_self
    · intro part hpart
      obtain rfl := List.prefix_nil.mp hpart
      rw [hafter, hentry]
    · have hentries : (c.after moves).session.registry.start.2.entries =
          ((c.after moves).session.registry.start.1.id, (c.after moves).session.registry.start.1.flag) ::
            without (c.after moves).session.registry.start.1.id (c.after moves).session.registry.entries :=
        rfl
      rw [hafter, hregistry, hentries, without_eq_remaining, h.idle hidle, remaining_remaining, hbegun]
      simp only [cancelled_nil, List.not_mem_nil, if_false, cancelled_append, List.map_append,
        List.map_singleton, List.singleton_append, List.append_assoc]
      rfl

/-- A step that ends a transfer takes it off the table, where a cancellation has not. -/
theorem Accounted.end (h : c.Accounted moves) {g : Guard} (hbusy : (c.after moves).session.guard? = some g)
    (hregistry : (c.after moves).go.session.registry = (c.after moves).session.registry.finish g)
    (hentry : (c.after moves).go.session.guard? = none) : c.Accounted (moves ++ [.go]) := by
  have hbegun : c.begun (moves ++ [.go]) = c.begun moves := by
    rw [begun_concat, begins, hbusy]
    exact List.append_nil _
  have hafter : c.after (moves ++ [.go]) = (c.after moves).go := after_concat ..
  obtain ⟨hmem, before, during, hmoves, hunder, htable⟩ := h.busy g hbusy
  constructor
  · rw [hafter, hbegun, hregistry]
    exact h.next
  · rw [hbegun]
    exact h.numbers
  · intro _
    have hentries : ((c.after moves).session.registry.finish g).entries =
        without g.id (c.after moves).session.registry.entries := rfl
    have hown : g.id ∈ cancelled during ++ [g.id] := List.mem_append_right _ List.mem_cons_self
    rw [hafter, hregistry, hentries, without_eq_remaining, htable, remaining_append, remaining_own, if_pos hown,
      List.nil_append,
      remaining_remaining, hbegun]
    apply remaining_congr
    intro entry _
    have hgone : g.id ∈ (c.begun moves).map Guard.id := List.mem_map_of_mem hmem
    simp only [cancelled_append, List.mem_append, List.mem_singleton]
    constructor
    · rintro ((hcancelled | hbegun) | hown)
      · exact .inl (.inl hcancelled)
      · exact .inr hbegun
      · rw [hown]
        exact .inr hgone
    · rintro ((hcancelled | hgo) | hbegun)
      · exact .inl (.inl hcancelled)
      · cases hgo
      · exact .inl (.inr hbegun)
  · intro g' hg'
    rw [hafter, hentry] at hg'
    cases hg'

theorem Accounted.concat (h : c.Accounted moves) (m : Move γ) : c.Accounted (moves ++ [m]) := by
  have of_same (hsame : ((c.after moves).move m).session.guard? = (c.after moves).session.guard?) :
      (c.after moves).begins m = none := by
    unfold begins
    rw [hsame]
    cases (c.after moves).session.guard? <;> rfl
  cases m with
  | cancel id => exact h.keep (of_same rfl) rfl (next_cancel _ id) (entries_cancel _ id)
  | change edit => exact h.keep (of_same rfl) rfl rfl (remaining_nil _).symm
  | go =>
    cases (c.after moves).registering_go with
    | keeps hregistry hentry =>
      refine h.keep (of_same hentry) hentry (congrArg Registry.next hregistry) ?_
      exact (congrArg Registry.entries hregistry).trans (remaining_nil _).symm
    | begins hphase _ _ hregistry hentry =>
      exact h.begin (by simp [Session.guard?, hphase]) hregistry hentry
    | ends hbusy hregistry hentry => exact h.end hbusy hregistry hentry

/-- Wherever cancellations come, the table is accounted for after every move. -/
theorem accounted (h : c.session.guard? = none) (moves : List (Move γ)) : c.Accounted moves := by
  induction moves using List.reverseRecOn with
  | nil => exact accounted_nil h
  | append_singleton moves m ih => exact ih.concat m

/-- A step begins a transfer when it takes up a line that opens a file, and only then. -/
theorem begins_go_eq_some_iff {c : Conversation γ ω} {g : Guard} :
    c.begins .go = some g ↔
      c.session.phase = .command ∧
        (∃ line rest, c.session.input.nextLine = .line line rest ∧ c.session.Accepts line) ∧
        g = c.session.registry.start.1 := by
  constructor
  · intro h
    unfold begins at h
    split at h
    · rename_i hidle
      change c.go.session.guard? = some g at h
      cases c.registering_go with
      | keeps hregistry hentry => simp [hentry, hidle] at h
      | begins hphase hline haccepts hregistry hentry =>
        exact ⟨hphase, ⟨_, _, hline, haccepts⟩, Option.some.inj (h.symm.trans hentry)⟩
      | ends hbusy hregistry hentry => simp [hentry] at h
    · cases h
  · rintro ⟨hphase, ⟨line, rest, hline, haccepts⟩, rfl⟩
    have hidle : c.session.guard? = none := by simp [Session.guard?, hphase]
    have hstep : c.session.advance? = some (({ c.session with input := rest } : Session γ ω).handleLine line) :=
      Session.advance?_of_line hphase hline
    have hidle' : ({ c.session with input := rest } : Session γ ω).guard? = none := hidle
    simp only [begins, hidle]
    change c.go.session.guard? = _
    rw [go_of_advance? hstep]
    rcases Session.handleLine_registering hidle' line with ⟨_, _, hentry⟩ | ⟨hrefused, _, _⟩
    · exact hentry
    · exact absurd haccepts hrefused

theorem length_begun_le (c : Conversation γ ω) (moves : List (Move γ)) :
    (c.begun moves).length ≤ moves.length := by
  induction moves generalizing c with
  | nil => exact Nat.le_refl 0
  | cons m moves ih =>
    have hone : (c.begins m).toList.length ≤ 1 := by cases c.begins m <;> simp
    have hrest := ih (c.move m)
    rw [begun, List.length_append, List.length_cons]
    omega

/-- While the numbers do not run out, none is given that stands on the table. -/
theorem begun_fresh (h : c.session.guard? = none)
    (hbelow : ∀ entry ∈ c.session.registry.entries, entry.1.value < c.session.registry.next.value)
    (hlast : c.session.registry.next.value.toNat + moves.length ≤ UInt64.size) :
    ∀ entry ∈ c.session.registry.entries, entry.1 ∉ (c.begun moves).map Guard.id := by
  intro entry hentry hmem
  obtain ⟨g, hg, hid⟩ := List.mem_map.mp hmem
  have hnumber : g.id.value ∈ (c.begun moves).map fun g => g.id.value := List.mem_map_of_mem hg
  rw [(accounted h moves).numbers] at hnumber
  obtain ⟨k, hk, hvalue⟩ := List.mem_map.mp hnumber
  have hsmall : k < moves.length := Nat.lt_of_lt_of_le (List.mem_range.mp hk) (length_begun_le c moves)
  have hlt := UInt64.lt_iff_toNat_lt.mp (hbelow entry hentry)
  rw [← hid, ← hvalue, UInt64.toNat_add, UInt64.toNat_ofNat'] at hlt
  simp only [UInt64.size] at hlast
  have hkmod : k % 2 ^ 64 = k := Nat.mod_eq_of_lt (by omega)
  rw [hkmod, Nat.mod_eq_of_lt (by omega)] at hlt
  omega

/-- Wherever cancellations come, while commands of other sessions stand on the table (they have other
numbers than this one gives: `begun_fresh`), a session gives one number to each transfer it takes up, in
order, and a transfer is on the table from its first step until it is cancelled or has ended, in
whatever way. Else nothing is there but what others left. -/
theorem session_leaves_no_entry (gateway : γ) (registry : Registry) (output : ω) (src : Source)
    (moves : List (Move γ))
    (hfresh : ∀ entry ∈ registry.entries, entry.1 ∉
      ((⟨.start gateway registry output, src⟩ : Conversation γ ω).begun moves).map Guard.id) :
    let c : Conversation γ ω := ⟨.start gateway registry output, src⟩
    let t := c.after moves
    let others := remaining registry.entries (cancelled moves)
    (t.session.phase = .command ∨ t.session.phase = .closed → t.session.registry.entries = others) ∧
      (∀ g, t.session.guard? = some g → ∃ before during, moves = before ++ .go :: during ∧
        c.UnderWay g before during ∧
        t.session.registry.entries = (if g.id ∈ cancelled during then [] else [(g.id, g.flag)]) ++ others) ∧
      ((c.begun moves).map fun g => g.id.value) =
        (List.range (c.begun moves).length).map (fun k => registry.next.value + UInt64.ofNat k) ∧
      t.session.registry.next.value = registry.next.value + UInt64.ofNat (c.begun moves).length ∧
      ∀ g, t.begins .go = some g ↔ t.session.phase = .command ∧
        (∃ line rest, t.session.input.nextLine = .line line rest ∧ t.session.Accepts line) ∧
        g = t.session.registry.start.1 := by
  intro c t others
  have hac : c.Accounted moves := accounted rfl moves
  have hothers : remaining registry.entries (cancelled moves ++ (c.begun moves).map Guard.id) = others := by
    apply remaining_congr
    intro entry hentry
    rw [List.mem_append]
    exact or_iff_left (hfresh entry hentry)
  refine ⟨?_, ?_, hac.numbers, hac.next, fun g => begins_go_eq_some_iff⟩
  · intro hphase
    rw [← hothers]
    apply hac.idle
    unfold Session.guard?
    rcases hphase with hphase | hphase <;> rw [hphase]
  · intro g hg
    obtain ⟨_, before, during, hmoves, hunder, htable⟩ := hac.busy g hg
    refine ⟨before, during, hmoves, hunder, ?_⟩
    rw [← hothers]
    exact htable

/-- An upload that is cancelled, as is one of two commands of others, before the client leaves. -/
theorem session_leaves_no_entry_upload :
    let registry : Registry := ⟨⟨5⟩, [(⟨3⟩, 0), (⟨2⟩, 1)], [true, true]⟩
    let gateway : ScriptedFiles := ⟨⟨[Path.slash]⟩, [], [], [], [], [], [], [], []⟩
    let c : Conversation ScriptedFiles ScriptedWriter :=
      ⟨.start gateway registry .accepting, [.bytes (Utf8.encode (text "put f\n"))]⟩
    let moves : List (Move ScriptedFiles) := [.go, .cancel ⟨3⟩, .go, .cancel ⟨5⟩, .go]
    (∀ entry ∈ registry.entries, entry.1 ∉ (c.begun moves).map Guard.id) ∧
      (c.after (moves.take 3)).session.registry.entries = [(⟨5⟩, 2), (⟨2⟩, 1)] ∧
      (c.after moves).session.phase = .closed ∧
      (c.after moves).session.registry.entries = [(⟨2⟩, 1)] ∧
      (c.after moves).session.registry.next.value = 5 + UInt64.ofNat (c.begun moves).length := by
  intro registry gateway c moves
  have hbelow : ∀ entry ∈ registry.entries, entry.1.value < registry.next.value := by decide
  have hlast : registry.next.value.toNat + moves.length ≤ UInt64.size := by decide
  have hfresh : ∀ entry ∈ registry.entries, entry.1 ∉ (c.begun moves).map Guard.id :=
    begun_fresh (c := c) rfl hbelow hlast
  have hended : (c.after moves).session.isClosed = true := by decide +kernel
  have hphase : (c.after moves).session.phase = .closed := by
    unfold Session.isClosed at hended
    split at hended
    · assumption
    · cases hended
  obtain ⟨hidle, _, _, hnext, _⟩ := session_leaves_no_entry _ registry _ _ moves hfresh
  exact ⟨hfresh, by decide +kernel, hphase, hidle (.inr hphase), hnext⟩

end Conversation

end FileFerry
