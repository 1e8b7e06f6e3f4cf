import FileFerry.Gateway.Scripted
import FileFerry.Proofs.Conversation.Verdicts
import FileFerry.Proofs.Registry.Table

/-!
# What the answer to a command says about it

Success is reported where it was had and nowhere else, and an error leaves everything as it was
(`replies_are_honest`). The one exception is an upload that could not be written whole: of it something
has been done before the failure is known. What is reported is told from the line that is sent, and the line from
the bytes that go out (`Says`).
-/

set_option autoImplicit false

namespace FileFerry

/-! ## What is said -/

/-- The line in reply begins with the name of the status. -/
def Reports (status : Status) (reply : Option Text) : Prop := ∃ line ∈ reply, status.name <+: line

/-- The reply is the line for success, with these words, just if the command was done. If it was not, the reply
is an error line, or there is none as the client was lost. -/
structure Faithful (done : Prop) (completion : Text) (reply : Option Text) : Prop where
  success : Reports .success reply ↔ done
  words : done → reply = some (text "SUCCESS: " ++ completion)
  failure : ¬ done → Reports .error reply ∨ reply = none

theorem reports_framed (status : Status) (message : Text) :
    Reports status (some (Response.framed status message).render) := by
  refine ⟨_, rfl, ?_⟩
  rw [Response.render, List.append_assoc]
  exact List.prefix_append _ _

theorem Reports.unique {status status' : Status} {reply : Option Text} (h : Reports status reply)
    (h' : Reports status' reply) : status = status' := by
  obtain ⟨line, rfl, rest, hline⟩ := h
  obtain ⟨line', hsame, rest', hline'⟩ := h'
  obtain rfl := Option.some.inj hsame
  rw [← hline] at hline'
  cases status <;> cases status'
  · rfl
  · exact absurd (List.cons.inj hline').1 (by decide)
  · exact absurd (List.cons.inj hline').1 (by decide)
  · rfl

theorem not_reports_none (status : Status) : ¬ Reports status none := by
  rintro ⟨line, hline, -⟩
  cases hline

namespace Faithful

variable {done : Prop} {completion : Text} {reply : Option Text}

theorem of_done (h : done) : Faithful done completion (some (Response.framed .success completion).render) :=
  ⟨iff_of_true (reports_framed .success completion) h, fun _ => rfl, fun hnot => absurd h hnot⟩

theorem of_not_done (h : ¬ done) (hreply : Reports .error reply ∨ reply = none) : Faithful done completion reply := by
  refine ⟨iff_of_false ?_ h, fun hdone => absurd hdone h, fun _ => hreply⟩
  rcases hreply with herror | rfl
  · intro hsuccess
    cases hsuccess.unique herror
  · exact not_reports_none _

theorem of_error (h : ¬ done) (e : CommandError) : Faithful done completion (some e.response.render) :=
  .of_not_done h (.inl (reports_framed .error e.message))

end Faithful

/-- What is said to a line with `all` behind it, through an output that is `before` and then another: the line in
reply, and all the bytes that go out. The line that takes up a download is the reply to it, with the file behind it;
an upload is taken up before it is replied to. No reply goes to a client that leaves, or that is lost before
the end of its upload. -/
inductive Says {ω : Type} [Writer ω] (line : Text) (all : Bytes) (attempts : List Attempt) (before : ω) :
    Option Text → Bytes → ω → Prop where
  | answer (reply : Text) (hnone : ∀ p, .create p (.ok ()) ∉ attempts) :
      Says line all attempts before (some reply) (lineBytes reply) (Writer.send before (lineBytes reply)).2
  | download {argument : Text} (hasks : Asks line .get argument) (file : Sending) :
      Says line all attempts before (some transferStartLine)
        (lineBytes transferStartLine ++ (file.source.content ++ endMarker))
        (file.run (Writer.send before (lineBytes transferStartLine)).2).2
  | upload {argument : Text} {p : Path} (hasks : Asks line .put argument) (hcreated : .create p (.ok ()) ∈ attempts)
      (reply : Text) :
      Says line all attempts before (some reply) (lineBytes readyLine ++ lineBytes reply)
        (Writer.send (Writer.send before (lineBytes readyLine)).2 (lineBytes reply)).2
  | lost {argument : Text} {p : Path} (hasks : Asks line .put argument) (hcreated : .create p (.ok ()) ∈ attempts)
      (hmarker : ¬ HasMarker all) :
      Says line all attempts before none (lineBytes readyLine) (Writer.send before (lineBytes readyLine)).2
  | quit {argument : Text} (hasks : Asks line .quit argument) : Says line all attempts before none [] before

namespace Says

variable {ω : Type} [Writer ω] {line : Text} {all bytes : Bytes} {attempts : List Attempt} {before after : ω}
  {reply : Option Text}

/-- A writer that takes everything gets these bytes. -/
theorem heard (h : Says line all attempts before reply bytes after) {holds : ω → Bytes → Prop} {said : Bytes}
    (hwriter : Writer.Accepts holds) (hsaid : holds before said) : holds after (said ++ bytes) := by
  cases h with
  | answer reply => exact hwriter.holds_send hsaid _
  | download hasks file =>
    rw [← List.append_assoc]
    exact file.run_accepts hwriter (hwriter.holds_send hsaid _)
  | upload hasks hcreated reply =>
    rw [← List.append_assoc]
    exact hwriter.holds_send (hwriter.holds_send hsaid _) _
  | lost => exact hwriter.holds_send hsaid _
  | quit => rwa [List.append_nil]

/-- A command that takes up no transfer is answered by one line alone. -/
theorem answered (h : Says line all attempts before reply bytes after)
    (hget : ∀ argument, ¬ Asks line .get argument) (hput : ∀ p, .create p (.ok ()) ∉ attempts)
    (hquit : ∀ argument, ¬ Asks line .quit argument) : ∃ answer, reply = some answer ∧ bytes = lineBytes answer := by
  cases h with
  | answer reply => exact ⟨reply, rfl, rfl⟩
  | download hasks => exact absurd hasks (hget _)
  | upload hasks hcreated | lost hasks hcreated => exact absurd hcreated (hput _)
  | quit hasks => exact absurd hasks (hquit _)

end Says

/-! ## What was done -/

/-- How a client is told that the command was done, with the working directory it has then. -/
def Verb.completion? (cwd : Path) : Verb → Option Text
  | .cd => some (text "Changed directory to " ++ cwd.display ++ text ".")
  | .mkdir => some (text "Directory created successfully.")
  | .delete => some (text "File deleted successfully.")
  | .put => some (text "File transfer completed.")
  | _ => none

/-- What the command is for was tried at `path`, with success. -/
def Achieved (path : Path) (attempts : List Attempt) : Verb → Prop
  | .cd => ∃ dir, .chdir path (.ok dir) ∈ attempts
  | .mkdir => .mkdir path (.ok ()) ∈ attempts
  | .delete => .remove path (.ok ()) ∈ attempts
  | .put => .create path (.ok ()) ∈ attempts ∧ .flush (.ok ()) ∈ attempts ∧
      ∀ a ∈ attempts, a.losesPayload = false
  | _ => False

section

variable {path : Path} {attempts : List Attempt} {verb : Verb}

theorem not_achieved_of_none (h : ∀ a ∈ attempts, a.succeeded = false) : ¬ Achieved path attempts verb := by
  intro hachieved
  cases verb with
  | cd =>
    obtain ⟨dir, hmem⟩ := hachieved
    cases h _ hmem
  | mkdir => cases h _ hachieved
  | delete => cases h _ hachieved
  | put => cases h _ hachieved.1
  | pwd | ls | get | quit => exact hachieved

theorem not_achieved_of_loses (h : ∃ a ∈ attempts, a.losesPayload = true) : ¬ Achieved path attempts .put := by
  rintro ⟨-, -, hwell⟩
  obtain ⟨a, hmem, ha⟩ := h
  rw [hwell a hmem] at ha
  cases ha

theorem target?_of_completion? {cwd : Path} {message : Text} (h : verb.completion? cwd = some message) :
    verb.target? ≠ none := by
  cases verb with
  | cd | mkdir | delete | put => simp [Verb.target?]
  | pwd | ls | get | quit => cases h

/-- A number that is not in use comes and goes again. -/
theorem Registry.entries_finish_start {r : Registry} (hfresh : r.flag? r.next = none) :
    (r.start.2.finish r.start.1).entries = r.entries := by
  have hsame : without r.next r.entries = r.entries := without_eq_self hfresh
  change without r.next ((r.next, r.flags.length) :: without r.next r.entries) = r.entries
  rw [hsame, without, List.filter_cons_of_neg (by simp)]
  exact hsame

/-- A command asks for nothing only if it lacks a name. -/
theorem exists_target_of_idleAnswer? {line argument : Text} {r : Response} (hasks : Asks line verb argument)
    (h : idleAnswer? line = some r) : ∃ target, r = (CommandError.invalidArgument target).response := by
  have hverb := Verb.ofName?_name verb
  unfold idleAnswer? at h
  rw [hasks] at h
  simp only [hverb] at h
  split at h
  · obtain ⟨target, -, rfl⟩ := Option.map_eq_some_iff.mp h
    exact ⟨target, rfl⟩
  · cases h

end

namespace Told

variable {path before cwd : Path} {verb : Verb} {r : Response} {attempts : List Attempt}

theorem faithful (h : Told path before verb r cwd attempts) {completion : Text}
    (hcompletion : verb.completion? cwd = some completion) :
    Faithful (Achieved path attempts verb) completion (some r.render) := by
  cases h with
  | entered dir =>
    cases hcompletion
    exact .of_done ⟨_, List.mem_singleton_self _⟩
  | made | deleted =>
    cases hcompletion
    exact .of_done (List.mem_cons_of_mem _ (List.mem_singleton_self _))
  | shown content hverb => exact absurd hverb (target?_of_completion? hcompletion)
  | refused e hnone => exact .of_error (not_achieved_of_none hnone) e

theorem create_not_mem (h : Told path before verb r cwd attempts) (p : Path) : .create p (.ok ()) ∉ attempts := by
  cases h with
  | entered | made | deleted => simp
  | shown content hverb hnone | refused e hnone =>
    intro hmem
    cases hnone _ hmem

theorem entered_or_same (h : Told path before verb r cwd attempts) :
    (cwd = before ∧ ∀ p dir, .chdir p (.ok dir) ∉ attempts) ∨
      verb = .cd ∧ attempts = [.chdir path (.ok cwd)] := by
  cases h with
  | entered dir => exact .inr ⟨rfl, rfl⟩
  | made | deleted => exact .inl ⟨rfl, by simp⟩
  | shown content hverb hnone | refused e hnone =>
    refine .inl ⟨rfl, fun p dir hmem => ?_⟩
    cases hnone _ hmem

theorem same_of_error (h : Told path before verb r cwd attempts) (hr : Reports .error (some r.render)) :
    cwd = before ∧ ∀ a ∈ attempts, a.succeeded = false := by
  cases h with
  | entered | made | deleted => cases hr.unique (reports_framed .success _)
  | shown content hverb hnone | refused e hnone => exact ⟨rfl, hnone⟩

end Told

namespace Stores

variable {path : Path} {r : Response} {attempts : List Attempt}

theorem create_mem (h : Stores path attempts r) : .create path (.ok ()) ∈ attempts := by
  cases h <;> exact List.mem_cons_self

theorem faithful (h : Stores path attempts r) :
    Faithful (Achieved path attempts .put) (text "File transfer completed.") (some r.render) := by
  cases h with
  | @completed writes hwrites =>
    refine .of_done ⟨by simp, by simp, ?_⟩
    intro a hmem
    rw [List.mem_cons, List.mem_append, List.mem_singleton] at hmem
    rcases hmem with rfl | hmem | rfl
    · rfl
    · exact hwrites.wentWell.mp rfl a hmem
    · rfl
  | notFlushed e => exact .of_error (not_achieved_of_loses ⟨.flush (.error e), by simp, rfl⟩) _
  | notWritten result hwrites =>
    obtain ⟨a, hmem, ha⟩ := hwrites.exists_loses
    exact .of_error (not_achieved_of_loses ⟨a, List.mem_cons_of_mem _ (List.mem_append_left _ hmem), ha⟩) _

/-- An upload that fails has lost something of its payload, and all that is left to do is to take its file away. -/
theorem removes_of_error (h : Stores path attempts r) (hr : Reports .error (some r.render)) :
    ∃ onFile result, attempts = .create path (.ok ()) :: (onFile ++ [.remove path result]) ∧
      (∀ a ∈ onFile, a.isOnFile = true) ∧ ∃ a ∈ onFile, a.losesPayload = true := by
  cases h with
  | completed => cases hr.unique (reports_framed .success _)
  | @notFlushed writes e result hwrites =>
    refine ⟨writes ++ [.flush (.error e)], result, by simp, ?_, ?_⟩
    · intro a hmem
      rcases List.mem_append.mp hmem with hmem | hmem
      · exact hwrites.onFile a hmem
      · rw [List.mem_singleton.mp hmem]
        rfl
    · exact ⟨_, List.mem_append_right _ (List.mem_singleton_self _), rfl⟩
  | notWritten result hwrites => exact ⟨_, result, rfl, hwrites.onFile, hwrites.exists_loses⟩

theorem chdir_not_mem (h : Stores path attempts r) (p : Path) (result : Except IoError Path) :
    .chdir p result ∉ attempts := by
  cases h with
  | completed hwrites | notFlushed e result hwrites | notWritten result hwrites =>
    simp [hwrites.chdir_not_mem]

end Stores

variable {γ ω : Type} [Gateway γ]

namespace Conversation

/-- Nothing but the gateway and the output may differ, and nothing that was tried on the gateway was done. -/
structure Spared (c t : Conversation (Attested γ) ω) (attempts : List Attempt) : Prop where
  session : t.session = { c.session with gateway := t.session.gateway, output := t.session.output }
  source : t.source = c.source
  notDone : ∀ a ∈ attempts, a.succeeded = false

/-- An upload that could not be written whole. Its file was made and then taken away, as far as that went,
and its payload is used. -/
structure Spoiled (c : Conversation (Attested γ) ω) (line : Text) (t : Conversation (Attested γ) ω)
    (attempts : List Attempt) : Prop where
  tried : ∃ argument onFile result, Asks line .put argument ∧
    attempts = .create (c.session.resolve (.ofText argument)) (.ok ()) ::
      (onFile ++ [.remove (c.session.resolve (.ofText argument)) result]) ∧
    (∀ a ∈ onFile, a.isOnFile = true) ∧ ∃ a ∈ onFile, a.losesPayload = true
  payload : ∃ payload, cutAtMarker? (c.session.input.pending ++ c.source.content) =
    some (payload, t.session.input.pending ++ t.source.content)
  cwd : t.session.cwd = c.session.cwd
  /-- Only a number that is in use already, after all numbers were given out, may be lost. -/
  entries : c.session.registry.flag? c.session.registry.next = none →
    t.session.registry.entries = c.session.registry.entries

variable [Writer ω]

/-- What holds when the session of `c` has dealt with a line: it is at `t`, the line it sent in reply was `reply`,
`bytes` are all that it sent, and `attempts` is all that was tried on the gateway. -/
structure Honest (c : Conversation (Attested γ) ω) (line : Text) (t : Conversation (Attested γ) ω)
    (reply : Option Text) (bytes : Bytes) (attempts : List Attempt) : Prop where
  attempted : t.session.gateway.attempts = c.session.gateway.attempts ++ attempts
  said : Says line (c.session.input.pending ++ c.source.content) attempts c.session.output reply bytes t.session.output
  heard : ∀ {holds : ω → Bytes → Prop} {before : Bytes}, Writer.Accepts holds → holds c.session.output before →
    holds t.session.output (before ++ bytes)
  /-- Without a reply the session has ended; else it waits for the next command. -/
  ended : t.session.phase = if reply.isSome then .command else .closed
  /-- A success is reported just if it was had, and then in the words for it. -/
  succeeds : ∀ {verb : Verb} {argument completion : Text}, Asks line verb argument →
    verb.completion? t.session.cwd = some completion →
    Faithful (Achieved (c.session.resolve (.ofText argument)) attempts verb) completion reply
  /-- The working directory is the one that was entered, if any was. -/
  directory : (t.session.cwd = c.session.cwd ∧ ∀ p dir, .chdir p (.ok dir) ∉ attempts) ∨
    ∃ argument, Asks line .cd argument ∧
      attempts = [.chdir (c.session.resolve (.ofText argument)) (.ok t.session.cwd)]
  refused : Reports .error reply → c.Spared t attempts ∨ c.Spoiled line t attempts
  idle : ∀ {r : Response}, AsksNothing line r →
    reply = some r.render ∧ attempts = [] ∧
      t = ⟨{ c.session with output := (Writer.send c.session.output (lineBytes r.render)).2 }, c.source⟩

end Conversation

namespace Session.Settles

variable [Writer ω] {s : Session (Attested γ) ω} {src : Source} {line : Text} {t : Conversation (Attested γ) ω}
  {verdict : Option Response} {attempts : List Attempt}

theorem ended (h : s.Settles src line t verdict attempts) (hs : s.phase = .command) :
    t.session.phase = if verdict.isSome then .command else .closed := by
  cases h with
  | idle => exact hs
  | told _ _ hsession | downloaded _ _ hsession =>
    rw [hsession]
    exact hs
  | uploaded _ _ _ hsession =>
    rw [hsession]
    exact hs
  | lost _ _ _ hsession =>
    rw [hsession]
    rfl
  | quit => rfl

theorem attempted (h : s.Settles src line t verdict attempts) :
    t.session.gateway.attempts = s.gateway.attempts ++ attempts := by
  cases h with
  | idle | quit => exact (List.append_nil _).symm
  | told _ _ _ hattempts | downloaded _ _ _ hattempts => exact hattempts
  | uploaded _ _ _ _ hattempts => exact hattempts
  | lost _ _ _ _ _ hattempts => exact hattempts

theorem exists_says (h : s.Settles src line t verdict attempts) :
    ∃ bytes, Says line (s.input.pending ++ src.content) attempts s.output (verdict.map Response.render) bytes
      t.session.output := by
  cases h with
  | @idle r => exact ⟨_, .answer r.render (by simp)⟩
  | @told _ _ r _ _ _ _ hsession _ htold =>
    rw [hsession]
    exact ⟨_, .answer r.render htold.create_not_mem⟩
  | downloaded _ hasks hsession =>
    rw [hsession]
    exact ⟨_, .download hasks _⟩
  | @uploaded _ _ r _ _ _ hasks _ hsession _ hstores =>
    rw [hsession]
    exact ⟨_, .upload hasks hstores.create_mem r.render⟩
  | lost _ hasks hmarker hsession =>
    rw [hsession]
    exact ⟨_, .lost hasks List.mem_cons_self hmarker⟩
  | quit _ hasks => exact ⟨_, .quit hasks⟩

theorem succeeds (h : s.Settles src line t verdict attempts) {verb : Verb} {argument completion : Text}
    (hasks : Asks line verb argument) (hcompletion : verb.completion? t.session.cwd = some completion) :
    Faithful (Achieved (s.resolve (.ofText argument)) attempts verb) completion (verdict.map Response.render) := by
  cases h with
  | idle hidle =>
    obtain ⟨target, rfl⟩ := exists_target_of_idleAnswer? hasks hidle
    exact .of_error (not_achieved_of_none (by simp)) _
  | told _ hasks' _ _ htold =>
    obtain ⟨rfl, rfl⟩ := hasks'.unique hasks
    exact htold.faithful hcompletion
  | downloaded _ hasks' =>
    obtain ⟨rfl, rfl⟩ := hasks'.unique hasks
    cases hcompletion
  | uploaded _ hasks' _ _ _ hstores =>
    obtain ⟨rfl, rfl⟩ := hasks'.unique hasks
    cases hcompletion
    exact hstores.faithful
  | @lost _ _ writes _ result _ hasks' _ _ hwrites =>
    obtain ⟨rfl, rfl⟩ := hasks'.unique hasks
    refine .of_not_done ?_ (.inr rfl)
    rintro ⟨-, hflush, -⟩
    have hmem : .flush (.ok ()) ∈ writes := by simpa using hflush
    exact hwrites.flush_not_mem _ hmem
  | quit _ hasks' =>
    obtain ⟨rfl, rfl⟩ := hasks'.unique hasks
    cases hcompletion

theorem directory (h : s.Settles src line t verdict attempts) :
    (t.session.cwd = s.cwd ∧ ∀ p dir, .chdir p (.ok dir) ∉ attempts) ∨
      ∃ argument, Asks line .cd argument ∧
        attempts = [.chdir (s.resolve (.ofText argument)) (.ok t.session.cwd)] := by
  cases h with
  | idle | quit => exact .inl ⟨rfl, by simp⟩
  | told _ hasks _ _ htold =>
    rcases htold.entered_or_same with hsame | ⟨rfl, hattempts⟩
    · exact .inl hsame
    · exact .inr ⟨_, hasks, hattempts⟩
  | downloaded _ _ hsession _ hnone =>
    refine .inl ⟨?_, fun p dir hmem => ?_⟩
    · rw [hsession]
    · cases hnone _ hmem
  | uploaded _ _ _ hsession _ hstores =>
    refine .inl ⟨?_, fun p dir => hstores.chdir_not_mem p _⟩
    rw [hsession]
  | lost _ _ _ hsession hwrites =>
    refine .inl ⟨?_, fun p dir => ?_⟩
    · rw [hsession]
    · simp [hwrites.chdir_not_mem]

theorem idle_of_asksNothing (h : s.Settles src line t verdict attempts) {r : Response}
    (hline : AsksNothing line r) : verdict = some r ∧ attempts = [] ∧ t = ⟨s.sendResponse r, src⟩ := by
  have hanswer := idleAnswer?_of_asksNothing hline
  cases h with
  | idle hidle =>
    rw [hanswer] at hidle
    cases hidle
    exact ⟨rfl, rfl, rfl⟩
  | told hidle | downloaded hidle | uploaded hidle | lost hidle | quit hidle =>
    rw [hanswer] at hidle
    cases hidle

theorem refused (h : s.Settles src line t verdict attempts)
    (hr : Reports .error (verdict.map Response.render)) :
    Conversation.Spared ⟨s, src⟩ t attempts ∨ Conversation.Spoiled ⟨s, src⟩ line t attempts := by
  cases h with
  | idle => exact .inl ⟨rfl, rfl, by simp⟩
  | @told _ _ r t _ _ _ hsession _ htold =>
    obtain ⟨hcwd, hnone⟩ := htold.same_of_error hr
    have houtput : t.output = (s.sendResponse r).output := by rw [hsession]
    refine .inl ⟨?_, rfl, hnone⟩
    change t = { s with gateway := t.gateway, output := t.output }
    rw [hcwd] at hsession
    rw [houtput]
    exact hsession
  | downloaded => cases hr.unique (reports_framed .success _)
  | uploaded _ hasks hpayload hsession _ hstores =>
    obtain ⟨onFile, result, rfl, honFile, hloses⟩ := hstores.removes_of_error hr
    refine .inr ⟨⟨_, onFile, result, hasks, rfl, honFile, hloses⟩, ⟨_, hpayload⟩, ?_, ?_⟩
    · rw [hsession]
    · intro hfresh
      rw [hsession]
      exact Registry.entries_finish_start hfresh
  | lost | quit => exact absurd hr (not_reports_none _)

end Session.Settles

namespace Conversation

variable [Writer ω]

/-! ## A line alone -/

/-- A session in the root of scripted files that has received one line, and will receive nothing more. -/
def lone (files : ScriptedFiles) (line : Text) : Conversation (Attested ScriptedFiles) ScriptedWriter :=
  ⟨⟨⟨files, []⟩, .empty, .accepting, ⟨[Path.slash]⟩, ⟨lineBytes line⟩, .command⟩, []⟩

/-- The line is dealt with by these attempts and this one line in reply. -/
def Deals (files : ScriptedFiles) (line reply : Text) (attempts : List Attempt) : Prop :=
  ∃ t, (lone files line).GoesTo t ∧
    Honest ⟨(lone files line).session.withInput .empty, []⟩ line t (some reply) (lineBytes reply) attempts ∧
    t.session.output.contents = lineBytes reply

section Lone

variable {files : ScriptedFiles} {line reply : Text} {attempts : List Attempt}
  {s : Session (Attested ScriptedFiles) ScriptedWriter}

theorem nextLine_lone (h : IsRequest line) : (lone files line).session.input.nextLine = .line line .empty := by
  have hline := h.nextLine []
  rwa [List.append_nil] at hline

theorem eq_or_eq_close_of_lone (hrequest : IsRequest line)
    (hs : ((lone files line).session.withInput .empty).handleLine line = s) (hphase : s.phase = .command)
    (hinput : s.input = .empty) {t : Conversation (Attested ScriptedFiles) ScriptedWriter}
    (h : (lone files line).GoesTo t) : t = lone files line ∨ t = ⟨s, []⟩ ∨ t = ⟨s.close, []⟩ := by
  have hstep : (lone files line).go = ⟨s, []⟩ := by
    rw [← hs]
    exact go_of_advance? (Session.advance?_of_line rfl (nextLine_lone hrequest))
  have hwaits : s.advance? = none := by
    apply Session.advance?_of_nothing hphase
    rw [hinput]
    rfl
  obtain ⟨n, rfl⟩ := h
  cases n with
  | zero => exact .inl rfl
  | succ n =>
    have hgo : (⟨s, []⟩ : Conversation (Attested ScriptedFiles) ScriptedWriter).GoesTo
        ((lone files line).go.after (List.replicate n .go)) := ⟨n, by rw [hstep]⟩
    exact .inr (eq_or_eq_close_of_goesTo hphase hwaits hgo)

/-- A command that takes up no transfer is dealt with as its handling has it. -/
theorem deals_of_honest (verb : Verb) (argument : Text) (hrequest : IsRequest line)
    (hasks : Command.ofLine? line = some ⟨verb.name, argument⟩)
    (hget : verb ≠ .get) (hquit : verb ≠ .quit) (hcreate : ∀ p, .create p (.ok ()) ∉ attempts)
    (hs : ((lone files line).session.withInput .empty).handleLine line = s) (hphase : s.phase = .command)
    (hinput : s.input = .empty) (hattempts : s.gateway.attempts = attempts)
    (houtput : s.output = (Writer.send ScriptedWriter.accepting (lineBytes reply)).2)
    (h : ∃ t reply bytes attempts, (lone files line).GoesTo t ∧
      Honest ⟨(lone files line).session.withInput .empty, []⟩ line t reply bytes attempts) :
    Deals files line reply attempts := by
  obtain ⟨t, reply', bytes, attempts', hgo, h⟩ := h
  have hnothing : ScriptedWriter.Holds (lone files line).session.output [] := ⟨rfl, rfl, rfl, rfl, rfl⟩
  have hheld := h.heard ScriptedWriter.accepts_holds hnothing
  have hanswered (hnone : ∀ p, .create p (.ok ()) ∉ attempts') := h.said.answered
    (fun _ hasks' => hget (Asks.unique hasks' hasks).1) hnone (fun _ hasks' => hquit (Asks.unique hasks' hasks).1)
  rcases eq_or_eq_close_of_lone hrequest hs hphase hinput hgo with rfl | hend
  · -- something would have been said already
    have hnone : attempts' = [] := h.attempted.symm
    obtain ⟨answer, -, rfl⟩ := hanswered (by simp [hnone])
    exact absurd hheld.contents.symm (lineBytes_ne_nil answer)
  · have hsame : t.session.gateway = s.gateway ∧ t.session.output = s.output := by
      rcases hend with rfl | rfl <;> exact ⟨rfl, rfl⟩
    have hattempted : t.session.gateway.attempts = attempts' := h.attempted
    rw [hsame.1, hattempts] at hattempted
    subst hattempted
    obtain ⟨answer, rfl, rfl⟩ := hanswered hcreate
    have hsent : ScriptedWriter.Holds t.session.output (lineBytes reply) := by
      rw [hsame.2, houtput]
      exact ScriptedWriter.accepts_holds.holds_send hnothing _
    obtain rfl : answer = reply := lineBytes_inj.mp (hheld.contents.symm.trans hsent.contents)
    exact ⟨t, hgo, h, hsent.contents⟩

end Lone

/-! ## Any line -/

/-- Whatever the files answer and however a line and what follows it are delivered, the session deals with the
line, and the line it sends in reply says what was done. -/
theorem replies_are_honest {c : Conversation (Attested γ) ω} {line : Text} {rest : InputBuffer}
    (hphase : c.session.phase = .command) (hline : c.session.input.nextLine = .line line rest) :
    ∃ t reply bytes attempts, c.GoesTo t ∧
      Honest ⟨c.session.withInput rest, c.source⟩ line t reply bytes attempts := by
  obtain ⟨t, verdict, attempts, hgo, h⟩ := settles hphase hline
  obtain ⟨bytes, hsays⟩ := h.exists_says
  refine ⟨t, verdict.map Response.render, bytes, attempts, hgo, h.attempted, hsays, hsays.heard, ?_, h.succeeds,
    h.directory, h.refused, ?_⟩
  · rw [Option.isSome_map]
    exact h.ended hphase
  · intro r hr
    obtain ⟨rfl, rfl, rfl⟩ := h.idle_of_asksNothing hr
    exact ⟨rfl, rfl, rfl⟩

/-- What is granted is reported as done, and what is refused as an error. -/
theorem replies_are_honest_done_and_refused :
    let denied : IoError := .plain .permissionDenied
    let granting : ScriptedFiles := ⟨⟨[Path.slash]⟩, [], [], [], [], [], [], [], []⟩
    let refusing : ScriptedFiles := ⟨⟨[Path.slash]⟩, [], [.error denied], [], [], [], [], [.error denied], []⟩
    let a : Path := ⟨[Path.slash, 97]⟩
    Deals granting (text "mkdir a") (text "SUCCESS: Directory created successfully.")
        [.exists a false, .mkdir a (.ok ())] ∧
      Deals refusing (text "mkdir a") (text "ERROR: Permission denied.") [.exists a false, .mkdir a (.error denied)] ∧
      Deals granting (text "cd a") (text "SUCCESS: Changed directory to /a.") [.chdir a (.ok a)] ∧
      Deals refusing (text "put a") (text "ERROR: Permission denied.") [.create a (.error denied)] := by
  intro denied granting refusing a
  have hmkdir : IsRequest (text "mkdir a") := ⟨by decide, by decide⟩
  have hcd : IsRequest (text "cd a") := ⟨by decide, by decide⟩
  have hput : IsRequest (text "put a") := ⟨by decide, by decide⟩
  refine ⟨?_, ?_, ?_, ?_⟩
  · exact deals_of_honest .mkdir (text "a") hmkdir (by decide) (by decide) (by decide) (by simp) rfl rfl rfl rfl rfl
      (replies_are_honest rfl (nextLine_lone hmkdir))
  · exact deals_of_honest .mkdir (text "a") hmkdir (by decide) (by decide) (by decide) (by simp) rfl rfl rfl rfl rfl
      (replies_are_honest rfl (nextLine_lone hmkdir))
  · have hdisplay : a.display = text "/a" := Utf8.decodeLossy_encode (text "/a")
    refine deals_of_honest .cd (text "a") hcd (by decide) (by decide) (by decide) (by simp) rfl rfl rfl rfl ?_
      (replies_are_honest rfl (nextLine_lone hcd))
    change (Writer.send _ (lineBytes (text "SUCCESS: Changed directory to " ++ a.display ++ text "."))).2 = _
    rw [hdisplay]
    rfl
  · exact deals_of_honest .put (text "a") hput (by decide) (by decide) (by decide) (by simp) rfl rfl rfl rfl rfl
      (replies_are_honest rfl (nextLine_lone hput))

end Conversation

end FileFerry
