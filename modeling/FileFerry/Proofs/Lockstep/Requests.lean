import FileFerry.Proofs.Client.Dialogue
import FileFerry.Proofs.Client.TypedLines
import FileFerry.Proofs.Lockstep.Replies

/-!
# What a client sends, and what it makes of a line

From its prompt a client comes to its end, to its prompt again, or to wait for the answer to the one
line that it sent. `Awaits` ties what it waits for to that line.
-/

set_option autoImplicit false

namespace FileFerry

/-! ## Lines -/

theorem trimLineEnd_isPrefix (t : Text) : Text.trimLineEnd t <+: t := by
  rw [Text.trimLineEnd, Text.dropEndWhile_eq]
  exact List.rdropWhile_prefix Text.isLineEnd _

theorem accepts_error (message acceptance : Text) :
    (Response.ofLine (Text.trimLineEnd (Response.framed .error message).render)).accepts acceptance =
      false := by
  have hnot : Response.afterStatus? .success (Text.trimLineEnd (Text.trimLineEnd
      (Response.framed .error message).render)) = none := by
    unfold Response.afterStatus? Text.stripStart?
    apply if_neg
    intro hprefix
    have h := (List.isPrefixOf_iff_prefix.mp hprefix).trans ((trimLineEnd_isPrefix _).trans
      (trimLineEnd_isPrefix _))
    obtain ⟨more, heq⟩ := h
    exact absurd (List.cons.inj heq).1 (by decide)
  unfold Response.ofLine
  dsimp only
  rw [hnot]
  dsimp only
  split <;> rfl

theorem takeLine?_line {line : Text} (hline : '\n' ∉ line) (rest : Bytes) :
    takeLine? (lineBytes line ++ rest) = some (Text.trimLineEnd line, rest) := by
  rw [takeLine?, lineBytes_eq, List.append_assoc, List.singleton_append,
    cutAtNewline?_line (Utf8.newline_not_mem_encode hline)]
  simp only [Option.map_some, Utf8.decodeLossy_encode]

theorem takeLine?_append {pending after : Bytes} {taken : Text} (h : takeLine? pending = some (taken, after))
    (more : Bytes) : takeLine? (pending ++ more) = some (taken, after ++ more) := by
  obtain ⟨⟨before, after'⟩, hcut, heq⟩ := Option.map_eq_some_iff.mp h
  obtain ⟨rfl, rfl⟩ := Prod.mk.inj heq
  obtain ⟨hbefore, rfl⟩ := cutAtNewline?_eq_some_iff.mp hcut
  rw [takeLine?, List.append_assoc, List.cons_append, cutAtNewline?_line hbefore]
  rfl

/-- The first line of what a client has received, with what is still on its way behind it. -/
theorem takeLine?_of_append {pending after inFlight rest : Bytes} {line taken : Text}
    (htake : takeLine? pending = some (taken, after)) (hline : '\n' ∉ line)
    (hall : pending ++ inFlight = lineBytes line ++ rest) :
    taken = Text.trimLineEnd line ∧ after ++ inFlight = rest := by
  have hwhole := takeLine?_append htake inFlight
  rw [hall, takeLine?_line hline] at hwhole
  obtain ⟨rfl, rfl⟩ := Prod.mk.inj (Option.some.inj hwhole)
  exact ⟨rfl, rfl⟩

/-- What a session finds of a request while it comes in: nothing until it is whole, then that request. -/
theorem nextLine_request {b : InputBuffer} {inFlight : Bytes} {request : Text} (hrequest : IsRequest request)
    (hlen : (lineBytes request).length ≤ maxLineBytes) (hall : b.pending ++ inFlight = lineBytes request) :
    (b.nextLine = .line request .empty ∧ inFlight = []) ∨ (b.nextLine = .incomplete ∧ inFlight ≠ []) := by
  have hwhole := cutAtNewline?_line hrequest.newline_not_mem []
  rw [← lineBytes_eq, ← hall] at hwhole
  unfold InputBuffer.nextLine
  cases hcut : cutAtNewline? b.pending with
  | some parts =>
    obtain ⟨before, after⟩ := parts
    obtain ⟨hbefore, hpending⟩ := cutAtNewline?_eq_some_iff.mp hcut
    rw [hpending, List.append_assoc, List.cons_append, cutAtNewline?_line hbefore] at hwhole
    obtain ⟨rfl, hnothing⟩ := Prod.mk.inj (Option.some.inj hwhole)
    obtain ⟨rfl, rfl⟩ := List.append_eq_nil_iff.mp hnothing
    dsimp only
    rw [hrequest.decodeLossy]
    exact .inl ⟨rfl, rfl⟩
  | none =>
    have hmore : inFlight ≠ [] := by
      rintro rfl
      rw [List.append_nil, hcut] at hwhole
      cases hwhole
    have hsum := congrArg List.length hall
    rw [List.length_append] at hsum
    have hpos := List.length_pos_iff.mpr hmore
    dsimp only
    rw [if_neg (by omega)]
    exact .inr ⟨rfl, hmore⟩

namespace Client

variable {φ τ δ : Type} [Gateway φ]

/-- The client has ended, or is at its prompt with nothing sent or received meanwhile. -/
def Returned (c c' : Client φ τ Pipe δ) : Prop :=
  c'.isFinished = true ∨ (c'.phase = .prompt ∧ c'.pending = c.pending ∧ c'.output = c.output ∧
    c'.keyboard ⊆ c.keyboard)

theorem returned_prompt {c c' : Client φ τ Pipe δ} (hphase : c'.phase = .prompt)
    (hpending : c'.pending = c.pending) (houtput : c'.output = c.output)
    (hkeyboard : c'.keyboard ⊆ c.keyboard) : Returned c c' :=
  .inr ⟨hphase, hpending, houtput, hkeyboard⟩

variable [Writer τ]

theorem returned_tell (c : Client φ τ Pipe δ) (t : Text) : Returned c (c.tell t) := by
  obtain ⟨terminal, htell, -⟩ | ⟨e, terminal, htell, -⟩ := tell_cases c t
  · rw [htell]
    exact returned_prompt rfl rfl rfl (List.Subset.refl _)
  · rw [htell]
    exact .inl rfl

theorem returned_report (c : Client φ τ Pipe δ) (e : ClientError) : Returned c (c.report e) := by
  unfold report
  split
  · exact .inl rfl
  · exact returned_tell c e.message

theorem ask_eq (c : Client φ τ Pipe δ) (line : Text) (phase : ClientPhase φ) :
    c.ask line phase = { c with output := ⟨c.output.inFlight ++ lineBytes line⟩, phase } := by
  simp only [ask, Pipe.send_eq, lineBytes]

theorem returned_terminate [Canceller δ] (c : Client φ τ Pipe δ) (argument : Text) :
    Returned c (c.terminate argument) := by
  have hends := terminates c argument
  generalize c.terminate argument = c' at hends
  cases hends with
  | malformed => exact returned_tell c _
  | @undialled _ _ canceller | @requested _ canceller => exact returned_tell { c with canceller } _
  | unsent => exact .inl rfl

theorem returned_completeDownload (c : Client φ τ Pipe δ) (d : Download φ) (r : Reception) :
    Returned c (c.completeDownload d r) := by
  unfold completeDownload
  dsimp only
  split
  · exact returned_tell _ _
  · exact returned_report _ _

theorem returned_completeUpload (c : Client φ τ Pipe δ) (path : Path) (sent : Transmission)
    (verdict : Response) : Returned c (c.completeUpload path sent verdict) := by
  unfold completeUpload
  obtain ⟨terminal, hprint, -⟩ | ⟨e, terminal, hprint, -⟩ := print_cases c verdict.render
  · rw [hprint]
    cases sent with
    | sent n => exact returned_prompt rfl rfl rfl (List.Subset.refl _)
    | sourceFailed e | outputFailed e => exact returned_report _ _
  · rw [hprint]
    exact .inl rfl

/-! ## What it waits for -/

/-- What a client that sent a line waits for. -/
inductive Awaits : ClientPhase φ → Text → Prop where
  | reply {line : Text} (h : Session.IsPlain line) : Awaits .reply line
  | download {name : Text} (hne : name ≠ []) (htrim : Text.trim name = name) :
      Awaits (.downloadReply name) (downloadRequest name)
  | upload {name : Text} {path : Path} {source : Source} (hne : name ≠ [])
      (htrim : Text.trim name = name) : Awaits (.uploadReply name path source) (uploadRequest name)

theorem Awaits.awaitsLine {phase : ClientPhase φ} {line : Text} (h : Awaits phase line) : AwaitsLine phase := by
  cases h <;> constructor

/-- A line that a client waits for and takes up no transfer by. -/
inductive Hears : ClientPhase φ → Text → Prop where
  | greeting {line : Text} : Hears .greeting line
  | reply {line : Text} : Hears .reply line
  | downloadRefused {name message : Text} :
      Hears (.downloadReply name) (Response.framed .error message).render
  | uploadRefused {name message : Text} {path : Path} {source : Source} :
      Hears (.uploadReply name path source) (Response.framed .error message).render
  | verdict {path : Path} {sent : Transmission} {line : Text} : Hears (.verdict path sent) line

theorem Hears.awaitsLine {phase : ClientPhase φ} {line : Text} (h : Hears phase line) : AwaitsLine phase := by
  cases h <;> constructor

theorem returned_takeLine {c : Client φ τ Pipe δ} {line : Text} (h : Hears c.phase line) :
    Returned c (c.takeLine (Text.trimLineEnd line)) := by
  generalize hp : c.phase = phase at h
  unfold takeLine
  cases h with
  | greeting =>
    simp only [hp]
    exact returned_tell c _
  | reply =>
    simp only [hp]
    exact returned_tell c _
  | downloadRefused =>
    simp only [hp, accepts_error]
    exact returned_tell c _
  | uploadRefused =>
    simp only [hp, accepts_error]
    exact returned_tell c _
  | verdict =>
    simp only [hp]
    exact returned_completeUpload c _ _ _

theorem takeLine_transferStart {c : Client φ τ Pipe δ} {name : Text} (hp : c.phase = .downloadReply name) :
    c.takeLine (Text.trimLineEnd transferStartLine) = c.acceptDownload name := by
  have haccepts : (Response.ofLine (Text.trimLineEnd transferStartLine)).accepts downloadAccepted = true := by
    decide
  simp only [takeLine, hp, haccepts, if_true]

theorem takeLine_ready {c : Client φ τ Pipe δ} {name : Text} {path : Path} {source : Source}
    (hp : c.phase = .uploadReply name path source) :
    c.takeLine (Text.trimLineEnd readyLine) = { c with phase := .sending path (.ofSource source) } := by
  have haccepts : (Response.ofLine (Text.trimLineEnd readyLine)).accepts uploadAccepted = true := by decide
  simp only [takeLine, hp, haccepts, if_true]

omit [Writer τ] in
theorem acceptDownload_eq (c : Client φ τ Pipe δ) (name : Text) :
    ∃ files d, d.name = name ∧ d.reception.scanner = .empty ∧ d.reception.received = 0 ∧
      c.acceptDownload name = { c with files, phase := .payload d } := by
  unfold acceptDownload
  dsimp only
  split
  · exact ⟨_, _, rfl, rfl, rfl, rfl⟩
  · exact ⟨_, _, rfl, rfl, rfl, rfl⟩

/-! ## At the prompt -/

/-- The client waits for the answer to a line that it just sent. -/
structure Asked (c c' : Client φ τ Pipe δ) (request : Text) : Prop where
  awaits : Awaits c'.phase request
  sendable : IsRequest request
  output : c'.output.inFlight = c.output.inFlight ++ lineBytes request
  pending : c'.pending = c.pending
  keyboard : c'.keyboard ⊆ c.keyboard

theorem isPlain_of_trim {line : Text} (htrim : Text.trim line = line)
    (hquit : Text.firstWord line ≠ quitRequest)
    (hget : ¬ (Text.firstWord line = text "get" ∧ Text.afterFirstWord line ≠ []))
    (hput : ¬ (Text.firstWord line = text "put" ∧ Text.afterFirstWord line ≠ [])) :
    Session.IsPlain line := by
  intro command hcommand
  unfold Command.ofLine? at hcommand
  rw [htrim] at hcommand
  split at hcommand
  · cases hcommand
  · cases hcommand
    refine ⟨hquit, ?_, ?_⟩
    · intro hname
      exact Classical.not_not.mp fun hne => hget ⟨hname, hne⟩
    · intro hname
      exact Classical.not_not.mp fun hne => hput ⟨hname, hne⟩

theorem mem_of_mem_afterFirstWord {line : Text} {x : Char} (h : x ∈ Text.afterFirstWord line) : x ∈ line := by
  have hmem := (Text.trim_isInfix _).subset h
  exact (List.dropWhile_sublist _).subset hmem

variable [Canceller δ]

theorem execute_outcome (c : Client φ τ Pipe δ) {line : Text} (htrim : Text.trim line = line)
    (hline : '\n' ∉ line) :
    Returned c (c.execute line) ∨
      ∃ request, Asked c (c.execute line) request ∧ (c.execute line).terminal = c.terminal := by
  have hargument : Text.trim (Text.afterFirstWord line) = Text.afterFirstWord line := Text.trim_trim _
  have hname : '\n' ∉ Text.afterFirstWord line := fun h => hline (mem_of_mem_afterFirstWord h)
  have hexecutes := executes c line
  generalize c.execute line = c' at hexecutes
  cases hexecutes with
  | quits =>
    rw [ask_eq]
    exact .inl (.inl rfl)
  | downloads hget =>
    rw [ask_eq]
    have hrequest := isRequest_named (text "get ") (by decide) hget.2 hargument hname
    exact .inr ⟨_, ⟨.download hget.2 hargument, hrequest, rfl, rfl, List.Subset.refl _⟩, rfl⟩
  | uploads hput =>
    rw [ask_eq]
    have hrequest := isRequest_named (text "put ") (by decide) hput.2 hargument hname
    exact .inr ⟨_, ⟨.upload hput.2 hargument, hrequest, rfl, rfl, List.Subset.refl _⟩, rfl⟩
  | @lacksFile _ files => exact .inl (returned_report { c with files } _)
  | cancels => exact .inl (returned_terminate c _)
  | asks hquit hget hput =>
    rw [ask_eq]
    exact .inr ⟨line, ⟨.reply (isPlain_of_trim htrim hquit hget hput), isRequest_of_trim htrim hline,
      rfl, rfl, List.Subset.refl _⟩, rfl⟩

theorem takeCommand_outcome (c : Client φ τ Pipe δ)
    (htyped : ∀ line, .ok line ∈ c.keyboard → newline ∉ line.dropLast) :
    Returned c c.takeCommand ∨ ∃ request, Asked c c.takeCommand request ∧
      Writer.send c.terminal (Utf8.encode prompt) = (.ok (), c.takeCommand.terminal) := by
  have hrest {typed : Except IoError Bytes} {rest : List (Except IoError Bytes)} (hkey : c.keyboard = typed :: rest) :
      rest ⊆ c.keyboard := by
    rw [hkey]
    exact List.subset_cons_self _ _
  have hprompts := prompts c
  generalize c.takeCommand = c' at hprompts
  cases hprompts with
  | breaks | ends | endsUnsent | fails | illFormed => exact .inl (.inl rfl)
  | blank hkey => exact .inl (returned_prompt rfl rfl rfl (hrest hkey))
  | @executes bytes terminal rest line hshow hkey hdecode =>
    have htaken : .ok bytes ∈ c.keyboard := by
      rw [hkey]
      exact List.mem_cons_self
    have honeLine : '\n' ∉ Text.trim line :=
      Text.newline_not_mem_trim (Utf8.newline_not_mem_dropLast_of_decode? hdecode (htyped bytes htaken))
    rcases execute_outcome { c with terminal, keyboard := rest } (Text.trim_trim line) honeLine with
      hreturned | ⟨request, hasked, hterminal⟩
    · rcases hreturned with hfinished | ⟨hphase, hpending, houtput, hkeyboard⟩
      · exact .inl (.inl hfinished)
      · exact .inl (returned_prompt hphase hpending houtput (List.Subset.trans hkeyboard (hrest hkey)))
    · refine .inr ⟨request, ⟨hasked.awaits, hasked.sendable, hasked.output, hasked.pending,
        List.Subset.trans hasked.keyboard (hrest hkey)⟩, ?_⟩
      rw [hterminal]
      exact hshow

/-! ## Lines from the server -/

/-- A client takes the line that comes, and leaves what comes behind it. -/
theorem takeLine_of_advance? {c c' : Client φ τ Pipe δ} {line : Text} {inFlight rest : Bytes}
    (h : AwaitsLine c.phase) (hline : '\n' ∉ line) (hall : c.pending ++ inFlight = lineBytes line ++ rest)
    (hstep : c.advance? = some c') :
    ∃ after, c.pending = lineBytes line ++ after ∧ after ++ inFlight = rest ∧
      ({ c with pending := after }).takeLine (Text.trimLineEnd line) = c' := by
  rw [advance?_of_awaitsLine h] at hstep
  obtain ⟨⟨taken, after⟩, htake, hc'⟩ := Option.map_eq_some_iff.mp hstep
  obtain ⟨rfl, hrest⟩ := takeLine?_of_append htake hline hall
  rw [← hrest, ← List.append_assoc] at hall
  exact ⟨after, List.append_cancel_right hall, hrest, hc'⟩

/-- The line that the client waits for is all that comes, and the client has it whole. -/
theorem takeLine_of_hears {c c' : Client φ τ Pipe δ} {line : Text} {inFlight : Bytes} (h : Hears c.phase line)
    (hline : '\n' ∉ line) (hall : c.pending ++ inFlight = lineBytes line) (hstep : c.advance? = some c') :
    inFlight = [] ∧ c.pending = lineBytes line ∧
      ({ c with pending := [] }).takeLine (Text.trimLineEnd line) = c' := by
  rw [← List.append_nil (lineBytes line)] at hall
  obtain ⟨after, hpending, hnothing, hc'⟩ := takeLine_of_advance? h.awaitsLine hline hall hstep
  obtain ⟨rfl, rfl⟩ := List.append_eq_nil_iff.mp hnothing
  rw [List.append_nil] at hpending
  exact ⟨rfl, hpending, hc'⟩

/-- Then it is done with the request. -/
theorem returned_of_hears {c c' : Client φ τ Pipe δ} {line : Text} {inFlight : Bytes} (h : Hears c.phase line)
    (hline : '\n' ∉ line) (hall : c.pending ++ inFlight = lineBytes line) (hstep : c.advance? = some c') :
    inFlight = [] ∧ Returned { c with pending := [] } c' := by
  obtain ⟨rfl, -, rfl⟩ := takeLine_of_hears h hline hall hstep
  exact ⟨rfl, returned_takeLine (c := { c with pending := [] }) h⟩

omit [Canceller δ] in
theorem print_of_accepts {κ : Type} {holds : τ → Bytes → Prop} (hterminal : Writer.Accepts holds)
    {c : Client φ τ κ δ} {shown : Bytes} (hshown : holds c.terminal shown) (t : Text) :
    ∃ terminal, c.print t = (.ok (), { c with terminal }) ∧ holds terminal (shown ++ lineBytes t) := by
  obtain ⟨written, htext, hwritten⟩ := hterminal.writeAll hshown (Utf8.encode t)
  obtain ⟨terminal, hnewline, hheld⟩ := hterminal.writeAll hwritten [newline]
  refine ⟨terminal, ?_, ?_⟩
  · simp only [print, htext, hnewline]
    rfl
  · rw [lineBytes_eq, ← List.append_assoc]
    exact hheld

omit [Canceller δ] in
theorem tell_of_accepts {κ : Type} {holds : τ → Bytes → Prop} (hterminal : Writer.Accepts holds)
    {c : Client φ τ κ δ} {shown : Bytes} (hshown : holds c.terminal shown) (t : Text) :
    ∃ terminal, c.tell t = { c with terminal, phase := .prompt } ∧ holds terminal (shown ++ lineBytes t) := by
  obtain ⟨terminal, hprint, hheld⟩ := print_of_accepts hterminal hshown t
  refine ⟨terminal, ?_, hheld⟩
  rw [tell, hprint]
  rfl

omit [Writer τ] in
theorem advance?_shows {c : Client φ Pipe Pipe δ}
    (hphase : c.phase = .greeting ∨ c.phase = .reply) {line : Text} (hline : '\n' ∉ line)
    (hpending : c.pending = lineBytes line) :
    ∃ terminal, c.advance? = some { c with terminal, pending := [], phase := .prompt } := by
  have hawaits : AwaitsLine c.phase := by
    rcases hphase with h | h
    · rw [h]
      exact .greeting
    · rw [h]
      exact .reply
  have htake := takeLine?_line hline []
  rw [List.append_nil, ← hpending] at htake
  rw [advance?_of_awaitsLine hawaits, htake]
  have htells (t : Text) := tell_of_accepts (c := { c with pending := [] }) Pipe.accepts_holds
    (rfl : Pipe.Holds c.terminal c.terminal.inFlight) t
  rcases hphase with h | h
  · obtain ⟨terminal, htell, -⟩ := htells (Text.trimLineEnd line)
    refine ⟨terminal, ?_⟩
    simp only [Option.map_some, takeLine, h]
    simp only [h] at htell
    exact congrArg some htell
  · obtain ⟨terminal, htell, -⟩ := htells (Response.ofLine (Text.trimLineEnd line)).render
    refine ⟨terminal, ?_⟩
    simp only [Option.map_some, takeLine, h]
    simp only [h] at htell
    exact congrArg some htell

end Client

end FileFerry
