import FileFerry.Gateway.Local
import FileFerry.Proofs.Lockstep.Requests

/-!
# A typed line and the request for it

A client and a session split lines on their own, the client the line that is typed and the session the
request that comes of it. They come to the same name and the same argument, so the client begins a
transfer for the lines that the session takes for one, and for no others
(`client_and_session_split_alike`).
-/

set_option autoImplicit false

namespace FileFerry

/-- Whatever comes behind the request, a session takes it for the command. -/
def IsReadAs (request : Text) (command : Command) : Prop :=
  ∀ behind : Bytes, ∃ line,
    (⟨lineBytes request ++ behind⟩ : InputBuffer).nextLine = .line line ⟨behind⟩ ∧
      Command.ofLine? line = some command

theorem IsRequest.isReadAs {request : Text} {command : Command} (h : IsRequest request)
    (hcommand : Command.ofLine? request = some command) : IsReadAs request command := by
  intro behind
  exact ⟨request, h.nextLine behind, hcommand⟩

namespace Command

/-- The command has the verb of a transfer, and names a file. -/
structure Transfers (command : Command) (verb : Verb) : Prop where
  verb : Verb.ofName? command.name = some verb
  named : command.argument ≠ []

theorem Transfers.name {command : Command} {verb : Verb} (h : command.Transfers verb) :
    command.name = verb.name := (Verb.name_of_ofName? h.verb).symm

theorem not_transfers {command : Command} {name : Text} (hname : command.name = name) (verb : Verb)
    (hverb : verb.name ≠ name) : ¬ command.Transfers verb := fun h => hverb (h.name.symm.trans hname)

theorem transfers_iff {command : Command} {verb : Verb} :
    command.Transfers verb ↔ command.name = verb.name ∧ command.argument ≠ [] := by
  constructor
  · intro h
    exact ⟨h.name, h.named⟩
  · rintro ⟨hname, hargument⟩
    exact ⟨by rw [hname, Verb.ofName?_name], hargument⟩

end Command

namespace Client

variable {φ τ κ δ : Type} [Gateway φ] [Writer τ] [Writer κ] [Canceller δ]

/-- What a client does with the trimmed line `line`, which a session would take for `command`. But to quit or to
cancel it asks the session, if anything, by a request that is read as the same command. It enters on a transfer
if the command is one; an upload comes to nothing if the client cannot open the file. -/
inductive Obeys (c : Client φ τ κ δ) (line : Text) (command : Command) : Client φ τ κ δ → Prop where
  | quits (hname : command.name = quitRequest) : Obeys c line command (c.ask quitRequest (.finished (.ok ())))
  | cancels (hname : command.name = text "terminate") : Obeys c line command (c.terminate command.argument)
  | downloads (htransfer : command.Transfers .get) (hread : IsReadAs (downloadRequest command.argument) command) :
      Obeys c line command (c.ask (downloadRequest command.argument) (.downloadReply command.argument))
  | uploads {source : Source} {files : φ} (htransfer : command.Transfers .put)
      (hread : IsReadAs (uploadRequest command.argument) command)
      (hopen : Gateway.openFile c.files (c.localPath command.argument) = (.ok source, files)) :
      Obeys c line command ({ c with files }.ask (uploadRequest command.argument)
        (.uploadReply command.argument (c.localPath command.argument) source))
  | lacksFile {e : IoError} {files : φ} (htransfer : command.Transfers .put)
      (hopen : Gateway.openFile c.files (c.localPath command.argument) = (.error e, files)) :
      Obeys c line command ({ c with files }.report (.localFile (c.localPath command.argument) e))
  | asks (hquit : command.name ≠ quitRequest) (hcancel : command.name ≠ text "terminate")
      (hget : ¬ command.Transfers .get) (hput : ¬ command.Transfers .put) (hread : IsReadAs line command) :
      Obeys c line command (c.ask line .reply)

/-! ## What is sent -/

/-- A verb, a blank and the argument are read as the command again. -/
theorem isReadAs_named {command : Command} {verb : Verb} (h : command.Transfers verb)
    (hargument : Text.trim command.argument = command.argument) (hnewline : '\n' ∉ command.argument) :
    IsReadAs (verb.name ++ ' ' :: command.argument) command := by
  have hverb := verb.name_not_blank
  have hname : '\n' ∉ verb.name ++ [' '] := by cases verb <;> decide
  have hrequest := isRequest_named (verb.name ++ [' ']) hname h.named hargument hnewline
  rw [List.append_assoc, List.singleton_append] at hrequest
  apply hrequest.isReadAs
  rw [Command.ofLine?_request hverb (by cases verb <;> decide) h.named hargument, ← h.name]

theorem obeys_execute (c : Client φ τ κ δ) {line : Text} (htrim : Text.trim line = line) (hline : '\n' ∉ line)
    {command : Command} (hcommand : Command.ofLine? line = some command) :
    Obeys c line command (c.execute line) := by
  obtain rfl : command = ⟨Text.firstWord line, Text.afterFirstWord line⟩ := by
    unfold Command.ofLine? at hcommand
    rw [htrim] at hcommand
    split at hcommand
    · cases hcommand
    · exact (Option.some.inj hcommand).symm
  have hargument : Text.trim (Text.afterFirstWord line) = Text.afterFirstWord line := Text.trim_trim _
  have hnewline : '\n' ∉ Text.afterFirstWord line := fun h => hline (mem_of_mem_afterFirstWord h)
  have hexecutes := executes c line
  generalize c.execute line = c' at hexecutes
  cases hexecutes with
  | quits hquit => exact .quits hquit
  | downloads hget =>
    have htransfer : Command.Transfers ⟨Text.firstWord line, Text.afterFirstWord line⟩ .get :=
      Command.transfers_iff.mpr hget
    exact .downloads htransfer (isReadAs_named htransfer hargument hnewline)
  | uploads hput hopen =>
    have htransfer : Command.Transfers ⟨Text.firstWord line, Text.afterFirstWord line⟩ .put :=
      Command.transfers_iff.mpr hput
    exact .uploads htransfer (isReadAs_named htransfer hargument hnewline) hopen
  | lacksFile hput hopen => exact .lacksFile (Command.transfers_iff.mpr hput) hopen
  | cancels hcancel => exact .cancels hcancel
  | asks hquit hget hput hcancel =>
    refine .asks hquit hcancel ?_ ?_ ((isRequest_of_trim htrim hline).isReadAs hcommand)
    · exact fun h => hget (Command.transfers_iff.mp h)
    · exact fun h => hput (Command.transfers_iff.mp h)

/-- The end of a typed line is blank, and no part of the command. -/
theorem obeys_takeCommand {c prompted : Client φ τ κ δ} {line : Text} {ending : Bytes}
    {keyboard : List (Except IoError Bytes)} {command : Command} (hline : '\n' ∉ line)
    (hending : ending = [] ∨ ending = [newline])
    (hkeyboard : c.keyboard = .ok (Utf8.encode line ++ ending) :: keyboard)
    (hprompt : c.showPrompt = (.ok (), prompted)) (hcommand : Command.ofLine? line = some command) :
    Obeys { prompted with keyboard } (Text.trim line) command c.takeCommand := by
  obtain ⟨tail, htail, hfree⟩ : ∃ tail, Utf8.encode line ++ ending = Utf8.encode (line ++ tail) ∧
      Text.trim (line ++ tail) = Text.trim line := by
    rcases hending with rfl | rfl
    · exact ⟨[], by simp, by simp⟩
    · have hblank : Text.IsBlanks ['\n'] := by
        intro x hx
        obtain rfl := List.mem_singleton.mp hx
        decide
      exact ⟨['\n'], (Utf8.encode_append line ['\n']).symm, Text.trim_append_blanks line hblank⟩
  have hkeys : prompted.keyboard = .ok (Utf8.encode (line ++ tail)) :: keyboard := by
    obtain ⟨-, rfl⟩ := Prod.mk.inj hprompt
    rw [← htail]
    exact hkeyboard
  have hnewline : '\n' ∉ Text.trim line := fun h => hline ((Text.trim_isInfix line).subset h)
  have htrimmed : Command.ofLine? (Text.trim line) = some command := by
    rw [← hcommand]
    exact Command.ofLine?_eq_of_trim (Text.trim_trim line)
  have hobeys := obeys_execute { prompted with keyboard } (Text.trim_trim line) hnewline htrimmed
  unfold takeCommand
  simp only [hprompt, hkeys, Utf8.decode?_encode, hfree]
  split
  · rename_i htrim
    rw [htrim] at htrimmed
    cases htrimmed
  · rename_i x xs htrim
    rwa [← htrim]

/-! ## Where it leads -/

/-- The client is at its prompt, or has ended. -/
inductive IsIdle : ClientPhase φ → Prop where
  | prompt : IsIdle .prompt
  | finished (result : Except ClientError Unit) : IsIdle (.finished result)

theorem IsIdle.awaits_nothing {phase : ClientPhase φ} (h : IsIdle phase) :
    (¬ ∃ name, phase = .downloadReply name) ∧ ¬ ∃ name path source, phase = .uploadReply name path source := by
  cases h <;> simp

omit [Writer κ] [Canceller δ] in
theorem isIdle_tell (c : Client φ τ κ δ) (t : Text) : IsIdle (c.tell t).phase := by
  obtain hphase | ⟨e, hphase⟩ := phase_tell_cases c t
  · rw [hphase]
    exact .prompt
  · rw [hphase]
    exact .finished _

omit [Writer κ] [Canceller δ] in
theorem isIdle_report (c : Client φ τ κ δ) (e : ClientError) : IsIdle (c.report e).phase := by
  unfold report
  split
  · exact .finished _
  · exact isIdle_tell c _

omit [Writer κ] in
theorem isIdle_terminate (c : Client φ τ κ δ) (argument : Text) : IsIdle (c.terminate argument).phase := by
  have hends := terminates c argument
  generalize c.terminate argument = c' at hends
  cases hends with
  | malformed | undialled | requested => exact isIdle_tell _ _
  | unsent => exact .finished _

omit [Canceller δ] in
theorem phase_ask {c : Client φ τ κ δ} (h : ∀ b, (Writer.send c.output b).1 = .ok ()) (line : Text)
    (phase : ClientPhase φ) : (c.ask line phase).phase = phase := by
  obtain ⟨output, hask, -⟩ | ⟨e, output, -, hfail⟩ := ask_cases c line phase
  · rw [hask]
  · have hsend := h (Utf8.encode (line ++ ['\n']))
    rw [hfail] at hsend
    cases hsend

/-- If its requests can be sent, a client awaits the answer to a transfer exactly if the command is one, and
for an upload if it could open the file. -/
theorem Obeys.transfers_iff {c c' : Client φ τ κ δ} {line : Text} {command : Command} (h : Obeys c line command c')
    (hsend : ∀ b, (Writer.send c.output b).1 = .ok ()) :
    ((∃ name, c'.phase = .downloadReply name) ↔ command.Transfers .get) ∧
      ((∃ name path source, c'.phase = .uploadReply name path source) ↔
        command.Transfers .put ∧
          ∃ source, (Gateway.openFile c.files (c.localPath command.argument)).1 = .ok source) := by
  cases h with
  | quits hname =>
    obtain ⟨hdownload, hupload⟩ := (IsIdle.finished (φ := φ) (.ok ())).awaits_nothing
    rw [phase_ask hsend]
    have hget := Command.not_transfers hname .get (by decide)
    have hput := Command.not_transfers hname .put (by decide)
    exact ⟨iff_of_false hdownload hget, iff_of_false hupload fun h => hput h.1⟩
  | cancels hname =>
    obtain ⟨hdownload, hupload⟩ := (isIdle_terminate c command.argument).awaits_nothing
    have hget := Command.not_transfers hname .get (by decide)
    have hput := Command.not_transfers hname .put (by decide)
    exact ⟨iff_of_false hdownload hget, iff_of_false hupload fun h => hput h.1⟩
  | downloads htransfer =>
    rw [phase_ask hsend]
    have hput := Command.not_transfers htransfer.name .put (by decide)
    exact ⟨iff_of_true ⟨_, rfl⟩ htransfer, iff_of_false (by simp) fun h => hput h.1⟩
  | @uploads source files htransfer hread hopen =>
    have hphase := phase_ask (c := { c with files }) hsend (uploadRequest command.argument)
      (.uploadReply command.argument (c.localPath command.argument) source)
    rw [hphase, hopen]
    have hget := Command.not_transfers htransfer.name .get (by decide)
    exact ⟨iff_of_false (by simp) hget, iff_of_true ⟨_, _, _, rfl⟩ ⟨htransfer, _, rfl⟩⟩
  | @lacksFile e files htransfer hopen =>
    obtain ⟨hdownload, hupload⟩ :=
      (isIdle_report { c with files } (.localFile (c.localPath command.argument) e)).awaits_nothing
    have hget := Command.not_transfers htransfer.name .get (by decide)
    rw [hopen]
    exact ⟨iff_of_false hdownload hget, iff_of_false hupload (by simp)⟩
  | asks hquit hcancel hget hput hread =>
    rw [phase_ask hsend]
    exact ⟨iff_of_false (by simp) hget, iff_of_false (by simp) fun h => hput h.1⟩

/-! ## What goes out -/

/-- The request for the trimmed line `line`, which is taken for `command`. To quit it is the verb alone. -/
inductive IsRequestFor (line : Text) (command : Command) : Text → Prop where
  | quit (hname : command.name = quitRequest) : IsRequestFor line command quitRequest
  | download (htransfer : command.Transfers .get) :
      IsRequestFor line command (downloadRequest command.argument)
  | upload (htransfer : command.Transfers .put) : IsRequestFor line command (uploadRequest command.argument)
  | other (hquit : command.name ≠ quitRequest) (hcancel : command.name ≠ text "terminate")
      (hget : ¬ command.Transfers .get) (hput : ¬ command.Transfers .put) : IsRequestFor line command line

omit [Canceller δ] in
theorem holds_output_ask {holds : κ → Bytes → Prop} (hwriter : Writer.Accepts holds) {c : Client φ τ κ δ}
    {said : Bytes} (hsaid : holds c.output said) (request : Text) (phase : ClientPhase φ) :
    holds (c.ask request phase).output (said ++ lineBytes request) := by
  obtain ⟨output, hsend, hheld⟩ := hwriter.send hsaid (lineBytes request)
  unfold lineBytes at hsend
  simp only [ask, hsend]
  exact hheld

omit [Writer κ] [Canceller δ] in
theorem output_tell (c : Client φ τ κ δ) (t : Text) : (c.tell t).output = c.output := by
  obtain ⟨terminal, phase, htell⟩ := tell_eq c t
  rw [htell]

omit [Writer κ] in
theorem output_terminate (c : Client φ τ κ δ) (argument : Text) : (c.terminate argument).output = c.output := by
  have hends := terminates c argument
  generalize c.terminate argument = c' at hends
  cases hends with
  | malformed | undialled | requested => exact output_tell _ _
  | unsent => rfl

/-- An output that takes everything gets the request and its newline, and nothing else. It gets nothing for a
cancellation, and nothing for an upload whose file the client cannot open. -/
theorem Obeys.holds_output {c c' : Client φ τ κ δ} {line : Text} {command : Command} (h : Obeys c line command c')
    {holds : κ → Bytes → Prop} (hwriter : Writer.Accepts holds) {said : Bytes} (hsaid : holds c.output said) :
    (∃ request, IsRequestFor line command request ∧ holds c'.output (said ++ lineBytes request)) ∨
      holds c'.output said ∧ (command.name = text "terminate" ∨
        command.Transfers .put ∧ ∃ e, (Gateway.openFile c.files (c.localPath command.argument)).1 = .error e) := by
  cases h with
  | quits hname => exact .inl ⟨_, .quit hname, holds_output_ask hwriter hsaid _ _⟩
  | cancels hname =>
    refine .inr ⟨?_, .inl hname⟩
    rwa [output_terminate]
  | downloads htransfer => exact .inl ⟨_, .download htransfer, holds_output_ask hwriter hsaid _ _⟩
  | @uploads source files htransfer =>
    exact .inl ⟨_, .upload htransfer, holds_output_ask (c := { c with files }) hwriter hsaid _ _⟩
  | @lacksFile e files htransfer hopen =>
    refine .inr ⟨?_, .inr ⟨htransfer, e, by rw [hopen]⟩⟩
    obtain ⟨terminal, phase, hreport⟩ := report_eq { c with files } (.localFile (c.localPath command.argument) e)
    rw [hreport]
    exact hsaid
  | asks hquit hcancel hget hput => exact .inl ⟨_, .other hquit hcancel hget hput, holds_output_ask hwriter hsaid _ _⟩

/-- So it is for a typed line. -/
theorem holds_output_takeCommand {c prompted : Client φ τ κ δ} {line : Text} {ending : Bytes}
    {keyboard : List (Except IoError Bytes)} {command : Command} (hline : '\n' ∉ line)
    (hending : ending = [] ∨ ending = [newline])
    (hkeyboard : c.keyboard = .ok (Utf8.encode line ++ ending) :: keyboard)
    (hprompt : c.showPrompt = (.ok (), prompted)) (hcommand : Command.ofLine? line = some command)
    {holds : κ → Bytes → Prop} (hwriter : Writer.Accepts holds) {said : Bytes} (hsaid : holds c.output said) :
    (∃ request, IsRequestFor (Text.trim line) command request ∧
        holds c.takeCommand.output (said ++ lineBytes request)) ∨
      holds c.takeCommand.output said ∧ (command.name = text "terminate" ∨
        command.Transfers .put ∧ ∃ e, (Gateway.openFile c.files (c.localPath command.argument)).1 = .error e) := by
  have hobeys := obeys_takeCommand hline hending hkeyboard hprompt hcommand
  obtain ⟨-, rfl⟩ := Prod.mk.inj hprompt
  exact hobeys.holds_output hwriter hsaid

/-! ## Both sides -/

/-- A line is split into a name and an argument in the only way in which it can be, unless it is blank. What a
client does with a typed line is decided by what a session would take the line for, and what the client then
asks the session is taken for the same. So the client awaits a transfer for the lines that a session takes for
one. -/
theorem client_and_session_split_alike :
    (∀ line : Text, Command.ofLine? line = none ↔ Text.IsBlanks line) ∧
      (∀ (line : Text) (command : Command),
        Command.ofLine? line = some command ↔ ∃ w₁ w₂ w₃, command.Spells line w₁ w₂ w₃) ∧
      ∀ (c prompted : Client φ τ κ δ) (line : Text) (ending : Bytes) (keyboard : List (Except IoError Bytes))
        (command : Command), '\n' ∉ line → (ending = [] ∨ ending = [newline]) →
        c.keyboard = .ok (Utf8.encode line ++ ending) :: keyboard → c.showPrompt = (.ok (), prompted) →
        Command.ofLine? line = some command →
          Obeys { prompted with keyboard } (Text.trim line) command c.takeCommand ∧
            ((∀ b, (Writer.send c.output b).1 = .ok ()) →
              ((∃ name, c.takeCommand.phase = .downloadReply name) ↔ command.Transfers .get) ∧
                ((∃ name path source, c.takeCommand.phase = .uploadReply name path source) ↔
                  command.Transfers .put ∧
                    ∃ source, (Gateway.openFile c.files (c.localPath command.argument)).1 = .ok source)) := by
  refine ⟨fun _ => Command.ofLine?_eq_none_iff, fun _ _ => Command.ofLine?_eq_some_iff, ?_⟩
  intro c prompted line ending keyboard command hline hending hkeyboard hprompt hcommand
  have hobeys := obeys_takeCommand hline hending hkeyboard hprompt hcommand
  refine ⟨hobeys, fun hsend => ?_⟩
  obtain ⟨-, rfl⟩ := Prod.mk.inj hprompt
  exact hobeys.transfers_iff hsend

/-- A name with a blank in it, and blanks of several kinds around it. -/
theorem client_and_session_split_alike_padded :
    let c : Client LocalFiles Pipe Pipe RequestLog :=
      ⟨⟨text "localhost", 8080, 8081, .ofText ['.']⟩, ⟨.empty, ⟨[Path.slash]⟩, []⟩,
        [.ok (Utf8.encode (text "\tget \u00A0my file \r") ++ [newline])], ⟨[]⟩, ⟨[]⟩, ⟨none, []⟩, [], .prompt⟩
    let command : Command := ⟨text "get", text "my file"⟩
    Command.ofLine? (text "\tget \u00A0my file \r") = some command ∧ command.Transfers .get ∧
      (∃ name, c.takeCommand.phase = .downloadReply name) ∧
      c.takeCommand.output.inFlight = Utf8.encode (text "get my file\n") := by
  intro c command
  have hcommand : Command.ofLine? (text "\tget \u00A0my file \r") = some command := by decide
  have htransfer : command.Transfers .get := ⟨by decide, by decide⟩
  have hprompt : c.showPrompt = (.ok (), { c with terminal := ⟨Utf8.encode prompt⟩ }) := by
    simp only [showPrompt, Pipe.send_eq]
    rfl
  obtain ⟨-, -, hclient⟩ := client_and_session_split_alike (φ := LocalFiles) (τ := Pipe) (κ := Pipe) (δ := RequestLog)
  obtain ⟨hobeys, hphase⟩ := hclient c _ (text "\tget \u00A0my file \r") [newline] [] command (by decide) (.inr rfl)
    rfl hprompt hcommand
  have hsend : ∀ b, (Writer.send c.output b).1 = .ok () := fun b => by rw [Pipe.send_eq]
  refine ⟨hcommand, htransfer, (hphase hsend).1.mpr htransfer, ?_⟩
  rcases hobeys.holds_output Pipe.accepts_holds (rfl : Pipe.Holds ⟨[]⟩ []) with ⟨request, hrequest, hheld⟩ | ⟨-, hnone⟩
  · cases hrequest with
    | download => exact hheld
    | quit hname => exact absurd hname (by decide)
    | upload hput => exact absurd hput (Command.not_transfers rfl .put (by decide))
    | other _ _ hget => exact absurd htransfer hget
  · rcases hnone with hname | ⟨hput, -⟩
    · exact absurd hname (by decide)
    · exact absurd hput (Command.not_transfers rfl .put (by decide))

end Client

end FileFerry
