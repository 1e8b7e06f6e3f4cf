import FileFerry.Client.Arguments
import FileFerry.Gateway.Local
import FileFerry.Proofs.Lockstep.ClientSteps
import FileFerry.Proofs.Lockstep.ServerSteps

/-!
# Client and session stay in step

From the greeting on the two are paired until the client ends, whatever either side, its files or
the world do and however the bytes are cut. At a prompt nothing is left between them, and never do
both wait for what the other has not sent.
-/

set_option autoImplicit false

namespace FileFerry

variable {φ τ δ γ : Type} [Gateway φ] [Gateway γ]

namespace System

variable {sys sys' : System φ τ δ γ} {waiting : List Text}

/-! ## Reads -/

theorem paired_clientReads (h : sys.Paired waiting) {chunk rest : Bytes}
    (hbytes : sys.server.output.inFlight = chunk ++ rest) :
    Paired { sys with
      client := { sys.client with pending := sys.client.pending ++ chunk }
      server := { sys.server with output := ⟨rest⟩ }
      sent := sys.sent.add chunk } waiting := by
  refine ⟨?_, ?_, h.typed, h.cwd⟩
  · have hstage := h.stage
    rw [down, hbytes, ← List.append_assoc, ← Client.inHand_supply] at hstage
    exact hstage
  · have hlogged := h.logged
    rw [Logged, hbytes, ← Exchanges.add_add] at hlogged
    exact hlogged

theorem paired_serverReads (h : sys.Paired waiting) {chunk rest : Bytes}
    (hbytes : sys.client.output.inFlight = chunk ++ rest) :
    Paired { sys with
      client := { sys.client with output := ⟨rest⟩ }
      server := { sys.server with input := sys.server.input.supply chunk } } waiting := by
  refine ⟨?_, h.logged, h.typed, h.cwd⟩
  have hstage := h.stage
  rw [up, hbytes, ← List.append_assoc, ← Session.inHand_supply] at hstage
  exact hstage

/-! ## Runs -/

theorem Paired.server_ne_closed (h : sys.Paired waiting) : sys.server.phase ≠ .closed := by
  intro hclosed
  cases h.stage with
  | prompt hclient hserver => cases hclosed.symm.trans hserver
  | asked hclient hrequest hserver => cases hclosed.symm.trans hserver
  | told hclient hline hserver => cases hclosed.symm.trans hserver
  | downloadTaken hclient hserver => exact hserver.ne_closed hclosed
  | downloading hclient hserver => exact hserver.ne_closed hclosed
  | uploadTaken hclient hserver => cases hclosed.symm.trans hserver
  | uploading hclient hserver => cases hclosed.symm.trans hserver

theorem inStep_start (settings : ClientSettings) (files : φ) {keyboard : List (Except IoError Bytes)}
    (terminal : τ) (canceller : δ) {served : γ} (registry : Registry)
    (htyped : ∀ line, .ok line ∈ keyboard → newline ∉ line.dropLast)
    (hhome : newline ∉ (Gateway.home served).bytes) :
    (start settings files keyboard terminal canceller served registry).InStep := by
  have honeLine : '\n' ∉ greeting.dropLast := by decide
  have hgreeting : greeting = greeting.dropLast ++ ['\n'] := by decide
  refine .inr ⟨[], .told .greeting honeLine rfl rfl ?_, rfl, htyped, hhome⟩
  rw [lineBytes, ← hgreeting]
  exact congrArg Pipe.inFlight (Session.output_sendText _ greeting)

theorem Paired.matched (h : sys.Paired waiting) : sys.Matched := by
  have hlogged := h.logged
  cases h.stage with
  | asked hclient hrequest hserver hup hdown =>
    obtain ⟨hhand, hnothing⟩ := List.append_eq_nil_iff.mp hdown
    rw [Client.inHand_of_awaitsLine hclient.awaitsLine] at hhand
    rw [Logged, hnothing, Exchanges.add_nil] at hlogged
    exact .inr ⟨_, hlogged, hhand, hnothing⟩
  | _ => exact .inl hlogged

theorem InStep.paired (h : sys.InStep) (hopen : sys.client.isFinished = false) : ∃ waiting, sys.Paired waiting := by
  rcases h with hfinished | hpaired
  · rw [hopen] at hfinished
    cases hfinished
  · exact hpaired

theorem InStep.paired_of_prompt (h : sys.InStep) (hprompt : sys.client.phase = .prompt) :
    ∃ waiting, sys.Paired waiting :=
  h.paired (by simp [Client.isFinished, hprompt])

/-- A client at its prompt is alone with a session that waits for a command. -/
theorem Paired.idle (h : sys.Paired waiting) (hprompt : sys.client.phase = .prompt) :
    sys.server.phase = .command ∧ sys.up = [] ∧ sys.down = [] ∧ waiting = [] := by
  cases h.stage with
  | prompt hclient hserver hup hdown => exact ⟨hserver, hup, hdown, rfl⟩
  | asked hclient =>
    rw [hprompt] at hclient
    cases hclient
  | told hclient =>
    rw [hprompt] at hclient
    cases hclient
  | downloadTaken hclient => cases hprompt.symm.trans hclient
  | downloading hclient => cases hprompt.symm.trans hclient
  | uploadTaken hclient => cases hprompt.symm.trans hclient
  | uploading hclient =>
    obtain ⟨path, ⟨sent, hverdict⟩ | ⟨file, hsending⟩⟩ := hclient
    · cases hprompt.symm.trans hverdict
    · cases hprompt.symm.trans hsending

/-- The marker is in what the client has in hand with what is still to come, and nothing is behind it. -/
theorem Paired.cut_of_downloading (h : sys.Paired waiting) {d : Download φ} (hclient : sys.client.phase = .payload d) :
    ∃ payload, cutAtMarker? (d.reception.scanner.held ++ sys.client.pending ++
      (sys.server.output.inFlight ++ sys.server.phase.owes)) = some (payload, []) := by
  cases h.stage with
  | downloading hd hserver hup hcut =>
    simp only [down, Client.inHand, hclient, List.append_assoc] at hcut
    rw [List.append_assoc]
    exact ⟨_, hcut⟩
  | prompt hprompt => cases hclient.symm.trans hprompt
  | asked hasked =>
    rw [hclient] at hasked
    cases hasked
  | told hhears =>
    rw [hclient] at hhears
    cases hhears
  | downloadTaken htaken => cases hclient.symm.trans htaken
  | uploadTaken htaken => cases hclient.symm.trans htaken
  | uploading hsends =>
    obtain ⟨path, ⟨sent, hverdict⟩ | ⟨file, hsending⟩⟩ := hsends
    · cases hclient.symm.trans hverdict
    · cases hclient.symm.trans hsending

theorem Paired.settled (h : sys.Paired waiting) (hprompt : sys.client.phase = .prompt) : sys.Settled := by
  obtain ⟨-, -, hdown, rfl⟩ := h.idle hprompt
  have hlogged := h.logged
  rw [Logged, (List.append_eq_nil_iff.mp hdown).2, Exchanges.add_nil] at hlogged
  exact hlogged

variable [Writer τ] [Canceller δ]

theorem inStep_step (h : sys.InStep) (hstep : Step sys sys')
    (hlines : ∀ exchange ∈ sys.sent, exchange.1.length ≤ maxLineBytes) (hprovided : sys'.Provided) :
    sys'.InStep := by
  cases hstep with
  | client hclient =>
    rcases h with hfinished | ⟨waiting, hpaired⟩
    · rw [Client.advance?_of_isFinished hfinished] at hclient
      cases hclient
    · exact inStep_client hpaired hclient hprovided.uploads
  | server hserver =>
    rcases h with hfinished | ⟨waiting, hpaired⟩
    · exact .inl hfinished
    · exact inStep_server hpaired hserver hlines hprovided.answers hprovided.downloads
  | clientReads hnone hopen hbytes hne hlen =>
    rcases h with hfinished | ⟨waiting, hpaired⟩
    · exact .inl hfinished
    · exact .inr ⟨waiting, paired_clientReads hpaired hbytes⟩
  | serverReads hnone hbytes hne hlen =>
    rcases h with hfinished | ⟨waiting, hpaired⟩
    · exact .inl hfinished
    · exact .inr ⟨waiting, paired_serverReads hpaired hbytes⟩
  | clientEnds hnone hclosed hempty =>
    rcases h with hfinished | ⟨waiting, hpaired⟩
    · left
      change (sys.client.receive (.ok [])).isFinished = true
      rw [Client.receive, if_pos hfinished]
      exact hfinished
    · exact absurd hclosed hpaired.server_ne_closed
  | serverEnds hnone hfinished hempty => exact .inl hfinished
  | around files served registry =>
    rcases h with hfinished | ⟨waiting, hpaired⟩
    · exact .inl hfinished
    · exact .inr ⟨waiting, hpaired.stage, hpaired.logged, hpaired.typed, hpaired.cwd⟩

theorem Reachable.provided {first : System φ τ δ γ} (h : Reachable first sys) : sys.Provided := by
  cases h with
  | start h => exact h
  | step h hstep hprovided => exact hprovided

theorem Reachable.inStep {first : System φ τ δ γ} (hfirst : first.InStep) (h : Reachable first sys) :
    sys.InStep := by
  induction h with
  | start h => exact hfirst
  | step h hstep hprovided ih => exact inStep_step ih hstep h.provided.lines hprovided

/-! ## Waiting -/

theorem advance?_ne_none_of_line {c : Client φ τ Pipe δ} (h : Client.AwaitsLine c.phase) {line : Text}
    {rest : Bytes} (hline : '\n' ∉ line) (hpending : c.pending = lineBytes line ++ rest) : c.advance? ≠ none := by
  rw [Client.advance?_of_awaitsLine h, hpending, takeLine?_line hline]
  simp

/-- What a scanner holds is no marker, so there is more in hand. -/
theorem ne_nil_of_cut {s : Scanner} {pending payload : Bytes}
    (h : cutAtMarker? (s.held ++ pending) = some (payload, [])) : pending ≠ [] := by
  rintro rfl
  rw [List.append_nil] at h
  rw [cutAtMarker?_eq_none_iff.mpr (not_hasMarker_of_length_lt s.length_held_lt)] at h
  cases h

theorem eq_command_of_waits {s : Session (Answered γ) Pipe} (h : s.phase.Sends) (hwaits : s.advance? = none) :
    s.phase = .command := by
  rcases h with hcommand | ⟨entry, file, hsending⟩
  · exact hcommand
  · simp [Session.advance?, hsending] at hwaits

theorem exists_verdict_of_waits {c : Client φ τ Pipe δ} (h : c.phase.Sends) (hwaits : c.advance? = none) :
    ∃ path sent, c.phase = .verdict path sent := by
  obtain ⟨path, ⟨sent, hverdict⟩ | ⟨file, hsending⟩⟩ := h
  · exact ⟨path, sent, hverdict⟩
  · simp [Client.advance?, hsending] at hwaits

theorem Paired.not_deadlocked (h : sys.Paired waiting)
    (hlines : ∀ exchange ∈ sys.sent, exchange.1.length ≤ maxLineBytes) : ¬ sys.Deadlocked := by
  rintro ⟨hclientWaits, -, hserverWaits, hupwards, hdownwards⟩
  have hstage := h.stage
  rw [up, hupwards, List.append_nil, down, hdownwards, List.append_nil] at hstage
  cases hstage with
  | prompt hclient => simp [Client.advance?, hclient] at hclientWaits
  | asked hclient hrequest hserver hup hdown =>
    have hlen := hlines _ (h.logged.mem_sent hdownwards)
    rw [Session.inHand_of_phase_ne (by simp [hserver]), ← List.append_nil sys.server.input.pending] at hup
    rcases nextLine_request hrequest hlen hup with ⟨hline, -⟩ | ⟨-, hmore⟩
    · simp [Session.advance?, hserver, hline] at hserverWaits
    · exact hmore rfl
  | told hclient hline hserver hup hdown =>
    rw [Client.inHand_of_awaitsLine hclient.awaitsLine, ← List.append_nil (lineBytes _)] at hdown
    exact advance?_ne_none_of_line hclient.awaitsLine hline hdown hclientWaits
  | downloadTaken hclient hserver hup hdown =>
    have hawaits : Client.AwaitsLine sys.client.phase := by
      rw [hclient]
      exact .downloadReply
    rw [eq_command_of_waits hserver hserverWaits, Phase.owes_command, List.append_nil,
      Client.inHand_of_awaitsLine hawaits] at hdown
    exact advance?_ne_none_of_line hawaits (by decide) hdown hclientWaits
  | downloading hclient hserver hup hcut =>
    rw [eq_command_of_waits hserver hserverWaits, Phase.owes_command, List.append_nil] at hcut
    simp only [Client.inHand, hclient] at hcut
    simp [Client.advance?, hclient, ne_nil_of_cut hcut] at hclientWaits
  | uploadTaken hclient hserver hfailure hup hdown =>
    have hawaits : Client.AwaitsLine sys.client.phase := by
      rw [hclient]
      exact .uploadReply
    rw [Client.inHand_of_awaitsLine hawaits, ← List.append_nil (lineBytes _)] at hdown
    exact advance?_ne_none_of_line hawaits (by decide) hdown hclientWaits
  | uploading hclient hserver hfailure hcut hdown =>
    obtain ⟨path, sent, hverdict⟩ := exists_verdict_of_waits hclient hclientWaits
    rw [hverdict, ClientPhase.owes_verdict, List.append_nil] at hcut
    simp only [Session.inHand, hserver] at hcut
    simp [Session.advance?, hserver, ne_nil_of_cut hcut] at hserverWaits

/-! ## A run -/

/-- Both sides over no files but the root, with no transfer under way. -/
def quiet (keyboard : List (Except IoError Bytes)) (terminal : Pipe) (pending up down input : Bytes)
    (phase : ClientPhase LocalFiles) (sent : Exchanges Bytes) (handled : Exchanges Text) :
    System LocalFiles Pipe RequestLog LocalFiles :=
  let files : LocalFiles := ⟨.empty, ⟨[Path.slash]⟩, []⟩
  ⟨⟨.unaddressed, files, keyboard, terminal, ⟨up⟩, ⟨none, []⟩, pending, phase⟩,
    ⟨⟨files, []⟩, .empty, ⟨down⟩, ⟨[Path.slash]⟩, ⟨input⟩, .command⟩, sent, handled⟩

section Quiet

variable {first : System LocalFiles Pipe RequestLog LocalFiles} {keyboard : List (Except IoError Bytes)}
  {terminal : Pipe} {pending up down input : Bytes} {phase : ClientPhase LocalFiles} {sent : Exchanges Bytes}
  {handled : Exchanges Text}

theorem provided_quiet (hphase : ∀ path file, phase ≠ .sending path file)
    (hlines : ∀ exchange ∈ sent, exchange.1.length ≤ maxLineBytes) :
    (quiet keyboard terminal pending up down input phase sent handled).Provided := by
  refine ⟨?_, ?_, ?_, hlines⟩
  · intro a ha
    cases ha
  · intro entry file hsending
    cases hsending
  · intro path file hsending
    exact absurd hsending (hphase path file)

theorem reachable_shown {line : Text} (hphase : phase = .greeting ∨ phase = .reply) (hline : '\n' ∉ line)
    (hlen : (lineBytes line).length ≤ chunkSize)
    (hlines : ∀ exchange ∈ sent.add (lineBytes line), exchange.1.length ≤ maxLineBytes)
    (h : Reachable first (quiet keyboard terminal [] [] (lineBytes line) [] phase sent handled)) :
    ∃ terminal', Reachable first
      (quiet keyboard terminal' [] [] [] [] .prompt (sent.add (lineBytes line)) handled) := by
  have hsteps : phase ≠ .prompt ∧ (∀ path file, phase ≠ .sending path file) ∧
      (quiet keyboard terminal [] [] (lineBytes line) [] phase sent handled).client.advance? = none ∧
      (quiet keyboard terminal [] [] (lineBytes line) [] phase sent handled).client.isFinished = false := by
    rcases hphase with rfl | rfl <;> exact ⟨by simp, by simp, rfl, rfl⟩
  obtain ⟨hprompt, hsending, hwaits, hopen⟩ := hsteps
  have hread : Reachable first
      (quiet keyboard terminal (lineBytes line) [] [] [] phase (sent.add (lineBytes line)) handled) :=
    h.step (.clientReads hwaits hopen (List.append_nil _).symm (lineBytes_ne_nil line) hlen)
      (provided_quiet hsending hlines)
  obtain ⟨terminal', hshows⟩ := Client.advance?_shows
    (c := (quiet keyboard terminal (lineBytes line) [] [] [] phase (sent.add (lineBytes line)) handled).client)
    hphase hline rfl
  have hstep := Step.client hshows
  rw [withClient, Client.requestsSent_eq_nil fun hp => absurd hp hprompt] at hstep
  exact ⟨terminal', hread.step hstep (provided_quiet (by simp) hlines)⟩

theorem reachable_asked
    (h : Reachable first (quiet [.ok (Utf8.encode (text "pwd\n"))] terminal [] [] [] [] .prompt [] [])) :
    ∃ terminal', Reachable first
      (quiet [] terminal' [] (lineBytes (text "pwd")) [] [] .reply [(lineBytes (text "pwd"), [])] []) := by
  have hdecode : Utf8.decode? (Utf8.encode (text "pwd\n")) = some (text "pwd\n") := by
    rw [Utf8.decode?, Utf8.units_encode]
    rfl
  have htrim : Text.trim (text "pwd\n") = text "pwd" := by decide
  refine ⟨⟨terminal.inFlight ++ Utf8.encode prompt⟩, h.step (.client ?_) (provided_quiet (by simp) (by decide))⟩
  simp only [Client.advance?, quiet, Client.takeCommand, Client.showPrompt, Pipe.send_eq, Except.mapError,
    hdecode, htrim]
  exact congrArg some (Client.ask_eq _ (text "pwd") .reply)

theorem reachable_answered
    (h : Reachable first
      (quiet [] terminal [] (lineBytes (text "pwd")) [] [] .reply [(lineBytes (text "pwd"), [])] [])) :
    Reachable first
      (quiet [] terminal [] [] (lineBytes (text "/")) [] .reply [(lineBytes (text "pwd"), [])]
        [(text "pwd", lineBytes (text "/"))]) := by
  have hbytes : (quiet [] terminal [] (lineBytes (text "pwd")) [] [] .reply
      [(lineBytes (text "pwd"), [])] []).client.output.inFlight = lineBytes (text "pwd") ++ [] :=
    (List.append_nil _).symm
  have hlen : (lineBytes (text "pwd")).length ≤ lineReadSize := by decide
  have hreads := Step.serverReads rfl hbytes (lineBytes_ne_nil _) hlen
  have hread : Reachable first
      (quiet [] terminal [] [] [] (lineBytes (text "pwd")) .reply [(lineBytes (text "pwd"), [])] []) :=
    h.step hreads (provided_quiet (by simp) (by decide))
  have hrequest : IsRequest (text "pwd") := ⟨by decide, by decide⟩
  have hnext : (⟨lineBytes (text "pwd")⟩ : InputBuffer).nextLine = .line (text "pwd") .empty := by
    rcases nextLine_request hrequest (by decide) (List.append_nil _) with ⟨hline, -⟩ | ⟨-, hmore⟩
    · exact hline
    · exact absurd rfl hmore
  have hdisplay : (⟨[Path.slash]⟩ : Path).display = text "/" := Utf8.decodeLossy_encode (text "/")
  have hpwd (s : Session (Answered LocalFiles) Pipe) :
      s.handleLine (text "pwd") = s.sendResponse (.bare s.cwd.display) := rfl
  have hhandles : (quiet [] terminal [] [] [] (lineBytes (text "pwd")) .reply
      [(lineBytes (text "pwd"), [])] []).server.advance? =
        some (quiet [] terminal [] [] (lineBytes (text "/")) [] .reply [] []).server := by
    simp only [Session.advance?, quiet, hnext, hpwd, Session.sendResponse, Session.sendText, Pipe.send_eq, hdisplay]
    rfl
  have htaken : (quiet [] terminal [] [] [] (lineBytes (text "pwd")) .reply
      [(lineBytes (text "pwd"), [])] []).server.commandsTaken = [text "pwd"] := by
    simp only [Session.commandsTaken, quiet, hnext]
  have hstep := Step.server hhandles
  rw [withServer, htaken] at hstep
  exact hread.step hstep (provided_quiet (by simp) (by decide))

end Quiet

/-! ## In step -/

/-- What comes back to a request is what the session says to that request. At every prompt both channels
and both buffers are empty, the session waits for a command, and it has taken exactly the requests
that were sent. Never do both sides wait while nothing is on its way. -/
theorem client_and_server_in_step (settings : ClientSettings) (files : φ)
    {keyboard : List (Except IoError Bytes)} (terminal : τ) (canceller : δ) {served : γ} (registry : Registry)
    (htyped : ∀ line, .ok line ∈ keyboard → newline ∉ line.dropLast)
    (hhome : newline ∉ (Gateway.home served).bytes)
    (h : Reachable (start settings files keyboard terminal canceller served registry) sys) :
    (sys.client.isFinished = false → sys.Matched) ∧
    (sys.client.phase = .prompt →
      sys.client.output.inFlight = [] ∧ sys.server.output.inFlight = [] ∧ sys.client.pending = [] ∧
        sys.server.input.pending = [] ∧ sys.server.phase = .command ∧ sys.Settled) ∧
    ¬ sys.Deadlocked := by
  have hinStep := h.inStep (inStep_start settings files terminal canceller registry htyped hhome)
  refine ⟨?_, ?_, ?_⟩
  · intro hopen
    obtain ⟨waiting, hpaired⟩ := hinStep.paired hopen
    exact hpaired.matched
  · intro hprompt
    obtain ⟨waiting, hpaired⟩ := hinStep.paired_of_prompt hprompt
    obtain ⟨hserver, hup, hdown, -⟩ := hpaired.idle hprompt
    rw [up, Session.inHand_of_phase_ne (by simp [hserver])] at hup
    rw [down, Client.inHand_of_phase_ne (by simp [hprompt])] at hdown
    obtain ⟨hinput, hupwards⟩ := List.append_eq_nil_iff.mp hup
    obtain ⟨hpending, hdownwards⟩ := List.append_eq_nil_iff.mp hdown
    exact ⟨hupwards, hdownwards, hpending, hinput, hserver, hpaired.settled hprompt⟩
  · intro hdeadlocked
    obtain ⟨waiting, hpaired⟩ := hinStep.paired hdeadlocked.2.1
    exact hpaired.not_deadlocked h.provided.lines hdeadlocked

/-- A typed command is answered, and the client comes back to its prompt. -/
theorem client_and_server_in_step_pwd :
    let files : LocalFiles := ⟨.empty, ⟨[Path.slash]⟩, []⟩
    let first : System LocalFiles Pipe RequestLog LocalFiles :=
      start .unaddressed files [.ok (Utf8.encode (text "pwd\n"))] ⟨[]⟩ ⟨none, []⟩ files .empty
    ∃ sys, Reachable first sys ∧ sys.client.phase = .prompt ∧
      sys.handled = [(text "pwd", lineBytes (text "/"))] ∧ sys.Settled ∧ ¬ sys.Deadlocked := by
  intro files first
  have hfirst : first = quiet [.ok (Utf8.encode (text "pwd\n"))] ⟨[]⟩ [] [] (lineBytes greeting.dropLast) []
      .greeting [] [] := by
    change start _ _ _ _ _ _ _ = _
    simp only [start, Session.start, Session.sendText, Pipe.send_eq]
    rfl
  have hstart : Reachable first first := by
    rw [hfirst]
    exact .start (provided_quiet (by simp) (by simp))
  have htyped : ∀ line, .ok line ∈ [(.ok (Utf8.encode (text "pwd\n")) : Except IoError Bytes)] →
      newline ∉ line.dropLast := by
    intro line hline
    obtain rfl := Except.ok.inj (List.mem_singleton.mp hline)
    decide
  obtain ⟨_, hprompt⟩ := reachable_shown (.inl rfl) (by decide) (by decide) (by decide) (hfirst ▸ hstart)
  obtain ⟨_, hasked⟩ := reachable_asked hprompt
  obtain ⟨_, hagain⟩ := reachable_shown (.inr rfl) (by decide) (by decide) (by decide)
    (reachable_answered hasked)
  rw [← hfirst] at hagain
  obtain ⟨_, hidle, hlive⟩ := client_and_server_in_step _ _ _ _ _ htyped (by decide) hagain
  exact ⟨_, hagain, rfl, rfl, (hidle rfl).2.2.2.2.2, hlive⟩

end System

end FileFerry
