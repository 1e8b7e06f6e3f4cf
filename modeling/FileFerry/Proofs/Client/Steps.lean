import FileFerry.Proofs.Client.Dialogue
import FileFerry.Proofs.Client.TypedLines
import FileFerry.Proofs.Lockstep.System

/-!
# One step of a client

All that a step of a client can do (`Moves`), by what the client is about. A step that ends the client has one of
the reasons of `Stops` for it.
-/

set_option autoImplicit false

namespace FileFerry

namespace Client

variable {φ τ κ δ : Type} [Gateway φ] [Writer τ] [Writer κ] [Canceller δ]

/-! ## What ends it -/

/-- What is lost where a step leads from `c` to `c'`. A request for a cancellation that cannot be written is
taken for the loss of the connection to the server. -/
inductive Loses (c c' : Client φ τ κ δ) : ClientError → Prop where
  | terminal {e : IoError} (h : Writer.Breaks c.terminal e c'.terminal) : Loses c c' (.output e)
  | output {b : Bytes} {e : IoError} (h : Writer.send c.output b = (.error e, c'.output)) :
      Loses c c' (.sendRequest e)
  | canceller {b : Bytes} {e : IoError} (h : Canceller.request c.canceller b = (.error (.unsent e), c'.canceller)) :
      Loses c c' (.sendRequest e)

/-- Why a step that leads from `c` to `c'` ends the client. -/
inductive Stops (c c' : Client φ τ κ δ) : Except ClientError Unit → Prop where
  | quits {bytes : Bytes} {rest : List (Except IoError Bytes)} {line : Text} (hphase : c.phase = .prompt)
      (hkey : c.keyboard = .ok bytes :: rest) (hline : Utf8.decode? bytes = some line)
      (hverb : Text.firstWord (Text.trim line) = quitRequest)
      (hsend : Writer.send c.output (lineBytes quitRequest) = (.ok (), c'.output)) : Stops c c' (.ok ())
  | inputEnds (hphase : c.phase = .prompt) (hkey : c.keyboard = [])
      (hsend : Writer.send c.output (lineBytes quitRequest) = (.ok (), c'.output)) : Stops c c' (.ok ())
  | inputFails {e : IoError} {rest : List (Except IoError Bytes)} (hphase : c.phase = .prompt)
      (hkey : c.keyboard = .error e :: rest) : Stops c c' (.error (.input e))
  | inputIllFormed {bytes : Bytes} {rest : List (Except IoError Bytes)} (hphase : c.phase = .prompt)
      (hkey : c.keyboard = .ok bytes :: rest) (hline : Utf8.decode? bytes = none) :
      Stops c c' (.error (.input illFormedInput))
  | loses {e : ClientError} (h : Loses c c' e) : Stops c c' (.error e)
  /-- The file of an upload could not be sent, and the server had its say on it. -/
  | unsent {path : Path} {e : IoError} (hphase : c.phase = .verdict path (.outputFailed e)) :
      Stops c c' (.error (.sendRequest e))

variable {c : Client φ τ κ δ} {line argument : Text} {result : Except ClientError Unit}

omit [Writer κ] [Canceller δ] in
theorem loses_of_tell {t : Text} (h : (c.tell t).phase = .finished result) :
    ∃ e, result = .error (.output e) ∧ Writer.Breaks c.terminal e (c.tell t).terminal := by
  obtain ⟨terminal, htell, -⟩ | ⟨e, terminal, htell, hbreaks⟩ := tell_cases c t
  · rw [htell] at h
    cases h
  · rw [htell] at h ⊢
    cases h
    exact ⟨e, rfl, hbreaks⟩

omit [Canceller δ] in
theorem loses_of_ask {phase : ClientPhase φ} (h : (c.ask line phase).phase = .finished result)
    (hphase : ∀ result, phase ≠ .finished result) :
    ∃ e b, result = .error (.sendRequest e) ∧ Writer.send c.output b = (.error e, (c.ask line phase).output) := by
  obtain ⟨output, hask, -⟩ | ⟨e, output, hask, hsend⟩ := ask_cases c line phase
  · rw [hask] at h
    exact (hphase result h).elim
  · rw [hask] at h ⊢
    cases h
    exact ⟨e, lineBytes line, rfl, hsend⟩

theorem loses_of_terminate (h : (c.terminate argument).phase = .finished result) :
    ∃ e, result = .error e ∧ Loses c (c.terminate argument) e := by
  have hends := terminates c argument
  generalize c.terminate argument = c' at h hends
  cases hends with
  | malformed | undialled | requested =>
    obtain ⟨e, rfl, hbreaks⟩ := loses_of_tell h
    exact ⟨_, rfl, .terminal hbreaks⟩
  | unsent _ hrequest =>
    cases h
    exact ⟨_, rfl, .canceller hrequest⟩

/-- A command that is not to quit ends a client by a loss only. -/
theorem stops_of_execute (h : (c.execute line).phase = .finished result) :
    (Text.firstWord line = quitRequest ∧ result = .ok () ∧
        Writer.send c.output (lineBytes quitRequest) = (.ok (), (c.execute line).output)) ∨
      ∃ e, result = .error e ∧ Loses c (c.execute line) e := by
  have hexecutes := executes c line
  generalize c.execute line = c' at h hexecutes
  cases hexecutes with
  | quits hverb =>
    obtain ⟨output, hask, hsend⟩ | ⟨e, output, hask, hsend⟩ :=
      ask_cases c quitRequest (.finished (.ok ()) : ClientPhase φ)
    · rw [hask] at h ⊢
      cases h
      exact .inl ⟨hverb, rfl, hsend⟩
    · rw [hask] at h ⊢
      cases h
      exact .inr ⟨_, rfl, .output hsend⟩
  | downloads | uploads | asks =>
    obtain ⟨e, b, rfl, hsend⟩ := loses_of_ask h (by simp)
    exact .inr ⟨_, rfl, .output hsend⟩
  | lacksFile =>
    rw [report_of_not_fatal rfl] at h ⊢
    obtain ⟨e, rfl, hbreaks⟩ := loses_of_tell h
    exact .inr ⟨_, rfl, .terminal hbreaks⟩
  | cancels => exact .inr (loses_of_terminate h)

/-- Behind a prompt that was shown. -/
theorem Loses.after {c₁ c' : Client φ τ κ δ} {e : ClientError} (h : Loses c₁ c' e)
    (hterminal : Writer.Goes c.terminal c₁.terminal) (houtput : c₁.output = c.output)
    (hcanceller : c₁.canceller = c.canceller) : Loses c c' e := by
  cases h with
  | terminal h => exact .terminal (h.after hterminal)
  | output h => exact .output (houtput ▸ h)
  | canceller h => exact .canceller (hcanceller ▸ h)

theorem Prompts.stops {c' : Client φ τ κ δ} (hprompts : Prompts c c') (hphase : c.phase = .prompt)
    (h : c'.phase = .finished result) : Stops c c' result := by
  cases hprompts with
  | breaks hbreaks =>
    cases h
    exact .loses (.terminal hbreaks)
  | ends hkey hsend =>
    cases h
    exact .inputEnds hphase hkey hsend
  | endsUnsent hkey hsend =>
    cases h
    exact .loses (.output hsend)
  | fails hkey =>
    cases h
    exact .inputFails hphase hkey
  | illFormed hkey hline =>
    cases h
    exact .inputIllFormed hphase hkey hline
  | blank => cases h
  | executes hshow hkey hline =>
    obtain ⟨hverb, rfl, hsend⟩ | ⟨e, rfl, hloses⟩ := stops_of_execute h
    · exact .quits hphase hkey hline hverb hsend
    · exact .loses (hloses.after (Writer.goes_of_send hshow) rfl rfl)

/-! ## While it waits for its server -/

/-- What a client does with the bytes of a download. -/
inductive Receives (c : Client φ τ κ δ) (d : Download φ) : Client φ τ κ δ → Prop where
  | more {reception : Reception} {sink : LocalSink φ}
      (htake : d.reception.take (⟨c.files, d.handle⟩ : LocalSink φ) c.pending = (none, reception, sink)) :
      Receives c d { c with files := sink.files, pending := [], phase := .payload { d with reception } }
  | done {trailing : Bytes} {reception : Reception} {sink : LocalSink φ} {files : φ} {said : Text}
      (htake : d.reception.take (⟨c.files, d.handle⟩ : LocalSink φ) c.pending = (some trailing, reception, sink))
      (hsaid : ∀ e, reception.failure = some e → said = (ClientError.localFile d.path e).message) :
      Receives c d ({ c with files, pending := trailing }.tell said)

omit [Writer κ] [Canceller δ] in
theorem receives (c : Client φ τ κ δ) (d : Download φ) : Receives c d (c.takePayload d) := by
  unfold takePayload
  split
  · exact .more ‹_›
  · rename_i trailing reception sink htake
    unfold completeDownload
    cases hfailure : reception.failure with
    | none => exact .done htake fun e he => by simp [hfailure] at he
    | some e =>
      dsimp only
      rw [report_of_not_fatal rfl]
      refine .done htake fun e' he => ?_
      cases hfailure.symm.trans he
      rfl

/-- What a client does with what its server says of an upload. -/
inductive Concludes (c : Client φ τ κ δ) (path : Path) : Transmission → Client φ τ κ δ → Prop where
  | breaks {sent : Transmission} {e : IoError} {terminal : τ} (h : Writer.Breaks c.terminal e terminal) :
      Concludes c path sent ({ c with terminal }.finish (.error (.output e)))
  | sent {n : Nat} {terminal : τ} : Concludes c path (.sent n) ({ c with terminal }.toPrompt)
  | unread {e : IoError} {terminal : τ} (hgoes : Writer.Goes c.terminal terminal) :
      Concludes c path (.sourceFailed e) ({ c with terminal }.tell (ClientError.localFile path e).message)
  | unsent {e : IoError} {terminal : τ} :
      Concludes c path (.outputFailed e) ({ c with terminal }.finish (.error (.sendRequest e)))

omit [Writer κ] [Canceller δ] in
theorem concludes (c : Client φ τ κ δ) (path : Path) (sent : Transmission) (verdict : Response) :
    Concludes c path sent (c.completeUpload path sent verdict) := by
  unfold completeUpload
  obtain ⟨terminal, hprint, hgoes⟩ | ⟨e, terminal, hprint, hbreaks⟩ := print_cases c verdict.render
  · rw [hprint]
    cases sent with
    | sent n => exact .sent
    | sourceFailed e =>
      dsimp only
      rw [report_of_not_fatal rfl]
      exact .unread hgoes
    | outputFailed e => exact .unsent
  · rw [hprint]
    exact .breaks hbreaks

/-- What a client does with a line that it was waiting for. -/
inductive Heeds (c : Client φ τ κ δ) (line : Text) : Client φ τ κ δ → Prop where
  | tells {said : Text} (hphase : ∀ path sent, c.phase ≠ .verdict path sent) : Heeds c line (c.tell said)
  | downloads {name : Text} (hphase : c.phase = .downloadReply name)
      (hreply : (Response.ofLine line).accepts downloadAccepted = true) : Heeds c line (c.acceptDownload name)
  | uploads {name : Text} {path : Path} {source : Source} (hphase : c.phase = .uploadReply name path source) :
      Heeds c line { c with phase := .sending path (.ofSource source) }
  | concludes {c' : Client φ τ κ δ} {path : Path} {sent : Transmission} (hphase : c.phase = .verdict path sent)
      (h : Concludes c path sent c') : Heeds c line c'

omit [Writer κ] [Canceller δ] in
theorem heeds (h : AwaitsLine c.phase) (line : Text) : Heeds c line (c.takeLine line) := by
  generalize hp : c.phase = phase at h
  unfold takeLine
  cases h with
  | greeting =>
    simp only [hp]
    exact .tells (by simp [hp])
  | reply =>
    simp only [hp]
    exact .tells (by simp [hp])
  | downloadReply =>
    simp only [hp]
    split
    · exact .downloads hp ‹_›
    · exact .tells (by simp [hp])
  | uploadReply =>
    simp only [hp]
    split
    · exact .uploads hp
    · exact .tells (by simp [hp])
  | verdict =>
    simp only [hp]
    exact .concludes hp (concludes c _ _ _)

/-! ## The whole step -/

/-- One step of a client. -/
inductive Moves (c : Client φ τ κ δ) : Client φ τ κ δ → Prop where
  | prompts {c' : Client φ τ κ δ} (hphase : c.phase = .prompt) (h : Prompts c c') : Moves c c'
  | receives {c' : Client φ τ κ δ} {d : Download φ} (hphase : c.phase = .payload d) (h : Receives c d c') : Moves c c'
  | sends {path : Path} {file : Sending} (hphase : c.phase = .sending path file) : Moves c (c.sendChunk path file)
  | heeds {c' : Client φ τ κ δ} {line : Text} {rest : Bytes} (hawaits : AwaitsLine c.phase)
      (hline : takeLine? c.pending = some (line, rest)) (h : Heeds { c with pending := rest } line c') : Moves c c'

theorem moves {c' : Client φ τ κ δ} (h : c.advance? = some c') : Moves c c' := by
  have hheard (hawaits : AwaitsLine c.phase) : Moves c c' := by
    rw [advance?_of_awaitsLine hawaits] at h
    obtain ⟨⟨line, rest⟩, hline, rfl⟩ := Option.map_eq_some_iff.mp h
    exact .heeds hawaits hline (heeds (c := { c with pending := rest }) hawaits line)
  cases hphase : c.phase with
  | prompt =>
    simp only [advance?, hphase] at h
    cases h
    exact .prompts hphase (prompts c)
  | payload d =>
    simp only [advance?, hphase] at h
    split at h
    · cases h
    · cases h
      exact .receives hphase (receives c d)
  | sending path file =>
    simp only [advance?, hphase] at h
    cases h
    exact .sends hphase
  | finished =>
    simp only [advance?, hphase] at h
    cases h
  | greeting => exact hheard (hphase ▸ .greeting)
  | reply => exact hheard (hphase ▸ .reply)
  | downloadReply => exact hheard (hphase ▸ .downloadReply)
  | uploadReply => exact hheard (hphase ▸ .uploadReply)
  | verdict => exact hheard (hphase ▸ .verdict)

/-- A step that ends a client has one of the reasons for it. -/
theorem Moves.stops {c' : Client φ τ κ δ} (hmoves : Moves c c') (h : c'.phase = .finished result) :
    Stops c c' result := by
  cases hmoves with
  | prompts hphase hprompts => exact hprompts.stops hphase h
  | receives hphase hreceives =>
    cases hreceives with
    | more => cases h
    | done =>
      obtain ⟨e, rfl, hbreaks⟩ := loses_of_tell h
      exact .loses (.terminal hbreaks)
  | sends hphase =>
    unfold sendChunk at h
    split at h <;> cases h
  | heeds hawaits hline hheeds =>
    cases hheeds with
    | tells =>
      obtain ⟨e, rfl, hbreaks⟩ := loses_of_tell h
      exact .loses (.terminal hbreaks)
    | downloads =>
      unfold acceptDownload at h
      dsimp only at h
      split at h <;> cases h
    | uploads => cases h
    | concludes hphase hconcludes =>
      cases hconcludes with
      | breaks hbreaks =>
        cases h
        exact .loses (.terminal hbreaks)
      | sent => cases h
      | unread hgoes =>
        obtain ⟨e, rfl, hbreaks⟩ := loses_of_tell h
        exact .loses (.terminal (hbreaks.after hgoes))
      | unsent =>
        cases h
        exact .unsent hphase

/-! ## To the end of an upload -/

omit [Writer κ] [Canceller δ] in
theorem phase_tell_ne_verdict (c : Client φ τ κ δ) (t : Text) (path : Path) (sent : Transmission) :
    (c.tell t).phase ≠ .verdict path sent := by
  obtain h | ⟨e, h⟩ := phase_tell_cases c t
  · simp [h]
  · simp [h]

/-- No typed line leads to the end of an upload at once. -/
theorem phase_execute_ne_verdict (c : Client φ τ κ δ) (line : Text) (path : Path) (sent : Transmission) :
    (c.execute line).phase ≠ .verdict path sent := by
  have hasked {c : Client φ τ κ δ} {t : Text} {next : ClientPhase φ} (hne : next ≠ .verdict path sent) :
      (c.ask t next).phase ≠ .verdict path sent := by
    obtain h | ⟨e, h⟩ := phase_ask_cases c t next
    · rwa [h]
    · simp [h]
  have hexecutes := executes c line
  generalize c.execute line = c' at hexecutes
  cases hexecutes with
  | quits | downloads | uploads | asks => exact hasked (by simp)
  | lacksFile =>
    rw [report_of_not_fatal rfl]
    exact phase_tell_ne_verdict _ _ _ _
  | cancels =>
    have hends := terminates c (Text.afterFirstWord line)
    generalize c.terminate (Text.afterFirstWord line) = c' at hends
    cases hends with
    | malformed | undialled | requested => exact phase_tell_ne_verdict _ _ _ _
    | unsent => simp [finish]

/-- The end of an upload is reached by its last step. -/
theorem Moves.verdict {c' : Client φ τ κ δ} (hmoves : Moves c c') {path : Path} {sent : Transmission}
    (h : c'.phase = .verdict path sent) :
    ∃ file, c.phase = .sending path file ∧ file.step c.output = (.ended sent, c'.output) := by
  cases hmoves with
  | prompts hphase hprompts =>
    cases hprompts with
    | executes => exact (phase_execute_ne_verdict _ _ _ _ h).elim
    | _ => cases h
  | receives hphase hreceives =>
    cases hreceives with
    | more => cases h
    | done => exact (phase_tell_ne_verdict _ _ _ _ h).elim
  | @sends path' file hphase =>
    unfold sendChunk at h ⊢
    rcases hstep : file.step c.output with ⟨sent' | rest, output⟩
    · rw [hstep] at h
      cases h
      exact ⟨file, hphase, hstep⟩
    · rw [hstep] at h
      cases h
  | heeds hawaits hline hheeds =>
    cases hheeds with
    | tells => exact (phase_tell_ne_verdict _ _ _ _ h).elim
    | downloads =>
      unfold acceptDownload at h
      dsimp only at h
      split at h <;> cases h
    | uploads => cases h
    | concludes hphase hconcludes =>
      cases hconcludes with
      | unread => exact (phase_tell_ne_verdict _ _ _ _ h).elim
      | _ => cases h

end Client

end FileFerry
