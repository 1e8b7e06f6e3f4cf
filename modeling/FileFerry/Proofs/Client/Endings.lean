import FileFerry.Gateway.Scripted
import FileFerry.Proofs.Client.Downloads
import FileFerry.Proofs.Client.Steps

/-!
# What ends a client

A client ends where it is told to quit, where its input ends or fails, where its terminal cannot be written to,
and where its connection is lost (`Dialogue.Ends`). What fails at its local files it tells, at once or when the
transfer is over, and goes on. Of the failures of a cancellation it tells all but one: a request that
could not be written is taken for a failure of the connection to the server, and ends the client as well.
-/

set_option autoImplicit false

namespace FileFerry

namespace Client

variable {φ τ κ δ : Type} [Gateway φ] [Writer τ] [Writer κ] [Canceller δ]

/-! ## Transfers that have something to report -/

/-- What a client that has a local failure to tell is about. -/
inductive Owes : ClientPhase φ → Path → IoError → Prop where
  | payload {d : Download φ} {e : IoError} (hfailure : d.reception.failure = some e) : Owes (.payload d) d.path e
  | verdict {path : Path} {e : IoError} : Owes (.verdict path (.sourceFailed e)) path e

/-- The next step of `c` fails at a local file. -/
inductive LocalFailure (c : Client φ τ κ δ) : Path → IoError → Prop where
  | opening {bytes : Bytes} {rest : List (Except IoError Bytes)} {line : Text} {e : IoError} {files : φ}
      (hphase : c.phase = .prompt) (hkey : c.keyboard = .ok bytes :: rest) (hline : Utf8.decode? bytes = some line)
      (hverb : Text.firstWord (Text.trim line) = text "put") (hname : Text.afterFirstWord (Text.trim line) ≠ [])
      (hopen : Gateway.openFile c.files (c.localPath (Text.afterFirstWord (Text.trim line))) = (.error e, files)) :
      LocalFailure c (c.localPath (Text.afterFirstWord (Text.trim line))) e
  | creating {name line : Text} {rest : Bytes} {e : IoError} {files : φ} (hphase : c.phase = .downloadReply name)
      (hline : takeLine? c.pending = some (line, rest))
      (hreply : (Response.ofLine line).accepts downloadAccepted = true)
      (hcreate : Gateway.create c.files (c.localPath name) = (.error e, files)) :
      LocalFailure c (c.localPath name) e
  | storing {d : Download φ} {trailing : Option Bytes} {reception : Reception} {sink : LocalSink φ} {e : IoError}
      (hphase : c.phase = .payload d) (hne : c.pending ≠ []) (hsound : d.reception.failure = none)
      (htake : d.reception.take (⟨c.files, d.handle⟩ : LocalSink φ) c.pending = (trailing, reception, sink))
      (hfailure : reception.failure = some e) : LocalFailure c d.path e
  | reading {path : Path} {file : Sending} {e : IoError} {rest : Source} (hphase : c.phase = .sending path file)
      (hread : file.source.readAgain chunkSize = (.error e, rest)) : LocalFailure c path e

end Client

namespace Dialogue

variable {φ τ κ δ : Type} [Gateway φ] [Writer τ] [Writer κ] [Canceller δ]

/-- Why the step of `x` to `y` ends the client. -/
inductive Ends (x y : Dialogue φ τ κ δ) : Except ClientError Unit → Prop where
  | stops {result : Except ClientError Unit} (h : Client.Stops x.client y.client result) : Ends x y result
  | disconnected (hwaits : x.client.advance? = none) (hread : x.source.read chunkSize = (.ok [], y.source)) :
      Ends x y (.error .disconnected)
  | readFails {e : IoError} (hwaits : x.client.advance? = none)
      (hread : x.source.read chunkSize = (.error e, y.source)) (he : e.isInterrupted = false) :
      Ends x y (.error (.readResponse e))

variable {x y z : Dialogue φ τ κ δ} {path : Path} {e : IoError}

/-- A step that ends a client is a step for one of the reasons. -/
theorem ends_go (hopen : x.client.isFinished = false) {result : Except ClientError Unit}
    (h : x.go.client.phase = .finished result) : Ends x x.go result := by
  have hphase : x.client.phase ≠ .finished result := by
    intro hfinished
    simp [Client.isFinished, hfinished] at hopen
  cases hstep : x.client.advance? with
  | some c' =>
    rw [go_of_advance? hstep] at h ⊢
    exact .stops ((Client.moves hstep).stops h)
  | none =>
    rcases hread : x.source.read chunkSize with ⟨e | _ | ⟨b, bs⟩, rest⟩
    · rw [go_of_waits hstep hopen hread] at h ⊢
      cases he : e.isInterrupted with
      | true =>
        rw [Client.hear_of_interrupted he] at h
        exact (hphase h).elim
      | false =>
        rw [Client.hear_of_error hopen he] at h ⊢
        cases h
        exact .readFails hstep hread he
    · rw [go_of_waits hstep hopen hread] at h ⊢
      rw [Client.hear_of_end hopen] at h ⊢
      cases h
      exact .disconnected hstep hread
    · rw [go_of_waits hstep hopen hread] at h
      exact (hphase h).elim

/-- Reading changes nothing of what a client is about, unless it ends the client. -/
theorem phase_go_of_waits (hstep : x.client.advance? = none) (hopen : x.client.isFinished = false) :
    x.go.client.phase = x.client.phase ∨ x.go.client.isFinished = true := by
  rcases go_of_read hstep hopen x.source with
    ⟨b, bs, rest, -, -, hgo⟩ | ⟨rest, -, -, hgo⟩ | ⟨failure, rest, -, -, hgo⟩
  · exact .inl (congrArg (fun y => y.client.phase) hgo)
  · exact .inl (congrArg (fun y => y.client.phase) hgo)
  · exact .inr (congrArg (fun y => y.client.isFinished) hgo)

/-- The end of an upload is reached by its last step. -/
theorem verdict_go {sent : Transmission} (h : x.go.client.phase = .verdict path sent) :
    x.client.phase = .verdict path sent ∨
      ∃ file, x.client.phase = .sending path file ∧
        file.step x.client.output = (.ended sent, x.go.client.output) := by
  cases hstep : x.client.advance? with
  | some c' =>
    rw [go_of_advance? hstep] at h ⊢
    exact .inr ((Client.moves hstep).verdict h)
  | none =>
    cases hopen : x.client.isFinished with
    | true =>
      rw [go_of_isFinished hopen] at h
      exact .inl h
    | false =>
      obtain hsame | hended := phase_go_of_waits hstep hopen
      · exact .inl (hsame ▸ h)
      · simp [Client.isFinished, h] at hended

end Dialogue

/-- A file whose sending was given up was given up where a part of it could not be sent. -/
theorem Sending.exists_send_of_step {ω : Type} [Writer ω] {s : Sending} {w w' : ω} {e : IoError}
    (h : s.step w = (.ended (.outputFailed e), w')) : ∃ b, Writer.send w b = (.error e, w') := by
  have hfinish {outcome : Transmission} (hne : outcome ≠ .outputFailed e)
      (h : finish outcome w = (.ended (.outputFailed e), w')) : ∃ b, Writer.send w b = (.error e, w') := by
    unfold finish at h
    split at h
    · cases h
      exact (hne rfl).elim
    · cases h
      exact ⟨_, ‹_›⟩
  unfold step at h
  split at h
  · exact hfinish (by simp) h
  · exact hfinish (by simp) h
  · split at h
    · cases h
    · cases h
      exact ⟨_, ‹_›⟩

namespace Dialogue

variable {φ τ κ δ : Type} [Gateway φ] [Writer τ] [Writer κ] [Canceller δ]
variable {x y z : Dialogue φ τ κ δ} {path : Path} {e : IoError}

/-- A client that waits for the verdict on a file it could not send failed to send it before. -/
theorem exists_send_of_verdict (hstart : ∀ path e, x.client.phase ≠ .verdict path (.outputFailed e))
    (hgo : x.GoesTo y) (h : y.client.phase = .verdict path (.outputFailed e)) :
    ∃ z b, x.GoesTo z ∧ z.GoesTo y ∧ Writer.send z.client.output b = (.error e, z.go.client.output) := by
  obtain ⟨n, rfl⟩ := hgo
  induction n with
  | zero => exact (hstart path e h).elim
  | succ n ih =>
    rw [Function.iterate_succ_apply'] at h ⊢
    have hlast : (go^[n] x).GoesTo (go^[n] x).go := ⟨1, rfl⟩
    obtain hbefore | ⟨file, -, hstep⟩ := verdict_go h
    · obtain ⟨z, b, hz, hto, hsend⟩ := ih hbefore
      exact ⟨z, b, hz, hto.trans hlast, hsend⟩
    · obtain ⟨b, hsend⟩ := Sending.exists_send_of_step hstep
      exact ⟨go^[n] x, b, ⟨n, rfl⟩, hlast, hsend⟩

/-- What is made of a local failure: it is told, now or later, or the client ends for another reason. -/
inductive Answers (y : Dialogue φ τ κ δ) (path : Path) (e : IoError) : Prop where
  | told {t : Client φ τ κ δ} (h : y.client = t.tell (ClientError.localFile path e).message)
  | owed (h : Client.Owes y.client.phase path e)
  | ended (h : y.client.isFinished = true)
  /-- The rest of the file could not be sent either. -/
  | unsent {path' : Path} {e' : IoError} (h : y.client.phase = .verdict path' (.outputFailed e'))

/-- A file that cannot be opened is told of at once. -/
theorem answers_opening {bytes : Bytes} {rest : List (Except IoError Bytes)} {line name : Text} {files : φ}
    (hphase : x.client.phase = .prompt) (hkey : x.client.keyboard = .ok bytes :: rest)
    (hline : Utf8.decode? bytes = some line) (hverb : Text.firstWord (Text.trim line) = text "put")
    (hname : Text.afterFirstWord (Text.trim line) = name) (hne : name ≠ [])
    (hopen : Gateway.openFile x.client.files (x.client.localPath name) = (.error e, files)) :
    Answers x.go (x.client.localPath name) e := by
  have hstep : x.client.advance? = some x.client.takeCommand := by simp only [Client.advance?, hphase]
  rw [go_of_advance? hstep]
  have hprompts := Client.prompts x.client
  generalize x.client.takeCommand = c' at hprompts
  cases hprompts with
  | breaks => exact .ended rfl
  | ends hkey' | endsUnsent hkey' | fails hkey' =>
    rw [hkey] at hkey'
    cases hkey'
  | illFormed hkey' hline' =>
    cases hkey.symm.trans hkey'
    rw [hline] at hline'
    cases hline'
  | blank hkey' hline' htrim =>
    cases hkey.symm.trans hkey'
    cases hline.symm.trans hline'
    rw [htrim] at hverb
    exact absurd hverb (by decide)
  | executes hgoes hkey' hline' =>
    cases hkey.symm.trans hkey'
    cases hline.symm.trans hline'
    rw [Client.execute_put hverb hname hne]
    exact .told (Client.beginUpload_of_unopened hopen)

theorem answers_go (h : x.client.LocalFailure path e) : Answers x.go path e := by
  cases h with
  | opening hphase hkey hline hverb hne hopen => exact answers_opening hphase hkey hline hverb rfl hne hopen
  | @creating name line rest _ files hphase hline hreply hcreate =>
    have hawaits : Client.AwaitsLine x.client.phase := hphase ▸ .downloadReply
    have hstep := Client.advance?_of_awaitsLine hawaits
    rw [hline] at hstep
    let heard : Client φ τ κ δ := { x.client with pending := rest }
    have htake : heard.takeLine line = heard.acceptDownload name := by
      simp only [heard, Client.takeLine, hphase, hreply, if_true]
    have haccept := Client.acceptDownload_of_not_created (c := heard) hcreate
    rw [go_of_advance? hstep]
    change Answers ⟨heard.takeLine line, x.source⟩ _ e
    rw [htake, haccept]
    exact .owed (.payload rfl)
  | @storing d trailing reception sink _ hphase hne _ htake hfailure =>
    have hstep : x.client.advance? = some (x.client.takePayload d) := by
      simp only [Client.advance?, hphase, if_neg hne]
    rw [go_of_advance? hstep]
    have hreceives := Client.receives x.client d
    generalize x.client.takePayload d = c' at hreceives
    cases hreceives with
    | more htake' =>
      cases htake.symm.trans htake'
      exact .owed (.payload hfailure)
    | done htake' hsaid =>
      cases htake.symm.trans htake'
      rw [hsaid e hfailure]
      exact .told rfl
  | @reading _ file _ rest hphase hread =>
    have hstep : x.client.advance? = some (x.client.sendChunk path file) := by simp only [Client.advance?, hphase]
    rw [go_of_advance? hstep]
    have hlast : file.step x.client.output = Sending.finish (.sourceFailed e) x.client.output := by
      rw [Sending.step, hread]
    rw [Client.sendChunk, hlast, Sending.finish]
    rcases Writer.send x.client.output endMarker with ⟨e' | _, output⟩
    · exact .unsent rfl
    · exact .owed .verdict

omit [Writer τ] [Writer κ] [Canceller δ] in
theorem failure_take {r r' : Reception} {sink sink' : LocalSink φ} {chunk : Bytes} {trailing : Option Bytes}
    (htake : r.take sink chunk = (trailing, r', sink')) (h : r.failure = some e) : r'.failure = some e := by
  unfold Reception.take at htake
  rw [h] at htake
  split at htake
  · cases htake
    rfl
  · cases htake
    rfl

/-- A local failure that was not told yet is kept, or told, or the client ends. -/
theorem owes_go (h : Client.Owes x.client.phase path e) :
    Client.Owes x.go.client.phase path e ∨
      (∃ t : Client φ τ κ δ, x.go.client = t.tell (ClientError.localFile path e).message) ∨
      x.go.client.isFinished = true := by
  have hopen : x.client.isFinished = false := by
    generalize hphase : x.client.phase = phase at h
    cases h <;> simp [Client.isFinished, hphase]
  cases hstep : x.client.advance? with
  | none =>
    obtain hsame | hended := phase_go_of_waits hstep hopen
    · exact .inl (hsame ▸ h)
    · exact .inr (.inr hended)
  | some c' =>
    rw [go_of_advance? hstep]
    have hmoves := Client.moves hstep
    generalize hphase : x.client.phase = phase at h
    cases h with
    | @payload d _ hfailure =>
      cases hmoves with
      | receives hphase' hreceives =>
        cases hphase.symm.trans hphase'
        cases hreceives with
        | more htake => exact .inl (.payload (failure_take htake hfailure))
        | done htake hsaid =>
          rw [hsaid e (failure_take htake hfailure)]
          exact .inr (.inl ⟨_, rfl⟩)
      | prompts hphase' | sends hphase' => cases hphase.symm.trans hphase'
      | heeds hawaits =>
        rw [hphase] at hawaits
        cases hawaits
    | verdict =>
      cases hmoves with
      | heeds hawaits hline hheeds =>
        cases hheeds with
        | tells hne => exact (hne _ _ hphase).elim
        | downloads hphase' | uploads hphase' => cases hphase.symm.trans hphase'
        | concludes hphase' hconcludes =>
          cases hphase.symm.trans hphase'
          cases hconcludes with
          | breaks => exact .inr (.inr rfl)
          | unread => exact .inr (.inl ⟨_, rfl⟩)
      | prompts hphase' | receives hphase' | sends hphase' => cases hphase.symm.trans hphase'

/-- However a client goes on, it keeps a local failure until it tells of it, or until it ends. -/
theorem owes_goesTo (h : Client.Owes x.client.phase path e) (hgo : x.GoesTo y) :
    Client.Owes y.client.phase path e ∨
      (∃ z, ∃ t : Client φ τ κ δ, x.GoesTo z ∧ z.GoesTo y ∧
        z.client = t.tell (ClientError.localFile path e).message) ∨
      y.client.isFinished = true := by
  obtain ⟨n, rfl⟩ := hgo
  induction n with
  | zero => exact .inl h
  | succ n ih =>
    rw [Function.iterate_succ_apply']
    have hlast : (go^[n] x).GoesTo (go^[n] x).go := ⟨1, rfl⟩
    obtain howes | ⟨z, t, hz, hto, htold⟩ | hended := ih
    · obtain hkept | ⟨t, htold⟩ | hended := owes_go howes
      · exact .inl hkept
      · exact .inr (.inl ⟨_, t, GoesTo.trans ⟨n, rfl⟩ hlast, .refl _, htold⟩)
      · exact .inr (.inr hended)
    · exact .inr (.inl ⟨z, t, hz, hto.trans hlast, htold⟩)
    · right
      right
      rw [go_of_isFinished hended]
      exact hended

/-- A client ends for one of the reasons of `Ends`, whatever is typed and whatever its server, the cancellation port
and the local files do. To cancel a command leaves the connection to the server and what came from it alone, and
what is told goes before the next prompt. A local failure is told at once or kept until the transfer is over, and
then told, unless the client ends before. -/
theorem what_ends_a_client (settings : ClientSettings) (files : φ) (keyboard : List (Except IoError Bytes))
    (terminal : τ) (output : κ) (canceller : δ) (src : Source) :
    let x : Dialogue φ τ κ δ := ⟨.start settings files keyboard terminal output canceller, src⟩
    (∃ y, x.GoesTo y ∧ y.client = x.client.run src ∧ y.client.isFinished = true) ∧
      (∀ y result, x.GoesTo y → y.client.phase = .finished result →
        ∃ z, x.GoesTo z ∧ z.client.isFinished = false ∧ z.go = y ∧ Ends z y result) ∧
      (∀ y path e, x.GoesTo y → y.client.phase = .verdict path (.outputFailed e) →
        ∃ z b, x.GoesTo z ∧ z.GoesTo y ∧ Writer.send z.client.output b = (.error e, z.go.client.output)) ∧
      (∀ (c : Client φ τ κ δ) argument, c.Terminates argument (c.terminate argument) ∧
        ∃ terminal canceller phase, c.terminate argument = { c with terminal, canceller, phase }) ∧
      (∀ (c : Client φ τ κ δ) said, (∃ terminal, c.tell said = { c with terminal, phase := .prompt }) ∨
        ∃ e terminal, c.tell said = { c with terminal, phase := .finished (.error (.output e)) } ∧
          Writer.Breaks c.terminal e terminal) ∧
      ∀ (y : Dialogue φ τ κ δ) path e,
        (y.client.LocalFailure path e → Answers y.go path e) ∧
          ∀ z, Client.Owes y.client.phase path e → y.GoesTo z →
            Client.Owes z.client.phase path e ∨
              (∃ told, ∃ t : Client φ τ κ δ, y.GoesTo told ∧ told.GoesTo z ∧
                told.client = t.tell (ClientError.localFile path e).message) ∨
              z.client.isFinished = true := by
  intro x
  have hopen : x.client.isFinished = false := rfl
  have hwaits : x.client.advance? = none := rfl
  refine ⟨?_, ?_, ?_, ?_, ?_, ?_⟩
  · obtain ⟨y, hgo, hrun⟩ := exists_goesTo_run hwaits src
    exact ⟨y, hgo, hrun, hrun ▸ Client.isFinished_run x.client src⟩
  · intro y result hgo hphase
    have hended : y.client.isFinished = true := by simp [Client.isFinished, hphase]
    obtain ⟨z, hz, hbefore, rfl⟩ := exists_last_step hgo hopen hended
    exact ⟨z, hz, hbefore, rfl, ends_go hbefore hphase⟩
  · intro y path e hgo hphase
    exact exists_send_of_verdict (fun path e h => by cases h) hgo hphase
  · intro c argument
    exact ⟨Client.terminates c argument, Client.terminate_eq c argument⟩
  · intro c said
    obtain ⟨terminal, htell, -⟩ | hbreaks := Client.tell_cases c said
    · exact .inl ⟨terminal, htell⟩
    · exact .inr hbreaks
  · intro y path e
    exact ⟨answers_go, fun z howes hgo => owes_goesTo howes hgo⟩

/-- A request for a cancellation that cannot be written ends a client whose server is there; and of a file that could
not be made nothing is told if the marker does not come. -/
theorem failures_that_are_not_told :
    let settings : ClientSettings := ⟨text "localhost", 1, 2, ⟨[Path.slash]⟩⟩
    let files : ScriptedFiles := ⟨⟨[Path.slash]⟩, [], [], [], [], [], [], [.error (.os 2)], []⟩
    let cancels : Client ScriptedFiles Pipe Pipe RequestLog :=
      ⟨settings, files, [], ⟨[]⟩, ⟨[]⟩, ⟨some (.unsent (.plain .brokenPipe)), []⟩, [], .prompt⟩
    let downloads : Client ScriptedFiles Pipe Pipe RequestLog :=
      ⟨settings, files, [], ⟨[]⟩, ⟨[]⟩, ⟨none, []⟩, [], .prompt⟩
    let src : Source := [.bytes (Utf8.encode (text "SUCCESS: FILE_TRANSFER_START\n"))]
    ((cancels.execute (text "terminate 5")).phase = .finished (.error (.sendRequest (.plain .brokenPipe))) ∧
        (cancels.execute (text "terminate 5")).output = cancels.output) ∧
      (Gateway.create downloads.files (downloads.localPath (text "a"))).1 = .error (.os 2) ∧
      ∃ y failure, (⟨downloads.execute (text "get a"), src⟩ : Dialogue ScriptedFiles Pipe Pipe RequestLog).GoesTo y ∧
        y.client.phase = .finished (.error failure) ∧ y.client.terminal = downloads.terminal := by
  intro settings files cancels downloads src
  have hcancels : cancels.execute (text "terminate 5") =
      cancels.finish (.error (.sendRequest (.plain .brokenPipe))) := by
    rfl
  refine ⟨⟨?_, ?_⟩, rfl, ?_⟩
  · rw [hcancels]
    rfl
  · rw [hcancels]
    rfl
  · have hverb : Text.firstWord (text "get a") = text "get" := by decide
    have hname : Text.afterFirstWord (text "get a") = text "a" := by decide
    have hline : cutAtNewline? (downloads.pending ++ src.content) =
        some (Utf8.encode (text "SUCCESS: FILE_TRANSFER_START"), []) := by decide
    have hnone : cutAtMarker? [] = none := by decide
    rw [Client.execute_get hverb hname (by decide), Client.ask, Pipe.send_eq]
    let output : Pipe := ⟨downloads.output.inFlight ++ Utf8.encode (downloadRequest (text "a") ++ ['\n'])⟩
    let asked : Client ScriptedFiles Pipe Pipe RequestLog :=
      { downloads with output, phase := .downloadReply (text "a") }
    let d : Download ScriptedFiles :=
      ⟨text "a", downloads.localPath (text "a"), none, { Reception.fresh with failure := some (.os 2) }⟩
    have haccept (pending : Bytes) :
        ({ asked with pending } : Client ScriptedFiles Pipe Pipe RequestLog).acceptDownload (text "a") =
          { asked with files := { files with creating := [] }, pending, phase := .payload d } :=
      Client.acceptDownload_of_not_created rfl
    obtain ⟨pending, b, c', e, failure, left, hdownloading, hgo⟩ :=
      Client.exists_downloading_of_lost rfl haccept rfl hline Client.accepts_transferStart hnone
    refine ⟨_, failure, hgo, rfl, ?_⟩
    change c'.terminal = downloads.terminal
    rw [hdownloading.client]

end Dialogue

end FileFerry
