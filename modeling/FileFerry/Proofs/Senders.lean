import Mathlib.Logic.Relation
import FileFerry.Gateway.Scripted
import FileFerry.Proofs.Conversation.Verdicts
import FileFerry.Proofs.Lockstep.Requests
import FileFerry.Proofs.Transmission

/-!
# The two ends that send files

A session sends the file of a download, a client that of an upload. Both go on with one chunk at a time, and a
whole file is sent as `Sending.run` sends it, so that what is known of a transmission holds of both
(`senders_frame_alike`). They differ in what they make of a failure: a session goes on to its next command,
while a client stops, whatever its server still says.
-/

set_option autoImplicit false

namespace FileFerry

/-! ## A session -/

section

variable {γ ω : Type} [Gateway γ] [Writer ω]

variable {s : Session γ ω} {line argument : Text} {src : Source} {g g' : γ}

theorem Session.beginDownload_of_opens (hname : argument ≠ [])
    (hexists : Gateway.exists s.gateway (s.resolve (.ofText argument)) = (true, g))
    (hopen : Gateway.openFile g (s.resolve (.ofText argument)) = (.ok src, g')) :
    s.beginDownload argument = (.ok .streamed, s.acceptDownload src g') := by
  simp only [beginDownload, requireName, if_neg hname, hexists, hopen]
  rfl

/-- A download that can be taken up is announced and sent, and then the next command is waited for. -/
theorem Conversation.goesTo_downloaded {rest : InputBuffer} (hphase : s.phase = .command)
    (hline : s.input.nextLine = .line line rest) (hasks : Asks line .get argument) (hname : argument ≠ [])
    (hexists : Gateway.exists s.gateway (s.resolve (.ofText argument)) = (true, g))
    (hopen : Gateway.openFile g (s.resolve (.ofText argument)) = (.ok src, g')) (incoming : Source) :
    (⟨s, incoming⟩ : Conversation γ ω).GoesTo ⟨{ s with
      gateway := g', registry := s.registry.start.2.finish s.registry.start.1, input := rest,
      output := ((Sending.ofSource src).run (s.sendResponse (.framed .success transferStart)).output).2 },
      incoming⟩ := by
  have hbegins : (s.withInput rest).beginDownload argument =
      (.ok .streamed, (s.withInput rest).acceptDownload src g') :=
    Session.beginDownload_of_opens hname hexists hopen
  have hhandled : (s.withInput rest).handleLine line = (s.withInput rest).acceptDownload src g' := by
    rw [Session.handleLine_of_asks hasks, Session.execute, hbegins]
    rfl
  have hstep : s.advance? = some ((s.withInput rest).acceptDownload src g') := by
    rw [← hhandled]
    exact Session.advance?_of_line hphase hline
  apply GoesTo.head
  rw [go_of_advance? hstep]
  have hsent := goesTo_sendAll (s := (s.withInput rest).acceptDownload src g') rfl incoming
  rwa [Session.sendAll_acceptDownload (s := s.withInput rest) hphase] at hsent

end

/-! ## A client -/

namespace Client

variable {φ τ κ δ : Type} [Gateway φ] [Writer τ] [Writer κ] [Canceller δ]

/-- Steps alone lead from `c` to `t`. -/
def GoesTo (c t : Client φ τ κ δ) : Prop := Relation.ReflTransGen (fun a b => a.advance? = some b) c t

/-- A file that is being sent is sent to its end. -/
theorem goesTo_sent {c : Client φ τ κ δ} {path : Path} {file : Sending} (h : c.phase = .sending path file) :
    c.GoesTo { c with output := (file.run c.output).2, phase := .verdict path (file.run c.output).1 } := by
  generalize hout : c.output = output
  fun_induction Sending.run file output generalizing c with
  | case1 file output sent output' hended =>
    have hstep : c.advance? = some { c with output := output', phase := .verdict path sent } := by
      simp [advance?, h, sendChunk, hout, hended]
    exact .single hstep
  | case2 file output rest output' hmore ih =>
    have hstep : c.advance? = some { c with output := output', phase := .sending path rest } := by
      simp [advance?, h, sendChunk, hout, hmore]
    exact .head hstep (ih rfl rfl)

/-- An upload that the server takes up is sent, and then its verdict is waited for. -/
theorem goesTo_uploaded {c : Client φ τ κ δ} {name line : Text} {path : Path} {src : Source} {rest : Bytes}
    (hphase : c.phase = .uploadReply name path src) (hline : takeLine? c.pending = some (line, rest))
    (haccepted : (Response.ofLine line).accepts uploadAccepted = true) :
    c.GoesTo { c with
      pending := rest, output := ((Sending.ofSource src).run c.output).2,
      phase := .verdict path ((Sending.ofSource src).run c.output).1 } := by
  have hstep : c.advance? = some { c with pending := rest, phase := .sending path (.ofSource src) } := by
    simp [advance?, hphase, hline, takeLine, haccepted]
  exact .head hstep (goesTo_sent rfl)

omit [Writer κ] [Canceller δ] in
/-- A verdict on a file that could not be sent is shown, and then the failure is what is reported. -/
theorem phase_takeLine_verdict {c : Client φ τ κ δ} {path : Path} {e : IoError}
    (h : c.phase = .verdict path (.outputFailed e)) (line : Text) :
    ∃ e', (c.takeLine line).phase = .finished (.error e') ∧ (e' = .sendRequest e ∨ ∃ e'', e' = .output e'') := by
  simp only [takeLine, h, completeUpload]
  obtain ⟨terminal, hprint, -⟩ | ⟨e', terminal, hprint, -⟩ := print_cases c (Response.ofLine line).render
  · rw [hprint]
    exact ⟨.sendRequest e, rfl, .inl rfl⟩
  · rw [hprint]
    exact ⟨.output e', rfl, .inr ⟨e', rfl⟩⟩

omit [Writer τ] [Writer κ] [Canceller δ] in
theorem result?_of_finished {c : Client φ τ κ δ} {result : Except ClientError Unit}
    (h : c.phase = .finished result) : c.result? = some result := by
  simp only [result?, h]

/-- After a failure to send it ends with an error for which the connection is of no more use. -/
inductive Fails (e : IoError) (c : Client φ τ κ δ) : Prop where
  | verdict {path : Path} (hphase : c.phase = .verdict path (.outputFailed e))
  | finished {e' : ClientError} (hphase : c.phase = .finished (.error e')) (hfatal : e'.isFatal = true)

namespace Fails

variable {e : IoError} {c c' : Client φ τ κ δ}

theorem advance? (h : c.Fails e) (hstep : c.advance? = some c') : c'.Fails e := by
  cases h with
  | @verdict path hphase =>
    simp only [Client.advance?, hphase] at hstep
    split at hstep
    · cases hstep
    · rename_i line rest hline
      cases hstep
      obtain ⟨e', hfinished, hreport⟩ := phase_takeLine_verdict
        (c := { c with pending := rest, phase := .verdict path (.outputFailed e) }) rfl line
      refine .finished hfinished ?_
      rcases hreport with rfl | ⟨_, rfl⟩
      · rfl
      · rfl
  | finished hphase =>
    simp only [Client.advance?, hphase] at hstep
    cases hstep

theorem drain (h : c.Fails e) : c.drain.Fails e := by
  fun_induction Client.drain c with
  | case1 c hstop => exact h
  | case2 c c' hstep ih => exact ih (h.advance? hstep)

omit [Writer τ] [Writer κ] [Canceller δ] in
theorem supply (h : c.Fails e) (b : Bytes) : ({ c with pending := b } : Client φ τ κ δ).Fails e := by
  cases h with
  | verdict hphase => exact .verdict hphase
  | finished hphase hfatal => exact .finished hphase hfatal

theorem receive (h : c.Fails e) (result : ReadResult) : (c.receive result).Fails e := by
  unfold Client.receive
  split
  · exact h
  · split
    · split
      · exact h
      · exact .finished rfl rfl
    · exact .finished rfl rfl
    · exact (h.supply _).drain

theorem deliver (h : c.Fails e) (content : Bytes) : (c.deliver content).Fails e := by
  fun_induction Client.deliver c content with
  | case1 c => exact h
  | case2 c b bs ih => exact ih (h.receive _)

theorem take (h : c.Fails e) (arrival : Arrival) : (c.take arrival).Fails e := by
  cases arrival with
  | bytes content => exact h.deliver content
  | failure e' => exact h.receive (.error e')

/-- Whatever the server still sends. -/
theorem run (h : c.Fails e) (src : Source) :
    ∃ e', (c.run src).result? = some (.error e') ∧ e'.isFatal = true := by
  have hall : (src.foldl Client.take c).Fails e := by
    induction src generalizing c with
    | nil => exact h
    | cons arrival src ih => exact ih (h.take arrival)
  have hend : (c.run src).isFinished = true := by
    unfold Client.run Client.receive
    split
    · assumption
    · rfl
  cases hall.receive (.ok []) with
  | verdict hphase =>
    change ((src.foldl Client.take c).receive (.ok [])).isFinished = true at hend
    simp [isFinished, hphase] at hend
  | @finished e' hphase hfatal =>
    exact ⟨e', result?_of_finished hphase, hfatal⟩

end Fails

end Client

/-! ## Both -/

variable {γ φ ω τ δ : Type} [Gateway γ] [Gateway φ] [Writer ω] [Writer τ] [Canceller δ]

/-- Whatever reading a file brings, its bytes up to the end or to the first failure are sent and then the marker,
behind the line that announces them if it is a session that sends. Behind a failed write or flush nothing more
is tried. A session then goes on to its next command; a client reports how the transfer went, and stops if it
could not send. -/
theorem senders_frame_alike (src : Source) :
    (∀ (s : Session γ (Traced ω)) (incoming : Source) {line argument : Text} {rest : InputBuffer} {g g' : γ},
      s.phase = .command → s.input.nextLine = .line line rest → Asks line .get argument → argument ≠ [] →
      Gateway.exists s.gateway (s.resolve (.ofText argument)) = (true, g) →
      Gateway.openFile g (s.resolve (.ofText argument)) = (.ok src, g') →
        ∃ announced output refusal failure,
          (⟨s, incoming⟩ : Conversation γ (Traced ω)).GoesTo ⟨{ s with
            gateway := g', registry := s.registry.start.2.finish s.registry.start.1, input := rest, output },
            incoming⟩ ∧
          s.output.Sends announced (Utf8.encode (text "SUCCESS: FILE_TRANSFER_START\n")) refusal ∧
          announced.Sends output (src.content ++ endMarker) failure) ∧
      (∀ c : Connection (Traced ω), ∃ output failure,
        c.sendPayload src = (src.report.unless failure, { c with output }) ∧
          c.output.Sends output (src.content ++ endMarker) failure) ∧
        ∀ (c : Client φ τ (Traced ω) δ) {name line : Text} {path : Path} {rest : Bytes},
          c.phase = .uploadReply name path src → takeLine? c.pending = some (line, rest) →
          (Response.ofLine line).accepts uploadAccepted = true →
            ∃ t failure,
              c.GoesTo t ∧
              t = { c with
                pending := rest, output := t.output, phase := .verdict path (src.report.unless failure) } ∧
              c.output.Sends t.output (src.content ++ endMarker) failure ∧
              ∀ e, failure = some e →
                (∀ verdict, ∃ e', (t.takeLine verdict).result? = some (.error e') ∧
                  (e' = .sendRequest e ∨ ∃ e'', e' = .output e'')) ∧
                ∀ src', ∃ e', (t.run src').result? = some (.error e') ∧ e'.isFatal = true := by
  refine ⟨?_, ?_, ?_⟩
  · intro s incoming line argument rest g g' hphase hline hasks hname hexists hopen
    have hgo := Conversation.goesTo_downloaded hphase hline hasks hname hexists hopen incoming
    have hannounced := s.output.sends_send (Utf8.encode (text "SUCCESS: FILE_TRANSFER_START\n"))
    obtain ⟨failure, -, hsent⟩ :=
      Sending.sends_run src (Writer.send s.output (Utf8.encode (text "SUCCESS: FILE_TRANSFER_START\n"))).2
    exact ⟨_, _, _, failure, hgo, hannounced, hsent⟩
  · intro c
    obtain ⟨failure, houtcome, hsent⟩ := Sending.sends_run src c.output
    refine ⟨_, failure, ?_, hsent⟩
    rw [← houtcome]
    rfl
  · intro c name line path rest hphase hline haccepted
    have hgo := Client.goesTo_uploaded hphase hline haccepted
    obtain ⟨failure, houtcome, hsent⟩ := Sending.sends_run src c.output
    rw [houtcome] at hgo
    let t : Client φ τ (Traced ω) δ := { c with
      pending := rest, output := ((Sending.ofSource src).run c.output).2,
      phase := .verdict path (src.report.unless failure) }
    refine ⟨t, failure, hgo, rfl, hsent, ?_⟩
    rintro e rfl
    have hwaits : t.phase = .verdict path (.outputFailed e) := rfl
    refine ⟨fun verdict => ?_, (Client.Fails.verdict hwaits).run⟩
    obtain ⟨e', hfinished, hreport⟩ := Client.phase_takeLine_verdict hwaits verdict
    exact ⟨e', Client.result?_of_finished hfinished, hreport⟩

/-- A file whose first read is interrupted, and which cannot be read beyond its second byte. -/
theorem senders_frame_alike_broken_file :
    let src : Source := [.failure (.plain .interrupted), .bytes [97, 98], .failure (.os 5), .bytes [99]]
    let root : Path := ⟨[Path.slash]⟩
    let files : ScriptedFiles := ⟨root, [true], [], [], [], [], [.ok src], [], []⟩
    let s : Session ScriptedFiles (Traced Pipe) :=
      ⟨files, .empty, ⟨⟨[]⟩, []⟩, root, ⟨Utf8.encode (text "get a\npwd\n")⟩, .command⟩
    let c : Client ScriptedFiles Pipe (Traced Pipe) RequestLog :=
      ⟨⟨text "localhost", 8080, 8081, root⟩, files, [], ⟨[]⟩, ⟨⟨[]⟩, []⟩, ⟨none, []⟩,
        lineBytes (text "SUCCESS: READY_TO_RECEIVE"), .uploadReply (text "a") root src⟩
    (∃ t, (⟨s, []⟩ : Conversation ScriptedFiles (Traced Pipe)).GoesTo t ∧ t.session.phase = .command ∧
      t.session.output.inner.inFlight =
        Utf8.encode (text "SUCCESS: FILE_TRANSFER_START\n") ++ ([97, 98] ++ endMarker)) ∧
      ∃ t, c.GoesTo t ∧ t.phase = .verdict root (.sourceFailed (.os 5)) ∧
        t.output.inner.inFlight = [97, 98] ++ endMarker := by
  intro src root files s c
  obtain ⟨hserver, -, hclient⟩ :=
    senders_frame_alike (γ := ScriptedFiles) (φ := ScriptedFiles) (ω := Pipe) (τ := Pipe) (δ := RequestLog) src
  have hempty : Pipe.Holds ⟨[]⟩ [] := rfl
  constructor
  · have hrequest : IsRequest (text "get a") := ⟨by decide, by decide⟩
    have hline : s.input.nextLine = .line (text "get a") ⟨Utf8.encode (text "pwd\n")⟩ := by
      exact hrequest.nextLine (Utf8.encode (text "pwd\n"))
    have hget : Command.ofLine? (text "get a") = some ⟨Verb.get.name, text "a"⟩ := by decide +kernel
    obtain ⟨announced, output, _, _, hgo, hannounced, hsent⟩ := hserver s [] rfl hline hget (by decide) rfl rfl
    obtain ⟨-, hheader⟩ := hannounced.whole Pipe.accepts_holds hempty
    obtain ⟨-, hheld⟩ := hsent.whole Pipe.accepts_holds hheader
    exact ⟨_, hgo, rfl, hheld⟩
  · have hready : '\n' ∉ text "SUCCESS: READY_TO_RECEIVE" := by decide
    have hline := takeLine?_line hready []
    obtain ⟨t, failure, hgo, ht, hsent, -⟩ := hclient c rfl hline (by decide)
    obtain ⟨rfl, hheld⟩ := hsent.whole Pipe.accepts_holds hempty
    refine ⟨t, hgo, ?_, hheld⟩
    rw [ht]
    rfl

end FileFerry
