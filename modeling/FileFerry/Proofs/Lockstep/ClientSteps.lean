import FileFerry.Proofs.Lockstep.Stages

/-!
# The steps of the client

Every step of a client that is paired with its session leaves the two in step: it keeps the stage,
leads to the next one, or ends the client.
-/

set_option autoImplicit false

namespace FileFerry

variable {φ τ δ γ : Type} [Gateway φ] [Gateway γ]

namespace System

variable {sys : System φ τ δ γ} {waiting : List Text}

/-! ## The client -/

theorem inStep_returned (h : sys.Paired []) (hserver : sys.server.phase = .command) (hup : sys.up = [])
    (hnothing : sys.server.output.inFlight = []) {c : Client φ τ Pipe δ}
    (hreturned : Client.Returned { sys.client with pending := [] } c) :
    (sys.withClient c).InStep := by
  rcases hreturned with hfinished | ⟨hphase, hpending, houtput, hkeyboard⟩
  · exact .inl hfinished
  · have hsame : c.output = sys.client.output := houtput
    have hnone : sys.client.requestsSent c = [] := Client.requestsSent_eq_nil fun _ => hsame
    have hdown : c.inHand ++ sys.server.output.inFlight = [] := by
      rw [Client.inHand_of_phase_ne (by simp [hphase]), hpending, hnothing]
      rfl
    refine .inr ⟨[], ?_, ?_, fun line hline => h.typed line (hkeyboard hline), h.cwd⟩
    · refine .prompt hphase hserver ?_ hdown
      rw [up_withClient, hsame]
      exact hup
    · rw [Logged, withClient, hnone]
      exact h.logged

theorem inStep_of_stage (h : sys.Paired []) {c : Client φ τ Pipe δ} (hphase : sys.client.phase ≠ .prompt)
    (hinputs : c.keyboard = sys.client.keyboard)
    (hstage : Stage c.phase sys.server.phase (sys.server.inHand ++ c.output.inFlight)
      (c.inHand ++ sys.server.output.inFlight) []) :
    (sys.withClient c).InStep := by
  have hnone : sys.client.requestsSent c = [] := Client.requestsSent_eq_nil fun hp => absurd hp hphase
  refine .inr ⟨[], hstage, ?_, ?_, h.cwd⟩
  · rw [Logged, withClient, hnone]
    exact h.logged
  · intro line hline
    exact h.typed line (hinputs ▸ hline)

variable [Writer τ] [Canceller δ]

theorem inStep_takeCommand (h : sys.Paired []) (hclient : sys.client.phase = .prompt)
    (hserver : sys.server.phase = .command) (hup : sys.up = []) (hdown : sys.down = []) :
    (sys.withClient sys.client.takeCommand).InStep := by
  obtain ⟨hhand, hnothing⟩ := List.append_eq_nil_iff.mp hdown
  rw [Client.inHand_of_phase_ne (by simp [hclient])] at hhand
  rcases sys.client.takeCommand_outcome h.typed with hreturned | ⟨request, hasked, -⟩
  · apply inStep_returned h hserver hup hnothing
    rcases hreturned with hfinished | ⟨hphase, hpending, houtput, hkeyboard⟩
    · exact .inl hfinished
    · exact Client.returned_prompt hphase (hpending.trans hhand) houtput hkeyboard
  · have hsent := Client.requestsSent_of_output hclient (lineBytes_ne_nil request) hasked.output
    have hlogged := h.logged
    refine .inr ⟨[request], ?_, ?_, fun line hline => h.typed line (hasked.keyboard hline), h.cwd⟩
    · refine .asked hasked.awaits hasked.sendable hserver ?_ ?_
      · rw [up_withClient, hasked.output, ← List.append_assoc]
        change sys.up ++ _ = _
        rw [hup]
        rfl
      · rw [down_withClient, Client.inHand_of_awaitsLine hasked.awaits.awaitsLine, hasked.pending, hhand]
        exact hnothing
    · rw [Logged, hnothing, Exchanges.add_nil] at hlogged
      rw [Logged, withClient, hnothing, Exchanges.add_nil, hsent, hlogged]
      rfl

theorem inStep_beginsDownload (h : sys.Paired []) {c : Client φ τ Pipe δ} (hstep : sys.client.advance? = some c)
    {name : Text} {payload rest : Bytes} (hclient : sys.client.phase = .downloadReply name)
    (hserver : sys.server.phase.Sends) (hup : sys.up = [])
    (hdown : sys.down ++ sys.server.phase.owes = lineBytes transferStartLine ++ rest)
    (hcut : cutAtMarker? rest = some (payload, [])) :
    (sys.withClient c).InStep := by
  have hawaits : Client.AwaitsLine sys.client.phase := by
    rw [hclient]
    exact .downloadReply
  rw [down, Client.inHand_of_awaitsLine hawaits, List.append_assoc] at hdown
  obtain ⟨after, -, hafter, hc⟩ := Client.takeLine_of_advance? hawaits (by decide) hdown hstep
  rw [Client.takeLine_transferStart (c := { sys.client with pending := after }) hclient] at hc
  obtain ⟨files, d, -, hempty, -, hc'⟩ := Client.acceptDownload_eq { sys.client with pending := after } name
  obtain rfl := hc'.symm.trans hc
  refine inStep_of_stage h (by simp [hclient]) (by rfl) ?_
  refine .downloading rfl hserver hup (?_ : _ = some (payload, []))
  simp only [Client.inHand, hempty, Scanner.empty, List.nil_append, List.append_assoc]
  rw [hafter]
  exact hcut

theorem inStep_takesPayload (h : sys.Paired []) {c : Client φ τ Pipe δ} (hstep : sys.client.advance? = some c)
    {d : Download φ} {payload : Bytes} (hclient : sys.client.phase = .payload d)
    (hserver : sys.server.phase.Sends) (hup : sys.up = [])
    (hcut : cutAtMarker? (sys.down ++ sys.server.phase.owes) = some (payload, [])) :
    (sys.withClient c).InStep := by
  rw [down, List.append_assoc] at hcut
  rcases Client.advance?_payload hclient hstep hcut with
    ⟨d', left, hphase, houtput, hkeyboard, hleft⟩ | ⟨hafter, hreturned⟩
  · apply inStep_of_stage h (by simp [hclient]) hkeyboard
    refine .downloading hphase hserver ?_ (?_ : _ = some (left, []))
    · rw [houtput]
      exact hup
    · rw [List.append_assoc]
      exact hleft
  · obtain ⟨hnothing, howes⟩ := List.append_eq_nil_iff.mp hafter
    exact inStep_returned h (hserver.eq_command howes) hup hnothing hreturned

theorem inStep_beginsUpload (h : sys.Paired []) {c : Client φ τ Pipe δ} (hstep : sys.client.advance? = some c)
    {name : Text} {path : Path} {source : Source} {u : Upload (Answered γ)}
    (hclient : sys.client.phase = .uploadReply name path source) (hserver : sys.server.phase = .receiving u)
    (hfailure : FailureOneLine u.reception.failure) (hup : sys.up = []) (hdown : sys.down = lineBytes readyLine)
    (huploads : ∀ path file, c.phase = .sending path file → ¬ HasMarker file.source.content) :
    (sys.withClient c).InStep := by
  have hawaits : Client.AwaitsLine sys.client.phase := by
    rw [hclient]
    exact .uploadReply
  rw [down, Client.inHand_of_awaitsLine hawaits, ← List.append_nil (lineBytes readyLine)] at hdown
  obtain ⟨after, -, hnothing, hc⟩ := Client.takeLine_of_advance? hawaits (by decide) hdown hstep
  rw [Client.takeLine_ready (c := { sys.client with pending := after }) hclient] at hc
  subst hc
  refine inStep_of_stage h (by simp [hclient]) (by rfl) ?_
  have hcontent := cutAtMarker?_payload (huploads path (.ofSource source) rfl) []
  rw [List.append_nil] at hcontent
  refine .uploading ⟨path, .inr ⟨_, rfl⟩⟩ hserver hfailure (?_ : _ = some (source.content, [])) hnothing
  change cutAtMarker? (sys.up ++ (source.content ++ endMarker)) = _
  rw [hup]
  exact hcontent

theorem inStep_sends (h : sys.Paired []) {c : Client φ τ Pipe δ} (hstep : sys.client.advance? = some c)
    {path : Path} {file : Sending} {u : Upload (Answered γ)} {payload : Bytes}
    (hclient : sys.client.phase = .sending path file) (hserver : sys.server.phase = .receiving u)
    (hfailure : FailureOneLine u.reception.failure)
    (hcut : cutAtMarker? (sys.up ++ sys.client.phase.owes) = some (payload, [])) (hdown : sys.down = []) :
    (sys.withClient c).InStep := by
  obtain ⟨said, houtput, howes, hinputs, hphase⟩ := Client.advance?_sending hclient hstep
  obtain ⟨hkeyboard, hpending⟩ := Prod.mk.inj hinputs
  have hno : ∀ d, c.phase ≠ .payload d := by
    intro d hp
    rcases hphase with ⟨sent, hverdict⟩ | ⟨file', hsending⟩
    · rw [hp] at hverdict
      cases hverdict
    · rw [hp] at hsending
      cases hsending
  rw [down, Client.inHand_of_phase_ne (by simp [hclient])] at hdown
  apply inStep_of_stage h (by simp [hclient]) hkeyboard
  refine .uploading ⟨path, hphase⟩ hserver hfailure (?_ : _ = some (payload, [])) ?_
  · rw [up, howes, List.append_assoc, ← List.append_assoc _ said, ← houtput, ← List.append_assoc] at hcut
    exact hcut
  · rw [Client.inHand_of_phase_ne hno, hpending]
    exact hdown

theorem advance?_of_awaitsLine_nothing {c : Client φ τ Pipe δ} (h : Client.AwaitsLine c.phase)
    (hhand : c.inHand = []) : c.advance? = none := by
  rw [Client.inHand_of_awaitsLine h] at hhand
  rw [Client.advance?_of_awaitsLine h, hhand]
  rfl

theorem inStep_client (h : sys.Paired waiting) {c : Client φ τ Pipe δ} (hstep : sys.client.advance? = some c)
    (huploads : ∀ path file, c.phase = .sending path file → ¬ HasMarker file.source.content) :
    (sys.withClient c).InStep := by
  cases h.stage with
  | prompt hclient hserver hup hdown =>
    have hc : sys.client.takeCommand = c := by
      simp only [Client.advance?, hclient] at hstep
      exact Option.some.inj hstep
    subst hc
    exact inStep_takeCommand h hclient hserver hup hdown
  | asked hclient hrequest hserver hup hdown =>
    rw [advance?_of_awaitsLine_nothing hclient.awaitsLine (List.append_eq_nil_iff.mp hdown).1] at hstep
    cases hstep
  | told hclient hline hserver hup hdown =>
    rw [down, Client.inHand_of_awaitsLine hclient.awaitsLine] at hdown
    obtain ⟨hnothing, hreturned⟩ := Client.returned_of_hears hclient hline hdown hstep
    exact inStep_returned h hserver hup hnothing hreturned
  | downloadTaken hclient hserver hup hdown hcut =>
    exact inStep_beginsDownload h hstep hclient hserver hup hdown hcut
  | downloading hclient hserver hup hcut => exact inStep_takesPayload h hstep hclient hserver hup hcut
  | uploadTaken hclient hserver hfailure hup hdown =>
    exact inStep_beginsUpload h hstep hclient hserver hfailure hup hdown huploads
  | uploading hclient hserver hfailure hcut hdown =>
    obtain ⟨path, ⟨sent, hverdict⟩ | ⟨file, hsending⟩⟩ := hclient
    · have hawaits : Client.AwaitsLine sys.client.phase := by
        rw [hverdict]
        exact .verdict
      rw [advance?_of_awaitsLine_nothing hawaits (List.append_eq_nil_iff.mp hdown).1] at hstep
      cases hstep
    · exact inStep_sends h hstep hsending hserver hfailure hcut hdown

end System

end FileFerry
