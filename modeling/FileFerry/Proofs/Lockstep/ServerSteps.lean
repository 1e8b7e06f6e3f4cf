import FileFerry.Proofs.Lockstep.Stages

/-!
# The steps of the session

A session that is paired with its client takes a request only when it is whole, and then answers it,
begins a transfer, or goes on with one.
-/

set_option autoImplicit false

namespace FileFerry

variable {φ τ δ γ : Type} [Gateway φ] [Gateway γ]

namespace System

variable {sys : System φ τ δ γ} {waiting : List Text} {s' : Session (Answered γ) Pipe}

/-- What the session says belongs to the request it has taken, in this step or before. -/
theorem logged_server {said : Bytes} (h : sys.Logged waiting) (htaken : sys.server.commandsTaken = waiting)
    (houtput : s'.output.inFlight = sys.server.output.inFlight ++ said) :
    (sys.withServer s').Logged [] := by
  rw [Logged] at h ⊢
  rw [withServer, Pipe.added_eq houtput, Exchanges.map_add, Exchanges.map_begin, htaken, ← h, houtput,
    ← Exchanges.add_add]
  rfl

theorem paired_of_tells (h : sys.Paired waiting) {s₁ : Session (Answered γ) Pipe} {line : Text}
    (htells : Session.Tells s₁ s' line) (houtput : s₁.output = sys.server.output)
    (hhears : Client.Hears sys.client.phase line) (hpending : s'.input.pending = [])
    (hup : sys.client.output.inFlight = []) (hdown : sys.down = [])
    (htaken : sys.server.commandsTaken = waiting) :
    (sys.withServer s').Paired [] := by
  have hsaid := htells.output
  rw [houtput] at hsaid
  obtain ⟨hhand, hnothing⟩ := List.append_eq_nil_iff.mp hdown
  refine ⟨?_, logged_server h.logged htaken hsaid, h.typed, htells.cwd⟩
  refine .told hhears htells.oneLine htells.phase ?_ ?_
  · have hserver : s'.inHand = [] := by
      rw [Session.inHand_of_phase_ne (by simp [htells.phase]), hpending]
    rw [up_withServer, hserver, hup]
    rfl
  · rw [down_withServer, hhand, hsaid, hnothing]
    rfl

theorem advance?_command_nothing {s : Session (Answered γ) Pipe} (hphase : s.phase = .command)
    (hhand : s.inHand = []) : s.advance? = none := by
  rw [Session.inHand_of_phase_ne (by simp [hphase])] at hhand
  exact Session.advance?_of_nothing hphase hhand

theorem commandsTaken_of_phase_ne {s : Session (Answered γ) Pipe} (hphase : s.phase ≠ .command) :
    s.commandsTaken = [] := by
  unfold Session.commandsTaken
  split
  · contradiction
  · rfl

theorem handles_request {request : Text} (hrequest : IsRequest request) (hserver : sys.server.phase = .command)
    (hup : sys.up = lineBytes request) (hlen : (lineBytes request).length ≤ maxLineBytes)
    (hstep : sys.server.advance? = some s') :
    ({ sys.server with input := .empty }).handleLine request = s' ∧ sys.server.commandsTaken = [request] ∧
      sys.client.output.inFlight = [] := by
  rw [up, Session.inHand_of_phase_ne (by simp [hserver])] at hup
  rcases nextLine_request hrequest hlen hup with ⟨hline, hnothing⟩ | ⟨hincomplete, _⟩
  · have htaken : sys.server.commandsTaken = [request] := by
      simp only [Session.commandsTaken, hserver, hline]
    unfold Session.advance? at hstep
    split at hstep
    · cases hstep
    · rw [hline] at hstep
      exact ⟨Option.some.inj hstep, htaken, hnothing⟩
    · rename_i hp
      cases hserver.symm.trans hp
    · rename_i hp
      cases hserver.symm.trans hp
  · simp only [Session.advance?, hserver, hincomplete] at hstep
    cases hstep

section Handles

variable {s₁ : Session (Answered γ) Pipe} (hcwd : newline ∉ s₁.cwd.bytes)
  (houtput : s₁.output = sys.server.output) (hinput : s₁.input.pending = [])
  (hnothing : sys.client.output.inFlight = []) (hdown : sys.down = [])
  (htaken : sys.server.commandsTaken = waiting)

include hcwd houtput hinput hnothing hdown htaken

theorem paired_acceptDownload (h : sys.Paired waiting) {name : Text} (hclient : sys.client.phase = .downloadReply name)
    {source : Source} (hsource : ¬ HasMarker source.content) (g : Answered γ) :
    (sys.withServer (s₁.acceptDownload source g)).Paired [] := by
  have hsaid : (s₁.acceptDownload source g).output.inFlight =
      sys.server.output.inFlight ++ lineBytes transferStartLine := by
    rw [← houtput]
    exact congrArg Pipe.inFlight (Session.output_sendText _ _)
  have hcontent := cutAtMarker?_payload hsource []
  rw [List.append_nil] at hcontent
  obtain ⟨hhand, hsilent⟩ := List.append_eq_nil_iff.mp hdown
  refine ⟨?_, logged_server h.logged htaken hsaid, h.typed, hcwd⟩
  refine .downloadTaken hclient (.inr ⟨_, _, rfl⟩) ?_ ?_ hcontent
  · rw [up_withServer, hnothing, List.append_nil]
    exact hinput
  · rw [down_withServer, hhand, hsaid, hsilent]
    rfl

theorem paired_acceptUpload (h : sys.Paired waiting) {name : Text} {path : Path} {source : Source}
    (hclient : sys.client.phase = .uploadReply name path source) (p : Path)
    (handle : Gateway.Handle (Answered γ)) (g : Answered γ) :
    (sys.withServer (s₁.acceptUpload p handle g)).Paired [] := by
  have hsaid : (s₁.acceptUpload p handle g).output.inFlight =
      sys.server.output.inFlight ++ lineBytes readyLine := by
    rw [← houtput]
    exact congrArg Pipe.inFlight (Session.output_sendText _ _)
  obtain ⟨hhand, hsilent⟩ := List.append_eq_nil_iff.mp hdown
  refine ⟨?_, logged_server h.logged htaken hsaid, h.typed, hcwd⟩
  refine .uploadTaken hclient rfl failureOneLine_none ?_ ?_
  · rw [up_withServer, hnothing, List.append_nil]
    exact hinput
  · rw [down_withServer, hhand, hsaid, hsilent]
    rfl

/-- The request is answered by a line, or a transfer begins. -/
theorem inStep_handles {request : Text} (h : sys.Paired waiting)
    (hclient : Client.Awaits sys.client.phase request) (hserver : s₁.phase = .command)
    (hs' : s₁.handleLine request = s') (hanswers : ∀ a ∈ s'.gateway.answers, a.IsOneLine)
    (hdownloads : ∀ entry file, s'.phase = .sending entry file → ¬ HasMarker file.source.content) :
    (sys.withServer s').InStep := by
  have hpending : s'.input.pending = [] := by
    rw [← hs', Session.input_handleLine]
    exact hinput
  have tells : ∀ line, Client.Hears sys.client.phase line → Session.Tells s₁ s' line →
      (sys.withServer s').InStep := fun line hhears htells =>
    .inr ⟨[], paired_of_tells h htells houtput hhears hpending hnothing hdown htaken⟩
  generalize hphase : sys.client.phase = phase at hclient tells
  subst hs'
  cases hclient with
  | reply hplain =>
    obtain ⟨line, htells⟩ := Session.tells_handleLine hcwd hserver hplain hanswers
    exact tells line .reply htells
  | download hne htrim =>
    rcases Session.handleLine_downloadRequest hcwd hserver hne htrim hanswers with
      ⟨message, htells⟩ | ⟨source, g, haccepts⟩
    · exact tells _ .downloadRefused htells
    · rw [haccepts] at hdownloads ⊢
      have hsource := hdownloads _ (.ofSource source) rfl
      exact .inr ⟨[], paired_acceptDownload hcwd houtput hinput hnothing hdown htaken h hphase hsource g⟩
  | upload hne htrim =>
    rcases Session.handleLine_uploadRequest hcwd hserver hne htrim hanswers with
      ⟨message, htells⟩ | ⟨p, handle, g, haccepts⟩
    · exact tells _ .uploadRefused htells
    · rw [haccepts]
      exact .inr ⟨[], paired_acceptUpload hcwd houtput hinput hnothing hdown htaken h hphase p handle g⟩

end Handles

theorem inStep_serves (h : sys.Paired []) (hstep : sys.server.advance? = some s')
    (hserver : sys.server.phase.Sends) (hup : sys.up = [])
    (hstage : ∀ (server : Phase (Answered γ)) (down : Bytes), server.Sends →
      down ++ server.owes = sys.down ++ sys.server.phase.owes →
        Stage sys.client.phase server [] down []) : (sys.withServer s').InStep := by
  obtain ⟨hhand, hnothing⟩ := List.append_eq_nil_iff.mp hup
  rcases hserver with hcommand | ⟨entry, file, hsending⟩
  · rw [advance?_command_nothing hcommand hhand] at hstep
    cases hstep
  · obtain ⟨said, houtput, howes, hinput, hcwd, hphase⟩ := Session.advance?_sending hsending hstep
    have htaken : sys.server.commandsTaken = [] := commandsTaken_of_phase_ne (by simp [hsending])
    have hsends : s'.phase.Sends := by
      rcases hphase with hcommand | ⟨file', hsending'⟩
      · exact .inl hcommand
      · exact .inr ⟨entry, file', hsending'⟩
    have hsame : s'.inHand = sys.server.inHand := by
      rw [Session.inHand_of_phase_ne hsends.ne_receiving, hinput,
        Session.inHand_of_phase_ne (by simp [hsending])]
    refine .inr ⟨[], ?_, logged_server h.logged htaken houtput, h.typed, ?_⟩
    · have hnext := hstage s'.phase (sys.withServer s').down hsends (by
        rw [down_withServer, houtput, howes, down]
        simp only [List.append_assoc])
      rw [← hup, up, ← hsame] at hnext
      exact hnext
    · change newline ∉ s'.cwd.bytes
      rw [hcwd]
      exact h.cwd

/-- A part of a file is taken in, or all of it is and the verdict is given. -/
theorem inStep_takes (h : sys.Paired []) (hstep : sys.server.advance? = some s')
    {u : Upload (Answered γ)} {payload : Bytes} (hclient : sys.client.phase.Sends)
    (hserver : sys.server.phase = .receiving u) (hfailure : FailureOneLine u.reception.failure)
    (hcut : cutAtMarker? (sys.up ++ sys.client.phase.owes) = some (payload, [])) (hdown : sys.down = [])
    (hanswers : ∀ a ∈ s'.gateway.answers, a.IsOneLine) : (sys.withServer s').InStep := by
  have htaken : sys.server.commandsTaken = [] := commandsTaken_of_phase_ne (by simp [hserver])
  rw [up, List.append_assoc] at hcut
  rcases Session.advance?_receiving hserver hstep h.cwd hfailure hanswers hcut with
    ⟨u', left, hphase, hfailure', houtput, hcwd, hleft⟩ | ⟨line, htells, hpending, hafter⟩
  · refine .inr ⟨[], ?_, logged_server h.logged htaken (by rw [houtput, List.append_nil]), h.typed, ?_⟩
    · refine .uploading hclient hphase hfailure' (?_ : _ = some (left, [])) ?_
      · rw [up_withServer, List.append_assoc]
        exact hleft
      · rw [down_withServer, houtput]
        exact hdown
    · change newline ∉ s'.cwd.bytes
      rw [hcwd]
      exact h.cwd
  · obtain ⟨hnothing, howes⟩ := List.append_eq_nil_iff.mp hafter
    obtain ⟨path, sent, hverdict⟩ := hclient.exists_verdict howes
    have hhears : Client.Hears sys.client.phase line := by
      rw [hverdict]
      exact .verdict
    exact .inr ⟨[], paired_of_tells h htells rfl hhears hpending hnothing hdown htaken⟩

theorem inStep_server (h : sys.Paired waiting) (hstep : sys.server.advance? = some s')
    (hlines : ∀ exchange ∈ sys.sent, exchange.1.length ≤ maxLineBytes)
    (hanswers : ∀ a ∈ s'.gateway.answers, a.IsOneLine)
    (hdownloads : ∀ entry file, s'.phase = .sending entry file → ¬ HasMarker file.source.content) :
    (sys.withServer s').InStep := by
  have waits : sys.server.phase = .command → sys.up = [] → False := by
    intro hserver hup
    rw [advance?_command_nothing hserver (List.append_eq_nil_iff.mp hup).1] at hstep
    cases hstep
  cases h.stage with
  | prompt hclient hserver hup hdown => exact (waits hserver hup).elim
  | asked hclient hrequest hserver hup hdown =>
    have hlen := hlines _ (h.logged.mem_sent (List.append_eq_nil_iff.mp hdown).2)
    obtain ⟨hs', htaken, hnothing⟩ := handles_request hrequest hserver hup hlen hstep
    have hcwd : newline ∉ ({ sys.server with input := .empty } : Session (Answered γ) Pipe).cwd.bytes := h.cwd
    exact inStep_handles hcwd rfl rfl hnothing hdown htaken h hclient hserver hs' hanswers hdownloads
  | told hclient hline hserver hup hdown => exact (waits hserver hup).elim
  | downloadTaken hclient hserver hup hdown hcut =>
    apply inStep_serves h hstep hserver hup
    intro server down hsends hsame
    exact .downloadTaken hclient hsends rfl (hsame.trans hdown) hcut
  | downloading hclient hserver hup hcut =>
    apply inStep_serves h hstep hserver hup
    intro server down hsends hsame
    rw [← hsame] at hcut
    exact .downloading hclient hsends rfl hcut
  | uploadTaken hclient hserver hfailure hup hdown =>
    obtain ⟨hhand, hnothing⟩ := List.append_eq_nil_iff.mp hup
    simp only [Session.inHand, hserver] at hhand
    simp only [Session.advance?, hserver, (List.append_eq_nil_iff.mp hhand).2] at hstep
    cases hstep
  | uploading hclient hserver hfailure hcut hdown =>
    exact inStep_takes h hstep hclient hserver hfailure hcut hdown hanswers

end System

end FileFerry
