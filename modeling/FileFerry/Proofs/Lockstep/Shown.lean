import FileFerry.Proofs.Client.Downloads
import FileFerry.Proofs.Lockstep.InStep
import Mathlib.Data.Prod.Basic

/-!
# What is shown between two prompts

On a terminal that takes everything, a command that goes to the session shows behind its prompt what came
back to that very request: a reply or a verdict as it is rendered, a download by how many bytes it had or by
what went wrong with its file.
-/

set_option autoImplicit false

namespace FileFerry

variable {φ τ δ γ : Type} [Gateway φ] [Gateway γ]

/-- A line from the session as the user sees it. -/
def rendered (line : Text) : Text := (Response.ofLine (Text.trimLineEnd line)).render

/-- What came back to a request, and what is shown for it. -/
inductive Shows : Text → Bytes → Bytes → Prop where
  | reply {request line : Text} (hplain : Session.IsPlain request) (hline : '\n' ∉ line) :
      Shows request (lineBytes line) (lineBytes (rendered line))
  | refused {request line message : Text} (hrefused : line = (Response.framed .error message).render)
      (hline : '\n' ∉ line) : Shows request (lineBytes line) (lineBytes (rendered line))
  | downloaded {name : Text} {content : Bytes} :
      Shows (downloadRequest name) (lineBytes transferStartLine ++ (content ++ endMarker))
        (lineBytes (Client.downloaded name content.length))
  /-- The local file could not be made or written. -/
  | undownloaded {name : Text} {content : Bytes} {path : Path} {e : IoError} :
      Shows (downloadRequest name) (lineBytes transferStartLine ++ (content ++ endMarker))
        (lineBytes (ClientError.localFile path e).message)
  | uploaded {name verdict : Text} (hverdict : '\n' ∉ verdict) :
      Shows (uploadRequest name) (lineBytes readyLine ++ lineBytes verdict) (lineBytes (rendered verdict))
  /-- The local file could not be read to its end. -/
  | unread {name verdict : Text} {path : Path} {e : IoError} (hverdict : '\n' ∉ verdict) :
      Shows (uploadRequest name) (lineBytes readyLine ++ lineBytes verdict)
        (lineBytes (rendered verdict) ++ lineBytes (ClientError.localFile path e).message)

/-- How far a client is with the command that it took at its prompt, from its phase, what it has received, its
terminal and the exchanges. The terminal showed `shown` behind that prompt, and `earlier` are the exchanges before. -/
inductive Course (holds : τ → Bytes → Prop) (shown : Bytes) (earlier : Exchanges Bytes) (phase : ClientPhase φ)
    (pending : Bytes) (terminal : τ) (sent : Exchanges Bytes) : Prop where
  | ended {result : Except ClientError Unit} (hphase : phase = .finished result)
  | unasked (hphase : phase = .prompt) (hsent : sent = earlier)
  | asked {request : Text} (hphase : Client.Awaits phase request)
      (hsent : sent = (lineBytes request, pending) :: earlier) (hshown : holds terminal shown)
  | downloading {d : Download φ} {released : Bytes} (hphase : phase = .payload d)
      (hreceived : d.reception.received = released.length)
      (hsent : sent = (lineBytes (downloadRequest d.name),
        lineBytes transferStartLine ++ (released ++ (d.reception.scanner.held ++ pending))) :: earlier)
      (hshown : holds terminal shown)
  | uploading {name : Text} (hphase : phase.Sends)
      (hsent : sent = (lineBytes (uploadRequest name), lineBytes readyLine ++ pending) :: earlier)
      (hshown : holds terminal shown)
  | served {request : Text} {reply more : Bytes} (hphase : phase = .prompt)
      (hsent : sent = (lineBytes request, reply) :: earlier) (hshows : Shows request reply more)
      (hshown : holds terminal (shown ++ more))

/-- How far a client is, with the exchanges up to now. -/
def Client.OnCourse (c : Client φ τ Pipe δ) (holds : τ → Bytes → Prop) (shown : Bytes)
    (earlier sent : Exchanges Bytes) : Prop :=
  Course holds shown earlier c.phase c.pending c.terminal sent

section Steps

variable [Writer τ] {holds : τ → Bytes → Prop} {shown : Bytes} {earlier : Exchanges Bytes}

namespace Client

variable {c : Client φ τ Pipe δ}

theorem takeLine_of_awaits {request line : Text} (h : Hears c.phase line) (hawaits : Awaits c.phase request) :
    c.takeLine (Text.trimLineEnd line) = c.tell (rendered line) := by
  generalize hp : c.phase = phase at h hawaits
  cases h with
  | greeting | verdict => cases hawaits
  | reply => simp only [takeLine, hp, rendered]
  | downloadRefused | uploadRefused =>
    simp only [takeLine, hp, accepts_error]
    rfl

omit [Writer τ] in
theorem shows_of_hears {request line : Text} (h : Hears c.phase line) (hawaits : Awaits c.phase request)
    (hline : '\n' ∉ line) : Shows request (lineBytes line) (lineBytes (rendered line)) := by
  generalize c.phase = phase at h hawaits
  cases h with
  | greeting | verdict => cases hawaits
  | reply =>
    cases hawaits with
    | reply hplain => exact .reply hplain hline
  | downloadRefused | uploadRefused => exact .refused rfl hline

omit [Writer τ] in
theorem exists_finished (h : c.isFinished = true) : ∃ result, c.phase = .finished result := by
  unfold isFinished at h
  split at h
  · exact ⟨_, ‹_›⟩
  · cases h

theorem completeDownload_eq (c : Client φ τ Pipe δ) (d : Download φ) (r : Reception) :
    ∃ files said, c.completeDownload d r = ({ c with files } : Client φ τ Pipe δ).tell said ∧
      (said = downloaded d.name r.received ∨ ∃ e, said = (ClientError.localFile d.path e).message) := by
  unfold completeDownload
  dsimp only
  split
  · exact ⟨_, _, rfl, .inl rfl⟩
  · rename_i e _
    rw [report_of_not_fatal rfl]
    exact ⟨_, _, rfl, .inr ⟨e, rfl⟩⟩

/-! ## One step of the client -/

variable (hterminal : Writer.Accepts holds)
include hterminal

theorem onCourse_of_told {request line : Text} (hhears : Hears c.phase line) (hline : '\n' ∉ line)
    (hawaits : Awaits c.phase request) (hshown : holds c.terminal shown) :
    (c.takeLine (Text.trimLineEnd line)).OnCourse holds shown earlier
      ((lineBytes request, lineBytes line) :: earlier) := by
  rw [takeLine_of_awaits hhears hawaits]
  obtain ⟨terminal, htell, hheld⟩ := tell_of_accepts hterminal hshown (rendered line)
  rw [htell]
  exact .served rfl rfl (shows_of_hears hhears hawaits hline) hheld

/-- The chunk with the marker is the last that comes, and with it the count is that of the whole content. -/
theorem onCourse_takePayload {d : Download φ} {released inFlight payload : Bytes}
    (hreceived : d.reception.received = released.length)
    (hcut : cutAtMarker? (d.reception.scanner.held ++ c.pending ++ inFlight) = some (payload, []))
    (hshown : holds c.terminal shown) :
    (c.takePayload d).OnCourse holds shown earlier ((lineBytes (downloadRequest d.name),
      lineBytes transferStartLine ++ (released ++ (d.reception.scanner.held ++ c.pending))) :: earlier) := by
  cases hwindow : cutAtMarker? (d.reception.scanner.held ++ c.pending) with
  | none =>
    obtain ⟨more, reception, sink, htake, hsplit, -, hmore, -⟩ :=
      Reception.take_of_not_hasMarker (cutAtMarker?_eq_none_iff.mp hwindow) (⟨c.files, d.handle⟩ : LocalSink φ)
    have hlen : reception.received = (released ++ more).length := by
      rw [hmore, hreceived, List.length_append]
    simp only [takePayload, htake]
    refine .downloading rfl hlen ?_ hshown
    rw [← hsplit, List.append_nil, List.append_assoc]
  | some parts =>
    obtain ⟨last, trailing⟩ := parts
    obtain ⟨rfl, -⟩ : trailing = [] ∧ inFlight = [] := by
      rw [cutAtMarker?_append_of_some hwindow] at hcut
      exact List.append_eq_nil_iff.mp (Prod.mk.inj (Option.some.inj hcut)).2
    obtain ⟨x, -, htake⟩ := Reception.take_of_cut hwindow (⟨c.files, d.handle⟩ : LocalSink φ)
    simp only [takePayload, htake]
    obtain ⟨files, said, hcomplete, hsaid⟩ := completeDownload_eq
      { c with files := (Reception.flushed x).2.files, pending := [] } d
      ⟨.empty, d.reception.received + last.length, (Reception.flushed x).1⟩
    obtain ⟨terminal, htell, hheld⟩ :=
      tell_of_accepts (c := { c with files, pending := [] }) hterminal hshown said
    rw [hcomplete, htell, (cutAtMarker?_eq_some_iff.mp hwindow).2, List.append_nil, ← List.append_assoc released]
    rw [hreceived, ← List.length_append] at hsaid
    rcases hsaid with rfl | ⟨e, rfl⟩
    · exact .served rfl rfl .downloaded hheld
    · exact .served rfl rfl .undownloaded hheld

theorem onCourse_completeUpload {name verdict : Text} {path : Path} {sent : Transmission}
    (hverdict : '\n' ∉ verdict) (hshown : holds c.terminal shown) :
    (c.completeUpload path sent (Response.ofLine (Text.trimLineEnd verdict))).OnCourse holds shown earlier
      ((lineBytes (uploadRequest name), lineBytes readyLine ++ lineBytes verdict) :: earlier) := by
  obtain ⟨terminal, hprint, hheld⟩ := print_of_accepts hterminal hshown (rendered verdict)
  rw [rendered] at hprint
  rw [completeUpload, hprint]
  cases sent with
  | sent n => exact .served rfl rfl (.uploaded hverdict) hheld
  | sourceFailed e =>
    dsimp only
    rw [report_of_not_fatal rfl]
    obtain ⟨after, htell, hheld⟩ :=
      tell_of_accepts (c := { c with terminal }) hterminal hheld (ClientError.localFile path e).message
    rw [htell]
    rw [List.append_assoc] at hheld
    exact .served rfl rfl (.unread hverdict) hheld
  | outputFailed e => exact .ended rfl

end Client

namespace System

variable [Canceller δ] {sys sys' : System φ τ δ γ} {waiting : List Text} {c : Client φ τ Pipe δ}

section Terminal

variable (hterminal : Writer.Accepts holds)
include hterminal

theorem onCourse_asked {request : Text} (h : sys.Paired waiting) (hawaits : Client.Awaits sys.client.phase request)
    (hshown : holds sys.client.terminal shown) (hstep : sys.client.advance? = some c) :
    c.OnCourse holds shown earlier ((lineBytes request, sys.client.pending) :: earlier) := by
  have hstage := h.stage
  rw [down, Client.inHand_of_awaitsLine hawaits.awaitsLine] at hstage
  cases hstage with
  | prompt hclient =>
    rw [hclient] at hawaits
    cases hawaits
  | asked hclient hrequest hserver hup hdown =>
    have hhand := (List.append_eq_nil_iff.mp hdown).1
    rw [advance?_of_awaitsLine_nothing hawaits.awaitsLine (by rwa [Client.inHand_of_awaitsLine hawaits.awaitsLine])]
      at hstep
    cases hstep
  | told hhears hline hserver hup hdown =>
    obtain ⟨-, hpending, rfl⟩ := Client.takeLine_of_hears hhears hline hdown hstep
    rw [hpending]
    exact Client.onCourse_of_told (c := { sys.client with pending := [] }) hterminal hhears hline hawaits hshown
  | @downloadTaken name payload rest hclient hserver hup hdown hcut =>
    rw [List.append_assoc] at hdown
    obtain ⟨after, hpending, -, rfl⟩ := Client.takeLine_of_advance? hawaits.awaitsLine (by decide) hdown hstep
    rw [Client.takeLine_transferStart (c := { sys.client with pending := after }) hclient]
    obtain ⟨files, d, rfl, hempty, hreceived, haccept⟩ :=
      Client.acceptDownload_eq { sys.client with pending := after } name
    rw [haccept, hpending]
    rw [hclient] at hawaits
    cases hawaits
    refine .downloading rfl (hreceived.trans List.length_nil.symm) ?_ hshown
    rw [hempty]
    rfl
  | downloading hclient =>
    rw [hclient] at hawaits
    cases hawaits
  | uploadTaken hclient hserver hfailure hup hdown =>
    rw [← List.append_nil (lineBytes _)] at hdown
    obtain ⟨after, hpending, -, rfl⟩ := Client.takeLine_of_advance? hawaits.awaitsLine (by decide) hdown hstep
    rw [Client.takeLine_ready (c := { sys.client with pending := after }) hclient, hpending]
    rw [hclient] at hawaits
    cases hawaits
    exact .uploading ⟨_, .inr ⟨_, rfl⟩⟩ rfl hshown
  | uploading hclient =>
    obtain ⟨path, ⟨sent, hverdict⟩ | ⟨file, hsending⟩⟩ := hclient
    · rw [hverdict] at hawaits
      cases hawaits
    · rw [hsending] at hawaits
      cases hawaits

theorem onCourse_verdict {name : Text} {path : Path} {sent : Transmission} (h : sys.Paired waiting)
    (hclient : sys.client.phase = .verdict path sent) (hshown : holds sys.client.terminal shown)
    (hstep : sys.client.advance? = some c) :
    c.OnCourse holds shown earlier
      ((lineBytes (uploadRequest name), lineBytes readyLine ++ sys.client.pending) :: earlier) := by
  have hawaits : Client.AwaitsLine sys.client.phase := by
    rw [hclient]
    exact .verdict
  have hstage := h.stage
  rw [down, Client.inHand_of_awaitsLine hawaits] at hstage
  cases hstage with
  | prompt hprompt => cases hclient.symm.trans hprompt
  | asked hasked =>
    rw [hclient] at hasked
    cases hasked
  | told hhears hline hserver hup hdown =>
    obtain ⟨-, hpending, rfl⟩ := Client.takeLine_of_hears hhears hline hdown hstep
    rw [hpending]
    simp only [Client.takeLine, hclient]
    exact Client.onCourse_completeUpload (c := { sys.client with pending := [], phase := .verdict path sent })
      hterminal hline hshown
  | downloadTaken htaken => cases hclient.symm.trans htaken
  | downloading htaken => cases hclient.symm.trans htaken
  | uploadTaken htaken => cases hclient.symm.trans htaken
  | uploading hsends hserver hfailure hcut hdown =>
    have hhand := (List.append_eq_nil_iff.mp hdown).1
    rw [advance?_of_awaitsLine_nothing hawaits (by rwa [Client.inHand_of_awaitsLine hawaits])] at hstep
    cases hstep

theorem onCourse_client (h : sys.Paired waiting) (hcourse : sys.client.OnCourse holds shown earlier sys.sent)
    (hphase : sys.client.phase ≠ .prompt) (hstep : sys.client.advance? = some c) :
    c.OnCourse holds shown earlier (sys.withClient c).sent := by
  rw [withClient, Client.requestsSent_eq_nil fun hp => absurd hp hphase]
  change c.OnCourse holds shown earlier sys.sent
  cases hcourse with
  | ended hfinished =>
    simp only [Client.advance?, hfinished] at hstep
    cases hstep
  | unasked hprompt | served hprompt => exact absurd hprompt hphase
  | asked hawaits hsent hshown =>
    rw [hsent]
    exact onCourse_asked hterminal h hawaits hshown hstep
  | downloading hclient hreceived hsent hshown =>
    obtain ⟨payload, hcut⟩ := h.cut_of_downloading hclient
    simp only [Client.advance?, hclient] at hstep
    split at hstep
    · cases hstep
    · cases hstep
      rw [hsent]
      exact Client.onCourse_takePayload hterminal hreceived hcut hshown
  | uploading hclient hsent hshown =>
    rw [hsent]
    obtain ⟨path, ⟨sent, hverdict⟩ | ⟨file, hsending⟩⟩ := hclient
    · exact onCourse_verdict hterminal h hverdict hshown hstep
    · obtain ⟨-, -, -, hinputs, hsends⟩ := Client.advance?_sending hsending hstep
      have hpending : c.pending = sys.client.pending := congrArg Prod.snd hinputs
      have hsame : c.terminal = sys.client.terminal := by
        simp only [Client.advance?, hsending] at hstep
        cases hstep
        unfold Client.sendChunk
        split <;> rfl
      rw [← hpending]
      exact .uploading ⟨path, hsends⟩ rfl (hsame ▸ hshown)

/-! ## Any step -/

theorem onCourse_step (h : sys.InStep) (hcourse : sys.client.OnCourse holds shown earlier sys.sent)
    (hphase : sys.client.phase ≠ .prompt) (hstep : Step sys sys') :
    sys'.client.OnCourse holds shown earlier sys'.sent := by
  cases hstep with
  | client hclient =>
    rcases h with hfinished | ⟨waiting, hpaired⟩
    · rw [Client.advance?_of_isFinished hfinished] at hclient
      cases hclient
    · exact onCourse_client hterminal hpaired hcourse hphase hclient
  | clientReads hnone hopen hbytes hne hlen =>
    cases hcourse with
    | ended hfinished => exact .ended hfinished
    | unasked hprompt | served hprompt => exact absurd hprompt hphase
    | asked hawaits hsent hshown =>
      rw [hsent]
      exact .asked hawaits rfl hshown
    | downloading hclient hreceived hsent hshown =>
      refine .downloading hclient hreceived ?_ hshown
      rw [hsent, Exchanges.add]
      simp only [List.append_assoc]
    | uploading hclient hsent hshown =>
      rw [hsent, Exchanges.add, List.append_assoc]
      exact .uploading hclient rfl hshown
  | clientEnds hnone hclosed hempty =>
    rcases h with hfinished | ⟨waiting, hpaired⟩
    · rw [Client.receive, if_pos hfinished]
      exact hcourse
    · exact absurd hclosed hpaired.server_ne_closed
  | server | serverReads | serverEnds | around => exact hcourse

theorem onCourse_takeCommand (h : sys.Paired waiting) (hprompt : sys.client.phase = .prompt)
    (hshown : holds sys.client.terminal shown) (hstep : sys.client.advance? = some c) :
    c.OnCourse holds (shown ++ Utf8.encode prompt) sys.sent (sys.withClient c).sent := by
  have hc : sys.client.takeCommand = c := by
    simp only [Client.advance?, hprompt] at hstep
    exact Option.some.inj hstep
  subst hc
  obtain ⟨-, -, hdown, -⟩ := h.idle hprompt
  obtain ⟨hhand, -⟩ := List.append_eq_nil_iff.mp hdown
  rw [Client.inHand_of_phase_ne (by simp [hprompt])] at hhand
  rcases sys.client.takeCommand_outcome h.typed with hreturned | ⟨request, hasked, hsend⟩
  · rcases hreturned with hfinished | ⟨hphase, -, houtput, -⟩
    · obtain ⟨result, hphase⟩ := Client.exists_finished hfinished
      exact .ended hphase
    · rw [withClient, Client.requestsSent_eq_nil fun _ => houtput]
      exact .unasked hphase rfl
  · have hheld := hterminal.holds_send hshown (Utf8.encode prompt)
    rw [hsend] at hheld
    rw [withClient, Client.requestsSent_of_output hprompt (lineBytes_ne_nil request) hasked.output]
    refine .asked hasked.awaits ?_ hheld
    rw [hasked.pending, hhand]
    rfl

end Terminal

/-! ## From prompt to prompt -/

/-- The states after the client took a command at its prompt, up to its next prompt. -/
inductive AfterPrompt (first : System φ τ δ γ) : System φ τ δ γ → Prop where
  | takes {c : Client φ τ Pipe δ} (h : first.client.advance? = some c) (hprovided : (first.withClient c).Provided) :
      AfterPrompt first (first.withClient c)
  | step {sys sys' : System φ τ δ γ} (h : AfterPrompt first sys) (hphase : sys.client.phase ≠ .prompt)
      (hstep : Step sys sys') (hprovided : sys'.Provided) : AfterPrompt first sys'

variable {origin first : System φ τ δ γ}

theorem AfterPrompt.reachable (hfirst : Reachable origin first) (h : AfterPrompt first sys) :
    Reachable origin sys := by
  induction h with
  | takes h hprovided => exact hfirst.step (.client h) hprovided
  | step h hphase hstep hprovided ih => exact ih.step hstep hprovided

theorem onCourse_afterPrompt (hterminal : Writer.Accepts holds) (horigin : origin.InStep)
    (hfirst : Reachable origin first) (hprompt : first.client.phase = .prompt)
    (hshown : holds first.client.terminal shown) (h : AfterPrompt first sys) :
    sys.client.OnCourse holds (shown ++ Utf8.encode prompt) first.sent sys.sent := by
  induction h with
  | takes hstep hprovided =>
    obtain ⟨waiting, hpaired⟩ := (hfirst.inStep horigin).paired_of_prompt hprompt
    exact onCourse_takeCommand hterminal hpaired hprompt hshown hstep
  | step h hphase hstep hprovided ih =>
    exact onCourse_step hterminal ((h.reachable hfirst).inStep horigin) ih hphase hstep

theorem sent_injective : Function.Injective (List.map (Prod.map lineBytes (id : Bytes → Bytes))) :=
  List.map_injective_iff.mpr (Function.Injective.prodMap (fun _ _ => lineBytes_inj.mp) Function.injective_id)

/-- Between two prompts a command that goes to the session is the one request that is sent and the one line
that the session takes. What is shown behind its prompt is what the session said to it. -/
theorem shows_reply_between_prompts (settings : ClientSettings) (files : φ) {keyboard : List (Except IoError Bytes)}
    (terminal : τ) (canceller : δ) {served : γ} (registry : Registry)
    (htyped : ∀ line, .ok line ∈ keyboard → newline ∉ line.dropLast) (hhome : newline ∉ (Gateway.home served).bytes)
    (hterminal : Writer.Accepts holds)
    (hfirst : Reachable (start settings files keyboard terminal canceller served registry) first)
    (hprompt : first.client.phase = .prompt) (hshown : holds first.client.terminal shown)
    (h : AfterPrompt first sys) (hnext : sys.client.phase = .prompt) :
    sys.handled = first.handled ∨ ∃ request reply more,
      sys.handled = (request, reply) :: first.handled ∧ Shows request reply more ∧
        holds sys.client.terminal (shown ++ Utf8.encode prompt ++ more) := by
  have horigin := inStep_start settings files terminal canceller registry htyped hhome
  obtain ⟨_, hbefore⟩ := (hfirst.inStep horigin).paired_of_prompt hprompt
  obtain ⟨_, hafter⟩ := ((h.reachable hfirst).inStep horigin).paired_of_prompt hnext
  have hsettled := hafter.settled hnext
  rw [Settled] at hsettled
  cases onCourse_afterPrompt hterminal horigin hfirst hprompt hshown h with
  | unasked _ hsent =>
    rw [hsettled, hbefore.settled hprompt] at hsent
    exact .inl (sent_injective hsent)
  | @served request reply more _ hsent hshows hheld =>
    refine .inr ⟨request, reply, more, sent_injective ?_, hshows, hheld⟩
    rw [← hsettled, hsent, hbefore.settled hprompt]
    rfl
  | ended hphase => cases hnext.symm.trans hphase
  | asked hawaits =>
    rw [hnext] at hawaits
    cases hawaits
  | downloading hphase => cases hnext.symm.trans hphase
  | uploading hphase =>
    obtain ⟨path, ⟨sent, hverdict⟩ | ⟨file, hsending⟩⟩ := hphase
    · cases hnext.symm.trans hverdict
    · cases hnext.symm.trans hsending

end System

end Steps

end FileFerry
