import FileFerry.Proofs.Lockstep.Requests

/-!
# Either side in a transfer

While a file is sent, what is on its way and what is still to come make up the content and its
marker. While one is received, the marker is looked for in what the receiver has in hand and all
that is still to come; when it is found, nothing is left behind it.
-/

set_option autoImplicit false

namespace FileFerry

variable {γ : Type} [Gateway γ]

/-- What is still to come of a file that the session is sending. -/
def Phase.owes : Phase γ → Bytes
  | .sending _ file => file.source.content ++ endMarker
  | _ => []

@[simp] theorem Phase.owes_command : (command : Phase γ).owes = [] := rfl

/-- What is still to come of a file that the client is sending. -/
def ClientPhase.owes : ClientPhase γ → Bytes
  | .sending _ file => file.source.content ++ endMarker
  | _ => []

@[simp] theorem ClientPhase.owes_verdict (path : Path) (sent : Transmission) :
    (verdict path sent : ClientPhase γ).owes = [] := rfl

/-- A failure, if there is one, that is told on one line. -/
def FailureOneLine (failure : Option IoError) : Prop := ∀ e, failure = some e → '\n' ∉ e.message

theorem failureOneLine_none : FailureOneLine none := by
  intro e he
  cases he

namespace Answered

theorem error_of_writeAll {sink sink' : Sink (Answered γ)} {b : Bytes} {e : IoError}
    (h : Writer.writeAll sink b = (.error e, sink')) :
    e = .nothingWritten ∨ .error e ∈ sink'.gateway.answers := by
  fun_induction Writer.writeAll sink b with
  | case1 => cases h
  | case2 s c cs s' hw =>
    cases h
    exact .inl rfl
  | case3 s c cs n s' hw ih => exact ih h
  | case4 s c cs e' s' hw he ih => exact ih h
  | case5 s c cs e' s' hw he =>
    cases h
    obtain ⟨hwrite, _⟩ := Sink.gateway_write hw
    exact .inr (mem_of_note_error hwrite)

end Answered

namespace Upload

variable {u : Upload (Answered γ)} {g : Answered γ}

theorem store_oneLine (hu : FailureOneLine u.reception.failure) (b : Bytes)
    (hanswers : ∀ a ∈ (u.store g b).2.answers, a.IsOneLine) :
    FailureOneLine (u.store g b).1.reception.failure := by
  intro e he
  unfold store Reception.attempt at he hanswers
  cases hfailure : u.reception.failure with
  | some e' =>
    simp only [hfailure] at he
    exact hu e (hfailure.trans he)
  | none =>
    simp only [hfailure] at he hanswers
    split at he
    · cases he
    · rename_i e' sink hw
      cases he
      simp only [hw] at hanswers
      rcases Answered.error_of_writeAll hw with rfl | hmem
      · decide
      · exact hanswers _ hmem

theorem flush_oneLine (hu : FailureOneLine u.reception.failure)
    (hanswers : ∀ a ∈ (u.flush g).2.answers, a.IsOneLine) : FailureOneLine (u.flush g).1 := by
  intro e he
  unfold flush Reception.attempt at he hanswers
  cases hfailure : u.reception.failure with
  | some e' =>
    simp only [hfailure] at he
    exact hu e (hfailure.trans he)
  | none =>
    simp only [hfailure] at he hanswers
    split at he
    · cases he
    · rename_i e' sink hw
      cases he
      simp only [hw] at hanswers
      have hflush : Gateway.flush g u.handle = (.error e, sink.gateway) := by
        obtain ⟨hresult, rfl⟩ := Prod.mk.inj hw
        exact Prod.ext hresult rfl
      exact hanswers _ (Answered.mem_of_note_error hflush)

theorem mem_answers_flush {a : Answer} (ha : a ∈ g.answers) : a ∈ (u.flush g).2.answers := by
  unfold flush Reception.attempt
  cases u.reception.failure with
  | some e => exact ha
  | none =>
    have hmem : a ∈ (Writer.flush (⟨g, u.handle⟩ : Sink (Answered γ))).2.gateway.answers :=
      Answered.mem_note ha
    dsimp only
    split
    all_goals
      rename_i hw
      rwa [hw] at hmem

end Upload

namespace Session

variable {s s' : Session (Answered γ) Pipe}

theorem mem_answers_endPayload {u : Upload (Answered γ)} {a : Answer}
    (ha : a ∈ (u.flush s.gateway).2.answers) : a ∈ (s.endPayload u).gateway.answers := by
  unfold endPayload
  rw [gateway_answer]
  unfold completeUpload
  split
  · exact ha
  · exact Answered.mem_note ha

theorem inHand_supply {γ ω : Type} [Gateway γ] (s : Session γ ω) (chunk : Bytes) :
    inHand { s with input := s.input.supply chunk } = s.inHand ++ chunk := by
  cases hp : s.phase <;> simp [inHand, hp, InputBuffer.supply]

theorem tells_endPayload {u : Upload (Answered γ)} (hcwd : newline ∉ s.cwd.bytes)
    (hu : FailureOneLine u.reception.failure)
    (hanswers : ∀ a ∈ (s.endPayload u).gateway.answers, a.IsOneLine) :
    ∃ line, Tells s (s.endPayload u) line := by
  have hflush := Upload.flush_oneLine hu fun a ha => hanswers a (mem_answers_endPayload ha)
  have hphase := phase_endPayload s u
  unfold endPayload completeUpload at hphase ⊢
  cases hfailure : (u.flush s.gateway).1 with
  | none =>
    refine ⟨(Response.framed .success (text "File transfer completed.")).render, ?_, ?_, by decide, hcwd⟩
    · simpa only [hfailure] using hphase
    · exact congrArg Pipe.inFlight (output_sendText _ _)
  | some e =>
    have he := hflush e hfailure
    have hcontext : '\n' ∉ text "Failed to write file" := by decide
    have hmessage := CommandError.message_io_oneLine he hcontext
    refine ⟨_, ?_, congrArg Pipe.inFlight (output_sendText _ _),
      Response.render_framed_oneLine hmessage, hcwd⟩
    simpa only [hfailure] using hphase

/-- One step with a payload: the marker is still to be found behind what was used, or nothing is left
and the session has answered. -/
theorem advance?_receiving {u : Upload (Answered γ)} (hp : s.phase = .receiving u)
    (h : s.advance? = some s') (hcwd : newline ∉ s.cwd.bytes) (hu : FailureOneLine u.reception.failure)
    (hanswers : ∀ a ∈ s'.gateway.answers, a.IsOneLine) {after payload : Bytes}
    (hcut : cutAtMarker? (s.inHand ++ after) = some (payload, [])) :
    (∃ u' left, s'.phase = .receiving u' ∧ FailureOneLine u'.reception.failure ∧
        s'.output = s.output ∧ s'.cwd = s.cwd ∧ cutAtMarker? (s'.inHand ++ after) = some (left, [])) ∨
      ∃ line, Tells s s' line ∧ s'.input.pending = [] ∧ after = [] := by
  have hs' : s.receiveChunk u = s' := by
    simp only [advance?, hp] at h
    split at h
    · cases h
    · exact Option.some.inj h
  have hhand : s.inHand ++ after = u.reception.scanner.held ++ s.input.pending.take chunkSize ++
      (s.input.pending.drop chunkSize ++ after) := by
    rw [inHand, hp, List.append_assoc, List.append_assoc, ← List.append_assoc (s.input.pending.take _),
      List.take_append_drop]
  rw [hhand] at hcut
  rcases hfeed : u.reception.scanner.feed (s.input.pending.take chunkSize) with ⟨scan, scanner⟩
  cases scan with
  | pending released =>
    rw [receiveChunk_of_pending hfeed] at hs'
    subst hs'
    obtain ⟨left, hleft⟩ := Scanner.cut_of_feed_pending hfeed hcut
    refine .inl ⟨_, left, rfl, Upload.store_oneLine hu released hanswers, rfl, rfl, ?_⟩
    rw [← List.append_assoc] at hleft
    exact hleft
  | complete last trailing =>
    have hnothing := Scanner.trailing_of_feed_complete hfeed hcut
    rw [receiveChunk_of_complete hfeed] at hs'
    subst hs'
    have hstored : FailureOneLine (u.store s.gateway last).1.reception.failure :=
      Upload.store_oneLine hu last fun a ha =>
        hanswers a (mem_answers_endPayload (Upload.mem_answers_flush ha))
    obtain ⟨line, hline⟩ := tells_endPayload
      (s := (s.withInput ⟨trailing ++ s.input.pending.drop chunkSize⟩).storePayload u last)
      hcwd hstored hanswers
    rw [← List.append_assoc, List.append_eq_nil_iff] at hnothing
    refine .inr ⟨line, ⟨hline.phase, hline.output, hline.oneLine, hline.cwd⟩, ?_, hnothing.2⟩
    rw [input_endPayload]
    exact hnothing.1

/-- One step with a file that is being sent: what it sends was to come. -/
theorem advance?_sending {entry : Guard} {file : Sending} (hp : s.phase = .sending entry file)
    (h : s.advance? = some s') :
    ∃ said, s'.output.inFlight = s.output.inFlight ++ said ∧ s.phase.owes = said ++ s'.phase.owes ∧
      s'.input = s.input ∧ s'.cwd = s.cwd ∧
        (s'.phase = .command ∨ ∃ file', s'.phase = .sending entry file') := by
  have hs' : s.sendChunk entry file = s' := by
    simp only [advance?, hp] at h
    exact Option.some.inj h
  have howes : s.phase.owes = file.source.content ++ endMarker := by rw [hp, Phase.owes]
  subst hs'
  rw [howes]
  rcases file.step_accepts Pipe.accepts_holds (rfl : Pipe.Holds s.output s.output.inFlight) with
    ⟨outcome, w, hstep, hcontent, hheld, -⟩ | ⟨chunk, rest, w, hstep, hcontent, hheld⟩
  · have hend : s.sendChunk entry file = { s with output := w, phase := .command }.unregister entry := by
      simp only [sendChunk, hstep]
    rw [hend, hcontent]
    exact ⟨endMarker, hheld, (List.append_nil endMarker).symm, rfl, rfl, .inl rfl⟩
  · have hmore : s.sendChunk entry file = { s with output := w, phase := .sending entry rest } := by
      simp only [sendChunk, hstep]
    rw [hmore, hcontent, List.append_assoc]
    exact ⟨chunk, hheld, rfl, rfl, rfl, .inr ⟨rest, rfl⟩⟩

end Session

namespace Client

variable {φ τ δ : Type} [Gateway φ]

/-- The bytes received whose use is still open. -/
def inHand (c : Client φ τ Pipe δ) : Bytes :=
  match c.phase with
  | .payload d => d.reception.scanner.held ++ c.pending
  | _ => c.pending

theorem inHand_of_phase_ne {c : Client φ τ Pipe δ} (h : ∀ d, c.phase ≠ .payload d) : c.inHand = c.pending := by
  unfold inHand
  split
  · rename_i d hp
    exact absurd hp (h d)
  · rfl

theorem inHand_supply (c : Client φ τ Pipe δ) (chunk : Bytes) :
    inHand { c with pending := c.pending ++ chunk } = c.inHand ++ chunk := by
  cases hp : c.phase <;> simp [inHand, hp]

theorem inHand_of_awaitsLine {c : Client φ τ Pipe δ} (h : AwaitsLine c.phase) : c.inHand = c.pending := by
  apply inHand_of_phase_ne
  intro d hp
  rw [hp] at h
  cases h

variable [Writer τ] [Canceller δ] {c c' : Client φ τ Pipe δ}

/-- One step with a payload: the marker is still to be found behind what was used, or nothing is left
and the client is done with the download. -/
theorem advance?_payload {d : Download φ} (hp : c.phase = .payload d) (h : c.advance? = some c')
    {after payload : Bytes} (hcut : cutAtMarker? (c.inHand ++ after) = some (payload, [])) :
    (∃ d' left, c'.phase = .payload d' ∧ c'.output = c.output ∧ c'.keyboard = c.keyboard ∧
        cutAtMarker? (c'.inHand ++ after) = some (left, [])) ∨
      after = [] ∧ Returned { c with pending := [] } c' := by
  have hc' : c.takePayload d = c' := by
    simp only [advance?, hp] at h
    split at h
    · cases h
    · exact Option.some.inj h
  simp only [inHand, hp] at hcut
  rcases hfeed : d.reception.scanner.feed c.pending with ⟨scan, scanner⟩
  cases scan with
  | pending released =>
    simp only [takePayload, Reception.take, hfeed] at hc'
    subst hc'
    obtain ⟨left, hleft⟩ := Scanner.cut_of_feed_pending hfeed hcut
    refine .inl ⟨_, left, rfl, rfl, rfl, ?_⟩
    simp only [inHand, List.append_nil]
    exact hleft
  | complete last trailing =>
    have hnothing := Scanner.trailing_of_feed_complete hfeed hcut
    obtain ⟨rfl, hafter⟩ := List.append_eq_nil_iff.mp hnothing
    simp only [takePayload, Reception.take, hfeed] at hc'
    subst hc'
    refine .inr ⟨hafter, ?_⟩
    exact returned_completeDownload { c with pending := [], files := _ } d _

/-- One step with a file that is being sent: what it sends was to come. -/
theorem advance?_sending {path : Path} {file : Sending} (hp : c.phase = .sending path file)
    (h : c.advance? = some c') :
    ∃ said, c'.output.inFlight = c.output.inFlight ++ said ∧ c.phase.owes = said ++ c'.phase.owes ∧
      c'.inputs = c.inputs ∧
        ((∃ sent, c'.phase = .verdict path sent) ∨ ∃ file', c'.phase = .sending path file') := by
  have hc' : c.sendChunk path file = c' := by
    simp only [advance?, hp] at h
    exact Option.some.inj h
  have howes : c.phase.owes = file.source.content ++ endMarker := by rw [hp, ClientPhase.owes]
  subst hc'
  rw [howes]
  rcases file.step_accepts Pipe.accepts_holds (rfl : Pipe.Holds c.output c.output.inFlight) with
    ⟨outcome, w, hstep, hcontent, hheld, -⟩ | ⟨chunk, rest, w, hstep, hcontent, hheld⟩
  · have hend : c.sendChunk path file = { c with output := w, phase := .verdict path outcome } := by
      simp only [sendChunk, hstep]
    rw [hend, hcontent]
    exact ⟨endMarker, hheld, (List.append_nil endMarker).symm, rfl, .inl ⟨outcome, rfl⟩⟩
  · have hmore : c.sendChunk path file = { c with output := w, phase := .sending path rest } := by
      simp only [sendChunk, hstep]
    rw [hmore, hcontent, List.append_assoc]
    exact ⟨chunk, hheld, rfl, rfl, .inr ⟨rest, rfl⟩⟩

end Client

end FileFerry
