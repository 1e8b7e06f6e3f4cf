import FileFerry.Proofs.Conversation.Basic
import FileFerry.Proofs.Reception

/-!
# An upload from its first step to its last

While an upload is received nothing changes but the file, what the scanner holds and what is still to
be read (`Filling`). So an upload comes to its marker, or to the loss of its client, with the payload
before it written to the file as far as that went well, however it is delivered (`Filling.fills`).
-/

set_option autoImplicit false

namespace FileFerry

variable {γ ω : Type} [Gateway γ]

/-- The session `s` receives the upload that `start` received as `u`, and has released `b` to its file since. -/
structure Filling (start : Session γ ω) (u : Upload γ) (b : Bytes) (s : Session γ ω) (v : Upload γ) : Prop where
  session : s = { start with gateway := s.gateway, input := s.input, phase := .receiving v }
  upload : v = { u with reception := v.reception }
  pours : Pours (u.reception.failure, (⟨start.gateway, u.handle⟩ : Sink γ)) b
    (v.reception.failure, ⟨s.gateway, v.handle⟩)

theorem Upload.pours_store (u : Upload γ) (g : γ) (b : Bytes) :
    Pours (u.reception.failure, (⟨g, u.handle⟩ : Sink γ)) b
      ((u.store g b).1.reception.failure, ⟨(u.store g b).2, u.handle⟩) := by
  have h := pours_attempt u.reception.failure (⟨g, u.handle⟩ : Sink γ) b
  unfold Upload.store
  rwa [Sink.mk_attempt_writeAll]

/-- What is stored of an upload that went well so far fails as its writing does. -/
theorem Upload.failure_store {u : Upload γ} (h : u.reception.failure = none) (g : γ) (b : Bytes) :
    (u.store g b).1.reception.failure = failureOf (Writer.writeAll (⟨g, u.handle⟩ : Sink γ) b).1 := by
  simp only [store, h, attempt_none]

namespace Filling

variable {start s : Session γ ω} {u v : Upload γ} {b : Bytes}

theorem phase (h : Filling start u b s v) : s.phase = .receiving v :=
  (congrArg Session.phase h.session).trans rfl

theorem withInput (h : Filling start u b s v) (input : InputBuffer) :
    Filling start u b (s.withInput input) v := by
  refine ⟨?_, h.upload, h.pours⟩
  rw [h.session]
  rfl

theorem storePayload (h : Filling start u b s v) (more : Bytes) :
    Filling start u (b ++ more) (s.storePayload v more) (v.store s.gateway more).1 := by
  refine ⟨?_, ?_, h.pours.trans (v.pours_store s.gateway more)⟩
  · unfold Session.storePayload
    rw [h.session]
  · unfold Upload.store
    rw [h.upload]

end Filling

variable [Writer ω]

/-- With `all` before it, an upload comes to its marker, or its client is lost. -/
def Fills (start : Session γ ω) (u : Upload γ) (b all : Bytes) (c : Conversation γ ω) : Prop :=
  ∃ s w src more, Filling start u (b ++ more) s w ∧
    (cutAtMarker? all = some (more, s.input.pending ++ src.content) ∧ c.GoesTo ⟨s.endPayload w, src⟩ ∨
      cutAtMarker? all = none ∧ more <+: all ∧ c.GoesTo ⟨s.lose, src⟩)

namespace Fills

variable {start s : Session γ ω} {u v : Upload γ} {b all : Bytes} {c : Conversation γ ω} {src : Source}

theorem head (h : Fills start u b all c.go) : Fills start u b all c := by
  obtain ⟨s, w, src, more, hfilling, ⟨hcut, hgo⟩ | ⟨hcut, hmore, hgo⟩⟩ := h
  · exact ⟨s, w, src, more, hfilling, .inl ⟨hcut, hgo.head⟩⟩
  · exact ⟨s, w, src, more, hfilling, .inr ⟨hcut, hmore, hgo.head⟩⟩

/-- What was released before the marker belongs to the payload. -/
theorem released {released : Bytes} (hnone : ∀ i < released.length, ¬ endMarker <+: (released ++ all).drop i)
    (h : Fills start u (b ++ released) all c) : Fills start u b (released ++ all) c := by
  obtain ⟨s, w, src, more, hfilling, hend⟩ := h
  refine ⟨s, w, src, released ++ more, ?_, ?_⟩
  · rwa [← List.append_assoc]
  · rw [cutAtMarker?_append_of_none_begins hnone]
    rcases hend with ⟨hcut, hgo⟩ | ⟨hcut, hmore, hgo⟩
    · exact .inl ⟨by rw [hcut]; rfl, hgo⟩
    · exact .inr ⟨by rw [hcut]; rfl, (List.prefix_append_right_inj _).mpr hmore, hgo⟩

/-- The chunk at hand has the marker. -/
theorem of_complete (h : Filling start u b s v) (hne : s.input.pending ≠ []) {payload trailing : Bytes}
    (hcut : cutAtMarker? (v.reception.scanner.held ++ s.input.pending.take chunkSize) = some (payload, trailing)) :
    Fills start u b (v.reception.scanner.held ++ s.input.pending ++ src.content) ⟨s, src⟩ := by
  have hstep : s.advance? = some (s.receiveChunk v) := by
    simp [Session.advance?, h.phase, hne]
  apply head
  rw [Conversation.go_of_advance? hstep, Session.receiveChunk_of_complete (Scanner.feed_of_cut hcut)]
  refine ⟨_, _, src, payload, (h.withInput ⟨trailing ++ s.input.pending.drop chunkSize⟩).storePayload payload,
    .inl ⟨?_, .refl _⟩⟩
  have hall := cutAtMarker?_append_of_some hcut (s.input.pending.drop chunkSize ++ src.content)
  rw [← List.append_assoc, List.append_assoc _ (List.take _ _), List.take_append_drop] at hall
  rw [hall, ← List.append_assoc]
  rfl

/-- The chunk at hand has no marker yet: what cannot begin one is released. -/
theorem of_pending (h : Filling start u b s v) (hne : s.input.pending ≠ [])
    (hn : ¬ HasMarker (v.reception.scanner.held ++ s.input.pending.take chunkSize))
    (hnext : ∀ {s' : Session γ ω} {w : Upload γ} {more : Bytes},
      Filling start u (b ++ more) s' w → s'.input.pending = s.input.pending.drop chunkSize →
        Fills start u (b ++ more) (w.reception.scanner.held ++ s'.input.pending ++ src.content) ⟨s', src⟩) :
    Fills start u b (v.reception.scanner.held ++ s.input.pending ++ src.content) ⟨s, src⟩ := by
  obtain ⟨more, scanner, hfeed, hsplit, hlen⟩ := Scanner.feed_of_not_hasMarker hn
  have hstep : s.advance? = some (s.receiveChunk v) := by
    simp [Session.advance?, h.phase, hne]
  have hstored := h.storePayload more
  have hfilling : Filling start u (b ++ more) (s.receiveChunk v)
      { v with reception := { (v.store s.gateway more).1.reception with scanner } } := by
    rw [Session.receiveChunk_of_pending hfeed]
    refine ⟨?_, ?_, hstored.pours⟩
    · rw [h.session]
    · rw [h.upload]
  have hinput : (s.receiveChunk v).input.pending = s.input.pending.drop chunkSize := by
    rw [Session.receiveChunk_of_pending hfeed]
  have hrest := hnext hfilling hinput
  rw [hinput, List.append_assoc] at hrest
  rw [Session.append_of_window hsplit]
  apply head
  rw [Conversation.go_of_advance? hstep]
  apply released _ hrest
  rw [← hsplit] at hn
  exact none_begins_before_window hn (eq_nil_or_of_length_window hsplit hlen) _

theorem go_of_read (h : Filling start u b s v) (hnil : s.input.pending = []) {result : ReadResult}
    {rest : Source} (hread : src.read chunkSize = (result, rest)) :
    (⟨s, src⟩ : Conversation γ ω).go = ⟨s.hear result, rest⟩ := by
  have hwaits : s.advance? = none := by simp [Session.advance?, h.phase, hnil]
  have hopen : s.isClosed = false := by simp [Session.isClosed, h.phase]
  have hwants : s.wants = chunkSize := by simp [Session.wants, h.phase]
  exact Conversation.go_of_waits hwaits hopen (by rwa [hwants])

/-- Nothing more will come, and what is held back begins no marker. -/
theorem of_lost (h : Filling start u b s v) (hnil : s.input.pending = []) {result : ReadResult}
    {rest : Source} (hread : src.read chunkSize = (result, rest)) (hlost : s.hear result = s.lose)
    (hcontent : src.content = []) :
    Fills start u b (v.reception.scanner.held ++ s.input.pending ++ src.content) ⟨s, src⟩ := by
  apply head
  rw [go_of_read h hnil hread, hlost, hnil, hcontent, List.append_nil, List.append_nil]
  have hnone : cutAtMarker? v.reception.scanner.held = none :=
    cutAtMarker?_eq_none_iff.mpr (not_hasMarker_of_length_lt v.reception.scanner.length_held_lt)
  refine ⟨s, v, rest, [], ?_, .inr ⟨hnone, List.nil_prefix, .refl _⟩⟩
  rwa [List.append_nil]

end Fills

/-- Every upload comes to its marker, or its client is lost. -/
theorem Filling.fills {start s : Session γ ω} {u v : Upload γ} {b : Bytes} (h : Filling start u b s v)
    (src : Source) : Fills start u b (v.reception.scanner.held ++ s.input.pending ++ src.content) ⟨s, src⟩ := by
  by_cases hnil : s.input.pending = []
  · have hopen : s.isClosed = false := by simp [Session.isClosed, h.phase]
    cases hread : src.read chunkSize with
    | mk result rest =>
      cases result with
      | error e =>
        have hcontent := Source.content_of_read_error hread
        by_cases he : e.isInterrupted = true
        · have hsmaller := Source.size_lt_of_read_error hread
          have hsame : s.hear (.error e) = s := by simp [Session.hear, Session.receive, hopen, he]
          have hnext := h.fills rest
          rw [if_pos he] at hcontent
          apply Fills.head
          rwa [Fills.go_of_read h hnil hread, hsame, hcontent]
        · have hlost : s.hear (.error e) = s.lose := by simp [Session.hear, Session.receive, hopen, he]
          rw [if_neg he] at hcontent
          exact .of_lost h hnil hread hlost hcontent
      | ok chunk =>
        cases chunk with
        | nil => exact .of_lost h hnil hread (Session.receive_end s) (Source.content_of_read_end (by decide) hread)
        | cons c cs =>
          have hbound := Source.size_read_add_length_le hread
          have hpending : (s.withInput (s.input.supply (c :: cs))).input.pending = c :: cs := by
            simp [Session.withInput, InputBuffer.supply, hnil]
          have hnext := (h.withInput (s.input.supply (c :: cs))).fills rest
          apply Fills.head
          rw [Fills.go_of_read h hnil hread, Source.content_of_read_ok hread, hnil, List.append_nil]
          rw [hpending, List.append_assoc] at hnext
          exact hnext
  · cases hcut : cutAtMarker? (v.reception.scanner.held ++ s.input.pending.take chunkSize) with
    | some parts => exact .of_complete h hnil hcut
    | none =>
      apply Fills.of_pending h hnil (cutAtMarker?_eq_none_iff.mp hcut)
      intro s' w more h' hdrop
      have hpos := List.length_pos_iff.mpr hnil
      exact h'.fills src
termination_by 2 * src.size + s.input.pending.length
decreasing_by
  · rw [hnil]
    omega
  · rw [hpending, hnil]
    simp only [List.length_cons, List.length_nil] at hbound ⊢
    omega
  · rw [hdrop, List.length_drop, chunkSize]
    omega

/-- The step that accepts an upload. -/
theorem Conversation.fills_put {c : Conversation γ ω} {line argument : Text} {rest : InputBuffer}
    {h : Gateway.Handle γ} {g : γ} (hphase : c.session.phase = .command)
    (hline : c.session.input.nextLine = .line line rest)
    (hput : Command.ofLine? line = some ⟨Verb.put.name, argument⟩) (hname : argument ≠ [])
    (hcreate : Gateway.create c.session.gateway (c.session.resolve (.ofText argument)) = (.ok h, g)) :
    let path := c.session.resolve (.ofText argument)
    Fills ((c.session.withInput rest).acceptUpload path h g) ⟨path, h, c.session.registry.start.1, .fresh⟩ []
      (rest.pending ++ c.source.content) c := by
  intro path
  have hcreated : Gateway.create (c.session.withInput rest).gateway
      ((c.session.withInput rest).resolve (.ofText argument)) = (.ok h, g) := hcreate
  have hhandled : (c.session.withInput rest).handleLine line =
      (c.session.withInput rest).acceptUpload path h g := by
    simp only [Session.handleLine, hput, Verb.ofName?_name, Session.execute, Session.beginUpload, requireName,
      if_neg hname, hcreated]
    rfl
  have hstep := Session.advance?_of_line hphase hline
  have hfilling : Filling ((c.session.withInput rest).acceptUpload path h g)
      ⟨path, h, c.session.registry.start.1, .fresh⟩ [] ((c.session.withInput rest).acceptUpload path h g)
      ⟨path, h, c.session.registry.start.1, .fresh⟩ := ⟨rfl, rfl, .done _⟩
  apply Fills.head
  rw [Conversation.go_of_advance? hstep, hhandled]
  exact hfilling.fills c.source

end FileFerry
