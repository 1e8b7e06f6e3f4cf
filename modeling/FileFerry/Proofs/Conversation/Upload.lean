import FileFerry.Gateway.Scripted
import FileFerry.Proofs.Conversation.Reception
import FileFerry.Proofs.Gateway.Journal

/-!
# An upload from its first step to its last

While an upload is received nothing changes but the file, what the scanner holds and what is still to
be read (`Receiving`). So an upload comes to its marker, or to the loss of its client, with the
payload before it released to the file and nothing behind it touched, however it is delivered and
whatever the file does (`upload_drains_and_cleans_up`).
-/

set_option autoImplicit false

namespace FileFerry

variable {γ ω : Type} [Gateway γ]

/-- The session `s` receives the upload that `start` received as `u`, and has released `b` since. -/
structure Receiving (start : Session (Journaled γ) ω) (u : Upload (Journaled γ)) (before : List (Note γ))
    (b : Bytes) (s : Session (Journaled γ) ω) (v : Upload (Journaled γ)) : Prop where
  session : s = { start with gateway := s.gateway, input := s.input, phase := .receiving v }
  upload : v = { u with reception := v.reception }
  wrote : v.Wrote s.gateway before b

namespace Receiving

variable {start s : Session (Journaled γ) ω} {u v : Upload (Journaled γ)} {before : List (Note γ)} {b : Bytes}

theorem phase (h : Receiving start u before b s v) : s.phase = .receiving v :=
  (congrArg Session.phase h.session).trans rfl

theorem of_filling (h : Filling start u b s v) (hu : u.reception.failure = none) :
    Receiving start u start.gateway.notes b s v := by
  refine ⟨h.session, h.upload, Upload.wrote_of_pours ?_⟩
  have hpours := h.pours
  have hhandle : v.handle = u.handle := by rw [h.upload]
  rwa [hu, ← hhandle] at hpours

end Receiving

variable [Writer ω]

/-- With `all` before it, an upload comes to its marker, or its client is lost. -/
def Finishes (start : Session (Journaled γ) ω) (u : Upload (Journaled γ)) (before : List (Note γ)) (b all : Bytes)
    (c : Conversation (Journaled γ) ω) : Prop :=
  ∃ s w src more, Receiving start u before (b ++ more) s w ∧
    (cutAtMarker? all = some (more, s.input.pending ++ src.content) ∧ c.GoesTo ⟨s.endPayload w, src⟩ ∨
      cutAtMarker? all = none ∧ more <+: all ∧ c.GoesTo ⟨s.lose, src⟩)

namespace Conversation

/-- The step that accepts an upload. -/
theorem finishes_put {c : Conversation (Journaled γ) ω} {line argument : Text} {rest : InputBuffer}
    {h : Gateway.Handle γ} {inner : γ} (hphase : c.session.phase = .command)
    (hline : c.session.input.nextLine = .line line rest)
    (hput : Command.ofLine? line = some ⟨Verb.put.name, argument⟩) (hname : argument ≠ [])
    (hcreate : Gateway.create c.session.gateway.inner (c.session.resolve (.ofText argument)) = (.ok h, inner)) :
    let path := c.session.resolve (.ofText argument)
    let before := c.session.gateway.notes ++ [.call (.create path)]
    let start := (c.session.withInput rest).acceptUpload path h ⟨inner, before⟩
    Finishes start ⟨path, h, c.session.registry.start.1, .fresh⟩ before [] (rest.pending ++ c.source.content) c := by
  intro path before start
  have hcreated : Gateway.create c.session.gateway path = (.ok h, (⟨inner, before⟩ : Journaled γ)) := by
    change Journaled.note _ _ (Gateway.create c.session.gateway.inner path) = _
    rw [hcreate]
    rfl
  obtain ⟨s, w, src, more, hfilling, hend⟩ := fills_put hphase hline hput hname hcreated
  exact ⟨s, w, src, more, .of_filling hfilling rfl, hend⟩

section

variable {c : Conversation (Journaled γ) ω} {line argument : Text} {rest : InputBuffer} {h : Gateway.Handle γ}
  {inner : γ}

/-- The marker comes. -/
theorem exists_ends_of_put (hphase : c.session.phase = .command) (hline : c.session.input.nextLine = .line line rest)
    (hput : Command.ofLine? line = some ⟨Verb.put.name, argument⟩) (hname : argument ≠ [])
    (hcreate : Gateway.create c.session.gateway.inner (c.session.resolve (.ofText argument)) = (.ok h, inner))
    {payload following : Bytes} (hall : rest.pending ++ c.source.content = payload ++ endMarker ++ following)
    (hpayload : ¬ HasMarker payload) : ∃ t notes response, c.GoesTo t ∧ t.session.phase = .command ∧
      t.session.input.pending ++ t.source.content = following ∧
      Upload.Ends (c.session.resolve (.ofText argument)) h payload notes response ∧
      t.session.gateway.notes =
        c.session.gateway.notes ++ [.call (.create (c.session.resolve (.ofText argument)))] ++ notes ∧
      t.session.output =
        ((c.session.sendResponse (.framed .success readyToReceive)).sendResponse response).output := by
  obtain ⟨s, w, src, b, hreceiving, hend⟩ := finishes_put hphase hline hput hname hcreate
  have hwrote := hreceiving.wrote
  rw [List.nil_append] at hwrote
  have hcut := cutAtMarker?_payload hpayload following
  rw [← hall] at hcut
  rcases hend with ⟨hcut', hgo⟩ | ⟨hcut', -, -⟩
  · rw [hcut] at hcut'
    obtain ⟨rfl, rfl⟩ := Prod.mk.inj (Option.some.inj hcut')
    obtain ⟨notes, response, hends, hnotes, hsaid⟩ := hwrote.ends
    rw [hreceiving.upload] at hends
    refine ⟨_, notes, response, hgo, Session.phase_endPayload s w, ?_, hends, hnotes, ?_⟩
    · rw [Session.input_endPayload]
    · rw [hsaid, hreceiving.session]
      rfl
  · rw [hcut] at hcut'
    cases hcut'

/-- The client is lost before the marker. -/
theorem exists_lost_of_put (hphase : c.session.phase = .command) (hline : c.session.input.nextLine = .line line rest)
    (hput : Command.ofLine? line = some ⟨Verb.put.name, argument⟩) (hname : argument ≠ [])
    (hcreate : Gateway.create c.session.gateway.inner (c.session.resolve (.ofText argument)) = (.ok h, inner))
    (hnone : ¬ HasMarker (rest.pending ++ c.source.content)) : ∃ t writes failure b, c.GoesTo t ∧
      t.session.phase = .closed ∧ b <+: rest.pending ++ c.source.content ∧ Writes h b writes failure ∧
      t.session.gateway.notes =
        c.session.gateway.notes ++ [.call (.create (c.session.resolve (.ofText argument)))] ++ writes ++
          [.close h, .call (.remove (c.session.resolve (.ofText argument)))] ∧
      t.session.output = (c.session.sendResponse (.framed .success readyToReceive)).output := by
  obtain ⟨s, w, src, b, hreceiving, hend⟩ := finishes_put hphase hline hput hname hcreate
  have hwrote := hreceiving.wrote
  rw [List.nil_append] at hwrote
  rcases hend with ⟨hcut, -⟩ | ⟨-, hb, hgo⟩
  · rw [cutAtMarker?_eq_none_iff.mpr hnone] at hcut
    cases hcut
  · obtain ⟨writes, hnotes, hwrites⟩ := hwrote
    rw [hreceiving.upload] at hwrites
    refine ⟨_, writes, w.reception.failure, b, hgo, Session.phase_lose s, hb, hwrites, ?_, ?_⟩
    · simp only [Session.lose, hreceiving.phase]
      change s.gateway.notes ++ [.close w.handle] ++ [.call (.remove w.path)] = _
      rw [hnotes, hreceiving.upload, List.append_assoc _ [_] [_]]
      rfl
    · simp only [Session.lose, hreceiving.phase]
      change s.output = _
      rw [hreceiving.session]
      rfl

/-- A client that takes all that it is sent gets the line that takes up its upload and the line that answers it, and
nothing else. If it is lost on the way it gets the first alone. -/
theorem holds_output_of_put (hphase : c.session.phase = .command) (hline : c.session.input.nextLine = .line line rest)
    (hput : Command.ofLine? line = some ⟨Verb.put.name, argument⟩) (hname : argument ≠ [])
    (hcreate : Gateway.create c.session.gateway.inner (c.session.resolve (.ofText argument)) = (.ok h, inner))
    {holds : ω → Bytes → Prop} (hwriter : Writer.Accepts holds) {said : Bytes} (hsaid : holds c.session.output said) :
    (∀ payload following, rest.pending ++ c.source.content = payload ++ endMarker ++ following →
      ¬ HasMarker payload → ∃ t notes response, c.GoesTo t ∧ t.session.phase = .command ∧
        t.session.input.pending ++ t.source.content = following ∧
        Upload.Ends (c.session.resolve (.ofText argument)) h payload notes response ∧
        holds t.session.output (said ++ lineBytes readyLine ++ Utf8.encode response.toLine)) ∧
      (¬ HasMarker (rest.pending ++ c.source.content) → ∃ t, c.GoesTo t ∧ t.session.phase = .closed ∧
        holds t.session.output (said ++ lineBytes readyLine)) := by
  have hready := hwriter.holds_send hsaid (lineBytes readyLine)
  constructor
  · intro payload following hall hpayload
    obtain ⟨t, notes, response, hgo, hended, hleft, hends, -, houtput⟩ :=
      exists_ends_of_put hphase hline hput hname hcreate hall hpayload
    refine ⟨t, notes, response, hgo, hended, hleft, hends, ?_⟩
    rw [houtput]
    exact hwriter.holds_send hready (Utf8.encode response.toLine)
  · intro hnone
    obtain ⟨t, -, -, -, hgo, hended, -, -, -, houtput⟩ := exists_lost_of_put hphase hline hput hname hcreate hnone
    refine ⟨t, hgo, hended, ?_⟩
    rw [houtput]
    exact hready

end

/-! ## A full disk -/

/-- The disk is full after two bytes, and the file cannot be removed either; the next command is there. -/
def fullDisk : Conversation (Journaled ScriptedFiles) ScriptedWriter :=
  ⟨⟨⟨⟨⟨[Path.slash]⟩, [], [], [.error (.plain .permissionDenied)], [], [], [],
        [.ok ⟨#[], [], [], none, some ⟨2, some (.plain .storageFull), false⟩⟩], []⟩, []⟩,
      .empty, .accepting, ⟨[Path.slash]⟩, ⟨lineBytes (text "put f") ++ Utf8.encode (text "ab")⟩, .command⟩,
    [.bytes (Utf8.encode (text "cdFILE_TRANS")), .failure (.plain .interrupted),
      .bytes (Utf8.encode (text "FER_END\npwd\n"))]⟩

/-- Its upload, while nothing of it was released. -/
def heldUpload (scanner : Scanner) : Upload (Journaled ScriptedFiles) :=
  ⟨⟨[Path.slash, 102]⟩, (0 : Nat), Registry.empty.start.1, ⟨scanner, 0, none⟩⟩

def receivingFull (scanner : Scanner) (pending : Bytes) : Session (Journaled ScriptedFiles) ScriptedWriter :=
  { fullDisk.session.acceptUpload ⟨[Path.slash, 102]⟩ (0 : Nat)
      (Gateway.create fullDisk.session.gateway ⟨[Path.slash, 102]⟩).2 with
    input := ⟨pending⟩
    phase := .receiving (heldUpload scanner) }

section

variable {scanner held : Scanner} {b : Bytes} {src : Source}

theorem nextLine_fullDisk : fullDisk.session.input.nextLine = .line (text "put f") ⟨Utf8.encode (text "ab")⟩ :=
  IsRequest.nextLine ⟨by decide, by decide⟩ _

theorem go_fullDisk : fullDisk.go = ⟨receivingFull .empty (Utf8.encode (text "ab")), fullDisk.source⟩ :=
  go_of_advance? (Session.advance?_of_line rfl nextLine_fullDisk)

theorem go_held (hb : b ≠ []) (hlen : b.length ≤ chunkSize) (hfeed : scanner.feed b = (.pending [], held)) :
    (⟨receivingFull scanner b, src⟩ : Conversation _ _).go = ⟨receivingFull held [], src⟩ := by
  have htake : b.take chunkSize = b := List.take_of_length_le hlen
  have hdrop : b.drop chunkSize = [] := List.drop_of_length_le hlen
  have hstep : (receivingFull scanner b).advance? =
      some ((receivingFull scanner b).receiveChunk (heldUpload scanner)) := if_neg hb
  rw [← htake] at hfeed
  apply go_of_advance?
  rw [hstep, Session.receiveChunk_of_held hfeed]
  simp only [receivingFull, heldUpload, hdrop]

theorem go_delivered (hb : b ≠ []) (hlen : b.length ≤ chunkSize) :
    (⟨receivingFull scanner [], .bytes b :: src⟩ : Conversation _ _).go = ⟨receivingFull scanner b, src⟩ := by
  obtain ⟨x, xs, rfl⟩ := List.exists_cons_of_ne_nil hb
  have hread : Source.read chunkSize (.bytes (x :: xs) :: src) = (.ok (x :: xs), src) := by
    rw [Source.read, List.take_of_length_le hlen, List.drop_of_length_le hlen, if_pos rfl]
  exact go_of_waits (c := ⟨receivingFull scanner [], _⟩) rfl rfl hread

theorem go_interrupted :
    (⟨receivingFull scanner [], .failure (.plain .interrupted) :: src⟩ : Conversation _ _).go =
      ⟨receivingFull scanner [], src⟩ :=
  go_of_waits (c := ⟨receivingFull scanner [], _⟩) rfl rfl rfl

end

/-- The payload is behind the beginning of its marker. -/
def heldBack : Scanner := ⟨Utf8.encode (text "abcdFILE_TRANS"), by decide⟩

theorem after_fullDisk :
    fullDisk.after (List.replicate 6 .go) = ⟨receivingFull heldBack (Utf8.encode (text "FER_END\npwd\n")), []⟩ := by
  have hheld : Scanner.empty.feed (Utf8.encode (text "ab")) =
      (.pending [], ⟨Utf8.encode (text "ab"), by decide⟩) := rfl
  have hheldBack : Scanner.feed ⟨Utf8.encode (text "ab"), by decide⟩ (Utf8.encode (text "cdFILE_TRANS")) =
      (.pending [], heldBack) := rfl
  simp only [List.replicate, after_cons, move, after_nil]
  rw [go_fullDisk, go_held (by decide) (by decide) hheld, fullDisk, go_delivered (by decide) (by decide),
    go_held (by decide) (by decide) hheldBack, go_interrupted, go_delivered (by decide) (by decide)]

/-- Of the payload two bytes are taken, and no more. -/
theorem failure_store_full (pending : Bytes) :
    ((heldUpload heldBack).store (receivingFull heldBack pending).gateway
      (Utf8.encode (text "abcd"))).1.reception.failure = some (.plain .storageFull) := by
  rw [Upload.failure_store rfl, Writer.writeAll_of_ok (n := 1) (by decide) rfl,
    Writer.writeAll_of_error (e := .plain .storageFull) (by decide) rfl rfl]
  rfl

theorem go_marked : ∃ s, (⟨receivingFull heldBack (Utf8.encode (text "FER_END\npwd\n")), []⟩ : Conversation _ _).go =
    ⟨s, []⟩ ∧ s.phase = .command ∧ s.input = ⟨lineBytes (text "pwd")⟩ ∧
      s.output = (Writer.send (receivingFull heldBack []).output
        (lineBytes (text "ERROR: Failed to write file: no storage space."))).2 := by
  have hfeed : (heldUpload heldBack).reception.scanner.feed
      ((receivingFull heldBack (Utf8.encode (text "FER_END\npwd\n"))).input.pending.take chunkSize) =
        (.complete (Utf8.encode (text "abcd")) (lineBytes (text "pwd")), .empty) := by
    rw [List.take_of_length_le (by decide)]
    rfl
  have hstep := Session.receiveChunk_of_complete hfeed
  rw [List.drop_of_length_le (by decide), List.append_nil] at hstep
  refine ⟨_, go_of_advance? (congrArg some hstep), Session.phase_endPayload _ _, Session.input_endPayload _ _, ?_⟩
  rw [Session.endPayload_of_failed (Upload.flush_of_failed (failure_store_full _) _)]
  rfl

/-- When the command behind it is next, the client has been told of the failure. -/
theorem contents_of_goesTo_fullDisk {t : Conversation (Journaled ScriptedFiles) ScriptedWriter}
    (h : fullDisk.GoesTo t) (hleft : t.session.input.pending ++ t.source.content = Utf8.encode (text "pwd\n")) :
    t.session.output.contents =
      Utf8.encode (text "SUCCESS: READY_TO_RECEIVE\nERROR: Failed to write file: no storage space.\n") := by
  have hbefore : ∀ n ≤ 6, (fullDisk.after (List.replicate n .go)).session.input.pending ++
      (fullDisk.after (List.replicate n .go)).source.content ≠ Utf8.encode (text "pwd\n") := by decide +kernel
  obtain ⟨n, rfl⟩ := h
  by_cases hn : n ≤ 6
  · exact absurd hleft (hbefore n hn)
  · obtain ⟨k, rfl⟩ := Nat.exists_eq_add_of_lt (Nat.lt_of_not_le hn)
    obtain ⟨s, hgo, hphase, hinput, houtput⟩ := go_marked
    have hrest : fullDisk.after (List.replicate (6 + k + 1) .go) =
        (⟨s, []⟩ : Conversation _ _).after (List.replicate k .go) := by
      rw [Nat.add_assoc, List.replicate_add, after_append, after_fullDisk, List.replicate_succ, after_cons, move, hgo]
    rw [hrest] at hleft ⊢
    cases k with
    | zero =>
      have hnothing : ScriptedWriter.Holds .accepting [] := ⟨rfl, rfl, rfl, rfl, rfl⟩
      have hready := ScriptedWriter.accepts_holds.holds_send hnothing (lineBytes readyLine)
      have hsaid := ScriptedWriter.accepts_holds.holds_send hready
        (lineBytes (text "ERROR: Failed to write file: no storage space."))
      change s.output.contents = _
      rw [houtput]
      exact hsaid.contents
    | succ k =>
      -- the next command is taken at once
      have hline : s.input.nextLine = .line (text "pwd") .empty := by
        rw [hinput, ← List.append_nil (lineBytes _)]
        exact IsRequest.nextLine ⟨by decide, by decide⟩ []
      have hstep := Session.advance?_of_line hphase hline
      have hpwd : (s.withInput .empty).handleLine (text "pwd") =
          (s.withInput .empty).sendResponse (.bare s.cwd.display) := rfl
      rw [hpwd] at hstep
      rw [List.replicate_succ, after_cons, move, go_of_advance? hstep] at hleft
      have hlater := eq_or_eq_close_of_goesTo (s := (s.withInput .empty).sendResponse (.bare s.cwd.display))
        hphase (Session.advance?_of_nothing hphase rfl) ⟨k, rfl⟩
      rcases hlater with heq | heq
      all_goals
        rw [heq] at hleft
        cases hleft

/-! ## Any upload -/

/-- Whatever becomes of the file, an upload uses its payload and its marker, and what follows is left for
the next command. The file takes a part from the beginning; it is not touched after a failure but to
be closed and removed, and the client learns of the first failure. A client that is lost on the way is told
nothing, and the file is removed. -/
theorem upload_drains_and_cleans_up {c : Conversation (Journaled γ) ω} {line argument : Text}
    {rest : InputBuffer} {h : Gateway.Handle γ} {inner : γ} (hphase : c.session.phase = .command)
    (hline : c.session.input.nextLine = .line line rest)
    (hput : Command.ofLine? line = some ⟨Verb.put.name, argument⟩) (hname : argument ≠ [])
    (hcreate : Gateway.create c.session.gateway.inner (c.session.resolve (.ofText argument)) = (.ok h, inner)) :
    let path := c.session.resolve (.ofText argument)
    let before := c.session.gateway.notes ++ [.call (.create path)]
    let accepted := c.session.sendResponse (.framed .success readyToReceive)
    (∀ payload following, rest.pending ++ c.source.content = payload ++ endMarker ++ following →
      ¬ HasMarker payload → ∃ t notes response, c.GoesTo t ∧ t.session.phase = .command ∧
        t.session.input.pending ++ t.source.content = following ∧
        Upload.Ends path h payload notes response ∧ t.session.gateway.notes = before ++ notes ∧
        t.session.output = (accepted.sendResponse response).output) ∧
      (¬ HasMarker (rest.pending ++ c.source.content) → ∃ t writes failure b, c.GoesTo t ∧
        t.session.phase = .closed ∧ b <+: rest.pending ++ c.source.content ∧ Writes h b writes failure ∧
        t.session.gateway.notes = before ++ writes ++ [.close h, .call (.remove path)] ∧
        t.session.output = accepted.output) := by
  intro path before accepted
  constructor
  · intro payload following hall hpayload
    exact exists_ends_of_put hphase hline hput hname hcreate hall hpayload
  · intro hnone
    exact exists_lost_of_put hphase hline hput hname hcreate hnone

theorem upload_drains_and_cleans_up_full_disk :
    let payload := Utf8.encode (text "abcd")
    ¬ HasMarker payload ∧ ∃ t notes response, fullDisk.GoesTo t ∧ t.session.phase = .command ∧
      t.session.input.pending ++ t.source.content = Utf8.encode (text "pwd\n") ∧
      Upload.Ends (γ := ScriptedFiles) ⟨[Path.slash, 102]⟩ (0 : Nat) payload notes response ∧
      t.session.gateway.notes = .call (.create ⟨[Path.slash, 102]⟩) :: notes ∧
      t.session.output.contents =
        Utf8.encode (text "SUCCESS: READY_TO_RECEIVE\nERROR: Failed to write file: no storage space.\n") := by
  intro payload
  have hpayload : ¬ HasMarker payload := by decide
  have hput : Command.ofLine? (text "put f") = some ⟨Verb.put.name, text "f"⟩ := by decide +kernel
  have hall : Utf8.encode (text "ab") ++ fullDisk.source.content =
      payload ++ endMarker ++ Utf8.encode (text "pwd\n") := by decide +kernel
  obtain ⟨hends, -⟩ := upload_drains_and_cleans_up (c := fullDisk) rfl nextLine_fullDisk hput (by decide) rfl
  obtain ⟨t, notes, response, hgo, hphase, hleft, hended, hnotes, -⟩ := hends payload _ hall hpayload
  exact ⟨hpayload, t, notes, response, hgo, hphase, hleft, hended, hnotes, contents_of_goesTo_fullDisk hgo hleft⟩

end Conversation

end FileFerry
