import FileFerry.Proofs.Commands
import FileFerry.Proofs.Lines
import FileFerry.Proofs.MarkerSearch
import FileFerry.Proofs.Streams
import FileFerry.Session.Run

/-!
# What a session makes of its input, however that is delivered

`Session.Reads s input t` describes a session by its whole input, without reads, buffers or a
scanner. The only freedom it leaves is how the payload of an upload is cut into writes. Every
way of delivering an input is an instance of it (`reads_foldl_take`), so what is proved of the
relation holds under any delivery. Nothing is assumed of the gateway or of the output.
-/

set_option autoImplicit false

namespace FileFerry

/-! ## Lines -/

/-- The lines that take up a transfer. -/
def transferStartLine : Text := (Response.framed .success transferStart).render

def readyLine : Text := (Response.framed .success readyToReceive).render

/-- A request is found again, whatever comes behind it. -/
theorem IsRequest.nextLine {request : Text} (h : IsRequest request) (behind : Bytes) :
    (⟨lineBytes request ++ behind⟩ : InputBuffer).nextLine = .line request ⟨behind⟩ := by
  have hcut := cutAtNewline?_line h.newline_not_mem behind
  rw [InputBuffer.nextLine, lineBytes_eq, List.append_assoc, List.singleton_append, hcut]
  dsimp only
  rw [h.decodeLossy]

variable {γ ω : Type} [Gateway γ]

/-! ## A session apart from its input -/

namespace Upload

/-- Payload bytes are written to the file, unless it failed before. -/
def store (u : Upload γ) (g : γ) (b : Bytes) : Upload γ × γ :=
  let (failure, sink) := Reception.attempt u.reception.failure (⟨g, u.handle⟩ : Sink γ)
    fun sink => Writer.writeAll sink b
  ({ u with reception := ⟨.empty, u.reception.received + b.length, failure⟩ }, sink.gateway)

/-- The payload is whole: the file is flushed, unless it failed before. -/
def flush (u : Upload γ) (g : γ) : Option IoError × γ :=
  let (failure, sink) := Reception.attempt u.reception.failure (⟨g, u.handle⟩ : Sink γ) Writer.flush
  (failure, sink.gateway)

/-- An upload whose scanner holds nothing. -/
def bare (u : Upload γ) : Upload γ := { u with reception := { u.reception with scanner := .empty } }

theorem store_nil (u : Upload γ) (g : γ) : u.store g [] = (u.bare, g) := by
  simp only [store, Reception.attempt, Writer.writeAll_nil, bare]
  cases u.reception.failure <;> simp

theorem bare_of_fresh {u : Upload γ} (h : u.reception = .fresh) : u.bare = u := by
  obtain ⟨path, handle, entry, reception⟩ := u
  obtain rfl : reception = .fresh := h
  rfl

end Upload

namespace Session

def withInput (s : Session γ ω) (input : InputBuffer) : Session γ ω := { s with input }

/-- The bytes received whose use is still open. -/
def inHand (s : Session γ ω) : Bytes :=
  match s.phase with
  | .receiving u => u.reception.scanner.held ++ s.input.pending
  | _ => s.input.pending

/-- A session apart from the bytes it has in hand. -/
def bare (s : Session γ ω) : Session γ ω :=
  match s.phase with
  | .receiving u => { s with input := .empty, phase := .receiving u.bare }
  | _ => s.withInput .empty

def storePayload (s : Session γ ω) (u : Upload γ) (b : Bytes) : Session γ ω :=
  { s with gateway := (u.store s.gateway b).2, phase := .receiving (u.store s.gateway b).1 }

variable [Writer ω]

def endPayload (s : Session γ ω) (u : Upload γ) : Session γ ω :=
  let handled := { s with gateway := (u.flush s.gateway).2 }.completeUpload u (u.flush s.gateway).1
  handled.2.answer handled.1

def sendAll (s : Session γ ω) (entry : Guard) (file : Sending) : Session γ ω :=
  { s with output := (file.run s.output).2, phase := .command }.unregister entry

def acceptUpload (s : Session γ ω) (p : Path) (handle : Gateway.Handle γ) (g : γ) : Session γ ω :=
  sendResponse { s with
    gateway := g, registry := s.registry.start.2,
    phase := .receiving ⟨p, handle, s.registry.start.1, .fresh⟩ } (.framed .success readyToReceive)

def acceptDownload (s : Session γ ω) (src : Source) (g : γ) : Session γ ω :=
  sendResponse { s with
    gateway := g, registry := s.registry.start.2,
    phase := .sending s.registry.start.1 (.ofSource src) } (.framed .success transferStart)

/-- With `input` before it and nothing in hand, `s` comes to `t`. A line longer than the limit may
end the session. Payload bytes are released once no marker can begin in them. -/
inductive Reads : Session γ ω → Bytes → Session γ ω → Prop where
  | waits (s : Session γ ω) (h : s.advance? = none) : Reads s.bare s.inHand s
  | closed (s : Session γ ω) (h : s.phase = .closed) (input : Bytes) : Reads s.bare input s
  | line {s t : Session γ ω} {line rest : Bytes} (h : s.phase = .command) (hline : newline ∉ line)
      (next : Reads (s.handleLine (Utf8.decodeLossy (dropCarriageReturn line))) rest t) :
      Reads s (line ++ newline :: rest) t
  | overlong {s t : Session γ ω} {start rest : Bytes} (h : s.phase = .command)
      (hstart : newline ∉ start) (hlen : maxLineBytes ≤ start.length)
      (next : Reads s.close (start ++ rest) t) : Reads s (start ++ rest) t
  | chunk {s t : Session γ ω} {entry : Guard} {file : Sending} {input : Bytes}
      (h : s.phase = .sending entry file) (next : Reads (s.sendChunk entry file) input t) :
      Reads s input t
  | payload {s t : Session γ ω} {u : Upload γ} {b rest : Bytes} (h : s.phase = .receiving u)
      (hnone : ∀ i < b.length, ¬ endMarker <+: (b ++ rest).drop i)
      (hwindow : b = [] ∨ holdBack ≤ rest.length)
      (next : Reads (s.storePayload u b) rest t) : Reads s (b ++ rest) t
  | marker {s t : Session γ ω} {u : Upload γ} {rest : Bytes} (h : s.phase = .receiving u)
      (next : Reads (s.endPayload u) rest t) : Reads s (endMarker ++ rest) t

/-! ## Commands do not look at the input -/

omit [Writer ω] in
theorem bare_of_phase_ne {s : Session γ ω} (h : ∀ u, s.phase ≠ .receiving u) :
    s.bare = s.withInput .empty := by
  unfold bare
  split
  · rename_i u hp
    exact absurd hp (h u)
  · rfl

omit [Writer ω] in
theorem phase_of_phase_bare {s : Session γ ω} {p : Phase γ} (h : s.bare.phase = p)
    (hp : ∀ u, p ≠ .receiving u) : s.phase = p := by
  unfold bare at h
  split at h
  · exact absurd h.symm (hp _)
  · exact h

omit [Writer ω] in
theorem inHand_of_phase_ne {s : Session γ ω} (h : ∀ u, s.phase ≠ .receiving u) :
    s.inHand = s.input.pending := by
  unfold inHand
  split
  · rename_i u hp
    exact absurd hp (h u)
  · rfl

theorem answer_withInput (s : Session γ ω) (input : InputBuffer)
    (outcome : Except CommandError Reply) :
    (s.withInput input).answer outcome = (s.answer outcome).withInput input := by
  unfold answer
  split <;> rfl

theorem execute_withInput (s : Session γ ω) (input : InputBuffer) (verb : Verb) (argument : Text) :
    (s.withInput input).execute verb argument =
      ((s.execute verb argument).1, (s.execute verb argument).2.withInput input) := by
  cases verb <;> simp only [execute]
  case ls =>
    simp only [listDirectory, withInput]
    split <;> rfl
  case cd =>
    simp only [changeDirectory, withInput, resolve]
    repeat' split
    all_goals rfl
  case mkdir =>
    simp only [makeDirectory, withInput, resolve]
    repeat' split
    all_goals rfl
  case delete =>
    simp only [deleteFile, withInput, resolve]
    repeat' split
    all_goals rfl
  case get =>
    simp only [beginDownload, withInput, resolve]
    repeat' split
    all_goals rfl
  case put =>
    simp only [beginUpload, withInput, resolve]
    repeat' split
    all_goals rfl
  all_goals rfl

theorem handleLine_withInput (s : Session γ ω) (input : InputBuffer) (line : Text) :
    (s.withInput input).handleLine line = (s.handleLine line).withInput input := by
  unfold handleLine
  split
  · rfl
  · split
    · exact answer_withInput ..
    · simp only [execute_withInput, answer_withInput]

/-- A request with a verb and a name comes to the command of that verb. -/
theorem handleLine_request (s : Session γ ω) (verb : Verb) {name : Text} (hne : name ≠ [])
    (htrim : Text.trim name = name) :
    s.handleLine (verb.name ++ ' ' :: name) = (s.execute verb name).2.answer (s.execute verb name).1 := by
  have hverb : verb.name ≠ [] := by cases verb <;> decide
  have hcommand := Command.ofLine?_request verb.name_not_blank hverb hne htrim
  simp only [handleLine, hcommand, Verb.ofName?_name]

theorem handleLine_put {name : Text} (hne : name ≠ []) (htrim : Text.trim name = name) {s : Session γ ω}
    {handle : Gateway.Handle γ} {g : γ}
    (hcreate : Gateway.create s.gateway (s.resolve (.ofText name)) = (.ok handle, g)) :
    s.handleLine (text "put " ++ name) = s.acceptUpload (s.resolve (.ofText name)) handle g := by
  have hline := handleLine_request s .put hne htrim
  change s.handleLine (text "put " ++ name) = _ at hline
  rw [hline]
  simp only [execute, beginUpload, requireName, if_neg hne, hcreate]
  rfl

theorem handleLine_get {name : Text} (hne : name ≠ []) (htrim : Text.trim name = name) {s : Session γ ω}
    {src : Source} {g g' : γ}
    (hfound : Gateway.exists s.gateway (s.resolve (.ofText name)) = (true, g))
    (hopen : Gateway.openFile g (s.resolve (.ofText name)) = (.ok src, g')) :
    s.handleLine (text "get " ++ name) = s.acceptDownload src g' := by
  have hline := handleLine_request s .get hne htrim
  change s.handleLine (text "get " ++ name) = _ at hline
  rw [hline]
  simp only [execute, beginDownload, requireName, if_neg hne, hfound, hopen]
  rfl

theorem phase_answer (s : Session γ ω) (outcome : Except CommandError Reply) :
    (s.answer outcome).phase = s.phase ∨ (s.answer outcome).phase = .closed := by
  unfold answer
  split
  · exact .inl rfl
  · exact .inl rfl
  · exact .inr rfl
  · exact .inr rfl
  · exact .inl rfl

theorem reception_execute {s : Session γ ω} {verb : Verb} {argument : Text} {u : Upload γ}
    (hs : s.phase = .command) (h : (s.execute verb argument).2.phase = .receiving u) :
    u.reception = .fresh := by
  cases verb <;> simp only [execute] at h
  case put =>
    unfold beginUpload at h
    repeat' split at h
    · simp [fail, hs] at h
    · simp [refuse, fail, hs] at h
    · simp only [sendResponse, sendText, Phase.receiving.injEq] at h
      rw [← h]
  case pwd => simp [printDirectory, hs] at h
  case quit => simp [hs] at h
  all_goals
    simp only [listDirectory, changeDirectory, makeDirectory, deleteFile, beginDownload] at h
    repeat' split at h
    all_goals simp [fail, refuse, succeed, sendResponse, sendText, hs] at h

theorem reception_handleLine {s : Session γ ω} {line : Text} {u : Upload γ}
    (hs : s.phase = .command) (h : (s.handleLine line).phase = .receiving u) :
    u.reception = .fresh := by
  unfold handleLine at h
  split at h
  · simp [sendText, hs] at h
  · split at h
    · simp [answer, sendResponse, sendText, hs] at h
    · rename_i verb _
      dsimp only at h
      rcases phase_answer (s.execute verb _).2 (s.execute verb _).1 with hp | hp
      · rw [hp] at h
        exact reception_execute hs h
      · rw [hp] at h
        cases h

theorem bare_handleLine {s : Session γ ω} (hs : s.phase = .command) (line : Text) :
    (s.handleLine line).bare = (s.handleLine line).withInput .empty := by
  unfold bare
  split
  · rename_i u hp
    simp only [Upload.bare_of_fresh (reception_handleLine hs hp), withInput]
    rw [← hp]
  · rfl

theorem inHand_handleLine {s : Session γ ω} (hs : s.phase = .command) (line : Text) :
    (s.handleLine line).inHand = s.input.pending := by
  unfold inHand
  split
  · rename_i u hp
    rw [reception_handleLine hs hp, input_handleLine]
    rfl
  · rw [input_handleLine]

/-! ## One step -/

omit [Writer ω] [Gateway γ] in
theorem nextLine_eq_line {b rest : InputBuffer} {content : Text} (h : b.nextLine = .line content rest) :
    ∃ line, newline ∉ line ∧ b.pending = line ++ newline :: rest.pending ∧
      content = Utf8.decodeLossy (dropCarriageReturn line) := by
  unfold InputBuffer.nextLine at h
  split at h
  · rename_i line after hcut
    obtain ⟨hline, hpending⟩ := cutAtNewline?_eq_some_iff.mp hcut
    obtain ⟨rfl, rfl⟩ := InputBuffer.LineSearch.line.inj h
    exact ⟨line, hline, hpending, rfl⟩
  · split at h <;> cases h

omit [Writer ω] [Gateway γ] in
theorem nextLine_eq_tooLong {b : InputBuffer} (h : b.nextLine = .tooLong) :
    newline ∉ b.pending ∧ maxLineBytes ≤ b.pending.length := by
  unfold InputBuffer.nextLine at h
  split at h
  · cases h
  · rename_i hcut
    split at h
    · exact ⟨cutAtNewline?_eq_none_iff.mp hcut, by assumption⟩
    · cases h

omit [Writer ω] [Gateway γ] in
theorem nextLine_eq_incomplete {b : InputBuffer} (h : b.nextLine = .incomplete) :
    newline ∉ b.pending ∧ b.pending.length < maxLineBytes := by
  unfold InputBuffer.nextLine at h
  split at h
  · cases h
  · rename_i hcut
    split at h
    · cases h
    · rename_i hlen
      exact ⟨cutAtNewline?_eq_none_iff.mp hcut, Nat.lt_of_not_le hlen⟩

omit [Writer ω] [Gateway γ] in
/-- What was held and the rest of the input, once a chunk went through the scanner. -/
theorem append_of_window {held pending released window : Bytes} {n : Nat}
    (h : released ++ window = held ++ pending.take n) (rest : Bytes) :
    held ++ pending ++ rest = released ++ (window ++ (pending.drop n ++ rest)) := by
  conv => lhs; rw [← List.take_append_drop n pending]
  rw [← List.append_assoc, ← h]
  simp only [List.append_assoc]

theorem receiveChunk_of_pending {s : Session γ ω} {u : Upload γ} {released : Bytes} {scanner : Scanner}
    (h : u.reception.scanner.feed (s.input.pending.take chunkSize) = (.pending released, scanner)) :
    s.receiveChunk u =
      { s with
        gateway := (u.store s.gateway released).2
        input := ⟨s.input.pending.drop chunkSize⟩
        phase := .receiving
          { u with reception := { (u.store s.gateway released).1.reception with scanner } } } := by
  simp only [receiveChunk, Reception.take, InputBuffer.takeRaw, h, Upload.store]

/-- A chunk of which everything is held back. -/
theorem receiveChunk_of_held {s : Session γ ω} {u : Upload γ} {scanner : Scanner}
    (h : u.reception.scanner.feed (s.input.pending.take chunkSize) = (.pending [], scanner)) :
    s.receiveChunk u =
      { s with
        input := ⟨s.input.pending.drop chunkSize⟩
        phase := .receiving { u with reception := { u.reception with scanner } } } := by
  rw [receiveChunk_of_pending h, Upload.store_nil]
  rfl

theorem receiveChunk_of_complete {s : Session γ ω} {u : Upload γ} {payload trailing : Bytes}
    {scanner : Scanner}
    (h : u.reception.scanner.feed (s.input.pending.take chunkSize) =
      (.complete payload trailing, scanner)) :
    s.receiveChunk u =
      ((s.withInput ⟨trailing ++ s.input.pending.drop chunkSize⟩).storePayload u payload).endPayload
        (u.store s.gateway payload).1 := by
  simp only [receiveChunk, Reception.take, InputBuffer.takeRaw, h, Upload.store, endPayload,
    storePayload, withInput, Upload.flush, InputBuffer.unread, Sink.mk_attempt_writeAll]
  rfl

theorem endPayload_withInput (s : Session γ ω) (input : InputBuffer) (u : Upload γ) :
    (s.withInput input).endPayload u = (s.endPayload u).withInput input := by
  simp only [endPayload, completeUpload, withInput]
  cases (u.flush s.gateway).1 <;> rfl

/-- After the marker the session waits for a command, whatever became of the file. -/
theorem phase_endPayload (s : Session γ ω) (u : Upload γ) : (s.endPayload u).phase = .command := by
  unfold endPayload completeUpload
  cases (u.flush s.gateway).1 <;> rfl

theorem input_endPayload (s : Session γ ω) (u : Upload γ) : (s.endPayload u).input = s.input := by
  unfold endPayload
  rw [input_answer, input_completeUpload]

theorem sendChunk_eq (s : Session γ ω) (entry : Guard) (file : Sending) :
    (∃ rest, (s.sendChunk entry file).phase = .sending entry rest ∧
      (s.sendChunk entry file).sendAll entry rest = s.sendAll entry file) ∨
      s.sendChunk entry file = s.sendAll entry file := by
  unfold sendChunk
  split
  · rename_i rest output hstep
    refine .inl ⟨rest, rfl, ?_⟩
    simp only [sendAll, Sending.run_of_more hstep]
  · rename_i outcome output hstep
    refine .inr ?_
    simp only [sendAll, Sending.run_of_ended hstep]

namespace Reads

theorem of_sendChunk {s t : Session γ ω} {entry : Guard} {file : Sending} {rest : Bytes}
    (hp : s.phase = .sending entry file)
    (hr : Reads (s.sendChunk entry file).bare ((s.sendChunk entry file).inHand ++ rest) t) :
    Reads s.bare (s.inHand ++ rest) t := by
  have hs : ∀ u, s.phase ≠ .receiving u := by simp [hp]
  have hs' : ∀ u, (s.sendChunk entry file).phase ≠ .receiving u := by
    unfold sendChunk
    split <;> simp [unregister]
  have hinput : (s.sendChunk entry file).input = s.input := by
    unfold sendChunk
    split <;> rfl
  have hsend : (s.withInput .empty).sendChunk entry file = (s.sendChunk entry file).withInput .empty := by
    simp only [sendChunk, withInput]
    split <;> rfl
  rw [bare_of_phase_ne hs', inHand_of_phase_ne hs', hinput, ← hsend] at hr
  rw [bare_of_phase_ne hs, inHand_of_phase_ne hs]
  exact .chunk hp hr

theorem of_handleLine {s t : Session γ ω} {content : Text} {rest : Bytes} {after : InputBuffer}
    (hp : s.phase = .command) (hl : s.input.nextLine = .line content after)
    (hr : Reads ((s.withInput after).handleLine content).bare
      (((s.withInput after).handleLine content).inHand ++ rest) t) :
    Reads s.bare (s.inHand ++ rest) t := by
  have hs : ∀ u, s.phase ≠ .receiving u := by simp [hp]
  obtain ⟨line, hline, hpending, rfl⟩ := nextLine_eq_line hl
  have hp' : (s.withInput after).phase = .command := hp
  rw [bare_handleLine hp', inHand_handleLine hp', handleLine_withInput] at hr
  rw [bare_of_phase_ne hs, inHand_of_phase_ne hs, hpending, List.append_assoc, List.cons_append]
  refine .line hp hline ?_
  rwa [handleLine_withInput]

theorem of_close {s t : Session γ ω} {rest : Bytes} (hp : s.phase = .command)
    (hl : s.input.nextLine = .tooLong) (hr : Reads s.close.bare (s.close.inHand ++ rest) t) :
    Reads s.bare (s.inHand ++ rest) t := by
  have hs : ∀ u, s.phase ≠ .receiving u := by simp [hp]
  have hs' : ∀ u, s.close.phase ≠ .receiving u := by simp [close]
  obtain ⟨hpending, hlen⟩ := nextLine_eq_tooLong hl
  rw [bare_of_phase_ne hs', inHand_of_phase_ne hs'] at hr
  rw [bare_of_phase_ne hs, inHand_of_phase_ne hs]
  exact .overlong hp hpending hlen hr

/-- Where the chunk holds the marker, what the scanner had and the chunk up to it are the payload. -/
theorem of_complete {s t : Session γ ω} {u : Upload γ} {payload trailing rest : Bytes}
    (hcut : cutAtMarker? (u.reception.scanner.held ++ s.input.pending.take chunkSize) =
      some (payload, trailing))
    (hr : Reads (s.receiveChunk u).bare ((s.receiveChunk u).inHand ++ rest) t) :
    Reads { s with input := .empty, phase := .receiving u.bare }
      (u.reception.scanner.held ++ s.input.pending ++ rest) t := by
  obtain ⟨⟨_, hfirst⟩, hsplit⟩ := cutAtMarker?_eq_some_iff.mp hcut
  have hafter : ((s.storePayload u payload).endPayload (u.store s.gateway payload).1).phase = .command :=
    phase_endPayload ..
  have hother : ∀ v, (((s.storePayload u payload).endPayload (u.store s.gateway payload).1).withInput
      ⟨trailing ++ s.input.pending.drop chunkSize⟩).phase ≠ .receiving v := by
    simp [withInput, hafter]
  rw [receiveChunk_of_complete (Scanner.feed_of_cut hcut),
    show ∀ input, (s.withInput input).storePayload u payload =
      (s.storePayload u payload).withInput input from fun _ => rfl,
    endPayload_withInput, bare_of_phase_ne hother, inHand_of_phase_ne hother] at hr
  have hall : u.reception.scanner.held ++ s.input.pending ++ rest =
      payload ++ (endMarker ++ (trailing ++ s.input.pending.drop chunkSize ++ rest)) := by
    conv => lhs; rw [← List.take_append_drop chunkSize s.input.pending]
    rw [← List.append_assoc, hsplit]
    simp only [List.append_assoc]
  rw [hall]
  have hlong : holdBack ≤ (endMarker ++ (trailing ++ s.input.pending.drop chunkSize ++ rest)).length := by
    simp only [List.length_append, holdBack_eq, length_endMarker]
    omega
  refine .payload rfl ?_ (.inr hlong) (.marker rfl ?_)
  · intro i hi hat
    rw [hsplit] at hfirst
    refine hfirst i hi ?_
    rw [← marker_at_append_iff (by simp; omega) (s.input.pending.drop chunkSize ++ rest)]
    simpa only [List.append_assoc] using hat
  · change Reads (((s.storePayload u payload).withInput .empty).endPayload
      (u.store s.gateway payload).1) _ t
    rw [endPayload_withInput]
    exact hr

/-- Where it does not, the scanner holds back what may begin one, and the rest is written. -/
theorem of_pending {s t : Session γ ω} {u : Upload γ} {rest : Bytes}
    (hn : ¬ HasMarker (u.reception.scanner.held ++ s.input.pending.take chunkSize))
    (hr : Reads (s.receiveChunk u).bare ((s.receiveChunk u).inHand ++ rest) t) :
    Reads { s with input := .empty, phase := .receiving u.bare }
      (u.reception.scanner.held ++ s.input.pending ++ rest) t := by
  obtain ⟨released, scanner, hfeed, hsplit, hlen⟩ := Scanner.feed_of_not_hasMarker hn
  rw [receiveChunk_of_pending hfeed] at hr
  have hwindow := eq_nil_or_of_length_window hsplit hlen
  rw [append_of_window hsplit]
  refine .payload rfl ?_ ?_ ?_
  · rw [← hsplit] at hn
    exact none_begins_before_window hn hwindow _
  · rcases hwindow with h | h
    · exact .inl h
    · exact .inr (by simp only [List.length_append]; omega)
  · have hr' : Reads ((s.storePayload u released).withInput .empty)
        (scanner.held ++ s.input.pending.drop chunkSize ++ rest) t := hr
    rw [← List.append_assoc]
    exact hr'

theorem of_receiveChunk {s t : Session γ ω} {u : Upload γ} {rest : Bytes} (hp : s.phase = .receiving u)
    (hr : Reads (s.receiveChunk u).bare ((s.receiveChunk u).inHand ++ rest) t) :
    Reads s.bare (s.inHand ++ rest) t := by
  have hbare : s.bare = { s with input := .empty, phase := .receiving u.bare } := by
    simp only [bare, hp]
  have hhand : s.inHand = u.reception.scanner.held ++ s.input.pending := by
    simp only [inHand, hp]
  rw [hbare, hhand]
  cases hcut : cutAtMarker? (u.reception.scanner.held ++ s.input.pending.take chunkSize) with
  | none => exact of_pending (cutAtMarker?_eq_none_iff.mp hcut) hr
  | some parts => exact of_complete hcut hr

/-- A step is a step of the reading, with whatever input is still to come. -/
theorem of_advance? {s s' t : Session γ ω} (h : s.advance? = some s') {rest : Bytes}
    (hr : Reads s'.bare (s'.inHand ++ rest) t) : Reads s.bare (s.inHand ++ rest) t := by
  unfold advance? at h
  split at h
  · cases h
  · rename_i hp
    split at h
    · rename_i hl
      obtain rfl := Option.some.inj h
      exact of_handleLine hp hl hr
    · rename_i hl
      obtain rfl := Option.some.inj h
      exact of_close hp hl hr
    · cases h
  · rename_i hp
    obtain rfl := Option.some.inj h
    exact of_sendChunk hp hr
  · rename_i hp
    split at h
    · cases h
    · obtain rfl := Option.some.inj h
      exact of_receiveChunk hp hr

theorem of_drain {s t : Session γ ω} {rest : Bytes} (hr : Reads s.drain.bare (s.drain.inHand ++ rest) t) :
    Reads s.bare (s.inHand ++ rest) t := by
  fun_induction drain s with
  | case1 => exact hr
  | case2 s s' h ih => exact of_advance? h (ih hr)

/-! ## Deliveries -/

theorem of_phase_closed {s t : Session γ ω} (hs : s.phase = .closed) {input : Bytes}
    (hr : Reads s input t) (other : Bytes) : Reads s other t := by
  cases hr with
  | waits =>
    have ht : t.phase = .closed := by
      cases hp : t.phase <;> simp [bare, withInput, hp] at hs
      rfl
    exact .closed t ht other
  | closed => exact .closed t ‹_› other
  | line h => simp [hs] at h
  | overlong h => simp [hs] at h
  | chunk h => simp [hs] at h
  | payload h => simp [hs] at h
  | marker h => simp [hs] at h

omit [Writer ω] in
theorem phase_bare_of_isClosed {s : Session γ ω} (h : s.isClosed = true) : s.bare.phase = .closed := by
  cases hp : s.phase <;> simp [isClosed, hp] at h
  simp [bare, withInput, hp]

theorem of_receive {s t : Session γ ω} {b : UInt8} {bs rest : Bytes}
    (hr : Reads (s.receive (.ok (b :: bs))).bare ((s.receive (.ok (b :: bs))).inHand ++ rest) t) :
    Reads s.bare (s.inHand ++ (b :: bs ++ rest)) t := by
  by_cases hc : s.isClosed = true
  · rw [receive, if_pos hc] at hr
    exact of_phase_closed (phase_bare_of_isClosed hc) hr _
  · rw [receive, if_neg hc] at hr
    have hsupply := of_drain hr
    cases hp : s.phase with
    | receiving u =>
      simpa [bare, inHand, hp, InputBuffer.supply] using hsupply
    | _ => simpa [bare, withInput, inHand, hp, InputBuffer.supply] using hsupply

theorem of_deliver {s t : Session γ ω} {content rest : Bytes}
    (hr : Reads (s.deliver content).bare ((s.deliver content).inHand ++ rest) t) :
    Reads s.bare (s.inHand ++ (content ++ rest)) t := by
  fun_induction deliver s content with
  | case1 s => exact hr
  | case2 s b bs hw =>
    have hc : s.isClosed = true := by
      cases hp : s.phase <;> simp [wants, hp, lineReadSize, chunkSize] at hw
      simp [isClosed, hp]
    exact of_phase_closed (phase_bare_of_isClosed hc) hr _
  | case3 s b bs n hw ih =>
    have hfirst := of_receive (ih hr)
    rwa [← List.append_assoc (b :: bs.take n), List.cons_append, List.take_append_drop] at hfirst

end Reads

theorem advance?_drain (s : Session γ ω) : s.drain.advance? = none := by
  fun_induction drain s with
  | case1 s h => exact h
  | case2 s s' h ih => exact ih

omit [Writer ω] in
theorem phase_lose (s : Session γ ω) : s.lose.phase = .closed := by
  unfold lose
  split
  · assumption
  all_goals rfl

theorem advance?_of_line {s : Session γ ω} {content : Text} {rest : InputBuffer} (h : s.phase = .command)
    (hline : s.input.nextLine = .line content rest) :
    s.advance? = some ((s.withInput rest).handleLine content) := by
  simp [advance?, withInput, h, hline]

theorem advance?_of_nothing {s : Session γ ω} (h : s.phase = .command) (hinput : s.input.pending = []) :
    s.advance? = none := by
  simp [advance?, h, InputBuffer.nextLine, hinput, cutAtNewline?, maxLineBytes]

omit [Writer ω] in
theorem phase_of_isClosed {s : Session γ ω} (h : s.isClosed = true) : s.phase = .closed := by
  cases hp : s.phase <;> simp [isClosed, hp] at h ⊢

theorem advance?_eq_none_of_closed {s : Session γ ω} (h : s.phase = .closed) : s.advance? = none := by
  simp [advance?, h]

theorem advance?_receive {s : Session γ ω} (h : s.advance? = none) (result : ReadResult) :
    (s.receive result).advance? = none := by
  unfold receive
  split
  · exact h
  · split
    · split
      · exact h
      · exact advance?_eq_none_of_closed (phase_lose s)
    · exact advance?_eq_none_of_closed (phase_lose s)
    · exact advance?_drain _

theorem advance?_deliver {s : Session γ ω} (h : s.advance? = none) (content : Bytes) :
    (s.deliver content).advance? = none := by
  fun_induction deliver s content with
  | case1 s => exact h
  | case2 s b bs hw => exact h
  | case3 s b bs n hw ih => exact ih (advance?_receive h _)

theorem advance?_take {s : Session γ ω} (h : s.advance? = none) (a : Arrival) :
    (s.take a).advance? = none := by
  cases a with
  | bytes content => exact advance?_deliver h content
  | failure e => exact advance?_receive h (.error e)

theorem advance?_foldl_take {s : Session γ ω} (h : s.advance? = none) (src : Source) :
    (src.foldl take s).advance? = none := by
  induction src generalizing s with
  | nil => exact h
  | cons a src ih => exact ih (advance?_take h a)

theorem Reads.of_foldl_take {s t : Session γ ω} {src : Source} (hsrc : ∀ a ∈ src, a.isHard = false)
    {rest : Bytes} (hr : Reads (src.foldl take s).bare ((src.foldl take s).inHand ++ rest) t) :
    Reads s.bare (s.inHand ++ (src.content ++ rest)) t := by
  induction src generalizing s with
  | nil => exact hr
  | cons a src ih =>
    have hnext := ih (fun b hb => hsrc b (List.mem_cons_of_mem a hb)) hr
    cases a with
    | bytes content =>
      have := Reads.of_deliver hnext
      rwa [Source.content, List.append_assoc]
    | failure e =>
      have he : e.isInterrupted = true := by
        simpa [Arrival.isHard] using hsrc (.failure e) List.mem_cons_self
      rw [Source.content, if_pos he]
      simpa [take, receive, he] using hnext

/-- A delivery without a failure for good brings a waiting session to where its whole content does. -/
theorem reads_foldl_take {s : Session γ ω} (h : s.advance? = none) {src : Source}
    (hsrc : ∀ a ∈ src, a.isHard = false) :
    Reads s.bare (s.inHand ++ src.content) (src.foldl take s) := by
  have hend : Reads (src.foldl take s).bare ((src.foldl take s).inHand ++ []) (src.foldl take s) := by
    rw [List.append_nil]
    exact .waits _ (advance?_foldl_take h src)
  simpa using Reads.of_foldl_take hsrc hend

theorem receive_of_phase_closed {s : Session γ ω} (h : s.phase = .closed) (result : ReadResult) :
    s.receive result = s := if_pos (by simp [isClosed, h])

theorem deliver_of_phase_closed {s : Session γ ω} (h : s.phase = .closed) (content : Bytes) :
    s.deliver content = s := by
  unfold deliver
  split
  · rfl
  · split
    · rfl
    · rename_i hw
      simp [wants, h] at hw

theorem foldl_take_of_phase_closed {s : Session γ ω} (h : s.phase = .closed) (src : Source) :
    src.foldl take s = s := by
  induction src with
  | nil => rfl
  | cons a src ih =>
    have ha : s.take a = s := by
      cases a with
      | bytes content => exact deliver_of_phase_closed h content
      | failure e => exact receive_of_phase_closed h (.error e)
    rw [List.foldl_cons, ha, ih]

theorem receive_end (s : Session γ ω) : s.receive (.ok []) = s.lose := by
  cases hp : s.phase <;> simp [receive, isClosed, lose, hp]

/-- Whether the stream ends or fails, a whole run is the reading of what came before, and then the
loss of the client. -/
theorem exists_reads_run {s : Session γ ω} (h : s.advance? = none) (src : Source) :
    ∃ t, t.advance? = none ∧ Reads s.bare (s.inHand ++ src.content) t ∧ s.run src = t.lose := by
  induction src generalizing s with
  | nil =>
    refine ⟨s, h, ?_, receive_end s⟩
    simpa [Source.content] using Reads.waits s h
  | cons a src ih =>
    obtain ⟨t, ht, hr, hrun⟩ := ih (advance?_take h a)
    cases a with
    | bytes content =>
      refine ⟨t, ht, ?_, hrun⟩
      rw [Source.content]
      exact Reads.of_deliver hr
    | failure e =>
      by_cases he : e.isInterrupted = true
      · refine ⟨t, ht, ?_, hrun⟩
        rw [Source.content, if_pos he]
        simpa [take, receive, he] using hr
      · refine ⟨s, h, ?_, ?_⟩
        · rw [Source.content, if_neg he, List.append_nil]
          exact .waits s h
        · have hlose : s.take (.failure e) = s.lose := by
            cases hp : s.phase <;> simp [take, receive, isClosed, lose, he, hp]
          rw [run, List.foldl_cons, hlose, foldl_take_of_phase_closed (phase_lose s),
            receive_of_phase_closed (phase_lose s)]

end Session

end FileFerry
