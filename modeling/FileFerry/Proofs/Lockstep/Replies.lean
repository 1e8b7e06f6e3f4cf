import FileFerry.Proofs.Lockstep.System
import FileFerry.Proofs.Session.Reading
import FileFerry.Proofs.Utf8

/-!
# What a session says to a line

Every line but `quit` is answered by one line, or by the line that takes up a transfer. A failure of
any kind is answered by a line that the client does not take for the latter.
-/

set_option autoImplicit false

namespace FileFerry

/-! ## Texts on one line -/

namespace CommandError

theorem ofIo_cases {P : CommandError → Prop} {e : IoError} {target : Target} {context : Text}
    (hnotFound : P (.notFound target)) (halreadyExists : P (.alreadyExists target))
    (hdenied : P .permissionDenied) (hnotADirectory : P notADirectory) (hisADirectory : P isADirectory)
    (hio : P (.io context e)) : P (ofIo e target context) := by
  unfold ofIo
  split
  · exact hnotFound
  · exact halreadyExists
  · exact hdenied
  · exact hnotADirectory
  · exact hisADirectory
  · exact hio

theorem message_io_oneLine {e : IoError} {context : Text} (he : '\n' ∉ e.message)
    (hcontext : '\n' ∉ context) : '\n' ∉ (io context e).message := by
  have hcolon : '\n' ∉ text ": " := by decide
  have hdot : '\n' ∉ text "." := by decide
  change '\n' ∉ context ++ text ": " ++ e.message ++ text "."
  simp only [List.mem_append, not_or]
  exact ⟨⟨⟨hcontext, hcolon⟩, he⟩, hdot⟩

theorem message_ofIo_oneLine {e : IoError} {context : Text} (he : '\n' ∉ e.message)
    (hcontext : '\n' ∉ context) (target : Target) : '\n' ∉ (ofIo e target context).message := by
  have hnotFound : ∀ target : Target, '\n' ∉ (notFound target).message := by
    intro target
    cases target <;> decide
  have halreadyExists : ∀ target : Target, '\n' ∉ (alreadyExists target).message := by
    intro target
    cases target <;> decide
  apply ofIo_cases (P := fun e => '\n' ∉ e.message)
  · exact hnotFound target
  · exact halreadyExists target
  · decide
  · decide
  · decide
  · exact message_io_oneLine he hcontext

theorem ofIo_ne_disconnected (e : IoError) (target : Target) (context : Text) :
    ofIo e target context ≠ .disconnected := by
  apply ofIo_cases (P := fun e => e ≠ .disconnected) <;> simp [notADirectory, isADirectory]

end CommandError

theorem Response.render_framed_oneLine {status : Status} {message : Text} (h : '\n' ∉ message) :
    '\n' ∉ (framed status message).render := by
  have hname : '\n' ∉ status.name := by cases status <;> decide
  have hcolon : '\n' ∉ text ": " := by decide
  simp only [render, List.mem_append, not_or]
  exact ⟨⟨hname, hcolon⟩, h⟩

theorem joinWith_oneLine {sep : Text} (hsep : '\n' ∉ sep) {texts : List Text}
    (h : ∀ t ∈ texts, '\n' ∉ t) : '\n' ∉ Text.joinWith sep texts := by
  fun_induction Text.joinWith sep texts with
  | case1 => simp
  | case2 t => exact h t List.mem_cons_self
  | case3 t u ts ih =>
    have ht := h t List.mem_cons_self
    have hrest := ih fun v hv => h v (List.mem_cons_of_mem t hv)
    simp only [List.mem_append, not_or]
    exact ⟨⟨ht, hsep⟩, hrest⟩

theorem renderListing_oneLine {entries : List DirEntry} (h : ∀ e ∈ entries, '\n' ∉ e.name) :
    '\n' ∉ renderListing entries := by
  apply joinWith_oneLine (by decide)
  intro t ht
  obtain ⟨e, he, rfl⟩ := List.mem_map.mp ht
  have hname := h e he
  unfold DirEntry.render
  split
  · simp [hname]
  · exact hname

theorem Path.display_oneLine {p : Path} (h : newline ∉ p.bytes) : '\n' ∉ p.display :=
  Utf8.newline_not_mem_decodeLossy h

namespace Session

/-! ## Commands -/

/-- The line that answers a command, unless it is answered otherwise. -/
def lineOf? : Except CommandError Reply → Option Response
  | .ok (.line r) => some r
  | .ok .streamed => none
  | .ok .close => none
  | .error .disconnected => none
  | .error e => some e.response

theorem lineOf?_error {e : CommandError} (h : e ≠ .disconnected) : lineOf? (.error e) = some e.response := by
  cases e <;> simp [lineOf?] at h ⊢

theorem answer_of_lineOf? {γ ω : Type} [Gateway γ] [Writer ω] {outcome : Except CommandError Reply}
    {r : Response} (h : lineOf? outcome = some r) (s : Session γ ω) : s.answer outcome = s.sendResponse r := by
  cases outcome with
  | ok reply =>
    cases reply with
    | line response =>
      cases h
      rfl
    | streamed => cases h
    | close => cases h
  | error e =>
    cases e with
    | disconnected => cases h
    | _ =>
      cases h
      rfl

variable {γ : Type} [Gateway γ] {s : Session (Answered γ) Pipe}

/-- A command that comes to one line, and leaves the session waiting for the next command. -/
structure Replies (s : Session (Answered γ) Pipe) (x : Handled (Answered γ) Pipe) (r : Response) : Prop where
  line : lineOf? x.1 = some r
  oneLine : '\n' ∉ r.render
  output : x.2.output = s.output
  phase : x.2.phase = s.phase
  cwd : newline ∉ x.2.cwd.bytes

variable (hcwd : newline ∉ s.cwd.bytes)

include hcwd

theorem replies_fail {g : Answered γ} {e : CommandError} (hne : e ≠ .disconnected)
    (he : '\n' ∉ e.message) : Replies s (({ s with gateway := g } : Session _ _).fail e) e.response :=
  ⟨lineOf?_error hne, Response.render_framed_oneLine he, rfl, rfl, hcwd⟩

theorem replies_refuse {g : Answered γ} {e : IoError} (he : (Answer.error e).IsOneLine) (target : Target)
    (context : String) (hcontext : '\n' ∉ text context) :
    ∃ message, Replies s (({ s with gateway := g } : Session _ _).refuse e target context)
      (.framed .error message) :=
  ⟨_, replies_fail hcwd (CommandError.ofIo_ne_disconnected e target _)
    (CommandError.message_ofIo_oneLine he hcontext target)⟩

theorem replies_succeed {g : Answered γ} {message : Text} (h : '\n' ∉ message) :
    Replies s (({ s with gateway := g } : Session _ _).succeed message) (.framed .success message) :=
  ⟨rfl, Response.render_framed_oneLine h, rfl, rfl, hcwd⟩

theorem replies_listDirectory (h : ∀ a ∈ s.listDirectory.2.gateway.answers, a.IsOneLine) :
    ∃ r, Replies s s.listDirectory r := by
  unfold listDirectory at h ⊢
  split at h
  · rename_i entries g hlist
    have hentries := h _ (Answered.mem_of_note_ok hlist List.mem_cons_self)
    exact ⟨_, rfl, renderListing_oneLine hentries, rfl, rfl, hcwd⟩
  · rename_i e g hlist
    have herror := h _ (Answered.mem_of_note_error hlist)
    obtain ⟨message, hreplies⟩ := replies_refuse hcwd herror .directory "Failed to list directory" (by decide)
    exact ⟨_, hreplies⟩

omit hcwd in
theorem requireName_error {argument : Text} {target : Target} {e : CommandError}
    (h : requireName argument target = .error e) : e = .invalidArgument target := by
  unfold requireName at h
  split at h
  · exact (Except.error.inj h).symm
  · cases h

theorem replies_noName {argument : Text} {target : Target} {e : CommandError}
    (h : requireName argument target = .error e) :
    ∃ message, Replies s (s.fail e) (.framed .error message) := by
  obtain rfl := requireName_error h
  have hmessage : '\n' ∉ (CommandError.invalidArgument target).message := by
    cases target <;> decide
  exact ⟨_, replies_fail hcwd (by simp) hmessage⟩

theorem replies_changeDirectory {argument : Text}
    (h : ∀ a ∈ (s.changeDirectory argument).2.gateway.answers, a.IsOneLine) :
    ∃ r, Replies s (s.changeDirectory argument) r := by
  unfold changeDirectory at h ⊢
  split at h
  · rename_i e hname
    obtain ⟨message, hreplies⟩ := replies_noName hcwd hname
    exact ⟨_, hreplies⟩
  · split at h
    · rename_i dir g hchdir
      have hdir : newline ∉ dir.bytes := h _ (Answered.mem_of_note_ok hchdir List.mem_cons_self)
      have htext : '\n' ∉ text "Changed directory to " ++ dir.display ++ text "." := by
        simp only [List.mem_append, not_or]
        exact ⟨⟨by decide, Path.display_oneLine hdir⟩, by decide⟩
      exact ⟨_, rfl, Response.render_framed_oneLine htext, rfl, rfl, hdir⟩
    · rename_i e g hchdir
      have herror := h _ (Answered.mem_of_note_error hchdir)
      obtain ⟨message, hreplies⟩ := replies_refuse hcwd herror .directory "Failed to change directory" (by decide)
      exact ⟨_, hreplies⟩

theorem replies_makeDirectory {argument : Text}
    (h : ∀ a ∈ (s.makeDirectory argument).2.gateway.answers, a.IsOneLine) :
    ∃ r, Replies s (s.makeDirectory argument) r := by
  unfold makeDirectory at h ⊢
  split at h
  · rename_i e hname
    obtain ⟨message, hreplies⟩ := replies_noName hcwd hname
    exact ⟨_, hreplies⟩
  · split at h
    · exact ⟨_, replies_fail hcwd (by simp) (by decide)⟩
    · split at h
      · exact ⟨_, replies_succeed hcwd (by decide)⟩
      · rename_i e g hmkdir
        have herror := h _ (Answered.mem_of_note_error hmkdir)
        obtain ⟨message, hreplies⟩ := replies_refuse hcwd herror .directory "Failed to create directory" (by decide)
        exact ⟨_, hreplies⟩

theorem replies_deleteFile {argument : Text}
    (h : ∀ a ∈ (s.deleteFile argument).2.gateway.answers, a.IsOneLine) :
    ∃ r, Replies s (s.deleteFile argument) r := by
  unfold deleteFile at h ⊢
  split at h
  · rename_i e hname
    obtain ⟨message, hreplies⟩ := replies_noName hcwd hname
    exact ⟨_, hreplies⟩
  · split at h
    · exact ⟨_, replies_fail hcwd (by simp) (by decide)⟩
    · split at h
      · exact ⟨_, replies_succeed hcwd (by decide)⟩
      · rename_i e g hremove
        have herror := h _ (Answered.mem_of_note_error hremove)
        refine ⟨_, replies_fail hcwd (e := deleteError e) ?_ ?_⟩
        · unfold deleteError
          split
          · simp
          · exact CommandError.ofIo_ne_disconnected _ _ _
        · unfold deleteError
          split
          · decide
          · exact CommandError.message_ofIo_oneLine herror (by decide) _

theorem replies_printDirectory : ∃ r, Replies s s.printDirectory r :=
  ⟨_, rfl, Path.display_oneLine hcwd, rfl, rfl, hcwd⟩

/-- A download is refused by an error line, or taken up. -/
theorem beginDownload_outcome {argument : Text}
    (h : ∀ a ∈ (s.beginDownload argument).2.gateway.answers, a.IsOneLine) :
    (∃ message, Replies s (s.beginDownload argument) (.framed .error message)) ∨
      argument ≠ [] ∧ ∃ src g, s.beginDownload argument = (.ok .streamed, s.acceptDownload src g) := by
  unfold beginDownload at h ⊢
  split at h
  · rename_i e hname
    exact .inl (replies_noName hcwd hname)
  · rename_i name hname
    split at h
    · exact .inl ⟨_, replies_fail hcwd (by simp) (by decide)⟩
    · split at h
      · rename_i e g hopen
        have herror := h _ (Answered.mem_of_note_error hopen)
        exact .inl (replies_refuse hcwd herror .file "Failed to open file" (by decide))
      · rename_i src g hopen
        refine .inr ⟨?_, src, g, rfl⟩
        rintro rfl
        cases hname

/-- An upload is refused by an error line, or taken up. -/
theorem beginUpload_outcome {argument : Text}
    (h : ∀ a ∈ (s.beginUpload argument).2.gateway.answers, a.IsOneLine) :
    (∃ message, Replies s (s.beginUpload argument) (.framed .error message)) ∨
      argument ≠ [] ∧ ∃ p handle g,
        s.beginUpload argument = (.ok .streamed, s.acceptUpload p handle g) := by
  unfold beginUpload at h ⊢
  split at h
  · rename_i e hname
    exact .inl (replies_noName hcwd hname)
  · rename_i name hname
    split at h
    · rename_i e g hcreate
      have herror := h _ (Answered.mem_of_note_error hcreate)
      exact .inl (replies_refuse hcwd herror .directory "Failed to create file" (by decide))
    · rename_i handle g hcreate
      refine .inr ⟨?_, s.resolve name, handle, g, rfl⟩
      rintro rfl
      cases hname

omit hcwd

/-! ## Lines -/

/-- The session says a line and waits for a command. -/
structure Tells (s s' : Session (Answered γ) Pipe) (line : Text) : Prop where
  phase : s'.phase = .command
  output : s'.output.inFlight = s.output.inFlight ++ lineBytes line
  oneLine : '\n' ∉ line
  cwd : newline ∉ s'.cwd.bytes

theorem output_sendText (s : Session (Answered γ) Pipe) (t : Text) :
    (s.sendText t).output = ⟨s.output.inFlight ++ Utf8.encode t⟩ := by
  rw [sendText, Pipe.send_eq]

theorem gateway_answer {γ ω : Type} [Gateway γ] [Writer ω] (s : Session γ ω)
    (outcome : Except CommandError Reply) : (s.answer outcome).gateway = s.gateway := by
  unfold answer
  split <;> rfl

theorem Replies.tells {x : Handled (Answered γ) Pipe} {r : Response} (h : Replies s x r)
    (hs : s.phase = .command) : Tells s (x.2.answer x.1) r.render := by
  rw [answer_of_lineOf? h.line]
  refine ⟨h.phase.trans hs, ?_, h.oneLine, h.cwd⟩
  rw [sendResponse, output_sendText, h.output]
  rfl

/-- A line that neither ends the session nor asks for a transfer. -/
def IsPlain (line : Text) : Prop :=
  ∀ command, Command.ofLine? line = some command → command.name ≠ Verb.quit.name ∧
    (command.name = Verb.get.name → command.argument = []) ∧
    (command.name = Verb.put.name → command.argument = [])

include hcwd

theorem tells_handleLine {line : Text} (hs : s.phase = .command) (hline : IsPlain line)
    (hanswers : ∀ a ∈ (s.handleLine line).gateway.answers, a.IsOneLine) :
    ∃ reply, Tells s (s.handleLine line) reply := by
  unfold handleLine at hanswers ⊢
  split at hanswers
  · refine ⟨[], hs, ?_, by simp, hcwd⟩
    rw [output_sendText]
    rfl
  · rename_i command hcommand
    obtain ⟨hquit, hget, hput⟩ := hline command hcommand
    split at hanswers
    · exact ⟨_, (replies_fail hcwd (g := s.gateway) (by simp) (by decide)).tells hs⟩
    · rename_i verb hverb
      have hname := Verb.name_of_ofName? hverb
      dsimp only at hanswers ⊢
      rw [gateway_answer] at hanswers
      cases verb with
      | pwd =>
        obtain ⟨r, h⟩ := replies_printDirectory hcwd
        exact ⟨_, h.tells hs⟩
      | ls =>
        obtain ⟨r, h⟩ := replies_listDirectory hcwd hanswers
        exact ⟨_, h.tells hs⟩
      | cd =>
        obtain ⟨r, h⟩ := replies_changeDirectory hcwd hanswers
        exact ⟨_, h.tells hs⟩
      | mkdir =>
        obtain ⟨r, h⟩ := replies_makeDirectory hcwd hanswers
        exact ⟨_, h.tells hs⟩
      | delete =>
        obtain ⟨r, h⟩ := replies_deleteFile hcwd hanswers
        exact ⟨_, h.tells hs⟩
      | get =>
        rcases beginDownload_outcome hcwd hanswers with ⟨message, h⟩ | ⟨hne, _⟩
        · exact ⟨_, h.tells hs⟩
        · exact absurd (hget hname.symm) hne
      | put =>
        rcases beginUpload_outcome hcwd hanswers with ⟨message, h⟩ | ⟨hne, _⟩
        · exact ⟨_, h.tells hs⟩
        · exact absurd (hput hname.symm) hne
      | quit => exact absurd hname.symm hquit

theorem handleLine_downloadRequest {name : Text} (hs : s.phase = .command) (hne : name ≠ [])
    (htrim : Text.trim name = name)
    (hanswers : ∀ a ∈ (s.handleLine (downloadRequest name)).gateway.answers, a.IsOneLine) :
    (∃ message, Tells s (s.handleLine (downloadRequest name)) (Response.framed .error message).render) ∨
      ∃ src g, s.handleLine (downloadRequest name) = s.acceptDownload src g := by
  have hline := handleLine_request s .get hne htrim
  change s.handleLine (downloadRequest name) = _ at hline
  rw [hline] at hanswers ⊢
  rw [gateway_answer] at hanswers
  rcases beginDownload_outcome hcwd hanswers with ⟨message, h⟩ | ⟨_, src, g, h⟩
  · exact .inl ⟨message, h.tells hs⟩
  · refine .inr ⟨src, g, ?_⟩
    simp only [execute, h]
    rfl

theorem handleLine_uploadRequest {name : Text} (hs : s.phase = .command) (hne : name ≠ [])
    (htrim : Text.trim name = name)
    (hanswers : ∀ a ∈ (s.handleLine (uploadRequest name)).gateway.answers, a.IsOneLine) :
    (∃ message, Tells s (s.handleLine (uploadRequest name)) (Response.framed .error message).render) ∨
      ∃ p handle g, s.handleLine (uploadRequest name) = s.acceptUpload p handle g := by
  have hline := handleLine_request s .put hne htrim
  change s.handleLine (uploadRequest name) = _ at hline
  rw [hline] at hanswers ⊢
  rw [gateway_answer] at hanswers
  rcases beginUpload_outcome hcwd hanswers with ⟨message, h⟩ | ⟨_, p, handle, g, h⟩
  · exact .inl ⟨message, h.tells hs⟩
  · refine .inr ⟨p, handle, g, ?_⟩
    simp only [execute, h]
    rfl

end Session

end FileFerry
