import FileFerry.Proofs.Conversation.Reception
import FileFerry.Proofs.Gateway.Attempts
import FileFerry.Proofs.Gateway.Journal
import FileFerry.Proofs.Lockstep.Replies

/-!
# How a command ends

Every line comes to an end in one of a few ways (`Settles`), told from what was tried on the gateway on the
way. Some lines ask for nothing, most commands are answered by one line, and a transfer that is taken up has
its file sent or received. Whatever holds of answers can be read off these ends.
-/

set_option autoImplicit false

namespace FileFerry

/-! ## Commands -/

/-- The line has this verb, with this argument. -/
def Asks (line : Text) (verb : Verb) (argument : Text) : Prop :=
  Command.ofLine? line = some ⟨verb.name, argument⟩

theorem Asks.unique {line argument argument' : Text} {verb verb' : Verb} (h : Asks line verb argument)
    (h' : Asks line verb' argument') : verb' = verb ∧ argument' = argument := by
  unfold Asks at h h'
  rw [h] at h'
  obtain ⟨hname, rfl⟩ := Command.mk.inj (Option.some.inj h')
  have hverb := congrArg Verb.ofName? hname
  rw [Verb.ofName?_name, Verb.ofName?_name] at hverb
  exact ⟨(Option.some.inj hverb).symm, rfl⟩

/-- What the argument of a command names; the other commands have no use for an argument. -/
def Verb.target? : Verb → Option Target
  | .cd => some .directory
  | .mkdir => some .directory
  | .delete => some .file
  | .get => some .file
  | .put => some .file
  | _ => none

/-- Lines that ask for nothing the files are needed for: blank ones, those that begin with a word that is no
verb, and those that lack a name. -/
inductive AsksNothing : Text → Response → Prop where
  | blank {line : Text} (hline : ∀ c ∈ line, Text.isBlank c = true) : AsksNothing line (.bare [])
  | unknown {before word after : Text} (hbefore : ∀ c ∈ before, Text.isBlank c = true) (hne : word ≠ [])
      (hword : ∀ c ∈ word, Text.isBlank c = false)
      (hafter : ∀ c, after.head? = some c → Text.isBlank c = true) (hverb : ∀ verb : Verb, verb.name ≠ word) :
      AsksNothing (before ++ word ++ after) (.framed .error (text "Invalid command."))
  | unnamed {before after : Text} {verb : Verb} {target : Target}
      (hbefore : ∀ c ∈ before, Text.isBlank c = true) (hafter : ∀ c ∈ after, Text.isBlank c = true)
      (htarget : verb.target? = some target) :
      AsksNothing (before ++ verb.name ++ after) (.framed .error (target.name ++ text " name not specified."))

/-- The answer to a line that asks for nothing, if it does. -/
def idleAnswer? (line : Text) : Option Response :=
  match Command.ofLine? line with
  | none => some (.bare [])
  | some command =>
    match Verb.ofName? command.name with
    | none => some CommandError.unknownCommand.response
    | some verb =>
      if command.argument = [] then verb.target?.map fun target => (CommandError.invalidArgument target).response
      else none

theorem idleAnswer?_of_asksNothing {line : Text} {r : Response} (h : AsksNothing line r) :
    idleAnswer? line = some r := by
  unfold idleAnswer?
  cases h with
  | blank hline => rw [Command.ofLine?_blank hline]
  | @unknown before word after hbefore hne hword hafter hverb =>
    have hnone : Verb.ofName? word = none := by
      rw [Option.eq_none_iff_forall_ne_some]
      intro verb hsome
      exact hverb verb (Verb.name_of_ofName? hsome)
    simp only [Command.ofLine?_words hbefore hne hword hafter, hnone]
    rfl
  | @unnamed before after verb target hbefore hafter htarget =>
    have hne : verb.name ≠ [] := by cases verb <;> decide
    have hhead : ∀ c, after.head? = some c → Text.isBlank c = true := fun c hc =>
      hafter c (List.mem_of_mem_head? hc)
    have hend : Text.trimEnd after = [] := by
      rw [Text.trimEnd, Text.dropEndWhile_eq, List.rdropWhile_eq_nil_iff]
      exact hafter
    have hnothing : Text.trim [] = [] := rfl
    simp only [Command.ofLine?_words hbefore hne verb.name_not_blank hhead, hend, hnothing,
      Verb.ofName?_name, htarget, if_true, Option.map_some]
    rfl

/-- Any other line has a verb, and a name if the verb needs one. -/
theorem exists_asks_of_idleAnswer? {line : Text} (h : idleAnswer? line = none) :
    ∃ verb argument, Asks line verb argument ∧ (verb.target?.isSome = true → argument ≠ []) := by
  unfold idleAnswer? at h
  split at h
  · cases h
  · rename_i command hcommand
    split at h
    · cases h
    · rename_i verb hverb
      refine ⟨verb, command.argument, ?_, ?_⟩
      · rw [Asks, hcommand, Verb.name_of_ofName? hverb]
      · rintro hsome hnil
        rw [if_pos hnil, Option.map_eq_none_iff] at h
        rw [h] at hsome
        cases hsome

/-! ## Commands answered by one line -/

/-- What a command with a name resolved to `path` comes to if it is answered by one line: the answer, the
working directory, which was `before`, and what was tried. -/
inductive Told (path before : Path) : Verb → Response → Path → List Attempt → Prop where
  | entered (dir : Path) : Told path before .cd
      (.framed .success (text "Changed directory to " ++ dir.display ++ text ".")) dir [.chdir path (.ok dir)]
  | made : Told path before .mkdir (.framed .success (text "Directory created successfully.")) before
      [.exists path false, .mkdir path (.ok ())]
  | deleted : Told path before .delete (.framed .success (text "File deleted successfully.")) before
      [.exists path true, .remove path (.ok ())]
  | shown {verb : Verb} {attempts : List Attempt} (content : Text) (hverb : verb.target? = none)
      (hnone : ∀ a ∈ attempts, a.succeeded = false) : Told path before verb (.bare content) before attempts
  | refused {verb : Verb} {attempts : List Attempt} (e : CommandError)
      (hnone : ∀ a ∈ attempts, a.succeeded = false) : Told path before verb e.response before attempts

/-- What was tried for an upload to `path` whose payload came whole, and what the client is told. -/
inductive Stores (path : Path) : List Attempt → Response → Prop where
  | completed {writes : List Attempt} (hwrites : Written writes none) :
      Stores path (.create path (.ok ()) :: (writes ++ [.flush (.ok ())]))
        (.framed .success (text "File transfer completed."))
  | notFlushed {writes : List Attempt} (e : IoError) (result : Except IoError Unit) (hwrites : Written writes none) :
      Stores path (.create path (.ok ()) :: (writes ++ [.flush (.error e), .remove path result]))
        (CommandError.io (text "Failed to write file") e).response
  | notWritten {writes : List Attempt} {e : IoError} (result : Except IoError Unit)
      (hwrites : Written writes (some e)) :
      Stores path (.create path (.ok ()) :: (writes ++ [.remove path result]))
        (CommandError.io (text "Failed to write file") e).response

variable {γ ω : Type} [Gateway γ]

namespace Session

variable {s : Session (Attested γ) ω} {argument : Text}

/-- A command is answered by the line `r`, and changes nothing but the gateway and the working directory. -/
structure Comes (s : Session (Attested γ) ω) (path : Path) (verb : Verb) (x : Handled (Attested γ) ω) : Prop where
  session : x.2 = { s with gateway := x.2.gateway, cwd := x.2.cwd }
  told : ∃ r attempts, lineOf? x.1 = some r ∧ x.2.gateway.attempts = s.gateway.attempts ++ attempts ∧
    Told path s.cwd verb r x.2.cwd attempts

namespace Comes

variable {path : Path} {verb : Verb} {g : Attested γ} {attempts : List Attempt}

theorem fail {e : CommandError} (he : e ≠ .disconnected) (hg : g.attempts = s.gateway.attempts ++ attempts)
    (hnone : ∀ a ∈ attempts, a.succeeded = false) :
    s.Comes path verb (({ s with gateway := g } : Session (Attested γ) ω).fail e) :=
  ⟨rfl, e.response, attempts, lineOf?_error he, hg, .refused e hnone⟩

theorem refuse {e : IoError} {target : Target} {context : String}
    (hg : g.attempts = s.gateway.attempts ++ attempts) (hnone : ∀ a ∈ attempts, a.succeeded = false) :
    s.Comes path verb (({ s with gateway := g } : Session (Attested γ) ω).refuse e target context) :=
  .fail (CommandError.ofIo_ne_disconnected e target _) hg hnone

end Comes

theorem comes_printDirectory (path : Path) : s.Comes path .pwd s.printDirectory := by
  refine ⟨rfl, .bare s.cwd.display, [], rfl, (List.append_nil _).symm, ?_⟩
  exact .shown _ rfl (by simp)

theorem comes_listDirectory (path : Path) : s.Comes path .ls s.listDirectory := by
  unfold listDirectory
  split
  · rename_i entries g hlist
    have hg := Attested.attempts_of_attest hlist
    exact ⟨rfl, _, _, rfl, hg, .shown _ rfl (by simp [Attempt.succeeded])⟩
  · rename_i e g hlist
    have hg := Attested.attempts_of_attest hlist
    exact .refuse hg (by simp [Attempt.succeeded])

theorem deleteError_ne_disconnected (e : IoError) : deleteError e ≠ .disconnected := by
  unfold deleteError
  split
  · simp
  · exact CommandError.ofIo_ne_disconnected _ _ _

section

variable (hname : argument ≠ [])

include hname

theorem comes_changeDirectory :
    s.Comes (s.resolve (.ofText argument)) .cd (s.changeDirectory argument) := by
  simp only [changeDirectory, requireName, if_neg hname]
  split
  · rename_i dir g hchdir
    have hg := Attested.attempts_of_attest hchdir
    exact ⟨rfl, _, _, rfl, hg, .entered dir⟩
  · rename_i e g hchdir
    have hg := Attested.attempts_of_attest hchdir
    exact .refuse hg (by simp [Attempt.succeeded])

theorem comes_makeDirectory :
    s.Comes (s.resolve (.ofText argument)) .mkdir (s.makeDirectory argument) := by
  simp only [makeDirectory, requireName, if_neg hname]
  split
  · rename_i g hexists
    have hg := Attested.attempts_of_attest hexists
    exact .fail (by simp) hg (by simp [Attempt.succeeded])
  · rename_i g hexists
    have hg := Attested.attempts_of_attest hexists
    split
    · rename_i g' hmkdir
      have hg' := Attested.attempts_of_attest_append hg hmkdir
      exact ⟨rfl, _, _, rfl, hg', .made⟩
    · rename_i e g' hmkdir
      have hg' := Attested.attempts_of_attest_append hg hmkdir
      exact .refuse hg' (by simp [Attempt.succeeded])

theorem comes_deleteFile : s.Comes (s.resolve (.ofText argument)) .delete (s.deleteFile argument) := by
  simp only [deleteFile, requireName, if_neg hname]
  split
  · rename_i g hexists
    have hg := Attested.attempts_of_attest hexists
    exact .fail (by simp) hg (by simp [Attempt.succeeded])
  · rename_i g hexists
    have hg := Attested.attempts_of_attest hexists
    split
    · rename_i g' hremove
      have hg' := Attested.attempts_of_attest_append hg hremove
      exact ⟨rfl, _, _, rfl, hg', .deleted⟩
    · rename_i e g' hremove
      have hg' := Attested.attempts_of_attest_append hg hremove
      exact .fail (deleteError_ne_disconnected e) hg' (by simp [Attempt.succeeded])

end

variable [Writer ω]

/-- A download is refused by one line, or taken up with nothing changed so far. -/
theorem comes_beginDownload (hname : argument ≠ []) :
    s.Comes (s.resolve (.ofText argument)) .get (s.beginDownload argument) ∨
      ∃ source g attempts, s.beginDownload argument = (.ok .streamed, s.acceptDownload source g) ∧
        g.attempts = s.gateway.attempts ++ attempts ∧ ∀ a ∈ attempts, a.succeeded = false := by
  simp only [beginDownload, requireName, if_neg hname]
  split
  · rename_i g hexists
    have hg := Attested.attempts_of_attest hexists
    exact .inl (.fail (by simp) hg (by simp [Attempt.succeeded]))
  · rename_i g hexists
    have hg := Attested.attempts_of_attest hexists
    split
    · rename_i e g' hopen
      have hg' := Attested.attempts_of_attest_append hg hopen
      exact .inl (.refuse hg' (by simp [Attempt.succeeded]))
    · rename_i source g' hopen
      have hg' := Attested.attempts_of_attest_append hg hopen
      exact .inr ⟨source, g', _, rfl, hg', by simp [Attempt.succeeded]⟩

/-- An upload is refused by one line, or its file is there. -/
theorem comes_beginUpload (hname : argument ≠ []) :
    s.Comes (s.resolve (.ofText argument)) .put (s.beginUpload argument) ∨
      ∃ h g, Gateway.create s.gateway (s.resolve (.ofText argument)) = (.ok h, g) := by
  simp only [beginUpload, requireName, if_neg hname]
  split
  · rename_i e g hcreate
    have hg := Attested.attempts_of_attest hcreate
    exact .inl (.refuse hg (by simp [Attempt.succeeded, Except.map]))
  · rename_i h g hcreate
    exact .inr ⟨h, g, hcreate⟩

/-- Without its name a command is answered before anything is tried. -/
theorem execute_unnamed {s : Session γ ω} {verb : Verb} {target : Target} (htarget : verb.target? = some target) :
    s.execute verb [] = s.fail (.invalidArgument target) := by
  cases verb with
  | pwd | ls | quit => cases htarget
  | cd | mkdir | delete | get | put =>
    cases htarget
    rfl

/-- Where a line leads to from the session `s` with `src` before it, with the answer that was given and what was
tried on the way. -/
inductive Settles (s : Session (Attested γ) ω) (src : Source) (line : Text) :
    Conversation (Attested γ) ω → Option Response → List Attempt → Prop where
  | idle {r : Response} (hidle : idleAnswer? line = some r) : Settles s src line ⟨s.sendResponse r, src⟩ (some r) []
  | told {verb : Verb} {argument : Text} {r : Response} {t : Session (Attested γ) ω} {attempts : List Attempt}
      (hidle : idleAnswer? line = none) (hasks : Asks line verb argument)
      (hsession : t = { s with gateway := t.gateway, cwd := t.cwd, output := (s.sendResponse r).output })
      (hattempts : t.gateway.attempts = s.gateway.attempts ++ attempts)
      (htold : Told (s.resolve (.ofText argument)) s.cwd verb r t.cwd attempts) :
      Settles s src line ⟨t, src⟩ (some r) attempts
  | downloaded {argument : Text} {file : Sending} {t : Session (Attested γ) ω} {attempts : List Attempt}
      (hidle : idleAnswer? line = none) (hasks : Asks line .get argument)
      (hsession : t = { s with
        gateway := t.gateway, registry := s.registry.start.2.finish s.registry.start.1,
        output := (file.run (s.sendResponse (.framed .success transferStart)).output).2 })
      (hattempts : t.gateway.attempts = s.gateway.attempts ++ attempts)
      (hnone : ∀ a ∈ attempts, a.succeeded = false) :
      Settles s src line ⟨t, src⟩ (some (.framed .success transferStart)) attempts
  | uploaded {argument : Text} {payload : Bytes} {r : Response} {t : Conversation (Attested γ) ω}
      {attempts : List Attempt} (hidle : idleAnswer? line = none) (hasks : Asks line .put argument)
      (hpayload : cutAtMarker? (s.input.pending ++ src.content) =
        some (payload, t.session.input.pending ++ t.source.content))
      (hsession : t.session = { s with
        gateway := t.session.gateway, input := t.session.input,
        registry := s.registry.start.2.finish s.registry.start.1,
        output := ((s.sendResponse (.framed .success readyToReceive)).sendResponse r).output })
      (hattempts : t.session.gateway.attempts = s.gateway.attempts ++ attempts)
      (hstores : Stores (s.resolve (.ofText argument)) attempts r) : Settles s src line t (some r) attempts
  | lost {argument : Text} {t : Conversation (Attested γ) ω} {writes : List Attempt} {failure : Option IoError}
      {result : Except IoError Unit} (hidle : idleAnswer? line = none) (hasks : Asks line .put argument)
      (hmarker : ¬ HasMarker (s.input.pending ++ src.content))
      (hsession : t.session = { s with
        gateway := t.session.gateway, input := t.session.input,
        registry := s.registry.start.2.finish s.registry.start.1,
        output := (s.sendResponse (.framed .success readyToReceive)).output, phase := .closed })
      (hwrites : Written writes failure)
      (hattempts : t.session.gateway.attempts = s.gateway.attempts ++
        .create (s.resolve (.ofText argument)) (.ok ()) ::
          (writes ++ [.remove (s.resolve (.ofText argument)) result])) :
      Settles s src line t none (.create (s.resolve (.ofText argument)) (.ok ()) ::
        (writes ++ [.remove (s.resolve (.ofText argument)) result]))
  | quit {argument : Text} (hidle : idleAnswer? line = none) (hasks : Asks line .quit argument) :
      Settles s src line ⟨s.close, src⟩ none []

/-! ## Every line comes to one of these ends -/

section

variable {line : Text} {verb : Verb}

theorem handleLine_of_idle {s : Session γ ω} {r : Response} (h : idleAnswer? line = some r) :
    s.handleLine line = s.sendResponse r := by
  unfold idleAnswer? at h
  split at h
  · rename_i hline
    cases h
    simp only [handleLine, hline]
    rfl
  · rename_i command hcommand
    split at h
    · rename_i hverb
      cases h
      simp only [handleLine, hcommand, hverb]
      rfl
    · rename_i verb hverb
      split at h
      · rename_i hnil
        obtain ⟨target, htarget, rfl⟩ := Option.map_eq_some_iff.mp h
        simp only [handleLine, hcommand, hverb, hnil, execute_unnamed htarget]
        rfl
      · cases h

theorem handleLine_of_asks {s : Session γ ω} (h : Asks line verb argument) :
    s.handleLine line = (s.execute verb argument).2.answer (s.execute verb argument).1 := by
  unfold Asks at h
  simp only [handleLine, h, Verb.ofName?_name]

theorem Settles.of_comes (hidle : idleAnswer? line = none) (hasks : Asks line verb argument)
    (hcomes : s.Comes (s.resolve (.ofText argument)) verb (s.execute verb argument)) (src : Source) :
    ∃ r attempts, s.Settles src line ⟨s.handleLine line, src⟩ (some r) attempts := by
  rw [handleLine_of_asks hasks]
  generalize s.execute verb argument = x at hcomes
  obtain ⟨outcome, s'⟩ := x
  obtain ⟨hsession, r, attempts, hanswer, hattempts, htold⟩ := hcomes
  rw [answer_of_lineOf? hanswer]
  refine ⟨r, attempts, .told hidle hasks ?_ hattempts htold⟩
  rw [hsession]
  rfl

/-- The end of a payload, from what was tried on its file. -/
theorem stores_endPayload {u : Upload (Attested γ)} {before writes : List Attempt}
    (hwrites : Written writes u.reception.failure)
    (hattempts : s.gateway.attempts = before ++ .create u.path (.ok ()) :: writes) :
    ∃ attempts r, Stores u.path attempts r ∧ (s.endPayload u).gateway.attempts = before ++ attempts ∧
      s.endPayload u = { s with
        gateway := (s.endPayload u).gateway, registry := s.registry.finish u.entry,
        output := (s.sendResponse r).output, phase := .command } := by
  have hall (more : List Attempt) : s.gateway.attempts ++ more =
      before ++ .create u.path (.ok ()) :: (writes ++ more) := by
    rw [hattempts, List.append_assoc, List.cons_append]
  cases hfailure : u.reception.failure with
  | some e =>
    rw [hfailure] at hwrites
    rw [endPayload_of_failed (Upload.flush_of_failed hfailure s.gateway)]
    let result := (Gateway.remove (Gateway.close s.gateway u.handle) u.path).1
    refine ⟨_, _, .notWritten result hwrites, ?_, rfl⟩
    rw [← hall]
    rfl
  | none =>
    rw [hfailure] at hwrites
    have hflush := Upload.flush_of_sound hfailure s.gateway
    have htried : (Gateway.flush s.gateway u.handle).2.attempts =
        s.gateway.attempts ++ [.flush (Gateway.flush s.gateway u.handle).1] := rfl
    cases hresult : (Gateway.flush s.gateway u.handle).1 with
    | ok =>
      rw [hresult] at hflush htried
      rw [endPayload_of_sound hflush]
      refine ⟨_, _, .completed hwrites, ?_, rfl⟩
      rw [← hall]
      exact htried
    | error e =>
      rw [hresult] at hflush htried
      rw [endPayload_of_failed hflush]
      let result := (Gateway.remove (Gateway.close (Gateway.flush s.gateway u.handle).2 u.handle) u.path).1
      refine ⟨_, _, .notFlushed e result hwrites, ?_, rfl⟩
      rw [← hall]
      change (Gateway.flush s.gateway u.handle).2.attempts ++ [_] = _
      rw [htried, List.append_assoc]
      rfl

/-- The session `t` receives the upload `w` that `s` accepted for `p`, and has tried `writes` on its file. -/
structure Accepted (s : Session (Attested γ) ω) (p : Path) (t : Session (Attested γ) ω) (w : Upload (Attested γ))
    (writes : List Attempt) : Prop where
  path : w.path = p
  entry : w.entry = s.registry.start.1
  attempts : t.gateway.attempts = s.gateway.attempts ++ .create p (.ok ()) :: writes
  written : Written writes w.reception.failure
  session : t = { s with
    gateway := t.gateway, input := t.input, registry := s.registry.start.2,
    output := (s.sendResponse (.framed .success readyToReceive)).output, phase := .receiving w }

namespace Accepted

variable {t : Session (Attested γ) ω} {w : Upload (Attested γ)} {path : Path} {writes : List Attempt}

theorem of_filling {h : Gateway.Handle (Attested γ)} {g : Attested γ} {b : Bytes}
    (hcreate : Gateway.create s.gateway path = (.ok h, g))
    (hfilling : Filling (s.acceptUpload path h g) ⟨path, h, s.registry.start.1, .fresh⟩ b t w) :
    ∃ writes, s.Accepted path t w writes := by
  obtain ⟨writes, hwrites, hwritten⟩ := Sink.attempts_of_pours hfilling.pours rfl
  have hcreated : g.attempts = s.gateway.attempts ++ [.create path (.ok ())] := by
    have htried := Attested.attempts_of_attest hcreate
    exact htried
  refine ⟨writes, ?_, ?_, ?_, hwritten, hfilling.session⟩
  · rw [hfilling.upload]
  · rw [hfilling.upload]
  · change t.gateway.attempts = g.attempts ++ writes at hwrites
    rw [hwrites, hcreated, List.append_assoc]
    rfl

/-- Its marker came: the file is whole, or taken away. -/
theorem uploaded (h : s.Accepted (s.resolve (.ofText argument)) t w writes) (hphase : s.phase = .command)
    (hidle : idleAnswer? line = none) (hasks : Asks line .put argument) {src src' : Source} {payload : Bytes}
    (hcut : cutAtMarker? (s.input.pending ++ src.content) = some (payload, t.input.pending ++ src'.content)) :
    ∃ r attempts, s.Settles src line ⟨t.endPayload w, src'⟩ (some r) attempts := by
  have hattempts := h.attempts
  rw [← h.path] at hattempts
  obtain ⟨attempts, r, hstores, htried, hsession⟩ := stores_endPayload h.written hattempts
  rw [h.path] at hstores
  have hinput : (t.endPayload w).input = t.input := input_endPayload t w
  rw [← hinput] at hcut
  refine ⟨r, attempts, .uploaded hidle hasks hcut ?_ htried hstores⟩
  refine hsession.trans ?_
  rw [hinput, h.entry, h.session, ← hphase]
  rfl

/-- Its client was lost. -/
theorem lost (h : s.Accepted (s.resolve (.ofText argument)) t w writes) (hidle : idleAnswer? line = none)
    (hasks : Asks line .put argument) {src : Source} (hmarker : ¬ HasMarker (s.input.pending ++ src.content))
    (src' : Source) :
    ∃ attempts, s.Settles src line ⟨t.abandonUpload w, src'⟩ none attempts := by
  let result := (Gateway.remove (Gateway.close t.gateway w.handle) w.path).1
  have htried : (t.abandonUpload w).gateway.attempts = s.gateway.attempts ++
      .create (s.resolve (.ofText argument)) (.ok ()) ::
        (writes ++ [.remove (s.resolve (.ofText argument)) result]) := by
    change t.gateway.attempts ++ [.remove w.path result] = _
    rw [h.attempts, h.path, List.append_assoc]
    rfl
  have hsession : t.abandonUpload w = { s with
      gateway := (t.abandonUpload w).gateway, input := (t.abandonUpload w).input,
      registry := s.registry.start.2.finish s.registry.start.1,
      output := (s.sendResponse (.framed .success readyToReceive)).output, phase := .closed } := by
    change { t with
      gateway := (t.abandonUpload w).gateway, registry := t.registry.finish w.entry, phase := .closed } = _
    rw [h.entry, h.session]
    rfl
  exact ⟨_, .lost hidle hasks hmarker hsession h.written htried⟩

end Accepted

theorem sendAll_acceptDownload {s : Session γ ω} (hs : s.phase = .command) (source : Source) (g : γ) :
    (s.acceptDownload source g).sendAll s.registry.start.1 (.ofSource source) = { s with
      gateway := g, registry := s.registry.start.2.finish s.registry.start.1,
      output := ((Sending.ofSource source).run (s.sendResponse (.framed .success transferStart)).output).2 } := by
  rw [hs]
  rfl

end

end Session

namespace Conversation

variable [Writer ω]

/-- A file that is being sent is sent to its end. -/
theorem goesTo_sendAll {s : Session γ ω} {entry : Guard} {file : Sending}
    (h : s.phase = .sending entry file) (src : Source) :
    (⟨s, src⟩ : Conversation γ ω).GoesTo ⟨s.sendAll entry file, src⟩ := by
  generalize hn : s.unsent = n
  induction n using Nat.strongRecOn generalizing s file with
  | ind n ih =>
    have hstep : s.advance? = some (s.sendChunk entry file) := by simp [Session.advance?, h]
    apply GoesTo.head
    rw [go_of_advance? hstep]
    rcases s.sendChunk_eq entry file with ⟨rest, hphase, hall⟩ | hall
    · have hless := (Session.unsent_sendChunk_lt s entry file h).2
      rw [hn] at hless
      rw [← hall]
      exact ih _ hless hphase rfl
    · rw [hall]
      exact .refl _

variable {c : Conversation (Attested γ) ω} {line argument : Text} {rest : InputBuffer}

/-- An upload comes to its marker, and its file is whole or taken away; or its client is lost, and it is
taken away too. -/
theorem settles_upload (hphase : c.session.phase = .command) (hline : c.session.input.nextLine = .line line rest)
    (hidle : idleAnswer? line = none) (hasks : Asks line .put argument) (hname : argument ≠ [])
    {h : Gateway.Handle (Attested γ)} {g : Attested γ}
    (hcreate : Gateway.create c.session.gateway (c.session.resolve (.ofText argument)) = (.ok h, g)) :
    ∃ t verdict attempts, c.GoesTo t ∧
      (c.session.withInput rest).Settles c.source line t verdict attempts := by
  obtain ⟨s, w, src, payload, hfilling, hend⟩ := fills_put hphase hline hasks hname hcreate
  obtain ⟨writes, haccepted⟩ := Session.Accepted.of_filling (s := c.session.withInput rest) hcreate hfilling
  rcases hend with ⟨hcut, hgo⟩ | ⟨hcut, -, hgo⟩
  · obtain ⟨r, attempts, hsettles⟩ := haccepted.uploaded hphase hidle hasks hcut
    exact ⟨_, _, _, hgo, hsettles⟩
  · have hlose : s.lose = s.abandonUpload w := by simp only [Session.lose, hfilling.phase]
    rw [hlose] at hgo
    obtain ⟨attempts, hsettles⟩ := haccepted.lost hidle hasks (cutAtMarker?_eq_none_iff.mp hcut) src
    exact ⟨_, _, _, hgo, hsettles⟩

/-- Whatever a line asks for, it comes to one of its ends. -/
theorem settles (hphase : c.session.phase = .command) (hline : c.session.input.nextLine = .line line rest) :
    ∃ t verdict attempts, c.GoesTo t ∧
      (c.session.withInput rest).Settles c.source line t verdict attempts := by
  have hstep := Session.advance?_of_line hphase hline
  have hgo : c.GoesTo ⟨(c.session.withInput rest).handleLine line, c.source⟩ := by
    apply GoesTo.head
    rw [go_of_advance? hstep]
    exact .refl _
  cases hidle : idleAnswer? line with
  | some r =>
    rw [Session.handleLine_of_idle hidle] at hgo
    exact ⟨_, _, _, hgo, .idle hidle⟩
  | none =>
    obtain ⟨verb, argument, hasks, hname⟩ := exists_asks_of_idleAnswer? hidle
    have htold (hcomes : (c.session.withInput rest).Comes ((c.session.withInput rest).resolve (.ofText argument))
        verb ((c.session.withInput rest).execute verb argument)) : ∃ t verdict attempts, c.GoesTo t ∧
          (c.session.withInput rest).Settles c.source line t verdict attempts := by
      obtain ⟨r, attempts, hsettles⟩ := Session.Settles.of_comes hidle hasks hcomes c.source
      exact ⟨_, _, _, hgo, hsettles⟩
    cases verb with
    | pwd => exact htold (Session.comes_printDirectory _)
    | ls => exact htold (Session.comes_listDirectory _)
    | cd => exact htold (Session.comes_changeDirectory (hname rfl))
    | mkdir => exact htold (Session.comes_makeDirectory (hname rfl))
    | delete => exact htold (Session.comes_deleteFile (hname rfl))
    | get =>
      rcases Session.comes_beginDownload (s := c.session.withInput rest) (hname rfl) with
        hcomes | ⟨source, g, attempts, hbegins, hattempts, hnone⟩
      · exact htold hcomes
      · have hhandled : (c.session.withInput rest).handleLine line =
            (c.session.withInput rest).acceptDownload source g := by
          rw [Session.handleLine_of_asks hasks, Session.execute, hbegins]
          rfl
        rw [hhandled] at hgo
        have hsent := Session.sendAll_acceptDownload (s := c.session.withInput rest) hphase source g
        have hgo' := hgo.trans (goesTo_sendAll rfl c.source)
        rw [hsent] at hgo'
        exact ⟨_, _, _, hgo', .downloaded hidle hasks rfl hattempts hnone⟩
    | put =>
      rcases Session.comes_beginUpload (s := c.session.withInput rest) (hname rfl) with hcomes | ⟨h, g, hcreate⟩
      · exact htold hcomes
      · exact settles_upload hphase hline hidle hasks (hname rfl) hcreate
    | quit =>
      rw [Session.handleLine_of_asks hasks] at hgo
      exact ⟨_, _, _, hgo, .quit hidle hasks⟩

end Conversation

end FileFerry
