import FileFerry.Client.Run

/-!
# What a client does with a typed line

All that a client can do at its prompt (`Prompts`), with a typed line (`Executes`) and with a command that it is to
cancel (`Terminates`). What it tells goes to its terminal and what it asks to its server; either all of it
goes well and the client goes on, or something breaks and that ends the client.
-/

set_option autoImplicit false

namespace FileFerry

namespace Writer

variable {ω : Type} [Writer ω]

/-- Some writes and flushes go well. -/
inductive Goes : ω → ω → Prop where
  | refl (w : ω) : Goes w w
  | write {w w' w'' : ω} {b : Bytes} (h : writeAll w b = (.ok (), w')) (next : Goes w' w'') : Goes w w''
  | flush {w w' w'' : ω} (h : Writer.flush w = (.ok (), w')) (next : Goes w' w'') : Goes w w''

/-- Some go well, and then one fails. -/
inductive Breaks (w : ω) (e : IoError) (w'' : ω) : Prop where
  | write {w' : ω} {b : Bytes} (hgoes : Goes w w') (h : writeAll w' b = (.error e, w''))
  | flush {w' : ω} (hgoes : Goes w w') (h : Writer.flush w' = (.error e, w''))

variable {w w' w'' : ω} {b : Bytes} {e : IoError}

theorem Goes.trans (h : Goes w w') (h' : Goes w' w'') : Goes w w'' := by
  induction h with
  | refl => exact h'
  | write hwritten _ ih => exact .write hwritten (ih h')
  | flush hflushed _ ih => exact .flush hflushed (ih h')

theorem Breaks.after (hgoes : Goes w w') (h : Breaks w' e w'') : Breaks w e w'' := by
  cases h with
  | write hgoes' h => exact .write (hgoes.trans hgoes') h
  | flush hgoes' h => exact .flush (hgoes.trans hgoes') h

theorem goes_of_send (h : send w b = (.ok (), w')) : Goes w w' := by
  unfold send at h
  split at h
  · rename_i hwritten
    exact .write hwritten (.flush h (.refl w'))
  · cases h

theorem breaks_of_send (h : send w b = (.error e, w')) : Breaks w e w' := by
  unfold send at h
  split at h
  · rename_i hwritten
    exact .flush (.write hwritten (.refl _)) h
  · rename_i hwritten
    cases h
    exact .write (.refl w) hwritten

end Writer

namespace Client

/-! ## To tell and to ask -/

variable {φ τ κ δ : Type} [Gateway φ] [Writer τ]

theorem print_cases (c : Client φ τ κ δ) (t : Text) :
    (∃ terminal, c.print t = (.ok (), { c with terminal }) ∧ Writer.Goes c.terminal terminal) ∨
      ∃ e terminal, c.print t = (.error (.output e), { c with terminal }) ∧ Writer.Breaks c.terminal e terminal := by
  unfold print
  split
  · rename_i e terminal hwritten
    exact .inr ⟨e, terminal, rfl, .write (.refl _) hwritten⟩
  · rename_i terminal hwritten
    rcases hnewline : Writer.writeAll terminal [newline] with ⟨e | _, terminal'⟩
    · exact .inr ⟨e, terminal', rfl, .write (.write hwritten (.refl _)) hnewline⟩
    · exact .inl ⟨terminal', rfl, .write hwritten (.write hnewline (.refl _))⟩

/-- What is told is followed by the next prompt, unless the terminal breaks. -/
theorem tell_cases (c : Client φ τ κ δ) (t : Text) :
    (∃ terminal, c.tell t = { c with terminal, phase := .prompt } ∧ Writer.Goes c.terminal terminal) ∨
      ∃ e terminal, c.tell t = { c with terminal, phase := .finished (.error (.output e)) } ∧
        Writer.Breaks c.terminal e terminal := by
  unfold tell
  obtain ⟨terminal, hprint, hgoes⟩ | ⟨e, terminal, hprint, hbreaks⟩ := print_cases c t
  · rw [hprint]
    exact .inl ⟨terminal, rfl, hgoes⟩
  · rw [hprint]
    exact .inr ⟨e, terminal, rfl, hbreaks⟩

theorem report_of_fatal {c : Client φ τ κ δ} {e : ClientError} (h : e.isFatal = true) :
    c.report e = c.finish (.error e) := by
  rw [report, if_pos h]

theorem report_of_not_fatal {c : Client φ τ κ δ} {e : ClientError} (h : e.isFatal = false) :
    c.report e = c.tell e.message := by
  rw [report, if_neg (Bool.eq_false_iff.mp h)]

theorem showPrompt_cases (c : Client φ τ κ δ) :
    (∃ terminal, c.showPrompt = (.ok (), { c with terminal }) ∧
        Writer.send c.terminal (Utf8.encode prompt) = (.ok (), terminal)) ∨
      ∃ e terminal, c.showPrompt = (.error (.output e), { c with terminal }) ∧
        Writer.Breaks c.terminal e terminal := by
  unfold showPrompt
  rcases hsend : Writer.send c.terminal (Utf8.encode prompt) with ⟨e | _, terminal⟩
  · exact .inr ⟨e, terminal, rfl, Writer.breaks_of_send hsend⟩
  · exact .inl ⟨terminal, rfl, rfl⟩

theorem phase_tell_cases (c : Client φ τ κ δ) (t : Text) :
    (c.tell t).phase = .prompt ∨ ∃ e, (c.tell t).phase = .finished (.error (.output e)) := by
  obtain ⟨terminal, htell, -⟩ | ⟨e, terminal, htell, -⟩ := tell_cases c t
  · exact .inl (congrArg phase htell)
  · exact .inr ⟨e, congrArg phase htell⟩

variable [Writer κ]

theorem ask_cases (c : Client φ τ κ δ) (line : Text) (phase : ClientPhase φ) :
    (∃ output, c.ask line phase = { c with output, phase } ∧
        Writer.send c.output (Utf8.encode (line ++ ['\n'])) = (.ok (), output)) ∨
      ∃ e output, c.ask line phase = { c with output, phase := .finished (.error (.sendRequest e)) } ∧
        Writer.send c.output (Utf8.encode (line ++ ['\n'])) = (.error e, output) := by
  unfold ask
  rcases hsend : Writer.send c.output (Utf8.encode (line ++ ['\n'])) with ⟨e | _, output⟩
  · exact .inr ⟨e, output, rfl, rfl⟩
  · exact .inl ⟨output, rfl, rfl⟩

theorem phase_ask_cases (c : Client φ τ κ δ) (line : Text) (next : ClientPhase φ) :
    (c.ask line next).phase = next ∨ ∃ e, (c.ask line next).phase = .finished (.error (.sendRequest e)) := by
  obtain ⟨output, hask, -⟩ | ⟨e, output, hask, -⟩ := ask_cases c line next
  · exact .inl (congrArg phase hask)
  · exact .inr ⟨e, congrArg phase hask⟩

/-! ## To cancel -/

variable [Canceller δ]

/-- What becomes of a client that is to cancel a command: it tells how that went, and shows the next prompt. But it
ends if the request could not be written. -/
inductive Terminates (c : Client φ τ κ δ) (argument : Text) : Client φ τ κ δ → Prop where
  | malformed {reason : NumberError} (h : Decimal.readNat Decimal.maxUnsigned argument = .error reason) :
      Terminates c argument (c.tell (ClientError.commandId reason).message)
  | undialled {n : Nat} {reason : DialFailure} {canceller : δ}
      (h : Decimal.readNat Decimal.maxUnsigned argument = .ok n)
      (hrequest : Canceller.request c.canceller (CommandId.request ⟨UInt64.ofNat n⟩) =
        (.error (.undialled reason), canceller)) :
      Terminates c argument
        ({ c with canceller }.tell (reason.error (endpointText c.settings.host c.settings.cancelPort)).message)
  | requested {n : Nat} {canceller : δ} (h : Decimal.readNat Decimal.maxUnsigned argument = .ok n)
      (hrequest : Canceller.request c.canceller (CommandId.request ⟨UInt64.ofNat n⟩) = (.ok (), canceller)) :
      Terminates c argument ({ c with canceller }.tell
        (text "Cancellation requested for command " ++ CommandId.toText ⟨UInt64.ofNat n⟩ ++ ['.']))
  | unsent {n : Nat} {e : IoError} {canceller : δ} (h : Decimal.readNat Decimal.maxUnsigned argument = .ok n)
      (hrequest : Canceller.request c.canceller (CommandId.request ⟨UInt64.ofNat n⟩) =
        (.error (.unsent e), canceller)) :
      Terminates c argument ({ c with canceller }.finish (.error (.sendRequest e)))

omit [Writer κ] in
theorem terminates (c : Client φ τ κ δ) (argument : Text) : Terminates c argument (c.terminate argument) := by
  unfold terminate
  split
  · exact .malformed ‹_›
  · rename_i n hn
    dsimp only
    split
    · exact .requested hn ‹_›
    · rename_i reason canceller hrequest
      cases reason with
      | undialled reason =>
        have hdialled : (reason.error (endpointText c.settings.host c.settings.cancelPort)).isFatal = false := by
          cases reason <;> rfl
        rw [RequestFailure.error, report_of_not_fatal hdialled]
        exact .undialled hn hrequest
      | unsent e =>
        rw [RequestFailure.error, report_of_fatal rfl]
        exact .unsent hn hrequest

omit [Writer κ] in
theorem terminate_eq (c : Client φ τ κ δ) (argument : Text) :
    ∃ terminal canceller phase, c.terminate argument = { c with terminal, canceller, phase } := by
  have hends := terminates c argument
  generalize c.terminate argument = c' at hends
  cases hends with
  | malformed =>
    obtain ⟨terminal, phase, htell⟩ := tell_eq c _
    exact ⟨terminal, c.canceller, phase, htell⟩
  | @undialled _ _ canceller | @requested _ canceller =>
    obtain ⟨terminal, phase, htell⟩ := tell_eq { c with canceller } _
    exact ⟨terminal, canceller, phase, htell⟩
  | @unsent _ _ canceller => exact ⟨c.terminal, canceller, _, rfl⟩

/-! ## A typed line -/

/-- What a client does with a typed line. -/
inductive Executes (c : Client φ τ κ δ) (line : Text) : Client φ τ κ δ → Prop where
  | quits (hverb : Text.firstWord line = quitRequest) : Executes c line (c.ask quitRequest (.finished (.ok ())))
  | downloads (hget : Text.firstWord line = text "get" ∧ Text.afterFirstWord line ≠ []) :
      Executes c line
        (c.ask (downloadRequest (Text.afterFirstWord line)) (.downloadReply (Text.afterFirstWord line)))
  | uploads {source : Source} {files : φ} (hput : Text.firstWord line = text "put" ∧ Text.afterFirstWord line ≠ [])
      (hopen : Gateway.openFile c.files (c.localPath (Text.afterFirstWord line)) = (.ok source, files)) :
      Executes c line ({ c with files }.ask (uploadRequest (Text.afterFirstWord line))
        (.uploadReply (Text.afterFirstWord line) (c.localPath (Text.afterFirstWord line)) source))
  | lacksFile {e : IoError} {files : φ} (hput : Text.firstWord line = text "put" ∧ Text.afterFirstWord line ≠ [])
      (hopen : Gateway.openFile c.files (c.localPath (Text.afterFirstWord line)) = (.error e, files)) :
      Executes c line ({ c with files }.report (.localFile (c.localPath (Text.afterFirstWord line)) e))
  | cancels (hverb : Text.firstWord line = text "terminate") :
      Executes c line (c.terminate (Text.afterFirstWord line))
  | asks (hquit : Text.firstWord line ≠ quitRequest)
      (hget : ¬ (Text.firstWord line = text "get" ∧ Text.afterFirstWord line ≠ []))
      (hput : ¬ (Text.firstWord line = text "put" ∧ Text.afterFirstWord line ≠ []))
      (hcancel : Text.firstWord line ≠ text "terminate") : Executes c line (c.ask line .reply)

theorem executes (c : Client φ τ κ δ) (line : Text) : Executes c line (c.execute line) := by
  unfold execute
  dsimp only
  split
  · exact .quits ‹_›
  · split
    · exact .downloads ‹_›
    · split
      · rename_i hput
        unfold beginUpload
        dsimp only
        split
        · exact .lacksFile hput ‹_›
        · exact .uploads hput ‹_›
      · split
        · exact .cancels ‹_›
        · exact .asks ‹_› ‹_› ‹_› ‹_›

theorem execute_get {c : Client φ τ κ δ} {line name : Text} (hverb : Text.firstWord line = text "get")
    (hname : Text.afterFirstWord line = name) (hne : name ≠ []) :
    c.execute line = c.ask (downloadRequest name) (.downloadReply name) := by
  have hquit : Text.firstWord line ≠ quitRequest := by
    rw [hverb]
    decide
  rw [execute, if_neg hquit, hname, if_pos ⟨hverb, hne⟩]

theorem execute_put {c : Client φ τ κ δ} {line name : Text} (hverb : Text.firstWord line = text "put")
    (hname : Text.afterFirstWord line = name) (hne : name ≠ []) : c.execute line = c.beginUpload name := by
  have hquit : Text.firstWord line ≠ quitRequest := by
    rw [hverb]
    decide
  have hget : ¬ (Text.firstWord line = text "get" ∧ Text.afterFirstWord line ≠ []) := by
    rw [hverb]
    exact fun h => absurd h.1 (by decide)
  rw [execute, if_neg hquit, if_neg hget, hname, if_pos ⟨hverb, hne⟩]

omit [Canceller δ] in
theorem beginUpload_of_unopened {c : Client φ τ κ δ} {name : Text} {e : IoError} {files : φ}
    (hopen : Gateway.openFile c.files (c.localPath name) = (.error e, files)) :
    c.beginUpload name =
      ({ c with files } : Client φ τ κ δ).tell (ClientError.localFile (c.localPath name) e).message := by
  simp only [beginUpload, hopen]
  exact report_of_not_fatal rfl

/-! ## At the prompt -/

/-- What a client does at its prompt. -/
inductive Prompts (c : Client φ τ κ δ) : Client φ τ κ δ → Prop where
  | breaks {e : IoError} {terminal : τ} (h : Writer.Breaks c.terminal e terminal) :
      Prompts c ({ c with terminal }.finish (.error (.output e)))
  | ends {terminal : τ} {output : κ} (hkey : c.keyboard = [])
      (hsend : Writer.send c.output (Utf8.encode (quitRequest ++ ['\n'])) = (.ok (), output)) :
      Prompts c ({ c with terminal, output }.finish (.ok ()))
  | endsUnsent {e : IoError} {terminal : τ} {output : κ} (hkey : c.keyboard = [])
      (hsend : Writer.send c.output (Utf8.encode (quitRequest ++ ['\n'])) = (.error e, output)) :
      Prompts c ({ c with terminal, output }.finish (.error (.sendRequest e)))
  | fails {e : IoError} {terminal : τ} {rest : List (Except IoError Bytes)} (hkey : c.keyboard = .error e :: rest) :
      Prompts c ({ c with terminal, keyboard := rest }.finish (.error (.input e)))
  | illFormed {bytes : Bytes} {terminal : τ} {rest : List (Except IoError Bytes)}
      (hkey : c.keyboard = .ok bytes :: rest) (hline : Utf8.decode? bytes = none) :
      Prompts c ({ c with terminal, keyboard := rest }.finish (.error (.input illFormedInput)))
  | blank {bytes : Bytes} {terminal : τ} {rest : List (Except IoError Bytes)} {line : Text}
      (hkey : c.keyboard = .ok bytes :: rest) (hline : Utf8.decode? bytes = some line) (htrim : Text.trim line = []) :
      Prompts c ({ c with terminal, keyboard := rest }.toPrompt)
  | executes {bytes : Bytes} {terminal : τ} {rest : List (Except IoError Bytes)} {line : Text}
      (hshow : Writer.send c.terminal (Utf8.encode prompt) = (.ok (), terminal))
      (hkey : c.keyboard = .ok bytes :: rest) (hline : Utf8.decode? bytes = some line) :
      Prompts c ({ c with terminal, keyboard := rest }.execute (Text.trim line))

theorem prompts (c : Client φ τ κ δ) : Prompts c c.takeCommand := by
  unfold takeCommand
  obtain ⟨terminal, hprompt, hshow⟩ | ⟨e, terminal, hprompt, hbreaks⟩ := showPrompt_cases c
  · rw [hprompt]
    dsimp only
    split
    · rename_i hkey
      split
      · exact .ends hkey ‹_›
      · exact .endsUnsent hkey ‹_›
    · exact .fails ‹_›
    · rename_i bytes rest hkey
      split
      · exact .illFormed hkey ‹_›
      · rename_i line hline
        split
        · exact .blank hkey hline ‹_›
        · rename_i htrim
          rw [← htrim]
          exact .executes hshow hkey hline
  · rw [hprompt]
    exact .breaks hbreaks

end Client

end FileFerry
