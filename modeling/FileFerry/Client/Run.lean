import FileFerry.Client.Basic

/-! What a client does with each typed line and with what the server sends. Every step uses up a typed
line or some received bytes, or sends a chunk of a file, so a client always comes to wait for its
server or to its end. -/

set_option autoImplicit false

namespace FileFerry

variable {φ τ κ δ : Type} [Gateway φ]

def prompt : Text := text "myftp> "

/-- The failure to read a line that is no UTF-8. -/
def illFormedInput : IoError :=
  .described .invalidData (text "stream did not contain valid UTF-8")

namespace Client

section Steps

variable [Writer τ] [Writer κ] [Canceller δ]

def localPath (c : Client φ τ κ δ) (name : Text) : Path := c.settings.localDir.join (.ofText name)

def terminate (c : Client φ τ κ δ) (argument : Text) : Client φ τ κ δ :=
  match Decimal.readNat Decimal.maxUnsigned argument with
  | .error reason => c.report (.commandId reason)
  | .ok n =>
    let id : CommandId := ⟨UInt64.ofNat n⟩
    match Canceller.request c.canceller id.request with
    | (.ok (), canceller) =>
      { c with canceller }.tell (text "Cancellation requested for command " ++ id.toText ++ ['.'])
    | (.error reason, canceller) =>
      { c with canceller }.report
        (reason.error (endpointText c.settings.host c.settings.cancelPort))

/-- Begins an upload; the local file comes first, so that the server is not asked in vain. -/
def beginUpload (c : Client φ τ κ δ) (name : Text) : Client φ τ κ δ :=
  let path := c.localPath name
  match Gateway.openFile c.files path with
  | (.error e, files) => { c with files }.report (.localFile path e)
  | (.ok source, files) => { c with files }.ask (uploadRequest name) (.uploadReply name path source)

/-- Does what a typed line asks for; the line has no blanks at its ends and is not empty. -/
def execute (c : Client φ τ κ δ) (line : Text) : Client φ τ κ δ :=
  let verb := Text.firstWord line
  let argument := Text.afterFirstWord line
  if verb = quitRequest then c.ask quitRequest (.finished (.ok ()))
  else if verb = text "get" ∧ argument ≠ [] then
    c.ask (downloadRequest argument) (.downloadReply argument)
  else if verb = text "put" ∧ argument ≠ [] then c.beginUpload argument
  else if verb = text "terminate" then c.terminate argument
  else c.ask line .reply

def showPrompt (c : Client φ τ κ δ) : Except ClientError Unit × Client φ τ κ δ :=
  let (result, terminal) := Writer.send c.terminal (Utf8.encode prompt)
  (result.mapError .output, { c with terminal })

/-- Shows the prompt and takes the next typed line; at the end of the input the server is told. -/
def takeCommand (c : Client φ τ κ δ) : Client φ τ κ δ :=
  match c.showPrompt with
  | (.error e, c) => c.finish (.error e)
  | (.ok (), c) =>
    match c.keyboard with
    | [] =>
      match Writer.send c.output (Utf8.encode (quitRequest ++ ['\n'])) with
      | (.ok (), output) => { c with output }.finish (.ok ())
      | (.error e, output) => { c with output }.finish (.error (.sendRequest e))
    | .error e :: rest => { c with keyboard := rest }.finish (.error (.input e))
    | .ok line :: rest =>
      let c := { c with keyboard := rest }
      match Utf8.decode? line with
      | none => c.finish (.error (.input illFormedInput))
      | some line =>
        match Text.trim line with
        | [] => c.toPrompt
        | x :: xs => c.execute (x :: xs)

/-- Takes up a download that the server began: the local file is made. -/
def acceptDownload (c : Client φ τ κ δ) (name : Text) : Client φ τ κ δ :=
  let path := c.localPath name
  match Gateway.create c.files path with
  | (.ok handle, files) =>
    { c with files, phase := .payload ⟨name, path, some handle, .fresh⟩ }
  | (.error e, files) =>
    { c with files, phase := .payload ⟨name, path, none, { Reception.fresh with failure := some e }⟩ }

/-- Ends a download whose marker came. A file that could not be written whole is removed. -/
def completeDownload (c : Client φ τ κ δ) (d : Download φ) (r : Reception) : Client φ τ κ δ :=
  let closed := match d.handle with
    | some handle => Gateway.close c.files handle
    | none => c.files
  match r.failure with
  | none =>
    { c with files := closed }.tell
      (text "Downloaded " ++ d.name ++ text " (" ++ Decimal.ofNat r.received ++ text " bytes).")
  | some e =>
    let files := if d.handle.isSome then (Gateway.remove closed d.path).2 else closed
    { c with files }.report (.localFile d.path e)

def takePayload (c : Client φ τ κ δ) (d : Download φ) : Client φ τ κ δ :=
  match d.reception.take (⟨c.files, d.handle⟩ : LocalSink φ) c.pending with
  | (none, reception, sink) =>
    { c with files := sink.files, pending := [], phase := .payload { d with reception } }
  | (some trailing, reception, sink) =>
    { c with files := sink.files, pending := trailing }.completeDownload d reception

def sendChunk (c : Client φ τ κ δ) (path : Path) (file : Sending) : Client φ τ κ δ :=
  match file.step c.output with
  | (.more rest, output) => { c with output, phase := .sending path rest }
  | (.ended sent, output) => { c with output, phase := .verdict path sent }

/-- Ends an upload: what the server says, and then what went wrong here. -/
def completeUpload (c : Client φ τ κ δ) (path : Path) (sent : Transmission) (verdict : Response) :
    Client φ τ κ δ :=
  match c.print verdict.render with
  | (.error e, c) => c.finish (.error e)
  | (.ok (), c) =>
    match sent with
    | .sent _ => c.toPrompt
    | .sourceFailed e => c.report (.localFile path e)
    | .outputFailed e => c.report (.sendRequest e)

def takeLine (c : Client φ τ κ δ) (line : Text) : Client φ τ κ δ :=
  let response := Response.ofLine line
  match c.phase with
  | .greeting => c.tell line
  | .reply => c.tell response.render
  | .downloadReply name =>
    if response.accepts downloadAccepted then c.acceptDownload name else c.tell response.render
  | .uploadReply _ path source =>
    if response.accepts uploadAccepted then { c with phase := .sending path (.ofSource source) }
    else c.tell response.render
  | .verdict path sent => c.completeUpload path sent response
  | .prompt | .payload _ | .sending _ _ | .finished _ => c

/-- One step; none when more has to be read, or nothing will be. -/
def advance? (c : Client φ τ κ δ) : Option (Client φ τ κ δ) :=
  match c.phase with
  | .finished _ => none
  | .prompt => some c.takeCommand
  | .payload d => if c.pending = [] then none else some (c.takePayload d)
  | .sending path file => some (c.sendChunk path file)
  | .greeting | .reply | .downloadReply _ | .uploadReply _ _ _ | .verdict _ _ =>
    match takeLine? c.pending with
    | none => none
    | some (line, rest) => some ({ c with pending := rest }.takeLine line)

end Steps

/-! ## What a step uses up -/

/-- The inputs not used yet, and the end of the client. -/
def unused (c : Client φ τ κ δ) : Nat :=
  c.keyboard.length + c.pending.length + if c.isFinished then 0 else 1

theorem unused_finish_lt (c c' : Client φ τ κ δ) (h : c.isFinished = false)
    (hi : c'.inputs = c.inputs) (result : Except ClientError Unit) :
    (c'.finish result).unused < c.unused := by
  obtain ⟨hk, hp⟩ := Prod.mk.inj hi
  simp [unused, finish, isFinished, hk, hp] at *
  simp [h]

theorem unused_lt_of_inputs {c c' : Client φ τ κ δ} (h : c.isFinished = false)
    {keyboard : List (Except IoError Bytes)} {pending : Bytes} (hi : c'.inputs = (keyboard, pending))
    (hlt : keyboard.length + pending.length < c.keyboard.length + c.pending.length) :
    c'.unused < c.unused := by
  obtain ⟨rfl, rfl⟩ := Prod.mk.inj hi
  simp only [unused, h]
  split <;> simp <;> omega

theorem inputs_acceptDownload (c : Client φ τ κ δ) (name : Text) :
    (c.acceptDownload name).inputs = c.inputs := by
  simp only [acceptDownload]
  split <;> rfl

variable [Writer τ]

theorem inputs_showPrompt (c : Client φ τ κ δ) : c.showPrompt.2.inputs = c.inputs := rfl

theorem inputs_completeDownload (c : Client φ τ κ δ) (d : Download φ) (r : Reception) :
    (c.completeDownload d r).inputs = c.inputs := by
  simp only [completeDownload]
  split
  · rw [inputs_tell]; rfl
  · rw [inputs_report]; rfl

theorem unused_takePayload_lt (c : Client φ τ κ δ) (d : Download φ) (h : c.isFinished = false)
    (hne : c.pending ≠ []) : (c.takePayload d).unused < c.unused := by
  have hpos := List.length_pos_iff.mpr hne
  unfold takePayload
  split
  · exact unused_lt_of_inputs h rfl (by simp; omega)
  · rename_i ht
    have hlt := Reception.length_trailing_lt ht
    exact unused_lt_of_inputs h (inputs_completeDownload ..) (by simp; omega)

theorem inputs_completeUpload (c : Client φ τ κ δ) (path : Path) (sent : Transmission)
    (verdict : Response) : (c.completeUpload path sent verdict).inputs = c.inputs := by
  have h := inputs_print c verdict.render
  unfold completeUpload
  split
  · rename_i hp
    rw [hp] at h
    exact h
  · rename_i hp
    rw [hp] at h
    split
    · exact h
    · rw [inputs_report]; exact h
    · rw [inputs_report]; exact h

/-- A line from the server leaves what came after it alone. -/
theorem inputs_takeLine (c : Client φ τ κ δ) (line : Text) : (c.takeLine line).inputs = c.inputs := by
  simp only [takeLine]
  split
  · simp
  · simp
  · split
    · exact inputs_acceptDownload ..
    · simp
  · split
    · rfl
    · simp
  · exact inputs_completeUpload ..
  all_goals rfl

theorem unused_takeLine_lt (c : Client φ τ κ δ) {line : Text} {rest : Bytes}
    (h : c.isFinished = false) (hl : takeLine? c.pending = some (line, rest)) :
    (({ c with pending := rest } : Client φ τ κ δ).takeLine line).unused < c.unused := by
  have hlt := length_lt_of_takeLine? hl
  exact unused_lt_of_inputs h (inputs_takeLine ..) (by simp; omega)

variable [Writer κ]

theorem inputs_beginUpload (c : Client φ τ κ δ) (name : Text) :
    (c.beginUpload name).inputs = c.inputs := by
  simp only [beginUpload]
  split
  · rw [inputs_report]; rfl
  · rw [inputs_ask]; rfl

def unsent (c : Client φ τ κ δ) : Nat :=
  match c.phase with
  | .sending _ file => file.source.size + 1
  | _ => 0

/-- What bounds the steps to come. -/
def backlog (c : Client φ τ κ δ) : Nat × Nat := (c.unused, c.unsent)

omit [Writer τ] in
theorem unsent_sendChunk_lt (c : Client φ τ κ δ) (path : Path) (file : Sending)
    (hp : c.phase = .sending path file) :
    (c.sendChunk path file).unused = c.unused ∧ (c.sendChunk path file).unsent < c.unsent := by
  unfold sendChunk
  split
  · rename_i hs
    have := Sending.size_source_step_lt hs
    simp [unused, unsent, isFinished, hp]
    omega
  · simp [unused, unsent, isFinished, hp]

variable [Canceller δ]

omit [Writer κ] in
theorem inputs_terminate (c : Client φ τ κ δ) (argument : Text) :
    (c.terminate argument).inputs = c.inputs := by
  simp only [terminate]
  split
  · simp
  · split
    · rw [inputs_tell]; rfl
    · rw [inputs_report]; rfl

theorem inputs_execute (c : Client φ τ κ δ) (line : Text) : (c.execute line).inputs = c.inputs := by
  simp only [execute]
  split
  · simp
  split
  · simp
  split
  · exact inputs_beginUpload ..
  split
  · exact inputs_terminate ..
  · simp

theorem unused_takeCommand_lt (c : Client φ τ κ δ) (h : c.isFinished = false) :
    c.takeCommand.unused < c.unused := by
  have hi := inputs_showPrompt c
  unfold takeCommand
  split
  · rename_i hp
    rw [hp] at hi
    exact unused_finish_lt c _ h hi _
  · rename_i c₁ hp
    rw [hp] at hi
    have hk : c₁.keyboard = c.keyboard := congrArg Prod.fst hi
    have hpend : c₁.pending = c.pending := congrArg Prod.snd hi
    split
    · split
      all_goals
        refine unused_finish_lt c _ h ?_ _
        exact hi
    all_goals
      rename_i rest hkey
      have hrest : rest.length + c.pending.length < c.keyboard.length + c.pending.length := by
        simp [← hk, hkey]
    · exact unused_lt_of_inputs h (by simp [inputs, finish, hpend]) hrest
    · dsimp only
      split
      · exact unused_lt_of_inputs h (by simp [inputs, finish, hpend]) hrest
      · split
        · exact unused_lt_of_inputs h (by simp [inputs, toPrompt, hpend]) hrest
        · refine unused_lt_of_inputs h ((inputs_execute _ _).trans ?_) hrest
          simp [inputs, hpend]

theorem backlog_advance?_lt {c c' : Client φ τ κ δ} (h : c.advance? = some c') :
    Prod.Lex (· < ·) (· < ·) c'.backlog c.backlog := by
  unfold advance? at h
  split at h
  · cases h
  · rename_i hp
    obtain rfl := Option.some.inj h
    exact .left _ _ (unused_takeCommand_lt c (by simp [isFinished, hp]))
  · rename_i d hp
    split at h
    · cases h
    · rename_i hne
      obtain rfl := Option.some.inj h
      exact .left _ _ (unused_takePayload_lt c d (by simp [isFinished, hp]) hne)
  · rename_i path file hp
    obtain rfl := Option.some.inj h
    obtain ⟨hu, hlt⟩ := unsent_sendChunk_lt c path file hp
    rw [backlog, backlog, hu]
    exact .right _ hlt
  all_goals
    rename_i hp
    split at h
    · cases h
    · rename_i hl
      obtain rfl := Option.some.inj h
      exact .left _ _ (unused_takeLine_lt c (by simp [isFinished, hp]) hl)

/-! ## A whole run -/

def drain (c : Client φ τ κ δ) : Client φ τ κ δ :=
  match _h : c.advance? with
  | none => c
  | some c' => drain c'
termination_by c.backlog
decreasing_by exact backlog_advance?_lt _h

/-- Takes the result of a read. The end of the stream and a failed read end the client. -/
def receive (c : Client φ τ κ δ) (result : ReadResult) : Client φ τ κ δ :=
  if c.isFinished then c
  else match result with
    | .error e => if e.isInterrupted then c else c.finish (.error (.readResponse e))
    | .ok [] => c.finish (.error .disconnected)
    | .ok (b :: bs) => { c with pending := c.pending ++ b :: bs }.drain

def deliver (c : Client φ τ κ δ) (content : Bytes) : Client φ τ κ δ :=
  match content with
  | [] => c
  | b :: bs =>
    (c.receive (.ok (b :: bs.take (chunkSize - 1)))).deliver (bs.drop (chunkSize - 1))
termination_by content.length
decreasing_by simp only [List.length_drop, List.length_cons]; omega

def take (c : Client φ τ κ δ) : Arrival → Client φ τ κ δ
  | .bytes content => c.deliver content
  | .failure e => c.receive (.error e)

/-- Takes all that a server sends, and then the end of its stream. -/
def run (c : Client φ τ κ δ) (src : Source) : Client φ τ κ δ := (src.foldl take c).receive (.ok [])

def result? (c : Client φ τ κ δ) : Option (Except ClientError Unit) :=
  match c.phase with
  | .finished result => some result
  | _ => none

end Client

end FileFerry
