import FileFerry.Session.Transfer

/-! A session from its greeting to its end. Given the result of a read, it uses what it has received
until that leads no further. Every step uses up some of it or sends a chunk of a file, which is why a
session always comes back to waiting; the end of the stream, or a read that fails, ends it. -/

set_option autoImplicit false

namespace FileFerry

variable {γ ω : Type} [Gateway γ] [Writer ω]

namespace Session

def start (gateway : γ) (registry : Registry) (output : ω) : Session γ ω :=
  sendText ⟨gateway, registry, output, Gateway.home gateway, .empty, .command⟩ greeting

def execute (s : Session γ ω) (verb : Verb) (argument : Text) : Handled γ ω :=
  match verb with
  | .pwd => s.printDirectory
  | .ls => s.listDirectory
  | .cd => s.changeDirectory argument
  | .mkdir => s.makeDirectory argument
  | .delete => s.deleteFile argument
  | .get => s.beginDownload argument
  | .put => s.beginUpload argument
  | .quit => (.ok .close, s)

/-- Does what a line asks for. A blank line is answered by an empty one. -/
def handleLine (s : Session γ ω) (line : Text) : Session γ ω :=
  match Command.ofLine? line with
  | none => s.sendText ['\n']
  | some command =>
    match Verb.ofName? command.name with
    | none => s.answer (.error .unknownCommand)
    | some verb =>
      let (outcome, s) := s.execute verb command.argument
      s.answer outcome

@[simp] theorem input_answer (s : Session γ ω) (outcome : Except CommandError Reply) :
    (s.answer outcome).input = s.input := by
  unfold answer
  split <;> rfl

theorem input_execute (s : Session γ ω) (verb : Verb) (argument : Text) :
    (s.execute verb argument).2.input = s.input := by
  cases verb <;> simp only [execute]
  case ls =>
    unfold listDirectory
    split <;> rfl
  case cd =>
    unfold changeDirectory
    repeat' split
    all_goals rfl
  case mkdir =>
    unfold makeDirectory
    repeat' split
    all_goals rfl
  case delete =>
    unfold deleteFile
    repeat' split
    all_goals rfl
  case get =>
    unfold beginDownload
    repeat' split
    all_goals rfl
  case put =>
    unfold beginUpload
    repeat' split
    all_goals rfl
  all_goals rfl

theorem input_handleLine (s : Session γ ω) (line : Text) : (s.handleLine line).input = s.input := by
  unfold handleLine
  split
  · rfl
  · split
    · simp
    · simp [input_execute]

omit [Writer ω] in
@[simp] theorem input_completeUpload (s : Session γ ω) (u : Upload γ) (failure : Option IoError) :
    (s.completeUpload u failure).2.input = s.input := by
  unfold completeUpload
  cases failure <;> rfl

theorem length_input_receiveChunk_lt (s : Session γ ω) (u : Upload γ) (h : s.input.pending ≠ []) :
    (s.receiveChunk u).input.pending.length < s.input.pending.length := by
  have hpos := List.length_pos_iff.mpr h
  simp only [receiveChunk, InputBuffer.takeRaw]
  split
  · simp only [List.length_drop, chunkSize]
    omega
  · rename_i ht
    have := Reception.length_trailing_lt ht
    simp only [input_answer, input_completeUpload, InputBuffer.unread, List.length_append,
      List.length_drop, List.length_take] at *
    omega

/-- One step with what was received; none when more has to be read, or nothing will be. -/
def advance? (s : Session γ ω) : Option (Session γ ω) :=
  match s.phase with
  | .closed => none
  | .command =>
    match s.input.nextLine with
    | .line content rest => some ({ s with input := rest }.handleLine content)
    | .tooLong => some s.close
    | .incomplete => none
  | .sending entry file => some (s.sendChunk entry file)
  | .receiving u => if s.input.pending = [] then none else some (s.receiveChunk u)

/-- The bytes not used yet, and the end of the session. -/
def unused (s : Session γ ω) : Nat := s.input.pending.length + if s.isClosed then 0 else 1

def unsent (s : Session γ ω) : Nat :=
  match s.phase with
  | .sending _ file => file.source.size + 1
  | _ => 0

/-- What bounds the steps to come. -/
def backlog (s : Session γ ω) : Nat × Nat := (s.unused, s.unsent)

theorem unsent_sendChunk_lt (s : Session γ ω) (entry : Guard) (file : Sending)
    (hp : s.phase = .sending entry file) :
    (s.sendChunk entry file).unused = s.unused ∧ (s.sendChunk entry file).unsent < s.unsent := by
  unfold sendChunk
  split
  · rename_i hs
    have := Sending.size_source_step_lt hs
    simp [unused, unsent, isClosed, hp]
    omega
  · simp [unused, unsent, unregister, isClosed, hp]

theorem backlog_advance?_lt {s s' : Session γ ω} (h : s.advance? = some s') :
    Prod.Lex (· < ·) (· < ·) s'.backlog s.backlog := by
  unfold advance? at h
  split at h
  · cases h
  · rename_i hp
    have hs : s.unused = s.input.pending.length + 1 := by simp [unused, isClosed, hp]
    refine .left _ _ ?_
    split at h
    · rename_i content rest hl
      have hlt := InputBuffer.length_nextLine_lt hl
      obtain rfl := Option.some.inj h
      simp only [unused, input_handleLine] at *
      split <;> omega
    · obtain rfl := Option.some.inj h
      rw [hs]
      simp [unused, close, isClosed]
    · cases h
  · rename_i entry file hp
    obtain rfl := Option.some.inj h
    obtain ⟨hu, hlt⟩ := unsent_sendChunk_lt s entry file hp
    rw [backlog, backlog, hu]
    exact .right _ hlt
  · rename_i u hp
    have hs : s.unused = s.input.pending.length + 1 := by simp [unused, isClosed, hp]
    refine .left _ _ ?_
    split at h
    · cases h
    · rename_i hne
      obtain rfl := Option.some.inj h
      have hlt := length_input_receiveChunk_lt s u hne
      rw [hs]
      simp only [unused]
      split <;> omega

def drain (s : Session γ ω) : Session γ ω :=
  match _h : s.advance? with
  | none => s
  | some s' => drain s'
termination_by s.backlog
decreasing_by exact backlog_advance?_lt _h

def lose (s : Session γ ω) : Session γ ω :=
  match s.phase with
  | .closed => s
  | .command => s.close
  | .sending entry _ => (s.unregister entry).close
  | .receiving u => s.abandonUpload u

/-- Takes the result of a read. An interrupted read is as if it had not been. -/
def receive (s : Session γ ω) (result : ReadResult) : Session γ ω :=
  if s.isClosed then s
  else match result with
    | .error e => if e.isInterrupted then s else s.lose
    | .ok [] => s.lose
    | .ok (b :: bs) => { s with input := s.input.supply (b :: bs) }.drain

/-- Takes the result of a read, and leaves what there is to be done with bytes to the steps that follow. -/
def hear (s : Session γ ω) (result : ReadResult) : Session γ ω :=
  match result with
  | .ok (b :: bs) => { s with input := s.input.supply (b :: bs) }
  | _ => s.receive result

/-- Takes a delivery in reads of the size wanted, as far as the session lasts. -/
def deliver (s : Session γ ω) (content : Bytes) : Session γ ω :=
  match content with
  | [] => s
  | b :: bs =>
    match _h : s.wants with
    | 0 => s
    | n + 1 => (s.receive (.ok (b :: bs.take n))).deliver (bs.drop n)
termination_by content.length
decreasing_by simp only [List.length_drop, List.length_cons]; omega

def take (s : Session γ ω) : Arrival → Session γ ω
  | .bytes content => s.deliver content
  | .failure e => s.receive (.error e)

/-- Takes all that a stream brings, and then its end. -/
def run (s : Session γ ω) (src : Source) : Session γ ω := (src.foldl take s).receive (.ok [])

omit [Writer ω] in
theorem isClosed_lose (s : Session γ ω) : s.lose.isClosed = true := by
  unfold lose
  split
  · rename_i h
    simp [isClosed, h]
  all_goals rfl

omit [Writer ω] in
theorem unused_lose_lt {s : Session γ ω} (h : s.isClosed = false) : s.lose.unused < s.unused := by
  have hinput : s.lose.input = s.input := by
    unfold lose
    split <;> rfl
  simp [unused, isClosed_lose, h, hinput]

/-- A failed read brings a session nothing to do, and the end of the stream ends it. -/
theorem unused_hear {s : Session γ ω} (hs : s.isClosed = false) (result : ReadResult) :
    match result with
    | .ok [] => (s.hear result).unused < s.unused
    | .ok (b :: bs) => (s.hear result).unused = s.unused + (b :: bs).length
    | .error _ => (s.hear result).unused ≤ s.unused := by
  have hlose := unused_lose_lt hs
  rcases result with e | _ | ⟨b, bs⟩
  · simp only [hear, receive, hs]
    split
    · simp
    · split <;> omega
  · simpa [hear, receive, hs] using hlose
  · have hclosed : (s.hear (.ok (b :: bs))).isClosed = s.isClosed := rfl
    simp only [unused, hclosed]
    simp only [hear, InputBuffer.supply, List.length_append]
    omega

/-- A session that begins has only its end before it. -/
theorem unused_start (gateway : γ) (registry : Registry) (output : ω) :
    (start gateway registry output).unused = 1 := rfl

end Session

end FileFerry
