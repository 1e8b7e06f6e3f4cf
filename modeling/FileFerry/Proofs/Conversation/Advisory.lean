import FileFerry.Gateway.Local
import FileFerry.Proofs.Conversation.Basic
import FileFerry.Stream.Scripted

/-!
# Cancellation is advice

Two conversations are level when they differ in nothing but what is on the table of the registry and which
flags are up. Every step keeps that, and a cancellation moves nothing else. So wherever
cancellations come, whatever they name, all that a session reads, does and says is the same
(`cancellations_change_nothing_else`).
-/

set_option autoImplicit false

namespace FileFerry

variable {γ ω : Type} [Gateway γ]

namespace Registry

/-- The two gave out the same numbers and made as many flags. -/
structure Level (r r' : Registry) : Prop where
  next : r.next = r'.next
  flags : r.flags.length = r'.flags.length

namespace Level

variable {r r' r'' : Registry}

theorem refl (r : Registry) : r.Level r := ⟨rfl, rfl⟩

theorem symm (h : r.Level r') : r'.Level r := ⟨h.next.symm, h.flags.symm⟩

theorem trans (h : r.Level r') (h' : r'.Level r'') : r.Level r'' :=
  ⟨h.next.trans h'.next, h.flags.trans h'.flags⟩

/-- The next command gets the same number and a flag at the same place. -/
theorem start_fst (h : r.Level r') : r.start.1 = r'.start.1 := by
  simp only [Registry.start, allocate, insert, h.next, h.flags]

theorem start_snd (h : r.Level r') : r.start.2.Level r'.start.2 := by
  constructor
  · simp only [Registry.start, allocate, insert, h.next]
  · simp only [Registry.start, allocate, insert, List.length_append, h.flags]

theorem finish (h : r.Level r') (g : Guard) : (r.finish g).Level (r'.finish g) := ⟨h.next, h.flags⟩

end Level

theorem level_cancel (r : Registry) (id : CommandId) : r.Level (r.cancel id).2 := by
  unfold cancel
  split
  · exact .refl r
  · exact ⟨rfl, List.length_set.symm⟩

end Registry

namespace Session

/-- The two differ in nothing but the tables and the flags of their registries. -/
def Level (s s' : Session γ ω) : Prop := ∃ r, s.registry.Level r ∧ s' = { s with registry := r }

def LevelHandled (x y : Handled γ ω) : Prop := x.1 = y.1 ∧ x.2.Level y.2

variable {s s' s'' : Session γ ω}

theorem Level.refl (s : Session γ ω) : s.Level s := ⟨_, .refl _, rfl⟩

theorem Level.symm (h : s.Level s') : s'.Level s := by
  obtain ⟨r, hr, rfl⟩ := h
  exact ⟨_, hr.symm, rfl⟩

theorem Level.trans (h : s.Level s') (h' : s'.Level s'') : s.Level s'' := by
  obtain ⟨r, hr, rfl⟩ := h
  obtain ⟨r', hr', rfl⟩ := h'
  exact ⟨r', hr.trans hr', rfl⟩

theorem Level.phase (h : s.Level s') : s.phase = s'.phase := by
  obtain ⟨r, hr, rfl⟩ := h
  rfl

theorem Level.guard? (h : s.Level s') : s.guard? = s'.guard? := by
  unfold Session.guard?
  rw [h.phase]

theorem Level.unregister (h : s.Level s') (g : Guard) : (s.unregister g).Level (s'.unregister g) := by
  obtain ⟨r, hr, rfl⟩ := h
  exact ⟨r.finish g, hr.finish g, rfl⟩

theorem Level.close (h : s.Level s') : s.close.Level s'.close := by
  obtain ⟨r, hr, rfl⟩ := h
  exact ⟨r, hr, rfl⟩

theorem Level.discardUpload (h : s.Level s') (u : Upload γ) :
    (s.discardUpload u).Level (s'.discardUpload u) := by
  obtain ⟨r, hr, rfl⟩ := h
  exact ⟨r.finish u.entry, hr.finish u.entry, rfl⟩

theorem Level.lose (h : s.Level s') : s.lose.Level s'.lose := by
  unfold Session.lose
  rw [← h.phase]
  cases s.phase with
  | closed => exact h
  | command => exact h.close
  | sending entry file => exact (h.unregister entry).close
  | receiving u => exact (h.discardUpload u).close

theorem Level.completeUpload (h : s.Level s') (u : Upload γ) (failure : Option IoError) :
    LevelHandled (s.completeUpload u failure) (s'.completeUpload u failure) := by
  obtain ⟨r, hr, rfl⟩ := h
  cases failure <;> exact ⟨rfl, r.finish u.entry, hr.finish u.entry, rfl⟩

variable [Writer ω]

theorem Level.answer (h : s.Level s') (outcome : Except CommandError Reply) :
    (s.answer outcome).Level (s'.answer outcome) := by
  obtain ⟨r, hr, rfl⟩ := h
  unfold Session.answer
  split <;> exact ⟨r, hr, rfl⟩

/-- A command looks at the registry only to begin a transfer, and then only at what is level. -/
theorem Level.execute (h : s.Level s') (verb : Verb) (argument : Text) :
    LevelHandled (s.execute verb argument) (s'.execute verb argument) := by
  obtain ⟨r, hr, rfl⟩ := h
  cases verb <;> simp only [Session.execute]
  case pwd => exact ⟨rfl, r, hr, rfl⟩
  case quit => exact ⟨rfl, r, hr, rfl⟩
  case ls =>
    simp only [listDirectory]
    split <;> exact ⟨rfl, r, hr, rfl⟩
  case cd =>
    simp only [changeDirectory, resolve]
    repeat' split
    all_goals exact ⟨rfl, r, hr, rfl⟩
  case mkdir =>
    simp only [makeDirectory, resolve]
    repeat' split
    all_goals exact ⟨rfl, r, hr, rfl⟩
  case delete =>
    simp only [deleteFile, resolve]
    repeat' split
    all_goals exact ⟨rfl, r, hr, rfl⟩
  case get =>
    simp only [beginDownload, resolve, ← hr.start_fst]
    repeat' split
    case h_2 => exact ⟨rfl, r.start.2, hr.start_snd, rfl⟩
    all_goals exact ⟨rfl, r, hr, rfl⟩
  case put =>
    simp only [beginUpload, resolve, ← hr.start_fst]
    repeat' split
    case h_2 => exact ⟨rfl, r.start.2, hr.start_snd, rfl⟩
    all_goals exact ⟨rfl, r, hr, rfl⟩

theorem Level.handleLine (h : s.Level s') (line : Text) : (s.handleLine line).Level (s'.handleLine line) := by
  unfold Session.handleLine
  split
  · obtain ⟨r, hr, rfl⟩ := h
    exact ⟨r, hr, rfl⟩
  · split
    · exact h.answer _
    · rename_i command _ _ verb _
      obtain ⟨houtcome, hafter⟩ := h.execute verb command.argument
      dsimp only
      rw [← houtcome]
      exact hafter.answer _

theorem Level.sendChunk (h : s.Level s') (entry : Guard) (file : Sending) :
    (s.sendChunk entry file).Level (s'.sendChunk entry file) := by
  obtain ⟨r, hr, rfl⟩ := h
  simp only [Session.sendChunk]
  split
  · exact ⟨r, hr, rfl⟩
  · exact ⟨r.finish entry, hr.finish entry, rfl⟩

theorem Level.receiveChunk (h : s.Level s') (u : Upload γ) :
    (s.receiveChunk u).Level (s'.receiveChunk u) := by
  obtain ⟨r, hr, rfl⟩ := h
  simp only [Session.receiveChunk]
  split
  · exact ⟨r, hr, rfl⟩
  · rename_i trailing reception sink _
    have hkept : ({ s with gateway := sink.gateway, input := (s.input.takeRaw chunkSize).2.unread trailing } :
        Session γ ω).Level
        { s with
          gateway := sink.gateway
          input := (s.input.takeRaw chunkSize).2.unread trailing
          registry := r } := ⟨r, hr, rfl⟩
    obtain ⟨houtcome, hafter⟩ := hkept.completeUpload u reception.failure
    rw [← houtcome]
    exact hafter.answer _

/-- Level sessions wait alike, and go on alike. -/
theorem Level.advance? (h : s.Level s') :
    (s.advance? = none ∧ s'.advance? = none) ∨
      ∃ t t', s.advance? = some t ∧ s'.advance? = some t' ∧ t.Level t' := by
  have hphase := h.phase
  have hinput : s.input = s'.input := by
    obtain ⟨r, hr, rfl⟩ := h
    rfl
  unfold Session.advance?
  rw [← hphase, ← hinput]
  split
  · exact .inl ⟨rfl, rfl⟩
  · split
    · rename_i content rest _
      have hrest : ({ s with input := rest } : Session γ ω).Level
          { s' with input := rest, phase := s.phase } := by
        obtain ⟨r, hr, rfl⟩ := h
        exact ⟨r, hr, rfl⟩
      exact .inr ⟨_, _, rfl, rfl, hrest.handleLine content⟩
    · exact .inr ⟨_, _, rfl, rfl, h.close⟩
    · exact .inl ⟨rfl, rfl⟩
  · rename_i entry file _
    exact .inr ⟨_, _, rfl, rfl, h.sendChunk entry file⟩
  · rename_i u _
    split
    · exact .inl ⟨rfl, rfl⟩
    · exact .inr ⟨_, _, rfl, rfl, h.receiveChunk u⟩

theorem Level.hear (h : s.Level s') (result : ReadResult) : (s.hear result).Level (s'.hear result) := by
  have hclosed : s.isClosed = s'.isClosed := by
    unfold isClosed
    rw [h.phase]
  match result with
  | .ok (b :: bs) =>
    obtain ⟨r, hr, rfl⟩ := h
    exact ⟨r, hr, rfl⟩
  | .ok [] =>
    simp only [Session.hear, Session.receive, ← hclosed]
    split
    · exact h
    · exact h.lose
  | .error e =>
    simp only [Session.hear, Session.receive, ← hclosed]
    split
    · exact h
    · split
      · exact h
      · exact h.lose

end Session

namespace Conversation

def Level (c c' : Conversation γ ω) : Prop := c.session.Level c'.session ∧ c.source = c'.source

variable {c c' c'' : Conversation γ ω}

theorem Level.symm (h : c.Level c') : c'.Level c := ⟨h.1.symm, h.2.symm⟩

theorem Level.trans (h : c.Level c') (h' : c'.Level c'') : c.Level c'' :=
  ⟨h.1.trans h'.1, h.2.trans h'.2⟩

variable [Writer ω]

theorem Level.go (h : c.Level c') : c.go.Level c'.go := by
  obtain ⟨hsession, hsource⟩ := h
  have hclosed : c.session.isClosed = c'.session.isClosed := by
    unfold Session.isClosed
    rw [hsession.phase]
  have hwants : c.session.wants = c'.session.wants := by
    unfold Session.wants
    rw [hsession.phase]
  unfold Conversation.go
  rcases hsession.advance? with ⟨hnone, hnone'⟩ | ⟨t, t', ht, ht', hnext⟩
  · rw [hnone, hnone', ← hclosed, ← hwants, ← hsource]
    dsimp only
    split
    · exact ⟨hsession, hsource⟩
    · exact ⟨hsession.hear _, rfl⟩
  · rw [ht, ht']
    exact ⟨hnext, hsource⟩

theorem Level.move (h : c.Level c') (m : Move γ) : (c.move m).Level (c'.move m) := by
  cases m with
  | go => exact h.go
  | cancel id =>
    obtain ⟨⟨r, hr, hc'⟩, hsource⟩ := h
    refine ⟨⟨(r.cancel id).2, ?_, ?_⟩, hsource⟩
    · exact (c.session.registry.level_cancel id).symm.trans (hr.trans (r.level_cancel id))
    · simp only [Conversation.move, hc']
  | change edit =>
    obtain ⟨⟨r, hr, hc'⟩, hsource⟩ := h
    refine ⟨⟨r, hr, ?_⟩, hsource⟩
    simp only [Conversation.move, hc']

theorem Level.begins (h : c.Level c') (m : Move γ) : c.begins m = c'.begins m := by
  unfold Conversation.begins
  rw [h.1.guard?, (h.move m).1.guard?]

/-- A cancellation leaves a conversation level with what it was, and begins nothing. -/
theorem level_cancel (c : Conversation γ ω) (id : CommandId) :
    c.Level (c.move (.cancel id)) ∧ c.begins (.cancel id) = none := by
  have hlevel : c.Level (c.move (.cancel id)) := ⟨⟨_, c.session.registry.level_cancel id, rfl⟩, rfl⟩
  refine ⟨hlevel, ?_⟩
  unfold Conversation.begins
  rw [← hlevel.1.guard?]
  cases c.session.guard? <;> rfl

/-- With all cancellations left out a conversation goes the same way. -/
theorem Level.after_filter (h : c.Level c') (moves : List (Move γ)) :
    (c.after moves).Level (c'.after (moves.filter fun m => !m.isCancel)) ∧
      c.begun moves = c'.begun (moves.filter fun m => !m.isCancel) := by
  induction moves generalizing c c' with
  | nil => exact ⟨h, rfl⟩
  | cons m moves ih =>
    cases m with
    | cancel id =>
      obtain ⟨hlevel, hbegins⟩ := level_cancel c id
      obtain ⟨hafter, hbegun⟩ := ih (hlevel.symm.trans h)
      refine ⟨hafter, ?_⟩
      rw [begun, hbegins]
      exact hbegun
    | go =>
      obtain ⟨hafter, hbegun⟩ := ih (h.move .go)
      refine ⟨hafter, ?_⟩
      rw [begun, h.begins, hbegun]
      rfl
    | change edit =>
      obtain ⟨hafter, hbegun⟩ := ih (h.move (.change edit))
      refine ⟨hafter, ?_⟩
      rw [begun, h.begins, hbegun]
      rfl

theorem level_of_filter_eq (c : Conversation γ ω) {moves moves' : List (Move γ)}
    (h : (moves.filter fun m => !m.isCancel) = moves'.filter fun m => !m.isCancel) :
    (c.after moves).Level (c.after moves') ∧ c.begun moves = c.begun moves' := by
  have hself : c.Level c := ⟨.refl _, rfl⟩
  obtain ⟨hafter, hbegun⟩ := hself.after_filter moves
  obtain ⟨hafter', hbegun'⟩ := hself.after_filter moves'
  rw [h] at hafter hbegun
  exact ⟨hafter.trans hafter'.symm, hbegun.trans hbegun'.symm⟩

/-- Cancellations may be added, taken away and moved, whatever they name and wherever they come, also in
a transfer. What the session writes, the calls on the gateway, the bytes of every upload, the
input used, and the numbers of the transfers stay the same. -/
theorem cancellations_change_nothing_else (c : Conversation (Recorded (Archive γ)) ω)
    {moves moves' : List (Move (Recorded (Archive γ)))}
    (h : (moves.filter fun m => !m.isCancel) = moves'.filter fun m => !m.isCancel) :
    let t := c.after moves
    let t' := c.after moves'
    t.session.output = t'.session.output ∧
      t.session.gateway.calls = t'.session.gateway.calls ∧
      t.session.gateway.inner.files = t'.session.gateway.inner.files ∧
      t.session.gateway = t'.session.gateway ∧
      t.session.input = t'.session.input ∧ t.source = t'.source ∧
      t.session.cwd = t'.session.cwd ∧ t.session.phase = t'.session.phase ∧
      c.begun moves = c.begun moves' ∧ t.session.registry.next = t'.session.registry.next := by
  intro t t'
  obtain ⟨⟨⟨r, hr, hsession⟩, hsource⟩, hbegun⟩ := c.level_of_filter_eq h
  change t'.session = _ at hsession
  rw [hsession]
  exact ⟨rfl, rfl, rfl, rfl, rfl, hsource, rfl, rfl, hbegun, hr.next⟩

/-- A cancellation that finds an upload under way, and one that comes after it. -/
theorem cancellations_change_nothing_else_upload :
    let u : Upload (Recorded (Archive LocalFiles)) := ⟨⟨[Path.slash, 97]⟩, ((0 : Nat), 0), ⟨⟨1⟩, 0⟩, .fresh⟩
    let c : Conversation (Recorded (Archive LocalFiles)) ScriptedWriter :=
      ⟨⟨⟨⟨⟨.empty, ⟨[Path.slash]⟩, []⟩, []⟩, []⟩, ⟨⟨2⟩, [(⟨1⟩, 0)], [true]⟩, .accepting, ⟨[Path.slash]⟩,
        .empty, .receiving u⟩, [.bytes (Utf8.encode (text "abcFILE_TRANSFER_END\npwd\n"))]⟩
    let early : List (Move (Recorded (Archive LocalFiles))) := [.go, .cancel ⟨1⟩, .go, .go]
    let late : List (Move (Recorded (Archive LocalFiles))) := [.cancel ⟨7⟩, .go, .go, .cancel ⟨1⟩, .go]
    ((early.filter fun m => !m.isCancel) = late.filter fun m => !m.isCancel) ∧
      (c.after [.go, .cancel ⟨1⟩]).session.registry.isRunning u.entry = false ∧
      (c.after [.cancel ⟨7⟩, .go]).session.registry.isRunning u.entry = true ∧
      (c.after early).session.output = (c.after late).session.output ∧
      (c.after early).session.gateway.inner.files = (c.after late).session.gateway.inner.files ∧
      (c.after early).session.phase = (c.after late).session.phase := by
  intro u c early late
  have hmoves : (early.filter fun m => !m.isCancel) = late.filter fun m => !m.isCancel := rfl
  obtain ⟨houtput, _, hfiles, _, _, _, _, hphase, _, _⟩ := cancellations_change_nothing_else c hmoves
  exact ⟨hmoves, rfl, rfl, houtput, hfiles, hphase⟩

end Conversation

end FileFerry
