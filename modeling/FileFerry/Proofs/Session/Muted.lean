import FileFerry.Proofs.Session.Reading

/-!
# A session that nobody hears

A session can be muted: all it says goes to a writer that takes everything and keeps nothing. Every
step of the muted session is the muted step of the session, whatever becomes of the bytes that were
to be sent. Only a download is different: a writer that fails ends it early. So a download is
taken as a whole here, and then it makes no difference which file was sent.
-/

set_option autoImplicit false

namespace FileFerry

structure Silence where

instance : Writer Silence where
  write w b := (.ok b.length, w)
  flush w := (.ok (), w)
  patience _ := 0
  patience_lt _ _ _ he := by cases he

variable {γ ω : Type} [Gateway γ]

namespace Session

/-- The session apart from what became of the bytes it sent. -/
def mute (s : Session γ ω) : Session γ Silence :=
  ⟨s.gateway, s.registry, ⟨⟩, s.cwd, s.input, s.phase⟩

theorem mute_lose (s : Session γ ω) : s.mute.lose = s.lose.mute := by
  cases hp : s.phase <;> simp only [lose, mute, hp] <;> rfl

variable [Writer ω]

theorem mute_answer (s : Session γ ω) (outcome : Except CommandError Reply) :
    s.mute.answer outcome = (s.answer outcome).mute := by
  unfold answer
  split <;> rfl

theorem mute_execute (s : Session γ ω) (verb : Verb) (argument : Text) :
    s.mute.execute verb argument =
      ((s.execute verb argument).1, (s.execute verb argument).2.mute) := by
  cases verb <;> simp only [execute]
  case ls =>
    simp only [listDirectory, mute]
    split <;> rfl
  case cd =>
    simp only [changeDirectory, mute, resolve]
    repeat' split
    all_goals rfl
  case mkdir =>
    simp only [makeDirectory, mute, resolve]
    repeat' split
    all_goals rfl
  case delete =>
    simp only [deleteFile, mute, resolve]
    repeat' split
    all_goals rfl
  case get =>
    simp only [beginDownload, mute, resolve]
    repeat' split
    all_goals rfl
  case put =>
    simp only [beginUpload, mute, resolve]
    repeat' split
    all_goals rfl
  all_goals rfl

theorem mute_handleLine (s : Session γ ω) (line : Text) :
    s.mute.handleLine line = (s.handleLine line).mute := by
  unfold handleLine
  split
  · rfl
  · split
    · exact mute_answer ..
    · simp only [mute_execute, mute_answer]

theorem mute_receiveChunk (s : Session γ ω) (u : Upload γ) :
    s.mute.receiveChunk u = (s.receiveChunk u).mute := by
  have hgateway : s.mute.gateway = s.gateway := rfl
  have hinput : s.mute.input = s.input := rfl
  simp only [receiveChunk, hgateway, hinput]
  split
  · rfl
  · rename_i reception _ _
    simp only [completeUpload]
    cases reception.failure <;> rfl

/-- Nothing that is sent of a file, and no failure to send it, matters to what comes after. -/
theorem mute_sendAll (s : Session γ ω) (entry : Guard) (file file' : Sending) :
    s.mute.sendAll entry file' = (s.sendAll entry file).mute := rfl

theorem advance?_mute {s : Session γ ω} (h : ∀ entry file, s.phase ≠ .sending entry file) :
    s.mute.advance? = s.advance?.map mute := by
  have hphase : s.mute.phase = s.phase := rfl
  have hinput : s.mute.input = s.input := rfl
  unfold advance?
  rw [hphase, hinput]
  split
  · rfl
  · split
    · rename_i rest _
      exact congrArg some (mute_handleLine { s with input := rest } _)
    · rfl
    · rfl
  · rename_i entry file hp
    exact absurd hp (h entry file)
  · split
    · rfl
    · exact congrArg some (mute_receiveChunk s _)

end Session

end FileFerry
