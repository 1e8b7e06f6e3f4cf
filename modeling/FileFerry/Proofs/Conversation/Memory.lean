import FileFerry.Proofs.Conversation.Basic

/-!
# How much a session keeps of what it reads

A session reads only when it can do nothing with what it has: a line has no newline yet and is below
the limit, or the payload at hand is used up. So one read is all that comes on top (`length_pending_go`),
and between two reads an upload has only what may begin a marker in hand.
-/

set_option autoImplicit false

namespace FileFerry

variable {γ ω : Type} [Gateway γ]

theorem Source.length_le_of_read {n : Nat} {src rest : Source} {chunk : Bytes}
    (h : src.read n = (.ok chunk, rest)) : chunk.length ≤ n := by
  fun_induction read n src with
  | case1 =>
    cases h
    exact Nat.zero_le n
  | case2 e src => cases h
  | case3 src ih => exact ih h
  | case4 b bs src left =>
    cases h
    exact List.length_take_le n _

/-- The most bytes that are pending at once: all but one of a line that is too long, and one read. -/
def maxPending : Nat := maxLineBytes - 1 + lineReadSize

example : maxPending = 69631 := rfl

namespace Session

variable [Writer ω]

omit [Writer ω] in
theorem input_lose (s : Session γ ω) : s.lose.input = s.input := by
  unfold lose
  split <;> rfl

theorem input_sendChunk (s : Session γ ω) (entry : Guard) (file : Sending) :
    (s.sendChunk entry file).input = s.input := by
  unfold sendChunk
  split <;> rfl

/-- No step brings anything to the buffer, also not the end of an upload with what was behind its marker. -/
theorem length_pending_advance? {s s' : Session γ ω} (h : s.advance? = some s') :
    s'.input.pending.length ≤ s.input.pending.length := by
  unfold advance? at h
  split at h
  · cases h
  · split at h
    · rename_i content rest hline
      obtain rfl := Option.some.inj h
      rw [input_handleLine]
      exact (InputBuffer.length_nextLine_lt hline).le
    · obtain rfl := Option.some.inj h
      exact Nat.le_refl _
    · cases h
  · obtain rfl := Option.some.inj h
    rw [input_sendChunk]
  · split at h
    · cases h
    · rename_i u _ hne
      obtain rfl := Option.some.inj h
      exact (length_input_receiveChunk_lt s u hne).le

/-- A session that waits has room for the read it asks for. -/
theorem length_pending_add_wants_le {s : Session γ ω} (h : s.advance? = none) (hopen : s.isClosed = false) :
    s.input.pending.length + s.wants ≤ maxPending := by
  unfold advance? at h
  split at h
  · rename_i hphase
    simp [isClosed, hphase] at hopen
  · rename_i hphase
    have hwants : s.wants = lineReadSize := by simp [wants, hphase]
    split at h
    · cases h
    · cases h
    · rename_i hline
      have hshort := (nextLine_eq_incomplete hline).2
      rw [hwants, maxPending]
      omega
  · cases h
  · rename_i u hphase
    have hwants : s.wants = chunkSize := by simp [wants, hphase]
    split at h
    · rename_i hnil
      rw [hwants, hnil]
      decide
    · cases h

theorem length_pending_hear {s : Session γ ω} {n : Nat} {result : ReadResult}
    (hresult : ∀ chunk, result = .ok chunk → chunk.length ≤ n) :
    (s.hear result).input.pending.length ≤ s.input.pending.length + n := by
  have hlose : s.lose.input.pending.length ≤ s.input.pending.length + n := by
    rw [input_lose]
    omega
  rcases result with e | _ | ⟨b, bs⟩
  · simp only [hear, receive]
    split
    · omega
    · split
      · omega
      · exact hlose
  · rw [hear, receive_end]
    · exact hlose
    · intro b bs heq
      cases heq
  · have hlen := hresult _ rfl
    simp only [hear, InputBuffer.supply, List.length_append]
    omega

end Session

namespace Conversation

variable [Writer ω]

theorem length_pending_go {c : Conversation γ ω} (h : c.session.input.pending.length ≤ maxPending) :
    c.go.session.input.pending.length ≤ maxPending := by
  cases hstep : c.session.advance? with
  | some s =>
    rw [go_of_advance? hstep]
    exact (Session.length_pending_advance? hstep).trans h
  | none =>
    by_cases hopen : c.session.isClosed = true
    · have hstays : c.go = c := by simp only [go, hstep, hopen, if_true]
      rwa [hstays]
    · have hroom := Session.length_pending_add_wants_le hstep (Bool.eq_false_iff.mpr hopen)
      cases hread : c.source.read c.session.wants with
      | mk result rest =>
        rw [go_of_waits hstep (Bool.eq_false_iff.mpr hopen) hread]
        refine (Session.length_pending_hear ?_).trans hroom
        rintro chunk rfl
        exact Source.length_le_of_read hread

theorem length_pending_move {c : Conversation γ ω} (h : c.session.input.pending.length ≤ maxPending)
    (m : Move γ) : (c.move m).session.input.pending.length ≤ maxPending := by
  cases m with
  | go => exact length_pending_go h
  | cancel id => exact h
  | change edit => exact h

theorem length_pending_after {c : Conversation γ ω} (h : c.session.input.pending.length ≤ maxPending)
    (moves : List (Move γ)) : (c.after moves).session.input.pending.length ≤ maxPending := by
  induction moves generalizing c with
  | nil => exact h
  | cons m moves ih =>
    rw [after_cons]
    exact ih (length_pending_move h m)

/-- Wherever a session comes to, it has no more pending than a line that is almost too long and one read
on top; of an upload it holds back less than a marker, and when it reads on that is all it has in hand. -/
theorem input_is_bounded (gateway : γ) (registry : Registry) (output : ω) (src : Source)
    (moves : List (Move γ)) :
    let s := ((⟨.start gateway registry output, src⟩ : Conversation γ ω).after moves).session
    s.input.pending.length ≤ maxLineBytes - 1 + lineReadSize ∧
      ∀ {u : Upload γ}, s.phase = .receiving u →
        u.reception.scanner.held.length ≤ endMarker.length - 1 ∧
          (s.advance? = none → s.inHand.length ≤ endMarker.length - 1) := by
  intro s
  refine ⟨length_pending_after (Nat.zero_le _) moves, ?_⟩
  intro u hphase
  have hheld := u.reception.scanner.length_held_lt
  refine ⟨Nat.le_pred_of_lt hheld, ?_⟩
  intro hwaits
  have hnil : s.input.pending = [] := by
    simp only [Session.advance?, hphase] at hwaits
    split at hwaits
    · assumption
    · cases hwaits
  have hhand : s.inHand = u.reception.scanner.held := by
    simp only [Session.inHand, hphase, hnil, List.append_nil]
  rw [hhand]
  exact Nat.le_pred_of_lt hheld

end Conversation

end FileFerry
