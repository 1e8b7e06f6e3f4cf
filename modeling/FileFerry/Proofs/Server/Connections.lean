import FileFerry.Proofs.Session.Reading
import FileFerry.Server.Link

/-!
# The life of a connection

A connection waits, has a ticket, has a session and is closed, in this order. Between two of these
stages much may happen to it, but it stays cut once it is cut, and nothing is sent on it unless it has a
session (`Link.Keeps`).
-/

set_option autoImplicit false

namespace FileFerry

theorem Writer.send_keeps {ω : Type} [Writer ω] {P : ω → Prop} (hwrite : ∀ w b, P w → P (write w b).2)
    (hflush : ∀ w : ω, P w → P (flush w).2) {w : ω} (h : P w) (b : Bytes) : P (send w b).2 := by
  have hall := writeAll_keeps hwrite h b
  unfold send
  split
  · rename_i hw
    rw [hw] at hall
    exact hflush _ hall
  · rename_i hw
    rwa [hw] at hall

namespace Outbox

theorem cut_write (o : Outbox) (b : Bytes) : (Writer.write o b).2.cut = o.cut := by
  change (o.write b).2.cut = o.cut
  unfold write
  split <;> rfl

/-- Sending neither cuts a connection nor mends it. -/
@[simp] theorem cut_send (o : Outbox) (b : Bytes) : (Writer.send o b).2.cut = o.cut :=
  Writer.send_keeps (P := fun w : Outbox => w.cut = o.cut) (fun w b h => (cut_write w b).trans h)
    (fun _ h => h) rfl b

theorem cut_step (file : Sending) (o : Outbox) : (file.step o).2.cut = o.cut := by
  have hfinish : ∀ outcome, (Sending.finish outcome o).2.cut = o.cut := by
    intro outcome
    have hsend := cut_send o endMarker
    unfold Sending.finish
    split
    · rename_i hw
      rwa [hw] at hsend
    · rename_i hw
      rwa [hw] at hsend
  unfold Sending.step
  split
  · exact hfinish _
  · exact hfinish _
  · rename_i b bs _ _
    have hsend := cut_send o (b :: bs)
    split
    · rename_i hw
      rwa [hw] at hsend
    · rename_i hw
      rwa [hw] at hsend

end Outbox

variable {γ : Type} [Gateway γ]

namespace Session

/-! ## A session does not cut its connection, nor mend it -/

@[simp] theorem cut_sendText (s : Session γ Outbox) (t : Text) :
    (s.sendText t).output.cut = s.output.cut := Outbox.cut_send ..

@[simp] theorem cut_sendResponse (s : Session γ Outbox) (r : Response) :
    (s.sendResponse r).output.cut = s.output.cut := cut_sendText ..

@[simp] theorem cut_answer (s : Session γ Outbox) (outcome : Except CommandError Reply) :
    (s.answer outcome).output.cut = s.output.cut := by
  unfold answer
  split
  · exact cut_sendResponse ..
  · rfl
  · rfl
  · rfl
  · exact cut_sendResponse ..

theorem cut_execute (s : Session γ Outbox) (verb : Verb) (argument : Text) :
    (s.execute verb argument).2.output.cut = s.output.cut := by
  cases verb <;> simp only [execute]
  case ls =>
    unfold listDirectory
    split <;> rfl
  case cd =>
    unfold changeDirectory
    repeat' split
    all_goals rfl
  case mkdir =>
    unfold makeDirectory
    repeat' split
    all_goals rfl
  case delete =>
    unfold deleteFile
    repeat' split
    all_goals rfl
  case get =>
    unfold beginDownload
    repeat' split
    all_goals first | rfl | exact cut_sendResponse ..
  case put =>
    unfold beginUpload
    repeat' split
    all_goals first | rfl | exact cut_sendResponse ..
  all_goals rfl

theorem cut_handleLine (s : Session γ Outbox) (line : Text) :
    (s.handleLine line).output.cut = s.output.cut := by
  unfold handleLine
  split
  · exact cut_sendText ..
  · split
    · exact cut_answer ..
    · rw [cut_answer, cut_execute]

theorem cut_sendChunk (s : Session γ Outbox) (entry : Guard) (file : Sending) :
    (s.sendChunk entry file).output.cut = s.output.cut := by
  have hstep := Outbox.cut_step file s.output
  unfold sendChunk
  split
  · rename_i hs
    rwa [hs] at hstep
  · rename_i hs
    rwa [hs] at hstep

theorem cut_receiveChunk (s : Session γ Outbox) (u : Upload γ) :
    (s.receiveChunk u).output.cut = s.output.cut := by
  simp only [receiveChunk]
  split
  · rfl
  · rename_i reception _ _
    rw [cut_answer]
    unfold completeUpload
    cases reception.failure <;> rfl

theorem cut_advance? {s s' : Session γ Outbox} (h : s.advance? = some s') :
    s'.output.cut = s.output.cut := by
  unfold advance? at h
  split at h
  · cases h
  · split at h
    · cases h
      exact cut_handleLine ..
    · cases h
      rfl
    · cases h
  · cases h
    exact cut_sendChunk ..
  · split at h
    · cases h
    · cases h
      exact cut_receiveChunk ..

theorem cut_lose (s : Session γ Outbox) : s.lose.output.cut = s.output.cut := by
  unfold lose
  split <;> rfl

theorem cut_hear (s : Session γ Outbox) (result : ReadResult) :
    (s.hear result).output.cut = s.output.cut := by
  have hlose := cut_lose s
  rcases result with e | _ | ⟨b, bs⟩
  · simp only [hear, receive]
    split
    · rfl
    · split
      · rfl
      · exact hlose
  · simp only [hear, receive]
    split
    · rfl
    · exact hlose
  · rfl

end Session

namespace Link

/-- The stages of a connection, without what belongs to them. -/
inductive Standing where
  | waiting
  | registered (ticket : Ticket)
  | serving (ticket : Ticket)
  | closed
  deriving DecidableEq

def Standing.ticket? : Standing → Option Ticket
  | .registered t | .serving t => some t
  | .waiting | .closed => none

def Standing.ofStage : LinkStage γ → Standing
  | .waiting _ => .waiting
  | .registered t _ => .registered t
  | .serving t _ => .serving t
  | .closed _ => .closed

def standing (l : Link γ) : Standing := .ofStage l.stage

theorem standing_of_stage {l : Link γ} {stage : LinkStage γ} (h : l.stage = stage) :
    l.standing = .ofStage stage := congrArg Standing.ofStage h

/-- Whether both directions are shut down. -/
def isCut (l : Link γ) : Bool := l.ended && l.outbox.cut

theorem isClosed_iff {l : Link γ} : l.isClosed = true ↔ l.standing = .closed := by
  unfold isClosed standing
  cases l.stage <;> simp [Standing.ofStage]

theorem standing_setOutbox (l : Link γ) (o : Outbox) : (l.setOutbox o).standing = l.standing := by
  unfold setOutbox standing
  cases l.stage <;> rfl

theorem outbox_setOutbox (l : Link γ) (o : Outbox) : (l.setOutbox o).outbox = o := by
  unfold setOutbox outbox
  cases l.stage <;> rfl

theorem isCut_cut (l : Link γ) : l.cut.isCut = true := by
  have hended : l.cut.ended = true := by
    unfold cut setOutbox
    cases l.stage <;> rfl
  have hcut : l.cut.outbox.cut = true := by
    unfold cut
    rw [outbox_setOutbox]
  rw [isCut, hended, hcut]
  rfl

theorem ended_read? {l l' : Link γ} {n : Nat} {result : ReadResult} (h : l.read? n = some (result, l')) :
    l'.ended = l.ended := by
  unfold read? at h
  split at h
  · split at h
    · cases h
      rfl
    · cases h
  · cases h
    rfl

/-- What `l` and `m` have in common when `l` became `m` within one stage. -/
structure Keeps (l m : Link γ) : Prop where
  standing : m.standing = l.standing
  cut : l.isCut = true → m.isCut = true
  sent : (∀ t, l.standing ≠ .serving t) → m.outbox.sent = l.outbox.sent

namespace Keeps

theorem refl (l : Link γ) : l.Keeps l := ⟨rfl, id, fun _ => rfl⟩

theorem arrive (l : Link γ) (a : Arrival) : l.Keeps (l.arrive a) := by
  unfold Link.arrive
  split
  · exact refl l
  · exact ⟨rfl, id, fun _ => rfl⟩

theorem hangUp (l : Link γ) : l.Keeps { l with ended := true } := by
  refine ⟨rfl, fun h => ?_, fun _ => rfl⟩
  exact (Bool.and_eq_true_iff.mp h).2

theorem leave (l : Link γ) : l.Keeps l.cut := by
  refine ⟨standing_setOutbox .., fun _ => l.isCut_cut, fun _ => ?_⟩
  unfold Link.cut
  rw [outbox_setOutbox]

/-- A session that goes on changes nothing else of its connection. -/
theorem session {l l' : Link γ} {ticket : Ticket} {session session' : Session γ Outbox}
    (hstage : l.stage = .serving ticket session) (hended : l'.ended = l.ended)
    (hcut : session'.output.cut = session.output.cut) :
    l.Keeps { l' with stage := .serving ticket session' } := by
  have hstanding : l.standing = .serving ticket := standing_of_stage hstage
  refine ⟨hstanding.symm, fun h => ?_, fun h => absurd hstanding (h ticket)⟩
  simp only [isCut, outbox, hstage] at h ⊢
  rw [hended, hcut]
  exact h

end Keeps

end Link

end FileFerry
