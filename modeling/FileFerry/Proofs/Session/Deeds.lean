import FileFerry.Proofs.Gateway.Archive
import FileFerry.Proofs.Session.Muted
import FileFerry.Session.Script
import Mathlib.Data.List.Forall2

/-!
# What a session does does not depend on whether it is heard

The deeds of a session are its reads, with what they brought, and all it does between them, each
with the muted session it leads to. Two sessions that begin alike but for their output have the same
deeds, and agree after every event of a script (`deeds_do_not_depend_on_output`).
-/

set_option autoImplicit false

namespace FileFerry

variable {γ ω : Type} [Gateway γ]

inductive Doing where
  /-- A line is taken for a command and handled. -/
  | handling (line : Text)
  | refusal
  /-- A download comes to its end, whole or not. -/
  | download
  | reception (chunk : Bytes)

inductive Deed (γ : Type) [Gateway γ] where
  | read (wanted : Nat) (result : ReadResult)
  | act (doing : Doing) (after : Session γ Silence)

/-- What the two steps of a session in two runs have in common: everything but the output. -/
structure SessionStep.Agree {ω₁ ω₂ : Type} (a : SessionStep γ ω₁) (b : SessionStep γ ω₂) : Prop where
  event : a.event = b.event
  cancelled : a.cancelled = b.cancelled
  gateway : a.after.gateway = b.after.gateway
  registry : a.after.registry = b.after.registry
  cwd : a.after.cwd = b.after.cwd
  input : a.after.input = b.after.input
  phase : a.after.phase = b.after.phase

namespace Session

/-- What a step from `s` to `s'` does; going on with a download is nothing new. -/
def deed? (s s' : Session γ ω) : Option (Deed γ) :=
  match s.phase with
  | .closed => none
  | .command =>
    match s.input.nextLine with
    | .line content _ => some (.act (.handling content) s'.mute)
    | _ => some (.act .refusal s'.mute)
  | .sending _ _ =>
    match s'.phase with
    | .sending _ _ => none
    | _ => some (.act .download s'.mute)
  | .receiving _ => some (.act (.reception (s.input.takeRaw chunkSize).1) s'.mute)

variable [Writer ω]

def drainDeeds (s : Session γ ω) : List (Deed γ) :=
  match _h : s.advance? with
  | none => []
  | some s' => (s.deed? s').toList ++ drainDeeds s'
termination_by s.backlog
decreasing_by exact backlog_advance?_lt _h

def receiveDeeds (s : Session γ ω) (result : ReadResult) : List (Deed γ) :=
  if s.isClosed then []
  else .read s.wants result :: match result with
    | .ok (b :: bs) => { s with input := s.input.supply (b :: bs) }.drainDeeds
    | _ => []

def deliverDeeds (s : Session γ ω) (content : Bytes) : List (Deed γ) :=
  match content with
  | [] => []
  | b :: bs =>
    match s.wants with
    | 0 => []
    | n + 1 =>
      s.receiveDeeds (.ok (b :: bs.take n)) ++
        (s.receive (.ok (b :: bs.take n))).deliverDeeds (bs.drop n)
termination_by content.length
decreasing_by simp only [List.length_drop, List.length_cons]; omega

def meetDeeds (s : Session γ ω) (event : SessionEvent γ) : List (Deed γ) :=
  match event with
  | .bytes content => s.deliverDeeds content
  | .failure e => s.receiveDeeds (.error e)
  | .cancel _ | .change _ => []
  | .ended => s.receiveDeeds (.ok [])

/-- The deeds of a session that is at `s` and goes on by `steps`. -/
def deeds (s : Session γ ω) : List (SessionStep γ ω) → List (Deed γ)
  | [] => []
  | step :: rest => s.meetDeeds step.event ++ step.after.deeds rest

/-! ## Between two reads -/

theorem drain_of_advance? {s s' : Session γ ω} (h : s.advance? = some s') :
    s.drain = s'.drain ∧ s.drainDeeds = (s.deed? s').toList ++ s'.drainDeeds := by
  constructor
  · rw [drain]
    split
    · simp_all
    · simp_all
  · rw [drainDeeds]
    split
    · simp_all
    · simp_all

theorem drain_of_advance?_none {s : Session γ ω} (h : s.advance? = none) :
    s.drain = s ∧ s.drainDeeds = [] := by
  constructor
  · rw [drain]
    split
    · rfl
    · simp_all
  · rw [drainDeeds]
    split
    · rfl
    · simp_all

/-- However many chunks are sent, a download is one deed, and the rest follows as if the file had been
sent at once. -/
theorem drain_of_sending {s : Session γ ω} {entry : Guard} {file : Sending}
    (hp : s.phase = .sending entry file) :
    s.drain = (s.sendAll entry file).drain ∧
      s.drainDeeds = .act .download (s.sendAll entry file).mute :: (s.sendAll entry file).drainDeeds := by
  fun_induction drain s generalizing file with
  | case1 s h => simp [advance?, hp] at h
  | case2 s s' h ih =>
    obtain ⟨hdrain, hdeeds⟩ := drain_of_advance? h
    obtain rfl : s.sendChunk entry file = s' := by simpa [advance?, hp] using h
    rcases sendChunk_eq s entry file with ⟨rest, hrest, hall⟩ | hall
    · -- a chunk more: no deed of its own
      obtain ⟨hdrain', hdeeds'⟩ := ih hrest
      rw [hall] at hdrain' hdeeds'
      refine ⟨hdrain', ?_⟩
      rw [hdeeds, hdeeds', deed?, hp, hrest]
      rfl
    · rw [hdeeds, hall, deed?, hp]
      exact ⟨rfl, rfl⟩

/-- From `s` on the muted session does the same and comes to the same. -/
def DrainsMuted (s : Session γ ω) : Prop :=
  s.mute.drain = s.drain.mute ∧ s.mute.drainDeeds = s.drainDeeds

theorem drainsMuted_sendAll_iff {s : Session γ ω} {entry : Guard} {file : Sending}
    (hp : s.phase = .sending entry file) :
    (s.sendAll entry file).DrainsMuted ↔ s.DrainsMuted := by
  obtain ⟨hdrain, hdeeds⟩ := drain_of_sending hp
  obtain ⟨hmuteDrain, hmuteDeeds⟩ := drain_of_sending (s := s.mute) hp
  rw [mute_sendAll s entry file file] at hmuteDrain hmuteDeeds
  unfold DrainsMuted
  rw [hdrain, hdeeds, hmuteDrain, hmuteDeeds]
  refine and_congr_right fun _ => ⟨congrArg _, fun h => (List.cons.inj h).2⟩

/-- Step for step the two sessions correspond but in a download, where one may send more chunks than
the other. There both come to the end of the download. -/
theorem drainsMuted (s : Session γ ω) : s.DrainsMuted := by
  fun_induction drain s with
  | case1 s h =>
    have hother : ∀ entry file, s.phase ≠ .sending entry file := by
      intro entry file hp
      simp [advance?, hp] at h
    have hmute : s.mute.advance? = none := by rw [advance?_mute hother, h, Option.map_none]
    obtain ⟨hdrain, hdeeds⟩ := drain_of_advance?_none h
    obtain ⟨hmuteDrain, hmuteDeeds⟩ := drain_of_advance?_none hmute
    exact ⟨by rw [hdrain, hmuteDrain], by rw [hdeeds, hmuteDeeds]⟩
  | case2 s s' h ih =>
    by_cases hp : ∃ entry file, s.phase = .sending entry file
    · -- whether a chunk follows or this was the last, the download ends in the same session
      obtain ⟨entry, file, hp⟩ := hp
      rw [← drainsMuted_sendAll_iff hp]
      obtain rfl : s.sendChunk entry file = s' := by simpa [advance?, hp] using h
      rcases sendChunk_eq s entry file with ⟨rest, hrest, hall⟩ | hall
      · rwa [← drainsMuted_sendAll_iff hrest, hall] at ih
      · rwa [hall] at ih
    · have hother : ∀ entry file, s.phase ≠ .sending entry file := by simpa using hp
      have hmute : s.mute.advance? = some s'.mute := by rw [advance?_mute hother, h, Option.map_some]
      obtain ⟨hdrain, hdeeds⟩ := drain_of_advance? h
      obtain ⟨hmuteDrain, hmuteDeeds⟩ := drain_of_advance? hmute
      obtain ⟨ihDrain, ihDeeds⟩ := ih
      refine ⟨by rw [hdrain, hmuteDrain, ihDrain], ?_⟩
      rw [hdeeds, hmuteDeeds, ihDeeds]
      rfl

/-! ## Deliveries and scripts -/

theorem mute_receive (s : Session γ ω) (result : ReadResult) :
    s.mute.receive result = (s.receive result).mute := by
  have hclosed : s.mute.isClosed = s.isClosed := rfl
  unfold receive
  rw [hclosed]
  split
  · rfl
  · split
    · split
      · rfl
      · exact mute_lose s
    · exact mute_lose s
    · rename_i b bs
      exact (drainsMuted { s with input := s.input.supply (b :: bs) }).1

theorem receiveDeeds_mute (s : Session γ ω) (result : ReadResult) :
    s.mute.receiveDeeds result = s.receiveDeeds result := by
  have hclosed : s.mute.isClosed = s.isClosed := rfl
  have hwants : s.mute.wants = s.wants := rfl
  unfold receiveDeeds
  rw [hclosed, hwants]
  split
  · rfl
  · refine congrArg _ ?_
    split
    · rename_i b bs
      exact (drainsMuted { s with input := s.input.supply (b :: bs) }).2
    · rfl

theorem deliver_of_wants_zero {s : Session γ ω} (h : s.wants = 0) (content : Bytes) :
    s.deliver content = s ∧ s.deliverDeeds content = [] := by
  cases content with
  | nil => exact ⟨by rw [deliver], by rw [deliverDeeds]⟩
  | cons b bs =>
    constructor
    · rw [deliver]
      split
      · rfl
      · simp_all
    · rw [deliverDeeds, h]

theorem deliver_of_wants_succ {s : Session γ ω} {n : Nat} (h : s.wants = n + 1) (b : UInt8) (bs : Bytes) :
    s.deliver (b :: bs) = (s.receive (.ok (b :: bs.take n))).deliver (bs.drop n) ∧
      s.deliverDeeds (b :: bs) = s.receiveDeeds (.ok (b :: bs.take n)) ++
        (s.receive (.ok (b :: bs.take n))).deliverDeeds (bs.drop n) := by
  constructor
  · rw [deliver]
    split
    · simp_all
    · simp_all
  · rw [deliverDeeds, h]

theorem mute_deliver (s : Session γ ω) (content : Bytes) :
    s.mute.deliver content = (s.deliver content).mute ∧
      s.mute.deliverDeeds content = s.deliverDeeds content := by
  fun_induction deliver s content with
  | case1 s => exact ⟨by rw [deliver], by rw [deliverDeeds, deliverDeeds]⟩
  | case2 s b bs hw =>
    obtain ⟨-, hdeeds⟩ := deliver_of_wants_zero hw (b :: bs)
    obtain ⟨hmute, hmuteDeeds⟩ := deliver_of_wants_zero (s := s.mute) hw (b :: bs)
    exact ⟨hmute, hmuteDeeds.trans hdeeds.symm⟩
  | case3 s b bs n hw ih =>
    obtain ⟨ihDeliver, ihDeeds⟩ := ih
    obtain ⟨-, hdeeds⟩ := deliver_of_wants_succ hw b bs
    obtain ⟨hmute, hmuteDeeds⟩ := deliver_of_wants_succ (s := s.mute) hw b bs
    rw [mute_receive] at hmute hmuteDeeds
    rw [hmute, hmuteDeeds, hdeeds, ihDeliver, ihDeeds, receiveDeeds_mute]
    exact ⟨rfl, rfl⟩

theorem meetDeeds_mute (s : Session γ ω) (event : SessionEvent γ) :
    s.mute.meetDeeds event = s.meetDeeds event := by
  cases event with
  | bytes content => exact (mute_deliver s content).2
  | failure e => exact receiveDeeds_mute s (.error e)
  | cancel id => rfl
  | change edit => rfl
  | ended => exact receiveDeeds_mute s (.ok [])

end Session

def SessionStep.mute (step : SessionStep γ ω) : SessionStep γ Silence :=
  ⟨step.event, step.cancelled, step.after.mute⟩

theorem SessionStep.agree_of_mute_eq {ω₁ ω₂ : Type} {a : SessionStep γ ω₁} {b : SessionStep γ ω₂}
    (h : a.mute = b.mute) : a.Agree b := by
  obtain ⟨hevent, hcancelled, hafter⟩ := SessionStep.mk.inj h
  obtain ⟨hgateway, hregistry, -, hcwd, hinput, hphase⟩ := Session.mk.inj hafter
  exact ⟨hevent, hcancelled, hgateway, hregistry, hcwd, hinput, hphase⟩

namespace Session

variable [Writer ω]

theorem mute_meet (s : Session γ ω) (event : SessionEvent γ) :
    s.mute.meet event = (s.meet event).mute := by
  cases event with
  | bytes content => exact congrArg (SessionStep.mk _ none) (mute_deliver s content).1
  | failure e => exact congrArg (SessionStep.mk _ none) (mute_receive s (.error e))
  | cancel id => rfl
  | change edit => rfl
  | ended => exact congrArg (SessionStep.mk _ none) (mute_receive s (.ok []))

theorem mute_follow (s : Session γ ω) (script : List (SessionEvent γ)) :
    s.mute.follow script = ((s.follow script).1.map SessionStep.mute, (s.follow script).2) := by
  induction script generalizing s with
  | nil =>
    have hclosed : s.mute.isClosed = s.isClosed := rfl
    unfold follow
    rw [hclosed, mute_meet]
    split <;> rfl
  | cons event rest ih =>
    have hclosed : s.mute.isClosed = s.isClosed := rfl
    have hafter : (s.meet event).mute.after = (s.meet event).after.mute := rfl
    unfold follow
    rw [hclosed]
    split
    · rfl
    · simp only [mute_meet, hafter, ih, List.map_cons]

theorem deeds_mute (s : Session γ ω) (steps : List (SessionStep γ ω)) :
    s.mute.deeds (steps.map SessionStep.mute) = s.deeds steps := by
  induction steps generalizing s with
  | nil => rfl
  | cons step rest ih =>
    simp only [List.map_cons, deeds, SessionStep.mute, meetDeeds_mute]
    rw [ih]

/-- Sessions that begin alike but for their output. -/
theorem follow_of_mute_eq {ω₁ ω₂ : Type} [Writer ω₁] [Writer ω₂] {s : Session γ ω₁} {t : Session γ ω₂}
    (h : s.mute = t.mute) (script : List (SessionEvent γ)) :
    s.deeds (s.follow script).1 = t.deeds (t.follow script).1 ∧
      (s.follow script).2 = (t.follow script).2 ∧
      List.Forall₂ SessionStep.Agree (s.follow script).1 (t.follow script).1 := by
  obtain ⟨hsteps, hleft⟩ := Prod.mk.inj ((mute_follow s script).symm.trans (h ▸ mute_follow t script))
  refine ⟨?_, hleft, ?_⟩
  · rw [← deeds_mute s, ← deeds_mute t, hsteps, h]
  · have hall : List.Forall₂ (· = ·) ((s.follow script).1.map SessionStep.mute)
        ((t.follow script).1.map SessionStep.mute) := by
      rw [hsteps, List.forall₂_eq_eq_eq]
    rw [List.forall₂_map_left_iff, List.forall₂_map_right_iff] at hall
    exact hall.imp fun _ _ => SessionStep.agree_of_mute_eq

/-- Whatever becomes of what two sessions send, the two read and do the same things. After each event their
gateways were called alike and every uploaded file took the same bytes. -/
theorem deeds_do_not_depend_on_output {ω₁ ω₂ : Type} [Writer ω₁] [Writer ω₂] (g : Recorded (Archive γ))
    (registry : Registry) (o₁ : ω₁) (o₂ : ω₂) (script : List (SessionEvent (Recorded (Archive γ)))) :
    (start g registry o₁).deeds ((start g registry o₁).follow script).1 =
        (start g registry o₂).deeds ((start g registry o₂).follow script).1 ∧
      ((start g registry o₁).follow script).2 = ((start g registry o₂).follow script).2 ∧
      List.Forall₂
        (fun a b => a.Agree b ∧ a.after.gateway.calls = b.after.gateway.calls ∧
          a.after.gateway.inner.files = b.after.gateway.inner.files)
        ((start g registry o₁).follow script).1 ((start g registry o₂).follow script).1 := by
  have hstart : (start g registry o₁).mute = (start g registry o₂).mute := rfl
  obtain ⟨hdeeds, hleft, hsteps⟩ := follow_of_mute_eq hstart script
  refine ⟨hdeeds, hleft, hsteps.imp fun a b hab => ?_⟩
  have hcalls := congrArg Recorded.calls hab.gateway
  have hfiles := congrArg (fun g => g.inner.files) hab.gateway
  exact ⟨hab, hcalls, hfiles⟩

end Session

end FileFerry
