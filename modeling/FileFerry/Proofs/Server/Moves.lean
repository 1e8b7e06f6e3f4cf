import FileFerry.Proofs.Pool.Order
import FileFerry.Proofs.Server.Connections
import FileFerry.Server.Schedule

/-!
# What can happen in a server

`Moves s e t` has one case for everything that an event can do, with what has to be so before it.
Most of what happens leaves every connection at its stage (`KeepsLinks`); the cases that take one
connection from a stage to the next are set apart.
-/

set_option autoImplicit false

namespace FileFerry

variable {γ : Type} [Gateway γ]

namespace ServerEvent

/-- Events within the stages of the connections. -/
def isWithin : ServerEvent → Bool
  | .arrive _ _ | .hangUp _ | .leave _ | .cancel _ | .read _ | .work _ => true
  | _ => false

/-- Events of the pool that are none of its tasks' own. -/
def pool? : ServerEvent → Option (PoolEvent LinkId)
  | .notify worker => some (.notify worker)
  | .look worker => some (.look worker)
  | .stir worker => some (.stir worker)
  | .alarm => some .alarm
  | _ => none

/-- No task comes in such an event, none ends, and the pool goes on as before. -/
theorem quiet_of_pool? {e : ServerEvent} {p : PoolEvent LinkId} (he : e.pool? = some p)
    (pool : Pool LinkId) : pool.accepts p = [] ∧ pool.ends p = [] ∧ p ≠ .stop := by
  cases e <;> cases he <;> exact ⟨rfl, rfl, by simp⟩

theorem ne_greet_of_isWithin {e : ServerEvent} (he : e.isWithin = true) (i : LinkId) : e ≠ .greet i := by
  rintro rfl
  cases he

theorem ne_greet_of_pool? {e : ServerEvent} {p : PoolEvent LinkId} (he : e.pool? = some p) (i : LinkId) :
    e ≠ .greet i := by
  rintro rfl
  cases he

end ServerEvent

namespace Pool

theorem stopping_of_moves {α : Type} {p q : Pool α} {e : PoolEvent α} (h : Moves p e q) (he : e ≠ .stop) :
    q.stopping = p.stopping := by
  cases h with
  | stops => exact absurd rfl he
  | _ => rfl

end Pool

namespace Server

structure KeepsLinks (s t : Server γ) : Prop where
  length : t.links.length = s.links.length
  keeps : ∀ {i : LinkId} {l m : Link γ}, s.links[i]? = some l → t.links[i]? = some m → l.Keeps m

theorem keepsLinks_of_eq {s t : Server γ} (h : t.links = s.links) : s.KeepsLinks t := by
  refine ⟨congrArg List.length h, fun hl hm => ?_⟩
  rw [h, hl] at hm
  obtain rfl := Option.some.inj hm
  exact .refl _

theorem keepsLinks_setLink {s t : Server γ} {i : LinkId} {l m : Link γ} (ht : t.links = s.links)
    (hl : s.links[i]? = some l) (hm : l.Keeps m) : s.KeepsLinks (t.setLink i m) := by
  refine ⟨by simp [setLink, ht], fun {j l' m'} hl' hm' => ?_⟩
  simp only [setLink, ht, List.getElem?_set] at hm'
  split at hm'
  · rename_i hij
    subst hij
    rw [hl] at hl'
    split at hm'
    · obtain rfl := Option.some.inj hl'
      obtain rfl := Option.some.inj hm'
      exact hm
    · cases hm'
  · rw [hl'] at hm'
    obtain rfl := Option.some.inj hm'
    exact .refl _

theorem keepsLinks_disconnect (s : Server γ) : s.KeepsLinks s.disconnect := by
  refine ⟨by simp [disconnect], fun {i l m} hl hm => ?_⟩
  simp only [disconnect, List.getElem?_mapIdx, hl, Option.map_some, Option.some.injEq] at hm
  subst hm
  split
  · exact .leave l
  · exact .refl l

inductive Moves (s : Server γ) : ServerEvent → Server γ → Prop where
  | within {e : ServerEvent} {t : Server γ} (he : e.isWithin = true) (hlinks : s.KeepsLinks t)
      (hpool : t.pool = s.pool) (htable : t.table = s.table) (hphase : t.phase = s.phase) : Moves s e t
  | pools {e : ServerEvent} {p : PoolEvent LinkId} {pool : Pool LinkId} (he : e.pool? = some p)
      (hpool : s.pool.step p = some pool) : Moves s e { s with pool }
  | finishes {worker : Nat} {i : LinkId} {l : Link γ} (hw : s.pool.workers[worker]? = some (.busy i))
      (hl : s.links[i]? = some l) (hclosed : l.standing = .closed) :
      Moves s (.finish worker) { s with pool := s.pool.setWorker worker .awake }
  | connects {pool : Pool LinkId} (hphase : s.phase = .accepting)
      (hpool : s.pool.submit s.links.length = some pool) :
      Moves s .connect { s with pool, links := s.links ++ [.fresh] }
  | connectsInVain {l : Link γ} (hphase : s.phase = .accepting) (hstop : s.pool.stopping = true) :
      Moves s .connect { s with links := s.links ++ [l] }
  | registers {i : LinkId} {l : Link γ} {outbox : Outbox} {ticket : Ticket} {table : SessionTable}
      (hi : i ∈ s.pool.running) (hl : s.links[i]? = some l) (hstage : l.stage = .waiting outbox)
      (htable : s.table.register i = some (ticket, table)) :
      Moves s (.register i) ({ s with table }.setLink i { l with stage := .registered ticket outbox })
  | turnsAway {i : LinkId} {l : Link γ} {outbox : Outbox} (hi : i ∈ s.pool.running)
      (hl : s.links[i]? = some l) (hstage : l.stage = .waiting outbox)
      (htable : s.table.register i = none) :
      Moves s (.register i) (s.setLink i { l with stage := .closed outbox })
  | greets {i : LinkId} {l : Link γ} {ticket : Ticket} {outbox : Outbox} (hl : s.links[i]? = some l)
      (hstage : l.stage = .registered ticket outbox) :
      Moves s (.greet i) (s.greet i l ticket outbox)
  | parts {i : LinkId} {l : Link γ} {ticket : Ticket} {session : Session γ Outbox}
      (hl : s.links[i]? = some l) (hstage : l.stage = .serving ticket session)
      (hover : session.isClosed = true) :
      Moves s (.part i) ({ s with table := s.table.giveBack ticket }.setLink i
        { l with stage := .closed session.output })
  | refuses (hphase : s.phase = .accepting) : Moves s .refuse { s with phase := .refusing }
  | disconnects (hphase : s.phase = .refusing) : Moves s .disconnect s.disconnect
  | stopsPool (hphase : s.phase = .disconnected) :
      Moves s .stopPool { s with pool := s.pool.stop, phase := .stopping }

theorem moves_of_onLink {s t : Server γ} {e : ServerEvent} (he : e.isWithin = true) {i : LinkId}
    {f : Link γ → Link γ} (hf : ∀ l : Link γ, l.Keeps (f l)) (h : s.onLink i f = some t) : Moves s e t := by
  obtain ⟨l, hl, rfl⟩ := Option.map_eq_some_iff.mp h
  exact .within he (keepsLinks_setLink rfl hl (hf l)) rfl rfl rfl

theorem moves_of_onPool {s t : Server γ} {e : ServerEvent} {p : PoolEvent LinkId} (he : e.pool? = some p)
    (h : s.onPool p = some t) : Moves s e t := by
  obtain ⟨pool, hpool, rfl⟩ := Option.map_eq_some_iff.mp h
  exact .pools he hpool

theorem moves_of_connect {s : Server γ} (hphase : s.phase = .accepting) : Moves s .connect s.connect := by
  unfold connect
  split
  · rename_i hpool
    exact .connects hphase hpool
  · rename_i hpool
    refine .connectsInVain hphase ?_
    unfold Pool.submit at hpool
    split at hpool
    · assumption
    · cases hpool

theorem moves_of_read {s t : Server γ} {i : LinkId} (h : s.withSession i (s.read i) = some t) :
    Moves s (.read i) t := by
  obtain ⟨l, ticket, session, hl, hstage, h⟩ := withSession_eq_some h
  unfold read at h
  split at h
  · cases h
  · obtain ⟨⟨result, l'⟩, hread, rfl⟩ := Option.map_eq_some_iff.mp h
    refine .within rfl (keepsLinks_setLink rfl hl ?_) rfl rfl rfl
    exact .session hstage (Link.ended_read? hread) (Session.cut_hear ..)

theorem moves_of_work {s t : Server γ} {i : LinkId} (h : s.withSession i (s.work i) = some t) :
    Moves s (.work i) t := by
  obtain ⟨l, ticket, session, hl, hstage, h⟩ := withSession_eq_some h
  obtain ⟨session', hadvance, rfl⟩ := Option.map_eq_some_iff.mp h
  refine .within rfl (keepsLinks_setLink rfl hl ?_) rfl rfl rfl
  have hcut := Session.cut_advance? hadvance
  exact .session hstage rfl hcut

theorem moves_of_finish {s t : Server γ} {worker : Nat} (h : s.step (.finish worker) = some t) :
    Moves s (.finish worker) t := by
  simp only [step] at h
  split at h
  · rename_i hdone
    obtain ⟨pool, hpool, rfl⟩ := Option.map_eq_some_iff.mp h
    cases Pool.moves_of_step hpool with
    | @finishes _ i _ hw =>
      simp only [hw, Option.any_some, isDone, Worker.task?] at hdone
      obtain ⟨l, hl, hclosed⟩ := (Option.any_eq_true _ _).mp hdone
      exact .finishes hw hl (Link.isClosed_iff.mp hclosed)
  · cases h

theorem moves_of_step {s t : Server γ} {e : ServerEvent} (h : s.step e = some t) : Moves s e t := by
  cases e with
  | connect =>
    simp only [step] at h
    split at h
    · cases h
      exact moves_of_connect (by assumption)
    · cases h
  | arrive i a => exact moves_of_onLink rfl (fun l => .arrive l a) h
  | hangUp i => exact moves_of_onLink rfl .hangUp h
  | leave i => exact moves_of_onLink rfl .leave h
  | cancel request =>
    cases h
    exact .within rfl (keepsLinks_of_eq rfl) rfl rfl rfl
  | notify worker => exact moves_of_onPool rfl h
  | look worker => exact moves_of_onPool rfl h
  | stir worker => exact moves_of_onPool rfl h
  | alarm => exact moves_of_onPool rfl h
  | register i =>
    simp only [step] at h
    split at h
    · rename_i hi
      split at h
      · rename_i l hl
        split at h
        · rename_i outbox hstage
          cases h
          unfold register
          split
          · rename_i htable
            exact .turnsAway hi hl hstage htable
          · rename_i htable
            exact .registers hi hl hstage htable
        · cases h
      · cases h
    · cases h
  | greet i =>
    simp only [step] at h
    split at h
    · rename_i l hl
      split at h
      · rename_i hstage
        cases h
        exact .greets hl hstage
      · cases h
    · cases h
  | read i => exact moves_of_read h
  | work i => exact moves_of_work h
  | part i =>
    obtain ⟨l, ticket, session, hl, hstage, h⟩ := withSession_eq_some h
    unfold part at h
    split at h
    · rename_i hover
      cases h
      exact .parts hl hstage hover
    · cases h
  | finish worker => exact moves_of_finish h
  | refuse =>
    simp only [step] at h
    split at h
    · cases h
      exact .refuses (by assumption)
    · cases h
  | disconnect =>
    simp only [step] at h
    split at h
    · cases h
      exact .disconnects (by assumption)
    · cases h
  | stopPool =>
    simp only [step] at h
    split at h
    · cases h
      exact .stopsPool (by assumption)
    · cases h

/-- What every step keeps of a server and of what has happened to it, every run keeps. -/
theorem steps_keep {P : List ServerEvent → Server γ → Prop}
    (hstep : ∀ {past s e t}, Moves s e t → P past s → P (past ++ [e]) t) {past events : List ServerEvent}
    {s t : Server γ} (h : s.steps events = some t) (hs : P past s) : P (past ++ events) t := by
  induction events generalizing past s with
  | nil =>
    cases h
    rwa [List.append_nil]
  | cons e events ih =>
    obtain ⟨r, hr, h⟩ := Option.bind_eq_some_iff.mp h
    rw [← List.singleton_append, ← List.append_assoc]
    exact ih h (hstep (moves_of_step hr) hs)

/-! ## Phases -/

/-- The table is closed once the sessions are cut, and the pool stops after that. -/
structure Phased (s : Server γ) : Prop where
  closed : s.table.closed = true ↔ s.phase = .disconnected ∨ s.phase = .stopping
  stopping : s.pool.stopping = true ↔ s.phase = .stopping

theorem Phased.open_of_accepting {s : Server γ} (h : s.Phased) (hphase : s.phase = .accepting) :
    ¬ s.pool.stopping = true := by
  rw [h.stopping, hphase]
  simp

theorem phased_step {s t : Server γ} {e : ServerEvent} (h : Moves s e t) (hs : s.Phased) : t.Phased := by
  cases h with
  | within _ _ hpool htable hphase => exact ⟨by rw [htable, hphase, hs.closed], by rw [hpool, hphase, hs.stopping]⟩
  | pools he hpool =>
    obtain ⟨_, _, hstop⟩ := ServerEvent.quiet_of_pool? he s.pool
    have hsame := Pool.stopping_of_moves (Pool.moves_of_step hpool) hstop
    exact ⟨hs.closed, hsame ▸ hs.stopping⟩
  | connects _ hpool =>
    unfold Pool.submit at hpool
    split at hpool
    · cases hpool
    · cases hpool
      exact ⟨hs.closed, hs.stopping⟩
  | registers _ _ _ htable =>
    unfold SessionTable.register at htable
    split at htable
    · cases htable
    · cases htable
      exact ⟨hs.closed, hs.stopping⟩
  | finishes | connectsInVain | turnsAway | greets | parts => exact ⟨hs.closed, hs.stopping⟩
  | refuses hphase =>
    have hclosed := hs.closed
    have hstopping := hs.stopping
    rw [hphase] at hclosed hstopping
    exact ⟨by simpa using hclosed, by simpa using hstopping⟩
  | disconnects hphase =>
    have hstopping := hs.stopping
    rw [hphase] at hstopping
    exact ⟨by simp [disconnect, SessionTable.close], by simpa [disconnect] using hstopping⟩
  | stopsPool hphase =>
    have hclosed := hs.closed
    rw [hphase] at hclosed
    exact ⟨by simpa using hclosed, by simp [Pool.stop]⟩

end Server

end FileFerry
