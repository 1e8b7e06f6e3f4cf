import FileFerry.Pool.Schedule
import FileFerry.Server.Basic

/-! One of the orders in which things can happen to a server: the pool first, then the sessions, and of
several connections the first. Followed long enough, it leaves every session waiting for its client
and every connection with a session or without a free worker. -/

set_option autoImplicit false

namespace FileFerry

namespace Server

variable {γ : Type} [Gateway γ]

def firstLink? (s : Server γ) (f : Link γ → Bool) : Option LinkId := s.links.findIdx? f

/-- The first connection that a worker took and did not begin to serve. -/
def firstTaken? (s : Server γ) : Option LinkId :=
  s.pool.running.find? fun i => (s.links[i]?).any Link.isWaiting

def nextOfPool? (s : Server γ) : Option ServerEvent :=
  if 0 < s.pool.notices then some (.notify (s.pool.workers.findIdx? Worker.isAsleep))
  else if 0 < s.pool.alarms then some .alarm
  else (s.pool.workers.findIdx? Worker.isAwake).map ServerEvent.look

/-- The first session that can go on or read. -/
def nextOfSessions? (s : Server γ) : Option ServerEvent := do
  let i ← s.firstLink? fun l => l.isWorking || l.isReadable
  let l ← s.links[i]?
  return if l.isWorking then .work i else .read i

def candidates (s : Server γ) : List (Option ServerEvent) :=
  [s.nextOfPool?, s.firstTaken?.map .register, (s.firstLink? Link.isRegistered).map .greet,
    s.nextOfSessions?, (s.firstLink? Link.isOver).map .part,
    (s.pool.workers.findIdx? s.isDone).map .finish]

def nextEvent? (s : Server γ) : Option ServerEvent := s.candidates.findSome? id

def total {α : Type} (f : α → Nat) : List α → Nat
  | [] => 0
  | a :: l => f a + total f l

def weight (s : Server γ) : Nat := total Link.weight s.links

def unsent (s : Server γ) : Nat := total Link.unsent s.links

/-- What bounds the events that bring a server to rest. -/
def unrest (s : Server γ) : Nat × Nat × Nat × Nat := (s.weight, s.unsent, s.pool.unrest)

/-- The order in which a server comes to rest. -/
abbrev Calmer : Nat × Nat × Nat × Nat → Nat × Nat × Nat × Nat → Prop :=
  Prod.Lex (· < ·) (Prod.Lex (· < ·) (Prod.Lex (· < ·) (· < ·)))

end Server

namespace Server

variable {γ : Type} [Gateway γ]

theorem total_set {α : Type} (f : α → Nat) {l : List α} {i : Nat} {a : α} (b : α)
    (h : l[i]? = some a) : total f (l.set i b) + f a = total f l + f b := by
  induction l generalizing i with
  | nil => cases h
  | cons x l ih =>
    cases i with
    | zero =>
      obtain rfl : x = a := by simpa using h
      simp only [List.set_cons_zero, total]
      omega
    | succ i =>
      have := ih (i := i) (by simpa using h)
      simp only [List.set_cons_succ, total]
      omega

/-- What a read takes from the stream weighs more than what it leaves the session to do. -/
theorem weight_read_lt {l l' : Link γ} {n : Nat} {result : ReadResult}
    (h : l.read? n = some (result, l')) {session : Session γ Outbox} (hs : session.isClosed = false) :
    2 * l'.incoming.size + (session.hear result).unused < 2 * l.incoming.size + session.unused := by
  have hheard := session.unused_hear hs result
  unfold Link.read? at h
  split at h
  · split at h
    · cases h
      simp only [Source.size]
      omega
    · cases h
  · rename_i rest hne hread
    cases h
    rcases result with e | _ | ⟨b, bs⟩
    · have hsize := Source.size_lt_of_read_error hread
      simp only at hheard ⊢
      omega
    · exact absurd rfl hne
    · have hsize := Source.size_read_add_length_le hread
      simp only [List.length_cons] at hheard hsize ⊢
      omega

/-- A server whose connection has less left to be done has less left to be done. -/
theorem calmer_setLink {s t : Server γ} {i : LinkId} {l m : Link γ} (h : s.links[i]? = some l)
    (ht : t.links = s.links)
    (hm : Prod.Lex (· < ·) (· < ·) (m.weight, m.unsent) (l.weight, l.unsent)) :
    Calmer (t.setLink i m).unrest s.unrest := by
  have hweight := total_set Link.weight m h
  have hunsent := total_set Link.unsent m h
  rw [Prod.lex_def] at hm
  rcases hm with hlt | ⟨heq, hlt⟩
  · refine .left _ _ ?_
    simp only [weight, setLink, ht]
    omega
  · have hsame : (t.setLink i m).weight = s.weight := by
      simp only [weight, setLink, ht]
      omega
    rw [unrest, unrest, hsame]
    refine .right _ (.left _ _ ?_)
    simp only [unsent, setLink, ht]
    omega

theorem calmer_onPool {s t : Server γ} {e : PoolEvent LinkId} (h : s.onPool e = some t)
    (he : e.isProgress = true) : Calmer t.unrest s.unrest := by
  obtain ⟨pool, hp, rfl⟩ := Option.map_eq_some_iff.mp h
  exact .right _ (.right _ (Pool.unrest_step_lt hp he))

theorem withSession_eq_some {s t : Server γ} {i : LinkId}
    {f : Link γ → Ticket → Session γ Outbox → Option (Server γ)} (h : s.withSession i f = some t) :
    ∃ l ticket session, s.links[i]? = some l ∧ l.stage = .serving ticket session ∧
      f l ticket session = some t := by
  unfold withSession at h
  split at h
  · rename_i l hl
    split at h
    · rename_i ticket session hs
      exact ⟨l, ticket, session, hl, hs, h⟩
    · cases h
  · cases h

def isProgress : ServerEvent → Bool
  | .notify _ | .look _ | .alarm | .register _ | .greet _ | .read _ | .work _ | .part _ | .finish _ => true
  | _ => false

theorem calmer_step {s t : Server γ} {e : ServerEvent} (h : s.step e = some t)
    (he : isProgress e = true) : Calmer t.unrest s.unrest := by
  cases e with
  | notify _ | look _ | alarm => exact calmer_onPool h rfl
  | finish worker =>
    simp only [step] at h
    split at h
    · exact calmer_onPool h rfl
    · cases h
  | register i =>
    simp only [step] at h
    split at h
    · split at h
      · rename_i l hl
        split at h
        · rename_i outbox hs
          cases h
          unfold register
          split
          · exact calmer_setLink hl rfl (.left _ _ (by simp [Link.weight, hs]))
          · exact calmer_setLink hl rfl (.left _ _ (by simp [Link.weight, hs]))
        · cases h
      · cases h
    · cases h
  | greet i =>
    simp only [step] at h
    split at h
    · rename_i l hl
      split at h
      · rename_i ticket outbox hs
        cases h
        refine calmer_setLink hl rfl (.left _ _ ?_)
        simp only [Link.weight, hs, Session.unused_start]
        omega
      · cases h
    · cases h
  | read i =>
    obtain ⟨l, ticket, session, hl, hs, h⟩ := withSession_eq_some h
    unfold read at h
    split at h
    · cases h
    · rename_i hopen
      obtain ⟨⟨result, l'⟩, hread, rfl⟩ := Option.map_eq_some_iff.mp h
      have hclosed : (s.refresh session).isClosed = false := by
        simp only [Bool.or_eq_true, not_or, Bool.not_eq_true] at hopen
        exact hopen.1
      have hlt := weight_read_lt hread hclosed
      have hsame : (s.refresh session).unused = session.unused := rfl
      refine calmer_setLink hl rfl (.left _ _ ?_)
      simp only [Link.weight, hs]
      omega
  | work i =>
    obtain ⟨l, ticket, session, hl, hs, h⟩ := withSession_eq_some h
    obtain ⟨session', hadvance, rfl⟩ := Option.map_eq_some_iff.mp h
    have hlt := Session.backlog_advance?_lt hadvance
    refine calmer_setLink hl rfl ?_
    rw [Prod.lex_def] at hlt ⊢
    have hsame : (s.refresh session).backlog = session.backlog := rfl
    rw [hsame] at hlt
    simp only [Link.weight, Link.unsent, hs]
    simp only [Session.backlog] at hlt
    omega
  | part i =>
    obtain ⟨l, ticket, session, hl, hs, h⟩ := withSession_eq_some h
    unfold part at h
    split at h
    · cases h
      exact calmer_setLink hl rfl (.left _ _ (by simp [Link.weight, hs]))
    · cases h
  | _ => cases he

theorem isProgress_nextOfPool? {s : Server γ} {e : ServerEvent} (h : s.nextOfPool? = some e) :
    isProgress e = true := by
  unfold nextOfPool? at h
  split at h
  · cases h; rfl
  · split at h
    · cases h; rfl
    · obtain ⟨i, _, rfl⟩ := Option.map_eq_some_iff.mp h
      rfl

theorem isProgress_nextOfSessions? {s : Server γ} {e : ServerEvent} (h : s.nextOfSessions? = some e) :
    isProgress e = true := by
  obtain ⟨i, _, h⟩ := Option.bind_eq_some_iff.mp h
  obtain ⟨l, _, h⟩ := Option.bind_eq_some_iff.mp h
  obtain rfl := Option.some.inj h
  split <;> rfl

theorem isProgress_nextEvent? {s : Server γ} {e : ServerEvent} (h : s.nextEvent? = some e) :
    isProgress e = true := by
  obtain ⟨c, hc, rfl⟩ := List.exists_of_findSome?_eq_some h
  simp only [candidates, List.mem_cons, List.not_mem_nil, or_false] at hc
  rcases hc with hc | hc | hc | hc | hc | hc
  · exact isProgress_nextOfPool? hc.symm
  case inr.inr.inr.inl => exact isProgress_nextOfSessions? hc.symm
  all_goals
    obtain ⟨_, _, rfl⟩ := Option.map_eq_some_iff.mp hc.symm
    rfl

def advance? (s : Server γ) : Option (Server γ) := s.nextEvent?.bind s.step

def settle (s : Server γ) : Server γ :=
  match _h : s.advance? with
  | none => s
  | some t => settle t
termination_by s.unrest
decreasing_by
  obtain ⟨e, he, h⟩ := Option.bind_eq_some_iff.mp _h
  exact calmer_step h (isProgress_nextEvent? he)

end Server

end FileFerry
