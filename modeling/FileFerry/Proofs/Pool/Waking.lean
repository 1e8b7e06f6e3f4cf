import FileFerry.Proofs.Pool.Order

/-!
# No task is left to a worker that sleeps

A worker falls asleep only when nothing waits, and each task that is queued later brings a notice. The
notice may come late, wake another worker than the one that takes the task, or find nobody asleep, and
workers may wake without one. So what is kept is a count: while anybody sleeps, no more tasks wait than
workers are awake and notices owed (`Attended`). Once a call to stop has woken the workers none of them
sleeps again (`Roused`), and it waits in vain for none.
-/

set_option autoImplicit false

namespace FileFerry

namespace PoolEvent

variable {α : Type}

def isNotice : PoolEvent α → Bool
  | notify _ => true
  | _ => false

def isStop : PoolEvent α → Bool
  | stop => true
  | _ => false

def isAlarm : PoolEvent α → Bool
  | alarm => true
  | _ => false

end PoolEvent

namespace Pool

variable {α : Type}

theorem asleep_not_mem_wake (workers : List (Worker α)) : .asleep ∉ workers.map Worker.wake := by
  intro h
  obtain ⟨w, -, hw⟩ := List.mem_map.mp h
  cases w <;> cases hw

theorem asleep_not_mem_of_any {p : Pool α} (h : p.workers.any Worker.isAsleep = false) :
    .asleep ∉ p.workers := by
  intro hmem
  have hawake := List.any_eq_false.mp h _ hmem
  exact hawake rfl

/-- A worker that was not awake adds to those that are. -/
theorem countP_awake_setWorker {p : Pool α} {i : Nat} {w : Worker α} (h : p.workers[i]? = some w)
    (hw : w.isAwake = false) :
    (p.setWorker i .awake).workers.countP Worker.isAwake = p.workers.countP Worker.isAwake + 1 := by
  have hcount := countP_setWorker h Worker.isAwake .awake
  rw [hw] at hcount
  exact hcount

/-! ## Tasks and workers -/

/-- While anybody sleeps, every task that waits has a worker that is awake or a notice that is owed. -/
def Attended (p : Pool α) : Prop :=
  .asleep ∈ p.workers → p.queue.length ≤ p.workers.countP Worker.isAwake + p.notices

theorem attended_step {p q : Pool α} {e : PoolEvent α} (h : Moves p e q) (hp : p.Attended) :
    q.Attended := by
  intro hasleep
  cases h with
  | accepts hopen =>
    have hbefore := hp hasleep
    simp only [List.length_append, List.length_singleton]
    omega
  | refuses | stops => exact hp hasleep
  | @notifies i n hn hw =>
    have hbefore := hp (List.mem_of_getElem? hw)
    have hcount := countP_awake_setWorker (p := { p with notices := n }) hw rfl
    rw [hcount]
    rw [hn] at hbefore
    change p.queue.length ≤ p.workers.countP Worker.isAwake + 1 + n
    omega
  | notifiesNobody hn hw => exact absurd hasleep (asleep_not_mem_of_any hw)
  | @takes i task rest hw hqueue =>
    -- the task and the worker that takes it go together
    have hbefore := hp (mem_of_mem_setWorker (p := { p with queue := rest }) (by simp) hasleep)
    have hcount := countP_setWorker (p := { p with queue := rest }) hw Worker.isAwake (.busy task)
    simp only [Worker.isAwake, Bool.toNat_true, Bool.toNat_false] at hcount
    rw [hqueue, List.length_cons] at hbefore
    simp only [setWorker] at hcount ⊢
    omega
  | leaves hw hqueue | sleeps hw hqueue =>
    simp only [setWorker, hqueue, List.length_nil]
    exact Nat.zero_le _
  | finishes hw =>
    have hbefore := hp (mem_of_mem_setWorker (by simp) hasleep)
    rw [countP_awake_setWorker hw rfl]
    simp only [setWorker]
    omega
  | stirs hw =>
    have hbefore := hp (List.mem_of_getElem? hw)
    rw [countP_awake_setWorker hw rfl]
    simp only [setWorker]
    omega
  | alarms => exact absurd hasleep (asleep_not_mem_wake _)

theorem attended_start (size : Nat) : (start size : Pool α).Attended := by
  intro hasleep
  cases List.eq_of_mem_replicate hasleep

/-! ## Stopping -/

/-- All were woken because the pool stops. -/
structure Roused (p : Pool α) : Prop where
  stopping : p.stopping = true
  awake : .asleep ∉ p.workers

theorem roused_step {p q : Pool α} {e : PoolEvent α} (h : Moves p e q) (hp : p.Roused) : q.Roused := by
  obtain ⟨hstop, hawake⟩ := hp
  cases h with
  | accepts hopen | sleeps _ _ hopen =>
    rw [hopen] at hstop
    cases hstop
  | refuses | notifiesNobody => exact ⟨hstop, hawake⟩
  | stops => exact ⟨rfl, hawake⟩
  | notifies _ hw | stirs hw => exact absurd (List.mem_of_getElem? hw) hawake
  | takes => exact ⟨hstop, fun h => hawake (mem_of_mem_setWorker (p := { p with queue := _ }) (by simp) h)⟩
  | leaves | finishes => exact ⟨hstop, fun h => hawake (mem_of_mem_setWorker (by simp) h)⟩
  | alarms => exact ⟨hstop, asleep_not_mem_wake _⟩

/-- All workers are only to be woken once the pool stops. -/
def Called (p : Pool α) : Prop := 0 < p.alarms → p.stopping = true

theorem called_step {p q : Pool α} {e : PoolEvent α} (h : Moves p e q) (hp : p.Called) : q.Called := by
  cases h with
  | stops => exact fun _ => rfl
  | alarms hn => exact fun _ => hp (by omega)
  | _ => exact hp

theorem roused_of_alarm {p q : Pool α} (h : Moves p .alarm q) (hp : p.Called) : q.Roused := by
  cases h with
  | alarms hn => exact ⟨hp (by omega), asleep_not_mem_wake _⟩

/-! ## Runs -/

theorem roused_of_alarm_mem {p q : Pool α} {events : List (PoolEvent α)} (h : p.steps events = some q)
    (hp : p.Called) (halarm : .alarm ∈ events) : q.Roused := by
  induction events generalizing p with
  | nil => cases halarm
  | cons e events ih =>
    obtain ⟨r, hr, hrest⟩ := steps_cons_eq_some h
    have hmoves := moves_of_step hr
    rcases List.mem_cons.mp halarm with rfl | halarm
    · exact steps_keep roused_step hrest (roused_of_alarm hmoves hp)
    · exact ih hrest (called_step hmoves hp) halarm

/-- A notice is owed for every task that was accepted, until it is given. -/
theorem length_accepted_steps {p q : Pool α} {events : List (PoolEvent α)} (h : p.steps events = some q) :
    (accepted p events).length + p.notices = events.countP PoolEvent.isNotice + q.notices := by
  induction events generalizing p with
  | nil =>
    cases h
    rfl
  | cons e events ih =>
    obtain ⟨r, hr, h⟩ := steps_cons_eq_some h
    have hrest : (along accepts r events).length + r.notices =
        events.countP PoolEvent.isNotice + q.notices := ih h
    have hone : (p.accepts e).length + p.notices = (if e.isNotice then 1 else 0) + r.notices := by
      cases moves_of_step hr with
      | accepts hopen => simp [accepts, hopen, PoolEvent.isNotice, Nat.add_comm]
      | refuses hstop => simp [accepts, hstop, PoolEvent.isNotice]
      | notifies hn | notifiesNobody hn => simp [accepts, hn, PoolEvent.isNotice, setWorker, Nat.add_comm]
      | _ => simp [accepts, PoolEvent.isNotice, setWorker, stop]
    rw [accepted, along_cons hr, List.length_append, List.countP_cons]
    omega

/-- Every call to stop has woken the workers, or still has to. -/
theorem countP_isStop_steps {p q : Pool α} {events : List (PoolEvent α)} (h : p.steps events = some q) :
    events.countP PoolEvent.isStop + p.alarms = events.countP PoolEvent.isAlarm + q.alarms := by
  induction events generalizing p with
  | nil =>
    cases h
    rfl
  | cons e events ih =>
    obtain ⟨r, hr, h⟩ := steps_cons_eq_some h
    have hrest := ih h
    have hone : (if e.isStop then 1 else 0) + p.alarms = (if e.isAlarm then 1 else 0) + r.alarms := by
      cases moves_of_step hr with
      | stops => simp [PoolEvent.isStop, PoolEvent.isAlarm, stop, Nat.add_comm]
      | alarms hn => simp [PoolEvent.isStop, PoolEvent.isAlarm, hn, Nat.add_comm]
      | _ => simp [PoolEvent.isStop, PoolEvent.isAlarm, setWorker]
    rw [List.countP_cons, List.countP_cons]
    omega

theorem stop_mem_of_stopping {p q : Pool α} {events : List (PoolEvent α)} (h : p.steps events = some q)
    (hp : p.stopping = false) (hq : q.stopping = true) : .stop ∈ events := by
  induction events generalizing p with
  | nil =>
    cases h
    rw [hp] at hq
    cases hq
  | cons e events ih =>
    obtain ⟨r, hr, h⟩ := steps_cons_eq_some h
    cases hstop : r.stopping with
    | false => exact List.mem_cons_of_mem _ (ih h hstop)
    | true =>
      cases moves_of_step hr with
      | stops => exact List.mem_cons_self
      | _ =>
        change p.stopping = true at hstop
        rw [hp] at hstop
        cases hstop

/-- Wherever a pool comes to while a worker sleeps, no more tasks wait than there are workers awake and not
busy, and notices that submitters still owe; so a task that waits has one of either. As soon as one of
the calls to stop has woken the workers, and this all but those still owed have done, none of them sleeps. -/
theorem no_task_is_stranded {size : Nat} {events : List (PoolEvent α)} {p : Pool α}
    (h : (start size).steps events = some p) :
    (.asleep ∈ p.workers → p.queue.length ≤ p.workers.countP Worker.isAwake + p.notices) ∧
      (.asleep ∈ p.workers → p.queue ≠ [] → .awake ∈ p.workers ∨ 0 < p.notices) ∧
      (accepted (start size) events).length = events.countP PoolEvent.isNotice + p.notices ∧
      (.alarm ∈ events → p.stopping = true ∧ .asleep ∉ p.workers) ∧
      (p.stopping = true → p.alarms = 0 → .asleep ∉ p.workers) ∧
      events.countP PoolEvent.isStop = events.countP PoolEvent.isAlarm + p.alarms := by
  have hattended : p.Attended := steps_keep attended_step h (attended_start size)
  have hcalled : (start size : Pool α).Called := fun halarms => absurd halarms (Nat.lt_irrefl 0)
  have hroused (halarm : .alarm ∈ events) : p.Roused := roused_of_alarm_mem h hcalled halarm
  have hstops : events.countP PoolEvent.isStop = events.countP PoolEvent.isAlarm + p.alarms :=
    countP_isStop_steps h
  refine ⟨hattended, ?_, length_accepted_steps h, ?_, ?_, hstops⟩
  · intro hasleep hqueue
    have hle := hattended hasleep
    have hpos := List.length_pos_iff.mpr hqueue
    by_cases hnotices : 0 < p.notices
    · exact .inr hnotices
    · have hcount : 0 < p.workers.countP Worker.isAwake := by omega
      obtain ⟨w, hmem, hw⟩ := List.countP_pos_iff.mp hcount
      cases w with
      | awake => exact .inl hmem
      | _ => cases hw
  · intro halarm
    exact ⟨(hroused halarm).stopping, (hroused halarm).awake⟩
  · intro hstopping hnone
    have hstop : 0 < events.countP PoolEvent.isStop :=
      List.countP_pos_iff.mpr ⟨.stop, stop_mem_of_stopping h rfl hstopping, rfl⟩
    have halarm : 0 < events.countP PoolEvent.isAlarm := by omega
    obtain ⟨e, hmem, he⟩ := List.countP_pos_iff.mp halarm
    cases e with
    | alarm => exact (hroused hmem).awake
    | _ => cases he

/-- Two tasks, of which only the first was announced, and two workers that slept before. -/
theorem no_task_is_stranded_late_notice :
    let events : List (PoolEvent Nat) := [.look 0, .look 1, .submit 1, .submit 2, .notify (some 1)]
    ∃ p, (start 2).steps events = some p ∧ .asleep ∈ p.workers ∧ p.queue = [1, 2] ∧
      2 ≤ p.workers.countP Worker.isAwake + p.notices := by
  intro events
  let p : Pool Nat := ⟨[.asleep, .awake], [1, 2], false, 1, 0⟩
  have hrun : (start 2).steps events = some p := by decide
  have hasleep : .asleep ∈ p.workers := by decide
  exact ⟨p, hrun, hasleep, rfl, (no_task_is_stranded hrun).1 hasleep⟩

end Pool

end FileFerry
