import FileFerry.Pool.Schedule
import FileFerry.Proofs.Pool.Moves

/-!
# Tasks are run once, in order, and all of them before the workers go

A run of a pool is any list of events that it allows. The tasks it accepts are those it starts,
followed by those that still wait; what it starts it runs to an end once. No worker goes away while
anything waits, so nothing is left when all are gone (`tasks_run_once_in_order`).
-/

set_option autoImplicit false

namespace FileFerry

namespace Pool

open scoped List

variable {α : Type}

/-- The task that an event puts in the queue. -/
def accepts (p : Pool α) : PoolEvent α → List α
  | .submit task => if p.stopping then [] else [task]
  | _ => []

/-- The task that a worker starts in an event. -/
def starts (p : Pool α) : PoolEvent α → List α
  | .look _ => p.queue.take 1
  | _ => []

/-- The task that ends in an event. -/
def ends (p : Pool α) (e : PoolEvent α) : List α := (p.endedBy e).toList

/-- What the events of a run come to, each taken where it happens. -/
def along (f : Pool α → PoolEvent α → List α) : Pool α → List (PoolEvent α) → List α
  | _, [] => []
  | p, e :: events => f p e ++ match p.step e with
    | some q => along f q events
    | none => []

abbrev accepted (p : Pool α) (events : List (PoolEvent α)) : List α := along accepts p events

abbrev started (p : Pool α) (events : List (PoolEvent α)) : List α := along starts p events

abbrev ended (p : Pool α) (events : List (PoolEvent α)) : List α := along ends p events

theorem along_cons {f : Pool α → PoolEvent α → List α} {p q : Pool α} {e : PoolEvent α}
    (h : p.step e = some q) (events : List (PoolEvent α)) :
    along f p (e :: events) = f p e ++ along f q events := by
  simp only [along, h]

theorem along_append {f : Pool α → PoolEvent α → List α} {p q : Pool α}
    {before : List (PoolEvent α)} (h : p.steps before = some q) (after : List (PoolEvent α)) :
    along f p (before ++ after) = along f p before ++ along f q after := by
  induction before generalizing p with
  | nil =>
    cases h
    rfl
  | cons e before ih =>
    obtain ⟨r, hr, h⟩ := steps_cons_eq_some h
    rw [List.cons_append, along_cons hr, along_cons hr, ih h, List.append_assoc]

/-- A task can only be accepted where it is submitted. -/
theorem submit_mem_of_accepted {p : Pool α} {task : α} {events : List (PoolEvent α)}
    (h : task ∈ accepted p events) : PoolEvent.submit task ∈ events := by
  induction events generalizing p with
  | nil => cases h
  | cons e events ih =>
    simp only [accepted, along] at h
    rcases List.mem_append.mp h with h | h
    · cases e with
      | submit other =>
        simp only [accepts] at h
        split at h
        · cases h
        · rw [List.mem_singleton.mp h]
          exact List.mem_cons_self
      | _ => cases h
    · split at h
      · exact List.mem_cons_of_mem _ (ih h)
      · cases h

/-! ## One step -/

theorem queue_step {p q : Pool α} {e : PoolEvent α} (h : Moves p e q) :
    p.queue ++ p.accepts e = p.starts e ++ q.queue := by
  cases h with
  | accepts hopen => simp [accepts, starts, hopen]
  | refuses hstop => simp [accepts, starts, hstop]
  | takes hw hqueue => simp [accepts, starts, setWorker, hqueue]
  | leaves hw hqueue | sleeps hw hqueue => simp [accepts, starts, setWorker, hqueue]
  | notifies | notifiesNobody | finishes | stirs | stops | alarms => exact List.append_nil _

theorem running_step {p q : Pool α} {e : PoolEvent α} (h : Moves p e q) :
    p.running ++ p.starts e ~ p.ends e ++ q.running := by
  cases h with
  | @takes i task rest hw hqueue =>
    have hset := perm_running_setWorker hw (.busy task)
    rw [starts, hqueue]
    exact hset
  | leaves hw hqueue =>
    have hset := perm_running_setWorker hw .gone
    rw [starts, hqueue]
    exact hset
  | sleeps hw hqueue =>
    have hset := perm_running_setWorker hw .asleep
    rw [starts, hqueue]
    exact hset
  | finishes hw =>
    have hset := perm_running_setWorker hw .awake
    simp only [starts, ends, endedBy, hw]
    exact hset
  | notifies hn hw => exact perm_running_setWorker hw .awake
  | stirs hw => exact perm_running_setWorker hw .awake
  | alarms =>
    rw [running_wake]
    exact .of_eq (List.append_nil _)
  | accepts | refuses | notifiesNobody | stops => exact .of_eq (List.append_nil _)

/-- A worker that is gone left when nothing could come any more. -/
def LeftLast (p : Pool α) : Prop := .gone ∈ p.workers → p.stopping = true ∧ p.queue = []

theorem leftLast_step {p q : Pool α} {e : PoolEvent α} (h : Moves p e q) (hp : p.LeftLast) :
    q.LeftLast := by
  intro hgone
  cases h with
  | accepts hopen =>
    have hstop := (hp hgone).1
    rw [hopen] at hstop
    cases hstop
  | refuses => exact hp hgone
  | notifies | sleeps | finishes | stirs => exact hp (mem_of_mem_setWorker (by simp) hgone)
  | notifiesNobody => exact hp hgone
  | takes hw hqueue =>
    have hempty := (hp (mem_of_mem_setWorker (p := { p with queue := _ }) (by simp) hgone)).2
    rw [hqueue] at hempty
    cases hempty
  | leaves hw hqueue hstop => exact ⟨hstop, hqueue⟩
  | stops => exact ⟨rfl, (hp hgone).2⟩
  | alarms =>
    obtain ⟨w, hw, hwake⟩ := List.mem_map.mp hgone
    cases w with
    | gone => exact hp hw
    | _ => cases hwake

theorem gone_of_setWorker {p : Pool α} {i j : Nat} {v : Worker α} (hi : p.workers[i]? ≠ some .gone)
    (h : (p.setWorker j v).workers[i]? = some .gone) : j = i ∧ v = .gone := by
  simp only [setWorker, List.getElem?_set] at h
  split at h
  · rename_i heq
    split at h
    · exact ⟨heq, Option.some.inj h⟩
    · cases h
  · exact absurd h hi

/-- A worker leaves only when it finds the queue of a stopping pool empty. -/
theorem leaves_of_gone {p q : Pool α} {e : PoolEvent α} {i : Nat} (h : Moves p e q)
    (hi : p.workers[i]? ≠ some .gone) (hgone : q.workers[i]? = some .gone) :
    e = .look i ∧ p.stopping = true ∧ p.queue = [] := by
  cases h with
  | leaves hw hqueue hstop =>
    obtain ⟨rfl, _⟩ := gone_of_setWorker hi hgone
    exact ⟨rfl, hstop, hqueue⟩
  | accepts | refuses | notifiesNobody | stops => exact absurd hgone hi
  | notifies | takes | sleeps | finishes | stirs => cases (gone_of_setWorker hi hgone).2
  | alarms =>
    obtain ⟨w, hw, hwake⟩ := Option.map_eq_some_iff.mp (List.getElem?_map ▸ hgone)
    cases w with
    | gone => exact absurd hw hi
    | _ => cases hwake

/-! ## Runs -/

theorem queue_steps {p q : Pool α} {events : List (PoolEvent α)} (h : p.steps events = some q) :
    p.queue ++ accepted p events = started p events ++ q.queue := by
  induction events generalizing p with
  | nil =>
    cases h
    exact List.append_nil _
  | cons e events ih =>
    obtain ⟨r, hr, h⟩ := steps_cons_eq_some h
    rw [accepted, started, along_cons hr, along_cons hr, ← List.append_assoc, queue_step (moves_of_step hr),
      List.append_assoc, List.append_assoc, ih h]

theorem running_steps {p q : Pool α} {events : List (PoolEvent α)} (h : p.steps events = some q) :
    p.running ++ started p events ~ ended p events ++ q.running := by
  induction events generalizing p with
  | nil =>
    cases h
    exact .of_eq (List.append_nil _)
  | cons e events ih =>
    obtain ⟨r, hr, h⟩ := steps_cons_eq_some h
    rw [started, ended, along_cons hr, along_cons hr, ← List.append_assoc, List.append_assoc (p.ends e)]
    calc p.running ++ p.starts e ++ started r events
      _ ~ p.ends e ++ r.running ++ started r events := (running_step (moves_of_step hr)).append_right _
      _ = p.ends e ++ (r.running ++ started r events) := List.append_assoc ..
      _ ~ p.ends e ++ (ended r events ++ q.running) := (ih h).append_left _

theorem running_start (size : Nat) : (start size : Pool α).running = [] := by
  induction size with
  | zero => rfl
  | succ size ih => exact ih

theorem leftLast_start (size : Nat) : (start size : Pool α).LeftLast := by
  intro hgone
  cases List.eq_of_mem_replicate hgone

theorem running_of_isOver {p : Pool α} (h : p.isOver = true) : p.running = [] := by
  rw [running, List.filterMap_eq_nil_iff]
  intro w hw
  have hgone := List.all_eq_true.mp h w hw
  cases w with
  | gone => rfl
  | _ => cases hgone

theorem gone_mem_of_isOver {p : Pool α} (h : p.isOver = true) (hsize : 0 < p.size) : .gone ∈ p.workers := by
  obtain ⟨w, hw⟩ := List.exists_mem_of_length_pos hsize
  have hgone := List.all_eq_true.mp h w hw
  cases w with
  | gone => exact hw
  | _ => cases hgone

/-- The worker of a task that ends, in whatever way, takes what waits next. -/
theorem takes_after_finish {p : Pool α} {i : Nat} {task : α} (hw : p.workers[i]? = some (.busy task))
    (how : TaskEnd) :
    ∃ q, p.step (.finish i how) = some q ∧ q.queue = p.queue ∧
      ∀ next rest, p.queue = next :: rest →
        ∃ r, q.step (.look i) = some r ∧ r.workers[i]? = some (.busy next) ∧ r.queue = rest := by
  obtain ⟨hi, _⟩ := List.getElem?_eq_some_iff.mp hw
  have hawake : (p.setWorker i .awake).workers[i]? = some .awake := List.getElem?_set_self hi
  refine ⟨p.setWorker i .awake, by simp only [step, hw], rfl, ?_⟩
  intro next rest hqueue
  have hqueue' : (p.setWorker i .awake).queue = next :: rest := hqueue
  refine ⟨{ p.setWorker i .awake with queue := rest }.setWorker i (.busy next), ?_, ?_, rfl⟩
  · simp only [step, hawake, lookWith, hqueue']
  · exact List.getElem?_set_self (by simpa [setWorker] using hi)

/-- A task that a stopping pool refuses never starts. -/
theorem not_started_of_refused {p q r : Pool α} {before after : List (PoolEvent α)} {task : α}
    (hqueue : p.queue = []) (hbefore : p.steps before = some q) (hstop : q.stopping = true)
    (h : p.steps (before ++ .submit task :: after) = some r)
    (honce : .submit task ∉ before ++ after) : task ∉ started p (before ++ .submit task :: after) := by
  intro hstarted
  have hrefused : q.step (.submit task) = some q := by simp [step, submit, hstop]
  have hall := queue_steps h
  rw [hqueue, List.nil_append] at hall
  have haccepted : task ∈ accepted p (before ++ .submit task :: after) := by
    rw [hall]
    exact List.mem_append_left _ hstarted
  rw [accepted, along_append hbefore, along_cons hrefused] at haccepted
  simp only [accepts, hstop, if_true, List.nil_append] at haccepted
  apply honce
  rcases List.mem_append.mp haccepted with hmem | hmem
  · exact List.mem_append_left _ (submit_mem_of_accepted hmem)
  · exact List.mem_append_right _ (submit_mem_of_accepted hmem)

/-- In every run of a pool the accepted tasks are, in order, those started and those that wait; what was
started is running or has ended, once; a worker survives the end of its task; a task that is
refused never starts; and when all workers are gone every accepted task has ended. -/
theorem tasks_run_once_in_order {size : Nat} (hsize : 0 < size) {events : List (PoolEvent α)} {p : Pool α}
    (h : (start size).steps events = some p) :
    accepted (start size) events = started (start size) events ++ p.queue ∧
      started (start size) events ~ ended (start size) events ++ p.running ∧
      p.running.length ≤ size ∧
      (∀ i task how, p.workers[i]? = some (.busy task) →
        ∃ q, p.step (.finish i how) = some q ∧ q.queue = p.queue ∧
          ∀ next rest, p.queue = next :: rest →
            ∃ r, q.step (.look i) = some r ∧ r.workers[i]? = some (.busy next) ∧ r.queue = rest) ∧
      (∀ before task after q, events = before ++ .submit task :: after →
        (start size).steps before = some q → q.stopping = true →
          q.submit task = none ∧
            (.submit task ∉ before ++ after → task ∉ started (start size) events)) ∧
      (∀ e q i, p.step e = some q → p.workers[i]? ≠ some .gone → q.workers[i]? = some .gone →
        e = .look i ∧ p.stopping = true ∧ p.queue = []) ∧
      (p.isOver = true →
        p.queue = [] ∧ p.running = [] ∧
          ended (start size) events ~ accepted (start size) events) := by
  have hqueue : accepted (start size) events = started (start size) events ++ p.queue := queue_steps h
  have hrunning := running_steps h
  rw [running_start, List.nil_append] at hrunning
  have hsize' : p.size = size := (size_steps h).trans List.length_replicate
  refine ⟨hqueue, hrunning, hsize' ▸ length_running_le p, ?_, ?_, ?_, ?_⟩
  · intro i task how hw
    exact takes_after_finish hw how
  · intro before task after q hevents hbefore hstop
    subst hevents
    exact ⟨by simp [submit, hstop], not_started_of_refused rfl hbefore hstop h⟩
  · intro e q i hstep
    exact leaves_of_gone (moves_of_step hstep)
  · intro hover
    have hlast := steps_keep leftLast_step h (leftLast_start size)
    have hempty := (hlast (gone_mem_of_isOver hover (hsize' ▸ hsize))).2
    have hidle := running_of_isOver hover
    rw [hempty, List.append_nil] at hqueue
    rw [hidle, List.append_nil] at hrunning
    exact ⟨hempty, hidle, hqueue ▸ hrunning.symm⟩

/-- One worker, a task that panics, one that waits behind it, and one that comes too late. -/
theorem tasks_run_once_in_order_panicking :
    let events : List (PoolEvent Nat) := [.submit 1, .submit 2, .look 0, .finish 0 .panicked, .stop,
      .submit 3, .look 0, .finish 0 .returned, .look 0]
    ∃ p, 0 < 1 ∧ (start 1).steps events = some p ∧ p.isOver = true ∧ p.queue = [] ∧
      ended (start 1) events ~ [1, 2] ∧ 3 ∉ started (start 1) events := by
  intro events
  have hrun : ((start 1).steps events).isSome = true := by decide
  obtain ⟨p, hp⟩ := Option.isSome_iff_exists.mp hrun
  have hover : p.isOver = true := by
    have hall : ((start 1).steps events).all Pool.isOver = true := by decide
    rwa [hp] at hall
  obtain ⟨_, _, _, _, hlate, _, hend⟩ := tasks_run_once_in_order Nat.one_pos hp
  obtain ⟨hempty, _, hperm⟩ := hend hover
  have hstop : ∃ q, (start 1).steps (events.take 5) = some q ∧ q.stopping = true := ⟨_, rfl, rfl⟩
  obtain ⟨q, hq, hqstop⟩ := hstop
  have hnever := (hlate (events.take 5) 3 (events.drop 6) q rfl hq hqstop).2 (by decide)
  exact ⟨p, Nat.one_pos, hp, hover, hempty, hperm, hnever⟩

end Pool

end FileFerry
