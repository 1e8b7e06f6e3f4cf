import FileFerry.Pool.Basic
import Mathlib.Data.List.Perm.Basic

/-!
# What can happen in a pool

`Moves p e q` has one case for everything that an event can do, with what has to be so before it.
What a step keeps is read off these cases, and what a run keeps off the steps.
-/

set_option autoImplicit false

namespace FileFerry

namespace Pool

open scoped List

variable {α : Type}

inductive Moves (p : Pool α) : PoolEvent α → Pool α → Prop where
  | accepts {task : α} (hopen : p.stopping = false) :
      Moves p (.submit task) { p with queue := p.queue ++ [task], notices := p.notices + 1 }
  | refuses {task : α} (hstop : p.stopping = true) : Moves p (.submit task) p
  | notifies {i n : Nat} (hn : p.notices = n + 1) (hw : p.workers[i]? = some .asleep) :
      Moves p (.notify (some i)) ({ p with notices := n }.setWorker i .awake)
  | notifiesNobody {n : Nat} (hn : p.notices = n + 1) (hw : p.workers.any Worker.isAsleep = false) :
      Moves p (.notify none) { p with notices := n }
  | takes {i : Nat} {task : α} {rest : List α} (hw : p.workers[i]? = some .awake)
      (hqueue : p.queue = task :: rest) :
      Moves p (.look i) ({ p with queue := rest }.setWorker i (.busy task))
  | leaves {i : Nat} (hw : p.workers[i]? = some .awake) (hqueue : p.queue = [])
      (hstop : p.stopping = true) : Moves p (.look i) (p.setWorker i .gone)
  | sleeps {i : Nat} (hw : p.workers[i]? = some .awake) (hqueue : p.queue = [])
      (hopen : p.stopping = false) : Moves p (.look i) (p.setWorker i .asleep)
  | finishes {i : Nat} {task : α} {how : TaskEnd} (hw : p.workers[i]? = some (.busy task)) :
      Moves p (.finish i how) (p.setWorker i .awake)
  | stirs {i : Nat} (hw : p.workers[i]? = some .asleep) : Moves p (.stir i) (p.setWorker i .awake)
  | stops : Moves p .stop p.stop
  | alarms {n : Nat} (hn : p.alarms = n + 1) :
      Moves p .alarm { p with alarms := n, workers := p.workers.map Worker.wake }

theorem moves_of_look {p : Pool α} {i : Nat} (hw : p.workers[i]? = some .awake) :
    Moves p (.look i) (p.lookWith i) := by
  unfold lookWith
  cases hqueue : p.queue with
  | cons task rest => exact .takes hw hqueue
  | nil =>
    cases hstop : p.stopping with
    | true => exact .leaves hw hqueue hstop
    | false => exact .sleeps hw hqueue hstop

theorem moves_of_step {p q : Pool α} {e : PoolEvent α} (h : p.step e = some q) : Moves p e q := by
  cases e with
  | submit task =>
    cases hstop : p.stopping with
    | true =>
      simp only [step, submit, hstop, if_true, Option.getD_none, Option.some.injEq] at h
      subst h
      exact .refuses hstop
    | false =>
      simp only [step, submit, hstop, Bool.false_eq_true, if_false, Option.getD_some,
        Option.some.injEq] at h
      subst h
      simpa only [hstop] using @Moves.accepts _ p task hstop
  | notify worker =>
    cases worker with
    | none =>
      simp only [step] at h
      split at h
      · cases h
      · rename_i n hn
        split at h
        · cases h
        · rename_i hw
          cases h
          exact .notifiesNobody hn (by simpa using hw)
    | some i =>
      simp only [step] at h
      split at h
      · rename_i n hn hw
        cases h
        exact .notifies hn hw
      · cases h
  | look i =>
    simp only [step] at h
    split at h
    · rename_i hw
      cases h
      exact moves_of_look hw
    · cases h
  | finish i how =>
    simp only [step] at h
    split at h
    · rename_i hw
      cases h
      exact .finishes hw
    · cases h
  | stir i =>
    simp only [step] at h
    split at h
    · rename_i hw
      cases h
      exact .stirs hw
    · cases h
  | stop =>
    cases h
    exact .stops
  | alarm =>
    simp only [step] at h
    split at h
    · cases h
    · rename_i n hn
      cases h
      exact .alarms hn

theorem steps_cons_eq_some {p r : Pool α} {e : PoolEvent α} {events : List (PoolEvent α)}
    (h : p.steps (e :: events) = some r) : ∃ q, p.step e = some q ∧ q.steps events = some r :=
  Option.bind_eq_some_iff.mp h

/-- What every step keeps, every run keeps. -/
theorem steps_keep {P : Pool α → Prop} (hstep : ∀ {p e q}, Moves p e q → P p → P q) {p q : Pool α}
    {events : List (PoolEvent α)} (h : p.steps events = some q) (hp : P p) : P q := by
  induction events generalizing p with
  | nil =>
    cases h
    exact hp
  | cons e events ih =>
    obtain ⟨r, hr, h⟩ := steps_cons_eq_some h
    exact ih h (hstep (moves_of_step hr) hp)

/-! ## The workers after a step -/

/-- One worker has become another, and no other worker has changed. -/
theorem split_setWorker {p : Pool α} {i : Nat} {w : Worker α} (h : p.workers[i]? = some w) (v : Worker α) :
    ∃ before after, p.workers = before ++ w :: after ∧
      (p.setWorker i v).workers = before ++ v :: after := by
  obtain ⟨hi, rfl⟩ := List.getElem?_eq_some_iff.mp h
  refine ⟨p.workers.take i, p.workers.drop (i + 1), ?_, ?_⟩
  · rw [List.getElem_cons_drop, List.take_append_drop]
  · rw [setWorker, List.set_eq_take_append_cons_drop, if_pos hi]

theorem mem_of_mem_setWorker {p : Pool α} {i : Nat} {v w : Worker α} (hv : v ≠ w)
    (h : w ∈ (p.setWorker i v).workers) : w ∈ p.workers := by
  rcases List.mem_or_eq_of_mem_set h with h | h
  · exact h
  · exact absurd h.symm hv

theorem perm_running_setWorker {p : Pool α} {i : Nat} {w : Worker α} (h : p.workers[i]? = some w)
    (v : Worker α) : p.running ++ v.task?.toList ~ w.task?.toList ++ (p.setWorker i v).running := by
  obtain ⟨before, after, hp, hq⟩ := split_setWorker h v
  have hmiddle : ∀ u : Worker α, (before ++ u :: after).filterMap Worker.task? =
      before.filterMap Worker.task? ++ (u.task?.toList ++ after.filterMap Worker.task?) := by
    intro u
    rw [List.filterMap_append]
    cases hu : u.task? <;> simp [hu]
  rw [running, running, hp, hq, hmiddle, hmiddle]
  generalize before.filterMap Worker.task? = b
  generalize after.filterMap Worker.task? = a
  generalize w.task?.toList = x
  generalize v.task?.toList = y
  calc b ++ (x ++ a) ++ y = b ++ x ++ (a ++ y) := by simp
    _ ~ b ++ x ++ (y ++ a) := List.perm_append_comm.append_left _
    _ ~ x ++ b ++ (y ++ a) := List.perm_append_comm.append_right _
    _ = x ++ (b ++ (y ++ a)) := List.append_assoc ..

@[simp] theorem task?_wake (w : Worker α) : w.wake.task? = w.task? := by
  cases w <;> rfl

theorem running_wake (p : Pool α) (n : Nat) :
    ({ p with alarms := n, workers := p.workers.map Worker.wake } : Pool α).running = p.running := by
  simp only [running, List.filterMap_map]
  congr 1
  funext w
  exact task?_wake w

theorem length_running_le (p : Pool α) : p.running.length ≤ p.size := List.length_filterMap_le _ _

theorem size_steps {p q : Pool α} {events : List (PoolEvent α)} (h : p.steps events = some q) :
    q.size = p.size := by
  induction events generalizing p with
  | nil =>
    cases h
    rfl
  | cons e events ih =>
    obtain ⟨r, hr, h⟩ := steps_cons_eq_some h
    exact (ih h).trans (size_step hr)

end Pool

end FileFerry
