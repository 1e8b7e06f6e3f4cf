import FileFerry.Pool.Basic

/-! One of the orders in which things can happen to a pool: notices are delivered at once, workers look
before tasks end, and of several workers the first goes first. Followed long enough, it leaves every
worker asleep, gone, or busy with a task that does not end yet. -/

set_option autoImplicit false

namespace FileFerry

def PoolEvent.isProgress {α : Type} : PoolEvent α → Bool
  | .notify _ | .look _ | .finish _ _ | .alarm => true
  | .submit _ | .stir _ | .stop => false

namespace Pool

variable {α : Type}

def tasksLeft (p : Pool α) : Nat := p.queue.length + p.workers.countP Worker.isBusy

/-- How much waking and looking is to be done before the next task ends. -/
def restlessness (p : Pool α) : Nat :=
  2 * p.notices + (p.size + 1) * p.alarms + p.workers.countP Worker.isAwake

/-- What bounds the events that bring a pool to rest. -/
def unrest (p : Pool α) : Nat × Nat := (p.tasksLeft, p.restlessness)

theorem countP_setWorker {p : Pool α} {i : Nat} {w : Worker α} (h : p.workers[i]? = some w)
    (f : Worker α → Bool) (v : Worker α) :
    (p.setWorker i v).workers.countP f + (f w).toNat = p.workers.countP f + (f v).toNat := by
  obtain ⟨hi, rfl⟩ := List.getElem?_eq_some_iff.mp h
  have hle : (f p.workers[i]).toNat ≤ p.workers.countP f := by
    cases hf : f p.workers[i] with
    | true => exact List.countP_pos_iff.mpr ⟨_, List.getElem_mem hi, hf⟩
    | false => exact Nat.zero_le _
  simp only [setWorker, List.countP_set hi]
  cases hf : f p.workers[i] <;> cases f v <;> simp_all

theorem countP_wake_le (workers : List (Worker α)) :
    (workers.map Worker.wake).countP Worker.isAwake ≤ workers.length :=
  Nat.le_trans List.countP_le_length (Nat.le_of_eq (List.length_map ..))

theorem countP_isBusy_wake (workers : List (Worker α)) :
    (workers.map Worker.wake).countP Worker.isBusy = workers.countP Worker.isBusy := by
  rw [List.countP_map]
  congr 1
  funext w
  cases w <;> rfl

theorem unrest_step_lt {p q : Pool α} {e : PoolEvent α} (h : p.step e = some q)
    (he : e.isProgress = true) : Prod.Lex (· < ·) (· < ·) q.unrest p.unrest := by
  cases e with
  | submit _ | stir _ | stop => cases he
  | notify worker =>
    have hlt : q.tasksLeft = p.tasksLeft ∧ q.restlessness < p.restlessness := by
      cases worker with
      | none =>
        simp only [step] at h
        split at h
        · cases h
        · rename_i hn
          split at h
          · cases h
          · cases h
            refine ⟨rfl, ?_⟩
            simp only [restlessness, size, hn]
            omega
      | some i =>
        simp only [step] at h
        split at h
        · rename_i n hn hw
          cases h
          have hb := countP_setWorker (p := { p with notices := n }) hw Worker.isBusy .awake
          have ha := countP_setWorker (p := { p with notices := n }) hw Worker.isAwake .awake
          have hs := size_setWorker { p with notices := n } i .awake
          simp only [Worker.isBusy, Worker.isAwake, Bool.toNat_false, Bool.toNat_true] at hb ha
          simp only [tasksLeft, restlessness, hs]
          simp only [setWorker, size] at *
          omega
        · cases h
    rw [unrest, unrest, hlt.1]
    exact .right _ hlt.2
  | look i =>
    simp only [step] at h
    split at h
    · rename_i hw
      cases h
      have hlt : (p.lookWith i).tasksLeft = p.tasksLeft ∧
          (p.lookWith i).restlessness < p.restlessness := by
        unfold lookWith
        split
        · rename_i task rest hq
          have hb := countP_setWorker (p := { p with queue := rest }) hw Worker.isBusy (.busy task)
          have ha := countP_setWorker (p := { p with queue := rest }) hw Worker.isAwake (.busy task)
          have hs := size_setWorker { p with queue := rest } i (.busy task)
          simp only [Worker.isBusy, Worker.isAwake, Bool.toNat_false, Bool.toNat_true] at hb ha
          simp only [tasksLeft, restlessness, hs, hq, List.length_cons]
          simp only [setWorker, size] at *
          omega
        · rename_i hq
          have hb := countP_setWorker hw Worker.isBusy (if p.stopping then .gone else .asleep)
          have ha := countP_setWorker hw Worker.isAwake (if p.stopping then .gone else .asleep)
          have hs := size_setWorker p i (if p.stopping then .gone else .asleep)
          have hnb : (if p.stopping then .gone else .asleep : Worker α).isBusy = false := by
            split <;> rfl
          have hna : (if p.stopping then .gone else .asleep : Worker α).isAwake = false := by
            split <;> rfl
          rw [hnb] at hb
          rw [hna] at ha
          simp only [Worker.isBusy, Worker.isAwake, Bool.toNat_false, Bool.toNat_true] at hb ha
          simp only [tasksLeft, restlessness, hs]
          simp only [setWorker, size] at *
          omega
      rw [unrest, unrest, hlt.1]
      exact .right _ hlt.2
    · cases h
  | finish i how =>
    simp only [step] at h
    split at h
    · rename_i task hw
      cases h
      have hb := countP_setWorker hw Worker.isBusy .awake
      simp only [Worker.isBusy, Bool.toNat_false, Bool.toNat_true] at hb
      refine .left _ _ ?_
      simp only [tasksLeft, setWorker] at *
      omega
    · cases h
  | alarm =>
    simp only [step] at h
    split at h
    · cases h
    · rename_i n hn
      cases h
      have hle := countP_wake_le p.workers
      have hlt : ({ p with alarms := n, workers := p.workers.map Worker.wake } : Pool α).tasksLeft =
          p.tasksLeft ∧
          ({ p with alarms := n, workers := p.workers.map Worker.wake } : Pool α).restlessness <
            p.restlessness := by
        refine ⟨congrArg (p.queue.length + ·) (countP_isBusy_wake _), ?_⟩
        simp only [restlessness, size, List.length_map, hn, Nat.succ_eq_add_one, Nat.mul_add]
        omega
      rw [unrest, unrest, hlt.1]
      exact .right _ hlt.2

def ending? (ends : α → Option TaskEnd) (w : Worker α) : Option TaskEnd := w.task?.bind ends

def nextEvent? (ends : α → Option TaskEnd) (p : Pool α) : Option (PoolEvent α) :=
  if 0 < p.notices then some (.notify (p.workers.findIdx? Worker.isAsleep))
  else if 0 < p.alarms then some .alarm
  else match p.workers.findIdx? Worker.isAwake with
    | some i => some (.look i)
    | none => do
      let i ← p.workers.findIdx? fun w => (ending? ends w).isSome
      let how ← (p.workers[i]?).bind (ending? ends)
      return .finish i how

theorem isProgress_nextEvent? {ends : α → Option TaskEnd} {p : Pool α} {e : PoolEvent α}
    (h : p.nextEvent? ends = some e) : e.isProgress = true := by
  unfold nextEvent? at h
  split at h
  · cases h; rfl
  · split at h
    · cases h; rfl
    · split at h
      · cases h; rfl
      · obtain ⟨i, _, h⟩ := Option.bind_eq_some_iff.mp h
        obtain ⟨how, _, h⟩ := Option.bind_eq_some_iff.mp h
        cases h
        rfl

def endedBy (p : Pool α) : PoolEvent α → Option α
  | .finish i _ => p.workers[i]?.bind Worker.task?
  | _ => none

def advance? (ends : α → Option TaskEnd) (p : Pool α) : Option (Option α × Pool α) := do
  let e ← p.nextEvent? ends
  let q ← p.step e
  return (p.endedBy e, q)

theorem unrest_advance?_lt {ends : α → Option TaskEnd} {p q : Pool α} {task : Option α}
    (h : p.advance? ends = some (task, q)) : Prod.Lex (· < ·) (· < ·) q.unrest p.unrest := by
  obtain ⟨e, he, h⟩ := Option.bind_eq_some_iff.mp h
  obtain ⟨r, hr, h⟩ := Option.bind_eq_some_iff.mp h
  cases h
  exact unrest_step_lt hr (isProgress_nextEvent? he)

/-- Brings a pool to rest; gives the tasks that end, in order. -/
def settle (ends : α → Option TaskEnd) (p : Pool α) : List α × Pool α :=
  match _h : p.advance? ends with
  | none => ([], p)
  | some (task, q) =>
    let (tasks, r) := q.settle ends
    (task.toList ++ tasks, r)
termination_by p.unrest
decreasing_by exact unrest_advance?_lt _h

end Pool

end FileFerry
