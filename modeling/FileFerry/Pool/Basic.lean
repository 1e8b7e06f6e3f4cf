import FileFerry.Text.Basic

/-! A pool of workers over one queue of tasks. Each step below is one that nothing can come between:
what is done while the lock is held, or the wait, which gives the lock up and falls asleep at once.
Waking a worker is a step of its own, later than the one that gives the reason for it, and a worker
may wake for no reason at all. Any order of steps that `step` allows can happen. -/

set_option autoImplicit false

namespace FileFerry

inductive Worker (α : Type) where
  | awake
  | asleep
  | busy (task : α)
  | gone
  deriving DecidableEq, Repr

structure Pool (α : Type) where
  workers : List (Worker α)
  queue : List α
  stopping : Bool
  /-- How many tasks were queued without waking a worker for them yet. -/
  notices : Nat
  /-- How many calls to stop have not woken all workers yet. -/
  alarms : Nat
  deriving DecidableEq, Repr

/-- How a task ends; either way its worker goes on. -/
inductive TaskEnd where
  | returned
  | panicked
  deriving DecidableEq, Repr

inductive PoolEvent (α : Type) where
  | submit (task : α)
  | notify (worker : Option Nat)
  /-- A worker looks at the queue: it takes a task, goes away, or falls asleep. -/
  | look (worker : Nat)
  | finish (worker : Nat) (how : TaskEnd)
  /-- A worker wakes for no reason. -/
  | stir (worker : Nat)
  | stop
  /-- All sleeping workers wake because the pool stops. -/
  | alarm
  deriving DecidableEq, Repr

/-- What is said of a task that a stopping pool does not take. -/
def poolStopping : Text := text "worker pool is stopping"

namespace Worker

variable {α : Type}

def wake : Worker α → Worker α
  | asleep => awake
  | w => w

def isAsleep : Worker α → Bool
  | asleep => true
  | _ => false

def isAwake : Worker α → Bool
  | awake => true
  | _ => false

def isGone : Worker α → Bool
  | gone => true
  | _ => false

def isBusy : Worker α → Bool
  | busy _ => true
  | _ => false

def task? : Worker α → Option α
  | busy task => some task
  | _ => none

end Worker

namespace Pool

variable {α : Type}

/-- A pool whose workers have not looked at the queue yet. -/
def start (size : Nat) : Pool α := ⟨List.replicate size .awake, [], false, 0, 0⟩

def size (p : Pool α) : Nat := p.workers.length

def running (p : Pool α) : List α := p.workers.filterMap Worker.task?

def isOver (p : Pool α) : Bool := p.workers.all Worker.isGone

/-- Queues a task; a stopping pool takes none. -/
def submit (p : Pool α) (task : α) : Option (Pool α) :=
  if p.stopping then none
  else some { p with queue := p.queue ++ [task], notices := p.notices + 1 }

def setWorker (p : Pool α) (i : Nat) (w : Worker α) : Pool α :=
  { p with workers := p.workers.set i w }

def lookWith (p : Pool α) (i : Nat) : Pool α :=
  match p.queue with
  | task :: rest => { p with queue := rest }.setWorker i (.busy task)
  | [] => p.setWorker i (if p.stopping then .gone else .asleep)

def stop (p : Pool α) : Pool α := { p with stopping := true, alarms := p.alarms + 1 }

def step (p : Pool α) : PoolEvent α → Option (Pool α)
  | .submit task => some ((p.submit task).getD p)
  | .notify (some i) =>
    match p.notices, p.workers[i]? with
    | n + 1, some .asleep => some ({ p with notices := n }.setWorker i .awake)
    | _, _ => none
  | .notify none =>
    match p.notices with
    | 0 => none
    | n + 1 => if p.workers.any Worker.isAsleep then none else some { p with notices := n }
  | .look i =>
    match p.workers[i]? with
    | some .awake => some (p.lookWith i)
    | _ => none
  | .finish i _ =>
    match p.workers[i]? with
    | some (.busy _) => some (p.setWorker i .awake)
    | _ => none
  | .stir i =>
    match p.workers[i]? with
    | some .asleep => some (p.setWorker i .awake)
    | _ => none
  | .stop => some p.stop
  | .alarm =>
    match p.alarms with
    | 0 => none
    | n + 1 => some { p with alarms := n, workers := p.workers.map Worker.wake }

def steps (p : Pool α) (events : List (PoolEvent α)) : Option (Pool α) := events.foldlM step p

@[simp] theorem steps_nil (p : Pool α) : p.steps [] = some p := rfl

@[simp] theorem steps_cons (p : Pool α) (e : PoolEvent α) (events : List (PoolEvent α)) :
    p.steps (e :: events) = (p.step e).bind fun q => q.steps events := rfl

@[simp] theorem size_setWorker (p : Pool α) (i : Nat) (w : Worker α) :
    (p.setWorker i w).size = p.size := by simp [size, setWorker]

@[simp] theorem size_lookWith (p : Pool α) (i : Nat) : (p.lookWith i).size = p.size := by
  unfold lookWith
  split
  · exact size_setWorker ..
  · exact size_setWorker ..

theorem size_step {p q : Pool α} {e : PoolEvent α} (h : p.step e = some q) : q.size = p.size := by
  cases e with
  | submit task =>
    simp only [step, submit, Option.some.injEq] at h
    split at h <;> (subst h; rfl)
  | notify worker =>
    cases worker <;> simp only [step] at h
    · split at h
      · cases h
      · split at h
        · cases h
        · cases h; rfl
    · split at h
      · cases h; exact size_setWorker ..
      · cases h
  | look i =>
    simp only [step] at h
    split at h
    · cases h; exact size_lookWith ..
    · cases h
  | finish i how =>
    simp only [step] at h
    split at h
    · cases h; exact size_setWorker ..
    · cases h
  | stir i =>
    simp only [step] at h
    split at h
    · cases h; exact size_setWorker ..
    · cases h
  | stop => cases h; rfl
  | alarm =>
    simp only [step] at h
    split at h
    · cases h
    · cases h; simp [size]

end Pool

end FileFerry
