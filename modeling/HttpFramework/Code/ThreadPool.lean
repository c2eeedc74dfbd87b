import Mathlib.Tactic.Common

/-! `ThreadPool` of the web server. A section under the mutex is one step, and so is a task as far
as the pool is concerned. The call of `notify_one` in `AddTask` comes behind its section, and `wait`
may return without a notification. -/

namespace HttpFramework.Code

/-- Where a thread of the pool stands. -/
inductive PoolThread (τ : Type) where
  /-- It has the mutex or waits for it, and goes through its loop. -/
  | awake
  | waiting
  | running (task : τ)
  | exited
deriving DecidableEq, Repr

namespace PoolThread

variable {τ : Type}

def isAwake : PoolThread τ → Bool
  | .awake => true
  | .waiting | .running _ | .exited => false

def isWaiting : PoolThread τ → Bool
  | .waiting => true
  | .awake | .running _ | .exited => false

def isRunning : PoolThread τ → Bool
  | .running _ => true
  | .awake | .waiting | .exited => false

def task? : PoolThread τ → Option τ
  | .running task => some task
  | .awake | .waiting | .exited => none

/-- What `notify_all` makes of a thread. -/
def notified : PoolThread τ → PoolThread τ
  | .waiting => .awake
  | thread => thread

end PoolThread

/-- How far `~ThreadPool` has come. -/
inductive PoolDestructor where
  | notCalled
  /-- `isClosed` is set, and the threads are still to be notified. -/
  | closed
  | returned
deriving DecidableEq, Repr

/-- The last two fields are history: the tasks in the order in which they were added and in which
threads took them. -/
structure ThreadPool (τ : Type) where
  isClosed : Bool := false
  tasks : List τ := []
  threads : List (PoolThread τ)
  /-- The calls of `AddTask` that have not come to `notify_one`. -/
  unnotified : Nat := 0
  destructor : PoolDestructor := .notCalled
  added : List τ := []
  taken : List τ := []
deriving DecidableEq, Repr

namespace ThreadPool

variable {τ : Type}

def new (threadCount : Nat) : ThreadPool τ := { threads := List.replicate threadCount .awake }

inductive Action (τ : Type) where
  | addTask (task : τ)
  /-- `notify_one` of a call of `AddTask`, which wakes a thread if one waits. -/
  | notifyOne (thread : Option Nat)
  /-- The thread goes through its loop once. -/
  | check (thread : Nat)
  | wake (thread : Nat)
  /-- Its task returns. -/
  | finish (thread : Nat)
  /-- The destructor begins, which no call of `AddTask` overlaps. -/
  | close
  | notifyAll
deriving DecidableEq, Repr

def addTask (task : τ) (pool : ThreadPool τ) : ThreadPool τ :=
  { pool with tasks := pool.tasks ++ [task], added := pool.added ++ [task], unnotified := pool.unnotified + 1 }

def notifyOne (pool : ThreadPool τ) : Option Nat → Option (ThreadPool τ)
  | some thread =>
    match pool.threads[thread]? with
    | some .waiting => some { pool with unnotified := pool.unnotified - 1, threads := pool.threads.set thread .awake }
    | _ => none
  | none =>
    if pool.threads.any PoolThread.isWaiting then none else some { pool with unnotified := pool.unnotified - 1 }

/-- The loop of a thread, from where it has the mutex to where it gives it up. -/
def check (thread : Nat) (pool : ThreadPool τ) : ThreadPool τ :=
  match pool.tasks with
  | task :: rest =>
    { pool with tasks := rest, taken := pool.taken ++ [task], threads := pool.threads.set thread (.running task) }
  | [] => { pool with threads := pool.threads.set thread (if pool.isClosed then .exited else .waiting) }

/-- What has become of the task that the thread is in. -/
def resume (thread : Nat) (task : τ) (pool : ThreadPool τ) : ThreadPool τ :=
  { pool with threads := pool.threads.set thread (.running task) }

def step (pool : ThreadPool τ) : Action τ → Option (ThreadPool τ)
  | .addTask task => if pool.destructor = .notCalled then some (pool.addTask task) else none
  | .notifyOne thread => if 0 < pool.unnotified then pool.notifyOne thread else none
  | .check thread =>
    match pool.threads[thread]? with
    | some .awake => some (pool.check thread)
    | _ => none
  | .wake thread =>
    match pool.threads[thread]? with
    | some .waiting => some { pool with threads := pool.threads.set thread .awake }
    | _ => none
  | .finish thread =>
    match pool.threads[thread]? with
    | some (.running _) => some { pool with threads := pool.threads.set thread .awake }
    | _ => none
  | .close =>
    if pool.destructor = .notCalled ∧ pool.unnotified = 0 then some { pool with isClosed := true, destructor := .closed }
    else none
  | .notifyAll =>
    if pool.destructor = .closed then some { pool with threads := pool.threads.map PoolThread.notified, destructor := .returned }
    else none

end ThreadPool

end HttpFramework.Code
