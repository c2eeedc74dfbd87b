import Mathlib.Tactic.Common

/-! `ThreadPool`, which the logger uses for its backups. A task is named by the call of `enqueue`
that makes it, so that the same function given twice makes two tasks. The sections under the mutex
are single steps. A worker leaves the wait only when its predicate holds, whatever has notified it,
and `std::packaged_task` keeps the exception of a function, so that running a task returns. -/

namespace HttpFramework.Mylog

/-- Where a call of `enqueue` stands. -/
inductive Enqueue where
  | packed
  /-- The task is in the queue, and a worker is still to be notified. -/
  | queued
  | returned
  | threw
deriving DecidableEq, Repr

inductive Worker where
  | waiting
  | running (task : Nat)
  | exited
deriving DecidableEq, Repr

def Worker.task? : Worker → Option Nat
  | .running task => some task
  | .waiting | .exited => none

/-- How far the destructor has come. -/
inductive Destructor where
  | notCalled
  /-- `stop` is set, and the workers are still to be notified. -/
  | stopped
  | joining (joined : Nat)
deriving DecidableEq, Repr

/-- The last three fields are history: the tasks in the order in which they came into the queue, in
which they were taken out of it, and in which they ended. -/
structure ThreadPool where
  tasks : List Nat := []
  stop : Bool := false
  workers : List Worker
  calls : List Enqueue := []
  destructor : Destructor := .notCalled
  enqueued : List Nat := []
  taken : List Nat := []
  executed : List Nat := []
deriving DecidableEq, Repr

namespace ThreadPool

def new (threads : Nat) : ThreadPool := { workers := List.replicate threads .waiting }

inductive Action where
  | enqueue
  /-- A call of `enqueue` goes on. -/
  | advance (call : Nat)
  | work (worker : Nat)
  /-- The destructor begins, or goes on. -/
  | destroy
deriving DecidableEq, Repr

def advance (call : Nat) (pool : ThreadPool) : Enqueue → Option ThreadPool
  | .packed =>
    if pool.stop then some { pool with calls := pool.calls.set call .threw }
    else
      some { pool with
        tasks := pool.tasks ++ [call], enqueued := pool.enqueued ++ [call], calls := pool.calls.set call .queued }
  | .queued => some { pool with calls := pool.calls.set call .returned }
  | .returned | .threw => none

def work (worker : Nat) (pool : ThreadPool) : Worker → Option ThreadPool
  | .waiting =>
    match pool.tasks with
    | task :: rest =>
      some { pool with
        tasks := rest, taken := pool.taken ++ [task], workers := pool.workers.set worker (.running task) }
    | [] => if pool.stop then some { pool with workers := pool.workers.set worker .exited } else none
  | .running task =>
    some { pool with executed := pool.executed ++ [task], workers := pool.workers.set worker .waiting }
  | .exited => none

/-- `join` waits for one worker after the other. -/
def destroy (pool : ThreadPool) : Option ThreadPool :=
  match pool.destructor with
  | .notCalled => some { pool with stop := true, destructor := .stopped }
  | .stopped => some { pool with destructor := .joining 0 }
  | .joining joined =>
    if pool.workers[joined]? = some .exited then some { pool with destructor := .joining (joined + 1) } else none

def step (pool : ThreadPool) : Action → Option ThreadPool
  | .enqueue => some { pool with calls := pool.calls ++ [.packed] }
  | .advance call => do pool.advance call (← pool.calls[call]?)
  | .work worker => do pool.work worker (← pool.workers[worker]?)
  | .destroy => pool.destroy

end ThreadPool

end HttpFramework.Mylog
