import Mathlib.Tactic.Common

/-! The functions that wait in `eventLoop` for its thread. They are numbered in the order in which
they come into the queue. What a function does is open: it may queue others, run others at once,
return, or let an exception out, which `loop` catches. -/

namespace HttpFramework.Code

structure EventLoop where
  pendingFunctions : List Nat := []
  /-- `performPendingFunctions` is under way and holds `mutex_`, and these are still to be called. -/
  funcs : Option (List Nat) := none
  /-- The functions that the thread of the loop is in, the innermost first. One that `runInLoop` has
  called at once has no number. -/
  stack : List (Option Nat) := []
  /-- All that have come into the queue, and all that have been called from it. -/
  queued : List Nat := []
  executed : List Nat := []
  /-- The thread of the loop has tried to lock `mutex_` while it held it. -/
  relocked : Bool := false
deriving DecidableEq, Repr

namespace EventLoop

/-- A call says whether it is made by the thread of the loop. -/
inductive Action where
  | runInLoop (inLoopThread : Bool)
  | queueInLoop (inLoopThread : Bool)
  /-- `performPendingFunctions` takes the lock and the functions. -/
  | perform
  | callNext
  /-- The innermost function returns. -/
  | leave
  /-- It lets an exception out. -/
  | throw
  /-- `performPendingFunctions` returns. -/
  | finish
deriving DecidableEq, Repr

/-- While `performPendingFunctions` is under way, the thread of the loop makes calls only from the
functions. -/
def mayCall (inLoopThread : Bool) (loop : EventLoop) : Prop :=
  inLoopThread = true → loop.funcs = none ∨ loop.stack ≠ []

instance (inLoopThread : Bool) (loop : EventLoop) : Decidable (loop.mayCall inLoopThread) :=
  inferInstanceAs (Decidable (_ → _))

/-- Another thread waits for the mutex. -/
def queueInLoop (inLoopThread : Bool) (loop : EventLoop) : Option EventLoop :=
  if loop.funcs = none then
    some { loop with
      pendingFunctions := loop.pendingFunctions ++ [loop.queued.length], queued := loop.queued ++ [loop.queued.length] }
  else if inLoopThread then some { loop with relocked := true }
  else none

def runInLoop (inLoopThread : Bool) (loop : EventLoop) : Option EventLoop :=
  if inLoopThread then some { loop with stack := none :: loop.stack } else loop.queueInLoop false

/-- An exception from a function that was taken from the queue ends `performPendingFunctions`. -/
def throw (loop : EventLoop) : Option EventLoop :=
  match loop.stack with
  | [] => none
  | [some _] => some { loop with stack := [], funcs := none }
  | _ :: stack => some { loop with stack }

/-- A thread that has locked the mutex twice does not go on. -/
def step (loop : EventLoop) (action : Action) : Option EventLoop :=
  if loop.relocked then none
  else match action with
  | .runInLoop inLoopThread => if loop.mayCall inLoopThread then loop.runInLoop inLoopThread else none
  | .queueInLoop inLoopThread => if loop.mayCall inLoopThread then loop.queueInLoop inLoopThread else none
  | .perform =>
    if loop.funcs = none ∧ loop.stack = [] then some { loop with funcs := some loop.pendingFunctions, pendingFunctions := [] }
    else none
  | .callNext =>
    match loop.funcs, loop.stack with
    | some (func :: funcs), [] =>
      some { loop with funcs := some funcs, stack := [some func], executed := loop.executed ++ [func] }
    | _, _ => none
  | .leave =>
    match loop.stack with
    | [] => none
    | _ :: stack => some { loop with stack }
  | .throw => loop.throw
  | .finish => if loop.funcs = some [] ∧ loop.stack = [] then some { loop with funcs := none } else none

end EventLoop

end HttpFramework.Code
