import Mathlib.Tactic.Common

/-! `BlockDeque`, the bounded deque of the web server's logger. A step is a section under its mutex,
or a notification that is given without it. `wait` gives the mutex back and the thread to the
condition variable; a thread that has been notified, or wakes up by itself, takes the mutex again
before it goes on. `notify_one` wakes one of the threads that wait then, if there is one, and
nobody later. -/

namespace HttpFramework.Code

universe u

/-- Where a thread is in its call. -/
inductive Phase (α : Type u) where
  | idle
  | pop (timed : Bool)
  | popWaiting (timed : Bool)
  /-- No longer with the condition variable. -/
  | popWoken (timed timedOut : Bool)
  | push (front : Bool) (item : α)
  | pushWaiting (front : Bool) (item : α)
  | clear
  | flush
  | close
  /-- `isClose_` is set, and both condition variables are still to be notified. -/
  | closeProducers
  | closeConsumers
deriving DecidableEq

namespace Phase

variable {α : Type u}

def popWaits : Phase α → Bool
  | .popWaiting _ => true
  | _ => false

def pushWaits : Phase α → Bool
  | .pushWaiting _ _ => true
  | _ => false

/-- A producer that wakes up looks at the deque as one that has just come. -/
def wake : Phase α → Phase α
  | .popWaiting timed => .popWoken timed false
  | .pushWaiting front item => .push front item
  | phase => phase

/-- The condition variable of the consumers, or that of the producers, wakes its threads. -/
def notified (waits : Phase α → Bool) (phase : Phase α) : Phase α := if waits phase then phase.wake else phase

end Phase

/-- What has become of the items, in order. -/
inductive Event (α : Type u) where
  | pushed (front : Bool) (item : α)
  | popped (item : α)
  | cleared
deriving DecidableEq

structure BlockDeque (α : Type u) where
  deq : List α := []
  capacity : Nat
  isClose : Bool := false
  threads : List (Phase α)
  /-- How many calls of `Close` have returned. -/
  closed : Nat := 0
  history : List (Event α) := []
deriving DecidableEq

namespace BlockDeque

variable {α : Type u}

def new (capacity threads : Nat) : BlockDeque α := { capacity, threads := List.replicate threads .idle }

/-- The calls that wait or change something. -/
inductive Op (α : Type u) where
  | pop (timed : Bool)
  | pushBack (item : α)
  | pushFront (item : α)
  | clear
  | flush
  | close
deriving DecidableEq

def Op.start : Op α → Phase α
  | .pop timed => .pop timed
  | .pushBack item => .push false item
  | .pushFront item => .push true item
  | .clear => .clear
  | .flush => .flush
  | .close => .close

inductive Action (α : Type u) where
  | call (thread : Nat) (op : Op α)
  /-- The thread goes on with its call. If it gives a `notify_one`, that reaches the thread
  `chosen`. -/
  | run (thread : Nat) (chosen : Option Nat)
  /-- A waiting thread wakes up by itself. -/
  | wake (thread : Nat)
  | timeout (thread : Nat)
deriving DecidableEq

/-- Someone is chosen exactly if someone waits. -/
def notifyOne (waits : Phase α → Bool) (chosen : Option Nat) (threads : List (Phase α)) : Option (List (Phase α)) :=
  match chosen with
  | some thread =>
    match threads[thread]? with
    | some phase => if waits phase then some (threads.set thread phase.wake) else none
    | none => none
  | none => if threads.any waits then none else some threads

def notifyAll (waits : Phase α → Bool) (threads : List (Phase α)) : List (Phase α) := threads.map (Phase.notified waits)

/-- The loop of `pop` from the test of the deque on. -/
def popLoop (thread : Nat) (timed : Bool) (chosen : Option Nat) (deque : BlockDeque α) : Option (BlockDeque α) :=
  match deque.deq with
  | [] => some { deque with threads := deque.threads.set thread (.popWaiting timed) }
  | item :: rest => do
    let threads ← notifyOne Phase.pushWaits chosen (deque.threads.set thread .idle)
    return { deque with deq := rest, threads, history := deque.history ++ [.popped item] }

def pushLoop (thread : Nat) (front : Bool) (item : α) (chosen : Option Nat) (deque : BlockDeque α) : Option (BlockDeque α) :=
  if deque.capacity ≤ deque.deq.length then some { deque with threads := deque.threads.set thread (.pushWaiting front item) }
  else do
    let threads ← notifyOne Phase.popWaits chosen (deque.threads.set thread .idle)
    return { deque with
      deq := if front then item :: deque.deq else deque.deq ++ [item]
      threads, history := deque.history ++ [.pushed front item] }

/-- The next section of a thread. -/
def run (thread : Nat) (chosen : Option Nat) (deque : BlockDeque α) : Phase α → Option (BlockDeque α)
  | .idle | .popWaiting _ | .pushWaiting _ _ => none
  | .pop timed => deque.popLoop thread timed chosen
  | .popWoken timed timedOut =>
    if timedOut || deque.isClose then some { deque with threads := deque.threads.set thread .idle }
    else deque.popLoop thread timed chosen
  | .push front item => deque.pushLoop thread front item chosen
  | .clear => some { deque with deq := [], threads := deque.threads.set thread .idle, history := deque.history ++ [.cleared] }
  | .flush => do
    let threads ← notifyOne Phase.popWaits chosen (deque.threads.set thread .idle)
    return { deque with threads }
  | .close =>
    some { deque with
      deq := [], isClose := true, threads := deque.threads.set thread .closeProducers, history := deque.history ++ [.cleared] }
  | .closeProducers =>
    some { deque with threads := notifyAll Phase.pushWaits (deque.threads.set thread .closeConsumers) }
  | .closeConsumers =>
    some { deque with
      threads := notifyAll Phase.popWaits (deque.threads.set thread .idle), closed := deque.closed + 1 }

def step (deque : BlockDeque α) : Action α → Option (BlockDeque α)
  | .call thread op =>
    match deque.threads[thread]? with
    | some .idle => some { deque with threads := deque.threads.set thread op.start }
    | _ => none
  | .run thread chosen => do deque.run thread chosen (← deque.threads[thread]?)
  | .wake thread => do
    let phase ← deque.threads[thread]?
    if phase.popWaits || phase.pushWaits then some { deque with threads := deque.threads.set thread phase.wake } else none
  | .timeout thread =>
    match deque.threads[thread]? with
    | some (.popWaiting true) => some { deque with threads := deque.threads.set thread (.popWoken true true) }
    | _ => none

end BlockDeque

end HttpFramework.Code
