import HttpFramework.Cpp

/-! `timer`: timers in a heap, with an index from their ids to their positions. A position outside
the heap and an assertion that does not hold have no result here. Times count nanoseconds on
the steady clock. A callback is only recorded: it does not touch the timers itself. -/

namespace HttpFramework.Code

structure TimerNode (β : Type) where
  id : Int
  expires : Int
  cb : β
deriving DecidableEq, Repr

namespace TimerNode

variable {β : Type}

/-- `operator<`, which compares the other way round. -/
def less (node other : TimerNode β) : Bool := other.expires < node.expires

/-- The time left in milliseconds, as `duration_cast` truncates it. -/
def remaining (node : TimerNode β) (now : Int) : Int := (node.expires - now).tdiv 1000000

end TimerNode

structure Timer (β : Type) where
  heap : List (TimerNode β) := []
  ref : Int → Option Nat := fun _ => none

namespace Timer

variable {β : Type}

def swapNode (i j : Nat) (timer : Timer β) : Option (Timer β) := do
  let first ← timer.heap[i]?
  let second ← timer.heap[j]?
  return {
    heap := (timer.heap.set i second).set j first
    ref := Function.update (Function.update timer.ref second.id (some i)) first.id (some j) }

/-- The loop of `siftup_`. Each pass goes to a lesser position, so that many are enough. -/
def siftupLoop : Nat → Nat → Timer β → Option (Timer β)
  | passes, i, timer =>
    if 0 < i then do
      let parent := (i - 1) / 2
      if (← timer.heap[parent]?).less (← timer.heap[i]?) then return timer
      else
        match passes with
        | 0 => none
        | passes + 1 => siftupLoop passes parent (← timer.swapNode i parent)
    else
      some timer

def siftup (i : Nat) (timer : Timer β) : Option (Timer β) :=
  if i < timer.heap.length then siftupLoop i i timer else none

/-- Which of the two positions below the loop of `siftdown_` looks at. -/
def lesserChild (j n : Nat) (timer : Timer β) : Option Nat :=
  if j + 1 < n then do
    if (← timer.heap[j + 1]?).less (← timer.heap[j]?) then return j + 1 else return j
  else
    some j

/-- The loop of `siftdown_`, with the position it ends at. -/
def siftdownLoop (n : Nat) : Nat → Nat → Timer β → Option (Nat × Timer β)
  | passes, i, timer =>
    if i * 2 + 1 < n then do
      let j ← timer.lesserChild (i * 2 + 1) n
      if (← timer.heap[i]?).less (← timer.heap[j]?) then return (i, timer)
      else
        match passes with
        | 0 => none
        | passes + 1 => siftdownLoop n passes j (← timer.swapNode i j)
    else
      some (i, timer)

/-- The result says whether the node has moved. -/
def siftdown (index n : Nat) (timer : Timer β) : Option (Bool × Timer β) :=
  if index < timer.heap.length then do
    let (i, timer) ← siftdownLoop n n index timer
    return (index < i, timer)
  else
    none

/-- Where a node that has changed goes, down or else up. -/
def adjust (i : Nat) (timer : Timer β) : Option (Timer β) := do
  let (moved, timer) ← timer.siftdown i timer.heap.length
  if moved then return timer else timer.siftup i

def add (id timeout : Int) (cb : β) (now : Int) (timer : Timer β) : Option (Timer β) :=
  if id < 0 then none
  else
    let expires := now + timeout * 1000000
    match timer.ref id with
    | none =>
      let i := timer.heap.length
      siftup i { heap := timer.heap ++ [{ id, expires, cb }], ref := Function.update timer.ref id (some i) }
    | some i => do
      let node ← timer.heap[i]?
      adjust i { timer with heap := timer.heap.set i { node with expires, cb } }

/-- The id that is erased from the index is the one at the position after the exchange. -/
def del (index : Nat) (timer : Timer β) : Option (Timer β) :=
  if index < timer.heap.length then
    let n := timer.heap.length - 1
    if index < n then do
      let timer ← timer.swapNode index n
      let heap := timer.heap.dropLast
      let node ← heap[index]?
      adjust index { heap, ref := Function.update timer.ref node.id none }
    else do
      let node ← timer.heap.getLast?
      return { heap := timer.heap.dropLast, ref := Function.update timer.ref node.id none }
  else
    none

/-- The nodes whose callbacks have been called come first in the result. -/
def doWork (id : Int) (timer : Timer β) : Option (List (TimerNode β) × Timer β) :=
  if timer.heap = [] then some ([], timer)
  else
    match timer.ref id with
    | none => some ([], timer)
    | some i => do
      let node ← timer.heap[i]?
      return ([node], ← timer.del i)

def pop (timer : Timer β) : Option (Timer β) := timer.del 0

/-- The loop of `tick`, which reads the clock in each pass. Each pass but the last removes a
node, so that as many passes as there are nodes are enough. -/
def tickLoop (now : Nat → Int) : Nat → Nat → Timer β → Option (List (TimerNode β) × Timer β)
  | passes, reading, timer =>
    match timer.heap with
    | [] => some ([], timer)
    | node :: _ =>
      if 0 < node.remaining (now reading) then some ([], timer)
      else
        match passes with
        | 0 => none
        | passes + 1 => do
          let (fired, timer) ← tickLoop now passes (reading + 1) (← timer.pop)
          return (node :: fired, timer)

def tick (now : Nat → Int) (timer : Timer β) : Option (List (TimerNode β) × Timer β) :=
  tickLoop now timer.heap.length 0 timer

def clear (_ : Timer β) : Timer β := {}

/-- The clock is read once more after `tick`. The nodes whose callbacks `tick` has called stand
behind the value. -/
def getNextTick (now : Nat → Int) (later : Int) (timer : Timer β) : Option (Int × List (TimerNode β) × Timer β) := do
  let (fired, timer) ← timer.tick now
  if timer.heap ≠ [] then return (-1, fired, timer)
  else
    let node ← timer.heap.head?
    let diff := node.remaining later
    return (if 0 < diff then toInt diff.toNat else 0, fired, timer)

end Timer

end HttpFramework.Code
