import HttpFramework.Mylog.Buffer

/-! `mylog::AsyncWorker` as the logger uses it: producers push messages into one buffer
while a thread swaps the buffers, hands the other one to every sink and empties it.
The sections under the mutex are single steps, and so is the flush of one sink. The
unlocked test for the end reads `stop_` and then the buffer. -/

namespace HttpFramework.Mylog

inductive AsyncType where
  | ASYNC_SAFE | ASYNC_UNSAFE
deriving DecidableEq, Repr

/-- Where the thread is in the loop of `ThreadEntry`: before the mutex, inside the wait,
before the flush of the given sink, and at the two reads of the test for the end. -/
inductive Place where
  | locking
  | waiting
  | flushing (sink : Nat)
  | testingStop
  | testingEmpty
  | exited
deriving DecidableEq, Repr

structure AsyncWorker where
  asyncType : AsyncType
  stop : Bool := false
  bufferProductor : Buffer
  bufferConsumer : Buffer
  place : Place := .locking
deriving DecidableEq

namespace AsyncWorker

/-- What `Push` waits for under the mutex. -/
def mayPush (worker : AsyncWorker) (len : Nat) : Bool :=
  worker.asyncType ≠ .ASYNC_SAFE ∨ len ≤ worker.bufferProductor.writeableSize

def swapped (worker : AsyncWorker) : AsyncWorker :=
  let buffers := worker.bufferProductor.swap worker.bufferConsumer
  { worker with bufferProductor := buffers.1, bufferConsumer := buffers.2, place := .flushing 0 }

end AsyncWorker

/-- A logger with what each of its sinks has received. The last two fields are history:
the messages in the order in which they were written, and those among them that were
written before `stop_` was set. -/
structure AsyncLogger where
  worker : AsyncWorker
  sinks : List Bytes
  pushed : List Bytes := []
  beforeStop : Option (List Bytes) := none
deriving DecidableEq

inductive Action where
  | push (data : Bytes)
  | stop
  | work

namespace AsyncLogger

/-- A logger just constructed, with the given number of sinks. -/
def started (asyncType : AsyncType) (fresh : Buffer) (sinks : Nat) : AsyncLogger :=
  { worker := { asyncType, bufferProductor := fresh, bufferConsumer := fresh }, sinks := List.replicate sinks [] }

/-- `Push` of one producer. It is not enabled while the producer has to wait; when the
buffer throws, nothing was written. -/
def push (config : JsonData) (logger : AsyncLogger) (data : Bytes) : Option AsyncLogger :=
  if logger.worker.mayPush data.length then
    match logger.worker.bufferProductor.push config data with
    | .ok buf =>
      some { logger with worker := { logger.worker with bufferProductor := buf }, pushed := logger.pushed ++ [data] }
    | .error _ => some logger
  else
    none

def setStop (logger : AsyncLogger) : AsyncLogger :=
  { logger with
    worker := { logger.worker with stop := true }, beforeStop := logger.beforeStop.or (some logger.pushed) }

def moved (logger : AsyncLogger) (place : Place) : AsyncLogger :=
  { logger with worker := { logger.worker with place } }

/-- The next step of `ThreadEntry`. The wait is entered with its predicate tested first. -/
def work (logger : AsyncLogger) : Option AsyncLogger :=
  let worker := logger.worker
  let awake := worker.stop ∨ ¬ worker.bufferProductor.isEmpty
  match worker.place with
  | .locking =>
    if worker.bufferProductor.isEmpty ∧ worker.stop ∧ ¬ awake then some (logger.moved .waiting)
    else some { logger with worker := worker.swapped }
  | .waiting => if awake then some { logger with worker := worker.swapped } else none
  | .flushing sink =>
    if sink < logger.sinks.length then
      some { logger with
        worker := { worker with place := .flushing (sink + 1) }
        sinks := logger.sinks.modify sink (· ++ worker.bufferConsumer.readable) }
    else
      some { logger with worker := { worker with bufferConsumer := worker.bufferConsumer.reset, place := .testingStop } }
  | .testingStop => some (logger.moved (if worker.stop then .testingEmpty else .locking))
  | .testingEmpty => some (logger.moved (if worker.bufferProductor.isEmpty then .exited else .locking))
  | .exited => none

def step (config : JsonData) (logger : AsyncLogger) : Action → Option AsyncLogger
  | .push data => logger.push config data
  | .stop => some logger.setStop
  | .work => logger.work

end AsyncLogger

end HttpFramework.Mylog
