import HttpFramework.Mylog.Worker

/-! The constructor of `mylog::AsyncWorker`. Members are initialised in the order in which
the class declares them, whatever the order in the list of initialisers. The thread runs
from inside the initialiser of `thread_`, and producers come after the constructor. -/

namespace HttpFramework.Mylog

inductive Member where
  | asyncType | stop | mtx | bufferProductor | bufferConsumer | condProductor | condConsumer | thread | callback
deriving DecidableEq, Repr

/-- A step of the constructor: `std::thread` starts the thread before `thread_` has its value. -/
inductive Initialiser where
  | member (name : Member)
  | spawn
deriving DecidableEq, Repr

def initialisers : List Initialiser :=
  [.member .asyncType, .member .stop, .member .mtx, .member .bufferProductor, .member .bufferConsumer,
    .member .condProductor, .member .condConsumer, .spawn, .member .thread, .member .callback]

/-- The members that the next step of `ThreadEntry` uses. -/
def AsyncWorker.uses (worker : AsyncWorker) : List Member :=
  let notified := if worker.asyncType = .ASYNC_SAFE then [.condProductor] else []
  match worker.place with
  | .locking =>
    [.mtx, .bufferProductor] ++ (if worker.bufferProductor.isEmpty then [.stop] else []) ++
      (if worker.bufferProductor.isEmpty ∧ worker.stop then [.condConsumer] else []) ++
      [.bufferConsumer, .asyncType] ++ notified
  | .waiting => [.mtx, .condConsumer, .stop, .bufferProductor, .bufferConsumer, .asyncType] ++ notified
  | .flushing _ => [.callback, .bufferConsumer]
  | .testingStop => [.stop]
  | .testingEmpty => [.bufferProductor]
  | .exited => []

/-- A logger whose worker is under construction, with the steps the constructor has left. -/
structure Construction where
  left : List Initialiser := initialisers
  logger : AsyncLogger

namespace Construction

inductive Event where
  | construct
  | act (action : Action)

def step (config : JsonData) (construction : Construction) : Event → Option Construction
  | .construct =>
    match construction.left with
    | [] => none
    | _ :: left => some { construction with left }
  | .act .work =>
    if .spawn ∉ construction.left then
      construction.logger.work.map fun logger => { construction with logger }
    else
      none
  | .act action =>
    if construction.left = [] then
      (construction.logger.step config action).map fun logger => { construction with logger }
    else
      none

end Construction

end HttpFramework.Mylog
