import HttpFramework.Mylog.LogFlush
import HttpFramework.Mylog.Worker

/-! The sinks of an `AsyncLogger` with the files that they write, from `LoggerBuilder` on. `RealFlush` calls
them one after the other with all that the consumer's buffer holds. The steps are those in which
the file operations succeed. -/

namespace HttpFramework.Mylog

structure Outputs where
  disk : LogFiles := {}
  cout : Bytes := []
deriving DecidableEq

/-- A sink, with what it keeps from one call to the next. -/
inductive LogFlush where
  | stdoutFlush
  | fileFlush (filename : Bytes)
  | rollFileFlush (roll : RollFileFlush)
deriving DecidableEq

namespace LogFlush

/-- `Flush`, with what the clock shows. -/
def flush (t : Tm) (data : Bytes) (outputs : Outputs) : LogFlush → Option (LogFlush × Outputs)
  | .stdoutFlush => some (.stdoutFlush, { outputs with cout := outputs.cout ++ data })
  | .fileFlush filename => do
    let disk ← outputs.disk.fwrite filename data
    return (.fileFlush filename, { outputs with disk })
  | .rollFileFlush roll => do
    let (roll, disk) ← roll.flush t data outputs.disk
    return (.rollFileFlush roll, { outputs with disk })

end LogFlush

/-- The type of a sink, and what its constructor is given. -/
inductive FlushType where
  | StdoutFlush
  | FileFlush (filename : Bytes)
  | RollFileFlush (filename : Bytes) (maxSize : Nat)
deriving DecidableEq

/-- `CreateLog`. A `FileFlush` opens its file at once. -/
def FlushType.createLog (disk : LogFiles) : FlushType → Option (LogFlush × LogFiles)
  | .StdoutFlush => some (.stdoutFlush, disk)
  | .FileFlush filename => (disk.fopen filename).map fun disk => (.fileFlush filename, disk)
  | .RollFileFlush filename maxSize => some (.rollFileFlush { maxSize, basename := filename }, disk)

/-- An `AsyncLogger` with its sinks. -/
structure Logger where
  base : AsyncLogger
  flushs : List LogFlush
  outputs : Outputs
deriving DecidableEq

structure LoggerBuilder where
  loggerName : Bytes := ascii "async_logger"
  flushs : List LogFlush := []
  asyncType : AsyncType := .ASYNC_SAFE
deriving DecidableEq

namespace LoggerBuilder

def buildLoggerFlush (type : FlushType) (builder : LoggerBuilder) (disk : LogFiles) : Option (LoggerBuilder × LogFiles) := do
  let (flush, disk) ← type.createLog disk
  return ({ builder with flushs := builder.flushs ++ [flush] }, disk)

/-- The builder is told of one sink after the other. -/
def step (state : LoggerBuilder × LogFiles) (type : FlushType) : Option (LoggerBuilder × LogFiles) :=
  state.1.buildLoggerFlush type state.2

/-- `Build`, with a buffer as it is made for the worker. A logger without sinks writes to `cout`. -/
def build (fresh : Buffer) (outputs : Outputs) (builder : LoggerBuilder) : Option Logger :=
  if builder.loggerName = [] then none
  else
    let flushs := if builder.flushs = [] then [.stdoutFlush] else builder.flushs
    some { base := .started builder.asyncType fresh flushs.length, flushs, outputs }

end LoggerBuilder

namespace Logger

inductive Action where
  | push (data : Bytes)
  | stop
  /-- The thread goes on, with what the clock shows. -/
  | work (t : Tm)

/-- A pass of the loop of `RealFlush`. -/
def realFlush (t : Tm) (sink : Nat) (flush : LogFlush) (logger : Logger) : Option Logger := do
  let (flush, outputs) ← flush.flush t logger.base.worker.bufferConsumer.readable logger.outputs
  return { base := ← logger.base.work, flushs := logger.flushs.set sink flush, outputs }

/-- What the thread does that writes nothing. -/
def work (logger : Logger) : Option Logger := logger.base.work.map fun base => { logger with base }

def step (config : JsonData) (logger : Logger) : Action → Option Logger
  | .push data => (logger.base.push config data).map fun base => { logger with base }
  | .stop => some { logger with base := logger.base.setStop }
  | .work t =>
    match logger.base.worker.place with
    | .flushing sink =>
      match logger.flushs[sink]? with
      | some flush => logger.realFlush t sink flush
      | none => logger.work
    | _ => logger.work

end Logger

end HttpFramework.Mylog
