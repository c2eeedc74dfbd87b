import HttpFramework.Cpp

/-! The remote backup of the logger: the text of a message, the client that sends those of the
levels ERROR and FATAL over a connection of their own, and the server that reads such a
connection. The client closes the connection after its only `write`. -/

namespace HttpFramework.Mylog

inductive LogLevel where
  | DEBUG | INFO | WARN | ERROR | FATAL
deriving DecidableEq, Repr

namespace LogLevel

def toText : LogLevel → Bytes
  | .DEBUG => ascii "DEBUG"
  | .INFO => ascii "INFO"
  | .WARN => ascii "WARN"
  | .ERROR => ascii "ERROR"
  | .FATAL => ascii "FATAL"

end LogLevel

/-- The local time of day that `localtime_r` finds. -/
structure TimeOfDay where
  hour : Fin 24
  minute : Fin 60
  second : Fin 61

def twoDigits (n : Nat) : Bytes := [chr (Nat.digitChar (n / 10)), chr (Nat.digitChar (n % 10))]

/-- `strftime` with `%H:%M:%S`. -/
def TimeOfDay.format (time : TimeOfDay) : Bytes :=
  twoDigits time.hour ++ ascii ":" ++ twoDigits time.minute ++ ascii ":" ++ twoDigits time.second

structure LogMessage where
  line : Nat
  ctime : TimeOfDay
  fileName : Bytes
  name : Bytes
  payload : Bytes
  tid : Nat
  level : LogLevel

def LogMessage.format (msg : LogMessage) : Bytes :=
  let tmp1 := ascii "[" ++ msg.ctime.format ++ ascii "]["
  let tmp2 := ascii "[" ++ msg.level.toText ++ ascii "][" ++ msg.name ++ ascii "][" ++ msg.fileName ++ ascii ":" ++
    decimal msg.line ++ ascii "]\t" ++ msg.payload ++ ascii "\n"
  tmp1 ++ decimal msg.tid ++ tmp2

/-- What a call of `serialize` is given: the text that `vasprintf` has printed is passed on as a C
string. -/
structure LogCall where
  level : LogLevel
  file : Bytes
  line : Nat
  ret : Bytes
  loggerName : Bytes
  now : TimeOfDay
  thread : Nat

namespace LogCall

def message (call : LogCall) : LogMessage :=
  { line := call.line, ctime := call.now, fileName := call.file, name := call.loggerName, payload := cString call.ret
    tid := call.thread, level := call.level }

/-- The argument of `start_backup`, if `serialize` queues one, and the argument of `Flush`. -/
def serialize (call : LogCall) : Option Bytes × Bytes :=
  let data := call.message.format
  (if call.level = .FATAL ∨ call.level = .ERROR then some data else none, data)

end LogCall

/-- How the bytes of one `write` come to the other end: cut into segments, of which some have come
when the reader looks. `read` waits for the first. -/
structure Transfer (message : Bytes) where
  segments : List Bytes
  arrived : Nat
  joined : segments.flatten = message
  nonempty : ∀ segment ∈ segments, segment ≠ []
  waited : 0 < arrived

namespace TcpServer

/-- `char buf[1024]`, with whatever it holds. -/
abbrev Buf := { bytes : Bytes // bytes.length = 1024 }

inductive Service where
  /-- `func_` has been called. -/
  | called (message : Bytes)
  | nothing
  /-- A byte has been stored outside the array. -/
  | undefined
deriving DecidableEq

/-- `read`: at most as many bytes as the array has. -/
def read {message : Bytes} (transfer : Transfer message) : Bytes :=
  (transfer.segments.take transfer.arrived).flatten.take 1024

/-- `service`, given the bytes of its `read` or none where it fails. -/
def service (buf : Buf) (clientInfo : Bytes) : Option Bytes → Service
  | none => .nothing
  | some received =>
    let rRet := received.length
    if 0 < rRet then
      if rRet < 1024 then
        let tmp := cString ((copyTo buf.1 0 received).set rRet 0)
        .called (clientInfo ++ tmp)
      else
        .undefined
    else
      .nothing

/-- `threadRoutine` -/
def clientInfo (clientIp : Bytes) (clientPort : UInt16) : Bytes := clientIp ++ ascii ":" ++ decimal clientPort.toNat

end TcpServer

end HttpFramework.Mylog
