import HttpFramework.Code.Buffer

/-! `Log` of the web server in asynchronous mode. Threads that call `write` put their lines into a
bounded deque, or straight into the file when it is full, and one thread takes lines from the deque
to the file. A call of `write` holds `mtx_` while its line is made and handed on; the deque has a
mutex of its own. Each step is what happens under a mutex, or what `write` reads and sets before
it has one. -/

namespace HttpFramework.Code

/-- What `snprintf` and `vsnprintf` return: the length of the whole text, if an `int` can hold it. -/
def printed (text : Bytes) : Int := if text.length < 2 ^ 31 then text.length else -1

/-- The text is printed to the place to write, with its NUL into `size` bytes, and the result is
passed to `HasWritten`. -/
def Buffer.print (size : Nat) (text : Bytes) (buff : Buffer) : Buffer :=
  let stored := if size = 0 then [] else text.take (size - 1) ++ [0]
  { buff with buffer := copyTo buff.buffer buff.writePos stored, writePos := toSizeT (buff.writePos + printed text) }

/-- What `localtime` makes of the clock, and the microseconds. The month counts from 0. -/
structure LocalTime where
  year : Fin (2 ^ 31)
  mon : Fin 12
  mday : Fin 32
  hour : Fin 24
  min : Fin 60
  sec : Fin 61
  usec : Fin 1000000
deriving DecidableEq

/-- `%0*d` of a number that is not negative. -/
def zeroPadded (width n : Nat) : Bytes := List.replicate (width - (decimal n).length) (chr '0') ++ decimal n

namespace LocalTime

/-- `%d-%02d-%02d %02d:%02d:%02d.%06ld ` -/
def stamp (t : LocalTime) : Bytes :=
  decimal t.year ++ ascii "-" ++ zeroPadded 2 (t.mon.val + 1) ++ ascii "-" ++ zeroPadded 2 t.mday ++ ascii " " ++
    zeroPadded 2 t.hour ++ ascii ":" ++ zeroPadded 2 t.min ++ ascii ":" ++ zeroPadded 2 t.sec ++ ascii "." ++
    zeroPadded 6 t.usec ++ ascii " "

/-- `%04d_%02d_%02d` -/
def tail (t : LocalTime) : Bytes :=
  zeroPadded 4 t.year ++ ascii "_" ++ zeroPadded 2 (t.mon.val + 1) ++ ascii "_" ++ zeroPadded 2 t.mday

end LocalTime

/-- Where the call of `write` that holds `mtx_` is. -/
inductive Writer where
  | idle
  /-- The line is in the buffer. -/
  | composed
  /-- The deque was not full, and `push_back` has been called with the string. -/
  | pushing (str : Bytes)
  /-- The deque was full. -/
  | direct
deriving DecidableEq

/-- What one `fputs` has put into a file, and whether `write` has done it itself. -/
structure Written where
  file : Bytes
  text : Bytes
  direct : Bool
deriving DecidableEq

structure Log where
  path : Bytes
  suffix : Bytes
  toDay : Nat
  lineCount : Nat := 0
  /-- The name of the file that is open. -/
  fp : Bytes
  buff : Buffer := { buffer := List.replicate 1024 0 }
  deque : List Bytes := []
  writer : Writer := .idle
  /-- What `AsyncWrite_` has popped and not put into the file yet. -/
  str : Option Bytes := none
  /-- Calls of `write` that have found a new file to be due. -/
  rotating : List LocalTime := []
  /-- Those that have made its name. -/
  renamed : List Bytes := []
  /-- All that has been put into files, in order. -/
  written : List Written := []
  /-- The lines of the calls of `write`, in the order in which they held `mtx_`. -/
  passed : List Bytes := []
  /-- For each of them, what `full` has said. -/
  full : List Bool := []
  /-- The end of a line has been stored outside the buffer. -/
  overrun : Bool := false
deriving DecidableEq

namespace Log

/-- `init` makes the deque with its default capacity, whatever size it is given. -/
def capacity : Nat := 1000

def maxLines : Nat := 50000

def init (path suffix : Bytes) (t : LocalTime) : Log :=
  { path, suffix, toDay := t.mday, fp := (path ++ ascii "/" ++ t.tail ++ suffix).take 254 }

/-- `AppendLogLevelTitle_` -/
def levelTitle (level : Int) : Bytes :=
  if level = 0 then ascii "[debug]: "
  else if level = 1 then ascii "[info] : "
  else if level = 2 then ascii "[warn] : "
  else if level = 3 then ascii "[error]: "
  else ascii "[info] : "

/-- The line that a call stands for. -/
def line (t : LocalTime) (level : Int) (message : Bytes) : Bytes := t.stamp ++ levelTitle level ++ message ++ ascii "\n"

/-- `write` up to `HasWritten(m)`, for what the format and its arguments make. -/
def printMessage (t : LocalTime) (level : Int) (message : Bytes) (buff : Buffer) : Except Failure Buffer := do
  let buff ← (buff.print 128 t.stamp).append (levelTitle level)
  return buff.print buff.writableBytes message

inductive Action where
  /-- `write` finds that the day or the number of lines asks for a new file. -/
  | rotate (t : LocalTime)
  | rename (thread : Nat)
  | reopen (thread : Nat)
  | compose (t : LocalTime) (level : Int) (message : Bytes)
  | testFull
  | pushBack
  | putDirectly
  /-- The two steps of `AsyncWrite_`. -/
  | pop
  | put
deriving DecidableEq

/-- The name of the new file. -/
def newFile (log : Log) (t : LocalTime) : Bytes :=
  if log.toDay ≠ t.mday then (log.path ++ ascii "/" ++ t.tail ++ log.suffix).take 183
  else (log.path ++ ascii "/" ++ t.tail ++ ascii "-" ++ decimal (log.lineCount / maxLines) ++ log.suffix).take 183

/-- A failed assertion or an exception has no step, and neither has a thread that waits. -/
def step (log : Log) (action : Action) : Option Log :=
  if log.overrun then none
  else match action with
  | .rotate t =>
    if log.toDay ≠ t.mday ∨ (log.lineCount ≠ 0 ∧ log.lineCount % maxLines = 0) then
      some { log with rotating := log.rotating ++ [t] }
    else none
  | .rename thread =>
    match log.rotating[thread]? with
    | some t =>
      some { log with
        rotating := log.rotating.eraseIdx thread, renamed := log.renamed ++ [log.newFile t], toDay := t.mday
        lineCount := if log.toDay ≠ t.mday then 0 else log.lineCount }
    | none => none
  | .reopen thread =>
    match log.renamed[thread]? with
    | some newFile =>
      if log.writer = .idle then some { log with renamed := log.renamed.eraseIdx thread, fp := newFile } else none
    | none => none
  | .compose t level message =>
    if log.writer = .idle then
      match printMessage t level message log.buff with
      | .error _ => none
      | .ok buff =>
        let begun := { log with buff, lineCount := log.lineCount + 1, passed := log.passed ++ [line t level message] }
        if buff.buffer.length < buff.writePos then some { begun with overrun := true }
        else match buff.append (ascii "\n" ++ [0]) with
          | .error _ => none
          | .ok buff => some { begun with buff, writer := .composed }
    else none
  | .testFull =>
    if log.writer = .composed then
      if log.deque.length ≥ capacity then some { log with writer := .direct, full := log.full ++ [true] }
      else
        let (str, buff) := log.buff.retrieveAllToStr
        some { log with buff, writer := .pushing str, full := log.full ++ [false] }
    else none
  | .pushBack =>
    match log.writer with
    | .pushing str =>
      if log.deque.length ≥ capacity then none
      else some { log with deque := log.deque ++ [str], buff := log.buff.retrieveAll, writer := .idle }
    | _ => none
  | .putDirectly =>
    if log.writer = .direct then
      let text := cString (log.buff.buffer.drop log.buff.readPos)
      some { log with
        written := log.written ++ [{ file := log.fp, text, direct := true }], buff := log.buff.retrieveAll, writer := .idle }
    else none
  | .pop =>
    match log.str, log.deque with
    | none, str :: deque => some { log with str := some str, deque }
    | _, _ => none
  | .put =>
    match log.str with
    | some str =>
      if log.writer = .idle then
        some { log with written := log.written ++ [{ file := log.fp, text := cString str, direct := false }], str := none }
      else none
    | none => none

end Log

end HttpFramework.Code
