import HttpFramework.Cpp

/-! `Buffer` of the web server: a vector with a place to read and a place to write. Space is made
by growing, or by moving the data to the front. Positions and sizes are of type `size_t`. The
bytes that are appended lie outside the buffer. -/

namespace HttpFramework.Code

structure Buffer where
  buffer : Bytes
  readPos : Nat := 0
  writePos : Nat := 0
deriving DecidableEq

inductive Failure where
  | asserted
  | thrown (exception : StdException)
deriving DecidableEq

namespace Buffer

def readableBytes (buff : Buffer) : Nat := toSizeT (buff.writePos - buff.readPos)
def writableBytes (buff : Buffer) : Nat := toSizeT (buff.buffer.length - buff.writePos)
def prependableBytes (buff : Buffer) : Nat := buff.readPos

/-- The bytes from `Peek` on, as many as are asked for. -/
def peek (buff : Buffer) (len : Nat) : Bytes := (buff.buffer.drop buff.readPos).take len

def retrieve (len : Nat) (buff : Buffer) : Except Failure Buffer :=
  if len ≤ buff.readableBytes then .ok { buff with readPos := toSizeT (buff.readPos + len) } else .error .asserted

/-- The pointer is given by its distance from `Peek`. -/
def retrieveUntil (distance : Nat) (buff : Buffer) : Except Failure Buffer := buff.retrieve distance

def retrieveAll (buff : Buffer) : Buffer := { buffer := List.replicate buff.buffer.length 0 }

def retrieveAllToStr (buff : Buffer) : Bytes × Buffer := (buff.peek buff.readableBytes, buff.retrieveAll)

/-- Bytes are written behind the data, and `HasWritten` is told their number. -/
def hasWritten (data : Bytes) (buff : Buffer) : Buffer :=
  { buff with buffer := copyTo buff.buffer buff.writePos data, writePos := toSizeT (buff.writePos + data.length) }

def makeSpace (len : Nat) (buff : Buffer) : Except Failure Buffer :=
  if toSizeT (buff.writableBytes + buff.prependableBytes) < len then
    match resize buff.buffer (toSizeT (buff.writePos + len + 1)) with
    | .ok buffer => .ok { buff with buffer }
    | .error exception => .error (.thrown exception)
  else
    let readable := buff.readableBytes
    let moved : Buffer := { buffer := copyTo buff.buffer 0 (buff.peek readable), readPos := 0, writePos := readable }
    if readable = moved.readableBytes then .ok moved else .error .asserted

def ensureWriteable (len : Nat) (buff : Buffer) : Except Failure Buffer := do
  let buff ← if buff.writableBytes < len then buff.makeSpace len else .ok buff
  if buff.writableBytes ≥ len then .ok buff else .error .asserted

def append (data : Bytes) (buff : Buffer) : Except Failure Buffer := do
  return (← buff.ensureWriteable data.length).hasWritten data

/-- The size of the array on the stack that `ReadFd` reads into as well. -/
def stackSize : Nat := 65535

/-- What has been read into the vector stays there when the rest cannot be appended. -/
def readFd (data : Bytes) (buff : Buffer) : Buffer × Option Failure :=
  let writable := buff.writableBytes
  if data.length ≤ writable then (buff.hasWritten data, none)
  else
    let filled : Buffer := {
      buff with buffer := copyTo buff.buffer buff.writePos (data.take writable), writePos := buff.buffer.length }
    match filled.append (data.drop writable) with
    | .ok buff => (buff, none)
    | .error failure => (filled, some failure)

/-- The bytes that `write` has taken go out. -/
def writeFd (len : Nat) (buff : Buffer) : Bytes × Buffer :=
  (buff.peek len, { buff with readPos := toSizeT (buff.readPos + len) })

/-- A call of the interface. What `readv` delivers and what `write` takes are part of it, or
that they fail. -/
inductive Op where
  | append (data : Bytes)
  | retrieve (len : Nat)
  | retrieveUntil (distance : Nat)
  | retrieveAll
  | retrieveAllToStr
  | ensureWriteable (len : Nat)
  | hasWritten (data : Bytes)
  | readFd (delivered : Option Bytes)
  | writeFd (taken : Option Nat)
deriving DecidableEq

/-- What a caller has to keep to. No array is longer than a vector can be, and `readv` fills at
most the two arrays it is given. -/
def Op.allowed (buff : Buffer) : Op → Bool
  | .append data => data.length ≤ maxSize
  | .retrieve len | .retrieveUntil len | .writeFd (some len) => len ≤ buff.readableBytes
  | .ensureWriteable len => len < 2 ^ 64
  | .hasWritten data => data.length ≤ buff.writableBytes
  | .readFd (some data) => data.length ≤ buff.writableBytes + stackSize
  | .retrieveAll | .retrieveAllToStr | .readFd none | .writeFd none => true

/-- What the call hands out, the buffer after it, and how it failed. -/
def call (buff : Buffer) : Op → Bytes × Buffer × Option Failure
  | .append data => changed (buff.append data)
  | .retrieve len => changed (buff.retrieve len)
  | .retrieveUntil distance => changed (buff.retrieveUntil distance)
  | .retrieveAll => ([], buff.retrieveAll, none)
  | .retrieveAllToStr => (buff.retrieveAllToStr.1, buff.retrieveAllToStr.2, none)
  | .ensureWriteable len => changed (buff.ensureWriteable len)
  | .hasWritten data => ([], buff.hasWritten data, none)
  | .readFd (some data) => ([], buff.readFd data)
  | .writeFd (some len) => ((buff.writeFd len).1, (buff.writeFd len).2, none)
  | .readFd none | .writeFd none => ([], buff, none)
where
  /-- A call that fails leaves the buffer as it was. -/
  changed : Except Failure Buffer → Bytes × Buffer × Option Failure
    | .ok next => ([], next, none)
    | .error failure => ([], buff, some failure)

end Buffer

end HttpFramework.Code
