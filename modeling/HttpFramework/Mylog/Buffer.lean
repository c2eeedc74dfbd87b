import HttpFramework.Cpp

/-! `mylog::Buffer`: a vector of bytes with a place to write and a place to read.
Sizes and positions are of type `size_t`; a message is given by its bytes. -/

namespace HttpFramework.Mylog

/-- The part of the configuration that governs the buffers. -/
structure JsonData where
  bufferSize : Nat
  threshold : Nat
  linearGrowth : Nat
deriving DecidableEq, Repr

structure Buffer where
  buffer : Bytes
  writePos : Nat := 0
  readPos : Nat := 0
deriving DecidableEq

namespace Buffer

/-- The constructor. -/
def new (config : JsonData) : Except StdException Buffer := do
  let buffer ← resize [] config.bufferSize
  return { buffer }

def writeableSize (buf : Buffer) : Nat := toSizeT (buf.buffer.length - buf.writePos)

def readableSize (buf : Buffer) : Nat := toSizeT (buf.writePos - buf.readPos)

def isEmpty (buf : Buffer) : Bool := buf.writePos = buf.readPos

/-- The size that `toBeEnough` asks for. The current size takes part as an `int`. -/
def grownSize (config : JsonData) (size : Nat) : Nat :=
  let buffersize := toInt size
  if size < config.threshold then toSizeT (2 * size + buffersize)
  else toSizeT (config.linearGrowth + buffersize)

/-- One step of growth, whatever the length is. -/
def toBeEnough (config : JsonData) (buf : Buffer) (len : Nat) : Except StdException Buffer := do
  if len ≥ buf.writeableSize then
    let buffer ← resize buf.buffer (grownSize config buf.buffer.length)
    return { buf with buffer }
  else
    return buf

/-- The position moves by the length also where the copy runs over the vector's end. -/
def push (config : JsonData) (buf : Buffer) (data : Bytes) : Except StdException Buffer := do
  let buf ← buf.toBeEnough config data.length
  return { buf with buffer := copyTo buf.buffer buf.writePos data, writePos := buf.writePos + data.length }

def swap (this that : Buffer) : Buffer × Buffer :=
  (⟨that.buffer, that.writePos, that.readPos⟩, ⟨this.buffer, this.writePos, this.readPos⟩)

/-- `none` is a failed assertion, in which the `int` is compared as a `size_t`. -/
def moveWritePos (buf : Buffer) (len : Int) : Option Buffer :=
  if toSizeT len ≤ buf.writeableSize then some { buf with writePos := toSizeT (buf.writePos + len) } else none

def moveReadPos (buf : Buffer) (len : Int) : Option Buffer :=
  if toSizeT len ≤ buf.readableSize then some { buf with readPos := toSizeT (buf.readPos + len) } else none

def reset (buf : Buffer) : Buffer := { buf with writePos := 0, readPos := 0 }

/-- What `Begin` and `ReadableSize` show of the buffer. -/
def readable (buf : Buffer) : Bytes := (buf.buffer.drop buf.readPos).take buf.readableSize

end Buffer

/-- A call on one buffer of a family, or on two of them. -/
inductive Op (ι : Type) where
  | push (i : ι) (data : Bytes)
  | swap (i j : ι)
  | reset (i : ι)
  | moveReadPos (i : ι) (len : Int)
  | moveWritePos (i : ι) (len : Int)

/-- A failed assertion has no next state; a call that throws changes nothing. -/
def Op.step {ι : Type} [DecidableEq ι] (config : JsonData) (buffers : ι → Buffer) : Op ι → Option (ι → Buffer)
  | .push i data =>
    match (buffers i).push config data with
    | .ok buf => some (Function.update buffers i buf)
    | .error _ => some buffers
  | .swap i j =>
    let swapped := (buffers i).swap (buffers j)
    some (Function.update (Function.update buffers i swapped.1) j swapped.2)
  | .reset i => some (Function.update buffers i (buffers i).reset)
  | .moveReadPos i len => ((buffers i).moveReadPos len).map (Function.update buffers i)
  | .moveWritePos i len => ((buffers i).moveWritePos len).map (Function.update buffers i)

end HttpFramework.Mylog
