import HttpFramework.Code.HttpResponse

/-! `HttpConn` with the functions of `WebServer` that drive it: a request is taken from the read
buffer, and its response goes out from the write buffer and the mapped file. -/

namespace HttpFramework.Code

/-- A part that is to be sent: `base` is a place in the write buffer or in the mapped file. -/
structure Iovec where
  base : Nat := 0
  len : Nat := 0
deriving DecidableEq

/-- What all connections share. -/
structure Environment where
  files : Files
  userVerify : Verifier
  srcDir : Bytes
  isET : Bool

structure HttpConn where
  isClose : Bool := true
  iovCnt : Nat := 0
  iov0 : Iovec := {}
  iov1 : Iovec := {}
  readBuff : Buffer
  writeBuff : Buffer
  request : HttpRequest := {}
  response : HttpResponse := {}

/-- What `readv` brings, at the end of the stream nothing, or whether it fails with `EAGAIN`. -/
inductive Readv where
  | received (data : Bytes)
  | failed (eagain : Bool)
deriving DecidableEq, Repr

/-- What `writev` returns, or whether it fails with `EAGAIN`. -/
inductive Writev where
  | sent (len : Nat)
  | failed (eagain : Bool)
deriving DecidableEq, Repr

namespace HttpConn

def init (conn : HttpConn) : HttpConn :=
  { conn with writeBuff := conn.writeBuff.retrieveAll, readBuff := conn.readBuff.retrieveAll, isClose := false }

def close (conn : HttpConn) : HttpConn := { conn with response := conn.response.unmapFile, isClose := true }

def isKeepAlive (conn : HttpConn) : Bool := conn.request.isKeepAlive

def toWriteBytes (conn : HttpConn) : Int := toInt (conn.iov0.len + conn.iov1.len)

/-- `read`, given what its calls of `readv` bring: the connection after it and the last of these
results. Without a value the results are too few, too many or more than there was space for. -/
def read (isET : Bool) : HttpConn → List Readv → Option (Except Fault (HttpConn × Readv))
  | _, [] => none
  | conn, .failed eagain :: rest => if rest = [] then some (.ok (conn, .failed eagain)) else none
  | conn, .received data :: rest =>
    if conn.readBuff.writableBytes + Buffer.stackSize < data.length then none
    else
      match conn.readBuff.readFd data with
      | (_, some failure) => if rest = [] then some (.error (.failed failure)) else none
      | (readBuff, none) =>
        if isET ∧ data ≠ [] then read isET { conn with readBuff } rest
        else if rest = [] then some (.ok ({ conn with readBuff }, .received data))
        else none

def appendAll : List Bytes → Buffer → Except Fault Buffer
  | [], buff => .ok buff
  | text :: texts, buff =>
    match buff.append text with
    | .ok buff => appendAll texts buff
    | .error failure => .error (.failed failure)

/-- The part of `process` behind the parser. `iov_[1]` is set only where there is a file. -/
def respond (env : Environment) (code : Int) (isKeepAlive : Bool) (conn : HttpConn) : Except Fault HttpConn := do
  let response ← HttpResponse.init env.srcDir conn.request.path isKeepAlive code
  let (response, texts) ← response.makeResponse env.files
  let writeBuff ← appendAll texts conn.writeBuff
  let conn := { conn with response, writeBuff, iov0 := ⟨writeBuff.readPos, writeBuff.readableBytes⟩, iovCnt := 1 }
  if 0 < response.fileLen ∧ response.mmFile.isSome then return { conn with iov1 := ⟨0, response.fileLen⟩, iovCnt := 2 }
  else return conn

def process (env : Environment) (conn : HttpConn) : Except Fault (Bool × HttpConn) :=
  let conn := { conn with request := HttpRequest.init }
  if conn.readBuff.readableBytes = 0 then .ok (false, conn)
  else do
    let (parsed, request, readBuff) ← conn.request.parse env.userVerify conn.readBuff
    let conn := { conn with request, readBuff }
    if parsed then return (true, ← conn.respond env 200 request.isKeepAlive)
    else return (true, ← conn.respond env 400 false)

/-- The bytes that `writev` is given. -/
def offered (conn : HttpConn) : Nat := conn.iov0.len + if conn.iovCnt = 2 then conn.iov1.len else 0

/-- What `write` does when a positive number of bytes has gone out. -/
def advance (len : Nat) (conn : HttpConn) : Except Fault HttpConn :=
  if conn.iov0.len < len then
    let sent := len - conn.iov0.len
    let conn := { conn with iov1 := ⟨conn.iov1.base + sent, conn.iov1.len - sent⟩ }
    if conn.iov0.len ≠ 0 then .ok { conn with writeBuff := conn.writeBuff.retrieveAll, iov0 := { conn.iov0 with len := 0 } }
    else .ok conn
  else
    match conn.writeBuff.retrieve len with
    | .ok writeBuff => .ok { conn with writeBuff, iov0 := ⟨conn.iov0.base + len, conn.iov0.len - len⟩ }
    | .error failure => .error (.failed failure)

/-- `write`, given what its calls of `writev` bring: the connection after it and the last of these
results. Without a value the results are too few, too many or more than was offered. -/
def write (isET : Bool) : HttpConn → List Writev → Option (Except Fault (HttpConn × Writev))
  | _, [] => none
  | conn, .failed eagain :: rest => if rest = [] then some (.ok (conn, .failed eagain)) else none
  | conn, .sent len :: rest =>
    if conn.offered < len then none
    else if len = 0 ∨ conn.iov0.len + conn.iov1.len = 0 then
      if rest = [] then some (.ok (conn, .sent len)) else none
    else
      match conn.advance len with
      | .error fault => if rest = [] then some (.error fault) else none
      | .ok conn =>
        if isET ∨ 10240 < conn.toWriteBytes then write isET conn rest
        else if rest = [] then some (.ok (conn, .sent len))
        else none

end HttpConn

namespace WebServer

/-- `srcDir_`, made of what `getcwd` returns. -/
def srcDir (cwd : Bytes) : Bytes := cwd ++ ascii "/resources/"

/-- The event that a connection waits for next. -/
inductive Event where
  | EPOLLIN
  | EPOLLOUT
deriving DecidableEq, Repr

/-- How `OnWrite_` goes on: the response is taken as sent and `OnProcess` is called, the
connection waits to be writable again, or it is closed. -/
inductive AfterWrite where
  | process
  | rearm
  | close
deriving DecidableEq, Repr

def afterWrite (conn : HttpConn) (ret : Writev) : AfterWrite :=
  if conn.toWriteBytes = 0 then if conn.isKeepAlive then .process else .close
  else if ret = .failed true then .rearm
  else .close

def onProcess (env : Environment) (conn : HttpConn) : Except Fault (HttpConn × Event) := do
  let (produced, conn) ← conn.process env
  return (conn, if produced then .EPOLLOUT else .EPOLLIN)

/-- `OnRead_`, given what `readv` brings. A connection without an event has been closed. -/
def onRead (env : Environment) (results : List Readv) (conn : HttpConn) :
    Option (Except Fault (HttpConn × Option Event)) :=
  (conn.read env.isET results).map fun taken => do
    let (conn, ret) ← taken
    if ret = .received [] ∨ ret = .failed false then return (conn.close, none)
    else
      let (conn, event) ← onProcess env conn
      return (conn, some event)

/-- The end of `OnWrite_`. -/
def proceed (env : Environment) (conn : HttpConn) : AfterWrite → Except Fault (HttpConn × Option Event)
  | .process => do
    let (conn, event) ← onProcess env conn
    return (conn, some event)
  | .rearm => .ok (conn, some .EPOLLOUT)
  | .close => .ok (conn.close, none)

/-- `OnWrite_`, given what `writev` brings. -/
def onWrite (env : Environment) (results : List Writev) (conn : HttpConn) :
    Option (Except Fault (HttpConn × Option Event)) :=
  (conn.write env.isET results).map fun written => do
    let (conn, ret) ← written
    proceed env conn (afterWrite conn ret)

end WebServer

end HttpFramework.Code
